import Kernai.Proofs.Hooks

/-! The trap handler: what each kind of trap leaves behind. -/

namespace Kernai
open Foundation Kernel Payload Traps

variable {tight : Prop} {held : Held} {build : Build} {state state' : State} {pid : Pid} {more : List Entry}

/-- The frame `redirect_to_scheduler` returns to. -/
structure IsRedirect (build : Build) (frame : TrapFrame) : Prop where
  sepc : frame.sepc = build.schedulerResume
  supervisor : frame.isFromUser = false
  enabled : Machine.spie frame.sstatus = true

private theorem or_and_self (value mask : UInt64) : (value ||| mask) &&& mask = mask := by
  apply UInt64.toBitVec_inj.mp
  ext i inside
  simp only [UInt64.toBitVec_and, UInt64.toBitVec_or, BitVec.getElem_and, BitVec.getElem_or]
  cases mask.toBitVec[i] <;> simp

private theorem redirect_status (sstatus : UInt64) :
    (sstatus ||| sstatusSpp ||| sstatusSpie) &&& sstatusSpp ≠ 0 ∧
      (sstatus ||| sstatusSpp ||| sstatusSpie) &&& sstatusSpie ≠ 0 := by
  constructor
  · rw [UInt64.or_assoc, UInt64.or_comm sstatusSpp, ← UInt64.or_assoc, or_and_self]
    decide
  · rw [or_and_self]
    decide

/-- The payload is off the CPU and the hart on its way to the scheduler. -/
structure Exits (tight : Prop) (held : Held) (state state' : State) : Prop where
  calm : Calm tight held state'
  moves : Moves state state'
  current : state'.core.current = none
  satp : state'.core.phys.satp = state.core.phys.satp

theorem redirectToScheduler_frame (frame : TrapFrame) (state : State) :
    IsRedirect build ((redirectToScheduler build frame).run state).1 := by
  obtain ⟨spp, spie⟩ := redirect_status frame.sstatus
  refine ⟨rfl, ?_, ?_⟩
  · exact decide_eq_false spp
  · exact decide_eq_true spie

theorem redirectToScheduler_state (frame : TrapFrame) (state : State) :
    ((redirectToScheduler build frame).run state).2 =
      { state with core := { state.core with current := none, stack := [] } } := rfl

/-- `leave_current` once nobody runs. -/
theorem Calm.leave (calm : Calm tight held state) (nobody : ∀ other, (state.core.table other).state ≠ .running) :
    Exits tight held state { state with core := { state.core with current := none, stack := [] } } := by
  have same : SameCore state.core { state.core with current := none, stack := [] } := ⟨rfl, rfl, rfl, rfl, rfl⟩
  have inv : CoreInv tight held { state.core with current := none, stack := [] } :=
    same.inv calm.core fun other running => absurd running (nobody other)
  exact ⟨calm.advance inv same.evolves.toAdvances rfl rfl (Nat.le_refl _), .of_core same.evolves rfl, rfl, rfl⟩

theorem Calm.nobody (calm : Calm tight held state) (current : state.core.current = some pid)
    (stopped : (state.core.table pid).state ≠ .running) (other : Pid) : (state.core.table other).state ≠ .running := by
  intro running
  have isCurrent := calm.core.table.running other running
  rw [current] at isCurrent
  cases isCurrent
  exact stopped running

theorem Leaves.exits (left : Leaves tight held pid state state') (current : state.core.current = some pid) (frame : TrapFrame) :
    Exits tight held state ((redirectToScheduler build frame).run state').2 := by
  have stopped : (state'.core.table pid).state ≠ .running := by
    intro running
    have ended := left.ended
    rw [running] at ended
    cases ended
  have out := left.calm.leave (left.calm.nobody (left.current.trans current) stopped)
  exact ⟨out.calm, left.moves.trans out.moves, out.current, out.satp.trans left.satp⟩

theorem dispatch_spec (build : Build) (calm : Calm tight held state) (current : state.core.current = some pid)
    (running : (state.core.table pid).state = .running) {context : TrapFrame} (user : UserContext context) :
    (∀ value, ((Syscall.dispatch build context).run state).1 = .resume value →
      Serves tight held pid state ((Syscall.dispatch build context).run state).2) ∧
    (((Syscall.dispatch build context).run state).1 = .leave →
      Leaves tight held pid state ((Syscall.dispatch build context).run state).2) := by
  have serves : ∀ program : Kernel Int, Serves tight held pid state (program.run state).2 →
      (∀ value, ((Syscall.Outcome.resume <$> program).run state).1 = .resume value →
        Serves tight held pid state ((Syscall.Outcome.resume <$> program).run state).2) ∧
      (((Syscall.Outcome.resume <$> program).run state).1 = .leave →
        Leaves tight held pid state ((Syscall.Outcome.resume <$> program).run state).2) := by
    intro program served
    rw [Program.run_map]
    exact ⟨fun _ _ => served, nofun⟩
  have refuses : (∀ value, ((Pure.pure (Syscall.Outcome.resume enosys) : Kernel _).run state).1 = .resume value →
      Serves tight held pid state ((Pure.pure (Syscall.Outcome.resume enosys) : Kernel _).run state).2) ∧
      (((Pure.pure (Syscall.Outcome.resume enosys) : Kernel _).run state).1 = .leave →
        Leaves tight held pid state ((Pure.pure (Syscall.Outcome.resume enosys) : Kernel _).run state).2) :=
    ⟨fun _ _ => calm.idle, nofun⟩
  unfold Syscall.dispatch
  dsimp only
  split
  · simp only [Program.run_bind, Program.run_pure]
    exact ⟨nofun, fun _ => onExit_leaves calm current running _⟩
  · exact serves _ (sysWrite_serves calm current running _ _)
  · exact serves _ (onYield_serves calm current running)
  · exact serves _ (onSpawn_serves calm current running _ _)
  · exact serves _ (onSnapshot_serves calm current running user)
  · exact serves _ (onBlit_serves calm current running _ _ _)
  · split
    · exact serves _ (onFrameRgb_serves calm current running _ _ _)
    · exact refuses
  · split
    · exact serves _ (onGetkey_serves calm)
    · exact refuses
  · exact refuses

theorem UserContext.isFromUser {context : TrapFrame} (user : UserContext context) : context.isFromUser = true := by
  have status := user.status
  unfold Machine.userStatus at status
  refine decide_eq_true ?_
  rw [← status, UInt64.and_assoc]
  have none : ~~~(sstatusSpp ||| sstatusSie) &&& sstatusSpp = 0 := by decide
  rw [none, UInt64.and_zero]

theorem handleEcall_spec (calm : Calm tight held state) (current : state.core.current = some pid)
    (running : (state.core.table pid).state = .running) {context : TrapFrame} (user : UserContext context) :
    (UserContext ((handleEcall build context).run state).1 ∧
      Serves tight held pid state ((handleEcall build context).run state).2) ∨
    (IsRedirect build ((handleEcall build context).run state).1 ∧
      Exits tight held state ((handleEcall build context).run state).2) := by
  have advanced : UserContext context.advancePastEcall := ⟨user.status, user.enabled⟩
  unfold handleEcall
  simp only [Program.run_bind]
  obtain ⟨serves, leaves⟩ := dispatch_spec build calm current running advanced
  generalize (Syscall.dispatch build context.advancePastEcall).run state = done at serves leaves ⊢
  obtain ⟨outcome, after⟩ := done
  cases outcome with
  | resume value => exact .inl ⟨advanced.setA0 _, serves value rfl⟩
  | leave => exact .inr ⟨redirectToScheduler_frame _ _, (leaves rfl).exits current _⟩

theorem ringRecord_same (slot : RingSlot) (env : Env) :
    (ringRecord slot env).sie = env.sie ∧ (ringRecord slot env).log = env.log ∧
      (ringRecord slot env).wire = env.wire ∧ (ringRecord slot env).serial = env.serial := by
  unfold ringRecord
  dsimp only
  split
  · exact ⟨rfl, rfl, rfl, rfl⟩
  · split <;> exact ⟨rfl, rfl, rfl, rfl⟩

/-- The state in which `handle` branches on the cause. -/
def noted (frame : TrapFrame) (scause stval : Nat) (state : State) : State :=
  let slot : RingSlot := { id := idOf state.env.serial, scause, sepc := frame.sepc.toNat, stval }
  { state with env := ringRecord slot { state.env with serial := state.env.serial + 1 } }

theorem noted_emits (frame : TrapFrame) (scause stval : Nat) (state : State) :
    Emits state (noted frame scause stval state) [] ∧
      (noted frame scause stval state).env.serial = state.env.serial + 1 := by
  obtain ⟨sie, log, wire, serial⟩ := ringRecord_same
    { id := idOf state.env.serial, scause, sepc := frame.sepc.toNat, stval }
    { state.env with serial := state.env.serial + 1 }
  exact ⟨.quiet sie log wire (by rw [serial]; exact Nat.le_succ _), serial⟩

theorem handle_run (frame : TrapFrame) (scause stval : Nat) (state : State) :
    (handle build frame scause stval).run state =
      (if scause = Text.causeSTimer then some <$> handleTick build frame state.env.serial
      else if scause = Text.causeUEcall then some <$> handleEcall build frame
      else if frame.isFromUser then do
        let pid ← readCore (·.current)
        emitFault frame state.env.serial scause stval pid
        markFaulted
        some <$> redirectToScheduler build frame
      else do
        emitFault frame state.env.serial scause stval none
        return none).run (noted frame scause stval state) := by
  unfold handle
  rw [Program.run_bind, Program.run_bind]
  rfl

/-- Tick reports, made while the core was this one. -/
def OnlyTicks (core : Core) (more : List Entry) : Prop :=
  ∀ entry ∈ more, ∃ serial seq time, entry = stamp core (.frame serial (.tick seq time))

theorem OnlyTicks.harmless (only : OnlyTicks state.core more) (entry : Entry) (member : entry ∈ more) :
    entry.Harmless state.core := by
  obtain ⟨serial, seq, time, rfl⟩ := only entry member
  exact ⟨⟨trivial, trivial, trivial⟩, rfl, rfl, nofun⟩

theorem OnlyTicks.unnamed {core : Core} (only : OnlyTicks core more) (entry : Entry) (member : entry ∈ more) :
    entry.what.pidOf = none := by
  obtain ⟨serial, seq, time, rfl⟩ := only entry member
  rfl

/-- The tick report, under the id the trap was given. -/
theorem serviceTick_emits (build : Build) (quiet : Emits state state' []) (counted : state'.env.serial = state.env.serial + 1) :
    ∃ more, Emits state ((serviceTick build state.env.serial).run state').2 more ∧ OnlyTicks state.core more := by
  unfold serviceTick
  simp only [Program.run_bind, onEnv_run, readCore_run]
  have timed := quiet.trans (readTime_emits build state')
  have still : ((readTime build).run state').2.env.serial = state.env.serial + 1 := counted
  generalize (readTime build).run state' = now at timed still ⊢
  have rearmed : ∀ (seq deadline : Nat), Emits state { now.2 with
      env := { now.2.env with nextDeadline := deadline, ticks := seq } } [] :=
    fun seq deadline => timed.trans (.quiet rfl rfl rfl (Nat.le_refl _))
  split
  · exact ⟨[], rearmed _ _, nofun⟩
  simp only [Program.run_bind]
  have later := rearmed (bump now.2.env.ticks) (if now.2.env.nextDeadline + tickInterval ≤ now.1 then now.1 + tickInterval
    else now.2.env.nextDeadline + tickInterval)
  generalize rearm : ({ now.2 with env := { now.2.env with
    nextDeadline := if now.2.env.nextDeadline + tickInterval ≤ now.1 then now.1 + tickInterval
      else now.2.env.nextDeadline + tickInterval
    ticks := bump now.2.env.ticks } } : State) = armed at later ⊢
  have same : ((readTime build).run armed).2.env.serial = state.env.serial + 1 := by
    rw [← rearm]
    exact still
  obtain ⟨more, emits, -, only⟩ := send_emits (.tick (bump now.2.env.ticks) ((readTime build).run armed).1) same
    (later.trans (readTime_emits build armed)) (Nat.le_refl _)
  exact ⟨more, emits, fun entry member => ⟨_, _, _, only entry member⟩⟩

/-- What a tick taken while a payload is current can come to. -/
inductive Ticked (tight : Prop) (held : Held) (build : Build) (pid : Pid) (context : TrapFrame) (state : State) (frame : TrapFrame)
    (state' : State) : Prop
  | returned (same : frame = context) (passes : Passes tight held state state')
  | ended (redirect : IsRedirect build frame) (exits : Exits tight held state state')
      (done : (state'.core.table pid).state.terminal = true)
  | preempted (redirect : IsRedirect build frame) (current : state'.core.current = none)
      (running : (state.core.table pid).state = .running)
      (slot : state'.core.table pid = preemptedSlot (state.core.table pid))
      (sound : Sv39.view state.core.phys.mem (state.core.table pid).root = (state.core.table pid).lastMemory →
        Interruptible (held pid) (state.core.table pid) context → Exits tight held state state')

theorem Ticked.after {start : State} {context frame : TrapFrame} (passed : Passes tight held start state)
    (ticked : Ticked tight held build pid context state frame state') :
    Ticked tight held build pid context start frame state' := by
  have satp : state.core.phys.satp = start.core.phys.satp := by rw [passed.same.phys]
  cases ticked with
  | returned same passes => exact .returned same (passed.trans passes)
  | ended redirect exits done =>
    exact .ended redirect ⟨exits.calm, passed.moves.trans exits.moves, exits.current, exits.satp.trans satp⟩ done
  | preempted redirect current running slot sound =>
    rw [passed.slot pid] at running slot sound
    refine .preempted redirect current running slot fun memory interruptible => ?_
    have exits := sound (by rw [passed.same.phys]; exact memory) interruptible
    exact ⟨exits.calm, passed.moves.trans exits.moves, exits.current, exits.satp.trans satp⟩

theorem settleTick_killed (left : Leaves tight held pid state state') (current : state.core.current = some pid)
    (context : TrapFrame) :
    Ticked tight held build pid context state ((settleTick build context true).run state').1
      ((settleTick build context true).run state').2 := by
  unfold settleTick
  simp only [Program.run_bind, Bool.or_true, if_true]
  obtain ⟨inTime, overdue⟩ := onTick_spec build left.calm (left.current.trans current)
  generalize (onTick build).run state' = budget at inTime overdue ⊢
  have gone : Leaves tight held pid state budget.2 := by
    cases isOver : budget.1 with
    | true => exact left.trans (overdue isOver).1
    | false => exact left.serves (inTime isOver).serves
  exact .ended (redirectToScheduler_frame _ _) (gone.exits current _) gone.ended

theorem settleTick_spec (calm : Calm tight held state) (current : state.core.current = some pid) (context : TrapFrame) :
    Ticked tight held build pid context state ((settleTick build context false).run state).1
      ((settleTick build context false).run state).2 := by
  unfold settleTick
  simp only [Program.run_bind, Bool.or_false]
  obtain ⟨inTime, overdue⟩ := onTick_spec build calm current
  generalize (onTick build).run state = budget at inTime overdue ⊢
  split
  · next isOver =>
    have left := (overdue isOver).1
    exact .ended (redirectToScheduler_frame _ _) (left.exits current _) left.ended
  · next notOver =>
    have still := inTime (Bool.eq_false_iff.mpr notOver)
    refine Ticked.after still ?_
    simp only [Program.run_bind]
    obtain ⟨stays, preempts⟩ := maybePreempt_spec build still.calm (still.current.trans current) context
    generalize (maybePreempt build context).run budget.2 = tried at stays preempts ⊢
    split
    · next took =>
      have off := preempts took
      refine .preempted (redirectToScheduler_frame _ _) rfl off.running off.slot fun memory interruptible => ?_
      obtain ⟨calm', moves, satp⟩ := off.sound memory interruptible
      have out := calm'.leave (calm'.nobody (off.current.trans (still.current.trans current))
        (by rw [off.slot]; exact nofun))
      exact ⟨out.calm, moves.trans out.moves, out.current, out.satp.trans satp⟩
    · next tookNot => exact .returned rfl (stays (Bool.eq_false_iff.mpr tookNot))

theorem handleTick_spec (calm : Calm tight held state) (current : state.core.current = some pid)
    (quiet : Emits state state' []) (counted : state'.env.serial = state.env.serial + 1) (context : TrapFrame) :
    Ticked tight held build pid context state ((handleTick build context state.env.serial).run state').1
      ((handleTick build context state.env.serial).run state').2 := by
  unfold handleTick
  obtain ⟨more, emits, only⟩ := serviceTick_emits build quiet counted
  simp only [Program.run_bind]
  generalize (serviceTick build state.env.serial).run state' = ticked at emits ⊢
  have passed : Passes tight held state ticked.2 := calm.passes emits only.harmless only.unnamed
  have isCurrent : ticked.2.core.current = some pid := passed.current.trans current
  split
  · simp only [Program.run_bind]
    obtain ⟨goesOn, ends⟩ := drainKeys_spec build passed.calm isCurrent
    generalize (drainKeys build).run ticked.2 = keys at goesOn ends ⊢
    cases opKilled : keys.1 with
    | true => exact settleTick_killed (passed.serves.leaves (ends opKilled)) current context
    | false =>
      have drained := passed.trans (goesOn opKilled)
      exact Ticked.after drained (settleTick_spec drained.calm (drained.current.trans current) context)
  · exact Ticked.after passed (settleTick_spec passed.calm isCurrent context)

/-- The report of a fault, under this pid or under none. -/
structure Entry.Blames (named : Option Pid) (entry : Entry) : Prop where
  sound : entry.Sound
  isEnd : entry.what.endOf = named
  noStart : entry.what.startOf = none
  names : ∀ pid, entry.what.pidOf = some pid → named = some pid

theorem emitFaultClassic_emits (frame : TrapFrame) (scause stval : Nat) (named : Option Pid) (state : State) :
    ∃ more, Emits state ((emitFaultClassic frame scause stval named).run state).2 more ∧ more.length ≤ 1 ∧
      ∀ entry ∈ more, entry.Blames named := by
  unfold emitFaultClassic
  generalize classicLine frame scause stval named = line
  refine withoutInterrupts_emits (P := fun _ more => more.length ≤ 1 ∧ ∀ entry ∈ more, entry.Blames named) state
    fun start _ => ?_
  refine ⟨[stamp start.core (.classic named line)], ?_, Nat.le_refl _, fun entry member => ?_⟩
  · have ran : (do record (.classic named line); putAll line : Kernel Unit).run start =
        ((), delivered (.classic named line) start) := record_putAll_run (.classic named line) start
    have unnumbered : (Emission.classic named line).serial? = none := rfl
    rw [ran]
    exact delivered_emits unnumbered start
  · rw [List.mem_singleton.mp member]
    exact ⟨trivial, rfl, rfl, nofun⟩

/-- The fault report, classic or framed: at most one, and it names `pid`. -/
theorem emitFault_emits (frame : TrapFrame) (scause stval : Nat) (named : Option Pid) (quiet : Emits state state' [])
    (counted : state'.env.serial = state.env.serial + 1) (isCurrent : ∀ pid, named = some pid → state.core.current = some pid) :
    ∃ more, Emits state ((emitFault frame state.env.serial scause stval named).run state').2 more ∧ more.length ≤ 1 ∧
      ∀ entry ∈ more, entry.Blames named := by
  unfold emitFault
  simp only [Program.run_bind, readCore_run]
  split
  · obtain ⟨more, emits, one, sound⟩ := emitFaultClassic_emits frame scause stval named state'
    exact ⟨more, quiet.trans emits, one, sound⟩
  · simp only [Program.run_bind, Program.run_read]
    split
    · obtain ⟨more, emits, one, only⟩ := send_emits (.faultMinimal (faultReport frame scause stval named state')) counted quiet
        (Nat.le_refl _)
      refine ⟨more, emits, one, fun entry member => ?_⟩
      rw [only entry member]
      exact ⟨⟨trivial, trivial, trivial⟩, rfl, rfl, fun _ names => names⟩
    · obtain ⟨more, emits, one, only⟩ := send_emits (.fault (faultReport frame scause stval named state')) counted quiet
        (Nat.le_refl _)
      refine ⟨more, emits, one, fun entry member => ?_⟩
      rw [only entry member]
      refine ⟨⟨trivial, trivial, ?_⟩, rfl, rfl, fun _ names => names⟩
      cases named with
      | none => rfl
      | some pid => simp [Event.Caused, faultReport, currentCause, quiet.core, isCurrent pid rfl, stamp]

/-- A payload fault: reported while the slot still says RUNNING, then marked. -/
theorem Calm.faults (calm : Calm tight held state) (current : state.core.current = some pid)
    (running : (state.core.table pid).state = .running) (emits : Emits state state' more) (one : more.length ≤ 1)
    (blames : ∀ entry ∈ more, entry.Blames (some pid)) :
    Leaves tight held pid state (markFaulted.run state').2 := by
  have isEnd : ProcState.faulted.terminal = true := rfl
  obtain ⟨marked, unreported⟩ := setState_leaves calm running isEnd
  have ran : (markFaulted.run state').2 = { state' with core := setState state.core pid .faulted } := by
    unfold markFaulted
    rw [modifyCore_run]
    simp only [emits.core, current]
  have core : (markFaulted.run state').2.core = setState state.core pid .faulted := by rw [ran]
  have env : (markFaulted.run state').2.env = state'.env := by rw [ran]
  obtain ⟨stream, whole⟩ := emits.logs.stream calm.stream calm.whole
  have log : LogInv (setState state.core pid .faulted) state'.env.log := by
    rw [emits.logs.log]
    match more, one with
    | [], _ => rw [List.append_nil]; exact marked.calm.log
    | [entry], _ =>
      have blame := blames entry (List.mem_singleton_self entry)
      obtain ⟨what, rfl⟩ := emits.stamped entry (List.mem_singleton_self entry)
      exact marked.calm.log.report blame.sound rfl blame.isEnd unreported marked.ended
  refine ⟨⟨by rw [core]; exact marked.calm.core, by rw [core, env]; exact log, by rw [env]; exact stream,
    by rw [env]; exact whole⟩, ⟨by rw [core]; exact marked.moves.core, more, ?_, ?_⟩, ?_, ?_, ?_⟩
  · rw [env, emits.logs.log]
  · intro entry member
    obtain ⟨what, rfl⟩ := emits.stamped entry member
    refine ⟨⟨(blames _ member).noStart, fun other names => ?_⟩, rfl, fun _ _ => rfl⟩
    cases (blames _ member).names other names
    exact running
  · rw [core]
    rfl
  · rw [core]
    exact marked.ended
  · rw [core]
    rfl

theorem handle_tick (build : Build) (calm : Calm tight held state) (current : state.core.current = some pid)
    (context : TrapFrame) : ∃ frame state', (handle build context Text.causeSTimer 0).run state = (some frame, state') ∧
      Ticked tight held build pid context state frame state' := by
  obtain ⟨quiet, counted⟩ := noted_emits context Text.causeSTimer 0 state
  rw [handle_run, if_pos rfl, Program.run_map]
  exact ⟨_, _, rfl, handleTick_spec calm current quiet counted context⟩

theorem settleTick_nobody (current : state.core.current = none) (context : TrapFrame) :
    (settleTick build context false).run state = (context, state) := by
  unfold settleTick onTick maybePreempt
  simp [current]

/-- A tick while nobody is current does no more than report itself. -/
theorem handle_tick_nobody_run (build : Build) (current : state.core.current = none) (context : TrapFrame) :
    (handle build context Text.causeSTimer 0).run state =
      (some context, ((serviceTick build state.env.serial).run (noted context Text.causeSTimer 0 state)).2) := by
  obtain ⟨quiet, counted⟩ := noted_emits context Text.causeSTimer 0 state
  obtain ⟨more, emits, -⟩ := serviceTick_emits build quiet counted
  rw [handle_run, if_pos rfl, Program.run_map]
  unfold handleTick
  rw [Program.run_bind]
  generalize (serviceTick build state.env.serial).run (noted context Text.causeSTimer 0 state) = ticked at emits ⊢
  have nobody : ticked.2.core.current = none := by rw [emits.core, current]
  have drained : (drainKeys build).run ticked.2 = (false, ticked.2) := by
    unfold drainKeys
    simp [nobody]
  split
  · rw [Program.run_bind, drained, settleTick_nobody nobody]
  · rw [settleTick_nobody nobody]

theorem handle_tick_nobody (build : Build) (current : state.core.current = none) (context : TrapFrame) :
    ∃ state' more, (handle build context Text.causeSTimer 0).run state = (some context, state') ∧ Emits state state' more ∧
      OnlyTicks state.core more := by
  obtain ⟨quiet, counted⟩ := noted_emits context Text.causeSTimer 0 state
  obtain ⟨more, emits, only⟩ := serviceTick_emits build quiet counted
  exact ⟨_, more, handle_tick_nobody_run build current context, emits, only⟩

theorem handle_ecall (build : Build) (calm : Calm tight held state) (current : state.core.current = some pid)
    (running : (state.core.table pid).state = .running) {context : TrapFrame} (user : UserContext context) :
    ∃ frame state', (handle build context Text.causeUEcall 0).run state = (some frame, state') ∧
      ((UserContext frame ∧ Serves tight held pid state state') ∨
        (IsRedirect build frame ∧ Exits tight held state state')) := by
  obtain ⟨quiet, -⟩ := noted_emits context Text.causeUEcall 0 state
  have passed : Passes tight held state (noted context Text.causeUEcall 0 state) := calm.passes quiet nofun nofun
  rw [handle_run, if_neg (by decide), if_pos rfl, Program.run_map]
  refine ⟨_, _, rfl, ?_⟩
  rcases handleEcall_spec passed.calm (passed.current.trans current) (by rw [passed.slot]; exact running) user with
    ⟨isUser, serves⟩ | ⟨redirect, exits⟩
  · exact .inl ⟨isUser, passed.serves.trans serves⟩
  · refine .inr ⟨redirect, exits.calm, passed.moves.trans exits.moves, exits.current, exits.satp.trans ?_⟩
    rw [passed.same.phys]

theorem handle_fault (build : Build) (calm : Calm tight held state) (current : state.core.current = some pid)
    (running : (state.core.table pid).state = .running) {context : TrapFrame} (user : UserContext context)
    {scause stval : Nat} (other : scause ≠ Text.causeSTimer ∧ scause ≠ Text.causeUEcall) :
    ∃ frame state', (handle build context scause stval).run state = (some frame, state') ∧
      IsRedirect build frame ∧ Exits tight held state state' := by
  obtain ⟨quiet, counted⟩ := noted_emits context scause stval state
  have isCurrent : (noted context scause stval state).core.current = some pid := current
  rw [handle_run, if_neg other.1, if_neg other.2, if_pos user.isFromUser]
  simp only [Program.run_bind, Program.run_map, readCore_run, isCurrent]
  obtain ⟨more, emits, one, blames⟩ := emitFault_emits context scause stval (some pid) quiet counted
    fun _ isPid => isPid ▸ current
  have left := calm.faults current running emits one blames
  exact ⟨_, _, rfl, redirectToScheduler_frame _ _, left.exits current _⟩

/-- A fault in S-mode is reported under no pid; then the machine is off. -/
theorem handle_crash (build : Build) (calm : Calm tight held state) {frame : TrapFrame} (supervisor : frame.isFromUser = false)
    (stval : Nat) : ∃ state', (handle build frame Text.causeIllegalInstruction stval).run state = (none, state') ∧
      Passes tight held state state' := by
  obtain ⟨quiet, counted⟩ := noted_emits frame Text.causeIllegalInstruction stval state
  obtain ⟨more, emits, -, blames⟩ := emitFault_emits frame Text.causeIllegalInstruction stval none quiet counted nofun
  rw [handle_run, if_neg (by decide), if_neg (by decide), if_neg (by rw [supervisor]; decide), Program.run_bind]
  have unnamed : ∀ entry ∈ more, entry.what.pidOf = none := by
    intro entry member
    by_contra named
    obtain ⟨pid, isPid⟩ := Option.ne_none_iff_exists'.mp named
    cases (blames entry member).names pid isPid
  refine ⟨_, rfl, calm.passes emits (fun entry member => ⟨(blames entry member).sound, (blames entry member).isEnd,
    (blames entry member).noStart, fun pid names => ?_⟩) unnamed⟩
  cases (blames entry member).names pid names

end Kernai
