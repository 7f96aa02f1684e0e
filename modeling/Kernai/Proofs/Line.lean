import Kernai.Proofs.Deeds
import Kernai.Proofs.Journal
import Kernai.Proofs.Reachable

/-! The records of the control plane over whole runs. -/

namespace Kernai
open Foundation Program Kernel Payload Machine Traps

variable {tight only : Prop} {held : Held} {build : Build} {core : Core} {state state' : State} {pid : Pid} {program : Kernel Next}
  {base new : List Turn} {home : Prop} {stash : Option UInt8} {config next : Config} {context frame : TrapFrame}

section Handler

/-- What the trap handler leaves of the records: back to where it came from, or on to
the scheduler. -/
inductive Handled (build : Build) (base : List Turn) (home : Prop) (context frame : TrapFrame) (state : State) : Prop
  | back (place : frame = context ∨ UserContext frame) (resting : Resting build base home state)
  | away (redirect : IsRedirect build frame) (ready : LineReady build base home .run state)

theorem redirect_line (away : Away build home new) {slack : Nat} (turned : Turned build base home slack stash new state)
    (frame : TrapFrame) : Handled build base home context ((redirectToScheduler build frame).run state).1
      ((redirectToScheduler build frame).run state).2 := by
  refine .away (redirectToScheduler_frame frame state) ⟨new, stash, away, ?_⟩
  rw [redirectToScheduler_state]
  exact turned.books ⟨rfl, rfl, rfl, rfl, rfl⟩ ⟨(Stacked.reset state.core).1.bounded, nofun⟩

theorem Resting.redirects (resting : Resting build base home state) (frame : TrapFrame) :
    Handled build base home context ((redirectToScheduler build frame).run state).1
      ((redirectToScheduler build frame).run state).2 := by
  obtain ⟨new, away, turned⟩ := resting
  exact redirect_line away turned frame

theorem Resting.within {α : Type} {program : Kernel α} (resting : Resting build base home state)
    (within : Within Unrecorded program) : Resting build base home (program.run state).2 :=
  resting_onRecord _ _ (within.keeps state) resting

theorem Resting.record (resting : Resting build base home state) (same : SameRecord state.core core) :
    Resting build base home { state with core } := resting_onRecord _ _ ⟨same, rfl, rfl⟩ resting

theorem Turned.record {slack : Nat} (turned : Turned build base home slack stash new state) (same : SameRecord state.core core) :
    Turned build base home slack stash new { state with core } := turned_onRecord _ _ ⟨same, rfl, rfl⟩ turned

theorem Resting.noted (resting : Resting build base home state) (frame : TrapFrame) (scause stval : Nat) :
    Resting build base home (noted frame scause stval state) :=
  resting_onRecord _ _ (noted_unrecorded frame scause stval state) resting

theorem ecall_line (resting : Resting build base home state) (user : UserContext context) :
    ∃ frame state', (handle build context Text.causeUEcall 0).run state = (some frame, state') ∧
      Handled build base home context frame state' := by
  rw [handle_run, if_neg (by decide), if_pos rfl, Program.run_map]
  refine ⟨_, _, rfl, ?_⟩
  have advanced : UserContext context.advancePastEcall := ⟨user.status, user.enabled⟩
  unfold handleEcall
  simp only [Program.run_bind]
  have served : Resting build base home ((Syscall.dispatch build context.advancePastEcall).run _).2 :=
    (resting.noted context Text.causeUEcall 0).within (dispatch_within _).unrecorded
  generalize (Syscall.dispatch build context.advancePastEcall).run (noted context Text.causeUEcall 0 state) = done at served ⊢
  obtain ⟨outcome, after⟩ := done
  cases outcome with
  | resume value => exact .back (.inr (advanced.setA0 _)) served
  | leave => exact served.redirects _

theorem fault_line (resting : Resting build base home state) (user : UserContext context) {scause stval : Nat}
    (other : scause ≠ Text.causeSTimer ∧ scause ≠ Text.causeUEcall) :
    ∃ frame state', (handle build context scause stval).run state = (some frame, state') ∧
      Handled build base home context frame state' := by
  rw [handle_run, if_neg other.1, if_neg other.2, if_pos user.isFromUser]
  simp only [Program.run_bind, Program.run_map]
  refine ⟨_, _, rfl, Resting.redirects ?_ _⟩
  exact (((resting.noted context scause stval).within (readCore_within _).unrecorded).within
    (emitFault_within _ _ _ _ _).unrecorded).within markFaulted_within.unrecorded

/-- The bytes a key drain reads. -/
theorem drainBytes_line (doom : build.doom = true) (count : Nat) (killed : Bool) (resting : Resting build base home state) :
    Resting build base home ((drainBytes build pid count killed).run state).2 := by
  induction count generalizing killed state with
  | zero => exact resting
  | succ count ih =>
    rw [drainBytes]
    obtain ⟨new, away, turned⟩ := resting
    have took := (consoleGetchar_line state fun later moves => drafting_onRecord.stable _ later moves turned.drafting).run
      Undisturbed.refl
    simp only [Program.run_bind]
    generalize consoleGetchar.run state = got at took ⊢
    obtain ⟨byte?, next⟩ := got
    have reads : ∀ turn : Turn, turn.reader = .drain → ∀ after, Drafting build (base ++ new ++ [turn]) .blank after →
        Resting build base home after := by
      intro turn _ after drafting
      rw [List.append_assoc] at drafting
      exact ⟨_, away.append [turn], drafting.turned (turned.attended.concat fun assumed => .inr (away assumed))⟩
    cases byte? with
    | none =>
      rw [Option.toList_none, Draft.take_nil] at took
      exact ⟨new, away, took.turned turned.attended⟩
    | some byte =>
      simp only [Program.run_bind, readCore_run]
      by_cases pending : next.core.keyPending = true
      · rw [if_pos pending]
        simp only [Program.run_bind, modifyCore_run]
        have partner := reads (.key .drain .partner byte) rfl _ (took.key .partner false ⟨doom, .inl rfl, .inr (.inl rfl)⟩
          fun flag => ⟨rfl, (pending.symm.trans flag)⟩)
        by_cases chord : byte = keyOpKill
        · rw [if_pos chord]
          simp only [Program.run_bind, readCore_run]
          split
          · simp only [Program.run_bind, modifyCore_run]
            refine ih true (Resting.within ?_ (emitKilledOperator_within pid).unrecorded)
            exact partner.record (setSlot_record _ pid (by exact fun _ _ => ⟨by simp, rfl⟩))
          · exact ih true partner
        · rw [if_neg chord]
          split
          · simp only [Program.run_bind, modifyCore_run]
            exact ih killed (partner.record (pushKey_record byte _))
          · exact ih killed partner
      · rw [if_neg pending]
        rw [Bool.not_eq_true] at pending
        simp only [Program.run_bind, modifyCore_run]
        refine ih killed ?_
        unfold leadKey
        split
        next isPrefix =>
          exact reads (.key .drain .lead byte) rfl _ (took.key .lead true ⟨doom, .inl rfl, .inl ⟨rfl, isPrefix⟩⟩
            fun flag => ⟨rfl, pending.symm.trans flag⟩)
        next other =>
          have ignored := took.key .ignored next.core.keyPending
            ⟨doom, .inl rfl, .inr (.inr ⟨rfl, rfl, other⟩)⟩ fun flag => ⟨pending, pending.symm.trans flag⟩
          exact reads _ rfl _ ignored

theorem drainKeys_line (doom : build.doom = true) (resting : Resting build base home state) :
    Resting build base home ((drainKeys build).run state).2 := by
  unfold drainKeys
  simp only [Program.run_bind, readCore_run]
  split
  · exact resting
  · simp only [Program.run_bind, readCore_run]
    split
    · exact resting
    · simp only [Program.run_bind, readEnv_run]
      exact drainBytes_line doom _ false resting

/-- A preempting tick leaves its byte for the service loop; one that has nowhere to save
the payload would lose it, but every running payload has a resume frame. -/
theorem maybePreempt_line (current : state.core.current = some pid)
    (backed : (state.core.table pid).state = .running → (state.core.table pid).resumeFrame ≠ 0)
    (resting : Resting build base home state) (context : TrapFrame) :
    (((maybePreempt build context).run state).1 = false → Resting build base home ((maybePreempt build context).run state).2) ∧
      (((maybePreempt build context).run state).1 = true → ∃ new stash, Away build home new ∧
        Turned build base home 1 stash new ((maybePreempt build context).run state).2) := by
  unfold maybePreempt
  simp only [Program.run_bind, readCore_run, current]
  split
  · exact ⟨fun _ => resting, nofun⟩
  next running =>
  rw [not_not] at running
  split
  · exact ⟨fun _ => resting, nofun⟩
  · obtain ⟨new, away, turned⟩ := resting
    have took := (consoleGetchar_line state fun later moves => drafting_onRecord.stable _ later moves turned.drafting).run
      Undisturbed.refl
    have same : (consoleGetchar.run state).2.core = state.core := rfl
    simp only [Program.run_bind]
    generalize consoleGetchar.run state = got at took same ⊢
    obtain ⟨byte?, next⟩ := got
    cases byte? with
    | none =>
      rw [Option.toList_none, Draft.take_nil] at took
      exact ⟨fun _ => ⟨new, away, took.turned turned.attended⟩, nofun⟩
    | some byte =>
      have stashed : Turned build base home 1 (some byte) new { next with core := { next.core with stashedByte := some byte } } :=
        ⟨{ took.amid with }, rfl, took.stacked.same rfl rfl (Nat.le_refl _), took.keyed, turned.attended⟩
      have frame : preemptFrame pid { next.core with stashedByte := some byte } =
          (some (state.core.table pid).resumeFrame, { next.core with stashedByte := some byte }) := by
        unfold preemptFrame
        rw [show ({ next.core with stashedByte := some byte } : Core).table = state.core.table by rw [← same]]
        exact if_neg (backed running)
      simp only [Program.run_bind, modifyCore_run, onCore_run, frame]
      refine ⟨nofun, fun _ => ⟨new, some byte, away, ?_⟩⟩
      exact turned_onRecord _ _ ((emitSchedPreempt_within pid).unrecorded.keeps _)
        (stashed.record ((phys_record _ _).trans (setSlot_record _ pid (by exact fun _ _ => ⟨by simp, rfl⟩))))

theorem settleTick_line (calm : Calm tight held state) (current : state.core.current = some pid)
    (resting : Resting build base home state) (context : TrapFrame) (opKilled : Bool) :
    Handled build base home context ((settleTick build context opKilled).run state).1
      ((settleTick build context opKilled).run state).2 := by
  unfold settleTick
  simp only [Program.run_bind]
  have ticked : Resting build base home ((onTick build).run state).2 := resting.within onTick_within.unrecorded
  obtain ⟨inTime, -⟩ := onTick_spec build calm current
  generalize (onTick build).run state = budget at ticked inTime ⊢
  split
  · exact ticked.redirects context
  next goesOn =>
    rw [Bool.not_eq_true, Bool.or_eq_false_iff] at goesOn
    have still := inTime goesOn.1
    obtain ⟨stays, preempts⟩ := maybePreempt_line (still.current.trans current)
      (fun running => still.calm.core.table.loaded pid (by simp [Slot.engaged, running])) ticked context
    simp only [Program.run_bind]
    generalize (maybePreempt build context).run budget.2 = tried at stays preempts ⊢
    split
    next took =>
      obtain ⟨new, stash, away, turned⟩ := preempts took
      exact redirect_line away turned context
    next tookNot => exact .back (.inl rfl) (stays (Bool.eq_false_iff.mpr tookNot))

/-- A tick while a payload is current. -/
theorem tick_line (calm : Calm tight held state) (current : state.core.current = some pid)
    (resting : Resting build base home state) (context : TrapFrame) :
    ∃ frame state', (handle build context Text.causeSTimer 0).run state = (some frame, state') ∧
      Handled build base home context frame state' := by
  obtain ⟨quiet, counted⟩ := noted_emits context Text.causeSTimer 0 state
  obtain ⟨more, emits, only⟩ := serviceTick_emits build quiet counted
  rw [handle_run, if_pos rfl, Program.run_map]
  refine ⟨_, _, rfl, ?_⟩
  unfold handleTick
  simp only [Program.run_bind]
  have reported : Resting build base home ((serviceTick build state.env.serial).run _).2 :=
    (resting.noted context Text.causeSTimer 0).within (serviceTick_within _)
  generalize (serviceTick build state.env.serial).run (noted context Text.causeSTimer 0 state) = ticked at reported emits ⊢
  have passed : Passes tight held state ticked.2 := calm.passes emits only.harmless only.unnamed
  have isCurrent : ticked.2.core.current = some pid := passed.current.trans current
  split
  next doom =>
    simp only [Program.run_bind]
    have drained : Resting build base home ((drainKeys build).run ticked.2).2 := drainKeys_line doom reported
    obtain ⟨goesOn, ends⟩ := drainKeys_spec build passed.calm isCurrent
    generalize (drainKeys build).run ticked.2 = keys at drained goesOn ends ⊢
    cases opKilled : keys.1 with
    | true => exact settleTick_line (ends opKilled).calm ((ends opKilled).current.trans isCurrent) drained context true
    | false => exact settleTick_line (goesOn opKilled).calm ((goesOn opKilled).current.trans isCurrent) drained context false
  next => exact settleTick_line passed.calm isCurrent reported context false

/-- A tick while nobody is current. -/
theorem tick_undisturbed (build : Build) (current : state.core.current = none) (context : TrapFrame) :
    ∃ state', (handle build context Text.causeSTimer 0).run state = (some context, state') ∧ Undisturbed state state' := by
  obtain ⟨state', more, ran, emits, -⟩ := handle_tick_nobody build current context
  have isState := congrArg Prod.snd (ran.symm.trans (handle_tick_nobody_run build current context))
  have reported : Unrecorded state state' := by
    rw [show state' = _ from isState]
    exact (noted_unrecorded context Text.causeSTimer 0 state).trans ((serviceTick_within _).keeps _)
  exact ⟨state', ran, emits.core, reported.read, reported.replies⟩

end Handler

theorem Shallow.nests (shallow : Shallow state state') : Nests state.core state'.core := by
  rcases shallow.stack with same | none
  · exact .of_same same shallow.suite
  · refine .inl ⟨shallow.suite, ?_⟩
    rw [oldRuns, none]
    exact Nat.zero_le _

section Steps

/-- What holds of the records between any two steps. -/
def LineInv (build : Build) (base : List Turn) (home : Prop) (hart : Hart) (state : State) : Prop :=
  match hart with
  | .kernel program => Safe lineRules (LineReady build base home) program state
  | _ => Resting build base home state

theorem LineReady.safe {post : Next} (ready : LineReady build base home post state) (stays : leavesKernel post = false) :
    Safe lineRules (LineReady build base home) (Main.code build post) state :=
  code_line stays state fun later moves => (lineReady_onRecord post).stable _ later moves ready

theorem Resting.setSie (resting : Resting build base home state) (sie : Bool) : Resting build base home (setSie state sie) :=
  resting_onRecord state _ ⟨.refl _, rfl, rfl⟩ resting

theorem LineReady.setSie {post : Next} (ready : LineReady build base home post state) (sie : Bool) :
    LineReady build base home post (setSie state sie) := lineReady_onRecord post state _ ⟨.refl _, rfl, rfl⟩ ready

/-- `start`'s tail announces the payload and hands over to it. -/
theorem launch_run (launch : Launch) (state : State) :
    ((Payload.launch launch).run state).1 = .resumeUser launch.satp launch.frame ∧
      ((Payload.launch launch).run state).2.core.ledger = state.core.ledger ∧
      ∀ pid, (((Payload.launch launch).run state).2.core.table pid).state = (state.core.table pid).state ∧
        (((Payload.launch launch).run state).2.core.table pid).startedAt = (state.core.table pid).startedAt := by
  unfold Payload.launch
  split
  · have announced : ((emitStart launch).run state).2.core =
        setSlot state.core launch.pid fun slot => { slot with startEvent := .ofNat state.env.serial } := by
      simp only [Program.run_bind, emitStart, withoutInterrupts_run, send_run, nextId, onEnv, readCore, modifyCore, onCore,
        Program.run_modifyGet]
      repeat' split
      all_goals rfl
    simp only [Program.run_bind, Program.run_pure, announced]
    refine ⟨trivial, rfl, fun pid => ?_⟩
    simp only [setSlot]
    split <;> exact ⟨rfl, rfl⟩
  · exact ⟨rfl, rfl, fun _ => ⟨rfl, rfl⟩⟩

/-- Between `CURRENT.store` and `__resume_user` no turn is going on. -/
theorem Pause.resting {launch : Launch} (pause : Pause launch program)
    (safe : Safe lineRules (LineReady build base home) program state) : Resting build base home state := by
  cases pause with
  | handed => exact safe state (.refl state)
  | spoken => exact safe state (.refl state)
  | entered =>
    obtain ⟨isResume, ledger, slots⟩ := launch_run launch state
    have unrecorded := (launch_within launch).unrecorded.keeps state
    have ready := safe.run Undisturbed.refl
    rw [isResume] at ready
    -- the announcement leaves the records alone, so they were the same before it
    refine resting_onRecord _ state ⟨⟨?_, ?_, ?_, ?_, ?_, ?_, ?_, ?_⟩, unrecorded.read.symm, unrecorded.replies.symm⟩ ready
    · exact unrecorded.core.journal.symm
    · exact unrecorded.core.stashedByte.symm
    · exact unrecorded.core.keyPending.symm
    · exact unrecorded.core.opIds.symm
    · exact unrecorded.core.opHead.symm
    · exact unrecorded.core.stack.symm
    · exact unrecorded.core.suite.symm
    · refine ⟨ledger ▸ List.prefix_refl _, fun pid used => ?_⟩
      obtain ⟨sameState, sameTime⟩ := slots pid
      exact ⟨sameState ▸ used, .inl sameTime.symm⟩

theorem Pause.safe {launch : Launch} (pause : Pause launch program) (resting : Resting build base home state) :
    Safe lineRules (LineReady build base home) program state := by
  cases pause with
  | handed => exact fun later moves => resting_onRecord.stable _ later moves resting
  | spoken => exact fun later moves => resting_onRecord.stable _ later moves resting
  | entered => exact launch_line launch state fun later moves => resting_onRecord.stable _ later moves resting

theorem LineInv.stacked {hart : Hart} (line : LineInv build base home hart state) : Stacked 1 state.core := by
  cases hart with
  | user context =>
    obtain ⟨new, -, turned⟩ := line
    exact turned.stacked
  | off =>
    obtain ⟨new, -, turned⟩ := line
    exact turned.stacked
  | kernel program =>
    cases program with
    | act update next => exact (line state (.refl state)).1
    | pure next =>
      have ready := line state (.refl state)
      cases next with
      | idle =>
        obtain ⟨new, turned⟩ := ready
        exact turned.stacked
      | run =>
        obtain ⟨new, stash, -, turned⟩ := ready
        exact turned.stacked.weaken
      | service =>
        obtain ⟨new, stash, -, turned⟩ := ready
        exact turned.stacked
      | seed suite =>
        obtain ⟨new, -, -, turned⟩ := ready
        exact turned.stacked
      | _ =>
        obtain ⟨new, -, turned⟩ := ready
        exact turned.stacked

/-- What no reader notices. -/
theorem LineInv.undisturbed {hart : Hart} (line : LineInv build base home hart state) (undisturbed : Undisturbed state state') :
    LineInv build base home hart state' := by
  cases hart with
  | kernel program => exact Safe.settle Undisturbed.trans line undisturbed
  | _ => exact resting_onRecord.stable _ _ undisturbed line

/-- The kernel's own fault is its last report. -/
theorem crash_run (supervisor : frame.isFromUser = false) {stval : Nat} :
    (handle build frame Text.causeIllegalInstruction stval).run state =
      (none, ((emitFault frame state.env.serial Text.causeIllegalInstruction stval none).run
        (noted frame Text.causeIllegalInstruction stval state)).2) := by
  rw [handle_run, if_neg (by decide), if_neg (by decide), if_neg (by rw [supervisor]; decide), Program.run_bind]
  rfl

theorem crash_unrecorded (state : State) (frame : TrapFrame) (stval : Nat) :
    Unrecorded state ((emitFault frame state.env.serial Text.causeIllegalInstruction stval none).run
      (noted frame Text.causeIllegalInstruction stval (setSie state false))).2 :=
  have masked : Unrecorded state (setSie state false) := ⟨.refl _, rfl, rfl⟩
  masked.trans ((noted_unrecorded _ _ _ _).trans ((emitFault_within _ _ _ _ _).unrecorded.keeps _))

/-- A trap as far as the stack goes. -/
theorem trap_shallow (build : Build) (config : Config) (context : TrapFrame) (scause stval : Nat) (program : Kernel Next) :
    Shallow config.state (trap build config context scause stval program).state := by
  have handled := (handle_reported build context scause stval (setSie config.state false)).toShallow
  have masked : Shallow config.state (setSie config.state false) := ⟨.inl rfl, rfl⟩
  unfold trap
  generalize (handle build context scause stval).run (setSie config.state false) = result at handled ⊢
  obtain ⟨frame?, after⟩ := result
  cases frame? with
  | none => exact masked.trans handled
  | some frame =>
    refine masked.trans (handled.trans ?_)
    unfold trapReturn
    dsimp only
    split
    · exact ⟨.inl rfl, rfl⟩
    · split <;> exact ⟨.inl rfl, rfl⟩

/-- A trap from U-mode. -/
theorem userTrap_line (there : UserAt tight held pid context config.state) (resting : Resting build base home config.state)
    {scause stval : Nat} (handles : ∀ state, Calm tight held state → state.core.current = some pid →
      Resting build base home state → ∃ frame state', (handle build context scause stval).run state = (some frame, state') ∧
        Handled build base home context frame state') :
    LineInv build base home (userTrap build config context scause stval).hart
        (userTrap build config context scause stval).state ∧
      Nests config.state.core (userTrap build config context scause stval).state.core := by
  have noted := noteUser_unrecorded config.state context
  have trapped := there.trapped
  refine ⟨?_, (noted.shallow.trans (trap_shallow build { config with state := noteUser config.state context } context scause stval
    (.pure .run))).nests⟩
  obtain ⟨frame, state', ran, result⟩ := handles _ trapped.calm trapped.current ((resting_onRecord _ _ noted resting).setSie false)
  have taken : userTrap build config context scause stval =
      trapReturn build { config with state := noteUser config.state context } frame state' (.pure .run) := trap_returns ran
  rw [taken]
  cases result with
  | back place resting' =>
    have user : UserContext frame := place.elim (fun same => same ▸ there.user) id
    rw [trapReturn_user user]
    exact resting'.setSie true
  | away redirect ready =>
    rw [trapReturn_redirect redirect]
    exact (ready.setSie true).safe rfl

theorem kernelTick_hart (build : Build) (config : Config) (program : Kernel Next) (frame : TrapFrame) :
    (kernelTick build config program frame).hart = (trap build config frame Text.causeSTimer 0 program).hart ∧
      (kernelTick build config program frame).state = (trap build config frame Text.causeSTimer 0 program).state := by
  unfold kernelTick
  dsimp only
  split <;> exact ⟨rfl, rfl⟩

theorem kernelTick_line (inv : SystemInv build tight only config) (isHart : config.hart = .kernel program)
    (line : Safe lineRules (LineReady build base home) program config.state)
    (enabled : config.state.env.sie = true) (supervisor : frame.isFromUser = false)
    (enabledBefore : spie frame.sstatus = true)
    (place : frame.sepc = build.schedulerResume → program = Main.code build .run) :
    LineInv build base home (kernelTick build config program frame).hart (kernelTick build config program frame).state := by
  have phase : Phase build tight (heldIn only config.interrupted) config.state program := by
    rw [SystemInv, isHart] at inv
    exact inv
  obtain ⟨hart, isState⟩ := kernelTick_hart build config program frame
  rw [hart, isState]
  rcases phase.awake enabled with nobody | ⟨launch, window, pause, -⟩
  · have masked : (setSie config.state false).core.current = none := nobody
    obtain ⟨state', ran, undisturbed⟩ := tick_undisturbed build masked frame
    rw [trap_returns ran, trapReturn_kernel supervisor enabledBefore place]
    exact line.settle Undisturbed.trans ⟨undisturbed.core, undisturbed.read, undisturbed.replies⟩
  · have resting := (pause.resting line).setSie false
    obtain ⟨frame', state', ran, handled⟩ := tick_line (window.calm.setSie false) window.launched.current resting frame
    rw [trap_returns ran]
    cases handled with
    | back returns resting' =>
      rcases returns with rfl | user
      · rw [trapReturn_kernel supervisor enabledBefore place]
        exact pause.safe (resting'.setSie true)
      · rw [trapReturn_user user]
        exact resting'.setSie true
    | away redirect ready =>
      rw [trapReturn_redirect redirect]
      exact (ready.setSie true).safe rfl

theorem resume_line {satp at' : Nat} (ready : Ready tight (heldIn only config.interrupted) (.resumeUser satp at') config.state)
    (resting : Resting build base home config.state) :
    LineInv build base home (resume config satp at').hart (resume config satp at').state := by
  obtain ⟨launch, rfl, rfl, window, -⟩ := ready
  have switched := resting.record (phys_record config.state.core (Hal.writeSatp config.state.core.phys launch.satp))
  unfold Machine.resume
  dsimp only
  split
  · exact (switched.record (noteEntered_record _)).setSie _
  next kernel =>
    have context := window.launched.parked.context
    rw [← window.launched.frame] at context
    rcases context with ⟨loaded, user⟩ | ⟨⟨-, saved, -, -, -, -, pause⟩, -⟩
    · refine absurd ?_ kernel
      rw [← user.isFromUser, ← loaded]
      rfl
    · exact pause.safe (switched.setSie _)

/-- One step of the machine. -/
theorem Machine.Step.line (inv : SystemInv build tight only config)
    (line : LineInv build base home config.hart config.state) (step : Step build config next) :
    LineInv build base home next.hart next.state ∧ Nests config.state.core next.state.core := by
  have stands := inv
  rw [SystemInv] at stands
  cases step with
  | act running =>
    rw [running] at line
    obtain ⟨-, nests, rest⟩ := line config.state (.refl _)
    exact ⟨rest, nests⟩
  | enter running stays =>
    rw [running] at line
    exact ⟨(line config.state (.refl _)).safe stays, .of_same rfl rfl⟩
  | resume running =>
    rw [running] at stands line
    refine ⟨resume_line (Phase.at_pure stands) (line config.state (.refl _)), ?_⟩
    unfold Machine.resume
    dsimp only
    split
    · exact .of_same (noteEntered_record _).stack (noteEntered_record _).suite
    · exact .of_same rfl rfl
  | crash frame stval running supervisor =>
    rw [running] at stands line
    refine ⟨?_, (trap_shallow build config frame Text.causeIllegalInstruction stval (.pure .crash)).nests⟩
    have resting : Resting build base home config.state := line config.state (.refl _)
    unfold trap
    rw [crash_run supervisor]
    exact resting_onRecord _ _ (crash_unrecorded config.state frame stval) resting
  | panicked running =>
    rw [running] at line
    exact ⟨line config.state (.refl _), .of_same rfl rfl⟩
  | kernelTick frame running enabled supervisor enabledBefore place =>
    have safe := line
    rw [running] at safe
    refine ⟨kernelTick_line inv running safe enabled supervisor enabledBefore place, ?_⟩
    rw [(kernelTick_hart build config _ frame).2]
    exact (trap_shallow build config frame _ _ _).nests
  | userTick running =>
    rw [running] at stands line
    obtain ⟨pid, there⟩ := stands
    exact userTrap_line there line fun _ calm current resting => tick_line calm current resting _
  | ecall running =>
    rw [running] at stands line
    obtain ⟨pid, there⟩ := stands
    exact userTrap_line there line fun _ _ _ resting => ecall_line resting there.user
  | fault scause stval running other =>
    rw [running] at stands line
    obtain ⟨pid, there⟩ := stands
    exact userTrap_line there line fun _ _ _ resting => fault_line resting there.user other
  | compute regs sepc running =>
    rw [running] at line
    exact ⟨line, .of_same rfl rfl⟩
  | store va pa byte running allowed =>
    rw [running] at line ⊢
    exact ⟨Resting.record line (phys_record _ _), .of_same rfl rfl⟩
  | receive byte => exact ⟨line.undisturbed ⟨rfl, rfl, rfl⟩, .of_same rfl rfl⟩

theorem boot_line (build : Build) : LineInv build [] True (boot build).hart (boot build).state := by
  obtain ⟨-, -, -, phys, kernelRoot, booted⟩ := initPaging_spec False (fun _ _ _ => False) build
  have turned : Turned build [] True 1 none [] (bootState build) := by
    have core : (bootState build).core = { (powerOn build).core with phys, kernelRoot } := booted
    have fresh : SameBooks (powerOn build).core (bootState build).core := by
      rw [core]
      exact ⟨rfl, rfl, rfl, rfl, rfl⟩
    refine ⟨⟨fresh.journal, rfl, nofun, ⟨[], .nil, rfl⟩, ?_, ?_, fresh.opHead, .nil _⟩, fresh.stashedByte, ?_, fun _ => ?_,
      fun _ => .nil _⟩
    · rw [fresh.opIds]
      exact .empty 0 Rpc.opSlots
    · rw [fresh.opIds]
      rfl
    · rw [core]
      exact ⟨Nat.zero_le _, by simp [powerOn]⟩
    · exact ⟨fresh.keyPending, .nil _⟩
  rw [boot_eq]
  exact fun later moves => ⟨[], turned_onRecord _ _ moves.unrecorded turned⟩

/-- The records in every state reached. -/
theorem Machine.Reachable.line (reached : Reachable build anyStep config) : LineInv build [] True config.hart config.state := by
  induction reached with
  | boot => exact boot_line build
  | step reached step _ ih => exact (step.line reached.systemInv ih).1

/-- The records from some point of a run on. -/
theorem Machine.Later.line (reached : Reachable build anyStep config) (line : LineInv build base home config.hart config.state)
    (later : Later build anyStep config next) : LineInv build base home next.hart next.state := by
  induction later with
  | refl => exact line
  | tail before step ih => exact (step.1.line (reached.later before).systemInv ih).1

end Steps

end Kernai
