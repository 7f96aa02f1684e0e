import Kernai.Proofs.Recorder
import Kernai.Proofs.Reports

/-! What ends a payload from outside: the operator's remedies, and the deadline that
`on_tick` enforces against the clock set at its first start. -/

namespace Kernai
open Foundation Program Kernel Console Payload Rpc Machine

section Numerals
open Json Rfc8259

end Numerals

section Remedies
open Json

variable {build : Build} {core : Core} {state state' : State} {json : Bytes} {request : RpcId} {op : Option Bytes}
  {n : Nat} {pid : Pid}

/-- Slot `n` exists and is PENDING. -/
def Pending (core : Core) (n : Nat) : Prop := ∃ pid : Pid, pid.val = n ∧ (core.table pid).state = .pending

/-- The table with slot `n` updated. -/
def remedied (core : Core) (n : Nat) (update : Slot → Slot) : Pid → Slot :=
  fun pid => if pid.val = n then update (core.table pid) else core.table pid

/-- The one response is `reply`, or the fixed error where that does not fit a frame. -/
def Replies (request : RpcId) (reply : Reply) (state state' : State) : Prop :=
  ∃ serial, repliesOf state'.env.log =
    repliesOf state.env.log ++ [.frame serial (answer request (fun _ => reply) serial state)]

structure Refused (request : RpcId) (state state' : State) : Prop where
  table : state'.core.table = state.core.table
  reply : ∃ reason, Replies request (.error (-32602) reason) state state'

theorem pendingPid_cases (core : Core) (n : Nat) :
    (∃ pid : Pid, pid.val = n ∧ (core.table pid).state = .pending ∧ pendingPid core n = .ok pid) ∨
      (¬ Pending core n ∧ ∃ reason, pendingPid core n = .error reason) := by
  unfold pendingPid
  split
  · next inside =>
    by_cases pending : (core.table ⟨n, inside⟩).state = .pending
    · exact .inl ⟨⟨n, inside⟩, rfl, pending, if_neg (by simp [pending])⟩
    · refine .inr ⟨?_, _, if_pos pending⟩
      rintro ⟨pid, rfl, isPending⟩
      exact pending isPending
  · next outside =>
    refine .inr ⟨?_, _, rfl⟩
    rintro ⟨pid, rfl, -⟩
    exact outside pid.isLt

/-- A pid beyond 32 bits is no pid, before and after it saturates. -/
theorem pending_saturated (core : Core) (n : Nat) : Pending core (min n u32Max) ↔ Pending core n := by
  have wide : 12 ≤ u32Max := by decide
  constructor
  · rintro ⟨pid, same, pending⟩
    exact ⟨pid, by have := pid.isLt; omega, pending⟩
  · rintro ⟨pid, same, pending⟩
    exact ⟨pid, by have := pid.isLt; omega, pending⟩

theorem setSlot_remedied (core : Core) (pid : Pid) (update : Slot → Slot) :
    (setSlot core pid update).table = remedied core pid.val update := by
  funext other
  simp only [setSlot, remedied, Fin.ext_iff]

theorem answer_isReply (reply : State → Reply) (serial : Nat) (state : State) :
    (answer request reply serial state).isReply = true := by
  unfold answer
  split <;> rfl

/-- A response changes nothing but the log. -/
theorem emitRpc_replies (request : RpcId) (reply : Reply) {middle : State}
    (quiet : repliesOf middle.env.log = repliesOf state.env.log) :
    ((emitRpc request fun _ => reply).run middle).2.core = middle.core ∧
      Replies request reply state ((emitRpc request fun _ => reply).run middle).2 := by
  rw [emitRpc_run]
  refine ⟨rfl, middle.env.serial, (repliesOf_concat _ _).trans ?_⟩
  have isReply : (stamp middle.core (.frame middle.env.serial
      (answer request (fun _ => reply) middle.env.serial (numbered middle)))).what.isReply = true := answer_isReply _ _ _
  rw [if_pos isReply, quiet]
  rfl

/-- A pid that is PENDING is killed; any other is turned down. -/
theorem killPid_run (build : Build) (n : Nat) (state : State) :
    (∀ pid, pendingPid state.core n = .ok pid → ∃ elapsed middle, (killPid build n).run state = (.ok elapsed, middle) ∧
      middle.core.table = remedied state.core pid.val fun slot => { slot with state := .killed }) ∧
    ∀ reason, pendingPid state.core n = .error reason → (killPid build n).run state = (.error reason, state) := by
  unfold killPid
  simp only [run_bind, onCore_run]
  refine ⟨fun pid found => ?_, fun reason found => ?_⟩
  · have marked : killPending n state.core = (.ok pid, noteRemedy (setState state.core pid .killed) pid) := by
      unfold killPending
      rw [found]
    rw [marked]
    simp only [run_bind, readCore_run, run_pure]
    refine ⟨_, _, rfl, ?_⟩
    obtain ⟨more, emits, -⟩ := emitKilledOperator_emits build pid
      { state with core := noteRemedy (setState state.core pid .killed) pid }
    rw [(elapsedSince_emits build _ _).core, emits.core]
    exact setSlot_remedied state.core pid fun slot => { slot with state := .killed }
  · have marked : killPending n state.core = (.error reason, state.core) := by
      unfold killPending
      rw [found]
    rw [marked]
    rfl

theorem setDeadline_eq (n units : Nat) (core : Core) :
    (∀ pid, pendingPid core n = .ok pid → ∃ core', setDeadline n units core = (.ok (), core') ∧
      core'.table = remedied core pid.val fun slot => { slot with deadline := units }) ∧
    ∀ reason, pendingPid core n = .error reason → setDeadline n units core = (.error reason, core) := by
  unfold setDeadline
  refine ⟨fun pid found => ?_, fun reason found => ?_⟩
  · rw [found]
    exact ⟨_, rfl, setSlot_remedied core pid fun slot => { slot with deadline := units }⟩
  · rw [found]

theorem remedied_congr {core' : Core} (table : core'.table = core.table) (n : Nat) (update : Slot → Slot) :
    remedied core' n update = remedied core n update := by
  funext other
  simp only [remedied, table]

/-- The tool a request calls. -/
def toolOf (json : Bytes) : Option Bytes := (member (paramsOf json) "name").bind asString

/-- The operation id of a request. -/
def opOf (json : Bytes) : Option Bytes := (member (paramsOf json) "opId").bind asString

/-- An argument of the call, as it is spelled. -/
def argument (json : Bytes) (key : String) : Option Bytes := member (argumentsOf (paramsOf json)) key

end Remedies

section Clocks

variable {build : Build} {config next : Config} {state : State} {pid : Pid}

theorem Machine.Step.timed (reached : Reachable build anyStep config) (step : Step build config next)
    (within : next.state.core.ledger.suite = config.state.core.ledger.suite) : Timed config.state.core next.state.core := by
  obtain ⟨traps, history⟩ := reachable_iff_history.mp reached
  rcases step_iff.mp step with ⟨slot, takes⟩ | moves
  · exact takes.reported.timed
  · exact (moves.deed history.recorded.1).timed within

theorem Machine.Later.timed (reached : Reachable build anyStep config) (later : Later build anyStep config next)
    (within : next.state.core.ledger.suite = config.state.core.ledger.suite) : Timed config.state.core next.state.core := by
  induction later with
  | refl => exact .refl _
  | @tail middle next before step ih =>
    have below := Later.suite_le reached before
    have above := Later.suite_le (reached.later before) (.tail .refl step)
    have same : middle.state.core.ledger.suite = config.state.core.ledger.suite := by omega
    exact (ih same).trans (step.1.timed (reached.later before) (within.trans same.symm))

/-- Whoever has been on the CPU has been noted as started. -/
def Noted (core : Core) : Prop := ∀ pid, (core.table pid).engaged = true → pid ∈ core.ledger.starts

theorem Noted.kept {core core' : Core} (noted : Noted core) (starts : core.ledger.starts <+: core'.ledger.starts)
    (engaged : ∀ pid, (core'.table pid).engaged = true → (core.table pid).engaged = true) : Noted core' :=
  fun pid onCpu => starts.subset (noted pid (engaged pid onCpu))

theorem setSlot_engaged {core : Core} {update : Slot → Slot} (same : ∀ slot : Slot, (update slot).engaged = slot.engaged)
    (other : Pid) : ((setSlot core pid update).table other).engaged = (core.table other).engaged := by
  dsimp only [setSlot]
  split
  · exact same _
  · rfl

theorem noteUser_engaged (state : State) (context : TrapFrame) (other : Pid) :
    ((noteUser state context).core.table other).engaged = (state.core.table other).engaged := by
  unfold noteUser
  split
  · dsimp only
    refine setSlot_engaged ?_ other
    exact fun _ => rfl
  · rfl

theorem Machine.Step.noted (reached : Reachable build anyStep config) (noted : Noted config.state.core)
    (step : Step build config next) : Noted next.state.core := by
  have shift := step.shift reached
  rcases shift.advances with advances | ⟨-, reseeded⟩
  · have starts := (step.timed reached advances.suite).starts
    cases shift with
    | still same current moves unnamed proceeds => exact noted.kept starts moves.core.engaged
    | acts update rest hart hart' transits =>
      cases transits with
      | moves moves unnamed idle => exact noted.kept starts moves.core.engaged
      | seeds quiescent reseeded log =>
        have := reseeded.suite.symm.trans advances.suite
        omega
      | starts pid launch startable begun enabled log =>
        intro other onCpu
        by_cases here : other = pid
        · subst here
          cases preempted : (config.state.core.table other).preempted with
          | false => exact begun.noted preempted
          | true => exact starts.subset (noted other (by simp [Slot.engaged, startable.pending, preempted]))
        · rw [begun.others other here] at onCpu
          exact starts.subset (noted other onCpu)
      | anchors pid serial current running spoken unanchored core log =>
        refine noted.kept starts fun other onCpu => ?_
        rw [core, announcedCore, setSlot_engaged (by exact fun _ => rfl)] at onCpu
        exact onCpu
      | announces pid what current running spoken core log start => exact noted.kept starts fun _ onCpu => core ▸ onCpu
      | reports pid what terminal core log isEnd cause => exact noted.kept starts fun _ onCpu => core ▸ onCpu
    | expels pid program hart hart' enabled current left moves gone => exact noted.kept starts moves.core.engaged
    | returns program rest hart hart' isHeld changed log =>
      refine noted.kept starts fun pid onCpu => ?_
      rw [changed] at onCpu
      exact onCpu
    | enters pid program hart enters spoken =>
      refine noted.kept starts fun other onCpu => ?_
      by_cases here : other = pid
      · subst here
        rw [enters.here] at onCpu
        exact onCpu
      · rwa [show next.state.core.table other = config.state.core.table other from enters.one.others other here] at onCpu
    | traps pid context hart there moves =>
      refine noted.kept starts fun other onCpu => ?_
      have before := moves.core.engaged other onCpu
      rwa [noteUser_engaged] at before
    | stores pid context hart there va pa byte allowed written =>
      refine noted.kept starts fun pid onCpu => ?_
      rw [written] at onCpu
      exact onCpu
  · intro pid onCpu
    by_contra
    have used : (next.state.core.table pid).state ≠ .empty := fun empty => by simp [Slot.engaged, empty] at onCpu
    have queued := Slot.queued_iff.mp (reseeded.blank pid used).1
    simp [Slot.engaged, queued.1, queued.2] at onCpu

theorem Machine.Reachable.noted (reached : Reachable build anyStep config) : Noted config.state.core := by
  induction reached with
  | boot =>
    obtain ⟨-, -, -, phys, kernelRoot, changed⟩ := initPaging_spec False (fun _ _ _ => False) build
    rw [boot_eq]
    dsimp only [bootState]
    rw [changed]
    exact fun pid onCpu => by cases onCpu
  | step before step _ ih => exact step.noted before ih

/-- A clock that is running, or not yet started, is left alone. -/
theorem Timed.kept {core core' : Core} (timed : Timed core core') (once : core'.ledger.starts.Nodup)
    (used : (core.table pid).state ≠ .empty) (settled : pid ∈ core.ledger.starts ∨ pid ∉ core'.ledger.starts) :
    (core'.table pid).startedAt = (core.table pid).startedAt := by
  rcases (timed.slots pid used).2 with same | grew
  · exact same
  · have single := List.nodup_iff_count_le_one.mp once pid
    rcases settled with started | unstarted
    · have := List.count_pos_iff.mpr started
      omega
    · rw [List.count_eq_zero_of_not_mem unstarted] at grew
      exact absurd grew (Nat.not_lt_zero _)

/-- `start` goes on with a payload that a tick took off the CPU. -/
def Resumes (slot : Slot) : Prop := slot.resumeFrame ≠ 0 ∧ slot.preempted = true

instance (slot : Slot) : Decidable (Resumes slot) := inferInstanceAs (Decidable (_ ∧ _))

/-- `start` sets the clock and notes the start, unless it goes on with a preempted payload. -/
theorem begin_clock {launch : Launch} (begun : (begin build pid state).1 = .ok launch) :
    ((begin build pid state).2.core.table pid).startedAt =
        (if Resumes (state.core.table pid) then (state.core.table pid).startedAt else build.clock state.env.reads) ∧
      (begin build pid state).2.core.ledger.starts =
        if Resumes (state.core.table pid) then state.core.ledger.starts else state.core.ledger.starts ++ [pid] := by
  unfold begin at begun ⊢
  dsimp only at begun ⊢
  split
  · next saved =>
    cases preempted : (state.core.table pid).preempted <;>
      simp [resumePayload, resumedSlot, Resumes, setSlot, noteStart, preempted, saved]
  · next unsaved =>
    rw [if_neg unsaved] at begun
    have fresh : ¬ Resumes (state.core.table pid) := fun resumes => unsaved resumes.1
    unfold loadPayload at begun ⊢
    rcases built : buildImage build (state.core.table pid).image state.core.phys with ⟨_ | ⟨root, frame, entry⟩, phys⟩
    · simp only [built] at begun
      cases begun
    · simp [setSlot, loadedSlot, noteStart, fresh]

/-- The payload that `on_tick` finds past its deadline. -/
structure Overdue (build : Build) (state : State) (pid : Pid) : Prop where
  current : state.core.current = some pid
  running : (state.core.table pid).state = .running
  limited : (state.core.table pid).deadline ≠ 0
  late : (state.core.table pid).deadline < build.clock state.env.reads - (state.core.table pid).startedAt

/-- `on_tick` kills the payload that is past its deadline, and nothing else. -/
theorem onTick_exact (build : Build) (state : State) :
    (∀ pid, Overdue build state pid → ((onTick build).run state).1 = true ∧
      ((onTick build).run state).2.core = setState state.core pid .killed) ∧
    ((∀ pid, ¬ Overdue build state pid) → ((onTick build).run state).1 = false ∧ ((onTick build).run state).2.core = state.core) := by
  refine ⟨fun pid overdue => ?_, fun none => ?_⟩
  · unfold onTick
    simp only [run_bind, readCore_run, overdue.current, overdue.running, ne_eq, not_true, if_false, overdue.limited, readTime,
      onEnv_run, overdue.late, if_true, modifyCore_run, run_pure, true_and]
    obtain ⟨more, emits, -⟩ := emitKilled_emits pid (build.clock state.env.reads - (state.core.table pid).startedAt)
      (state.core.table pid).deadline
      { core := setState state.core pid .killed, env := { state.env with reads := state.env.reads + 1 } }
    exact emits.core
  · unfold onTick
    simp only [run_bind, readCore_run]
    cases current : state.core.current with
    | none => exact ⟨rfl, rfl⟩
    | some pid =>
      simp only [run_bind, readCore_run]
      split
      · exact ⟨rfl, rfl⟩
      split
      · exact ⟨rfl, rfl⟩
      next running limited =>
      simp only [run_bind, readTime, onEnv_run]
      rw [if_neg fun late => none pid ⟨current, not_not.mp running, limited, late⟩]
      exact ⟨rfl, rfl⟩

theorem onTick_spares (build : Build) (state : State) (pid : Pid) (due : ¬ Overdue build state pid) :
    ((onTick build).run state).2.core.table pid = state.core.table pid := by
  obtain ⟨kills, spares⟩ := onTick_exact build state
  by_cases other : ∃ late, Overdue build state late
  · obtain ⟨late, overdue⟩ := other
    rw [(kills late overdue).2]
    exact setSlot_other state.core _ fun same => due (same ▸ overdue)
  · rw [(spares (not_exists.mp other)).2]

/-- `handle` on a timer tick up to its call of `on_tick`. -/
def untilOnTick (build : Build) (frame : TrapFrame) (stval : Nat) : Kernel Bool := do
  let serial ← nextId
  onEnv fun env => ((), Traps.ringRecord { id := idOf serial, scause := Text.causeSTimer, sepc := frame.sepc.toNat, stval } env)
  Traps.serviceTick build serial
  if build.doom then drainKeys build else return false

theorem handle_until (build : Build) (frame : TrapFrame) (stval : Nat) (state : State) :
    (Traps.handle build frame Text.causeSTimer stval).run state =
      (some <$> Traps.settleTick build frame ((untilOnTick build frame stval).run state).1).run
        ((untilOnTick build frame stval).run state).2 := by
  unfold Traps.handle untilOnTick Traps.handleTick
  simp only [run_bind, if_true, run_map]
  split <;> simp only [run_bind, run_pure]

/-- Without the key drain, nothing before `on_tick` touches the table. -/
theorem untilOnTick_core (plain : build.doom = false) (frame : TrapFrame) (stval : Nat) (state : State) :
    ((untilOnTick build frame stval).run state).2.core = state.core := by
  unfold untilOnTick
  simp only [run_bind, plain, Bool.false_eq_true, if_false, run_pure, onEnv_run]
  exact (serviceTick_recorder build _ _).1

theorem maybePreempt_spares (build : Build) (frame : TrapFrame) (state : State)
    (alive : (state.core.table pid).state ≠ .killed) :
    (((maybePreempt build frame).run state).2.core.table pid).state ≠ .killed := by
  have waits : ∀ (core : Core) (other : Pid), (core.table pid).state ≠ .killed →
      ((setSlot core other fun slot => { slot with preempted := true, state := .pending }).table pid).state ≠ .killed := by
    intro core other alive
    dsimp only [setSlot]
    split
    · simp
    · exact alive
  have saved : ∀ (core : Core) (other : Pid), (((preemptFrame other core).2).table pid).state = (core.table pid).state := by
    intro core other
    unfold preemptFrame
    dsimp only
    split
    · split
      · rfl
      · dsimp only [setSlot]
        split <;> rfl
    · rfl
  unfold maybePreempt
  simp only [run_bind, readCore_run]
  cases state.core.current with
  | none => exact alive
  | some other =>
    simp only [run_bind, readCore_run]
    split
    · exact alive
    split
    · exact alive
    simp only [run_bind, consoleGetchar, onEnv_run]
    cases state.env.rx.head? with
    | none => exact alive
    | some byte =>
      simp only [run_bind, modifyCore_run, onCore_run]
      have kept := saved { state.core with stashedByte := some byte } other
      cases (preemptFrame other { state.core with stashedByte := some byte }).1 with
      | none => exact kept.trans_ne alive
      | some rf =>
        simp only [run_bind, modifyCore_run, run_pure]
        obtain ⟨more, emits, -⟩ := emit_emits (fun state => .preempt other (state.core.table other).startEvent.toNat) _
        rw [emitSchedPreempt, emits.core]
        exact waits _ other (kept.trans_ne alive)

/-- The tick kills the current payload if and only if that is past its deadline when
`on_tick` looks. -/
theorem tick_kills_iff (build : Build) (frame : TrapFrame) (stval : Nat) (state : State)
    (current : ((untilOnTick build frame stval).run state).2.core.current = some pid)
    (running : (((untilOnTick build frame stval).run state).2.core.table pid).state = .running) :
    (((Traps.handle build frame Text.causeSTimer stval).run state).2.core.table pid).state = .killed ↔
      Overdue build ((untilOnTick build frame stval).run state).2 pid := by
  rw [handle_until]
  generalize (untilOnTick build frame stval).run state = called at current running ⊢
  obtain ⟨kills, spares⟩ := onTick_exact build called.2
  unfold Traps.settleTick
  simp only [run_map, run_bind]
  by_cases overdue : Overdue build called.2 pid
  · obtain ⟨exceeded, killed⟩ := kills pid overdue
    simp only [overdue, iff_true, exceeded, Bool.true_or, if_true, Traps.redirectToScheduler, run_bind, leaveCurrent, modifyCore_run,
      run_pure, killed]
    simp [setState, setSlot]
  · have none : ∀ other, ¬ Overdue build called.2 other := fun other late =>
      overdue (Option.some.inj (late.current.symm.trans current) ▸ late)
    obtain ⟨within, same⟩ := spares none
    have alive : (((onTick build).run called.2).2.core.table pid).state ≠ .killed := by
      rw [same, running]
      decide
    simp only [overdue, iff_false, within, Bool.false_or]
    split
    · exact alive
    · simp only [run_bind]
      have preempted := maybePreempt_spares build frame ((onTick build).run called.2).2 alive
      split <;> exact preempted

/-- The budget of a payload, over every run. Its clock is set at its first start: whoever is
or has been on the CPU has started, and neither then nor before the start does anything touch
the clock. A tick kills the current payload if and only if it is past its deadline when
`on_tick` looks, and `on_tick` spares everybody else. Once killed it never runs again. -/
theorem budgets_enforced (reached : Reachable build anyStep config) :
    (∀ next pid, Later build anyStep config next → next.state.core.ledger.suite = config.state.core.ledger.suite →
      (config.state.core.table pid).state ≠ .empty →
      (config.state.core.table pid).engaged = true ∨ pid ∈ config.state.core.ledger.starts ∨
        pid ∉ next.state.core.ledger.starts →
      (next.state.core.table pid).startedAt = (config.state.core.table pid).startedAt) ∧
    (∀ state pid launch, (begin build pid state).1 = .ok launch →
      ((begin build pid state).2.core.table pid).startedAt =
          (if Resumes (state.core.table pid) then (state.core.table pid).startedAt else build.clock state.env.reads) ∧
        (begin build pid state).2.core.ledger.starts =
          if Resumes (state.core.table pid) then state.core.ledger.starts else state.core.ledger.starts ++ [pid]) ∧
    (∀ frame stval state pid, ((untilOnTick build frame stval).run state).2.core.current = some pid →
      (((untilOnTick build frame stval).run state).2.core.table pid).state = .running →
        ((((Traps.handle build frame Text.causeSTimer stval).run state).2.core.table pid).state = .killed ↔
          Overdue build ((untilOnTick build frame stval).run state).2 pid)) ∧
    (build.doom = false → ∀ frame stval state, ((untilOnTick build frame stval).run state).2.core = state.core) ∧
    (∀ state pid, ¬ Overdue build state pid → ((onTick build).run state).2.core.table pid = state.core.table pid) ∧
    ∀ next pid, Later build anyStep config next → next.state.core.ledger.suite = config.state.core.ledger.suite →
      (config.state.core.table pid).state = .killed → (next.state.core.table pid).state = .killed ∧
        ∀ context, next.hart = .user context → next.state.core.current ≠ some pid := by
  refine ⟨fun next pid later within used settled => ?_, fun _ _ _ => begin_clock,
    fun frame stval state pid => tick_kills_iff build frame stval state, untilOnTick_core, onTick_spares build,
    fun next pid later within killed => ?_⟩
  · have once := (reached.later later).coreInv.table.starts
    refine (later.timed reached within).kept once used ?_
    rcases settled with onCpu | started | unstarted
    · exact .inl (reached.noted pid onCpu)
    · exact .inl started
    · exact .inr unstarted
  · have terminal : (config.state.core.table pid).state.terminal = true := by rw [killed]; rfl
    have still := ((later.advances reached within).slots pid (terminal_used terminal)).ended terminal
    refine ⟨still.trans killed, fun context isUser current => ?_⟩
    have stands := (reached.later later).systemInv
    rw [SystemInv, isUser] at stands
    obtain ⟨other, there⟩ := stands
    obtain rfl : other = pid := Option.some.inj (there.current.symm.trans current)
    exact absurd (there.running.symm.trans (still.trans killed)) (by decide)

theorem budgets_enforced_launched :
    (((Traps.handle dataBuild kernelFrame Text.causeSTimer 0).run launched.config.state).2.core.table pid0).state = .killed ↔
      Overdue dataBuild ((untilOnTick dataBuild kernelFrame 0).run launched.config.state).2 pid0 := by
  have reached := launched.reachable anyMove_sound
  have same := untilOnTick_core (rfl : dataBuild.doom = false) kernelFrame 0 launched.config.state
  have running := launched.tested.1
  have current := reached.coreInv.table.running pid0 running
  exact (budgets_enforced reached).2.2.1 kernelFrame 0 launched.config.state pid0 (by rw [same]; exact current)
    (by rw [same]; exact running)

end Clocks

end Kernai
