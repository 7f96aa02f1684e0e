import Kernai.Proofs.Invariant

/-! What the kernel has put on the wire: whole emissions in the order of their
ids, each sound at the moment it was made. -/

namespace Kernai
open Foundation Kernel Console Payload

/-- The pid whose end this event reports. -/
def Event.endOf : Event → Option Pid
  | .fault report | .faultMinimal report => report.pid
  | .killed pid _ _ _ | .killedOperator pid _ _ | .exit pid _ _ | .loadFault pid _ _ => some pid
  | _ => none

def Emission.endOf : Emission → Option Pid
  | .frame _ event => event.endOf
  | .classic pid _ => pid

def Emission.serial? : Emission → Option Nat
  | .frame serial _ => some serial
  | .classic _ _ => none

/-- The pid whose start this event announces. -/
def Event.startOf : Event → Option Pid
  | .start pid _ _ _ _ _ => some pid
  | _ => none

def Emission.startOf : Emission → Option Pid
  | .frame _ event => event.startOf
  | .classic _ _ => none

/-- The payload in the `pid` field of this event. -/
def Event.pidOf : Event → Option Pid
  | .fault report | .faultMinimal report => report.pid
  | .denied pid _ _ | .output pid _ _ | .frame pid _ _ _ | .fbchunk pid _ _ => pid
  | .preempt pid _ | .killed pid _ _ _ | .killedOperator pid _ _ | .start pid _ _ _ _ _ | .snapshot pid _ | .exit pid _ _
  | .loadFault pid _ _ | .yield pid => some pid
  | _ => none

def Emission.pidOf : Emission → Option Pid
  | .frame _ event => event.pidOf
  | .classic _ _ => none

/-- The number in this event's `caused_by`; the report of an operator's kill prints null
for a payload that was never started. -/
def Event.causedBy : Event → Option Nat
  | .fault report => report.causedBy
  | .output _ cause _ | .preempt _ cause | .killed _ _ _ cause | .exit _ _ cause => some cause
  | .killedOperator _ _ cause => if cause = 0 then none else some cause
  | .start _ _ _ _ cause _ => cause
  | _ => none

def Emission.causedBy : Emission → Option Nat
  | .frame _ event => event.causedBy
  | .classic _ _ => none

theorem Emission.plain_of_end {what : Emission} {pid : Pid} (isEnd : what.endOf = some pid) :
    what.startOf = none ∧ ∀ other, what.pidOf = some other → other = pid := by
  cases what with
  | classic named line => exact ⟨rfl, nofun⟩
  | frame serial event =>
    cases event <;> simp_all [Emission.endOf, Emission.startOf, Emission.pidOf, Event.endOf, Event.startOf, Event.pidOf]

def Slot.has (slot : Slot) (cap : Cap) : Prop := slot.caps &&& cap.bit ≠ 0

/-- The capability an event attests was held by the pid it names. -/
def Event.Mediated (event : Event) (table : Pid → Slot) : Prop :=
  match event with
  | .output pid _ _ | .frame pid _ _ _ | .fbchunk pid _ _ => ∃ holder, pid = some holder ∧ (table holder).has .write
  | .yield pid => (table pid).has .yield
  | .spawn parent child _ parentCaps _ granted =>
    (table parent).has .spawn ∧ parentCaps = (table parent).caps ∧ granted = (table child).caps
  | _ => True

/-- `suite_done` counts every pid of the suite, and none is left to run. -/
def Event.Settled (event : Event) (table : Pid → Slot) (enqueued : Nat) : Prop :=
  match event with
  | .suiteDone exits faults kills =>
    (∀ pid, (table pid).state.alive = false) ∧ exits + faults + kills = enqueued
  | _ => True

/-- `caused_by` is the start event in the slot it speaks of: the payload's own, or
for a start its parent's, the start's own id being in the payload's slot already. -/
def Event.Caused (event : Event) (serial : Nat) (table : Pid → Slot) : Prop :=
  match event with
  | .fault report => report.causedBy = report.pid.map fun pid => (table pid).startEvent.toNat
  | .output pid causedBy _ => ∀ holder, pid = some holder → causedBy = (table holder).startEvent.toNat
  | .preempt pid causedBy | .killed pid _ _ causedBy | .killedOperator pid _ causedBy | .exit pid _ causedBy =>
    causedBy = (table pid).startEvent.toNat
  | .start pid _ _ _ causedBy _ =>
    (causedBy = (table pid).parent.map fun parent => (table parent).startEvent.toNat) ∧
      (table pid).startEvent = .ofNat serial
  | _ => True

def Entry.Sound (entry : Entry) : Prop :=
  match entry.what with
  | .frame serial event => event.Mediated entry.table ∧ event.Settled entry.table entry.ledger.enqueued ∧
    event.Caused serial entry.table
  | .classic _ _ => True

/-- How often the log reports the end of `pid` in this suite. -/
def endReports (log : List Entry) (suite : Nat) (pid : Pid) : Nat :=
  log.countP fun entry => entry.ledger.suite = suite ∧ entry.what.endOf = some pid

structure LogInv (core : Core) (log : List Entry) : Prop where
  sound : ∀ entry ∈ log, entry.Sound
  past : ∀ entry ∈ log, entry.ledger.suite ≤ core.ledger.suite
  once : ∀ suite pid, endReports log suite pid ≤ 1
  ended : ∀ pid, endReports log core.ledger.suite pid ≠ 0 → (core.table pid).state.terminal = true

def wireOf (log : List Entry) : Bytes := log.flatMap fun entry => entry.what.bytes

def serialsOf (log : List Entry) : List Nat := log.filterMap fun entry => entry.what.serial?

structure Stream (env : Env) : Prop where
  increasing : (serialsOf env.log).Pairwise (· < ·)
  below : ∀ serial ∈ serialsOf env.log, serial < env.serial
  wire : env.wire <+: wireOf env.log

/-- No emission is under way. -/
def Whole (env : Env) : Prop := env.wire = wireOf env.log

/-- `env'` has seen exactly these emissions since `env`, all of them complete. -/
structure Logs (env env' : Env) (more : List Entry) : Prop where
  log : env'.log = env.log ++ more
  wire : env'.wire = env.wire ++ wireOf more
  serial : env.serial ≤ env'.serial
  fresh : ∀ serial ∈ serialsOf more, env.serial ≤ serial ∧ serial < env'.serial
  increasing : (serialsOf more).Pairwise (· < ·)

variable {env env' : Env} {log more : List Entry} {core core' : Core}

theorem wireOf_append (log more : List Entry) : wireOf (log ++ more) = wireOf log ++ wireOf more := List.flatMap_append

theorem serialsOf_append (log more : List Entry) : serialsOf (log ++ more) = serialsOf log ++ serialsOf more :=
  List.filterMap_append

theorem Logs.none (log : env'.log = env.log) (wire : env'.wire = env.wire) (serial : env.serial ≤ env'.serial) :
    Logs env env' [] :=
  ⟨by rw [log, List.append_nil], by rw [wire]; exact (List.append_nil _).symm, serial, nofun, .nil⟩

theorem Logs.refl (env : Env) : Logs env env [] := .none rfl rfl (Nat.le_refl _)

theorem Logs.trans {env'' : Env} {later : List Entry} (left : Logs env env' more) (right : Logs env' env'' later) :
    Logs env env'' (more ++ later) := by
  refine ⟨?_, ?_, Nat.le_trans left.serial right.serial, ?_, ?_⟩
  · rw [right.log, left.log, List.append_assoc]
  · rw [right.wire, left.wire, wireOf_append, List.append_assoc]
  · intro serial member
    rw [serialsOf_append, List.mem_append] at member
    rcases member with first | second
    · exact ⟨(left.fresh serial first).1, Nat.lt_of_lt_of_le (left.fresh serial first).2 right.serial⟩
    · exact ⟨Nat.le_trans left.serial (right.fresh serial second).1, (right.fresh serial second).2⟩
  · rw [serialsOf_append]
    refine List.pairwise_append.mpr ⟨left.increasing, right.increasing, fun first isFirst second isSecond => ?_⟩
    exact Nat.lt_of_lt_of_le (left.fresh first isFirst).2 (right.fresh second isSecond).1

theorem Logs.stream (logs : Logs env env' more) (stream : Stream env) (whole : Whole env) : Stream env' ∧ Whole env' := by
  have still : Whole env' := by
    unfold Whole at *
    rw [logs.wire, logs.log, wireOf_append, whole]
  refine ⟨⟨?_, ?_, ?_⟩, still⟩
  · rw [logs.log, serialsOf_append]
    refine List.pairwise_append.mpr ⟨stream.increasing, logs.increasing, fun first isFirst second isSecond => ?_⟩
    exact Nat.lt_of_lt_of_le (stream.below first isFirst) (logs.fresh second isSecond).1
  · intro serial member
    rw [logs.log, serialsOf_append, List.mem_append] at member
    rcases member with old | new
    · exact Nat.lt_of_lt_of_le (stream.below serial old) logs.serial
    · exact (logs.fresh serial new).2
  · exact still ▸ List.prefix_refl _

/-- The log stays true of the table as long as the suite goes on. -/
theorem LogInv.advance (inv : LogInv core log) (advances : Advances core core') : LogInv core' log := by
  refine ⟨inv.sound, fun entry member => advances.suite ▸ inv.past entry member, inv.once, fun pid reported => ?_⟩
  rw [advances.suite] at reported
  have ended := inv.ended pid reported
  have used : (core.table pid).state ≠ .empty := by
    intro empty
    rw [empty] at ended
    cases ended
  rw [(advances.slots pid used).ended ended]
  exact ended

/-- A reseed starts with a clean record. -/
theorem LogInv.reseed (inv : LogInv core log) (suite : core'.ledger.suite = core.ledger.suite + 1) : LogInv core' log := by
  refine ⟨inv.sound, fun entry member => ?_, inv.once, fun pid reported => absurd ?_ reported⟩
  · have := inv.past entry member
    omega
  · refine List.countP_eq_zero.mpr fun entry member counted => ?_
    have := inv.past entry member
    simp only [decide_eq_true_eq] at counted
    omega

theorem endReports_append (log more : List Entry) (suite : Nat) (pid : Pid) :
    endReports (log ++ more) suite pid = endReports log suite pid + endReports more suite pid := List.countP_append

theorem endReports_none {more : List Entry} (harmless : ∀ entry ∈ more, entry.what.endOf = none) (suite : Nat) (pid : Pid) :
    endReports more suite pid = 0 := by
  refine List.countP_eq_zero.mpr fun entry member counted => ?_
  rw [decide_eq_true_eq, harmless entry member] at counted
  cases counted.2

/-- Entries that report nobody's end. -/
theorem LogInv.append (inv : LogInv core log) (sound : ∀ entry ∈ more, entry.Sound)
    (suite : ∀ entry ∈ more, entry.ledger.suite = core.ledger.suite) (harmless : ∀ entry ∈ more, entry.what.endOf = none) :
    LogInv core (log ++ more) := by
  refine ⟨?_, ?_, fun suite pid => ?_, fun pid => ?_⟩
  · intro entry member
    exact (List.mem_append.mp member).elim (inv.sound entry) (sound entry)
  · intro entry member
    exact (List.mem_append.mp member).elim (inv.past entry) fun new => Nat.le_of_eq (suite entry new)
  · rw [endReports_append, endReports_none harmless]
    exact inv.once suite pid
  · rw [endReports_append, endReports_none harmless]
    exact inv.ended pid

/-- The one report of a payload's end. -/
theorem LogInv.report (inv : LogInv core log) {entry : Entry} {pid : Pid} (sound : entry.Sound)
    (suite : entry.ledger.suite = core.ledger.suite) (isEnd : entry.what.endOf = some pid)
    (unreported : endReports log core.ledger.suite pid = 0) (terminal : (core.table pid).state.terminal = true) :
    LogInv core (log ++ [entry]) := by
  have counts : ∀ s p, endReports [entry] s p = if core.ledger.suite = s ∧ pid = p then 1 else 0 := by
    intro s p
    simp [endReports, List.countP_singleton, suite, isEnd]
  refine ⟨?_, ?_, fun s p => ?_, fun p => ?_⟩
  · intro other member
    rcases List.mem_append.mp member with old | new
    · exact inv.sound other old
    · rw [List.mem_singleton.mp new]
      exact sound
  · intro other member
    rcases List.mem_append.mp member with old | new
    · exact inv.past other old
    · rw [List.mem_singleton.mp new]
      exact Nat.le_of_eq suite
  · rw [endReports_append, counts]
    split
    · next same =>
      rw [← same.1, ← same.2, unreported]
    · exact inv.once s p
  · rw [endReports_append, counts]
    split
    · next same =>
      rw [← same.2]
      exact fun _ => terminal
    · exact inv.ended p

/-- An emission with the table and the ledger of this state. -/
def stamp (core : Core) (what : Emission) : Entry := { what, table := core.table, ledger := core.ledger }

/-- Uninterrupted code that leaves the core alone and made these emissions. -/
structure Emits (state state' : State) (more : List Entry) : Prop where
  core : state'.core = state.core
  sie : state'.env.sie = state.env.sie
  logs : Logs state.env state'.env more
  stamped : ∀ entry ∈ more, ∃ what, entry = stamp state.core what

variable {state state' state'' : State}

theorem Emits.refl (state : State) : Emits state state [] := ⟨rfl, rfl, .refl _, nofun⟩

theorem Emits.trans {later : List Entry} (left : Emits state state' more) (right : Emits state' state'' later) :
    Emits state state'' (more ++ later) := by
  refine ⟨right.core.trans left.core, right.sie.trans left.sie, left.logs.trans right.logs, ?_⟩
  intro entry member
  rcases List.mem_append.mp member with first | second
  · exact left.stamped entry first
  · obtain ⟨what, same⟩ := right.stamped entry second
    exact ⟨what, by rw [same, left.core]⟩

/-- Bookkeeping of the environment that emits nothing. -/
theorem Emits.quiet {env' : Env} (sie : env'.sie = state.env.sie)
    (log : env'.log = state.env.log) (wire : env'.wire = state.env.wire) (serial : state.env.serial ≤ env'.serial) :
    Emits state { state with env := env' } [] := ⟨rfl, sie, .none log wire serial, nofun⟩

theorem putAll_run (bytes : Bytes) (state : State) :
    (putAll bytes).run state = ((), { state with env := { state.env with wire := state.env.wire ++ bytes } }) := by
  induction bytes generalizing state with
  | nil => simp [putAll]
  | cons byte rest ih => simp [putAll, consolePutchar, onEnv, ih, List.append_assoc]

/-- The state once an emission is on the wire. -/
def delivered (what : Emission) (state : State) : State :=
  { state with env := { state.env with
    log := state.env.log ++ [stamp state.core what]
    wire := state.env.wire ++ what.bytes } }

theorem record_putAll_run (what : Emission) (state : State) :
    (do record what; putAll what.bytes : Kernel Unit).run state = ((), delivered what state) := by
  simp [record, putAll_run, delivered, stamp]

/-- A line that carries no id. -/
theorem delivered_emits {what : Emission} (unnumbered : what.serial? = none) (state : State) :
    Emits state (delivered what state) [stamp state.core what] := by
  have none : serialsOf [stamp state.core what] = [] := by simp [serialsOf, stamp, unnumbered]
  refine ⟨rfl, rfl, ⟨rfl, ?_, Nat.le_refl _, by rw [none]; exact nofun, by rw [none]; exact .nil⟩, ?_⟩
  · simp [delivered, wireOf, stamp]
  · exact fun entry member => ⟨_, List.mem_singleton.mp member⟩

theorem send_run (serial : Nat) (event : Event) (state : State) :
    (send serial event).run state =
      ((), if (event.frameBuf (idOf serial)).overflow then state else delivered (.frame serial event) state) := by
  unfold send
  split
  · rfl
  · exact record_putAll_run (.frame serial event) state

/-- Sending under the id allocated last. -/
theorem send_emits (event : Event) {serial : Nat} (counted : state'.env.serial = serial + 1)
    (quiet : Emits state state' []) (fresh : state.env.serial ≤ serial) :
    ∃ more, Emits state ((send serial event).run state').2 more ∧ more.length ≤ 1 ∧
      ∀ entry ∈ more, entry = stamp state.core (.frame serial event) := by
  rw [send_run]
  split
  · exact ⟨[], quiet, Nat.zero_le _, nofun⟩
  · refine ⟨[stamp state.core (.frame serial event)], ⟨quiet.core, quiet.sie, ⟨?_, ?_, ?_, ?_, ?_⟩, ?_⟩, Nat.le_refl _, ?_⟩
    · have := quiet.logs.log
      rw [List.append_nil] at this
      simp [delivered, this, quiet.core]
    · have : state'.env.wire = state.env.wire := by
        rw [quiet.logs.wire]
        exact List.append_nil _
      simp [delivered, this, wireOf, stamp]
    · exact quiet.logs.serial
    · intro n member
      simp only [serialsOf, stamp, List.filterMap_cons, Emission.serial?, List.filterMap_nil, List.mem_singleton] at member
      subst member
      exact ⟨fresh, by simp [delivered, counted]⟩
    · simp [serialsOf, stamp, Emission.serial?]
    · intro entry member
      exact ⟨_, List.mem_singleton.mp member⟩
    · exact fun entry member => List.mem_singleton.mp member

theorem withoutInterrupts_run {α : Type} (body : Kernel α) (state : State) :
    (withoutInterrupts body).run state = ((body.run (Machine.setSie state false)).1,
      if state.env.sie then Machine.setSie (body.run (Machine.setSie state false)).2 true
      else (body.run (Machine.setSie state false)).2) := by
  unfold withoutInterrupts onEnv
  simp only [Program.run_bind, Program.run_modifyGet]
  change (Program.run (if state.env.sie = true then _ else _) (body.run (Machine.setSie state false)).2) = _
  split <;> rfl

/-- Code that leaves `sie` alone does the same inside `without_interrupts`. -/
theorem withoutInterrupts_emits {α : Type} {body : Kernel α} {P : α → List Entry → Prop} (state : State)
    (inside : ∀ start : State, start.core = state.core → ∃ more, Emits start (body.run start).2 more ∧
      P (body.run start).1 more) :
    ∃ more, Emits state ((withoutInterrupts body).run state).2 more ∧ P ((withoutInterrupts body).run state).1 more := by
  obtain ⟨more, emits, holds⟩ := inside (Machine.setSie state false) rfl
  refine ⟨more, ?_, by rw [withoutInterrupts_run]; exact holds⟩
  rw [withoutInterrupts_run]
  have logs : ∀ sie, Logs state.env (Machine.setSie (body.run (Machine.setSie state false)).2 sie).env more :=
    fun sie => ⟨emits.logs.log, emits.logs.wire, emits.logs.serial, emits.logs.fresh, emits.logs.increasing⟩
  split
  · next enabled => exact ⟨emits.core, enabled.symm, logs true, emits.stamped⟩
  · next disabled =>
    refine ⟨emits.core, ?_, logs (body.run (Machine.setSie state false)).2.env.sie, emits.stamped⟩
    rw [Bool.eq_false_iff.mpr disabled]
    exact emits.sie

theorem nextId_emits (state : State) : Emits state (nextId.run state).2 [] ∧ (nextId.run state).1 = state.env.serial ∧
    (nextId.run state).2.env.serial = state.env.serial + 1 :=
  ⟨.quiet rfl rfl rfl (Nat.le_succ _), rfl, rfl⟩

/-- The state in which `emit` and `emit_rpc` look at what they report. -/
def numbered (state : State) : State := (nextId.run (Machine.setSie state false)).2

/-- The state once a frame is out under the next id. -/
def reported (event : Event) (state : State) : State :=
  delivered (.frame state.env.serial event) { state with env := { state.env with serial := state.env.serial + 1 } }

/-- The common shape of `emit` and `emit_rpc`, with a frame that fits. -/
theorem emitted_run (event : Nat → State → Event) {state : State}
    (fits : ((event state.env.serial (numbered state)).frameBuf (idOf state.env.serial)).overflow = false) :
    (withoutInterrupts (do
      let serial ← nextId
      let event ← Program.read (event serial)
      send serial event)).run state = ((), reported (event state.env.serial (numbered state)) state) := by
  have number : (nextId.run (Machine.setSie state false)).1 = state.env.serial := rfl
  simp only [withoutInterrupts_run, Program.run_bind, Program.run_read, send_run, number]
  rw [← numbered, fits]
  generalize event state.env.serial (numbered state) = out
  -- `sie` is put back as it was
  obtain ⟨core, env⟩ := state
  cases enabled : env.sie <;> cases env <;> cases enabled <;> rfl

/-- Every `emit_*` of the common shape. -/
theorem emit_emits (event : State → Event) (state : State) :
    ∃ more, Emits state ((emit event).run state).2 more ∧ more.length ≤ 1 ∧
      ∀ entry ∈ more, ∃ serial seen, seen.core = state.core ∧ entry = stamp state.core (.frame serial (event seen)) := by
  refine withoutInterrupts_emits (P := fun _ more => more.length ≤ 1 ∧ ∀ entry ∈ more, ∃ serial seen,
    seen.core = state.core ∧ entry = stamp state.core (.frame serial (event seen))) state fun start same => ?_
  simp only [Program.run_bind, Program.run_read]
  obtain ⟨quiet, isSerial, counted⟩ := nextId_emits start
  obtain ⟨more, emits, one, only⟩ := send_emits (event (nextId.run start).2) (isSerial ▸ counted) quiet (Nat.le_of_eq isSerial.symm)
  refine ⟨more, emits, one, fun entry member => ⟨(nextId.run start).1, (nextId.run start).2, quiet.core.trans same, ?_⟩⟩
  rw [only entry member, same]

theorem readTime_emits (build : Build) (state : State) : Emits state ((readTime build).run state).2 [] :=
  .quiet rfl rfl rfl (Nat.le_refl _)

end Kernai
