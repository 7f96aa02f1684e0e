import Kernai.Proofs.Lifecycle
import Kernai.Proofs.Resumption
import Kernai.Foundation.Histories

/-! The event stream over whole runs: whole emissions in the order of their ids, and the
causal spine that runs through them. -/

namespace Kernai
open Foundation Program Kernel Payload Machine

variable {tight : Prop} {held held' : Held} {build : Build} {state state' : State} {config next : Config} {pid : Pid}
  {log more : List Entry} {entry : Entry}

/-- The kernel has idled since boot through `count` ticks. -/
structure Idled (count : Nat) (config : Config) : Prop where
  hart : config.hart = .kernel (.pure .idle)
  current : config.state.core.current = none
  reactive : config.state.core.autonomous = false
  enabled : config.state.env.sie = true
  serial : config.state.env.serial = count + 1
  serials : serialsOf config.state.env.log = List.range (count + 1)

theorem tick_fits (serial : Nat) {seq : Nat} (small : seq < 2 ^ 64) : ((Event.tick seq 0).frameBuf (idOf serial)).overflow = false := by
  rw [Event.fits_iff]
  simp only [Event.text, Event.pieces, List.flatten_cons, List.flatten_nil, List.length_append, List.length_nil]
  have := decimal_word (idOf_lt serial)
  have := decimal_word small
  have : (Console.decimal 0).length = 1 := rfl
  have literals : (Console.utf8 "\x7b\"id\":").length + (Console.utf8 ",\"type\":\"tick\",\"seq\":").length +
      (Console.utf8 ",\"time\":").length + (Console.utf8 "\x7d").length ≤ 200 := by decide
  have room : Console.capacity = 2048 := rfl
  omega

/-- A build whose time register stands still. -/
def stillBuild : Build := { bareBuild with clock := fun _ => 0 }

theorem serviceTick_reports (serial : Nat) (state : State) (reactive : state.core.autonomous = false) :
    ∃ env', ((Traps.serviceTick stillBuild serial).run state).2 = { state with env := env' } ∧
      env'.sie = state.env.sie ∧ env'.serial = state.env.serial ∧
      env'.log = state.env.log ++ [stamp state.core (.frame serial (.tick (Traps.bump state.env.ticks) 0))] := by
  have small : Traps.bump state.env.ticks < 2 ^ 64 := Nat.mod_lt _ (by decide)
  have fits := tick_fits serial small
  unfold Traps.serviceTick
  simp only [run_bind, onEnv_run, readCore_run, readTime, reactive, Bool.false_eq_true, if_false, send_run]
  rw [if_neg (by simp only [stillBuild, fits, Bool.false_eq_true, not_false_eq_true])]
  exact ⟨_, rfl, rfl, rfl, rfl⟩

theorem Idled.tick {count : Nat} (idled : Idled count config) :
    Idled (count + 1) (kernelTick stillBuild config (.pure .idle) kernelFrame) := by
  obtain ⟨hart, current, reactive, enabled, serial, serials⟩ := idled
  have masked : (setSie config.state false).core.current = none := current
  have handled := handle_tick_nobody_run stillBuild masked kernelFrame
  obtain ⟨quiet, counted⟩ := noted_emits kernelFrame Text.causeSTimer 0 (setSie config.state false)
  have isCore : (noted kernelFrame Text.causeSTimer 0 (setSie config.state false)).core = config.state.core := rfl
  have isLog : (noted kernelFrame Text.causeSTimer 0 (setSie config.state false)).env.log = config.state.env.log := by
    rw [quiet.logs.log]
    exact List.append_nil _
  obtain ⟨env', serviced, -, serial', log'⟩ := serviceTick_reports config.state.env.serial
    (noted kernelFrame Text.causeSTimer 0 (setSie config.state false)) (isCore ▸ reactive)
  have after : kernelTick stillBuild config (.pure .idle) kernelFrame =
      { config with hart := .kernel (.pure .idle), state := ⟨config.state.core, { env' with sie := true }⟩ } := by
    have trapped : trap stillBuild config kernelFrame Text.causeSTimer 0 (.pure .idle) =
        { config with hart := .kernel (.pure .idle), state := ⟨config.state.core, { env' with sie := true }⟩ } := by
      unfold trap
      rw [handled]
      change trapReturn stillBuild config kernelFrame ((Traps.serviceTick stillBuild config.state.env.serial).run _).2 _ = _
      rw [serviced]
      rfl
    unfold kernelTick
    rw [trapped, current]
  rw [after]
  refine ⟨rfl, current, reactive, rfl, ?_, ?_⟩
  · exact serial'.trans (counted.trans (congrArg (· + 1) serial))
  · rw [log', isLog, serialsOf_append, serials, serial]
    exact List.range_succ.symm

/-- This entry announces the start of `pid` in this suite, under this id. -/
def IsStart (suite : Nat) (pid : Pid) (id : Nat) (entry : Entry) : Prop :=
  entry.ledger.suite = suite ∧ ∃ serial event, entry.what = .frame serial event ∧ event.startOf = some pid ∧ idOf serial = id

/-- Whose start `caused_by` is to name: that of the payload the event is about, or of its
parent if the event is a start itself. -/
def Entry.causePid (entry : Entry) : Option Pid :=
  match entry.what.startOf with
  | some pid => (entry.table pid).parent
  | none => entry.what.pidOf

/-- How often the log announces the start of `pid` in this suite. -/
def startReports (log : List Entry) (suite : Nat) (pid : Pid) : Nat :=
  log.countP fun entry => entry.ledger.suite = suite ∧ entry.what.startOf = some pid

/-- The causal spine: a payload's start comes once and before anything else about it, and
every `caused_by` names an earlier start of the right payload. -/
structure Spine (log : List Entry) : Prop where
  once : ∀ suite pid, startReports log suite pid ≤ 1
  first : ∀ before start after pid, log = before ++ start :: after → start.what.startOf = some pid →
    ∀ entry ∈ before, entry.ledger.suite = start.ledger.suite → entry.what.pidOf ≠ some pid
  caused : ∀ before entry after cause, log = before ++ entry :: after → entry.what.causedBy = some cause →
    cause ≠ 0 ∧ ∃ pid, entry.causePid = some pid ∧ ∃ start ∈ before, IsStart entry.ledger.suite pid cause start

theorem Emission.pid_of_start {what : Emission} (start : what.startOf = some pid) : what.pidOf = some pid := by
  cases what with
  | classic named line => cases start
  | frame serial event =>
    cases event <;> first | exact start | cases start

theorem startReports_append (log more : List Entry) (suite : Nat) (pid : Pid) :
    startReports (log ++ more) suite pid = startReports log suite pid + startReports more suite pid := List.countP_append

theorem startReports_none {suite : Nat} (fresh : ∀ entry ∈ log, entry.ledger.suite = suite → entry.what.pidOf ≠ some pid) :
    startReports log suite pid = 0 := by
  refine List.countP_eq_zero.mpr fun entry member counted => ?_
  simp only [decide_eq_true_eq] at counted
  exact fresh entry member counted.1 (Emission.pid_of_start counted.2)

theorem Spine.append (spine : Spine log)
    (fresh : ∀ pid, entry.what.startOf = some pid → ∀ other ∈ log, other.ledger.suite = entry.ledger.suite →
      other.what.pidOf ≠ some pid)
    (caused : ∀ cause, entry.what.causedBy = some cause → cause ≠ 0 ∧
      ∃ pid, entry.causePid = some pid ∧ ∃ start ∈ log, IsStart entry.ledger.suite pid cause start) :
    Spine (log ++ [entry]) := by
  refine ⟨fun suite pid => ?_, fun before start after pid split isStart => ?_, fun before other after cause split isCause => ?_⟩
  · rw [startReports_append]
    by_cases counted : entry.ledger.suite = suite ∧ entry.what.startOf = some pid
    · rw [startReports_none (fun other member within => fresh pid counted.2 other member (within.trans counted.1.symm))]
      simp [startReports, counted]
    · have none : startReports [entry] suite pid = 0 := by simpa [startReports] using counted
      rw [none]
      exact spine.once suite pid
  · rcases split_concat split with ⟨rfl, rfl⟩ | ⟨rest, old⟩
    · exact fresh pid isStart
    · exact spine.first before start rest pid old isStart
  · rcases split_concat split with ⟨rfl, rfl⟩ | ⟨rest, old⟩
    · exact caused cause isCause
    · exact spine.caused before other rest cause old isCause

/-- Entries that announce no start, all of them caused by starts already in the log. -/
theorem Spine.extend (spine : Spine log) (plain : ∀ entry ∈ more, entry.what.startOf = none)
    (caused : ∀ entry ∈ more, ∀ cause, entry.what.causedBy = some cause → cause ≠ 0 ∧
      ∃ pid, entry.what.pidOf = some pid ∧ ∃ start ∈ log, IsStart entry.ledger.suite pid cause start) :
    Spine (log ++ more) := by
  induction more generalizing log with
  | nil =>
    rw [List.append_nil]
    exact spine
  | cons entry rest ih =>
    rw [List.append_cons]
    have here : entry ∈ entry :: rest := List.mem_cons_self
    have isPlain := plain entry here
    refine ih (spine.append (fun pid isStart => ?_) fun cause isCause => ?_) (fun other member => plain other (.tail _ member))
      fun other member cause isCause => ?_
    · rw [isPlain] at isStart
      cases isStart
    · obtain ⟨known, pid, named, start⟩ := caused entry here cause isCause
      refine ⟨known, pid, ?_, start⟩
      rw [Entry.causePid, isPlain]
      exact named
    · obtain ⟨known, pid, named, start, earlier, isStart⟩ := caused other (.tail _ member) cause isCause
      exact ⟨known, pid, named, start, List.mem_append_left _ earlier, isStart⟩

/-- A log whose first id went to no start, so that 0 is never the id of one. -/
structure Trunk (log : List Entry) : Prop where
  spine : Spine log
  greeted : 0 ∈ serialsOf log
  numbered : ∀ entry ∈ log, ∀ serial event pid, entry.what = .frame serial event → event.startOf = some pid → serial ≠ 0

theorem Trunk.extend (trunk : Trunk log) (plain : ∀ entry ∈ more, entry.what.startOf = none)
    (caused : ∀ entry ∈ more, ∀ cause, entry.what.causedBy = some cause → cause ≠ 0 ∧
      ∃ pid, entry.what.pidOf = some pid ∧ ∃ start ∈ log, IsStart entry.ledger.suite pid cause start) :
    Trunk (log ++ more) := by
  refine ⟨trunk.spine.extend plain caused, ?_, fun entry member serial event pid isFrame isStart => ?_⟩
  · rw [serialsOf_append]
    exact List.mem_append_left _ trunk.greeted
  · rcases List.mem_append.mp member with old | new
    · exact trunk.numbered entry old serial event pid isFrame isStart
    · have isPlain := plain entry new
      rw [isFrame] at isPlain
      exact absurd (isStart.symm.trans isPlain) nofun

/-- Nothing in the log is about this payload. -/
def Unmentioned (pid : Pid) (state : State) : Prop :=
  ∀ entry ∈ state.env.log, entry.ledger.suite = state.core.ledger.suite → entry.what.pidOf ≠ some pid

/-- The payload's start is in the log, and its slot holds the id. -/
def Traced (pid : Pid) (state : State) : Prop :=
  (state.core.table pid).startEvent ≠ 0 ∧
    ∃ start ∈ state.env.log, IsStart state.core.ledger.suite pid (state.core.table pid).startEvent.toNat start

/-- What the spine needs of the table: whoever waits to be started has not been mentioned,
whoever was on the CPU has been announced unless about to be, and so were all parents. -/
structure Rooted (state : State) : Prop where
  few : state.env.serial ≤ 2 ^ 64
  trunk : Trunk state.env.log
  unmentioned : ∀ pid, (state.core.table pid).state = .empty ∨ (state.core.table pid).queued = true → Unmentioned pid state
  engaged : ∀ pid, (state.core.table pid).engaged = true →
    Traced pid state ∨ ((state.core.table pid).state = .running ∧ Unmentioned pid state)
  silent : ∀ pid, (state.core.table pid).state = .running → state.core.ledger.silent = true → Traced pid state
  anchored : ∀ pid, (state.core.table pid).state ≠ .empty → (state.core.table pid).startEvent ≠ 0 →
    Traced pid state ∨ ((state.core.table pid).state = .running ∧ Unmentioned pid state)
  family : ∀ pid parent, (state.core.table pid).state ≠ .empty → (state.core.table pid).parent = some parent →
    Traced parent state

/-- A `caused_by` is the start event in the slot of the payload the event names. -/
theorem Entry.Sound.cause (sound : entry.Sound) (plain : entry.what.startOf = none) {cause : Nat}
    (isCause : entry.what.causedBy = some cause) :
    ∃ pid, entry.what.pidOf = some pid ∧ cause = (entry.table pid).startEvent.toNat := by
  obtain ⟨what, table, ledger⟩ := entry
  cases what with
  | classic named line => cases isCause
  | frame serial event =>
    obtain ⟨mediated, -, caused⟩ := sound
    cases event with
    | fault report =>
      have cases := caused.symm.trans isCause
      obtain ⟨pid, isPid, rfl⟩ := Option.map_eq_some_iff.mp cases
      exact ⟨pid, isPid, rfl⟩
    | output named found data =>
      obtain ⟨holder, isHolder, -⟩ := mediated
      exact ⟨holder, isHolder, (Option.some.inj isCause).symm.trans (caused holder isHolder)⟩
    | preempt pid found => exact ⟨pid, rfl, (Option.some.inj isCause).symm.trans caused⟩
    | killed pid elapsed deadline found => exact ⟨pid, rfl, (Option.some.inj isCause).symm.trans caused⟩
    | exit pid code found => exact ⟨pid, rfl, (Option.some.inj isCause).symm.trans caused⟩
    | killedOperator pid elapsed found =>
      simp only [Emission.causedBy, Event.causedBy] at isCause
      split at isCause
      · cases isCause
      · exact ⟨pid, rfl, (Option.some.inj isCause).symm.trans caused⟩
    | start => cases plain
    | _ => cases isCause

theorem Traced.keep (traced : Traced pid state) (anchor : (state'.core.table pid).startEvent = (state.core.table pid).startEvent)
    (suite : state'.core.ledger.suite = state.core.ledger.suite) (log : state.env.log <+: state'.env.log) : Traced pid state' := by
  obtain ⟨known, start, member, isStart⟩ := traced
  rw [Traced, anchor, suite]
  exact ⟨known, start, log.subset member, isStart⟩

theorem Unmentioned.keep (unmentioned : Unmentioned pid state) (suite : state'.core.ledger.suite = state.core.ledger.suite)
    (log : state'.env.log = state.env.log ++ more) (others : ∀ entry ∈ more, entry.what.pidOf ≠ some pid) :
    Unmentioned pid state' := by
  intro entry member within
  rw [log, List.mem_append] at member
  rcases member with old | new
  · exact unmentioned entry old (within.trans suite)
  · exact others entry new

theorem Unmentioned.keep_log (unmentioned : Unmentioned pid state)
    (suite : state'.core.ledger.suite = state.core.ledger.suite) (log : state'.env.log = state.env.log) :
    Unmentioned pid state' := by
  rw [Unmentioned, suite, log]
  exact unmentioned

theorem Moves.traced (moves : Moves state state') (used : (state.core.table pid).state ≠ .empty) (traced : Traced pid state) :
    Traced pid state' := by
  obtain ⟨more, log, -⟩ := moves.log
  exact traced.keep (moves.core.anchor pid used) moves.core.suite (log ▸ List.prefix_append _ _)

theorem running_used (running : (state.core.table pid).state = .running) : (state.core.table pid).state ≠ .empty := by
  rw [running]
  decide

/-- Whoever may be running has been announced, so whatever is told is told of the announced. -/
theorem Rooted.moves (rooted : Rooted state) (table : Table state.core) (moves : Moves state state')
    (few : state'.env.serial ≤ 2 ^ 64) (sound : ∀ entry ∈ state'.env.log, entry.Sound)
    (all : ∀ pid, (state.core.table pid).state = .running → Traced pid state) : Rooted state' := by
  obtain ⟨more, log, follows⟩ := moves.log
  have grown : state.env.log <+: state'.env.log := log ▸ List.prefix_append _ _
  have engaged : ∀ pid, (state.core.table pid).engaged = true → (state.core.table pid).state ≠ .empty ∧ Traced pid state := by
    intro pid isEngaged
    refine ⟨fun empty => ?_, (rooted.engaged pid isEngaged).elim id fun starts => all pid starts.1⟩
    simp [Slot.engaged, empty] at isEngaged
  constructor
  · exact few
  · rw [log]
    refine rooted.trunk.extend (fun entry member => (follows entry member).plain.1) fun entry member cause isCause => ?_
    have plain := (follows entry member).plain
    have known : entry.Sound := sound entry (log ▸ List.mem_append_right _ member)
    obtain ⟨pid, named, rfl⟩ := known.cause plain.1 isCause
    have running := plain.2 pid named
    obtain ⟨known, start, earlier, isStart⟩ := all pid running
    rw [(follows entry member).anchor pid (running_used running), (follows entry member).suite]
    exact ⟨fun zero => known (UInt64.toNat_inj.mp zero), pid, named, start, earlier, isStart⟩
  · intro pid idle
    have before : (state.core.table pid).state = .empty ∨ (state.core.table pid).queued = true := by
      rcases idle with empty | queued
      · refine .inl (Classical.byContradiction fun used => ?_)
        exact (moves.core.slots pid used).present empty
      · exact moves.core.queued pid queued
    refine (rooted.unmentioned pid before).keep moves.core.suite log fun entry member named => ?_
    have running := (follows entry member).plain.2 pid named
    rcases before with empty | queued
    · rw [running] at empty
      cases empty
    · exact absurd (running.symm.trans (Slot.queued_iff.mp queued).1) (by simp)
  · intro pid isEngaged
    obtain ⟨used, traced⟩ := engaged pid (moves.core.engaged pid isEngaged)
    exact .inl (moves.traced used traced)
  · intro pid running _
    have before := moves.core.running pid running
    exact moves.traced (running_used before) (all pid before)
  · intro pid used known
    by_cases before : (state.core.table pid).state = .empty
    · exact absurd (moves.core.born pid before used).1 known
    · rw [moves.core.anchor pid before] at known
      have traced : Traced pid state := (rooted.anchored pid before known).elim id fun starts => all pid starts.1
      exact .inl (moves.traced before traced)
  · intro pid parent used isParent
    by_cases before : (state.core.table pid).state = .empty
    · have running := (moves.core.born pid before used).2 parent isParent
      exact moves.traced (running_used running) (all parent running)
    · rw [(moves.core.slots pid before).parent] at isParent
      exact moves.traced (table.delegated pid parent before isParent).1 (rooted.family pid parent before isParent)

/-- The table is the same. Entries may name a payload that is running or done, and then
only one that has been announced by now. -/
theorem Rooted.grow (rooted : Rooted state) (few : state'.env.serial ≤ 2 ^ 64) (table : state'.core.table = state.core.table)
    (ledger : state'.core.ledger = state.core.ledger) (log : state'.env.log = state.env.log ++ more)
    (trunk : Trunk state'.env.log)
    (mentions : ∀ pid, (state.core.table pid).state.terminal = false →
      (∀ entry ∈ more, entry.what.pidOf ≠ some pid) ∨ ((state.core.table pid).state = .running ∧ Traced pid state')) :
    Rooted state' := by
  have suite : state'.core.ledger.suite = state.core.ledger.suite := congrArg Ledger.suite ledger
  have traced : ∀ pid, Traced pid state → Traced pid state' := fun pid traced =>
    traced.keep (by rw [table]) suite (log ▸ List.prefix_append _ _)
  have either : ∀ pid, Traced pid state ∨ ((state.core.table pid).state = .running ∧ Unmentioned pid state) →
      Traced pid state' ∨ ((state'.core.table pid).state = .running ∧ Unmentioned pid state') := by
    intro pid before
    rcases before with known | ⟨running, fresh⟩
    · exact .inl (traced pid known)
    · rcases mentions pid (by rw [running]; rfl) with others | ⟨-, known⟩
      · exact .inr ⟨by rw [table]; exact running, fresh.keep suite log others⟩
      · exact .inl known
  refine ⟨few, trunk, fun pid idle => ?_, fun pid isEngaged => ?_, fun pid running silent => ?_, fun pid used known => ?_,
    fun pid parent used isParent => ?_⟩ <;> rw [table] at *
  · have waits : (state.core.table pid).state.terminal = false ∧ (state.core.table pid).state ≠ .running := by
      rcases idle with empty | queued
      · rw [empty]
        exact ⟨rfl, nofun⟩
      · rw [(Slot.queued_iff.mp queued).1]
        exact ⟨rfl, nofun⟩
    rcases mentions pid waits.1 with others | ⟨running, -⟩
    · exact (rooted.unmentioned pid idle).keep suite log others
    · exact absurd running waits.2
  · exact either pid (rooted.engaged pid isEngaged)
  · rw [ledger] at silent
    exact traced pid (rooted.silent pid running silent)
  · exact either pid (rooted.anchored pid used known)
  · exact traced parent (rooted.family pid parent used isParent)

/-- What was told names nobody. -/
theorem Rooted.unnamed (rooted : Rooted state) (table : state'.core.table = state.core.table)
    (ledger : state'.core.ledger = state.core.ledger) (moves : Moves state state') (unnamed : Unnamed state state')
    (few : state'.env.serial ≤ 2 ^ 64) (sound : ∀ entry ∈ state'.env.log, entry.Sound) : Rooted state' := by
  obtain ⟨more, log, nobody⟩ := unnamed
  have plain : ∀ entry ∈ more, entry.what.startOf = none := by
    obtain ⟨others, log', follows⟩ := moves.log
    cases List.append_cancel_left (log.symm.trans log')
    exact fun entry member => (follows entry member).plain.1
  refine rooted.grow few table ledger log ?_ fun pid _ => .inl fun entry member named => ?_
  · rw [log]
    refine rooted.trunk.extend plain fun entry member cause isCause => ?_
    have known : entry.Sound := sound entry (log ▸ List.mem_append_right _ member)
    obtain ⟨pid, named, -⟩ := known.cause (plain entry member) isCause
    exact absurd ((nobody entry member).symm.trans named) nofun
  · exact absurd ((nobody entry member).symm.trans named) nofun

/-- The report of a payload's end, made by kernel code. -/
theorem Rooted.reports (rooted : Rooted state) (few : state'.env.serial ≤ 2 ^ 64) {what : Emission}
    (terminal : (state.core.table pid).state.terminal = true) (core : state'.core = state.core)
    (log : state'.env.log = state.env.log ++ [stamp state.core what]) (isEnd : what.endOf = some pid)
    (cause : what.causedBy ≠ some 0) (sound : (stamp state.core what).Sound) : Rooted state' := by
  obtain ⟨plain, only⟩ := Emission.plain_of_end isEnd
  refine rooted.grow few (by rw [core]) (by rw [core]) log ?_ fun other alive => .inl fun entry member named => ?_
  · rw [log]
    refine rooted.trunk.extend (fun entry member => ?_) fun entry member number isCause => ?_ <;>
      rw [List.mem_singleton.mp member] at *
    · exact plain
    · obtain ⟨named, isNamed, rfl⟩ := sound.cause plain isCause
      obtain rfl := only named isNamed
      have known : (state.core.table named).startEvent ≠ 0 := fun zero => cause (isCause.trans (by
        rw [show (stamp state.core what).table = state.core.table from rfl, zero]
        rfl))
      rcases rooted.anchored named (terminal_used terminal) known with ⟨-, start, earlier, isStart⟩ | ⟨running, -⟩
      · exact ⟨fun zero => known (UInt64.toNat_inj.mp zero), named, isNamed, start, earlier, isStart⟩
      · rw [running] at terminal
        cases terminal
  · rw [List.mem_singleton.mp member] at named
    rw [only other named, terminal] at alive
    cases alive

/-- A new suite. -/
theorem Rooted.seeds (rooted : Rooted state) (few : state'.env.serial ≤ 2 ^ 64) (inv : LogInv state.core state.env.log)
    (table : Table state'.core) (reseeded : Reseeded state.core state'.core) (log : state'.env.log = state.env.log) :
    Rooted state' := by
  have unmentioned : ∀ pid, Unmentioned pid state' := by
    intro pid entry member within
    rw [log] at member
    rw [reseeded.suite] at within
    have past := inv.past entry member
    omega
  have notEngaged : ∀ pid, (state'.core.table pid).engaged = false := by
    intro pid
    by_cases used : (state'.core.table pid).state = .empty
    · simp [Slot.engaged, used]
    · obtain ⟨pending, fresh⟩ := Slot.queued_iff.mp (reseeded.blank pid used).1
      simp [Slot.engaged, pending, fresh]
  constructor
  · exact few
  · rw [log]
    exact rooted.trunk
  · exact fun pid _ => unmentioned pid
  · intro pid isEngaged
    rw [notEngaged pid] at isEngaged
    cases isEngaged
  · intro pid running
    have isEngaged := notEngaged pid
    simp [Slot.engaged, running] at isEngaged
  · intro pid used known
    exact absurd (table.unstarted pid (reseeded.blank pid used).1) known
  · intro pid parent used isParent
    rw [(reseeded.blank pid used).2] at isParent
    cases isParent

/-- A payload is put on the CPU. -/
theorem Rooted.starts (rooted : Rooted state) (few : state'.env.serial ≤ 2 ^ 64) {launch : Launch} (table : Table state.core)
    (startable : Startable state.core pid) (begun : Begun tight held pid state.core launch state'.core)
    (log : state'.env.log = state.env.log) : Rooted state' := by
  have used : (state.core.table pid).state ≠ .empty := by rw [startable.pending]; decide
  have running : (state'.core.table pid).state = .running := begun.isPid ▸ begun.launched.running
  have anchor : ∀ other, (state'.core.table other).startEvent = (state.core.table other).startEvent := by
    intro other
    by_cases same : other = pid
    · rw [same]
      exact begun.anchor
    · rw [begun.others other same]
  have traced : ∀ pid, Traced pid state → Traced pid state' := fun pid traced =>
    traced.keep (anchor pid) begun.advances.suite (log ▸ List.prefix_refl _)
  have unmentioned : ∀ pid, Unmentioned pid state → Unmentioned pid state' := fun pid unmentioned =>
    unmentioned.keep_log begun.advances.suite log
  -- the payload was taken off the CPU before, or nothing has been said of it
  have here : ((state.core.table pid).preempted = true ∧ Traced pid state) ∨ Unmentioned pid state := by
    cases preempted : (state.core.table pid).preempted with
    | false => exact .inr (rooted.unmentioned pid (.inr (Slot.queued_iff.mpr ⟨startable.pending, preempted⟩)))
    | true =>
      rcases rooted.engaged pid (by simp [Slot.engaged, startable.pending, preempted]) with traced | ⟨running, -⟩
      · exact .inl ⟨rfl, traced⟩
      · exact absurd (startable.pending.symm.trans running) (by simp)
  have either : ∀ other, Traced other state ∨ ((state.core.table other).state = .running ∧ Unmentioned other state) →
      Traced other state' := by
    intro other before
    rcases before with known | ⟨isRunning, -⟩
    · exact traced other known
    · exact absurd isRunning (startable.nobody table other)
  constructor
  · exact few
  · rw [log]
    exact rooted.trunk
  · intro other idle
    have different : other ≠ pid := by
      rintro rfl
      rcases idle with empty | queued
      · exact absurd (running.symm.trans empty) (by simp)
      · exact absurd (running.symm.trans (Slot.queued_iff.mp queued).1) (by simp)
    rw [begun.others other different] at idle
    exact unmentioned other (rooted.unmentioned other idle)
  · intro other isEngaged
    by_cases same : other = pid
    · subst same
      exact here.imp (fun started => traced other started.2) fun fresh => ⟨running, unmentioned other fresh⟩
    · rw [begun.others other same] at isEngaged
      exact .inl (either other (rooted.engaged other isEngaged))
  · intro other isRunning silent
    by_cases same : other = pid
    · subst same
      rcases rooted.engaged other (by
        rw [begun.silent] at silent
        simp [Slot.engaged, startable.pending, silent]) with known | ⟨isRunning, -⟩
      · exact traced other known
      · exact absurd isRunning (startable.nobody table other)
    · rw [begun.others other same] at isRunning
      exact absurd isRunning (startable.nobody table other)
  · intro other isUsed known
    rw [anchor other] at known
    refine .inl (either other (rooted.anchored other ?_ known))
    by_cases same : other = pid
    · exact same ▸ used
    · rw [begun.others other same] at isUsed
      exact isUsed
  · intro other parent isUsed isParent
    by_cases same : other = pid
    · subst same
      rw [(begun.advances.slots other used).parent] at isParent
      exact traced parent (rooted.family other parent used isParent)
    · rw [begun.others other same] at isUsed isParent
      exact traced parent (rooted.family other parent isUsed isParent)

/-- The id of the start event goes into the slot. -/
theorem Rooted.anchors (rooted : Rooted state) (few : state'.env.serial ≤ 2 ^ 64) {serial : Nat}
    (running : (state.core.table pid).state = .running) (spoken : state.core.ledger.silent = false)
    (unanchored : (state.core.table pid).startEvent = 0) (core : state'.core = announcedCore state.core pid serial)
    (log : state'.env.log = state.env.log) : Rooted state' := by
  have self := announcedCore_self state.core pid serial
  have others : ∀ other, other ≠ pid → state'.core.table other = state.core.table other := by
    intro other different
    rw [core]
    exact setSlot_other state.core _ different
  have suite : state'.core.ledger.suite = state.core.ledger.suite := by rw [core]; rfl
  have untraced : ¬ Traced pid state := fun traced => traced.1 unanchored
  have traced : ∀ other, Traced other state → Traced other state' := by
    intro other known
    have different : other ≠ pid := by
      rintro rfl
      exact untraced known
    exact known.keep (by rw [others other different]) suite (log ▸ List.prefix_refl _)
  have unmentioned : ∀ other, Unmentioned other state → Unmentioned other state' := fun other unmentioned =>
    unmentioned.keep_log suite log
  have same : ∀ other, (state'.core.table other).state = (state.core.table other).state ∧
      (state'.core.table other).preempted = (state.core.table other).preempted ∧
      (state'.core.table other).parent = (state.core.table other).parent := by
    intro other
    by_cases isPid : other = pid
    · rw [isPid, core, self]
      exact ⟨rfl, rfl, rfl⟩
    · rw [others other isPid]
      exact ⟨rfl, rfl, rfl⟩
  have here : Unmentioned pid state := by
    rcases rooted.engaged pid (by simp [Slot.engaged, running]) with known | ⟨-, fresh⟩
    · exact absurd known untraced
    · exact fresh
  have either : ∀ other, Traced other state ∨ ((state.core.table other).state = .running ∧ Unmentioned other state) →
      Traced other state' ∨ ((state'.core.table other).state = .running ∧ Unmentioned other state') := fun other =>
    Or.imp (traced other) fun starts => ⟨by rw [(same other).1]; exact starts.1, unmentioned other starts.2⟩
  constructor
  · exact few
  · rw [log]
    exact rooted.trunk
  · intro other idle
    rw [Slot.queued, (same other).1, (same other).2.1] at idle
    exact unmentioned other (rooted.unmentioned other idle)
  · intro other isEngaged
    rw [Slot.engaged, (same other).1, (same other).2.1] at isEngaged
    exact either other (rooted.engaged other isEngaged)
  · intro other _ silent
    rw [core] at silent
    exact absurd (spoken.symm.trans silent) (by simp)
  · intro other used known
    by_cases isPid : other = pid
    · subst isPid
      exact .inr ⟨by rw [(same other).1]; exact running, unmentioned other here⟩
    · rw [others other isPid] at used known
      exact either other (rooted.anchored other used known)
  · intro other parent used isParent
    rw [(same other).1] at used
    rw [(same other).2.2] at isParent
    exact traced parent (rooted.family other parent used isParent)

/-- A start entry under an id larger than all before it. -/
theorem Trunk.announce (trunk : Trunk log) {core : Core} {serial : Nat} {event : Event}
    (increasing : (serialsOf (log ++ [stamp core (.frame serial event)])).Pairwise (· < ·))
    (fresh : ∀ pid, event.startOf = some pid → ∀ entry ∈ log, entry.ledger.suite = core.ledger.suite →
      entry.what.pidOf ≠ some pid)
    (caused : ∀ cause, event.causedBy = some cause → cause ≠ 0 ∧ ∃ pid,
      (stamp core (.frame serial event)).causePid = some pid ∧ ∃ start ∈ log, IsStart core.ledger.suite pid cause start) :
    Trunk (log ++ [stamp core (.frame serial event)]) := by
  rw [serialsOf_append] at increasing
  have positive : serial ≠ 0 := by
    have above := (List.pairwise_append.mp increasing).2.2 0 trunk.greeted serial (List.mem_singleton_self serial)
    exact Nat.ne_of_gt above
  refine ⟨trunk.spine.append fresh caused, ?_, fun entry member serial' event' pid isFrame isStart => ?_⟩
  · rw [serialsOf_append]
    exact List.mem_append_left _ trunk.greeted
  · rcases List.mem_append.mp member with old | new
    · exact trunk.numbered entry old serial' event' pid isFrame isStart
    · rw [List.mem_singleton.mp new] at isFrame
      cases isFrame
      exact positive

theorem idOf_small {serial : Nat} (small : serial < 2 ^ 64) : idOf serial = serial := Nat.mod_eq_of_lt small

theorem startEvent_toNat (serial : Nat) : (UInt64.ofNat serial).toNat = idOf serial := UInt64.toNat_ofNat

/-- The start is announced. -/
theorem Rooted.announces (rooted : Rooted state) (few : state'.env.serial ≤ 2 ^ 64) (stream : Stream state'.env) {what : Emission}
    (running : (state.core.table pid).state = .running) (core : state'.core = state.core)
    (log : state'.env.log = state.env.log ++ [stamp state.core what]) (start : what.startOf = some pid)
    (sound : (stamp state.core what).Sound) : Rooted state' := by
  cases what with
  | classic named line => cases start
  | frame serial event =>
  have isStart : event.startOf = some pid := start
  obtain ⟨causedBy, anchor⟩ : (event.causedBy = (state.core.table pid).parent.map
      fun parent => (state.core.table parent).startEvent.toNat) ∧ (state.core.table pid).startEvent = .ofNat serial := by
    cases event with
    | start named name entry restored causedBy caps =>
      cases isStart
      exact sound.2.2
    | _ => cases isStart
  have increasing := stream.increasing
  rw [log] at increasing
  have small : serial < 2 ^ 64 := by
    refine Nat.lt_of_lt_of_le (stream.below serial ?_) few
    rw [log, serialsOf_append]
    exact List.mem_append_right _ (List.mem_singleton_self serial)
  -- an earlier announcement would have gone out under the same id
  have fresh : Unmentioned pid state := by
    rcases rooted.engaged pid (by simp [Slot.engaged, running]) with ⟨-, earlier, member, -, serial', event', isFrame, -, sameId⟩ | ⟨-, fresh⟩
    · exfalso
      have listed : serial' ∈ serialsOf state.env.log := List.mem_filterMap.mpr ⟨earlier, member, by rw [isFrame]; rfl⟩
      rw [serialsOf_append] at increasing
      have below : serial' < serial :=
        (List.pairwise_append.mp increasing).2.2 serial' listed serial (List.mem_singleton_self serial)
      rw [anchor, startEvent_toNat, idOf_small small, idOf_small (Nat.lt_trans below small)] at sameId
      exact Nat.ne_of_lt below sameId
    · exact fresh
  have trunk : Trunk (state.env.log ++ [stamp state.core (.frame serial event)]) := by
    refine rooted.trunk.announce increasing (fun other isOther => ?_) fun cause isCause => ?_
    · cases Option.some.inj (isStart.symm.trans isOther)
      exact fresh
    · rw [causedBy] at isCause
      obtain ⟨parent, isParent, rfl⟩ := Option.map_eq_some_iff.mp isCause
      obtain ⟨known, start, earlier, started⟩ := rooted.family pid parent (running_used running) isParent
      refine ⟨fun zero => known (UInt64.toNat_inj.mp zero), parent, ?_, start, earlier, started⟩
      rw [Entry.causePid, show (stamp state.core (.frame serial event)).what.startOf = some pid from isStart]
      exact isParent
  have here : Traced pid state' := by
    have listed : stamp state.core (.frame serial event) ∈ state.env.log ++ [stamp state.core (.frame serial event)] :=
      List.mem_append_right _ (List.mem_singleton_self _)
    have positive := trunk.numbered _ listed serial event pid rfl isStart
    rw [Traced, core, log, anchor]
    refine ⟨fun zero => positive ?_, _, listed, rfl, serial, event, rfl, isStart, (startEvent_toNat serial).symm⟩
    rw [← idOf_small small, ← startEvent_toNat, zero]
    rfl
  refine rooted.grow few (by rw [core]) (by rw [core]) log (log ▸ trunk) fun other _ => ?_
  by_cases same : other = pid
  · exact .inr ⟨same ▸ running, same ▸ here⟩
  · refine .inl fun entry member named => same ?_
    rw [List.mem_singleton.mp member] at named
    exact Option.some.inj (named.symm.trans (Emission.pid_of_start start))

/-- Nothing the spine looks at has changed. -/
theorem Rooted.same (rooted : Rooted state) (few : state'.env.serial ≤ 2 ^ 64) (log : state'.env.log = state.env.log)
    (ledger : state'.core.ledger = state.core.ledger)
    (slots : ∀ pid, (state'.core.table pid).state = (state.core.table pid).state ∧
      (state'.core.table pid).preempted = (state.core.table pid).preempted ∧
      (state'.core.table pid).startEvent = (state.core.table pid).startEvent ∧
      (state'.core.table pid).parent = (state.core.table pid).parent) : Rooted state' := by
  have suite : state'.core.ledger.suite = state.core.ledger.suite := congrArg Ledger.suite ledger
  have traced : ∀ pid, Traced pid state → Traced pid state' := fun pid traced =>
    traced.keep (slots pid).2.2.1 suite (log ▸ List.prefix_refl _)
  have unmentioned : ∀ pid, Unmentioned pid state → Unmentioned pid state' := fun pid unmentioned =>
    unmentioned.keep_log suite log
  have either : ∀ pid, Traced pid state ∨ ((state.core.table pid).state = .running ∧ Unmentioned pid state) →
      Traced pid state' ∨ ((state'.core.table pid).state = .running ∧ Unmentioned pid state') := fun pid =>
    Or.imp (traced pid) fun ⟨running, fresh⟩ => ⟨by rw [(slots pid).1]; exact running, unmentioned pid fresh⟩
  constructor
  · exact few
  · rw [log]
    exact rooted.trunk
  · intro pid idle
    rw [Slot.queued, (slots pid).1, (slots pid).2.1] at idle
    exact unmentioned pid (rooted.unmentioned pid idle)
  · intro pid isEngaged
    rw [Slot.engaged, (slots pid).1, (slots pid).2.1] at isEngaged
    exact either pid (rooted.engaged pid isEngaged)
  · intro pid running silent
    rw [(slots pid).1] at running
    rw [ledger] at silent
    exact traced pid (rooted.silent pid running silent)
  · intro pid used known
    rw [(slots pid).1] at used
    rw [(slots pid).2.2.1] at known
    exact either pid (rooted.anchored pid used known)
  · intro pid parent used isParent
    rw [(slots pid).1] at used
    rw [(slots pid).2.2.2] at isParent
    exact traced parent (rooted.family pid parent used isParent)

/-- `Announced` in terms of the spine. -/
theorem Announced.traced (announced : Announced pid state) (rooted : Rooted state) (stream : Stream state.env) :
    Traced pid state := by
  obtain ⟨entry, member, serial, event, isFrame, isStart, suite, anchor⟩ := announced
  have listed : serial ∈ serialsOf state.env.log := List.mem_filterMap.mpr ⟨entry, member, by rw [isFrame]; rfl⟩
  have small : serial < 2 ^ 64 := Nat.lt_of_lt_of_le (stream.below serial listed) rooted.few
  have positive := rooted.trunk.numbered entry member serial event pid isFrame isStart
  rw [Traced, anchor]
  refine ⟨fun zero => positive ?_, entry, member, suite, serial, event, isFrame, isStart, (startEvent_toNat serial).symm⟩
  rw [← idOf_small small, ← startEvent_toNat, zero]
  rfl

/-- Ticks in S-mode, which come only where interrupts are on, leave the payload on the CPU. -/
def UserExpels (config next : Config) : Prop :=
  ∀ program pid, config.hart = .kernel program → config.state.env.sie = true → config.state.core.current = some pid →
    (next.state.core.table pid).state = .running

/-- No tick in S-mode takes a payload off the CPU, and the ids have not come round yet. -/
def SpineKept (config next : Config) : Prop := UserExpels config next ∧ next.state.env.serial ≤ 2 ^ 64

theorem UserExpels.userPreempts (expels : UserExpels config next) : UserPreempts config next := by
  intro program pid kernel enabled current
  rw [expels program pid kernel enabled current]
  exact nofun

/-- The spine's invariant: the payload in U-mode has been announced. -/
structure SpineInv (config : Config) : Prop where
  rooted : Rooted config.state
  user : ∀ context pid, config.hart = .user context → config.state.core.current = some pid → Traced pid config.state

theorem UserAt.only {context : TrapFrame} {other : Pid} (there : UserAt tight held pid context state)
    (running : (state.core.table other).state = .running) : other = pid :=
  Option.some.inj ((there.calm.core.table.running other running).symm.trans there.current)

/-- One action of the kernel. -/
theorem Transits.rooted (transits : Transits tight held state state') (nobody : ∀ pid root frame, ¬ held pid root frame)
    (rooted : Rooted state) (inv : Inv tight held state) (inv' : Inv tight held' state') (few : state'.env.serial ≤ 2 ^ 64) :
    Rooted state' := by
  have table := inv.core.table
  cases transits with
  | moves moves unnamed idle =>
    rcases idle with noCurrent | core
    · refine rooted.moves table moves few inv'.log.sound fun pid running => ?_
      exact absurd ((table.running pid running).symm.trans noCurrent) nofun
    · exact rooted.unnamed (by rw [core]) (by rw [core]) moves unnamed few inv'.log.sound
  | seeds quiescent reseeded log => exact rooted.seeds few inv.log inv'.core.table reseeded log
  | starts pid launch startable begun enabled log => exact rooted.starts few table startable begun log
  | anchors pid serial current running spoken unanchored core log =>
    exact rooted.anchors few running (spoken (nobody pid)) (unanchored (nobody pid)) core log
  | announces pid what current running spoken core log start =>
    have sound := inv'.log.sound (stamp state.core what) (by rw [log]; exact List.mem_append_right _ List.mem_cons_self)
    exact rooted.announces few inv'.stream running core log start sound
  | reports pid what terminal core log isEnd cause =>
    have sound := inv'.log.sound (stamp state.core what) (by rw [log]; exact List.mem_append_right _ List.mem_cons_self)
    exact rooted.reports few terminal core log isEnd cause sound

/-- A trap from U-mode. -/
theorem UserAt.rooted {context : TrapFrame} (there : UserAt tight held pid context state) (rooted : Rooted state)
    (traced : Traced pid state) (moves : Moves (noteUser state context) state') (few : state'.env.serial ≤ 2 ^ 64)
    (sound : ∀ entry ∈ state'.env.log, entry.Sound) : Rooted state' ∧ Traced pid state' := by
  have trapped := there.trapped
  have slots : ∀ other, ((noteUser state context).core.table other).state = (state.core.table other).state ∧
      ((noteUser state context).core.table other).preempted = (state.core.table other).preempted ∧
      ((noteUser state context).core.table other).startEvent = (state.core.table other).startEvent ∧
      ((noteUser state context).core.table other).parent = (state.core.table other).parent := by
    intro other
    have here : (noteUser state context).core.table pid = relived (state.core.table pid) context _ := trapped.here
    have others : ∀ other, other ≠ pid → (noteUser state context).core.table other = state.core.table other := trapped.others
    by_cases same : other = pid
    · rw [same, here]
      exact ⟨rfl, rfl, rfl, rfl⟩
    · rw [others other same]
      exact ⟨rfl, rfl, rfl, rfl⟩
  have ledger : (noteUser state context).core.ledger = state.core.ledger := trapped.ledger
  have log : (noteUser state context).env.log = state.env.log := trapped.log
  have serial : (noteUser state context).env.serial = state.env.serial := by
    unfold noteUser
    split <;> rfl
  have before : Rooted (noteUser state context) := rooted.same (serial.symm ▸ rooted.few) log ledger slots
  have traced' : Traced pid (noteUser state context) :=
    traced.keep (slots pid).2.2.1 (congrArg Ledger.suite ledger) (log ▸ List.prefix_refl _)
  refine ⟨before.moves trapped.calm.core.table moves few sound fun other running => ?_, moves.traced ?_ traced'⟩
  · rw [(slots other).1] at running
    rw [there.only running]
    exact traced'
  · rw [(slots pid).1]
    exact running_used there.running

theorem SpineInv.step (spine : SpineInv config) (inv : SystemInv build False True config)
    (step : Step build config next) (kept : SpineKept config next) : SystemInv build False True next ∧ SpineInv next := by
  obtain ⟨expels, few⟩ := kept
  obtain ⟨inv', shift⟩ := step.preserves False.elim inv False.elim fun _ => expels.userPreempts
  refine ⟨inv', ?_⟩
  have sound := (Stands.inv inv').log.sound
  have noUser : ∀ {program}, next.hart = .kernel program → ∀ context pid, next.hart = .user context →
      next.state.core.current = some pid → Traced pid next.state := by
    intro program kernel context pid user
    rw [kernel] at user
    cases user
  cases shift with
  | still same current moves unnamed proceeds =>
    refine ⟨spine.rooted.unnamed same.table same.ledger moves unnamed few sound, fun context pid isUser isCurrent => ?_⟩
    obtain ⟨before, wasUser⟩ : ∃ before, config.hart = .user before := by
      rw [isUser] at proceeds
      generalize config.hart = hart at proceeds
      cases proceeds with
      | same => exact ⟨_, rfl⟩
      | computes before => exact ⟨before, rfl⟩
    obtain ⟨more, log, -⟩ := moves.log
    rw [current] at isCurrent
    exact (spine.user before pid wasUser isCurrent).keep (by rw [same.table]) (congrArg Ledger.suite same.ledger)
      (log ▸ List.prefix_append _ _)
  | acts update rest hart hart' transits =>
    exact ⟨transits.rooted (notHeld _) spine.rooted (Stands.inv inv) (Stands.inv inv') few, noUser hart'⟩
  | expels pid program hart hart' enabled current left moves gone =>
    have running := expels program pid hart enabled current
    rw [running] at gone
    rcases gone with pending | ended
    · cases pending
    · cases ended
  | returns program rest hart hart' isHeld changed log =>
    obtain ⟨_, _, _, isHeld⟩ := isHeld
    exact absurd isHeld (notHeld _ _ _ _)
  | enters pid program hart enters spoken =>
    have slots : ∀ other, (next.state.core.table other).state = (config.state.core.table other).state ∧
        (next.state.core.table other).preempted = (config.state.core.table other).preempted ∧
        (next.state.core.table other).startEvent = (config.state.core.table other).startEvent ∧
        (next.state.core.table other).parent = (config.state.core.table other).parent := by
      intro other
      have others : ∀ other, other ≠ pid → next.state.core.table other = config.state.core.table other := enters.one.others
      by_cases same : other = pid
      · rw [same, enters.here]
        exact ⟨rfl, rfl, rfl, rfl⟩
      · rw [others other same]
        exact ⟨rfl, rfl, rfl, rfl⟩
    have running : (config.state.core.table pid).state = .running := (slots pid).1.symm.trans enters.there.running
    have traced : Traced pid config.state := by
      cases silent : config.state.core.ledger.silent with
      | true => exact spine.rooted.silent pid running silent
      | false => exact (spoken (notHeld _ _) silent).traced spine.rooted (Stands.inv inv).stream
    refine ⟨spine.rooted.same few enters.log enters.ledger slots, fun context other _ isCurrent => ?_⟩
    cases Option.some.inj (enters.there.current.symm.trans isCurrent)
    exact traced.keep (slots pid).2.2.1 (congrArg Ledger.suite enters.ledger) (enters.log ▸ List.prefix_refl _)
  | traps pid context hart there moves =>
    obtain ⟨rooted, traced⟩ := there.rooted spine.rooted (spine.user context pid hart there.current) moves few sound
    refine ⟨rooted, fun context' other isUser isCurrent => ?_⟩
    rw [SystemInv, isUser] at inv'
    obtain ⟨_, there'⟩ := inv'
    cases Option.some.inj (there'.current.symm.trans isCurrent)
    have before : (config.state.core.table other).state = .running := by
      have running := moves.core.running other there'.running
      by_cases same : other = pid
      · rw [same]
        exact there.running
      · rw [show (noteUser config.state context).core.table other = config.state.core.table other from
          there.trapped.others other same] at running
        exact running
    rw [there.only before]
    exact traced
  | stores pid context hart there va pa byte allowed written =>
    have same : Rooted next.state := by
      rw [written]
      exact spine.rooted.same spine.rooted.few rfl rfl fun _ => ⟨rfl, rfl, rfl, rfl⟩
    refine ⟨same, fun context' other _ isCurrent => ?_⟩
    rw [written] at isCurrent ⊢
    exact spine.user context other hart isCurrent

theorem boot_rooted (build : Build) : Rooted (bootState build) := by
  obtain ⟨-, -, -, phys, kernelRoot, changed⟩ := initPaging_spec False (fun _ _ _ => False) build
  have table : (bootState build).core.table = fun _ => .new := by
    change (Main.initPaging (powerOn build).core).2.table = _
    rw [changed]
    rfl
  have blank : ∀ before after : List Entry, ∀ entry, (bootState build).env.log = before ++ entry :: after →
      entry = stamp (powerOn build).core (.frame 0 .hello) := by
    intro before after entry split
    have member : entry ∈ (bootState build).env.log := by
      rw [split]
      exact List.mem_append_right _ List.mem_cons_self
    exact List.mem_singleton.mp member
  refine ⟨Nat.one_le_two_pow, ⟨⟨?_, ?_, ?_⟩, List.mem_singleton_self 0, ?_⟩, ?_, ?_, ?_, ?_, ?_⟩
  · intro suite pid
    rw [startReports_none fun entry member _ => by rw [List.mem_singleton.mp member]; exact nofun]
    exact Nat.zero_le 1
  · intro before start after pid split isStart
    rw [blank before after start split] at isStart
    cases isStart
  · intro before entry after cause split isCause
    rw [blank before after entry split] at isCause
    cases isCause
  · intro entry member serial event pid isFrame isStart
    rw [List.mem_singleton.mp member] at isFrame
    cases isFrame
    cases isStart
  · intro pid _ entry member _
    rw [List.mem_singleton.mp member]
    exact nofun
  all_goals rw [table]
  · exact nofun
  · exact nofun
  · exact fun _ used => absurd rfl used
  · exact fun _ _ used => absurd rfl used

theorem Machine.Reachable.spineInv (reached : Reachable build SpineKept config) :
    SystemInv build False True config ∧ SpineInv config := by
  induction reached with
  | boot =>
    refine ⟨boot_inv False True build, ?_⟩
    rw [boot_eq]
    exact ⟨boot_rooted build, nofun⟩
  | step _ step kept ih => exact ih.2.step ih.1 step kept

/-- In a run where no tick in S-mode takes a payload off the CPU, the causal spine is intact,
and whoever executes user code has been announced exactly once. -/
theorem causal_spine (reached : Reachable build SpineKept config) :
    Spine config.state.env.log ∧ ∀ context pid, config.hart = .user context → config.state.core.current = some pid →
      startReports config.state.env.log config.state.core.ledger.suite pid = 1 := by
  obtain ⟨-, rooted, user⟩ := reached.spineInv
  refine ⟨rooted.trunk.spine, fun context pid isUser current => Nat.le_antisymm (rooted.trunk.spine.once _ pid) ?_⟩
  obtain ⟨-, start, member, suite, serial, event, isFrame, isStart, -⟩ := user context pid isUser current
  refine List.countP_pos_iff.mpr ⟨start, member, ?_⟩
  simp only [decide_eq_true_eq]
  refine ⟨suite, ?_⟩
  rw [isFrame]
  exact isStart

def keepsSpine (config next : Config) : Bool :=
  (match config.hart, config.state.core.current with
    | .kernel _, some pid => !config.state.env.sie || (next.state.core.table pid).state == .running
    | _, _ => true) && next.state.env.serial ≤ 2 ^ 64

theorem keepsSpine_sound (config next : Config) (fine : keepsSpine config next = true) : SpineKept config next := by
  rw [keepsSpine, Bool.and_eq_true] at fine
  refine ⟨fun program pid isHart enabled current => ?_, of_decide_eq_true fine.2⟩
  have stays := fine.1
  rw [isHart, current] at stays
  simpa [enabled] using stays

/-- The payload of a suite has the CPU. -/
def announced : Script bareBuild keepsSpine (boot bareBuild) fun config =>
    config.state.core.current = some pid0 ∧ (contextOf config.hart).isSome where
  moves := startSuite
  passes := by decide +kernel

theorem causal_spine_announced :
    startReports announced.config.state.env.log announced.config.state.core.ledger.suite pid0 = 1 := by
  obtain ⟨current, isUser⟩ := announced.tested
  obtain ⟨context, isContext⟩ := Option.isSome_iff_exists.mp isUser
  exact (causal_spine (announced.reachable keepsSpine_sound)).2 context pid0 (contextOf_user isContext) current

/-- A tick in `start`'s window, with a byte waiting on the line. -/
def outrun : Script bareBuild anyMove (boot bareBuild) fun config =>
    ∃ entry ∈ config.state.env.log.getLast?, entry.what.causedBy = some 0 where
  moves := .receive 0x64 :: (handOvers 6 ++ [.receive 0x41, .kernelTick kernelFrame])
  passes := by decide +kernel

/-- The preemption is reported with `caused_by` 0, the start being still to come. -/
theorem causal_spine_outrun : ∃ config, Reachable bareBuild anyStep config ∧
    ∃ entry ∈ config.state.env.log, entry.what.causedBy = some 0 := by
  obtain ⟨entry, isLast, cause⟩ := outrun.tested
  exact ⟨outrun.config, outrun.reachable anyMove_sound, entry, List.mem_of_getLast? isLast, cause⟩

end Kernai
