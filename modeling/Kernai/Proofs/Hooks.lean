import Kernai.Proofs.Payloads
import Kernai.Proofs.Emission

/-! The hooks of the trap handler. They run with interrupts off, so what counts
is the state each of them leaves. -/

namespace Kernai
open Foundation Kernel Payload

variable {tight : Prop} {held : Held} {build : Build} {state state' : State} {pid : Pid} {more : List Entry}

/-- The whole invariant, with no emission under way. -/
structure Calm (tight : Prop) (held : Held) (state : State) : Prop where
  core : CoreInv tight held state.core
  log : LogInv state.core state.env.log
  stream : Stream state.env
  whole : Whole state.env

/-- An entry that announces no start and names a payload only if it is on the CPU. -/
def Entry.Plain (entry : Entry) (core : Core) : Prop :=
  entry.what.startOf = none ∧ ∀ pid, entry.what.pidOf = some pid → (core.table pid).state = .running

/-- A plain entry made since this core, within the same suite. -/
structure Follows (core : Core) (entry : Entry) : Prop where
  plain : entry.Plain core
  suite : entry.ledger.suite = core.ledger.suite
  anchor : ∀ pid, (core.table pid).state ≠ .empty → (entry.table pid).startEvent = (core.table pid).startEvent

theorem Follows.before {core core' : Core} {entry : Entry} (follows : Follows core' entry) (evolves : Evolves core core') :
    Follows core entry where
  plain := ⟨follows.plain.1, fun pid named => evolves.running pid (follows.plain.2 pid named)⟩
  suite := follows.suite.trans evolves.suite
  anchor pid used := (follows.anchor pid (evolves.slots pid used).present).trans (evolves.anchor pid used)

/-- What any kernel code other than `start` does to the state. -/
structure Moves (state state' : State) : Prop where
  core : Evolves state.core state'.core
  log : ∃ more, state'.env.log = state.env.log ++ more ∧ ∀ entry ∈ more, Follows state.core entry

theorem Moves.refl (state : State) : Moves state state := ⟨.refl _, [], (List.append_nil _).symm, nofun⟩

theorem Moves.trans {state'' : State} (left : Moves state state') (right : Moves state' state'') : Moves state state'' := by
  obtain ⟨more, isMore, quiet⟩ := left.log
  obtain ⟨later, isLater, quiet'⟩ := right.log
  refine ⟨left.core.trans right.core, more ++ later, by rw [isLater, isMore, List.append_assoc], fun entry member => ?_⟩
  exact (List.mem_append.mp member).elim (quiet entry) fun second => (quiet' entry second).before left.core

theorem Moves.of_core (evolves : Evolves state.core state'.core) (log : state'.env.log = state.env.log) :
    Moves state state' := ⟨evolves, [], by rw [log, List.append_nil], nofun⟩

/-- A change of the core, then emissions that tell of it. -/
theorem Moves.told {middle : State} (evolves : Evolves state.core middle.core) (log : middle.env.log = state.env.log)
    (emits : Emits middle state' more) (plain : ∀ entry ∈ more, entry.Plain state.core) : Moves state state' := by
  refine ⟨by rw [emits.core]; exact evolves, more, by rw [emits.logs.log, log], fun entry member => ?_⟩
  obtain ⟨what, rfl⟩ := emits.stamped entry member
  exact ⟨plain _ member, evolves.suite, evolves.anchor⟩

theorem Moves.of_emits (emits : Emits state state' more) (plain : ∀ entry ∈ more, entry.Plain state.core) :
    Moves state state' := .told (.refl _) rfl emits plain

@[simp] theorem readCore_run {α : Type} (view : Core → α) (state : State) : (readCore view).run state = (view state.core, state) := (rfl)

@[simp] theorem modifyCore_run (update : Core → Core) (state : State) :
    (modifyCore update).run state = ((), { state with core := update state.core }) := (rfl)

@[simp] theorem onCore_run {α : Type} (action : Core → α × Core) (state : State) :
    (onCore action).run state = ((action state.core).1, { state with core := (action state.core).2 }) := (rfl)

@[simp] theorem readEnv_run {α : Type} (view : Env → α) (state : State) : (readEnv view).run state = (view state.env, state) := (rfl)

@[simp] theorem onEnv_run {α : Type} (action : Env → α × Env) (state : State) :
    (onEnv action).run state = ((action state.env).1, { state with env := (action state.env).2 }) := (rfl)

/-- The end of a payload that is still alive has not been reported. -/
theorem Calm.unreported (calm : Calm tight held state) (alive : (state.core.table pid).state.terminal = false) :
    endReports state.env.log state.core.ledger.suite pid = 0 := by
  by_contra reported
  rw [calm.log.ended pid reported] at alive
  cases alive

/-- A change of the core alone. -/
theorem Calm.advance (calm : Calm tight held state) (inv : CoreInv tight held state'.core)
    (advances : Advances state.core state'.core) (log : state'.env.log = state.env.log)
    (wire : state'.env.wire = state.env.wire) (serial : state.env.serial ≤ state'.env.serial) :
    Calm tight held state' := by
  obtain ⟨stream, whole⟩ := (Logs.none log wire serial).stream calm.stream calm.whole
  exact ⟨inv, by rw [log]; exact calm.log.advance advances, stream, whole⟩

/-- Emissions that report nobody's end. -/
theorem Calm.tell (calm : Calm tight held state) (emits : Emits state state' more)
    (sound : ∀ entry ∈ more, entry.Sound ∧ entry.what.endOf = none) : Calm tight held state' := by
  obtain ⟨stream, whole⟩ := emits.logs.stream calm.stream calm.whole
  refine ⟨by rw [emits.core]; exact calm.core, ?_, stream, whole⟩
  rw [emits.core, emits.logs.log]
  refine calm.log.append (fun entry member => (sound entry member).1) (fun entry member => ?_)
    fun entry member => (sound entry member).2
  obtain ⟨what, same⟩ := emits.stamped entry member
  rw [same]
  rfl

/-- An entry that the stream can take at any time. -/
structure Entry.Harmless (core : Core) (entry : Entry) : Prop where
  sound : entry.Sound
  noEnd : entry.what.endOf = none
  plain : entry.Plain core

theorem Calm.emits (calm : Calm tight held state) (emits : Emits state state' more)
    (harmless : ∀ entry ∈ more, entry.Harmless state.core) : Calm tight held state' ∧ Moves state state' :=
  ⟨calm.tell emits fun entry member => ⟨(harmless entry member).sound, (harmless entry member).noEnd⟩,
    .of_emits emits fun entry member => (harmless entry member).plain⟩

/-- The report of a payload's end. -/
theorem Calm.report (calm : Calm tight held state) (emits : Emits state state' more) (one : more.length ≤ 1)
    (sound : ∀ entry ∈ more, entry.Sound ∧ entry.what.endOf = some pid)
    (unreported : endReports state.env.log state.core.ledger.suite pid = 0)
    (terminal : (state.core.table pid).state.terminal = true) : Calm tight held state' := by
  match more, one with
  | [], _ => exact calm.tell emits nofun
  | [entry], _ =>
    obtain ⟨isSound, isEnd⟩ := sound entry (List.mem_singleton_self entry)
    obtain ⟨stream, whole⟩ := emits.logs.stream calm.stream calm.whole
    refine ⟨by rw [emits.core]; exact calm.core, ?_, stream, whole⟩
    rw [emits.core, emits.logs.log]
    refine calm.log.report isSound ?_ isEnd unreported terminal
    obtain ⟨what, same⟩ := emits.stamped entry (List.mem_singleton_self entry)
    rw [same]
    rfl

/-- What a syscall or a tick that returns to the payload leaves alone. -/
structure Stays (pid : Pid) (state state' : State) : Prop where
  current : state'.core.current = state.core.current
  slot : state'.core.table pid = state.core.table pid
  satp : state'.core.phys.satp = state.core.phys.satp
  view : Sv39.view state'.core.phys.mem (state.core.table pid).root =
    Sv39.view state.core.phys.mem (state.core.table pid).root

theorem Stays.trans {state'' : State} (left : Stays pid state state') (right : Stays pid state' state'') :
    Stays pid state state'' :=
  ⟨right.current.trans left.current, right.slot.trans left.slot, right.satp.trans left.satp,
    (left.slot ▸ right.view).trans left.view⟩

/-- A hook that returns to the payload. -/
structure Serves (tight : Prop) (held : Held) (pid : Pid) (state state' : State) : Prop where
  calm : Calm tight held state'
  moves : Moves state state'
  stays : Stays pid state state'

theorem Serves.trans {state'' : State} (left : Serves tight held pid state state')
    (right : Serves tight held pid state' state'') : Serves tight held pid state state'' :=
  ⟨right.calm, left.moves.trans right.moves, left.stays.trans right.stays⟩

/-- What was emitted in between names no payload. -/
def Unnamed (state state' : State) : Prop :=
  ∃ more, state'.env.log = state.env.log ++ more ∧ ∀ entry ∈ more, entry.what.pidOf = none

theorem Unnamed.trans {state'' : State} (left : Unnamed state state') (right : Unnamed state' state'') :
    Unnamed state state'' := by
  obtain ⟨more, isMore, unnamed⟩ := left
  obtain ⟨later, isLater, unnamed'⟩ := right
  refine ⟨more ++ later, by rw [isLater, isMore, List.append_assoc], fun entry member => ?_⟩
  exact (List.mem_append.mp member).elim (unnamed entry) (unnamed' entry)

theorem Unnamed.of_log (log : state'.env.log = state.env.log) : Unnamed state state' :=
  ⟨[], by rw [log, List.append_nil], nofun⟩

/-- A hook that changes nothing the payload or the scheduler could notice. -/
structure Passes (tight : Prop) (held : Held) (state state' : State) : Prop where
  calm : Calm tight held state'
  moves : Moves state state'
  unnamed : Unnamed state state'
  same : SameCore state.core state'.core
  current : state'.core.current = state.core.current

theorem Passes.refl (calm : Calm tight held state) : Passes tight held state state :=
  ⟨calm, .refl _, .of_log rfl, .refl _, rfl⟩

theorem Passes.trans {state'' : State} (left : Passes tight held state state')
    (right : Passes tight held state' state'') : Passes tight held state state'' :=
  ⟨right.calm, left.moves.trans right.moves, left.unnamed.trans right.unnamed, left.same.trans right.same,
    right.current.trans left.current⟩

theorem Passes.slot (passes : Passes tight held state state') (pid : Pid) :
    state'.core.table pid = state.core.table pid := congrFun passes.same.table pid

theorem Passes.serves (passes : Passes tight held state state') : Serves tight held pid state state' := by
  refine ⟨passes.calm, passes.moves, passes.current, passes.slot pid, ?_, ?_⟩ <;> rw [passes.same.phys]

theorem Calm.passes (calm : Calm tight held state) (emits : Emits state state' more)
    (harmless : ∀ entry ∈ more, entry.Harmless state.core) (unnamed : ∀ entry ∈ more, entry.what.pidOf = none) :
    Passes tight held state state' := by
  obtain ⟨calm', moves⟩ := calm.emits emits harmless
  exact ⟨calm', moves, ⟨more, emits.logs.log, unnamed⟩, by rw [emits.core]; exact .refl _, by rw [emits.core]⟩

theorem Calm.serves (calm : Calm tight held state) (emits : Emits state state' more)
    (harmless : ∀ entry ∈ more, entry.Harmless state.core) : Serves tight held pid state state' := by
  obtain ⟨calm', moves⟩ := calm.emits emits harmless
  refine ⟨calm', moves, ?_, ?_, ?_, ?_⟩ <;> rw [emits.core]

theorem Calm.idle (calm : Calm tight held state) : Serves tight held pid state state :=
  calm.serves (.refl state) nofun

/-- An emission in the common shape. -/
theorem Calm.emit (calm : Calm tight held state) {event : State → Event}
    (harmless : ∀ (seen : State) (serial : Nat), seen.core = state.core →
      (stamp state.core (.frame serial (event seen))).Harmless state.core) :
    Serves tight held pid state ((emit event).run state).2 := by
  obtain ⟨more, emits, -, only⟩ := emit_emits event state
  refine calm.serves emits fun entry member => ?_
  obtain ⟨serial, seen, same, rfl⟩ := only entry member
  exact harmless seen serial same

theorem emitDenied_serves (calm : Calm tight held state) (current : state.core.current = some pid)
    (running : (state.core.table pid).state = .running) (syscall cap : String) :
    Serves tight held pid state ((emitDenied syscall cap).run state).2 := by
  refine calm.emit fun seen serial same => ⟨⟨trivial, trivial, trivial⟩, rfl, rfl, fun named isNamed => ?_⟩
  change seen.core.current = some named at isNamed
  rw [same, current] at isNamed
  cases isNamed
  exact running

theorem currentHas_some {cap : Cap} (current : state.core.current = some pid)
    (permitted : currentHas state.core cap = true) : (state.core.table pid).has cap := by
  simpa [currentHas, current, Slot.has] using permitted

theorem onYield_serves (calm : Calm tight held state) (current : state.core.current = some pid)
    (running : (state.core.table pid).state = .running) :
    Serves tight held pid state (onYield.run state).2 := by
  unfold onYield
  simp only [Program.run_bind, Program.run_pure, readCore_run]
  by_cases permitted : currentHas state.core .yield = true
  · rw [if_pos permitted]
    simp only [Program.run_bind, Program.run_pure, readCore_run, current]
    refine calm.emit fun _ _ _ => ⟨⟨currentHas_some current permitted, trivial, trivial⟩, rfl, rfl, fun named isNamed => ?_⟩
    cases isNamed
    exact running
  · rw [if_neg permitted]
    simp only [Program.run_bind, Program.run_pure]
    exact emitDenied_serves calm current running _ _

theorem emitOutput_serves (calm : Calm tight held state) (current : state.core.current = some pid)
    (running : (state.core.table pid).state = .running) (permitted : currentHas state.core .write = true) (ptr len : Nat) :
    Serves tight held pid state ((emitOutput ptr len).run state).2 := by
  unfold emitOutput
  simp only [Program.run_bind, Program.run_pure, readCore_run]
  split
  · exact calm.idle
  · simp only [Program.run_bind, Program.run_pure]
    refine calm.emit fun seen serial same => ?_
    rw [same]
    refine ⟨⟨⟨pid, current, currentHas_some current permitted⟩, trivial, fun holder isHolder => ?_⟩, rfl, rfl,
      fun named isNamed => ?_⟩
    · rw [current] at isHolder
      cases isHolder
      simp [currentCause, current, stamp]
    · change state.core.current = some named at isNamed
      rw [current] at isNamed
      cases isNamed
      exact running

theorem sysWrite_serves (calm : Calm tight held state) (current : state.core.current = some pid)
    (running : (state.core.table pid).state = .running) (ptr len : Nat) :
    Serves tight held pid state ((Syscall.sysWrite ptr len).run state).2 := by
  unfold Syscall.sysWrite
  simp only [Program.run_bind, Program.run_pure, readCore_run]
  by_cases permitted : currentHas state.core .write = true
  · rw [if_pos permitted]
    simp only [Program.run_bind, Program.run_pure]
    have served := emitOutput_serves calm current running permitted ptr (min len writeQuota)
    split <;> exact served
  · rw [if_neg permitted]
    simp only [Program.run_bind, Program.run_pure]
    exact emitDenied_serves calm current running _ _

theorem emitSpawn_serves (calm : Calm tight held state) {child : Pid} (name : String) (requested : Nat) {granted : Nat}
    (permitted : (state.core.table pid).has .spawn) (isGranted : granted = (state.core.table child).caps) :
    Serves tight held pid state
      ((emitSpawn pid child name (state.core.table pid).caps requested granted).run state).2 :=
  calm.emit fun _ _ _ => ⟨⟨⟨permitted, rfl, isGranted⟩, trivial, trivial⟩, rfl, rfl, nofun⟩

theorem onSpawn_serves (calm : Calm tight held state) (current : state.core.current = some pid)
    (running : (state.core.table pid).state = .running) (selector requested : Nat) :
    Serves tight held pid state ((onSpawn selector requested).run state).2 := by
  unfold onSpawn
  simp only [Program.run_bind, Program.run_pure, readCore_run, current]
  by_cases permitted : currentHas state.core .spawn = true
  case neg =>
    rw [if_neg permitted]
    simp only [Program.run_bind, Program.run_pure]
    exact emitDenied_serves calm current running _ _
  case pos =>
    rw [if_pos permitted]
    cases spawnableImage selector with
    | none => exact calm.idle
    | some image =>
      simp only [Program.run_bind, Program.run_pure, readCore_run, onCore_run]
      rcases ran : enqueue image (requested &&& (state.core.table pid).caps &&& (images.get image).caps) (some pid) state.core with
        ⟨result, core'⟩
      have used : (state.core.table pid).state ≠ .empty := by rw [running]; decide
      cases result with
      | none =>
        rw [enqueue_none ran]
        exact calm.idle
      | some child =>
        obtain ⟨enqueued, here, phys⟩ := enqueue_some ran
        have different : pid ≠ child := by
          rintro rfl
          exact used enqueued.vacant
        have slot := enqueued.others pid different
        have inv := calm.core.enqueue (fun parent isParent => by
          cases isParent
          exact ⟨used, ((capsWithin_and_left _ _).trans (capsWithin_and_right _ _))⟩) ran
        have evolves := enqueued.evolves fun parent isParent => by
          rw [here] at isParent
          cases isParent
          exact running
        have queued : Serves tight held pid state { state with core := core' } :=
          ⟨calm.advance inv evolves.toAdvances rfl rfl (Nat.le_refl _), .of_core evolves rfl,
            enqueued.current, slot, by rw [phys], by rw [phys]⟩
        have granted : requested &&& (state.core.table pid).caps &&& (images.get image).caps = (core'.table child).caps := by
          rw [here]
          simp [freshSlot, Nat.and_assoc]
        have spawned := emitSpawn_serves queued.calm (images.get image).name requested
          (slot ▸ currentHas_some current permitted) granted
        simp only [Program.run_bind, Program.run_pure]
        rw [slot] at spawned
        exact queued.trans spawned

theorem emitSnapshot_serves (calm : Calm tight held state) (running : (state.core.table pid).state = .running) (id : Nat) :
    Serves tight held pid state ((emitSnapshot pid id).run state).2 := by
  refine calm.emit fun _ _ _ => ⟨⟨trivial, trivial, trivial⟩, rfl, rfl, fun named isNamed => ?_⟩
  cases isNamed
  exact running

theorem onSnapshot_serves (calm : Calm tight held state) (current : state.core.current = some pid)
    (running : (state.core.table pid).state = .running) {context : TrapFrame} (user : UserContext context) :
    Serves tight held pid state ((onSnapshot context).run state).2 := by
  unfold onSnapshot
  simp only [Program.run_bind, Program.run_pure, onCore_run]
  rcases ran : takeSnapshot context state.core with ⟨result, core'⟩
  obtain ⟨failed, taken⟩ := takeSnapshot_spec calm.core current running user ran
  have used : (state.core.table pid).state ≠ .empty := by rw [running]; decide
  have hasRoot : (estate state.core).root (.slot pid) = some (state.core.table pid).root :=
    if_pos ⟨used, (calm.core.table.paired pid used).mpr (calm.core.table.loaded pid (by simp [Slot.engaged, running]))⟩
  cases result with
  | error errno =>
    obtain ⟨-, unchanged⟩ := failed errno rfl
    obtain ⟨phys, rfl⟩ := unchanged.rest
    exact ⟨calm.advance unchanged.inv unchanged.evolves.toAdvances rfl rfl (Nat.le_refl _),
      .of_core unchanged.evolves rfl, rfl, rfl, unchanged.satp, calm.core.heap.owned.view (unchanged.keeps _) hasRoot⟩
  | ok pair =>
    obtain ⟨taker, sid⟩ := pair
    obtain ⟨rfl, snapped⟩ := taken taker sid rfl
    have frozen : Serves tight held taker state { state with core := core' } := by
      refine ⟨calm.advance snapped.inv snapped.evolves.toAdvances rfl rfl (Nat.le_refl _), .of_core snapped.evolves rfl, ?_⟩
      exact ⟨snapped.current, congrFun snapped.table taker, snapped.satp,
        calm.core.heap.owned.view (snapped.keeps _) hasRoot⟩
    simp only [Program.run_bind, Program.run_pure]
    refine frozen.trans (emitSnapshot_serves frozen.calm ?_ (sid.val + 1))
    rw [frozen.stays.slot]
    exact running

theorem sendOrRefuse_emits (event : Event) {serial : Nat} (counted : state'.env.serial = serial + 1)
    (quiet : Emits state state' []) (fresh : state.env.serial ≤ serial) :
    ∃ more, Emits state ((sendOrRefuse serial event).run state').2 more ∧
      ∀ entry ∈ more, entry = stamp state.core (.frame serial event) := by
  unfold sendOrRefuse
  split
  · exact ⟨[], quiet, nofun⟩
  · simp only [Program.run_bind, Program.run_pure]
    obtain ⟨more, emits, -, only⟩ := send_emits event counted quiet fresh
    exact ⟨more, emits, only⟩

/-- A picture from a payload that may write. -/
theorem Calm.picture (calm : Calm tight held state) (current : state.core.current = some pid)
    (running : (state.core.table pid).state = .running) (permitted : currentHas state.core .write = true) {body : Kernel Int}
    (inside : ∀ start : State, start.core = state.core → ∃ more, Emits start (body.run start).2 more ∧
      ∀ entry ∈ more, ∃ serial, (∃ w h rows, entry = stamp state.core (.frame serial (.frame (some pid) w h rows))) ∨
        ∃ seq data, entry = stamp state.core (.frame serial (.fbchunk (some pid) seq data))) :
    Serves tight held pid state ((withoutInterrupts body).run state).2 := by
  obtain ⟨more, emits, only⟩ := withoutInterrupts_emits (P := fun _ more => ∀ entry ∈ more, ∃ serial,
    (∃ w h rows, entry = stamp state.core (.frame serial (.frame (some pid) w h rows))) ∨
      ∃ seq data, entry = stamp state.core (.frame serial (.fbchunk (some pid) seq data))) state inside
  refine calm.serves emits fun entry member => ?_
  have write := currentHas_some current permitted
  have named : ∀ other, some pid = some other → (state.core.table other).state = .running := by
    rintro other ⟨⟩
    exact running
  rcases only entry member with ⟨serial, ⟨w, h, rows, rfl⟩ | ⟨seq, data, rfl⟩⟩
  · exact ⟨⟨⟨pid, rfl, write⟩, trivial, trivial⟩, rfl, rfl, named⟩
  · exact ⟨⟨⟨pid, rfl, write⟩, trivial, trivial⟩, rfl, rfl, named⟩

theorem onBlit_serves (calm : Calm tight held state) (current : state.core.current = some pid)
    (running : (state.core.table pid).state = .running) (ptr w h : Nat) :
    Serves tight held pid state ((onBlit ptr w h).run state).2 := by
  unfold onBlit
  simp only [Program.run_bind, Program.run_pure, readCore_run]
  by_cases permitted : currentHas state.core .write = true
  case neg =>
    rw [if_neg permitted]
    simp only [Program.run_bind, Program.run_pure]
    exact emitDenied_serves calm current running _ _
  case pos =>
    rw [if_pos permitted]
    split
    · exact calm.idle
    simp only [Program.run_bind, Program.run_pure, readCore_run]
    split
    · exact calm.idle
    next space _ =>
    refine calm.picture current running permitted fun start same => ?_
    obtain ⟨quiet, isSerial, counted⟩ := nextId_emits start
    simp only [Program.run_bind, Program.run_pure, readCore_run]
    split
    · exact ⟨[], quiet, nofun⟩
    next rows _ =>
    simp only [Program.run_bind, Program.run_pure, readCore_run]
    obtain ⟨more, emits, only⟩ := sendOrRefuse_emits (.frame (nextId.run start).2.core.current w h rows)
      (isSerial ▸ counted) quiet (Nat.le_of_eq isSerial.symm)
    refine ⟨more, emits, fun entry member => ⟨(nextId.run start).1, .inl ⟨w, h, rows, ?_⟩⟩⟩
    rw [only entry member, quiet.core, same, current]

theorem onFrameRgb_serves (calm : Calm tight held state) (current : state.core.current = some pid)
    (running : (state.core.table pid).state = .running) (ptr len seq : Nat) :
    Serves tight held pid state ((onFrameRgb ptr len seq).run state).2 := by
  unfold onFrameRgb
  simp only [Program.run_bind, Program.run_pure, readCore_run]
  by_cases permitted : currentHas state.core .write = true
  case neg =>
    rw [if_neg permitted]
    simp only [Program.run_bind, Program.run_pure]
    exact emitDenied_serves calm current running _ _
  case pos =>
    rw [if_pos permitted]
    simp only [Program.run_bind, Program.run_pure, readCore_run]
    split
    · exact calm.idle
    split
    · exact calm.idle
    simp only [Program.run_bind, Program.run_pure, readCore_run]
    split
    · exact calm.idle
    simp only [Program.run_bind, Program.run_pure, readCore_run]
    split
    · exact calm.idle
    next data _ =>
    refine calm.picture current running permitted fun start same => ?_
    obtain ⟨quiet, isSerial, counted⟩ := nextId_emits start
    simp only [Program.run_bind, Program.run_pure, readCore_run]
    obtain ⟨more, emits, only⟩ := sendOrRefuse_emits (.fbchunk (nextId.run start).2.core.current seq data)
      (isSerial ▸ counted) quiet (Nat.le_of_eq isSerial.symm)
    refine ⟨more, emits, fun entry member => ⟨(nextId.run start).1, .inr ⟨seq, data, ?_⟩⟩⟩
    rw [only entry member, quiet.core, same, current]

/-- Keyboard, console and configuration state that no invariant reads. -/
theorem Calm.sameCore (calm : Calm tight held state) {core : Core} (same : SameCore state.core core)
    (current : core.current = state.core.current) : Passes tight held state { state with core } := by
  have inv : CoreInv tight held core := same.inv calm.core fun other running => by
    rw [current]
    exact calm.core.table.running other running
  exact ⟨calm.advance inv same.evolves.toAdvances rfl rfl (Nat.le_refl _), .of_core same.evolves rfl, .of_log rfl, same,
    current⟩

theorem onGetkey_serves (calm : Calm tight held state) :
    Serves tight held pid state ((onCore onGetkey).run state).2 := by
  rw [onCore_run]
  unfold onGetkey
  split
  · exact calm.idle
  · apply Passes.serves
    exact calm.sameCore ⟨rfl, rfl, rfl, rfl, rfl⟩ rfl

/-- A hook after which the payload is done for. -/
structure Leaves (tight : Prop) (held : Held) (pid : Pid) (state state' : State) : Prop where
  calm : Calm tight held state'
  moves : Moves state state'
  current : state'.core.current = state.core.current
  ended : (state'.core.table pid).state.terminal = true
  satp : state'.core.phys.satp = state.core.phys.satp

theorem Serves.leaves {state'' : State} (left : Serves tight held pid state state')
    (right : Leaves tight held pid state' state'') : Leaves tight held pid state state'' :=
  ⟨right.calm, left.moves.trans right.moves, right.current.trans left.stays.current, right.ended,
    right.satp.trans left.stays.satp⟩

theorem Leaves.serves {state'' : State} (left : Leaves tight held pid state state')
    (right : Serves tight held pid state' state'') : Leaves tight held pid state state'' :=
  ⟨right.calm, left.moves.trans right.moves, right.stays.current.trans left.current, by rw [right.stays.slot]; exact left.ended,
    right.stays.satp.trans left.satp⟩

/-- A running payload's slot is marked as done; its end is still to be reported. -/
theorem Calm.mark (calm : Calm tight held state) (running : (state.core.table pid).state = .running) {update : Slot → Slot}
    (touched : SlotTouched (state.core.table pid) (update (state.core.table pid)))
    (anchor : (update (state.core.table pid)).startEvent = (state.core.table pid).startEvent)
    (terminal : (update (state.core.table pid)).state.terminal = true) :
    Leaves tight held pid state { state with core := setSlot state.core pid update } ∧
      endReports state.env.log state.core.ledger.suite pid = 0 := by
  have one : OneSlot state.core (setSlot state.core pid update) pid :=
    ⟨rfl, rfl, rfl, rfl, rfl, rfl, fun other different => setSlot_other state.core update different⟩
  have here := setSlot_self state.core pid update
  rw [← here] at touched anchor terminal
  have inv := calm.core.ends one touched terminal rfl (.inl rfl)
  have alive : (state.core.table pid).state.terminal = false := by rw [running]; rfl
  have evolves : Evolves state.core (setSlot state.core pid update) := by
    refine one.evolves touched anchor (fun ended => ?_) (fun isAlive => absurd (isAlive.symm.trans terminal) nofun)
      (fun _ => Nat.le_refl _) fun pending => ?_
    · rw [alive] at ended
      cases ended
    · rw [running] at pending
      cases pending
  exact ⟨⟨calm.advance inv evolves.toAdvances rfl rfl (Nat.le_refl _), .of_core evolves rfl, rfl, terminal, rfl⟩,
    calm.unreported alive⟩

/-- The report that follows. -/
theorem Leaves.reports {core : Core} (marked : Leaves tight held pid state { state with core })
    (running : (state.core.table pid).state = .running)
    (unreported : endReports state.env.log state.core.ledger.suite pid = 0)
    (emits : Emits { state with core } state' more) (one : more.length ≤ 1)
    (sound : ∀ entry ∈ more, entry.Sound ∧ entry.what.endOf = some pid) : Leaves tight held pid state state' := by
  have still : endReports state.env.log core.ledger.suite pid = 0 := marked.moves.core.suite.symm ▸ unreported
  refine ⟨marked.calm.report emits one sound still marked.ended, .told marked.moves.core rfl emits fun entry member => ?_,
    by rw [emits.core]; exact marked.current, by rw [emits.core]; exact marked.ended, by rw [emits.core]; exact marked.satp⟩
  obtain ⟨noStart, named⟩ := Emission.plain_of_end (sound entry member).2
  exact ⟨noStart, fun other isNamed => named other isNamed ▸ running⟩

theorem Leaves.trans {state'' : State} (left : Leaves tight held pid state state')
    (right : Leaves tight held pid state' state'') : Leaves tight held pid state state'' :=
  ⟨right.calm, left.moves.trans right.moves, right.current.trans left.current, right.ended, right.satp.trans left.satp⟩

theorem touched_state (slot : Slot) {state : ProcState} (used : slot.state ≠ .empty) (stays : state ≠ .empty) (code : Int) :
    SlotTouched slot { slot with exitCode := code, state } := by
  refine ⟨?_, rfl, rfl, rfl, rfl, rfl, rfl, rfl, rfl, rfl⟩
  simp [used, stays]

theorem onExit_leaves (calm : Calm tight held state) (current : state.core.current = some pid)
    (running : (state.core.table pid).state = .running) (code : Int) :
    Leaves tight held pid state ((onExit code).run state).2 := by
  unfold onExit
  simp only [Program.run_bind, readCore_run, current, modifyCore_run]
  have used : (state.core.table pid).state ≠ .empty := by rw [running]; decide
  have exited : ProcState.exited ≠ .empty := nofun
  obtain ⟨marked, unreported⟩ : Leaves tight held pid state { state with
      core := setSlot state.core pid fun slot => { slot with exitCode := code, state := .exited } } ∧ _ :=
    calm.mark running (touched_state (state.core.table pid) used exited code) rfl rfl
  obtain ⟨more, emits, one, only⟩ := emit_emits
    (fun state => .exit pid code (state.core.table pid).startEvent.toNat)
    { state with core := setSlot state.core pid fun slot => { slot with exitCode := code, state := .exited } }
  refine marked.reports running unreported emits one fun entry member => ?_
  obtain ⟨serial, seen, same, rfl⟩ := only entry member
  rw [same]
  exact ⟨⟨trivial, trivial, rfl⟩, rfl⟩

theorem setState_leaves (calm : Calm tight held state) (running : (state.core.table pid).state = .running)
    {final : ProcState} (terminal : final.terminal = true) :
    Leaves tight held pid state { state with core := setState state.core pid final } ∧
      endReports state.env.log state.core.ledger.suite pid = 0 := by
  have used : (state.core.table pid).state ≠ .empty := by rw [running]; decide
  exact calm.mark running (touched_state (state.core.table pid) used (terminal_used terminal) _) rfl terminal

theorem emitKilled_emits (pid : Pid) (elapsed deadline : Nat) (state : State) :
    ∃ more, Emits state ((emitKilled pid elapsed deadline).run state).2 more ∧ more.length ≤ 1 ∧
      ∀ entry ∈ more, entry.Sound ∧ entry.what.endOf = some pid := by
  obtain ⟨more, emits, one, only⟩ := emit_emits
    (fun state => .killed pid elapsed deadline (state.core.table pid).startEvent.toNat) state
  refine ⟨more, emits, one, fun entry member => ?_⟩
  obtain ⟨serial, seen, same, rfl⟩ := only entry member
  rw [same]
  exact ⟨⟨trivial, trivial, rfl⟩, rfl⟩

theorem elapsedSince_emits (build : Build) (started : Nat) (state : State) :
    Emits state ((elapsedSince build started).run state).2 [] := by
  unfold elapsedSince
  split
  · exact .refl state
  · simp only [Program.run_bind, Program.run_pure]
    exact readTime_emits build state

theorem emitKilledOperator_emits (build : Build) (pid : Pid) (state : State) :
    ∃ more, Emits state ((emitKilledOperator build pid).run state).2 more ∧ more.length ≤ 1 ∧
      ∀ entry ∈ more, entry.Sound ∧ entry.what.endOf = some pid := by
  refine withoutInterrupts_emits (P := fun _ more => more.length ≤ 1 ∧ ∀ entry ∈ more,
    entry.Sound ∧ entry.what.endOf = some pid) state fun start _ => ?_
  simp only [Program.run_bind, readCore_run]
  have timed := elapsedSince_emits build (start.core.table pid).startedAt start
  generalize (elapsedSince build (start.core.table pid).startedAt).run start = elapsed at timed ⊢
  obtain ⟨quiet, isSerial, counted⟩ := nextId_emits elapsed.2
  obtain ⟨more, emits, one, only⟩ := send_emits
    (.killedOperator pid elapsed.1 ((nextId.run elapsed.2).2.core.table pid).startEvent.toNat) (isSerial ▸ counted)
    quiet (Nat.le_of_eq isSerial.symm)
  refine ⟨more, timed.trans emits, one, fun entry member => ?_⟩
  rw [only entry member]
  exact ⟨⟨trivial, trivial, rfl⟩, rfl⟩

/-- The deadline kill of `on_tick`. -/
theorem onTick_spec (build : Build) (calm : Calm tight held state) (current : state.core.current = some pid) :
    (((onTick build).run state).1 = false → Passes tight held state ((onTick build).run state).2) ∧
      (((onTick build).run state).1 = true → Leaves tight held pid state ((onTick build).run state).2 ∧
        (state.core.table pid).state = .running) := by
  unfold onTick
  simp only [Program.run_bind, readCore_run, current]
  split
  · exact ⟨fun _ => .refl calm, nofun⟩
  next running =>
  split
  · exact ⟨fun _ => .refl calm, nofun⟩
  simp only [Program.run_bind]
  have timed := readTime_emits build state
  generalize (readTime build).run state = now at timed ⊢
  have served : Passes tight held state now.2 := calm.passes timed nofun nofun
  split
  · have isRunning : (now.2.core.table pid).state = .running := by
      rw [timed.core]
      exact not_not.mp running
    have isEnd : ProcState.killed.terminal = true := rfl
    obtain ⟨marked, unreported⟩ := setState_leaves served.calm isRunning isEnd
    obtain ⟨more, emits, one, sound⟩ := emitKilled_emits pid (now.1 - (state.core.table pid).startedAt)
      (state.core.table pid).deadline { now.2 with core := setState now.2.core pid .killed }
    simp only [Program.run_bind, Program.run_pure, modifyCore_run]
    refine ⟨fun isFalse => absurd isFalse (by decide), fun _ => ⟨?_, not_not.mp running⟩⟩
    exact served.serves.leaves (marked.reports isRunning unreported emits one sound)
  · exact ⟨fun _ => served, nofun⟩

/-- Changes of the environment that neither send nor allocate. -/
theorem Calm.env (calm : Calm tight held state) {env : Env} (log : env.log = state.env.log)
    (wire : env.wire = state.env.wire) (serial : state.env.serial ≤ env.serial) :
    Passes tight held state { state with env } :=
  ⟨calm.advance calm.core (.refl _) log wire serial, .of_core (.refl _) log, .of_log log, .refl _, rfl⟩

theorem consoleGetchar_passes (calm : Calm tight held state) :
    Passes tight held state (consoleGetchar.run state).2 := calm.env rfl rfl (Nat.le_refl _)

theorem pushKey_same (byte : UInt8) (core : Core) :
    SameCore core (pushKey byte core) ∧ (pushKey byte core).current = core.current := by
  unfold pushKey
  split <;> exact ⟨⟨rfl, rfl, rfl, rfl, rfl⟩, rfl⟩

theorem leadKey_same (byte : UInt8) (core : Core) :
    SameCore core (leadKey byte core) ∧ (leadKey byte core).current = core.current := by
  unfold leadKey
  split <;> exact ⟨⟨rfl, rfl, rfl, rfl, rfl⟩, rfl⟩

/-- The kill chord ends the payload at most once. -/
theorem drainBytes_spec (build : Build) (count : Nat) : ∀ (killed : Bool) (state : State), Calm tight held state →
    (killed = false ↔ (state.core.table pid).state = .running) →
    (((drainBytes build pid count killed).run state).1 = false →
      killed = false ∧ Passes tight held state ((drainBytes build pid count killed).run state).2) ∧
    (((drainBytes build pid count killed).run state).1 = true →
      (killed = true ∧ Passes tight held state ((drainBytes build pid count killed).run state).2) ∨
        (killed = false ∧ Leaves tight held pid state ((drainBytes build pid count killed).run state).2)) := by
  induction count with
  | zero =>
    intro killed state calm _
    exact ⟨fun isFalse => ⟨isFalse, .refl calm⟩, fun isTrue => .inl ⟨isTrue, .refl calm⟩⟩
  | succ count ih =>
    intro killed state calm agrees
    have onwards : ∀ next : State, Passes tight held state next →
        (((drainBytes build pid count killed).run next).1 = false →
          killed = false ∧ Passes tight held state ((drainBytes build pid count killed).run next).2) ∧
        (((drainBytes build pid count killed).run next).1 = true →
          (killed = true ∧ Passes tight held state ((drainBytes build pid count killed).run next).2) ∨
            (killed = false ∧ Leaves tight held pid state ((drainBytes build pid count killed).run next).2)) := by
      intro next served
      obtain ⟨goesOn, ends⟩ := ih killed next served.calm (by rw [served.slot]; exact agrees)
      refine ⟨fun isFalse => ⟨(goesOn isFalse).1, served.trans (goesOn isFalse).2⟩, fun isTrue => ?_⟩
      rcases ends isTrue with ⟨was, rest⟩ | ⟨was, rest⟩
      · exact .inl ⟨was, served.trans rest⟩
      · exact .inr ⟨was, served.serves.leaves rest⟩
    rw [drainBytes]
    simp only [Program.run_bind]
    have took : Passes tight held state (consoleGetchar.run state).2 := consoleGetchar_passes calm
    generalize consoleGetchar.run state = got at took ⊢
    obtain ⟨byte?, next⟩ := got
    cases byte? with
    | none => exact ⟨fun isFalse => ⟨isFalse, took⟩, fun isTrue => .inl ⟨isTrue, took⟩⟩
    | some byte =>
      simp only [Program.run_bind, readCore_run]
      by_cases pending : next.core.keyPending = true
      · rw [if_pos pending]
        simp only [Program.run_bind, modifyCore_run]
        have same : SameCore next.core
            { next.core.note (.used .drain .partner byte) with keyPending := false } := ⟨rfl, rfl, rfl, rfl, rfl⟩
        have cleared := took.trans (took.calm.sameCore same rfl)
        generalize ({ next.core.note (.used .drain .partner byte) with keyPending := false } : Core) = core at same cleared ⊢
        have slot : core.table pid = next.core.table pid := congrFun same.table pid
        by_cases chord : byte = keyOpKill
        · rw [if_pos chord]
          simp only [Program.run_bind, readCore_run]
          by_cases running : (core.table pid).state = .running
          · rw [if_pos running]
            simp only [Program.run_bind, modifyCore_run]
            have was : killed = false := agrees.mpr (by rw [← took.slot, ← slot]; exact running)
            have isEnd : ProcState.killed.terminal = true := rfl
            obtain ⟨marked, unreported⟩ := setState_leaves cleared.calm running isEnd
            obtain ⟨more, emits, one, sound⟩ := emitKilledOperator_emits build pid
              { next with core := setState core pid .killed }
            have reported := marked.reports running unreported emits one sound
            generalize (emitKilledOperator build pid).run { next with core := setState core pid .killed } = told at reported ⊢
            have gone : ¬ (told.2.core.table pid).state = .running := by
              intro isRunning
              have ended := reported.ended
              rw [isRunning] at ended
              cases ended
            obtain ⟨goesOn, ends⟩ := ih true told.2 reported.calm (by simp [gone])
            refine ⟨fun isFalse => absurd (goesOn isFalse).1 nofun, fun isTrue => .inr ⟨was, ?_⟩⟩
            rcases ends isTrue with ⟨-, rest⟩ | ⟨bad, -⟩
            · exact cleared.serves.leaves (reported.serves rest.serves)
            · cases bad
          · rw [if_neg running]
            have was : killed = true := by
              rw [← took.slot, ← slot] at agrees
              simpa [running] using agrees
            subst was
            exact onwards _ cleared
        · rw [if_neg chord]
          split
          · simp only [Program.run_bind, modifyCore_run]
            exact onwards _ (cleared.trans (cleared.calm.sameCore (pushKey_same byte _).1 (pushKey_same byte _).2))
          · exact onwards _ cleared
      · rw [if_neg pending]
        simp only [Program.run_bind, modifyCore_run]
        exact onwards _ (took.trans (took.calm.sameCore (leadKey_same byte _).1 (leadKey_same byte _).2))

theorem drainKeys_spec (build : Build) (calm : Calm tight held state) (current : state.core.current = some pid) :
    (((drainKeys build).run state).1 = false → Passes tight held state ((drainKeys build).run state).2) ∧
      (((drainKeys build).run state).1 = true → Leaves tight held pid state ((drainKeys build).run state).2) := by
  unfold drainKeys
  simp only [Program.run_bind, readCore_run, current]
  split
  · exact ⟨fun _ => .refl calm, nofun⟩
  next wants =>
  have running : (state.core.table pid).state = .running := by
    by_contra notRunning
    exact wants (.inl notRunning)
  simp only [Program.run_bind, readEnv_run]
  have agrees : false = false ↔ (state.core.table pid).state = .running := by simp [running]
  obtain ⟨goesOn, ends⟩ := drainBytes_spec build state.env.rx.length false state calm agrees
  refine ⟨fun isFalse => (goesOn isFalse).2, fun isTrue => ?_⟩
  rcases ends isTrue with ⟨bad, -⟩ | ⟨-, left⟩
  · cases bad
  · exact left

/-- Taking a running payload off the CPU, where the tick may do so. -/
structure Preempts (tight : Prop) (held : Held) (pid : Pid) (context : TrapFrame) (state state' : State) : Prop where
  slot : state'.core.table pid = preemptedSlot (state.core.table pid)
  running : (state.core.table pid).state = .running
  current : state'.core.current = state.core.current
  sound : Sv39.view state.core.phys.mem (state.core.table pid).root = (state.core.table pid).lastMemory →
    Interruptible (held pid) (state.core.table pid) context →
      Calm tight held state' ∧ Moves state state' ∧ state'.core.phys.satp = state.core.phys.satp

/-- The part of `maybe_preempt` past the point of no return. -/
theorem preempts_saved {next : State} (took : Passes tight held state next) (same : next.core = state.core)
    (running : (state.core.table pid).state = .running) (current : state.core.current = some pid) (context : TrapFrame)
    (byte : UInt8) :
    Preempts tight held pid context state ((emitSchedPreempt pid).run { next with
      core := setSlot { next.core with
        stashedByte := some byte
        phys := Context.saveFrameTo next.core.phys context (state.core.table pid).resumeFrame context.a0 } pid
        fun slot => { slot with preempted := true, state := .pending } }).2 := by
  generalize made : setSlot { next.core with
    stashedByte := some byte
    phys := Context.saveFrameTo next.core.phys context (state.core.table pid).resumeFrame context.a0 } pid
    (fun slot => { slot with preempted := true, state := .pending }) = core
  have here : core.table pid = preemptedSlot (state.core.table pid) := by
    rw [← made, setSlot_self, same]
    rfl
  have others : ∀ other, other ≠ pid → core.table other = state.core.table other := by
    intro other different
    rw [← made, setSlot_other _ _ different, same]
  obtain ⟨isCurrent, phys, kernelRoot, snaps, ledger⟩ : core.current = state.core.current ∧
      core.phys = Context.saveFrameTo state.core.phys context (state.core.table pid).resumeFrame context.a0 ∧
      core.kernelRoot = state.core.kernelRoot ∧ core.snaps = state.core.snaps ∧ core.ledger = state.core.ledger := by
    rw [← made, same]
    exact ⟨rfl, rfl, rfl, rfl, rfl⟩
  obtain ⟨more, emits, -, only⟩ := emit_emits
    (fun state => .preempt pid (state.core.table pid).startEvent.toNat) { next with core }
  have told : ((emitSchedPreempt pid).run { next with core }).2.core = core := emits.core
  have sound : ∀ entry ∈ more, entry.Sound ∧ entry.what.endOf = none ∧ entry.Plain state.core := by
    intro entry member
    obtain ⟨serial, seen, seenSame, rfl⟩ := only entry member
    rw [seenSame]
    refine ⟨⟨trivial, trivial, rfl⟩, rfl, rfl, fun named isNamed => ?_⟩
    cases isNamed
    exact running
  refine ⟨by rw [told, here], running, by rw [told, isCurrent], fun memory interruptible => ?_⟩
  obtain ⟨inv, evolves, satp⟩ := CoreInv.preempt (same ▸ took.calm.core) current running memory interruptible phys
    kernelRoot snaps ledger others here
  rw [← same] at evolves
  have calm : Calm tight held { next with core } :=
    took.calm.advance inv evolves.toAdvances rfl rfl (Nat.le_refl _)
  have unlogged : ({ next with core } : State).env.log = next.env.log := rfl
  have moved : Moves next ((emitSchedPreempt pid).run { next with core }).2 :=
    .told evolves unlogged emits fun entry member => same ▸ (sound entry member).2.2
  exact ⟨calm.tell emits fun entry member => ⟨(sound entry member).1, (sound entry member).2.1⟩, took.moves.trans moved,
    by rw [told]; exact satp⟩

theorem maybePreempt_spec (build : Build) (calm : Calm tight held state) (current : state.core.current = some pid) (context : TrapFrame) :
    (((maybePreempt build context).run state).1 = false →
      Passes tight held state ((maybePreempt build context).run state).2) ∧
    (((maybePreempt build context).run state).1 = true →
      Preempts tight held pid context state ((maybePreempt build context).run state).2) := by
  unfold maybePreempt
  simp only [Program.run_bind, readCore_run, current]
  split
  · exact ⟨fun _ => .refl calm, nofun⟩
  next notRunning =>
  have running := not_not.mp notRunning
  split
  · exact ⟨fun _ => .refl calm, nofun⟩
  simp only [Program.run_bind]
  have took : Passes tight held state (consoleGetchar.run state).2 := consoleGetchar_passes calm
  have coreKept : (consoleGetchar.run state).2.core = state.core := rfl
  generalize consoleGetchar.run state = got at took coreKept ⊢
  obtain ⟨byte?, next⟩ := got
  cases byte? with
  | none => exact ⟨fun _ => took, nofun⟩
  | some byte =>
    have hasFrame := calm.core.table.loaded pid (by simp [Slot.engaged, running])
    have frame : preemptFrame pid { next.core with stashedByte := some byte } =
        (some (state.core.table pid).resumeFrame, { next.core with stashedByte := some byte }) := by
      unfold preemptFrame
      simp only at coreKept
      simp only [coreKept, hasFrame, if_false]
    simp only [Program.run_bind, Program.run_pure, modifyCore_run, onCore_run, frame]
    refine ⟨fun isFalse => absurd isFalse (by decide), fun _ => ?_⟩
    exact preempts_saved took coreKept running current context byte

end Kernai
