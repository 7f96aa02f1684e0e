import Kernai.Foundation.Histories
import Kernai.Machine
import Kernai.Proofs.Documents

/-! The kernel code that leaves the records of the control plane alone: the journal
and the bytes read, the operation ids, the key flag, the responses and the calls on
the boot stack. -/

namespace Kernai
open Foundation Program Kernel Payload

variable {build : Build} {core core' : Core} {state state' : State} {pid : Pid} {α : Type}

def Event.isReply : Event → Bool
  | .rpc _ _ | .rpcTooLarge => true
  | _ => false

def Emission.isReply : Emission → Bool
  | .frame _ event => event.isReply
  | .classic _ _ => false

/-- The responses in a log. -/
def repliesOf (log : List Entry) : List Emission := (log.map (·.what)).filter (·.isReply)

theorem repliesOf_concat (log : List Entry) (entry : Entry) :
    repliesOf (log ++ [entry]) = repliesOf log ++ if entry.what.isReply then [entry.what] else [] := by
  simp [repliesOf, List.filter_cons]

/-- A name that is written into a report as it is. -/
def IsName (text : String) : Prop := ∀ byte ∈ Console.utf8 text, Rfc8259.Plain byte

theorem isName_of_all {text : String} (all : ((Console.utf8 text).all fun byte => decide (Rfc8259.Plain byte)) = true) :
    IsName text := Rfc8259.plain_of_all all

theorem imageName_isName (image : ImageId) : IsName (images.get image).name := by
  have all : ∀ image : ImageId, ((Console.utf8 (images.get image).name).all fun byte => decide (Rfc8259.Plain byte)) = true := by
    decide +kernel
  exact isName_of_all (all image)

/-- The names in a report need no escapes. -/
def Event.Worded : Event → Prop
  | .denied _ syscall cap => IsName syscall ∧ IsName cap
  | .start _ name .. => IsName name
  | .loadFault _ name reason => IsName name ∧ IsName reason
  | .spawn _ _ name .. => IsName name
  | _ => True

/-- A frame is one of these that fits, and a line of the classic surface is ASCII. -/
def Emission.Proper : Emission → Prop
  | .frame serial event => event.Worded ∧ (event.frameBuf (idOf serial)).overflow = false
  | .classic _ line => ∀ byte ∈ line, byte < 0x80

/-- The log has grown by such reports only. -/
def Spoken (log log' : List Entry) : Prop := ∃ more, log' = log ++ more ∧ ∀ entry ∈ more, entry.what.Proper

theorem Spoken.same {log log' : List Entry} (same : log' = log) : Spoken log log' := ⟨[], by rw [same, List.append_nil], nofun⟩

theorem Spoken.one {log : List Entry} {entry : Entry} (proper : entry.what.Proper) : Spoken log (log ++ [entry]) :=
  ⟨[entry], rfl, by simpa using proper⟩

theorem Spoken.trans {log log' log'' : List Entry} (left : Spoken log log') (right : Spoken log' log'') : Spoken log log'' := by
  obtain ⟨more, rfl, proper⟩ := left
  obtain ⟨later, rfl, proper'⟩ := right
  refine ⟨more ++ later, List.append_assoc .., fun entry member => ?_⟩
  rcases List.mem_append.mp member with first | second
  · exact proper entry first
  · exact proper' entry second

/-- The slots in use stay in use, and no payload's clock is set but at a start that the
ledger notes. -/
structure Timed (core core' : Core) : Prop where
  starts : core.ledger.starts <+: core'.ledger.starts
  slots : ∀ pid, (core.table pid).state ≠ .empty → (core'.table pid).state ≠ .empty ∧
    ((core'.table pid).startedAt = (core.table pid).startedAt ∨
      core.ledger.starts.count pid < core'.ledger.starts.count pid)

theorem Timed.same (table : core'.table = core.table) (starts : core'.ledger.starts = core.ledger.starts) : Timed core core' :=
  ⟨starts ▸ List.prefix_refl _, fun _ used => ⟨table ▸ used, .inl (table ▸ rfl)⟩⟩

theorem Timed.refl (core : Core) : Timed core core := .same rfl rfl

theorem Timed.trans {core'' : Core} (left : Timed core core') (right : Timed core' core'') : Timed core core'' := by
  refine ⟨left.starts.trans right.starts, fun pid used => ?_⟩
  obtain ⟨used', first⟩ := left.slots pid used
  obtain ⟨used'', second⟩ := right.slots pid used'
  have more := left.starts.sublist.count_le pid
  have more' := right.starts.sublist.count_le pid
  refine ⟨used'', ?_⟩
  rcases first with same | begun
  · rcases second with same' | begun'
    · exact .inl (same'.trans same)
    · exact .inr (Nat.lt_of_le_of_lt more begun')
  · exact .inr (Nat.lt_of_lt_of_le begun more')

structure SameRecord (core core' : Core) : Prop where
  journal : core'.journal = core.journal
  stashedByte : core'.stashedByte = core.stashedByte
  keyPending : core'.keyPending = core.keyPending
  opIds : core'.opIds = core.opIds
  opHead : core'.opHead = core.opHead
  stack : core'.stack = core.stack
  suite : core'.ledger.suite = core.ledger.suite
  timed : Timed core core'

theorem SameRecord.refl (core : Core) : SameRecord core core := ⟨rfl, rfl, rfl, rfl, rfl, rfl, rfl, .refl core⟩

theorem SameRecord.trans {core'' : Core} (left : SameRecord core core') (right : SameRecord core' core'') :
    SameRecord core core'' :=
  ⟨right.journal.trans left.journal, right.stashedByte.trans left.stashedByte, right.keyPending.trans left.keyPending,
    right.opIds.trans left.opIds, right.opHead.trans left.opHead, right.stack.trans left.stack, right.suite.trans left.suite,
    left.timed.trans right.timed⟩

/-- Nothing happened that the control plane keeps a record of. -/
structure Unrecorded (state state' : State) : Prop where
  core : SameRecord state.core state'.core
  read : state'.env.read = state.env.read
  replies : repliesOf state'.env.log = repliesOf state.env.log

theorem Unrecorded.refl (state : State) : Unrecorded state state := ⟨.refl _, rfl, rfl⟩

theorem Unrecorded.trans {state'' : State} (left : Unrecorded state state') (right : Unrecorded state' state'') :
    Unrecorded state state'' :=
  ⟨left.core.trans right.core, right.read.trans left.read, right.replies.trans left.replies⟩

/-- The histories only grow. -/
structure Grows (state state' : State) : Prop where
  journal : state.core.journal <+: state'.core.journal
  read : state.env.read <+: state'.env.read
  replies : repliesOf state.env.log <+: repliesOf state'.env.log

theorem Grows.refl (state : State) : Grows state state := ⟨List.prefix_refl _, List.prefix_refl _, List.prefix_refl _⟩

theorem Grows.trans {state'' : State} (left : Grows state state') (right : Grows state' state'') : Grows state state'' :=
  ⟨left.journal.trans right.journal, left.read.trans right.read, left.replies.trans right.replies⟩

theorem SameRecord.journal_grows (same : SameRecord core core') : core.journal <+: core'.journal :=
  same.journal ▸ List.prefix_refl _

theorem Unrecorded.grows (same : Unrecorded state state') : Grows state state' :=
  ⟨same.core.journal_grows, same.read ▸ List.prefix_refl _, same.replies ▸ List.prefix_refl _⟩

/-- An action on the kernel's statics that adds to the journal if it touches it. -/
theorem Grows.ofCore (journal : state.core.journal <+: core.journal) : Grows state { state with core } :=
  ⟨journal, List.prefix_refl _, List.prefix_refl _⟩

/-- The flight recorder: the trap ring, the notable traps and the counts. -/
structure Recorder where
  ring : Nat → RingSlot
  ringCount : Nat
  notable : Nat → RingSlot
  notableCount : Nat
  ticks : Nat
  ecallTraps : Nat
  faultTraps : Nat

def Env.recorder (env : Env) : Recorder :=
  { ring := env.ring, ringCount := env.ringCount, notable := env.notable, notableCount := env.notableCount, ticks := env.ticks
    ecallTraps := env.ecallTraps, faultTraps := env.faultTraps }

/-- What has come over the serial line: what was read and what waits to be. -/
def Env.heard (env : Env) : Bytes := env.read ++ env.rx

/-- Nor anything that the flight recorder does. -/
structure Unnoticed (state state' : State) : Prop extends Unrecorded state state' where
  recorder : state'.env.recorder = state.env.recorder
  spoken : Spoken state.env.log state'.env.log
  heard : state'.env.heard = state.env.heard

theorem Unnoticed.refl (state : State) : Unnoticed state state := ⟨.refl state, rfl, .same rfl, rfl⟩

theorem Foundation.Program.Within.unrecorded {program : Kernel α} (within : Within Unnoticed program) :
    Within Unrecorded program := within.mono fun _ _ same => same.toUnrecorded

theorem Foundation.Program.Within.keeps {program : Kernel α} (within : Within Unrecorded program) (state : State) :
    Unrecorded state (program.run state).2 := within.run .refl .trans state

section Primitives

theorem onCore_within {action : Core → α × Core} (same : ∀ core, SameRecord core (action core).2) :
    Within Unnoticed (onCore action) := .modifyGet fun state => ⟨⟨same state.core, rfl, rfl⟩, rfl, .same rfl, rfl⟩

theorem modifyCore_within {update : Core → Core} (same : ∀ core, SameRecord core (update core)) :
    Within Unnoticed (modifyCore update) := onCore_within same

theorem readCore_within (view : Core → α) : Within Unnoticed (readCore view) := onCore_within .refl

theorem onEnv_within {action : Env → α × Env} (read : ∀ env, (action env).2.read = env.read)
    (rx : ∀ env, (action env).2.rx = env.rx) (log : ∀ env, (action env).2.log = env.log) (recorder : ∀ env, (action env).2.recorder = env.recorder) :
    Within Unnoticed (onEnv action) :=
  .modifyGet fun state =>
    ⟨⟨.refl _, read state.env, congrArg repliesOf (log state.env)⟩, recorder state.env, .same (log state.env),
      congrArg₂ (· ++ ·) (read state.env) (rx state.env)⟩

theorem readEnv_within (view : Env → α) : Within Unnoticed (readEnv view) := onEnv_within (fun _ => rfl) (fun _ => rfl) (fun _ => rfl) fun _ => rfl

theorem read_within (view : State → α) : Within Unnoticed (Program.read view) := fun state => ⟨.refl state, trivial⟩

theorem nextId_within : Within Unnoticed nextId := onEnv_within (fun _ => rfl) (fun _ => rfl) (fun _ => rfl) fun _ => rfl

theorem readTime_within : Within Unnoticed (readTime build) := onEnv_within (fun _ => rfl) (fun _ => rfl) (fun _ => rfl) fun _ => rfl

theorem putAll_within (bytes : Bytes) : Within Unnoticed (putAll bytes) := by
  induction bytes with
  | nil => exact .pure ()
  | cons byte rest ih => exact .bind (onEnv_within (fun _ => rfl) (fun _ => rfl) (fun _ => rfl) fun _ => rfl) fun _ => ih

theorem record_within {what : Emission} (plain : what.isReply = false) (proper : what.Proper) :
    Within Unnoticed (record what) := by
  refine fun state => ⟨⟨⟨.refl _, rfl, ?_⟩, rfl, .one proper, rfl⟩, trivial⟩
  refine (repliesOf_concat _ _).trans ?_
  simp [plain]

theorem withoutInterrupts_within {body : Kernel α} (within : Within Unnoticed body) :
    Within Unnoticed (withoutInterrupts body) := by
  refine .bind (onEnv_within (fun _ => rfl) (fun _ => rfl) (fun _ => rfl) fun _ => rfl) fun prev => .bind within fun out => ?_
  cases prev with
  | false => exact .pure out
  | true => exact .bind (onEnv_within (fun _ => rfl) (fun _ => rfl) (fun _ => rfl) fun _ => rfl) fun _ => .pure out

theorem send_within (serial : Nat) {event : Event} (plain : event.isReply = false) (worded : event.Worded) :
    Within Unnoticed (send serial event) := by
  unfold send
  split
  · exact .pure ()
  next fits => exact .bind (record_within plain ⟨worded, Bool.eq_false_iff.mpr fits⟩) fun _ => putAll_within _

theorem emit_within {event : State → Event} (plain : ∀ state, (event state).isReply = false)
    (worded : ∀ state, (event state).Worded) : Within Unnoticed (emit event) := by
  refine withoutInterrupts_within (.bind nextId_within fun serial => ?_)
  -- the event is known only when it is read, so the action is opened by hand
  exact fun state => ⟨.refl state, send_within serial (plain state) (worded state)⟩

end Primitives

section CoreFunctions

/-- An update that leaves the clock alone. -/
def Slot.KeepsTime (update : Slot → Slot) : Prop :=
  ∀ slot : Slot, slot.state ≠ .empty → (update slot).state ≠ .empty ∧ (update slot).startedAt = slot.startedAt

theorem setSlot_record (core : Core) (pid : Pid) {update : Slot → Slot} (keeps : Slot.KeepsTime update) :
    SameRecord core (setSlot core pid update) := by
  refine ⟨rfl, rfl, rfl, rfl, rfl, rfl, rfl, List.prefix_refl _, fun other used => ?_⟩
  by_cases here : other = pid
  · have kept := keeps _ used
    simp only [setSlot, if_pos here]
    exact ⟨kept.1, .inl kept.2⟩
  · exact ⟨by simpa only [setSlot, if_neg here] using used, .inl (by simp only [setSlot, if_neg here])⟩

theorem phys_record (core : Core) (phys : Phys) : SameRecord core { core with phys } :=
  ⟨rfl, rfl, rfl, rfl, rfl, rfl, rfl, .same rfl rfl⟩

theorem autoFork_record (core : Core) (owed : Nat) : SameRecord core { core with autoFork := owed } :=
  ⟨rfl, rfl, rfl, rfl, rfl, rfl, rfl, .same rfl rfl⟩

theorem noteStart_record (core : Core) (pid : Pid) : SameRecord core (noteStart core pid) :=
  ⟨rfl, rfl, rfl, rfl, rfl, rfl, rfl, List.prefix_append _ _, fun _ used => ⟨used, .inl rfl⟩⟩

/-- A start, which is what sets the clock. -/
theorem start_record (core : Core) (pid : Pid) {update : Slot → Slot}
    (keeps : ∀ slot : Slot, slot.state ≠ .empty → (update slot).state ≠ .empty) :
    SameRecord core (setSlot (noteStart core pid) pid update) := by
  refine ⟨rfl, rfl, rfl, rfl, rfl, rfl, rfl, List.prefix_append _ _, fun other used => ?_⟩
  by_cases here : other = pid
  · subst here
    refine ⟨by simpa only [setSlot, noteStart, if_true] using keeps _ used, .inr ?_⟩
    simp [setSlot, noteStart]
  · exact ⟨by simpa only [setSlot, noteStart, if_neg here] using used, .inl (by simp only [setSlot, if_neg here, noteStart])⟩

theorem foldl_record {ι : Type} {step : Core → ι → Core} (same : ∀ core item, SameRecord core (step core item))
    (items : List ι) (core : Core) : SameRecord core (items.foldl step core) := by
  induction items generalizing core with
  | nil => exact .refl core
  | cons item rest ih => exact (same core item).trans (ih _)

theorem reapTerminated_record (core : Core) : SameRecord core (reapTerminated core) := by
  refine foldl_record (fun core pid => ?_) _ core
  unfold reapSlot
  dsimp only
  split
  · exact (phys_record core _).trans (setSlot_record _ pid (by exact fun _ used => ⟨used, rfl⟩))
  · exact .refl core

theorem freeSnapshots_record (core : Core) : SameRecord core (freeSnapshots core) := by
  refine foldl_record (fun core sid => ?_) _ core
  unfold freeSnapshot
  dsimp only
  split
  · exact ⟨rfl, rfl, rfl, rfl, rfl, rfl, rfl, .same rfl rfl⟩
  · exact .refl core

theorem position_empty (found : position core (·.state = .empty) = some pid) : (core.table pid).state = .empty := by
  simpa using List.find?_some found

/-- A slot that was free is written. -/
theorem fill_record (update : Slot → Slot) (free : (core.table pid).state = .empty) :
    SameRecord core (noteEnqueued (setSlot core pid update)) := by
  refine ⟨rfl, rfl, rfl, rfl, rfl, rfl, rfl, List.prefix_refl _, fun other used => ?_⟩
  have others : other ≠ pid := by
    rintro rfl
    exact used free
  simp only [noteEnqueued, setSlot, if_neg others]
  exact ⟨used, .inl trivial⟩

theorem enqueue_record (image : ImageId) (caps : Nat) (parent : Option Pid) (core : Core) :
    SameRecord core (enqueue image caps parent core).2 := by
  unfold enqueue
  split
  · next found => exact fill_record _ (position_empty found)
  · exact .refl core

theorem enqueueRestore_record (sid : Sid) (core : Core) : SameRecord core (enqueueRestore sid core).2 := by
  unfold enqueueRestore
  dsimp only
  split
  · split
    · exact phys_record core _
    · split
      · exact phys_record core _
      · split
        · exact phys_record core _
        · split
          · exact phys_record core _
          · split
            · next found => exact (phys_record core _).trans (fill_record _ (position_empty found))
            · exact phys_record core _
  · exact .refl core

/-- What the records say but for the calls on the stack. -/
structure SameBooks (core core' : Core) : Prop where
  journal : core'.journal = core.journal
  stashedByte : core'.stashedByte = core.stashedByte
  keyPending : core'.keyPending = core.keyPending
  opIds : core'.opIds = core.opIds
  opHead : core'.opHead = core.opHead

/-- What a seed does to the records. -/
theorem seed_books (suite : Suite) (core : Core) :
    SameBooks { core with keyPending := core.keyPending && !build.doom } (seed build suite core) ∧
      (seed build suite core).stack = core.stack ∧ (seed build suite core).ledger.suite = core.ledger.suite + 1 := by
  have queued : SameRecord (clearTable build core) (seed build suite core) :=
    (foldl_record (fun core image => enqueue_record image _ none core) _ _).trans (autoFork_record _ _)
  have cleared : SameBooks { core with keyPending := core.keyPending && !build.doom } (clearTable build core) ∧
      (clearTable build core).stack = core.stack ∧ (clearTable build core).ledger.suite = core.ledger.suite + 1 := by
    unfold clearTable
    dsimp only
    have freed := freeSnapshots_record { core with
      table := fun pid => { core.table pid with state := .empty }
      ledger := { core.ledger with suite := core.ledger.suite + 1, enqueued := 0, starts := [] } }
    split
    next doom =>
      refine ⟨⟨freed.journal, freed.stashedByte, ?_, freed.opIds, freed.opHead⟩, freed.stack, freed.suite⟩
      rw [doom, Bool.not_true, Bool.and_false]
      rfl
    next plain =>
      rw [Bool.not_eq_true] at plain
      refine ⟨⟨freed.journal, freed.stashedByte, ?_, freed.opIds, freed.opHead⟩, freed.stack, freed.suite⟩
      rw [plain, Bool.not_false, Bool.and_true]
      exact freed.keyPending
  obtain ⟨books, stack, suite⟩ := cleared
  exact ⟨⟨queued.journal.trans books.journal, queued.stashedByte.trans books.stashedByte, queued.keyPending.trans books.keyPending,
    queued.opIds.trans books.opIds, queued.opHead.trans books.opHead⟩, queued.stack.trans stack, queued.suite.trans suite⟩

theorem takeSnapshot_record (frame : TrapFrame) (core : Core) : SameRecord core (takeSnapshot frame core).2 := by
  unfold takeSnapshot
  repeat' split
  all_goals exact ⟨rfl, rfl, rfl, rfl, rfl, rfl, rfl, .same rfl rfl⟩

theorem preemptFrame_record (pid : Pid) (core : Core) : SameRecord core (preemptFrame pid core).2 := by
  unfold preemptFrame
  dsimp only
  split
  · split
    · exact phys_record core _
    · dsimp only
      exact (phys_record core _).trans (setSlot_record _ pid (by exact fun _ used => ⟨used, rfl⟩))
  · exact .refl core

theorem noteRemedy_record (core : Core) (pid : Pid) : SameRecord core (noteRemedy core pid) :=
  ⟨rfl, rfl, rfl, rfl, rfl, rfl, rfl, .same rfl rfl⟩

theorem killPending_record (named : Nat) (core : Core) : SameRecord core (killPending named core).2 := by
  unfold killPending
  split
  · exact .refl core
  · exact (setSlot_record core _ (by exact fun _ _ => ⟨by simp, rfl⟩)).trans (noteRemedy_record _ _)

theorem setDeadline_record (named units : Nat) (core : Core) : SameRecord core (setDeadline named units core).2 := by
  unfold setDeadline
  split
  · exact .refl core
  · exact (setSlot_record core _ (by exact fun _ used => ⟨used, rfl⟩)).trans (noteRemedy_record _ _)

theorem onGetkey_record (core : Core) : SameRecord core (onGetkey core).2 := by
  unfold onGetkey
  split
  · exact .refl core
  · exact ⟨rfl, rfl, rfl, rfl, rfl, rfl, rfl, .same rfl rfl⟩

theorem pushKey_record (byte : UInt8) (core : Core) : SameRecord core (pushKey byte core) := by
  unfold pushKey
  split
  · exact .refl core
  · exact ⟨rfl, rfl, rfl, rfl, rfl, rfl, rfl, .same rfl rfl⟩

theorem begin_record (pid : Pid) (state : State) : Unnoticed state (begin build pid state).2 := by
  unfold begin
  dsimp only
  split
  · refine ⟨⟨?_, ?_, ?_⟩, ?_, .same ?_, ?_⟩
    · unfold resumePayload
      dsimp only
      split
      · next preempted =>
        refine ⟨rfl, rfl, rfl, rfl, rfl, rfl, rfl, List.prefix_refl _, fun other used => ?_⟩
        by_cases here : other = pid
        · subst here
          refine ⟨?_, .inl ?_⟩
          · simp only [setSlot, resumedSlot, if_true]
            decide
          · simp only [setSlot, resumedSlot, if_true, preempted]
        · exact ⟨by simpa only [setSlot, if_neg here] using used, .inl (by simp only [setSlot, if_neg here])⟩
      · exact (start_record state.core pid (by exact fun _ _ => by simp [resumedSlot])).trans ⟨rfl, rfl, rfl, rfl, rfl, rfl, rfl, .same rfl rfl⟩
    all_goals
      dsimp only
      split <;> rfl
  · unfold loadPayload
    split
    next reason core loaded =>
      split at loaded
      · cases loaded
        exact ⟨⟨phys_record _ _, rfl, rfl⟩, rfl, .same rfl, rfl⟩
      · cases loaded
    next launch core loaded =>
      split at loaded
      · cases loaded
      · cases loaded
        exact ⟨⟨((phys_record _ _).trans (start_record _ pid (by exact fun _ _ => by simp [loadedSlot]))).trans
          ⟨rfl, rfl, rfl, rfl, rfl, rfl, rfl, .same rfl rfl⟩, rfl, rfl⟩, rfl, .same rfl, rfl⟩

theorem asStr_isName (error : Elf.ElfError) : IsName error.asStr := by
  cases error <;> exact isName_of_all (by decide)

theorem mapWindowPages_reason {root va pa count : Nat} {phys after : Phys} {reason : String}
    (mapped : mapWindowPages root va pa count phys = (.error reason, after)) : IsName reason := by
  induction count generalizing va pa phys with
  | zero => cases mapped
  | succ count ih =>
    rw [mapWindowPages] at mapped
    split at mapped
    · cases mapped
      exact isName_of_all (by decide)
    · exact ih mapped

/-- The reasons a load can fail for. -/
theorem buildImage_reason {image : ImageId} {phys after : Phys} {reason : String}
    (built : buildImage build image phys = (.error reason, after)) : IsName reason := by
  unfold buildImage at built
  split at built
  · cases built
    exact isName_of_all (by decide)
  split at built
  · cases built
    exact isName_of_all (by decide)
  split at built
  · cases built
    exact asStr_isName _
  dsimp only at built
  split at built
  next windowReason _ window =>
    cases built
    split at window
    · exact mapWindowPages_reason window
    · cases window
  split at built
  · cases built
    exact isName_of_all (by decide)
  · cases built

theorem begin_reason {reason : String} (begun : (begin build pid state).1 = .error reason) : IsName reason := by
  unfold begin at begun
  dsimp only at begun
  split at begun
  · cases begun
  · unfold loadPayload at begun
    generalize built : buildImage build (state.core.table pid).image state.core.phys = result at begun
    obtain ⟨outcome, phys⟩ := result
    cases outcome with
    | ok launched => cases begun
    | error other =>
      cases begun
      exact buildImage_reason built

end CoreFunctions

section Payloads

theorem elapsedSince_within (started : Nat) : Within Unnoticed (elapsedSince build started) := by
  unfold elapsedSince
  split
  · exact .pure 0
  · exact .bind readTime_within fun now => .pure _

theorem emitKilledOperator_within (pid : Pid) : Within Unnoticed (emitKilledOperator build pid) :=
  withoutInterrupts_within <| .bind (readCore_within _) fun _ => .bind (elapsedSince_within _) fun _ =>
    .bind nextId_within fun serial => .bind (readCore_within _) fun _ => send_within serial rfl trivial

theorem killPid_within (named : Nat) : Within Unnoticed (killPid build named) := by
  refine .bind (onCore_within (killPending_record named)) fun found => ?_
  cases found with
  | error reason => exact .pure _
  | ok pid =>
    exact .bind (emitKilledOperator_within pid) fun _ => .bind (readCore_within _) fun started =>
      .bind (elapsedSince_within started) fun _ => .pure _

theorem emitStart_within (launch : Launch) : Within Unnoticed (emitStart launch) :=
  withoutInterrupts_within <| .bind nextId_within fun serial =>
    .bind (modifyCore_within fun core => setSlot_record core launch.pid (by exact fun _ used => ⟨used, rfl⟩)) fun _ =>
      fun state => ⟨.refl state, send_within serial rfl (imageName_isName _)⟩

theorem launch_within (launch : Launch) : Within Unnoticed (Payload.launch launch) := by
  unfold Payload.launch
  split
  · exact .bind (emitStart_within launch) fun _ => .pure _
  · exact .bind (.pure _) fun _ => .pure _

theorem emitSuiteDone_within : Within Unnoticed emitSuiteDone := emit_within (fun _ => rfl) fun _ => trivial

theorem restore_within (sid : Sid) : Within Unnoticed (Payload.restore sid) := by
  refine .bind (onCore_within (enqueueRestore_record sid)) fun found => ?_
  cases found <;> exact .pure _

end Payloads

section Hooks

theorem onExit_within (code : Int) : Within Unnoticed (onExit code) := by
  refine .bind (readCore_within _) fun current => ?_
  cases current with
  | none => exact .pure ()
  | some pid =>
    exact .bind (modifyCore_within fun core => setSlot_record core pid (by exact fun _ _ => ⟨by simp, rfl⟩)) fun _ =>
      emit_within (fun _ => rfl) fun _ => trivial

theorem markFaulted_within : Within Unnoticed markFaulted := by
  refine modifyCore_within fun core => ?_
  split
  · exact setSlot_record core _ (by exact fun _ _ => ⟨by simp, rfl⟩)
  · exact .refl core

theorem leaveCurrent_within : Within Unnoticed leaveCurrent :=
  modifyCore_within fun _ => ⟨rfl, rfl, rfl, rfl, rfl, rfl, rfl, .same rfl rfl⟩

theorem emitDenied_within {syscall cap : String} (named : IsName syscall ∧ IsName cap) : Within Unnoticed (emitDenied syscall cap) :=
  emit_within (fun _ => rfl) fun _ => named

theorem emitSchedPreempt_within (pid : Pid) : Within Unnoticed (emitSchedPreempt pid) :=
  emit_within (fun _ => rfl) fun _ => trivial

theorem onSnapshot_within (frame : TrapFrame) : Within Unnoticed (onSnapshot frame) := by
  refine .bind (onCore_within (takeSnapshot_record frame)) fun taken => ?_
  cases taken with
  | error errno => exact .pure _
  | ok pair => exact .bind (emit_within (fun _ => rfl) fun _ => trivial) fun _ => .pure _

theorem onTick_within : Within Unnoticed (onTick build) := by
  refine .bind (readCore_within _) fun current => ?_
  cases current with
  | none => exact .pure false
  | some pid =>
    refine .bind (readCore_within _) fun slot => ?_
    split
    · exact .pure false
    · split
      · exact .pure false
      · refine .bind readTime_within fun now => ?_
        dsimp only
        split
        · exact .bind (modifyCore_within fun core => setSlot_record core pid (by exact fun _ _ => ⟨by simp, rfl⟩)) fun _ =>
            .bind (emit_within (fun _ => rfl) fun _ => trivial) fun _ => .pure true
        · exact .pure false

theorem onYield_within : Within Unnoticed onYield := by
  refine .bind (readCore_within _) fun allowed => ?_
  split
  · refine .bind (readCore_within _) fun current => ?_
    cases current with
    | none => exact .bind (.pure ()) fun _ => .pure _
    | some pid => exact .bind (emit_within (fun _ => rfl) fun _ => trivial) fun _ => .pure _
  · exact .bind (emitDenied_within ⟨isName_of_all (by decide), isName_of_all (by decide)⟩) fun _ => .pure _

theorem onSpawn_within (selector requested : Nat) : Within Unnoticed (onSpawn selector requested) := by
  refine .bind (readCore_within _) fun current => ?_
  cases current with
  | none => exact .pure _
  | some parent =>
    refine .bind (readCore_within _) fun allowed => ?_
    split
    · split
      · exact .pure _
      · refine .bind (readCore_within _) fun parentCaps => .bind (onCore_within (enqueue_record _ _ _)) fun found => ?_
        cases found with
        | none => exact .pure _
        | some child => exact .bind (emit_within (fun _ => rfl) fun _ => imageName_isName _) fun _ => .pure _
    · exact .bind (emitDenied_within ⟨isName_of_all (by decide), isName_of_all (by decide)⟩) fun _ => .pure _

theorem sysWrite_within (ptr len : Nat) : Within Unnoticed (Syscall.sysWrite ptr len) := by
  refine .bind (readCore_within _) fun allowed => ?_
  split
  · refine .bind (.bind (readCore_within _) fun copied => ?_) fun sent => ?_
    · cases copied with
      | none => exact .pure false
      | some data => exact .bind (emit_within (fun _ => rfl) fun _ => trivial) fun _ => .pure true
    · split <;> exact .pure _
  · exact .bind (emitDenied_within ⟨isName_of_all (by decide), isName_of_all (by decide)⟩) fun _ => .pure _

theorem sendOrRefuse_within (serial : Nat) {event : Event} (plain : event.isReply = false) (worded : event.Worded) :
    Within Unnoticed (sendOrRefuse serial event) := by
  unfold sendOrRefuse
  split
  · exact .pure _
  · exact .bind (send_within serial plain worded) fun _ => .pure _

theorem onBlit_within (ptr w h : Nat) : Within Unnoticed (onBlit ptr w h) := by
  refine .bind (readCore_within _) fun allowed => ?_
  split
  · split
    · exact .pure _
    · refine .bind (readCore_within _) fun found => ?_
      cases found with
      | none => exact .pure _
      | some space =>
        refine withoutInterrupts_within (.bind nextId_within fun serial => .bind (readCore_within _) fun copied => ?_)
        cases copied with
        | none => exact .pure _
        | some rows => exact .bind (readCore_within _) fun _ => sendOrRefuse_within serial rfl trivial
  · exact .bind (emitDenied_within ⟨isName_of_all (by decide), isName_of_all (by decide)⟩) fun _ => .pure _

theorem onFrameRgb_within (ptr len seq : Nat) : Within Unnoticed (onFrameRgb ptr len seq) := by
  refine .bind (readCore_within _) fun allowed => ?_
  split
  · refine .bind (readCore_within _) fun autonomous => ?_
    split
    · exact .pure _
    · split
      · exact .pure _
      · refine .bind (readCore_within _) fun found => ?_
        cases found with
        | none => exact .pure _
        | some space =>
          refine .bind (readCore_within _) fun copied => ?_
          cases copied with
          | none => exact .pure _
          | some data =>
            exact withoutInterrupts_within (.bind nextId_within fun serial => .bind (readCore_within _) fun _ =>
              sendOrRefuse_within serial rfl trivial)
  · exact .bind (emitDenied_within ⟨isName_of_all (by decide), isName_of_all (by decide)⟩) fun _ => .pure _

theorem dispatch_within (frame : TrapFrame) : Within Unnoticed (Syscall.dispatch build frame) := by
  unfold Syscall.dispatch
  dsimp only
  split
  · exact .bind (onExit_within _) fun _ => .pure _
  · exact .map _ (sysWrite_within _ _)
  · exact .map _ onYield_within
  · exact .map _ (onSpawn_within _ _)
  · exact .map _ (onSnapshot_within _)
  · exact .map _ (onBlit_within _ _ _)
  · split
    · exact .map _ (onFrameRgb_within _ _ _)
    · exact .pure _
  · split
    · exact .map _ (onCore_within onGetkey_record)
    · exact .pure _
  · exact .pure _

end Hooks

section Traps
open Traps

theorem causeName_isName (scause : Nat) : IsName (Text.causeName scause) := by
  unfold Text.causeName
  split
  all_goals first | exact isName_of_all (by decide) | skip
  split
  · exact isName_of_all (by decide)
  · split <;> exact isName_of_all (by decide)

theorem classicLine_ascii (frame : TrapFrame) (scause stval : Nat) (pid : Option Pid) :
    ∀ byte ∈ classicLine frame scause stval pid, byte < 0x80 := by
  have low : ∀ {text : Bytes}, (text.all fun byte => decide (byte < 0x80)) = true → ∀ byte ∈ text, byte < 0x80 :=
    fun all byte member => of_decide_eq_true (List.all_eq_true.mp all byte member)
  have plain : ∀ {text : Bytes}, (∀ byte ∈ text, Rfc8259.Plain byte) → ∀ byte ∈ text, byte < 0x80 :=
    fun plain byte member => (plain byte member).2.1
  have origin : ∀ byte ∈ Console.utf8 (if pid.isSome then "payload" else "kernel"), byte < 0x80 := by
    split <;> exact low (by decide)
  unfold classicLine
  simp only [List.forall_mem_append]
  refine ⟨⟨⟨⟨⟨⟨⟨⟨⟨⟨⟨⟨low (by decide), origin⟩, low (by decide)⟩, plain (causeName_isName scause)⟩, low (by decide)⟩,
    plain (hex_plain _)⟩, low (by decide)⟩, plain (hex_plain _)⟩, low (by decide)⟩, plain (hex_plain _)⟩, low (by decide)⟩,
    plain (hex_plain _)⟩, low (by decide)⟩

theorem emitFault_within (frame : TrapFrame) (serial scause stval : Nat) (pid : Option Pid) :
    Within Unnoticed (emitFault frame serial scause stval pid) := by
  refine .bind (readCore_within _) fun classic => ?_
  split
  · exact withoutInterrupts_within (.bind (record_within rfl (classicLine_ascii frame scause stval pid)) fun _ => putAll_within _)
  · refine .bind (read_within _) fun report => ?_
    split
    · exact send_within serial rfl trivial
    · exact send_within serial rfl trivial

theorem emitRingDump_within : Within Unnoticed emitRingDump := emit_within (fun _ => rfl) fun _ => trivial

theorem serviceTick_within (serial : Nat) : Within Unrecorded (serviceTick build serial) := by
  refine .bind readTime_within.unrecorded fun now => .bind (.modifyGet fun _ => ⟨.refl _, rfl, rfl⟩) fun seq =>
    .bind (readCore_within _).unrecorded fun autonomous => ?_
  split
  · exact .pure ()
  · refine .bind readTime_within.unrecorded fun time => ?_
    have sent : Within Unnoticed (send serial (.tick seq time)) := send_within serial rfl trivial
    exact sent.unrecorded

theorem ringRecord_within (slot : RingSlot) : Within Unrecorded (onEnv fun env => ((), ringRecord slot env)) := by
  refine .modifyGet fun state => ⟨.refl _, ?_, congrArg repliesOf ?_⟩
  all_goals
    unfold ringRecord
    dsimp only
    repeat' split
    all_goals rfl

end Traps

section Machine
open Machine

theorem noteUser_unrecorded (state : State) (context : TrapFrame) : Unrecorded state (noteUser state context) := by
  unfold noteUser
  split
  · refine ⟨?_, rfl, rfl⟩
    dsimp only
    exact setSlot_record state.core _ (by exact fun _ used => ⟨used, rfl⟩)
  · exact .refl state

theorem noteEntered_record (core : Core) : SameRecord core (noteEntered core) := by
  unfold noteEntered
  split
  · exact setSlot_record _ _ (by exact fun _ used => ⟨used, rfl⟩)
  · exact .refl core

end Machine

end Kernai
