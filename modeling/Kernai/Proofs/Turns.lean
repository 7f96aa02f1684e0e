import Kernai.Proofs.Control
import Kernai.Proofs.Records

/-! The history of the control plane as a list of turns: what was read off the line,
what became of it, and how it was answered. -/

namespace Kernai
open Foundation Program Kernel Payload Rpc Json

variable {build : Build} {core core' : Core} {state state' : State} {turns : List Turn}

/-- What a request did about its operation id: it never got to the check, it had
none, it was a replay, or it was recorded. -/
inductive Check where
  | unasked
  | free (verdict : Verdict)
  | duplicate (op : Bytes)
  | fresh (op : Bytes) (verdict : Verdict)

def Check.notes : Check → List Note
  | .unasked => []
  | .free verdict => [.answered none verdict]
  | .duplicate op => [.answered (some op) .duplicate]
  | .fresh op verdict => [.recorded op, .answered (some op) verdict]

def Check.recorded : Check → List Bytes
  | .fresh op _ => [op]
  | _ => []

/-- One turn of a reader: a byte of a key pair or one that a key drain ignored, a
command byte, or a request frame, which the line cut short, which was dropped, or
which was served. `inside` is what came after the first byte of the frame. -/
inductive Turn where
  | key (reader : Reader) (use : Use) (byte : UInt8)
  | command (reader : Reader) (byte : UInt8)
  | stalled (reader : Reader) (inside : Bytes)
  | dropped (reader : Reader) (inside : Bytes)
  | served (reader : Reader) (inside body : Bytes) (check : Check)

namespace Turn

def reader : Turn → Reader
  | .key reader _ _ | .command reader _ | .stalled reader _ | .dropped reader _ | .served reader _ _ _ => reader

def bytes : Turn → Bytes
  | .key _ _ byte | .command _ byte => [byte]
  | .stalled _ inside | .dropped _ inside | .served _ inside _ _ => 0xAA :: inside

/-- The notes of a frame's bytes. -/
def frameNotes (reader : Reader) (inside : Bytes) : List Note :=
  .used reader .opens 0xAA :: inside.map (.used .request .framed)

def notes : Turn → List Note
  | .key reader use byte => [.used reader use byte]
  | .command reader byte => [.used reader .command byte]
  | .stalled reader inside => frameNotes reader inside ++ [.stalled]
  | .dropped reader inside => frameNotes reader inside
  | .served reader inside body check => frameNotes reader inside ++ .dispatched body :: check.notes

def body : Turn → Option Bytes
  | .served _ _ body _ => some body
  | _ => none

def recorded : Turn → List Bytes
  | .served _ _ _ check => check.recorded
  | _ => []

def isLead : Turn → Bool
  | .key _ .lead _ => true
  | _ => false

def isPartner : Turn → Bool
  | .key _ .partner _ => true
  | _ => false

end Turn

/-- The length field of a request frame. -/
def lengthOf (lenb : Bytes) : Nat := Memory.littleEndian (fun i => lenb.getD i 0) 4

/-- What `read_request` passes on to `dispatch`. -/
def Acceptable (body : Bytes) : Prop := validUtf8 body = true ∧ (trimStart body).head? = some 0x7b

def GoodLength (length : Nat) : Prop := ¬ (length = 0 ∨ length > maxReq)

/-- Frames whose body is dispatched, by what comes after the first byte. -/
inductive Framed (inside body : Bytes) : Prop
  | mk (lenb : Bytes) (four : lenb.length = 4) (isInside : inside = 0x99 :: (lenb ++ body)) (length : body.length = lengthOf lenb)
      (good : GoodLength (lengthOf lenb)) (accepted : Acceptable body)

/-- Frames that are read and then ignored. -/
inductive Dropped (inside : Bytes) : Prop
  | magic (byte : UInt8) (other : byte ≠ 0x99) (isInside : inside = [byte])
  | length (lenb : Bytes) (four : lenb.length = 4) (isInside : inside = 0x99 :: lenb) (bad : ¬ GoodLength (lengthOf lenb))
  | body (lenb body : Bytes) (four : lenb.length = 4) (isInside : inside = 0x99 :: (lenb ++ body))
      (length : body.length = lengthOf lenb) (good : GoodLength (lengthOf lenb)) (refused : ¬ Acceptable body)

/-- A turn as the readers of this build make it. -/
def Turn.Formed (build : Build) : Turn → Prop
  | .key reader use byte => build.doom = true ∧ (reader = .drain ∨ reader = .idle) ∧
      (use = .lead ∧ byte = keyPrefix ∨ use = .partner ∨ use = .ignored ∧ reader = .drain ∧ byte ≠ keyPrefix)
  | .command reader byte => byte ≠ 0xAA ∧ (build.doom = true → reader = .idle → byte ≠ keyPrefix)
  | .stalled _ _ => True
  | .dropped _ inside => Dropped inside
  | .served _ inside body _ => Framed inside body

/-- Whether the byte after these turns is owed to a key prefix. -/
def pendingAfter (turns : List Turn) : Bool := turns.getLast?.any (·.isLead)

theorem pendingAfter_concat (turns : List Turn) (turn : Turn) : pendingAfter (turns ++ [turn]) = turn.isLead := by
  simp [pendingAfter]

/-- A byte is the partner of a prefix exactly when a prefix came before it. -/
def Paired (before : List Turn) (turn : Turn) : Prop := turn.isPartner = pendingAfter before

/-- The hashes recorded in these turns, oldest first. -/
def hashesOf (turns : List Turn) : List Nat := (turns.flatMap Turn.recorded).map fnv1a

/-- A replay is one whose hash is among those remembered. -/
def Check.After (before : List Turn) : Check → Prop
  | .duplicate op => fnv1a op ∈ recent opSlots (hashesOf before)
  | .fresh op verdict => fnv1a op ∉ recent opSlots (hashesOf before) ∧ verdict ≠ .duplicate
  | _ => True

def Checked (before : List Turn) : Turn → Prop
  | .served _ _ _ check => check.After before
  | _ => True

/-- The request's id, as the response echoes it. -/
def requestOf (body : Bytes) : RpcId := requestId ((member body "id").getD (Console.utf8 "null"))

/-- What a response may say of the texts in the request. -/
def Apt (body : Bytes) : Reply → Prop
  | .result (.accepted name) => name = ((member (argumentsOf (paramsOf body)) "suite").bind asString).getD []
  | .result (.duplicate op) => op = ((member (paramsOf body) "opId").bind asString).getD []
  | .result (.processes rows) => ∀ row ∈ rows, ∃ image : ImageId, row.2.1 = images.get image
  | _ => True

/-- A response to this request: a whole one, or the fixed error in place of one too
large for a frame. -/
def Answers (body : Bytes) (what : Emission) : Prop :=
  ∃ serial reply, Apt body reply ∧
    (((Event.rpc (requestOf body) reply).frameBuf (idOf serial)).overflow = false ∧
        what = .frame serial (.rpc (requestOf body) reply) ∨
      ((Event.rpc (requestOf body) reply).frameBuf (idOf serial)).overflow = true ∧ what = .frame serial .rpcTooLarge)

/-- What has been read and done in a turn that is still going on. -/
structure Draft where
  notes : List Note
  bytes : Bytes
  ops : List Bytes
  replies : List Emission

namespace Draft

def blank : Draft := { notes := [], bytes := [], ops := [], replies := [] }
def note (draft : Draft) (note : Note) : Draft := { draft with notes := draft.notes ++ [note] }
def take (draft : Draft) (bytes : Bytes) : Draft := { draft with bytes := draft.bytes ++ bytes }
def record (draft : Draft) (op : Bytes) : Draft := { draft with notes := draft.notes ++ [.recorded op], ops := draft.ops ++ [op] }
def reply (draft : Draft) (what : Emission) : Draft := { draft with replies := draft.replies ++ [what] }

/-- The id check has let the request through. -/
def asked (draft : Draft) : Option Bytes → Draft
  | none => draft
  | some op => draft.record op

/-- The whole of a check. -/
def checked (draft : Draft) (check : Check) : Draft :=
  { draft with notes := draft.notes ++ check.notes, ops := draft.ops ++ check.recorded }

/-- Bytes read inside a frame. -/
def framed (draft : Draft) (bytes : Bytes) : Draft :=
  { draft with notes := draft.notes ++ bytes.map (.used .request .framed), bytes := draft.bytes ++ bytes }

end Draft

/-- The records of the control plane, by the turns behind it and the one going on. -/
structure Amid (build : Build) (turns : List Turn) (draft : Draft) (state : State) : Prop where
  journal : state.core.journal = turns.flatMap Turn.notes ++ draft.notes
  read : state.env.read = turns.flatMap Turn.bytes ++ draft.bytes
  formed : ∀ turn ∈ turns, turn.Formed build
  replies : ∃ settled, List.Forall₂ Answers (turns.filterMap Turn.body) settled ∧
    repliesOf state.env.log = settled ++ draft.replies
  ring : Remembers 0 (hashesOf turns ++ draft.ops.map fnv1a) state.core.opIds
  slots : state.core.opIds.length = opSlots
  head : state.core.opHead = (hashesOf turns).length + draft.ops.length
  checked : EachFollows Checked turns

theorem Amid.unrecorded {draft : Draft} (amid : Amid build turns draft state) (same : Unrecorded state state') :
    Amid build turns draft state' where
  journal := same.core.journal.trans amid.journal
  read := same.read.trans amid.read
  formed := amid.formed
  replies := by
    rw [same.replies]
    exact amid.replies
  ring := by
    rw [same.core.opIds]
    exact amid.ring
  slots := (congrArg List.length same.core.opIds).trans amid.slots
  head := same.core.opHead.trans amid.head
  checked := amid.checked

/-- The key flag, as long as the scheduler's service loop, which ignores it, has read nothing. -/
def Keyed (turns : List Turn) (pending : Bool) : Prop :=
  (∀ turn ∈ turns, turn.reader ≠ .service) → pending = pendingAfter turns ∧ EachFollows Paired turns

theorem Keyed.concat {pending pending' : Bool} {turn : Turn} (keyed : Keyed turns pending)
    (last : turn.reader ≠ .service → pending = pendingAfter turns → pending' = turn.isLead ∧ Paired turns turn) :
    Keyed (turns ++ [turn]) pending' := by
  intro plain
  obtain ⟨flag, paired⟩ := keyed fun other member => plain other (List.mem_append_left _ member)
  obtain ⟨next, here⟩ := last (plain turn (by simp)) flag
  rw [pendingAfter_concat]
  exact ⟨next, paired.concat here⟩

section Stack

/-- The active calls of `run` for the current suite, of which all but the innermost
have seen a payload fail to load. -/
structure Stacked (slack : Nat) (core : Core) : Prop where
  bounded : core.stack.count (.run core.ledger.suite) ≤ core.ledger.starts.length + slack
  known : ∀ suite, .run suite ∈ core.stack → suite ≤ core.ledger.suite

def Call.isOld (suite : Nat) : Call → Bool
  | .run other => other ≠ suite
  | _ => false

/-- The active calls of `run` for earlier suites. -/
def oldRuns (core : Core) : Nat := core.stack.countP (·.isOld core.ledger.suite)

/-- Only a seed makes calls old, and it makes none. -/
def Nests (core core' : Core) : Prop :=
  core'.ledger.suite = core.ledger.suite ∧ oldRuns core' ≤ oldRuns core ∨
    core'.ledger.suite ≠ core.ledger.suite ∧ core'.stack = core.stack

theorem Nests.of_same (stack : core'.stack = core.stack) (suite : core'.ledger.suite = core.ledger.suite) : Nests core core' := by
  refine .inl ⟨suite, ?_⟩
  rw [oldRuns, oldRuns, stack, suite]

theorem Stacked.weaken (stacked : Stacked 0 core) : Stacked 1 core := ⟨stacked.bounded.trans (Nat.le_succ _), stacked.known⟩

theorem Stacked.same {slack : Nat} (stacked : Stacked slack core) (stack : core'.stack = core.stack)
    (suite : core'.ledger.suite = core.ledger.suite) (starts : core.ledger.starts.length ≤ core'.ledger.starts.length) :
    Stacked slack core' := by
  refine ⟨?_, fun other member => ?_⟩
  · rw [stack, suite]
    exact stacked.bounded.trans (Nat.add_le_add_right starts slack)
  · rw [suite]
    exact stacked.known other (stack ▸ member)

theorem Stacked.record {slack : Nat} (stacked : Stacked slack core) (same : SameRecord core core') : Stacked slack core' :=
  stacked.same same.stack same.suite same.timed.starts.length_le

/-- A call of anything but `run`. -/
theorem Stacked.call {slack : Nat} (stacked : Stacked slack core) {call : Call} (plain : ∀ suite, call ≠ .run suite) :
    Stacked slack (core.call call) ∧ Nests core (core.call call) := by
  refine ⟨⟨?_, fun suite member => ?_⟩, .inl ⟨rfl, ?_⟩⟩
  · change (call :: core.stack).count _ ≤ _
    rw [List.count_cons_of_ne (plain _)]
    exact stacked.bounded
  · rcases List.mem_cons.mp member with rfl | old
    · exact absurd rfl (plain suite)
    · exact stacked.known suite old
  · change (call :: core.stack).countP _ ≤ _
    rw [List.countP_cons_of_neg]
    · exact Nat.le_refl _
    · cases call with
      | run suite => exact absurd rfl (plain suite)
      | _ => exact Bool.false_ne_true

/-- The return of a call. -/
theorem Stacked.return {slack : Nat} (stacked : Stacked slack core) :
    Stacked slack core.return ∧ Nests core core.return := by
  have fewer : core.stack.tail.Sublist core.stack := List.tail_sublist _
  refine ⟨⟨(fewer.count_le _).trans stacked.bounded, fun suite member => stacked.known suite (fewer.subset member)⟩, ?_⟩
  exact .inl ⟨rfl, fewer.countP_le⟩

/-- A call of `run`. -/
theorem Stacked.run (stacked : Stacked 0 core) : Stacked 1 (core.call (.run core.ledger.suite)) ∧
    Nests core (core.call (.run core.ledger.suite)) := by
  refine ⟨⟨?_, fun suite member => ?_⟩, .inl ⟨rfl, ?_⟩⟩
  · change (Call.run core.ledger.suite :: core.stack).count (.run core.ledger.suite) ≤ _
    rw [List.count_cons_self]
    exact Nat.succ_le_succ stacked.bounded
  · rcases List.mem_cons.mp member with same | old
    · exact Nat.le_of_eq (Call.run.inj same)
    · exact stacked.known suite old
  · change (Call.run _ :: core.stack).countP _ ≤ _
    rw [List.countP_cons_of_neg]
    · exact Nat.le_refl _
    · simp [Core.call, Call.isOld]

/-- The stack a redirection to the scheduler leaves. -/
theorem Stacked.reset (core : Core) : Stacked 0 { core with stack := [] } ∧ Nests core { core with stack := [] } :=
  ⟨⟨by simp, nofun⟩, .inl ⟨rfl, Nat.zero_le _⟩⟩

end Stack

section Rules

/-- What ticks and the serial line do while nobody is current. -/
structure Undisturbed (state state' : State) : Prop where
  core : state'.core = state.core
  read : state'.env.read = state.env.read
  replies : repliesOf state'.env.log = repliesOf state.env.log

theorem Undisturbed.refl (state : State) : Undisturbed state state := ⟨rfl, rfl, rfl⟩

theorem Undisturbed.trans {state'' : State} (left : Undisturbed state state') (right : Undisturbed state' state'') :
    Undisturbed state state'' :=
  ⟨right.core.trans left.core, right.read.trans left.read, right.replies.trans left.replies⟩

theorem Undisturbed.unrecorded (undisturbed : Undisturbed state state') : Unrecorded state state' :=
  ⟨undisturbed.core ▸ .refl _, undisturbed.read, undisturbed.replies⟩

/-- The rules for kernel code, as far as the records go. -/
def lineRules : Rules State where
  valid state := Stacked 1 state.core
  interference := Undisturbed
  guarantee state state' := Nests state.core state'.core

/-- An assertion about the records only. -/
def OnRecord (P : State → Prop) : Prop := ∀ state state', Unrecorded state state' → P state → P state'

/-- In the middle of a turn. -/
structure Drafting (build : Build) (turns : List Turn) (draft : Draft) (state : State) : Prop where
  amid : Amid build turns draft state
  stacked : Stacked 1 state.core
  unstashed : state.core.stashedByte = none
  keyed : Keyed turns state.core.keyPending

variable {α : Type} {program : Kernel α} {P : State → Prop} {draft : Draft}

theorem drafting_onRecord : OnRecord (Drafting build turns draft) :=
  fun _ _ same holds => ⟨holds.amid.unrecorded same, holds.stacked.record same.core, same.core.stashedByte.trans holds.unstashed,
    same.core.keyPending ▸ holds.keyed⟩

theorem OnRecord.stable (onRecord : OnRecord P) (state state' : State) (undisturbed : Undisturbed state state') (holds : P state) :
    P state' := onRecord state state' undisturbed.unrecorded holds

/-- Code that leaves the records alone. -/
theorem OnRecord.runs (onRecord : OnRecord P) (stacked : ∀ state, P state → Stacked 1 state.core)
    (within : Within Unnoticed program) : Runs lineRules P program fun _ => P :=
  within.unrecorded.runs onRecord onRecord.stable stacked fun _ _ same => .of_same same.core.stack same.core.suite

theorem drafting_within (within : Within Unnoticed program) :
    Runs lineRules (Drafting build turns draft) program fun _ => Drafting build turns draft :=
  drafting_onRecord.runs (fun _ holds => holds.stacked) within

/-- One action on the records, after which an assertion about them holds. -/
theorem act_line {action : State → α × State} {Q : α → State → Prop} (onRecord : ∀ value, OnRecord (Q value))
    (stacked : ∀ state, P state → Stacked 1 state.core)
    (step : ∀ state, P state → Nests state.core (action state).2.core ∧ Q (action state).1 (action state).2) :
    Runs lineRules P (Program.modifyGet action) Q :=
  .modifyGet fun state holds =>
    ⟨stacked state holds, (step state holds).1, fun later moves => (onRecord _).stable _ later moves (step state holds).2⟩

theorem choose_line {ι : Type} {P : ι → State → Prop} {Q : α → State → Prop} (onRecord : ∀ index, OnRecord (P index))
    (runs : ∀ index, Runs lineRules (P index) program Q) : Runs lineRules (fun state => ∃ index, P index state) program Q :=
  .choose Undisturbed.refl (fun index => (onRecord index).stable) runs

end Rules

end Kernai
