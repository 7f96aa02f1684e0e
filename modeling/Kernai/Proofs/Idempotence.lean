import Kernai.Proofs.Chronicle
import Kernai.Proofs.Service

/-! Operation ids over whole runs: whom the idempotency check lets through, and what a
`duplicate` stands for. -/

namespace Kernai
open Foundation Program Kernel Console Payload Rpc Json Machine

variable {build : Build} {core core' : Core} {state : State} {body op : Bytes} {turns : List Turn} {config : Config}

section Recorded

def Note.recordedOp : Note → Option Bytes
  | .recorded op => some op
  | _ => none

/-- The operation ids recorded, oldest first. -/
def recordedOps (journal : List Note) : List Bytes := journal.filterMap Note.recordedOp

theorem recordedOps_append (journal more : List Note) : recordedOps (journal ++ more) = recordedOps journal ++ recordedOps more :=
  List.filterMap_append

theorem recordedOps_frameNotes (reader : Reader) (inside : Bytes) : recordedOps (Turn.frameNotes reader inside) = [] := by
  simp [recordedOps, Turn.frameNotes, Note.recordedOp, List.filterMap_map, Function.comp_def]

theorem Turn.recordedOps_notes (turn : Turn) : recordedOps turn.notes = turn.recorded := by
  cases turn with
  | key reader use byte => rfl
  | command reader byte => rfl
  | stalled reader inside => exact (recordedOps_append _ _).trans (by rw [recordedOps_frameNotes]; rfl)
  | dropped reader inside => exact recordedOps_frameNotes reader inside
  | served reader inside body check =>
    refine (recordedOps_append _ _).trans ?_
    rw [recordedOps_frameNotes]
    cases check <;> rfl

theorem recordedOps_turns (turns : List Turn) : recordedOps (turns.flatMap Turn.notes) = turns.flatMap Turn.recorded := by
  induction turns with
  | nil => rfl
  | cons turn turns ih => rw [List.flatMap_cons, recordedOps_append, ih, turn.recordedOps_notes, List.flatMap_cons]

/-- No id is recorded while its hash is among the last ones recorded. -/
theorem Chronicle.fresh (chronicle : Chronicle build turns state) :
    EachFollows (fun before op => fnv1a op ∉ (recent opSlots before).map fnv1a) (recordedOps state.core.journal) := by
  intro before op after split
  obtain ⟨rest, isRest⟩ := chronicle.journal
  have whole : turns.flatMap Turn.recorded = before ++ op :: (after ++ recordedOps rest) := by
    rw [← recordedOps_turns, ← isRest, recordedOps_append, split, List.append_assoc, List.cons_append]
  obtain ⟨earlier, turn, later, front, back, rfl, inside, rfl⟩ := flatMap_split whole
  have checked := chronicle.checked earlier turn later rfl
  cases turn with
  | served reader frame body check =>
    cases check with
    | fresh other verdict =>
      obtain ⟨rfl, rfl, -⟩ : front = [] ∧ op = other ∧ back = [] := by
        simpa [Turn.recorded, Check.recorded, List.cons_eq_append_iff] using inside
      rw [List.append_nil, ← recent_map]
      exact checked.1
    | _ => simp [Turn.recorded, Check.recorded] at inside
  | _ => simp [Turn.recorded] at inside

theorem Check.answered {check : Check} {front back : List Note} {verdict : Verdict}
    (split : check.notes = front ++ .answered (some op) verdict :: back) :
    check = .duplicate op ∧ verdict = .duplicate ∧ front = [] ∨ check = .fresh op verdict ∧ front = [.recorded op] := by
  cases check with
  | unasked => simp [Check.notes] at split
  | free other => simp [Check.notes, List.cons_eq_append_iff] at split
  | duplicate other =>
    obtain ⟨rfl, ⟨rfl, rfl⟩, -⟩ : front = [] ∧ (op = other ∧ verdict = .duplicate) ∧ back = [] := by
      simpa [Check.notes, List.cons_eq_append_iff] using split
    exact .inl ⟨rfl, rfl, rfl⟩
  | fresh other ruling =>
    rcases front with _ | ⟨first, _ | ⟨second, front⟩⟩
    · simp [Check.notes] at split
    · obtain ⟨rfl, rfl, rfl, -⟩ : first = .recorded other ∧ other = op ∧ ruling = verdict ∧ back = [] := by
        simpa [Check.notes, and_assoc, eq_comm] using split
      exact .inr ⟨rfl, rfl⟩
    · simp [Check.notes] at split

/-- The notes of a turn with an answer to a request that had an id. -/
theorem Turn.answered {turn : Turn} {front back : List Note} {verdict : Verdict}
    (split : turn.notes = front ++ .answered (some op) verdict :: back) :
    ∃ reader inside body check, turn = .served reader inside body check ∧
      (check = .duplicate op ∧ verdict = .duplicate ∧ recordedOps front = [] ∨
        check = .fresh op verdict ∧ ∃ lead, front = lead ++ [.recorded op] ∧ recordedOps lead = []) := by
  have member : Note.answered (some op) verdict ∈ turn.notes := by
    rw [split]
    simp
  cases turn with
  | served reader inside body check =>
    refine ⟨reader, inside, body, check, rfl, ?_⟩
    have before : Note.answered (some op) verdict ∉ Turn.frameNotes reader inside ++ [.dispatched body] := by
      simp [Turn.frameNotes]
    have none : recordedOps (Turn.frameNotes reader inside ++ [.dispatched body]) = [] := by
      rw [recordedOps_append, recordedOps_frameNotes]
      rfl
    rw [Turn.notes, List.append_cons] at split
    obtain ⟨rest, rfl, ruled⟩ := append_split before split
    rcases Check.answered ruled with ⟨rfl, rfl, rfl⟩ | ⟨rfl, rfl⟩
    · refine .inl ⟨rfl, rfl, ?_⟩
      rw [List.append_nil]
      exact none
    · exact .inr ⟨rfl, _, rfl, none⟩
  | _ => simp [Turn.notes, Turn.frameNotes] at member

/-- How a request with an id is answered, by the ids recorded before it. -/
theorem Chronicle.answered (chronicle : Chronicle build turns state) {before after : List Note} {verdict : Verdict}
    (split : state.core.journal = before ++ .answered (some op) verdict :: after) :
    if verdict = .duplicate then fnv1a op ∈ recent opSlots ((recordedOps before).map fnv1a)
    else ∃ earlier, before = earlier ++ [.recorded op] ∧ fnv1a op ∉ recent opSlots ((recordedOps earlier).map fnv1a) := by
  obtain ⟨rest, isRest⟩ := chronicle.journal
  rw [split, List.append_assoc, List.cons_append] at isRest
  obtain ⟨earlier, turn, later, front, back, rfl, inside, rfl⟩ := flatMap_split isRest.symm
  have checked := chronicle.checked earlier turn later rfl
  obtain ⟨reader, frame, body, check, rfl, ⟨rfl, rfl, none⟩ | ⟨rfl, lead, rfl, none⟩⟩ := Turn.answered inside
  · rw [if_pos rfl, recordedOps_append, recordedOps_turns, none, List.append_nil]
    exact checked
  · rw [if_neg checked.2]
    refine ⟨earlier.flatMap Turn.notes ++ lead, (List.append_assoc _ _ _).symm, ?_⟩
    rw [recordedOps_append, recordedOps_turns, none, List.append_nil]
    exact checked.1

/-- An id recorded in earlier turns was answered in them. -/
theorem Chronicle.acknowledged (chronicle : Chronicle build turns state) {before after : List Note}
    (split : state.core.journal = before ++ .answered (some op) .duplicate :: after) :
    ∃ other verdict, fnv1a other = fnv1a op ∧ verdict ≠ .duplicate ∧ .answered (some other) verdict ∈ before := by
  obtain ⟨rest, isRest⟩ := chronicle.journal
  rw [split, List.append_assoc, List.cons_append] at isRest
  obtain ⟨earlier, turn, later, front, back, rfl, inside, rfl⟩ := flatMap_split isRest.symm
  have checked := chronicle.checked earlier turn later rfl
  obtain ⟨reader, frame, body, check, rfl, ⟨rfl, -, -⟩ | ⟨rfl, -⟩⟩ := Turn.answered inside
  · -- the hash was recorded in an earlier turn, which goes on to its answer
    have recorded : fnv1a op ∈ (earlier.flatMap Turn.recorded).map fnv1a := List.mem_of_mem_drop checked
    obtain ⟨other, among, same⟩ := List.mem_map.mp recorded
    obtain ⟨turn', member, here⟩ := List.mem_flatMap.mp among
    obtain ⟨start, stop, rfl⟩ := List.append_of_mem member
    have passed := chronicle.checked start turn' (stop ++ .served reader frame body (.duplicate op) :: later) (by simp)
    cases turn' with
    | served reader' frame' body' check' =>
      cases check' with
      | fresh other' verdict =>
        obtain rfl : other = other' := by simpa [Turn.recorded, Check.recorded] using here
        refine ⟨other, verdict, same, passed.2, List.mem_append_left _ (List.mem_flatMap.mpr ⟨_, member, ?_⟩)⟩
        simp [Turn.notes, Check.notes]
      | _ => simp [Turn.recorded, Check.recorded] at here
    | _ => simp [Turn.recorded] at here
  · exact absurd rfl checked.2

end Recorded

section Served

variable {reply : Reply} {next : Option Next} {after : Core} {added : List Note}

/-- The check leaves the table alone, and the record as well unless it lets an id through. -/
theorem opSeen_passes {op : Option Bytes} (unseen : (opSeen op core).1 = false) :
    (opSeen op core).2.table = core.table ∧ (opSeen op core).2.journal = core.journal ++ (op.map Note.recorded).toList := by
  cases op with
  | none => exact ⟨rfl, (List.append_nil _).symm⟩
  | some op =>
    simp only [opSeen] at unseen ⊢
    split at unseen
    · cases unseen
    · next missing =>
      rw [if_neg missing]
      exact ⟨rfl, rfl⟩

/-- What serving a request adds to the journal, and what that says about the rest. -/
inductive Added (build : Build) (body : Bytes) (core : Core) (reply : Reply) (next : Option Next) (after : Core) : List Note → Prop
  | nothing (table : after.table = core.table) (ids : after.opIds = core.opIds) (head : after.opHead = core.opHead) :
      Added build body core reply next after []
  | replay (op : Bytes) (table : after.table = core.table) (ids : after.opIds = core.opIds) (head : after.opHead = core.opHead) :
      Added build body core reply next after [.answered (some op) .duplicate]
  | done {result : Result} (isReply : reply = .result result) (effect : Effect build body core result next after) :
      Added build body core reply next after (((opOf body).map Note.recorded).toList ++ [.answered (opOf body) .done])
  | refused (reason : String) (isReply : reply = .error (-32602) reason) (table : after.table = core.table) :
      Added build body core reply next after (((opOf body).map Note.recorded).toList ++ [.answered (opOf body) .refused])

theorem Outcome.adds (outcome : Outcome build body core reply next after) (grown : after.journal = core.journal ++ added) :
    Added build body core reply next after added := by
  cases outcome with
  | told reply =>
    rw [List.append_right_eq_self.mp grown.symm]
    exact .nothing rfl rfl rfl
  | dialled reply classicSurface autonomous =>
    rw [List.append_right_eq_self.mp grown.symm]
    exact .nothing rfl rfl rfl
  | replayed op isOp seen =>
    rw [← List.append_cancel_left grown]
    exact .replay op rfl rfl rfl
  | passed unseen ruling =>
    obtain ⟨table, journal⟩ := opSeen_passes unseen
    cases ruling with
    | done effect same =>
      have notes : _ ++ [Note.answered (opOf body) .done] = core.journal ++ added := grown
      rw [same.journal, journal, List.append_assoc] at notes
      rw [← List.append_cancel_left notes]
      exact .done rfl (effect.congr table rfl)
    | refused reason =>
      have notes : _ ++ [Note.answered (opOf body) .refused] = core.journal ++ added := grown
      rw [journal, List.append_assoc] at notes
      rw [← List.append_cancel_left notes]
      exact .refused reason rfl table

end Served

def Note.answerOf : Note → Option (Option Bytes × Verdict)
  | .answered op verdict => some (op, verdict)
  | _ => none

def killFirst : String :=
  "\x7b\"method\":\"tools/call\",\"params\":\x7b\"name\":\"kill\",\"opId\":\"a\",\"arguments\":\x7b\"pid\":0\x7d\x7d\x7d"

/-- A kill comes too early and is refused; when its target is waiting, the retry is taken
for a replay. -/
def retried : Script bareBuild anyMove (boot bareBuild) fun config =>
    config.state.core.journal.filterMap Note.answerOf = [(some (utf8 "a"), .refused), (some (utf8 "a"), .duplicate)] ∧
      (config.state.core.table pid0).state = .pending where
  moves := request killFirst ++ handOvers 1 ++ startSuite ++ request killFirst ++ [.userTick] ++ handOvers 2
  passes := by decide +kernel

theorem retried_split : ∃ before after,
    retried.config.state.core.journal = before ++ .answered (some (utf8 "a")) .duplicate :: after := by
  have answers := retried.tested.1
  have member : ((some (utf8 "a"), .duplicate) : Option Bytes × Verdict) ∈
      retried.config.state.core.journal.filterMap Note.answerOf := by
    rw [answers]
    exact .tail _ (.head _)
  obtain ⟨entry, among, isAnswer⟩ := List.mem_filterMap.mp member
  cases entry with
  | answered op verdict =>
    cases isAnswer
    exact List.append_of_mem among
  | _ => cases isAnswer

/-- What a `duplicate` stands for: an earlier request whose id has the same hash was let through
and answered. A tool that is let through does what it says or is refused, which leaves the table
as it was but not the record; a request that does not get that far leaves both. -/
theorem duplicate_acknowledges (reached : Reachable build anyStep config) :
    (∀ before op after, config.state.core.journal = before ++ .answered (some op) .duplicate :: after →
      ∃ other verdict, fnv1a other = fnv1a op ∧ verdict ≠ .duplicate ∧ .answered (some other) verdict ∈ before) ∧
    ∀ body state added, ((dispatch build body).run state).2.core.journal = state.core.journal ++ added →
      (∀ op, .answered op .done ∈ added → ∃ result,
        Effect build body state.core result ((dispatch build body).run state).1 ((dispatch build body).run state).2.core ∧
        Replies (requestOf body) (.result result) state ((dispatch build body).run state).2) ∧
      (∀ op, .answered op .refused ∈ added → Refused (requestOf body) state ((dispatch build body).run state).2) ∧
      ((∀ op verdict, verdict ≠ .duplicate → .answered op verdict ∉ added) →
        ((dispatch build body).run state).2.core.table = state.core.table ∧
        ((dispatch build body).run state).2.core.opIds = state.core.opIds ∧
        ((dispatch build body).run state).2.core.opHead = state.core.opHead) := by
  refine ⟨fun before op after split => ?_, fun body state added grown => ?_⟩
  · obtain ⟨turns, chronicle⟩ := reached.chronicle
    exact chronicle.acknowledged split
  · obtain ⟨reply, outcome, replies⟩ := dispatch_responds build body state
    cases outcome.adds grown with
    | nothing table ids head => exact ⟨nofun, nofun, fun _ => ⟨table, ids, head⟩⟩
    | replay op table ids head => exact ⟨by simp, by simp, fun _ => ⟨table, ids, head⟩⟩
    | done isReply effect =>
      subst isReply
      refine ⟨fun _ _ => ⟨_, effect, replies⟩, by simp, fun unruled => ?_⟩
      exact absurd (by simp) (unruled (opOf body) .done nofun)
    | refused reason isReply table =>
      subst isReply
      refine ⟨by simp, fun _ _ => ⟨table, reason, replies⟩, fun unruled => ?_⟩
      exact absurd (by simp) (unruled (opOf body) .refused nofun)

theorem duplicate_acknowledges_retried : ∃ other verdict, fnv1a other = fnv1a (utf8 "a") ∧ verdict ≠ .duplicate ∧
    .answered (some other) verdict ∈ retried.config.state.core.journal := by
  obtain ⟨before, after, split⟩ := retried_split
  obtain ⟨other, verdict, same, ruled, earlier⟩ :=
    (duplicate_acknowledges (retried.reachable anyMove_sound)).1 _ _ _ split
  exact ⟨other, verdict, same, ruled, split ▸ List.mem_append_left _ earlier⟩

end Kernai
