import Kernai.Proofs.Chronicle
import Kernai.Proofs.Objects

/-! Requests and their responses over whole runs: each request handed to `dispatch` gets one
response, in order, and the response is a JSON object under the request's id. -/

namespace Kernai
open Foundation Utf8 Rfc8259 Program Kernel Console Payload Rpc Machine

variable {build : Build} {state : State} {config : Config} {body : Bytes} {turns base new : List Turn} {home : Prop}

section Dispatched

def Note.dispatchedBody : Note → Option Bytes
  | .dispatched body => some body
  | _ => none

/-- The requests handed to `dispatch`, oldest first. -/
def dispatchedIn (journal : List Note) : List Bytes := journal.filterMap Note.dispatchedBody

theorem dispatchedIn_append (journal more : List Note) : dispatchedIn (journal ++ more) = dispatchedIn journal ++ dispatchedIn more :=
  List.filterMap_append

theorem dispatchedIn_frameNotes (reader : Reader) (inside : Bytes) : dispatchedIn (Turn.frameNotes reader inside) = [] := by
  simp [dispatchedIn, Turn.frameNotes, Note.dispatchedBody]

theorem Turn.dispatchedIn_notes (turn : Turn) : dispatchedIn turn.notes = turn.body.toList := by
  cases turn with
  | key reader use byte => rfl
  | command reader byte => rfl
  | stalled reader inside => exact (dispatchedIn_append _ _).trans (by rw [dispatchedIn_frameNotes]; rfl)
  | dropped reader inside => exact dispatchedIn_frameNotes reader inside
  | served reader inside body check =>
    refine (dispatchedIn_append _ _).trans ?_
    rw [dispatchedIn_frameNotes]
    cases check <;> rfl

theorem dispatchedIn_turns (turns : List Turn) : dispatchedIn (turns.flatMap Turn.notes) = turns.filterMap Turn.body := by
  induction turns with
  | nil => rfl
  | cons turn turns ih =>
    rw [List.flatMap_cons, dispatchedIn_append, ih, turn.dispatchedIn_notes, List.filterMap_cons]
    cases turn.body <;> rfl

/-- Requests and responses between two turns. -/
structure Conversed (state : State) : Prop where
  answered : List.Forall₂ Answers (dispatchedIn state.core.journal) (repliesOf state.env.log)
  acceptable : ∀ body ∈ dispatchedIn state.core.journal, Acceptable body

theorem Turned.conversed {slack : Nat} {stash : Option UInt8} (turned : Turned build base home slack stash new state) :
    Conversed state := by
  have bodies : dispatchedIn state.core.journal = (base ++ new).filterMap Turn.body := by
    rw [turned.amid.journal, show (Draft.stashed stash).notes = [] from rfl, List.append_nil, dispatchedIn_turns]
  obtain ⟨settled, answered, log⟩ := turned.amid.replies
  rw [show (Draft.stashed stash).replies = [] from rfl, List.append_nil] at log
  refine ⟨?_, fun body member => ?_⟩
  · rw [bodies, log]
    exact answered
  · rw [bodies] at member
    obtain ⟨turn, among, isBody⟩ := List.mem_filterMap.mp member
    have formed := turned.amid.formed turn among
    cases turn with
    | served reader inside other check =>
      cases isBody
      cases formed with
      | mk lenb four isInside length good accepted => exact accepted
    | _ => cases isBody

/-- Not inside a piece of kernel code. -/
def Hart.isHanded : Hart → Bool
  | .kernel (.act _ _) => false
  | _ => true

/-- The state in which the hart is next between two turns, if no interrupt comes first. -/
def Config.settled (config : Config) : State :=
  match config.hart with
  | .kernel program => (program.run config.state).2
  | _ => config.state

theorem Machine.Reachable.conversed (reached : Reachable build anyStep config) :
    Conversed config.settled ∧ Grows config.state config.settled := by
  have line := reached.line
  unfold Config.settled
  cases isHart : config.hart with
  | user context =>
    rw [isHart] at line
    obtain ⟨new, -, turned⟩ := line
    exact ⟨turned.conversed, .refl _⟩
  | off =>
    rw [isHart] at line
    obtain ⟨new, -, turned⟩ := line
    exact ⟨turned.conversed, .refl _⟩
  | kernel program =>
    rw [isHart] at line
    have ready : LineReady build [] True _ _ := Safe.run Undisturbed.refl line
    obtain ⟨slack, stash, new, turned⟩ := ready.turned
    exact ⟨turned.conversed, (reached.lawful.running program isHart).grows config.state⟩

end Dispatched

section Ids

open Json

/-- Ids that come back as they are: integers as JSON spells them, and strings of at most 64
characters with nothing in them to escape. -/
inductive SimpleId : Bytes → Value → Prop
  | integer {minus int : Bytes} (sign : minus = [] ∨ minus = [0x2d]) (isInt : IsInt int) :
      SimpleId (minus ++ int) (.number (minus ++ int))
  | text (characters : List Char) (short : characters.length ≤ maxId)
      (plain : ∀ c ∈ characters, 0x20 ≤ c.toNat ∧ c ≠ '"' ∧ c ≠ '\\') :
      SimpleId (quoted (encode characters)) (.string (characters.flatMap utf16))

theorem chars_plain {characters : List Char} (plain : ∀ c ∈ characters, 0x20 ≤ c.toNat ∧ c ≠ '"' ∧ c ≠ '\\') :
    Chars (encode characters) (characters.flatMap utf16) := by
  induction characters with
  | nil => exact .nil
  | cons c characters ih =>
    obtain ⟨visible, noQuote, noBackslash⟩ := plain c (.head _)
    exact .plain c visible noQuote noBackslash (ih fun other member => plain other (.tail _ member))

theorem asString_chars {raw : Bytes} {units : List UInt16} (chars : Chars raw units) : asString (quoted raw) = some raw := by
  have here : At (quoted raw) 1 (raw ++ [0x22]) := (At.start (quoted raw)).next
  have stop : (quoted raw).length - 1 = 1 + raw.length := by
    simp only [quoted, List.length_cons, List.length_append, List.length_nil]
    omega
  have last : at' (quoted raw) ((quoted raw).length - 1) = 0x22 := by
    rw [stop]
    exact here.skip.byte
  unfold asString
  rw [if_pos ⟨by simp [quoted], rfl, last⟩, stop]
  exact slice_at here (chars_lead chars) (Sharp.lead (by decide))

theorem integer_isNumber {minus int : Bytes} (sign : minus = [] ∨ minus = [0x2d]) (isInt : IsInt int) : IsNumber (minus ++ int) :=
  ⟨minus, int, [], [], sign, isInt, .inl rfl, .inl rfl, by simp⟩

theorem requestId_integer {minus int : Bytes} (sign : minus = [] ∨ minus = [0x2d]) (isInt : IsInt int) :
    requestId (minus ++ int) = .integer (minus ++ int) := by
  have trimmed : trim (minus ++ int) = minus ++ int := by
    simpa [Blank.none] using trim_shape (reads_shape (.number (integer_isNumber sign isInt))) .none
  obtain ⟨⟨some, digits⟩, -⟩ := isInt
  obtain ⟨first, rest, rfl⟩ := List.exists_cons_of_ne_nil some
  obtain ⟨low, high⟩ := digits first (.head _)
  have all : (first :: rest).all isDigit = true := by
    rw [List.all_eq_true]
    intro byte member
    obtain ⟨low, high⟩ := digits byte member
    simp [isDigit, low, high]
  have noString : asString (minus ++ first :: rest) = none := by
    unfold asString
    refine if_neg fun quoted => ?_
    obtain ⟨-, opens, -⟩ := quoted
    rcases sign with rfl | rfl
    · have quote : first = 0x22 := opens
      subst quote
      exact absurd low (by decide)
    · have quote : (0x2d : UInt8) = 0x22 := opens
      exact absurd quote (by decide)
  unfold requestId
  dsimp only
  rw [trimmed, noString]
  rcases sign with rfl | rfl
  · have noSign : first ≠ 0x2d := by
      rintro rfl
      exact absurd low (by decide)
    simp [noSign, all]
  · simp [all]

/-- A simple id is echoed with its own value. -/
theorem SimpleId.echoes {text : Bytes} {value : Value} (simple : SimpleId text value) : Echoes (requestId text) value := by
  cases simple with
  | integer sign isInt =>
    rw [requestId_integer sign isInt]
    exact .integer (integer_isNumber sign isInt)
  | text characters short plain =>
    have chars := chars_plain plain
    have trimmed : trim (quoted (encode characters)) = quoted (encode characters) := by
      simpa [Blank.none] using trim_shape (reads_shape (.string chars)) .none
    have isText : requestId (quoted (encode characters)) = .text (encode characters) := by
      unfold requestId
      dsimp only
      rw [trimmed, asString_chars chars]
    rw [isText]
    have echoes := Echoes.text characters
    rwa [List.take_of_length_le short] at echoes

/-- The id of a well-formed request. -/
theorem requestOf_object {members : List Member} {first : Member} (object : IsObject body members) (small : body.length < 2 ^ 32)
    (found : members.find? (·.key = utf8 "id") = some first) : requestOf body = requestId first.item.text := by
  rw [requestOf, Rpc.member, objectGet_members _ object small, found]
  rfl

end Ids

section Results

/-- A response to this request: an object with exactly the members `id`, `type` and `rpc`, the
last with exactly `jsonrpc`, `id` and one of `result` and `error`. It carries the request's id,
unless it stands in for a response that does not fit a frame. -/
def IsResponse (body : Bytes) (what : Emission) : Prop :=
  ∃ serial event, what = .frame serial event ∧
    (event = .rpcTooLarge ∧ (∃ said, Reads (event.text (idOf serial)) (response (idOf serial) .null "error" said)) ∨
      ∃ reply, event = .rpc (requestOf body) reply ∧ ∀ request, Echoes (requestOf body) request →
        ∃ outcome said, (outcome = "result" ∨ outcome = "error") ∧
          Reads (event.text (idOf serial)) (response (idOf serial) request outcome said))

theorem Answers.isResponse {what : Emission} (acceptable : Acceptable body) (answers : Answers body what) : IsResponse body what := by
  obtain ⟨serial, reply, apt, ⟨-, rfl⟩ | ⟨-, rfl⟩⟩ := answers
  · refine ⟨serial, _, rfl, .inr ⟨reply, rfl, fun request echoes => ?_⟩⟩
    exact rpc_reads (validUtf8_isText body acceptable.1) echoes apt (idOf serial)
  · exact ⟨serial, _, rfl, .inl ⟨rfl, rpcTooLarge_reads (idOf serial)⟩⟩

/-- In every state reached, the requests handed to `dispatch` by the time the hart next leaves
kernel code or goes on to its next piece have got one response each, in order: the whole
response, or the fixed error in place of one that does not fit a frame. When the hart is not
inside a piece of kernel code, that is so already. -/
theorem requests_answered (reached : Reachable build anyStep config) :
    List.Forall₂ Answers (dispatchedIn config.settled.core.journal) (repliesOf config.settled.env.log) ∧
      config.state.core.journal <+: config.settled.core.journal ∧
      repliesOf config.state.env.log <+: repliesOf config.settled.env.log ∧
      (config.hart.isHanded = true → config.settled = config.state) := by
  obtain ⟨conversed, grows⟩ := reached.conversed
  refine ⟨conversed.answered, grows.journal, grows.replies, fun handed => ?_⟩
  unfold Config.settled
  split
  · next program isHart =>
    rw [isHart] at handed
    cases program with
    | pure next => rfl
    | act update next => cases handed
  · rfl

def askNothing : String := "\x7b\"id\":\"a\",\"method\":\"none\"\x7d"

/-- One request, for a method there is not. -/
def asked : Script bareBuild anyMove (boot bareBuild) fun config =>
    dispatchedIn config.settled.core.journal = [utf8 askNothing] where
  moves := request askNothing ++ handOvers 1
  passes := by decide +kernel

theorem requests_answered_asked : ∃ what, repliesOf asked.config.settled.env.log = [what] ∧ Answers (utf8 askNothing) what := by
  have answered := (requests_answered (asked.reachable anyMove_sound)).1
  rw [asked.tested] at answered
  cases replied : repliesOf asked.config.settled.env.log with
  | nil => simp [replied] at answered
  | cons what more =>
    rw [replied] at answered
    obtain ⟨answers, none⟩ := List.forall₂_cons.mp answered
    cases none
    exact ⟨what, rfl, answers⟩

/-- Every response is a JSON text with the members the protocol gives it and nothing else, no
matter what the request said, provided its id is no integer with a leading zero; and a simple
id of a well-formed request comes back as it is. -/
theorem responses_are_json (reached : Reachable build anyStep config) :
    List.Forall₂ IsResponse (dispatchedIn config.settled.core.journal) (repliesOf config.settled.env.log) ∧
      ∀ body ∈ dispatchedIn config.settled.core.journal,
        ((requestOf body).Tidy → ∃ request, Echoes (requestOf body) request) ∧
        ∀ members first, IsObject body members → body.length < 2 ^ 32 → members.find? (·.key = utf8 "id") = some first →
          SimpleId first.item.text first.item.value → Echoes (requestOf body) first.item.value := by
  obtain ⟨⟨answered, acceptable⟩, -⟩ := reached.conversed
  refine ⟨?_, fun body member => ⟨fun tidy => ?_, fun members first object small found simple => ?_⟩⟩
  · refine List.forall₂_iff_zip.mpr ⟨answered.length_eq, fun member => ?_⟩
    exact ((List.forall₂_iff_zip.mp answered).2 member).isResponse (acceptable _ (List.of_mem_zip member).1)
  · exact exists_echo (validUtf8_isText body (acceptable body member).1) tidy
  · rw [requestOf_object object small found]
    exact simple.echoes

theorem responses_are_json_asked : ∃ what, what ∈ repliesOf asked.config.settled.env.log ∧ IsResponse (utf8 askNothing) what ∧
    Echoes (requestOf (utf8 askNothing)) (.string (utf16 'a')) := by
  have isResponse := (responses_are_json (asked.reachable anyMove_sound)).1
  rw [asked.tested] at isResponse
  cases replied : repliesOf asked.config.settled.env.log with
  | nil => simp [replied] at isResponse
  | cons what more =>
    rw [replied] at isResponse
    exact ⟨what, .head _, (List.forall₂_cons.mp isResponse).1, .text ['a']⟩

end Results

end Kernai
