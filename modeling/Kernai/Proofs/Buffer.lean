import Mathlib.Data.List.Induction
import Kernai.Foundation.Rfc8259
import Kernai.Proofs.Wire

/-! The frame buffer in the hands of callers that ignore its errors: whatever they write,
and in whatever mix, the frame that goes out is all they wrote or there is none. -/

namespace Kernai.Console

/-- The bytes a call is asked to write. -/
def Call.asked : Call → Bytes
  | .str text => utf8 text
  | .char c => String.utf8EncodeChar c
  | .fmt pieces => (pieces.map utf8).flatten
  | .escaped text => (text.toList.flatMap escapeChar).flatten
  | .escapedBytes bytes => (bytes.flatMap escapeByte).flatten

/-- What a write does to a frame: it adds all the bytes, or it fails because they do not
fit, leaving the frame poisoned with some of them. -/
inductive Fills (frame : FrameBuf) (asked : Bytes) : Bool × FrameBuf → Prop
  | whole (fits : frame.buf.length + asked.length ≤ capacity) :
      Fills frame asked (true, { frame with buf := frame.buf ++ asked })
  | fails (buf : Bytes) (exceeds : capacity < frame.buf.length + asked.length) (within : buf.length ≤ capacity) :
      Fills frame asked (false, { buf, overflow := true })

variable {frame : FrameBuf}

theorem FrameBuf.writeStr_fills (within : frame.buf.length ≤ capacity) (bytes : Bytes) :
    Fills frame bytes (frame.writeStr bytes) := by
  unfold FrameBuf.writeStr
  split
  · next exceeds => exact .fails frame.buf exceeds within
  · next fits => exact .whole (Nat.le_of_not_lt fits)

theorem FrameBuf.attempt_fills (within : frame.buf.length ≤ capacity) (pieces : List Bytes) :
    Fills frame pieces.flatten (frame.attempt pieces) := by
  induction pieces generalizing frame with
  | nil =>
    have whole : Fills frame [] (true, { frame with buf := frame.buf ++ [] }) := .whole (by simpa using within)
    rwa [List.append_nil] at whole
  | cons piece pieces ih =>
    rw [List.flatten_cons, FrameBuf.attempt]
    have first := writeStr_fills within piece
    generalize frame.writeStr piece = result at first
    cases first with
    | fails buf exceeds within =>
      refine .fails buf ?_ within
      rw [List.length_append]
      omega
    | whole fits =>
      have rest : Fills { frame with buf := frame.buf ++ piece } pieces.flatten _ := ih (by simpa using fits)
      dsimp only
      generalize FrameBuf.attempt _ pieces = result at rest ⊢
      cases rest with
      | fails buf exceeds within =>
        refine .fails buf ?_ within
        simpa [Nat.add_assoc] using exceeds
      | whole fits =>
        rw [List.append_assoc]
        refine .whole ?_
        simpa [Nat.add_assoc] using fits

theorem Call.run_fills (call : Call) (within : frame.buf.length ≤ capacity) : Fills frame call.asked (call.run frame) := by
  cases call with
  | str text => exact FrameBuf.writeStr_fills within _
  | char c => exact FrameBuf.writeStr_fills within _
  | fmt pieces => exact FrameBuf.attempt_fills within _
  | escaped text => exact FrameBuf.attempt_fills within _
  | escapedBytes bytes => exact FrameBuf.attempt_fills within _

def asked (calls : List Call) : Bytes := calls.flatMap Call.asked

theorem perform_concat (calls : List Call) (call : Call) : perform (calls ++ [call]) = (call.run (perform calls)).2 := by
  simp [perform]

/-- A frame is what was asked for, or it is poisoned because that does not fit. A poisoned
frame may hold any part of it. -/
structure Keeps (asked : Bytes) (frame : FrameBuf) : Prop where
  within : frame.buf.length ≤ capacity
  clean : frame.overflow = false → frame.buf = asked
  poisoned : frame.overflow = true → capacity < asked.length

theorem Keeps.run {text : Bytes} (keeps : Keeps text frame) (call : Call) :
    Keeps (text ++ call.asked) (call.run frame).2 := by
  have filled := call.run_fills keeps.within
  generalize call.run frame = result at filled
  cases filled with
  | whole fits =>
    refine ⟨by simpa using fits, fun isClean => ?_, fun isPoisoned => ?_⟩
    · exact congrArg (· ++ call.asked) (keeps.clean isClean)
    · have := keeps.poisoned isPoisoned
      rw [List.length_append]
      omega
  | fails buf exceeds within =>
    refine ⟨within, nofun, fun _ => ?_⟩
    rw [List.length_append]
    cases isPoisoned : frame.overflow with
    | true =>
      have := keeps.poisoned isPoisoned
      omega
    | false =>
      rw [keeps.clean isPoisoned] at exceeds
      exact exceeds

theorem perform_keeps (calls : List Call) : Keeps (asked calls) (perform calls) := by
  induction calls using List.reverseRecOn with
  | nil => exact ⟨Nat.zero_le _, fun _ => rfl, nofun⟩
  | append_singleton calls call ih =>
    rw [perform_concat, asked, List.flatMap_append, List.flatMap_singleton]
    exact ih.run call

theorem Keeps.overflow_iff {text : Bytes} (keeps : Keeps text frame) : frame.overflow = true ↔ capacity < text.length := by
  refine ⟨keeps.poisoned, fun exceeds => ?_⟩
  cases isPoisoned : frame.overflow with
  | true => rfl
  | false =>
    have within := keeps.within
    rw [keeps.clean isPoisoned] at within
    omega

/-- A call that answered with an error. -/
def Refused (calls : List Call) : Prop :=
  ∃ before call after, calls = before ++ call :: after ∧ (call.run (perform before)).1 = false

/-- An error is an overflow: either the call before has already failed or this one does. -/
theorem refused_iff (calls : List Call) : Refused calls ↔ (perform calls).overflow = true := by
  constructor
  · rintro ⟨before, call, after, rfl, failed⟩
    have keeps := perform_keeps before
    have filled := call.run_fills keeps.within
    generalize isResult : call.run (perform before) = result at filled failed
    cases filled with
    | whole fits => cases failed
    | fails buf exceeds within =>
      -- from here on the flag stays, whatever fits later
      have poisoned : capacity < (asked (before ++ [call])).length := by
        refine (perform_keeps _).poisoned ?_
        rw [perform_concat, isResult]
      refine (perform_keeps _).overflow_iff.mpr ?_
      rw [show before ++ call :: after = before ++ [call] ++ after by simp, asked, List.flatMap_append, List.length_append]
      exact Nat.lt_add_right _ poisoned
  · intro poisoned
    induction calls using List.reverseRecOn with
    | nil => cases poisoned
    | append_singleton calls call ih =>
      cases already : (perform calls).overflow with
      | true =>
        obtain ⟨before, failing, after, rfl, failed⟩ := ih already
        exact ⟨before, failing, after ++ [call], by simp, failed⟩
      | false =>
        refine ⟨calls, call, [], rfl, ?_⟩
        rw [perform_concat] at poisoned
        have filled := call.run_fills (perform_keeps calls).within
        generalize call.run (perform calls) = result at filled poisoned ⊢
        cases filled with
        | whole fits =>
          rw [already] at poisoned
          cases poisoned
        | fails buf exceeds within => rfl

theorem FrameBuf.emitted_nil_iff (frame : FrameBuf) : frame.emitted = [] ↔ frame.overflow = true := by
  unfold FrameBuf.emitted
  split <;> simp_all [magic]

/-- No truncated frame: `emit` sends the whole of what the calls were asked to write, or, if
one of them did not fit, nothing. -/
theorem emit_all_or_nothing (calls : List Call) :
    ((perform calls).emitted = [] ↔ Refused calls) ∧
    (¬ Refused calls →
      (perform calls).emitted = magic ++ FrameBuf.le32 (asked calls).length ++ asked calls) ∧
    (Refused calls ↔ capacity < (asked calls).length) ∧
    (perform calls).buf.length ≤ capacity ∧
    ((perform calls).overflow = true ↔ (perform calls).emitted = []) := by
  have keeps := perform_keeps calls
  have refused := refused_iff calls
  have sent := FrameBuf.emitted_nil_iff (perform calls)
  refine ⟨sent.trans refused.symm, fun fine => ?_, refused.trans keeps.overflow_iff, keeps.within, sent.symm⟩
  have clean : (perform calls).overflow = false := by
    rw [refused, Bool.not_eq_true] at fine
    exact fine
  unfold FrameBuf.emitted
  rw [clean, keeps.clean clean]
  rfl

section Events

theorem writeHex4_flatten (n : Nat) : (writeHex4 n).flatten = utf8 "\\u" ++ hex4 n := by
  simp [writeHex4, hex4, List.flatten_replicate_singleton]

theorem escapeByte_flatten (byte : UInt8) : (escapeByte byte).flatten = (jsonEscapedBytes [byte]).flatten := by
  simp only [escapeByte, jsonEscapedBytes, List.map_cons, List.map_nil]
  split
  · rfl
  split
  · rfl
  split
  · rfl
  · rw [writeHex4_flatten, List.flatten_singleton]

/-- The bytes past ASCII that spell a character are left alone. -/
theorem jsonEscaped_high {bytes : Bytes} (high : ∀ byte ∈ bytes, 0x80 ≤ byte) : (jsonEscaped bytes).flatten = bytes := by
  have plain : ∀ byte : UInt8, 0x80 ≤ byte → (jsonEscaped [byte]).flatten = [byte] := fun byte => by
    revert byte
    exact fun byte => (show ∀ n : Fin 256, (0x80 : UInt8) ≤ .ofFin n → (jsonEscaped [.ofFin n]).flatten = [.ofFin n] by
      decide +kernel) byte.toFin
  induction bytes with
  | nil => rfl
  | cons byte bytes ih =>
    have rest := ih fun byte member => high byte (List.mem_cons_of_mem _ member)
    have first := plain byte (high byte List.mem_cons_self)
    calc (jsonEscaped (byte :: bytes)).flatten = (jsonEscaped [byte]).flatten ++ (jsonEscaped bytes).flatten := by
          simp [jsonEscaped]
      _ = byte :: bytes := by rw [first, rest]; rfl

/-- The escaper works on characters; on the bytes that spell them it does the same. -/
theorem escapeChar_flatten (c : Char) : (escapeChar c).flatten = (jsonEscaped (String.utf8EncodeChar c)).flatten := by
  by_cases ascii : c.toNat < 0x80
  · have each : ∀ n : Fin 128,
        (escapeChar (.ofNat n)).flatten = (jsonEscaped (String.utf8EncodeChar (.ofNat n))).flatten := by decide +kernel
    simpa only [Char.ofNat_toNat] using each ⟨c.toNat, ascii⟩
  · rcases Foundation.Rfc8259.utf8EncodeChar_shape c with ⟨small, -⟩ | ⟨start, rest, spelled, lead, inner⟩
    · exact absurd small ascii
    have high : ∀ byte ∈ String.utf8EncodeChar c, 0x80 ≤ byte := by
      rw [spelled]
      intro byte member
      rcases List.mem_cons.mp member with rfl | member
      · exact UInt8.le_trans (by decide) lead
      · exact inner byte member
    have plain : ∀ d : Char, d.toNat < 0x80 → c ≠ d := by
      rintro d small rfl
      exact ascii small
    have visible : ¬ c.toNat < 0x20 := by omega
    rw [jsonEscaped_high high]
    simp [escapeChar, plain '"' (by decide), plain '\\' (by decide), plain '\n' (by decide), plain '\r' (by decide),
      plain '\t' (by decide), visible]

theorem escaped_asked (text : String) : (Call.escaped text).asked = (jsonEscaped (utf8 text)).flatten := by
  simp only [Call.asked, utf8]
  induction text.toList with
  | nil => rfl
  | cons c rest ih =>
    have split : ∀ first second : Bytes, (jsonEscaped (first ++ second)).flatten =
        (jsonEscaped first).flatten ++ (jsonEscaped second).flatten := by simp [jsonEscaped]
    rw [List.flatMap_cons, List.flatten_append, List.flatMap_cons, split, ← escapeChar_flatten]
    exact congrArg _ ih

theorem escapedBytes_asked (bytes : Bytes) : (Call.escapedBytes bytes).asked = (jsonEscapedBytes bytes).flatten := by
  simp only [Call.asked]
  induction bytes with
  | nil => rfl
  | cons byte bytes ih =>
    have split : (jsonEscapedBytes (byte :: bytes)).flatten =
        (jsonEscapedBytes [byte]).flatten ++ (jsonEscapedBytes bytes).flatten := by simp [jsonEscapedBytes]
    rw [List.flatMap_cons, List.flatten_append, escapeByte_flatten, split, ih]

/-- So the frame of an event does not depend on how its text is cut into calls. -/
theorem Event.emitted_perform {event : Event} {id : Nat} {calls : List Call} (spells : asked calls = event.text id) :
    (perform calls).emitted = (event.frameBuf id).emitted := by
  have keeps := perform_keeps calls
  rw [spells] at keeps
  by_cases fits : (event.text id).length ≤ capacity
  · have clean : (perform calls).overflow = false := by
      rw [← Bool.not_eq_true, keeps.overflow_iff]
      omega
    rw [Event.frameBuf_fits fits, FrameBuf.emitted, FrameBuf.emitted, clean, keeps.clean clean]
  · have exceeds := Nat.lt_of_not_le fits
    rw [(FrameBuf.emitted_nil_iff _).mpr (keeps.overflow_iff.mpr exceeds),
      (FrameBuf.emitted_nil_iff _).mpr ((event.overflow_iff id).mpr exceeds)]

end Events

end Kernai.Console
