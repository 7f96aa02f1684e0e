import Kernai.Foundation.Utf8
import Kernai.Proofs.Documents
import Kernai.Proofs.LookupBounds

/-! The texts a request carries are UTF-8, and what the kernel writes of them is JSON. -/

namespace Kernai
open Foundation Utf8 Rfc8259 Console Text

variable {bytes rest : Bytes} {b0 b1 b2 b3 : UInt8}

section Validation

theorem exists_char {n : Nat} (valid : n.isValidChar) : ∃ c : Char, c.val.toNat = n :=
  ⟨Char.ofNatAux n valid, rfl⟩

theorem ofNat_eq (byte : UInt8) {n : Nat} (same : n = byte.toNat) : UInt8.ofNat n = byte := by
  rw [same, UInt8.ofNat_toNat]

theorem spelled_one (low : b0 < 0x80) : ∃ c, String.utf8EncodeChar c = [b0] := by
  have low : b0.toNat < 0x80 := low
  obtain ⟨c, isChar⟩ := @exists_char b0.toNat (.inl (by omega))
  refine ⟨c, ?_⟩
  unfold String.utf8EncodeChar
  simp only [isChar]
  rw [if_pos (by omega), UInt8.ofNat_toNat]

theorem spelled_two (lead : 0xC2 ≤ b0) (lead' : b0 ≤ 0xDF) (second : 0x80 ≤ b1) (second' : b1 ≤ 0xBF) :
    ∃ c, String.utf8EncodeChar c = [b0, b1] := by
  have lead : 0xC2 ≤ b0.toNat := lead
  have lead' : b0.toNat ≤ 0xDF := lead'
  have second : 0x80 ≤ b1.toNat := second
  have second' : b1.toNat ≤ 0xBF := second'
  obtain ⟨c, isChar⟩ := @exists_char ((b0.toNat - 0xC0) * 64 + (b1.toNat - 0x80)) (.inl (by omega))
  refine ⟨c, ?_⟩
  unfold String.utf8EncodeChar
  simp only [isChar]
  rw [if_neg (by omega), if_pos (by omega), ofNat_eq b0 (by omega), ofNat_eq b1 (by omega)]

theorem at_least {other tight loose : UInt8} (bound : (if b0 = other then tight else loose) ≤ b1) (le : loose ≤ tight) :
    loose.toNat ≤ b1.toNat ∧ (b0.toNat = other.toNat → tight.toNat ≤ b1.toNat) := by
  split at bound
  · exact ⟨Nat.le_trans le bound, fun _ => bound⟩
  · next differs => exact ⟨bound, fun same => absurd (UInt8.toNat_inj.mp same) differs⟩

theorem at_most {other tight loose : UInt8} (bound : b1 ≤ if b0 = other then tight else loose) (le : tight ≤ loose) :
    b1.toNat ≤ loose.toNat ∧ (b0.toNat = other.toNat → b1.toNat ≤ tight.toNat) := by
  split at bound
  · exact ⟨Nat.le_trans bound le, fun _ => bound⟩
  · next differs => exact ⟨bound, fun same => absurd (UInt8.toNat_inj.mp same) differs⟩

/-- The bounds of the second byte leave out the surrogates and what two bytes can spell. -/
theorem spelled_three (lead : ¬ b0 ≤ 0xDF) (lead' : b0 ≤ 0xEF) (second : (if b0 = 0xE0 then 0xA0 else 0x80) ≤ b1)
    (second' : b1 ≤ if b0 = 0xED then 0x9F else 0xBF) (third : 0x80 ≤ b2) (third' : b2 ≤ 0xBF) :
    ∃ c, String.utf8EncodeChar c = [b0, b1, b2] := by
  have lead : ¬ b0.toNat ≤ 0xDF := lead
  have lead' : b0.toNat ≤ 0xEF := lead'
  have second : 0x80 ≤ b1.toNat ∧ (b0.toNat = 0xE0 → 0xA0 ≤ b1.toNat) := at_least second (by decide)
  have second' : b1.toNat ≤ 0xBF ∧ (b0.toNat = 0xED → b1.toNat ≤ 0x9F) := at_most second' (by decide)
  have third : 0x80 ≤ b2.toNat := third
  have third' : b2.toNat ≤ 0xBF := third'
  obtain ⟨c, isChar⟩ := @exists_char ((b0.toNat - 0xE0) * 4096 + (b1.toNat - 0x80) * 64 + (b2.toNat - 0x80)) (by
    unfold Nat.isValidChar
    omega)
  refine ⟨c, ?_⟩
  unfold String.utf8EncodeChar
  simp only [isChar]
  rw [if_neg (by omega), if_neg (by omega), if_pos (by omega), ofNat_eq b0 (by omega), ofNat_eq b1 (by omega),
    ofNat_eq b2 (by omega)]

/-- And here what three bytes can spell and what is past the last character. -/
theorem spelled_four (lead : ¬ b0 ≤ 0xEF) (lead' : b0 ≤ 0xF4) (second : (if b0 = 0xF0 then 0x90 else 0x80) ≤ b1)
    (second' : b1 ≤ if b0 = 0xF4 then 0x8F else 0xBF) (third : 0x80 ≤ b2) (third' : b2 ≤ 0xBF) (fourth : 0x80 ≤ b3)
    (fourth' : b3 ≤ 0xBF) : ∃ c, String.utf8EncodeChar c = [b0, b1, b2, b3] := by
  have lead : ¬ b0.toNat ≤ 0xEF := lead
  have lead' : b0.toNat ≤ 0xF4 := lead'
  have second : 0x80 ≤ b1.toNat ∧ (b0.toNat = 0xF0 → 0x90 ≤ b1.toNat) := at_least second (by decide)
  have second' : b1.toNat ≤ 0xBF ∧ (b0.toNat = 0xF4 → b1.toNat ≤ 0x8F) := at_most second' (by decide)
  have third : 0x80 ≤ b2.toNat := third
  have third' : b2.toNat ≤ 0xBF := third'
  have fourth : 0x80 ≤ b3.toNat := fourth
  have fourth' : b3.toNat ≤ 0xBF := fourth'
  obtain ⟨c, isChar⟩ := @exists_char
    ((b0.toNat - 0xF0) * 262144 + (b1.toNat - 0x80) * 4096 + (b2.toNat - 0x80) * 64 + (b3.toNat - 0x80)) (by
      unfold Nat.isValidChar
      omega)
  refine ⟨c, ?_⟩
  unfold String.utf8EncodeChar
  simp only [isChar]
  rw [if_neg (by omega), if_neg (by omega), if_neg (by omega), ofNat_eq b0 (by omega), ofNat_eq b1 (by omega),
    ofNat_eq b2 (by omega), ofNat_eq b3 (by omega)]

theorem Foundation.Utf8.IsText.nil : IsText [] := ⟨[], rfl⟩

/-- A character in front of a text. -/
theorem Foundation.Utf8.IsText.cons (spelled : ∃ c, String.utf8EncodeChar c = bytes) (isText : IsText rest) :
    IsText (bytes ++ rest) := by
  obtain ⟨c, rfl⟩ := spelled
  obtain ⟨text, rfl⟩ := isText
  exact ⟨c :: text, rfl⟩

/-- `from_utf8` lets texts through only. -/
theorem validUtf8_isText (bytes : Bytes) (valid : Json.validUtf8 bytes = true) : IsText bytes := by
  fun_induction Json.validUtf8 bytes with
  | case1 => exact .nil
  | case2 b0 => exact .cons (spelled_one (of_decide_eq_true valid)) .nil
  | case3 b0 b1 low ih | case5 b0 b1 b2 low ih | case8 b0 b1 b2 b3 rest low ih => exact .cons (spelled_one low) (ih valid)
  | case4 b0 b1 high =>
    simp only [Bool.and_eq_true, decide_eq_true_eq] at valid
    obtain ⟨⟨⟨lead, lead'⟩, lower⟩, upper⟩ := valid
    exact .cons (spelled_two lead lead' lower upper) .nil
  | case6 b0 b1 b2 high short ih =>
    simp only [Bool.and_eq_true, decide_eq_true_eq] at valid
    obtain ⟨⟨⟨lead, lower⟩, upper⟩, later⟩ := valid
    exact .cons (spelled_two lead short lower upper) (ih later)
  | case7 b0 b1 b2 high long =>
    simp only [Bool.and_eq_true, decide_eq_true_eq] at valid
    obtain ⟨⟨⟨⟨lead, lower⟩, upper⟩, lower'⟩, upper'⟩ := valid
    exact .cons (spelled_three long lead lower upper lower' upper') .nil
  | case9 b0 b1 b2 b3 rest high short ih =>
    simp only [Bool.and_eq_true, decide_eq_true_eq] at valid
    obtain ⟨⟨⟨lead, lower⟩, upper⟩, later⟩ := valid
    exact .cons (spelled_two lead short lower upper) (ih later)
  | case10 b0 b1 b2 b3 rest high long short ih =>
    simp only [Bool.and_eq_true, decide_eq_true_eq] at valid
    obtain ⟨⟨⟨⟨lower, upper⟩, lower'⟩, upper'⟩, later⟩ := valid
    exact .cons (spelled_three long short lower upper lower' upper') (ih later)
  | case11 b0 b1 b2 b3 rest high long longer ih =>
    simp only [Bool.and_eq_true, decide_eq_true_eq] at valid
    obtain ⟨⟨⟨⟨⟨⟨⟨lead, lower⟩, upper⟩, lower'⟩, upper'⟩, lower''⟩, upper''⟩, later⟩ := valid
    exact .cons (spelled_four longer lead lower upper lower' upper' lower'' upper'') (ih later)

end Validation

section Parts
open Json

variable {s key : Bytes}

theorem boundary_begins {i : Nat} (isBoundary : boundary s i = true) : Begins (s.drop i) := by
  intro byte isFirst inner
  unfold boundary at isBoundary
  rw [List.head?_drop] at isFirst
  obtain ⟨inside, found⟩ := List.getElem?_eq_some_iff.mp isFirst
  have here : at' s i = byte := by rw [at', List.getD_eq_getElem?_getD, isFirst, Option.getD_some]
  simp only [Bool.or_eq_true, Bool.and_eq_true, decide_eq_true_eq, here] at isBoundary
  rcases isBoundary with isEnd | ⟨-, first⟩
  · omega
  · exact first inner

theorem slice_isText (isText : IsText s) {start stop : Nat} {part : Bytes} (found : slice s start stop = some part) :
    IsText part := by
  unfold slice at found
  split at found
  next fits =>
    obtain ⟨le, begins, ends⟩ := fits
    cases found
    have whole : s.take start ++ s.drop start = s := List.take_append_drop ..
    have tail : (s.drop start).take (stop - start) ++ s.drop stop = s.drop start := by
      have rest : (s.drop start).drop (stop - start) = s.drop stop := by rw [List.drop_drop, Nat.add_sub_cancel' le]
      rw [← rest, List.take_append_drop]
    have later := (IsText.split (whole ▸ isText) (boundary_begins begins)).2
    exact (IsText.split (tail.symm ▸ later) (boundary_begins ends)).1
  next => cases found

theorem asString_isText (isText : IsText s) {part : Bytes} (found : asString s = some part) : IsText part := by
  unfold asString at found
  split at found
  · exact slice_isText isText found
  · cases found

theorem whitespace_spelled : ∀ space ∈ whitespace, ∃ c, String.utf8EncodeChar c = space := by
  have spelled : whitespace = [0x09, 0x0A, 0x0B, 0x0C, 0x0D, 0x20, 0x85, 0xA0, 0x1680, 0x2000, 0x2001, 0x2002, 0x2003, 0x2004,
      0x2005, 0x2006, 0x2007, 0x2008, 0x2009, 0x200A, 0x2028, 0x2029, 0x202F, 0x205F, 0x3000].map fun n =>
        String.utf8EncodeChar (Char.ofNat n) := by decide
  intro space member
  rw [spelled] at member
  obtain ⟨n, -, isSpace⟩ := List.mem_map.mp member
  exact ⟨_, isSpace⟩

theorem trimStart_isText (isText : IsText s) : IsText (trimStart s) := by
  have stripped : ∀ turns text, IsText text → IsText (strip whitespace turns text) := by
    intro turns
    induction turns with
    | zero => exact fun _ isText => isText
    | succ turns ih =>
      intro text isText
      rw [strip]
      split
      next space found =>
        obtain ⟨c, isSpace⟩ := whitespace_spelled space (List.mem_of_find?_eq_some found)
        have first := List.find?_some found
        obtain ⟨rest, rfl⟩ := List.isPrefixOf_iff_prefix.mp first
        rw [List.drop_left]
        subst isSpace
        exact ih rest isText.tail
      next => exact isText
  exact stripped s.length s isText

theorem trimEnd_isText (isText : IsText s) : IsText (trimEnd s) := by
  have stripped : ∀ turns text, IsText text →
      IsText (strip (whitespace.map List.reverse) turns text.reverse).reverse := by
    intro turns
    induction turns with
    | zero =>
      intro text isText
      rw [strip, List.reverse_reverse]
      exact isText
    | succ turns ih =>
      intro text isText
      rw [strip]
      split
      next space found =>
        obtain ⟨original, member, rfl⟩ := List.mem_map.mp (List.mem_of_find?_eq_some found)
        obtain ⟨c, isSpace⟩ := whitespace_spelled original member
        have last := List.find?_some found
        obtain ⟨rest, isRest⟩ := List.isPrefixOf_iff_prefix.mp last
        have split : text = rest.reverse ++ original := by
          rw [← List.reverse_reverse text, ← isRest, List.reverse_append, List.reverse_reverse]
        rw [← isRest, List.drop_left]
        have begins : Begins original := IsText.begins ⟨[c], by simp [encode, isSpace]⟩
        have earlier := (IsText.split (split ▸ isText) begins).1
        have := ih rest.reverse earlier
        rwa [List.reverse_reverse] at this
      next =>
        rw [List.reverse_reverse]
        exact isText
  exact stripped s.length s isText

theorem trim_isText (isText : IsText s) : IsText (trim s) := trimEnd_isText (trimStart_isText isText)

theorem findMember_isText (isText : IsText s) {turns i : Nat} {value : Bytes} (found : findMember s key turns i = some value) :
    IsText value := by
  induction turns generalizing i with
  | zero => cases found
  | succ turns ih =>
    rw [findMember] at found
    dsimp only at found
    split at found
    · cases found
    split at found
    · cases found
    split at found
    · cases found
    split at found
    · obtain ⟨part, sliced, rfl⟩ := Option.map_eq_some_iff.mp found
      exact trim_isText (slice_isText isText sliced)
    split at found
    · exact ih found
    · cases found

theorem objectGet_isText (isText : IsText s) {value : Bytes} (found : objectGet s key = some value) : IsText value := by
  unfold objectGet at found
  dsimp only at found
  split at found
  · cases found
  · exact findMember_isText isText found

end Parts

section Echoes

theorem clampChars_inner {inside : Bytes} (inner : ∀ byte ∈ inside, Inner byte) (n : Nat) (rest : Bytes) :
    clampChars n (inside ++ rest) = inside ++ clampChars n rest := by
  induction inside with
  | nil => rfl
  | cons byte inside ih =>
    have later := ih fun other member => inner other (List.mem_cons_of_mem _ member)
    have here : byte &&& 0xC0 = 0x80 := inner byte List.mem_cons_self
    cases n <;> rw [List.cons_append, clampChars, if_pos here, later, List.cons_append]

/-- The first `n` characters. -/
theorem clampChars_encode (n : Nat) (text : List Char) : clampChars n (encode text) = encode (text.take n) := by
  induction text generalizing n with
  | nil => cases n <;> rfl
  | cons c text ih =>
    obtain ⟨first, inside, spelled, begins, inner⟩ := encodeChar_shape c
    have begins : ¬ first &&& 0xC0 = 0x80 := begins
    rw [encode_cons, spelled, List.cons_append]
    cases n with
    | zero =>
      rw [clampChars, if_neg begins]
      rfl
    | succ n =>
      rw [clampChars, if_neg begins, clampChars_inner inner, ih, List.take_succ_cons, encode_cons, spelled, List.cons_append]

theorem jsonEscaped_append (text more : Bytes) : jsonEscaped (text ++ more) = jsonEscaped text ++ jsonEscaped more :=
  List.map_append

/-- The kernel's two escapers agree on the control characters. -/
theorem chars_control {byte : UInt8} (control : byte < 0x20) : Chars (utf8 "\\u" ++ hex4 byte.toNat) [byte.toUInt16] := by
  have spelled : Chars _ [byte.toUInt16] := chars_jsonEscapedBytes [byte]
  have noQuote : byte ≠ 0x22 := by
    rintro rfl
    exact absurd control (by decide)
  have noBackslash : byte ≠ 0x5c := by
    rintro rfl
    exact absurd control (by decide)
  have hidden : ¬ (0x20 ≤ byte ∧ byte ≤ 0x7e) := fun visible => UInt8.not_le.mpr control visible.1
  simpa only [jsonEscapedBytes, List.map_cons, List.map_nil, if_neg noQuote, if_neg noBackslash, if_neg hidden,
    List.flatten_cons, List.flatten_nil, List.append_nil] using spelled

/-- `write_json_escaped` of an ASCII character. -/
theorem chars_escaped_ascii {byte : UInt8} (low : byte < 0x80) : Chars (jsonEscaped [byte]).flatten [byte.toUInt16] := by
  simp only [jsonEscaped, List.map_cons, List.map_nil, List.flatten_cons, List.flatten_nil, List.append_nil]
  iterate 5
    split
    · next isByte =>
      subst isByte
      exact .escape (by decide) .nil
  split
  · next control => exact chars_control control
  · next noQuote noBackslash _ _ _ visible =>
    refine chars_ascii fun other member => ?_
    obtain rfl := List.mem_singleton.mp member
    exact ⟨UInt8.not_lt.mp visible, low, noQuote, noBackslash⟩

/-- Bytes outside ASCII pass as they are. -/
theorem jsonEscaped_high (high : ∀ byte ∈ bytes, 0x80 ≤ byte) : (jsonEscaped bytes).flatten = bytes := by
  have other : ∀ {byte : UInt8} (small : UInt8), small < 0x80 → 0x80 ≤ byte → byte ≠ small := by
    rintro byte small below above rfl
    exact UInt8.not_lt.mpr above below
  induction bytes with
  | nil => rfl
  | cons byte bytes ih =>
    have above := high byte List.mem_cons_self
    have visible : ¬ byte < 0x20 := UInt8.not_lt.mpr (UInt8.le_trans (by decide) above)
    have later := ih fun other member => high other (List.mem_cons_of_mem _ member)
    simp only [jsonEscaped, List.map_cons, List.flatten_cons, if_neg (other 0x22 (by decide) above),
      if_neg (other 0x5c (by decide) above), if_neg (other 0x0a (by decide) above), if_neg (other 0x0d (by decide) above),
      if_neg (other 0x09 (by decide) above), if_neg visible] at later ⊢
    rw [later]
    rfl

theorem chars_escaped_char (c : Char) : Chars (jsonEscaped (String.utf8EncodeChar c)).flatten (utf16 c) := by
  rcases utf8EncodeChar_shape c with ⟨isAscii, spelled⟩ | ⟨start, inside, spelled, first, others⟩
  · have low : UInt8.ofNat c.toNat < 0x80 := by
      rw [UInt8.lt_iff_toNat_lt, UInt8.toNat_ofNat', Nat.mod_eq_of_lt (by omega)]
      exact isAscii
    have unit : utf16 c = [(UInt8.ofNat c.toNat).toUInt16] := by
      have narrow : (UInt8.ofNat c.toNat).toNat = c.toNat := by rw [UInt8.toNat_ofNat', Nat.mod_eq_of_lt (by omega)]
      rw [utf16, if_pos (by omega), ← UInt16.ofNat_uInt8ToNat, narrow]
    rw [spelled, unit]
    exact chars_escaped_ascii low
  · have high : ∀ byte ∈ String.utf8EncodeChar c, 0x80 ≤ byte := by
      rw [spelled, List.forall_mem_cons]
      exact ⟨UInt8.le_trans (by decide) first, others⟩
    have wide : 0x80 ≤ c.toNat := by
      by_contra small
      have encoded : String.utf8EncodeChar c = [.ofNat c.toNat] := by
        unfold String.utf8EncodeChar
        dsimp only
        rw [if_pos (show c.val.toNat ≤ 127 from by change c.toNat ≤ 127; omega)]
        rfl
      have above := high (.ofNat c.toNat) (by rw [encoded]; exact List.mem_singleton_self _)
      rw [UInt8.le_iff_toNat_le, UInt8.toNat_ofNat', Nat.mod_eq_of_lt (by omega)] at above
      exact small above
    have other : ∀ d : Char, d.toNat < 0x80 → c ≠ d := by
      rintro d small rfl
      omega
    rw [jsonEscaped_high high]
    have alone := Chars.plain c (by omega) (other _ (by decide)) (other _ (by decide)) .nil
    rwa [List.append_nil, List.append_nil] at alone

/-- `write_json_escaped` spells the text it is given. -/
theorem chars_jsonEscaped (text : List Char) : Chars (jsonEscaped (encode text)).flatten (text.flatMap utf16) := by
  induction text with
  | nil => exact .nil
  | cons c text ih =>
    rw [encode_cons, jsonEscaped_append, List.flatten_append, List.flatMap_cons]
    exact (chars_escaped_char c).append ih

end Echoes

end Kernai
