import Kernai.Foundation.Rfc8259
import Kernai.Proofs.Wire

/-! What the kernel's number and string writers write, read as JSON. -/

namespace Kernai
open Console Foundation.Rfc8259

theorem decimal_digit {n : Nat} (small : n < 10) : decimal n = [.ofNat (0x30 + n)] := by
  have each : ∀ n : Fin 10, decimal n = [.ofNat (0x30 + n.val)] := by decide
  exact each ⟨n, small⟩

theorem decimal_step {n : Nat} (large : 10 ≤ n) : decimal n = decimal (n / 10) ++ [.ofNat (0x30 + n % 10)] := by
  have last : String.utf8EncodeChar (Nat.digitChar (n % 10)) = [.ofNat (0x30 + n % 10)] := by
    have each : ∀ digit : Fin 10, String.utf8EncodeChar (Nat.digitChar digit) = [.ofNat (0x30 + digit.val)] := by decide
    exact each ⟨n % 10, Nat.mod_lt _ (by decide)⟩
  unfold decimal
  rw [Nat.toDigits_of_base_le (by decide) large, List.flatMap_append, List.flatMap_singleton, last]

theorem digit_isDigit {n : Nat} (small : n < 10) : IsDigit (.ofNat (0x30 + n)) := by
  have each : ∀ n : Fin 10, 0x30 ≤ UInt8.ofNat (0x30 + n.val) ∧ UInt8.ofNat (0x30 + n.val) ≤ 0x39 := by decide
  exact each ⟨n, small⟩

/-- Decimal numbers are written without leading zeros, and stand for themselves. -/
theorem decimal_isInt (n : Nat) : IsInt (decimal n) ∧ ((decimal n).head? = some 0x30 → n = 0) ∧ denoted (decimal n) = n := by
  induction n using Nat.strongRecOn with
  | ind n ih =>
    by_cases small : n < 10
    · have each : ∀ n : Fin 10, ([.ofNat (0x30 + n.val)] : Bytes).head? = some 0x30 → n = 0 := by decide
      have value : ∀ n : Fin 10, denoted [.ofNat (0x30 + n.val)] = n := by decide
      have zero := each ⟨n, small⟩
      rw [decimal_digit small]
      refine ⟨⟨⟨nofun, ?_⟩, fun isZero => ?_⟩, fun isZero => congrArg Fin.val (zero isZero), value ⟨n, small⟩⟩
      · intro byte member
        obtain rfl := List.mem_singleton.mp member
        exact digit_isDigit small
      · obtain rfl : n = 0 := congrArg Fin.val (zero isZero)
        rfl
    · have large : 10 ≤ n := Nat.le_of_not_lt small
      obtain ⟨⟨⟨filled, digits⟩, -⟩, head, value⟩ := ih (n / 10) (Nat.div_lt_self (by omega) (by decide))
      have noZero : (decimal n).head? ≠ some 0x30 := by
        rw [decimal_step large, List.head?_append_of_ne_nil _ filled]
        intro isZero
        have := head isZero
        omega
      refine ⟨⟨⟨?_, ?_⟩, fun isZero => absurd isZero noZero⟩, fun isZero => absurd isZero noZero, ?_⟩
      · rw [decimal_step large]
        simp
      · intro byte member
        rw [decimal_step large, List.mem_append, List.mem_singleton] at member
        rcases member with earlier | rfl
        · exact digits byte earlier
        · exact digit_isDigit (Nat.mod_lt _ (by decide))
      · have last : ∀ digit : Fin 10, (UInt8.ofNat (0x30 + digit.val)).toNat - 0x30 = digit := by decide
        have here := last ⟨n % 10, Nat.mod_lt _ (by decide)⟩
        rw [decimal_step large, denoted, List.foldl_append, ← denoted, value, List.foldl_cons, List.foldl_nil]
        simp only at here
        omega

theorem reads_decimal (n : Nat) : Reads (decimal n) (.number (decimal n)) :=
  .number ⟨[], decimal n, [], [], .inl rfl, (decimal_isInt n).1, .inl rfl, .inl rfl, by simp⟩

theorem hex_plain (n : Nat) : ∀ byte ∈ hex n, Plain byte := by
  intro byte member
  obtain ⟨c, isDigit, spelled⟩ := List.mem_flatMap.mp member
  obtain ⟨digit, small, rfl⟩ := mem_toDigits (by decide) isDigit
  have each : ∀ digit : Fin 16, ((String.utf8EncodeChar (Nat.digitChar digit)).all fun byte => decide (Plain byte)) = true := by
    decide
  exact plain_of_all (each ⟨digit, small⟩) byte spelled

theorem reads_text {text : Bytes} (plain : ∀ byte ∈ text, Plain byte) : Reads (quoted text) (.string (ascii text)) :=
  .string (chars_ascii plain)

/-- What every report of a payload's own data starts with: `kind` is its type. -/
def payloadFields (id : Nat) (kind : Bytes) (pid : Option Pid) : List Field :=
  [⟨utf8 "id", decimal id, .number (decimal id), plain_of_all (by decide)⟩,
    ⟨utf8 "type", quoted kind, .string (ascii kind), plain_of_all (by decide)⟩,
    ⟨utf8 "pid", Text.pid pid, .number (Text.pid pid), plain_of_all (by decide)⟩,
    ⟨utf8 "untrusted", utf8 "true", .bool true, plain_of_all (by decide)⟩]

/-- What it ends with. -/
def dataField (spelled : Bytes) (units : List UInt16) : Field :=
  ⟨utf8 "data", quoted spelled, .string units, plain_of_all (by decide)⟩

theorem reads_payloadFields (id : Nat) {kind : Bytes} (plain : ∀ byte ∈ kind, Plain byte) (pid : Option Pid) :
    ∀ field ∈ payloadFields id kind pid, Reads field.text field.value := by
  intro field member
  simp only [payloadFields, List.mem_cons, List.not_mem_nil, or_false] at member
  rcases member with rfl | rfl | rfl | rfl
  · exact reads_decimal id
  · exact reads_text plain
  · exact reads_decimal _
  · exact .yes

/-- `write_json_escaped_bytes` spells each byte as the character of that number. -/
theorem chars_jsonEscapedBytes (data : Bytes) : Chars (jsonEscapedBytes data).flatten (ascii data) := by
  have digit : ∀ n : Fin 16, hexDigit ((hex n).headD 0) = some n.val := by decide
  have spelled : ∀ n : Fin 256,
      hex4 n = [0x30, 0x30, (hex (n.val / 16)).headD 0, (hex (n.val % 16)).headD 0] := by decide +kernel
  induction data with
  | nil => exact .nil
  | cons byte data ih =>
    have split : (jsonEscapedBytes (byte :: data)).flatten =
        (jsonEscapedBytes [byte]).flatten ++ (jsonEscapedBytes data).flatten := by simp [jsonEscapedBytes]
    rw [split]
    refine Chars.append (show Chars _ [byte.toUInt16] from ?_) ih
    simp only [jsonEscapedBytes, List.map_cons, List.map_nil, List.flatten_singleton]
    split
    · next isQuote =>
      subst isQuote
      exact .escape (by decide) .nil
    split
    · next isBackslash =>
      subst isBackslash
      exact .escape (by decide) .nil
    split
    · next noQuote noBackslash visible =>
      refine chars_ascii fun other member => ?_
      obtain rfl := List.mem_singleton.mp member
      exact ⟨visible.1, UInt8.lt_of_le_of_lt visible.2 (by decide), noQuote, noBackslash⟩
    · have four : hex4 byte.toNat = [0x30, 0x30, (hex (byte.toNat / 16)).headD 0, (hex (byte.toNat % 16)).headD 0] :=
        spelled byte.toFin
      have small := byte.toNat_lt
      have high := digit ⟨byte.toNat / 16, by omega⟩
      have low := digit ⟨byte.toNat % 16, Nat.mod_lt _ (by decide)⟩
      have zero : hexDigit 0x30 = some 0 := by decide
      have unit : UInt16.ofNat (((0 * 16 + 0) * 16 + byte.toNat / 16) * 16 + byte.toNat % 16) = byte.toUInt16 := by
        rw [show ((0 * 16 + 0) * 16 + byte.toNat / 16) * 16 + byte.toNat % 16 = byte.toNat by omega]
        exact UInt16.ofNat_uInt8ToNat byte
      rw [four, ← unit]
      exact .unicode zero zero high low .nil

theorem separated_flatten (items : List (List Bytes)) :
    (Text.separated items).flatten = commas (items.map List.flatten) := by
  have comma : utf8 "," = [0x2c] := by decide
  unfold Text.separated commas
  rw [comma]
  induction items with
  | nil => rfl
  | cons item items ih =>
    cases items with
    | nil => simp
    | cons second items =>
      simp only [List.intersperse_cons_cons, List.flatten_cons, List.flatten_append, List.map_cons] at ih ⊢
      rw [ih]
      rfl

end Kernai
