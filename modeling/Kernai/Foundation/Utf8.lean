import Mathlib.Data.List.Basic

/-! Texts in UTF-8 as bytes: where their characters begin, and the parts between two
such places. -/

namespace Kernai.Foundation.Utf8

def encode (text : List Char) : List UInt8 := text.flatMap String.utf8EncodeChar

theorem encode_append (text more : List Char) : encode (text ++ more) = encode text ++ encode more := List.flatMap_append

theorem encode_cons (c : Char) (text : List Char) : encode (c :: text) = String.utf8EncodeChar c ++ encode text := rfl

def IsText (bytes : List UInt8) : Prop := ∃ text, bytes = encode text

/-- A byte that no character begins with. -/
def Inner (byte : UInt8) : Prop := byte &&& 0xC0 = 0x80

instance (byte : UInt8) : Decidable (Inner byte) := inferInstanceAs (Decidable (_ = _))

theorem inner_ofNat {n : Nat} (small : n < 256) : Inner (.ofNat n) ↔ 0x80 ≤ n ∧ n < 0xC0 := by
  have each : ∀ n : Fin 256, Inner (.ofNat n.val) ↔ 0x80 ≤ n.val ∧ n.val < 0xC0 := by decide +kernel
  exact each ⟨n, small⟩

theorem encodeChar_shape (c : Char) :
    ∃ first rest, String.utf8EncodeChar c = first :: rest ∧ ¬ Inner first ∧ ∀ byte ∈ rest, Inner byte := by
  have inner : ∀ n, Inner (.ofNat (n % 64 + 128)) := fun n => (inner_ofNat (by omega)).mpr (by omega)
  unfold String.utf8EncodeChar
  dsimp only
  split
  · refine ⟨_, _, rfl, ?_, List.forall_mem_nil _⟩
    rw [inner_ofNat (by omega)]
    omega
  split
  · refine ⟨_, _, rfl, ?_, ?_⟩
    · rw [inner_ofNat (by omega)]
      omega
    · simp only [List.forall_mem_cons]
      exact ⟨inner _, List.forall_mem_nil _⟩
  split
  · refine ⟨_, _, rfl, ?_, ?_⟩
    · rw [inner_ofNat (by omega)]
      omega
    · simp only [List.forall_mem_cons]
      exact ⟨inner _, inner _, List.forall_mem_nil _⟩
  · refine ⟨_, _, rfl, ?_, ?_⟩
    · rw [inner_ofNat (by omega)]
      omega
    · simp only [List.forall_mem_cons]
      exact ⟨inner _, inner _, inner _, List.forall_mem_nil _⟩

/-- A character could begin here. -/
def Begins (rest : List UInt8) : Prop := ∀ byte ∈ rest.head?, ¬ Inner byte

theorem Begins.nil : Begins [] := nofun

theorem encode_begins (text : List Char) : Begins (encode text) := by
  cases text with
  | nil => exact .nil
  | cons c text =>
    obtain ⟨first, rest, spelled, begins, -⟩ := encodeChar_shape c
    intro byte isFirst
    rw [encode_cons, spelled] at isFirst
    obtain rfl := Option.some.inj isFirst
    exact begins

theorem IsText.begins {bytes : List UInt8} (isText : IsText bytes) : Begins bytes := by
  obtain ⟨text, rfl⟩ := isText
  exact encode_begins text

/-- A text is cut between two characters wherever one could begin. -/
theorem encode_split {text : List Char} {left right : List UInt8} (split : encode text = left ++ right) (begins : Begins right) :
    ∃ front back, text = front ++ back ∧ left = encode front ∧ right = encode back := by
  induction text generalizing left with
  | nil =>
    obtain ⟨rfl, rfl⟩ := List.append_eq_nil_iff.mp split.symm
    exact ⟨[], [], rfl, rfl, rfl⟩
  | cons c text ih =>
    rw [encode_cons] at split
    rcases List.append_eq_append_iff.mp split with ⟨rest, isLeft, isRest⟩ | ⟨rest, isChar, isRight⟩
    · obtain ⟨front, back, rfl, isFront, isBack⟩ := ih isRest
      exact ⟨c :: front, back, rfl, by rw [isLeft, isFront, encode_cons], isBack⟩
    · cases left with
      | nil => exact ⟨[], c :: text, rfl, rfl, by rw [isRight, encode_cons, isChar, List.nil_append]⟩
      | cons byte left =>
        cases rest with
        | nil => exact ⟨[c], text, rfl, by rw [← List.append_nil (byte :: left), ← isChar]; simp [encode], by simpa using isRight⟩
        | cons other rest =>
          -- the cut would fall inside the first character
          obtain ⟨first, inside, spelled, -, inner⟩ := encodeChar_shape c
          rw [spelled, List.cons_append] at isChar
          have isInside : inside = left ++ other :: rest := (List.cons_eq_cons.mp isChar).2
          rw [isRight] at begins
          exact absurd (inner other (by simp [isInside])) (begins other rfl)

theorem IsText.append {left right : List UInt8} (first : IsText left) (second : IsText right) : IsText (left ++ right) := by
  obtain ⟨text, rfl⟩ := first
  obtain ⟨more, rfl⟩ := second
  exact ⟨text ++ more, (encode_append text more).symm⟩

theorem IsText.split {left right : List UInt8} (isText : IsText (left ++ right)) (begins : Begins right) :
    IsText left ∧ IsText right := by
  obtain ⟨text, split⟩ := isText
  obtain ⟨front, back, -, isFront, isBack⟩ := encode_split split.symm begins
  exact ⟨⟨front, isFront⟩, ⟨back, isBack⟩⟩

/-- No character's spelling begins with another's. -/
theorem encodeChar_unique {c d : Char} {rest more : List UInt8}
    (same : String.utf8EncodeChar c ++ rest = String.utf8EncodeChar d ++ more) : c = d := by
  have decoded := congrArg (fun bytes => bytes.toByteArray.utf8DecodeChar? 0) same
  simp only [List.toByteArray_append, ByteArray.utf8DecodeChar?_utf8EncodeChar_append] at decoded
  exact Option.some.inj decoded

/-- What follows a character within a text is a text. -/
theorem IsText.tail {c : Char} {rest : List UInt8} (isText : IsText (String.utf8EncodeChar c ++ rest)) : IsText rest := by
  obtain ⟨text, split⟩ := isText
  cases text with
  | nil =>
    obtain ⟨first, inside, spelled, -⟩ := encodeChar_shape c
    rw [spelled] at split
    cases split
  | cons d text =>
    rw [encode_cons] at split
    obtain rfl := encodeChar_unique split
    exact ⟨text, List.append_cancel_left split⟩

end Kernai.Foundation.Utf8
