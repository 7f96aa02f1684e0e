import Mathlib.Data.List.Basic

/-! JSON texts by the grammar of RFC 8259, as UTF-8 bytes, and the value each of
them stands for. -/

namespace Kernai.Foundation.Rfc8259

/-- `ws`. -/
def IsBlank (text : List UInt8) : Prop := ∀ byte ∈ text, byte = 0x20 ∨ byte = 0x09 ∨ byte = 0x0a ∨ byte = 0x0d

instance (text : List UInt8) : Decidable (IsBlank text) := List.decidableBAll _ text

abbrev Blank := { text : List UInt8 // IsBlank text }

def Blank.none : Blank := ⟨[], nofun⟩

def IsDigit (byte : UInt8) : Prop := 0x30 ≤ byte ∧ byte ≤ 0x39

/-- `1*DIGIT`. -/
def Digits (text : List UInt8) : Prop := text ≠ [] ∧ ∀ byte ∈ text, IsDigit byte

/-- The number that decimal digits stand for. -/
def denoted (digits : List UInt8) : Nat := digits.foldl (fun n byte => n * 10 + (byte.toNat - 0x30)) 0

/-- `int`: no superfluous leading zero. -/
def IsInt (text : List UInt8) : Prop := Digits text ∧ (text.head? = some 0x30 → text = [0x30])

/-- `[ frac ]`. -/
def IsFrac (text : List UInt8) : Prop := text = [] ∨ ∃ digits, Digits digits ∧ text = 0x2e :: digits

/-- `[ exp ]`. -/
def IsExp (text : List UInt8) : Prop := text = [] ∨ ∃ e sign digits, (e = 0x65 ∨ e = 0x45) ∧
  (sign = [] ∨ sign = [0x2b] ∨ sign = [0x2d]) ∧ Digits digits ∧ text = e :: (sign ++ digits)

/-- `number`. -/
def IsNumber (text : List UInt8) : Prop := ∃ minus int frac exp, (minus = [] ∨ minus = [0x2d]) ∧ IsInt int ∧ IsFrac frac ∧
  IsExp exp ∧ text = minus ++ int ++ frac ++ exp

/-- The two-character escapes and what they stand for. -/
def escapes : List (UInt8 × UInt16) :=
  [(0x22, 0x22), (0x5c, 0x5c), (0x2f, 0x2f), (0x62, 0x08), (0x66, 0x0c), (0x6e, 0x0a), (0x72, 0x0d), (0x74, 0x09)]

def hexDigit (byte : UInt8) : Option Nat :=
  if 0x30 ≤ byte ∧ byte ≤ 0x39 then some (byte.toNat - 0x30)
  else if 0x61 ≤ byte ∧ byte ≤ 0x66 then some (byte.toNat - 0x61 + 10)
  else if 0x41 ≤ byte ∧ byte ≤ 0x46 then some (byte.toNat - 0x41 + 10)
  else none

def utf16 (c : Char) : List UInt16 :=
  if c.toNat < 0x10000 then [.ofNat c.toNat]
  else [.ofNat (0xd800 + (c.toNat - 0x10000) / 0x400), .ofNat (0xdc00 + (c.toNat - 0x10000) % 0x400)]

/-- `*char`: the text between the quotes of a string, and the string's code units. -/
inductive Chars : List UInt8 → List UInt16 → Prop
  | nil : Chars [] []
  | plain {rest : List UInt8} {units : List UInt16} (c : Char) (visible : 0x20 ≤ c.toNat) (noQuote : c ≠ '"')
      (noBackslash : c ≠ '\\') (more : Chars rest units) : Chars (String.utf8EncodeChar c ++ rest) (utf16 c ++ units)
  | escape {rest : List UInt8} {units : List UInt16} {byte : UInt8} {unit : UInt16} (listed : (byte, unit) ∈ escapes)
      (more : Chars rest units) : Chars (0x5c :: byte :: rest) (unit :: units)
  | unicode {rest : List UInt8} {units : List UInt16} {a b c d : UInt8} {i j k l : Nat} (first : hexDigit a = some i)
      (second : hexDigit b = some j) (third : hexDigit c = some k) (fourth : hexDigit d = some l)
      (more : Chars rest units) :
      Chars (0x5c :: 0x75 :: a :: b :: c :: d :: rest) (.ofNat (((i * 16 + j) * 16 + k) * 16 + l) :: units)

inductive Value where
  | null
  | bool (value : Bool)
  | number (literal : List UInt8)
  | string (units : List UInt16)
  | array (items : List Value)
  | object (members : List (List UInt16 × Value))

/-- The text of a value between the separators of an array or behind a colon. -/
structure Item where
  lead : Blank
  text : List UInt8
  value : Value
  trail : Blank

/-- A member of an object between its separators; `key` is the name as it is spelled. -/
structure Member where
  lead : Blank
  key : List UInt8
  name : List UInt16
  spelled : Chars key name
  gap : Blank
  item : Item

def quoted (raw : List UInt8) : List UInt8 := 0x22 :: (raw ++ [0x22])

def Item.spell (item : Item) : List UInt8 := item.lead.1 ++ (item.text ++ item.trail.1)

def Member.spell (member : Member) : List UInt8 :=
  member.lead.1 ++ (quoted member.key ++ (member.gap.1 ++ (0x3a :: member.item.spell)))

/-- What stands between the brackets: the parts with commas between them, or only
white space. -/
inductive Listed : List (List UInt8) → List UInt8 → Prop
  | none (blank : Blank) : Listed [] blank.1
  | last (part : List UInt8) : Listed [part] part
  | cons (part : List UInt8) {second : List UInt8} {parts : List (List UInt8)} {rest : List UInt8}
      (more : Listed (second :: parts) rest) : Listed (part :: second :: parts) (part ++ (0x2c :: rest))

/-- `value`, without white space around it. -/
inductive Reads : List UInt8 → Value → Prop
  | null : Reads [0x6e, 0x75, 0x6c, 0x6c] .null
  | yes : Reads [0x74, 0x72, 0x75, 0x65] (.bool true)
  | no : Reads [0x66, 0x61, 0x6c, 0x73, 0x65] (.bool false)
  | number {text : List UInt8} (isNumber : IsNumber text) : Reads text (.number text)
  | string {raw : List UInt8} {units : List UInt16} (chars : Chars raw units) : Reads (quoted raw) (.string units)
  | array (items : List Item) {inside : List UInt8} (listed : Listed (items.map Item.spell) inside)
      (each : ∀ item ∈ items, Reads item.text item.value) :
      Reads (0x5b :: (inside ++ [0x5d])) (.array (items.map Item.value))
  | object (members : List Member) {inside : List UInt8} (listed : Listed (members.map Member.spell) inside)
      (each : ∀ member ∈ members, Reads member.item.text member.item.value) :
      Reads (0x7b :: (inside ++ [0x7d])) (.object (members.map fun member => (member.name, member.item.value)))

/-- `JSON-text` that is an object with these members, in this order. -/
structure IsObject (text : List UInt8) (members : List Member) : Prop where
  each : ∀ member ∈ members, Reads member.item.text member.item.value
  framed : ∃ lead trail : Blank, ∃ inside, Listed (members.map Member.spell) inside ∧
    text = lead.1 ++ (0x7b :: (inside ++ (0x7d :: trail.1)))

private theorem le_ofNat {bound : UInt8} {n : Nat} (low : bound.toNat ≤ n) (high : n < 256) : bound ≤ UInt8.ofNat n := by
  rw [UInt8.le_iff_toNat_le, UInt8.toNat_ofNat', Nat.mod_eq_of_lt high]
  exact low

/-- A character is one byte below 0x80, or a start byte and further bytes from 0x80 on. -/
theorem utf8EncodeChar_shape (c : Char) :
    (c.toNat < 0x80 ∧ String.utf8EncodeChar c = [.ofNat c.toNat]) ∨
      ∃ start rest, String.utf8EncodeChar c = start :: rest ∧ 0xc0 ≤ start ∧ ∀ byte ∈ rest, 0x80 ≤ byte := by
  unfold String.utf8EncodeChar
  dsimp only
  split
  · next ascii => exact .inl ⟨Nat.lt_succ_of_le ascii, rfl⟩
  refine .inr ?_
  split
  · refine ⟨_, _, rfl, le_ofNat (show 192 ≤ _ by omega) (by omega), fun byte member => ?_⟩
    obtain rfl := List.mem_singleton.mp member
    exact le_ofNat (show 128 ≤ _ by omega) (by omega)
  split
  · refine ⟨_, _, rfl, le_ofNat (show 192 ≤ _ by omega) (by omega), fun byte member => ?_⟩
    simp only [List.mem_cons, List.not_mem_nil, or_false] at member
    rcases member with rfl | rfl <;> exact le_ofNat (show 128 ≤ _ by omega) (by omega)
  · refine ⟨_, _, rfl, le_ofNat (show 192 ≤ _ by omega) (by omega), fun byte member => ?_⟩
    simp only [List.mem_cons, List.not_mem_nil, or_false] at member
    rcases member with rfl | rfl | rfl <;> exact le_ofNat (show 128 ≤ _ by omega) (by omega)

/-! Texts without white space, built from their parts. -/

/-- A byte that stands for itself between quotes. -/
def Plain (byte : UInt8) : Prop := 0x20 ≤ byte ∧ byte < 0x80 ∧ byte ≠ 0x22 ∧ byte ≠ 0x5c

instance (byte : UInt8) : Decidable (Plain byte) := inferInstanceAs (Decidable (_ ∧ _ ∧ _ ∧ _))

theorem plain_of_all {text : List UInt8} (all : (text.all fun byte => decide (Plain byte)) = true) :
    ∀ byte ∈ text, Plain byte :=
  fun byte member => of_decide_eq_true (List.all_eq_true.mp all byte member)

theorem Plain.char {byte : UInt8} (plain : Plain byte) : ∃ c : Char, 0x20 ≤ c.toNat ∧ c ≠ '"' ∧ c ≠ '\\' ∧
    String.utf8EncodeChar c = [byte] ∧ utf16 c = [byte.toUInt16] := by
  have each : ∀ n : Fin 256, Plain (.ofFin n) → 0x20 ≤ (Char.ofNat n).toNat ∧ Char.ofNat n ≠ '"' ∧ Char.ofNat n ≠ '\\' ∧
      String.utf8EncodeChar (Char.ofNat n) = [.ofFin n] ∧ utf16 (Char.ofNat n) = [(UInt8.ofFin n).toUInt16] := by
    decide +kernel
  exact ⟨_, each byte.toFin plain⟩

/-- The code units of ASCII text. -/
def ascii (text : List UInt8) : List UInt16 := text.map UInt8.toUInt16

theorem Chars.append {text rest : List UInt8} {units more : List UInt16} (first : Chars text units)
    (second : Chars rest more) : Chars (text ++ rest) (units ++ more) := by
  induction first with
  | nil => exact second
  | plain c visible noQuote noBackslash _ ih =>
    rw [List.append_assoc, List.append_assoc]
    exact .plain c visible noQuote noBackslash ih
  | escape listed _ ih => exact .escape listed ih
  | unicode first second third fourth _ ih => exact .unicode first second third fourth ih

theorem chars_ascii {text : List UInt8} (plain : ∀ byte ∈ text, Plain byte) : Chars text (ascii text) := by
  induction text with
  | nil => exact .nil
  | cons byte text ih =>
    obtain ⟨c, visible, noQuote, noBackslash, spelled, units⟩ := (plain byte List.mem_cons_self).char
    have rest := ih fun other member => plain other (List.mem_cons_of_mem _ member)
    have chars := Chars.plain c visible noQuote noBackslash rest
    rw [spelled, units] at chars
    exact chars

/-- Parts with commas between them. -/
def commas (parts : List (List UInt8)) : List UInt8 := (parts.intersperse [0x2c]).flatten

theorem commas_cons (part second : List UInt8) (parts : List (List UInt8)) :
    commas (part :: second :: parts) = part ++ (0x2c :: commas (second :: parts)) := rfl

theorem listed_commas (parts : List (List UInt8)) : Listed parts (commas parts) := by
  induction parts with
  | nil => exact .none .none
  | cons part parts ih =>
    cases parts with
    | nil =>
      have alone : commas [part] = part := List.append_nil part
      rw [alone]
      exact .last part
    | cons second parts =>
      rw [commas_cons]
      exact .cons part ih

/-- A member of an object without white space. -/
structure Field where
  key : List UInt8
  text : List UInt8
  value : Value
  plain : ∀ byte ∈ key, Plain byte

def Field.spell (field : Field) : List UInt8 := quoted field.key ++ (0x3a :: field.text)

def Field.member (field : Field) : Member :=
  ⟨.none, field.key, ascii field.key, chars_ascii field.plain, .none, ⟨.none, field.text, field.value, .none⟩⟩

theorem Field.member_spell (field : Field) : field.member.spell = field.spell := by
  simp [Field.member, Member.spell, Item.spell, Field.spell, Blank.none]

theorem reads_fields (fields : List Field) (each : ∀ field ∈ fields, Reads field.text field.value) :
    Reads (0x7b :: (commas (fields.map Field.spell) ++ [0x7d]))
      (.object (fields.map fun field => (ascii field.key, field.value))) := by
  have spells : (fields.map Field.member).map Member.spell = fields.map Field.spell := by
    simp [Function.comp_def, Field.member_spell]
  have listed : Listed ((fields.map Field.member).map Member.spell) (commas (fields.map Field.spell)) := by
    rw [spells]
    exact listed_commas _
  have whole := Reads.object (fields.map Field.member) listed fun member among => by
    obtain ⟨field, isField, rfl⟩ := List.mem_map.mp among
    exact each field isField
  rw [List.map_map] at whole
  exact whole

theorem reads_list (items : List (List UInt8 × Value)) (each : ∀ item ∈ items, Reads item.1 item.2) :
    Reads (0x5b :: (commas (items.map Prod.fst) ++ [0x5d])) (.array (items.map Prod.snd)) := by
  have listed : Listed ((items.map fun item => (⟨.none, item.1, item.2, .none⟩ : Item)).map Item.spell)
      (commas (items.map Prod.fst)) := by
    have spells : (items.map fun item => (⟨.none, item.1, item.2, .none⟩ : Item)).map Item.spell = items.map Prod.fst := by
      simp [Function.comp_def, Item.spell, Blank.none]
    rw [spells]
    exact listed_commas _
  have whole := Reads.array (items.map fun item => ⟨.none, item.1, item.2, .none⟩) listed fun item among => by
    obtain ⟨pair, isPair, rfl⟩ := List.mem_map.mp among
    exact each pair isPair
  rw [List.map_map] at whole
  exact whole

end Kernai.Foundation.Rfc8259
