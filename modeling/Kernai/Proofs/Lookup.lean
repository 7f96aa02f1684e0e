import Kernai.Foundation.Rfc8259
import Kernai.JsonChecked

/-! `object_get` on the texts the grammar calls objects. Positions are read as what
is left of the text there, so that each skip loop is a walk over a suffix. -/

namespace Kernai.Json
open Foundation.Rfc8259

variable {s rest text raw : Bytes} {i j turns : Nat}

/-- `rest` is what is left of `s` at position `i`. -/
def At (s : Bytes) (i : Nat) (rest : Bytes) : Prop := ∃ before, s = before ++ rest ∧ before.length = i

theorem At.start (s : Bytes) : At s 0 s := ⟨[], rfl, rfl⟩

theorem At.skip (here : At s i (text ++ rest)) : At s (i + text.length) rest := by
  obtain ⟨before, rfl, rfl⟩ := here
  exact ⟨before ++ text, (List.append_assoc ..).symm, List.length_append⟩

theorem At.next {byte : UInt8} (here : At s i (byte :: rest)) : At s (i + 1) rest :=
  At.skip (show At s i ([byte] ++ rest) from here)

theorem At.length (here : At s i rest) : s.length = i + rest.length := by
  obtain ⟨before, rfl, rfl⟩ := here
  exact List.length_append

theorem At.inside {byte : UInt8} (here : At s i (byte :: rest)) : i < s.length := by
  rw [here.length, List.length_cons]
  omega

theorem At.byte {byte : UInt8} (here : At s i (byte :: rest)) : at' s i = byte := by
  obtain ⟨before, rfl, rfl⟩ := here
  simp [at', List.getD_eq_getElem?_getD]

/-! White space. -/

theorem isWs_iff (byte : UInt8) : isWs byte = true ↔ byte = 0x20 ∨ byte = 0x09 ∨ byte = 0x0a ∨ byte = 0x0d := by
  simp [isWs, or_assoc]

/-- No white space to skip here. -/
def Solid (rest : Bytes) : Prop := ∀ byte ∈ rest.head?, isWs byte = false

theorem solid_cons {byte : UInt8} (solid : isWs byte = false) : Solid (byte :: rest) := fun other isFirst => by
  obtain rfl : byte = other := Option.some.inj isFirst
  exact solid

theorem skipWsFrom_solid (here : At s i rest) (solid : Solid rest) : skipWsFrom s turns i = i := by
  cases turns with
  | zero => rfl
  | succ turns =>
    unfold skipWsFrom
    refine if_neg ?_
    rintro ⟨inside, isBlank⟩
    cases rest with
    | nil => exact absurd here.length (by simp; omega)
    | cons byte rest =>
      rw [here.byte, solid byte rfl] at isBlank
      cases isBlank

theorem skipWsFrom_blank (blank : IsBlank text) (here : At s i (text ++ rest)) (solid : Solid rest)
    (enough : text.length ≤ turns) : skipWsFrom s turns i = i + text.length := by
  induction text generalizing i turns with
  | nil => exact skipWsFrom_solid here solid
  | cons byte text ih =>
    cases turns with
    | zero => cases enough
    | succ turns =>
      have isBlank : isWs byte = true := (isWs_iff byte).mpr (blank byte List.mem_cons_self)
      unfold skipWsFrom
      rw [if_pos ⟨here.inside, by rw [here.byte, isBlank]⟩,
        ih (fun other member => blank other (List.mem_cons_of_mem _ member)) here.next (Nat.le_of_succ_le_succ enough),
        List.length_cons]
      omega

theorem skipWs_blank (blank : Blank) (here : At s i (blank.1 ++ rest)) (solid : Solid rest) :
    skipWs s i = i + blank.1.length := by
  refine skipWsFrom_blank blank.2 here solid ?_
  rw [here.length, List.length_append]
  omega

theorem skipWs_at (blank : Blank) (here : At s i (blank.1 ++ rest)) (solid : Solid rest) : At s (skipWs s i) rest :=
  skipWs_blank blank here solid ▸ here.skip

theorem skipWs_solid (here : At s i rest) (solid : Solid rest) : skipWs s i = i := skipWsFrom_solid here solid

/-! Strings. -/

/-- Bytes a string holds without an escape. -/
def Plain (byte : UInt8) : Prop := byte ≠ 0x22 ∧ byte ≠ 0x5c

theorem skipStringFrom_plain (plain : ∀ byte ∈ text, Plain byte) (here : At s j (text ++ rest)) :
    skipStringFrom s (turns + text.length) j = skipStringFrom s turns (j + text.length) := by
  induction text generalizing j with
  | nil => rfl
  | cons byte text ih =>
    have isPlain := plain byte List.mem_cons_self
    rw [List.length_cons, ← Nat.add_assoc, skipStringFrom, if_pos here.inside, here.byte, if_neg isPlain.2,
      if_neg isPlain.1, ih (fun other member => plain other (List.mem_cons_of_mem _ member)) here.next]
    congr 1
    omega

theorem plain_of_high {byte : UInt8} (high : 0x80 ≤ byte) : Plain byte := by
  refine ⟨?_, ?_⟩ <;> rintro rfl <;> exact absurd high (by decide)

theorem utf8EncodeChar_plain {c : Char} (noQuote : c ≠ '"') (noBackslash : c ≠ '\\') :
    ∀ byte ∈ String.utf8EncodeChar c, Plain byte := by
  intro byte member
  rcases utf8EncodeChar_shape c with ⟨ascii, encoded⟩ | ⟨start, more, encoded, high, rest⟩
  · rw [encoded] at member
    obtain rfl := List.mem_singleton.mp member
    have value : (UInt8.ofNat c.toNat).toNat = c.toNat := by
      rw [UInt8.toNat_ofNat']
      omega
    refine ⟨fun same => noQuote ?_, fun same => noBackslash ?_⟩ <;>
      exact Char.toNat_inj.mp (value.symm.trans (congrArg UInt8.toNat same))
  · rw [encoded] at member
    rcases List.mem_cons.mp member with rfl | member
    · exact plain_of_high (UInt8.le_trans (by decide) high)
    · exact plain_of_high (rest byte member)

theorem hexDigit_plain {byte : UInt8} {n : Nat} (found : hexDigit byte = some n) : Plain byte := by
  refine ⟨?_, ?_⟩ <;> rintro rfl <;> simp [hexDigit] at found

theorem skipStringFrom_chars {units : List UInt16} (chars : Chars raw units) (here : At s j (raw ++ (0x22 :: rest)))
    (enough : raw.length < turns) : skipStringFrom s turns j = j + raw.length + 1 := by
  induction chars generalizing j turns with
  | nil =>
    obtain ⟨turns, rfl⟩ := Nat.exists_eq_add_of_lt enough
    rw [skipStringFrom, if_pos here.inside, here.byte, if_neg (by decide), if_pos rfl]
    rfl
  | plain c visible noQuote noBackslash more ih =>
    rename_i raw units
    rw [List.length_append] at enough ⊢
    rw [List.append_assoc] at here
    obtain ⟨left, rfl⟩ : ∃ left, turns = left + (String.utf8EncodeChar c).length :=
      ⟨turns - (String.utf8EncodeChar c).length, by omega⟩
    rw [skipStringFrom_plain (utf8EncodeChar_plain noQuote noBackslash) here, ih here.skip (by omega)]
    omega
  | escape listed more ih =>
    rename_i raw units byte unit
    cases turns with
    | zero => cases enough
    | succ turns =>
      simp only [List.length_cons] at enough ⊢
      rw [skipStringFrom, if_pos here.inside, here.byte, if_pos rfl, ih here.next.next (by omega)]
      omega
  | unicode first second third fourth more ih =>
    rename_i raw units a b c d i j' k l
    simp only [List.length_cons] at enough ⊢
    obtain ⟨left, rfl⟩ : ∃ left, turns = left + 4 + 1 := ⟨turns - 5, by omega⟩
    rw [skipStringFrom, if_pos here.inside, here.byte, if_pos rfl]
    have digits : ∀ byte ∈ [a, b, c, d], Plain byte := by
      simp only [List.mem_cons, List.not_mem_nil, or_false]
      rintro byte (rfl | rfl | rfl | rfl)
      · exact hexDigit_plain first
      · exact hexDigit_plain second
      · exact hexDigit_plain third
      · exact hexDigit_plain fourth
    have there : At s (j + 2) ([a, b, c, d] ++ (raw ++ (0x22 :: rest))) := here.next.next
    rw [show left + 4 = left + [a, b, c, d].length from rfl, skipStringFrom_plain digits there, ih there.skip (by omega)]
    simp only [List.length_cons, List.length_nil]
    omega

theorem skipString_eq {units : List UInt16} (chars : Chars raw units) (here : At s i (quoted raw ++ rest)) :
    skipString s i = i + (quoted raw).length := by
  have inner : At s (i + 1) (raw ++ (0x22 :: rest)) := by
    have opened : At s i (0x22 :: (raw ++ ([0x22] ++ rest))) := by simpa [quoted] using here
    exact opened.next
  unfold skipString
  rw [skipStringFrom_chars chars inner ?_]
  · simp only [quoted, List.length_cons, List.length_append, List.length_nil]
    omega
  · rw [inner.length, List.length_append, List.length_cons]
    omega

/-! Containers. -/

/-- The loop of `skip_container`, at `depth` and `j`, goes on at `depth'` and `j'` with
turns to spare. -/
def Reaches (s : Bytes) (depth : Int32) (j : Nat) (depth' : Int32) (j' : Nat) : Prop :=
  ∀ turns, s.length - j ≤ turns → ∃ turns', s.length - j' ≤ turns' ∧
    skipContainerFrom s turns depth j = skipContainerFrom s turns' depth' j'

theorem Reaches.refl (s : Bytes) (depth : Int32) (j : Nat) : Reaches s depth j depth j :=
  fun turns enough => ⟨turns, enough, rfl⟩

theorem Reaches.trans {d d' d'' : Int32} {j j' j'' : Nat} (first : Reaches s d j d' j') (second : Reaches s d' j' d'' j'') :
    Reaches s d j d'' j'' := by
  intro turns enough
  obtain ⟨turns', enough', moved⟩ := first turns enough
  obtain ⟨turns'', enough'', moved'⟩ := second turns' enough'
  exact ⟨turns'', enough'', moved.trans moved'⟩

/-- One turn of the loop that moves on. -/
theorem Reaches.turn {depth depth' : Int32} {j' : Nat} (inside : j < s.length) (forward : j < j')
    (moves : ∀ turns, skipContainerFrom s (turns + 1) depth j = skipContainerFrom s turns depth' j') :
    Reaches s depth j depth' j' := by
  intro turns enough
  cases turns with
  | zero => omega
  | succ turns => exact ⟨turns, by omega, moves turns⟩

abbrev IsOpen (byte : UInt8) : Prop := byte = 0x7b ∨ byte = 0x5b
abbrev IsClose (byte : UInt8) : Prop := byte = 0x7d ∨ byte = 0x5d

theorem depth_up (d : Nat) : Int32.ofNat d + 1 = Int32.ofNat (d + 1) := (Int32.ofNat_add d 1).symm

theorem depth_down (d : Nat) : Int32.ofNat (d + 1) - 1 = Int32.ofNat d := by
  rw [← depth_up]
  exact Int32.add_sub_cancel _ _

theorem depth_zero (d : Nat) : Int32.ofNat d = 0 ↔ d % 2 ^ 32 = 0 := by
  rw [← Int32.toBitVec_inj, ← BitVec.toNat_inj]
  exact Iff.rfl

/-- The loop comes out of this text as deep as it went in, at any depth from which the
text cannot take the counter round. -/
structure Passes (text : Bytes) : Prop where
  reaches : ∀ {s rest : Bytes} {depth j : Nat}, At s j (text ++ rest) → 0 < depth → depth + text.length < 2 ^ 32 →
    Reaches s (.ofNat depth) j (.ofNat depth) (j + text.length)

theorem Passes.nil : Passes [] := ⟨fun _ _ _ => Reaches.refl _ _ _⟩

theorem Passes.append {left right : Bytes} (first : Passes left) (second : Passes right) : Passes (left ++ right) := by
  refine ⟨fun {s rest depth j} here deep small => ?_⟩
  rw [List.append_assoc] at here
  rw [List.length_append] at small ⊢
  rw [← Nat.add_assoc]
  exact (first.reaches here deep (by omega)).trans (second.reaches here.skip deep (by omega))

theorem Passes.byte {byte : UInt8} (noQuote : byte ≠ 0x22) (noOpen : ¬ IsOpen byte) (noClose : ¬ IsClose byte) :
    Passes [byte] := by
  refine ⟨fun {s rest depth j} here deep small => ?_⟩
  refine .turn here.inside (Nat.lt_succ_self j) fun turns => ?_
  rw [skipContainerFrom, if_pos here.inside, here.byte, if_neg noQuote, if_neg noOpen, if_neg noClose]
  rfl

theorem Passes.string {units : List UInt16} (chars : Chars raw units) : Passes (quoted raw) := by
  refine ⟨fun {s rest depth j} here deep small => ?_⟩
  refine .turn here.inside (by simp [quoted]) fun turns => ?_
  rw [skipContainerFrom, if_pos here.inside, here.byte, if_pos rfl, skipString_eq chars here]

theorem Passes.nest {opening closing : UInt8} {inside : Bytes} (isOpen : IsOpen opening) (isClose : IsClose closing)
    (passes : Passes inside) : Passes (opening :: (inside ++ [closing])) := by
  refine ⟨fun {s rest depth j} here deep small => ?_⟩
  simp only [List.cons_append, List.append_assoc] at here
  simp only [List.length_cons, List.length_append, List.length_nil] at small ⊢
  have noQuote : ∀ byte, IsOpen byte ∨ IsClose byte → byte ≠ 0x22 := by
    rintro byte ((rfl | rfl) | (rfl | rfl)) <;> decide
  have opens : Reaches s (.ofNat depth) j (.ofNat (depth + 1)) (j + 1) := by
    refine .turn here.inside (Nat.lt_succ_self j) fun turns => ?_
    rw [skipContainerFrom, if_pos here.inside, here.byte, if_neg (noQuote _ (.inl isOpen)), if_pos isOpen, depth_up]
  have there := here.next.skip
  have closes : Reaches s (.ofNat (depth + 1)) (j + 1 + inside.length) (.ofNat depth) (j + 1 + inside.length + 1) := by
    refine .turn there.inside (Nat.lt_succ_self _) fun turns => ?_
    have noOpen : ¬ IsOpen closing := by
      rcases isClose with rfl | rfl <;> unfold IsOpen <;> decide
    rw [skipContainerFrom, if_pos there.inside, there.byte, if_neg (noQuote _ (.inr isClose)), if_neg noOpen,
      if_pos isClose, depth_down, if_neg ((depth_zero depth).not.mpr (by omega))]
  have whole := (opens.trans (passes.reaches here.next (by omega) (by omega))).trans closes
  rwa [show j + 1 + inside.length + 1 = j + (inside.length + (0 + 1) + 1) by omega] at whole

theorem Passes.bytes (each : ∀ byte ∈ text, byte ≠ 0x22 ∧ ¬ IsOpen byte ∧ ¬ IsClose byte) : Passes text := by
  induction text with
  | nil => exact .nil
  | cons byte text ih =>
    obtain ⟨noQuote, noOpen, noClose⟩ := each byte List.mem_cons_self
    exact (Passes.byte noQuote noOpen noClose).append (ih fun other member => each other (List.mem_cons_of_mem _ member))

/-! Values. -/

/-- The bytes of numbers and of the three literal names. -/
def Word (byte : UInt8) : Prop :=
  (0x30 ≤ byte ∧ byte ≤ 0x39) ∨ (0x61 ≤ byte ∧ byte ≤ 0x7a) ∨ byte = 0x2d ∨ byte = 0x2b ∨ byte = 0x2e ∨ byte = 0x45

instance (byte : UInt8) : Decidable (Word byte) := by
  unfold Word
  infer_instance

theorem Word.ne {byte other : UInt8} (word : Word byte) (isOther : ¬ Word other) : byte ≠ other := by
  rintro rfl
  exact isOther word

theorem words_all (all : text.all (fun byte => decide (Word byte)) = true) : ∀ byte ∈ text, Word byte :=
  fun byte member => of_decide_eq_true (List.all_eq_true.mp all byte member)

theorem word_digits (digits : Digits text) : ∀ byte ∈ text, Word byte := fun byte member => .inl (digits.2 byte member)

theorem word_number (number : IsNumber text) : text ≠ [] ∧ ∀ byte ∈ text, Word byte := by
  obtain ⟨minus, int, frac, exp, isMinus, isInt, isFrac, isExp, rfl⟩ := number
  have inMinus : ∀ byte ∈ minus, Word byte := by
    rcases isMinus with rfl | rfl
    · simp
    · simp only [List.mem_singleton, forall_eq]
      decide
  have inFrac : ∀ byte ∈ frac, Word byte := by
    rcases isFrac with rfl | ⟨digits, isDigits, rfl⟩
    · simp
    · exact List.forall_mem_cons.mpr ⟨by decide, word_digits isDigits⟩
  have inExp : ∀ byte ∈ exp, Word byte := by
    rcases isExp with rfl | ⟨e, sign, digits, isE, isSign, isDigits, rfl⟩
    · simp
    · refine List.forall_mem_cons.mpr ⟨?_, List.forall_mem_append.mpr ⟨?_, word_digits isDigits⟩⟩
      · rcases isE with rfl | rfl <;> decide
      · rcases isSign with rfl | rfl | rfl <;> exact words_all (by decide)
  refine ⟨?_, ?_⟩
  · simp [isInt.1.1]
  · simp only [List.forall_mem_append]
    exact ⟨⟨⟨inMinus, word_digits isInt.1⟩, inFrac⟩, inExp⟩

/-- What `skip_value` can be at. -/
inductive Shape : Bytes → Prop
  | scalar {text : Bytes} (filled : text ≠ []) (words : ∀ byte ∈ text, Word byte) : Shape text
  | string {raw : Bytes} {units : List UInt16} (chars : Chars raw units) : Shape (quoted raw)
  | container {opening closing : UInt8} {inside : Bytes} (isOpen : IsOpen opening) (isClose : IsClose closing)
      (passes : Passes inside) : Shape (opening :: (inside ++ [closing]))

theorem Shape.passes (shape : Shape text) : Passes text := by
  cases shape with
  | scalar filled words =>
    refine .bytes fun byte member => ?_
    have word := words byte member
    refine ⟨word.ne (by decide), ?_, ?_⟩
    · rintro (same | same) <;> exact word.ne (by decide) same
    · rintro (same | same) <;> exact word.ne (by decide) same
  | string chars => exact .string chars
  | container isOpen isClose passes => exact .nest isOpen isClose passes

theorem blank_passes (blank : Blank) : Passes blank.1 := by
  refine .bytes fun byte member => ?_
  rcases blank.2 byte member with rfl | rfl | rfl | rfl <;> decide

theorem listed_passes {parts : List Bytes} {inside : Bytes} (listed : Listed parts inside)
    (each : ∀ part ∈ parts, Passes part) : Passes inside := by
  induction listed with
  | none blank => exact blank_passes blank
  | last part => exact each part List.mem_cons_self
  | cons part more ih =>
    have comma : Passes [0x2c] := .byte (by decide) (by decide) (by decide)
    exact (each part List.mem_cons_self).append
      (comma.append (ih fun other member => each other (List.mem_cons_of_mem _ member)))

theorem Item.passes {item : Item} (passes : Passes item.text) : Passes item.spell :=
  (blank_passes item.lead).append (passes.append (blank_passes item.trail))

theorem Member.passes {member : Member} (passes : Passes member.item.text) : Passes member.spell := by
  have colon : Passes [0x3a] := .byte (by decide) (by decide) (by decide)
  exact (blank_passes member.lead).append
    ((Passes.string member.spelled).append ((blank_passes member.gap).append (colon.append (Item.passes passes))))

theorem members_pass {members : List Member} {inside : Bytes} (listed : Listed (members.map Member.spell) inside)
    (each : ∀ member ∈ members, Passes member.item.text) : Passes inside := by
  refine listed_passes listed fun part isPart => ?_
  obtain ⟨member, isMember, rfl⟩ := List.mem_map.mp isPart
  exact Member.passes (each member isMember)

theorem reads_shape {value : Value} (reads : Reads text value) : Shape text := by
  induction reads with
  | null => exact .scalar (by decide) (words_all (by decide))
  | yes => exact .scalar (by decide) (words_all (by decide))
  | no => exact .scalar (by decide) (words_all (by decide))
  | number isNumber => exact .scalar (word_number isNumber).1 (word_number isNumber).2
  | string chars => exact .string chars
  | array items listed each ih =>
    refine .container (.inr rfl) (.inr rfl) (listed_passes listed fun part isPart => ?_)
    obtain ⟨item, isItem, rfl⟩ := List.mem_map.mp isPart
    exact Item.passes (ih item isItem).passes
  | object members listed each ih =>
    exact .container (.inl rfl) (.inl rfl) (members_pass listed fun member isMember => (ih member isMember).passes)

/-- An ASCII byte `trim` leaves alone. -/
def Sharp (byte : UInt8) : Prop := 0x20 < byte ∧ byte < 0x80

instance (byte : UInt8) : Decidable (Sharp byte) := inferInstanceAs (Decidable (_ ∧ _))

theorem Word.sharp {byte : UInt8} (word : Word byte) : Sharp byte := by
  unfold Word at word
  unfold Sharp
  simp only [UInt8.le_iff_toNat_le, UInt8.lt_iff_toNat_lt, ← UInt8.toNat_inj] at *
  simp at *
  omega

theorem Shape.first (shape : Shape text) : ∃ byte more, text = byte :: more ∧ Sharp byte := by
  cases shape with
  | scalar filled words =>
    obtain ⟨byte, more, rfl⟩ := List.exists_cons_of_ne_nil filled
    exact ⟨byte, more, rfl, (words byte List.mem_cons_self).sharp⟩
  | string chars => exact ⟨_, _, rfl, by decide⟩
  | container isOpen isClose passes =>
    refine ⟨_, _, rfl, ?_⟩
    rcases isOpen with rfl | rfl <;> decide

theorem Shape.last (shape : Shape text) : ∃ more byte, text = more ++ [byte] ∧ Sharp byte := by
  cases shape with
  | scalar filled words =>
    obtain ⟨more, byte, rfl⟩ := (List.eq_nil_or_concat' text).resolve_left filled
    exact ⟨more, byte, rfl, (words byte (by simp)).sharp⟩
  | string chars => exact ⟨_ :: _, _, rfl, by decide⟩
  | container isOpen isClose passes =>
    refine ⟨_ :: _, _, rfl, ?_⟩
    rcases isClose with rfl | rfl <;> decide

/-! `trim`. -/

theorem strip_sharp {spaces : List Bytes} {byte : UInt8} (sharp : Sharp byte)
    (blunt : ∀ space ∈ spaces, ∃ first more, space = first :: more ∧ ¬ Sharp first) :
    strip spaces turns (byte :: rest) = byte :: rest := by
  cases turns with
  | zero => rfl
  | succ turns =>
    have nothing : spaces.find? (·.isPrefixOf (byte :: rest)) = none := by
      refine List.find?_eq_none.mpr fun space member => ?_
      obtain ⟨first, more, rfl, isBlunt⟩ := blunt space member
      have differs : first ≠ byte := by
        rintro rfl
        exact isBlunt sharp
      simp [List.isPrefixOf, differs]
    rw [strip, nothing]

theorem whitespace_blunt : ∀ space ∈ whitespace, ∃ first more, space = first :: more ∧ ¬ Sharp first := by
  have heads : ∀ space ∈ whitespace, ∃ first ∈ space.head?, ¬ Sharp first := by decide
  intro space member
  obtain ⟨first, isHead, blunt⟩ := heads space member
  obtain ⟨more, rfl⟩ := List.head?_eq_some_iff.mp isHead
  exact ⟨first, more, rfl, blunt⟩

theorem reversed_blunt : ∀ space ∈ whitespace.map List.reverse, ∃ first more, space = first :: more ∧ ¬ Sharp first := by
  have heads : ∀ space ∈ whitespace.map List.reverse, ∃ first ∈ space.head?, ¬ Sharp first := by decide
  intro space member
  obtain ⟨first, isHead, blunt⟩ := heads space member
  obtain ⟨more, rfl⟩ := List.head?_eq_some_iff.mp isHead
  exact ⟨first, more, rfl, blunt⟩

theorem strip_blank {byte : UInt8} (sharp : Sharp byte) (blank : IsBlank text) (enough : text.length ≤ turns) :
    strip (whitespace.map List.reverse) turns (text ++ (byte :: rest)) = byte :: rest := by
  induction text generalizing turns with
  | nil => exact strip_sharp sharp reversed_blunt
  | cons space text ih =>
    cases turns with
    | zero => cases enough
    | succ turns =>
      have found : (whitespace.map List.reverse).find? (·.isPrefixOf (space :: (text ++ (byte :: rest)))) = some [space] := by
        rcases blank space List.mem_cons_self with rfl | rfl | rfl | rfl <;> rfl
      rw [List.cons_append, strip, found]
      exact ih (fun other member => blank other (List.mem_cons_of_mem _ member)) (Nat.le_of_succ_le_succ enough)

theorem trim_shape (shape : Shape text) (blank : Blank) : trim (text ++ blank.1) = text := by
  obtain ⟨first, more, isFirst, sharp⟩ := shape.first
  obtain ⟨front, last, isLast, sharpLast⟩ := shape.last
  have start : trimStart (text ++ blank.1) = text ++ blank.1 := by
    rw [trimStart, isFirst]
    exact strip_sharp sharp whitespace_blunt
  have mirrored : (text ++ blank.1).reverse = blank.1.reverse ++ (last :: front.reverse) := by
    rw [isLast]
    simp
  rw [trim, start, trimEnd, mirrored, strip_blank sharpLast (fun byte member => blank.2 byte (List.mem_reverse.mp member))]
  · rw [isLast]
    simp
  · simp

/-! Slices. -/

/-- A character could begin here. -/
def Lead (rest : Bytes) : Prop := ∀ byte ∈ rest.head?, byte &&& 0xc0 ≠ 0x80

set_option maxRecDepth 4000 in
private theorem not_continuation : ∀ n : Fin 256, n.val < 0x80 ∨ 0xc0 ≤ n.val → UInt8.ofNat n.val &&& 0xc0 ≠ 0x80 := by
  decide

theorem lead_cons {byte : UInt8} (start : byte < 0x80 ∨ 0xc0 ≤ byte) : Lead (byte :: rest) := by
  intro other isFirst
  obtain rfl : byte = other := Option.some.inj isFirst
  have bits := not_continuation ⟨byte.toNat, byte.toNat_lt⟩ start
  rwa [UInt8.ofNat_toNat] at bits

theorem Sharp.lead {byte : UInt8} (sharp : Sharp byte) : Lead (byte :: rest) := lead_cons (.inl sharp.2)

theorem Sharp.solid {byte : UInt8} (sharp : Sharp byte) : Solid (byte :: rest) := by
  refine solid_cons (Bool.eq_false_iff.mpr fun isBlank => ?_)
  rcases (isWs_iff byte).mp isBlank with rfl | rfl | rfl | rfl <;> exact absurd sharp (by decide)

theorem boundary_at (here : At s i rest) (lead : Lead rest) : boundary s i = true := by
  unfold boundary
  cases rest with
  | nil => simp [here.length]
  | cons byte rest => simp [here.inside, here.byte, lead byte rfl]

theorem slice_at (here : At s i (text ++ rest)) (lead : Lead (text ++ rest)) (ends : Lead rest) :
    slice s i (i + text.length) = some text := by
  unfold slice
  rw [if_pos ⟨Nat.le_add_right .., boundary_at here lead, boundary_at here.skip ends⟩]
  obtain ⟨before, rfl, rfl⟩ := here
  simp

theorem chars_lead {units : List UInt16} (chars : Chars raw units) : Lead (raw ++ (0x22 :: rest)) := by
  cases chars with
  | nil => exact Sharp.lead (by decide)
  | plain c visible noQuote noBackslash more =>
    rcases utf8EncodeChar_shape c with ⟨ascii, encoded⟩ | ⟨start, continued, encoded, high, -⟩
    · rw [encoded]
      refine lead_cons (.inl ?_)
      rw [UInt8.lt_iff_toNat_lt, UInt8.toNat_ofNat']
      exact Nat.lt_of_le_of_lt (Nat.mod_le ..) ascii
    · rw [encoded]
      exact lead_cons (.inr high)
  | escape listed more => exact Sharp.lead (by decide)
  | unicode first second third fourth more => exact Sharp.lead (by decide)

/-! `skip_value`. -/

/-- A comma or a closing bracket: what can follow a value and its white space. -/
def Ended (rest : Bytes) : Prop := ∃ byte more, rest = byte :: more ∧ (byte = 0x2c ∨ IsClose byte)

theorem skipScalarFrom_words (words : ∀ byte ∈ text, byte ≠ 0x2c ∧ ¬ IsClose byte) (here : At s j (text ++ rest))
    (ended : Ended rest) (enough : text.length ≤ turns) : skipScalarFrom s turns j = j + text.length := by
  induction text generalizing j turns with
  | nil =>
    obtain ⟨byte, more, rfl, isEnd⟩ := ended
    cases turns with
    | zero => rfl
    | succ turns =>
      unfold skipScalarFrom
      refine if_neg ?_
      rw [here.byte]
      rintro ⟨-, noComma, noBrace, noBracket⟩
      rcases isEnd with isComma | isBrace | isBracket
      · exact noComma isComma
      · exact noBrace isBrace
      · exact noBracket isBracket
  | cons byte text ih =>
    cases turns with
    | zero => cases enough
    | succ turns =>
      obtain ⟨noComma, noClose⟩ := words byte List.mem_cons_self
      unfold skipScalarFrom
      rw [here.byte, if_pos ⟨here.inside, noComma, fun same => noClose (.inl same), fun same => noClose (.inr same)⟩,
        ih (fun other member => words other (List.mem_cons_of_mem _ member)) here.next (Nat.le_of_succ_le_succ enough),
        List.length_cons]
      omega

theorem skipContainer_eq {opening closing : UInt8} {inside : Bytes} (isOpen : IsOpen opening) (isClose : IsClose closing)
    (passes : Passes inside) (here : At s i (opening :: (inside ++ (closing :: rest)))) (small : s.length < 2 ^ 32) :
    skipContainer s i = i + inside.length + 2 := by
  have noQuote : ∀ byte, IsOpen byte ∨ IsClose byte → byte ≠ 0x22 := by
    rintro byte ((rfl | rfl) | (rfl | rfl)) <;> decide
  have length := here.length
  simp only [List.length_cons, List.length_append] at length
  have opens : Reaches s 0 i (.ofNat 1) (i + 1) := by
    refine .turn here.inside (Nat.lt_succ_self i) fun turns => ?_
    rw [skipContainerFrom, if_pos here.inside, here.byte, if_neg (noQuote _ (.inl isOpen)), if_pos isOpen]
    rfl
  obtain ⟨turns, enough, reached⟩ :=
    opens.trans (passes.reaches here.next Nat.one_pos (by omega)) s.length (Nat.sub_le ..)
  have there := here.next.skip
  have noOpen : ¬ IsOpen closing := by
    rcases isClose with rfl | rfl <;> decide
  cases turns with
  | zero => omega
  | succ turns =>
    rw [skipContainer, reached, skipContainerFrom, if_pos there.inside, there.byte, if_neg (noQuote _ (.inr isClose)),
      if_neg noOpen, if_pos isClose, if_pos (by decide)]
    omega

/-- The walk over a value ends behind it, or behind the white space that follows. -/
theorem skipValue_shape (shape : Shape text) (trail : Blank) (here : At s i (text ++ (trail.1 ++ rest))) (ended : Ended rest)
    (small : s.length < 2 ^ 32) : ∃ pad more : Blank, trail.1 = pad.1 ++ more.1 ∧
      skipValue s i = i + (text ++ pad.1).length := by
  obtain ⟨first, others, isFirst, sharp⟩ := shape.first
  have start : At s i (first :: (others ++ (trail.1 ++ rest))) := by
    rw [isFirst] at here
    exact here
  unfold skipValue
  dsimp only
  rw [skipWs_solid start sharp.solid, if_neg (Nat.not_le.mpr start.inside), start.byte]
  cases shape with
  | scalar filled words =>
    refine ⟨trail, .none, (List.append_nil _).symm, ?_⟩
    have word : Word first := words first (isFirst ▸ List.mem_cons_self)
    have noOpen : ¬ IsOpen first := by
      rintro (same | same) <;> exact word.ne (by decide) same
    rw [if_neg (word.ne (by decide)), if_neg noOpen]
    refine skipScalarFrom_words ?_ ((List.append_assoc ..).symm ▸ here) ended ?_
    · refine List.forall_mem_append.mpr ⟨fun byte member => ?_, fun byte member => ?_⟩
      · have word := words byte member
        refine ⟨word.ne (by decide), ?_⟩
        rintro (same | same) <;> exact word.ne (by decide) same
      · rcases trail.2 byte member with rfl | rfl | rfl | rfl <;> decide
    · have length := here.length
      simp only [List.length_append] at length ⊢
      omega
  | string chars =>
    refine ⟨.none, trail, rfl, ?_⟩
    obtain rfl : 0x22 = first := (List.cons.inj isFirst).1
    rw [if_pos rfl, skipString_eq chars here]
    exact congrArg (i + ·) (congrArg List.length (List.append_nil _).symm)
  | container isOpen isClose passes =>
    refine ⟨.none, trail, rfl, ?_⟩
    obtain rfl := (List.cons.inj isFirst).1
    have noQuote : ∀ byte, IsOpen byte → byte ≠ 0x22 := by
      rintro byte (rfl | rfl) <;> decide
    rw [if_neg (noQuote _ isOpen), if_pos isOpen, skipContainer_eq isOpen isClose passes (by simpa using here) small]
    simp [Blank.none]
    omega

/-! `object_get`. -/

theorem key_text {units : List UInt16} (chars : Chars raw units) (here : At s i (quoted raw ++ rest)) :
    slice s (i + 1) (skipString s i - 1) = some raw := by
  have opened : At s i (0x22 :: (raw ++ (0x22 :: rest))) := by simpa [quoted] using here
  have stop : skipString s i - 1 = i + 1 + raw.length := by
    rw [skipString_eq chars here]
    simp only [quoted, List.length_cons, List.length_append, List.length_nil]
    omega
  rw [stop]
  exact slice_at opened.next (chars_lead chars) (Sharp.lead (by decide))

theorem Ended.sharp (ended : Ended rest) : ∃ byte more, rest = byte :: more ∧ Sharp byte := by
  obtain ⟨byte, more, rfl, isComma | isBrace | isBracket⟩ := ended
  · exact ⟨byte, more, rfl, isComma ▸ by decide⟩
  · exact ⟨byte, more, rfl, isBrace ▸ by decide⟩
  · exact ⟨byte, more, rfl, isBracket ▸ by decide⟩

theorem blank_lead (blank : Blank) (ended : Ended rest) : Lead (blank.1 ++ rest) := by
  obtain ⟨byte, more, rfl, sharp⟩ := ended.sharp
  cases isBlank : blank.1 with
  | nil => exact sharp.lead
  | cons space spaces =>
    refine lead_cons (.inl ?_)
    rcases blank.2 space (isBlank ▸ List.mem_cons_self) with rfl | rfl | rfl | rfl <;> decide

theorem value_text (shape : Shape text) (trail : Blank) (here : At s i (text ++ (trail.1 ++ rest))) (ended : Ended rest)
    (small : s.length < 2 ^ 32) : (slice s i (skipValue s i)).map trim = some text ∧
      skipWs s (skipValue s i) = i + text.length + trail.1.length := by
  obtain ⟨pad, more, padded, stop⟩ := skipValue_shape shape trail here ended small
  obtain ⟨first, others, isFirst, sharp⟩ := shape.first
  obtain ⟨byte, after, isEnd, sharpEnd⟩ := ended.sharp
  have spread : At s i ((text ++ pad.1) ++ (more.1 ++ rest)) := by
    rw [padded] at here
    simpa using here
  have lead : Lead ((text ++ pad.1) ++ (more.1 ++ rest)) := by
    rw [isFirst]
    exact sharp.lead
  rw [stop]
  refine ⟨?_, ?_⟩
  · rw [slice_at spread lead (blank_lead more ended), Option.map_some, trim_shape shape]
  · rw [skipWs_blank more spread.skip (isEnd ▸ sharpEnd.solid), padded]
    simp only [List.length_append]
    omega

/-- What one turn of the loop makes of a member. -/
theorem findMember_member (key : Bytes) {member : Member} (shape : Shape member.item.text)
    (here : At s i (member.spell ++ rest)) (ended : Ended rest) (small : s.length < 2 ^ 32) :
    findMember s key (turns + 1) i =
      if member.key = key then some member.item.text
      else if at' s (i + member.spell.length) = 0x2c then findMember s key turns (i + member.spell.length + 1) else none := by
  have stop : i + member.spell.length < s.length := by
    obtain ⟨byte, after, rfl, -⟩ := ended
    exact here.skip.inside
  have spread : At s i (member.lead.1 ++ (quoted member.key ++ (member.gap.1 ++ (0x3a ::
      (member.item.lead.1 ++ (member.item.text ++ (member.item.trail.1 ++ rest))))))) := by
    simpa [Member.spell, Item.spell] using here
  -- the key
  have atKey := skipWs_at member.lead spread (solid_cons (by decide))
  have keyStart := skipWs_blank member.lead spread (solid_cons (by decide))
  have keyEnd := skipString_eq member.spelled atKey
  -- the colon
  have pastKey : At s (skipString s (skipWs s i)) _ := keyEnd ▸ atKey.skip
  have atColon := skipWs_at member.gap pastKey (solid_cons (by decide))
  have colon := skipWs_blank member.gap pastKey (solid_cons (by decide))
  -- the value
  obtain ⟨first, others, isFirst, sharp⟩ := shape.first
  have solid : Solid (member.item.text ++ (member.item.trail.1 ++ rest)) := isFirst ▸ sharp.solid
  have atValue := skipWs_at member.item.lead atColon.next solid
  have valueStart := skipWs_blank member.item.lead atColon.next solid
  obtain ⟨value, valueEnd⟩ := value_text shape member.item.trail atValue ended small
  have next : skipWs s (skipValue s (skipWs s (skipWs s (skipString s (skipWs s i)) + 1))) = i + member.spell.length := by
    simp only [Member.spell, Item.spell, List.length_append, List.length_cons]
    omega
  have noKey : ¬ (s.length ≤ skipWs s i ∨ at' s (skipWs s i) ≠ 0x22) := by
    simp [atKey.inside, At.byte (show At s _ (0x22 :: _) from atKey)]
  have noColon : ¬ (s.length ≤ skipWs s (skipString s (skipWs s i)) ∨ at' s (skipWs s (skipString s (skipWs s i))) ≠ 0x3a) := by
    simp [atColon.inside, atColon.byte]
  rw [findMember]
  dsimp only
  rw [if_neg noKey, key_text member.spelled atKey]
  dsimp only
  rw [if_neg noColon, value, next]
  simp only [stop, true_and]

theorem findMember_members (key : Bytes) {members : List Member} {inside : Bytes}
    (shapes : ∀ member ∈ members, Shape member.item.text) (listed : Listed (members.map Member.spell) inside)
    (here : At s i (inside ++ (0x7d :: rest))) (small : s.length < 2 ^ 32) (enough : members.length ≤ turns) :
    findMember s key turns i = (members.find? (·.key = key)).map (·.item.text) := by
  induction members generalizing inside i turns with
  | nil =>
    cases listed with
    | none blank =>
      have atBrace := skipWs_at blank here (solid_cons (by decide))
      cases turns with
      | zero => rfl
      | succ turns =>
        rw [findMember]
        dsimp only
        rw [if_pos (.inr (by rw [atBrace.byte]; decide))]
        rfl
  | cons member members ih =>
    have shape := shapes member List.mem_cons_self
    cases turns with
    | zero => cases enough
    | succ turns =>
      rw [List.find?_cons]
      cases members with
      | nil =>
        cases listed with
        | last part =>
          rw [findMember_member key shape here ⟨_, _, rfl, .inr (.inl rfl)⟩ small, here.skip.byte]
          by_cases same : member.key = key <;> simp [same]
      | cons second members =>
        cases listed with
        | cons part more =>
          rename_i rest'
          have spread : At s i (member.spell ++ (0x2c :: (rest' ++ (0x7d :: rest)))) := by simpa using here
          rw [findMember_member key shape spread ⟨_, _, rfl, .inl rfl⟩ small, spread.skip.byte, if_pos rfl,
            ih (fun other isMember => shapes other (List.mem_cons_of_mem _ isMember)) more spread.skip.next
              (Nat.le_of_succ_le_succ enough)]
          by_cases same : member.key = key <;> simp [same]

theorem listed_length {parts : List Bytes} {inside : Bytes} (listed : Listed parts inside) :
    parts.length ≤ inside.length + 1 := by
  induction listed with
  | none blank => exact Nat.zero_le _
  | last part => exact Nat.succ_le_succ (Nat.zero_le _)
  | cons part more ih =>
    simp only [List.length_cons, List.length_append] at ih ⊢
    omega

theorem objectGet_members (key : Bytes) {members : List Member} (object : IsObject s members) (small : s.length < 2 ^ 32) :
    objectGet s key = (members.find? (·.key = key)).map (·.item.text) := by
  obtain ⟨lead, trail, inside, listed, spelled⟩ := object.framed
  have here : At s 0 (lead.1 ++ (0x7b :: (inside ++ (0x7d :: trail.1)))) := spelled ▸ At.start s
  have opened := skipWs_at lead here (solid_cons (by decide))
  unfold objectGet
  dsimp only
  rw [opened.byte, if_neg (by simp [opened.inside])]
  refine findMember_members key (fun member isMember => reads_shape (object.each member isMember)) listed opened.next small ?_
  have many := listed_length listed
  have length := here.length
  simp only [List.length_map, List.length_append, List.length_cons] at many length
  omega

end Kernai.Json
