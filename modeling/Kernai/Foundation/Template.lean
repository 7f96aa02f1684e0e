import Kernai.Foundation.Rfc8259

/-! JSON texts written in pieces: fixed text with gaps in it, some for values and some
inside strings. What such a text stands for, whatever fills the gaps, is found by reading
the pieces once. -/

namespace Kernai.Foundation.Rfc8259

/-- A value together with a text of it. -/
structure Filled where
  text : List UInt8
  value : Value
  reads : Reads text value

/-- A string together with its text between the quotes. -/
structure Spelled where
  raw : List UInt8
  units : List UInt16
  chars : Chars raw units

/-- What the gaps are filled with. -/
structure Filling where
  values : List Filled
  strings : List Spelled

def Filling.value (filling : Filling) (index : Nat) : Filled := filling.values.getD index ⟨_, _, .null⟩
def Filling.string (filling : Filling) (index : Nat) : Spelled := filling.strings.getD index ⟨_, _, .nil⟩

inductive Symbol where
  | byte (byte : UInt8)
  | value (index : Nat)
  | chars (index : Nat)
deriving DecidableEq

/-- A piece of a text. -/
inductive Part where
  | fixed (bytes : List UInt8)
  | value (index : Nat)
  | chars (index : Nat)

def Part.symbols : Part → List Symbol
  | .fixed bytes => bytes.map .byte
  | .value index => [.value index]
  | .chars index => [.chars index]

/-- The value of a text with gaps. The members of an object are given by their names and
their values. -/
inductive Doc where
  | null
  | bool (value : Bool)
  | number (literal : List UInt8)
  | string (inside : List Symbol)
  | array (items : List Doc)
  | object (keys : List (List UInt8)) (items : List Doc)
  | gap (index : Nat)

section Reading

/-- The rest of a string, up to its closing quote. -/
def inside : List Symbol → Option (List Symbol × List Symbol)
  | .byte byte :: rest =>
    if byte = 0x22 then some ([], rest)
    else if Plain byte then (inside rest).map fun (symbols, rest) => (.byte byte :: symbols, rest)
    else none
  | .chars index :: rest => (inside rest).map fun (symbols, rest) => (.chars index :: symbols, rest)
  | _ => none

/-- The name of a member, from behind its opening quote up to the colon. -/
def name : List Symbol → Option (List UInt8 × List Symbol)
  | .byte byte :: rest =>
    if byte = 0x22 then
      match rest with
      | .byte colon :: rest => if colon = 0x3a then some ([], rest) else none
      | _ => none
    else if Plain byte then (name rest).map fun (key, rest) => (byte :: key, rest)
    else none
  | _ => none

def word : List UInt8 → List Symbol → Option (List Symbol)
  | [], rest => some rest
  | expected :: word', .byte byte :: rest => if byte = expected then word word' rest else none
  | _, _ => none

def digits : List Symbol → List UInt8 × List Symbol
  | .byte byte :: rest =>
    if 0x30 ≤ byte ∧ byte ≤ 0x39 then (byte :: (digits rest).1, (digits rest).2) else ([], .byte byte :: rest)
  | rest => ([], rest)

def number (minus : List UInt8) (symbols : List Symbol) : Option (Doc × List Symbol) :=
  let (int, rest) := digits symbols
  if int ≠ [] ∧ (int.head? = some 0x30 → int = [0x30]) then some (.number (minus ++ int), rest) else none

variable (value : List Symbol → Option (Doc × List Symbol))

/-- The rest of an array, at an item. -/
def items : (turns : Nat) → List Symbol → Option (List Doc × List Symbol)
  | 0, _ => none
  | turns + 1, symbols =>
    match value symbols with
    | some (doc, .byte byte :: rest) =>
      if byte = 0x2c then (items turns rest).map fun (docs, rest) => (doc :: docs, rest)
      else if byte = 0x5d then some ([doc], rest)
      else none
    | _ => none

/-- The rest of an object, at the name of a member. -/
def members : (turns : Nat) → List Symbol → Option (List (List UInt8) × List Doc × List Symbol)
  | 0, _ => none
  | turns + 1, .byte quote :: symbols =>
    if quote = 0x22 then
      match name symbols with
      | some (key, symbols) =>
        match value symbols with
        | some (doc, .byte byte :: rest) =>
          if byte = 0x2c then (members turns rest).map fun (keys, docs, rest) => (key :: keys, doc :: docs, rest)
          else if byte = 0x7d then some ([key], [doc], rest)
          else none
        | _ => none
      | none => none
    else none
  | _, _ => none

/-- The rest of an object, from behind its opening bracket. -/
def object (symbols : List Symbol) : Option (Doc × List Symbol) :=
  match word [0x7d] symbols with
  | some rest => some (.object [] [], rest)
  | none => (members value symbols.length symbols).map fun (keys, docs, rest) => (.object keys docs, rest)

def array (symbols : List Symbol) : Option (Doc × List Symbol) :=
  match word [0x5d] symbols with
  | some rest => some (.array [], rest)
  | none => (items value symbols.length symbols).map fun (docs, rest) => (.array docs, rest)

/-- A value at the start of these pieces, with no more than `depth` levels to it. -/
def parse : (depth : Nat) → List Symbol → Option (Doc × List Symbol)
  | 0, _ => none
  | _ + 1, .value index :: rest => some (.gap index, rest)
  | depth + 1, .byte byte :: rest =>
    if byte = 0x22 then (inside rest).map fun (symbols, rest) => (.string symbols, rest)
    else if byte = 0x7b then object (parse depth) rest
    else if byte = 0x5b then array (parse depth) rest
    else if byte = 0x6e then (word [0x75, 0x6c, 0x6c] rest).map fun rest => (.null, rest)
    else if byte = 0x74 then (word [0x72, 0x75, 0x65] rest).map fun rest => (.bool true, rest)
    else if byte = 0x66 then (word [0x61, 0x6c, 0x73, 0x65] rest).map fun rest => (.bool false, rest)
    else if byte = 0x2d then number [0x2d] rest
    else number [] (.byte byte :: rest)
  | _, _ => none

/-- The value that a text in pieces stands for. -/
def read (parts : List Part) : Option Doc :=
  match parse 8 (parts.flatMap Part.symbols) with
  | some (doc, []) => some doc
  | _ => none

end Reading

section Meaning

variable (filling : Filling)

def Symbol.spell : Symbol → List UInt8
  | .byte code => [code]
  | .value index => (filling.value index).text
  | .chars index => (filling.string index).raw

def spell (symbols : List Symbol) : List UInt8 := symbols.flatMap (·.spell filling)

def Part.spell : Part → List UInt8
  | .fixed bytes => bytes
  | .value index => (filling.value index).text
  | .chars index => (filling.string index).raw

/-- The code units of a string with gaps. -/
def Symbol.units : Symbol → List UInt16
  | .byte code => [code.toUInt16]
  | .value _ => []
  | .chars index => (filling.string index).units

mutual
def Doc.value : Doc → Value
  | .null => .null
  | .bool value => .bool value
  | .number literal => .number literal
  | .string inside => .string (inside.flatMap (·.units filling))
  | .array docs => .array (values docs)
  | .object keys docs => .object (keys.zipWith (fun key value => (ascii key, value)) (values docs))
  | .gap index => (filling.value index).value
termination_by structural doc => doc

def values : List Doc → List Value
  | [] => []
  | doc :: docs => doc.value :: values docs
termination_by structural docs => docs
end

variable {filling} {symbols rest : List Symbol} {doc : Doc}

theorem spell_byte (code : UInt8) (symbols : List Symbol) :
    spell filling (.byte code :: symbols) = code :: spell filling symbols := rfl

theorem inside_chars {taken : List Symbol} (found : inside symbols = some (taken, rest)) :
    ∃ raw, spell filling symbols = raw ++ 0x22 :: spell filling rest ∧ Chars raw (taken.flatMap (·.units filling)) := by
  fun_induction inside symbols generalizing taken rest with
  | case1 rest =>
    cases found
    exact ⟨[], rfl, .nil⟩
  | case2 code symbols noQuote plain ih =>
    obtain ⟨⟨later, rest⟩, isLater, isTaken⟩ := Option.map_eq_some_iff.mp found
    cases isTaken
    obtain ⟨raw, spelled, chars⟩ := ih isLater
    have first : Chars [code] [code.toUInt16] := chars_ascii (by simpa using plain)
    exact ⟨code :: raw, by rw [spell_byte, spelled, List.cons_append], first.append chars⟩
  | case3 => cases found
  | case4 index symbols ih =>
    obtain ⟨⟨later, rest⟩, isLater, isTaken⟩ := Option.map_eq_some_iff.mp found
    cases isTaken
    obtain ⟨raw, spelled, chars⟩ := ih isLater
    refine ⟨(filling.string index).raw ++ raw, ?_, (filling.string index).chars.append chars⟩
    rw [List.append_assoc, ← spelled]
    rfl
  | case5 => cases found

theorem name_spelled {key : List UInt8} (found : name symbols = some (key, rest)) :
    spell filling symbols = key ++ 0x22 :: 0x3a :: spell filling rest ∧ ∀ code ∈ key, Plain code := by
  fun_induction name symbols generalizing key rest with
  | case1 rest =>
    cases found
    exact ⟨rfl, List.forall_mem_nil _⟩
  | case4 code symbols noQuote plain ih =>
    obtain ⟨⟨later, rest⟩, isLater, isKey⟩ := Option.map_eq_some_iff.mp found
    cases isKey
    obtain ⟨spelled, plainly⟩ := ih isLater
    exact ⟨by rw [spell_byte, spelled, List.cons_append], List.forall_mem_cons.mpr ⟨plain, plainly⟩⟩
  | _ => cases found

theorem word_spelled {text : List UInt8} (found : word text symbols = some rest) :
    spell filling symbols = text ++ spell filling rest := by
  fun_induction word text symbols with
  | case1 => 
    cases found
    rfl
  | case2 code text symbols ih => rw [spell_byte, ih found, List.cons_append]
  | _ => cases found

theorem digits_spelled (symbols : List Symbol) :
    spell filling symbols = (digits symbols).1 ++ spell filling (digits symbols).2 ∧ ∀ code ∈ (digits symbols).1, IsDigit code := by
  fun_induction digits symbols with
  | case1 code symbols isDigit ih =>
    exact ⟨by rw [spell_byte, ih.1, List.cons_append], List.forall_mem_cons.mpr ⟨isDigit, ih.2⟩⟩
  | case2 => exact ⟨rfl, nofun⟩
  | case3 => exact ⟨rfl, nofun⟩

/-- The pieces up to `rest` are a text of the value found. -/
def Gives (filling : Filling) (symbols : List Symbol) (doc : Doc) (rest : List Symbol) : Prop :=
  ∃ text, spell filling symbols = text ++ spell filling rest ∧ Reads text (doc.value filling)

theorem word_gives {code : UInt8} {text : List UInt8} {literal : Doc} (reads : Reads (code :: text) (literal.value filling))
    (found : (word text symbols).map (fun rest => (literal, rest)) = some (doc, rest)) :
    Gives filling (.byte code :: symbols) doc rest := by
  obtain ⟨after, isWord, same⟩ := Option.map_eq_some_iff.mp found
  cases same
  exact ⟨code :: text, by rw [spell_byte, word_spelled isWord, List.cons_append], reads⟩

theorem number_gives {minus : List UInt8} (sign : minus = [] ∨ minus = [0x2d]) (found : number minus symbols = some (doc, rest)) :
    ∃ text, spell filling symbols = text ++ spell filling rest ∧ Reads (minus ++ text) (doc.value filling) := by
  unfold number at found
  obtain ⟨spelled, allDigits⟩ := @digits_spelled filling symbols
  generalize digits symbols = taken at found spelled allDigits
  obtain ⟨int, rest'⟩ := taken
  dsimp only at found spelled allDigits
  split at found
  next fine =>
    cases found
    refine ⟨int, spelled, .number ⟨minus, int, [], [], sign, ⟨⟨fine.1, allDigits⟩, fine.2⟩, .inl rfl, .inl rfl, ?_⟩⟩
    rw [List.append_nil, List.append_nil]
  next => cases found

variable {value : List Symbol → Option (Doc × List Symbol)}

theorem commas_more (part : List UInt8) {parts : List (List UInt8)} (some : parts ≠ []) :
    commas (part :: parts) = part ++ 0x2c :: commas parts := by
  obtain ⟨second, more, rfl⟩ := List.exists_cons_of_ne_nil some
  exact commas_cons part second more

theorem commas_one (part : List UInt8) : commas [part] = part := List.append_nil part

theorem items_read (sound : ∀ symbols doc rest, value symbols = some (doc, rest) → Gives filling symbols doc rest)
    {turns : Nat} {docs : List Doc} (found : items value turns symbols = some (docs, rest)) :
    ∃ texts : List (List UInt8 × Value), spell filling symbols = commas (texts.map Prod.fst) ++ 0x5d :: spell filling rest ∧
      texts ≠ [] ∧ texts.map Prod.snd = values filling docs ∧ ∀ item ∈ texts, Reads item.1 item.2 := by
  induction turns generalizing symbols docs rest with
  | zero => cases found
  | succ turns ih =>
    rw [items] at found
    split at found
    next doc code after first =>
      obtain ⟨text, spelled, reads⟩ := sound _ _ _ first
      split at found
      next comma =>
        subst comma
        obtain ⟨⟨later, rest⟩, isLater, isDocs⟩ := Option.map_eq_some_iff.mp found
        cases isDocs
        obtain ⟨texts, spelled', some, same, each⟩ := ih isLater
        refine ⟨(text, doc.value filling) :: texts, ?_, List.cons_ne_nil _ _, ?_, List.forall_mem_cons.mpr ⟨reads, each⟩⟩
        · rw [spelled, spell_byte, spelled', List.map_cons, commas_more _ (mt List.map_eq_nil_iff.mp some), List.append_assoc,
            List.cons_append]
        · rw [List.map_cons, same, values]
      next =>
        split at found
        next closing =>
          subst closing
          cases found
          refine ⟨[(text, doc.value filling)], ?_, List.cons_ne_nil _ _, ?_, by simpa using reads⟩
          · rw [spelled, spell_byte, List.map_cons, List.map_nil, commas_one]
          · rw [List.map_cons, List.map_nil, values, values]
        next => cases found
    next => cases found

theorem members_read (sound : ∀ symbols doc rest, value symbols = some (doc, rest) → Gives filling symbols doc rest)
    {turns : Nat} {keys : List (List UInt8)} {docs : List Doc} (found : members value turns symbols = some (keys, docs, rest)) :
    ∃ fields : List Field, spell filling symbols = commas (fields.map Field.spell) ++ 0x7d :: spell filling rest ∧ fields ≠ [] ∧
      fields.map (fun field => (ascii field.key, field.value)) =
        keys.zipWith (fun key value => (ascii key, value)) (values filling docs) ∧
      ∀ field ∈ fields, Reads field.text field.value := by
  induction turns generalizing symbols keys docs rest with
  | zero => cases symbols <;> cases found
  | succ turns ih =>
    cases symbols with
    | nil => cases found
    | cons symbol symbols =>
      cases symbol with
      | value | chars => cases found
      | byte quote =>
        rw [members] at found
        split at found
        next isQuote =>
          subst isQuote
          split at found
          next key symbols named =>
            obtain ⟨spelledKey, plain⟩ := @name_spelled filling _ _ _ named
            split at found
            next doc code after first =>
              obtain ⟨text, spelled, reads⟩ := sound _ _ _ first
              have opening : ∀ tail, 0x22 :: (key ++ 0x22 :: 0x3a :: (text ++ tail)) =
                  (Field.spell ⟨key, text, doc.value filling, plain⟩) ++ tail := by
                intro tail
                simp [Field.spell, quoted]
              split at found
              next comma =>
                subst comma
                obtain ⟨⟨laterKeys, laterDocs, rest⟩, isLater, same⟩ := Option.map_eq_some_iff.mp found
                cases same
                obtain ⟨fields, spelled', some, same, each⟩ := ih isLater
                refine ⟨⟨key, text, doc.value filling, plain⟩ :: fields, ?_, List.cons_ne_nil _ _, ?_,
                  List.forall_mem_cons.mpr ⟨reads, each⟩⟩
                · rw [spell_byte, spelledKey, spelled, spell_byte, spelled', opening, List.map_cons,
                    commas_more _ (mt List.map_eq_nil_iff.mp some), List.append_assoc, List.cons_append]
                · rw [List.map_cons, same, values, List.zipWith_cons_cons]
              next =>
                split at found
                next closing =>
                  subst closing
                  cases found
                  refine ⟨[⟨key, text, doc.value filling, plain⟩], ?_, List.cons_ne_nil _ _, ?_, by simpa using reads⟩
                  · rw [spell_byte, spelledKey, spelled, spell_byte, opening, List.map_cons, List.map_nil, commas_one]
                  · rw [List.map_cons, List.map_nil, values, values, List.zipWith_cons_cons, List.zipWith_nil_left]
                next => cases found
            next => cases found
          next => cases found
        next => cases found

theorem object_gives (sound : ∀ symbols doc rest, value symbols = some (doc, rest) → Gives filling symbols doc rest)
    (found : object value symbols = some (doc, rest)) :
    ∃ text, spell filling symbols = text ++ spell filling rest ∧ Reads (0x7b :: text) (doc.value filling) := by
  unfold object at found
  split at found
  next rest' closed =>
    cases found
    exact ⟨_, word_spelled closed, reads_fields [] nofun⟩
  next =>
    obtain ⟨⟨keys, docs, rest⟩, isMembers, same⟩ := Option.map_eq_some_iff.mp found
    cases same
    obtain ⟨fields, spelled, -, isValue, each⟩ := members_read sound isMembers
    refine ⟨commas (fields.map Field.spell) ++ [0x7d], ?_, ?_⟩
    · rw [spelled, List.append_assoc, List.singleton_append]
    · have reads := reads_fields fields each
      rw [isValue] at reads
      exact reads

theorem array_gives (sound : ∀ symbols doc rest, value symbols = some (doc, rest) → Gives filling symbols doc rest)
    (found : array value symbols = some (doc, rest)) :
    ∃ text, spell filling symbols = text ++ spell filling rest ∧ Reads (0x5b :: text) (doc.value filling) := by
  unfold array at found
  split at found
  next rest' closed =>
    cases found
    exact ⟨_, word_spelled closed, reads_list [] nofun⟩
  next =>
    obtain ⟨⟨docs, rest⟩, isItems, same⟩ := Option.map_eq_some_iff.mp found
    cases same
    obtain ⟨texts, spelled, -, isValue, each⟩ := items_read sound isItems
    refine ⟨commas (texts.map Prod.fst) ++ [0x5d], ?_, ?_⟩
    · rw [spelled, List.append_assoc, List.singleton_append]
    · have reads := reads_list texts each
      rw [isValue] at reads
      exact reads

theorem parse_gives {depth : Nat} (found : parse depth symbols = some (doc, rest)) : Gives filling symbols doc rest := by
  induction depth generalizing symbols doc rest with
  | zero => cases symbols <;> cases found
  | succ depth ih =>
    have sound : ∀ symbols doc rest, parse depth symbols = some (doc, rest) → Gives filling symbols doc rest :=
      fun _ _ _ found => ih found
    cases symbols with
    | nil => cases found
    | cons symbol symbols =>
      cases symbol with
      | chars => cases found
      | value index =>
        cases found
        exact ⟨(filling.value index).text, rfl, (filling.value index).reads⟩
      | byte code =>
        rw [parse] at found
        split at found
        next isQuote =>
          subst isQuote
          obtain ⟨⟨taken, rest⟩, isInside, same⟩ := Option.map_eq_some_iff.mp found
          cases same
          obtain ⟨raw, spelled, chars⟩ := @inside_chars filling _ _ _ isInside
          exact ⟨quoted raw, by simp [spell_byte, spelled, quoted], .string chars⟩
        split at found
        next opening =>
          subst opening
          obtain ⟨text, spelled, reads⟩ := object_gives sound found
          exact ⟨_, by rw [spell_byte, spelled, List.cons_append], reads⟩
        split at found
        next opening =>
          subst opening
          obtain ⟨text, spelled, reads⟩ := array_gives sound found
          exact ⟨_, by rw [spell_byte, spelled, List.cons_append], reads⟩
        split at found
        next first => exact first ▸ word_gives .null found
        split at found
        next first => exact first ▸ word_gives .yes found
        split at found
        next first => exact first ▸ word_gives .no found
        split at found
        next isMinus =>
          subst isMinus
          obtain ⟨text, spelled, reads⟩ := @number_gives filling _ _ _ _ (.inr rfl) found
          exact ⟨0x2d :: text, by rw [spell_byte, spelled, List.cons_append], reads⟩
        · obtain ⟨text, spelled, reads⟩ := @number_gives filling _ _ _ _ (.inl rfl) found
          exact ⟨text, spelled, reads⟩

/-- A text in pieces reads as the value found, whatever fills the gaps. -/
theorem read_reads {parts : List Part} (found : read parts = some doc) :
    Reads (parts.flatMap (·.spell filling)) (doc.value filling) := by
  have spelled : ∀ part : Part, spell filling part.symbols = part.spell filling := by
    intro part
    cases part with
    | fixed bytes =>
      induction bytes with
      | nil => rfl
      | cons code bytes ih => exact congrArg (code :: ·) ih
    | value index => exact List.append_nil _
    | chars index => exact List.append_nil _
  have whole : spell filling (parts.flatMap Part.symbols) = parts.flatMap (·.spell filling) := by
    rw [spell, List.flatMap_assoc]
    exact List.flatMap_congr fun part _ => spelled part
  unfold read at found
  split at found
  next doc parsed =>
    cases found
    obtain ⟨text, split, reads⟩ := @parse_gives filling _ _ _ _ parsed
    rw [whole, spell, List.flatMap_nil, List.append_nil] at split
    rw [split]
    exact reads
  next => cases found

end Meaning

section Gaps

variable {text raw : List UInt8}

def Readable (text : List UInt8) : Prop := ∃ value, Reads text value

noncomputable def Readable.filled (readable : Readable text) : Filled := ⟨text, readable.choose, readable.choose_spec⟩

/-- What may stand inside a string. -/
def Legible (raw : List UInt8) : Prop := ∃ units, Chars raw units

noncomputable def Legible.spelled (legible : Legible raw) : Spelled := ⟨raw, legible.choose, legible.choose_spec⟩

@[simp] theorem Readable.filled_text (readable : Readable text) : readable.filled.text = text := rfl

@[simp] theorem Legible.spelled_raw (legible : Legible raw) : legible.spelled.raw = raw := rfl

@[simp] theorem value_spell (filling : Filling) (index : Nat) : (Part.value index).spell filling = (filling.value index).text := rfl

@[simp] theorem chars_spell (filling : Filling) (index : Nat) : (Part.chars index).spell filling = (filling.string index).raw := rfl

@[simp] theorem value_zero (first : Filled) (values : List Filled) (strings : List Spelled) :
    Filling.value ⟨first :: values, strings⟩ 0 = first := rfl

@[simp] theorem value_succ (first : Filled) (values : List Filled) (strings : List Spelled) (index : Nat) :
    Filling.value ⟨first :: values, strings⟩ (index + 1) = Filling.value ⟨values, strings⟩ index := rfl

@[simp] theorem string_zero (first : Spelled) (values : List Filled) (strings : List Spelled) :
    Filling.string ⟨values, first :: strings⟩ 0 = first := rfl

@[simp] theorem string_succ (first : Spelled) (values : List Filled) (strings : List Spelled) (index : Nat) :
    Filling.string ⟨values, first :: strings⟩ (index + 1) = Filling.string ⟨values, strings⟩ index := rfl

/-- A template that has been read once, and so whatever its gaps are filled with. -/
structure Form where
  parts : List Part
  whole : (read parts).isSome = true

theorem Form.readable (form : Form) (values : List Filled) (strings : List Spelled)
    (same : text = form.parts.flatMap (·.spell ⟨values, strings⟩)) : Readable text := by
  obtain ⟨doc, found⟩ := Option.isSome_iff_exists.mp form.whole
  exact ⟨doc.value ⟨values, strings⟩, same ▸ read_reads found⟩

theorem Legible.append {more : List UInt8} (first : Legible raw) (second : Legible more) : Legible (raw ++ more) :=
  ⟨_, first.choose_spec.append second.choose_spec⟩

theorem Legible.readable (legible : Legible raw) : Readable (quoted raw) := ⟨_, .string legible.choose_spec⟩

theorem list_readable {texts : List (List UInt8)} (each : ∀ text ∈ texts, Readable text) :
    Readable (0x5b :: (commas texts ++ [0x5d])) := by
  have chosen : ∃ items : List (List UInt8 × Value), items.map Prod.fst = texts ∧ ∀ item ∈ items, Reads item.1 item.2 := by
    induction texts with
    | nil => exact ⟨[], rfl, nofun⟩
    | cons text texts ih =>
      obtain ⟨value, reads⟩ := each text List.mem_cons_self
      obtain ⟨items, rfl, others⟩ := ih fun other member => each other (List.mem_cons_of_mem _ member)
      exact ⟨(text, value) :: items, rfl, List.forall_mem_cons.mpr ⟨reads, others⟩⟩
  obtain ⟨items, rfl, reads⟩ := chosen
  exact ⟨_, reads_list items reads⟩

end Gaps

end Kernai.Foundation.Rfc8259
