import Kernai.Foundation.RustLexis
import Kernai.UnsafeBudget

/-! The scanner of the unsafe budget against the lexical structure of Rust: what it makes of
every text of tokens, and which tokens blind it. -/

namespace Kernai.UnsafeBudget
open Foundation Rust

/-- The two views of a character, Rust's and Python's. -/
structure Unicode extends Alphabet, Python where
  white_isalnum : ∀ c, white c → isalnum c = false

section Loop

variable {python : Python} {prev : Option Char}

theorem charMatch_pos {src : List Char} {length : Nat} (found : charMatch src = some length) : 0 < length := by
  unfold charMatch at found
  split at found
  · split at found <;> cases found
    decide
  · split at found <;> cases found
    decide
  · cases found

/-- Every turn moves on. -/
theorem turn_moves (c : Char) (rest : List Char) : 0 < (turn python prev (c :: rest)).2 := by
  unfold turn
  split
  · dsimp only
    split
    · exact Nat.succ_pos _
    · exact Nat.add_pos_left (Nat.succ_pos _) _
  · split
    · next none => cases none
    · next rest' same =>
      cases same
      simp
    · exact Nat.succ_pos _
    · exact Nat.succ_pos _
    · split
      · next found => exact charMatch_pos found
      · exact Nat.succ_pos _

theorem strip_succ (fuel : Nat) : ∀ (prev : Option Char) (src : List Char), src.length ≤ fuel →
    strip python (fuel + 1) prev src = strip python fuel prev src := by
  induction fuel with
  | zero =>
    intro prev src none
    obtain rfl := List.length_eq_zero_iff.mp (Nat.le_zero.mp none)
    rfl
  | succ fuel ih =>
    intro prev src enough
    cases src with
    | nil => rfl
    | cons c rest =>
      have moves : 0 < (turn python prev (c :: rest)).2 := turn_moves c rest
      have shorter : ((c :: rest).drop (turn python prev (c :: rest)).2).length ≤ fuel := by
        rw [List.length_drop, List.length_cons]
        rw [List.length_cons] at enough
        omega
      exact congrArg (_ ++ ·) (ih _ _ shorter)

theorem strip_fuel {fuel : Nat} {src : List Char} (enough : src.length ≤ fuel) :
    strip python fuel prev src = strip python src.length prev src := by
  induction enough with
  | refl => rfl
  | step enough ih => exact (strip_succ _ prev src enough).trans ih

/-- The loop, from a place on. -/
def scan (python : Python) (prev : Option Char) (src : List Char) : List Char := strip python src.length prev src

theorem scan_turn (c : Char) (rest : List Char) : scan python prev (c :: rest) =
    (turn python prev (c :: rest)).1 ++ scan python ((c :: rest).take (turn python prev (c :: rest)).2).getLast?
      ((c :: rest).drop (turn python prev (c :: rest)).2) := by
  have moves : 0 < (turn python prev (c :: rest)).2 := turn_moves c rest
  have enough : ((c :: rest).drop (turn python prev (c :: rest)).2).length ≤ rest.length := by
    rw [List.length_drop, List.length_cons]
    omega
  exact congrArg (_ ++ ·) (strip_fuel enough)

/-- A turn that reads `text` and writes `out`. -/
theorem scan_of_turn {text rest out : List Char} (some : text ≠ [])
    (turns : turn python prev (text ++ rest) = (out, text.length)) :
    scan python prev (text ++ rest) = out ++ scan python text.getLast? rest := by
  obtain ⟨c, tail, rfl⟩ := List.exists_cons_of_ne_nil some
  have scanned : scan python prev (c :: (tail ++ rest)) = _ := scan_turn c (tail ++ rest)
  rw [List.cons_append] at turns ⊢
  rw [scanned, turns]
  simp

/-- A character that is kept. -/
theorem scan_keep {c : Char} {rest : List Char} (noRaw : rawAt python prev (c :: rest) = none) (noQuote : c ≠ '"')
    (noComment : c = '/' → rest.head? ≠ some '/' ∧ rest.head? ≠ some '*') (noChar : charMatch (c :: rest) = none) :
    scan python prev (c :: rest) = c :: scan python (some c) rest := by
  change scan python prev ([c] ++ rest) = [c] ++ scan python [c].getLast? rest
  refine scan_of_turn (List.cons_ne_nil _ _) ?_
  unfold turn
  simp only [List.cons_append, List.nil_append, noRaw]
  split
  · next none => cases none
  · next same =>
    obtain ⟨rfl, rfl⟩ := List.cons.inj same
    exact absurd rfl (noComment rfl).1
  · next same =>
    obtain ⟨rfl, rfl⟩ := List.cons.inj same
    exact absurd rfl (noComment rfl).2
  · next same =>
    cases same
    exact absurd rfl noQuote
  · next same =>
    cases same
    rw [noChar]
    rfl

end Loop

section Tokens

variable {unicode : Unicode} {prev : Option Char} {rest : List Char}

/-- An ASCII character that is neither a letter nor a digit nor an underscore. -/
theorem Alphabet.xid_eq_false (alphabet : Alphabet) {c : Char} (ascii : c.toNat < 128)
    (other : (c.isAlphanum || c = '_') = false) : alphabet.xid c = false := by
  rw [alphabet.xid_ascii c ascii, other]

theorem Alphabet.ne_of_xid {alphabet : Alphabet} {c d : Char} (xid : alphabet.xid c = true) (ascii : d.toNat < 128)
    (other : (d.isAlphanum || d = '_') = false) : c ≠ d := by
  rintro rfl
  rw [xid_eq_false alphabet ascii other] at xid
  cases xid

theorem Python.word_eq_false (python : Python) {c : Char} (ascii : c.toNat < 128)
    (other : (c.isAlphanum || c = '_') = false) : python.word c = false := by
  rw [Python.word, python.isalnum_ascii c ascii, other]

/-- A raw string may begin here. -/
def Boundary (unicode : Unicode) (prev : Option Char) (src : List Char) : Prop :=
  ∀ c ∈ src.head?, unicode.xid c = true → prev.any unicode.word = false

theorem Boundary.of_ends (ends : ∀ c ∈ rest.head?, unicode.xid c = false) : Boundary unicode prev rest := by
  intro c isHead xid
  rw [ends c isHead] at xid
  cases xid

theorem Boundary.of_quiet {c : Char} (quiet : unicode.word c = false) : Boundary unicode (some c) rest :=
  fun _ _ _ => quiet

/-- The scanner reads `text`, writes `out` and goes on at a boundary. -/
def Strips (unicode : Unicode) (prev : Option Char) (text out rest : List Char) : Prop :=
  ∃ prev', scan unicode.toPython prev (text ++ rest) = out ++ scan unicode.toPython prev' rest ∧
    Boundary unicode prev' rest

theorem hashesQuote_none {src : List Char} (other : ∀ c ∈ src.head?, c ≠ '#' ∧ c ≠ '"') : hashesQuote src = none := by
  unfold hashesQuote
  split
  · exact absurd rfl (other _ rfl).1
  · exact absurd rfl (other _ rfl).2
  · rfl

/-- Inside a name, and at its end, no raw string begins. -/
theorem rawMatch_name {c : Char} {tail : List Char} (xids : ∀ d ∈ tail, unicode.xid d = true)
    (ends : ∀ d ∈ rest.head?, unicode.xid d = false ∧ d ≠ '"' ∧ d ≠ '#') : rawMatch (c :: (tail ++ rest)) = none := by
  have plain : ∀ (tail : List Char), (∀ d ∈ tail, unicode.xid d = true) → ∀ d ∈ (tail ++ rest).head?, d ≠ '#' ∧ d ≠ '"' := by
    intro tail xids d isHead
    cases tail with
    | nil => exact ⟨(ends d isHead).2.2, (ends d isHead).2.1⟩
    | cons first tail =>
      obtain rfl := Option.some.inj isHead
      have xid := xids first List.mem_cons_self
      exact ⟨Alphabet.ne_of_xid xid (by decide) (by decide), Alphabet.ne_of_xid xid (by decide) (by decide)⟩
  unfold rawMatch
  split
  · next same =>
    obtain ⟨-, same⟩ := List.cons.inj same
    cases tail with
    | nil =>
      rw [List.nil_append] at same
      have notXid := (ends 'r' (by rw [same]; rfl)).1
      rw [unicode.xid_ascii 'r' (by decide)] at notXid
      exact absurd notXid (by decide)
    | cons first tail =>
      obtain ⟨rfl, isRest⟩ := List.cons.inj same
      have noQuote := hashesQuote_none (plain tail fun d member => xids d (List.mem_cons_of_mem _ member))
      rw [show _ = tail ++ rest from isRest.symm, noQuote]
      rfl
  · next same =>
    obtain ⟨rfl, rfl⟩ := List.cons.inj same
    rw [hashesQuote_none (plain tail xids)]
    rfl
  · rfl

theorem rawMatch_none {c : Char} (notB : c ≠ 'b') (notR : c ≠ 'r') : rawMatch (c :: rest) = none := by
  unfold rawMatch
  split
  · next same => exact absurd (List.cons.inj same).1 notB
  · next same => exact absurd (List.cons.inj same).1 notR
  · rfl

theorem rawAt_none {python : Python} {src : List Char} (noMatch : rawMatch src = none) : rawAt python prev src = none := by
  unfold rawAt
  split
  · rfl
  · exact noMatch

theorem charMatch_none {c : Char} (other : c ≠ '\'') : charMatch (c :: rest) = none := by
  unfold charMatch
  split
  · next same => exact absurd (List.cons.inj same).1 other
  · next same => exact absurd (List.cons.inj same).1 other
  · rfl

theorem scan_plain {python : Python} {c : Char} (noRaw : rawAt python prev (c :: rest) = none) (notQuote : c ≠ '"')
    (notSlash : c ≠ '/') (notApostrophe : c ≠ '\'') :
    scan python prev (c :: rest) = c :: scan python (some c) rest :=
  scan_keep noRaw notQuote (fun isSlash => absurd isSlash notSlash) (charMatch_none notApostrophe)

/-- The characters of a name are kept. -/
theorem scan_name {name : List Char} (xids : ∀ c ∈ name, unicode.xid c = true)
    (ends : ∀ c ∈ rest.head?, unicode.xid c = false ∧ c ≠ '"' ∧ c ≠ '#') :
    ∀ prev, ∃ prev', scan unicode.toPython prev (name ++ rest) = name ++ scan unicode.toPython prev' rest := by
  induction name with
  | nil => exact fun prev => ⟨prev, rfl⟩
  | cons c tail ih =>
    intro prev
    have xid := xids c List.mem_cons_self
    have others : ∀ d ∈ tail, unicode.xid d = true := fun d member => xids d (List.mem_cons_of_mem _ member)
    obtain ⟨prev', scanned⟩ := ih others (some c)
    refine ⟨prev', ?_⟩
    rw [List.cons_append, scan_plain (rawAt_none (rawMatch_name others ends)) (Alphabet.ne_of_xid xid (by decide) (by decide))
      (Alphabet.ne_of_xid xid (by decide) (by decide)) (Alphabet.ne_of_xid xid (by decide) (by decide)), scanned]
    rfl

theorem isAlphanum_ascii {c : Char} (alnum : c.isAlphanum = true ∨ c = '_') : c.toNat < 128 := by
  rcases alnum with isAlnum | rfl
  · change (decide (c.val ≥ 'A'.val ∧ c.val ≤ 'Z'.val) || (decide (c.val ≥ 'a'.val) && decide (c.val ≤ 'z'.val)) ||
      (decide (c.val ≥ '0'.val) && decide (c.val ≤ '9'.val))) = true at isAlnum
    simp only [Bool.or_eq_true, Bool.and_eq_true, decide_eq_true_eq, ge_iff_le, UInt32.le_iff_toNat_le] at isAlnum
    have isCode : c.toNat = c.val.toNat := rfl
    have isZ : 'Z'.val.toNat = 90 := rfl
    have isz : 'z'.val.toNat = 122 := rfl
    have isNine : '9'.val.toNat = 57 := rfl
    omega
  · decide

/-- Behind a digit no raw string begins. -/
theorem scan_digits {digits : List Char} (alnum : ∀ c ∈ digits, c.isAlphanum = true ∨ c = '_') :
    ∀ prev, prev.any unicode.word = true → ∃ prev', scan unicode.toPython prev (digits ++ rest) =
      digits ++ scan unicode.toPython prev' rest := by
  induction digits with
  | nil => exact fun prev _ => ⟨prev, rfl⟩
  | cons c tail ih =>
    intro prev inside
    have isWord := alnum c List.mem_cons_self
    have counts : unicode.word c = true := by
      rw [Python.word, unicode.isalnum_ascii c (isAlphanum_ascii isWord)]
      simpa using isWord
    obtain ⟨prev', scanned⟩ := ih (fun d member => alnum d (List.mem_cons_of_mem _ member)) (some c) counts
    have noRaw : rawAt unicode.toPython prev (c :: (tail ++ rest)) = none := if_pos inside
    refine ⟨prev', ?_⟩
    rw [List.cons_append, scan_plain noRaw ?_ ?_ ?_, scanned]
    · rfl
    all_goals rintro rfl; exact absurd isWord (by decide)

/-- A comment up to its end. -/
theorem commentEnd_char {c : Char} {depth : Nat} (notBegin : c = '/' → rest.head? ≠ some '*')
    (notEnd : c = '*' → rest.head? ≠ some '/') : commentEnd (depth + 1) (c :: rest) = commentEnd (depth + 1) rest + 1 := by
  rw [commentEnd.eq_def]
  split
  · next same => cases same
  · next isNil _ => cases isNil
  · next same isCons =>
    obtain ⟨rfl, rfl⟩ := List.cons.inj isCons
    exact absurd rfl (notBegin rfl)
  · next same isCons =>
    obtain ⟨rfl, rfl⟩ := List.cons.inj isCons
    exact absurd rfl (notEnd rfl)
  · next same isCons =>
    cases same
    cases isCons
    rfl

theorem commentEnd_marks (marks : List Mark) : ∀ depth, balanced depth marks = true → apart marks →
    commentEnd (depth + 1) (marks.flatMap Mark.render ++ ['*', '/'] ++ rest) = (marks.flatMap Mark.render).length + 2 := by
  induction marks with
  | nil =>
    intro depth isBalanced _
    have isZero : depth = 0 := by simpa [balanced] using isBalanced
    subst isZero
    simp [commentEnd]
  | cons mark marks ih =>
    intro depth isBalanced isApart
    rw [List.flatMap_cons]
    cases mark with
    | char c =>
      obtain ⟨notBegin, notEnd, isApart⟩ := isApart
      have next : (marks.flatMap Mark.render ++ ['*', '/'] ++ rest).head? = (marks.flatMap Mark.render ++ ['*', '/']).head? := by
        rw [List.head?_append_of_ne_nil]
        simp
      have moves : commentEnd (depth + 1) (c :: (marks.flatMap Mark.render ++ ['*', '/'] ++ rest)) = _ :=
        commentEnd_char (next ▸ notBegin) (next ▸ notEnd)
      have ended := ih depth isBalanced isApart
      simp only [Mark.render, List.cons_append, List.nil_append, List.length_cons]
      rw [moves, ended]
    | begins =>
      have ended := ih (depth + 1) isBalanced isApart
      simp only [Mark.render, List.cons_append, List.nil_append, List.length_cons, commentEnd]
      rw [ended]
    | ends =>
      cases depth with
      | zero => cases isBalanced
      | succ depth =>
        have ended := ih depth isBalanced isApart
        simp only [Mark.render, List.cons_append, List.nil_append, List.length_cons, commentEnd]
        rw [ended]

theorem stringEnd_char {c : Char} (notQuote : c ≠ '"') (notEscape : c ≠ '\\') :
    stringEnd (c :: rest) = stringEnd rest + 1 := by
  rw [stringEnd.eq_def]
  split
  · next isNil => cases isNil
  · next same => exact absurd (List.cons.inj same).1 notEscape
  · next same => exact absurd (List.cons.inj same).1 notEscape
  · next same => exact absurd (List.cons.inj same).1 notQuote
  · next same =>
    cases same
    rfl

theorem stringEnd_items (items : List StringItem) (wellFormed : ∀ item ∈ items, item.WellFormed) :
    stringEnd (items.flatMap StringItem.render ++ '"' :: rest) = (items.flatMap StringItem.render).length + 1 := by
  induction items with
  | nil => simp [stringEnd]
  | cons item items ih =>
    have ended := ih fun other member => wellFormed other (List.mem_cons_of_mem _ member)
    have fine := wellFormed item List.mem_cons_self
    rw [List.flatMap_cons]
    cases item with
    | char c =>
      simp only [StringItem.render, List.cons_append, List.nil_append, List.length_cons]
      rw [stringEnd_char fine.1 fine.2, ended]
    | escape c =>
      simp only [StringItem.render, List.cons_append, List.nil_append, List.length_cons, stringEnd]
      rw [ended]

theorem hashesQuote_replicate (hashes : Nat) : hashesQuote (List.replicate hashes '#' ++ '"' :: rest) = some hashes := by
  induction hashes with
  | zero => rfl
  | succ hashes ih => simp [List.replicate_succ, hashesQuote, ih]

/-- The hashes of a closing cannot reach beyond the next quote. -/
theorem hashes_before_quote (hashes : Nat) : ∀ text : List Char,
    List.replicate hashes '#' <+: text ++ '"' :: rest → List.replicate hashes '#' <+: text := by
  induction hashes with
  | zero => exact fun _ _ => List.nil_prefix
  | succ hashes ih =>
    intro text inside
    rw [List.replicate_succ] at inside ⊢
    cases text with
    | nil =>
      have same := (List.cons_prefix_cons.mp inside).1
      exact absurd same (by decide)
    | cons c text =>
      obtain ⟨same, inside⟩ := List.cons_prefix_cons.mp inside
      exact List.cons_prefix_cons.mpr ⟨same, ih text inside⟩

theorem find_closing (hashes : Nat) (text : List Char) (unclosed : ¬ closing hashes <:+: text) :
    find (closing hashes) (text ++ (closing hashes ++ rest)) = some text.length := by
  induction text with
  | nil =>
    have here : (closing hashes).isPrefixOf (closing hashes ++ rest) = true :=
      List.isPrefixOf_iff_prefix.mpr (List.prefix_append _ _)
    rw [List.nil_append, closing, List.cons_append, find]
    rw [closing, List.cons_append] at here
    rw [if_pos here]
    rfl
  | cons c text ih =>
    have later : ¬ closing hashes <:+: text := fun inside => unclosed (inside.trans (List.infix_cons List.infix_rfl))
    have notHere : ¬ (closing hashes).isPrefixOf (c :: (text ++ (closing hashes ++ rest))) = true := by
      intro here
      have starts := List.isPrefixOf_iff_prefix.mp here
      unfold closing at starts
      obtain ⟨isQuote, more⟩ := List.cons_prefix_cons.mp starts
      rw [List.cons_append] at more
      have closed := List.cons_prefix_cons.mpr ⟨isQuote, hashes_before_quote hashes text more⟩
      exact unclosed closed.isInfix
    rw [List.cons_append, find, if_neg notHere, ih later]
    rfl

/-- What is to be left of a token: comments and literals become blanks, but for the quotes of a
string and the letter before them. -/
def cleaned : Token → List Char
  | .str lead items => lead.render ++ '"' :: ((items.flatMap StringItem.render).map blank ++ ['"'])
  | .char byte item => (if byte then ['b'] else []) ++ ('\'' :: (item.render ++ ['\''])).map blank
  | token@(.lineComment _) | token@(.blockComment _) | token@(.rawStr _ _ _) => token.render.map blank
  | token => token.render

/-- The tokens the scanner knows. It takes a raw C string for an ordinary string, does not see
numeric escapes in character literals, and takes the end of a raw name or of a lifetime for
the letter of a raw string. -/
def Known (rest : List Char) : Token → Prop
  | .rawStr .c _ _ => False
  | .char _ (.hex _ _) | .char _ (.unicode _) => False
  | .ident true _ | .lifetime true _ => rest.head? ≠ some '"' ∧ rest.head? ≠ some '#'
  | .lifetime false _ => rest.head? ≠ some '"'
  | _ => True

theorem Strips.cons {c : Char} {text out : List Char} (kept : scan unicode.toPython prev (c :: (text ++ rest)) =
    c :: scan unicode.toPython (some c) (text ++ rest)) (strips : Strips unicode (some c) text out rest) :
    Strips unicode prev (c :: text) (c :: out) rest := by
  obtain ⟨prev', scanned, boundary⟩ := strips
  exact ⟨prev', by rw [List.cons_append, kept, scanned]; rfl, boundary⟩

/-- One turn, then a boundary. -/
theorem Strips.of_turn {text out : List Char} (some : text ≠ [])
    (turns : turn unicode.toPython prev (text ++ rest) = (out, text.length))
    (boundary : Boundary unicode text.getLast? rest) : Strips unicode prev text out rest :=
  ⟨_, scan_of_turn some turns, boundary⟩

theorem Strips.name {name : List Char} (xids : ∀ c ∈ name, unicode.xid c = true)
    (ends : ∀ c ∈ rest.head?, unicode.xid c = false ∧ c ≠ '"' ∧ c ≠ '#') : Strips unicode prev name name rest := by
  obtain ⟨prev', scanned⟩ := scan_name xids ends prev
  exact ⟨prev', scanned, .of_ends fun c isHead => (ends c isHead).1⟩

/-- `r#` is kept in front of a name. -/
theorem Strips.rawName {name : List Char} (some : name ≠ []) (xids : ∀ c ∈ name, unicode.xid c = true)
    (ends : ∀ c ∈ rest.head?, unicode.xid c = false ∧ c ≠ '"' ∧ c ≠ '#') :
    Strips unicode prev ('r' :: '#' :: name) ('r' :: '#' :: name) rest := by
  have noRaw : rawMatch ('r' :: '#' :: (name ++ rest)) = none := by
    obtain ⟨c, tail, rfl⟩ := List.exists_cons_of_ne_nil some
    have xid := xids c List.mem_cons_self
    have plain : hashesQuote (c :: (tail ++ rest)) = none := by
      refine hashesQuote_none fun d isHead => ?_
      obtain rfl := Option.some.inj isHead
      exact ⟨Alphabet.ne_of_xid xid (by decide) (by decide), Alphabet.ne_of_xid xid (by decide) (by decide)⟩
    simp [rawMatch, hashesQuote, plain]
  refine .cons (scan_plain (rawAt_none noRaw) (by decide) (by decide) (by decide)) ?_
  exact .cons (scan_plain (rawAt_none (rawMatch_none (by decide) (by decide))) (by decide) (by decide) (by decide))
    (.name xids ends)

theorem digit_first {digits : List Char} (starts : digits.head?.any Char.isDigit = true) :
    ∃ c, digits.head? = some c ∧ c.isDigit = true := by
  cases isHead : digits.head? with
  | none => simp [isHead] at starts
  | some c => exact ⟨c, rfl, by simpa [isHead] using starts⟩

theorem Strips.number {digits : List Char} (starts : digits.head?.any Char.isDigit = true)
    (alnum : ∀ c ∈ digits, c.isAlphanum = true ∨ c = '_') (ends : ∀ c ∈ rest.head?, unicode.xid c = false) :
    Strips unicode prev digits digits rest := by
  obtain ⟨c, isHead, isDigit⟩ := digit_first starts
  obtain ⟨tail, rfl⟩ := List.head?_eq_some_iff.mp isHead
  have isWord : unicode.word c = true := by
    have isAlnum : c.isAlphanum = true := by simp [Char.isAlphanum, isDigit]
    rw [Python.word, unicode.isalnum_ascii c (isAlphanum_ascii (.inl isAlnum)), isAlnum]
    rfl
  obtain ⟨prev', scanned⟩ := scan_digits (fun d member => alnum d (List.mem_cons_of_mem _ member)) (some c) isWord
  have differs : ∀ d : Char, d.isDigit = false → c ≠ d := by
    rintro d other rfl
    rw [isDigit] at other
    cases other
  refine .cons (scan_plain (rawAt_none (rawMatch_none (differs _ (by decide)) (differs _ (by decide))))
    (differs _ (by decide)) (differs _ (by decide)) (differs _ (by decide))) ⟨prev', scanned, .of_ends ends⟩

theorem punctuation_plain : ∀ c ∈ punctuation, c ≠ 'b' ∧ c ≠ 'r' ∧ c ≠ '"' ∧ c ≠ '\'' ∧ c.toNat < 128 ∧
    (c.isAlphanum || c = '_') = false := by
  have each : (punctuation.all fun c => c ≠ 'b' ∧ c ≠ 'r' ∧ c ≠ '"' ∧ c ≠ '\'' ∧ c.toNat < 128 ∧
    (c.isAlphanum || c = '_') = false) = true := by decide
  exact fun c member => of_decide_eq_true (List.all_eq_true.mp each c member)

theorem Strips.punct {c : Char} (isPunct : c ∈ punctuation)
    (alone : c = '/' → rest.head? ≠ some '/' ∧ rest.head? ≠ some '*') : Strips unicode prev [c] [c] rest := by
  obtain ⟨notB, notR, notQuote, notApostrophe, ascii, other⟩ := punctuation_plain c isPunct
  have kept : scan unicode.toPython prev (c :: rest) = _ :=
    scan_keep (rawAt_none (rawMatch_none notB notR)) notQuote alone (charMatch_none notApostrophe)
  exact ⟨some c, kept, .of_quiet (Python.word_eq_false _ ascii other)⟩

theorem white_ne {c d : Char} (isWhite : unicode.white c = true) (ascii : d.toNat < 128)
    (other : d ∉ ['\t', '\n', '\x0b', '\x0c', '\r', ' ']) : c ≠ d := by
  rintro rfl
  rw [unicode.white_ascii c ascii, decide_eq_true_eq] at isWhite
  exact other isWhite

theorem white_quiet {c : Char} (isWhite : unicode.white c = true) : unicode.word c = false := by
  have notUnderscore : c ≠ '_' := white_ne isWhite (by decide) (by decide)
  simp [Python.word, unicode.white_isalnum c isWhite, notUnderscore]

theorem Strips.white {c : Char} (isWhite : unicode.white c = true) : Strips unicode prev [c] [c] rest := by
  have noRaw : rawMatch (c :: rest) = none :=
    rawMatch_none (white_ne isWhite (by decide) (by decide)) (white_ne isWhite (by decide) (by decide))
  exact ⟨some c, scan_plain (rawAt_none noRaw) (white_ne isWhite (by decide) (by decide))
    (white_ne isWhite (by decide) (by decide)) (white_ne isWhite (by decide) (by decide)), .of_quiet (white_quiet isWhite)⟩

theorem turn_lineComment {python : Python} {text : List Char} (oneLine : '\n' ∉ text) (ends : ∀ c ∈ rest.head?, c = '\n') :
    turn python prev ('/' :: '/' :: text ++ rest) = (('/' :: '/' :: text).map blank, ('/' :: '/' :: text).length) := by
  have stops : rest.takeWhile (· ≠ '\n') = [] := by
    cases rest with
    | nil => rfl
    | cons c rest => simp [ends c rfl]
  have all : ('/' :: '/' :: text ++ rest).takeWhile (· ≠ '\n') = '/' :: '/' :: text := by
    rw [List.takeWhile_append_of_pos, stops, List.append_nil]
    intro c member
    have differs : c ≠ '\n' := by
      rintro rfl
      simp at member
      exact oneLine member
    simpa using differs
  have blanks : ('/' :: '/' :: text).map blank = List.replicate ('/' :: '/' :: text).length ' ' := by
    refine List.map_eq_replicate_iff.mpr fun c member => ?_
    refine if_neg ?_
    rintro rfl
    simp at member
    exact oneLine member
  have noRaw : rawAt python prev ('/' :: '/' :: (text ++ rest)) = none :=
    rawAt_none (rawMatch_none (by decide) (by decide))
  simp only [List.cons_append] at all ⊢
  simp only [turn, noRaw, all, blanks]

theorem Strips.blockComment {marks : List Mark} (isBalanced : balanced 0 marks = true) (isApart : apart marks) :
    Strips unicode prev (Token.blockComment marks).render ((Token.blockComment marks).render.map blank) rest := by
  have ended : commentEnd 1 (_ ++ rest) = _ := commentEnd_marks marks 0 isBalanced isApart
  generalize isBody : marks.flatMap Mark.render = body at ended
  have noRaw : rawAt unicode.toPython prev ('/' :: '*' :: (body ++ ['*', '/'] ++ rest)) = none :=
    rawAt_none (rawMatch_none (by decide) (by decide))
  have stops : body.length + 2 + 2 = (body ++ ['*', '/']).length + 2 := by simp
  refine .of_turn (by simp [Token.render]) ?_ ?_
  · simp only [Token.render, isBody, List.cons_append]
    simp only [turn, noRaw, ended, stops, List.take_succ_cons, List.take_left, List.length_cons]
  · have isLast : (Token.blockComment marks).render.getLast? = some '/' := by simp [Token.render, List.getLast?_cons]
    rw [isLast]
    exact .of_quiet (Python.word_eq_false _ (by decide) (by decide))

theorem Strips.string {items : List StringItem} (wellFormed : ∀ item ∈ items, item.WellFormed)
    (ends : ∀ c ∈ rest.head?, unicode.xid c = false) :
    Strips unicode prev ('"' :: (items.flatMap StringItem.render ++ ['"']))
      ('"' :: ((items.flatMap StringItem.render).map blank ++ ['"'])) rest := by
  have ended : stringEnd (_ ++ '"' :: rest) = _ := stringEnd_items items wellFormed
  generalize items.flatMap StringItem.render = body at ended
  have noRaw : rawAt unicode.toPython prev ('"' :: (body ++ '"' :: rest)) = none :=
    rawAt_none (rawMatch_none (by decide) (by decide))
  refine .of_turn (List.cons_ne_nil _ _) ?_ (.of_ends ends)
  simp only [List.cons_append, List.append_assoc, List.nil_append]
  simp only [turn, noRaw, ended]
  simp

/-- The letter of a byte string, a C string or a byte is kept. -/
theorem Strips.letter {c next : Char} {text out : List Char} (letter : c = 'b' ∨ c = 'c') (quote : next = '"' ∨ next = '\'')
    (strips : Strips unicode (some c) (next :: text) out rest) : Strips unicode prev (c :: next :: text) (c :: out) rest := by
  have noRaw : rawMatch (c :: next :: (text ++ rest)) = none := by
    rcases letter with rfl | rfl <;> rcases quote with rfl | rfl <;> rfl
  refine .cons (scan_plain (rawAt_none noRaw) ?_ ?_ ?_) strips
  all_goals rcases letter with rfl | rfl <;> decide

theorem turn_raw {python : Python} {lead : List Char} (isLead : lead = [] ∨ lead = ['b']) {hashes : Nat} {text : List Char}
    (unclosed : ¬ closing hashes <:+: text) (outside : prev.any python.word = false) :
    let raw := lead ++ 'r' :: (List.replicate hashes '#' ++ '"' :: (text ++ closing hashes))
    turn python prev (raw ++ rest) = (raw.map blank, raw.length) := by
  intro raw
  have isRaw : raw = (lead ++ 'r' :: (List.replicate hashes '#' ++ ['"'])) ++ (text ++ closing hashes) := by simp [raw]
  have isMatch : rawAt python prev (raw ++ rest) = some (hashes, (lead ++ 'r' :: (List.replicate hashes '#' ++ ['"'])).length) := by
    rw [rawAt, outside, if_neg (by decide)]
    have counted : hashesQuote (_ ++ '"' :: (text ++ (closing hashes ++ rest))) = _ := hashesQuote_replicate hashes
    rcases isLead with rfl | rfl <;> simp [raw, rawMatch, counted]
  have closes : find (closing hashes) ((raw ++ rest).drop (lead ++ 'r' :: (List.replicate hashes '#' ++ ['"'])).length) =
      some text.length := by
    rw [isRaw, List.append_assoc, List.drop_left, List.append_assoc]
    exact find_closing hashes text unclosed
  have isStop : (lead ++ 'r' :: (List.replicate hashes '#' ++ ['"'])).length + text.length + 1 + hashes = raw.length := by
    rw [isRaw]
    simp [closing]
    omega
  rw [closing] at closes
  simp only [turn, isMatch, closes, isStop, List.take_left]

theorem turn_charMatch {python : Python} {src : List Char} {length : Nat}
    (noRaw : ∀ src, rawAt python prev ('\'' :: src) = none) (found : charMatch ('\'' :: src) = some length) :
    turn python prev ('\'' :: src) = (List.replicate length ' ', length) := by
  simp only [turn, noRaw, found]
  split
  · next isNil => cases isNil
  · next same => cases same
  · next same => cases same
  · next same => cases same
  · next same =>
    cases same
    rfl

theorem turn_char {python : Python} {item : CharItem} (wellFormed : item.WellFormed)
    (simple : ∀ a b, item ≠ .hex a b) (short : ∀ digits, item ≠ .unicode digits) :
    turn python prev ('\'' :: (item.render ++ ['\'']) ++ rest) =
      (('\'' :: (item.render ++ ['\''])).map blank, ('\'' :: (item.render ++ ['\''])).length) := by
  have noRaw : ∀ src, rawAt python prev ('\'' :: src) = none := fun src => rawAt_none (rawMatch_none (by decide) (by decide))
  cases item with
  | char c =>
    obtain ⟨notApostrophe, notEscape, notLine⟩ := wellFormed
    have found : charMatch ('\'' :: c :: '\'' :: rest) = some 3 := by
      unfold charMatch
      split
      · next same => exact absurd (List.cons.inj (List.cons.inj same).2).1 notEscape
      · next same =>
        cases same
        exact if_pos ⟨notEscape, notApostrophe⟩
      · next other => exact absurd rfl (other _ _)
    have turned := turn_charMatch noRaw found
    simpa [CharItem.render, blank, notLine, List.replicate] using turned
  | escape c =>
    have notLine : c ≠ '\n' := by
      rintro rfl
      exact absurd (show '\n' ∈ ['n', 'r', 't', '\\', '0', '\'', '"'] from wellFormed) (by decide)
    have found : charMatch ('\'' :: '\\' :: c :: '\'' :: rest) = some 4 := if_pos notLine
    have turned := turn_charMatch noRaw found
    simpa [CharItem.render, blank, notLine, List.replicate] using turned
  | hex a b => exact absurd rfl (simple a b)
  | unicode digits => exact absurd rfl (short digits)

theorem Strips.char {item : CharItem} (wellFormed : item.WellFormed) (simple : ∀ a b, item ≠ .hex a b)
    (short : ∀ digits, item ≠ .unicode digits) (ends : ∀ c ∈ rest.head?, unicode.xid c = false) :
    Strips unicode prev ('\'' :: (item.render ++ ['\''])) (('\'' :: (item.render ++ ['\''])).map blank) rest :=
  .of_turn (List.cons_ne_nil _ _) (turn_char wellFormed simple short) (.of_ends ends)

/-- The quote of a lifetime is kept: it is no character literal. -/
theorem Strips.apostrophe {c : Char} {text out : List Char} (notEscape : c ≠ '\\')
    (unpaired : ∀ d ∈ (text ++ rest).head?, d ≠ '\'') (strips : Strips unicode (some '\'') (c :: text) out rest) :
    Strips unicode prev ('\'' :: c :: text) ('\'' :: out) rest := by
  have noChar : charMatch ('\'' :: c :: (text ++ rest)) = none := by
    unfold charMatch
    split
    · next same => exact absurd (List.cons.inj (List.cons.inj same).2).1 notEscape
    · next same =>
      have isNext := (List.cons.inj (List.cons.inj same).2).2
      exact absurd rfl (unpaired '\'' (by rw [isNext]; rfl))
    · rfl
  have noComment : '\'' = '/' → (c :: text ++ rest).head? ≠ some '/' ∧ (c :: text ++ rest).head? ≠ some '*' :=
    fun isSlash => absurd isSlash (by decide)
  exact .cons (scan_keep (rawAt_none (rawMatch_none (by decide) (by decide))) (by decide) noComment noChar) strips

theorem head_append_xid {name : List Char} (xids : ∀ c ∈ name, unicode.xid c = true) {d : Char} (ascii : d.toNat < 128)
    (other : (d.isAlphanum || d = '_') = false) (ends : ∀ c ∈ rest.head?, c ≠ d) : ∀ c ∈ (name ++ rest).head?, c ≠ d := by
  intro c isHead
  cases name with
  | nil => exact ends c isHead
  | cons first tail =>
    obtain rfl := Option.some.inj isHead
    exact Alphabet.ne_of_xid (xids first List.mem_cons_self) ascii other

theorem Strips.lifetime {name : List Char} (some : name ≠ []) (xids : ∀ c ∈ name, unicode.xid c = true)
    (ends : ∀ c ∈ rest.head?, unicode.xid c = false ∧ c ≠ '"' ∧ c ≠ '#') (unpaired : ∀ c ∈ rest.head?, c ≠ '\'') :
    Strips unicode prev ('\'' :: name) ('\'' :: name) rest := by
  obtain ⟨c, tail, rfl⟩ := List.exists_cons_of_ne_nil some
  have others : ∀ d ∈ tail, unicode.xid d = true := fun d member => xids d (List.mem_cons_of_mem _ member)
  exact .apostrophe (Alphabet.ne_of_xid (xids c List.mem_cons_self) (by decide) (by decide))
    (head_append_xid others (by decide) (by decide) unpaired) (.name xids ends)

/-- What the scanner makes of a token. -/
theorem Strips.token {token : Token} (wellFormed : token.WellFormed unicode.toAlphabet)
    (ends : token.Ends unicode.toAlphabet rest) (known : Known rest token)
    (boundary : Boundary unicode prev (token.render ++ rest)) : Strips unicode prev token.render (cleaned token) rest := by
  cases token with
  | ident raw name =>
    cases raw with
    | false => exact .name wellFormed.2 fun c isHead => ⟨(ends c isHead).1, (ends c isHead).2.1, (ends c isHead).2.2.2⟩
    | true =>
      refine .rawName wellFormed.1 wellFormed.2 fun c isHead => ⟨ends c isHead, ?_, ?_⟩
      · rintro rfl
        exact known.1 isHead
      · rintro rfl
        exact known.2 isHead
  | number digits => exact .number wellFormed.1 wellFormed.2 ends
  | punct c => exact .punct wellFormed ends
  | white c => exact .white wellFormed
  | lineComment text =>
    refine .of_turn (List.cons_ne_nil _ _) (turn_lineComment wellFormed ends) ?_
    refine .of_ends fun c isHead => ?_
    rw [ends c isHead]
    exact Alphabet.xid_eq_false _ (by decide) (by decide)
  | blockComment marks => exact .blockComment wellFormed.1 wellFormed.2
  | str lead items =>
    cases lead with
    | plain => exact .string wellFormed ends
    | byte => exact .letter (.inl rfl) (.inl rfl) (.string wellFormed ends)
    | c => exact .letter (.inr rfl) (.inl rfl) (.string wellFormed ends)
  | rawStr lead hashes text =>
    have xidB : unicode.xid 'b' = true := unicode.xid_ascii 'b' (by decide)
    have xidR : unicode.xid 'r' = true := unicode.xid_ascii 'r' (by decide)
    cases lead with
    | plain =>
      exact .of_turn (List.cons_ne_nil _ _) (turn_raw (.inl rfl) wellFormed (boundary 'r' rfl xidR)) (.of_ends ends)
    | byte =>
      exact .of_turn (List.cons_ne_nil _ _) (turn_raw (.inr rfl) wellFormed (boundary 'b' rfl xidB)) (.of_ends ends)
    | c => exact known.elim
  | char byte item =>
    have simple : ∀ a b, item ≠ .hex a b := by
      rintro a b rfl
      exact known
    have short : ∀ digits, item ≠ .unicode digits := by
      rintro digits rfl
      exact known
    cases byte with
    | false => exact .char wellFormed simple short ends
    | true => exact .letter (.inl rfl) (.inr rfl) (.char wellFormed simple short ends)
  | lifetime raw name =>
    cases raw with
    | false =>
      refine .lifetime wellFormed.1 wellFormed.2 (fun c isHead => ⟨(ends c isHead).1, ?_, (ends c isHead).2.2⟩)
        fun c isHead => (ends c isHead).2.1
      rintro rfl
      exact known isHead
    | true =>
      refine .apostrophe (by decide) (fun d isHead => ?_) (.rawName wellFormed.1 wellFormed.2 fun c isHead => ⟨ends c isHead, ?_, ?_⟩)
      · obtain rfl := Option.some.inj isHead
        decide
      · rintro rfl
        exact known.1 isHead
      · rintro rfl
        exact known.2 isHead

end Tokens

section Search

variable {unicode : Unicode} {python : Python} {before after : List Token} {tokens : List Token}

theorem Lexed.append {alphabet : Alphabet} : Lexed alphabet (before ++ after) →
    Lexed alphabet after ∧ ∀ last ∈ before.getLast?, last.WellFormed alphabet ∧ last.Ends alphabet (render after) := by
  induction before with
  | nil => exact fun lexed => ⟨lexed, nofun⟩
  | cons token before ih =>
    rintro ⟨wellFormed, ends, lexed⟩
    obtain ⟨later, last⟩ := ih lexed
    refine ⟨later, fun final isLast => ?_⟩
    cases before with
    | nil =>
      obtain rfl := Option.some.inj isLast
      exact ⟨wellFormed, ends⟩
    | cons next before => exact last final (by rwa [List.getLast?_cons_cons] at isLast)

/-- Python's and Rust's characters, as if there were no others than ASCII. -/
def ascii : Unicode where
  xid c := c.isAlphanum || c = '_'
  white c := decide (c ∈ ['\t', '\n', '\x0b', '\x0c', '\r', ' '])
  xid_ascii _ _ := rfl
  white_ascii _ _ := rfl
  isalnum c := c.isAlphanum
  isalnum_ascii _ _ := rfl
  white_isalnum c isWhite := by
    have each : (['\t', '\n', '\x0b', '\x0c', '\r', ' '].all fun d => !d.isAlphanum) = true := by decide
    simpa using List.all_eq_true.mp each c (of_decide_eq_true isWhite)

end Search

end Kernai.UnsafeBudget
