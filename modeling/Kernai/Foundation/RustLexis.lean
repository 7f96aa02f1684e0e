import Mathlib.Data.List.Basic

/-! The lexical structure of Rust: tokens, how they are spelled, and which of them may stand
next to each other without becoming something else. -/

namespace Kernai.Foundation.Rust

/-- The character classes of the lexis, open beyond ASCII: `xid` continues a name and `white`
is white space. -/
structure Alphabet where
  xid : Char → Bool
  white : Char → Bool
  xid_ascii : ∀ c, c.toNat < 128 → xid c = (c.isAlphanum || c = '_')
  white_ascii : ∀ c, c.toNat < 128 → white c = decide (c ∈ ['\t', '\n', '\x0b', '\x0c', '\r', ' '])

inductive StringItem where
  | char (c : Char)
  | escape (c : Char)
deriving DecidableEq, Repr

def StringItem.render : StringItem → List Char
  | .char c => [c]
  | .escape c => ['\\', c]

def StringItem.WellFormed : StringItem → Prop
  | .char c => c ≠ '"' ∧ c ≠ '\\'
  | .escape _ => True

instance : DecidablePred StringItem.WellFormed
  | .char _ => inferInstanceAs (Decidable (_ ∧ _))
  | .escape _ => inferInstanceAs (Decidable True)

inductive CharItem where
  | char (c : Char)
  | escape (c : Char)
  | hex (high low : Char)
  | unicode (digits : List Char)
deriving DecidableEq, Repr

def CharItem.render : CharItem → List Char
  | .char c => [c]
  | .escape c => ['\\', c]
  | .hex high low => ['\\', 'x', high, low]
  | .unicode digits => '\\' :: 'u' :: '\x7b' :: digits ++ ['\x7d']

def CharItem.WellFormed : CharItem → Prop
  | .char c => c ≠ '\'' ∧ c ≠ '\\' ∧ c ≠ '\n'
  | .escape c => c ∈ ['n', 'r', 't', '\\', '0', '\'', '"']
  | .hex high low => high.isHexDigit ∧ low.isHexDigit
  | .unicode digits => digits ≠ [] ∧ ∀ c ∈ digits, c.isHexDigit ∨ c = '_'

instance : DecidablePred CharItem.WellFormed
  | .char _ => inferInstanceAs (Decidable (_ ∧ _))
  | .escape _ => inferInstanceAs (Decidable (_ ∈ _))
  | .hex _ _ => inferInstanceAs (Decidable (_ ∧ _))
  | .unicode digits => @instDecidableAnd _ _ inferInstance (digits.decidableBAll _)

/-- A piece of a block comment. -/
inductive Mark where
  | char (c : Char)
  | begins
  | ends
deriving DecidableEq, Repr

def Mark.render : Mark → List Char
  | .char c => [c]
  | .begins => ['/', '*']
  | .ends => ['*', '/']

/-- The comments inside begin and end in pairs, with so many open. -/
def balanced : (depth : Nat) → List Mark → Bool
  | depth, [] => depth = 0
  | depth, .char _ :: rest => balanced depth rest
  | depth, .begins :: rest => balanced (depth + 1) rest
  | 0, .ends :: _ => false
  | depth + 1, .ends :: rest => balanced depth rest

/-- No two characters stand together as the beginning or the end of a comment, up to the end
of the comment itself. -/
def apart : List Mark → Prop
  | [] => True
  | .char c :: rest =>
    let next := (rest.flatMap Mark.render ++ ['*', '/']).head?
    (c = '/' → next ≠ some '*') ∧ (c = '*' → next ≠ some '/') ∧ apart rest
  | _ :: rest => apart rest

instance apart.decidable : DecidablePred apart
  | [] => isTrue trivial
  | .char _ :: rest =>
    have := apart.decidable rest
    inferInstanceAs (Decidable (_ ∧ _ ∧ apart rest))
  | .begins :: rest => apart.decidable rest
  | .ends :: rest => apart.decidable rest

inductive Lead where
  | plain
  | byte
  | c
deriving DecidableEq, Repr

def Lead.render : Lead → List Char
  | .plain => []
  | .byte => ['b']
  | .c => ['c']

inductive Token where
  | ident (raw : Bool) (name : List Char)
  | number (digits : List Char)
  | punct (c : Char)
  | white (c : Char)
  | lineComment (text : List Char)
  | blockComment (marks : List Mark)
  | str (lead : Lead) (items : List StringItem)
  | rawStr (lead : Lead) (hashes : Nat) (text : List Char)
  | char (byte : Bool) (item : CharItem)
  | lifetime (raw : Bool) (name : List Char)
deriving DecidableEq, Repr

/-- What closes a raw string. -/
def closing (hashes : Nat) : List Char := '"' :: List.replicate hashes '#'

def punctuation : List Char := "+-*/%^!&|=<>@.,;:#$?~()[]\x7b\x7d".toList

namespace Token

def render : Token → List Char
  | .ident raw name => (if raw then ['r', '#'] else []) ++ name
  | .number digits => digits
  | .punct c => [c]
  | .white c => [c]
  | .lineComment text => '/' :: '/' :: text
  | .blockComment marks => '/' :: '*' :: (marks.flatMap Mark.render ++ ['*', '/'])
  | .str lead items => lead.render ++ '"' :: (items.flatMap StringItem.render ++ ['"'])
  | .rawStr lead hashes text => lead.render ++ 'r' :: (List.replicate hashes '#' ++ '"' :: (text ++ closing hashes))
  | .char byte item => (if byte then ['b'] else []) ++ '\'' :: (item.render ++ ['\''])
  | .lifetime raw name => '\'' :: ((if raw then ['r', '#'] else []) ++ name)

/-- Comments and literals. -/
def hidden : Token → Bool
  | .lineComment _ | .blockComment _ | .str _ _ | .rawStr _ _ _ | .char _ _ => true
  | _ => false

variable (alphabet : Alphabet)

def WellFormed : Token → Prop
  | .ident _ name | .lifetime _ name => name ≠ [] ∧ ∀ c ∈ name, alphabet.xid c
  | .number digits => digits.head?.any Char.isDigit ∧ ∀ c ∈ digits, c.isAlphanum ∨ c = '_'
  | .punct c => c ∈ punctuation
  | .white c => alphabet.white c
  | .lineComment text => '\n' ∉ text
  | .blockComment marks => balanced 0 marks ∧ apart marks
  | .str _ items => ∀ item ∈ items, item.WellFormed
  | .rawStr _ hashes text => ¬ closing hashes <:+: text
  | .char _ item => item.WellFormed

instance : DecidablePred (WellFormed alphabet)
  | .ident _ name | .lifetime _ name => @instDecidableAnd _ _ inferInstance (name.decidableBAll _)
  | .number digits => @instDecidableAnd _ _ inferInstance (digits.decidableBAll _)
  | .punct _ => inferInstanceAs (Decidable (_ ∈ _))
  | .white _ => inferInstanceAs (Decidable (_ = _))
  | .lineComment _ => inferInstanceAs (Decidable (¬ _))
  | .blockComment _ => inferInstanceAs (Decidable (_ ∧ apart _))
  | .str _ items => items.decidableBAll StringItem.WellFormed
  | .rawStr _ hashes text => @instDecidableNot _ (List.instDecidableIsInfixOfDecidableEq (closing hashes) text)
  | .char _ item => inferInstanceAs (Decidable item.WellFormed)

/-- The token ends where the rest of the text begins. A name directly before a quote or a hash
is a reserved form, and a name directly behind a literal is its suffix. -/
def Ends (rest : List Char) : Token → Prop
  | .ident false _ => ∀ c ∈ rest.head?, alphabet.xid c = false ∧ c ≠ '"' ∧ c ≠ '\'' ∧ c ≠ '#'
  | .lifetime false _ => ∀ c ∈ rest.head?, alphabet.xid c = false ∧ c ≠ '\'' ∧ c ≠ '#'
  | .ident true _ | .lifetime true _ | .number _ | .str _ _ | .rawStr _ _ _ | .char _ _ =>
    ∀ c ∈ rest.head?, alphabet.xid c = false
  | .punct c => c = '/' → rest.head? ≠ some '/' ∧ rest.head? ≠ some '*'
  | .lineComment _ => ∀ c ∈ rest.head?, c = '\n'
  | .white _ | .blockComment _ => True

instance (rest : List Char) : DecidablePred (Ends alphabet rest)
  | .ident false _ =>
    Option.decidableForallMem (p := fun c => alphabet.xid c = false ∧ c ≠ '"' ∧ c ≠ '\'' ∧ c ≠ '#') rest.head?
  | .lifetime false _ => Option.decidableForallMem (p := fun c => alphabet.xid c = false ∧ c ≠ '\'' ∧ c ≠ '#') rest.head?
  | .ident true _ | .lifetime true _ | .number _ | .str _ _ | .rawStr _ _ _ | .char _ _ =>
    Option.decidableForallMem (p := fun c => alphabet.xid c = false) rest.head?
  | .punct _ => inferInstanceAs (Decidable (_ → _))
  | .lineComment _ => Option.decidableForallMem (p := fun c => c = '\n') rest.head?
  | .white _ | .blockComment _ => inferInstanceAs (Decidable True)

end Token

def render (tokens : List Token) : List Char := tokens.flatMap Token.render

/-- The text of these tokens has no other reading. -/
def Lexed (alphabet : Alphabet) : List Token → Prop
  | [] => True
  | token :: rest => token.WellFormed alphabet ∧ token.Ends alphabet (render rest) ∧ Lexed alphabet rest

instance Lexed.decidable (alphabet : Alphabet) : DecidablePred (Lexed alphabet)
  | [] => isTrue trivial
  | _ :: rest =>
    have := Lexed.decidable alphabet rest
    inferInstanceAs (Decidable (_ ∧ _ ∧ Lexed alphabet rest))

end Kernai.Foundation.Rust
