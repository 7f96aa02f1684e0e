import Mathlib.Data.List.Basic

/-! The scanner of the unsafe budget (`ci/unsafe_budget.sh`). -/

namespace Kernai.UnsafeBudget

/-- Python's `str.isalnum` of one character, open beyond ASCII. -/
structure Python where
  isalnum : Char → Bool
  isalnum_ascii : ∀ c, c.toNat < 128 → isalnum c = c.isAlphanum

/-- A character of a word, to the look-behind and to `\b`. -/
def Python.word (python : Python) (c : Char) : Bool := python.isalnum c || c = '_'

def blank (c : Char) : Char := if c = '\n' then c else ' '

/-- The match of `(#*)"`: how many hashes. -/
def hashesQuote : List Char → Option Nat
  | '#' :: rest => (hashesQuote rest).map (· + 1)
  | '"' :: _ => some 0
  | _ => none

/-- The match of `b?r(#*)"`: how many hashes, and how long it is. -/
def rawMatch : List Char → Option (Nat × Nat)
  | 'b' :: 'r' :: rest => (hashesQuote rest).map fun hashes => (hashes, hashes + 3)
  | 'r' :: rest => (hashesQuote rest).map fun hashes => (hashes, hashes + 2)
  | _ => none

/-- `str.find`. -/
def find (pattern : List Char) : List Char → Option Nat
  | [] => if pattern = [] then some 0 else none
  | c :: rest => if pattern.isPrefixOf (c :: rest) then some 0 else (find pattern rest).map (· + 1)

/-- How far a block comment goes on, with so many open. -/
def commentEnd : (depth : Nat) → List Char → Nat
  | 0, _ => 0
  | _, [] => 0
  | depth + 1, '/' :: '*' :: rest => commentEnd (depth + 2) rest + 2
  | depth + 1, '*' :: '/' :: rest => commentEnd depth rest + 2
  | depth + 1, _ :: rest => commentEnd (depth + 1) rest + 1

/-- How far a string goes on behind its first quote; an escape at the very end counts two. -/
def stringEnd : List Char → Nat
  | [] => 0
  | ['\\'] => 2
  | '\\' :: _ :: rest => stringEnd rest + 2
  | '"' :: _ => 1
  | _ :: rest => stringEnd rest + 1

/-- The match of `'(\\.|[^\\'])'`: how long it is. -/
def charMatch : List Char → Option Nat
  | '\'' :: '\\' :: c :: '\'' :: _ => if c ≠ '\n' then some 4 else none
  | '\'' :: c :: '\'' :: _ => if c ≠ '\\' ∧ c ≠ '\'' then some 3 else none
  | _ => none

variable (python : Python)

/-- The match of a raw string that is not the end of a word; `prev` is the character before. -/
def rawAt (prev : Option Char) (src : List Char) : Option (Nat × Nat) :=
  if prev.any python.word then none else rawMatch src

/-- What a turn of the loop appends to `out`, and how far it moves `i`. -/
def turn (prev : Option Char) (src : List Char) : List Char × Nat :=
  match rawAt python prev src with
  | some (hashes, length) =>
    let stop := match find ('"' :: List.replicate hashes '#') (src.drop length) with
      | none => src.length
      | some close => length + close + 1 + hashes
    ((src.take stop).map blank, stop)
  | none =>
    match src with
    | [] => ([], 0)
    | '/' :: '/' :: _ =>
      let length := (src.takeWhile (· ≠ '\n')).length
      (List.replicate length ' ', length)
    | '/' :: '*' :: rest =>
      let length := commentEnd 1 rest + 2
      ((src.take length).map blank, length)
    | '"' :: rest => ('"' :: ((rest.take (stringEnd rest - 1)).map blank ++ ['"']), stringEnd rest + 1)
    | c :: _ =>
      match charMatch src with
      | some length => (List.replicate length ' ', length)
      | none => ([c], 1)

/-- The loop of `strip_comments_and_strings`; every turn moves on, so there are at most as many
turns as characters. -/
def strip : (fuel : Nat) → (prev : Option Char) → List Char → List Char
  | 0, _, _ => []
  | _ + 1, _, [] => []
  | fuel + 1, prev, src@(_ :: _) =>
    let (out, length) := turn python prev src
    out ++ strip fuel (src.take length).getLast? (src.drop length)

def keyword : List Char := "unsafe".toList

/-- `re.search(r"\bunsafe\b", …)`, from a place behind `prev` on. -/
def search (prev : Option Char) : List Char → Bool
  | [] => false
  | src@(c :: rest) =>
    (!prev.any python.word && keyword.isPrefixOf src && !(src.drop keyword.length).head?.any python.word) ||
      search (some c) rest

end Kernai.UnsafeBudget
