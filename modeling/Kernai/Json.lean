import Kernai.Console

/-! The structural JSON reader of the control plane. Texts are byte lists; the
loops over positions carry the number of turns left. -/

namespace Kernai.Json
open Console

/-- `from_utf8(..).is_ok()`. -/
def validUtf8 : Bytes → Bool
  | [] => true
  | [b0] => b0 < 0x80
  | [b0, b1] =>
    if b0 < 0x80 then validUtf8 [b1]
    else 0xC2 ≤ b0 && b0 ≤ 0xDF && 0x80 ≤ b1 && b1 ≤ 0xBF
  | [b0, b1, b2] =>
    if b0 < 0x80 then validUtf8 [b1, b2]
    else if b0 ≤ 0xDF then 0xC2 ≤ b0 && 0x80 ≤ b1 && b1 ≤ 0xBF && validUtf8 [b2]
    else b0 ≤ 0xEF && (if b0 = 0xE0 then 0xA0 else 0x80) ≤ b1 && b1 ≤ (if b0 = 0xED then 0x9F else 0xBF) &&
      0x80 ≤ b2 && b2 ≤ 0xBF
  | b0 :: b1 :: b2 :: b3 :: rest =>
    if b0 < 0x80 then validUtf8 (b1 :: b2 :: b3 :: rest)
    else if b0 ≤ 0xDF then 0xC2 ≤ b0 && 0x80 ≤ b1 && b1 ≤ 0xBF && validUtf8 (b2 :: b3 :: rest)
    else if b0 ≤ 0xEF then
      (if b0 = 0xE0 then 0xA0 else 0x80) ≤ b1 && b1 ≤ (if b0 = 0xED then 0x9F else 0xBF) &&
        0x80 ≤ b2 && b2 ≤ 0xBF && validUtf8 (b3 :: rest)
    else
      b0 ≤ 0xF4 && (if b0 = 0xF0 then 0x90 else 0x80) ≤ b1 && b1 ≤ (if b0 = 0xF4 then 0x8F else 0xBF) &&
        0x80 ≤ b2 && b2 ≤ 0xBF && 0x80 ≤ b3 && b3 ≤ 0xBF && validUtf8 rest

/-- The encodings of the Unicode white-space characters, which `trim` removes. -/
def whitespace : List Bytes :=
  [[0x09], [0x0A], [0x0B], [0x0C], [0x0D], [0x20], [0xC2, 0x85], [0xC2, 0xA0], [0xE1, 0x9A, 0x80],
    [0xE2, 0x80, 0x80], [0xE2, 0x80, 0x81], [0xE2, 0x80, 0x82], [0xE2, 0x80, 0x83], [0xE2, 0x80, 0x84],
    [0xE2, 0x80, 0x85], [0xE2, 0x80, 0x86], [0xE2, 0x80, 0x87], [0xE2, 0x80, 0x88], [0xE2, 0x80, 0x89],
    [0xE2, 0x80, 0x8A], [0xE2, 0x80, 0xA8], [0xE2, 0x80, 0xA9], [0xE2, 0x80, 0xAF], [0xE2, 0x81, 0x9F],
    [0xE3, 0x80, 0x80]]

def strip (spaces : List Bytes) : (turns : Nat) → Bytes → Bytes
  | 0, text => text
  | turns + 1, text =>
    match spaces.find? (·.isPrefixOf text) with
    | some space => strip spaces turns (text.drop space.length)
    | none => text

def trimStart (text : Bytes) : Bytes := strip whitespace text.length text
def trimEnd (text : Bytes) : Bytes := (strip (whitespace.map List.reverse) text.length text.reverse).reverse
def trim (text : Bytes) : Bytes := trimEnd (trimStart text)

def isWs (byte : UInt8) : Bool := byte = 0x20 || byte = 0x09 || byte = 0x0A || byte = 0x0D

def at' (s : Bytes) (i : Nat) : UInt8 := s.getD i 0

def skipWsFrom (s : Bytes) : (turns i : Nat) → Nat
  | 0, i => i
  | turns + 1, i => if i < s.length ∧ isWs (at' s i) then skipWsFrom s turns (i + 1) else i

def skipWs (s : Bytes) (i : Nat) : Nat := skipWsFrom s s.length i

def skipStringFrom (s : Bytes) : (turns j : Nat) → Nat
  | 0, _ => s.length
  | turns + 1, j =>
    if j < s.length then
      if at' s j = 0x5c then skipStringFrom s turns (j + 2)
      else if at' s j = 0x22 then j + 1
      else skipStringFrom s turns (j + 1)
    else s.length

/-- `i` at the opening quote. -/
def skipString (s : Bytes) (i : Nat) : Nat := skipStringFrom s s.length (i + 1)

def skipContainerFrom (s : Bytes) : (turns : Nat) → (depth : Int32) → (j : Nat) → Nat
  | 0, _, _ => s.length
  | turns + 1, depth, j =>
    if j < s.length then
      if at' s j = 0x22 then skipContainerFrom s turns depth (skipString s j)
      else if at' s j = 0x7b ∨ at' s j = 0x5b then skipContainerFrom s turns (depth + 1) (j + 1)
      else if at' s j = 0x7d ∨ at' s j = 0x5d then
        if depth - 1 = 0 then j + 1 else skipContainerFrom s turns (depth - 1) (j + 1)
      else skipContainerFrom s turns depth (j + 1)
    else s.length

/-- `i` at the opening bracket. -/
def skipContainer (s : Bytes) (i : Nat) : Nat := skipContainerFrom s s.length 0 i

def skipScalarFrom (s : Bytes) : (turns j : Nat) → Nat
  | 0, j => j
  | turns + 1, j =>
    if j < s.length ∧ at' s j ≠ 0x2c ∧ at' s j ≠ 0x7d ∧ at' s j ≠ 0x5d then skipScalarFrom s turns (j + 1) else j

def skipValue (s : Bytes) (i : Nat) : Nat :=
  let i := skipWs s i
  if s.length ≤ i then s.length
  else if at' s i = 0x22 then skipString s i
  else if at' s i = 0x7b ∨ at' s i = 0x5b then skipContainer s i
  else skipScalarFrom s s.length i

/-- `is_char_boundary`. -/
def boundary (s : Bytes) (i : Nat) : Bool := i = s.length || (i < s.length && at' s i &&& 0xC0 ≠ 0x80)

/-- `str::get(start..stop)`. -/
def slice (s : Bytes) (start stop : Nat) : Option Bytes :=
  if start ≤ stop ∧ boundary s start ∧ boundary s stop then some ((s.drop start).take (stop - start)) else none

/-- The loop of `object_get`, at the start of a member. -/
def findMember (s key : Bytes) : (turns i : Nat) → Option Bytes
  | 0, _ => none
  | turns + 1, i =>
    let i := skipWs s i
    if s.length ≤ i ∨ at' s i ≠ 0x22 then none
    else
      let keyEnd := skipString s i
      match slice s (i + 1) (keyEnd - 1) with
      | none => none
      | some thisKey =>
        let i := skipWs s keyEnd
        if s.length ≤ i ∨ at' s i ≠ 0x3a then none
        else
          let valStart := skipWs s (i + 1)
          let valEnd := skipValue s valStart
          if thisKey = key then (slice s valStart valEnd).map trim
          else
            let i := skipWs s valEnd
            if i < s.length ∧ at' s i = 0x2c then findMember s key turns (i + 1) else none

/-- `object_get`: the raw text of a top-level member. -/
def objectGet (obj key : Bytes) : Option Bytes :=
  let i := skipWs obj 0
  if obj.length ≤ i ∨ at' obj i ≠ 0x7b then none else findMember obj key obj.length (i + 1)

def asString (raw : Bytes) : Option Bytes :=
  if 2 ≤ raw.length ∧ at' raw 0 = 0x22 ∧ at' raw (raw.length - 1) = 0x22 then slice raw 1 (raw.length - 1) else none

def isDigit (byte : UInt8) : Bool := 0x30 ≤ byte && byte ≤ 0x39

def u32Max : Nat := 2 ^ 32 - 1

def parseU32 (raw : Bytes) : Option Nat :=
  let s := trim ((asString raw).getD raw)
  if s = [] ∨ s.all isDigit = false then none
  else some (s.foldl (fun n byte => min (min (n * 10) u32Max + (byte.toNat - 0x30)) u32Max) 0)

end Kernai.Json
