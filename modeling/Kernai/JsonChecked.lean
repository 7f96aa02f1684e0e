import Kernai.Json

/-! The structural JSON reader with every index and subtraction checked: `none` is a
panic, or a loop that has run out of turns. `str::get` does not panic, so slices are
taken as they are. -/

namespace Kernai.Json.Checked

def sub (a b : Nat) : Option Nat := if b ≤ a then some (a - b) else none

def skipWs (s : Bytes) : (turns i : Nat) → Option Nat
  | 0, _ => none
  | turns + 1, i =>
    if i < s.length then do
      let byte ← s[i]?
      if isWs byte then skipWs s turns (i + 1) else some i
    else some i

def skipStringFrom (s : Bytes) : (turns j : Nat) → Option Nat
  | 0, _ => none
  | turns + 1, j =>
    if j < s.length then do
      let byte ← s[j]?
      if byte = 0x5c then skipStringFrom s turns (j + 2)
      else if byte = 0x22 then some (j + 1)
      else skipStringFrom s turns (j + 1)
    else some s.length

def skipString (s : Bytes) (fuel i : Nat) : Option Nat := skipStringFrom s fuel (i + 1)

def skipContainerFrom (s : Bytes) (fuel : Nat) : (turns : Nat) → (depth : Int32) → (j : Nat) → Option Nat
  | 0, _, _ => none
  | turns + 1, depth, j =>
    if j < s.length then do
      let byte ← s[j]?
      if byte = 0x22 then
        let j ← skipString s fuel j
        skipContainerFrom s fuel turns depth j
      else if byte = 0x7b ∨ byte = 0x5b then skipContainerFrom s fuel turns (depth + 1) (j + 1)
      else if byte = 0x7d ∨ byte = 0x5d then
        if depth - 1 = 0 then some (j + 1) else skipContainerFrom s fuel turns (depth - 1) (j + 1)
      else skipContainerFrom s fuel turns depth (j + 1)
    else some s.length

def skipContainer (s : Bytes) (fuel i : Nat) : Option Nat := skipContainerFrom s fuel fuel 0 i

def skipScalarFrom (s : Bytes) : (turns j : Nat) → Option Nat
  | 0, _ => none
  | turns + 1, j =>
    if j < s.length then do
      let byte ← s[j]?
      if byte ≠ 0x2c ∧ byte ≠ 0x7d ∧ byte ≠ 0x5d then skipScalarFrom s turns (j + 1) else some j
    else some j

def skipValue (s : Bytes) (fuel i : Nat) : Option Nat := do
  let i ← skipWs s fuel i
  if s.length ≤ i then some s.length
  else
    let byte ← s[i]?
    if byte = 0x22 then skipString s fuel i
    else if byte = 0x7b ∨ byte = 0x5b then skipContainer s fuel i
    else skipScalarFrom s fuel i

/-- Whether `i` is past the end or holds another byte than `expected`. -/
def misses (s : Bytes) (i : Nat) (expected : UInt8) : Option Bool :=
  if s.length ≤ i then some true else (s[i]?).map (· != expected)

def findMember (s key : Bytes) (fuel : Nat) : (turns i : Nat) → Option (Option Bytes)
  | 0, _ => none
  | turns + 1, i => do
    let i ← skipWs s fuel i
    if ← misses s i 0x22 then some none
    else
      let keyEnd ← skipString s fuel i
      let keyStop ← sub keyEnd 1
      match slice s (i + 1) keyStop with
      | none => some none
      | some thisKey =>
        let i ← skipWs s fuel keyEnd
        if ← misses s i 0x3a then some none
        else
          let valStart ← skipWs s fuel (i + 1)
          let valEnd ← skipValue s fuel valStart
          if thisKey = key then some ((slice s valStart valEnd).map trim)
          else
            let i ← skipWs s fuel valEnd
            if ← misses s i 0x2c then some none else findMember s key fuel turns (i + 1)

def objectGet (fuel : Nat) (obj key : Bytes) : Option (Option Bytes) := do
  let i ← skipWs obj fuel 0
  if ← misses obj i 0x7b then some none else findMember obj key fuel fuel (i + 1)

end Kernai.Json.Checked
