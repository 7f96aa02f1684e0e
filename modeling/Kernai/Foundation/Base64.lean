import Mathlib.Data.List.Basic

/-! Base64 by RFC 4648, section 4: the decoder. -/

namespace Kernai.Foundation.Base64

/-- The value of a digit of the standard alphabet. -/
def digitValue (digit : UInt8) : Option Nat :=
  if 0x41 ≤ digit ∧ digit ≤ 0x5a then some (digit.toNat - 0x41)
  else if 0x61 ≤ digit ∧ digit ≤ 0x7a then some (digit.toNat - 0x61 + 26)
  else if 0x30 ≤ digit ∧ digit ≤ 0x39 then some (digit.toNat - 0x30 + 52)
  else if digit = 0x2b then some 62
  else if digit = 0x2f then some 63
  else none

def pad : UInt8 := 0x3d

/-- The bytes that four digits of six bits stand for. -/
def group (a b c d : Nat) : List UInt8 := [.ofNat (a * 4 + b / 16), .ofNat (b * 16 + c / 4), .ofNat (c * 64 + d)]

/-- Four digits at a time. The last group may be padded; the bits it has to spare are
ignored. -/
def decode : List UInt8 → Option (List UInt8)
  | [] => some []
  | first :: second :: third :: fourth :: rest => do
    let a ← digitValue first
    let b ← digitValue second
    if fourth = pad ∧ rest = [] then
      if third = pad then return (group a b 0 0).take 1
      else
        let c ← digitValue third
        return (group a b c 0).take 2
    else
      let c ← digitValue third
      let d ← digitValue fourth
      return group a b c d ++ (← decode rest)
  | _ => none

end Kernai.Foundation.Base64
