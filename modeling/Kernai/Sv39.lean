import Kernai.Mm

/-! Address translation as the hart performs it in U-mode, read straight from
memory. `Mm` builds the tables; this is what they mean. -/

namespace Kernai.Sv39
open Mm Foundation

def pte (mem : Memory) (table va level : Nat) : Nat := (mem.read64 (table + vpn va level * 8)).toNat

/-- The first entry on the walk of `va` with a permission bit, and its level. -/
def leafFrom (mem : Memory) (va : Nat) : (level table : Nat) → Option (Nat × Nat)
  | level, table =>
    let entry := pte mem table va level
    if entry &&& V = 0 then none
    else if entry &&& permMask ≠ 0 then some (level, entry)
    else
      match level with
      | 0 => none
      | below + 1 => leafFrom mem va below (ptePa entry)

def leafAt (mem : Memory) (root va : Nat) : Option (Nat × Nat) := leafFrom mem va 2 root

def target (va level entry : Nat) : Nat := ptePa entry + va % 2 ^ (12 + 9 * level)

/-- Bits 63..39 must repeat bit 38. -/
def canonical (va : Nat) : Bool := va < 2 ^ 38 || (2 ^ 64 - 2 ^ 38 ≤ va && va < 2 ^ 64)

/-- Where a U-mode store to `va` lands; none if it faults. An entry with W but
not R is reserved, and a superpage must be aligned. -/
def storeAddress (mem : Memory) (root va : Nat) : Option Nat :=
  if canonical va then
    match leafAt mem root va with
    | some (level, entry) =>
      if entry &&& (U ||| R ||| W) = U ||| R ||| W ∧ ptePa entry % 2 ^ (12 + 9 * level) = 0 then
        some (target va level entry)
      else none
    | none => none
  else none

/-- What U-mode sees of memory: the permission bits of the user page behind an
address, and the byte there. -/
def view (mem : Memory) (root : Nat) : Nat → Option (Nat × UInt8) := fun va =>
  match leafAt mem root va with
  | some (level, entry) =>
    if entry &&& U = 0 then none else some (entry &&& (R ||| W ||| X ||| U), mem (target va level entry))
  | none => none

/-- The root table `satp` points at. -/
def satpRoot (satp : Nat) : Nat := (satp % 2 ^ 44) <<< 12

end Kernai.Sv39
