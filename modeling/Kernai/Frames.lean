import Kernai.Hal

/-! The physical frame allocator: a bitmap over the pool with a search hint. -/

namespace Kernai.Frames
open Hal Foundation

def frameSize : Nat := 4096
def poolFrames : Nat := (poolEnd - poolBase) / frameSize

/-- First frame not in use among `(start + i) % POOL_FRAMES`, `i` counting up. -/
def search (bitmap : Nat → Bool) (start : Nat) : (remaining i : Nat) → Option Nat
  | 0, _ => none
  | remaining + 1, i =>
    let frame := (start + i) % poolFrames
    if bitmap frame then search bitmap start remaining (i + 1) else some frame

/-- Allocate one zeroed frame; the result is its physical address. -/
def alloc (phys : Phys) : Option Nat × Phys :=
  match search phys.bitmap (phys.nextHint % poolFrames) poolFrames 0 with
  | none => (none, phys)
  | some frame =>
    let pa := poolBase + frame * frameSize
    let marked := { phys with
      bitmap := fun other => if other = frame then true else phys.bitmap other
      allocated := phys.allocated + 1
      nextHint := frame + 1 }
    (some pa, (physZero marked pa frameSize).2)

/-- Return a frame to the pool; an address outside the pool or off a frame
boundary is ignored. -/
def free (phys : Phys) (pa : Nat) : Phys :=
  if pa < poolBase ∨ poolEnd ≤ pa ∨ (pa - poolBase) % frameSize ≠ 0 then phys
  else
    let frame := (pa - poolBase) / frameSize
    if phys.bitmap frame then
      { phys with
        bitmap := fun other => if other = frame then false else phys.bitmap other
        allocated := phys.allocated - 1 }
    else phys

def stats (phys : Phys) : Nat × Nat := (phys.allocated, poolFrames)

end Kernai.Frames
