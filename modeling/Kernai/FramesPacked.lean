import Kernai.Frames
import Mathlib.Data.Finset.Card

/-! The allocator's statics as the kernel stores them: the bitmap packed into
64-bit words, with a hint and a count of machine width. `Frames` is the same
allocator with a bit per frame. -/

namespace Kernai.Frames.Packed
open Hal Foundation

/-- `BITMAP`, `NEXT_HINT` and `ALLOCATED`, with the memory the frames are cut from. -/
structure Pool where
  mem : Memory
  bitmap : Nat → UInt64
  nextHint : UInt64
  allocated : UInt64

/-- `1 << (frame % 64)`. -/
def mask (frame : Nat) : UInt64 := 1 <<< UInt64.ofNat (frame % 64)

def test (bitmap : Nat → UInt64) (frame : Nat) : Bool := bitmap (frame / 64) &&& mask frame != 0

def set (bitmap : Nat → UInt64) (frame : Nat) : Nat → UInt64 := fun word =>
  if word = frame / 64 then bitmap word ||| mask frame else bitmap word

def clear (bitmap : Nat → UInt64) (frame : Nat) : Nat → UInt64 := fun word =>
  if word = frame / 64 then bitmap word &&& ~~~ mask frame else bitmap word

/-- The loop of `alloc`. -/
def search (bitmap : Nat → UInt64) (start : Nat) : (remaining i : Nat) → Option Nat
  | 0, _ => none
  | remaining + 1, i =>
    let frame := (start + i) % poolFrames
    if test bitmap frame then search bitmap start remaining (i + 1) else some frame

def alloc (pool : Pool) : Option Nat × Pool :=
  match search pool.bitmap (pool.nextHint.toNat % poolFrames) poolFrames 0 with
  | none => (none, pool)
  | some frame =>
    let pa := poolBase + frame * frameSize
    (some pa,
      { mem := if inPool pa frameSize then pool.mem.zero pa frameSize else pool.mem
        bitmap := set pool.bitmap frame
        nextHint := .ofNat (frame + 1)
        allocated := pool.allocated + 1 })

def free (pool : Pool) (pa : Nat) : Pool :=
  if pa < poolBase ∨ poolEnd ≤ pa ∨ (pa - poolBase) % frameSize ≠ 0 then pool
  else
    let frame := (pa - poolBase) / frameSize
    if test pool.bitmap frame then
      { pool with bitmap := clear pool.bitmap frame, allocated := pool.allocated - 1 }
    else pool

/-- The statics at power-on, with any memory and any hint. -/
def powerOn (mem : Memory) (nextHint : UInt64) : Pool :=
  { mem, bitmap := fun _ => 0, nextHint, allocated := 0 }

inductive Request where
  | alloc
  | free (pa : Nat)
deriving DecidableEq, Repr

/-- Serve a request; `handed` holds the addresses handed out and not since freed. -/
def serve (handed : Finset Nat) (pool : Pool) : Request → Finset Nat × Pool
  | .alloc =>
    match alloc pool with
    | (none, pool) => (handed, pool)
    | (some pa, pool) => (insert pa handed, pool)
  | .free pa => (handed.erase pa, free pool pa)

def serveAll (handed : Finset Nat) (pool : Pool) : List Request → Finset Nat × Pool
  | [] => (handed, pool)
  | request :: rest => serveAll (serve handed pool request).1 (serve handed pool request).2 rest

end Kernai.Frames.Packed
