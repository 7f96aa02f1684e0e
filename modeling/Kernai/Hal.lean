import Kernai.Foundation.Memory

/-! Physical memory as the kernel reaches it: the frame pool, the bounds-checked
accessors of `hal::boot`, and the `satp` register. -/

namespace Kernai
open Foundation

abbrev Bytes := List UInt8

namespace Hal

def poolBase : Nat := 0x80400000
def poolEnd : Nat := 0x88000000

end Hal

/-- What the memory-management code reads and writes. `destroyed` is a history
variable: the root of every address space torn down so far with the value `satp`
had at that moment, newest first. Nothing in the kernel reads it. -/
structure Phys where
  mem : Memory
  bitmap : Nat → Bool
  nextHint : Nat
  allocated : Nat
  satp : Nat
  destroyed : List (Nat × Nat)

namespace Hal

/-- `pool_ptr`: the range lies wholly in the pool. -/
def inPool (pa len : Nat) : Bool := poolBase ≤ pa && pa + len ≤ poolEnd

def physWrite (phys : Phys) (pa : Nat) (bytes : Bytes) : Bool × Phys :=
  if inPool pa bytes.length then (true, { phys with mem := phys.mem.writeBytes pa bytes }) else (false, phys)

def physZero (phys : Phys) (pa len : Nat) : Bool × Phys :=
  if inPool pa len then (true, { phys with mem := phys.mem.zero pa len }) else (false, phys)

def physRead (phys : Phys) (pa len : Nat) : Option Bytes :=
  if inPool pa len then some (phys.mem.readBytes pa len) else none

def physReadU64 (phys : Phys) (pa : Nat) : Option UInt64 :=
  if pa % 8 ≠ 0 then none else if inPool pa 8 then some (phys.mem.read64 pa) else none

def physWriteU64 (phys : Phys) (pa : Nat) (val : UInt64) : Bool × Phys :=
  if pa % 8 ≠ 0 then (false, phys)
  else if inPool pa 8 then (true, { phys with mem := phys.mem.write64 pa val }) else (false, phys)

def writeSatp (phys : Phys) (value : Nat) : Phys := { phys with satp := value }

end Hal
end Kernai
