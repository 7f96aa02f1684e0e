import Kernai.ElfChecked
import Kernai.Proofs.Images

/-! The loader with overflow checks on does what the loader without them does, and
never panics, unless a file offset lies at the top of the address range. -/

namespace Kernai.Elf
open Hal Frames Mm Foundation

variable {image : Bytes} {segment : Segment} {root : Nat}

/-- A page of the loop: a page boundary from the segment's first page on. -/
def Boundary (segment : Segment) (page : Nat) : Prop :=
  page % pageSize = 0 ∧ segment.vaddr - segment.vaddr % pageSize ≤ page

/-- The turns the page loop still has to make. -/
def turns (segment : Segment) (page : Nat) : Nat := (segment.vaddr + segment.memsz - page + (pageSize - 1)) / pageSize

end Kernai.Elf
