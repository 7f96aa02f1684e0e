import Kernai.Types
import Kernai.Sv39

/-! Saved register frames: how `traps` writes one into a pool frame and how
`__resume_user` loads it back. -/

namespace Kernai.Context
open Hal Foundation

/-- `save_frame_to`. -/
def saveFrameTo (phys : Phys) (frame : TrapFrame) (pa : Nat) (a0 : UInt64) : Phys :=
  let phys := (List.finRange 31).foldl (fun phys i => (physWriteU64 phys (pa + i.val * 8) (frame.regs i)).2) phys
  let phys := (physWriteU64 phys (pa + TrapFrame.xA0.val * 8) a0).2
  let phys := (physWriteU64 phys (pa + 248) frame.sepc).2
  (physWriteU64 phys (pa + 256) frame.sstatus).2

/-- `init_frame_to`, on a zeroed frame. -/
def initFrameTo (phys : Phys) (pa entry : Nat) : Phys :=
  let phys := (physWriteU64 phys (pa + 248) (.ofNat entry)).2
  (physWriteU64 phys (pa + 256) sstatusSpie).2

/-- The general-register loads of `__resume_user`, as (register, offset) in
program order. -/
def resumeLoads : List (Nat × Nat) :=
  [(1, 0), (3, 16), (4, 24), (5, 32), (6, 40), (7, 48), (8, 56), (9, 64), (10, 72), (11, 80), (12, 88), (13, 96),
    (14, 104), (15, 112), (16, 120), (17, 128), (18, 136), (19, 144), (20, 152), (21, 160), (22, 168), (23, 176),
    (24, 184), (25, 192), (26, 200), (27, 208), (28, 216), (29, 224), (30, 232), (31, 240), (2, 8)]

/-- The registers, `sepc` and `sstatus` that `__resume_user` loads from `pa`. -/
def loadFrame (mem : Memory) (pa : Nat) : TrapFrame where
  regs i := mem.read64 (pa + (resumeLoads.lookup (i.val + 1)).getD 0)
  sepc := mem.read64 (pa + 248)
  sstatus := mem.read64 (pa + 256)

/-- A fresh start: zeroed registers, `sepc` = entry, U-mode with interrupts on. -/
def freshFrame (entry : Nat) : TrapFrame := { regs := fun _ => 0, sepc := .ofNat entry, sstatus := sstatusSpie }

end Kernai.Context
