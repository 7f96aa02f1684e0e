import Kernai.Context
import Kernai.Proofs.Lifetime

/-! Saved register frames: what is written is what `__resume_user` loads, and
nothing outside the frame changes. -/

namespace Kernai.Context
open Hal Frames Foundation

/-- `after` is `before` but for the first 264 bytes of the frame at `pa`. -/
structure Within (before : Phys) (pa : Nat) (after : Phys) : Prop where
  elsewhere : ∀ a, ¬ (pa ≤ a ∧ a < pa + 264) → after.mem a = before.mem a
  rest : after = { before with mem := after.mem }

theorem Within.refl (phys : Phys) (pa : Nat) : Within phys pa phys := ⟨fun _ _ => rfl, rfl⟩

theorem Within.trans {first second third : Phys} {pa : Nat} (left : Within first pa second) (right : Within second pa third) :
    Within first pa third := by
  refine ⟨fun a away => (right.elsewhere a away).trans (left.elsewhere a away), ?_⟩
  rw [right.rest, left.rest]

/-- One word of the frame. -/
theorem physWriteU64_frame (phys : Phys) {pa : Nat} (frame : IsFrame pa) (offset : Nat) (value : UInt64)
    (aligned : offset % 8 = 0) (inside : offset + 8 ≤ 264) :
    (physWriteU64 phys (pa + offset) value).2 = { phys with mem := phys.mem.write64 (pa + offset) value } ∧
      Within phys pa (physWriteU64 phys (pa + offset) value).2 := by
  have word : (pa + offset) % 8 = 0 := by
    have := frame.bounds
    omega
  have written : (physWriteU64 phys (pa + offset) value).2 = { phys with mem := phys.mem.write64 (pa + offset) value } := by
    simp [physWriteU64, word, frame.inPool offset 8 (by omega)]
  refine ⟨written, ?_, ?_⟩
  · intro a away
    rw [written]
    exact if_neg (by omega)
  · rw [written]

private theorem read_other (mem : Memory) {pa offset other : Nat} (value : UInt64) (apart : other + 8 ≤ offset ∨ offset + 8 ≤ other) :
    (mem.write64 (pa + offset) value).read64 (pa + other) = mem.read64 (pa + other) :=
  Memory.read64_congr (Memory.write64_agree mem value (by omega))

private theorem saveRegs_spec (regs : Fin 31 → UInt64) {pa : Nat} (frame : IsFrame pa) (indices : List (Fin 31))
    (once : indices.Nodup) (phys : Phys) :
    Within phys pa (indices.foldl (fun phys i => (physWriteU64 phys (pa + i.val * 8) (regs i)).2) phys) ∧
      ∀ j : Fin 31, (j ∈ indices ∧ (indices.foldl (fun phys i => (physWriteU64 phys (pa + i.val * 8) (regs i)).2)
          phys).mem.read64 (pa + j.val * 8) = regs j) ∨
        (j ∉ indices ∧ (indices.foldl (fun phys i => (physWriteU64 phys (pa + i.val * 8) (regs i)).2)
          phys).mem.read64 (pa + j.val * 8) = phys.mem.read64 (pa + j.val * 8)) := by
  induction indices generalizing phys with
  | nil => exact ⟨.refl _ _, fun j => .inr ⟨List.not_mem_nil, rfl⟩⟩
  | cons i rest ih =>
    obtain ⟨fresh, once⟩ := List.nodup_cons.mp once
    obtain ⟨written, within⟩ := physWriteU64_frame phys frame (i.val * 8) (regs i) (by omega) (by omega)
    obtain ⟨later, read⟩ := ih once (physWriteU64 phys (pa + i.val * 8) (regs i)).2
    rw [List.foldl_cons]
    refine ⟨within.trans later, fun j => ?_⟩
    rcases read j with ⟨listed, read⟩ | ⟨unlisted, read⟩
    · exact .inl ⟨List.mem_cons_of_mem _ listed, read⟩
    by_cases same : j = i
    · subst same
      rw [read, written, Memory.read64_write64]
      exact .inl ⟨List.mem_cons_self, rfl⟩
    · have apart : j.val ≠ i.val := fun equal => same (Fin.ext equal)
      rw [read, written, read_other _ _ (by omega)]
      exact .inr ⟨List.not_mem_cons_of_ne_of_not_mem same unlisted, rfl⟩

private theorem resumeLoads_offset : ∀ i : Fin 31, (resumeLoads.lookup (i.val + 1)).getD 0 = i.val * 8 := by decide

theorem loadFrame_eq {mem : Memory} {pa : Nat} {context : TrapFrame}
    (regs : ∀ i : Fin 31, mem.read64 (pa + i.val * 8) = context.regs i) (sepc : mem.read64 (pa + 248) = context.sepc)
    (sstatus : mem.read64 (pa + 256) = context.sstatus) : loadFrame mem pa = context := by
  have regsEq : (fun i : Fin 31 => mem.read64 (pa + (resumeLoads.lookup (i.val + 1)).getD 0)) = context.regs := by
    funext i
    rw [resumeLoads_offset, regs]
  unfold loadFrame
  rw [regsEq, sepc, sstatus]

/-- The layout `save_frame_to` writes is the one `__resume_user` reads. -/
theorem saveFrameTo_spec (phys : Phys) (context : TrapFrame) {pa : Nat} (frame : IsFrame pa) (a0 : UInt64) :
    Within phys pa (saveFrameTo phys context pa a0) ∧
      loadFrame (saveFrameTo phys context pa a0).mem pa = context.setA0 a0 := by
  unfold saveFrameTo
  obtain ⟨regsWithin, regsRead⟩ := saveRegs_spec context.regs frame (List.finRange 31) (List.nodup_finRange 31) phys
  generalize (List.finRange 31).foldl (fun phys i => (physWriteU64 phys (pa + i.val * 8) (context.regs i)).2) phys =
    saved at regsWithin regsRead ⊢
  dsimp only
  obtain ⟨first, firstWithin⟩ := physWriteU64_frame saved frame (TrapFrame.xA0.val * 8) a0 (by decide) (by decide)
  generalize (physWriteU64 saved (pa + TrapFrame.xA0.val * 8) a0).2 = withA0 at first firstWithin ⊢
  obtain ⟨second, secondWithin⟩ := physWriteU64_frame withA0 frame 248 context.sepc (by decide) (by decide)
  generalize (physWriteU64 withA0 (pa + 248) context.sepc).2 = withSepc at second secondWithin ⊢
  obtain ⟨third, thirdWithin⟩ := physWriteU64_frame withSepc frame 256 context.sstatus (by decide) (by decide)
  refine ⟨regsWithin.trans (firstWithin.trans (secondWithin.trans thirdWithin)), ?_⟩
  rw [third, second, first]
  apply loadFrame_eq
  · intro i
    have index : i.val < 31 := i.isLt
    rw [read_other _ _ (by omega), read_other _ _ (by omega)]
    by_cases isA0 : i = TrapFrame.xA0
    · subst isA0
      rw [Memory.read64_write64]
      simp [TrapFrame.setA0, TrapFrame.setReg]
    · have apart : i.val ≠ TrapFrame.xA0.val := fun same => isA0 (Fin.ext same)
      rw [read_other _ _ (by omega), ((regsRead i).resolve_right fun unlisted => unlisted.1 (List.mem_finRange i)).2]
      simp [TrapFrame.setA0, TrapFrame.setReg, isA0]
  · rw [read_other _ _ (by omega), Memory.read64_write64]
    rfl
  · rw [Memory.read64_write64]
    rfl

/-- A zeroed frame initialised for a fresh start. -/
theorem initFrameTo_spec (phys : Phys) {pa : Nat} (frame : IsFrame pa) (entry : Nat)
    (zeroed : ∀ a, pa ≤ a → a < pa + 4096 → phys.mem a = 0) :
    Within phys pa (initFrameTo phys pa entry) ∧ loadFrame (initFrameTo phys pa entry).mem pa = freshFrame entry := by
  unfold initFrameTo
  obtain ⟨first, firstWithin⟩ := physWriteU64_frame phys frame 248 (.ofNat entry) (by decide) (by decide)
  dsimp only
  generalize (physWriteU64 phys (pa + 248) (.ofNat entry)).2 = withSepc at first firstWithin ⊢
  obtain ⟨second, secondWithin⟩ := physWriteU64_frame withSepc frame 256 sstatusSpie (by decide) (by decide)
  refine ⟨firstWithin.trans secondWithin, ?_⟩
  rw [second, first]
  apply loadFrame_eq
  · intro i
    have index : i.val < 31 := i.isLt
    rw [read_other _ _ (by omega), read_other _ _ (by omega)]
    have same : Memory.Agree (Memory.zero phys.mem pa 4096) phys.mem (pa + i.val * 8) 8 := by
      intro a above below
      rw [zeroed a (by omega) (by omega)]
      exact (if_pos (by omega)).symm
    rw [Memory.read64_congr same]
    exact Memory.read64_zero phys.mem (by omega)
  · rw [read_other _ _ (by omega), Memory.read64_write64]
    rfl
  · rw [Memory.read64_write64]
    rfl

/-- A saved context survives being copied to another frame. -/
theorem loadFrame_copy {before after : Memory} {pa pa' : Nat} (same : ∀ i, i < 4096 → after (pa' + i) = before (pa + i)) :
    loadFrame after pa' = loadFrame before pa := by
  have word : ∀ offset, offset + 8 ≤ 4096 → after.read64 (pa' + offset) = before.read64 (pa + offset) := by
    intro offset inside
    unfold Memory.read64
    congr 1
    apply Memory.littleEndian_congr
    intro index small
    rw [Nat.add_assoc, Nat.add_assoc]
    exact same (offset + index) (by omega)
  refine loadFrame_eq (fun i => ?_) (word 248 (by omega)) (word 256 (by omega))
  have index : i.val < 31 := i.isLt
  rw [word _ (by omega)]
  unfold loadFrame
  dsimp only
  rw [resumeLoads_offset]

/-- A saved context depends on its frame only. -/
theorem loadFrame_congr {before after : Memory} {pa : Nat} (same : Memory.Agree before after pa 4096) :
    loadFrame after pa = loadFrame before pa :=
  loadFrame_copy fun i inside => same (pa + i) (by omega) (by omega)

end Kernai.Context
