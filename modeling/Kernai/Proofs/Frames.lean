import Kernai.Frames

/-! What the allocator promises: a fresh frame was not live before, is zeroed, and
nothing else changes; a freed frame is the only one that stops being live. -/

namespace Kernai.Frames
open Hal Foundation

/-- The address of a pool frame. -/
def IsFrame (f : Nat) : Prop := poolBase ≤ f ∧ f < poolEnd ∧ (f - poolBase) % frameSize = 0

def Live (phys : Phys) (f : Nat) : Prop := IsFrame f ∧ phys.bitmap ((f - poolBase) / frameSize) = true

theorem IsFrame.bounds {f : Nat} (frame : IsFrame f) : 0x80400000 ≤ f ∧ f + 4096 ≤ 0x88000000 ∧ f % 4096 = 0 := by
  obtain ⟨above, below, aligned⟩ := frame
  simp only [poolBase, poolEnd, frameSize] at above below aligned
  omega

theorem isFrame_of_bounds {f : Nat} (above : 0x80400000 ≤ f) (below : f < 0x88000000) (aligned : f % 4096 = 0) :
    IsFrame f := by
  refine ⟨above, below, ?_⟩
  simp only [poolBase, frameSize]
  omega

theorem IsFrame.ne_zero {f : Nat} (frame : IsFrame f) : f ≠ 0 := by
  have := frame.bounds
  omega

theorem Live.isFrame {phys : Phys} {f : Nat} (live : Live phys f) : IsFrame f := live.1

/-- Distinct frames do not overlap. -/
theorem IsFrame.apart {f g : Nat} (first : IsFrame f) (second : IsFrame g) (distinct : f ≠ g) :
    f + 4096 ≤ g ∨ g + 4096 ≤ f := by
  have := first.bounds
  have := second.bounds
  omega

theorem IsFrame.inPool {f : Nat} (frame : IsFrame f) (offset length : Nat) (inside : offset + length ≤ 4096) :
    Hal.inPool (f + offset) length = true := by
  have := frame.bounds
  have inside : poolBase ≤ f + offset ∧ f + offset + length ≤ poolEnd := by
    simp only [poolBase, poolEnd]
    omega
  simp [Hal.inPool, inside]

theorem IsFrame.outside {f a : Nat} (frame : IsFrame f) (away : a < poolBase ∨ poolEnd ≤ a) :
    ¬ (f ≤ a ∧ a < f + 4096) := by
  have := frame.bounds
  simp only [poolBase, poolEnd] at away
  omega

private theorem index_inj {f g : Nat} (first : IsFrame f) (second : IsFrame g)
    (same : (f - poolBase) / frameSize = (g - poolBase) / frameSize) : f = g := by
  have := first.bounds
  have := second.bounds
  simp only [poolBase, frameSize] at same
  omega

theorem frame_of_index {index : Nat} (inside : index < poolFrames) :
    IsFrame (poolBase + index * frameSize) ∧
      (poolBase + index * frameSize - poolBase) / frameSize = index := by
  simp only [poolFrames, poolEnd, poolBase, frameSize] at inside
  refine ⟨isFrame_of_bounds ?_ ?_ ?_, ?_⟩ <;> simp only [poolBase, frameSize] <;> omega

theorem search_found {bitmap : Nat → Bool} {start remaining i frame : Nat}
    (found : search bitmap start remaining i = some frame) : frame < poolFrames ∧ bitmap frame = false := by
  induction remaining generalizing i with
  | zero => cases found
  | succ remaining ih =>
    rw [search] at found
    split at found
    · exact ih found
    · next free =>
      cases found
      exact ⟨Nat.mod_lt _ (by decide), by simpa using free⟩

private theorem search_none {bitmap : Nat → Bool} {start remaining i : Nat}
    (exhausted : search bitmap start remaining i = none) :
    ∀ offset, i ≤ offset → offset < i + remaining → bitmap ((start + offset) % poolFrames) = true := by
  induction remaining generalizing i with
  | zero =>
    intro offset above below
    omega
  | succ remaining ih =>
    rw [search] at exhausted
    split at exhausted
    · next used =>
      intro offset above below
      by_cases first : offset = i
      · rw [first]
        exact used
      · exact ih exhausted offset (by omega) (by omega)
    · cases exhausted

/-- The circular search passes every frame, wherever it starts. -/
private theorem search_exhausts {bitmap : Nat → Bool} {start : Nat} (below : start < poolFrames)
    (exhausted : search bitmap start poolFrames 0 = none) {frame : Nat} (inside : frame < poolFrames) :
    bitmap frame = true := by
  have passed := search_none exhausted ((frame + poolFrames - start) % poolFrames) (Nat.zero_le _)
    (by rw [Nat.zero_add]; exact Nat.mod_lt _ (by decide))
  have place : (start + (frame + poolFrames - start) % poolFrames) % poolFrames = frame := by
    rw [Nat.add_mod_mod, show start + (frame + poolFrames - start) = frame + poolFrames by omega,
      Nat.add_mod_right, Nat.mod_eq_of_lt inside]
  rwa [place] at passed

/-- Nothing but the page-table bookkeeping moved: `satp` and the history of
destroyed spaces. -/
def SameControl (before after : Phys) : Prop := after.satp = before.satp ∧ after.destroyed = before.destroyed

theorem SameControl.refl (phys : Phys) : SameControl phys phys := ⟨rfl, rfl⟩

theorem SameControl.trans {first second third : Phys} (left : SameControl first second)
    (right : SameControl second third) : SameControl first third :=
  ⟨right.1.trans left.1, right.2.trans left.2⟩

structure Allocated (before : Phys) (f : Nat) (after : Phys) : Prop where
  frame : IsFrame f
  fresh : ¬ Live before f
  live : ∀ g, Live after g ↔ Live before g ∨ g = f
  zeroed : ∀ a, f ≤ a → a < f + 4096 → after.mem a = 0
  kept : ∀ a, ¬ (f ≤ a ∧ a < f + 4096) → after.mem a = before.mem a
  counted : after.allocated = before.allocated + 1
  control : SameControl before after

theorem alloc_some {before after : Phys} {f : Nat} (allocated : alloc before = (some f, after)) :
    Allocated before f after := by
  unfold alloc at allocated
  split at allocated
  · cases allocated
  · next index found =>
    obtain ⟨inside, unused⟩ := search_found found
    obtain ⟨frame, back⟩ := frame_of_index inside
    obtain ⟨address, rfl⟩ := Prod.mk.inj allocated
    obtain rfl := Option.some.inj address
    have pool : Hal.inPool (poolBase + index * frameSize) frameSize = true := by
      simpa [frameSize] using frame.inPool 0 4096 (by omega)
    simp only [physZero, pool, if_true]
    refine ⟨frame, ?_, ?_, ?_, ?_, rfl, ⟨rfl, rfl⟩⟩
    · rintro ⟨-, used⟩
      rw [back, unused] at used
      cases used
    · intro g
      simp only [Live]
      constructor
      · rintro ⟨isFrame, used⟩
        split at used
        · next same => exact .inr (index_inj isFrame frame (same.trans back.symm))
        · exact .inl ⟨isFrame, used⟩
      · rintro (⟨isFrame, used⟩ | rfl)
        · refine ⟨isFrame, ?_⟩
          split
          · rfl
          · exact used
        · exact ⟨frame, by rw [if_pos back]⟩
    · intro a above below
      exact if_pos ⟨above, below⟩
    · intro a outside
      exact if_neg outside

theorem Allocated.agree {before after : Phys} {fresh f : Nat} (allocated : Allocated before fresh after)
    (frame : IsFrame f) (other : f ≠ fresh) : Memory.Agree before.mem after.mem f 4096 := by
  intro a above below
  apply allocated.kept
  rcases frame.apart allocated.frame other with left | right <;> omega

theorem alloc_none {before after : Phys} (failed : alloc before = (none, after)) : after = before := by
  unfold alloc at failed
  split at failed
  · exact (Prod.mk.inj failed).2.symm
  · cases failed

/-- Allocation fails only when every frame is in use, whatever the hint. -/
theorem alloc_none_iff (phys : Phys) : (alloc phys).1 = none ↔ ∀ f, IsFrame f → Live phys f := by
  unfold alloc
  split
  · next exhausted =>
    refine ⟨fun _ f frame => ⟨frame, ?_⟩, fun _ => rfl⟩
    refine search_exhausts (Nat.mod_lt _ (by decide)) exhausted ?_
    have := frame.bounds
    simp only [poolFrames, poolEnd, poolBase, frameSize]
    omega
  · next index found =>
    obtain ⟨inside, unused⟩ := search_found found
    obtain ⟨frame, back⟩ := frame_of_index inside
    refine ⟨fun absent => (nomatch absent), fun full => ?_⟩
    have used := (full _ frame).2
    rw [back, unused] at used
    cases used

@[simp] theorem free_mem (phys : Phys) (f : Nat) : (free phys f).mem = phys.mem := by
  unfold free
  dsimp only
  split
  · rfl
  · split <;> rfl

@[simp] theorem free_satp (phys : Phys) (f : Nat) : (free phys f).satp = phys.satp := by
  unfold free
  dsimp only
  split
  · rfl
  · split <;> rfl

@[simp] theorem free_destroyed (phys : Phys) (f : Nat) : (free phys f).destroyed = phys.destroyed := by
  unfold free
  dsimp only
  split
  · rfl
  · split <;> rfl

theorem live_free (phys : Phys) (f g : Nat) : Live (free phys f) g ↔ Live phys g ∧ g ≠ f := by
  unfold free
  dsimp only
  split
  · next outside =>
    refine ⟨fun live => ⟨live, ?_⟩, fun live => live.1⟩
    rintro rfl
    have := live.isFrame
    simp only [IsFrame] at this
    omega
  · next inside =>
    have frame : IsFrame f := by
      simp only [IsFrame]
      omega
    split
    · next used =>
      simp only [Live]
      constructor
      · rintro ⟨isFrame, kept⟩
        split at kept
        · cases kept
        · next other => exact ⟨⟨isFrame, kept⟩, fun same => other (by rw [same])⟩
      · rintro ⟨⟨isFrame, kept⟩, other⟩
        refine ⟨isFrame, ?_⟩
        rw [if_neg (fun same => other (index_inj isFrame frame same))]
        exact kept
    · next unused =>
      refine ⟨fun live => ⟨live, ?_⟩, fun live => live.1⟩
      rintro rfl
      exact unused live.2

/-- A pool nobody has touched. -/
def pristine : Phys :=
  { mem := fun _ => 0, bitmap := fun _ => false, nextHint := 0, allocated := 0, satp := 0, destroyed := [] }

end Kernai.Frames
