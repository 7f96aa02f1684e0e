import Kernai.Proofs.Lifetime

/-! What the hart makes of a well-formed space: walks end at the lowest-level
entry of the page, so what U-mode sees and where its stores land is told by
`pteOf` alone. -/

namespace Kernai.Sv39
open Mm Hal Frames Foundation

private theorem pte_eq (mem : Memory) (table va level : Nat) : pte mem table va level = entryAt mem table (vpn va level) := by
  unfold pte entryAt
  rfl

private theorem leafFrom_succ (mem : Memory) (va level table : Nat) :
    leafFrom mem va (level + 1) table = ((leafOf (entryAt mem table (vpn va (level + 1)))).map (level + 1, ·)).or
      ((child mem table (vpn va (level + 1))).bind (leafFrom mem va level ·)) := by
  rw [leafFrom, pte_eq]
  unfold child leafOf IsLeaf
  by_cases invalid : entryAt mem table (vpn va (level + 1)) &&& V = 0
  · simp [invalid]
  · by_cases pointer : entryAt mem table (vpn va (level + 1)) &&& permMask = 0
    · simp [invalid, pointer]
    · simp [invalid, pointer]

private theorem leafFrom_zero (mem : Memory) (va table : Nat) :
    leafFrom mem va 0 table = (leafOf (entryAt mem table (vpn va 0))).map (0, ·) := by
  rw [leafFrom, pte_eq]
  unfold leafOf IsLeaf
  by_cases invalid : entryAt mem table (vpn va 0) &&& V = 0
  · simp [invalid]
  · by_cases pointer : entryAt mem table (vpn va 0) &&& permMask = 0
    · simp [pointer]
    · simp [invalid, pointer]

theorem leafOf_zero : leafOf 0 = none := rfl

/-- A walk ends at the first leaf among the three entries on its way. -/
theorem leafAt_layers (mem : Memory) (root va : Nat) :
    leafAt mem root va = ((leafOf (entryAt mem root (vpn va 2))).map (2, ·)).or
      (((leafOf (midOf mem root (pageNumber va / 512))).map (1, ·)).or
        ((leafOf (pteOf mem root (pageNumber va))).map (0, ·))) := by
  have top : pageNumber va / 512 / 512 = vpn va 2 := (vpn_two va).symm
  have middle : pageNumber va / 512 % 512 = vpn va 1 := (vpn_one va).symm
  unfold leafAt
  rw [leafFrom_succ, midOf, pteOf, lowAt, top, middle, ← vpn_zero]
  cases isMid : child mem root (vpn va 2) with
  | none => simp [leafOf_zero]
  | some mid =>
    rw [Option.bind_some, leafFrom_succ]
    cases isLow : child mem mid (vpn va 1) with
    | none => simp [isLow, leafOf_zero]
    | some low => simp [isLow, leafFrom_zero]

/-- A walk ends at the kernel gigapage or at the lowest-level entry. -/
theorem leafAt_eq {mem : Memory} {root : Nat} (shape : Shape mem root) (va : Nat) :
    leafAt mem root va =
      if vpn va 2 = 2 then some (2, leaf kernelGigapageVa (R ||| W ||| X ||| G))
      else if IsLeaf (pteOf mem root (pageNumber va)) then some (0, pteOf mem root (pageNumber va)) else none := by
  have small := pageNumber_lt va
  rw [leafAt_layers]
  by_cases kernel : vpn va 2 = 2
  · rw [if_pos kernel, kernel, shape.giga]
    rfl
  · have noTop : leafOf (entryAt mem root (vpn va 2)) = none :=
      if_neg fun leafy => leafy.2 (shape.top _ (vpn_lt va 2) kernel)
    have noMiddle : leafOf (midOf mem root (pageNumber va / 512)) = none :=
      if_neg fun leafy => leafy.2 (shape.midOf (by omega))
    rw [if_neg kernel, noTop, noMiddle]
    simp only [Option.map_none, Option.none_or, leafOf]
    split <;> rfl

private theorem kernelLeaf_user : leaf kernelGigapageVa (R ||| W ||| X ||| G) &&& U = 0 := by decide

private theorem kernel_pte {mem : Memory} {root va : Nat} (shape : Shape mem root) (kernel : vpn va 2 = 2) :
    pteOf mem root (pageNumber va) = 0 := by
  unfold pteOf lowAt
  rw [← vpn_two, kernel]
  have blocked : child mem root 2 = none := by
    unfold child
    rw [shape.giga, if_neg (by decide)]
  rw [blocked]
  rfl

/-- The view of a well-formed space by page number. -/
theorem view_eq {mem : Memory} {root : Nat} (shape : Shape mem root) (va : Nat) :
    view mem root va =
      if IsLeaf (pteOf mem root (pageNumber va)) ∧ pteOf mem root (pageNumber va) &&& U ≠ 0 then
        some (pteOf mem root (pageNumber va) &&& (R ||| W ||| X ||| U), mem (ptePa (pteOf mem root (pageNumber va)) + va % 4096))
      else none := by
  unfold view
  rw [leafAt_eq shape]
  by_cases kernel : vpn va 2 = 2
  · simp only [if_pos kernel, kernelLeaf_user, if_true, kernel_pte shape kernel]
    simp
  · rw [if_neg kernel]
    by_cases leafy : IsLeaf (pteOf mem root (pageNumber va))
    · by_cases user : pteOf mem root (pageNumber va) &&& U = 0
      · simp [leafy, user]
      · simp [leafy, user, target]
    · simp [leafy]

/-- A store that does not fault lands in a writable user page. -/
theorem storeAddress_some {mem : Memory} {root va pa : Nat} (shape : Shape mem root)
    (lands : storeAddress mem root va = some pa) :
    IsLeaf (pteOf mem root (pageNumber va)) ∧ pteOf mem root (pageNumber va) &&& U ≠ 0 ∧
      pteOf mem root (pageNumber va) &&& W ≠ 0 ∧ pa = ptePa (pteOf mem root (pageNumber va)) + va % 4096 := by
  unfold storeAddress at lands
  rw [leafAt_eq shape] at lands
  split at lands
  · split at lands
    · next level entry walked =>
      split at lands
      · next allowed =>
        obtain ⟨bits, -⟩ := allowed
        split at walked
        · obtain ⟨rfl, rfl⟩ := Prod.mk.inj (Option.some.inj walked)
          exact absurd bits (by decide)
        · split at walked
          · next leafy =>
            obtain ⟨rfl, rfl⟩ := Prod.mk.inj (Option.some.inj walked)
            have bit : ∀ mask, mask &&& (U ||| R ||| W) = mask → pteOf mem root (pageNumber va) &&& mask = mask := by
              intro mask inside
              rw [← inside, ← Nat.and_assoc, Nat.and_right_comm, bits, Nat.and_comm, inside]
            refine ⟨leafy, ?_, ?_, (Option.some.inj lands).symm⟩
            · rw [bit U (by decide)]
              decide
            · rw [bit W (by decide)]
              decide
          · cases walked
      · cases lands
    · cases lands
  · cases lands

/-- The translations survive any change outside the frames of the space. -/
theorem leafAt_frame {phys : Phys} {mem : Memory} {root : Nat} (space : Space phys root)
    (same : ∀ node f, frameAt phys.mem root node = some f → Memory.Agree phys.mem mem f 4096) :
    leafAt mem root = leafAt phys.mem root := by
  funext va
  have shape := space.shape.frame fun node f _ found => same node f found
  have pages := (space.shape.pteOf_frame fun node f _ found => same node f found).1 _ (pageNumber_lt va)
  rw [leafAt_eq shape, leafAt_eq space.shape, pages]

/-- The view survives any change outside the frames of the space. -/
theorem view_frame {phys : Phys} {root : Nat} {mem : Memory} (space : Space phys root)
    (same : ∀ node f, frameAt phys.mem root node = some f → Memory.Agree phys.mem mem f 4096)
    (outside : ∀ a, a < poolBase ∨ poolEnd ≤ a → mem a = phys.mem a) : view mem root = view phys.mem root := by
  funext va
  have shape := space.shape.frame (fun node f _ found => same node f found)
  have pages := (space.shape.pteOf_frame (fun node f _ found => same node f found)).1 _ (pageNumber_lt va)
  rw [view_eq shape, view_eq space.shape, pages]
  split
  · next visible =>
    obtain ⟨-, -, place⟩ := space.entries _ (pageNumber_lt va) visible.1
    have byte : mem (ptePa (pteOf phys.mem root (pageNumber va)) + va % 4096) =
        phys.mem (ptePa (pteOf phys.mem root (pageNumber va)) + va % 4096) := by
      rcases place with frame | ⟨beyond, -, -⟩
      · have found : frameAt phys.mem root (.page (pageNumber va)) = some (ptePa (pteOf phys.mem root (pageNumber va))) := by
          simp only [frameAt, pageNumber_lt va, visible.1, frame, and_self, if_true]
        exact same _ _ found _ (by omega) (by omega)
      · exact outside _ (by omega)
    rw [byte]
  · rfl

end Kernai.Sv39
