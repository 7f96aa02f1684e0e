import Kernai.Proofs.Views

/-! The algebra of `map_page` and `translate_checked` on any tree of tables, with
leaves of any size anywhere in it. -/

namespace Kernai.Mm
open Hal Frames Foundation Sv39

variable {phys after : Phys} {root : Nat}

/-- Permission flags a caller may ask for. -/
def Flags (perms : Nat) : Prop := perms &&& (R ||| W ||| X ||| U) = perms

theorem Flags.lt {perms : Nat} (flags : Flags perms) : perms < 64 := by
  rw [← flags]
  calc perms &&& (R ||| W ||| X ||| U) ≤ R ||| W ||| X ||| U := Nat.and_le_right
    _ < 64 := by decide

/-- What `translate_checked` answers once its walk has reached a leaf. -/
def answer (va need : Nat) (found : Nat × Nat) : Option Nat :=
  if need ≠ 0 ∧ (found.2 &&& U = 0 ∨ found.2 &&& need ≠ need) then none else some (target va found.1 found.2)

private theorem translateFrom_succ (va need level : Nat) {table : Nat} (frame : IsFrame table) :
    translateFrom phys va need (level + 1) table =
      match leafOf (entryAt phys.mem table (vpn va (level + 1))) with
      | some entry => answer va need (level + 1, entry)
      | none => (child phys.mem table (vpn va (level + 1))).bind (translateFrom phys va need level ·) := by
  rw [translateFrom]
  simp only [readPte_eq phys frame (vpn_lt va (level + 1)), Nat.and_two_pow_sub_one_eq_mod, child, leafOf, IsLeaf]
  generalize entryAt phys.mem table (vpn va (level + 1)) = entry
  by_cases invalid : entry &&& V = 0
  · simp [invalid]
  · by_cases pointer : entry &&& permMask = 0
    · simp [invalid, pointer]
    · simp [invalid, pointer, answer, target]

private theorem translateFrom_zero (va need : Nat) {table : Nat} (frame : IsFrame table) :
    translateFrom phys va need 0 table = (leafOf (entryAt phys.mem table (vpn va 0))).bind (answer va need ⟨0, ·⟩) := by
  rw [translateFrom]
  simp only [readPte_eq phys frame (vpn_lt va 0), Nat.and_two_pow_sub_one_eq_mod, leafOf, IsLeaf]
  generalize entryAt phys.mem table (vpn va 0) = entry
  by_cases invalid : entry &&& V = 0
  · simp [invalid]
  · by_cases pointer : entry &&& permMask = 0
    · simp [pointer]
    · simp [invalid, pointer, answer, target]

/-- `translate_checked` walks as the hart does. -/
theorem Tree.translateChecked_eq (tree : Tree phys root) (va need : Nat) :
    translateChecked phys root va need = (leafAt phys.mem root va).bind (answer va need) := by
  have top : pageNumber va / 512 / 512 = vpn va 2 := (vpn_two va).symm
  have middle : pageNumber va / 512 % 512 = vpn va 1 := (vpn_one va).symm
  have small := pageNumber_lt va
  rw [leafAt_layers, midOf, pteOf, lowAt, top, middle, ← vpn_zero, translateChecked,
    translateFrom_succ va need 1 tree.tables.root]
  cases leafOf (entryAt phys.mem root (vpn va 2)) with
  | some entry => rfl
  | none =>
    cases isMid : child phys.mem root (vpn va 2) with
    | none => simp [leafOf_zero]
    | some mid =>
      have midFrame := tree.tables.frames _ _ rfl (frameAt_mid (vpn_lt va 2) isMid)
      simp only [Option.bind_some, Option.map_none, Option.none_or]
      rw [translateFrom_succ va need 0 midFrame]
      cases leafOf (entryAt phys.mem mid (vpn va 1)) with
      | some entry => rfl
      | none =>
        cases isLow : child phys.mem mid (vpn va 1) with
        | none => simp [leafOf_zero]
        | some low =>
          have place : lowAt phys.mem root (pageNumber va / 512) = some low := by
            rw [lowAt, top, middle, isMid]
            exact isLow
          have lowFrame := tree.tables.frames _ _ rfl (frameAt_low (by omega) place)
          simp only [Option.bind_some, Option.map_none, Option.none_or]
          rw [translateFrom_zero va need lowFrame]
          cases leafOf (entryAt phys.mem low (vpn va 0)) <;> rfl

/-- Adding empty tables is invisible to translation. -/
theorem Extends.translate {new : List Nat} (extended : Extends root new phys after) (va : Nat) :
    leafAt after.mem root va = leafAt phys.mem root va := by
  have small := pageNumber_lt va
  rw [leafAt_layers, leafAt_layers, extended.top _ (vpn_lt va 2), extended.middles _ (by omega), extended.pages _ small]

/-- Some entry on the walk of `va` is a leaf, or is valid at the lowest level. -/
def Hit (entries : List (Nat × Nat)) : Prop :=
  ∃ level pte, (level, pte) ∈ entries ∧ pte &&& V ≠ 0 ∧ (pte &&& permMask ≠ 0 ∨ level = 0)

private theorem hit_cons (level pte : Nat) (rest : List (Nat × Nat)) :
    Hit ((level, pte) :: rest) ↔ (pte &&& V ≠ 0 ∧ (pte &&& permMask ≠ 0 ∨ level = 0)) ∨ Hit rest := by
  constructor
  · rintro ⟨level', pte', member, valid, ends⟩
    rcases List.mem_cons.mp member with same | later
    · cases same
      exact .inl ⟨valid, ends⟩
    · exact .inr ⟨level', pte', later, valid, ends⟩
  · rintro (⟨valid, ends⟩ | ⟨level', pte', member, rest⟩)
    · exact ⟨level, pte, by simp, valid, ends⟩
    · exact ⟨level', pte', .tail _ member, rest⟩

private theorem walkFrom_zero (va : Nat) {table : Nat} (frame : IsFrame table) :
    Hit (walkFrom phys va 0 table) ↔ entryAt phys.mem table (vpn va 0) &&& V ≠ 0 := by
  rw [walkFrom]
  simp only [readPte_eq phys frame (vpn_lt va 0), ite_self]
  simp [Hit]

private theorem walkFrom_succ (va level : Nat) {table : Nat} (frame : IsFrame table) :
    Hit (walkFrom phys va (level + 1) table) ↔ IsLeaf (entryAt phys.mem table (vpn va (level + 1))) ∨
      ∃ next, child phys.mem table (vpn va (level + 1)) = some next ∧ Hit (walkFrom phys va level next) := by
  rw [walkFrom]
  simp only [readPte_eq phys frame (vpn_lt va (level + 1)), child, IsLeaf]
  generalize entryAt phys.mem table (vpn va (level + 1)) = entry
  by_cases invalid : entry &&& V = 0
  · simp [Hit, invalid]
  · by_cases pointer : entry &&& permMask = 0
    · simp [hit_cons, invalid, pointer]
    · simp [Hit, invalid, pointer]

/-- The walk of `va` is blocked exactly where `map_page` finds the page covered. -/
theorem Tree.covered_iff (tree : Tree phys root) (va : Nat) : Covered phys.mem root va ↔ Hit (walk phys root va) := by
  have top : pageNumber va / 512 / 512 = vpn va 2 := (vpn_two va).symm
  have middle : pageNumber va / 512 % 512 = vpn va 1 := (vpn_one va).symm
  have small := pageNumber_lt va
  rw [walk, walkFrom_succ va 1 tree.tables.root, Covered, midOf, pteOf, lowAt, top, middle, ← vpn_zero]
  refine or_congr_right ?_
  cases isMid : child phys.mem root (vpn va 2) with
  | none => simp [IsLeaf]
  | some mid =>
    have midFrame := tree.tables.frames _ _ rfl (frameAt_mid (vpn_lt va 2) isMid)
    simp only [Option.some.injEq, Option.bind_some, exists_eq_left']
    rw [walkFrom_succ va 0 midFrame]
    refine or_congr_right ?_
    cases isLow : child phys.mem mid (vpn va 1) with
    | none => simp
    | some low =>
      have place : lowAt phys.mem root (pageNumber va / 512) = some low := by
        rw [lowAt, top, middle, isMid]
        exact isLow
      have lowFrame := tree.tables.frames _ _ rfl (frameAt_low (by omega) place)
      simp only [Option.some.injEq, exists_eq_left']
      rw [walkFrom_zero va lowFrame]

/-- The new leaf as `translate_checked` judges it. -/
private theorem answer_leaf {pa perms va need : Nat} (flags : Flags perms) (aligned : pa % 4096 = 0) (small : pa < 2 ^ 56)
    (drawn : Flags need) :
    answer va need (0, leaf pa perms) =
      if need = 0 ∨ (perms &&& U ≠ 0 ∧ perms &&& need = need) then some (pa + va % 4096) else none := by
  have even : ∀ mask, Flags mask → mask < 64 ∧ mask % 2 = 0 := by
    intro mask flagged
    refine ⟨flagged.lt, ?_⟩
    rw [← flagged, show R ||| W ||| X ||| U = 30 from rfl, show (2 : Nat) = 2 ^ 1 from rfl, Nat.and_mod_two_pow]
    simp
  have userBit : leaf pa perms &&& U = perms &&& U := leaf_and pa flags.lt (by decide) (by decide)
  have needBits : leaf pa perms &&& need = perms &&& need := leaf_and pa flags.lt (even need drawn).1 (even need drawn).2
  simp only [answer, userBit, needBits, target, ptePa_leaf flags.lt aligned small]
  by_cases zero : need = 0
  · simp [zero]
  · by_cases user : perms &&& U = 0
    · simp [zero, user]
    · by_cases granted : perms &&& need = need
      · simp [zero, user, granted]
      · simp [zero, user, granted]

/-- `map_page` and `translate_checked`: a page mapped is what its own addresses
translate to, no other translation changes, a failure changes none, and the only
obstacles are a covered page and an empty pool. -/
theorem mapPage_translate (va pa perms : Nat) (result : Except MmError Unit) (tree : Tree phys root)
    (aligned : pa % 4096 = 0) (small : pa < 2 ^ 56) (flags : Flags perms) (carries : perms &&& permMask ≠ 0)
    (ran : mapPage phys root va pa perms = (result, after)) :
    (result = .ok () → ∀ va' need,
      (pageNumber va' = pageNumber va → Flags need → translateChecked after root va' need =
        if need = 0 ∨ (perms &&& U ≠ 0 ∧ perms &&& need = need) then some (pa + va' % 4096) else none) ∧
      (pageNumber va' ≠ pageNumber va → translateChecked after root va' need = translateChecked phys root va' need)) ∧
    (∀ reason, result = .error reason →
      ∀ va' need, translateChecked after root va' need = translateChecked phys root va' need) ∧
    (result = .error .overlap ↔ Hit (walk phys root va)) ∧
    (result = .ok () ∨ result = .error .overlap ∨ result = .error .noFrame) ∧
    Tree after root ∧ Spared phys root after := by
  rw [← tree.covered_iff]
  obtain ⟨new, middle, extended, ends⟩ := mapPage_ends tree ran
  have unchanged : ∀ va' need, translateChecked middle root va' need = translateChecked phys root va' need := by
    intro va' need
    rw [extended.tree.translateChecked_eq, tree.translateChecked_eq, extended.translate]
  cases ends with
  | exhausted free =>
    exact ⟨nofun, fun _ _ => unchanged, by simpa using free, by simp, extended.tree, extended.spared⟩
  | covered taken =>
    exact ⟨nofun, fun _ _ => unchanged, by simpa using taken, by simp, extended.tree, extended.spared⟩
  | mapped low free found empty =>
    obtain ⟨mapped, takes, spared⟩ := extended.tree.write_leaf va found flags.lt small
    have grown : Tree (writePte middle (low + vpn va 0 * 8) (leaf pa perms)) root := by
      refine ⟨mapped.tables extended.tree.tables, fun node f isTable there => ?_⟩
      rw [mapped.tree, if_neg (by rintro rfl; cases isTable)] at there
      exact (takes.live f).mpr (.inl (extended.tree.live node f isTable there))
    have isLeaf : leafOf (leaf pa perms) = some (leaf pa perms) := by
      refine if_pos ⟨leaf_valid pa flags.lt, ?_⟩
      rw [leaf_and pa flags.lt (by decide) (by decide)]
      exact carries
    have sameTop : ∀ va', leafOf (entryAt (writePte middle (low + vpn va 0 * 8) (leaf pa perms)).mem root (vpn va' 2)) =
        leafOf (entryAt phys.mem root (vpn va' 2)) := by
      intro va'
      rw [mapped.top _ (vpn_lt va' 2), extended.top _ (vpn_lt va' 2)]
    have sameMiddle : ∀ va', leafOf (midOf (writePte middle (low + vpn va 0 * 8) (leaf pa perms)).mem root
        (pageNumber va' / 512)) = leafOf (midOf phys.mem root (pageNumber va' / 512)) := by
      intro va'
      have inside : pageNumber va' / 512 < 2 ^ 18 := by
        have := pageNumber_lt va'
        omega
      rw [mapped.middles _ inside, extended.middles _ inside]
    refine ⟨fun _ va' need => ⟨fun same drawn => ?_, fun other => ?_⟩, nofun, by simpa using free, by simp, grown,
      extended.spared.trans spared⟩
    · have noTop : leafOf (entryAt phys.mem root (vpn va' 2)) = none := by
        rw [vpn_two, same, ← vpn_two]
        exact if_neg fun leafy => free (.inl leafy)
      have noMiddle : leafOf (midOf phys.mem root (pageNumber va' / 512)) = none := by
        rw [same]
        exact if_neg fun leafy => free (.inr (.inl leafy))
      rw [grown.translateChecked_eq, leafAt_layers, sameTop, sameMiddle, noTop, noMiddle,
        mapped.pages _ (pageNumber_lt va'), if_pos same, isLeaf]
      exact answer_leaf flags aligned small drawn
    · rw [grown.translateChecked_eq, tree.translateChecked_eq, leafAt_layers, leafAt_layers, sameTop, sameMiddle,
        mapped.pages _ (pageNumber_lt va'), if_neg other, extended.pages _ (pageNumber_lt va')]

/-- The first space of a fresh pool, with nothing but the kernel in it. -/
def firstSpace : Phys := (mapKernel (newSpace pristine).2 poolBase).2

theorem firstSpace_grows (tight : Prop) : Grows tight pristine poolBase none firstSpace :=
  (newSpace_grows tight (show newSpace pristine = (some poolBase, (newSpace pristine).2) from rfl)
    (show mapKernel (newSpace pristine).2 poolBase = ((mapKernel (newSpace pristine).2 poolBase).1, firstSpace) from rfl)).2.1

/-- A read-only window past the pool, seen at an address inside it. -/
theorem mapPage_translate_window :
    translateChecked (mapPage firstSpace poolBase 0x30000000 0x90000000 (R ||| U)).2 poolBase 0x30000234 (U ||| R) =
      some 0x90000234 :=
  ((mapPage_translate 0x30000000 0x90000000 (R ||| U) (mapPage firstSpace poolBase 0x30000000 0x90000000 (R ||| U)).1
    (firstSpace_grows True).space.framed.tree (by decide) (by decide) rfl (by decide) rfl).1 rfl 0x30000234 (U ||| R)).1
    rfl rfl

end Kernai.Mm
