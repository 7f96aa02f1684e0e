import Kernai.Proofs.Translation
import Mathlib.Data.List.Perm.Subperm

/-! `destroy` is exact: for a space built by any series of mapping calls it hands
each frame of the space to `frames::free` once and no other pool frame. -/

namespace Kernai.Mm
open Hal Frames Foundation

variable {base phys after : Phys} {root : Nat}

theorem free_outside {f : Nat} (outside : ¬ IsFrame f) : free phys f = phys := by
  refine if_pos ?_
  simp only [IsFrame] at outside
  omega

theorem free_allocated {f : Nat} (live : Live phys f) : (free phys f).allocated = phys.allocated - 1 := by
  obtain ⟨⟨above, below, aligned⟩, used⟩ := live
  have inside : ¬ (f < poolBase ∨ poolEnd ≤ f ∨ (f - poolBase) % frameSize ≠ 0) := by omega
  simp only [free, if_neg inside, used, if_true]

/-- Frees of distinct live frames each count; those outside the pool do not. -/
theorem foldl_free_allocated (addresses : List Nat) (nodup : (addresses.filter (IsFrame ·)).Nodup)
    (live : ∀ f ∈ addresses, IsFrame f → Live phys f) (enough : (addresses.filter (IsFrame ·)).length ≤ phys.allocated) :
    (addresses.foldl free phys).allocated + (addresses.filter (IsFrame ·)).length = phys.allocated := by
  induction addresses generalizing phys with
  | nil => rfl
  | cons f rest ih =>
    rw [List.foldl_cons]
    by_cases frame : IsFrame f
    · rw [List.filter_cons_of_pos (by simpa using frame)] at nodup enough ⊢
      obtain ⟨absent, distinct⟩ := List.nodup_cons.mp nodup
      have isLive := live f (.head rest) frame
      rw [List.length_cons] at enough ⊢
      have counted := free_allocated isLive
      have later := ih distinct
        (fun g member isFrame => (live_free phys f g).mpr ⟨live g (.tail f member) isFrame, ?_⟩)
        (show _ ≤ (free phys f).allocated by omega)
      · omega
      · rintro rfl
        exact absent (by simpa [isFrame] using member)
    · rw [List.filter_cons_of_neg (by simpa using frame)] at nodup enough ⊢
      rw [free_outside frame]
      exact ih nodup (fun g member => live g (.tail f member)) enough

/-- Permissions that make a leaf. -/
def Carries (perms : Nat) : Prop := perms < 64 ∧ perms &&& permMask ≠ 0

/-- A page that is no part of the pool. -/
def Beyond (pa : Nat) : Prop := ¬ (poolBase ≤ pa ∧ pa < poolEnd) ∧ pa % 4096 = 0 ∧ pa < 2 ^ 56

/-- The states in which a space with this root has been built up to some point, and
the frame its builder has allocated and not yet given away. -/
inductive Built (base : Phys) (root : Nat) : Option Nat → Phys → Prop
  | new {middle phys : Phys} (made : newSpace base = (some root, middle)) (mapped : mapKernel middle root = (.ok (), phys)) :
      Built base root none phys
  | take {phys after : Phys} {f : Nat} (built : Built base root none phys) (allocated : alloc phys = (some f, after)) :
      Built base root (some f) after
  | fill {phys : Phys} {f : Nat} {mem : Memory} (built : Built base root (some f) phys)
      (inside : ∀ a, ¬ (f ≤ a ∧ a < f + 4096) → mem a = phys.mem a) : Built base root (some f) { phys with mem }
  | give {phys after : Phys} {f va perms : Nat} (built : Built base root (some f) phys) (carries : Carries perms)
      (ran : mapPage phys root va f perms = (.ok (), after)) : Built base root none after
  | refused {phys after : Phys} {f va perms : Nat} {reason : MmError} (built : Built base root (some f) phys)
      (carries : Carries perms) (ran : mapPage phys root va f perms = (.error reason, after)) : Built base root (some f) after
  | drop {phys : Phys} {f : Nat} (built : Built base root (some f) phys) : Built base root none (free phys f)
  | keep {phys : Phys} {f : Nat} (built : Built base root (some f) phys) : Built base root none phys
  | window {hand : Option Nat} {phys after : Phys} {va pa perms : Nat} {result : Except MmError Unit}
      (built : Built base root hand phys) (carries : Carries perms) (beyond : Beyond pa)
      (ran : mapPage phys root va pa perms = (result, after)) : Built base root hand after

/-- Frames handed out since `base` and not yet given back. -/
structure Ledger (base : Phys) (taken : List Nat) (phys : Phys) : Prop where
  nodup : taken.Nodup
  live : ∀ f ∈ taken, Live phys f
  counted : phys.allocated = base.allocated + taken.length

theorem Ledger.extend {taken new : List Nat} (ledger : Ledger base taken phys) (takes : Takes phys new after) :
    Ledger base (taken ++ new) after where
  nodup := ledger.nodup.append takes.nodup fun f old isNew => takes.fresh f isNew (ledger.live f old)
  live f member := by
    rw [takes.live]
    exact (List.mem_append.mp member).imp_left (ledger.live f)
  counted := by rw [takes.counted, ledger.counted, List.length_append, Nat.add_assoc]

theorem Ledger.drop {taken : List Nat} {f : Nat} (ledger : Ledger base taken phys) (member : f ∈ taken) :
    Ledger base (taken.erase f) (free phys f) where
  nodup := ledger.nodup.erase f
  live g remains := by
    obtain ⟨other, old⟩ := ledger.nodup.mem_erase_iff.mp remains
    exact (live_free phys f g).mpr ⟨ledger.live g old, other⟩
  counted := by
    have size := List.length_erase_of_mem member
    have := List.length_pos_of_mem member
    rw [free_allocated (ledger.live f member), ledger.counted]
    omega

/-- What holds of a space under construction. -/
structure Standing (base : Phys) (root : Nat) (hand : Option Nat) (taken : List Nat) (phys : Phys) : Prop where
  framed : Framed phys root
  held : ∀ f, hand = some f → f ∈ taken ∧ ∀ node, frameAt phys.mem root node ≠ some f
  ledger : Ledger base taken phys
  owned : ∀ node f, frameAt phys.mem root node = some f → f ∈ taken

/-- A space is untouched by changes elsewhere. -/
theorem Framed.frame (framed : Framed phys root) (after : Phys)
    (same : ∀ node f, frameAt phys.mem root node = some f → Live after f ∧ Memory.Agree phys.mem after.mem f 4096) :
    Framed after root ∧ ∀ node, frameAt after.mem root node = frameAt phys.mem root node := by
  have agree : ∀ node f, node.isTable = true → frameAt phys.mem root node = some f →
      Memory.Agree phys.mem after.mem f 4096 := fun node f _ found => (same node f found).2
  have tree := (tree_frame agree).2.2
  refine ⟨⟨framed.shape.frame agree, fun node f found => ?_⟩, tree⟩
  rw [tree] at found
  exact (same node f found).1

/-- `map_page` with permissions of any kind, on a frame that is no part of the tree
yet or on a page beyond the pool. -/
theorem mapPage_framed {va pa perms : Nat} {result : Except MmError Unit} (framed : Framed phys root)
    (permsSmall : perms < 64) (aligned : pa % 4096 = 0) (small : pa < 2 ^ 56)
    (loose : IsFrame pa → Live phys pa ∧ ∀ node, frameAt phys.mem root node ≠ some pa)
    (ran : mapPage phys root va pa perms = (result, after)) :
    ∃ new, Takes phys new after ∧ Framed after root ∧ ∀ node f, frameAt after.mem root node = some f →
      frameAt phys.mem root node = some f ∨ f ∈ new ∨ (result = .ok () ∧ f = pa ∧ IsFrame pa) := by
  obtain ⟨new, middle, extended, ends⟩ := mapPage_ends framed.tree ran
  have only : ∀ node f, frameAt middle.mem root node = some f → frameAt phys.mem root node = some f ∨ f ∈ new ∨
      (result = .ok () ∧ f = pa ∧ IsFrame pa) := fun node f found => (extended.only node f found).imp_right .inl
  have grown := extended.framed framed
  cases ends with
  | exhausted free => exact ⟨new, extended.takes, grown, only⟩
  | covered taken => exact ⟨new, extended.takes, grown, only⟩
  | mapped low free found empty =>
    obtain ⟨mapped, takes, -⟩ := grown.tree.write_leaf va found permsSmall small
    have isPage : ∀ f, pageFrame (leaf pa perms) = some f → f = pa ∧ IsFrame pa :=
      fun f isFrame => pageFrame_leaf permsSmall aligned small isFrame
    have both := extended.takes.trans takes
    rw [List.append_nil] at both
    refine ⟨new, both, ⟨mapped.shape grown.shape ?_, ?_⟩, ?_⟩
    · intro f node isFrame placed
      obtain ⟨rfl, frame⟩ := isPage f isFrame
      obtain ⟨live, unplaced⟩ := loose frame
      rcases extended.only node f placed with old | isNew
      · exact unplaced node old
      · exact extended.takes.fresh f isNew live
    · intro node f there
      rw [mapped.tree] at there
      rw [both.live]
      split at there
      · obtain ⟨rfl, frame⟩ := isPage f there
        exact .inl (loose frame).1
      · exact (extended.takes.live f).mp (grown.live node f there)
    · intro node f there
      rw [mapped.tree] at there
      split at there
      · exact .inr (.inr ⟨rfl, isPage f there⟩)
      · exact only node f there

/-- A page that was mapped had a free entry, and that entry is all that changed. -/
theorem mapPage_ok {va pa perms : Nat} (tree : Tree phys root) (permsSmall : perms < 64) (small : pa < 2 ^ 56)
    (ran : mapPage phys root va pa perms = (.ok (), after)) :
    pteOf phys.mem root (pageNumber va) &&& V = 0 ∧ Spared phys root after ∧
      ∀ m, m < 2 ^ 27 → pteOf after.mem root m = if m = pageNumber va then leaf pa perms else pteOf phys.mem root m := by
  obtain ⟨new, middle, extended, ends⟩ := mapPage_ends tree ran
  cases ends with
  | mapped low free found empty =>
    obtain ⟨mapped, -, spared⟩ := extended.tree.write_leaf va found permsSmall small
    refine ⟨not_not.mp fun taken => free (.inr (.inr taken)), extended.spared.trans spared, fun m inside => ?_⟩
    rw [mapped.pages m inside, extended.pages m inside]

theorem mapKernel_takes {result : Except MmError Unit} (frame : IsFrame root) (ran : mapKernel phys root = (result, after)) :
    Takes phys [] after := by
  unfold mapKernel mapGigapage at ran
  split at ran
  · cases ran
    exact .refl _
  · dsimp only at ran
    split at ran
    · cases ran
      exact .refl _
    · cases ran
      exact writePte_takes phys frame (vpn_lt _ 2) (by decide)

theorem Standing.map {hand : Option Nat} {taken : List Nat} {va pa perms : Nat} {result : Except MmError Unit}
    (standing : Standing base root hand taken phys) (carries : Carries perms) (aligned : pa % 4096 = 0) (small : pa < 2 ^ 56)
    (target : hand = some pa ∨ ¬ IsFrame pa) (ran : mapPage phys root va pa perms = (result, after)) :
    ∃ taken, Standing base root (if result = .ok () ∧ hand = some pa then none else hand) taken after := by
  have loose : IsFrame pa → Live phys pa ∧ ∀ node, frameAt phys.mem root node ≠ some pa := by
    intro frame
    rcases target with isHand | outside
    · obtain ⟨member, unplaced⟩ := standing.held pa isHand
      exact ⟨standing.ledger.live pa member, unplaced⟩
    · exact absurd frame outside
  obtain ⟨new, takes, framed, only⟩ := mapPage_framed standing.framed carries.1 aligned small loose ran
  refine ⟨taken ++ new, framed, ?_, standing.ledger.extend takes, ?_⟩
  · intro f isHand
    have wasHand : hand = some f ∧ ¬ (result = .ok () ∧ hand = some pa) := by
      split at isHand
      · cases isHand
      · next kept => exact ⟨isHand, kept⟩
    obtain ⟨member, unplaced⟩ := standing.held f wasHand.1
    refine ⟨List.mem_append_left new member, fun node placed => ?_⟩
    rcases only node f placed with old | isNew | ⟨ok, rfl, frame⟩
    · exact unplaced node old
    · exact takes.fresh f isNew (standing.ledger.live f member)
    · exact wasHand.2 ⟨ok, wasHand.1⟩
  · intro node f placed
    rcases only node f placed with old | isNew | ⟨ok, rfl, frame⟩
    · exact List.mem_append_left new (standing.owned node f old)
    · exact List.mem_append_right taken isNew
    · rcases target with isHand | outside
      · exact List.mem_append_left new (standing.held f isHand).1
      · exact absurd frame outside

theorem Built.standing {hand : Option Nat} (built : Built base root hand phys) : ∃ taken, Standing base root hand taken phys := by
  induction built with
  | @new middle phys made mapped =>
    have spec := alloc_some made
    have grows := (newSpace_grows True made mapped).2.1
    have takes := (takes_of_alloc spec).trans (mapKernel_takes spec.frame mapped)
    rw [List.append_nil] at takes
    have empty : Ledger base [] base := ⟨.nil, nofun, rfl⟩
    refine ⟨[root], grows.space.framed, nofun, empty.extend takes, fun node f placed => ?_⟩
    rcases (takes.live f).mp (grows.space.live node f placed) with old | isRoot
    · exact absurd old (grows.fresh node f placed)
    · exact isRoot
  | @take phys after f built allocated ih =>
    obtain ⟨taken, standing⟩ := ih
    have spec := alloc_some allocated
    have takes := takes_of_alloc spec
    have notFresh : ∀ g, Live phys g → g ≠ f := by
      rintro g live rfl
      exact spec.fresh live
    obtain ⟨framed, tree⟩ := standing.framed.frame after fun node g placed =>
      ⟨(takes.live g).mpr (.inl (standing.framed.live node g placed)),
        spec.agree (standing.framed.live node g placed).isFrame (notFresh g (standing.framed.live node g placed))⟩
    refine ⟨taken ++ [f], framed, ?_, standing.ledger.extend takes, ?_⟩
    · rintro g isHand
      cases isHand
      refine ⟨by simp, fun node placed => ?_⟩
      rw [tree] at placed
      exact spec.fresh (standing.framed.live node f placed)
    · intro node g placed
      rw [tree] at placed
      exact List.mem_append_left [f] (standing.owned node g placed)
  | @fill phys f mem built inside ih =>
    obtain ⟨taken, standing⟩ := ih
    obtain ⟨member, unplaced⟩ := standing.held f rfl
    have frame := (standing.ledger.live f member).isFrame
    obtain ⟨framed, tree⟩ := standing.framed.frame { phys with mem } fun node g placed => by
      have live := standing.framed.live node g placed
      refine ⟨live, fun a above below => inside a ?_⟩
      rcases live.isFrame.apart frame (fun same => unplaced node (same ▸ placed)) with left | right <;> omega
    refine ⟨taken, framed, ?_, ⟨standing.ledger.nodup, standing.ledger.live, standing.ledger.counted⟩, ?_⟩
    · rintro g isHand
      cases isHand
      exact ⟨member, fun node placed => unplaced node (tree node ▸ placed)⟩
    · intro node g placed
      rw [tree] at placed
      exact standing.owned node g placed
  | @give phys after f va perms built carries ran ih =>
    obtain ⟨taken, standing⟩ := ih
    have bounds := (standing.ledger.live f (standing.held f rfl).1).isFrame.bounds
    obtain ⟨taken, later⟩ := standing.map carries (by omega) (by omega) (.inl rfl) ran
    exact ⟨taken, by simpa using later⟩
  | @refused phys after f va perms reason built carries ran ih =>
    obtain ⟨taken, standing⟩ := ih
    have bounds := (standing.ledger.live f (standing.held f rfl).1).isFrame.bounds
    obtain ⟨taken, later⟩ := standing.map carries (by omega) (by omega) (.inl rfl) ran
    exact ⟨taken, by simpa using later⟩
  | @drop phys f built ih =>
    obtain ⟨taken, standing⟩ := ih
    obtain ⟨member, unplaced⟩ := standing.held f rfl
    have other : ∀ node g, frameAt phys.mem root node = some g → g ≠ f := by
      rintro node g placed rfl
      exact unplaced node placed
    obtain ⟨framed, tree⟩ := standing.framed.frame (free phys f) fun node g placed => by
      refine ⟨(live_free phys f g).mpr ⟨standing.framed.live node g placed, other node g placed⟩, ?_⟩
      rw [free_mem]
      exact .refl _ _ _
    refine ⟨taken.erase f, framed, nofun, standing.ledger.drop member, fun node g placed => ?_⟩
    rw [tree] at placed
    exact standing.ledger.nodup.mem_erase_iff.mpr ⟨other node g placed, standing.owned node g placed⟩
  | keep built ih =>
    obtain ⟨taken, standing⟩ := ih
    exact ⟨taken, standing.framed, nofun, standing.ledger, standing.owned⟩
  | @window hand phys after va pa perms result built carries beyond ran ih =>
    obtain ⟨taken, standing⟩ := ih
    have outside : ¬ IsFrame pa := fun frame => beyond.1 ⟨frame.1, frame.2.1⟩
    obtain ⟨taken, later⟩ := standing.map carries beyond.2.1 beyond.2.2 (.inr outside) ran
    refine ⟨taken, ?_⟩
    rwa [if_neg] at later
    rintro ⟨-, isHand⟩
    exact outside (standing.ledger.live pa (standing.held pa isHand).1).isFrame

/-- `destroy` gives back exactly the frames of the space: its root, its tables and its
pages in the pool, each once, with the count of allocated frames to match. -/
theorem destroy_exact {hand : Option Nat} (built : Built base root hand phys) :
    ∃ owned : List Nat, owned.Nodup ∧ (∀ f, f ∈ owned ↔ ∃ node, frameAt phys.mem root node = some f) ∧
      (∀ f ∈ owned, Live phys f) ∧ (freed phys.mem root).filter (IsFrame ·) = owned ∧
      destroy phys root =
        (freed phys.mem root).foldl free { phys with destroyed := (root, phys.satp) :: phys.destroyed } ∧
      (∀ f, Live (destroy phys root) f ↔ Live phys f ∧ f ∉ owned) ∧
      (destroy phys root).allocated + owned.length = phys.allocated := by
  obtain ⟨taken, standing⟩ := built.standing
  have shape := standing.framed.shape
  have isOwned : ∀ f, f ∈ (freed phys.mem root).filter (IsFrame ·) ↔ ∃ node, frameAt phys.mem root node = some f := by
    intro f
    rw [freed_frames shape, List.mem_filterMap]
    exact ⟨fun ⟨node, _, found⟩ => ⟨node, found⟩, fun ⟨node, found⟩ => ⟨node, mem_order found, found⟩⟩
  have live : ∀ f ∈ (freed phys.mem root).filter (IsFrame ·), Live phys f := by
    intro f member
    obtain ⟨node, found⟩ := (isOwned f).mp member
    exact standing.framed.live node f found
  have enough : ((freed phys.mem root).filter (IsFrame ·)).length ≤ phys.allocated := by
    have inside : (freed phys.mem root).filter (IsFrame ·) ⊆ taken := fun f member =>
      let ⟨node, found⟩ := (isOwned f).mp member
      standing.owned node f found
    have fewer := (List.subperm_of_subset (freed_nodup shape) inside).length_le
    have counted := standing.ledger.counted
    omega
  refine ⟨_, freed_nodup shape, isOwned, live, rfl, destroy_eq phys root, fun f => ?_, ?_⟩
  · rw [destroy_eq, live_foldl_free]
    refine and_congr_right fun isLive => not_congr ?_
    simp [(show Live phys f from isLive).isFrame]
  · rw [destroy_eq]
    exact foldl_free_allocated _ (freed_nodup shape) (fun f member frame => live f (by simpa [frame] using member)) enough

/-- A space with one page in it. -/
def onePage : Phys := (mapPage (alloc firstSpace).2 poolBase 0x10000 (poolBase + 4096) (R ||| U)).2

theorem onePage_built : Built pristine poolBase none onePage := by
  have taken : alloc firstSpace = (some (poolBase + 4096), (alloc firstSpace).2) := rfl
  refine .give (.take (.new rfl rfl) taken) ⟨by decide, by decide⟩ (Prod.ext ?_ rfl)
  with_unfolding_all rfl

/-- It has a root, two tables and the page. -/
theorem destroy_exact_page : ∃ owned : List Nat, owned.Nodup ∧ (destroy onePage poolBase).allocated + owned.length = 4 := by
  obtain ⟨owned, nodup, -, -, -, -, -, counted⟩ := destroy_exact onePage_built
  exact ⟨owned, nodup, counted⟩

end Kernai.Mm
