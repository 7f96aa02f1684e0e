import Kernai.Hooks
import Kernai.Proofs.Ownership
import Kernai.Proofs.Loader

/-! Who owns which pool frame: the kernel its root, a slot in use its space and
its resume frame, a valid checkpoint its space and its saved frame. -/

namespace Kernai
open Foundation Hal Frames Mm Payload

inductive Owner where
  | kernel
  | slot (pid : Pid)
  | snap (sid : Sid)
deriving DecidableEq

def Slot.holding (slot : Slot) (f : Nat) : Option Nat := if slot.state ≠ .empty ∧ f ≠ 0 then some f else none

def Snapshot.holding (snap : Snapshot) (f : Nat) : Option Nat := if snap.valid then some f else none

def estate (core : Core) : Estate Owner where
  root
    | .kernel => some core.kernelRoot
    | .slot pid => (core.table pid).holding (core.table pid).root
    | .snap sid => (core.snaps sid).holding (core.snaps sid).root
  saved
    | .kernel => none
    | .slot pid => (core.table pid).holding (core.table pid).resumeFrame
    | .snap sid => (core.snaps sid).holding (core.snaps sid).frame

/-- `satp` names a space in use, no space was ever torn down under it, and the
kernel's own map is its gigapage alone. -/
structure Heap (tight : Prop) (core : Core) : Prop where
  owned : Owned tight core.phys (estate core)
  translating : ∃ owner root, (estate core).root owner = some root ∧ core.phys.satp = satpOf root
  spared : ∀ root satp, (root, satp) ∈ core.phys.destroyed → Sv39.satpRoot satp ≠ root
  bare : ∀ i, i < 512 → child core.phys.mem core.kernelRoot i = none

variable {tight : Prop} {core core' : Core}

theorem satpRoot_satpOf {root : Nat} (frame : IsFrame root) : Sv39.satpRoot (satpOf root) = root := by
  have bounds := frame.bounds
  have low : root >>> 12 = root / 4096 := Nat.shiftRight_eq_div_pow root 12
  have number : ((8 <<< 60) ||| (root >>> 12)) % 2 ^ 44 = root / 4096 := by
    rw [Nat.or_mod_two_pow, low, Nat.mod_eq_of_lt (show root / 4096 < 2 ^ 44 by omega)]
    exact Nat.zero_or _
  rw [Sv39.satpRoot, satpOf, number, Nat.shiftLeft_eq]
  omega

theorem Heap.isFrame (heap : Heap tight core) {owner : Owner} {root : Nat}
    (isRoot : (estate core).root owner = some root) : IsFrame root :=
  (heap.owned.spaces owner root isRoot).shape.root

/-- Two owners have two roots. -/
theorem Heap.root_inj (heap : Heap tight core) {owner other : Owner} {root : Nat}
    (first : (estate core).root owner = some root) (second : (estate core).root other = some root) : owner = other :=
  (heap.owned.apart owner (.node .root) other (.node .root) root (Estate.holds_node.mpr ⟨root, first, rfl⟩)
    (Estate.holds_node.mpr ⟨root, second, rfl⟩)).1

theorem kernelRoot_of_estate (same : estate core' = estate core) : core'.kernelRoot = core.kernelRoot :=
  Option.some.inj (congrArg (fun estate : Estate Owner => estate.root .kernel) same)

/-- The kernel's root table is left alone. -/
theorem Heap.bare_frame (heap : Heap tight core) (kernel : core'.kernelRoot = core.kernelRoot)
    (agree : Memory.Agree core.phys.mem core'.phys.mem core.kernelRoot 4096) (i : Nat) (inside : i < 512) :
    child core'.phys.mem core'.kernelRoot i = none := by
  rw [kernel, child_congr agree inside]
  exact heap.bare i inside

theorem Heap.congr (heap : Heap tight core) (phys : core'.phys = core.phys) (same : estate core' = estate core) :
    Heap tight core' := by
  have bare := heap.bare_frame (kernelRoot_of_estate same) (by rw [phys]; exact .refl _ _ _)
  obtain ⟨owned, translating, spared, -⟩ := heap
  refine ⟨?_, ?_, ?_, bare⟩
  · rw [phys, same]
    exact owned
  · rw [phys, same]
    exact translating
  · rw [phys]
    exact spared

/-- The estate after one slot changed. -/
theorem estate_slot (pid : Pid) (kernel : core'.kernelRoot = core.kernelRoot) (snaps : core'.snaps = core.snaps)
    (others : ∀ other, other ≠ pid → core'.table other = core.table other) :
    estate core' = (estate core).give (.slot pid) ((core'.table pid).holding (core'.table pid).root)
      ((core'.table pid).holding (core'.table pid).resumeFrame) := by
  refine Estate.ext (funext fun owner => ?_) (funext fun owner => ?_)
  · cases owner with
    | kernel => simp [estate, Estate.give, kernel]
    | slot other =>
      by_cases same : other = pid
      · subst same
        simp [estate, Estate.give]
      · simp [estate, Estate.give, same, others other same]
    | snap sid => simp [estate, Estate.give, snaps]
  · cases owner with
    | kernel => simp [estate, Estate.give]
    | slot other =>
      by_cases same : other = pid
      · subst same
        simp [estate, Estate.give]
      · simp [estate, Estate.give, same, others other same]
    | snap sid => simp [estate, Estate.give, snaps]

/-- The estate after one checkpoint changed. -/
theorem estate_snap (sid : Sid) (kernel : core'.kernelRoot = core.kernelRoot) (table : core'.table = core.table)
    (others : ∀ other, other ≠ sid → core'.snaps other = core.snaps other) :
    estate core' = (estate core).give (.snap sid) ((core'.snaps sid).holding (core'.snaps sid).root)
      ((core'.snaps sid).holding (core'.snaps sid).frame) := by
  refine Estate.ext (funext fun owner => ?_) (funext fun owner => ?_)
  · cases owner with
    | kernel => simp [estate, Estate.give, kernel]
    | slot pid => simp [estate, Estate.give, table]
    | snap other =>
      by_cases same : other = sid
      · subst same
        simp [estate, Estate.give]
      · simp [estate, Estate.give, same, others other same]
  · cases owner with
    | kernel => simp [estate, Estate.give]
    | slot pid => simp [estate, Estate.give, table]
    | snap other =>
      by_cases same : other = sid
      · subst same
        simp [estate, Estate.give]
      · simp [estate, Estate.give, same, others other same]

/-- The slots and checkpoints hold what they held. -/
theorem estate_same (kernel : core'.kernelRoot = core.kernelRoot) (snaps : core'.snaps = core.snaps)
    (slots : ∀ pid, ((core'.table pid).state = .empty ↔ (core.table pid).state = .empty) ∧
      (core'.table pid).root = (core.table pid).root ∧ (core'.table pid).resumeFrame = (core.table pid).resumeFrame) :
    estate core' = estate core := by
  refine Estate.ext (funext fun owner => ?_) (funext fun owner => ?_)
  · cases owner with
    | kernel => simp [estate, kernel]
    | slot pid => simp [estate, Slot.holding, slots pid]
    | snap sid => simp [estate, snaps]
  · cases owner with
    | kernel => rfl
    | slot pid => simp [estate, Slot.holding, slots pid]
    | snap sid => simp [estate, snaps]

theorem Heap.slot_space (heap : Heap tight core) {pid : Pid} (used : (core.table pid).state ≠ .empty)
    (hasRoot : (core.table pid).root ≠ 0) : Space core.phys (core.table pid).root :=
  heap.owned.spaces (.slot pid) _ (if_pos ⟨used, hasRoot⟩)

theorem Heap.snap_space (heap : Heap tight core) {sid : Sid} (valid : (core.snaps sid).valid = true) :
    Space core.phys (core.snaps sid).root :=
  heap.owned.spaces (.snap sid) _ (if_pos valid)

/-- Tearing down a space and freeing a frame, each unless it is zero. -/
theorem discard_spec {phys : Phys} {root frame : Nat} (space : root ≠ 0 → Space phys root) :
    (freeFrame (destroyRoot phys root) frame).mem = phys.mem ∧ (freeFrame (destroyRoot phys root) frame).satp = phys.satp ∧
      (∀ r satp, (r, satp) ∈ (freeFrame (destroyRoot phys root) frame).destroyed →
        (r, satp) ∈ phys.destroyed ∨ root ≠ 0 ∧ r = root ∧ satp = phys.satp) ∧
      ∀ g, Live (freeFrame (destroyRoot phys root) frame) g ↔
        Live phys g ∧ (root ≠ 0 → ∀ node, frameAt phys.mem root node ≠ some g) ∧ (frame ≠ 0 → g ≠ frame) := by
  have first : (destroyRoot phys root).mem = phys.mem ∧ (destroyRoot phys root).satp = phys.satp ∧
      (∀ r satp, (r, satp) ∈ (destroyRoot phys root).destroyed →
        (r, satp) ∈ phys.destroyed ∨ root ≠ 0 ∧ r = root ∧ satp = phys.satp) ∧
      ∀ g, Live (destroyRoot phys root) g ↔ Live phys g ∧ (root ≠ 0 → ∀ node, frameAt phys.mem root node ≠ some g) := by
    unfold destroyRoot
    split
    · next hasRoot =>
      obtain ⟨mem, satp, destroyed, live⟩ := destroy_spec (space hasRoot)
      refine ⟨mem, satp, fun r p member => ?_, fun g => ?_⟩
      · rw [destroyed, List.mem_cons, Prod.mk.injEq] at member
        rcases member with ⟨isRoot, isSatp⟩ | old
        · exact .inr ⟨hasRoot, isRoot, isSatp⟩
        · exact .inl old
      · rw [live]
        simp [hasRoot]
    · next noRoot => exact ⟨rfl, rfl, fun r p old => .inl old, fun g => by simp [not_not.mp noRoot]⟩
  generalize destroyRoot phys root = middle at first ⊢
  obtain ⟨mem, satp, destroyed, live⟩ := first
  unfold freeFrame
  split
  · next hasFrame =>
    rw [free_mem, free_satp, free_destroyed]
    refine ⟨mem, satp, destroyed, fun g => ?_⟩
    rw [live_free, live]
    simp [hasFrame, and_assoc]
  · next noFrame =>
    refine ⟨mem, satp, destroyed, fun g => ?_⟩
    rw [live]
    simp [not_not.mp noFrame]

/-- An owner other than the kernel gives everything back while the kernel's own
map is active. -/
theorem Heap.discard (heap : Heap tight core) (onKernel : core.phys.satp = kernelSatp core) {owner : Owner} {root frame : Nat}
    (notKernel : owner ≠ .kernel) (isRoot : (estate core).root owner = if root ≠ 0 then some root else none)
    (isSaved : (estate core).saved owner = if frame ≠ 0 then some frame else none)
    (phys : core'.phys = freeFrame (destroyRoot core.phys root) frame)
    (given : estate core' = (estate core).give owner none none) (kernel : core'.kernelRoot = core.kernelRoot) :
    Heap tight core' ∧ core'.phys.mem = core.phys.mem ∧ core'.phys.satp = kernelSatp core' := by
  have space : root ≠ 0 → Space core.phys root :=
    fun hasRoot => heap.owned.spaces owner root (by rw [isRoot, if_pos hasRoot])
  obtain ⟨mem, satp, destroyed, live⟩ := discard_spec space
  rw [← phys] at mem satp destroyed live
  have stillKernel : core'.phys.satp = kernelSatp core' := by
    rw [satp, onKernel, kernelSatp, kernelSatp, kernel]
  have bare := heap.bare_frame kernel (by rw [mem]; exact .refl _ _ _)
  refine ⟨⟨?_, ⟨.kernel, core'.kernelRoot, rfl, stillKernel⟩, ?_, bare⟩, mem, stillKernel⟩
  · rw [given]
    refine heap.owned.release owner mem fun g => (live g).trans (and_congr_right fun _ => ?_)
    constructor
    · rintro ⟨notNode, notFrame⟩ role held
      cases role with
      | node place =>
        obtain ⟨r, rootEq, found⟩ := Estate.holds_node.mp held
        rw [isRoot] at rootEq
        split at rootEq
        · next hasRoot =>
          cases rootEq
          exact notNode hasRoot place found
        · cases rootEq
      | saved =>
        simp only [Estate.holds, isSaved] at held
        split at held
        · next hasFrame =>
          cases held
          exact notFrame hasFrame rfl
        · cases held
    · intro free
      refine ⟨fun hasRoot node found => ?_, fun hasFrame same => ?_⟩
      · exact free (.node node) (Estate.holds_node.mpr ⟨root, by rw [isRoot, if_pos hasRoot], found⟩)
      · exact free .saved (by simp [Estate.holds, isSaved, hasFrame, same])
  · intro r p member
    rcases destroyed r p member with old | ⟨hasRoot, rfl, rfl⟩
    · exact heap.spared r p old
    · have mine : (estate core).root owner = some r := by rw [isRoot, if_pos hasRoot]
      have kernelRoot : (estate core).root .kernel = some core.kernelRoot := rfl
      rw [onKernel, kernelSatp, satpRoot_satpOf (heap.isFrame kernelRoot)]
      rintro rfl
      exact notKernel (heap.root_inj mine kernelRoot)

/-- An operation that came to nothing. -/
theorem Heap.undone (heap : Heap tight core) (undone : Undone tight core.phys core'.phys)
    (same : estate core' = estate core) : Heap tight core' ∧ ∀ other, Keeps (estate core) other core.phys core'.phys := by
  obtain ⟨owned, keeps⟩ := heap.owned.undone undone
  obtain ⟨owner, root, isRoot, satp⟩ := heap.translating
  have bare := heap.bare_frame (kernelRoot_of_estate same) ((keeps .kernel).frames (.node .root) _ rfl)
  refine ⟨⟨by rw [same]; exact owned, ⟨owner, root, by rw [same]; exact isRoot, undone.satp.trans satp⟩, ?_, bare⟩, keeps⟩
  intro r p member
  rcases undone.destroyed with none | ⟨fresh, notLive, frame, one⟩
  · exact heap.spared r p (none ▸ member)
  · rw [one, List.mem_cons, Prod.mk.injEq] at member
    rcases member with ⟨rfl, rfl⟩ | old
    · rw [satp, satpRoot_satpOf (heap.isFrame isRoot)]
      rintro rfl
      exact notLive ((heap.owned.spaces owner root isRoot).live .root root rfl)
    · exact heap.spared r p old

/-- A new space and its saved frame go to an owner who had nothing. -/
theorem Heap.grow (heap : Heap tight core) {root : Nat} {hand : Option Nat} (grows : Grows tight core.phys root hand core'.phys)
    (owner : Owner) (noRoot : (estate core).root owner = none) (noSaved : (estate core).saved owner = none)
    (given : estate core' = (estate core).give owner (some root) hand) :
    Heap tight core' ∧ ∀ other, Keeps (estate core) other core.phys core'.phys := by
  obtain ⟨owned, keeps⟩ := heap.owned.grow grows owner noRoot noSaved
  obtain ⟨active, activeRoot, isRoot, satp⟩ := heap.translating
  have notKernel : Owner.kernel ≠ owner := by
    rintro rfl
    cases noRoot
  have kernel : core'.kernelRoot = core.kernelRoot := by
    have same := congrArg (fun estate : Estate Owner => estate.root .kernel) given
    simpa [Estate.give, notKernel, estate] using same
  have bare := heap.bare_frame kernel ((keeps .kernel).frames (.node .root) _ rfl)
  refine ⟨⟨by rw [given]; exact owned, ⟨active, activeRoot, ?_, grows.control.1.trans satp⟩, ?_, bare⟩, keeps⟩
  · have other : active ≠ owner := by
      rintro rfl
      rw [noRoot] at isRoot
      cases isRoot
    rw [given]
    simpa [Estate.give, other] using isRoot
  · rw [grows.control.2]
    exact heap.spared

/-- A write into a frame that is no table. -/
theorem Heap.write (heap : Heap tight core) {mem : Memory} {owner : Owner} {role : Role} {f : Nat}
    (here : (estate core).holds core.phys.mem owner role = some f)
    (notTable : ∀ place, role = .node place → place.isTable = false)
    (inside : ∀ a, ¬ (f ≤ a ∧ a < f + 4096) → mem a = core.phys.mem a)
    (phys : core'.phys = { core.phys with mem }) (same : estate core' = estate core) : Heap tight core' := by
  obtain ⟨owner', root, isRoot, satp⟩ := heap.translating
  have elsewhere : core.kernelRoot ≠ f := by
    rintro rfl
    have kernel : (estate core).holds core.phys.mem .kernel (.node .root) = some core.kernelRoot := rfl
    obtain ⟨-, rfl⟩ := heap.owned.apart _ _ _ _ _ here kernel
    cases notTable _ rfl
  have agree : Memory.Agree core.phys.mem core'.phys.mem core.kernelRoot 4096 := by
    have kernel : (estate core).root .kernel = some core.kernelRoot := rfl
    have apart := (heap.isFrame kernel).apart (heap.owned.holds_live here).isFrame elsewhere
    rw [phys]
    exact fun a above below => inside a (by omega)
  have bare := heap.bare_frame (kernelRoot_of_estate same) agree
  refine ⟨?_, ⟨owner', root, ?_, ?_⟩, ?_, bare⟩
  · rw [phys, same]
    exact (heap.owned.write here notTable inside).1
  · rw [same]
    exact isRoot
  · rw [phys]
    exact satp
  · rw [phys]
    exact heap.spared

end Kernai
