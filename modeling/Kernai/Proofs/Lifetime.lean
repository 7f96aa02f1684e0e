import Kernai.Proofs.Spaces

/-! The life of an address space around its mapping calls: it starts with the
kernel gigapage, frames are taken in hand and put back, and `destroy` frees
exactly the frames of the tree. -/

namespace Kernai.Mm
open Hal Frames Foundation

variable {tight : Prop} {base phys after : Phys} {root : Nat}

/-- Changes that leave the tree's frames and those of `base` alone. -/
theorem Grows.change {hand hand' : Option Nat} (grows : Grows tight base root hand phys)
    (same : ∀ f, Live phys f → hand ≠ some f → Live after f ∧ Memory.Agree phys.mem after.mem f 4096)
    (outside : ∀ a, a < poolBase ∨ poolEnd ≤ a → after.mem a = phys.mem a)
    (held : ∀ f, hand' = some f → Live after f ∧ ¬ Live base f ∧ ∀ node, frameAt phys.mem root node ≠ some f)
    (lives : ∀ f, Live after f → (Live phys f ∧ hand ≠ some f) ∨ hand' = some f) (control : SameControl phys after) :
    Grows tight base root hand' after ∧ (∀ m, m < 2 ^ 27 → pteOf after.mem root m = pteOf phys.mem root m) ∧
      ∀ node, frameAt after.mem root node = frameAt phys.mem root node := by
  have placed : ∀ node f, frameAt phys.mem root node = some f → Live phys f ∧ hand ≠ some f :=
    fun node f found => ⟨grows.space.live node f found, fun isHand => (grows.held f isHand).2.2 node found⟩
  have agree : ∀ node f, node.isTable = true → frameAt phys.mem root node = some f →
      Memory.Agree phys.mem after.mem f 4096 :=
    fun node f _ found => (same f (placed node f found).1 (placed node f found).2).2
  obtain ⟨pages, tree⟩ := grows.space.shape.pteOf_frame agree
  refine ⟨⟨⟨grows.space.shape.frame agree, ?_, ?_⟩, ?_, ?_, ?_, ?_, ?_, grows.control.trans control⟩, pages, tree⟩
  · intro m inside
    rw [pages m inside]
    exact grows.space.entries m inside
  · intro node f found
    rw [tree] at found
    exact (same f (placed node f found).1 (placed node f found).2).1
  · intro node f found
    rw [tree] at found
    exact grows.fresh node f found
  · intro f old
    obtain ⟨kept, agrees⟩ := grows.kept f old
    obtain ⟨live, still⟩ := same f kept (fun isHand => (grows.held f isHand).2.1 old)
    exact ⟨live, agrees.trans still⟩
  · intro a away
    exact (outside a away).trans (grows.outside a away)
  · intro f isHand
    obtain ⟨live, notOld, unplaced⟩ := held f isHand
    exact ⟨live, notOld, fun node => by rw [tree]; exact unplaced node⟩
  · intro assumed f live
    rcases lives f live with ⟨before, notHand⟩ | isHand
    · rcases grows.complete assumed f before with inBase | ⟨node, found⟩ | wasHand
      · exact .inl inBase
      · exact .inr (.inl ⟨node, by rw [tree]; exact found⟩)
      · exact absurd wasHand notHand
    · exact .inr (.inr isHand)

/-- `frames::alloc` puts a zeroed frame in hand. -/
theorem Grows.take {f : Nat} (grows : Grows tight base root none phys) (allocated : alloc phys = (some f, after)) :
    Grows tight base root (some f) after ∧ (∀ m, m < 2 ^ 27 → pteOf after.mem root m = pteOf phys.mem root m) ∧
      Spared phys root after ∧ ∀ a, f ≤ a → a < f + 4096 → after.mem a = 0 := by
  have spec := alloc_some allocated
  obtain ⟨grown, pages, tree⟩ : Grows tight base root (some f) after ∧ _ := grows.change
    (fun g live _ => ⟨(spec.live g).mpr (.inl live), spec.agree live.isFrame fun same => spec.fresh (same ▸ live)⟩)
    (fun a away => spec.kept a (spec.frame.outside away))
    (fun g isHand => by
      cases isHand
      exact ⟨(spec.live f).mpr (.inr rfl), fun old => spec.fresh (grows.kept f old).1,
        fun node found => spec.fresh (grows.space.live node f found)⟩)
    (fun g live => by
      rcases (spec.live g).mp live with before | rfl
      · exact .inl ⟨before, by simp⟩
      · exact .inr rfl)
    spec.control
  refine ⟨grown, pages, ?_, spec.zeroed⟩
  rintro g ⟨live, apart⟩
  refine ⟨⟨(spec.live g).mpr (.inl live), fun node isTable => ?_⟩,
    spec.agree live.isFrame fun same => spec.fresh (same ▸ live)⟩
  rw [tree]
  exact apart node isTable

/-- `frames::free` puts it back. -/
theorem Grows.drop {f : Nat} (grows : Grows tight base root (some f) phys) :
    Grows tight base root none (free phys f) := by
  refine (grows.change ?_ ?_ ?_ ?_ ?_).1
  · intro g live notHand
    refine ⟨(live_free phys f g).mpr ⟨live, fun same => notHand (same ▸ rfl)⟩, ?_⟩
    rw [free_mem]
    exact .refl _ _ _
  · intro a _
    rw [free_mem]
  · intro g isHand
    cases isHand
  · intro g live
    obtain ⟨before, other⟩ := (live_free phys f g).mp live
    exact .inl ⟨before, fun same => other (Option.some.inj same).symm⟩
  · exact ⟨free_satp phys f, free_destroyed phys f⟩

/-- A frame is lost only where `tight` is not assumed. -/
theorem Grows.forget {hand : Option Nat} (grows : Grows tight base root hand phys) (loose : ¬ tight) :
    Grows tight base root none phys :=
  { grows with
    held := nofun
    complete := fun assumed => absurd assumed loose }

/-- Writing into the frame in hand. -/
theorem Grows.fill {f : Nat} {mem : Memory} (grows : Grows tight base root (some f) phys)
    (inside : ∀ a, ¬ (f ≤ a ∧ a < f + 4096) → mem a = phys.mem a) :
    Grows tight base root (some f) { phys with mem } ∧
      (∀ m, m < 2 ^ 27 → pteOf mem root m = pteOf phys.mem root m) ∧
      ∀ node, frameAt mem root node = frameAt phys.mem root node := by
  obtain ⟨live, notOld, unplaced⟩ := grows.held f rfl
  refine grows.change ?_ ?_ ?_ ?_ ⟨rfl, rfl⟩
  · intro g other notHand
    refine ⟨other, fun a above below => inside a ?_⟩
    rcases other.isFrame.apart live.isFrame (fun same => notHand (same ▸ rfl)) with left | right <;> omega
  · intro a away
    exact inside a (live.isFrame.outside away)
  · intro g isHand
    cases isHand
    exact ⟨live, notOld, unplaced⟩
  · intro g now
    by_cases same : g = f
    · exact .inr (by rw [same])
    · exact .inl ⟨now, fun isHand => same (Option.some.inj isHand).symm⟩

private theorem kernelLeaf_flags :
    leaf kernelGigapageVa (R ||| W ||| X ||| G) &&& permMask ≠ 0 ∧
      leaf kernelGigapageVa (R ||| W ||| X ||| G) < 2 ^ 64 := by decide

/-- A new space with the kernel gigapage in it. `map_kernel` cannot fail here. -/
theorem newSpace_grows (tight : Prop) {middle : Phys} {result : Except MmError Unit} (made : newSpace base = (some root, middle))
    (mapped : mapKernel middle root = (result, after)) :
    result = .ok () ∧ Grows tight base root none after ∧ (∀ m, m < 2 ^ 27 → pteOf after.mem root m = 0) ∧
      ∀ i, i < 512 → child after.mem root i = none := by
  have spec := alloc_some made
  have frame := spec.frame
  have index : vpn kernelGigapageVa 2 = 2 := by decide
  unfold mapKernel mapGigapage at mapped
  rw [if_neg (by decide)] at mapped
  simp only [index, readPte_eq middle frame (show 2 < 512 by decide),
    entryAt_zero spec.zeroed (show 2 < 512 by decide)] at mapped
  rw [if_neg (by decide)] at mapped
  obtain ⟨rfl, rfl⟩ := Prod.mk.inj mapped
  have inside : 2 < 512 := by decide
  have rewrites := writePte_rewrites middle (leaf kernelGigapageVa (R ||| W ||| X ||| G)) frame inside kernelLeaf_flags.2
  have zeros : ∀ i, i < 512 → i ≠ 2 →
      entryAt (writePte middle (root + 2 * 8) (leaf kernelGigapageVa (R ||| W ||| X ||| G))).mem root i = 0 := by
    intro i bound other
    rw [rewrites.beside i bound other]
    exact entryAt_zero spec.zeroed bound
  have leaves : ∀ i, i < 512 →
      child (writePte middle (root + 2 * 8) (leaf kernelGigapageVa (R ||| W ||| X ||| G))).mem root i = none := by
    intro i bound
    by_cases two : i = 2
    · subst two
      unfold child
      rw [rewrites.written, if_neg (fun both => kernelLeaf_flags.1 both.2)]
    · exact child_of_zero (zeros i bound two)
  have lows : ∀ n, n < 2 ^ 18 →
      lowAt (writePte middle (root + 2 * 8) (leaf kernelGigapageVa (R ||| W ||| X ||| G))).mem root n = none := by
    intro n bound
    unfold lowAt
    rw [leaves _ (by omega)]
    rfl
  have pages : ∀ m, m < 2 ^ 27 →
      pteOf (writePte middle (root + 2 * 8) (leaf kernelGigapageVa (R ||| W ||| X ||| G))).mem root m = 0 := by
    intro m bound
    unfold pteOf
    rw [lows _ (by omega)]
  have tree : ∀ node f,
      frameAt (writePte middle (root + 2 * 8) (leaf kernelGigapageVa (R ||| W ||| X ||| G))).mem root node = some f →
      node = .root ∧ f = root := by
    intro node f found
    cases node with
    | root => exact ⟨rfl, (Option.some.inj found).symm⟩
    | mid i =>
      by_cases bound : i < 512
      · simp [frameAt, leaves i bound] at found
      · simp [frameAt, bound] at found
    | low n =>
      by_cases bound : n < 2 ^ 18
      · simp only [frameAt, lows n bound, ite_self] at found
        cases found
      · simp only [frameAt, bound, if_false] at found
        cases found
    | page m =>
      by_cases bound : m < 2 ^ 27
      · simp [frameAt, pages m bound, IsLeaf] at found
      · simp only [frameAt, bound, false_and, if_false] at found
        cases found
  have lives : ∀ f, Live (writePte middle (root + 2 * 8) (leaf kernelGigapageVa (R ||| W ||| X ||| G))) f ↔
      Live base f ∨ f = root := fun f => (writePte_live middle frame inside).trans (spec.live f)
  refine ⟨rfl, ⟨⟨⟨rewrites.written, ?_, ?_, ?_, ?_⟩, ?_, ?_⟩, ?_, ?_, ?_, ?_, ?_, ?_⟩, pages, leaves⟩
  · intro i bound other
    rw [zeros i bound other]
    rfl
  · intro i mid bound found
    rw [leaves i bound] at found
    cases found
  · intro node f found
    rw [(tree node f found).2]
    exact frame
  · intro first second f left right
    rw [(tree first f left).1, (tree second f right).1]
  · intro m bound isLeaf
    rw [pages m bound] at isLeaf
    exact absurd rfl isLeaf.1
  · intro node f found
    rw [(tree node f found).2, lives]
    exact .inr rfl
  · intro node f found
    rw [(tree node f found).2]
    exact spec.fresh
  · intro f old
    have other : f ≠ root := by
      rintro rfl
      exact spec.fresh old
    exact ⟨(lives f).mpr (.inl old),
      (spec.agree old.isFrame other).trans (rewrites.agree frame inside old.isFrame other)⟩
  · intro a away
    exact (rewrites.outside frame inside away).trans (spec.kept a (frame.outside away))
  · intro f isHand
    cases isHand
  · intro _ f live
    rcases (lives f).mp live with old | rfl
    · exact .inl old
    · exact .inr (.inl ⟨.root, rfl⟩)
  · exact spec.control.trans (writePte_control middle frame inside)

/-- `read_pte` looks at memory only. -/
def pteIn (mem : Memory) (pa : Nat) : Nat :=
  if pa % 8 = 0 ∧ inPool pa 8 = true then (mem.read64 pa).toNat else 0

theorem readPte_pteIn (phys : Phys) (pa : Nat) : readPte phys pa = pteIn phys.mem pa := by
  unfold readPte physReadU64 pteIn
  by_cases aligned : pa % 8 = 0
  · by_cases pool : inPool pa 8 = true
    · simp [aligned, pool]
    · simp [aligned, pool]
  · simp [aligned]

theorem pteIn_eq (mem : Memory) {table i : Nat} (frame : IsFrame table) (inside : i < 512) :
    pteIn mem (table + i * 8) = entryAt mem table i := by
  have aligned : (table + i * 8) % 8 = 0 := by
    have := frame.bounds
    omega
  rw [pteIn, if_pos ⟨aligned, frame.inPool (i * 8) 8 (by omega)⟩, entryAt]

/-- The addresses `free_subtree` hands to `frames::free`, in order. -/
def freedBelow (mem : Memory) : (level table : Nat) → List Nat
  | 0, table => (List.range 512).flatMap (fun i =>
      if IsLeaf (pteIn mem (table + i * 8)) then [ptePa (pteIn mem (table + i * 8))] else []) ++ [table]
  | level + 1, table => (List.range 512).flatMap (fun i =>
      if pteIn mem (table + i * 8) &&& V = 0 then []
      else if pteIn mem (table + i * 8) &&& permMask ≠ 0 then [ptePa (pteIn mem (table + i * 8))]
      else freedBelow mem level (ptePa (pteIn mem (table + i * 8)))) ++ [table]

/-- Those `destroy` hands to it. -/
def freed (mem : Memory) (root : Nat) : List Nat :=
  (List.range 512).flatMap (fun i =>
    if pteIn mem (root + i * 8) &&& V = 0 ∨ pteIn mem (root + i * 8) &&& permMask ≠ 0 then []
    else freedBelow mem 1 (ptePa (pteIn mem (root + i * 8)))) ++ [root]

@[simp] theorem foldl_free_mem (phys : Phys) (addresses : List Nat) : (addresses.foldl free phys).mem = phys.mem := by
  induction addresses generalizing phys with
  | nil => rfl
  | cons pa rest ih => rw [List.foldl_cons, ih, free_mem]

theorem foldl_free_control (phys : Phys) (addresses : List Nat) : SameControl phys (addresses.foldl free phys) := by
  induction addresses generalizing phys with
  | nil => exact .refl phys
  | cons pa rest ih => exact SameControl.trans ⟨free_satp phys pa, free_destroyed phys pa⟩ (ih (free phys pa))

theorem live_foldl_free (phys : Phys) (addresses : List Nat) (f : Nat) :
    Live (addresses.foldl free phys) f ↔ Live phys f ∧ f ∉ addresses := by
  induction addresses generalizing phys with
  | nil => simp
  | cons pa rest ih => rw [List.foldl_cons, ih, live_free, List.mem_cons, not_or, and_assoc]

/-- A loop whose turns free what they read frees it all. -/
private theorem foldl_frees {step : Phys → Nat → Phys} (frees : Memory → Nat → List Nat)
    (each : ∀ phys i, step phys i = (frees phys.mem i).foldl free phys) (indices : List Nat) (phys : Phys) :
    indices.foldl step phys = (indices.flatMap (frees phys.mem)).foldl free phys := by
  induction indices generalizing phys with
  | nil => rfl
  | cons i rest ih => rw [List.foldl_cons, ih, each, List.flatMap_cons, List.foldl_append, foldl_free_mem]

theorem freeSubtree_eq (level table : Nat) (phys : Phys) :
    freeSubtree level table phys = (freedBelow phys.mem level table).foldl free phys := by
  induction level generalizing table phys with
  | zero =>
    rw [freeSubtree, freedBelow, List.foldl_append, foldl_frees (fun mem i =>
      if IsLeaf (pteIn mem (table + i * 8)) then [ptePa (pteIn mem (table + i * 8))] else [])]
    · rfl
    · intro phys i
      simp only [readPte_pteIn, IsLeaf]
      by_cases invalid : pteIn phys.mem (table + i * 8) &&& V = 0
      · simp [invalid]
      · by_cases pointer : pteIn phys.mem (table + i * 8) &&& permMask = 0
        · simp [pointer]
        · simp [invalid, pointer]
  | succ level ih =>
    rw [freeSubtree, freedBelow, List.foldl_append, foldl_frees (fun mem i =>
      if pteIn mem (table + i * 8) &&& V = 0 then []
      else if pteIn mem (table + i * 8) &&& permMask ≠ 0 then [ptePa (pteIn mem (table + i * 8))]
      else freedBelow mem level (ptePa (pteIn mem (table + i * 8))))]
    · rfl
    · intro phys i
      simp only [readPte_pteIn, ih]
      split
      · rfl
      · split <;> rfl

/-- `destroy` is a series of frees and a note in the history. -/
theorem destroy_eq (phys : Phys) (root : Nat) :
    destroy phys root = (freed phys.mem root).foldl free { phys with destroyed := (root, phys.satp) :: phys.destroyed } := by
  unfold destroy freed
  dsimp only
  rw [List.foldl_append, foldl_frees (fun mem i =>
    if pteIn mem (root + i * 8) &&& V = 0 ∨ pteIn mem (root + i * 8) &&& permMask ≠ 0 then []
    else freedBelow mem 1 (ptePa (pteIn mem (root + i * 8))))]
  · simp only [List.foldl_cons, List.foldl_nil]
  · intro phys i
    simp only [readPte_pteIn, freeSubtree_eq]
    split <;> rfl

/-- The places of a tree in the order `destroy` comes to them. -/
def lowOrder (n : Nat) : List Node := (List.range 512).map (fun k => .page (n * 512 + k)) ++ [.low n]
def midOrder (i : Nat) : List Node := (List.range 512).flatMap (fun j => lowOrder (i * 512 + j)) ++ [.mid i]
def order : List Node := (List.range 512).flatMap midOrder ++ [.root]

theorem mem_order {mem : Memory} {root f : Nat} {node : Node} (found : frameAt mem root node = some f) : node ∈ order := by
  simp only [order, midOrder, lowOrder, List.mem_append, List.mem_flatMap, List.mem_map, List.mem_range, List.mem_singleton]
  cases node with
  | root => exact .inr rfl
  | mid i =>
    simp only [frameAt] at found
    split at found
    · next inside => exact .inl ⟨i, inside, .inr rfl⟩
    · cases found
  | low n =>
    simp only [frameAt] at found
    split at found
    · next inside => exact .inl ⟨n / 512, by omega, .inl ⟨n % 512, by omega, .inr (by rw [Nat.div_add_mod'])⟩⟩
    · cases found
  | page m =>
    simp only [frameAt] at found
    split at found
    · next inside =>
      refine .inl ⟨m / 512 / 512, by omega, .inl ⟨m / 512 % 512, by omega, .inl ⟨m % 512, by omega, ?_⟩⟩⟩
      rw [Nat.div_add_mod', Nat.div_add_mod']
    · cases found

theorem lowOrder_nodup (n : Nat) : (lowOrder n).Nodup := by
  refine List.Nodup.append (List.nodup_range.map fun k l same => ?_) (List.nodup_singleton _) ?_
  · have := Node.page.inj same
    omega
  · simp [List.disjoint_singleton]

/-- The stretch of low tables a place of the tree belongs to. -/
def Node.lowIndex : Node → Option Nat
  | .page m => some (m / 512)
  | .low n => some n
  | _ => none

/-- The stretch of middle tables. -/
def Node.midIndex : Node → Option Nat
  | .page m => some (m / 512 / 512)
  | .low n => some (n / 512)
  | .mid i => some i
  | .root => none

theorem lowIndex_of_mem {n : Nat} {node : Node} (member : node ∈ lowOrder n) : node.lowIndex = some n := by
  simp only [lowOrder, List.mem_append, List.mem_map, List.mem_range, List.mem_singleton] at member
  rcases member with ⟨k, inside, rfl⟩ | rfl
  · exact congrArg some (by omega)
  · rfl

theorem midIndex_of_mem {i : Nat} {node : Node} (member : node ∈ midOrder i) : node.midIndex = some i := by
  simp only [midOrder, lowOrder, List.mem_append, List.mem_flatMap, List.mem_map, List.mem_range, List.mem_singleton] at member
  rcases member with ⟨j, inside, ⟨k, small, rfl⟩ | rfl⟩ | rfl
  · exact congrArg some (by omega)
  · exact congrArg some (by omega)
  · rfl

/-- Lists told apart by a label have no entry twice. -/
private theorem nodup_flatMap_label (label : Node → Option Nat) {lists : Nat → List Node} {indices : List Nat}
    (distinct : indices.Nodup) (nodup : ∀ i ∈ indices, (lists i).Nodup)
    (labelled : ∀ i, ∀ node ∈ lists i, label node = some i) : (indices.flatMap lists).Nodup := by
  refine List.nodup_flatMap.mpr ⟨nodup, distinct.imp fun {i j} other => ?_⟩
  intro node left right
  have same := (labelled i node left).symm.trans (labelled j node right)
  exact other (Option.some.inj same)

theorem midOrder_nodup (i : Nat) : (midOrder i).Nodup := by
  refine List.Nodup.append ?_ (List.nodup_singleton _) ?_
  · have shifted : ((List.range 512).map (i * 512 + ·)).Nodup := List.nodup_range.map fun j k same => by omega
    have all := nodup_flatMap_label Node.lowIndex shifted (fun n _ => lowOrder_nodup n)
      (fun n node member => lowIndex_of_mem member)
    rwa [List.flatMap_map] at all
  · simp [List.disjoint_singleton, lowOrder]

theorem order_nodup : order.Nodup := by
  refine List.Nodup.append ?_ (List.nodup_singleton _) ?_
  · exact nodup_flatMap_label Node.midIndex List.nodup_range (fun i _ => midOrder_nodup i)
      (fun i node member => midIndex_of_mem member)
  · simp [List.disjoint_singleton, midOrder, lowOrder]

private theorem flatMap_range_congr {first second : Nat → List Nat} (same : ∀ i, i < 512 → first i = second i) :
    (List.range 512).flatMap first = (List.range 512).flatMap second :=
  List.flatMap_congr fun i member => same i (List.mem_range.mp member)

section
variable {mem : Memory}

/-- Below a lowest table `free_subtree` frees the pages there in order, then the table. -/
private theorem freed_low {n low : Nat} (shape : Shape mem root) (small : n < 2 ^ 18) (found : lowAt mem root n = some low) :
    (freedBelow mem 0 low).filter (IsFrame ·) = (lowOrder n).filterMap (frameAt mem root) := by
  have place := frameAt_low small found
  have frame := shape.frames _ _ place
  rw [freedBelow, lowOrder, List.filter_append, List.filterMap_append, List.filter_flatMap, List.filterMap_map,
    List.filterMap_eq_flatMap_toList]
  refine congrArg₂ (· ++ ·) ?_ ?_
  · refine flatMap_range_congr fun k inside => ?_
    have entry : pteOf mem root (n * 512 + k) = entryAt mem low k := by
      rw [pteOf, show (n * 512 + k) / 512 = n by omega, found]
      simp only [show (n * 512 + k) % 512 = k by omega]
    have bound : n * 512 + k < 2 ^ 27 := by omega
    rw [pteIn_eq mem frame inside, ← entry]
    simp only [Function.comp_apply, frameAt, bound, true_and]
    by_cases leafy : IsLeaf (pteOf mem root (n * 512 + k))
    · by_cases pool : IsFrame (ptePa (pteOf mem root (n * 512 + k))) <;> simp [leafy, pool]
    · simp [leafy]
  · simp [frame, place]

private theorem order_low_none {n : Nat} (absent : lowAt mem root n = none) :
    (lowOrder n).filterMap (frameAt mem root) = [] := by
  refine List.filterMap_eq_nil_iff.mpr fun node member => ?_
  simp only [lowOrder, List.mem_append, List.mem_map, List.mem_range, List.mem_singleton] at member
  rcases member with ⟨k, inside, rfl⟩ | rfl
  · have blank : pteOf mem root (n * 512 + k) = 0 := by
      rw [pteOf, show (n * 512 + k) / 512 = n by omega, absent]
    simp [frameAt, blank, IsLeaf]
  · simp only [frameAt, absent, ite_self]

private theorem child_of_pointer {table i : Nat} (frame : IsFrame table) (inside : i < 512)
    (valid : pteIn mem (table + i * 8) &&& V ≠ 0) (pointer : pteIn mem (table + i * 8) &&& permMask = 0) :
    child mem table i = some (ptePa (pteIn mem (table + i * 8))) := by
  rw [pteIn_eq mem frame inside] at valid pointer ⊢
  exact if_pos ⟨valid, pointer⟩

private theorem freed_mid {i mid : Nat} (shape : Shape mem root) (inside : i < 512) (found : child mem root i = some mid) :
    (freedBelow mem 1 mid).filter (IsFrame ·) = (midOrder i).filterMap (frameAt mem root) := by
  have place := frameAt_mid inside found
  have frame := shape.frames _ _ place
  rw [freedBelow, midOrder, List.filter_append, List.filterMap_append, List.filter_flatMap, List.filterMap_flatMap]
  refine congrArg₂ (· ++ ·) ?_ ?_
  · refine flatMap_range_congr fun j bound => ?_
    have isLow : lowAt mem root (i * 512 + j) = child mem mid j := by
      rw [lowAt, show (i * 512 + j) / 512 = i by omega, show (i * 512 + j) % 512 = j by omega, found]
      rfl
    by_cases invalid : pteIn mem (mid + j * 8) &&& V = 0
    · rw [if_pos invalid, order_low_none, List.filter_nil]
      rw [isLow]
      rw [pteIn_eq mem frame bound] at invalid
      exact child_none invalid
    · have pointer : pteIn mem (mid + j * 8) &&& permMask = 0 := by
        rw [pteIn_eq mem frame bound]
        exact shape.middle i mid inside found j bound
      rw [if_neg invalid, if_neg (not_not.mpr pointer)]
      exact freed_low shape (by omega) (isLow.trans (child_of_pointer frame bound invalid pointer))
  · simp [frame, place]

private theorem order_mid_none {i : Nat} (absent : child mem root i = none) :
    (midOrder i).filterMap (frameAt mem root) = [] := by
  have noLow : ∀ j, j < 512 → lowAt mem root (i * 512 + j) = none := by
    intro j bound
    rw [lowAt, show (i * 512 + j) / 512 = i by omega, absent]
    rfl
  rw [midOrder, List.filterMap_append, List.filterMap_flatMap]
  refine List.append_eq_nil_iff.mpr ⟨List.flatMap_eq_nil_iff.mpr fun j member => ?_, ?_⟩
  · exact order_low_none (noLow j (List.mem_range.mp member))
  · simp [frameAt, absent]

/-- The pool frames `destroy` hands to `frames::free` are those of the tree, in order. -/
theorem freed_frames (shape : Shape mem root) :
    (freed mem root).filter (IsFrame ·) = order.filterMap (frameAt mem root) := by
  have frame := shape.root
  rw [freed, order, List.filter_append, List.filterMap_append, List.filter_flatMap, List.filterMap_flatMap]
  refine congrArg₂ (· ++ ·) ?_ ?_
  · refine flatMap_range_congr fun i inside => ?_
    by_cases skipped : pteIn mem (root + i * 8) &&& V = 0 ∨ pteIn mem (root + i * 8) &&& permMask ≠ 0
    · rw [if_pos skipped, order_mid_none, List.filter_nil]
      rw [pteIn_eq mem frame inside] at skipped
      refine if_neg fun followed => ?_
      rcases skipped with invalid | leafy
      · exact followed.1 invalid
      · exact leafy followed.2
    · rw [if_neg skipped]
      simp only [not_or, not_not] at skipped
      exact freed_mid shape inside (child_of_pointer frame inside skipped.1 skipped.2)
  · simp [frame, frameAt]

theorem mem_freed (shape : Shape mem root) {f : Nat} (frame : IsFrame f) :
    f ∈ freed mem root ↔ ∃ node, frameAt mem root node = some f := by
  have filtered : f ∈ freed mem root ↔ f ∈ (freed mem root).filter (IsFrame ·) := by simp [frame]
  rw [filtered, freed_frames shape, List.mem_filterMap]
  constructor
  · rintro ⟨node, -, found⟩
    exact ⟨node, found⟩
  · rintro ⟨node, found⟩
    exact ⟨node, mem_order found, found⟩

/-- No pool frame is handed to it twice. -/
theorem freed_nodup (shape : Shape mem root) : ((freed mem root).filter (IsFrame ·)).Nodup := by
  rw [freed_frames shape]
  exact order_nodup.filterMap fun first second f left right => shape.distinct first second f left right

end

/-- `destroy` frees exactly the frames of the space and notes it. -/
theorem destroy_spec (space : Space phys root) :
    (destroy phys root).mem = phys.mem ∧ (destroy phys root).satp = phys.satp ∧
      (destroy phys root).destroyed = (root, phys.satp) :: phys.destroyed ∧
      ∀ g, Live (destroy phys root) g ↔ Live phys g ∧ ∀ node, frameAt phys.mem root node ≠ some g := by
  rw [destroy_eq]
  have control := foldl_free_control { phys with destroyed := (root, phys.satp) :: phys.destroyed } (freed phys.mem root)
  refine ⟨foldl_free_mem _ _, control.1, control.2, fun g => ?_⟩
  rw [live_foldl_free]
  refine and_congr_right fun isLive => ?_
  rw [mem_freed space.shape isLive.isFrame, not_exists]

end Kernai.Mm
