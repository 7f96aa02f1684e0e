import Kernai.Proofs.Entries
import Kernai.Proofs.Frames

/-! A page table as a tree in memory: its tables and pages by position, and how
the three kinds of write `map_page` makes change that tree. -/

namespace Kernai.Mm
open Hal Frames Foundation

instance (f : Nat) : Decidable (IsFrame f) := inferInstanceAs (Decidable (_ ∧ _ ∧ _))

@[irreducible] def entryAt (mem : Memory) (table i : Nat) : Nat := (mem.read64 (table + i * 8)).toNat

def IsLeaf (entry : Nat) : Prop := entry &&& V ≠ 0 ∧ entry &&& permMask ≠ 0

instance (entry : Nat) : Decidable (IsLeaf entry) := inferInstanceAs (Decidable (_ ∧ _))

/-- The table an entry points at, if it points at one. -/
def child (mem : Memory) (table i : Nat) : Option Nat :=
  if entryAt mem table i &&& V ≠ 0 ∧ entryAt mem table i &&& permMask = 0 then some (ptePa (entryAt mem table i))
  else none

/-- The entry of the middle table that covers pages `512 n` to `512 n + 511`, zero if
there is no such table. -/
def midOf (mem : Memory) (root n : Nat) : Nat :=
  match child mem root (n / 512) with
  | some mid => entryAt mem mid (n % 512)
  | none => 0

/-- The lowest-level table that maps pages `512 n` to `512 n + 511`. -/
def lowAt (mem : Memory) (root n : Nat) : Option Nat := (child mem root (n / 512)).bind fun mid => child mem mid (n % 512)

/-- The lowest-level entry of page number `m`, zero if there is no table for it. -/
def pteOf (mem : Memory) (root m : Nat) : Nat :=
  match lowAt mem root (m / 512) with
  | some low => entryAt mem low (m % 512)
  | none => 0

/-- A place in the tree of one address space. -/
inductive Node where
  | root
  | mid (i : Nat)
  | low (n : Nat)
  | page (m : Nat)
deriving DecidableEq

def Node.isTable : Node → Bool
  | .page _ => false
  | _ => true

/-- The pool frame at a place of the tree. -/
def frameAt (mem : Memory) (root : Nat) : Node → Option Nat
  | .root => some root
  | .mid i => if i < 512 then child mem root i else none
  | .low n => if n < 2 ^ 18 then lowAt mem root n else none
  | .page m =>
    if m < 2 ^ 27 ∧ IsLeaf (pteOf mem root m) ∧ IsFrame (ptePa (pteOf mem root m)) then some (ptePa (pteOf mem root m))
    else none

theorem readPte_eq (phys : Phys) {table i : Nat} (frame : IsFrame table) (inside : i < 512) :
    readPte phys (table + i * 8) = entryAt phys.mem table i := by
  have aligned : (table + i * 8) % 8 = 0 := by
    have := frame.bounds
    omega
  simp [readPte, physReadU64, aligned, frame.inPool (i * 8) 8 (by omega), entryAt]

theorem writePte_eq (phys : Phys) {table i value : Nat} (frame : IsFrame table) (inside : i < 512) :
    writePte phys (table + i * 8) value =
      { phys with mem := phys.mem.write64 (table + i * 8) (.ofNat value) } := by
  have aligned : (table + i * 8) % 8 = 0 := by
    have := frame.bounds
    omega
  simp [writePte, physWriteU64, aligned, frame.inPool (i * 8) 8 (by omega)]

theorem entryAt_congr {before after : Memory} {table i : Nat} (same : Memory.Agree before after table 4096)
    (inside : i < 512) : entryAt after table i = entryAt before table i := by
  unfold entryAt
  rw [Memory.read64_congr]
  intro a above below
  exact same a (by omega) (by omega)

theorem child_congr {before after : Memory} {table i : Nat} (same : Memory.Agree before after table 4096)
    (inside : i < 512) : child after table i = child before table i := by
  unfold child
  rw [entryAt_congr same inside]

theorem entryAt_zero {mem : Memory} {table i : Nat} (zeroed : ∀ a, table ≤ a → a < table + 4096 → mem a = 0)
    (inside : i < 512) : entryAt mem table i = 0 := by
  have same : Memory.Agree (fun _ => 0) mem table 4096 := fun a above below => zeroed a above below
  rw [entryAt_congr same inside]
  unfold entryAt
  rfl

theorem child_of_zero {mem : Memory} {table i : Nat} (zero : entryAt mem table i = 0) : child mem table i = none := by
  simp [child, zero]

/-- `after` is `before` with one entry of a table rewritten. -/
structure Rewrites (before after : Memory) (table i value : Nat) : Prop where
  written : entryAt after table i = value
  beside : ∀ j, j < 512 → j ≠ i → entryAt after table j = entryAt before table j
  elsewhere : ∀ a, ¬ (table + i * 8 ≤ a ∧ a < table + i * 8 + 8) → after a = before a

theorem rewrites_write64 (mem : Memory) {table i value : Nat} (small : value < 2 ^ 64) :
    Rewrites mem (mem.write64 (table + i * 8) (.ofNat value)) table i value := by
  refine ⟨?_, ?_, ?_⟩
  · rw [entryAt, Memory.read64_write64, UInt64.toNat_ofNat', Nat.mod_eq_of_lt small]
  · intro j _ other
    unfold entryAt
    rw [Memory.read64_congr]
    exact Memory.write64_agree mem _ (by omega)
  · intro a outside
    exact if_neg outside

theorem Rewrites.agree {before after : Memory} {table i value f : Nat}
    (rewrites : Rewrites before after table i value) (tableFrame : IsFrame table) (inside : i < 512)
    (frame : IsFrame f) (other : f ≠ table) : Memory.Agree before after f 4096 := by
  intro a above below
  apply rewrites.elsewhere
  rcases frame.apart tableFrame other with left | right <;> omega

theorem Rewrites.child_beside {before after : Memory} {table i value j : Nat}
    (rewrites : Rewrites before after table i value) (bound : j < 512) (other : j ≠ i) :
    child after table j = child before table j := by
  unfold child
  rw [rewrites.beside j bound other]

/-- The tables of a tree lie in pool frames, each in its own. -/
structure Tables (mem : Memory) (root : Nat) : Prop where
  frames : ∀ node f, node.isTable = true → frameAt mem root node = some f → IsFrame f
  distinct : ∀ first second f, first.isTable = true → second.isTable = true →
    frameAt mem root first = some f → frameAt mem root second = some f → first = second

/-- What the tree of a payload's space looks like: tables and pages lie in distinct
frames, the kernel gigapage is where it belongs, and leaves occur nowhere else above
the lowest level. -/
structure Shape (mem : Memory) (root : Nat) : Prop where
  giga : entryAt mem root 2 = leaf kernelGigapageVa (R ||| W ||| X ||| G)
  top : ∀ i, i < 512 → i ≠ 2 → entryAt mem root i &&& permMask = 0
  middle : ∀ i mid, i < 512 → child mem root i = some mid → ∀ j, j < 512 → entryAt mem mid j &&& permMask = 0
  frames : ∀ node f, frameAt mem root node = some f → IsFrame f
  distinct : ∀ first second f, frameAt mem root first = some f → frameAt mem root second = some f → first = second

theorem Shape.root {mem : Memory} {root : Nat} (shape : Shape mem root) : IsFrame root := shape.frames .root root rfl

theorem Shape.tables {mem : Memory} {root : Nat} (shape : Shape mem root) : Tables mem root where
  frames node f _ := shape.frames node f
  distinct first second f _ _ := shape.distinct first second f

theorem Tables.root {mem : Memory} {root : Nat} (tables : Tables mem root) : IsFrame root := tables.frames .root root rfl rfl

theorem frameAt_mid {mem : Memory} {root i mid : Nat} (inside : i < 512) (found : child mem root i = some mid) :
    frameAt mem root (.mid i) = some mid := by
  simp [frameAt, inside, found]

theorem frameAt_low {mem : Memory} {root n low : Nat} (inside : n < 2 ^ 18) (found : lowAt mem root n = some low) :
    frameAt mem root (.low n) = some low := by
  simp only [frameAt, inside, if_true, found]

theorem lowAt_some {mem : Memory} {root n low : Nat} (found : lowAt mem root n = some low) :
    ∃ mid, child mem root (n / 512) = some mid ∧ child mem mid (n % 512) = some low := by
  simpa [lowAt, Option.bind_eq_some_iff] using found

theorem midOf_eq {mem : Memory} {root i mid j : Nat} (found : child mem root i = some mid) (bound : j < 512) :
    midOf mem root (i * 512 + j) = entryAt mem mid j := by
  rw [midOf, show (i * 512 + j) / 512 = i by omega, show (i * 512 + j) % 512 = j by omega, found]

/-- The lowest tables are told by the entries of the middle ones. -/
theorem lowAt_congr {before after : Memory} {root n : Nat} (same : midOf after root n = midOf before root n) :
    lowAt after root n = lowAt before root n := by
  have fromEntry : ∀ mem, lowAt mem root n =
      if midOf mem root n &&& V ≠ 0 ∧ midOf mem root n &&& permMask = 0 then some (ptePa (midOf mem root n)) else none := by
    intro mem
    unfold lowAt midOf
    cases child mem root (n / 512) with
    | none => simp
    | some mid => rfl
  rw [fromEntry, fromEntry, same]

theorem frameAt_of_pteOf {before after : Memory} {root : Nat} (mids : ∀ i, i < 512 → child after root i = child before root i)
    (lows : ∀ n, n < 2 ^ 18 → lowAt after root n = lowAt before root n)
    (pages : ∀ m, m < 2 ^ 27 → pteOf after root m = pteOf before root m) (node : Node) :
    frameAt after root node = frameAt before root node := by
  cases node with
  | root => rfl
  | mid i =>
    by_cases inside : i < 512
    · simp [frameAt, inside, mids i inside]
    · simp [frameAt, inside]
  | low n =>
    by_cases inside : n < 2 ^ 18
    · simp only [frameAt, lows n inside]
    · simp only [frameAt, inside, if_false]
  | page m =>
    by_cases inside : m < 2 ^ 27
    · simp only [frameAt, pages m inside]
    · simp only [frameAt, inside, false_and, if_false]

/-- A middle entry survives if its table does. -/
theorem midOf_congr {before after : Memory} {root n : Nat} (sameTop : child after root (n / 512) = child before root (n / 512))
    (kept : ∀ mid, child before root (n / 512) = some mid → Memory.Agree before after mid 4096) :
    midOf after root n = midOf before root n := by
  unfold midOf
  rw [sameTop]
  cases found : child before root (n / 512) with
  | none => rfl
  | some mid => exact entryAt_congr (kept mid found) (Nat.mod_lt _ (by decide))

/-- So does a lowest entry. -/
theorem pteOf_congr {before after : Memory} {root m : Nat} (sameLow : lowAt after root (m / 512) = lowAt before root (m / 512))
    (kept : ∀ low, lowAt before root (m / 512) = some low → Memory.Agree before after low 4096) :
    pteOf after root m = pteOf before root m := by
  unfold pteOf
  rw [sameLow]
  cases found : lowAt before root (m / 512) with
  | none => rfl
  | some low => exact entryAt_congr (kept low found) (Nat.mod_lt _ (by decide))

/-- A tree is untouched by changes outside its tables. -/
theorem tree_frame {before after : Memory} {root : Nat}
    (same : ∀ node f, node.isTable = true → frameAt before root node = some f → Memory.Agree before after f 4096) :
    (∀ n, n < 2 ^ 18 → midOf after root n = midOf before root n) ∧
      (∀ m, m < 2 ^ 27 → pteOf after root m = pteOf before root m) ∧
      ∀ node, frameAt after root node = frameAt before root node := by
  have mids : ∀ i, i < 512 → child after root i = child before root i :=
    fun i inside => child_congr (same .root root rfl rfl) inside
  have middles : ∀ n, n < 2 ^ 18 → midOf after root n = midOf before root n :=
    fun n inside => midOf_congr (mids _ (by omega)) fun mid found => same (.mid (n / 512)) mid rfl (frameAt_mid (by omega) found)
  have lows : ∀ n, n < 2 ^ 18 → lowAt after root n = lowAt before root n := fun n inside => lowAt_congr (middles n inside)
  have pages : ∀ m, m < 2 ^ 27 → pteOf after root m = pteOf before root m :=
    fun m inside => pteOf_congr (lows _ (by omega)) fun low found => same (.low (m / 512)) low rfl (frameAt_low (by omega) found)
  exact ⟨middles, pages, frameAt_of_pteOf mids lows pages⟩

theorem Shape.pteOf_frame {before after : Memory} {root : Nat} (_ : Shape before root)
    (same : ∀ node f, node.isTable = true → frameAt before root node = some f → Memory.Agree before after f 4096) :
    (∀ m, m < 2 ^ 27 → pteOf after root m = pteOf before root m) ∧
      ∀ node, frameAt after root node = frameAt before root node :=
  (tree_frame same).2

/-- Leaves stay out of the middle tables as long as the entries there do not change. -/
private theorem middle_of_midOf {mem : Memory} {root : Nat} (flags : ∀ n, n < 2 ^ 18 → midOf mem root n &&& permMask = 0)
    {i mid j : Nat} (inside : i < 512) (found : child mem root i = some mid) (bound : j < 512) :
    entryAt mem mid j &&& permMask = 0 := by
  rw [← midOf_eq found bound]
  exact flags _ (by omega)

theorem Shape.midOf {mem : Memory} {root n : Nat} (shape : Shape mem root) (inside : n < 2 ^ 18) :
    midOf mem root n &&& permMask = 0 := by
  unfold Mm.midOf
  cases found : child mem root (n / 512) with
  | none => exact Nat.zero_and _
  | some mid => exact shape.middle _ mid (by omega) found _ (Nat.mod_lt _ (by decide))

theorem Shape.frame {before after : Memory} {root : Nat} (shape : Shape before root)
    (same : ∀ node f, node.isTable = true → frameAt before root node = some f → Memory.Agree before after f 4096) :
    Shape after root := by
  obtain ⟨middles, -, tree⟩ := tree_frame same
  have top := same .root root rfl rfl
  refine ⟨?_, ?_, ?_, ?_, ?_⟩
  · rw [entryAt_congr top (by decide)]
    exact shape.giga
  · intro i inside other
    rw [entryAt_congr top inside]
    exact shape.top i inside other
  · intro i mid inside found j bound
    refine middle_of_midOf (fun n small => ?_) inside found bound
    rw [middles n small]
    exact shape.midOf small
  · intro node f found
    rw [tree] at found
    exact shape.frames node f found
  · intro first second f left right
    rw [tree] at left right
    exact shape.distinct first second f left right

theorem child_none {mem : Memory} {table i : Nat} (empty : entryAt mem table i &&& V = 0) :
    child mem table i = none := by
  simp [child, empty]

/-- `after` is `before` with a zeroed frame linked below entry `i` of a table. -/
structure Linked (before after : Memory) (table i fresh : Nat) : Prop where
  frame : IsFrame fresh
  written : entryAt after table i = nonleaf fresh
  beside : ∀ j, j < 512 → j ≠ i → entryAt after table j = entryAt before table j
  zeroed : ∀ j, j < 512 → entryAt after fresh j = 0
  elsewhere : ∀ f, IsFrame f → f ≠ table → f ≠ fresh → Memory.Agree before after f 4096

theorem Linked.child_linked {before after : Memory} {table i fresh : Nat} (linked : Linked before after table i fresh) :
    child after table i = some fresh := by
  have bounds := linked.frame.bounds
  simp only [child, linked.written, nonleaf_and fresh (show V < 1024 by decide),
    nonleaf_and fresh (show permMask < 1024 by decide), ptePa_nonleaf bounds.2.2 (by omega)]
  rfl

theorem Linked.child_beside {before after : Memory} {table i fresh j : Nat}
    (linked : Linked before after table i fresh) (bound : j < 512) (other : j ≠ i) :
    child after table j = child before table j := by
  unfold child
  rw [linked.beside j bound other]

/-- Linking a table leaves every other table of the tree alone. -/
theorem Linked.kept {before after : Memory} {root table i fresh : Nat} (tables : Tables before root)
    (linked : Linked before after table i fresh) (place : Node) (isTable : place.isTable = true)
    (here : frameAt before root place = some table)
    (unused : ∀ node, node.isTable = true → frameAt before root node ≠ some fresh) {node : Node} {f : Nat}
    (alsoTable : node.isTable = true) (other : node ≠ place) (found : frameAt before root node = some f) :
    Memory.Agree before after f 4096 := by
  apply linked.elsewhere f (tables.frames _ _ alsoTable found)
  · rintro rfl
    exact other (tables.distinct _ _ _ alsoTable isTable found here)
  · rintro rfl
    exact unused _ alsoTable found

private theorem distinct_update {before after : Node → Option Nat} (among : Node → Prop) {place : Node} {fresh : Nat}
    (distinct : ∀ first second f, among first → among second → before first = some f → before second = some f → first = second)
    (unused : ∀ node, among node → before node ≠ some fresh)
    (updated : ∀ node, after node = if node = place then some fresh else before node) :
    ∀ first second f, among first → among second → after first = some f → after second = some f → first = second := by
  intro first second f inFirst inSecond left right
  rw [updated] at left right
  split at left <;> split at right
  · next here there => rw [here, there]
  · cases left
    exact absurd right (unused second inSecond)
  · cases right
    exact absurd left (unused first inFirst)
  · exact distinct first second f inFirst inSecond left right

/-- `after` has one more table than `before`, an empty one; what the tree maps is as it was. -/
structure Grafted (before after : Memory) (root : Nat) (place : Node) (fresh : Nat) : Prop where
  top : ∀ i, i < 512 → .mid i ≠ place → entryAt after root i = entryAt before root i
  middles : ∀ n, n < 2 ^ 18 → .low n ≠ place → midOf after root n = midOf before root n
  pages : ∀ m, m < 2 ^ 27 → pteOf after root m = pteOf before root m
  tree : ∀ node, frameAt after root node = if node = place then some fresh else frameAt before root node

theorem Grafted.tables {before after : Memory} {root fresh : Nat} {place : Node} (grafted : Grafted before after root place fresh)
    (tables : Tables before root) (frame : IsFrame fresh)
    (unused : ∀ node, node.isTable = true → frameAt before root node ≠ some fresh) : Tables after root := by
  refine ⟨?_, distinct_update (·.isTable = true) tables.distinct unused grafted.tree⟩
  intro node f isTable found
  rw [grafted.tree] at found
  split at found
  · cases found
    exact frame
  · exact tables.frames node f isTable found

/-- A fresh table linked into the root. -/
theorem Tables.link_mid {before after : Memory} {root i fresh : Nat} (tables : Tables before root)
    (linked : Linked before after root i fresh) (inside : i < 512)
    (unused : ∀ node, node.isTable = true → frameAt before root node ≠ some fresh) (empty : entryAt before root i &&& V = 0) :
    Grafted before after root (.mid i) fresh := by
  have mids : ∀ j, j < 512 → j ≠ i → child after root j = child before root j :=
    fun j bound other => linked.child_beside bound other
  have middles : ∀ n, n < 2 ^ 18 → midOf after root n = midOf before root n := by
    intro n bound
    by_cases here : n / 512 = i
    · unfold midOf
      rw [here, linked.child_linked, child_none empty]
      exact linked.zeroed _ (by omega)
    · exact midOf_congr (mids _ (by omega) here) fun mid found =>
        linked.kept tables .root rfl rfl unused rfl (by simp) (frameAt_mid (by omega) found)
  have lows : ∀ n, n < 2 ^ 18 → lowAt after root n = lowAt before root n := fun n bound => lowAt_congr (middles n bound)
  have pages : ∀ m, m < 2 ^ 27 → pteOf after root m = pteOf before root m := fun m bound =>
    pteOf_congr (lows _ (by omega)) fun low found =>
      linked.kept tables .root rfl rfl unused rfl (by simp) (frameAt_low (by omega) found)
  refine ⟨fun j bound other => linked.beside j bound (by simpa using other), fun n bound _ => middles n bound, pages, ?_⟩
  intro node
  cases node with
  | root => rfl
  | mid j =>
    by_cases here : j = i
    · subst here
      rw [if_pos rfl]
      exact frameAt_mid inside linked.child_linked
    · rw [if_neg (by simpa using here)]
      by_cases bound : j < 512
      · simp only [frameAt, mids j bound here]
      · simp only [frameAt, bound, if_false]
  | low n =>
    rw [if_neg (by simp)]
    by_cases bound : n < 2 ^ 18
    · simp only [frameAt, lows n bound]
    · simp only [frameAt, bound, if_false]
  | page m =>
    rw [if_neg (by simp)]
    by_cases bound : m < 2 ^ 27
    · simp only [frameAt, pages m bound]
    · simp only [frameAt, bound, false_and, if_false]

/-- A fresh table linked into a middle one. -/
theorem Tables.link_low {before after : Memory} {root i mid j fresh : Nat} (tables : Tables before root)
    (inside : i < 512) (found : child before root i = some mid) (linked : Linked before after mid j fresh)
    (bound : j < 512) (unused : ∀ node, node.isTable = true → frameAt before root node ≠ some fresh)
    (empty : entryAt before mid j &&& V = 0) :
    Grafted before after root (.low (i * 512 + j)) fresh := by
  have kept : ∀ node f, node.isTable = true → node ≠ .mid i → frameAt before root node = some f →
      Memory.Agree before after f 4096 :=
    fun node f isTable other here => linked.kept tables (.mid i) rfl (frameAt_mid inside found) unused isTable other here
  have top := kept .root root rfl (by simp) rfl
  have mids : ∀ k, k < 512 → child after root k = child before root k := fun k small => child_congr top small
  have middles : ∀ n, n < 2 ^ 18 → n ≠ i * 512 + j → midOf after root n = midOf before root n := by
    intro n small other
    by_cases same : n / 512 = i
    · unfold midOf
      rw [same, mids i inside, found]
      exact linked.beside _ (by omega) (by omega)
    · exact midOf_congr (mids _ (by omega)) fun table there =>
        kept (.mid (n / 512)) table rfl (by simpa using same) (frameAt_mid (by omega) there)
  have lows : ∀ n, n < 2 ^ 18 → n ≠ i * 512 + j → lowAt after root n = lowAt before root n :=
    fun n small other => lowAt_congr (middles n small other)
  have split : (i * 512 + j) / 512 = i ∧ (i * 512 + j) % 512 = j := by omega
  have newLow : lowAt after root (i * 512 + j) = some fresh := by
    unfold lowAt
    rw [split.1, split.2, mids i inside, found]
    exact linked.child_linked
  have oldLow : lowAt before root (i * 512 + j) = none := by
    unfold lowAt
    rw [split.1, split.2, found]
    exact child_none empty
  have pages : ∀ m, m < 2 ^ 27 → pteOf after root m = pteOf before root m := by
    intro m small
    by_cases here : m / 512 = i * 512 + j
    · unfold pteOf
      rw [here, newLow, oldLow]
      exact linked.zeroed _ (by omega)
    · exact pteOf_congr (lows _ (by omega) here) fun low there =>
        kept (.low (m / 512)) low rfl (by simp) (frameAt_low (by omega) there)
  refine ⟨fun k small _ => entryAt_congr top small, fun n small other => middles n small (by simpa using other), pages, ?_⟩
  intro node
  cases node with
  | root => rfl
  | mid k =>
    rw [if_neg (by simp)]
    by_cases small : k < 512
    · simp only [frameAt, mids k small]
    · simp only [frameAt, small, if_false]
  | low n =>
    by_cases here : n = i * 512 + j
    · subst here
      rw [if_pos rfl]
      exact frameAt_low (by omega) newLow
    · rw [if_neg (by simpa using here)]
      by_cases small : n < 2 ^ 18
      · simp only [frameAt, lows n small here]
      · simp only [frameAt, small, if_false]
  | page m =>
    rw [if_neg (by simp)]
    by_cases small : m < 2 ^ 27
    · simp only [frameAt, pages m small]
    · simp only [frameAt, small, false_and, if_false]

/-- The frame a lowest-level entry holds, if it is a leaf on a pool frame. -/
def pageFrame (entry : Nat) : Option Nat := if IsLeaf entry ∧ IsFrame (ptePa entry) then some (ptePa entry) else none

/-- `after` is `before` with the lowest-level entry of page `page` rewritten. -/
structure Mapped (before after : Memory) (root page value : Nat) : Prop where
  top : ∀ i, i < 512 → entryAt after root i = entryAt before root i
  middles : ∀ n, n < 2 ^ 18 → midOf after root n = midOf before root n
  pages : ∀ m, m < 2 ^ 27 → pteOf after root m = if m = page then value else pteOf before root m
  tree : ∀ node, frameAt after root node = if node = .page page then pageFrame value else frameAt before root node

theorem Tables.write_leaf {before after : Memory} {root n low k value : Nat} (tables : Tables before root)
    (small : n < 2 ^ 18) (found : lowAt before root n = some low) (rewrites : Rewrites before after low k value)
    (bound : k < 512) : Mapped before after root (n * 512 + k) value := by
  have place := frameAt_low small found
  have lowFrame := tables.frames _ _ rfl place
  have kept : ∀ node f, node.isTable = true → node ≠ .low n → frameAt before root node = some f →
      Memory.Agree before after f 4096 := by
    intro node f isTable other here
    apply rewrites.agree lowFrame bound (tables.frames _ _ isTable here)
    rintro rfl
    exact other (tables.distinct _ _ _ isTable rfl here place)
  have top := kept .root root rfl (by simp) rfl
  have mids : ∀ i, i < 512 → child after root i = child before root i := fun i inside => child_congr top inside
  have middles : ∀ l, l < 2 ^ 18 → midOf after root l = midOf before root l := fun l inside =>
    midOf_congr (mids _ (by omega)) fun mid there => kept (.mid (l / 512)) mid rfl (by simp) (frameAt_mid (by omega) there)
  have lows : ∀ l, l < 2 ^ 18 → lowAt after root l = lowAt before root l := fun l inside => lowAt_congr (middles l inside)
  have pages : ∀ m, m < 2 ^ 27 → pteOf after root m = if m = n * 512 + k then value else pteOf before root m := by
    intro m inside
    by_cases here : m / 512 = n
    · unfold pteOf
      rw [lows _ (by omega), here, found]
      dsimp only
      by_cases same : m % 512 = k
      · rw [if_pos (by omega), same]
        exact rewrites.written
      · rw [if_neg (by omega)]
        exact rewrites.beside _ (by omega) same
    · rw [if_neg (by omega)]
      exact pteOf_congr (lows _ (by omega)) fun table there =>
        kept (.low (m / 512)) table rfl (by simpa using here) (frameAt_low (by omega) there)
  refine ⟨fun i inside => entryAt_congr top inside, middles, pages, ?_⟩
  intro node
  cases node with
  | root => rfl
  | mid i =>
    rw [if_neg (by simp)]
    by_cases inside : i < 512
    · simp only [frameAt, mids i inside]
    · simp only [frameAt, inside, if_false]
  | low l =>
    rw [if_neg (by simp)]
    by_cases inside : l < 2 ^ 18
    · simp only [frameAt, lows l inside]
    · simp only [frameAt, inside, if_false]
  | page m =>
    by_cases here : m = n * 512 + k
    · subst here
      have inside : n * 512 + k < 2 ^ 27 := by omega
      simp only [frameAt, pages _ inside, if_true, inside, true_and, pageFrame]
    · rw [if_neg (by simpa using here)]
      by_cases inside : m < 2 ^ 27
      · simp only [frameAt, pages m inside, if_neg here]
      · simp only [frameAt, inside, false_and, if_false]

theorem Mapped.tables {before after : Memory} {root page value : Nat} (mapped : Mapped before after root page value)
    (tables : Tables before root) : Tables after root := by
  have same : ∀ node, node.isTable = true → frameAt after root node = frameAt before root node := by
    intro node isTable
    rw [mapped.tree, if_neg (by rintro rfl; cases isTable)]
  refine ⟨fun node f isTable found => ?_, fun first second f isTable alsoTable left right => ?_⟩
  · rw [same node isTable] at found
    exact tables.frames node f isTable found
  · rw [same first isTable] at left
    rw [same second alsoTable] at right
    exact tables.distinct first second f isTable alsoTable left right

/-- Leaves stay where `Shape` has them when a table is added. -/
theorem Grafted.shape {before after : Memory} {root fresh : Nat} {place : Node} (grafted : Grafted before after root place fresh)
    (shape : Shape before root) (frame : IsFrame fresh) (unused : ∀ node, frameAt before root node ≠ some fresh)
    (vacant : ∀ i, place = .mid i → entryAt before root i &&& V = 0)
    (top : ∀ i, place = .mid i → entryAt after root i &&& permMask = 0)
    (middle : ∀ n, place = .low n → midOf after root n &&& permMask = 0) : Shape after root := by
  refine ⟨?_, ?_, ?_, ?_, ?_⟩
  · rw [grafted.top 2 (by decide), shape.giga]
    rintro rfl
    have empty := vacant 2 rfl
    rw [shape.giga] at empty
    exact leaf_valid _ (by decide) empty
  · intro i inside other
    by_cases here : place = .mid i
    · exact top i here
    · rw [grafted.top i inside (Ne.symm here)]
      exact shape.top i inside other
  · intro i mid inside found j bound
    refine middle_of_midOf (fun n small => ?_) inside found bound
    by_cases here : place = .low n
    · exact middle n here
    · rw [grafted.middles n small (Ne.symm here)]
      exact shape.midOf small
  · intro node f found
    rw [grafted.tree] at found
    split at found
    · cases found
      exact frame
    · exact shape.frames node f found
  · intro first second f left right
    exact distinct_update (fun _ => True) (fun first second f _ _ => shape.distinct first second f)
      (fun node _ => unused node) grafted.tree first second f trivial trivial left right

/-- And when a page not in the tree is mapped. -/
theorem Mapped.shape {before after : Memory} {root page value : Nat} (mapped : Mapped before after root page value)
    (shape : Shape before root) (unused : ∀ f node, pageFrame value = some f → frameAt before root node ≠ some f) :
    Shape after root := by
  refine ⟨?_, ?_, ?_, ?_, ?_⟩
  · rw [mapped.top 2 (by decide)]
    exact shape.giga
  · intro i inside other
    rw [mapped.top i inside]
    exact shape.top i inside other
  · intro i mid inside found j bound
    refine middle_of_midOf (fun n small => ?_) inside found bound
    rw [mapped.middles n small]
    exact shape.midOf small
  · intro node f there
    rw [mapped.tree] at there
    split at there
    · unfold pageFrame at there
      split at there
      · next leafy =>
        cases there
        exact leafy.2
      · cases there
    · exact shape.frames node f there
  · intro first second f left right
    rw [mapped.tree] at left right
    split at left <;> split at right
    · next here there => rw [here, there]
    · exact absurd right (unused f second left)
    · exact absurd left (unused f first right)
    · exact shape.distinct first second f left right

end Kernai.Mm
