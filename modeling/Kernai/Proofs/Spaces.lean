import Kernai.Proofs.Tables
import Mathlib.Data.List.Nodup

/-! Address spaces under construction. `Grows` says that a space is being built
out of frames that were free in `base`, and that everything live in `base` is
as it was; `map_page` keeps it. -/

namespace Kernai.Mm
open Hal Frames Foundation

/-- What a lowest-level entry may be: not a leaf, or a user leaf that is not both
writable and executable, on a pool frame or read-only past the pool. -/
def UserEntry (entry : Nat) : Prop := IsLeaf entry →
  entry &&& U ≠ 0 ∧ ¬ (entry &&& W ≠ 0 ∧ entry &&& X ≠ 0) ∧
    (IsFrame (ptePa entry) ∨ (poolEnd ≤ ptePa entry ∧ entry &&& W = 0 ∧ entry &&& X = 0))

structure Space (phys : Phys) (root : Nat) : Prop where
  shape : Shape phys.mem root
  entries : ∀ m, m < 2 ^ 27 → UserEntry (pteOf phys.mem root m)
  live : ∀ node f, frameAt phys.mem root node = some f → Live phys f

/-- `hand` is a frame allocated but not yet given to anyone. `tight` is the
assumption under which no frame is lost on the way. -/
structure Grows (tight : Prop) (base : Phys) (root : Nat) (hand : Option Nat) (phys : Phys) : Prop where
  space : Space phys root
  fresh : ∀ node f, frameAt phys.mem root node = some f → ¬ Live base f
  kept : ∀ f, Live base f → Live phys f ∧ Memory.Agree base.mem phys.mem f 4096
  outside : ∀ a, a < poolBase ∨ poolEnd ≤ a → phys.mem a = base.mem a
  held : ∀ f, hand = some f → Live phys f ∧ ¬ Live base f ∧ ∀ node, frameAt phys.mem root node ≠ some f
  complete : tight → ∀ f, Live phys f →
    Live base f ∨ (∃ node, frameAt phys.mem root node = some f) ∨ hand = some f
  control : SameControl base phys

/-- A live frame that is no table of the space. -/
def Bystander (phys : Phys) (root f : Nat) : Prop :=
  Live phys f ∧ ∀ node, node.isTable = true → frameAt phys.mem root node ≠ some f

/-- Bystanders remain so, byte for byte. -/
def Spared (before : Phys) (root : Nat) (after : Phys) : Prop :=
  ∀ f, Bystander before root f → Bystander after root f ∧ Memory.Agree before.mem after.mem f 4096

theorem Spared.refl (phys : Phys) (root : Nat) : Spared phys root phys :=
  fun _ bystander => ⟨bystander, .refl _ _ _⟩

theorem Spared.trans {first second third : Phys} {root : Nat} (left : Spared first root second)
    (right : Spared second root third) : Spared first root third := by
  intro f bystander
  obtain ⟨still, same⟩ := left f bystander
  obtain ⟨stillAgain, sameAgain⟩ := right f still
  exact ⟨stillAgain, same.trans sameAgain⟩

theorem writePte_live (phys : Phys) {table i value f : Nat} (frame : IsFrame table) (inside : i < 512) :
    Live (writePte phys (table + i * 8) value) f ↔ Live phys f := by
  rw [writePte_eq phys frame inside]
  rfl

theorem writePte_control (phys : Phys) {table i value : Nat} (frame : IsFrame table) (inside : i < 512) :
    SameControl phys (writePte phys (table + i * 8) value) := by
  rw [writePte_eq phys frame inside]
  exact ⟨rfl, rfl⟩

theorem writePte_rewrites (phys : Phys) (value : Nat) {table i : Nat} (frame : IsFrame table) (inside : i < 512)
    (small : value < 2 ^ 64) : Rewrites phys.mem (writePte phys (table + i * 8) value).mem table i value := by
  rw [writePte_eq phys frame inside]
  exact rewrites_write64 phys.mem small

theorem Rewrites.outside {before after : Memory} {table i value a : Nat}
    (rewrites : Rewrites before after table i value) (frame : IsFrame table) (inside : i < 512)
    (away : a < poolBase ∨ poolEnd ≤ a) : after a = before a := by
  have := frame.outside away
  exact rewrites.elsewhere a (by omega)

/-- Allocating a table and linking it. -/
theorem linked_of_alloc {before middle : Phys} {table i fresh : Nat} (allocated : Allocated before fresh middle)
    (live : Live before table) (inside : i < 512) :
    Linked before.mem (writePte middle (table + i * 8) (nonleaf fresh)).mem table i fresh := by
  have frame := live.isFrame
  have bounds := allocated.frame.bounds
  have other : table ≠ fresh := by
    rintro rfl
    exact allocated.fresh live
  have rewrites := writePte_rewrites middle (nonleaf fresh) frame inside
    (by rw [nonleaf_eq_encode]; exact encode_lt (by decide) (by omega))
  refine ⟨allocated.frame, rewrites.written, ?_, ?_, ?_⟩
  · intro j bound distinct
    rw [rewrites.beside j bound distinct]
    exact entryAt_congr (allocated.agree frame other) bound
  · intro j bound
    rw [entryAt_congr (rewrites.agree frame inside allocated.frame other.symm) bound]
    exact entryAt_zero allocated.zeroed bound
  · intro f isFrame notTable notFresh
    exact (allocated.agree isFrame notFresh).trans (rewrites.agree frame inside isFrame notTable)

/-- Between `before` and `after` just these frames were allocated. -/
structure Takes (before : Phys) (new : List Nat) (after : Phys) : Prop where
  live : ∀ f, Live after f ↔ Live before f ∨ f ∈ new
  fresh : ∀ f ∈ new, ¬ Live before f
  nodup : new.Nodup
  counted : after.allocated = before.allocated + new.length
  outside : ∀ a, a < poolBase ∨ poolEnd ≤ a → after.mem a = before.mem a
  control : SameControl before after

theorem Takes.refl (phys : Phys) : Takes phys [] phys where
  live f := by simp
  fresh := nofun
  nodup := .nil
  counted := rfl
  outside _ _ := rfl
  control := .refl phys

theorem Takes.trans {first second third : Phys} {new more : List Nat} (left : Takes first new second)
    (right : Takes second more third) : Takes first (new ++ more) third where
  live f := by rw [right.live, left.live, List.mem_append, or_assoc]
  fresh f member := by
    rcases List.mem_append.mp member with early | late
    · exact left.fresh f early
    · exact fun live => right.fresh f late ((left.live f).mpr (.inl live))
  nodup := by
    refine List.Nodup.append left.nodup right.nodup fun f early late => ?_
    exact right.fresh f late ((left.live f).mpr (.inr early))
  counted := by rw [right.counted, left.counted, List.length_append, Nat.add_assoc]
  outside a away := (right.outside a away).trans (left.outside a away)
  control := left.control.trans right.control

theorem takes_of_alloc {before after : Phys} {f : Nat} (allocated : Allocated before f after) :
    Takes before [f] after where
  live g := by rw [allocated.live, List.mem_singleton]
  fresh g member := by rw [List.mem_singleton.mp member]; exact allocated.fresh
  nodup := List.nodup_singleton f
  counted := allocated.counted
  outside a away := allocated.kept a (allocated.frame.outside away)
  control := allocated.control

theorem writePte_takes (phys : Phys) {table i value : Nat} (frame : IsFrame table) (inside : i < 512)
    (small : value < 2 ^ 64) : Takes phys [] (writePte phys (table + i * 8) value) where
  live f := by rw [writePte_live phys frame inside]; simp
  fresh := nofun
  nodup := .nil
  counted := by rw [writePte_eq phys frame inside]; rfl
  outside a away := (writePte_rewrites phys value frame inside small).outside frame inside away
  control := writePte_control phys frame inside

/-- A tree whose tables lie in live frames, each in its own. This is all `map_page`
needs of a space; its leaves may be anywhere. -/
structure Tree (phys : Phys) (root : Nat) : Prop where
  tables : Tables phys.mem root
  live : ∀ node f, node.isTable = true → frameAt phys.mem root node = some f → Live phys f

/-- A tree of the kind payloads have, whose pages are live as well. -/
structure Framed (phys : Phys) (root : Nat) : Prop where
  shape : Shape phys.mem root
  live : ∀ node f, frameAt phys.mem root node = some f → Live phys f

theorem Framed.tree {phys : Phys} {root : Nat} (framed : Framed phys root) : Tree phys root :=
  ⟨framed.shape.tables, fun node f _ => framed.live node f⟩

theorem Space.framed {phys : Phys} {root : Nat} (space : Space phys root) : Framed phys root := ⟨space.shape, space.live⟩

/-- An entry as far as translation is concerned. -/
def leafOf (entry : Nat) : Option Nat := if IsLeaf entry then some entry else none

/-- Tables were added to the tree, and nothing else happened. -/
structure Extends (root : Nat) (new : List Nat) (before after : Phys) : Prop where
  takes : Takes before new after
  tree : Tree after root
  spared : Spared before root after
  top : ∀ i, i < 512 → leafOf (entryAt after.mem root i) = leafOf (entryAt before.mem root i)
  middles : ∀ n, n < 2 ^ 18 → leafOf (midOf after.mem root n) = leafOf (midOf before.mem root n)
  pages : ∀ m, m < 2 ^ 27 → pteOf after.mem root m = pteOf before.mem root m
  grew : ∀ node f, frameAt before.mem root node = some f → frameAt after.mem root node = some f
  only : ∀ node f, frameAt after.mem root node = some f → frameAt before.mem root node = some f ∨ f ∈ new
  placed : ∀ f ∈ new, ∃ node, frameAt after.mem root node = some f
  framed : Framed before root → Framed after root

theorem Extends.refl {phys : Phys} {root : Nat} (tree : Tree phys root) : Extends root [] phys phys where
  takes := .refl phys
  tree := tree
  spared := .refl phys root
  top _ _ := rfl
  middles _ _ := rfl
  pages _ _ := rfl
  grew _ _ found := found
  only _ _ found := .inl found
  placed := nofun
  framed := id

theorem Extends.trans {root : Nat} {new more : List Nat} {first second third : Phys} (left : Extends root new first second)
    (right : Extends root more second third) : Extends root (new ++ more) first third where
  takes := left.takes.trans right.takes
  tree := right.tree
  spared := left.spared.trans right.spared
  top i inside := (right.top i inside).trans (left.top i inside)
  middles n inside := (right.middles n inside).trans (left.middles n inside)
  pages m inside := (right.pages m inside).trans (left.pages m inside)
  grew node f found := right.grew node f (left.grew node f found)
  only node f found := by
    rcases right.only node f found with early | late
    · exact (left.only node f early).imp_right (List.mem_append_left more)
    · exact .inr (List.mem_append_right new late)
  placed f member := by
    rcases List.mem_append.mp member with early | late
    · obtain ⟨node, found⟩ := left.placed f early
      exact ⟨node, right.grew node f found⟩
    · exact right.placed f late
  framed before := right.framed (left.framed before)

/-- The entry of the tree that `next_table` looks at, with the place it fills. -/
inductive Descends (mem : Memory) (root table i : Nat) : Node → Node → Prop
  | top (here : table = root) : Descends mem root table i .root (.mid i)
  | middle (above : Nat) (inside : above < 512) (here : child mem root above = some table) :
      Descends mem root table i (.mid above) (.low (above * 512 + i))

theorem Descends.parent {mem : Memory} {root table i : Nat} {parent place : Node}
    (descends : Descends mem root table i parent place) : frameAt mem root parent = some table := by
  cases descends with
  | top here => rw [here]; rfl
  | middle above inside here => exact frameAt_mid inside here

theorem Descends.isTable {mem : Memory} {root table i : Nat} {parent place : Node}
    (descends : Descends mem root table i parent place) : parent.isTable = true ∧ place.isTable = true := by
  cases descends <;> exact ⟨rfl, rfl⟩

theorem Descends.child_eq {mem : Memory} {root table i : Nat} {parent place : Node} (bound : i < 512)
    (descends : Descends mem root table i parent place) : frameAt mem root place = child mem table i := by
  cases descends with
  | top here => simp only [frameAt, bound, if_true, here]
  | middle above inside here =>
    have small : above * 512 + i < 2 ^ 18 := by omega
    simp only [frameAt, small, if_true, lowAt, show (above * 512 + i) / 512 = above by omega,
      show (above * 512 + i) % 512 = i by omega, here, Option.bind_some]

private theorem leafOf_invalid {entry : Nat} (invalid : entry &&& V = 0) : leafOf entry = none :=
  if_neg fun leafy => leafy.1 invalid

private theorem leafOf_nonleaf (pa : Nat) : leafOf (nonleaf pa) = none := by
  refine if_neg fun leafy => leafy.2 ?_
  rw [nonleaf_and _ (by decide)]
  rfl

/-- A fresh table linked below an empty entry. -/
theorem Tree.link {phys middle : Phys} {root table i fresh : Nat} {parent place : Node} (tree : Tree phys root)
    (descends : Descends phys.mem root table i parent place) (inside : i < 512)
    (allocated : Allocated phys fresh middle) (empty : entryAt phys.mem table i &&& V = 0) :
    Extends root [fresh] phys (writePte middle (table + i * 8) (nonleaf fresh)) ∧
      frameAt (writePte middle (table + i * 8) (nonleaf fresh)).mem root place = some fresh := by
  have live := tree.live _ _ descends.isTable.1 descends.parent
  have frame := live.isFrame
  have linked := linked_of_alloc allocated live inside
  have unused : ∀ node, node.isTable = true → frameAt phys.mem root node ≠ some fresh :=
    fun node isTable found => allocated.fresh (tree.live node fresh isTable found)
  have vacant : frameAt phys.mem root place = none := by
    rw [descends.child_eq inside]
    exact child_none empty
  have takes := (takes_of_alloc allocated).trans (writePte_takes middle frame inside
    (by rw [nonleaf_eq_encode]; exact encode_lt (by decide) (by have := allocated.frame.bounds; omega) : nonleaf fresh < 2 ^ 64))
  rw [List.append_nil] at takes
  have grafted : Grafted phys.mem (writePte middle (table + i * 8) (nonleaf fresh)).mem root place fresh := by
    cases descends with
    | top isRoot =>
      subst isRoot
      exact tree.tables.link_mid linked inside unused empty
    | middle above small isMid => exact tree.tables.link_low small isMid linked inside unused empty
  have notFresh : ∀ f, Live phys f → f ≠ fresh := by
    rintro f isLive rfl
    exact allocated.fresh isLive
  generalize writePte middle (table + i * 8) (nonleaf fresh) = after at *
  have written : ∀ j, place = .mid j → entryAt after.mem root j = nonleaf fresh ∧ entryAt phys.mem root j &&& V = 0 := by
    rintro j rfl
    cases descends with
    | top isRoot =>
      subst isRoot
      exact ⟨linked.written, empty⟩
  have writtenBelow : ∀ n, place = .low n → midOf after.mem root n = nonleaf fresh ∧ midOf phys.mem root n &&& V = 0 := by
    rintro n rfl
    cases descends with
    | middle above small isMid =>
      rw [midOf_eq isMid inside]
      refine ⟨?_, empty⟩
      have still : child after.mem root above = some table := by
        have := grafted.tree (.mid above)
        rw [if_neg (by simp), frameAt_mid small isMid] at this
        simpa [frameAt, small] using this
      rw [midOf_eq still inside]
      exact linked.written
  refine ⟨⟨takes, ⟨grafted.tables tree.tables allocated.frame unused, ?_⟩, ?_, ?_, ?_, grafted.pages, ?_, ?_, ?_, ?_⟩, ?_⟩
  · intro node f isTable found
    rw [grafted.tree] at found
    rw [takes.live]
    split at found
    · cases found
      exact .inr (by simp)
    · exact .inl (tree.live node f isTable found)
  · rintro f ⟨isLive, apart⟩
    refine ⟨⟨(takes.live f).mpr (.inl isLive), fun node isTable found => ?_⟩,
      linked.elsewhere f isLive.isFrame ?_ (notFresh f isLive)⟩
    · rw [grafted.tree] at found
      split at found
      · exact notFresh f isLive (Option.some.inj found).symm
      · exact apart node isTable found
    · rintro rfl
      exact apart parent descends.isTable.1 descends.parent
  · intro j bound
    by_cases here : place = .mid j
    · rw [(written j here).1, leafOf_nonleaf, leafOf_invalid (written j here).2]
    · rw [grafted.top j bound (Ne.symm here)]
  · intro n bound
    by_cases here : place = .low n
    · rw [(writtenBelow n here).1, leafOf_nonleaf, leafOf_invalid (writtenBelow n here).2]
    · rw [grafted.middles n bound (Ne.symm here)]
  · intro node f found
    rw [grafted.tree, if_neg, found]
    rintro rfl
    rw [vacant] at found
    cases found
  · intro node f found
    rw [grafted.tree] at found
    split at found
    · exact .inr (by simpa using found.symm)
    · exact .inl found
  · intro f member
    refine ⟨place, ?_⟩
    rw [grafted.tree, if_pos rfl, List.mem_singleton.mp member]
  · intro framed
    refine ⟨grafted.shape framed.shape allocated.frame ?_ ?_ ?_ ?_, ?_⟩
    · exact fun node found => allocated.fresh (framed.live node fresh found)
    · exact fun j here => (written j here).2
    · intro j here
      rw [(written j here).1, nonleaf_and _ (by decide)]
      rfl
    · intro n here
      rw [(writtenBelow n here).1, nonleaf_and _ (by decide)]
      rfl
    · intro node f found
      rw [grafted.tree] at found
      rw [takes.live]
      split at found
      · cases found
        exact .inr (by simp)
      · exact .inl (framed.live node f found)
  · rw [grafted.tree, if_pos rfl]

/-- How `next_table` ends: what it found in the entry, and what it did about it. -/
inductive Descended (phys after : Phys) (root table i : Nat) (place : Node) : Except MmError Nat → Prop
  | exhausted (empty : entryAt phys.mem table i &&& V = 0) : Descended phys after root table i place (.error .noFrame)
  | covered (leafy : IsLeaf (entryAt phys.mem table i)) : Descended phys after root table i place (.error .overlap)
  | entered (next : Nat) (unleafed : ¬ IsLeaf (entryAt phys.mem table i)) (found : frameAt after.mem root place = some next) :
      Descended phys after root table i place (.ok next)

theorem nextTable_extends {phys after : Phys} {root table va level : Nat} {parent place : Node}
    {result : Except MmError Nat} (tree : Tree phys root)
    (descends : Descends phys.mem root table (vpn va level) parent place)
    (ran : nextTable phys table va level = (result, after)) :
    (∃ new, Extends root new phys after) ∧ Descended phys after root table (vpn va level) place result := by
  have bound := vpn_lt va level
  have live := tree.live _ _ descends.isTable.1 descends.parent
  unfold nextTable at ran
  simp only [readPte_eq phys live.isFrame bound] at ran
  split at ran
  · next empty =>
    split at ran
    · next failed allocFailed =>
      obtain ⟨rfl, rfl⟩ := Prod.mk.inj ran
      rw [alloc_none allocFailed]
      exact ⟨⟨[], .refl tree⟩, .exhausted empty⟩
    · next fresh middle allocated =>
      obtain ⟨rfl, rfl⟩ := Prod.mk.inj ran
      obtain ⟨extended, found⟩ := tree.link descends bound (alloc_some allocated) empty
      exact ⟨⟨[fresh], extended⟩, .entered fresh (fun leafy => leafy.1 empty) found⟩
  · next valid =>
    split at ran
    · next leafy =>
      obtain ⟨rfl, rfl⟩ := Prod.mk.inj ran
      exact ⟨⟨[], .refl tree⟩, .covered ⟨valid, leafy⟩⟩
    · next pointer =>
      obtain ⟨rfl, rfl⟩ := Prod.mk.inj ran
      refine ⟨⟨[], .refl tree⟩, .entered _ (fun leafy => pointer leafy.2) ?_⟩
      rw [descends.child_eq bound, child, if_pos ⟨valid, not_not.mp pointer⟩]

theorem leafOf_iff {first second : Nat} (same : leafOf first = leafOf second) : IsLeaf first ↔ IsLeaf second := by
  unfold leafOf at same
  by_cases left : IsLeaf first <;> by_cases right : IsLeaf second <;> simp_all

/-- The page of `va` is covered by a leaf, or its lowest-level entry is taken. -/
def Covered (mem : Memory) (root va : Nat) : Prop :=
  IsLeaf (entryAt mem root (vpn va 2)) ∨ IsLeaf (midOf mem root (pageNumber va / 512)) ∨
    pteOf mem root (pageNumber va) &&& V ≠ 0

/-- How `map_page` ends, with the tables it added on the way in place. -/
inductive Ends (phys middle : Phys) (root va pa perms : Nat) : Except MmError Unit → Phys → Prop
  | exhausted (free : ¬ Covered phys.mem root va) : Ends phys middle root va pa perms (.error .noFrame) middle
  | covered (taken : Covered phys.mem root va) : Ends phys middle root va pa perms (.error .overlap) middle
  | mapped (low : Nat) (free : ¬ Covered phys.mem root va)
      (found : lowAt middle.mem root (pageNumber va / 512) = some low)
      (empty : entryAt middle.mem low (vpn va 0) &&& V = 0) :
      Ends phys middle root va pa perms (.ok ()) (writePte middle (low + vpn va 0 * 8) (leaf pa perms))

theorem mapPage_ends {phys after : Phys} {root va pa perms : Nat} {result : Except MmError Unit} (tree : Tree phys root)
    (ran : mapPage phys root va pa perms = (result, after)) :
    ∃ new middle, Extends root new phys middle ∧ Ends phys middle root va pa perms result after := by
  have pageSmall := pageNumber_lt va
  have index : vpn va 2 * 512 + vpn va 1 = pageNumber va / 512 := by
    rw [vpn_two, vpn_one]
    omega
  have topIndex : pageNumber va / 512 / 512 = vpn va 2 := (vpn_two va).symm
  unfold mapPage at ran
  generalize entered : nextTable phys root va 2 = step at ran
  obtain ⟨first, middle⟩ := step
  obtain ⟨⟨new, extended⟩, descended⟩ := nextTable_extends tree (.top rfl) entered
  cases descended with
  | exhausted empty =>
    obtain ⟨rfl, rfl⟩ := Prod.mk.inj ran
    refine ⟨new, middle, extended, .exhausted ?_⟩
    have noMid : child phys.mem root (pageNumber va / 512 / 512) = none := by
      rw [topIndex]
      exact child_none empty
    rintro (leafy | leafy | taken)
    · exact leafy.1 empty
    · simp [midOf, noMid, IsLeaf] at leafy
    · simp [pteOf, lowAt, noMid] at taken
  | covered leafy =>
    obtain ⟨rfl, rfl⟩ := Prod.mk.inj ran
    exact ⟨new, middle, extended, .covered (.inl leafy)⟩
  | entered mid topBare found =>
    have isMid : child middle.mem root (vpn va 2) = some mid := by
      simpa [frameAt, vpn_lt va 2] using found
    have midEntry : midOf middle.mem root (pageNumber va / 512) = entryAt middle.mem mid (vpn va 1) := by
      rw [← index]
      exact midOf_eq isMid (vpn_lt va 1)
    have sameLeaf := leafOf_iff (extended.middles (pageNumber va / 512) (by omega))
    rw [midEntry] at sameLeaf
    dsimp only at ran
    generalize enteredAgain : nextTable middle mid va 1 = step at ran
    obtain ⟨second, lower⟩ := step
    obtain ⟨⟨more, extendedAgain⟩, descendedAgain⟩ :=
      nextTable_extends extended.tree (.middle _ (vpn_lt va 2) isMid) enteredAgain
    have whole := extended.trans extendedAgain
    cases descendedAgain with
    | exhausted empty =>
      obtain ⟨rfl, rfl⟩ := Prod.mk.inj ran
      refine ⟨_, lower, whole, .exhausted ?_⟩
      rintro (leafy | leafy | taken)
      · exact topBare leafy
      · exact (sameLeaf.mpr leafy).1 empty
      · rw [← extended.pages _ pageSmall] at taken
        have noLow : lowAt middle.mem root (pageNumber va / 512) = none := by
          unfold lowAt
          rw [topIndex, isMid, ← vpn_one]
          exact child_none empty
        simp [pteOf, noLow] at taken
    | covered leafy =>
      obtain ⟨rfl, rfl⟩ := Prod.mk.inj ran
      exact ⟨_, lower, whole, .covered (.inr (.inl (sameLeaf.mp leafy)))⟩
    | entered low midBare foundAgain =>
      have small : pageNumber va / 512 < 2 ^ 18 := by omega
      have isLow : lowAt lower.mem root (pageNumber va / 512) = some low := by
        rw [index] at foundAgain
        simpa only [frameAt, small, if_true] using foundAgain
      have isEntry : pteOf phys.mem root (pageNumber va) = entryAt lower.mem low (vpn va 0) := by
        rw [← whole.pages _ pageSmall, pteOf, isLow, vpn_zero]
      have live := whole.tree.live _ _ rfl (frameAt_low small isLow)
      dsimp only [mapLeaf] at ran
      rw [readPte_eq lower live.isFrame (vpn_lt va 0)] at ran
      split at ran
      · next taken =>
        obtain ⟨rfl, rfl⟩ := Prod.mk.inj ran
        exact ⟨_, lower, whole, .covered (.inr (.inr (by rw [isEntry]; exact taken)))⟩
      · next vacant =>
        obtain ⟨rfl, rfl⟩ := Prod.mk.inj ran
        rw [not_not] at vacant
        refine ⟨_, lower, whole, .mapped low ?_ isLow vacant⟩
        rintro (leafy | leafy | taken)
        · exact topBare leafy
        · exact midBare (sameLeaf.mpr leafy)
        · rw [isEntry] at taken
          exact taken vacant

/-- Writing the leaf changes one entry of the tree. -/
theorem Tree.write_leaf {phys : Phys} {root low pa perms : Nat} (tree : Tree phys root) (va : Nat)
    (found : lowAt phys.mem root (pageNumber va / 512) = some low) (small : perms < 64) (inside : pa < 2 ^ 56) :
    Mapped phys.mem (writePte phys (low + vpn va 0 * 8) (leaf pa perms)).mem root (pageNumber va) (leaf pa perms) ∧
      Takes phys [] (writePte phys (low + vpn va 0 * 8) (leaf pa perms)) ∧
      Spared phys root (writePte phys (low + vpn va 0 * 8) (leaf pa perms)) := by
  have pageSmall := pageNumber_lt va
  have place := frameAt_low (show pageNumber va / 512 < 2 ^ 18 by omega) found
  have live := tree.live _ _ rfl place
  have fits : leaf pa perms < 2 ^ 64 := by
    rw [leaf_eq_encode]
    exact encode_lt (leaf_flags_lt small) inside
  have rewrites := writePte_rewrites phys (leaf pa perms) live.isFrame (vpn_lt va 0) fits
  have mapped := tree.tables.write_leaf (by omega) found rewrites (vpn_lt va 0)
  rw [vpn_zero, Nat.div_add_mod'] at mapped
  rw [← vpn_zero] at mapped
  refine ⟨mapped, writePte_takes phys live.isFrame (vpn_lt va 0) fits, ?_⟩
  rintro f ⟨isLive, apart⟩
  have notLow : f ≠ low := by
    rintro rfl
    exact apart _ rfl place
  refine ⟨⟨(writePte_live phys live.isFrame (vpn_lt va 0)).mpr isLive, fun node isTable there => ?_⟩,
    rewrites.agree live.isFrame (vpn_lt va 0) isLive.isFrame notLow⟩
  rw [mapped.tree, if_neg (by rintro rfl; cases isTable)] at there
  exact apart node isTable there

/-- Adding tables to the tree under construction. -/
theorem Grows.extend {tight : Prop} {base phys after : Phys} {root : Nat} {hand : Option Nat} {new : List Nat}
    (grows : Grows tight base root hand phys) (extended : Extends root new phys after) :
    Grows tight base root hand after := by
  have framed := extended.framed grows.space.framed
  have notOld : ∀ f ∈ new, ¬ Live base f := fun f member old => extended.takes.fresh f member (grows.kept f old).1
  refine ⟨⟨framed.shape, ?_, framed.live⟩, ?_, ?_, ?_, ?_, ?_, grows.control.trans extended.takes.control⟩
  · intro m inside
    rw [extended.pages m inside]
    exact grows.space.entries m inside
  · intro node f found
    rcases extended.only node f found with early | late
    · exact grows.fresh node f early
    · exact notOld f late
  · intro f old
    obtain ⟨kept, same⟩ := grows.kept f old
    obtain ⟨still, sameAgain⟩ := extended.spared f ⟨kept, fun node _ found => grows.fresh node f found old⟩
    exact ⟨still.1, same.trans sameAgain⟩
  · intro a away
    exact (extended.takes.outside a away).trans (grows.outside a away)
  · intro f isHand
    obtain ⟨kept, fresh, unplaced⟩ := grows.held f isHand
    refine ⟨(extended.takes.live f).mpr (.inl kept), fresh, fun node found => ?_⟩
    rcases extended.only node f found with early | late
    · exact unplaced node early
    · exact extended.takes.fresh f late kept
  · intro assumed f now
    rcases (extended.takes.live f).mp now with before | isNew
    · rcases grows.complete assumed f before with old | ⟨node, found⟩ | isHand
      · exact .inl old
      · exact .inr (.inl ⟨node, extended.grew node f found⟩)
      · exact .inr (.inr isHand)
    · exact .inr (.inl (extended.placed f isNew))

/-- Permissions a user page may be mapped with. -/
def UserPerms (perms : Nat) : Prop := perms < 32 ∧ perms &&& U ≠ 0 ∧ ¬ (perms &&& W ≠ 0 ∧ perms &&& X ≠ 0)

/-- What `map_page` may be asked to map: the frame in hand, or a page past the
pool, read-only. -/
inductive Mappable (tight : Prop) (hand : Option Nat) (pa perms : Nat) : Prop
  | page (inHand : hand = some pa) (visible : tight → perms &&& permMask ≠ 0)
  | window (empty : hand = none) (beyond : poolEnd ≤ pa) (aligned : pa % 4096 = 0) (small : pa < 2 ^ 56)
      (readOnly : perms = R ||| U)

theorem leaf_userEntry {pa perms : Nat} {tight : Prop} {hand : Option Nat} (user : UserPerms perms)
    (mappable : Mappable tight hand pa perms) (live : ∀ f, hand = some f → IsFrame f) :
    UserEntry (leaf pa perms) := by
  obtain ⟨small, isUser, exclusive⟩ := user
  intro _
  have flags : ∀ mask, mask < 64 → mask % 2 = 0 → leaf pa perms &&& mask = perms &&& mask :=
    fun mask inside even => leaf_and pa (by omega) inside even
  rw [flags U (by decide) (by decide), flags W (by decide) (by decide), flags X (by decide) (by decide)]
  refine ⟨isUser, exclusive, ?_⟩
  cases mappable with
  | page inHand visible =>
    have frame := live pa inHand
    have bounds := frame.bounds
    rw [ptePa_leaf (by omega) bounds.2.2 (by omega)]
    exact .inl frame
  | window empty beyond aligned bound readOnly =>
    rw [ptePa_leaf (by omega) aligned bound, readOnly]
    exact .inr ⟨beyond, rfl, rfl⟩

theorem pageFrame_leaf {pa perms f : Nat} (small : perms < 64) (aligned : pa % 4096 = 0) (inside : pa < 2 ^ 56)
    (found : pageFrame (leaf pa perms) = some f) : f = pa ∧ IsFrame pa := by
  unfold pageFrame at found
  rw [ptePa_leaf small aligned inside] at found
  split at found
  · next leafy =>
    cases found
    exact ⟨rfl, leafy.2⟩
  · cases found

/-- Writing the leaf hands the frame over to the tree. -/
theorem Grows.write_leaf {tight : Prop} {base phys : Phys} {root va low pa perms : Nat} {hand : Option Nat}
    (grows : Grows tight base root hand phys) (found : lowAt phys.mem root (pageNumber va / 512) = some low)
    (empty : entryAt phys.mem low (vpn va 0) &&& V = 0) (user : UserPerms perms) (mappable : Mappable tight hand pa perms) :
    Grows tight base root none (writePte phys (low + vpn va 0 * 8) (leaf pa perms)) := by
  have frameOf : ∀ f, hand = some f → IsFrame f := fun f isHand => (grows.held f isHand).1.isFrame
  have permsSmall : perms < 64 := by
    have := user.1
    omega
  have address : pa % 4096 = 0 ∧ pa < 2 ^ 56 := by
    cases mappable with
    | page inHand visible =>
      have bounds := (frameOf pa inHand).bounds
      omega
    | window _ _ aligned inside _ => exact ⟨aligned, inside⟩
  have isPage : ∀ f, pageFrame (leaf pa perms) = some f → hand = some f := by
    intro f isFrame
    obtain ⟨rfl, pool⟩ := pageFrame_leaf permsSmall address.1 address.2 isFrame
    cases mappable with
    | page inHand visible => exact inHand
    | window _ beyond _ _ _ =>
      have := pool.2.1
      omega
  obtain ⟨mapped, takes, spared⟩ := grows.space.framed.tree.write_leaf va found permsSmall address.2
  have lives : ∀ f, Live (writePte phys (low + vpn va 0 * 8) (leaf pa perms)) f ↔ Live phys f := by
    intro f
    rw [takes.live]
    simp
  have vacant : frameAt phys.mem root (.page (pageNumber va)) = none := by
    have invalid : pteOf phys.mem root (pageNumber va) &&& V = 0 := by
      rw [pteOf, found]
      rw [vpn_zero] at empty
      exact empty
    simp [frameAt, IsLeaf, invalid]
  generalize writePte phys (low + vpn va 0 * 8) (leaf pa perms) = after at *
  refine ⟨⟨mapped.shape grows.space.shape fun f node isFrame => (grows.held f (isPage f isFrame)).2.2 node, ?_, ?_⟩,
    ?_, ?_, ?_, (by simp), ?_, grows.control.trans takes.control⟩
  · intro m inside
    rw [mapped.pages m inside]
    split
    · exact leaf_userEntry user mappable frameOf
    · exact grows.space.entries m inside
  · intro node f there
    rw [mapped.tree] at there
    rw [lives]
    split at there
    · exact (grows.held f (isPage f there)).1
    · exact grows.space.live node f there
  · intro node f there
    rw [mapped.tree] at there
    split at there
    · exact (grows.held f (isPage f there)).2.1
    · exact grows.fresh node f there
  · intro f old
    obtain ⟨kept, same⟩ := grows.kept f old
    obtain ⟨still, sameAgain⟩ := spared f ⟨kept, fun node _ there => grows.fresh node f there old⟩
    exact ⟨still.1, same.trans sameAgain⟩
  · intro a away
    exact (takes.outside a away).trans (grows.outside a away)
  · intro assumed f now
    rcases grows.complete assumed f ((lives f).mp now) with inBase | ⟨node, there⟩ | isHand
    · exact .inl inBase
    · refine .inr (.inl ⟨node, ?_⟩)
      rw [mapped.tree, if_neg, there]
      rintro rfl
      rw [vacant] at there
      cases there
    · refine .inr (.inl ⟨.page (pageNumber va), ?_⟩)
      rw [mapped.tree, if_pos rfl]
      cases mappable with
      | page inHand visible =>
        rw [inHand] at isHand
        cases isHand
        have isLeaf : IsLeaf (leaf pa perms) := by
          refine ⟨leaf_valid pa permsSmall, ?_⟩
          rw [leaf_and pa permsSmall (by decide) (by decide)]
          exact visible assumed
        rw [pageFrame, ptePa_leaf permsSmall address.1 address.2, if_pos ⟨isLeaf, frameOf pa inHand⟩]
      | window nothing _ _ _ _ =>
        rw [nothing] at isHand
        cases isHand

/-- `map_page`: on success the page is mapped and the frame has changed hands; on
failure at most empty tables were added. -/
theorem mapPage_grows {tight : Prop} {base phys after : Phys} {root va pa perms : Nat} {hand : Option Nat}
    {result : Except MmError Unit} (grows : Grows tight base root hand phys) (user : UserPerms perms)
    (mappable : Mappable tight hand pa perms) (ran : mapPage phys root va pa perms = (result, after)) :
    Spared phys root after ∧
    ((result = .ok () ∧ Grows tight base root none after ∧
      ∀ m, m < 2 ^ 27 → pteOf after.mem root m = if m = pageNumber va then leaf pa perms else pteOf phys.mem root m) ∨
    (result ≠ .ok () ∧ Grows tight base root hand after ∧
      ∀ m, m < 2 ^ 27 → pteOf after.mem root m = pteOf phys.mem root m)) := by
  obtain ⟨new, middle, extended, ends⟩ := mapPage_ends grows.space.framed.tree ran
  have grown := grows.extend extended
  cases ends with
  | exhausted free => exact ⟨extended.spared, .inr ⟨by simp, grown, extended.pages⟩⟩
  | covered taken => exact ⟨extended.spared, .inr ⟨by simp, grown, extended.pages⟩⟩
  | mapped low free found empty =>
    have permsSmall : perms < 64 := by
      have := user.1
      omega
    have small : pa < 2 ^ 56 := by
      cases mappable with
      | page inHand visible =>
        have bounds := (grows.held pa inHand).1.isFrame.bounds
        omega
      | window _ _ _ inside _ => exact inside
    obtain ⟨mapped, -, spared⟩ := extended.tree.write_leaf va found permsSmall small
    refine ⟨extended.spared.trans spared, .inl ⟨rfl, grown.write_leaf found empty user mappable, ?_⟩⟩
    intro m inside
    rw [mapped.pages m inside, extended.pages m inside]

end Kernai.Mm
