import Mathlib.Logic.Function.Basic
import Kernai.Proofs.Copy

/-! Ownership of pool frames. Every owner has at most one address space and at
most one saved register frame; a frame plays one role for one owner. -/

namespace Kernai.Mm
open Hal Frames Foundation

variable {ι : Type} {tight : Prop} {base phys after : Phys}

/-- What an owner uses a frame for. -/
inductive Role where
  | node (place : Node)
  | saved

@[ext] structure Estate (ι : Type) where
  root : ι → Option Nat
  saved : ι → Option Nat

namespace Estate

/-- The frame that plays this role for this owner. -/
def holds (estate : Estate ι) (mem : Memory) (owner : ι) : Role → Option Nat
  | .node place => (estate.root owner).bind (frameAt mem · place)
  | .saved => estate.saved owner

theorem holds_node {estate : Estate ι} {mem : Memory} {owner : ι} {place : Node} {f : Nat} :
    estate.holds mem owner (.node place) = some f ↔
      ∃ root, estate.root owner = some root ∧ frameAt mem root place = some f :=
  Option.bind_eq_some_iff

variable [DecidableEq ι]

def give (estate : Estate ι) (owner : ι) (root saved : Option Nat) : Estate ι where
  root := Function.update estate.root owner root
  saved := Function.update estate.saved owner saved

end Estate

structure Owned (tight : Prop) (phys : Phys) (estate : Estate ι) : Prop where
  spaces : ∀ owner root, estate.root owner = some root → Space phys root
  live : ∀ owner f, estate.saved owner = some f → Live phys f
  apart : ∀ owner role other role' f, estate.holds phys.mem owner role = some f →
    estate.holds phys.mem other role' = some f → owner = other ∧ role = role'
  complete : tight → ∀ f, Live phys f → ∃ owner role, estate.holds phys.mem owner role = some f

theorem Owned.holds_live {estate : Estate ι} (owned : Owned tight phys estate) {owner : ι} {role : Role} {f : Nat}
    (held : estate.holds phys.mem owner role = some f) : Live phys f := by
  cases role with
  | node place =>
    obtain ⟨root, isRoot, found⟩ := Estate.holds_node.mp held
    exact (owned.spaces owner root isRoot).live place f found
  | saved => exact owned.live owner f held

/-- A space whose tables are left alone and whose frames stay allocated. -/
theorem Space.persist {root : Nat} (space : Space phys root)
    (tables : ∀ node f, node.isTable = true → frameAt phys.mem root node = some f → Memory.Agree phys.mem after.mem f 4096)
    (live : ∀ node f, frameAt phys.mem root node = some f → Live after f) :
    Space after root ∧ ∀ node, frameAt after.mem root node = frameAt phys.mem root node := by
  obtain ⟨pages, tree⟩ := space.shape.pteOf_frame tables
  refine ⟨⟨space.shape.frame tables, ?_, ?_⟩, tree⟩
  · intro m inside
    rw [pages m inside]
    exact space.entries m inside
  · intro node f found
    rw [tree] at found
    exact live node f found

/-- Owners may lose what they held, but nobody gains anything. -/
theorem Owned.rebuild {estate estate' : Estate ι} (owned : Owned tight phys estate)
    (roots : ∀ owner root, estate'.root owner = some root → estate.root owner = some root)
    (saves : ∀ owner f, estate'.saved owner = some f → estate.saved owner = some f)
    (tables : ∀ owner node f, node.isTable = true → estate'.holds phys.mem owner (.node node) = some f →
      Memory.Agree phys.mem after.mem f 4096)
    (live : ∀ owner role f, estate'.holds phys.mem owner role = some f → Live after f)
    (complete : tight → ∀ f, Live after f → ∃ owner role, estate'.holds phys.mem owner role = some f) :
    Owned tight after estate' ∧ ∀ owner role, estate'.holds after.mem owner role = estate'.holds phys.mem owner role := by
  have persists : ∀ owner root, estate'.root owner = some root →
      Space after root ∧ ∀ node, frameAt after.mem root node = frameAt phys.mem root node := by
    intro owner root isRoot
    refine (owned.spaces owner root (roots owner root isRoot)).persist ?_ ?_
    · exact fun node f table found => tables owner node f table (Estate.holds_node.mpr ⟨root, isRoot, found⟩)
    · exact fun node f found => live owner (.node node) f (Estate.holds_node.mpr ⟨root, isRoot, found⟩)
  have held : ∀ owner role, estate'.holds after.mem owner role = estate'.holds phys.mem owner role := by
    intro owner role
    cases role with
    | node place =>
      cases isRoot : estate'.root owner with
      | none => simp [Estate.holds, isRoot]
      | some root => simp [Estate.holds, isRoot, (persists owner root isRoot).2 place]
    | saved => rfl
  have before : ∀ owner role f, estate'.holds phys.mem owner role = some f → estate.holds phys.mem owner role = some f := by
    intro owner role f found
    cases role with
    | node place =>
      obtain ⟨root, isRoot, place⟩ := Estate.holds_node.mp found
      exact Estate.holds_node.mpr ⟨root, roots owner root isRoot, place⟩
    | saved => exact saves owner f found
  refine ⟨⟨fun owner root isRoot => (persists owner root isRoot).1, fun owner f isSaved => live owner .saved f isSaved, ?_, ?_⟩, held⟩
  · intro owner role other role' f first second
    rw [held] at first second
    exact owned.apart owner role other role' f (before owner role f first) (before other role' f second)
  · intro assumed f isLive
    obtain ⟨owner, role, found⟩ := complete assumed f isLive
    exact ⟨owner, role, (held owner role).trans found⟩

/-- Every frame the owner holds keeps its bytes. -/
structure Keeps (estate : Estate ι) (owner : ι) (phys after : Phys) : Prop where
  frames : ∀ role f, estate.holds phys.mem owner role = some f → Memory.Agree phys.mem after.mem f 4096
  outside : ∀ a, a < poolBase ∨ poolEnd ≤ a → after.mem a = phys.mem a

/-- The memory of an owner is what it was. -/
theorem Owned.view {estate : Estate ι} (owned : Owned tight phys estate) {owner : ι} (keeps : Keeps estate owner phys after)
    {root : Nat} (isRoot : estate.root owner = some root) : Sv39.view after.mem root = Sv39.view phys.mem root :=
  Sv39.view_frame (owned.spaces owner root isRoot)
    (fun node f found => keeps.frames (.node node) f (Estate.holds_node.mpr ⟨root, isRoot, found⟩)) keeps.outside

/-- An operation that failed after undoing what it had begun. -/
theorem Owned.undone {estate : Estate ι} (owned : Owned tight phys estate) (undone : Undone tight phys after) :
    Owned tight after estate ∧ ∀ owner, Keeps estate owner phys after := by
  have kept : ∀ owner role f, estate.holds phys.mem owner role = some f →
      Live after f ∧ Memory.Agree phys.mem after.mem f 4096 :=
    fun owner role f held => undone.kept f (owned.holds_live held)
  refine ⟨(owned.rebuild (fun _ _ isRoot => isRoot) (fun _ _ isSaved => isSaved) ?_ ?_ ?_).1,
    fun owner => ⟨fun role f held => (kept owner role f held).2, undone.outside⟩⟩
  · exact fun owner node f _ held => (kept owner (.node node) f held).2
  · exact fun owner role f held => (kept owner role f held).1
  · exact fun assumed f live => owned.complete assumed f (undone.complete assumed f live)

/-- Owners whose holdings nobody will free. -/
theorem Owned.abandon {estate estate' : Estate ι} (owned : Owned tight phys estate)
    (roots : ∀ owner root, estate'.root owner = some root → estate.root owner = some root)
    (saves : ∀ owner f, estate'.saved owner = some f → estate.saved owner = some f)
    (nothing : tight → estate' = estate) : Owned tight phys estate' := by
  refine (owned.rebuild roots saves (fun _ _ _ _ _ => .refl _ _ _) ?_ ?_).1
  · intro owner role f held
    cases role with
    | node place =>
      obtain ⟨root, isRoot, found⟩ := Estate.holds_node.mp held
      exact (owned.spaces owner root (roots owner root isRoot)).live place f found
    | saved => exact owned.live owner f (saves owner f held)
  · intro assumed f live
    rw [nothing assumed]
    exact owned.complete assumed f live

/-- Writing into a page or a saved frame. -/
theorem Owned.write {estate : Estate ι} {mem : Memory} {owner : ι} {role : Role} {f : Nat} (owned : Owned tight phys estate)
    (here : estate.holds phys.mem owner role = some f) (notTable : ∀ place, role = .node place → place.isTable = false)
    (inside : ∀ a, ¬ (f ≤ a ∧ a < f + 4096) → mem a = phys.mem a) :
    Owned tight { phys with mem } estate ∧ (∀ other, other ≠ owner → Keeps estate other phys { phys with mem }) ∧
      (∀ role' g, estate.holds phys.mem owner role' = some g → role' ≠ role → Memory.Agree phys.mem mem g 4096) ∧
      ∀ a, a < poolBase ∨ poolEnd ≤ a → mem a = phys.mem a := by
  have frame := (owned.holds_live here).isFrame
  have beside : ∀ other role' g, estate.holds phys.mem other role' = some g → (other = owner → role' ≠ role) →
      Memory.Agree phys.mem mem g 4096 := by
    intro other role' g held different a above below
    apply inside
    have distinct : g ≠ f := by
      rintro rfl
      obtain ⟨sameOwner, sameRole⟩ := owned.apart _ _ _ _ _ held here
      exact different sameOwner sameRole
    rcases (owned.holds_live held).isFrame.apart frame distinct with left | right <;> omega
  have outside : ∀ a, a < poolBase ∨ poolEnd ≤ a → mem a = phys.mem a := fun a away => inside a (frame.outside away)
  refine ⟨(owned.rebuild (fun _ _ isRoot => isRoot) (fun _ _ isSaved => isSaved) ?_ ?_ ?_).1,
    fun other different => ⟨fun role' g held => beside other role' g held fun same => absurd same different, outside⟩,
    fun role' g held different => beside owner role' g held fun _ => different, outside⟩
  · intro other node g table held
    refine beside other (.node node) g held fun _ same => ?_
    rw [notTable node same.symm] at table
    cases table
  · exact fun other role' g held => owned.holds_live held
  · exact fun assumed g live => owned.complete assumed g live

variable [DecidableEq ι]

/-- A new space, with the frame in hand as its saved frame, goes to an owner who
had nothing. -/
theorem Owned.grow {estate : Estate ι} {root : Nat} {hand : Option Nat} (owned : Owned tight base estate)
    (grows : Grows tight base root hand after) (owner : ι) (noRoot : estate.root owner = none)
    (noSaved : estate.saved owner = none) :
    Owned tight after (estate.give owner (some root) hand) ∧ ∀ other, Keeps estate other base after := by
  have kept : ∀ other role f, estate.holds base.mem other role = some f →
      Live after f ∧ Memory.Agree base.mem after.mem f 4096 :=
    fun other role f held => grows.kept f (owned.holds_live held)
  have loose : Owned False base estate := { owned with complete := nofun }
  obtain ⟨old, oldHolds⟩ := loose.rebuild (fun _ _ isRoot => isRoot) (fun _ _ isSaved => isSaved)
    (fun other node f _ held => (kept other (.node node) f held).2) (fun other role f held => (kept other role f held).1)
    nofun
  -- who holds what afterwards: a newcomer's frame is new, everybody else's is not
  have holder : ∀ other role f, (estate.give owner (some root) hand).holds after.mem other role = some f →
      (other = owner ∧ ¬ Live base f ∧ Live after f ∧
        ((∃ place, role = .node place ∧ frameAt after.mem root place = some f) ∨ role = .saved ∧ hand = some f)) ∨
      (other ≠ owner ∧ estate.holds base.mem other role = some f) := by
    intro other role f held
    by_cases isOwner : other = owner
    · subst isOwner
      refine .inl ⟨rfl, ?_⟩
      cases role with
      | node place =>
        obtain ⟨isRoot, rootEq, found⟩ := Estate.holds_node.mp held
        simp only [Estate.give, Function.update_self, Option.some.injEq] at rootEq
        subst rootEq
        exact ⟨grows.fresh place f found, grows.space.live place f found, .inl ⟨place, rfl, found⟩⟩
      | saved =>
        simp only [Estate.holds, Estate.give, Function.update_self] at held
        obtain ⟨live, fresh, -⟩ := grows.held f held
        exact ⟨fresh, live, .inr ⟨rfl, held⟩⟩
    · refine .inr ⟨isOwner, ?_⟩
      rw [← oldHolds]
      cases role with
      | node place => simpa [Estate.holds, Estate.give, isOwner] using held
      | saved => simpa [Estate.holds, Estate.give, isOwner] using held
  refine ⟨⟨?_, ?_, ?_, ?_⟩, fun other => ⟨fun role f held => (kept other role f held).2, grows.outside⟩⟩
  · intro other r isRoot
    by_cases isOwner : other = owner
    · subst isOwner
      simp only [Estate.give, Function.update_self, Option.some.injEq] at isRoot
      exact isRoot ▸ grows.space
    · exact old.spaces other r (by simpa [Estate.give, isOwner] using isRoot)
  · intro other f isSaved
    rcases holder other .saved f isSaved with ⟨_, _, live, _⟩ | ⟨_, held⟩
    · exact live
    · exact (kept other .saved f held).1
  · intro first role second role' f left right
    rcases holder first role f left with ⟨rfl, fresh, _, place⟩ | ⟨_, held⟩
    · rcases holder second role' f right with ⟨rfl, _, _, place'⟩ | ⟨_, held'⟩
      · refine ⟨rfl, ?_⟩
        rcases place with ⟨n, rfl, found⟩ | ⟨rfl, inHand⟩
        · rcases place' with ⟨n', rfl, found'⟩ | ⟨rfl, inHand'⟩
          · rw [grows.space.shape.distinct n n' f found found']
          · exact absurd found ((grows.held f inHand').2.2 n)
        · rcases place' with ⟨n', rfl, found'⟩ | ⟨rfl, _⟩
          · exact absurd found' ((grows.held f inHand).2.2 n')
          · rfl
      · exact absurd (owned.holds_live held') fresh
    · rcases holder second role' f right with ⟨rfl, fresh, _, _⟩ | ⟨_, held'⟩
      · exact absurd (owned.holds_live held) fresh
      · exact owned.apart first role second role' f held held'
  · intro assumed f live
    rcases grows.complete assumed f live with inBase | ⟨place, found⟩ | inHand
    · obtain ⟨other, role, held⟩ := owned.complete assumed f inBase
      have notOwner : other ≠ owner := by
        rintro rfl
        cases role with
        | node place =>
          obtain ⟨r, isRoot, _⟩ := Estate.holds_node.mp held
          rw [noRoot] at isRoot
          cases isRoot
        | saved =>
          simp only [Estate.holds, noSaved] at held
          cases held
      refine ⟨other, role, ?_⟩
      rw [← oldHolds] at held
      cases role with
      | node place => simpa [Estate.holds, Estate.give, notOwner] using held
      | saved => simpa [Estate.holds, Estate.give, notOwner] using held
    · exact ⟨owner, .node place, by simpa [Estate.holds, Estate.give] using found⟩
    · exact ⟨owner, .saved, by simpa [Estate.holds, Estate.give] using inHand⟩

/-- An owner gives back everything. -/
theorem Owned.release {estate : Estate ι} (owned : Owned tight phys estate) (owner : ι) (same : after.mem = phys.mem)
    (live : ∀ f, Live after f ↔ Live phys f ∧ ∀ role, estate.holds phys.mem owner role ≠ some f) :
    Owned tight after (estate.give owner none none) := by
  have before : ∀ other role f, (estate.give owner none none).holds phys.mem other role = some f →
      other ≠ owner ∧ estate.holds phys.mem other role = some f := by
    intro other role f held
    by_cases isOwner : other = owner
    · subst isOwner
      cases role <;> simp [Estate.holds, Estate.give] at held
    · refine ⟨isOwner, ?_⟩
      cases role <;> simpa [Estate.holds, Estate.give, isOwner] using held
  refine (owned.rebuild ?_ ?_ ?_ ?_ ?_).1
  · intro other root isRoot
    by_cases isOwner : other = owner
    · simp [Estate.give, isOwner] at isRoot
    · simpa [Estate.give, isOwner] using isRoot
  · intro other f isSaved
    exact (before other .saved f isSaved).2
  · intro _ _ f _ _
    rw [same]
    exact .refl _ _ _
  · intro other role f held
    obtain ⟨notOwner, old⟩ := before other role f held
    refine (live f).mpr ⟨owned.holds_live old, fun role' mine => notOwner ?_⟩
    exact (owned.apart other role owner role' f old mine).1
  · intro assumed f isLive
    obtain ⟨wasLive, notMine⟩ := (live f).mp isLive
    obtain ⟨other, role, held⟩ := owned.complete assumed f wasLive
    have notOwner : other ≠ owner := by
      rintro rfl
      exact notMine role held
    refine ⟨other, role, ?_⟩
    cases role <;> simpa [Estate.holds, Estate.give, notOwner] using held

end Kernai.Mm
