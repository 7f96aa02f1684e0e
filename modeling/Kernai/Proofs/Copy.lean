import Kernai.Proofs.Views

/-! `deep_copy`: the copy has the same pages with the same permissions and bytes,
in frames of its own; a failed copy leaves nothing behind. -/

namespace Kernai.Mm
open Hal Frames Foundation

variable {tight : Prop} {base phys after : Phys} {src dst : Nat}

/-- `copy` in `mem` stands for `entry` in `source`. -/
structure CopyOf (source : Memory) (entry : Nat) (mem : Memory) (copy : Nat) : Prop where
  leaf : IsLeaf entry → IsLeaf copy ∧ copy &&& (R ||| W ||| X ||| U) = entry &&& (R ||| W ||| X ||| U) ∧
    ∀ offset, offset < 4096 → mem (ptePa copy + offset) = source (ptePa entry + offset)
  blank : ¬ IsLeaf entry → ¬ IsLeaf copy

/-- Pages below `bound` have been copied, the others not yet. -/
structure Copying (tight : Prop) (base : Phys) (src dst bound : Nat) (phys : Phys) : Prop where
  grows : Grows tight base dst none phys
  done : ∀ m, m < bound → m < 2 ^ 27 → CopyOf base.mem (pteOf base.mem src m) phys.mem (pteOf phys.mem dst m)
  todo : ∀ m, bound ≤ m → m < 2 ^ 27 → pteOf phys.mem dst m = 0

theorem frameAt_page {mem : Memory} {root m : Nat} (inside : m < 2 ^ 27) (isLeaf : IsLeaf (pteOf mem root m))
    (frame : IsFrame (ptePa (pteOf mem root m))) : frameAt mem root (.page m) = some (ptePa (pteOf mem root m)) := by
  simp only [frameAt, inside, isLeaf, frame, and_self, if_true]

/-- A page frame is no table. -/
theorem Space.page_bystander {root m f : Nat} (space : Space phys root) (found : frameAt phys.mem root (.page m) = some f) :
    Bystander phys root f := by
  refine ⟨space.live _ _ found, fun node isTable same => ?_⟩
  cases space.shape.distinct _ _ _ same found
  cases isTable

private theorem CopyOf.keep {hand hand' : Option Nat} {source : Memory} {entry m : Nat} (inside : m < 2 ^ 27)
    (copied : CopyOf source entry phys.mem (pteOf phys.mem dst m)) (grows : Grows tight base dst hand phys)
    (grown : Grows tight base dst hand' after) (same : pteOf after.mem dst m = pteOf phys.mem dst m)
    (pages : ∀ f, frameAt phys.mem dst (.page m) = some f → Memory.Agree phys.mem after.mem f 4096) :
    CopyOf source entry after.mem (pteOf after.mem dst m) := by
  refine ⟨fun isLeaf => ?_, fun blank => by rw [same]; exact copied.blank blank⟩
  obtain ⟨leafy, perms, bytes⟩ := copied.leaf isLeaf
  rw [same]
  refine ⟨leafy, perms, fun offset small => ?_⟩
  rw [← bytes offset small]
  obtain ⟨-, -, place⟩ := grows.space.entries m inside leafy
  rcases place with frame | ⟨beyond, -, -⟩
  · exact pages _ (frameAt_page inside leafy frame) _ (by omega) (by omega)
  · rw [grown.outside _ (by omega), grows.outside _ (by omega)]

/-- Pages that are not leaves need no copying. -/
theorem Copying.skip {bound next : Nat} (copying : Copying tight base src dst bound phys) (forward : bound ≤ next)
    (blank : ∀ m, bound ≤ m → m < next → m < 2 ^ 27 → ¬ IsLeaf (pteOf base.mem src m)) :
    Copying tight base src dst next phys := by
  refine ⟨copying.grows, ?_, fun m beyond => copying.todo m (by omega)⟩
  intro m below inside
  by_cases early : m < bound
  · exact copying.done m early inside
  · refine ⟨fun isLeaf => absurd isLeaf (blank m (by omega) below inside), fun _ isLeaf => ?_⟩
    rw [copying.todo m (by omega) inside] at isLeaf
    exact isLeaf.1 rfl

private theorem userBits (entry : Nat) {mask : Nat} (inside : (R ||| W ||| X ||| U) &&& mask = mask) :
    entry &&& (R ||| W ||| X ||| U) &&& mask = entry &&& mask := by
  rw [Nat.and_assoc, inside]

private theorem userPerms_of_entry {entry : Nat} (user : entry &&& U ≠ 0)
    (exclusive : ¬ (entry &&& W ≠ 0 ∧ entry &&& X ≠ 0)) : UserPerms (entry &&& (R ||| W ||| X ||| U)) := by
  refine ⟨?_, ?_, ?_⟩
  · calc entry &&& (R ||| W ||| X ||| U) ≤ R ||| W ||| X ||| U := Nat.and_le_right
      _ < 32 := by decide
  · rw [userBits entry (by decide)]
    exact user
  · rw [userBits entry (by decide), userBits entry (by decide)]
    exact exclusive

/-- Without W and X a user leaf is a read-only one. -/
private theorem readOnly_perms {entry : Nat} (isLeaf : IsLeaf entry) (user : entry &&& U ≠ 0) (noWrite : entry &&& W = 0)
    (noExec : entry &&& X = 0) : entry &&& (R ||| W ||| X ||| U) = R ||| U := by
  have bit : ∀ mask i, mask = 2 ^ i → entry &&& mask ≠ 0 → entry &&& mask = mask := by
    rintro _ i rfl present
    rw [Nat.and_two_pow] at present ⊢
    cases set : entry.testBit i with
    | false => simp [set] at present
    | true => simp
  have readable : entry &&& R ≠ 0 := by
    intro absent
    apply isLeaf.2
    rw [permMask, Nat.and_or_distrib_left, Nat.and_or_distrib_left, absent, noWrite, noExec]
    rfl
  rw [Nat.and_or_distrib_left, Nat.and_or_distrib_left, Nat.and_or_distrib_left, noWrite, noExec,
    bit R 1 rfl readable, bit U 4 rfl user]
  rfl

private theorem pageFrame_live {m : Nat} (space : Space base src) (inside : m < 2 ^ 27)
    (isLeaf : IsLeaf (pteOf base.mem src m)) (frame : IsFrame (ptePa (pteOf base.mem src m))) :
    Live base (ptePa (pteOf base.mem src m)) := space.live _ _ (frameAt_page inside isLeaf frame)

private theorem ptePa_bounds (entry : Nat) : ptePa entry % 4096 = 0 ∧ ptePa entry < 2 ^ 56 := by
  rw [ptePa_eq]
  omega

/-- Mapping the copy of page `bound`, its bytes being in place. -/
private theorem Copying.map {bound va : Nat} (pa : Nat) {before : Phys} {hand : Option Nat} (space : Space base src) (copying : Copying tight base src dst bound before) (inside : bound < 2 ^ 27)
    (isLeaf : IsLeaf (pteOf base.mem src bound)) (place : pageNumber va = bound)
    (grows : Grows tight base dst hand phys)
    (mappable : Mappable tight hand pa (pteOf base.mem src bound &&& (R ||| W ||| X ||| U)))
    (samePages : ∀ m, m < 2 ^ 27 → pteOf phys.mem dst m = pteOf before.mem dst m)
    (kept : ∀ f m, frameAt before.mem dst (.page m) = some f → Memory.Agree before.mem phys.mem f 4096)
    (bytes : ∀ offset, offset < 4096 → phys.mem (pa + offset) = base.mem (ptePa (pteOf base.mem src bound) + offset))
    (result : Except MmError Unit) (after : Phys)
    (ran : mapPage phys dst va pa (pteOf base.mem src bound &&& (R ||| W ||| X ||| U)) = (result, after)) :
    (result = .ok () → Copying tight base src dst (bound + 1) after) ∧
      (result ≠ .ok () → Grows tight base dst hand after) := by
  obtain ⟨user, exclusive, -⟩ := space.entries bound inside isLeaf
  have perms := userPerms_of_entry user exclusive
  have permsSmall := perms.1
  obtain ⟨spared, ⟨ok, grown, updated⟩ | ⟨failed, grown, -⟩⟩ := mapPage_grows grows perms mappable ran
  swap
  · exact ⟨fun ok => absurd ok failed, fun _ => grown⟩
  refine ⟨fun _ => ⟨grown, ?_, ?_⟩, fun bad => absurd ok bad⟩
  · intro m below small
    by_cases here : m = bound
    · subst here
      rw [updated m small, if_pos place.symm]
      refine ⟨fun _ => ⟨⟨leaf_valid pa (by omega), ?_⟩, ?_, ?_⟩, fun blank => absurd isLeaf blank⟩
      · rw [leaf_and pa (by omega) (by decide) (by decide), userBits _ (by decide)]
        exact isLeaf.2
      · rw [leaf_and pa (by omega) (by decide) (by decide), userBits _ (by decide)]
      · intro offset bounded
        have address : ptePa (leaf pa (pteOf base.mem src m &&& (R ||| W ||| X ||| U))) = pa := by
          cases mappable with
          | page inHand visible =>
            have := (grows.held pa inHand).1.isFrame.bounds
            exact ptePa_leaf (by omega) (by omega) (by omega)
          | window _ _ aligned tiny _ => exact ptePa_leaf (by omega) aligned tiny
        rw [address, ← bytes offset bounded]
        cases mappable with
        | page inHand visible =>
          obtain ⟨live, -, unplaced⟩ := grows.held pa inHand
          exact (spared pa ⟨live, fun node _ => unplaced node⟩).2 _ (by omega) (by omega)
        | window _ beyond _ _ _ => rw [grown.outside _ (by omega), grows.outside _ (by omega)]
    · have same : pteOf after.mem dst m = pteOf before.mem dst m := by
        rw [updated m small, if_neg (by omega), samePages m small]
      apply (copying.done m (by omega) small).keep small copying.grows grown same
      intro f found
      have still : frameAt phys.mem dst (.page m) = some f := by
        simp only [frameAt, samePages m small] at found ⊢
        exact found
      exact (kept f m found).trans (spared f (grows.space.page_bystander still)).2
  · intro m beyond small
    rw [updated m small, if_neg (by omega), samePages m small]
    exact copying.todo m (by omega) small

/-- One user leaf of the source. -/
theorem copyUserLeaf_copying {bound va : Nat} {copied : Bool} (space : Space base src)
    (copying : Copying tight base src dst bound phys) (inside : bound < 2 ^ 27)
    (isLeaf : IsLeaf (pteOf base.mem src bound)) (place : pageNumber va = bound)
    (ran : copyUserLeaf dst va (pteOf base.mem src bound) phys = (copied, after)) :
    (copied = true → Copying tight base src dst (bound + 1) after) ∧ (copied = false → Grows tight base dst none after) := by
  obtain ⟨user, -, target⟩ := space.entries bound inside isLeaf
  unfold copyUserLeaf at ran
  dsimp only at ran
  split at ran
  · next outside =>
    -- the window past the pool is aliased
    obtain ⟨beyond, noWrite, noExec⟩ : poolEnd ≤ ptePa (pteOf base.mem src bound) ∧ _ ∧ _ := by
      rcases target with frame | window
      · exact absurd ⟨frame.1, frame.2.1⟩ outside
      · exact window
    obtain ⟨aligned, small⟩ := ptePa_bounds (pteOf base.mem src bound)
    have mapped := Copying.map (ptePa (pteOf base.mem src bound)) space copying inside isLeaf place copying.grows
      (.window rfl beyond aligned small (readOnly_perms isLeaf user noWrite noExec)) (fun _ _ => rfl)
      (fun _ _ _ => .refl _ _ _) (fun offset _ => copying.grows.outside _ (by omega))
    split at ran
    · next middle ok =>
      obtain ⟨rfl, rfl⟩ := Prod.mk.inj ran
      exact ⟨fun _ => (mapped _ _ ok).1 rfl, nofun⟩
    · next reason middle failed =>
      obtain ⟨rfl, rfl⟩ := Prod.mk.inj ran
      exact ⟨nofun, fun _ => (mapped _ _ failed).2 (by simp)⟩
  · next within =>
    have frame : IsFrame (ptePa (pteOf base.mem src bound)) := by
      rcases target with frame | window
      · exact frame
      · rw [not_not] at within
        omega
    have old := pageFrame_live space inside isLeaf frame
    split at ran
    · next middle failed =>
      obtain ⟨rfl, rfl⟩ := Prod.mk.inj ran
      rw [alloc_none failed]
      exact ⟨nofun, fun _ => copying.grows⟩
    · next newFrame middle allocated =>
      obtain ⟨taken, samePages, spared, -⟩ := copying.grows.take allocated
      have newLive := (taken.held newFrame rfl).1
      split at ran
      · next unreadable =>
        obtain ⟨rfl, rfl⟩ := Prod.mk.inj ran
        exact ⟨nofun, fun _ => taken.drop⟩
      · next buf readable =>
        have content : buf = middle.mem.readBytes (ptePa (pteOf base.mem src bound)) 4096 := by
          unfold physRead at readable
          split at readable
          · exact (Option.some.inj readable).symm
          · cases readable
        have length : buf.length = 4096 := by rw [content]; simp [Memory.readBytes]
        have pool : inPool newFrame buf.length = true := by
          rw [length]
          exact newLive.isFrame.inPool 0 4096 (by omega)
        have written : physWrite middle newFrame buf = (true, { middle with mem := middle.mem.writeBytes newFrame buf }) := by
          simp [physWrite, pool]
        rw [written] at ran
        dsimp only at ran
        have elsewhere : ∀ a, ¬ (newFrame ≤ a ∧ a < newFrame + 4096) → middle.mem.writeBytes newFrame buf a = middle.mem a := by
          intro a away
          unfold Memory.writeBytes
          rw [length]
          exact if_neg away
        obtain ⟨filled, filledPages, -⟩ := taken.fill elsewhere
        have mapped := Copying.map newFrame space copying inside isLeaf place filled
          (.page rfl (fun _ => by rw [userBits _ (by decide)]; exact isLeaf.2))
          (fun m small => (filledPages m small).trans (samePages m small))
          (by
            intro f m found
            obtain ⟨bystander, same⟩ := spared f (copying.grows.space.page_bystander found)
            refine same.trans fun a above below => elsewhere a ?_
            have other : f ≠ newFrame := by
              rintro rfl
              exact (alloc_some allocated).fresh (copying.grows.space.live _ _ found)
            rcases bystander.1.isFrame.apart newLive.isFrame other with left | right <;> omega)
          (by
            intro offset bounded
            dsimp only
            rw [content, Memory.writeBytes_readBytes middle.mem middle.mem newFrame _ 4096 offset bounded]
            exact (taken.kept _ old).2 _ (by omega) (by omega))
        split at ran
        · next final ok =>
          obtain ⟨rfl, rfl⟩ := Prod.mk.inj ran
          exact ⟨fun _ => (mapped _ _ ok).1 rfl, nofun⟩
        · next reason final failed =>
          obtain ⟨rfl, rfl⟩ := Prod.mk.inj ran
          exact ⟨nofun, fun _ => ((mapped _ _ failed).2 (by simp)).drop⟩

/-- The rule for a loop that stops at the first failing turn. -/
theorem forAll_range {body : Nat → Phys → Bool × Phys} (holds : Nat → Phys → Prop) (failed : Phys → Prop)
    (count : Nat)
    (turn : ∀ i before result middle, i < count → holds i before → body i before = (result, middle) →
      (result = true → holds (i + 1) middle) ∧ (result = false → failed middle))
    (result : Bool) (start : holds 0 phys) (ran : forAll body (List.range count) phys = (result, after)) :
    (result = true → holds count after) ∧ (result = false → failed after) := by
  have general : ∀ length first before, first + length = count → holds first before →
      forAll body (List.range' first length) before = (result, after) →
      (result = true → holds count after) ∧ (result = false → failed after) := by
    intro length
    induction length with
    | zero =>
      intro first before total reached done
      obtain ⟨rfl, rfl⟩ := Prod.mk.inj done
      exact ⟨fun _ => by rw [← total]; exact reached, nofun⟩
    | succ length ih =>
      intro first before total reached runs
      rw [List.range'_succ, forAll] at runs
      split at runs
      · next middle ok =>
        exact ih (first + 1) middle (by omega) ((turn first before true middle (by omega) reached ok).1 rfl) runs
      · next middle stopped =>
        obtain ⟨rfl, rfl⟩ := Prod.mk.inj runs
        exact ⟨nofun, fun _ => (turn first before false middle (by omega) reached stopped).2 rfl⟩
  exact general count 0 phys (by omega) start (by rw [← List.range_eq_range']; exact ran)

/-- The source is live in `base`, so it reads the same throughout. -/
private theorem source_entry {hand : Option Nat} (space : Space base src) (grows : Grows tight base dst hand phys)
    (node : Node) {table i : Nat} (found : frameAt base.mem src node = some table) (inside : i < 512) :
    readPte phys (table + i * 8) = entryAt base.mem table i := by
  have live := space.live node table found
  rw [readPte_eq phys live.isFrame inside]
  exact entryAt_congr (grows.kept table live).2 inside

private theorem pageNumber_of (n i : Nat) (inside : n * 512 + i < 2 ^ 27) :
    pageNumber (n * 2 ^ 21 + (i <<< 12)) = n * 512 + i := by
  rw [pageNumber, Nat.shiftLeft_eq]
  omega

private theorem copyTable_copying {n low : Nat} {copied : Bool} (space : Space base src) (small : n < 2 ^ 18)
    (found : lowAt base.mem src n = some low) (copying : Copying tight base src dst (n * 512) phys)
    (ran : copyUserPages dst 0 low (n * 2 ^ 21) phys = (copied, after)) :
    (copied = true → Copying tight base src dst ((n + 1) * 512) after) ∧
      (copied = false → Grows tight base dst none after) := by
  rw [copyUserPages] at ran
  have place := frameAt_low small found
  have entry : ∀ i, i < 512 → pteOf base.mem src (n * 512 + i) = entryAt base.mem low i := by
    intro i inside
    unfold pteOf
    rw [show (n * 512 + i) / 512 = n by omega, found]
    simp only [show (n * 512 + i) % 512 = i by omega]
  have result := forAll_range (fun i => Copying tight base src dst (n * 512 + i)) (Grows tight base dst none) 512 ?_
    copied (by simpa using copying) ran
  · rw [show (n + 1) * 512 = n * 512 + 512 by omega]
    exact result
  intro i before result middle inside holds body
  have bound : n * 512 + i < 2 ^ 27 := by omega
  rw [source_entry space holds.grows _ place inside, ← entry i inside] at body
  dsimp only at body
  have skip : ¬ IsLeaf (pteOf base.mem src (n * 512 + i)) → result = true → middle = before →
      (result = true → Copying tight base src dst (n * 512 + (i + 1)) middle) ∧
        (result = false → Grows tight base dst none middle) := by
    rintro blank rfl rfl
    refine ⟨fun _ => holds.skip (by omega) fun m above below _ => ?_, nofun⟩
    rw [show m = n * 512 + i by omega]
    exact blank
  split at body
  · next invalid =>
    obtain ⟨rfl, rfl⟩ := Prod.mk.inj body
    exact skip (fun isLeaf => isLeaf.1 invalid) rfl rfl
  · next valid =>
    split at body
    · next leafy =>
      split at body
      · next supervisor =>
        obtain ⟨rfl, rfl⟩ := Prod.mk.inj body
        exact absurd supervisor (space.entries _ bound ⟨valid, leafy⟩).1
      · have leafCopied := copyUserLeaf_copying space holds bound ⟨valid, leafy⟩ (pageNumber_of n i bound) body
        rwa [Nat.add_assoc] at leafCopied
    · next pointer =>
      obtain ⟨rfl, rfl⟩ := Prod.mk.inj body
      exact skip (fun isLeaf => pointer isLeaf.2) rfl rfl

private theorem blank_of_noTable {n m : Nat} (absent : lowAt base.mem src n = none) (here : m / 512 = n) :
    ¬ IsLeaf (pteOf base.mem src m) := by
  unfold pteOf
  rw [here, absent]
  simp [IsLeaf]

private theorem copyMiddle_copying {i mid : Nat} {copied : Bool} (space : Space base src) (small : i < 512)
    (found : child base.mem src i = some mid) (copying : Copying tight base src dst (i * 512 * 512) phys)
    (ran : copyUserPages dst 1 mid (i * 2 ^ 30) phys = (copied, after)) :
    (copied = true → Copying tight base src dst ((i + 1) * 512 * 512) after) ∧
      (copied = false → Grows tight base dst none after) := by
  rw [copyUserPages] at ran
  have place := frameAt_mid small found
  have low : ∀ j, j < 512 → lowAt base.mem src (i * 512 + j) = child base.mem mid j := by
    intro j inside
    unfold lowAt
    rw [show (i * 512 + j) / 512 = i by omega, show (i * 512 + j) % 512 = j by omega, found]
    rfl
  have result := forAll_range (fun j => Copying tight base src dst ((i * 512 + j) * 512)) (Grows tight base dst none) 512 ?_
    copied (by simpa using copying) ran
  · rw [show (i + 1) * 512 * 512 = (i * 512 + 512) * 512 by omega]
    exact result
  intro j before result middle inside holds body
  rw [source_entry space holds.grows _ place inside] at body
  dsimp only at body
  split at body
  · next invalid =>
    obtain ⟨rfl, rfl⟩ := Prod.mk.inj body
    refine ⟨fun _ => holds.skip (by omega) fun m above below _ => ?_, nofun⟩
    exact blank_of_noTable ((low j inside).trans (child_none invalid)) (by omega)
  · next valid =>
    rw [if_neg (fun leafy => leafy (space.shape.middle i mid small found j inside))] at body
    have isLow : lowAt base.mem src (i * 512 + j) = some (ptePa (entryAt base.mem mid j)) := by
      rw [low j inside, child, if_pos ⟨valid, space.shape.middle i mid small found j inside⟩]
    have address : i * 2 ^ 30 + j <<< (12 + 9 * (0 + 1)) = (i * 512 + j) * 2 ^ 21 := by
      rw [Nat.shiftLeft_eq]
      omega
    rw [address] at body
    have tableCopied := copyTable_copying space (by omega) isLow holds body
    rwa [Nat.add_assoc] at tableCopied

private theorem copyRoot_copying {copied : Bool} (space : Space base src) (copying : Copying tight base src dst 0 phys)
    (ran : copyUserPages dst 2 src 0 phys = (copied, after)) :
    (copied = true → Copying tight base src dst (2 ^ 27) after) ∧ (copied = false → Grows tight base dst none after) := by
  rw [copyUserPages] at ran
  have blank : ∀ i, child base.mem src i = none → ∀ m, m / 512 / 512 = i → ¬ IsLeaf (pteOf base.mem src m) := by
    intro i absent m here
    apply blank_of_noTable (n := m / 512) _ rfl
    unfold lowAt
    rw [here, absent]
    rfl
  refine forAll_range (fun i => Copying tight base src dst (i * 512 * 512)) (Grows tight base dst none) 512 ?_ copied
    (by simpa using copying) ran
  intro i before result middle inside holds body
  rw [source_entry space holds.grows .root rfl inside] at body
  dsimp only at body
  have skip : child base.mem src i = none → Copying tight base src dst ((i + 1) * 512 * 512) before :=
    fun absent => holds.skip (by omega) fun m above below _ => blank i absent m (by omega)
  split at body
  · next invalid =>
    obtain ⟨rfl, rfl⟩ := Prod.mk.inj body
    exact ⟨fun _ => skip (child_none invalid), nofun⟩
  · next valid =>
    by_cases kernel : i = 2
    · -- the gigapage is the kernel's: not a user leaf, not copied
      subst kernel
      rw [space.shape.giga, if_pos (by decide), if_pos (by decide)] at body
      obtain ⟨rfl, rfl⟩ := Prod.mk.inj body
      refine ⟨fun _ => skip ?_, nofun⟩
      rw [child, space.shape.giga, if_neg (by decide)]
    · rw [if_neg (fun leafy => leafy (space.shape.top i inside kernel))] at body
      have isMid : child base.mem src i = some (ptePa (entryAt base.mem src i)) := by
        rw [child, if_pos ⟨valid, space.shape.top i inside kernel⟩]
      have address : 0 + i <<< (12 + 9 * (1 + 1)) = i * 2 ^ 30 := by
        rw [Nat.shiftLeft_eq]
        omega
      rw [address] at body
      exact copyMiddle_copying space inside isMid holds body

/-- What a failed construction leaves: everything as it was, with the attempt
noted among the destroyed spaces. -/
structure Undone (tight : Prop) (base after : Phys) : Prop where
  kept : ∀ f, Live base f → Live after f ∧ Memory.Agree base.mem after.mem f 4096
  outside : ∀ a, a < poolBase ∨ poolEnd ≤ a → after.mem a = base.mem a
  complete : tight → ∀ f, Live after f → Live base f
  satp : after.satp = base.satp
  destroyed : after.destroyed = base.destroyed ∨
    ∃ root, ¬ Live base root ∧ IsFrame root ∧ after.destroyed = (root, base.satp) :: base.destroyed

theorem Undone.refl (tight : Prop) (phys : Phys) : Undone tight phys phys :=
  ⟨fun _ live => ⟨live, .refl _ _ _⟩, fun _ _ => rfl, fun _ _ live => live, rfl, .inl rfl⟩

/-- Destroying a space under construction. -/
theorem Grows.destroy {root : Nat} (grows : Grows tight base root none phys) : Undone tight base (Mm.destroy phys root) := by
  obtain ⟨mem, satp, destroyed, live⟩ := destroy_spec grows.space
  refine ⟨?_, ?_, ?_, satp.trans grows.control.1, .inr ⟨root, grows.fresh .root root rfl, grows.space.shape.root, ?_⟩⟩
  · intro f old
    obtain ⟨kept, same⟩ := grows.kept f old
    refine ⟨(live f).mpr ⟨kept, fun node found => grows.fresh node f found old⟩, ?_⟩
    rw [mem]
    exact same
  · intro a away
    rw [mem]
    exact grows.outside a away
  · intro assumed f now
    obtain ⟨before, apart⟩ := (live f).mp now
    rcases grows.complete assumed f before with old | ⟨node, found⟩ | isHand
    · exact old
    · exact absurd found (apart node)
    · cases isHand
  · rw [destroyed, grows.control.1, grows.control.2]

/-- A space under construction and a frame in hand are both given up. -/
theorem Grows.discard {root f : Nat} (grows : Grows tight base root (some f) phys) :
    Undone tight base (free (Mm.destroy phys root) f) := by
  obtain ⟨mem, satp, destroyed, live⟩ := destroy_spec grows.space
  obtain ⟨-, fresh, -⟩ := grows.held f rfl
  refine ⟨?_, ?_, ?_, ?_, .inr ⟨root, grows.fresh .root root rfl, grows.space.shape.root, ?_⟩⟩
  · intro g old
    obtain ⟨kept, same⟩ := grows.kept g old
    refine ⟨(live_free _ _ _).mpr ⟨(live g).mpr ⟨kept, fun node found => grows.fresh node g found old⟩, ?_⟩, ?_⟩
    · rintro rfl
      exact fresh old
    · rw [free_mem, mem]
      exact same
  · intro a away
    rw [free_mem, mem]
    exact grows.outside a away
  · intro assumed g now
    obtain ⟨still, notHand⟩ := (live_free _ _ _).mp now
    obtain ⟨before, apart⟩ := (live g).mp still
    rcases grows.complete assumed g before with old | ⟨node, found⟩ | isHand
    · exact old
    · exact absurd found (apart node)
    · exact absurd (Option.some.inj isHand).symm notHand
  · rw [free_satp, satp]
    exact grows.control.1
  · rw [free_destroyed, destroyed, grows.control.1, grows.control.2]

/-- A finished space, and a frame taken in hand and filled. -/
theorem Grows.save {root f : Nat} {taken : Phys} (grows : Grows tight base root none phys)
    (allocated : alloc phys = (some f, taken)) (inside : ∀ a, ¬ (f ≤ a ∧ a < f + 4096) → after.mem a = taken.mem a)
    (rest : after = { taken with mem := after.mem }) :
    Grows tight base root (some f) after ∧ Sv39.view after.mem root = Sv39.view phys.mem root := by
  have spec := alloc_some allocated
  have elsewhere : ∀ g, Live phys g → Memory.Agree phys.mem after.mem g 4096 := by
    intro g live a above below
    have different : g ≠ f := by
      rintro rfl
      exact spec.fresh live
    have beside : ¬ (f ≤ a ∧ a < f + 4096) := by
      rcases live.isFrame.apart spec.frame different with left | right <;> omega
    rw [inside a beside, spec.kept a beside]
  refine ⟨?_, Sv39.view_frame grows.space (fun node g found => elsewhere g (grows.space.live node g found)) ?_⟩
  · rw [rest]
    exact ((grows.take allocated).1.fill inside).1
  · intro a away
    have beside := spec.frame.outside away
    rw [inside a beside, spec.kept a beside]

/-- `deep_copy`: a faithful copy in fresh frames, or nothing. -/
theorem deepCopy_spec {result : Option Nat} (space : Space base src) (ran : deepCopy base src = (result, after)) :
    (∀ copy, result = some copy → Grows tight base copy none after ∧
      Sv39.view after.mem copy = Sv39.view base.mem src) ∧
    (result = none → Undone tight base after) := by
  unfold deepCopy at ran
  split at ran
  · next middle failed =>
    obtain ⟨rfl, rfl⟩ := Prod.mk.inj ran
    rw [show middle = base from alloc_none failed]
    exact ⟨nofun, fun _ => .refl _ _⟩
  · next dst middle made =>
    split at ran
    · next reason mapped failed =>
      have := (newSpace_grows tight made failed).1
      cases this
    · next mapped ok =>
      obtain ⟨-, grows, empty, -⟩ := newSpace_grows tight made ok
      have copying : Copying tight base src dst 0 mapped :=
        ⟨grows, fun m below => absurd below (by omega), fun m _ inside => empty m inside⟩
      split at ran
      · next last failed =>
        obtain ⟨rfl, rfl⟩ := Prod.mk.inj ran
        exact ⟨nofun, fun _ => ((copyRoot_copying space copying failed).2 rfl).destroy⟩
      · next last done =>
        obtain ⟨rfl, rfl⟩ := Prod.mk.inj ran
        have copied := (copyRoot_copying space copying done).1 rfl
        refine ⟨?_, nofun⟩
        rintro _ ⟨⟩
        refine ⟨copied.grows, ?_⟩
        funext va
        have page := copied.done _ (pageNumber_lt va) (pageNumber_lt va)
        rw [Sv39.view_eq copied.grows.space.shape, Sv39.view_eq space.shape]
        by_cases isLeaf : IsLeaf (pteOf base.mem src (pageNumber va))
        · obtain ⟨leafy, perms, bytes⟩ := page.leaf isLeaf
          have user : ∀ entry, entry &&& (R ||| W ||| X ||| U) &&& U = entry &&& U := fun entry => userBits entry (by decide)
          rw [← user (pteOf last.mem dst (pageNumber va)), perms, user, bytes _ (Nat.mod_lt _ (by decide))]
          simp only [leafy, isLeaf]
        · simp only [isLeaf, page.blank isLeaf, false_and, if_false]

end Kernai.Mm
