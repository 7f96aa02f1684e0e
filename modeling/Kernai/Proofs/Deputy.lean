import Kernai.Proofs.Isolation
import Kernai.Proofs.Translation

/-! The kernel as a payload's deputy: what it reads through a pointer that a payload hands
it, against what the payload could read itself. -/

namespace Kernai.Mm
open Hal Frames Foundation Sv39

variable {phys : Phys} {root va cur j : Nat}

/-- A leaf with U and R maps `va` to a page of the pool, where `byte` is stored. -/
structure ReadsByte (phys : Phys) (root va level entry : Nat) (byte : UInt8) : Prop where
  leaf : leafAt phys.mem root va = some (level, entry)
  user : entry &&& U ≠ 0
  readable : entry &&& R ≠ 0
  pool : IsFrame (target va level entry - target va level entry % 4096)
  stored : byte = phys.mem (target va level entry)

def Readable (phys : Phys) (root va : Nat) (byte : UInt8) : Prop := ∃ level entry, ReadsByte phys root va level entry byte

theorem isFrame_page (pa : Nat) : IsFrame (pa - pa % 4096) ↔ poolBase ≤ pa ∧ pa < poolEnd := by
  unfold IsFrame poolBase poolEnd frameSize
  omega

theorem leafAt_page (mem : Memory) (root : Nat) (inside : cur % 4096 + j < 4096) :
    leafAt mem root (cur + j) = leafAt mem root cur := by
  have same : pageNumber (cur + j) = pageNumber cur := by
    unfold pageNumber
    omega
  rw [leafAt_layers, leafAt_layers, vpn_two, vpn_two, same]

theorem target_page (level entry : Nat) (inside : cur % 4096 + j < 4096) :
    target (cur + j) level entry = target cur level entry + j := by
  have size : 2 ^ (12 + 9 * level) = 4096 * 2 ^ (9 * level) := by rw [Nat.pow_add]
  have split : ∀ n, n % 2 ^ (12 + 9 * level) = n % 4096 + 4096 * (n / 4096 % 2 ^ (9 * level)) := by
    intro n
    rw [size, Nat.mod_mul]
  have page : (cur + j) / 4096 = cur / 4096 := by omega
  unfold target
  rw [split, split, page]
  omega

/-- The check of `translate_checked` for a read. -/
theorem refuses_iff (entry : Nat) :
    (entry &&& U = 0 ∨ entry &&& (U ||| R) ≠ U ||| R) ↔ ¬ (entry &&& U ≠ 0 ∧ entry &&& R ≠ 0) := by
  have low : ∀ n, n < 1024 → ((n &&& U = 0 ∨ n &&& (U ||| R) ≠ U ||| R) ↔ ¬ (n &&& U ≠ 0 ∧ n &&& R ≠ 0)) := by
    decide +kernel
  have flags := low (entry % 1024) (Nat.mod_lt _ (by decide))
  rwa [and_mod_flags entry (by decide), and_mod_flags entry (by decide), and_mod_flags entry (by decide)] at flags

/-- A translation for a read answers with the leaf's page, if the payload may read it. -/
theorem Tree.translate_read (tree : Tree phys root) (va : Nat) :
    translateChecked phys root va (U ||| R) = (leafAt phys.mem root va).bind fun leaf =>
      if leaf.2 &&& U ≠ 0 ∧ leaf.2 &&& R ≠ 0 then some (target va leaf.1 leaf.2) else none := by
  rw [tree.translateChecked_eq]
  congr 1
  funext leaf
  have asked : U ||| R ≠ 0 := by decide
  simp only [answer, asked, refuses_iff, ne_eq, not_false_eq_true, true_and, ite_not]

/-- All of a page is read through one leaf. -/
theorem readable_page {level entry : Nat} {byte : UInt8} (found : leafAt phys.mem root cur = some (level, entry))
    (inside : cur % 4096 + j < 4096) :
    Readable phys root (cur + j) byte ↔ (entry &&& U ≠ 0 ∧ entry &&& R ≠ 0) ∧
      (poolBase ≤ target cur level entry + j ∧ target cur level entry + j < poolEnd) ∧
      byte = phys.mem (target cur level entry + j) := by
  have same : leafAt phys.mem root (cur + j) = some (level, entry) := (leafAt_page _ _ inside).trans found
  constructor
  · rintro ⟨level', entry', reads⟩
    obtain ⟨rfl, rfl⟩ := Prod.mk.inj (Option.some.inj (same.symm.trans reads.leaf))
    have pool := (isFrame_page _).mp reads.pool
    have stored := reads.stored
    rw [target_page _ _ inside] at pool stored
    exact ⟨⟨reads.user, reads.readable⟩, pool, stored⟩
  · rintro ⟨⟨user, readable⟩, pool, stored⟩
    rw [← target_page _ _ inside] at pool stored
    exact ⟨level, entry, same, user, readable, (isFrame_page _).mpr pool, stored⟩

/-- What one turn of the loop reads: `n` bytes that do not cross a page. -/
def readPiece (phys : Phys) (root cur n : Nat) : Option Bytes :=
  (translateChecked phys root cur (U ||| R)).bind (physRead phys · n)

theorem Tree.readPiece_some (tree : Tree phys root) {n : Nat} {chunk : Bytes} (inside : cur % 4096 + n ≤ 4096)
    (read : readPiece phys root cur n = some chunk) :
    chunk.length = n ∧ ∀ j < n, ∃ byte, chunk[j]? = some byte ∧ Readable phys root (cur + j) byte := by
  rw [readPiece, tree.translate_read] at read
  obtain ⟨pa, translated, copied⟩ := Option.bind_eq_some_iff.mp read
  obtain ⟨⟨level, entry⟩, found, allowed⟩ := Option.bind_eq_some_iff.mp translated
  dsimp only at allowed
  split at allowed
  · next permitted =>
    cases allowed
    unfold physRead at copied
    split at copied
    · next pool =>
      cases copied
      refine ⟨by simp [Memory.readBytes], fun j small => ⟨phys.mem (target cur level entry + j), ?_, ?_⟩⟩
      · simp [Memory.readBytes, small]
      · simp only [inPool, Bool.and_eq_true, decide_eq_true_eq] at pool
        exact (readable_page found (by omega)).mpr ⟨permitted, ⟨by omega, by omega⟩, rfl⟩
    · cases copied
  · cases allowed

theorem Tree.readPiece_none (tree : Tree phys root) {n : Nat} (filled : 0 < n) (inside : cur % 4096 + n ≤ 4096)
    (unread : readPiece phys root cur n = none) : ∃ j < n, ∀ byte, ¬ Readable phys root (cur + j) byte := by
  by_contra! all
  obtain ⟨byte, level, entry, reads⟩ := all 0 filled
  have found : leafAt phys.mem root cur = some (level, entry) := reads.leaf
  obtain ⟨_, last⟩ := all (n - 1) (by omega)
  obtain ⟨permitted, low, -⟩ := (readable_page found (by omega)).mp (all 0 filled).choose_spec
  obtain ⟨-, high, -⟩ := (readable_page found (by omega)).mp last
  have pool : inPool (target cur level entry) n = true := by
    simp only [inPool, Bool.and_eq_true, decide_eq_true_eq]
    omega
  rw [readPiece, tree.translate_read, found, Option.bind_some, if_pos permitted, Option.bind_some, physRead, if_pos pool] at unread
  cases unread

section Loop

variable {len done fuel : Nat}

/-- Where the next piece starts and how long it is. -/
def pieceAt (va len done : Nat) : Nat × Nat :=
  ((va + done) % 2 ^ 64, min (pageSize - (va + done) % 2 ^ 64 % pageSize) (len - done))

theorem copyFrom_succ (left : done < len) : copyFrom phys root va len (fuel + 1) done =
    (readPiece phys root (pieceAt va len done).1 (pieceAt va len done).2).bind fun chunk =>
      (copyFrom phys root va len fuel (done + (pieceAt va len done).2)).map (chunk ++ ·) := by
  rw [copyFrom, if_neg (Nat.not_le_of_lt left)]
  dsimp only [readPiece, pieceAt]
  cases translateChecked phys root ((va + done) % 2 ^ 64) (U ||| R) with
  | none => rfl
  | some pa =>
    dsimp only
    rw [Option.bind_some]
    cases physRead phys pa _ <;> rfl

theorem pieceAt_spec (va : Nat) (left : done < len) : 0 < (pieceAt va len done).2 ∧ (pieceAt va len done).2 ≤ len - done ∧
    (pieceAt va len done).1 % 4096 + (pieceAt va len done).2 ≤ 4096 ∧
    ∀ j < (pieceAt va len done).2, (pieceAt va len done).1 + j = (va + (done + j)) % 2 ^ 64 := by
  have size : pageSize = 4096 := rfl
  dsimp only [pieceAt]
  rw [size]
  refine ⟨by omega, by omega, by omega, fun j inside => by omega⟩

theorem Tree.copyFrom_some (tree : Tree phys root) {data : Bytes} (enough : len - done ≤ fuel)
    (copied : copyFrom phys root va len fuel done = some data) :
    data.length = len - done ∧
      ∀ j < len - done, ∃ byte, data[j]? = some byte ∧ Readable phys root ((va + (done + j)) % 2 ^ 64) byte := by
  induction fuel generalizing done data with
  | zero =>
    cases copied
    exact ⟨by simp; omega, fun j inside => by omega⟩
  | succ fuel ih =>
    by_cases left : done < len
    · obtain ⟨filled, fits, inside, along⟩ := pieceAt_spec va left
      rw [copyFrom_succ left] at copied
      generalize pieceAt va len done = piece at *
      obtain ⟨chunk, read, rest⟩ := Option.bind_eq_some_iff.mp copied
      obtain ⟨later, isLater, rfl⟩ := Option.map_eq_some_iff.mp rest
      obtain ⟨length, bytes⟩ := tree.readPiece_some inside read
      obtain ⟨length', bytes'⟩ := ih (by omega) isLater
      refine ⟨by rw [List.length_append]; omega, fun j small => ?_⟩
      by_cases here : j < piece.2
      · obtain ⟨byte, isByte, readable⟩ := bytes j here
        rw [along j here] at readable
        exact ⟨byte, by rw [List.getElem?_append_left (by omega)]; exact isByte, readable⟩
      · obtain ⟨byte, isByte, readable⟩ := bytes' (j - piece.2) (by omega)
        rw [show done + piece.2 + (j - piece.2) = done + j by omega] at readable
        exact ⟨byte, by rw [List.getElem?_append_right (by omega), length]; exact isByte, readable⟩
    · rw [copyFrom, if_pos (Nat.le_of_not_lt left)] at copied
      cases copied
      exact ⟨by simp; omega, fun j inside => by omega⟩

theorem Tree.copyFrom_none (tree : Tree phys root) (enough : len - done ≤ fuel)
    (refused : copyFrom phys root va len fuel done = none) :
    ∃ j < len - done, ∀ byte, ¬ Readable phys root ((va + (done + j)) % 2 ^ 64) byte := by
  induction fuel generalizing done with
  | zero => cases refused
  | succ fuel ih =>
    by_cases left : done < len
    · obtain ⟨filled, fits, inside, along⟩ := pieceAt_spec va left
      rw [copyFrom_succ left] at refused
      generalize pieceAt va len done = piece at *
      cases read : readPiece phys root piece.1 piece.2 with
      | none =>
        obtain ⟨j, small, blocked⟩ := tree.readPiece_none filled inside read
        exact ⟨j, by omega, fun byte => along j small ▸ blocked byte⟩
      | some chunk =>
        rw [read, Option.bind_some, Option.map_eq_none_iff] at refused
        obtain ⟨j, small, blocked⟩ := ih (by omega) refused
        refine ⟨piece.2 + j, by omega, ?_⟩
        rwa [show done + (piece.2 + j) = done + piece.2 + j by omega]
    · rw [copyFrom, if_pos (Nat.le_of_not_lt left)] at refused
      cases refused

end Loop

/-- `copy_from_user` succeeds if and only if every byte of the range is mapped by a leaf with
U and R to a page of the pool, and then returns those bytes. -/
theorem copyFromUser_exact (tree : Tree phys root) (va len : Nat) :
    ((copyFromUser phys root va len).isSome = true ↔ ∀ i < len, ∃ byte, Readable phys root ((va + i) % 2 ^ 64) byte) ∧
      ∀ buf, copyFromUser phys root va len = some buf → buf.length = len ∧
        ∀ i < len, ∃ byte, buf[i]? = some byte ∧ Readable phys root ((va + i) % 2 ^ 64) byte := by
  have copied : ∀ buf, copyFromUser phys root va len = some buf → buf.length = len ∧
      ∀ i < len, ∃ byte, buf[i]? = some byte ∧ Readable phys root ((va + i) % 2 ^ 64) byte := by
    intro buf isBuf
    obtain ⟨length, bytes⟩ := tree.copyFrom_some (Nat.sub_le ..) isBuf
    exact ⟨length, fun i small => by simpa using bytes i small⟩
  refine ⟨⟨fun success i small => ?_, fun all => ?_⟩, copied⟩
  · obtain ⟨buf, isBuf⟩ := Option.isSome_iff_exists.mp success
    obtain ⟨byte, -, readable⟩ := (copied buf isBuf).2 i small
    exact ⟨byte, readable⟩
  · cases refused : copyFromUser phys root va len with
    | some buf => rfl
    | none =>
      obtain ⟨j, small, blocked⟩ := tree.copyFrom_none (Nat.sub_le ..) refused
      rw [Nat.zero_add] at blocked
      obtain ⟨byte, readable⟩ := all j small
      exact absurd readable (blocked byte)

/-- The kernel's own page is refused. -/
theorem copyFromUser_exact_kernel : ¬ ∀ i < 1, ∃ byte, Readable firstSpace poolBase ((poolBase + i) % 2 ^ 64) byte := by
  have refused : (copyFromUser firstSpace poolBase poolBase 1).isSome = false := by decide +kernel
  intro all
  have accepted := (copyFromUser_exact (firstSpace_grows True).space.framed.tree poolBase 1).1.mpr all
  rw [refused] at accepted
  cases accepted

section Hart

/-- Where a U-mode load from `va` reads; none if it faults. -/
def loadAddress (mem : Memory) (root va : Nat) : Option Nat :=
  if canonical va then
    (leafAt mem root va).bind fun leaf =>
      if leaf.2 &&& U ≠ 0 ∧ leaf.2 &&& R ≠ 0 then some (target va leaf.1 leaf.2) else none
  else none

private theorem lastFrom_zero (va : Nat) {table : Nat} (frame : IsFrame table) :
    (walkFrom phys va 0 table).getLast? = some (0, entryAt phys.mem table (vpn va 0)) := by
  rw [walkFrom]
  simp only [readPte_eq phys frame (vpn_lt va 0), ite_self]
  rfl

theorem walkFrom_filled (phys : Phys) (va level table : Nat) : walkFrom phys va level table ≠ [] := by
  cases level <;> rw [walkFrom] <;> split <;> simp

private theorem lastFrom_succ (va level : Nat) {table : Nat} (frame : IsFrame table) :
    (walkFrom phys va (level + 1) table).getLast? =
      match child phys.mem table (vpn va (level + 1)) with
      | some next => (walkFrom phys va level next).getLast?
      | none => some (level + 1, entryAt phys.mem table (vpn va (level + 1))) := by
  rw [walkFrom]
  simp only [readPte_eq phys frame (vpn_lt va (level + 1)), child]
  generalize entryAt phys.mem table (vpn va (level + 1)) = entry
  by_cases invalid : entry &&& V = 0
  · simp [invalid]
  · by_cases pointer : entry &&& permMask = 0
    · obtain ⟨first, rest, more⟩ := List.exists_cons_of_ne_nil (walkFrom_filled phys va level (ptePa entry))
      simp [invalid, pointer, more]
    · simp [pointer]

/-- The walk ends at the leaf that the hart finds, if there is one. -/
theorem Tree.walk_last (tree : Tree phys root) {level pte : Nat} (last : (walk phys root va).getLast? = some (level, pte))
    (leafy : IsLeaf pte) : leafAt phys.mem root va = some (level, pte) := by
  have top : pageNumber va / 512 / 512 = vpn va 2 := (vpn_two va).symm
  have middle : pageNumber va / 512 % 512 = vpn va 1 := (vpn_one va).symm
  have small := pageNumber_lt va
  have pointer : ∀ {table next : Nat} {i : Nat}, child phys.mem table i = some next → leafOf (entryAt phys.mem table i) = none := by
    intro table next i isChild
    unfold child at isChild
    split at isChild
    · next points => exact if_neg fun leafy => leafy.2 points.2
    · cases isChild
  rw [walk, lastFrom_succ va 1 tree.tables.root] at last
  rw [leafAt_layers, midOf, pteOf, lowAt, top, middle, ← vpn_zero]
  cases isMid : child phys.mem root (vpn va 2) with
  | none =>
    rw [isMid] at last
    cases last
    simp [leafOf, leafy]
  | some mid =>
    have midFrame := tree.tables.frames _ _ rfl (frameAt_mid (vpn_lt va 2) isMid)
    simp only [isMid] at last
    rw [lastFrom_succ va 0 midFrame] at last
    simp only [pointer isMid, Option.map_none, Option.none_or, Option.bind_some]
    cases isLow : child phys.mem mid (vpn va 1) with
    | none =>
      rw [isLow] at last
      cases last
      simp [leafOf, leafy]
    | some low =>
      have place : lowAt phys.mem root (pageNumber va / 512) = some low := by
        rw [lowAt, top, middle, isMid]
        exact isLow
      have lowFrame := tree.tables.frames _ _ rfl (frameAt_low (by omega) place)
      simp only [isLow] at last
      rw [lastFrom_zero va lowFrame] at last
      cases last
      rw [pointer isLow]
      simp [leafOf, leafy]

/-- On the addresses that the hart accepts, a checked translation and the end of a walk
promise a load no more than the hart grants. -/
theorem Tree.load_granted (tree : Tree phys root) (valid : canonical va = true) :
    (∀ pa, translateChecked phys root va (U ||| R) = some pa → loadAddress phys.mem root va = some pa) ∧
      ∀ level pte, (walk phys root va).getLast? = some (level, pte) → IsLeaf pte → pte &&& U ≠ 0 → pte &&& R ≠ 0 →
        ∃ pa, loadAddress phys.mem root va = some pa := by
  refine ⟨fun pa translated => ?_, fun level pte last leafy user readable => ?_⟩
  · rw [tree.translate_read] at translated
    rw [loadAddress, if_pos valid]
    exact translated
  · rw [loadAddress, if_pos valid, tree.walk_last last leafy, Option.bind_some, if_pos ⟨user, readable⟩]
    exact ⟨_, rfl⟩

end Hart

end Kernai.Mm

namespace Kernai
open Hal Frames Mm Foundation Kernel Payload Machine

variable {build : Build} {config : Config}

theorem Machine.Reachable.spaceTree (reached : Reachable build anyStep config) {owner : Owner} {root : Nat}
    (isRoot : (estate config.state.core).root owner = some root) : Tree config.state.core.phys root :=
  (reached.coreInv.heap.owned.spaces owner root isRoot).framed.tree

/-- In every state reached, for every address space and every address that the hart accepts,
the kernel reads for a payload only what a load of the payload would read, and the page walk
of a fault report shows a permitted access only where a load is permitted. -/
theorem deputy_reads_granted (reached : Reachable build anyStep config) {owner : Owner} {root : Nat}
    (isRoot : (estate config.state.core).root owner = some root) (va : Nat) (valid : Sv39.canonical va = true) :
    (∀ pa, translateChecked config.state.core.phys root va (U ||| R) = some pa →
      loadAddress config.state.core.phys.mem root va = some pa) ∧
    ∀ level pte, (walk config.state.core.phys root va).getLast? = some (level, pte) → IsLeaf pte → pte &&& U ≠ 0 →
      pte &&& R ≠ 0 → ∃ pa, loadAddress config.state.core.phys.mem root va = some pa :=
  (reached.spaceTree isRoot).load_granted valid

/-- The data page of a payload, at its address and 2^39 above it. -/
def aliased : Script dataBuild anyMove (boot dataBuild) fun config =>
    (config.state.core.table pid0).state = .running ∧ (config.state.core.table pid0).root ≠ 0 ∧
      (translateChecked config.state.core.phys (config.state.core.table pid0).root 0x20000 (U ||| R)).isSome = true ∧
      (translateChecked config.state.core.phys (config.state.core.table pid0).root (2 ^ 39 + 0x20000) (U ||| R)).isSome = true ∧
      ∃ last ∈ (walk config.state.core.phys (config.state.core.table pid0).root (2 ^ 39 + 0x20000)).getLast?,
        IsLeaf last.2 ∧ last.2 &&& U ≠ 0 ∧ last.2 &&& R ≠ 0 where
  moves := startSuite
  passes := by decide +kernel

theorem aliased_root : (estate aliased.config.state.core).root (.slot pid0) = some (aliased.config.state.core.table pid0).root :=
  if_pos ⟨by rw [aliased.tested.1]; decide, aliased.tested.2.1⟩

theorem deputy_reads_granted_data : ∃ pa,
    loadAddress aliased.config.state.core.phys.mem (aliased.config.state.core.table pid0).root 0x20000 = some pa := by
  obtain ⟨-, -, translated, -⟩ := aliased.tested
  obtain ⟨pa, isPa⟩ := Option.isSome_iff_exists.mp translated
  exact ⟨pa, (deputy_reads_granted (aliased.reachable anyMove_sound) aliased_root 0x20000 (by decide)).1 pa isPa⟩

/-- Nothing checks the bits above the page number: the kernel reads the page for the payload
2^39 above its address, where a load of the payload faults. -/
theorem deputy_reads_alias : ∃ config owner root va, Reachable dataBuild anyStep config ∧
    (estate config.state.core).root owner = some root ∧ va < 2 ^ 64 ∧
    (∃ pa, translateChecked config.state.core.phys root va (U ||| R) = some pa) ∧
    (∃ level pte, (walk config.state.core.phys root va).getLast? = some (level, pte) ∧ IsLeaf pte ∧ pte &&& U ≠ 0 ∧
      pte &&& R ≠ 0) ∧
    loadAddress config.state.core.phys.mem root va = none := by
  obtain ⟨-, -, -, translated, ⟨level, pte⟩, last, leafy, user, readable⟩ := aliased.tested
  refine ⟨aliased.config, .slot pid0, _, 2 ^ 39 + 0x20000, aliased.reachable anyMove_sound, aliased_root, by decide,
    Option.isSome_iff_exists.mp translated, ⟨level, pte, last, leafy, user, readable⟩, ?_⟩
  rw [loadAddress, if_neg (by decide)]

end Kernai
