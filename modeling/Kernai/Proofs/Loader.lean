import Kernai.Payload
import Kernai.Proofs.Copy
import Kernai.Proofs.Contexts

/-! The loader: whatever bytes it is given, the space it builds stays well
formed, and an image with well-formed segments loses no frame on the way. -/

namespace Kernai.Elf
open Hal Frames Mm Foundation Console

variable {tight : Prop} {base phys after : Phys} {root : Nat} {image : Bytes}

/-- A segment with at least one of R, W, X whose file bytes lie in the image. -/
structure Segment.WellFormed (image : Bytes) (segment : Segment) : Prop where
  addressable : image.length < 2 ^ 64
  visible : segment.flags &&& pfR ≠ 0 ∨ segment.flags &&& pfW ≠ 0 ∨ segment.flags &&& pfX ≠ 0
  inside : segment.filesz = 0 ∨ segment.offset + segment.filesz ≤ image.length

/-- Every PT_LOAD segment that `load` would read is well formed. -/
def WellFormed (image : Bytes) : Prop := ∀ header, readHeader image = .ok header → ∀ i, i < header.phnum →
  u32At image (header.phoff + i * header.phentsize) = some ptLoad →
    ∀ segment, readSegment image (header.phoff + i * header.phentsize) = some segment → segment.WellFormed image

theorem Segment.userPerms {segment : Segment} (exclusive : ¬ (segment.perms &&& W ≠ 0 ∧ segment.perms &&& X ≠ 0)) :
    UserPerms segment.perms := by
  refine ⟨?_, ?_, exclusive⟩
  · unfold Segment.perms
    split_ifs <;> decide
  · unfold Segment.perms
    split_ifs <;> decide

theorem Segment.WellFormed.perms {segment : Segment} (formed : segment.WellFormed image) :
    segment.perms &&& permMask ≠ 0 := by
  unfold Segment.perms
  rcases formed.visible with readable | writable | executable
  · rw [if_pos readable]
    split_ifs <;> decide
  · rw [if_pos writable]
    split_ifs <;> decide
  · rw [if_pos executable]
    split_ifs <;> decide

theorem getRange_some {bytes out : Bytes} {start stop : Nat} (found : getRange bytes start stop = some out) :
    start ≤ stop ∧ out.length = stop - start := by
  unfold getRange at found
  split at found
  · next inside =>
    cases found
    refine ⟨inside.1, ?_⟩
    rw [List.length_take, List.length_drop]
    omega
  · cases found


private theorem range_inside {offset vaddr filesz start stop length : Nat} (inside : offset + filesz ≤ length)
    (small : length < 2 ^ 64) (above : vaddr ≤ start) (order : start < stop) (below : stop ≤ vaddr + filesz) :
    (offset + (start - vaddr)) % 2 ^ 64 ≤ ((offset + (start - vaddr)) % 2 ^ 64 + (stop - start)) % 2 ^ 64 ∧
      ((offset + (start - vaddr)) % 2 ^ 64 + (stop - start)) % 2 ^ 64 ≤ length := by
  have first : (offset + (start - vaddr)) % 2 ^ 64 = offset + (start - vaddr) := Nat.mod_eq_of_lt (by omega)
  rw [first, Nat.mod_eq_of_lt (show offset + (start - vaddr) + (stop - start) < 2 ^ 64 by omega)]
  omega

private theorem range_length {start count : Nat} (order : start ≤ (start + count) % 2 ^ 64) (small : count ≤ 4096)
    (bound : start < 2 ^ 64) : (start + count) % 2 ^ 64 - start = count := by
  omega

theorem fillPage_grows {segment : Segment} {page frame : Nat} {result : Except ElfError Unit}
    (grows : Grows tight base root (some frame) phys) (formed : tight → segment.WellFormed image)
    (ran : fillPage image segment page frame phys = (result, after)) :
    (result = .ok () ∧ Grows tight base root (some frame) after) ∨
      ((∃ reason, result = .error reason) ∧ Grows tight base root none after) := by
  unfold fillPage at ran
  dsimp only at ran
  split at ran
  · next order =>
    have above : segment.vaddr ≤ max page segment.vaddr := Nat.le_max_right _ _
    have start : page ≤ max page segment.vaddr := Nat.le_max_left _ _
    have below : min (page + pageSize) (segment.vaddr + segment.filesz) ≤ segment.vaddr + segment.filesz :=
      Nat.min_le_right _ _
    have stop : min (page + pageSize) (segment.vaddr + segment.filesz) ≤ page + pageSize := Nat.min_le_left _ _
    generalize max page segment.vaddr = copyStart at *
    generalize min (page + pageSize) (segment.vaddr + segment.filesz) = copyEnd at *
    have size : pageSize = 4096 := rfl
    split at ran
    · next outside =>
      cases ran
      refine .inr ⟨⟨_, rfl⟩, grows.forget fun assumed => ?_⟩
      unfold getRange at outside
      rw [if_pos (range_inside ((formed assumed).inside.resolve_left (by omega)) (formed assumed).addressable above order
        below)] at outside
      cases outside
    · next src found =>
      obtain ⟨ordered, length⟩ := getRange_some found
      rw [range_length ordered (by omega) (Nat.mod_lt _ (by decide))] at length
      have pool : inPool (frame + (copyStart - page)) src.length = true :=
        (grows.held frame rfl).1.isFrame.inPool _ _ (by omega)
      rw [physWrite, if_pos pool] at ran
      cases ran
      refine .inl ⟨rfl, (grows.fill fun a away => if_neg ?_).1⟩
      omega
  · cases ran
    exact .inl ⟨rfl, grows⟩

theorem mapPages_grows {segment : Segment} {result : Except ElfError Unit}
    (exclusive : ¬ (segment.perms &&& W ≠ 0 ∧ segment.perms &&& X ≠ 0)) (formed : tight → segment.WellFormed image)
    (count : Nat) : ∀ page phys, Grows tight base root none phys →
      mapPages image root segment count page phys = (result, after) → Grows tight base root none after := by
  induction count with
  | zero =>
    intro page phys grows ran
    cases ran
    exact grows
  | succ count ih =>
    intro page phys grows ran
    rw [mapPages] at ran
    split at ran
    · cases ran
      exact grows
    split at ran
    · next failed =>
      cases ran
      rw [alloc_none failed]
      exact grows
    next frame taken allocated =>
    have inHand := (grows.take allocated).1
    split at ran
    · next filled =>
      cases ran
      rcases fillPage_grows inHand formed filled with ⟨bad, _⟩ | ⟨_, grown⟩
      · cases bad
      · exact grown
    next filled =>
    rcases fillPage_grows inHand formed filled with ⟨_, grown⟩ | ⟨⟨_, bad⟩, _⟩
    · split at ran
      · next failed =>
        cases ran
        rcases (mapPage_grows grown (Segment.userPerms exclusive) (.page rfl fun assumed => (formed assumed).perms)
          failed).2 with ⟨bad, _⟩ | ⟨_, still, _⟩
        · cases bad
        · exact still.drop
      · next mapped =>
        rcases (mapPage_grows grown (Segment.userPerms exclusive) (.page rfl fun assumed => (formed assumed).perms)
          mapped).2 with ⟨_, still, _⟩ | ⟨bad, _⟩
        · exact ih _ _ still ran
        · exact absurd rfl bad
    · cases bad

theorem loadSegment_grows {ph : Nat} {result : Except ElfError Unit} (grows : Grows tight base root none phys)
    (formed : tight → u32At image ph = some ptLoad → ∀ segment, readSegment image ph = some segment →
      segment.WellFormed image)
    (ran : loadSegment image root ph phys = (result, after)) : Grows tight base root none after := by
  unfold loadSegment at ran
  split at ran
  · cases ran
    exact grows
  next kind readKind =>
  split at ran
  · cases ran
    exact grows
  next isLoad =>
  split at ran
  · cases ran
    exact grows
  next segment found =>
  split at ran
  · cases ran
    exact grows
  split at ran
  · cases ran
    exact grows
  next exclusive =>
  unfold mapSegment at ran
  split at ran
  · cases ran
    exact grows
  · refine mapPages_grows exclusive (fun assumed => formed assumed ?_ segment found) _ _ _ grows ran
    rw [readKind, not_not.mp isLoad]

theorem loadSegments_grows {phoff phentsize : Nat} {result : Except ElfError Unit} (indices : List Nat)
    (formed : tight → ∀ i ∈ indices, u32At image (phoff + i * phentsize) = some ptLoad →
      ∀ segment, readSegment image (phoff + i * phentsize) = some segment → segment.WellFormed image) :
    ∀ phys, Grows tight base root none phys →
      loadSegments image root phoff phentsize indices phys = (result, after) → Grows tight base root none after := by
  induction indices with
  | nil =>
    intro phys grows ran
    cases ran
    exact grows
  | cons i rest ih =>
    intro phys grows ran
    rw [loadSegments] at ran
    have here := fun assumed : tight => formed assumed i (by simp)
    split at ran
    · next loaded =>
      cases ran
      exact loadSegment_grows grows here loaded
    · next loaded =>
      exact ih (fun assumed j member => formed assumed j (by simp [member])) _ (loadSegment_grows grows here loaded) ran

theorem load_grows {result : Except ElfError Nat} (grows : Grows tight base root none phys)
    (formed : tight → WellFormed image) (ran : load image root phys = (result, after)) :
    Grows tight base root none after := by
  unfold load at ran
  split at ran
  · cases ran
    exact grows
  next header checked =>
  have segments : ∀ {result after},
      loadSegments image root header.phoff header.phentsize (List.range header.phnum) phys = (result, after) →
        Grows tight base root none after :=
    loadSegments_grows (List.range header.phnum)
      (fun assumed i member => formed assumed header checked i (List.mem_range.mp member)) phys grows
  split at ran
  · next loaded =>
    cases ran
    exact segments loaded
  · next loaded =>
    split at ran
    · cases ran
      exact segments loaded
    · cases ran
      exact segments loaded

end Kernai.Elf

namespace Kernai.Payload
open Hal Frames Mm Foundation Context

variable {tight : Prop} {base phys after : Phys} {root : Nat}

theorem mapWindowPages_grows {result : Except String Unit} (count : Nat) : ∀ va pa phys,
    Grows tight base root none phys → poolEnd ≤ pa → pa % 4096 = 0 → pa + count * 4096 ≤ 2 ^ 56 →
      mapWindowPages root va pa count phys = (result, after) → Grows tight base root none after := by
  induction count with
  | zero =>
    intro va pa phys grows _ _ _ ran
    cases ran
    exact grows
  | succ count ih =>
    intro va pa phys grows beyond aligned small ran
    have size : pageSize = 4096 := rfl
    rw [mapWindowPages] at ran
    have user : UserPerms (R ||| U) := by
      unfold UserPerms
      decide
    have window : Mappable tight none pa (R ||| U) := .window rfl beyond aligned (by omega) rfl
    split at ran
    · next failed =>
      cases ran
      rcases (mapPage_grows grows user window failed).2 with ⟨bad, _⟩ | ⟨_, still, _⟩
      · cases bad
      · exact still
    · next found =>
      rcases (mapPage_grows grows user window found).2 with ⟨_, still, _⟩ | ⟨bad, _⟩
      · exact ih _ _ _ still (by omega) (by omega) (by omega) ran
      · exact absurd rfl bad

private theorem window_grows {build : Build} {image : ImageId} {result : Except String Unit}
    (grows : Grows tight base root none phys)
    (ran : (match imageWindow build image with
      | some (va, pa, len) => mapWindow root va pa len phys
      | none => (.ok (), phys)) = (result, after)) : Grows tight base root none after := by
  unfold imageWindow at ran
  split at ran
  · next va pa len found =>
    split at found
    · cases found
      exact mapWindowPages_grows _ _ _ _ grows (by decide) (by decide) (by decide) ran
    · cases found
  · cases ran
    exact grows

theorem u64At_lt {image : Bytes} {off value : Nat} (ran : Elf.u64At image off = some value) : value < 2 ^ 64 := by
  unfold Elf.u64At Elf.uintAt at ran
  split at ran
  · cases ran
    exact Nat.lt_of_lt_of_eq (Memory.littleEndian_lt _ 8) (by decide)
  · cases ran

theorem readHeader_entry {image : Bytes} {header : Elf.Header} (ran : Elf.readHeader image = .ok header) :
    header.entry < 2 ^ 64 := by
  unfold Elf.readHeader at ran
  split at ran
  · cases ran
  split at ran
  · cases ran
  split at ran
  · cases ran
  split at ran
  · next found _ _ _ =>
    split at ran
    · cases ran
    split at ran
    · cases ran
    cases ran
    exact u64At_lt found
  · cases ran

/-- The entry point is a word of the file. -/
theorem buildImage_entry {build : Build} {image : ImageId} {root frame entry : Nat}
    (ran : buildImage build image base = (.ok (root, frame, entry), after)) : entry < 2 ^ 64 := by
  unfold buildImage at ran
  split at ran
  · cases ran
  split at ran
  · cases ran
  split at ran
  · cases ran
  next loaded =>
  dsimp only at ran
  split at ran
  · cases ran
  split at ran
  · cases ran
  cases ran
  unfold Elf.load at loaded
  split at loaded
  · cases loaded
  next header read =>
  split at loaded
  · cases loaded
  split at loaded
  · cases loaded
  · cases loaded
    exact readHeader_entry read

/-- The fresh path of `start` builds a whole new space and its first register
frame, or leaves nothing behind. -/
theorem buildImage_spec {build : Build} {image : ImageId} {result : Except String (Nat × Nat × Nat)}
    (formed : tight → Elf.WellFormed (build.elf image)) (ran : buildImage build image base = (result, after)) :
    (∀ root frame entry, result = .ok (root, frame, entry) →
      Grows tight base root (some frame) after ∧ loadFrame after.mem frame = freshFrame entry) ∧
    (∀ reason, result = .error reason → Undone tight base after) := by
  unfold buildImage at ran
  split at ran
  · next failed =>
    cases ran
    refine ⟨nofun, fun _ _ => ?_⟩
    rw [alloc_none failed]
    exact .refl tight base
  next root middle made =>
  split at ran
  · next failed =>
    cases (newSpace_grows tight made failed).1
  next mapped =>
  have kernel := (newSpace_grows tight made mapped).2.1
  split at ran
  · next loaded =>
    cases ran
    exact ⟨nofun, fun _ _ => (Elf.load_grows kernel formed loaded).destroy⟩
  next loaded =>
  have program := Elf.load_grows kernel formed loaded
  dsimp only at ran
  split at ran
  · next failed =>
    cases ran
    exact ⟨nofun, fun _ _ => (window_grows program failed).destroy⟩
  next shared =>
  have whole := window_grows program shared
  split at ran
  · next failed =>
    cases ran
    refine ⟨nofun, fun _ _ => ?_⟩
    rw [alloc_none failed]
    exact whole.destroy
  next frame taken allocated =>
  cases ran
  obtain ⟨grown, -, -, zeroed⟩ := whole.take allocated
  obtain ⟨within, loads⟩ := initFrameTo_spec taken (grown.held frame rfl).1.isFrame _ zeroed
  refine ⟨fun _ _ _ same => ?_, nofun⟩
  cases same
  refine ⟨?_, loads⟩
  rw [within.rest]
  exact (grown.fill fun a away => within.elsewhere a (by omega)).1

end Kernai.Payload
