import Kernai.Proofs.Loader
import Kernai.Proofs.Teardown

/-! What a loaded image looks like: each page of each segment holds the file's bytes
and zeros after them, under the segment's permissions, and there is nothing else. -/

namespace Kernai.Elf
open Hal Frames Mm Foundation Sv39

variable {phys after : Phys} {root : Nat} {image : Bytes} {segment : Segment}

/-- A Rust slice: no more than `isize::MAX` bytes. -/
abbrev Slice := { bytes : Bytes // bytes.length < 2 ^ 63 }

/-- The byte a segment puts at `va`: the file's, or zero. -/
def Segment.byteAt (image : Bytes) (segment : Segment) (va : Nat) : UInt8 :=
  if segment.vaddr ≤ va ∧ va < segment.vaddr + segment.filesz then image.getD (segment.offset + (va - segment.vaddr)) 0
  else 0

/-- If `va` lies in the segment's file part, its byte is there. -/
def Segment.InFile (image : Bytes) (segment : Segment) (va : Nat) : Prop :=
  segment.vaddr ≤ va → va < segment.vaddr + segment.filesz → segment.offset + (va - segment.vaddr) < image.length

/-- Where the page loop stands: at the first page, past the file's bytes, or at an
offset the previous page has found inside the image. -/
def Cursor (image : Bytes) (segment : Segment) (page : Nat) : Prop :=
  page ≤ segment.vaddr ∨ segment.vaddr + segment.filesz ≤ page ∨
    segment.offset + (page - segment.vaddr) ≤ image.length

/-- The source range of a page does not wrap if it is found at all. -/
private theorem source_range {page start stop : Nat} (addressable : image.length < 2 ^ 63) (small : segment.offset < 2 ^ 64)
    (cursor : Cursor image segment page) (isStart : start = max page segment.vaddr)
    (isStop : stop = min (page + pageSize) (segment.vaddr + segment.filesz)) (order : start < stop) :
    (segment.offset + (start - segment.vaddr)) % 2 ^ 64 = segment.offset + (start - segment.vaddr) := by
  refine Nat.mod_eq_of_lt ?_
  rcases cursor with first | past | inside <;> omega

theorem fillPage_ok {page frame : Nat} (addressable : image.length < 2 ^ 63) (small : segment.offset < 2 ^ 64)
    (cursor : Cursor image segment page) (isFrame : IsFrame frame)
    (ran : fillPage image segment page frame phys = (.ok (), after)) :
    Cursor image segment (page + pageSize) ∧ ∃ mem, after = { phys with mem } ∧
      (∀ a, ¬ (frame ≤ a ∧ a < frame + 4096) → mem a = phys.mem a) ∧
      ((∀ a, frame ≤ a → a < frame + 4096 → phys.mem a = 0) →
        ∀ offset, offset < 4096 → mem (frame + offset) = segment.byteAt image (page + offset)) ∧
      ∀ va, page ≤ va → va < page + 4096 → segment.InFile image va := by
  have size : pageSize = 4096 := rfl
  unfold fillPage at ran
  dsimp only at ran
  generalize isStart : max page segment.vaddr = start at ran
  generalize isStop : min (page + pageSize) (segment.vaddr + segment.filesz) = stop at ran
  split at ran
  · next order =>
    rw [source_range addressable small cursor isStart.symm isStop.symm order] at ran
    split at ran
    · cases ran
    next src found =>
    unfold getRange at found
    split at found
    swap
    · cases found
    next inside =>
    -- a range that wrapped would end before it starts
    have whole : (segment.offset + (start - segment.vaddr) + (stop - start)) % 2 ^ 64 =
        segment.offset + (start - segment.vaddr) + (stop - start) := by omega
    rw [whole] at found inside
    cases found
    have length : ((image.drop (segment.offset + (start - segment.vaddr))).take
        (segment.offset + (start - segment.vaddr) + (stop - start) - (segment.offset + (start - segment.vaddr)))).length =
          stop - start := by
      rw [List.length_take, List.length_drop]
      omega
    rw [physWrite, length, if_pos (isFrame.inPool _ _ (by omega))] at ran
    cases ran
    refine ⟨?_, _, rfl, fun a away => ?_, fun zeroed offset bounded => ?_, fun va above below inFirst inLast => ?_⟩
    · unfold Cursor
      omega
    · refine if_neg ?_
      rw [length]
      omega
    · unfold Memory.writeBytes Segment.byteAt
      rw [length]
      by_cases copied : segment.vaddr ≤ page + offset ∧ page + offset < segment.vaddr + segment.filesz
      · rw [if_pos copied, if_pos (by omega)]
        rw [List.getD_eq_getElem?_getD, List.getElem?_take, if_pos (by omega), List.getElem?_drop,
          List.getD_eq_getElem?_getD]
        congr 2
        omega
      · rw [if_neg copied, if_neg (by omega)]
        exact zeroed _ (by omega) (by omega)
    · omega
  · next order =>
    cases ran
    refine ⟨?_, phys.mem, rfl, fun _ _ => rfl, fun zeroed offset bounded => ?_, fun va above below inFirst inLast => ?_⟩
    · unfold Cursor at cursor ⊢
      omega
    · rw [zeroed _ (by omega) (by omega), Segment.byteAt, if_neg (by omega)]
    · omega

/-- A page of the `index`-th program header's segment. -/
structure Placed where
  index : Nat
  segment : Segment
  page : Nat

/-- The space holds these pages, with the bytes they should have, and no others. -/
structure Loading (image : Bytes) (root : Nat) (pages : List Placed) (phys : Phys) : Prop where
  framed : Framed phys root
  mapped : ∀ placed ∈ pages, ∃ frame, IsFrame frame ∧
    pteOf phys.mem root (pageNumber placed.page) = leaf frame placed.segment.perms ∧
    (placed.segment.perms &&& permMask ≠ 0 → ∀ offset, offset < 4096 →
      phys.mem (frame + offset) = placed.segment.byteAt image (placed.page + offset))
  inFile : ∀ placed ∈ pages, ∀ va, placed.page ≤ va → va < placed.page + 4096 → placed.segment.InFile image va
  only : ∀ m, m < 2 ^ 27 → pteOf phys.mem root m ≠ 0 → ∃ placed ∈ pages, m = pageNumber placed.page
  distinct : (pages.map (pageNumber ·.page)).Nodup

theorem Segment.perms_lt (segment : Segment) : segment.perms < 64 := by
  unfold Segment.perms
  split_ifs <;> decide

/-- A page with a permission bit is a page of the tree, and keeps its bytes as one. -/
private theorem pageFrame_found {m frame perms : Nat} (inside : m < 2 ^ 27) (isFrame : IsFrame frame) (small : perms < 64)
    (carries : perms &&& permMask ≠ 0) (entry : pteOf phys.mem root m = leaf frame perms) :
    frameAt phys.mem root (.page m) = some frame := by
  have bounds := isFrame.bounds
  have isLeaf : IsLeaf (leaf frame perms) := by
    refine ⟨leaf_valid frame small, ?_⟩
    rw [leaf_and frame small (by decide) (by decide)]
    exact carries
  have address : ptePa (leaf frame perms) = frame := ptePa_leaf small (by omega) (by omega)
  have found := frameAt_page inside (entry ▸ isLeaf) (by rw [entry, address]; exact isFrame)
  rw [found, entry, address]

private theorem page_bystander {node : Node} {f m : Nat} (framed : Framed phys root) (isPage : node = .page m)
    (found : frameAt phys.mem root node = some f) : Bystander phys root f := by
  refine ⟨framed.live _ _ found, fun other isTable same => ?_⟩
  cases framed.shape.distinct _ _ _ same found
  rw [isPage] at isTable
  cases isTable

/-- One page of a segment: allocated, filled and mapped. -/
theorem Loading.place {pages : List Placed} {page frame : Nat} {taken filled : Phys} (index : Nat)
    (loading : Loading image root pages phys) (addressable : image.length < 2 ^ 63) (small : segment.offset < 2 ^ 64)
    (cursor : Cursor image segment page) (allocated : alloc phys = (some frame, taken))
    (filling : fillPage image segment page frame taken = (.ok (), filled))
    (mapping : mapPage filled root page frame segment.perms = (.ok (), after)) :
    Loading image root (pages ++ [⟨index, segment, page⟩]) after := by
  have spec := alloc_some allocated
  have bounds := spec.frame.bounds
  obtain ⟨-, mem, rfl, elsewhere, content, inFile⟩ := fillPage_ok addressable small cursor spec.frame filling
  have kept : ∀ f, Live phys f → Live { taken with mem } f ∧ Memory.Agree phys.mem mem f 4096 := by
    intro f live
    have other : f ≠ frame := by
      rintro rfl
      exact spec.fresh live
    refine ⟨(spec.live f).mpr (.inl live), (spec.agree live.isFrame other).trans fun a above below => elsewhere a ?_⟩
    rcases live.isFrame.apart spec.frame other with left | right <;> omega
  obtain ⟨framed, tree⟩ := loading.framed.frame { taken with mem } fun node f found =>
    kept f (loading.framed.live node f found)
  have samePages : ∀ m, m < 2 ^ 27 → pteOf mem root m = pteOf phys.mem root m :=
    (tree_frame fun node f _ found => (kept f (loading.framed.live node f found)).2).2.1
  have unplaced : ∀ node, frameAt mem root node ≠ some frame := by
    intro node found
    rw [tree] at found
    exact spec.fresh (loading.framed.live node frame found)
  have isLive : Live { taken with mem } frame := (spec.live frame).mpr (.inr rfl)
  obtain ⟨new, takes, framedAfter, -⟩ := mapPage_framed framed segment.perms_lt (by omega) (by omega)
    (fun _ => ⟨isLive, unplaced⟩) mapping
  obtain ⟨vacant, spared, updated⟩ := mapPage_ok framed.tree segment.perms_lt (by omega) mapping
  have fresh : ∀ placed ∈ pages, pageNumber placed.page ≠ pageNumber page := by
    intro placed member same
    obtain ⟨old, -, entry, -⟩ := loading.mapped placed member
    rw [samePages _ (pageNumber_lt page), ← same, entry] at vacant
    exact leaf_valid old placed.segment.perms_lt vacant
  refine ⟨framedAfter, ?_, ?_, ?_, ?_⟩
  · intro placed member
    rcases List.mem_append.mp member with old | isNew
    · obtain ⟨f, isFrame, entry, bytes⟩ := loading.mapped placed old
      refine ⟨f, isFrame, ?_, fun carries offset bounded => ?_⟩
      · rw [updated _ (pageNumber_lt _), if_neg (fresh placed old), samePages _ (pageNumber_lt _), entry]
      · have found := pageFrame_found (pageNumber_lt placed.page) isFrame placed.segment.perms_lt carries entry
        have still := page_bystander framed rfl ((tree _).trans found)
        have first := (kept f (loading.framed.live _ f found)).2 (f + offset) (by omega) (by omega)
        have second := (spared f still).2 (f + offset) (by omega) (by omega)
        exact second.trans (first.trans (bytes carries offset bounded))
    · obtain rfl := List.mem_singleton.mp isNew
      refine ⟨frame, spec.frame, ?_, fun _ offset bounded => ?_⟩
      · rw [updated _ (pageNumber_lt page), if_pos rfl]
      · rw [(spared frame ⟨isLive, fun node _ => unplaced node⟩).2 _ (by omega) (by omega)]
        exact content spec.zeroed offset bounded
  · intro placed member
    rcases List.mem_append.mp member with old | isNew
    · exact loading.inFile placed old
    · obtain rfl := List.mem_singleton.mp isNew
      exact inFile
  · intro m inside present
    rw [updated m inside] at present
    split at present
    · next here => exact ⟨⟨index, segment, page⟩, by simp, here⟩
    · rw [samePages m inside] at present
      obtain ⟨placed, member, here⟩ := loading.only m inside present
      exact ⟨placed, List.mem_append_left _ member, here⟩
  · rw [List.map_append]
    refine loading.distinct.append (List.nodup_singleton _) ?_
    simp only [List.map_cons, List.map_nil, List.disjoint_singleton, List.mem_map, not_exists, not_and]
    exact fresh

/-- `count` pages of a segment from `page` on. -/
def placedFrom (index : Nat) (segment : Segment) : (count page : Nat) → List Placed
  | 0, _ => []
  | count + 1, page => ⟨index, segment, page⟩ :: placedFrom index segment count (page + pageSize)

theorem mapPages_loading {index : Nat} (addressable : image.length < 2 ^ 63) (small : segment.offset < 2 ^ 64) (count : Nat) :
    ∀ page phys pages, Loading image root pages phys → Cursor image segment page →
      mapPages image root segment count page phys = (.ok (), after) →
        Loading image root (pages ++ placedFrom index segment count page) after := by
  induction count with
  | zero =>
    intro page phys pages loading _ ran
    cases ran
    rwa [placedFrom, List.append_nil]
  | succ count ih =>
    intro page phys pages loading cursor ran
    rw [mapPages] at ran
    split at ran
    · cases ran
    split at ran
    · cases ran
    next frame taken allocated =>
    split at ran
    · cases ran
    next filled filling =>
    split at ran
    · cases ran
    next mapped mapping =>
    have placed := loading.place index addressable small cursor allocated filling mapping
    have next := (fillPage_ok addressable small cursor (alloc_some allocated).frame filling).1
    have rest := ih _ _ _ placed next ran
    rwa [List.append_assoc] at rest

/-- The pages of a segment, the first and the last in full. -/
def segmentPages (index : Nat) (segment : Segment) : List Placed :=
  placedFrom index segment
    ((segment.vaddr + segment.memsz - (segment.vaddr - segment.vaddr % pageSize) + (pageSize - 1)) / pageSize)
    (segment.vaddr - segment.vaddr % pageSize)

/-- The page range of a segment, by the addresses up to its end. -/
def Segment.Spans (segment : Segment) (va : Nat) : Prop :=
  segment.vaddr - segment.vaddr % pageSize ≤ va ∧ va < segment.vaddr + segment.memsz

theorem mem_placedFrom {index count page : Nat} {placed : Placed} :
    placed ∈ placedFrom index segment count page ↔ ∃ k, k < count ∧ placed = ⟨index, segment, page + k * pageSize⟩ := by
  induction count generalizing page with
  | zero => simp [placedFrom]
  | succ count ih =>
    rw [placedFrom, List.mem_cons, ih]
    constructor
    · rintro (rfl | ⟨k, inside, rfl⟩)
      · exact ⟨0, by omega, by simp⟩
      · exact ⟨k + 1, by omega, by rw [Nat.add_mul, Nat.one_mul, Nat.add_assoc, Nat.add_comm pageSize]⟩
    · rintro ⟨_ | k, inside, rfl⟩
      · simp
      · exact .inr ⟨k, by omega, by rw [Nat.add_mul, Nat.one_mul, Nat.add_assoc, Nat.add_comm pageSize]⟩

theorem mem_segmentPages {index : Nat} {placed : Placed} : placed ∈ segmentPages index segment ↔
    placed.index = index ∧ placed.segment = segment ∧ placed.page % pageSize = 0 ∧ segment.Spans placed.page := by
  have size : pageSize = 4096 := rfl
  rw [segmentPages, mem_placedFrom]
  unfold Segment.Spans
  rw [size]
  constructor
  · rintro ⟨k, inside, rfl⟩
    refine ⟨rfl, rfl, ?_, ?_, ?_⟩ <;> dsimp only <;> omega
  · rintro ⟨rfl, rfl, aligned, above, below⟩
    obtain ⟨index, segment, page⟩ := placed
    dsimp only at *
    refine ⟨(page - (segment.vaddr - segment.vaddr % 4096)) / 4096, by omega, ?_⟩
    congr 1
    omega

/-- The segment the `i`-th program header asks to load, if it asks for one. -/
def segmentAt (image : Bytes) (header : Header) (i : Nat) : Option Segment :=
  if u32At image (header.phoff + i * header.phentsize) = some ptLoad then
    readSegment image (header.phoff + i * header.phentsize)
  else none

/-- The pages it brings. -/
def headerPages (image : Bytes) (header : Header) (i : Nat) : List Placed :=
  match segmentAt image header i with
  | some segment => segmentPages i segment
  | none => []

theorem readSegment_offset {ph : Nat} (found : readSegment image ph = some segment) : segment.offset < 2 ^ 64 := by
  simp only [readSegment, bind, Option.bind_eq_some_iff] at found
  obtain ⟨flags, -, offset, isOffset, vaddr, -, filesz, -, memsz, -, isSegment⟩ := found
  cases isSegment
  exact Payload.u64At_lt isOffset

theorem loadSegment_loading {pages : List Placed} {header : Header} {i : Nat} (addressable : image.length < 2 ^ 63)
    (loading : Loading image root pages phys)
    (ran : loadSegment image root (header.phoff + i * header.phentsize) phys = (.ok (), after)) :
    Loading image root (pages ++ headerPages image header i) after ∧
      ∀ segment, segmentAt image header i = some segment → ¬ (segment.perms &&& W ≠ 0 ∧ segment.perms &&& X ≠ 0) := by
  unfold headerPages segmentAt
  unfold loadSegment at ran
  split at ran
  · cases ran
  next kind readKind =>
  rw [readKind]
  split at ran
  · next other =>
    cases ran
    rw [if_neg fun same => other (Option.some.inj same)]
    exact ⟨by rwa [List.append_nil], nofun⟩
  next isLoad =>
  rw [if_pos (congrArg some (not_not.mp isLoad))]
  split at ran
  · cases ran
  next segment found =>
  rw [found]
  split at ran
  · cases ran
  split at ran
  · cases ran
  next exclusive =>
  unfold mapSegment at ran
  split at ran
  · cases ran
  refine ⟨mapPages_loading addressable (readSegment_offset found) _ _ _ _ loading (.inl (Nat.sub_le _ _)) ran, ?_⟩
  rintro other same
  cases same
  exact exclusive

theorem loadSegments_loading {header : Header} (addressable : image.length < 2 ^ 63) (indices : List Nat) :
    ∀ phys pages, Loading image root pages phys →
      loadSegments image root header.phoff header.phentsize indices phys = (.ok (), after) →
        Loading image root (pages ++ indices.flatMap (headerPages image header)) after ∧
          ∀ i ∈ indices, ∀ segment, segmentAt image header i = some segment →
            ¬ (segment.perms &&& W ≠ 0 ∧ segment.perms &&& X ≠ 0) := by
  induction indices with
  | nil =>
    intro phys pages loading ran
    cases ran
    exact ⟨by rwa [List.flatMap_nil, List.append_nil], nofun⟩
  | cons i rest ih =>
    intro phys pages loading ran
    rw [loadSegments] at ran
    split at ran
    · cases ran
    next loaded =>
    obtain ⟨here, exclusive⟩ := loadSegment_loading addressable loading loaded
    obtain ⟨whole, others⟩ := ih _ _ here ran
    refine ⟨?_, List.forall_mem_cons.mpr ⟨exclusive, others⟩⟩
    rwa [List.flatMap_cons, ← List.append_assoc]

/-- What `load` has checked of the first 64 bytes when it goes on to the program headers. -/
structure Riscv64 (image : Bytes) (header : Header) : Prop where
  long : 64 ≤ image.length
  elf : getRange image 0 4 = some [0x7f, 0x45, 0x4c, 0x46]
  class64 : image.getD 4 0 = 2
  littleEndian : image.getD 5 0 = 1
  machine : u16At image 18 = some 243
  entry : u64At image 24 = some header.entry
  phoff : u64At image 32 = some header.phoff
  phentsize : u16At image 54 = some header.phentsize
  phnum : u16At image 56 = some header.phnum

theorem readHeader_ok {header : Header} (ran : readHeader image = .ok header) : Riscv64 image header := by
  unfold readHeader at ran
  split at ran
  · cases ran
  next long =>
  split at ran
  · cases ran
  next elf =>
  split at ran
  · cases ran
  next kind =>
  simp only [not_or, not_not] at elf kind
  split at ran
  · next isEntry isPhoff isPhentsize isPhnum =>
    split at ran
    · cases ran
    split at ran
    · cases ran
    cases ran
    exact ⟨by omega, elf, kind.1, kind.2.1, kind.2.2, isEntry, isPhoff, isPhentsize, isPhnum⟩
  · cases ran

/-- The `i`-th program header is a `PT_LOAD` one with this segment. -/
def Loads (image : Bytes) (header : Header) (i : Nat) (segment : Segment) : Prop :=
  i < header.phnum ∧ segmentAt image header i = some segment

private theorem mem_pages {header : Header} {placed : Placed} :
    placed ∈ (List.range header.phnum).flatMap (headerPages image header) ↔
      Loads image header placed.index placed.segment ∧ placed.page % pageSize = 0 ∧ placed.segment.Spans placed.page := by
  simp only [List.mem_flatMap, List.mem_range, Loads]
  constructor
  · rintro ⟨i, inside, member⟩
    unfold headerPages at member
    split at member
    · next segment found =>
      obtain ⟨rfl, rfl, aligned, spans⟩ := mem_segmentPages.mp member
      exact ⟨⟨inside, found⟩, aligned, spans⟩
    · cases member
  · rintro ⟨⟨inside, found⟩, aligned, spans⟩
    refine ⟨placed.index, inside, ?_⟩
    unfold headerPages
    rw [found]
    exact mem_segmentPages.mpr ⟨rfl, rfl, aligned, spans⟩

/-- The page of an address in a segment's range is one of the segment's pages. -/
private theorem page_spanned {header : Header} {i va : Nat} (loads : Loads image header i segment) (spans : segment.Spans va) :
    (⟨i, segment, va - va % 4096⟩ : Placed) ∈ (List.range header.phnum).flatMap (headerPages image header) := by
  refine mem_pages.mpr ⟨loads, ?_, ?_⟩
  · simp only [pageSize]
    omega
  · simp only [Segment.Spans, pageSize] at spans ⊢
    omega

private theorem pageNumber_floor (va : Nat) : pageNumber (va - va % 4096) = pageNumber va := by
  unfold pageNumber
  omega

private theorem perms_user (segment : Segment) : segment.perms &&& U ≠ 0 := by
  unfold Segment.perms
  split_ifs <;> decide

private theorem perms_flags (segment : Segment) : segment.perms &&& (R ||| W ||| X ||| U) = segment.perms := by
  unfold Segment.perms
  split_ifs <;> decide

/-- An address in a segment with a permission bit, as the hart and as the kernel see it. -/
private theorem Loading.seen {header : Header} {i va : Nat}
    (loading : Loading image root ((List.range header.phnum).flatMap (headerPages image header)) phys)
    (loads : Loads image header i segment) (carries : segment.perms &&& permMask ≠ 0) (above : segment.vaddr ≤ va)
    (below : va < segment.vaddr + segment.memsz) :
    ∃ pa, translate phys root va = some pa ∧ view phys.mem root va = some (segment.perms, phys.mem pa) ∧
      if va - segment.vaddr < segment.filesz then image[segment.offset + (va - segment.vaddr)]? = some (phys.mem pa)
      else phys.mem pa = 0 := by
  have spans : segment.Spans va := ⟨by omega, below⟩
  have member := page_spanned loads spans
  obtain ⟨frame, isFrame, entry, bytes⟩ := loading.mapped _ member
  have inFile := loading.inFile _ member va (Nat.sub_le _ _) (by dsimp only; omega)
  dsimp only at entry bytes inFile
  rw [pageNumber_floor] at entry
  have bounds := isFrame.bounds
  have permsSmall := segment.perms_lt
  have isLeaf : IsLeaf (leaf frame segment.perms) := by
    refine ⟨leaf_valid frame permsSmall, ?_⟩
    rw [leaf_and frame permsSmall (by decide) (by decide)]
    exact carries
  have isUser : leaf frame segment.perms &&& U ≠ 0 := by
    rw [leaf_and frame permsSmall (by decide) (by decide)]
    exact perms_user segment
  have address : ptePa (leaf frame segment.perms) = frame := ptePa_leaf permsSmall (by omega) (by omega)
  have byte := bytes carries (va % 4096) (Nat.mod_lt _ (by decide))
  rw [show va - va % 4096 + va % 4096 = va by omega] at byte
  have seen := view_eq loading.framed.shape va
  rw [entry, if_pos ⟨isLeaf, isUser⟩, address, leaf_and frame permsSmall (by decide) (by decide), perms_flags] at seen
  have notKernel : vpn va 2 ≠ 2 := by
    intro kernel
    have walked := leafAt_eq loading.framed.shape va
    rw [if_pos kernel] at walked
    unfold view at seen
    rw [walked] at seen
    simp only at seen
    rw [if_pos (by decide)] at seen
    cases seen
  refine ⟨frame + va % 4096, ?_, seen, ?_⟩
  · rw [Mm.translate, loading.framed.tree.translateChecked_eq, leafAt_eq loading.framed.shape, if_neg notKernel, entry,
      if_pos isLeaf]
    simp [answer, target, address]
  · rw [byte, Segment.byteAt]
    split
    · next inside =>
      have small := inFile above (by omega)
      rw [if_pos ⟨above, by omega⟩, List.getElem?_eq_getElem small, List.getD_eq_getElem?_getD,
        List.getElem?_eq_getElem small]
      rfl
    · rw [if_neg (by omega)]

/-- Loading is faithful: from a space with nothing but the kernel in it, a successful
`load` leaves every segment with its permissions and its bytes, segments apart from
one another, and no page besides. -/
theorem load_faithful (image : Slice) (entry : Nat) (framed : Framed phys root)
    (bare : ∀ m, m < 2 ^ 27 → pteOf phys.mem root m = 0) (ran : load image.1 root phys = (.ok entry, after)) :
    ∃ header, Riscv64 image.1 header ∧ header.entry = entry ∧ (translate after root entry).isSome = true ∧
      (∀ i segment, Loads image.1 header i segment →
        ¬ (segment.perms &&& W ≠ 0 ∧ segment.perms &&& X ≠ 0) ∧
        (segment.perms &&& permMask ≠ 0 → ∀ va, segment.vaddr ≤ va → va < segment.vaddr + segment.memsz →
          ∃ pa, translate after root va = some pa ∧ view after.mem root va = some (segment.perms, after.mem pa) ∧
            if va - segment.vaddr < segment.filesz then
              image.1[segment.offset + (va - segment.vaddr)]? = some (after.mem pa)
            else after.mem pa = 0)) ∧
      (∀ i j first second, Loads image.1 header i first → Loads image.1 header j second → i ≠ j →
        ∀ va va', first.Spans va → second.Spans va' → pageNumber va ≠ pageNumber va') ∧
      ∀ va, view after.mem root va ≠ none →
        ∃ i segment va', Loads image.1 header i segment ∧ segment.Spans va' ∧ pageNumber va' = pageNumber va := by
  unfold load at ran
  split at ran
  · cases ran
  next header checked =>
  split at ran
  · cases ran
  next loaded =>
  split at ran
  · cases ran
  next translates =>
  cases ran
  have empty : Loading image.1 root [] phys :=
    ⟨framed, nofun, nofun, fun m inside present => absurd (bare m inside) present, .nil⟩
  obtain ⟨loading, exclusive⟩ := loadSegments_loading image.2 _ _ _ empty loaded
  rw [List.nil_append] at loading
  refine ⟨header, readHeader_ok checked, rfl, ?_, ?_, ?_, ?_⟩
  · simpa [Option.isSome_iff_ne_none] using translates
  · intro i segment loads
    exact ⟨exclusive i (List.mem_range.mpr loads.1) segment loads.2,
      fun carries va above below => loading.seen loads carries above below⟩
  · intro i j first second loads loads' other va va' spans spans' same
    have here := page_spanned loads spans
    have there := page_spanned loads' spans'
    have equal := List.inj_on_of_nodup_map loading.distinct here there
      (by dsimp only; rw [pageNumber_floor, pageNumber_floor, same])
    exact other (congrArg Placed.index equal)
  · intro va visible
    rw [view_eq loading.framed.shape] at visible
    have present : pteOf after.mem root (pageNumber va) ≠ 0 := by
      intro absent
      simp [absent, IsLeaf] at visible
    obtain ⟨placed, member, here⟩ := loading.only _ (pageNumber_lt va) present
    obtain ⟨loads, -, spans⟩ := mem_pages.mp member
    exact ⟨placed.index, placed.segment, placed.page, loads, spans, here.symm⟩

/-- A number as `width` bytes of an ELF file. -/
def field (width n : Nat) : Bytes := (List.range width).map fun index => .ofNat (n / 256 ^ index)

def programHeader (segment : Segment) : Bytes :=
  field 4 ptLoad ++ field 4 segment.flags ++ field 8 segment.offset ++ field 8 segment.vaddr ++ field 8 0 ++
    field 8 segment.filesz ++ field 8 segment.memsz ++ field 8 0

/-- An ELF file with `PT_LOAD` headers right behind its header and `body` after them. -/
def elfFile (entry : Nat) (segments : List Segment) (body : Bytes) : Bytes :=
  [0x7f, 0x45, 0x4c, 0x46, 2, 1] ++ field 12 0 ++ field 2 243 ++ field 4 0 ++ field 8 entry ++ field 8 64 ++ field 14 0 ++
    field 2 56 ++ field 2 segments.length ++ field 6 0 ++ segments.flatMap programHeader ++ body

/-- Two bytes of text at an odd address, and a third byte that is only in memory. -/
def smallImage : Bytes := elfFile 0x10001 [⟨pfR ||| pfX, 120, 0x10001, 2, 3⟩] [0x13, 0x37]

theorem firstSpace_bare (m : Nat) (inside : m < 2 ^ 27) : pteOf firstSpace.mem poolBase m = 0 :=
  (newSpace_grows True (show newSpace pristine = (some poolBase, (newSpace pristine).2) from rfl)
    (show mapKernel (newSpace pristine).2 poolBase = ((mapKernel (newSpace pristine).2 poolBase).1, firstSpace) from rfl)).2.2.1
    m inside

/-- The outcome of a call that is known to succeed. -/
theorem ok_of_toOption {α ε : Type} {result : Except ε α} {value : α} (ok : result.toOption = some value) :
    result = .ok value := by
  cases result with
  | error reason => cases ok
  | ok other =>
    cases ok
    rfl

theorem outcome_ok {α β ε : Type} {outcome : Except ε α × β} {value : α} (ok : outcome.1.toOption = some value) :
    outcome = (.ok value, outcome.2) := Prod.ext (ok_of_toOption ok) rfl

-- evaluating the image byte by byte goes deep
set_option maxRecDepth 4000

theorem smallImage_length : smallImage.length = 122 := by rfl

theorem smallImage_slice : smallImage.length < 2 ^ 63 := by
  rw [smallImage_length]
  decide

theorem smallImage_loads : load smallImage poolBase firstSpace = (.ok 0x10001, (load smallImage poolBase firstSpace).2) :=
  outcome_ok (by decide +kernel)

theorem load_faithful_small : ∃ pa, translate (load smallImage poolBase firstSpace).2 poolBase 0x10002 = some pa ∧
    view (load smallImage poolBase firstSpace).2.mem poolBase 0x10002 = some (R ||| X ||| U, 0x37) := by
  obtain ⟨⟨entry, phoff, phentsize, phnum⟩, checked, -, -, segments, -, -⟩ :=
    load_faithful ⟨smallImage, smallImage_slice⟩ 0x10001 (firstSpace_grows True).space.framed firstSpace_bare
      smallImage_loads
  obtain rfl : 64 = phoff := Option.some.inj (Eq.trans (by rfl) checked.phoff)
  obtain rfl : 56 = phentsize := Option.some.inj (Eq.trans (by rfl) checked.phentsize)
  obtain rfl : 1 = phnum := Option.some.inj (Eq.trans (by rfl) checked.phnum)
  have loads : Loads smallImage ⟨entry, 64, 56, 1⟩ 0 ⟨pfR ||| pfX, 120, 0x10001, 2, 3⟩ := by
    refine ⟨Nat.one_pos, ?_⟩
    change segmentAt smallImage ⟨0, 64, 56, 1⟩ 0 = _
    rfl
  obtain ⟨pa, translated, seen, byte⟩ := (segments 0 _ loads).2 (by decide) 0x10002 (by decide) (by decide)
  have isByte : smallImage[120 + (0x10002 - 0x10001)]? = some 0x37 := by rfl
  rw [if_pos (by decide)] at byte
  refine ⟨pa, translated, ?_⟩
  rw [seen, ← Option.some.inj (isByte.symm.trans byte)]
  rfl

end Kernai.Elf
