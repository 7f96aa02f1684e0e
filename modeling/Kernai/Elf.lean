import Kernai.Mm

/-! The ELF64 loader. Addition on header fields wraps at 2^64, as in the release
profile, wherever the source does not check it. -/

namespace Kernai.Elf
open Hal Frames Mm Foundation

inductive ElfError where
  | tooShort
  | badMagic
  | notElf64Rv
  | badProgramHeaders
  | wxViolation
  | outOfMemory
  | mapFailed
  | entryUnmapped
deriving DecidableEq, Repr

def ElfError.asStr : ElfError → String
  | .tooShort => "too_short"
  | .badMagic => "bad_magic"
  | .notElf64Rv => "not_elf64_riscv"
  | .badProgramHeaders => "bad_program_headers"
  | .wxViolation => "wx_violation"
  | .outOfMemory => "out_of_memory"
  | .mapFailed => "map_failed"
  | .entryUnmapped => "entry_unmapped"

def ptLoad : Nat := 1
def pfX : Nat := 1
def pfW : Nat := 2
def pfR : Nat := 4

def uintAt (width : Nat) (image : Bytes) (off : Nat) : Option Nat :=
  if off + width ≤ image.length then some (Memory.littleEndian (fun index => image.getD (off + index) 0) width)
  else none

def u16At : Bytes → Nat → Option Nat := uintAt 2
def u32At : Bytes → Nat → Option Nat := uintAt 4
def u64At : Bytes → Nat → Option Nat := uintAt 8

structure Segment where
  flags : Nat
  offset : Nat
  vaddr : Nat
  filesz : Nat
  memsz : Nat
deriving DecidableEq, Repr

def readSegment (image : Bytes) (ph : Nat) : Option Segment := do
  let flags ← u32At image (ph + 4)
  let offset ← u64At image (ph + 8)
  let vaddr ← u64At image (ph + 16)
  let filesz ← u64At image (ph + 32)
  let memsz ← u64At image (ph + 40)
  return { flags, offset, vaddr, filesz, memsz }

def Segment.perms (segment : Segment) : Nat :=
  U ||| (if segment.flags &&& pfR ≠ 0 then R else 0) ||| (if segment.flags &&& pfW ≠ 0 then W else 0) |||
    (if segment.flags &&& pfX ≠ 0 then X else 0)

/-- `slice.get(start..stop)`. -/
def getRange (bytes : Bytes) (start stop : Nat) : Option Bytes :=
  if start ≤ stop ∧ stop ≤ bytes.length then some ((bytes.drop start).take (stop - start)) else none

/-- Fill the frame backing `page` with the file bytes that fall within it. A
range outside the image is reported without giving the frame back. -/
def fillPage (image : Bytes) (segment : Segment) (page frame : Nat) (phys : Phys) : Except ElfError Unit × Phys :=
  let copyStart := max page segment.vaddr
  let copyEnd := min (page + pageSize) (segment.vaddr + segment.filesz)
  if copyStart < copyEnd then
    let srcOff := (segment.offset + (copyStart - segment.vaddr)) % 2 ^ 64
    match getRange image srcOff ((srcOff + (copyEnd - copyStart)) % 2 ^ 64) with
    | none => (.error .badProgramHeaders, phys)
    | some src =>
      match physWrite phys (frame + (copyStart - page)) src with
      | (true, phys) => (.ok (), phys)
      | (false, phys) => (.error .mapFailed, free phys frame)
  else (.ok (), phys)

/-- The page loop of `map_segment`, `count` pages to go. -/
def mapPages (image : Bytes) (root : Nat) (segment : Segment) : (count page : Nat) → Phys → Except ElfError Unit × Phys
  | 0, _, phys => (.ok (), phys)
  | count + 1, page, phys =>
    if 2 ^ 64 ≤ page + pageSize then (.error .badProgramHeaders, phys)
    else
      match alloc phys with
      | (none, phys) => (.error .outOfMemory, phys)
      | (some frame, phys) =>
        match fillPage image segment page frame phys with
        | (.error reason, phys) => (.error reason, phys)
        | (.ok (), phys) =>
          match mapPage phys root page frame segment.perms with
          | (.error _, phys) => (.error .mapFailed, free phys frame)
          | (.ok (), phys) => mapPages image root segment count (page + pageSize) phys

def mapSegment (image : Bytes) (root : Nat) (segment : Segment) (phys : Phys) : Except ElfError Unit × Phys :=
  if 2 ^ 64 ≤ segment.vaddr + segment.memsz ∨ 2 ^ 64 ≤ segment.vaddr + segment.filesz then
    (.error .badProgramHeaders, phys)
  else
    let page := segment.vaddr - segment.vaddr % pageSize
    -- `while page < seg_end { …; page += PAGE_SIZE }` turns this many times
    mapPages image root segment ((segment.vaddr + segment.memsz - page + (pageSize - 1)) / pageSize) page phys

def loadSegment (image : Bytes) (root ph : Nat) (phys : Phys) : Except ElfError Unit × Phys :=
  match u32At image ph with
  | none => (.error .badProgramHeaders, phys)
  | some kind =>
    if kind ≠ ptLoad then (.ok (), phys)
    else
      match readSegment image ph with
      | none => (.error .badProgramHeaders, phys)
      | some segment =>
        if segment.memsz < segment.filesz then (.error .badProgramHeaders, phys)
        else if segment.perms &&& W ≠ 0 ∧ segment.perms &&& X ≠ 0 then (.error .wxViolation, phys)
        else mapSegment image root segment phys

def loadSegments (image : Bytes) (root phoff phentsize : Nat) : List Nat → Phys → Except ElfError Unit × Phys
  | [], phys => (.ok (), phys)
  | i :: rest, phys =>
    match loadSegment image root (phoff + i * phentsize) phys with
    | (.error reason, phys) => (.error reason, phys)
    | (.ok (), phys) => loadSegments image root phoff phentsize rest phys

structure Header where
  entry : Nat
  phoff : Nat
  phentsize : Nat
  phnum : Nat
deriving DecidableEq, Repr

/-- The checks of `load` up to its loop over the program headers. -/
def readHeader (image : Bytes) : Except ElfError Header :=
  if image.length < 64 then .error .tooShort
  else if getRange image 0 4 ≠ some [0x7f, 0x45, 0x4c, 0x46] then .error .badMagic
  else if image.getD 4 0 ≠ 2 ∨ image.getD 5 0 ≠ 1 ∨ u16At image 18 ≠ some 243 then .error .notElf64Rv
  else
    match u64At image 24, u64At image 32, u16At image 54, u16At image 56 with
    | some entry, some phoff, some phentsize, some phnum =>
      if phentsize < 56 then .error .badProgramHeaders
      else if 2 ^ 64 ≤ phoff + phnum * phentsize ∨ image.length < phoff + phnum * phentsize then
        .error .badProgramHeaders
      else .ok { entry, phoff, phentsize, phnum }
    | _, _, _, _ => .error .tooShort

def load (image : Bytes) (root : Nat) (phys : Phys) : Except ElfError Nat × Phys :=
  match readHeader image with
  | .error reason => (.error reason, phys)
  | .ok header =>
    match loadSegments image root header.phoff header.phentsize (List.range header.phnum) phys with
    | (.error reason, phys) => (.error reason, phys)
    | (.ok (), phys) =>
      if (translate phys root header.entry).isNone then (.error .entryUnmapped, phys) else (.ok header.entry, phys)

end Kernai.Elf
