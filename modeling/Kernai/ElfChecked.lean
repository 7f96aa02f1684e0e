import Kernai.Elf

/-! The ELF64 loader as a build with overflow checks runs it: an operation on `usize`
that leaves its range is a panic, as is an index outside a slice. `none` is a panic,
or a page loop that has run out of turns. -/

namespace Kernai.Elf.Checked
open Hal Frames Mm

@[irreducible] def add (a b : Nat) : Option Nat := if a + b < 2 ^ 64 then some (a + b) else none
def sub (a b : Nat) : Option Nat := if b ≤ a then some (a - b) else none
def mul (a b : Nat) : Option Nat := if a * b < 2 ^ 64 then some (a * b) else none

def fillPage (image : Bytes) (segment : Segment) (fileEnd page pageEnd frame : Nat) (phys : Phys) :
    Option (Except ElfError Unit × Phys) :=
  let copyStart := max page segment.vaddr
  let copyEnd := min pageEnd fileEnd
  if copyStart < copyEnd then do
    let srcOff ← add segment.offset (← sub copyStart segment.vaddr)
    let srcEnd ← add srcOff (← sub copyEnd copyStart)
    match getRange image srcOff srcEnd with
    | none => return (.error .badProgramHeaders, phys)
    | some src =>
      let target ← add frame (← sub copyStart page)
      match physWrite phys target src with
      | (true, phys) => return (.ok (), phys)
      | (false, phys) => return (.error .mapFailed, free phys frame)
  else return (.ok (), phys)

/-- One turn of the page loop: a frame allocated, filled and mapped. -/
def placePage (image : Bytes) (root : Nat) (segment : Segment) (fileEnd page pageEnd : Nat) (phys : Phys) :
    Option (Except ElfError Unit × Phys) :=
  match alloc phys with
  | (none, phys) => return (.error .outOfMemory, phys)
  | (some frame, phys) => do
    match ← fillPage image segment fileEnd page pageEnd frame phys with
    | (.error reason, phys) => return (.error reason, phys)
    | (.ok (), phys) =>
      match mapPage phys root page frame segment.perms with
      | (.error _, phys) => return (.error .mapFailed, free phys frame)
      | (.ok (), phys) => return (.ok (), phys)

/-- `while page < seg_end`, for at most `fuel` turns. -/
def mapPages (image : Bytes) (root : Nat) (segment : Segment) (segEnd fileEnd : Nat) :
    (fuel page : Nat) → Phys → Option (Except ElfError Unit × Phys)
  | 0, _, _ => none
  | fuel + 1, page, phys =>
    if page < segEnd then
      match add page pageSize with
      | none => return (.error .badProgramHeaders, phys)
      | some pageEnd => (placePage image root segment fileEnd page pageEnd phys).bind fun
        | (.error reason, phys) => return (.error reason, phys)
        | (.ok (), phys) => mapPages image root segment segEnd fileEnd fuel pageEnd phys
    else return (.ok (), phys)

def mapSegment (fuel : Nat) (image : Bytes) (root : Nat) (segment : Segment) (phys : Phys) :
    Option (Except ElfError Unit × Phys) :=
  match add segment.vaddr segment.memsz, add segment.vaddr segment.filesz with
  | some segEnd, some fileEnd => do
    let page ← sub segment.vaddr (segment.vaddr % pageSize)
    mapPages image root segment segEnd fileEnd fuel page phys
  | _, _ => return (.error .badProgramHeaders, phys)

/-- The five fields of a program header. The outer option is a panic, the inner one
the readers' own answer. -/
def readSegment (image : Bytes) (ph : Nat) : Option (Option Segment) := do
  match u32At image (← add ph 4) with
  | none => return none
  | some flags => match u64At image (← add ph 8) with
    | none => return none
    | some offset => match u64At image (← add ph 16) with
      | none => return none
      | some vaddr => match u64At image (← add ph 32) with
        | none => return none
        | some filesz => match u64At image (← add ph 40) with
          | none => return none
          | some memsz => return some { flags, offset, vaddr, filesz, memsz }

def loadSegment (fuel : Nat) (image : Bytes) (root ph : Nat) (phys : Phys) : Option (Except ElfError Unit × Phys) :=
  match u32At image ph with
  | none => return (.error .badProgramHeaders, phys)
  | some kind =>
    if kind ≠ ptLoad then return (.ok (), phys)
    else do
      match ← readSegment image ph with
      | none => return (.error .badProgramHeaders, phys)
      | some segment =>
        if segment.memsz < segment.filesz then return (.error .badProgramHeaders, phys)
        else if segment.perms &&& W ≠ 0 ∧ segment.perms &&& X ≠ 0 then return (.error .wxViolation, phys)
        else mapSegment fuel image root segment phys

def loadSegments (fuel : Nat) (image : Bytes) (root phoff phentsize : Nat) :
    List Nat → Phys → Option (Except ElfError Unit × Phys)
  | [], phys => return (.ok (), phys)
  | i :: rest, phys => do
    let ph ← add phoff (← mul i phentsize)
    match ← loadSegment fuel image root ph phys with
    | (.error reason, phys) => return (.error reason, phys)
    | (.ok (), phys) => loadSegments fuel image root phoff phentsize rest phys

def readHeader (image : Bytes) : Option (Except ElfError Header) :=
  if image.length < 64 then return .error .tooShort
  else if getRange image 0 4 ≠ some [0x7f, 0x45, 0x4c, 0x46] then return .error .badMagic
  else do
    let kind ← image[4]?
    let order ← image[5]?
    if kind ≠ 2 ∨ order ≠ 1 ∨ u16At image 18 ≠ some 243 then return .error .notElf64Rv
    else
      match u64At image 24, u64At image 32, u16At image 54, u16At image 56 with
      | some entry, some phoff, some phentsize, some phnum =>
        if phentsize < 56 then return .error .badProgramHeaders
        else
          -- `checked_mul` and `checked_add`, then the comparison with the length
          match (mul phnum phentsize).bind (add phoff) with
          | none => return .error .badProgramHeaders
          | some span =>
            if image.length < span then return .error .badProgramHeaders
            else return .ok { entry, phoff, phentsize, phnum }
      | _, _, _, _ => return .error .tooShort

def load (fuel : Nat) (image : Bytes) (root : Nat) (phys : Phys) : Option (Except ElfError Nat × Phys) := do
  match ← readHeader image with
  | .error reason => return (.error reason, phys)
  | .ok header =>
    match ← loadSegments fuel image root header.phoff header.phentsize (List.range header.phnum) phys with
    | (.error reason, phys) => return (.error reason, phys)
    | (.ok (), phys) =>
      if (translate phys root header.entry).isNone then return (.error .entryUnmapped, phys)
      else return (.ok header.entry, phys)

end Kernai.Elf.Checked
