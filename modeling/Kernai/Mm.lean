import Kernai.Frames

/-! Sv39 address spaces. An address space is the physical address of its root
table; all table memory lives in the frame pool. -/

namespace Kernai.Mm
open Hal Frames Foundation

def pageSize : Nat := 4096

def V : Nat := 1
def R : Nat := 2
def W : Nat := 4
def X : Nat := 8
def U : Nat := 16
def G : Nat := 32
def A : Nat := 64
def D : Nat := 128
def permMask : Nat := R ||| W ||| X

inductive MmError where
  | noFrame
  | overlap
  | unaligned
deriving DecidableEq, Repr

def vpn (va level : Nat) : Nat := (va >>> (12 + 9 * level)) &&& 0x1ff
def ptePa (pte : Nat) : Nat := ((pte >>> 10) &&& 0xfffffffffff) <<< 12
def nonleaf (pa : Nat) : Nat := (pa >>> 12) <<< 10 ||| V
def leaf (pa perms : Nat) : Nat := (pa >>> 12) <<< 10 ||| perms ||| V ||| A ||| D

def readPte (phys : Phys) (pa : Nat) : Nat := ((physReadU64 phys pa).getD 0).toNat
def writePte (phys : Phys) (pa val : Nat) : Phys := (physWriteU64 phys pa (.ofNat val)).2

def kernelGigapageVa : Nat := 0x80000000

/-- `AddressSpace::satp`: MODE = 8, ASID = 0. -/
def satpOf (root : Nat) : Nat := (8 <<< 60) ||| (root >>> 12)

/-- One turn of `map_page`'s descent: the table below `table`, allocated and
linked if the entry is empty. -/
def nextTable (phys : Phys) (table va level : Nat) : Except MmError Nat × Phys :=
  let slot := table + vpn va level * 8
  let pte := readPte phys slot
  if pte &&& V = 0 then
    match alloc phys with
    | (none, phys) => (.error .noFrame, phys)
    | (some next, phys) => (.ok next, writePte phys slot (nonleaf next))
  else if pte &&& permMask ≠ 0 then (.error .overlap, phys)
  else (.ok (ptePa pte), phys)

/-- The last turn of `map_page`: write the leaf unless the entry is taken. -/
def mapLeaf (phys : Phys) (table va pa perms : Nat) : Except MmError Unit × Phys :=
  let slot := table + vpn va 0 * 8
  if readPte phys slot &&& V ≠ 0 then (.error .overlap, phys)
  else (.ok (), writePte phys slot (leaf pa perms))

def mapPage (phys : Phys) (root va pa perms : Nat) : Except MmError Unit × Phys :=
  match nextTable phys root va 2 with
  | (.error reason, phys) => (.error reason, phys)
  | (.ok mid, phys) =>
    match nextTable phys mid va 1 with
    | (.error reason, phys) => (.error reason, phys)
    | (.ok low, phys) => mapLeaf phys low va pa perms

def mapGigapage (phys : Phys) (root va pa perms : Nat) : Except MmError Unit × Phys :=
  if va % 2 ^ 30 ≠ 0 ∨ pa % 2 ^ 30 ≠ 0 then (.error .unaligned, phys)
  else
    let slot := root + vpn va 2 * 8
    if readPte phys slot &&& V ≠ 0 then (.error .overlap, phys)
    else (.ok (), writePte phys slot (leaf pa perms))

def mapKernel (phys : Phys) (root : Nat) : Except MmError Unit × Phys :=
  mapGigapage phys root kernelGigapageVa kernelGigapageVa (R ||| W ||| X ||| G)

/-- `AddressSpace::new`. -/
def newSpace (phys : Phys) : Option Nat × Phys := alloc phys

/-- The loop of `translate_checked` from `level` down. -/
def translateFrom (phys : Phys) (va need : Nat) : (level table : Nat) → Option Nat
  | level, table =>
    let pte := readPte phys (table + vpn va level * 8)
    if pte &&& V = 0 then none
    else if pte &&& permMask ≠ 0 then
      if need ≠ 0 ∧ (pte &&& U = 0 ∨ pte &&& need ≠ need) then none
      else some (ptePa pte + (va &&& (2 ^ (12 + 9 * level) - 1)))
    else
      match level with
      | 0 => none
      | level + 1 => translateFrom phys va need level (ptePa pte)

def translateChecked (phys : Phys) (root va need : Nat) : Option Nat := translateFrom phys va need 2 root

def translate (phys : Phys) (root va : Nat) : Option Nat := translateChecked phys root va 0

/-- The loop of `copy_from_user` with `len - done` bytes to go; `fuel` bounds the
turns, each of which reads at least one byte. -/
def copyFrom (phys : Phys) (root va len : Nat) : (fuel done : Nat) → Option Bytes
  | 0, _ => some []
  | fuel + 1, done =>
    if len ≤ done then some []
    else
      let cur := (va + done) % 2 ^ 64
      match translateChecked phys root cur (U ||| R) with
      | none => none
      | some pa =>
        let n := min (pageSize - cur % pageSize) (len - done)
        match physRead phys pa n with
        | none => none
        | some chunk => (copyFrom phys root va len fuel (done + n)).map (chunk ++ ·)

/-- `copy_from_user`: the bytes read, or none for the `false` result. -/
def copyFromUser (phys : Phys) (root va len : Nat) : Option Bytes := copyFrom phys root va len len 0

/-- `walk`: the entry at each level, outermost first, down to the first leaf or
invalid one. -/
def walkFrom (phys : Phys) (va : Nat) : (level table : Nat) → List (Nat × Nat)
  | level, table =>
    let pte := readPte phys (table + vpn va level * 8)
    if pte &&& V = 0 ∨ pte &&& permMask ≠ 0 then [(level, pte)]
    else
      match level with
      | 0 => [(level, pte)]
      | below + 1 => (level, pte) :: walkFrom phys va below (ptePa pte)

def walk (phys : Phys) (root va : Nat) : List (Nat × Nat) := walkFrom phys va 2 root

/-- `free_subtree`. -/
def freeSubtree : (level table : Nat) → Phys → Phys
  | 0, table, phys =>
    free ((List.range 512).foldl (fun phys i =>
      let pte := readPte phys (table + i * 8)
      if pte &&& V = 0 then phys
      else if pte &&& permMask ≠ 0 then free phys (ptePa pte)
      else phys) phys) table
  | level + 1, table, phys =>
    free ((List.range 512).foldl (fun phys i =>
      let pte := readPte phys (table + i * 8)
      if pte &&& V = 0 then phys
      else if pte &&& permMask ≠ 0 then free phys (ptePa pte)
      else freeSubtree level (ptePa pte) phys) phys) table

/-- `AddressSpace::destroy`. -/
def destroy (phys : Phys) (root : Nat) : Phys :=
  let noted := { phys with destroyed := (root, phys.satp) :: phys.destroyed }
  free ((List.range 512).foldl (fun phys i =>
    let pte := readPte phys (root + i * 8)
    if pte &&& V = 0 ∨ pte &&& permMask ≠ 0 then phys
    else freeSubtree 1 (ptePa pte) phys) noted) root

/-- Clone the user leaf `pte` into `dst` at `va`: a page of the pool is copied to
a fresh frame, a window outside the pool is aliased. -/
def copyUserLeaf (dst va pte : Nat) (phys : Phys) : Bool × Phys :=
  let perms := pte &&& (R ||| W ||| X ||| U)
  let srcFrame := ptePa pte
  if ¬ (poolBase ≤ srcFrame ∧ srcFrame < poolEnd) then
    match mapPage phys dst va srcFrame perms with
    | (.ok (), phys) => (true, phys)
    | (.error _, phys) => (false, phys)
  else
    match alloc phys with
    | (none, phys) => (false, phys)
    | (some newFrame, phys) =>
      match physRead phys srcFrame pageSize with
      | none => (false, free phys newFrame)
      | some buf =>
        match physWrite phys newFrame buf with
        | (false, phys) => (false, free phys newFrame)
        | (true, phys) =>
          match mapPage phys dst va newFrame perms with
          | (.ok (), phys) => (true, phys)
          | (.error _, phys) => (false, free phys newFrame)

/-- A loop that stops at the first turn answering false. -/
def forAll (body : Nat → Phys → Bool × Phys) : List Nat → Phys → Bool × Phys
  | [], phys => (true, phys)
  | i :: rest, phys =>
    match body i phys with
    | (true, phys) => forAll body rest phys
    | (false, phys) => (false, phys)

/-- `copy_user_pages`. -/
def copyUserPages (dst : Nat) : (level table vaBase : Nat) → Phys → Bool × Phys
  | 0, table, vaBase, phys =>
    forAll (fun i phys =>
      let pte := readPte phys (table + i * 8)
      if pte &&& V = 0 then (true, phys)
      else if pte &&& permMask ≠ 0 then
        if pte &&& U = 0 then (true, phys) else copyUserLeaf dst (vaBase + (i <<< 12)) pte phys
      else (true, phys)) (List.range 512) phys
  | level + 1, table, vaBase, phys =>
    forAll (fun i phys =>
      let pte := readPte phys (table + i * 8)
      let va := vaBase + (i <<< (12 + 9 * (level + 1)))
      if pte &&& V = 0 then (true, phys)
      else if pte &&& permMask ≠ 0 then
        if pte &&& U = 0 then (true, phys) else copyUserLeaf dst va pte phys
      else copyUserPages dst level (ptePa pte) va phys) (List.range 512) phys

/-- `deep_copy`: none on frame exhaustion, with any partial copy freed. -/
def deepCopy (phys : Phys) (root : Nat) : Option Nat × Phys :=
  match newSpace phys with
  | (none, phys) => (none, phys)
  | (some dst, phys) =>
    match mapKernel phys dst with
    | (.error _, phys) => (none, destroy phys dst)
    | (.ok (), phys) =>
      match copyUserPages dst 2 root 0 phys with
      | (false, phys) => (none, destroy phys dst)
      | (true, phys) => (some dst, phys)

end Kernai.Mm
