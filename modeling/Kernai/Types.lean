import Kernai.Console

/-! The kernel's data: embedded images, capability sets, the process table, the
checkpoint table, saved trap frames and the trap ring. -/

namespace Kernai
open Foundation

def capWrite : Nat := 1
def capYield : Nat := 2
def capSpawn : Nat := 4

inductive Cap where
  | write
  | yield
  | spawn
deriving DecidableEq, Repr

def Cap.bit : Cap → Nat
  | .write => capWrite
  | .yield => capYield
  | .spawn => capSpawn

structure Image where
  name : String
  /-- Ceiling of capabilities this image may ever hold. -/
  caps : Nat
  deadline : Nat
deriving Repr

/-- `IMAGES`, less the ELF bytes, which the build supplies. -/
def images : Vector Image 24 := #v[
  ⟨"hello", capWrite, 0⟩,
  ⟨"crasher", capWrite, 0⟩,
  ⟨"muzzled", 0, 0⟩,
  ⟨"spawner", capWrite ||| capSpawn, 0⟩,
  ⟨"child", capWrite ||| capYield, 0⟩,
  ⟨"runaway", capWrite, 15000⟩,
  ⟨"wild", capWrite, 0⟩,
  ⟨"wxviol", capWrite, 0⟩,
  ⟨"forker", capWrite, 0⟩,
  ⟨"leaker", capWrite, 0⟩,
  ⟨"delegator", capWrite ||| capSpawn ||| capYield, 0⟩,
  ⟨"redelegator", capWrite ||| capSpawn, 0⟩,
  ⟨"worker", capWrite, 0⟩,
  ⟨"badjump", capWrite, 0⟩,
  ⟨"craycast", capWrite, 0⟩,
  ⟨"doom", capWrite, 0⟩,
  ⟨"livelock", capWrite, 0⟩,
  ⟨"breaker", capWrite, 0⟩,
  ⟨"misalign", capWrite, 0⟩,
  ⟨"nullread", capWrite, 0⟩,
  ⟨"execdata", capWrite, 0⟩,
  ⟨"stackover", capWrite, 0⟩,
  ⟨"fuzzdelegate", capWrite ||| capYield ||| capSpawn, 0⟩,
  ⟨"injector", capWrite, 0⟩]

abbrev ImageId := Fin 24

def imgHello : ImageId := 0
def imgCrasher : ImageId := 1
def imgMuzzled : ImageId := 2
def imgSpawner : ImageId := 3
def imgChild : ImageId := 4
def imgRunaway : ImageId := 5
def imgWild : ImageId := 6
def imgWxviol : ImageId := 7
def imgForker : ImageId := 8
def imgLeaker : ImageId := 9
def imgDelegator : ImageId := 10
def imgRedelegator : ImageId := 11
def imgWorker : ImageId := 12
def imgBadjump : ImageId := 13
def imgCraycast : ImageId := 14
def imgDoom : ImageId := 15
def imgLivelock : ImageId := 16
def imgBreaker : ImageId := 17
def imgMisalign : ImageId := 18
def imgNullread : ImageId := 19
def imgExecdata : ImageId := 20
def imgStackover : ImageId := 21
def imgFuzzdelegate : ImageId := 22
def imgInjector : ImageId := 23

/-- What the source leaves to the build and to the machine: the two cargo
features, the embedded ELF files, two link-time addresses, what RAM holds at
power-on, and the value each successive read of the time register returns. -/
structure Build where
  doom : Bool
  cpayloads : Bool
  payloadElf : ImageId → Bytes
  schedulerResume : UInt64
  bootStackTop : UInt64
  ram : Memory
  clock : Nat → Nat

/-- The `elf` field of `IMAGES`: livelock embeds runaway's file, and the C
payloads are empty unless their feature is on. -/
def Build.elf (build : Build) (image : ImageId) : Bytes :=
  if image = imgLivelock then build.payloadElf imgRunaway
  else if image = imgCraycast ∧ build.cpayloads = false then []
  else if image = imgDoom ∧ build.doom = false then []
  else build.payloadElf image

def maxProc : Nat := 12
abbrev Pid := Fin 12
abbrev Sid := Fin 4

/-- `NO_PID` where an event prints it. -/
def noPid : Nat := 2 ^ 64 - 1

inductive ProcState where
  | empty
  | pending
  | running
  | exited
  | faulted
  | killed
deriving DecidableEq, Repr

def ProcState.terminal : ProcState → Bool
  | .exited | .faulted | .killed => true
  | _ => false

def ProcState.alive : ProcState → Bool
  | .pending | .running => true
  | _ => false

/-- Saved by the trap vector: `regs i` holds x(i+1). -/
structure TrapFrame where
  regs : Fin 31 → UInt64
  sepc : UInt64
  sstatus : UInt64

namespace TrapFrame

def xRa : Fin 31 := 0
def xSp : Fin 31 := 1
def xA0 : Fin 31 := 9
def xA1 : Fin 31 := 10
def xA2 : Fin 31 := 11
def xA7 : Fin 31 := 16

def setReg (frame : TrapFrame) (index : Fin 31) (value : UInt64) : TrapFrame :=
  { frame with regs := fun other => if other = index then value else frame.regs other }

def a0 (frame : TrapFrame) : UInt64 := frame.regs xA0
def a1 (frame : TrapFrame) : UInt64 := frame.regs xA1
def a2 (frame : TrapFrame) : UInt64 := frame.regs xA2
def a7 (frame : TrapFrame) : UInt64 := frame.regs xA7
def setA0 (frame : TrapFrame) (value : UInt64) : TrapFrame := frame.setReg xA0 value
def setSp (frame : TrapFrame) (value : UInt64) : TrapFrame := frame.setReg xSp value
def advancePastEcall (frame : TrapFrame) : TrapFrame := { frame with sepc := frame.sepc + 4 }

end TrapFrame

def sstatusSpp : UInt64 := 256
def sstatusSpie : UInt64 := 32
def sstatusSie : UInt64 := 2

def TrapFrame.isFromUser (frame : TrapFrame) : Bool := frame.sstatus &&& sstatusSpp = 0

/-- What a payload sees of memory: for each address, the permission bits of the
user page behind it and the byte there. -/
abbrev View := Nat → Option (Nat × UInt8)

/-- A process-table slot. The last four fields are history variables that no
kernel code reads: which checkpoint this payload continues, whether it has been
in U-mode yet, and the context and memory it had when it was last there (or is
to begin with). -/
structure Slot where
  state : ProcState
  image : ImageId
  caps : Nat
  parent : Option Pid
  exitCode : Int
  startedAt : Nat
  deadline : Nat
  root : Nat
  resumeFrame : Nat
  preempted : Bool
  startEvent : UInt64
  origin : Option Nat
  entered : Bool
  lastUser : TrapFrame
  lastMemory : View

def TrapFrame.blank : TrapFrame := { regs := fun _ => 0, sepc := 0, sstatus := 0 }

/-- `Slot::new`. -/
def Slot.new : Slot where
  state := .empty
  image := 0
  caps := 0
  parent := none
  exitCode := 0
  startedAt := 0
  deadline := 0
  root := 0
  resumeFrame := 0
  preempted := false
  startEvent := 0
  origin := none
  entered := false
  lastUser := .blank
  lastMemory := fun _ => none

/-- A checkpoint slot. `serial` is a history variable: its place among all
checkpoints ever taken. -/
structure Snapshot where
  valid : Bool
  root : Nat
  frame : Nat
  caps : Nat
  image : ImageId
  serial : Nat

def Snapshot.new : Snapshot where
  valid := false
  root := 0
  frame := 0
  caps := 0
  image := 0
  serial := 0

structure RingSlot where
  id : Nat
  scause : Nat
  sepc : Nat
  stval : Nat
deriving DecidableEq, Repr

end Kernai
