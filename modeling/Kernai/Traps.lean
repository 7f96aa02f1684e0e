import Kernai.Hooks

/-! Syscall dispatch, the trap handler, the trap ring and the fault report. -/

namespace Kernai
open Foundation Kernel Payload

namespace Syscall

variable (build : Build)

/-- `write(ptr, len)`. -/
def sysWrite (ptr len : Nat) : Kernel Int := do
  if ← readCore (currentHas · .write) then
    let take := min len writeQuota
    if ← emitOutput ptr take then return take else return efault
  else
    emitDenied "write" "write"
    return enocap

/-- What the handler does after a syscall. -/
inductive Outcome where
  | resume (value : Int)
  | leave

def dispatch (frame : TrapFrame) : Kernel Outcome :=
  let a0 := frame.a0.toNat
  let a1 := frame.a1.toNat
  let a2 := frame.a2.toNat
  match frame.a7.toNat with
  | 0 => do
    onExit frame.a0.toBitVec.toInt
    return .leave
  | 1 => .resume <$> sysWrite a0 a1
  | 2 => .resume <$> onYield
  | 3 => .resume <$> onSpawn a0 (a1 % 2 ^ 32)
  | 4 => .resume <$> onSnapshot frame
  | 5 => .resume <$> onBlit a0 a1 a2
  | 6 => if build.doom then .resume <$> onFrameRgb a0 a1 a2 else return .resume enosys
  | 7 => if build.doom then .resume <$> onCore onGetkey else return .resume enosys
  | _ => return .resume enosys

end Syscall

namespace Traps
open Text

variable (build : Build)

def tickInterval : Nat := 10000
def ringSize : Nat := 8
def notableSize : Nat := 4

def store (slots : Nat → RingSlot) (i : Nat) (slot : RingSlot) : Nat → RingSlot :=
  fun other => if other = i then slot else slots other

/-- The recorder's counters are 64 bits wide. -/
def bump (n : Nat) : Nat := (n + 1) % 2 ^ 64

def ringRecord (slot : RingSlot) (env : Env) : Env :=
  let env := { env with ring := store env.ring (env.ringCount % ringSize) slot, ringCount := bump env.ringCount }
  if slot.scause = causeSTimer then env
  else
    let env := if slot.scause = causeUEcall then { env with ecallTraps := bump env.ecallTraps }
      else { env with faultTraps := bump env.faultTraps }
    { env with
      notable := store env.notable (env.notableCount % notableSize) slot
      notableCount := bump env.notableCount }

/-- The ring, oldest first. -/
def ringEntries (env : Env) : List RingSlot :=
  let first := env.ringCount - ringSize
  (List.range' first (env.ringCount - first)).map fun n => env.ring (n % ringSize)

/-- The notable traps a digest of this budget shows, newest first. -/
def digestItems (env : Env) (budget : Nat) : List RingSlot :=
  (List.range (min (min env.notableCount budget) notableSize)).map fun k =>
    env.notable ((env.notableCount - 1 - k) % notableSize)

def emitRingDump : Kernel Unit := emit fun state => .ringDump state.env.ringCount (ringEntries state.env)

def emitFaultClassic (frame : TrapFrame) (scause stval : Nat) (pid : Option Pid) : Kernel Unit :=
  withoutInterrupts do
    record (.classic pid (classicLine frame scause stval pid))
    putAll (classicLine frame scause stval pid)

def faultReport (frame : TrapFrame) (scause stval : Nat) (pid : Option Pid) (state : State) : FaultReport where
  pid
  causedBy := pid.bind fun _ => currentCause state.core
  scause
  stval
  frame
  pagewalk := if pid.isSome ∧ scause ∈ [12, 13, 15] then currentPagewalk state.core stval else none
  ring := ringEntries state.env

def emitFault (frame : TrapFrame) (serial scause stval : Nat) (pid : Option Pid) : Kernel Unit := do
  if ← readCore (·.classicSurface) then emitFaultClassic frame scause stval pid
  else
    let report ← Program.read (faultReport frame scause stval pid)
    if ((Event.fault report).frameBuf (idOf serial)).overflow then send serial (.faultMinimal report)
    else send serial (.fault report)

def redirectToScheduler (frame : TrapFrame) : Kernel TrapFrame := do
  leaveCurrent
  modifyCore fun core => { core with stack := [] }
  return { frame with
    sepc := build.schedulerResume
    sstatus := frame.sstatus ||| sstatusSpp ||| sstatusSpie }.setSp build.bootStackTop

/-- Re-arm the timer, and report the tick unless the kernel is autonomous. -/
def serviceTick (serial : Nat) : Kernel Unit := do
  let now ← readTime build
  let seq ← onEnv fun env =>
    let next := env.nextDeadline + tickInterval
    (bump env.ticks, { env with
      nextDeadline := if next ≤ now then now + tickInterval else next
      ticks := bump env.ticks })
  if ← readCore (·.autonomous) then return
  else
    let time ← readTime build
    send serial (.tick seq time)

/-- The tick once the key drain has run: kill, preempt or go on. -/
def settleTick (frame : TrapFrame) (opKilled : Bool) : Kernel TrapFrame := do
  let overBudget ← onTick build
  if overBudget || opKilled then redirectToScheduler build frame
  else if ← maybePreempt build frame then redirectToScheduler build frame
  else return frame

def handleTick (frame : TrapFrame) (serial : Nat) : Kernel TrapFrame := do
  serviceTick build serial
  if build.doom then
    let opKilled ← drainKeys build
    settleTick build frame opKilled
  else settleTick build frame false

def handleEcall (frame : TrapFrame) : Kernel TrapFrame := do
  let frame := frame.advancePastEcall
  match ← Syscall.dispatch build frame with
  | .resume value => return frame.setA0 (.ofInt value)
  | .leave => redirectToScheduler build frame

/-- `handle`: the frame to return to, or none after `shutdown`. -/
def handle (frame : TrapFrame) (scause stval : Nat) : Kernel (Option TrapFrame) := do
  let serial ← nextId
  onEnv fun env => ((), ringRecord { id := idOf serial, scause, sepc := frame.sepc.toNat, stval } env)
  if scause = causeSTimer then some <$> handleTick build frame serial
  else if scause = causeUEcall then some <$> handleEcall build frame
  else if frame.isFromUser then
    let pid ← readCore (·.current)
    emitFault frame serial scause stval pid
    markFaulted
    some <$> redirectToScheduler build frame
  else
    emitFault frame serial scause stval none
    return none

end Traps
end Kernai
