import Kernai.Events
import Kernai.Sv39
import Kernai.Foundation.Program

/-! The kernel's statics, split by who may touch them. A timer tick taken while
no payload is current changes `Env` only; everything else is `Core`. -/

namespace Kernai
open Foundation Console

/-- What a successful `sys_snapshot` froze. -/
structure Checkpoint where
  taker : Pid
  caps : Nat
  context : TrapFrame
  memory : View

/-- History variables: the number of `clear_table` calls, how many pids this
suite enqueued, which it started (a silent resume is not a start), every pid the
operator killed or re-budgeted, and every checkpoint ever taken. `silent` says
whether the last payload put on the CPU was resumed without an announcement. -/
structure Ledger where
  suite : Nat
  enqueued : Nat
  starts : List Pid
  remedies : List Pid
  taken : List Checkpoint
  silent : Bool

/-- Who took a byte off the line: the key drain of a tick, the idle loop, the
scheduler's service loop, or the reader of a request frame. -/
inductive Reader where
  | drain
  | idle
  | service
  | request
deriving DecidableEq, Repr

/-- What became of a byte: a key prefix, the partner of one, the first byte of a
request frame, a command byte (known or not), nothing, or a byte inside a frame. -/
inductive Use where
  | lead
  | partner
  | opens
  | command
  | ignored
  | framed
deriving DecidableEq, Repr

/-- How a mutating tool call that got past its argument checks was answered. -/
inductive Verdict where
  | duplicate
  | done
  | refused
deriving DecidableEq, Repr

/-- What the control plane did, for the record. -/
inductive Note where
  | used (reader : Reader) (use : Use) (byte : UInt8)
  | stalled
  | dispatched (body : Bytes)
  | recorded (op : Bytes)
  | answered (op : Option Bytes) (verdict : Verdict)
deriving DecidableEq, Repr

/-- A kernel function that has been called and has not returned. -/
inductive Call where
  | idle
  | request
  | run (suite : Nat)
  | service
  | start
  | loadFailed
deriving DecidableEq, Repr

/-- The kernel's statics, but for the last three fields, which are history:
`ledger`, the notes of the control plane, and the calls on the boot stack. -/
structure Core where
  phys : Phys
  kernelRoot : Nat
  table : Pid → Slot
  current : Option Pid
  snaps : Sid → Snapshot
  lastSnap : Option Sid
  autoFork : Nat
  stashedByte : Option UInt8
  opIds : List Nat
  opHead : Nat
  classicSurface : Bool
  autonomous : Bool
  keyRing : Nat → UInt8
  keyHead : Nat
  keyTail : Nat
  keyPending : Bool
  ledger : Ledger
  journal : List Note
  stack : List Call

def Core.note (core : Core) (note : Note) : Core := { core with journal := core.journal ++ [note] }

def Core.call (core : Core) (call : Call) : Core := { core with stack := call :: core.stack }

def Core.return (core : Core) : Core := { core with stack := core.stack.tail }

/-- What one emission put on the wire. -/
inductive Emission where
  | frame (serial : Nat) (event : Event)
  | classic (pid : Option Pid) (line : Bytes)

/-- `NEXT_ID` counts modulo 2^64. -/
def idOf (serial : Nat) : Nat := serial % 2 ^ 64

def Emission.bytes : Emission → Bytes
  | .frame serial event => (event.frameBuf (idOf serial)).emitted
  | .classic _ line => line

/-- An emission with the table and the ledger of that moment. -/
structure Entry where
  what : Emission
  table : Pid → Slot
  ledger : Ledger

/-- `serial` counts the ids allocated so far, `reads` the reads of the time
register, `rx` is the receive queue, `sie` is `sstatus.SIE`. `log` and `read` are
history variables: the emissions begun and the bytes taken off the line so far. -/
structure Env where
  sie : Bool
  serial : Nat
  wire : Bytes
  log : List Entry
  ring : Nat → RingSlot
  ringCount : Nat
  notable : Nat → RingSlot
  notableCount : Nat
  ticks : Nat
  ecallTraps : Nat
  faultTraps : Nat
  nextDeadline : Nat
  reads : Nat
  rx : List UInt8
  read : List UInt8

structure State where
  core : Core
  env : Env

abbrev Kernel := Program State

namespace Kernel

variable {α : Type}

def onCore (action : Core → α × Core) : Kernel α :=
  Program.modifyGet fun state => ((action state.core).1, { state with core := (action state.core).2 })

def modifyCore (update : Core → Core) : Kernel Unit := onCore fun core => ((), update core)

def readCore (view : Core → α) : Kernel α := onCore fun core => (view core, core)

def onEnv (action : Env → α × Env) : Kernel α :=
  Program.modifyGet fun state => ((action state.env).1, { state with env := (action state.env).2 })

def readEnv (view : Env → α) : Kernel α := onEnv fun env => (view env, env)

/-- The serial of the next event id. -/
def nextId : Kernel Nat := onEnv fun env => (env.serial, { env with serial := env.serial + 1 })

def readTime (build : Build) : Kernel Nat :=
  onEnv fun env => (build.clock env.reads, { env with reads := env.reads + 1 })

def consoleGetchar : Kernel (Option UInt8) :=
  onEnv fun env => (env.rx.head?, { env with rx := env.rx.tail, read := env.read ++ env.rx.head?.toList })

def consolePutchar (byte : UInt8) : Kernel Unit := onEnv fun env => ((), { env with wire := env.wire ++ [byte] })

def putAll : Bytes → Kernel Unit
  | [] => pure ()
  | byte :: rest => do
    consolePutchar byte
    putAll rest

/-- History only: the control plane's record. -/
def note (note : Note) : Kernel Unit := modifyCore (·.note note)

/-- History only: an emission begins. -/
def record (what : Emission) : Kernel Unit := Program.modify fun state =>
  let entry : Entry := { what, table := state.core.table, ledger := state.core.ledger }
  { state with env := { state.env with log := state.env.log ++ [entry] } }

def withoutInterrupts (body : Kernel α) : Kernel α := do
  let prev ← onEnv fun env => (env.sie, { env with sie := false })
  let out ← body
  if prev then onEnv fun env => ((), { env with sie := true })
  return out

/-- `FrameBuf::emit` of the finished frame; a poisoned one sends nothing. -/
def send (serial : Nat) (event : Event) : Kernel Unit :=
  if (event.frameBuf (idOf serial)).overflow then pure ()
  else do
    record (.frame serial event)
    putAll (event.frameBuf (idOf serial)).emitted

/-- The common shape of the `emit_*` functions: with interrupts off, allocate an
id, look at the state, send. -/
def emit (event : State → Event) : Kernel Unit :=
  withoutInterrupts do
    let serial ← nextId
    let event ← Program.read event
    send serial event

end Kernel
end Kernai
