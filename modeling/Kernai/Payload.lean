import Kernai.State
import Kernai.Context
import Kernai.Elf

/-! Payloads: the process table, the checkpoint table, the scheduler's
bookkeeping and the hooks the trap handler and the control plane call. -/

namespace Kernai.Payload
open Foundation Kernel Hal Frames Mm Context

variable (build : Build)

def writeQuota : Nat := 256

def wadVa : Nat := 0x50000000
def wadPa : Nat := 0x88000000
def wadWindow : Nat := 32 <<< 20

def imageWindow (image : ImageId) : Option (Nat × Nat × Nat) :=
  if build.doom ∧ image = imgDoom then some (wadVa, wadPa, wadWindow) else none

/-- The loop of `map_window`, `count` pages to go. -/
def mapWindowPages (root va pa : Nat) : (count : Nat) → Phys → Except String Unit × Phys
  | 0, phys => (.ok (), phys)
  | count + 1, phys =>
    match mapPage phys root va pa (R ||| U) with
    | (.error _, phys) => (.error "window_map_failed", phys)
    | (.ok (), phys) => mapWindowPages root (va + pageSize) (pa + pageSize) count phys

def mapWindow (root va pa len : Nat) (phys : Phys) : Except String Unit × Phys :=
  mapWindowPages root va pa ((len + (pageSize - 1)) / pageSize) phys

def spawnableImage (selector : Nat) : Option ImageId :=
  match selector with
  | 0 => some imgChild
  | 1 => some imgRedelegator
  | 2 => some imgWorker
  | _ => none

def imageOf (core : Core) (pid : Pid) : Image := images.get (core.table pid).image

def setSlot (core : Core) (pid : Pid) (update : Slot → Slot) : Core :=
  { core with table := fun other => if other = pid then update (core.table other) else core.table other }

def setState (core : Core) (pid : Pid) (state : ProcState) : Core := setSlot core pid fun slot => { slot with state }

def setSnap (core : Core) (sid : Sid) (update : Snapshot → Snapshot) : Core :=
  { core with snaps := fun other => if other = sid then update (core.snaps other) else core.snaps other }

def kernelSatp (core : Core) : Nat := satpOf core.kernelRoot

/-- `TABLE.iter().position(..)`. -/
def position (core : Core) (test : Slot → Bool) : Option Pid :=
  (List.finRange 12).find? fun pid => test (core.table pid)

def destroyRoot (phys : Phys) (root : Nat) : Phys := if root ≠ 0 then destroy phys root else phys
def freeFrame (phys : Phys) (frame : Nat) : Phys := if frame ≠ 0 then free phys frame else phys

def freeSnapshot (core : Core) (sid : Sid) : Core :=
  let snap := core.snaps sid
  if snap.valid then
    setSnap { core with phys := freeFrame (destroyRoot core.phys snap.root) snap.frame } sid fun snap =>
      { snap with valid := false, root := 0, frame := 0 }
  else core

def freeSnapshots (core : Core) : Core := (List.finRange 4).foldl freeSnapshot core

def clearKeys (core : Core) : Core := { core with keyHead := 0, keyTail := 0, keyPending := false }

def clearTable (core : Core) : Core :=
  let core := { core with
    table := fun pid => { core.table pid with state := .empty }
    ledger := { core.ledger with suite := core.ledger.suite + 1, enqueued := 0, starts := [] } }
  let core := freeSnapshots core
  let core := { core with autoFork := 0, lastSnap := none }
  if build.doom then clearKeys core else core

/-- The slot `enqueue` writes. -/
def freshSlot (image : ImageId) (caps : Nat) (parent : Option Pid) : Slot :=
  { Slot.new with
    state := .pending
    image
    caps := caps &&& (images.get image).caps
    parent
    deadline := (images.get image).deadline }

def noteEnqueued (core : Core) : Core := { core with ledger.enqueued := core.ledger.enqueued + 1 }

def enqueue (image : ImageId) (caps : Nat) (parent : Option Pid) (core : Core) : Option Pid × Core :=
  match position core (·.state = .empty) with
  | some pid => (some pid, noteEnqueued (setSlot core pid fun _ => freshSlot image caps parent))
  | none => (none, core)

/-- What a `seed_suite_*` function queues, and the continuations it owes. -/
structure Suite where
  images : List ImageId
  forks : Nat

def seedSuiteM3 : Suite := { images := [imgHello, imgCrasher], forks := 0 }
def seedSuiteM4 : Suite := { images := [imgMuzzled, imgSpawner, imgRunaway], forks := 0 }
def seedSuiteM5 : Suite := { images := [imgWild, imgWxviol, imgLeaker, imgHello], forks := 0 }
def seedSuiteM6 : Suite := { images := [imgForker], forks := 2 }
def seedSuiteM10 : Suite := { images := [imgDelegator], forks := 0 }
def seedSuiteE2 : Suite := { images := [imgLivelock], forks := 0 }
def seedSuiteE7 : Suite := { images := [imgFuzzdelegate], forks := 0 }
def seedSuiteE5 : Suite := { images := [imgInjector], forks := 0 }
def seedSuiteEval : Suite where
  images := [imgCrasher, imgWild, imgWxviol, imgBadjump, imgBreaker, imgMisalign, imgNullread, imgExecdata, imgStackover]
  forks := 0
def seedSuiteCraycast : Suite := { images := [imgCraycast], forks := 0 }
def seedSuiteDoom : Suite := { images := [imgDoom], forks := 0 }
def seedSuiteDoomFork : Suite := { images := [imgDoom], forks := 2 }

def seed (suite : Suite) (core : Core) : Core :=
  let core := suite.images.foldl (fun core image => (enqueue image (images.get image).caps none core).2) (clearTable build core)
  { core with autoFork := suite.forks }

def takeNextPending (core : Core) : Option Pid := position core (·.state = .pending)

def reapSlot (core : Core) (pid : Pid) : Core :=
  let slot := core.table pid
  if slot.state.terminal then
    setSlot { core with phys := freeFrame (destroyRoot core.phys slot.root) slot.resumeFrame } pid fun slot =>
      { slot with root := 0, resumeFrame := 0 }
  else core

def reapTerminated (core : Core) : Core := (List.finRange 12).foldl reapSlot core

/-- The fresh path of `start`: the kernel map, the ELF, the window and the first
register frame. An error carries the `load_failed` reason; the space is gone. -/
def buildImage (image : ImageId) (phys : Phys) : Except String (Nat × Nat × Nat) × Phys :=
  match newSpace phys with
  | (none, phys) => (.error "out_of_memory", phys)
  | (some root, phys) =>
    match mapKernel phys root with
    | (.error _, phys) => (.error "kernel_map_failed", destroy phys root)
    | (.ok (), phys) =>
      match Elf.load (build.elf image) root phys with
      | (.error reason, phys) => (.error reason.asStr, destroy phys root)
      | (.ok entry, phys) =>
        let window := match imageWindow build image with
          | some (va, pa, len) => mapWindow root va pa len phys
          | none => (.ok (), phys)
        match window with
        | (.error reason, phys) => (.error reason, destroy phys root)
        | (.ok (), phys) =>
          match alloc phys with
          | (none, phys) => (.error "out_of_memory", destroy phys root)
          | (some frame, phys) => (.ok (root, frame, entry), initFrameTo phys frame entry)

/-- The rest of `start` once `CURRENT` names the payload. -/
structure Launch where
  pid : Pid
  satp : Nat
  frame : Nat
  entry : Nat
  restored : Bool
  announced : Bool

/-- Where kernel code goes when a function that never returns hands over. -/
inductive Next where
  | idle
  | run
  | service
  | schedule
  | seed (suite : Suite)
  | restore (sid : Sid)
  | start (pid : Pid)
  | launch (launch : Launch)
  | finish
  | resumeUser (satp frame : Nat)
  | crash
  | panicked

def noteStart (core : Core) (pid : Pid) : Core :=
  { core with ledger := { core.ledger with starts := core.ledger.starts ++ [pid], silent := false } }

/-- The slot the resume path of `start` leaves. -/
def resumedSlot (now : Nat) (slot : Slot) : Slot :=
  { slot with preempted := false, state := .running, startedAt := if slot.preempted then slot.startedAt else now }

/-- The resume path of `start`, through `CURRENT.store(pid)`. -/
def resumePayload (pid : Pid) (now : Nat) (core : Core) : Launch × Core :=
  let slot := core.table pid
  let launch : Launch :=
    { pid, satp := satpOf slot.root, frame := slot.resumeFrame, entry := 0, restored := true, announced := !slot.preempted }
  let core := setSlot core pid (resumedSlot now)
  let core := if slot.preempted then { core with ledger.silent := true } else noteStart core pid
  (launch, { core with current := some pid })

/-- The slot the fresh path of `start` leaves. -/
def loadedSlot (now root frame entry : Nat) (memory : View) (slot : Slot) : Slot :=
  { slot with
    root
    resumeFrame := frame
    state := .running
    startedAt := now
    lastUser := freshFrame entry
    lastMemory := memory }

/-- The fresh path of `start`, through `CURRENT.store(pid)` or the call of
`load_failed`. -/
def loadPayload (pid : Pid) (now : Nat) (core : Core) : Except String Launch × Core :=
  match buildImage build (core.table pid).image core.phys with
  | (.error reason, phys) => (.error reason, { core with phys })
  | (.ok (root, frame, entry), phys) =>
    let core := setSlot { noteStart core pid with phys } pid
      (loadedSlot now root frame entry (Sv39.view phys.mem root))
    (.ok { pid, satp := satpOf root, frame, entry, restored := false, announced := true },
      { core with current := some pid })

/-- `start` through `CURRENT.store(pid)`. No payload is current until then, so a
tick taken on the way has no effect on any of it. -/
def begin (pid : Pid) (state : State) : Except String Launch × State :=
  let slot := state.core.table pid
  let now := build.clock state.env.reads
  if slot.resumeFrame ≠ 0 then
    let env := if slot.preempted then state.env else { state.env with reads := state.env.reads + 1 }
    let (launch, core) := resumePayload pid now state.core
    (.ok launch, { core, env })
  else
    match loadPayload build pid now state.core with
    | (.error reason, core) => (.error reason, { state with core })
    | (.ok launch, core) => (.ok launch, { core, env := { state.env with reads := state.env.reads + 1 } })

def emitLoadFault (pid : Pid) (reason : String) : Kernel Unit :=
  emit fun state => .loadFault pid (imageOf state.core pid).name reason

def loadFailed (pid : Pid) (reason : String) : Kernel Next := do
  modifyCore (·.call .loadFailed)
  modifyCore fun core => setState (noteStart core pid) pid .faulted
  emitLoadFault pid reason
  return .run

def start (pid : Pid) : Kernel Next := do
  modifyCore (·.call .start)
  match ← Program.modifyGet (begin build pid) with
  | .error reason => loadFailed pid reason
  | .ok launch => return .launch launch

def emitStart (launch : Launch) : Kernel Unit :=
  withoutInterrupts do
    let serial ← nextId
    modifyCore fun core => setSlot core launch.pid fun slot => { slot with startEvent := .ofNat serial }
    let event ← readCore fun core =>
      .start launch.pid (imageOf core launch.pid).name launch.entry launch.restored
        ((core.table launch.pid).parent.map fun parent => (core.table parent).startEvent.toNat) (core.table launch.pid).caps
    send serial event

/-- `start` after `CURRENT.store(pid)`. Ticks taken here see the payload. -/
def launch (launch : Launch) : Kernel Next := do
  if launch.announced then emitStart launch
  return .resumeUser launch.satp launch.frame

/-- `run` up to its call of `service_console`. -/
def run : Kernel Next := do
  modifyCore fun core => { core.call (.run core.ledger.suite) with current := none }
  modifyCore fun core => { core with phys := writeSatp core.phys (kernelSatp core) }
  modifyCore reapTerminated
  modifyCore (·.call .service)
  return .service

/-- `run` from the return of `service_console`. -/
def schedule : Kernel Next := do
  modifyCore (·.return)
  modifyCore reapTerminated
  match ← readCore takeNextPending with
  | some pid => return .start pid
  | none =>
    let owed ← readCore (·.autoFork)
    match owed, ← readCore (·.lastSnap) with
    | owed + 1, some sid =>
      modifyCore fun core => { core with autoFork := owed }
      return .restore sid
    | _, _ => return .finish

def countState (core : Core) (state : ProcState) : Nat :=
  (List.finRange 12).countP fun pid => (core.table pid).state = state

def emitSuiteDone : Kernel Unit :=
  emit fun state => .suiteDone (countState state.core .exited) (countState state.core .faulted)
    (countState state.core .killed)

/-- `run` once nothing is left to start. -/
def finish : Kernel Next := do
  emitSuiteDone
  modifyCore (·.call .idle)
  return .idle

/-- The slot `enqueue_restore` writes. -/
def restoredSlot (snap : Snapshot) (root frame : Nat) (context : TrapFrame) (memory : View) : Slot :=
  { Slot.new with
    state := .pending
    image := snap.image
    caps := snap.caps &&& (images.get snap.image).caps
    root
    resumeFrame := frame
    origin := some snap.serial
    lastUser := context
    lastMemory := memory }

/-- What a restored payload is to begin with, by the history of checkpoints. -/
def frozen (core : Core) (snap : Snapshot) : TrapFrame × View :=
  match core.ledger.taken[snap.serial]? with
  | some checkpoint => (checkpoint.context.setA0 0, checkpoint.memory)
  | none => (.blank, fun _ => none)

def enqueueRestore (sid : Sid) (core : Core) : Option Pid × Core :=
  let snap := core.snaps sid
  if snap.valid then
    match deepCopy core.phys snap.root with
    | (none, phys) => (none, { core with phys })
    | (some root, phys) =>
      match alloc phys with
      | (none, phys) => (none, { core with phys := destroy phys root })
      | (some frame, phys) =>
        match physRead phys snap.frame pageSize with
        | none => (none, { core with phys := free (destroy phys root) frame })
        | some buf =>
          match physWrite phys frame buf with
          | (false, phys) => (none, { core with phys := free (destroy phys root) frame })
          | (true, phys) =>
            match position core (·.state = .empty) with
            | some pid =>
              let (context, memory) := frozen core snap
              (some pid, noteEnqueued (setSlot { core with phys } pid fun _ =>
                restoredSlot snap root frame context memory))
            | none => (none, { core with phys := free (destroy phys root) frame })
  else (none, core)

/-- The tail of `run` that owes a continuation of checkpoint `sid`. -/
def restore (sid : Sid) : Kernel Next := do
  match ← onCore (enqueueRestore sid) with
  | some pid => return .start pid
  | none => return .finish

end Kernai.Payload
