import Kernai.Payload

/-! The payload hooks of the trap handler and of the control plane. The former
run with interrupts off. -/

namespace Kernai.Payload
open Foundation Kernel Hal Frames Mm Context

variable (build : Build)

def enosys : Int := -1
def enocap : Int := -2
def efault : Int := -3
def einval : Int := -4
def eagain : Int := -5
def enomem : Int := -6

def currentHas (core : Core) (cap : Cap) : Bool :=
  match core.current with
  | none => false
  | some pid => (core.table pid).caps &&& cap.bit ≠ 0

def currentSpace (core : Core) : Option Nat :=
  core.current.bind fun pid => if (core.table pid).root ≠ 0 then some (core.table pid).root else none

def currentPagewalk (core : Core) (va : Nat) : Option (List (Nat × Nat)) :=
  (currentSpace core).map fun root => walk core.phys root va

def currentCause (core : Core) : Option Nat := core.current.map fun pid => (core.table pid).startEvent.toNat

def emitExit (pid : Pid) (code : Int) : Kernel Unit :=
  emit fun state => .exit pid code (state.core.table pid).startEvent.toNat

def onExit (code : Int) : Kernel Unit := do
  match ← readCore (·.current) with
  | none => return
  | some pid =>
    modifyCore fun core => setSlot core pid fun slot => { slot with exitCode := code, state := .exited }
    emitExit pid code

def markFaulted : Kernel Unit := modifyCore fun core =>
  match core.current with
  | some pid => setState core pid .faulted
  | none => core

def leaveCurrent : Kernel Unit := modifyCore fun core => { core with current := none }

def emitDenied (syscall cap : String) : Kernel Unit := emit fun state => .denied state.core.current syscall cap

def freeSnap (core : Core) : Option Sid := (List.finRange 4).find? fun sid => (core.snaps sid).valid = false

/-- `on_snapshot` before its event: the checkpoint slot taken, or the errno. -/
def takeSnapshot (frame : TrapFrame) (core : Core) : Except Int (Pid × Sid) × Core :=
  match core.current, currentSpace core with
  | some pid, some space =>
    match freeSnap core with
    | none => (.error eagain, core)
    | some sid =>
      match deepCopy core.phys space with
      | (none, phys) => (.error enomem, { core with phys })
      | (some root, phys) =>
        match alloc phys with
        | (none, phys) => (.error enomem, { core with phys := destroy phys root })
        | (some snapFrame, phys) =>
          let phys := saveFrameTo phys frame snapFrame 0
          let slot := core.table pid
          let checkpoint : Checkpoint :=
            { taker := pid, caps := slot.caps, context := frame, memory := Sv39.view core.phys.mem space }
          let core := setSnap { core with phys } sid fun _ =>
            { valid := true, root, frame := snapFrame, caps := slot.caps, image := slot.image,
              serial := core.ledger.taken.length }
          (.ok (pid, sid),
            { core with lastSnap := some sid, ledger.taken := core.ledger.taken ++ [checkpoint] })
  | _, _ => (.error einval, core)

def emitSnapshot (pid : Pid) (id : Nat) : Kernel Unit := emit fun _ => .snapshot pid id

def onSnapshot (frame : TrapFrame) : Kernel Int := do
  match ← onCore (takeSnapshot frame) with
  | .error errno => return errno
  | .ok (pid, sid) =>
    emitSnapshot pid (sid.val + 1)
    return sid.val + 1

def emitKilled (pid : Pid) (elapsed deadline : Nat) : Kernel Unit :=
  emit fun state => .killed pid elapsed deadline (state.core.table pid).startEvent.toNat

def onTick : Kernel Bool := do
  match ← readCore (·.current) with
  | none => return false
  | some pid =>
    let slot ← readCore (·.table pid)
    if slot.state ≠ .running then return false
    else if slot.deadline = 0 then return false
    else do
      let now ← readTime build
      let elapsed := now - slot.startedAt
      if slot.deadline < elapsed then
        modifyCore fun core => setState core pid .killed
        emitKilled pid elapsed slot.deadline
        return true
      else return false

def onYield : Kernel Int := do
  if ← readCore (currentHas · .yield) then
    match ← readCore (·.current) with
    | some pid => emit fun _ => .yield pid
    | none => pure ()
    return 0
  else
    emitDenied "yield" "yield"
    return enocap

def emitSpawn (parent child : Pid) (name : String) (parentCaps requested granted : Nat) : Kernel Unit :=
  emit fun _ => .spawn parent child name parentCaps requested granted

def onSpawn (selector requested : Nat) : Kernel Int := do
  match ← readCore (·.current) with
  | none => return einval
  | some parent =>
    if ← readCore (currentHas · .spawn) then
      match spawnableImage selector with
      | none => return einval
      | some image =>
        let parentCaps ← readCore fun core => (core.table parent).caps
        let granted := requested &&& parentCaps &&& (images.get image).caps
        match ← onCore (enqueue image granted (some parent)) with
        | some child =>
          emitSpawn parent child (images.get image).name parentCaps requested granted
          return child.val
        | none => return eagain
    else
      emitDenied "spawn" "spawn"
      return enocap

/-- `emit_output`; false for its error. -/
def emitOutput (ptr len : Nat) : Kernel Bool := do
  let n := min len writeQuota
  match ← readCore fun core => (currentSpace core).bind fun space => copyFromUser core.phys space ptr n with
  | none => return false
  | some data =>
    emit fun state => .output state.core.current ((currentCause state.core).getD 0) data
    return true

def blitMaxw : Nat := 72
def blitMaxh : Nat := 24

/-- The rows `on_blit` reads; none if one is not readable. -/
def blitRows (phys : Phys) (space ptr w : Nat) : List Nat → Option (List Bytes)
  | [] => some []
  | y :: rest =>
    match copyFromUser phys space ((ptr + y * w) % 2 ^ 64) w with
    | none => none
    | some row => (blitRows phys space ptr w rest).map (row :: ·)

/-- Send unless the frame overflowed, which the caller reports instead. -/
def sendOrRefuse (serial : Nat) (event : Event) : Kernel Int :=
  if (event.frameBuf (idOf serial)).overflow then return einval
  else do
    send serial event
    return 0

def onBlit (ptr w h : Nat) : Kernel Int := do
  if ← readCore (currentHas · .write) then
    if w = 0 ∨ h = 0 ∨ w > blitMaxw ∨ h > blitMaxh then return einval
    else
      match ← readCore currentSpace with
      | none => return einval
      | some space =>
        withoutInterrupts do
          let serial ← nextId
          match ← readCore fun core => blitRows core.phys space ptr w (List.range h) with
          | none => return efault
          | some rows =>
            let pid ← readCore (·.current)
            sendOrRefuse serial (.frame pid w h rows)
  else
    emitDenied "blit" "write"
    return enocap

def fbChunk : Nat := 1440

def onFrameRgb (ptr len seq : Nat) : Kernel Int := do
  if ← readCore (currentHas · .write) then
    if ← readCore (·.autonomous) then return 0
    else if len = 0 ∨ len > fbChunk then return einval
    else
      match ← readCore currentSpace with
      | none => return einval
      | some space =>
        match ← readCore fun core => copyFromUser core.phys space ptr len with
        | none => return efault
        | some data =>
          withoutInterrupts do
            let serial ← nextId
            let pid ← readCore (·.current)
            sendOrRefuse serial (.fbchunk pid seq data)
  else
    emitDenied "frame" "write"
    return enocap

def imageWantsInput (image : ImageId) : Bool := build.doom && image = imgDoom

def emitSchedPreempt (pid : Pid) : Kernel Unit :=
  emit fun state => .preempt pid (state.core.table pid).startEvent.toNat

/-- The resume frame `maybe_preempt` saves into, allocated on first use. -/
def preemptFrame (pid : Pid) (core : Core) : Option Nat × Core :=
  let rf := (core.table pid).resumeFrame
  if rf = 0 then
    match alloc core.phys with
    | (none, phys) => (none, { core with phys })
    | (some rf, phys) => (some rf, setSlot { core with phys } pid fun slot => { slot with resumeFrame := rf })
  else (some rf, core)

def maybePreempt (frame : TrapFrame) : Kernel Bool := do
  match ← readCore (·.current) with
  | none => return false
  | some pid =>
    let slot ← readCore (·.table pid)
    if slot.state ≠ .running then return false
    else if imageWantsInput build slot.image then return false
    else
      match ← consoleGetchar with
      | none => return false
      | some byte =>
        modifyCore fun core => { core with stashedByte := some byte }
        match ← onCore (preemptFrame pid) with
        | none => return false
        | some rf =>
          modifyCore fun core => { core with phys := saveFrameTo core.phys frame rf frame.a0 }
          modifyCore fun core => setSlot core pid fun slot => { slot with preempted := true, state := .pending }
          emitSchedPreempt pid
          return true

def anyAlive (core : Core) : Bool := (List.finRange 12).any fun pid => (core.table pid).state.alive

def elapsedSince (started : Nat) : Kernel Nat :=
  if started = 0 then return 0
  else do
    let now ← readTime build
    return now - started

def emitKilledOperator (pid : Pid) : Kernel Unit :=
  withoutInterrupts do
    let started ← readCore fun core => (core.table pid).startedAt
    let elapsed ← elapsedSince build started
    let serial ← nextId
    let causedBy ← readCore fun core => (core.table pid).startEvent.toNat
    send serial (.killedOperator pid elapsed causedBy)

/-- `TABLE.get(pid)` for an operator verb that wants it PENDING. -/
def pendingPid (core : Core) (pid : Nat) : Except String Pid :=
  if inside : pid < 12 then
    if (core.table ⟨pid, inside⟩).state ≠ .pending then .error "payload not alive" else .ok ⟨pid, inside⟩
  else .error "no such pid"

def noteRemedy (core : Core) (pid : Pid) : Core := { core with ledger.remedies := core.ledger.remedies ++ [pid] }

def killPending (pid : Nat) (core : Core) : Except String Pid × Core :=
  match pendingPid core pid with
  | .error reason => (.error reason, core)
  | .ok pid => (.ok pid, noteRemedy (setState core pid .killed) pid)

def killPid (pid : Nat) : Kernel (Except String Nat) := do
  match ← onCore (killPending pid) with
  | .error reason => return .error reason
  | .ok pid =>
    emitKilledOperator build pid
    let started ← readCore fun core => (core.table pid).startedAt
    return .ok (← elapsedSince build started)

def setDeadline (pid units : Nat) (core : Core) : Except String Unit × Core :=
  match pendingPid core pid with
  | .error reason => (.error reason, core)
  | .ok pid => (.ok (), noteRemedy (setSlot core pid fun slot => { slot with deadline := units }) pid)

def keyRingSize : Nat := 64
def keyPrefix : UInt8 := 0xA5
def keyOpKill : UInt8 := 0x03

/-- The counters are 64 bits wide and wrap. -/
def pushKey (byte : UInt8) (core : Core) : Core :=
  if (core.keyTail + 2 ^ 64 - core.keyHead) % 2 ^ 64 ≥ keyRingSize then core
  else { core with
    keyRing := fun i => if i = core.keyTail % keyRingSize then byte else core.keyRing i
    keyTail := (core.keyTail + 1) % 2 ^ 64 }

/-- `drain_keys` outside a pair: only a prefix means anything. -/
def leadKey (byte : UInt8) (core : Core) : Core :=
  if byte = keyPrefix then { core.note (.used .drain .lead byte) with keyPending := true }
  else core.note (.used .drain .ignored byte)

/-- The loop of `drain_keys` over the bytes that have arrived. -/
def drainBytes (pid : Pid) : (count : Nat) → (killed : Bool) → Kernel Bool
  | 0, killed => return killed
  | count + 1, killed => do
    match ← consoleGetchar with
    | none => return killed
    | some byte =>
      if ← readCore (·.keyPending) then
        modifyCore fun core => { core.note (.used .drain .partner byte) with keyPending := false }
        if byte = keyOpKill then
          let slot ← readCore (·.table pid)
          if slot.state = .running then
            modifyCore fun core => setState core pid .killed
            emitKilledOperator build pid
          drainBytes pid count true
        else
          if killed = false then modifyCore (pushKey byte)
          drainBytes pid count killed
      else
        modifyCore (leadKey byte)
        drainBytes pid count killed

def drainKeys : Kernel Bool := do
  match ← readCore (·.current) with
  | none => return false
  | some pid =>
    let slot ← readCore (·.table pid)
    if slot.state ≠ .running ∨ imageWantsInput build slot.image = false then return false
    else
      let count ← readEnv (·.rx.length)
      drainBytes build pid count false

def swallowStrayKey (byte : UInt8) (core : Core) : Bool × Core :=
  if core.keyPending then (true, { core.note (.used .idle .partner byte) with keyPending := false })
  else if byte = keyPrefix then (true, { core.note (.used .idle .lead byte) with keyPending := true })
  else (false, core)

def onGetkey (core : Core) : Int × Core :=
  if core.keyHead = core.keyTail then (eagain, core)
  else ((core.keyRing (core.keyHead % keyRingSize)).toNat, { core with keyHead := (core.keyHead + 1) % 2 ^ 64 })

def processRows (core : Core) : List (Pid × Image × ProcState × Int × Nat) :=
  ((List.finRange 12).filter fun pid => (core.table pid).state ≠ .empty).map fun pid =>
    (pid, imageOf core pid, (core.table pid).state, (core.table pid).exitCode, (core.table pid).caps)

end Kernai.Payload
