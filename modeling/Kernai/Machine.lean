import Kernai.Rpc

/-! The whole machine: `kmain` and `idle`, the hart alternating between payloads
in U-mode and the kernel in S-mode, timer ticks wherever interrupts are enabled,
and bytes arriving on the serial line. -/

namespace Kernai
open Foundation Kernel Payload

namespace Main

variable (build : Build)

def seedByte (byte : UInt8) : Option Suite :=
  if byte = 0x70 then some seedSuiteM3
  else if byte = 0x6d then some seedSuiteM4
  else if byte = 0x69 then some seedSuiteM5
  else if byte = 0x66 then some seedSuiteM6
  else if byte = 0x64 then some seedSuiteM10
  else if byte = 0x65 then some seedSuiteEval
  else if build.cpayloads ∧ byte = 0x63 then some seedSuiteCraycast
  else if build.doom ∧ byte = 0x44 then some seedSuiteDoom
  else none

/-- History only: a byte that is not part of a key pair. -/
def noteCommand (reader : Reader) (byte : UInt8) : Kernel Unit :=
  note (.used reader (if byte = 0xAA then .opens else .command) byte)

/-- One command of the idle loop, past the stray-key filter. -/
def command (byte : UInt8) : Kernel Next :=
  if byte = 0xAA then (·.getD .idle) <$> Rpc.readRequest build
  else if byte = 0x72 then do
    Traps.emitRingDump
    return .idle
  else if byte = 0x78 then return .crash
  else
    match seedByte build byte with
    | some suite => return .seed suite
    | none => return .idle

/-- The stray-key filter, which only the doom build has. -/
def strayKey (byte : UInt8) : Kernel Bool := if build.doom then onCore (swallowStrayKey byte) else return false

/-- One turn of `idle`. -/
def idle : Kernel Next := do
  match ← consoleGetchar with
  | none => return .idle
  | some byte =>
    if ← strayKey build byte then return .idle
    else
      noteCommand .idle byte
      command build byte

/-- One turn of `service_console`. -/
def serviceConsole : Kernel Next := do
  let stashed ← onCore fun core => (core.stashedByte, { core with stashedByte := none })
  match ← (match stashed with
    | some byte => pure (some byte)
    | none => consoleGetchar) with
  | none => return .schedule
  | some byte =>
    noteCommand .service byte
    if byte = 0xAA then (·.getD .service) <$> Rpc.readRequest build
    else if byte = 0x72 then
      Traps.emitRingDump
      return .service
    else return .service

/-- `init_paging`; false where it would panic. -/
def initPaging (core : Core) : Bool × Core :=
  match Mm.newSpace core.phys with
  | (none, phys) => (false, { core with phys })
  | (some root, phys) =>
    match Mm.mapKernel phys root with
    | (.error _, phys) => (false, { core with phys })
    | (.ok (), phys) => (true, { core with phys := Hal.writeSatp phys (Mm.satpOf root), kernelRoot := root })

def kmain : Kernel Next := do
  let serial ← nextId
  send serial .hello
  if ← onCore initPaging then
    let now ← readTime build
    onEnv fun env => ((), { env with nextDeadline := now + Traps.tickInterval })
    onEnv fun env => ((), { env with sie := true })
    return .idle
  else return .panicked

/-- The code behind each hand-over that stays in the kernel. -/
def code : Next → Kernel Next
  | .idle => idle build
  | .run => run
  | .service => serviceConsole build
  | .schedule => schedule
  | .seed suite => do
    modifyCore (seed build suite)
    return .run
  | .restore sid => restore sid
  | .start pid => start build pid
  | .launch details => launch details
  | .finish => finish
  | .resumeUser satp frame => return .resumeUser satp frame
  | .crash => return .crash
  | .panicked => return .panicked

end Main

inductive Hart where
  | user (context : TrapFrame)
  | kernel (program : Kernel Next)
  | off

/-- `interrupted f` is the kernel code whose registers a tick taken in S-mode
saved into the pool frame at `f`. -/
structure Config where
  hart : Hart
  state : State
  interrupted : Nat → Kernel Next

namespace Machine

variable (build : Build)

/-- Power-on values of the statics. -/
def powerOn : State where
  core :=
    { phys := { mem := build.ram, bitmap := fun _ => false, nextHint := 0, allocated := 0, satp := 0, destroyed := [] }
      kernelRoot := 0
      table := fun _ => .new
      current := none
      snaps := fun _ => .new
      lastSnap := none
      autoFork := 0
      stashedByte := none
      opIds := List.replicate Rpc.opSlots 0
      opHead := 0
      classicSurface := false
      autonomous := false
      keyRing := fun _ => 0
      keyHead := 0
      keyTail := 0
      keyPending := false
      ledger := { suite := 0, enqueued := 0, starts := [], remedies := [], taken := [], silent := false }
      journal := []
      stack := [.idle] }
  env :=
    { sie := false
      serial := 0
      wire := []
      log := []
      ring := fun _ => { id := 0, scause := 0, sepc := 0, stval := 0 }
      ringCount := 0
      notable := fun _ => { id := 0, scause := 0, sepc := 0, stval := 0 }
      notableCount := 0
      ticks := 0
      ecallTraps := 0
      faultTraps := 0
      nextDeadline := 0
      reads := 0
      rx := []
      read := [] }

/-- The machine at the end of `kmain`, which runs with interrupts off. -/
def boot : Config :=
  let (next, state) := (Main.kmain build).run (powerOn build)
  { hart := .kernel (.pure next), state, interrupted := fun _ => .pure .idle }

def setSie (state : State) (sie : Bool) : State := { state with env := { state.env with sie } }

/-- What the hart keeps of `sstatus` across `sret` and the next trap from U-mode. -/
def userStatus (sstatus : UInt64) : UInt64 := sstatus &&& ~~~(sstatusSpp ||| sstatusSie)

def spie (sstatus : UInt64) : Bool := sstatus &&& sstatusSpie ≠ 0

/-- `sret` from the trap handler: back to U-mode, into the scheduler, or on with
the kernel code that was interrupted. -/
def trapReturn (config : Config) (frame : TrapFrame) (state : State) (program : Kernel Next) : Config :=
  let state := setSie state (spie frame.sstatus)
  if frame.isFromUser then
    { config with hart := .user { frame with sstatus := userStatus frame.sstatus }, state }
  else if frame.sepc = build.schedulerResume then { config with hart := .kernel (Main.code build .run), state }
  else { config with hart := .kernel program, state }

/-- Take a trap: run the handler with interrupts off, then return from it. -/
def trap (config : Config) (frame : TrapFrame) (scause stval : Nat) (program : Kernel Next) : Config :=
  match (Traps.handle build frame scause stval).run (setSie config.state false) with
  | (some frame, state) => trapReturn build config frame state program
  | (none, state) => { config with hart := .off, state }

/-- History only: the payload leaves U-mode with this context. -/
def noteUser (state : State) (context : TrapFrame) : State :=
  match state.core.current with
  | some pid =>
    { state with core := setSlot state.core pid fun slot =>
      { slot with
        lastUser := context
        lastMemory := Sv39.view state.core.phys.mem (Sv39.satpRoot state.core.phys.satp) } }
  | none => state

def userTrap (config : Config) (context : TrapFrame) (scause stval : Nat) : Config :=
  trap build { config with state := noteUser config.state context } context scause stval (.pure .run)

/-- A tick taken in S-mode. If the handler redirects, what it may have saved in
the payload's resume frame is the context of `program`. -/
def kernelTick (config : Config) (program : Kernel Next) (frame : TrapFrame) : Config :=
  let after := trap build config frame Text.causeSTimer 0 program
  match config.state.core.current, after.state.core.current with
  | some pid, none =>
    let saved := (config.state.core.table pid).resumeFrame
    { after with interrupted := fun at' => if at' = saved then program else config.interrupted at' }
  | _, _ => after

def noteEntered (core : Core) : Core :=
  match core.current with
  | some pid => setSlot core pid fun slot => { slot with entered := true }
  | none => core

/-- `__resume_user`: switch `satp`, load the frame, `sret`. -/
def resume (config : Config) (satp frame : Nat) : Config :=
  let core := { config.state.core with phys := Hal.writeSatp config.state.core.phys satp }
  let context := Context.loadFrame core.phys.mem frame
  if context.isFromUser then
    { config with
      hart := .user { context with sstatus := userStatus context.sstatus }
      state := setSie { config.state with core := noteEntered core } (spie context.sstatus) }
  else
    { config with
      hart := .kernel (config.interrupted frame)
      state := setSie { config.state with core } (spie context.sstatus) }

def storeByte (state : State) (pa : Nat) (byte : UInt8) : State :=
  { state with core := { state.core with phys := { state.core.phys with mem := state.core.phys.mem.writeBytes pa [byte] } } }

def receive (state : State) (byte : UInt8) : State :=
  { state with env := { state.env with rx := state.env.rx ++ [byte] } }

/-- Hand-overs that leave kernel code. -/
def leavesKernel : Next → Bool
  | .resumeUser _ _ | .crash | .panicked => true
  | _ => false

inductive Step : Config → Config → Prop where
  /-- The kernel executes one action. -/
  | act {config : Config} {update : State → State} {next : State → Kernel Next}
      (running : config.hart = .kernel (.act update next)) :
      Step config { config with hart := .kernel (next config.state), state := update config.state }
  | enter {config : Config} {next : Next} (running : config.hart = .kernel (.pure next))
      (stays : leavesKernel next = false) : Step config { config with hart := .kernel (Main.code build next) }
  | resume {config : Config} {satp frame : Nat} (running : config.hart = .kernel (.pure (.resumeUser satp frame))) :
      Step config (resume config satp frame)
  /-- `trigger_illegal_instruction` traps in S-mode. -/
  | crash {config : Config} (frame : TrapFrame) (stval : Nat) (running : config.hart = .kernel (.pure .crash))
      (supervisor : frame.isFromUser = false) :
      Step config (trap build config frame Text.causeIllegalInstruction stval (.pure .crash))
  | panicked {config : Config} (running : config.hart = .kernel (.pure .panicked)) :
      Step config { config with hart := .off }
  /-- A tick in S-mode. The registers of kernel code are not modelled; one taken
  at the first instruction of `scheduler_resume` interrupts `run` at its start. -/
  | kernelTick {config : Config} {program : Kernel Next} (frame : TrapFrame) (running : config.hart = .kernel program)
      (enabled : config.state.env.sie = true) (supervisor : frame.isFromUser = false)
      (enabledBefore : spie frame.sstatus = true)
      (place : frame.sepc = build.schedulerResume → program = Main.code build .run) :
      Step config (kernelTick build config program frame)
  | userTick {config : Config} {context : TrapFrame} (running : config.hart = .user context) :
      Step config (userTrap build config context Text.causeSTimer 0)
  | ecall {config : Config} {context : TrapFrame} (running : config.hart = .user context) :
      Step config (userTrap build config context Text.causeUEcall 0)
  | fault {config : Config} {context : TrapFrame} (scause stval : Nat) (running : config.hart = .user context)
      (other : scause ≠ Text.causeSTimer ∧ scause ≠ Text.causeUEcall) :
      Step config (userTrap build config context scause stval)
  /-- Any user instruction that neither stores nor traps. -/
  | compute {config : Config} {context : TrapFrame} (regs : Fin 31 → UInt64) (sepc : UInt64)
      (running : config.hart = .user context) : Step config { config with hart := .user { context with regs, sepc } }
  | store {config : Config} {context : TrapFrame} (va pa : Nat) (byte : UInt8) (running : config.hart = .user context)
      (allowed : Sv39.storeAddress config.state.core.phys.mem (Sv39.satpRoot config.state.core.phys.satp) va = some pa) :
      Step config { config with state := storeByte config.state pa byte }
  | receive {config : Config} (byte : UInt8) : Step config { config with state := receive config.state byte }

/-- Reached from boot by steps that are all allowed. -/
inductive Reachable (allowed : Config → Config → Prop) : Config → Prop where
  | boot : Reachable allowed (boot build)
  | step {config next : Config} (reached : Reachable allowed config) (moves : Step build config next)
      (fine : allowed config next) : Reachable allowed next

/-- Reached from the first configuration by steps that are all allowed. -/
def Later (allowed : Config → Config → Prop) : Config → Config → Prop :=
  Relation.ReflTransGen fun config next => Step build config next ∧ allowed config next

/-- Every step is allowed. -/
def anyStep : Config → Config → Prop := fun _ _ => True

end Machine
end Kernai
