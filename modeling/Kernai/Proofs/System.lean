import Kernai.Proofs.Phases

/-! Every step of the machine keeps the invariant, so it holds in every state reached. -/

namespace Kernai
open Foundation Program Kernel Payload Machine

variable {tight only : Prop} {held held' : Held} {build : Build} {core core' : Core} {state state' : State} {pid : Pid}
  {program : Kernel Next} {launch : Launch} {config next : Config} {context : TrapFrame}

theorem Calm.setSie (calm : Calm tight held state) (sie : Bool) : Calm tight held (setSie state sie) :=
  calm.advance calm.core (.refl _) rfl rfl (Nat.le_refl _)

theorem Moves.setSie (state : State) (sie : Bool) : Moves state (setSie state sie) := .of_core (.refl _) rfl

/-- A running payload's slot with its history brought up to date. -/
def relived (slot : Slot) (user : TrapFrame) (memory : View) : Slot :=
  { slot with lastUser := user, lastMemory := memory, entered := true }

/-- The history of a payload on the CPU, which no invariant looks at until it leaves. -/
theorem CoreInv.relive (inv : CoreInv tight held core) (running : (core.table pid).state = .running)
    (one : OneSlot core core' pid) {user : TrapFrame} {memory : View}
    (here : core'.table pid = relived (core.table pid) user memory) (current : core'.current = core.current)
    (starts : core'.ledger.starts = core.ledger.starts) : CoreInv tight held core' ∧ Advances core core' := by
  have states : ∀ other, (core'.table other).state = (core.table other).state ∧
      (core'.table other).preempted = (core.table other).preempted ∧ (core'.table other).root = (core.table other).root ∧
      (core'.table other).resumeFrame = (core.table other).resumeFrame := by
    intro other
    by_cases same : other = pid
    · rw [same, here]
      exact ⟨rfl, rfl, rfl, rfl⟩
    · rw [one.others other same]
      exact ⟨rfl, rfl, rfl, rfl⟩
  refine ⟨⟨?_, ?_, ?_, ?_, ?_⟩, one.suite, one.taken ▸ List.prefix_refl _, fun other used => ?_⟩
  · refine inv.heap.congr one.phys (estate_same one.kernelRoot one.snaps fun other => ?_)
    exact ⟨by rw [(states other).1], (states other).2.2.1, (states other).2.2.2⟩
  · refine inv.table.touch one.enqueued one.others (by rw [here]; exact Iff.rfl) (by rw [here]; rfl) (by rw [here]; rfl)
      (by rw [here]; rfl) ?_ ?_ ?_ (by rw [here]; exact id) (by rw [starts]; exact inv.table.starts) ?_ ?_
    · intro other
      rw [(states other).1, current]
      exact inv.table.running other
    · rw [here]
      exact inv.table.paired pid
    · rw [here]
      exact fun engaged => ⟨inv.table.loaded pid engaged, fun lower => inv.table.order pid lower engaged⟩
    · intro other
      rw [starts, (states other).1, (states other).2.1]
      exact inv.table.started other
    · rw [here]
      exact inv.table.unstarted pid
  · intro other pending
    rw [(states other).1] at pending
    have different : other ≠ pid := by
      rintro rfl
      rw [running] at pending
      cases pending
    rw [one.phys, one.others other different]
    exact inv.contexts.parked other pending
  · rw [one.snaps, one.taken, one.phys]
    exact inv.contexts.frozen
  · intro other serial
    by_cases same : other = pid
    · rw [one.taken, same, here]
      intro used isOrigin
      obtain ⟨hasFrame, checkpoint, found, caps, -⟩ := inv.contexts.restored pid serial used isOrigin
      exact ⟨hasFrame, checkpoint, found, caps, nofun⟩
    · rw [one.taken, one.others other same]
      exact inv.contexts.restored other serial
  · by_cases same : other = pid
    · subst same
      rw [here]
      exact ⟨used, rfl, rfl, rfl, rfl, fun _ => rfl⟩
    · rw [one.others other same]
      exact .refl used

/-- The state in which the handler finds a payload that just trapped. -/
structure Trapped (tight : Prop) (held : Held) (pid : Pid) (context : TrapFrame) (state state' : State) : Prop where
  calm : Calm tight held state'
  current : state'.core.current = some pid
  running : (state'.core.table pid).state = .running
  here : state'.core.table pid = relived (state.core.table pid) context
    (Sv39.view state.core.phys.mem (state.core.table pid).root)
  others : ∀ other, other ≠ pid → state'.core.table other = state.core.table other
  phys : state'.core.phys = state.core.phys
  advances : Advances state.core state'.core
  ledger : state'.core.ledger = state.core.ledger
  log : state'.env.log = state.env.log

theorem UserAt.root_frame (there : UserAt tight held pid context state) :
    Sv39.satpRoot state.core.phys.satp = (state.core.table pid).root := by
  have used : (state.core.table pid).state ≠ .empty := by rw [there.running]; decide
  have hasFrame := there.calm.core.table.loaded pid (by simp [Slot.engaged, there.running])
  have hasRoot := (there.calm.core.table.paired pid used).mpr hasFrame
  rw [there.satp, satpRoot_satpOf (there.calm.core.heap.slot_space used hasRoot).shape.root]

theorem UserAt.trapped (there : UserAt tight held pid context state) :
    Trapped tight held pid context state (setSie (noteUser state context) false) := by
  have made : noteUser state context = { state with core := setSlot state.core pid fun slot =>
      { slot with
        lastUser := context
        lastMemory := Sv39.view state.core.phys.mem (state.core.table pid).root } } := by
    unfold noteUser
    rw [there.current, ← there.root_frame]
  have entered := there.entered
  generalize isMemory : Sv39.view state.core.phys.mem (state.core.table pid).root = memory at made
  have here : (setSlot state.core pid fun slot => { slot with lastUser := context, lastMemory := memory }).table pid =
      relived (state.core.table pid) context memory := by
    rw [setSlot_self, relived, ← entered]
  have one : OneSlot state.core (setSlot state.core pid fun slot =>
      { slot with lastUser := context, lastMemory := memory }) pid :=
    ⟨rfl, rfl, rfl, rfl, rfl, rfl, fun other different => setSlot_other _ _ different⟩
  obtain ⟨inv, advances⟩ := there.calm.core.relive there.running one here rfl rfl
  rw [made]
  refine ⟨?_, there.current, ?_, ?_, one.others, rfl, advances, rfl, rfl⟩
  · exact there.calm.advance inv advances rfl rfl (Nat.le_refl _)
  · exact (congrArg Slot.state here).trans there.running
  · rw [isMemory]
    exact here

/-- The payload goes on in U-mode with the context and the memory it last had there. -/
structure Enters (tight : Prop) (held : Held) (pid : Pid) (config next : Config) : Prop where
  there : UserAt tight held pid (config.state.core.table pid).lastUser next.state
  isUser : next.hart = .user (config.state.core.table pid).lastUser
  one : OneSlot config.state.core { next.state.core with phys := config.state.core.phys } pid
  here : next.state.core.table pid = { config.state.core.table pid with entered := true }
  current : next.state.core.current = config.state.core.current
  mem : next.state.core.phys.mem = config.state.core.phys.mem
  memory : Sv39.view next.state.core.phys.mem (next.state.core.table pid).root = (config.state.core.table pid).lastMemory
  ledger : next.state.core.ledger = config.state.core.ledger
  log : next.state.env.log = config.state.env.log

/-- How the hart can go on in a step that changes nothing of note. -/
inductive Proceeds (build : Build) : Hart → Hart → Prop
  | same (hart : Hart) : Proceeds build hart hart
  | enters (next : Next) (stays : leavesKernel next = false) : Proceeds build (.kernel (.pure next)) (.kernel (Main.code build next))
  | computes (before after : TrapFrame) : Proceeds build (.user before) (.user after)
  | stops (next : Next) (isLast : next = .crash ∨ next = .panicked) : Proceeds build (.kernel (.pure next)) .off

/-- What a step did to the state. -/
inductive Shift (build : Build) (tight : Prop) (held : Held) (config next : Config) : Prop
  | still (same : SameCore config.state.core next.state.core) (current : next.state.core.current = config.state.core.current)
      (moves : Moves config.state next.state) (unnamed : Unnamed config.state next.state)
      (proceeds : Proceeds build config.hart next.hart)
  | acts (update : State → State) (rest : State → Kernel Next) (hart : config.hart = .kernel (.act update rest))
      (hart' : next.hart = .kernel (rest config.state)) (transits : Transits tight held config.state next.state)
  | expels (pid : Pid) (program : Kernel Next) (hart : config.hart = .kernel program)
      (hart' : next.hart = .kernel (Main.code build .run)) (enabled : config.state.env.sie = true)
      (current : config.state.core.current = some pid) (left : next.state.core.current = none) (moves : Moves config.state next.state)
      (gone : (next.state.core.table pid).state = .pending ∨ (next.state.core.table pid).state.terminal = true)
  | returns (program rest : Kernel Next) (hart : config.hart = .kernel program) (hart' : next.hart = .kernel rest)
      (isHeld : ∃ pid root frame, held pid root frame)
      (changed : next.state.core = { config.state.core with phys := next.state.core.phys })
      (log : next.state.env.log = config.state.env.log)
  | enters (pid : Pid) (program : Kernel Next) (hart : config.hart = .kernel program) (enters : Enters tight held pid config next)
      (spoken : (∀ root frame, ¬ held pid root frame) → config.state.core.ledger.silent = false → Announced pid config.state)
  | traps (pid : Pid) (context : TrapFrame) (hart : config.hart = .user context)
      (there : UserAt tight held pid context config.state) (moves : Moves (noteUser config.state context) next.state)
  | stores (pid : Pid) (context : TrapFrame) (hart : config.hart = .user context)
      (there : UserAt tight held pid context config.state) (va pa : Nat) (byte : UInt8)
      (allowed : Sv39.storeAddress config.state.core.phys.mem (Sv39.satpRoot config.state.core.phys.satp) va = some pa)
      (written : next.state = storeByte config.state pa byte)

theorem trap_returns {frame : TrapFrame} {scause stval : Nat}
    (ran : (Traps.handle build context scause stval).run (setSie config.state false) = (some frame, state')) :
    trap build config context scause stval program = trapReturn build config frame state' program := by
  unfold trap
  rw [ran]

theorem trapReturn_redirect {frame : TrapFrame} (redirect : IsRedirect build frame) :
    trapReturn build config frame state program =
      { config with hart := .kernel (Main.code build .run), state := setSie state true } := by
  unfold trapReturn
  rw [redirect.enabled, redirect.supervisor, redirect.sepc]
  simp

theorem UserContext.same {frame : TrapFrame} (user : UserContext frame) :
    ({ frame with sstatus := userStatus frame.sstatus } : TrapFrame) = frame := by
  rw [user.status]

theorem trapReturn_user {frame : TrapFrame} (user : UserContext frame) :
    trapReturn build config frame state program = { config with hart := .user frame, state := setSie state true } := by
  unfold trapReturn
  rw [user.enabled, user.isFromUser, user.same]
  simp

theorem trapReturn_kernel {frame : TrapFrame} (supervisor : frame.isFromUser = false) (enabled : spie frame.sstatus = true)
    (place : frame.sepc = build.schedulerResume → program = Main.code build .run) :
    trapReturn build config frame state program = { config with hart := .kernel program, state := setSie state true } := by
  unfold trapReturn
  rw [enabled, supervisor]
  by_cases atResume : frame.sepc = build.schedulerResume
  · simp [atResume, place atResume]
  · simp [atResume]

/-- On to the scheduler. -/
theorem Exits.runs (exits : Exits tight held state state') :
    Phase build tight held (setSie state' true) (Main.code build .run) :=
  .inside (run_runs _ (steadily_always ⟨⟨exits.calm.setSie true, rfl, exits.current⟩, trivial⟩))

theorem Serves.userAt {state'' : State} (serves : Serves tight held pid state' state'')
    (trapped : Trapped tight held pid context state state') (there : UserAt tight held pid context state)
    {frame : TrapFrame} (user : UserContext frame) : UserAt tight held pid frame (setSie state'' true) where
  calm := serves.calm.setSie true
  enabled := rfl
  current := serves.stays.current.trans trapped.current
  running := (congrArg Slot.state serves.stays.slot).trans trapped.running
  satp := by
    have root : (state''.core.table pid).root = (state.core.table pid).root := by
      rw [serves.stays.slot, trapped.here]
      rfl
    have satp := serves.stays.satp
    rw [trapped.phys, there.satp, ← root] at satp
    exact satp
  entered := by
    have entered : (state''.core.table pid).entered = true := by
      rw [serves.stays.slot, trapped.here]
      rfl
    exact entered
  user := user

/-- A trap from U-mode that goes back there or on to the scheduler. -/
theorem UserAt.returns (there : UserAt tight held pid context state) (isHart : config.hart = .user context)
    (isState : config.state = state) {scause stval : Nat} {frame : TrapFrame} {state'' : State}
    (ran : (Traps.handle build context scause stval).run (setSie (noteUser state context) false) = (some frame, state''))
    (result : (UserContext frame ∧ Serves tight held pid (setSie (noteUser state context) false) state'') ∨
      (IsRedirect build frame ∧ Exits tight held (setSie (noteUser state context) false) state'')) :
    Stands build tight held (userTrap build config context scause stval).hart (userTrap build config context scause stval).state ∧
      Shift build tight held config (userTrap build config context scause stval) ∧
      (userTrap build config context scause stval).interrupted = config.interrupted := by
  subst isState
  have taken : userTrap build config context scause stval =
      trapReturn build { config with state := noteUser config.state context } frame state'' (.pure .run) :=
    trap_returns ran
  have masked := Moves.setSie (noteUser config.state context) false
  rcases result with ⟨user, serves⟩ | ⟨redirect, exits⟩
  · rw [taken, trapReturn_user user]
    refine ⟨⟨pid, serves.userAt there.trapped there user⟩, ?_, rfl⟩
    exact .traps pid context isHart there ((masked.trans serves.moves).trans (.setSie _ true))
  · rw [taken, trapReturn_redirect redirect]
    refine ⟨exits.runs, ?_, rfl⟩
    exact .traps pid context isHart there ((masked.trans exits.moves).trans (.setSie _ true))

/-- A payload in U-mode may be preempted at any tick. -/
theorem Trapped.interruptible (trapped : Trapped tight held pid context state state') (user : UserContext context) :
    Sv39.view state'.core.phys.mem (state'.core.table pid).root = (state'.core.table pid).lastMemory ∧
      Interruptible (held pid) (state'.core.table pid) context := by
  rw [trapped.here, trapped.phys]
  exact ⟨rfl, .inl ⟨rfl, user⟩⟩

theorem userTick_stands (build : Build) (there : UserAt tight held pid context config.state) (isHart : config.hart = .user context) :
    Stands build tight held (userTrap build config context Text.causeSTimer 0).hart
        (userTrap build config context Text.causeSTimer 0).state ∧
      Shift build tight held config (userTrap build config context Text.causeSTimer 0) ∧
      (userTrap build config context Text.causeSTimer 0).interrupted = config.interrupted := by
  have trapped := there.trapped
  obtain ⟨frame, state'', ran, ticked⟩ := handle_tick build trapped.calm trapped.current context
  refine there.returns isHart rfl ran ?_
  cases ticked with
  | returned same passes =>
    rw [same]
    exact .inl ⟨there.user, passes.serves⟩
  | ended redirect exits done => exact .inr ⟨redirect, exits⟩
  | preempted redirect current running slot sound =>
    obtain ⟨memory, interruptible⟩ := trapped.interruptible there.user
    exact .inr ⟨redirect, sound memory interruptible⟩

theorem ecall_stands (build : Build) (there : UserAt tight held pid context config.state) (isHart : config.hart = .user context) :
    Stands build tight held (userTrap build config context Text.causeUEcall 0).hart
        (userTrap build config context Text.causeUEcall 0).state ∧
      Shift build tight held config (userTrap build config context Text.causeUEcall 0) ∧
      (userTrap build config context Text.causeUEcall 0).interrupted = config.interrupted := by
  have trapped := there.trapped
  obtain ⟨frame, state'', ran, result⟩ := handle_ecall build trapped.calm trapped.current trapped.running there.user
  exact there.returns isHart rfl ran result

theorem fault_stands (build : Build) (there : UserAt tight held pid context config.state) (isHart : config.hart = .user context)
    {scause stval : Nat} (other : scause ≠ Text.causeSTimer ∧ scause ≠ Text.causeUEcall) :
    Stands build tight held (userTrap build config context scause stval).hart
        (userTrap build config context scause stval).state ∧
      Shift build tight held config (userTrap build config context scause stval) ∧
      (userTrap build config context scause stval).interrupted = config.interrupted := by
  have trapped := there.trapped
  obtain ⟨frame, state'', ran, redirect, exits⟩ :=
    handle_fault build trapped.calm trapped.current trapped.running there.user other
  exact there.returns isHart rfl ran (.inr ⟨redirect, exits⟩)

theorem Window.used (window : Window tight held launch state) : (state.core.table launch.pid).state ≠ .empty := by
  rw [window.launched.running]
  decide

/-- The payload's root is a space of its own. -/
theorem Window.isRoot (window : Window tight held launch state) :
    (estate state.core).root (.slot launch.pid) = some (state.core.table launch.pid).root := by
  have hasFrame := window.calm.core.table.loaded launch.pid (by simp [Slot.engaged, window.launched.running])
  exact if_pos ⟨window.used, (window.calm.core.table.paired launch.pid window.used).mpr hasFrame⟩

/-- Back in the code a tick interrupted on its way to U-mode. -/
theorem Pause.phase {interrupted : Nat → Kernel Next} (pause : Pause launch program)
    (window : Window tight (heldIn only interrupted) launch state)
    (heldHere : ∃ root frame, heldIn only interrupted launch.pid root frame) :
    Phase build tight (heldIn only interrupted) state program := by
  obtain ⟨root, frame, isHeld⟩ := heldHere
  -- whether the launch was announced no longer shows, and nobody asks
  have quiet : Window tight (heldIn only interrupted) { launch with announced := false } state :=
    ⟨window.calm, window.enabled, window.launched.current, window.launched.running, window.launched.satp,
      window.launched.frame, window.launched.entry, fun nobody => absurd isHeld (nobody root frame), window.launched.parked⟩
  have resumes : Ready tight (heldIn only interrupted) (.resumeUser launch.satp launch.frame) state :=
    ⟨{ launch with announced := false }, rfl, rfl, quiet, nofun⟩
  have unspoken : Unspoken (heldIn only interrupted) launch state.core := fun nobody => absurd isHeld (nobody root frame)
  cases pause with
  | handed => exact .handover _ rfl ⟨window, unspoken⟩
  | entered =>
    cases announced : launch.announced with
    | true => exact .launching launch rfl window announced unspoken
    | false => exact .handover _ (launch_silent announced) resumes
  | spoken => exact .handover _ rfl resumes

/-- The state past the switch of `satp`. -/
def switched (state : State) (satp : Nat) : State :=
  { state with core := { state.core with phys := Hal.writeSatp state.core.phys satp } }

theorem Window.switch (window : Window tight held launch state) : Calm tight held (switched state launch.satp) := by
  have inv := window.calm.core.writeSatp window.isRoot
  rw [← window.launched.satp] at inv
  have evolves : Evolves state.core (switched state launch.satp).core := { Evolves.refl state.core with }
  exact window.calm.advance inv evolves.toAdvances rfl rfl (Nat.le_refl _)

/-- A payload whose own context is in its resume frame goes on where it was. -/
theorem resume_user (window : Window tight held launch config.state)
    (loaded : Context.loadFrame config.state.core.phys.mem launch.frame = (config.state.core.table launch.pid).lastUser)
    (user : UserContext (config.state.core.table launch.pid).lastUser) :
    Enters tight held launch.pid config (resume config launch.satp launch.frame) ∧
      (resume config launch.satp launch.frame).interrupted = config.interrupted := by
  obtain ⟨current, running, satp, -, -, -, memory, -⟩ := window.launched
  generalize isEntered : noteEntered (switched config.state launch.satp).core = core
  have made : core = setSlot (switched config.state launch.satp).core launch.pid fun slot => { slot with entered := true } := by
    rw [← isEntered]
    unfold noteEntered
    rw [show (switched config.state launch.satp).core.current = some launch.pid from current]
  have resumed : resume config launch.satp launch.frame = { config with
      hart := .user (config.state.core.table launch.pid).lastUser
      state := setSie { config.state with core } true } := by
    have context : Context.loadFrame (Hal.writeSatp config.state.core.phys launch.satp).mem launch.frame =
      (config.state.core.table launch.pid).lastUser := loaded
    rw [← isEntered]
    unfold Machine.resume
    simp only [context, user.isFromUser, if_true, user.same, user.enabled, switched]
  have here : core.table launch.pid = { config.state.core.table launch.pid with entered := true } := by
    rw [made, setSlot_self]
    rfl
  have one : OneSlot (switched config.state launch.satp).core core launch.pid := by
    rw [made]
    exact ⟨rfl, rfl, rfl, rfl, rfl, rfl, fun other different => setSlot_other _ _ different⟩
  have isCurrent : core.current = config.state.core.current := by
    rw [made]
    rfl
  have ledger : core.ledger = config.state.core.ledger := by
    rw [made]
    rfl
  have phys : core.phys = Hal.writeSatp config.state.core.phys launch.satp := one.phys
  have mem : core.phys.mem = config.state.core.phys.mem := by
    rw [phys]
    rfl
  have root : (core.table launch.pid).root = (config.state.core.table launch.pid).root := by rw [here]
  obtain ⟨inv, advances⟩ := window.switch.core.relive running one here isCurrent (by rw [ledger]; rfl)
  have calm : Calm tight held { config.state with core } := window.switch.advance inv advances rfl rfl (Nat.le_refl _)
  have there : UserAt tight held launch.pid (config.state.core.table launch.pid).lastUser
      (setSie { config.state with core } true) := by
    refine ⟨calm.setSie true, rfl, isCurrent.trans current, (congrArg Slot.state here).trans running, ?_,
      congrArg Slot.entered here, user⟩
    refine (congrArg Phys.satp phys).trans (satp.trans ?_)
    exact congrArg Mm.satpOf root.symm
  rw [resumed]
  refine ⟨⟨there, rfl, ?_, here, isCurrent, ?_, ?_, ledger, rfl⟩, rfl⟩
  · exact ⟨rfl, one.kernelRoot, one.snaps, one.taken, one.enqueued, one.suite, one.others⟩
  · exact mem
  · rw [← memory]
    exact congr (congrArg Sv39.view mem) root

/-- A payload whose resume frame holds kernel code goes on in the kernel. -/
theorem resume_kernel (window : Window tight (heldIn only config.interrupted) launch config.state)
    (isHart : config.hart = .kernel program)
    (isHeld : heldIn only config.interrupted launch.pid (config.state.core.table launch.pid).root launch.frame)
    (supervisor : (Context.loadFrame config.state.core.phys.mem launch.frame).isFromUser = false)
    (enabled : spie (Context.loadFrame config.state.core.phys.mem launch.frame).sstatus = true) :
    SystemInv build tight only (resume config launch.satp launch.frame) ∧
      Shift build tight (heldIn only config.interrupted) config (resume config launch.satp launch.frame) := by
  obtain ⟨current, running, -, frame, -, -, parked⟩ := window.launched
  have resumed : resume config launch.satp launch.frame = { config with
      hart := .kernel (config.interrupted launch.frame)
      state := setSie (switched config.state launch.satp) true } := by
    have supervisor' : (Context.loadFrame (Hal.writeSatp config.state.core.phys launch.satp).mem launch.frame).isFromUser =
      false := supervisor
    have enabled' : spie (Context.loadFrame (Hal.writeSatp config.state.core.phys launch.satp).mem launch.frame).sstatus =
      true := enabled
    unfold Machine.resume
    simp only [supervisor', enabled', Bool.false_eq_true, if_false, switched]
  obtain ⟨-, saved, isPid, savedSatp, savedFrame, savedEntry, pause⟩ := id isHeld
  have window' : Window tight (heldIn only config.interrupted) saved (setSie (switched config.state launch.satp) true) := by
    refine ⟨window.switch.setSie true, rfl, ?_⟩
    rw [← isPid] at current running savedSatp parked isHeld frame
    exact ⟨current, running, savedSatp, savedFrame.trans frame, savedEntry, fun nobody => absurd isHeld (nobody _ _), parked⟩
  rw [resumed]
  exact ⟨pause.phase window' ⟨_, _, isPid ▸ isHeld⟩, .returns program _ isHart rfl ⟨_, _, _, isHeld⟩ rfl rfl⟩

theorem resume_stands {satp frame : Nat} (ready : Ready tight (heldIn only config.interrupted) (.resumeUser satp frame) config.state)
    (isHart : config.hart = .kernel program) :
    SystemInv build tight only (resume config satp frame) ∧
      Shift build tight (heldIn only config.interrupted) config (resume config satp frame) := by
  obtain ⟨launch, rfl, rfl, window, announced⟩ := ready
  have context := window.launched.parked.context
  rw [← window.launched.frame] at context
  rcases context with ⟨loaded, user⟩ | ⟨isHeld, supervisor, enabled⟩
  · obtain ⟨enters, interrupted⟩ := resume_user window loaded user
    rw [SystemInv, interrupted, enters.isUser]
    refine ⟨⟨launch.pid, enters.there⟩, .enters launch.pid program isHart enters fun nobody spoken => announced ?_⟩
    rw [window.launched.announced nobody, spoken]
    rfl
  · exact resume_kernel window isHart isHeld supervisor enabled

/-- Frames that may be held for other reasons once `saved` holds something else. -/
theorem CoreInv.rebase (inv : CoreInv tight held core)
    (keeps : ∀ pid, (core.table pid).state = .pending → (core.table pid).resumeFrame ≠ 0 →
      held pid (core.table pid).root (core.table pid).resumeFrame →
        held' pid (core.table pid).root (core.table pid).resumeFrame) : CoreInv tight held' core := by
  refine ⟨inv.heap, inv.table, fun pid pending hasFrame => ?_, inv.contexts.frozen, inv.contexts.restored⟩
  obtain ⟨memory, context⟩ := inv.contexts.parked pid pending hasFrame
  exact ⟨memory, context.imp id fun ⟨isHeld, rest⟩ => ⟨keeps pid pending hasFrame isHeld, rest⟩⟩

/-- Another payload's resume frame is another frame. -/
theorem CoreInv.frame_ne (inv : CoreInv tight held core) {other : Pid} (different : other ≠ pid)
    (used : (core.table pid).state ≠ .empty) (usedOther : (core.table other).state ≠ .empty)
    (hasFrame : (core.table pid).resumeFrame ≠ 0) (hasFrameOther : (core.table other).resumeFrame ≠ 0) :
    (core.table other).resumeFrame ≠ (core.table pid).resumeFrame := by
  intro same
  have mine := CoreInv.holds_saved used hasFrame
  have theirs := CoreInv.holds_saved usedOther hasFrameOther
  rw [same] at theirs
  exact different (Owner.slot.inj (inv.heap.owned.apart _ _ _ _ _ theirs mine).1)

/-- Which code a tick that takes the payload off the CPU leaves behind in its frame. -/
def leftBehind (config : Config) (pid : Pid) (program : Kernel Next) (frame : Nat) : Kernel Next :=
  if frame = (config.state.core.table pid).resumeFrame then program else config.interrupted frame

theorem Calm.rebase (calm : Calm tight (heldIn only config.interrupted) config.state)
    (running : (config.state.core.table pid).state = .running) :
    Calm tight (heldIn only (leftBehind config pid program)) config.state := by
  refine ⟨calm.core.rebase fun other pending hasFrame ⟨notOnly, saved, isPid, satp, frame, entry, pause⟩ => ?_, calm.log,
    calm.stream, calm.whole⟩
  have different : other ≠ pid := by
    rintro rfl
    rw [running] at pending
    cases pending
  have used : (config.state.core.table pid).state ≠ .empty := by rw [running]; decide
  have usedOther : (config.state.core.table other).state ≠ .empty := by rw [pending]; decide
  have hasFrame' := calm.core.table.loaded pid (by simp [Slot.engaged, running])
  refine ⟨notOnly, saved, isPid, satp, frame, entry, ?_⟩
  rw [leftBehind, if_neg (calm.core.frame_ne different used usedOther hasFrame' hasFrame)]
  exact pause

/-- A tick that leaves nobody current redirects to the scheduler. -/
theorem Ticked.expels {frame : TrapFrame} (ticked : Ticked tight held build pid context state frame state')
    (current : state.core.current = some pid) (left : state'.core.current = none)
    (memory : Sv39.view state.core.phys.mem (state.core.table pid).root = (state.core.table pid).lastMemory)
    (interruptible : (state'.core.table pid).state = .pending → Interruptible (held pid) (state.core.table pid) context) :
    IsRedirect build frame ∧ Exits tight held state state' ∧
      ((state'.core.table pid).state = .pending ∨ (state'.core.table pid).state.terminal = true) := by
  cases ticked with
  | returned same passes =>
    rw [passes.current, current] at left
    cases left
  | ended redirect exits done => exact ⟨redirect, exits, .inr done⟩
  | preempted redirect _ running slot sound =>
    have pending : (state'.core.table pid).state = .pending := by
      rw [slot]
      rfl
    exact ⟨redirect, sound memory (interruptible pending), .inl pending⟩

theorem kernelTick_expelled (program : Kernel Next) {frame frame' : TrapFrame} (current : config.state.core.current = some pid)
    (ran : (Traps.handle build frame Text.causeSTimer 0).run (setSie config.state false) = (some frame', state'))
    (redirect : IsRedirect build frame') (left : state'.core.current = none) :
    kernelTick build config program frame =
      { hart := .kernel (Main.code build .run), state := setSie state' true, interrupted := leftBehind config pid program } := by
  have left' : (setSie state' true).core.current = none := left
  unfold kernelTick
  rw [trap_returns ran, trapReturn_redirect redirect]
  simp only [current, left']
  rfl

theorem kernelTick_same {frame : TrapFrame}
    (ran : (Traps.handle build frame Text.causeSTimer 0).run (setSie config.state false) = (some frame, state'))
    (current : state'.core.current = config.state.core.current) (supervisor : frame.isFromUser = false)
    (enabledBefore : spie frame.sstatus = true)
    (place : frame.sepc = build.schedulerResume → program = Main.code build .run) :
    kernelTick build config program frame = { config with hart := .kernel program, state := setSie state' true } := by
  have current' : (setSie state' true).core.current = config.state.core.current := current
  unfold kernelTick
  rw [trap_returns ran, trapReturn_kernel supervisor enabledBefore place]
  simp only [current']
  cases config.state.core.current <;> rfl

theorem Window.passes (window : Window tight held launch state) (passes : Passes tight held (setSie state false) state') :
    Window tight held launch (setSie state' true) := by
  obtain ⟨current, running, satp, frame, entry, announced, parked⟩ := window.launched
  refine ⟨passes.calm.setSie true, rfl, passes.current.trans current, ?_, ?_, ?_, entry, ?_, ?_⟩
  · exact (congrArg Slot.state (passes.slot launch.pid)).trans running
  · exact satp.trans (congrArg (fun slot : Slot => Mm.satpOf slot.root) (passes.slot launch.pid).symm)
  · exact frame.trans (congrArg Slot.resumeFrame (passes.slot launch.pid).symm)
  · exact fun nobody => (announced nobody).trans (congrArg (fun ledger : Ledger => !ledger.silent) passes.same.ledger.symm)
  · have slot : (setSie state' true).core.table launch.pid = state.core.table launch.pid := passes.slot launch.pid
    have mem : (setSie state' true).core.phys.mem = state.core.phys.mem := congrArg Phys.mem passes.same.phys
    rw [slot, mem]
    exact parked

theorem Announced.passes (announced : Announced pid state) (passes : Passes tight held (setSie state false) state') :
    Announced pid (setSie state' true) := by
  obtain ⟨entry, member, serial, event, what, start, suite, anchor⟩ := announced
  obtain ⟨more, log, -⟩ := passes.moves.log
  refine ⟨entry, ?_, serial, event, what, start, ?_, ?_⟩
  · rw [show (setSie state' true).env.log = _ from log]
    exact List.mem_append_left _ member
  · exact suite.trans (congrArg Ledger.suite passes.same.ledger.symm)
  · exact (congrArg Slot.startEvent (passes.slot pid)).trans anchor

/-- Ticks in S-mode, which come only where interrupts are on, preempt nobody. -/
def UserPreempts (config next : Config) : Prop :=
  ∀ program pid, config.hart = .kernel program → config.state.env.sie = true → config.state.core.current = some pid →
    (next.state.core.table pid).state ≠ .pending

/-- A new suite begins only when all slots have handed back their frames. -/
def CleanReseed (config next : Config) : Prop :=
  next.state.core.ledger.suite ≠ config.state.core.ledger.suite →
    ∀ pid, (config.state.core.table pid).root = 0 ∧ (config.state.core.table pid).resumeFrame = 0

theorem kernelTick_window {frame : TrapFrame} (window : Window tight (heldIn only config.interrupted) launch config.state)
    (pause : Pause launch program) (isHart : config.hart = .kernel program)
    (back : ∀ state', Window tight (heldIn only config.interrupted) launch state' →
      state'.core.table = config.state.core.table → (Announced launch.pid config.state → Announced launch.pid state') →
        Phase build tight (heldIn only config.interrupted) state' program)
    (supervisor : frame.isFromUser = false) (enabledBefore : spie frame.sstatus = true)
    (place : frame.sepc = build.schedulerResume → program = Main.code build .run)
    (preempts : only → UserPreempts config (kernelTick build config program frame)) :
    SystemInv build tight only (kernelTick build config program frame) ∧
      Shift build tight (heldIn only config.interrupted) config (kernelTick build config program frame) := by
  obtain ⟨current, running, satp, isFrame, entry, -, parked⟩ := window.launched
  obtain ⟨frame', state', ran, ticked⟩ := handle_tick build (window.calm.setSie false) current frame
  by_cases left : state'.core.current = none
  · -- the handler run again over what the frame will hold afterwards
    have rebased : Calm tight (heldIn only (leftBehind config launch.pid program)) config.state := window.calm.rebase running
    obtain ⟨_, _, ran', ticked'⟩ := handle_tick build (rebased.setSie false) current frame
    rw [ran] at ran'
    cases ran'
    have redirect : IsRedirect build frame' := by
      cases ticked with
      | returned same passes =>
        rw [passes.current] at left
        exact absurd (left.symm.trans current) nofun
      | ended redirect exits done => exact redirect
      | preempted redirect _ _ _ _ => exact redirect
    have next := kernelTick_expelled program current ran redirect left
    have interruptible : (state'.core.table launch.pid).state = .pending →
        Interruptible (heldIn only (leftBehind config launch.pid program) launch.pid)
          ((setSie config.state false).core.table launch.pid) frame := by
      intro pending
      refine .inr ⟨⟨fun assumed => ?_, launch, rfl, satp, isFrame, entry, ?_⟩, supervisor, enabledBefore⟩
      · have barred := preempts assumed program launch.pid isHart window.enabled current
        rw [next] at barred
        exact barred pending
      · have mine : leftBehind config launch.pid program (config.state.core.table launch.pid).resumeFrame = program :=
          if_pos rfl
        exact mine.symm ▸ pause
    obtain ⟨-, exits, gone⟩ := ticked'.expels current left parked.memory interruptible
    rw [next]
    refine ⟨exits.runs, .expels launch.pid program isHart rfl window.enabled current left ?_ gone⟩
    exact ((Moves.setSie _ false).trans exits.moves).trans (.setSie _ true)
  · cases ticked with
    | returned same passes =>
      subst same
      rw [kernelTick_same ran passes.current supervisor enabledBefore place]
      refine ⟨back _ (window.passes passes) passes.same.table fun announced => announced.passes passes,
        .still ?_ passes.current ?_ ?_ (isHart ▸ .same _)⟩
      · exact passes.same
      · exact ((Moves.setSie _ false).trans passes.moves).trans (.setSie _ true)
      · exact passes.unnamed
    | ended redirect exits done => exact absurd exits.current left
    | preempted redirect gone _ _ _ => exact absurd gone left

theorem kernelTick_nobody {frame : TrapFrame} (phase : Phase build tight held config.state program)
    (isHart : config.hart = .kernel program)
    (nobody : config.state.core.current = none) (enabled : config.state.env.sie = true)
    (supervisor : frame.isFromUser = false) (enabledBefore : spie frame.sstatus = true)
    (place : frame.sepc = build.schedulerResume → program = Main.code build .run) :
    Stands build tight held (kernelTick build config program frame).hart (kernelTick build config program frame).state ∧
      Shift build tight held config (kernelTick build config program frame) ∧
      (kernelTick build config program frame).interrupted = config.interrupted := by
  have masked : (setSie config.state false).core.current = none := nobody
  obtain ⟨state', more, ran, emits, ticks⟩ := handle_tick_nobody build masked frame
  have around : Emits config.state (setSie state' true) more :=
    ⟨emits.core, enabled.symm, ⟨emits.logs.log, emits.logs.wire, emits.logs.serial, emits.logs.fresh, emits.logs.increasing⟩,
      emits.stamped⟩
  have interferes : Interferes config.state (setSie state' true) :=
    ⟨⟨more, around, ticks⟩, fun masked => absurd (enabled.symm.trans masked) nofun⟩
  have core : (setSie state' true).core = config.state.core := emits.core
  rw [kernelTick_same ran (congrArg Core.current emits.core) supervisor enabledBefore place]
  refine ⟨phase.interferes interferes, .still ?_ ?_ ?_ ?_ (isHart ▸ .same _), rfl⟩
  · rw [core]
    exact .refl _
  · rw [core]
  · exact .of_emits around fun entry member => (ticks.harmless entry member).plain
  · exact ⟨more, around.logs.log, ticks.unnamed⟩

theorem Inv.receive (inv : Inv tight held state) (byte : UInt8) : Inv tight held (receive state byte) :=
  ⟨inv.core, inv.log, ⟨inv.stream.increasing, inv.stream.below, inv.stream.wire⟩, inv.whole⟩

theorem receive_stands {hart : Hart} (stands : Stands build tight held hart state) (byte : UInt8) :
    Stands build tight held hart (receive state byte) := by
  cases hart with
  | user context =>
    obtain ⟨pid, there⟩ := stands
    have calm : Calm tight held (receive state byte) := there.calm.advance there.calm.core (.refl _) rfl rfl (Nat.le_refl _)
    exact ⟨pid, calm, there.enabled, there.current, there.running, there.satp, there.entered, there.user⟩
  | kernel program => exact Phase.interferes stands (.receive state byte)
  | off => exact Inv.receive stands byte

theorem store_stands (there : UserAt tight held pid context state) {va pa : Nat}
    (allowed : Sv39.storeAddress state.core.phys.mem (Sv39.satpRoot state.core.phys.satp) va = some pa) (byte : UInt8) :
    UserAt tight held pid context (storeByte state pa byte) := by
  have inv : CoreInv tight held (storeByte state pa byte).core := (there.calm.core.store there.running there.satp allowed byte).1
  have evolves : Evolves state.core (storeByte state pa byte).core := { Evolves.refl state.core with }
  have calm : Calm tight held (storeByte state pa byte) := there.calm.advance inv evolves.toAdvances rfl rfl (Nat.le_refl _)
  exact ⟨calm, there.enabled, there.current, there.running, there.satp, there.entered, there.user⟩

theorem crash_stands (build : Build) {frame : TrapFrame} (isHart : config.hart = .kernel (.pure .crash))
    (steady : Steady tight held config.state) (supervisor : frame.isFromUser = false)
    (stval : Nat) :
    Stands build tight held (trap build config frame Text.causeIllegalInstruction stval program).hart
        (trap build config frame Text.causeIllegalInstruction stval program).state ∧
      Shift build tight held config (trap build config frame Text.causeIllegalInstruction stval program) ∧
      (trap build config frame Text.causeIllegalInstruction stval program).interrupted = config.interrupted := by
  obtain ⟨state', ran, passes⟩ := handle_crash build (steady.calm.setSie false) supervisor stval
  have off : trap build config frame Text.causeIllegalInstruction stval program = { config with hart := .off, state := state' } := by
    unfold trap
    rw [ran]
  rw [off]
  exact ⟨passes.calm.inv, .still passes.same passes.current ((Moves.setSie _ false).trans passes.moves) passes.unnamed
    (isHart ▸ .stops _ (.inl rfl)), rfl⟩

theorem Shift.of_state (same : next.state = config.state) (proceeds : Proceeds build config.hart next.hart) :
    Shift build tight held config next := by
  refine .still ?_ ?_ ?_ ?_ proceeds <;> rw [same]
  · exact .refl _
  · exact .refl _
  · exact .of_log rfl

theorem kernelTick_stands {frame : TrapFrame} (inv : SystemInv build tight only config) (isHart : config.hart = .kernel program)
    (enabled : config.state.env.sie = true) (supervisor : frame.isFromUser = false)
    (enabledBefore : spie frame.sstatus = true)
    (place : frame.sepc = build.schedulerResume → program = Main.code build .run)
    (preempts : only → UserPreempts config (kernelTick build config program frame)) :
    SystemInv build tight only (kernelTick build config program frame) ∧
      Shift build tight (heldIn only config.interrupted) config (kernelTick build config program frame) := by
  have phase : Phase build tight (heldIn only config.interrupted) config.state program := by
    rw [SystemInv, isHart] at inv
    exact inv
  rcases phase.awake enabled with nobody | ⟨launch, window, pause, back⟩
  · obtain ⟨stands, shift, interrupted⟩ := kernelTick_nobody phase isHart nobody enabled supervisor enabledBefore place
    rw [SystemInv, interrupted]
    exact ⟨stands, shift⟩
  · exact kernelTick_window window pause isHart back supervisor enabledBefore place preempts

/-- One step of the machine. -/
theorem Machine.Step.preserves (formed : tight → ∀ image, Elf.WellFormed (build.elf image)) (inv : SystemInv build tight only config)
    (step : Step build config next) (clean : tight → CleanReseed config next) (preempts : only → UserPreempts config next) :
    SystemInv build tight only next ∧ Shift build tight (heldIn only config.interrupted) config next := by
  have stands := inv
  rw [SystemInv] at stands
  cases step with
  | act running =>
    rw [running] at stands
    obtain ⟨phase, transits⟩ := Phase.act stands clean
    exact ⟨phase, .acts _ _ running rfl transits⟩
  | enter running stays =>
    rw [running] at stands
    exact ⟨(Phase.at_pure stands).enter stays formed, .of_state rfl (running ▸ .enters _ stays)⟩
  | resume running =>
    rw [running] at stands
    exact resume_stands (Phase.at_pure stands) running
  | crash frame stval running supervisor =>
    rw [running] at stands
    obtain ⟨next, shift, interrupted⟩ := crash_stands build running (Phase.at_pure stands).1 supervisor stval
    rw [SystemInv, interrupted]
    exact ⟨next, shift⟩
  | panicked running =>
    rw [running] at stands
    exact ⟨Phase.inv stands, .of_state rfl (running ▸ .stops _ (.inr rfl))⟩
  | kernelTick frame running enabled supervisor enabledBefore place =>
    exact kernelTick_stands inv running enabled supervisor enabledBefore place preempts
  | userTick running =>
    rw [running] at stands
    obtain ⟨pid, there⟩ := stands
    obtain ⟨next, shift, interrupted⟩ := userTick_stands build there running
    rw [SystemInv, interrupted]
    exact ⟨next, shift⟩
  | ecall running =>
    rw [running] at stands
    obtain ⟨pid, there⟩ := stands
    obtain ⟨next, shift, interrupted⟩ := ecall_stands build there running
    rw [SystemInv, interrupted]
    exact ⟨next, shift⟩
  | fault scause stval running other =>
    rw [running] at stands
    obtain ⟨pid, there⟩ := stands
    obtain ⟨next, shift, interrupted⟩ := fault_stands build there running other
    rw [SystemInv, interrupted]
    exact ⟨next, shift⟩
  | compute regs sepc running =>
    rw [running] at stands
    obtain ⟨pid, there⟩ := stands
    exact ⟨⟨pid, there.calm, there.enabled, there.current, there.running, there.satp, there.entered,
      there.user.status, there.user.enabled⟩, .of_state rfl (running ▸ .computes _ _)⟩
  | store va pa byte running allowed =>
    rw [running] at stands
    obtain ⟨pid, there⟩ := stands
    have there' := store_stands there allowed byte
    refine ⟨?_, .stores pid _ running there va pa byte allowed rfl⟩
    rw [SystemInv, running]
    exact ⟨pid, there'⟩
  | receive byte =>
    exact ⟨receive_stands stands byte, .still (.refl _) rfl (.of_core (.refl _) rfl) (.of_log rfl) (.same _)⟩

end Kernai
