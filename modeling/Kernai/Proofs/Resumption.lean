import Kernai.Proofs.Isolation
import Kernai.Proofs.Runs

/-! What a payload finds when it gets the CPU: the context and the memory it left, or
those of the checkpoint it continues. -/

namespace Kernai
open Foundation Program Kernel Payload Machine Context Frames Mm

variable {tight only : Prop} {held : Held} {build : Build} {state : State} {config next : Config} {pid : Pid}
  {context : TrapFrame}

theorem notHeld (interrupted : Nat → Kernel Next) (pid : Pid) (root frame : Nat) : ¬ heldIn True interrupted pid root frame :=
  fun isHeld => isHeld.1 trivial

theorem Machine.Reachable.userOnly (reached : Reachable build UserPreempts config) : SystemInv build False True config :=
  reached.inv False.elim (fun _ _ _ => False.elim) fun _ _ fine _ => fine

/-- Where ticks in S-mode preempt nobody, a waiting payload's resume frame holds its own
user context, and `__resume_user` goes there. -/
theorem resume_frames_hold_user_contexts (reached : Reachable build UserPreempts config) :
    (∀ pid, (config.state.core.table pid).state = .pending → (config.state.core.table pid).resumeFrame ≠ 0 →
      (loadFrame config.state.core.phys.mem (config.state.core.table pid).resumeFrame).isFromUser = true ∧
        loadFrame config.state.core.phys.mem (config.state.core.table pid).resumeFrame =
          (config.state.core.table pid).lastUser) ∧
      ∀ satp frame, config.hart = .kernel (.pure (.resumeUser satp frame)) → ∃ pid,
        config.state.core.current = some pid ∧
          (resume config satp frame).hart = .user (config.state.core.table pid).lastUser := by
  have inv := reached.userOnly
  constructor
  · intro pid pending hasFrame
    have parked := (Stands.inv inv).core.contexts.parked pid pending hasFrame
    rcases parked.context with ⟨loaded, user⟩ | ⟨isHeld, -⟩
    · rw [loaded]
      exact ⟨user.isFromUser, rfl⟩
    · exact absurd isHeld (notHeld _ _ _ _)
  · intro satp frame isHart
    rw [SystemInv, isHart] at inv
    obtain ⟨launch, rfl, rfl, window, -⟩ := Phase.at_pure inv
    refine ⟨launch.pid, window.launched.current, ?_⟩
    have context := window.launched.parked.context
    rw [← window.launched.frame] at context
    rcases context with ⟨loaded, user⟩ | ⟨isHeld, -⟩
    · exact (resume_user window loaded user).1.isUser
    · exact absurd isHeld (notHeld _ _ _ _)

def preemptsNobody (config next : Config) : Bool :=
  match config.hart, config.state.core.current with
  | .kernel _, some pid => !config.state.env.sie || (next.state.core.table pid).state != .pending
  | _, _ => true

theorem preemptsNobody_sound (config next : Config) (fine : preemptsNobody config next = true) : UserPreempts config next := by
  intro program pid isHart enabled current
  rw [preemptsNobody, isHart, current] at fine
  simpa [enabled] using fine

/-- A byte arrives while the payload executes, and the next tick takes it off the CPU. -/
def preempted : Script bareBuild preemptsNobody (boot bareBuild) fun config =>
    (config.state.core.table pid0).state = .pending ∧ (config.state.core.table pid0).resumeFrame ≠ 0 where
  moves := startSuite ++ [.receive 0x41, .userTick]
  passes := by decide +kernel

theorem resume_frames_hold_user_contexts_preempted :
    (loadFrame preempted.config.state.core.phys.mem (preempted.config.state.core.table pid0).resumeFrame).isFromUser = true :=
  ((resume_frames_hold_user_contexts (preempted.reachable preemptsNobody_sound)).1 pid0 preempted.tested.1 preempted.tested.2).1

/-- The byte arrives, and the tick comes, when `start` has set `CURRENT` and the payload has
not been announced yet. -/
def windowTick : Script bareBuild anyMove (boot bareBuild) fun config =>
    (config.state.core.table pid0).state = .pending ∧ (config.state.core.table pid0).resumeFrame ≠ 0 ∧
      (loadFrame config.state.core.phys.mem (config.state.core.table pid0).resumeFrame).isFromUser = false where
  moves := .receive 0x64 :: (handOvers 6 ++ [.receive 0x41, .kernelTick kernelFrame])
  passes := by decide +kernel

/-- Then the frame to resume from holds registers of the kernel. -/
theorem resume_frame_holds_kernel_context : ∃ config, Reachable bareBuild anyStep config ∧
    (config.state.core.table pid0).state = .pending ∧ (config.state.core.table pid0).resumeFrame ≠ 0 ∧
      (loadFrame config.state.core.phys.mem (config.state.core.table pid0).resumeFrame).isFromUser = false :=
  ⟨windowTick.config, windowTick.reachable anyMove_sound, windowTick.tested⟩

/-- The value `sys_snapshot` returns. -/
def snapshotValue : Except Int (Pid × Sid) → Int
  | .ok (_, sid) => sid.val + 1
  | .error errno => errno

theorem onSnapshot_run (context : TrapFrame) (state : State) :
    ((onSnapshot context).run state).1 = snapshotValue (takeSnapshot context state.core).1 ∧
      ((onSnapshot context).run state).2.core = (takeSnapshot context state.core).2 := by
  unfold onSnapshot
  simp only [run_bind, onCore_run]
  rcases takeSnapshot context state.core with ⟨result, core⟩
  cases result with
  | error errno => exact ⟨rfl, rfl⟩
  | ok pair =>
    obtain ⟨pid, sid⟩ := pair
    obtain ⟨more, emits, -⟩ := emit_emits (fun _ => .snapshot pid (sid.val + 1)) { state with core }
    simp only [run_bind, run_pure]
    exact ⟨rfl, emits.core⟩

theorem handle_snapshot (build : Build) (call : context.a7 = 4) (state : State) :
    (Traps.handle build context Text.causeUEcall 0).run state =
      (some (context.advancePastEcall.setA0
        (.ofInt ((onSnapshot context.advancePastEcall).run (noted context Text.causeUEcall 0 state)).1)),
        ((onSnapshot context.advancePastEcall).run (noted context Text.causeUEcall 0 state)).2) := by
  have number : context.advancePastEcall.a7.toNat = 4 := congrArg UInt64.toNat call
  rw [handle_run, if_neg (by decide), if_pos rfl, run_map]
  unfold Traps.handleEcall Syscall.dispatch
  simp only [number, run_bind, run_map, run_pure]

/-- The step of a `sys_snapshot`. -/
theorem snapshot_step (build : Build) (config : Config) (user : UserContext context) (call : context.a7 = 4) :
    (userTrap build config context Text.causeUEcall 0).hart = .user (context.advancePastEcall.setA0
        (.ofInt (snapshotValue (takeSnapshot context.advancePastEcall (noteUser config.state context).core).1))) ∧
      (userTrap build config context Text.causeUEcall 0).state.core =
        (takeSnapshot context.advancePastEcall (noteUser config.state context).core).2 := by
  have ran := handle_snapshot build call (setSie (noteUser config.state context) false)
  obtain ⟨isValue, isCore⟩ := onSnapshot_run context.advancePastEcall
    (noted context Text.causeUEcall 0 (setSie (noteUser config.state context) false))
  generalize (onSnapshot context.advancePastEcall).run
    (noted context Text.causeUEcall 0 (setSie (noteUser config.state context) false)) = done at ran isValue isCore
  have returned : UserContext (context.advancePastEcall.setA0 (.ofInt done.1)) := ⟨user.status, user.enabled⟩
  have taken : userTrap build config context Text.causeUEcall 0 = trapReturn build
      { config with state := noteUser config.state context } (context.advancePastEcall.setA0 (.ofInt done.1)) done.2
      (.pure .run) := trap_returns ran
  rw [taken, trapReturn_user returned, isValue]
  exact ⟨rfl, isCore⟩

theorem Machine.Reachable.userAt (reached : Reachable build anyStep config) (isHart : config.hart = .user context)
    (current : config.state.core.current = some pid) :
    UserAt False (heldIn False config.interrupted) pid context config.state := by
  have inv := reached.systemInv
  rw [SystemInv, isHart] at inv
  obtain ⟨other, there⟩ := inv
  cases Option.some.inj (there.current.symm.trans current)
  exact there

/-- A `sys_snapshot` that adds to the checkpoints has succeeded. -/
theorem snapshot_succeeds (there : UserAt tight held pid context config.state) (call : context.a7 = 4)
    (succeeds : (userTrap build config context Text.causeUEcall 0).state.core.ledger.taken ≠ config.state.core.ledger.taken) :
    (∃ id : UInt64, 0 < id ∧ (userTrap build config context Text.causeUEcall 0).hart = .user (context.advancePastEcall.setA0 id)) ∧
      ∃ caps, (userTrap build config context Text.causeUEcall 0).state.core.ledger.taken = config.state.core.ledger.taken ++
        [⟨pid, caps, context.advancePastEcall, Sv39.view config.state.core.phys.mem (config.state.core.table pid).root⟩] := by
  obtain ⟨isUser, isCore⟩ := snapshot_step build config there.user call
  have trapped := there.trapped
  rcases ran : takeSnapshot context.advancePastEcall (noteUser config.state context).core with ⟨result, core⟩
  rw [ran] at isUser isCore
  have user : UserContext context.advancePastEcall := ⟨there.user.status, there.user.enabled⟩
  have before : (noteUser config.state context).core.ledger = config.state.core.ledger := trapped.ledger
  obtain ⟨failed, taken⟩ := takeSnapshot_spec trapped.calm.core trapped.current trapped.running user ran
  cases result with
  | error errno =>
    obtain ⟨-, unchanged⟩ := failed errno rfl
    obtain ⟨phys, rfl⟩ := unchanged.rest
    rw [isCore] at succeeds
    exact absurd (congrArg Ledger.taken before) succeeds
  | ok pair =>
    obtain ⟨taker, sid⟩ := pair
    obtain ⟨rfl, snapped⟩ := taken taker sid rfl
    refine ⟨⟨.ofInt (sid.val + 1), ?_, isUser⟩, (config.state.core.table taker).caps, ?_⟩
    · have all : ∀ sid : Sid, 0 < UInt64.ofInt (sid.val + 1) := by decide
      exact all sid
    · have slot : (noteUser config.state context).core.table taker = relived (config.state.core.table taker) context
          (Sv39.view config.state.core.phys.mem (config.state.core.table taker).root) := trapped.here
      have phys : (noteUser config.state context).core.phys = config.state.core.phys := trapped.phys
      rw [isCore, snapped.ledger]
      change (noteUser config.state context).core.ledger.taken ++ [⟨taker, ((noteUser config.state context).core.table taker).caps,
        context.advancePastEcall, Sv39.view (noteUser config.state context).core.phys.mem
          ((noteUser config.state context).core.table taker).root⟩] = _
      rw [before, slot, phys]
      rfl

/-- The continuation of a checkpoint begins where the checkpoint was taken. -/
theorem enters_restored {before after : Config} {program : Kernel Next} {child : Pid} {serial : Nat}
    (reached : Reachable build anyStep before) (step : Step build before after) (kernel : before.hart = .kernel program)
    (isUser : after.hart = .user context) (current : after.state.core.current = some child)
    (origin : (before.state.core.table child).origin = some serial)
    (first : (before.state.core.table child).entered = false) : ∃ checkpoint,
      before.state.core.ledger.taken[serial]? = some checkpoint ∧ context = checkpoint.context.setA0 0 ∧
        Sv39.view after.state.core.phys.mem (after.state.core.table child).root = checkpoint.memory := by
  have fromKernel : ¬ ∃ context, before.hart = .user context := by
    rintro ⟨context, hart⟩
    rw [kernel] at hart
    cases hart
  have entersIt : Enters False (heldIn False before.interrupted) child before after := by
    cases step.shift reached with
    | enters pid program hart enters spoken =>
      cases Option.some.inj (enters.there.current.symm.trans current)
      exact enters
    | still same current moves unnamed proceeds =>
      rw [kernel, isUser] at proceeds
      cases proceeds
    | acts update rest hart hart' transits =>
      rw [isUser] at hart'
      cases hart'
    | expels pid program hart hart' enabled current left moves gone =>
      rw [isUser] at hart'
      cases hart'
    | returns program rest hart hart' isHeld changed log =>
      rw [isUser] at hart'
      cases hart'
    | traps pid context hart there moves => exact absurd ⟨context, hart⟩ fromKernel
    | stores pid context hart there va pa byte allowed written => exact absurd ⟨context, hart⟩ fromKernel
  have used : (before.state.core.table child).state ≠ .empty := by
    have running := entersIt.there.running
    rw [entersIt.here] at running
    rw [running]
    decide
  obtain ⟨-, checkpoint, found, -, begins⟩ := reached.coreInv.contexts.restored child serial used origin
  obtain ⟨user, memory⟩ := begins first
  refine ⟨checkpoint, found, ?_, entersIt.memory.trans memory⟩
  rw [entersIt.isUser, user] at isUser
  exact (Hart.user.inj isUser).symm

/-- A store changes what nobody else sees. -/
theorem store_private (there : UserAt tight held pid context state) {va pa : Nat}
    (allowed : Sv39.storeAddress state.core.phys.mem (Sv39.satpRoot state.core.phys.satp) va = some pa) (byte : UInt8)
    {owner : Owner} {root : Nat} (different : owner ≠ .slot pid) (isRoot : (estate state.core).root owner = some root) :
    Sv39.view (storeByte state pa byte).core.phys.mem root = Sv39.view state.core.phys.mem root := by
  obtain ⟨-, keeps⟩ := there.calm.core.store there.running there.satp allowed byte
  exact there.calm.core.heap.owned.view (keeps owner different) isRoot

/-- Checkpoint fidelity and independence: the taker goes on with a positive id, every later
continuation of the checkpoint begins with the registers and the memory of that moment, and
no store by anybody shows in another space. -/
theorem checkpoint_fidelity (reached : Reachable build anyStep config) (isHart : config.hart = .user context)
    (current : config.state.core.current = some pid) (call : context.a7 = 4)
    (succeeds : (userTrap build config context Text.causeUEcall 0).state.core.ledger.taken ≠ config.state.core.ledger.taken) :
    (∃ id : UInt64, 0 < id ∧
      (userTrap build config context Text.causeUEcall 0).hart = .user (context.advancePastEcall.setA0 id)) ∧
    (∀ before after program context' child,
      Later build anyStep (userTrap build config context Text.causeUEcall 0) before → Step build before after →
      before.hart = .kernel program → after.hart = .user context' → after.state.core.current = some child →
      (before.state.core.table child).origin = some config.state.core.ledger.taken.length →
      (before.state.core.table child).entered = false →
        context' = context.advancePastEcall.setA0 0 ∧
          Sv39.view after.state.core.phys.mem (after.state.core.table child).root =
            Sv39.view config.state.core.phys.mem (config.state.core.table pid).root) ∧
    ∀ before context' writer va pa byte owner root,
      Later build anyStep (userTrap build config context Text.causeUEcall 0) before → before.hart = .user context' →
      before.state.core.current = some writer →
      Sv39.storeAddress before.state.core.phys.mem (Sv39.satpRoot before.state.core.phys.satp) va = some pa →
      owner ≠ .slot writer → (estate before.state.core).root owner = some root →
        Sv39.view (storeByte before.state pa byte).core.phys.mem root = Sv39.view before.state.core.phys.mem root := by
  have there := reached.userAt isHart current
  obtain ⟨positive, caps, taken⟩ := snapshot_succeeds there call succeeds
  have reached' : Reachable build anyStep (userTrap build config context Text.causeUEcall 0) :=
    .step reached (.ecall isHart) trivial
  refine ⟨positive, ?_, ?_⟩
  · intro before after program context' child later step kernel isUser isCurrent origin first
    obtain ⟨checkpoint, found, isContext, isMemory⟩ :=
      enters_restored (reached'.later later) step kernel isUser isCurrent origin first
    have grown := later.taken reached'
    have same : before.state.core.ledger.taken[config.state.core.ledger.taken.length]? =
        some ⟨pid, caps, context.advancePastEcall,
          Sv39.view config.state.core.phys.mem (config.state.core.table pid).root⟩ := by
      obtain ⟨more, append⟩ := grown
      rw [← append, taken, List.append_assoc, List.getElem?_append_right (Nat.le_refl _), Nat.sub_self]
      rfl
    cases found.symm.trans same
    exact ⟨isContext, isMemory⟩
  · intro before context' writer va pa byte owner root later isUser isCurrent allowed different isRoot
    exact store_private ((reached'.later later).userAt isUser isCurrent) allowed byte different isRoot

/-- The payload has set up the call. -/
def snapshotCall : Script bareBuild anyMove (boot bareBuild) fun config =>
    config.state.core.current = some pid0 ∧ config.state.core.ledger.taken.length = 0 ∧
      ∃ context ∈ contextOf config.hart, context.a7 = 4 ∧
        (userTrap bareBuild config context Text.causeUEcall 0).state.core.ledger.taken.length = 1 where
  moves := startSuite ++ (syscall 4 0 0).take 1
  passes := by decide +kernel

theorem checkpoint_fidelity_call : ∃ context, contextOf snapshotCall.config.hart = some context ∧ ∃ id : UInt64, 0 < id ∧
    (userTrap bareBuild snapshotCall.config context Text.causeUEcall 0).hart = .user (context.advancePastEcall.setA0 id) := by
  obtain ⟨current, none, context, isContext, call, one⟩ := snapshotCall.tested
  refine ⟨context, isContext, (checkpoint_fidelity (snapshotCall.reachable anyMove_sound) (contextOf_user isContext) current
    call fun same => ?_).1⟩
  rw [same, none] at one
  cases one

/-- The same memory with fewer frames to give out, whichever those are and wherever the
search for one begins. -/
structure Fuller (phys full : Phys) : Prop where
  mem : full.mem = phys.mem
  live : ∀ f, Live phys f → Live full f

/-- The state with other free frames and other devices. -/
def State.having (state : State) (full : Phys) (env : Env) : State := ⟨{ state.core with phys := full }, env⟩

/-- What a call that fails leaves as it was; nothing is emitted either. -/
structure AsBefore (state state' : State) : Prop where
  table : state'.core.table = state.core.table
  snaps : state'.core.snaps = state.core.snaps
  lastSnap : state'.core.lastSnap = state.core.lastSnap
  frames : ∀ f, Live state'.core.phys f ↔ Live state.core.phys f
  memory : ∀ f, Live state.core.phys f → Memory.Agree state.core.phys.mem state'.core.phys.mem f 4096
  leaves : ∀ owner root, (estate state.core).root owner = some root →
    Sv39.leafAt state'.core.phys.mem root = Sv39.leafAt state.core.phys.mem root
  views : ∀ owner root, (estate state.core).root owner = some root →
    Sv39.view state'.core.phys.mem root = Sv39.view state.core.phys.mem root
  env : state'.env = state.env

theorem Mm.Space.fuller {phys full : Phys} {root : Nat} (space : Space phys root) (fuller : Fuller phys full) :
    Space full root := by
  have same : ∀ f, Memory.Agree phys.mem full.mem f 4096 := fun f => fuller.mem ▸ .refl _ _ _
  exact (space.persist (fun _ f _ _ => same f) fun node f found => fuller.live f (space.live node f found)).1

theorem Mm.Undone.asBefore {full phys : Phys} {env : Env} (undone : Undone True full phys)
    (spaces : ∀ owner root, (estate state.core).root owner = some root → Space full root) :
    AsBefore (state.having full env) (state.having phys env) where
  table := rfl
  snaps := rfl
  lastSnap := rfl
  frames f := ⟨undone.complete trivial f, fun live => (undone.kept f live).1⟩
  memory f live := (undone.kept f live).2
  leaves owner root isRoot := Sv39.leafAt_frame (spaces owner root isRoot) fun node f found =>
    (undone.kept f ((spaces owner root isRoot).live node f found)).2
  views owner root isRoot := Sv39.view_frame (spaces owner root isRoot)
    (fun node f found => (undone.kept f ((spaces owner root isRoot).live node f found)).2) undone.outside
  env := rfl

/-- A `sys_snapshot` that fails says nothing. -/
theorem onSnapshot_failed {errno : Int} {core : Core} (ran : takeSnapshot context state.core = (.error errno, core)) :
    (onSnapshot context).run state = (errno, { state with core }) := by
  unfold onSnapshot
  simp only [run_bind, onCore_run, ran, run_pure]

theorem onSnapshot_atomic (inv : CoreInv tight held state.core) (current : state.core.current = some pid)
    (running : (state.core.table pid).state = .running) {full : Phys} (fuller : Fuller state.core.phys full) (env : Env)
    (refused : ((onSnapshot context).run (state.having full env)).1 ∈ [eagain, enomem, einval]) :
    AsBefore (state.having full env) ((onSnapshot context).run (state.having full env)).2 := by
  have used : (state.core.table pid).state ≠ .empty := by rw [running]; decide
  have space : ∀ root, currentSpace state.core = some root → Space full root :=
    fun root isSpace => (inv.currentSpace_space current used isSpace).fuller fuller
  rcases ran : takeSnapshot context (state.having full env).core with ⟨result, after⟩
  cases result with
  | ok pair =>
    have value := (onSnapshot_run context (state.having full env)).1
    rw [ran] at value
    rw [value] at refused
    have positive : ∀ sid : Sid, ((sid.val : Int) + 1) ∉ [eagain, enomem, einval] := by decide
    exact absurd refused (positive pair.2)
  | error errno =>
    obtain ⟨-, phys, rfl, undone⟩ := takeSnapshot_failed True space ran
    rw [onSnapshot_failed ran]
    exact undone.asBefore fun owner root isRoot => (inv.heap.owned.spaces owner root isRoot).fuller fuller

theorem enqueueRestore_atomic (inv : CoreInv tight held state.core) {full : Phys} (fuller : Fuller state.core.phys full)
    (env : Env) {sid : Sid} (refused : ((onCore (enqueueRestore sid)).run (state.having full env)).1 = none) :
    AsBefore (state.having full env) ((onCore (enqueueRestore sid)).run (state.having full env)).2 := by
  have frozen : (state.core.snaps sid).valid = true →
      Space full (state.core.snaps sid).root ∧ Live full (state.core.snaps sid).frame :=
    fun valid => ⟨(inv.snap_owned valid).1.fuller fuller, fuller.live _ (inv.snap_owned valid).2⟩
  rw [onCore_run] at refused ⊢
  rcases ran : enqueueRestore sid (state.having full env).core with ⟨result, after⟩
  rw [ran] at refused
  obtain rfl : result = none := refused
  obtain ⟨phys, rfl, undone⟩ := enqueueRestore_failed True frozen ran
  exact undone.asBefore fun owner root isRoot => (inv.heap.owned.spaces owner root isRoot).fuller fuller

/-- Checkpoints are all or nothing: however few frames are left, a `sys_snapshot` of the
payload on the CPU or a restore that fails leaves the tables, the spaces and the frames in use
as they were, and says nothing. -/
theorem checkpoints_fail_atomically (reached : Reachable build anyStep config) {full : Phys}
    (fuller : Fuller config.state.core.phys full) (env : Env) :
    (∀ context frame, config.hart = .user context →
      ((onSnapshot frame).run ((noteUser config.state context).having full env)).1 ∈ [eagain, enomem, einval] →
        AsBefore ((noteUser config.state context).having full env)
          ((onSnapshot frame).run ((noteUser config.state context).having full env)).2) ∧
    ∀ sid, ((onCore (enqueueRestore sid)).run (config.state.having full env)).1 = none →
      AsBefore (config.state.having full env) ((onCore (enqueueRestore sid)).run (config.state.having full env)).2 := by
  refine ⟨fun context frame isHart refused => ?_, fun sid refused => enqueueRestore_atomic reached.coreInv fuller env refused⟩
  have inv := reached.systemInv
  rw [SystemInv, isHart] at inv
  obtain ⟨pid, there⟩ := inv
  have trapped := there.trapped
  have same : (noteUser config.state context).core.phys = config.state.core.phys := trapped.phys
  exact onSnapshot_atomic trapped.calm.core trapped.current trapped.running (same ▸ fuller) env refused

/-- Every frame taken. -/
def drained (phys : Phys) : Phys := { phys with bitmap := fun _ => true }

theorem fuller_drained (phys : Phys) : Fuller phys (drained phys) := ⟨rfl, fun _ live => ⟨live.1, rfl⟩⟩

theorem deepCopy_drained (phys : Phys) (root : Nat) : deepCopy (drained phys) root = (none, drained phys) := by
  have failed : (alloc (drained phys)).1 = none := (alloc_none_iff _).mpr fun _ frame => ⟨frame, rfl⟩
  rcases ran : alloc (drained phys) with ⟨result, after⟩
  rw [ran] at failed
  obtain rfl : result = none := failed
  simp only [deepCopy, newSpace, ran, alloc_none ran]

theorem onSnapshot_drained {phys : Phys} {env : Env} {sid : Sid} (current : state.core.current = some pid)
    (hasRoot : (state.core.table pid).root ≠ 0) (isFree : freeSnap state.core = some sid) :
    ((onSnapshot context).run (state.having (drained phys) env)).1 = enomem := by
  have isCurrent : (state.having (drained phys) env).core.current = some pid := current
  have space : currentSpace (state.having (drained phys) env).core = some (state.core.table pid).root := by
    simp [currentSpace, State.having, current, hasRoot]
  have free : freeSnap (state.having (drained phys) env).core = some sid := isFree
  have copies : deepCopy (state.having (drained phys) env).core.phys (state.core.table pid).root = (none, drained phys) :=
    deepCopy_drained phys _
  rw [(onSnapshot_run context _).1]
  simp only [takeSnapshot, isCurrent, space, free, copies, snapshotValue]

/-- A payload runs and there is room for a checkpoint. -/
def unspent : Script bareBuild anyMove (boot bareBuild) fun config =>
    ∃ context ∈ contextOf config.hart, (noteUser config.state context).core.current = some pid0 ∧
      ((noteUser config.state context).core.table pid0).root ≠ 0 ∧ (freeSnap (noteUser config.state context).core).isSome where
  moves := startSuite
  passes := by decide +kernel

theorem checkpoints_fail_atomically_drained : ∃ state state' : State,
    (∃ context, (onSnapshot context).run state = (enomem, state')) ∧ AsBefore state state' := by
  obtain ⟨context, isContext, current, hasRoot, room⟩ := unspent.tested
  obtain ⟨sid, isFree⟩ := Option.isSome_iff_exists.mp room
  have failed : ((onSnapshot context).run ((noteUser unspent.config.state context).having
      (drained unspent.config.state.core.phys) unspent.config.state.env)).1 = enomem := onSnapshot_drained current hasRoot isFree
  refine ⟨_, _, ⟨context, Prod.ext failed rfl⟩, (checkpoints_fail_atomically (unspent.reachable anyMove_sound)
    (fuller_drained _) unspent.config.state.env).1 context context (contextOf_user isContext) ?_⟩
  rw [failed]
  decide

/-- Nobody kills the payload or changes its budget. -/
def Spares (pid : Pid) (config next : Config) : Prop :=
  next.state.core.ledger.remedies.count pid = config.state.core.ledger.remedies.count pid ∧
    (next.state.core.table pid).state.terminal = false

/-- Reached with the hart in the kernel all the way, the payload being spared. -/
def Meanwhile (build : Build) (pid : Pid) : Config → Config → Prop :=
  Later build fun config next => UserPreempts config next ∧ Spares pid config next ∧ ∀ context, config.hart ≠ .user context

/-- The log has grown since, but by no announcement of this payload's start. -/
def Unannounced (pid : Pid) (log : List Entry) (state : State) : Prop :=
  ∃ more, state.env.log = log ++ more ∧ ∀ entry ∈ more, entry.what.startOf ≠ some pid

/-- Where a payload can be that a tick took off the CPU, leaving this slot: still there, on
its way back, or back. -/
inductive Awaits (pid : Pid) (slot : Slot) (config : Config) : Prop
  | waiting (inKernel : ∀ context, config.hart ≠ .user context) (here : config.state.core.table pid = slot)
  | launched (launch : Launch) (silent : launch.announced = false)
      (hart : config.hart = .kernel (.pure (.launch launch)) ∨
        config.hart = .kernel (.pure (.resumeUser launch.satp launch.frame)))
      (current : config.state.core.current = some pid)
      (here : config.state.core.table pid = { slot with preempted := false, state := .running })
  | back (hart : config.hart = .user slot.lastUser) (current : config.state.core.current = some pid)
      (here : config.state.core.table pid = { slot with preempted := false, state := .running, entered := true })
      (memory : Sv39.view config.state.core.phys.mem (config.state.core.table pid).root = slot.lastMemory)

/-- One payload at most is on the CPU or was taken off it by a tick. -/
theorem Table.engaged_unique {core : Core} {other : Pid} (table : Table core) (engaged : (core.table pid).engaged = true)
    (engaged' : (core.table other).engaged = true) : pid = other := by
  have done : ∀ {first second : Pid}, (core.table first).engaged = true → (core.table second).engaged = true →
      ¬ first < second := by
    intro first second isFirst isSecond below
    have ended := table.order second first isSecond below
    cases isState : (core.table first).state <;> simp_all [Slot.engaged, ProcState.terminal]
  rcases Nat.lt_trichotomy pid other with below | same | above
  · exact absurd below (done engaged engaged')
  · exact Fin.ext same
  · exact absurd above (done engaged' engaged)

theorem Moves.unannounced {log : List Entry} {state' : State} (moves : Moves state state') (quiet : Unannounced pid log state) :
    Unannounced pid log state' := by
  obtain ⟨more, isLog, others⟩ := quiet
  obtain ⟨later, grown, follows⟩ := moves.log
  refine ⟨more ++ later, by rw [grown, isLog, List.append_assoc], fun entry member => ?_⟩
  rcases List.mem_append.mp member with old | new
  · exact others entry old
  · rw [(follows entry new).plain.1]
    exact nofun

theorem Moves.waits {slot : Slot} (moves : Moves config.state next.state) (spared : Spares pid config next)
    (pending : slot.state = .pending) (preempted : slot.preempted = true) (here : config.state.core.table pid = slot) :
    next.state.core.table pid = slot := by
  rcases moves.core.waiting pid (here ▸ pending) (here ▸ preempted) with same | named
  · exact same.trans here
  · exact absurd spared.1 (Nat.ne_of_gt named)

section
variable {slot : Slot} {log : List Entry}

/-- The payload a tick took off the CPU is the first the scheduler finds. -/
theorem Startable.preempted_first {core : Core} {other : Pid} (startable : Startable core other) (table : Table core)
    (pending : (core.table pid).state = .pending) (preempted : (core.table pid).preempted = true) : other = pid := by
  have engaged : (core.table pid).engaged = true := by simp [Slot.engaged, pending, preempted]
  rcases Nat.lt_trichotomy other pid with below | same | above
  · have ended := table.order pid other engaged below
    rw [startable.pending] at ended
    cases ended
  · exact Fin.ext same
  · have ended := startable.lower pid above
    rw [pending] at ended
    cases ended

/-- The start of a payload that a tick took off the CPU: nothing of it changes, and nothing
is to be announced. -/
theorem begun_launched (inv : SystemInv build False True next) {rest : Kernel Next} (hart : next.hart = .kernel rest)
    (enabled : next.state.env.sie = true) {launch : Launch} {core : Core}
    (begun : Begun tight held pid core launch next.state.core) (preempted : (core.table pid).preempted = true)
    (here : core.table pid = slot) : Awaits pid slot next := by
  rw [SystemInv, hart] at inv
  have current : next.state.core.current = some pid := begun.isPid ▸ begun.launched.current
  rcases Phase.awake inv enabled with nobody | ⟨launch', window, pause, -⟩
  · rw [current] at nobody
    cases nobody
  have silent : launch'.announced = false := by
    rw [window.launched.announced (notHeld _ _), begun.silent, preempted]
    rfl
  refine .launched launch' silent ?_ current (here ▸ begun.preempted preempted)
  rw [hart]
  cases pause with
  | handed => exact .inl rfl
  | entered => exact .inr (congrArg Hart.kernel (launch_silent silent))
  | spoken => exact .inr rfl

theorem waiting_step (inv : SystemInv build False True config) (inv' : SystemInv build False True next)
    (shift : Shift build False (heldIn True config.interrupted) config next) (spared : Spares pid config next)
    (inKernel : ∀ context, config.hart ≠ .user context) (pending : slot.state = .pending) (preempted : slot.preempted = true)
    (here : config.state.core.table pid = slot) (quiet : Unannounced pid log config.state) :
    Awaits pid slot next ∧ Unannounced pid log next.state := by
  have table := (Stands.inv inv).core.table
  have isPending : (config.state.core.table pid).state = .pending := here ▸ pending
  have isPreempted : (config.state.core.table pid).preempted = true := here ▸ preempted
  -- nobody else can be running meanwhile
  have alone : ∀ other, (config.state.core.table other).state ≠ .running := by
    intro other running
    have engaged : (config.state.core.table pid).engaged = true := by simp [Slot.engaged, isPending, isPreempted]
    have engaged' : (config.state.core.table other).engaged = true := by simp [Slot.engaged, running]
    rw [table.engaged_unique engaged' engaged, isPending] at running
    cases running
  cases shift with
  | still same current moves unnamed proceeds =>
    refine ⟨.waiting (fun context isUser => ?_) (moves.waits spared pending preempted here), moves.unannounced quiet⟩
    rw [isUser] at proceeds
    generalize config.hart = hart at proceeds inKernel
    cases proceeds with
    | same => exact inKernel context rfl
    | computes before => exact inKernel before rfl
  | acts update rest hart hart' transits =>
    have stays : ∀ context, next.hart ≠ .user context := by
      intro context isUser
      rw [hart'] at isUser
      cases isUser
    cases transits with
    | moves moves unnamed idle => exact ⟨.waiting stays (moves.waits spared pending preempted here), moves.unannounced quiet⟩
    | seeds quiescent reseeded log =>
      have idle := quiescent pid
      rw [isPending] at idle
      cases idle
    | starts other launch startable begun enabled isLog =>
      cases startable.preempted_first table isPending isPreempted
      refine ⟨begun_launched inv' hart' enabled begun isPreempted here, ?_⟩
      rw [Unannounced, isLog]
      exact quiet
    | anchors other serial current running spoken unanchored core log => exact absurd running (alone other)
    | announces other what current running spoken core log start => exact absurd running (alone other)
    | reports other what terminal core isLog isEnd cause =>
      refine ⟨.waiting stays (by rw [core]; exact here), ?_⟩
      obtain ⟨more, grown, others⟩ := quiet
      refine ⟨more ++ [stamp config.state.core what], by rw [isLog, grown, List.append_assoc], fun entry member => ?_⟩
      rcases List.mem_append.mp member with old | new
      · exact others entry old
      · rw [List.mem_singleton.mp new, show (stamp config.state.core what).what.startOf = none from
          (Emission.plain_of_end isEnd).1]
        simp
  | expels other program hart hart' enabled current left moves gone =>
    refine ⟨.waiting (fun context isUser => ?_) (moves.waits spared pending preempted here), moves.unannounced quiet⟩
    rw [hart'] at isUser
    cases isUser
  | returns program rest hart hart' isHeld changed log =>
    obtain ⟨_, _, _, isHeld⟩ := isHeld
    exact absurd isHeld (notHeld _ _ _ _)
  | enters other program hart enters spoken =>
    refine absurd ?_ (alone other)
    have running := enters.there.running
    rw [enters.here] at running
    exact running
  | traps other context hart there moves => exact absurd hart (inKernel context)
  | stores other context hart there va pa byte allowed written => exact absurd hart (inKernel context)

theorem launched_step (inv : SystemInv build False True config)
    (shift : Shift build False (heldIn True config.interrupted) config next) (preempts : UserPreempts config next)
    (spared : Spares pid config next) {launch : Launch} (silent : launch.announced = false)
    (isHart : config.hart = .kernel (.pure (.launch launch)) ∨
      config.hart = .kernel (.pure (.resumeUser launch.satp launch.frame)))
    (current : config.state.core.current = some pid)
    (here : config.state.core.table pid = { slot with preempted := false, state := .running })
    (quiet : Unannounced pid log config.state) : Awaits pid slot next ∧ Unannounced pid log next.state := by
  obtain ⟨handed, pure, enabled⟩ : ∃ handed, config.hart = .kernel (.pure handed) ∧ config.state.env.sie = true := by
    rw [SystemInv] at inv
    rcases isHart with isHart | isHart <;> rw [isHart] at inv
    · exact ⟨_, isHart, (Phase.at_pure inv).1.enabled⟩
    · obtain ⟨other, -, -, window, -⟩ := Phase.at_pure inv
      exact ⟨_, isHart, window.enabled⟩
  cases shift with
  | still same isCurrent moves unnamed proceeds =>
    refine ⟨.launched launch silent ?_ (isCurrent.trans current) (by rw [same.table]; exact here), moves.unannounced quiet⟩
    rcases isHart with isHart | isHart <;> rw [isHart] at proceeds <;> generalize next.hart = hart at proceeds <;>
      cases proceeds with
      | same => first | exact .inl rfl | exact .inr rfl
      | enters _ stays => first | exact .inr (congrArg Hart.kernel (launch_silent silent)) | cases stays
      | stops _ isLast => rcases isLast with isLast | isLast <;> cases isLast
  | acts update rest hart hart' transits =>
    rw [pure] at hart
    cases hart
  | expels other program hart hart' enabled isCurrent left moves gone =>
    cases Option.some.inj (current.symm.trans isCurrent)
    rcases gone with waits | ended
    · exact absurd waits (preempts program pid hart enabled current)
    · rw [spared.2] at ended
      cases ended
  | returns program rest hart hart' isHeld changed log =>
    obtain ⟨_, _, _, isHeld⟩ := isHeld
    exact absurd isHeld (notHeld _ _ _ _)
  | enters other program hart enters spoken =>
    have isCurrent := enters.current.trans current
    cases Option.some.inj (enters.there.current.symm.trans isCurrent)
    have lastUser : (config.state.core.table pid).lastUser = slot.lastUser := by rw [here]
    have lastMemory : (config.state.core.table pid).lastMemory = slot.lastMemory := by rw [here]
    refine ⟨.back (lastUser ▸ enters.isUser) isCurrent ?_ (enters.memory.trans lastMemory), ?_⟩
    · rw [enters.here, here]
    · rw [Unannounced, enters.log]
      exact quiet
  | traps other context hart there moves =>
    rw [pure] at hart
    cases hart
  | stores other context hart there va pa byte allowed written =>
    rw [pure] at hart
    cases hart

/-- Until the hart is in U-mode again, the payload waits or is on its way back. -/
theorem Meanwhile.awaits (reached : Reachable build UserPreempts config) (later : Meanwhile build pid config next)
    (pending : slot.state = .pending) (preempted : slot.preempted = true) (awaits : Awaits pid slot config)
    (quiet : Unannounced pid log config.state) :
    Reachable build UserPreempts next ∧ Awaits pid slot next ∧ Unannounced pid log next.state := by
  induction later with
  | refl => exact ⟨reached, awaits, quiet⟩
  | @tail config next _ taken ih =>
    obtain ⟨step, preempts, spared, inKernel⟩ := taken
    obtain ⟨reached, awaits, quiet⟩ := ih
    obtain ⟨inv', shift⟩ := step.preserves False.elim reached.userOnly False.elim fun _ => preempts
    refine ⟨.step reached step preempts, ?_⟩
    cases awaits with
    | waiting _ here => exact waiting_step reached.userOnly inv' shift spared inKernel pending preempted here quiet
    | launched launch silent hart current here =>
      exact launched_step reached.userOnly shift preempts spared silent hart current here quiet
    | back hart _ _ _ => exact absurd hart (inKernel _)

end

/-- A tick in U-mode that preempts keeps the context and the memory it found. -/
theorem preempting_tick (there : UserAt tight held pid context config.state)
    (preempted : ((userTrap build config context Text.causeSTimer 0).state.core.table pid).state = .pending) :
    (userTrap build config context Text.causeSTimer 0).hart = .kernel (Main.code build .run) ∧
      (userTrap build config context Text.causeSTimer 0).state.core.table pid = preemptedSlot
        (relived (config.state.core.table pid) context (Sv39.view config.state.core.phys.mem (config.state.core.table pid).root)) ∧
      Unannounced pid config.state.env.log (userTrap build config context Text.causeSTimer 0).state := by
  have trapped := there.trapped
  obtain ⟨frame, state', ran, ticked⟩ := handle_tick build trapped.calm trapped.current context
  have taken : userTrap build config context Text.causeSTimer 0 =
      trapReturn build { config with state := noteUser config.state context } frame state' (.pure .run) := trap_returns ran
  rw [taken] at preempted ⊢
  cases ticked with
  | returned same passes =>
    rw [same, trapReturn_user there.user] at preempted
    have running := (congrArg Slot.state (passes.slot pid)).trans trapped.running
    exact absurd (running.symm.trans preempted) nofun
  | ended redirect exits done =>
    rw [trapReturn_redirect redirect] at preempted
    have ended : (state'.core.table pid).state.terminal = false := by
      rw [show (state'.core.table pid).state = .pending from preempted]
      rfl
    rw [ended] at done
    cases done
  | preempted redirect isCurrent running slot sound =>
    obtain ⟨memory, interruptible⟩ := trapped.interruptible there.user
    rw [trapReturn_redirect redirect]
    refine ⟨rfl, slot.trans (congrArg preemptedSlot trapped.here), ?_⟩
    have before : Unannounced pid config.state.env.log (setSie (noteUser config.state context) false) :=
      ⟨[], by rw [trapped.log, List.append_nil], nofun⟩
    exact ((sound memory interruptible).moves.trans (.setSie _ true)).unannounced before

/-- Preemption transparency: a payload that a tick in U-mode took off the CPU is the next to
be in U-mode, with the registers, the memory and the slot it had, and without another start. -/
theorem preemption_transparent {last : Config} {context' : TrapFrame} (reached : Reachable build UserPreempts config)
    (isHart : config.hart = .user context) (current : config.state.core.current = some pid)
    (preempted : ((userTrap build config context Text.causeSTimer 0).state.core.table pid).state = .pending)
    (later : Meanwhile build pid (userTrap build config context Text.causeSTimer 0) last) (resumed : last.hart = .user context') :
    last.state.core.current = some pid ∧ context' = context ∧
      Sv39.view last.state.core.phys.mem (last.state.core.table pid).root =
        Sv39.view config.state.core.phys.mem (config.state.core.table pid).root ∧
      (last.state.core.table pid).caps = (config.state.core.table pid).caps ∧
      (last.state.core.table pid).parent = (config.state.core.table pid).parent ∧
      (last.state.core.table pid).startedAt = (config.state.core.table pid).startedAt ∧
      (last.state.core.table pid).deadline = (config.state.core.table pid).deadline ∧
      (last.state.core.table pid).startEvent = (config.state.core.table pid).startEvent ∧
      Unannounced pid config.state.env.log last.state := by
  have inv := reached.userOnly
  rw [SystemInv, isHart] at inv
  obtain ⟨other, there⟩ := inv
  cases Option.some.inj (there.current.symm.trans current)
  obtain ⟨hart, here, quiet⟩ := preempting_tick there preempted
  have inKernel : ∀ context'', (userTrap build config context Text.causeSTimer 0).hart ≠ .user context'' := by
    rw [hart]
    simp
  have userOnly : UserPreempts config (userTrap build config context Text.causeSTimer 0) := by
    intro program _ kernel
    rw [isHart] at kernel
    cases kernel
  have waiting : Awaits pid _ (userTrap build config context Text.causeSTimer 0) := .waiting inKernel here
  obtain ⟨-, awaits, quiet'⟩ := later.awaits (.step reached (.userTick isHart) userOnly) rfl rfl waiting quiet
  cases awaits with
  | waiting inKernel => exact absurd resumed (inKernel _)
  | launched launch silent hart =>
    rw [resumed] at hart
    rcases hart with hart | hart <;> cases hart
  | back hart isCurrent here memory =>
    rw [hart] at resumed
    refine ⟨isCurrent, (Hart.user.inj resumed).symm, memory, ?_, ?_, ?_, ?_, ?_, quiet'⟩ <;> rw [here] <;> rfl

/-- A byte has arrived for the next tick to find. -/
def interruptible : Script bareBuild preemptsNobody (boot bareBuild) fun config =>
    config.state.core.current = some pid0 ∧ ∃ context ∈ contextOf config.hart,
      ((userTrap bareBuild config context Text.causeSTimer 0).state.core.table pid0).state = .pending where
  moves := startSuite ++ [.receive 0x41]
  passes := by decide +kernel

def interruptedContext : TrapFrame := (contextOf interruptible.config.hart).getD .blank

def meanwhile (pid : Pid) (config next : Config) : Bool :=
  preemptsNobody config next && next.state.core.ledger.remedies.count pid == config.state.core.ledger.remedies.count pid &&
    !(next.state.core.table pid).state.terminal && (contextOf config.hart).isNone

theorem meanwhile_sound (config next : Config) (fine : meanwhile pid config next = true) :
    UserPreempts config next ∧ Spares pid config next ∧ ∀ context, config.hart ≠ .user context := by
  simp only [meanwhile, Bool.and_eq_true, beq_iff_eq, Bool.not_eq_true'] at fine
  obtain ⟨⟨⟨nobody, count⟩, lives⟩, inKernel⟩ := fine
  refine ⟨preemptsNobody_sound _ _ nobody, ⟨count, lives⟩, fun context isHart => ?_⟩
  rw [isHart] at inKernel
  cases inKernel

/-- It is served, and the payload goes on. -/
def resumption : Script bareBuild (meanwhile pid0) (userTrap bareBuild interruptible.config interruptedContext Text.causeSTimer 0)
    fun config => (contextOf config.hart).isSome where
  moves := handOvers 5 ++ [.enter]
  passes := by decide +kernel

theorem preemption_transparent_served : resumption.config.hart = .user interruptedContext := by
  obtain ⟨current, context, isContext, pending⟩ := interruptible.tested
  have isInterrupted : interruptedContext = context := by rw [interruptedContext, isContext, Option.getD_some]
  obtain ⟨context', resumed⟩ := Option.isSome_iff_exists.mp resumption.tested
  have isHart := contextOf_user resumed
  rw [isHart, (preemption_transparent (interruptible.reachable preemptsNobody_sound) (contextOf_user (isInterrupted ▸ isContext))
    current (isInterrupted ▸ pending) (resumption.later meanwhile_sound) isHart).2.1]

end Kernai
