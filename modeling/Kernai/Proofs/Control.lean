import Kernai.Proofs.Scheduler

/-! The control plane: requests and commands served while nobody is current. -/

namespace Kernai
open Foundation Program Kernel Payload Rpc

variable {tight : Prop} {held : Held} {build : Build} {core core' : Core} {state state' : State} {pid : Pid} {α : Type}
  {P : Core → Prop} {next : Next}

/-- What a request may find and must leave: a fact about the core that the verbs
of the operator do not disturb. -/
structure Robust (P : Core → Prop) : Prop where
  same : ∀ core core', SameCore core core' → core'.current = core.current → P core → P core'
  killed : ∀ core pid, P core → (core.table pid).state = .pending → P (noteRemedy (setState core pid .killed) pid)
  budget : ∀ core pid units, P core → (core.table pid).state = .pending →
    P (noteRemedy (setSlot core pid fun slot => { slot with deadline := units }) pid)
  kernel : ∀ core, P core → OnKernel core

theorem robust_service : Robust OnKernel where
  same core core' same _ onKernel := by
    unfold OnKernel kernelSatp at *
    rw [same.phys, same.kernelRoot]
    exact onKernel
  killed _ _ onKernel _ := onKernel
  budget _ _ _ onKernel _ := onKernel
  kernel _ onKernel := onKernel

theorem Quiescent.not_pending (quiescent : Quiescent core) (pid : Pid) : (core.table pid).state ≠ .pending := by
  intro pending
  have idle := quiescent pid
  rw [pending] at idle
  cases idle

theorem robust_idle : Robust (Due .idle) where
  same core core' same current due := by
    obtain ⟨quiescent, onKernel, reaped⟩ := due
    refine ⟨?_, robust_service.same core core' same current onKernel, ?_⟩
    · unfold Quiescent
      rw [same.table]
      exact quiescent
    · unfold Reaped
      rw [same.table]
      exact reaped
  killed core pid due pending := absurd pending (due.1.not_pending pid)
  budget core pid _ due pending := absurd pending (due.1.not_pending pid)
  kernel _ due := due.2.1

/-- A hand-over while nobody is current. -/
def Payload.Next.idleHands : Next → Bool
  | .launch _ | .resumeUser _ _ => false
  | _ => true

theorem ready_of_due {next : Next} (idle : next.idleHands = true) (due : steadily tight held (Due next) state) :
    Ready tight held next state := by
  cases next <;> first | exact due | cases idle

/-- How a handler ends: back at its caller, or where it went. -/
def Served (tight : Prop) (held : Held) (P : Core → Prop) : Option Next → State → Prop
  | none, state => steadily tight held P state
  | some next, state => steadily tight held (Due next) state ∧ next.idleHands = true

theorem note_runs (robust : Robust P) (entry : Note) :
    Runs (kernelRules tight held) (steadily tight held P) (note entry) (fun _ => steadily tight held P) := by
  unfold note modifyCore
  exact sameCore_runs (fun _ => ⟨⟨rfl, rfl, rfl, rfl, rfl⟩, rfl⟩) fun core holds =>
    robust.same core _ ⟨rfl, rfl, rfl, rfl, rfl⟩ rfl holds

theorem getcFrom_runs (waits : Nat) :
    Runs (kernelRules tight held) (steadily tight held P) (getcFrom waits) (fun _ => steadily tight held P) := by
  induction waits with
  | zero => exact consoleGetchar_runs
  | succ waits ih =>
    refine consoleGetchar_runs.bind fun got => ?_
    cases got with
    | none => exact ih
    | some byte => exact .pure fun _ holds => holds

theorem getcStall_runs (robust : Robust P) :
    Runs (kernelRules tight held) (steadily tight held P) getcStall (fun _ => steadily tight held P) := by
  refine (getcFrom_runs maxStallWaits).bind fun got => ?_
  cases got with
  | none => exact (note_runs robust _).bind fun _ => .pure fun _ holds => holds
  | some byte => exact (note_runs robust _).bind fun _ => .pure fun _ holds => holds

theorem readExactly_runs (robust : Robust P) (count : Nat) :
    Runs (kernelRules tight held) (steadily tight held P) (readExactly count) (fun _ => steadily tight held P) := by
  induction count with
  | zero => exact .pure fun _ holds => holds
  | succ count ih =>
    refine (getcStall_runs robust).bind fun got => ?_
    cases got with
    | none => exact .pure fun _ holds => holds
    | some byte =>
      refine ih.bind fun rest => ?_
      cases rest with
      | none => exact .pure fun _ holds => holds
      | some rest => exact .pure fun _ holds => holds

theorem readBody_runs (robust : Robust P) :
    Runs (kernelRules tight held) (steadily tight held P) readBody (fun _ => steadily tight held P) := by
  refine (getcStall_runs robust).bind fun second => ?_
  split
  · refine (readExactly_runs robust 4).bind fun lenb => ?_
    cases lenb with
    | none => exact .pure fun _ holds => holds
    | some lenb =>
      dsimp only
      split
      · exact .pure fun _ holds => holds
      · refine (readExactly_runs robust _).bind fun json => ?_
        cases json with
        | none => exact .pure fun _ holds => holds
        | some json => exact .pure fun _ holds => holds
  · exact .pure fun _ holds => holds

/-- The event `emit_rpc` sends: the response, or the fixed error if it is too large. -/
def answer (request : RpcId) (reply : State → Reply) (serial : Nat) (state : State) : Event :=
  if ((Event.rpc request (reply state)).frameBuf (idOf serial)).overflow then .rpcTooLarge else .rpc request (reply state)

theorem emitRpc_eq (request : RpcId) (reply : State → Reply) :
    emitRpc request reply = withoutInterrupts (do
      let serial ← nextId
      let event ← Program.read (answer request reply serial)
      send serial event) := by
  unfold emitRpc
  congr 1
  refine bind_congr fun serial => ?_
  refine congrArg (Program.act id) (funext fun state => ?_)
  change (if _ then send serial .rpcTooLarge else send serial _) = send serial (answer request reply serial state)
  unfold answer
  split <;> rfl

theorem emitRpc_run (request : RpcId) (reply : State → Reply) (state : State) : (emitRpc request reply).run state =
    ((), reported (answer request reply state.env.serial (numbered state)) state) := by
  rw [emitRpc_eq]
  refine emitted_run (answer request reply) ?_
  unfold answer
  split
  · exact rpcTooLarge_fits state.env.serial
  · next fits => exact Bool.eq_false_iff.mpr fits

theorem emitRpc_runs (request : RpcId) (reply : State → Reply) :
    Runs (kernelRules tight held) (steadily tight held P) (emitRpc request reply) (fun _ => steadily tight held P) := by
  rw [emitRpc_eq]
  refine numbered_plain fun serial seen => ?_
  unfold answer
  split <;> exact ⟨rfl, rfl, rfl, fun _ => ⟨trivial, trivial, trivial⟩⟩

theorem respondResult_runs (request : RpcId) (result : State → Result) :
    Runs (kernelRules tight held) (steadily tight held P) (respondResult request result) (Served tight held P) :=
  (emitRpc_runs request _).bind fun _ => .pure fun _ holds => holds

theorem respondError_runs (request : RpcId) (code : Int) (message : String) :
    Runs (kernelRules tight held) (steadily tight held P) (respondError request code message) (Served tight held P) :=
  (emitRpc_runs request _).bind fun _ => .pure fun _ holds => holds

/-- A response after which the handler goes elsewhere. -/
theorem respondThen_runs {request : RpcId} {result : State → Result} {next : Option Next} {post : Option Next → State → Prop}
    (leads : ∀ state, steadily tight held P state → post next state) :
    Runs (kernelRules tight held) (steadily tight held P)
      (do let _ ← respondResult request result; return next) post := by
  unfold respondResult
  rw [bind_assoc]
  exact (emitRpc_runs request _).bind fun _ => .pure leads

theorem respondDuplicate_runs (robust : Robust P) (request : RpcId) (op : Option Bytes) :
    Runs (kernelRules tight held) (steadily tight held P) (respondDuplicate request op) (Served tight held P) :=
  (note_runs robust _).bind fun _ => respondResult_runs request _

theorem opSeen_same (op : Option Bytes) (core : Core) :
    SameCore core (opSeen op core).2 ∧ (opSeen op core).2.current = core.current := by
  cases op with
  | none => exact ⟨.refl _, rfl⟩
  | some op =>
    dsimp only [opSeen]
    split
    · exact ⟨.refl _, rfl⟩
    · exact ⟨⟨rfl, rfl, rfl, rfl, rfl⟩, rfl⟩

theorem opSeen_runs (robust : Robust P) (op : Option Bytes) :
    Runs (kernelRules tight held) (steadily tight held P) (onCore (opSeen op)) (fun _ => steadily tight held P) :=
  sameCore_runs (opSeen_same op) fun core holds =>
    robust.same core _ (opSeen_same op core).1 (opSeen_same op core).2 holds

theorem quiescent_of_not_anyAlive (idle : anyAlive core = false) : Quiescent core := by
  intro pid
  have each := List.any_eq_false.mp idle pid (List.mem_finRange pid)
  exact Bool.not_eq_true _ ▸ each

/-- With nobody alive the verbs of the operator find nothing to change. -/
theorem Robust.quiet (robust : Robust P) : Robust fun core => P core ∧ Quiescent core where
  same core core' same current := by
    rintro ⟨holds, quiescent⟩
    refine ⟨robust.same core core' same current holds, ?_⟩
    unfold Quiescent
    rw [same.table]
    exact quiescent
  killed core pid holds pending := absurd pending (holds.2.not_pending pid)
  budget core pid _ holds pending := absurd pending (holds.2.not_pending pid)
  kernel core holds := robust.kernel core holds.1

theorem anyAlive_runs {first second : Kernel (Option Next)} {post : Option Next → State → Prop}
    (busy : Runs (kernelRules tight held) (steadily tight held P) first post)
    (idle : Runs (kernelRules tight held) (steadily tight held fun core => P core ∧ Quiescent core) second post) :
    Runs (kernelRules tight held) (steadily tight held P)
      (do if ← readCore anyAlive then first else second) post := by
  refine (readCore_runs anyAlive).bind fun alive => ?_
  cases alive with
  | true => exact busy.strengthen fun _ ⟨steady, holds, _⟩ => ⟨steady, holds⟩
  | false => exact idle.strengthen fun _ ⟨steady, holds, isIdle⟩ => ⟨steady, holds, quiescent_of_not_anyAlive isIdle.symm⟩

theorem Served.weaken {Q : Core → Prop} (implies : ∀ core, Q core → P core) (result : Option Next) (state : State)
    (served : Served tight held Q result state) : Served tight held P result state := by
  cases result with
  | none => exact ⟨served.1, implies _ served.2⟩
  | some next => exact served

/-- A verb that may only be used once per `opId`. -/
theorem onceOnly_runs (robust : Robust P) (request : RpcId) (op : Option Bytes) {fresh : Kernel (Option Next)}
    (proceeds : Runs (kernelRules tight held) (steadily tight held P) fresh (Served tight held P)) :
    Runs (kernelRules tight held) (steadily tight held P)
      (do if ← onCore (opSeen op) then respondDuplicate request op else fresh) (Served tight held P) := by
  refine (opSeen_runs robust op).bind fun seen => ?_
  split
  · exact respondDuplicate_runs robust request op
  · exact proceeds

theorem runSuite_runs (robust : Robust P) (request : RpcId) (op : Option Bytes) (params : Bytes) :
    Runs (kernelRules tight held) (steadily tight held P) (runSuite build request op params) (Served tight held P) := by
  unfold runSuite
  dsimp only
  split
  · exact respondError_runs request _ _
  · refine anyAlive_runs (respondError_runs request _ _) ?_
    refine (onceOnly_runs robust.quiet request op ?_).weaken (Served.weaken fun _ => And.left)
    refine (note_runs robust.quiet _).bind fun _ => respondThen_runs fun _ ⟨steady, holds, quiescent⟩ => ?_
    exact ⟨⟨steady, quiescent, robust.kernel _ holds⟩, rfl⟩

theorem crash_runs (robust : Robust P) (request : RpcId) (op : Option Bytes) :
    Runs (kernelRules tight held) (steadily tight held P) (crash request op) (Served tight held P) := by
  unfold crash
  refine anyAlive_runs (respondError_runs request _ _) ?_
  refine (onceOnly_runs robust.quiet request op ?_).weaken (Served.weaken fun _ => And.left)
  exact (note_runs robust.quiet _).bind fun _ => respondThen_runs fun _ ⟨steady, _⟩ => ⟨⟨steady, trivial⟩, rfl⟩

/-- Time is read without anyone noticing. -/
theorem readTime_runs :
    Runs (kernelRules tight held) (steadily tight held P) (readTime build) (fun _ => steadily tight held P) :=
  onEnv_runs (fun _ => rfl) (fun _ => rfl) (fun _ => rfl) fun _ => Nat.le_refl _

theorem elapsedSince_runs (started : Nat) :
    Runs (kernelRules tight held) (steadily tight held P) (elapsedSince build started) (fun _ => steadily tight held P) := by
  unfold elapsedSince
  split
  · exact .pure fun _ holds => holds
  · exact readTime_runs.bind fun _ => .pure fun _ holds => holds

theorem muted_runs {base : State} (calm : Calm tight held base) (masked : base.env.sie = false) {action : State → α × State}
    (quiet : ∀ state, Emits state (action state).2 [] ∧ (action state).2.env.serial = state.env.serial) :
    Runs (kernelRules tight held) (Muted base) (Program.modifyGet action) (fun _ => Muted base) := by
  refine Runs.modifyGet fun state ⟨muted, serial⟩ => ?_
  obtain ⟨emits, same⟩ := quiet state
  have still := muted.trans emits
  have unlogged : (action state).2.env.log = state.env.log := by rw [emits.logs.log, List.append_nil]
  refine ⟨(muted.told calm masked).calm.inv.valid (muted.sie.trans masked), ?_, ?_⟩
  · exact .of_env emits.core unlogged
  · exact always_masked (still.sie.trans masked) fun rx => ⟨still.receive rx, same.trans serial⟩

theorem elapsedSince_muted {base : State} (calm : Calm tight held base) (masked : base.env.sie = false) (started : Nat) :
    Runs (kernelRules tight held) (Muted base) (elapsedSince build started) (fun _ => Muted base) := by
  unfold elapsedSince
  split
  · exact .pure fun _ holds => holds
  · exact (muted_runs calm masked fun state => ⟨readTime_emits build state, rfl⟩).bind fun _ => .pure fun _ holds => holds

theorem emitKilledOperator_runs :
    Runs (kernelRules tight held) (fun state => Steady tight held state ∧ P state.core ∧ Owed pid state)
      (emitKilledOperator build pid) (fun _ => steadily tight held P) := by
  refine withoutInterrupts_runs fun start steady ⟨holds, owed⟩ => ?_
  have calm := steady.mask
  have look : ∀ {β : Type} (view : Core → β),
      Runs (kernelRules tight held) (Muted (Machine.setSie start false)) (readCore view) (fun _ => Muted (Machine.setSie start false)) :=
    fun view => muted_runs calm rfl fun state => ⟨.refl state, rfl⟩
  refine (look _).bind fun started => (elapsedSince_muted calm rfl started).bind fun elapsed =>
    (nextId_runs calm rfl).bind fun serial => ?_
  intro _ always state interferes
  obtain ⟨quiet, isSerial, counted⟩ := always state interferes
  refine ⟨(quiet.told calm rfl).calm.inv.valid quiet.sie, .of_env rfl rfl, ?_⟩
  have sound : (stamp (Machine.setSie start false).core
      (.frame serial (.killedOperator pid elapsed (state.core.table pid).startEvent.toNat))).Sound :=
    ⟨trivial, trivial, by rw [quiet.core]; rfl⟩
  have cause : (Event.killedOperator pid elapsed (state.core.table pid).startEvent.toNat).causedBy ≠ some 0 := by
    simp only [Event.causedBy]
    split
    · exact nofun
    · next known => exact fun zero => known (Option.some.inj zero)
  have sent := send_runs calm rfl (steady.calm.log.report sound rfl rfl owed.unreported owed.terminal)
    (permits_report rfl owed.terminal cause) state (always_masked quiet.sie fun rx => ⟨quiet.receive rx, isSerial, counted⟩)
  exact sent.weaken fun _ _ ⟨told, _⟩ => ⟨told, told.core ▸ holds⟩

theorem pendingPid_ok {named : Nat} (found : pendingPid core named = .ok pid) : (core.table pid).state = .pending := by
  unfold pendingPid at found
  split at found
  · split at found
    · cases found
    · next pending =>
      cases found
      exact not_not.mp pending
  · cases found

theorem remedies_grow (remedies : List Pid) (pid other : Pid) : remedies.count other ≤ (remedies ++ [pid]).count other := by
  rw [List.count_append]
  exact Nat.le_add_right _ _

theorem remedies_named (remedies : List Pid) (pid : Pid) : remedies.count pid < (remedies ++ [pid]).count pid := by
  rw [List.count_append, List.count_singleton_self]
  exact Nat.lt_succ_self _

/-- `kill_pid` marks the payload; its end is still to be reported. -/
theorem CoreInv.kill (inv : CoreInv tight held core) (pending : (core.table pid).state = .pending) :
    CoreInv tight held (noteRemedy (setState core pid .killed) pid) ∧
      Evolves core (noteRemedy (setState core pid .killed) pid) := by
  have one : OneSlot core (noteRemedy (setState core pid .killed) pid) pid :=
    ⟨rfl, rfl, rfl, rfl, rfl, rfl, fun other different =>
      setSlot_other core (fun slot => { slot with state := .killed }) different⟩
  have here : (noteRemedy (setState core pid .killed) pid).table pid = { core.table pid with state := .killed } :=
    setSlot_self core pid fun slot => { slot with state := .killed }
  have used : (core.table pid).state ≠ .empty := by rw [pending]; decide
  have killed : ProcState.killed ≠ .empty := nofun
  have touched : SlotTouched (core.table pid) ((noteRemedy (setState core pid .killed) pid).table pid) :=
    here ▸ touched_state (core.table pid) used killed _
  refine ⟨inv.ends one touched (by rw [here]; rfl) rfl (.inl rfl), one.evolves touched (by rw [here]) (fun ended => ?_)
    (fun alive => ?_) (remedies_grow _ pid) fun _ _ => remedies_named _ pid⟩
  · rw [pending] at ended
    cases ended
  · rw [here] at alive
    cases alive

/-- `set_deadline` touches the budget alone. -/
theorem CoreInv.budget (inv : CoreInv tight held core) (pid : Pid) (units : Nat) :
    CoreInv tight held (noteRemedy (setSlot core pid fun slot => { slot with deadline := units }) pid) ∧
      Evolves core (noteRemedy (setSlot core pid fun slot => { slot with deadline := units }) pid) := by
  have one : OneSlot core (noteRemedy (setSlot core pid fun slot => { slot with deadline := units }) pid) pid :=
    ⟨rfl, rfl, rfl, rfl, rfl, rfl, fun other different =>
      setSlot_other core (fun slot => { slot with deadline := units }) different⟩
  have here : (noteRemedy (setSlot core pid fun slot => { slot with deadline := units }) pid).table pid =
      { core.table pid with deadline := units } := setSlot_self core pid fun slot => { slot with deadline := units }
  have touched : SlotTouched (core.table pid)
      ((noteRemedy (setSlot core pid fun slot => { slot with deadline := units }) pid).table pid) :=
    here ▸ ⟨Iff.rfl, rfl, rfl, rfl, rfl, rfl, rfl, rfl, rfl, rfl⟩
  refine ⟨inv.notes one touched (by rw [here]) (by rw [here]) (fun _ => by rw [here]) rfl rfl, one.evolves touched
    (by rw [here]) (fun _ => by rw [here]) (fun _ => ?_) (remedies_grow _ pid) fun _ _ => remedies_named _ pid⟩
  rw [here]
  exact ⟨rfl, rfl⟩

theorem killPid_runs (robust : Robust P) (named : Nat) :
    Runs (kernelRules tight held) (steadily tight held P) (killPid build named) (fun _ => steadily tight held P) := by
  have marked : Runs (kernelRules tight held) (steadily tight held P) (onCore (killPending named))
      (fun result state => Steady tight held state ∧ P state.core ∧ ∀ pid, result.toOption = some pid → Owed pid state) := by
    refine onCore_owes (fun _ => P) Except.toOption fun core inv nobody holds => ?_
    unfold killPending
    split
    · exact ⟨inv, .refl _, nobody, holds, nofun⟩
    · next pid found =>
      have pending := pendingPid_ok found
      obtain ⟨inv', evolves⟩ := inv.kill pending
      refine ⟨inv', evolves, nobody, robust.killed core pid holds pending, fun other isPid => ?_⟩
      cases isPid
      have here := setSlot_self core pid fun slot => { slot with state := .killed }
      rw [pending]
      exact ⟨rfl, congrArg (fun slot => slot.state.terminal) here⟩
  refine marked.bind fun result => ?_
  cases result with
  | error reason => exact .pure fun _ ⟨steady, holds, _⟩ => ⟨steady, holds⟩
  | ok pid =>
    have told : Runs (kernelRules tight held)
        (fun state => Steady tight held state ∧ P state.core ∧ ∀ other, some pid = some other → Owed other state)
        (emitKilledOperator build pid) (fun _ => steadily tight held P) :=
      emitKilledOperator_runs.strengthen fun _ ⟨steady, holds, owed⟩ => ⟨steady, holds, owed pid rfl⟩
    refine told.bind fun _ => (readCore_runs _).bind fun started => (elapsedSince_runs started).bind fun _ => ?_
    exact .pure fun _ ⟨steady, holds, _⟩ => ⟨steady, holds⟩

theorem kill_runs (robust : Robust P) (request : RpcId) (op : Option Bytes) (params : Bytes) :
    Runs (kernelRules tight held) (steadily tight held P) (kill build request op params) (Served tight held P) := by
  unfold kill
  split
  · exact respondError_runs request _ _
  · refine onceOnly_runs robust request op ((killPid_runs robust _).bind fun result => ?_)
    cases result with
    | ok elapsed => exact (note_runs robust _).bind fun _ => respondResult_runs request _
    | error reason => exact (note_runs robust _).bind fun _ => respondError_runs request _ _

theorem setDeadline_runs (robust : Robust P) (named units : Nat) :
    Runs (kernelRules tight held) (steadily tight held P) (onCore (setDeadline named units))
      (fun _ => steadily tight held P) := by
  refine onCore_runs (P := fun state => P state.core) fun state steady holds => ?_
  unfold setDeadline
  split
  · exact ⟨steady.calm.core, .refl _, steady.nobody, holds⟩
  · next pid found =>
    obtain ⟨inv, evolves⟩ := steady.calm.core.budget pid units
    exact ⟨inv, evolves, steady.nobody, robust.budget _ pid units holds (pendingPid_ok found)⟩

theorem setBudget_runs (robust : Robust P) (request : RpcId) (op : Option Bytes) (params : Bytes) :
    Runs (kernelRules tight held) (steadily tight held P) (setBudget request op params) (Served tight held P) := by
  unfold setBudget
  split
  · exact respondError_runs request _ _
  split
  · exact respondError_runs request _ _
  · refine onceOnly_runs robust request op ((setDeadline_runs robust _ _).bind fun result => ?_)
    cases result with
    | ok _ => exact (note_runs robust _).bind fun _ => respondResult_runs request _
    | error reason => exact (note_runs robust _).bind fun _ => respondError_runs request _ _

/-- A dial of the kernel that no invariant reads. -/
theorem dial_runs (robust : Robust P) {update : Core → Core}
    (same : ∀ core, SameCore core (update core) ∧ (update core).current = core.current) {rest : Kernel (Option Next)}
    (onwards : Runs (kernelRules tight held) (steadily tight held P) rest (Served tight held P)) :
    Runs (kernelRules tight held) (steadily tight held P) (do modifyCore update; rest) (Served tight held P) := by
  have set : Runs (kernelRules tight held) (steadily tight held P) (modifyCore update) (fun _ => steadily tight held P) :=
    sameCore_runs same fun core holds => robust.same core _ (same core).1 (same core).2 holds
  exact set.bind fun _ => onwards

theorem setSurface_runs (robust : Robust P) (request : RpcId) (params : Bytes) :
    Runs (kernelRules tight held) (steadily tight held P) (setSurface request params) (Served tight held P) := by
  unfold setSurface
  dsimp only
  split
  · refine dial_runs robust ?_ (respondResult_runs request _)
    exact fun _ => ⟨⟨rfl, rfl, rfl, rfl, rfl⟩, rfl⟩
  split
  · refine dial_runs robust ?_ (respondResult_runs request _)
    exact fun _ => ⟨⟨rfl, rfl, rfl, rfl, rfl⟩, rfl⟩
  · exact respondError_runs request _ _

theorem setAutonomy_runs (robust : Robust P) (request : RpcId) (params : Bytes) :
    Runs (kernelRules tight held) (steadily tight held P) (setAutonomy request params) (Served tight held P) := by
  unfold setAutonomy
  dsimp only
  split
  · refine dial_runs robust ?_ (respondResult_runs request _)
    exact fun _ => ⟨⟨rfl, rfl, rfl, rfl, rfl⟩, rfl⟩
  split
  · refine dial_runs robust ?_ (respondResult_runs request _)
    exact fun _ => ⟨⟨rfl, rfl, rfl, rfl, rfl⟩, rfl⟩
  · exact respondError_runs request _ _

theorem handleToolsCall_runs (robust : Robust P) (request : RpcId) (json : Bytes) :
    Runs (kernelRules tight held) (steadily tight held P) (handleToolsCall build request json) (Served tight held P) := by
  unfold handleToolsCall
  dsimp only
  split
  · exact respondError_runs request _ _
  split
  · exact runSuite_runs robust request _ _
  split
  · exact crash_runs robust request _
  split
  · exact kill_runs robust request _ _
  split
  · exact setBudget_runs robust request _ _
  split
  · exact respondResult_runs request _
  split
  · exact setSurface_runs robust request _
  split
  · exact setAutonomy_runs robust request _
  · exact respondError_runs request _ _

theorem handleResourcesRead_runs (request : RpcId) (json : Bytes) :
    Runs (kernelRules tight held) (steadily tight held P) (handleResourcesRead build request json) (Served tight held P) := by
  unfold handleResourcesRead
  dsimp only
  split
  · exact respondError_runs request _ _
  repeat'
    split
    · exact respondResult_runs request _
  exact respondError_runs request _ _

theorem dispatch_runs (robust : Robust P) (json : Bytes) :
    Runs (kernelRules tight held) (steadily tight held P) (dispatch build json) (Served tight held P) := by
  unfold dispatch
  dsimp only
  split
  · exact respondError_runs _ _ _
  split
  · exact respondResult_runs _ _
  split
  · exact respondResult_runs _ _
  split
  · exact handleToolsCall_runs robust _ json
  split
  · exact respondResult_runs _ _
  split
  · exact handleResourcesRead_runs _ json
  · exact respondError_runs _ _ _

theorem readRequest_runs (robust : Robust P) :
    Runs (kernelRules tight held) (steadily tight held P) (readRequest build) (Served tight held P) := by
  have calls : Runs (kernelRules tight held) (steadily tight held P) (modifyCore (·.call .request))
      (fun _ => steadily tight held P) :=
    stack_runs fun core _ holds => robust.same core _ ⟨rfl, rfl, rfl, rfl, rfl⟩ rfl holds
  unfold readRequest
  refine calls.bind fun _ => (readBody_runs robust).bind fun body => ?_
  have served : Runs (kernelRules tight held) (steadily tight held P) (dispatchBody build body) (Served tight held P) := by
    cases body with
    | none => exact .pure fun _ holds => holds
    | some json => exact (note_runs robust _).bind fun _ => dispatch_runs robust json
  refine served.bind fun next => ?_
  cases next with
  | none =>
    have returns : Runs (kernelRules tight held) (steadily tight held P) (modifyCore (·.return))
        (fun _ => steadily tight held P) :=
      stack_runs fun core _ holds => robust.same core _ ⟨rfl, rfl, rfl, rfl, rfl⟩ rfl holds
    exact returns.bind fun _ => .pure fun _ holds => holds
  | some next =>
    intro state always
    have hands := (always state (.refl state)).2
    have unchanged : Runs (kernelRules tight held) (steadily tight held (Due next)) (modifyCore fun core => core)
        (fun _ => steadily tight held (Due next)) :=
      sameCore_runs (fun _ => ⟨.refl _, rfl⟩) fun _ holds => holds
    refine (unchanged.bind fun _ => ?_) state fun current moves => (always current moves).1
    exact .pure fun _ holds => ⟨holds, hands⟩

theorem emitRingDump_runs :
    Runs (kernelRules tight held) (steadily tight held P) Traps.emitRingDump (fun _ => steadily tight held P) :=
  numbered_plain fun _ _ => ⟨rfl, rfl, rfl, fun _ => ⟨trivial, trivial, trivial⟩⟩

/-- A request, then back to the loop that took its first byte. -/
theorem loopRequest_runs (robust : Robust (Due next)) (idle : next.idleHands = true) :
    Runs (kernelRules tight held) (steadily tight held (Due next)) ((·.getD next) <$> readRequest build)
      (Ready tight held) := by
  refine ((readRequest_runs robust).weaken fun result state served => ?_).map
  cases result with
  | none => exact ready_of_due idle served
  | some other => exact ready_of_due served.2 served.1

theorem noteCommand_runs (robust : Robust P) (reader : Reader) (byte : UInt8) :
    Runs (kernelRules tight held) (steadily tight held P) (Main.noteCommand reader byte) (fun _ => steadily tight held P) :=
  note_runs robust _

theorem swallowStrayKey_same (byte : UInt8) (core : Core) :
    SameCore core (swallowStrayKey byte core).2 ∧ (swallowStrayKey byte core).2.current = core.current := by
  unfold swallowStrayKey
  split
  · exact ⟨⟨rfl, rfl, rfl, rfl, rfl⟩, rfl⟩
  split
  · exact ⟨⟨rfl, rfl, rfl, rfl, rfl⟩, rfl⟩
  · exact ⟨.refl _, rfl⟩

theorem command_runs (byte : UInt8) :
    Runs (kernelRules tight held) (steadily tight held (Due .idle)) (Main.command build byte) (Ready tight held) := by
  unfold Main.command
  split
  · exact loopRequest_runs robust_idle rfl
  split
  · exact emitRingDump_runs.bind fun _ => .pure fun _ holds => holds
  split
  · exact .pure fun _ holds => ⟨holds.1, trivial⟩
  split
  · exact .pure fun _ ⟨steady, quiescent, onKernel, _⟩ => ⟨steady, quiescent, onKernel⟩
  · exact .pure fun _ holds => holds

theorem idle_runs : Runs (kernelRules tight held) (steadily tight held (Due .idle)) (Main.idle build) (Ready tight held) := by
  unfold Main.idle
  refine consoleGetchar_runs.bind fun got => ?_
  cases got with
  | none => exact .pure fun _ holds => holds
  | some byte =>
    have filter : Runs (kernelRules tight held) (steadily tight held (Due .idle)) (Main.strayKey build byte)
        (fun _ => steadily tight held (Due .idle)) := by
      unfold Main.strayKey
      split
      · refine sameCore_runs (swallowStrayKey_same byte) fun core due => ?_
        exact robust_idle.same core _ (swallowStrayKey_same byte core).1 (swallowStrayKey_same byte core).2 due
      · exact .pure fun _ holds => holds
    refine filter.bind fun swallowed => ?_
    split
    · exact .pure fun _ holds => holds
    · exact (noteCommand_runs robust_idle _ byte).bind fun _ => command_runs byte

theorem serviceConsole_runs :
    Runs (kernelRules tight held) (steadily tight held (Due .service)) (Main.serviceConsole build) (Ready tight held) := by
  have take : Runs (kernelRules tight held) (steadily tight held (Due .service))
      (onCore fun core => (core.stashedByte, { core with stashedByte := none })) (fun _ => steadily tight held (Due .service)) :=
    sameCore_runs (fun _ => ⟨⟨rfl, rfl, rfl, rfl, rfl⟩, rfl⟩) fun _ holds => holds
  refine take.bind fun stashed => ?_
  refine Runs.bind (?_ : Runs _ _ _ fun _ => steadily tight held (Due .service)) fun got => ?_
  · cases stashed with
    | none => exact consoleGetchar_runs
    | some byte => exact .pure fun _ holds => holds
  cases got with
  | none => exact .pure fun _ holds => holds
  | some byte =>
    have robust : Robust (Due .service) := robust_service
    refine (noteCommand_runs robust _ byte).bind fun _ => ?_
    split
    · exact loopRequest_runs robust rfl
    split
    · exact emitRingDump_runs.bind fun _ => .pure fun _ holds => holds
    · exact .pure fun _ holds => holds

end Kernai
