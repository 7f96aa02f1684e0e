import Kernai.Proofs.Budgets

/-! What serving one request does to the kernel's statics, by how it is answered. -/

namespace Kernai
open Foundation Program Kernel Console Payload Rpc Json

variable {build : Build} {core : Core} {state middle : State} {body : Bytes} {request : RpcId}

/-- What a tool that was let through did: where it goes on, and what it left of the table. -/
inductive Effect (build : Build) (body : Bytes) (core : Core) : Result → Option Next → Core → Prop
  | runSuite (tool : toolOf body = some (utf8 "run_suite")) (suite : Suite) {name : Bytes} {after : Core}
      (named : name = ((argument body "suite").bind asString).getD []) (known : suiteNamed build name = some suite)
      (table : after.table = core.table) : Effect build body core (.accepted name) (some (.seed suite)) after
  | crash (tool : toolOf body = some (utf8 "crash")) {after : Core} (table : after.table = core.table) :
      Effect build body core .crashing (some .crash) after
  | kill (tool : toolOf body = some (utf8 "kill")) (pid : Pid) (elapsed : Nat) {after : Core}
      (named : (argument body "pid").bind parseU32 = some pid.val) (pending : (core.table pid).state = .pending)
      (table : after.table = remedied core pid.val fun slot => { slot with state := .killed }) :
      Effect build body core (.killed pid.val elapsed) none after
  | setBudget (tool : toolOf body = some (utf8 "set_budget")) (pid : Pid) (units : Nat) {after : Core}
      (named : (argument body "pid").bind parseU32 = some pid.val) (limit : (argument body "deadline").bind parseU32 = some units)
      (pending : (core.table pid).state = .pending)
      (table : after.table = remedied core pid.val fun slot => { slot with deadline := units }) :
      Effect build body core (.budgetSet pid.val units) none after

/-- Only the tables matter. -/
theorem Effect.congr {before after after' : Core} {result : Result} {next : Option Next}
    (effect : Effect build body core result next after) (same : core.table = before.table) (same' : after'.table = after.table) :
    Effect build body before result next after' := by
  have updated : ∀ n update, remedied core n update = remedied before n update := fun n update => remedied_congr same n update
  cases effect with
  | runSuite tool suite named known table => exact .runSuite tool suite named known (same'.trans (table.trans same))
  | crash tool table => exact .crash tool (same'.trans (table.trans same))
  | kill tool pid elapsed named pending table =>
    exact .kill tool pid elapsed named (same ▸ pending) (same'.trans (table.trans (updated _ _)))
  | setBudget tool pid units named limit pending table =>
    exact .setBudget tool pid units named limit (same ▸ pending) (same'.trans (table.trans (updated _ _)))

/-- How a tool ends that was let through. -/
inductive Ruling (build : Build) (body : Bytes) (core : Core) : Reply → Option Next → Core → Prop
  | done {result : Result} {next : Option Next} {after : Core} (effect : Effect build body core result next after)
      (same : SameRecord core after) :
      Ruling build body core (.result result) next (after.note (.answered (opOf body) .done))
  | refused (reason : String) :
      Ruling build body core (.error (-32602) reason) none (core.note (.answered (opOf body) .refused))

/-- How a request ends: it is told something, a dial is turned, its operation id has been
seen before, or its tool was let through. -/
inductive Outcome (build : Build) (body : Bytes) (core : Core) : Reply → Option Next → Core → Prop
  | told (reply : Reply) : Outcome build body core reply none core
  | dialled (reply : Reply) (classicSurface autonomous : Bool) :
      Outcome build body core reply none { core with classicSurface, autonomous }
  | replayed (op : Bytes) (isOp : opOf body = some op) (seen : core.opIds.contains (fnv1a op) = true) :
      Outcome build body core (.result (.duplicate op)) none (core.note (.answered (some op) .duplicate))
  | passed {reply : Reply} {next : Option Next} {after : Core} (unseen : (opSeen (opOf body) core).1 = false)
      (ruling : Ruling build body (opSeen (opOf body) core).2 reply next after) : Outcome build body core reply next after

/-- From `middle` on, a handler ends as `how` says and gives the one response since `state`. -/
def Responds (how : Reply → Option Next → Core → Prop) (request : RpcId) (state middle : State)
    (handler : Kernel (Option Next)) : Prop :=
  ∃ reply, how reply (handler.run middle).1 (handler.run middle).2.core ∧ Replies request reply state (handler.run middle).2

section Responses

variable {how : Reply → Option Next → Core → Prop}

/-- A response changes nothing but the log, after which the handler is done or goes elsewhere. -/
theorem emitRpc_responds (reply : State → Reply) (next : Option Next)
    (quiet : repliesOf middle.env.log = repliesOf state.env.log) (ends : ∀ seen, how (reply seen) next middle.core) :
    Responds how request state middle (do emitRpc request reply; return next) := by
  have constant : (emitRpc request reply).run middle = (emitRpc request fun _ => reply (numbered middle)).run middle := by
    rw [emitRpc_run, emitRpc_run]
    rfl
  obtain ⟨isCore, replies⟩ := emitRpc_replies request (reply (numbered middle)) quiet
  unfold Responds
  simp only [run_bind, run_pure, constant, isCore]
  exact ⟨_, ends _, replies⟩

theorem respondResult_told (result : State → Result) :
    Responds (Outcome build body state.core) request state state (respondResult request result) :=
  emitRpc_responds (fun state => .result (result state)) none rfl fun _ => .told _

theorem respondError_told (code : Int) (message : String) :
    Responds (Outcome build body state.core) request state state (respondError request code message) :=
  emitRpc_responds (fun _ => .error code message) none rfl fun _ => .told _

/-- An action on the statics comes first. -/
theorem Responds.after_onCore {α : Type} {action : Core → α × Core} {rest : α → Kernel (Option Next)}
    (responds : Responds how request state { middle with core := (action middle.core).2 } (rest (action middle.core).1)) :
    Responds how request state middle (do rest (← onCore action)) := by
  unfold Responds
  simp only [run_bind, onCore_run]
  exact responds

theorem Responds.after_note {entry : Note} {rest : Kernel (Option Next)}
    (responds : Responds how request state { middle with core := middle.core.note entry } rest) :
    Responds how request state middle (do note entry; rest) := by
  unfold Responds
  simp only [run_bind, note, modifyCore_run]
  exact responds

/-- A dial is turned, then the response says so. -/
theorem dial_responds {classicSurface autonomous : Bool} {update : Core → Core}
    (isUpdate : update state.core = { state.core with classicSurface, autonomous }) (result : State → Result) :
    Responds (Outcome build body state.core) request state state (do modifyCore update; respondResult request result) := by
  refine Responds.after_onCore (emitRpc_responds (fun state => .result (result state)) none rfl fun _ => ?_)
  dsimp only
  rw [isUpdate]
  exact .dialled _ classicSurface autonomous

end Responses

section Tools

/-- The idempotency check in front of a tool. -/
theorem onceOnly_responds {tool : Kernel (Option Next)}
    (rules : Responds (Ruling build body (opSeen (opOf body) state.core).2) request state
      { state with core := (opSeen (opOf body) state.core).2 } tool) :
    Responds (Outcome build body state.core) request state state (do
      if ← onCore (opSeen (opOf body)) then respondDuplicate request (opOf body) else tool) := by
  refine Responds.after_onCore ?_
  cases seen : (opSeen (opOf body) state.core).1 with
  | false =>
    obtain ⟨reply, ruling, replies⟩ := rules
    exact ⟨reply, .passed seen ruling, replies⟩
  | true =>
    cases isOp : opOf body with
    | none =>
      rw [isOp] at seen
      cases seen
    | some op =>
      have held : state.core.opIds.contains (fnv1a op) = true := by
        by_contra missing
        rw [isOp, opSeen, if_neg missing] at seen
        cases seen
      have same : (opSeen (some op) state.core).2 = state.core := by rw [opSeen, if_pos held]
      rw [if_pos rfl, same]
      exact Responds.after_note (emitRpc_responds (fun _ => .result (.duplicate op)) none rfl fun _ => .replayed op isOp held)

/-- A tool that has done its work notes that, says so and goes elsewhere. -/
theorem leaves_responds {result : Result} {next : Option Next} (effect : Effect build body core result next middle.core)
    (same : SameRecord core middle.core) (quiet : repliesOf middle.env.log = repliesOf state.env.log) :
    Responds (Ruling build body core) request state middle (do
      note (.answered (opOf body) .done)
      let _ ← respondResult request fun _ => result
      return next) := by
  unfold respondResult
  simp only [bind_assoc, pure_bind]
  exact Responds.after_note (emitRpc_responds (fun _ => .result result) next quiet fun _ => .done effect same)

/-- Or it returns. -/
theorem done_responds {result : Result} (effect : Effect build body core result none middle.core)
    (same : SameRecord core middle.core) (quiet : repliesOf middle.env.log = repliesOf state.env.log) :
    Responds (Ruling build body core) request state middle (do
      note (.answered (opOf body) .done)
      respondResult request fun _ => result) :=
  Responds.after_note (emitRpc_responds (fun _ => .result result) none quiet fun _ => .done effect same)

theorem refused_responds (reason : String) (isCore : middle.core = core)
    (quiet : repliesOf middle.env.log = repliesOf state.env.log) :
    Responds (Ruling build body core) request state middle (do
      note (.answered (opOf body) .refused)
      respondError request (-32602) reason) := by
  subst isCore
  exact Responds.after_note (emitRpc_responds (fun _ => .error (-32602) reason) none quiet fun _ => .refused reason)

theorem runSuite_responds (tool : toolOf body = some (utf8 "run_suite")) :
    Responds (Outcome build body state.core) request state state (runSuite build request (opOf body) (paramsOf body)) := by
  unfold runSuite
  dsimp only
  split
  · exact respondError_told _ _
  · next suite known =>
    refine Responds.after_onCore ?_
    split
    · exact respondError_told _ _
    · exact onceOnly_responds (leaves_responds (.runSuite tool suite rfl known rfl) (.refl _) rfl)

theorem crash_responds (tool : toolOf body = some (utf8 "crash")) :
    Responds (Outcome build body state.core) request state state (crash request (opOf body)) := by
  refine Responds.after_onCore ?_
  split
  · exact respondError_told _ _
  · exact onceOnly_responds (leaves_responds (.crash tool rfl) (.refl _) rfl)

theorem kill_responds (tool : toolOf body = some (utf8 "kill")) :
    Responds (Outcome build body state.core) request state state (kill build request (opOf body) (paramsOf body)) := by
  unfold kill
  split
  · exact respondError_told _ _
  · next n named =>
    refine onceOnly_responds ?_
    generalize (opSeen (opOf body) state.core).2 = core
    have kept := (killPid_within n : Within Unnoticed (killPid build n)).unrecorded.keeps { state with core }
    unfold Responds
    rw [run_bind]
    rcases pendingPid_cases core n with ⟨pid, rfl, pending, isPid⟩ | ⟨-, reason, isError⟩
    · obtain ⟨elapsed, after, ran, table⟩ := (killPid_run build pid.val { state with core }).1 pid isPid
      rw [ran] at kept ⊢
      exact done_responds (.kill tool pid elapsed named pending table) kept.core kept.replies
    · rw [(killPid_run build n { state with core }).2 reason isError]
      exact refused_responds reason rfl rfl

theorem setBudget_responds (tool : toolOf body = some (utf8 "set_budget")) :
    Responds (Outcome build body state.core) request state state (setBudget request (opOf body) (paramsOf body)) := by
  unfold setBudget
  split
  · exact respondError_told _ _
  · next n named =>
    split
    · exact respondError_told _ _
    · next units limit =>
      refine onceOnly_responds ?_
      generalize (opSeen (opOf body) state.core).2 = core
      refine Responds.after_onCore ?_
      have kept := setDeadline_record n units core
      rcases pendingPid_cases core n with ⟨pid, rfl, pending, isPid⟩ | ⟨-, reason, isError⟩
      · obtain ⟨after, set, table⟩ := (setDeadline_eq pid.val units core).1 pid isPid
        dsimp only
        rw [set] at kept ⊢
        exact done_responds (.setBudget tool pid units named limit pending table) kept rfl
      · dsimp only
        rw [(setDeadline_eq n units core).2 reason isError]
        exact refused_responds reason rfl rfl

theorem setSurface_responds (params : Bytes) :
    Responds (Outcome build body state.core) request state state (setSurface request params) := by
  unfold setSurface
  dsimp only
  split
  · exact dial_responds rfl _
  · split
    · exact dial_responds rfl _
    · exact respondError_told _ _

theorem setAutonomy_responds (params : Bytes) :
    Responds (Outcome build body state.core) request state state (setAutonomy request params) := by
  unfold setAutonomy
  dsimp only
  split
  · exact dial_responds rfl _
  · split
    · exact dial_responds rfl _
    · exact respondError_told _ _

theorem handleToolsCall_responds :
    Responds (Outcome build body state.core) request state state (handleToolsCall build request body) := by
  unfold handleToolsCall
  dsimp only
  split
  · exact respondError_told _ _
  · next name isName =>
    split
    · next tool => exact runSuite_responds (isName.trans (congrArg some tool))
    split
    · next tool => exact crash_responds (isName.trans (congrArg some tool))
    split
    · next tool => exact kill_responds (isName.trans (congrArg some tool))
    split
    · next tool => exact setBudget_responds (isName.trans (congrArg some tool))
    split
    · exact respondResult_told _
    split
    · exact setSurface_responds _
    split
    · exact setAutonomy_responds _
    · exact respondError_told _ _

theorem handleResourcesRead_responds :
    Responds (Outcome build body state.core) request state state (handleResourcesRead build request body) := by
  unfold handleResourcesRead
  dsimp only
  split
  · exact respondError_told _ _
  iterate 7
    split
    · exact respondResult_told _
  · exact respondError_told _ _

/-- A request is answered once, and what it did is what the answer says. -/
theorem dispatch_responds (build : Build) (body : Bytes) (state : State) :
    Responds (Outcome build body state.core) (requestOf body) state state (dispatch build body) := by
  unfold dispatch
  dsimp only
  split
  · exact respondError_told _ _
  split
  · exact respondResult_told _
  split
  · exact respondResult_told _
  split
  · exact handleToolsCall_responds
  split
  · exact respondResult_told _
  split
  · exact handleResourcesRead_responds
  · exact respondError_told _ _

end Tools

end Kernai
