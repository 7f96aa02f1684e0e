import Kernai.Proofs.Handler
import Kernai.Proofs.Records

/-! What a single action of kernel code can do to the calls on the boot stack, to the
clocks of the payloads and to the flight recorder. -/

namespace Kernai
open Foundation Program Kernel Payload Traps

variable {build : Build} {core core' : Core} {state state' : State} {pid : Pid} {α : Type} {program : Kernel α}

section Handler

/-- The trap handler leaves the stack alone or resets it. -/
structure Shallow (state state' : State) : Prop where
  stack : state'.core.stack = state.core.stack ∨ state'.core.stack = []
  suite : state'.core.ledger.suite = state.core.ledger.suite

theorem Shallow.refl (state : State) : Shallow state state := ⟨.inl rfl, rfl⟩

theorem Shallow.trans {state'' : State} (left : Shallow state state') (right : Shallow state' state'') : Shallow state state'' := by
  refine ⟨?_, right.suite.trans left.suite⟩
  rcases right.stack with same | none
  · rw [same]
    exact left.stack
  · exact .inr none

theorem Unrecorded.shallow (same : Unrecorded state state') : Shallow state state' := ⟨.inl same.core.stack, same.core.suite⟩

/-- Past its own entry in the recorder, the handler leaves that alone as well. -/
structure Orderly (state state' : State) : Prop extends Shallow state state' where
  grows : Grows state state'
  spoken : Spoken state.env.log state'.env.log
  heard : state'.env.heard = state.env.heard
  timed : Timed state.core state'.core
  recorder : state'.env.recorder = state.env.recorder

theorem Orderly.refl (state : State) : Orderly state state := ⟨.refl state, .refl state, .same rfl, rfl, .refl _, rfl⟩

theorem Orderly.trans {state'' : State} (left : Orderly state state') (right : Orderly state' state'') : Orderly state state'' :=
  ⟨left.toShallow.trans right.toShallow, left.grows.trans right.grows, left.spoken.trans right.spoken,
    right.heard.trans left.heard, left.timed.trans right.timed, right.recorder.trans left.recorder⟩

theorem Unnoticed.orderly (same : Unnoticed state state') : Orderly state state' :=
  ⟨same.toUnrecorded.shallow, same.grows, same.spoken, same.heard, same.core.timed, same.recorder⟩

theorem Foundation.Program.Within.orderly (within : Within Unnoticed program) : Within Orderly program :=
  within.mono fun _ _ => Unnoticed.orderly

theorem Foundation.Program.Within.shallow (within : Within Orderly program) : Within Shallow program :=
  within.mono fun _ _ => Orderly.toShallow

theorem onCore_orderly {action : Core → α × Core}
    (stack : ∀ core, (action core).2.stack = core.stack ∨ (action core).2.stack = [])
    (journal : ∀ core, core.journal <+: (action core).2.journal)
    (table : ∀ core, (action core).2.table = core.table) (ledger : ∀ core, (action core).2.ledger = core.ledger) :
    Within Orderly (onCore action) :=
  .modifyGet fun state =>
    ⟨⟨stack state.core, congrArg _ (ledger state.core)⟩, .ofCore (journal state.core), .same rfl, rfl,
      .same (table state.core) (congrArg _ (ledger state.core)), rfl⟩

theorem consoleGetchar_grows (state : State) : Grows state (consoleGetchar.run state).2 :=
  ⟨List.prefix_refl _, List.prefix_append _ _, List.prefix_refl _⟩

/-- A byte that is taken off the queue is one that was read. -/
theorem consoleGetchar_heard (state : State) : (consoleGetchar.run state).2.env.heard = state.env.heard := by
  change (state.env.read ++ state.env.rx.head?.toList) ++ state.env.rx.tail = state.env.read ++ state.env.rx
  cases state.env.rx <;> simp

theorem consoleGetchar_orderly : Within Orderly consoleGetchar :=
  .modifyGet fun state => ⟨⟨.inl rfl, rfl⟩, consoleGetchar_grows state, .same rfl, consoleGetchar_heard state, .refl _, rfl⟩

theorem redirectToScheduler_orderly (frame : TrapFrame) : Within Orderly (redirectToScheduler build frame) :=
  .bind leaveCurrent_within.orderly fun _ =>
    .bind (onCore_orderly (fun _ => .inr rfl) (fun _ => List.prefix_refl _) (fun _ => rfl) fun _ => rfl) fun _ => .pure _

theorem drainBytes_orderly (count : Nat) (killed : Bool) : Within Orderly (drainBytes build pid count killed) := by
  induction count generalizing killed with
  | zero => exact .pure killed
  | succ count ih =>
    refine .bind consoleGetchar_orderly fun got => ?_
    cases got with
    | none => exact .pure killed
    | some byte =>
      refine .bind (readCore_within _).orderly fun pending => ?_
      split
      · refine .bind (onCore_orderly (fun _ => .inl rfl) (fun _ => List.prefix_append _ _) (fun _ => rfl) fun _ => rfl) fun _ => ?_
        split
        · refine .bind (readCore_within _).orderly fun slot => ?_
          split
          · exact .bind (modifyCore_within fun core => setSlot_record core pid (by exact fun _ _ => ⟨by simp, rfl⟩)).orderly fun _ =>
              .bind (emitKilledOperator_within pid).orderly fun _ => ih true
          · exact ih true
        · split
          · exact .bind (modifyCore_within (pushKey_record byte)).orderly fun _ => ih killed
          · exact ih killed
      · refine .bind (onCore_orderly (fun core => .inl ?_) (fun core => ?_) (fun core => ?_) fun core => ?_) fun _ => ih killed
        all_goals
          unfold leadKey
          split <;> first | rfl | exact List.prefix_append _ _

theorem drainKeys_orderly : Within Orderly (drainKeys build) := by
  refine .bind (readCore_within _).orderly fun current => ?_
  cases current with
  | none => exact .pure false
  | some pid =>
    refine .bind (readCore_within _).orderly fun slot => ?_
    split
    · exact .pure false
    · exact .bind (readEnv_within _).orderly fun count => drainBytes_orderly count false

theorem maybePreempt_orderly (frame : TrapFrame) : Within Orderly (maybePreempt build frame) := by
  refine .bind (readCore_within _).orderly fun current => ?_
  cases current with
  | none => exact .pure false
  | some pid =>
    refine .bind (readCore_within _).orderly fun slot => ?_
    split
    · exact .pure false
    · split
      · exact .pure false
      · refine .bind consoleGetchar_orderly fun got => ?_
        cases got with
        | none => exact .pure false
        | some byte =>
          refine .bind (onCore_orderly (fun _ => .inl rfl) (fun _ => List.prefix_refl _) (fun _ => rfl) fun _ => rfl) fun _ =>
            .bind (onCore_within (preemptFrame_record pid)).orderly fun found => ?_
          cases found with
          | none => exact .pure false
          | some frame =>
            exact .bind (modifyCore_within fun core => phys_record core _).orderly fun _ =>
              .bind (modifyCore_within fun core => setSlot_record core pid (by exact fun _ _ => ⟨by simp, rfl⟩)).orderly fun _ =>
                .bind (emitSchedPreempt_within pid).orderly fun _ => .pure true

theorem settleTick_orderly (frame : TrapFrame) (opKilled : Bool) : Within Orderly (settleTick build frame opKilled) := by
  refine .bind onTick_within.orderly fun overBudget => ?_
  split
  · exact redirectToScheduler_orderly frame
  · refine .bind (maybePreempt_orderly frame) fun preempted => ?_
    split
    · exact redirectToScheduler_orderly frame
    · exact .pure frame

theorem handleEcall_orderly (frame : TrapFrame) : Within Orderly (handleEcall build frame) := by
  refine .bind (dispatch_within _).orderly fun outcome => ?_
  cases outcome with
  | resume value => exact .pure _
  | leave => exact redirectToScheduler_orderly _

/-- What one trap leaves of the recorder: `ring_record`'s entry, and a tick counted if it
was one. -/
def Recorder.enter (recorder : Recorder) (slot : RingSlot) : Recorder :=
  let recorder := { recorder with
    ring := store recorder.ring (recorder.ringCount % ringSize) slot
    ringCount := bump recorder.ringCount }
  if slot.scause = Text.causeSTimer then { recorder with ticks := bump recorder.ticks }
  else { recorder with
    ecallTraps := if slot.scause = Text.causeUEcall then bump recorder.ecallTraps else recorder.ecallTraps
    faultTraps := if slot.scause = Text.causeUEcall then recorder.faultTraps else bump recorder.faultTraps
    notable := store recorder.notable (recorder.notableCount % notableSize) slot
    notableCount := bump recorder.notableCount }

/-- What the handler does with a trap. -/
structure Reported (slot : RingSlot) (state state' : State) : Prop extends Shallow state state' where
  grows : Grows state state'
  spoken : Spoken state.env.log state'.env.log
  heard : state'.env.heard = state.env.heard
  timed : Timed state.core state'.core
  recorder : state'.env.recorder = state.env.recorder.enter slot

theorem Reported.next {slot : RingSlot} {state'' : State} (reported : Reported slot state state') (rest : Orderly state' state'') :
    Reported slot state state'' :=
  ⟨reported.toShallow.trans rest.toShallow, reported.grows.trans rest.grows, reported.spoken.trans rest.spoken,
    rest.heard.trans reported.heard, reported.timed.trans rest.timed, rest.recorder.trans reported.recorder⟩

theorem Reported.within {slot : RingSlot} (reported : Reported slot state state') (within : Within Orderly program) :
    Reported slot state (program.run state').2 := reported.next (within.run .refl .trans state')

/-- What the recorder notes of a trap. -/
def trapSlot (frame : TrapFrame) (scause stval : Nat) (state : State) : RingSlot :=
  { id := idOf state.env.serial, scause, sepc := frame.sepc.toNat, stval }

theorem noted_unrecorded (frame : TrapFrame) (scause stval : Nat) (state : State) :
    Unrecorded state (noted frame scause stval state) :=
  (nextId_within.unrecorded.keeps state).trans ((ringRecord_within _).keeps _)

theorem noted_log (frame : TrapFrame) (scause stval : Nat) (state : State) :
    (noted frame scause stval state).env.log = state.env.log := by
  unfold noted ringRecord
  dsimp only
  repeat' split
  all_goals rfl

theorem noted_heard (frame : TrapFrame) (scause stval : Nat) (state : State) :
    (noted frame scause stval state).env.heard = state.env.heard := by
  unfold noted ringRecord
  dsimp only
  repeat' split
  all_goals rfl

/-- `ring_record` leaves the count of the ticks to the timer path. -/
theorem noted_recorder (frame : TrapFrame) (scause stval : Nat) (state : State) :
    (noted frame scause stval state).env.recorder =
      { state.env.recorder.enter (trapSlot frame scause stval state) with ticks := state.env.ticks } := by
  unfold noted ringRecord Recorder.enter
  dsimp only [trapSlot]
  by_cases timer : scause = Text.causeSTimer
  · simp only [timer, if_true]
    rfl
  · by_cases ecall : scause = Text.causeUEcall
    · simp only [ecall, if_true, if_neg (show Text.causeUEcall ≠ Text.causeSTimer by decide)]
      rfl
    · simp only [timer, ecall, if_false]
      rfl

theorem serviceTick_recorder (build : Build) (serial : Nat) (state : State) :
    ((serviceTick build serial).run state).2.core = state.core ∧
      ((serviceTick build serial).run state).2.env.recorder = { state.env.recorder with ticks := bump state.env.ticks } := by
  unfold serviceTick
  simp only [run_bind, readTime, onEnv_run, readCore_run]
  split
  · exact ⟨rfl, rfl⟩
  · simp only [run_bind, onEnv_run, send_run]
    split <;> exact ⟨rfl, rfl⟩

theorem serviceTick_spoken (build : Build) (serial : Nat) (state : State) :
    Spoken state.env.log ((serviceTick build serial).run state).2.env.log := by
  unfold serviceTick
  simp only [run_bind, readTime, onEnv_run, readCore_run]
  split
  · exact .same rfl
  · simp only [run_bind, onEnv_run, send_run]
    split
    · exact .same rfl
    next fits => exact .one ⟨trivial, Bool.eq_false_iff.mpr fits⟩

theorem serviceTick_heard (build : Build) (serial : Nat) (state : State) :
    ((serviceTick build serial).run state).2.env.heard = state.env.heard := by
  unfold serviceTick
  simp only [run_bind, readTime, onEnv_run, readCore_run]
  split
  · rfl
  · simp only [run_bind, onEnv_run, send_run]
    split <;> rfl

/-- The handler enters the trap in the recorder once and leaves it alone after that. -/
theorem handle_reported (build : Build) (frame : TrapFrame) (scause stval : Nat) (state : State) :
    Reported (trapSlot frame scause stval state) state ((handle build frame scause stval).run state).2 := by
  have shallow : Shallow state (noted frame scause stval state) := ⟨.inl rfl, rfl⟩
  have grows := (noted_unrecorded frame scause stval state).grows
  have silent : (noted frame scause stval state).env.log = state.env.log := noted_log frame scause stval state
  have entry := noted_recorder frame scause stval state
  rw [handle_run]
  split
  · next timer =>
    obtain ⟨core, recorder⟩ := serviceTick_recorder build state.env.serial (noted frame scause stval state)
    have ticks : (noted frame scause stval state).env.ticks = state.env.ticks := congrArg Recorder.ticks entry
    have reported : Reported (trapSlot frame scause stval state) state
        ((serviceTick build state.env.serial).run (noted frame scause stval state)).2 := by
      refine ⟨⟨.inl ?_, ?_⟩, grows.trans ((serviceTick_within _).keeps _).grows,
        (Spoken.same silent).trans (serviceTick_spoken build _ _),
        (serviceTick_heard build _ _).trans (noted_heard frame scause stval state), ?_, ?_⟩
      · rw [core]
        rfl
      · rw [core]
        rfl
      · rw [core]
        exact .refl _
      · rw [recorder, entry, ticks]
        simp only [Recorder.enter, if_pos (show (trapSlot frame scause stval state).scause = _ from timer)]
        rfl
    rw [run_map]
    unfold handleTick
    rw [run_bind]
    split
    · rw [run_bind]
      exact (reported.within drainKeys_orderly).within (settleTick_orderly frame _)
    · exact reported.within (settleTick_orderly frame false)
  · next other =>
    have reported : Reported (trapSlot frame scause stval state) state (noted frame scause stval state) :=
      ⟨shallow, grows, .same silent, noted_heard frame scause stval state, .refl _, by
        rw [entry]
        simp only [Recorder.enter, if_neg (show ¬ (trapSlot frame scause stval state).scause = _ from other)]
        rfl⟩
    split
    · exact reported.within (.map _ (handleEcall_orderly frame))
    · split
      · exact reported.within (.bind (readCore_within _).orderly fun pid => .bind (emitFault_within _ _ _ _ _).orderly fun _ =>
          .bind markFaulted_within.orderly fun _ => .map _ (redirectToScheduler_orderly frame))
      · exact reported.within (.bind (emitFault_within _ _ _ _ _).orderly fun _ => .pure none)

end Handler

section Code

/-- What happens outside the trap handler. Seeding a suite clears the table; everything else
keeps the clocks. -/
structure Onward (state state' : State) : Prop where
  grows : Grows state state'
  spoken : Spoken state.env.log state'.env.log
  recorder : state'.env.recorder = state.env.recorder
  timed : state'.core.ledger.suite = state.core.ledger.suite → Timed state.core state'.core

/-- An action of kernel code there. -/
structure Deed (state state' : State) : Prop extends Onward state state' where
  heard : state'.env.heard = state.env.heard

theorem Unnoticed.deed (same : Unnoticed state state') : Deed state state' :=
  ⟨⟨same.grows, same.spoken, same.recorder, fun _ => same.core.timed⟩, same.heard⟩

theorem Foundation.Program.Within.deeds (within : Within Unnoticed program) : Within Deed program :=
  within.mono fun _ _ => Unnoticed.deed

/-- An action that leaves the process table and its ledger alone. -/
theorem onCore_deed {action : Core → α × Core} (journal : ∀ core, core.journal <+: (action core).2.journal)
    (table : ∀ core, (action core).2.table = core.table) (ledger : ∀ core, (action core).2.ledger = core.ledger) :
    Within Deed (onCore action) :=
  .modifyGet fun state =>
    ⟨⟨.ofCore (journal state.core), .same rfl, rfl, fun _ => .same (table state.core) (congrArg _ (ledger state.core))⟩, rfl⟩

/-- An action that leaves the journal alone as well. -/
theorem modifyCore_deed {update : Core → Core} (journal : ∀ core, (update core).journal = core.journal)
    (table : ∀ core, (update core).table = core.table) (ledger : ∀ core, (update core).ledger = core.ledger) :
    Within Deed (modifyCore update) := onCore_deed (fun core => (journal core).symm ▸ List.prefix_refl _) table ledger

theorem note_deed (what : Note) : Within Deed (note what) :=
  .modifyGet fun _ => ⟨⟨.ofCore (List.prefix_append _ _), .same rfl, rfl, fun _ => .same rfl rfl⟩, rfl⟩

theorem consoleGetchar_deed : Within Deed consoleGetchar :=
  .modifyGet fun state => ⟨⟨consoleGetchar_grows state, .same rfl, rfl, fun _ => .refl _⟩, consoleGetchar_heard state⟩

theorem withoutInterrupts_deeds {body : Kernel α} (within : Within Deed body) : Within Deed (withoutInterrupts body) := by
  refine .bind (onEnv_within (fun _ => rfl) (fun _ => rfl) (fun _ => rfl) fun _ => rfl).deeds fun prev => .bind within fun out => ?_
  cases prev with
  | false => exact .pure out
  | true => exact .bind (onEnv_within (fun _ => rfl) (fun _ => rfl) (fun _ => rfl) fun _ => rfl).deeds fun _ => .pure out

theorem send_deeds (serial : Nat) {event : Event} (worded : event.Worded) : Within Deed (send serial event) := by
  unfold send
  split
  · exact .pure ()
  next fits =>
    refine .bind (fun state => ⟨⟨⟨⟨List.prefix_refl _, List.prefix_refl _, ?_⟩, .one ⟨worded, Bool.eq_false_iff.mpr fits⟩, rfl,
      fun _ => .refl _⟩, rfl⟩, trivial⟩) fun _ => (putAll_within _).deeds
    exact (repliesOf_concat _ _).symm ▸ List.prefix_append _ _

section Requests
open Rpc

theorem getcFrom_deeds (waits : Nat) : Within Deed (getcFrom waits) := by
  induction waits with
  | zero => exact consoleGetchar_deed
  | succ waits ih =>
    refine .bind consoleGetchar_deed fun got => ?_
    cases got with
    | none => exact ih
    | some byte => exact .pure _

theorem getcStall_deeds : Within Deed getcStall := by
  refine .bind (getcFrom_deeds _) fun got => ?_
  cases got <;> exact .bind (note_deed _) fun _ => .pure _

theorem readExactly_deeds (count : Nat) : Within Deed (readExactly count) := by
  induction count with
  | zero => exact .pure _
  | succ count ih =>
    refine .bind getcStall_deeds fun got => ?_
    cases got with
    | none => exact .pure _
    | some byte =>
      refine .bind ih fun rest => ?_
      cases rest <;> exact .pure _

theorem readBody_deeds : Within Deed readBody := by
  refine .bind getcStall_deeds fun got => ?_
  split
  · refine .bind (readExactly_deeds 4) fun header => ?_
    cases header with
    | none => exact .pure _
    | some lenb =>
      dsimp only
      split
      · exact .pure _
      · refine .bind (readExactly_deeds _) fun body => ?_
        cases body <;> exact .pure _
  · exact .pure _

theorem emitRpc_deeds (request : RpcId) (reply : State → Reply) : Within Deed (emitRpc request reply) := by
  refine withoutInterrupts_deeds (.bind nextId_within.deeds fun serial => .bind (read_within _).deeds fun reply => ?_)
  split
  · exact send_deeds serial trivial
  · exact send_deeds serial trivial

theorem respondResult_deeds (request : RpcId) (result : State → Result) : Within Deed (respondResult request result) :=
  .bind (emitRpc_deeds request _) fun _ => .pure none

theorem respondError_deeds (request : RpcId) (code : Int) (message : String) : Within Deed (respondError request code message) :=
  .bind (emitRpc_deeds request _) fun _ => .pure none

theorem opSeen_deed (op : Option Bytes) : Within Deed (onCore (opSeen op)) := by
  refine onCore_deed (fun core => ?_) (fun core => ?_) fun core => ?_
  · unfold opSeen
    split
    · exact List.prefix_refl _
    · split
      · exact List.prefix_refl _
      · exact List.prefix_append _ _
  all_goals
    unfold opSeen
    split
    · rfl
    · split <;> rfl

/-- The idempotency check in front of a tool. -/
theorem onceOnly_deeds (request : RpcId) (op : Option Bytes) {tool : Kernel (Option Next)} (within : Within Deed tool) :
    Within Deed (do if ← onCore (opSeen op) then respondDuplicate request op else tool) := by
  refine .bind (opSeen_deed op) fun seen => ?_
  split
  · exact .bind (note_deed _) fun _ => respondResult_deeds request _
  · exact within

theorem runSuite_deeds (request : RpcId) (op : Option Bytes) (params : Bytes) :
    Within Deed (runSuite build request op params) := by
  unfold runSuite
  dsimp only
  split
  · exact respondError_deeds _ _ _
  · refine .bind (readCore_within _).deeds fun alive => ?_
    split
    · exact respondError_deeds _ _ _
    · exact onceOnly_deeds request op (.bind (note_deed _) fun _ => .bind (respondResult_deeds _ _) fun _ => .pure _)

theorem crash_deeds (request : RpcId) (op : Option Bytes) : Within Deed (Rpc.crash request op) := by
  refine .bind (readCore_within _).deeds fun alive => ?_
  split
  · exact respondError_deeds _ _ _
  · exact onceOnly_deeds request op (.bind (note_deed _) fun _ => .bind (respondResult_deeds _ _) fun _ => .pure _)

theorem kill_deeds (request : RpcId) (op : Option Bytes) (params : Bytes) : Within Deed (kill build request op params) := by
  unfold kill
  split
  · exact respondError_deeds _ _ _
  · refine onceOnly_deeds request op (.bind (killPid_within _).deeds fun killed => ?_)
    cases killed with
    | ok elapsed => exact .bind (note_deed _) fun _ => respondResult_deeds _ _
    | error reason => exact .bind (note_deed _) fun _ => respondError_deeds _ _ _

theorem setBudget_deeds (request : RpcId) (op : Option Bytes) (params : Bytes) : Within Deed (setBudget request op params) := by
  unfold setBudget
  split
  · exact respondError_deeds _ _ _
  · split
    · exact respondError_deeds _ _ _
    · refine onceOnly_deeds request op (.bind (onCore_within (setDeadline_record _ _)).deeds fun set => ?_)
      cases set with
      | ok done => exact .bind (note_deed _) fun _ => respondResult_deeds _ _
      | error reason => exact .bind (note_deed _) fun _ => respondError_deeds _ _ _

/-- A dial is set and confirmed. -/
theorem dial_deeds (request : RpcId) {update : Core → Core} {result : State → Result}
    (journal : ∀ core, (update core).journal = core.journal) (table : ∀ core, (update core).table = core.table)
    (ledger : ∀ core, (update core).ledger = core.ledger) :
    Within Deed (do modifyCore update; respondResult request result) :=
  .bind (modifyCore_deed journal table ledger) fun _ => respondResult_deeds request result

theorem setSurface_deeds (request : RpcId) (params : Bytes) : Within Deed (setSurface request params) := by
  unfold setSurface
  dsimp only
  split
  · exact dial_deeds request (fun _ => rfl) (fun _ => rfl) fun _ => rfl
  · split
    · exact dial_deeds request (fun _ => rfl) (fun _ => rfl) fun _ => rfl
    · exact respondError_deeds _ _ _

theorem setAutonomy_deeds (request : RpcId) (params : Bytes) : Within Deed (setAutonomy request params) := by
  unfold setAutonomy
  dsimp only
  split
  · exact dial_deeds request (fun _ => rfl) (fun _ => rfl) fun _ => rfl
  · split
    · exact dial_deeds request (fun _ => rfl) (fun _ => rfl) fun _ => rfl
    · exact respondError_deeds _ _ _

theorem handleToolsCall_deeds (request : RpcId) (json : Bytes) : Within Deed (handleToolsCall build request json) := by
  unfold handleToolsCall
  dsimp only
  split
  · exact respondError_deeds _ _ _
  split
  · exact runSuite_deeds _ _ _
  split
  · exact crash_deeds _ _
  split
  · exact kill_deeds _ _ _
  split
  · exact setBudget_deeds _ _ _
  split
  · exact respondResult_deeds _ _
  split
  · exact setSurface_deeds _ _
  split
  · exact setAutonomy_deeds _ _
  · exact respondError_deeds _ _ _

theorem handleResourcesRead_deeds (request : RpcId) (json : Bytes) : Within Deed (handleResourcesRead build request json) := by
  unfold handleResourcesRead
  dsimp only
  split
  · exact respondError_deeds _ _ _
  iterate 7
    split
    · exact respondResult_deeds _ _
  · exact respondError_deeds _ _ _

theorem dispatch_deeds (json : Bytes) : Within Deed (dispatch build json) := by
  unfold dispatch
  dsimp only
  split
  · exact respondError_deeds _ _ _
  split
  · exact respondResult_deeds _ _
  split
  · exact respondResult_deeds _ _
  split
  · exact handleToolsCall_deeds _ _
  split
  · exact respondResult_deeds _ _
  split
  · exact handleResourcesRead_deeds _ _
  · exact respondError_deeds _ _ _

theorem readRequest_deeds : Within Deed (readRequest build) := by
  refine .bind (modifyCore_deed (fun _ => rfl) (fun _ => rfl) fun _ => rfl) fun _ =>
    .bind readBody_deeds fun body => .bind ?_ fun next => ?_
  · cases body with
    | none => exact .pure _
    | some json => exact .bind (note_deed _) fun _ => dispatch_deeds json
  · refine .bind (modifyCore_deed (fun core => ?_) (fun core => ?_) fun core => ?_) fun _ => .pure _
    all_goals
      split <;> rfl

end Requests

section Loops
open Main

theorem emitRingDump_deeds : Within Deed emitRingDump := emitRingDump_within.deeds

theorem command_deeds (byte : UInt8) : Within Deed (command build byte) := by
  unfold command
  split
  · exact .map _ readRequest_deeds
  split
  · exact .bind emitRingDump_deeds fun _ => .pure _
  split
  · exact .pure _
  · split <;> exact .pure _

theorem strayKey_deeds (byte : UInt8) : Within Deed (strayKey build byte) := by
  unfold strayKey
  split
  · refine onCore_deed (fun core => ?_) (fun core => ?_) fun core => ?_
    · unfold swallowStrayKey
      split
      · exact List.prefix_append _ _
      · split
        · exact List.prefix_append _ _
        · exact List.prefix_refl _
    all_goals
      unfold swallowStrayKey
      split
      · rfl
      · split <;> rfl
  · exact .pure false

theorem idle_deeds : Within Deed (idle build) := by
  refine .bind consoleGetchar_deed fun got => ?_
  cases got with
  | none => exact .pure _
  | some byte =>
    refine .bind (strayKey_deeds byte) fun stray => ?_
    split
    · exact .pure _
    · exact .bind (note_deed _) fun _ => command_deeds byte

theorem serviceConsole_deeds : Within Deed (serviceConsole build) := by
  refine .bind (onCore_deed (fun _ => List.prefix_refl _) (fun _ => rfl) fun _ => rfl) fun stashed => .bind ?_ fun got => ?_
  · cases stashed with
    | none => exact consoleGetchar_deed
    | some byte => exact .pure _
  · cases got with
    | none => exact .pure _
    | some byte =>
      refine .bind (note_deed _) fun _ => ?_
      split
      · exact .map _ readRequest_deeds
      · split
        · exact .bind emitRingDump_deeds fun _ => .pure _
        · exact .pure _

theorem run_deeds : Within Deed Payload.run :=
  .bind (modifyCore_deed (fun _ => rfl) (fun _ => rfl) fun _ => rfl) fun _ => .bind (modifyCore_deed (fun _ => rfl) (fun _ => rfl) fun _ => rfl) fun _ =>
    .bind (modifyCore_within reapTerminated_record).deeds fun _ => .bind (modifyCore_deed (fun _ => rfl) (fun _ => rfl) fun _ => rfl) fun _ =>
      .pure _

theorem schedule_deeds : Within Deed schedule := by
  refine .bind (modifyCore_deed (fun _ => rfl) (fun _ => rfl) fun _ => rfl) fun _ =>
    .bind (modifyCore_within reapTerminated_record).deeds fun _ => .bind (readCore_within _).deeds fun found => ?_
  cases found with
  | some pid => exact .pure _
  | none =>
    refine .bind (readCore_within _).deeds fun owed => .bind (readCore_within _).deeds fun last => ?_
    split
    · exact .bind (modifyCore_deed (fun _ => rfl) (fun _ => rfl) fun _ => rfl) fun _ => .pure _
    · exact .pure _

theorem loadFailed_deeds {reason : String} (named : IsName reason) : Within Deed (loadFailed pid reason) := by
  have told : Within Unnoticed (emitLoadFault pid reason) := emit_within (fun _ => rfl) fun _ => ⟨imageName_isName _, named⟩
  refine .bind (modifyCore_deed (fun _ => rfl) (fun _ => rfl) fun _ => rfl) fun _ =>
    .bind (modifyCore_within fun core => ?_).deeds fun _ => .bind told.deeds fun _ => .pure _
  exact (noteStart_record core pid).trans (setSlot_record _ pid (by exact fun _ _ => ⟨by simp, rfl⟩))

theorem start_deeds (pid : Pid) : Within Deed (start build pid) := by
  refine .bind (modifyCore_deed (fun _ => rfl) (fun _ => rfl) fun _ => rfl) fun _ => ?_
  -- the reason is known only once the load has been tried, so the action is opened by hand
  refine fun state => ⟨(begin_record pid state).deed, ?_⟩
  dsimp only
  cases begun : (begin build pid state).1 with
  | ok launch => exact .pure _
  | error reason => exact loadFailed_deeds (begin_reason begun)

theorem finish_deeds : Within Deed finish :=
  .bind emitSuiteDone_within.deeds fun _ => .bind (modifyCore_deed (fun _ => rfl) (fun _ => rfl) fun _ => rfl) fun _ => .pure _

/-- The code behind a hand-over. -/
theorem code_deeds (next : Next) : Within Deed (code build next) := by
  cases next with
  | idle => exact idle_deeds
  | run => exact run_deeds
  | service => exact serviceConsole_deeds
  | schedule => exact schedule_deeds
  | seed suite =>
    refine .bind (.modifyGet fun state => ?_) fun _ => .pure _
    obtain ⟨books, -, begins⟩ := seed_books suite state.core
    exact ⟨⟨.ofCore (books.journal ▸ List.prefix_refl _), .same rfl, rfl,
      fun same => absurd (begins.symm.trans same) (Nat.succ_ne_self _)⟩, rfl⟩
  | restore sid => exact (restore_within sid).deeds
  | start pid => exact start_deeds pid
  | launch details => exact (launch_within details).deeds
  | finish => exact finish_deeds
  | resumeUser satp frame => exact .pure _
  | crash => exact .pure _
  | panicked => exact .pure _

end Loops

end Code

end Kernai
