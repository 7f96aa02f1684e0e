import Kernai.Proofs.Turns

/-! The readers of the serial line and the request handlers, turn by turn. -/

namespace Kernai
open Foundation Program Kernel Payload Rpc Json

variable {build : Build} {core : Core} {state state' : State} {turns : List Turn} {draft : Draft} {body : Bytes}

section Drafts

theorem Amid.note (amid : Amid build turns draft state) (entry : Note) :
    Amid build turns (draft.note entry) { state with core := state.core.note entry } :=
  { amid with journal := by simp [Core.note, Draft.note, amid.journal] }

theorem Amid.take (amid : Amid build turns draft state) (rx bytes : Bytes) :
    Amid build turns (draft.take bytes) { state with env := { state.env with rx, read := state.env.read ++ bytes } } :=
  { amid with read := by simp [Draft.take, amid.read] }

theorem Amid.record (amid : Amid build turns draft state) (op : Bytes) :
    Amid build turns (draft.record op) { state with core := opRecord (fnv1a op) (state.core.note (.recorded op)) } where
  journal := by simp [opRecord, Core.note, Draft.record, amid.journal]
  read := amid.read
  formed := amid.formed
  replies := amid.replies
  ring := by
    have pushed := amid.ring.push (fnv1a op)
    have place : (hashesOf turns ++ draft.ops.map fnv1a).length % state.core.opIds.length = state.core.opHead % opSlots := by
      rw [List.length_append, List.length_map, ← amid.head, amid.slots]
    rw [place] at pushed
    simpa [Draft.record, opRecord, Core.note] using pushed
  slots := by simp [opRecord, Core.note, amid.slots]
  head := by
    simp only [opRecord, Core.note, Draft.record, List.length_append, List.length_singleton, amid.head]
    omega
  checked := amid.checked

/-- What a search for an operation id finds. -/
theorem Amid.contains_iff (amid : Amid build turns draft state) (blank : draft.ops = []) (op : Bytes) :
    state.core.opIds.contains (fnv1a op) = true ↔ fnv1a op ∈ recent opSlots (hashesOf turns) := by
  have written : fnv1a op ≠ 0 := by
    intro none
    have odd : (fnv1a op).testBit 0 = true := by simp [fnv1a, Nat.testBit_or]
    rw [none] at odd
    simp at odd
  have ring := amid.ring
  rw [blank, List.map_nil, List.append_nil] at ring
  rw [List.contains_iff_mem, ring.mem_iff written, amid.slots]

end Drafts

section Line

theorem note_line (entry : Note) :
    Runs lineRules (Drafting build turns draft) (note entry) fun _ => Drafting build turns (draft.note entry) :=
  act_line (fun _ => drafting_onRecord) (fun _ holds => holds.stacked) fun _ holds =>
    ⟨.of_same rfl rfl, holds.amid.note entry, holds.stacked.same rfl rfl (Nat.le_refl _), holds.unstashed, holds.keyed⟩

theorem consoleGetchar_line :
    Runs lineRules (Drafting build turns draft) consoleGetchar fun got => Drafting build turns (draft.take got.toList) :=
  act_line (fun _ => drafting_onRecord) (fun _ holds => holds.stacked) fun _ holds =>
    ⟨.of_same rfl rfl, holds.amid.take _ _, holds.stacked, holds.unstashed, holds.keyed⟩

theorem Draft.take_nil (draft : Draft) : draft.take [] = draft := by simp [Draft.take]

theorem getcFrom_line (waits : Nat) :
    Runs lineRules (Drafting build turns draft) (getcFrom waits) fun got => Drafting build turns (draft.take got.toList) := by
  induction waits with
  | zero => exact consoleGetchar_line
  | succ waits ih =>
    refine consoleGetchar_line.bind fun got => ?_
    cases got with
    | none =>
      rw [Option.toList_none, Draft.take_nil]
      exact ih
    | some byte => exact .pure fun _ holds => holds

theorem Draft.framed_append (draft : Draft) (first second : Bytes) :
    (draft.framed first).framed second = draft.framed (first ++ second) := by
  simp [Draft.framed]

theorem Draft.framed_nil (draft : Draft) : draft.framed [] = draft := by simp [Draft.framed]

/-- What a read inside a frame leaves: the bytes it wanted, or the line stalled. -/
def Got (build : Build) (turns : List Turn) (draft : Draft) (count : Nat) : Option Bytes → State → Prop
  | some bytes, state => bytes.length = count ∧ Drafting build turns (draft.framed bytes) state
  | none, state => ∃ bytes, Drafting build turns ((draft.framed bytes).note .stalled) state

theorem getcStall_line :
    Runs lineRules (Drafting build turns draft) getcStall fun got => Got build turns draft 1 (got.map fun byte => [byte]) := by
  refine (getcFrom_line maxStallWaits).bind fun got => ?_
  cases got with
  | none =>
    refine (note_line .stalled).bind fun _ => .pure fun state holds => ⟨[], ?_⟩
    rw [Option.toList_none, Draft.take_nil] at holds
    rw [Draft.framed_nil]
    exact holds
  | some byte => exact (note_line _).bind fun _ => .pure fun state holds => ⟨rfl, holds⟩

theorem readExactly_line (count : Nat) :
    Runs lineRules (Drafting build turns draft) (readExactly count) (Got build turns draft count) := by
  induction count generalizing draft with
  | zero =>
    refine .pure fun state holds => ⟨rfl, ?_⟩
    rw [Draft.framed_nil]
    exact holds
  | succ count ih =>
    refine getcStall_line.bind fun got => ?_
    cases got with
    | none => exact .pure fun state holds => holds
    | some byte =>
      refine .given Undisturbed.refl fun _ => ih.bind fun rest => ?_
      cases rest with
      | none =>
        refine .pure fun state ⟨bytes, holds⟩ => ⟨[byte] ++ bytes, ?_⟩
        rw [Draft.framed_append] at holds
        exact holds
      | some rest =>
        refine .pure fun state ⟨length, holds⟩ => ⟨congrArg Nat.succ length, ?_⟩
        rw [Draft.framed_append] at holds
        exact holds

/-- What reading a request frame past its first byte comes to. -/
def Fetched (build : Build) (turns : List Turn) (draft : Draft) : Option Bytes → State → Prop
  | some body, state => ∃ inside, Framed inside body ∧ Drafting build turns (draft.framed inside) state
  | none, state => (∃ inside, Dropped inside ∧ Drafting build turns (draft.framed inside) state) ∨
      ∃ inside, Drafting build turns ((draft.framed inside).note .stalled) state

theorem Got.stalled {count : Nat} {first : Bytes} (got : Got build turns (draft.framed first) count none state) :
    Fetched build turns draft none state := by
  obtain ⟨bytes, holds⟩ := got
  rw [Draft.framed_append] at holds
  exact .inr ⟨first ++ bytes, holds⟩

theorem readBody_line : Runs lineRules (Drafting build turns draft) readBody (Fetched build turns draft) := by
  refine getcStall_line.bind fun second => ?_
  split
  next isMagic =>
    subst isMagic
    refine .given Undisturbed.refl fun _ => (readExactly_line 4).bind fun lenb => ?_
    cases lenb with
    | none => exact .pure fun state got => got.stalled
    | some lenb =>
      refine .given Undisturbed.refl fun four => ?_
      rw [Draft.framed_append]
      dsimp only
      split
      next bad => exact .pure fun state holds => .inl ⟨_, .length lenb four rfl (not_not.mpr bad), holds⟩
      next good =>
        refine (readExactly_line _).bind fun json => ?_
        cases json with
        | none => exact .pure fun state got => got.stalled
        | some json =>
          refine .pure fun state ⟨length, holds⟩ => ?_
          rw [Draft.framed_append] at holds
          split
          next accepted => exact ⟨_, .mk lenb four (List.append_assoc [0x99] lenb json) length good accepted, holds⟩
          next refused => exact .inl ⟨_, .body lenb json four (List.append_assoc [0x99] lenb json) length good refused, holds⟩
  next other =>
    cases second with
    | none => exact .pure fun state holds => .inr holds
    | some byte => exact .pure fun state holds => .inl ⟨_, .magic byte (fun same => other (congrArg some same)) rfl, holds.2⟩

end Line

section Responses

/-- The request has its response. -/
def Replied (build : Build) (turns : List Turn) (draft : Draft) (body : Bytes) (state : State) : Prop :=
  ∃ what, Answers body what ∧ Drafting build turns (draft.reply what) state

theorem replied_onRecord : OnRecord (Replied build turns draft body) :=
  fun _ _ same ⟨what, answers, holds⟩ => ⟨what, answers, drafting_onRecord _ _ same holds⟩

theorem replied_within {α : Type} {program : Kernel α} (within : Within Unnoticed program) :
    Runs lineRules (Replied build turns draft body) program fun _ => Replied build turns draft body :=
  replied_onRecord.runs (fun _ ⟨_, _, holds⟩ => holds.stacked) within

theorem Amid.reply (amid : Amid build turns draft state) {what : Emission} (isReply : what.isReply = true) (entry : Entry)
    (isEntry : entry.what = what) :
    Amid build turns (draft.reply what) { state with env := { state.env with log := state.env.log ++ [entry] } } :=
  { amid with
    replies := by
      obtain ⟨settled, answered, log⟩ := amid.replies
      refine ⟨settled, answered, ?_⟩
      rw [repliesOf_concat, isEntry, isReply, log, Draft.reply]
      simp }

theorem send_line (serial : Nat) {event : Event} (fits : (event.frameBuf (idOf serial)).overflow = false)
    (isReply : (Emission.frame serial event).isReply = true) (answers : Answers body (.frame serial event)) :
    Runs lineRules (Drafting build turns draft) (send serial event) fun _ => Replied build turns draft body := by
  have recorded : Runs lineRules (Drafting build turns draft) (Kernel.record (.frame serial event))
      fun _ => Replied build turns draft body := by
    intro state always current moves
    obtain ⟨amid, stacked, unstashed, keyed⟩ := always current moves
    refine ⟨stacked, .of_same rfl rfl, fun later follows => replied_onRecord.stable _ later follows ?_⟩
    exact ⟨_, answers, amid.reply isReply _ rfl, stacked, unstashed, keyed⟩
  unfold send
  rw [fits]
  exact recorded.bind fun _ => replied_within (putAll_within _)

theorem withoutInterrupts_line {α : Type} {program : Kernel α} {P : State → Prop} {Q : α → State → Prop} (before : OnRecord P)
    (after : ∀ value, OnRecord (Q value)) (stacked : ∀ state, P state → Stacked 1 state.core)
    (stacked' : ∀ value state, Q value state → Stacked 1 state.core) (runs : Runs lineRules P program Q) :
    Runs lineRules P (withoutInterrupts program) Q := by
  refine (before.runs stacked (onEnv_within (fun _ => rfl) (fun _ => rfl) (fun _ => rfl) fun _ => rfl)).bind fun prev => runs.bind fun out => ?_
  cases prev with
  | false => exact .pure fun _ holds => holds
  | true =>
    exact ((after out).runs (stacked' out) (onEnv_within (fun _ => rfl) (fun _ => rfl) (fun _ => rfl) fun _ => rfl)).bind fun _ => .pure fun _ holds => holds

/-- The response to a request, once. -/
theorem emitRpc_line {reply : State → Reply} (apt : ∀ state, Apt body (reply state)) :
    Runs lineRules (Drafting build turns draft) (emitRpc (requestOf body) reply) fun _ => Replied build turns draft body := by
  rw [emitRpc_eq]
  refine withoutInterrupts_line drafting_onRecord (fun _ => replied_onRecord) (fun _ holds => holds.stacked)
    (fun _ _ ⟨_, _, holds⟩ => holds.stacked) ((drafting_within nextId_within).bind fun serial => ?_)
  intro state always current moves
  have drafting := always current moves
  refine ⟨drafting.stacked, .of_same rfl rfl, ?_⟩
  have here : lineRules.Always (Drafting build turns draft) current :=
    fun later follows => drafting_onRecord.stable _ later follows drafting
  change Safe lineRules _ (send serial (answer (requestOf body) reply serial current)) current
  unfold answer
  split
  next exceeds => exact send_line serial (rpcTooLarge_fits serial) rfl ⟨serial, _, apt current, .inr ⟨exceeds, rfl⟩⟩ _ here
  next fits =>
    rw [Bool.not_eq_true] at fits
    exact send_line serial fits rfl ⟨serial, _, apt current, .inl ⟨fits, rfl⟩⟩ _ here

/-- A handler that returns to its caller has answered. -/
theorem respondResult_line {result : State → Result} (apt : ∀ state, Apt body (.result (result state))) :
    Runs lineRules (Drafting build turns draft) (respondResult (requestOf body) result)
      fun next state => next = none ∧ Replied build turns draft body state :=
  (emitRpc_line apt).bind fun _ => .pure fun _ holds => ⟨rfl, holds⟩

theorem respondError_line (code : Int) (message : String) :
    Runs lineRules (Drafting build turns draft) (respondError (requestOf body) code message)
      fun next state => next = none ∧ Replied build turns draft body state :=
  have emits : Runs lineRules (Drafting build turns draft) (emitRpc (requestOf body) fun _ => .error code message)
      fun _ => Replied build turns draft body := emitRpc_line fun _ => trivial
  emits.bind fun _ => .pure fun _ holds => ⟨rfl, holds⟩

end Responses

section Handlers

/-- A handler returns, starts a suite or crashes the kernel. -/
def Diverts (next : Option Next) : Prop := next = none ∨ (∃ suite, next = some (.seed suite)) ∨ next = some .crash

/-- The request has been dealt with. -/
def Concluded (build : Build) (turns : List Turn) (draft : Draft) (body : Bytes) (next : Option Next) (state : State) : Prop :=
  Diverts next ∧ ∃ check, check.After turns ∧ Replied build turns (draft.checked check) body state

/-- So it has, after the id check. -/
def Ruled (build : Build) (turns : List Turn) (draft : Draft) (body : Bytes) (op : Option Bytes) (next : Option Next)
    (state : State) : Prop :=
  Diverts next ∧ ∃ verdict, verdict ≠ .duplicate ∧ Replied build turns (draft.note (.answered op verdict)) body state

theorem concluded_unasked (next : Option Next) (state : State)
    (holds : next = none ∧ Replied build turns draft body state) : Concluded build turns draft body next state := by
  refine ⟨.inl holds.1, .unasked, trivial, ?_⟩
  rw [show draft.checked .unasked = draft by simp [Draft.checked, Check.notes, Check.recorded]]
  exact holds.2

theorem respondResult_concludes {result : State → Result} (apt : ∀ state, Apt body (.result (result state))) :
    Runs lineRules (Drafting build turns draft) (respondResult (requestOf body) result) (Concluded build turns draft body) :=
  (respondResult_line apt).weaken concluded_unasked

theorem respondError_concludes (code : Int) (message : String) :
    Runs lineRules (Drafting build turns draft) (respondError (requestOf body) code message) (Concluded build turns draft body) :=
  (respondError_line code message).weaken concluded_unasked

/-- The verdict is noted, then the response goes out. -/
theorem ruled_line {op : Option Bytes} {verdict : Verdict} (isRuling : verdict ≠ .duplicate) {respond : Kernel (Option Next)}
    (responds : Runs lineRules (Drafting build turns (draft.note (.answered op verdict))) respond
      fun next state => Diverts next ∧ Replied build turns (draft.note (.answered op verdict)) body state) :
    Runs lineRules (Drafting build turns draft) (do note (.answered op verdict); respond) (Ruled build turns draft body op) :=
  (note_line _).bind fun _ => responds.weaken fun _ _ ⟨diverts, replied⟩ => ⟨diverts, verdict, isRuling, replied⟩

theorem diverts_none (next : Option Next) (state : State) (holds : next = none ∧ Replied build turns draft body state) :
    Diverts next ∧ Replied build turns draft body state := ⟨.inl holds.1, holds.2⟩

/-- A response after which the handler goes elsewhere. -/
theorem respondThen_line {result : State → Result} (apt : ∀ state, Apt body (.result (result state))) {next : Option Next}
    (diverts : Diverts next) :
    Runs lineRules (Drafting build turns draft) (do let _ ← respondResult (requestOf body) result; return next)
      fun next state => Diverts next ∧ Replied build turns draft body state :=
  (respondResult_line apt).bind fun _ => .pure fun _ holds => ⟨diverts, holds.2⟩

/-- The id check: a replay, or the id is now recorded. -/
theorem opSeen_line (blank : draft.ops = []) (op : Option Bytes) :
    Runs lineRules (Drafting build turns draft) (onCore (opSeen op)) fun seen state =>
      if seen then (∃ replayed, op = some replayed ∧ fnv1a replayed ∈ recent opSlots (hashesOf turns)) ∧
        Drafting build turns draft state
      else (∀ fresh, op = some fresh → fnv1a fresh ∉ recent opSlots (hashesOf turns)) ∧
        Drafting build turns (draft.asked op) state := by
  refine act_line (fun seen => ?_) (fun _ holds => holds.stacked) fun state holds => ?_
  · cases seen with
    | true => exact fun _ _ same holds => ⟨holds.1, drafting_onRecord _ _ same holds.2⟩
    | false => exact fun _ _ same holds => ⟨holds.1, drafting_onRecord _ _ same holds.2⟩
  · cases op with
    | none => exact ⟨.of_same rfl rfl, nofun, holds⟩
    | some op =>
      have known := holds.amid.contains_iff blank op
      dsimp only [opSeen]
      split
      next found => exact ⟨.of_same rfl rfl, ⟨op, rfl, known.mp found⟩, holds⟩
      next missing =>
        refine ⟨.of_same rfl rfl, ?_, holds.amid.record op, holds.stacked.same rfl rfl (Nat.le_refl _), holds.unstashed, holds.keyed⟩
        intro fresh same found
        rw [← Option.some.inj same] at found
        exact missing (known.mpr found)

/-- A verb that may only be used once per `opId`. -/
theorem onceOnly_line (blank : draft.ops = []) {op : Option Bytes} (isOp : op = (member (paramsOf body) "opId").bind asString)
    {fresh : Kernel (Option Next)}
    (proceeds : Runs lineRules (Drafting build turns (draft.asked op)) fresh (Ruled build turns (draft.asked op) body op)) :
    Runs lineRules (Drafting build turns draft)
      (do if ← onCore (opSeen op) then respondDuplicate (requestOf body) op else fresh) (Concluded build turns draft body) := by
  refine (opSeen_line blank op).bind fun seen => ?_
  cases seen with
  | true =>
    refine .given Undisturbed.refl fun ⟨replayed, isReplay, found⟩ => ?_
    refine (note_line _).bind fun _ => (respondResult_line fun _ => ?_).weaken fun next state holds => ?_
    · rw [Apt, isOp]
    · refine ⟨.inl holds.1, .duplicate replayed, found, ?_⟩
      have same : draft.note (.answered op .duplicate) = draft.checked (.duplicate replayed) := by
        rw [isReplay]
        simp [Draft.note, Draft.checked, Check.notes, Check.recorded]
      rw [← same]
      exact holds.2
  | false =>
    refine .given Undisturbed.refl fun unseen => proceeds.weaken ?_
    rintro next state ⟨diverts, verdict, isRuling, replied⟩
    refine ⟨diverts, ?_⟩
    cases op with
    | none => exact ⟨.free verdict, trivial, by simpa [Draft.checked, Draft.asked, Draft.note, Check.notes, Check.recorded] using replied⟩
    | some op =>
      refine ⟨.fresh op verdict, ⟨unseen op rfl, isRuling⟩, ?_⟩
      simpa [Draft.checked, Draft.asked, Draft.note, Draft.record, Check.notes, Check.recorded] using replied

theorem drafting_read {α : Type} (view : Core → α) :
    Runs lineRules (Drafting build turns draft) (readCore view) fun _ => Drafting build turns draft :=
  drafting_within (readCore_within view)

theorem runSuite_line (blank : draft.ops = []) {op : Option Bytes} (isOp : op = (member (paramsOf body) "opId").bind asString) :
    Runs lineRules (Drafting build turns draft) (runSuite build (requestOf body) op (paramsOf body))
      (Concluded build turns draft body) := by
  unfold runSuite
  dsimp only
  split
  · exact respondError_concludes _ _
  next suite _ =>
    refine (drafting_read anyAlive).bind fun alive => ?_
    cases alive with
    | true => exact respondError_concludes _ _
    | false =>
      refine onceOnly_line blank isOp (ruled_line (by decide) (respondThen_line (fun _ => ?_) (.inr (.inl ⟨suite, rfl⟩))))
      exact rfl

theorem crash_line (blank : draft.ops = []) {op : Option Bytes} (isOp : op = (member (paramsOf body) "opId").bind asString) :
    Runs lineRules (Drafting build turns draft) (crash (requestOf body) op) (Concluded build turns draft body) := by
  refine (drafting_read anyAlive).bind fun alive => ?_
  cases alive with
  | true => exact respondError_concludes _ _
  | false =>
    refine onceOnly_line blank isOp (ruled_line (by decide) (respondThen_line (fun _ => ?_) (.inr (.inr rfl))))
    exact trivial

theorem kill_line (blank : draft.ops = []) {op : Option Bytes} (isOp : op = (member (paramsOf body) "opId").bind asString) :
    Runs lineRules (Drafting build turns draft) (kill build (requestOf body) op (paramsOf body))
      (Concluded build turns draft body) := by
  unfold kill
  split
  · exact respondError_concludes _ _
  · refine onceOnly_line blank isOp ((drafting_within (killPid_within _)).bind fun result => ?_)
    cases result with
    | ok elapsed =>
      refine ruled_line (by decide) ((respondResult_line fun _ => ?_).weaken diverts_none)
      exact trivial
    | error reason => exact ruled_line (by decide) ((respondError_line _ _).weaken diverts_none)

theorem setBudget_line (blank : draft.ops = []) {op : Option Bytes} (isOp : op = (member (paramsOf body) "opId").bind asString) :
    Runs lineRules (Drafting build turns draft) (setBudget (requestOf body) op (paramsOf body))
      (Concluded build turns draft body) := by
  unfold setBudget
  split
  · exact respondError_concludes _ _
  · split
    · exact respondError_concludes _ _
    · refine onceOnly_line blank isOp ((drafting_within (onCore_within (setDeadline_record _ _))).bind fun result => ?_)
      cases result with
      | ok done =>
        refine ruled_line (by decide) ((respondResult_line fun _ => ?_).weaken diverts_none)
        exact trivial
      | error reason => exact ruled_line (by decide) ((respondError_line _ _).weaken diverts_none)

/-- `set_surface` and `set_autonomy`: a dial is turned, then the response says so. -/
theorem dial_line {update : Core → Core} (same : ∀ core, SameRecord core (update core)) {result : State → Result}
    (apt : ∀ state, Apt body (.result (result state))) :
    Runs lineRules (Drafting build turns draft) (do modifyCore update; respondResult (requestOf body) result)
      (Concluded build turns draft body) :=
  (drafting_within (modifyCore_within same)).bind fun _ => respondResult_concludes apt

theorem setSurface_line (params : Bytes) :
    Runs lineRules (Drafting build turns draft) (setSurface (requestOf body) params) (Concluded build turns draft body) := by
  have same : ∀ (classic : Bool) (core : Core), SameRecord core { core with classicSurface := classic } :=
    fun _ _ => ⟨rfl, rfl, rfl, rfl, rfl, rfl, rfl, .same rfl rfl⟩
  unfold setSurface
  dsimp only
  split
  · exact dial_line (same true) fun _ => trivial
  · split
    · exact dial_line (same false) fun _ => trivial
    · exact respondError_concludes _ _

theorem setAutonomy_line (params : Bytes) :
    Runs lineRules (Drafting build turns draft) (setAutonomy (requestOf body) params) (Concluded build turns draft body) := by
  have same : ∀ (autonomous : Bool) (core : Core), SameRecord core { core with autonomous } :=
    fun _ _ => ⟨rfl, rfl, rfl, rfl, rfl, rfl, rfl, .same rfl rfl⟩
  unfold setAutonomy
  dsimp only
  split
  · exact dial_line (same true) fun _ => trivial
  · split
    · exact dial_line (same false) fun _ => trivial
    · exact respondError_concludes _ _

theorem handleToolsCall_line (blank : draft.ops = []) :
    Runs lineRules (Drafting build turns draft) (handleToolsCall build (requestOf body) body)
      (Concluded build turns draft body) := by
  unfold handleToolsCall
  dsimp only
  split
  · exact respondError_concludes _ _
  · split
    · exact runSuite_line blank rfl
    · split
      · exact crash_line blank rfl
      · split
        · exact kill_line blank rfl
        · split
          · exact setBudget_line blank rfl
          · split
            · exact respondResult_concludes fun _ => trivial
            · split
              · exact setSurface_line _
              · split
                · exact setAutonomy_line _
                · exact respondError_concludes _ _

theorem processRows_apt (state : State) : Apt body (.result (.processes (processRows state.core))) := by
  intro row member
  obtain ⟨pid, -, rfl⟩ := List.mem_map.mp member
  exact ⟨_, rfl⟩

theorem handleResourcesRead_line :
    Runs lineRules (Drafting build turns draft) (handleResourcesRead build (requestOf body) body)
      (Concluded build turns draft body) := by
  unfold handleResourcesRead
  dsimp only
  split
  · exact respondError_concludes _ _
  · repeat' split
    · exact respondResult_concludes fun _ => trivial
    · exact respondResult_concludes processRows_apt
    · exact respondResult_concludes fun _ => trivial
    · exact respondResult_concludes fun _ => trivial
    · exact respondResult_concludes fun _ => trivial
    · exact respondResult_concludes fun _ => trivial
    · exact respondResult_concludes fun _ => trivial
    · exact respondError_concludes _ _

theorem dispatch_line (blank : draft.ops = []) :
    Runs lineRules (Drafting build turns draft) (dispatch build body) (Concluded build turns draft body) := by
  unfold dispatch
  dsimp only
  split
  · exact respondError_concludes _ _
  · split
    · exact respondResult_concludes fun _ => trivial
    · split
      · exact respondResult_concludes fun _ => trivial
      · split
        · exact handleToolsCall_line blank
        · split
          · exact respondResult_concludes fun _ => trivial
          · split
            · exact handleResourcesRead_line
            · exact respondError_concludes _ _

end Handlers

end Kernai
