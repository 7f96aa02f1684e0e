import Kernai.Proofs.Handler

/-! Kernel code that runs while nobody is current. Ticks may come between any two
of its actions wherever interrupts are on; they report themselves and no more. -/

namespace Kernai
open Foundation Program Kernel Payload

variable {tight : Prop} {held : Held} {build : Build} {state state' : State} {pid : Pid} {more : List Entry} {α : Type}

/-- The invariant between any two actions of the machine. -/
structure Inv (tight : Prop) (held : Held) (state : State) : Prop where
  core : CoreInv tight held state.core
  log : LogInv state.core state.env.log
  stream : Stream state.env
  whole : state.env.sie = true → Whole state.env

theorem Calm.inv (calm : Calm tight held state) : Inv tight held state :=
  ⟨calm.core, calm.log, calm.stream, fun _ => calm.whole⟩

theorem Inv.calm (inv : Inv tight held state) (enabled : state.env.sie = true) : Calm tight held state :=
  ⟨inv.core, inv.log, inv.stream, inv.whole enabled⟩

/-- What ticks and the serial line do while nobody is current. -/
structure Interferes (state state' : State) : Prop where
  ticks : ∃ more, Emits state state' more ∧ OnlyTicks state.core more
  masked : state.env.sie = false → state'.env = { state.env with rx := state'.env.rx }

theorem Interferes.core (interferes : Interferes state state') : state'.core = state.core := by
  obtain ⟨more, emits, -⟩ := interferes.ticks
  exact emits.core

theorem Interferes.sie (interferes : Interferes state state') : state'.env.sie = state.env.sie := by
  obtain ⟨more, emits, -⟩ := interferes.ticks
  exact emits.sie

theorem Interferes.refl (state : State) : Interferes state state := ⟨⟨[], .refl state, nofun⟩, fun _ => rfl⟩

theorem Interferes.trans {state'' : State} (left : Interferes state state') (right : Interferes state' state'') :
    Interferes state state'' := by
  obtain ⟨more, emits, only⟩ := left.ticks
  obtain ⟨later, emits', only'⟩ := right.ticks
  refine ⟨⟨more ++ later, emits.trans emits', fun entry member => ?_⟩, fun masked => ?_⟩
  · rw [left.core] at only'
    exact (List.mem_append.mp member).elim (only entry) (only' entry)
  · rw [right.masked (left.sie.trans masked), left.masked masked]

theorem Interferes.receive (state : State) (byte : UInt8) : Interferes state (Machine.receive state byte) :=
  ⟨⟨[], .quiet rfl rfl rfl (Nat.le_refl _), nofun⟩, fun _ => rfl⟩

/-- The core once `emit_start` has noted the id of the event. -/
def announcedCore (core : Core) (pid : Pid) (serial : Nat) : Core :=
  setSlot core pid fun slot => { slot with startEvent := .ofNat serial }

/-- What one action of the kernel does to the state. Only `announces` and `reports`
name a payload in what they emit. -/
inductive Transits (tight : Prop) (held : Held) (state state' : State) : Prop
  | moves (moves : Moves state state') (unnamed : Unnamed state state')
      (idle : state.core.current = none ∨ state'.core = state.core)
  | seeds (quiescent : Quiescent state.core) (reseeded : Reseeded state.core state'.core)
      (log : state'.env.log = state.env.log)
  | starts (pid : Pid) (launch : Launch) (startable : Startable state.core pid)
      (begun : Begun tight held pid state.core launch state'.core) (enabled : state'.env.sie = true)
      (log : state'.env.log = state.env.log)
  | anchors (pid : Pid) (serial : Nat) (current : state.core.current = some pid)
      (running : (state.core.table pid).state = .running)
      (spoken : (∀ root frame, ¬ held pid root frame) → state.core.ledger.silent = false)
      (unanchored : (∀ root frame, ¬ held pid root frame) → (state.core.table pid).startEvent = 0)
      (core : state'.core = announcedCore state.core pid serial) (log : state'.env.log = state.env.log)
  | announces (pid : Pid) (what : Emission) (current : state.core.current = some pid)
      (running : (state.core.table pid).state = .running)
      (spoken : (∀ root frame, ¬ held pid root frame) → state.core.ledger.silent = false)
      (core : state'.core = state.core) (log : state'.env.log = state.env.log ++ [stamp state.core what])
      (start : what.startOf = some pid)
  | reports (pid : Pid) (what : Emission) (terminal : (state.core.table pid).state.terminal = true)
      (core : state'.core = state.core) (log : state'.env.log = state.env.log ++ [stamp state.core what])
      (isEnd : what.endOf = some pid) (cause : what.causedBy ≠ some 0)

theorem Transits.of_core (evolves : Evolves state.core state'.core) (nobody : state.core.current = none)
    (log : state'.env.log = state.env.log) : Transits tight held state state' :=
  .moves (.of_core evolves log) (.of_log log) (.inl nobody)

theorem Transits.of_env (core : state'.core = state.core) (log : state'.env.log = state.env.log) :
    Transits tight held state state' :=
  .moves (.of_core (by rw [core]; exact .refl _) log) (.of_log log) (.inr core)

/-- This entry may be made while the core is this one. -/
def Permits (tight : Prop) (held : Held) (core : Core) (entry : Entry) : Prop :=
  ∀ before after : State, before.core = core → after.core = core → after.env.log = before.env.log ++ [entry] →
    Transits tight held before after

theorem permits_plain {core : Core} {what : Emission} (noStart : what.startOf = none) (unnamed : what.pidOf = none) :
    Permits tight held core (stamp core what) := by
  intro before after same same' log
  refine .moves ⟨by rw [same, same']; exact .refl _, _, log, fun entry member => ?_⟩
    ⟨_, log, fun entry member => by rw [List.mem_singleton.mp member]; exact unnamed⟩ (.inr (same'.trans same.symm))
  rw [List.mem_singleton.mp member, same]
  exact ⟨⟨noStart, fun pid names => by rw [show (stamp core what).what.pidOf = none from unnamed] at names; cases names⟩, rfl,
    fun _ _ => rfl⟩

theorem permits_report {core : Core} {what : Emission} (isEnd : what.endOf = some pid)
    (terminal : (core.table pid).state.terminal = true) (cause : what.causedBy ≠ some 0) :
    Permits tight held core (stamp core what) := by
  intro before after same same' log
  exact .reports pid what (same ▸ terminal) (same'.trans same.symm) (same ▸ log) isEnd cause

/-- The rules for kernel code: whenever it can be interrupted, nobody is current. -/
def kernelRules (tight : Prop) (held : Held) : Rules State where
  valid state := Inv tight held state ∧ (state.env.sie = true → state.core.current = none)
  interference := Interferes
  guarantee := Transits tight held

theorem Inv.valid (inv : Inv tight held state) (masked : state.env.sie = false) : (kernelRules tight held).valid state :=
  ⟨inv, fun enabled => absurd (masked.symm.trans enabled) nofun⟩

/-- The state between two actions of the scheduler or of the idle loop. -/
structure Steady (tight : Prop) (held : Held) (state : State) : Prop where
  calm : Calm tight held state
  enabled : state.env.sie = true
  nobody : state.core.current = none

theorem Steady.valid (steady : Steady tight held state) : (kernelRules tight held).valid state :=
  ⟨steady.calm.inv, fun _ => steady.nobody⟩

theorem Steady.interferes (steady : Steady tight held state) (interferes : Interferes state state') :
    Steady tight held state' := by
  obtain ⟨more, emits, only⟩ := interferes.ticks
  exact ⟨(steady.calm.emits emits only.harmless).1, interferes.sie.trans steady.enabled, by rw [emits.core]; exact steady.nobody⟩

/-- Steady, with a fact about the core state, which no tick can change. -/
def steadily (tight : Prop) (held : Held) (P : Core → Prop) (state : State) : Prop := Steady tight held state ∧ P state.core

theorem steadily_always {P : Core → Prop} (holds : steadily tight held P state) :
    (kernelRules tight held).Always (steadily tight held P) state :=
  fun _ interferes => ⟨holds.1.interferes interferes, interferes.core.symm ▸ holds.2⟩

/-- One action on the core state. -/
theorem onCore_runs {P : State → Prop} {Q : α → Core → Prop} {action : Core → α × Core}
    (step : ∀ state, Steady tight held state → P state → CoreInv tight held (action state.core).2 ∧
      Evolves state.core (action state.core).2 ∧ (action state.core).2.current = none ∧
      Q (action state.core).1 (action state.core).2) :
    Runs (kernelRules tight held) (fun state => Steady tight held state ∧ P state) (onCore action)
      (fun value => steadily tight held (Q value)) := by
  refine Runs.modifyGet fun state ⟨steady, holds⟩ => ?_
  obtain ⟨inv, evolves, nobody, result⟩ := step state steady holds
  refine ⟨steady.valid, .of_core evolves steady.nobody rfl, steadily_always ⟨⟨?_, steady.enabled, nobody⟩, result⟩⟩
  exact steady.calm.advance inv evolves.toAdvances rfl rfl (Nat.le_refl _)

theorem readCore_runs {P : Core → Prop} (view : Core → α) :
    Runs (kernelRules tight held) (steadily tight held P) (readCore view)
      (fun value => steadily tight held fun core => P core ∧ value = view core) :=
  onCore_runs (P := fun state => P state.core) fun state steady holds =>
    ⟨steady.calm.core, .refl _, steady.nobody, holds, rfl⟩

theorem modifyCore_runs {P Q : Core → Prop} {update : Core → Core}
    (step : ∀ core, CoreInv tight held core → core.current = none → P core → CoreInv tight held (update core) ∧
      Evolves core (update core) ∧ (update core).current = none ∧ Q (update core)) :
    Runs (kernelRules tight held) (steadily tight held P) (modifyCore update) (fun _ => steadily tight held Q) :=
  onCore_runs (P := fun state => P state.core) fun state steady holds => step state.core steady.calm.core steady.nobody holds

/-- Configuration that no invariant reads. -/
theorem sameCore_runs {P : Core → Prop} {Q : α → Core → Prop} {action : Core → α × Core}
    (same : ∀ core, SameCore core (action core).2 ∧ (action core).2.current = core.current)
    (keeps : ∀ core, P core → Q (action core).1 (action core).2) :
    Runs (kernelRules tight held) (steadily tight held P) (onCore action) (fun value => steadily tight held (Q value)) :=
  onCore_runs (P := fun state => P state.core) fun state steady holds => by
    obtain ⟨alike, current⟩ := same state.core
    refine ⟨alike.inv steady.calm.core fun other running => ?_, alike.evolves, current.trans steady.nobody, keeps _ holds⟩
    rw [current]
    exact steady.calm.core.table.running other running

/-- One action on the environment that neither sends nor masks. -/
theorem onEnv_runs {P : Core → Prop} {action : Env → α × Env} (sie : ∀ env, (action env).2.sie = env.sie)
    (log : ∀ env, (action env).2.log = env.log) (wire : ∀ env, (action env).2.wire = env.wire)
    (serial : ∀ env, env.serial ≤ (action env).2.serial) :
    Runs (kernelRules tight held) (steadily tight held P) (onEnv action) (fun _ => steadily tight held P) := by
  refine Runs.modifyGet fun state ⟨steady, holds⟩ => ?_
  have passes : Passes tight held state { state with env := (action state.env).2 } :=
    steady.calm.env (log _) (wire _) (serial _)
  exact ⟨steady.valid, .of_env rfl (log _),
    steadily_always ⟨⟨passes.calm, (sie _).trans steady.enabled, steady.nobody⟩, holds⟩⟩

theorem consoleGetchar_runs {P : Core → Prop} :
    Runs (kernelRules tight held) (steadily tight held P) consoleGetchar (fun _ => steadily tight held P) :=
  onEnv_runs (fun _ => rfl) (fun _ => rfl) (fun _ => rfl) fun _ => Nat.le_refl _

/-- With interrupts off only the receive queue can move. -/
theorem always_masked {P : State → Prop} (masked : state.env.sie = false)
    (holds : ∀ rx, P { state with env := { state.env with rx } }) : (kernelRules tight held).Always P state := by
  intro current interferes
  have same : current = { state with env := { state.env with rx := current.env.rx } } := by
    cases current
    exact State.mk.injEq .. ▸ ⟨interferes.core, interferes.masked masked⟩
  rw [same]
  exact holds _

theorem Emits.receive (emits : Emits state state' more) (rx : List UInt8) :
    Emits state { state' with env := { state'.env with rx } } more :=
  ⟨emits.core, emits.sie, ⟨emits.logs.log, emits.logs.wire, emits.logs.serial, emits.logs.fresh, emits.logs.increasing⟩,
    emits.stamped⟩

/-- An emission under way: `rest` is still to be sent. -/
structure Sending (base : State) (entry : Entry) (rest : Bytes) (state : State) : Prop where
  core : state.core = base.core
  masked : state.env.sie = false
  log : state.env.log = base.env.log ++ [entry]
  wire : state.env.wire ++ rest = base.env.wire ++ entry.what.bytes
  serial : base.env.serial ≤ state.env.serial
  fresh : ∀ serial, entry.what.serial? = some serial → base.env.serial ≤ serial ∧ serial < state.env.serial

variable {base : State} {entry : Entry} {rest : Bytes}

/-- The stream as it will be once the emission is complete. -/
theorem Sending.logs (sending : Sending base entry rest state) :
    Logs base.env { state.env with wire := base.env.wire ++ entry.what.bytes } [entry] := by
  have one : ∀ serial ∈ serialsOf [entry], entry.what.serial? = some serial := by
    intro serial member
    simp only [serialsOf, List.mem_filterMap, List.mem_singleton] at member
    obtain ⟨_, rfl, found⟩ := member
    exact found
  refine ⟨sending.log, ?_, sending.serial, fun serial member => sending.fresh serial (one serial member), ?_⟩
  · simp [wireOf]
  · cases numbered : entry.what.serial? <;> simp [serialsOf, numbered]

theorem Sending.inv (sending : Sending base entry rest state) (calm : Calm tight held base)
    (admitted : LogInv base.core (base.env.log ++ [entry])) : Inv tight held state := by
  obtain ⟨stream, whole⟩ := sending.logs.stream calm.stream calm.whole
  refine ⟨by rw [sending.core]; exact calm.core, by rw [sending.core, sending.log]; exact admitted, ?_, fun enabled => ?_⟩
  · refine ⟨stream.increasing, stream.below, ?_⟩
    exact (sending.wire ▸ List.prefix_append _ _ : state.env.wire <+: base.env.wire ++ entry.what.bytes).trans stream.wire
  · rw [sending.masked] at enabled
    cases enabled

/-- Interrupts are still off and the emission, if any, is complete. -/
structure Told (tight : Prop) (held : Held) (base state : State) : Prop where
  masked : state.env.sie = false
  core : state.core = base.core
  calm : Calm tight held state

theorem Sending.told (sending : Sending base entry [] state) (calm : Calm tight held base)
    (admitted : LogInv base.core (base.env.log ++ [entry])) : Told tight held base state := by
  have inv := sending.inv calm admitted
  obtain ⟨-, whole⟩ := sending.logs.stream calm.stream calm.whole
  have wire := sending.wire
  rw [List.append_nil] at wire
  exact ⟨sending.masked, sending.core, inv.core, inv.log, inv.stream, wire.trans whole⟩

theorem Emits.told (emits : Emits base state []) (calm : Calm tight held base) (masked : base.env.sie = false) :
    Told tight held base state :=
  ⟨emits.sie.trans masked, emits.core, (calm.emits emits nofun).1⟩

theorem putAll_runs (calm : Calm tight held base) (admitted : LogInv base.core (base.env.log ++ [entry])) (bytes : Bytes) :
    Runs (kernelRules tight held) (Sending base entry bytes) (putAll bytes)
      (fun _ state => Told tight held base state ∧ state.env.log = base.env.log ++ [entry]) := by
  induction bytes with
  | nil => exact .pure fun _ sending => ⟨sending.told calm admitted, sending.log⟩
  | cons byte rest ih =>
    have one : Runs (kernelRules tight held) (Sending base entry (byte :: rest)) (consolePutchar byte)
        (fun _ => Sending base entry rest) := by
      refine Runs.modifyGet fun state sending => ?_
      refine ⟨sending.inv calm admitted |>.valid sending.masked, .of_env rfl rfl, ?_⟩
      refine always_masked sending.masked fun rx => ⟨sending.core, sending.masked, sending.log, ?_, sending.serial, sending.fresh⟩
      rw [← sending.wire]
      exact List.append_assoc _ [byte] rest
    exact one.bind fun _ => ih

/-- Interrupts were turned off in `base`, and no id has been allocated since. -/
structure Muted (base state : State) : Prop where
  quiet : Emits base state []
  serial : state.env.serial = base.env.serial

/-- An id has been allocated since. -/
structure Numbered (base : State) (serial : Nat) (state : State) : Prop where
  quiet : Emits base state []
  isSerial : serial = base.env.serial
  counted : state.env.serial = serial + 1

theorem nextId_runs (calm : Calm tight held base) (masked : base.env.sie = false) :
    Runs (kernelRules tight held) (Muted base) nextId (Numbered base) := by
  refine Runs.modifyGet fun state ⟨quiet, serial⟩ => ?_
  refine ⟨(quiet.told calm masked).calm.inv.valid (quiet.sie.trans masked), .of_env rfl rfl, ?_⟩
  refine always_masked (quiet.sie.trans masked) fun rx => ⟨?_, serial, rfl⟩
  have counted := quiet.trans (nextId_emits state).1
  exact counted.receive rx

/-- Sending under the id allocated last; only a frame that overflows is dropped. -/
theorem send_runs (calm : Calm tight held base) (masked : base.env.sie = false) {serial : Nat} {event : Event}
    (admitted : LogInv base.core (base.env.log ++ [stamp base.core (.frame serial event)]))
    (permits : Permits tight held base.core (stamp base.core (.frame serial event))) :
    Runs (kernelRules tight held) (Numbered base serial) (send serial event) (fun _ state => Told tight held base state ∧
      ((event.frameBuf (idOf serial)).overflow = false →
        state.env.log = base.env.log ++ [stamp base.core (.frame serial event)])) := by
  unfold send
  split
  · next full => exact .pure fun _ holds => ⟨holds.quiet.told calm masked, fun fits => by rw [full] at fits; cases fits⟩
  have recorded : Runs (kernelRules tight held) (Numbered base serial) (record (.frame serial event))
      (fun _ => Sending base (stamp base.core (.frame serial event)) (event.frameBuf (idOf serial)).emitted) := by
    intro _ always state interferes
    obtain ⟨quiet, isSerial, counted⟩ := always state interferes
    have off := quiet.sie.trans masked
    refine ⟨(quiet.told calm masked).calm.inv.valid off, permits _ _ quiet.core quiet.core ?_, ?_⟩
    · rw [← quiet.core]
      rfl
    · refine always_masked off fun rx => ⟨quiet.core, off, ?_, ?_, quiet.logs.serial, fun n numbered => ?_⟩
      · have log := quiet.logs.log
        rw [List.append_nil] at log
        rw [← log, ← quiet.core]
        rfl
      · have wire := quiet.logs.wire
        rw [show wireOf [] = [] from rfl, List.append_nil] at wire
        rw [← wire]
        rfl
      · cases numbered
        exact ⟨Nat.le_of_eq isSerial.symm, counted ▸ Nat.lt_succ_self serial⟩
  refine recorded.bind fun _ => (putAll_runs calm admitted _).weaken ?_
  exact fun _ _ ⟨told, log⟩ => ⟨told, fun _ => log⟩

/-- Interrupts are on, no emission is under way, and the core is this one. -/
structure Awake (tight : Prop) (held : Held) (core : Core) (state : State) : Prop where
  calm : Calm tight held state
  enabled : state.env.sie = true
  core : state.core = core

theorem Awake.interferes {core : Core} (awake : Awake tight held core state) (interferes : Interferes state state') :
    Awake tight held core state' := by
  obtain ⟨more, emits, only⟩ := interferes.ticks
  exact ⟨(awake.calm.emits emits only.harmless).1, interferes.sie.trans awake.enabled, emits.core.trans awake.core⟩

/-- A fact about the core and about what the log holds. -/
def Lasting (Q : State → Prop) : Prop :=
  ∀ before after : State, after.core = before.core → before.env.log <+: after.env.log → Q before → Q after

theorem lasting_core (P : Core → Prop) : Lasting fun state => P state.core := by
  intro before after same _ holds
  rw [same]
  exact holds

theorem Interferes.lasts {Q : State → Prop} (interferes : Interferes state state') (lasting : Lasting Q) (holds : Q state) :
    Q state' := by
  obtain ⟨more, emits, -⟩ := interferes.ticks
  exact lasting _ _ emits.core (emits.logs.log ▸ List.prefix_append _ _) holds

/-- Interrupts back on after a complete emission. -/
theorem unmask_runs {Q : α → State → Prop} (lasting : ∀ value, Lasting (Q value)) (value : α) :
    Runs (kernelRules tight held) (fun state => Told tight held base state ∧ Q value state)
      (do onEnv fun env => ((), { env with sie := true }); return value)
      (fun value state => Awake tight held base.core state ∧ Q value state) := by
  have unmask : Runs (kernelRules tight held) (fun state => Told tight held base state ∧ Q value state)
      (onEnv fun env => ((), { env with sie := true }))
      (fun _ state => Awake tight held base.core state ∧ Q value state) := by
    refine Runs.modifyGet fun state ⟨told, holds⟩ => ?_
    have passes : Passes tight held state { state with env := { state.env with sie := true } } :=
      told.calm.env rfl rfl (Nat.le_refl _)
    have awake : Awake tight held base.core { state with env := { state.env with sie := true } } :=
      ⟨passes.calm, rfl, told.core⟩
    have unmasked : Q value { state with env := { state.env with sie := true } } :=
      lasting value state _ rfl (List.prefix_refl _) holds
    exact ⟨told.calm.inv.valid told.masked, .of_env rfl rfl,
      fun _ interferes => ⟨awake.interferes interferes, interferes.lasts (lasting value) unmasked⟩⟩
  exact unmask.bind fun _ => .pure fun _ holds => holds

theorem withoutInterrupts_eq (body : Kernel α) :
    withoutInterrupts body = .act (fun state => Machine.setSie state false) fun state => body >>= fun out =>
      if state.env.sie = true then (do onEnv fun env => ((), { env with sie := true }); return out) else return out := rfl

/-- The masked section from its first action on, entered with interrupts on. -/
theorem masked_safe {body : Kernel α} {Q : α → State → Prop} {middle : State} (lasting : ∀ value, Lasting (Q value))
    (enabled : state.env.sie = true)
    (inside : Runs (kernelRules tight held) (Muted (Machine.setSie state false)) body
      (fun value state => Told tight held middle state ∧ Q value state)) :
    Safe (kernelRules tight held) (fun value state => Awake tight held middle.core state ∧ Q value state)
      (body >>= fun out => if state.env.sie = true then (do onEnv fun env => ((), { env with sie := true }); return out)
        else return out) (Machine.setSie state false) := by
  have masked : (Machine.setSie state false).env.sie = false := rfl
  refine Safe.bind (inside _ (always_masked masked fun rx => ⟨(Emits.refl _).receive rx, rfl⟩)) fun value => ?_
  rw [if_pos enabled]
  exact unmask_runs lasting value

theorem withoutInterrupts_runs {body : Kernel α} {P : State → Prop} {Q : α → Core → Prop}
    (inside : ∀ start, Steady tight held start → P start →
      Runs (kernelRules tight held) (Muted (Machine.setSie start false)) body
        (fun value state => Told tight held (Machine.setSie start false) state ∧ Q value state.core)) :
    Runs (kernelRules tight held) (fun state => Steady tight held state ∧ P state) (withoutInterrupts body)
      (fun value => steadily tight held (Q value)) := by
  rw [withoutInterrupts_eq]
  intro _ always start interferes
  obtain ⟨steady, holds⟩ := always start interferes
  refine ⟨steady.valid, .of_env rfl rfl, ?_⟩
  have lasting : ∀ value, Lasting fun state => Q value state.core := fun value => lasting_core (Q value)
  refine (masked_safe lasting steady.enabled (inside start steady holds)).weaken fun _ state ⟨awake, result⟩ => ?_
  exact ⟨⟨awake.calm, awake.enabled, by rw [awake.core]; exact steady.nobody⟩, result⟩

theorem Steady.mask (steady : Steady tight held state) : Calm tight held (Machine.setSie state false) :=
  steady.calm.advance steady.calm.core (.refl _) rfl rfl (Nat.le_refl _)

/-- An emission whose event may depend on the id it is sent under. -/
theorem numbered_runs {event : Nat → State → Event} {P : Core → Prop} {D : State → Prop}
    (admits : ∀ start, Steady tight held start → P start.core → D start → ∀ (seen : State) (serial : Nat),
      seen.core = start.core → LogInv start.core (start.env.log ++ [stamp start.core (.frame serial (event serial seen))]) ∧
        Permits tight held start.core (stamp start.core (.frame serial (event serial seen)))) :
    Runs (kernelRules tight held) (fun state => Steady tight held state ∧ P state.core ∧ D state)
      (withoutInterrupts do
        let serial ← nextId
        let event ← Program.read (event serial)
        send serial event)
      (fun _ => steadily tight held P) := by
  refine withoutInterrupts_runs fun start steady ⟨holds, due⟩ => ?_
  have calm := steady.mask
  refine (nextId_runs calm rfl).bind fun serial => ?_
  intro _ always state interferes
  obtain ⟨quiet, isSerial, counted⟩ := always state interferes
  obtain ⟨admitted, permits⟩ := admits start steady holds due state serial quiet.core
  refine ⟨(quiet.told calm rfl).calm.inv.valid quiet.sie, .of_env rfl rfl, ?_⟩
  have sent := send_runs calm rfl admitted permits
  have done := sent.weaken fun _ state ⟨told, _⟩ => (⟨told, told.core ▸ holds⟩ : _ ∧ P state.core)
  exact done state (always_masked quiet.sie fun rx => ⟨quiet.receive rx, isSerial, counted⟩)

/-- Every `emit_*` of the common shape but `emit_start`. -/
theorem emit_runs {event : State → Event} {P : Core → Prop} {D : State → Prop}
    (admits : ∀ start, Steady tight held start → P start.core → D start → ∀ (seen : State) (serial : Nat),
      seen.core = start.core → LogInv start.core (start.env.log ++ [stamp start.core (.frame serial (event seen))]) ∧
        Permits tight held start.core (stamp start.core (.frame serial (event seen)))) :
    Runs (kernelRules tight held) (fun state => Steady tight held state ∧ P state.core ∧ D state) (emit event)
      (fun _ => steadily tight held P) := numbered_runs fun start steady holds due seen serial => admits start steady holds due seen serial

/-- An event that attests nothing and names nobody. -/
theorem numbered_plain {event : Nat → State → Event} {P : Core → Prop}
    (plain : ∀ serial seen, (event serial seen).endOf = none ∧ (event serial seen).startOf = none ∧
      (event serial seen).pidOf = none ∧ ∀ core, (stamp core (.frame serial (event serial seen))).Sound) :
    Runs (kernelRules tight held) (steadily tight held P)
      (withoutInterrupts do
        let serial ← nextId
        let event ← Program.read (event serial)
        send serial event)
      (fun _ => steadily tight held P) := by
  refine (numbered_runs (D := fun _ => True) fun start steady _ _ seen serial same => ?_).strengthen
    fun state ⟨steady, holds⟩ => ⟨steady, holds, trivial⟩
  obtain ⟨noEnd, noStart, unnamed, sound⟩ := plain serial seen
  refine ⟨steady.calm.log.append ?_ ?_ ?_, permits_plain noStart unnamed⟩ <;> intro entry member <;>
    rw [List.mem_singleton.mp member]
  · exact sound _
  · rfl
  · exact noEnd

end Kernai
