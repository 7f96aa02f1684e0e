import Kernai.Proofs.Interference
import Kernai.Proofs.Wire

/-! The scheduler: what holds each time kernel code hands over. -/

namespace Kernai
open Foundation Program Kernel Payload

variable {tight : Prop} {held : Held} {build : Build} {core core' : Core} {state state' : State} {pid : Pid} {α : Type}

/-- The kernel's own space is the active one. -/
def OnKernel (core : Core) : Prop := core.phys.satp = kernelSatp core

/-- What the code behind a hand-over needs of the core state. -/
def Due : Next → Core → Prop
  | .idle, core | .finish, core => Quiescent core ∧ OnKernel core ∧ Reaped core
  | .service, core | .schedule, core => OnKernel core
  | .seed _, core => Quiescent core ∧ OnKernel core
  | .restore _, core => (∀ pid, (core.table pid).state ≠ .pending) ∧ OnKernel core ∧ Reaped core
  | .start pid, core => Startable core pid ∧ OnKernel core
  | _, _ => True

/-- The start of this payload is in the log, under the id in its slot. -/
def Announced (pid : Pid) (state : State) : Prop :=
  ∃ entry ∈ state.env.log, ∃ serial event, entry.what = .frame serial event ∧ event.startOf = some pid ∧
    entry.ledger.suite = state.core.ledger.suite ∧ (state.core.table pid).startEvent = .ofNat serial

theorem announced_lasting (pid : Pid) : Lasting (Announced pid) := by
  rintro before after same grows ⟨entry, member, serial, event, what, start, suite, anchor⟩
  refine ⟨entry, grows.subset member, serial, event, what, start, ?_, ?_⟩ <;> rw [same]
  · exact suite
  · exact anchor

/-- A payload is current and about to be resumed. -/
structure Window (tight : Prop) (held : Held) (launch : Launch) (state : State) : Prop where
  calm : Calm tight held state
  enabled : state.env.sie = true
  launched : Launched held state.core launch

/-- A start that is to be announced has not been yet. -/
def Unspoken (held : Held) (launch : Launch) (core : Core) : Prop :=
  (∀ root frame, ¬ held launch.pid root frame) → launch.announced = true → (core.table launch.pid).startEvent = 0

/-- What holds when kernel code hands over. -/
def Ready (tight : Prop) (held : Held) : Next → State → Prop
  | .launch launch, state => Window tight held launch state ∧ Unspoken held launch state.core
  | .resumeUser satp frame, state => ∃ launch, launch.satp = satp ∧ launch.frame = frame ∧ Window tight held launch state ∧
      (launch.announced = true → Announced launch.pid state)
  | next, state => steadily tight held (Due next) state

/-- Switching to the space of an owner. -/
theorem CoreInv.writeSatp (inv : CoreInv tight held core) {owner : Owner} {root : Nat}
    (isRoot : (estate core).root owner = some root) :
    CoreInv tight held { core with phys := Hal.writeSatp core.phys (Mm.satpOf root) } := by
  obtain ⟨owned, -, spared, bare⟩ := inv.heap
  refine ⟨⟨⟨fun other r isRoot => ?_, owned.live, owned.apart, owned.complete⟩, ⟨owner, root, isRoot, rfl⟩, spared, bare⟩,
    inv.table.same rfl rfl inv.table.running, inv.contexts.parked, inv.contexts.frozen, inv.contexts.restored⟩
  have space := owned.spaces other r isRoot
  exact ⟨space.shape, space.entries, space.live⟩

theorem nobody_running (inv : CoreInv tight held core) (nobody : core.current = none) (pid : Pid) :
    (core.table pid).state ≠ .running := by
  intro running
  have := inv.table.running pid running
  rw [nobody] at this
  cases this

/-- A call or a return, which nothing but the record of calls notices. -/
theorem stack_runs {P Q : Core → Prop} {calls : Core → List Call}
    (keeps : ∀ core stack, P core → Q { core with stack }) :
    Runs (kernelRules tight held) (steadily tight held P) (modifyCore fun core => { core with stack := calls core })
      (fun _ => steadily tight held Q) :=
  sameCore_runs (fun _ => ⟨⟨rfl, rfl, rfl, rfl, rfl⟩, rfl⟩) fun core holds => keeps core _ holds

theorem run_runs : Runs (kernelRules tight held) (steadily tight held (Due .run)) run (Ready tight held) := by
  have leave : Runs (kernelRules tight held) (steadily tight held (Due .run))
      (modifyCore fun core => { core.call (.run core.ledger.suite) with current := none })
      (fun _ => steadily tight held fun _ => True) :=
    modifyCore_runs fun core inv nobody _ => by
      have same : SameCore core { core.call (.run core.ledger.suite) with current := none } := ⟨rfl, rfl, rfl, rfl, rfl⟩
      exact ⟨same.inv inv fun other running => absurd running (nobody_running inv nobody other), same.evolves, rfl, trivial⟩
  have switch : Runs (kernelRules tight held) (steadily tight held fun _ => True)
      (modifyCore fun core => { core with phys := Hal.writeSatp core.phys (kernelSatp core) })
      (fun _ => steadily tight held OnKernel) :=
    modifyCore_runs fun core inv nobody _ => by
      have isRoot : (estate core).root .kernel = some core.kernelRoot := rfl
      exact ⟨inv.writeSatp isRoot, { Evolves.refl core with }, nobody, rfl⟩
  have reap : Runs (kernelRules tight held) (steadily tight held OnKernel) (modifyCore reapTerminated)
      (fun _ => steadily tight held OnKernel) :=
    modifyCore_runs fun core inv nobody onKernel => by
      obtain ⟨inv', satp, evolves, reaps, -⟩ := reapTerminated_spec inv onKernel
      exact ⟨inv', evolves, reaps.current.trans nobody, satp⟩
  have calls : Runs (kernelRules tight held) (steadily tight held OnKernel) (modifyCore (·.call .service))
      (fun _ => steadily tight held OnKernel) := stack_runs fun _ _ holds => holds
  exact leave.bind fun _ => switch.bind fun _ => reap.bind fun _ => calls.bind fun _ => .pure fun _ holds => holds

/-- Below the first pending payload everybody is done. -/
theorem startable_of_first (inv : CoreInv tight held core) (nobody : core.current = none)
    (pending : (core.table pid).state = .pending) (first : ∀ lower, lower < pid → (core.table lower).state ≠ .pending) :
    Startable core pid := by
  refine ⟨nobody, pending, fun lower below => ?_⟩
  have used : (core.table lower).state ≠ .empty := by
    refine (inv.table.packed lower).mpr (Nat.lt_trans below ((inv.table.packed pid).mp ?_))
    rw [pending]
    decide
  have waiting := first lower below
  have running := nobody_running inv nobody lower
  cases isState : (core.table lower).state <;> simp_all [ProcState.terminal]

theorem quiescent_of_none_pending (inv : CoreInv tight held core) (nobody : core.current = none)
    (idle : ∀ pid, (core.table pid).state ≠ .pending) : Quiescent core := by
  intro pid
  have waiting := idle pid
  have running := nobody_running inv nobody pid
  cases isState : (core.table pid).state <;> simp_all [ProcState.alive]

theorem reap_runs : Runs (kernelRules tight held) (steadily tight held OnKernel) (modifyCore reapTerminated)
    (fun _ => steadily tight held fun core => OnKernel core ∧ Reaped core) :=
  modifyCore_runs fun core inv nobody onKernel => by
    obtain ⟨inv', satp, evolves, reaps, reaped⟩ := reapTerminated_spec inv onKernel
    exact ⟨inv', evolves, reaps.current.trans nobody, satp, reaped⟩

theorem takeNextPending_some (inv : CoreInv tight held core) (nobody : core.current = none)
    (found : takeNextPending core = some pid) : Startable core pid := by
  obtain ⟨pending, first⟩ := position_some found
  exact startable_of_first inv nobody (by simpa using pending) fun lower below => by simpa using first lower below

theorem takeNextPending_none (missing : takeNextPending core = none) (pid : Pid) : (core.table pid).state ≠ .pending := by
  simpa using position_none missing pid

theorem payFork_runs (owed : Nat) (sid : Sid) : Runs (kernelRules tight held) (steadily tight held (Due (.restore sid)))
    (modifyCore fun core => { core with autoFork := owed }) (fun _ => steadily tight held (Due (.restore sid))) :=
  sameCore_runs (fun _ => ⟨⟨rfl, rfl, rfl, rfl, rfl⟩, rfl⟩) fun _ holds => holds

theorem schedule_runs : Runs (kernelRules tight held) (steadily tight held (Due .schedule)) schedule (Ready tight held) := by
  have returns : Runs (kernelRules tight held) (steadily tight held (Due .schedule)) (modifyCore (·.return))
      (fun _ => steadily tight held OnKernel) := stack_runs fun _ _ holds => holds
  refine returns.bind fun _ => reap_runs.bind fun _ => (readCore_runs takeNextPending).bind fun found => ?_
  cases found with
  | some pid =>
    refine .pure fun state ⟨steady, ⟨onKernel, _⟩, found⟩ => ⟨steady, ?_, onKernel⟩
    exact takeNextPending_some steady.calm.core steady.nobody found.symm
  | none =>
    refine (readCore_runs (·.autoFork)).bind fun owed => (readCore_runs (·.lastSnap)).bind fun last => ?_
    have settled : ∀ state, steadily tight held (fun core => (((OnKernel core ∧ Reaped core) ∧ none = takeNextPending core) ∧
        owed = core.autoFork) ∧ last = core.lastSnap) state → steadily tight held (fun core =>
        (∀ pid, (core.table pid).state ≠ .pending) ∧ OnKernel core ∧ Reaped core) state :=
      fun state ⟨steady, ⟨⟨⟨onKernel, reaped⟩, missing⟩, _⟩, _⟩ =>
        ⟨steady, takeNextPending_none missing.symm, onKernel, reaped⟩
    refine Runs.strengthen ?_ settled
    split
    · exact (payFork_runs _ _).bind fun _ => .pure fun _ holds => holds
    · refine .pure fun state ⟨steady, idle, rest⟩ => ⟨steady, ?_, rest⟩
      exact quiescent_of_none_pending steady.calm.core steady.nobody idle

theorem Enqueued.startable (enqueued : Enqueued core core' pid) (nobody : core.current = none)
    (inv : CoreInv tight held core') (idle : ∀ other, (core.table other).state ≠ .pending) : Startable core' pid := by
  refine startable_of_first inv (enqueued.current.trans nobody) enqueued.pending fun lower below => ?_
  rw [enqueued.others lower (Fin.ne_of_lt below)]
  exact idle lower

theorem restore_runs (sid : Sid) :
    Runs (kernelRules tight held) (steadily tight held (Due (.restore sid))) (restore sid) (Ready tight held) := by
  have queued : Runs (kernelRules tight held) (steadily tight held (Due (.restore sid))) (onCore (enqueueRestore sid))
      (fun found => steadily tight held fun core => found.elim (Due .finish core) fun pid => Due (.start pid) core) := by
    refine onCore_runs (P := fun state => Due (.restore sid) state.core) fun state steady ⟨idle, onKernel, reaped⟩ => ?_
    rcases ran : enqueueRestore sid state.core with ⟨found, core'⟩
    obtain ⟨refused, queued⟩ := enqueueRestore_spec steady.calm.core ran
    cases found with
    | none =>
      have unchanged := refused rfl
      obtain ⟨phys, rfl⟩ := unchanged.rest
      refine ⟨unchanged.inv, unchanged.evolves, steady.nobody, ?_, unchanged.satp.trans onKernel, reaped⟩
      exact quiescent_of_none_pending unchanged.inv steady.nobody idle
    | some pid =>
      obtain ⟨inv, enqueued, orphan, satp⟩ := queued pid rfl
      refine ⟨inv, enqueued.evolves fun parent isParent => ?_, enqueued.current.trans steady.nobody, enqueued.startable steady.nobody inv idle, ?_⟩
      · rw [orphan] at isParent
        cases isParent
      · exact satp.trans (onKernel.trans (congrArg Mm.satpOf enqueued.kernelRoot.symm))
  refine queued.bind fun found => ?_
  cases found with
  | none => exact .pure fun _ holds => holds
  | some pid => exact .pure fun _ holds => holds

theorem countP_below : ∀ n, n ≤ maxProc → (List.finRange 12).countP (fun pid => pid.val < n) = n := by decide

/-- With everybody done, the three counts make up the suite. -/
theorem countState_sum (table : Table core) (quiescent : Quiescent core) :
    countState core .exited + countState core .faulted + countState core .killed = core.ledger.enqueued := by
  have split : ∀ pids : List Pid, pids.countP (fun pid => (core.table pid).state = .exited) +
      pids.countP (fun pid => (core.table pid).state = .faulted) +
      pids.countP (fun pid => (core.table pid).state = .killed) =
      pids.countP (fun pid => pid.val < core.ledger.enqueued) := by
    intro pids
    induction pids with
    | nil => rfl
    | cons pid rest ih =>
      have packed := table.packed pid
      have idle := quiescent pid
      simp only [List.countP_cons]
      cases isState : (core.table pid).state <;> simp_all [ProcState.alive] <;> omega
  exact (split _).trans (countP_below _ table.room)

theorem finish_runs : Runs (kernelRules tight held) (steadily tight held (Due .finish)) finish (Ready tight held) := by
  have told : Runs (kernelRules tight held) (steadily tight held (Due .finish)) emitSuiteDone
      (fun _ => steadily tight held (Due .idle)) := by
    refine (emit_runs (D := fun _ => True) fun start steady due _ seen serial same => ⟨?_, permits_plain rfl rfl⟩).strengthen
      fun state ⟨steady, due⟩ => ⟨steady, due, trivial⟩
    refine steady.calm.log.append ?_ ?_ ?_ <;> intro entry member <;> rw [List.mem_singleton.mp member]
    · refine ⟨trivial, ⟨due.1, ?_⟩, trivial⟩
      rw [same]
      exact countState_sum steady.calm.core.table due.1
    · rfl
    · rfl
  have calls : Runs (kernelRules tight held) (steadily tight held (Due .idle)) (modifyCore (·.call .idle))
      (fun _ => steadily tight held (Due .idle)) := stack_runs fun _ _ holds => holds
  exact told.bind fun _ => calls.bind fun _ => .pure fun _ holds => holds

/-- The payload is done and the report of its end still to be made. -/
structure Owed (pid : Pid) (state : State) : Prop where
  terminal : (state.core.table pid).state.terminal = true
  unreported : endReports state.env.log state.core.ledger.suite pid = 0

theorem Owed.interferes (owed : Owed pid state) (interferes : Interferes state state') : Owed pid state' := by
  obtain ⟨more, emits, only⟩ := interferes.ticks
  refine ⟨by rw [emits.core]; exact owed.terminal, ?_⟩
  rw [emits.core, emits.logs.log, endReports_append, owed.unreported,
    endReports_none fun entry member => (only.harmless entry member).noEnd]

/-- One action on the core state that may end a payload. -/
theorem onCore_owes {P : Core → Prop} (Q : α → Core → Prop) (owes : α → Option Pid) {action : Core → α × Core}
    (step : ∀ core, CoreInv tight held core → core.current = none → P core → CoreInv tight held (action core).2 ∧
      Evolves core (action core).2 ∧ (action core).2.current = none ∧ Q (action core).1 (action core).2 ∧
      ∀ pid, owes (action core).1 = some pid → (core.table pid).state.terminal = false ∧
        ((action core).2.table pid).state.terminal = true) :
    Runs (kernelRules tight held) (steadily tight held P) (onCore action)
      (fun value state => Steady tight held state ∧ Q value state.core ∧ ∀ pid, owes value = some pid → Owed pid state) := by
  refine Runs.modifyGet fun state ⟨steady, holds⟩ => ?_
  obtain ⟨inv, evolves, nobody, result, ends⟩ := step state.core steady.calm.core steady.nobody holds
  refine ⟨steady.valid, .of_core evolves steady.nobody rfl, fun current interferes => ?_⟩
  have after : Steady tight held { state with core := (action state.core).2 } :=
    ⟨steady.calm.advance inv evolves.toAdvances rfl rfl (Nat.le_refl _), steady.enabled, nobody⟩
  refine ⟨after.interferes interferes, interferes.core.symm ▸ result, fun pid isOwed => ?_⟩
  obtain ⟨alive, terminal⟩ := ends pid isOwed
  have owed : Owed pid { state with core := (action state.core).2 } :=
    ⟨terminal, evolves.suite.symm ▸ steady.calm.unreported alive⟩
  exact owed.interferes interferes

/-- The report of a payload's end. -/
theorem emit_reports {event : State → Event} {P : Core → Prop}
    (isEnd : ∀ seen serial, (event seen).endOf = some pid ∧ (stamp seen.core (.frame serial (event seen))).Sound ∧
      (event seen).causedBy ≠ some 0) :
    Runs (kernelRules tight held) (fun state => Steady tight held state ∧ P state.core ∧ Owed pid state) (emit event)
      (fun _ => steadily tight held P) :=
  emit_runs fun start steady _ owed seen serial same => by
    obtain ⟨reports, sound, cause⟩ := isEnd seen serial
    rw [same] at sound
    exact ⟨steady.calm.log.report sound rfl reports owed.unreported owed.terminal, permits_report reports owed.terminal cause⟩

theorem Window.interferes {launch : Launch} (window : Window tight held launch state) (interferes : Interferes state state') :
    Window tight held launch state' := by
  obtain ⟨more, emits, only⟩ := interferes.ticks
  exact ⟨(window.calm.emits emits only.harmless).1, interferes.sie.trans window.enabled, emits.core.symm ▸ window.launched⟩

theorem Begun.unspoken {launch : Launch} (begun : Begun tight held pid core launch core') (inv : CoreInv tight held core)
    (startable : Startable core pid) : Unspoken held launch core' := by
  intro nobody announced
  have spoken := begun.launched.announced nobody
  rw [announced, begun.silent] at spoken
  have fresh : (core.table pid).preempted = false := by simpa using spoken.symm
  rw [begun.isPid, begun.anchor]
  exact inv.table.unstarted pid (Slot.queued_iff.mpr ⟨startable.pending, fresh⟩)

/-- `start` through `CURRENT.store(pid)`. -/
theorem begin_runs (formed : tight → ∀ image, Elf.WellFormed (build.elf image)) :
    Runs (kernelRules tight held) (steadily tight held (Due (.start pid))) (Program.modifyGet (begin build pid))
      (fun result state => match result with
        | .ok launch => Ready tight held (.launch launch) state
        | .error _ => steadily tight held (fun core => Startable core pid ∧ (core.table pid).resumeFrame = 0) state) := by
  refine Runs.modifyGet fun state ⟨steady, startable, onKernel⟩ => ⟨steady.valid, ?_⟩
  rcases ran : begin build pid state with ⟨result, state'⟩
  cases result with
  | ok launch =>
    obtain ⟨begun, reads, env⟩ := begin_ok steady.calm.core startable formed ran
    have log : state'.env.log = state.env.log := by rw [env]
    have calm : Calm tight held state' := steady.calm.advance begun.inv begun.advances log (by rw [env]) (by rw [env])
    have enabled : state'.env.sie = true := by rw [env]; exact steady.enabled
    refine ⟨.starts pid launch startable begun enabled log, fun current interferes => ?_⟩
    have window : Window tight held launch state' := ⟨calm, enabled, begun.launched⟩
    exact ⟨window.interferes interferes, interferes.core.symm ▸ begun.unspoken steady.calm.core startable⟩
  | error reason =>
    obtain ⟨inv, satp, noFrame, phys, rfl⟩ := begin_error steady.calm.core formed ran
    have evolves : Evolves state.core { state.core with phys } := { Evolves.refl state.core with }
    refine ⟨.of_core evolves steady.nobody rfl, steadily_always ⟨⟨?_, steady.enabled, steady.nobody⟩, ?_, noFrame⟩⟩
    · exact steady.calm.advance inv evolves.toAdvances rfl rfl (Nat.le_refl _)
    · exact ⟨startable.idle, startable.pending, startable.lower⟩

/-- A payload that never got a frame was never preempted. -/
theorem Startable.fresh (startable : Startable core pid) (table : Table core) (noFrame : (core.table pid).resumeFrame = 0) :
    (core.table pid).preempted = false := by
  by_contra preempted
  refine table.loaded pid ?_ noFrame
  simpa [Slot.engaged, startable.pending] using preempted

theorem loadFailed_runs (reason : String) :
    Runs (kernelRules tight held)
      (steadily tight held fun core => Startable core pid ∧ (core.table pid).resumeFrame = 0) (loadFailed pid reason)
      (Ready tight held) := by
  have marked : Runs (kernelRules tight held)
      (steadily tight held fun core => Startable core pid ∧ (core.table pid).resumeFrame = 0)
      (modifyCore fun core => setState (noteStart core pid) pid .faulted)
      (fun _ state => Steady tight held state ∧ True ∧ ∀ other, some pid = some other → Owed other state) := by
    refine onCore_owes (fun _ _ => True) (fun _ => some pid) fun core inv nobody ⟨startable, noFrame⟩ => ?_
    have one : OneSlot core (setState (noteStart core pid) pid .faulted) pid :=
      ⟨rfl, rfl, rfl, rfl, rfl, rfl, fun other different => setSlot_other (noteStart core pid) _ different⟩
    have here : (setState (noteStart core pid) pid .faulted).table pid = { core.table pid with state := .faulted } :=
      setSlot_self (noteStart core pid) pid _
    have used : (core.table pid).state ≠ .empty := by rw [startable.pending]; decide
    have faulted : ProcState.faulted ≠ .empty := nofun
    have touched : SlotTouched (core.table pid) ((setState (noteStart core pid) pid .faulted).table pid) :=
      here ▸ touched_state (core.table pid) used faulted _
    have unpreempted := startable.fresh inv.table noFrame
    refine ⟨inv.ends one touched (by rw [here]; rfl) rfl (.inr ⟨rfl, startable.unstarted inv.table unpreempted⟩), ?_, nobody,
      trivial, fun other isPid => ?_⟩
    · refine one.evolves touched (by rw [here]) (fun ended => ?_) (fun alive => ?_) (fun _ => Nat.le_refl _)
        fun _ preempted => ?_
      · rw [startable.pending] at ended
        cases ended
      · rw [here] at alive
        cases alive
      · rw [unpreempted] at preempted
        cases preempted
    · cases isPid
      rw [startable.pending, here]
      exact ⟨rfl, rfl⟩
  have told : Runs (kernelRules tight held) (fun state => Steady tight held state ∧ Due .run state.core ∧ Owed pid state)
      (emitLoadFault pid reason) (fun _ => steadily tight held (Due .run)) := by
    refine emit_reports ?_
    exact fun _ _ => ⟨rfl, ⟨trivial, trivial, trivial⟩, nofun⟩
  have calls : Runs (kernelRules tight held)
      (steadily tight held fun core => Startable core pid ∧ (core.table pid).resumeFrame = 0)
      (modifyCore (·.call .loadFailed))
      (fun _ => steadily tight held fun core => Startable core pid ∧ (core.table pid).resumeFrame = 0) :=
    stack_runs fun _ _ ⟨startable, noFrame⟩ => ⟨⟨startable.idle, startable.pending, startable.lower⟩, noFrame⟩
  refine calls.bind fun _ => marked.bind fun _ => (told.strengthen fun state ⟨steady, _, owed⟩ => ?_).bind fun _ => .pure fun _ holds => holds
  exact ⟨steady, trivial, owed pid rfl⟩

theorem start_runs (formed : tight → ∀ image, Elf.WellFormed (build.elf image)) :
    Runs (kernelRules tight held) (steadily tight held (Due (.start pid))) (start build pid) (Ready tight held) := by
  have calls : Runs (kernelRules tight held) (steadily tight held (Due (.start pid))) (modifyCore (·.call .start))
      (fun _ => steadily tight held (Due (.start pid))) :=
    stack_runs fun _ _ ⟨startable, onKernel⟩ => ⟨⟨startable.idle, startable.pending, startable.lower⟩, onKernel⟩
  refine calls.bind fun _ => (begin_runs formed).bind fun result => ?_
  cases result with
  | ok launch => exact .pure fun _ window => window
  | error reason => exact loadFailed_runs reason

theorem announcedCore_self (core : Core) (pid : Pid) (serial : Nat) :
    (announcedCore core pid serial).table pid = { core.table pid with startEvent := .ofNat serial } := setSlot_self core pid _

theorem announcedCore_touches (core : Core) (pid : Pid) (serial : Nat) : OneSlot core (announcedCore core pid serial) pid ∧
    SlotTouched (core.table pid) ((announcedCore core pid serial).table pid) :=
  ⟨⟨rfl, rfl, rfl, rfl, rfl, rfl, fun other different => setSlot_other core _ different⟩,
    announcedCore_self core pid serial ▸ ⟨Iff.rfl, rfl, rfl, rfl, rfl, rfl, rfl, rfl, rfl, rfl⟩⟩

theorem announcedCore_advances (core : Core) (pid : Pid) (serial : Nat) : Advances core (announcedCore core pid serial) := by
  obtain ⟨one, touched⟩ := announcedCore_touches core pid serial
  exact one.advances touched fun _ => by rw [announcedCore_self]

theorem announcedCore_inv (inv : CoreInv tight held core) (running : (core.table pid).state = .running) (serial : Nat) :
    CoreInv tight held (announcedCore core pid serial) := by
  obtain ⟨one, touched⟩ := announcedCore_touches core pid serial
  refine inv.notes one touched (by rw [announcedCore_self]) (by rw [announcedCore_self]) (fun queued => ?_) rfl rfl
  exact absurd (running.symm.trans (Slot.queued_iff.mp queued).1) nofun

theorem Launched.announce {launch : Launch} (launched : Launched held core launch) (serial : Nat) :
    Launched held (announcedCore core launch.pid serial) launch := by
  refine ⟨launched.current, ?_, ?_, ?_, launched.entry, launched.announced, ?_, ?_⟩ <;> rw [announcedCore_self]
  · exact launched.running
  · exact launched.satp
  · exact launched.frame
  · exact launched.parked.memory
  · exact launched.parked.context

theorem Window.mask {launch : Launch} (window : Window tight held launch state) :
    Calm tight held (Machine.setSie state false) :=
  window.calm.advance window.calm.core (.refl _) rfl rfl (Nat.le_refl _)

/-- The masked state with the id of the start event already noted. -/
def announcedBase (state : State) (pid : Pid) : State :=
  { Machine.setSie state false with core := announcedCore state.core pid state.env.serial }

theorem announcedBase_calm {launch : Launch} (window : Window tight held launch state) :
    Calm tight held (announcedBase state launch.pid) :=
  window.mask.advance (announcedCore_inv window.calm.core window.launched.running state.env.serial)
    (announcedCore_advances state.core launch.pid state.env.serial) rfl rfl (Nat.le_refl _)

/-- A start is announced only by a payload that was not taken off the CPU before. -/
theorem Window.spoken {launch : Launch} (window : Window tight held launch state) (announced : launch.announced = true)
    (nobody : ∀ root frame, ¬ held launch.pid root frame) : state.core.ledger.silent = false := by
  have spoken := window.launched.announced nobody
  rw [announced] at spoken
  simpa using spoken.symm

theorem noteStartEvent_runs {launch : Launch} (window : Window tight held launch state) (announced : launch.announced = true)
    (unspoken : Unspoken held launch state.core) (serial : Nat) :
    Runs (kernelRules tight held) (Numbered (Machine.setSie state false) serial)
      (modifyCore fun core => setSlot core launch.pid fun slot => { slot with startEvent := .ofNat serial })
      (fun _ => Numbered (announcedBase state launch.pid) serial) := by
  refine Runs.modifyGet fun current ⟨quiet, isSerial, counted⟩ => ?_
  have calm := (quiet.told window.mask rfl).calm
  have anchors : Transits tight held current
      { current with core := setSlot current.core launch.pid fun slot => { slot with startEvent := .ofNat serial } } := by
    refine .anchors launch.pid serial ?_ ?_ ?_ ?_ rfl rfl <;> rw [quiet.core]
    · exact window.launched.current
    · exact window.launched.running
    · exact window.spoken announced
    · exact fun nobody => unspoken nobody announced
  refine ⟨calm.inv.valid quiet.sie, anchors, ?_⟩
  refine always_masked quiet.sie fun rx => ⟨⟨?_, quiet.sie, ?_, nofun⟩, isSerial, counted⟩
  · rw [isSerial]
    exact congrArg (announcedCore · launch.pid _) quiet.core
  · exact (quiet.receive rx).logs

/-- The event `emit_start` sends. -/
def startEvent (launch : Launch) (core : Core) : Event :=
  .start launch.pid (imageOf core launch.pid).name launch.entry launch.restored
    ((core.table launch.pid).parent.map fun parent => (core.table parent).startEvent.toNat) (core.table launch.pid).caps

theorem startEvent_fits {launch : Launch} (small : launch.entry < 2 ^ 64) (core : Core) (serial : Nat) :
    ((startEvent launch core).frameBuf (idOf serial)).overflow = false := by
  refine start_fits launch.pid (image_name_length (core.table launch.pid).image) small launch.restored (fun n isCause => ?_) _ _
  obtain ⟨parent, -, rfl⟩ := Option.map_eq_some_iff.mp isCause
  exact UInt64.toNat_lt _

/-- `emit_start` once interrupts are off. -/
theorem emitStart_runs {launch : Launch} (window : Window tight held launch state) (announced : launch.announced = true)
    (unspoken : Unspoken held launch state.core) :
    Runs (kernelRules tight held) (Muted (Machine.setSie state false))
      (do
        let serial ← nextId
        modifyCore fun core => setSlot core launch.pid fun slot => { slot with startEvent := .ofNat serial }
        let event ← readCore (startEvent launch)
        send serial event)
      (fun _ state' => Told tight held (announcedBase state launch.pid) state' ∧ Announced launch.pid state') := by
  have calm := announcedBase_calm window
  refine (nextId_runs window.mask rfl).bind fun serial => (noteStartEvent_runs window announced unspoken serial).bind fun _ => ?_
  intro _ always current interferes
  obtain ⟨quiet, isSerial, counted⟩ := always current interferes
  have anchored : ((announcedBase state launch.pid).core.table launch.pid).startEvent = .ofNat serial := by
    rw [isSerial]
    exact congrArg Slot.startEvent (setSlot_self state.core launch.pid fun slot => { slot with startEvent := .ofNat _ })
  have admitted : LogInv (announcedBase state launch.pid).core ((announcedBase state launch.pid).env.log ++
      [stamp (announcedBase state launch.pid).core (.frame serial (startEvent launch current.core))]) := by
    refine calm.log.append ?_ ?_ ?_ <;> intro entry member <;> rw [List.mem_singleton.mp member]
    · rw [quiet.core]
      exact ⟨trivial, trivial, rfl, anchored⟩
    · rfl
    · rfl
  have permits : Permits tight held (announcedBase state launch.pid).core
      (stamp (announcedBase state launch.pid).core (.frame serial (startEvent launch current.core))) := by
    intro before after same same' log
    refine .announces launch.pid _ ?_ ?_ (fun nobody => ?_) (same'.trans same.symm) (by rw [log, same]) rfl
    · rw [same]
      exact window.launched.current
    · rw [same]
      exact (window.launched.announce _).running
    · rw [same]
      exact window.spoken announced nobody
  refine ⟨(quiet.told calm rfl).calm.inv.valid quiet.sie, .of_env rfl rfl, ?_⟩
  have sent := send_runs calm rfl admitted permits current
    (always_masked quiet.sie fun rx => ⟨quiet.receive rx, isSerial, counted⟩)
  refine sent.weaken fun _ after ⟨told, recorded⟩ => ⟨told,
    stamp (announcedBase state launch.pid).core (.frame serial (startEvent launch current.core)), ?_, serial, _, rfl, rfl, ?_, ?_⟩
  · rw [recorded (startEvent_fits window.launched.entry _ _)]
    exact List.mem_append_right _ List.mem_cons_self
  · rw [told.core]
    rfl
  · rw [told.core]
    exact anchored

/-- `start` past `CURRENT.store`, from its first action on. -/
theorem launch_masked {launch : Launch} (window : Window tight held launch state) (announced : launch.announced = true)
    (unspoken : Unspoken held launch state.core) :
    ∃ next, Payload.launch launch = .act (fun state => Machine.setSie state false) next ∧
      Safe (kernelRules tight held) (Ready tight held) (next state) (Machine.setSie state false) := by
  unfold Payload.launch emitStart
  rw [if_pos announced, withoutInterrupts_eq]
  refine ⟨_, rfl, ?_⟩
  have lasting : ∀ _ : Unit, Lasting (Announced launch.pid) := fun _ => announced_lasting launch.pid
  refine Safe.bind (masked_safe lasting window.enabled (emitStart_runs window announced unspoken)) fun _ => ?_
  refine .pure fun current ⟨awake, started⟩ => ⟨launch, rfl, rfl, ⟨awake.calm, awake.enabled, ?_⟩, fun _ => started⟩
  rw [awake.core]
  exact window.launched.announce _

end Kernai
