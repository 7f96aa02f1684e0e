import Kernai.Proofs.System

/-! The invariant at boot, and with it in every state the machine can reach. -/

namespace Kernai
open Foundation Program Kernel Payload Machine Frames Mm

variable {tight only : Prop} {held : Held} {build : Build} {config next : Config} {allowed : Config → Config → Prop}

/-- Before `init_paging` nobody owns anything. -/
def barren : Estate Owner := ⟨fun _ => none, fun _ => none⟩

theorem powerOn_owned (tight : Prop) (build : Build) : Owned tight (powerOn build).core.phys barren := by
  refine ⟨nofun, nofun, fun owner role other role' f heldFirst => ?_, fun _ f live => absurd live.2 nofun⟩
  cases role <;> cases heldFirst

theorem powerOn_alloc (build : Build) : ∃ root phys, newSpace (powerOn build).core.phys = (some root, phys) :=
  ⟨_, _, rfl⟩

/-- The core after `init_paging`. -/
theorem initPaging_spec (tight : Prop) (held : Held) (build : Build) :
    (Main.initPaging (powerOn build).core).1 = true ∧ CoreInv tight held (Main.initPaging (powerOn build).core).2 ∧
      OnKernel (Main.initPaging (powerOn build).core).2 ∧
      ∃ phys kernelRoot, (Main.initPaging (powerOn build).core).2 = { (powerOn build).core with phys, kernelRoot } := by
  obtain ⟨root, middle, made⟩ := powerOn_alloc build
  rcases mapped : mapKernel middle root with ⟨result, after⟩
  obtain ⟨rfl, grows, -, bare⟩ := newSpace_grows tight made mapped
  have ran : Main.initPaging (powerOn build).core = (true, { (powerOn build).core with
      phys := Hal.writeSatp after (satpOf root)
      kernelRoot := root }) := by
    unfold Main.initPaging
    simp only [made, mapped]
  obtain ⟨owned, -⟩ := (powerOn_owned tight build).grow grows .kernel rfl rfl
  rw [ran]
  refine ⟨rfl, ⟨⟨?_, ⟨.kernel, root, rfl, rfl⟩, ?_, bare⟩, ?_, ?_⟩, rfl, _, _, rfl⟩
  · have given : estate { (powerOn build).core with phys := Hal.writeSatp after (satpOf root), kernelRoot := root } =
        barren.give .kernel (some root) none := by
      refine Estate.ext (funext fun owner => ?_) (funext fun owner => ?_) <;> cases owner <;> rfl
    rw [given]
    refine ⟨fun owner r isRoot => ?_, owned.live, owned.apart, owned.complete⟩
    have space := owned.spaces owner r isRoot
    exact ⟨space.shape, space.entries, space.live⟩
  · have destroyed : after.destroyed = [] := grows.control.2
    intro r satp member
    rw [show (Hal.writeSatp after (satpOf root)).destroyed = after.destroyed from rfl, destroyed] at member
    cases member
  · exact ⟨fun _ => Nat.zero_and _, fun _ _ used => absurd rfl used, fun _ => ⟨fun used => absurd rfl used, nofun⟩,
      Nat.zero_le _, nofun, fun _ used => absurd rfl used, nofun, nofun, .nil, nofun, nofun⟩
  · exact ⟨nofun, nofun, fun _ _ used => absurd rfl used⟩

theorem powerOn_logs (build : Build) : LogInv (powerOn build).core (powerOn build).env.log ∧ Stream (powerOn build).env ∧
    Whole (powerOn build).env :=
  ⟨⟨nofun, nofun, fun _ _ => Nat.zero_le _, fun _ reported => absurd rfl reported⟩, ⟨.nil, nofun, List.prefix_refl _⟩, rfl⟩

/-- `kmain` hands over to the idle loop. -/
theorem kmain_ready (tight : Prop) (held : Held) (build : Build) :
    ((Main.kmain build).run (powerOn build)).1 = .idle ∧
      Ready tight held .idle ((Main.kmain build).run (powerOn build)).2 := by
  unfold Main.kmain
  simp only [run_bind, onCore_run]
  obtain ⟨log, stream, whole⟩ := powerOn_logs build
  obtain ⟨quiet, first, counted⟩ := nextId_emits (powerOn build)
  obtain ⟨more, emits, -, only⟩ := send_emits .hello counted quiet (Nat.le_refl _)
  rw [first]
  generalize (send (powerOn build).env.serial .hello).run (nextId.run (powerOn build)).2 = sent at emits ⊢
  obtain ⟨isTrue, inv, onKernel, phys, kernelRoot, changed⟩ := initPaging_spec tight held build
  rw [emits.core]
  simp only [isTrue, if_true, run_bind, run_pure, onEnv_run]
  generalize (Main.initPaging (powerOn build).core).2 = core at inv onKernel changed ⊢
  subst changed
  obtain ⟨stream', whole'⟩ := emits.logs.stream stream whole
  have admitted : LogInv (powerOn build).core sent.2.env.log := by
    rw [emits.logs.log]
    refine log.append ?_ ?_ ?_ <;> intro entry member <;> rw [only entry member]
    · exact ⟨trivial, trivial, trivial⟩
    · rfl
    · rfl
  refine ⟨trivial, ⟨⟨inv, ?_, ⟨stream'.increasing, stream'.below, stream'.wire⟩, whole'⟩, rfl, rfl⟩, fun _ => rfl, onKernel, nofun⟩
  exact ⟨admitted.sound, admitted.past, admitted.once, admitted.ended⟩

/-- The state at the end of `kmain`. -/
def bootState (build : Build) : State where
  core := (Main.initPaging (powerOn build).core).2
  env := { (powerOn build).env with
    sie := true
    serial := 1
    wire := (Event.frameBuf 0 .hello).emitted
    log := [stamp (powerOn build).core (.frame 0 .hello)]
    nextDeadline := build.clock 0 + Traps.tickInterval
    reads := 1 }

theorem kmain_run (build : Build) : (Main.kmain build).run (powerOn build) = (.idle, bootState build) := by
  have fits : (Event.frameBuf (idOf 0) .hello).overflow = false := by decide
  have first : (powerOn build).env.serial = 0 := rfl
  obtain ⟨isTrue, -⟩ := initPaging_spec False (fun _ _ _ => False) build
  unfold Main.kmain
  simp only [run_bind, onCore_run, onEnv_run, send_run, nextId]
  simp only [first, fits, delivered, Bool.false_eq_true, if_false, isTrue, if_true, run_bind, run_pure, onEnv_run, readTime]
  rfl

theorem boot_eq (build : Build) :
    boot build = { hart := .kernel (.pure .idle), state := bootState build, interrupted := fun _ => .pure .idle } := by
  unfold boot
  rw [kmain_run]

theorem boot_inv (tight only : Prop) (build : Build) : SystemInv build tight only (boot build) := by
  obtain ⟨-, ready⟩ := kmain_ready tight (heldIn only fun _ => .pure .idle) build
  rw [kmain_run] at ready
  rw [boot_eq]
  exact .handover .idle rfl ready

/-- The invariant holds in every state reached. -/
theorem Machine.Reachable.inv (formed : tight → ∀ image, Elf.WellFormed (build.elf image))
    (clean : ∀ config next, allowed config next → tight → CleanReseed config next)
    (preempts : ∀ config next, allowed config next → only → UserPreempts config next)
    (reached : Reachable build allowed config) : SystemInv build tight only config := by
  induction reached with
  | boot => exact boot_inv tight only build
  | step _ step fine ih => exact (step.preserves formed ih (clean _ _ fine) (preempts _ _ fine)).1

theorem Machine.Reachable.systemInv (reached : Reachable build anyStep config) : SystemInv build False False config :=
  reached.inv False.elim (fun _ _ _ => False.elim) fun _ _ _ => False.elim

theorem Machine.Reachable.later (reached : Reachable build allowed config) (later : Later build allowed config next) :
    Reachable build allowed next := by
  induction later with
  | refl => exact reached
  | tail _ step ih => exact .step ih step.1 step.2

/-- A step stays within the suite, or begins another once nobody is left. -/
theorem Shift.advances (shift : Shift build tight held config next) : Advances config.state.core next.state.core ∨
    (Quiescent config.state.core ∧ Reseeded config.state.core next.state.core) := by
  cases shift with
  | still same current moves unnamed proceeds => exact .inl moves.core.toAdvances
  | acts update rest hart hart' transits =>
    cases transits with
    | moves moves unnamed idle => exact .inl moves.core.toAdvances
    | seeds quiescent reseeded log => exact .inr ⟨quiescent, reseeded⟩
    | starts pid launch startable begun enabled log => exact .inl begun.advances
    | anchors pid serial current running spoken unanchored core log => exact .inl (core ▸ announcedCore_advances _ pid serial)
    | announces pid what current running spoken core log start => exact .inl (core ▸ .refl _)
    | reports pid what terminal core log isEnd cause => exact .inl (core ▸ .refl _)
  | expels pid program hart hart' enabled current left moves gone => exact .inl moves.core.toAdvances
  | returns program rest hart hart' isHeld changed log =>
    rw [changed]
    exact .inl ⟨rfl, List.prefix_refl _, fun _ used => .refl used⟩
  | enters pid program hart enters spoken =>
    refine .inl ⟨by rw [enters.ledger], enters.ledger ▸ List.prefix_refl _, fun other used => ?_⟩
    by_cases same : other = pid
    · subst same
      rw [enters.here]
      exact ⟨used, rfl, rfl, rfl, rfl, fun _ => rfl⟩
    · rw [show next.state.core.table other = config.state.core.table other from enters.one.others other same]
      exact .refl used
  | traps pid context hart there moves => exact .inl (there.trapped.advances.trans moves.core.toAdvances)
  | stores pid context hart there va pa byte allowed written =>
    rw [written]
    exact .inl ⟨rfl, List.prefix_refl _, fun _ used => .refl used⟩

/-- What any step of any run does. -/
theorem Machine.Step.shift (reached : Reachable build anyStep config) (step : Step build config next) :
    Shift build False (heldIn False config.interrupted) config next :=
  (step.preserves False.elim reached.systemInv False.elim False.elim).2

/-- Checkpoints are never forgotten. -/
theorem Machine.Later.taken (reached : Reachable build anyStep config) (later : Later build anyStep config next) :
    config.state.core.ledger.taken <+: next.state.core.ledger.taken := by
  induction later with
  | refl => exact List.prefix_refl _
  | tail before step ih =>
    refine ih.trans ?_
    rcases (step.1.shift (reached.later before)).advances with advances | ⟨-, reseeded⟩
    · exact advances.taken
    · exact reseeded.taken ▸ List.prefix_refl _

end Kernai
