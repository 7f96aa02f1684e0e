import Kernai.Proofs.Control

/-! Where the hart can stand between two steps of the machine, and what holds there. -/

namespace Kernai
open Foundation Program Kernel Payload Machine

variable {tight only : Prop} {held held' : Held} {build : Build} {core : Core} {state state' : State} {pid : Pid}
  {program : Kernel Next} {launch : Launch}

/-- The places between `CURRENT.store` and `__resume_user` where a tick can come. -/
inductive Pause (launch : Launch) : Kernel Next → Prop
  | handed : Pause launch (.pure (.launch launch))
  | entered : Pause launch (Payload.launch launch)
  | spoken : Pause launch (.pure (.resumeUser launch.satp launch.frame))

/-- The payloads whose resume frame may hold the context of kernel code: none where
only ticks in U-mode preempt. The code is the one that was about to resume them. -/
def heldIn (only : Prop) (interrupted : Nat → Kernel Next) : Held := fun pid root frame =>
  ¬ only ∧ ∃ launch : Launch, launch.pid = pid ∧ launch.satp = Mm.satpOf root ∧ launch.frame = frame ∧
    launch.entry < 2 ^ 64 ∧ Pause launch (interrupted frame)

/-- Where kernel code can stand. Inside a function it runs by the kernel's rules; the
exceptions are the first actions of `start`'s tail and of a seed, which need more. -/
inductive Phase (build : Build) (tight : Prop) (held : Held) (state : State) (program : Kernel Next) : Prop
  | handover (next : Next) (isPure : program = .pure next) (ready : Ready tight held next state)
  | launching (launch : Launch) (isLaunch : program = Payload.launch launch) (window : Window tight held launch state)
      (announced : launch.announced = true) (unspoken : Unspoken held launch state.core)
  | seeding (suite : Suite) (isSeed : program = Main.code build (.seed suite))
      (due : steadily tight held (Due (.seed suite)) state)
  | inside (safe : Safe (kernelRules tight held) (Ready tight held) program state)

/-- A payload in U-mode. -/
structure UserAt (tight : Prop) (held : Held) (pid : Pid) (context : TrapFrame) (state : State) : Prop where
  calm : Calm tight held state
  enabled : state.env.sie = true
  current : state.core.current = some pid
  running : (state.core.table pid).state = .running
  satp : state.core.phys.satp = Mm.satpOf (state.core.table pid).root
  entered : (state.core.table pid).entered = true
  user : UserContext context

/-- What holds between any two steps. -/
def Stands (build : Build) (tight : Prop) (held : Held) (hart : Hart) (state : State) : Prop :=
  match hart with
  | .user context => ∃ pid, UserAt tight held pid context state
  | .kernel program => Phase build tight held state program
  | .off => Inv tight held state

def SystemInv (build : Build) (tight only : Prop) (config : Config) : Prop :=
  Stands build tight (heldIn only config.interrupted) config.hart config.state

theorem Ready.interferes {next : Next} (ready : Ready tight held next state) (interferes : Interferes state state') :
    Ready tight held next state' := by
  cases next with
  | launch launch => exact ⟨ready.1.interferes interferes, interferes.core.symm ▸ ready.2⟩
  | resumeUser satp frame =>
    obtain ⟨launch, isSatp, isFrame, window, announced⟩ := ready
    exact ⟨launch, isSatp, isFrame, window.interferes interferes,
      fun spoken => interferes.lasts (announced_lasting launch.pid) (announced spoken)⟩
  | _ => exact steadily_always ready state' interferes

theorem Ready.inv {next : Next} (ready : Ready tight held next state) : Inv tight held state := by
  cases next with
  | launch launch => exact ready.1.calm.inv
  | resumeUser satp frame =>
    obtain ⟨launch, -, -, window, -⟩ := ready
    exact window.calm.inv
  | _ => exact ready.1.calm.inv

theorem Phase.inv (phase : Phase build tight held state program) : Inv tight held state := by
  cases phase with
  | handover next isPure ready => exact ready.inv
  | launching launch isLaunch window announced unspoken => exact window.calm.inv
  | seeding suite isSeed due => exact due.1.calm.inv
  | inside safe =>
    cases program with
    | pure next => exact (safe state (.refl state)).inv
    | act update next => exact (safe state (.refl state)).1.1

theorem Stands.inv {hart : Hart} (stands : Stands build tight held hart state) : Inv tight held state := by
  cases hart with
  | user context =>
    obtain ⟨pid, there⟩ := stands
    exact there.calm.inv
  | kernel program => exact Phase.inv stands
  | off => exact stands

theorem launch_silent (silent : launch.announced = false) :
    Payload.launch launch = .pure (.resumeUser launch.satp launch.frame) := by
  unfold Payload.launch
  rw [silent]
  rfl

/-- The code behind a hand-over. -/
theorem Ready.enter {next : Next} (ready : Ready tight held next state) (stays : leavesKernel next = false)
    (formed : tight → ∀ image, Elf.WellFormed (build.elf image)) :
    Phase build tight held state (Main.code build next) := by
  cases next with
  | idle => exact .inside (idle_runs state (steadily_always ready))
  | run => exact .inside (run_runs state (steadily_always ready))
  | service => exact .inside (serviceConsole_runs state (steadily_always ready))
  | schedule => exact .inside (schedule_runs state (steadily_always ready))
  | seed suite => exact .seeding suite rfl ready
  | restore sid => exact .inside (restore_runs sid state (steadily_always ready))
  | start pid => exact .inside (start_runs formed state (steadily_always ready))
  | launch launch =>
    cases announced : launch.announced with
    | true => exact .launching launch rfl ready.1 announced ready.2
    | false =>
      refine .handover _ (launch_silent announced) ⟨launch, rfl, rfl, ready.1, fun spoken => ?_⟩
      rw [announced] at spoken
      cases spoken
  | finish => exact .inside (finish_runs state (steadily_always ready))
  | resumeUser satp frame => cases stays
  | crash => cases stays
  | panicked => cases stays

theorem Phase.at_pure {next : Next} (phase : Phase build tight held state (.pure next)) : Ready tight held next state := by
  cases phase with
  | handover other isPure ready => exact (Program.pure.inj isPure) ▸ ready
  | launching launch isLaunch window announced unspoken =>
    obtain ⟨rest, isAct, -⟩ := launch_masked window announced unspoken
    rw [isAct] at isLaunch
    cases isLaunch
  | seeding suite isSeed due => cases isSeed
  | inside safe => exact safe state (.refl state)

/-- Ticks while nobody is current, and bytes on the line. -/
theorem Phase.interferes (phase : Phase build tight held state program) (interferes : Interferes state state') :
    Phase build tight held state' program := by
  cases phase with
  | handover next isPure ready => exact .handover next isPure (ready.interferes interferes)
  | launching launch isLaunch window announced unspoken =>
    exact .launching launch isLaunch (window.interferes interferes) announced (interferes.core.symm ▸ unspoken)
  | seeding suite isSeed due => exact .seeding suite isSeed (steadily_always due state' interferes)
  | inside safe => exact .inside (safe.settle Interferes.trans interferes)

theorem CoreInv.loosen (inv : CoreInv tight held core) : CoreInv False held core :=
  ⟨⟨{ inv.heap.owned with complete := nofun }, inv.heap.translating, inv.heap.spared, inv.heap.bare⟩, inv.table, inv.contexts⟩

/-- A seed, when everybody has handed back what they held. -/
theorem seeding_step (build : Build) {suite : Suite} (due : steadily tight held (Due (.seed suite)) state)
    (clean : tight → (seed build suite state.core).ledger.suite ≠ state.core.ledger.suite →
      ∀ pid, (state.core.table pid).root = 0 ∧ (state.core.table pid).resumeFrame = 0) :
    Ready tight held .run { state with core := seed build suite state.core } ∧
      Transits tight held state { state with core := seed build suite state.core } := by
  obtain ⟨steady, quiescent, onKernel⟩ := due
  obtain ⟨-, reseeded⟩ := seed_spec build suite steady.calm.core.loosen onKernel nofun
  have changes : (seed build suite state.core).ledger.suite ≠ state.core.ledger.suite := by
    rw [reseeded.suite]
    exact Nat.succ_ne_self _
  obtain ⟨inv, -⟩ := seed_spec build suite steady.calm.core onKernel fun assumed => clean assumed changes
  refine ⟨⟨⟨⟨inv, ?_, steady.calm.stream, steady.calm.whole⟩, steady.enabled, reseeded.current.trans steady.nobody⟩, trivial⟩,
    .seeds quiescent reseeded rfl⟩
  exact steady.calm.log.reseed reseeded.suite

theorem Phase.act {update : State → State} {next : State → Kernel Next}
    (phase : Phase build tight held state (.act update next))
    (clean : tight → (update state).core.ledger.suite ≠ state.core.ledger.suite →
      ∀ pid, (state.core.table pid).root = 0 ∧ (state.core.table pid).resumeFrame = 0) :
    Phase build tight held (update state) (next state) ∧ Transits tight held state (update state) := by
  cases phase with
  | handover other isPure ready => cases isPure
  | launching launch isLaunch window announced unspoken =>
    obtain ⟨rest, isAct, safe⟩ := launch_masked window announced unspoken
    rw [isAct] at isLaunch
    cases isLaunch
    exact ⟨.inside safe, .of_env rfl rfl⟩
  | seeding suite isSeed due =>
    cases isSeed
    obtain ⟨ready, transits⟩ := seeding_step build due clean
    exact ⟨.handover .run rfl ready, transits⟩
  | inside safe =>
    obtain ⟨-, transits, rest⟩ := safe state (.refl state)
    exact ⟨.inside rest, transits⟩

/-- With interrupts on, kernel code runs while nobody is current or is about to resume
the payload that is. -/
theorem Phase.awake (phase : Phase build tight held state program) (enabled : state.env.sie = true) :
    state.core.current = none ∨ ∃ launch, Window tight held launch state ∧ Pause launch program ∧
      ∀ state', Window tight held launch state' → state'.core.table = state.core.table →
        (Announced launch.pid state → Announced launch.pid state') → Phase build tight held state' program := by
  have handed : ∀ next, program = .pure next → Ready tight held next state → state.core.current = none ∨
      ∃ launch, Window tight held launch state ∧ Pause launch program ∧
        ∀ state', Window tight held launch state' → state'.core.table = state.core.table →
          (Announced launch.pid state → Announced launch.pid state') → Phase build tight held state' program := by
    rintro next rfl ready
    cases next with
    | launch launch =>
      refine .inr ⟨launch, ready.1, .handed, fun state' window same _ => .handover _ rfl ⟨window, ?_⟩⟩
      rw [Unspoken, same]
      exact ready.2
    | resumeUser satp frame =>
      obtain ⟨launch, rfl, rfl, window, announced⟩ := ready
      exact .inr ⟨launch, window, .spoken, fun state' window' _ kept =>
        .handover _ rfl ⟨launch, rfl, rfl, window', fun spoken => kept (announced spoken)⟩⟩
    | _ => exact .inl ready.1.nobody
  cases phase with
  | handover next isPure ready => exact handed next isPure ready
  | launching launch isLaunch window announced unspoken =>
    refine .inr ⟨launch, window, isLaunch ▸ .entered, fun state' window' same _ => .launching launch isLaunch window' announced ?_⟩
    rw [Unspoken, same]
    exact unspoken
  | seeding suite isSeed due => exact .inl due.1.nobody
  | inside safe =>
    cases program with
    | pure next => exact handed next rfl (safe state (.refl state))
    | act update next => exact .inl ((safe state (.refl state)).1.2 enabled)

end Kernai
