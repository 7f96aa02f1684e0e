import Kernai.Proofs.Deeds
import Kernai.Proofs.EventStream
import Kernai.Rpc

/-! The flight recorder against the history of the traps: what the trap ring and the
digest report in any state of any run. -/

namespace Kernai
open Foundation Program Kernel Payload Machine Traps

variable {build : Build} {config next : Config} {traps : List RingSlot} {slot : RingSlot} {recorder : Recorder} {env : Env}

def RingSlot.isTimer (slot : RingSlot) : Bool := slot.scause = Text.causeSTimer
def RingSlot.isEcall (slot : RingSlot) : Bool := slot.scause = Text.causeUEcall
def RingSlot.isNotable (slot : RingSlot) : Bool := !slot.isTimer
def RingSlot.isFault (slot : RingSlot) : Bool := slot.isNotable && !slot.isEcall

/-- The traps that are not ticks. -/
def notables (traps : List RingSlot) : List RingSlot := traps.filter (·.isNotable)

section Counting

/-- The recorder after these traps. Its counters are modulo 2^64, and so are their
remainders by the sizes of the rings. -/
structure Recorded (traps : List RingSlot) (recorder : Recorder) : Prop where
  ring : Recalls ringSize traps recorder.ring
  ringCount : recorder.ringCount = traps.length % 2 ^ 64
  notable : Recalls notableSize (notables traps) recorder.notable
  notableCount : recorder.notableCount = (notables traps).length % 2 ^ 64
  ticks : recorder.ticks = traps.countP (·.isTimer) % 2 ^ 64
  ecallTraps : recorder.ecallTraps = traps.countP (·.isEcall) % 2 ^ 64
  faultTraps : recorder.faultTraps = traps.countP (·.isFault) % 2 ^ 64

theorem bump_mod (n : Nat) : bump (n % 2 ^ 64) = (n + 1) % 2 ^ 64 := Nat.mod_add_mod _ _ _

/-- A ring whose size divides 2^64 does not notice that its counter wraps. -/
theorem Foundation.Recalls.store {size : Nat} {items : List RingSlot} {slots : Nat → RingSlot} (recalls : Recalls size items slots)
    (divides : size ∣ 2 ^ 64) (slot : RingSlot) :
    Recalls size (items ++ [slot]) (store slots (items.length % 2 ^ 64 % size) slot) := by
  rw [Nat.mod_mod_of_dvd _ divides]
  exact recalls.push slot

theorem Recorded.enter (recorded : Recorded traps recorder) (slot : RingSlot) :
    Recorded (traps ++ [slot]) (recorder.enter slot) := by
  obtain ⟨ring, ringCount, notable, notableCount, ticks, ecallTraps, faultTraps⟩ := recorded
  have entered : Recalls ringSize (traps ++ [slot]) (store recorder.ring (recorder.ringCount % ringSize) slot) :=
    ringCount ▸ ring.store (by decide) slot
  have counted : bump recorder.ringCount = (traps ++ [slot]).length % 2 ^ 64 := by
    rw [ringCount, bump_mod, List.length_append, List.length_singleton]
  by_cases timer : slot.scause = Text.causeSTimer
  · have plain : notables (traps ++ [slot]) = notables traps := by
      simp [notables, RingSlot.isNotable, RingSlot.isTimer, timer]
    have noEcall : slot.isEcall = false := by simp [RingSlot.isEcall, timer, show Text.causeSTimer ≠ Text.causeUEcall by decide]
    simp only [Recorder.enter, if_pos timer]
    refine ⟨entered, counted, plain ▸ notable, plain ▸ notableCount, ?_, ?_, ?_⟩
    · rw [ticks, bump_mod, List.countP_append]
      simp [RingSlot.isTimer, timer]
    · rw [ecallTraps, List.countP_append]
      simp [noEcall]
    · rw [faultTraps, List.countP_append]
      simp [RingSlot.isFault, RingSlot.isNotable, RingSlot.isTimer, timer]
  · have more : notables (traps ++ [slot]) = notables traps ++ [slot] := by
      simp [notables, RingSlot.isNotable, RingSlot.isTimer, timer]
    simp only [Recorder.enter, if_neg timer]
    refine ⟨entered, counted, ?_, ?_, ?_, ?_, ?_⟩
    · rw [more]
      exact notableCount ▸ notable.store (by decide) slot
    · rw [more, notableCount, bump_mod, List.length_append, List.length_singleton]
    · rw [ticks, List.countP_append]
      simp [RingSlot.isTimer, timer]
    · rw [List.countP_append]
      by_cases ecall : slot.scause = Text.causeUEcall
      · rw [if_pos ecall, ecallTraps, bump_mod]
        simp [RingSlot.isEcall, ecall]
      · rw [if_neg ecall, ecallTraps]
        simp [RingSlot.isEcall, ecall]
    · rw [List.countP_append]
      by_cases ecall : slot.scause = Text.causeUEcall
      · rw [if_pos ecall, faultTraps]
        simp [RingSlot.isFault, RingSlot.isEcall, ecall]
      · rw [if_neg ecall, faultTraps, bump_mod]
        simp [RingSlot.isFault, RingSlot.isEcall, RingSlot.isNotable, RingSlot.isTimer, timer, ecall]

theorem countP_classes (traps : List RingSlot) :
    traps.length = traps.countP (·.isTimer) + traps.countP (·.isEcall) + traps.countP (·.isFault) := by
  induction traps with
  | nil => rfl
  | cons slot rest ih =>
    have one : (if slot.isTimer then 1 else 0) + (if slot.isEcall then 1 else 0) + (if slot.isFault then 1 else 0) = 1 := by
      by_cases timer : slot.scause = Text.causeSTimer
      · simp [RingSlot.isFault, RingSlot.isNotable, RingSlot.isTimer, RingSlot.isEcall, timer,
          show Text.causeSTimer ≠ Text.causeUEcall by decide]
      · by_cases ecall : slot.scause = Text.causeUEcall
        · simp [RingSlot.isFault, RingSlot.isNotable, RingSlot.isTimer, RingSlot.isEcall, ecall,
            show Text.causeUEcall ≠ Text.causeSTimer by decide]
        · simp [RingSlot.isFault, RingSlot.isNotable, RingSlot.isTimer, RingSlot.isEcall, timer, ecall]
    rw [List.length_cons, List.countP_cons, List.countP_cons, List.countP_cons, ih]
    omega

theorem countP_classes_lt (few : traps.length < 2 ^ 64) :
    traps.countP (·.isTimer) < 2 ^ 64 ∧ traps.countP (·.isEcall) < 2 ^ 64 ∧ traps.countP (·.isFault) < 2 ^ 64 ∧
      (notables traps).length < 2 ^ 64 := by
  have total := countP_classes traps
  have shown := List.length_filter_le (·.isNotable) traps
  unfold notables
  omega

/-- The ring is reported as the last traps, oldest first. -/
theorem Recorded.entries (recorded : Recorded traps env.recorder) (few : traps.length < 2 ^ 64) :
    env.ringCount = traps.length ∧ ringEntries env = recent ringSize traps := by
  have count : env.ringCount = traps.length := recorded.ringCount.trans (Nat.mod_eq_of_lt few)
  refine ⟨count, ?_⟩
  unfold ringEntries
  rw [count]
  exact recorded.ring.oldest

/-- The digest shows the last notable traps, newest first. -/
theorem Recorded.items (recorded : Recorded traps env.recorder) (few : (notables traps).length < 2 ^ 64) (budget : Nat) :
    digestItems env budget = (notables traps).reverse.take (min budget notableSize) := by
  have count : env.notableCount = (notables traps).length := recorded.notableCount.trans (Nat.mod_eq_of_lt few)
  unfold digestItems
  rw [count, Nat.min_assoc]
  refine (recorded.notable.newest (Nat.min_le_left _ _) ((Nat.min_le_right _ _).trans (Nat.min_le_right _ _))).trans ?_
  rw [← List.length_reverse, Nat.min_comm]
  exact List.take_eq_take_min.symm

end Counting

namespace Machine

/-- The steps that take a trap, with what there is to note of it. -/
inductive Trapping (build : Build) : Config → RingSlot → Config → Prop where
  | crash {config : Config} (frame : TrapFrame) (stval : Nat) (running : config.hart = .kernel (.pure .crash))
      (supervisor : frame.isFromUser = false) :
      Trapping build config (trapSlot frame Text.causeIllegalInstruction stval config.state)
        (trap build config frame Text.causeIllegalInstruction stval (.pure .crash))
  | kernelTick {config : Config} {program : Kernel Next} (frame : TrapFrame) (running : config.hart = .kernel program)
      (enabled : config.state.env.sie = true) (supervisor : frame.isFromUser = false)
      (enabledBefore : spie frame.sstatus = true)
      (place : frame.sepc = build.schedulerResume → program = Main.code build .run) :
      Trapping build config (trapSlot frame Text.causeSTimer 0 config.state) (kernelTick build config program frame)
  | userTick {config : Config} {context : TrapFrame} (running : config.hart = .user context) :
      Trapping build config (trapSlot context Text.causeSTimer 0 config.state)
        (userTrap build config context Text.causeSTimer 0)
  | ecall {config : Config} {context : TrapFrame} (running : config.hart = .user context) :
      Trapping build config (trapSlot context Text.causeUEcall 0 config.state)
        (userTrap build config context Text.causeUEcall 0)
  | fault {config : Config} {context : TrapFrame} (scause stval : Nat) (running : config.hart = .user context)
      (other : scause ≠ Text.causeSTimer ∧ scause ≠ Text.causeUEcall) :
      Trapping build config (trapSlot context scause stval config.state) (userTrap build config context scause stval)

/-- The other steps. -/
inductive Quiet (build : Build) : Config → Config → Prop where
  | act {config : Config} {update : State → State} {next : State → Kernel Next}
      (running : config.hart = .kernel (.act update next)) :
      Quiet build config { config with hart := .kernel (next config.state), state := update config.state }
  | enter {config : Config} {next : Next} (running : config.hart = .kernel (.pure next))
      (stays : leavesKernel next = false) : Quiet build config { config with hart := .kernel (Main.code build next) }
  | resume {config : Config} {satp frame : Nat} (running : config.hart = .kernel (.pure (.resumeUser satp frame))) :
      Quiet build config (resume config satp frame)
  | panicked {config : Config} (running : config.hart = .kernel (.pure .panicked)) :
      Quiet build config { config with hart := .off }
  | compute {config : Config} {context : TrapFrame} (regs : Fin 31 → UInt64) (sepc : UInt64)
      (running : config.hart = .user context) : Quiet build config { config with hart := .user { context with regs, sepc } }
  | store {config : Config} {context : TrapFrame} (va pa : Nat) (byte : UInt8) (running : config.hart = .user context)
      (allowed : Sv39.storeAddress config.state.core.phys.mem (Sv39.satpRoot config.state.core.phys.satp) va = some pa) :
      Quiet build config { config with state := storeByte config.state pa byte }
  | receive {config : Config} (byte : UInt8) : Quiet build config { config with state := receive config.state byte }

theorem step_iff : Step build config next ↔ (∃ slot, Trapping build config slot next) ∨ Quiet build config next := by
  constructor
  · intro step
    cases step with
    | act running => exact .inr (.act running)
    | enter running stays => exact .inr (.enter running stays)
    | resume running => exact .inr (.resume running)
    | crash frame stval running supervisor => exact .inl ⟨_, .crash frame stval running supervisor⟩
    | panicked running => exact .inr (.panicked running)
    | kernelTick frame running enabled supervisor enabledBefore place =>
      exact .inl ⟨_, .kernelTick frame running enabled supervisor enabledBefore place⟩
    | userTick running => exact .inl ⟨_, .userTick running⟩
    | ecall running => exact .inl ⟨_, .ecall running⟩
    | fault scause stval running other => exact .inl ⟨_, .fault scause stval running other⟩
    | compute regs sepc running => exact .inr (.compute regs sepc running)
    | store va pa byte running allowed => exact .inr (.store va pa byte running allowed)
    | receive byte => exact .inr (.receive byte)
  · rintro (⟨slot, takes⟩ | moves)
    · cases takes with
      | crash frame stval running supervisor => exact .crash frame stval running supervisor
      | kernelTick frame running enabled supervisor enabledBefore place =>
        exact .kernelTick frame running enabled supervisor enabledBefore place
      | userTick running => exact .userTick running
      | ecall running => exact .ecall running
      | fault scause stval running other => exact .fault scause stval running other
    · cases moves with
      | act running => exact .act running
      | enter running stays => exact .enter running stays
      | resume running => exact .resume running
      | panicked running => exact .panicked running
      | compute regs sepc running => exact .compute regs sepc running
      | store va pa byte running allowed => exact .store va pa byte running allowed
      | receive byte => exact .receive byte

/-- Runs from boot with the traps they took, in order. -/
inductive History (build : Build) : List RingSlot → Config → Prop where
  | boot : History build [] (boot build)
  | trap {traps : List RingSlot} {config next : Config} {slot : RingSlot} (history : History build traps config)
      (takes : Trapping build config slot next) : History build (traps ++ [slot]) next
  | quiet {traps : List RingSlot} {config next : Config} (history : History build traps config)
      (moves : Quiet build config next) : History build traps next

theorem reachable_iff_history : Reachable build anyStep config ↔ ∃ traps, History build traps config := by
  constructor
  · intro reached
    induction reached with
    | boot => exact ⟨[], .boot⟩
    | step _ step _ ih =>
      obtain ⟨traps, history⟩ := ih
      rcases step_iff.mp step with ⟨slot, takes⟩ | moves
      · exact ⟨_, .trap history takes⟩
      · exact ⟨_, .quiet history moves⟩
  · rintro ⟨traps, history⟩
    induction history with
    | boot => exact .boot
    | trap _ takes ih => exact .step ih (step_iff.mpr (.inl ⟨_, takes⟩)) trivial
    | quiet _ moves ih => exact .step ih (step_iff.mpr (.inr moves)) trivial

end Machine

section Steps

/-- Every action the hart has before it, now or once it resumes interrupted code, is a
deed. -/
structure Lawful (config : Config) : Prop where
  running : ∀ program, config.hart = .kernel program → Within Deed program
  interrupted : ∀ at', Within Deed (config.interrupted at')

theorem trap_lawful (lawful : Lawful config) (frame : TrapFrame) (scause stval : Nat) {program : Kernel Next}
    (within : Within Deed program) : Lawful (trap build config frame scause stval program) := by
  unfold trap
  split
  · unfold trapReturn
    dsimp only
    split
    · exact ⟨nofun, lawful.interrupted⟩
    · split
      · exact ⟨fun _ isRun => Hart.kernel.inj isRun ▸ code_deeds .run, lawful.interrupted⟩
      · exact ⟨fun _ same => Hart.kernel.inj same ▸ within, lawful.interrupted⟩
  · exact ⟨nofun, lawful.interrupted⟩

theorem trap_reported (build : Build) (config : Config) (frame : TrapFrame) (scause stval : Nat) (program : Kernel Next) :
    Reported (trapSlot frame scause stval config.state) config.state (trap build config frame scause stval program).state := by
  have silent : ∀ (state : State) sie, Orderly state (setSie state sie) := fun _ _ =>
    ⟨⟨.inl rfl, rfl⟩, ⟨List.prefix_refl _, List.prefix_refl _, List.prefix_refl _⟩, .same rfl, rfl, .refl _, rfl⟩
  have handled := handle_reported build frame scause stval (setSie config.state false)
  have reported : Reported (trapSlot frame scause stval config.state) config.state
      ((handle build frame scause stval).run (setSie config.state false)).2 :=
    ⟨(silent _ _).toShallow.trans handled.toShallow, (silent _ _).grows.trans handled.grows, handled.spoken, handled.heard, handled.timed,
      handled.recorder⟩
  unfold trap
  generalize (handle build frame scause stval).run (setSie config.state false) = result at reported ⊢
  obtain ⟨back, after⟩ := result
  cases back with
  | none => exact reported
  | some back =>
    have returned : ∀ sie, Reported (trapSlot frame scause stval config.state) config.state (setSie after sie) :=
      fun sie => reported.next (silent _ sie)
    unfold trapReturn
    dsimp only
    split
    · exact returned _
    · split <;> exact returned _

theorem userTrap_reported (build : Build) (config : Config) (context : TrapFrame) (scause stval : Nat) :
    Reported (trapSlot context scause stval config.state) config.state (userTrap build config context scause stval).state := by
  have noted := noteUser_unrecorded config.state context
  have env : (noteUser config.state context).env = config.state.env := by
    unfold noteUser
    split <;> rfl
  have reported := trap_reported build { config with state := noteUser config.state context } context scause stval (.pure .run)
  have slot : trapSlot context scause stval (noteUser config.state context) = trapSlot context scause stval config.state := by
    simp only [trapSlot, env]
  refine ⟨noted.shallow.trans reported.toShallow, noted.grows.trans reported.grows, ?_, ?_, noted.core.timed.trans reported.timed,
    ?_⟩
  · rw [← env]
    exact reported.spoken
  · rw [← env]
    exact reported.heard
  · rw [← slot, ← env]
    exact reported.recorder

theorem kernelTick_state (build : Build) (config : Config) (program : Kernel Next) (frame : TrapFrame) :
    (kernelTick build config program frame).state = (trap build config frame Text.causeSTimer 0 program).state := by
  unfold kernelTick
  dsimp only
  split <;> rfl

theorem kernelTick_lawful (lawful : Lawful config) {program : Kernel Next} (within : Within Deed program) (frame : TrapFrame) :
    Lawful (kernelTick build config program frame) := by
  have trapped : Lawful (trap build config frame Text.causeSTimer 0 program) := trap_lawful lawful frame _ _ within
  unfold kernelTick
  dsimp only
  split
  · refine ⟨trapped.running, fun at' => ?_⟩
    dsimp only
    split
    · exact within
    · exact lawful.interrupted at'
  · exact trapped

theorem Machine.Trapping.reported (takes : Trapping build config slot next) : Reported slot config.state next.state := by
  cases takes with
  | crash frame stval running supervisor => exact trap_reported ..
  | kernelTick frame running enabled supervisor enabledBefore place =>
    rw [kernelTick_state]
    exact trap_reported ..
  | userTick running => exact userTrap_reported ..
  | ecall running => exact userTrap_reported ..
  | fault scause stval running other => exact userTrap_reported ..

theorem Machine.Trapping.lawful (takes : Trapping build config slot next) (lawful : Lawful config) : Lawful next := by
  have user : ∀ context scause stval, Lawful (userTrap build config context scause stval) := by
    intro context scause stval
    have noted : Lawful { config with state := noteUser config.state context } := ⟨lawful.running, lawful.interrupted⟩
    exact trap_lawful noted context scause stval (Within.pure Next.run)
  cases takes with
  | crash frame stval running supervisor => exact trap_lawful lawful _ _ _ (.pure _)
  | kernelTick frame running enabled supervisor enabledBefore place =>
    exact kernelTick_lawful lawful (lawful.running _ running) frame
  | userTick running => exact user ..
  | ecall running => exact user ..
  | fault scause stval running other => exact user ..

theorem Machine.Quiet.deed (moves : Quiet build config next) (lawful : Lawful config) : Onward config.state next.state := by
  have still : Onward config.state config.state := ⟨.refl _, .same rfl, rfl, fun _ => .refl _⟩
  cases moves with
  | act running => exact (lawful.running _ running config.state).1.toOnward
  | enter running stays => exact still
  | resume running =>
    unfold Machine.resume
    dsimp only
    split
    · refine ⟨⟨?_, List.prefix_refl _, List.prefix_refl _⟩, .same rfl, rfl, fun _ => ((phys_record _ _).trans (noteEntered_record _)).timed⟩
      exact ((phys_record _ _).trans (noteEntered_record _)).journal_grows
    · exact ⟨⟨List.prefix_refl _, List.prefix_refl _, List.prefix_refl _⟩, .same rfl, rfl, fun _ => .same rfl rfl⟩
  | panicked running => exact still
  | compute regs sepc running => exact still
  | store va pa byte running allowed => exact ⟨.ofCore (List.prefix_refl _), .same rfl, rfl, fun _ => .same rfl rfl⟩
  | receive byte => exact ⟨⟨List.prefix_refl _, List.prefix_refl _, List.prefix_refl _⟩, .same rfl, rfl, fun _ => .refl _⟩

theorem Machine.Quiet.lawful (moves : Quiet build config next) (lawful : Lawful config) : Lawful next := by
  cases moves with
  | act running =>
    exact ⟨fun _ same => Hart.kernel.inj same ▸ (lawful.running _ running config.state).2, lawful.interrupted⟩
  | enter running stays => exact ⟨fun _ same => Hart.kernel.inj same ▸ code_deeds _, lawful.interrupted⟩
  | resume running =>
    unfold Machine.resume
    dsimp only
    split
    · exact ⟨nofun, lawful.interrupted⟩
    · exact ⟨fun _ same => Hart.kernel.inj same ▸ lawful.interrupted _, lawful.interrupted⟩
  | panicked running => exact ⟨nofun, lawful.interrupted⟩
  | compute regs sepc running => exact ⟨nofun, lawful.interrupted⟩
  | store va pa byte running allowed => exact ⟨lawful.running, lawful.interrupted⟩
  | receive byte => exact ⟨lawful.running, lawful.interrupted⟩

theorem boot_lawful (build : Build) : Lawful (boot build) := by
  rw [boot_eq]
  exact ⟨fun _ same => Hart.kernel.inj same ▸ .pure _, fun _ => .pure _⟩

/-- The recorder is the history, in every state of every run. -/
theorem Machine.History.recorded (history : History build traps config) :
    Lawful config ∧ Recorded traps config.state.env.recorder := by
  induction history with
  | boot =>
    refine ⟨boot_lawful build, ?_⟩
    rw [boot_eq]
    exact ⟨.empty _ _, rfl, .empty _ _, rfl, rfl, rfl, rfl⟩
  | trap _ takes ih =>
    refine ⟨takes.lawful ih.1, ?_⟩
    rw [takes.reported.recorder]
    exact ih.2.enter _
  | quiet _ moves ih =>
    refine ⟨moves.lawful ih.1, ?_⟩
    rw [(moves.deed ih.1).recorder]
    exact ih.2

end Steps

section Reports
open Rpc

/-- What the digest says of a history under a budget. -/
def digestReport (traps : List RingSlot) (budget : Nat) (autonomous : Bool) : Result :=
  .digest budget autonomous (traps.countP (·.isTimer)) (traps.countP (·.isEcall)) (traps.countP (·.isFault)) traps.length
    ((notables traps).reverse.take (min budget notableSize))

theorem Recorded.digest {state : State} (recorded : Recorded traps state.env.recorder) (few : traps.length < 2 ^ 64)
    (budget : Nat) : digestOf budget state = digestReport traps budget state.core.autonomous := by
  obtain ⟨timers, ecalls, faults, shown⟩ := countP_classes_lt few
  have ticks : state.env.ticks = _ := recorded.ticks.trans (Nat.mod_eq_of_lt timers)
  have ecallTraps : state.env.ecallTraps = _ := recorded.ecallTraps.trans (Nat.mod_eq_of_lt ecalls)
  have faultTraps : state.env.faultTraps = _ := recorded.faultTraps.trans (Nat.mod_eq_of_lt faults)
  unfold digestOf digestReport
  rw [ticks, ecallTraps, faultTraps, (recorded.entries few).1, recorded.items shown budget]

end Reports

end Kernai
