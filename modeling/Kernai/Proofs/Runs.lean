import Kernai.Machine
import Kernai.Proofs.Images

/-! Runs of the machine that can be computed: a script of what happens outside the
kernel, with the kernel running on in between. -/

namespace Kernai.Machine
open Foundation Payload

variable {build : Build} {allowed : Config → Config → Prop} {fine : Config → Config → Bool} {before after final : Config}

/-- What happens next. `settle` is the kernel executing up to its next hand-over, `enter`
the hand-over itself. -/
inductive Move where
  | settle
  | enter
  | receive (byte : UInt8)
  | kernelTick (frame : TrapFrame)
  | userTick
  | compute (regs : Fin 31 → UInt64) (sepc : UInt64)
  | ecall
  | fault (stval : Nat)

/-- The kernel's own actions up to the hand-over, each of which has to be fine. -/
def settle (fine : Config → Config → Bool) : Kernel Next → Config → Option Config
  | .pure _, config => some config
  | .act update rest, config =>
    let after := { config with hart := .kernel (rest config.state), state := update config.state }
    if fine config after then settle fine (rest config.state) after else none

/-- Any other move is one step. -/
def perform (build : Build) (config : Config) : Move → Option Config
  | .settle => none
  | .enter =>
    match config.hart with
    | .kernel (.pure (.resumeUser satp frame)) => some (resume config satp frame)
    | .kernel (.pure next) => if leavesKernel next then none else some { config with hart := .kernel (Main.code build next) }
    | _ => none
  | .receive byte => some { config with state := receive config.state byte }
  | .kernelTick frame =>
    match config.hart with
    | .kernel program =>
      if config.state.env.sie ∧ frame.isFromUser = false ∧ spie frame.sstatus ∧ frame.sepc ≠ build.schedulerResume then
        some (kernelTick build config program frame)
      else none
    | _ => none
  | .userTick =>
    match config.hart with
    | .user context => some (userTrap build config context Text.causeSTimer 0)
    | _ => none
  | .compute regs sepc =>
    match config.hart with
    | .user context => some { config with hart := .user { context with regs, sepc } }
    | _ => none
  | .ecall =>
    match config.hart with
    | .user context => some (userTrap build config context Text.causeUEcall 0)
    | _ => none
  | .fault stval =>
    match config.hart with
    | .user context => some (userTrap build config context Text.causeIllegalInstruction stval)
    | _ => none

def play (build : Build) (fine : Config → Config → Bool) : List Move → Config → Option Config
  | [], config => some config
  | .settle :: moves, config =>
    match config.hart with
    | .kernel program => (settle fine program config).bind (play build fine moves)
    | _ => none
  | move :: moves, config => (perform build config move).bind fun next =>
    if fine config next then play build fine moves next else none

theorem settle_later (sound : ∀ config next, fine config next = true → allowed config next) {program : Kernel Next}
    (running : before.hart = .kernel program) (settles : settle fine program before = some final) :
    Later build allowed before final := by
  induction program generalizing before with
  | pure value =>
    cases settles
    exact .refl
  | act update rest ih =>
    rw [settle] at settles
    split at settles
    · next isFine => exact .head ⟨.act running, sound _ _ isFine⟩ (ih before.state rfl settles)
    · cases settles

theorem perform_step {move : Move} (performs : perform build before move = some after) : Step build before after := by
  cases move with
  | settle => cases performs
  | enter =>
    simp only [perform] at performs
    split at performs
    · next satp frame running =>
      cases performs
      exact .resume running
    · next value _ running =>
      split at performs
      · cases performs
      · next stays =>
        cases performs
        exact .enter running (Bool.eq_false_iff.mpr stays)
    · cases performs
  | receive byte =>
    cases performs
    exact .receive byte
  | kernelTick frame =>
    simp only [perform] at performs
    split at performs
    · next program running =>
      split at performs
      · next taken =>
        cases performs
        exact .kernelTick frame running taken.1 taken.2.1 taken.2.2.1 fun elsewhere => absurd elsewhere taken.2.2.2
      · cases performs
    · cases performs
  | userTick =>
    simp only [perform] at performs
    split at performs
    · next context running =>
      cases performs
      exact .userTick running
    · cases performs
  | compute regs sepc =>
    simp only [perform] at performs
    split at performs
    · next context running =>
      cases performs
      exact .compute regs sepc running
    · cases performs
  | ecall =>
    simp only [perform] at performs
    split at performs
    · next context running =>
      cases performs
      exact .ecall running
    · cases performs
  | fault stval =>
    simp only [perform] at performs
    split at performs
    · next context running =>
      cases performs
      exact .fault _ stval running (by decide)
    · cases performs

theorem play_later (sound : ∀ config next, fine config next = true → allowed config next) (moves : List Move)
    (plays : play build fine moves before = some final) : Later build allowed before final := by
  induction moves generalizing before with
  | nil =>
    cases plays
    exact .refl
  | cons move moves ih =>
    by_cases settles : move = .settle
    · subst settles
      rw [play] at plays
      split at plays
      · next program running =>
        obtain ⟨middle, settled, rest⟩ := Option.bind_eq_some_iff.mp plays
        exact (settle_later sound running settled).trans (ih rest)
      · cases plays
    · rw [play] at plays
      · obtain ⟨middle, performs, rest⟩ := Option.bind_eq_some_iff.mp plays
        split at rest
        · next isFine => exact .head ⟨perform_step performs, sound _ _ isFine⟩ (ih rest)
        · cases rest
      · exact settles

theorem Later.reachable (reached : Reachable build allowed before) (later : Later build allowed before final) :
    Reachable build allowed final := by
  induction later with
  | refl => exact reached
  | tail _ step ih => exact .step ih step.1 step.2

/-- A computed run that keeps to a condition and ends as it should. -/
structure Script (build : Build) (fine : Config → Config → Bool) (start : Config) (test : Config → Prop)
    [DecidablePred test] where
  moves : List Move
  passes : (play build fine moves start).any (fun config => test config) = true

namespace Script

variable {start : Config} {test : Config → Prop} [DecidablePred test] (script : Script build fine start test)

theorem isSome : (play build fine script.moves start).isSome = true := by
  have passes := script.passes
  cases played : play build fine script.moves start with
  | none =>
    rw [played] at passes
    cases passes
  | some config => rfl

@[irreducible] def config : Config := (play build fine script.moves start).get script.isSome

theorem played : play build fine script.moves start = some script.config := by
  rw [config, Option.some_get]

theorem tested : test script.config := by
  have passes := script.passes
  rw [script.played] at passes
  exact of_decide_eq_true passes

theorem later (sound : ∀ config next, fine config next = true → allowed config next) :
    Later build allowed start script.config := play_later sound script.moves script.played

end Script

theorem Script.reachable {test : Config → Prop} [DecidablePred test] (script : Script build fine (boot build) test)
    (sound : ∀ config next, fine config next = true → allowed config next) : Reachable build allowed script.config :=
  (script.later sound).reachable .boot

/-- Any step will do. -/
def anyMove : Config → Config → Bool := fun _ _ => true

theorem anyMove_sound (config next : Config) (_ : anyMove config next = true) : anyStep config next := trivial

/-- The context of a payload that has the CPU. -/
def contextOf : Hart → Option TrapFrame
  | .user context => some context
  | _ => none

theorem contextOf_user {hart : Hart} {context : TrapFrame} (found : contextOf hart = some context) : hart = .user context := by
  cases hart with
  | user other =>
    cases found
    rfl
  | kernel program => cases found
  | off => cases found

/-- The idle loop is about to take its next turn. -/
def atIdle : Hart → Bool
  | .kernel (.pure .idle) => true
  | _ => false

theorem atIdle_iff {hart : Hart} (idles : atIdle hart = true) : hart = .kernel (.pure .idle) := by
  unfold atIdle at idles
  split at idles
  · rfl
  · cases idles

/-- What the kernel does up to its next hand-over, then so many of them with what follows. -/
def handOvers (count : Nat) : List Move := .settle :: (List.replicate count [.enter, .settle]).flatten

/-- A system call with two arguments. -/
def syscall (number a0 a1 : UInt64) : List Move :=
  [.compute (fun i => if i = TrapFrame.xA7 then number else if i = TrapFrame.xA0 then a0
    else if i = TrapFrame.xA1 then a1 else 0) 0x80000000, .ecall]

/-- The bytes of a request frame arrive. -/
def request (body : String) : List Move :=
  (Console.magic ++ Console.FrameBuf.le32 (Console.utf8 body).length ++ Console.utf8 body).map .receive

/-- A build in which every payload is this file, and the clock counts its reads. -/
def sampleBuild (doom : Bool) (image : Bytes) : Build where
  doom
  cpayloads := false
  payloadElf := fun _ => image
  schedulerResume := 0x80000100
  bootStackTop := 0x80010000
  ram := fun _ => 0
  clock := fun reads => reads

/-- A file without segments, which `load` accepts: the entry point is in the kernel's map. -/
def bareImage : Bytes := Elf.elfFile 0x80000000 [] []

theorem bareImage_wellFormed : Elf.WellFormed bareImage := by
  intro header checked i inside
  have bare : Elf.readHeader bareImage = .ok ⟨0x80000000, 64, 56, 0⟩ := by rfl
  cases bare.symm.trans checked
  cases inside

/-- The default build with that file, and the doom build. -/
def bareBuild : Build := sampleBuild false bareImage
def doomBuild : Build := sampleBuild true bareImage

theorem bareBuild_wellFormed (image : ImageId) : Elf.WellFormed (bareBuild.elf image) := by
  have empty : Elf.WellFormed [] := fun header checked => by cases checked
  unfold Build.elf
  split
  · exact bareImage_wellFormed
  split
  · exact empty
  split
  · exact empty
  · exact bareImage_wellFormed

/-- A page of code and a page of data. -/
def dataImage : Bytes :=
  Elf.elfFile 0x10000 [⟨Elf.pfR ||| Elf.pfX, 176, 0x10000, 4, 4⟩, ⟨Elf.pfR ||| Elf.pfW, 180, 0x20000, 0, 16⟩]
    [0x73, 0, 0, 0]

def dataBuild : Build := sampleBuild false dataImage

/-- The first two slots of the table. -/
def pid0 : Pid := 0
def pid1 : Pid := 1

/-- Registers of kernel code that a tick interrupts. -/
def kernelFrame : TrapFrame := { regs := fun _ => 0, sepc := 0x80000200, sstatus := sstatusSpp ||| sstatusSpie }

/-- The operator starts suite `d`, and its payload gets the CPU. -/
def startSuite : List Move := .receive 0x64 :: (handOvers 7 ++ [.enter])

end Kernai.Machine
