import Kernai.Machine
import Kernai.Proofs.Heap

/-! The invariant of the kernel's core state, and what a step may do to it. -/

namespace Kernai
open Foundation Hal Frames Mm Payload Context

/-- A capability set inside another. -/
def CapsWithin (caps limit : Nat) : Prop := caps &&& limit = caps

theorem CapsWithin.refl (caps : Nat) : CapsWithin caps caps := Nat.and_self caps

theorem CapsWithin.trans {first second third : Nat} (left : CapsWithin first second) (right : CapsWithin second third) :
    CapsWithin first third := by
  unfold CapsWithin at *
  rw [← left, Nat.and_assoc, right]

theorem capsWithin_and_left (first second : Nat) : CapsWithin (first &&& second) first := by
  unfold CapsWithin
  rw [Nat.and_right_comm, Nat.and_self]

theorem capsWithin_and_right (first second : Nat) : CapsWithin (first &&& second) second := by
  unfold CapsWithin
  rw [Nat.and_assoc, Nat.and_self]

/-- On the CPU, or taken off it by a tick. -/
def Slot.engaged (slot : Slot) : Bool := slot.state = .running || (slot.state = .pending && slot.preempted)

/-- Waiting to be started. -/
def Slot.queued (slot : Slot) : Bool := slot.state = .pending && !slot.preempted

theorem Slot.queued_iff {slot : Slot} : slot.queued = true ↔ slot.state = .pending ∧ slot.preempted = false := by
  simp [Slot.queued]

/-- The process table: capabilities only shrink from parent to child, slots fill
up from below, and a payload gets the CPU only after every lower pid is done. -/
structure Table (core : Core) : Prop where
  ceiling : ∀ pid, CapsWithin (core.table pid).caps (images.get (core.table pid).image).caps
  delegated : ∀ pid parent, (core.table pid).state ≠ .empty → (core.table pid).parent = some parent →
    (core.table parent).state ≠ .empty ∧ CapsWithin (core.table pid).caps (core.table parent).caps
  packed : ∀ pid : Pid, (core.table pid).state ≠ .empty ↔ pid.val < core.ledger.enqueued
  room : core.ledger.enqueued ≤ maxProc
  running : ∀ pid, (core.table pid).state = .running → core.current = some pid
  paired : ∀ pid, (core.table pid).state ≠ .empty → ((core.table pid).root ≠ 0 ↔ (core.table pid).resumeFrame ≠ 0)
  loaded : ∀ pid, (core.table pid).engaged = true → (core.table pid).resumeFrame ≠ 0
  order : ∀ pid lower, (core.table pid).engaged = true → lower < pid → (core.table lower).state.terminal = true
  starts : core.ledger.starts.Nodup
  started : ∀ pid ∈ core.ledger.starts, (core.table pid).state ≠ .empty ∧
    ((core.table pid).state = .pending → (core.table pid).preempted = true)
  unstarted : ∀ pid, (core.table pid).queued = true → (core.table pid).startEvent = 0

/-- A context of U-mode with interrupts on. -/
structure UserContext (context : TrapFrame) : Prop where
  status : Machine.userStatus context.sstatus = context.sstatus
  enabled : Machine.spie context.sstatus = true

/-- Which payloads may have a context of the kernel in their resume frame, by pid,
root and frame. Where ticks preempt in U-mode only, none. -/
abbrev Held := Pid → Nat → Nat → Prop

/-- A payload off the CPU: its memory is what it last saw, and its resume frame
holds the context it last had, or one of the kernel where that may be. -/
structure Parked (held : Nat → Nat → Prop) (mem : Memory) (slot : Slot) : Prop where
  memory : Sv39.view mem slot.root = slot.lastMemory
  context : (loadFrame mem slot.resumeFrame = slot.lastUser ∧ UserContext slot.lastUser) ∨
    (held slot.root slot.resumeFrame ∧ (loadFrame mem slot.resumeFrame).isFromUser = false ∧
      Machine.spie (loadFrame mem slot.resumeFrame).sstatus = true)

/-- The frozen state of a checkpoint is what its taker had. -/
structure Frozen (mem : Memory) (snap : Snapshot) (checkpoint : Checkpoint) : Prop where
  caps : checkpoint.caps = snap.caps
  user : UserContext checkpoint.context
  context : loadFrame mem snap.frame = checkpoint.context.setA0 0
  memory : Sv39.view mem snap.root = checkpoint.memory

structure Contexts (held : Held) (core : Core) : Prop where
  parked : ∀ pid, (core.table pid).state = .pending → (core.table pid).resumeFrame ≠ 0 →
    Parked (held pid) core.phys.mem (core.table pid)
  frozen : ∀ sid, (core.snaps sid).valid = true → ∃ checkpoint,
    core.ledger.taken[(core.snaps sid).serial]? = some checkpoint ∧ Frozen core.phys.mem (core.snaps sid) checkpoint
  restored : ∀ pid serial, (core.table pid).state ≠ .empty → (core.table pid).origin = some serial →
    ((core.table pid).state = .pending → (core.table pid).resumeFrame ≠ 0) ∧ ∃ checkpoint,
      core.ledger.taken[serial]? = some checkpoint ∧ CapsWithin (core.table pid).caps checkpoint.caps ∧
        ((core.table pid).entered = false →
          (core.table pid).lastUser = checkpoint.context.setA0 0 ∧ (core.table pid).lastMemory = checkpoint.memory)

structure CoreInv (tight : Prop) (held : Held) (core : Core) : Prop where
  heap : Heap tight core
  table : Table core
  contexts : Contexts held core

/-- What a slot in use keeps as long as it is not recycled. -/
structure SlotKeeps (old new : Slot) : Prop where
  present : new.state ≠ .empty
  caps : new.caps = old.caps
  parent : new.parent = old.parent
  image : new.image = old.image
  origin : new.origin = old.origin
  ended : old.state.terminal = true → new.state = old.state

/-- A change within one suite. -/
structure Advances (core core' : Core) : Prop where
  suite : core'.ledger.suite = core.ledger.suite
  taken : core.ledger.taken <+: core'.ledger.taken
  slots : ∀ pid, (core.table pid).state ≠ .empty → SlotKeeps (core.table pid) (core'.table pid)

/-- A change within one suite that puts no payload on the CPU. One that a tick
took off it waits untouched, unless the operator names it. -/
structure Evolves (core core' : Core) : Prop extends Advances core core' where
  history : ∀ pid, (core.table pid).state ≠ .empty → (core'.table pid).lastUser = (core.table pid).lastUser ∧
    (core'.table pid).lastMemory = (core.table pid).lastMemory ∧ (core'.table pid).entered = (core.table pid).entered
  anchor : ∀ pid, (core.table pid).state ≠ .empty → (core'.table pid).startEvent = (core.table pid).startEvent
  running : ∀ pid, (core'.table pid).state = .running → (core.table pid).state = .running
  engaged : ∀ pid, (core'.table pid).engaged = true → (core.table pid).engaged = true
  queued : ∀ pid, (core'.table pid).queued = true → (core.table pid).state = .empty ∨ (core.table pid).queued = true
  born : ∀ pid, (core.table pid).state = .empty → (core'.table pid).state ≠ .empty → (core'.table pid).startEvent = 0 ∧
    ∀ parent, (core'.table pid).parent = some parent → (core.table parent).state = .running
  remedies : ∀ pid, core.ledger.remedies.count pid ≤ core'.ledger.remedies.count pid
  waiting : ∀ pid, (core.table pid).state = .pending → (core.table pid).preempted = true →
    core'.table pid = core.table pid ∨ core.ledger.remedies.count pid < core'.ledger.remedies.count pid

theorem SlotKeeps.refl {slot : Slot} (used : slot.state ≠ .empty) : SlotKeeps slot slot :=
  ⟨used, rfl, rfl, rfl, rfl, fun _ => rfl⟩

theorem SlotKeeps.trans {first second third : Slot} (left : SlotKeeps first second) (right : SlotKeeps second third) :
    SlotKeeps first third :=
  ⟨right.present, right.caps.trans left.caps, right.parent.trans left.parent, right.image.trans left.image,
    right.origin.trans left.origin, fun ended => by rw [right.ended (by rw [left.ended ended]; exact ended), left.ended ended]⟩

theorem Advances.refl (core : Core) : Advances core core :=
  ⟨rfl, List.prefix_refl _, fun _ used => .refl used⟩

theorem Advances.trans {first second third : Core} (left : Advances first second) (right : Advances second third) :
    Advances first third :=
  ⟨right.suite.trans left.suite, left.taken.trans right.taken,
    fun pid used => (left.slots pid used).trans (right.slots pid (left.slots pid used).present)⟩

theorem Evolves.refl (core : Core) : Evolves core core :=
  { Advances.refl core with
    history := fun _ _ => ⟨rfl, rfl, rfl⟩
    anchor := fun _ _ => rfl
    running := fun _ isRunning => isRunning
    engaged := fun _ isEngaged => isEngaged
    queued := fun _ => .inr
    born := fun _ empty used => absurd empty used
    remedies := fun _ => Nat.le_refl _
    waiting := fun _ _ _ => .inl rfl }

theorem Evolves.trans {first second third : Core} (left : Evolves first second) (right : Evolves second third) :
    Evolves first third where
  toAdvances := left.toAdvances.trans right.toAdvances
  history pid used := by
    obtain ⟨user, memory, entered⟩ := left.history pid used
    obtain ⟨user', memory', entered'⟩ := right.history pid (left.slots pid used).present
    exact ⟨user'.trans user, memory'.trans memory, entered'.trans entered⟩
  anchor pid used := (right.anchor pid (left.slots pid used).present).trans (left.anchor pid used)
  running pid isRunning := left.running pid (right.running pid isRunning)
  engaged pid isEngaged := left.engaged pid (right.engaged pid isEngaged)
  queued pid isQueued := by
    rcases right.queued pid isQueued with empty | before
    · by_cases used : (first.table pid).state = .empty
      · exact .inl used
      · exact absurd empty (left.slots pid used).present
    · exact left.queued pid before
  born pid empty used := by
    by_cases still : (second.table pid).state = .empty
    · obtain ⟨unstarted, child⟩ := right.born pid still used
      exact ⟨unstarted, fun parent isParent => left.running parent (child parent isParent)⟩
    · obtain ⟨unstarted, child⟩ := left.born pid empty still
      rw [right.anchor pid still, (right.slots pid still).parent]
      exact ⟨unstarted, child⟩
  remedies pid := Nat.le_trans (left.remedies pid) (right.remedies pid)
  waiting pid pending preempted := by
    rcases left.waiting pid pending preempted with same | named
    · rcases right.waiting pid (same ▸ pending) (same ▸ preempted) with same' | named'
      · exact .inl (same'.trans same)
      · exact .inr (Nat.lt_of_le_of_lt (left.remedies pid) named')
    · exact .inr (Nat.lt_of_lt_of_le named (right.remedies pid))

end Kernai
