import Mathlib.Data.List.Nodup
import Kernai.Proofs.Invariant

/-! Each operation on the core state keeps the invariant. -/

namespace Kernai
open Foundation Hal Frames Mm Payload Context

variable {tight : Prop} {held : Held} {core core' : Core}

@[simp] theorem setSlot_self (core : Core) (pid : Pid) (update : Slot → Slot) :
    (setSlot core pid update).table pid = update (core.table pid) := if_pos rfl

theorem setSlot_other (core : Core) {pid other : Pid} (update : Slot → Slot) (different : other ≠ pid) :
    (setSlot core pid update).table other = core.table other := if_neg different

/-- One slot changed, but neither whether it is in use nor its capabilities. -/
theorem Table.touch (table : Table core) {pid : Pid} (enqueued : core'.ledger.enqueued = core.ledger.enqueued)
    (others : ∀ other, other ≠ pid → core'.table other = core.table other)
    (usedHere : (core'.table pid).state = .empty ↔ (core.table pid).state = .empty)
    (capsHere : (core'.table pid).caps = (core.table pid).caps)
    (parentHere : (core'.table pid).parent = (core.table pid).parent)
    (imageHere : (core'.table pid).image = (core.table pid).image)
    (running : ∀ other, (core'.table other).state = .running → core'.current = some other)
    (paired : (core'.table pid).state ≠ .empty → ((core'.table pid).root ≠ 0 ↔ (core'.table pid).resumeFrame ≠ 0))
    (engaged : (core'.table pid).engaged = true → (core'.table pid).resumeFrame ≠ 0 ∧
      ∀ lower, lower < pid → (core.table lower).state.terminal = true)
    (ended : (core.table pid).state.terminal = true → (core'.table pid).state.terminal = true)
    (starts : core'.ledger.starts.Nodup)
    (started : ∀ other ∈ core'.ledger.starts, (core'.table other).state ≠ .empty ∧
      ((core'.table other).state = .pending → (core'.table other).preempted = true))
    (unstarted : (core'.table pid).queued = true → (core'.table pid).startEvent = 0) : Table core' := by
  have slots : ∀ other, ((core'.table other).state = .empty ↔ (core.table other).state = .empty) ∧
      (core'.table other).caps = (core.table other).caps ∧ (core'.table other).parent = (core.table other).parent ∧
      (core'.table other).image = (core.table other).image ∧
      ((core.table other).state.terminal = true → (core'.table other).state.terminal = true) := by
    intro other
    by_cases same : other = pid
    · subst same
      exact ⟨usedHere, capsHere, parentHere, imageHere, ended⟩
    · rw [others other same]
      exact ⟨Iff.rfl, rfl, rfl, rfl, fun done => done⟩
  have used : ∀ other, (core'.table other).state ≠ .empty ↔ (core.table other).state ≠ .empty :=
    fun other => not_congr (slots other).1
  refine ⟨?_, ?_, ?_, enqueued ▸ table.room, running, ?_, ?_, ?_, starts, started, ?_⟩
  · intro other
    simp only [(slots other).2.1, (slots other).2.2.2.1]
    exact table.ceiling other
  · intro other parent isUsed isParent
    rw [(slots other).2.2.1] at isParent
    rw [used, (slots other).2.1, (slots parent).2.1]
    exact table.delegated other parent ((used other).mp isUsed) isParent
  · intro other
    rw [used, enqueued]
    exact table.packed other
  · intro other isUsed
    by_cases same : other = pid
    · subst same
      exact paired isUsed
    · rw [others other same]
      exact table.paired other ((used other).mp isUsed)
  · intro other isEngaged
    by_cases same : other = pid
    · subst same
      exact (engaged isEngaged).1
    · rw [others other same] at isEngaged ⊢
      exact table.loaded other isEngaged
  · intro other lower isEngaged below
    apply (slots lower).2.2.2.2
    by_cases same : other = pid
    · subst same
      exact (engaged isEngaged).2 lower below
    · rw [others other same] at isEngaged
      exact table.order other lower isEngaged below
  · intro other
    by_cases same : other = pid
    · subst same
      exact unstarted
    · rw [others other same]
      exact table.unstarted other

theorem Table.same (inv : Table core) (table : core'.table = core.table) (ledger : core'.ledger = core.ledger)
    (running : ∀ pid, (core.table pid).state = .running → core'.current = some pid) : Table core' := by
  cases core
  cases core'
  simp only at table ledger running
  subst table ledger
  exact ⟨inv.ceiling, inv.delegated, inv.packed, inv.room, running, inv.paired, inv.loaded, inv.order, inv.starts, inv.started,
    inv.unstarted⟩

/-- Only the slot of `pid` has changed, of what the invariant reads. -/
structure OneSlot (core core' : Core) (pid : Pid) : Prop where
  phys : core'.phys = core.phys
  kernelRoot : core'.kernelRoot = core.kernelRoot
  snaps : core'.snaps = core.snaps
  taken : core'.ledger.taken = core.ledger.taken
  enqueued : core'.ledger.enqueued = core.ledger.enqueued
  suite : core'.ledger.suite = core.ledger.suite
  others : ∀ other, other ≠ pid → core'.table other = core.table other

/-- The scheduling fields of a slot may have changed, no others. -/
structure SlotTouched (old new : Slot) : Prop where
  used : new.state = .empty ↔ old.state = .empty
  caps : new.caps = old.caps
  parent : new.parent = old.parent
  image : new.image = old.image
  root : new.root = old.root
  resumeFrame : new.resumeFrame = old.resumeFrame
  origin : new.origin = old.origin
  entered : new.entered = old.entered
  lastUser : new.lastUser = old.lastUser
  lastMemory : new.lastMemory = old.lastMemory

theorem SlotTouched.refl (slot : Slot) : SlotTouched slot slot := ⟨Iff.rfl, rfl, rfl, rfl, rfl, rfl, rfl, rfl, rfl, rfl⟩

theorem OneSlot.slots {pid : Pid} (one : OneSlot core core' pid) (touched : SlotTouched (core.table pid) (core'.table pid))
    (other : Pid) : SlotTouched (core.table other) (core'.table other) := by
  by_cases same : other = pid
  · exact same ▸ touched
  · rw [one.others other same]
    exact .refl _

theorem CoreInv.touch (inv : CoreInv tight held core) {pid : Pid} (one : OneSlot core core' pid)
    (touched : SlotTouched (core.table pid) (core'.table pid))
    (running : ∀ other, (core'.table other).state = .running → core'.current = some other)
    (engaged : (core'.table pid).engaged = true → (core.table pid).resumeFrame ≠ 0 ∧
      ∀ lower, lower < pid → (core.table lower).state.terminal = true)
    (ended : (core.table pid).state.terminal = true → (core'.table pid).state.terminal = true)
    (starts : core'.ledger.starts.Nodup)
    (started : ∀ other ∈ core'.ledger.starts, (core'.table other).state ≠ .empty ∧
      ((core'.table other).state = .pending → (core'.table other).preempted = true))
    (unstarted : (core'.table pid).queued = true → (core'.table pid).startEvent = 0)
    (waited : (core'.table pid).state = .pending → (core.table pid).state = .pending ∨ (core.table pid).resumeFrame ≠ 0)
    (parked : (core'.table pid).state = .pending → (core.table pid).resumeFrame ≠ 0 →
      Parked (held pid) core.phys.mem (core.table pid)) :
    CoreInv tight held core' := by
  have slots := one.slots touched
  refine ⟨?_, ?_, ?_, ?_, ?_⟩
  · refine inv.heap.congr one.phys (estate_same one.kernelRoot one.snaps fun other => ?_)
    exact ⟨(slots other).used, (slots other).root, (slots other).resumeFrame⟩
  · refine inv.table.touch one.enqueued one.others touched.used touched.caps touched.parent touched.image running ?_ ?_
      ended starts started unstarted
    · rw [touched.root, touched.resumeFrame]
      exact fun used => inv.table.paired pid fun empty => used (touched.used.mpr empty)
    · rw [touched.resumeFrame]
      exact engaged
  · intro other pending hasFrame
    have memory : Parked (held other) core.phys.mem (core.table other) := by
      rw [(slots other).resumeFrame] at hasFrame
      by_cases same : other = pid
      · subst same
        exact parked pending hasFrame
      · rw [one.others other same] at pending
        exact inv.contexts.parked other pending hasFrame
    rw [one.phys]
    refine ⟨?_, ?_⟩
    · rw [(slots other).root, (slots other).lastMemory]
      exact memory.memory
    · rw [(slots other).root, (slots other).resumeFrame, (slots other).lastUser]
      exact memory.context
  · rw [one.snaps, one.taken, one.phys]
    exact inv.contexts.frozen
  · intro other serial isUsed isOrigin
    rw [(slots other).origin] at isOrigin
    rw [one.taken, (slots other).caps, (slots other).entered, (slots other).lastUser, (slots other).lastMemory,
      (slots other).resumeFrame]
    obtain ⟨hasFrame, rest⟩ :=
      inv.contexts.restored other serial (fun empty => isUsed ((slots other).used.mpr empty)) isOrigin
    refine ⟨fun pending => ?_, rest⟩
    by_cases same : other = pid
    · subst same
      exact (waited pending).elim hasFrame id
    · rw [one.others other same] at pending
      exact hasFrame pending

theorem OneSlot.advances {pid : Pid} (one : OneSlot core core' pid)
    (touched : SlotTouched (core.table pid) (core'.table pid))
    (ended : (core.table pid).state.terminal = true → (core'.table pid).state = (core.table pid).state) :
    Advances core core' := by
  refine ⟨one.suite, one.taken ▸ List.prefix_refl _, fun other used => ?_⟩
  have slots := one.slots touched other
  refine ⟨fun empty => used (slots.used.mp empty), slots.caps, slots.parent, slots.image, slots.origin, fun done => ?_⟩
  by_cases same : other = pid
  · subst same
    exact ended done
  · rw [one.others other same]

theorem OneSlot.evolves {pid : Pid} (one : OneSlot core core' pid)
    (touched : SlotTouched (core.table pid) (core'.table pid))
    (anchor : (core'.table pid).startEvent = (core.table pid).startEvent)
    (ended : (core.table pid).state.terminal = true → (core'.table pid).state = (core.table pid).state)
    (alive : (core'.table pid).state.terminal = false →
      (core'.table pid).state = (core.table pid).state ∧ (core'.table pid).preempted = (core.table pid).preempted)
    (remedies : ∀ other, core.ledger.remedies.count other ≤ core'.ledger.remedies.count other)
    (waiting : (core.table pid).state = .pending → (core.table pid).preempted = true →
      core.ledger.remedies.count pid < core'.ledger.remedies.count pid) : Evolves core core' := by
  have lives : ∀ other, (core'.table other).state.terminal = false →
      (core'.table other).state = (core.table other).state ∧ (core'.table other).preempted = (core.table other).preempted := by
    intro other
    by_cases same : other = pid
    · subst same
      exact alive
    · rw [one.others other same]
      exact fun _ => ⟨rfl, rfl⟩
  refine ⟨one.advances touched ended, fun other _ => ?_, fun other _ => ?_, fun other running => ?_, fun other engaged => ?_,
    fun other queued => .inr ?_, fun other empty used => ?_, remedies, fun other pending preempted => ?_⟩
  · have slots := one.slots touched other
    exact ⟨slots.lastUser, slots.lastMemory, slots.entered⟩
  · by_cases same : other = pid
    · exact same ▸ anchor
    · rw [one.others other same]
  · rw [← (lives other (by rw [running]; rfl)).1]
    exact running
  · obtain ⟨state, isPreempted⟩ := lives other (by cases isState : (core'.table other).state <;> simp_all [Slot.engaged, ProcState.terminal])
    simpa only [Slot.engaged, state, isPreempted] using engaged
  · obtain ⟨state, isPreempted⟩ := lives other (by cases isState : (core'.table other).state <;> simp_all [Slot.queued, ProcState.terminal])
    simpa only [Slot.queued, state, isPreempted] using queued
  · exact absurd ((one.slots touched other).used.mpr empty) used
  · by_cases same : other = pid
    · subst same
      exact .inr (waiting pending preempted)
    · exact .inl (one.others other same)

/-- Only fields that no invariant reads have changed, `current` apart. -/
structure SameCore (core core' : Core) : Prop where
  phys : core'.phys = core.phys
  kernelRoot : core'.kernelRoot = core.kernelRoot
  table : core'.table = core.table
  snaps : core'.snaps = core.snaps
  ledger : core'.ledger = core.ledger

theorem SameCore.refl (core : Core) : SameCore core core := ⟨rfl, rfl, rfl, rfl, rfl⟩

theorem SameCore.trans {core'' : Core} (left : SameCore core core') (right : SameCore core' core'') : SameCore core core'' :=
  ⟨right.phys.trans left.phys, right.kernelRoot.trans left.kernelRoot, right.table.trans left.table,
    right.snaps.trans left.snaps, right.ledger.trans left.ledger⟩

theorem SameCore.oneSlot (same : SameCore core core') (pid : Pid) : OneSlot core core' pid :=
  ⟨same.phys, same.kernelRoot, same.snaps, by rw [same.ledger], by rw [same.ledger], by rw [same.ledger],
    fun _ _ => by rw [same.table]⟩

theorem SameCore.inv (same : SameCore core core') (inv : CoreInv tight held core)
    (running : ∀ pid, (core.table pid).state = .running → core'.current = some pid) : CoreInv tight held core' := by
  refine ⟨inv.heap.congr same.phys (estate_same same.kernelRoot same.snaps fun pid => by simp [same.table]),
    inv.table.same same.table same.ledger running, ?_, ?_, ?_⟩
  · rw [same.table, same.phys]
    exact inv.contexts.parked
  · rw [same.snaps, same.ledger, same.phys]
    exact inv.contexts.frozen
  · rw [same.table, same.ledger]
    exact inv.contexts.restored

theorem SameCore.evolves (same : SameCore core core') : Evolves core core' := by
  have slot : core'.table 0 = core.table 0 := by rw [same.table]
  refine ⟨(same.oneSlot 0).advances (slot ▸ .refl _) (fun _ => by rw [slot]), ?_, ?_, ?_, ?_, ?_, ?_, ?_, ?_⟩
  · rw [same.table]
    exact fun _ _ => ⟨rfl, rfl, rfl⟩
  · rw [same.table]
    exact fun _ _ => rfl
  · rw [same.table]
    exact fun _ => id
  · rw [same.table]
    exact fun _ => id
  · rw [same.table]
    exact fun _ => .inr
  · rw [same.table]
    exact fun _ empty used => absurd empty used
  · rw [same.ledger]
    exact fun _ => Nat.le_refl _
  · rw [same.table]
    exact fun _ _ _ => .inl rfl

theorem terminal_used {state : ProcState} (terminal : state.terminal = true) : state ≠ .empty := by
  rintro rfl
  cases terminal

theorem engaged_not_terminal {slot : Slot} (terminal : slot.state.terminal = true) : slot.engaged = false := by
  cases isState : slot.state <;> simp [isState, ProcState.terminal, Slot.engaged] at terminal ⊢

/-- A payload comes to its end; `starts` may note that it was ever begun. -/
theorem CoreInv.ends (inv : CoreInv tight held core) {pid : Pid} (one : OneSlot core core' pid)
    (touched : SlotTouched (core.table pid) (core'.table pid)) (terminal : (core'.table pid).state.terminal = true)
    (current : core'.current = core.current)
    (starts : core'.ledger.starts = core.ledger.starts ∨
      core'.ledger.starts = core.ledger.starts ++ [pid] ∧ pid ∉ core.ledger.starts) : CoreInv tight held core' := by
  have others : ∀ other, (core'.table other).state = .running ∨ (core'.table other).state = .pending → other ≠ pid := by
    rintro other alive rfl
    rcases alive with isState | isState <;> rw [isState] at terminal <;> cases terminal
  refine inv.touch one touched ?_ ?_ (fun _ => terminal) ?_ ?_ ?_ (fun pending => absurd rfl (others pid (.inr pending))) ?_
  · intro other running
    rw [one.others other (others other (.inl running))] at running
    rw [current]
    exact inv.table.running other running
  · intro engaged
    rw [engaged_not_terminal terminal] at engaged
    cases engaged
  · rcases starts with same | ⟨same, fresh⟩ <;> rw [same]
    · exact inv.table.starts
    · rw [← List.concat_eq_append]
      exact List.Nodup.concat fresh inv.table.starts
  · intro other member
    by_cases same : other = pid
    · subst same
      exact ⟨terminal_used terminal, fun pending => absurd rfl (others other (.inr pending))⟩
    · rw [one.others other same]
      have before : other ∈ core.ledger.starts := by
        rcases starts with equal | ⟨equal, -⟩ <;> rw [equal] at member
        · exact member
        · simpa [same] using member
      exact inv.table.started other before
  · intro queued
    exact absurd rfl (others pid (.inr (Slot.queued_iff.mp queued).1))
  · intro pending
    exact absurd rfl (others pid (.inr pending))

/-- Fields of a slot that only reports read. -/
theorem CoreInv.notes (inv : CoreInv tight held core) {pid : Pid} (one : OneSlot core core' pid)
    (touched : SlotTouched (core.table pid) (core'.table pid))
    (state : (core'.table pid).state = (core.table pid).state)
    (preempted : (core'.table pid).preempted = (core.table pid).preempted)
    (unstarted : (core.table pid).queued = true → (core'.table pid).startEvent = (core.table pid).startEvent)
    (current : core'.current = core.current) (starts : core'.ledger.starts = core.ledger.starts) :
    CoreInv tight held core' := by
  have states : ∀ other, (core'.table other).state = (core.table other).state ∧
      (core'.table other).preempted = (core.table other).preempted := by
    intro other
    by_cases same : other = pid
    · subst same
      exact ⟨state, preempted⟩
    · rw [one.others other same]
      exact ⟨rfl, rfl⟩
  refine inv.touch one touched ?_ ?_ ?_ ?_ ?_ ?_ (by rw [state]; exact .inl) ?_
  · intro other
    rw [(states other).1, current]
    exact inv.table.running other
  · unfold Slot.engaged
    rw [state, preempted]
    exact fun engaged => ⟨inv.table.loaded pid engaged, fun lower => inv.table.order pid lower engaged⟩
  · rw [state]
    exact fun ended => ended
  · rw [starts]
    exact inv.table.starts
  · intro other
    rw [starts, (states other).1, (states other).2]
    exact inv.table.started other
  · unfold Slot.queued
    rw [state, preempted]
    exact fun queued => (unstarted queued).trans (inv.table.unstarted pid queued)
  · rw [state]
    exact inv.contexts.parked pid

end Kernai
