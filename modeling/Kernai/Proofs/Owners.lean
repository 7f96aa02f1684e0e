import Kernai.Proofs.Operations

/-! Operations that move frames between the pool and their owners. -/

namespace Kernai
open Foundation Hal Frames Mm Payload Context

variable {tight : Prop} {held : Held} {core core' : Core}

theorem CoreInv.holds_saved {core : Core} {pid : Pid} (used : (core.table pid).state ≠ .empty)
    (hasFrame : (core.table pid).resumeFrame ≠ 0) :
    (estate core).holds core.phys.mem (.slot pid) .saved = some (core.table pid).resumeFrame :=
  if_pos ⟨used, hasFrame⟩

/-- A parked payload stays parked while its frames are left alone. -/
theorem CoreInv.parked_keep (inv : CoreInv tight held core) {phys : Phys} {pid : Pid}
    (keeps : Keeps (estate core) (.slot pid) core.phys phys) (used : (core.table pid).state ≠ .empty) (hasFrame : (core.table pid).resumeFrame ≠ 0)
    (parked : Parked (held pid) core.phys.mem (core.table pid)) : Parked (held pid) phys.mem (core.table pid) := by
  have hasRoot : (estate core).root (.slot pid) = some (core.table pid).root :=
    if_pos ⟨used, (inv.table.paired pid used).mpr hasFrame⟩
  have frame := loadFrame_congr (keeps.frames .saved _ (CoreInv.holds_saved used hasFrame))
  refine ⟨(inv.heap.owned.view keeps hasRoot).trans parked.memory, ?_⟩
  rw [frame]
  exact parked.context

theorem CoreInv.frozen_keep (inv : CoreInv tight held core) {phys : Phys} {sid : Sid}
    (keeps : Keeps (estate core) (.snap sid) core.phys phys) {checkpoint : Checkpoint} (valid : (core.snaps sid).valid = true)
    (frozen : Frozen core.phys.mem (core.snaps sid) checkpoint) : Frozen phys.mem (core.snaps sid) checkpoint := by
  have hasRoot : (estate core).root (.snap sid) = some (core.snaps sid).root := if_pos valid
  have hasSaved : (estate core).holds core.phys.mem (.snap sid) .saved = some (core.snaps sid).frame := if_pos valid
  refine ⟨frozen.caps, frozen.user, ?_, (inv.heap.owned.view keeps hasRoot).trans frozen.memory⟩
  rw [loadFrame_congr (keeps.frames .saved _ hasSaved)]
  exact frozen.context

/-- What a context needs from memory it still has. -/
theorem CoreInv.contexts_keep (inv : CoreInv tight held core)
    (keeps : ∀ owner, Keeps (estate core) owner core.phys core'.phys)
    (table : core'.table = core.table) (snaps : core'.snaps = core.snaps)
    (taken : core'.ledger.taken = core.ledger.taken) : Contexts held core' := by
  refine ⟨?_, ?_, ?_⟩
  · intro pid pending hasFrame
    rw [table] at pending hasFrame ⊢
    exact inv.parked_keep (keeps _) (by rw [pending]; decide) hasFrame (inv.contexts.parked pid pending hasFrame)
  · intro sid valid
    rw [snaps] at valid ⊢
    obtain ⟨checkpoint, found, frozen⟩ := inv.contexts.frozen sid valid
    exact ⟨checkpoint, taken ▸ found, inv.frozen_keep (keeps _) valid frozen⟩
  · rw [table, taken]
    exact inv.contexts.restored

/-- Slots whose payload is done hold nothing. -/
def Reaped (core : Core) : Prop := ∀ pid, (core.table pid).state.terminal = true →
  (core.table pid).root = 0 ∧ (core.table pid).resumeFrame = 0

/-- One reap: the table is the same but for the holdings of one slot. -/
structure Reaps (core core' : Core) : Prop where
  states : ∀ pid, (core'.table pid).state = (core.table pid).state
  empty : ∀ pid, (core.table pid).root = 0 ∧ (core.table pid).resumeFrame = 0 →
    (core'.table pid).root = 0 ∧ (core'.table pid).resumeFrame = 0
  alive : ∀ pid, (core.table pid).state.terminal = false → core'.table pid = core.table pid
  current : core'.current = core.current
  ledger : core'.ledger = core.ledger
  kernelRoot : core'.kernelRoot = core.kernelRoot

theorem Reaps.refl (core : Core) : Reaps core core := ⟨fun _ => rfl, fun _ none => none, fun _ _ => rfl, rfl, rfl, rfl⟩

theorem Reaps.trans {first second third : Core} (left : Reaps first second) (right : Reaps second third) :
    Reaps first third :=
  ⟨fun pid => (right.states pid).trans (left.states pid), fun pid none => right.empty pid (left.empty pid none),
    fun pid alive => (right.alive pid (by rw [left.states]; exact alive)).trans (left.alive pid alive),
    right.current.trans left.current, right.ledger.trans left.ledger, right.kernelRoot.trans left.kernelRoot⟩

/-- The frames of a payload that is done go back to the pool. -/
theorem CoreInv.reap (inv : CoreInv tight held core) (onKernel : core.phys.satp = kernelSatp core) {pid : Pid}
    (terminal : (core.table pid).state.terminal = true)
    (phys : core'.phys = freeFrame (destroyRoot core.phys (core.table pid).root) (core.table pid).resumeFrame)
    (kernelRoot : core'.kernelRoot = core.kernelRoot) (current : core'.current = core.current)
    (snaps : core'.snaps = core.snaps) (ledger : core'.ledger = core.ledger)
    (others : ∀ other, other ≠ pid → core'.table other = core.table other)
    (here : core'.table pid = { core.table pid with root := 0, resumeFrame := 0 }) :
    CoreInv tight held core' ∧ core'.phys.satp = kernelSatp core' ∧ Evolves core core' ∧ Reaps core core' := by
  have used := terminal_used terminal
  have slots : ∀ other, (core'.table other).state = (core.table other).state ∧
      ((core.table other).state.terminal = false → core'.table other = core.table other) := by
    intro other
    by_cases same : other = pid
    · subst same
      rw [here]
      exact ⟨rfl, fun alive => by rw [terminal] at alive; cases alive⟩
    · rw [others other same]
      exact ⟨rfl, fun _ => rfl⟩
  have given : estate core' = (estate core).give (.slot pid) none none := by
    rw [estate_slot pid kernelRoot snaps others, here]
    simp [Slot.holding]
  have isRoot : (estate core).root (.slot pid) = if (core.table pid).root ≠ 0 then some (core.table pid).root else none := by
    simp [estate, Slot.holding, used]
  have isSaved : (estate core).saved (.slot pid) =
      if (core.table pid).resumeFrame ≠ 0 then some (core.table pid).resumeFrame else none := by
    simp [estate, Slot.holding, used]
  obtain ⟨heap, mem, satp⟩ := inv.heap.discard onKernel (show Owner.slot pid ≠ .kernel from (by simp)) isRoot isSaved phys
    given kernelRoot
  refine ⟨⟨heap, ?_, ?_, ?_, ?_⟩, satp, ⟨⟨?_, ?_, ?_⟩, ?_, ?_, ?_, ?_, ?_, ?_, ?_, ?_⟩, fun other => (slots other).1, ?_,
    fun other => (slots other).2, current, ledger, kernelRoot⟩
  · refine inv.table.touch (by rw [ledger]) others ?_ ?_ ?_ ?_ ?_ ?_ ?_ ?_ (by rw [ledger]; exact inv.table.starts) ?_ ?_
    · rw [here]
    · rw [here]
    · rw [here]
    · rw [here]
    · intro other
      rw [(slots other).1, current]
      exact inv.table.running other
    · rw [here]
      simp
    · intro engaged
      rw [engaged_not_terminal (by rw [here]; exact terminal)] at engaged
      cases engaged
    · rw [here]
      exact fun _ => terminal
    · intro other member
      rw [ledger] at member
      obtain ⟨isUsed, preempted⟩ := inv.table.started other member
      rw [(slots other).1]
      refine ⟨isUsed, fun pending => ?_⟩
      rw [(slots other).2 (by rw [pending]; rfl)]
      exact preempted pending
    · intro queued
      rw [here] at queued
      rw [(Slot.queued_iff.mp queued).1] at terminal
      cases terminal
  · intro other pending hasFrame
    have alive : core'.table other = core.table other := (slots other).2 (by rw [← (slots other).1, pending]; rfl)
    rw [alive] at pending hasFrame ⊢
    rw [mem]
    exact inv.contexts.parked other pending hasFrame
  · rw [snaps, mem, ledger]
    exact inv.contexts.frozen
  · intro other serial isUsed isOrigin
    rw [ledger]
    by_cases same : other = pid
    · subst same
      rw [here] at isOrigin ⊢
      refine ⟨fun pending => ?_, (inv.contexts.restored other serial used isOrigin).2⟩
      simp only at pending
      rw [pending] at terminal
      cases terminal
    · rw [others other same] at isUsed isOrigin ⊢
      exact inv.contexts.restored other serial isUsed isOrigin
  · rw [ledger]
  · exact ledger ▸ List.prefix_refl _
  · intro other isUsed
    by_cases same : other = pid
    · subst same
      rw [here]
      exact ⟨used, rfl, rfl, rfl, rfl, fun _ => rfl⟩
    · rw [others other same]
      exact .refl isUsed
  · intro other _
    by_cases same : other = pid
    · subst same
      rw [here]
      exact ⟨rfl, rfl, rfl⟩
    · rw [others other same]
      exact ⟨rfl, rfl, rfl⟩
  · intro other _
    by_cases same : other = pid
    · subst same
      rw [here]
    · rw [others other same]
  · intro other isRunning
    rw [← (slots other).1]
    exact isRunning
  · intro other
    by_cases same : other = pid
    · subst same
      rw [here]
      exact id
    · rw [others other same]
      exact id
  · intro other
    by_cases same : other = pid
    · subst same
      rw [here]
      exact .inr
    · rw [others other same]
      exact .inr
  · intro other empty isUsed
    rw [(slots other).1] at isUsed
    exact absurd empty isUsed
  · intro other
    rw [ledger]
  · intro other pending _
    exact .inl ((slots other).2 (by rw [pending]; rfl))
  · intro other none
    by_cases same : other = pid
    · subst same
      rw [here]
      exact ⟨rfl, rfl⟩
    · rw [others other same]
      exact none

theorem reapSlot_spec (inv : CoreInv tight held core) (onKernel : core.phys.satp = kernelSatp core) (pid : Pid) :
    (CoreInv tight held (reapSlot core pid) ∧ (reapSlot core pid).phys.satp = kernelSatp (reapSlot core pid) ∧
      Evolves core (reapSlot core pid) ∧ Reaps core (reapSlot core pid)) ∧
      ((core.table pid).state.terminal = true →
        ((reapSlot core pid).table pid).root = 0 ∧ ((reapSlot core pid).table pid).resumeFrame = 0) := by
  unfold reapSlot
  dsimp only
  split
  · next terminal =>
    refine ⟨inv.reap onKernel terminal rfl rfl rfl rfl rfl (fun other different => setSlot_other _ _ different)
      (setSlot_self _ _ _), fun _ => ?_⟩
    rw [setSlot_self]
    exact ⟨rfl, rfl⟩
  · next alive => exact ⟨⟨inv, onKernel, .refl core, .refl core⟩, fun terminal => absurd terminal alive⟩

theorem reapTerminated_spec (inv : CoreInv tight held core) (onKernel : core.phys.satp = kernelSatp core) :
    CoreInv tight held (reapTerminated core) ∧ (reapTerminated core).phys.satp = kernelSatp (reapTerminated core) ∧
      Evolves core (reapTerminated core) ∧ Reaps core (reapTerminated core) ∧ Reaped (reapTerminated core) := by
  have each : ∀ (pids : List Pid) (start : Core), CoreInv tight held start → start.phys.satp = kernelSatp start →
      CoreInv tight held (pids.foldl reapSlot start) ∧
        (pids.foldl reapSlot start).phys.satp = kernelSatp (pids.foldl reapSlot start) ∧
        Evolves start (pids.foldl reapSlot start) ∧ Reaps start (pids.foldl reapSlot start) ∧
        ∀ pid ∈ pids, (start.table pid).state.terminal = true →
          ((pids.foldl reapSlot start).table pid).root = 0 ∧ ((pids.foldl reapSlot start).table pid).resumeFrame = 0 := by
    intro pids
    induction pids with
    | nil => exact fun start inv onKernel => ⟨inv, onKernel, .refl _, .refl _, nofun⟩
    | cons pid rest ih =>
      intro start inv onKernel
      obtain ⟨⟨one, satp, evolves, reaps⟩, gone⟩ := reapSlot_spec inv onKernel pid
      obtain ⟨inv', satp', evolves', reaps', gone'⟩ := ih _ one satp
      refine ⟨inv', satp', evolves.trans evolves', reaps.trans reaps', fun other member terminal => ?_⟩
      rcases List.mem_cons.mp member with rfl | later
      · exact reaps'.empty other (gone terminal)
      · exact gone' other later (by rw [reaps.states]; exact terminal)
  obtain ⟨inv', satp', evolves', reaps', gone⟩ := each (List.finRange 12) core inv onKernel
  refine ⟨inv', satp', evolves', reaps', fun pid terminal => gone pid (List.mem_finRange pid) ?_⟩
  rw [← reaps'.states]
  exact terminal

theorem position_some {test : Slot → Bool} {pid : Pid} (found : position core test = some pid) :
    test (core.table pid) = true ∧ ∀ lower, lower < pid → test (core.table lower) = false := by
  unfold position at found
  obtain ⟨holds, first⟩ := List.find?_eq_some_iff_getElem.mp found
  obtain ⟨i, inside, isPid, before⟩ := first
  refine ⟨holds, fun lower below => ?_⟩
  have index : i = pid.val := by
    rw [← isPid]
    simp
  have earlier := before lower.val (by rw [index]; exact below)
  simpa using earlier

theorem position_none {test : Slot → Bool} (missing : position core test = none) (pid : Pid) : test (core.table pid) = false := by
  unfold position at missing
  simpa using List.find?_eq_none.mp missing pid (List.mem_finRange pid)

/-- A payload is queued in the first empty slot. -/
structure Enqueued (core core' : Core) (pid : Pid) : Prop where
  vacant : (core.table pid).state = .empty
  first : ∀ lower, lower < pid → (core.table lower).state ≠ .empty
  others : ∀ other, other ≠ pid → core'.table other = core.table other
  pending : (core'.table pid).state = .pending
  fresh : (core'.table pid).preempted = false
  unstarted : (core'.table pid).startEvent = 0
  enqueued : core'.ledger.enqueued = core.ledger.enqueued + 1
  starts : core'.ledger.starts = core.ledger.starts
  suite : core'.ledger.suite = core.ledger.suite
  taken : core'.ledger.taken = core.ledger.taken
  remedies : core'.ledger.remedies = core.ledger.remedies
  current : core'.current = core.current
  kernelRoot : core'.kernelRoot = core.kernelRoot
  snaps : core'.snaps = core.snaps

theorem Enqueued.table {pid : Pid} (enqueued : Enqueued core core' pid) (table : Table core)
    (ceiling : CapsWithin (core'.table pid).caps (images.get (core'.table pid).image).caps)
    (delegated : ∀ parent, (core'.table pid).parent = some parent →
      (core.table parent).state ≠ .empty ∧ CapsWithin (core'.table pid).caps (core.table parent).caps)
    (paired : (core'.table pid).root ≠ 0 ↔ (core'.table pid).resumeFrame ≠ 0) : Table core' := by
  obtain ⟨vacant, first, others, pending, fresh, unstarted, count, starts, -, -, -, current, -, -⟩ := enqueued
  have notEngaged : (core'.table pid).engaged = false := by simp [Slot.engaged, pending, fresh]
  have older : ∀ other, (core.table other).state ≠ .empty → core'.table other = core.table other := by
    intro other used
    refine others other fun same => ?_
    subst same
    exact used vacant
  have place : pid.val = core.ledger.enqueued := by
    have above : ¬ pid.val < core.ledger.enqueued := fun below => (table.packed pid).mpr below vacant
    have below : ∀ lower : Pid, lower < pid → lower.val < core.ledger.enqueued :=
      fun lower inside => (table.packed lower).mp (first lower inside)
    by_contra different
    have room : core.ledger.enqueued < 12 := by omega
    have := below ⟨core.ledger.enqueued, room⟩ (Fin.lt_def.mpr (by simp only; omega))
    simp at this
  refine ⟨?_, ?_, ?_, by rw [count, ← place]; exact pid.isLt, ?_, ?_, ?_, ?_, ?_, ?_, ?_⟩
  · intro other
    by_cases same : other = pid
    · exact same ▸ ceiling
    · simp only [others other same]
      exact table.ceiling other
  · intro other parent used isParent
    have parentKept : (core.table parent).state ≠ .empty ∧ CapsWithin (core'.table other).caps (core.table parent).caps := by
      by_cases same : other = pid
      · subst same
        exact delegated parent isParent
      · rw [others other same] at used isParent ⊢
        exact table.delegated other parent used isParent
    rw [older parent parentKept.1]
    exact parentKept
  · intro other
    rw [count]
    by_cases same : other = pid
    · subst same
      rw [pending]
      simp
      omega
    · rw [others other same, table.packed other]
      have : other.val ≠ pid.val := fun equal => same (Fin.ext equal)
      omega
  · intro other running
    rw [current]
    by_cases same : other = pid
    · subst same
      rw [pending] at running
      cases running
    · rw [others other same] at running
      exact table.running other running
  · intro other used
    by_cases same : other = pid
    · subst same
      exact paired
    · rw [others other same] at used ⊢
      exact table.paired other used
  · intro other engaged
    by_cases same : other = pid
    · subst same
      rw [notEngaged] at engaged
      cases engaged
    · rw [others other same] at engaged ⊢
      exact table.loaded other engaged
  · intro other lower engaged below
    by_cases same : other = pid
    · subst same
      rw [notEngaged] at engaged
      cases engaged
    · rw [others other same] at engaged
      have terminal := table.order other lower engaged below
      rw [older lower (terminal_used terminal)]
      exact terminal
  · rw [starts]
    exact table.starts
  · intro other member
    rw [starts] at member
    obtain ⟨used, preempted⟩ := table.started other member
    rw [older other used]
    exact ⟨used, preempted⟩
  · intro other
    by_cases same : other = pid
    · subst same
      exact fun _ => unstarted
    · rw [others other same]
      exact table.unstarted other

theorem Enqueued.evolves {pid : Pid} (enqueued : Enqueued core core' pid)
    (child : ∀ parent, (core'.table pid).parent = some parent → (core.table parent).state = .running) :
    Evolves core core' := by
  have older : ∀ other, (core.table other).state ≠ .empty → core'.table other = core.table other := by
    intro other used
    refine enqueued.others other fun same => ?_
    subst same
    exact used enqueued.vacant
  refine ⟨⟨enqueued.suite, enqueued.taken ▸ List.prefix_refl _, fun other used => ?_⟩, fun other used => ?_,
    fun other used => ?_, fun other isRunning => ?_, fun other engaged => ?_, fun other queued => ?_, fun other empty used => ?_,
    fun other => ?_, fun other pending _ => .inl (older other (by rw [pending]; decide))⟩
  · rw [older other used]
    exact .refl used
  · rw [older other used]
    exact ⟨rfl, rfl, rfl⟩
  · rw [older other used]
  · by_cases same : other = pid
    · rw [same, enqueued.pending] at isRunning
      cases isRunning
    · rw [enqueued.others other same] at isRunning
      exact isRunning
  · by_cases same : other = pid
    · rw [same] at engaged
      simp [Slot.engaged, enqueued.pending, enqueued.fresh] at engaged
    · rw [enqueued.others other same] at engaged
      exact engaged
  · by_cases same : other = pid
    · exact .inl (same ▸ enqueued.vacant)
    · rw [enqueued.others other same] at queued
      exact .inr queued
  · by_cases same : other = pid
    · rw [same]
      exact ⟨enqueued.unstarted, child⟩
    · rw [enqueued.others other same] at used
      exact absurd empty used
  · rw [enqueued.remedies]

/-- Writing a pending slot into the first empty place. -/
theorem enqueued_position {pid : Pid} (place : position core (·.state = .empty) = some pid) (phys : Phys) {slot : Slot}
    (pending : slot.state = .pending) (fresh : slot.preempted = false) (unstarted : slot.startEvent = 0) :
    Enqueued core (noteEnqueued (setSlot { core with phys } pid fun _ => slot)) pid ∧
      (noteEnqueued (setSlot { core with phys } pid fun _ => slot)).table pid = slot := by
  obtain ⟨vacant, first⟩ := position_some place
  have here : (noteEnqueued (setSlot { core with phys } pid fun _ => slot)).table pid = slot :=
    setSlot_self { core with phys } pid fun _ => slot
  refine ⟨⟨by simpa using vacant, fun lower below => by simpa using first lower below,
    fun other different => setSlot_other { core with phys } (fun _ => slot) different, ?_, ?_, ?_, rfl, rfl, rfl, rfl, rfl,
    rfl, rfl, rfl⟩, here⟩
  · rw [here, pending]
  · rw [here, fresh]
  · rw [here, unstarted]

theorem enqueue_some {image : ImageId} {caps : Nat} {parent : Option Pid} {pid : Pid}
    (ran : enqueue image caps parent core = (some pid, core')) :
    Enqueued core core' pid ∧ core'.table pid = freshSlot image caps parent ∧ core'.phys = core.phys := by
  unfold enqueue at ran
  split at ran
  · next place =>
    cases ran
    have isPending : (freshSlot image caps parent).state = .pending := rfl
    obtain ⟨enqueued, here⟩ := enqueued_position place core.phys isPending rfl rfl
    exact ⟨enqueued, here, rfl⟩
  · cases ran

theorem enqueue_none {image : ImageId} {caps : Nat} {parent : Option Pid} (ran : enqueue image caps parent core = (none, core')) :
    core' = core := by
  unfold enqueue at ran
  split at ran
  · cases ran
  · exact (Prod.mk.inj ran).2.symm

theorem CoreInv.enqueue (inv : CoreInv tight held core) {image : ImageId} {caps : Nat} {parent : Option Pid} {pid : Pid}
    (delegated : ∀ p, parent = some p → (core.table p).state ≠ .empty ∧ CapsWithin caps (core.table p).caps)
    (ran : enqueue image caps parent core = (some pid, core')) : CoreInv tight held core' := by
  obtain ⟨enqueued, here, phys⟩ := enqueue_some ran
  have same : estate core' = estate core := by
    rw [estate_slot pid enqueued.kernelRoot enqueued.snaps enqueued.others, here]
    refine Estate.ext (funext fun owner => ?_) (funext fun owner => ?_)
    · by_cases isSlot : owner = .slot pid
      · subst isSlot
        simp [Estate.give, estate, Slot.holding, freshSlot, Slot.new, enqueued.vacant]
      · simp [Estate.give, isSlot]
    · by_cases isSlot : owner = .slot pid
      · subst isSlot
        simp [Estate.give, estate, Slot.holding, freshSlot, Slot.new, enqueued.vacant]
      · simp [Estate.give, isSlot]
  refine ⟨inv.heap.congr phys same, enqueued.table inv.table ?_ ?_ ?_, ?_, ?_, ?_⟩
  · simp only [here]
    exact capsWithin_and_right _ _
  · intro p isParent
    rw [here] at isParent ⊢
    obtain ⟨used, within⟩ := delegated p isParent
    exact ⟨used, (capsWithin_and_left _ _).trans within⟩
  · rw [here]
    exact Iff.rfl
  · intro other pending hasFrame
    by_cases isNew : other = pid
    · subst isNew
      rw [here] at hasFrame
      exact absurd rfl hasFrame
    · rw [enqueued.others other isNew] at pending hasFrame ⊢
      rw [phys]
      exact inv.contexts.parked other pending hasFrame
  · rw [enqueued.snaps, enqueued.taken, phys]
    exact inv.contexts.frozen
  · intro other serial used isOrigin
    by_cases isNew : other = pid
    · subst isNew
      rw [here] at isOrigin
      cases isOrigin
    · rw [enqueued.others other isNew] at used isOrigin ⊢
      rw [enqueued.taken]
      exact inv.contexts.restored other serial used isOrigin

/-- Nothing runs and nothing waits. -/
def Quiescent (core : Core) : Prop := ∀ pid, (core.table pid).state.alive = false

theorem freeSnapshot_spec (inv : CoreInv tight held core) (onKernel : core.phys.satp = kernelSatp core) (sid : Sid) :
    CoreInv tight held (freeSnapshot core sid) ∧
      (freeSnapshot core sid).phys.satp = kernelSatp (freeSnapshot core sid) ∧
      (freeSnapshot core sid).table = core.table ∧ (freeSnapshot core sid).ledger = core.ledger ∧
      (freeSnapshot core sid).current = core.current := by
  unfold freeSnapshot
  dsimp only
  split
  · next valid =>
    generalize made : setSnap { core with
      phys := freeFrame (destroyRoot core.phys (core.snaps sid).root) (core.snaps sid).frame } sid
        (fun snap => { snap with valid := false, root := 0, frame := 0 }) = after
    obtain ⟨phys, kernelRoot, table, current, ledger⟩ : after.phys =
        freeFrame (destroyRoot core.phys (core.snaps sid).root) (core.snaps sid).frame ∧
        after.kernelRoot = core.kernelRoot ∧ after.table = core.table ∧ after.current = core.current ∧
        after.ledger = core.ledger := by
      rw [← made]
      exact ⟨rfl, rfl, rfl, rfl, rfl⟩
    have others : ∀ other, other ≠ sid → after.snaps other = core.snaps other := by
      intro other different
      rw [← made]
      exact if_neg different
    have here : (after.snaps sid).valid = false := by
      rw [← made]
      simp [setSnap]
    have given : estate after = (estate core).give (.snap sid) none none := by
      rw [estate_snap sid kernelRoot table others]
      simp [Snapshot.holding, here]
    have rootFrame := (inv.heap.snap_space valid).shape.root.ne_zero
    have savedFrame := (inv.heap.owned.live (.snap sid) (core.snaps sid).frame (if_pos valid)).isFrame.ne_zero
    have isRoot : (estate core).root (.snap sid) =
        if (core.snaps sid).root ≠ 0 then some (core.snaps sid).root else none := by
      simp [estate, Snapshot.holding, valid, rootFrame]
    have isSaved : (estate core).saved (.snap sid) =
        if (core.snaps sid).frame ≠ 0 then some (core.snaps sid).frame else none := by
      simp [estate, Snapshot.holding, valid, savedFrame]
    obtain ⟨heap, mem, satp⟩ := inv.heap.discard onKernel (show Owner.snap sid ≠ .kernel from (by simp)) isRoot isSaved phys
      given kernelRoot
    refine ⟨⟨heap, ?_, ?_, ?_, ?_⟩, satp, table, ledger, current⟩
    · refine inv.table.same table ledger fun pid running => ?_
      rw [current]
      exact inv.table.running pid running
    · rw [table, mem]
      exact inv.contexts.parked
    · intro other isValid
      have different : other ≠ sid := by
        rintro rfl
        rw [here] at isValid
        cases isValid
      rw [others other different] at isValid ⊢
      rw [mem, ledger]
      exact inv.contexts.frozen other isValid
    · rw [table, ledger]
      exact inv.contexts.restored
  · exact ⟨inv, onKernel, rfl, rfl, rfl⟩

theorem freeSnapshots_spec (inv : CoreInv tight held core) (onKernel : core.phys.satp = kernelSatp core) :
    CoreInv tight held (freeSnapshots core) ∧ (freeSnapshots core).phys.satp = kernelSatp (freeSnapshots core) ∧
      (freeSnapshots core).table = core.table ∧ (freeSnapshots core).ledger = core.ledger ∧
      (freeSnapshots core).current = core.current := by
  unfold freeSnapshots
  generalize List.finRange 4 = sids
  induction sids generalizing core with
  | nil => exact ⟨inv, onKernel, rfl, rfl, rfl⟩
  | cons sid rest ih =>
    obtain ⟨inv', satp, table, ledger, current⟩ := freeSnapshot_spec inv onKernel sid
    obtain ⟨inv'', satp', table', ledger', current'⟩ := ih inv' satp
    exact ⟨inv'', satp', table'.trans table, ledger'.trans ledger, current'.trans current⟩

/-- Every slot is emptied without freeing what it holds. -/
theorem CoreInv.clear (inv : CoreInv tight held core) (onKernel : core.phys.satp = kernelSatp core)
    (clean : tight → ∀ pid, (core.table pid).root = 0 ∧ (core.table pid).resumeFrame = 0) (phys : core'.phys = core.phys)
    (kernelRoot : core'.kernelRoot = core.kernelRoot) (snaps : core'.snaps = core.snaps)
    (table : core'.table = fun pid => { core.table pid with state := .empty })
    (enqueued : core'.ledger.enqueued = 0) (starts : core'.ledger.starts = [])
    (taken : core'.ledger.taken = core.ledger.taken) : CoreInv tight held core' := by
  have empty : ∀ pid, (core'.table pid).state = .empty := fun pid => by rw [table]
  have notEngaged : ∀ pid, (core'.table pid).engaged = false := fun pid => by simp [Slot.engaged, empty pid]
  have bare := inv.heap.bare_frame kernelRoot (by rw [phys]; exact .refl _ _ _)
  refine ⟨⟨?_, ⟨.kernel, core'.kernelRoot, rfl, ?_⟩, ?_, bare⟩,
    ⟨?_, ?_, ?_, enqueued ▸ Nat.zero_le _, ?_, ?_, ?_, ?_, ?_, ?_, ?_⟩, ?_, ?_, ?_⟩
  · rw [phys]
    refine inv.heap.owned.abandon ?_ ?_ ?_
    · intro owner root isRoot
      cases owner with
      | kernel => simpa [estate, kernelRoot] using isRoot
      | slot pid => simp [estate, Slot.holding, empty pid] at isRoot
      | snap sid => simpa [estate, snaps] using isRoot
    · intro owner f isSaved
      cases owner with
      | kernel => exact isSaved
      | slot pid => simp [estate, Slot.holding, empty pid] at isSaved
      | snap sid => simpa [estate, snaps] using isSaved
    · intro assumed
      refine Estate.ext (funext fun owner => ?_) (funext fun owner => ?_)
      · cases owner with
        | kernel => exact congrArg some kernelRoot
        | slot pid => simp [estate, Slot.holding, empty pid, (clean assumed pid).1]
        | snap sid => simp [estate, snaps]
      · cases owner with
        | kernel => rfl
        | slot pid => simp [estate, Slot.holding, empty pid, (clean assumed pid).2]
        | snap sid => simp [estate, snaps]
  · rw [phys, onKernel, kernelSatp, kernelRoot]
  · rw [phys]
    exact inv.heap.spared
  · intro pid
    simp only [table]
    exact inv.table.ceiling pid
  · exact fun pid _ used => absurd (empty pid) used
  · intro pid
    simp [empty pid, enqueued]
  · intro pid running
    rw [empty] at running
    cases running
  · exact fun pid used => absurd (empty pid) used
  · intro pid engaged
    rw [notEngaged] at engaged
    cases engaged
  · intro pid _ engaged
    rw [notEngaged] at engaged
    cases engaged
  · rw [starts]
    exact List.nodup_nil
  · rw [starts]
    simp
  · intro pid queued
    have pending := (Slot.queued_iff.mp queued).1
    rw [empty] at pending
    cases pending
  · intro pid pending
    rw [empty] at pending
    cases pending
  · rw [snaps, taken, phys]
    exact inv.contexts.frozen
  · exact fun pid _ used => absurd (empty pid) used

/-- What a reseed leaves behind. -/
structure Reseeded (core core' : Core) : Prop where
  suite : core'.ledger.suite = core.ledger.suite + 1
  taken : core'.ledger.taken = core.ledger.taken
  current : core'.current = core.current
  satp : core'.phys.satp = kernelSatp core'
  blank : ∀ pid, (core'.table pid).state ≠ .empty → (core'.table pid).queued = true ∧ (core'.table pid).parent = none

theorem clearTable_spec (build : Build) (inv : CoreInv tight held core) (onKernel : core.phys.satp = kernelSatp core)
    (clean : tight → ∀ pid, (core.table pid).root = 0 ∧ (core.table pid).resumeFrame = 0) :
    CoreInv tight held (clearTable build core) ∧ Reseeded core (clearTable build core) ∧
      (∀ pid, ((clearTable build core).table pid).state = .empty) := by
  unfold clearTable
  dsimp only
  generalize cleared : ({ core with
    table := fun pid => { core.table pid with state := .empty }
    ledger := { core.ledger with suite := core.ledger.suite + 1, enqueued := 0, starts := [] } } : Core) = start
  have inv' : CoreInv tight held start := by
    subst cleared
    exact inv.clear onKernel clean rfl rfl rfl rfl rfl rfl rfl
  have satp' : start.phys.satp = kernelSatp start := by
    subst cleared
    exact onKernel
  obtain ⟨freed, satp, table, ledger, current⟩ := freeSnapshots_spec inv' satp'
  have empty : ∀ pid, (start.table pid).state = .empty := fun pid => by rw [← cleared]
  have running : ∀ (state : Core), state.table = start.table → ∀ pid, (state.table pid).state = .running → False := by
    intro state same pid isRunning
    rw [same, empty] at isRunning
    cases isRunning
  have reseeded : ∀ after : Core, SameCore (freeSnapshots start) after → after.current = (freeSnapshots start).current →
      CoreInv tight held after ∧ Reseeded core after ∧ ∀ pid, (after.table pid).state = .empty := by
    intro after same sameCurrent
    refine ⟨same.inv freed fun pid isRunning => (running _ table pid isRunning).elim, ⟨?_, ?_, ?_, ?_, fun pid used => ?_⟩, fun pid => ?_⟩
    · rw [same.ledger, ledger, ← cleared]
    · rw [same.ledger, ledger, ← cleared]
    · rw [sameCurrent, current, ← cleared]
    · rw [same.phys, satp, kernelSatp, kernelSatp, same.kernelRoot]
    · rw [same.table, table] at used
      exact absurd (empty pid) used
    · rw [same.table, table]
      exact empty pid
  split
  · exact reseeded _ ⟨rfl, rfl, rfl, rfl, rfl⟩ rfl
  · exact reseeded _ ⟨rfl, rfl, rfl, rfl, rfl⟩ rfl

theorem seed_spec (build : Build) (suite : Suite) (inv : CoreInv tight held core)
    (onKernel : core.phys.satp = kernelSatp core)
    (clean : tight → ∀ pid, (core.table pid).root = 0 ∧ (core.table pid).resumeFrame = 0) :
    CoreInv tight held (seed build suite core) ∧ Reseeded core (seed build suite core) := by
  obtain ⟨inv', reseeded, -⟩ := clearTable_spec build inv onKernel clean
  unfold seed
  dsimp only
  generalize clearTable build core = start at inv' reseeded
  have queued : CoreInv tight held
      (suite.images.foldl (fun core image => (enqueue image (images.get image).caps none core).2) start) ∧
      Reseeded core (suite.images.foldl (fun core image => (enqueue image (images.get image).caps none core).2) start) := by
    generalize suite.images = queue
    induction queue generalizing start with
    | nil => exact ⟨inv', reseeded⟩
    | cons image rest ih =>
      rw [List.foldl_cons]
      rcases ran : enqueue image (images.get image).caps none start with ⟨found, after⟩
      cases found with
      | none =>
        rw [enqueue_none ran]
        exact ih start inv' reseeded
      | some pid =>
        obtain ⟨enqueued, here, phys⟩ := enqueue_some ran
        refine ih after (inv'.enqueue (fun _ isParent => by cases isParent) ran) ⟨?_, ?_, ?_, ?_, fun other used => ?_⟩
        · rw [enqueued.suite, reseeded.suite]
        · rw [enqueued.taken, reseeded.taken]
        · rw [enqueued.current, reseeded.current]
        · rw [phys, reseeded.satp, kernelSatp, kernelSatp, enqueued.kernelRoot]
        · by_cases same : other = pid
          · rw [same, here]
            exact ⟨rfl, rfl⟩
          · rw [enqueued.others other same] at used ⊢
            exact reseeded.blank other used
  generalize suite.images.foldl (fun core image => (enqueue image (images.get image).caps none core).2) start = after at queued
  have same : SameCore after { after with autoFork := suite.forks } := ⟨rfl, rfl, rfl, rfl, rfl⟩
  exact ⟨same.inv queued.1 queued.1.table.running, queued.2.suite, queued.2.taken, queued.2.current, queued.2.satp, queued.2.blank⟩

end Kernai
