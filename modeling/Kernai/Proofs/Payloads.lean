import Kernai.Proofs.Owners

/-! Putting payloads on the CPU and taking them off it: starting, resuming,
preempting, freezing and restoring. -/

namespace Kernai
open Foundation Hal Frames Mm Payload Context

variable {tight : Prop} {held : Held} {build : Build} {core core' : Core} {pid : Pid}

/-- The scheduler's choice: nothing runs, `pid` waits and every lower pid is done. -/
structure Startable (core : Core) (pid : Pid) : Prop where
  idle : core.current = none
  pending : (core.table pid).state = .pending
  lower : ∀ lower, lower < pid → (core.table lower).state.terminal = true

/-- `start` past `CURRENT.store`: the payload is current and ready to resume. -/
structure Launched (held : Held) (core : Core) (launch : Launch) : Prop where
  current : core.current = some launch.pid
  running : (core.table launch.pid).state = .running
  satp : launch.satp = satpOf (core.table launch.pid).root
  frame : launch.frame = (core.table launch.pid).resumeFrame
  entry : launch.entry < 2 ^ 64
  announced : (∀ root frame, ¬ held launch.pid root frame) → launch.announced = !core.ledger.silent
  parked : Parked (held launch.pid) core.phys.mem (core.table launch.pid)

theorem Startable.unstarted (startable : Startable core pid) (table : Table core) (fresh : (core.table pid).preempted = false) :
    pid ∉ core.ledger.starts := by
  intro member
  rw [(table.started pid member).2 startable.pending] at fresh
  cases fresh

theorem Startable.nobody (startable : Startable core pid) (table : Table core) (other : Pid) :
    (core.table other).state ≠ .running := by
  intro running
  have := table.running other running
  rw [startable.idle] at this
  cases this

/-- The ledger once a payload is on the CPU again. -/
def resumedLedger (pid : Pid) (slot : Slot) (ledger : Ledger) : Ledger :=
  if slot.preempted then { ledger with silent := true }
  else { ledger with starts := ledger.starts ++ [pid], silent := false }

theorem resumePayload_eq (pid : Pid) (now : Nat) (core : Core) :
    (resumePayload pid now core).2 =
      { setSlot core pid (resumedSlot now) with
        ledger := resumedLedger pid (core.table pid) core.ledger
        current := some pid } := by
  unfold resumePayload resumedLedger
  dsimp only
  split <;> rfl

theorem resumedLedger_starts {slot : Slot} {ledger : Ledger} :
    (resumedLedger pid slot ledger).starts = if slot.preempted then ledger.starts else ledger.starts ++ [pid] := by
  unfold resumedLedger
  split <;> rfl

theorem resumePayload_spec (inv : CoreInv tight held core) (startable : Startable core pid) (now : Nat)
    (hasFrame : (core.table pid).resumeFrame ≠ 0) :
    CoreInv tight held (resumePayload pid now core).2 ∧
      Launched held (resumePayload pid now core).2 (resumePayload pid now core).1 ∧
      Advances core (resumePayload pid now core).2 := by
  have launch : (resumePayload pid now core).1 =
      { pid, satp := satpOf (core.table pid).root, frame := (core.table pid).resumeFrame, entry := 0, restored := true,
        announced := !(core.table pid).preempted } := rfl
  rw [launch, resumePayload_eq]
  generalize made : ({ setSlot core pid (resumedSlot now) with
    ledger := resumedLedger pid (core.table pid) core.ledger
    current := some pid } : Core) = after
  have parked := inv.contexts.parked pid startable.pending hasFrame
  have here : after.table pid = resumedSlot now (core.table pid) := by
    rw [← made]
    exact setSlot_self core pid (resumedSlot now)
  have others : ∀ other, other ≠ pid → after.table other = core.table other := by
    intro other different
    rw [← made]
    exact setSlot_other core (resumedSlot now) different
  have ledger : after.ledger = resumedLedger pid (core.table pid) core.ledger := by rw [← made]
  have current : after.current = some pid := by rw [← made]
  have one : OneSlot core after pid := by
    refine ⟨?_, ?_, ?_, ?_, ?_, ?_, others⟩
    · rw [← made]
      rfl
    · rw [← made]
      rfl
    · rw [← made]
      rfl
    all_goals
      rw [ledger, resumedLedger]
      split <;> rfl
  have touched : SlotTouched (core.table pid) (after.table pid) := by
    rw [here]
    refine ⟨?_, rfl, rfl, rfl, rfl, rfl, rfl, rfl, rfl, rfl⟩
    simp [resumedSlot, startable.pending]
  have running : (after.table pid).state = .running := by rw [here]; rfl
  have starts : after.ledger.starts.Nodup := by
    rw [ledger, resumedLedger_starts]
    split
    · exact inv.table.starts
    · next fresh =>
      rw [← List.concat_eq_append]
      exact List.Nodup.concat (startable.unstarted inv.table (Bool.eq_false_iff.mpr fresh)) inv.table.starts
  refine ⟨inv.touch one touched ?_ ?_ ?_ starts ?_ ?_ (fun _ => .inl startable.pending) ?_,
    ⟨current, running, ?_, ?_, Nat.two_pow_pos 64, ?_, ?_⟩, one.advances touched ?_⟩
  · intro other isRunning
    by_cases same : other = pid
    · subst same
      exact current
    · rw [others other same] at isRunning
      exact absurd isRunning (startable.nobody inv.table other)
  · exact fun _ => ⟨hasFrame, startable.lower⟩
  · rw [startable.pending]
    exact nofun
  · intro other member
    by_cases same : other = pid
    · subst same
      rw [running]
      exact ⟨nofun, nofun⟩
    · rw [others other same]
      refine inv.table.started other ?_
      rw [ledger, resumedLedger_starts] at member
      split at member
      · exact member
      · simpa [same] using member
  · intro queued
    exact absurd (running.symm.trans (Slot.queued_iff.mp queued).1) nofun
  · rw [running]
    exact nofun
  · rw [here]
    rfl
  · rw [here]
    rfl
  · intro _
    rw [ledger, resumedLedger]
    cases (core.table pid).preempted <;> rfl
  · have phys : after.phys = core.phys := one.phys
    simp only [here, phys]
    exact ⟨parked.memory, parked.context⟩
  · rw [startable.pending]
    exact nofun

/-- A payload gets a space and a saved frame of its own. -/
structure Housed (core core' : Core) (pid : Pid) (root frame : Nat) : Prop where
  others : ∀ other, other ≠ pid → core'.table other = core.table other
  root : (core'.table pid).root = root
  frame : (core'.table pid).resumeFrame = frame
  used : (core'.table pid).state ≠ .empty
  kernelRoot : core'.kernelRoot = core.kernelRoot
  snaps : core'.snaps = core.snaps

theorem Housed.heap {root frame : Nat} (housed : Housed core core' pid root frame) (heap : Heap tight core)
    (grows : Grows tight core.phys root (some frame) core'.phys) (noRoot : (estate core).root (.slot pid) = none)
    (noSaved : (estate core).saved (.slot pid) = none) : Heap tight core' ∧ ∀ other, Keeps (estate core) other core.phys core'.phys := by
  refine heap.grow grows (.slot pid) noRoot noSaved ?_
  rw [estate_slot pid housed.kernelRoot housed.snaps housed.others]
  have rootFrame := grows.space.shape.root.ne_zero
  have savedFrame := (grows.held frame rfl).1.isFrame.ne_zero
  simp [Slot.holding, housed.root, housed.frame, housed.used, rootFrame, savedFrame]

theorem freshFrame_user (entry : Nat) : UserContext (freshFrame entry) where
  status := show Machine.userStatus sstatusSpie = sstatusSpie by decide
  enabled := show Machine.spie sstatusSpie = true by decide

/-- The fresh path of `start`, where it succeeds. -/
theorem CoreInv.load (inv : CoreInv tight held core) (startable : Startable core pid)
    (noFrame : (core.table pid).resumeFrame = 0) {now root frame entry : Nat} {phys : Phys}
    (small : entry < 2 ^ 64) (grows : Grows tight core.phys root (some frame) phys) (loads : loadFrame phys.mem frame = freshFrame entry)
    (isPhys : core'.phys = phys) (kernelRoot : core'.kernelRoot = core.kernelRoot) (snaps : core'.snaps = core.snaps)
    (current : core'.current = some pid)
    (ledger : core'.ledger = { core.ledger with starts := core.ledger.starts ++ [pid], silent := false })
    (others : ∀ other, other ≠ pid → core'.table other = core.table other)
    (here : core'.table pid = loadedSlot now root frame entry (Sv39.view phys.mem root) (core.table pid)) :
    CoreInv tight held core' ∧
      Launched held core' { pid, satp := satpOf root, frame, entry, restored := false, announced := true } ∧
      Advances core core' := by
  subst isPhys
  have used : (core.table pid).state ≠ .empty := by rw [startable.pending]; decide
  have noRoot : (core.table pid).root = 0 := by
    by_contra hasRoot
    exact (inv.table.paired pid used).mp hasRoot noFrame
  have fresh : (core.table pid).preempted = false := by
    by_contra preempted
    refine inv.table.loaded pid ?_ noFrame
    simp [Slot.engaged, startable.pending, Bool.of_not_eq_false preempted]
  have running : (core'.table pid).state = .running := by rw [here]; rfl
  have housed : Housed core core' pid root frame :=
    ⟨others, by rw [here]; rfl, by rw [here]; rfl, by rw [running]; decide, kernelRoot, snaps⟩
  obtain ⟨heap, keeps⟩ := housed.heap inv.heap grows (by simp [estate, Slot.holding, noRoot])
    (by simp [estate, Slot.holding, noFrame])
  have rootFrame := grows.space.shape.root.ne_zero
  have savedFrame := (grows.held frame rfl).1.isFrame.ne_zero
  refine ⟨⟨heap, ?_, ?_, ?_, ?_⟩, ⟨current, running, ?_, ?_, small, ?_, ?_, ?_⟩, ?_, ?_, ?_⟩
  · refine inv.table.touch (by rw [ledger]) others ?_ ?_ ?_ ?_ ?_ ?_ ?_ ?_ ?_ ?_ ?_
    · simp [running, used]
    · rw [here]; rfl
    · rw [here]; rfl
    · rw [here]; rfl
    · intro other isRunning
      by_cases same : other = pid
      · subst same
        exact current
      · rw [others other same] at isRunning
        exact absurd isRunning (startable.nobody inv.table other)
    · simp [housed.root, housed.frame, rootFrame, savedFrame]
    · rw [housed.frame]
      exact fun _ => ⟨savedFrame, startable.lower⟩
    · rw [startable.pending]
      simp [ProcState.terminal]
    · rw [ledger, ← List.concat_eq_append]
      exact List.Nodup.concat (startable.unstarted inv.table fresh) inv.table.starts
    · intro other member
      by_cases same : other = pid
      · subst same
        rw [running]
        exact ⟨(by simp), (by simp)⟩
      · rw [others other same]
        refine inv.table.started other ?_
        simpa [ledger, same] using member
    · intro queued
      exact absurd (running.symm.trans (Slot.queued_iff.mp queued).1) (by simp)
  · intro other pending hasFrame
    have different : other ≠ pid := by
      rintro rfl
      rw [running] at pending
      cases pending
    rw [others other different] at pending hasFrame ⊢
    exact inv.parked_keep (keeps _) (by rw [pending]; decide) hasFrame (inv.contexts.parked other pending hasFrame)
  · intro sid valid
    rw [snaps] at valid ⊢
    obtain ⟨checkpoint, found, frozen⟩ := inv.contexts.frozen sid valid
    exact ⟨checkpoint, by rw [ledger]; exact found, inv.frozen_keep (keeps _) valid frozen⟩
  · intro other serial isUsed isOrigin
    by_cases same : other = pid
    · subst same
      rw [here] at isOrigin
      exact absurd noFrame ((inv.contexts.restored other serial used isOrigin).1 startable.pending)
    · rw [others other same] at isUsed isOrigin ⊢
      rw [ledger]
      exact inv.contexts.restored other serial isUsed isOrigin
  · rw [housed.root]
  · rw [housed.frame]
  · intro _
    rw [ledger]
    rfl
  · rw [here]
    rfl
  · refine .inl ?_
    rw [here]
    exact ⟨loads, freshFrame_user entry⟩
  · rw [ledger]
  · exact ledger ▸ List.prefix_refl _
  · intro other isUsed
    by_cases same : other = pid
    · subst same
      refine ⟨housed.used, ?_, ?_, ?_, ?_, ?_⟩ <;> rw [here]
      · rfl
      · rfl
      · rfl
      · rfl
      · rw [startable.pending]
        simp [ProcState.terminal]
    · rw [others other same]
      exact .refl isUsed

/-- What `start` has done once `CURRENT` names the payload. -/
structure Begun (tight : Prop) (held : Held) (pid : Pid) (core : Core) (launch : Launch) (core' : Core) : Prop where
  inv : CoreInv tight held core'
  launched : Launched held core' launch
  isPid : launch.pid = pid
  advances : Advances core core'
  satp : core'.phys.satp = core.phys.satp
  kernelRoot : core'.kernelRoot = core.kernelRoot
  others : ∀ other, other ≠ pid → core'.table other = core.table other
  remedies : core'.ledger.remedies = core.ledger.remedies
  silent : core'.ledger.silent = (core.table pid).preempted
  anchor : (core'.table pid).startEvent = (core.table pid).startEvent
  preempted : (core.table pid).preempted = true →
    core'.table pid = { core.table pid with preempted := false, state := .running }
  noted : (core.table pid).preempted = false → pid ∈ core'.ledger.starts

theorem resumePayload_begun (inv : CoreInv tight held core) (startable : Startable core pid) (now : Nat)
    (hasFrame : (core.table pid).resumeFrame ≠ 0) :
    Begun tight held pid core (resumePayload pid now core).1 (resumePayload pid now core).2 := by
  obtain ⟨inv', launched, advances⟩ := resumePayload_spec inv startable now hasFrame
  refine ⟨inv', launched, rfl, advances, ?_, ?_, ?_, ?_, ?_, ?_, ?_, ?_⟩ <;> rw [resumePayload_eq]
  · rfl
  · rfl
  · exact fun other different => setSlot_other core (resumedSlot now) different
  · simp only [resumedLedger]
    split <;> rfl
  · simp only [resumedLedger]
    cases (core.table pid).preempted <;> rfl
  · rw [setSlot_self]
    rfl
  · intro preempted
    simp only [setSlot_self, resumedSlot, preempted, if_true]
  · intro fresh
    rw [resumedLedger_starts, fresh]
    simp

theorem loadPayload_ok (inv : CoreInv tight held core) (startable : Startable core pid)
    (noFrame : (core.table pid).resumeFrame = 0) {now : Nat} {launch : Launch}
    (formed : tight → ∀ image, Elf.WellFormed (build.elf image))
    (ran : loadPayload build pid now core = (.ok launch, core')) : Begun tight held pid core launch core' := by
  unfold loadPayload at ran
  split at ran
  · cases ran
  next root frame entry phys built =>
  obtain ⟨grows, loads⟩ := (buildImage_spec (fun assumed => formed assumed _) built).1 root frame entry rfl
  have fresh : (core.table pid).preempted = false := by
    by_contra preempted
    refine inv.table.loaded pid ?_ noFrame
    simp [Slot.engaged, startable.pending, Bool.of_not_eq_false preempted]
  cases ran
  obtain ⟨inv', launched, advances⟩ : CoreInv tight held
      { setSlot { noteStart core pid with phys } pid (loadedSlot now root frame entry (Sv39.view phys.mem root)) with
        current := some pid } ∧ _ ∧ _ :=
    inv.load startable noFrame (buildImage_entry built) grows loads rfl rfl rfl rfl rfl (fun other different => setSlot_other _ _ different)
      (setSlot_self _ _ _)
  refine ⟨inv', launched, rfl, advances, grows.control.1, rfl, fun other different => setSlot_other _ _ different, rfl,
    fresh.symm, ?_, ?_, ?_⟩
  · rw [setSlot_self]
    rfl
  · rw [fresh]
    simp
  · exact fun _ => List.mem_append_right _ List.mem_cons_self

theorem loadPayload_error (inv : CoreInv tight held core) {now : Nat} {reason : String}
    (formed : tight → ∀ image, Elf.WellFormed (build.elf image))
    (ran : loadPayload build pid now core = (.error reason, core')) :
    CoreInv tight held core' ∧ core'.phys.satp = core.phys.satp ∧ ∃ phys, core' = { core with phys } := by
  unfold loadPayload at ran
  split at ran
  · next phys built =>
    cases ran
    have undone := (buildImage_spec (fun assumed => formed assumed _) built).2 reason rfl
    obtain ⟨heap, keeps⟩ : Heap tight { core with phys } ∧ _ := inv.heap.undone undone rfl
    exact ⟨⟨heap, inv.table.same rfl rfl inv.table.running, inv.contexts_keep keeps rfl rfl rfl⟩, undone.satp, phys, rfl⟩
  · cases ran

theorem begin_ok {state state' : State} {launch : Launch} (inv : CoreInv tight held state.core)
    (startable : Startable state.core pid) (formed : tight → ∀ image, Elf.WellFormed (build.elf image))
    (ran : begin build pid state = (.ok launch, state')) :
    Begun tight held pid state.core launch state'.core ∧ ∃ reads, state'.env = { state.env with reads } := by
  unfold begin at ran
  dsimp only at ran
  split at ran
  · next hasFrame =>
    cases ran
    refine ⟨resumePayload_begun inv startable _ hasFrame, ?_⟩
    split
    · exact ⟨_, rfl⟩
    · exact ⟨_, rfl⟩
  · next noFrame =>
    split at ran
    · cases ran
    · next loaded =>
      cases ran
      exact ⟨loadPayload_ok inv startable (not_not.mp noFrame) formed loaded, _, rfl⟩

theorem begin_error {state state' : State} {reason : String} (inv : CoreInv tight held state.core)
    (formed : tight → ∀ image, Elf.WellFormed (build.elf image))
    (ran : begin build pid state = (.error reason, state')) :
    CoreInv tight held state'.core ∧ state'.core.phys.satp = state.core.phys.satp ∧
      (state.core.table pid).resumeFrame = 0 ∧ ∃ phys, state' = { state with core := { state.core with phys } } := by
  unfold begin at ran
  dsimp only at ran
  split at ran
  · cases ran
  · next noFrame =>
    split at ran
    · next failed =>
      cases ran
      obtain ⟨inv', satp, phys, rfl⟩ := loadPayload_error inv formed failed
      exact ⟨inv', satp, not_not.mp noFrame, phys, rfl⟩
    · cases ran

@[simp] theorem setA0_a0 (context : TrapFrame) : context.setA0 context.a0 = context := by
  unfold TrapFrame.setA0 TrapFrame.setReg TrapFrame.a0
  congr 1
  funext i
  split
  · next same => rw [same]
  · rfl

theorem UserContext.setA0 {context : TrapFrame} (user : UserContext context) (value : UInt64) :
    UserContext (context.setA0 value) := ⟨user.status, user.enabled⟩

/-- `core'` is `core` after an operation that came to nothing but moved memory about. -/
structure Unchanged (tight : Prop) (held : Held) (core core' : Core) : Prop where
  inv : CoreInv tight held core'
  keeps : ∀ owner, Keeps (estate core) owner core.phys core'.phys
  satp : core'.phys.satp = core.phys.satp
  rest : ∃ phys, core' = { core with phys }

theorem CoreInv.undone (inv : CoreInv tight held core) {phys : Phys} (undone : Undone tight core.phys phys) :
    Unchanged tight held core { core with phys } := by
  obtain ⟨heap, keeps⟩ : Heap tight { core with phys } ∧ _ := inv.heap.undone undone rfl
  exact ⟨⟨heap, inv.table.same rfl rfl inv.table.running, inv.contexts_keep keeps rfl rfl rfl⟩, keeps, undone.satp, phys, rfl⟩

theorem Unchanged.evolves (unchanged : Unchanged tight held core core') : Evolves core core' := by
  obtain ⟨phys, rfl⟩ := unchanged.rest
  exact { Evolves.refl core with }

/-- What a successful `sys_snapshot` has done. -/
structure Snapped (tight : Prop) (held : Held) (core : Core) (pid : Pid) (context : TrapFrame) (core' : Core) : Prop where
  inv : CoreInv tight held core'
  keeps : ∀ owner, Keeps (estate core) owner core.phys core'.phys
  satp : core'.phys.satp = core.phys.satp
  table : core'.table = core.table
  current : core'.current = core.current
  kernelRoot : core'.kernelRoot = core.kernelRoot
  ledger : core'.ledger = { core.ledger with
    taken := core.ledger.taken ++ [{
      taker := pid
      caps := (core.table pid).caps
      context
      memory := Sv39.view core.phys.mem (core.table pid).root }] }

theorem Snapped.evolves {context : TrapFrame} (snapped : Snapped tight held core pid context core') :
    Evolves core core' := by
  refine ⟨⟨?_, ?_, ?_⟩, ?_, ?_, ?_, ?_, ?_, ?_, ?_, ?_⟩
  · rw [snapped.ledger]
  · rw [snapped.ledger]
    exact List.prefix_append _ _
  · rw [snapped.table]
    exact fun _ used => .refl used
  · rw [snapped.table]
    exact fun _ _ => ⟨rfl, rfl, rfl⟩
  · rw [snapped.table]
    exact fun _ _ => rfl
  · rw [snapped.table]
    exact fun _ => id
  · rw [snapped.table]
    exact fun _ => id
  · rw [snapped.table]
    exact fun _ => .inr
  · rw [snapped.table]
    exact fun _ empty used => absurd empty used
  · rw [snapped.ledger]
    exact fun _ => Nat.le_refl _
  · rw [snapped.table]
    exact fun _ _ _ => .inl rfl

theorem freeSnap_some {sid : Sid} (found : freeSnap core = some sid) : (core.snaps sid).valid = false := by
  have := List.find?_some found
  simpa using this

private theorem taken_append {taken : List Checkpoint} {serial : Nat} {checkpoint : Checkpoint} (more : List Checkpoint)
    (found : taken[serial]? = some checkpoint) : (taken ++ more)[serial]? = some checkpoint := by
  have inside : serial < taken.length := (List.getElem?_eq_some_iff.mp found).1
  rw [List.getElem?_append_left inside]
  exact found

/-- A space and a saved frame go to a free checkpoint slot. -/
theorem CoreInv.snap (inv : CoreInv tight held core) {sid : Sid} {context : TrapFrame} {root frame : Nat} {phys : Phys}
    (vacant : (core.snaps sid).valid = false) (user : UserContext context)
    (grows : Grows tight core.phys root (some frame) phys)
    (view : Sv39.view phys.mem root = Sv39.view core.phys.mem (core.table pid).root)
    (loads : loadFrame phys.mem frame = context.setA0 0) (isPhys : core'.phys = phys)
    (kernelRoot : core'.kernelRoot = core.kernelRoot) (table : core'.table = core.table)
    (current : core'.current = core.current)
    (ledger : core'.ledger = { core.ledger with
      taken := core.ledger.taken ++ [{
        taker := pid
        caps := (core.table pid).caps
        context
        memory := Sv39.view core.phys.mem (core.table pid).root }] })
    (others : ∀ other, other ≠ sid → core'.snaps other = core.snaps other)
    (here : core'.snaps sid = {
      valid := true
      root
      frame
      caps := (core.table pid).caps
      image := (core.table pid).image
      serial := core.ledger.taken.length }) :
    Snapped tight held core pid context core' := by
  subst isPhys
  have given : estate core' = (estate core).give (.snap sid) (some root) (some frame) := by
    rw [estate_snap sid kernelRoot table others, here]
    rfl
  obtain ⟨heap, keeps⟩ := inv.heap.grow grows (.snap sid) (by simp [estate, Snapshot.holding, vacant])
    (by simp [estate, Snapshot.holding, vacant]) given
  refine ⟨⟨heap, ?_, ?_, ?_, ?_⟩, keeps, grows.control.1, table, current, kernelRoot, ledger⟩
  · have running := inv.table.running
    rw [← current] at running
    have moved : Table { core with current := core'.current } := inv.table.same rfl rfl running
    cases core'
    simp only at table ledger
    subst table ledger
    exact ⟨moved.ceiling, moved.delegated, moved.packed, moved.room, running, moved.paired, moved.loaded, moved.order, moved.starts,
      moved.started, moved.unstarted⟩
  · intro other pending hasFrame
    rw [table] at pending hasFrame ⊢
    exact inv.parked_keep (keeps _) (by rw [pending]; decide) hasFrame (inv.contexts.parked other pending hasFrame)
  · intro other valid
    rw [ledger]
    by_cases same : other = sid
    · subst same
      rw [here]
      refine ⟨_, List.getElem?_concat_length, rfl, user, loads, view⟩
    · rw [others other same] at valid ⊢
      obtain ⟨checkpoint, found, frozen⟩ := inv.contexts.frozen other valid
      exact ⟨checkpoint, taken_append _ found, inv.frozen_keep (keeps _) valid frozen⟩
  · intro other serial used isOrigin
    rw [table] at used isOrigin ⊢
    obtain ⟨hasFrame, checkpoint, found, rest⟩ := inv.contexts.restored other serial used isOrigin
    refine ⟨hasFrame, checkpoint, ?_, rest⟩
    rw [ledger]
    exact taken_append _ found

theorem currentSpace_some (current : core.current = some pid) {root : Nat} (isSpace : currentSpace core = some root) :
    (core.table pid).root ≠ 0 ∧ (core.table pid).root = root := by
  simpa [currentSpace, current] using isSpace

theorem CoreInv.currentSpace_space (inv : CoreInv tight held core) (current : core.current = some pid)
    (used : (core.table pid).state ≠ .empty) {root : Nat} (isSpace : currentSpace core = some root) : Space core.phys root := by
  obtain ⟨hasRoot, rfl⟩ := currentSpace_some current isSpace
  exact inv.heap.slot_space used hasRoot

theorem CoreInv.snap_owned (inv : CoreInv tight held core) {sid : Sid} (valid : (core.snaps sid).valid = true) :
    Space core.phys (core.snaps sid).root ∧ Live core.phys (core.snaps sid).frame :=
  ⟨inv.heap.snap_space valid, inv.heap.owned.live (.snap sid) _ (if_pos valid)⟩

/-- A `sys_snapshot` that fails has undone whatever it had begun. -/
theorem takeSnapshot_failed (tight : Prop) (space : ∀ root, currentSpace core = some root → Space core.phys root) {context : TrapFrame}
    {errno : Int} (ran : takeSnapshot context core = (.error errno, core')) :
    errno < 0 ∧ ∃ phys, core' = { core with phys } ∧ Undone tight core.phys phys := by
  unfold takeSnapshot at ran
  split at ran
  · next pid root _ isSpace =>
    split at ran
    · obtain ⟨⟨⟩, rfl⟩ := Prod.mk.inj ran
      exact ⟨by decide, core.phys, rfl, .refl tight core.phys⟩
    split at ran
    · next phys failed =>
      obtain ⟨⟨⟩, rfl⟩ := Prod.mk.inj ran
      exact ⟨by decide, phys, rfl, (deepCopy_spec (space root isSpace) failed).2 rfl⟩
    next copy copied copying =>
    obtain ⟨grows, -⟩ : Grows tight core.phys copy none copied ∧ _ := (deepCopy_spec (space root isSpace) copying).1 copy rfl
    split at ran
    · next failed =>
      obtain ⟨⟨⟩, rfl⟩ := Prod.mk.inj ran
      rw [alloc_none failed]
      exact ⟨by decide, _, rfl, grows.destroy⟩
    · cases ran
  · obtain ⟨⟨⟩, rfl⟩ := Prod.mk.inj ran
    exact ⟨by decide, core.phys, rfl, .refl tight core.phys⟩

theorem takeSnapshot_spec (inv : CoreInv tight held core) (current : core.current = some pid)
    (running : (core.table pid).state = .running) {context : TrapFrame} (user : UserContext context)
    {result : Except Int (Pid × Sid)} (ran : takeSnapshot context core = (result, core')) :
    (∀ errno, result = .error errno → errno < 0 ∧ Unchanged tight held core core') ∧
      ∀ taker sid, result = .ok (taker, sid) → taker = pid ∧ Snapped tight held core pid context core' := by
  have space : ∀ root, currentSpace core = some root → Space core.phys root :=
    fun _ => inv.currentSpace_space current (by rw [running]; decide)
  constructor
  · rintro errno rfl
    obtain ⟨negative, phys, rfl, undone⟩ := takeSnapshot_failed tight space ran
    exact ⟨negative, inv.undone undone⟩
  · rintro taker sid rfl
    unfold takeSnapshot at ran
    split at ran
    · next runner root isPid isSpace =>
      obtain rfl : pid = runner := Option.some.inj (current.symm.trans isPid)
      have isRoot : (core.table pid).root = root := (currentSpace_some current isSpace).2
      split at ran
      · cases ran
      next slot found =>
      split at ran
      · cases ran
      next copy copied copying =>
      obtain ⟨grows, view⟩ : Grows tight core.phys copy none copied ∧ _ :=
        (deepCopy_spec (space root isSpace) copying).1 copy rfl
      split at ran
      · cases ran
      next snapFrame taken allocated =>
      obtain ⟨⟨⟩, rfl⟩ := Prod.mk.inj ran
      have frame := (alloc_some allocated).frame
      obtain ⟨within, loads⟩ := saveFrameTo_spec taken context frame 0
      obtain ⟨saved, sameView⟩ := grows.save allocated (fun a away => within.elsewhere a (by omega)) within.rest
      subst isRoot
      exact ⟨rfl, inv.snap (freeSnap_some found) user saved (sameView.trans view) loads rfl rfl rfl rfl rfl
        (fun other different => if_neg different) (if_pos rfl)⟩
    · cases ran

/-- A copy of a checkpoint goes to an empty slot. -/
theorem CoreInv.restore (inv : CoreInv tight held core) {sid : Sid} {checkpoint : Checkpoint} {root frame : Nat}
    (enqueued : Enqueued core core' pid)
    (found : core.ledger.taken[(core.snaps sid).serial]? = some checkpoint)
    (frozen : Frozen core.phys.mem (core.snaps sid) checkpoint)
    (grows : Grows tight core.phys root (some frame) core'.phys)
    (view : Sv39.view core'.phys.mem root = Sv39.view core.phys.mem (core.snaps sid).root)
    (loads : loadFrame core'.phys.mem frame = loadFrame core.phys.mem (core.snaps sid).frame)
    (here : core'.table pid =
      restoredSlot (core.snaps sid) root frame (checkpoint.context.setA0 0) checkpoint.memory) :
    CoreInv tight held core' := by
  have rootFrame := grows.space.shape.root.ne_zero
  have savedFrame := (grows.held frame rfl).1.isFrame.ne_zero
  have housed : Housed core core' pid root frame :=
    ⟨enqueued.others, by rw [here]; rfl, by rw [here]; rfl, by rw [enqueued.pending]; decide, enqueued.kernelRoot,
      enqueued.snaps⟩
  obtain ⟨heap, keeps⟩ := housed.heap inv.heap grows (by simp [estate, Slot.holding, enqueued.vacant])
    (by simp [estate, Slot.holding, enqueued.vacant])
  refine ⟨heap, enqueued.table inv.table ?_ ?_ ?_, ?_, ?_, ?_⟩
  · simp only [here]
    exact capsWithin_and_right _ _
  · rw [here]
    intro parent isParent
    cases isParent
  · simp [housed.root, housed.frame, rootFrame, savedFrame]
  · intro other pending hasFrame
    by_cases same : other = pid
    · subst same
      rw [here]
      exact ⟨view.trans frozen.memory, .inl ⟨loads.trans frozen.context, frozen.user.setA0 0⟩⟩
    · rw [enqueued.others other same] at pending hasFrame ⊢
      exact inv.parked_keep (keeps _) (by rw [pending]; decide) hasFrame (inv.contexts.parked other pending hasFrame)
  · intro other valid
    rw [enqueued.snaps] at valid ⊢
    obtain ⟨held, isTaken, isFrozen⟩ := inv.contexts.frozen other valid
    exact ⟨held, by rw [enqueued.taken]; exact isTaken, inv.frozen_keep (keeps _) valid isFrozen⟩
  · intro other serial used isOrigin
    rw [enqueued.taken]
    by_cases same : other = pid
    · subst same
      rw [here] at isOrigin ⊢
      cases isOrigin
      refine ⟨fun _ => savedFrame, checkpoint, found, ?_, fun _ => ⟨rfl, rfl⟩⟩
      rw [frozen.caps]
      exact capsWithin_and_left _ _
    · rw [enqueued.others other same] at used isOrigin ⊢
      exact inv.contexts.restored other serial used isOrigin

/-- The copying of a saved context into a new frame. -/
theorem Mm.Grows.copySaved {base copied taken : Phys} {root frame source : Nat} (grows : Grows tight base root none copied)
    (savedLive : Live base source) (allocated : alloc copied = (some frame, taken)) : ∃ phys,
    physRead taken source pageSize = some (taken.mem.readBytes source 4096) ∧
      physWrite taken frame (taken.mem.readBytes source 4096) = (true, phys) ∧
      Grows tight base root (some frame) phys ∧ Sv39.view phys.mem root = Sv39.view copied.mem root ∧
      loadFrame phys.mem frame = loadFrame base.mem source := by
  have target := (alloc_some allocated).frame
  have size : (taken.mem.readBytes source 4096).length = 4096 := by simp [Memory.readBytes]
  have inside : ∀ a, ¬ (frame ≤ a ∧ a < frame + 4096) →
      taken.mem.writeBytes frame (taken.mem.readBytes source 4096) a = taken.mem a := by
    intro a away
    unfold Memory.writeBytes
    rw [size, if_neg away]
  obtain ⟨saved, sameView⟩ : Grows tight base root (some frame)
      { taken with mem := taken.mem.writeBytes frame (taken.mem.readBytes source 4096) } ∧ _ :=
    grows.save allocated inside rfl
  refine ⟨_, ?_, ?_, saved, sameView, ?_⟩
  · unfold physRead
    exact if_pos (savedLive.isFrame.inPool 0 4096 (by omega))
  · unfold physWrite
    rw [size]
    exact if_pos (target.inPool 0 4096 (by omega))
  · rw [loadFrame_copy fun i small => Memory.writeBytes_readBytes taken.mem taken.mem frame _ 4096 i small]
    exact loadFrame_congr (((grows.take allocated).1).kept _ savedLive).2

/-- A restore that fails has undone whatever it had begun. -/
theorem enqueueRestore_failed (tight : Prop) {sid : Sid}
    (frozen : (core.snaps sid).valid = true → Space core.phys (core.snaps sid).root ∧ Live core.phys (core.snaps sid).frame)
    (ran : enqueueRestore sid core = (none, core')) : ∃ phys, core' = { core with phys } ∧ Undone tight core.phys phys := by
  unfold enqueueRestore at ran
  dsimp only at ran
  split at ran
  · next valid =>
    obtain ⟨space, savedLive⟩ := frozen valid
    split at ran
    · next phys failed =>
      obtain ⟨-, rfl⟩ := Prod.mk.inj ran
      exact ⟨phys, rfl, (deepCopy_spec space failed).2 rfl⟩
    next root copied copying =>
    obtain ⟨grows, -⟩ : Grows tight core.phys root none copied ∧ _ := (deepCopy_spec space copying).1 root rfl
    split at ran
    · next failed =>
      obtain ⟨-, rfl⟩ := Prod.mk.inj ran
      rw [alloc_none failed]
      exact ⟨_, rfl, grows.destroy⟩
    next frame taken allocated =>
    obtain ⟨phys, readable, writable, saved, -⟩ := grows.copySaved savedLive allocated
    simp only [readable, writable] at ran
    split at ran
    · cases ran
    · obtain ⟨-, rfl⟩ := Prod.mk.inj ran
      exact ⟨_, rfl, saved.discard⟩
  · obtain ⟨-, rfl⟩ := Prod.mk.inj ran
    exact ⟨core.phys, rfl, .refl tight core.phys⟩

theorem enqueueRestore_spec (inv : CoreInv tight held core) {sid : Sid} {result : Option Pid}
    (ran : enqueueRestore sid core = (result, core')) :
    (result = none → Unchanged tight held core core') ∧
      ∀ pid, result = some pid → CoreInv tight held core' ∧ Enqueued core core' pid ∧ (core'.table pid).parent = none ∧
        core'.phys.satp = core.phys.satp := by
  constructor
  · rintro rfl
    obtain ⟨phys, rfl, undone⟩ := enqueueRestore_failed tight inv.snap_owned ran
    exact inv.undone undone
  · rintro pid rfl
    unfold enqueueRestore at ran
    dsimp only at ran
    split at ran
    · next valid =>
      obtain ⟨checkpoint, isTaken, frozen⟩ := inv.contexts.frozen sid valid
      obtain ⟨space, savedLive⟩ := inv.snap_owned valid
      split at ran
      · cases ran
      next root copied copying =>
      obtain ⟨grows, view⟩ : Grows tight core.phys root none copied ∧ _ := (deepCopy_spec space copying).1 root rfl
      split at ran
      · cases ran
      next frame taken allocated =>
      obtain ⟨phys, readable, writable, saved, sameView, loads⟩ := grows.copySaved savedLive allocated
      simp only [readable, writable] at ran
      split at ran
      · next place =>
        obtain ⟨⟨⟩, rfl⟩ := Prod.mk.inj ran
        have isFrozen : Payload.frozen core (core.snaps sid) = (checkpoint.context.setA0 0, checkpoint.memory) := by
          simp [Payload.frozen, isTaken]
        have isPending : (restoredSlot (core.snaps sid) root frame (Payload.frozen core (core.snaps sid)).1
            (Payload.frozen core (core.snaps sid)).2).state = .pending := rfl
        obtain ⟨enqueued, here⟩ := enqueued_position place phys isPending rfl rfl
        refine ⟨inv.restore enqueued isTaken frozen saved (sameView.trans view) loads ?_, enqueued, ?_, saved.control.1⟩
        · rw [here, isFrozen]
        · rw [here]
          rfl
      · cases ran
    · cases ran

/-- What a tick may find on the CPU: the payload itself, or kernel code that is
about to resume it. -/
def Interruptible (held : Nat → Nat → Prop) (slot : Slot) (context : TrapFrame) : Prop :=
  (context = slot.lastUser ∧ UserContext context) ∨
    (held slot.root slot.resumeFrame ∧ context.isFromUser = false ∧ Machine.spie context.sstatus = true)

def preemptedSlot (slot : Slot) : Slot := { slot with preempted := true, state := .pending }

/-- `maybe_preempt` saves the context and takes the payload off the CPU. -/
theorem CoreInv.preempt (inv : CoreInv tight held core) (current : core.current = some pid)
    (running : (core.table pid).state = .running) {context : TrapFrame}
    (memory : Sv39.view core.phys.mem (core.table pid).root = (core.table pid).lastMemory)
    (interruptible : Interruptible (held pid) (core.table pid) context)
    (phys : core'.phys = saveFrameTo core.phys context (core.table pid).resumeFrame context.a0)
    (kernelRoot : core'.kernelRoot = core.kernelRoot) (snaps : core'.snaps = core.snaps)
    (ledger : core'.ledger = core.ledger) (others : ∀ other, other ≠ pid → core'.table other = core.table other)
    (here : core'.table pid = preemptedSlot (core.table pid)) :
    CoreInv tight held core' ∧ Evolves core core' ∧ core'.phys.satp = core.phys.satp := by
  have used : (core.table pid).state ≠ .empty := by rw [running]; decide
  have engaged : (core.table pid).engaged = true := by simp [Slot.engaged, running]
  have hasFrame := inv.table.loaded pid engaged
  have hasRoot := (inv.table.paired pid used).mpr hasFrame
  have held : (estate core).holds core.phys.mem (.slot pid) .saved = some (core.table pid).resumeFrame :=
    CoreInv.holds_saved used hasFrame
  have frame := (inv.heap.owned.holds_live held).isFrame
  obtain ⟨within, loads⟩ := saveFrameTo_spec core.phys context frame context.a0
  rw [← phys] at within loads
  rw [setA0_a0] at loads
  have inside : ∀ a, ¬ ((core.table pid).resumeFrame ≤ a ∧ a < (core.table pid).resumeFrame + 4096) →
      core'.phys.mem a = core.phys.mem a := fun a away => within.elsewhere a (by omega)
  have noTable : ∀ place, Role.saved = .node place → place.isTable = false := (by simp)
  obtain ⟨-, beside, tree, outside⟩ := inv.heap.owned.write held noTable inside
  rw [← within.rest] at beside
  have satp : core'.phys.satp = core.phys.satp := by rw [within.rest]
  have same : estate core' = estate core := by
    refine estate_same kernelRoot snaps fun other => ?_
    by_cases isPid : other = pid
    · subst isPid
      rw [here]
      simp [preemptedSlot, running]
    · rw [others other isPid]
      simp
  have view : Sv39.view core'.phys.mem (core.table pid).root = Sv39.view core.phys.mem (core.table pid).root := by
    refine Sv39.view_frame (inv.heap.slot_space used hasRoot) (fun node f found => ?_) outside
    exact tree (.node node) f (Estate.holds_node.mpr ⟨_, if_pos ⟨used, hasRoot⟩, found⟩) (by simp)
  have pending : (core'.table pid).state = .pending := by rw [here]; rfl
  refine ⟨⟨inv.heap.write held noTable inside within.rest same, ?_, ?_, ?_, ?_⟩,
    ⟨⟨?_, ?_, ?_⟩, ?_, ?_, ?_, ?_, ?_, ?_, ?_, ?_⟩, satp⟩
  · refine inv.table.touch (by rw [ledger]) others ?_ ?_ ?_ ?_ ?_ ?_ ?_ ?_ (by rw [ledger]; exact inv.table.starts) ?_ ?_
    · simp [pending, running]
    · rw [here]; rfl
    · rw [here]; rfl
    · rw [here]; rfl
    · intro other isRunning
      by_cases isPid : other = pid
      · subst isPid
        rw [pending] at isRunning
        cases isRunning
      · rw [others other isPid] at isRunning
        have := inv.table.running other isRunning
        rw [current] at this
        exact absurd (Option.some.inj this).symm isPid
    · rw [here]
      exact fun _ => inv.table.paired pid used
    · rw [here]
      exact fun _ => ⟨hasFrame, fun lower => inv.table.order pid lower engaged⟩
    · rw [running]
      simp [ProcState.terminal]
    · intro other member
      rw [ledger] at member
      by_cases isPid : other = pid
      · subst isPid
        rw [here]
        exact ⟨by simp [preemptedSlot], fun _ => rfl⟩
      · rw [others other isPid]
        exact inv.table.started other member
    · rw [here]
      exact fun queued => absurd (Slot.queued_iff.mp queued).2 (by simp [preemptedSlot])
  · intro other isPending otherFrame
    by_cases isPid : other = pid
    · subst isPid
      rw [here]
      refine ⟨view.trans memory, ?_⟩
      rcases interruptible with ⟨isLast, user⟩ | ⟨notOnly, supervisor, enabled⟩
      · exact .inl ⟨loads.trans isLast, isLast ▸ user⟩
      · refine .inr ⟨notOnly, ?_⟩
        change (loadFrame core'.phys.mem (core.table other).resumeFrame).isFromUser = false ∧
          Machine.spie (loadFrame core'.phys.mem (core.table other).resumeFrame).sstatus = true
        rw [loads]
        exact ⟨supervisor, enabled⟩
    · rw [others other isPid] at isPending otherFrame ⊢
      exact inv.parked_keep (beside _ fun isSlot => isPid (by cases isSlot; rfl)) (by rw [isPending]; decide) otherFrame
        (inv.contexts.parked other isPending otherFrame)
  · intro sid valid
    rw [snaps] at valid ⊢
    rw [ledger]
    obtain ⟨checkpoint, found, frozen⟩ := inv.contexts.frozen sid valid
    exact ⟨checkpoint, found, inv.frozen_keep (beside _ (by simp)) valid frozen⟩
  · intro other serial isUsed isOrigin
    rw [ledger]
    by_cases isPid : other = pid
    · subst isPid
      rw [here] at isOrigin ⊢
      exact ⟨fun _ => hasFrame, (inv.contexts.restored other serial used isOrigin).2⟩
    · rw [others other isPid] at isUsed isOrigin ⊢
      exact inv.contexts.restored other serial isUsed isOrigin
  · rw [ledger]
  · exact ledger ▸ List.prefix_refl _
  · intro other isUsed
    by_cases isPid : other = pid
    · subst isPid
      rw [here]
      refine ⟨by simp [preemptedSlot], rfl, rfl, rfl, rfl, ?_⟩
      rw [running]
      simp [ProcState.terminal]
    · rw [others other isPid]
      exact .refl isUsed
  · intro other _
    by_cases isPid : other = pid
    · subst isPid
      rw [here]
      exact ⟨rfl, rfl, rfl⟩
    · rw [others other isPid]
      exact ⟨rfl, rfl, rfl⟩
  · intro other _
    by_cases isPid : other = pid
    · subst isPid
      rw [here]
      rfl
    · rw [others other isPid]
  · intro other isRunning
    by_cases isPid : other = pid
    · rw [isPid]
      exact running
    · rw [others other isPid] at isRunning
      exact isRunning
  · intro other isEngaged
    by_cases isPid : other = pid
    · rw [isPid]
      exact engaged
    · rw [others other isPid] at isEngaged
      exact isEngaged
  · intro other queued
    by_cases isPid : other = pid
    · rw [isPid, here] at queued
      exact absurd (Slot.queued_iff.mp queued).2 (by simp [preemptedSlot])
    · rw [others other isPid] at queued
      exact .inr queued
  · intro other empty isUsed
    by_cases isPid : other = pid
    · rw [isPid] at empty
      exact absurd empty used
    · rw [others other isPid] at isUsed
      exact absurd empty isUsed
  · rw [ledger]
    exact fun _ => Nat.le_refl _
  · intro other isPending _
    refine .inl (others other ?_)
    rintro rfl
    rw [running] at isPending
    cases isPending

/-- A store in U-mode changes nobody else's memory. -/
theorem CoreInv.store (inv : CoreInv tight held core) (running : (core.table pid).state = .running) (satp : core.phys.satp = satpOf (core.table pid).root) {va pa : Nat}
    (lands : Sv39.storeAddress core.phys.mem (Sv39.satpRoot core.phys.satp) va = some pa) (byte : UInt8) :
    CoreInv tight held { core with phys := { core.phys with mem := core.phys.mem.writeBytes pa [byte] } } ∧
      ∀ owner, owner ≠ .slot pid →
        Keeps (estate core) owner core.phys { core.phys with mem := core.phys.mem.writeBytes pa [byte] } := by
  have used : (core.table pid).state ≠ .empty := by rw [running]; decide
  have hasRoot := (inv.table.paired pid used).mpr (inv.table.loaded pid (by simp [Slot.engaged, running]))
  have space := inv.heap.slot_space used hasRoot
  rw [satp, satpRoot_satpOf space.shape.root] at lands
  obtain ⟨leafy, -, writable, rfl⟩ := Sv39.storeAddress_some space.shape lands
  obtain ⟨-, -, place⟩ := space.entries _ (pageNumber_lt va) leafy
  have frame : IsFrame (ptePa (pteOf core.phys.mem (core.table pid).root (pageNumber va))) := by
    rcases place with frame | ⟨-, readOnly, -⟩
    · exact frame
    · exact absurd readOnly writable
  have held : (estate core).holds core.phys.mem (.slot pid) (.node (.page (pageNumber va))) =
      some (ptePa (pteOf core.phys.mem (core.table pid).root (pageNumber va))) := by
    refine Estate.holds_node.mpr ⟨_, if_pos ⟨used, hasRoot⟩, ?_⟩
    simp only [frameAt, pageNumber_lt va, leafy, frame, and_self, if_true]
  have inside : ∀ a, ¬ (ptePa (pteOf core.phys.mem (core.table pid).root (pageNumber va)) ≤ a ∧
      a < ptePa (pteOf core.phys.mem (core.table pid).root (pageNumber va)) + 4096) →
      core.phys.mem.writeBytes (ptePa (pteOf core.phys.mem (core.table pid).root (pageNumber va)) + va % 4096) [byte] a =
        core.phys.mem a := by
    intro a away
    have : va % 4096 < 4096 := Nat.mod_lt _ (by decide)
    exact if_neg (by simp only [List.length_singleton]; omega)
  have noTable : ∀ node, Role.node (.page (pageNumber va)) = .node node → node.isTable = false := by
    rintro node same
    cases same
    rfl
  obtain ⟨-, beside, -, -⟩ := inv.heap.owned.write held noTable inside
  refine ⟨⟨inv.heap.write held noTable inside rfl rfl, inv.table.same rfl rfl inv.table.running, ?_, ?_,
    inv.contexts.restored⟩, beside⟩
  · intro other pending hasFrame
    refine inv.parked_keep (beside _ fun isSlot => ?_) (by rw [pending]; decide) hasFrame
      (inv.contexts.parked other pending hasFrame)
    cases isSlot
    rw [running] at pending
    cases pending
  · intro sid valid
    obtain ⟨checkpoint, found, frozen⟩ := inv.contexts.frozen sid valid
    exact ⟨checkpoint, found, inv.frozen_keep (beside _ (by simp)) valid frozen⟩

end Kernai
