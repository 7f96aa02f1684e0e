import Kernai.Proofs.Reachable
import Kernai.Proofs.Runs

/-! Address spaces over whole runs: who owns which frame, what user code can reach
through its page tables, and what is still allocated when a suite is over. -/

namespace Kernai
open Foundation Kernel Payload Machine Frames Mm Hal

variable {tight : Prop} {held : Held} {build : Build} {core : Core} {config : Config}

theorem Machine.Reachable.coreInv (reached : Reachable build anyStep config) :
    CoreInv False (heldIn False config.interrupted) config.state.core := (Stands.inv reached.systemInv).core

/-- U-mode reaches this physical page at `va`, through this entry. -/
def Sv39.Reaches (mem : Memory) (root va page entry : Nat) : Prop :=
  ∃ level, leafAt mem root va = some (level, entry) ∧ entry &&& U ≠ 0 ∧ page = target va level entry / 4096

/-- The page lies in the pool. -/
def Pooled (page : Nat) : Prop := poolBase ≤ page * 4096 ∧ page * 4096 < poolEnd

/-- Every frame in use is allocated and has one use; user pages are shared only
outside the pool, where nobody may write; the kernel is mapped alike everywhere. -/
structure Isolated (core : Core) : Prop where
  allocated : ∀ owner role f, (estate core).holds core.phys.mem owner role = some f → Live core.phys f
  oneRole : ∀ owner role other role' f, (estate core).holds core.phys.mem owner role = some f →
    (estate core).holds core.phys.mem other role' = some f → owner = other ∧ role = role'
  separate : ∀ owner other root root' va va' page entry entry', owner ≠ other → (estate core).root owner = some root →
    (estate core).root other = some root' → Sv39.Reaches core.phys.mem root va page entry →
      Sv39.Reaches core.phys.mem root' va' page entry' → ¬ Pooled page
  readOnly : ∀ owner root va page entry, (estate core).root owner = some root →
    Sv39.Reaches core.phys.mem root va page entry → ¬ Pooled page → entry &&& W = 0
  kernelMap : ∀ owner root, (estate core).root owner = some root → ∃ entry, entry &&& U = 0 ∧
    ∀ va, 0x80000000 ≤ va → va < 0xC0000000 → Sv39.leafAt core.phys.mem root va = some (2, entry) ∧ Sv39.target va 2 entry = va

/-- What a user leaf can be: a page of the space's own, or a read-only page past the pool. -/
theorem Mm.Space.reaches {phys : Phys} {root va page entry : Nat} (space : Space phys root)
    (reaches : Sv39.Reaches phys.mem root va page entry) :
    entry = pteOf phys.mem root (pageNumber va) ∧ ¬ (entry &&& W ≠ 0 ∧ entry &&& X ≠ 0) ∧
      ((Pooled page ∧ frameAt phys.mem root (.page (pageNumber va)) = some (page * 4096)) ∨
        (¬ Pooled page ∧ entry &&& W = 0 ∧ entry &&& X = 0)) := by
  obtain ⟨level, walk, user, rfl⟩ := reaches
  rw [Sv39.leafAt_eq space.shape] at walk
  split at walk
  · cases walk
    exact absurd (by decide) user
  split at walk
  · next leafy =>
    cases walk
    obtain ⟨-, exclusive, place⟩ := space.entries _ (pageNumber_lt va) leafy
    refine ⟨rfl, exclusive, ?_⟩
    have within : Sv39.target va 0 (pteOf phys.mem root (pageNumber va)) =
        ptePa (pteOf phys.mem root (pageNumber va)) + va % 4096 := rfl
    rw [within]
    rcases place with frame | ⟨beyond, noWrite, noExec⟩
    · have bounds := frame.bounds
      have page : (ptePa (pteOf phys.mem root (pageNumber va)) + va % 4096) / 4096 * 4096 =
          ptePa (pteOf phys.mem root (pageNumber va)) := by omega
      refine .inl ⟨?_, ?_⟩
      · unfold Pooled
        rw [page]
        exact ⟨frame.1, frame.2.1⟩
      · rw [page]
        simp only [frameAt, pageNumber_lt va, leafy, frame, and_self, if_true]
    · refine .inr ⟨?_, noWrite, noExec⟩
      unfold Pooled
      rw [show poolEnd = 0x88000000 from rfl] at beyond ⊢
      omega
  · cases walk

theorem Mm.Shape.kernelMap {mem : Memory} {root : Nat} (shape : Shape mem root) : ∃ entry, entry &&& U = 0 ∧
    ∀ va, 0x80000000 ≤ va → va < 0xC0000000 → Sv39.leafAt mem root va = some (2, entry) ∧ Sv39.target va 2 entry = va := by
  refine ⟨leaf kernelGigapageVa (R ||| W ||| X ||| G), by decide, fun va above below => ?_⟩
  have index : vpn va 2 = 2 := by
    rw [vpn_two]
    unfold pageNumber
    omega
  have base : ptePa (leaf kernelGigapageVa (R ||| W ||| X ||| G)) = 0x80000000 := by decide
  refine ⟨by rw [Sv39.leafAt_eq shape, if_pos index], ?_⟩
  rw [Sv39.target, base]
  omega

theorem CoreInv.isolated (inv : CoreInv tight held core) : Isolated core where
  allocated _ _ _ isHeld := inv.heap.owned.holds_live isHeld
  oneRole := inv.heap.owned.apart
  separate owner other root root' va va' page entry entry' different isRoot isRoot' first second := by
    intro pooled
    obtain ⟨-, -, mine | ⟨outside, -⟩⟩ := (inv.heap.owned.spaces owner root isRoot).reaches first
    · obtain ⟨-, -, theirs | ⟨outside, -⟩⟩ := (inv.heap.owned.spaces other root' isRoot').reaches second
      · exact different (inv.heap.owned.apart owner (.node _) other (.node _) _ (Estate.holds_node.mpr ⟨root, isRoot, mine.2⟩)
          (Estate.holds_node.mpr ⟨root', isRoot', theirs.2⟩)).1
      · exact outside pooled
    · exact outside pooled
  readOnly owner root va page entry isRoot reaches outside := by
    obtain ⟨-, -, ⟨pooled, -⟩ | ⟨-, noWrite, -⟩⟩ := (inv.heap.owned.spaces owner root isRoot).reaches reaches
    · exact absurd pooled outside
    · exact noWrite
  kernelMap owner root isRoot := (inv.heap.owned.spaces owner root isRoot).shape.kernelMap

/-- Isolation in every state reached, whatever the images contain. -/
theorem reachable_isolated (reached : Reachable build anyStep config) : Isolated config.state.core :=
  reached.coreInv.isolated

/-- A payload with a page of data has the CPU. -/
def launched : Script dataBuild anyMove (boot dataBuild) fun config =>
    (config.state.core.table pid0).state = .running ∧ (config.state.core.table pid0).root ≠ 0 ∧
      ∃ leaf ∈ Sv39.leafAt config.state.core.phys.mem (config.state.core.table pid0).root 0x20000,
        leaf.2 &&& U ≠ 0 ∧ leaf.2 &&& W ≠ 0 where
  moves := startSuite
  passes := by decide +kernel

theorem reachable_isolated_launched : Isolated launched.config.state.core :=
  reachable_isolated (launched.reachable anyMove_sound)

/-- No page is writable through one user leaf and executable through another. -/
theorem reachable_writable_xor_executable (reached : Reachable build anyStep config)
    {owner other : Owner} {root root' va va' page entry entry' : Nat}
    (isRoot : (estate config.state.core).root owner = some root) (isRoot' : (estate config.state.core).root other = some root')
    (writes : Sv39.Reaches config.state.core.phys.mem root va page entry) (writable : entry &&& W ≠ 0)
    (executes : Sv39.Reaches config.state.core.phys.mem root' va' page entry') : entry' &&& X = 0 := by
  have owned := reached.coreInv.heap.owned
  obtain ⟨isEntry, exclusive, mine | ⟨-, noWrite, -⟩⟩ := (owned.spaces owner root isRoot).reaches writes
  case inr => exact absurd noWrite writable
  obtain ⟨isEntry', -, theirs | ⟨-, -, noExec⟩⟩ := (owned.spaces other root' isRoot').reaches executes
  case inr => exact noExec
  -- one frame has one use, so both walks end at the same entry
  obtain ⟨rfl, sameNode⟩ := owned.apart owner (.node _) other (.node _) _ (Estate.holds_node.mpr ⟨root, isRoot, mine.2⟩)
    (Estate.holds_node.mpr ⟨root', isRoot', theirs.2⟩)
  have sameRoot : root = root' := Option.some.inj (isRoot.symm.trans isRoot')
  have samePage : pageNumber va = pageNumber va' := Node.page.inj (Role.node.inj sameNode)
  rw [isEntry', ← sameRoot, ← samePage, ← isEntry]
  by_contra executable
  exact exclusive ⟨writable, executable⟩

theorem reachable_writable_xor_executable_launched :
    ∃ leaf, Sv39.leafAt launched.config.state.core.phys.mem (launched.config.state.core.table pid0).root 0x20000 = some leaf ∧
      leaf.2 &&& W ≠ 0 ∧ leaf.2 &&& X = 0 := by
  obtain ⟨running, hasRoot, leaf, found, user, writable⟩ := launched.tested
  have isRoot : (estate launched.config.state.core).root (.slot pid0) = some (launched.config.state.core.table pid0).root :=
    if_pos ⟨by rw [running]; decide, hasRoot⟩
  have reaches : Sv39.Reaches launched.config.state.core.phys.mem (launched.config.state.core.table pid0).root 0x20000
      (Sv39.target 0x20000 leaf.1 leaf.2 / 4096) leaf.2 := ⟨leaf.1, found, user, rfl⟩
  exact ⟨leaf, found, writable,
    reachable_writable_xor_executable (launched.reachable anyMove_sound) isRoot isRoot reaches writable reaches⟩

/-- No address space was torn down while `satp` pointed at it, and every table of the
space it does point at is allocated. -/
theorem reachable_translation_live (reached : Reachable build anyStep config) :
    (∀ root satp, (root, satp) ∈ config.state.core.phys.destroyed → Sv39.satpRoot satp ≠ root) ∧
      ∀ node f, node.isTable = true →
        frameAt config.state.core.phys.mem (Sv39.satpRoot config.state.core.phys.satp) node = some f →
          Live config.state.core.phys f := by
  have heap := reached.coreInv.heap
  obtain ⟨owner, root, isRoot, satp⟩ := heap.translating
  refine ⟨heap.spared, fun node f _ found => ?_⟩
  rw [satp, satpRoot_satpOf (heap.isFrame isRoot)] at found
  exact (heap.owned.spaces owner root isRoot).live node f found

theorem reachable_translation_live_launched :
    (∀ root satp, (root, satp) ∈ launched.config.state.core.phys.destroyed → Sv39.satpRoot satp ≠ root) ∧
      ∀ node f, node.isTable = true → frameAt launched.config.state.core.phys.mem
        (Sv39.satpRoot launched.config.state.core.phys.satp) node = some f → Live launched.config.state.core.phys f :=
  reachable_translation_live (launched.reachable anyMove_sound)

/-- The kernel owns its root table and nothing else. -/
theorem Heap.kernel_holds (heap : Heap tight core) {role : Role} {f : Nat}
    (isHeld : (estate core).holds core.phys.mem .kernel role = some f) : f = core.kernelRoot := by
  have leafless : ∀ n, n < 2 ^ 18 → lowAt core.phys.mem core.kernelRoot n = none := by
    intro n inside
    unfold lowAt
    rw [heap.bare _ (by omega)]
    rfl
  cases role with
  | saved => cases isHeld
  | node place =>
    obtain ⟨root, isRoot, found⟩ := Estate.holds_node.mp isHeld
    cases isRoot
    cases place with
    | root => exact (Option.some.inj found).symm
    | mid i =>
      simp only [frameAt] at found
      split at found
      · next inside => rw [heap.bare i inside] at found; cases found
      · cases found
    | low n =>
      simp only [frameAt] at found
      split at found
      · next inside => rw [leafless n inside] at found; cases found
      · cases found
    | page m =>
      simp only [frameAt] at found
      split at found
      · next leafy =>
        obtain ⟨inside, ⟨valid, -⟩, -⟩ := leafy
        unfold pteOf at valid
        rw [leafless _ (by omega)] at valid
        exact absurd (Nat.zero_and _) valid
      · cases found

/-- With every slot reaped, what is allocated is the kernel root and the checkpoints. -/
theorem CoreInv.accounted (inv : CoreInv True held core) (quiescent : Quiescent core) (reaped : Reaped core) (f : Nat) :
    Live core.phys f ↔ f = core.kernelRoot ∨
      ∃ sid role, (core.snaps sid).valid = true ∧ (estate core).holds core.phys.mem (.snap sid) role = some f := by
  constructor
  · intro live
    obtain ⟨owner, role, isHeld⟩ := inv.heap.owned.complete trivial f live
    cases owner with
    | kernel => exact .inl (inv.heap.kernel_holds isHeld)
    | snap sid =>
      refine .inr ⟨sid, role, ?_, isHeld⟩
      by_contra invalid
      cases role with
      | node place =>
        obtain ⟨root, isRoot, -⟩ := Estate.holds_node.mp isHeld
        simp [estate, Snapshot.holding, invalid] at isRoot
      | saved => simp [Estate.holds, estate, Snapshot.holding, invalid] at isHeld
    | slot pid =>
      have idle := quiescent pid
      have nothing : (core.table pid).state ≠ .empty → (core.table pid).root = 0 ∧ (core.table pid).resumeFrame = 0 := by
        intro used
        refine reaped pid ?_
        cases isState : (core.table pid).state <;> simp_all [ProcState.alive, ProcState.terminal]
      cases role with
      | node place =>
        obtain ⟨root, isRoot, -⟩ := Estate.holds_node.mp isHeld
        simp only [estate, Slot.holding] at isRoot
        split at isRoot
        · next used => exact absurd (nothing used.1).1 used.2
        · cases isRoot
      | saved =>
        simp only [Estate.holds, estate, Slot.holding] at isHeld
        split at isHeld
        · next used => exact absurd (nothing used.1).2 used.2
        · cases isHeld
  · rintro (rfl | ⟨sid, role, -, isHeld⟩)
    · have root : (estate core).holds core.phys.mem .kernel (.node .root) = some core.kernelRoot := rfl
      exact inv.heap.owned.holds_live root
    · exact inv.heap.owned.holds_live isHeld

/-- At the head of the idle loop no frame is lost, in every run that begins a new suite
only when every slot has handed back what it held. -/
theorem idle_frames_accounted (formed : ∀ image, Elf.WellFormed (build.elf image))
    (reached : Reachable build CleanReseed config) (idles : config.hart = .kernel (.pure .idle)) (f : Nat) :
    Live config.state.core.phys f ↔ f = config.state.core.kernelRoot ∨
      ∃ sid role, (config.state.core.snaps sid).valid = true ∧
        (estate config.state.core).holds config.state.core.phys.mem (.snap sid) role = some f := by
  have inv : SystemInv build True False config := reached.inv (fun _ => formed) (fun _ _ fine _ => fine) fun _ _ _ => False.elim
  rw [SystemInv, idles] at inv
  obtain ⟨steady, quiescent, -, reaped⟩ := Phase.at_pure inv
  exact steady.calm.core.accounted quiescent reaped f

def cleanly (config next : Config) : Bool :=
  next.state.core.ledger.suite == config.state.core.ledger.suite ||
    (List.finRange 12).all fun pid => (config.state.core.table pid).root == 0 && (config.state.core.table pid).resumeFrame == 0

theorem cleanly_sound (config next : Config) (fine : cleanly config next = true) : CleanReseed config next := by
  intro changes pid
  simp only [cleanly, Bool.or_eq_true, beq_iff_eq, changes, false_or, List.all_eq_true, Bool.and_eq_true] at fine
  exact fine pid (List.mem_finRange pid)

/-- The payload of a suite ends, and the kernel is back in its idle loop. -/
def suiteOver : Script bareBuild cleanly (boot bareBuild) fun config =>
    config.state.core.ledger.suite = 1 ∧ atIdle config.hart = true ∧ config.state.core.kernelRoot = poolBase ∧
      ∀ sid, (config.state.core.snaps sid).valid = false where
  moves := startSuite ++ syscall 0 0 0 ++ handOvers 3
  passes := by decide +kernel

theorem idle_frames_accounted_suiteOver : ¬ Live suiteOver.config.state.core.phys (poolBase + 4096) := by
  obtain ⟨-, idles, root, none⟩ := suiteOver.tested
  rw [idle_frames_accounted bareBuild_wellFormed (suiteOver.reachable cleanly_sound) (atIdle_iff idles), root]
  rintro (isRoot | ⟨sid, -, valid, -⟩)
  · exact absurd isRoot (by decide)
  · rw [none sid] at valid
    cases valid

def Emission.endsSuite : Emission → Bool
  | .frame _ (.suiteDone _ _ _) => true
  | _ => false

/-- A payload is preempted, killed and replaced by a new suite while requests are served. -/
def killAndReseed : Script bareBuild anyMove (boot bareBuild) fun config =>
    atIdle config.hart = true ∧ (∃ entry ∈ config.state.env.log.getLast?, entry.what.endsSuite = true) ∧
      config.state.core.phys.bitmap 1 = true ∧ config.state.core.kernelRoot = poolBase ∧
      ∀ sid, (config.state.core.snaps sid).valid = false where
  moves := startSuite ++
    request "\x7b\"method\":\"tools/call\",\"params\":\x7b\"name\":\"kill\",\"arguments\":\x7b\"pid\":0\x7d\x7d\x7d" ++
    request "\x7b\"method\":\"tools/call\",\"params\":\x7b\"name\":\"run_suite\",\"arguments\":\x7b\"suite\":\"d\"\x7d\x7d\x7d" ++
    [.userTick] ++ handOvers 8 ++ [.enter] ++ syscall 0 0 0 ++ handOvers 4
  passes := by decide +kernel

/-- The frames of its address space are never freed. -/
theorem idle_frames_leak : (∀ image, Elf.WellFormed (bareBuild.elf image)) ∧
    ∃ config f, Reachable bareBuild anyStep config ∧ config.hart = .kernel (.pure .idle) ∧
      (∃ entry ∈ config.state.env.log.getLast?, entry.what.endsSuite = true) ∧ Live config.state.core.phys f ∧
      f ≠ config.state.core.kernelRoot ∧ ∀ sid, (config.state.core.snaps sid).valid = false := by
  obtain ⟨idles, ended, used, root, none⟩ := killAndReseed.tested
  have index : (poolBase + 4096 - poolBase) / frameSize = 1 := by decide
  refine ⟨bareBuild_wellFormed, killAndReseed.config, poolBase + 4096, killAndReseed.reachable anyMove_sound,
    atIdle_iff idles, ended,
    ⟨by decide, by rw [index]; exact used⟩, ?_, none⟩
  rw [root]
  decide

end Kernai
