import Mathlib.Data.Fintype.Card
import Kernai.Proofs.Isolation

/-! Payloads over whole runs: what a slot keeps while it is in use, how capabilities pass
from one to another, and in which order payloads run and end. -/

namespace Kernai
open Foundation Kernel Payload Machine

variable {tight : Prop} {held : Held} {build : Build} {core : Core} {config next : Config} {pid : Pid}

theorem Machine.Later.suite_le (reached : Reachable build anyStep config) (later : Later build anyStep config next) :
    config.state.core.ledger.suite ≤ next.state.core.ledger.suite := by
  induction later with
  | refl => exact Nat.le_refl _
  | tail before step ih =>
    refine Nat.le_trans ih ?_
    rcases (step.1.shift (reached.later before)).advances with advances | ⟨-, reseeded⟩
    · exact Nat.le_of_eq advances.suite.symm
    · rw [reseeded.suite]
      exact Nat.le_succ _

/-- Until the next `clear_table` no slot in use is recycled. -/
theorem Machine.Later.advances (reached : Reachable build anyStep config) (later : Later build anyStep config next)
    (within : next.state.core.ledger.suite = config.state.core.ledger.suite) :
    Advances config.state.core next.state.core := by
  induction later with
  | refl => exact .refl _
  | @tail middle next before step ih =>
    have below := Later.suite_le reached before
    rcases (step.1.shift (reached.later before)).advances with advances | ⟨-, reseeded⟩
    · exact (ih (advances.suite.symm.trans within)).trans advances
    · rw [reseeded.suite] at within
      omega

/-- The payload in slot `child`, which is in use, was spawned by the one in slot `parent`. -/
def SpawnedBy (core : Core) (child parent : Pid) : Prop :=
  (core.table child).state ≠ .empty ∧ (core.table child).parent = some parent

/-- Capabilities never exceed the image's ceiling, those of any ancestor, or those of the
payload whose checkpoint is continued. -/
structure Attenuated (core : Core) : Prop where
  ceiling : ∀ pid, CapsWithin (core.table pid).caps (images.get (core.table pid).image).caps
  parent : ∀ child parent, SpawnedBy core child parent → CapsWithin (core.table child).caps (core.table parent).caps
  ancestor : ∀ child ancestor, Relation.ReflTransGen (SpawnedBy core) child ancestor →
    CapsWithin (core.table child).caps (core.table ancestor).caps
  restored : ∀ pid serial, (core.table pid).state ≠ .empty → (core.table pid).origin = some serial →
    ∃ checkpoint, core.ledger.taken[serial]? = some checkpoint ∧ CapsWithin (core.table pid).caps checkpoint.caps

theorem CoreInv.attenuated (inv : CoreInv tight held core) : Attenuated core where
  ceiling := inv.table.ceiling
  parent child parent spawned := (inv.table.delegated child parent spawned.1 spawned.2).2
  ancestor child ancestor chain := by
    induction chain with
    | refl => exact .refl _
    | tail _ spawned shrinks => exact shrinks.trans (inv.table.delegated _ _ spawned.1 spawned.2).2
  restored pid serial used isOrigin := by
    obtain ⟨-, checkpoint, found, caps, -⟩ := inv.contexts.restored pid serial used isOrigin
    exact ⟨checkpoint, found, caps⟩

theorem Machine.Reachable.logInv (reached : Reachable build anyStep config) :
    LogInv config.state.core config.state.env.log := (Stands.inv reached.systemInv).log

/-- Capabilities only shrink, stay as they are until the slot is reused, and every event
that tells of their use names a payload that had them. -/
theorem capabilities_attenuated (reached : Reachable build anyStep config) :
    Attenuated config.state.core ∧
      (∀ next pid, Later build anyStep config next →
        next.state.core.ledger.suite = config.state.core.ledger.suite → (config.state.core.table pid).state ≠ .empty →
          (next.state.core.table pid).caps = (config.state.core.table pid).caps) ∧
      ∀ entry ∈ config.state.env.log, ∀ serial event, entry.what = .frame serial event → event.Mediated entry.table := by
  refine ⟨reached.coreInv.attenuated, fun next pid later within used => ?_, fun entry member serial event isFrame => ?_⟩
  · exact ((later.advances reached within).slots pid used).caps
  · have sound := reached.logInv.sound entry member
    rw [Entry.Sound, isFrame] at sound
    exact sound.1

/-- The payload of a suite has spawned a child. -/
def spawned : Script bareBuild anyMove (boot bareBuild) fun config =>
    (config.state.core.table pid1).state = .pending ∧ (config.state.core.table pid1).parent = some pid0 where
  moves := startSuite ++ syscall 3 0 3
  passes := by decide +kernel

theorem capabilities_attenuated_spawned :
    CapsWithin (spawned.config.state.core.table pid1).caps (spawned.config.state.core.table pid0).caps :=
  (capabilities_attenuated (spawned.reachable anyMove_sound)).1.parent pid1 pid0
    ⟨by rw [spawned.tested.1]; decide, spawned.tested.2⟩

/-- Both end, and the next suite has one payload with fewer capabilities. -/
def reseeded : Script bareBuild anyMove (boot bareBuild) fun config =>
    (config.state.core.table pid1).parent = some pid0 ∧ (config.state.core.table pid1).caps = 3 ∧
      (config.state.core.table pid0).caps = 1 where
  moves := startSuite ++ syscall 3 0 3 ++ syscall 0 0 0 ++ handOvers 4 ++ [.enter] ++ syscall 0 0 0 ++ handOvers 3 ++
    [.receive 0x66] ++ handOvers 2
  passes := by decide +kernel

/-- The child's slot, empty now, still names its parent's. -/
theorem capabilities_stale : ∃ config, Reachable bareBuild anyStep config ∧
    (config.state.core.table pid1).parent = some pid0 ∧
      ¬ CapsWithin (config.state.core.table pid1).caps (config.state.core.table pid0).caps := by
  obtain ⟨parent, child, reused⟩ := reseeded.tested
  refine ⟨reseeded.config, reseeded.reachable anyMove_sound, parent, ?_⟩
  rw [child, reused]
  unfold CapsWithin
  decide

/-- The life of a payload: one report of its end and no change afterwards, no reseed while
anybody is alive, strict order of execution by pid, no more starts than slots, and a
`suite_done` that accounts for everybody. -/
theorem payload_lifecycle (reached : Reachable build anyStep config) :
    (∀ suite pid, endReports config.state.env.log suite pid ≤ 1) ∧
      (∀ next pid, Later build anyStep config next →
        next.state.core.ledger.suite = config.state.core.ledger.suite →
        endReports config.state.env.log config.state.core.ledger.suite pid ≠ 0 →
          (config.state.core.table pid).state.terminal = true ∧
            (next.state.core.table pid).state = (config.state.core.table pid).state) ∧
      (∀ next, Step build config next → next.state.core.ledger.suite ≠ config.state.core.ledger.suite →
        ∀ pid, (config.state.core.table pid).state.alive = false) ∧
      ((∀ context, config.hart = .user context →
          ∃ pid, config.state.core.current = some pid ∧ (config.state.core.table pid).state = .running) ∧
        ∀ pid lower, (config.state.core.table pid).engaged = true → lower < pid →
          (config.state.core.table lower).state.terminal = true) ∧
      config.state.core.ledger.starts.length ≤ maxProc ∧
      ∀ entry ∈ config.state.env.log, ∀ serial event, entry.what = .frame serial event →
        event.Settled entry.table entry.ledger.enqueued := by
  have inv := reached.coreInv
  have log := reached.logInv
  refine ⟨log.once, fun next pid later within reported => ?_, fun next step changes => ?_,
    ⟨fun context isHart => ?_, inv.table.order⟩, ?_, fun entry member serial event isFrame => ?_⟩
  · have ended := log.ended pid reported
    exact ⟨ended, ((later.advances reached within).slots pid (terminal_used ended)).ended ended⟩
  · rcases (step.shift reached).advances with advances | ⟨quiescent, -⟩
    · exact absurd advances.suite changes
    · exact quiescent
  · have stands := reached.systemInv
    rw [SystemInv, isHart] at stands
    obtain ⟨pid, there⟩ := stands
    exact ⟨pid, there.current, there.running⟩
  · exact inv.table.starts.length_le_card
  · have sound := log.sound entry member
    rw [Entry.Sound, isFrame] at sound
    exact sound.2.1

theorem payload_lifecycle_spawned : spawned.config.state.core.ledger.starts.length ≤ maxProc :=
  (payload_lifecycle (spawned.reachable anyMove_sound)).2.2.2.2.1

end Kernai
