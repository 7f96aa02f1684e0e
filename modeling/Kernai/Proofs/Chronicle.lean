import Kernai.Proofs.Line
import Kernai.Proofs.Recorder

/-! The history of every state reached as the beginning of one in whole turns. -/

namespace Kernai
open Foundation Program Kernel Payload Machine

variable {α : Type} {build : Build} {state : State} {config : Config} {base turns : List Turn} {home : Prop}

theorem Machine.Reachable.lawful (reached : Reachable build anyStep config) : Lawful config := by
  obtain ⟨traps, history⟩ := reachable_iff_history.mp reached
  exact history.recorded.1

theorem Foundation.Program.Within.grows {program : Kernel α} (within : Within Deed program) (state : State) :
    Grows state (program.run state).2 :=
  Within.run .refl .trans (within.mono fun _ _ deed => deed.grows) state

def SameLine (state state' : State) : Prop := state'.env.heard = state.env.heard

theorem SameLine.refl (state : State) : SameLine state state := rfl

theorem SameLine.trans {state state' state'' : State} (left : SameLine state state') (right : SameLine state' state'') :
    SameLine state state'' := Eq.trans right left

theorem Foundation.Program.Within.hears {program : Kernel α} (within : Within Deed program) (state : State) :
    SameLine state (program.run state).2 :=
  Within.run SameLine.refl SameLine.trans (within.mono fun _ _ deed => deed.heard) state

theorem LineReady.turned {next : Next} (ready : LineReady build base home next state) :
    ∃ slack stash new, Turned build base home slack stash new state := by
  cases next with
  | idle =>
    obtain ⟨new, turned⟩ := ready
    exact ⟨1, none, new, turned⟩
  | run =>
    obtain ⟨new, stash, -, turned⟩ := ready
    exact ⟨0, stash, new, turned⟩
  | service =>
    obtain ⟨new, stash, -, turned⟩ := ready
    exact ⟨1, stash, new, turned⟩
  | seed suite =>
    obtain ⟨new, -, -, turned⟩ := ready
    exact ⟨1, none, new, turned⟩
  | _ =>
    obtain ⟨new, -, turned⟩ := ready
    exact ⟨1, none, new, turned⟩

/-- Left alone, the hart comes to a point between two turns. -/
theorem LineInv.settles (line : LineInv build base home config.hart config.state) (lawful : Lawful config) :
    ∃ slack stash new final, Turned build base home slack stash new final ∧ Grows config.state final ∧
      SameLine config.state final := by
  have resting : Resting build base home config.state →
      ∃ slack stash new final, Turned build base home slack stash new final ∧ Grows config.state final ∧
        SameLine config.state final := by
    rintro ⟨new, -, turned⟩
    exact ⟨1, none, new, config.state, turned, .refl _, rfl⟩
  cases isHart : config.hart with
  | user context =>
    rw [isHart] at line
    exact resting line
  | off =>
    rw [isHart] at line
    exact resting line
  | kernel program =>
    rw [isHart] at line
    have ready : LineReady build base home _ _ := Safe.run Undisturbed.refl line
    obtain ⟨slack, stash, new, turned⟩ := ready.turned
    have within := lawful.running program isHart
    exact ⟨slack, stash, new, _, turned, within.grows config.state, within.hears config.state⟩

/-- The turns up to now, the last of which may still be going on. -/
structure Chronicle (build : Build) (turns : List Turn) (state : State) : Prop where
  journal : state.core.journal <+: turns.flatMap Turn.notes
  formed : ∀ turn ∈ turns, turn.Formed build
  checked : EachFollows Checked turns
  paired : (∀ turn ∈ turns, turn.reader ≠ .service) → EachFollows Paired turns
  replies : ∃ settled, List.Forall₂ Answers (turns.filterMap Turn.body) settled ∧ repliesOf state.env.log <+: settled

theorem Machine.Reachable.chronicle (reached : Reachable build anyStep config) : ∃ turns, Chronicle build turns config.state := by
  obtain ⟨slack, stash, turns, final, turned, grows, -⟩ := reached.line.settles reached.lawful
  obtain ⟨settled, answered, log⟩ := turned.amid.replies
  refine ⟨turns, ⟨?_, turned.amid.formed, turned.amid.checked, fun plain => (turned.keyed plain).2, settled, answered, ?_⟩⟩
  · have journal := turned.amid.journal
    rw [show (Draft.stashed stash).notes = [] from rfl, List.append_nil, List.nil_append] at journal
    exact journal ▸ grows.journal
  · rw [show (Draft.stashed stash).replies = [] from rfl, List.append_nil] at log
    exact log ▸ grows.replies

end Kernai
