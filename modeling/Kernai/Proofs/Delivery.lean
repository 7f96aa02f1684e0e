import Kernai.Proofs.Framing
import Kernai.Proofs.Responses

/-! From the host to the kernel: what is sent over the line is what the readers take off it,
whichever of them happens to read. -/

namespace Kernai
open Foundation Program Kernel Payload Rpc Machine

variable {build : Build} {state : State} {config next : Config} {turns base new : List Turn} {turn : Turn}

section Line

/-- No byte is lost, repeated or moved: a step leaves what came over the line alone, unless
it is the arrival of a byte, which comes last. -/
theorem Machine.Step.hears (step : Step build config next) (reached : Reachable build anyStep config) :
    next.state.env.heard = config.state.env.heard ∨
      ∃ byte, next = { config with state := Machine.receive config.state byte } ∧
        next.state.env.heard = config.state.env.heard ++ [byte] := by
  rcases step_iff.mp step with ⟨slot, takes⟩ | moves
  · exact .inl takes.reported.heard
  · cases moves with
    | act running => exact .inl (reached.lawful.running _ running config.state).1.heard
    | enter running stays => exact .inl rfl
    | resume running =>
      refine .inl ?_
      unfold Machine.resume
      dsimp only
      split <;> rfl
    | panicked running => exact .inl rfl
    | compute regs sepc running => exact .inl rfl
    | store va pa byte running allowed => exact .inl rfl
    | receive byte => exact .inr ⟨byte, rfl, (List.append_assoc ..).symm⟩

end Line

section Arrivals

open Framing

instance (body : Bytes) : Decidable (Acceptable body) := inferInstanceAs (Decidable (_ ∧ _))

instance (length : Nat) : Decidable (GoodLength length) := inferInstanceAs (Decidable (¬ _))

/-- What the readers can tell apart on the line: a byte outside frames, a header with a length
that is refused, and a frame. -/
inductive Arrival where
  | command (byte : UInt8)
  | header (length : Nat)
  | frame (body : Bytes)

namespace Arrival

def bytes : Arrival → Bytes
  | .command byte => [byte]
  | .header length => magic ++ toBytes lenBytes length
  | .frame body => magic ++ toBytes lenBytes body.length ++ body

def requests : Arrival → List Bytes
  | .frame body => if Acceptable body then [body] else []
  | _ => []

end Arrival

/-- How a reader takes an arrival off the line. -/
inductive Consumes : Turn → Arrival → Prop
  | command (reader : Reader) (byte : UInt8) : Consumes (.command reader byte) (.command byte)
  | header (reader : Reader) (length : Nat) : Consumes (.dropped reader (0x99 :: toBytes lenBytes length)) (.header length)
  | dropped (reader : Reader) {body : Bytes} (refused : ¬ Acceptable body) :
      Consumes (.dropped reader (0x99 :: (toBytes lenBytes body.length ++ body))) (.frame body)
  | served (reader : Reader) {body : Bytes} (check : Check) (accepted : Acceptable body) :
      Consumes (.served reader (0x99 :: (toBytes lenBytes body.length ++ body)) body check) (.frame body)

variable {arrival : Arrival}

theorem Consumes.bytes (takes : Consumes turn arrival) : turn.bytes = arrival.bytes := by
  cases takes <;> simp [Turn.bytes, Arrival.bytes, magic]

theorem Consumes.requests (takes : Consumes turn arrival) : turn.body.toList = arrival.requests := by
  cases takes with
  | command reader byte => rfl
  | header reader length => rfl
  | dropped reader refused => simp [Turn.body, Arrival.requests, refused]
  | served reader check accepted => simp [Turn.body, Arrival.requests, accepted]

end Arrivals

section Sent

open Framing

/-- What a host sends: a byte of its own, or a frame as `encode_frame` makes it. -/
inductive Sent where
  | raw (byte : UInt8)
  | frame (body : Bytes)

namespace Sent

def bytes : Sent → Bytes
  | .raw byte => [byte]
  | .frame body => magic ++ toBytes lenBytes body.length ++ body

def requests : Sent → List Bytes
  | .raw _ => []
  | .frame body => if GoodLength body.length ∧ Acceptable body then [body] else []

end Sent

end Sent

section Runs

/-- Between two turns, with no byte taken ahead. -/
structure Between (config : Config) : Prop where
  handed : config.hart.isHanded = true
  unstashed : config.state.core.stashedByte = none

theorem Turned.rebase {slack : Nat} {stash : Option UInt8} (turned : Turned build [] True slack stash new state) :
    Turned build new False slack stash [] state where
  amid := by simpa using turned.amid
  stash := turned.stash
  stacked := turned.stacked
  keyed := by simpa using turned.keyed
  attended := False.elim

/-- The turns so far are counted as past. -/
theorem LineReady.rebase {post : Next} (ready : LineReady build [] True post state) :
    ∃ turns slack stash, LineReady build turns False post state ∧ Turned build turns False slack stash [] state := by
  cases post with
  | idle =>
    obtain ⟨new, turned⟩ := ready
    exact ⟨new, 1, none, ⟨[], turned.rebase⟩, turned.rebase⟩
  | run =>
    obtain ⟨new, stash, -, turned⟩ := ready
    exact ⟨new, 0, stash, ⟨[], stash, False.elim, turned.rebase⟩, turned.rebase⟩
  | service =>
    obtain ⟨new, stash, -, turned⟩ := ready
    exact ⟨new, 1, stash, ⟨[], stash, False.elim, turned.rebase⟩, turned.rebase⟩
  | seed suite =>
    obtain ⟨new, -, settled, turned⟩ := ready
    exact ⟨new, 1, none, ⟨[], False.elim, by simpa using settled, turned.rebase⟩, turned.rebase⟩
  | _ =>
    obtain ⟨new, -, turned⟩ := ready
    exact ⟨new, 1, none, ⟨[], False.elim, turned.rebase⟩, turned.rebase⟩

theorem Machine.Reachable.rebase (reached : Reachable build anyStep config) (between : Between config) :
    ∃ turns, LineInv build turns False config.hart config.state ∧ config.state.core.journal = turns.flatMap Turn.notes ∧
      config.state.env.read = turns.flatMap Turn.bytes := by
  have line := reached.line
  have behind : ∀ {turns slack stash}, Turned build turns False slack stash [] config.state →
      config.state.core.journal = turns.flatMap Turn.notes ∧ config.state.env.read = turns.flatMap Turn.bytes := by
    intro turns slack stash turned
    have none : stash = none := turned.stash.symm.trans between.unstashed
    subst none
    have journal := turned.amid.journal
    have read := turned.amid.read
    simp only [List.append_nil, Draft.stashed, Draft.take, Draft.blank, Option.toList_none] at journal read
    exact ⟨journal, read⟩
  cases isHart : config.hart with
  | user context =>
    rw [isHart] at line
    obtain ⟨new, -, turned⟩ := line
    exact ⟨new, ⟨[], False.elim, turned.rebase⟩, behind turned.rebase⟩
  | off =>
    rw [isHart] at line
    obtain ⟨new, -, turned⟩ := line
    exact ⟨new, ⟨[], False.elim, turned.rebase⟩, behind turned.rebase⟩
  | kernel program =>
    rw [isHart] at line
    cases program with
    | act update next =>
      have handed := between.handed
      rw [isHart] at handed
      cases handed
    | pure post =>
      obtain ⟨turns, slack, stash, ready, turned⟩ := LineReady.rebase (line config.state (.refl _))
      exact ⟨turns, fun later moves => (lineReady_onRecord post).stable _ later moves ready, behind turned⟩

theorem LineInv.turned {home : Prop} (line : LineInv build base home config.hart config.state)
    (handed : config.hart.isHanded = true) :
    ∃ slack stash new, Turned build base home slack stash new config.state := by
  cases isHart : config.hart with
  | user context =>
    rw [isHart] at line
    obtain ⟨new, -, turned⟩ := line
    exact ⟨1, none, new, turned⟩
  | off =>
    rw [isHart] at line
    obtain ⟨new, -, turned⟩ := line
    exact ⟨1, none, new, turned⟩
  | kernel program =>
    rw [isHart] at line
    cases program with
    | act update next =>
      rw [isHart] at handed
      cases handed
    | pure post => exact LineReady.turned (line config.state (.refl _))

theorem Machine.Later.grows (reached : Reachable build anyStep config) (later : Later build anyStep config next) :
    Grows config.state next.state := by
  induction later with
  | refl => exact .refl _
  | tail before step ih =>
    refine ih.trans ?_
    rcases step_iff.mp step.1 with ⟨slot, takes⟩ | moves
    · exact takes.reported.grows
    · exact (moves.deed (reached.later before).lawful).grows

variable {sent : List Sent} {notes : List Note}

/-- A stray byte and a request, while the kernel idles. -/
def tidings : List Sent := [.raw 0x2E, .frame (Console.utf8 askNothing)]

def received : Script bareBuild anyMove (boot bareBuild) fun config =>
    config.hart.isHanded = true ∧ config.state.core.stashedByte = none ∧ config.state.env.rx = [] ∧
      Note.stalled ∉ config.state.core.journal ∧ config.state.env.heard = tidings.flatMap Sent.bytes where
  moves := .receive 0x2E :: request askNothing ++ handOvers 2
  passes := by decide +kernel

/-- No byte of the line is lost, repeated or moved. A step leaves what has come over it alone,
unless it is the arrival of a byte, which comes last; and between two turns all of it is made
up, in order, of the bytes of whole turns, the byte that a preempting tick has put aside, and
what still waits. -/
theorem bytes_accounted (reached : Reachable build anyStep config) :
    (∀ next, Step build config next → next.state.env.heard = config.state.env.heard ∨
      ∃ byte, next = { config with state := Machine.receive config.state byte } ∧
        next.state.env.heard = config.state.env.heard ++ [byte]) ∧
    (config.hart.isHanded = true → ∃ turns : List Turn, (∀ turn ∈ turns, turn.Formed build) ∧
      config.state.core.journal = turns.flatMap Turn.notes ∧
      config.state.env.heard = turns.flatMap Turn.bytes ++ config.state.core.stashedByte.toList ++ config.state.env.rx) := by
  refine ⟨fun next step => step.hears reached, fun handed => ?_⟩
  obtain ⟨slack, stash, turns, turned⟩ := reached.line.turned handed
  have journal := turned.amid.journal
  have read := turned.amid.read
  simp only [Draft.stashed, Draft.take, Draft.blank, List.nil_append, List.append_nil] at journal read
  refine ⟨turns, turned.amid.formed, journal, ?_⟩
  rw [Env.heard, read, turned.stash]

theorem bytes_accounted_received : ∃ turns : List Turn,
    received.config.state.env.heard = turns.flatMap Turn.bytes ++ received.config.state.core.stashedByte.toList ++
      received.config.state.env.rx := by
  obtain ⟨turns, -, -, heard⟩ := (bytes_accounted (received.reachable anyMove_sound)).2 received.tested.1
  exact ⟨turns, heard⟩

end Runs

end Kernai
