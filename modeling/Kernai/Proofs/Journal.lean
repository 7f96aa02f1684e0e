import Kernai.Proofs.Readers

/-! Every piece of kernel code brings the records from one hand-over to the next. -/

namespace Kernai
open Foundation Program Kernel Payload Rpc Json Machine

variable {build : Build} {core core' : Core} {state state' : State} {turns base new : List Turn} {draft : Draft} {turn : Turn}
  {home : Prop} {slack : Nat} {stash : Option UInt8}

section Turns

/-- A turn comes to its end. -/
theorem Amid.close (amid : Amid build turns draft state) (notes : draft.notes = turn.notes) (bytes : draft.bytes = turn.bytes)
    (ops : draft.ops = turn.recorded) (replies : List.Forall₂ Answers turn.body.toList draft.replies)
    (formed : turn.Formed build) (checked : Checked turns turn) : Amid build (turns ++ [turn]) .blank state where
  journal := by simp [amid.journal, notes, Draft.blank]
  read := by simp [amid.read, bytes, Draft.blank]
  formed other member := by
    rcases List.mem_append.mp member with old | last
    · exact amid.formed other old
    · rw [List.mem_singleton.mp last]
      exact formed
  replies := by
    obtain ⟨settled, answered, log⟩ := amid.replies
    refine ⟨settled ++ draft.replies, ?_, by rw [log, Draft.blank, List.append_nil]⟩
    rw [List.filterMap_append]
    refine List.rel_append answered ?_
    cases isBody : turn.body with
    | none => simpa [isBody] using replies
    | some body => simpa [isBody] using replies
  ring := by
    have ring := amid.ring
    rw [ops] at ring
    simpa [hashesOf, Draft.blank] using ring
  slots := amid.slots
  head := by
    have head := amid.head
    rw [ops] at head
    simpa [hashesOf, Draft.blank] using head
  checked := amid.checked.concat checked

/-- Turns after which the idle loop is left for good or for a suite. -/
def Turn.Leaves (build : Build) : Turn → Prop
  | .command _ byte => (Main.seedByte build byte).isSome = true ∨ byte = 0x78
  | .served _ _ _ _ => True
  | _ => False

def Left (build : Build) (turns : List Turn) : Prop := ∃ turn ∈ turns, turn.Leaves build

/-- Counting from an idle loop, all is read by the idle loop until it is left. -/
def Attended (build : Build) (home : Prop) (new : List Turn) : Prop :=
  home → EachFollows (fun before turn => turn.reader = .idle ∨ Left build before) new

def Away (build : Build) (home : Prop) (new : List Turn) : Prop := home → Left build new

theorem Away.append (away : Away build home new) (more : List Turn) : Away build home (new ++ more) := by
  intro assumed
  obtain ⟨turn, member, leaves⟩ := away assumed
  exact ⟨turn, List.mem_append_left _ member, leaves⟩

theorem Away.of_last (turn : Turn) (leaves : turn.Leaves build) : Away build home (new ++ [turn]) := fun _ => ⟨turn, by simp, leaves⟩

theorem Attended.concat (attended : Attended build home new) (reads : home → turn.reader = .idle ∨ Left build new) :
    Attended build home (new ++ [turn]) := fun assumed => (attended assumed).concat (reads assumed)

end Turns

section Handover

def Draft.stashed (stash : Option UInt8) : Draft := Draft.blank.take stash.toList

/-- Between two turns. The turns are counted from those in `base`, where the idle loop
was in charge if `home` says so. -/
structure Turned (build : Build) (base : List Turn) (home : Prop) (slack : Nat) (stash : Option UInt8) (new : List Turn)
    (state : State) : Prop where
  amid : Amid build (base ++ new) (.stashed stash) state
  stash : state.core.stashedByte = stash
  stacked : Stacked slack state.core
  keyed : Keyed (base ++ new) state.core.keyPending
  attended : Attended build home new

theorem turned_onRecord : OnRecord (Turned build base home slack stash new) := fun _ _ same holds =>
  ⟨holds.amid.unrecorded same, same.core.stashedByte.trans holds.stash, holds.stacked.record same.core,
    same.core.keyPending ▸ holds.keyed, holds.attended⟩

/-- What holds of the records when kernel code hands over. -/
def LineReady (build : Build) (base : List Turn) (home : Prop) : Next → State → Prop
  | .idle, state => ∃ new, Turned build base home 1 none new state
  | .run, state => ∃ new stash, Away build home new ∧ Turned build base home 0 stash new state
  | .service, state => ∃ new stash, Away build home new ∧ Turned build base home 1 stash new state
  | .seed _, state => ∃ new, Away build home new ∧ pendingAfter (base ++ new) = false ∧ Turned build base home 1 none new state
  | _, state => ∃ new, Away build home new ∧ Turned build base home 1 none new state

/-- The records while a payload is on the CPU. -/
def Resting (build : Build) (base : List Turn) (home : Prop) (state : State) : Prop :=
  ∃ new, Away build home new ∧ Turned build base home 1 none new state

theorem resting_onRecord : OnRecord (Resting build base home) :=
  fun _ _ same ⟨new, away, holds⟩ => ⟨new, away, turned_onRecord _ _ same holds⟩

theorem lineReady_onRecord (next : Next) : OnRecord (LineReady build base home next) := by
  intro state state' same holds
  cases next with
  | idle =>
    obtain ⟨new, holds⟩ := holds
    exact ⟨new, turned_onRecord _ _ same holds⟩
  | run =>
    obtain ⟨new, stash, away, holds⟩ := holds
    exact ⟨new, stash, away, turned_onRecord _ _ same holds⟩
  | service =>
    obtain ⟨new, stash, away, holds⟩ := holds
    exact ⟨new, stash, away, turned_onRecord _ _ same holds⟩
  | seed suite =>
    obtain ⟨new, away, unpaired, holds⟩ := holds
    exact ⟨new, away, unpaired, turned_onRecord _ _ same holds⟩
  | _ => exact resting_onRecord _ _ same holds

theorem Turned.drafting (turned : Turned build base home 1 none new state) : Drafting build (base ++ new) .blank state :=
  ⟨by simpa [Draft.stashed, Draft.take_nil] using turned.amid, turned.stacked, turned.stash, turned.keyed⟩

theorem Drafting.turned (drafting : Drafting build (base ++ new) .blank state) (attended : Attended build home new) :
    Turned build base home 1 none new state :=
  ⟨by simpa [Draft.stashed, Draft.take_nil] using drafting.amid, drafting.unstashed, drafting.stacked, drafting.keyed, attended⟩

end Handover

section Requests

/-- No key prefix is owed the byte this reader takes, as far as the key filters go. -/
def Unpaired (turns : List Turn) (reader : Reader) : Prop :=
  reader ≠ .service → (∀ turn ∈ turns, turn.reader ≠ .service) → pendingAfter turns = false

theorem Keyed.plain {pending : Bool} (keyed : Keyed turns pending) (unpaired : Unpaired turns turn.reader)
    (plain : turn.isLead = false ∧ turn.isPartner = false) : Keyed (turns ++ [turn]) pending := by
  intro others
  have before : ∀ turn ∈ turns, turn.reader ≠ .service := fun other member => others other (List.mem_append_left _ member)
  have none := unpaired (others turn (by simp)) before
  refine keyed.concat (fun _ flag => ?_) others
  rw [flag, none, plain.1, Paired, plain.2, none]
  exact ⟨rfl, rfl⟩

/-- A frame has been opened. -/
def Draft.opening (reader : Reader) : Draft := (Draft.blank.take [0xAA]).note (.used reader .opens 0xAA)

/-- A request frame has been dealt with, one way or another. -/
def Ended (build : Build) (turns : List Turn) (reader : Reader) (next : Option Next) (state : State) : Prop :=
  Diverts next ∧ ∃ turn : Turn, turn.reader = reader ∧ turn.isLead = false ∧ (next ≠ none → turn.Leaves build) ∧
    Drafting build (turns ++ [turn]) .blank state

theorem ended_onRecord (reader : Reader) (next : Option Next) : OnRecord (Ended build turns reader next) :=
  fun _ _ same ⟨diverts, turn, isReader, plain, leaves, holds⟩ =>
    ⟨diverts, turn, isReader, plain, leaves, drafting_onRecord _ _ same holds⟩

theorem Drafting.close_plain (drafting : Drafting build turns draft state) (notes : draft.notes = turn.notes)
    (bytes : draft.bytes = turn.bytes) (ops : draft.ops = turn.recorded)
    (replies : List.Forall₂ Answers turn.body.toList draft.replies) (formed : turn.Formed build) (checked : Checked turns turn)
    (plain : turn.isLead = false ∧ turn.isPartner = false) (unpaired : Unpaired turns turn.reader) :
    Drafting build (turns ++ [turn]) .blank state :=
  ⟨drafting.amid.close notes bytes ops replies formed checked, drafting.stacked, drafting.unstashed,
    drafting.keyed.plain unpaired plain⟩

theorem dispatchBody_line {reader : Reader} (unpaired : Unpaired turns reader) (body : Option Bytes) :
    Runs lineRules (Fetched build turns (.opening reader) body) (dispatchBody build body) (Ended build turns reader) := by
  cases body with
  | none =>
    refine .pure fun state fetched => ⟨.inl rfl, ?_⟩
    rcases fetched with ⟨inside, dropped, holds⟩ | ⟨inside, holds⟩
    · exact ⟨.dropped reader inside, rfl, rfl, absurd rfl,
        holds.close_plain rfl rfl rfl .nil dropped trivial ⟨rfl, rfl⟩ unpaired⟩
    · exact ⟨.stalled reader inside, rfl, rfl, absurd rfl,
        holds.close_plain rfl rfl rfl .nil trivial trivial ⟨rfl, rfl⟩ unpaired⟩
  | some body =>
    refine choose_line (fun inside _ _ same holds => ⟨holds.1, drafting_onRecord _ _ same holds.2⟩) fun inside => ?_
    refine .given Undisturbed.refl fun framed => (note_line _).bind fun _ => ?_
    refine (dispatch_line rfl).weaken fun next state ⟨diverts, check, after, what, answers, holds⟩ => ⟨diverts, ?_⟩
    refine ⟨.served reader inside body check, rfl, rfl, fun _ => trivial, ?_⟩
    refine holds.close_plain ?_ rfl rfl (.cons answers .nil) framed after ⟨rfl, rfl⟩ unpaired
    exact List.append_assoc _ [.dispatched body] check.notes

theorem readRequest_line {reader : Reader} (unpaired : Unpaired turns reader) :
    Runs lineRules (Drafting build turns (.opening reader)) (readRequest build) (Ended build turns reader) := by
  have called : Runs lineRules (Drafting build turns (.opening reader)) (modifyCore (·.call .request))
      fun _ => Drafting build turns (.opening reader) :=
    act_line (fun _ => drafting_onRecord) (fun _ holds => holds.stacked) fun state holds => by
      obtain ⟨stacked, nests⟩ := holds.stacked.call (fun suite => by nofun : ∀ suite, Call.request ≠ .run suite)
      exact ⟨nests, { holds.amid with }, stacked, holds.unstashed, holds.keyed⟩
  refine called.bind fun _ => readBody_line.bind fun body => (dispatchBody_line unpaired body).bind fun next => ?_
  refine Runs.bind ?_ fun _ => .pure fun _ holds => holds
  refine act_line (fun _ => ended_onRecord reader next) (fun _ ⟨_, _, _, _, _, holds⟩ => holds.stacked) ?_
  intro state ⟨diverts, turn, isReader, plain, leaves, holds⟩
  dsimp only
  split
  · obtain ⟨stacked, nests⟩ := holds.stacked.return
    exact ⟨nests, diverts, turn, isReader, plain, leaves, { holds.amid with }, stacked, holds.unstashed, holds.keyed⟩
  · exact ⟨.of_same rfl rfl, diverts, turn, isReader, plain, leaves, holds⟩

end Requests

section Loops

theorem turned_line {α : Type} {program : Kernel α} {post : α → State → Prop}
    (runs : Attended build home new → Runs lineRules (Drafting build (base ++ new) .blank) program post) :
    Runs lineRules (Turned build base home 1 none new) program post :=
  (Runs.given Undisturbed.refl runs).strengthen fun _ turned => ⟨turned.attended, turned.drafting⟩

/-- The default build knows no keys. -/
theorem Amid.no_keys (amid : Amid build turns draft state) (plain : build.doom = false) : pendingAfter turns = false := by
  rcases List.eq_nil_or_concat turns with rfl | ⟨before, turn, rfl⟩
  · rfl
  · rw [List.concat_eq_append, pendingAfter_concat]
    have formed := amid.formed turn (by simp)
    cases turn with
    | key reader use byte => exact absurd (plain.symm.trans formed.1) nofun
    | _ => rfl

/-- A turn that is one byte of a key pair, with the flag it leaves. -/
theorem Drafting.key {reader : Reader} {byte : UInt8} (drafting : Drafting build turns (Draft.blank.take [byte]) state)
    (use : Use) (pending : Bool) (formed : (Turn.key reader use byte).Formed build)
    (last : state.core.keyPending = pendingAfter turns →
      pending = (Turn.key reader use byte).isLead ∧ Paired turns (.key reader use byte)) :
    Drafting build (turns ++ [.key reader use byte]) .blank
      { state with core := { state.core.note (.used reader use byte) with keyPending := pending } } := by
  have closed := (drafting.amid.note (.used reader use byte)).close rfl rfl rfl .nil formed trivial
  exact ⟨{ closed with }, drafting.stacked.same rfl rfl (Nat.le_refl _), drafting.unstashed,
    drafting.keyed.concat fun _ flag => last flag⟩

/-- The stray-key filter of the idle loop. -/
theorem strayKey_line (byte : UInt8) :
    Runs lineRules (Drafting build turns (Draft.blank.take [byte])) (Main.strayKey build byte) fun swallowed state =>
      if swallowed then ∃ turn : Turn, turn.reader = .idle ∧ Drafting build (turns ++ [turn]) .blank state
      else (Unpaired turns .idle ∧ (build.doom = true → byte ≠ keyPrefix)) ∧
        Drafting build turns (Draft.blank.take [byte]) state := by
  unfold Main.strayKey
  split
  next doom =>
    refine act_line (fun swallowed => ?_) (fun _ holds => holds.stacked) fun state holds => ?_
    · cases swallowed with
      | true => exact fun _ _ same ⟨turn, isIdle, holds⟩ => ⟨turn, isIdle, drafting_onRecord _ _ same holds⟩
      | false => exact fun _ _ same holds => ⟨holds.1, drafting_onRecord _ _ same holds.2⟩
    · unfold swallowStrayKey
      split
      next pending =>
        refine ⟨.of_same rfl rfl, .key .idle .partner byte, rfl, holds.key .partner false ⟨doom, .inr rfl, .inr (.inl rfl)⟩ fun flag => ⟨rfl, ?_⟩⟩
        rw [Paired, ← flag, pending]
        rfl
      next unpaired =>
        rw [Bool.not_eq_true] at unpaired
        split
        next isPrefix =>
          refine ⟨.of_same rfl rfl, .key .idle .lead byte, rfl, holds.key .lead true ⟨doom, .inr rfl, .inl ⟨rfl, isPrefix⟩⟩ fun flag => ⟨rfl, ?_⟩⟩
          rw [Paired, ← flag, unpaired]
          rfl
        next other =>
          refine ⟨.of_same rfl rfl, ⟨fun _ others => ?_, fun _ => other⟩, holds⟩
          rw [← (holds.keyed others).1, unpaired]
  next plain =>
    rw [Bool.not_eq_true] at plain
    refine .pure fun state holds => ⟨⟨fun _ _ => holds.amid.no_keys plain, fun doom => ?_⟩, holds⟩
    rw [plain] at doom
    cases doom

/-- One command byte of a reader that is not a key. -/
theorem Drafting.command {reader : Reader} {byte : UInt8} (other : byte ≠ 0xAA)
    (drafting : Drafting build turns ((Draft.blank.take [byte]).note (.used reader .command byte)) state)
    (unpaired : Unpaired turns reader) (stray : build.doom = true → reader = .idle → byte ≠ keyPrefix) :
    Drafting build (turns ++ [.command reader byte]) .blank state :=
  drafting.close_plain rfl rfl rfl .nil ⟨other, stray⟩ trivial ⟨rfl, rfl⟩ unpaired

/-- The end of a request read in a loop. -/
theorem Ended.lineReady {reader : Reader} {next : Option Next} {loop : Next} (isLoop : loop = .idle ∨ loop = .service)
    (ended : Ended build (base ++ new) reader next state) (attended : Attended build home new)
    (reads : home → reader = .idle ∨ Left build new) (away : loop ≠ .idle → Away build home new) :
    LineReady build base home (next.getD loop) state := by
  obtain ⟨diverts, turn, isReader, plain, leaves, holds⟩ := ended
  rw [List.append_assoc] at holds
  have turned := holds.turned (attended.concat fun assumed => isReader ▸ reads assumed)
  rcases diverts with rfl | ⟨suite, rfl⟩ | rfl
  · rcases isLoop with rfl | rfl
    · exact ⟨_, turned⟩
    · exact ⟨_, none, (away nofun).append _, turned⟩
  · refine ⟨_, .of_last turn (leaves nofun), ?_, turned⟩
    rw [← List.append_assoc, pendingAfter_concat]
    exact plain
  · exact ⟨_, .of_last turn (leaves nofun), turned⟩

theorem noteCommand_line (reader : Reader) (byte : UInt8) :
    Runs lineRules (Drafting build turns (Draft.blank.take [byte])) (Main.noteCommand reader byte)
      fun _ => Drafting build turns ((Draft.blank.take [byte]).note (.used reader (if byte = 0xAA then .opens else .command) byte)) :=
  note_line _

/-- A command of the idle loop. -/
theorem command_line {byte : UInt8} (unpaired : Unpaired (base ++ new) .idle) (stray : build.doom = true → byte ≠ keyPrefix)
    (attended : Attended build home new) :
    Runs lineRules (Drafting build (base ++ new) ((Draft.blank.take [byte]).note
      (.used .idle (if byte = 0xAA then .opens else .command) byte))) (Main.command build byte) (LineReady build base home) := by
  unfold Main.command
  by_cases isFrame : byte = 0xAA
  · subst isFrame
    exact .map ((readRequest_line unpaired).weaken fun next state ended =>
      ended.lineReady (.inl rfl) attended (fun _ => .inl rfl) (absurd rfl))
  · rw [if_neg isFrame, if_neg isFrame]
    have closes : ∀ state, Drafting build (base ++ new) ((Draft.blank.take [byte]).note (.used .idle .command byte)) state →
        Turned build base home 1 none (new ++ [.command .idle byte]) state := by
      intro state holds
      have closed := holds.command isFrame unpaired fun doom _ => stray doom
      rw [List.append_assoc] at closed
      exact closed.turned (attended.concat fun _ => .inl rfl)
    have unled : pendingAfter (base ++ (new ++ [.command .idle byte])) = false := by
      rw [← List.append_assoc, pendingAfter_concat]
      rfl
    split
    · exact (drafting_within emitRingDump_within).bind fun _ => .pure fun state holds => ⟨_, closes state holds⟩
    · split
      next isCrash => exact .pure fun state holds => ⟨_, .of_last (.command .idle byte) (.inr isCrash), closes state holds⟩
      next =>
        split
        next suite isSeed =>
          have leaves : (Turn.command .idle byte).Leaves build := .inl (by rw [isSeed]; rfl)
          exact .pure fun state holds => ⟨_, .of_last _ leaves, unled, closes state holds⟩
        next => exact .pure fun state holds => ⟨_, closes state holds⟩

theorem idle_line : Runs lineRules (LineReady build base home .idle) (Main.idle build) (LineReady build base home) := by
  refine choose_line (fun _ => turned_onRecord) fun new => turned_line fun attended => consoleGetchar_line.bind fun got => ?_
  cases got with
  | none =>
    refine .pure fun state holds => ⟨new, ?_⟩
    rw [Option.toList_none, Draft.take_nil] at holds
    exact holds.turned attended
  | some byte =>
    refine (strayKey_line byte).bind fun swallowed => ?_
    cases swallowed with
    | true =>
      refine .pure fun state ⟨turn, isIdle, holds⟩ => ⟨new ++ [turn], ?_⟩
      rw [List.append_assoc] at holds
      exact holds.turned (attended.concat fun _ => .inl isIdle)
    | false =>
      refine .given Undisturbed.refl fun ⟨unpaired, stray⟩ => (noteCommand_line .idle byte).bind fun _ => ?_
      exact command_line unpaired stray attended

/-- The service loop takes the byte a preempting tick left before any other. -/
theorem takeStash_line (stash : Option UInt8) :
    Runs lineRules (Turned build base home 1 stash new)
      (onCore fun core => (core.stashedByte, { core with stashedByte := none })) fun got state =>
        Attended build home new ∧ Drafting build (base ++ new) (Draft.blank.take got.toList) state := by
  refine act_line (fun got _ _ same holds => ⟨holds.1, drafting_onRecord _ _ same holds.2⟩) (fun _ holds => holds.stacked)
    fun state holds => ⟨.of_same rfl rfl, holds.attended, ?_, holds.stacked.same rfl rfl (Nat.le_refl _), rfl, holds.keyed⟩
  dsimp only
  rw [holds.stash]
  exact { holds.amid with }

theorem serviceConsole_line :
    Runs lineRules (LineReady build base home .service) (Main.serviceConsole build) (LineReady build base home) := by
  refine choose_line (fun new _ _ same ⟨stash, away, holds⟩ => ⟨stash, away, turned_onRecord _ _ same holds⟩) fun new => ?_
  refine choose_line (fun stash _ _ same holds => ⟨holds.1, turned_onRecord _ _ same holds.2⟩) fun stash => ?_
  refine .given Undisturbed.refl fun away => (takeStash_line stash).bind fun stashed => ?_
  refine .given Undisturbed.refl fun attended => ?_
  have served : ∀ byte, Runs lineRules (Drafting build (base ++ new) (Draft.blank.take [byte])) (do
      Main.noteCommand .service byte
      if byte = 0xAA then (·.getD .service) <$> Rpc.readRequest build
      else if byte = 0x72 then do
        Traps.emitRingDump
        return .service
      else return .service) (LineReady build base home) := by
    intro byte
    have unpaired : Unpaired (base ++ new) .service := fun other => absurd rfl other
    refine (noteCommand_line .service byte).bind fun _ => ?_
    by_cases isFrame : byte = 0xAA
    · subst isFrame
      exact .map ((readRequest_line unpaired).weaken fun next state ended =>
        ended.lineReady (.inr rfl) attended (fun assumed => .inr (away assumed)) fun _ => away)
    · rw [if_neg isFrame, if_neg isFrame]
      have closes : ∀ state, Drafting build (base ++ new) ((Draft.blank.take [byte]).note (.used .service .command byte)) state →
          LineReady build base home .service state := by
        intro state holds
        have closed := holds.command isFrame unpaired nofun
        rw [List.append_assoc] at closed
        exact ⟨_, none, away.append _, closed.turned (attended.concat fun assumed => .inr (away assumed))⟩
      split
      · exact (drafting_within emitRingDump_within).bind fun _ => .pure closes
      · exact .pure closes
  cases stashed with
  | some byte => exact served byte
  | none =>
    rw [Option.toList_none, Draft.take_nil]
    refine consoleGetchar_line.bind fun got => ?_
    cases got with
    | none =>
      refine .pure fun state holds => ⟨new, away, ?_⟩
      rw [Option.toList_none, Draft.take_nil] at holds
      exact holds.turned attended
    | some byte => exact served byte

end Loops

section Scheduler

variable {α : Type} {program : Kernel α}

theorem Amid.books (amid : Amid build turns draft state) (journal : core.journal = state.core.journal)
    (opIds : core.opIds = state.core.opIds) (opHead : core.opHead = state.core.opHead) :
    Amid build turns draft { state with core } where
  journal := journal.trans amid.journal
  read := amid.read
  formed := amid.formed
  replies := amid.replies
  ring := opIds ▸ amid.ring
  slots := (congrArg List.length opIds).trans amid.slots
  head := opHead.trans amid.head
  checked := amid.checked

theorem Turned.books {slack' : Nat} (turned : Turned build base home slack stash new state) (same : SameBooks state.core core)
    (stacked : Stacked slack' core) : Turned build base home slack' stash new { state with core } :=
  ⟨turned.amid.books same.journal same.opIds same.opHead, same.stashedByte.trans turned.stash, stacked,
    same.keyPending ▸ turned.keyed, turned.attended⟩

/-- A call or a return. -/
theorem stack_line {slack slack' : Nat} (update : Core → Core) (small : ∀ core, Stacked slack core → Stacked 1 core)
    (same : ∀ core, SameBooks core (update core))
    (step : ∀ core, Stacked slack core → Stacked slack' (update core) ∧ Nests core (update core)) :
    Runs lineRules (Turned build base home slack stash new) (modifyCore update)
      fun _ => Turned build base home slack' stash new :=
  act_line (fun _ => turned_onRecord) (fun _ holds => small _ holds.stacked) fun state holds =>
    ⟨(step _ holds.stacked).2, holds.books (same _) (step _ holds.stacked).1⟩

theorem call_line (call : Call) (plain : ∀ suite, call ≠ .run suite) :
    Runs lineRules (Turned build base home 1 stash new) (modifyCore (·.call call)) fun _ => Turned build base home 1 stash new :=
  stack_line (·.call call) (fun _ stacked => stacked) (fun _ => ⟨rfl, rfl, rfl, rfl, rfl⟩) fun _ stacked => stacked.call plain

theorem return_line :
    Runs lineRules (Turned build base home 1 stash new) (modifyCore (·.return)) fun _ => Turned build base home 1 stash new :=
  stack_line (·.return) (fun _ stacked => stacked) (fun _ => ⟨rfl, rfl, rfl, rfl, rfl⟩) fun _ stacked => stacked.return

theorem turned_within (within : Within Unnoticed program) :
    Runs lineRules (Turned build base home 1 stash new) program fun _ => Turned build base home 1 stash new :=
  turned_onRecord.runs (fun _ holds => holds.stacked) within

/-- Code that leaves the records alone, from a hand-over with nothing stashed. -/
theorem resting_line {post : α → State → Prop}
    (runs : ∀ new, Away build home new → Runs lineRules (Turned build base home 1 none new) program post) :
    Runs lineRules (Resting build base home) program post :=
  choose_line (fun new _ _ same holds => ⟨holds.1, turned_onRecord _ _ same holds.2⟩) fun new =>
    .given Undisturbed.refl (runs new)

theorem run_line : Runs lineRules (LineReady build base home .run) Payload.run (LineReady build base home) := by
  refine choose_line (fun new _ _ same ⟨stash, away, holds⟩ => ⟨stash, away, turned_onRecord _ _ same holds⟩) fun new => ?_
  refine choose_line (fun stash _ _ same holds => ⟨holds.1, turned_onRecord _ _ same holds.2⟩) fun stash => ?_
  refine .given Undisturbed.refl fun away => ?_
  have called : Runs lineRules (Turned build base home 0 stash new)
      (modifyCore fun core => { core.call (.run core.ledger.suite) with current := none })
      fun _ => Turned build base home 1 stash new :=
    stack_line _ (fun _ => Stacked.weaken) (fun _ => ⟨rfl, rfl, rfl, rfl, rfl⟩) fun core stacked =>
      ⟨⟨stacked.run.1.bounded, stacked.run.1.known⟩, stacked.run.2⟩
  refine called.bind fun _ => (turned_within (modifyCore_within fun core => phys_record core _)).bind fun _ => ?_
  refine (turned_within (modifyCore_within reapTerminated_record)).bind fun _ => ?_
  exact (call_line .service nofun).bind fun _ => .pure fun state holds => ⟨new, stash, away, holds⟩

theorem schedule_line : Runs lineRules (LineReady build base home .schedule) Payload.schedule (LineReady build base home) := by
  refine resting_line fun new away => ?_
  refine return_line.bind fun _ => (turned_within (modifyCore_within reapTerminated_record)).bind fun _ => ?_
  refine (turned_within (readCore_within _)).bind fun found => ?_
  cases found with
  | some pid => exact .pure fun state holds => ⟨new, away, holds⟩
  | none =>
    refine (turned_within (readCore_within _)).bind fun owed => (turned_within (readCore_within _)).bind fun last => ?_
    split
    · refine (turned_within (modifyCore_within fun core => autoFork_record core _)).bind fun _ => ?_
      exact .pure fun state holds => ⟨new, away, holds⟩
    · exact .pure fun state holds => ⟨new, away, holds⟩

theorem restore_line (sid : Sid) :
    Runs lineRules (LineReady build base home (.restore sid)) (Payload.restore sid) (LineReady build base home) := by
  refine resting_line fun new away => ?_
  refine (turned_within (onCore_within (enqueueRestore_record sid))).bind fun found => ?_
  cases found <;> exact .pure fun state holds => ⟨new, away, holds⟩

theorem loadFailed_line (away : Away build home new) (pid : Pid) {reason : String} (named : IsName reason) :
    Runs lineRules (Turned build base home 1 none new) (loadFailed pid reason) (LineReady build base home) := by
  -- the payload that failed to load accounts for the call of `run` that started it
  have noted : Runs lineRules (Turned build base home 1 none new) (modifyCore fun core => setState (noteStart core pid) pid .faulted)
      fun _ => Turned build base home 0 none new := by
    refine stack_line _ (fun _ stacked => stacked) (fun _ => ⟨rfl, rfl, rfl, rfl, rfl⟩) fun core stacked => ?_
    refine ⟨⟨stacked.bounded.trans (Nat.le_of_eq ?_), stacked.known⟩, .of_same rfl rfl⟩
    simp [noteStart, setState, setSlot]
  refine (call_line .loadFailed (by simp)).bind fun _ => noted.bind fun _ => ?_
  have told : Within Unnoticed (emitLoadFault pid reason) := emit_within (fun _ => rfl) fun _ => ⟨imageName_isName _, named⟩
  refine (turned_onRecord.runs (fun _ holds => holds.stacked.weaken) told).bind fun _ => ?_
  exact .pure fun state holds => ⟨new, none, away, holds⟩

theorem start_line (pid : Pid) :
    Runs lineRules (LineReady build base home (.start pid)) (start build pid) (LineReady build base home) := by
  refine resting_line fun new away => ?_
  refine (call_line .start nofun).bind fun _ => ?_
  have begins : Runs lineRules (Turned build base home 1 none new) (Program.modifyGet (begin build pid)) fun begun state =>
      (∀ reason, begun = .error reason → IsName reason) ∧ Turned build base home 1 none new state := by
    refine act_line (fun _ _ _ same ⟨named, holds⟩ => ⟨named, turned_onRecord _ _ same holds⟩)
      (fun _ holds => holds.stacked) fun state holds => ?_
    have kept := (begin_record pid state : Unnoticed state (begin build pid state).2).toUnrecorded
    exact ⟨.of_same kept.core.stack kept.core.suite, fun _ begun => begin_reason begun, turned_onRecord _ _ kept holds⟩
  refine begins.bind fun begun => .given Undisturbed.refl fun named => ?_
  cases begun with
  | error reason => exact loadFailed_line away pid (named reason rfl)
  | ok launch => exact .pure fun state holds => ⟨new, away, holds⟩

theorem launch_line (details : Launch) :
    Runs lineRules (Resting build base home) (Payload.launch details) (LineReady build base home) := by
  refine resting_line fun new away => ?_
  unfold Payload.launch
  split
  · exact (turned_within (emitStart_within details)).bind fun _ => .pure fun state holds => ⟨new, away, holds⟩
  · exact .pure fun state holds => ⟨new, away, holds⟩

theorem finish_line : Runs lineRules (LineReady build base home .finish) finish (LineReady build base home) := by
  refine resting_line fun new away => (turned_within emitSuiteDone_within).bind fun _ => ?_
  exact (call_line .idle nofun).bind fun _ => .pure fun state holds => ⟨new, holds⟩

theorem seed_line (suite : Suite) :
    Runs lineRules (LineReady build base home (.seed suite)) (Main.code build (.seed suite)) (LineReady build base home) := by
  refine choose_line (fun new _ _ same ⟨away, unpaired, holds⟩ => ⟨away, unpaired, turned_onRecord _ _ same holds⟩) fun new => ?_
  refine .given Undisturbed.refl fun away => .given Undisturbed.refl fun unpaired => ?_
  have seeded : Runs lineRules (Turned build base home 1 none new) (modifyCore (seed build suite))
      fun _ => Turned build base home 0 none new := by
    refine act_line (fun _ => turned_onRecord) (fun _ holds => holds.stacked) fun state holds => ?_
    obtain ⟨books, stack, next⟩ := seed_books suite state.core
    refine ⟨.inr ⟨?_, stack⟩, holds.amid.books books.journal books.opIds books.opHead, books.stashedByte.trans holds.stash,
      ⟨?_, fun other member => ?_⟩, fun plain => ?_, holds.attended⟩
    · exact next ▸ Nat.succ_ne_self _
    · -- no call can be for the suite that begins now
      have none : (seed build suite state.core).stack.count (.run (seed build suite state.core).ledger.suite) = 0 := by
        rw [List.count_eq_zero, stack, next]
        exact fun member => absurd (holds.stacked.known _ member) (Nat.not_succ_le_self _)
      exact none.le.trans (Nat.zero_le _)
    · refine (holds.stacked.known other (stack ▸ member)).trans ?_
      exact next ▸ Nat.le_succ _
    · obtain ⟨flag, paired⟩ := holds.keyed plain
      refine ⟨books.keyPending.trans ?_, paired⟩
      rw [unpaired] at flag ⊢
      exact congrArg (· && !build.doom) flag
  exact seeded.bind fun _ => .pure fun state holds => ⟨new, none, away, holds⟩

/-- The code behind a hand-over. -/
theorem code_line {next : Next} (stays : leavesKernel next = false) :
    Runs lineRules (LineReady build base home next) (Main.code build next) (LineReady build base home) := by
  cases next with
  | idle => exact idle_line
  | run => exact run_line
  | service => exact serviceConsole_line
  | schedule => exact schedule_line
  | seed suite => exact seed_line suite
  | restore sid => exact restore_line sid
  | start pid => exact start_line pid
  | launch details => exact launch_line details
  | finish => exact finish_line
  | resumeUser satp frame => cases stays
  | crash => cases stays
  | panicked => cases stays

end Scheduler

end Kernai
