import Mathlib.Data.List.TakeWhile
import Kernai.Foundation.Ring
import Kernai.Proofs.Hooks
import Kernai.Proofs.Runs
import Kernai.Proofs.Wire

/-! The operator's keys (doom build): a stream of prefixed bytes, drained at ticks in
batches of any size, reaches `getkey` as a queue of at most 64 keys. -/

namespace Kernai
open Foundation Kernel Console Payload Program Machine

/-- The bytes that follow a prefix, in a piece of the stream. -/
def partners : (pending : Bool) → Bytes → Bytes
  | _, [] => []
  | true, byte :: rest => byte :: partners false rest
  | false, byte :: rest => partners (byte = keyPrefix) rest

/-- The piece of the stream ends in a prefix without its partner. -/
def halfway : (pending : Bool) → Bytes → Bool
  | pending, [] => pending
  | true, _ :: rest => halfway false rest
  | false, byte :: rest => halfway (byte = keyPrefix) rest

theorem partners_append (first second : Bytes) : ∀ pending : Bool,
    partners pending (first ++ second) = partners pending first ++ partners (halfway pending first) second := by
  induction first with
  | nil => intro pending; cases pending <;> rfl
  | cons byte rest ih =>
    intro pending
    cases pending with
    | false => exact ih _
    | true => exact congrArg (byte :: ·) (ih false)

theorem halfway_append (first second : Bytes) : ∀ pending : Bool,
    halfway pending (first ++ second) = halfway (halfway pending first) second := by
  induction first with
  | nil => intro pending; cases pending <;> rfl
  | cons byte rest ih =>
    intro pending
    cases pending with
    | false => exact ih _
    | true => exact ih false

/-- Of the keys of one drain, those that find fewer than 64 unread. -/
def admitted (unread : Nat) : Bytes → Bytes
  | [] => []
  | key :: rest => if unread < keyRingSize then key :: admitted (unread + 1) rest else admitted unread rest

theorem admitted_sublist (keys : Bytes) : ∀ unread, (admitted unread keys).Sublist keys := by
  induction keys with
  | nil => exact fun _ => .slnil
  | cons key rest ih =>
    intro unread
    unfold admitted
    split
    · exact (ih _).cons_cons key
    · exact (ih _).cons key

/-- The keys of one drain that no kill goes before. -/
def typed (pending : Bool) (bytes : Bytes) : Bytes := (partners pending bytes).takeWhile (· ≠ keyOpKill)

/-- The payload's queue, oldest key first. -/
def Queued (core : Core) (queue : Bytes) : Prop :=
  Circular keyRingSize (2 ^ 64) core.keyRing core.keyHead core.keyTail queue

theorem Queued.keep {core core' : Core} {queue : Bytes} (queued : Queued core queue) (ring : core'.keyRing = core.keyRing)
    (head : core'.keyHead = core.keyHead) (tail : core'.keyTail = core.keyTail) : Queued core' queue := by
  rw [Queued, ring, head, tail]
  exact queued

theorem Queued.pushKey {core : Core} {queue : Bytes} (queued : Queued core queue) (key : UInt8) :
    Queued (Payload.pushKey key core) (queue ++ admitted queue.length [key]) := by
  have unread := queued.unread (by decide)
  unfold Payload.pushKey admitted
  rw [unread]
  split
  · next full => rw [if_neg (Nat.not_lt.mpr full), admitted, List.append_nil]; exact queued
  · next room =>
    rw [if_pos (Nat.lt_of_not_le room)]
    exact queued.push (by decide) (Nat.lt_of_not_le room) key

theorem admitted_cons (queue : Bytes) (key : UInt8) (rest : Bytes) :
    queue ++ admitted queue.length (key :: rest) =
      (queue ++ admitted queue.length [key]) ++ admitted (queue ++ admitted queue.length [key]).length rest := by
  by_cases room : queue.length < keyRingSize <;> simp [admitted, room]

section Draining

variable {build : Build} {pid : Pid} {state : State}

/-- How often the end of a payload has been reported. -/
def ends (pid : Pid) (state : State) : Nat := state.env.log.countP fun entry => entry.what.endOf = some pid

theorem killedOperator_fits {id : Nat} (small : id < 2 ^ 64) (pid : Pid) {elapsed cause : Nat} (isTime : elapsed < 2 ^ 64)
    (isId : cause < 2 ^ 64) : ((Event.killedOperator pid elapsed cause).text id).length ≤ capacity := by
  simp only [Event.text, Event.pieces, List.flatten_cons, List.flatten_nil, List.length_append, List.length_nil]
  have := decimal_word small
  have := pid_length pid
  have := decimal_word isTime
  have found : (if cause = 0 then utf8 "null" else decimal cause).length ≤ 20 := by
    split
    · decide
    · exact decimal_word isId
  have literals : (utf8 "\x7b\"id\":").length + (utf8 ",\"type\":\"payload_killed\",\"pid\":").length +
      (utf8 ",\"reason\":\"operator\",\"elapsed\":").length + (utf8 ",\"caused_by\":").length +
      (utf8 "\x7d").length ≤ 200 := by decide
  have room : capacity = 2048 := rfl
  omega

/-- One report of the payload's end goes out. -/
structure Announces (pid : Pid) (state state' : State) : Prop where
  core : state'.core = state.core
  read : state'.env.read = state.env.read
  rx : state'.env.rx = state.env.rx
  ends : ends pid state' = ends pid state + 1

theorem Announces.masked (announces : Announces pid (Machine.setSie state false) state') (sie : Bool) :
    Announces pid state (Machine.setSie state' sie) :=
  ⟨announces.core, announces.read, announces.rx, announces.ends⟩

theorem emitKilledOperator_announces (timer : ∀ reads, build.clock reads < 2 ^ 64) (pid : Pid) (state : State) :
    Announces pid state ((emitKilledOperator build pid).run state).2 := by
  have cause := (state.core.table pid).startEvent.toNat_lt
  -- whatever the clock has been read for by then
  have sent : ∀ (before : State) (elapsed : Nat), elapsed < 2 ^ 64 → before.core = state.core →
      before.env.read = state.env.read → before.env.rx = state.env.rx → before.env.log = state.env.log →
      Announces pid (Machine.setSie state false) ((do
        let serial ← nextId
        let causedBy ← readCore fun core => (core.table pid).startEvent.toNat
        send serial (.killedOperator pid elapsed causedBy)).run before).2 := by
    intro before elapsed short core read rx log
    have fits := killedOperator_fits (idOf_lt before.env.serial) pid short (core ▸ cause)
    simp only [run_bind, readCore_run, send_run, nextId, onEnv_run, (Event.fits_iff _ _).mpr fits]
    refine ⟨core, read, rx, ?_⟩
    simp [ends, delivered, stamp, Emission.endOf, Event.endOf, log, Machine.setSie]
  have body : Announces pid (Machine.setSie state false) ((do
      let started ← readCore fun core => (core.table pid).startedAt
      let elapsed ← elapsedSince build started
      let serial ← nextId
      let causedBy ← readCore fun core => (core.table pid).startEvent.toNat
      send serial (.killedOperator pid elapsed causedBy)).run (Machine.setSie state false)).2 := by
    rw [run_bind, readCore_run, run_bind]
    unfold elapsedSince
    split
    · exact sent _ 0 (by decide) rfl rfl rfl rfl
    · exact sent _ _ (Nat.lt_of_le_of_lt (Nat.sub_le ..) (timer _)) rfl rfl rfl rfl
  unfold emitKilledOperator
  rw [withoutInterrupts_run]
  split
  · exact body.masked true
  · exact body.masked _

/-- The bytes waiting on the line complete an operator's kill. -/
def Slays (state : State) : Prop := keyOpKill ∈ partners state.core.keyPending state.env.rx

instance (state : State) : Decidable (Slays state) := inferInstanceAs (Decidable (_ ∈ _))

/-- The queue once the line has been drained; after a kill no key is queued. -/
def filled (killed : Bool) (state : State) (queue : Bytes) : Bytes :=
  queue ++ if killed then [] else admitted queue.length (typed state.core.keyPending state.env.rx)

/-- What becomes of the payload and how often its end will have been reported. -/
def fate (pid : Pid) (state : State) : ProcState × Nat :=
  if (state.core.table pid).state = .running ∧ Slays state then (.killed, ends pid state + 1)
  else ((state.core.table pid).state, ends pid state)

/-- What the loop of `drain_keys` does with the bytes waiting on the line, when it has
`killed` the payload already or not. -/
structure Drains (pid : Pid) (killed : Bool) (state : State) (out : Bool × State) : Prop where
  told : out.1 = (killed || decide (Slays state))
  read : out.2.env.read = state.env.read ++ state.env.rx
  rx : out.2.env.rx = []
  pending : out.2.core.keyPending = halfway state.core.keyPending state.env.rx
  queued : ∀ queue, Queued state.core queue → Queued out.2.core (filled killed state queue)
  current : out.2.core.current = state.core.current
  image : (out.2.core.table pid).image = (state.core.table pid).image
  fate : ((out.2.core.table pid).state, ends pid out.2) = fate pid state

/-- A turn of the loop leaves the outcome where it was. -/
structure Takes (pid : Pid) (killed killed' : Bool) (state state' : State) : Prop where
  told : (killed' || decide (Slays state')) = (killed || decide (Slays state))
  read : state'.env.read ++ state'.env.rx = state.env.read ++ state.env.rx
  pending : halfway state'.core.keyPending state'.env.rx = halfway state.core.keyPending state.env.rx
  queued : ∀ queue, Queued state.core queue →
    ∃ queue', Queued state'.core queue' ∧ filled killed' state' queue' = filled killed state queue
  current : state'.core.current = state.core.current
  image : (state'.core.table pid).image = (state.core.table pid).image
  fate : fate pid state' = fate pid state

theorem Takes.drains {killed killed' : Bool} {out : Bool × State} (takes : Takes pid killed killed' state state')
    (drains : Drains pid killed' state' out) : Drains pid killed state out where
  told := drains.told.trans takes.told
  read := drains.read.trans takes.read
  rx := drains.rx
  pending := drains.pending.trans takes.pending
  queued := fun queue before => by
    obtain ⟨queue', during, same⟩ := takes.queued queue before
    exact same ▸ drains.queued queue' during
  current := drains.current.trans takes.current
  image := drains.image.trans takes.image
  fate := drains.fate.trans takes.fate

theorem Drains.nothing {killed : Bool} (silent : state.env.rx = []) : Drains pid killed state (killed, state) := by
  have silence : partners state.core.keyPending state.env.rx = [] := by rw [silent]; cases state.core.keyPending <;> rfl
  have spared : ¬ Slays state := by rw [Slays, silence]; exact List.not_mem_nil
  refine ⟨by simp [spared], by simp [silent], silent, ?_, fun queue queued => ?_, rfl, rfl, ?_⟩
  · rw [silent]
    cases state.core.keyPending <;> rfl
  · simpa [filled, typed, silence, admitted] using queued
  · exact (if_neg fun both => spared both.2).symm

/-- Outside a pair only a prefix means anything. -/
theorem leadKey_takes {killed : Bool} {env : Env} {byte : UInt8} (rx : state.env.rx = byte :: env.rx)
    (read : env.read = state.env.read ++ [byte]) (log : env.log = state.env.log) (outside : state.core.keyPending = false) :
    Takes pid killed killed state { core := leadKey byte state.core, env } := by
  obtain ⟨pending, ring, current, table⟩ : (leadKey byte state.core).keyPending = decide (byte = keyPrefix) ∧
      (∀ queue, Queued state.core queue → Queued (leadKey byte state.core) queue) ∧
      (leadKey byte state.core).current = state.core.current ∧ (leadKey byte state.core).table = state.core.table := by
    unfold leadKey
    split
    · next isPrefix => exact ⟨(decide_eq_true isPrefix).symm, fun _ queued => queued.keep rfl rfl rfl, rfl, rfl⟩
    · next other => exact ⟨outside.trans (decide_eq_false other).symm, fun _ queued => queued.keep rfl rfl rfl, rfl, rfl⟩
  have same : partners (leadKey byte state.core).keyPending env.rx = partners state.core.keyPending state.env.rx := by
    rw [pending, outside, rx]
    rfl
  have slays : Slays { core := leadKey byte state.core, env } = Slays state := congrArg (keyOpKill ∈ ·) same
  refine ⟨by simp only [slays], by simp [read, rx], ?_, fun queue queued => ⟨queue, ring queue queued, ?_⟩, current, ?_, ?_⟩
  · rw [pending, outside, rx]
    rfl
  · simp only [filled, typed, same]
  · rw [table]
  · simp only [fate, slays, table, ends, log]

/-- The partner of a prefix has come off the line. -/
def paired (byte : UInt8) (core : Core) : Core := { core.note (.used .drain .partner byte) with keyPending := false }

theorem partners_pair {byte : UInt8} {rest : Bytes} (rx : state.env.rx = byte :: rest)
    (inside : state.core.keyPending = true) :
    partners state.core.keyPending state.env.rx = byte :: partners false rest := by
  rw [inside, rx]
  rfl

theorem pushKey_keeps (byte : UInt8) (core : Core) : (pushKey byte core).keyPending = core.keyPending ∧
    (pushKey byte core).current = core.current ∧ (pushKey byte core).table = core.table := by
  unfold pushKey
  split <;> exact ⟨rfl, rfl, rfl⟩

/-- A key is queued if there is room, unless the payload has been killed. -/
theorem key_takes {killed : Bool} {env : Env} {byte : UInt8} (rx : state.env.rx = byte :: env.rx)
    (read : env.read = state.env.read ++ [byte]) (log : env.log = state.env.log) (inside : state.core.keyPending = true)
    (isKey : byte ≠ keyOpKill) :
    Takes pid killed killed state
      { core := if killed = false then pushKey byte (paired byte state.core) else paired byte state.core, env } := by
  have pair := partners_pair rx inside
  obtain ⟨pending, current, table⟩ : _ = false ∧ _ = state.core.current ∧ _ = state.core.table :=
    pushKey_keeps byte (paired byte state.core)
  have slays : ∀ core : Core, core.keyPending = false → Slays { core, env } = Slays state := by
    intro core out
    simp only [Slays, pair, out, List.mem_cons, isKey.symm, false_or]
  have isHalfway : halfway false env.rx = halfway state.core.keyPending state.env.rx := by
    rw [inside, rx]
    rfl
  have isTyped : typed state.core.keyPending state.env.rx = byte :: typed false env.rx := by
    rw [typed, pair, List.takeWhile_cons_of_pos (by simpa using isKey)]
    rfl
  cases killed with
  | false =>
    simp only [if_true]
    refine ⟨by simp only [slays _ pending], by simp [read, rx], by rw [pending]; exact isHalfway,
      fun queue queued => ?_, current, by rw [table], ?_⟩
    · have ready : Queued (paired byte state.core) queue := queued.keep rfl rfl rfl
      refine ⟨_, ready.pushKey byte, ?_⟩
      simp only [filled, Bool.false_eq_true, if_false, pending, isTyped]
      exact (admitted_cons queue byte _).symm
    · simp only [fate, slays _ pending, table, ends, log]
  | true =>
    simp only [Bool.true_eq_false, if_false]
    refine ⟨rfl, by simp [read, rx], isHalfway, fun queue queued => ⟨queue, queued.keep rfl rfl rfl, rfl⟩, rfl, rfl, ?_⟩
    simp only [fate, slays (paired byte state.core) rfl, ends, log]
    rfl

/-- The kill of a payload that no longer runs. -/
theorem spent_takes {killed : Bool} {env : Env} (rx : state.env.rx = keyOpKill :: env.rx)
    (read : env.read = state.env.read ++ [keyOpKill]) (log : env.log = state.env.log) (inside : state.core.keyPending = true)
    (ended : (state.core.table pid).state ≠ .running) :
    Takes pid killed true state { core := paired keyOpKill state.core, env } := by
  have pair := partners_pair rx inside
  have slays : Slays state := by rw [Slays, pair]; exact List.mem_cons_self
  refine ⟨by simp [slays], by simp [read, rx], by rw [inside, rx]; rfl,
    fun queue queued => ⟨queue, queued.keep rfl rfl rfl, ?_⟩, rfl, rfl, ?_⟩
  · simp [filled, typed, pair, admitted]
  · rw [fate, fate, if_neg fun both => ended both.1, if_neg fun both => ended both.1]
    simp only [ends, log]
    rfl

/-- The kill of the running payload, with its report. -/
theorem kill_takes {killed : Bool} {env : Env} {state' : State} (rx : state.env.rx = keyOpKill :: env.rx)
    (read : env.read = state.env.read ++ [keyOpKill]) (log : env.log = state.env.log) (inside : state.core.keyPending = true)
    (running : (state.core.table pid).state = .running)
    (announces : Announces pid { core := setState (paired keyOpKill state.core) pid .killed, env } state') :
    Takes pid killed true state state' := by
  have pair := partners_pair rx inside
  have slays : Slays state := by rw [Slays, pair]; exact List.mem_cons_self
  have dead : (state'.core.table pid).state = .killed := by simp [announces.core, setState, setSlot]
  refine ⟨by simp [slays], by simp [announces.read, announces.rx, read, rx], ?_,
    fun queue queued => ⟨queue, ?_, ?_⟩, ?_, ?_, ?_⟩
  · rw [announces.core, announces.rx, inside, rx]
    rfl
  · rw [announces.core]
    exact queued.keep rfl rfl rfl
  · simp [filled, typed, pair, admitted]
  · rw [announces.core]
    rfl
  · simp [announces.core, setState, setSlot, paired, Core.note]
  · rw [fate, fate, if_neg (by simp [dead]), if_pos ⟨running, slays⟩, dead, announces.ends]
    simp only [ends, log]

theorem drainBytes_drains (timer : ∀ reads, build.clock reads < 2 ^ 64) (count : Nat) : ∀ (killed : Bool) (state : State),
    state.env.rx.length = count → Drains pid killed state ((drainBytes build pid count killed).run state) := by
  induction count with
  | zero => exact fun killed state none => .nothing (List.length_eq_zero_iff.mp none)
  | succ count ih =>
    intro killed state more
    obtain ⟨byte, rest, isCons⟩ : ∃ byte rest, state.env.rx = byte :: rest := List.exists_cons_of_length_eq_add_one more
    have left : rest.length = count := by simpa [isCons] using more
    unfold drainBytes
    simp only [run_bind, consoleGetchar, onEnv_run, isCons, List.head?_cons, List.tail_cons, Option.toList_some, readCore_run]
    generalize isEnv : { state.env with rx := rest, read := state.env.read ++ [byte] } = env
    have rx : state.env.rx = byte :: env.rx := by rw [isCons, ← isEnv]
    have read : env.read = state.env.read ++ [byte] := by rw [← isEnv]
    have log : env.log = state.env.log := by rw [← isEnv]
    have short : env.rx.length = count := by rw [← isEnv]; exact left
    split
    · next inside =>
      simp only [run_bind, modifyCore_run]
      rw [← paired]
      split
      · next isKill =>
        subst isKill
        simp only [run_bind, readCore_run]
        split
        · next running =>
          simp only [run_bind, modifyCore_run]
          have announces := emitKilledOperator_announces timer pid
            { core := setState (paired keyOpKill state.core) pid .killed, env }
          generalize (emitKilledOperator build pid).run _ = told at announces ⊢
          refine (kill_takes rx read log inside running announces).drains (ih true told.2 ?_)
          rw [announces.rx, short]
        · next ended => exact (spent_takes rx read log inside ended).drains (ih true _ short)
      · next isKey =>
        have takes : Takes pid killed killed state _ := key_takes rx read log inside isKey
        split
        · next alive =>
          rw [if_pos alive] at takes
          simp only [run_bind, modifyCore_run]
          exact takes.drains (ih killed _ short)
        · next dead =>
          rw [if_neg dead] at takes
          exact takes.drains (ih killed _ short)
    · next outside =>
      exact (leadKey_takes rx read log (Bool.eq_false_iff.mpr outside)).drains (ih killed _ short)

end Draining

section Running

variable {build : Build} {pid : Pid} {start state state' : State}

/-- What is seen of the keys: the bytes a drain takes off the line and what a `getkey` returns. -/
inductive KeyAct where
  | drained (bytes : Bytes)
  | returned (result : Int)
deriving DecidableEq, Repr

/-- The rest of the machine, with bytes arriving: it leaves the keys alone and goes on with
the payload. -/
structure Unkeyed (pid : Pid) (state state' : State) : Prop where
  ring : state'.core.keyRing = state.core.keyRing
  head : state'.core.keyHead = state.core.keyHead
  tail : state'.core.keyTail = state.core.keyTail
  pending : state'.core.keyPending = state.core.keyPending
  current : state'.core.current = state.core.current
  image : (state'.core.table pid).image = (state.core.table pid).image
  status : (state'.core.table pid).state = (state.core.table pid).state
  ends : ends pid state' = ends pid state

inductive KeyStep (build : Build) (pid : Pid) (state : State) : List KeyAct → State → Prop
  | drain : KeyStep build pid state
      [.drained (((drainKeys build).run state).2.env.read.drop state.env.read.length)] ((drainKeys build).run state).2
  | getkey : KeyStep build pid state [.returned (onGetkey state.core).1] { state with core := (onGetkey state.core).2 }
  | other {state' : State} (unkeyed : Unkeyed pid state state') : KeyStep build pid state [] state'

inductive KeyRun (build : Build) (pid : Pid) (start : State) : List KeyAct → State → Prop
  | refl : KeyRun build pid start [] start
  | step {acts more : List KeyAct} {state state' : State} (run : KeyRun build pid start acts state)
      (step : KeyStep build pid state more state') : KeyRun build pid start (acts ++ more) state'

/-- The keys as a queue: the bytes drained so far, the keys accepted and the results of the
`getkey` calls that found one. -/
structure Typing where
  stream : Bytes
  accepted : Bytes
  returned : List Int
deriving DecidableEq, Repr

def Typing.see (typing : Typing) : KeyAct → Typing
  | .drained bytes => { typing with
      stream := typing.stream ++ bytes
      accepted := typing.accepted ++ admitted (typing.accepted.length - typing.returned.length)
        (typed (halfway false typing.stream) bytes) }
  | .returned result => if result = eagain then typing else { typing with returned := typing.returned ++ [result] }

def typing (acts : List KeyAct) : Typing := acts.foldl Typing.see ⟨[], [], []⟩

theorem typing_append (acts : List KeyAct) (act : KeyAct) : typing (acts ++ [act]) = (typing acts).see act := by
  simp [typing]

/-- The kernel's keys stand as the queue says. -/
structure Tallies (build : Build) (pid : Pid) (start state : State) (typing : Typing) : Prop where
  bounded : typing.returned.length ≤ typing.accepted.length
  returned : typing.returned = (typing.accepted.take typing.returned.length).map fun key => (key.toNat : Int)
  partnered : typing.accepted.Sublist ((partners false typing.stream).filter (· ≠ keyOpKill))
  queued : Queued state.core (typing.accepted.drop typing.returned.length)
  pending : state.core.keyPending = halfway false typing.stream
  current : state.core.current = some pid
  wants : imageWantsInput build (state.core.table pid).image = true
  status : (state.core.table pid).state = if keyOpKill ∈ partners false typing.stream then .killed else .running
  ends : ends pid state = ends pid start + if keyOpKill ∈ partners false typing.stream then 1 else 0

theorem Tallies.other {typing : Typing} (tallies : Tallies build pid start state typing) (unkeyed : Unkeyed pid state state') :
    Tallies build pid start state' typing where
  bounded := tallies.bounded
  returned := tallies.returned
  partnered := tallies.partnered
  queued := tallies.queued.keep unkeyed.ring unkeyed.head unkeyed.tail
  pending := unkeyed.pending.trans tallies.pending
  current := unkeyed.current.trans tallies.current
  wants := unkeyed.image ▸ tallies.wants
  status := unkeyed.status.trans tallies.status
  ends := unkeyed.ends.trans tallies.ends

/-- `drain_keys` while the payload runs. -/
theorem drainKeys_drains (timer : ∀ reads, build.clock reads < 2 ^ 64) (current : state.core.current = some pid)
    (wants : imageWantsInput build (state.core.table pid).image = true) (running : (state.core.table pid).state = .running) :
    Drains pid false state ((drainKeys build).run state) := by
  have drains : Drains pid false state _ := drainBytes_drains timer _ false state rfl
  unfold drainKeys
  simp only [run_bind, readCore_run, current, wants, running, ne_eq, not_true_eq_false, Bool.true_eq_false, or_self, if_false]
  exact drains

/-- `drain_keys` once it has stopped. -/
theorem drainKeys_stopped (current : state.core.current = some pid) (stopped : (state.core.table pid).state ≠ .running) :
    (drainKeys build).run state = (false, state) := by
  unfold drainKeys
  simp only [run_bind, readCore_run, current, ne_eq, stopped, not_false_eq_true, true_or, if_true, run_pure]

theorem typed_sublist (pending : Bool) (bytes : Bytes) :
    (typed pending bytes).Sublist ((partners pending bytes).filter (· ≠ keyOpKill)) := by
  have all : (typed pending bytes).filter (· ≠ keyOpKill) = typed pending bytes := by
    refine List.filter_eq_self.mpr fun key member => ?_
    have holds := List.mem_takeWhile_imp member
    exact holds
  rw [← all]
  exact (List.takeWhile_sublist _).filter _

theorem Tallies.drain {typing : Typing} (timer : ∀ reads, build.clock reads < 2 ^ 64)
    (tallies : Tallies build pid start state typing) : Tallies build pid start ((drainKeys build).run state).2
      (typing.see (.drained (((drainKeys build).run state).2.env.read.drop state.env.read.length))) := by
  by_cases slain : keyOpKill ∈ partners false typing.stream
  · have stopped : (state.core.table pid).state ≠ .running := by
      rw [tallies.status, if_pos slain]
      decide
    have silent : typed (halfway false typing.stream) [] = [] := by
      cases halfway false typing.stream <;> rfl
    rw [drainKeys_stopped tallies.current stopped, List.drop_length, Typing.see, List.append_nil, silent, admitted,
      List.append_nil]
    exact tallies
  · have running : (state.core.table pid).state = .running := by rw [tallies.status, if_neg slain]
    have drains := drainKeys_drains timer tallies.current tallies.wants running
    generalize (drainKeys build).run state = out at drains ⊢
    have isNew : out.2.env.read.drop state.env.read.length = state.env.rx := by rw [drains.read, List.drop_left]
    have isUnread : (typing.accepted.drop typing.returned.length).length =
        typing.accepted.length - typing.returned.length := List.length_drop
    have stream := partners_append typing.stream state.env.rx false
    have slays : keyOpKill ∈ partners false (typing.stream ++ state.env.rx) ↔ Slays state := by
      rw [stream, List.mem_append, Slays, tallies.pending]
      exact or_iff_right slain
    rw [isNew]
    refine ⟨?_, ?_, ?_, ?_, ?_, drains.current.trans tallies.current, drains.image ▸ tallies.wants, ?_, ?_⟩
    · exact Nat.le_trans tallies.bounded (by simp [Typing.see])
    · dsimp only [Typing.see]
      rw [List.take_append_of_le_length tallies.bounded]
      exact tallies.returned
    · dsimp only [Typing.see]
      rw [stream, List.filter_append]
      exact tallies.partnered.append ((admitted_sublist _ _).trans (typed_sublist _ _))
    · have queued := drains.queued _ tallies.queued
      rw [filled, isUnread, tallies.pending] at queued
      dsimp only [Typing.see]
      rwa [List.drop_append_of_le_length tallies.bounded]
    · rw [drains.pending, tallies.pending, Typing.see, halfway_append]
    · have fate := congrArg Prod.fst drains.fate
      simp only [Kernai.fate, running, true_and] at fate
      simp only [Typing.see, slays, fate]
      split <;> rfl
    · have fate := congrArg Prod.snd drains.fate
      simp only [Kernai.fate, running, true_and] at fate
      simp only [Typing.see, slays, fate, tallies.ends, slain, if_false, Nat.add_zero]
      split <;> rfl

theorem onGetkey_cases {queue : Bytes} {core : Core} (queued : Queued core queue) :
    (queue = [] ∧ onGetkey core = (eagain, core)) ∨ ∃ key rest core', queue = key :: rest ∧
      onGetkey core = ((key.toNat : Int), core') ∧ Queued core' rest ∧
      core' = { core with keyHead := (core.keyHead + 1) % 2 ^ 64 } := by
  have isEmpty := queued.head_eq_tail_iff (by decide)
  unfold onGetkey
  cases queue with
  | nil => exact .inl ⟨rfl, if_pos (isEmpty.mpr rfl)⟩
  | cons key rest =>
    obtain ⟨found, popped⟩ := Circular.pop queued (by decide)
    refine .inr ⟨key, rest, { core with keyHead := (core.keyHead + 1) % 2 ^ 64 }, rfl, ?_, popped, rfl⟩
    rw [if_neg (fun same => List.cons_ne_nil key rest (isEmpty.mp same)), found]

theorem key_ne_eagain (key : UInt8) : (key.toNat : Int) ≠ eagain := by
  unfold eagain
  omega

theorem Tallies.getkey {typing : Typing} (tallies : Tallies build pid start state typing) :
    Tallies build pid start { state with core := (onGetkey state.core).2 } (typing.see (.returned (onGetkey state.core).1)) := by
  rcases onGetkey_cases tallies.queued with ⟨-, nothing⟩ | ⟨key, rest, core', isCons, pops, queued, isCore⟩
  · rw [nothing, Typing.see, if_pos rfl]
    exact tallies
  · rw [pops, Typing.see, if_neg (key_ne_eagain key)]
    have inside : typing.returned.length < typing.accepted.length := by
      have count := congrArg List.length isCons
      rw [List.length_drop, List.length_cons] at count
      omega
    have split := List.drop_eq_getElem_cons inside
    obtain ⟨isKey, isRest⟩ := List.cons.inj (split.symm.trans isCons)
    have size : (typing.returned ++ [(key.toNat : Int)]).length = typing.returned.length + 1 := by simp
    refine ⟨?_, ?_, tallies.partnered, ?_, ?_, ?_, ?_, ?_, ?_⟩
    · rw [size]
      exact inside
    · rw [size, List.take_add_one, List.getElem?_eq_getElem inside, isKey]
      simpa using tallies.returned
    · rw [size, isRest]
      exact queued
    all_goals subst isCore
    · exact tallies.pending
    · exact tallies.current
    · exact tallies.wants
    · exact tallies.status
    · exact tallies.ends

theorem KeyRun.tallies (timer : ∀ reads, build.clock reads < 2 ^ 64) (current : start.core.current = some pid)
    (wants : imageWantsInput build (start.core.table pid).image = true) (running : (start.core.table pid).state = .running)
    {acts : List KeyAct} (run : KeyRun build pid { start with core := clearKeys start.core } acts state) :
    Tallies build pid start state (typing acts) := by
  induction run with
  | refl =>
    exact ⟨Nat.le_refl _, rfl, .slnil, Circular.empty (by decide), rfl, current, wants, running, rfl⟩
  | step run step ih =>
    cases step with
    | drain =>
      rw [typing_append]
      exact ih.drain timer
    | getkey =>
      rw [typing_append]
      exact ih.getkey
    | other unkeyed =>
      rw [List.append_nil]
      exact ih.other unkeyed

/-- The key ring is a bounded queue, however the stream is cut into drains and wherever the
payload asks for keys. -/
theorem key_ring_fifo (timer : ∀ reads, build.clock reads < 2 ^ 64) (current : start.core.current = some pid)
    (wants : imageWantsInput build (start.core.table pid).image = true) (running : (start.core.table pid).state = .running)
    {acts : List KeyAct} (run : KeyRun build pid { start with core := clearKeys start.core } acts state) :
    (typing acts).returned <+: (typing acts).accepted.map (fun key => (key.toNat : Int)) ∧
    (typing acts).accepted.Sublist ((partners false (typing acts).stream).filter (· ≠ keyOpKill)) ∧
    ((onGetkey state.core).1 = eagain ↔ (typing acts).returned.length = (typing acts).accepted.length) ∧
    ((state.core.table pid).state = .running →
      ((drainKeys build).run state).2.env.read = state.env.read ++ state.env.rx) ∧
    (state.core.table pid).state = (if keyOpKill ∈ partners false (typing acts).stream then .killed else .running) ∧
    ends pid state = ends pid start + if keyOpKill ∈ partners false (typing acts).stream then 1 else 0 := by
  have tallies := run.tallies timer current wants running
  refine ⟨?_, tallies.partnered, ?_, fun still => ?_, tallies.status, tallies.ends⟩
  · rw [tallies.returned]
    exact (List.take_prefix _ _).map _
  · have bounded := tallies.bounded
    rcases onGetkey_cases tallies.queued with ⟨isNil, nothing⟩ | ⟨key, rest, core', isCons, pops, -, -⟩
    · have all := List.drop_eq_nil_iff.mp isNil
      exact iff_of_true (congrArg Prod.fst nothing) (Nat.le_antisymm bounded all)
    · rw [pops]
      refine iff_of_false (key_ne_eagain key) fun same => ?_
      rw [same, List.drop_length] at isCons
      exact absurd isCons.symm (List.cons_ne_nil _ _)
  · exact (drainKeys_drains timer tallies.current tallies.wants still).read

/-- A doom build on a machine whose time stands still. -/
def gameBuild : Build := { doomBuild with clock := fun _ => 0 }

/-- The game runs, and a key and a stray byte have arrived. -/
def pressed : State :=
  let state := powerOn gameBuild
  { core := { state.core with current := some pid0, table := fun _ => { Slot.new with state := .running, image := imgDoom } }
    env := { state.env with rx := [0xA5, 0x61, 0x62] } }

theorem key_ring_fifo_pressed : ∃ state,
    KeyRun gameBuild pid0 { pressed with core := clearKeys pressed.core } [.drained [0xA5, 0x61, 0x62], .returned 0x61] state ∧
      (onGetkey state.core).1 = eagain ∧ (state.core.table pid0).state = .running := by
  have run : KeyRun gameBuild pid0 { pressed with core := clearKeys pressed.core } _ _ := .step (.step .refl .drain) .getkey
  rw [show _ ++ _ ++ _ = [KeyAct.drained [0xA5, 0x61, 0x62], .returned 0x61] by decide +kernel] at run
  obtain ⟨-, -, isAgain, -, status, -⟩ := key_ring_fifo (fun _ => Nat.two_pow_pos 64) rfl (by decide) rfl run
  exact ⟨_, run, isAgain.mpr rfl, status⟩

end Running

end Kernai
