import Mathlib.Logic.Relation

/-! Programs whose atomic actions can be separated by outside interference.
An action reads the state it runs in and updates it in one go; between two
actions the environment may move the state along an interference relation.
`run` is the same program with nobody else on the machine. -/

namespace Kernai.Foundation

inductive Program (σ : Type) (α : Type) where
  | pure (value : α)
  | act (update : σ → σ) (next : σ → Program σ α)

namespace Program

variable {σ α β : Type}

def bind : Program σ α → (α → Program σ β) → Program σ β
  | .pure value, rest => rest value
  | .act update next, rest => .act update (fun state => (next state).bind rest)

instance : Monad (Program σ) where
  pure := .pure
  bind := bind

@[simp] theorem pure_bind' (value : α) (rest : α → Program σ β) : (Program.pure value >>= rest) = rest value := rfl

@[simp] theorem act_bind (update : σ → σ) (next : σ → Program σ α) (rest : α → Program σ β) :
    (Program.act update next >>= rest) = .act update (fun state => next state >>= rest) := rfl

instance : LawfulMonad (Program σ) := LawfulMonad.mk' _
  (fun program => by
    induction program with
    | pure value => rfl
    | act update next ih => exact congrArg (Program.act update) (funext ih))
  (fun _ _ => rfl)
  (fun program first second => by
    induction program with
    | pure value => rfl
    | act update next ih => exact congrArg (Program.act update) (funext ih))

/-- One action: return a value read from the state and update the state. -/
def modifyGet (action : σ → α × σ) : Program σ α :=
  .act (fun state => (action state).2) (fun state => .pure (action state).1)

def modify (update : σ → σ) : Program σ Unit := .act update (fun _ => .pure ())

def read (view : σ → α) : Program σ α := .act id (fun state => .pure (view state))

/-- Execution with no interference at all. -/
def run : Program σ α → σ → α × σ
  | .pure value, state => (value, state)
  | .act update next, state => (next state).run (update state)

@[simp] theorem run_pure (value : α) (state : σ) : (Pure.pure value : Program σ α).run state = (value, state) := rfl

@[simp] theorem run_bind (program : Program σ α) (rest : α → Program σ β) (state : σ) :
    (program >>= rest).run state = (rest (program.run state).1).run (program.run state).2 := by
  induction program generalizing state with
  | pure value => rfl
  | act update next ih => exact ih state (update state)

@[simp] theorem run_modifyGet (action : σ → α × σ) (state : σ) : (modifyGet action).run state = action state := (rfl)

@[simp] theorem run_modify (update : σ → σ) (state : σ) : (modify update).run state = ((), update state) := (rfl)

@[simp] theorem run_read (view : σ → α) (state : σ) : (read view).run state = (view state, state) := (rfl)

@[simp] theorem run_map (f : α → β) (program : Program σ α) (state : σ) :
    (f <$> program).run state = (f (program.run state).1, (program.run state).2) := by
  rw [map_eq_pure_bind, run_bind]
  rfl

/-- What a program may count on and what it must keep to: the states in which it
may act, what others do between two of its actions, and what an action may do. -/
structure Rules (σ : Type) where
  valid : σ → Prop
  interference : σ → σ → Prop
  guarantee : σ → σ → Prop

variable {rules : Rules σ} {program : Program σ α} {state : σ}

/-- The assertion holds whatever the others have done by now. -/
def Rules.Always (rules : Rules σ) (assertion : σ → Prop) (state : σ) : Prop :=
  ∀ current, rules.interference state current → assertion current

/-- Every action is taken in a valid state and keeps the guarantee, and the value
returned at the end satisfies the postcondition. -/
def Safe (rules : Rules σ) (post : α → σ → Prop) : Program σ α → σ → Prop
  | .pure value, state => ∀ current, rules.interference state current → post value current
  | .act update next, state => ∀ current, rules.interference state current →
      rules.valid current ∧ rules.guarantee current (update current) ∧ Safe rules post (next current) (update current)

/-- The program is safe from any state in which the precondition is there to stay. -/
def Runs (rules : Rules σ) (pre : σ → Prop) (program : Program σ α) (post : α → σ → Prop) : Prop :=
  ∀ state, rules.Always pre state → Safe rules post program state

theorem Safe.settle {post : α → σ → Prop} {current : σ}
    (trans : ∀ {a b c}, rules.interference a b → rules.interference b c → rules.interference a c)
    (safe : Safe rules post program state) (moves : rules.interference state current) : Safe rules post program current := by
  cases program with
  | pure value => exact fun later follows => safe later (trans moves follows)
  | act update next => exact fun later follows => safe later (trans moves follows)

theorem Safe.weaken {post other : α → σ → Prop} (safe : Safe rules post program state)
    (implies : ∀ value current, post value current → other value current) : Safe rules other program state := by
  induction program generalizing state with
  | pure value => exact fun current moves => implies value current (safe current moves)
  | act update next ih =>
    intro current moves
    obtain ⟨valid, kept, rest⟩ := safe current moves
    exact ⟨valid, kept, ih current rest⟩

/-- Left alone, a safe program ends in its postcondition. -/
theorem Safe.run {post : α → σ → Prop} (refl : ∀ state, rules.interference state state)
    (safe : Safe rules post program state) : post (program.run state).1 (program.run state).2 := by
  induction program generalizing state with
  | pure value => exact safe state (refl state)
  | act update next ih => exact ih state (safe state (refl state)).2.2

theorem Safe.bind {rest : α → Program σ β} {middle : α → σ → Prop} {post : β → σ → Prop}
    (safe : Safe rules middle program state)
    (resume : ∀ value, Runs rules (middle value) (rest value) post) : Safe rules post (program >>= rest) state := by
  induction program generalizing state with
  | pure value => exact resume value state safe
  | act update next ih =>
    intro current moves
    obtain ⟨valid, kept, remaining⟩ := safe current moves
    exact ⟨valid, kept, ih current remaining⟩

theorem Runs.pure {pre : σ → Prop} {post : α → σ → Prop} {value : α} (holds : ∀ state, pre state → post value state) :
    Runs rules pre (Pure.pure value) post := fun _ always current moves => holds current (always current moves)

theorem Runs.bind {pre : σ → Prop} {rest : α → Program σ β} {middle : α → σ → Prop} {post : β → σ → Prop}
    (first : Runs rules pre program middle) (resume : ∀ value, Runs rules (middle value) (rest value) post) :
    Runs rules pre (program >>= rest) post := fun state always => (first state always).bind resume

theorem Runs.map {pre : σ → Prop} {f : α → β} {post : β → σ → Prop}
    (runs : Runs rules pre program fun value => post (f value)) : Runs rules pre (f <$> program) post := by
  rw [map_eq_pure_bind]
  exact runs.bind fun _ => .pure fun _ holds => holds

theorem Runs.weaken {pre : σ → Prop} {post other : α → σ → Prop} (runs : Runs rules pre program post)
    (implies : ∀ value current, post value current → other value current) : Runs rules pre program other :=
  fun state always => (runs state always).weaken implies

theorem Runs.strengthen {pre stronger : σ → Prop} {post : α → σ → Prop} (runs : Runs rules pre program post)
    (implies : ∀ current, stronger current → pre current) : Runs rules stronger program post :=
  fun state always => runs state fun current moves => implies current (always current moves)

theorem Runs.modifyGet {pre : σ → Prop} {action : σ → α × σ} {post : α → σ → Prop}
    (step : ∀ state, pre state → rules.valid state ∧ rules.guarantee state (action state).2 ∧
      rules.Always (post (action state).1) (action state).2) : Runs rules pre (modifyGet action) post :=
  fun _ always current moves => step current (always current moves)

/-- A precondition that names a witness which stays one. -/
theorem Runs.choose {ι : Type} {pre : ι → σ → Prop} {post : α → σ → Prop} (refl : ∀ state, rules.interference state state)
    (stable : ∀ index state state', rules.interference state state' → pre index state → pre index state')
    (runs : ∀ index, Runs rules (pre index) program post) : Runs rules (fun state => ∃ index, pre index state) program post := by
  intro state always
  obtain ⟨index, here⟩ := always state (refl state)
  exact runs index state fun current moves => stable index state current moves here

/-- A precondition part of which is not about the state. -/
theorem Runs.given {fact : Prop} {pre : σ → Prop} {post : α → σ → Prop} (refl : ∀ state, rules.interference state state)
    (runs : fact → Runs rules pre program post) : Runs rules (fun state => fact ∧ pre state) program post :=
  fun state always => runs (always state (refl state)).1 state fun current moves => (always current moves).2

/-- Every action of the program, wherever it is taken, is of this kind. -/
def Within (relation : σ → σ → Prop) : Program σ α → Prop
  | .pure _ => True
  | .act update next => ∀ state, relation state (update state) ∧ Within relation (next state)

variable {relation : σ → σ → Prop}

theorem Within.pure (value : α) : Within relation (Pure.pure value : Program σ α) := trivial

theorem Within.bind {rest : α → Program σ β} (first : Within relation program) (later : ∀ value, Within relation (rest value)) :
    Within relation (program >>= rest) := by
  induction program with
  | pure value => exact later value
  | act update next ih => exact fun state => ⟨(first state).1, ih state (first state).2⟩

theorem Within.map (f : α → β) (within : Within relation program) : Within relation (f <$> program) := by
  rw [map_eq_pure_bind]
  exact within.bind fun value => .pure (f value)

theorem Within.mono {wider : σ → σ → Prop} (within : Within relation program)
    (implies : ∀ state state', relation state state' → wider state state') : Within wider program := by
  induction program with
  | pure value => trivial
  | act update next ih => exact fun state => ⟨implies _ _ (within state).1, ih state (within state).2⟩

theorem Within.modifyGet {action : σ → α × σ} (step : ∀ state, relation state (action state).2) :
    Within relation (modifyGet action) := fun state => ⟨step state, trivial⟩

theorem Within.run (refl : ∀ state, relation state state)
    (trans : ∀ {first second third}, relation first second → relation second third → relation first third)
    (within : Within relation program) (state : σ) : relation state (program.run state).2 := by
  induction program generalizing state with
  | pure value => exact refl state
  | act update next ih => exact trans (within state).1 (ih state (within state).2 (update state))

/-- A program all of whose actions keep an assertion keeps it. -/
theorem Within.runs {assertion : σ → Prop} (within : Within relation program)
    (keeps : ∀ state state', relation state state' → assertion state → assertion state')
    (stable : ∀ state state', rules.interference state state' → assertion state → assertion state')
    (valid : ∀ state, assertion state → rules.valid state)
    (guarantee : ∀ state state', relation state state' → rules.guarantee state state') :
    Runs rules assertion program fun _ => assertion := by
  intro state always
  induction program generalizing state with
  | pure value => exact always
  | act update next ih =>
    intro current moves
    have here := always current moves
    obtain ⟨step, rest⟩ := within current
    exact ⟨valid current here, guarantee _ _ step, ih current rest (update current) fun later follows =>
      stable _ _ follows (keeps _ _ step here)⟩

end Program
end Kernai.Foundation
