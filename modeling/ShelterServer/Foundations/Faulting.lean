import Mathlib.Control.Lawful
import Mathlib.Order.Defs.Unbundled

/-!
# Stateful computations that may fault

A computation reads and writes a state and either returns a value or stops
with a fault; the state at the fault is kept.  Three kinds of rules are
provided, each closed under sequencing: what one execution may change, which
faults it may stop with, and how two executions from related states
correspond.
-/

namespace ShelterServer.Foundations

universe u

abbrev Faulting (Fault State : Type u) : Type u → Type u :=
  ExceptT Fault (StateM State)

namespace Faulting

variable {Fault State : Type u} {α β : Type u}

/-- The result of an execution and the state it ends in. -/
def exec (action : Faulting Fault State α) (start : State) :
    Except Fault α × State :=
  action.run.run start

@[simp] theorem exec_pure (value : α) (start : State) :
    exec (pure value : Faulting Fault State α) start = (.ok value, start) :=
  rfl

theorem exec_bind (action : Faulting Fault State α)
    (next : α → Faulting Fault State β) (start : State) :
    exec (action >>= next) start =
      match exec action start with
      | (.ok value, state) => exec (next value) state
      | (.error fault, state) => (.error fault, state) := by
  simp only [exec, ExceptT.run_bind, StateT.run_bind]
  rcases action.run.run start with ⟨result, state⟩
  cases result <;> rfl

@[simp] theorem exec_throw (fault : Fault) (start : State) :
    exec (throw fault : Faulting Fault State α) start =
      (.error fault, start) :=
  rfl

@[simp] theorem exec_get (start : State) :
    exec (get : Faulting Fault State State) start = (.ok start, start) :=
  rfl

@[simp] theorem exec_modify (change : State → State) (start : State) :
    exec (modify change : Faulting Fault State PUnit) start =
      (.ok ⟨⟩, change start) :=
  rfl

theorem pure_inj [Nonempty State] {left right : α} :
    (pure left : Faulting Fault State α) = pure right ↔ left = right := by
  constructor
  · intro same
    have ⟨start⟩ := ‹Nonempty State›
    have results := congrArg (fun action => (exec action start).1) same
    exact Except.ok.inj results
  · exact congrArg pure

theorem throw_ne_pure [Nonempty State] (fault : Fault) (value : α) :
    (throw fault : Faulting Fault State α) ≠ pure value := by
  intro same
  have ⟨start⟩ := ‹Nonempty State›
  have results := congrArg (fun action => (exec action start).1) same
  cases (show Except.error fault = .ok value from results)

theorem exec_bind_of_ok {action : Faulting Fault State α} {start state : State}
    {value : α} (returned : exec action start = (.ok value, state))
    (next : α → Faulting Fault State β) :
    exec (action >>= next) start = exec (next value) state := by
  rw [exec_bind, returned]

/-! ## What an execution may change -/

/-- Every execution relates its first state to its last. -/
def Within (relation : State → State → Prop)
    (action : Faulting Fault State α) : Prop :=
  ∀ start, relation start (exec action start).2

section Within

variable {relation : State → State → Prop}

theorem Within.pure [Std.Refl relation] (value : α) :
    Within relation (pure value : Faulting Fault State α) :=
  fun start => refl_of relation start

theorem Within.throw [Std.Refl relation] (fault : Fault) :
    Within relation (throw fault : Faulting Fault State α) :=
  fun start => refl_of relation start

theorem Within.modify {change : State → State}
    (changes : ∀ state, relation state (change state)) :
    Within relation (modify change : Faulting Fault State PUnit) :=
  changes

theorem Within.bind [IsTrans State relation]
    {action : Faulting Fault State α} {next : α → Faulting Fault State β}
    (first : Within relation action)
    (rest : ∀ value, Within relation (next value)) :
    Within relation (action >>= next) := by
  intro start
  have initial := first start
  rw [exec_bind]
  rcases executed : exec action start with ⟨result, state⟩
  rw [executed] at initial
  cases result with
  | error fault => exact initial
  | ok value => exact trans_of relation initial (rest value state)

theorem Within.get_bind {next : State → Faulting Fault State α}
    (rest : ∀ start, relation start (exec (next start) start).2) :
    Within relation (get >>= next) := by
  intro start
  rw [exec_bind_of_ok (exec_get start)]
  exact rest start

theorem Within.ite {condition : Prop} [Decidable condition]
    {yes no : Faulting Fault State α}
    (whenTrue : condition → Within relation yes)
    (whenFalse : ¬ condition → Within relation no) :
    Within relation (if condition then yes else no) := by
  split
  · exact whenTrue ‹_›
  · exact whenFalse ‹_›

theorem Within.mono {weaker : State → State → Prop}
    {action : Faulting Fault State α} (within : Within relation action)
    (implies : ∀ start state, relation start state → weaker start state) :
    Within weaker action :=
  fun start => implies start _ (within start)

end Within

/-! ## Which faults an execution may stop with -/

/-- Every fault an execution stops with is one of those allowed. -/
def FaultsOnly (allowed : Fault → Prop)
    (action : Faulting Fault State α) : Prop :=
  ∀ start fault, (exec action start).1 = .error fault → allowed fault

section FaultsOnly

variable {allowed : Fault → Prop}

theorem FaultsOnly.pure (value : α) :
    FaultsOnly allowed (pure value : Faulting Fault State α) :=
  fun _ _ stopped => nomatch stopped

theorem FaultsOnly.throw {fault : Fault} (permitted : allowed fault) :
    FaultsOnly allowed (throw fault : Faulting Fault State α) :=
  fun _ _ stopped => Except.error.inj stopped ▸ permitted

theorem FaultsOnly.modify (change : State → State) :
    FaultsOnly allowed (modify change : Faulting Fault State PUnit) :=
  fun _ _ stopped => nomatch stopped

theorem FaultsOnly.get :
    FaultsOnly allowed (get : Faulting Fault State State) :=
  fun _ _ stopped => nomatch stopped

theorem FaultsOnly.bind {action : Faulting Fault State α}
    {next : α → Faulting Fault State β} (first : FaultsOnly allowed action)
    (rest : ∀ value, FaultsOnly allowed (next value)) :
    FaultsOnly allowed (action >>= next) := by
  intro start fault stopped
  rw [exec_bind] at stopped
  rcases executed : exec action start with ⟨result, state⟩
  rw [executed] at stopped
  cases result with
  | error earlier =>
      obtain rfl : earlier = fault := Except.error.inj stopped
      exact first start earlier (by rw [executed])
  | ok value => exact rest value state fault stopped

theorem FaultsOnly.ite {condition : Prop} [Decidable condition]
    {yes no : Faulting Fault State α}
    (whenTrue : condition → FaultsOnly allowed yes)
    (whenFalse : ¬ condition → FaultsOnly allowed no) :
    FaultsOnly allowed (if condition then yes else no) := by
  split
  · exact whenTrue ‹_›
  · exact whenFalse ‹_›

/-- An execution that is allowed no fault returns a value. -/
theorem FaultsOnly.returns {action : Faulting Fault State α}
    (none : FaultsOnly (fun _ => False) action) (start : State) :
    ∃ value, (exec action start).1 = .ok value := by
  cases result : (exec action start).1 with
  | error fault => exact (none start fault result).elim
  | ok value => exact ⟨value, rfl⟩

end FaultsOnly

/-! ## Two executions from related states -/

/-- The results of two executions correspond: related values, or the same
fault. -/
def ResultsMatch (values : α → β → Prop) :
    Except Fault α → Except Fault β → Prop
  | .ok left, .ok right => values left right
  | .error left, .error right => left = right
  | _, _ => False

/-- Executions from related states have matching results and end in related
states. -/
def Coupled (related : State → State → Prop) (values : α → β → Prop)
    (left : Faulting Fault State α) (right : Faulting Fault State β) : Prop :=
  ∀ leftState rightState, related leftState rightState →
    ResultsMatch values (exec left leftState).1 (exec right rightState).1 ∧
      related (exec left leftState).2 (exec right rightState).2

section Coupled

variable {related : State → State → Prop} {values : α → β → Prop}
  {left : Faulting Fault State α} {right : Faulting Fault State β}

theorem Coupled.pure {leftValue : α} {rightValue : β}
    (same : values leftValue rightValue) :
    Coupled related values (pure leftValue : Faulting Fault State α)
      (pure rightValue) :=
  fun _ _ initial => ⟨same, initial⟩

theorem Coupled.throw (fault : Fault) :
    Coupled related values (throw fault) (throw fault) :=
  fun _ _ initial => ⟨rfl, initial⟩

theorem Coupled.modify {leftChange rightChange : State → State}
    (changes : ∀ leftState rightState, related leftState rightState →
      related (leftChange leftState) (rightChange rightState)) :
    Coupled related Eq (modify leftChange : Faulting Fault State PUnit)
      (modify rightChange) :=
  fun leftState rightState initial =>
    ⟨rfl, changes leftState rightState initial⟩

theorem Coupled.get :
    Coupled related related (get : Faulting Fault State State) get :=
  fun _ _ initial => ⟨initial, initial⟩

theorem Coupled.bind {γ δ : Type u} {results : γ → δ → Prop}
    {leftNext : α → Faulting Fault State γ}
    {rightNext : β → Faulting Fault State δ}
    (first : Coupled related values left right)
    (rest : ∀ leftValue rightValue, values leftValue rightValue →
      Coupled related results (leftNext leftValue) (rightNext rightValue)) :
    Coupled related results (left >>= leftNext) (right >>= rightNext) := by
  intro leftStart rightStart initial
  obtain ⟨matching, middle⟩ := first leftStart rightStart initial
  rw [exec_bind, exec_bind]
  rcases leftExecuted : exec left leftStart with ⟨leftResult, leftState⟩
  rcases rightExecuted : exec right rightStart with ⟨rightResult, rightState⟩
  rw [leftExecuted, rightExecuted] at matching middle
  cases leftResult with
  | error leftFault =>
      cases rightResult with
      | error rightFault => exact ⟨matching, middle⟩
      | ok rightValue => exact matching.elim
  | ok leftValue =>
      cases rightResult with
      | error rightFault => exact matching.elim
      | ok rightValue =>
          exact rest leftValue rightValue matching leftState rightState middle

/-- Two executions that return the same value go on with it. -/
theorem Coupled.bind_same {γ δ : Type u} {results : γ → δ → Prop}
    {left right : Faulting Fault State α}
    {leftNext : α → Faulting Fault State γ}
    {rightNext : α → Faulting Fault State δ}
    (first : Coupled related Eq left right)
    (rest : ∀ value,
      Coupled related results (leftNext value) (rightNext value)) :
    Coupled related results (left >>= leftNext) (right >>= rightNext) :=
  .bind first fun value _ same => same ▸ rest value

theorem Coupled.ite {condition : Prop} [Decidable condition]
    {leftElse : Faulting Fault State α} {rightElse : Faulting Fault State β}
    (whenTrue : Coupled related values left right)
    (whenFalse : Coupled related values leftElse rightElse) :
    Coupled related values (if condition then left else leftElse)
      (if condition then right else rightElse) := by
  split
  · exact whenTrue
  · exact whenFalse

end Coupled

end Faulting

end ShelterServer.Foundations
