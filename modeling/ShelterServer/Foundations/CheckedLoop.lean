import Mathlib.Order.Basic

/-!
# Loops with checked accesses

A `while` loop whose condition and body have no result where they access memory
outside of its bounds.  Its states are those at the head of the loop, numbered
by the turns that lead to them.  A loop that ends has evaluated every condition
and every body before, and a property of each numbered state is carried from
turn to turn.
-/

namespace ShelterServer.Foundations

universe u

structure CheckedLoop (State : Type u) where
  condition : State → Option Bool
  body : State → Option State

namespace CheckedLoop

variable {State : Type u} (loop : CheckedLoop State)

/-- From one head of the loop to the next; a loop that ends makes no turn. -/
def turn (state : State) : Option State :=
  (loop.condition state).bind fun more =>
    if more then loop.body state else none

/-- The state at the head of the loop after some turns. -/
def after : Nat → State → Option State
  | 0, start => some start
  | count + 1, start => (after count start).bind loop.turn

/-- The loop ends after some turns. -/
def EndsAfter (count : Nat) (start final : State) : Prop :=
  loop.after count start = some final ∧ loop.condition final = some false

/-- No access goes wrong before the loop ends or is at its head again. -/
def Proceeds (state : State) : Prop :=
  loop.condition state = some false ∨
    loop.condition state = some true ∧ ∃ next, loop.body state = some next

variable {loop} {start state final next : State} {count : Nat}

theorem after_succ (count : Nat) (start : State) :
    loop.after (count + 1) start = (loop.after count start).bind loop.turn :=
  rfl

theorem turn_eq_some_iff :
    loop.turn state = some next ↔
      loop.condition state = some true ∧ loop.body state = some next := by
  unfold turn
  cases loop.condition state with
  | none => simp
  | some more => cases more <;> simp

theorem after_succ_eq_some_iff :
    loop.after (count + 1) start = some next ↔
      ∃ state, loop.after count start = some state ∧
        loop.turn state = some next :=
  Option.bind_eq_some_iff

/-- The states before a state that is reached are reached as well. -/
theorem exists_after_of_le (reached : loop.after count start = some state)
    {earlier : Nat} (before : earlier ≤ count) :
    ∃ passed, loop.after earlier start = some passed := by
  induction count generalizing state with
  | zero =>
      obtain rfl := Nat.le_zero.mp before
      exact ⟨state, reached⟩
  | succ count induction =>
      rcases Nat.le_succ_iff.mp before with within | rfl
      · obtain ⟨previous, passed, _⟩ := after_succ_eq_some_iff.mp reached
        exact induction passed within
      · exact ⟨state, reached⟩

theorem EndsAfter.after_succ_eq_none
    (ends : loop.EndsAfter count start final) :
    loop.after (count + 1) start = none := by
  rw [after_succ, ends.1, Option.bind_some, turn, ends.2]
  rfl

/-- A state that is reached is the final one or makes a turn. -/
theorem EndsAfter.cases (ends : loop.EndsAfter count start final)
    {other : Nat} (reached : loop.after other start = some state) :
    other = count ∧ state = final ∨
      other < count ∧ ∃ next, loop.turn state = some next := by
  rcases Nat.lt_trichotomy other count with before | rfl | behind
  · obtain ⟨next, passed⟩ :=
      exists_after_of_le ends.1 (Nat.succ_le_of_lt before)
    rw [after_succ, reached] at passed
    exact Or.inr ⟨before, next, passed⟩
  · exact Or.inl ⟨rfl, Option.some.inj (reached.symm.trans ends.1)⟩
  · obtain ⟨next, passed⟩ :=
      exists_after_of_le reached (Nat.succ_le_of_lt behind)
    rw [ends.after_succ_eq_none] at passed
    cases passed

theorem EndsAfter.proceeds (ends : loop.EndsAfter count start final)
    {other : Nat} (reached : loop.after other start = some state) :
    loop.Proceeds state := by
  obtain ⟨_, rfl⟩ | ⟨_, next, moved⟩ := ends.cases reached
  · exact Or.inl ends.2
  · obtain ⟨more, moved⟩ := turn_eq_some_iff.mp moved
    exact Or.inr ⟨more, next, moved⟩

/-- What holds of each numbered state up to some turn, if every turn before
leads from one to the next. -/
theorem exists_after_of_step {tracks : Nat → State → Prop} {bound : Nat}
    (initial : tracks 0 start)
    (step : ∀ count < bound, ∀ state, loop.after count start = some state →
      tracks count state → ∃ next, loop.turn state = some next ∧
        tracks (count + 1) next)
    (within : count ≤ bound) :
    ∃ state, loop.after count start = some state ∧ tracks count state := by
  induction count with
  | zero => exact ⟨start, rfl, initial⟩
  | succ count induction =>
      obtain ⟨state, reached, tracked⟩ :=
        induction (Nat.le_of_succ_le within)
      obtain ⟨next, moved, follows⟩ := step count within state reached tracked
      exact ⟨next, after_succ_eq_some_iff.mpr ⟨state, reached, moved⟩, follows⟩

end CheckedLoop

end ShelterServer.Foundations
