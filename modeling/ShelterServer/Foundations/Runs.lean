import Mathlib.Data.List.Infix

/-!
# Runs of a deterministic step function

A run folds a step function over a list of events.  The rules here lift facts
about one step to a whole run: an invariant under a guard that every step of
the run meets, and the comparison of a run with the same run after its hidden
events have been purged.
-/

namespace ShelterServer.Foundations

universe u v w

variable {State : Type u} {Event : Type v}

/-- The state reached after the events of a list. -/
def run (step : State → Event → State) (start : State)
    (events : List Event) : State :=
  events.foldl step start

section Run

variable (step : State → Event → State)

@[simp] theorem run_nil (start : State) : run step start [] = start := rfl

@[simp] theorem run_cons (start : State) (event : Event)
    (events : List Event) :
    run step start (event :: events) = run step (step start event) events :=
  rfl

theorem run_append (start : State) (front back : List Event) :
    run step start (front ++ back) = run step (run step start front) back :=
  List.foldl_append

theorem run_concat (start : State) (events : List Event) (event : Event) :
    run step start (events ++ [event]) = step (run step start events) event := by
  rw [run_append]
  rfl

/-- What is seen of a run, event by event. -/
def observe {Observation : Type w}
    (view : State → Event → List Observation) :
    State → List Event → List Observation
  | _, [] => []
  | state, event :: events =>
      view state event ++ observe view (step state event) events

theorem observe_append {Observation : Type w}
    (view : State → Event → List Observation) (start : State)
    (front back : List Event) :
    observe step view start (front ++ back) =
      observe step view start front ++
        observe step view (run step start front) back := by
  induction front generalizing start with
  | nil => rfl
  | cons head front induction =>
      simp only [List.cons_append, observe, induction, List.append_assoc,
        run_cons]

theorem observe_concat {Observation : Type w}
    (view : State → Event → List Observation) (start : State)
    (events : List Event) (event : Event) :
    observe step view start (events ++ [event]) =
      observe step view start events ++
        view (run step start events) event := by
  rw [observe_append]
  simp [observe]

end Run

/-! ## Guarded runs -/

/-- Every event of the run meets its guard in the state it is handled in. -/
def GuardedRun (step : State → Event → State) (guard : State → Event → Prop) :
    State → List Event → Prop
  | _, [] => True
  | state, event :: events =>
      guard state event ∧ GuardedRun step guard (step state event) events

section Guarded

variable {step : State → Event → State} {guard : State → Event → Prop}

theorem guardedRun_append {start : State} {front back : List Event} :
    GuardedRun step guard start (front ++ back) ↔
      GuardedRun step guard start front ∧
        GuardedRun step guard (run step start front) back := by
  induction front generalizing start with
  | nil => simp [GuardedRun]
  | cons event front induction =>
      simp only [List.cons_append, GuardedRun, induction, run_cons, and_assoc]

theorem guardedRun_concat {start : State} {events : List Event}
    {event : Event} :
    GuardedRun step guard start (events ++ [event]) ↔
      GuardedRun step guard start events ∧
        guard (run step start events) event := by
  rw [guardedRun_append]
  simp [GuardedRun]

theorem GuardedRun.of_prefix {start : State} {front events : List Event}
    (guarded : GuardedRun step guard start events)
    (initial : front <+: events) : GuardedRun step guard start front := by
  obtain ⟨back, rfl⟩ := initial
  exact (guardedRun_append.mp guarded).1

theorem GuardedRun.mono {weaker : State → Event → Prop} {start : State}
    {events : List Event} (guarded : GuardedRun step guard start events)
    (implies : ∀ state event, guard state event → weaker state event) :
    GuardedRun step weaker start events := by
  induction events generalizing start with
  | nil => trivial
  | cons event events induction =>
      exact ⟨implies start event guarded.1, induction guarded.2⟩

/-- Two guards that agree where a third holds. -/
theorem GuardedRun.congr {left right : State → Event → Prop} {start : State}
    {events : List Event} (guarded : GuardedRun step guard start events)
    (same : ∀ state event, guard state event →
      (left state event ↔ right state event)) :
    GuardedRun step left start events ↔
      GuardedRun step right start events := by
  induction events generalizing start with
  | nil => exact Iff.rfl
  | cons event events induction =>
      exact and_congr (same start event guarded.1) (induction guarded.2)

/-- The guards of a run, read off at the position of each event. -/
theorem guardedRun_iff {start : State} {events : List Event} :
    GuardedRun step guard start events ↔
      ∀ front event, front ++ [event] <+: events →
        guard (run step start front) event := by
  constructor
  · intro guarded front event initial
    exact (guardedRun_concat.mp (guarded.of_prefix initial)).2
  · intro guards
    induction events generalizing start with
    | nil => trivial
    | cons event events induction =>
        refine ⟨guards [] event ⟨events, rfl⟩, induction ?_⟩
        intro front later initial
        exact guards (event :: front) later
          ((List.prefix_cons_inj event).mpr initial)

theorem GuardedRun.invariant {invariant : State → Prop}
    (preserved : ∀ state event, invariant state → guard state event →
      invariant (step state event))
    {start : State} {events : List Event}
    (guarded : GuardedRun step guard start events)
    (initial : invariant start) : invariant (run step start events) := by
  induction events generalizing start with
  | nil => exact initial
  | cons event events induction =>
      exact induction guarded.2 (preserved start event initial guarded.1)

end Guarded

/-! ## Purged runs -/

/-- Delete the events that are hidden at the point where the full run handles
them. -/
def purge (step : State → Event → State) (visible : State → Event → Bool) :
    State → List Event → List Event
  | _, [] => []
  | state, event :: events =>
      if visible state event then
        event :: purge step visible (step state event) events
      else purge step visible (step state event) events

section Purge

variable {step : State → Event → State} {visible : State → Event → Bool}

/-- Unwinding.  A relation that visible events preserve on both sides and
hidden events preserve on the left holds between a run and its purge. -/
theorem purge_related {related : State → State → Prop}
    (visibleStep : ∀ left right event, related left right →
      visible left event = true →
      related (step left event) (step right event))
    {left right : State} {events : List Event}
    (hiddenSteps : GuardedRun step
      (fun state event => visible state event = false →
        ∀ other, related state other → related (step state event) other)
      left events)
    (initial : related left right) :
    related (run step left events)
      (run step right (purge step visible left events)) := by
  induction events generalizing left right with
  | nil => exact initial
  | cons event events induction =>
      obtain ⟨hiddenHead, hiddenTail⟩ := hiddenSteps
      by_cases seen : visible left event = true
      · rw [purge, if_pos seen]
        exact induction hiddenTail (visibleStep left right event initial seen)
      · rw [purge, if_neg seen]
        have hidden : visible left event = false := by
          simpa using seen
        exact induction hiddenTail (hiddenHead hidden right initial)

end Purge

end ShelterServer.Foundations
