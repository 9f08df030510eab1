import Mathlib.Data.List.Infix
import ShelterServer.Foundations.ByteString
import ShelterServer.Foundations.Faulting

/-!
# Text in a buffer that grows

An allocated array whose bytes count as unwritten until they are stored, and
what a writer knows about its front.  Rules for computations that reach their
goal or are refused with an excuse.
-/

namespace ShelterServer.Foundations

universe u

/-- An allocated array; `none` is a byte that was never stored. -/
abbrev Memory := List (Option UInt8)

namespace Memory

variable {memory after : Memory} {text front behind bytes : Bytes}
  {index size : Nat}

def allocate (size : Nat) : Memory :=
  List.replicate size none

/-- `realloc`: the front is kept, new bytes are not written. -/
def resize (memory : Memory) (size : Nat) : Memory :=
  memory.take size ++ allocate (size - memory.length)

/-- Bytes stored from an index on, if they are inside the array. -/
def store (memory : Memory) (index : Nat) (bytes : Bytes) : Option Memory :=
  if index + bytes.length ≤ memory.length then
    some (memory.take index ++ bytes.map some ++
      memory.drop (index + bytes.length))
  else none

/-- `strlen`, where `none` is a byte that was not written or lies outside. -/
def stringLength : Memory → Option Nat
  | [] => none
  | none :: _ => none
  | some byte :: memory =>
      if byte = 0 then some 0 else (stringLength memory).map (· + 1)

/-- The bytes of a text are stored at the front. -/
def Holds (memory : Memory) (text : Bytes) : Prop :=
  text.map some <+: memory

@[simp] theorem length_allocate (size : Nat) : (allocate size).length = size :=
  List.length_replicate

@[simp] theorem length_resize (memory : Memory) (size : Nat) :
    (memory.resize size).length = size := by
  simp only [resize, List.length_append, List.length_take, length_allocate]
  omega

theorem holds_nil (memory : Memory) : Holds memory [] :=
  List.nil_prefix

theorem Holds.length_le (holds : Holds memory text) :
    text.length ≤ memory.length := by
  simpa using List.IsPrefix.length_le holds

theorem Holds.of_append (holds : Holds memory (front ++ behind)) :
    Holds memory front := by
  rw [Holds, List.map_append] at holds
  exact (List.prefix_append _ _).trans holds

theorem Holds.resize (holds : Holds memory text) (size : Nat)
    (kept : text.length ≤ size) : Holds (memory.resize size) text := by
  have taken : text.map some <+: memory.take size := by
    rw [List.prefix_take_iff, List.length_map]
    exact ⟨holds, kept⟩
  exact taken.trans (List.prefix_append _ _)

theorem exists_store (inside : index + bytes.length ≤ memory.length) :
    ∃ after, memory.store index bytes = some after :=
  ⟨_, if_pos inside⟩

theorem length_of_store (stored : memory.store index bytes = some after) :
    after.length = memory.length := by
  unfold store at stored
  split at stored
  · rename_i inside
    rw [← Option.some.inj stored]
    simp only [List.length_append, List.length_take, List.length_map,
      List.length_drop]
    omega
  · cases stored

/-- What is stored behind the front is held with it. -/
theorem Holds.store (holds : Holds memory front)
    (stored : memory.store front.length bytes = some after) :
    Holds after (front ++ bytes) := by
  unfold Memory.store at stored
  split at stored
  · rename_i inside
    have kept : memory.take front.length = front.map some := by
      have taken := List.prefix_iff_eq_take.mp holds
      rw [List.length_map] at taken
      exact taken.symm
    rw [← Option.some.inj stored, kept, Holds, List.map_append]
    exact List.prefix_append _ _
  · cases stored

theorem stringLength_of_holds (noNul : 0 ∉ text)
    (holds : Holds memory (text ++ [0])) :
    stringLength memory = some text.length := by
  obtain ⟨rest, rfl⟩ := holds
  induction text with
  | nil => rfl
  | cons byte text induction =>
      simp only [List.mem_cons, not_or] at noNul
      have rest := induction noNul.2
      simp only [List.cons_append, List.map_cons, stringLength,
        if_neg (Ne.symm noNul.1)]
      rw [rest]
      rfl

theorem Holds.drop (holds : Holds memory (front ++ behind)) :
    Holds (memory.drop front.length) behind := by
  obtain ⟨rest, rfl⟩ := holds
  rw [List.map_append, List.append_assoc]
  have passed : (front.map some).length = front.length := List.length_map _
  rw [← passed, List.drop_left]
  exact List.prefix_append _ _

/-- An array of the size of what it holds. -/
theorem Holds.eq_of_length (holds : Holds memory text)
    (length : memory.length = text.length) : memory = text.map some := by
  refine (List.IsPrefix.eq_of_length holds ?_).symm
  rw [List.length_map, length]

end Memory

/-! ## Goals and refusals -/

section Reaches

open Faulting

variable {Fault State : Type u} {refusal : Fault} {excuse : Prop}
  {start middle stop : State → Prop}
  {first second action : Faulting Fault State PUnit}

/-- From the given states a computation returns in others, or it is refused,
for which there is an excuse. -/
def Reaches (refusal : Fault) (excuse : Prop) (start : State → Prop)
    (action : Faulting Fault State PUnit) (stop : State → Prop) : Prop :=
  ∀ state, start state →
    (∃ after, exec action state = (.ok ⟨⟩, after) ∧ stop after) ∨
      ∃ after, exec action state = (.error refusal, after) ∧ excuse

theorem Reaches.of_ok
    (returns : ∀ state, start state →
      ∃ after, exec action state = (.ok ⟨⟩, after) ∧ stop after) :
    Reaches refusal excuse start action stop :=
  fun state initial => .inl (returns state initial)

theorem Reaches.pure :
    Reaches refusal excuse start (Pure.pure PUnit.unit) start :=
  .of_ok fun state initial => ⟨state, exec_pure PUnit.unit state, initial⟩

theorem Reaches.bind
    (head : Reaches refusal excuse start first middle)
    (tail : Reaches refusal excuse middle second stop) :
    Reaches refusal excuse start (first >>= fun _ => second) stop := by
  intro state initial
  obtain ⟨after, returned, reached⟩ | ⟨after, refused, excused⟩ :=
    head state initial
  · rw [exec_bind_of_ok returned]
    exact tail after reached
  · exact .inr ⟨after, by rw [exec_bind, refused], excused⟩

theorem Reaches.mono {stronger weaker : State → Prop} {other : Prop}
    (reaches : Reaches refusal excuse start action stop)
    (before : ∀ state, stronger state → start state)
    (behind : ∀ state, stop state → weaker state) (implies : excuse → other) :
    Reaches refusal other stronger action weaker := by
  intro state initial
  obtain ⟨after, returned, reached⟩ | ⟨after, refused, excused⟩ :=
    reaches state (before state initial)
  · exact .inl ⟨after, returned, behind after reached⟩
  · exact .inr ⟨after, refused, implies excused⟩

theorem Reaches.excused {other : Prop}
    (reaches : Reaches refusal excuse start action stop)
    (implies : excuse → other) : Reaches refusal other start action stop :=
  reaches.mono (fun _ => id) (fun _ => id) implies

theorem Reaches.forget {weaker : State → Prop}
    (reaches : Reaches refusal excuse start action stop)
    (behind : ∀ state, stop state → weaker state) :
    Reaches refusal excuse start action weaker :=
  reaches.mono (fun _ => id) behind id

theorem Reaches.assuming {stronger : State → Prop}
    (reaches : Reaches refusal excuse start action stop)
    (before : ∀ state, stronger state → start state) :
    Reaches refusal excuse stronger action stop :=
  reaches.mono before (fun _ => id) id

end Reaches

end ShelterServer.Foundations
