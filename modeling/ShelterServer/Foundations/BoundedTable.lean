import Mathlib.Data.List.Basic
import Mathlib.Order.Nat

/-!
# Fixed-size tables with a live prefix

An array of fixed capacity together with the number of entries in use.  The
bound on that number is part of the type, so every index that the operations
form is checked against the capacity when they are defined.  The live prefix
is the list that a table stands for.
-/

namespace ShelterServer.Foundations

universe u

structure BoundedTable (α : Type u) (capacity : Nat) where
  slots : Vector α capacity
  count : Nat
  count_le : count ≤ capacity

namespace BoundedTable

variable {α : Type u} {capacity : Nat}

/-- The entries in use, in table order. -/
def live (table : BoundedTable α capacity) : List α :=
  table.slots.toList.take table.count

/-- Append an entry when a slot is left; otherwise leave the table alone. -/
def push (table : BoundedTable α capacity) (entry : α) :
    BoundedTable α capacity :=
  if room : table.count < capacity then
    { slots := table.slots.set table.count entry
      count := table.count + 1
      count_le := room }
  else table

/-- The shifting loop: starting at `index`, copy each of the next `moves`
entries one slot to the left. -/
def shiftLeft (slots : Vector α capacity) (index : Nat) :
    (moves : Nat) → index + moves < capacity → Vector α capacity
  | 0, _ => slots
  | moves + 1, inside =>
      shiftLeft (slots.set index slots[index + 1]) (index + 1) moves (by omega)

/-- The searching loop with `remaining` entries of the live prefix still to
inspect: at the first match the rest is shifted over it and one entry is
dropped. -/
def removeFrom (matching : α → Bool) (table : BoundedTable α capacity) :
    (remaining : Nat) → remaining ≤ table.count → BoundedTable α capacity
  | 0, _ => table
  | remaining + 1, bounded =>
      have inside := table.count_le
      have reached : table.count - (remaining + 1) < capacity := by omega
      if matching table.slots[table.count - (remaining + 1)] then
        { slots := shiftLeft table.slots (table.count - (remaining + 1))
            remaining (by omega)
          count := table.count - 1
          count_le := by omega }
      else removeFrom matching table remaining (by omega)

/-- Remove the first entry that matches, if there is one. -/
def removeFirst (matching : α → Bool) (table : BoundedTable α capacity) :
    BoundedTable α capacity :=
  removeFrom matching table table.count (Nat.le_refl _)

/-- A table whose slots all hold one value and none is in use. -/
def empty (filler : α) : BoundedTable α capacity :=
  ⟨Vector.replicate capacity filler, 0, Nat.zero_le _⟩

@[simp] theorem live_empty (filler : α) :
    (empty filler : BoundedTable α capacity).live = [] := rfl

@[simp] theorem length_live (table : BoundedTable α capacity) :
    table.live.length = table.count := by
  simp [live, table.count_le]

theorem getElem?_live (table : BoundedTable α capacity) (index : Nat) :
    table.live[index]? =
      if index < table.count then table.slots[index]? else none := by
  simp [live, List.getElem?_take]

theorem live_push_of_room {table : BoundedTable α capacity}
    (room : table.count < capacity) (entry : α) :
    (table.push entry).live = table.live ++ [entry] := by
  apply List.ext_getElem?
  intro index
  simp only [push, dif_pos room, getElem?_live, List.getElem?_append,
    length_live]
  rcases lt_trichotomy index table.count with below | equal | above
  · have next : index < table.count + 1 := by omega
    have other : table.count ≠ index := by omega
    simp [below, next, other]
  · subst index
    simp [room]
  · have notBelow : ¬ index < table.count := by omega
    have notNext : ¬ index < table.count + 1 := by omega
    have late : [entry].length ≤ index - table.count := by
      simp
      omega
    simp [notBelow, notNext, List.getElem?_eq_none late]

theorem push_of_full {table : BoundedTable α capacity}
    (full : ¬ table.count < capacity) (entry : α) :
    table.push entry = table := by
  simp [push, full]

theorem live_push (table : BoundedTable α capacity) (entry : α) :
    (table.push entry).live =
      if table.live.length < capacity then table.live ++ [entry]
      else table.live := by
  rw [length_live]
  split
  · rename_i room
    exact live_push_of_room room entry
  · rename_i full
    rw [push_of_full full]

/-- What the shifting loop leaves in each slot. -/
theorem getElem?_shiftLeft (slots : Vector α capacity) (index moves : Nat)
    (inside : index + moves < capacity) (slot : Nat) :
    (shiftLeft slots index moves inside)[slot]? =
      if index ≤ slot ∧ slot < index + moves then slots[slot + 1]?
      else slots[slot]? := by
  induction moves generalizing slots index with
  | zero =>
      have outside : ¬ (index ≤ slot ∧ slot < index + 0) := by omega
      simp only [shiftLeft, if_neg outside]
  | succ moves induction =>
      rw [shiftLeft, induction]
      by_cases here : slot = index
      · subst slot
        have notLater : ¬ (index + 1 ≤ index ∧ index < index + 1 + moves) := by
          omega
        have shifted : index ≤ index ∧ index < index + (moves + 1) := by omega
        have next : index + 1 < capacity := by omega
        rw [if_neg notLater, if_pos shifted]
        simp [next]
      · by_cases later : index + 1 ≤ slot ∧ slot < index + 1 + moves
        · have shifted : index ≤ slot ∧ slot < index + (moves + 1) := by omega
          have other : index ≠ slot + 1 := by omega
          rw [if_pos later, if_pos shifted]
          simp [other]
        · have unshifted : ¬ (index ≤ slot ∧ slot < index + (moves + 1)) := by
            omega
          rw [if_neg later, if_neg unshifted]
          simp [Ne.symm here]

private theorem live_shifted (table : BoundedTable α capacity)
    {remaining : Nat} (bounded : remaining + 1 ≤ table.count) :
    (shiftLeft table.slots (table.count - (remaining + 1)) remaining
        (by have inside := table.count_le; omega)).toList.take
        (table.count - 1) =
      table.live.eraseIdx (table.count - (remaining + 1)) := by
  apply List.ext_getElem?
  intro slot
  rw [List.getElem?_eraseIdx, getElem?_live, getElem?_live,
    List.getElem?_take, Vector.getElem?_toList, getElem?_shiftLeft]
  by_cases kept : slot < table.count - 1
  · rw [if_pos kept]
    by_cases early : slot < table.count - (remaining + 1)
    · have unshifted : ¬ (table.count - (remaining + 1) ≤ slot ∧
          slot < table.count - (remaining + 1) + remaining) := by omega
      have used : slot < table.count := by omega
      rw [if_neg unshifted, if_pos early, if_pos used]
    · have shifted : table.count - (remaining + 1) ≤ slot ∧
          slot < table.count - (remaining + 1) + remaining := by omega
      have used : slot + 1 < table.count := by omega
      rw [if_pos shifted, if_neg early, if_pos used]
  · have late : ¬ slot < table.count - (remaining + 1) := by omega
    have unused : ¬ slot + 1 < table.count := by omega
    rw [if_neg kept, if_neg late, if_neg unused]

private theorem live_removeFrom (matching : α → Bool)
    (table : BoundedTable α capacity) (remaining : Nat)
    (bounded : remaining ≤ table.count)
    (unmatched : ∀ entry,
      entry ∈ table.live.take (table.count - remaining) →
        matching entry = false) :
    (removeFrom matching table remaining bounded).live =
      table.live.eraseP matching := by
  induction remaining with
  | zero =>
      have whole : table.live.take (table.count - 0) = table.live :=
        List.take_of_length_le (by simp)
      rw [whole] at unmatched
      rw [removeFrom, List.eraseP_of_forall_not]
      intro entry member
      simp [unmatched entry member]
  | succ remaining induction =>
      have inside := table.count_le
      have reached : table.count - (remaining + 1) < capacity := by omega
      have position : table.count - (remaining + 1) < table.live.length := by
        rw [length_live]
        omega
      have entryEq :
          table.live[table.count - (remaining + 1)] =
            table.slots[table.count - (remaining + 1)] := by
        simp [live]
      rw [removeFrom]
      split
      · rename_i found
        rw [← entryEq] at found
        have splitting := List.take_append_drop
          (table.count - (remaining + 1)) table.live
        have tail := List.drop_eq_getElem_cons position
        rw [live, live_shifted table bounded, List.eraseIdx_eq_take_drop_succ]
        conv_rhs => rw [← splitting, tail]
        rw [List.eraseP_append_right]
        · rw [List.eraseP_cons_of_pos found]
        · intro entry member
          simp [unmatched entry member]
      · rename_i missed
        rw [← entryEq] at missed
        apply induction
        intro entry member
        have advance : table.count - remaining =
            table.count - (remaining + 1) + 1 := by omega
        rw [advance, List.take_succ_eq_append_getElem position,
          List.mem_append, List.mem_singleton] at member
        rcases member with earlier | rfl
        · exact unmatched entry earlier
        · simpa using missed

/-- Removal deletes the first matching entry and keeps the order of the
rest. -/
theorem live_removeFirst (matching : α → Bool)
    (table : BoundedTable α capacity) :
    (removeFirst matching table).live = table.live.eraseP matching := by
  apply live_removeFrom
  simp

end BoundedTable

end ShelterServer.Foundations
