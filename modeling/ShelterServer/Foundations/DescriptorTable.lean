import Mathlib.Data.List.Basic
import Mathlib.Logic.Function.Basic

/-!
# Tables of descriptors

A table maps descriptors to what they refer to; free descriptors refer to
nothing.  A file is opened at the lowest free descriptor below a limit, and
fails to be opened when there is none.
-/

namespace ShelterServer.Foundations

universe u

abbrev DescriptorTable (File : Type u) := Nat → Option File

namespace DescriptorTable

variable {File : Type u} {limit : Nat}

def close (table : DescriptorTable File) (descriptor : Nat) :
    DescriptorTable File :=
  Function.update table descriptor none

def lowestFree (limit : Nat) (table : DescriptorTable File) : Option Nat :=
  (List.range limit).find? fun descriptor => (table descriptor).isNone

/-- The descriptor of the opened file, and the table with it. -/
def openLowest (limit : Nat) (table : DescriptorTable File) (file : File) :
    Option (Nat × DescriptorTable File) :=
  (table.lowestFree limit).map fun descriptor =>
    (descriptor, Function.update table descriptor (some file))

/-- Open a file and close it again. -/
def openBriefly (limit : Nat) (table : DescriptorTable File) (file : File) :
    DescriptorTable File :=
  match table.openLowest limit file with
  | none => table
  | some (descriptor, opened) => opened.close descriptor

/-- All descriptors below a bound are in use. -/
def FilledBelow (table : DescriptorTable File) (bound : Nat) : Prop :=
  ∀ lower < bound, (table lower).isSome

@[simp] theorem close_self (table : DescriptorTable File) (descriptor : Nat) :
    table.close descriptor descriptor = none :=
  Function.update_self _ _ _

theorem close_of_ne (table : DescriptorTable File) {descriptor other : Nat}
    (different : other ≠ descriptor) :
    table.close descriptor other = table other :=
  Function.update_of_ne different _ _

/-- What opening a file does. -/
structure Opened (limit : Nat) (table : DescriptorTable File) (file : File)
    (descriptor : Nat) (after : DescriptorTable File) : Prop where
  limited : descriptor < limit
  free : table descriptor = none
  lowest : table.FilledBelow descriptor
  found : after descriptor = some file
  others : ∀ other, other ≠ descriptor → after other = table other

theorem opened_of_openLowest {table after : DescriptorTable File} {file : File}
    {descriptor : Nat}
    (opens : table.openLowest limit file = some (descriptor, after)) :
    Opened limit table file descriptor after := by
  obtain ⟨lowest, search, result⟩ := Option.map_eq_some_iff.mp opens
  obtain ⟨rfl, rfl⟩ := Prod.mk.inj result
  obtain ⟨free, member, lower⟩ := List.find?_range_eq_some.mp search
  exact {
    limited := List.mem_range.mp member
    free := Option.isNone_iff_eq_none.mp free
    lowest := fun other below => by simpa using lower other below
    found := Function.update_self _ _ _
    others := fun _ different => Function.update_of_ne different _ _ }

namespace Opened

variable {table after : DescriptorTable File} {file : File} {descriptor : Nat}

/-- A descriptor that was in use still refers to the same file. -/
theorem keeps (opened : Opened limit table file descriptor after)
    {other : Nat} (used : (table other).isSome) : after other = table other := by
  refine opened.others other fun same => ?_
  rw [same, opened.free] at used
  cases used

theorem keeps_file (opened : Opened limit table file descriptor after)
    {other : Nat} {kept : File} (found : table other = some kept) :
    after other = some kept := by
  rw [opened.keeps (by rw [found]; rfl), found]

theorem le_of_filledBelow (opened : Opened limit table file descriptor after)
    {bound : Nat} (filled : table.FilledBelow bound) : bound ≤ descriptor := by
  by_contra below
  have used := filled descriptor (Nat.lt_of_not_le below)
  rw [opened.free] at used
  cases used

theorem filledBelow (opened : Opened limit table file descriptor after) :
    after.FilledBelow (descriptor + 1) := by
  intro lower below
  rcases Nat.lt_succ_iff_lt_or_eq.mp below with below | rfl
  · rw [opened.keeps (opened.lowest lower below)]
    exact opened.lowest lower below
  · rw [opened.found]
    rfl

/-- Closing what was just opened restores the table. -/
theorem close_eq (opened : Opened limit table file descriptor after) :
    after.close descriptor = table := by
  funext other
  by_cases same : other = descriptor
  · rw [same, close_self, opened.free]
  · rw [close_of_ne _ same, opened.others other same]

end Opened

@[simp] theorem openBriefly_eq (table : DescriptorTable File) (file : File) :
    table.openBriefly limit file = table := by
  unfold openBriefly
  split
  · rfl
  · exact (opened_of_openLowest ‹_›).close_eq

end DescriptorTable

end ShelterServer.Foundations
