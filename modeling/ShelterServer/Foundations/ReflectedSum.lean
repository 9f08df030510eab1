import Mathlib.Algebra.BigOperators.Group.List.Basic
import Mathlib.Algebra.Order.BigOperators.Group.List
import Mathlib.Algebra.Order.Group.Defs
import Mathlib.Algebra.Order.Monoid.Unbundled.MinMax
import Mathlib.Data.Finset.Lattice.Fold
import Mathlib.Data.List.Infix
import Mathlib.Order.Interval.Finset.Nat

/-!
# Sums reflected at zero

Adding a sequence of signed amounts to an accumulator that is clamped at zero
after each addition.  An upper bound on the accumulator is the same as that
bound on every window of amounts that ends at the present, which gives the
accumulator in closed form.  Amounts of one sign may be added in any order.
-/

namespace ShelterServer.Foundations

universe u

variable {α : Type u} [AddCommGroup α] [LinearOrder α]

/-- One addition followed by the clamp. -/
def clampAdd (total amount : α) : α :=
  max 0 (total + amount)

/-- The clamped total after a sequence of amounts. -/
def clampSum (start : α) (amounts : List α) : α :=
  amounts.foldl clampAdd start

@[simp] theorem clampSum_nil (start : α) : clampSum start [] = start := rfl

theorem clampSum_concat (start : α) (amounts : List α) (amount : α) :
    clampSum start (amounts ++ [amount]) =
      clampAdd (clampSum start amounts) amount := by
  simp [clampSum]

theorem clampAdd_nonneg (total amount : α) : 0 ≤ clampAdd total amount :=
  le_max_left _ _

variable [IsOrderedAddMonoid α]

theorem clampAdd_le_iff {total amount bound : α} :
    clampAdd total amount ≤ bound ↔ 0 ≤ bound ∧ total ≤ bound - amount := by
  rw [clampAdd, max_le_iff, le_sub_iff_add_le]

private theorem suffix_concat_iff {β : Type*} {window items : List β}
    {item : β} :
    window <:+ items ++ [item] ↔
      window = [] ∨ ∃ earlier, earlier <:+ items ∧ window = earlier ++ [item] := by
  rw [List.suffix_concat_iff]
  constructor
  · rintro (rfl | ⟨earlier, rfl, inside⟩)
    · exact .inl rfl
    · exact .inr ⟨earlier, inside, by simp⟩
  · rintro (rfl | ⟨earlier, inside, rfl⟩)
    · exact .inl rfl
    · exact .inr ⟨earlier, by simp, inside⟩

/-- The clamped total is the largest sum of a window of amounts ending at the
last one. -/
theorem clampSum_zero_le_iff {amounts : List α} {bound : α} :
    clampSum 0 amounts ≤ bound ↔
      ∀ window, window <:+ amounts → window.sum ≤ bound := by
  induction amounts using List.reverseRecOn generalizing bound with
  | nil => simp
  | append_singleton amounts amount induction =>
      rw [clampSum_concat, clampAdd_le_iff, induction]
      constructor
      · rintro ⟨nonneg, earlierBound⟩ window inside
        rcases suffix_concat_iff.mp inside with rfl | ⟨earlier, suffix, rfl⟩
        · simpa using nonneg
        · have bounded := earlierBound earlier suffix
          simpa [le_sub_iff_add_le] using bounded
      · intro bounded
        constructor
        · simpa using bounded [] List.nil_suffix
        · intro earlier suffix
          have extended := bounded (earlier ++ [amount])
            (suffix_concat_iff.mpr (.inr ⟨earlier, suffix, rfl⟩))
          simpa [le_sub_iff_add_le] using extended

/-- No addition of a clamped run exceeds a nonnegative bound exactly when no
window of consecutive amounts does. -/
theorem clampSum_additions_le_iff {amounts : List α} {bound : α}
    (nonneg : 0 ≤ bound) :
    (∀ front amount, front ++ [amount] <+: amounts →
      clampSum 0 front + amount ≤ bound) ↔
      ∀ window, window <:+: amounts → window.sum ≤ bound := by
  constructor
  · rintro additions window ⟨front, back, rfl⟩
    rcases List.eq_nil_or_concat window with rfl | ⟨earlier, amount, rfl⟩
    · simpa using nonneg
    · rw [List.concat_eq_append] at additions ⊢
      have addition := additions (front ++ earlier) amount
        ⟨back, by simp [List.append_assoc]⟩
      have bounded := clampSum_zero_le_iff.mp
        (le_sub_iff_add_le.mpr addition) earlier (List.suffix_append _ _)
      simpa [le_sub_iff_add_le] using bounded
  · intro windows front amount initial
    obtain ⟨back, rfl⟩ := initial
    rw [← le_sub_iff_add_le, clampSum_zero_le_iff]
    rintro window ⟨earlier, rfl⟩
    have bounded := windows (window ++ [amount])
      ⟨earlier, back, by simp [List.append_assoc]⟩
    simpa [le_sub_iff_add_le] using bounded

/-! ## The closed form -/

/-- An upper bound on the clamped total, whatever it started from. -/
theorem clampSum_le_iff {start : α} {amounts : List α} {bound : α} :
    clampSum start amounts ≤ bound ↔
      start + amounts.sum ≤ bound ∧
        ∀ count, 1 ≤ count → count ≤ amounts.length →
          amounts.sum - (amounts.take count).sum ≤ bound := by
  induction amounts using List.reverseRecOn generalizing bound with
  | nil =>
      simp only [clampSum_nil, List.sum_nil, add_zero, List.length_nil]
      refine (and_iff_left fun count positive bounded => ?_).symm
      omega
  | append_singleton amounts amount induction =>
      rw [clampSum_concat, clampAdd_le_iff, induction, List.sum_append,
        List.sum_singleton, List.length_append, List.length_singleton]
      constructor
      · rintro ⟨nonneg, whole, windows⟩
        refine ⟨by rwa [← add_assoc, ← le_sub_iff_add_le],
          fun count positive bounded => ?_⟩
        by_cases last : count = amounts.length + 1
        · have all : (amounts ++ [amount]).take count = amounts ++ [amount] :=
            List.take_of_length_le (by simp [last])
          rwa [all, List.sum_append, List.sum_singleton, sub_self]
        · have inside : count ≤ amounts.length := by omega
          have window := windows count positive inside
          rw [List.take_append_of_le_length inside, add_sub_right_comm,
            ← le_sub_iff_add_le]
          exact window
      · rintro ⟨whole, windows⟩
        refine ⟨?_, by rwa [le_sub_iff_add_le, add_assoc],
          fun count positive bounded => ?_⟩
        · have window := windows (amounts.length + 1) (by omega) le_rfl
          rwa [List.take_of_length_le (by simp), List.sum_append,
            List.sum_singleton, sub_self] at window
        · have window := windows count positive (by omega)
          rwa [List.take_append_of_le_length bounded, add_sub_right_comm,
            ← le_sub_iff_add_le] at window

/-- The clamped total is the plain total or the largest difference between the
last prefix sum and one of the prefix sums. -/
theorem clampSum_eq_max (start : α) {amounts : List α}
    (nonempty : (Finset.Icc 1 amounts.length).Nonempty) :
    clampSum start amounts =
      max (start + amounts.sum)
        ((Finset.Icc 1 amounts.length).sup' nonempty fun count =>
          amounts.sum - (amounts.take count).sum) := by
  refine eq_of_forall_ge_iff fun bound => ?_
  rw [clampSum_le_iff, max_le_iff, Finset.sup'_le_iff]
  simp only [Finset.mem_Icc, and_imp]

/-! ## Amounts of one sign -/

theorem clampSum_of_nonneg {start : α} (nonneg : 0 ≤ start)
    {amounts : List α} (additions : ∀ amount ∈ amounts, 0 ≤ amount) :
    clampSum start amounts = start + amounts.sum := by
  induction amounts generalizing start with
  | nil => simp
  | cons amount amounts induction =>
      rw [List.forall_mem_cons] at additions
      have next : clampAdd start amount = start + amount :=
        max_eq_right (add_nonneg nonneg additions.1)
      change clampSum (clampAdd start amount) amounts = _
      rw [induction (clampAdd_nonneg _ _) additions.2, next, List.sum_cons,
        add_assoc]

private theorem sum_nonpos {amounts : List α}
    (removals : ∀ amount ∈ amounts, amount ≤ 0) : amounts.sum ≤ 0 := by
  induction amounts with
  | nil => exact le_rfl
  | cons amount amounts induction =>
      rw [List.forall_mem_cons] at removals
      rw [List.sum_cons]
      exact add_nonpos removals.1 (induction removals.2)

theorem clampSum_of_nonpos {start : α} (nonneg : 0 ≤ start)
    {amounts : List α} (removals : ∀ amount ∈ amounts, amount ≤ 0) :
    clampSum start amounts = max 0 (start + amounts.sum) := by
  induction amounts generalizing start with
  | nil => simp [nonneg]
  | cons amount amounts induction =>
      rw [List.forall_mem_cons] at removals
      have rest : amounts.sum ≤ 0 := sum_nonpos removals.2
      change clampSum (clampAdd start amount) amounts = _
      rw [induction (clampAdd_nonneg _ _) removals.2, List.sum_cons,
        ← add_assoc, clampAdd, ← max_add_add_right, ← max_assoc, zero_add,
        max_eq_left rest]

/-- A bound on the total bounds every addition of nonnegative amounts. -/
theorem clampSum_additions_le_of_nonneg {start bound : α}
    (nonneg : 0 ≤ start) {amounts : List α}
    (additions : ∀ amount ∈ amounts, 0 ≤ amount)
    (bounded : start + amounts.sum ≤ bound) {front : List α} {amount : α}
    (initial : front ++ [amount] <+: amounts) :
    clampSum start front + amount ≤ bound := by
  obtain ⟨back, rfl⟩ := initial
  have rest : 0 ≤ back.sum := List.sum_nonneg fun item member =>
    additions item (List.mem_append_right _ member)
  have earlier : clampSum start front = start + front.sum :=
    clampSum_of_nonneg nonneg fun item member => additions item (by simp [member])
  have whole : (front ++ [amount] ++ back).sum =
      front.sum + amount + back.sum := by
    simp [add_assoc]
  calc
    clampSum start front + amount = start + (front.sum + amount) := by
      rw [earlier, add_assoc]
    _ ≤ start + (front ++ [amount] ++ back).sum := by
      rw [whole]
      exact add_le_add_right (le_add_of_nonneg_right rest) start
    _ ≤ bound := bounded

/-- A bound on the start bounds every addition of amounts that are not
positive. -/
theorem clampSum_additions_le_of_nonpos {start bound : α}
    (nonneg : 0 ≤ start) {amounts : List α}
    (removals : ∀ amount ∈ amounts, amount ≤ 0) (bounded : start ≤ bound)
    {front : List α} {amount : α} (initial : front ++ [amount] <+: amounts) :
    clampSum start front + amount ≤ bound := by
  have removal : amount ≤ 0 :=
    removals amount (initial.subset (by simp))
  have earlier : front.sum ≤ 0 := sum_nonpos fun item member =>
    removals item (initial.subset (by simp [member]))
  have total : clampSum start front ≤ start := by
    rw [clampSum_of_nonpos nonneg fun item member =>
      removals item (initial.subset (by simp [member]))]
    exact max_le nonneg (add_le_of_nonpos_right earlier)
  exact (add_le_of_nonpos_right removal).trans (total.trans bounded)

end ShelterServer.Foundations
