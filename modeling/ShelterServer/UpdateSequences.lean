import ShelterServer.SupplyArithmetic

/-!
# Sequences of updates

Where a sequence of updates leaves a counter, in closed form: at the plain sum,
or at what came in since the last time the clamp was active.  The order of the
updates does not matter as long as they all add or all remove.
-/

namespace ShelterServer

open Foundations

theorem length_amountsNamed (requests : List Json) (counter : Counter) :
    (amountsNamed requests counter).length = requests.length :=
  List.length_map _

theorem amountsNamed_perm {order requests : List Json}
    (perm : order.Perm requests) (counter : Counter) :
    (amountsNamed order counter).Perm (amountsNamed requests counter) :=
  perm.map _

/-- What was added up stays within the range, once every sum did. -/
theorem add_sum_amountsNamed_le {start : Supplies} {counter : Counter}
    (nonneg : 0 ≤ start.counter counter)
    (bounded : start.counter counter ≤ intMax) {requests : List Json}
    (additions : ∀ amount ∈ amountsNamed requests counter, 0 ≤ amount)
    (sums : ∀ front request, front ++ [request] <+: requests →
      (suppliesFrom start front).counter counter +
        (request.amount counter).getD 0 ≤ intMax) :
    start.counter counter + (amountsNamed requests counter).sum ≤ intMax := by
  rw [← clampSum_of_nonneg nonneg additions,
    ← counter_suppliesFrom_eq nonneg sums]
  rcases List.eq_nil_or_concat requests with rfl | ⟨front, last, rfl⟩
  · exact bounded
  · rw [List.concat_eq_append, suppliesFrom_concat, Supplies.counter_update]
    rw [List.concat_eq_append] at sums
    rw [addAmount_eq_clampAdd (counter_suppliesFrom_nonneg nonneg front)
      (fun _ => Json.inInt_of_amount) (sums front last List.prefix_rfl)]
    exact max_le (by decide) (sums front last List.prefix_rfl)

/-- Amounts of one sign end at the same total in every order. -/
theorem counter_suppliesFrom_of_perm {start : Supplies} {counter : Counter}
    (nonneg : 0 ≤ start.counter counter)
    (bounded : start.counter counter ≤ intMax) {requests order : List Json}
    (sums : ∀ front request, front ++ [request] <+: requests →
      (suppliesFrom start front).counter counter +
        (request.amount counter).getD 0 ≤ intMax)
    (oneSign : (∀ amount ∈ amountsNamed requests counter, 0 ≤ amount) ∨
      ∀ amount ∈ amountsNamed requests counter, amount ≤ 0)
    (perm : order.Perm requests) :
    (suppliesFrom start order).counter counter =
      max 0 (start.counter counter + (amountsNamed requests counter).sum) := by
  have amounts := amountsNamed_perm perm counter
  rcases oneSign with additions | removals
  · have total := add_sum_amountsNamed_le nonneg bounded additions sums
    have ordered : ∀ amount ∈ amountsNamed order counter, 0 ≤ amount :=
      fun amount member => additions amount (amounts.subset member)
    have orderedSums := suppliesFrom_sums_le nonneg fun front amount initial =>
      clampSum_additions_le_of_nonneg nonneg ordered
        (by rwa [amounts.sum_eq]) initial
    have grown : 0 ≤ start.counter counter +
        (amountsNamed requests counter).sum :=
      add_nonneg nonneg (List.sum_nonneg additions)
    rw [counter_suppliesFrom_eq nonneg orderedSums,
      clampSum_of_nonneg nonneg ordered, amounts.sum_eq, max_eq_right grown]
  · have ordered : ∀ amount ∈ amountsNamed order counter, amount ≤ 0 :=
      fun amount member => removals amount (amounts.subset member)
    have orderedSums := suppliesFrom_sums_le nonneg fun front amount initial =>
      clampSum_additions_le_of_nonpos nonneg ordered bounded initial
    rw [counter_suppliesFrom_eq nonneg orderedSums,
      clampSum_of_nonpos nonneg ordered, amounts.sum_eq]

/-- A counter ends at the plain sum or at the largest sum that came in since
one of the updates, and in every order at the clamped plain sum if all amounts
have one sign. -/
theorem counter_suppliesFrom_closedForm {start : Supplies} {counter : Counter}
    (nonneg : 0 ≤ start.counter counter)
    (bounded : start.counter counter ≤ intMax) {requests : List Json}
    (nonempty : (Finset.Icc 1 requests.length).Nonempty)
    (sums : ∀ front request, front ++ [request] <+: requests →
      (suppliesFrom start front).counter counter +
        (request.amount counter).getD 0 ≤ intMax) :
    (suppliesFrom start requests).counter counter =
      max (start.counter counter + (amountsNamed requests counter).sum)
        ((Finset.Icc 1 requests.length).sup' nonempty fun count =>
          (amountsNamed requests counter).sum -
            ((amountsNamed requests counter).take count).sum) ∧
    ((∀ amount ∈ amountsNamed requests counter, 0 ≤ amount) ∨
        (∀ amount ∈ amountsNamed requests counter, amount ≤ 0) →
      ∀ order : List Json, order.Perm requests →
        (suppliesFrom start order).counter counter =
          max 0 (start.counter counter +
            (amountsNamed requests counter).sum)) := by
  constructor
  · rw [counter_suppliesFrom_eq nonneg sums]
    have same := length_amountsNamed requests counter
    rw [clampSum_eq_max _ (by rwa [same])]
    simp only [same]
  · intro oneSign order perm
    exact counter_suppliesFrom_of_perm nonneg bounded sums oneSign perm

/-- Of three updates of the empty stock the first finds nothing to remove. -/
theorem counter_suppliesFrom_closedForm_of_three :
    (suppliesFrom .zero [meatUpdate (-4), meatUpdate 9,
        meatUpdate (-2)]).counter .meat =
      max (0 + ([-4, 9, -2] : List Int).sum)
        ((Finset.Icc 1 3).sup' ⟨1, by decide⟩ fun count =>
          ([-4, 9, -2] : List Int).sum -
            (([-4, 9, -2] : List Int).take count).sum) ∧
    ((∀ amount ∈ ([-4, 9, -2] : List Int), 0 ≤ amount) ∨
        (∀ amount ∈ ([-4, 9, -2] : List Int), amount ≤ 0) →
      ∀ order : List Json,
        order.Perm [meatUpdate (-4), meatUpdate 9, meatUpdate (-2)] →
        (suppliesFrom .zero order).counter .meat =
          max 0 (0 + ([-4, 9, -2] : List Int).sum)) := by
  refine @counter_suppliesFrom_closedForm .zero .meat (by decide) (by decide)
    [meatUpdate (-4), meatUpdate 9, meatUpdate (-2)] ⟨1, by decide⟩ ?_
  intro front request initial
  rcases front with _ | ⟨first, _ | ⟨second, _ | ⟨third, rest⟩⟩⟩
  · obtain ⟨rfl, _⟩ := List.cons_prefix_cons.mp initial
    decide
  · obtain ⟨rfl, rest⟩ := List.cons_prefix_cons.mp initial
    obtain ⟨rfl, _⟩ := List.cons_prefix_cons.mp rest
    decide
  · obtain ⟨rfl, rest⟩ := List.cons_prefix_cons.mp initial
    obtain ⟨rfl, last⟩ := List.cons_prefix_cons.mp rest
    obtain ⟨rfl, _⟩ := List.cons_prefix_cons.mp last
    decide
  · have shorter := initial.length_le
    simp only [List.length_append, List.length_cons] at shorter
    omega

end ShelterServer
