import Mathlib.Algebra.Ring.Int.Defs
import ShelterServer.Supplies
import ShelterServer.Foundations.ClampedLedger
import ShelterServer.Foundations.Runs

/-!
# Arithmetic of the supply counters

The counters follow the abstract ledger as long as no addition leaves the
`int` range.  The clamp keeps them nonnegative, so an addition can only leave
the range upwards, and it does so exactly when some window of consecutive
amounts for one counter sums to more than `INT_MAX`.
-/

namespace ShelterServer

open Foundations

/-- The contents of the segments whichever way the update ended. -/
def UpdateResult.supplies : UpdateResult → Supplies
  | .updated supplies => supplies
  | .nullAccess supplies => supplies

def SegmentAccess.granted : SegmentAccess := ⟨true, true⟩

theorem SegmentAccess.granted_Granted : SegmentAccess.granted.Granted :=
  ⟨rfl, rfl⟩

/-- The segments after an initialisation over earlier contents and a sequence
of update requests, with all attach calls succeeding. -/
def suppliesAfter (earlier : Supplies) (requests : List Json) : Supplies :=
  run (fun supplies request =>
      (updateSuppliesFromJson .granted supplies request).supplies)
    (initSharedMemorySupplies .granted earlier) requests

/-- The segments after a sequence of update requests from given contents. -/
def suppliesFrom (start : Supplies) (requests : List Json) : Supplies :=
  run (fun supplies request =>
      (updateSuppliesFromJson .granted supplies request).supplies)
    start requests

/-- What one addition `counter += valueint` should achieve. -/
structure ExactAddition (old amount new : Int) : Prop where
  representable : InInt (old + amount)
  result : new = max 0 (old + amount)
  monotone : 0 ≤ amount → old ≤ new

/-- Every addition that a sequence of update requests causes is exact. -/
def ExactUpdates (earlier : Supplies) (requests : List Json) : Prop :=
  ∀ front request, front ++ [request] <+: requests →
    ∀ counter amount, request.amount counter = some amount →
      ExactAddition ((suppliesAfter earlier front).counter counter) amount
        ((suppliesAfter earlier (front ++ [request])).counter counter)

/-- The amounts that the requests name for a counter, in request order and
zero where a request does not name it. -/
def amountsNamed (requests : List Json) (counter : Counter) : List Int :=
  requests.map fun request => (request.amount counter).getD 0

@[simp] theorem suppliesFrom_nil (start : Supplies) :
    suppliesFrom start [] = start := rfl

theorem suppliesFrom_concat (start : Supplies) (requests : List Json)
    (request : Json) :
    suppliesFrom start (requests ++ [request]) =
      (suppliesFrom start requests).update request := by
  rw [suppliesFrom, run_concat,
    updateSuppliesFromJson_of_granted SegmentAccess.granted_Granted]
  rfl

theorem suppliesAfter_eq_suppliesFrom (earlier : Supplies)
    (requests : List Json) :
    suppliesAfter earlier requests = suppliesFrom .zero requests := by
  rw [suppliesAfter,
    initSharedMemorySupplies_of_granted SegmentAccess.granted_Granted]
  rfl

theorem suppliesAfter_nil (earlier : Supplies) :
    suppliesAfter earlier [] = .zero :=
  initSharedMemorySupplies_of_granted SegmentAccess.granted_Granted earlier

theorem suppliesAfter_concat (earlier : Supplies) (requests : List Json)
    (request : Json) :
    suppliesAfter earlier (requests ++ [request]) =
      (suppliesAfter earlier requests).update request := by
  rw [suppliesAfter, run_concat,
    updateSuppliesFromJson_of_granted SegmentAccess.granted_Granted]
  rfl

theorem addAmount_nonneg {counter : Int} (nonneg : 0 ≤ counter)
    (amount : Option Int) : 0 ≤ addAmount amount counter := by
  cases amount with
  | none => exact nonneg
  | some amount =>
      simp only [addAmount]
      split <;> omega

theorem addAmount_le_intMax {counter : Int} (bounded : counter ≤ intMax)
    (amount : Option Int) : addAmount amount counter ≤ intMax := by
  cases amount with
  | none => exact bounded
  | some amount =>
      have representable := inInt_wrapInt (counter + amount)
      simp only [addAmount]
      split
      · decide
      · exact representable.2

/-- In range, a block of the update is one posting to a clamped total. -/
theorem addAmount_of_inInt {counter amount : Int}
    (representable : InInt (counter + amount)) :
    addAmount (some amount) counter = clampAdd counter amount := by
  simp only [addAmount, wrapInt_of_inInt representable, clampAdd]
  split <;> omega

theorem inInt_add_of_le {counter amount : Int} (nonneg : 0 ≤ counter)
    (representable : InInt amount) (bounded : counter + amount ≤ intMax) :
    InInt (counter + amount) := by
  refine ⟨?_, bounded⟩
  have lower := representable.1
  omega

/-- The clamp keeps every counter between zero and `INT_MAX`, whatever the
requests. -/
theorem counter_suppliesAfter_bounds (earlier : Supplies)
    (requests : List Json) (counter : Counter) :
    0 ≤ (suppliesAfter earlier requests).counter counter ∧
      (suppliesAfter earlier requests).counter counter ≤ intMax := by
  induction requests using List.reverseRecOn with
  | nil =>
      rw [suppliesAfter_nil, Supplies.counter_zero]
      decide
  | append_singleton requests request induction =>
      rw [suppliesAfter_concat, Supplies.counter_update]
      exact ⟨addAmount_nonneg induction.1 _, addAmount_le_intMax induction.2 _⟩

theorem amountsNamed_concat (requests : List Json) (request : Json)
    (counter : Counter) :
    amountsNamed (requests ++ [request]) counter =
      amountsNamed requests counter ++ [(request.amount counter).getD 0] := by
  simp [amountsNamed]

theorem counter_suppliesFrom_nonneg {start : Supplies} {counter : Counter}
    (nonneg : 0 ≤ start.counter counter) (requests : List Json) :
    0 ≤ (suppliesFrom start requests).counter counter := by
  induction requests using List.reverseRecOn with
  | nil => exact nonneg
  | append_singleton requests request induction =>
      rw [suppliesFrom_concat, Supplies.counter_update]
      exact addAmount_nonneg induction _

/-- One request, as long as its sum stays within the range. -/
theorem addAmount_eq_clampAdd {counter : Int} (nonneg : 0 ≤ counter)
    {amount : Option Int} (representable : ∀ added, amount = some added →
      InInt added) (sum : counter + amount.getD 0 ≤ intMax) :
    addAmount amount counter = clampAdd counter (amount.getD 0) := by
  cases amount with
  | none =>
      rw [Option.getD_none, clampAdd, add_zero, max_eq_right nonneg]
      rfl
  | some added =>
      exact addAmount_of_inInt
        (inInt_add_of_le nonneg (representable added rfl) sum)

/-- As long as the sums stay within the range, the counters are clamped
sums. -/
theorem counter_suppliesFrom_eq {start : Supplies} {counter : Counter}
    (nonneg : 0 ≤ start.counter counter) {requests : List Json}
    (sums : ∀ front request, front ++ [request] <+: requests →
      (suppliesFrom start front).counter counter +
        (request.amount counter).getD 0 ≤ intMax) :
    (suppliesFrom start requests).counter counter =
      clampSum (start.counter counter) (amountsNamed requests counter) := by
  induction requests using List.reverseRecOn with
  | nil => rfl
  | append_singleton requests request induction =>
      have same := induction fun front earlier initial =>
        sums front earlier (initial.trans (List.prefix_append _ _))
      have next := addAmount_eq_clampAdd
        (counter_suppliesFrom_nonneg nonneg requests)
        (fun _ => Json.inInt_of_amount) (sums requests request List.prefix_rfl)
      rw [suppliesFrom_concat, Supplies.counter_update, next, same,
        amountsNamed_concat, clampSum_concat]

/-- The sums stay within the range if the clamped sums do. -/
theorem suppliesFrom_sums_le {start : Supplies} {counter : Counter}
    (nonneg : 0 ≤ start.counter counter) {requests : List Json}
    (additions : ∀ front amount,
      front ++ [amount] <+: amountsNamed requests counter →
        clampSum (start.counter counter) front + amount ≤ intMax) :
    ∀ front request, front ++ [request] <+: requests →
      (suppliesFrom start front).counter counter +
        (request.amount counter).getD 0 ≤ intMax := by
  induction requests using List.reverseRecOn with
  | nil =>
      intro front request initial
      simp at initial
  | append_singleton requests last induction =>
      rw [amountsNamed_concat] at additions
      have sums := induction fun front amount initial =>
        additions front amount (initial.trans (List.prefix_append _ _))
      intro front request initial
      rcases List.prefix_concat_iff.mp initial with whole | earlier
      · obtain ⟨rfl, same⟩ := List.append_inj' whole rfl
        obtain rfl := List.singleton_inj.mp same
        rw [counter_suppliesFrom_eq nonneg sums]
        exact additions _ _ List.prefix_rfl
      · exact sums front request earlier

/-- Exact additions keep the sums within the range. -/
private theorem sums_le_of_exact {earlier : Supplies} {requests : List Json}
    (exactUpdates : ExactUpdates earlier requests) (counter : Counter)
    (front : List Json) (request : Json)
    (initial : front ++ [request] <+: requests) :
    (suppliesFrom .zero front).counter counter +
      (request.amount counter).getD 0 ≤ intMax := by
  rw [← suppliesAfter_eq_suppliesFrom earlier]
  cases named : request.amount counter with
  | none =>
      simpa using (counter_suppliesAfter_bounds earlier front counter).2
  | some amount =>
      exact (exactUpdates front request initial counter amount
        named).representable.2

private theorem addition_le_of_exact {earlier : Supplies}
    {requests : List Json} (exactUpdates : ExactUpdates earlier requests)
    {counter : Counter} {front : List Int} {amount : Int}
    (initial : front ++ [amount] <+: amountsNamed requests counter) :
    clampSum 0 front + amount ≤ intMax := by
  obtain ⟨handled, initialRequests, mapped⟩ := List.prefix_map_iff.mp initial
  rcases List.eq_nil_or_concat handled with rfl | ⟨handled, request, rfl⟩
  · simp at mapped
  · rw [List.concat_eq_append] at initialRequests mapped
    rw [List.map_append, List.map_singleton] at mapped
    obtain ⟨rfl, sameAmount⟩ := List.append_inj' mapped rfl
    have sums := sums_le_of_exact exactUpdates counter
    have same := counter_suppliesFrom_eq
      (le_of_eq (Supplies.counter_zero counter).symm)
      fun front earlier inside => sums front earlier
        (inside.trans ((List.prefix_append _ _).trans initialRequests))
    rw [Supplies.counter_zero, amountsNamed] at same
    rw [← same, List.singleton_inj.mp sameAmount]
    exact sums handled request initialRequests

/-- An addition is exact when its sum stays within the range. -/
private theorem exactAddition_of_le {earlier : Supplies}
    {front : List Json} {request : Json} {counter : Counter} {amount : Int}
    (named : request.amount counter = some amount)
    (sum : (suppliesAfter earlier front).counter counter + amount ≤ intMax) :
    ExactAddition ((suppliesAfter earlier front).counter counter) amount
      ((suppliesAfter earlier (front ++ [request])).counter counter) := by
  have bounds := counter_suppliesAfter_bounds earlier front counter
  have representable :=
    inInt_add_of_le bounds.1 (Json.inInt_of_amount named) sum
  have result : (suppliesAfter earlier (front ++ [request])).counter counter =
      max 0 ((suppliesAfter earlier front).counter counter + amount) := by
    rw [suppliesAfter_concat, Supplies.counter_update, named,
      addAmount_of_inInt representable]
    rfl
  refine ⟨representable, result, fun nonneg => ?_⟩
  rw [result]
  omega

/-- All additions of a sequence of update requests are exact if and only if no
window of consecutive amounts for one counter sums to more than `INT_MAX`. -/
theorem exactUpdates_iff (earlier : Supplies) (requests : List Json) :
    ExactUpdates earlier requests ↔
      ∀ counter window, window <:+: amountsNamed requests counter →
        window.sum ≤ intMax := by
  constructor
  · intro exactUpdates counter
    apply (clampSum_additions_le_iff (by decide)).mp
    intro front amount initial
    exact addition_le_of_exact exactUpdates initial
  · intro windows front request initial counter amount named
    apply exactAddition_of_le named
    have zero := Supplies.counter_zero counter
    have sums := suppliesFrom_sums_le (le_of_eq zero.symm)
      fun earlierFront earlierAmount inside => by
        rw [zero]
        exact (clampSum_additions_le_iff (by decide)).mpr (windows counter)
          earlierFront earlierAmount inside
    have sum := sums front request initial
    rwa [← suppliesAfter_eq_suppliesFrom earlier, named,
      Option.getD_some] at sum

/-- A request that adds one amount to the meat counter. -/
def meatUpdate (amount : Int) : Json :=
  .object [(ascii "message", .string (ascii "update")),
    (ascii "food", .object [(ascii "meat", .number amount)])]

/-- Two nonnegative updates bring the meat counter from `INT_MAX` to zero. -/
theorem not_exactUpdates_of_full_counter :
    ¬ ∀ earlier requests, ExactUpdates earlier requests := by
  intro exactUpdates
  have addition := exactUpdates .zero [meatUpdate intMax, meatUpdate 1]
    [meatUpdate intMax] (meatUpdate 1) List.prefix_rfl .meat 1 (by decide)
  have lowered := addition.monotone (by decide)
  revert lowered
  decide

end ShelterServer
