import ShelterServer.SupplyArithmetic

/-!
# The table behind an update

What `update_supplies_from_json` is for, told without its blocks: seven pairs
of a section and a name, each with a counter of its own.  The first root member
with the section's name, if it is an object, and the first member of that
object with the counter's name, if it is a number, give the amount; letter case
is ignored in both.
-/

namespace ShelterServer

open Foundations

/-- The value of the first member of an object with a name. -/
inductive Json.FirstMember (name : Bytes) : Json → Json → Prop
  | intro {before after : List (Bytes × Json)} {key : Bytes} {value : Json}
      (missed : ∀ member ∈ before, sameIgnoringCase name member.1 = false)
      (found : sameIgnoringCase name key = true) :
      FirstMember name (.object (before ++ (key, value) :: after)) value

theorem Json.exists_members_of_getObjectItem {json value : Json}
    {name : Bytes} (found : json.getObjectItem name = some value) :
    ∃ members, json = .object members := by
  cases json with
  | object members => exact ⟨members, rfl⟩
  | _ => cases found

theorem Json.firstMember_iff {name : Bytes} {json value : Json} :
    json.FirstMember name value ↔ json.getObjectItem name = some value := by
  constructor
  · intro first
    cases first with
    | @intro before after key value missed found =>
        have nothing : before.find?
            (fun member => sameIgnoringCase name member.1) = none := by
          simpa using missed
        simp [Json.getObjectItem, List.find?_append, nothing, found]
  · intro returned
    obtain ⟨members, rfl⟩ := Json.exists_members_of_getObjectItem returned
    obtain ⟨⟨key, item⟩, first, rfl⟩ := Option.map_eq_some_iff.mp returned
    obtain ⟨found, before, after, rfl, missed⟩ :=
      List.find?_eq_some_iff_append.mp first
    exact .intro (by simpa using missed) found

/-- A request names a number with the given integer part for a counter. -/
def Json.Names (json : Json) (counter : Counter) (value : Int) : Prop :=
  ∃ resources, json.FirstMember counter.sectionKey (.object resources) ∧
    (Json.object resources).FirstMember counter.key (.number value)

theorem Json.amount_eq_some_iff {json : Json} {counter : Counter}
    {amount : Int} :
    json.amount counter = some amount ↔
      ∃ value, json.Names counter value ∧ amount = saturateInt value := by
  simp only [Json.Names, Json.firstMember_iff]
  constructor
  · intro named
    unfold Json.amount at named
    split at named
    · cases named
    · rename_i resources sectionFound
      split at named
      · cases named
      · rename_i item found
        cases item with
        | number value =>
            obtain rfl := Option.some.inj named
            obtain ⟨members, rfl⟩ :=
              Json.exists_members_of_getObjectItem found
            exact ⟨value, ⟨members, sectionFound, found⟩, rfl⟩
        | _ => cases named
  · rintro ⟨value, ⟨resources, sectionFound, found⟩, rfl⟩
    simp only [Json.amount, sectionFound, found]
    rfl

/-- Requests that name the same values for a counter name the same amount. -/
theorem Json.amount_congr {left right : Json} {counter : Counter}
    (same : ∀ value, left.Names counter value ↔ right.Names counter value) :
    left.amount counter = right.amount counter := by
  refine Option.ext fun amount => ?_
  rw [Json.amount_eq_some_iff, Json.amount_eq_some_iff]
  exact exists_congr fun value => and_congr_left fun _ => same value

/-- The outcome of an update by the table: each counter for which a number is
named receives it and is clamped at zero, and every other counter keeps its
value. -/
structure Supplies.UpdatedByTable (before : Supplies) (request : Json)
    (after : Supplies) : Prop where
  named : ∀ counter value, request.Names counter value →
    after.counter counter =
      max 0 (before.counter counter + saturateInt value)
  unnamed : ∀ counter, (∀ value, ¬ request.Names counter value) →
    after.counter counter = before.counter counter

theorem Supplies.updatedByTable_update {supplies : Supplies} {request : Json}
    (sums : ∀ counter value, request.Names counter value →
      InInt (supplies.counter counter + saturateInt value)) :
    supplies.UpdatedByTable request (supplies.update request) where
  named counter value names := by
    have amount : request.amount counter = some (saturateInt value) :=
      Json.amount_eq_some_iff.mpr ⟨value, names, rfl⟩
    rw [Supplies.counter_update, amount,
      addAmount_of_inInt (sums counter value names), clampAdd]
  unnamed counter absent := by
    have amount : request.amount counter = none := by
      rw [Option.eq_none_iff_forall_ne_some]
      intro amount named
      obtain ⟨value, names, _⟩ := Json.amount_eq_some_iff.mp named
      exact absent value names
    rw [Supplies.counter_update, amount]
    rfl

/-- An update does what the table says, and what it leaves in a counter depends
on the counter and on what the request names for it alone. -/
theorem updateSuppliesFromJson_byTable {supplies : Supplies} {request : Json}
    (sums : ∀ counter value, request.Names counter value →
      InInt (supplies.counter counter + saturateInt value)) :
    ∃ updated, updateSuppliesFromJson .granted supplies request =
        .updated updated ∧
      supplies.UpdatedByTable request updated ∧
      ∀ (others : Supplies) (other : Json) (counter : Counter),
        others.counter counter = supplies.counter counter →
        (∀ value, other.Names counter value ↔ request.Names counter value) →
        ∃ result, updateSuppliesFromJson .granted others other =
            .updated result ∧
          result.counter counter = updated.counter counter := by
  have update := @updateSuppliesFromJson_of_granted _
    SegmentAccess.granted_Granted
  refine ⟨_, update supplies request,
    Supplies.updatedByTable_update sums, ?_⟩
  intro others other counter same names
  refine ⟨_, update others other, ?_⟩
  rw [Supplies.counter_update, Supplies.counter_update, same,
    Json.amount_congr names]

/-- Two meat counters in one section, a name in capital letters, and a section
that is repeated. -/
def repeatedKeys : Json :=
  .object [
    (ascii "FOOD", .object [
      (ascii "Meat", .number 5),
      (ascii "meat", .number 7),
      (ascii "water", .string (ascii "9"))]),
    (ascii "food", .object [(ascii "fruits", .number 3)])]

theorem updateSuppliesFromJson_byTable_of_repeatedKeys :
    (∀ counter value, repeatedKeys.Names counter value →
      InInt (Supplies.zero.counter counter + saturateInt value)) ∧
    ∃ updated, updateSuppliesFromJson .granted .zero repeatedKeys =
        .updated updated ∧
      Supplies.zero.UpdatedByTable repeatedKeys updated ∧
      ∀ (others : Supplies) (other : Json) (counter : Counter),
        others.counter counter = Supplies.zero.counter counter →
        (∀ value, other.Names counter value ↔
          repeatedKeys.Names counter value) →
        ∃ result, updateSuppliesFromJson .granted others other =
            .updated result ∧
          result.counter counter = updated.counter counter := by
  have sums : ∀ counter value, repeatedKeys.Names counter value →
      InInt (Supplies.zero.counter counter + saturateInt value) := by
    intro counter value _
    rw [Supplies.counter_zero, zero_add]
    exact inInt_saturateInt value
  exact ⟨sums, updateSuppliesFromJson_byTable sums⟩

/-- Of two members with one name the first counts. -/
example : (Supplies.zero.update repeatedKeys).food = ⟨5, 0, 0, 0⟩ := by decide

end ShelterServer
