import ShelterServer.Json

/-!
# The supplies module

The two shared-memory segments with the food and medicine counters, their
initialisation, the update from a JSON request and the conversion to a JSON
reply.  The pointers that the attach functions return are modelled by whether
each of them is non-NULL.
-/

namespace ShelterServer

open Foundations

structure FoodSupply where
  meat : Int
  vegetables : Int
  fruits : Int
  water : Int
deriving DecidableEq

structure MedicineSupply where
  antibiotics : Int
  analgesics : Int
  bandages : Int
deriving DecidableEq

/-- The contents of both segments. -/
structure Supplies where
  food : FoodSupply
  medicine : MedicineSupply
deriving DecidableEq

/-- Whether `get_food_supply` and `get_medicine_supply` return a pointer. -/
structure SegmentAccess where
  food : Bool
  medicine : Bool

def SegmentAccess.Granted (access : SegmentAccess) : Prop :=
  access.food = true ∧ access.medicine = true

instance (access : SegmentAccess) : Decidable access.Granted :=
  inferInstanceAs (Decidable (_ ∧ _))

/-- `init_shared_memory_supplies`.  The segments may hold the values of an
earlier process; a failing attach leaves the rest of them as they are. -/
def initSharedMemorySupplies (access : SegmentAccess) (segments : Supplies) :
    Supplies :=
  if access.food then
    let segments := { segments with food := ⟨0, 0, 0, 0⟩ }
    if access.medicine then { segments with medicine := ⟨0, 0, 0⟩ }
    else segments
  else segments

/-- The supplies after an initialisation whose attach calls succeed. -/
def Supplies.zero : Supplies := ⟨⟨0, 0, 0, 0⟩, ⟨0, 0, 0⟩⟩

theorem initSharedMemorySupplies_of_granted {access : SegmentAccess}
    (granted : access.Granted) (segments : Supplies) :
    initSharedMemorySupplies access segments = .zero := by
  simp [initSharedMemorySupplies, granted.1, granted.2, Supplies.zero]

/-! ## Updates -/

/-- One of the seven blocks of `update_supplies_from_json`: the looked-up item
is added to its counter if it is a number, and the result is clamped. -/
def addItem (item : Option Json) (counter : Int) : Int :=
  match item with
  | none => counter
  | some item =>
      if item.isNumber then
        let sum := wrapInt (counter + item.valueint)
        if sum < 0 then 0 else sum
      else counter

/-- The four food blocks. -/
def updateFood (foodObject : Json) (food : FoodSupply) : FoodSupply :=
  let food := { food with
    fruits := addItem (foodObject.getObjectItem (ascii "fruits")) food.fruits }
  let food := { food with
    vegetables :=
      addItem (foodObject.getObjectItem (ascii "vegetables")) food.vegetables }
  let food := { food with
    meat := addItem (foodObject.getObjectItem (ascii "meat")) food.meat }
  { food with
    water := addItem (foodObject.getObjectItem (ascii "water")) food.water }

/-- The three medicine blocks. -/
def updateMedicine (medicineObject : Json) (medicine : MedicineSupply) :
    MedicineSupply :=
  let medicine := { medicine with
    antibiotics :=
      addItem (medicineObject.getObjectItem (ascii "antibiotics"))
        medicine.antibiotics }
  let medicine := { medicine with
    analgesics :=
      addItem (medicineObject.getObjectItem (ascii "analgesics"))
        medicine.analgesics }
  { medicine with
    bandages :=
      addItem (medicineObject.getObjectItem (ascii "bandages"))
        medicine.bandages }

/-- Some block would touch its counter. -/
def namesNumber (resources : Json) (names : List Bytes) : Bool :=
  names.any fun name =>
    match resources.getObjectItem name with
    | none => false
    | some item => item.isNumber

/-- How an update ends: it returns, or it accesses a counter through a NULL
pointer. -/
inductive UpdateResult where
  | updated (supplies : Supplies)
  | nullAccess (supplies : Supplies)

/-- The part of `update_supplies_from_json` guarded by the `"food"` member. -/
def updateFoodSection (attached : Bool) (supplies : Supplies) (json : Json) :
    UpdateResult :=
  match json.getObjectItem (ascii "food") with
  | none => .updated supplies
  | some foodObject =>
      if foodObject.isObject then
        if attached then
          .updated { supplies with food := updateFood foodObject supplies.food }
        else if namesNumber foodObject
            [ascii "fruits", ascii "vegetables", ascii "meat", ascii "water"] then
          .nullAccess supplies
        else .updated supplies
      else .updated supplies

/-- The part guarded by the `"medicine"` member. -/
def updateMedicineSection (attached : Bool) (supplies : Supplies)
    (json : Json) : UpdateResult :=
  match json.getObjectItem (ascii "medicine") with
  | none => .updated supplies
  | some medicineObject =>
      if medicineObject.isObject then
        if attached then
          .updated { supplies with
            medicine := updateMedicine medicineObject supplies.medicine }
        else if namesNumber medicineObject
            [ascii "antibiotics", ascii "analgesics", ascii "bandages"] then
          .nullAccess supplies
        else .updated supplies
      else .updated supplies

def updateSuppliesFromJson (access : SegmentAccess) (supplies : Supplies)
    (json : Json) : UpdateResult :=
  match updateFoodSection access.food supplies json with
  | .nullAccess supplies => .nullAccess supplies
  | .updated supplies => updateMedicineSection access.medicine supplies json

/-! ## Replies -/

/-- `convert_supplies_to_json`; `none` when it reads through a NULL pointer. -/
def convertSuppliesToJson (access : SegmentAccess) (supplies : Supplies) :
    Option Json :=
  if access.food then
    if access.medicine then
      some (.object [
        (ascii "food", .object [
          (ascii "meat", .number supplies.food.meat),
          (ascii "vegetables", .number supplies.food.vegetables),
          (ascii "fruits", .number supplies.food.fruits),
          (ascii "water", .number supplies.food.water)]),
        (ascii "medicine", .object [
          (ascii "antibiotics", .number supplies.medicine.antibiotics),
          (ascii "analgesics", .number supplies.medicine.analgesics),
          (ascii "bandages", .number supplies.medicine.bandages)])])
    else none
  else none

theorem convertSuppliesToJson_of_granted {access : SegmentAccess}
    (granted : access.Granted) (supplies : Supplies) :
    ∃ json, convertSuppliesToJson access supplies = some json := by
  rw [convertSuppliesToJson, if_pos granted.1, if_pos granted.2]
  exact ⟨_, rfl⟩

theorem convertSuppliesToJson_of_not_granted {access : SegmentAccess}
    (refused : ¬ access.Granted) (supplies : Supplies) :
    convertSuppliesToJson access supplies = none := by
  unfold convertSuppliesToJson
  split
  · split
    · exact (refused ⟨‹_›, ‹_›⟩).elim
    · rfl
  · rfl

/-! ## The seven counters -/

inductive Counter where
  | meat
  | vegetables
  | fruits
  | water
  | antibiotics
  | analgesics
  | bandages
deriving DecidableEq

namespace Counter

/-- The member of a request or reply that holds the counter's section. -/
def sectionKey : Counter → Bytes
  | .meat | .vegetables | .fruits | .water => ascii "food"
  | .antibiotics | .analgesics | .bandages => ascii "medicine"

/-- The counter's own key within its section. -/
def key : Counter → Bytes
  | .meat => ascii "meat"
  | .vegetables => ascii "vegetables"
  | .fruits => ascii "fruits"
  | .water => ascii "water"
  | .antibiotics => ascii "antibiotics"
  | .analgesics => ascii "analgesics"
  | .bandages => ascii "bandages"

end Counter

def Supplies.counter (supplies : Supplies) : Counter → Int
  | .meat => supplies.food.meat
  | .vegetables => supplies.food.vegetables
  | .fruits => supplies.food.fruits
  | .water => supplies.food.water
  | .antibiotics => supplies.medicine.antibiotics
  | .analgesics => supplies.medicine.analgesics
  | .bandages => supplies.medicine.bandages

@[simp] theorem Supplies.counter_zero (counter : Counter) :
    Supplies.zero.counter counter = 0 := by
  cases counter <;> rfl

/-- The amount that a request names for a counter: its section is an object
whose first member with the counter's key is a number. -/
def Json.amount (json : Json) (counter : Counter) : Option Int :=
  match json.getObjectItem counter.sectionKey with
  | none => none
  | some resources =>
      match resources.getObjectItem counter.key with
      | none => none
      | some item => if item.isNumber then some item.valueint else none

theorem Json.inInt_of_amount {json : Json} {counter : Counter} {amount : Int}
    (named : json.amount counter = some amount) : InInt amount := by
  unfold Json.amount at named
  split at named
  · simp at named
  · split at named
    · simp at named
    · rename_i item _
      split at named
      · obtain rfl := Option.some.inj named
        exact item.inInt_valueint
      · simp at named

/-- What an update with both segments attached leaves in a counter. -/
def addAmount (amount : Option Int) (counter : Int) : Int :=
  match amount with
  | none => counter
  | some amount =>
      let sum := wrapInt (counter + amount)
      if sum < 0 then 0 else sum

theorem addItem_eq_addAmount (item : Option Json) (counter : Int) :
    addItem item counter =
      addAmount
        (match item with
          | none => none
          | some item => if item.isNumber then some item.valueint else none)
        counter := by
  cases item with
  | none => rfl
  | some item =>
      cases number : item.isNumber <;> simp [addItem, addAmount, number]

theorem updateFood_of_not_isObject {resources : Json}
    (scalar : resources.isObject = false) (food : FoodSupply) :
    updateFood resources food = food := by
  simp [updateFood, resources.getObjectItem_of_not_isObject scalar, addItem]

theorem updateMedicine_of_not_isObject {resources : Json}
    (scalar : resources.isObject = false) (medicine : MedicineSupply) :
    updateMedicine resources medicine = medicine := by
  simp [updateMedicine, resources.getObjectItem_of_not_isObject scalar, addItem]

/-- The supplies after an update with both segments attached. -/
def Supplies.update (supplies : Supplies) (json : Json) : Supplies where
  food :=
    match json.getObjectItem (ascii "food") with
    | none => supplies.food
    | some foodObject => updateFood foodObject supplies.food
  medicine :=
    match json.getObjectItem (ascii "medicine") with
    | none => supplies.medicine
    | some medicineObject => updateMedicine medicineObject supplies.medicine

private theorem updateFoodSection_attached (supplies : Supplies) (json : Json) :
    updateFoodSection true supplies json =
      .updated { supplies with food := (supplies.update json).food } := by
  unfold updateFoodSection Supplies.update
  cases json.getObjectItem (ascii "food") with
  | none => rfl
  | some foodObject =>
      cases object : foodObject.isObject with
      | true => simp [object]
      | false => simp [object, updateFood_of_not_isObject object]

private theorem updateMedicineSection_attached (supplies : Supplies)
    (json : Json) :
    updateMedicineSection true supplies json =
      .updated { supplies with medicine := (supplies.update json).medicine } := by
  unfold updateMedicineSection Supplies.update
  cases json.getObjectItem (ascii "medicine") with
  | none => rfl
  | some medicineObject =>
      cases object : medicineObject.isObject with
      | true => simp [object]
      | false => simp [object, updateMedicine_of_not_isObject object]

theorem updateSuppliesFromJson_of_granted {access : SegmentAccess}
    (granted : access.Granted) (supplies : Supplies) (json : Json) :
    updateSuppliesFromJson access supplies json =
      .updated (supplies.update json) := by
  rw [updateSuppliesFromJson, granted.1, granted.2,
    updateFoodSection_attached]
  exact updateMedicineSection_attached _ json

/-- Every counter receives exactly the amount that the request names for
it. -/
theorem Supplies.counter_update (supplies : Supplies) (json : Json)
    (counter : Counter) :
    (supplies.update json).counter counter =
      addAmount (json.amount counter) (supplies.counter counter) := by
  cases food : json.getObjectItem (ascii "food") <;>
    cases medicine : json.getObjectItem (ascii "medicine") <;>
    cases counter <;>
    simp [Supplies.update, Supplies.counter, Json.amount, Counter.sectionKey,
      Counter.key, food, medicine, updateFood, updateMedicine,
      addItem_eq_addAmount, addAmount] <;>
    rfl

/-! ## Updates that leave the counters alone -/

/-- The segment that holds a counter is attached. -/
def SegmentAccess.holds (access : SegmentAccess) : Counter → Bool
  | .meat | .vegetables | .fruits | .water => access.food
  | .antibiotics | .analgesics | .bandages => access.medicine

/-- Every amount that a request names is for a counter whose segment is
attached, and adding it changes nothing. -/
def Supplies.Unaffected (supplies : Supplies) (access : SegmentAccess)
    (json : Json) : Prop :=
  ∀ counter amount, json.amount counter = some amount →
    access.holds counter = true ∧
      addAmount (some amount) (supplies.counter counter) =
        supplies.counter counter

def Counter.foods : List Counter := [.fruits, .vegetables, .meat, .water]

def Counter.medicines : List Counter := [.antibiotics, .analgesics, .bandages]

/-- One section of a request leaves its counters alone. -/
def Supplies.SectionUnaffected (supplies : Supplies) (attached : Bool)
    (counters : List Counter) (json : Json) : Prop :=
  ∀ counter ∈ counters, ∀ amount, json.amount counter = some amount →
    attached = true ∧
      addAmount (some amount) (supplies.counter counter) =
        supplies.counter counter

theorem Supplies.unaffected_iff {supplies : Supplies} {access : SegmentAccess}
    {json : Json} :
    supplies.Unaffected access json ↔
      supplies.SectionUnaffected access.food Counter.foods json ∧
        supplies.SectionUnaffected access.medicine Counter.medicines json := by
  constructor
  · intro unaffected
    refine ⟨fun counter member => ?_, fun counter member => ?_⟩
    · have held : access.holds counter = access.food := by
        revert member
        cases counter <;> simp [Counter.foods, SegmentAccess.holds]
      exact held ▸ unaffected counter
    · have held : access.holds counter = access.medicine := by
        revert member
        cases counter <;> simp [Counter.medicines, SegmentAccess.holds]
      exact held ▸ unaffected counter
  · rintro ⟨foods, medicines⟩ counter
    cases counter with
    | meat => exact foods .meat (by decide)
    | vegetables => exact foods .vegetables (by decide)
    | fruits => exact foods .fruits (by decide)
    | water => exact foods .water (by decide)
    | antibiotics => exact medicines .antibiotics (by decide)
    | analgesics => exact medicines .analgesics (by decide)
    | bandages => exact medicines .bandages (by decide)

theorem Supplies.sectionUnaffected_attached_iff {supplies : Supplies}
    {counters : List Counter} {json : Json} :
    supplies.SectionUnaffected true counters json ↔
      ∀ counter ∈ counters,
        (supplies.update json).counter counter = supplies.counter counter := by
  refine forall₂_congr fun counter _ => ?_
  rw [Supplies.counter_update]
  cases json.amount counter with
  | none => simp [addAmount]
  | some amount => simp

theorem namesNumber_map_key {json resources : Json} {sectionName : Bytes}
    {counters : List Counter} (found : json.getObjectItem sectionName =
      some resources) (same : ∀ counter ∈ counters,
        counter.sectionKey = sectionName) :
    namesNumber resources (counters.map Counter.key) = false ↔
      ∀ counter ∈ counters, json.amount counter = none := by
  rw [namesNumber, List.any_map, List.any_eq_false]
  refine forall₂_congr fun counter member => ?_
  simp only [Json.amount, same counter member, found, Function.comp_apply]
  cases resources.getObjectItem counter.key with
  | none => simp
  | some item => simp

/-- A section without a segment leaves the counters alone if none of its
items is a number. -/
theorem Supplies.sectionUnaffected_detached_iff {supplies : Supplies}
    {sectionName : Bytes} {counters : List Counter} {json : Json}
    (same : ∀ counter ∈ counters, counter.sectionKey = sectionName) :
    supplies.SectionUnaffected false counters json ↔
      ∀ resources, json.getObjectItem sectionName = some resources →
        resources.isObject = true →
          namesNumber resources (counters.map Counter.key) = false := by
  have unnamed : supplies.SectionUnaffected false counters json ↔
      ∀ counter ∈ counters, json.amount counter = none := by
    refine forall₂_congr fun counter _ => ?_
    cases json.amount counter <;> simp
  rw [unnamed]
  constructor
  · intro absent resources found _
    exact (namesNumber_map_key found same).mpr absent
  · intro numbers counter member
    cases found : json.getObjectItem sectionName with
    | none => rw [Json.amount, same counter member, found]
    | some resources =>
        cases object : resources.isObject with
        | false =>
            simp only [Json.amount, same counter member, found,
              resources.getObjectItem_of_not_isObject object]
        | true =>
            exact (namesNumber_map_key found same).mp
              (numbers resources found object) counter member

theorem medicine_updateFoodSection {attached : Bool}
    {supplies updated : Supplies} {json : Json}
    (returned : updateFoodSection attached supplies json = .updated updated) :
    updated.medicine = supplies.medicine := by
  unfold updateFoodSection at returned
  split at returned
  · cases returned
    rfl
  · split at returned
    · split at returned
      · cases returned
        rfl
      · split at returned
        · cases returned
        · cases returned
          rfl
    · cases returned
      rfl

theorem food_updateMedicineSection {attached : Bool}
    {supplies updated : Supplies} {json : Json}
    (returned : updateMedicineSection attached supplies json =
      .updated updated) :
    updated.food = supplies.food := by
  unfold updateMedicineSection at returned
  split at returned
  · cases returned
    rfl
  · split at returned
    · split at returned
      · cases returned
        rfl
      · split at returned
        · cases returned
        · cases returned
          rfl
    · cases returned
      rfl

theorem updateFoodSection_eq_self_iff {attached : Bool} {supplies : Supplies}
    {json : Json} :
    updateFoodSection attached supplies json = .updated supplies ↔
      supplies.SectionUnaffected attached Counter.foods json := by
  cases attached with
  | true =>
      rw [updateFoodSection_attached, Supplies.sectionUnaffected_attached_iff]
      rcases supplies with ⟨⟨meat, vegetables, fruits, water⟩, medicine⟩
      rcases food : (Supplies.update ⟨⟨meat, vegetables, fruits, water⟩,
        medicine⟩ json).food with ⟨meat', vegetables', fruits', water'⟩
      simp only [UpdateResult.updated.injEq, Supplies.mk.injEq,
        FoodSupply.mk.injEq, and_true, Counter.foods, List.forall_mem_cons,
        Supplies.counter, food, List.not_mem_nil, false_imp_iff, implies_true]
      tauto
  | false =>
      have keys : ∀ counter ∈ Counter.foods,
          counter.sectionKey = ascii "food" := by decide
      rw [Supplies.sectionUnaffected_detached_iff keys, updateFoodSection]
      cases json.getObjectItem (ascii "food") with
      | none => simp
      | some resources =>
          simp only [Option.some.injEq, forall_eq', Bool.false_eq_true, if_false]
          change _ ↔ (_ → namesNumber resources [ascii "fruits",
            ascii "vegetables", ascii "meat", ascii "water"] = false)
          split
          · split <;> simp_all
          · simp_all

theorem updateMedicineSection_eq_self_iff {attached : Bool}
    {supplies : Supplies} {json : Json} :
    updateMedicineSection attached supplies json = .updated supplies ↔
      supplies.SectionUnaffected attached Counter.medicines json := by
  cases attached with
  | true =>
      rw [updateMedicineSection_attached,
        Supplies.sectionUnaffected_attached_iff]
      rcases supplies with ⟨food, ⟨antibiotics, analgesics, bandages⟩⟩
      rcases medicine : (Supplies.update ⟨food,
        ⟨antibiotics, analgesics, bandages⟩⟩ json).medicine with
        ⟨antibiotics', analgesics', bandages'⟩
      simp only [UpdateResult.updated.injEq, Supplies.mk.injEq,
        MedicineSupply.mk.injEq, true_and, Counter.medicines,
        List.forall_mem_cons, Supplies.counter, medicine, List.not_mem_nil,
        false_imp_iff, implies_true, and_true]
  | false =>
      have keys : ∀ counter ∈ Counter.medicines,
          counter.sectionKey = ascii "medicine" := by decide
      rw [Supplies.sectionUnaffected_detached_iff keys, updateMedicineSection]
      cases json.getObjectItem (ascii "medicine") with
      | none => simp
      | some resources =>
          simp only [Option.some.injEq, forall_eq', Bool.false_eq_true, if_false]
          change _ ↔ (_ → namesNumber resources [ascii "antibiotics",
            ascii "analgesics", ascii "bandages"] = false)
          split
          · split <;> simp_all
          · simp_all

/-- An update leaves the counters alone and accesses none of them through NULL
if and only if its request does not affect them. -/
theorem updateSuppliesFromJson_eq_self_iff {access : SegmentAccess}
    {supplies : Supplies} {json : Json} :
    updateSuppliesFromJson access supplies json = .updated supplies ↔
      supplies.Unaffected access json := by
  rw [Supplies.unaffected_iff, ← updateFoodSection_eq_self_iff,
    ← updateMedicineSection_eq_self_iff, updateSuppliesFromJson]
  constructor
  · intro whole
    cases first : updateFoodSection access.food supplies json with
    | nullAccess stopped => simp [first] at whole
    | updated middle =>
        simp only [first] at whole
        have medicine := medicine_updateFoodSection first
        have food := food_updateMedicineSection whole
        have same : middle = supplies := by
          rcases middle with ⟨_, _⟩
          rcases supplies with ⟨_, _⟩
          simp_all
        exact ⟨by rw [same], same ▸ whole⟩
  · rintro ⟨food, medicine⟩
    rw [food]
    exact medicine

end ShelterServer
