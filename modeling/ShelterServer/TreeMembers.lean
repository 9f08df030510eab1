import ShelterServer.TreeOwnership

/-!
# Looking up members of a tree in memory

`cJSON_GetObjectItem` returns the item of the first member whose name is the
same but for letter case, as `getObjectItem` does, and changes nothing.
-/

namespace ShelterServer

open Foundations Faulting Assertion

/-! ## Searching -/

section Search

variable {name : Bytes} {elements : List Element} {element : Element}
  {first before last : Option Address}

def Element.isNamed (name : Bytes) (element : Element) : Bool :=
  match element.name with
  | none => false
  | some string => sameIgnoringCase name string

/-- The first item of that name, between those in front of it, which have other
names, and those behind it. -/
def foundIn (name : Bytes) (elements : List Element)
    (first before last : Option Address) : Option Address → Assertion Block
  | none =>
      fact (∀ element ∈ elements, element.isNamed name = false) *
        chain elements first before last none
  | some address =>
      ⨆ front : List Element, ⨆ element : Element, ⨆ back : List Element,
        fact (elements = front ++ element :: back ∧
            element.isNamed name = true ∧
            ∀ other ∈ front, other.isNamed name = false) *
          around front element back first before last none address

/-- Passing over an item of another name. -/
theorem foundIn_cons_le {address : Address} {item : Item}
    (other : element.isNamed name = false) (follows : item.Follows before)
    (result : Option Address) :
    itemHeld element address item *
        foundIn name elements item.next (some address) last result ≤
      foundIn name (element :: elements) (some address) before last result := by
  cases result with
  | none =>
      rw [foundIn, mul_left_comm]
      refine fact_mul_le.mpr fun others => ?_
      exact le_fact_mul (List.forall_mem_cons.mpr ⟨other, others⟩)
        (le_chain_cons follows)
  | some place =>
      simp only [foundIn, Assertion.mul_iSup]
      refine iSup_le fun front => iSup₂_le fun found back => ?_
      rw [mul_left_comm]
      refine fact_mul_le.mpr ?_
      rintro ⟨rfl, named, others⟩
      refine le_iSup_of_le (element :: front) (le_iSup₂_of_le found back ?_)
      exact le_fact_mul
        ⟨rfl, named, List.forall_mem_cons.mpr ⟨other, others⟩⟩
        (around_cons_le follows)

theorem triple_namesItem (name : Bytes) (element : Element) (item : Item) :
    Triple (textHeld element.name item.string) (namesItem name item)
      fun named => fact (named = element.isNamed name) *
        textHeld element.name item.string := by
  rcases element with ⟨string, held⟩
  cases string with
  | none =>
      rw [textHeld, ← mul_one (fact (item.string = none))]
      refine Triple.fact_mul fun null => ?_
      rw [namesItem, null]
      exact .pure (le_fact_mul rfl (le_fact_mul rfl le_rfl))
  | some string =>
      refine Triple.iSup fun address => Triple.fact_mul fun found => ?_
      rw [namesItem, found]
      refine (triple_loadText address string).bind fun bytes => ?_
      refine Triple.fact_mul ?_
      rintro rfl
      refine .pure (le_fact_mul rfl ?_)
      exact le_iSup_of_le address (le_fact_mul rfl le_rfl)

theorem triple_findItem {turns : Nat} (enough : elements.length ≤ turns) :
    Triple (chain elements first before last none) (findItem name turns first)
      (foundIn name elements first before last) := by
  induction elements generalizing turns first before with
  | nil =>
      rw [chain, ← mul_one (fact _)]
      refine Triple.fact_mul ?_
      rintro ⟨rfl, rfl⟩
      unfold findItem
      refine .pure (le_fact_mul (List.forall_mem_nil _) ?_)
      exact (fact_eq_one ⟨rfl, rfl⟩).ge
  | cons element elements induction =>
      cases turns with
      | zero => cases enough
      | succ turns =>
          refine Triple.chain_cons fun address item found follows => ?_
          subst found
          let behind := chain elements item.next (some address) last none
          let named := textHeld element.name item.string
          have apart : owns address (Block.item item) *
              (named * element.held item.toItemValue * behind) =
              named * (owns address (Block.item item) *
                (element.held item.toItemValue * behind)) := by
            rw [mul_assoc, mul_left_comm]
          have together : named * (owns address (Block.item item) *
              (element.held item.toItemValue * behind)) =
              itemHeld element address item * behind := by
            rw [itemHeld, mul_assoc, ← apart]
          rw [findItem, itemHeld, mul_assoc]
          refine triple_loadItem_bind ?_
          rw [apart]
          refine (triple_namesItem name element item).bind_frame fun found => ?_
          rw [mul_assoc, together]
          refine Triple.fact_mul ?_
          rintro rfl
          split
          · rename_i matched
            refine .pure (le_iSup_of_le [] (le_iSup₂_of_le element elements ?_))
            exact le_fact_mul ⟨rfl, matched, List.forall_mem_nil _⟩
              (around_nil_le follows)
          · rename_i other
            have later : Triple behind (findItem name turns item.next)
                (foundIn name elements item.next (some address) last) :=
              induction (Nat.le_of_succ_le_succ enough)
            rw [mul_comm]
            refine (later.frame (itemHeld element address item)).consequence
              le_rfl fun result => ?_
            rw [mul_comm]
            exact foundIn_cons_le (Bool.eq_false_iff.mpr other) follows result

end Search

/-! ## Reading -/

theorem within_loadItem (pointer : Option Address) :
    Within Eq (loadItem pointer) := by
  refine .bind (within_loadBlock pointer) fun block => ?_
  cases block with
  | item item => exact .pure _
  | text bytes => exact .throw _

theorem within_loadText (pointer : Option Address) :
    Within Eq (loadText pointer) := by
  refine .bind (within_loadBlock pointer) fun block => ?_
  cases block with
  | item item => exact .throw _
  | text bytes => exact .pure _

theorem within_namesItem (name : Bytes) (item : Item) :
    Within Eq (namesItem name item) := by
  unfold namesItem
  split
  · exact .pure _
  · exact .bind (within_loadText _) fun _ => .pure _

theorem within_findItem (name : Bytes) (turns : Nat)
    (pointer : Option Address) : Within Eq (findItem name turns pointer) := by
  induction turns generalizing pointer with
  | zero =>
      cases pointer with
      | none => exact .pure _
      | some address => exact .throw _
  | succ turns induction =>
      cases pointer with
      | none => exact .pure _
      | some address =>
          refine .bind (within_loadItem _) fun item => ?_
          refine .bind (within_namesItem name item) fun named => ?_
          exact .ite (fun _ => .pure _) fun _ => induction item.next

theorem within_cJSONGetObjectItem (turns : Nat) (object : Option Address)
    (name : Bytes) : Within Eq (cJSONGetObjectItem turns object name) :=
  .bind (within_loadItem object) fun _ => within_findItem name turns _

/-! ## Members -/

/-- The items below that of a tree. -/
def Json.elements : Json → List Element
  | .array items => itemElements items
  | .object members => memberElements members
  | _ => []

/-- The item of a tree, which is no member of another. -/
def Item.Alone (item : Item) : Prop :=
  item.Follows none ∧ item.next = none ∧ item.string = none

/-- The memory of an object, with one of its members at an address. -/
def memberAt (front : List (Bytes × Json)) (member : Bytes × Json)
    (back : List (Bytes × Json)) (address found : Address) :
    Assertion Block :=
  ⨆ root : Item, ⨆ last : Option Address,
    fact (root.Alone ∧ root.type = .object ∧ root.valuestring = none) *
      (owns address (.item root) *
        around (memberElements front) ⟨some member.1, member.2.held⟩
          (memberElements back) root.child last last none found)

/-- The first member of that name, in the memory of its object. -/
def memberFound (json : Json) (name : Bytes) (address : Address) :
    Option Address → Assertion Block
  | none => fact (json.getObjectItem name = none) * json.tree (some address)
  | some found =>
      ⨆ front : List (Bytes × Json), ⨆ member : Bytes × Json,
        ⨆ back : List (Bytes × Json),
          fact (json = .object (front ++ member :: back) ∧
              json.getObjectItem name = some member.2 ∧
              sameIgnoringCase name member.1 = true ∧
              ∀ other ∈ front, sameIgnoringCase name other.1 = false) *
            memberAt front member back address found

section Lookup

variable {json : Json} {name : Bytes} {address : Address} {root : Item}

theorem children_nil {child : Option Address} :
    children [] child = fact (child = none) := by
  refine le_antisymm (iSup_le fun last => ?_) (le_iSup_of_le none ?_)
  · exact iSup_mono' fun empty => ⟨empty.1, le_rfl⟩
  · exact iSup_mono' fun empty => ⟨⟨empty, rfl⟩, le_rfl⟩

/-- The memory below an item, apart from the linked items. -/
def Json.beside : Json → ItemValue → Assertion Block
  | .array _, value => fact (value.type = .array ∧ value.valuestring = none)
  | .object _, value => fact (value.type = .object ∧ value.valuestring = none)
  | json, value => json.held value

theorem Json.held_eq (json : Json) (value : ItemValue) :
    json.held value =
      json.beside value * children json.elements value.child := by
  have childless : ∀ {assertion : Assertion Block},
      assertion ≤ fact (value.child = none) * assertion →
      assertion = assertion * children [] value.child := by
    intro assertion le
    rw [children_nil]
    refine le_antisymm (le.trans (mul_comm _ _).le) ?_
    rw [mul_comm]
    exact fact_mul_le.mpr fun _ => le_rfl
  have scalar : ∀ {statement : Prop}, (statement → value.child = none) →
      (fact statement : Assertion Block) =
        fact statement * children [] value.child :=
    fun none => childless
      (iSup_le fun holds =>
        le_fact_mul (none holds) (fact_eq_one holds).ge)
  cases json with
  | null => exact scalar fun holds => holds.2.2
  | bool value =>
      cases value with
      | false => exact scalar fun holds => holds.2.2.2
      | true => exact scalar fun holds => holds.2.2.2
  | number number => exact scalar fun holds => holds.2.2.2.2
  | string string =>
      exact childless (fact_mul_le.mpr fun holds =>
        le_fact_mul holds.2 (le_fact_mul holds le_rfl))
  | array items => rfl
  | object members => rfl

theorem owns_le_chain {held : ItemValue → Assertion Block}
    (alone : root.Alone) :
    owns address (.item root) * held root.toItemValue ≤
      chain [⟨none, held⟩] (some address) none (some address) none := by
  have whole : itemHeld ⟨none, held⟩ address root ≤
      chain [⟨none, held⟩] (some address) none (some address) root.next :=
    le_chain_singleton alone.1
  rwa [itemHeld, textHeld, fact_eq_one alone.2.2, one_mul, alone.2.1] at whole

theorem Json.tree_eq (json : Json) (address : Address) :
    json.tree (some address) =
      ⨆ root : Item, fact root.Alone *
        (owns address (.item root) * json.held root.toItemValue) := by
  refine le_antisymm ?_ (iSup_le fun root => fact_mul_le.mpr owns_le_chain)
  refine iSup₂_le fun place root => fact_mul_le.mpr ?_
  rintro ⟨found, follows⟩
  obtain rfl := Option.some_inj.mp found
  rw [itemHeld, chain, mul_comm]
  refine fact_mul_le.mpr fun alone => ?_
  rw [mul_left_comm]
  refine fact_mul_le.mpr fun nameless => ?_
  exact le_iSup_of_le root (le_fact_mul ⟨follows, alone.1, nameless⟩ le_rfl)

theorem memberElements_append (front back : List (Bytes × Json)) :
    memberElements (front ++ back) =
      memberElements front ++ memberElements back := by
  simp only [memberElements_eq, List.map_append]

/-- An object with a member at an address is the tree of the object. -/
theorem memberAt_le {front back : List (Bytes × Json)}
    {member : Bytes × Json} {found : Address} :
    memberAt front member back address found ≤
      (Json.object (front ++ member :: back)).tree (some address) := by
  rw [Json.tree_eq]
  refine iSup₂_le fun root last => fact_mul_le.mpr ?_
  rintro ⟨alone, type⟩
  refine le_iSup_of_le root (le_fact_mul alone (mul_le_mul_right ?_ _))
  refine le_fact_mul type ?_
  rw [memberElements_append]
  exact around_le.trans (le_iSup
    (fun last => chain _ root.child last last none) last)

theorem isNamed_memberElements (name : Bytes) (members : List (Bytes × Json)) :
    (∀ element ∈ memberElements members, element.isNamed name = false) ↔
      ∀ member ∈ members, sameIgnoringCase name member.1 = false := by
  rw [memberElements_eq, List.forall_mem_map]
  rfl

theorem Json.getObjectItem_eq_none
    (others : ∀ element ∈ json.elements, element.isNamed name = false) :
    json.getObjectItem name = none := by
  cases json with
  | object members =>
      have unnamed := (isNamed_memberElements name members).mp others
      rw [getObjectItem, List.find?_eq_none.mpr fun member inside =>
        Bool.eq_false_iff.mp (unnamed member inside)]
      rfl
  | _ => rfl

/-- A named item stands for a member. -/
theorem Json.exists_member {front back : List Element} {element : Element}
    (split : json.elements = front ++ element :: back)
    (named : element.isNamed name = true) :
    ∃ before string value after,
      json = .object (before ++ (string, value) :: after) ∧
      front = memberElements before ∧ element = ⟨some string, value.held⟩ ∧
      back = memberElements after := by
  cases json with
  | object members =>
      rw [elements, memberElements_eq] at split
      obtain ⟨before, rest, rfl, rfl, tail⟩ := List.map_eq_append_iff.mp split
      obtain ⟨⟨string, value⟩, after, rfl, rfl, rfl⟩ :=
        List.map_eq_cons_iff.mp tail
      refine ⟨before, string, value, after, rfl, ?_, rfl, ?_⟩ <;>
        rw [memberElements_eq]
  | array items =>
      rw [elements, itemElements_eq] at split
      have inside : element ∈ items.map fun item => ⟨none, item.held⟩ := by
        rw [split]
        exact List.mem_append_right _ List.mem_cons_self
      obtain ⟨item, _, rfl⟩ := List.mem_map.mp inside
      cases named
  | _ => exact (List.append_ne_nil_of_right_ne_nil _
      (List.cons_ne_nil _ _) split.symm).elim

theorem foundIn_le_memberFound {last : Option Address} (alone : root.Alone)
    (result : Option Address) :
    owns address (.item root) * json.beside root.toItemValue *
        foundIn name json.elements root.child last last result ≤
      memberFound json name address result := by
  cases result with
  | none =>
      rw [foundIn, mul_left_comm]
      refine fact_mul_le.mpr fun others => ?_
      refine le_fact_mul (Json.getObjectItem_eq_none others) ?_
      rw [json.tree_eq]
      refine le_iSup_of_le root (le_fact_mul alone ?_)
      rw [json.held_eq, ← mul_assoc]
      exact mul_le_mul_right
        (le_iSup (fun last => chain json.elements root.child last last none)
          last) _
  | some found =>
      simp only [foundIn, Assertion.mul_iSup]
      refine iSup_le fun front => iSup₂_le fun element back => ?_
      rw [mul_left_comm]
      refine fact_mul_le.mpr ?_
      rintro ⟨split, named, others⟩
      obtain ⟨before, string, value, after, rfl, rfl, rfl, rfl⟩ :=
        Json.exists_member split named
      rw [isNamed_memberElements] at others
      rw [Json.beside, mul_assoc, mul_left_comm]
      refine fact_mul_le.mpr fun type => ?_
      have first : (before ++ (string, value) :: after).find?
          (fun member => sameIgnoringCase name member.1) =
            some (string, value) :=
        List.find?_eq_some_iff_append.mpr ⟨named, before, after, rfl,
          fun member inside => by rw [others member inside]; rfl⟩
      have lookup : Json.getObjectItem
          (.object (before ++ (string, value) :: after)) name = some value := by
        rw [Json.getObjectItem, first]
        rfl
      refine le_iSup_of_le before (le_iSup₂_of_le (string, value) after ?_)
      refine le_fact_mul ⟨rfl, lookup, named, others⟩ ?_
      exact le_iSup₂_of_le root last (le_fact_mul ⟨alone, type⟩ le_rfl)

theorem Json.triple_getObjectItem {turns : Nat}
    (enough : json.elements.length ≤ turns) :
    Triple (json.tree (some address))
      (cJSONGetObjectItem turns (some address) name)
      (memberFound json name address) := by
  rw [json.tree_eq]
  refine Triple.iSup fun root => Triple.fact_mul fun alone => ?_
  refine triple_loadItem_bind ?_
  rw [json.held_eq, ← mul_assoc, mul_comm]
  refine Triple.iSup_mul fun last => ?_
  refine ((triple_findItem enough).frame _).consequence le_rfl fun result => ?_
  rw [mul_comm]
  exact foundIn_le_memberFound alone result

/-- On a tree in memory, `cJSON_GetObjectItem` returns the item of the first
member whose name is the same but for letter case, or NULL where there is none;
it leaves all of the memory as it has found it. -/
theorem cJSONGetObjectItem_findsMember {turns : Nat}
    (enough : json.elements.length ≤ turns) (name : Bytes)
    {rest : Assertion Block} {heap : Heap Block}
    (holds : (json.tree (some address) * rest).Holds heap.cells) :
    ∃ result,
      exec (cJSONGetObjectItem turns (some address) name) heap =
        (.ok result, heap) ∧
      (memberFound json name address result * rest).Holds heap.cells :=
  (Json.triple_getObjectItem enough).exec_of_within
    (within_cJSONGetObjectItem turns (some address) name) holds

theorem cJSONGetObjectItem_findsMember_example :
    ∃ result,
      exec (cJSONGetObjectItem 2 (some 1) (ascii "MEAT")) exampleHeap =
        (.ok result, exampleHeap) ∧
      (memberFound exampleTree (ascii "MEAT") 1 result *
        owns 7 (Block.text [])).Holds exampleHeap.cells :=
  cJSONGetObjectItem_findsMember le_rfl (ascii "MEAT") holds_exampleHeap

end Lookup

end ShelterServer
