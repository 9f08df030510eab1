import ShelterServer.JsonHeap
import ShelterServer.JsonTexts

/-!
# The memory of a tree

The items of an array or object are linked in both directions, and the first
one refers back to the last.  What an item says about its value stands for a
tree together with the memory that belongs to it.
-/

namespace ShelterServer

open Foundations Assertion

/-! ## Linked items -/

/-- An item of a list: its name, and the memory of its value. -/
structure Element where
  name : Option Bytes
  held : ItemValue → Assertion Block

/-- A string of its own, or NULL. -/
def textHeld : Option Bytes → Option Address → Assertion Block
  | none, pointer => fact (pointer = none)
  | some bytes, pointer =>
      ⨆ address, fact (pointer = some address) * owns address (.text bytes)

/-- An item and what belongs to it. -/
def itemHeld (element : Element) (address : Address) (item : Item) :
    Assertion Block :=
  owns address (.item item) *
    (textHeld element.name item.string * element.held item.toItemValue)

/-- An item whose strings are its own, behind another. -/
def Item.Follows (item : Item) (before : Option Address) : Prop :=
  item.prev = before ∧ item.isReference = false ∧ item.stringIsConst = false

/-- Items from the first to the last, between the one in front of them and the
one behind. -/
def chain : List Element → (first before last after : Option Address) →
    Assertion Block
  | [], first, before, last, after => fact (first = after ∧ before = last)
  | element :: elements, first, before, last, after =>
      ⨆ address, ⨆ item : Item,
        fact (first = some address ∧ item.Follows before) *
          (itemHeld element address item *
            chain elements item.next (some address) last after)

/-- The items in front of one, the item, and those behind it. -/
def around (front : List Element) (element : Element) (back : List Element)
    (first before last after : Option Address) (address : Address) :
    Assertion Block :=
  ⨆ link, ⨆ item : Item,
    fact (item.Follows link) *
      (chain front first before link (some address) *
        (itemHeld element address item *
          chain back item.next (some address) last after))

/-- The items of an array or object. -/
def children (elements : List Element) (child : Option Address) :
    Assertion Block :=
  ⨆ last, chain elements child last last none

mutual

/-- The memory of a tree, but for the item that stands for it. -/
def Json.held : Json → ItemValue → Assertion Block
  | .null, value =>
      fact (value.type = .null ∧ value.valuestring = none ∧ value.child = none)
  | .bool true, value =>
      fact (value.type = .true ∧ value.valueint = 1 ∧
        value.valuestring = none ∧ value.child = none)
  | .bool false, value =>
      fact (value.type = .false ∧ value.valueint = 0 ∧
        value.valuestring = none ∧ value.child = none)
  | .number number, value =>
      fact (value.type = .number ∧ value.valuedouble = number ∧
        value.valueint = saturateInt number ∧ value.valuestring = none ∧
        value.child = none)
  | .string string, value =>
      fact (value.type = .string ∧ value.child = none) *
        textHeld (some string) value.valuestring
  | .array items, value =>
      fact (value.type = .array ∧ value.valuestring = none) *
        children (itemElements items) value.child
  | .object members, value =>
      fact (value.type = .object ∧ value.valuestring = none) *
        children (memberElements members) value.child

def itemElements : List Json → List Element
  | [] => []
  | item :: items => ⟨none, item.held⟩ :: itemElements items

def memberElements : List (Bytes × Json) → List Element
  | [] => []
  | (name, value) :: members =>
      ⟨some name, value.held⟩ :: memberElements members

end

/-- A tree of its own. -/
def Json.tree (json : Json) (pointer : Option Address) : Assertion Block :=
  chain [⟨none, json.held⟩] pointer none pointer none

/-! ## Lists -/

section Chain

variable {elements more : List Element} {element : Element}
  {first before last after : Option Address} {address : Address} {item : Item}

theorem owns_le_textHeld (address : Address) (bytes : Bytes) :
    owns address (.text bytes) ≤ textHeld (some bytes) (some address) :=
  le_iSup_of_le address (le_fact_mul rfl le_rfl)

theorem le_chain_cons (follows : item.Follows before) :
    itemHeld element address item *
        chain elements item.next (some address) last after ≤
      chain (element :: elements) (some address) before last after := by
  rw [chain]
  exact le_iSup₂_of_le address item (le_fact_mul ⟨rfl, follows⟩ le_rfl)

theorem le_chain_singleton (follows : item.Follows before) :
    itemHeld element address item ≤
      chain [element] (some address) before (some address) item.next := by
  refine le_trans ?_ (le_chain_cons follows)
  rw [chain, fact_eq_one ⟨rfl, rfl⟩, mul_one]

/-- A list of items is taken apart at its first. -/
theorem Triple.chain_cons {α : Type} {program : Trees α}
    {result : α → Assertion Block}
    (each : ∀ address item, first = some address → item.Follows before →
      Triple (itemHeld element address item *
        chain elements item.next (some address) last after) program result) :
    Triple (chain (element :: elements) first before last after) program
      result :=
  Triple.iSup fun address => Triple.iSup fun item =>
    Triple.fact_mul fun found => each address item found.1 found.2

theorem chain_append :
    chain (elements ++ more) first before last after =
      ⨆ middle, ⨆ link, chain elements first before link middle *
        chain more middle link last after := by
  induction elements generalizing first before with
  | nil =>
      refine le_antisymm ?_ ?_
      · exact le_iSup₂_of_le first before (le_fact_mul ⟨rfl, rfl⟩ le_rfl)
      · refine iSup₂_le fun middle link => fact_mul_le.mpr ?_
        rintro ⟨rfl, rfl⟩
        exact le_rfl
  | cons element elements induction =>
      rw [List.cons_append]
      refine le_antisymm ?_ ?_
      · rw [chain]
        refine iSup₂_le fun address item => fact_mul_le.mpr ?_
        rintro ⟨rfl, follows⟩
        simp only [induction, Assertion.mul_iSup]
        refine iSup₂_le fun middle link => le_iSup₂_of_le middle link ?_
        rw [← mul_assoc]
        exact mul_le_mul_left (le_chain_cons follows) _
      · refine iSup₂_le fun middle link => ?_
        simp only [chain, Assertion.iSup_mul, mul_assoc]
        refine iSup₂_le fun address item => fact_mul_le.mpr ?_
        rintro ⟨rfl, follows⟩
        refine le_trans (mul_le_mul_right ?_ _) (le_chain_cons follows)
        rw [induction]
        exact le_iSup₂_of_le middle link le_rfl

/-- An item is linked to those in front of it and those behind it. -/
theorem around_le :
    around elements element more first before last after address ≤
      chain (elements ++ element :: more) first before last after := by
  rw [chain_append]
  refine iSup₂_le fun link item => fact_mul_le.mpr fun follows => ?_
  exact le_iSup₂_of_le (some address) link
    (mul_le_mul_right (le_chain_cons follows) _)

theorem around_nil_le (follows : item.Follows before) :
    itemHeld element address item *
        chain more item.next (some address) last after ≤
      around [] element more (some address) before last after address := by
  refine le_iSup₂_of_le before item (le_fact_mul follows ?_)
  rw [chain]
  exact le_fact_mul ⟨rfl, rfl⟩ le_rfl

/-- One more item in front. -/
theorem around_cons_le {other : Element} {place : Address}
    (follows : item.Follows before) :
    itemHeld other place item *
        around elements element more item.next (some place) last after address ≤
      around (other :: elements) element more (some place) before last after
        address := by
  simp only [around, Assertion.mul_iSup]
  refine iSup₂_mono fun link behind => ?_
  rw [mul_left_comm]
  refine mul_le_mul_right ?_ _
  rw [← mul_assoc]
  exact mul_le_mul_left (le_chain_cons follows) _

end Chain

/-! ## Reading and writing items -/

section Items

variable {address : Address} {item : Item} {rest : Assertion Block}

theorem triple_loadItem (address : Address) (item : Item) :
    Triple (owns address (.item item)) (loadItem (some address)) fun found =>
      fact (found = item) * owns address (.item item) := by
  refine (triple_loadBlock address (Block.item item)).bind fun found => ?_
  refine Triple.fact_mul ?_
  rintro rfl
  exact .pure (le_fact_mul rfl le_rfl)

theorem triple_loadText (address : Address) (bytes : Bytes) :
    Triple (owns address (.text bytes)) (loadText (some address)) fun found =>
      fact (found = bytes) * owns address (.text bytes) := by
  refine (triple_loadBlock address (Block.text bytes)).bind fun found => ?_
  refine Triple.fact_mul ?_
  rintro rfl
  exact .pure (le_fact_mul rfl le_rfl)

theorem triple_updateItem (change : Item → Item) (address : Address)
    (item : Item) :
    Triple (owns address (.item item)) (updateItem change (some address))
      fun _ => owns address (.item (change item)) := by
  refine (triple_loadItem address item).bind fun found => ?_
  refine Triple.fact_mul ?_
  rintro rfl
  exact triple_storeBlock address _ _

theorem triple_loadItem_bind {α : Type} {next : Item → Trees α}
    {result : α → Assertion Block}
    (second : Triple (owns address (.item item) * rest) (next item) result) :
    Triple (owns address (.item item) * rest)
      (loadItem (some address) >>= next) result := by
  refine (triple_loadItem address item).bind_frame fun found => ?_
  rw [mul_assoc]
  refine Triple.fact_mul ?_
  rintro rfl
  exact second

end Items

/-! ## Freeing -/

section Freeing

/-- With so many turns, what an item refers to can be freed. -/
def Freeable (turns : Nat) (held : ItemValue → Assertion Block) : Prop :=
  ∀ value, Triple (held value) (releaseValue (cJSONDelete turns) value)
    fun _ => 1

theorem triple_freeText (bytes : Option Bytes) (pointer : Option Address) :
    Triple (textHeld bytes pointer) (freeBlock pointer) fun _ => 1 := by
  cases bytes with
  | none =>
      rw [textHeld, ← mul_one (fact _)]
      refine Triple.fact_mul ?_
      rintro rfl
      exact .pure le_rfl
  | some bytes =>
      refine Triple.iSup fun address => Triple.fact_mul ?_
      rintro rfl
      exact triple_freeBlock address _

theorem triple_releaseItem {turns : Nat} {element : Element} {item : Item}
    {before : Option Address} (freeable : Freeable turns element.held)
    (follows : item.Follows before) :
    Triple (textHeld element.name item.string * element.held item.toItemValue)
      (releaseItem (cJSONDelete turns) item) fun _ => 1 := by
  rw [releaseItem, if_pos follows.2.1, if_pos follows.2.2, mul_comm]
  refine (freeable item.toItemValue).bind_frame fun _ => ?_
  rw [one_mul]
  exact triple_freeText _ _

/-- Every item is freed once, and nothing else. -/
theorem triple_cJSONDelete {turns : Nat} {elements : List Element}
    {first before last : Option Address}
    (each : ∀ element ∈ elements, ∀ more, turns ≤ more →
      Freeable more element.held) :
    Triple (chain elements first before last none)
      (cJSONDelete (turns + elements.length) first) fun _ => 1 := by
  induction elements generalizing first before with
  | nil =>
      rw [chain, ← mul_one (fact _)]
      refine Triple.fact_mul ?_
      rintro ⟨rfl, rfl⟩
      unfold cJSONDelete
      exact .pure le_rfl
  | cons element elements induction =>
      rw [List.forall_mem_cons] at each
      refine Triple.chain_cons fun address item found follows => ?_
      subst found
      have least := each.1 _ (Nat.le_add_right turns elements.length)
      have released := triple_releaseItem least follows
      rw [List.length_cons, ← Nat.add_assoc, cJSONDelete, itemHeld, mul_assoc]
      refine triple_loadItem_bind ?_
      rw [mul_left_comm]
      refine released.bind_frame fun _ => ?_
      rw [one_mul]
      refine (triple_freeBlock address _).bind_frame fun _ => ?_
      rw [one_mul]
      exact induction each.2

mutual

/-- How many items there are below the one that stands for a tree. -/
def Json.descendants : Json → Nat
  | .array items => itemsDescendants items
  | .object members => membersDescendants members
  | _ => 0

def itemsDescendants : List Json → Nat
  | [] => 0
  | item :: items => item.descendants + (itemsDescendants items + 1)

def membersDescendants : List (Bytes × Json) → Nat
  | [] => 0
  | (_, value) :: members => value.descendants + (membersDescendants members + 1)

end

theorem triple_deleteChildren {turns enough : Nat} {elements : List Element}
    {child : Option Address} (le : turns + elements.length ≤ enough)
    (each : ∀ element ∈ elements, ∀ more, turns ≤ more →
      Freeable more element.held) :
    Triple (children elements child) (cJSONDelete enough child) fun _ => 1 := by
  obtain ⟨more, rfl⟩ := Nat.exists_eq_add_of_le le
  rw [Nat.add_right_comm]
  exact Triple.iSup fun last => triple_cJSONDelete fun element member other le =>
    each element member other ((Nat.le_add_right _ _).trans le)

theorem freeable_of_none {turns : Nat} {held : ItemValue → Assertion Block}
    (none : ∀ value, held value ≤
      fact (value.valuestring = none ∧ value.child = none)) :
    Freeable turns held := by
  intro value
  refine Triple.of_le ?_ (none value)
  rw [← mul_one (fact _)]
  refine Triple.fact_mul fun absent => ?_
  rw [releaseValue, absent.1, absent.2]
  cases turns <;> exact .pure le_rfl

theorem itemElements_eq (items : List Json) :
    itemElements items = items.map fun item => ⟨none, item.held⟩ := by
  induction items with
  | nil => rfl
  | cons item items induction => rw [itemElements, induction, List.map_cons]

theorem memberElements_eq (members : List (Bytes × Json)) :
    memberElements members =
      members.map fun member => ⟨some member.1, member.2.held⟩ := by
  induction members with
  | nil => rfl
  | cons member members induction =>
      rw [memberElements, induction, List.map_cons]

theorem length_le_itemsDescendants (items : List Json) :
    items.length ≤ itemsDescendants items := by
  induction items with
  | nil => exact le_rfl
  | cons item items induction =>
      rw [itemsDescendants, List.length_cons]
      omega

theorem length_le_membersDescendants (members : List (Bytes × Json)) :
    members.length ≤ membersDescendants members := by
  induction members with
  | nil => exact le_rfl
  | cons member members induction =>
      rw [membersDescendants, List.length_cons]
      omega

theorem descendants_add_length_le_items {items : List Json} {item : Json}
    (inside : item ∈ items) :
    item.descendants + items.length ≤ itemsDescendants items := by
  induction items with
  | nil => cases inside
  | cons first items induction =>
      have least := length_le_itemsDescendants items
      rw [itemsDescendants, List.length_cons]
      obtain rfl | later := List.mem_cons.mp inside
      · omega
      · have counted := induction later
        omega

theorem descendants_add_length_le_members {members : List (Bytes × Json)}
    {member : Bytes × Json} (inside : member ∈ members) :
    member.2.descendants + members.length ≤ membersDescendants members := by
  induction members with
  | nil => cases inside
  | cons first members induction =>
      have least := length_le_membersDescendants members
      rw [membersDescendants, List.length_cons]
      obtain rfl | later := List.mem_cons.mp inside
      · omega
      · have counted := induction later
        omega

/-- A tree's memory can be freed in as many turns as it has items. -/
theorem Json.freeable (json : Json) {turns : Nat}
    (enough : json.descendants ≤ turns) : Freeable turns json.held := by
  have scalar : ∀ {statement : ItemValue → Prop} {turns},
      (∀ value, statement value →
        value.valuestring = none ∧ value.child = none) →
      Freeable turns fun value => fact (statement value) := fun none =>
    freeable_of_none fun value =>
      iSup_mono' fun holds => ⟨none value holds, le_rfl⟩
  have nested : ∀ {elements : List Element} {type : ItemType} {turns} base,
      base + elements.length ≤ turns →
      (∀ element ∈ elements, ∀ more, base ≤ more →
        Freeable more element.held) →
      Freeable turns fun value =>
        fact (value.type = type ∧ value.valuestring = none) *
          children elements value.child := by
    intro elements type turns base le each value
    refine Triple.fact_mul fun found => ?_
    refine (triple_deleteChildren le each).bind fun _ => ?_
    rw [found.2]
    exact .pure le_rfl
  induction json using Json.nestedInduction generalizing turns with
  | null => exact scalar fun _ holds => holds.2
  | bool value =>
      cases value with
      | false => exact scalar fun _ holds => holds.2.2
      | true => exact scalar fun _ holds => holds.2.2
  | number number => exact scalar fun _ holds => holds.2.2.2
  | string string =>
      intro value
      refine Triple.fact_mul fun found => ?_
      rw [releaseValue, found.2]
      have nothing : Triple (1 : Assertion Block) (cJSONDelete turns none)
          fun _ => 1 := by
        cases turns <;> exact .pure le_rfl
      rw [← one_mul (textHeld _ _)]
      refine nothing.bind_frame fun _ => ?_
      rw [one_mul]
      exact triple_freeText _ _
  | array items each =>
      rw [descendants] at enough
      have least := length_le_itemsDescendants items
      refine nested (turns - items.length) ?_ ?_
      · rw [itemElements_eq, List.length_map]
        omega
      · rw [itemElements_eq, List.forall_mem_map]
        intro item inside more le
        have counted := descendants_add_length_le_items inside
        exact each item inside (by omega)
  | object members each =>
      rw [descendants] at enough
      have least := length_le_membersDescendants members
      refine nested (turns - members.length) ?_ ?_
      · rw [memberElements_eq, List.length_map]
        omega
      · rw [memberElements_eq, List.forall_mem_map]
        intro member inside more le
        have counted := descendants_add_length_le_members inside
        exact each member inside (by omega)

/-- `cJSON_Delete` frees a tree, and leaves what else is in memory. -/
theorem Json.triple_delete (json : Json) {turns : Nat}
    (enough : json.descendants < turns) (pointer : Option Address) :
    Triple (json.tree pointer) (cJSONDelete turns pointer) fun _ => 1 := by
  obtain ⟨more, rfl⟩ := Nat.exists_eq_add_of_lt enough
  have each : ∀ element ∈ [Element.mk none json.held], ∀ other,
      json.descendants + more ≤ other → Freeable other element.held := by
    rw [List.forall_mem_singleton]
    exact fun other le => json.freeable ((Nat.le_add_right _ _).trans le)
  exact triple_cJSONDelete each

/-- The items of `{"hostname": "ubuntu", "Meat": 5}`. -/
def hostnameItem : Item :=
  { Item.zero with
    type := .string
    valuestring := some 4
    next := some 5
    prev := some 5
    string := some 3 }

def meatItem : Item :=
  { Item.zero with
    type := .number
    valueint := 5
    valuedouble := 5
    prev := some 2
    string := some 6 }

def rootItem : Item :=
  { Item.zero with type := .object, child := some 2 }

def exampleTree : Json :=
  .object [(ascii "hostname", .string (ascii "ubuntu")),
    (ascii "Meat", .number 5)]

def exampleBlocks : List (Address × Block) :=
  [(1, .item rootItem), (2, .item hostnameItem), (3, .text (ascii "hostname")),
    (4, .text (ascii "ubuntu")), (5, .item meatItem),
    (6, .text (ascii "Meat"))]

/-- The tree in memory, with another block beside it. -/
def exampleHeap : Heap Block :=
  ⟨cellsOf (exampleBlocks ++ [(7, .text [])]), 0⟩

def hostnameElement : Element :=
  ⟨some (ascii "hostname"), (Json.string (ascii "ubuntu")).held⟩

def meatElement : Element :=
  ⟨some (ascii "Meat"), (Json.number 5).held⟩

theorem owns_le_meat :
    owns 5 (.item meatItem) * owns 6 (.text (ascii "Meat")) ≤
      chain [meatElement] (some 5) (some 2) (some 5) none := by
  have follows : meatItem.Follows (some 2) := ⟨rfl, rfl, rfl⟩
  have value : meatElement.held meatItem.toItemValue = 1 :=
    fact_eq_one ⟨rfl, rfl, rfl, rfl, rfl⟩
  have alone : itemHeld meatElement 5 meatItem ≤
      chain [meatElement] (some 5) (some 2) (some 5) meatItem.next :=
    le_chain_singleton follows
  refine le_trans ?_ alone
  rw [itemHeld, value, mul_one]
  exact mul_le_mul_right (owns_le_textHeld 6 _) _

theorem owns_le_members :
    owns 2 (.item hostnameItem) *
        (owns 3 (.text (ascii "hostname")) *
          owns 4 (.text (ascii "ubuntu"))) *
        (owns 5 (.item meatItem) * owns 6 (.text (ascii "Meat"))) ≤
      children [hostnameElement, meatElement] (some 2) := by
  have follows : hostnameItem.Follows (some 5) := ⟨rfl, rfl, rfl⟩
  have linked : itemHeld hostnameElement 2 hostnameItem *
      chain [meatElement] (some 5) (some 2) (some 5) none ≤
        chain [hostnameElement, meatElement] (some 2) (some 5) (some 5) none :=
    le_chain_cons follows
  have value : owns 4 (.text (ascii "ubuntu")) ≤
      hostnameElement.held hostnameItem.toItemValue :=
    le_fact_mul ⟨rfl, rfl⟩ (owns_le_textHeld 4 _)
  refine le_iSup_of_le (some 5) (le_trans ?_ linked)
  refine mul_le_mul' (mul_le_mul_right ?_ _) owns_le_meat
  exact mul_le_mul' (owns_le_textHeld 3 _) value

theorem blocks_exampleBlocks_le :
    blocks exampleBlocks ≤ exampleTree.tree (some 1) := by
  have follows : rootItem.Follows none := ⟨rfl, rfl, rfl⟩
  have alone : itemHeld ⟨none, exampleTree.held⟩ 1 rootItem ≤
      exampleTree.tree (some 1) := le_chain_singleton follows
  have value : exampleTree.held rootItem.toItemValue =
      children [hostnameElement, meatElement] (some 2) := by
    change fact _ * children [hostnameElement, meatElement] (some 2) = _
    rw [fact_eq_one ⟨rfl, rfl⟩, one_mul]
  have nameless : textHeld none rootItem.string = 1 := fact_eq_one rfl
  refine le_trans ?_ alone
  simp only [itemHeld, value, nameless, one_mul]
  refine le_trans ?_ (mul_le_mul_right owns_le_members _)
  simp only [blocks, exampleBlocks, List.map_cons, List.map_nil,
    List.prod_cons, List.prod_nil, mul_one, mul_assoc, le_refl]

theorem holds_exampleHeap :
    (exampleTree.tree (some 1) * owns 7 (Block.text [])).Holds
      exampleHeap.cells := by
  have all : (blocks (exampleBlocks ++ [(7, Block.text [])])).Holds
      exampleHeap.cells := holds_blocks (by decide)
  have parts : blocks (exampleBlocks ++ [(7, Block.text [])]) =
      blocks exampleBlocks * owns 7 (Block.text []) := by
    simp only [blocks, List.map_append, List.prod_append, List.map_cons,
      List.map_nil, List.prod_cons, List.prod_nil, mul_one]
  rw [parts] at all
  exact mul_le_mul_left blocks_exampleBlocks_le _ _ all

/-- Six blocks are freed, and the one beside them is left. -/
theorem Json.triple_delete_example :
    ∃ final : Heap Block,
      Faulting.exec (cJSONDelete 3 (some 1)) exampleHeap = (.ok ⟨⟩, final) ∧
      final.cells = Finmap.singleton 7 (Block.text []) := by
  have enough : exampleTree.descendants < 3 := by decide
  obtain ⟨⟨⟩, final, freed, left⟩ :=
    Json.triple_delete exampleTree enough (some 1) (owns 7 (.text []))
      exampleHeap holds_exampleHeap
  rw [one_mul] at left
  exact ⟨final, freed, left⟩

end Freeing

end ShelterServer
