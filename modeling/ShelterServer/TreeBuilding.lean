import ShelterServer.TreeMembers

/-!
# Adding members to a tree in memory

A new item is linked behind the last one, and the first one refers back to it.
Where a request for memory is refused, the object stays as it is.
-/

namespace ShelterServer

open Foundations Assertion

/-! ## Both ends of a list -/

section Ends

variable {elements : List Element} {element : Element}
  {first before last after link : Option Address} {address : Address}
  {item : Item}

/-- A list with items has a first and a last one. -/
theorem chain_ends_le :
    chain (element :: elements) first before last after ≤
      ⨆ child, ⨆ place, fact (first = some child ∧ last = some place) *
        chain (element :: elements) first before last after := by
  induction elements generalizing element first before with
  | nil =>
      refine iSup₂_le fun address item => fact_mul_le.mpr ?_
      rintro ⟨rfl, follows⟩
      rw [chain, mul_comm]
      refine fact_mul_le.mpr ?_
      rintro ⟨rfl, rfl⟩
      refine le_iSup₂_of_le address address (le_fact_mul ⟨rfl, rfl⟩ ?_)
      exact le_chain_singleton follows
  | cons next elements induction =>
      refine iSup₂_le fun address item => fact_mul_le.mpr ?_
      rintro ⟨rfl, follows⟩
      refine (mul_le_mul_right induction _).trans ?_
      simp only [Assertion.mul_iSup]
      refine iSup₂_le fun child place => le_iSup₂_of_le address place ?_
      rw [mul_left_comm]
      refine fact_mul_le.mpr fun found => le_fact_mul ⟨rfl, found.2⟩ ?_
      exact le_chain_cons follows

theorem triple_loadFirst_bind {α : Type} {next : Item → Trees α}
    {rest : Assertion Block} {result : α → Assertion Block}
    (second : ∀ item : Item, item.prev = before →
      Triple (chain (element :: elements) (some address) before last after *
        rest) (next item) result) :
    Triple (chain (element :: elements) (some address) before last after *
      rest) (loadItem (some address) >>= next) result := by
  refine Triple.iSup_mul fun place => Triple.iSup_mul fun item => ?_
  rw [mul_assoc]
  refine Triple.fact_mul ?_
  rintro ⟨found, follows⟩
  obtain rfl := Option.some_inj.mp found
  have linked : itemHeld element address item *
      chain elements item.next (some address) last after ≤
        chain (element :: elements) (some address) before last after :=
    le_chain_cons follows
  have whole := mul_le_mul_left linked rest
  rw [itemHeld, mul_assoc, mul_assoc] at whole ⊢
  exact triple_loadItem_bind ((second item follows.1).of_le whole)

/-- `first->prev = prev` -/
theorem triple_setPrev (prev : Option Address) :
    Triple (chain (element :: elements) (some address) before last after)
      (updateItem (fun item => { item with prev }) (some address)) fun _ =>
        chain (element :: elements) (some address) prev last after := by
  refine Triple.chain_cons fun other item same follows => ?_
  obtain rfl := Option.some_inj.mp same
  have linked : ({ item with prev } : Item).Follows prev := ⟨rfl, follows.2⟩
  have whole : itemHeld element address { item with prev } *
      chain elements item.next (some address) last after ≤
        chain (element :: elements) (some address) prev last after :=
    le_chain_cons linked
  rw [itemHeld, mul_assoc] at whole ⊢
  exact ((triple_updateItem _ address item).frame _).consequence le_rfl
    fun _ => whole

/-- `last->next = next` -/
theorem triple_setNext (next : Option Address) :
    Triple (chain (element :: elements) first before (some address) none)
      (updateItem (fun item => { item with next }) (some address)) fun _ =>
        chain (element :: elements) first before (some address) next := by
  induction elements generalizing element first before with
  | nil =>
      refine Triple.chain_cons fun place item found follows => ?_
      subst found
      rw [chain, mul_comm]
      refine Triple.fact_mul ?_
      rintro ⟨_, same⟩
      obtain rfl := Option.some_inj.mp same
      have linked : ({ item with next } : Item).Follows before := follows
      exact ((triple_updateItem _ place item).frame _).consequence le_rfl
        fun _ => le_chain_singleton linked
  | cons second elements induction =>
      refine Triple.chain_cons fun place item found follows => ?_
      subst found
      rw [mul_comm]
      refine (induction.frame (itemHeld element place item)).consequence
        le_rfl fun _ => ?_
      rw [mul_comm]
      exact le_chain_cons follows

/-- The last item of a list, with those in front of it. -/
theorem le_around_last (follows : item.Follows link)
    (alone : item.next = none) :
    chain elements first before link (some address) *
        itemHeld element address item ≤
      around elements element [] first before (some address) none address := by
  refine le_iSup₂_of_le link item (le_fact_mul follows ?_)
  rw [chain, fact_eq_one ⟨alone, rfl⟩, mul_one]

end Ends

/-! ## Linking an item -/

section Linking

variable {elements : List Element} {element : Element}
  {first before : Option Address} {array place last : Address}
  {root item : Item}

theorem triple_suffixObject :
    Triple (chain (element :: elements) first before (some last) none *
        owns place (.item item))
      (suffixObject (some last) (some place)) fun _ =>
        owns place (.item { item with prev := some last }) *
          chain (element :: elements) first before (some last)
            (some place) := by
  refine (triple_setNext (some place)).bind_frame fun _ => ?_
  rw [mul_comm]
  exact (triple_updateItem _ place item).frame _

/-- An array with an item behind those it had. -/
def lastAdded (elements : List Element) (element : Element) (root : Item)
    (array place : Address) : Assertion Block :=
  ⨆ child, ⨆ last, owns array (.item { root with child }) *
    around elements element [] child last last none place

theorem triple_addItemToArray (different : array ≠ place)
    (own : item.isReference = false ∧ item.stringIsConst = false)
    (alone : item.next = none) :
    Triple (owns array (.item root) *
        (children elements root.child * itemHeld element place item))
      (addItemToArray (some array) (some place)) fun added =>
        fact (added = true) * lastAdded elements element root array place := by
  have proceeds : ¬ (some place = none ∨ some array = none ∨
      some array = some place) := by
    simp [different]
  rw [addItemToArray, if_neg proceeds]
  refine triple_loadItem_bind ?_
  rw [mul_comm, mul_assoc]
  refine Triple.iSup_mul fun last => ?_
  cases elements with
  | nil =>
      rw [chain]
      refine Triple.fact_mul ?_
      rintro ⟨empty, _⟩
      rw [empty, mul_comm]
      refine (triple_updateItem _ array root).bind_frame fun _ => ?_
      rw [itemHeld, mul_left_comm]
      refine (triple_updateItem _ place item).bind_frame fun _ => ?_
      refine .pure (le_fact_mul rfl ?_)
      rw [mul_left_comm]
      refine le_iSup₂_of_le (some place) (some place) (mul_le_mul_right ?_ _)
      have linked : ({ item with
          prev := some place, next := none } : Item).Follows (some place) :=
        ⟨rfl, own⟩
      refine le_trans ?_ (le_around_last linked rfl)
      rw [chain, fact_eq_one ⟨rfl, rfl⟩, one_mul]
      rfl
  | cons next elements =>
      refine Triple.of_le ?_ (mul_le_mul_left chain_ends_le _)
      refine Triple.iSup_mul fun child => Triple.iSup_mul fun link => ?_
      rw [mul_assoc]
      refine Triple.fact_mul ?_
      rintro ⟨found, rfl⟩
      rw [found]
      refine triple_loadFirst_bind fun firstItem previous => ?_
      rw [previous, itemHeld, mul_assoc, ← mul_assoc]
      refine triple_suffixObject.bind_frame fun _ => ?_
      have shuffle : ∀ one two three four : Assertion Block,
          one * two * (three * four) = four * (two * (one * three)) := by
        intros
        ac_rfl
      rw [shuffle]
      refine triple_loadItem_bind ?_
      rw [found, mul_left_comm]
      refine (triple_setPrev (some place)).bind_frame fun _ => ?_
      refine .pure (le_fact_mul rfl ?_)
      rw [mul_left_comm]
      refine le_iSup₂_of_le (some child) (some place) ?_
      have same : ({ root with child := some child } : Item) = root := by
        rw [← found]
      rw [same]
      refine mul_le_mul_right ?_ _
      have linked : ({ item with prev := some link } : Item).Follows
          (some link) := ⟨rfl, own⟩
      exact le_around_last linked alone

end Linking

/-! ## New items -/

section Creation

variable {allocator : Allocator Block}

/-- A new tree, or NULL where a request is refused. -/
def created (allocator : Allocator Block) (json : Json) :
    Option Address → Assertion Block
  | none => fact (¬ allocator.Generous)
  | some address => json.tree (some address)

/-- A new item that is given a value without further memory. -/
theorem triple_createItem {json : Json} {change : Item → Item}
    (alone : (change .zero).Alone)
    (held : json.held (change .zero).toItemValue = 1) :
    Triple 1
      (do
        match ← cJSONNewItem allocator with
        | none => pure none
        | some address =>
            updateItem change (some address)
            pure (some address))
      (created allocator json) := by
  refine (triple_allocateBlock allocator (Block.item .zero)).bind
    fun pointer => ?_
  cases pointer with
  | none => exact .pure le_rfl
  | some address =>
      refine (triple_updateItem _ address .zero).bind fun _ => .pure ?_
      have tree : owns address (Block.item (change .zero)) *
          json.held (change .zero).toItemValue ≤ json.tree (some address) :=
        owns_le_chain alone
      rwa [held, mul_one] at tree

theorem triple_cJSONCreateNumber (number : Int) :
    Triple 1 (cJSONCreateNumber allocator number)
      (created allocator (.number number)) :=
  triple_createItem ⟨⟨rfl, rfl, rfl⟩, rfl, rfl⟩
    (fact_eq_one ⟨rfl, rfl, rfl, rfl, rfl⟩)

theorem triple_cJSONCreateObject :
    Triple 1 (cJSONCreateObject allocator)
      (created allocator (.object [])) := by
  refine triple_createItem ⟨⟨rfl, rfl, rfl⟩, rfl, rfl⟩ ?_
  rw [Json.held, memberElements, children_nil, fact_eq_one ⟨rfl, rfl⟩,
    one_mul]
  exact fact_eq_one rfl

/-- An item that refers to nothing can be freed. -/
theorem triple_deleteItem {address : Address} {item : Item}
    (alone : item.Alone)
    (nothing : item.valuestring = none ∧ item.child = none) :
    Triple (owns address (.item item)) (cJSONDelete 1 (some address))
      fun _ => 1 := by
  let bare : ItemValue → Assertion Block := fun value =>
    fact (value.valuestring = none ∧ value.child = none)
  have each : ∀ element ∈ [Element.mk none bare], ∀ more, 0 ≤ more →
      Freeable more element.held := by
    rw [List.forall_mem_singleton]
    exact fun _ _ => freeable_of_none fun _ => le_rfl
  have whole : owns address (.item item) * bare item.toItemValue ≤
      chain [⟨none, bare⟩] (some address) none (some address) none :=
    owns_le_chain alone
  have nothingHeld : bare item.toItemValue = 1 := fact_eq_one nothing
  rw [nothingHeld, mul_one] at whole
  exact (triple_cJSONDelete each).of_le whole

theorem triple_cJSONCreateString (string : Bytes) :
    Triple 1 (cJSONCreateString allocator string)
      (created allocator (.string (untilNul string))) := by
  refine (triple_allocateBlock allocator (Block.item .zero)).bind
    fun pointer => ?_
  cases pointer with
  | none => exact .pure le_rfl
  | some address =>
      refine (triple_updateItem _ address .zero).bind fun _ => ?_
      rw [← one_mul (owns _ _)]
      refine (triple_allocateBlock allocator
        (Block.text (untilNul string))).bind_frame fun text => ?_
      rw [mul_comm]
      refine (triple_updateItem _ address _).bind_frame fun _ => ?_
      cases text with
      | none =>
          refine (triple_deleteItem ⟨⟨rfl, rfl, rfl⟩, rfl, rfl⟩
            ⟨rfl, rfl⟩).bind_frame fun _ => ?_
          rw [one_mul]
          exact .pure le_rfl
      | some text =>
          refine .pure (le_trans (mul_le_mul_right ?_ _)
            (owns_le_chain ⟨⟨rfl, rfl, rfl⟩, rfl, rfl⟩))
          exact le_fact_mul ⟨rfl, rfl⟩ (owns_le_textHeld text _)

end Creation

/-! ## New members -/

section Members

variable {allocator : Allocator Block} {elements : List Element}
  {held : ItemValue → Assertion Block} {root item : Item}
  {array place : Address} {members : List (Bytes × Json)} {name : Bytes}
  {value : Json}

theorem owns_le_itemHeld {key : Address} :
    owns place
        (.item { item with string := some key, stringIsConst := false }) *
        (held item.toItemValue * owns key (.text name)) ≤
      itemHeld ⟨some name, held⟩ place
        { item with string := some key, stringIsConst := false } := by
  refine mul_le_mul_right ?_ _
  rw [mul_comm]
  exact mul_le_mul_left (owns_le_textHeld key name) _

/-- The name is copied first, and without it nothing is linked. -/
theorem triple_addItemToObject (alone : item.Alone) :
    let apart := owns array (.item root) * children elements root.child *
      (owns place (.item item) * held item.toItemValue)
    Triple apart (addItemToObject allocator (some array) name (some place))
      fun added =>
        match added with
        | false => fact (¬ allocator.Generous) * apart
        | true => lastAdded elements ⟨some (untilNul name), held⟩ root array
            place := by
  intro apart
  have differ : apart ≤ fact (array ≠ place) * apart := owns_apart_le
  refine (Triple.fact_mul fun different => ?_).of_le differ
  have proceeds : ¬ (some array = none ∨ some place = none ∨
      some array = some place) := by
    simp [different]
  rw [addItemToObject, if_neg proceeds, ← one_mul apart]
  refine (triple_allocateBlock allocator
    (Block.text (untilNul name))).bind_frame fun key => ?_
  cases key with
  | none => exact .pure (mul_le_mul_right (one_mul apart).ge _)
  | some key =>
      have shuffle : owns key (Block.text (untilNul name)) * apart =
          owns place (.item item) * (held item.toItemValue *
            (owns key (.text (untilNul name)) *
              (owns array (.item root) * children elements root.child))) := by
        change owns key _ * (_ * _ * (_ * _)) = _
        ac_rfl
      rw [shuffle]
      refine triple_loadItem_bind ?_
      rw [if_pos alone.1.2.2, alone.2.2]
      have nothing : Triple 1 (freeBlock none : Trees PUnit) fun _ => 1 :=
        .pure le_rfl
      rw [← one_mul (owns place _ * _)]
      refine nothing.bind_frame fun _ => ?_
      rw [one_mul]
      refine (triple_updateItem _ place item).bind_frame fun _ => ?_
      let named : Item :=
        { item with string := some key, stringIsConst := false }
      have own : named.isReference = false ∧ named.stringIsConst = false :=
        ⟨alone.1.2.1, rfl⟩
      have linked : Triple (owns array (.item root) *
          (children elements root.child *
            itemHeld ⟨some (untilNul name), held⟩ place named))
          (addItemToArray (some array) (some place)) _ :=
        triple_addItemToArray different own alone.2.1
      refine linked.consequence ?_ fun added => ?_
      · refine le_trans (le_of_eq ?_)
          (mul_le_mul_right (mul_le_mul_right owns_le_itemHeld _) _)
        ac_rfl
      · cases added with
        | false => exact fact_mul_le.mpr fun impossible => nomatch impossible
        | true => exact fact_mul_le.mpr fun _ => le_rfl

/-- An object with a new last member, or, where a request was refused, as it
was. -/
def memberAdded (allocator : Allocator Block) (members : List (Bytes × Json))
    (name : Bytes) (value : Json) (array : Address) :
    Option Address → Assertion Block
  | none =>
      fact (¬ allocator.Generous) * (Json.object members).tree (some array)
  | some place => memberAt members (name, value) [] array place

theorem lastAdded_le {json : Json} (alone : root.Alone)
    (type : root.type = .object ∧ root.valuestring = none) :
    lastAdded (memberElements members) ⟨some name, json.held⟩ root array
        place ≤
      memberAt members (name, json) [] array place :=
  iSup₂_le fun child last => le_iSup₂_of_le { root with child } last
    (le_fact_mul ⟨alone, type⟩ le_rfl)

/-- A tree of its own becomes the last member of an object. -/
theorem triple_addTree :
    let apart := (Json.object members).tree (some array) *
      value.tree (some place)
    Triple apart (addItemToObject allocator (some array) name (some place))
      fun added =>
        match added with
        | false => fact (¬ allocator.Generous) * apart
        | true => memberAt members (untilNul name, value) [] array place := by
  intro apart
  have parts : apart = (⨆ root : Item, fact root.Alone *
      (owns array (.item root) *
        (Json.object members).held root.toItemValue)) *
      ⨆ item : Item, fact item.Alone *
        (owns place (.item item) * value.held item.toItemValue) := by
    rw [← Json.tree_eq, ← Json.tree_eq]
  refine Triple.of_eq ?_ parts
  refine Triple.iSup_mul fun root => ?_
  rw [mul_assoc]
  refine Triple.fact_mul fun alone => ?_
  rw [mul_comm]
  refine Triple.iSup_mul fun item => ?_
  rw [mul_assoc]
  refine Triple.fact_mul fun itemAlone => ?_
  rw [mul_comm, Json.held, mul_left_comm (owns array _), mul_assoc]
  refine Triple.fact_mul fun type => ?_
  refine (triple_addItemToObject itemAlone).consequence le_rfl fun added => ?_
  cases added with
  | true => exact lastAdded_le alone type
  | false =>
      refine mul_le_mul_right (mul_le_mul' ?_ (owns_le_chain itemAlone)) _
      refine le_trans (mul_le_mul_right ?_ _) (owns_le_chain alone)
      exact le_fact_mul type le_rfl

/-- `cJSON_AddNumberToObject` and its siblings, by what they create. -/
theorem triple_addToObject {create : Trees (Option Address)}
    (creates : Triple 1 create (created allocator value))
    (leaf : value.descendants = 0) :
    Triple ((Json.object members).tree (some array))
      (addToObject allocator create (some array) name)
      (memberAdded allocator members (untilNul name) value array) := by
  let object := (Json.object members).tree (some array)
  rw [addToObject, ← one_mul (Json.tree _ _)]
  refine creates.bind_frame fun pointer => ?_
  rw [mul_comm]
  cases pointer with
  | none =>
      have refused : Triple object
          (addItemToObject allocator (some array) name none)
          fun added => fact (added = false) * object := by
        rw [addItemToObject, if_pos (.inr (.inl rfl))]
        exact .pure (le_fact_mul rfl le_rfl)
      refine refused.bind_frame fun added => ?_
      rw [mul_assoc]
      refine Triple.fact_mul ?_
      rintro rfl
      exact .pure (mul_comm _ _).le
  | some place =>
      refine triple_addTree.bind fun added => ?_
      cases added with
      | true => exact .pure le_rfl
      | false =>
          have deleted : Triple (value.tree (some place))
              (cJSONDelete 1 (some place)) fun _ => 1 :=
            value.triple_delete (Nat.lt_succ_of_le leaf.le) (some place)
          have shuffle : fact (¬ allocator.Generous) *
              (object * value.tree (some place)) =
                value.tree (some place) *
                  (fact (¬ allocator.Generous) * object) := by
            ac_rfl
          refine Triple.of_eq ?_ shuffle
          refine deleted.bind_frame fun _ => ?_
          rw [one_mul]
          exact .pure le_rfl

end Members

end ShelterServer
