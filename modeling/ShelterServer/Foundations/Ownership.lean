import Mathlib
import ShelterServer.Foundations.Faulting

/-!
# Ownership of memory

Programs that allocate, read, write and free blocks of memory, and assertions
about the blocks that a part of a program owns.  The product of two assertions
is about blocks that are apart, and a specification holds with whatever else
is in memory.
-/

namespace ShelterServer.Foundations

/-! ## Memory -/

abbrev Address := Nat

/-- The blocks that are allocated. -/
abbrev Cells (β : Type) := Finmap fun _ : Address => β

structure Heap (β : Type) where
  cells : Cells β
  /-- How often memory was asked for. -/
  requests : Nat

/-- Where a request is granted, if it is; never where a block is. -/
structure Allocator (β : Type) where
  place : Nat → Cells β → Option Address
  fresh : ∀ {requests cells address},
    place requests cells = some address → address ∉ cells

/-- Every request is granted. -/
def Allocator.Generous {β : Type} (allocator : Allocator β) : Prop :=
  ∀ requests cells, allocator.place requests cells ≠ none

/-- What stops a program: an access through NULL, an access to a block that is
not allocated, or a failure of its own. -/
inductive HeapFault where
  | null
  | dangling
  | stuck
deriving DecidableEq

abbrev Allocating (β : Type) := Faulting HeapFault (Heap β)

section Programs

variable {β : Type}

def allocateBlock (allocator : Allocator β) (block : β) :
    Allocating β (Option Address) := do
  let heap ← get
  match allocator.place heap.requests heap.cells with
  | none =>
      modify fun heap => { heap with requests := heap.requests + 1 }
      pure none
  | some address =>
      modify fun heap =>
        ⟨heap.cells.insert address block, heap.requests + 1⟩
      pure (some address)

def loadBlock : Option Address → Allocating β β
  | none => throw .null
  | some address => do
      let heap ← get
      match heap.cells.lookup address with
      | none => throw .dangling
      | some block => pure block

def storeBlock (block : β) : Option Address → Allocating β PUnit
  | none => throw .null
  | some address => do
      let heap ← get
      if address ∈ heap.cells then
        modify fun heap =>
          { heap with cells := heap.cells.insert address block }
      else throw .dangling

/-- Freeing NULL does nothing. -/
def freeBlock : Option Address → Allocating β PUnit
  | none => pure ⟨⟩
  | some address => do
      let heap ← get
      if address ∈ heap.cells then
        modify fun heap => { heap with cells := heap.cells.erase address }
      else throw .dangling

end Programs

/-! ## Assertions -/

/-- What holds of the blocks that are owned. -/
def Assertion (β : Type) : Type :=
  Cells β → Prop

namespace Assertion

variable {β : Type}

def Holds (assertion : Assertion β) (cells : Cells β) : Prop :=
  assertion cells

instance : CompleteLattice (Assertion β) :=
  inferInstanceAs (CompleteLattice (Cells β → Prop))

/-- Nothing is owned. -/
instance : One (Assertion β) :=
  ⟨fun cells => cells = ∅⟩

/-- The blocks of both, which are apart. -/
instance : Mul (Assertion β) :=
  ⟨fun left right cells => ∃ first second, first.Disjoint second ∧
    cells = first ∪ second ∧ left first ∧ right second⟩

/-- One block. -/
def owns (address : Address) (block : β) : Assertion β :=
  fun cells => cells = Finmap.singleton address block

/-- A statement about no block. -/
def fact (statement : Prop) : Assertion β :=
  ⨆ _ : statement, 1

theorem iSup_iff {ι : Sort*} {family : ι → Assertion β} {cells : Cells β} :
    (⨆ index, family index).Holds cells ↔
      ∃ index, (family index).Holds cells := by
  let union : Assertion β := fun cells => ∃ index, (family index).Holds cells
  have least : ⨆ index, family index ≤ union :=
    iSup_le fun index cells holds => ⟨index, holds⟩
  exact ⟨least cells, fun ⟨index, holds⟩ => le_iSup family index cells holds⟩

instance : CommMonoid (Assertion β) where
  one_mul assertion := by
    funext cells
    refine propext ⟨?_, fun holds => ?_⟩
    · rintro ⟨first, second, _, rfl, rfl, holds⟩
      rwa [Finmap.empty_union]
    · exact ⟨∅, cells, Finmap.disjoint_empty _, Finmap.empty_union.symm, rfl,
        holds⟩
  mul_one assertion := by
    funext cells
    refine propext ⟨?_, fun holds => ?_⟩
    · rintro ⟨first, second, _, rfl, holds, rfl⟩
      rwa [Finmap.union_empty]
    · exact ⟨cells, ∅, (Finmap.disjoint_empty _).symm,
        Finmap.union_empty.symm, holds, rfl⟩
  mul_comm left right := by
    have swap : ∀ {left right : Assertion β} {cells},
        (left * right) cells → (right * left) cells := by
      rintro left right _ ⟨first, second, apart, rfl, holds, others⟩
      exact ⟨second, first, apart.symm, Finmap.union_comm_of_disjoint apart,
        others, holds⟩
    funext cells
    exact propext ⟨swap, swap⟩
  mul_assoc left middle right := by
    funext cells
    refine propext ⟨?_, ?_⟩
    · rintro ⟨_, third, apart, rfl, ⟨first, second, inner, rfl, one, two⟩,
        three⟩
      rw [Finmap.disjoint_union_left] at apart
      exact ⟨first, second ∪ third,
        (Finmap.disjoint_union_right _ _ _).mpr ⟨inner, apart.1⟩,
        Finmap.union_assoc, one, second, third, apart.2, rfl, two, three⟩
    · rintro ⟨first, _, apart, rfl, one, second, third, inner, rfl, two,
        three⟩
      rw [Finmap.disjoint_union_right] at apart
      exact ⟨first ∪ second, third,
        (Finmap.disjoint_union_left _ _ _).mpr ⟨apart.2, inner⟩,
        Finmap.union_assoc.symm, ⟨first, second, apart.1, rfl, one, two⟩,
        three⟩

instance : IsOrderedMonoid (Assertion β) where
  mul_le_mul_left left right le rest := by
    rintro _ ⟨first, second, apart, rfl, holds, others⟩
    exact ⟨first, second, apart, rfl, le first holds, others⟩

theorem iSup_mul {ι : Sort*} (family : ι → Assertion β)
    (assertion : Assertion β) :
    (⨆ index, family index) * assertion = ⨆ index, family index * assertion := by
  refine le_antisymm ?_
    (iSup_le fun index => mul_le_mul_left (le_iSup family index) assertion)
  rintro _ ⟨first, second, apart, rfl, holds, others⟩
  obtain ⟨index, holds⟩ := iSup_iff.mp holds
  exact iSup_iff.mpr ⟨index, first, second, apart, rfl, holds, others⟩

theorem mul_iSup {ι : Sort*} (assertion : Assertion β)
    (family : ι → Assertion β) :
    assertion * ⨆ index, family index = ⨆ index, assertion * family index := by
  simp only [mul_comm assertion, iSup_mul]

theorem fact_eq_one {statement : Prop} (holds : statement) :
    (fact statement : Assertion β) = 1 :=
  iSup_pos holds

theorem fact_mul_le {statement : Prop} {left right : Assertion β} :
    fact statement * left ≤ right ↔ (statement → left ≤ right) := by
  rw [fact, iSup_mul]
  simp only [one_mul, iSup_le_iff]

/-- A statement that holds may be added. -/
theorem le_fact_mul {statement : Prop} {left right : Assertion β}
    (holds : statement) (le : left ≤ right) : left ≤ fact statement * right := by
  rwa [fact_eq_one holds, one_mul]

/-- Blocks that are all there is. -/
def blocks (list : List (Address × β)) : Assertion β :=
  (list.map fun block => owns block.1 block.2).prod

/-- The memory that holds these blocks. -/
def cellsOf (list : List (Address × β)) : Cells β :=
  list.foldr (fun block cells => cells.insert block.1 block.2) ∅

theorem mem_cellsOf {list : List (Address × β)} {address : Address} :
    address ∈ cellsOf list ↔ address ∈ list.map Prod.fst := by
  induction list with
  | nil =>
      rw [List.map_nil, iff_false_right List.not_mem_nil]
      exact Finmap.notMem_empty
  | cons block list induction =>
      rw [List.map_cons, List.mem_cons, ← induction]
      exact Finmap.mem_insert

theorem holds_blocks {list : List (Address × β)}
    (apart : (list.map Prod.fst).Nodup) :
    (blocks list).Holds (cellsOf list) := by
  induction list with
  | nil => exact (rfl : (∅ : Cells β) = ∅)
  | cons block list induction =>
      rw [List.map_cons, List.nodup_cons, ← mem_cellsOf] at apart
      rw [blocks, List.map_cons, List.prod_cons]
      refine ⟨Finmap.singleton block.1 block.2, cellsOf list, ?_, ?_, rfl,
        induction apart.2⟩
      · intro other member inside
        rw [Finmap.mem_singleton] at member
        exact apart.1 (member ▸ inside)
      · have whole : (∅ ∪ cellsOf list).insert block.1 block.2 =
            Finmap.insert block.1 block.2 ∅ ∪ cellsOf list :=
          Finmap.insert_union
        rwa [Finmap.empty_union] at whole

end Assertion

/-! ## Specifications -/

open Faulting Assertion

section Triple

variable {α γ β : Type}

/-- From memory in which the first assertion holds of a part, the program
returns, and the second holds of what became of that part; what else is in
memory stays as it is. -/
def Triple (before : Assertion β) (program : Allocating β α)
    (after : α → Assertion β) : Prop :=
  ∀ (rest : Assertion β) (heap : Heap β), (before * rest).Holds heap.cells →
    ∃ value final, exec program heap = (.ok value, final) ∧
      (after value * rest).Holds final.cells

namespace Triple

variable {before middle rest : Assertion β} {program : Allocating β α}
  {after : α → Assertion β}

theorem consequence {other : Assertion β} {weaker : α → Assertion β}
    (triple : Triple before program after) (stronger : other ≤ before)
    (enough : ∀ value, after value ≤ weaker value) :
    Triple other program weaker := by
  intro rest heap holds
  obtain ⟨value, final, returned, result⟩ :=
    triple rest heap (mul_le_mul_left stronger rest heap.cells holds)
  exact ⟨value, final, returned,
    mul_le_mul_left (enough value) rest final.cells result⟩

theorem of_le {other : Assertion β} (triple : Triple before program after)
    (stronger : other ≤ before) : Triple other program after :=
  triple.consequence stronger fun _ => le_rfl

theorem of_eq {other : Assertion β} (triple : Triple before program after)
    (same : other = before) : Triple other program after :=
  triple.of_le same.le

/-- A part that the program does not use stays as it is. -/
theorem frame (triple : Triple before program after) (rest : Assertion β) :
    Triple (before * rest) program fun value => after value * rest := by
  intro others heap holds
  rw [mul_assoc] at holds
  obtain ⟨value, final, returned, result⟩ := triple (rest * others) heap holds
  rw [← mul_assoc] at result
  exact ⟨value, final, returned, result⟩

theorem pure {value : α} (le : before ≤ after value) :
    Triple before (Pure.pure value : Allocating β α) after :=
  fun rest heap holds =>
    ⟨value, heap, rfl, mul_le_mul_left le rest heap.cells holds⟩

theorem bind {result : γ → Assertion β} {next : α → Allocating β γ}
    (first : Triple before program after)
    (second : ∀ value, Triple (after value) (next value) result) :
    Triple before (program >>= next) result := by
  intro rest heap holds
  obtain ⟨value, middle, returned, between⟩ := first rest heap holds
  rw [exec_bind_of_ok returned]
  exact second value rest middle between

/-- A first step that uses a part of the memory only. -/
theorem bind_frame {result : γ → Assertion β} {next : α → Allocating β γ}
    (first : Triple before program after)
    (second : ∀ value, Triple (after value * rest) (next value) result) :
    Triple (before * rest) (program >>= next) result :=
  (first.frame rest).bind second

theorem iSup {ι : Sort*} {family : ι → Assertion β}
    (each : ∀ index, Triple (family index) program after) :
    Triple (⨆ index, family index) program after := by
  intro rest heap holds
  rw [Assertion.iSup_mul, iSup_iff] at holds
  obtain ⟨index, holds⟩ := holds
  exact each index rest heap holds

theorem iSup_mul {ι : Sort*} {family : ι → Assertion β}
    (each : ∀ index, Triple (family index * rest) program after) :
    Triple ((⨆ index, family index) * rest) program after := by
  rw [Assertion.iSup_mul]
  exact iSup each

theorem fact_mul {statement : Prop}
    (triple : statement → Triple rest program after) :
    Triple (fact statement * rest) program after :=
  iSup_mul fun holds => (triple holds).of_eq (one_mul rest)

end Triple

/-- A program that changes no block returns with the memory it has found. -/
theorem Triple.exec_of_within {before rest : Assertion β}
    {program : Allocating β α} {after : α → Assertion β} {heap : Heap β}
    (triple : Triple before program after) (reads : Within Eq program)
    (holds : (before * rest).Holds heap.cells) :
    ∃ value, exec program heap = (.ok value, heap) ∧
      (after value * rest).Holds heap.cells := by
  obtain ⟨value, final, returned, result⟩ := triple rest heap holds
  obtain rfl : heap = final := (reads heap).trans (by rw [returned])
  exact ⟨value, returned, result⟩

end Triple

/-! ## Blocks -/

section Blocks

variable {α β : Type} {address : Address} {block : β} {rest : Assertion β}
  {after : α → Assertion β}

theorem lookup_of_owns {heap : Heap β}
    (holds : (owns address block * rest).Holds heap.cells) :
    heap.cells.lookup address = some block ∧ address ∈ heap.cells := by
  obtain ⟨_, others, _, whole, rfl, _⟩ := holds
  have member : address ∈ (Finmap.singleton address block : Cells β) :=
    (Finmap.mem_singleton _ _ _).mpr rfl
  rw [whole]
  exact ⟨(Finmap.lookup_union_left member).trans Finmap.lookup_singleton_eq,
    Finmap.mem_union.mpr (.inl member)⟩

/-- Two blocks that are owned are at different addresses. -/
theorem owns_mul_le {other : Address} {second : β} :
    owns address block * owns other second ≤
      fact (address ≠ other) * (owns address block * owns other second) := by
  rintro _ ⟨_, _, apart, rfl, rfl, rfl⟩
  have differ : address ≠ other := by
    rintro rfl
    exact apart address ((Finmap.mem_singleton _ _ _).mpr rfl)
      ((Finmap.mem_singleton _ _ _).mpr rfl)
  exact le_fact_mul differ le_rfl _ ⟨_, _, apart, rfl, rfl, rfl⟩

theorem owns_apart_le {other : Address} {second : β}
    {left right : Assertion β} :
    owns address block * left * (owns other second * right) ≤
      fact (address ≠ other) *
        (owns address block * left * (owns other second * right)) := by
  rw [mul_mul_mul_comm]
  exact (mul_le_mul_left owns_mul_le _).trans (mul_assoc _ _ _).le

theorem within_loadBlock (pointer : Option Address) :
    Within Eq (loadBlock pointer : Allocating β β) := by
  cases pointer with
  | none => exact .throw _
  | some address =>
      refine .get_bind fun heap => ?_
      split <;> rfl

theorem triple_loadBlock (address : Address) (block : β) :
    Triple (owns address block) (loadBlock (some address)) fun found =>
      fact (found = block) * owns address block := by
  intro rest heap holds
  refine ⟨block, heap, ?_, ?_⟩
  · rw [loadBlock, exec_bind_of_ok (exec_get heap), (lookup_of_owns holds).1]
    rfl
  · change (fact (block = block) * _ * _).Holds _
    rwa [fact_eq_one rfl, one_mul]

theorem triple_storeBlock (address : Address) (old block : β) :
    Triple (owns address old) (storeBlock block (some address)) fun _ =>
      owns address block := by
  intro rest heap holds
  refine ⟨⟨⟩, { heap with cells := heap.cells.insert address block }, ?_, ?_⟩
  · rw [storeBlock, exec_bind_of_ok (exec_get heap),
      if_pos (lookup_of_owns holds).2]
    rfl
  · obtain ⟨_, others, apart, whole, rfl, holds⟩ := holds
    refine ⟨_, others, fun other member => ?_, ?_, rfl, holds⟩
    · rw [Finmap.mem_singleton] at member
      exact apart other ((Finmap.mem_singleton _ _ _).mpr member)
    · rw [whole, Finmap.insert_union, Finmap.insert_singleton_eq]

theorem triple_freeBlock (address : Address) (block : β) :
    Triple (owns address block) (freeBlock (some address)) fun _ => 1 := by
  intro rest heap holds
  refine ⟨⟨⟩, { heap with cells := heap.cells.erase address }, ?_, ?_⟩
  · rw [freeBlock, exec_bind_of_ok (exec_get heap),
      if_pos (lookup_of_owns holds).2]
    rfl
  · obtain ⟨_, others, apart, whole, rfl, holds⟩ := holds
    have absent : address ∉ others :=
      apart address ((Finmap.mem_singleton _ _ _).mpr rfl)
    have erased : heap.cells.erase address = others := by
      rw [whole]
      refine Finmap.ext_lookup fun other => ?_
      by_cases same : other = address
      · rw [same, Finmap.lookup_erase, Finmap.lookup_eq_none.mpr absent]
      · rw [Finmap.lookup_erase_ne same, Finmap.lookup_union_right]
        rwa [Finmap.mem_singleton]
    rw [one_mul, erased]
    exact holds

/-- A new block, or NULL where the request is refused. -/
theorem triple_allocateBlock (allocator : Allocator β) (block : β) :
    Triple 1 (allocateBlock allocator block) fun pointer =>
      match pointer with
      | none => fact (¬ allocator.Generous)
      | some address => owns address block := by
  intro rest heap holds
  rw [one_mul] at holds
  rw [allocateBlock, exec_bind_of_ok (exec_get heap)]
  cases placed : allocator.place heap.requests heap.cells with
  | none =>
      refine ⟨none, _, rfl, ?_⟩
      rw [fact_eq_one fun generous => generous _ _ placed, one_mul]
      exact holds
  | some address =>
      have absent := allocator.fresh placed
      refine ⟨some address, _, rfl, _, heap.cells, fun other member inside => ?_,
        ?_, rfl, holds⟩
      · rw [Finmap.mem_singleton] at member
        exact absent (member ▸ inside)
      · change heap.cells.insert address block = _
        have whole : (∅ ∪ heap.cells).insert address block =
            Finmap.insert address block ∅ ∪ heap.cells := Finmap.insert_union
        rwa [Finmap.empty_union] at whole

end Blocks

end ShelterServer.Foundations
