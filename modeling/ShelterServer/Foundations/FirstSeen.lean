import Mathlib.Data.List.Induction
import Mathlib.Data.List.Nodup

/-!
# Bounded collections of first-seen items

An arriving item is kept when its key has not been seen among the kept items
and fewer items than the capacity are kept.  Collecting by a key gives the
first distinct keys in order of arrival.  Collecting by a coarser key than the
intended one agrees with the intended collection exactly when the coarser keys
of the intended collection are distinct.
-/

namespace ShelterServer.Foundations

universe u v w

section Collect

variable {Item : Type u} {Key : Type v} [DecidableEq Key]

/-- Keep an arrival if its key is new and there is room. -/
def keepFirst (key : Item → Key) (capacity : Nat) (kept : List Item)
    (arrival : Item) : List Item :=
  if key arrival ∈ kept.map key then kept
  else if kept.length < capacity then kept ++ [arrival]
  else kept

def collect (key : Item → Key) (capacity : Nat) (arrivals : List Item) :
    List Item :=
  arrivals.foldl (keepFirst key capacity) []

theorem collect_concat (key : Item → Key) (capacity : Nat)
    (arrivals : List Item) (arrival : Item) :
    collect key capacity (arrivals ++ [arrival]) =
      keepFirst key capacity (collect key capacity arrivals) arrival := by
  simp [collect]

theorem isPrefix_keepFirst (key : Item → Key) (capacity : Nat)
    (kept : List Item) (arrival : Item) :
    kept <+: keepFirst key capacity kept arrival := by
  unfold keepFirst
  split
  · exact List.prefix_rfl
  · split
    · exact List.prefix_append _ _
    · exact List.prefix_rfl

theorem collect_append (key : Item → Key) (capacity : Nat)
    (front back : List Item) :
    collect key capacity (front ++ back) =
      back.foldl (keepFirst key capacity) (collect key capacity front) :=
  List.foldl_append

theorem collect_isPrefix (key : Item → Key) (capacity : Nat)
    {front arrivals : List Item} (initial : front <+: arrivals) :
    collect key capacity front <+: collect key capacity arrivals := by
  obtain ⟨back, rfl⟩ := initial
  induction back using List.reverseRecOn with
  | nil => simp
  | append_singleton back arrival induction =>
      rw [← List.append_assoc, collect_concat]
      exact induction.trans (isPrefix_keepFirst key capacity _ arrival)

theorem collect_map {Other : Type*} (key : Item → Key) (capacity : Nat)
    (item : Other → Item) (arrivals : List Other) :
    collect key capacity (arrivals.map item) =
      (collect (key ∘ item) capacity arrivals).map item := by
  induction arrivals using List.reverseRecOn with
  | nil => rfl
  | append_singleton arrivals arrival induction =>
      rw [List.map_append, List.map_singleton, collect_concat, collect_concat,
        induction]
      simp only [keepFirst, List.map_map, List.length_map, Function.comp_apply]
      split
      · rfl
      · split
        · simp
        · rfl

theorem collect_keys_nodup (key : Item → Key) (capacity : Nat)
    (arrivals : List Item) :
    ((collect key capacity arrivals).map key).Nodup := by
  induction arrivals using List.reverseRecOn with
  | nil => simp [collect]
  | append_singleton arrivals arrival induction =>
      rw [collect_concat, keepFirst]
      split
      · exact induction
      · rename_i fresh
        split
        · rw [List.map_append, List.nodup_append]
          refine ⟨induction, by simp, ?_⟩
          intro seen member new newMember equality
          simp only [List.map_cons, List.map_nil, List.mem_singleton] at newMember
          exact fresh (newMember ▸ equality ▸ member)
        · exact induction

theorem eraseDups_concat (keys : List Key) (key : Key) :
    (keys ++ [key]).eraseDups =
      if key ∈ keys then keys.eraseDups else keys.eraseDups ++ [key] := by
  rw [List.eraseDups_append]
  by_cases seen : key ∈ keys
  · simp [List.removeAll, seen]
  · simp [List.removeAll, seen, List.eraseDups_cons]

/-- The collected keys are the first distinct keys in order of arrival. -/
theorem collect_keys (key : Item → Key) (capacity : Nat)
    (arrivals : List Item) :
    (collect key capacity arrivals).map key =
      (arrivals.map key).eraseDups.take capacity := by
  induction arrivals using List.reverseRecOn with
  | nil => simp [collect]
  | append_singleton arrivals arrival induction =>
      have length : (collect key capacity arrivals).length =
          min capacity (arrivals.map key).eraseDups.length := by
        have lengths := congrArg List.length induction
        simpa using lengths
      rw [collect_concat, List.map_append, List.map_singleton,
        eraseDups_concat, keepFirst, induction]
      by_cases seen : key arrival ∈ arrivals.map key
      · rw [if_pos seen]
        split
        · exact induction
        · rename_i absent
          split
          · rename_i room
            have whole : (arrivals.map key).eraseDups.take capacity =
                (arrivals.map key).eraseDups :=
              List.take_of_length_le (by omega)
            rw [whole, List.mem_eraseDups] at absent
            exact (absent seen).elim
          · exact induction
      · have absent : key arrival ∉
            (arrivals.map key).eraseDups.take capacity := by
          intro member
          exact seen (List.mem_eraseDups.mp (List.mem_of_mem_take member))
        rw [if_neg seen, if_neg absent]
        split
        · rename_i room
          rw [List.map_append, induction, List.map_singleton,
            List.take_of_length_le (by omega),
            List.take_of_length_le (by simp; omega)]
        · rename_i full
          rw [induction, List.take_append_of_le_length (by omega)]

end Collect

section Compare

variable {Item : Type u} {Fine : Type v} {Coarse : Type w}
  [DecidableEq Fine] [DecidableEq Coarse]
  {fine : Item → Fine} {coarse : Item → Coarse} {project : Fine → Coarse}

theorem collect_eq_of_nodup
    (factors : ∀ item, coarse item = project (fine item))
    (capacity : Nat) (arrivals : List Item)
    (distinct : ((collect fine capacity arrivals).map coarse).Nodup) :
    collect coarse capacity arrivals = collect fine capacity arrivals := by
  induction arrivals using List.reverseRecOn with
  | nil => rfl
  | append_singleton arrivals arrival induction =>
      rw [collect_concat] at distinct
      have initial : (collect fine capacity arrivals).map coarse <+:
          (keepFirst fine capacity (collect fine capacity arrivals) arrival).map
            coarse :=
        (isPrefix_keepFirst fine capacity _ arrival).map coarse
      have same := induction (initial.sublist.nodup distinct)
      rw [collect_concat, collect_concat, same]
      by_cases seen : fine arrival ∈ (collect fine capacity arrivals).map fine
      · obtain ⟨earlier, member, equality⟩ := List.mem_map.mp seen
        have seenCoarse :
            coarse arrival ∈ (collect fine capacity arrivals).map coarse := by
          refine List.mem_map.mpr ⟨earlier, member, ?_⟩
          rw [factors, factors, equality]
        rw [keepFirst, keepFirst, if_pos seen, if_pos seenCoarse]
      · by_cases room : (collect fine capacity arrivals).length < capacity
        · rw [keepFirst, if_neg seen, if_pos room, List.map_append,
            List.nodup_append] at distinct
          have fresh : coarse arrival ∉
              (collect fine capacity arrivals).map coarse := by
            intro member
            exact distinct.2.2 _ member (coarse arrival) (by simp) rfl
          rw [keepFirst, keepFirst, if_neg seen, if_neg fresh]
        · simp [keepFirst, room]

/-- Collecting by a coarser key identifies the intended items exactly when the
coarser keys of the first distinct items are themselves distinct. -/
theorem collect_identifies_iff
    (factors : ∀ item, coarse item = project (fine item))
    (capacity : Nat) (arrivals : List Item) :
    (collect coarse capacity arrivals).map fine =
        (arrivals.map fine).eraseDups.take capacity ↔
      (((arrivals.map fine).eraseDups.take capacity).map project).Nodup := by
  have coarseKeys : ∀ items : List Item,
      items.map coarse = (items.map fine).map project := by
    intro items
    rw [List.map_map]
    exact List.map_congr_left fun item _ => factors item
  constructor
  · intro identifies
    rw [← identifies, ← coarseKeys]
    exact collect_keys_nodup coarse capacity arrivals
  · intro distinct
    rw [← collect_keys fine, ← coarseKeys] at distinct
    rw [collect_eq_of_nodup factors capacity arrivals distinct, collect_keys]

end Compare

end ShelterServer.Foundations
