import Mathlib.Data.List.Forall2
import Mathlib.Data.List.Infix

/-!
# Cuts of a stream of messages

Messages are sent without separators, and the receiver cuts their
concatenation into blocks of its own.  If the receiver finds the messages one
by one in some of the blocks, and never finds a message in a proper part of
itself, then the blocks are the messages.
-/

namespace ShelterServer.Foundations

universe u

variable {α : Type u}

/-- Consecutive blocks of a stream, none of them empty or longer than a
limit. -/
structure CutInto (limit : Nat) (stream : List α) (blocks : List (List α)) :
    Prop where
  flatten : blocks.flatten = stream
  nonempty : ∀ block ∈ blocks, block ≠ []
  limited : ∀ block ∈ blocks, block.length ≤ limit

/-- A block that lies inside its message is the whole message. -/
def Whole (block message : List α) : Prop :=
  block <:+: message → block = message

/-- Some blocks stand for the messages, in order; the others are skipped. -/
inductive StandFor : List (List α) → List (List α) → Prop
  | nil : StandFor [] []
  | skip {block : List α} {blocks messages : List (List α)}
      (nonempty : block ≠ []) (rest : StandFor blocks messages) :
      StandFor (block :: blocks) messages
  | take {block message : List α} {blocks messages : List (List α)}
      (whole : Whole block message) (rest : StandFor blocks messages) :
      StandFor (block :: blocks) (message :: messages)

theorem StandFor.of_forall₂_whole {blocks messages : List (List α)}
    (wholes : List.Forall₂ Whole blocks messages) :
    StandFor blocks messages := by
  induction wholes with
  | nil => exact .nil
  | cons whole _ induction => exact .take whole induction

/-- Blocks that begin behind the first message never catch up with it. -/
theorem StandFor.behind_eq_nil {blocks messages : List (List α)}
    (standFor : StandFor blocks messages) {behind : List α}
    (stream : behind ++ blocks.flatten = messages.flatten) : behind = [] := by
  induction standFor generalizing behind with
  | nil => simpa using stream
  | skip nonempty _ induction =>
      rw [List.flatten_cons, ← List.append_assoc] at stream
      exact (nonempty (List.append_eq_nil_iff.mp (induction stream)).2).elim
  | @take block message blocks messages whole _ induction =>
      rw [List.flatten_cons, List.flatten_cons, ← List.append_assoc,
        List.append_eq_append_iff] at stream
      have fits : ∀ rest, message = behind ++ block ++ rest → behind = [] := by
        intro rest split
        have same := whole ⟨behind, rest, split.symm⟩
        have lengths := congrArg List.length (same.trans split)
        simp only [List.length_append] at lengths
        exact List.length_eq_zero_iff.mp (by omega)
      obtain ⟨rest, split, _⟩ | ⟨rest, split, remaining⟩ := stream
      · exact fits rest split
      · have none : rest = [] := induction remaining.symm
        apply fits []
        rw [split, none, List.append_nil, List.append_nil]

/-- Two cuts of one stream, of which the first stands for the second, are the
same. -/
theorem StandFor.eq {blocks messages : List (List α)}
    (standFor : StandFor blocks messages)
    (stream : blocks.flatten = messages.flatten) : blocks = messages := by
  induction standFor with
  | nil => rfl
  | skip nonempty rest _ =>
      rw [List.flatten_cons] at stream
      exact (nonempty (rest.behind_eq_nil stream)).elim
  | @take block message blocks messages whole rest induction =>
      rw [List.flatten_cons, List.flatten_cons] at stream
      have same : block = message := by
        obtain ⟨remainder, split, _⟩ | ⟨remainder, split, behind⟩ :=
          List.append_eq_append_iff.mp stream
        · exact whole ⟨[], remainder, split.symm⟩
        · rw [split, rest.behind_eq_nil behind.symm, List.append_nil]
      rw [same, List.append_cancel_left_eq] at stream
      rw [same, induction stream]

end ShelterServer.Foundations
