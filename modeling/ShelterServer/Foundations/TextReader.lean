import ShelterServer.Foundations.ByteString
import ShelterServer.Foundations.Faulting

/-!
# Readers of a text in memory

A reader moves through an array that holds a text and the NUL behind it.  An
access outside of the array and a loop that makes more turns than it may show
as faults of their own, apart from the refusal of a text that has not the form
that is read.  What a reader does is stated in terms of the text ahead of it.
-/

namespace ShelterServer.Foundations

open Faulting

inductive ReadFault where
  /-- The text is not of the form that is read. -/
  | rejected
  /-- An access outside of an array. -/
  | outside
  /-- A loop that goes on for longer than its array lasts. -/
  | endless
  deriving DecidableEq

/-- A position in an array. -/
structure Cursor where
  content : Bytes
  offset : Nat

abbrev Reader := Faulting ReadFault Cursor

namespace Cursor

/-- From the position to the end of the array there is a text and its NUL. -/
structure Ahead (cursor : Cursor) (text : Bytes) : Prop where
  drop : cursor.content.drop cursor.offset = text ++ [0]
  nulFree : 0 ∉ text

/-- The position from which a rest of the text is ahead. -/
def moveTo (cursor : Cursor) (rest : Bytes) : Cursor :=
  { cursor with offset := cursor.content.length - (rest.length + 1) }

variable {cursor : Cursor} {text rest : Bytes}

theorem Ahead.length (ahead : cursor.Ahead text) :
    cursor.offset + (text.length + 1) = cursor.content.length := by
  have lengths := congrArg List.length ahead.drop
  simp only [List.length_drop, List.length_append, List.length_cons,
    List.length_nil] at lengths
  omega

theorem Ahead.moveTo_self (ahead : cursor.Ahead text) :
    cursor.moveTo text = cursor := by
  have length := ahead.length
  have offset : cursor.content.length - (text.length + 1) = cursor.offset := by
    omega
  rw [moveTo, offset]

@[simp] theorem moveTo_moveTo (cursor : Cursor) (text rest : Bytes) :
    (cursor.moveTo text).moveTo rest = cursor.moveTo rest :=
  rfl

theorem Ahead.moveTo_offset {front : Bytes}
    (ahead : cursor.Ahead (front ++ rest)) :
    (cursor.moveTo rest).offset = cursor.offset + front.length := by
  have length := ahead.length
  rw [List.length_append] at length
  change cursor.content.length - (rest.length + 1) = _
  omega

theorem Ahead.moveTo_append {front : Bytes}
    (ahead : cursor.Ahead (front ++ rest)) : (cursor.moveTo rest).Ahead rest := by
  constructor
  · rw [ahead.moveTo_offset, ← List.drop_drop]
    change (cursor.content.drop cursor.offset).drop front.length = _
    rw [ahead.drop, List.append_assoc, List.drop_left]
  · exact fun member => ahead.nulFree (List.mem_append_right _ member)

theorem Ahead.moveTo (ahead : cursor.Ahead text) (suffix : rest <:+ text) :
    (cursor.moveTo rest).Ahead rest := by
  obtain ⟨front, rfl⟩ := suffix
  exact ahead.moveTo_append

theorem Ahead.moveTo_inj {other : Bytes} (ahead : cursor.Ahead text)
    (left : rest <:+ text) (right : other <:+ text)
    (same : cursor.moveTo rest = cursor.moveTo other) : rest = other := by
  have drops := (ahead.moveTo left).drop
  rw [same, (ahead.moveTo right).drop] at drops
  exact (List.append_cancel_right drops).symm

theorem Ahead.getElem? (ahead : cursor.Ahead text) (index : Nat) :
    cursor.content[cursor.offset + index]? = (text ++ [0])[index]? := by
  rw [← ahead.drop, List.getElem?_drop]

/-- A text at the front of an array. -/
theorem ahead_start (nulFree : 0 ∉ text) : Ahead ⟨text ++ [0], 0⟩ text :=
  ⟨rfl, nulFree⟩

end Cursor

namespace Reader

/-- `buffer[offset + index]`, refused outside of the array. -/
def peek (index : Nat) : Reader UInt8 := do
  let cursor ← get
  match cursor.content[cursor.offset + index]? with
  | some byte => pure byte
  | none => throw .outside

/-- The same access behind a comparison with the length of the array. -/
def look (index : Nat) : Reader (Option UInt8) := do
  let cursor ← get
  pure cursor.content[cursor.offset + index]?

/-- The bytes up to the end of the array, for a loop that compares every
position with its length. -/
def remaining : Reader Bytes := do
  let cursor ← get
  pure (cursor.content.drop cursor.offset)

/-- `offset += count`. -/
def advance (count : Nat) : Reader PUnit :=
  modify fun cursor => { cursor with offset := cursor.offset + count }

/-- `offset--`. -/
def retreat : Reader PUnit :=
  modify fun cursor => { cursor with offset := cursor.offset - 1 }

/-- Moves to the place with so many bytes behind it, up to the end of the
array. -/
def seek (behind : Nat) : Reader PUnit :=
  modify fun cursor =>
    { cursor with offset := cursor.content.length - behind }

end Reader

/-! ## What a reader does with a text -/

variable {α β : Type} {reader : Reader α} {next : α → Reader β}
  {text middle rest : Bytes} {value : α} {result : β}

/-- With the text ahead of it the reader returns the value and leaves the
rest. -/
structure Reads (reader : Reader α) (text : Bytes) (value : α) (rest : Bytes) :
    Prop where
  suffix : rest <:+ text
  run : ∀ cursor : Cursor, cursor.Ahead text →
    exec reader cursor = (.ok value, cursor.moveTo rest)

/-- With the text ahead of it the reader refuses it. -/
def Rejects (reader : Reader α) (text : Bytes) : Prop :=
  ∀ cursor : Cursor, cursor.Ahead text →
    ∃ stopped, exec reader cursor = (.error .rejected, stopped)

theorem Reads.pure (value : α) (text : Bytes) :
    Reads (Pure.pure value) text value text where
  suffix := List.suffix_refl text
  run cursor ahead := by rw [exec_pure, ahead.moveTo_self]

theorem Reads.bind (first : Reads reader text value middle)
    (second : Reads (next value) middle result rest) :
    Reads (reader >>= next) text result rest where
  suffix := second.suffix.trans first.suffix
  run cursor ahead := by
    have moved := ahead.moveTo first.suffix
    rw [exec_bind_of_ok (first.run cursor ahead), second.run _ moved,
      Cursor.moveTo_moveTo]

theorem Rejects.throw (text : Bytes) :
    Rejects (throw .rejected : Reader α) text :=
  fun cursor _ => ⟨cursor, exec_throw _ _⟩

theorem Rejects.bind (first : Rejects reader text) (next : α → Reader β) :
    Rejects (reader >>= next) text := by
  intro cursor ahead
  obtain ⟨stopped, result⟩ := first cursor ahead
  exact ⟨stopped, by rw [exec_bind, result]⟩

theorem Reads.bind_rejects (first : Reads reader text value middle)
    (second : Rejects (next value) middle) :
    Rejects (reader >>= next) text := by
  intro cursor ahead
  obtain ⟨stopped, result⟩ := second _ (ahead.moveTo first.suffix)
  exact ⟨stopped, by rw [exec_bind_of_ok (first.run cursor ahead), result]⟩

/-- A text that can be ahead is read in one way only. -/
theorem Reads.unique {other : α} {otherRest : Bytes} (nulFree : 0 ∉ text)
    (first : Reads reader text value rest)
    (second : Reads reader text other otherRest) :
    value = other ∧ rest = otherRest := by
  have ahead := Cursor.ahead_start nulFree
  have same := (first.run _ ahead).symm.trans (second.run _ ahead)
  obtain ⟨values, cursors⟩ := Prod.mk.injEq .. ▸ same
  exact ⟨Except.ok.inj values,
    ahead.moveTo_inj first.suffix second.suffix cursors⟩

/-- The reader stays where it is and returns the value, or refuses the text
where there is none. -/
def Answers (reader : Reader α) (text : Bytes) : Option α → Prop
  | some value => Reads reader text value text
  | none => Rejects reader text

theorem Reads.bind_answers {answer : Option β}
    (first : Reads reader text value text)
    (second : Answers (next value) text answer) :
    Answers (reader >>= next) text answer := by
  cases answer with
  | none => exact first.bind_rejects second
  | some result => exact first.bind second

/-- The reader refuses the text, or finds a piece at its front that stands for
a value before the rest. -/
def FindsOnly (reader : Reader α) (stands : Bytes → α → Bytes → Prop)
    (text : Bytes) : Prop :=
  Rejects reader text ∨
    ∃ piece value rest, text = piece ++ rest ∧ stands piece value rest ∧
      Reads reader text value rest

theorem Reads.bind_findsOnly {stands : Bytes → β → Bytes → Prop}
    (first : Reads reader text value text)
    (second : FindsOnly (next value) stands text) :
    FindsOnly (reader >>= next) stands text := by
  obtain rejects | ⟨piece, result, rest, whole, found, reads⟩ := second
  · exact .inl (first.bind_rejects rejects)
  · exact .inr ⟨piece, result, rest, whole, found, first.bind reads⟩

theorem FindsOnly.mono {stands weaker : Bytes → α → Bytes → Prop}
    (finds : FindsOnly reader stands text)
    (implies : ∀ {piece value rest}, stands piece value rest →
      weaker piece value rest) : FindsOnly reader weaker text := by
  obtain rejects | ⟨piece, result, rest, whole, found, reads⟩ := finds
  · exact .inl rejects
  · exact .inr ⟨piece, result, rest, whole, implies found, reads⟩

/-- The reader accepts the pieces that stand for values at the front of a text,
and no others. -/
structure Recognises (reader : Reader α) (stands : Bytes → α → Bytes → Prop) :
    Prop where
  sound : ∀ text, FindsOnly reader stands text
  complete : ∀ {piece value rest}, stands piece value rest →
    Reads reader (piece ++ rest) value rest

section Accesses

open Reader

theorem reads_look (text : Bytes) (index : Nat) :
    Reads (look index) text (text ++ [0])[index]? text where
  suffix := List.suffix_refl text
  run cursor ahead := by
    rw [look, exec_bind_of_ok (exec_get cursor), exec_pure, ahead.getElem?,
      ahead.moveTo_self]

theorem reads_look_cons (byte : UInt8) (rest : Bytes) :
    Reads (look 0) (byte :: rest) (some byte) (byte :: rest) :=
  reads_look (byte :: rest) 0

theorem reads_peek {index : Nat} {byte : UInt8}
    (inside : (text ++ [0])[index]? = some byte) :
    Reads (peek index) text byte text where
  suffix := List.suffix_refl text
  run cursor ahead := by
    rw [peek, exec_bind_of_ok (exec_get cursor), ahead.getElem?, inside,
      ahead.moveTo_self]
    rfl

theorem reads_remaining (text : Bytes) :
    Reads remaining text (text ++ [0]) text where
  suffix := List.suffix_refl text
  run cursor ahead := by
    rw [remaining, exec_bind_of_ok (exec_get cursor), exec_pure, ahead.drop,
      ahead.moveTo_self]

theorem reads_advance (front rest : Bytes) :
    Reads (advance front.length) (front ++ rest) ⟨⟩ rest where
  suffix := List.suffix_append front rest
  run cursor ahead := by
    rw [advance, exec_modify, ← ahead.moveTo_offset]
    rfl

theorem reads_advance_one (byte : UInt8) (rest : Bytes) :
    Reads (advance 1) (byte :: rest) ⟨⟩ rest :=
  reads_advance [byte] rest

/-- What a reader that looks ahead finds is the NUL or a byte of the text. -/
theorem reads_peek_zero (text : Bytes) :
    ∃ byte, text.head?.getD 0 = byte ∧ Reads (peek 0) text byte text := by
  cases text with
  | nil => exact ⟨0, rfl, reads_peek rfl⟩
  | cons byte text => exact ⟨byte, rfl, reads_peek rfl⟩

theorem reads_seek (front rest : Bytes) :
    Reads (seek (rest.length + 1)) (front ++ rest) ⟨⟩ rest where
  suffix := List.suffix_append front rest
  run _ _ := rfl

end Accesses

end ShelterServer.Foundations
