import ShelterServer.JsonLiterals

/-!
# Elements between brackets

The loops of `parse_array` and `parse_object` share their shape: elements with
commas in between, read from the byte in front of each, up to the closing
bracket.
-/

namespace ShelterServer

open Foundations Reader

/-! ## Blanks -/

/-- Nothing that separates is next. -/
def NoBlank (rest : Bytes) : Prop :=
  ∀ byte ∈ rest.head?, isBlank byte = false

theorem exists_blank_append (text : Bytes) :
    ∃ space rest, text = space ++ rest ∧ Blank space ∧ NoBlank rest := by
  refine ⟨text.takeWhile isBlank, text.dropWhile isBlank,
    List.takeWhile_append_dropWhile.symm, fun _ => List.mem_takeWhile_imp, ?_⟩
  intro byte head
  have stop := List.head?_dropWhile_not isBlank text
  rw [Option.mem_def.mp head] at stop
  exact stop

theorem reads_bufferSkipWhitespace {space rest : Bytes} (blank : Blank space)
    (stop : NoBlank rest) :
    Reads bufferSkipWhitespace (space ++ rest) ⟨⟩ rest where
  suffix := List.suffix_append space rest
  run buffer ahead := by
    have length := ahead.length
    have moved := ahead.moveTo_offset
    rw [List.length_append] at length
    have inside : ¬ buffer.content.length ≤ buffer.offset := by omega
    rw [bufferSkipWhitespace, Faulting.exec_modify]
    simp only [if_neg inside, ahead.drop]
    congr 1
    cases rest with
    | nil =>
        have all : ∀ byte ∈ space ++ [] ++ [0], isBlank byte = true := by
          intro byte member
          rw [List.append_nil] at member
          obtain inSpace | nul := List.mem_append.mp member
          · exact blank byte inSpace
          · obtain rfl := List.mem_singleton.mp nul
            rfl
        have passed : buffer.offset + (space ++ [] ++ [0]).length =
            buffer.content.length := by
          simp only [List.length_append, List.length_nil,
            List.length_singleton] at length ⊢
          omega
        rw [List.takeWhile_eq_self_iff.mpr all, if_pos passed, passed]
        rfl
    | cons byte bytes =>
        have front : (space ++ byte :: bytes ++ [0]).takeWhile isBlank =
            space := by
          rw [List.append_assoc]
          exact takeWhile_append_of_stop blank stop
        have before : ¬ buffer.offset + space.length =
            buffer.content.length := by
          rw [List.length_cons] at length
          omega
        rw [front, if_neg before, ← moved]
        rfl

/-! ## The loop -/

section Enclosed

variable {α : Type} {element : Reader α} {form : Bytes → α → Prop}
  {close : UInt8}

/-- What may follow an element between brackets. -/
def EndsElement (close : UInt8) (rest : Bytes) : Prop :=
  ∃ byte bytes, rest = byte :: bytes ∧
    (isBlank byte = true ∨ byte = 44 ∨ byte = close)

/-- Elements that can stand between brackets: none begins with a blank or the
closing bracket, and whatever follows them there ends them. -/
structure Elements (element : Reader α) (form : Bytes → α → Prop)
    (close : UInt8) : Prop where
  sound : ∀ text, FindsOnly element (fun piece value _ => form piece value) text
  complete : ∀ {piece value rest}, form piece value → EndsElement close rest →
    Reads element (piece ++ rest) value rest
  begins : ∀ {piece value}, form piece value → ∃ byte bytes,
    piece = byte :: bytes ∧ isBlank byte = false ∧ byte ≠ close
  notComma : close ≠ 44
  notBlank : isBlank close = false

theorem commaSeparated_sound (elements : Elements element form close)
    {turns : Nat} (first : UInt8) {text : Bytes}
    (enough : text.length < turns) :
    Rejects (commaSeparated element turns) (first :: text) ∨
      ∃ piece values rest, text = piece ++ rest ∧ Separated form piece values ∧
        Reads (commaSeparated element turns) (first :: text) values rest := by
  induction turns generalizing first text with
  | zero => cases enough
  | succ turns induction =>
      have opened := reads_advance_one first text
      obtain ⟨before, front, rfl, blankBefore, stop⟩ := exists_blank_append text
      have skipped := reads_bufferSkipWhitespace blankBefore stop
      unfold commaSeparated
      obtain rejects | ⟨piece, value, behind, rfl, found, reads⟩ :=
        elements.sound front
      · exact .inl (opened.bind_rejects
          (skipped.bind_rejects (rejects.bind _)))
      obtain ⟨after, rest, rfl, blankAfter, stop⟩ := exists_blank_append behind
      have passed := reads_bufferSkipWhitespace blankAfter stop
      have looked := reads_look rest 0
      by_cases comma : (rest ++ [0])[0]? = some 44
      · cases rest with
        | nil => cases comma
        | cons byte text =>
            obtain rfl : byte = 44 := Option.some.inj comma
            have shorter : text.length < turns := by
              simp only [List.length_append, List.length_cons] at enough
              omega
            obtain rejects | ⟨piece', values, rest, rfl, separated, later⟩ :=
              induction 44 shorter
            · refine .inl (opened.bind_rejects (skipped.bind_rejects
                (reads.bind_rejects (passed.bind_rejects
                  (looked.bind_rejects ?_)))))
              rw [if_pos comma]
              exact rejects.bind _
            · refine .inr ⟨before ++ (piece ++ (after ++ 44 :: piece')), _,
                rest, by simp, .more blankBefore found blankAfter separated,
                opened.bind (skipped.bind (reads.bind (passed.bind
                  (looked.bind ?_))))⟩
              rw [if_pos comma]
              exact later.bind (.pure _ _)
      · refine .inr ⟨before ++ (piece ++ after), _, rest, by simp,
          .last blankBefore found blankAfter,
          opened.bind (skipped.bind (reads.bind (passed.bind
            (looked.bind ?_))))⟩
        rw [if_neg comma]
        exact .pure _ _

theorem EndsElement.append_left {after tail : Bytes} (blank : Blank after)
    (ends : EndsElement close tail) : EndsElement close (after ++ tail) := by
  cases after with
  | nil => exact ends
  | cons byte after =>
      exact ⟨byte, after ++ tail, rfl, .inl (blank byte List.mem_cons_self)⟩

/-- One element, from the byte in front of it to the byte behind it. -/
theorem reads_element {β : Type} (elements : Elements element form close)
    {before piece after tail rest : Bytes} {value : α} {result : β}
    {next : α → Reader β} (blankBefore : Blank before)
    (found : form piece value) (blankAfter : Blank after) (stop : NoBlank tail)
    (ends : EndsElement close tail)
    (later : Reads (next value) tail result rest) (first : UInt8) :
    Reads
      (do
        advance 1
        bufferSkipWhitespace
        let value ← element
        bufferSkipWhitespace
        next value)
      (first :: (before ++ (piece ++ (after ++ tail)))) result rest := by
  have opened := reads_advance_one first (before ++ (piece ++ (after ++ tail)))
  have begins : NoBlank (piece ++ (after ++ tail)) := by
    obtain ⟨byte, bytes, rfl, notBlank, _⟩ := elements.begins found
    intro other head
    obtain rfl : byte = other := Option.some.inj head
    exact notBlank
  have skipped := reads_bufferSkipWhitespace blankBefore begins
  have reads := elements.complete found (ends.append_left blankAfter)
  have passed := reads_bufferSkipWhitespace blankAfter stop
  exact opened.bind (skipped.bind (reads.bind (passed.bind later)))

theorem commaSeparated_complete (elements : Elements element form close)
    {piece : Bytes} {values : List α} (separated : Separated form piece values)
    {turns : Nat} (enough : piece.length < turns) (first : UInt8)
    (rest : Bytes) :
    Reads (commaSeparated element turns) (first :: (piece ++ close :: rest))
      values (close :: rest) := by
  induction separated generalizing turns first with
  | @last before piece after value blankBefore found blankAfter =>
      obtain ⟨turns, rfl⟩ :=
        Nat.exists_eq_add_one_of_ne_zero (Nat.ne_zero_of_lt enough)
      have stop : NoBlank (close :: rest) := by
        intro byte head
        obtain rfl : close = byte := Option.some.inj head
        exact elements.notBlank
      rw [List.append_assoc, List.append_assoc]
      refine reads_element elements blankBefore found blankAfter stop
        ⟨close, rest, rfl, .inr (.inr rfl)⟩ ?_ first
      refine (reads_look_cons close rest).bind ?_
      have notComma : ¬ some close = some 44 := fun comma =>
        elements.notComma (Option.some.inj comma)
      rw [if_neg notComma]
      exact .pure _ _
  | @more before piece after text value values blankBefore found blankAfter
      separated induction =>
      obtain ⟨turns, rfl⟩ :=
        Nat.exists_eq_add_one_of_ne_zero (Nat.ne_zero_of_lt enough)
      have stop : NoBlank (44 :: (text ++ close :: rest)) := by
        intro byte head
        obtain rfl : 44 = byte := Option.some.inj head
        rfl
      have shorter : text.length < turns := by
        simp only [List.length_append, List.length_cons] at enough
        omega
      have later := induction shorter 44
      simp only [List.append_assoc, List.cons_append]
      refine reads_element elements blankBefore found blankAfter stop
        ⟨44, _, rfl, .inr (.inl rfl)⟩ ?_ first
      refine (reads_look_cons 44 _).bind ?_
      rw [if_pos rfl]
      exact later.bind (.pure _ _)

/-! ### From bracket to bracket -/

theorem filled_sound (elements : Elements element form close)
    (first : UInt8) (text : Bytes) :
    Rejects (filled close element) (first :: text) ∨
      ∃ piece values rest, text = piece ++ close :: rest ∧
        Separated form piece values ∧
        Reads (filled close element) (first :: text) values rest := by
  have ahead := reads_remaining (first :: text)
  have enough : text.length < (first :: text ++ [0]).length := by
    simp only [List.length_append, List.length_cons]
    omega
  unfold filled
  obtain rejects | ⟨piece, values, rest, rfl, separated, reads⟩ :=
    commaSeparated_sound elements first enough
  · exact .inl (ahead.bind_rejects (rejects.bind _))
  have looked := reads_look rest 0
  by_cases closed : (rest ++ [0])[0]? = some close
  · cases rest with
    | nil =>
        obtain rfl : 0 = close := Option.some.inj closed
        cases elements.notBlank
    | cons byte rest =>
        obtain rfl : byte = close := Option.some.inj closed
        refine .inr ⟨piece, values, rest, rfl, separated,
          ahead.bind (reads.bind (looked.bind ?_))⟩
        rw [if_pos closed]
        exact (reads_advance_one byte rest).bind (.pure _ _)
  · refine .inl (ahead.bind_rejects (reads.bind_rejects
      (looked.bind_rejects ?_)))
    rw [if_neg closed]
    exact Rejects.throw rest

theorem filled_complete (elements : Elements element form close)
    {piece : Bytes} {values : List α} (separated : Separated form piece values)
    (first : UInt8) (rest : Bytes) :
    Reads (filled close element) (first :: (piece ++ close :: rest)) values
      rest := by
  have ahead := reads_remaining (first :: (piece ++ close :: rest))
  have enough :
      piece.length < (first :: (piece ++ close :: rest) ++ [0]).length := by
    simp only [List.length_append, List.length_cons]
    omega
  have reads := commaSeparated_complete elements separated enough first rest
  unfold filled
  refine ahead.bind (reads.bind ((reads_look_cons close rest).bind ?_))
  rw [if_pos rfl]
  exact (reads_advance_one close rest).bind (.pure _ _)

/-- Stepping back puts the byte in front of the rest ahead again. -/
theorem exec_retreat_moveTo (cursor : Cursor) (byte : UInt8) (rest : Bytes) :
    Faulting.exec retreat (cursor.moveTo rest) =
      (.ok ⟨⟩, cursor.moveTo (byte :: rest)) := by
  rw [retreat, Faulting.exec_modify]
  simp only [Cursor.moveTo, List.length_cons, Nat.sub_add_eq]

/-- The byte in front of a first element is the bracket or a blank. -/
theorem exists_last (opening : UInt8) (space : Bytes) :
    ∃ front last, opening :: space = front ++ [last] :=
  ⟨(opening :: space).dropLast, _,
    (List.dropLast_append_getLast (List.cons_ne_nil opening space)).symm⟩

section Opening

variable {opening byte : UInt8} {space rest : Bytes}

/-- With an element next, the loop starts from the byte in front of it. -/
theorem exec_enclosed (element : Reader α) (opening : UInt8)
    (blank : Blank space) (stop : NoBlank rest)
    (first : rest.head?.getD 0 = byte) (other : byte ≠ close) :
    ∃ last, last :: rest <:+ opening :: (space ++ rest) ∧
      ∀ buffer : ParseBuffer, buffer.Ahead (opening :: (space ++ rest)) →
        Faulting.exec (enclosed close element) buffer =
          Faulting.exec (filled close element)
            (buffer.moveTo (last :: rest)) := by
  obtain ⟨front, last, whole⟩ := exists_last opening space
  have opened := reads_advance_one opening (space ++ rest)
  have skipped := reads_bufferSkipWhitespace blank stop
  have looked : Reads (look 0) rest (some byte) rest := by
    have reads := reads_look rest 0
    cases rest with
    | nil =>
        obtain rfl : 0 = byte := first
        exact reads
    | cons next rest =>
        obtain rfl : next = byte := first
        exact reads
  refine ⟨last, ⟨front, by rw [← List.cons_append, whole]; simp⟩, ?_⟩
  intro buffer ahead
  have behindOpening := ahead.moveTo opened.suffix
  have behindSpace := ahead.moveTo (skipped.suffix.trans opened.suffix)
  rw [enclosed, Faulting.exec_bind_of_ok (opened.run buffer ahead),
    Faulting.exec_bind_of_ok (skipped.run _ behindOpening),
    Cursor.moveTo_moveTo,
    Faulting.exec_bind_of_ok (looked.run _ behindSpace), Cursor.moveTo_moveTo]
  simp only [if_neg other]
  rw [Faulting.exec_bind_of_ok (exec_retreat_moveTo buffer last rest)]

/-- With the closing bracket next, there are no elements. -/
theorem reads_enclosed_empty (element : Reader α) (opening : UInt8)
    (blank : Blank space)
    (notBlank : isBlank close = false) (rest : Bytes) :
    Reads (enclosed close element) (opening :: (space ++ close :: rest)) []
      rest := by
  have stop : NoBlank (close :: rest) := by
    intro byte head
    obtain rfl : close = byte := Option.some.inj head
    exact notBlank
  have opened := reads_advance_one opening (space ++ close :: rest)
  have skipped := reads_bufferSkipWhitespace blank stop
  unfold enclosed
  refine opened.bind (skipped.bind ((reads_look_cons close rest).bind ?_))
  dsimp only
  rw [if_pos rfl]
  exact (reads_advance_one close rest).bind (.pure _ _)

theorem Separated.prepend {text : Bytes} {values : List α} (blank : Blank space)
    (separated : Separated form text values) :
    Separated form (space ++ text) values := by
  have joined : ∀ {before}, Blank before → Blank (space ++ before) :=
    fun blankBefore byte member =>
      (List.mem_append.mp member).elim (blank byte) (blankBefore byte)
  cases separated with
  | last blankBefore found blankAfter =>
      rw [← List.append_assoc]
      exact .last (joined blankBefore) found blankAfter
  | more blankBefore found blankAfter rest =>
      rw [← List.append_assoc]
      exact .more (joined blankBefore) found blankAfter rest

/-- The blanks in front of the first element, and what it begins with. -/
theorem Separated.exists_first (elements : Elements element form close)
    {text : Bytes} {values : List α} (separated : Separated form text values) :
    ∃ space byte bytes, text = space ++ byte :: bytes ∧ Blank space ∧
      isBlank byte = false ∧ byte ≠ close ∧
      Separated form (byte :: bytes) values := by
  have none : Blank [] := fun _ member => nomatch member
  cases separated with
  | last blankBefore found blankAfter =>
      obtain ⟨byte, bytes, rfl, notBlank, other⟩ := elements.begins found
      exact ⟨_, byte, _, rfl, blankBefore, notBlank, other,
        .last none found blankAfter⟩
  | more blankBefore found blankAfter rest =>
      obtain ⟨byte, bytes, rfl, notBlank, other⟩ := elements.begins found
      exact ⟨_, byte, _, rfl, blankBefore, notBlank, other,
        .more none found blankAfter rest⟩

theorem enclosed_sound (elements : Elements element form close)
    (opening : UInt8) (text : Bytes) :
    Rejects (enclosed close element) (opening :: text) ∨
      ∃ piece values rest, opening :: text = piece ++ rest ∧
        Enclosed opening close form piece values ∧
        Reads (enclosed close element) (opening :: text) values rest := by
  obtain ⟨space, rest, rfl, blank, stop⟩ := exists_blank_append text
  by_cases closed : rest.head?.getD 0 = close
  · cases rest with
    | nil =>
        obtain rfl : 0 = close := closed
        cases elements.notBlank
    | cons byte rest =>
        obtain rfl : byte = close := closed
        exact .inr ⟨opening :: (space ++ [byte]), [], rest, by simp,
          .empty blank,
          reads_enclosed_empty element opening blank elements.notBlank rest⟩
  · obtain ⟨last, suffix, run⟩ := exec_enclosed element opening blank stop rfl
      closed
    obtain rejects | ⟨piece, values, rest, rfl, separated, reads⟩ :=
      filled_sound elements last rest
    · refine .inl fun buffer ahead => ?_
      rw [run buffer ahead]
      exact rejects _ (ahead.moveTo suffix)
    · refine .inr ⟨opening :: (space ++ piece ++ [close]), values, rest,
        by simp, .filled (separated.prepend blank), reads.suffix.trans suffix,
        fun buffer ahead => ?_⟩
      rw [run buffer ahead, reads.run _ (ahead.moveTo suffix),
        Cursor.moveTo_moveTo]

theorem enclosed_complete (elements : Elements element form close)
    {piece : Bytes} {values : List α}
    (enclosing : Enclosed opening close form piece values) (rest : Bytes) :
    Reads (enclosed close element) (piece ++ rest) values rest := by
  cases enclosing with
  | empty blank =>
      have reads := reads_enclosed_empty element opening blank
        elements.notBlank rest
      simpa using reads
  | filled separated =>
      obtain ⟨space, byte, bytes, rfl, blank, notBlank, other, separated⟩ :=
        separated.exists_first elements
      have stop : NoBlank (byte :: (bytes ++ close :: rest)) := by
        intro first head
        obtain rfl : byte = first := Option.some.inj head
        exact notBlank
      obtain ⟨last, suffix, run⟩ := exec_enclosed element opening blank stop
        rfl other
      have reads := filled_complete elements separated last rest
      have whole : opening :: (space ++ byte :: bytes ++ [close]) ++ rest =
          opening :: (space ++ byte :: (bytes ++ close :: rest)) := by
        simp
      rw [whole]
      refine ⟨reads.suffix.trans suffix, fun buffer ahead => ?_⟩
      rw [run buffer ahead]
      have moved := reads.run _ (ahead.moveTo suffix)
      rwa [Cursor.moveTo_moveTo] at moved

end Opening

end Enclosed

end ShelterServer
