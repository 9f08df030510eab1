import ShelterServer.JsonTexts

/-!
# The printer and its texts

What the printer leaves in its buffer is the text of the tree.  No store
leaves the buffer, and the printer gives up only where the text is too long
for an `int` or an allocation fails.
-/

namespace ShelterServer

open Foundations Faulting Printer

/-- A text of the length was too long, or an allocation failed. -/
def Excuse (granted : Nat → Nat → Bool) (length : Nat) : Prop :=
  (∀ size newsize, granted size newsize = true) → intMax < (length : Int) + 2

/-- What the buffer holds, with room for so many bytes in all. -/
structure Holding (text : Bytes) (offset depth room : Nat)
    (state : PrintBuffer) : Prop where
  holds : state.buffer.Holds text
  offset : state.offset = offset
  depth : state.depth = depth
  room : room ≤ state.buffer.length
  limited : (state.buffer.length : Int) ≤ intMax

/-- The printer stands behind the text. -/
abbrev Behind (text : Bytes) (depth : Nat) : PrintBuffer → Prop :=
  Holding text text.length depth (text.length + 1)

/-- The text is finished with a NUL, and the printer stands somewhere in
it. -/
def Finished (text : Bytes) (depth : Nat) (state : PrintBuffer) : Prop :=
  ∃ front behind, text = front ++ behind ∧ 0 ∉ behind ∧
    Holding (text ++ [0]) front.length depth (text.length + 2) state

section Steps

variable {granted : Nat → Nat → Bool} {excuse : Prop}
  {text front behind : Bytes} {offset depth room length : Nat}

theorem Excuse.mono {longer : Nat} (excused : Excuse granted length)
    (le : length ≤ longer) : Excuse granted longer := by
  intro all
  have short := excused all
  omega

theorem Holding.weaken {state : PrintBuffer} {less : Nat}
    (holding : Holding (front ++ behind) offset depth room state)
    (le : less ≤ room) : Holding front offset depth less state where
  holds := holding.holds.of_append
  offset := holding.offset
  depth := holding.depth
  room := le.trans holding.room
  limited := holding.limited

theorem Holding.standsBehind {state : PrintBuffer}
    (holding : Holding text offset depth room state)
    (place : offset = text.length) (inside : text.length < room) :
    Behind text depth state where
  holds := holding.holds
  offset := holding.offset.trans place
  depth := holding.depth
  room := Nat.le_trans inside holding.room
  limited := holding.limited

theorem grownSize_cases {needed newsize : Nat}
    (grown : grownSize needed = some newsize) :
    needed ≤ newsize ∧ (newsize : Int) ≤ intMax := by
  unfold grownSize at grown
  unfold intMax at grown ⊢
  split_ifs at grown with large
  · obtain rfl := Option.some.inj grown
    omega
  · obtain rfl := Option.some.inj grown
    omega

theorem grownSize_eq_none {needed : Nat} (none : grownSize needed = none) :
    intMax < needed := by
  unfold grownSize at none
  split_ifs at none with large
  omega

/-- `ensure` finds the room it is asked for. -/
theorem reaches_ensure {needed : Nat} (inside : offset < room)
    (fits : offset + needed ≤ length + 1) :
    Reaches .refused (Excuse granted length) (Holding text offset depth room)
      (ensure granted needed)
      (Holding text offset depth (offset + (needed + 1))) := by
  intro state holding
  have stands := holding.offset
  have low := holding.room
  have valid : ¬ (state.buffer.length > 0 ∧
      state.offset ≥ state.buffer.length) := by omega
  rw [ensure, exec_bind_of_ok (exec_get state), if_neg valid]
  split_ifs with large enough
  · exact .inr ⟨state, rfl, fun _ => by omega⟩
  · exact .inl ⟨state, rfl, holding.holds, stands, holding.depth, by omega,
      holding.limited⟩
  · cases grown : grownSize (needed + (state.offset + 1)) with
    | none =>
        have tooLong := grownSize_eq_none grown
        exact .inr ⟨state, rfl, fun _ => by omega⟩
    | some newsize =>
        obtain ⟨wide, limited⟩ := grownSize_cases grown
        by_cases allocated : granted state.buffer.length newsize = true
        · refine .inl ⟨{ state with buffer := state.buffer.resize newsize },
            ?_, ?_, stands, holding.depth, ?_, ?_⟩
          · simp only [if_pos allocated]
            rfl
          · have kept := holding.holds.length_le
            exact holding.holds.resize newsize (by omega)
          · rw [Memory.length_resize]
            omega
          · rw [Memory.length_resize]
            exact limited
        · refine .inr ⟨state, ?_, fun all => (allocated (all _ _)).elim⟩
          simp only [if_neg allocated]
          rfl

theorem reaches_store {index : Nat} {bytes : Bytes}
    (place : front.length = offset + index)
    (fits : front.length + bytes.length ≤ room) :
    Reaches .refused excuse (Holding (front ++ behind) offset depth room)
      (store index bytes) (Holding (front ++ bytes) offset depth room) := by
  apply Reaches.of_ok
  intro state holding
  have low := holding.room
  obtain ⟨after, stored⟩ := Memory.exists_store
    (show front.length + bytes.length ≤ state.buffer.length by omega)
  have length := Memory.length_of_store stored
  refine ⟨{ state with buffer := after }, ?_,
    holding.holds.of_append.store stored, holding.offset, holding.depth, ?_, ?_⟩
  · rw [store, exec_bind_of_ok (exec_get state), holding.offset, ← place,
      stored]
    rfl
  · rw [length]
    exact low
  · rw [length]
    exact holding.limited

theorem reaches_append {index : Nat} {bytes : Bytes}
    (place : text.length = offset + index)
    (fits : text.length + bytes.length ≤ room) :
    Reaches .refused excuse (Holding text offset depth room)
      (store index bytes) (Holding (text ++ bytes) offset depth room) := by
  have stores : Reaches .refused excuse
      (Holding (text ++ []) offset depth room) (store index bytes)
      (Holding (text ++ bytes) offset depth room) :=
    reaches_store place fits
  rwa [List.append_nil] at stores

theorem reaches_advance (count : Nat) :
    Reaches .refused excuse (Holding text offset depth room) (advance count)
      (Holding text (offset + count) depth room) :=
  .of_ok fun _ holding => ⟨_, rfl, holding.holds,
    congrArg (· + count) holding.offset, holding.depth, holding.room,
    holding.limited⟩

theorem reaches_setDepth (change : Nat → Nat) :
    Reaches .refused excuse (Holding text offset depth room) (setDepth change)
      (Holding text offset (change depth) room) :=
  .of_ok fun _ holding => ⟨_, rfl, holding.holds, holding.offset,
    congrArg change holding.depth, holding.room, holding.limited⟩

/-- `update_offset` finds the NUL behind the text. -/
theorem reaches_updateOffset :
    Reaches .refused excuse (Finished text depth) updateOffset
      (Holding (text ++ [0]) text.length depth (text.length + 2)) := by
  apply Reaches.of_ok
  rintro state ⟨front, behind, rfl, noNul, holding⟩
  have holds := holding.holds
  rw [List.append_assoc] at holds
  have measured := Memory.stringLength_of_holds noNul holds.drop
  refine ⟨{ state with offset := state.offset + behind.length }, ?_,
    holding.holds, ?_, holding.depth, holding.room, holding.limited⟩
  · rw [updateOffset, exec_bind_of_ok (exec_get state), holding.offset,
      measured]
    rfl
  · rw [holding.offset, List.length_append]

end Steps

/-! ## Pieces of a text -/

section Pieces

variable {granted : Nat → Nat → Bool} {depth : Nat} {piece rest : Bytes}
  {action next : Printer PUnit}

/-- The printer passes from before the piece to behind it. -/
def Passes (granted : Nat → Nat → Bool) (depth : Nat) (action : Printer PUnit)
    (piece : Bytes) : Prop :=
  ∀ text, Reaches .refused (Excuse granted (text ++ piece).length)
    (Behind text depth) action (Behind (text ++ piece) depth)

/-- The printer finishes a text with the piece. -/
def Finishes (granted : Nat → Nat → Bool) (depth : Nat) (action : Printer PUnit)
    (piece : Bytes) : Prop :=
  ∀ text, Reaches .refused (Excuse granted (text ++ piece).length)
    (Behind text depth) action (Finished (text ++ piece) depth)

theorem Passes.pure : Passes granted depth (Pure.pure ⟨⟩) [] := by
  intro text
  rw [List.append_nil]
  exact Reaches.pure

theorem Passes.bind (first : Passes granted depth action piece)
    (second : Passes granted depth next rest) :
    Passes granted depth (action >>= fun _ => next) (piece ++ rest) := by
  intro text
  have tail := second (text ++ piece)
  rw [List.append_assoc] at tail
  refine Reaches.bind ((first text).excused fun excused => excused.mono ?_) tail
  simp only [List.length_append]
  omega

/-- After `update_offset` the printer goes on behind the piece. -/
theorem Finishes.bind (first : Finishes granted depth action piece)
    (second : Passes granted depth next rest) :
    Passes granted depth
      (action >>= fun _ => updateOffset >>= fun _ => next) (piece ++ rest) := by
  intro text
  have tail := second (text ++ piece)
  rw [List.append_assoc] at tail
  refine Reaches.bind ((first text).excused fun excused => excused.mono ?_)
    ((reaches_updateOffset.forget fun _ holding =>
      holding.weaken (Nat.le_succ _)).bind tail)
  simp only [List.length_append]
  omega

end Pieces

/-! ## Words, numbers and strings -/

section Scalars

variable {granted : Nat → Nat → Bool} {excuse : Prop} {depth : Nat}
  {text : Bytes}

/-- A piece that is stored with its NUL finishes the text. -/
theorem reaches_storeEnd {piece : Bytes} {needed : Nat} (noNul : 0 ∉ piece)
    (room : piece.length + 1 = needed) :
    Reaches .refused excuse
      (Holding text text.length depth (text.length + (needed + 1)))
      (store 0 (piece ++ [0])) (Finished (text ++ piece) depth) := by
  refine (reaches_append rfl ?_).forget fun state holding =>
    ⟨text, piece, rfl, noNul, ?_⟩
  · rw [List.length_append, List.length_singleton]
    omega
  · rw [← List.append_assoc] at holding
    refine ⟨holding.holds, holding.offset, holding.depth, ?_, holding.limited⟩
    have low := holding.room
    rw [List.length_append]
    omega

theorem finishes_printWord {word : Bytes} (noNul : 0 ∉ word) :
    Finishes granted depth (printWord granted word) word := by
  intro text
  refine (reaches_ensure (by omega) ?_).bind (reaches_storeEnd noNul rfl)
  rw [List.length_append]
  omega

theorem passes_printSeparator (bytes : Bytes) :
    Passes granted depth (printSeparator granted bytes) bytes := by
  intro text
  have fits : text.length + (bytes ++ [0]).length ≤
      text.length + (bytes.length + 1 + 1) := by
    rw [List.length_append, List.length_singleton]
    omega
  refine (reaches_ensure (by omega) ?_).bind
    ((reaches_append rfl fits).bind ((reaches_advance bytes.length).forget
      fun state holding => ?_))
  · rw [List.length_append]
    omega
  · rw [← List.append_assoc, ← List.length_append] at holding
    exact holding.weaken (by
      rw [List.length_append]
      omega)

theorem finishes_printNumber {value : Int}
    (short : value.natAbs < 1000000000000000) :
    Finishes granted depth (printNumber granted value)
      (ascii (toString value)) := by
  intro text
  have digits : (ascii (toString value)).length ≤ 16 :=
    length_toString_le (by decide) short
  have inside : ¬ (ascii (toString value)).length + 1 > 26 := by omega
  have fits : text.length + (ascii (toString value) ++ [0]).length ≤
      text.length + ((ascii (toString value)).length + 1 + 1) := by
    rw [List.length_append, List.length_singleton]
    omega
  unfold printNumber
  simp only [if_neg inside]
  refine (reaches_ensure (by omega) ?_).bind ((reaches_append rfl fits).bind
    ((reaches_advance _).forget fun state holding => ?_))
  · rw [List.length_append]
    omega
  · rw [← List.append_assoc, ← List.length_append] at holding
    refine ⟨_, [], (List.append_nil _).symm, List.not_mem_nil, ?_⟩
    refine ⟨holding.holds, holding.offset, holding.depth, ?_, holding.limited⟩
    have low := holding.room
    rw [List.length_append]
    omega

/-- The second loop stores the escapes, and at most one byte behind them. -/
theorem reaches_copyEscaped {input front : Bytes} {pointer offset room : Nat}
    (place : front.length = offset + pointer)
    (fits : (front ++ input.flatMap escaped).length + 1 ≤ room) :
    Reaches .refused excuse (Holding front offset depth room)
      (copyEscaped input pointer)
      (Holding (front ++ input.flatMap escaped) offset depth room) := by
  induction input generalizing front pointer with
  | nil =>
      rw [List.flatMap_nil, List.append_nil]
      exact Reaches.pure
  | cons byte input induction =>
      rw [List.flatMap_cons, ← List.append_assoc] at fits ⊢
      have within := fits
      simp only [List.length_append] at within
      unfold copyEscaped
      obtain ⟨_, _, plain, same⟩ | ⟨_, escapes, letter, found, same⟩ |
        ⟨_, _, escapes, none, same⟩ := escaped_cases byte
      · rw [if_pos plain]
        rw [same] at fits within ⊢
        rw [List.length_singleton] at within
        refine (reaches_append place ?_).bind (induction ?_ fits)
        · rw [List.length_singleton]
          omega
        · rw [List.length_append, List.length_singleton]
          omega
      · rw [if_neg (by simp [escapes]), found]
        rw [same] at fits within ⊢
        have both : front ++ [92, letter] = front ++ [92] ++ [letter] := by simp
        rw [List.length_cons, List.length_singleton] at within
        rw [both] at fits ⊢
        refine (reaches_append place ?_).bind
          ((reaches_append ?_ ?_).bind (induction ?_ fits))
        all_goals simp only [List.length_append, List.length_singleton]
        all_goals omega
      · rw [if_neg (by simp [escapes]), none]
        rw [same] at fits within ⊢
        have both : front ++ 92 :: unicodeEscape byte =
            front ++ [92] ++ unicodeEscape byte := by simp
        have length : (unicodeEscape byte).length = 5 := rfl
        rw [List.length_cons, length] at within
        rw [both] at fits ⊢
        refine (reaches_append place ?_).bind
          ((reaches_append ?_ ?_).bind
            ((induction ?_ fits).assuming fun state holding => ?_))
        rotate_right
        · rw [← List.append_assoc] at holding
          exact holding.weaken le_rfl
        all_goals simp only [List.length_append, List.length_singleton, length]
        all_goals omega

/-- The closing quote and the NUL behind the escaped string. -/
theorem reaches_closingQuote {front : Bytes} {length offset room : Nat}
    (place : front.length = offset + (length + 1))
    (fits : front.length + 3 ≤ room) (inText : text.length = offset)
    (noNul : ∃ piece, front = text ++ piece ∧ 0 ∉ piece) :
    Reaches .refused excuse (Holding front offset depth room)
      (do store (length + 1) [34]; store (length + 2) [0])
      (Finished (front ++ [34]) depth) := by
  obtain ⟨piece, rfl, noNul⟩ := noNul
  refine (reaches_append place ?_).bind ((reaches_append ?_ ?_).forget
    fun state holding => ⟨text, piece ++ [34], ?_, ?_, holding.holds, ?_,
      holding.depth, ?_, holding.limited⟩)
  all_goals try simp only [List.length_append, List.length_singleton] at *
  · omega
  · omega
  · omega
  · rw [List.append_assoc]
  · exact zero_notMem_append noNul (by decide)
  · rw [holding.offset, inText]
  · have low := holding.room
    omega

theorem finishes_printStringPtr (string : Bytes) :
    Finishes granted depth (printStringPtr granted string)
      (stringText string) := by
  intro text
  have counted := length_flatMap_escaped (untilNul string)
  have noNul := zero_notMem_flatMap_escaped (zero_notMem_untilNul string)
  have whole : text ++ stringText string =
      text ++ [34] ++ (untilNul string).flatMap escaped ++ [34] := by
    simp [stringText]
  have length : (text ++ stringText string).length =
      text.length + (untilNul string).length +
        escapeCharacters (untilNul string) + 2 := by
    simp only [whole, List.length_append, counted, List.length_singleton]
    omega
  unfold printStringPtr
  refine (reaches_ensure (by omega) ?_).bind ((reaches_append rfl ?_).bind ?_)
  · omega
  · rw [List.length_singleton]
    omega
  rw [whole]
  generalize untilNul string = input at counted noNul ⊢
  have place : (text ++ [34] ++ input.flatMap escaped).length =
      text.length + (input.length + escapeCharacters input + 1) := by
    simp only [List.length_append, counted, List.length_singleton]
    omega
  have behind : ∃ piece, text ++ [34] ++ input.flatMap escaped =
      text ++ piece ∧ 0 ∉ piece :=
    ⟨34 :: input.flatMap escaped, by simp,
      List.not_mem_cons_of_ne_of_not_mem (by decide) noNul⟩
  by_cases none : escapeCharacters input = 0
  · rw [if_pos none]
    rw [flatMap_escaped_of_none none] at counted place behind ⊢
    refine (reaches_append ?_ ?_).bind
      (reaches_closingQuote place ?_ rfl behind)
    · rw [List.length_append, List.length_singleton]
    · simp only [List.length_append, List.length_singleton]
      omega
    · omega
  · rw [if_neg none]
    refine (reaches_copyEscaped ?_ ?_).bind
      (reaches_closingQuote place ?_ rfl behind)
    · rw [List.length_append, List.length_singleton]
    · omega
    · omega

end Scalars

/-! ## Arrays and objects -/

section Nested

variable {granted : Nat → Nat → Bool} {excuse : Prop} {depth : Nat}
  {text : Bytes}

theorem Finished.setDepth (change : Nat → Nat) :
    Reaches .refused excuse (Finished text depth) (Printer.setDepth change)
      (Finished text (change depth)) := by
  rintro state ⟨front, behind, whole, noNul, holding⟩
  exact .inl ⟨_, rfl, front, behind, whole, noNul, holding.holds,
    holding.offset, congrArg change holding.depth, holding.room,
    holding.limited⟩

theorem reaches_advanceBehind (bytes : Bytes) :
    Reaches .refused excuse
      (Holding (text ++ bytes) text.length depth
        (text.length + (bytes.length + 1)))
      (advance bytes.length) (Behind (text ++ bytes) depth) := by
  refine (reaches_advance _).forget fun state holding => holding.standsBehind ?_ ?_
  · rw [List.length_append]
  · rw [List.length_append]
    omega

/-- Bytes without a NUL behind them. -/
theorem passes_bytes {bytes rest : Bytes} {next : Printer PUnit}
    (tail : Passes granted depth next rest) :
    Passes granted depth
      (do
        ensure granted bytes.length
        store 0 bytes
        advance bytes.length
        next)
      (bytes ++ rest) := by
  intro text
  have behind := tail (text ++ bytes)
  rw [List.append_assoc] at behind
  refine (reaches_ensure (by omega) ?_).bind ((reaches_append rfl ?_).bind
    ((reaches_advanceBehind bytes).bind behind))
  · simp only [List.length_append]
    omega
  · omega

theorem passes_printIndent :
    Passes granted depth (printIndent granted) (tabs depth) := by
  intro text state holding
  have tab : (tabs depth).length = depth := List.length_replicate
  have steps : Reaches .refused (Excuse granted (text ++ tabs depth).length)
      (Behind text depth)
      (do
        ensure granted (tabs depth).length
        store 0 (tabs depth)
        advance (tabs depth).length)
      (Behind (text ++ tabs depth) depth) := by
    refine (reaches_ensure (by omega) ?_).bind ((reaches_append rfl ?_).bind
      (reaches_advanceBehind (tabs depth)))
    · rw [List.length_append]
      omega
    · omega
  rw [tab] at steps
  rw [printIndent, exec_bind_of_ok (exec_get state), holding.depth]
  exact steps state holding

theorem reaches_printClosingBrace :
    Reaches .refused (Excuse granted (text ++ (tabs depth ++ [125])).length)
      (Behind text (depth + 1)) (printClosingBrace granted)
      (Finished (text ++ (tabs depth ++ [125])) depth) := by
  intro state holding
  have length : (tabs depth ++ [125]).length = depth + 1 := by
    rw [List.length_append, tabs, List.length_replicate, List.length_singleton]
  have noNul : 0 ∉ tabs depth ++ [125] :=
    zero_notMem_append (zero_notMem_tabs depth) (by decide)
  have steps : Reaches .refused
      (Excuse granted (text ++ (tabs depth ++ [125])).length)
      (Behind text (depth + 1))
      (do
        ensure granted (depth + 1 + 1)
        store 0 (tabs depth ++ [125] ++ [0])
        Printer.setDepth (· - 1))
      (Finished (text ++ (tabs depth ++ [125])) depth) := by
    refine (reaches_ensure (by omega) ?_).bind
      ((reaches_storeEnd noNul (by rw [length])).bind (Finished.setDepth _))
    rw [List.length_append, length]
    omega
  have bytes : List.replicate (depth + 1 - 1) 9 ++ [125, 0] =
      tabs depth ++ [125] ++ [0] := by simp [tabs]
  rw [← bytes] at steps
  rw [printClosingBrace, exec_bind_of_ok (exec_get state), holding.depth]
  exact steps state holding

theorem passes_printItems {items : List Json}
    (each : ∀ item ∈ items, ∀ depth, Finishes granted depth
      (printValue granted item) (item.textAt depth)) :
    Passes granted depth (printItems granted items) (itemsText depth items) := by
  induction items with
  | nil =>
      rw [printItems, itemsText]
      exact Passes.pure
  | cons item items induction =>
      rw [List.forall_mem_cons] at each
      rw [printItems, itemsText]
      refine (each.1 depth).bind ?_
      cases items with
      | nil => exact Passes.pure.bind (induction each.2)
      | cons next items =>
          exact (passes_printSeparator _).bind (induction each.2)

theorem passes_printMembers {members : List (Bytes × Json)}
    (each : ∀ member ∈ members, ∀ depth, Finishes granted depth
      (printValue granted member.2) (member.2.textAt depth)) :
    Passes granted depth (printMembers granted members)
      (membersText depth members) := by
  induction members with
  | nil =>
      rw [printMembers, membersText]
      exact Passes.pure
  | cons member members induction =>
      rw [List.forall_mem_cons] at each
      rw [printMembers, membersText]
      refine passes_printIndent.bind ((finishes_printStringPtr _).bind ?_)
      refine passes_bytes ((each.1 depth).bind ?_)
      exact (passes_printSeparator _).bind (induction each.2)

/-- What `print_value` leaves in the buffer, for every tree. -/
theorem finishes_printValue {json : Json} (printable : json.Printable) :
    ∀ depth, Finishes granted depth (printValue granted json)
      (json.textAt depth) := by
  induction json using Json.nestedInduction with
  | null => exact fun _ => finishes_printWord (by decide)
  | bool value =>
      cases value with
      | false => exact fun _ => finishes_printWord (by decide)
      | true => exact fun _ => finishes_printWord (by decide)
  | number value =>
      cases printable with
      | number short => exact fun _ => finishes_printNumber short
  | string value => exact fun _ => finishes_printStringPtr value
  | array items induction =>
      intro depth text
      have each : ∀ item ∈ items, item.Printable := by
        cases printable
        assumption
      have inner : Passes granted (depth + 1) (printItems granted items)
          (itemsText (depth + 1) items) :=
        passes_printItems fun item member =>
          induction item member (each item member)
      have noNul : (0 : UInt8) ∉ [93] := by decide
      have whole : text ++ (Json.array items).textAt depth =
          text ++ [91] ++ itemsText (depth + 1) items ++ [93] := by
        simp [Json.textAt]
      rw [whole, printValue]
      refine (reaches_ensure (by omega) ?_).bind ((reaches_append rfl ?_).bind
        ((reaches_advance 1).bind (((reaches_setDepth _).forget
          fun state holding => holding.standsBehind ?_ ?_).bind
        (((inner (text ++ [91])).excused fun excused => excused.mono ?_).bind
        ((reaches_ensure ?_ ?_).bind ((reaches_storeEnd noNul rfl).bind
          (Finished.setDepth _)))))))
      all_goals simp only [List.length_append, List.length_singleton]
      all_goals omega
  | object members induction =>
      intro depth text
      have each : ∀ member ∈ members, member.2.Printable := by
        cases printable
        assumption
      have inner : Passes granted (depth + 1) (printMembers granted members)
          (membersText (depth + 1) members) :=
        passes_printMembers fun member inside =>
          induction member inside (each member inside)
      have whole : text ++ (Json.object members).textAt depth =
          text ++ [123] ++ [10] ++ membersText (depth + 1) members ++
            (tabs depth ++ [125]) := by
        simp [Json.textAt]
      rw [whole, printValue]
      refine (reaches_ensure (by omega) ?_).bind ((reaches_append rfl ?_).bind
        ((reaches_setDepth _).bind ((reaches_append ?_ ?_).bind
        (((reaches_advance 2).forget fun state holding =>
          holding.standsBehind ?_ ?_).bind
        (((inner (text ++ [123] ++ [10])).excused fun excused =>
          excused.mono ?_).bind reaches_printClosingBrace)))))
      all_goals simp only [List.length_append, List.length_singleton]
      all_goals omega

end Nested

/-! ## `cJSON_Print` -/

section Print

variable {json : Json}

theorem reaches_print (granted : Nat → Nat → Bool)
    (printable : json.Printable) :
    Reaches .refused (Excuse granted json.print.length) (Behind [] 0)
      (print granted json) fun state =>
        state.buffer = (json.print ++ [0]).map some ∧
          (json.print.length : Int) + 2 ≤ intMax := by
  refine (finishes_printValue printable 0 []).bind
    (reaches_updateOffset.bind ?_)
  rw [List.nil_append]
  change Reaches _ _ (Holding (json.print ++ [0]) json.print.length 0
    (json.print.length + 2)) _ _
  intro state holding
  have low := holding.room
  have limited := holding.limited
  rw [exec_bind_of_ok (exec_get state)]
  split_ifs with allocated
  · refine .inl ⟨_, rfl, ?_, by omega⟩
    have length : (json.print ++ [0]).length = state.offset + 1 := by
      rw [List.length_append, List.length_singleton, holding.offset]
    apply Memory.Holds.eq_of_length
    · exact holding.holds.resize _ length.le
    · rw [Memory.length_resize, length]
  · exact .inr ⟨_, rfl, fun all => (allocated (all _ _)).elim⟩

theorem cJSONPrint_cases (granted : Nat → Nat → Bool)
    (printable : json.Printable) :
    (cJSONPrint granted json = .ok ((json.print ++ [0]).map some) ∧
        (json.print.length : Int) + 2 ≤ intMax) ∨
      (cJSONPrint granted json = .error .refused ∧
        Excuse granted json.print.length) := by
  unfold cJSONPrint
  split_ifs with allocated
  · have initial : Behind [] 0 ⟨.allocate 256, 0, 0⟩ :=
      ⟨Memory.holds_nil _, rfl, rfl, by simp, by simp [intMax]⟩
    obtain ⟨after, returned, buffer, short⟩ | ⟨after, refused, excused⟩ :=
      reaches_print granted printable _ initial
    · exact .inl ⟨by rw [returned]; exact congrArg Except.ok buffer, short⟩
    · exact .inr ⟨by rw [refused], excused⟩
  · exact .inr ⟨rfl, fun all => (allocated (all 0 256)).elim⟩

/-- Whatever the allocator grants, `cJSON_Print` returns the text of the tree or
NULL; if it grants everything, NULL exactly for texts that, with their NUL and
the one byte that `ensure` asks for beyond it, are longer than `INT_MAX`. -/
theorem cJSONPrint_print (printable : json.Printable)
    (granted : Nat → Nat → Bool) :
    (cJSONPrint granted json = .ok ((json.print ++ [0]).map some) ∨
      cJSONPrint granted json = .error .refused) ∧
    ((∀ size newsize, granted size newsize = true) →
      (cJSONPrint granted json = .ok ((json.print ++ [0]).map some) ↔
        (json.print.length : Int) + 2 ≤ intMax)) := by
  obtain ⟨returned, short⟩ | ⟨refused, excused⟩ :=
    cJSONPrint_cases granted printable
  · exact ⟨.inl returned, fun _ => iff_of_true returned short⟩
  · refine ⟨.inr refused, fun all => iff_of_false ?_ ?_⟩
    · rw [refused]
      simp
    · exact not_le.mpr (excused all)

theorem cJSONPrint_print_array :
    let json := Json.array [.null, .number 7]
    (cJSONPrint (fun _ _ => true) json = .ok ((json.print ++ [0]).map some) ∨
      cJSONPrint (fun _ _ => true) json = .error .refused) ∧
    ((Nat → Nat → true = true) →
      (cJSONPrint (fun _ _ => true) json = .ok ((json.print ++ [0]).map some) ↔
        (json.print.length : Int) + 2 ≤ intMax)) := by
  have items : ∀ item ∈ [Json.null, .number 7], item.Printable := by
    rw [List.forall_mem_cons, List.forall_mem_singleton]
    exact ⟨.null, .number (by decide)⟩
  exact cJSONPrint_print (.array items) fun _ _ => true

end Print

end ShelterServer
