import Mathlib.Data.List.TakeWhile
import ShelterServer.Foundations.ByteString

/-!
# Reading text in pieces

`fgets` reads a line up to its newline or as much of it as there is room for,
so a long line is read in pieces of the same length.  `strtok` cuts a text at
delimiters and remembers where it stopped.
-/

namespace ShelterServer.Foundations

/-! ## Lines -/

section Lines

variable {α : Type*}

/-- The first item with a property. -/
theorem exists_first {property : α → Prop} {items : List α}
    (some : ∃ item ∈ items, property item) :
    ∃ front item back, items = front ++ item :: back ∧ property item ∧
      ∀ other ∈ front, ¬ property other := by
  classical
  obtain ⟨item, found⟩ := Option.isSome_iff_exists.mp
    ((List.find?_isSome (p := fun item => decide (property item))).mpr
      (by simpa using some))
  obtain ⟨holds, front, back, whole, others⟩ :=
    List.find?_eq_some_iff_append.mp found
  exact ⟨front, item, back, whole, by simpa using holds, by simpa using others⟩

theorem notMem_of_mem_splitOn [DecidableEq α] {separator : α}
    {items piece : List α} (member : piece ∈ items.splitOn separator) :
    separator ∉ piece := by
  induction items generalizing piece with
  | nil =>
      obtain rfl : piece = [] := by simpa using member
      simp
  | cons item items induction =>
      rw [List.splitOn_cons_eq_if_modifyHead] at member
      by_cases same : item = separator
      · rw [if_pos (by simpa using same)] at member
        obtain rfl | later := List.mem_cons.mp member
        · simp
        · exact induction later
      · rw [if_neg (by simpa using same)] at member
        cases pieces : items.splitOn separator with
        | nil => simp at pieces
        | cons head rest =>
            rw [pieces] at member induction
            obtain rfl | later := List.mem_cons.mp member
            · rw [List.mem_cons, not_or]
              exact ⟨Ne.symm same, induction List.mem_cons_self⟩
            · exact induction (List.mem_cons_of_mem _ later)

/-- Pieces joined by separators, seen from one of them. -/
theorem intercalate_append_cons (separator : α) (front : List (List α))
    (piece : List α) (back : List (List α)) :
    List.intercalate [separator] (front ++ piece :: back) =
      front.flatMap (· ++ [separator]) ++
        (piece ++ back.flatMap (separator :: ·)) := by
  induction front with
  | cons first front induction =>
      rw [List.cons_append, List.intercalate_cons_of_ne_nil (by simp),
        induction, List.flatMap_cons]
      simp
  | nil =>
      rw [List.nil_append, List.flatMap_nil, List.nil_append]
      induction back generalizing piece with
      | nil => simp
      | cons next back induction =>
          rw [List.intercalate_cons_cons, induction, List.flatMap_cons]
          simp

end Lines

/-- The lines of a text; each is ended by its newline. -/
def textLines (text : Bytes) : List Bytes :=
  (text.splitOn 10).dropLast

theorem textLines_newline {line : Bytes} (absent : 10 ∉ line) (rest : Bytes) :
    textLines (line ++ 10 :: rest) = line :: textLines rest := by
  rw [textLines, List.splitOn_append_cons_self_of_not_mem absent,
    List.dropLast_cons_of_ne_nil (List.splitOn_ne_nil 10 rest)]
  rfl

/-- Lines are read back one by one exactly if none holds a newline itself. -/
theorem textLines_flatMap_iff {lines : List Bytes} :
    textLines (lines.flatMap (· ++ [10])) = lines ↔
      ∀ line ∈ lines, 10 ∉ line := by
  constructor
  · intro same line member
    rw [← same] at member
    exact notMem_of_mem_splitOn (List.dropLast_subset _ member)
  · intro absent
    induction lines with
    | nil => rfl
    | cons line lines induction =>
        rw [List.forall_mem_cons] at absent
        rw [List.flatMap_cons, List.append_assoc, List.singleton_append,
          textLines_newline absent.1, induction absent.2]

/-! ## Printed numbers -/

theorem newline_notMem_ascii {text : String}
    (plain : ∀ letter ∈ text.toList, letter.isDigit = true ∨ letter = '-') :
    10 ∉ ascii text := by
  intro member
  obtain ⟨letter, letterMember, same⟩ := List.mem_map.mp member
  obtain digit | rfl := plain letter letterMember
  · have code : letter.toNat % 256 = 10 := congrArg UInt8.toNat same
    simp only [Char.isDigit, Bool.and_eq_true, decide_eq_true_eq, ge_iff_le,
      UInt32.le_iff_toNat_le] at digit
    have low : 48 ≤ letter.toNat := digit.1
    have high : letter.toNat ≤ 57 := digit.2
    omega
  · revert same
    decide

theorem newline_notMem_toString (number : Nat) :
    10 ∉ ascii (toString number) := by
  refine newline_notMem_ascii fun letter member => Or.inl ?_
  rw [Nat.toString_eq_repr, Nat.toList_repr] at member
  exact Nat.isDigit_of_mem_toDigits (by decide) (by decide) member

theorem newline_notMem_intToString (number : Int) :
    10 ∉ ascii (toString number) := by
  refine newline_notMem_ascii fun letter member => ?_
  rw [Int.toString_eq_repr] at member
  have digit : ∀ value, letter ∈ Nat.toDigits 10 value →
      letter.isDigit = true := fun _ =>
    Nat.isDigit_of_mem_toDigits (by decide) (by decide)
  cases number with
  | ofNat number =>
      have printed : letter ∈ Nat.toDigits 10 number := by
        simpa [Int.repr] using member
      exact Or.inl (digit number printed)
  | negSucc number =>
      have printed : letter = '-' ∨ letter ∈ Nat.toDigits 10 (number + 1) := by
        simpa [Int.repr] using member
      exact printed.symm.imp_left (digit (number + 1))

/-! ## Pieces of lines -/

/-- What `fgets` stores, with room for so many bytes, and what it leaves. -/
def fgets : Nat → Bytes → Bytes × Bytes
  | 0, input => ([], input)
  | _ + 1, [] => ([], [])
  | room + 1, byte :: input =>
      if byte = 10 then ([byte], input)
      else (byte :: (fgets room input).1, (fgets room input).2)

section Fgets

variable {room : Nat} {line : Bytes}

theorem fgets_append (room : Nat) (input : Bytes) :
    (fgets room input).1 ++ (fgets room input).2 = input := by
  fun_induction fgets room input with
  | case1 => rfl
  | case2 => rfl
  | case3 => rfl
  | case4 _ _ _ _ induction => rw [List.cons_append, induction]

theorem length_fgets_snd_lt (room : Nat) (positive : 0 < room) {input : Bytes}
    (nonempty : input ≠ []) :
    (fgets room input).2.length < input.length := by
  have whole := congrArg List.length (fgets_append room input)
  have stored : (fgets room input).1 ≠ [] := by
    fun_cases fgets room input with
    | case1 => cases positive
    | case2 => exact (nonempty rfl).elim
    | case3 => exact List.cons_ne_nil _ _
    | case4 => exact List.cons_ne_nil _ _
  have some := List.length_pos_iff.mpr stored
  rw [List.length_append] at whole
  omega

theorem fgets_of_newline (absent : 10 ∉ line) (fits : line.length < room)
    (rest : Bytes) :
    fgets room (line ++ 10 :: rest) = (line ++ [10], rest) := by
  induction line generalizing room with
  | nil =>
      obtain ⟨room, rfl⟩ := Nat.exists_eq_succ_of_ne_zero fits.ne'
      simp [fgets]
  | cons byte line induction =>
      rw [List.mem_cons, not_or] at absent
      obtain ⟨room, rfl⟩ :=
        Nat.exists_eq_succ_of_ne_zero (Nat.ne_zero_of_lt fits)
      have tail := induction absent.2 (Nat.lt_of_succ_lt_succ fits)
      rw [List.cons_append, fgets, if_neg (Ne.symm absent.1), tail]
      rfl

theorem fgets_of_long (absent : 10 ∉ line) (long : room ≤ line.length)
    (rest : Bytes) :
    fgets room (line ++ rest) = (line.take room, line.drop room ++ rest) := by
  induction line generalizing room with
  | nil =>
      obtain rfl := Nat.le_zero.mp long
      rfl
  | cons byte line induction =>
      rw [List.mem_cons, not_or] at absent
      cases room with
      | zero => rfl
      | succ room =>
          have tail := induction absent.2 (Nat.le_of_succ_le_succ long)
          rw [List.cons_append, fgets, if_neg (Ne.symm absent.1), tail]
          rfl

theorem fgets_of_last (absent : 10 ∉ line) (fits : line.length ≤ room) :
    fgets room line = (line, []) := by
  induction line generalizing room with
  | nil => cases room <;> rfl
  | cons byte line induction =>
      rw [List.mem_cons, not_or] at absent
      obtain ⟨room, rfl⟩ :=
        Nat.exists_eq_succ_of_ne_zero (Nat.ne_zero_of_lt fits)
      have tail := induction absent.2 (Nat.le_of_succ_le_succ fits)
      rw [fgets, if_neg (Ne.symm absent.1), tail]

end Fgets

/-- The results of the successive calls up to the end of the input. -/
def fgetsAll (room : Nat) (input : Bytes) : List Bytes :=
  if _more : 0 < room ∧ input ≠ [] then
    (fgets room input).1 :: fgetsAll room (fgets room input).2
  else []
termination_by input.length
decreasing_by exact length_fgets_snd_lt room _more.1 _more.2

/-- The first result with a property, and the number of bytes read before
it. -/
def findPiece (chosen : Bytes → Bool) : Nat → List Bytes → Option (Nat × Bytes)
  | _, [] => none
  | offset, piece :: pieces =>
      if chosen piece then some (offset, piece)
      else findPiece chosen (offset + piece.length) pieces

section Pieces

variable {room : Nat} {line : Bytes}

theorem fgetsAll_of_newline (absent : 10 ∉ line) (fits : line.length < room)
    (rest : Bytes) :
    fgetsAll room (line ++ 10 :: rest) =
      (line ++ [10]) :: fgetsAll room rest := by
  rw [fgetsAll, dif_pos ⟨Nat.zero_lt_of_lt fits, by simp⟩,
    fgets_of_newline absent fits]

theorem fgetsAll_of_long (positive : 0 < room) (absent : 10 ∉ line)
    (long : room ≤ line.length) (rest : Bytes) :
    fgetsAll room (line ++ rest) =
      line.take room :: fgetsAll room (line.drop room ++ rest) := by
  have nonempty : line ≠ [] :=
    List.length_pos_iff.mp (Nat.lt_of_lt_of_le positive long)
  rw [fgetsAll,
    dif_pos ⟨positive, List.append_ne_nil_of_left_ne_nil nonempty rest⟩,
    fgets_of_long absent long]

/-- The word stands where a piece of the line begins. -/
def StartsPiece (room : Nat) (word line : Bytes) : Prop :=
  ∃ count, word <+: line.drop (room * count)

variable {word : Bytes}

theorem startsPiece_of_short (nonempty : word ≠ [])
    (fits : line.length ≤ room) :
    StartsPiece room word line ↔ word <+: line := by
  constructor
  · rintro ⟨count, stands⟩
    cases count with
    | zero => simpa using stands
    | succ count =>
        rw [List.drop_eq_nil_of_le
          (fits.trans (Nat.le_mul_of_pos_right room count.succ_pos))] at stands
        exact (nonempty (List.prefix_nil.mp stands)).elim
  · intro stands
    exact ⟨0, by simpa using stands⟩

theorem startsPiece_iff (room : Nat) (word line : Bytes) :
    StartsPiece room word line ↔
      word <+: line ∨ StartsPiece room word (line.drop room) := by
  constructor
  · rintro ⟨count, stands⟩
    cases count with
    | zero => exact Or.inl (by simpa using stands)
    | succ count =>
        refine Or.inr ⟨count, ?_⟩
        rwa [List.drop_drop, Nat.add_comm, ← Nat.mul_succ]
  · rintro (stands | ⟨count, stands⟩)
    · exact ⟨0, by simpa using stands⟩
    · refine ⟨count + 1, ?_⟩
      rwa [List.drop_drop, Nat.add_comm, ← Nat.mul_succ] at stands

/-- A word without a newline is found in a line if it starts a piece of it, and
is otherwise looked for behind the line. -/
theorem findPiece_line (nonempty : word ≠ []) (oneLine : 10 ∉ word)
    (fits : word.length ≤ room) (absent : 10 ∉ line) (offset : Nat)
    (rest : Bytes) :
    (StartsPiece room word line ∧ ∃ place piece,
        findPiece word.isPrefixOf offset
            (fgetsAll room (line ++ 10 :: rest)) = some (place, piece) ∧
          place < offset + line.length + 1) ∨
      (¬ StartsPiece room word line ∧
        findPiece word.isPrefixOf offset
            (fgetsAll room (line ++ 10 :: rest)) =
          findPiece word.isPrefixOf (offset + line.length + 1)
            (fgetsAll room rest)) := by
  have positive : 0 < room :=
    Nat.lt_of_lt_of_le (List.length_pos_iff.mpr nonempty) fits
  induction length : line.length using Nat.strong_induction_on
    generalizing line offset with
  | _ length' induction =>
    subst length
    rcases Nat.lt_or_ge line.length room with short | long
    · have initial : word <+: line ++ [10] ↔ word <+: line := by
        rw [List.prefix_concat_iff]
        refine or_iff_right fun same => oneLine ?_
        simp [same]
      rw [startsPiece_of_short nonempty short.le,
        fgetsAll_of_newline absent short, findPiece]
      simp only [List.isPrefixOf_iff_prefix, initial]
      by_cases stands : word <+: line
      · refine Or.inl ⟨stands, offset, line ++ [10], if_pos stands, ?_⟩
        omega
      · refine Or.inr ⟨stands, ?_⟩
        rw [if_neg stands, List.length_append, List.length_singleton,
          Nat.add_assoc]
    · have initial : word <+: line.take room ↔ word <+: line := by
        rw [List.prefix_take_iff]
        exact and_iff_left fits
      have shorter : (line.drop room).length < line.length := by
        rw [List.length_drop]
        omega
      rw [startsPiece_iff, fgetsAll_of_long positive absent long, findPiece]
      simp only [List.isPrefixOf_iff_prefix, initial]
      by_cases stands : word <+: line
      · refine Or.inl ⟨Or.inl stands, offset, _, if_pos stands, ?_⟩
        omega
      · have ends : offset + (line.take room).length +
            (line.drop room).length + 1 = offset + line.length + 1 := by
          rw [List.length_take, List.length_drop]
          omega
        have remaining := induction _ shorter
          (fun member => absent (List.mem_of_mem_drop member))
          (offset + (line.take room).length) rfl
        rw [if_neg stands, or_iff_right stands]
        rwa [ends] at remaining

/-- The same for several lines, each with its newline. -/
theorem findPiece_lines (nonempty : word ≠ []) (oneLine : 10 ∉ word)
    (fits : word.length ≤ room) {lines : List Bytes}
    (absent : ∀ line ∈ lines, 10 ∉ line) (offset : Nat) (rest : Bytes) :
    ((∃ line ∈ lines, StartsPiece room word line) ∧ ∃ place piece,
        findPiece word.isPrefixOf offset
            (fgetsAll room (lines.flatMap (· ++ [10]) ++ rest)) =
              some (place, piece) ∧
          place < offset + (lines.flatMap (· ++ [10])).length) ∨
      ((∀ line ∈ lines, ¬ StartsPiece room word line) ∧
        findPiece word.isPrefixOf offset
            (fgetsAll room (lines.flatMap (· ++ [10]) ++ rest)) =
          findPiece word.isPrefixOf
            (offset + (lines.flatMap (· ++ [10])).length)
            (fgetsAll room rest)) := by
  induction lines generalizing offset with
  | nil => exact Or.inr ⟨by simp, rfl⟩
  | cons line lines induction =>
      rw [List.forall_mem_cons] at absent
      have longer : offset + ((line :: lines).flatMap (· ++ [10])).length =
          offset + line.length + 1 + (lines.flatMap (· ++ [10])).length := by
        simp only [List.flatMap_cons, List.length_append,
          List.length_singleton]
        omega
      have text : (line :: lines).flatMap (· ++ [10]) ++ rest =
          line ++ 10 :: (lines.flatMap (· ++ [10]) ++ rest) := by
        simp
      rw [longer, text, List.exists_mem_cons_iff, List.forall_mem_cons]
      obtain ⟨starts, place, piece, found, before⟩ | ⟨passed, skipped⟩ :=
        findPiece_line nonempty oneLine fits absent.1 offset
          (lines.flatMap (· ++ [10]) ++ rest)
      · exact Or.inl ⟨Or.inl starts, place, piece, found, by omega⟩
      · rw [skipped, or_iff_right passed, and_iff_right passed]
        exact induction absent.2 (offset + line.length + 1)

end Pieces

/-! ## Tokens -/

/-- What `strtok` returns for a text and the text from which a call with
`NULL` goes on. -/
def strtok (delimiters text : Bytes) : Option Bytes × Bytes :=
  let token := text.dropWhile fun byte => byte ∈ delimiters
  if token = [] then (none, [])
  else (some (token.takeWhile fun byte => byte ∉ delimiters),
    (token.dropWhile fun byte => byte ∉ delimiters).drop 1)

section Tokens

variable {delimiters text token : Bytes}

theorem eq_of_strtok (found : (strtok delimiters text).1 = some token) :
    token = (text.dropWhile fun byte => byte ∈ delimiters).takeWhile
      fun byte => byte ∉ delimiters := by
  by_cases ended : (text.dropWhile fun byte => byte ∈ delimiters) = []
  · simp only [strtok, ended, if_true] at found
    cases found
  · simp only [strtok, if_neg ended] at found
    exact (Option.some.inj found).symm

theorem strtok_isInfix (found : (strtok delimiters text).1 = some token) :
    token <:+: text := by
  rw [eq_of_strtok found]
  exact (List.takeWhile_prefix _).isInfix.trans
    (List.dropWhile_suffix _).isInfix

theorem notMem_of_strtok (found : (strtok delimiters text).1 = some token)
    {byte : UInt8} (delimits : byte ∈ delimiters) : byte ∉ token := by
  rw [eq_of_strtok found]
  intro member
  simpa [delimits] using List.mem_takeWhile_imp member

theorem strtok_snd_of_none (missing : (strtok delimiters text).1 = none) :
    (strtok delimiters text).2 = [] := by
  by_cases ended : (text.dropWhile fun byte => byte ∈ delimiters) = []
  · simp only [strtok, ended, if_true]
  · simp only [strtok, if_neg ended] at missing
    cases missing

/-- A token at the front that ends with the text or at a delimiter. -/
theorem strtok_token {delimiter : UInt8} (nonempty : token ≠ [])
    (absent : delimiter ∉ token) {rest : Bytes}
    (ends : ∀ byte ∈ rest.head?, byte = delimiter) :
    strtok [delimiter] (token ++ rest) = (some token, rest.drop 1) := by
  have first : (token ++ rest).dropWhile (fun byte => byte ∈ [delimiter]) =
      token ++ rest := by
    obtain ⟨head, tail, rfl⟩ := List.exists_cons_of_ne_nil nonempty
    simp only [List.mem_cons, not_or] at absent
    simp [Ne.symm absent.1]
  have others : ∀ byte ∈ token, decide (byte ∉ [delimiter]) = true := by
    intro byte member
    have other : byte ≠ delimiter := fun same => absent (same ▸ member)
    simpa using other
  have stops : rest.takeWhile (fun byte => byte ∉ [delimiter]) = [] ∧
      rest.dropWhile (fun byte => byte ∉ [delimiter]) = rest := by
    cases rest with
    | nil => exact ⟨rfl, rfl⟩
    | cons head rest =>
        obtain rfl := ends head rfl
        simp
  simp only [strtok, first]
  rw [if_neg (List.append_ne_nil_of_left_ne_nil nonempty rest),
    List.takeWhile_append_of_pos others, List.dropWhile_append_of_pos others,
    stops.1, stops.2, List.append_nil]

end Tokens

/-! ## Tokens in memory -/

/-- A C string in memory, from an offset to its NUL. -/
def StandsAt (memory : Bytes) (start : Nat) (text : Bytes) : Prop :=
  0 ∉ text ∧ ∃ front back,
    memory = front ++ (text ++ 0 :: back) ∧ front.length = start

/-- `strtok` on the string at an offset: where the token stands, the memory
with a NUL behind the token, and where a call with `NULL` goes on. -/
def strtokAt (delimiters memory : Bytes) (start : Nat) :
    Option Nat × Bytes × Nat :=
  let text := untilNul (memory.drop start)
  let token := text.dropWhile fun byte => byte ∈ delimiters
  let first := start + (text.takeWhile fun byte => byte ∈ delimiters).length
  let last := first + (token.takeWhile fun byte => byte ∉ delimiters).length
  if token = [] then (none, memory, first)
  else if token.dropWhile (fun byte => byte ∉ delimiters) = [] then
    (some first, memory, last)
  else (some first, memory.set last 0, last + 1)

section TokensInMemory

variable {delimiters memory text token rest : Bytes} {start : Nat}

theorem StandsAt.untilNul_eq (stands : StandsAt memory start text) :
    untilNul (memory.drop start) = text := by
  obtain ⟨noNul, front, back, rfl, rfl⟩ := stands
  rw [List.drop_left, untilNul_append_zero, untilNul_of_notMem noNul]

theorem StandsAt.of_append {front back : Bytes} (noNul : 0 ∉ text) :
    StandsAt (front ++ (text ++ 0 :: back)) front.length text :=
  ⟨noNul, front, back, rfl, rfl⟩

theorem StandsAt.unique {other : Bytes} (stands : StandsAt memory start text)
    (also : StandsAt memory start other) : text = other :=
  stands.untilNul_eq.symm.trans also.untilNul_eq

/-- A string behind a part of a string. -/
theorem StandsAt.drop {front : Bytes}
    (stands : StandsAt memory start (front ++ text)) :
    StandsAt memory (start + front.length) text := by
  obtain ⟨noNul, before, back, rfl, rfl⟩ := stands
  rw [List.mem_append, not_or] at noNul
  refine ⟨noNul.2, before ++ front, back, ?_, List.length_append⟩
  simp only [List.append_assoc]

/-- A NUL in place of a byte of a string ends the string there, and what was
behind the byte is a string still. -/
theorem StandsAt.cut {byte : UInt8}
    (stands : StandsAt memory start (text ++ byte :: rest)) :
    StandsAt (memory.set (start + text.length) 0) start text ∧
      StandsAt (memory.set (start + text.length) 0) (start + text.length + 1)
        rest := by
  obtain ⟨noNul, front, back, rfl, rfl⟩ := stands
  simp only [List.mem_append, List.mem_cons, not_or] at noNul
  have written : (front ++ (text ++ byte :: rest ++ 0 :: back)).set
      (front.length + text.length) 0 =
        front ++ (text ++ 0 :: (rest ++ 0 :: back)) := by
    simp
  rw [written]
  refine ⟨.of_append noNul.1, noNul.2.2, front ++ (text ++ [0]), back, ?_, ?_⟩
  · simp
  · simp [Nat.add_assoc]

/-- In memory and on its own, a text is cut into the same tokens. -/
theorem strtokAt_spec (delimiters : Bytes)
    (stands : StandsAt memory start text) :
    ((strtokAt delimiters memory start).1 = none ∧
        (strtok delimiters text).1 = none ∧
        StandsAt (strtokAt delimiters memory start).2.1
          (strtokAt delimiters memory start).2.2 []) ∨
      ∃ first token, (strtokAt delimiters memory start).1 = some first ∧
        (strtok delimiters text).1 = some token ∧
        StandsAt (strtokAt delimiters memory start).2.1 first token ∧
        StandsAt (strtokAt delimiters memory start).2.1
          (strtokAt delimiters memory start).2.2
          (strtok delimiters text).2 := by
  have whole : text.takeWhile (fun byte => byte ∈ delimiters) ++
      text.dropWhile (fun byte => byte ∈ delimiters) = text :=
    List.takeWhile_append_dropWhile
  simp only [strtokAt, strtok, stands.untilNul_eq]
  generalize text.takeWhile (fun byte => byte ∈ delimiters) = skipped at whole ⊢
  generalize text.dropWhile (fun byte => byte ∈ delimiters) = found at whole ⊢
  subst whole
  have behind := stands.drop
  have parts : found.takeWhile (fun byte => byte ∉ delimiters) ++
      found.dropWhile (fun byte => byte ∉ delimiters) = found :=
    List.takeWhile_append_dropWhile
  by_cases ended : found = []
  · subst ended
    exact .inl ⟨rfl, rfl, behind⟩
  · rw [if_neg ended, if_neg ended]
    refine .inr ?_
    generalize found.takeWhile (fun byte => byte ∉ delimiters) = token
      at parts ⊢
    generalize found.dropWhile (fun byte => byte ∉ delimiters) = left
      at parts ⊢
    subst parts
    cases left with
    | nil =>
        rw [List.append_nil] at behind
        refine ⟨_, token, rfl, rfl, behind, ?_⟩
        rw [← List.append_nil token] at behind
        exact behind.drop
    | cons byte left => exact ⟨_, token, rfl, rfl, behind.cut⟩

/-- A token at the front stays where it stands, and the next call goes on
behind its delimiter. -/
theorem strtokAt_token {delimiter : UInt8} (nonempty : token ≠ [])
    (absent : delimiter ∉ token) (ends : ∀ byte ∈ rest.head?, byte = delimiter)
    (stands : StandsAt memory start (token ++ rest)) :
    (strtokAt [delimiter] memory start).1 = some start ∧
      StandsAt (strtokAt [delimiter] memory start).2.1 start token ∧
      ∀ byte behind, rest = byte :: behind →
        (strtokAt [delimiter] memory start).2.2 = start + token.length + 1 ∧
        StandsAt (strtokAt [delimiter] memory start).2.1
          (start + token.length + 1) behind := by
  have text := stands.untilNul_eq
  obtain ⟨first, others, rfl⟩ := List.exists_cons_of_ne_nil nonempty
  have begins : first ≠ delimiter := by
    rintro rfl
    exact absent List.mem_cons_self
  have taken : ∀ byte ∈ first :: others,
      decide (byte ∉ [delimiter]) = true := by
    intro byte member
    have other : byte ≠ delimiter := fun same => absent (same ▸ member)
    simpa using other
  have stops : rest.takeWhile (fun byte => byte ∉ [delimiter]) = [] ∧
      rest.dropWhile (fun byte => byte ∉ [delimiter]) = rest := by
    cases rest with
    | nil => exact ⟨rfl, rfl⟩
    | cons head rest =>
        obtain rfl := ends head rfl
        simp
  have skipped : (first :: others ++ rest).takeWhile
      (fun byte => byte ∈ [delimiter]) = [] := by
    simp [begins]
  have found : (first :: others ++ rest).dropWhile
      (fun byte => byte ∈ [delimiter]) = first :: others ++ rest := by
    simp [begins]
  simp only [strtokAt, text, skipped, found]
  rw [if_neg (by simp), List.takeWhile_append_of_pos taken,
    List.dropWhile_append_of_pos taken, stops.1, stops.2]
  cases rest with
  | nil =>
      rw [List.append_nil] at stands
      exact ⟨rfl, stands, fun _ _ more => nomatch more⟩
  | cons head rest =>
      rw [if_neg (List.cons_ne_nil head rest), List.append_nil]
      refine ⟨rfl, stands.cut.1, fun byte behind same => ?_⟩
      obtain ⟨rfl, rfl⟩ := List.cons.inj same
      exact ⟨rfl, stands.cut.2⟩

end TokensInMemory

end ShelterServer.Foundations
