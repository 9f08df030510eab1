import ShelterServer.JsonElements

/-!
# The values that are parsed

`parse_value` accepts the texts of the grammar and refuses all others, at every
number of levels that are left to the nesting limit.
-/

namespace ShelterServer

open Foundations Reader

/-! ## Numbers -/

theorem isNumberByte_of_mem_signBytes {sign : Option Bool} {byte : UInt8}
    (member : byte ∈ signBytes sign) : isNumberByte byte = true := by
  match sign with
  | none => cases member
  | some false =>
      obtain rfl := List.mem_singleton.mp member
      rfl
  | some true =>
      obtain rfl := List.mem_singleton.mp member
      rfl

theorem isNumberByte_of_mem_bytes {decimal : Decimal} {byte : UInt8}
    (member : byte ∈ decimal.bytes) : isNumberByte byte = true := by
  simp only [Decimal.bytes, List.mem_append] at member
  obtain sign | whole | fraction | exponent := member
  · exact isNumberByte_of_mem_signBytes sign
  · exact isNumberByte_of_isDigit (decimal.wholeDigits byte whole)
  · cases found : decimal.fraction with
    | none => simp [found, fractionBytes] at fraction
    | some digits =>
        rw [found] at fraction
        obtain rfl | digit := List.mem_cons.mp fraction
        · rfl
        · exact isNumberByte_of_isDigit
            (decimal.fractionDigits digits found byte digit)
  · cases found : decimal.exponent with
    | none => simp [found, exponentBytes] at exponent
    | some power =>
        rw [found] at exponent
        obtain rfl | sign | digit :=
          List.mem_cons.mp exponent |>.imp_right List.mem_append.mp
        · obtain marker | marker := power.isMarker <;> rw [marker] <;> rfl
        · exact isNumberByte_of_mem_signBytes sign
        · exact isNumberByte_of_isDigit (power.allDigits byte digit)

/-- No byte that could belong to a number is next. -/
def NoNumberByte (rest : Bytes) : Prop :=
  ∀ byte ∈ rest.head?, isNumberByte byte = false

theorem numberText_append {front rest : Bytes}
    (numbers : ∀ byte ∈ front, isNumberByte byte = true)
    (short : front.length ≤ 63) (stop : NoNumberByte rest) :
    numberText (front ++ rest ++ [0]) = front := by
  rw [numberText, List.append_assoc, List.take_append,
    List.take_of_length_le short]
  apply takeWhile_append_of_stop numbers
  intro byte head
  cases room : 63 - front.length with
  | zero => simp [room] at head
  | succ room =>
      cases rest with
      | nil =>
          obtain rfl : 0 = byte := by simpa [room] using head
          rfl
      | cons first rest =>
          obtain rfl : first = byte := by simpa [room] using head
          exact stop first rfl

/-- The bytes with which a number may begin. -/
def BeginsNumber (text : Bytes) : Prop :=
  ∀ byte ∈ text.head?, byte = 45 ∨ isDigit byte = true

/-- The decimal number that `strtod` finds at the front of a text. -/
def FrontNumber (piece rest : Bytes) : Prop :=
  ∃ decimal, strtod (numberText (piece ++ rest ++ [0])) = some decimal ∧
    decimal.bytes = piece

theorem parseNumber_sound {text : Bytes} (begins : BeginsNumber text) :
    Rejects parseNumber text ∨
      ∃ piece value rest, text = piece ++ rest ∧ NumberText piece value ∧
        FrontNumber piece rest ∧
        Reads parseNumber text (.number value) rest := by
  have ahead := reads_remaining text
  unfold parseNumber
  cases found : strtod (numberText (text ++ [0])) with
  | none =>
      refine .inl (ahead.bind_rejects ?_)
      rw [found]
      exact Rejects.throw text
  | some decimal =>
      have inRun := bytes_prefix_of_strtod found
      have run : numberText (text ++ [0]) <+: (text ++ [0]).take 63 :=
        List.takeWhile_prefix _
      have short : decimal.bytes.length ≤ 63 :=
        (inRun.trans run).length_le.trans (List.length_take_le 63 _)
      have inText : decimal.bytes <+: text := by
        have inBuffer := (inRun.trans run).trans (List.take_prefix 63 _)
        refine (List.prefix_concat_iff.mp inBuffer).resolve_left fun same => ?_
        have nul : (0 : UInt8) ∈ decimal.bytes := by
          rw [same]
          exact List.mem_append_right _ List.mem_cons_self
        cases isNumberByte_of_mem_bytes nul
      obtain ⟨rest, rfl⟩ := inText
      refine .inr ⟨decimal.bytes, decimal.integerPart, rest, rfl,
        .decimal decimal short ?_, ⟨decimal, found, rfl⟩, ahead.bind ?_⟩
      · intro byte head
        refine begins byte ?_
        obtain ⟨tail, whole⟩ := List.head?_eq_some_iff.mp head
        rw [whole]
        rfl
      · rw [found]
        exact (reads_advance decimal.bytes rest).bind (.pure _ _)

theorem NumberText.integerPart {decimal : Decimal} {value : Int}
    (number : NumberText decimal.bytes value) : decimal.integerPart = value := by
  generalize same : decimal.bytes = piece at number
  cases number with
  | decimal other _ _ =>
      have read := decimal.strtod_bytes
      rw [same, other.strtod_bytes] at read
      rw [Option.some.inj read]

theorem parseNumber_complete {piece rest : Bytes} {value : Int}
    (number : NumberText piece value) (front : FrontNumber piece rest) :
    Reads parseNumber (piece ++ rest) (.number value) rest := by
  obtain ⟨decimal, found, rfl⟩ := front
  rw [← number.integerPart]
  unfold parseNumber
  refine (reads_remaining (decimal.bytes ++ rest)).bind ?_
  rw [found]
  exact (reads_advance decimal.bytes rest).bind (.pure _ _)

/-- A number that nothing of its kind follows is found as a whole. -/
theorem NumberText.frontNumber {piece rest : Bytes} {value : Int}
    (number : NumberText piece value) (stop : NoNumberByte rest) :
    FrontNumber piece rest := by
  cases number with
  | decimal decimal short _ =>
      have text := numberText_append
        (fun _ => isNumberByte_of_mem_bytes) short stop
      exact ⟨decimal, by rw [text, decimal.strtod_bytes], rfl⟩

/-! ## Values -/

theorem reads_startsWith {word : Bytes} (nulFree : 0 ∉ word) (text : Bytes) :
    Reads (startsWith word) text (decide (word <+: text)) text := by
  have whole : word <+: text ++ [0] ↔ word <+: text := by
    rw [List.prefix_concat_iff]
    refine or_iff_right fun same => nulFree ?_
    rw [same]
    exact List.mem_append_right _ List.mem_cons_self
  rw [decide_eq_decide.mpr whole.symm]
  exact (reads_remaining text).bind (.pure _ _)

/-- The first bytes of values. -/
def isValueByte (byte : UInt8) : Bool :=
  isDigit byte || byte == 34 || byte == 45 || byte == 91 || byte == 102 ||
    byte == 110 || byte == 116 || byte == 123

theorem isValueByte_cases {byte : UInt8} (begins : isValueByte byte = true) :
    isBlank byte = false ∧ byte ≠ 93 ∧ byte ≠ 125 := by
  simp only [isValueByte, Bool.or_eq_true, beq_iff_eq] at begins
  obtain ((((((digit | rfl) | rfl) | rfl) | rfl) | rfl) | rfl) | rfl := begins
  · refine ⟨isBlank_eq_false_of_isDigit digit, ?_, ?_⟩ <;>
      rintro rfl <;> cases digit
  all_goals decide

theorem ScalarText.begins {piece : Bytes} {json : Json}
    (scalar : ScalarText piece json) :
    ∃ byte bytes, piece = byte :: bytes ∧ isValueByte byte = true := by
  cases scalar with
  | nullWord => exact ⟨_, _, rfl, rfl⟩
  | falseWord => exact ⟨_, _, rfl, rfl⟩
  | trueWord => exact ⟨_, _, rfl, rfl⟩
  | string quoted =>
      cases quoted
      exact ⟨_, _, rfl, rfl⟩
  | number decimal =>
      cases decimal with
      | decimal decimal _ first =>
          obtain ⟨byte, bytes, whole⟩ :=
            List.exists_cons_of_ne_nil decimal.bytes_ne_nil
          refine ⟨byte, bytes, whole, ?_⟩
          obtain rfl | digit := first byte (by rw [whole]; rfl)
          · rfl
          · simp [isValueByte, digit]

theorem NestedText.begins {value : Bytes → Json → Prop} {piece : Bytes}
    {json : Json} (nested : NestedText value piece json) :
    ∃ byte bytes, piece = byte :: bytes ∧ isValueByte byte = true := by
  obtain ⟨enclosed⟩ | ⟨enclosed⟩ := nested
  all_goals
    cases enclosed
    · exact ⟨_, _, rfl, rfl⟩
    · exact ⟨_, _, rfl, rfl⟩

theorem ValueText.begins {levels : Nat} {piece : Bytes} {json : Json}
    (value : ValueText levels piece json) :
    ∃ byte bytes, piece = byte :: bytes ∧ isValueByte byte = true := by
  cases levels with
  | zero => exact (value.resolve_right id).begins
  | succ levels =>
      obtain scalar | nested := value
      · exact scalar.begins
      · exact nested.begins

/-- A number is all that `strtod` finds in its place. -/
def Delimited (piece rest : Bytes) : Prop :=
  BeginsNumber piece → FrontNumber piece rest

theorem isNumberByte_eq_false_of_isBlank {byte : UInt8}
    (blank : isBlank byte = true) : isNumberByte byte = false := by
  by_contra number
  simp only [Bool.not_eq_false, isNumberByte, Bool.or_eq_true, beq_iff_eq]
    at number
  obtain ((((digit | rfl) | rfl) | rfl) | rfl) | rfl := number
  · rw [isBlank_eq_false_of_isDigit digit] at blank
    cases blank
  all_goals cases blank

theorem noNumberByte_of_blank {space : Bytes} (blank : Blank space) :
    NoNumberByte space := fun byte head =>
  isNumberByte_eq_false_of_isBlank (blank byte (List.mem_of_mem_head? head))

theorem noNumberByte_of_endsElement {close : UInt8} {rest : Bytes}
    (bracket : isNumberByte close = false) (ends : EndsElement close rest) :
    NoNumberByte rest := by
  obtain ⟨byte, bytes, rfl, shape⟩ := ends
  intro first head
  obtain rfl : byte = first := Option.some.inj head
  obtain blank | rfl | rfl := shape
  · exact isNumberByte_eq_false_of_isBlank blank
  · rfl
  · exact bracket

theorem not_beginsNumber {byte : UInt8} (other : byte ≠ 45)
    (noDigit : isDigit byte = false) (bytes : Bytes) :
    ¬ BeginsNumber (byte :: bytes) := by
  intro begins
  obtain same | digit := begins byte rfl
  · exact other same
  · rw [noDigit] at digit
    cases digit

theorem ScalarText.delimited {piece rest : Bytes} {json : Json}
    (scalar : ScalarText piece json) (stop : NoNumberByte rest) :
    Delimited piece rest := by
  intro begins
  cases scalar with
  | nullWord => exact (not_beginsNumber (by decide) rfl _ begins).elim
  | falseWord => exact (not_beginsNumber (by decide) rfl _ begins).elim
  | trueWord => exact (not_beginsNumber (by decide) rfl _ begins).elim
  | string quoted =>
      cases quoted
      exact (not_beginsNumber (by decide) rfl _ begins).elim
  | number number => exact number.frontNumber stop

theorem Enclosed.exists_cons {α : Type} {opening close : UInt8}
    {form : Bytes → α → Prop} {piece : Bytes} {values : List α}
    (enclosed : Enclosed opening close form piece values) :
    ∃ bytes, piece = opening :: bytes := by
  cases enclosed with
  | empty _ => exact ⟨_, rfl⟩
  | filled _ => exact ⟨_, rfl⟩

theorem NestedText.not_beginsNumber {value : Bytes → Json → Prop}
    {piece : Bytes} {json : Json} (nested : NestedText value piece json) :
    ¬ BeginsNumber piece := by
  obtain ⟨enclosed⟩ | ⟨enclosed⟩ := nested
  all_goals
    obtain ⟨bytes, rfl⟩ := enclosed.exists_cons
    exact ShelterServer.not_beginsNumber (by decide) rfl bytes

theorem ValueText.delimited {levels : Nat} {piece rest : Bytes} {json : Json}
    (value : ValueText levels piece json) (stop : NoNumberByte rest) :
    Delimited piece rest := by
  cases levels with
  | zero => exact (value.resolve_right id).delimited stop
  | succ levels =>
      obtain scalar | nested := value
      · exact scalar.delimited stop
      · exact fun begins => (nested.not_beginsNumber begins).elim

/-- A parser of values that stand for the trees of a form. -/
structure ParsesValues (parser : Reader Json) (value : Bytes → Json → Prop) :
    Prop where
  recognises : Recognises parser fun piece json rest =>
    value piece json ∧ Delimited piece rest
  begins : ∀ {piece json}, value piece json → ∃ byte bytes,
    piece = byte :: bytes ∧ isValueByte byte = true
  delimited : ∀ {piece json rest}, value piece json → NoNumberByte rest →
    Delimited piece rest

section Nested

variable {parser : Reader Json} {value : Bytes → Json → Prop}

theorem ParsesValues.elements (parses : ParsesValues parser value) :
    Elements parser value 93 where
  sound text := (parses.recognises.sound text).mono And.left
  complete found ends := parses.recognises.complete ⟨found,
    parses.delimited found (noNumberByte_of_endsElement rfl ends)⟩
  begins found := by
    obtain ⟨byte, bytes, whole, begins⟩ := parses.begins found
    obtain ⟨notBlank, other, _⟩ := isValueByte_cases begins
    exact ⟨byte, bytes, whole, notBlank, other⟩
  notComma := by decide
  notBlank := rfl

theorem parseMember_sound (parses : ParsesValues parser value) (text : Bytes) :
    FindsOnly (parseMember parser)
      (fun piece member _ => MemberText value piece member) text := by
  unfold parseMember
  obtain rejects | ⟨name, output, behindName, rfl, quoted, named⟩ :=
    recognises_parseString.sound text
  · exact .inl (rejects.bind _)
  obtain ⟨before, atColon, rfl, blankBefore, stop⟩ :=
    exists_blank_append behindName
  have passed := reads_bufferSkipWhitespace blankBefore stop
  have looked := reads_look atColon 0
  by_cases colon : (atColon ++ [0])[0]? = some 58
  · cases atColon with
    | nil => cases colon
    | cons byte behindColon =>
        obtain rfl : byte = 58 := Option.some.inj colon
        obtain ⟨after, atValue, rfl, blankAfter, stop⟩ :=
          exists_blank_append behindColon
        have opened := reads_advance_one 58 (after ++ atValue)
        have skipped := reads_bufferSkipWhitespace blankAfter stop
        obtain rejects | ⟨piece, json, rest, rfl, ⟨found, _⟩, reads⟩ :=
          parses.recognises.sound atValue
        · refine .inl (named.bind_rejects (passed.bind_rejects
            (looked.bind_rejects ?_)))
          rw [if_neg (not_not_intro colon)]
          exact opened.bind_rejects (skipped.bind_rejects (rejects.bind _))
        · refine .inr ⟨name ++ (before ++ 58 :: (after ++ piece)),
            (untilNul output, json), rest, by simp,
            .member quoted blankBefore blankAfter found,
            named.bind (passed.bind (looked.bind ?_))⟩
          rw [if_neg (not_not_intro colon)]
          exact opened.bind (skipped.bind (reads.bind (.pure _ _)))
  · refine .inl (named.bind_rejects (passed.bind_rejects
      (looked.bind_rejects ?_)))
    rw [if_pos colon]
    exact Rejects.throw _

theorem parseMember_complete (parses : ParsesValues parser value)
    {piece rest : Bytes} {member : Bytes × Json}
    (found : MemberText value piece member) (stop : NoNumberByte rest) :
    Reads (parseMember parser) (piece ++ rest) member rest := by
  cases found with
  | @member name before after piece output json quoted blankBefore blankAfter
      found =>
      obtain ⟨byte, bytes, rfl, begins⟩ := parses.begins found
      have atColon : NoBlank (58 :: (after ++ (byte :: bytes ++ rest))) := by
        intro first head
        obtain rfl : 58 = first := Option.some.inj head
        rfl
      have atValue : NoBlank (byte :: bytes ++ rest) := by
        intro first head
        obtain rfl : byte = first := Option.some.inj head
        exact (isValueByte_cases begins).1
      have named : Reads parseString
          (name ++ (before ++ 58 :: (after ++ (byte :: bytes ++ rest)))) output
          (before ++ 58 :: (after ++ (byte :: bytes ++ rest))) :=
        recognises_parseString.complete quoted
      have passed := reads_bufferSkipWhitespace blankBefore atColon
      have opened := reads_advance_one 58 (after ++ (byte :: bytes ++ rest))
      have skipped := reads_bufferSkipWhitespace blankAfter atValue
      have reads := parses.recognises.complete
        ⟨found, parses.delimited found stop⟩
      have whole : name ++ (before ++ 58 :: (after ++ byte :: bytes)) ++ rest =
          name ++ (before ++ 58 :: (after ++ (byte :: bytes ++ rest))) := by
        simp
      rw [whole]
      unfold parseMember
      refine named.bind (passed.bind ((reads_look_cons 58 _).bind ?_))
      rw [if_neg (not_not_intro rfl)]
      exact opened.bind (skipped.bind (reads.bind (.pure _ _)))

theorem ParsesValues.members (parses : ParsesValues parser value) :
    Elements (parseMember parser) (MemberText value) 125 where
  sound := parseMember_sound parses
  complete found ends := parseMember_complete parses found
    (noNumberByte_of_endsElement rfl ends)
  begins found := by
    cases found with
    | member quoted _ _ _ =>
        cases quoted
        exact ⟨34, _, rfl, rfl, by decide⟩
  notComma := by decide
  notBlank := rfl

end Nested

/-- What the parsers of arrays and objects do, given the one for the values one
level down, if there is one. -/
structure ParsesNested (deeper : Option (Reader Json))
    (nested : Bytes → Json → Prop) : Prop where
  arraySound : ∀ text, FindsOnly (parseArray deeper)
    (fun piece json _ => nested piece json) (91 :: text)
  objectSound : ∀ text, FindsOnly (parseObject deeper)
    (fun piece json _ => nested piece json) (123 :: text)
  notNumber : ∀ {piece json}, nested piece json → ¬ BeginsNumber piece
  complete : ∀ {piece json}, nested piece json → ∀ rest,
    (∃ bytes, piece = 91 :: bytes) ∧
        Reads (parseArray deeper) (piece ++ rest) json rest ∨
      (∃ bytes, piece = 123 :: bytes) ∧
        Reads (parseObject deeper) (piece ++ rest) json rest

theorem parsesNested_none : ParsesNested none fun _ _ => False where
  arraySound text := .inl (Rejects.throw (91 :: text))
  objectSound text := .inl (Rejects.throw (123 :: text))
  notNumber found := found.elim
  complete found := found.elim

section Nested

variable {parser : Reader Json} {value : Bytes → Json → Prop}

theorem parseArray_sound (parses : ParsesValues parser value) (text : Bytes) :
    FindsOnly (parseArray (some parser))
      (fun piece json _ => NestedText value piece json) (91 :: text) := by
  have bracket : Reads (peek 0) (91 :: text) 91 (91 :: text) := reads_peek rfl
  refine bracket.bind_findsOnly ?_
  rw [if_neg (not_not_intro rfl)]
  obtain rejects | ⟨piece, items, rest, whole, enclosed, reads⟩ :=
    enclosed_sound parses.elements 91 text
  · exact .inl (rejects.bind _)
  · exact .inr ⟨piece, .array items, rest, whole, .array enclosed,
      reads.bind (.pure _ _)⟩

theorem parseObject_sound (parses : ParsesValues parser value) (text : Bytes) :
    FindsOnly (parseObject (some parser))
      (fun piece json _ => NestedText value piece json) (123 :: text) := by
  refine (reads_look_cons 123 text).bind_findsOnly ?_
  rw [if_neg (not_not_intro rfl)]
  obtain rejects | ⟨piece, members, rest, whole, enclosed, reads⟩ :=
    enclosed_sound parses.members 123 text
  · exact .inl (rejects.bind _)
  · exact .inr ⟨piece, .object members, rest, whole, .object enclosed,
      reads.bind (.pure _ _)⟩

theorem ParsesValues.nested (parses : ParsesValues parser value) :
    ParsesNested (some parser) (NestedText value) where
  arraySound := parseArray_sound parses
  objectSound := parseObject_sound parses
  notNumber found := found.not_beginsNumber
  complete found rest := by
    cases found with
    | array enclosed =>
        have reads := enclosed_complete parses.elements enclosed rest
        obtain ⟨bytes, rfl⟩ := enclosed.exists_cons
        have bracket : Reads (peek 0) (91 :: bytes ++ rest) 91
            (91 :: bytes ++ rest) := reads_peek rfl
        refine .inl ⟨⟨bytes, rfl⟩, bracket.bind ?_⟩
        rw [if_neg (not_not_intro rfl)]
        exact reads.bind (.pure _ _)
    | object enclosed =>
        have reads := enclosed_complete parses.members enclosed rest
        obtain ⟨bytes, rfl⟩ := enclosed.exists_cons
        refine .inr ⟨⟨bytes, rfl⟩, (reads_look_cons 123 _).bind ?_⟩
        rw [if_neg (not_not_intro rfl)]
        exact reads.bind (.pure _ _)

end Nested

section ParseValue

variable {deeper : Option (Reader Json)} {nested : Bytes → Json → Prop}

/-- A word at the front of the text is taken for its value. -/
theorem reads_word (word : Bytes) {count : Nat} {json : Json}
    (length : word.length = count) (rest : Bytes) :
    Reads (do advance count; pure json) (word ++ rest) json rest := by
  subst length
  exact (reads_advance word rest).bind (.pure _ _)

/-- The last part of `parse_value`, by the first byte. -/
theorem parseByte_sound (parses : ParsesNested deeper nested) (byte : UInt8)
    (text : Bytes) :
    FindsOnly
      (if byte = 34 then do
          let valuestring ← parseString
          pure (.string (untilNul valuestring))
        else if byte = 45 ∨ isDigit byte = true then parseNumber
        else if byte = 91 then parseArray deeper
        else if byte = 123 then parseObject deeper
        else throw .rejected)
      (fun piece json rest => ValueTextAt nested piece json ∧
        Delimited piece rest)
      (byte :: text) := by
  split_ifs with quote number bracket brace
  · obtain rejects | ⟨piece, output, rest, whole, quoted, reads⟩ :=
      recognises_parseString.sound (byte :: text)
    · exact .inl (rejects.bind _)
    · have notNumber : ¬ BeginsNumber piece := by
        cases quoted
        exact not_beginsNumber (by decide) rfl _
      exact .inr ⟨piece, _, rest, whole,
        ⟨.inl (.string quoted), fun begins => (notNumber begins).elim⟩,
        reads.bind (.pure _ _)⟩
  · have begins : BeginsNumber (byte :: text) := by
      intro first head
      obtain rfl : byte = first := Option.some.inj head
      exact number
    obtain rejects | ⟨piece, value, rest, whole, found, front, reads⟩ :=
      parseNumber_sound begins
    · exact .inl rejects
    · exact .inr ⟨piece, _, rest, whole, ⟨.inl (.number found), fun _ => front⟩,
        reads⟩
  · subst bracket
    exact (parses.arraySound text).mono fun found =>
      ⟨.inr found, fun begins => (parses.notNumber found begins).elim⟩
  · subst brace
    exact (parses.objectSound text).mono fun found =>
      ⟨.inr found, fun begins => (parses.notNumber found begins).elim⟩
  · exact .inl (Rejects.throw _)

theorem parseValueAt_sound (parses : ParsesNested deeper nested)
    (text : Bytes) :
    FindsOnly (parseValueAt deeper)
      (fun piece json rest => ValueTextAt nested piece json ∧
        Delimited piece rest) text := by
  unfold parseValueAt
  refine (reads_startsWith (by decide) text).bind_findsOnly ?_
  by_cases null : ascii "null" <+: text
  · rw [if_pos (decide_eq_true null)]
    obtain ⟨rest, rfl⟩ := null
    exact .inr ⟨_, _, rest, rfl, ⟨.inl .nullWord, fun begins =>
        (not_beginsNumber (by decide) rfl _ begins).elim⟩,
      reads_word (ascii "null") (by decide) rest⟩
  rw [if_neg (by simpa using null)]
  refine (reads_startsWith (by decide) text).bind_findsOnly ?_
  by_cases no : ascii "false" <+: text
  · rw [if_pos (decide_eq_true no)]
    obtain ⟨rest, rfl⟩ := no
    exact .inr ⟨_, _, rest, rfl, ⟨.inl .falseWord, fun begins =>
        (not_beginsNumber (by decide) rfl _ begins).elim⟩,
      reads_word (ascii "false") (by decide) rest⟩
  rw [if_neg (by simpa using no)]
  refine (reads_startsWith (by decide) text).bind_findsOnly ?_
  by_cases yes : ascii "true" <+: text
  · rw [if_pos (decide_eq_true yes)]
    obtain ⟨rest, rfl⟩ := yes
    exact .inr ⟨_, _, rest, rfl, ⟨.inl .trueWord, fun begins =>
        (not_beginsNumber (by decide) rfl _ begins).elim⟩,
      reads_word (ascii "true") (by decide) rest⟩
  rw [if_neg (by simpa using yes)]
  refine (reads_look text 0).bind_findsOnly ?_
  cases text with
  | nil => exact .inl (Rejects.throw [])
  | cons byte text => exact parseByte_sound parses byte text

theorem not_prefix_of_head {word text : Bytes} {byte : UInt8}
    (first : word.head? = some byte) (other : text.head? ≠ some byte) :
    ¬ word <+: text := by
  rintro ⟨rest, rfl⟩
  obtain ⟨tail, rfl⟩ := List.head?_eq_some_iff.mp first
  exact other rfl

/-- A text that begins like none of the words gets to the first byte. -/
theorem reads_parseByte {byte : UInt8} {text rest : Bytes} {json : Json}
    (notNull : byte ≠ 110) (notFalse : byte ≠ 102) (notTrue : byte ≠ 116)
    (reads : Reads
      (if byte = 34 then do
          let valuestring ← parseString
          pure (.string (untilNul valuestring))
        else if byte = 45 ∨ isDigit byte = true then parseNumber
        else if byte = 91 then parseArray deeper
        else if byte = 123 then parseObject deeper
        else throw .rejected)
      (byte :: text) json rest) :
    Reads (parseValueAt deeper) (byte :: text) json rest := by
  have noWord : ∀ {word : Bytes} {first : UInt8}, word.head? = some first →
      byte ≠ first → decide (word <+: byte :: text) ≠ true := by
    intro word first head other
    rw [ne_eq, decide_eq_true_eq]
    exact not_prefix_of_head head fun same => other (Option.some.inj same)
  unfold parseValueAt
  refine (reads_startsWith (by decide) _).bind ?_
  rw [if_neg (noWord rfl notNull)]
  refine (reads_startsWith (by decide) _).bind ?_
  rw [if_neg (noWord rfl notFalse)]
  refine (reads_startsWith (by decide) _).bind ?_
  rw [if_neg (noWord rfl notTrue)]
  exact (reads_look_cons byte text).bind reads

theorem decide_prefix_append (word rest : Bytes) :
    decide (word <+: word ++ rest) = true :=
  decide_eq_true (List.prefix_append word rest)

theorem decide_prefix_ne {word text : Bytes} (byte : UInt8)
    (first : word.head? = some byte) (other : text.head? ≠ some byte) :
    decide (word <+: text) ≠ true := by
  rw [ne_eq, decide_eq_true_eq]
  exact not_prefix_of_head first other

theorem not_word_of_beginsNumber {byte : UInt8}
    (number : byte = 45 ∨ isDigit byte = true) :
    byte ≠ 110 ∧ byte ≠ 102 ∧ byte ≠ 116 ∧ byte ≠ 34 := by
  obtain rfl | digit := number
  · decide
  · refine ⟨?_, ?_, ?_, ?_⟩ <;> rintro rfl <;> cases digit

theorem scalar_complete {piece rest : Bytes} {json : Json}
    (scalar : ScalarText piece json) (delimited : Delimited piece rest) :
    Reads (parseValueAt deeper) (piece ++ rest) json rest := by
  cases scalar with
  | nullWord =>
      unfold parseValueAt
      refine (reads_startsWith (by decide) _).bind ?_
      rw [if_pos (decide_prefix_append _ rest)]
      exact reads_word (ascii "null") (by decide) rest
  | falseWord =>
      unfold parseValueAt
      refine (reads_startsWith (by decide) _).bind ?_
      rw [if_neg (decide_prefix_ne 110 rfl (by simp [ascii]))]
      refine (reads_startsWith (by decide) _).bind ?_
      rw [if_pos (decide_prefix_append _ rest)]
      exact reads_word (ascii "false") (by decide) rest
  | trueWord =>
      unfold parseValueAt
      refine (reads_startsWith (by decide) _).bind ?_
      rw [if_neg (decide_prefix_ne 110 rfl (by simp [ascii]))]
      refine (reads_startsWith (by decide) _).bind ?_
      rw [if_neg (decide_prefix_ne 102 rfl (by simp [ascii]))]
      refine (reads_startsWith (by decide) _).bind ?_
      rw [if_pos (decide_prefix_append _ rest)]
      exact reads_word (ascii "true") (by decide) rest
  | string quoted =>
      have reads : Reads parseString (piece ++ rest) _ rest :=
        recognises_parseString.complete quoted
      cases quoted with
      | quoted counted decodes =>
          refine reads_parseByte (by decide) (by decide) (by decide) ?_
          rw [if_pos rfl]
          exact reads.bind (.pure _ _)
  | number number =>
      have begins : BeginsNumber piece := by
        cases number
        assumption
      have reads := parseNumber_complete number (delimited begins)
      obtain ⟨byte, bytes, rfl, _⟩ := (ScalarText.number number).begins
      have first := begins byte rfl
      obtain ⟨notNull, notFalse, notTrue, notQuote⟩ :=
        not_word_of_beginsNumber first
      refine reads_parseByte notNull notFalse notTrue ?_
      rw [if_neg notQuote, if_pos first]
      exact reads

theorem parseValueAt_complete (parses : ParsesNested deeper nested)
    {piece rest : Bytes} {json : Json}
    (found : ValueTextAt nested piece json ∧ Delimited piece rest) :
    Reads (parseValueAt deeper) (piece ++ rest) json rest := by
  obtain ⟨scalar | found, delimited⟩ := found
  · exact scalar_complete scalar delimited
  · obtain ⟨⟨bytes, rfl⟩, reads⟩ | ⟨⟨bytes, rfl⟩, reads⟩ :=
      parses.complete found rest
    · exact reads_parseByte (by decide) (by decide) (by decide) reads
    · exact reads_parseByte (by decide) (by decide) (by decide) reads

end ParseValue

/-- What `parse_value` accepts, for every number of levels. -/
theorem parsesValues_parseValue (levels : Nat) :
    ParsesValues (parseValue levels) (ValueText levels) where
  recognises := by
    induction levels with
    | zero =>
        exact ⟨parseValueAt_sound parsesNested_none,
          parseValueAt_complete parsesNested_none⟩
    | succ levels induction =>
        have nested := ParsesValues.nested
          ⟨induction, ValueText.begins, ValueText.delimited⟩
        exact ⟨parseValueAt_sound nested, parseValueAt_complete nested⟩
  begins := ValueText.begins
  delimited := ValueText.delimited

end ShelterServer
