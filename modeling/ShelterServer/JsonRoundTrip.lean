import ShelterServer.JsonLanguage
import ShelterServer.JsonTexts

/-!
# Printing and parsing

The printed text of a tree is a text of the grammar that stands for the tree,
so `cJSON_Parse` gives the tree back, whatever follows an object, exactly when
it is not nested too deeply.
-/

namespace ShelterServer

open Foundations

/-! ## Nesting -/

mutual

/-- How many arrays and objects lie around the innermost value. -/
def Json.nesting : Json → Nat
  | .array items => itemsNesting items + 1
  | .object members => membersNesting members + 1
  | _ => 0

def itemsNesting : List Json → Nat
  | [] => 0
  | item :: items => max item.nesting (itemsNesting items)

def membersNesting : List (Bytes × Json) → Nat
  | [] => 0
  | (_, value) :: members => max value.nesting (membersNesting members)

end

theorem itemsNesting_le_iff {items : List Json} {levels : Nat} :
    itemsNesting items ≤ levels ↔ ∀ item ∈ items, item.nesting ≤ levels := by
  induction items with
  | nil => simp [itemsNesting]
  | cons item items induction =>
      rw [itemsNesting, max_le_iff, induction, List.forall_mem_cons]

theorem membersNesting_le_iff {members : List (Bytes × Json)} {levels : Nat} :
    membersNesting members ≤ levels ↔
      ∀ member ∈ members, member.2.nesting ≤ levels := by
  induction members with
  | nil => simp [membersNesting]
  | cons member members induction =>
      rw [membersNesting, max_le_iff, induction, List.forall_mem_cons]

section Forms

variable {α : Type} {form : Bytes → α → Prop} {text : Bytes}
  {values : List α} {opening closing : UInt8}

theorem Separated.imp {weaker : Bytes → α → Prop}
    (separated : Separated form text values)
    (implies : ∀ piece value, value ∈ values → form piece value →
      weaker piece value) : Separated weaker text values := by
  induction separated with
  | last blankBefore found blankAfter =>
      exact .last blankBefore (implies _ _ List.mem_cons_self found) blankAfter
  | more blankBefore found blankAfter _ induction =>
      exact .more blankBefore (implies _ _ List.mem_cons_self found) blankAfter
        (induction fun piece value member =>
          implies piece value (List.mem_cons_of_mem _ member))

theorem Enclosed.imp {weaker : Bytes → α → Prop}
    (enclosed : Enclosed opening closing form text values)
    (implies : ∀ piece value, value ∈ values → form piece value →
      weaker piece value) : Enclosed opening closing weaker text values := by
  cases enclosed with
  | empty blank => exact .empty blank
  | filled separated => exact .filled (separated.imp implies)

/-- Every element has a text of its own. -/
theorem Separated.exists_form (separated : Separated form text values) :
    ∀ value ∈ values, ∃ piece, form piece value := by
  induction separated with
  | last _ found _ =>
      intro value member
      obtain rfl := List.mem_singleton.mp member
      exact ⟨_, found⟩
  | more _ found _ _ induction =>
      exact List.forall_mem_cons.mpr ⟨⟨_, found⟩, induction⟩

theorem Enclosed.exists_form (enclosed : Enclosed opening closing form text
    values) : ∀ value ∈ values, ∃ piece, form piece value := by
  cases enclosed with
  | empty _ => exact fun _ member => nomatch member
  | filled separated => exact separated.exists_form

end Forms

/-- A text nests as deeply as its tree. -/
theorem ValueText.nesting_le {levels : Nat} {piece : Bytes} {json : Json}
    (value : ValueText levels piece json) : json.nesting ≤ levels := by
  induction levels generalizing piece json with
  | zero =>
      cases value.resolve_right id <;> exact Nat.zero_le _
  | succ levels induction =>
      obtain scalar | nested := value
      · cases scalar <;> exact Nat.zero_le _
      · cases nested with
        | array enclosed =>
            rw [Json.nesting]
            refine Nat.succ_le_succ (itemsNesting_le_iff.mpr ?_)
            intro item member
            obtain ⟨piece, found⟩ := enclosed.exists_form item member
            exact induction found
        | object enclosed =>
            rw [Json.nesting]
            refine Nat.succ_le_succ (membersNesting_le_iff.mpr ?_)
            intro member inside
            obtain ⟨piece, found⟩ := enclosed.exists_form member inside
            cases found with
            | member _ _ _ found => exact induction found

/-- What is a value at some number of levels is one at every number that its
tree allows. -/
theorem ValueText.of_nesting {levels enough : Nat} {piece : Bytes} {json : Json}
    (value : ValueText levels piece json) (nests : json.nesting ≤ enough) :
    ValueText enough piece json := by
  induction levels generalizing piece json enough with
  | zero =>
      cases enough with
      | zero => exact value
      | succ enough => exact .inl (value.resolve_right id)
  | succ levels induction =>
      obtain scalar | nested := value
      · cases enough with
        | zero => exact .inl scalar
        | succ enough => exact .inl scalar
      · cases nested with
        | array enclosed =>
            cases enough with
            | zero => cases nests
            | succ enough =>
                have each := itemsNesting_le_iff.mp (Nat.le_of_succ_le_succ nests)
                exact .inr (.array (enclosed.imp fun piece item member found =>
                  induction found (each item member)))
        | object enclosed =>
            cases enough with
            | zero => cases nests
            | succ enough =>
                have each :=
                  membersNesting_le_iff.mp (Nat.le_of_succ_le_succ nests)
                refine .inr (.object (enclosed.imp ?_))
                rintro piece member inside
                  ⟨quoted, blankBefore, blankAfter, found⟩
                exact .member quoted blankBefore blankAfter
                  (induction found (each _ inside))

/-! ## Strings -/

theorem Literal.append {units more : Nat} {front back : Bytes}
    (first : Literal units front) (second : Literal more back) :
    Literal (units + more) (front ++ back) := by
  induction first with
  | nil =>
      rw [Nat.zero_add]
      exact second
  | plain noQuote noBackslash _ induction =>
      rw [Nat.add_right_comm]
      exact .plain noQuote noBackslash induction
  | escape letter _ induction =>
      rw [Nat.add_right_comm]
      exact .escape letter induction

theorem isPlain_ne {byte : UInt8} (plain : isPlain byte = true) :
    byte ≠ 34 ∧ byte ≠ 92 := by
  simp only [isPlain, Bool.and_eq_true, bne_iff_ne] at plain
  exact ⟨plain.1.2, plain.2⟩

theorem printedHexDigit_ne {value : Nat} (digit : value < 16) :
    printedHexDigit value ≠ 34 ∧ printedHexDigit value ≠ 92 := by
  have bounds := printedHexDigit_bounds digit
  constructor <;> intro same <;> rw [same] at bounds <;> simp at bounds

theorem exists_literal_escaped (byte : UInt8) :
    ∃ units, Literal units (escaped byte) := by
  obtain ⟨_, _, plain, same⟩ | ⟨_, _, letter, _, same⟩ | ⟨_, _, _, _, same⟩ :=
    escaped_cases byte
  · obtain ⟨noQuote, noBackslash⟩ := isPlain_ne plain
    rw [same]
    exact ⟨_, .plain noQuote noBackslash .nil⟩
  · rw [same]
    exact ⟨_, .escape letter .nil⟩
  · have first := printedHexDigit_ne (toNat_div_lt byte)
    have second := printedHexDigit_ne (toNat_mod_lt byte)
    rw [same]
    exact ⟨_, .escape 117 (.plain (by decide) (by decide)
      (.plain (by decide) (by decide) (.plain first.1 first.2
        (.plain second.1 second.2 .nil))))⟩

theorem exists_literal_flatMap_escaped (input : Bytes) :
    ∃ units, Literal units (input.flatMap escaped) := by
  induction input with
  | nil => exact ⟨0, .nil⟩
  | cons byte input induction =>
      obtain ⟨_, first⟩ := exists_literal_escaped byte
      obtain ⟨_, rest⟩ := induction
      rw [List.flatMap_cons]
      exact ⟨_, first.append rest⟩

theorem hexDigit_printedHexDigit {value : Nat} (digit : value < 16) :
    hexDigit (printedHexDigit value) = some value := by
  have code := toNat_printedHexDigit digit
  unfold hexDigit
  simp only [UInt8.le_iff_toNat_le, code]
  change (if 48 ≤ _ ∧ _ ≤ 57 then _ else if 65 ≤ _ ∧ _ ≤ 70 then _ else
    if 97 ≤ _ ∧ _ ≤ 102 then _ else _) = _
  by_cases decimal : value < 10
  · rw [if_pos decimal, if_pos (by omega), Nat.add_sub_cancel_left]
  · rw [if_neg decimal, if_neg (by omega), if_neg (by omega), if_pos (by omega)]
    congr 1
    omega

/-- The code of a control character stands for the character. -/
theorem utf16Unit_unicodeEscape {byte : UInt8} (low : byte < 32)
    (rest : Bytes) :
    utf16Unit (92 :: unicodeEscape byte ++ rest) = some ([byte], 6) := by
  have small : byte.toNat < 32 := UInt8.lt_iff_toNat_lt.mp low
  have code : codeAt (92 :: unicodeEscape byte ++ rest) 2 = byte.toNat := by
    change hexValue [48, 48, printedHexDigit (byte.toNat / 16),
      printedHexDigit (byte.toNat % 16)] 0 = _
    simp only [hexValue, hexDigit_printedHexDigit (toNat_div_lt byte),
      hexDigit_printedHexDigit (toNat_mod_lt byte)]
    change 16 * (16 * 0 + byte.toNat / 16) + byte.toNat % 16 = _
    omega
  have long : ¬ (92 :: unicodeEscape byte ++ rest).length < 6 := by
    simp [unicodeEscape]
  have notLow : isLowSurrogate byte.toNat = false := by
    simp only [isLowSurrogate, Bool.and_eq_false_iff, decide_eq_false_iff_not]
    omega
  have notHigh : isHighSurrogate byte.toNat = false := by
    simp only [isHighSurrogate, Bool.and_eq_false_iff, decide_eq_false_iff_not]
    omega
  have masked : byte.toNat &&& 0x7F = byte.toNat := by
    rw [Nat.and_two_pow_sub_one_eq_mod _ 7]
    omega
  rw [utf16Unit, if_neg long, code, if_neg (by simp [notLow]),
    if_neg (by simp [notHigh]), codepointToUtf8, if_pos (by omega), masked,
    UInt8.ofNat_toNat]
  rfl

theorem literalUnit_escaped (byte : UInt8) (rest : Bytes) :
    literalUnit (escaped byte ++ rest) =
      some ([byte], (escaped byte).length) := by
  obtain ⟨_, _, plain, same⟩ | ⟨letter, _⟩ | ⟨_, low, _, _, same⟩ :=
    escaped_cases byte
  · rw [same]
    exact literalUnit_plain (isPlain_ne plain).2 rest
  · obtain rfl | rfl | rfl | rfl | rfl | rfl | rfl := letter <;> rfl
  · rw [same]
    exact utf16Unit_unicodeEscape low rest

theorem decodes_flatMap_escaped (input : Bytes) :
    Decodes (input.flatMap escaped) input := by
  induction input with
  | nil => exact .nil
  | cons byte input induction =>
      rw [List.flatMap_cons]
      refine .unit (literalUnit_escaped byte _) ?_
      rw [List.drop_left]
      exact induction

/-- What is printed for a string stands for it. -/
theorem stringText_stringText {string : Bytes} (noNul : 0 ∉ string) :
    StringText (stringText string) string := by
  obtain ⟨units, literal⟩ := exists_literal_flatMap_escaped string
  rw [stringText, untilNul_of_notMem noNul]
  exact .quoted literal (decodes_flatMap_escaped string)

/-! ## Values -/

theorem numberText_toString {value : Int}
    (short : value.natAbs < 1000000000000000) :
    NumberText (ascii (toString value)) value := by
  have whole : (Decimal.ofInt value).integerPart = value :=
    Decimal.integerPart_ofInt (by omega)
  have length : (ascii (toString value)).length ≤ 16 :=
    length_toString_le (by decide) short
  have number := NumberText.decimal (Decimal.ofInt value)
    (by
      rw [Decimal.bytes_ofInt]
      omega)
    (fun byte head => by
      rw [Decimal.bytes_ofInt] at head
      exact mem_toString (List.mem_of_mem_head? head))
  rwa [Decimal.bytes_ofInt, whole] at number

theorem blank_cons_tabs {byte : UInt8} (blank : isBlank byte = true)
    (depth : Nat) : Blank (byte :: tabs depth) :=
  List.forall_mem_cons.mpr ⟨blank, fun _ member =>
    List.eq_of_mem_replicate member ▸ rfl⟩

theorem blank_nil : Blank [] :=
  fun _ member => nomatch member

theorem separated_itemsText {value : Bytes → Json → Prop} {depth : Nat}
    {items : List Json} (some : items ≠ [])
    (each : ∀ item ∈ items, value (item.textAt depth) item) :
    Separated value (itemsText depth items) items := by
  induction items with
  | nil => exact (some rfl).elim
  | cons item items induction =>
      rw [List.forall_mem_cons] at each
      rw [itemsText]
      cases items with
      | nil =>
          have separated := Separated.last blank_nil each.1 blank_nil
          simpa [itemsText] using separated
      | cons next items =>
          have rest := induction (List.cons_ne_nil _ _) each.2
          have space : Blank [32] := List.forall_mem_singleton.mpr rfl
          exact .more blank_nil each.1 blank_nil (rest.prepend space)

theorem separated_membersText {value : Bytes → Json → Prop} {depth : Nat}
    {members : List (Bytes × Json)} (some : members ≠ []) {after : Bytes}
    (blankAfter : Blank after)
    (names : ∀ member ∈ members, 0 ∉ member.1)
    (each : ∀ member ∈ members, value (member.2.textAt depth) member.2) :
    Separated (MemberText value)
      (10 :: (membersText depth members ++ after)) members := by
  induction members with
  | nil => exact (some rfl).elim
  | cons member members induction =>
      obtain ⟨string, json⟩ := member
      rw [List.forall_mem_cons] at each names
      have indent := blank_cons_tabs (show isBlank 10 = true from rfl) depth
      have tab : Blank [9] := List.forall_mem_singleton.mpr rfl
      have found : MemberText value
          (stringText string ++ ([] ++ 58 :: ([9] ++ json.textAt depth)))
          (string, json) := by
        have member := MemberText.member (stringText_stringText names.1)
          blank_nil tab each.1
        rwa [untilNul_of_notMem names.1] at member
      rw [membersText]
      cases members with
      | nil =>
          have last : Blank (10 :: after) :=
            List.forall_mem_cons.mpr ⟨rfl, blankAfter⟩
          have separated := Separated.last indent found last
          simpa [membersText] using separated
      | cons next members =>
          have rest := induction (List.cons_ne_nil _ _) names.2 each.2
          have separated := Separated.more indent found blank_nil rest
          simpa using separated

/-- The text of a tree is a value that stands for it. -/
theorem Json.Printable.valueText {json : Json} (printable : json.Printable)
    {levels : Nat} (nests : json.nesting ≤ levels) (depth : Nat) :
    ValueText levels (json.textAt depth) json := by
  have scalar : ∀ {piece json} levels, ScalarText piece json →
      ValueText levels piece json := by
    intro piece json levels found
    cases levels <;> exact .inl found
  induction printable generalizing levels depth with
  | null => exact scalar _ .nullWord
  | bool value =>
      cases value with
      | false => exact scalar _ .falseWord
      | true => exact scalar _ .trueWord
  | number short => exact scalar _ (.number (numberText_toString short))
  | @string value noNul =>
      have found := ScalarText.string (stringText_stringText noNul)
      rw [untilNul_of_notMem noNul] at found
      exact scalar _ found
  | @array items each induction =>
      cases levels with
      | zero => cases nests
      | succ levels =>
          have inner := itemsNesting_le_iff.mp (Nat.le_of_succ_le_succ nests)
          refine .inr (.array ?_)
          cases items with
          | nil => exact .empty blank_nil
          | cons item items =>
              exact .filled (separated_itemsText (List.cons_ne_nil _ _)
                fun item member => induction item member (inner item member) _)
  | @object members names each induction =>
      cases levels with
      | zero => cases nests
      | succ levels =>
          have inner := membersNesting_le_iff.mp (Nat.le_of_succ_le_succ nests)
          have shape : (Json.object members).textAt depth =
              123 :: (10 :: (membersText (depth + 1) members ++ tabs depth) ++
                [125]) := by
            simp [Json.textAt]
          rw [shape]
          refine .inr (.object ?_)
          cases members with
          | nil => exact .empty (blank_cons_tabs rfl depth)
          | cons member members =>
              exact .filled (separated_membersText (List.cons_ne_nil _ _)
                (fun byte member => List.eq_of_mem_replicate member ▸ rfl)
                names fun member inside =>
                  induction member inside (inner member inside) _)

/-! ## What is parsed -/

section Parse

variable {nestingLimit : Nat} {text piece rest : Bytes} {json : Json}

/-- At the front of a text there is one value at most, and one tree that it
stands for. -/
theorem ValueText.unique {levels enough : Nat} {other otherRest : Bytes}
    {otherJson : Json} (noNul : 0 ∉ text)
    (first : ValueText levels piece json) (delimited : Delimited piece rest)
    (whole : text = piece ++ rest)
    (second : ValueText enough other otherJson)
    (otherDelimited : Delimited other otherRest)
    (otherWhole : text = other ++ otherRest) :
    piece = other ∧ json = otherJson := by
  let most := max json.nesting otherJson.nesting
  have reads := (parsesValues_parseValue most).recognises.complete
    ⟨first.of_nesting (le_max_left _ _), delimited⟩
  have otherReads := (parsesValues_parseValue most).recognises.complete
    ⟨second.of_nesting (le_max_right _ _), otherDelimited⟩
  rw [← whole] at reads
  rw [← otherWhole] at otherReads
  obtain ⟨same, rests⟩ := reads.unique noNul otherReads
  rw [whole, rests] at otherWhole
  exact ⟨List.append_cancel_right otherWhole, same⟩

theorem ValueText.not_beginsNumber {levels : Nat}
    (value : ValueText levels piece json) (other : json.isNumber = false) :
    ¬ BeginsNumber piece := by
  have scalar : ScalarText piece json → ¬ BeginsNumber piece := by
    intro scalar
    cases scalar with
    | nullWord => exact ShelterServer.not_beginsNumber (by decide) rfl _
    | falseWord => exact ShelterServer.not_beginsNumber (by decide) rfl _
    | trueWord => exact ShelterServer.not_beginsNumber (by decide) rfl _
    | string quoted =>
        cases quoted
        exact ShelterServer.not_beginsNumber (by decide) rfl _
    | number _ => cases other
  cases levels with
  | zero => exact scalar (value.resolve_right id)
  | succ levels =>
      obtain found | nested := value
      · exact scalar found
      · exact nested.not_beginsNumber

/-- Nothing ends a value too early that is no number. -/
theorem ValueText.delimited_of_stop {levels : Nat}
    (value : ValueText levels piece json)
    (stop : json.isNumber = true → NoNumberByte rest) :
    Delimited piece rest := by
  cases number : json.isNumber with
  | true => exact value.delimited (stop number)
  | false => exact fun begins => (value.not_beginsNumber number begins).elim

theorem withoutBom_of_valueByte {byte : UInt8}
    (begins : isValueByte byte = true) (bytes : Bytes) :
    withoutBom (byte :: bytes) = byte :: bytes := by
  refine if_neg fun mark => ?_
  obtain ⟨tail, same⟩ := mark.2
  obtain rfl : 0xEF = byte := (List.cons.inj same).1
  cases begins

/-- A text that begins like a value has the value at its front. -/
theorem BeginsWithValue.front {byte : UInt8} {bytes : Bytes}
    (found : BeginsWithValue nestingLimit (byte :: bytes) json rest)
    (begins : isValueByte byte = true) :
    ∃ piece, byte :: bytes = piece ++ rest ∧
      ValueText nestingLimit piece json ∧ Delimited piece rest := by
  obtain ⟨whole, blank, value, delimited⟩ := found
  rw [withoutBom_of_valueByte begins] at whole
  rename_i space piece
  cases space with
  | nil => exact ⟨piece, whole, value, delimited⟩
  | cons first space =>
      obtain ⟨rfl, _⟩ := List.cons.inj whole
      have noBlank := (isValueByte_cases begins).1
      rw [blank _ List.mem_cons_self] at noBlank
      cases noBlank

theorem NoNumberByte.untilNul (stop : NoNumberByte rest) :
    NoNumberByte (untilNul rest) := by
  intro byte head
  cases rest with
  | nil => cases head
  | cons first rest =>
      by_cases nul : first = 0
      · rw [nul, untilNul_cons_zero] at head
        cases head
      · rw [untilNul_cons_of_ne nul] at head
        exact stop byte head

theorem Json.untilNul_print_append (json : Json) (rest : Bytes) :
    untilNul (json.print ++ rest) = json.print ++ untilNul rest :=
  untilNul_append_of_notMem json.zero_notMem_print rest

/-- A printed tree is parsed to the tree, or not at all if it is nested too
deeply.  Behind anything but a number there may be any bytes. -/
theorem Json.Printable.parse_print_append (printable : json.Printable)
    (nestingLimit : Nat) (stop : json.isNumber = true → NoNumberByte rest) :
    Json.parse nestingLimit (json.print ++ rest) =
      if json.nesting ≤ nestingLimit then some json else none := by
  have ended : json.isNumber = true → NoNumberByte (untilNul rest) :=
    fun number => (stop number).untilNul
  have value := printable.valueText (le_refl json.nesting) 0
  have delimited := value.delimited_of_stop ended
  have same := Json.untilNul_print_append json rest
  obtain ⟨byte, bytes, shape, begins⟩ := value.begins
  change json.print = byte :: bytes at shape
  split_ifs with nests
  · have whole : withoutBom (untilNul (json.print ++ rest)) =
        [] ++ (json.print ++ untilNul rest) := by
      rw [same, shape]
      exact withoutBom_of_valueByte begins _
    exact Json.parse_eq_some_iff.mpr ⟨untilNul rest,
      .intro whole blank_nil (value.of_nesting nests) delimited⟩
  · refine Option.eq_none_iff_forall_ne_some.mpr fun other parsed => ?_
    obtain ⟨behind, found⟩ := Json.parse_eq_some_iff.mp parsed
    have noNul := zero_notMem_untilNul (json.print ++ rest)
    rw [same, shape] at found noNul
    obtain ⟨piece, whole, otherValue, otherDelimited⟩ := found.front begins
    rw [← shape] at noNul
    change byte :: bytes ++ untilNul rest = piece ++ behind at whole
    rw [← shape] at whole
    obtain ⟨_, rfl⟩ := ValueText.unique noNul value delimited rfl otherValue
      otherDelimited whole
    exact nests otherValue.nesting_le

end Parse

end ShelterServer
