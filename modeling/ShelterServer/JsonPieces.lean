import ShelterServer.JsonRoundTrip

/-!
# Pieces of printed texts

No piece of a printed object is a text of that object but the whole.  The
quotes that open and close strings are as many in every text of a tree, and a
text that begins elsewhere in the printed one has too few of them ahead.
-/

namespace ShelterServer

open Foundations

/-! ## Quotes -/

mutual

/-- How many strings are written for a tree, names included. -/
def Json.strings : Json → Nat
  | .string _ => 1
  | .array items => itemsStrings items
  | .object members => membersStrings members
  | _ => 0

def itemsStrings : List Json → Nat
  | [] => 0
  | item :: items => item.strings + itemsStrings items

def membersStrings : List (Bytes × Json) → Nat
  | [] => 0
  | (_, value) :: members => value.strings + 1 + membersStrings members

end

/-- The quotes of a text that are not escaped. -/
def quotes : Bytes → Nat
  | [] => 0
  | [92] => 0
  | 92 :: _ :: text => quotes text
  | byte :: text => (if byte = 34 then 1 else 0) + quotes text

theorem quotes_cons {byte : UInt8} (noBackslash : byte ≠ 92) (text : Bytes) :
    quotes (byte :: text) = (if byte = 34 then 1 else 0) + quotes text := by
  rw [quotes]
  · exact fun same => (noBackslash same).elim
  · exact fun _ _ same => (noBackslash same).elim

/-- Bytes that belong to no string. -/
def Unquoted (bytes : Bytes) : Prop :=
  ∀ byte ∈ bytes, byte ≠ 34 ∧ byte ≠ 92

section Quotes

variable {piece rest : Bytes}

theorem Unquoted.of_all
    (all : piece.all (fun byte => byte != 34 && byte != 92) = true) :
    Unquoted piece := by
  intro byte member
  simpa using List.all_eq_true.mp all byte member

theorem Unquoted.quotes_append (unquoted : Unquoted piece) (rest : Bytes) :
    quotes (piece ++ rest) = quotes rest := by
  induction piece with
  | nil => rfl
  | cons byte piece induction =>
      obtain ⟨⟨noQuote, noBackslash⟩, unquoted⟩ := List.forall_mem_cons.mp unquoted
      rw [List.cons_append, quotes_cons noBackslash, if_neg noQuote,
        induction unquoted, Nat.zero_add]

theorem Literal.quotes_append {units : Nat} (literal : Literal units piece)
    (rest : Bytes) : quotes (piece ++ rest) = quotes rest := by
  induction literal with
  | nil => rfl
  | plain noQuote noBackslash _ induction =>
      rw [List.cons_append, quotes_cons noBackslash, if_neg noQuote, induction,
        Nat.zero_add]
  | escape letter _ induction => exact induction

theorem StringText.quotes_append {output : Bytes}
    (quoted : StringText piece output) (rest : Bytes) :
    quotes (piece ++ rest) = 2 + quotes rest := by
  cases quoted with
  | quoted literal _ =>
      rw [List.cons_append, quotes_cons (by decide), if_pos rfl,
        List.append_assoc, literal.quotes_append, List.singleton_append,
        quotes_cons (by decide), if_pos rfl]
      omega

theorem Blank.unquoted (blank : Blank piece) : Unquoted piece := by
  intro byte member
  have low := blank byte member
  constructor <;> rintro rfl <;> cases low

theorem NumberText.unquoted {value : Int} (number : NumberText piece value) :
    Unquoted piece := by
  cases number with
  | decimal decimal _ _ =>
      intro byte member
      have inNumber := isNumberByte_of_mem_bytes member
      constructor <;> rintro rfl <;> cases inNumber

theorem ScalarText.quotes_append {json : Json} (scalar : ScalarText piece json)
    (rest : Bytes) : quotes (piece ++ rest) = 2 * json.strings + quotes rest := by
  have word : ∀ {bytes}, Unquoted bytes → quotes (bytes ++ rest) =
      2 * 0 + quotes rest := by
    intro bytes unquoted
    rw [unquoted.quotes_append, Nat.mul_zero, Nat.zero_add]
  cases scalar with
  | nullWord => exact word (.of_all (by decide))
  | falseWord => exact word (.of_all (by decide))
  | trueWord => exact word (.of_all (by decide))
  | string quoted => exact quoted.quotes_append rest
  | number number => exact word number.unquoted

variable {α : Type} {form : Bytes → α → Prop} {count : α → Nat}

/-- The texts of a form have twice as many quotes as counted. -/
def CountsStrings (form : Bytes → α → Prop) (count : α → Nat) : Prop :=
  ∀ piece value, form piece value → ∀ rest,
    quotes (piece ++ rest) = 2 * count value + quotes rest

theorem CountsStrings.separated (counts : CountsStrings form count)
    {text : Bytes} {values : List α} (separated : Separated form text values)
    (rest : Bytes) : quotes (text ++ rest) =
      2 * (values.map count).sum + quotes rest := by
  induction separated generalizing rest with
  | last blankBefore found blankAfter =>
      simp only [List.append_assoc]
      rw [blankBefore.unquoted.quotes_append, counts _ _ found,
        blankAfter.unquoted.quotes_append]
      rfl
  | more blankBefore found blankAfter _ induction =>
      simp only [List.append_assoc, List.cons_append]
      rw [blankBefore.unquoted.quotes_append, counts _ _ found,
        blankAfter.unquoted.quotes_append, quotes_cons (by decide),
        if_neg (by decide), induction, List.map_cons, List.sum_cons]
      omega

theorem CountsStrings.enclosed (counts : CountsStrings form count)
    {opening closing : UInt8} (unquotedOpening : Unquoted [opening])
    (unquotedClosing : Unquoted [closing]) {values : List α}
    (enclosed : Enclosed opening closing form piece values) (rest : Bytes) :
    quotes (piece ++ rest) = 2 * (values.map count).sum + quotes rest := by
  cases enclosed with
  | empty blank =>
      rw [← List.singleton_append, List.append_assoc, List.append_assoc,
        unquotedOpening.quotes_append, blank.unquoted.quotes_append,
        unquotedClosing.quotes_append]
      simp
  | filled separated =>
      rw [← List.singleton_append, List.append_assoc, List.append_assoc,
        unquotedOpening.quotes_append, counts.separated separated,
        unquotedClosing.quotes_append]

end Quotes

theorem itemsStrings_eq_sum (items : List Json) :
    itemsStrings items = (items.map Json.strings).sum := by
  induction items with
  | nil => rfl
  | cons item items induction =>
      rw [itemsStrings, induction, List.map_cons, List.sum_cons]

theorem membersStrings_eq_sum (members : List (Bytes × Json)) :
    membersStrings members =
      (members.map fun member => member.2.strings + 1).sum := by
  induction members with
  | nil => rfl
  | cons member members induction =>
      rw [membersStrings, induction, List.map_cons, List.sum_cons]

theorem CountsStrings.memberText {value : Bytes → Json → Prop}
    (counts : CountsStrings value Json.strings) :
    CountsStrings (MemberText value) fun member => member.2.strings + 1 := by
  rintro _ _ ⟨quoted, blankBefore, blankAfter, found⟩ rest
  simp only [List.append_assoc, List.cons_append]
  rw [quoted.quotes_append, blankBefore.unquoted.quotes_append,
    quotes_cons (by decide), if_neg (by decide),
    blankAfter.unquoted.quotes_append, counts _ _ found]
  omega

/-- All texts of a tree have the same number of quotes. -/
theorem countsStrings_valueText (levels : Nat) :
    CountsStrings (ValueText levels) Json.strings := by
  induction levels with
  | zero =>
      intro piece json value rest
      exact (value.resolve_right id).quotes_append rest
  | succ levels induction =>
      intro piece json value rest
      obtain scalar | nested := value
      · exact scalar.quotes_append rest
      · cases nested with
        | array enclosed =>
            rw [Json.strings, itemsStrings_eq_sum]
            exact induction.enclosed (.of_all (by decide)) (.of_all (by decide))
              enclosed rest
        | object enclosed =>
            rw [Json.strings, membersStrings_eq_sum]
            exact induction.memberText.enclosed (.of_all (by decide))
              (.of_all (by decide)) enclosed rest

/-! ## Braces in printed texts -/

/-- No backslash escapes a brace. -/
inductive NoBraceEscaped : Bytes → Prop
  | nil : NoBraceEscaped []
  | plain {byte : UInt8} {text : Bytes} (noBackslash : byte ≠ 92)
      (rest : NoBraceEscaped text) : NoBraceEscaped (byte :: text)
  | escape {letter : UInt8} {text : Bytes} (noBrace : letter ≠ 123)
      (rest : NoBraceEscaped text) : NoBraceEscaped (92 :: letter :: text)

theorem NoBraceEscaped.append {front back : Bytes}
    (first : NoBraceEscaped front) (second : NoBraceEscaped back) :
    NoBraceEscaped (front ++ back) := by
  induction first with
  | nil => exact second
  | plain noBackslash _ induction => exact .plain noBackslash induction
  | escape noBrace _ induction => exact .escape noBrace induction

theorem NoBraceEscaped.of_notMem {text : Bytes} (noBackslash : 92 ∉ text) :
    NoBraceEscaped text := by
  induction text with
  | nil => exact .nil
  | cons byte text induction =>
      simp only [List.mem_cons, not_or] at noBackslash
      exact .plain (Ne.symm noBackslash.1) (induction noBackslash.2)

/-- The quotes before a brace and those from it on are all the quotes. -/
theorem NoBraceEscaped.quotes_append {text front rest : Bytes}
    (escapes : NoBraceEscaped text) (whole : text = front ++ 123 :: rest) :
    quotes text = quotes front + quotes (123 :: rest) := by
  induction escapes generalizing front with
  | nil => simp at whole
  | @plain byte text noBackslash _ induction =>
      cases front with
      | nil =>
          rw [whole]
          exact (Nat.zero_add _).symm
      | cons first front =>
          obtain ⟨rfl, rfl⟩ := List.cons.inj whole
          rw [quotes_cons noBackslash, quotes_cons noBackslash, induction rfl,
            Nat.add_assoc]
  | @escape letter text noBrace _ induction =>
      match front with
      | [] => cases (List.cons.inj whole).1
      | [first] =>
          have same := (List.cons.inj (List.cons.inj whole).2).1
          exact (noBrace same).elim
      | first :: second :: front =>
          obtain ⟨rfl, same⟩ := List.cons.inj whole
          obtain ⟨rfl, rfl⟩ := List.cons.inj same
          exact @induction front rfl

theorem noBraceEscaped_escaped (byte : UInt8) :
    NoBraceEscaped (escaped byte) := by
  obtain ⟨_, _, plain, same⟩ | ⟨letter, _⟩ | ⟨_, _, _, _, same⟩ :=
    escaped_cases byte
  · rw [same]
    exact .plain (isPlain_ne plain).2 .nil
  · obtain rfl | rfl | rfl | rfl | rfl | rfl | rfl := letter <;>
      exact .escape (by decide) .nil
  · have first := (printedHexDigit_ne (toNat_div_lt byte)).2
    have second := (printedHexDigit_ne (toNat_mod_lt byte)).2
    rw [same]
    exact .escape (by decide) (.plain (by decide) (.plain (by decide)
      (.plain first (.plain second .nil))))

theorem noBraceEscaped_stringText (string : Bytes) :
    NoBraceEscaped (stringText string) := by
  rw [stringText]
  refine .plain (by decide) (.append ?_ (.of_notMem (by decide)))
  induction untilNul string with
  | nil => exact .nil
  | cons byte input induction =>
      rw [List.flatMap_cons]
      exact (noBraceEscaped_escaped byte).append induction

theorem noBraceEscaped_tabs (depth : Nat) : NoBraceEscaped (tabs depth) := by
  refine .of_notMem fun member => ?_
  cases List.eq_of_mem_replicate member

theorem noBraceEscaped_itemsText {depth : Nat} {items : List Json}
    (each : ∀ item ∈ items, NoBraceEscaped (item.textAt depth)) :
    NoBraceEscaped (itemsText depth items) := by
  induction items with
  | nil => exact .nil
  | cons item items induction =>
      rw [List.forall_mem_cons] at each
      rw [itemsText]
      refine each.1.append (.append (.of_notMem ?_) (induction each.2))
      split <;> decide

theorem noBraceEscaped_membersText {depth : Nat}
    {members : List (Bytes × Json)}
    (each : ∀ member ∈ members, NoBraceEscaped (member.2.textAt depth)) :
    NoBraceEscaped (membersText depth members) := by
  induction members with
  | nil => exact .nil
  | cons member members induction =>
      rw [List.forall_mem_cons] at each
      rw [membersText]
      refine (noBraceEscaped_tabs depth).append
        ((noBraceEscaped_stringText _).append
        (.append (.of_notMem (by decide)) (each.1.append
        (.append (.of_notMem ?_) (induction each.2)))))
      split <;> decide

theorem Json.noBraceEscaped_textAt (json : Json) :
    ∀ depth, NoBraceEscaped (json.textAt depth) := by
  induction json using Json.nestedInduction with
  | null =>
      exact fun _ => .of_notMem (by decide : 92 ∉ ascii "null")
  | bool value =>
      cases value with
      | false => exact fun _ => .of_notMem (by decide : 92 ∉ ascii "false")
      | true => exact fun _ => .of_notMem (by decide : 92 ∉ ascii "true")
  | number value =>
      refine fun _ => .of_notMem fun member => ?_
      obtain sign | digit := mem_toString member
      · cases sign
      · cases digit
  | string value => exact fun _ => noBraceEscaped_stringText value
  | array items each =>
      intro depth
      rw [Json.textAt]
      exact .plain (by decide) ((noBraceEscaped_itemsText fun item member =>
        each item member _).append (.of_notMem (by decide)))
  | object members each =>
      intro depth
      rw [Json.textAt]
      exact .plain (by decide) (.plain (by decide)
        ((noBraceEscaped_membersText fun member inside =>
          each member inside _).append
        ((noBraceEscaped_tabs depth).append (.of_notMem (by decide)))))

/-! ## Pieces of objects -/

section Pieces

variable {nestingLimit : Nat} {piece front rest : Bytes} {json : Json}

theorem Json.print_object (members : List (Bytes × Json)) :
    (Json.object members).print = 123 :: 10 ::
      (membersText 1 members ++ [125]) := by
  simp [Json.print, Json.textAt, tabs]

/-- Before a second brace of a printed object there is a quote. -/
theorem front_eq_nil_of_quotes {members : List (Bytes × Json)}
    (whole : (Json.object members).print = front ++ 123 :: rest)
    (noQuote : quotes front = 0) : front = [] := by
  rw [Json.print_object] at whole
  cases front with
  | nil => rfl
  | cons first front =>
      obtain ⟨rfl, tail⟩ := List.cons.inj whole
      change _ = front ++ 123 :: rest at tail
      rw [quotes_cons (by decide), if_neg (by decide), Nat.zero_add] at noQuote
      cases members with
      | nil =>
          rcases front with _ | ⟨second, _ | ⟨third, front⟩⟩
          all_goals simp [membersText] at tail
      | cons member members =>
          obtain ⟨string, value⟩ := member
          have begins : ∃ text, membersText 1 ((string, value) :: members) ++
              [125] = 9 :: 34 :: text := ⟨_, rfl⟩
          obtain ⟨text, begins⟩ := begins
          rw [begins] at tail
          rcases front with _ | ⟨second, _ | ⟨third, _ | ⟨fourth, front⟩⟩⟩
          all_goals
            simp only [List.nil_append, List.cons_append, List.cons.injEq]
              at tail
          · cases tail.1
          · cases tail.2.1
          · cases tail.2.2.1
          · obtain ⟨rfl, rfl, rfl, _⟩ := tail
            rw [quotes_cons (by decide), quotes_cons (by decide),
              quotes_cons (by decide)] at noQuote
            simp at noQuote

theorem ValueText.exists_brace {levels : Nat}
    (value : ValueText levels piece json) (object : json.isObject = true) :
    ∃ bytes, piece = 123 :: bytes := by
  cases levels with
  | zero => cases value.resolve_right id <;> cases object
  | succ levels =>
      obtain scalar | nested := value
      · cases scalar <;> cases object
      · cases nested with
        | array _ => cases object
        | object enclosed => exact enclosed.exists_cons

theorem Json.not_isNumber_of_isObject (object : json.isObject = true) :
    json.isNumber = false := by
  cases json <;> first | rfl | cases object

/-- Inside a printed object only the whole is a text of it. -/
theorem Json.Printable.eq_print_of_inside (printable : json.Printable)
    (object : json.isObject = true) {levels : Nat}
    (value : ValueText levels piece json) (inside : piece <:+: json.print) :
    piece = json.print := by
  obtain ⟨front, rest, whole⟩ := inside
  obtain ⟨bytes, brace⟩ := value.exists_brace object
  have printed := printable.valueText (le_refl json.nesting) 0
  have all := countsStrings_valueText _ _ _ printed []
  have behind := countsStrings_valueText _ _ _ value rest
  rw [List.append_nil] at all
  have split : json.print = front ++ 123 :: (bytes ++ rest) := by
    rw [← whole, brace, List.append_assoc]
    rfl
  have parts := (json.noBraceEscaped_textAt 0).quotes_append split
  have same : (123 :: (bytes ++ rest)) = piece ++ rest := by rw [brace]; rfl
  rw [same, behind, all, quotes] at parts
  have noQuote : quotes front = 0 := by omega
  have start : front = [] := by
    cases json with
    | object members => exact front_eq_nil_of_quotes split noQuote
    | _ => cases object
  rw [start, List.nil_append] at whole
  have other := Json.not_isNumber_of_isObject object
  have ends : ∀ {rest}, json.isNumber = true → NoNumberByte rest := by
    intro rest number
    rw [other] at number
    cases number
  exact (ValueText.unique json.zero_notMem_print value
    (value.delimited_of_stop ends) whole.symm printed
    (printed.delimited_of_stop ends) (List.append_nil _).symm).1

theorem Json.Printable.parse_of_cutOff (printable : json.Printable)
    (object : json.isObject = true) (initial : front <+: json.print)
    (proper : front ≠ json.print) (nestingLimit : Nat) :
    Json.parse nestingLimit front = none := by
  refine Option.eq_none_iff_forall_ne_some.mpr fun other parsed => ?_
  obtain ⟨behind, found⟩ := Json.parse_eq_some_iff.mp parsed
  have noNul : 0 ∉ front := fun member =>
    json.zero_notMem_print (initial.subset member)
  rw [untilNul_of_notMem noNul] at found
  have printed := printable.valueText (le_refl json.nesting) 0
  obtain ⟨more, whole⟩ := initial
  obtain ⟨bytes, brace⟩ := printed.exists_brace object
  change json.print = 123 :: bytes at brace
  have notNumber : ∀ {rest}, json.isNumber = true → NoNumberByte rest := by
    intro rest number
    rw [Json.not_isNumber_of_isObject object] at number
    cases number
  cases front with
  | nil =>
      obtain ⟨empty, _, value, _⟩ := found
      obtain ⟨_, _, rfl, _⟩ := value.begins
      have lengths := congrArg List.length empty
      simp [withoutBom] at lengths
  | cons byte front =>
      have begins : byte = 123 :=
        (List.cons.inj (whole.trans brace)).1
      subst begins
      obtain ⟨piece, cut, value, _⟩ := found.front rfl
      have delimited : Delimited piece (behind ++ more) := by
        intro first
        have head : piece.head? = some 123 := by
          obtain ⟨first, rest, rfl, _⟩ := value.begins
          obtain ⟨rfl, _⟩ := List.cons.inj cut
          rfl
        obtain sign | digit := first 123 head
        · cases sign
        · cases digit
      rw [cut, List.append_assoc] at whole
      obtain ⟨same, _⟩ := ValueText.unique json.zero_notMem_print value
        delimited whole.symm printed (printed.delimited_of_stop notNumber)
        (List.append_nil _).symm
      change piece = json.print at same
      rw [same] at whole
      have none := List.append_eq_nil_iff.mp (List.append_right_eq_self.mp whole)
      rw [none.1, List.append_nil] at cut
      exact proper (cut.trans same)

/-- What is parsed from a piece of a printed object is another tree. -/
theorem Json.Printable.eq_print_of_parse (printable : json.Printable)
    (object : json.isObject = true) (inside : piece <:+: json.print)
    (parsed : Json.parse nestingLimit piece = some json) :
    piece = json.print := by
  obtain ⟨behind, found⟩ := Json.parse_eq_some_iff.mp parsed
  have noNul : 0 ∉ piece := fun member =>
    json.zero_notMem_print (inside.subset member)
  rw [untilNul_of_notMem noNul] at found
  obtain ⟨whole, blank, value, delimited⟩ := found
  rename_i space inner
  have within : inner <:+: piece := by
    have behindBom : withoutBom piece <:+ piece := by
      unfold withoutBom
      split
      · exact List.drop_suffix 3 piece
      · exact List.suffix_refl piece
    refine List.IsInfix.trans ?_ behindBom.isInfix
    exact ⟨space, behind, by rw [whole, List.append_assoc]⟩
  have same := printable.eq_print_of_inside object value (within.trans inside)
  exact inside.eq_of_length_le (same ▸ within.length_le)

end Pieces

end ShelterServer
