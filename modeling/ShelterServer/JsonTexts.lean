import ShelterServer.Foundations.Decimal
import ShelterServer.JsonPrinting

/-!
# The texts that cJSON prints

What `cJSON_Print` makes of a tree, apart from its buffer.
-/

namespace ShelterServer

open Foundations

namespace Json

/-- What holds of the items of an array and of the values of an object's
members, whenever it holds of the array or object itself, holds of every
tree. -/
@[elab_as_elim]
theorem nestedInduction {motive : Json → Prop} (null : motive .null)
    (bool : ∀ value, motive (.bool value))
    (number : ∀ value, motive (.number value))
    (string : ∀ value, motive (.string value))
    (array : ∀ items, (∀ item ∈ items, motive item) → motive (.array items))
    (object : ∀ members, (∀ member ∈ members, motive member.2) →
      motive (.object members))
    (json : Json) : motive json :=
  @Json.rec motive (fun items => ∀ item ∈ items, motive item)
    (fun members => ∀ member ∈ members, motive member.2)
    (fun member => motive member.2)
    null bool number string array object
    (fun _ member => nomatch member)
    (fun _ _ first rest => List.forall_mem_cons.mpr ⟨first, rest⟩)
    (fun _ member => nomatch member)
    (fun _ _ first rest => List.forall_mem_cons.mpr ⟨first, rest⟩)
    (fun _ _ value => value) json

/-- Trees that are printed without loss: C strings, and whole numbers of up to
fifteen digits. -/
inductive Printable : Json → Prop
  | null : Printable .null
  | bool (value : Bool) : Printable (.bool value)
  | number {value : Int} (short : value.natAbs < 1000000000000000) :
      Printable (.number value)
  | string {value : Bytes} (noNul : 0 ∉ value) : Printable (.string value)
  | array {items : List Json} (each : ∀ item ∈ items, Printable item) :
      Printable (.array items)
  | object {members : List (Bytes × Json)}
      (names : ∀ member ∈ members, 0 ∉ member.1)
      (each : ∀ member ∈ members, Printable member.2) :
      Printable (.object members)

end Json

/-! ## The texts -/

def escaped (byte : UInt8) : Bytes :=
  if isPlain byte = true then [byte]
  else
    match escapeLetter byte with
    | some letter => [92, letter]
    | none => 92 :: unicodeEscape byte

/-- A string in quotes. -/
def stringText (string : Bytes) : Bytes :=
  34 :: ((untilNul string).flatMap escaped ++ [34])

def tabs (depth : Nat) : Bytes :=
  List.replicate depth 9

mutual

def Json.textAt (depth : Nat) : Json → Bytes
  | .null => ascii "null"
  | .bool false => ascii "false"
  | .bool true => ascii "true"
  | .number value => ascii (toString value)
  | .string value => stringText value
  | .array items => 91 :: (itemsText (depth + 1) items ++ [93])
  | .object members =>
      123 :: 10 :: (membersText (depth + 1) members ++ (tabs depth ++ [125]))

def itemsText (depth : Nat) : List Json → Bytes
  | [] => []
  | item :: items =>
      item.textAt depth ++
        ((if items.isEmpty = true then [] else [44, 32]) ++
          itemsText depth items)

def membersText (depth : Nat) : List (Bytes × Json) → Bytes
  | [] => []
  | (string, value) :: members =>
      tabs depth ++ (stringText string ++ ([58, 9] ++ (value.textAt depth ++
        ((if members.isEmpty = true then [10] else [44, 10]) ++
          membersText depth members))))

end

/-- The text that `cJSON_Print` returns. -/
def Json.print (json : Json) : Bytes :=
  json.textAt 0

example : (Json.object [(ascii "message", .string (ascii "a\"b\n"))]).print =
    ascii "\x7b\n\t\"message\":\t\"a\\\"b\\n\"\n\x7d" := by
  decide

/-! ## Escapes -/

/-- The bytes with an escape letter of their own. -/
abbrev HasLetter (byte : UInt8) : Prop :=
  byte = 34 ∨ byte = 92 ∨ byte = 8 ∨ byte = 12 ∨ byte = 10 ∨ byte = 13 ∨
    byte = 9

theorem escapeLetter_eq_none {byte : UInt8} (other : ¬ HasLetter byte) :
    escapeLetter byte = none := by
  simp only [HasLetter, not_or] at other
  simp [escapeLetter, other]

theorem isPlain_iff {byte : UInt8} (other : ¬ HasLetter byte) :
    isPlain byte = true ↔ ¬ byte < 32 := by
  simp only [HasLetter, not_or] at other
  simp only [isPlain, Bool.and_eq_true, decide_eq_true_eq, bne_iff_ne, ne_eq,
    other.1, other.2.1, not_false_eq_true, and_true, UInt8.lt_iff_toNat_lt]
  change 31 < byte.toNat ↔ ¬ byte.toNat < 32
  omega

/-- A byte is copied, or escaped by a letter, or by its code. -/
theorem escaped_cases (byte : UInt8) :
    (¬ HasLetter byte ∧ ¬ byte < 32 ∧ isPlain byte = true ∧
      escaped byte = [byte]) ∨
    (HasLetter byte ∧ isPlain byte = false ∧
      ∃ letter, escapeLetter byte = some letter ∧
        escaped byte = [92, letter]) ∨
    (¬ HasLetter byte ∧ byte < 32 ∧ isPlain byte = false ∧
      escapeLetter byte = none ∧ escaped byte = 92 :: unicodeEscape byte) := by
  by_cases letter : HasLetter byte
  · refine .inr (.inl ⟨letter, ?_⟩)
    obtain rfl | rfl | rfl | rfl | rfl | rfl | rfl := letter <;>
      exact ⟨rfl, _, rfl, rfl⟩
  · have none := escapeLetter_eq_none letter
    by_cases low : byte < 32
    · have escapes : isPlain byte = false :=
        Bool.eq_false_iff.mpr fun plain => (isPlain_iff letter).mp plain low
      refine .inr (.inr ⟨letter, low, escapes, none, ?_⟩)
      rw [escaped, if_neg (by simp [escapes]), none]
    · have plain := (isPlain_iff letter).mpr low
      exact .inl ⟨letter, low, plain, if_pos plain⟩

theorem escapeCharacters_cons (byte : UInt8) (input : Bytes) :
    escapeCharacters (byte :: input) + 1 =
      (escaped byte).length + escapeCharacters input := by
  change (if HasLetter byte then 1 else if byte < 32 then 5 else 0) +
    escapeCharacters input + 1 = _
  obtain ⟨letter, low, _, same⟩ | ⟨letter, _, _, _, same⟩ |
    ⟨letter, low, _, _, same⟩ := escaped_cases byte
  · rw [same, if_neg letter, if_neg low, List.length_singleton]
    omega
  · rw [same, if_pos letter]
    simp only [List.length_cons, List.length_nil]
    omega
  · rw [same, if_neg letter, if_pos low]
    simp only [unicodeEscape, List.length_cons, List.length_nil]
    omega

/-- The first loop counts the bytes that the second one adds. -/
theorem length_flatMap_escaped (input : Bytes) :
    (input.flatMap escaped).length =
      input.length + escapeCharacters input := by
  induction input with
  | nil => rfl
  | cons byte input induction =>
      have counted := escapeCharacters_cons byte input
      rw [List.flatMap_cons, List.length_append, induction, List.length_cons]
      omega

theorem escaped_of_length {byte : UInt8} (one : (escaped byte).length ≤ 1) :
    escaped byte = [byte] := by
  obtain ⟨_, _, _, same⟩ | ⟨_, _, _, _, same⟩ | ⟨_, _, _, _, same⟩ :=
    escaped_cases byte
  · exact same
  all_goals simp [same, unicodeEscape] at one

theorem flatMap_escaped_of_none {input : Bytes}
    (none : escapeCharacters input = 0) : input.flatMap escaped = input := by
  induction input with
  | nil => rfl
  | cons byte input induction =>
      have counted := escapeCharacters_cons byte input
      have rest : escapeCharacters input = 0 :=
        (Nat.add_eq_zero_iff.mp none).2
      rw [List.flatMap_cons, induction rest, escaped_of_length (by omega)]
      rfl

theorem toNat_printedHexDigit {value : Nat} (digit : value < 16) :
    (printedHexDigit value).toNat =
      if value < 10 then 48 + value else 87 + value := by
  rw [printedHexDigit, UInt8.toNat_ofNat']
  split <;> omega

/-- The hexadecimal digits that are printed. -/
theorem printedHexDigit_bounds {value : Nat} (digit : value < 16) :
    48 ≤ (printedHexDigit value).toNat ∧
      (printedHexDigit value).toNat ≤ 57 ∨
    97 ≤ (printedHexDigit value).toNat ∧
      (printedHexDigit value).toNat ≤ 102 := by
  rw [toNat_printedHexDigit digit]
  split <;> omega

theorem toNat_div_lt (byte : UInt8) : byte.toNat / 16 < 16 := by
  have := byte.toNat_lt
  omega

theorem toNat_mod_lt (byte : UInt8) : byte.toNat % 16 < 16 :=
  Nat.mod_lt _ (by decide)

/-- Every byte of an escape but the backslash and the code's letters is the
letter of the escape or a digit. -/
theorem zero_notMem_unicodeEscape (byte : UInt8) :
    0 ∉ unicodeEscape byte := by
  have nonzero : ∀ {value : Nat}, value < 16 → 0 ≠ printedHexDigit value := by
    intro value digit same
    have bounds := printedHexDigit_bounds digit
    rw [← same] at bounds
    simp at bounds
  simp only [unicodeEscape, List.mem_cons, List.not_mem_nil, or_false, not_or]
  exact ⟨by decide, by decide, by decide, nonzero (toNat_div_lt byte),
    nonzero (toNat_mod_lt byte)⟩

theorem zero_notMem_escaped {byte : UInt8} (nonzero : byte ≠ 0) :
    0 ∉ escaped byte := by
  obtain ⟨_, _, _, same⟩ | ⟨letter, _⟩ | ⟨_, _, _, _, same⟩ :=
    escaped_cases byte
  · rw [same]
    simpa using Ne.symm nonzero
  · obtain rfl | rfl | rfl | rfl | rfl | rfl | rfl := letter <;> decide
  · rw [same]
    exact List.not_mem_cons_of_ne_of_not_mem (by decide)
      (zero_notMem_unicodeEscape byte)

/-! ## Texts are C strings -/

theorem zero_notMem_append {front back : Bytes} (left : 0 ∉ front)
    (right : 0 ∉ back) : 0 ∉ front ++ back :=
  fun member => (List.mem_append.mp member).elim left right

theorem zero_notMem_toString (value : Int) : 0 ∉ ascii (toString value) := by
  intro member
  obtain sign | digit := mem_toString member
  · cases sign
  · cases digit

theorem zero_notMem_flatMap_escaped {input : Bytes} (noNul : 0 ∉ input) :
    0 ∉ input.flatMap escaped := by
  intro member
  obtain ⟨byte, inside, nul⟩ := List.mem_flatMap.mp member
  refine zero_notMem_escaped ?_ nul
  rintro rfl
  exact noNul inside

theorem zero_notMem_stringText (string : Bytes) : 0 ∉ stringText string := by
  refine List.not_mem_cons_of_ne_of_not_mem (by decide)
    (zero_notMem_append ?_ (by decide))
  exact zero_notMem_flatMap_escaped (zero_notMem_untilNul string)

theorem zero_notMem_tabs (depth : Nat) : 0 ∉ tabs depth := by
  intro member
  cases List.eq_of_mem_replicate member

theorem zero_notMem_itemsText {depth : Nat} {items : List Json}
    (each : ∀ item ∈ items, 0 ∉ item.textAt depth) :
    0 ∉ itemsText depth items := by
  induction items with
  | nil => simp [itemsText]
  | cons item items induction =>
      rw [List.forall_mem_cons] at each
      rw [itemsText]
      refine zero_notMem_append each.1 (zero_notMem_append ?_
        (induction each.2))
      split <;> decide

theorem zero_notMem_membersText {depth : Nat} {members : List (Bytes × Json)}
    (each : ∀ member ∈ members, 0 ∉ member.2.textAt depth) :
    0 ∉ membersText depth members := by
  induction members with
  | nil => simp [membersText]
  | cons member members induction =>
      rw [List.forall_mem_cons] at each
      rw [membersText]
      refine zero_notMem_append (zero_notMem_tabs depth)
        (zero_notMem_append (zero_notMem_stringText _)
        (zero_notMem_append (by decide) (zero_notMem_append each.1
        (zero_notMem_append ?_ (induction each.2)))))
      split <;> decide

theorem Json.zero_notMem_textAt (json : Json) :
    ∀ depth, 0 ∉ json.textAt depth := by
  induction json using Json.nestedInduction with
  | null => exact fun _ => (by decide : 0 ∉ ascii "null")
  | bool value =>
      cases value with
      | false => exact fun _ => (by decide : 0 ∉ ascii "false")
      | true => exact fun _ => (by decide : 0 ∉ ascii "true")
  | number value => exact fun _ => zero_notMem_toString value
  | string value => exact fun _ => zero_notMem_stringText value
  | array items each =>
      intro depth
      refine List.not_mem_cons_of_ne_of_not_mem (by decide)
        (zero_notMem_append ?_ (by decide))
      exact zero_notMem_itemsText fun item member => each item member _
  | object members each =>
      intro depth
      refine List.not_mem_cons_of_ne_of_not_mem (by decide)
        (List.not_mem_cons_of_ne_of_not_mem (by decide)
        (zero_notMem_append ?_
        (zero_notMem_append (zero_notMem_tabs depth) (by decide))))
      exact zero_notMem_membersText fun member inside => each member inside _

theorem Json.zero_notMem_print (json : Json) : 0 ∉ json.print :=
  json.zero_notMem_textAt 0

end ShelterServer
