import ShelterServer.JsonParsing

/-!
# The language of cJSON

The texts that stand for JSON trees, as a grammar.  It is wider than JSON: any
byte up to the blank separates, a string may hold any byte, numbers are those
of `strtod`, and a `\u` sequence with a wrong digit stands for the code 0.
-/

namespace ShelterServer

open Foundations

/-- Bytes that separate. -/
def Blank (space : Bytes) : Prop :=
  ∀ byte ∈ space, isBlank byte = true

/-! ## Strings -/

/-- Bytes without a quote that would end them; a backslash and the byte behind
it are one unit. -/
inductive Literal : Nat → Bytes → Prop
  | nil : Literal 0 []
  | plain {units : Nat} {literal : Bytes} {byte : UInt8} (noQuote : byte ≠ 34)
      (noBackslash : byte ≠ 92) (rest : Literal units literal) :
      Literal (units + 1) (byte :: literal)
  | escape {units : Nat} {literal : Bytes} (letter : UInt8)
      (rest : Literal units literal) :
      Literal (units + 1) (92 :: letter :: literal)

/-- The value of hexadecimal digits behind those of a value, 0 if one of them
is none. -/
def hexValue : Bytes → Nat → Nat
  | [], value => value
  | byte :: bytes, value =>
      match hexDigit byte with
      | some digit => hexValue bytes (16 * value + digit)
      | none => 0

/-- The code in four bytes of a literal. -/
def codeAt (literal : Bytes) (index : Nat) : Nat :=
  hexValue ((literal.drop index).take 4) 0

/-- What a `\u` sequence at the front of a literal stands for, and its length.
A high surrogate needs a low one behind it. -/
def utf16Unit (literal : Bytes) : Option (Bytes × Nat) :=
  if literal.length < 6 then none
  else if isLowSurrogate (codeAt literal 2) then none
  else if isHighSurrogate (codeAt literal 2) then
    if literal.length < 12 then none
    else if literal[6]? = some 92 ∧ literal[7]? = some 117 ∧
        isLowSurrogate (codeAt literal 8) = true then
      (codepointToUtf8 (surrogatePair (codeAt literal 2) (codeAt literal 8))).map
        (·, 12)
    else none
  else (codepointToUtf8 (codeAt literal 2)).map (·, 6)

/-- What the front of a literal stands for, and its length.  A backslash at the
end, whose companion was taken for a hexadecimal digit, stands with the closing
quote. -/
def literalUnit : Bytes → Option (Bytes × Nat)
  | [] => none
  | [92] => some ([34], 2)
  | 92 :: letter :: literal =>
      if letter = 117 then utf16Unit (92 :: letter :: literal)
      else (simpleEscape letter).map fun byte => ([byte], 2)
  | byte :: _ => some ([byte], 1)

inductive Decodes : Bytes → Bytes → Prop
  | nil : Decodes [] []
  | unit {literal bytes output : Bytes} {length : Nat}
      (found : literalUnit literal = some (bytes, length))
      (rest : Decodes (literal.drop length) output) :
      Decodes literal (bytes ++ output)

/-- A literal in quotes and the bytes it stands for. -/
inductive StringText : Bytes → Bytes → Prop
  | quoted {units : Nat} {literal output : Bytes} (units : Literal units literal)
      (decodes : Decodes literal output) :
      StringText (34 :: (literal ++ [34])) output

/-! ## Values -/

/-- A number that begins with a minus or a digit and fits the array it is
copied to. -/
inductive NumberText : Bytes → Int → Prop
  | decimal (decimal : Decimal) (short : decimal.bytes.length ≤ 63)
      (first : ∀ byte ∈ decimal.bytes.head?,
        byte = 45 ∨ isDigit byte = true) :
      NumberText decimal.bytes decimal.integerPart

inductive ScalarText : Bytes → Json → Prop
  | nullWord : ScalarText (ascii "null") .null
  | falseWord : ScalarText (ascii "false") (.bool false)
  | trueWord : ScalarText (ascii "true") (.bool true)
  | string {piece output : Bytes} (quoted : StringText piece output) :
      ScalarText piece (.string (untilNul output))
  | number {piece : Bytes} {value : Int} (decimal : NumberText piece value) :
      ScalarText piece (.number value)

section Enclosed

variable {α : Type}

/-- Elements with blanks around them and commas in between. -/
inductive Separated (element : Bytes → α → Prop) : Bytes → List α → Prop
  | last {before piece after : Bytes} {value : α} (blankBefore : Blank before)
      (found : element piece value) (blankAfter : Blank after) :
      Separated element (before ++ (piece ++ after)) [value]
  | more {before piece after text : Bytes} {value : α} {values : List α}
      (blankBefore : Blank before) (found : element piece value)
      (blankAfter : Blank after) (rest : Separated element text values) :
      Separated element (before ++ (piece ++ (after ++ 44 :: text)))
        (value :: values)

inductive Enclosed (opening closing : UInt8) (element : Bytes → α → Prop) :
    Bytes → List α → Prop
  | empty {space : Bytes} (blank : Blank space) :
      Enclosed opening closing element (opening :: (space ++ [closing])) []
  | filled {text : Bytes} {values : List α}
      (separated : Separated element text values) :
      Enclosed opening closing element (opening :: (text ++ [closing])) values

end Enclosed

/-- A name, a colon and a value. -/
inductive MemberText (value : Bytes → Json → Prop) :
    Bytes → Bytes × Json → Prop
  | member {name before after piece output : Bytes} {json : Json}
      (quoted : StringText name output) (blankBefore : Blank before)
      (blankAfter : Blank after) (found : value piece json) :
      MemberText value (name ++ (before ++ 58 :: (after ++ piece)))
        (untilNul output, json)

inductive NestedText (value : Bytes → Json → Prop) : Bytes → Json → Prop
  | array {piece : Bytes} {items : List Json}
      (enclosed : Enclosed 91 93 value piece items) :
      NestedText value piece (.array items)
  | object {piece : Bytes} {members : List (Bytes × Json)}
      (enclosed : Enclosed 123 125 (MemberText value) piece members) :
      NestedText value piece (.object members)

/-- A value, given those that are arrays or objects. -/
def ValueTextAt (nested : Bytes → Json → Prop) (piece : Bytes) (json : Json) :
    Prop :=
  ScalarText piece json ∨ nested piece json

/-- Values with arrays and objects nested up to so many levels. -/
def ValueText : Nat → Bytes → Json → Prop
  | 0 => ValueTextAt fun _ _ => False
  | levels + 1 => ValueTextAt (NestedText (ValueText levels))

/-! ## First bytes -/

theorem isNumberByte_of_isDigit {byte : UInt8} (digit : isDigit byte = true) :
    isNumberByte byte = true := by
  simp [isNumberByte, digit]

theorem isBlank_eq_false_of_isDigit {byte : UInt8}
    (digit : isDigit byte = true) : isBlank byte = false := by
  simp only [isDigit, Bool.and_eq_true, decide_eq_true_eq,
    UInt8.le_iff_toNat_le] at digit
  have low : 48 ≤ byte.toNat := digit.1
  simp only [isBlank, decide_eq_false_iff_not, UInt8.le_iff_toNat_le]
  change ¬ byte.toNat ≤ 32
  omega

end ShelterServer
