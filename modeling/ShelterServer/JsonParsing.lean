import ShelterServer.Foundations.Decimal
import ShelterServer.Foundations.TextReader
import ShelterServer.Json

/-!
# How cJSON parses

`cJSON_Parse` with its offsets, look-aheads and allocations.  The nesting depth
of the parse buffer is a parameter: the functions for values are given the one
for the values one level further down, or none where the limit is reached.
`CJSON_NESTING_LIMIT` stands in a header of its own and is a parameter too.
-/

namespace ShelterServer

open Foundations Reader

/-- `parse_buffer`: the text, its NUL included, and the offset in it. -/
abbrev ParseBuffer := Cursor

/-- `can_read` and `strncmp` at the offset. -/
def startsWith (word : Bytes) : Reader Bool := do
  let ahead ← remaining
  pure (decide (word <+: ahead))

def isBlank (byte : UInt8) : Bool :=
  byte ≤ 32

/-- `buffer_skip_whitespace`, which steps back from the end of the buffer. -/
def bufferSkipWhitespace : Reader PUnit :=
  modify fun buffer =>
    let length := buffer.content.length
    if length ≤ buffer.offset then buffer
    else
      let ahead := buffer.content.drop buffer.offset
      let offset := buffer.offset + (ahead.takeWhile isBlank).length
      { buffer with offset := if offset = length then offset - 1 else offset }

/-- `skip_utf8_bom`, at the start of the buffer. -/
def skipUtf8Bom : Reader PUnit := do
  if (← look 4).isSome ∧ (← startsWith [0xEF, 0xBB, 0xBF]) = true then
    advance 3
  else pure ⟨⟩

/-! ## Numbers -/

/-- The bytes that `parse_number` copies for `strtod`. -/
def isNumberByte (byte : UInt8) : Bool :=
  isDigit byte || byte == 43 || byte == 45 || byte == 46 || byte == 69 ||
    byte == 101

/-- The bytes of a number, as many as the array `number_c_string` holds. -/
def numberText (ahead : Bytes) : Bytes :=
  (ahead.take 63).takeWhile isNumberByte

def parseNumber : Reader Json := do
  match strtod (numberText (← remaining)) with
  | none => throw .rejected
  | some decimal =>
      advance decimal.bytes.length
      pure (.number decimal.integerPart)

/-! ## Strings -/

def hexDigit (byte : UInt8) : Option Nat :=
  if 48 ≤ byte ∧ byte ≤ 57 then some (byte.toNat - 48)
  else if 65 ≤ byte ∧ byte ≤ 70 then some (10 + byte.toNat - 65)
  else if 97 ≤ byte ∧ byte ≤ 102 then some (10 + byte.toNat - 97)
  else none

/-- The loop of `parse_hex4`; any other byte makes the result 0. -/
def parseHexDigits (index : Nat) : Nat → Nat → Reader Nat
  | 0, value => pure value
  | count + 1, value => do
      match hexDigit (← peek index) with
      | some digit => parseHexDigits (index + 1) count (16 * value + digit)
      | none => pure 0

def parseHex4 (index : Nat) : Reader Nat :=
  parseHexDigits index 4 0

/-- The bytes behind the first, from the last one on, and what is left of the
code for the first. -/
def encodeContinuation : Nat → Nat → Bytes → Bytes × Nat
  | 0, codepoint, output => (output, codepoint)
  | position + 1, codepoint, output =>
      encodeContinuation position (codepoint >>> 6)
        (UInt8.ofNat ((codepoint ||| 0x80) &&& 0xBF) :: output)

def encodeMarked (length firstByteMark codepoint : Nat) : Bytes :=
  let (output, codepoint) := encodeContinuation (length - 1) codepoint []
  UInt8.ofNat ((codepoint ||| firstByteMark) &&& 0xFF) :: output

/-- The part of `utf16_literal_to_utf8` that encodes a code. -/
def codepointToUtf8 (codepoint : Nat) : Option Bytes :=
  if codepoint < 0x80 then some [UInt8.ofNat (codepoint &&& 0x7F)]
  else if codepoint < 0x800 then some (encodeMarked 2 0xC0 codepoint)
  else if codepoint < 0x10000 then some (encodeMarked 3 0xE0 codepoint)
  else if codepoint ≤ 0x10FFFF then some (encodeMarked 4 0xF0 codepoint)
  else none

def isHighSurrogate (code : Nat) : Bool :=
  0xD800 ≤ code && code ≤ 0xDBFF

def isLowSurrogate (code : Nat) : Bool :=
  0xDC00 ≤ code && code ≤ 0xDFFF

def surrogatePair (firstCode secondCode : Nat) : Nat :=
  0x10000 + (((firstCode &&& 0x3FF) <<< 10) ||| (secondCode &&& 0x3FF))

/-- `input_end - input_pointer`, where `input_end` has so many bytes behind
it. -/
def bytesBefore (behind : Nat) : Reader Nat := do
  let ahead ← remaining
  pure (ahead.length - behind)

/-- What a code stands for, with the length of its sequence. -/
def encodeSequence (codepoint length : Nat) : Reader (Bytes × Nat) :=
  match codepointToUtf8 codepoint with
  | some bytes => pure (bytes, length)
  | none => throw .rejected

/-- `utf16_literal_to_utf8`: the bytes and the length of the sequence. -/
def utf16LiteralToUtf8 (behind : Nat) : Reader (Bytes × Nat) := do
  if (← bytesBefore behind) < 6 then throw .rejected
  else
    let firstCode ← parseHex4 2
    if isLowSurrogate firstCode then throw .rejected
    else if isHighSurrogate firstCode then
      if (← bytesBefore behind) < 12 then throw .rejected
      else if (← peek 6) ≠ 92 ∨ (← peek 7) ≠ 117 then throw .rejected
      else
        let secondCode ← parseHex4 8
        if isLowSurrogate secondCode then
          encodeSequence (surrogatePair firstCode secondCode) 12
        else throw .rejected
    else encodeSequence firstCode 6

/-- The first loop of `parse_string`: the bytes before the closing quote, and
how many of them are skipped for escapes. -/
def closingQuote : Bytes → Option (Nat × Nat)
  | [] => none
  | 34 :: _ => some (0, 0)
  | [92] => none
  | 92 :: _ :: rest =>
      (closingQuote rest).map fun (length, skipped) => (length + 2, skipped + 1)
  | _ :: rest =>
      (closingQuote rest).map fun (length, skipped) => (length + 1, skipped)

/-- What the letter behind a backslash stands for. -/
def simpleEscape (letter : UInt8) : Option UInt8 :=
  if letter = 98 then some 8
  else if letter = 102 then some 12
  else if letter = 110 then some 10
  else if letter = 114 then some 13
  else if letter = 116 then some 9
  else if letter = 34 ∨ letter = 92 ∨ letter = 47 then some letter
  else none

def escapeSequence (behind : Nat) : Reader (Bytes × Nat) := do
  let letter ← peek 1
  if letter = 117 then utf16LiteralToUtf8 behind
  else
    match simpleEscape letter with
    | some byte => pure ([byte], 2)
    | none => throw .rejected

/-- Writing behind what was written to an allocated array. -/
def storeOutput (room : Nat) (output bytes : Bytes) : Reader Bytes :=
  if output.length + bytes.length ≤ room then pure (output ++ bytes)
  else throw .outside

/-- The second loop of `parse_string`, where the offset is `input_pointer`. -/
def copyLiteral (behind room : Nat) : Nat → Bytes → Reader Bytes
  | 0, _ => throw .endless
  | turns + 1, output => do
      if (← bytesBefore behind) = 0 then pure output
      else
        let byte ← peek 0
        if byte = 92 then
          let (bytes, sequenceLength) ← escapeSequence behind
          let output ← storeOutput room output bytes
          advance sequenceLength
          copyLiteral behind room turns output
        else
          let output ← storeOutput room output [byte]
          advance 1
          copyLiteral behind room turns output

/-- The bytes that `parse_string` leaves at `valuestring`, before the NUL that
it writes behind them. -/
def parseString : Reader Bytes := do
  if (← peek 0) ≠ 34 then
    advance 1
    throw .rejected
  else
    let ahead ← remaining
    advance 1
    match closingQuote ahead.tail with
    | none => throw .rejected
    | some (length, skipped) =>
        let allocationLength := length + 1 - skipped
        let room := allocationLength + 1
        let behind := ahead.length - (length + 1)
        let output ← copyLiteral behind room ahead.length []
        let _ ← storeOutput room output [0]
        seek (behind - 1)
        pure output

/-! ## Arrays and objects -/

section Enclosed

variable {α : Type}

/-- The loop through the elements, each behind the byte in front of it. -/
def commaSeparated (element : Reader α) : Nat → Reader (List α)
  | 0 => throw .endless
  | turns + 1 => do
      advance 1
      bufferSkipWhitespace
      let value ← element
      bufferSkipWhitespace
      if (← look 0) = some 44 then
        let values ← commaSeparated element turns
        pure (value :: values)
      else pure [value]

/-- The loop, and the closing bracket behind it. -/
def filled (close : UInt8) (element : Reader α) : Reader (List α) := do
  let ahead ← remaining
  let values ← commaSeparated element ahead.length
  if (← look 0) = some close then
    advance 1
    pure values
  else throw .rejected

/-- What follows the opening bracket in `parse_array` and `parse_object`; the
loop starts from the byte in front of the first element. -/
def enclosed (close : UInt8) (element : Reader α) : Reader (List α) := do
  advance 1
  bufferSkipWhitespace
  match ← look 0 with
  | none =>
      retreat
      throw .rejected
  | some byte =>
      if byte = close then
        advance 1
        pure []
      else
        retreat
        filled close element

end Enclosed

def parseArray (deeper : Option (Reader Json)) : Reader Json :=
  match deeper with
  | none => throw .rejected
  | some parseValue => do
      if (← peek 0) ≠ 91 then throw .rejected
      else
        let items ← enclosed 93 parseValue
        pure (.array items)

/-- The name of a child, the colon and the value. -/
def parseMember (parseValue : Reader Json) : Reader (Bytes × Json) := do
  let string ← parseString
  bufferSkipWhitespace
  if (← look 0) ≠ some 58 then throw .rejected
  else
    advance 1
    bufferSkipWhitespace
    let value ← parseValue
    pure (untilNul string, value)

def parseObject (deeper : Option (Reader Json)) : Reader Json :=
  match deeper with
  | none => throw .rejected
  | some parseValue => do
      if (← look 0) ≠ some 123 then throw .rejected
      else
        let members ← enclosed 125 (parseMember parseValue)
        pure (.object members)

/-- `parse_value`, given the parser for the values one level down. -/
def parseValueAt (deeper : Option (Reader Json)) : Reader Json := do
  if (← startsWith (ascii "null")) = true then
    advance 4
    pure .null
  else if (← startsWith (ascii "false")) = true then
    advance 5
    pure (.bool false)
  else if (← startsWith (ascii "true")) = true then
    advance 4
    pure (.bool true)
  else
    match ← look 0 with
    | none => throw .rejected
    | some byte =>
        if byte = 34 then
          let valuestring ← parseString
          pure (.string (untilNul valuestring))
        else if byte = 45 ∨ isDigit byte = true then parseNumber
        else if byte = 91 then parseArray deeper
        else if byte = 123 then parseObject deeper
        else throw .rejected

/-- `parse_value` with so many levels left to the nesting limit. -/
def parseValue : Nat → Reader Json
  | 0 => parseValueAt none
  | levels + 1 => parseValueAt (some (parseValue levels))

/-- `parse_value(item, buffer_skip_whitespace(skip_utf8_bom(&buffer)))`. -/
def parseRoot (nestingLimit : Nat) : Reader Json := do
  skipUtf8Bom
  bufferSkipWhitespace
  parseValue nestingLimit

/-- `cJSON_ParseWithLengthOpts`, from the buffer on. -/
def parseText (nestingLimit : Nat) (requireNullTerminated : Bool) :
    Reader Json := do
  let item ← parseRoot nestingLimit
  if requireNullTerminated = true then
    bufferSkipWhitespace
    if (← look 0) = some 0 then pure item
    else throw .rejected
  else pure item

/-- `cJSON_ParseWithOpts` of a C string. -/
def cJSONParseWithOpts (nestingLimit : Nat) (requireNullTerminated : Bool)
    (value : Bytes) : Except ReadFault Json :=
  (Faulting.exec (parseText nestingLimit requireNullTerminated)
    ⟨untilNul value ++ [0], 0⟩).1

def cJSONParse (nestingLimit : Nat) (value : Bytes) : Except ReadFault Json :=
  cJSONParseWithOpts nestingLimit false value

/-- The tree that `cJSON_Parse` returns, where `none` is NULL. -/
def Json.parse (nestingLimit : Nat) (text : Bytes) : Option Json :=
  (cJSONParse nestingLimit text).toOption

end ShelterServer
