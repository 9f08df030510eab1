import ShelterServer.Foundations.GrowingBuffer
import ShelterServer.Json

/-!
# How cJSON prints

`cJSON_Print` with its growing buffer.  Every store is checked against the
array, and so is every byte that `strlen` reads.  A number is one that `%d` or
`%1.15g` prints as its digits, which are the whole numbers of up to fifteen.
The allocator is a parameter: it grants or refuses each call, told the length of
the array it is given (0 for a new one) and the size it is asked for.  An array
only grows until the last call, so no two calls of one run are alike.
-/

namespace ShelterServer

open Foundations

inductive PrintFault where
  /-- The function returns false: the buffer cannot grow. -/
  | refused
  /-- A store outside of the array, or a length that is not there to be read. -/
  | outside
  deriving DecidableEq

/-- `printbuffer`, whose `length` is that of the array. -/
structure PrintBuffer where
  buffer : Memory
  offset : Nat
  depth : Nat

abbrev Printer := Faulting PrintFault PrintBuffer

namespace Printer

/-- Stores through the pointer that `ensure` returned. -/
def store (index : Nat) (bytes : Bytes) : Printer PUnit := do
  let state ← get
  match state.buffer.store (state.offset + index) bytes with
  | some buffer => set { state with buffer := buffer }
  | none => throw .outside

def advance (count : Nat) : Printer PUnit :=
  modify fun state => { state with offset := state.offset + count }

def setDepth (change : Nat → Nat) : Printer PUnit :=
  modify fun state => { state with depth := change state.depth }

end Printer

open Printer

section Print

variable (granted : Nat → Nat → Bool)

/-- The size that `ensure` asks for, where `none` is more than `INT_MAX`. -/
def grownSize (needed : Nat) : Option Nat :=
  if (needed : Int) > intMax / 2 then
    if (needed : Int) ≤ intMax then some intMax.toNat else none
  else some (needed * 2)

def ensure (needed : Nat) : Printer PUnit := do
  let state ← get
  if state.buffer.length > 0 ∧ state.offset ≥ state.buffer.length then
    throw .refused
  else if (needed : Int) > intMax then throw .refused
  else if needed + (state.offset + 1) ≤ state.buffer.length then pure ⟨⟩
  else
    match grownSize (needed + (state.offset + 1)) with
    | none => throw .refused
    | some newsize =>
        if granted state.buffer.length newsize = true then
          set { state with buffer := state.buffer.resize newsize }
        else throw .refused

def updateOffset : Printer PUnit := do
  let state ← get
  match Memory.stringLength (state.buffer.drop state.offset) with
  | some length => set { state with offset := state.offset + length }
  | none => throw .outside

/-- The words, which are copied with their NUL. -/
def printWord (word : Bytes) : Printer PUnit := do
  ensure granted (word.length + 1)
  store 0 (word ++ [0])

/-- `print_number`, by way of the array `number_buffer`. -/
def printNumber (value : Int) : Printer PUnit := do
  let digits := ascii (toString value)
  if digits.length + 1 > 26 then throw .outside
  else
    ensure granted (digits.length + 1)
    store 0 (digits ++ [0])
    advance digits.length

/-! ## Strings -/

/-- The first loop of `print_string_ptr`: how many bytes are added for
escapes. -/
def escapeCharacters : Bytes → Nat
  | [] => 0
  | byte :: input =>
      (if byte = 34 ∨ byte = 92 ∨ byte = 8 ∨ byte = 12 ∨ byte = 10 ∨
          byte = 13 ∨ byte = 9 then 1
        else if byte < 32 then 5
        else 0) + escapeCharacters input

/-- The letter for a byte that has one. -/
def escapeLetter (byte : UInt8) : Option UInt8 :=
  if byte = 92 then some 92
  else if byte = 34 then some 34
  else if byte = 8 then some 98
  else if byte = 12 then some 102
  else if byte = 10 then some 110
  else if byte = 13 then some 114
  else if byte = 9 then some 116
  else none

/-- A digit of `%x`. -/
def printedHexDigit (value : Nat) : UInt8 :=
  UInt8.ofNat (if value < 10 then 48 + value else 87 + value)

/-- `u%04x` of one byte. -/
def unicodeEscape (byte : UInt8) : Bytes :=
  [117, 48, 48, printedHexDigit (byte.toNat / 16),
    printedHexDigit (byte.toNat % 16)]

def isPlain (byte : UInt8) : Bool :=
  31 < byte && byte != 34 && byte != 92

/-- The second loop, which begins behind the quote.  `sprintf` also stores a
NUL, which the next store replaces. -/
def copyEscaped : Bytes → Nat → Printer PUnit
  | [], _ => pure ⟨⟩
  | byte :: input, pointer => do
      if isPlain byte = true then
        store pointer [byte]
        copyEscaped input (pointer + 1)
      else
        store pointer [92]
        match escapeLetter byte with
        | some letter =>
            store (pointer + 1) [letter]
            copyEscaped input (pointer + 2)
        | none =>
            store (pointer + 1) (unicodeEscape byte ++ [0])
            copyEscaped input (pointer + 6)

/-- `print_string_ptr` of a C string. -/
def printStringPtr (string : Bytes) : Printer PUnit := do
  let input := untilNul string
  let outputLength := input.length + escapeCharacters input
  ensure granted (outputLength + 3)
  store 0 [34]
  if escapeCharacters input = 0 then store 1 input
  else copyEscaped input 1
  store (outputLength + 1) [34]
  store (outputLength + 2) [0]

/-! ## Arrays and objects -/

/-- The tabs before a member. -/
def printIndent : Printer PUnit := do
  let depth := (← get).depth
  ensure granted depth
  store 0 (List.replicate depth 9)
  advance depth

/-- What stands between the parts of arrays and objects. -/
def printSeparator (bytes : Bytes) : Printer PUnit := do
  ensure granted (bytes.length + 1)
  store 0 (bytes ++ [0])
  advance bytes.length

/-- The closing brace of an object behind its tabs. -/
def printClosingBrace : Printer PUnit := do
  let depth := (← get).depth
  ensure granted (depth + 1)
  store 0 (List.replicate (depth - 1) 9 ++ [125, 0])
  setDepth (· - 1)

mutual

def printValue : Json → Printer PUnit
  | .null => printWord granted (ascii "null")
  | .bool false => printWord granted (ascii "false")
  | .bool true => printWord granted (ascii "true")
  | .number value => printNumber granted value
  | .string valuestring => printStringPtr granted valuestring
  | .array items => do
      ensure granted 1
      store 0 [91]
      advance 1
      setDepth (· + 1)
      printItems items
      ensure granted 2
      store 0 [93, 0]
      setDepth (· - 1)
  | .object members => do
      ensure granted 3
      store 0 [123]
      setDepth (· + 1)
      store 1 [10]
      advance 2
      printMembers members
      printClosingBrace granted

/-- The loop of `print_array`. -/
def printItems : List Json → Printer PUnit
  | [] => pure ⟨⟩
  | item :: items => do
      printValue item
      updateOffset
      if items.isEmpty = true then pure ⟨⟩
      else printSeparator granted [44, 32]
      printItems items

/-- The loop of `print_object`. -/
def printMembers : List (Bytes × Json) → Printer PUnit
  | [] => pure ⟨⟩
  | (string, value) :: members => do
      printIndent granted
      printStringPtr granted string
      updateOffset
      ensure granted 2
      store 0 [58, 9]
      advance 2
      printValue value
      updateOffset
      printSeparator granted
        (if members.isEmpty = true then [10] else [44, 10])
      printMembers members

end

/-- `print` on a buffer, up to the last reallocation. -/
def print (item : Json) : Printer PUnit := do
  printValue granted item
  updateOffset
  let state ← get
  if granted state.buffer.length (state.offset + 1) = true then
    set { state with buffer := state.buffer.resize (state.offset + 1) }
  else throw .refused

/-- The array that `cJSON_Print` returns, where `refused` is NULL. -/
def cJSONPrint (item : Json) : Except PrintFault Memory :=
  if granted 0 256 = true then
    match Faulting.exec (print granted item) ⟨.allocate 256, 0, 0⟩ with
    | (.ok _, state) => .ok state.buffer
    | (.error fault, _) => .error fault
  else .error .refused

end Print

end ShelterServer
