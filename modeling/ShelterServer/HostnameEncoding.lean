import ShelterServer.Foundations.Utf8
import ShelterServer.UdpClient

/-!
# The encoding of the hostname

`encode_utf8` treats every byte of its input as a character of its own.  What
it makes of text that is UTF-8 already is computed for each length of a
character: ASCII is kept, the second byte is made from the first, and a
character of four bytes is dropped.
-/

namespace ShelterServer

open Foundations

/-! ## One byte -/

theorem encodeUtf8Byte_ascii (signedChar : Bool) {code : Nat}
    (below : code < 0x80) :
    encodeUtf8Byte signedChar (UInt8.ofNat code) = [UInt8.ofNat code] := by
  have all : ∀ signedChar, ∀ code < 0x80,
      encodeUtf8Byte signedChar (UInt8.ofNat code) = [UInt8.ofNat code] := by
    decide +kernel
  exact all signedChar code below

theorem encodeUtf8Byte_continuation (signedChar : Bool) {bits : Nat}
    (below : bits < 64) :
    encodeUtf8Byte signedChar (markedByte 0x80 bits) = [] := by
  have all : ∀ signedChar, ∀ bits < 64,
      encodeUtf8Byte signedChar (markedByte 0x80 bits) = [] := by
    decide +kernel
  exact all signedChar bits below

/-- The bits that a shift leaves of the first byte of two: its sign is
extended where `char` is signed. -/
def shiftedTwo (signedChar : Bool) : Nat :=
  if signedChar then 31 else 3

theorem encodeUtf8Byte_two (signedChar : Bool) {bits : Nat}
    (below : bits < 32) :
    encodeUtf8Byte signedChar (markedByte 0xC0 bits) =
      [markedByte 0xC0 (shiftedTwo signedChar), markedByte 0x80 bits] := by
  have all : ∀ signedChar, ∀ bits < 32,
      encodeUtf8Byte signedChar (markedByte 0xC0 bits) =
        [markedByte 0xC0 (shiftedTwo signedChar), markedByte 0x80 bits] := by
    decide +kernel
  exact all signedChar bits below

def shiftedThree (signedChar : Bool) : Nat :=
  if signedChar then 15 else 0

theorem encodeUtf8Byte_three (signedChar : Bool) {bits : Nat}
    (below : bits < 16) :
    encodeUtf8Byte signedChar (markedByte 0xE0 bits) =
      [markedByte 0xE0 (shiftedThree signedChar), markedByte 0x80 (bits + 32),
        markedByte 0x80 (bits + 32)] := by
  have all : ∀ signedChar, ∀ bits < 16,
      encodeUtf8Byte signedChar (markedByte 0xE0 bits) =
        [markedByte 0xE0 (shiftedThree signedChar),
          markedByte 0x80 (bits + 32), markedByte 0x80 (bits + 32)] := by
    decide +kernel
  exact all signedChar bits below

theorem encodeUtf8Byte_four (signedChar : Bool) {bits : Nat}
    (below : bits < 8) :
    encodeUtf8Byte signedChar (markedByte 0xF0 bits) = [] := by
  have all : ∀ signedChar, ∀ bits < 8,
      encodeUtf8Byte signedChar (markedByte 0xF0 bits) = [] := by
    decide +kernel
  exact all signedChar bits below

/-! ## One character -/

/-- What the loop of `encode_utf8` makes of a character. -/
def encodeUtf8Char (signedChar : Bool) (character : Char) : Bytes :=
  (String.utf8EncodeChar character).flatMap (encodeUtf8Byte signedChar)

section Characters

variable (signedChar : Bool) {character : Char}

theorem encodeUtf8Char_of_one (below : character.toNat < 0x80) :
    encodeUtf8Char signedChar character =
      [UInt8.ofNat character.toNat] := by
  rw [encodeUtf8Char, utf8EncodeChar_of_one below, List.flatMap_singleton,
    encodeUtf8Byte_ascii signedChar below]

theorem encodeUtf8Char_of_two (above : 0x80 ≤ character.toNat)
    (below : character.toNat < 0x800) :
    encodeUtf8Char signedChar character =
      [markedByte 0xC0 (shiftedTwo signedChar),
        markedByte 0x80 (character.toNat / 64 % 32)] := by
  rw [encodeUtf8Char, utf8EncodeChar_of_two above below]
  simp only [List.flatMap_cons, List.flatMap_nil, List.append_nil,
    encodeUtf8Byte_two signedChar (Nat.mod_lt _ (by decide)),
    encodeUtf8Byte_continuation signedChar (Nat.mod_lt _ (by decide))]

theorem encodeUtf8Char_of_three (above : 0x800 ≤ character.toNat)
    (below : character.toNat < 0x10000) :
    encodeUtf8Char signedChar character =
      [markedByte 0xE0 (shiftedThree signedChar),
        markedByte 0x80 (character.toNat / 4096 % 16 + 32),
        markedByte 0x80 (character.toNat / 4096 % 16 + 32)] := by
  rw [encodeUtf8Char, utf8EncodeChar_of_three above below]
  simp only [List.flatMap_cons, List.flatMap_nil, List.append_nil,
    encodeUtf8Byte_three signedChar (Nat.mod_lt _ (by decide)),
    encodeUtf8Byte_continuation signedChar (Nat.mod_lt _ (by decide))]

theorem encodeUtf8Char_of_four (above : 0x10000 ≤ character.toNat) :
    encodeUtf8Char signedChar character = [] := by
  rw [encodeUtf8Char, utf8EncodeChar_of_four above]
  simp only [List.flatMap_cons, List.flatMap_nil, List.append_nil,
    encodeUtf8Byte_four signedChar (Nat.mod_lt _ (by decide)),
    encodeUtf8Byte_continuation signedChar (Nat.mod_lt _ (by decide))]

/-- The characters beyond ASCII whose second byte the loop happens to make
from their first. -/
def reproducedCodes : List Nat :=
  if signedChar then [0x7DF, 0xFBEF] else [0xC3, 0x820]

/-- The loop leaves the character alone. -/
def Reproduced (character : Char) : Prop :=
  character.toNat < 0x80 ∨ character.toNat ∈ reproducedCodes signedChar

theorem shiftedTwo_lt : shiftedTwo signedChar < 32 := by
  cases signedChar <;> decide

theorem shiftedThree_lt : shiftedThree signedChar < 16 := by
  cases signedChar <;> decide

theorem mem_reproducedCodes_iff {code : Nat} :
    code ∈ reproducedCodes signedChar ↔
      code = 65 * shiftedTwo signedChar ∨
        code = 4161 * shiftedThree signedChar + 2080 := by
  cases signedChar <;> simp [reproducedCodes, shiftedTwo, shiftedThree]

/-- The code of a character of two bytes with the same six bits in both. -/
theorem eq_repeated_two_iff {code bits : Nat} (below : code < 0x800)
    (bitsBelow : bits < 32) :
    (bits = code / 64 % 32 ∧ code / 64 % 32 = code % 64) ↔
      code = 65 * bits := by
  constructor
  · omega
  · rintro rfl
    have upper : 65 * bits / 64 = bits := by omega
    omega

theorem eq_repeated_three_iff {code bits : Nat} (below : code < 0x10000)
    (bitsBelow : bits < 16) :
    (bits = code / 4096 % 16 ∧ code / 4096 % 16 + 32 = code / 64 % 64 ∧
        code / 4096 % 16 + 32 = code % 64) ↔
      code = 4161 * bits + 2080 := by
  have nested : code / 64 / 64 = code / 4096 :=
    Nat.div_div_eq_div_mul code 64 64
  constructor
  · omega
  · intro same
    have upper : code / 64 = 65 * bits + 32 := by omega
    have top : code / 4096 = bits := by omega
    omega

/-- The loop never lengthens a character, and leaves it alone exactly if it is
one of those that it reproduces. -/
theorem encodeUtf8Char_spec (character : Char) :
    (encodeUtf8Char signedChar character).length ≤
        (String.utf8EncodeChar character).length ∧
      (encodeUtf8Char signedChar character = String.utf8EncodeChar character ↔
        Reproduced signedChar character) := by
  have two := shiftedTwo_lt signedChar
  have three := shiftedThree_lt signedChar
  rw [Reproduced, mem_reproducedCodes_iff]
  rcases Nat.lt_or_ge character.toNat 0x80 with one | one
  · rw [encodeUtf8Char_of_one signedChar one, utf8EncodeChar_of_one one]
    exact ⟨le_rfl, iff_of_true rfl (Or.inl one)⟩
  rcases Nat.lt_or_ge character.toNat 0x800 with small | large
  · rw [encodeUtf8Char_of_two signedChar one small,
      utf8EncodeChar_of_two one small]
    refine ⟨le_rfl, ?_⟩
    rw [List.cons_eq_cons, List.cons_eq_cons, eq_self_iff_true, and_true,
      markedByte_inj (by omega) (by omega),
      markedByte_inj (by omega) (by omega), eq_repeated_two_iff small two]
    omega
  rcases Nat.lt_or_ge character.toNat 0x10000 with medium | huge
  · rw [encodeUtf8Char_of_three signedChar large medium,
      utf8EncodeChar_of_three large medium]
    refine ⟨le_rfl, ?_⟩
    rw [List.cons_eq_cons, List.cons_eq_cons, List.cons_eq_cons,
      eq_self_iff_true, and_true, markedByte_inj (by omega) (by omega),
      markedByte_inj (by omega) (by omega),
      markedByte_inj (by omega) (by omega), eq_repeated_three_iff medium three]
    omega
  · rw [encodeUtf8Char_of_four signedChar huge, utf8EncodeChar_of_four huge]
    refine ⟨Nat.zero_le _, iff_of_false (List.cons_ne_nil _ _).symm ?_⟩
    omega

end Characters

/-! ## A text -/

/-- The server compares the hostname that the file holds: `encode_utf8` returns
its input, and the requests of both clients carry it. -/
structure KeepsHostname (signedChar : Bool) (osId : Bytes) : Prop where
  returned : encodeUtf8 signedChar osId = osId
  authentication :
    ((authenticationRequest signedChar osId).getObjectItem
      (ascii "hostname")).bind Json.valuestring = some osId
  datagram : ∀ message resources,
    (((UdpMenu.initial signedChar osId).request message
      resources).getObjectItem (ascii "hostname")).bind
        Json.valuestring = some osId

theorem keepsHostname_iff (signedChar : Bool) (osId : Bytes) :
    KeepsHostname signedChar osId ↔ encodeUtf8 signedChar osId = osId := by
  constructor
  · exact KeepsHostname.returned
  · intro returned
    exact ⟨returned, congrArg some returned,
      fun _ _ => congrArg some returned⟩

theorem encodeUtf8_utf8 (signedChar : Bool) {text : List Char}
    (nulFree : 0 ∉ utf8 text) :
    encodeUtf8 signedChar (utf8 text) =
      text.flatMap (encodeUtf8Char signedChar) := by
  rw [encodeUtf8, untilNul_of_notMem nulFree, utf8, List.flatMap_assoc]
  rfl

/-- A hostname in UTF-8 reaches the server unchanged exactly if each of its
characters is left alone. -/
theorem keepsHostname_utf8_iff (signedChar : Bool) {text : List Char}
    (nulFree : 0 ∉ utf8 text) :
    KeepsHostname signedChar (utf8 text) ↔
      ∀ character ∈ text, Reproduced signedChar character := by
  rw [keepsHostname_iff, encodeUtf8_utf8 signedChar nulFree, utf8,
    flatMap_eq_flatMap_iff fun character _ =>
      (encodeUtf8Char_spec signedChar character).1]
  exact forall₂_congr fun character _ =>
    (encodeUtf8Char_spec signedChar character).2

theorem keepsHostname_utf8_iff_of_ubuntu :
    KeepsHostname true (utf8 ['u', 'b', 'u', 'n', 't', 'u']) ↔
      ∀ character ∈ ['u', 'b', 'u', 'n', 't', 'u'],
        Reproduced true character :=
  keepsHostname_utf8_iff true (by decide)

/-- The hostname é loses its second byte. -/
theorem not_keepsHostname_utf8 :
    ¬ ∀ (signedChar : Bool) (text : List Char), 0 ∉ utf8 text →
      KeepsHostname signedChar (utf8 text) := by
  intro keeps
  have returned := (keeps true [Char.ofNat 0xE9] (by decide)).returned
  revert returned
  decide

end ShelterServer
