import ShelterServer.Foundations.ByteString

/-!
# Text in UTF-8

The bytes of a text, and the one to four bytes of a character in terms of its
code.  A function of bytes that never lengthens a character keeps a text
exactly if it keeps each of its characters.
-/

namespace ShelterServer.Foundations

/-- A text encoded in UTF-8. -/
def utf8 (text : List Char) : Bytes :=
  text.flatMap String.utf8EncodeChar

/-- A byte of a character, from the mark of its kind and the bits it holds. -/
def markedByte (mark bits : Nat) : UInt8 :=
  UInt8.ofNat (bits + mark)

theorem markedByte_inj {mark left right : Nat} (leftBelow : left + mark < 256)
    (rightBelow : right + mark < 256) :
    markedByte mark left = markedByte mark right ↔ left = right := by
  rw [markedByte, markedByte, ← UInt8.toNat_inj, UInt8.toNat_ofNat',
    UInt8.toNat_ofNat', Nat.mod_eq_of_lt leftBelow,
    Nat.mod_eq_of_lt rightBelow, Nat.add_right_cancel_iff]

section Characters

variable {character : Char}

theorem utf8EncodeChar_of_one (below : character.toNat < 0x80) :
    String.utf8EncodeChar character = [UInt8.ofNat character.toNat] :=
  if_pos (Nat.le_of_lt_succ below)

theorem utf8EncodeChar_of_two (above : 0x80 ≤ character.toNat)
    (below : character.toNat < 0x800) :
    String.utf8EncodeChar character =
      [markedByte 0xC0 (character.toNat / 64 % 32),
        markedByte 0x80 (character.toNat % 64)] := by
  have one : ¬ character.val.toNat ≤ 0x7F := Nat.not_le_of_lt above
  have two : character.val.toNat ≤ 0x7FF := Nat.le_of_lt_succ below
  simp only [String.utf8EncodeChar, if_neg one, if_pos two]
  rfl

theorem utf8EncodeChar_of_three (above : 0x800 ≤ character.toNat)
    (below : character.toNat < 0x10000) :
    String.utf8EncodeChar character =
      [markedByte 0xE0 (character.toNat / 4096 % 16),
        markedByte 0x80 (character.toNat / 64 % 64),
        markedByte 0x80 (character.toNat % 64)] := by
  have two : ¬ character.val.toNat ≤ 0x7FF := Nat.not_le_of_lt above
  have one : ¬ character.val.toNat ≤ 0x7F := fun le => two (by omega)
  have three : character.val.toNat ≤ 0xFFFF := Nat.le_of_lt_succ below
  simp only [String.utf8EncodeChar, if_neg one, if_neg two, if_pos three]
  rfl

theorem utf8EncodeChar_of_four (above : 0x10000 ≤ character.toNat) :
    String.utf8EncodeChar character =
      [markedByte 0xF0 (character.toNat / 262144 % 8),
        markedByte 0x80 (character.toNat / 4096 % 64),
        markedByte 0x80 (character.toNat / 64 % 64),
        markedByte 0x80 (character.toNat % 64)] := by
  have three : ¬ character.val.toNat ≤ 0xFFFF := Nat.not_le_of_lt above
  have two : ¬ character.val.toNat ≤ 0x7FF := fun le => three (by omega)
  have one : ¬ character.val.toNat ≤ 0x7F := fun le => two (by omega)
  simp only [String.utf8EncodeChar, if_neg one, if_neg two, if_neg three]
  rfl

end Characters

/-! ## Equality piece by piece -/

section Pieces

variable {α β : Type*} {short long : α → List β}

theorem length_flatMap_le {items : List α}
    (le : ∀ item ∈ items, (short item).length ≤ (long item).length) :
    (items.flatMap short).length ≤ (items.flatMap long).length := by
  induction items with
  | nil => simp
  | cons item items induction =>
      rw [List.forall_mem_cons] at le
      have rest := induction le.2
      simp only [List.flatMap_cons, List.length_append]
      omega

/-- Where no piece is longer than its counterpart, the whole is the same only
if all pieces are. -/
theorem flatMap_eq_flatMap_iff {items : List α}
    (le : ∀ item ∈ items, (short item).length ≤ (long item).length) :
    items.flatMap short = items.flatMap long ↔
      ∀ item ∈ items, short item = long item := by
  constructor
  · intro same
    induction items with
    | nil => simp
    | cons item items induction =>
        rw [List.forall_mem_cons] at le ⊢
        obtain ⟨firstLe, restLe⟩ := le
        have wholeLe := length_flatMap_le restLe
        have lengths := congrArg List.length same
        simp only [List.flatMap_cons, List.length_append] at same lengths
        obtain ⟨first, rest⟩ := List.append_inj same (by omega)
        exact ⟨first, induction restLe rest⟩
  · exact List.flatMap_congr

end Pieces

end ShelterServer.Foundations
