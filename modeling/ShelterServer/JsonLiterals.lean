import ShelterServer.JsonGrammar

/-!
# String literals in memory

`parse_string` looks for the closing quote first, allocates by what it has
seen, and then copies.  The two loops may disagree on where an escape begins,
yet the copy never leaves the literal, its closing quote or the allocation.
-/

namespace ShelterServer

open Foundations Reader

/-! ## The closing quote -/

theorem reads_bytesBefore (text : Bytes) (behind : Nat) :
    Reads (bytesBefore behind) text (text.length + 1 - behind) text := by
  have length : (text ++ [0]).length = text.length + 1 := List.length_append
  rw [← length]
  exact (reads_remaining text).bind (.pure _ _)

theorem Literal.le_length {units : Nat} {literal : Bytes}
    (counted : Literal units literal) : units ≤ literal.length := by
  induction counted with
  | nil => exact le_rfl
  | plain _ _ _ induction => exact Nat.succ_le_succ induction
  | escape _ _ induction => exact Nat.succ_le_succ (Nat.le_succ_of_le induction)

theorem closingQuote_append {units : Nat} {literal : Bytes}
    (counted : Literal units literal) (rest : Bytes) :
    closingQuote (literal ++ 34 :: rest) =
      some (literal.length, literal.length - units) := by
  induction counted with
  | nil => rfl
  | plain noQuote noBackslash counted induction =>
      rw [List.cons_append, closingQuote, induction]
      · simp only [Option.map_some, List.length_cons, Nat.add_sub_add_right]
      · exact noQuote
      · exact fun same => (noBackslash same).elim
      · exact fun _ _ same => (noBackslash same).elim
  | escape letter counted induction =>
      have bound := counted.le_length
      rw [List.cons_append, List.cons_append, closingQuote, induction]
      simp only [Option.map_some, List.length_cons]
      congr 2
      omega

theorem exists_literal_of_closingQuote {text : Bytes}
    (found : (closingQuote text).isSome = true) :
    ∃ units literal rest, text = literal ++ 34 :: rest ∧
      Literal units literal := by
  fun_induction closingQuote text with
  | case1 => cases found
  | case2 rest => exact ⟨0, [], rest, rfl, .nil⟩
  | case3 => cases found
  | case4 letter text induction =>
      rw [Option.isSome_map] at found
      obtain ⟨units, literal, rest, rfl, counted⟩ := induction found
      exact ⟨_, 92 :: letter :: literal, rest, rfl, counted.escape letter⟩
  | case5 byte text noQuote alone companion induction =>
      rw [Option.isSome_map] at found
      obtain ⟨units, literal, rest, rfl, counted⟩ := induction found
      have noBackslash : byte ≠ 92 := by
        intro same
        cases literal with
        | nil => exact companion _ _ same rfl
        | cons letter literal => exact companion _ _ same rfl
      exact ⟨_, byte :: literal, rest, rfl,
        counted.plain noQuote noBackslash⟩

/-! ## Sequences of an escape -/

theorem reads_parseHexDigits {text : Bytes} {index count value : Nat}
    (inside : index + count ≤ text.length) :
    Reads (parseHexDigits index count value) text
      (hexValue ((text.drop index).take count) value) text := by
  induction count generalizing index value with
  | zero => exact .pure value text
  | succ count induction =>
      have bound : index < text.length := by omega
      have byte : (text ++ [0])[index]? = some text[index] := by
        rw [List.getElem?_append_left bound, List.getElem?_eq_getElem bound]
      rw [parseHexDigits, List.drop_eq_getElem_cons bound, List.take_succ_cons,
        hexValue]
      refine (reads_peek byte).bind ?_
      cases hexDigit text[index] with
      | none => exact .pure 0 text
      | some digit => exact induction (by omega)

theorem reads_parseHex4 {literal : Bytes} {index : Nat}
    (inside : index + 4 ≤ literal.length) (rest : Bytes) :
    Reads (parseHex4 index) (literal ++ rest) (codeAt literal index)
      (literal ++ rest) := by
  have front : ((literal ++ rest).drop index).take 4 =
      (literal.drop index).take 4 := by
    rw [List.drop_append_of_le_length (by omega)]
    exact List.take_append_of_le_length (by rw [List.length_drop]; omega)
  rw [codeAt, ← front]
  refine reads_parseHexDigits ?_
  rw [List.length_append]
  omega

section Units

variable {literal rest : Bytes}

/-- In a literal the closing quote has the rest and the NUL behind it. -/
theorem reads_bytesBefore_literal (literal rest : Bytes) :
    Reads (bytesBefore (rest.length + 2)) (literal ++ 34 :: rest)
      literal.length (literal ++ 34 :: rest) := by
  have reads := reads_bytesBefore (literal ++ 34 :: rest) (rest.length + 2)
  have length : (literal ++ 34 :: rest).length + 1 - (rest.length + 2) =
      literal.length := by
    rw [List.length_append, List.length_cons]
    omega
  rwa [length] at reads

theorem answers_encodeSequence (codepoint length : Nat) (text : Bytes) :
    Answers (encodeSequence codepoint length) text
      ((codepointToUtf8 codepoint).map (·, length)) := by
  unfold encodeSequence
  cases codepointToUtf8 codepoint with
  | none => exact Rejects.throw text
  | some bytes => exact Reads.pure _ text

theorem reads_peek_literal {index : Nat} (inside : index < literal.length)
    (rest : Bytes) :
    Reads (peek index) (literal ++ rest) literal[index] (literal ++ rest) := by
  apply reads_peek
  rw [List.append_assoc, List.getElem?_append_left inside,
    List.getElem?_eq_getElem inside]

theorem answers_utf16LiteralToUtf8 (literal rest : Bytes) :
    Answers (utf16LiteralToUtf8 (rest.length + 2)) (literal ++ 34 :: rest)
      (utf16Unit literal) := by
  have left := reads_bytesBefore_literal literal rest
  unfold utf16LiteralToUtf8 utf16Unit
  refine left.bind_answers ?_
  by_cases short : literal.length < 6
  · rw [if_pos short, if_pos short]
    exact Rejects.throw _
  rw [if_neg short, if_neg short]
  refine (reads_parseHex4 (by omega) _).bind_answers ?_
  by_cases low : isLowSurrogate (codeAt literal 2) = true
  · rw [if_pos low, if_pos low]
    exact Rejects.throw _
  rw [if_neg low, if_neg low]
  by_cases high : isHighSurrogate (codeAt literal 2) = true
  · rw [if_pos high, if_pos high]
    refine left.bind_answers ?_
    by_cases single : literal.length < 12
    · rw [if_pos single, if_pos single]
      exact Rejects.throw _
    rw [if_neg single, if_neg single]
    have sixth : 6 < literal.length := by omega
    have seventh : 7 < literal.length := by omega
    refine (reads_peek_literal sixth _).bind_answers ?_
    refine (reads_peek_literal seventh _).bind_answers ?_
    rw [List.getElem?_eq_getElem sixth, List.getElem?_eq_getElem seventh]
    by_cases marked : literal[6] = 92 ∧ literal[7] = 117
    · rw [if_neg (by simp [marked])]
      refine (reads_parseHex4 (by omega) _).bind_answers ?_
      by_cases second : isLowSurrogate (codeAt literal 8) = true
      · rw [if_pos second, if_pos (by simp [marked, second])]
        exact answers_encodeSequence _ _ _
      · rw [if_neg second, if_neg (by simp [second])]
        exact Rejects.throw _
    · have unmarked : ¬ (some literal[6] = some 92 ∧
          some literal[7] = some 117 ∧
          isLowSurrogate (codeAt literal 8) = true) := fun all =>
        marked ⟨Option.some.inj all.1, Option.some.inj all.2.1⟩
      rw [if_pos (by tauto), if_neg unmarked]
      exact Rejects.throw _
  · rw [if_neg high, if_neg high]
    exact answers_encodeSequence _ _ _

theorem answers_simpleEscape (letter : UInt8) (text : Bytes) :
    Answers
      (match simpleEscape letter with
        | some byte => pure ([byte], 2)
        | none => throw .rejected : Reader (Bytes × Nat))
      text ((simpleEscape letter).map fun byte => ([byte], 2)) := by
  cases simpleEscape letter with
  | none => exact Rejects.throw text
  | some byte => exact Reads.pure _ text

theorem answers_escapeSequence (literal rest : Bytes) :
    Answers (escapeSequence (rest.length + 2))
      (92 :: literal ++ 34 :: rest) (literalUnit (92 :: literal)) := by
  unfold escapeSequence
  cases literal with
  | nil =>
      have quote : (92 :: ([] ++ 34 :: rest) ++ [0])[1]? = some 34 := rfl
      exact (reads_peek quote).bind_answers (answers_simpleEscape 34 _)
  | cons letter literal =>
      have second : Reads (peek 1) ((92 :: letter :: literal) ++ 34 :: rest)
          letter _ := reads_peek_literal (by simp) _
      refine second.bind_answers ?_
      change Answers (if letter = 117 then _ else _) _
        (if letter = 117 then _ else _)
      split
      · exact answers_utf16LiteralToUtf8 _ _
      · exact answers_simpleEscape letter _

end Units

/-! ## The allocation -/

/-- Bytes dropped from a literal are at most twice its units; an escape that is
cut has its backslash among them. -/
theorem Literal.drop_cases {units : Nat} {literal : Bytes}
    (counted : Literal units literal) {count : Nat}
    (inside : count ≤ literal.length) :
    (∃ left, Literal left (literal.drop count) ∧
        left + (count + 1) / 2 ≤ units) ∨
      ∃ last letter rest left, count = last + 1 ∧ literal[last]? = some 92 ∧
        literal.drop count = letter :: rest ∧ Literal left rest ∧
        left + (count + 1) / 2 ≤ units := by
  induction counted generalizing count with
  | nil =>
      obtain rfl := Nat.le_zero.mp inside
      exact .inl ⟨0, .nil, le_rfl⟩
  | plain noQuote noBackslash counted induction =>
      cases count with
      | zero => exact .inl ⟨_, counted.plain noQuote noBackslash, by omega⟩
      | succ count =>
          obtain ⟨left, aligned, bound⟩ |
              ⟨last, letter, rest, left, rfl, cut, dropped, aligned, bound⟩ :=
            induction (Nat.le_of_succ_le_succ inside)
          · exact .inl ⟨left, aligned, by omega⟩
          · exact .inr ⟨last + 1, letter, rest, left, rfl, cut, dropped,
              aligned, by omega⟩
  | escape letter counted induction =>
      match count with
      | 0 => exact .inl ⟨_, counted.escape letter, by omega⟩
      | 1 => exact .inr ⟨0, letter, _, _, rfl, rfl, rfl, counted, by omega⟩
      | count + 2 =>
          obtain ⟨left, aligned, bound⟩ |
              ⟨last, letter, rest, left, rfl, cut, dropped, aligned, bound⟩ :=
            induction (Nat.le_of_succ_le_succ (Nat.le_of_succ_le_succ inside))
          · exact .inl ⟨left, aligned, by omega⟩
          · exact .inr ⟨last + 2, letter, rest, left, rfl, cut, dropped,
              aligned, by omega⟩

theorem length_encodeContinuation (position codepoint : Nat) (output : Bytes) :
    (encodeContinuation position codepoint output).1.length =
      position + output.length := by
  induction position generalizing codepoint output with
  | zero => simp [encodeContinuation]
  | succ position induction =>
      rw [encodeContinuation, induction, List.length_cons]
      omega

theorem length_encodeMarked (length firstByteMark codepoint : Nat) :
    (encodeMarked length firstByteMark codepoint).length = length - 1 + 1 := by
  simp [encodeMarked, length_encodeContinuation]

/-- No code takes more than four bytes, and small ones take fewer. -/
theorem length_codepointToUtf8 {codepoint : Nat} {bytes : Bytes}
    (encoded : codepointToUtf8 codepoint = some bytes) :
    bytes.length ≤ 4 ∧ (codepoint < 0x10000 → bytes.length ≤ 3) ∧
      (codepoint < 0x80 → bytes.length ≤ 1) := by
  unfold codepointToUtf8 at encoded
  split_ifs at encoded with one two three four
  · obtain rfl := Option.some.inj encoded
    simp
  all_goals
    obtain rfl := Option.some.inj encoded
    rw [length_encodeMarked]
    omega

theorem hexDigit_lt {byte : UInt8} {digit : Nat}
    (found : hexDigit byte = some digit) : digit < 16 := by
  unfold hexDigit at found
  simp only [UInt8.le_iff_toNat_le] at found
  split_ifs at found with decimal upper lower
  all_goals
    obtain rfl := Option.some.inj found
  · have high : byte.toNat ≤ 57 := decimal.2
    omega
  · have high : byte.toNat ≤ 70 := upper.2
    omega
  · have high : byte.toNat ≤ 102 := lower.2
    omega

theorem hexValue_lt {bytes : Bytes} {value bound : Nat}
    (below : value < bound) : hexValue bytes value < bound * 16 ^ bytes.length := by
  induction bytes generalizing value bound with
  | nil => simpa [hexValue] using below
  | cons byte bytes induction =>
      rw [hexValue]
      split
      · next digit found =>
          have small := hexDigit_lt found
          have next : 16 * value + digit < 16 * bound := by omega
          calc
            _ < 16 * bound * 16 ^ bytes.length := induction next
            _ = bound * 16 ^ (byte :: bytes).length := by
                rw [List.length_cons, Nat.pow_succ, Nat.mul_comm 16 bound,
                  Nat.mul_assoc, Nat.mul_comm 16]
      · have positive : 0 < 16 ^ (byte :: bytes).length :=
          Nat.pow_pos (by decide)
        exact Nat.mul_pos (Nat.zero_lt_of_lt below) positive

theorem codeAt_lt (literal : Bytes) (index : Nat) :
    codeAt literal index < 0x10000 := by
  have value : hexValue ((literal.drop index).take 4) 0 <
      1 * 16 ^ ((literal.drop index).take 4).length :=
    hexValue_lt Nat.zero_lt_one
  have length : ((literal.drop index).take 4).length ≤ 4 :=
    List.length_take_le 4 _
  have power : 16 ^ ((literal.drop index).take 4).length ≤ 16 ^ 4 :=
    Nat.pow_le_pow_right (by decide) length
  unfold codeAt
  omega

theorem hexValue_of_mem {bytes : Bytes} (cut : 92 ∈ bytes) (value : Nat) :
    hexValue bytes value = 0 := by
  induction bytes generalizing value with
  | nil => cases cut
  | cons byte bytes induction =>
      rw [hexValue]
      obtain rfl | later := List.mem_cons.mp cut
      · rfl
      · cases hexDigit byte with
        | none => rfl
        | some digit => exact induction later _

/-- A backslash among the digits makes the code 0. -/
theorem codeAt_of_backslash {literal : Bytes} (cut : literal[5]? = some 92) :
    codeAt literal 2 = 0 := by
  apply hexValue_of_mem
  apply List.mem_of_getElem? (i := 3)
  rw [List.getElem?_take_of_lt (by decide), List.getElem?_drop]
  exact cut

/-- Sequences have an even length and stand for no more bytes than half of it;
one that ends in the middle of an escape stands for a single byte. -/
theorem length_utf16Unit {literal bytes : Bytes} {length : Nat}
    (found : utf16Unit literal = some (bytes, length)) :
    length ≤ literal.length ∧
      (length = 6 ∧ bytes.length ≤ 3 ∧
          (literal[5]? = some 92 → bytes.length ≤ 1) ∨
        length = 12 ∧ bytes.length ≤ 4) := by
  unfold utf16Unit at found
  split_ifs at found with short low high single marked
  · obtain ⟨encoded, encodes, same⟩ := Option.map_eq_some_iff.mp found
    obtain ⟨rfl, rfl⟩ := Prod.mk.injEq .. ▸ same
    exact ⟨by omega, .inr ⟨rfl, (length_codepointToUtf8 encodes).1⟩⟩
  · obtain ⟨encoded, encodes, same⟩ := Option.map_eq_some_iff.mp found
    obtain ⟨rfl, rfl⟩ := Prod.mk.injEq .. ▸ same
    obtain ⟨_, three, one⟩ := length_codepointToUtf8 encodes
    refine ⟨by omega, .inl ⟨rfl, three (codeAt_lt literal 2), fun cut => ?_⟩⟩
    exact one (by simp [codeAt_of_backslash cut])

/-- What is still to be copied fits behind the output.  Between the two bytes
of an escape one byte is in reserve. -/
inductive Fits (allocation : Nat) (output : Bytes) : Bytes → Prop
  | aligned {units : Nat} {literal : Bytes} (counted : Literal units literal)
      (bound : output.length + units ≤ allocation) :
      Fits allocation output literal
  | inside {units : Nat} {letter : UInt8} {literal : Bytes}
      (counted : Literal units literal)
      (bound : output.length + 1 + units ≤ allocation) :
      Fits allocation output (letter :: literal)

theorem Fits.length_le {allocation : Nat} {output literal : Bytes}
    (fits : Fits allocation output literal) : output.length ≤ allocation := by
  cases fits with
  | aligned counted bound => omega
  | inside counted bound => omega

/-- From between the bytes of an escape every unit that stands for no more than
half of its bytes fits. -/
theorem Fits.of_inside {allocation units count : Nat}
    {output bytes literal : Bytes} (counted : Literal units literal)
    (bound : output.length + 1 + units ≤ allocation)
    (within : count ≤ literal.length)
    (few : bytes.length ≤ (count + 1) / 2) :
    Fits allocation (output ++ bytes) (literal.drop count) := by
  obtain ⟨left, aligned, passed⟩ |
      ⟨last, letter, rest, left, _, _, dropped, aligned, passed⟩ :=
    counted.drop_cases within
  · exact .aligned aligned (by rw [List.length_append]; omega)
  · rw [dropped]
    exact .inside aligned (by rw [List.length_append]; omega)

theorem Fits.of_aligned {allocation units count : Nat}
    {output bytes literal : Bytes} (counted : Literal units literal)
    (bound : output.length + units ≤ allocation)
    (within : count ≤ literal.length)
    (few : bytes.length ≤ (count + 1) / 2)
    (fewer : ∀ last, count = last + 1 → literal[last]? = some 92 →
      bytes.length + 1 ≤ (count + 1) / 2) :
    Fits allocation (output ++ bytes) (literal.drop count) := by
  obtain ⟨left, aligned, passed⟩ |
      ⟨last, letter, rest, left, ends, cut, dropped, aligned, passed⟩ :=
    counted.drop_cases within
  · exact .aligned aligned (by rw [List.length_append]; omega)
  · have reserve := fewer last ends cut
    rw [dropped]
    exact .inside aligned (by rw [List.length_append]; omega)

theorem literalUnit_escape {letter : UInt8} (different : letter ≠ 117)
    (literal : Bytes) :
    literalUnit (92 :: letter :: literal) =
      (simpleEscape letter).map fun byte => ([byte], 2) :=
  if_neg different

theorem literalUnit_plain {byte : UInt8} (noBackslash : byte ≠ 92)
    (literal : Bytes) :
    literalUnit (byte :: literal) = some ([byte], 1) := by
  rw [literalUnit]
  · exact fun same => (noBackslash same).elim
  · exact fun _ _ same => (noBackslash same).elim

/-- Copying a unit keeps within the allocation. -/
theorem Fits.step {allocation length : Nat} {output bytes literal : Bytes}
    (fits : Fits allocation output literal)
    (found : literalUnit literal = some (bytes, length)) :
    0 < length ∧ Fits allocation (output ++ bytes) (literal.drop length) := by
  fun_cases literalUnit literal with
  | case1 => cases found
  | case2 =>
      obtain ⟨rfl, rfl⟩ := Prod.mk.injEq .. ▸ Option.some.inj found
      refine ⟨by decide, ?_⟩
      cases fits with
      | aligned counted bound =>
          cases counted with
          | plain _ noBackslash _ => exact (noBackslash rfl).elim
      | inside counted bound =>
          refine .aligned .nil ?_
          rw [List.length_append, List.length_singleton]
          omega
  | case3 literal =>
      obtain ⟨within, shape⟩ := length_utf16Unit found
      refine ⟨by omega, ?_⟩
      cases fits with
      | aligned counted bound =>
          refine .of_aligned counted bound within (by omega) ?_
          intro last ends cut
          obtain ⟨rfl, _, single⟩ | ⟨rfl, few⟩ := shape
          · obtain rfl : last = 5 := by omega
            have := single cut
            omega
          · omega
      | inside counted bound =>
          obtain ⟨length, rfl⟩ :=
            Nat.exists_eq_add_one_of_ne_zero (show length ≠ 0 by omega)
          have few : bytes.length ≤ (length + 1) / 2 := by omega
          have dropped := Fits.of_inside counted bound
            (Nat.le_of_succ_le_succ within) few
          exact dropped
  | case4 letter literal different =>
      rw [literalUnit_escape different] at found
      obtain ⟨byte, _, same⟩ := Option.map_eq_some_iff.mp found
      obtain ⟨rfl, rfl⟩ := Prod.mk.injEq .. ▸ same
      refine ⟨by decide, ?_⟩
      cases fits with
      | aligned counted bound =>
          cases counted with
          | plain _ noBackslash _ => exact (noBackslash rfl).elim
          | escape _ counted =>
              refine .aligned counted ?_
              rw [List.length_append, List.length_singleton]
              omega
      | inside counted bound =>
          have within : 1 ≤ (letter :: literal).length := by simp
          have few : [byte].length ≤ (1 + 1) / 2 := by simp
          have dropped := Fits.of_inside counted bound within few
          exact dropped
  | case5 byte literal alone companion =>
      have noBackslash : byte ≠ 92 := by
        intro same
        cases literal with
        | nil => exact alone same rfl
        | cons letter literal => exact companion _ _ same rfl
      rw [literalUnit_plain noBackslash] at found
      obtain ⟨rfl, rfl⟩ := Prod.mk.injEq .. ▸ Option.some.inj found
      refine ⟨by decide, ?_⟩
      cases fits with
      | aligned counted bound =>
          cases counted with
          | plain _ _ counted =>
              refine .aligned counted ?_
              rw [List.length_append, List.length_singleton]
              omega
          | escape _ _ => exact (noBackslash rfl).elim
      | inside counted bound =>
          refine .aligned counted ?_
          rw [List.length_append, List.length_singleton]
          exact bound

/-! ## The copy -/

theorem Decodes.nil_iff {output : Bytes} : Decodes [] output ↔ output = [] := by
  constructor
  · intro decodes
    cases decodes with
    | nil => rfl
    | unit found _ => cases found
  · rintro rfl
    exact .nil

theorem Decodes.unique {literal left right : Bytes}
    (first : Decodes literal left) (second : Decodes literal right) :
    left = right := by
  induction first generalizing right with
  | nil => exact (Decodes.nil_iff.mp second).symm
  | unit found _ induction =>
      cases second with
      | nil => cases found
      | unit again rest =>
          obtain ⟨rfl, rfl⟩ :=
            Prod.mk.injEq .. ▸ Option.some.inj (found.symm.trans again)
          rw [induction rest]

theorem reads_storeOutput {room : Nat} {output bytes : Bytes}
    (fits : output.length + bytes.length ≤ room) (text : Bytes) :
    Reads (storeOutput room output bytes) text (output ++ bytes) text := by
  rw [storeOutput, if_pos fits]
  exact .pure _ _

/-- Behind the closing quote, or at it, the copy is complete. -/
theorem reads_copyLiteral_done {text : Bytes} {behind room turns : Nat}
    (passed : text.length + 1 ≤ behind) (output : Bytes) :
    Reads (copyLiteral behind room (turns + 1) output) text output text := by
  have reads := reads_bytesBefore text behind
  rw [Nat.sub_eq_zero_of_le passed] at reads
  exact reads.bind (.pure output text)

/-- Only a lone backslash takes a byte from behind the literal. -/
theorem literalUnit_within {literal bytes : Bytes} {length : Nat}
    (found : literalUnit literal = some (bytes, length)) :
    length ≤ literal.length ∨ literal = [92] ∧ length = 2 := by
  fun_cases literalUnit literal with
  | case1 => cases found
  | case2 =>
      obtain ⟨_, rfl⟩ := Prod.mk.injEq .. ▸ Option.some.inj found
      exact .inr ⟨rfl, rfl⟩
  | case3 literal => exact .inl (length_utf16Unit found).1
  | case4 letter literal different =>
      rw [literalUnit_escape different] at found
      obtain ⟨byte, _, same⟩ := Option.map_eq_some_iff.mp found
      obtain ⟨_, rfl⟩ := Prod.mk.injEq .. ▸ same
      exact .inl (by simp)
  | case5 byte literal alone companion =>
      rw [literalUnit] at found
      · obtain ⟨_, rfl⟩ := Prod.mk.injEq .. ▸ Option.some.inj found
        exact .inl (by simp)
      · exact alone
      · exact companion

/-- The reader copies a literal behind some output, within the allocation and
up to the closing quote or past it, or refuses one that stands for nothing. -/
def Copies (allocation : Nat) (reader : Reader Bytes)
    (output literal rest : Bytes) : Prop :=
  Rejects reader (literal ++ 34 :: rest) ∧
      (∀ decoded, ¬ Decodes literal decoded) ∨
    ∃ decoded behind, Decodes literal decoded ∧
      (output ++ decoded).length ≤ allocation ∧ rest <:+ behind ∧
      Reads reader (literal ++ 34 :: rest) (output ++ decoded) behind

theorem Decodes.of_cons {byte : UInt8} {literal bytes decoded : Bytes}
    {length : Nat}
    (found : literalUnit (byte :: literal) = some (bytes, length))
    (decodes : Decodes (byte :: literal) decoded) :
    ∃ output, Decodes ((byte :: literal).drop length) output ∧
      decoded = bytes ++ output := by
  cases decodes with
  | unit again rest =>
      obtain ⟨rfl, rfl⟩ :=
        Prod.mk.injEq .. ▸ Option.some.inj (found.symm.trans again)
      exact ⟨_, rest, rfl⟩

theorem not_decodes_of_none {byte : UInt8} {literal : Bytes}
    (none : literalUnit (byte :: literal) = none) (decoded : Bytes) :
    ¬ Decodes (byte :: literal) decoded := by
  intro decodes
  cases decodes with
  | unit found _ => cases none.symm.trans found

theorem Copies.after {α : Type} {first : Reader α}
    {next : α → Reader Bytes} {value : α} {allocation : Nat}
    {output literal rest : Bytes}
    (reads : Reads first (literal ++ 34 :: rest) value (literal ++ 34 :: rest))
    (copies : Copies allocation (next value) output literal rest) :
    Copies allocation (first >>= next) output literal rest := by
  obtain ⟨rejects, none⟩ | ⟨decoded, behind, decodes, bound, suffix, copied⟩ :=
    copies
  · exact .inl ⟨reads.bind_rejects rejects, none⟩
  · exact .inr ⟨decoded, behind, decodes, bound, suffix, reads.bind copied⟩

section Turns

variable {allocation turns length : Nat} {byte : UInt8}
  {output literal bytes : Bytes}

/-- What a turn does once it has found what the front of the literal stands
for, given that the later turns copy. -/
theorem copies_of_unit
    (fits : Fits allocation output (byte :: literal))
    (found : literalUnit (byte :: literal) = some (bytes, length))
    (enough : literal.length < turns) (rest : Bytes)
    (later : ∀ {output literal}, Fits allocation output literal →
      literal.length < turns →
      Copies allocation
        (copyLiteral (rest.length + 2) (allocation + 1) turns output)
        output literal rest) :
    Copies allocation
      (do
        let output ← storeOutput (allocation + 1) output bytes
        advance length
        copyLiteral (rest.length + 2) (allocation + 1) turns output)
      output (byte :: literal) rest := by
  obtain ⟨positive, next⟩ := fits.step found
  have room := next.length_le
  rw [List.length_append] at room
  have stored := reads_storeOutput (Nat.le_succ_of_le room)
    (byte :: literal ++ 34 :: rest)
  obtain within | ⟨alone, rfl⟩ := literalUnit_within found
  · have split := List.take_append_drop length (byte :: literal)
    have moved : Reads (advance length) (byte :: literal ++ 34 :: rest) ⟨⟩
        ((byte :: literal).drop length ++ 34 :: rest) := by
      have reads := reads_advance ((byte :: literal).take length)
        ((byte :: literal).drop length ++ 34 :: rest)
      rwa [List.length_take_of_le within, ← List.append_assoc, split] at reads
    have shorter : ((byte :: literal).drop length).length < turns := by
      rw [List.length_drop, List.length_cons]
      omega
    obtain ⟨rejects, none⟩ | ⟨decoded, behind, decodes, bound, suffix, reads⟩ :=
      later next shorter
    · refine .inl ⟨stored.bind_rejects (moved.bind_rejects rejects), ?_⟩
      intro decoded decodes
      obtain ⟨tail, decodes, _⟩ := decodes.of_cons found
      exact none tail decodes
    · refine .inr ⟨bytes ++ decoded, behind, .unit found decodes, ?_, suffix,
        ?_⟩
      · rwa [← List.append_assoc]
      · rw [← List.append_assoc]
        exact stored.bind (moved.bind reads)
  · obtain ⟨rfl, rfl⟩ := List.cons.injEq .. ▸ alone
    obtain ⟨turns, rfl⟩ :=
      Nat.exists_eq_add_one_of_ne_zero (Nat.ne_zero_of_lt enough)
    have moved := reads_advance [92, 34] rest
    have done : Reads
        (copyLiteral (rest.length + 2) (allocation + 1) (turns + 1)
          (output ++ bytes)) rest (output ++ bytes) rest :=
      reads_copyLiteral_done (by omega) _
    refine .inr ⟨bytes ++ [], rest, .unit found .nil, ?_, List.suffix_refl rest,
      ?_⟩
    · rw [List.append_nil, List.length_append]
      exact room
    · rw [List.append_nil]
      exact stored.bind (moved.bind done)

theorem copies_copyLiteral (fits : Fits allocation output literal)
    (enough : literal.length < turns) (rest : Bytes) :
    Copies allocation
      (copyLiteral (rest.length + 2) (allocation + 1) turns output)
      output literal rest := by
  induction turns generalizing output literal with
  | zero => cases enough
  | succ turns induction =>
      have left := reads_bytesBefore_literal literal rest
      cases literal with
      | nil =>
          refine .inr ⟨[], 34 :: rest, .nil, ?_, List.suffix_cons 34 rest, ?_⟩
          · rw [List.append_nil]
            exact fits.length_le
          · rw [List.append_nil]
            exact reads_copyLiteral_done (by simp) output
      | cons byte literal =>
          have shorter : literal.length < turns := Nat.lt_of_succ_lt_succ enough
          have first : Reads (peek 0) (byte :: literal ++ 34 :: rest) byte
              (byte :: literal ++ 34 :: rest) := reads_peek rfl
          refine .after left ?_
          have nonempty : ¬ (byte :: literal).length = 0 := by simp
          rw [if_neg nonempty]
          refine .after first ?_
          by_cases backslash : byte = 92
          · subst backslash
            rw [if_pos rfl]
            have answers := answers_escapeSequence literal rest
            cases found : literalUnit (92 :: literal) with
            | none =>
                rw [found] at answers
                exact .inl ⟨answers.bind _, not_decodes_of_none found⟩
            | some unit =>
                rw [found] at answers
                exact .after answers
                  (copies_of_unit fits found shorter rest induction)
          · rw [if_neg backslash]
            exact copies_of_unit fits (literalUnit_plain backslash literal)
              shorter rest induction

end Turns

/-! ## `parse_string` -/

theorem parseString_literal {units : Nat} {literal : Bytes}
    (counted : Literal units literal) (rest : Bytes) :
    Rejects parseString (34 :: (literal ++ 34 :: rest)) ∧
        (∀ decoded, ¬ Decodes literal decoded) ∨
      ∃ decoded, Decodes literal decoded ∧
        Reads parseString (34 :: (literal ++ 34 :: rest)) decoded rest := by
  have bound := counted.le_length
  have quote : Reads (peek 0) (34 :: (literal ++ 34 :: rest)) 34 _ :=
    reads_peek rfl
  have ahead := reads_remaining (34 :: (literal ++ 34 :: rest))
  have opened := reads_advance_one 34 (literal ++ 34 :: rest)
  have scanned : closingQuote
      (34 :: (literal ++ 34 :: rest) ++ [0]).tail =
        some (literal.length, literal.length - units) := by
    have whole := closingQuote_append counted (rest ++ [0])
    rwa [← List.cons_append, ← List.append_assoc] at whole
  have length : (34 :: (literal ++ 34 :: rest) ++ [0]).length =
      literal.length + rest.length + 3 := by
    simp only [List.length_append, List.length_cons, List.length_nil]
    omega
  have allocation : literal.length + 1 - (literal.length - units) =
      units + 1 := by
    omega
  have behind : literal.length + rest.length + 3 - (literal.length + 1) =
      rest.length + 2 := by
    omega
  have fits : Fits (units + 1) [] literal := by
    refine .aligned counted ?_
    rw [List.length_nil]
    omega
  have turns : literal.length < literal.length + rest.length + 3 := by omega
  have copies := copies_copyLiteral fits turns rest
  unfold parseString
  obtain ⟨rejects, none⟩ | ⟨decoded, left, decodes, stored, suffix, reads⟩ :=
    copies
  · refine .inl ⟨?_, none⟩
    refine quote.bind_rejects ?_
    rw [if_neg (by decide)]
    refine ahead.bind_rejects (opened.bind_rejects ?_)
    rw [scanned, length]
    dsimp only
    rw [allocation, behind]
    exact rejects.bind _
  · refine .inr ⟨decoded, decodes, ?_⟩
    refine quote.bind ?_
    rw [if_neg (by decide)]
    refine ahead.bind (opened.bind ?_)
    rw [scanned, length]
    dsimp only
    rw [allocation, behind]
    obtain ⟨front, rfl⟩ := suffix
    rw [List.nil_append] at reads stored
    refine reads.bind ((reads_storeOutput ?_ _).bind ?_)
    · rw [List.length_singleton]
      omega
    · exact (reads_seek front rest).bind (.pure decoded rest)

theorem rejects_advance_throw {α : Type} (text : Bytes) :
    Rejects (do advance 1; throw .rejected : Reader α) text :=
  fun _ _ => ⟨_, rfl⟩

/-- A text whose literal does not end is refused. -/
theorem rejects_parseString_of_open {text : Bytes}
    (unclosed : closingQuote (text ++ [0]) = none) :
    Rejects parseString (34 :: text) := by
  have quote : Reads (peek 0) (34 :: text) 34 (34 :: text) := reads_peek rfl
  have opened := reads_advance_one 34 text
  unfold parseString
  refine quote.bind_rejects ?_
  rw [if_neg (by decide)]
  refine (reads_remaining _).bind_rejects (opened.bind_rejects ?_)
  rw [List.cons_append, List.tail_cons, unclosed]
  exact Rejects.throw text

/-- A literal that is closed is closed before the NUL. -/
theorem exists_literal_append {text : Bytes}
    (closed : closingQuote (text ++ [0]) ≠ none) :
    ∃ units literal rest, text = literal ++ 34 :: rest ∧
      Literal units literal := by
  obtain ⟨units, literal, rest, whole, counted⟩ :=
    exists_literal_of_closingQuote (Option.isSome_iff_ne_none.mpr closed)
  obtain rfl | ⟨rest, nul, rfl⟩ := List.eq_nil_or_concat rest
  · have last := List.append_inj_right' whole rfl
    cases last
  · rw [List.concat_eq_append, ← List.cons_append, ← List.append_assoc] at whole
    exact ⟨units, literal, rest, List.append_inj_left' whole rfl, counted⟩

theorem recognises_parseString :
    Recognises parseString fun piece output _ => StringText piece output where
  sound text := by
    obtain ⟨byte, head, peeked⟩ := reads_peek_zero text
    by_cases quote : byte = 34
    · subst quote
      cases text with
      | nil => cases head
      | cons byte text =>
          obtain rfl : byte = 34 := head
          by_cases closed : closingQuote (text ++ [0]) = none
          · exact .inl (rejects_parseString_of_open closed)
          · obtain ⟨units, literal, rest, rfl, counted⟩ :=
              exists_literal_append closed
            obtain ⟨rejects, _⟩ | ⟨decoded, decodes, reads⟩ :=
              parseString_literal counted rest
            · exact .inl rejects
            · refine .inr ⟨34 :: (literal ++ [34]), decoded, rest, ?_,
                .quoted counted decodes, reads⟩
              simp
    · refine .inl (peeked.bind_rejects ?_)
      rw [if_pos quote]
      exact rejects_advance_throw text
  complete := by
    rintro _ output rest ⟨counted, decodes⟩
    obtain ⟨_, none⟩ | ⟨decoded, again, reads⟩ :=
      parseString_literal counted rest
    · exact (none _ decodes).elim
    · rw [decodes.unique again]
      simpa using reads

end ShelterServer
