import ShelterServer.JsonRecognition

/-!
# The language of `cJSON_Parse`

Whatever text `cJSON_Parse` is given, it neither leaves its buffers nor runs
on, and it accepts exactly the texts of the grammar.
-/

namespace ShelterServer

open Foundations Reader

/-! ## Texts -/

/-- The text behind a byte order mark, which a shorter text cannot have. -/
def withoutBom (text : Bytes) : Bytes :=
  if 4 ≤ text.length ∧ [0xEF, 0xBB, 0xBF] <+: text then text.drop 3 else text

/-- Behind a byte order mark and blanks the text begins with a value; of a
number it is as much as `strtod` finds. -/
inductive BeginsWithValue (nestingLimit : Nat) (text : Bytes) (json : Json)
    (rest : Bytes) : Prop
  | intro {space piece : Bytes} (whole : withoutBom text = space ++ (piece ++ rest))
      (blank : Blank space) (value : ValueText nestingLimit piece json)
      (delimited : Delimited piece rest)

/-- The text is a value with blanks around it, behind a byte order mark. -/
inductive WholeText (nestingLimit : Nat) (text : Bytes) (json : Json) : Prop
  | intro {space piece after : Bytes}
      (whole : withoutBom text = space ++ (piece ++ after))
      (blankBefore : Blank space) (value : ValueText nestingLimit piece json)
      (blankAfter : Blank after)

theorem reads_skipUtf8Bom (text : Bytes) :
    Reads skipUtf8Bom text ⟨⟩ (withoutBom text) := by
  have long : (text ++ [0])[4]?.isSome = true ↔ 4 ≤ text.length := by
    rw [isSome_getElem?, List.length_append, List.length_singleton]
    omega
  unfold skipUtf8Bom withoutBom
  refine (reads_look text 4).bind ((reads_startsWith (by decide) text).bind ?_)
  by_cases mark : 4 ≤ text.length ∧ [0xEF, 0xBB, 0xBF] <+: text
  · rw [if_pos mark, if_pos ⟨long.mpr mark.1, decide_eq_true mark.2⟩]
    obtain ⟨_, rest, rfl⟩ := mark
    exact reads_advance [0xEF, 0xBB, 0xBF] rest
  · rw [if_neg mark, if_neg (by simpa [long] using mark)]
    exact .pure _ text

section Texts

variable {nestingLimit : Nat} {text rest : Bytes} {json : Json}

theorem parseRoot_sound (nestingLimit : Nat) (text : Bytes) :
    Rejects (parseRoot nestingLimit) text ∨
      ∃ json rest, BeginsWithValue nestingLimit text json rest ∧
        Reads (parseRoot nestingLimit) text json rest := by
  have marked := reads_skipUtf8Bom text
  obtain ⟨space, front, whole, blank, stop⟩ :=
    exists_blank_append (withoutBom text)
  rw [whole] at marked
  have skipped := reads_bufferSkipWhitespace blank stop
  obtain rejects | ⟨piece, json, rest, rfl, ⟨value, delimited⟩, reads⟩ :=
    (parsesValues_parseValue nestingLimit).recognises.sound front
  · exact .inl (marked.bind_rejects (skipped.bind_rejects rejects))
  · exact .inr ⟨json, rest, .intro whole blank value delimited,
      marked.bind (skipped.bind reads)⟩

theorem parseRoot_complete
    (begins : BeginsWithValue nestingLimit text json rest) :
    Reads (parseRoot nestingLimit) text json rest := by
  obtain ⟨whole, blank, value, delimited⟩ := begins
  have marked := reads_skipUtf8Bom text
  rw [whole] at marked
  obtain ⟨byte, bytes, rfl, first⟩ := value.begins
  have stop : NoBlank (byte :: bytes ++ rest) := by
    intro other head
    obtain rfl : byte = other := Option.some.inj head
    exact (isValueByte_cases first).1
  have skipped := reads_bufferSkipWhitespace blank stop
  have reads := (parsesValues_parseValue nestingLimit).recognises.complete
    ⟨value, delimited⟩
  exact marked.bind (skipped.bind reads)

theorem reads_endOfText (json : Json) :
    Reads (do if (← look 0) = some 0 then pure json else throw .rejected) []
      json [] := by
  have looked : Reads (look 0) [] (some 0) [] := reads_look [] 0
  refine looked.bind ?_
  rw [if_pos rfl]
  exact .pure json []

/-- Nothing but blanks is left. -/
theorem parseText_strict_sound (nestingLimit : Nat) (text : Bytes) :
    Rejects (parseText nestingLimit true) text ∨
      ∃ json, WholeText nestingLimit text json ∧
        Reads (parseText nestingLimit true) text json [] := by
  unfold parseText
  obtain rejects | ⟨json, behind, ⟨whole, blank, value, _⟩, reads⟩ :=
    parseRoot_sound nestingLimit text
  · exact .inl (rejects.bind _)
  obtain ⟨after, rest, rfl, blankAfter, stop⟩ := exists_blank_append behind
  have skipped := reads_bufferSkipWhitespace blankAfter stop
  cases rest with
  | nil =>
      rw [List.append_nil] at whole
      refine .inr ⟨json, .intro whole blank value blankAfter, reads.bind ?_⟩
      rw [if_pos rfl]
      exact skipped.bind (reads_endOfText json)
  | cons byte rest =>
      refine .inl (reads.bind_rejects ?_)
      rw [if_pos rfl]
      refine skipped.bind_rejects ((reads_look _ 0).bind_rejects ?_)
      have other : ¬ (byte :: rest ++ [0])[0]? = some 0 := by
        intro nul
        obtain rfl : byte = 0 := Option.some.inj nul
        cases stop 0 rfl
      rw [if_neg other]
      exact Rejects.throw _

theorem parseText_strict_complete (whole : WholeText nestingLimit text json) :
    Reads (parseText nestingLimit true) text json [] := by
  obtain ⟨whole, blank, value, blankAfter⟩ := whole
  have stop := noNumberByte_of_blank blankAfter
  have reads := parseRoot_complete (.intro whole blank value
    (value.delimited stop))
  have noneLeft : NoBlank [] := fun _ head => by cases head
  have skipped := reads_bufferSkipWhitespace blankAfter noneLeft
  rw [List.append_nil] at skipped
  refine reads.bind ?_
  rw [if_pos rfl]
  exact skipped.bind (reads_endOfText json)

end Texts

/-! ## `cJSON_Parse` -/

section Parse

variable {nestingLimit : Nat} {requireNullTerminated : Bool} {value : Bytes}
  {json : Json}

theorem cJSONParseWithOpts_of_reads {rest : Bytes}
    (reads : Reads (parseText nestingLimit requireNullTerminated)
      (untilNul value) json rest) :
    cJSONParseWithOpts nestingLimit requireNullTerminated value = .ok json := by
  have ahead := Cursor.ahead_start (zero_notMem_untilNul value)
  rw [cJSONParseWithOpts, reads.run _ ahead]

theorem cJSONParseWithOpts_of_rejects
    (rejects : Rejects (parseText nestingLimit requireNullTerminated)
      (untilNul value)) :
    cJSONParseWithOpts nestingLimit requireNullTerminated value =
      .error .rejected := by
  have ahead := Cursor.ahead_start (zero_notMem_untilNul value)
  obtain ⟨stopped, result⟩ := rejects _ ahead
  rw [cJSONParseWithOpts, result]

/-- Every C string is parsed or refused: no access leaves its array or that of
a string that is parsed, and no loop goes on.  That is about these arrays only:
the allocations succeed, and the links between items and `cJSON_Delete` after a
refusal are not part of it. -/
theorem cJSONParseWithOpts_safe (nestingLimit : Nat)
    (requireNullTerminated : Bool) (value : Bytes) :
    (∃ json, cJSONParseWithOpts nestingLimit requireNullTerminated value =
        .ok json) ∨
      cJSONParseWithOpts nestingLimit requireNullTerminated value =
        .error .rejected := by
  cases requireNullTerminated with
  | true =>
      obtain rejects | ⟨json, _, reads⟩ :=
        parseText_strict_sound nestingLimit (untilNul value)
      · exact .inr (cJSONParseWithOpts_of_rejects rejects)
      · exact .inl ⟨json, cJSONParseWithOpts_of_reads reads⟩
  | false =>
      obtain rejects | ⟨json, rest, _, reads⟩ :=
        parseRoot_sound nestingLimit (untilNul value)
      · exact .inr (cJSONParseWithOpts_of_rejects (rejects.bind _))
      · exact .inl ⟨json, cJSONParseWithOpts_of_reads
          (reads.bind (.pure json rest))⟩

theorem cJSONParse_of_begins {rest : Bytes}
    (begins : BeginsWithValue nestingLimit (untilNul value) json rest) :
    cJSONParse nestingLimit value = .ok json :=
  cJSONParseWithOpts_of_reads
    ((parseRoot_complete begins).bind (.pure json rest))

theorem begins_of_cJSONParse (parsed : cJSONParse nestingLimit value = .ok json) :
    ∃ rest, BeginsWithValue nestingLimit (untilNul value) json rest := by
  obtain rejects | ⟨other, rest, begins, _⟩ :=
    parseRoot_sound nestingLimit (untilNul value)
  · have refused : cJSONParse nestingLimit value = .error .rejected :=
      cJSONParseWithOpts_of_rejects (rejects.bind _)
    cases parsed.symm.trans refused
  · obtain rfl := Except.ok.inj
      (parsed.symm.trans (cJSONParse_of_begins begins))
    exact ⟨rest, begins⟩

theorem whole_of_cJSONParseWithOpts
    (parsed : cJSONParseWithOpts nestingLimit true value = .ok json) :
    WholeText nestingLimit (untilNul value) json := by
  obtain rejects | ⟨other, whole, reads⟩ :=
    parseText_strict_sound nestingLimit (untilNul value)
  · cases parsed.symm.trans (cJSONParseWithOpts_of_rejects rejects)
  · obtain rfl := Except.ok.inj
      (parsed.symm.trans (cJSONParseWithOpts_of_reads reads))
    exact whole

/-- The texts that `cJSON_Parse` accepts, and those that are accepted when the
whole text has to be a value. -/
theorem cJSONParse_language (nestingLimit : Nat) (value : Bytes) (json : Json) :
    (cJSONParse nestingLimit value = .ok json ↔
      ∃ rest, BeginsWithValue nestingLimit (untilNul value) json rest) ∧
    (cJSONParseWithOpts nestingLimit true value = .ok json ↔
      WholeText nestingLimit (untilNul value) json) :=
  ⟨⟨begins_of_cJSONParse, fun ⟨_, begins⟩ => cJSONParse_of_begins begins⟩,
    whole_of_cJSONParseWithOpts, fun whole =>
      cJSONParseWithOpts_of_reads (parseText_strict_complete whole)⟩

/-- `Json.parse` in terms of the grammar. -/
theorem Json.parse_eq_some_iff :
    Json.parse nestingLimit value = some json ↔
      ∃ rest, BeginsWithValue nestingLimit (untilNul value) json rest := by
  constructor
  · intro parsed
    apply begins_of_cJSONParse
    rw [Json.parse] at parsed
    cases found : cJSONParse nestingLimit value with
    | error fault => simp [found, Except.toOption] at parsed
    | ok other =>
        rw [found] at parsed
        rw [Option.some.inj parsed]
  · rintro ⟨_, begins⟩
    rw [Json.parse, cJSONParse_of_begins begins]
    rfl

end Parse

end ShelterServer
