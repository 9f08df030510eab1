import ShelterServer.Foundations.TextInput
import ShelterServer.ReceiveBuffers

/-!
# The identity in the os-release file

The clients look for the first piece of a line that begins with the field of
the identity and cut its value out with `strtok`, in an array of the function
that looks for it.  The pointer that it returns outlives this array, so the
caller reads what is left of it.  Which value is found is known for every file:
the first line with a value is found as it stands exactly if it is read in one
piece, holds no further equals sign, no piece of an earlier line begins with
the field, and the value is still left in the array when it is read.
-/

namespace ShelterServer

open Foundations

/-- The field of the identity, of `OS_RELEASE_ID_FIELD` bytes. -/
def idField : Bytes := ascii "ID="

/-- `extract_value`: where the value stands in the line, or `none` for `NULL`,
and what `strtok` made of the array.  A token that is `NULL` makes the last
call go on where the one before it stopped. -/
def extractValue (line : Bytes) : Option Nat × Bytes :=
  let key := strtokAt (ascii "=") line 0
  let token := strtokAt (ascii "=") key.2.1 key.2.2
  let value := strtokAt (ascii "\n") token.2.1 (token.1.getD token.2.2)
  (value.1, value.2.1)

/-- What `fgets` makes of the array. -/
def storeLine (line piece : Bytes) : Bytes :=
  piece ++ 0 :: line.drop (piece.length + 1)

/-- What `get_os_id` leaves: the pointer that it returns, as an offset in its
array `line`, and the contents of this array, which is dead from then on. -/
structure OsId where
  pointer : Option Nat
  line : Bytes

/-- The loop of `get_os_id` over the results of `fgets`. -/
def searchOsId : Bytes → List Bytes → OsId
  | line, [] => ⟨none, line⟩
  | line, piece :: pieces =>
      let read := storeLine line piece
      if idField.isPrefixOf read = true then
        ⟨(extractValue read).1, (extractValue read).2⟩
      else searchOsId read pieces

/-- `get_os_id` for the content of its file, which has no NUL bytes, in an
array that holds what the stack held. -/
def getOsId (stack content : Bytes) : OsId :=
  searchOsId stack (fgetsAll (bufferSize - 1) content)

/-- The line at which the loop of `get_os_id` stops, and the number of bytes
read before it. -/
def findIdLine (content : Bytes) : Option (Nat × Bytes) :=
  findPiece idField.isPrefixOf 0 (fgetsAll (bufferSize - 1) content)

/-- The text that `extract_value` cuts out of a line. -/
def extractedText (line : Bytes) : Option Bytes :=
  let key := strtok (ascii "=") line
  let token := strtok (ascii "=") key.2
  match token.1 with
  | some text => (strtok (ascii "\n") text).1
  | none => (strtok (ascii "\n") token.2).1

/-! ## Files with an identity -/

/-- A file with a line that gives the identity a value: the lines before the
first such line, the value, and what follows it, if anything, on further
lines. -/
structure OsRelease where
  earlier : List Bytes
  value : Bytes
  later : Bytes
  earlierLine : ∀ line ∈ earlier, 10 ∉ line
  earlierOther : ∀ line ∈ earlier, ∀ text, line = idField ++ text → text = []
  earlierNoNul : ∀ line ∈ earlier, 0 ∉ line
  valueLine : 10 ∉ value
  valueNoNul : 0 ∉ value
  laterNoNul : 0 ∉ later
  valueNonempty : value ≠ []
  laterLines : ∀ byte ∈ later.head?, byte = 10

namespace OsRelease

/-- The text before the line of the identity. -/
def before (file : OsRelease) : Bytes :=
  file.earlier.flatMap (· ++ [10])

def content (file : OsRelease) : Bytes :=
  file.before ++ (idField ++ file.value ++ file.later)

/-- The first line that gives the identity a value is the one that is found,
and its value is returned as it stands: the pointer leads to it in the array of
`get_os_id`, and to the same in what is left of the array when it is read. -/
structure Found (file : OsRelease) (stack left : Bytes) : Prop where
  value : ∃ pointer, (getOsId stack file.content).pointer = some pointer ∧
    StandsAt (getOsId stack file.content).line pointer file.value ∧
    StandsAt left pointer file.value
  place : (findIdLine file.content).map Prod.fst = some file.before.length

/-- The files that `get_os_id` foresees, if nothing has overwritten the value
in its array when it is read. -/
structure Foreseen (file : OsRelease) (left : Bytes) : Prop where
  unstarted : ∀ line ∈ file.earlier,
    ¬ StartsPiece (bufferSize - 1) idField line
  plain : 61 ∉ file.value
  short : file.value.length ≤ 1020
  kept : StandsAt left idField.length file.value

end OsRelease

/-- Every file with a line that gives the identity a value is of this form. -/
theorem OsRelease.exists_content {content : Bytes} (noNul : 0 ∉ content)
    (identified : ∃ line ∈ content.splitOn 10,
      ∃ text, text ≠ [] ∧ line = idField ++ text) :
    ∃ file : OsRelease, file.content = content := by
  have whole : List.intercalate [10] (content.splitOn 10) = content :=
    List.intercalate_splitOn 10
  have lines : ∀ line ∈ content.splitOn 10, 10 ∉ line :=
    fun line member => notMem_of_mem_splitOn member
  generalize content.splitOn 10 = all at identified whole lines
  obtain ⟨earlier, line, later, rfl, ⟨value, valueNonempty, rfl⟩, others⟩ :=
    exists_first identified
  rw [intercalate_append_cons] at whole
  rw [← whole] at noNul
  simp only [List.mem_append, not_or] at noNul
  refine ⟨⟨earlier, value, later.flatMap (10 :: ·), ?_, ?_, ?_, ?_,
    noNul.2.1.2, noNul.2.2, valueNonempty, ?_⟩, whole⟩
  · exact fun line member => lines line (List.mem_append_left _ member)
  · intro line member text same
    by_contra nonempty
    exact others line member ⟨text, nonempty, same⟩
  · intro line member zero
    exact noNul.1 (List.mem_flatMap.mpr
      ⟨line, member, List.mem_append_left _ zero⟩)
  · have absent := lines (idField ++ value) (by simp)
    exact fun member => absent (List.mem_append_right _ member)
  · cases later <;> simp

/-! ## The value -/

theorem extractedText_idField (tail : Bytes) :
    extractedText (idField ++ tail) =
      (strtok (ascii "=") tail).1.bind fun text =>
        (strtok (ascii "\n") text).1 := by
  have key : strtok (ascii "=") (idField ++ tail) =
      (some (ascii "ID"), tail) :=
    @strtok_token (ascii "ID") 61 (by decide) (by decide) (61 :: tail) (by simp)
  simp only [extractedText, key]
  cases found : (strtok (ascii "=") tail).1 with
  | some text => rfl
  | none => rw [strtok_snd_of_none found]; rfl

/-- A value without an equals sign is cut out whole. -/
theorem extractedText_of_plain {value ends : Bytes} (nonempty : value ≠ [])
    (plain : 61 ∉ value) (oneLine : 10 ∉ value)
    (endsLine : ends ⊆ [10]) :
    extractedText (idField ++ (value ++ ends)) = some value := by
  have noEquals : 61 ∉ ends := fun member =>
    absurd (endsLine member) (by decide)
  have token : strtok (ascii "=") (value ++ ends) =
      (some (value ++ ends), []) := by
    have cut := @strtok_token (value ++ ends) 61
      (List.append_ne_nil_of_left_ne_nil nonempty ends)
      (by simp [plain, noEquals]) [] (by simp)
    rwa [List.append_nil] at cut
  have line : strtok (ascii "\n") (value ++ ends) =
      (some value, ends.drop 1) := by
    refine strtok_token nonempty oneLine fun byte head => ?_
    exact List.mem_singleton.mp (endsLine (List.mem_of_mem_head? head))
  rw [extractedText_idField, token, Option.bind_some, line]

/-- No value holds an equals sign or is longer than what it is cut from. -/
theorem extractedText_bounds {tail value : Bytes}
    (extracted : extractedText (idField ++ tail) = some value) :
    61 ∉ value ∧ value.length ≤ tail.length := by
  rw [extractedText_idField] at extracted
  obtain ⟨text, token, cut⟩ := Option.bind_eq_some_iff.mp extracted
  have inside := strtok_isInfix cut
  constructor
  · intro member
    exact notMem_of_strtok token (show 61 ∈ ascii "=" by decide)
      (inside.subset member)
  · exact (inside.trans (strtok_isInfix token)).length_le

namespace OsRelease

variable {file : OsRelease}

theorem idField_value_line (file : OsRelease) :
    10 ∉ idField ++ file.value := by
  rw [List.mem_append, not_or]
  exact ⟨by decide, file.valueLine⟩

/-- What `fgets` stores when it comes to the line of the identity. -/
def idPiece (file : OsRelease) : Bytes :=
  (fgets (bufferSize - 1) (idField ++ file.value ++ file.later)).1

/-- A value that fits is stored whole, of a longer one as much as fits. -/
theorem idPiece_cases (file : OsRelease) :
    (file.value.length ≤ 1020 ∧ ∃ ends, ends ⊆ [10] ∧
        file.idPiece = idField ++ (file.value ++ ends)) ∨
      (1020 < file.value.length ∧
        file.idPiece = idField ++ file.value.take 1020) := by
  have oneLine := file.idField_value_line
  have width : (idField ++ file.value).length = file.value.length + 3 := by
    rw [List.length_append, Nat.add_comm]
    rfl
  have room : bufferSize - 1 = 1023 := rfl
  rcases Nat.lt_or_ge file.value.length 1020 with short | long
  · refine Or.inl ⟨short.le, ?_⟩
    cases later : file.later with
    | nil =>
        refine ⟨[], by simp, ?_⟩
        rw [idPiece, later, List.append_nil,
          fgets_of_last oneLine (by omega), List.append_nil]
    | cons byte rest =>
        obtain rfl := file.laterLines byte (by rw [later]; rfl)
        refine ⟨[10], by simp, ?_⟩
        rw [idPiece, later, fgets_of_newline oneLine (by omega),
          List.append_assoc]
  · have stored : file.idPiece = idField ++ file.value.take 1020 := by
      rw [idPiece, fgets_of_long oneLine (by omega), room, List.take_append,
        List.take_of_length_le (by decide)]
      rfl
    rcases Nat.eq_or_lt_of_le long with exactly | longer
    · refine Or.inl ⟨exactly.ge, [], by simp, ?_⟩
      rw [stored, List.take_of_length_le exactly.ge, List.append_nil]
    · exact Or.inr ⟨longer, stored⟩

theorem extractedText_idPiece_iff (file : OsRelease) :
    extractedText file.idPiece = some file.value ↔
      61 ∉ file.value ∧ file.value.length ≤ 1020 := by
  obtain ⟨short, ends, endsLine, stored⟩ | ⟨long, stored⟩ :=
    file.idPiece_cases
  · rw [stored]
    constructor
    · intro extracted
      exact ⟨(extractedText_bounds extracted).1, short⟩
    · rintro ⟨plain, -⟩
      exact extractedText_of_plain file.valueNonempty plain file.valueLine
        endsLine
  · rw [stored]
    refine iff_of_false (fun extracted => ?_) (fun bounds => ?_)
    · have fits := (extractedText_bounds extracted).2
      rw [List.length_take] at fits
      omega
    · omega

/-! ## The line -/

theorem findPiece_idPiece (file : OsRelease) (offset : Nat) :
    findPiece idField.isPrefixOf offset (fgetsAll (bufferSize - 1)
        (idField ++ file.value ++ file.later)) =
      some (offset, file.idPiece) := by
  have more : 0 < bufferSize - 1 ∧
      idField ++ file.value ++ file.later ≠ [] := by
    refine ⟨by decide, ?_⟩
    rw [List.append_assoc]
    exact List.append_ne_nil_of_left_ne_nil (by decide) _
  have starts : idField <+: file.idPiece := by
    obtain ⟨-, ends, -, stored⟩ | ⟨-, stored⟩ := file.idPiece_cases
    · exact ⟨_, stored.symm⟩
    · exact ⟨_, stored.symm⟩
  rw [fgetsAll, dif_pos more, findPiece]
  exact if_pos (List.isPrefixOf_iff_prefix.mpr starts)

/-- The loop passes over the earlier lines exactly if no piece of them begins
with the field. -/
theorem findIdLine_cases (file : OsRelease) :
    ((∃ line ∈ file.earlier, StartsPiece (bufferSize - 1) idField line) ∧
        ∃ place piece, findIdLine file.content = some (place, piece) ∧
          place < file.before.length) ∨
      ((∀ line ∈ file.earlier, ¬ StartsPiece (bufferSize - 1) idField line) ∧
        findIdLine file.content =
          some (file.before.length, file.idPiece)) := by
  have cases := @findPiece_lines (bufferSize - 1) idField (by decide)
    (by decide) (by decide) file.earlier file.earlierLine 0
    (idField ++ file.value ++ file.later)
  rwa [findPiece_idPiece, Nat.zero_add] at cases

end OsRelease

/-! ## The pointer -/

/-- In memory, `extract_value` finds the text that it cuts out of the line. -/
theorem extractValue_spec {line text : Bytes} (stands : StandsAt line 0 text) :
    ((extractValue line).1 = none ∧ extractedText text = none) ∨
      ∃ pointer value, (extractValue line).1 = some pointer ∧
        extractedText text = some value ∧
        StandsAt (extractValue line).2 pointer value := by
  have last : ∀ {memory text : Bytes} {start : Nat},
      StandsAt memory start text →
      ((strtokAt (ascii "\n") memory start).1 = none ∧
          (strtok (ascii "\n") text).1 = none) ∨
        ∃ pointer value,
          (strtokAt (ascii "\n") memory start).1 = some pointer ∧
          (strtok (ascii "\n") text).1 = some value ∧
          StandsAt (strtokAt (ascii "\n") memory start).2.1 pointer value := by
    intro memory text start stands
    obtain ⟨missing, none, _⟩ | ⟨pointer, value, found, token, cut, _⟩ :=
      strtokAt_spec (ascii "\n") stands
    · exact .inl ⟨missing, none⟩
    · exact .inr ⟨pointer, value, found, token, cut⟩
  have behind : StandsAt (strtokAt (ascii "=") line 0).2.1
      (strtokAt (ascii "=") line 0).2.2 (strtok (ascii "=") text).2 := by
    obtain ⟨_, none, ended⟩ | ⟨_, _, _, _, _, more⟩ :=
      strtokAt_spec (ascii "=") stands
    · rwa [strtok_snd_of_none none]
    · exact more
  simp only [extractValue, extractedText]
  obtain ⟨missing, none, ended⟩ | ⟨first, token, found, cut, value, _⟩ :=
    strtokAt_spec (ascii "=") behind
  · rw [none, missing, Option.getD_none, strtok_snd_of_none none]
    exact last ended
  · rw [cut, found, Option.getD_some]
    exact last value

/-- A value without an equals sign stands where the field ends. -/
theorem extractValue_of_standsAt {line value ends : Bytes}
    (nonempty : value ≠ []) (plain : 61 ∉ value) (oneLine : 10 ∉ value)
    (endsLine : ends ⊆ [10])
    (stands : StandsAt line 0 (idField ++ (value ++ ends))) :
    (extractValue line).1 = some idField.length := by
  have noEquals : 61 ∉ ends := fun member =>
    absurd (endsLine member) (by decide)
  obtain ⟨_, _, next⟩ := @strtokAt_token _ (ascii "ID")
    (61 :: (value ++ ends)) 0 61 (by decide) (by decide) (by simp) stands
  obtain ⟨saved, behind⟩ := next _ _ rfl
  have whole : value ++ ends ≠ [] :=
    List.append_ne_nil_of_left_ne_nil nonempty ends
  rw [← List.append_nil (value ++ ends)] at behind
  obtain ⟨token, stays, _⟩ := @strtokAt_token _ _ _ _ 61 whole
    (by simp [plain, noEquals]) (by simp) behind
  obtain ⟨found, _, _⟩ := @strtokAt_token _ _ _ _ 10 nonempty oneLine
    (fun byte head =>
      List.mem_singleton.mp (endsLine (List.mem_of_mem_head? head))) stays
  have equals : ascii "=" = [61] := rfl
  have newline : ascii "\n" = [10] := rfl
  simp only [extractValue, equals, newline, saved, token, Option.getD_some]
  exact found

theorem searchOsId_of_findPiece {pieces : List Bytes} {offset place : Nat}
    {piece : Bytes} (line : Bytes)
    (found : findPiece idField.isPrefixOf offset pieces = some (place, piece)) :
    ∃ back, searchOsId line pieces =
      ⟨(extractValue (piece ++ 0 :: back)).1,
        (extractValue (piece ++ 0 :: back)).2⟩ := by
  have starts : ∀ back : Bytes, ∀ piece : Bytes,
      idField.isPrefixOf (piece ++ 0 :: back) = idField.isPrefixOf piece := by
    intro back piece
    have field : idField = [73, 68, 61] := rfl
    rw [field]
    rcases piece with _ | ⟨first, _ | ⟨second, _ | ⟨third, piece⟩⟩⟩ <;>
      simp [List.isPrefixOf]
  induction pieces generalizing line offset with
  | nil => cases found
  | cons first pieces induction =>
      rw [findPiece] at found
      simp only [searchOsId, storeLine, starts]
      split at found
      · rename_i begins
        obtain ⟨rfl, rfl⟩ := Prod.mk.inj (Option.some.inj found)
        exact ⟨_, if_pos begins⟩
      · rename_i other
        rw [if_neg other]
        exact induction _ found

namespace OsRelease

variable {file : OsRelease}

theorem idPiece_noNul (file : OsRelease) : 0 ∉ file.idPiece := by
  have field : 0 ∉ idField := by decide
  obtain ⟨_, ends, endsLine, stored⟩ | ⟨_, stored⟩ := file.idPiece_cases
  · have noEnd : 0 ∉ ends := fun member =>
      absurd (endsLine member) (by decide)
    rw [stored]
    simp only [List.mem_append, not_or]
    exact ⟨field, file.valueNoNul, noEnd⟩
  · rw [stored, List.mem_append, not_or]
    exact ⟨field, fun member => file.valueNoNul (List.mem_of_mem_take member)⟩

/-- Where the loop reaches the line of the identity, the array holds what
`fgets` stored of it. -/
theorem getOsId_of_reached
    (reached : findIdLine file.content =
      some (file.before.length, file.idPiece)) (stack : Bytes) :
    ∃ line, StandsAt line 0 file.idPiece ∧
      (getOsId stack file.content).pointer = (extractValue line).1 ∧
      (getOsId stack file.content).line = (extractValue line).2 := by
  obtain ⟨back, result⟩ := searchOsId_of_findPiece stack reached
  refine ⟨file.idPiece ++ 0 :: back,
    ⟨file.idPiece_noNul, [], back, rfl, rfl⟩, ?_, ?_⟩
  · rw [getOsId, result]
  · rw [getOsId, result]

theorem found_iff_foreseen (file : OsRelease) (stack left : Bytes) :
    file.Found stack left ↔ file.Foreseen left := by
  obtain ⟨⟨line, member, starts⟩, place, piece, stopped, early⟩ |
    ⟨passed, reached⟩ := file.findIdLine_cases
  · refine iff_of_false (fun found => ?_) (fun foreseen => ?_)
    · have same := found.place
      rw [stopped] at same
      exact early.ne (Option.some.inj same)
    · exact foreseen.unstarted line member starts
  · obtain ⟨line, stands, pointed, array⟩ := getOsId_of_reached reached stack
    have stays : 61 ∉ file.value → file.value.length ≤ 1020 →
        (extractValue line).1 = some idField.length := by
      intro plain short
      obtain ⟨_, ends, endsLine, stored⟩ | ⟨long, _⟩ := file.idPiece_cases
      · rw [stored] at stands
        exact extractValue_of_standsAt file.valueNonempty plain file.valueLine
          endsLine stands
      · omega
    constructor
    · intro found
      obtain ⟨pointer, returned, value, read⟩ := found.value
      rw [pointed] at returned
      rw [array] at value
      have text : extractedText file.idPiece = some file.value := by
        obtain ⟨missing, _⟩ | ⟨_, cut, same, extracted, stored⟩ :=
          extractValue_spec stands
        · cases missing.symm.trans returned
        · obtain rfl := Option.some.inj (same.symm.trans returned)
          rw [extracted, value.unique stored]
      obtain ⟨plain, short⟩ := file.extractedText_idPiece_iff.mp text
      obtain rfl := Option.some.inj (returned.symm.trans (stays plain short))
      exact ⟨passed, plain, short, read⟩
    · intro foreseen
      have text := file.extractedText_idPiece_iff.mpr
        ⟨foreseen.plain, foreseen.short⟩
      have returned := stays foreseen.plain foreseen.short
      refine ⟨⟨idField.length, pointed.trans returned, ?_, foreseen.kept⟩,
        by rw [reached]; rfl⟩
      obtain ⟨missing, _⟩ | ⟨other, cut, same, extracted, value⟩ :=
        extractValue_spec stands
      · cases missing.symm.trans returned
      · obtain rfl := Option.some.inj (same.symm.trans returned)
        obtain rfl := Option.some.inj (extracted.symm.trans text)
        rwa [array]

/-- Every content with a line that gives the identity a value is a file whose
identity is found as it stands exactly if `get_os_id` foresees the file and the
value is left in its array. -/
theorem found_iff (stack left : Bytes) :
    (∀ content : Bytes, 0 ∉ content →
      (∃ line ∈ content.splitOn 10, ∃ text, text ≠ [] ∧
        line = idField ++ text) →
      ∃ file : OsRelease, file.content = content) ∧
    ∀ file : OsRelease, file.Found stack left ↔ file.Foreseen left :=
  ⟨fun _ noNul identified => exists_content noNul identified,
    fun file => file.found_iff_foreseen stack left⟩

/-- A file whose only line gives the identity a value. -/
def onlyLine (value : Bytes) (valueLine : 10 ∉ value) (valueNoNul : 0 ∉ value)
    (valueNonempty : value ≠ []) : OsRelease where
  earlier := []
  value := value
  later := ascii "\n"
  earlierLine := by simp
  earlierOther := by simp
  earlierNoNul := by simp
  valueLine := valueLine
  valueNoNul := valueNoNul
  laterNoNul := by decide
  valueNonempty := valueNonempty
  laterLines := fun _ head => (Option.some.inj head).symm

def equalsSign : OsRelease :=
  onlyLine (ascii "a=b") (by decide) (by decide) (by decide)

def plainFile : OsRelease :=
  onlyLine (ascii "ubuntu") (by decide) (by decide) (by decide)

/-- The value `a=b` is cut at its equals sign even if nothing overwrites the
array, and `ubuntu` is lost where other calls have cleared its memory. -/
theorem not_forall_found :
    (¬ ∀ (file : OsRelease) (stack : Bytes),
      file.Found stack (getOsId stack file.content).line) ∧
    ¬ ∀ stack left : Bytes, plainFile.Found stack left := by
  constructor
  · intro found
    have foreseen :=
      (equalsSign.found_iff_foreseen [] _).mp (found equalsSign [])
    exact foreseen.plain (by decide)
  · intro found
    have foreseen := (plainFile.found_iff_foreseen [] _).mp
      (found [] (List.replicate bufferSize 0))
    have read := foreseen.kept.untilNul_eq
    have empty : untilNul ((List.replicate bufferSize 0).drop
        idField.length) = [] := by
      rw [List.drop_replicate]
      rfl
    exact plainFile.valueNonempty (read.symm.trans empty)

end OsRelease

end ShelterServer
