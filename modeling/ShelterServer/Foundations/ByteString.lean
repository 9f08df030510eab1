import Mathlib.Data.List.Basic
import Mathlib.Data.List.Infix

/-!
# Byte strings and fixed-size buffers

A C string is the run of bytes before the first NUL.  A buffer is an array of
a fixed number of bytes whose single-byte writes are checked against its size,
so an access outside the array is visible in the result.
-/

namespace ShelterServer.Foundations

abbrev Bytes := List UInt8

/-- The bytes of a literal whose characters are all ASCII. -/
def ascii (text : String) : Bytes :=
  text.toList.map fun character => character.toNat.toUInt8

/-- The string that a C reader sees at the front of a run of bytes. -/
def untilNul : Bytes → Bytes
  | [] => []
  | byte :: bytes => if byte = 0 then [] else byte :: untilNul bytes

@[simp] theorem untilNul_nil : untilNul [] = [] := rfl

@[simp] theorem untilNul_cons_zero (bytes : Bytes) :
    untilNul (0 :: bytes) = [] := by
  simp [untilNul]

@[simp] theorem untilNul_cons_of_ne {byte : UInt8} (nonzero : byte ≠ 0)
    (bytes : Bytes) : untilNul (byte :: bytes) = byte :: untilNul bytes := by
  simp [untilNul, nonzero]

theorem untilNul_of_notMem {bytes : Bytes} (absent : 0 ∉ bytes) :
    untilNul bytes = bytes := by
  induction bytes with
  | nil => rfl
  | cons byte bytes induction =>
      simp only [List.mem_cons, not_or] at absent
      rw [untilNul_cons_of_ne (Ne.symm absent.1), induction absent.2]

theorem untilNul_append_of_mem {front : Bytes} (terminated : 0 ∈ front)
    (rest : Bytes) : untilNul (front ++ rest) = untilNul front := by
  induction front with
  | nil => simp at terminated
  | cons byte front induction =>
      by_cases zero : byte = 0
      · simp [zero]
      · have tail : 0 ∈ front := by
          simpa [Ne.symm zero] using terminated
        simp [zero, induction tail]

theorem untilNul_append_of_notMem {front : Bytes} (absent : 0 ∉ front)
    (rest : Bytes) : untilNul (front ++ rest) = front ++ untilNul rest := by
  induction front with
  | nil => rfl
  | cons byte front induction =>
      simp only [List.mem_cons, not_or] at absent
      simp [Ne.symm absent.1, induction absent.2]

/-- Writing a terminator directly behind some bytes fixes the string that is
read there, whatever the array held before. -/
theorem untilNul_append_zero (front rest : Bytes) :
    untilNul (front ++ 0 :: rest) = untilNul front := by
  by_cases terminated : 0 ∈ front
  · exact untilNul_append_of_mem terminated _
  · rw [untilNul_append_of_notMem terminated, untilNul_of_notMem terminated]
    simp

theorem untilNul_append_replicate (front : Bytes) (count : Nat) :
    untilNul (front ++ List.replicate count 0) = untilNul front := by
  cases count with
  | zero => simp
  | succ count => exact untilNul_append_zero front _

/-- A terminator that is present stands directly behind the string. -/
theorem getElem?_length_untilNul {bytes : Bytes} (terminated : 0 ∈ bytes) :
    bytes[(untilNul bytes).length]? = some 0 := by
  induction bytes with
  | nil => simp at terminated
  | cons byte bytes induction =>
      by_cases zero : byte = 0
      · simp [zero]
      · have tail : 0 ∈ bytes := by
          simpa [Ne.symm zero] using terminated
        simpa [zero] using induction tail

theorem zero_notMem_untilNul (bytes : Bytes) : 0 ∉ untilNul bytes := by
  induction bytes with
  | nil => simp
  | cons byte bytes induction =>
      by_cases zero : byte = 0
      · simp [zero]
      · simp [zero, Ne.symm zero, induction]

@[simp] theorem untilNul_untilNul (bytes : Bytes) :
    untilNul (untilNul bytes) = untilNul bytes :=
  untilNul_of_notMem (zero_notMem_untilNul bytes)

theorem length_untilNul_le (bytes : Bytes) :
    (untilNul bytes).length ≤ bytes.length := by
  induction bytes with
  | nil => exact le_rfl
  | cons byte bytes induction =>
      by_cases zero : byte = 0
      · simp [zero]
      · simpa [zero] using induction

/-- A C string, without the NUL that follows it in memory. -/
structure CString where
  bytes : Bytes
  nulFree : 0 ∉ bytes

/-- `text[index]`; there is no result outside of the string and its NUL. -/
def CString.read? (text : CString) (index : Int) : Option UInt8 :=
  if 0 ≤ index then (text.bytes ++ [0])[index.toNat]? else none

theorem CString.read?_natCast {text : CString} {index : Nat}
    (inside : index < text.bytes.length) :
    text.read? index = some text.bytes[index] := by
  rw [read?, if_pos (Int.natCast_nonneg index), Int.toNat_natCast,
    List.getElem?_append_left inside, List.getElem?_eq_getElem inside]

theorem CString.read?_length (text : CString) :
    text.read? text.bytes.length = some 0 := by
  rw [read?, if_pos (Int.natCast_nonneg _), Int.toNat_natCast,
    List.getElem?_concat_length]

theorem CString.nonneg_of_read? {text : CString} {index : Int} {byte : UInt8}
    (found : text.read? index = some byte) : 0 ≤ index := by
  by_contra negative
  rw [read?, if_neg negative] at found
  cases found

/-! ## Substring search -/

/-- `strstr(text, word) != NULL`. -/
def occursIn (word text : Bytes) : Bool :=
  decide (word <:+: text)

/-- A word all of whose letters satisfy a predicate cannot straddle a
separator that does not. -/
theorem isInfix_append_cons_iff {α : Type*} {letter : α → Prop}
    {word front rest : List α} {separator : α}
    (letters : ∀ item ∈ word, letter item) (separates : ¬ letter separator) :
    word <:+: front ++ separator :: rest ↔ word <:+: front ∨ word <:+: rest := by
  constructor
  · rintro ⟨before, after, whole⟩
    rw [List.append_assoc] at whole
    rcases List.append_eq_append_iff.mp whole with
      ⟨middle, frontEq, restEq⟩ | ⟨middle, beforeEq, restEq⟩
    · rcases List.append_eq_append_iff.mp restEq with
        ⟨inner, middleEq, _⟩ | ⟨inner, wordEq, tailEq⟩
      · left
        exact ⟨before, inner, by rw [frontEq, middleEq, List.append_assoc]⟩
      · cases inner with
        | nil =>
            left
            refine ⟨before, [], ?_⟩
            rw [frontEq, wordEq]
            simp
        | cons head inner =>
            simp only [List.cons_append, List.cons.injEq] at tailEq
            have member : separator ∈ word := by
              rw [wordEq, tailEq.1]
              simp
            exact (separates (letters separator member)).elim
    · cases middle with
      | nil =>
          right
          cases word with
          | nil => exact List.nil_infix
          | cons head word =>
              simp only [List.nil_append, List.cons_append,
                List.cons.injEq] at restEq
              have member : separator ∈ head :: word := by simp [restEq.1]
              exact (separates (letters separator member)).elim
      | cons head middle =>
          simp only [List.cons_append, List.cons.injEq] at restEq
          right
          refine ⟨middle, after, ?_⟩
          rw [restEq.2, List.append_assoc]
  · rintro (inFront | inRest)
    · exact inFront.trans (List.prefix_append front _).isInfix
    · exact inRest.trans
        ((List.suffix_cons separator rest).trans
          (List.suffix_append front _)).isInfix

/-- A nonempty word does not occur among items none of which is a letter. -/
theorem not_isInfix_of_forall_not {α : Type*} {letter : α → Prop}
    {word text : List α} (nonempty : word ≠ [])
    (letters : ∀ item ∈ word, letter item)
    (none : ∀ item ∈ text, ¬ letter item) : ¬ word <:+: text := by
  intro occurs
  obtain ⟨item, member⟩ := List.exists_mem_of_ne_nil word nonempty
  exact none item (occurs.subset member) (letters item member)

/-! ## Buffers -/

/-- An array of exactly `size` bytes. -/
structure Buffer (size : Nat) where
  bytes : Bytes
  length_eq : bytes.length = size

namespace Buffer

variable {size : Nat}

/-- `memset(buffer, 0, size)`. -/
def zeroed (size : Nat) : Buffer size :=
  ⟨List.replicate size 0, by simp⟩

/-- `strncpy(buffer, source, size)`: a source that is too long loses its
terminator, a short one is padded with zeros. -/
def strncpy (size : Nat) (source : Bytes) : Buffer size :=
  ⟨(untilNul source).take size ++
      List.replicate (size - ((untilNul source).take size).length) 0, by
    simp only [List.length_append, List.length_take, List.length_replicate]
    omega⟩

/-- What a receive call that was given the buffer and a limit leaves in it:
at most `limit` bytes of the data, at the front. -/
def receive (buffer : Buffer size) (limit : Nat) (fits : limit ≤ size)
    (data : Bytes) : Buffer size :=
  ⟨data.take limit ++ buffer.bytes.drop (data.take limit).length, by
    simp only [List.length_append, List.length_take, List.length_drop,
      buffer.length_eq]
    omega⟩

/-- `buffer[index] = byte`, refused when the index is outside the array. -/
def write? (buffer : Buffer size) (index : Nat) (byte : UInt8) :
    Option (Buffer size) :=
  if index < size then
    some ⟨buffer.bytes.set index byte, by
      rw [List.length_set, buffer.length_eq]⟩
  else none

/-- A terminator lies inside the array. -/
def Terminated (buffer : Buffer size) : Prop :=
  ∃ index < size, buffer.bytes[index]? = some 0

/-- The string a reader finds in a buffer followed in memory by `beyond`. -/
def text (buffer : Buffer size) (beyond : Bytes) : Bytes :=
  untilNul (buffer.bytes ++ beyond)

theorem terminated_iff_mem {buffer : Buffer size} :
    buffer.Terminated ↔ 0 ∈ buffer.bytes := by
  constructor
  · rintro ⟨index, _, zero⟩
    exact List.mem_of_getElem? zero
  · intro member
    have found := getElem?_length_untilNul member
    obtain ⟨inside, _⟩ := List.getElem?_eq_some_iff.mp found
    exact ⟨_, lt_of_lt_of_eq inside buffer.length_eq, found⟩

theorem text_of_terminated {buffer : Buffer size}
    (terminated : buffer.Terminated) (beyond : Bytes) :
    buffer.text beyond = untilNul buffer.bytes :=
  untilNul_append_of_mem (terminated_iff_mem.mp terminated) beyond

@[simp] theorem terminated_zeroed (size : Nat) :
    (zeroed (size + 1)).Terminated :=
  ⟨0, size.succ_pos, by simp [zeroed]⟩

/-- `strncpy` terminates its destination exactly when the source and its
terminator fit. -/
theorem terminated_strncpy_iff {source : Bytes} :
    (strncpy size source).Terminated ↔ (untilNul source).length < size := by
  rw [terminated_iff_mem, strncpy, List.mem_append, List.mem_replicate,
    List.length_take]
  have absent : 0 ∉ (untilNul source).take size := fun member =>
    zero_notMem_untilNul source (List.mem_of_mem_take member)
  simp only [absent, false_or, and_true]
  omega

theorem text_strncpy {source : Bytes}
    (room : (untilNul source).length < size) (beyond : Bytes) :
    (strncpy size source).text beyond = untilNul source := by
  rw [text_of_terminated (terminated_strncpy_iff.mpr room), strncpy,
    untilNul_append_replicate, List.take_of_length_le room.le,
    untilNul_untilNul]

theorem write?_eq_none_iff {buffer : Buffer size} {index : Nat}
    {byte : UInt8} : buffer.write? index byte = none ↔ size ≤ index := by
  simp [write?]

/-- Terminating a received block in place: the bytes of the resulting
array. -/
theorem receive_write?_bytes (buffer : Buffer size) {limit : Nat}
    (fits : limit ≤ size) {data : Bytes}
    (room : (data.take limit).length < size) :
    ∃ rest, ∃ written,
      (buffer.receive limit fits data).write? (data.take limit).length 0 =
          some written ∧
        written.bytes = data.take limit ++ 0 :: rest := by
  have nonempty : buffer.bytes.drop (data.take limit).length ≠ [] := by
    intro empty
    have length := congrArg List.length empty
    simp only [List.length_drop, buffer.length_eq, List.length_nil] at length
    omega
  obtain ⟨old, rest, remaining⟩ := List.exists_cons_of_ne_nil nonempty
  refine ⟨rest, _, by rw [write?, if_pos room], ?_⟩
  simp only [receive, remaining]
  rw [List.set_append_right _ _ (le_refl _)]
  simp

end Buffer

end ShelterServer.Foundations
