import ShelterServer.Foundations.CheckedLoop
import ShelterServer.HostnameEncoding

/-!
# The memory of the encoded hostname

`encode_utf8` allocates two bytes for each byte of its input and one for the
terminator, and its loop writes up to three bytes for one.  With every access
checked, the loop stays inside exactly if the bytes that take three are paid
for by those that take fewer than two.
-/

namespace ShelterServer

open Foundations

/-! ## The loop -/

/-- The size that `encode_utf8` passes to `malloc`, as a `size_t`. -/
def allocation (input : CString) : Nat :=
  (input.bytes.length * 2 + 1) % 18446744073709551616

/-- The variables of `encode_utf8` once `malloc` has returned some memory. -/
structure Utf8Encoder (size : Nat) where
  utf8Str : Buffer size
  i : Int
  j : Int

namespace Utf8Encoder

variable {size : Nat}

/-- The variables before the loop, whatever the memory holds. -/
def initial (memory : Buffer size) : Utf8Encoder size :=
  ⟨memory, 0, 0⟩

/-- `utf8_str[j] = byte`; there is no result outside of the memory. -/
def write? (encoder : Utf8Encoder size) (byte : UInt8) :
    Option (Buffer size) :=
  if 0 ≤ encoder.j then encoder.utf8Str.write? encoder.j.toNat byte else none

/-- `utf8_str[j++] = byte`. -/
def store (encoder : Utf8Encoder size) (byte : UInt8) :
    Option (Utf8Encoder size) :=
  (encoder.write? byte).map fun utf8Str =>
    { encoder with utf8Str := utf8Str, j := wrapInt (encoder.j + 1) }

/-- `i++`. -/
def advance (encoder : Utf8Encoder size) : Utf8Encoder size :=
  { encoder with i := wrapInt (encoder.i + 1) }

end Utf8Encoder

/-- The body of the loop. -/
def encodeUtf8Turn (signedChar : Bool) (input : CString) {size : Nat}
    (encoder : Utf8Encoder size) : Option (Utf8Encoder size) := do
  let byte ← input.read? encoder.i
  let value := promoteChar signedChar byte
  if value &&& 0x80 = 0 then
    let encoder ← encoder.store byte
    some encoder.advance
  else if value &&& 0xE0 = 0xC0 then
    let encoder ← encoder.store
      (toChar (0xC0 ||| (value.sshiftRight 6 &&& 0x1F)))
    let encoder ← encoder.store (toChar (0x80 ||| (value &&& 0x3F)))
    some encoder.advance
  else if value &&& 0xF0 = 0xE0 then
    let encoder ← encoder.store
      (toChar (0xE0 ||| (value.sshiftRight 12 &&& 0x0F)))
    let encoder ← encoder.store (toChar (0x80 ||| (value &&& 0x3F)))
    let encoder ← encoder.store (toChar (0x80 ||| (value &&& 0x3F)))
    some encoder.advance
  else some encoder.advance

/-- `while (input[i])`. -/
def encodeUtf8Loop (signedChar : Bool) (input : CString) (size : Nat) :
    CheckedLoop (Utf8Encoder size) where
  condition encoder := (input.read? encoder.i).map fun byte => byte != 0
  body := encodeUtf8Turn signedChar input

/-! ## The bound -/

/-- In the whole loop the output index lies inside the allocated bytes and no
access goes wrong; the loop ends behind the input, and the terminator is the
last byte that is written. -/
structure StaysInside (signedChar : Bool) (input : CString)
    (memory : Buffer (allocation input)) : Prop where
  throughout : ∀ count encoder,
    (encodeUtf8Loop signedChar input _).after count (.initial memory) =
        some encoder →
      (0 ≤ encoder.j ∧ encoder.j < input.bytes.length * 2 + 1) ∧
        (encodeUtf8Loop signedChar input _).Proceeds encoder
  ends : ∃ final,
    (encodeUtf8Loop signedChar input _).EndsAfter input.bytes.length
        (.initial memory) final ∧
      final.i = input.bytes.length ∧
      final.j + 1 ≤ input.bytes.length * 2 + 1 ∧
      ∃ utf8Str, final.write? 0 = some utf8Str

/-- The branches of the loop. -/
inductive ByteClass where
  | ascii
  | leadOfTwo
  | leadOfThree
  | other
deriving DecidableEq

def byteClass (byte : UInt8) : ByteClass :=
  if byte &&& 0x80 = 0 then .ascii
  else if byte &&& 0xE0 = 0xC0 then .leadOfTwo
  else if byte &&& 0xF0 = 0xE0 then .leadOfThree
  else .other

/-- The number of bytes of a class. -/
def classCount (which : ByteClass) (bytes : Bytes) : Nat :=
  bytes.countP fun byte => byteClass byte = which

/-- The bytes that lead three are outweighed by those that need less than their
share, and both indices stay within `int`. -/
structure FitsTwice (bytes : Bytes) : Prop where
  outweighed : classCount .leadOfThree bytes ≤
    classCount .ascii bytes + 2 * classCount .other bytes
  read : (bytes.length : Int) ≤ intMax
  written : (classCount .ascii bytes + 2 * classCount .leadOfTwo bytes +
    3 * classCount .leadOfThree bytes : Int) ≤ intMax

/-! ## What a byte takes -/

/-- The number of bytes that a branch writes. -/
def ByteClass.width : ByteClass → Nat
  | .ascii => 1
  | .leadOfTwo => 2
  | .leadOfThree => 3
  | .other => 0

theorem ByteClass.width_le (which : ByteClass) : which.width ≤ 3 := by
  cases which <;> decide

theorem length_encodeUtf8Byte (signedChar : Bool) (byte : UInt8) :
    (encodeUtf8Byte signedChar byte).length = (byteClass byte).width := by
  have all : ∀ signedChar, ∀ code < 256,
      (encodeUtf8Byte signedChar (UInt8.ofNat code)).length =
        (byteClass (UInt8.ofNat code)).width := by
    decide +kernel
  have same := all signedChar byte.toNat byte.toNat_lt
  rwa [UInt8.ofNat_toNat] at same

theorem classCount_cons (which : ByteClass) (byte : UInt8) (bytes : Bytes) :
    classCount which (byte :: bytes) =
      classCount which bytes + if byteClass byte = which then 1 else 0 := by
  simp [classCount, List.countP_cons]

theorem length_eq_classCounts (bytes : Bytes) :
    bytes.length = classCount .ascii bytes + classCount .leadOfTwo bytes +
      classCount .leadOfThree bytes + classCount .other bytes := by
  induction bytes with
  | nil => rfl
  | cons byte bytes induction =>
      simp only [List.length_cons, classCount_cons, induction]
      cases byteClass byte <;> simp <;> omega

theorem length_flatMap_encodeUtf8Byte (signedChar : Bool) (bytes : Bytes) :
    (bytes.flatMap (encodeUtf8Byte signedChar)).length =
      classCount .ascii bytes + 2 * classCount .leadOfTwo bytes +
        3 * classCount .leadOfThree bytes := by
  induction bytes with
  | nil => rfl
  | cons byte bytes induction =>
      rw [List.flatMap_cons, List.length_append, length_encodeUtf8Byte,
        induction]
      simp only [classCount_cons]
      cases byteClass byte <;> simp [ByteClass.width] <;> omega

theorem length_encodeUtf8 (signedChar : Bool) (input : CString) :
    (encodeUtf8 signedChar input.bytes).length =
      classCount .ascii input.bytes + 2 * classCount .leadOfTwo input.bytes +
        3 * classCount .leadOfThree input.bytes := by
  rw [encodeUtf8, untilNul_of_notMem input.nulFree,
    length_flatMap_encodeUtf8Byte]

/-- What is written is at most twice the input. -/
theorem fitsTwice_iff (signedChar : Bool) (input : CString) :
    FitsTwice input.bytes ↔
      (encodeUtf8 signedChar input.bytes).length ≤
          input.bytes.length * 2 ∧
        (input.bytes.length : Int) ≤ intMax ∧
        ((encodeUtf8 signedChar input.bytes).length : Int) ≤ intMax := by
  have length := length_eq_classCounts input.bytes
  rw [length_encodeUtf8]
  constructor
  · intro fits
    refine ⟨?_, fits.read, fits.written⟩
    have outweighed := fits.outweighed
    omega
  · rintro ⟨twice, read, written⟩
    exact ⟨by omega, read, written⟩

/-! ## Stores -/

namespace Utf8Encoder

variable {size : Nat} {encoder next : Utf8Encoder size} {byte : UInt8}

/-- The stores of one turn. -/
def storeAll (encoder : Utf8Encoder size) (bytes : Bytes) :
    Option (Utf8Encoder size) :=
  bytes.foldlM store encoder

theorem i_advance {turns : Nat} (position : encoder.i = turns)
    (range : (turns + 1 : Int) ≤ intMax) :
    encoder.advance.i = (turns + 1 : Nat) := by
  have inInt : InInt (turns + 1 : Int) := inInt_of_nonneg (by omega) range
  rw [advance, position]
  exact wrapInt_of_inInt inInt

theorem indices_store (stored : encoder.store byte = some next) :
    next.i = encoder.i ∧ next.j = wrapInt (encoder.j + 1) := by
  obtain ⟨utf8Str, _, rfl⟩ := Option.map_eq_some_iff.mp stored
  exact ⟨rfl, rfl⟩

/-- Stores that stay inside move the output index, whatever they write. -/
theorem indices_storeAll {bytes : Bytes} (inInt : InInt encoder.j)
    (stored : encoder.storeAll bytes = some next) :
    next.i = encoder.i ∧ next.j = wrapInt (encoder.j + bytes.length) := by
  induction bytes generalizing encoder with
  | nil =>
      obtain rfl := Option.some.inj stored
      simp [wrapInt_of_inInt inInt]
  | cons byte bytes induction =>
      rw [storeAll, List.foldlM_cons] at stored
      obtain ⟨middle, first, rest⟩ := Option.bind_eq_some_iff.mp stored
      obtain ⟨sameI, movedJ⟩ := indices_store first
      have middleInInt : InInt middle.j := movedJ ▸ inInt_wrapInt _
      obtain ⟨restI, restJ⟩ := induction middleInInt rest
      refine ⟨restI.trans sameI, ?_⟩
      rw [restJ, movedJ, wrapInt_wrapInt_add, List.length_cons,
        Int.natCast_add_one, Int.add_assoc, Int.add_comm 1]

/-- The bytes written so far stand at the front of the memory, and the output
index behind them. -/
structure Holds (encoder : Utf8Encoder size) (memory : Buffer size)
    (written : Bytes) : Prop where
  index : encoder.j = written.length
  bytes : encoder.utf8Str.bytes =
    written ++ memory.bytes.drop written.length

section Holds

variable {memory : Buffer size} {written : Bytes}

theorem holds_initial (memory : Buffer size) :
    (initial memory).Holds memory [] :=
  ⟨rfl, rfl⟩

theorem Holds.advance (holds : encoder.Holds memory written) :
    encoder.advance.Holds memory written :=
  ⟨holds.index, holds.bytes⟩

theorem Holds.write? (holds : encoder.Holds memory written)
    (room : written.length < size) (byte : UInt8) :
    ∃ utf8Str, encoder.write? byte = some utf8Str ∧
      utf8Str.bytes =
        written ++ byte :: memory.bytes.drop (written.length + 1) := by
  have more : written.length < memory.bytes.length :=
    lt_of_lt_of_eq room memory.length_eq.symm
  rw [Utf8Encoder.write?, holds.index, if_pos (Int.natCast_nonneg _),
    Int.toNat_natCast, Buffer.write?, if_pos room]
  refine ⟨_, rfl, ?_⟩
  simp only [holds.bytes, List.drop_eq_getElem_cons more]
  rw [List.set_append_right _ _ le_rfl, Nat.sub_self, List.set_cons_zero]

theorem Holds.store (holds : encoder.Holds memory written)
    (room : written.length < size)
    (range : (written.length + 1 : Int) ≤ intMax) (byte : UInt8) :
    ∃ next, encoder.store byte = some next ∧ next.i = encoder.i ∧
      next.Holds memory (written ++ [byte]) := by
  obtain ⟨utf8Str, wrote, bytes⟩ := holds.write? room byte
  have inInt : InInt (written.length + 1 : Int) :=
    inInt_of_nonneg (by omega) range
  refine ⟨_, Option.map_eq_some_iff.mpr ⟨_, wrote, rfl⟩, rfl, ?_, ?_⟩
  · simp [holds.index, wrapInt_of_inInt inInt]
  · simp [bytes]

/-- With room for all of them, the stores append their bytes. -/
theorem Holds.storeAll {bytes : Bytes}
    (holds : encoder.Holds memory written)
    (room : written.length + bytes.length ≤ size)
    (range : (written.length + bytes.length : Int) ≤ intMax) :
    ∃ next, encoder.storeAll bytes = some next ∧ next.i = encoder.i ∧
      next.Holds memory (written ++ bytes) := by
  induction bytes generalizing encoder written with
  | nil => exact ⟨encoder, rfl, rfl, by rwa [List.append_nil]⟩
  | cons byte bytes induction =>
      simp only [List.length_cons, Int.natCast_add_one] at room range
      obtain ⟨middle, first, sameI, middleHolds⟩ :=
        holds.store (by omega) (by omega) byte
      obtain ⟨next, rest, restI, nextHolds⟩ := induction middleHolds
        (by rw [List.length_append, List.length_singleton]; omega)
        (by rw [List.length_append, List.length_singleton]; push_cast; omega)
      rw [List.append_assoc, List.singleton_append] at nextHolds
      refine ⟨next, ?_, restI.trans sameI, nextHolds⟩
      rw [Utf8Encoder.storeAll, List.foldlM_cons, first]
      exact rest

end Holds

end Utf8Encoder

/-! ## Turns -/

/-- What the loop has written after some turns. -/
def encodedBy (signedChar : Bool) (input : CString) (turns : Nat) : Bytes :=
  (input.bytes.take turns).flatMap (encodeUtf8Byte signedChar)

section Turns

variable {signedChar : Bool} {input : CString} {size : Nat}
  {encoder next : Utf8Encoder size} {byte : UInt8}

theorem encodeUtf8Turn_eq (found : input.read? encoder.i = some byte) :
    encodeUtf8Turn signedChar input encoder =
      (encoder.storeAll (encodeUtf8Byte signedChar byte)).map
        Utf8Encoder.advance := by
  simp only [encodeUtf8Turn, found, encodeUtf8Byte, Utf8Encoder.storeAll,
    Option.bind_eq_bind, Option.bind_some]
  split
  · simp [Option.map_eq_bind]
  · split
    · simp [Option.map_eq_bind, Option.bind_assoc]
    · split
      · simp [Option.map_eq_bind, Option.bind_assoc]
      · rfl

theorem encodedBy_succ {turns : Nat} (inside : turns < input.bytes.length) :
    encodedBy signedChar input (turns + 1) =
      encodedBy signedChar input turns ++
        encodeUtf8Byte signedChar input.bytes[turns] := by
  rw [encodedBy, List.take_succ_eq_append_getElem inside, List.flatMap_append,
    List.flatMap_singleton]
  rfl

theorem encodedBy_length (signedChar : Bool) (input : CString) :
    encodedBy signedChar input input.bytes.length =
      encodeUtf8 signedChar input.bytes := by
  rw [encodedBy, List.take_length, encodeUtf8,
    untilNul_of_notMem input.nulFree]

theorem length_encodedBy_le (signedChar : Bool) (input : CString)
    (turns : Nat) :
    (encodedBy signedChar input turns).length ≤
      (encodeUtf8 signedChar input.bytes).length := by
  rw [encodeUtf8, untilNul_of_notMem input.nulFree]
  conv_rhs => rw [← List.take_append_drop turns input.bytes,
    List.flatMap_append, List.length_append]
  exact Nat.le_add_right _ _

/-- Before the end of the input the loop goes on. -/
theorem turn_eq {turns : Nat} (inside : turns < input.bytes.length)
    (position : encoder.i = turns) :
    (encodeUtf8Loop signedChar input size).turn encoder =
      (encoder.storeAll
        (encodeUtf8Byte signedChar input.bytes[turns])).map
          Utf8Encoder.advance := by
  have found : input.read? encoder.i = some input.bytes[turns] := by
    rw [position, CString.read?_natCast inside]
  have nonzero : input.bytes[turns] ≠ 0 := fun zero =>
    input.nulFree (zero ▸ List.getElem_mem inside)
  have more : (encodeUtf8Loop signedChar input size).condition encoder =
      some true := by
    simp [encodeUtf8Loop, found, nonzero]
  rw [CheckedLoop.turn, more, Option.bind_some, if_pos rfl]
  exact encodeUtf8Turn_eq found

theorem condition_of_end (position : encoder.i = input.bytes.length) :
    (encodeUtf8Loop signedChar input size).condition encoder =
      some false := by
  simp [encodeUtf8Loop, position, CString.read?_length]

theorem nonneg_of_proceeds
    (proceeds : (encodeUtf8Loop signedChar input size).Proceeds encoder) :
    0 ≤ encoder.i := by
  have evaluated : ∃ more,
      (encodeUtf8Loop signedChar input size).condition encoder = some more := by
    obtain ended | ⟨goes, _⟩ := proceeds
    · exact ⟨_, ended⟩
    · exact ⟨_, goes⟩
  obtain ⟨_, evaluated⟩ := evaluated
  obtain ⟨_, found, _⟩ := Option.map_eq_some_iff.mp evaluated
  exact CString.nonneg_of_read? found

end Turns

/-! ## The whole loop -/

section Loop

variable {signedChar : Bool} {input : CString}
  {memory : Buffer (allocation input)}

/-- The indices at the head of a loop that stays inside. -/
structure Counts (signedChar : Bool) (input : CString) {size : Nat}
    (turns : Nat) (encoder : Utf8Encoder size) : Prop where
  i : encoder.i = turns
  j : encoder.j = (encodedBy signedChar input turns).length
  read : (turns : Int) ≤ intMax
  written : ((encodedBy signedChar input turns).length : Int) ≤ intMax

theorem counts_initial (memory : Buffer (allocation input)) :
    Counts signedChar input 0 (.initial memory) where
  i := rfl
  j := rfl
  read := by decide
  written := by simp [encodedBy, intMax]

/-- An index that wraps around shows at the next head of the loop. -/
theorem Counts.turn {size turns : Nat} {encoder next : Utf8Encoder size}
    (counts : Counts signedChar input turns encoder)
    (inside : turns < input.bytes.length)
    (moved : (encodeUtf8Loop signedChar input size).turn encoder = some next)
    (nonnegI : 0 ≤ next.i) (nonnegJ : 0 ≤ next.j) :
    Counts signedChar input (turns + 1) next := by
  rw [turn_eq inside counts.i] at moved
  obtain ⟨stored, allStored, rfl⟩ := Option.map_eq_some_iff.mp moved
  have inInt : InInt encoder.j := by
    rw [counts.j]
    exact inInt_of_nonneg (Int.natCast_nonneg _) counts.written
  obtain ⟨sameI, movedJ⟩ := Utf8Encoder.indices_storeAll inInt allStored
  have width := length_encodeUtf8Byte signedChar input.bytes[turns]
  have narrow := (byteClass input.bytes[turns]).width_le
  have read := counts.read
  have written := counts.written
  change 0 ≤ wrapInt (stored.i + 1) at nonnegI
  change 0 ≤ stored.j at nonnegJ
  rw [sameI, counts.i] at nonnegI
  rw [movedJ, counts.j, ← Int.natCast_add, ← List.length_append,
    ← encodedBy_succ inside] at nonnegJ
  have nextRead : ((turns : Int) + 1) ≤ intMax := by
    refine le_intMax_of_wrapInt_nonneg (by omega) ?_ nonnegI
    unfold intMax at read ⊢
    omega
  have nextWritten :
      ((encodedBy signedChar input (turns + 1)).length : Int) ≤ intMax := by
    refine le_intMax_of_wrapInt_nonneg (Int.natCast_nonneg _) ?_ nonnegJ
    rw [encodedBy_succ inside, List.length_append]
    unfold intMax at written ⊢
    omega
  refine ⟨?_, ?_, nextRead, nextWritten⟩
  · exact Utf8Encoder.i_advance (sameI.trans counts.i) nextRead
  · change stored.j = _
    rw [movedJ, counts.j, ← Int.natCast_add, ← List.length_append,
      ← encodedBy_succ inside,
      wrapInt_of_inInt (inInt_of_nonneg (Int.natCast_nonneg _) nextWritten)]

theorem StaysInside.counts (stays : StaysInside signedChar input memory) :
    ∃ encoder,
      (encodeUtf8Loop signedChar input _).after input.bytes.length
          (.initial memory) = some encoder ∧
        Counts signedChar input input.bytes.length encoder := by
  refine CheckedLoop.exists_after_of_step (counts_initial memory) ?_ le_rfl
  intro turns inside encoder reached counts
  obtain ⟨final, ends, _⟩ := stays.ends
  obtain ⟨same, _⟩ | ⟨_, next, moved⟩ := ends.cases reached
  · exact absurd same inside.ne
  · have nextReached :=
      CheckedLoop.after_succ_eq_some_iff.mpr ⟨encoder, reached, moved⟩
    obtain ⟨⟨nonnegJ, _⟩, proceeds⟩ := stays.throughout _ _ nextReached
    exact ⟨next, moved,
      counts.turn inside moved (nonneg_of_proceeds proceeds) nonnegJ⟩

theorem StaysInside.fitsTwice (stays : StaysInside signedChar input memory) :
    FitsTwice input.bytes := by
  obtain ⟨encoder, reached, counts⟩ := stays.counts
  obtain ⟨⟨_, inside⟩, _⟩ := stays.throughout _ _ reached
  have written := counts.written
  rw [counts.j] at inside
  rw [encodedBy_length] at inside written
  exact (fitsTwice_iff signedChar input).mpr ⟨by omega, counts.read, written⟩

/-- The loop has read so many bytes and written what they encode to. -/
structure Encodes (signedChar : Bool) (input : CString) {size : Nat}
    (memory : Buffer size) (turns : Nat) (encoder : Utf8Encoder size) :
    Prop where
  i : encoder.i = turns
  holds : encoder.Holds memory (encodedBy signedChar input turns)

theorem Encodes.turn {size turns : Nat} {memory : Buffer size}
    {encoder : Utf8Encoder size}
    (encodes : Encodes signedChar input memory turns encoder)
    (inside : turns < input.bytes.length)
    (room : (encodeUtf8 signedChar input.bytes).length ≤ size)
    (read : (input.bytes.length : Int) ≤ intMax)
    (written : ((encodeUtf8 signedChar input.bytes).length : Int) ≤ intMax) :
    ∃ next, (encodeUtf8Loop signedChar input size).turn encoder = some next ∧
      Encodes signedChar input memory (turns + 1) next := by
  have step : encodedBy signedChar input (turns + 1) = _ :=
    encodedBy_succ inside
  have grown := length_encodedBy_le signedChar input (turns + 1)
  rw [step, List.length_append] at grown
  have fits := le_trans grown room
  obtain ⟨stored, allStored, sameI, holds⟩ :=
    encodes.holds.storeAll fits (by omega)
  rw [← step] at holds
  refine ⟨stored.advance, ?_, ?_, holds.advance⟩
  · rw [turn_eq inside encodes.i, allStored, Option.map_some]
  · exact Utf8Encoder.i_advance (sameI.trans encodes.i) (by omega)

theorem allocation_of_read (read : (input.bytes.length : Int) ≤ intMax) :
    allocation input = input.bytes.length * 2 + 1 := by
  unfold intMax at read
  refine Nat.mod_eq_of_lt ?_
  omega

theorem FitsTwice.encodes (fits : FitsTwice input.bytes) {turns : Nat}
    (within : turns ≤ input.bytes.length) :
    ∃ encoder,
      (encodeUtf8Loop signedChar input _).after turns (.initial memory) =
          some encoder ∧
        Encodes signedChar input memory turns encoder := by
  obtain ⟨twice, read, written⟩ := (fitsTwice_iff signedChar input).mp fits
  have size := allocation_of_read read
  have initial : Encodes signedChar input memory 0 (.initial memory) :=
    ⟨rfl, Utf8Encoder.holds_initial memory⟩
  refine CheckedLoop.exists_after_of_step initial ?_ within
  intro turns inside encoder _ encodes
  exact encodes.turn inside (by omega) read written

/-- The loop ends behind the input, and the terminator makes the memory a
string: the encoding of the input. -/
theorem FitsTwice.ends (fits : FitsTwice input.bytes) (signedChar : Bool)
    (memory : Buffer (allocation input)) :
    ∃ final, (encodeUtf8Loop signedChar input _).EndsAfter
        input.bytes.length (.initial memory) final ∧
      Encodes signedChar input memory input.bytes.length final := by
  obtain ⟨final, reached, encodes⟩ := fits.encodes le_rfl
  exact ⟨final, ⟨reached, condition_of_end encodes.i⟩, encodes⟩

theorem FitsTwice.staysInside (fits : FitsTwice input.bytes) :
    StaysInside signedChar input memory := by
  obtain ⟨twice, read, written⟩ := (fitsTwice_iff signedChar input).mp fits
  have size := allocation_of_read read
  obtain ⟨final, ends, encodes⟩ := fits.ends signedChar memory
  constructor
  · intro count encoder reached
    have within : count ≤ input.bytes.length := by
      obtain ⟨same, _⟩ | ⟨before, _⟩ := ends.cases reached
      · exact same.le
      · exact before.le
    obtain ⟨tracked, trackedReached, here⟩ := fits.encodes within
    obtain rfl := Option.some.inj (reached.symm.trans trackedReached)
    have grown := length_encodedBy_le signedChar input count
    refine ⟨?_, ends.proceeds reached⟩
    rw [here.holds.index]
    omega
  · have length := congrArg List.length (encodedBy_length signedChar input)
    obtain ⟨utf8Str, wrote, _⟩ := encodes.holds.write? (by omega) 0
    refine ⟨final, ends, encodes.i, ?_, utf8Str, wrote⟩
    rw [encodes.holds.index]
    omega

end Loop

/-! ## Results -/

theorem zero_notMem_encodeUtf8Byte (signedChar : Bool) {byte : UInt8}
    (nonzero : byte ≠ 0) : 0 ∉ encodeUtf8Byte signedChar byte := by
  have all : ∀ signedChar, ∀ code < 256, UInt8.ofNat code ≠ 0 →
      0 ∉ encodeUtf8Byte signedChar (UInt8.ofNat code) := by
    decide +kernel
  have absent := all signedChar byte.toNat byte.toNat_lt
  rw [UInt8.ofNat_toNat] at absent
  exact absent nonzero

theorem zero_notMem_encodeUtf8 (signedChar : Bool) (input : Bytes) :
    0 ∉ encodeUtf8 signedChar input := by
  intro member
  obtain ⟨byte, read, written⟩ := List.mem_flatMap.mp member
  have nonzero : byte ≠ 0 := fun zero =>
    zero_notMem_untilNul input (zero ▸ read)
  exact zero_notMem_encodeUtf8Byte signedChar nonzero written

/-- With a memory that suffices, what `encode_utf8` returns is the encoding of
its input, whatever lies behind the memory. -/
theorem text_encodeUtf8Loop {signedChar : Bool} {input : CString}
    (memory : Buffer (allocation input)) (fits : FitsTwice input.bytes) :
    ∃ final utf8Str,
      (encodeUtf8Loop signedChar input _).EndsAfter input.bytes.length
          (.initial memory) final ∧
        final.write? 0 = some utf8Str ∧
        ∀ beyond, utf8Str.text beyond = encodeUtf8 signedChar input.bytes := by
  obtain ⟨twice, read, _⟩ := (fitsTwice_iff signedChar input).mp fits
  have size := allocation_of_read read
  obtain ⟨final, ends, encodes⟩ := fits.ends signedChar memory
  have holds := encodes.holds
  rw [encodedBy_length] at holds
  obtain ⟨utf8Str, wrote, bytes⟩ := holds.write? (by omega) 0
  refine ⟨final, utf8Str, ends, wrote, fun beyond => ?_⟩
  rw [Buffer.text, bytes, List.append_assoc, List.cons_append,
    untilNul_append_zero,
    untilNul_of_notMem (zero_notMem_encodeUtf8 signedChar input.bytes)]

/-- Text in UTF-8 never needs more than its own length. -/
theorem fitsTwice_utf8 {text : List Char} (nulFree : 0 ∉ utf8 text)
    (read : ((utf8 text).length : Int) ≤ intMax) : FitsTwice (utf8 text) := by
  have shorter : (encodeUtf8 true (utf8 text)).length ≤ (utf8 text).length := by
    rw [encodeUtf8_utf8 true nulFree]
    exact length_flatMap_le fun character _ =>
      (encodeUtf8Char_spec true character).1
  refine (fitsTwice_iff true ⟨utf8 text, nulFree⟩).mpr ⟨?_, read, ?_⟩
  · change (encodeUtf8 true (utf8 text)).length ≤ (utf8 text).length * 2
    omega
  · change ((encodeUtf8 true (utf8 text)).length : Int) ≤ intMax
    omega

/-- The loop stays inside the memory exactly if the bytes that lead three are
outweighed and the indices do not wrap around. -/
theorem staysInside_iff (signedChar : Bool) (input : CString)
    (memory : Buffer (allocation input)) :
    StaysInside signedChar input memory ↔ FitsTwice input.bytes :=
  ⟨StaysInside.fitsTwice, FitsTwice.staysInside⟩

/-- A single byte `E0` fills the three bytes of its memory and leaves none for
the terminator. -/
theorem not_forall_staysInside :
    ¬ ∀ (signedChar : Bool) (input : CString)
      (memory : Buffer (allocation input)),
      StaysInside signedChar input memory := by
  intro stays
  have reached : ((encodeUtf8Loop true ⟨[0xE0], by decide⟩ 3).after 1
      (.initial (.zeroed 3))).map Utf8Encoder.j = some 3 := by
    decide
  obtain ⟨encoder, after, index⟩ := Option.map_eq_some_iff.mp reached
  obtain ⟨⟨_, inside⟩, _⟩ :=
    (stays true ⟨[0xE0], by decide⟩ (.zeroed 3)).throughout 1 encoder after
  rw [index] at inside
  exact absurd inside (by decide)

end ShelterServer
