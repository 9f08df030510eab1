import Mathlib
import ShelterServer.Foundations.CInt

/-!
# Decimal numbers and the doubles next to them

`strtod` reads the longest decimal number at the front of a text and takes the
double next to it, half-way cases going to the even one.  Of the double only
the integer part is kept.
-/

namespace ShelterServer.Foundations

/-- `isdigit`. -/
def isDigit (byte : UInt8) : Bool :=
  48 ≤ byte && byte ≤ 57

/-- The value of a row of decimal digits. -/
def digitsValue (digits : Bytes) : Nat :=
  digits.foldl (fun value digit => 10 * value + (digit.toNat - 48)) 0

/-- A sign that is written or not; `true` is a minus. -/
def signBytes : Option Bool → Bytes
  | none => []
  | some false => [43]
  | some true => [45]

structure Exponent where
  marker : UInt8
  sign : Option Bool
  digits : Bytes
  isMarker : marker = 101 ∨ marker = 69
  nonempty : digits ≠ []
  allDigits : ∀ digit ∈ digits, isDigit digit = true

def Exponent.bytes (exponent : Exponent) : Bytes :=
  exponent.marker :: (signBytes exponent.sign ++ exponent.digits)

def Exponent.value (exponent : Exponent) : Int :=
  if exponent.sign = some true then -(digitsValue exponent.digits : Int)
  else digitsValue exponent.digits

/-- A decimal number as it is written; a point is written if there is a
fraction, which may have no digits. -/
structure Decimal where
  sign : Option Bool
  whole : Bytes
  fraction : Option Bytes
  exponent : Option Exponent
  wholeDigits : ∀ digit ∈ whole, isDigit digit = true
  fractionDigits : ∀ digits ∈ fraction, ∀ digit ∈ digits, isDigit digit = true
  someDigit : whole ≠ [] ∨ fraction.getD [] ≠ []

def fractionBytes (fraction : Option Bytes) : Bytes :=
  fraction.elim [] (46 :: ·)

def exponentBytes (exponent : Option Exponent) : Bytes :=
  exponent.elim [] Exponent.bytes

def Decimal.bytes (decimal : Decimal) : Bytes :=
  signBytes decimal.sign ++ (decimal.whole ++
    (fractionBytes decimal.fraction ++ exponentBytes decimal.exponent))

/-! ## The integer part -/

/-- The integer next to a quotient, the even one of two. -/
def roundHalfEven (numerator denominator : Nat) : Nat :=
  let quotient := numerator / denominator
  let twice := 2 * (numerator % denominator)
  if twice < denominator then quotient
  else if denominator < twice then quotient + 1
  else quotient + quotient % 2

/-- The bound that doubles stay below, in place of an infinity. -/
def overflowBound : Nat := 2 ^ 1024

/-- The integer part of the double next to a quotient, of which 53 bits are
kept. -/
def doubleFloor (numerator denominator : Nat) : Nat :=
  if numerator < denominator then
    roundHalfEven (numerator * 2 ^ 53) denominator / 2 ^ 53
  else
    let exponent := Nat.log2 (numerator / denominator)
    min overflowBound
      (roundHalfEven (numerator * 2 ^ 52) (denominator * 2 ^ exponent) *
        2 ^ exponent / 2 ^ 52)

namespace Decimal

/-- The power of ten that the digits count. -/
def scale (decimal : Decimal) : Int :=
  decimal.exponent.elim 0 Exponent.value -
    ((decimal.fraction.getD []).length : Int)

def integerPart (decimal : Decimal) : Int :=
  let significand := digitsValue (decimal.whole ++ decimal.fraction.getD [])
  let magnitude := doubleFloor (significand * 10 ^ decimal.scale.toNat)
    (10 ^ (-decimal.scale).toNat)
  if decimal.sign = some true then -(magnitude : Int) else magnitude

end Decimal

/-! ## Reading -/

def readSign : Bytes → Option Bool × Bytes
  | 45 :: rest => (some true, rest)
  | 43 :: rest => (some false, rest)
  | rest => (none, rest)

def readFraction : Bytes → Option Bytes
  | 46 :: rest => some (rest.takeWhile isDigit)
  | _ => none

/-- An exponent without digits is none. -/
def readExponent : Bytes → Option Exponent
  | [] => none
  | marker :: rest =>
      if isMarker : marker = 101 ∨ marker = 69 then
        if nonempty : (readSign rest).2.takeWhile isDigit ≠ [] then
          some {
            marker
            sign := (readSign rest).1
            digits := (readSign rest).2.takeWhile isDigit
            isMarker
            nonempty
            allDigits := fun _ => List.mem_takeWhile_imp }
        else none
      else none

theorem readFraction_digits {text digits : Bytes}
    (found : digits ∈ readFraction text) :
    ∀ digit ∈ digits, isDigit digit = true := by
  unfold readFraction at found
  split at found
  · obtain rfl := Option.some.inj found
    exact fun _ => List.mem_takeWhile_imp
  · cases found

/-- `strtod` for a text of digits, signs, points and letters `e`: the decimal
number at its front, if there is one. -/
def strtod (text : Bytes) : Option Decimal :=
  let behindSign := (readSign text).2
  let behindWhole := behindSign.dropWhile isDigit
  let fraction := readFraction behindWhole
  if someDigit :
      behindSign.takeWhile isDigit ≠ [] ∨ fraction.getD [] ≠ [] then
    some {
      sign := (readSign text).1
      whole := behindSign.takeWhile isDigit
      fraction
      exponent := readExponent
        (behindWhole.drop (fractionBytes fraction).length)
      wholeDigits := fun _ => List.mem_takeWhile_imp
      fractionDigits := fun _ found => readFraction_digits found
      someDigit }
  else none

/-! ### What is read is what is written -/

section Runs

variable {α : Type*} {property : α → Bool} {front rest : List α}

theorem takeWhile_append_of_stop (all : ∀ item ∈ front, property item = true)
    (stop : ∀ item ∈ rest.head?, property item = false) :
    (front ++ rest).takeWhile property = front := by
  rw [List.takeWhile_append_of_pos all]
  cases rest with
  | nil => simp
  | cons item rest => simp [stop item rfl]

theorem dropWhile_append_of_stop (all : ∀ item ∈ front, property item = true)
    (stop : ∀ item ∈ rest.head?, property item = false) :
    (front ++ rest).dropWhile property = rest := by
  rw [List.dropWhile_append_of_pos all]
  cases rest with
  | nil => rfl
  | cons item rest => simp [stop item rfl]

end Runs

theorem signBytes_readSign (text : Bytes) :
    signBytes (readSign text).1 ++ (readSign text).2 = text := by
  fun_cases readSign text with
  | case1 => rfl
  | case2 => rfl
  | case3 => rfl

theorem readSign_append {sign : Option Bool} {rest : Bytes}
    (unsigned : ∀ byte ∈ rest.head?, byte ≠ 45 ∧ byte ≠ 43) :
    readSign (signBytes sign ++ rest) = (sign, rest) := by
  match sign with
  | some true => rfl
  | some false => rfl
  | none =>
      change readSign rest = _
      fun_cases readSign rest with
      | case1 => exact ((unsigned 45 rfl).1 rfl).elim
      | case2 => exact ((unsigned 43 rfl).2 rfl).elim
      | case3 => rfl

theorem fractionBytes_readFraction (text : Bytes) :
    fractionBytes (readFraction text) <+: text := by
  fun_cases readFraction text with
  | case1 rest =>
      exact List.cons_prefix_cons.mpr ⟨rfl, List.takeWhile_prefix _⟩
  | case2 => exact List.nil_prefix

theorem exponentBytes_readExponent (text : Bytes) :
    exponentBytes (readExponent text) <+: text := by
  fun_cases readExponent text with
  | case1 => exact List.nil_prefix
  | case2 marker rest isMarker nonempty =>
      refine List.cons_prefix_cons.mpr ⟨rfl, ?_⟩
      conv_rhs => rw [← signBytes_readSign rest]
      exact List.prefix_append_right_inj _ |>.mpr (List.takeWhile_prefix _)
  | case3 => exact List.nil_prefix
  | case4 => exact List.nil_prefix

theorem bytes_prefix_of_strtod {text : Bytes} {decimal : Decimal}
    (found : strtod text = some decimal) : decimal.bytes <+: text := by
  unfold strtod at found
  dsimp only at found
  split at found
  · obtain rfl := Option.some.inj found
    have fractionSplit := List.prefix_iff_eq_append.mp
      (fractionBytes_readFraction ((readSign text).2.dropWhile isDigit))
    have exponentPrefix := exponentBytes_readExponent
      (((readSign text).2.dropWhile isDigit).drop
        (fractionBytes
          (readFraction ((readSign text).2.dropWhile isDigit))).length)
    conv_rhs => rw [← signBytes_readSign text,
      ← List.takeWhile_append_dropWhile (p := isDigit) (l := (readSign text).2),
      ← fractionSplit]
    simp only [Decimal.bytes, List.prefix_append_right_inj]
    exact exponentPrefix
  · cases found

theorem exponentBytes_head (exponent : Option Exponent) :
    ∀ byte ∈ (exponentBytes exponent).head?, byte = 101 ∨ byte = 69 := by
  cases exponent with
  | none => simp [exponentBytes]
  | some exponent => simpa [exponentBytes, Exponent.bytes] using exponent.isMarker

theorem not_isDigit_exponentBytes (exponent : Option Exponent) :
    ∀ byte ∈ (exponentBytes exponent).head?, isDigit byte = false := by
  intro byte head
  obtain rfl | rfl := exponentBytes_head exponent byte head
  · rfl
  · rfl

theorem ne_sign_of_isDigit {byte : UInt8} (digit : isDigit byte = true) :
    byte ≠ 45 ∧ byte ≠ 43 := by
  constructor
  · rintro rfl
    cases digit
  · rintro rfl
    cases digit

theorem readExponent_exponentBytes (exponent : Option Exponent) :
    readExponent (exponentBytes exponent) = exponent := by
  cases exponent with
  | none => rfl
  | some exponent =>
      have unsigned : ∀ byte ∈ exponent.digits.head?, byte ≠ 45 ∧ byte ≠ 43 :=
        fun byte head => ne_sign_of_isDigit
          (exponent.allDigits byte (List.mem_of_mem_head? head))
      have read : readSign (signBytes exponent.sign ++ exponent.digits) =
          (exponent.sign, exponent.digits) := readSign_append unsigned
      have digits : exponent.digits.takeWhile isDigit = exponent.digits :=
        List.takeWhile_eq_self_iff.mpr exponent.allDigits
      simp only [exponentBytes, Option.elim_some, Exponent.bytes, readExponent,
        read, digits, dif_pos exponent.isMarker, dif_pos exponent.nonempty]

theorem readFraction_append {fraction : Option Bytes} {exponent : Option Exponent}
    (digits : ∀ digits ∈ fraction, ∀ digit ∈ digits, isDigit digit = true) :
    readFraction (fractionBytes fraction ++ exponentBytes exponent) =
      fraction := by
  cases fraction with
  | some fraction =>
      exact congrArg some (takeWhile_append_of_stop (digits fraction rfl)
        (not_isDigit_exponentBytes exponent))
  | none =>
      have head := exponentBytes_head exponent
      change readFraction (exponentBytes exponent) = none
      generalize exponentBytes exponent = text at head
      fun_cases readFraction text with
      | case1 rest => exact absurd (head 46 rfl) (by decide)
      | case2 => rfl

namespace Decimal

/-- Behind the whole digits no further digit follows. -/
theorem stop_of_whole (decimal : Decimal) :
    ∀ byte ∈ (fractionBytes decimal.fraction ++
        exponentBytes decimal.exponent).head?, isDigit byte = false := by
  cases fraction : decimal.fraction with
  | none => exact not_isDigit_exponentBytes decimal.exponent
  | some digits =>
      intro byte head
      obtain rfl : 46 = byte := Option.some.inj head
      rfl

theorem unsigned_of_whole (decimal : Decimal) :
    ∀ byte ∈ (decimal.whole ++ (fractionBytes decimal.fraction ++
        exponentBytes decimal.exponent)).head?, byte ≠ 45 ∧ byte ≠ 43 := by
  intro byte head
  cases whole : decimal.whole with
  | cons digit digits =>
      have first : digit = byte := by simpa [whole] using head
      have member : byte ∈ decimal.whole := by simp [whole, first]
      exact ne_sign_of_isDigit (decimal.wholeDigits byte member)
  | nil =>
      cases fraction : decimal.fraction with
      | none =>
          have someDigit := decimal.someDigit
          simp [whole, fraction] at someDigit
      | some digits =>
          have first : 46 = byte := by
            simpa [whole, fraction, fractionBytes] using head
          subst first
          decide

/-- A number alone is read as a whole. -/
theorem strtod_bytes (decimal : Decimal) :
    strtod decimal.bytes = some decimal := by
  have sign : readSign (signBytes decimal.sign ++ (decimal.whole ++
      (fractionBytes decimal.fraction ++ exponentBytes decimal.exponent))) =
        (decimal.sign, _) := readSign_append decimal.unsigned_of_whole
  have whole := takeWhile_append_of_stop decimal.wholeDigits
    decimal.stop_of_whole
  have behind := dropWhile_append_of_stop decimal.wholeDigits
    decimal.stop_of_whole
  have fraction : readFraction (fractionBytes decimal.fraction ++
      exponentBytes decimal.exponent) = decimal.fraction :=
    readFraction_append decimal.fractionDigits
  simp only [strtod, bytes, sign, whole, behind, fraction,
    dif_pos decimal.someDigit, List.drop_left, readExponent_exponentBytes]

theorem bytes_ne_nil (decimal : Decimal) : decimal.bytes ≠ [] := by
  intro empty
  simp only [bytes, List.append_eq_nil_iff] at empty
  obtain ⟨_, whole, fraction, _⟩ := empty
  have someDigit := decimal.someDigit
  cases found : decimal.fraction with
  | none => simp [whole, found] at someDigit
  | some digits => simp [found, fractionBytes] at fraction

end Decimal

/-! ### Written integers -/

theorem roundHalfEven_mul (quotient : Nat) {denominator : Nat}
    (positive : 0 < denominator) :
    roundHalfEven (quotient * denominator) denominator = quotient := by
  simp [roundHalfEven, Nat.mul_div_cancel quotient positive, positive]

/-- An integer of at most 53 bits is a double. -/
theorem doubleFloor_one {number : Nat} (small : number < 2 ^ 53) :
    doubleFloor number 1 = number := by
  unfold doubleFloor
  split
  · next below =>
      obtain rfl : number = 0 := by omega
      rfl
  · next above =>
      have nonzero : number ≠ 0 := by omega
      have logarithm : Nat.log2 number ≤ 52 := by
        have := (Nat.log2_lt nonzero).mpr small
        omega
      simp only [Nat.div_one, Nat.one_mul]
      generalize Nat.log2 number = exponent at logarithm
      have split : 2 ^ 52 = 2 ^ (52 - exponent) * 2 ^ exponent := by
        rw [← Nat.pow_add]
        congr 1
        omega
      have exact : roundHalfEven (number * 2 ^ 52) (2 ^ exponent) =
          number * 2 ^ (52 - exponent) := by
        rw [split, ← Nat.mul_assoc]
        exact roundHalfEven_mul _ (Nat.two_pow_pos exponent)
      rw [exact, Nat.mul_assoc, ← split,
        Nat.mul_div_cancel _ (Nat.two_pow_pos 52)]
      have bound : 2 ^ 53 ≤ overflowBound := by
        rw [overflowBound]
        apply Nat.pow_le_pow_right
        · decide
        · decide
      exact Nat.min_eq_right (le_trans small.le bound)

theorem isDigit_of_letter {letter : Char} (digit : letter.isDigit = true) :
    isDigit letter.toNat.toUInt8 = true ∧
      letter.toNat.toUInt8.toNat = letter.toNat := by
  simp only [Char.isDigit, Bool.and_eq_true, decide_eq_true_eq, ge_iff_le,
    UInt32.le_iff_toNat_le] at digit
  have low : 48 ≤ letter.toNat := digit.1
  have high : letter.toNat ≤ 57 := digit.2
  have code : letter.toNat.toUInt8.toNat = letter.toNat := by
    rw [Nat.toUInt8_eq, UInt8.toNat_ofNat']
    omega
  refine ⟨?_, code⟩
  simp only [isDigit, Bool.and_eq_true, decide_eq_true_eq,
    UInt8.le_iff_toNat_le, code]
  exact ⟨low, high⟩

theorem isDigit_of_mem_toString {number : Nat} {digit : UInt8}
    (member : digit ∈ ascii (toString number)) : isDigit digit = true := by
  obtain ⟨letter, letterMember, rfl⟩ := List.mem_map.mp member
  rw [Nat.toString_eq_repr, Nat.toList_repr] at letterMember
  exact (isDigit_of_letter
    (Nat.isDigit_of_mem_toDigits (by decide) (by decide) letterMember)).1

theorem digitsValue_toString (number : Nat) :
    digitsValue (ascii (toString number)) = number := by
  have digits : ∀ letter ∈ Nat.toDigits 10 number, letter.isDigit = true :=
    fun _ => Nat.isDigit_of_mem_toDigits (by decide) (by decide)
  have fold : ∀ letters : List Char, (∀ letter ∈ letters, letter.isDigit = true) →
      ∀ value, (letters.map fun letter => letter.toNat.toUInt8).foldl
        (fun value digit => 10 * value + (digit.toNat - 48)) value =
        Nat.ofDigitChars 10 letters value := by
    intro letters
    induction letters with
    | nil => simp
    | cons letter letters induction =>
        intro digits value
        rw [List.forall_mem_cons] at digits
        rw [List.map_cons, List.foldl_cons, (isDigit_of_letter digits.1).2,
          induction digits.2, Nat.ofDigitChars_cons]
        rfl
  rw [digitsValue, ascii, Nat.toString_eq_repr, Nat.toList_repr,
    fold _ digits, Nat.ofDigitChars_ten_toDigits]

/-- What `%d` prints, as a decimal number. -/
def Decimal.ofInt (value : Int) : Decimal where
  sign := if value < 0 then some true else none
  whole := ascii (toString value.natAbs)
  fraction := none
  exponent := none
  wholeDigits _ member := isDigit_of_mem_toString member
  fractionDigits _ found := nomatch found
  someDigit := by
    left
    intro empty
    rw [ascii, List.map_eq_nil_iff, Nat.toString_eq_repr,
      Nat.toList_repr] at empty
    exact Nat.toDigits_ne_nil empty

theorem ascii_append (front back : String) :
    ascii (front ++ back) = ascii front ++ ascii back := by
  rw [ascii, String.toList_append, List.map_append]
  rfl

theorem Decimal.bytes_ofInt (value : Int) :
    (ofInt value).bytes = ascii (toString value) := by
  rw [Int.toString_eq_repr]
  cases value with
  | ofNat number =>
      have nonneg : ¬ Int.ofNat number < 0 :=
        Int.not_lt.mpr (Int.natCast_nonneg _)
      simp only [bytes, ofInt, if_neg nonneg]
      exact List.append_nil _
  | negSucc number =>
      have negative : Int.negSucc number < 0 := Int.negSucc_lt_zero number
      simp only [bytes, ofInt, if_pos negative]
      have printed : (Int.negSucc number).repr = "-" ++ (number + 1).repr := rfl
      rw [printed, ascii_append]
      exact congrArg (45 :: ·) (List.append_nil _)

theorem Decimal.bytes_ofInt_eq (value : Int) :
    (ofInt value).bytes = (if value < 0 then [45] else []) ++
      ascii (toString value.natAbs) := by
  simp only [bytes, ofInt, Option.elim_none, fractionBytes, exponentBytes,
    List.append_nil]
  split <;> rfl

theorem mem_toString {value : Int} {byte : UInt8}
    (member : byte ∈ ascii (toString value)) :
    byte = 45 ∨ isDigit byte = true := by
  rw [← Decimal.bytes_ofInt, Decimal.bytes_ofInt_eq] at member
  obtain sign | digit := List.mem_append.mp member
  · split at sign
    · exact .inl (List.mem_singleton.mp sign)
    · cases sign
  · exact .inr (isDigit_of_mem_toString digit)

theorem length_toString_le {value : Int} {digits : Nat} (some : 0 < digits)
    (short : value.natAbs < 10 ^ digits) :
    (ascii (toString value)).length ≤ digits + 1 := by
  have whole : (ascii (toString value.natAbs)).length ≤ digits := by
    rw [ascii, List.length_map, Nat.toString_eq_repr, Nat.toList_repr]
    exact (Nat.length_toDigits_le_iff (by decide) some).mpr short
  rw [← Decimal.bytes_ofInt, Decimal.bytes_ofInt_eq, List.length_append]
  split
  · rw [List.length_singleton]
    omega
  · rw [List.length_nil]
    omega

theorem Decimal.integerPart_ofInt {value : Int} (small : value.natAbs < 2 ^ 53) :
    (ofInt value).integerPart = value := by
  have magnitude := doubleFloor_one small
  simp only [integerPart, scale, ofInt, Option.elim_none, Option.getD_none,
    List.length_nil, List.append_nil, digitsValue_toString]
  simp only [Int.natCast_zero, Int.sub_zero, Int.toNat_zero, Int.neg_zero,
    Nat.pow_zero, Nat.mul_one, magnitude]
  split
  · split
    · omega
    · simp_all
  · split
    · simp_all
    · omega

end ShelterServer.Foundations
