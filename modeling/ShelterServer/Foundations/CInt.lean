import Mathlib.Algebra.Order.Group.Int
import Mathlib.Order.Lattice
import ShelterServer.Foundations.ByteString

/-!
# The 32-bit C integer

Values of type `int` are mathematical integers in a fixed range.  An addition
wraps around in two's complement, which is what the compiled code does where
the C standard leaves the result undefined.
-/

namespace ShelterServer.Foundations

def intMin : Int := -2147483648

def intMax : Int := 2147483647

/-- The value is representable as an `int`. -/
def InInt (value : Int) : Prop :=
  intMin ≤ value ∧ value ≤ intMax

instance (value : Int) : Decidable (InInt value) :=
  inferInstanceAs (Decidable (_ ∧ _))

/-- The representative of a mathematical result in the `int` range. -/
def wrapInt (value : Int) : Int :=
  (value - intMin) % 4294967296 + intMin

/-- Conversion to `int` that stops at the ends of the range. -/
def saturateInt (value : Int) : Int :=
  if intMax ≤ value then intMax
  else if value ≤ intMin then intMin
  else value

theorem inInt_of_nonneg {value : Int} (nonneg : 0 ≤ value)
    (bounded : value ≤ intMax) : InInt value :=
  ⟨le_trans (by decide) nonneg, bounded⟩

theorem inInt_wrapInt (value : Int) : InInt (wrapInt value) := by
  unfold InInt wrapInt intMin intMax
  omega

theorem wrapInt_of_inInt {value : Int} (representable : InInt value) :
    wrapInt value = value := by
  unfold InInt intMin intMax at representable
  unfold wrapInt intMin
  omega

theorem wrapInt_wrapInt_add (value added : Int) :
    wrapInt (wrapInt value + added) = wrapInt (value + added) := by
  unfold wrapInt intMin
  omega

/-- A value that would not have fit shows as a negative one. -/
theorem le_intMax_of_wrapInt_nonneg {value : Int} (nonneg : 0 ≤ value)
    (below : value ≤ 2 * intMax + 1) (wrapped : 0 ≤ wrapInt value) :
    value ≤ intMax := by
  unfold wrapInt intMin at wrapped
  unfold intMax at below ⊢
  omega

theorem inInt_saturateInt (value : Int) : InInt (saturateInt value) := by
  unfold InInt saturateInt intMin intMax
  split
  · omega
  · split <;> omega

theorem saturateInt_of_inInt {value : Int} (representable : InInt value) :
    saturateInt value = value := by
  unfold InInt intMin intMax at representable
  unfold saturateInt intMin intMax
  split
  · omega
  · split <;> omega

/-! ## Decimal text -/

/-- `isspace` in the C locale. -/
def isSpace (byte : UInt8) : Bool :=
  byte == 32 || (9 ≤ byte && byte ≤ 13)

/-- The value of the decimal digits at the front of a text. -/
def leadingDigits (text : Bytes) : Nat :=
  (text.takeWhile fun byte => 48 ≤ byte && byte ≤ 57).foldl
    (fun value digit => 10 * value + (digit.toNat - 48)) 0

/-- `strtol(text, NULL, 10)` for 64-bit `long`: white space, a sign, digits;
the value stops at the ends of the range. -/
def strtol (text : Bytes) : Int :=
  match text.dropWhile isSpace with
  | 45 :: digits => max (-9223372036854775808) (-(leadingDigits digits : Int))
  | 43 :: digits => min 9223372036854775807 (leadingDigits digits)
  | digits => min 9223372036854775807 (leadingDigits digits)

/-- `atoi`, the conversion of that value to `int`. -/
def atoi (text : Bytes) : Int :=
  wrapInt (strtol text)

end ShelterServer.Foundations
