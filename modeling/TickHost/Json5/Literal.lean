import TickHost.Binary.Arithmetic
import TickHost.Binary.Shortest

/-!
# Number literals

A number literal is kept as it was written: its sign, its digits, and whether it has a point or an
exponent.  The same literal is read in one of two ways, which are those of `serde_json5`.

* As a real number (`Literal.real`): hexadecimal digits stand for 32 bits and take no sign; a
  decimal is rounded to 64 bits and may not overflow; infinity and not-a-number take no plus sign.
* As an integer (`Literal.integer`), if it is written like one: hexadecimal digits as before, a
  decimal within the range of 64 signed bits.  Which way is taken hangs on the characters alone, so
  that behind a sign the hexadecimal digit e passes for the mark of an exponent.
-/

namespace TickHost.Json5

/-- A sign that is written out. -/
inductive Sign where
  | plus
  | minus
  deriving DecidableEq, Repr

/-- A number as it was written. -/
inductive Literal where
  /-- The word for infinity. -/
  | infinity (sign : Option Sign)
  /-- The word for not-a-number. -/
  | nan (sign : Option Sign)
  /-- Hexadecimal digits. -/
  | hex (sign : Option Sign) (digits : List Nat)
  /-- Decimal digits before the point, after the point if there is one, and an exponent if there
  is one. -/
  | decimal (sign : Option Sign) (whole : List Nat) (fraction : Option (List Nat))
      (exponent : Option Int)
  deriving DecidableEq, Repr

/-- The number with these digits in the given base. -/
def ofDigits (base : Nat) (digits : List Nat) : Nat := digits.foldl (fun n d => base * n + d) 0

/-- Why a value cannot be read. -/
inductive DataFault where
  /-- A number was expected. -/
  | number
  /-- A hexadecimal number has too many digits. -/
  | hexNumber
  /-- A number is too large. -/
  | tooLarge
  /-- An integer is out of range. -/
  | integer
  /-- An escape names half of a surrogate pair. -/
  | hexEscape
  /-- A field is given twice. -/
  | duplicate (field : String)
  /-- A value has another shape than the one expected. -/
  | invalidType (found expected : String)
  deriving DecidableEq, Repr

/-- The text of a fault. -/
def DataFault.message : DataFault → String
  | number => "error parsing number"
  | hexNumber => "error parsing hex"
  | tooLarge => "error parsing number: too large"
  | integer => "error parsing integer"
  | hexEscape => "error parsing hex prefix"
  | duplicate field => "duplicate field \x60" ++ field ++ "\x60"
  | invalidType found expected => s!"invalid type: {found}, expected {expected}"

/-! ## 1. Decimals -/

/-- How far beyond the decimal point a positive magnitude can reach before it is too large or too
small for any binary number of 64 bits. -/
def largestReach : Int := 310

/-- See `largestReach`. -/
def smallestReach : Int := -324

/-- The code nearest to a decimal with these digits and this power of ten.  The position of the
leading digit settles the far ends of the range by itself. -/
def decimalCode (digits : List Nat) (exponent : Int) : Nat :=
  let digits := digits.dropWhile (· == 0)
  let reach := digits.length + exponent
  if digits.isEmpty then 0
  else if largestReach ≤ reach then Format.double.infinity
  else if reach ≤ smallestReach then 0
  else Decimal.nearestCode .double ⟨ofDigits 10 digits, exponent⟩

/-- Hexadecimal digits as a number of 32 bits. -/
def hexValue (digits : List Nat) : Except DataFault Nat :=
  let n := ofDigits 16 digits
  if n < UInt32.size then .ok n else .error .hexNumber

namespace Literal

/-! ## 2. Real numbers -/

/-- The real number that a literal stands for. -/
def real : Literal → Except DataFault Binary64
  | infinity (some .plus) | nan (some .plus) => .error .tooLarge
  | infinity sign => .ok (.infinite _ (sign == some .minus))
  | nan _ => .ok (.nan _)
  | hex none digits => (hexValue digits).map .ofNat
  | hex (some _) _ => .error .number
  | decimal sign whole fraction exponent =>
    let places := fraction.getD []
    let code := decimalCode (whole ++ places) (exponent.getD 0 - places.length)
    if code == Format.double.infinity then .error .tooLarge
    else .ok ⟨sign == some .minus, code⟩

/-! ## 3. Integers -/

/-- The value of the hexadecimal digit that is written like the mark of an exponent. -/
def exponentDigit : Nat := 14

/-- Whether a literal is written like an integer: with a mark for hexadecimal digits at its very
beginning, or else without a point and without any e. -/
def isIntegral : Literal → Bool
  | hex none _ => true
  | hex (some _) digits => !digits.contains exponentDigit
  | decimal _ _ none none => true
  | _ => false

/-- The integer that a literal stands for. -/
def integer : Literal → Except DataFault Int
  | hex none digits => (hexValue digits).map Int.ofNat
  | decimal sign whole none none =>
    let n : Int := ofDigits 10 whole
    let value := if sign = some .minus then -n else n
    if Int64.minValue.toInt ≤ value ∧ value ≤ Int64.maxValue.toInt then .ok value
    else .error .integer
  | _ => .error .integer

end Literal

end TickHost.Json5
