/-!
# Binary interchange formats

A floating point number is a sign and a *code*: the exponent field followed by the fraction field,
read as one natural number.  Codes order magnitudes, so the code after `c` is the next larger
magnitude; the code of all ones in the exponent and zeros in the fraction is infinity, and every
larger one is not a number.

The least positive magnitude is the *unit* of a format, and every finite magnitude is a whole
number of units (`Format.units`).  Rounding a quotient to the nearest code is then a computation on
natural numbers alone (`Format.nearest`).
-/

namespace TickHost

/-! ## 1. Formats -/

/-- How many bits a format gives to its exponent and fraction fields. -/
structure Format where
  /-- Bits of the exponent field. -/
  exponentBits : Nat
  /-- Bits of the fraction field. -/
  fractionBits : Nat
  deriving DecidableEq, Repr

namespace Format

/-- The format of 32 bits. -/
def single : Format := ⟨8, 23⟩

/-- The format of 64 bits. -/
def double : Format := ⟨11, 52⟩

/-- Bits of a code. -/
def width (F : Format) : Nat := F.exponentBits + F.fractionBits

/-- The code of infinity. -/
def infinity (F : Format) : Nat := (Nat.pow 2 F.exponentBits - 1) * Nat.pow 2 F.fractionBits

/-- How many units make the number one, as a power of two. -/
def unitShift (F : Format) : Nat := Nat.pow 2 (F.exponentBits - 1) - 2 + F.fractionBits

/-- How many units make the number one. -/
def one (F : Format) : Nat := Nat.pow 2 F.unitShift

/-- The magnitude that a code stands for, in units.  An exponent field of zero means that the
fraction counts units; otherwise the hidden bit stands before the fraction, and each further
exponent doubles. -/
def units (F : Format) (code : Nat) : Nat :=
  let ones := Nat.pow 2 F.fractionBits
  if code < ones then code else (ones + code % ones) * Nat.pow 2 (code / ones - 1)

end Format

/-! ## 2. Rounding -/

/-- The whole number nearest to `num / den`; of two equally near ones, the even one. -/
def nearestEven (num den : Nat) : Nat :=
  let floor := num / den
  let rest := 2 * (num % den)
  if rest < den then floor
  else if den < rest then floor + 1
  else floor + floor % 2

namespace Format

/-- How far the binary point of `num / den` units has to move for the quotient to fit in the
fraction field and its hidden bit. -/
def scale (F : Format) (num den : Nat) : Nat := Nat.log2 (num / den) - F.fractionBits

/-- The code nearest to `num / den` units, ties to even, with infinity above the largest finite
magnitude.  A scale of `k` contributes `k` exponents; a significand that rounds up to the next power
of two carries into the exponent field by itself. -/
def nearestUnits (F : Format) (num den : Nat) : Nat :=
  let k := F.scale num den
  min (k * Nat.pow 2 F.fractionBits + nearestEven num (den * Nat.pow 2 k)) F.infinity

/-- The code nearest to the number `num / den`. -/
def nearest (F : Format) (num den : Nat) : Nat := F.nearestUnits (num * F.one) den

end Format

/-! ## 3. Numbers -/

/-- A number of a format: a sign and a code. -/
structure Binary (F : Format) where
  /-- Whether the sign bit is set. -/
  negative : Bool
  /-- The exponent and fraction fields. -/
  code : Nat
  deriving DecidableEq, Repr

/-- A number of 32 bits. -/
abbrev Binary32 : Type := Binary .single

/-- A number of 64 bits. -/
abbrev Binary64 : Type := Binary .double

namespace Binary

variable {F : Format}

/-- The number whose bit pattern is `bits`; higher bits than the sign are dropped. -/
def ofBits (bits : Nat) : Binary F :=
  ⟨bits / Nat.pow 2 F.width % 2 == 1, bits % Nat.pow 2 F.width⟩

/-- The bit pattern of a number. -/
def toBits (x : Binary F) : Nat := (if x.negative then Nat.pow 2 F.width else 0) + x.code

/-- Not a number: a code above infinity. -/
def isNaN (x : Binary F) : Bool := F.infinity < x.code

/-- An infinity of either sign. -/
def isInfinite (x : Binary F) : Bool := x.code == F.infinity

/-- A number of finite magnitude. -/
def isFinite (x : Binary F) : Bool := x.code < F.infinity

/-- A zero of either sign. -/
def isZero (x : Binary F) : Bool := x.code == 0

/-- The magnitude in units. -/
def units (x : Binary F) : Nat := F.units x.code

/-- A representative not-a-number: the first code above infinity's half of the range. -/
def nan (F : Format) : Binary F := ⟨false, F.infinity + Nat.pow 2 (F.fractionBits - 1)⟩

/-- Infinity of the given sign. -/
def infinite (F : Format) (negative : Bool) : Binary F := ⟨negative, F.infinity⟩

/-- Zero of the given sign. -/
def zero (F : Format) (negative : Bool) : Binary F := ⟨negative, 0⟩

/-- The whole number `n`, rounded if it has more digits than the format. -/
def ofNat (n : Nat) : Binary F := ⟨false, F.nearest n 1⟩

end Binary

end TickHost
