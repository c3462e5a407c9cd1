import TickHost.Binary.Basic

/-!
# Shortest decimal text of a binary number

Among the decimals that read back as a given number, the shortest has the fewest digits, and of
those with the fewest it lies nearest to the number; two equally near ones are settled upwards.  A
decimal reads back exactly when it lies between the midpoints to the two neighbouring codes, the
midpoints included when the code is even.
-/

namespace TickHost

/-! ## 1. Decimals -/

/-- The decimal `digits * 10 ^ exponent`. -/
structure Decimal where
  /-- The digits, as one natural number. -/
  digits : Nat
  /-- The power of ten. -/
  exponent : Int
  deriving DecidableEq, Repr

namespace Decimal

/-- Numerator and denominator of a decimal. -/
def ratio (d : Decimal) : Nat × Nat :=
  match d.exponent with
  | .ofNat e => (d.digits * Nat.pow 10 e, 1)
  | .negSucc e => (d.digits, Nat.pow 10 (e + 1))

/-- The same decimal without zeros at the end of its fraction. -/
def trim (d : Decimal) : Decimal :=
  if h : d.digits ≠ 0 ∧ d.digits % 10 = 0 ∧ d.exponent < 0 then
    trim ⟨d.digits / 10, d.exponent + 1⟩
  else d
  termination_by d.digits
  decreasing_by exact Nat.div_lt_self (Nat.pos_of_ne_zero h.1) (by decide)

/-- Positional text without an exponent: zeros fill the gap to the point on either side, and a whole
number has no point. -/
def positional (d : Decimal) : String :=
  let text := Nat.repr d.digits
  match d.exponent with
  | .ofNat e => text.pushn '0' e
  | .negSucc e =>
    let places := e + 1
    let padded := "".pushn '0' (places + 1 - text.length) ++ text
    let cut := padded.length - places
    String.ofList (padded.toList.take cut) ++ "." ++ String.ofList (padded.toList.drop cut)

/-- The code nearest to a decimal. -/
def nearestCode (F : Format) (d : Decimal) : Nat := F.nearest d.ratio.1 d.ratio.2

end Decimal

/-! ## 2. The search -/

namespace Format

/-- Twice the lower midpoint, the magnitude and the upper midpoint of a code, in half units. -/
def bounds (F : Format) (code : Nat) : Nat × Nat × Nat :=
  let here := F.units code
  (F.units (code - 1) + here, 2 * here, here + F.units (code + 1))

/-- Whether the decimal reads back as `code`. -/
def readsBack (F : Format) (code : Nat) (d : Decimal) : Bool :=
  let (low, _, high) := F.bounds code
  let (num, den) := d.ratio
  let point := 2 * num * F.one
  if code % 2 == 0 then low * den ≤ point && point ≤ high * den
  else low * den < point && point < high * den

/-- How many decimal digits `n` has. -/
def decimalLength (n : Nat) : Nat := (Nat.repr n).length

/-- The power of ten of the leading digit of a positive `num / den`.  Below one it is read off the
inverse, whose powers of ten are the only ones with a leading digit of their own. -/
def leadingExponent (num den : Nat) : Int :=
  if den ≤ num then decimalLength (num / den) - 1
  else
    let k := decimalLength (den / num)
    if num * Nat.pow 10 (k - 1) == den then 1 - k else -k

/-- The two neighbours of `num / den` on the grid of multiples of `10 ^ exponent`, from below and
from above, and whether the upper one is at least as near. -/
def neighbours (num den : Nat) (exponent : Int) : Decimal × Decimal × Bool :=
  let (n, d) := match exponent with
    | .ofNat e => (num, den * Nat.pow 10 e)
    | .negSucc e => (num * Nat.pow 10 (e + 1), den)
  (⟨n / d, exponent⟩, ⟨n / d + 1, exponent⟩, d ≤ 2 * (n % d))

/-- The first grid, from `places` more digits on, with a neighbour that reads back. -/
def searchFrom (F : Format) (code : Nat) (lead : Int) : Nat → Nat → Decimal
  | 0, _ => ⟨0, 0⟩
  | tries + 1, places =>
    let (below, above, up) := neighbours (F.units code) F.one (lead - places)
    let lower := F.readsBack code below
    let upper := F.readsBack code above
    if lower && upper then (if up then above else below)
    else if lower then below
    else if upper then above
    else searchFrom F code lead tries (places + 1)

/-- The shortest decimal that reads back as a finite, positive code. -/
def shortest (F : Format) (code : Nat) : Decimal :=
  (searchFrom F code (leadingExponent (F.units code) F.one) (F.fractionBits + 1) 0).trim

end Format

/-! ## 3. Text -/

namespace Binary

variable {F : Format}

/-- The shortest positional text, `NaN`, or `inf` with its sign. -/
def text (x : Binary F) : String :=
  if x.isNaN then "NaN"
  else
    (if x.negative then "-" else "")
      ++ (if x.isInfinite then "inf"
          else if x.isZero then "0"
          else (F.shortest x.code).positional)

/-- The shortest positional text, with a point in every finite number. -/
def pointedText (x : Binary F) : String :=
  let shown := x.text
  if x.isFinite && !shown.toList.contains '.' then shown ++ ".0" else shown

end Binary

end TickHost
