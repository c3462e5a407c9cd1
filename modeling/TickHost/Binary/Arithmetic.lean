import TickHost.Binary.Basic

/-!
# Division, conversion and comparison of binary numbers

Each operation is exact on magnitudes and rounds once.
-/

namespace TickHost.Binary

variable {F G : Format}

/-- The quotient, rounded to nearest even.  Zero by zero and infinity by infinity are not numbers.
-/
def div (x y : Binary F) : Binary F :=
  let sign := x.negative != y.negative
  if x.isNaN || y.isNaN then nan F
  else if x.isInfinite then (if y.isInfinite then nan F else infinite F sign)
  else if y.isInfinite then zero F sign
  else if y.isZero then (if x.isZero then nan F else infinite F sign)
  else ⟨sign, F.nearestUnits (x.units * F.one) y.units⟩

/-- One divided by a number. -/
def inverse (x : Binary F) : Binary F := div (.ofNat 1) x

/-- The same number in another format, rounded to nearest even. -/
def convert (G : Format) (x : Binary F) : Binary G :=
  if x.isNaN then nan G
  else if x.isInfinite then infinite G x.negative
  else ⟨x.negative, G.nearest x.units F.one⟩

/-- The number without its fraction, held within `0 … bound`; not-a-number counts as zero. -/
def truncate (bound : Nat) (x : Binary F) : Nat :=
  if x.isNaN || x.negative then 0
  else if x.isInfinite then bound
  else min (x.units / F.one) bound

/-- Whether `low ≤ x ≤ high` for whole numbers `low` and `high`; no such bound holds of
not-a-number. -/
def between (low high : Nat) (x : Binary F) : Bool :=
  x.isFinite
    && (if x.negative then low == 0 && x.isZero
        else low * F.one ≤ x.units && x.units ≤ high * F.one)

/-- Whether a span of `x` seconds can be held (`from_secs_f32`) in whole seconds of 64 bits and a
fraction: a number from zero up to, but not including, `2 ^ 64`.  Negative zero is a zero. -/
def isDuration (x : Binary F) : Bool :=
  x.isFinite && (if x.negative then x.isZero else x.units < UInt64.size * F.one)

/-- A span of `x` seconds in whole nanoseconds, rounded to nearest even, if it can be held. -/
def nanoseconds? (x : Binary F) : Option Nat :=
  if x.isDuration then some (nearestEven (x.units * 1000000000) F.one) else none

end TickHost.Binary
