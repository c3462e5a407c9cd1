import Mathlib.Algebra.GroupWithZero.Nat
import Mathlib.Data.Nat.Dist
import Mathlib.Order.Monotone.Basic
import TickHost.Binary.Arithmetic

/-!
# Rounding to the nearest code

Rounding is a computation on quotients and remainders.  What it is for is said here without them:
the code that comes out has the magnitude nearest to the quotient, and of two equally near ones the
even code (`Format.Nearest`).

* `Format.units_scaled`: a code is a significand and a scale, and its magnitude is the significand
  doubled that many times.  So codes order magnitudes (`Format.units_strictMono`).
* `Format.nearest_rounded`: what is computed is nearest.  A magnitude on the grid of the scale is no
  nearer, because the significand was rounded on that grid; one below the grid is further away than
  the first one on it.
* `Format.Nearest.mono`: a larger quotient has no smaller nearest code.  Otherwise the two quotients
  would be the same one, halfway between two even codes, with an odd code nearer to it.
-/

namespace TickHost

/-! ## 1. Whole numbers -/

/-- The rounded quotient is one of the two whole numbers around the quotient. -/
theorem nearestEven_cases (num den : Nat) :
    (nearestEven num den = num / den ∧
      (2 * (num % den) < den ∨ 2 * (num % den) = den ∧ num / den % 2 = 0)) ∨
    (nearestEven num den = num / den + 1 ∧
      (den < 2 * (num % den) ∨ 2 * (num % den) = den ∧ num / den % 2 = 1)) := by
  simp only [nearestEven]
  split
  · exact Or.inl ⟨rfl, Or.inl ‹_›⟩
  · split
    · exact Or.inr ⟨rfl, Or.inl ‹_›⟩
    · omega

/-- No whole number lies nearer to the quotient than the rounded one. -/
theorem nearestEven_nearest (num : Nat) {den : Nat} (hden : 0 < den) (i : Nat) :
    Nat.dist (nearestEven num den * den) num ≤ Nat.dist (i * den) num := by
  have hnum : num / den * den + num % den = num := Nat.div_add_mod' num den
  have hrest := Nat.mod_lt num hden
  have hgrid : i * den ≤ num / den * den ∨ num / den * den + den ≤ i * den := by
    rcases Nat.lt_or_ge (num / den) i with hi | hi
    · exact Or.inr (Nat.succ_mul (num / den) den ▸ Nat.mul_le_mul_right den hi)
    · exact Or.inl (Nat.mul_le_mul_right den hi)
  simp only [Nat.dist]
  rcases nearestEven_cases num den with ⟨hround, hhalf⟩ | ⟨hround, hhalf⟩
  · rw [hround]
    omega
  · rw [hround, Nat.succ_mul]
    omega

/-- The rounded quotient is even if another whole number lies as near. -/
theorem nearestEven_even {num den i : Nat} (hden : 0 < den) (hi : i ≠ nearestEven num den)
    (htie : Nat.dist (i * den) num = Nat.dist (nearestEven num den * den) num) :
    nearestEven num den % 2 = 0 := by
  have hnum : num / den * den + num % den = num := Nat.div_add_mod' num den
  have hrest := Nat.mod_lt num hden
  have hgrid : i * den + den ≤ num / den * den ∨ i = num / den ∨ i = num / den + 1 ∨
      num / den * den + den + den ≤ i * den := by
    rcases Nat.lt_or_ge i (num / den) with hlow | hlow
    · exact Or.inl (Nat.succ_mul i den ▸ Nat.mul_le_mul_right den hlow)
    · rcases Nat.lt_or_ge (num / den + 1) i with hhigh | hhigh
      · have := Nat.mul_le_mul_right den hhigh
        rw [Nat.succ_mul, Nat.succ_mul] at this
        exact Or.inr (Or.inr (Or.inr this))
      · omega
  simp only [Nat.dist] at htie
  rcases nearestEven_cases num den with ⟨hround, hhalf⟩ | ⟨hround, hhalf⟩
  · rw [hround] at hi htie ⊢
    rcases hgrid with hgrid | rfl | rfl | hgrid
    · omega
    · exact absurd rfl hi
    · rw [Nat.succ_mul] at htie
      omega
    · omega
  · rw [hround] at hi htie ⊢
    rw [Nat.succ_mul] at htie
    rcases hgrid with hgrid | rfl | rfl | hgrid
    · omega
    · omega
    · exact absurd rfl hi
    · omega

/-- A quotient at most a whole number is rounded to no more than it. -/
theorem nearestEven_le {num den i : Nat} (hden : 0 < den) (h : num ≤ i * den) :
    nearestEven num den ≤ i := by
  have hnum : num / den * den + num % den = num := Nat.div_add_mod' num den
  have hfloor : num / den ≤ i := Nat.div_le_of_le_mul (Nat.mul_comm den i ▸ h)
  rcases nearestEven_cases num den with ⟨hround, -⟩ | ⟨hround, hhalf⟩
  · exact hround ▸ hfloor
  · rcases Nat.lt_or_eq_of_le hfloor with hlt | rfl
    · exact hround ▸ hlt
    · omega

/-- A quotient at least a whole number is rounded to no less than it. -/
theorem le_nearestEven {num den i : Nat} (hden : 0 < den) (h : i * den ≤ num) :
    i ≤ nearestEven num den := by
  have hfloor : i ≤ num / den := (Nat.le_div_iff_mul_le hden).mpr h
  rcases nearestEven_cases num den with ⟨hround, -⟩ | ⟨hround, -⟩ <;> omega

namespace Format

variable {F : Format} {num den : Nat}

/-! ## 2. Magnitudes -/

/-- How many codes share an exponent. -/
def ones (F : Format) : Nat := Nat.pow 2 F.fractionBits

theorem ones_pos (F : Format) : 0 < F.ones := Nat.two_pow_pos _

/-- A significand of that many digits may stand under a scale: it has the hidden bit, unless the
scale is zero, and no digit too many.  The next power of two counts as one of these. -/
def Fits (F : Format) (k m : Nat) : Prop := (k = 0 ∨ F.ones ≤ m) ∧ m ≤ 2 * F.ones

/-- **The magnitude of a code** is its significand, doubled as often as its scale says. -/
theorem units_scaled {k m : Nat} (h : F.Fits k m) :
    F.units (k * F.ones + m) = m * Nat.pow 2 k := by
  have hones := F.ones_pos
  obtain ⟨hlow, hhigh⟩ := h
  simp only [units]
  change (if k * F.ones + m < F.ones then _ else
    (F.ones + (k * F.ones + m) % F.ones) * Nat.pow 2 ((k * F.ones + m) / F.ones - 1)) = _
  rcases Nat.lt_trichotomy m F.ones with hm | rfl | hm
  · obtain rfl := hlow.resolve_right (Nat.not_le.mpr hm)
    rw [Nat.zero_mul, Nat.zero_add, if_pos hm]
    exact (Nat.mul_one m).symm
  · rw [← Nat.succ_mul, if_neg (Nat.not_lt.mpr (Nat.le_mul_of_pos_left _ (Nat.succ_pos k))),
      Nat.mul_mod_left, Nat.mul_div_cancel _ hones]
    rfl
  · rw [if_neg (by omega)]
    rcases Nat.lt_or_eq_of_le hhigh with hlt | rfl
    · have hcode : k * F.ones + m = (m - F.ones) + (k + 1) * F.ones := by
        rw [Nat.succ_mul]
        omega
      rw [hcode, Nat.add_mul_mod_self_right, Nat.mod_eq_of_lt (by omega),
        Nat.add_mul_div_right _ _ hones, Nat.div_eq_of_lt (by omega)]
      congr 1
      · omega
      · congr 1
        omega
    · have hcode : k * F.ones + 2 * F.ones = (k + 2) * F.ones := (Nat.add_mul k 2 F.ones).symm
      rw [hcode, Nat.mul_mod_left, Nat.mul_div_cancel _ hones]
      change F.ones * 2 ^ (k + 1) = 2 * F.ones * 2 ^ k
      rw [Nat.pow_succ, Nat.mul_comm 2 F.ones, Nat.mul_assoc, Nat.mul_comm 2]

/-- Every code is a significand under a scale. -/
theorem exists_scaled (F : Format) (code : Nat) :
    ∃ k m, code = k * F.ones + m ∧ F.Fits k m ∧ m < 2 * F.ones := by
  have hones := F.ones_pos
  rcases Nat.lt_or_ge code F.ones with hlow | hhigh
  · exact ⟨0, code, by omega, ⟨Or.inl rfl, by omega⟩, by omega⟩
  · have hsplit := Nat.div_add_mod' code F.ones
    have hrest := Nat.mod_lt code hones
    have hexponent : 0 < code / F.ones := Nat.div_pos hhigh hones
    obtain ⟨k, hk⟩ := Nat.exists_eq_succ_of_ne_zero (Nat.ne_of_gt hexponent)
    rw [hk, Nat.succ_mul] at hsplit
    exact ⟨k, F.ones + code % F.ones, by omega, ⟨Or.inr (by omega), by omega⟩, by omega⟩

/-- **Codes order magnitudes.** -/
theorem units_strictMono (F : Format) : StrictMono F.units := by
  refine strictMono_nat_of_lt_succ fun code => ?_
  obtain ⟨k, m, rfl, hfits, hm⟩ := F.exists_scaled code
  have hnext : F.Fits k (m + 1) := ⟨hfits.1.imp_right fun h => by omega, hm⟩
  rw [units_scaled hfits, Nat.add_assoc, units_scaled hnext]
  exact Nat.mul_lt_mul_of_pos_right (Nat.lt_succ_self m) (Nat.two_pow_pos k)

/-! ## 3. The nearest code -/

/-- The magnitude of a code lies nearest to `num / den` units; of two equally near ones it is that
of the even code. -/
structure Nearest (F : Format) (num den code : Nat) : Prop where
  nearest : ∀ c, Nat.dist (F.units code * den) num ≤ Nat.dist (F.units c * den) num
  even : ∀ c, c ≠ code → Nat.dist (F.units c * den) num = Nat.dist (F.units code * den) num →
    code % 2 = 0

/-- The rounded code, on a range of codes without an end. -/
def rounded (F : Format) (num den : Nat) : Nat :=
  F.scale num den * F.ones + nearestEven num (den * Nat.pow 2 (F.scale num den))

theorem nearestUnits_eq (F : Format) (num den : Nat) :
    F.nearestUnits num den = min (F.rounded num den) F.infinity := rfl

/-- The scale leaves a significand of as many digits as there is room for. -/
theorem scale_spec (F : Format) (num : Nat) (hden : 0 < den) :
    num < 2 * F.ones * (den * Nat.pow 2 (F.scale num den)) ∧
      (F.scale num den = 0 ∨ F.ones * (den * Nat.pow 2 (F.scale num den)) ≤ num) := by
  have hpower (k : Nat) : Nat.pow 2 (F.fractionBits + k) * den = F.ones * (den * Nat.pow 2 k) := by
    change 2 ^ (F.fractionBits + k) * den = 2 ^ F.fractionBits * (den * 2 ^ k)
    rw [Nat.pow_add, Nat.mul_assoc, Nat.mul_comm den]
  have hbelow : num / den < Nat.pow 2 (Nat.log2 (num / den) + 1) := Nat.lt_log2_self
  constructor
  · have hroom : Nat.log2 (num / den) + 1 ≤ F.fractionBits + (F.scale num den + 1) := by
      rw [scale]
      omega
    have hlt : num / den < Nat.pow 2 (F.fractionBits + (F.scale num den + 1)) :=
      Nat.lt_of_lt_of_le hbelow (Nat.pow_le_pow_right Nat.two_pos hroom)
    have hnum := (Nat.div_lt_iff_lt_mul hden).mp hlt
    rw [hpower] at hnum
    change num < F.ones * (den * 2 ^ (F.scale num den + 1)) at hnum
    change num < 2 * F.ones * (den * 2 ^ F.scale num den)
    rw [Nat.pow_succ, ← Nat.mul_assoc den, Nat.mul_comm _ 2, ← Nat.mul_assoc, Nat.mul_comm F.ones]
      at hnum
    exact hnum
  · rcases Nat.eq_zero_or_pos (F.scale num den) with hzero | hpositive
    · exact Or.inl hzero
    · refine Or.inr ?_
      have hlog : F.fractionBits + F.scale num den = Nat.log2 (num / den) := by
        rw [scale] at hpositive ⊢
        omega
      have hnonzero : num / den ≠ 0 := by
        rintro hnone
        rw [scale, hnone] at hpositive
        simp at hpositive
      rw [← hpower, hlog]
      exact (Nat.le_div_iff_mul_le hden).mp (Nat.log2_self_le hnonzero)

/-- So the rounded significand fits under it. -/
theorem fits_rounded (F : Format) (num : Nat) (hden : 0 < den) :
    F.Fits (F.scale num den) (nearestEven num (den * Nat.pow 2 (F.scale num den))) := by
  obtain ⟨hhigh, hlow⟩ := F.scale_spec num hden
  have hunit : 0 < den * Nat.pow 2 (F.scale num den) := Nat.mul_pos hden (Nat.two_pow_pos _)
  exact ⟨hlow.imp_right (le_nearestEven hunit), nearestEven_le hunit (Nat.le_of_lt hhigh)⟩

/-- A magnitude lies on the grid of a scale, or below the first magnitude with that scale. -/
theorem units_on_grid (F : Format) (k c : Nat) :
    (∃ i, F.units c = i * Nat.pow 2 k) ∨ k ≠ 0 ∧ F.units c < F.ones * Nat.pow 2 k := by
  obtain ⟨l, j, rfl, hfits, hj⟩ := F.exists_scaled c
  rw [units_scaled hfits]
  rcases Nat.lt_or_ge l k with hlt | hge
  · refine Or.inr ⟨Nat.ne_of_gt (Nat.zero_lt_of_lt hlt), ?_⟩
    calc j * 2 ^ l < 2 * F.ones * 2 ^ l := Nat.mul_lt_mul_of_pos_right hj (Nat.two_pow_pos l)
      _ = F.ones * 2 ^ (l + 1) := by
        rw [Nat.pow_succ, Nat.mul_comm 2 F.ones, Nat.mul_assoc, Nat.mul_comm 2]
      _ ≤ F.ones * 2 ^ k := Nat.mul_le_mul_left _ (Nat.pow_le_pow_right Nat.two_pos hlt)
  · refine Or.inl ⟨j * Nat.pow 2 (l - k), ?_⟩
    change j * 2 ^ l = j * 2 ^ (l - k) * 2 ^ k
    rw [Nat.mul_assoc, ← Nat.pow_add, Nat.sub_add_cancel hge]

/-- What lies below the grid is further away than the rounded magnitude. -/
theorem dist_rounded_lt {c : Nat} (hden : 0 < den) (hscale : F.scale num den ≠ 0)
    (hc : F.units c < F.ones * Nat.pow 2 (F.scale num den)) :
    Nat.dist (F.units (F.rounded num den) * den) num < Nat.dist (F.units c * den) num := by
  have hlow := (F.scale_spec num hden).2.resolve_left hscale
  have hunit : 0 < den * Nat.pow 2 (F.scale num den) := Nat.mul_pos hden (Nat.two_pow_pos _)
  have hfirst := nearestEven_nearest num hunit F.ones
  have hbelow := Nat.mul_lt_mul_of_pos_right hc hden
  rw [Nat.mul_assoc, Nat.mul_comm (Nat.pow 2 _) den] at hbelow
  rw [rounded, units_scaled (F.fits_rounded num hden), Nat.mul_assoc,
    Nat.mul_comm (Nat.pow 2 _) den]
  simp only [Nat.dist] at hfirst ⊢
  omega

/-- **The rounded code is the nearest one.** -/
theorem nearest_rounded (F : Format) (hbits : 0 < F.fractionBits) (hden : 0 < den) :
    F.Nearest num den (F.rounded num den) := by
  have hunits := units_scaled (F.fits_rounded num hden)
  rw [← rounded] at hunits
  have hunit : 0 < den * Nat.pow 2 (F.scale num den) := Nat.mul_pos hden (Nat.two_pow_pos _)
  have hscaled (i : Nat) : i * Nat.pow 2 (F.scale num den) * den =
      i * (den * Nat.pow 2 (F.scale num den)) := by
    rw [Nat.mul_assoc, Nat.mul_comm _ den]
  constructor
  · intro c
    rcases F.units_on_grid (F.scale num den) c with ⟨i, hi⟩ | ⟨hscale, hbelow⟩
    · rw [hunits, hi, hscaled, hscaled]
      exact nearestEven_nearest num hunit i
    · exact Nat.le_of_lt (dist_rounded_lt hden hscale hbelow)
  · intro c hne htie
    rcases F.units_on_grid (F.scale num den) c with ⟨i, hi⟩ | ⟨hscale, hbelow⟩
    · have hother : i ≠ nearestEven num (den * Nat.pow 2 (F.scale num den)) := by
        rintro rfl
        exact hne (F.units_strictMono.injective (hi.trans hunits.symm))
      rw [hunits, hi, hscaled, hscaled] at htie
      have heven := nearestEven_even hunit hother htie
      have hones : F.ones % 2 = 0 := by
        obtain ⟨n, hn⟩ := Nat.exists_eq_succ_of_ne_zero (Nat.ne_of_gt hbits)
        rw [ones, hn]
        exact Nat.mul_mod_left (2 ^ n) 2
      rw [rounded, Nat.add_mod, Nat.mul_mod, hones, heven, Nat.mul_zero]
    · exact absurd htie (Nat.ne_of_gt (dist_rounded_lt hden hscale hbelow))

/-- A quotient is not below the midpoint of its nearest magnitude and a smaller one. -/
theorem Nearest.midpoint_le {code c : Nat} (h : F.Nearest num den code) (hden : 0 < den)
    (hc : c < code) : F.units c * den + F.units code * den ≤ 2 * num := by
  have hnearest := h.nearest c
  have hunits := Nat.mul_lt_mul_of_pos_right (F.units_strictMono hc) hden
  simp only [Nat.dist] at hnearest
  omega

/-- A quotient is not above the midpoint of its nearest magnitude and a larger one. -/
theorem Nearest.le_midpoint {code c : Nat} (h : F.Nearest num den code) (hden : 0 < den)
    (hc : code < c) : 2 * num ≤ F.units code * den + F.units c * den := by
  have hnearest := h.nearest c
  have hunits := Nat.mul_lt_mul_of_pos_right (F.units_strictMono hc) hden
  simp only [Nat.dist] at hnearest
  omega

/-- **A larger quotient has no smaller nearest code**, and a quotient has one nearest code. -/
theorem Nearest.mono {num' den' code code' : Nat} (h : F.Nearest num den code)
    (h' : F.Nearest num' den' code') (hden : 0 < den) (hden' : 0 < den')
    (hle : num * den' ≤ num' * den) : code ≤ code' := by
  by_contra hgt
  rw [Nat.not_le] at hgt
  -- the first quotient is not below the midpoint of the two magnitudes, the second not above it
  have habove := h.midpoint_le hden hgt
  have hbelow := h'.le_midpoint hden' hgt
  have hcross : (F.units code' * den + F.units code * den) * den' =
      (F.units code' * den' + F.units code * den') * den := by
    rw [← Nat.add_mul, ← Nat.add_mul, Nat.mul_right_comm]
  have hnum : F.units code' * den + F.units code * den = 2 * num := by
    refine Nat.le_antisymm habove (Nat.le_of_mul_le_mul_right ?_ hden')
    have := Nat.mul_le_mul_right den hbelow
    rw [hcross, Nat.mul_assoc]
    rw [Nat.mul_assoc] at this
    omega
  have hnum' : F.units code' * den' + F.units code * den' = 2 * num' := by
    refine Nat.le_antisymm (Nat.le_of_mul_le_mul_right ?_ hden) hbelow
    rw [← hcross, hnum, Nat.mul_assoc, Nat.mul_assoc]
    omega
  -- so both lie at the midpoint, and both codes are even
  have heven := h.even code' (Nat.ne_of_lt hgt) (by simp only [Nat.dist]; omega)
  have heven' := h'.even code (Nat.ne_of_gt hgt) (by simp only [Nat.dist]; omega)
  -- the code after the smaller one is odd, and nearer
  have hlt : code' + 1 < code := by omega
  have hnext := h'.le_midpoint hden' (Nat.lt_succ_self code')
  have hunits := Nat.mul_lt_mul_of_pos_right (F.units_strictMono hlt) hden'
  rw [Nat.succ_eq_add_one] at hnext
  omega

/-- **Rounding is monotone.** -/
theorem nearestUnits_mono (F : Format) (hbits : 0 < F.fractionBits) {num' den' : Nat}
    (hden : 0 < den) (hden' : 0 < den') (hle : num * den' ≤ num' * den) :
    F.nearestUnits num den ≤ F.nearestUnits num' den' := by
  have hmono := (F.nearest_rounded hbits hden).mono (F.nearest_rounded hbits hden') hden hden' hle
  rw [nearestUnits_eq, nearestUnits_eq]
  omega

/-- A rounded code that is finite is the nearest one. -/
theorem nearest_of_finite (F : Format) (hbits : 0 < F.fractionBits) (hden : 0 < den)
    (hfinite : F.nearestUnits num den < F.infinity) :
    F.Nearest num den (F.nearestUnits num den) := by
  have hsame : F.nearestUnits num den = F.rounded num den := by
    rw [nearestUnits_eq] at hfinite ⊢
    omega
  exact hsame ▸ F.nearest_rounded hbits hden

end Format

end TickHost
