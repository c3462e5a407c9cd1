import TickHost.Proofs.Leftovers
import TickHost.Proofs.Loading
import TickHost.Proofs.Rounding

/-!
# Setting up a host

A host divides one by its rate to know how long a tick lasts.  The quotient becomes a span of time
twice: once for the sampler, when the host is set up, and once for the loop of a run, when the
session has been started already.  Neither can go wrong once the configuration was found valid:

* `between_iff`: a rate in range is positive, and its code is one of those from that of one to that
  of a thousand.  Everything else has a code outside, not-a-number included (`NoRate`).
* `tickTime_of_between`: for such a rate the rounded quotient lies between a thousandth, rounded,
  and one, because rounding is monotone.
* `opening_of_config`: so an attempt to set up a host fails only if the configuration is not valid,
  before anything has happened, and runs have a period at any time.
-/

namespace TickHost

namespace Binary

/-! ## 1. Rates -/

/-- A rate that no host ticks at. -/
inductive NoRate (rate : Binary32) : Prop
  /-- It is not a number. -/
  | nan (h : rate.isNaN = true)
  /-- It is infinite. -/
  | infinite (h : rate.isInfinite = true)
  /-- It is zero. -/
  | zero (h : rate.isZero = true)
  /-- It is too small to have a hidden bit. -/
  | subnormal (h : rate.code < Format.single.ones)
  /-- Its sign bit is set. -/
  | negative (h : rate.negative = true)
  /-- It is less than one. -/
  | below (h : rate.code < (ofNat 1 : Binary32).code)
  /-- It is more than a thousand. -/
  | above (h : (ofNat 1000 : Binary32).code < rate.code)

theorem one_units : (ofNat 1 : Binary32).units = Format.single.one := by decide +kernel

theorem thousand_units : (ofNat 1000 : Binary32).units = 1000 * Format.single.one := by
  decide +kernel

theorem one_code_pos : 0 < (ofNat 1 : Binary32).code := by decide +kernel

theorem thousand_code_lt : (ofNat 1000 : Binary32).code < Format.single.infinity := by
  decide +kernel

/-- **The rates in range are those with a code in range.** -/
theorem between_iff (rate : Binary32) :
    rate.between 1 1000 = true ↔ rate.negative = false ∧
      (ofNat 1 : Binary32).code ≤ rate.code ∧ rate.code ≤ (ofNat 1000 : Binary32).code := by
  have hlow : 1 * Format.single.one ≤ rate.units ↔ (ofNat 1 : Binary32).code ≤ rate.code := by
    rw [Nat.one_mul, ← one_units]
    exact (Format.units_strictMono .single).le_iff_le
  have hhigh : rate.units ≤ 1000 * Format.single.one ↔
      rate.code ≤ (ofNat 1000 : Binary32).code := by
    rw [← thousand_units]
    exact (Format.units_strictMono .single).le_iff_le
  cases hsign : rate.negative with
  | true => simp [between, hsign]
  | false =>
    simp only [between, hsign, Bool.false_eq_true, if_false, Bool.and_eq_true, decide_eq_true_eq,
      isFinite, hlow, hhigh, true_and]
    constructor
    · exact fun h => h.2
    · exact fun h => ⟨Nat.lt_of_le_of_lt h.2 thousand_code_lt, h⟩

theorem noRate_iff (rate : Binary32) : NoRate rate ↔ rate.between 1 1000 = false := by
  have hnormal : Format.single.ones ≤ (ofNat 1 : Binary32).code := by decide +kernel
  have hfinite := thousand_code_lt
  have hpositive := one_code_pos
  rw [← Bool.not_eq_true, between_iff]
  constructor
  · rintro hnone ⟨hsign, hlow, hhigh⟩
    cases hnone with
    | nan h =>
      have := of_decide_eq_true h
      omega
    | infinite h =>
      have := eq_of_beq h
      omega
    | zero h =>
      have := eq_of_beq h
      omega
    | subnormal h | below h | above h => omega
    | negative h => rw [hsign] at h; cases h
  · intro hout
    cases hsign : rate.negative with
    | true => exact .negative hsign
    | false =>
      rcases Nat.lt_or_ge rate.code (ofNat 1 : Binary32).code with hlow | hlow
      · exact .below hlow
      · exact .above (Nat.lt_of_not_le fun hhigh => hout ⟨hsign, hlow, hhigh⟩)

/-! ## 2. How long a tick lasts -/

/-- A thousandth, rounded. -/
def thousandth : Binary32 := ⟨false, Format.single.nearest 1 1000⟩

theorem nearest_thousandth : Format.single.Nearest Format.single.one 1000 thousandth.code := by
  have hfinite : Format.single.nearestUnits Format.single.one 1000 < Format.single.infinity := by
    decide +kernel
  have hcode : thousandth.code = Format.single.nearestUnits Format.single.one 1000 := by
    rw [thousandth, Format.nearest, Nat.one_mul]
  exact hcode ▸ Format.nearest_of_finite .single (by decide) (by decide) hfinite

/-- A time is one divided by a rate, rounded to nearest even: a finite number from a thousandth to
one. -/
structure TickTime (rate time : Binary32) : Prop where
  nearest : Format.single.Nearest (Format.single.one * Format.single.one) rate.units time.code
  positive : time.negative = false
  finite : time.isFinite = true
  atLeast : thousandth.units ≤ time.units
  atMost : time.units ≤ (ofNat 1 : Binary32).units

/-- One divided by a rate in range is a quotient of finite numbers. -/
theorem inverse_of_between {rate : Binary32} (h : rate.between 1 1000 = true) :
    rate.inverse = ⟨false, Format.single.nearestUnits
      (Format.single.one * Format.single.one) rate.units⟩ := by
  obtain ⟨hsign, hlow, hhigh⟩ := (between_iff rate).mp h
  have hpositive := one_code_pos
  have hfinite := thousand_code_lt
  have hnan : rate.isNaN = false := decide_eq_false (by omega)
  have hinfinite : rate.isInfinite = false := beq_false_of_ne (by omega)
  have hzero : rate.isZero = false := beq_false_of_ne (by omega)
  have hone : (ofNat 1 : Binary32).isNaN = false ∧ (ofNat 1 : Binary32).isInfinite = false ∧
      (ofNat 1 : Binary32).negative = false := by decide +kernel
  simp only [inverse, div, hone, hnan, hinfinite, hzero, hsign, one_units, Bool.or_self,
    Bool.false_eq_true, if_false, bne_self_eq_false]

/-- **A tick of a rate in range lasts from a thousandth of a second to a second.** -/
theorem tickTime_of_between {rate : Binary32} (h : rate.between 1 1000 = true) :
    TickTime rate rate.inverse := by
  obtain ⟨-, hlow, hhigh⟩ := (between_iff rate).mp h
  have hunits := (Format.units_strictMono .single).monotone
  have hone : Format.single.one ≤ rate.units := one_units ▸ hunits hlow
  have hthousand : rate.units ≤ 1000 * Format.single.one := thousand_units ▸ hunits hhigh
  have hbits : 0 < Format.single.fractionBits := by decide
  have hpositive : 0 < Format.single.one := Nat.two_pow_pos _
  have hrate : 0 < rate.units := Nat.lt_of_lt_of_le hpositive hone
  have hmost : rate.inverse.code ≤ (ofNat 1 : Binary32).code := by
    rw [inverse_of_between h]
    refine Format.nearestUnits_mono .single hbits hrate (by decide) ?_
    rw [Nat.one_mul, Nat.mul_one]
    exact Nat.mul_le_mul_left _ hone
  have hfinite : rate.inverse.code < Format.single.infinity :=
    Nat.lt_of_le_of_lt hmost (by decide +kernel)
  have hnearest : Format.single.Nearest (Format.single.one * Format.single.one) rate.units
      rate.inverse.code := by
    rw [inverse_of_between h] at hfinite ⊢
    exact Format.nearest_of_finite .single hbits hrate hfinite
  have hleast : thousandth.code ≤ rate.inverse.code := by
    refine nearest_thousandth.mono hnearest (by decide) hrate ?_
    rw [Nat.mul_assoc, Nat.mul_comm _ 1000]
    exact Nat.mul_le_mul_left _ hthousand
  exact ⟨hnearest, by rw [inverse_of_between h], decide_eq_true hfinite, hunits hleast,
    hunits hmost⟩

/-- Such a time can be held, and is not nothing in nanoseconds. -/
theorem TickTime.nanoseconds {rate time : Binary32} (h : TickTime rate time) :
    time.isDuration = true ∧
      ∃ n, time.nanoseconds? = some n ∧ 1000000 ≤ n ∧ n ≤ 1000000000 := by
  have hpositive : 0 < Format.single.one := Nat.two_pow_pos _
  have hshort : Format.single.one < UInt64.size * Format.single.one :=
    (Nat.lt_mul_iff_one_lt_left hpositive).mpr (by decide)
  have hmost := one_units ▸ h.atMost
  have hleast : 1000000 * Format.single.one ≤ thousandth.units * 1000000000 := by decide +kernel
  have hheld : time.isDuration = true := by
    simp only [isDuration, h.finite, h.positive, Bool.false_eq_true, if_false, Bool.true_and,
      decide_eq_true_eq]
    exact Nat.lt_of_le_of_lt hmost hshort
  refine ⟨hheld, _, if_pos hheld, ?_, ?_⟩
  · exact le_nearestEven hpositive (Nat.le_trans hleast (Nat.mul_le_mul_right _ h.atLeast))
  · refine nearestEven_le hpositive ?_
    rw [Nat.mul_comm 1000000000]
    exact Nat.mul_le_mul_right _ hmost

end Binary

/-! ## 3. Attempts -/

namespace Config

/-- The rate is looked at first. -/
theorem invalid?_eq_tickRate (config : Config) :
    config.invalid? = some .tickRate ↔ config.tickRate.between 1 1000 = false := by
  rw [invalid?]
  cases config.tickRate.between 1 1000 with
  | false => simp
  | true =>
    simp only [Bool.not_true, Bool.false_eq_true, if_false]
    split
    · simp
    · split
      · simp
      · split <;> simp

theorem validate_eq_error {config : Config} {reason : Invalid} :
    config.validate = .error reason ↔ config.invalid? = some reason := by
  rw [validate]
  cases config.invalid? <;> simp

/-- A valid configuration has a rate in range. -/
theorem between_of_validate {config : Config} (h : config.validate = .ok config) :
    config.tickRate.between 1 1000 = true := by
  by_contra hout
  have hreason := (invalid?_eq_tickRate config).mpr (Bool.eq_false_of_not_eq_true hout)
  rw [(validate_eq_ok h).1] at hreason
  cases hreason

end Config

namespace World

/-- Nothing has happened when the configuration is not valid. -/
theorem opening_of_invalid {config : Config} {reason : Config.Invalid}
    (h : config.validate = .error reason) : opening config = ⟨[], .error (.invalid reason)⟩ := by
  rw [opening, h]

/-- There is a sampler for the rate of a valid configuration. -/
theorem sampler_of_valid {config : Config} (h : config.validate = .ok config) :
    Sampler.forRate? config.tickRate = some {} :=
  if_pos (Binary.tickTime_of_between (Config.between_of_validate h)).nanoseconds.1

/-- So a valid configuration gives a host. -/
theorem opening_of_valid {config : Config} (h : config.validate = .ok config) :
    opening config = ⟨(hosted config {}).events, .ok (hosted config {}).world⟩ := by
  simp only [opening, h, sampler_of_valid h]

/-- A run of a host has a period as long as the configuration is the same. -/
theorem period_of_valid {config : Config} (h : config.validate = .ok config) {w : World}
    (hproxy : w.proxy = some config) :
    ∃ n, w.period? = some n ∧ 1000000 ≤ n ∧ n ≤ 1000000000 := by
  obtain ⟨-, n, hn, hleast, hmost⟩ :=
    (Binary.tickTime_of_between (Config.between_of_validate h)).nanoseconds
  refine ⟨n, ?_, hleast, hmost⟩
  rw [period?, tickRate, hproxy, Option.getD_some, hn, Option.filter_some, if_pos]
  exact decide_eq_true (by omega)

end World

/-- **Setting up a host.**  For every configuration:

* the attempt fails with a reason exactly if the configuration is not valid for that reason, and
  then nothing has happened, and nothing was logged;
* if the configuration is valid, a tick lasts one divided by the rate, rounded to nearest even, a
  finite number from a thousandth to one; there is a sampler for the rate, and the attempt gives a
  host; and at every moment of every run of it, the steps have a period between them, from a million
  to a thousand million nanoseconds;
* the rates that are refused are not-a-number, the infinities, zeros, subnormal and negative
  numbers, and whatever is less than one or more than a thousand. -/
theorem opening_of_config (config : Config) :
    (∀ reason, (World.opening config).result = .error (.invalid reason) ↔
      config.validate = .error reason) ∧
    (∀ reason, config.validate = .error reason → (World.opening config).events = []) ∧
    (config.validate = .ok config →
      Binary.TickTime config.tickRate config.tickSeconds ∧
      Sampler.forRate? config.tickRate = some {} ∧ ∃ host, World.openHost config = .ok host ∧
        World.opening config = ⟨host.events, .ok host.world⟩ ∧
        ∀ w ∈ [host.world, (World.limited host).world], ∀ path m, Run (Machine.idle w) path m →
          ∃ n, m.world.period? = some n ∧ 1000000 ≤ n ∧ n ≤ 1000000000) ∧
    (config.validate = .error .tickRate ↔ Binary.NoRate config.tickRate) := by
  refine ⟨?_, ?_, ?_, ?_⟩
  · intro reason
    constructor
    · intro hfails
      cases hvalid : config.validate with
      | error other =>
        rw [World.opening_of_invalid hvalid] at hfails
        cases hfails
        rfl
      | ok valid =>
        obtain ⟨-, rfl⟩ := Config.validate_eq_ok hvalid
        rw [World.opening_of_valid hvalid] at hfails
        cases hfails
    · intro hinvalid
      rw [World.opening_of_invalid hinvalid]
  · intro reason hinvalid
    rw [World.opening_of_invalid hinvalid]
  · intro hvalid
    have hopening := World.opening_of_valid hvalid
    refine ⟨Binary.tickTime_of_between (Config.between_of_validate hvalid),
      World.sampler_of_valid hvalid, World.hosted config {}, ?_, hopening, ?_⟩
    · rw [World.openHost, hopening]
      rfl
    · intro w hw path m hrun
      have hproxy : w.proxy = some config := by
        rcases List.mem_pair.mp hw with rfl | rfl <;> rfl
      exact World.period_of_valid hvalid (hrun.proxy.trans hproxy)
  · rw [Config.validate_eq_error, Config.invalid?_eq_tickRate, Binary.noRate_iff]

/-- A configuration with a rate of a thousand. -/
def brisk : Config := { Config.default with tickRate := .ofBits 0x447a0000 }

/-- A configuration with the next greater rate. -/
def rash : Config := { Config.default with tickRate := .ofBits 0x447a0001 }

/-- The first gives a host, whose runs have a period; the second is refused, and nothing is logged.
-/
theorem opening_of_brisk :
    brisk.validate = .ok brisk ∧
    (∃ host n, World.openHost brisk = .ok host ∧ host.world.period? = some n ∧
      1000000 ≤ n ∧ n ≤ 1000000000) ∧
    rash.validate = .error .tickRate ∧ (World.opening rash).events = [] ∧
    (World.opening rash).result = .error (.invalid .tickRate) := by
  have hvalid : brisk.validate = .ok brisk := by
    have hnone : brisk.invalid? = none := by decide +kernel
    rw [Config.validate, hnone]
  obtain ⟨-, -, hopens, -⟩ := opening_of_config brisk
  obtain ⟨-, -, host, hhost, -, hruns⟩ := hopens hvalid
  obtain ⟨n, hperiod⟩ := hruns host.world List.mem_cons_self [] _ .nil
  obtain ⟨hfails, hquiet, -, hrates⟩ := opening_of_config rash
  have hrefused := hrates.mpr (.above (by decide +kernel))
  exact ⟨hvalid, ⟨host, n, hhost, hperiod⟩, hrefused, hquiet _ hrefused,
    (hfails _).mpr hrefused⟩

end TickHost
