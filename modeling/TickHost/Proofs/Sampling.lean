import TickHost.Proofs.Lockstep
import TickHost.Stopwatch

/-!
# What a sampler has counted

A sampler sees the halves of ticks in any order: deliveries nest, so a tick may be started again
before it has ended, and an end may come for which nothing was started.  What it has counted can be
told from what it has seen, and from nothing else:

* `Closes`: an end closes a tick if there was a start since the end before it.
* `samples_of_sightings`: there are as many samples as ends that close a tick, up to the size of the
  window, whatever was seen and whenever; a stopwatch has kept as many times.
* `samples_of_run`: in a run of a host it is the same with the halves that its sampler was called
  for.
-/

namespace TickHost

namespace Sampler

/-! ## 1. Ends that close a tick -/

/-- A tick is under way after these halves: one of them is a start, and no end comes after it. -/
def Underway (phases : List Tick.Phase) : Prop :=
  ∃ j < phases.length, phases[j]? = some .start ∧
    ∀ k < phases.length, j < k → phases[k]? ≠ some .finish

/-- The half at position `i` is an end that closes a tick: one is under way after those before it.
-/
def Closes (phases : List Tick.Phase) (i : Nat) : Prop :=
  phases[i]? = some .finish ∧ Underway (phases.take i)

instance (phases : List Tick.Phase) : Decidable (Underway phases) :=
  inferInstanceAs (Decidable (∃ j < phases.length, _))

instance (phases : List Tick.Phase) (i : Nat) : Decidable (Closes phases i) :=
  inferInstanceAs (Decidable (_ ∧ _))

/-- How many ends close a tick. -/
def closings (phases : List Tick.Phase) : Nat :=
  (List.range phases.length).countP fun i => Closes phases i

section

variable {phases : List Tick.Phase}

theorem not_underway_nil : ¬ Underway [] := by
  rintro ⟨j, hj, -⟩
  cases hj

theorem underway_start (phases : List Tick.Phase) : Underway (phases ++ [.start]) := by
  refine ⟨phases.length, by simp, by simp, ?_⟩
  intro k hk hlater
  rw [List.length_append, List.length_singleton] at hk
  omega

theorem not_underway_finish (phases : List Tick.Phase) : ¬ Underway (phases ++ [.finish]) := by
  rintro ⟨j, hj, hstart, hopen⟩
  have hlast : (phases ++ [.finish])[phases.length]? = some .finish := by simp
  rw [List.length_append, List.length_singleton] at hj
  rcases Nat.lt_or_eq_of_le (Nat.le_of_lt_succ hj) with hlt | rfl
  · exact hopen phases.length (by simp) hlt hlast
  · rw [hlast] at hstart
    cases hstart

/-- What comes later does not change which of the ends so far close a tick. -/
theorem closes_append {i : Nat} (hi : i < phases.length) (later : List Tick.Phase) :
    Closes (phases ++ later) i ↔ Closes phases i := by
  rw [Closes, Closes, List.getElem?_append_left hi, List.take_append_of_le_length (Nat.le_of_lt hi)]

/-- The last half closes a tick if it is an end and one is under way. -/
theorem closes_last (phase : Tick.Phase) :
    Closes (phases ++ [phase]) phases.length ↔ phase = .finish ∧ Underway phases := by
  rw [Closes, List.getElem?_concat_length, Option.some.injEq, List.take_left]

theorem closings_snoc (phases : List Tick.Phase) (phase : Tick.Phase) :
    closings (phases ++ [phase]) =
      closings phases + if phase = .finish ∧ Underway phases then 1 else 0 := by
  have hsame : (List.range phases.length).countP (fun i => Closes (phases ++ [phase]) i) =
      closings phases :=
    List.countP_congr fun i hi => by
      simp only [decide_eq_true_eq, closes_append (List.mem_range.mp hi)]
  rw [closings, List.length_append, List.length_singleton, List.range_succ, List.countP_append,
    hsame, List.countP_singleton]
  simp only [decide_eq_true_eq, closes_last]

theorem closings_le_append (phases later : List Tick.Phase) :
    closings phases ≤ closings (phases ++ later) := by
  induction later using List.reverseRecOn with
  | nil => simp
  | append_singleton later phase ih =>
    rw [← List.append_assoc, closings_snoc]
    exact Nat.le_add_right_of_le ih

end

/-! ## 2. What a sampler has counted -/

/-- The sampler that has seen these halves: a measurement is open as long as a tick is under way,
and the ends that close a tick are counted, up to the size of the window. -/
def ofPhases (phases : List Tick.Phase) : Sampler :=
  ⟨decide (Underway phases), min window (closings phases)⟩

/-- The sampler after it was called for these ticks. -/
def after (s : Sampler) (events : List Tick.Event) : Sampler :=
  events.foldl (fun s event => s.tick event.phase) s

theorem after_append (s : Sampler) (events later : List Tick.Event) :
    s.after (events ++ later) = (s.after events).after later := List.foldl_append

theorem ofPhases_nil : ofPhases [] = {} := by
  rw [ofPhases, decide_eq_false not_underway_nil]
  rfl

/-- One more half is seen. -/
theorem tick_ofPhases (phases : List Tick.Phase) (phase : Tick.Phase) :
    (ofPhases phases).tick phase = ofPhases (phases ++ [phase]) := by
  cases phase with
  | start =>
    rw [ofPhases, ofPhases, tick, decide_eq_true (underway_start phases), closings_snoc,
      if_neg (by rintro ⟨⟨⟩, -⟩)]
    rfl
  | finish =>
    rw [ofPhases, ofPhases, tick, decide_eq_false (not_underway_finish phases), closings_snoc]
    by_cases hunderway : Underway phases
    · simp only [hunderway, decide_true, and_self, if_true]
      congr 1
      omega
    · simp only [hunderway, decide_false, and_false, if_false, Bool.false_eq_true, Nat.add_zero]

/-- **A new sampler has counted the ends that close a tick.** -/
theorem after_eq_ofPhases (events : List Tick.Event) :
    after {} events = ofPhases (events.map (·.phase)) := by
  induction events using List.reverseRecOn with
  | nil => exact ofPhases_nil.symm
  | append_singleton events event ih =>
    rw [after_append, ih, List.map_append]
    exact tick_ofPhases _ _

end Sampler

/-! ## 3. Stopwatches -/

namespace Stopwatch

/-- One more time fills the window up to its size. -/
theorem length_record {s : Stopwatch} (h : s.spans.length ≤ Sampler.window) (span : Nat) :
    (s.record span).spans.length = min Sampler.window (s.spans.length + 1) := by
  have hpositive : 0 < Sampler.window := by decide
  simp only [record, List.length_append, List.length_singleton]
  split
  · rw [List.length_tail]
    omega
  · omega

/-- Without its times, a stopwatch is a sampler. -/
theorem sampler_tick {s : Stopwatch} (h : s.spans.length ≤ Sampler.window) (seen : Sighting) :
    (s.tick seen).sampler = s.sampler.tick seen.event.phase ∧
      (s.tick seen).spans.length ≤ Sampler.window := by
  cases hphase : seen.event.phase with
  | start =>
    rw [tick, hphase]
    exact ⟨rfl, h⟩
  | finish =>
    rw [tick, hphase]
    cases hstarted : s.started with
    | none => exact ⟨by simp [sampler, Sampler.tick, hstarted], h⟩
    | some began =>
      have hlength := length_record (s := { s with started := none }) h (seen.instant - began)
      refine ⟨?_, hlength ▸ Nat.min_le_left _ _⟩
      rw [sampler, hlength]
      simp [sampler, Sampler.tick, hstarted, record]

/-- **A stopwatch holds as many times as a sampler counts.** -/
theorem sampler_after (sightings : List Sighting) :
    (after sightings).sampler = Sampler.after {} (sightings.map (·.event)) ∧
      (after sightings).spans.length ≤ Sampler.window := by
  induction sightings using List.reverseRecOn with
  | nil => exact ⟨rfl, Nat.zero_le _⟩
  | append_singleton sightings seen ih =>
    obtain ⟨hsampler, hlength⟩ := ih
    obtain ⟨hsampler', hlength'⟩ := sampler_tick hlength seen
    rw [after, List.foldl_append]
    refine ⟨?_, hlength'⟩
    rw [List.map_append, Sampler.after_append, ← hsampler]
    exact hsampler'

end Stopwatch

/-! ## 4. Calls and runs -/

/-- **The samples of a sampler.**  Whatever halves of ticks a new sampler is called for, in whatever
order and at whatever instants:

* it has counted the ends that close a tick, up to a hundred of them;
* it has kept as many times;
* what comes later leaves the count as it is or raises it, and the count never passes a hundred. -/
theorem Sampler.samples_of_sightings {rate : Binary32} {s : Sampler}
    (hrate : Sampler.forRate? rate = some s) (sightings : List Sighting) :
    (s.after (sightings.map (·.event))).samples =
      min 100 (Sampler.closings (sightings.map (·.event.phase))) ∧
    (Stopwatch.after sightings).spans.length = (s.after (sightings.map (·.event))).samples ∧
    (∀ earlier later, sightings = earlier ++ later →
      (s.after (earlier.map (·.event))).samples ≤ (s.after (sightings.map (·.event))).samples) ∧
    (s.after (sightings.map (·.event))).samples ≤ 100 := by
  obtain rfl : s = {} := by
    rw [Sampler.forRate?] at hrate
    split at hrate
    · exact (Option.some.inj hrate).symm
    · cases hrate
  have hsamples (seen : List Sighting) :
      (Sampler.after {} (seen.map (·.event))).samples =
        min 100 (Sampler.closings (seen.map (·.event.phase))) := by
    rw [Sampler.after_eq_ofPhases, List.map_map]
    rfl
  refine ⟨hsamples sightings, ?_, ?_, ?_⟩
  · exact congrArg Sampler.samples (Stopwatch.sampler_after sightings).1
  · rintro earlier later rfl
    rw [hsamples, hsamples, List.map_append]
    have hgrows := Sampler.closings_le_append (earlier.map (·.event.phase))
      (later.map (·.event.phase))
    omega
  · rw [hsamples]
    exact Nat.min_le_left _ _

/-- An end, a tick that is started three times, and one more end, at the instants from `0` on. -/
def stutter : List Sighting :=
  [.finish, .start, .start, .start, .finish, .finish].zipIdx.map fun (phase, instant) =>
    ⟨.server phase 1, instant⟩

/-- They are one sample, taken from the last start to the first end after it; with a start and an
end more they are two. -/
theorem Sampler.samples_of_stutter :
    Sampler.forRate? (.ofNat 20) = some {} ∧
    (Sampler.after {} (stutter.map (·.event))).samples = 1 ∧
    (Stopwatch.after stutter).spans = [1] ∧
    (Sampler.after {} ((stutter ++ stutter).map (·.event))).samples = 2 := by
  have hrate : Sampler.forRate? (.ofNat 20) = some {} := by decide
  obtain ⟨hone, -⟩ := samples_of_sightings hrate stutter
  obtain ⟨htwo, -⟩ := samples_of_sightings hrate (stutter ++ stutter)
  exact ⟨hrate, hone.trans (by decide), by decide, htwo.trans (by decide)⟩

/-- The half of a tick for which the sampler of a host is called next. -/
def Machine.sampled? (m : Machine) : Option Tick.Phase :=
  match m.duty? with
  | some (.sample phase) => some phase
  | _ => none

/-- The halves of ticks for which the sampler of a host was called in a run. -/
def sampledPhases (path : List Beat) : List Tick.Phase := path.filterMap (·.before.sampled?)

theorem sampledPhases_snoc (path : List Beat) (b : Beat) :
    sampledPhases (path ++ [b]) = sampledPhases path ++ b.before.sampled?.toList := by
  rw [sampledPhases, List.filterMap_append]
  cases hsampled : b.before.sampled? <;> simp [hsampled, sampledPhases]

/-- Only a call changes a sampler. -/
theorem Beat.Valid.sampler {b : Beat} (hb : b.Valid) :
    b.after.world.host.map (·.sampler) = b.before.world.host.map fun host =>
      (b.before.sampled?.elim host.sampler host.sampler.tick) := by
  rw [(Machine.move_wiring hb).host, Option.map_map]
  refine congrArg (Option.map · b.before.world.host) (funext fun host => ?_)
  refine (b.before.tends_counters host 0).2.trans ?_
  rw [Machine.sampled?]
  cases b.before.duty? with
  | none => rfl
  | some duty => cases duty <;> rfl

/-- **The samples of a host.**  In every run, whatever user code does, the sampler of a host has
counted the ends that close a tick, among the halves of ticks that it was called for. -/
theorem samples_of_run {w : World} (hw : w.OfHost) {path : List Beat} {m : Machine}
    (hrun : Run (Machine.idle w) path m) :
    m.world.host.map (·.sampler) = some (Sampler.ofPhases (sampledPhases path)) := by
  induction hrun with
  | nil =>
    obtain ⟨host, hhost⟩ := Option.isSome_iff_exists.mp hw.atStart.host
    have hnew := congrArg Counters.sampler hw.atStart.counters
    rw [World.counters, hhost] at hnew
    rw [Machine.idle, hhost, sampledPhases, List.filterMap_nil, Sampler.ofPhases_nil]
    exact congrArg some hnew
  | @snoc path _ _ b _ hb ih =>
    obtain ⟨rfl, hvalid, rfl⟩ := hb
    obtain ⟨host, hhost, hsampler⟩ := Option.map_eq_some_iff.mp ih
    rw [hvalid.sampler, hhost, Option.map_some, hsampler, sampledPhases_snoc]
    cases b.before.sampled? with
    | none => rw [Option.elim_none, Option.toList_none, List.append_nil]
    | some phase => rw [Option.elim_some, Sampler.tick_ofPhases, Option.toList_some]

end TickHost
