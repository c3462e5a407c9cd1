import TickHost.Sampler

/-!
# Measured ticks

A stopwatch is a sampler with the times that it measures.  The clock is not part of this library, so
each half of a tick comes with the instant at which it is seen.  What is left of a stopwatch without
the times is a sampler (`Stopwatch.sampler`).
-/

namespace TickHost

/-- One half of a tick, and when it is seen. -/
structure Sighting where
  /-- The tick. -/
  event : Tick.Event
  /-- The instant, in nanoseconds. -/
  instant : Nat
  deriving DecidableEq, Repr

/-- The times that a sampler has measured. -/
structure Stopwatch where
  /-- When the tick under way has started. -/
  started : Option Nat := none
  /-- How long the latest ticks took, the oldest of them first. -/
  spans : List Nat := []
  deriving DecidableEq, Repr

namespace Stopwatch

/-- Keeps one more time (`record`), in place of the oldest one when the window is full. -/
def record (s : Stopwatch) (span : Nat) : Stopwatch :=
  let kept := if s.spans.length = Sampler.window then s.spans.tail else s.spans
  { s with spans := kept ++ [span] }

/-- One half of a tick is seen (`tick`).  A start begins a measurement, or begins it anew; an end
takes the measurement that was begun, if one was. -/
def tick (s : Stopwatch) (seen : Sighting) : Stopwatch :=
  match seen.event.phase with
  | .start => { s with started := some seen.instant }
  | .finish =>
    match s.started with
    | some began => { s with started := none }.record (seen.instant - began)
    | none => s

/-- The stopwatch after all of these have been seen. -/
def after (sightings : List Sighting) : Stopwatch := sightings.foldl tick {}

/-- What is left without the times. -/
def sampler (s : Stopwatch) : Sampler := ⟨s.started.isSome, s.spans.length⟩

end Stopwatch

end TickHost
