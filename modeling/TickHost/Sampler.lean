import TickHost.Binary.Arithmetic
import TickHost.Tick

/-!
# Sampling ticks

A sampler measures each tick from its start to its end and keeps the latest measurements.  How many
are kept is all that is said here.  How long a tick took hangs on a clock, whose readings
`TickHost.Stopwatch` takes as they come; what hangs on the times alone is left out: their mean, and
the warning about a tick that took longer than its share.
-/

namespace TickHost

/-- The measurements that a sampler holds (`TickStats`). -/
structure Sampler where
  /-- Whether a tick has started that has not ended yet. -/
  opened : Bool := false
  /-- How many measurements are kept. -/
  samples : Nat := 0
  deriving DecidableEq, Repr

namespace Sampler

/-- How many measurements are kept at most. -/
def window : Nat := 100

/-- The sampler after one half of a tick.  A start opens a measurement, or opens it anew; an end
closes it, and counts nothing when none is open. -/
def tick (s : Sampler) : Tick.Phase → Sampler
  | .start => { s with opened := true }
  | .finish => ⟨false, if s.opened then min window (s.samples + 1) else s.samples⟩

/-- The average length of a tick (`average_mspt`), where it does not hang on how long ticks took:
zero, as long as there is no sample. -/
def average? (s : Sampler) : Option Binary32 :=
  if s.samples = 0 then some (.zero _ false) else none

/-- A sampler for a rate of ticks (`TickStats.new`).  There is none unless one tick lasts a time
that can be held. -/
def forRate? (rate : Binary32) : Option Sampler :=
  if rate.inverse.isDuration then some {} else none

end Sampler

end TickHost
