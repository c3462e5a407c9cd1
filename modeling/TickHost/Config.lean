import TickHost.Binary.Arithmetic
import TickHost.Text.Blank

/-!
# Configuration

The settings of a host, their defaults, and the limits they have to keep.
-/

namespace TickHost

/-- The settings of a scheduler and of the loop that drives it (`CoreConfig`). -/
structure Config where
  /-- Ticks per second. -/
  tickRate : Binary32
  /-- The longest delay a task may be scheduled with. -/
  maxDelay : Nat
  /-- How many tasks may be pending at once. -/
  maxPending : Nat
  /-- Whether pending tasks are dropped when a session has stopped. -/
  discardOnStop : Bool
  /-- Which records are logged. -/
  logLevel : String
  deriving DecidableEq, Repr

namespace Config

/-- Twenty ticks a second, delays of up to an hour, and tasks kept from one session to the next. -/
def default : Config := ⟨.ofNat 20, 72000, 65536, false, "info"⟩

instance : Inhabited Config := ⟨default⟩

/-- Why a configuration is not valid. -/
inductive Invalid where
  /-- The tick rate is not between one and a thousand. -/
  | tickRate
  /-- No delay is allowed at all. -/
  | maxDelay
  /-- No task may be pending. -/
  | maxPending
  /-- No log level is given. -/
  | logLevel
  deriving DecidableEq, Repr

/-- The reason as a sentence. -/
def Invalid.message : Invalid → String
  | tickRate => "Tick rate must be in range 1..1000"
  | maxDelay => "Max delay ticks must be greater than 0"
  | maxPending => "Max pending tasks must be greater than 0"
  | logLevel => "Log level must not be empty"

/-- The first setting that is out of its range, in the order of the fields. -/
def invalid? (c : Config) : Option Invalid :=
  if !c.tickRate.between 1 1000 then some .tickRate
  else if c.maxDelay == 0 then some .maxDelay
  else if c.maxPending == 0 then some .maxPending
  else if Text.isBlankText c.logLevel then some .logLevel
  else none

/-- The configuration itself, when every setting is in its range (`validate`). -/
def validate (c : Config) : Except Invalid Config :=
  match c.invalid? with
  | some reason => .error reason
  | none => .ok c

/-- How long a tick lasts, in seconds. -/
def tickSeconds (c : Config) : Binary32 := c.tickRate.inverse

/-- How long a tick lasts, in milliseconds (`tick_millis`). -/
def tickMillis (c : Config) : Binary32 := Binary.div (.ofNat 1000) c.tickRate

end Config

end TickHost
