/-!
# Refused requests

Why a scheduler does not accept a task.  A refused task is never queued.
-/

namespace TickHost

/-- Why a task was not accepted (`ScheduleError`). -/
inductive Refusal where
  /-- The delay is below zero. -/
  | negativeDelay (delay : Int)
  /-- The delay is above the longest one allowed. -/
  | delayTooLong (delay max : Nat)
  /-- As many tasks are pending as there may be. -/
  | queueFull (pending : Nat)
  deriving DecidableEq, Repr

namespace Refusal

/-- The word for the kind of refusal. -/
def word : Refusal → String
  | negativeDelay _ => "NegativeDelay"
  | delayTooLong .. => "DelayTooLong"
  | queueFull _ => "QueueFull"

/-- The refusal as a sentence. -/
def message : Refusal → String
  | negativeDelay delay => s!"delay must not be negative, got {delay}"
  | delayTooLong delay max => s!"delay of {delay} ticks exceeds the maximum of {max}"
  | queueFull pending => s!"scheduler queue is full ({pending} pending tasks)"

/-- The refusal with its fields written out. -/
def fieldText : Refusal → String
  | negativeDelay delay => s!"NegativeDelay({delay})"
  | delayTooLong delay max => s!"DelayTooLong \x7b delay: {delay}, max: {max} \x7d"
  | queueFull pending => s!"QueueFull({pending})"

end Refusal

end TickHost
