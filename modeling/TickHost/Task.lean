/-!
# Tasks

A task is an action that waits for a number of ticks.  Observed at zero it is due; otherwise its
counter goes down by one.
-/

namespace TickHost

/-- The name that a scheduler gives to an accepted task, so that it can be cancelled (`TaskHandle`).
-/
structure Handle where
  /-- The number of the handle. -/
  id : UInt64
  deriving DecidableEq, Repr

namespace Handle

/-- The handle of the task accepted after `n` earlier ones; numbers repeat after `2 ^ 64` tasks. -/
def ofNat (n : Nat) : Handle := ⟨.ofNat n⟩

/-- A handle as records show it. -/
def text (h : Handle) : String := s!"#{h.id.toNat}"

/-- A handle with its field written out. -/
def fieldText (h : Handle) : String := s!"TaskHandle({h.id.toNat})"

/-- Handles are ordered by number. -/
def compare (a b : Handle) : Ordering := Ord.compare a.id.toNat b.id.toNat

end Handle

/-- An action that waits in a queue (`ScheduledTask`). -/
structure Task (α : Type) where
  /-- The handle given out for the task. -/
  handle : Handle
  /-- Ticks left before the task is due. -/
  remaining : Nat
  /-- What runs when the task fires. -/
  action : α
  deriving Repr

namespace Task

variable {α : Type}

/-- Whether a pass that sees the task now fires it. -/
def isDue (t : Task α) : Bool := t.remaining == 0

/-- The task after a pass has seen it and has left it pending. -/
def countDown (t : Task α) : Task α := { t with remaining := t.remaining - 1 }

/-- One tick of a single task (`advance`): whether it is due, and the task afterwards. -/
def advance (t : Task α) : Bool × Task α := (t.isDue, t.countDown)

/-- The task on one line, its action left out. -/
def fieldText (t : Task α) : String :=
  s!"ScheduledTask \x7b handle: {t.handle.fieldText}, remaining_ticks: {t.remaining}, .. \x7d"

/-- The task with a line to each field, its action left out. -/
def fieldLines (t : Task α) : String :=
  "\n".intercalate
    ["ScheduledTask \x7b",
     "    handle: TaskHandle(",
     s!"        {t.handle.id.toNat},",
     "    ),",
     s!"    remaining_ticks: {t.remaining},",
     "    ..",
     "\x7d"]

end Task

end TickHost
