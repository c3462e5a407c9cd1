import TickHost.Machine

/-!
# Sessions of commands

A world is set up, commands are given to it one after the other, and at the end everything goes
away.
-/

namespace TickHost

/-- What an observer can ask of a world between two commands. -/
structure Status where
  /-- How many tasks are pending. -/
  pending : Nat
  /-- How many passes were completed. -/
  processedTicks : UInt64
  /-- The state of the session. -/
  state : Lifecycle.State
  /-- The number of the session. -/
  session : Nat
  /-- How many listeners there are. -/
  listeners : Nat
  /-- How many handlers each kind of tick has. -/
  handlers : List Nat
  /-- The steps and samples of the host, when there is one. -/
  host : Option (Nat × Nat)
  deriving DecidableEq, Repr

/-- The status of a world. -/
def World.status (w : World) : Status where
  pending := w.scheduler.pending
  processedTicks := w.scheduler.processedTicks
  state := w.coordinator.state
  session := w.coordinator.session
  listeners := w.coordinator.listeners.length
  handlers := [w.handlers.count .server, w.handlers.count .world, w.handlers.count .player]
  host := w.host.map fun h => (h.ticks, h.sampler.samples)

/-- How a command given from outside ends. -/
inductive Answer where
  /-- With a reply. -/
  | reply (r : Reply)
  /-- With a panic that nothing has caught. -/
  | panicked (payload : Payload)
  deriving Repr

/-- The answer that a stopped machine holds. -/
def Machine.answer? (m : Machine) : Option Answer :=
  match m.focus, m.stack with
  | .reply r, [] => some (.reply r)
  | .ended (.panicked payload), [] => some (.panicked payload)
  | .ended _, [] => some (.reply .done)
  | _, _ => none

/-- Gives a command to a world: the world afterwards, the trace, and the answer.  There is none when
the command is not carried out within `fuel` steps. -/
def World.command (fuel : Nat) (w : World) (c : Command) : Option (Turn Answer) := do
  let (m, trace) ← Machine.run fuel ⟨w, .command c, []⟩ #[]
  let answer ← m.answer?
  return ⟨m.world, trace.toList, answer⟩

end TickHost
