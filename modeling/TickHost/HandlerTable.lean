import TickHost.Tick

/-!
# The table of tick handlers

For each kind of tick, the handlers registered for it in the order of registration.  A handler
stands in the table once for every occurrence of a kind among its kinds.
-/

namespace TickHost

/-- The handlers of type `η` registered for each kind (`TickManager`). -/
structure HandlerTable (η : Type) where
  /-- Handlers of server ticks. -/
  server : List η := []
  /-- Handlers of world ticks. -/
  world : List η := []
  /-- Handlers of player ticks. -/
  player : List η := []
  deriving Repr

namespace HandlerTable

variable {η : Type}

/-- The handlers registered for a kind, in the order of registration. -/
def entries (t : HandlerTable η) : Tick.Kind → List η
  | .server => t.server
  | .world => t.world
  | .player => t.player

/-- The table with `handler` at the end of one kind's list. -/
def append (t : HandlerTable η) (handler : η) : Tick.Kind → HandlerTable η
  | .server => { t with server := t.server ++ [handler] }
  | .world => { t with world := t.world ++ [handler] }
  | .player => { t with player := t.player ++ [handler] }

/-- The table with `handler` registered once for each of `kinds` (`register`). -/
def register (t : HandlerTable η) (handler : η) (kinds : List Tick.Kind) : HandlerTable η :=
  kinds.foldl (fun t kind => t.append handler kind) t

/-- How many entries a kind has (`handler_count`). -/
def count (t : HandlerTable η) (kind : Tick.Kind) : Nat := (t.entries kind).length

/-- The entries that an event is for, given whether a handler accepts its phase: those that
`dispatch` calls. -/
def targets (t : HandlerTable η) (accepts : η → Tick.Phase → Bool) (event : Tick.Event) : List η :=
  (t.entries event.kind).filter (accepts · event.phase)

end HandlerTable

end TickHost
