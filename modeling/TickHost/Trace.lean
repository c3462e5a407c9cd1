import TickHost.Record
import TickHost.Reply

/-!
# Traces

A run leaves a trace of what happened, in order.  Passes, deliveries and hook passes have a
beginning and an end in it, so that what belongs to which can be told from the trace alone.  It
holds more than an observer sees: `Event.line?` gives the part that is shown.
-/

namespace TickHost

/-- A lock that a component holds while it works on its own data.  The lock of the table of handlers
is left out: it is held while handlers are asked for their kinds, phases and names, and those
answers are data here (`Handler.profile`). -/
inductive Lock where
  /-- The queue of the scheduler. -/
  | queue
  /-- The list of listeners. -/
  | listeners
  /-- The state of the session. -/
  | session
  deriving DecidableEq, Repr

/-- Something that happened. -/
inductive Event where
  /-- A lock was taken. -/
  | locked (lock : Lock)
  /-- A lock was given back. -/
  | unlocked (lock : Lock)
  /-- A record was logged. -/
  | logged (record : Record)
  /-- A task was accepted. -/
  | accepted (handle : Handle) (delay : Nat) (action : Action)
  /-- A pass took the due tasks out of the queue. -/
  | drained
  /-- An action began to run. -/
  | fired (handle : Handle) (action : Action)
  /-- An action was released, that of an accepted task or of a refused one. -/
  | released (owner : Option Handle) (action : Action)
  /-- A pass ended. -/
  | passEnded (fired : Nat)
  /-- A task was taken out of the queue by a cancellation. -/
  | cancelled (handle : Handle)
  /-- The queue was emptied. -/
  | discarded (n : Nat)
  /-- A tick was delivered to the registered handlers. -/
  | delivered (event : Tick.Event)
  /-- A handler was called. -/
  | handled (handler : Handler) (event : Tick.Event)
  /-- A delivery ended that had so many handlers to call. -/
  | deliveryEnded (event : Tick.Event) (count : Nat)
  /-- A pass over the listeners began. -/
  | notified (hook : Lifecycle.Hook)
  /-- The listener at a position was called. -/
  | called (hook : Lifecycle.Hook) (index : Nat) (listener : Listener)
  /-- A pass over the listeners ended. -/
  | notifyEnded (hook : Lifecycle.Hook)
  /-- A command of a script was carried out. -/
  | replied (word : String) (reply : Reply)
  deriving Repr

/-- What an observer sees of an event. -/
inductive Line where
  /-- A record of the log. -/
  | log (level : Level) (message : String)
  /-- An action began. -/
  | run (name : String)
  /-- A guarded action was released. -/
  | drop (name : String)
  /-- A handler began. -/
  | tick (name : String) (event : Tick.Event)
  /-- A hook began. -/
  | hook (name : String) (hook : Lifecycle.Hook)
  /-- A command of a script was carried out. -/
  | replied (word : String) (reply : Reply)
  deriving Repr

/-- What an observer sees of an event, if it is shown. -/
def Event.line? : Event → Option Line
  | logged record => some (.log record.level record.message)
  | fired _ (.script name ..) => some (.run name)
  | released _ (.script name true _) => some (.drop name)
  | handled (.script name ..) event => some (.tick name event)
  | called hook _ listener => (listener.hook? hook).map fun _ => .hook listener.name hook
  | replied word reply => some (.replied word reply)
  | _ => none

/-- What an observer sees of a trace. -/
def shown (events : List Event) : List Line := events.filterMap Event.line?

end TickHost
