/-!
# The lifecycle of a session

A session moves through five states.  Four events ask for a move, and each is refused in the states
from which it has no edge (`State.next?`).
-/

namespace TickHost.Lifecycle

/-- Where the current session is (`SessionState`). -/
inductive State where
  /-- No session has started yet. -/
  | unstarted
  /-- A session is being brought up. -/
  | starting
  /-- The session is running. -/
  | running
  /-- The session is being shut down. -/
  | stopping
  /-- The session has ended. -/
  | stopped
  deriving DecidableEq, Repr

/-- A move that the host asks for (`LifecycleEvent`). -/
inductive Event where
  /-- The host began to start a session. -/
  | starting
  /-- The session has finished starting. -/
  | started
  /-- The host began to stop the session. -/
  | stopping
  /-- The session has fully stopped. -/
  | stopped
  deriving DecidableEq, Repr

/-- What a listener is called for. -/
inductive Hook where
  /-- The session started to run. -/
  | start
  /-- The running session is being stopped. -/
  | stop
  deriving DecidableEq, Repr

/-- The word for a state. -/
def State.word : State → String
  | .unstarted => "Unstarted"
  | .starting => "Starting"
  | .running => "Running"
  | .stopping => "Stopping"
  | .stopped => "Stopped"

/-- The word for an event. -/
def Event.word : Event → String
  | .starting => "Starting"
  | .started => "Started"
  | .stopping => "Stopping"
  | .stopped => "Stopped"

/-- The word for a hook. -/
def Hook.word : Hook → String
  | .start => "start"
  | .stop => "stop"

/-- The edge that an event takes out of a state, if it has one there: what `handle`, `notify_start`
and `notify_stop` let pass. -/
def State.next? : State → Event → Option State
  | .unstarted, .starting | .stopped, .starting => some .starting
  | .unstarted, .started | .starting, .started | .stopped, .started => some .running
  | .running, .stopping | .starting, .stopping => some .stopping
  | .stopping, .stopped | .starting, .stopped => some .stopped
  | _, _ => none

end TickHost.Lifecycle
