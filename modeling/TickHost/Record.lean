import TickHost.Config
import TickHost.Binary.Shortest
import TickHost.Lifecycle
import TickHost.Outcome
import TickHost.Task
import TickHost.Tick

/-!
# Log records

Everything that is written to the log by the scheduler, the handlers' table, the coordinator, the
proxy, the host and the loading of a configuration.  A record is kept as what it reports; its level
and its text are functions of that.  The span in which the host traces a step is no record and is
left out.
-/

namespace TickHost

/-- How serious a record is. -/
inductive Level where
  | trace
  | debug
  | info
  | warn
  | error
  deriving DecidableEq, Repr

/-- The word for a level. -/
def Level.word : Level → String
  | trace => "trace"
  | debug => "debug"
  | info => "info"
  | warn => "warn"
  | error => "error"

/-- What the log is told. -/
inductive Record where
  /-- A task was accepted. -/
  | scheduled (handle : Handle) (delay : Nat)
  /-- A task was cancelled. -/
  | cancelled (handle : Handle)
  /-- The pending tasks were dropped. -/
  | discarded (n : Nat)
  /-- The scheduler goes away with tasks pending. -/
  | disposing (n : Nat)
  /-- An action panicked. -/
  | taskPanicked (handle : Handle) (payload : Payload)
  /-- A pass that fired tasks is over, the `tick`th one to end. -/
  | passed (tick : UInt64) (fired : Nat)
  /-- A handler was registered. -/
  | registered (name : String) (kinds : List Tick.Kind)
  /-- A handler panicked. -/
  | handlerPanicked (name : String) (event : Tick.Event) (payload : Payload)
  /-- The session moved without running hooks. -/
  | moved (source target : Lifecycle.State)
  /-- A move was refused. -/
  | ignored (event : Lifecycle.Event) (state : Lifecycle.State)
  /-- The session was reported as started again. -/
  | ignoredStart (state : Lifecycle.State)
  /-- The session was reported as stopping when it could not be stopped. -/
  | ignoredStop (state : Lifecycle.State)
  /-- A session started. -/
  | sessionStarted (n : Nat)
  /-- A session begins to stop. -/
  | sessionStopping (n : Nat)
  /-- A session stops that has not started yet. -/
  | sessionAborted
  /-- A hook returned a failure. -/
  | hookFailed (index : Nat) (hook : Lifecycle.Hook) (failure : Failure)
  /-- A hook panicked. -/
  | hookPanicked (index : Nat) (hook : Lifecycle.Hook) (payload : Payload)
  /-- A proxy was set up. -/
  | proxyReady (tickRate : Binary32) (maxDelay : Nat)
  /-- The tasks of a stopped session were dropped. -/
  | leftoversDropped (n : Nat)
  /-- The host starts. -/
  | hostStarting
  /-- The host has started. -/
  | hostStarted (tickRate : Binary32)
  /-- The host is about to stop. -/
  | hostStopping (ticks : Nat)
  /-- The host has stopped. -/
  | hostStopped
  /-- A configuration file was written. -/
  | wroteConfig (path : String)
  deriving DecidableEq, Repr

namespace Record

/-- The level of a record. -/
def level : Record → Level
  | scheduled .. | cancelled _ | passed .. | moved .. => .trace
  | discarded _ | disposing _ | registered .. | sessionStarted _ | sessionStopping _
  | sessionAborted | proxyReady .. => .debug
  | leftoversDropped _ | hostStarting | hostStarted _ | hostStopping _ | hostStopped
  | wroteConfig _ => .info
  | ignored .. | ignoredStart _ | ignoredStop _ => .warn
  | taskPanicked .. | handlerPanicked .. | hookFailed .. | hookPanicked .. => .error

/-- The text of a record.  What the host tells about the time its ticks took, in brackets behind
their number when it stops, is left out. -/
def message : Record → String
  | scheduled handle delay => s!"Scheduled deferred task {handle.text} (delay={delay})"
  | cancelled handle => s!"Cancelled deferred task {handle.text}"
  | discarded n => s!"Discarded {n} pending deferred task(s)"
  | disposing n => s!"Dropping scheduler with {n} unfired task(s)"
  | taskPanicked handle payload => s!"Deferred task {handle.text} panicked: {payload.text}"
  | passed tick fired => s!"Tick {tick.toNat}: fired {fired} deferred task(s)"
  | registered name kinds =>
    s!"Registered tick handler '{name}' for {Tick.Kind.listText kinds}"
  | handlerPanicked name event payload =>
    s!"Tick handler '{name}' panicked on {event.kind.word} {event.phase.word} "
      ++ s!"tick {event.number}: {payload.text}"
  | moved source target => s!"Lifecycle {source.word} -> {target.word}"
  | ignored event state => s!"Ignoring {event.word} while {state.word}"
  | ignoredStart state => s!"Ignoring duplicate start notification while {state.word}"
  | ignoredStop state => s!"Ignoring stop notification while {state.word}"
  | sessionStarted n => s!"Session {n} started"
  | sessionStopping n => s!"Session {n} stopping"
  | sessionAborted => "Session stopped before it finished starting, skipping stop hooks"
  | hookFailed index hook failure =>
    s!"Lifecycle listener {index} failed in {hook.word} hook: {failure.chain}"
  | hookPanicked index hook payload =>
    s!"Lifecycle listener {index} panicked in {hook.word} hook: {payload.text}"
  | proxyReady tickRate maxDelay =>
    s!"Common proxy ready ({tickRate.text} TPS, max delay {maxDelay} ticks)"
  | leftoversDropped n => s!"Dropped {n} deferred task(s) left over from the stopped session"
  | hostStarting => "Starting Ember host"
  | hostStarted tickRate => s!"Started Ember host at {tickRate.text} TPS"
  | hostStopping ticks => s!"Stopping Ember host after {ticks} ticks"
  | hostStopped => "Stopped Ember host"
  | wroteConfig path => s!"Wrote default config to {path}"

end Record

end TickHost
