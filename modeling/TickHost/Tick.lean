/-!
# Ticks

A tick event names what is being ticked, which half of the tick is delivered, and the number of the
tick.
-/

namespace TickHost.Tick

/-- What is being ticked (`TickKind`). -/
inductive Kind where
  /-- The server as a whole, once per tick. -/
  | server
  /-- A single loaded world. -/
  | world
  /-- A single connected player. -/
  | player
  deriving DecidableEq, Repr

/-- Which half of a tick is being delivered (`TickPhase`). -/
inductive Phase where
  /-- Before the host's own work of the tick. -/
  | start
  /-- After the host's own work of the tick. -/
  | finish
  deriving DecidableEq, Repr

/-- A tick that is delivered to handlers (`TickEvent`). -/
structure Event where
  /-- What is being ticked. -/
  kind : Kind
  /-- Which half of the tick this is. -/
  phase : Phase
  /-- The number of the tick, which a counter of 64 bits holds: it is meant to be less than `2 ^
  64`. -/
  number : Nat
  deriving DecidableEq, Repr

/-- The word for a kind. -/
def Kind.word : Kind → String
  | .server => "Server"
  | .world => "World"
  | .player => "Player"

/-- A list of kinds in brackets. -/
def Kind.listText (kinds : List Kind) : String :=
  "[" ++ ", ".intercalate (kinds.map word) ++ "]"

/-- The word for a phase. -/
def Phase.word : Phase → String
  | .start => "Start"
  | .finish => "End"

/-- A tick of the server (`TickEvent.server`). -/
def Event.server (phase : Phase) (number : Nat) : Event := ⟨.server, phase, number⟩

end TickHost.Tick
