import TickHost.Config
import TickHost.FileTree
import TickHost.Json5.Datum

/-!
# Reading a configuration

A configuration is written as a JSON5 object.  Its members are read in the order they are written; a
setting that is not given has its default, and members that are no settings are passed over.  An
array stands for the settings in the order of the fields.

The reader `serde_json5` hands the members in that order, with their keys decoded, to a visitor that
is derived from the fields of `CoreConfig`.  What is derived is documented: a field that is given
twice is refused, one that is missing has its default, and a key that names no field is ignored
(`Draft.readMember`, `Draft.complete`); what is not an object or an array is refused (`ofNode`).
-/

namespace TickHost.Config

/-! ## 1. Settings -/

/-- The name of a setting. -/
inductive Field where
  | tickRate
  | maxDelay
  | maxPending
  | discardOnStop
  | logLevel
  deriving DecidableEq, Repr

/-- How a setting is called in a text. -/
def Field.word : Field → String
  | tickRate => "tick_rate"
  | maxDelay => "max_delay_ticks"
  | maxPending => "max_pending_tasks"
  | discardOnStop => "discard_on_stop"
  | logLevel => "log_level"

/-- All settings, in order. -/
def Field.all : List Field := [tickRate, maxDelay, maxPending, discardOnStop, logLevel]

/-- The setting that is called `word`. -/
def Field.ofWord? (word : String) : Option Field := all.find? (·.word == word)

/-! ## 2. Drafts -/

/-- The settings that were given so far. -/
structure Draft where
  /-- Ticks per second. -/
  tickRate : Option Binary32 := none
  /-- The longest delay. -/
  maxDelay : Option Nat := none
  /-- How many tasks may be pending. -/
  maxPending : Option Nat := none
  /-- Whether pending tasks are dropped when a session has stopped. -/
  discardOnStop : Option Bool := none
  /-- Which records are logged. -/
  logLevel : Option String := none
  deriving DecidableEq, Repr

namespace Draft

/-- Whether a setting was given. -/
def has (d : Draft) : Field → Bool
  | .tickRate => d.tickRate.isSome
  | .maxDelay => d.maxDelay.isSome
  | .maxPending => d.maxPending.isSome
  | .discardOnStop => d.discardOnStop.isSome
  | .logLevel => d.logLevel.isSome

/-- The draft with one more setting, read from a value.  Whole numbers are what is left of a real
one without its fraction, within 32 and 64 bits. -/
def set (d : Draft) (field : Field) (value : Json5.Node) : Except Json5.Misfit Draft :=
  match field with
  | .tickRate => value.real.map fun x => { d with tickRate := some (x.convert .single) }
  | .maxDelay => value.real.map fun x => { d with maxDelay := some (x.truncate (UInt32.size - 1)) }
  | .maxPending =>
    value.real.map fun x => { d with maxPending := some (x.truncate (UInt64.size - 1)) }
  | .discardOnStop => value.truth.map fun b => { d with discardOnStop := some b }
  | .logLevel => value.string.map fun s => { d with logLevel := some s }

/-- The configuration that a draft amounts to. -/
def complete (d : Draft) : Config where
  tickRate := d.tickRate.getD default.tickRate
  maxDelay := d.maxDelay.getD default.maxDelay
  maxPending := d.maxPending.getD default.maxPending
  discardOnStop := d.discardOnStop.getD default.discardOnStop
  logLevel := d.logLevel.getD default.logLevel

/-- Reads one member of the object that begins at `s`.  A setting that is given again is refused
before its value is read. -/
def readMember (s : Json5.Start) (d : Draft) (member : Json5.Key × Json5.Node) :
    Except Json5.Misfit Draft := do
  let word ← member.1.contents.read member.1.start
  match Field.ofWord? word with
  | none =>
    member.2.skip
    return d
  | some field =>
    if d.has field then .error (s.fault (.duplicate field.word)) else d.set field member.2

end Draft

/-! ## 3. Texts -/

/-- The configuration that a value stands for. -/
def ofNode (node : Json5.Node) : Except Json5.Misfit Config :=
  match node with
  | .object s members => (members.foldlM (Draft.readMember s) {}).map Draft.complete
  | .array _ items =>
    ((Field.all.zip items).foldlM (fun d entry => Draft.set d entry.1 entry.2) {}).map
      Draft.complete
  | _ => .error (node.mismatch "struct CoreConfig")

/-- Why there is no configuration. -/
inductive Problem where
  /-- A setting is out of its range. -/
  | invalid (reason : Invalid)
  /-- The text is not JSON5. -/
  | grammar
  /-- The value or key at a place cannot be read. -/
  | data (place : Json5.Place) (fault : Json5.DataFault)
  /-- Reading broke off where the mark of a number was sought across the middle of a character. -/
  | torn
  /-- The file cannot be accessed. -/
  | access (fault : AccessFault) (path : String)
  deriving DecidableEq, Repr

/-- The text of an invalid setting. -/
def Invalid.report (reason : Invalid) : String := s!"invalid config: {reason.message}"

/-- The text of a value that cannot be read. -/
def faultReport (fault : Json5.DataFault) : String :=
  s!"failed to parse config: {fault.message}"

/-- The problem with a text in which a value or a key is a misfit. -/
def Problem.ofMisfit : Json5.Misfit → Problem
  | .fault place fault => .data place fault
  | .torn => .torn

/-- The configuration that a text stands for (`from_json5`).  It is checked once all of it has been
read. -/
def parse (text : String) : Except Problem Config :=
  match Json5.Node.parse? text with
  | none => .error .grammar
  | some node => do
    let config ← (ofNode node).mapError .ofMisfit
    config.validate.mapError .invalid

/-! ## 4. The default text -/

/-- The name of the file that holds the configuration. -/
def fileName : String := "ember_config.json5"

/-- What is written where there is no configuration yet. -/
def defaultText : String := "\n".intercalate
  ["\x7b",
   "  // Host ticks per second.",
   "  tick_rate: 20.0,",
   "  // Longest delay a callback may be scheduled with (one hour at 20 TPS).",
   "  max_delay_ticks: 72000,",
   "  // Upper bound on pending callbacks.",
   "  max_pending_tasks: 65536,",
   "  // Drop pending callbacks when the server stops instead of keeping them",
   "  // for the next session.",
   "  discard_on_stop: false,",
   "  // Default log filter. RUST_LOG takes precedence.",
   "  log_level: \"info\",",
   "\x7d",
   ""]

end TickHost.Config
