import TickHost.Json5.Node
import TickHost.Text.Quoted

/-!
# Reading values

A value of a text is read as the type that is wanted.  What cannot be read is a misfit: a fault and
the place of the value, or of the key, at which it arose.  This is what `serde_json5` does with a
value: a value that is wanted as a number is read from its own text, any other by its shape, and one
that is not wanted is passed over, but all of it is read for its form.

Where a real number is wanted, the first two bytes of a value are held against the mark of
hexadecimal digits.  If the second of them belongs to a wider character there are no two bytes to
compare, and reading stops without a fault to report (`Misfit.torn`).
-/

namespace TickHost.Json5

/-- Why a value or a key does not fit what is wanted. -/
inductive Misfit where
  /-- Something is wrong with the value or key at a place. -/
  | fault (place : Place) (what : DataFault)
  /-- The mark of a number was sought across the middle of a character. -/
  | torn
  deriving DecidableEq, Repr

/-- A fault at the beginning of a value or key. -/
def Start.fault (s : Start) (what : DataFault) : Misfit := .fault s.place what

/-- The text of a key or a string, unless it has an escape that names no character. -/
def Contents.read (s : Start) : Contents → Except Misfit String
  | some text => .ok text
  | none => .error (s.fault .hexEscape)

namespace Literal

/-- What a literal is called in a message: an integer or a floating point number. -/
def describe (literal : Literal) : Except DataFault String :=
  if literal.isIntegral then
    literal.integer.map fun i => s!"integer \x60{i}\x60"
  else literal.real.map fun x => "floating point \x60" ++ x.pointedText ++ "\x60"

end Literal

namespace Node

/-- What a value is called in a message.  Its own text is read for that, but not what it holds. -/
def describe : Node → Except Misfit String
  | null _ => .ok "unit value"
  | boolean _ b => .ok s!"boolean \x60{b}\x60"
  | number s literal => literal.describe.mapError s.fault
  | text s contents => (contents.read s).map fun text => "string " ++ Text.quoted text
  | array .. => .ok "sequence"
  | object .. => .ok "map"

/-- The misfit of a value that has another shape than the one wanted. -/
def mismatch (node : Node) (expected : String) : Misfit :=
  match node.describe with
  | .error misfit => misfit
  | .ok found => node.start.fault (.invalidType found expected)

/-- A value read as a real number. -/
def real : Node → Except Misfit Binary64
  | number s literal => literal.real.mapError s.fault
  | node => .error (if node.start.wide then .torn else node.start.fault .number)

/-- A value read as a truth value. -/
def truth : Node → Except Misfit Bool
  | boolean _ b => .ok b
  | node => .error (node.mismatch "a boolean")

/-- A value read as a string. -/
def string : Node → Except Misfit String
  | text s contents => contents.read s
  | node => .error (node.mismatch "a string")

mutual

/-- The first misfit in a value that is read for nothing but its form. -/
def misfit? : Node → Option Misfit
  | array _ items => itemsMisfit? items
  | object _ members => membersMisfit? members
  | node =>
    match node.describe with
    | .error misfit => some misfit
    | .ok _ => none

/-- The first misfit in the items of an array. -/
def itemsMisfit? : List Node → Option Misfit
  | [] => none
  | item :: items => (misfit? item).or (itemsMisfit? items)

/-- The first misfit in the members of an object, keys included. -/
def membersMisfit? : List (Key × Node) → Option Misfit
  | [] => none
  | (key, value) :: members =>
    match key.contents with
    | none => some (key.start.fault .hexEscape)
    | some _ => (misfit? value).or (membersMisfit? members)

end

/-- Passes over a value that is not wanted. -/
def skip (node : Node) : Except Misfit Unit :=
  match node.misfit? with
  | some misfit => .error misfit
  | none => .ok ()

end Node

end TickHost.Json5
