/-!
# How a callback ends

User code either returns, reports a failure, or panics.  A failure is a chain of causes, the
outermost first; a panic carries a payload.
-/

namespace TickHost

/-- What a panic carries. -/
inductive Payload where
  /-- A message. -/
  | message (text : String)
  /-- A value that is no text. -/
  | other
  deriving DecidableEq, Repr

/-- The text that a record gives for a payload (`panic_message`). -/
def Payload.text : Payload → String
  | .message text => text
  | .other => "non-string panic payload"

/-- A failure that is reported and not thrown: its own message, and the messages of its causes from
the outside in. -/
structure Failure where
  /-- The message of the failure itself. -/
  message : String
  /-- The messages of its causes. -/
  causes : List String := []
  deriving DecidableEq, Repr

namespace Failure

/-- The failure with the messages of `chain`, if there are any. -/
def ofChain? : List String → Option Failure
  | [] => none
  | message :: causes => some ⟨message, causes⟩

/-- All messages of the chain on one line. -/
def chain (f : Failure) : String := ": ".intercalate (f.message :: f.causes)

end Failure

/-- How a callback ended. -/
inductive Outcome where
  /-- It returned. -/
  | returned
  /-- It returned a failure. -/
  | failed (failure : Failure)
  /-- It panicked. -/
  | panicked (payload : Payload)
  deriving DecidableEq, Repr

end TickHost
