import TickHost.Command
import TickHost.Config
import TickHost.Scheduler
import TickHost.Sampler

/-!
# Replies

What a command answers.
-/

namespace TickHost

/-- Why a command was not carried out at all. -/
inductive Fault where
  /-- It needs a proxy. -/
  | noProxy
  /-- It needs a host that is not busy with a step. -/
  | noHost
  /-- It cannot be read. -/
  | malformed (reason : String)
  deriving DecidableEq, Repr

/-- The text of a fault. -/
def Fault.message : Fault → String
  | noProxy => "no proxy"
  | noHost => "no host"
  | malformed reason => reason

/-- The answer to a command. -/
inductive Reply where
  /-- Nothing to tell. -/
  | done
  /-- A number. -/
  | count (n : Nat)
  /-- A truth value. -/
  | flag (b : Bool)
  /-- The handle of an accepted task. -/
  | accepted (handle : Handle)
  /-- A refused task. -/
  | refused (refusal : Refusal)
  /-- How many tasks of a batch were accepted, and why the next one was not. -/
  | filled (n : Nat) (refusal : Option Refusal)
  /-- A state of the session. -/
  | state (s : Lifecycle.State)
  /-- A configuration. -/
  | config (c : Config)
  /-- The profile of a handler. -/
  | profile (p : Profile)
  /-- How many samples a sampler holds, and their average where that is known. -/
  | samples (n : Nat) (average : Option Binary32)
  /-- The command was not carried out. -/
  | fault (f : Fault)
  /-- The answers of several commands. -/
  | all (replies : List Reply)
  deriving Repr

/-- What a sampler tells about itself. -/
def Reply.ofSampler (s : Sampler) : Reply := samples s.samples s.average?

/-- The reply to a request. -/
def Reply.ofRequest : Except Refusal Handle → Reply
  | .ok handle => accepted handle
  | .error refusal => refused refusal

/-- Whether a reply says that the command was not carried out. -/
def Reply.isFault : Reply → Bool
  | fault _ => true
  | _ => false

/-- The refusal that a reply reports, as a failure of the callback that has asked. -/
def Reply.failure? : Reply → Option Failure
  | refused refusal => some ⟨refusal.message, []⟩
  | _ => none

/-- How a script ends at the reply to one of its commands, if it ends there. -/
def Command.ending? (c : Command) (r : Reply) : Option Outcome :=
  r.failure?.bind c.onRefusal.ending?

end TickHost
