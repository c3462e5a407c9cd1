import TickHost.Machine

/-!
# Callbacks on their own

A task that is fired, or a hook that is called, without a scheduler or a session around it.
-/

namespace TickHost

/-- Runs the commands of a callback until it has ended.  There is no result when that takes more
than `fuel` steps. -/
def World.runScript (fuel : Nat) (w : World) (script : Script) : Option (Turn Outcome) := do
  let (m, trace) ← Machine.run fuel ⟨w, .script script, []⟩ #[]
  match m.focus with
  | .ended outcome => return ⟨m.world, trace.toList, outcome⟩
  | _ => none

namespace Task

/-- Fires a task (`fire`): its action runs and is released, however it ends. -/
def fire (fuel : Nat) (w : World) (t : Task Action) : Option (Turn Outcome) := do
  let turn ← w.runScript fuel t.action.body
  return { turn with
    events := .fired t.handle t.action :: turn.events ++ [.released (some t.handle) t.action] }

/-- Drops a task without running it. -/
def drop (t : Task Action) : List Event := World.releases [t]

/-- Advances a task so many times: what each time tells, and the task afterwards. -/
def advances (t : Task Action) : Nat → List (Bool × Nat) × Task Action
  | 0 => ([], t)
  | n + 1 =>
    let (due, next) := t.advance
    let (told, last) := advances next n
    ((due, next.remaining) :: told, last)

end Task

namespace Listener

/-- Calls a hook of a listener; a hook that is not its own does nothing. -/
def call (fuel : Nat) (w : World) (listener : Listener) (hook : Lifecycle.Hook) :
    Option (Turn Outcome) :=
  match listener.hook? hook with
  | none => some ⟨w, [.called hook 0 listener], .returned⟩
  | some body => do
    let turn ← w.runScript fuel body.script
    return { turn with
      events := .called hook 0 listener :: turn.events
      value := body.finish turn.value }

end Listener

namespace Sampler

/-- The sampler after the same phases `n` times over. -/
def rounds (s : Sampler) (phases : List Tick.Phase) : Nat → Sampler
  | 0 => s
  | n + 1 => rounds (phases.foldl tick s) phases n

end Sampler

end TickHost
