import TickHost.Lifecycle

/-!
# The coordinator of sessions

It keeps the state of the session, the number of sessions that have run, and the listeners.
Entering the running state opens the next session.
-/

namespace TickHost

/-- The state of the session, how many sessions have run, and who listens (`LifecycleCoordinator`).
-/
structure Coordinator (ℓ : Type) where
  /-- Where the current session is. -/
  state : Lifecycle.State := .unstarted
  /-- How often the running state was entered (`session`).  A counter of 64 bits holds it: it is
  meant to be less than `2 ^ 64`. -/
  session : Nat := 0
  /-- The listeners in the order of registration. -/
  listeners : List ℓ := []
  deriving Repr

namespace Coordinator

variable {ℓ : Type}

/-- The coordinator in another state; entering the running state opens the next session. -/
def enter (c : Coordinator ℓ) (state : Lifecycle.State) : Coordinator ℓ :=
  { c with
    state := state
    session := if state = .running then c.session + 1 else c.session }

@[simp] theorem enter_state (c : Coordinator ℓ) (state : Lifecycle.State) :
    (c.enter state).state = state := rfl

@[simp] theorem enter_listeners (c : Coordinator ℓ) (state : Lifecycle.State) :
    (c.enter state).listeners = c.listeners := rfl

/-- The coordinator with `copies` more entries of one listener (`add_listener`, and
`add_shared_listener` for one that is also held elsewhere). -/
def addListener (c : Coordinator ℓ) (listener : ℓ) (copies : Nat) : Coordinator ℓ :=
  { c with listeners := c.listeners ++ List.replicate copies listener }

end Coordinator

end TickHost
