import TickHost.Proofs.Steps.Stack

/-!
# What steps tell of

Every event has a topic.  Most steps are not about tasks, the session or failures, and then they
tell of none of these: a machine tells of tasks when it runs an errand for the scheduler, of the
session when it hands an event to the lifecycle, and of a failure when it takes note of the end of a
callback (`move_tells`).
-/

namespace TickHost

/-! ## 1. Topics -/

/-- What an event is about. -/
inductive Topic where
  /-- A lock. -/
  | lock
  /-- Tasks, and the passes that fire them. -/
  | tasks
  /-- How many tasks a pass has fired, as a record. -/
  | passes
  /-- The session, and the hook passes that it calls for. -/
  | session
  /-- A callback that has failed. -/
  | failure
  /-- Anything else. -/
  | other
  deriving DecidableEq

/-- What a record is about. -/
def Record.topic : Record → Topic
  | scheduled .. | cancelled _ | discarded _ | disposing _ => .tasks
  | passed .. => .passes
  | moved .. | ignored .. | ignoredStart _ | ignoredStop _ | sessionStarted _ | sessionStopping _
  | sessionAborted => .session
  | taskPanicked .. | handlerPanicked .. | hookFailed .. | hookPanicked .. => .failure
  | _ => .other

/-- What an event is about.  A hook pass is about the session where it begins. -/
def Event.topic : Event → Topic
  | locked _ | unlocked _ => .lock
  | accepted .. | drained | fired .. | released .. | passEnded _ | cancelled _ | discarded _ =>
    .tasks
  | notified _ => .session
  | logged record => record.topic
  | _ => .other

/-- Whether each of these events is about a topic that is allowed. -/
def About (allowed : Topic → Bool) (events : List Event) : Prop :=
  ∀ e ∈ events, allowed e.topic = true

namespace About

variable {allowed : Topic → Bool} {e : Event} {p q : List Event}

theorem nil : About allowed [] := List.forall_mem_nil _

theorem cons (he : allowed e.topic = true) (h : About allowed p) : About allowed (e :: p) :=
  List.forall_mem_cons.mpr ⟨he, h⟩

theorem single (he : allowed e.topic = true) : About allowed [e] := cons he nil

theorem append (hp : About allowed p) (hq : About allowed q) : About allowed (p ++ q) :=
  List.forall_mem_append.mpr ⟨hp, hq⟩

theorem holding {lock : Lock} (hlock : allowed .lock = true) (h : About allowed p) :
    About allowed (World.holding lock p) :=
  cons hlock (h.append (single hlock))

/-- A topic that is not allowed does not come up. -/
theorem avoids {t : Topic} (h : About allowed p) (ht : allowed t = false) :
    ∀ e ∈ p, e.topic ≠ t := by
  rintro e he rfl
  exact Bool.false_ne_true (ht.symm.trans (h e he))

end About

/-! ## 2. Operations of the world -/

/-- What the scheduler tells of. -/
def Topic.ofScheduler : Topic → Bool
  | lock | tasks => true
  | _ => false

/-- What the lifecycle tells of. -/
def Topic.ofLifecycle : Topic → Bool
  | lock | session => true
  | _ => false

namespace World

variable (w : World)

theorem about_refusalEvents (refusal : Refusal) (action : Action) :
    About Topic.ofScheduler (refusalEvents refusal action) := by
  cases refusal with
  | queueFull pending => exact .append (.holding rfl .nil) (.single rfl)
  | _ => exact .single rfl

theorem about_request (delay : Int) (action : Action) :
    About Topic.ofScheduler (w.request delay action).events := by
  simp only [request]
  split
  · exact .holding rfl (.cons rfl (.single rfl))
  · exact about_refusalEvents _ _

theorem about_fill (n : Nat) (delay : Int) :
    About Topic.ofScheduler (w.fill n delay).events := by
  have hqueued (tasks : List (Task Action)) : About Topic.ofScheduler (tasks.flatMap fun t =>
      holding .queue [.accepted t.handle t.remaining t.action]) := by
    intro e he
    obtain ⟨t, -, he⟩ := List.mem_flatMap.mp he
    exact About.holding rfl (.single rfl) e he
  simp only [fill]
  split
  · split
    · exact (hqueued _).append (about_refusalEvents _ _)
    · exact hqueued _
  · exact hqueued _

theorem about_cancel (h : Handle) : About Topic.ofScheduler (w.cancel h).events := by
  simp only [cancel]
  split
  · exact .holding rfl (.cons rfl (.cons rfl (.single rfl)))
  · exact .holding rfl .nil

theorem about_discard : About Topic.ofScheduler w.discard.events := by
  refine .append (.append (.holding rfl (.single rfl)) ?_) ?_
  · split
    · exact .nil
    · exact .single rfl
  · intro e he
    obtain ⟨task, -, rfl⟩ := List.mem_map.mp he
    rfl

theorem about_transition (event : Lifecycle.Event) :
    About Topic.ofLifecycle (w.transition event).events := by
  simp only [transition]
  split
  · refine .holding rfl (.single ?_)
    cases event <;> rfl
  · split
    · exact .append (.holding rfl .nil) (.single rfl)
    · split
      · exact .append (.append (.holding rfl .nil) (.holding rfl .nil)) (.single rfl)
      · exact .append (.holding rfl .nil) (.single rfl)
    · exact .holding rfl (.single rfl)

end World

/-! ## 3. Steps and moves -/

/-- An operation of the scheduler. -/
inductive Errand where
  /-- Request a task. -/
  | request (delay : Int) (action : Action)
  /-- Request idle tasks, up to the first refusal. -/
  | fill (n : Nat) (delay : Int)
  /-- Cancel a task, if it is pending. -/
  | cancel (h : Handle)
  /-- Drop the pending tasks. -/
  | discard
  /-- Begin a pass. -/
  | beginPass
  /-- Fire the next task of the innermost pass. -/
  | fire (task : Task Action)
  /-- Take note of how an action has ended. -/
  | settle (task : Task Action) (outcome : Outcome)
  /-- End the innermost pass, which has fired so many tasks. -/
  | endPass (fired : Nat)

/-- Whether an operation requests tasks. -/
def Errand.requests : Errand → Bool
  | request .. | fill .. => true
  | _ => false

/-- Whether an operation ends a pass. -/
def Errand.endsPass : Errand → Bool
  | endPass _ => true
  | _ => false

namespace Machine

/-- The operation of the scheduler that a machine makes next, if it makes one. -/
def errand? (m : Machine) : Option Errand :=
  match m.focus with
  | .command (.schedule name delay guarded _ body) =>
    some (.request (delay.getD 0) (.script name guarded body))
  | .command (.fill n delay) => some (.fill n delay)
  | .command (.cancel id) => some (.cancel (.ofNat id))
  | .command .discard => some .discard
  | .passing => some .beginPass
  | .firing (task :: _) _ => some (.fire task)
  | .firing [] fired => some (.endPass fired)
  | .ended outcome =>
    match m.stack with
    | .firing task .. :: _ => some (.settle task outcome)
    | _ => none
  | .reply r =>
    match m.stack with
    | .settling event :: _ =>
      match r with
      | .flag true => if m.world.discardsOn event then some .discard else none
      | _ => none
    | _ => none
  | _ => none

/-- Where a callback has ended, there is at most that to take note of, for the pass that has fired
it. -/
theorem errand_of_ended {m : Machine} {outcome : Outcome} {errand : Errand}
    (hfocus : m.focus = .ended outcome) (h : m.errand? = some errand) :
    ∃ task due fired S, m.stack = .firing task due fired :: S ∧ errand = .settle task outcome := by
  obtain ⟨w, _, stack⟩ := m
  obtain rfl : _ = Focus.ended outcome := hfocus
  simp only [errand?] at h
  split at h
  · exact ⟨_, _, _, _, rfl, (Option.some.inj h).symm⟩
  · cases h

/-- Where a reply is handed back, there are at most leftovers to discard. -/
theorem errand_of_reply {m : Machine} {r : Reply} {errand : Errand} (hfocus : m.focus = .reply r)
    (h : m.errand? = some errand) : errand = .discard := by
  obtain ⟨w, _, stack⟩ := m
  obtain rfl : _ = Focus.reply r := hfocus
  simp only [errand?] at h
  split at h
  · split at h
    · split at h
      · exact (Option.some.inj h).symm
      · cases h
    · cases h
  · cases h

/-- The event that is handed to the lifecycle next. -/
def event? (m : Machine) : Option Lifecycle.Event :=
  match m.focus with
  | .moving event => some event
  | _ => none

/-- The end of a callback that a move takes note of: how it has ended, and the operation that has
called it. -/
def ending? (m : Machine) : Option (Frame × Outcome) :=
  match m.focus, m.stack with
  | .ended outcome, frame :: _ => if frame.catches then some (frame, outcome) else none
  | _, _ => none

/-- What the next step may tell of. -/
def tellsOf (m : Machine) : Topic → Bool
  | .lock | .other => true
  | .tasks => m.errand?.isSome
  | .passes => m.errand?.any Errand.endsPass
  | .session => m.event?.isSome
  | .failure => m.ending?.isSome

variable {m : Machine} {events : List Event}

theorem tells_of_scheduler (h : About Topic.ofScheduler events)
    (herrand : m.errand?.isSome = true) : About m.tellsOf events := by
  intro e he
  have htopic := h e he
  cases hcase : e.topic with
  | lock => rfl
  | tasks => exact herrand
  | _ => rw [hcase] at htopic; cases htopic

theorem tells_of_lifecycle (h : About Topic.ofLifecycle events)
    (hevent : m.event?.isSome = true) : About m.tellsOf events := by
  intro e he
  have htopic := h e he
  cases hcase : e.topic with
  | lock => rfl
  | session => exact hevent
  | _ => rw [hcase] at htopic; cases htopic

theorem perform_tells (w : World) (S : List Frame) (c : Command) :
    About (tellsOf ⟨w, .command c, S⟩) (perform w S c).events := by
  cases c with
  | schedule => exact tells_of_scheduler (w.about_request _ _) rfl
  | fill n delay => exact tells_of_scheduler (w.about_fill n delay) rfl
  | cancel id => exact tells_of_scheduler (w.about_cancel _) rfl
  | discard => exact tells_of_scheduler w.about_discard rfl
  | register | registerScheduler => exact .single rfl
  | isScheduled | pending | isEmpty | state | session | listenerCount => exact .holding rfl .nil
  | addListener =>
    intro e he
    obtain ⟨events, hevents, he⟩ := List.mem_flatten.mp he
    rw [(List.mem_replicate.mp hevents).2] at he
    exact About.holding rfl .nil e he
  | proxyTick | proxyLifecycle | config | step | run | samples =>
    simp only [perform]
    split <;> exact .nil
  | _ => exact .nil

theorem resume_tells (w : World) (S : List Frame) (r : Reply) (frame : Frame) :
    About (tellsOf ⟨w, .reply r, frame :: S⟩) (resume w S r frame).events := by
  cases frame with
  | script current rest =>
    simp only [resume]
    split <;> exact .single rfl
  | loop left body rest replies =>
    simp only [resume]
    split <;> exact .nil
  | settling event =>
    simp only [resume]
    split
    · split
      · rename_i hdiscards
        refine .append (tells_of_scheduler w.about_discard (by simp [errand?, hdiscards])) ?_
        split
        · exact .nil
        · exact .single rfl
      · exact .nil
    · exact .nil
  | stepping phases => cases phases <;> exact .nil
  | running stage =>
    cases stage with
    | stepping =>
      simp only [resume, nextStage]
      split
      · exact .single rfl
      · exact .nil
    | stopping => exact .nil
    | _ => exact .single rfl
  | _ => exact .nil

theorem finish_tells (w : World) (S : List Frame) (outcome : Outcome) (frame : Frame) :
    About (tellsOf ⟨w, .ended outcome, frame :: S⟩) (finish w S outcome frame).events := by
  cases frame with
  | firing task due fired =>
    refine .cons rfl ?_
    cases outcome with
    | panicked payload => exact .single rfl
    | _ => exact .nil
  | handling handler event rest count =>
    cases outcome with
    | panicked payload => exact .single rfl
    | _ => exact .nil
  | hooking hook body index rest =>
    simp only [finish]
    cases body.finish outcome with
    | returned => exact .nil
    | _ => exact .single rfl
  | _ => exact .nil

/-- A step tells of what it is for. -/
theorem step_tells {s : Stepped} (h : m.step? = some s) : About m.tellsOf s.events := by
  cases rule_of_step h with
  | command w S c => exact perform_tells w S c
  | resumes w S r frame => exact resume_tells w S r frame
  | finishes w S outcome frame => exact finish_tells w S outcome frame
  | passBegins => exact .holding rfl (.single rfl)
  | passEnds w S fired =>
    refine .append ?_ (.single rfl)
    split
    · exact .nil
    · exact .single rfl
  | refused w S event | moved w S event => exact tells_of_lifecycle (w.about_transition event) rfl
  | hooksBegin w S event hook =>
    exact .append (tells_of_lifecycle (w.about_transition event) rfl) (.holding rfl (.single rfl))
  | fires | deliveryBegins | callsHandler | deliveryEnds | callsListener | hooksEnd =>
    exact .single rfl
  | _ => exact .nil

/-- **A move tells of what it is for**: of tasks when it runs an errand for the scheduler, of the
session when it hands an event to the lifecycle, of a failure when it takes note of the end of a
callback. -/
theorem move_tells {mv : Move} {s : Stepped} (h : m.move? mv = some s) :
    About m.tellsOf s.events := by
  rcases move?_cases h with h | ⟨-, c, -, rfl⟩ | ⟨-, commands, rfl⟩
  · exact step_tells h
  · exact .nil
  · exact .nil

end Machine

end TickHost
