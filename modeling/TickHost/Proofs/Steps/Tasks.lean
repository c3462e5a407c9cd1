import TickHost.Proofs.Steps.Topics

/-!
# Steps and the scheduler

The machine has many kinds of steps, and most of them have nothing to do with tasks.  This module
goes through all of them once, so that no later proof does: a move is one of the scheduler's own
operations, or it leaves the queue and the passes under way alone (`move_scheduler`).
-/

namespace TickHost

/-! ## 1. Tasks and passes -/

/-- The pass that waits in a frame: the tasks it has yet to fire, and how many it has fired. -/
def Frame.pass? : Frame → Option (List (Task Action) × Nat)
  | firing _ due fired => some (due, fired)
  | _ => none

/-- The pass that is gone on with. -/
def Focus.pass? : Focus → Option (List (Task Action) × Nat)
  | firing due fired => some (due, fired)
  | _ => none

namespace Machine

/-- The passes under way, the innermost first. -/
def underway (m : Machine) : List (List (Task Action) × Nat) :=
  m.focus.pass?.toList ++ m.stack.filterMap Frame.pass?

/-- Passes that wait in a stack are under way. -/
theorem underway_of_stack {m : Machine} {S : List Frame} (h : ∃ above, m.stack = above ++ S) :
    ∃ inner, m.underway = inner ++ S.filterMap Frame.pass? := by
  obtain ⟨above, hstack⟩ := h
  exact ⟨m.focus.pass?.toList ++ above.filterMap Frame.pass?, by
    rw [underway, hstack, List.filterMap_append, List.append_assoc]⟩

/-- What a step makes of the queue and of the passes under way, what it tells about them, and what
it answers. -/
inductive SchedulerStep (m : Machine) (s : Stepped) : Prop
  /-- It is not concerned with tasks. -/
  | elsewhere (herrand : m.errand? = none)
      (hscheduler : s.machine.world.scheduler = m.world.scheduler)
      (hunderway : s.machine.underway = m.underway)
  /-- A task is requested. -/
  | requested (delay : Int) (action : Action) (herrand : m.errand? = some (.request delay action))
      (hscheduler : s.machine.world.scheduler = (m.world.request delay action).world.scheduler)
      (hunderway : s.machine.underway = m.underway)
      (hevents : s.events = (m.world.request delay action).events)
      (hreply : s.machine.focus = .reply (.ofRequest (m.world.request delay action).value))
  /-- Idle tasks are requested, up to the first refusal. -/
  | filled (n : Nat) (delay : Int) (herrand : m.errand? = some (.fill n delay))
      (hscheduler : s.machine.world.scheduler = (m.world.fill n delay).world.scheduler)
      (hunderway : s.machine.underway = m.underway)
      (hevents : s.events = (m.world.fill n delay).events)
      (hreply : s.machine.focus = .reply (m.world.fill n delay).value)
  /-- A task is cancelled, if it is pending. -/
  | cancelled (h : Handle) (herrand : m.errand? = some (.cancel h))
      (hscheduler : s.machine.world.scheduler = (m.world.cancel h).world.scheduler)
      (hunderway : s.machine.underway = m.underway)
      (hevents : s.events = (m.world.cancel h).events)
      (hreply : s.machine.focus = .reply (.flag (m.world.cancel h).value))
  /-- The pending tasks are dropped. -/
  | discarded (more : List Event) (herrand : m.errand? = some .discard)
      (hmore : ∀ e ∈ more, e.topic = .other)
      (hscheduler : s.machine.world.scheduler = m.world.scheduler.clear)
      (hunderway : s.machine.underway = m.underway)
      (hevents : s.events = m.world.discard.events ++ more)
  /-- A pass begins. -/
  | began (herrand : m.errand? = some .beginPass)
      (hscheduler : s.machine.world.scheduler = m.world.scheduler.drain)
      (hunderway : s.machine.underway = (m.world.scheduler.due, 0) :: m.underway)
      (hevents : s.events = m.world.beginPass.events)
  /-- The innermost pass fires its next task. -/
  | fired (task : Task Action) (due : List (Task Action)) (k : Nat)
      (passes : List (List (Task Action) × Nat)) (herrand : m.errand? = some (.fire task))
      (hscheduler : s.machine.world.scheduler = m.world.scheduler)
      (hbefore : m.underway = (task :: due, k) :: passes)
      (hafter : s.machine.underway = (due, k + 1) :: passes)
      (hevents : s.events = [.fired task.handle task.action])
  /-- An action has ended. -/
  | settled (task : Task Action) (outcome : Outcome)
      (herrand : m.errand? = some (.settle task outcome))
      (hscheduler : s.machine.world.scheduler = m.world.scheduler)
      (hunderway : s.machine.underway = m.underway)
      (hevents : s.events =
        .released (some task.handle) task.action :: taskRecords task.handle outcome)
  /-- The innermost pass ends. -/
  | ended (k : Nat) (passes : List (List (Task Action) × Nat))
      (herrand : m.errand? = some (.endPass k))
      (hscheduler : s.machine.world.scheduler = m.world.scheduler.completePass)
      (hbefore : m.underway = ([], k) :: passes)
      (hafter : s.machine.underway = passes)
      (hevents : s.events = (m.world.endPass k).events)
      (hreply : s.machine.focus = .reply (.count k))

theorem perform_scheduler (w : World) (S : List Frame) (c : Command) :
    SchedulerStep ⟨w, .command c, S⟩ (perform w S c) := by
  cases c with
  | schedule name delay guarded onRefusal body =>
    exact .requested (delay.getD 0) _ rfl rfl rfl rfl rfl
  | fill n delay => exact .filled n delay rfl rfl rfl rfl rfl
  | cancel id => exact .cancelled (.ofNat id) rfl rfl rfl rfl rfl
  | discard => exact .discarded [] rfl (List.forall_mem_nil _) rfl rfl (List.append_nil _).symm
  | proxyTick | proxyLifecycle | config | step | run | samples | «repeat» =>
    simp only [perform]
    split <;> exact .elsewhere rfl rfl rfl
  | _ => exact .elsewhere rfl rfl rfl

theorem resume_scheduler (w : World) (S : List Frame) (r : Reply) (frame : Frame) :
    SchedulerStep ⟨w, .reply r, frame :: S⟩ (resume w S r frame) := by
  cases frame with
  | script current rest =>
    simp only [resume]
    split <;> exact .elsewhere rfl rfl rfl
  | loop left body rest replies =>
    simp only [resume]
    split <;> exact .elsewhere rfl rfl rfl
  | settling event =>
    simp only [resume]
    split
    · split
      · rename_i hdiscards
        refine .discarded _ (by simp [errand?, hdiscards]) ?_ rfl rfl rfl
        split
        · exact List.forall_mem_nil _
        · exact List.forall_mem_singleton.mpr rfl
      · rename_i hkeeps
        exact .elsewhere (by simp [errand?, hkeeps]) rfl rfl
    · rename_i hno
      exact .elsewhere (by simp only [errand?]) rfl rfl
  | stepping phases => cases phases <;> exact .elsewhere rfl rfl rfl
  | running stage =>
    cases stage with
    | stepping =>
      simp only [resume, nextStage]
      split <;> exact .elsewhere rfl rfl rfl
    | _ => exact .elsewhere rfl rfl rfl
  | _ => exact .elsewhere rfl rfl rfl

theorem finish_scheduler (w : World) (S : List Frame) (outcome : Outcome) (frame : Frame) :
    SchedulerStep ⟨w, .ended outcome, frame :: S⟩ (finish w S outcome frame) := by
  cases frame with
  | firing task due fired => exact .settled task outcome rfl rfl rfl rfl
  | _ => exact .elsewhere rfl rfl rfl

/-- Handing an event to the lifecycle leaves the scheduler alone. -/
theorem transition_scheduler (w : World) (event : Lifecycle.Event) :
    (w.transition event).world.scheduler = w.scheduler := by
  simp only [World.transition]
  split
  · rfl
  · split
    · rfl
    · split <;> rfl
    · rfl

/-- **What a step does about tasks**: one of the scheduler's own operations, or nothing. -/
theorem step_scheduler {m : Machine} {s : Stepped} (h : m.step? = some s) : SchedulerStep m s := by
  cases rule_of_step h with
  | command w S c => exact perform_scheduler w S c
  | resumes w S r frame => exact resume_scheduler w S r frame
  | finishes w S outcome frame => exact finish_scheduler w S outcome frame
  | passBegins => exact .began rfl rfl rfl rfl
  | fires w S task due fired => exact .fired task due fired _ rfl rfl rfl rfl rfl
  | passEnds w S fired => exact .ended fired _ rfl rfl rfl rfl rfl rfl
  | callsHandler w S event handler rest count =>
    cases handler <;> exact .elsewhere rfl rfl rfl
  | callsListener w S hook index listener rest =>
    simp only [notify]
    split <;> exact .elsewhere rfl rfl rfl
  | refused w S event | moved w S event | hooksBegin w S event =>
    exact .elsewhere rfl (transition_scheduler w event) rfl
  | _ => exact .elsewhere rfl rfl rfl

/-- A move is about tasks in no other way than a step is. -/
theorem move_scheduler {m : Machine} {mv : Move} {s : Stepped} (h : m.move? mv = some s) :
    SchedulerStep m s := by
  rcases move?_cases h with h | ⟨hidle, c, -, rfl⟩ | ⟨⟨script, hfocus⟩, commands, rfl⟩
  · exact step_scheduler h
  · obtain ⟨w, focus, stack⟩ := m
    simp only [isIdle, Bool.and_eq_true, List.isEmpty_iff] at hidle
    obtain ⟨rfl, hfinal⟩ := hidle
    cases focus <;> first | exact .elsewhere rfl rfl rfl | cases hfinal
  · refine .elsewhere (by simp [errand?, hfocus]) rfl ?_
    simp [underway, hfocus, turnTo, Focus.pass?]

/-- A pass begins where the focus is on it, and tasks are requested by commands. -/
theorem focus_of_errand {m : Machine} {errand : Errand} (h : m.errand? = some errand) :
    (errand = .beginPass → m.focus = .passing) ∧
      (errand.requests = true → ∃ c, m.focus = .command c) := by
  obtain ⟨w, focus, stack⟩ := m
  cases focus with
  | command c =>
    refine ⟨?_, fun _ => ⟨c, rfl⟩⟩
    rintro rfl
    cases c <;> cases h
  | passing => cases h; exact ⟨fun _ => rfl, fun h => by cases h⟩
  | firing due fired => cases due <;> cases h <;> (constructor <;> intro h <;> cases h)
  | ended outcome =>
    obtain ⟨_, _, _, _, _, rfl⟩ := errand_of_ended rfl h
    constructor <;> intro h <;> cases h
  | reply r =>
    obtain rfl := errand_of_reply rfl h
    constructor <;> intro h <;> cases h
  | _ => cases h

/-- Where a task is fired, a pass goes on with it. -/
theorem firing_of_errand {m : Machine} {task : Task Action}
    (h : m.errand? = some (.fire task)) : ∃ due k, m.focus = .firing (task :: due) k := by
  obtain ⟨w, focus, stack⟩ := m
  cases focus with
  | command c => cases c <;> cases h
  | firing due k =>
    cases due <;> cases h
    exact ⟨_, k, rfl⟩
  | ended outcome =>
    obtain ⟨_, _, _, _, _, herrand⟩ := errand_of_ended rfl h
    cases herrand
  | reply r => cases errand_of_reply rfl h
  | _ => cases h

end Machine

end TickHost
