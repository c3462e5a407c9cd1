import TickHost.Proofs.Steps.Topics

/-!
# Steps and the session

Of all the steps of the machine only one kind moves the session: that which hands an event to the
lifecycle.  Every other move leaves state and session number alone (`move_session`).
-/

namespace TickHost

namespace World

theorem request_coordinator (w : World) (delay : Int) (action : Action) :
    (w.request delay action).world.coordinator = w.coordinator := by
  simp only [request]
  split <;> rfl

theorem fill_coordinator (w : World) (n : Nat) (delay : Int) :
    (w.fill n delay).world.coordinator = w.coordinator := by
  simp only [fill]
  split
  · split <;> rfl
  · rfl

theorem cancel_coordinator (w : World) (h : Handle) :
    (w.cancel h).world.coordinator = w.coordinator := by
  simp only [cancel]
  split <;> rfl

end World

namespace Machine

/-- The state of the session. -/
def state (m : Machine) : Lifecycle.State := m.world.coordinator.state

/-- The number of the session. -/
def session (m : Machine) : Nat := m.world.coordinator.session

/-- What a move makes of the session. -/
inductive SessionStep (m : Machine) (s : Stepped) : Prop
  /-- It is not concerned with the session. -/
  | elsewhere (hevent : m.event? = none) (hstate : s.machine.state = m.state)
      (hsession : s.machine.session = m.session)
  /-- An event is handed to the lifecycle. -/
  | moving (event : Lifecycle.Event) (hfocus : m.focus = .moving event) (hstep : m.step? = some s)

theorem perform_session (w : World) (S : List Frame) (c : Command) :
    SessionStep ⟨w, .command c, S⟩ (perform w S c) := by
  cases c with
  | schedule name delay guarded onRefusal body =>
    have hsame := w.request_coordinator (delay.getD 0) (.script name guarded body)
    exact .elsewhere rfl (congrArg Coordinator.state hsame) (congrArg Coordinator.session hsame)
  | fill n delay =>
    have hsame := w.fill_coordinator n delay
    exact .elsewhere rfl (congrArg Coordinator.state hsame) (congrArg Coordinator.session hsame)
  | cancel id =>
    have hsame := w.cancel_coordinator (.ofNat id)
    exact .elsewhere rfl (congrArg Coordinator.state hsame) (congrArg Coordinator.session hsame)
  | proxyTick | proxyLifecycle | config | step | run | samples =>
    simp only [perform]
    split <;> exact .elsewhere rfl rfl rfl
  | _ => exact .elsewhere rfl rfl rfl

theorem resume_session (w : World) (S : List Frame) (r : Reply) (frame : Frame) :
    SessionStep ⟨w, .reply r, frame :: S⟩ (resume w S r frame) := by
  cases frame with
  | script current rest =>
    simp only [resume]
    split <;> exact .elsewhere rfl rfl rfl
  | loop left body rest replies =>
    simp only [resume]
    split <;> exact .elsewhere rfl rfl rfl
  | settling event =>
    simp only [resume]
    split
    · split <;> exact .elsewhere rfl rfl rfl
    · exact .elsewhere rfl rfl rfl
  | stepping phases => cases phases <;> exact .elsewhere rfl rfl rfl
  | running stage =>
    cases stage with
    | stepping =>
      simp only [resume, nextStage]
      split <;> exact .elsewhere rfl rfl rfl
    | _ => exact .elsewhere rfl rfl rfl
  | _ => exact .elsewhere rfl rfl rfl

/-- What a step does about the session: it hands an event to the lifecycle, or it does nothing. -/
theorem step_session {m : Machine} {s : Stepped} (h : m.step? = some s) : SessionStep m s := by
  cases rule_of_step h with
  | command w S c => exact perform_session w S c
  | resumes w S r frame => exact resume_session w S r frame
  | finishes w S outcome frame => cases frame <;> exact .elsewhere rfl rfl rfl
  | callsHandler w S event handler rest count => cases handler <;> exact .elsewhere rfl rfl rfl
  | callsListener w S hook index listener rest =>
    simp only [notify]
    split <;> exact .elsewhere rfl rfl rfl
  | refused w S event | moved w S event | hooksBegin w S event => exact .moving event rfl h
  | _ => exact .elsewhere rfl rfl rfl

/-- **A move that hands no event to the lifecycle leaves the session alone.** -/
theorem move_session {m : Machine} {mv : Move} {s : Stepped} (h : m.move? mv = some s) :
    SessionStep m s := by
  rcases move?_cases h with h | ⟨hidle, c, -, rfl⟩ | ⟨⟨script, hfocus⟩, commands, rfl⟩
  · exact step_session h
  · obtain ⟨w, focus, stack⟩ := m
    simp only [isIdle, Bool.and_eq_true, List.isEmpty_iff] at hidle
    obtain ⟨rfl, hfinal⟩ := hidle
    cases focus <;> first | exact .elsewhere rfl rfl rfl | cases hfinal
  · exact .elsewhere (by simp [event?, hfocus]) rfl rfl

end Machine

end TickHost
