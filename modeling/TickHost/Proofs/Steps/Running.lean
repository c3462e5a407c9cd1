import TickHost.Proofs.Steps.Topics

/-!
# Steps and running actions

The action of a task runs above the frame of the pass that has fired it.  A move that fires a task
lets its action run, one that takes note of the end of an action does away with it, and no other
move touches the actions that are running, however deep they are.
-/

namespace TickHost

/-- The task whose action runs above a frame. -/
def Frame.running? : Frame → Option (Task Action)
  | firing task .. => some task
  | _ => none

/-- The tasks that an operation lets run. -/
def Errand.fires : Errand → List (Task Action)
  | fire task => [task]
  | _ => []

/-- The tasks that an operation is done with. -/
def Errand.settles : Errand → List (Task Action)
  | settle task _ => [task]
  | _ => []

namespace Machine

/-- The tasks whose actions are running, the innermost first. -/
def running (m : Machine) : List (Task Action) := m.stack.filterMap Frame.running?

/-- The task that the next move lets run, if there is one. -/
def firing (m : Machine) : List (Task Action) := m.errand?.elim [] Errand.fires

/-- The task that the next move is done with, if there is one. -/
def settling (m : Machine) : List (Task Action) := m.errand?.elim [] Errand.settles

/-- A reply lets no action run and is the end of none. -/
theorem quiet_of_reply (w : World) (S : List Frame) (r : Reply) :
    (⟨w, .reply r, S⟩ : Machine).firing = [] ∧ (⟨w, .reply r, S⟩ : Machine).settling = [] := by
  simp only [firing, settling, errand?]
  split
  · split
    · split <;> exact ⟨rfl, rfl⟩
    · exact ⟨rfl, rfl⟩
  · exact ⟨rfl, rfl⟩

theorem perform_running (w : World) (S : List Frame) (c : Command) :
    (⟨w, .command c, S⟩ : Machine).settling ++ (perform w S c).machine.running =
      (⟨w, .command c, S⟩ : Machine).firing ++ S.filterMap Frame.running? := by
  cases c with
  | proxyTick | proxyLifecycle | config | step | run | samples =>
    simp only [perform]
    split <;> rfl
  | _ => rfl

theorem resume_running (w : World) (S : List Frame) (r : Reply) (frame : Frame) :
    (resume w S r frame).machine.running = (frame :: S).filterMap Frame.running? := by
  cases frame with
  | script current rest =>
    simp only [resume]
    split <;> rfl
  | loop left body rest replies =>
    simp only [resume]
    split <;> rfl
  | settling event =>
    simp only [resume]
    split
    · split <;> rfl
    · rfl
  | stepping phases => cases phases <;> rfl
  | running stage =>
    cases stage with
    | stepping =>
      simp only [resume, nextStage]
      split <;> rfl
    | _ => rfl
  | _ => rfl

theorem step_running {m : Machine} {s : Stepped} (h : m.step? = some s) :
    m.settling ++ s.machine.running = m.firing ++ m.running := by
  cases rule_of_step h with
  | command w S c => exact perform_running w S c
  | resumes w S r frame =>
    obtain ⟨hfiring, hsettling⟩ := quiet_of_reply w (frame :: S) r
    rw [hfiring, hsettling]
    exact resume_running w S r frame
  | finishes w S outcome frame => cases frame <;> rfl
  | callsHandler w S event handler rest count => cases handler <;> rfl
  | callsListener w S hook index listener rest =>
    simp only [notify]
    split <;> rfl
  | _ => rfl

/-- **A move lets an action run when it fires a task, and is done with one when it takes note of its
end.** -/
theorem move_running {m : Machine} {mv : Move} {s : Stepped} (h : m.move? mv = some s) :
    m.settling ++ s.machine.running = m.firing ++ m.running := by
  rcases move?_cases h with h | ⟨hidle, c, -, rfl⟩ | ⟨⟨script, hfocus⟩, commands, rfl⟩
  · exact step_running h
  · obtain ⟨w, focus, stack⟩ := m
    simp only [isIdle, Bool.and_eq_true, List.isEmpty_iff] at hidle
    obtain ⟨rfl, hfinal⟩ := hidle
    cases focus <;> first | rfl | cases hfinal
  · simp [firing, settling, errand?, hfocus, turnTo, running]

end Machine

end TickHost
