import TickHost.Proofs.Steps.Stack
import TickHost.Proofs.Steps.Wiring

/-!
# Steps and whoever holds the host

A step or a run of the host holds it, and then other commands for it are refused.  So while it is
held, nobody takes hold of it further up, and only the one who holds it counts a step (`move_host`).
-/

namespace TickHost

/-- Whether a step of the host begins. -/
def Focus.isStepping : Focus → Bool
  | stepping => true
  | _ => false

namespace Machine

/-- What a step makes of the frames that hold the host. -/
inductive HostStep (m : Machine) (s : Stepped) : Prop
  /-- They stay as they are, and no step of the host begins. -/
  | spared (hframes : s.machine.stack.filter Frame.holdsHost = m.stack.filter Frame.holdsHost)
      (hfocus : s.machine.focus.isStepping = false)
  /-- The host is free, and taken by a command. -/
  | taken (hfree : hostBusy m.stack = false)
  /-- A step of the host is made. -/
  | stepped (hfocus : m.focus.isStepping = true)
  /-- The frame on top holds the host and gets its reply or its end. -/
  | answered (frame : Frame) (rest : List Frame) (hfinal : m.focus.isFinal = true)
      (hstack : m.stack = frame :: rest) (hholds : frame.holdsHost = true)

theorem perform_host (w : World) (S : List Frame) (c : Command) :
    HostStep ⟨w, .command c, S⟩ (perform w S c) := by
  cases c with
  | step | run =>
    simp only [perform]
    split
    · exact .spared rfl rfl
    · rename_i hfree
      simp only [Bool.not_eq_true, Bool.or_eq_false_iff] at hfree
      exact .taken hfree.2
  | proxyTick | proxyLifecycle | config | samples | «repeat» =>
    simp only [perform]
    split <;> exact .spared rfl rfl
  | _ => exact .spared rfl rfl

theorem resume_host (w : World) (S : List Frame) (r : Reply) (frame : Frame) :
    HostStep ⟨w, .reply r, frame :: S⟩ (resume w S r frame) := by
  cases frame with
  | script current rest =>
    simp only [resume]
    split <;> exact .spared rfl rfl
  | loop left body rest replies =>
    simp only [resume]
    split <;> exact .spared rfl rfl
  | settling event =>
    simp only [resume]
    split
    · split <;> exact .spared rfl rfl
    · exact .spared rfl rfl
  | stepping | running => exact .answered _ S rfl rfl rfl
  | _ => exact .spared rfl rfl

/-- What a step makes of the frames that hold the host. -/
theorem step_host {m : Machine} {s : Stepped} (h : m.step? = some s) : HostStep m s := by
  cases rule_of_step h with
  | command w S c => exact perform_host w S c
  | resumes w S r frame => exact resume_host w S r frame
  | finishes w S outcome frame =>
    cases frame with
    | stepping | running => exact .answered _ S rfl rfl rfl
    | _ => exact .spared rfl rfl
  | callsHandler w S event handler rest count => cases handler <;> exact .spared rfl rfl
  | callsListener w S hook index listener rest =>
    simp only [notify]
    split <;> exact .spared rfl rfl
  | hostSteps => exact .stepped rfl
  | _ => exact .spared rfl rfl

/-- **The host is held as before**, unless it is taken while it is free, makes a step, or its holder
goes on. -/
theorem move_host {m : Machine} {mv : Move} {s : Stepped} (h : m.move? mv = some s) :
    HostStep m s := by
  rcases move?_cases h with h | ⟨hidle, c, -, rfl⟩ | ⟨-, commands, rfl⟩
  · exact step_host h
  · simp only [isIdle, Bool.and_eq_true, List.isEmpty_iff] at hidle
    exact .spared (by rw [hidle.1]; rfl) rfl
  · exact .spared rfl rfl

/-- While the host is held and no step of it begins, its count of steps stays, and a run that was
told to stop remains so. -/
theorem tends_held {m : Machine} (hfocus : m.focus.isStepping = false)
    (hbusy : hostBusy m.stack = true) (host : Host) :
    (m.tends host).ticks = host.ticks ∧
      (host.cancelled = true → (m.tends host).cancelled = true) := by
  obtain ⟨w, focus, stack⟩ := m
  simp only [tends]
  split
  · cases hfocus
  · exact ⟨rfl, fun _ => rfl⟩
  · rw [if_pos hbusy]
    exact ⟨rfl, id⟩
  · exact ⟨rfl, id⟩
  · split
    · split
      · exact ⟨rfl, fun _ => rfl⟩
      · exact ⟨rfl, id⟩
    · exact ⟨rfl, id⟩
  · split
    · exact ⟨rfl, id⟩
    · exact ⟨rfl, id⟩
  · exact ⟨rfl, id⟩

end Machine

end TickHost
