import TickHost.Proofs.Steps.Rules

/-!
# Steps and the stack

A step touches the top of the stack only, and takes a frame off it only when there is a reply or an
end for that frame (`step_stack`).  So whatever was begun on a stack leaves that stack as it was
for as long as it is under way.

Some frames are user code that waits, others are operations that wait for user code and take note of
how it ends.  `step_stack` tells these apart: user code goes on only where it was, or on top of an
operation that takes note of its end.
-/

namespace TickHost

/-- Whether what is done next is user code. -/
def Focus.isUserCode : Focus → Bool
  | command (.exit _) | command (.repeat ..) | script _ | looping .. | ended _ => true
  | _ => false

namespace Frame

/-- Whether user code waits in a frame. -/
def isUserCode : Frame → Bool
  | script .. | loop .. => true
  | _ => false

/-- Whether a frame takes note of how the callback above it ends. -/
def catches : Frame → Bool
  | firing .. | handling .. | hooking .. => true
  | _ => false

end Frame

namespace Machine

/-- What a step makes of the stack, and where user code is afterwards. -/
inductive StackStep (m n : Machine) : Prop
  /-- It stays. -/
  | kept (h : n.stack = m.stack)
      (huser : n.focus.isUserCode = true → m.focus.isUserCode = true)
  /-- It grows by a frame. -/
  | pushed (frame : Frame) (h : n.stack = frame :: m.stack)
      (hframe : frame.isUserCode = true → m.focus.isUserCode = true)
      (huser : n.focus.isUserCode = true → frame.isUserCode = true ∨ frame.catches = true)
  /-- It loses the top frame, which has got its reply or its end. -/
  | popped (frame : Frame) (hfinal : m.focus.isFinal = true) (h : m.stack = frame :: n.stack)
      (huser : n.focus.isUserCode = true →
        frame.isUserCode = true ∨ m.focus.isUserCode = true ∧ frame.catches = false)
  /-- The top frame has got its reply or its end and gives way to another. -/
  | replaced (frame frame' : Frame) (rest : List Frame) (hfinal : m.focus.isFinal = true)
      (h : m.stack = frame :: rest) (h' : n.stack = frame' :: rest)
      (hframe : frame'.isUserCode = false)
      (huser : n.focus.isUserCode = true → frame'.catches = true)

theorem perform_stack (w : World) (stack : List Frame) (c : Command) :
    StackStep ⟨w, .command c, stack⟩ (perform w stack c).machine := by
  cases c with
  | tickScheduler event => exact .pushed _ rfl nofun nofun
  | proxyTick event | run ticks =>
    simp only [perform]
    split
    · exact .kept rfl nofun
    · exact .pushed _ rfl nofun nofun
  | proxyLifecycle event | config | step | samples =>
    simp only [perform]
    split <;> exact .kept rfl nofun
  | exit outcome | «repeat» n body => exact .kept rfl fun _ => rfl
  | _ => exact .kept rfl nofun

theorem nextStage_stack (w : World) (stack : List Frame) (r : Reply) (stage : Stage) :
    StackStep ⟨w, .reply r, .running stage :: stack⟩ (nextStage w stack stage).machine := by
  cases stage with
  | stepping =>
    simp only [nextStage]
    split <;> exact .replaced _ _ stack rfl rfl rfl rfl nofun
  | stopped => exact .popped _ rfl rfl nofun
  | _ => exact .replaced _ _ stack rfl rfl rfl rfl nofun

theorem resume_stack (w : World) (stack : List Frame) (r : Reply) (frame : Frame) :
    StackStep ⟨w, .reply r, frame :: stack⟩ (resume w stack r frame).machine := by
  cases frame with
  | script current rest =>
    simp only [resume]
    split <;> exact .popped _ rfl rfl fun _ => Or.inl rfl
  | loop left body rest replies =>
    simp only [resume]
    split <;> exact .popped _ rfl rfl fun _ => Or.inl rfl
  | settling event =>
    simp only [resume]
    split
    · split <;> exact .popped _ rfl rfl nofun
    · exact .popped _ rfl rfl nofun
  | stepping phases =>
    cases phases with
    | nil => exact .popped _ rfl rfl nofun
    | cons phase phases => exact .replaced _ _ stack rfl rfl rfl rfl nofun
  | running stage => exact nextStage_stack w stack r stage
  | handling | silencing => exact .popped _ rfl rfl nofun
  | firing | hooking => exact .replaced _ _ stack rfl rfl rfl rfl fun _ => rfl

theorem finish_stack (w : World) (stack : List Frame) (outcome : Outcome) (frame : Frame) :
    StackStep ⟨w, .ended outcome, frame :: stack⟩ (finish w stack outcome frame).machine := by
  cases frame with
  | firing | handling | hooking => exact .popped _ rfl rfl nofun
  | _ => exact .popped _ rfl rfl fun _ => Or.inr ⟨rfl, rfl⟩

/-- **A step touches the top of the stack only**, takes a frame off only when there is something for
that frame, and lets user code go on only where it was or where its end is taken note of. -/
theorem step_stack {m : Machine} {s : Stepped} (h : m.step? = some s) :
    StackStep m s.machine := by
  cases rule_of_step h with
  | command w S c => exact perform_stack w S c
  | resumes w S r frame => exact resume_stack w S r frame
  | finishes w S outcome frame => exact finish_stack w S outcome frame
  | scriptEnds | loopBeginsAnew | loopEnds => exact .kept rfl fun _ => rfl
  | scriptGoesOn | loopGoesOn => exact .pushed _ rfl (fun _ => rfl) fun _ => Or.inl rfl
  | fires => exact .pushed _ rfl nofun fun _ => Or.inr rfl
  | callsHandler w S event handler rest count =>
    cases handler
    · exact .pushed _ rfl nofun nofun
    · exact .kept rfl nofun
    · exact .kept rfl nofun
    · exact .pushed _ rfl nofun fun _ => Or.inr rfl
  | callsListener w S hook index listener rest =>
    simp only [notify]
    split
    · exact .pushed _ rfl nofun fun _ => Or.inr rfl
    · exact .kept rfl nofun
  | settles | hostSteps => exact .pushed _ rfl nofun nofun
  | _ => exact .kept rfl nofun

/-- What was begun on a stack stays on it: no step takes a frame of `S` unless the machine is back
at `S`. -/
theorem step_above {m : Machine} {s : Stepped} {above S : List Frame} (h : m.step? = some s)
    (hstack : m.stack = above ++ S) (hback : ¬ m.BackAt S) :
    ∃ above', s.machine.stack = above' ++ S := by
  cases step_stack h with
  | kept hs => exact ⟨above, hs.trans hstack⟩
  | pushed f hs => exact ⟨f :: above, by rw [hs, hstack, List.cons_append]⟩
  | popped f hfinal hs =>
    cases above with
    | nil => exact absurd ⟨hstack, hfinal⟩ hback
    | cons f' above =>
      rw [hstack, List.cons_append] at hs
      exact ⟨above, (List.cons.inj hs).2.symm⟩
  | replaced f g rest hfinal hs hs' =>
    cases above with
    | nil => exact absurd ⟨hstack, hfinal⟩ hback
    | cons f' above =>
      rw [hstack, List.cons_append] at hs
      exact ⟨g :: above, by rw [hs', ← (List.cons.inj hs).2, List.cons_append]⟩

/-- The same for a move. -/
theorem move_above {m : Machine} {mv : Move} {s : Stepped} {above S : List Frame}
    (h : m.move? mv = some s) (hstack : m.stack = above ++ S) (hback : ¬ m.BackAt S) :
    ∃ above', s.machine.stack = above' ++ S := by
  rcases move?_cases h with h | ⟨hidle, -⟩ | ⟨-, commands, rfl⟩
  · exact step_above h hstack hback
  · simp only [isIdle, Bool.and_eq_true, List.isEmpty_iff] at hidle
    obtain ⟨rfl, rfl⟩ := List.append_eq_nil_iff.mp (hstack.symm.trans hidle.1)
    exact absurd hidle hback
  · exact ⟨above, hstack⟩

/-- A machine that is back at a frame hands it the reply or the end that it waits for. -/
theorem move_back {m : Machine} {mv : Move} {s : Stepped} {S : List Frame} {frame : Frame}
    (h : m.move? mv = some s) (hback : m.BackAt (frame :: S)) :
    (∃ r, m.focus = .reply r ∧ s = resume m.world S r frame) ∨
    ∃ outcome, m.focus = .ended outcome ∧ s = finish m.world S outcome frame := by
  obtain ⟨w, focus, stack⟩ := m
  obtain ⟨rfl, hfinal⟩ : stack = frame :: S ∧ focus.isFinal = true := hback
  cases focus with
  | reply r => exact Or.inl ⟨r, rfl, (Option.some.inj (step_of_move h rfl nofun)).symm⟩
  | ended outcome => exact Or.inr ⟨outcome, rfl, (Option.some.inj (step_of_move h rfl nofun)).symm⟩
  | _ => cases hfinal

/-- **A frame stays where it is until it gets what it waits for.** -/
theorem move_under {m : Machine} {mv : Move} {s : Stepped} {above S : List Frame} {frame : Frame}
    (h : m.move? mv = some s) (hstack : m.stack = above ++ frame :: S) :
    (∃ above', s.machine.stack = above' ++ frame :: S) ∨
    (∃ r, m.focus = .reply r ∧ s = resume m.world S r frame) ∨
    ∃ outcome, m.focus = .ended outcome ∧ s = finish m.world S outcome frame := by
  by_cases hback : m.BackAt (frame :: S)
  · exact Or.inr (move_back h hback)
  · exact Or.inl (move_above h hstack hback)

end Machine

end TickHost
