import TickHost.Proofs.Steps.RollCalls

/-!
# Steps and listeners

The list of listeners grows by the commands for it, at its end, and in no other way.  A hook runs
above a frame of its pass, and it got there as the hook of the listener that the pass has called
(`move_listening`).  So whatever runs as a hook at a position is the hook of the listener that stands
at this position, for good (`Machine.AtPost`).
-/

namespace TickHost

/-- A hook that runs: which one, what it does, and the position of its listener. -/
structure Callee where
  /-- Which hook it is. -/
  hook : Lifecycle.Hook
  /-- What it does. -/
  body : HookBody
  /-- The position of the listener whose hook it is. -/
  index : Nat

/-- The hook that runs above a frame. -/
def Frame.callee? : Frame → Option Callee
  | hooking hook body index _ => some ⟨hook, body, index⟩
  | _ => none

/-- The entries that a command adds to the list of listeners. -/
def Command.listeners : Command → List Listener
  | addListener name kind onStart onStop startFailure stopFailure copies =>
    List.replicate copies ⟨name, kind, ⟨onStart, startFailure⟩, ⟨onStop, stopFailure⟩⟩
  | _ => []

namespace Machine

/-- The entries that the next step adds to the list of listeners. -/
def adds (m : Machine) : List Listener :=
  match m.focus with
  | .command c => c.listeners
  | _ => []

/-- The hooks that run, the innermost first. -/
def callees (m : Machine) : List Callee := m.stack.filterMap Frame.callee?

/-- What a step makes of the list of listeners, and of the hooks that run. -/
structure ListenerStep (m : Machine) (s : Stepped) : Prop where
  /-- Listeners are added at the end. -/
  listeners : s.machine.listeners = m.listeners ++ m.adds
  /-- A hook that runs did so before, or was called. -/
  callees : ∀ callee ∈ s.machine.callees, callee ∈ m.callees ∨
    ∃ listener rest, m.focus = .hooking callee.hook callee.index (listener :: rest) ∧
      listener.hook? callee.hook = some callee.body

/-- A step that adds no listener and calls no hook. -/
theorem ListenerStep.aside {m : Machine} {s : Stepped}
    (hlisteners : s.machine.listeners = m.listeners) (hadds : m.adds = [])
    (hcallees : s.machine.callees = m.callees) : ListenerStep m s :=
  ⟨by rw [hlisteners, hadds, List.append_nil], fun _ h => Or.inl (hcallees ▸ h)⟩

theorem perform_listening (w : World) (S : List Frame) (c : Command) :
    ListenerStep ⟨w, .command c, S⟩ (perform w S c) := by
  cases c with
  | schedule name delay guarded onRefusal body =>
    have hsame := w.request_coordinator (delay.getD 0) (.script name guarded body)
    exact .aside (congrArg Coordinator.listeners hsame) rfl rfl
  | fill n delay => exact .aside (congrArg Coordinator.listeners (w.fill_coordinator n delay)) rfl rfl
  | cancel id =>
    exact .aside (congrArg Coordinator.listeners (w.cancel_coordinator (.ofNat id))) rfl rfl
  | addListener => exact ⟨rfl, fun _ h => Or.inl h⟩
  | proxyTick | proxyLifecycle | config | step | run | samples =>
    simp only [perform]
    split <;> exact .aside rfl rfl rfl
  | _ => exact .aside rfl rfl rfl

theorem resume_listening (w : World) (S : List Frame) (r : Reply) (frame : Frame) :
    ListenerStep ⟨w, .reply r, frame :: S⟩ (resume w S r frame) := by
  cases frame with
  | script current rest =>
    simp only [resume]
    split <;> exact .aside rfl rfl rfl
  | loop left body rest replies =>
    simp only [resume]
    split <;> exact .aside rfl rfl rfl
  | settling event =>
    simp only [resume]
    split
    · split <;> exact .aside rfl rfl rfl
    · exact .aside rfl rfl rfl
  | stepping phases => cases phases <;> exact .aside rfl rfl rfl
  | running stage =>
    cases stage with
    | stepping =>
      simp only [resume, nextStage]
      split <;> exact .aside rfl rfl rfl
    | _ => exact .aside rfl rfl rfl
  | _ => exact .aside rfl rfl rfl

theorem finish_listening (w : World) (S : List Frame) (outcome : Outcome) (frame : Frame) :
    ListenerStep ⟨w, .ended outcome, frame :: S⟩ (finish w S outcome frame) := by
  cases frame with
  | hooking hook body index rest =>
    exact ⟨(List.append_nil _).symm, fun _ h => Or.inl (List.mem_cons_of_mem _ h)⟩
  | _ => exact .aside rfl rfl rfl

theorem step_listening {m : Machine} {s : Stepped} (h : m.step? = some s) : ListenerStep m s := by
  cases rule_of_step h with
  | command w S c => exact perform_listening w S c
  | resumes w S r frame => exact resume_listening w S r frame
  | finishes w S outcome frame => exact finish_listening w S outcome frame
  | callsHandler w S event handler rest count => cases handler <;> exact .aside rfl rfl rfl
  | callsListener w S hook index listener rest =>
    simp only [notify]
    split
    · rename_i body hbody
      refine ⟨(List.append_nil _).symm, List.forall_mem_cons.mpr ⟨?_, fun _ h => Or.inl h⟩⟩
      exact Or.inr ⟨listener, rest, rfl, hbody⟩
    · exact .aside rfl rfl rfl
  | refused w S event | moved w S event | hooksBegin w S event =>
    exact .aside (w.transition_listeners event) rfl rfl
  | _ => exact .aside rfl rfl rfl

/-- **A move adds the listeners that it is for**, and a hook runs only if it did before or is called
now. -/
theorem move_listening {m : Machine} {mv : Move} {s : Stepped} (h : m.move? mv = some s) :
    ListenerStep m s := by
  rcases move?_cases h with h | ⟨hidle, c, -, rfl⟩ | ⟨⟨script, hfocus⟩, commands, rfl⟩
  · exact step_listening h
  · obtain ⟨w, focus, stack⟩ := m
    simp only [isIdle, Bool.and_eq_true, List.isEmpty_iff] at hidle
    obtain ⟨rfl, hfinal⟩ := hidle
    cases focus <;> first | exact .aside rfl rfl rfl | cases hfinal
  · exact .aside rfl (by rw [adds, hfocus]) rfl

/-- Every hook that runs is that of the listener at its position. -/
def AtPost (m : Machine) : Prop :=
  ∀ callee ∈ m.callees, ∃ listener, m.listeners[callee.index]? = some listener ∧
    listener.hook? callee.hook = some callee.body

/-- A move keeps every hook at its post. -/
theorem AtPost.move {m : Machine} {mv : Move} {s : Stepped} (h : m.AtPost) (hroll : m.OnRoll)
    (hmove : m.move? mv = some s) : s.machine.AtPost := by
  have hstep := move_listening hmove
  intro callee hcallee
  have hposted : ∃ listener, m.listeners[callee.index]? = some listener ∧
      listener.hook? callee.hook = some callee.body := by
    rcases hstep.callees callee hcallee with hbefore | ⟨listener, rest, hfocus, hbody⟩
    · exact h callee hbefore
    · have hnext : m.rollCalls = ⟨callee.hook, callee.index, listener :: rest⟩ ::
          m.stack.filterMap Frame.rollCall? := by
        rw [rollCalls, hfocus]
        rfl
      exact ⟨listener, hroll.listener_at hnext, hbody⟩
  obtain ⟨listener, hat, hbody⟩ := hposted
  refine ⟨listener, ?_, hbody⟩
  obtain ⟨hlt, hget⟩ := List.getElem?_eq_some_iff.mp hat
  rw [hstep.listeners, List.getElem?_append_left hlt, hat]

end Machine

end TickHost
