import TickHost.Proofs.Shelter
import TickHost.Proofs.Steps.Deliveries

/-!
# Steps and what a step of the host has to see to

A step of the host counts itself, lets the sampler see the start of its tick, runs a pass, lets the
sampler see the end, and comes to its end.  These are its duties, in this order.

At any moment, what is left of them can be read off the focus and the stack, whatever user code is
under way in between: each frame stands for the duties that it will see to when it goes on.  This
list is the agenda of a machine.  A move sees to the first duty on it, or leaves it as it is, unless
a step or a run of the host begins (`move_agenda`).

The ticks that a step delivers are its own; all others come from commands (`move_dispatched`).
-/

namespace TickHost

/-! ## 1. Duties -/

/-- Something that a step or a run of the host sees to. -/
inductive Duty where
  /-- The step is counted. -/
  | count
  /-- The sampler sees one half of a tick. -/
  | sample (phase : Tick.Phase)
  /-- A pass begins. -/
  | beginPass
  /-- A pass ends. -/
  | endPass
  /-- The step ends. -/
  | leave
  /-- The run ends. -/
  | quit
  deriving DecidableEq

/-- What the delivery of one half of a tick has to see to. -/
def Tick.Phase.duties : Tick.Phase → List Duty
  | .start => [.sample .start]
  | .finish => [.beginPass, .endPass, .sample .finish]

/-- What a delivery has to see to.  Only ticks of the server are for the scheduler and the sampler.
-/
def Tick.Event.duties (event : Tick.Event) : List Duty :=
  if event.kind = .server then event.phase.duties else []

/-- What a handler sees to when it is called. -/
def Handler.duties (phase : Tick.Phase) : Handler → List Duty
  | scheduler => [.beginPass, .endPass]
  | sampler => [.sample phase]
  | runLimit | script .. => []

/-- What a step of the host has to see to. -/
def stepDuties : List Duty :=
  .count :: (Tick.Phase.duties .start ++ Tick.Phase.duties .finish ++ [.leave])

/-- Whether a step or a run ends. -/
def Duty.ends : Duty → Bool
  | leave | quit => true
  | _ => false

/-- Handlers end neither. -/
theorem Handler.duties_ends {duty : Duty} (hduty : duty.ends = true) {phase : Tick.Phase}
    (handlers : List Handler) : duty ∉ handlers.flatMap (duties phase) := by
  have hothers (handler : Handler) : ∀ other ∈ handler.duties phase, other.ends = false := by
    cases handler <;> simp [duties, Duty.ends]
  intro hmem
  obtain ⟨handler, -, hmem⟩ := List.mem_flatMap.mp hmem
  exact Bool.false_ne_true ((hothers handler duty hmem).symm.trans hduty)

/-- What is seen to when the focus goes on. -/
def Focus.duties : Focus → List Duty
  | stepping => stepDuties
  | dispatching event => event.duties
  | handling event rest _ => rest.flatMap (Handler.duties event.phase)
  | passing => [.beginPass, .endPass]
  | firing .. => [.endPass]
  | _ => []

/-- What is seen to when a frame goes on. -/
def Frame.duties : Frame → List Duty
  | firing .. => [.endPass]
  | handling _ event rest _ => rest.flatMap (Handler.duties event.phase)
  | stepping phases => phases.flatMap Tick.Phase.duties ++ [.leave]
  | running _ => [.quit]
  | _ => []

/-- Whether a command brings a tick to the scheduler or the sampler by itself, or registers the
scheduler once more. -/
def Command.bypassesHost : Command → Bool
  | dispatch event | proxyTick event => event.kind == .server
  | c => c.bypassesProxy

/-- Whether such a command is carried out next. -/
def Focus.bypassesHost : Focus → Bool
  | command c => c.bypassesHost
  | _ => false

/-- **The handlers for a tick see to what its delivery has to see to**, in the same order. -/
def HandlerTable.Dutiful (t : HandlerTable Handler) : Prop :=
  ∀ event : Tick.Event,
    (t.targets Handler.accepts event).flatMap (Handler.duties event.phase) = event.duties

namespace Machine

/-- **What is still to be seen to**, in this order. -/
def agenda (m : Machine) : List Duty := m.focus.duties ++ m.stack.flatMap Frame.duties

/-- The duty that the next move sees to, if there is one. -/
def duty? (m : Machine) : Option Duty :=
  match m.focus with
  | .stepping => some .count
  | .handling event (.sampler :: _) _ => some (.sample event.phase)
  | .passing => some .beginPass
  | .firing [] _ => some .endPass
  | .reply _ =>
    match m.stack with
    | .stepping [] :: _ => some .leave
    | .running .stopped :: _ => some .quit
    | _ => none
  | _ => none

/-! ## 2. Steps and moves -/

/-- What a step makes of the agenda. -/
inductive AgendaStep (m : Machine) (s : Stepped) : Prop
  /-- It leaves it as it is. -/
  | kept (hduty : m.duty? = none) (hagenda : s.machine.agenda = m.agenda)
  /-- It sees to what comes first. -/
  | done (duty : Duty) (hduty : m.duty? = some duty) (hagenda : m.agenda = duty :: s.machine.agenda)
  /-- A step of the host begins, while none is under way, or next in a run. -/
  | stepBegins (hduty : m.duty? = none) (hagenda : s.machine.agenda = stepDuties ++ m.agenda)
      (hfree : .leave ∉ m.agenda ∧ .quit ∉ m.agenda ∨ ∃ rest, m.agenda = .quit :: rest)
  /-- A run of the host begins, while no step or run is under way. -/
  | runBegins (hduty : m.duty? = none) (hagenda : s.machine.agenda = .quit :: m.agenda)
      (hfree : .leave ∉ m.agenda ∧ .quit ∉ m.agenda)

/-- Only who holds the host has a step or a run to end. -/
theorem ends_of_free {S : List Frame} (hfree : hostBusy S = false) :
    .leave ∉ S.flatMap Frame.duties ∧ .quit ∉ S.flatMap Frame.duties := by
  have hholds : ∀ frame ∈ S, frame.holdsHost = false := by
    simpa [hostBusy] using hfree
  have hnone {duty : Duty} (hduty : duty.ends = true) : duty ∉ S.flatMap Frame.duties := by
    intro hmem
    obtain ⟨frame, hframe, hmem⟩ := List.mem_flatMap.mp hmem
    have hother := hholds frame hframe
    cases frame with
    | stepping | running => cases hother
    | handling handler event rest count => exact Handler.duties_ends hduty rest hmem
    | firing =>
      obtain rfl := List.mem_singleton.mp hmem
      cases hduty
    | _ => cases hmem
  exact ⟨hnone rfl, hnone rfl⟩

theorem perform_agenda (w : World) (S : List Frame) (c : Command) (huses : c.bypassesHost = false) :
    AgendaStep ⟨w, .command c, S⟩ (perform w S c) := by
  have hnone {event : Tick.Event} (hkind : (event.kind == .server) = false) :
      event.duties = [] := by
    rw [Tick.Event.duties, if_neg (by simpa using hkind)]
  cases c with
  | runPass | tickScheduler | registerScheduler => cases huses
  | dispatch event =>
    refine .kept rfl ?_
    simp [agenda, perform, turnTo, Focus.duties, hnone huses]
  | proxyTick event =>
    simp only [perform]
    split
    · exact .kept rfl rfl
    · refine .kept rfl ?_
      simp [agenda, turnTo, Focus.duties, Frame.duties, hnone huses]
  | step =>
    simp only [perform]
    split
    · exact .kept rfl rfl
    · rename_i hfree
      simp only [Bool.not_eq_true, Bool.or_eq_false_iff] at hfree
      exact .stepBegins rfl rfl (Or.inl (ends_of_free hfree.2))
  | run ticks =>
    simp only [perform]
    split
    · exact .kept rfl rfl
    · rename_i hfree
      simp only [Bool.not_eq_true, Bool.or_eq_false_iff] at hfree
      exact .runBegins rfl rfl (ends_of_free hfree.2)
  | proxyLifecycle | config | samples | «repeat» =>
    simp only [perform]
    split <;> exact .kept rfl rfl
  | _ => exact .kept rfl rfl

theorem resume_agenda (w : World) (S : List Frame) (r : Reply) (frame : Frame) :
    AgendaStep ⟨w, .reply r, frame :: S⟩ (resume w S r frame) := by
  cases frame with
  | script current rest =>
    simp only [resume]
    split <;> exact .kept rfl rfl
  | loop left body rest replies =>
    simp only [resume]
    split <;> exact .kept rfl rfl
  | settling event =>
    simp only [resume]
    split
    · split <;> exact .kept rfl rfl
    · exact .kept rfl rfl
  | stepping phases =>
    cases phases with
    | nil => exact .done .leave rfl rfl
    | cons phase phases =>
      refine .kept rfl ?_
      simp [agenda, resume, turnTo, Focus.duties, Frame.duties, Tick.Event.duties,
        Tick.Event.server]
  | running stage =>
    cases stage with
    | starting | stopping => exact .kept rfl rfl
    | started => exact .stepBegins rfl rfl (Or.inr ⟨_, rfl⟩)
    | stepping =>
      simp only [resume, nextStage]
      split
      · exact .kept rfl rfl
      · exact .stepBegins rfl rfl (Or.inr ⟨_, rfl⟩)
    | stopped => exact .done .quit rfl rfl
  | _ => exact .kept rfl rfl

theorem finish_agenda (w : World) (S : List Frame) (outcome : Outcome) (frame : Frame)
    (hbears : frame.bears = true) :
    AgendaStep ⟨w, .ended outcome, frame :: S⟩ (finish w S outcome frame) := by
  cases frame with
  | stepping | running | settling | silencing => cases hbears
  | _ => exact .kept rfl rfl

/-- What a step makes of the agenda: it keeps it, sees to what comes first, or begins what the host
has to see to. -/
theorem step_agenda {m : Machine} {s : Stepped} (h : m.step? = some s) (hborne : m.Borne)
    (hdutiful : m.world.handlers.Dutiful)
    (huses : m.focus.bypassesHost = false) : AgendaStep m s := by
  cases rule_of_step h with
  | command w S c => exact perform_agenda w S c huses
  | resumes w S r frame => exact resume_agenda w S r frame
  | finishes w S outcome frame => exact finish_agenda w S outcome frame (hborne.focus rfl _ rfl)
  | passBegins => exact .done .beginPass rfl rfl
  | passEnds => exact .done .endPass rfl rfl
  | hostSteps => exact .done .count rfl rfl
  | deliveryBegins w S event =>
    refine .kept rfl ?_
    have htargets : (w.targets event).flatMap (Handler.duties event.phase) = event.duties :=
      hdutiful event
    simp [agenda, Focus.duties, htargets]
  | callsHandler w S event handler rest count =>
    cases handler with
    | sampler => exact .done (.sample event.phase) rfl rfl
    | _ => exact .kept rfl rfl
  | callsListener w S hook index listener rest =>
    simp only [notify]
    split <;> exact .kept rfl rfl
  | _ => exact .kept rfl rfl

/-- **A move keeps the agenda, sees to what comes first on it, or begins what the host has to see
to.** -/
theorem move_agenda {m : Machine} {mv : Move} {s : Stepped} (h : m.move? mv = some s)
    (hborne : m.Borne) (hdutiful : m.world.handlers.Dutiful)
    (huses : m.focus.bypassesHost = false) : AgendaStep m s := by
  rcases move?_cases h with h | ⟨hidle, c, -, rfl⟩ | ⟨⟨script, hfocus⟩, commands, rfl⟩
  · exact step_agenda h hborne hdutiful huses
  · obtain ⟨w, focus, stack⟩ := m
    simp only [isIdle, Bool.and_eq_true, List.isEmpty_iff] at hidle
    obtain ⟨rfl, hfinal⟩ := hidle
    cases focus <;> first | exact .kept rfl rfl | cases hfinal
  · exact .kept (by simp [duty?, hfocus]) (by simp [agenda, hfocus, turnTo, Focus.duties])

/-! ## 3. Where ticks come from -/

/-- What is to be delivered was turned to by a step of the host, or by the command for it. -/
def Dispatched (m : Machine) (s : Stepped) : Prop :=
  ∀ event, s.machine.focus = .dispatching event →
    (∃ phases S, s.machine.stack = .stepping phases :: S) ∨
      m.focus = .command (.dispatch event) ∨ m.focus = .command (.proxyTick event)

theorem perform_dispatched (w : World) (S : List Frame) (c : Command) :
    Dispatched ⟨w, .command c, S⟩ (perform w S c) := by
  cases c with
  | dispatch event =>
    rintro event' hfocus
    obtain rfl := Focus.dispatching.inj hfocus
    exact Or.inr (Or.inl rfl)
  | proxyTick event =>
    simp only [perform]
    split
    · rintro _ ⟨⟩
    · rintro event' hfocus
      obtain rfl := Focus.dispatching.inj hfocus
      exact Or.inr (Or.inr rfl)
  | proxyLifecycle | config | step | run | samples | «repeat» =>
    simp only [perform]
    split <;> rintro _ ⟨⟩
  | _ => rintro _ ⟨⟩

theorem resume_dispatched (w : World) (S : List Frame) (r : Reply) (frame : Frame) :
    Dispatched ⟨w, .reply r, frame :: S⟩ (resume w S r frame) := by
  cases frame with
  | script current rest =>
    simp only [resume]
    split <;> rintro _ ⟨⟩
  | loop left body rest replies =>
    simp only [resume]
    split <;> rintro _ ⟨⟩
  | settling event =>
    simp only [resume]
    split
    · split <;> rintro _ ⟨⟩
    · rintro _ ⟨⟩
  | stepping phases =>
    cases phases with
    | nil => rintro _ ⟨⟩
    | cons phase phases => exact fun _ _ => Or.inl ⟨phases, S, rfl⟩
  | running stage =>
    cases stage with
    | stepping =>
      simp only [resume, nextStage]
      split <;> rintro _ ⟨⟩
    | _ => rintro _ ⟨⟩
  | _ => rintro _ ⟨⟩

theorem step_dispatched {m : Machine} {s : Stepped} (h : m.step? = some s) : Dispatched m s := by
  cases rule_of_step h with
  | command w S c => exact perform_dispatched w S c
  | resumes w S r frame => exact resume_dispatched w S r frame
  | finishes w S outcome frame => cases frame <;> rintro _ ⟨⟩
  | hostSteps w S => exact fun _ _ => Or.inl ⟨_, S, rfl⟩
  | callsHandler w S event handler rest count => cases handler <;> rintro _ ⟨⟩
  | callsListener w S hook index listener rest =>
    simp only [notify]
    split <;> rintro _ ⟨⟩
  | _ => rintro _ ⟨⟩

/-- **A tick comes from a step of the host, or from the command for it.** -/
theorem move_dispatched {m : Machine} {mv : Move} {s : Stepped} (h : m.move? mv = some s) :
    Dispatched m s := by
  rcases move?_cases h with h | ⟨-, c, -, rfl⟩ | ⟨-, commands, rfl⟩
  · exact step_dispatched h
  · rintro _ ⟨⟩
  · rintro _ ⟨⟩

end Machine

end TickHost
