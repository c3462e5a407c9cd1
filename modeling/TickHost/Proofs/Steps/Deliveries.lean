import TickHost.Proofs.Steps.Topics

/-!
# Steps and deliveries

A delivery takes the handlers for its event from the table when it begins, and from then on it holds
those that it has yet to call.  No other step touches what deliveries hold, tells of a delivery, or
turns to a pass, unless it is for a command that has the scheduler tick (`move_delivery`).
-/

namespace TickHost

/-! ## 1. Deliveries under way -/

/-- The delivery that waits in a frame: its event, and the handlers that it has yet to call. -/
def Frame.delivery? : Frame → Option (Tick.Event × List Handler)
  | handling _ event rest _ => some (event, rest)
  | _ => none

namespace Focus

/-- The delivery that is gone on with. -/
def delivery? : Focus → Option (Tick.Event × List Handler)
  | handling event rest _ => some (event, rest)
  | _ => none

/-- Whether a pass is begun. -/
def isPassing : Focus → Bool
  | passing => true
  | _ => false

theorem ne_passing {f : Focus} (h : f.isPassing = false) : f ≠ .passing := by
  rintro rfl
  cases h

/-- Whether a delivery is begun or gone on with. -/
def delivers : Focus → Bool
  | dispatching _ | handling .. => true
  | _ => false

end Focus

/-- Whether a command ticks the scheduler itself, or registers it once more, so that ticks reach it
by another way than the first entry of the table. -/
def Command.bypassesProxy : Command → Bool
  | runPass | tickScheduler _ | registerScheduler => true
  | _ => false

/-- Whether such a command is carried out next. -/
def Focus.bypassesProxy : Focus → Bool
  | command c => c.bypassesProxy
  | _ => false

namespace Event

/-- The tick that an event delivers. -/
def deliveredTick? : Event → Option Tick.Event
  | delivered event => some event
  | _ => none

/-- What is about tasks or the session delivers nothing. -/
theorem deliveredTick?_eq_none {e : Event} (h : e.topic ≠ .other) : e.deliveredTick? = none := by
  cases e <;> first | rfl | exact absurd rfl h

end Event

/-- None of these events delivers a tick. -/
def DeliversNone (events : List Event) : Prop := ∀ e ∈ events, e.deliveredTick? = none

namespace DeliversNone

variable {e : Event} {p q : List Event}

theorem nil : DeliversNone [] := List.forall_mem_nil _

theorem cons (he : e.deliveredTick? = none) (h : DeliversNone p) : DeliversNone (e :: p) :=
  List.forall_mem_cons.mpr ⟨he, h⟩

theorem single (he : e.deliveredTick? = none) : DeliversNone [e] := cons he nil

theorem append (hp : DeliversNone p) (hq : DeliversNone q) : DeliversNone (p ++ q) :=
  List.forall_mem_append.mpr ⟨hp, hq⟩

theorem holding {lock : Lock} (h : DeliversNone p) : DeliversNone (World.holding lock p) :=
  cons rfl (h.append (single rfl))

theorem of_about {allowed : Topic → Bool} (h : About allowed p) (hother : allowed .other = false) :
    DeliversNone p := fun e he => Event.deliveredTick?_eq_none (h.avoids hother e he)

end DeliversNone

/-! ## 2. Steps and moves -/

namespace Machine

/-- The deliveries under way, the innermost first. -/
def deliveries (m : Machine) : List (Tick.Event × List Handler) :=
  m.focus.delivery?.toList ++ m.stack.filterMap Frame.delivery?

/-- What a step makes of the deliveries under way. -/
inductive DeliveryStep (m : Machine) (s : Stepped) : Prop
  /-- It is not concerned with deliveries, and turns to a pass only for a command. -/
  | elsewhere (hfocus : m.focus.delivers = false)
      (hdeliveries : s.machine.deliveries = m.deliveries)
      (hpassing : m.focus.bypassesProxy = false → s.machine.focus.isPassing = false)
      (hevents : DeliversNone s.events)
  /-- A delivery begins. -/
  | began (event : Tick.Event) (hfocus : m.focus = .dispatching event)
      (hmachine : s.machine = ⟨m.world, .handling event (m.world.targets event)
        (m.world.targets event).length, m.stack⟩)
      (hevents : s.events = [.delivered event])
  /-- The innermost delivery calls its next handler. -/
  | called (event : Tick.Event) (handler : Handler) (rest : List Handler) (count : Nat)
      (hfocus : m.focus = .handling event (handler :: rest) count)
      (hmachine : s.machine = call m.world m.stack handler event rest count)
      (hevents : s.events = [.handled handler event])
  /-- The innermost delivery ends. -/
  | ended (event : Tick.Event) (count : Nat) (hfocus : m.focus = .handling event [] count)
      (hmachine : s.machine = ⟨m.world, .reply (.count count), m.stack⟩)
      (hevents : s.events = [.deliveryEnded event count])

theorem perform_delivery (w : World) (S : List Frame) (c : Command) :
    DeliveryStep ⟨w, .command c, S⟩ (perform w S c) := by
  cases c with
  | schedule =>
    exact .elsewhere rfl rfl (fun _ => rfl) (.of_about (w.about_request _ _) rfl)
  | fill n delay => exact .elsewhere rfl rfl (fun _ => rfl) (.of_about (w.about_fill n delay) rfl)
  | cancel id => exact .elsewhere rfl rfl (fun _ => rfl) (.of_about (w.about_cancel _) rfl)
  | discard => exact .elsewhere rfl rfl (fun _ => rfl) (.of_about w.about_discard rfl)
  | runPass | tickScheduler => exact .elsewhere rfl rfl (fun h => by cases h) .nil
  | register | registerScheduler => exact .elsewhere rfl rfl (fun _ => rfl) (.single rfl)
  | isScheduled | pending | isEmpty | state | session | listenerCount =>
    exact .elsewhere rfl rfl (fun _ => rfl) (.holding .nil)
  | addListener =>
    refine .elsewhere rfl rfl (fun _ => rfl) ?_
    intro e he
    obtain ⟨events, hevents, he⟩ := List.mem_flatten.mp he
    rw [(List.mem_replicate.mp hevents).2] at he
    exact DeliversNone.holding .nil e he
  | proxyTick | proxyLifecycle | config | step | run | samples | «repeat» =>
    simp only [perform]
    split <;> exact .elsewhere rfl rfl (fun _ => rfl) .nil
  | _ => exact .elsewhere rfl rfl (fun _ => rfl) .nil

theorem resume_delivery (w : World) (S : List Frame) (r : Reply) (frame : Frame) :
    DeliveryStep ⟨w, .reply r, frame :: S⟩ (resume w S r frame) := by
  cases frame with
  | script current rest =>
    simp only [resume]
    split <;> exact .elsewhere rfl rfl (fun _ => rfl) (.single rfl)
  | loop left body rest replies =>
    simp only [resume]
    split <;> exact .elsewhere rfl rfl (fun _ => rfl) .nil
  | settling event =>
    simp only [resume]
    split
    · split
      · refine .elsewhere rfl rfl (fun _ => rfl) (.append (.of_about w.about_discard rfl) ?_)
        split
        · exact .nil
        · exact .single rfl
      · exact .elsewhere rfl rfl (fun _ => rfl) .nil
    · exact .elsewhere rfl rfl (fun _ => rfl) .nil
  | stepping phases => cases phases <;> exact .elsewhere rfl rfl (fun _ => rfl) .nil
  | running stage =>
    cases stage with
    | stepping =>
      simp only [resume, nextStage]
      split
      · exact .elsewhere rfl rfl (fun _ => rfl) (.single rfl)
      · exact .elsewhere rfl rfl (fun _ => rfl) .nil
    | stopping => exact .elsewhere rfl rfl (fun _ => rfl) .nil
    | _ => exact .elsewhere rfl rfl (fun _ => rfl) (.single rfl)
  | _ => exact .elsewhere rfl rfl (fun _ => rfl) .nil

theorem finish_delivery (w : World) (S : List Frame) (outcome : Outcome) (frame : Frame) :
    DeliveryStep ⟨w, .ended outcome, frame :: S⟩ (finish w S outcome frame) := by
  cases frame with
  | firing task due fired =>
    refine .elsewhere rfl rfl (fun _ => rfl) (.cons rfl ?_)
    cases outcome with
    | panicked payload => exact .single rfl
    | _ => exact .nil
  | handling handler event rest count =>
    refine .elsewhere rfl rfl (fun _ => rfl) ?_
    cases outcome with
    | panicked payload => exact .single rfl
    | _ => exact .nil
  | hooking hook body index rest =>
    refine .elsewhere rfl rfl (fun _ => rfl) ?_
    simp only [finish]
    cases body.finish outcome with
    | returned => exact .nil
    | _ => exact .single rfl
  | _ => exact .elsewhere rfl rfl (fun _ => rfl) .nil

/-- What a step makes of the deliveries under way: it begins one, goes on with the innermost, or
leaves them alone. -/
theorem step_delivery {m : Machine} {s : Stepped} (h : m.step? = some s) : DeliveryStep m s := by
  cases rule_of_step h with
  | command w S c => exact perform_delivery w S c
  | resumes w S r frame => exact resume_delivery w S r frame
  | finishes w S outcome frame => exact finish_delivery w S outcome frame
  | deliveryBegins w S event => exact .began event rfl rfl rfl
  | callsHandler w S event handler rest count => exact .called event handler rest count rfl rfl rfl
  | deliveryEnds w S event count => exact .ended event count rfl rfl rfl
  | callsListener w S hook index listener rest =>
    simp only [notify]
    split <;> exact .elsewhere rfl rfl (fun _ => rfl) (.single rfl)
  | passBegins => exact .elsewhere rfl rfl (fun _ => rfl) (.holding (.single rfl))
  | passEnds w S fired =>
    refine .elsewhere rfl rfl (fun _ => rfl) (.append ?_ (.single rfl))
    split
    · exact .nil
    · exact .single rfl
  | refused w S event | moved w S event =>
    exact .elsewhere rfl rfl (fun _ => rfl) (.of_about (w.about_transition event) rfl)
  | hooksBegin w S event hook =>
    exact .elsewhere rfl rfl (fun _ => rfl)
      (.append (.of_about (w.about_transition event) rfl) (.holding (.single rfl)))
  | fires | hooksEnd => exact .elsewhere rfl rfl (fun _ => rfl) (.single rfl)
  | _ => exact .elsewhere rfl rfl (fun _ => rfl) .nil

/-- **A move begins a delivery, goes on with the innermost, or leaves deliveries alone.** -/
theorem move_delivery {m : Machine} {mv : Move} {s : Stepped} (h : m.move? mv = some s) :
    DeliveryStep m s := by
  rcases move?_cases h with h | ⟨hidle, c, -, rfl⟩ | ⟨⟨script, hfocus⟩, commands, rfl⟩
  · exact step_delivery h
  · obtain ⟨w, focus, stack⟩ := m
    simp only [isIdle, Bool.and_eq_true, List.isEmpty_iff] at hidle
    obtain ⟨rfl, hfinal⟩ := hidle
    cases focus <;> first | exact .elsewhere rfl rfl (fun _ => rfl) .nil | cases hfinal
  · refine .elsewhere (by simp [hfocus, Focus.delivers]) ?_ (fun _ => rfl) .nil
    simp [deliveries, hfocus, turnTo, Focus.delivery?]

end Machine

end TickHost
