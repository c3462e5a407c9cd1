import TickHost.Proofs.Steps.Rules

/-!
# Steps, handlers and the host

What connects the components changes rarely: the configuration of the proxy never does, a handler is
added to the table by the commands for it and stays there, and the host is looked after in few
places (`move_wiring`).
-/

namespace TickHost

/-- The handler that a command registers. -/
def Command.handler? : Command → Option Handler
  | register name kinds phases body => some (.script name kinds phases body)
  | registerScheduler => some .scheduler
  | _ => none

namespace Machine

/-- The handler that is registered next. -/
def registers? (m : Machine) : Option Handler :=
  match m.focus with
  | .command c => c.handler?
  | _ => none

/-- What the next step makes of the host, if there is one. -/
def tends (m : Machine) : Host → Host :=
  match m.focus with
  | .stepping => fun h => { h with ticks := h.ticks + 1 }
  | .command .stop => fun h => { h with cancelled := true }
  | .command (.run ticks) =>
    if hostBusy m.stack then id
    else fun h => { h with cancelled := false, limit := some (h.ticks + ticks) }
  | .handling event (.sampler :: _) _ => fun h => { h with sampler := h.sampler.tick event.phase }
  | .handling event (.runLimit :: _) _ => fun h =>
    match h.limit with
    | some limit => if limit ≤ event.number then { h with cancelled := true } else h
    | none => h
  | .reply _ =>
    match m.stack with
    | .running .stopped :: _ => fun h => { h with limit := none }
    | _ => id
  | _ => id

/-- **What a move makes of the connections**: the proxy stays as it is, a handler may be registered,
and the host is looked after. -/
structure WiringStep (m : Machine) (w : World) : Prop where
  proxy : w.proxy = m.world.proxy
  handlers : w.handlers =
    match m.registers? with
    | some handler => m.world.handlers.register handler handler.kinds
    | none => m.world.handlers
  host : w.host = m.world.host.map m.tends

/-- A step that leaves the world as it is, but for tasks and the session. -/
theorem WiringStep.kept {m : Machine} {w : World} (hregisters : m.registers? = none)
    (htends : m.tends = id) (hworld : ∃ scheduler coordinator,
      w = { m.world with scheduler := scheduler, coordinator := coordinator }) :
    WiringStep m w := by
  obtain ⟨scheduler, coordinator, rfl⟩ := hworld
  exact ⟨rfl, by rw [hregisters], by rw [htends, Option.map_id]; rfl⟩

theorem request_wiring (w : World) (delay : Int) (action : Action) :
    ∃ scheduler, (w.request delay action).world = { w with scheduler := scheduler } := by
  simp only [World.request]
  split <;> exact ⟨_, rfl⟩

theorem fill_wiring (w : World) (n : Nat) (delay : Int) :
    ∃ scheduler, (w.fill n delay).world = { w with scheduler := scheduler } := by
  simp only [World.fill]
  split
  · split <;> exact ⟨_, rfl⟩
  · exact ⟨_, rfl⟩

theorem cancel_wiring (w : World) (h : Handle) :
    ∃ scheduler, (w.cancel h).world = { w with scheduler := scheduler } := by
  simp only [World.cancel]
  split <;> exact ⟨_, rfl⟩

theorem transition_wiring (w : World) (event : Lifecycle.Event) :
    ∃ coordinator, (w.transition event).world = { w with coordinator := coordinator } := by
  simp only [World.transition]
  split
  · exact ⟨_, rfl⟩
  · split
    · exact ⟨_, rfl⟩
    · split <;> exact ⟨_, rfl⟩
    · exact ⟨_, rfl⟩

theorem perform_wiring (w : World) (S : List Frame) (c : Command) :
    WiringStep ⟨w, .command c, S⟩ (perform w S c).machine.world := by
  cases c with
  | schedule name delay guarded onRefusal body =>
    obtain ⟨scheduler, hsame⟩ := request_wiring w (delay.getD 0) (.script name guarded body)
    exact .kept rfl rfl ⟨scheduler, _, hsame⟩
  | fill n delay =>
    obtain ⟨scheduler, hsame⟩ := fill_wiring w n delay
    exact .kept rfl rfl ⟨scheduler, _, hsame⟩
  | cancel id =>
    obtain ⟨scheduler, hsame⟩ := cancel_wiring w (.ofNat id)
    exact .kept rfl rfl ⟨scheduler, _, hsame⟩
  | register | registerScheduler => exact ⟨rfl, rfl, Option.map_id.symm ▸ rfl⟩
  | stop => exact ⟨rfl, rfl, rfl⟩
  | run ticks =>
    simp only [perform]
    split
    · rename_i hrefused
      refine ⟨rfl, rfl, ?_⟩
      rcases Bool.or_eq_true_iff.mp hrefused with hnone | hbusy
      · simp [refuse, answer, Option.isNone_iff_eq_none.mp hnone]
      · simp [refuse, answer, tends, hbusy]
    · rename_i hfree
      simp only [Bool.not_eq_true, Bool.or_eq_false_iff] at hfree
      exact ⟨rfl, rfl, by simp [turnTo, tends, hfree.2, World.startRun, World.updateHost]⟩
  | proxyTick | proxyLifecycle | config | step | samples =>
    simp only [perform]
    split <;> exact .kept rfl rfl ⟨_, _, rfl⟩
  | _ => exact .kept rfl rfl ⟨_, _, rfl⟩

theorem resume_wiring (w : World) (S : List Frame) (r : Reply) (frame : Frame) :
    WiringStep ⟨w, .reply r, frame :: S⟩ (resume w S r frame).machine.world := by
  cases frame with
  | script current rest =>
    simp only [resume]
    split <;> exact .kept rfl rfl ⟨_, _, rfl⟩
  | loop left body rest replies =>
    simp only [resume]
    split <;> exact .kept rfl rfl ⟨_, _, rfl⟩
  | settling event =>
    simp only [resume]
    split
    · split <;> exact .kept rfl rfl ⟨_, _, rfl⟩
    · exact .kept rfl rfl ⟨_, _, rfl⟩
  | stepping phases => cases phases <;> exact .kept rfl rfl ⟨_, _, rfl⟩
  | running stage =>
    cases stage with
    | stepping =>
      simp only [resume, nextStage]
      split <;> exact .kept rfl rfl ⟨_, _, rfl⟩
    | stopped => exact ⟨rfl, rfl, rfl⟩
    | _ => exact .kept rfl rfl ⟨_, _, rfl⟩
  | _ => exact .kept rfl rfl ⟨_, _, rfl⟩

theorem step_wiring {m : Machine} {s : Stepped} (h : m.step? = some s) :
    WiringStep m s.machine.world := by
  cases rule_of_step h with
  | command w S c => exact perform_wiring w S c
  | resumes w S r frame => exact resume_wiring w S r frame
  | finishes w S outcome frame => cases frame <;> exact .kept rfl rfl ⟨_, _, rfl⟩
  | callsHandler w S event handler rest count =>
    cases handler with
    | sampler | runLimit => exact ⟨rfl, rfl, rfl⟩
    | _ => exact .kept rfl rfl ⟨_, _, rfl⟩
  | callsListener w S hook index listener rest =>
    simp only [notify]
    split <;> exact .kept rfl rfl ⟨_, _, rfl⟩
  | hostSteps => exact ⟨rfl, rfl, rfl⟩
  | refused w S event | moved w S event | hooksBegin w S event =>
    obtain ⟨coordinator, hsame⟩ := transition_wiring w event
    exact .kept rfl rfl ⟨_, coordinator, hsame⟩
  | _ => exact .kept rfl rfl ⟨_, _, rfl⟩

/-- **The proxy stays as it is, handlers are added by the commands for it, and the host is looked
after in a few places only.** -/
theorem move_wiring {m : Machine} {mv : Move} {s : Stepped} (h : m.move? mv = some s) :
    WiringStep m s.machine.world := by
  rcases move?_cases h with h | ⟨hidle, c, -, rfl⟩ | ⟨⟨script, hfocus⟩, commands, rfl⟩
  · exact step_wiring h
  · obtain ⟨w, focus, stack⟩ := m
    simp only [isIdle, Bool.and_eq_true, List.isEmpty_iff] at hidle
    obtain ⟨rfl, hfinal⟩ := hidle
    cases focus <;> first | exact .kept rfl rfl ⟨_, _, rfl⟩ | cases hfinal
  · exact .kept (by simp [registers?, hfocus]) (by simp [tends, hfocus]) ⟨_, _, rfl⟩

end Machine

end TickHost
