import TickHost.Proofs.Attendance
import TickHost.Proofs.Hosting
import TickHost.Proofs.Ledger
import TickHost.Proofs.Steps.Duties
import TickHost.Proofs.Steps.Running

/-!
# Three counters in step

A host counts its steps, its scheduler counts passes, and its sampler counts ticks.  Each counter is
moved on by somebody else and at another moment of a step.  They agree nevertheless, unless ticks
are brought to the scheduler or the sampler past the host:

* What is left of a step is the agenda of the machine, and it is one of few lists (`agendas`),
  whatever user code is under way.
* If all that is on the agenda were done, the counters would agree (`Machine.InTime`).  A move sees
  to what comes first, so this is kept (`Machine.InTime.move`).
* Between two steps nothing is on the agenda, so the counters agree (`Machine.InTime.between`).
  While an action runs, its pass is yet to be counted (`Machine.InTime.behind`).
-/

namespace TickHost

/-! ## 1. Counters -/

/-- The counters of a host, its scheduler and its sampler. -/
structure Counters where
  /-- How many steps were made. -/
  ticks : Nat
  /-- How many passes were completed. -/
  passes : Nat
  /-- The sampler. -/
  sampler : Sampler
  deriving DecidableEq

/-- The counters when so many steps have been made. -/
def Counters.after (n : Nat) : Counters := ⟨n, n, { samples := min Sampler.window n }⟩

/-- The counters of a world; they are those of nothing without a host. -/
def World.counters (w : World) : Counters :=
  ⟨w.ticks, w.scheduler.passes, (w.host.map (·.sampler)).getD {}⟩

namespace Duty

/-- The counters once a duty is done. -/
def apply (c : Counters) : Duty → Counters
  | count => { c with ticks := c.ticks + 1 }
  | sample phase => { c with sampler := c.sampler.tick phase }
  | endPass => { c with passes := c.passes + 1 }
  | beginPass | leave | quit => c

/-- The counters once these duties are done. -/
def applyAll (c : Counters) (duties : List Duty) : Counters := duties.foldl apply c

theorem apply_ticks (c : Counters) (duty : Duty) :
    (apply c duty).ticks = c.ticks + if duty = count then 1 else 0 := by
  cases duty <;> rfl

theorem applyAll_append (c : Counters) (p q : List Duty) :
    applyAll c (p ++ q) = applyAll (applyAll c p) q := List.foldl_append

/-- A step leaves the counters in agreement if it has found them so. -/
theorem applyAll_step (n : Nat) : applyAll (.after n) stepDuties = .after (n + 1) := by
  simp only [applyAll, stepDuties, Tick.Phase.duties, List.cons_append, List.nil_append,
    List.foldl_cons, List.foldl_nil, apply, Counters.after, Sampler.tick, if_true]
  congr 2
  omega

end Duty

namespace Machine

variable {m : Machine} {mv : Move} {s : Stepped}

/-- The host is looked after as the duties say. -/
theorem tends_counters (m : Machine) (host : Host) (passes : Nat) :
    let c := m.duty?.elim ⟨host.ticks, passes, host.sampler⟩
      (Duty.apply ⟨host.ticks, passes, host.sampler⟩)
    (m.tends host).ticks = c.ticks ∧ (m.tends host).sampler = c.sampler := by
  obtain ⟨w, focus, S⟩ := m
  cases focus with
  | command c =>
    cases c with
    | run ticks =>
      simp only [tends]
      split <;> exact ⟨rfl, rfl⟩
    | _ => exact ⟨rfl, rfl⟩
  | handling event rest count =>
    rcases rest with _ | ⟨handler, rest⟩
    · exact ⟨rfl, rfl⟩
    · cases handler with
      | runLimit =>
        simp only [tends, duty?]
        split
        · split <;> exact ⟨rfl, rfl⟩
        · exact ⟨rfl, rfl⟩
      | _ => exact ⟨rfl, rfl⟩
  | firing due k => cases due <;> exact ⟨rfl, rfl⟩
  | reply r =>
    rcases S with _ | ⟨frame, S⟩
    · exact ⟨rfl, rfl⟩
    · cases frame with
      | stepping phases => cases phases <;> exact ⟨rfl, rfl⟩
      | running stage => cases stage <;> exact ⟨rfl, rfl⟩
      | _ => exact ⟨rfl, rfl⟩
  | _ => exact ⟨rfl, rfl⟩

/-- A pass is counted where it ends. -/
theorem endsPass_iff (m : Machine) :
    m.duty? = some .endPass ↔ ∃ k, m.errand? = some (.endPass k) := by
  obtain ⟨w, focus, S⟩ := m
  cases focus with
  | command c => cases c <;> simp [duty?, errand?]
  | handling event rest count =>
    rcases rest with _ | ⟨handler, rest⟩
    · simp [duty?, errand?]
    · cases handler <;> simp [duty?, errand?]
  | firing due k => cases due <;> simp [duty?, errand?]
  | ended outcome => simp only [duty?, errand?]; split <;> simp
  | reply r =>
    simp only [duty?, errand?]
    split <;> split <;> simp <;> split <;> simp
  | _ => simp [duty?, errand?]

/-- A step is counted where it begins. -/
theorem counts_iff (m : Machine) : m.duty? = some .count ↔ m.focus.isStepping = true := by
  obtain ⟨w, focus, S⟩ := m
  cases focus with
  | handling event rest count =>
    rcases rest with _ | ⟨handler, rest⟩
    · simp [duty?, Focus.isStepping]
    · cases handler <;> simp [duty?, Focus.isStepping]
  | firing due k => cases due <;> simp [duty?, Focus.isStepping]
  | reply r =>
    simp only [duty?, Focus.isStepping]
    split <;> simp
  | _ => simp [duty?, Focus.isStepping]

/-- The scheduler counts the passes that end, and nothing else. -/
theorem move_passes (h : m.move? mv = some s) :
    s.machine.world.scheduler.passes =
      m.world.scheduler.passes + if m.duty? = some .endPass then 1 else 0 := by
  have hnone {errand : Errand} (herrand : m.errand? = some errand)
      (hother : ∀ k, errand ≠ .endPass k) : m.duty? ≠ some .endPass := by
    intro hduty
    obtain ⟨k, hk⟩ := m.endsPass_iff.mp hduty
    exact hother k (Option.some.inj (herrand.symm.trans hk))
  cases move_scheduler h with
  | elsewhere herrand hscheduler =>
    rw [hscheduler, if_neg]
    · rfl
    · intro hduty
      obtain ⟨k, hk⟩ := m.endsPass_iff.mp hduty
      cases herrand.symm.trans hk
  | requested delay action herrand hscheduler =>
    rw [hscheduler, if_neg (hnone herrand (by rintro _ ⟨⟩))]
    rcases m.world.request_cases delay action with ⟨d, -, hrequest⟩ | ⟨refusal, hrequest⟩ <;>
      rw [hrequest] <;> rfl
  | filled n delay herrand hscheduler =>
    obtain ⟨refusal, more, -, hfill⟩ := m.world.fill_cases n delay
    rw [hscheduler, if_neg (hnone herrand (by rintro _ ⟨⟩)), hfill]
    rfl
  | cancelled handle herrand hscheduler =>
    rw [hscheduler, if_neg (hnone herrand (by rintro _ ⟨⟩)), World.cancel]
    split <;> rfl
  | discarded _ herrand _ hscheduler | began herrand hscheduler
  | fired _ _ _ _ herrand hscheduler | settled _ _ herrand hscheduler =>
    rw [hscheduler, if_neg (hnone herrand (by rintro _ ⟨⟩))]
    rfl
  | ended k _ herrand hscheduler =>
    rw [hscheduler, if_pos (m.endsPass_iff.mpr ⟨k, herrand⟩)]
    rfl

/-- **A move makes of the counters what its duty says.** -/
theorem move_counters (h : m.move? mv = some s) (hhost : m.world.host.isSome = true) :
    s.machine.world.counters = m.duty?.elim m.world.counters (Duty.apply m.world.counters) := by
  obtain ⟨host, hhost⟩ := Option.isSome_iff_exists.mp hhost
  have hcounters : m.world.counters = ⟨host.ticks, m.world.scheduler.passes, host.sampler⟩ := by
    simp [World.counters, World.ticks, hhost]
  have hafter : s.machine.world.counters = ⟨(m.tends host).ticks,
      s.machine.world.scheduler.passes, (m.tends host).sampler⟩ := by
    simp [World.counters, World.ticks, (move_wiring h).host, hhost]
  obtain ⟨hticks, hsampler⟩ := m.tends_counters host m.world.scheduler.passes
  rw [hafter, hcounters, hticks, hsampler, move_passes h]
  cases hduty : m.duty? with
  | none => rfl
  | some duty => cases duty <;> rfl

end Machine

/-! ## 2. The agenda of a run -/

/-- **What may be left of a step**, in a run of the host or outside of one: what comes last of its
duties. -/
def agendas : List (List Duty) := stepDuties.tails ++ (stepDuties ++ [Duty.quit]).tails

/-- With a step all its duties begin. -/
theorem agendas_step : ∀ l ∈ agendas, .leave ∉ l ∧ .quit ∉ l ∨ l.head? = some .quit →
    stepDuties ++ l ∈ agendas ∧ (l = [] ∨ l = [.quit]) := by decide

theorem agendas_run : ∀ l ∈ agendas, .leave ∉ l ∧ .quit ∉ l → l = [] := by decide

theorem agendas_tail : ∀ l ∈ agendas, l.tail ∈ agendas := by decide

/-- Between two steps nothing is left, but for the end of a run. -/
theorem agendas_between : ∀ l ∈ agendas, .leave ∉ l → l = [] ∨ l = [.quit] := by decide

/-- While a pass is under way, its end is left, and what comes after it. -/
theorem agendas_passing : ∀ l ∈ agendas, l.count .beginPass < l.count .endPass →
    ∃ rest ∈ [[], [Duty.quit]], l = [.endPass, .sample .finish, .leave] ++ rest := by decide

namespace Machine

/-- **If all that is left were done, the counters would agree**: all three would say how many steps
have begun. -/
structure InTime (m : Machine) : Prop where
  agenda : m.agenda ∈ agendas
  counters : Duty.applyAll m.world.counters m.agenda =
    .after (m.world.ticks + m.agenda.count .count)

variable {m : Machine} {b : Beat}

theorem InTime.move (hb : b.Valid) (hborne : b.before.Borne)
    (hdutiful : b.before.world.handlers.Dutiful) (hhost : b.before.world.host.isSome = true)
    (huses : b.before.focus.bypassesHost = false) (h : b.before.InTime) : b.after.InTime := by
  have hcounters := move_counters hb hhost
  obtain ⟨hagenda, hagree⟩ := h
  -- a move without a duty leaves the counters alone
  have hsame (hduty : b.before.duty? = none) :
      b.after.world.counters = b.before.world.counters ∧
        b.after.world.ticks = b.before.world.ticks := by
    rw [hduty] at hcounters
    exact ⟨hcounters, congrArg Counters.ticks hcounters⟩
  cases move_agenda hb hborne hdutiful huses with
  | kept hduty hkept =>
    simp only at hkept
    obtain ⟨hcounters, hticks⟩ := hsame hduty
    exact ⟨hkept ▸ hagenda, by rw [hkept, hcounters, hticks, hagree]⟩
  | done duty hduty hdone =>
    simp only at hdone
    rw [hduty] at hcounters
    have hafter : b.after.world.counters = Duty.apply b.before.world.counters duty := hcounters
    have hticks : b.after.world.ticks = b.before.world.ticks + [duty].count .count := by
      rw [List.count_singleton]
      refine (congrArg Counters.ticks hafter).trans ((Duty.apply_ticks _ duty).trans ?_)
      simp only [beq_iff_eq, World.counters]
    refine ⟨?_, ?_⟩
    · have htail := agendas_tail _ hagenda
      rwa [hdone] at htail
    · rw [hdone, ← List.singleton_append, Duty.applyAll_append, List.count_append] at hagree
      rw [hafter, hticks, Nat.add_assoc]
      exact hagree
  | stepBegins hduty hbegun hfree =>
    simp only at hbegun
    obtain ⟨hcounters, hticks⟩ := hsame hduty
    have hhead : Duty.leave ∉ b.before.agenda ∧ Duty.quit ∉ b.before.agenda ∨
        b.before.agenda.head? = some .quit := by
      refine hfree.imp_right ?_
      rintro ⟨rest, hrest⟩
      rw [hrest]
      rfl
    obtain ⟨hmem, hleft⟩ := agendas_step _ hagenda hhead
    refine ⟨hbegun ▸ hmem, ?_⟩
    have hnow : b.before.world.counters = .after b.before.world.ticks := by
      rcases hleft with hleft | hleft <;> rw [hleft] at hagree <;> exact hagree
    rw [hbegun, hcounters, hticks, hnow, Duty.applyAll_append, Duty.applyAll_step]
    rcases hleft with hleft | hleft <;> rw [hleft] <;> rfl
  | runBegins hduty hbegun hfree =>
    simp only at hbegun
    obtain ⟨hcounters, hticks⟩ := hsame hduty
    have hnone := agendas_run _ hagenda hfree
    rw [hnone] at hagree hbegun
    refine ⟨by rw [hbegun]; decide, ?_⟩
    rw [hbegun, hcounters, hticks]
    exact hagree

/-- Whether a step of the host is under way. -/
def stepUnderWay (m : Machine) : Bool :=
  m.focus.isStepping || m.stack.any fun frame => frame matches .stepping _

/-- Who makes a step has its end on the agenda, and nobody else. -/
theorem leave_mem_agenda (m : Machine) : .leave ∈ m.agenda ↔ m.stepUnderWay = true := by
  have hphases (phases : List Tick.Phase) : .leave ∉ phases.flatMap Tick.Phase.duties := by
    intro hmem
    obtain ⟨phase, -, hmem⟩ := List.mem_flatMap.mp hmem
    cases phase <;> simp [Tick.Phase.duties] at hmem
  have hfocus : .leave ∈ m.focus.duties ↔ m.focus.isStepping = true := by
    cases m.focus with
    | stepping => decide
    | dispatching event =>
      refine ⟨fun hmem => ?_, by rintro ⟨⟩⟩
      simp only [Focus.duties, Tick.Event.duties] at hmem
      split at hmem
      · exact absurd hmem (by simpa using hphases [event.phase])
      · cases hmem
    | handling event rest count =>
      exact ⟨fun hmem => absurd hmem (Handler.duties_ends rfl rest), by rintro ⟨⟩⟩
    | passing | firing => simp [Focus.duties, Focus.isStepping]
    | _ => constructor <;> rintro ⟨⟩
  have hframe (frame : Frame) :
      .leave ∈ frame.duties ↔ (frame matches .stepping _) = true := by
    cases frame with
    | stepping phases => simp [Frame.duties]
    | handling handler event rest count =>
      exact ⟨fun hmem => absurd hmem (Handler.duties_ends rfl rest), by rintro ⟨⟩⟩
    | firing | running => simp [Frame.duties]
    | _ => constructor <;> rintro ⟨⟩
  simp only [agenda, stepUnderWay, List.mem_append, List.mem_flatMap, Bool.or_eq_true,
    List.any_eq_true, hfocus, hframe]

/-- Each pass under way is yet to end. -/
theorem count_endPass (m : Machine) :
    m.agenda.count .endPass = m.agenda.count .beginPass + m.underway.length := by
  have hhandlers (phase : Tick.Phase) (handlers : List Handler) :
      (handlers.flatMap (Handler.duties phase)).count .endPass =
        (handlers.flatMap (Handler.duties phase)).count .beginPass := by
    induction handlers with
    | nil => rfl
    | cons handler handlers ih =>
      rw [List.flatMap_cons, List.count_append, List.count_append, ih]
      cases handler <;> rfl
  have hphases (phases : List Tick.Phase) :
      (phases.flatMap Tick.Phase.duties).count .endPass =
        (phases.flatMap Tick.Phase.duties).count .beginPass := by
    induction phases with
    | nil => rfl
    | cons phase phases ih =>
      rw [List.flatMap_cons, List.count_append, List.count_append, ih]
      cases phase <;> rfl
  have hfocus : m.focus.duties.count .endPass =
      m.focus.duties.count .beginPass + m.focus.pass?.toList.length := by
    cases m.focus with
    | dispatching event =>
      simp only [Focus.duties, Tick.Event.duties]
      split
      · cases event.phase <;> rfl
      · rfl
    | handling event rest count => exact hhandlers event.phase rest
    | _ => rfl
  have hframe (frame : Frame) : frame.duties.count .endPass =
      frame.duties.count .beginPass + frame.pass?.toList.length := by
    cases frame with
    | stepping phases =>
      rw [Frame.duties, List.count_append, List.count_append, hphases]
      rfl
    | handling handler event rest count => exact hhandlers event.phase rest
    | _ => rfl
  have hstack (S : List Frame) : (S.flatMap Frame.duties).count .endPass =
      (S.flatMap Frame.duties).count .beginPass + (S.filterMap Frame.pass?).length := by
    induction S with
    | nil => rfl
    | cons frame S ih =>
      have hlength : ((frame :: S).filterMap Frame.pass?).length =
          frame.pass?.toList.length + (S.filterMap Frame.pass?).length := by
        rw [List.filterMap_cons]
        cases frame.pass? <;> simp [Nat.add_comm]
      rw [List.flatMap_cons, List.count_append, List.count_append, hframe, ih, hlength]
      omega
  rw [agenda, underway, List.count_append, List.count_append, List.length_append, hfocus, hstack]
  omega

/-- **Between two steps the counters agree.** -/
theorem InTime.between (h : m.InTime) (hfree : m.stepUnderWay = false) :
    m.world.counters = .after m.world.ticks := by
  obtain ⟨hagenda, hagree⟩ := h
  have hleave : Duty.leave ∉ m.agenda := by
    rw [leave_mem_agenda, hfree]
    exact Bool.false_ne_true
  rcases agendas_between _ hagenda hleave with hleft | hleft <;>
    rw [hleft] at hagree <;> exact hagree

/-- **While a pass is under way the scheduler is one behind**, for the pass is yet to be counted. -/
theorem InTime.behind (h : m.InTime) (hpass : m.underway ≠ []) :
    m.stepUnderWay = true ∧ m.world.scheduler.passes + 1 = m.world.ticks := by
  obtain ⟨hagenda, hagree⟩ := h
  have hcount := m.count_endPass
  have hpos := List.length_pos_iff.mpr hpass
  obtain ⟨rest, hrest, hleft⟩ := agendas_passing _ hagenda (by omega)
  refine ⟨?_, ?_⟩
  · rw [← leave_mem_agenda, hleft]
    simp
  · have hpasses := congrArg Counters.passes hagree
    rw [hleft] at hpasses
    simp only [List.mem_cons, List.not_mem_nil, or_false] at hrest
    rcases hrest with rfl | rfl <;> exact hpasses

end Machine

/-! ## 3. Hosts -/

/-- More handlers may be registered that see to nothing. -/
theorem HandlerTable.Dutiful.register {t : HandlerTable Handler} {handler : Handler}
    (h : t.Dutiful) (hhandler : ∀ phase, handler.duties phase = []) (kinds : List Tick.Kind) :
    (t.register handler kinds).Dutiful := by
  intro event
  have hnone : ((List.replicate (kinds.count event.kind) handler).filter
      (Handler.accepts · event.phase)).flatMap (Handler.duties event.phase) = [] := by
    refine List.flatMap_eq_nil_iff.mpr fun other hother => ?_
    rw [List.eq_of_mem_replicate (List.mem_filter.mp hother).1, hhandler]
  rw [HandlerTable.targets, entries_register, List.filter_append, List.flatMap_append, hnone,
    List.append_nil]
  exact h event

/-- The handlers registered by commands that do not go past the host see to nothing. -/
theorem Beat.Valid.dutiful {b : Beat} (hb : b.Valid) (huses : b.before.focus.bypassesHost = false)
    (h : b.before.world.handlers.Dutiful) : b.after.world.handlers.Dutiful := by
  rw [(Machine.move_wiring hb).handlers]
  split
  · rename_i handler hregisters
    refine h.register ?_ handler.kinds
    simp only [Machine.registers?] at hregisters
    split at hregisters
    · rename_i c hfocus
      rw [hfocus] at huses
      cases c with
      | register => obtain rfl := Option.some.inj hregisters; exact fun _ => rfl
      | registerScheduler => cases huses
      | _ => cases hregisters
    · cases hregisters
  · exact h

/-- The worlds that are set up around a host, with a limit for its runs or without one. -/
inductive World.OfHost : World → Prop
  | opened {config : Config} {host : Turn Unit} (h : openHost config = .ok host) : OfHost host.world
  | limited {host : Turn Unit} (h : OfHost host.world) : OfHost (World.limited host).world

/-- A host is set up with a new sampler. -/
theorem World.openHost_eq_ok {config : Config} {host : Turn Unit} (h : openHost config = .ok host) :
    ∃ valid, host = hosted valid {} := by
  simp only [openHost, opening] at h
  cases hvalid : config.validate with
  | error reason => rw [hvalid] at h; cases h
  | ok valid =>
    cases hsampler : Sampler.forRate? valid.tickRate with
    | none => simp only [hvalid, hsampler] at h; cases h
    | some sampler =>
      simp only [hvalid, hsampler] at h
      obtain rfl := Except.ok.inj h
      rw [Sampler.forRate?] at hsampler
      split at hsampler
      · exact ⟨valid, by rw [Option.some.inj hsampler]⟩
      · cases hsampler

/-- What a host begins with. -/
structure World.AtStart (w : World) : Prop where
  host : w.host.isSome = true
  handlers : w.handlers.Dutiful
  counters : w.counters = .after 0

theorem World.OfHost.atStart {w : World} (h : w.OfHost) : w.AtStart := by
  induction h with
  | @opened config host h =>
    obtain ⟨valid, rfl⟩ := openHost_eq_ok h
    refine ⟨rfl, ?_, rfl⟩
    rintro ⟨kind, phase, number⟩
    cases kind <;> cases phase <;> rfl
  | limited _ ih =>
    exact ⟨ih.host, ih.handlers.register (fun _ => rfl) _, ih.counters⟩

/-- The beat carries out no command that goes past the host. -/
def Beat.UsesHost (b : Beat) : Prop := b.before.focus.bypassesHost = false

instance (b : Beat) : Decidable b.UsesHost := inferInstanceAs (Decidable (_ = false))

/-- **Whatever user code does, the counters of a host are in step.** -/
structure Machine.Keeps (path : List Beat) (m : Machine) : Prop where
  host : m.world.host.isSome = true
  handlers : m.world.handlers.Dutiful
  inTime : m.InTime
  ticks : m.world.ticks = hostSteps path

theorem Run.keeps {w : World} (hw : w.AtStart) {path : List Beat} {m : Machine}
    (hrun : Run (Machine.idle w) path m) (huses : ∀ b ∈ path, b.UsesHost) : m.Keeps path := by
  induction hrun with
  | nil =>
    have hticks : w.ticks = 0 := congrArg Counters.ticks hw.counters
    have hnone : (Machine.idle w).agenda = [] := rfl
    refine ⟨hw.host, hw.handlers, ⟨by rw [hnone]; decide, ?_⟩, hticks⟩
    rw [hnone]
    exact hw.counters.trans (congrArg Counters.after hticks.symm)
  | @snoc path _ _ b hrun hb ih =>
    obtain ⟨rfl, hvalid, rfl⟩ := hb
    have hborne := Run.borne hrun
    obtain ⟨hpath, hlast⟩ := List.forall_mem_append.mp huses
    have huse := List.forall_mem_singleton.mp hlast
    obtain ⟨hhost, hhandlers, hinTime, hticks⟩ := ih hpath
    refine ⟨?_, hvalid.dutiful huse hhandlers,
      hinTime.move hvalid hborne hhandlers hhost huse, ?_⟩
    · rw [(Machine.move_wiring hvalid).host, Option.isSome_map]
      exact hhost
    · have hcounted : b.after.world.ticks = b.before.world.ticks + [b].countP Beat.isStep := by
        refine (congrArg Counters.ticks (Machine.move_counters hvalid hhost)).trans ?_
        cases hduty : b.before.duty? with
        | none =>
          have hnot : b.isStep = false := by
            rw [Beat.isStep, Bool.eq_false_iff, ne_eq, ← Machine.counts_iff, hduty]
            rintro ⟨⟩
          simp [hnot, World.counters]
        | some duty =>
          have hcounts : b.isStep = true ↔ duty = .count := by
            rw [Beat.isStep, ← Machine.counts_iff, hduty, Option.some.injEq]
          rw [Option.elim_some, Duty.apply_ticks]
          simp [List.countP_singleton, hcounts, World.counters]
      rw [hcounted, hticks, hostSteps_append]
      rfl

/-! ## 4. Runs -/

/-- An action is running, or is the next thing to run. -/
def Machine.InAction (m : Machine) : Prop := m.running ≠ [] ∨ ∃ task, m.errand? = some (.fire task)

/-- An action belongs to a pass under way. -/
theorem Machine.InAction.underway_ne_nil {m : Machine} (h : m.InAction) : m.underway ≠ [] := by
  obtain ⟨w, focus, S⟩ := m
  rcases h with hrunning | ⟨task, herrand⟩
  · obtain ⟨task, htask⟩ := List.exists_mem_of_ne_nil _ hrunning
    obtain ⟨frame, hframe, hruns⟩ := List.mem_filterMap.mp htask
    have hpass : ∃ pass, frame.pass? = some pass := by
      cases frame <;> first | exact ⟨_, rfl⟩ | cases hruns
    obtain ⟨pass, hpass⟩ := hpass
    exact List.ne_nil_of_mem
      (List.mem_append_right _ (List.mem_filterMap.mpr ⟨frame, hframe, hpass⟩))
  · obtain ⟨due, k, rfl⟩ := Machine.firing_of_errand herrand
    exact List.cons_ne_nil _ _

/-- While an action runs, a step is under way, and the scheduler has counted the steps before it. -/
theorem Machine.Keeps.seen {path : List Beat} {m : Machine} (h : m.Keeps path) (hm : m.InAction) :
    m.stepUnderWay = true ∧ 0 < hostSteps path ∧
      m.world.scheduler.processedTicks = .ofNat (hostSteps path - 1) := by
  obtain ⟨hstep, hpasses⟩ := h.inTime.behind hm.underway_ne_nil
  rw [h.ticks] at hpasses
  refine ⟨hstep, by omega, ?_⟩
  rw [Scheduler.processedTicks, ← hpasses, Nat.add_sub_cancel]

/-- No action runs where a step begins. -/
theorem Machine.InTime.not_inAction {m : Machine} (h : m.InTime) (hfocus : m.focus = .stepping) :
    ¬ m.InAction := by
  intro hm
  have hcount := m.count_endPass
  have hpos := List.length_pos_iff.mpr hm.underway_ne_nil
  obtain ⟨rest, -, hleft⟩ := agendas_passing _ h.agenda (by omega)
  rw [Machine.agenda, hfocus] at hleft
  cases hleft

/-- A command that does not go past the host brings no tick of the server. -/
theorem Beat.UsesHost.kind_ne_server {b : Beat} (h : b.UsesHost) {event : Tick.Event}
    (hcommand : b.before.focus = .command (.dispatch event) ∨
      b.before.focus = .command (.proxyTick event)) : event.kind ≠ .server := by
  rw [Beat.UsesHost] at h
  rcases hcommand with hcommand | hcommand <;> rw [hcommand] at h <;>
    simpa [Focus.bypassesHost, Command.bypassesHost] using h

/-- **A tick is delivered by a step of the host**, or it is none of the server and the command before
has turned to it. -/
theorem Run.delivers {w : World} {p : List Beat} {b : Beat} (hrun : Run (Machine.idle w) p b.before)
    (hb : b.Valid) (huses : ∀ c ∈ p, c.UsesHost) {event : Tick.Event}
    (hmem : .delivered event ∈ b.events) :
    b.hostTick? = some event ∨ event.kind ≠ .server ∧ ∃ p' c, p = p' ++ [c] ∧
      (c.before.focus = .command (.dispatch event) ∨
        c.before.focus = .command (.proxyTick event)) := by
  have hfocus : b.before.focus = .dispatching event := by
    cases Machine.move_delivery hb with
    | elsewhere _ _ _ hevents => cases hevents _ hmem
    | began event' hfocus _ hevents =>
      simp only at hevents
      rw [hevents, List.mem_singleton] at hmem
      rw [hfocus, Event.delivered.inj hmem]
    | called _ _ _ _ _ _ hevents | ended _ _ _ _ hevents =>
      simp only at hevents
      rw [hevents, List.mem_singleton] at hmem
      cases hmem
  rcases hrun.unsnoc with ⟨-, hnone⟩ | ⟨p, c, rfl, -, hvalid, hafter⟩
  · rw [← hnone] at hfocus
    cases hfocus
  rw [← hafter] at hfocus
  rcases Machine.move_dispatched hvalid event hfocus with ⟨phases, S, hstack⟩ | hcommand
  · simp only [hafter] at hstack hfocus
    exact Or.inl (by rw [Beat.hostTick?, hfocus, hstack])
  · exact Or.inr ⟨(huses c (by simp)).kind_ne_server hcommand, p, c, rfl, hcommand⟩

/-- The ticks of the server that are delivered in a trace, in order. -/
def serverTicksIn (events : List Event) : List Tick.Event :=
  (events.filterMap Event.deliveredTick?).filter (·.kind == .server)

theorem Beat.focus_of_hostTick {b : Beat} {event : Tick.Event} (h : b.hostTick? = some event) :
    b.before.focus = .dispatching event := by
  rw [Beat.hostTick?] at h
  split at h
  · rename_i hfocus _
    rw [hfocus, Option.some.inj h]
  · cases h

/-- The ticks of the server that a beat delivers are the host's own. -/
theorem Run.serverTicks_beat {w : World} {p : List Beat} {b : Beat}
    (hrun : Run (Machine.idle w) p b.before) (hb : b.Valid) (huses : ∀ c ∈ p, c.UsesHost) :
    serverTicksIn b.events = b.hostTick?.toList.filter (·.kind == .server) := by
  have hsilent (hfocus : ∀ event, b.before.focus ≠ .dispatching event) : b.hostTick? = none :=
    Option.eq_none_iff_forall_ne_some.mpr fun event hevent =>
      hfocus event (Beat.focus_of_hostTick hevent)
  cases Machine.move_delivery hb with
  | elsewhere hfocus _ _ hevents =>
    have hnone : b.events.filterMap Event.deliveredTick? = [] :=
      List.filterMap_eq_nil_iff.mpr hevents
    rw [serverTicksIn, hnone, hsilent fun event hevent => by rw [hevent] at hfocus; cases hfocus]
    rfl
  | called event handler rest count hfocus _ hevents =>
    simp only at hevents
    rw [hevents, hsilent (by simp [hfocus])]
    rfl
  | ended event count hfocus _ hevents =>
    simp only at hevents
    rw [hevents, hsilent (by simp [hfocus])]
    rfl
  | began event hfocus _ hevents =>
    simp only at hevents
    have hdelivered : serverTicksIn b.events = [event].filter (·.kind == .server) := by
      rw [hevents]; rfl
    rcases hrun.delivers hb huses (hevents ▸ List.mem_cons_self) with hhost | ⟨hkind, -⟩
    · rw [hdelivered, hhost]
      rfl
    · -- nothing of the server is delivered
      have hother : (event.kind == .server) = false := beq_eq_false_iff_ne.mpr hkind
      cases hhost : b.hostTick? with
      | none => simp [hdelivered, hother]
      | some event' =>
        obtain rfl := Focus.dispatching.inj (hfocus.symm.trans (Beat.focus_of_hostTick hhost))
        simp [hdelivered]

/-- So those that are delivered in a part of a run are those that the host delivers in it. -/
theorem serverTicksIn_trace {path : List Beat}
    (h : ∀ b ∈ path, serverTicksIn b.events = b.hostTick?.toList.filter (·.kind == .server)) :
    serverTicksIn (trace path) = (hostTicks path).filter (·.kind == .server) := by
  induction path with
  | nil => rfl
  | cons b path ih =>
    obtain ⟨hb, hpath⟩ := List.forall_mem_cons.mp h
    have happend : serverTicksIn (trace (b :: path)) =
        serverTicksIn b.events ++ serverTicksIn (trace path) := by
      rw [trace_cons, serverTicksIn, List.filterMap_append, List.filter_append]
      rfl
    rw [happend, hb, ih hpath, hostTicks_cons, List.filter_append]

/-- A part of a run in which the host makes a step, from its beginning at `k` to its end at `n`. -/
structure StepIn (w : World) (path p : List Beat) (k : Machine) (step : List Beat) (n : Machine)
    (q : List Beat) : Prop where
  split : path = p ++ step ++ q
  run : Run (Machine.idle w) p k
  focus : k.focus = .stepping
  call : Call k.stack k step n
  ends : n.BackAt k.stack

section

variable {w : World} {path p q step : List Beat} {k m n : Machine} {b : Beat}

/-- The counters were in step at every beat of a run. -/
theorem Run.keeps_at (hw : w.AtStart) (hrun : Run (Machine.idle w) path m)
    (huses : ∀ b ∈ path, b.UsesHost) (hsplit : path = p ++ b :: q) :
    Run (Machine.idle w) p b.before ∧ b.before.Keeps p ∧ b.Valid ∧ ∀ c ∈ p, c.UsesHost := by
  subst hsplit
  obtain ⟨hp, hvalid, -⟩ := Run.around hrun
  have hp' := (List.forall_mem_append.mp huses).1
  exact ⟨hp, Run.keeps hw hp hp', hvalid, hp'⟩

/-- A step counts itself in its first move, and delivers both halves of its tick. -/
theorem StepIn.counted (h : StepIn w path p k step n q) (hk : k.Keeps p) :
    ∃ first rest, step = first :: rest ∧ first.before = k ∧
      (∀ inner, (∀ b ∈ inner, b ∈ rest) → hostSteps (p ++ first :: inner) = hostSteps p + 1) ∧
      hostTicks step = serverTicks (hostSteps p) 1 := by
  obtain ⟨-, -, hfocus, hcall, hends⟩ := h
  obtain ⟨first, rest, rfl, rfl, hspares, -, -, hdelivered⟩ :=
    hcall.host_step hfocus rfl hk.host hends
  have hfirst : first.isStep = true := by rw [Beat.isStep, hfocus]; rfl
  refine ⟨first, rest, rfl, rfl, ?_, hk.ticks ▸ hdelivered⟩
  intro inner hinner
  rw [hostSteps_append, hostSteps_eq_one hfirst fun b hb => (hspares b (hinner b hb)).step]

/-- **A step of the host**: the one that counts itself as number `i` delivers the tick `i`, and the
actions that run in it see `i - 1` processed ticks. -/
theorem StepIn.made (h : StepIn w path p k step n q) (hw : w.AtStart)
    (hrun : Run (Machine.idle w) path m) (huses : ∀ b ∈ path, b.UsesHost) :
    ∃ i, i = hostSteps p + 1 ∧ hostSteps (p ++ step) = i ∧
      serverTicksIn (trace step) = [.server .start i, .server .finish i] ∧
      ∀ b ∈ step, b.before.InAction →
        b.before.world.scheduler.processedTicks = .ofNat (i - 1) := by
  have hk : k.Keeps p := by
    refine Run.keeps hw h.run fun b hb => huses b ?_
    rw [h.split]
    simp [hb]
  obtain ⟨first, rest, rfl, rfl, hcount, hticks⟩ := h.counted hk
  -- every beat of the step is one of the run
  have hbeat {inner after : List Beat} {b : Beat} (hstep : first :: rest = inner ++ b :: after) :=
    Run.keeps_at hw hrun huses (p := p ++ inner) (b := b) (q := after ++ q)
      (by rw [h.split, hstep]; simp)
  refine ⟨_, rfl, hcount rest fun _ hb => hb, ?_, ?_⟩
  · have hown : serverTicksIn (trace (first :: rest)) =
        (hostTicks (first :: rest)).filter (·.kind == .server) := by
      refine serverTicksIn_trace fun b hb => ?_
      obtain ⟨inner, after, hstep⟩ := List.append_of_mem hb
      obtain ⟨hpath, -, hvalid, huses'⟩ := hbeat hstep
      exact hpath.serverTicks_beat hvalid huses'
    rw [hown, hticks]
    rfl
  · intro b hb haction
    rcases List.mem_cons.mp hb with rfl | hb
    · exact absurd haction (hk.inTime.not_inAction h.focus)
    · obtain ⟨inner, after, rfl⟩ := List.append_of_mem hb
      have hstep : first :: (inner ++ b :: after) = (first :: inner) ++ b :: after := rfl
      obtain ⟨-, hn, -, -⟩ := hbeat hstep
      have hseen := (hn.seen haction).2.2
      rwa [hcount inner fun c hc => List.mem_append_left _ hc] at hseen

end

/-- **Three counters in step.**  In every run of a host, if no command brings a tick of the server
to the handlers past it or registers the scheduler once more, and whatever callbacks do otherwise:

* between two steps, the host has counted the steps made so far, the scheduler has processed as many
  ticks, and the sampler has as many samples, up to a hundred;
* the step number `i` delivers the start and the end of the tick `i`, and every action that runs
  meanwhile sees `i - 1` processed ticks;
* every other tick that is delivered is none of the server, and was asked for by a command;
* an action runs only while a step is under way. -/
theorem lockstep_of_run {w : World} (hw : w.OfHost) {path : List Beat} {m : Machine}
    (hrun : Run (Machine.idle w) path m) (huses : ∀ b ∈ path, b.UsesHost) :
    (m.stepUnderWay = false →
      m.world.ticks = hostSteps path ∧
      m.world.scheduler.processedTicks = .ofNat (hostSteps path) ∧
      m.world.host.map (·.sampler.samples) = some (min 100 (hostSteps path))) ∧
    (∀ p k step n q, StepIn w path p k step n q → ∃ i, i = hostSteps p + 1 ∧
      hostSteps (p ++ step) = i ∧
      serverTicksIn (trace step) = [.server .start i, .server .finish i] ∧
      ∀ b ∈ step, b.before.InAction →
        b.before.world.scheduler.processedTicks = .ofNat (i - 1)) ∧
    (∀ p b q event, path = p ++ b :: q → .delivered event ∈ b.events →
      b.hostTick? = some event ∨ event.kind ≠ .server ∧ ∃ p' c, p = p' ++ [c] ∧
        (c.before.focus = .command (.dispatch event) ∨
          c.before.focus = .command (.proxyTick event))) ∧
    ∀ p b q, path = p ++ b :: q → b.before.InAction → b.before.stepUnderWay = true ∧
      0 < hostSteps p ∧ b.before.world.scheduler.processedTicks = .ofNat (hostSteps p - 1) := by
  have hstart := hw.atStart
  refine ⟨?_, ?_, ?_, ?_⟩
  · intro hfree
    obtain ⟨hhost, -, hinTime, hticks⟩ := Run.keeps hstart hrun huses
    have hcounters := hinTime.between hfree
    rw [hticks] at hcounters
    obtain ⟨host, hhost⟩ := Option.isSome_iff_exists.mp hhost
    have hsamples := congrArg (·.sampler.samples) hcounters
    refine ⟨hticks, congrArg UInt64.ofNat (congrArg Counters.passes hcounters), ?_⟩
    simpa [World.counters, Counters.after, Sampler.window, hhost] using hsamples
  · intro p k step n q hstep
    exact hstep.made hstart hrun huses
  · intro p b q event hsplit hmem
    obtain ⟨hp, -, hvalid, hp'⟩ := hrun.keeps_at hstart huses hsplit
    exact hp.delivers hvalid hp' hmem
  · intro p b q hsplit haction
    obtain ⟨-, hn, -, -⟩ := hrun.keeps_at hstart huses hsplit
    exact hn.seen haction

/-- A host with a limit for its runs. -/
def paradeHost : Turn Unit := World.limited (World.hosted .default {})

/-- A step of the host.  At the start of the tick a handler requests a task, asks for a step of its
own, and panics; the task asks how many ticks were processed, and panics. -/
def parade : List Beat × Machine :=
  (Machine.idle paradeHost.world).played <|
    [.command (.register "wild" [.server, .world] [.start]
        [.schedule "task" none false .goOn [.processedTicks, .exit (.panicked .other)], .step,
          .exit (.panicked .other)]), .step, .command .step] ++ List.replicate 34 .step

/-- A run of one step more. -/
def encore : List Beat × Machine :=
  parade.2.played (.command (.run 1) :: List.replicate 53 .step)

/-- All three counters come to two. -/
theorem lockstep_of_parade :
    paradeHost.world.OfHost ∧
    Run (Machine.idle paradeHost.world) (parade.1 ++ encore.1) encore.2 ∧
    (∀ b ∈ parade.1 ++ encore.1, b.UsesHost) ∧ encore.2.stepUnderWay = false ∧
    hostSteps (parade.1 ++ encore.1) = 2 ∧ encore.2.world.ticks = 2 ∧
    encore.2.world.scheduler.processedTicks = 2 ∧
    encore.2.world.host.map (·.sampler.samples) = some 2 := by
  have hopened : World.openHost .default = .ok (World.hosted .default {}) := rfl
  have hhost : paradeHost.world.OfHost := .limited (.opened hopened)
  have hparade : Run (Machine.idle paradeHost.world) parade.1 parade.2 := Machine.played_run _ _
  have hencore : Run parade.2 encore.1 encore.2 := Machine.played_run _ _
  have hrun := hparade.append hencore
  have huses : ∀ b ∈ parade.1 ++ encore.1, b.UsesHost :=
    List.forall_mem_append.mpr ⟨by decide, by decide⟩
  have hparadeCount : hostSteps parade.1 = 1 := by decide
  have hencoreCount : hostSteps encore.1 = 1 := by decide
  have hcount : hostSteps (parade.1 ++ encore.1) = 2 := by
    rw [hostSteps_append, hparadeCount, hencoreCount]
  obtain ⟨hbetween, -, -, -⟩ := lockstep_of_run hhost hrun huses
  obtain ⟨hticks, hprocessed, hsamples⟩ := hbetween rfl
  rw [hcount] at hticks hprocessed hsamples
  exact ⟨hhost, hrun, huses, rfl, hcount, hticks, hprocessed, hsamples⟩

end TickHost
