import TickHost.Proofs.Calls
import TickHost.Proofs.Steps.Deliveries
import TickHost.Proofs.Steps.Hosting

/-!
# Runs of the host

A run of the host brings a session up, makes steps until it is told to stop, and brings the session
down.  Callbacks may do anything meanwhile, but the host is held (`Machine.Aside`), so they make no
step of their own, and once they have told the run to stop it cannot be untold.

* `Call.host_step`: a step counts itself and delivers the two halves of its tick.
* `Call.host_loop`: after a step the run stops if it was told to, and makes another one if not.
* `Machine.Steps.last`: so the step in which it is told to is the last one.
-/

namespace TickHost

/-! ## 1. While the host is held -/

/-- Whether a beat begins a step of the host. -/
def Beat.isStep (b : Beat) : Bool := b.before.focus.isStepping

/-- The tick that a beat delivers for a step of the host. -/
def Beat.hostTick? (b : Beat) : Option Tick.Event :=
  match b.before.focus, b.before.stack with
  | .dispatching event, .stepping _ :: _ => some event
  | _, _ => none

/-- How many steps of the host begin in a run. -/
def hostSteps (path : List Beat) : Nat := path.countP Beat.isStep

/-- The ticks that the host delivers in a run, in order. -/
def hostTicks (path : List Beat) : List Tick.Event := path.filterMap Beat.hostTick?

/-- Both halves of so many ticks of the server, after the tick `t`. -/
def serverTicks : Nat → Nat → List Tick.Event
  | _, 0 => []
  | t, k + 1 => .server .start (t + 1) :: .server .finish (t + 1) :: serverTicks (t + 1) k

theorem hostSteps_append (p q : List Beat) : hostSteps (p ++ q) = hostSteps p + hostSteps q :=
  List.countP_append

theorem hostTicks_append (p q : List Beat) : hostTicks (p ++ q) = hostTicks p ++ hostTicks q :=
  List.filterMap_append

theorem hostTicks_cons (b : Beat) (p : List Beat) :
    hostTicks (b :: p) = b.hostTick?.toList ++ hostTicks p := by
  rw [hostTicks, List.filterMap_cons]
  cases b.hostTick? <;> rfl

theorem hostSteps_eq_zero {path : List Beat} (h : ∀ b ∈ path, b.isStep = false) :
    hostSteps path = 0 :=
  List.countP_eq_zero.mpr fun b hb => by simp [h b hb]

theorem hostSteps_eq_one {first : Beat} {path : List Beat} (hfirst : first.isStep = true)
    (h : ∀ b ∈ path, b.isStep = false) : hostSteps (first :: path) = 1 := by
  rw [hostSteps, List.countP_cons_of_pos hfirst, ← hostSteps, hostSteps_eq_zero h]

theorem hostTicks_eq_nil {path : List Beat} (h : ∀ b ∈ path, b.hostTick? = none) :
    hostTicks path = [] :=
  List.filterMap_eq_nil_iff.mpr h

/-- The beat makes no step of the host, and does not take back that its run was told to stop. -/
structure Beat.SparesHost (b : Beat) : Prop where
  step : b.isStep = false
  ticks : b.after.world.ticks = b.before.world.ticks
  cancelled : b.before.world.isCancelled = true → b.after.world.isCancelled = true

/-- Beats that make no step do not add to their number. -/
theorem Run.ticks_eq {m n : Machine} {path : List Beat} (hrun : Run m path n)
    (h : ∀ b ∈ path, b.SparesHost) : n.world.ticks = m.world.ticks := by
  induction hrun with
  | nil => rfl
  | snoc _ hb ih =>
    obtain ⟨rfl, -, rfl⟩ := hb
    obtain ⟨hpath, hlast⟩ := List.forall_mem_append.mp h
    exact (List.forall_mem_singleton.mp hlast).ticks.trans (ih hpath)

namespace Machine

/-- **On top of `B`, which holds the host, nobody else holds it**, and no step begins. -/
def Aside (B : List Frame) (m : Machine) : Prop :=
  ∃ above, m.stack = above ++ B ∧ hostBusy above = false ∧ m.focus.isStepping = false

variable {B : List Frame} {b : Beat}

theorem hostBusy_eq_false_iff {stack : List Frame} :
    hostBusy stack = false ↔ stack.filter Frame.holdsHost = [] := by
  simp [hostBusy, List.filter_eq_nil_iff]

/-- The host stays held. -/
theorem Aside.move (hb : b.Valid) (hbusy : hostBusy B = true) (hback : ¬ b.before.BackAt B)
    (h : b.before.Aside B) : b.after.Aside B ∧ b.SparesHost := by
  obtain ⟨above, hstack, habove, hfocus⟩ := h
  have hheld : hostBusy b.before.stack = true := by
    rw [hstack, hostBusy, List.any_append]
    simp only [hostBusy] at hbusy
    rw [hbusy, Bool.or_true]
  constructor
  · cases move_host hb with
    | spared hframes hfocus' =>
      obtain ⟨above', hstack'⟩ := move_above hb hstack hback
      simp only at hframes hfocus' hstack'
      refine ⟨above', hstack', ?_, hfocus'⟩
      rw [hstack', hstack, List.filter_append, List.filter_append,
        hostBusy_eq_false_iff.mp habove, List.nil_append] at hframes
      exact hostBusy_eq_false_iff.mpr (List.append_left_eq_self.mp hframes)
    | taken hfree => rw [hheld] at hfree; cases hfree
    | stepped hfocus' => rw [hfocus] at hfocus'; cases hfocus'
    | answered frame rest hfinal hstack' hholds =>
      cases above with
      | nil => exact absurd ⟨hstack, hfinal⟩ hback
      | cons frame' above =>
        rw [hstack, List.cons_append] at hstack'
        obtain ⟨rfl, -⟩ := List.cons.inj hstack'
        simp [hostBusy, hholds] at habove
  · have hhost := (move_wiring hb).host
    refine ⟨hfocus, ?_, ?_⟩
    · rw [World.ticks, World.ticks, hhost]
      cases b.before.world.host with
      | none => rfl
      | some host => exact (tends_held hfocus hheld host).1
    · rw [World.isCancelled, World.isCancelled, hhost]
      cases b.before.world.host with
      | none => exact id
      | some host => exact (tends_held hfocus hheld host).2

/-- Nobody delivers a tick for the host on top of a frame that does not wait for one. -/
theorem Aside.hostTick? {frame : Frame} (hframe : ∀ phases, frame ≠ .stepping phases)
    (h : b.before.Aside (frame :: B)) : b.hostTick? = none := by
  obtain ⟨above, hstack, habove, -⟩ := h
  rw [Beat.hostTick?]
  split
  · rename_i event phases S _ htop
    rw [htop] at hstack
    cases above with
    | nil => exact absurd (List.cons.inj hstack).1.symm (hframe phases)
    | cons frame' above =>
      obtain ⟨rfl, -⟩ := List.cons.inj hstack
      cases habove
  · rfl

/-- What has just been begun on `B` is on top of it. -/
theorem Aside.of_stack {m : Machine} (hstack : m.stack = B) (hfocus : m.focus.isStepping = false) :
    m.Aside B := ⟨[], hstack, rfl, hfocus⟩

end Machine

/-- A call on top of `B` spares the host. -/
theorem Call.spares_host {B : List Frame} {m n : Machine} {path : List Beat} (h : Call B m path n)
    (hm : m.Aside B) (hbusy : Machine.hostBusy B = true) : ∀ b ∈ path, b.SparesHost :=
  (h.invariant hm fun _ _ hvalid hback hb => hb.move hvalid hbusy hback).2

/-- A call on top of a frame that holds the host and waits for no tick delivers none for it. -/
theorem Call.silent {frame : Frame} {B : List Frame} {m n : Machine} {path : List Beat}
    (h : Call (frame :: B) m path n) (hm : m.Aside (frame :: B)) (hframe : frame.holdsHost = true)
    (hsteps : ∀ phases, frame ≠ .stepping phases) : ∀ b ∈ path, b.hostTick? = none := by
  have hbusy : Machine.hostBusy (frame :: B) = true := by simp [Machine.hostBusy, hframe]
  exact (h.invariant hm fun _ _ hvalid hback hb =>
    ⟨(hb.move hvalid hbusy hback).1, hb.hostTick? hsteps⟩).2

theorem World.nextTick_ticks {w : World} (h : w.host.isSome = true) :
    w.nextTick.ticks = w.ticks + 1 := by
  obtain ⟨host, hhost⟩ := Option.isSome_iff_exists.mp h
  simp [nextTick, updateHost, ticks, hhost]

theorem World.nextTick_isCancelled (w : World) : w.nextTick.isCancelled = w.isCancelled := by
  cases h : w.host <;> simp [nextTick, updateHost, isCancelled, h]

/-- There is a host as long as there was one. -/
theorem Run.host_isSome {m n : Machine} {path : List Beat} (hrun : Run m path n) :
    n.world.host.isSome = m.world.host.isSome := by
  induction hrun with
  | nil => rfl
  | snoc _ hb ih =>
    obtain ⟨rfl, hvalid, rfl⟩ := hb
    rw [← ih, (Machine.move_wiring hvalid).host, Option.isSome_map]

/-- A beat that hands a reply on and leaves the world as it is spares the host. -/
theorem Beat.SparesHost.of_reply {b : Beat} {r : Reply} (hfocus : b.before.focus = .reply r)
    (hworld : b.after.world = b.before.world) : b.SparesHost :=
  ⟨by rw [Beat.isStep, hfocus]; rfl, by rw [hworld], by rw [hworld]; exact id⟩

/-! ## 2. Steps -/

namespace Machine

variable {D : List Frame} {b : Beat}

/-- How far the delivery of a tick is that was begun on `D`: between two handlers, in one of them,
or over. -/
inductive InTick (D : List Frame) (m : Machine) : Prop
  | calling (event : Tick.Event) (rest : List Handler) (count : Nat)
      (hfocus : m.focus = .handling event rest count) (hstack : m.stack = D)
  | inside (handler : Handler) (event : Tick.Event) (rest : List Handler) (count : Nat)
      (haside : m.Aside (.handling handler event rest count :: D))
  | finished (hback : m.BackAt D)

/-- No handler delivers a tick for the host. -/
theorem InTick.move (hb : b.Valid) (hbusy : hostBusy D = true) (hback : ¬ b.before.BackAt D)
    (h : b.before.InTick D) : b.after.InTick D ∧ b.hostTick? = none := by
  cases h with
  | finished h => exact absurd h hback
  | calling event rest count hfocus hstack =>
    refine ⟨?_, by rw [Beat.hostTick?, hfocus]⟩
    cases move_delivery hb with
    | elsewhere hfocus' => rw [hfocus] at hfocus'; cases hfocus'
    | began _ hfocus' => rw [hfocus] at hfocus'; cases hfocus'
    | called event' handler rest' count' _ hmachine =>
      simp only at hmachine
      rw [hmachine, hstack]
      cases handler with
      | scheduler | script => exact .inside _ _ _ _ (.of_stack rfl rfl)
      | _ => exact .calling _ _ _ rfl rfl
    | ended event' count' _ hmachine =>
      simp only at hmachine
      exact .finished (by rw [hmachine]; exact ⟨hstack, rfl⟩)
  | inside handler event rest count haside =>
    have hbusy' : hostBusy (.handling handler event rest count :: D) = true := hbusy
    refine ⟨?_, haside.hostTick? (by simp)⟩
    by_cases hback' : b.before.BackAt (.handling handler event rest count :: D)
    · -- the handler is done, and the delivery goes on with the next one
      rcases move_back hb hback' with ⟨r, -, hs⟩ | ⟨outcome, -, hs⟩
      · have hafter : b.after = _ := congrArg Stepped.machine hs
        exact hafter ▸ .calling event rest count rfl rfl
      · have hafter : b.after = _ := congrArg Stepped.machine hs
        exact hafter ▸ .calling event rest count rfl rfl
    · exact .inside handler event rest count (haside.move hb hbusy' hback').1

end Machine

section

variable {B : List Frame} {phases : List Tick.Phase} {event : Tick.Event} {w : World}
  {n : Machine} {path : List Beat}

/-- **The delivery of a tick for the host** delivers that tick only, and makes no step. -/
theorem Call.host_tick
    (h : Call (.stepping phases :: B) ⟨w, .dispatching event, .stepping phases :: B⟩ path n)
    (hback : n.BackAt (.stepping phases :: B)) :
    hostTicks path = [event] ∧ ∀ b ∈ path, b.SparesHost := by
  refine ⟨?_, h.spares_host (.of_stack rfl rfl) rfl⟩
  obtain ⟨first, rest, rfl, hfirst, hstep, hrest⟩ := h.begins rfl rfl hback
  obtain ⟨hafter, -⟩ := Stepped.mk.inj (Option.some.inj hstep)
  have hin : first.after.InTick (.stepping phases :: B) := by
    rw [← hafter]
    exact .calling _ _ _ rfl rfl
  have hquiet := (hrest.invariant hin fun _ _ hvalid hback' hb => hb.move hvalid rfl hback').2
  have hhere : first.hostTick? = some event := by rw [Beat.hostTick?, hfirst]
  rw [hostTicks, List.filterMap_cons_some hhere]
  exact congrArg _ (hostTicks_eq_nil hquiet)

/-- A step of the host, taken apart: it counts itself, then it delivers both halves of its tick. -/
theorem Call.host_step {a : Machine} (hfocus : a.focus = .stepping) (hstack : a.stack = B)
    (hhost : a.world.host.isSome = true) (h : Call B a path n) (hback : n.BackAt B) :
    ∃ first rest, path = first :: rest ∧ first.before = a ∧ (∀ b ∈ rest, b.SparesHost) ∧
      first.after.world.isCancelled = a.world.isCancelled ∧
      n.world.ticks = a.world.ticks + 1 ∧
      hostTicks path = serverTicks a.world.ticks 1 := by
  obtain ⟨w, focus, S⟩ := a
  obtain rfl : focus = .stepping := hfocus
  obtain rfl : S = B := hstack
  obtain ⟨first, path, rfl, hfirst, hstep, hpath⟩ := h.begins rfl rfl hback
  obtain ⟨hafter, -⟩ := Stepped.mk.inj (Option.some.inj hstep)
  rw [← hafter] at hpath
  -- the start of the tick
  obtain ⟨start, last, path, r, rfl, hstart, hlast, hresume, hpath⟩ := hpath.replies rfl rfl hback
  obtain ⟨hstartTick, hstartSpares⟩ := hstart.host_tick (by rw [hlast]; exact ⟨rfl, rfl⟩)
  have hlastAfter : last.after = ⟨last.before.world,
      .dispatching (.server .finish last.before.world.ticks), .stepping [] :: S⟩ :=
    congrArg Stepped.machine hresume
  have hlastSpares : last.SparesHost := .of_reply (by rw [hlast]) (by rw [hlastAfter])
  rw [hlastAfter] at hpath
  -- the end of the tick
  obtain ⟨finish, last', path, r', rfl, hfinish, hlast', hresume', hpath⟩ :=
    hpath.replies rfl rfl hback
  obtain ⟨hfinishTick, hfinishSpares⟩ := hfinish.host_tick (by rw [hlast']; exact ⟨rfl, rfl⟩)
  have hlastAfter' : last'.after =
      ⟨last'.before.world, .reply (.count last'.before.world.ticks), S⟩ :=
    congrArg Stepped.machine hresume'
  have hlastSpares' : last'.SparesHost := .of_reply (by rw [hlast']) (by rw [hlastAfter'])
  obtain rfl := hpath.eq_nil (by rw [hlastAfter']; exact ⟨rfl, rfl⟩)
  have hn := hpath.run.eq_of_nil
  have hticks : last.before.world.ticks = w.ticks + 1 :=
    (hstart.run.ticks_eq hstartSpares).trans (World.nextTick_ticks hhost)
  have hticks' : last'.before.world.ticks = last.before.world.ticks :=
    hfinish.run.ticks_eq hfinishSpares
  refine ⟨first, _, rfl, hfirst, ?_, ?_, ?_, ?_⟩
  · refine List.forall_mem_append.mpr ⟨hstartSpares, List.forall_mem_cons.mpr ⟨hlastSpares, ?_⟩⟩
    exact List.forall_mem_append.mpr ⟨hfinishSpares, List.forall_mem_singleton.mpr hlastSpares'⟩
  · rw [← hafter]
    exact World.nextTick_isCancelled w
  · rw [← hn, hlastAfter']
    exact hticks'.trans hticks
  · have hhere : first.hostTick? = none := by rw [Beat.hostTick?, hfirst]
    have hthere : last.hostTick? = none := by rw [Beat.hostTick?, hlast]
    have hthere' : last'.hostTick? = none := by rw [Beat.hostTick?, hlast']
    rw [World.nextTick_ticks hhost] at hstartTick
    rw [hticks] at hfinishTick
    have hend : hostTicks [last'] = [] := by rw [hostTicks_cons, hthere']; rfl
    rw [hostTicks_cons, hostTicks_append, hostTicks_cons, hostTicks_append, hhere, hthere, hend,
      hstartTick, hfinishTick]
    rfl

/-! ## 3. The loop -/

variable {S : List Frame} {a : Machine}

/-- One round of the loop: a step, and then the next one, or the end if the run was told to stop. -/
structure Machine.Round (S : List Frame) (a : Machine) (first : Beat) (inner : List Beat)
    (t : Machine) : Prop where
  within : ∀ b ∈ first :: inner, ∃ above, b.before.stack = above ++ .running .stepping :: S
  begins : first.isStep = true
  once : ∀ b ∈ inner, b.isStep = false
  ticks : t.world.ticks = a.world.ticks + 1
  delivered : hostTicks (first :: inner) = serverTicks a.world.ticks 1
  lasting : ∀ b ∈ first :: inner,
    b.before.world.isCancelled = true → b.after.world.isCancelled = true
  next : t = if t.world.isCancelled then ⟨t.world, .settling .stopping, .running .stopping :: S⟩
    else ⟨t.world, .stepping, .running .stepping :: S⟩

/-- **What the steps of a run come to.**  They count themselves and deliver their ticks; each but the
first begins because the run was not told to stop, and after the last one it was. -/
structure Machine.Steps (a : Machine) (steps : List Beat) (c : Machine) : Prop where
  within : ∀ b ∈ steps, ∃ above, b.before.stack = above ++ a.stack
  pos : 0 < hostSteps steps
  ticks : c.world.ticks = a.world.ticks + hostSteps steps
  delivered : hostTicks steps = serverTicks a.world.ticks (hostSteps steps)
  goesOn : ∀ b ∈ steps.tail, b.isStep = true → b.before.world.isCancelled = false
  lasting : ∀ b ∈ steps, b.before.world.isCancelled = true → b.after.world.isCancelled = true
  cancelled : c.world.isCancelled = true

namespace Machine.Round

variable {first : Beat} {inner : List Beat} {t : Machine}

theorem hostSteps_eq (h : a.Round S first inner t) : hostSteps (first :: inner) = 1 :=
  hostSteps_eq_one h.begins h.once

/-- If it was told to stop, there is nothing after this round. -/
theorem last (h : a.Round S first inner t) (hstack : a.stack = .running .stepping :: S)
    (hcancelled : t.world.isCancelled = true) : a.Steps (first :: inner) t where
  within := hstack ▸ h.within
  pos := by rw [h.hostSteps_eq]; exact Nat.zero_lt_one
  ticks := by rw [h.ticks, h.hostSteps_eq]
  delivered := by rw [h.delivered, h.hostSteps_eq]
  goesOn := by
    intro b hb hstep
    rw [h.once b hb] at hstep
    cases hstep
  lasting := h.lasting
  cancelled := hcancelled

/-- If it was not, the other steps follow on this round. -/
theorem append {steps : List Beat} {c : Machine} (h : a.Round S first inner t)
    (hstack : a.stack = .running .stepping :: S) (hcancelled : t.world.isCancelled = false)
    (hcall : Call S t steps c) (hmade : t.Steps steps c) :
    a.Steps (first :: inner ++ steps) c := by
  have hstack' : t.stack = a.stack := by rw [h.next, hcancelled, hstack]; rfl
  have hsum : hostSteps (first :: inner ++ steps) = hostSteps steps + 1 := by
    rw [hostSteps_append, h.hostSteps_eq, Nat.add_comm]
  refine ⟨?_, ?_, ?_, ?_, ?_, ?_, hmade.cancelled⟩
  · exact List.forall_mem_append.mpr ⟨hstack ▸ h.within, hstack' ▸ hmade.within⟩
  · rw [hsum]
    exact Nat.succ_pos _
  · rw [hmade.ticks, h.ticks, hsum, Nat.add_assoc, Nat.add_comm 1]
  · rw [hostTicks_append, h.delivered, hmade.delivered, h.ticks, hsum]
    rfl
  · rw [List.cons_append, List.tail_cons]
    refine List.forall_mem_append.mpr ⟨fun b hb hstep => ?_, ?_⟩
    · rw [h.once b hb] at hstep
      cases hstep
    · cases steps with
      | nil => simp
      | cons next steps =>
        refine List.forall_mem_cons.mpr ⟨fun _ => ?_, hmade.goesOn⟩
        rw [hcall.uncons.1.before]
        exact hcancelled
  · exact List.forall_mem_append.mpr ⟨h.lasting, hmade.lasting⟩

end Machine.Round

theorem Call.host_round (hfocus : a.focus = .stepping) (hstack : a.stack = .running .stepping :: S)
    (hhost : a.world.host.isSome = true) (h : Call S a path n) (hback : n.BackAt S) :
    ∃ first inner rest t, path = first :: inner ++ rest ∧ Call S a (first :: inner) t ∧
      Call S t rest n ∧ a.Round S first inner t := by
  obtain ⟨inner, last, rest, r, rfl, hinner, hlast, hresume, hrest⟩ :=
    h.replies hstack (by rw [hfocus]; rfl) hback
  obtain ⟨-, hwithin⟩ := hinner.above ⟨[], hstack⟩
  obtain ⟨first, inner, rfl, hfirst, hspares, hcancelled, hticks, hdelivered⟩ :=
    hinner.host_step hfocus hstack hhost (by rw [hlast]; exact ⟨rfl, rfl⟩)
  have hafter : last.after = if last.before.world.isCancelled
      then ⟨last.before.world, .settling .stopping, .running .stopping :: S⟩
      else ⟨last.before.world, .stepping, .running .stepping :: S⟩ := by
    refine (congrArg Stepped.machine hresume).trans ?_
    simp only [Machine.resume, Machine.nextStage]
    split <;> rfl
  have hworld : last.after.world = last.before.world := by
    rw [hafter]
    split <;> rfl
  have hlastTick : last.hostTick? = none := by rw [Beat.hostTick?, hlast]
  have hspares : ∀ b ∈ inner ++ [last], b.SparesHost :=
    List.forall_mem_append.mpr
      ⟨hspares, List.forall_mem_singleton.mpr (.of_reply (by rw [hlast]) hworld)⟩
  refine ⟨first, inner ++ [last], rest, last.after, by simp, (Call.cut h).1, hrest, ?_⟩
  refine ⟨?_, ?_, fun b hb => (hspares b hb).step, ?_, ?_, ?_, ?_⟩
  · rw [← List.cons_append]
    exact List.forall_mem_append.mpr
      ⟨hwithin, List.forall_mem_singleton.mpr ⟨[], by rw [hlast]; rfl⟩⟩
  · rw [Beat.isStep, hfirst, hfocus]
    rfl
  · rw [hworld, hticks]
  · rw [← List.cons_append, hostTicks_append, hostTicks_cons last, hlastTick, hdelivered]
    rfl
  · refine List.forall_mem_cons.mpr ⟨?_, fun b hb => (hspares b hb).cancelled⟩
    rw [hcancelled, hfirst]
    exact id
  · rw [hworld]
    exact hafter

/-- **A run makes steps until it is told to stop**, and then turns to bringing the session down. -/
theorem Call.host_loop (hfocus : a.focus = .stepping) (hstack : a.stack = .running .stepping :: S)
    (hhost : a.world.host.isSome = true) (h : Call S a path n) (hback : n.BackAt S) :
    ∃ steps rest c, path = steps ++ rest ∧ Call S a steps c ∧ Call S c rest n ∧
      c = ⟨c.world, .settling .stopping, .running .stopping :: S⟩ ∧ a.Steps steps c := by
  -- round by round; what is left gets shorter
  induction hlength : path.length using Nat.strongRecOn generalizing a path with
  | _ length ih =>
    obtain ⟨first, inner, rest, t, rfl, hcall, hrest, hround⟩ :=
      h.host_round hfocus hstack hhost hback
    have ht := hround.next
    cases hcancelled : t.world.isCancelled with
    | true =>
      rw [hcancelled] at ht
      exact ⟨first :: inner, rest, t, rfl, hcall, hrest, ht, hround.last hstack hcancelled⟩
    | false =>
      rw [hcancelled] at ht
      have hshorter : rest.length < length := by
        rw [← hlength, List.length_append, List.length_cons]
        omega
      obtain ⟨steps, rest, c, rfl, hsteps, hrest, hc, hmade⟩ :=
        ih rest.length hshorter (by rw [ht]; rfl) (by rw [ht]; rfl)
          (hcall.run.host_isSome.trans hhost) hrest rfl
      exact ⟨first :: inner ++ steps, rest, c, by simp, hcall.append hsteps, hrest, hc,
        hround.append hstack hcancelled hsteps hmade⟩

/-! ## 4. The move that tells a run to stop -/

/-- Whether a move tells the run under way to stop. -/
def Beat.cancels (b : Beat) : Bool := !b.before.world.isCancelled && b.after.world.isCancelled

/-- A step that begins tells nobody to stop. -/
theorem Beat.Valid.cancels_eq_false {b : Beat} (hb : b.Valid) (hstep : b.isStep = true) :
    b.cancels = false := by
  have hhost := (Machine.move_wiring hb).host
  have htends : b.before.tends = fun h => { h with ticks := h.ticks + 1 } := by
    rw [Beat.isStep] at hstep
    cases hfocus : b.before.focus with
    | stepping => rw [Machine.tends, hfocus]
    | _ => rw [hfocus] at hstep; cases hstep
  have hsame : b.after.world.isCancelled = b.before.world.isCancelled := by
    rw [World.isCancelled, World.isCancelled, hhost, htends, Option.map_map]
    rfl
  rw [Beat.cancels, hsame, Bool.not_and_self]

/-- A run that was told to stop was told so by a move. -/
theorem Run.exists_cancels {m : Machine} (hrun : Run m path n)
    (hm : m.world.isCancelled = false) (hn : n.world.isCancelled = true) :
    ∃ b ∈ path, b.cancels = true := by
  induction hrun with
  | nil =>
    rw [hm] at hn
    cases hn
  | @snoc path k _ b _ hb ih =>
    cases hk : k.world.isCancelled with
    | true =>
      obtain ⟨c, hc, hcancels⟩ := ih hk
      exact ⟨c, List.mem_append_left _ hc, hcancels⟩
    | false =>
      obtain ⟨rfl, -, rfl⟩ := hb
      exact ⟨b, by simp, by rw [Beat.cancels, hk, hn]; rfl⟩

theorem Run.stays_cancelled {m : Machine} (hrun : Run m path n) (hm : m.world.isCancelled = true)
    (hlasting : ∀ b ∈ path, b.before.world.isCancelled = true → b.after.world.isCancelled = true) :
    n.world.isCancelled = true ∧ ∀ b ∈ path, b.before.world.isCancelled = true := by
  induction hrun with
  | nil => exact ⟨hm, by simp⟩
  | snoc _ hb ih =>
    obtain ⟨hpath, hlast⟩ := List.forall_mem_append.mp hlasting
    obtain ⟨hk, hbefore⟩ := ih hpath
    obtain ⟨rfl, -, rfl⟩ := hb
    exact ⟨List.forall_mem_singleton.mp hlast hk,
      List.forall_mem_append.mpr ⟨hbefore, List.forall_mem_singleton.mpr hk⟩⟩

/-- **The step in which a run is told to stop is its last one.** -/
theorem Machine.Steps.last {steps p q : List Beat} {b : Beat} {c : Machine} (h : a.Steps steps c)
    (hrun : Run a steps c) (hsplit : steps = p ++ b :: q) (hcancels : b.cancels = true) :
    hostSteps p = hostSteps steps := by
  subst hsplit
  obtain ⟨-, hlasting⟩ := List.forall_mem_append.mp h.lasting
  have hafter : b.after.world.isCancelled = true := (Bool.and_eq_true_iff.mp hcancels).2
  obtain ⟨-, hcancelled⟩ :=
    (Run.cut hrun).2.stays_cancelled hafter (List.forall_mem_cons.mp hlasting).2
  have hb : b.isStep = false := by
    cases hstep : b.isStep with
    | false => rfl
    | true => rw [(hrun.valid b (by simp)).cancels_eq_false hstep] at hcancels; cases hcancels
  have hq : ∀ c ∈ q, c.isStep = false := by
    intro c hc
    cases hstep : c.isStep with
    | false => rfl
    | true =>
      have hgoesOn := h.goesOn c (by cases p <;> simp [hc]) hstep
      rw [hcancelled c hc] at hgoesOn
      cases hgoesOn
  rw [hostSteps_append, hostSteps_eq_zero (List.forall_mem_cons.mpr ⟨hb, hq⟩), Nat.add_zero]

end

end TickHost
