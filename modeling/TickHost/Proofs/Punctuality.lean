import TickHost.Proofs.Attendance
import TickHost.Proofs.Leftovers

/-!
# In which tick tasks run

Behind a proxy, the pass that takes a task can be told by counting ticks: it is that of the first
end of a server tick after as many others as the delay of the task says (`Run.not_early`,
`Run.on_time`). It does not matter how deliveries are nested, and which handlers are registered
when.
-/

namespace TickHost

/-! ## 1. Single tasks -/

section

variable {w : World} {pre since : List Event} {h : Handle} {delay : Nat} {action : Action}

theorem firingsOf_append (h : Handle) (p q : List Event) :
    firingsOf h (p ++ q) = firingsOf h p + firingsOf h q := List.countP_append

theorem firingsOf_cons_accepted (h h' : Handle) (delay : Nat) (action : Action)
    (events : List Event) :
    firingsOf h (.accepted h' delay action :: events) = firingsOf h events := rfl

/-- Since a task was accepted, ticks and passes have been in step. -/
theorem Machine.InStep.countdown {path : List Beat} {m : Machine} (hm : m.InStep path)
    (hsplit : trace path = pre ++ .accepted h delay action :: since) :
    serverEnds since = drains since + m.owesPass.toNat := by
  have hpasses := hm.passes
  have hbefore := hm.accepted hsplit
  have hserver : serverEnds (.accepted h delay action :: since) = serverEnds since := rfl
  have hdrains : drains (.accepted h delay action :: since) = drains since := rfl
  rw [hsplit, serverEnds_append, drains_append, hserver, hdrains, hbefore] at hpasses
  omega

open Ledger in
/-- **A task does not run before its tick**: not as long as no more ends of server ticks were
delivered since its acceptance than its delay says. -/
theorem Run.not_early {m : Machine} {path : List Beat} (hw : w.Fresh)
    (hrun : Run (Machine.idle w) path m) (hm : m.InStep path)
    (hfew : acceptances (trace path) < 2 ^ 64)
    (hsplit : trace path = pre ++ .accepted h delay action :: since)
    (hends : serverEnds since ≤ delay) : firingsOf h (trace path) = 0 := by
  obtain ⟨l, hreplay, hl⟩ := run_replay hw hrun
  have haccepted : l.accepted = acceptances (trace path) := by
    rw [accepted_of_replay hreplay, Nat.zero_add]
  have hkept := kept_of_replay (hsplit ▸ hreplay) (haccepted ▸ hfew) hl
  rw [hsplit, firingsOf_append, hkept.notBefore, firingsOf_cons_accepted, Nat.zero_add]
  by_contra hfired
  obtain ⟨p, q, rfl, hwaiting⟩ := fate_eq_taken_iff.mp (hkept.onlyTaken hfired)
  have hpassed : drains p + 0 = delay := (fate_eq_waiting_iff.mp hwaiting).2.2
  have hmore : drains (p ++ .drained :: q) = drains p + 1 + drains q := by
    simp [drains, List.countP_cons, Event.isDrain]
    omega
  have hstep := hm.countdown hsplit
  omega

open Ledger in
/-- **What is due when the end of a server tick is delivered runs in that delivery.** -/
theorem Call.fires_due {k n : Machine} {event : Tick.Event} {call : List Beat} {events : List Event}
    {l : Ledger} (hreplay : Replay {} events l) (hl : l.Matches k)
    (hwired : k.world.handlers.Wired) (hk : k.focus = .dispatching event)
    (hend : event.isServerEnd = true) (hcall : Call k.stack k call n) (hback : n.BackAt k.stack)
    (huses : ∀ b ∈ call, b.UsesProxy) (hfew : n.world.scheduler.accepted ≤ 2 ^ 64)
    {t : Task Action} (ht : t ∈ l.queue) (hdue : t.isDue = true) :
    firingsOf t.handle (trace call) = 1 := by
  rcases hcall.opens hk hwired hend huses with
    ⟨-, hnot⟩ | ⟨b, c, d, rest, rfl, hopening, hinner, -⟩
  · rw [hback.2] at hnot
    cases hnot
  obtain ⟨hopened, -⟩ := Run.cut (p := [b, c]) hcall.run
  obtain ⟨l₁, hreplay₁, hl₁⟩ := hl.run hopened
  obtain ⟨l₂, hreplay₂, hl₂⟩ := hl₁.run hinner.run
  have hfew₂ : l₂.accepted ≤ 2 ^ 64 := hl₂.accepted ▸ hfew
  have hfew₁ := Nat.le_trans (accepted_le_of_replay hreplay₂) hfew₂
  have hdistinct := Replay.distinct hreplay
    (Nat.le_trans (accepted_le_of_replay hreplay₁) hfew₁) .empty
  -- the pass of this delivery has taken the task
  obtain ⟨pass, hpass, htaken⟩ : ∃ pass ∈ l₁.underway, t ∈ pass.due := by
    have hmem : (k.world.scheduler.due, 0) ∈ d.after.underway := by
      simp [Machine.underway, hopening.firing, Focus.pass?]
    rw [← hl₁.underway] at hmem
    obtain ⟨pass, hpass, hsame⟩ := List.mem_map.mp hmem
    refine ⟨pass, hpass, ?_⟩
    rw [(Prod.mk.inj hsame).1, Scheduler.due, ← hl.queue]
    exact List.mem_filter.mpr ⟨ht, hdue⟩
  have hran := replay_due hreplay₂ (Replay.distinct hreplay₁ hfew₁ hdistinct)
    (takenAreDue_of_replay (hreplay.append hreplay₁)) hfew₂ hpass htaken
  -- and no pass that is still under way has it: those were there before
  have hunderway : n.underway = k.underway := by
    have hfinal := hback.2
    simp only [Machine.underway, hback.1, hk]
    cases hn : n.focus <;> rw [hn] at hfinal <;> first | rfl | cases hfinal
  have honce : firingsOf t.handle (trace rest) = 1 := by
    refine hran.resolve_right ?_
    rintro ⟨-, pass', hpass', hdue'⟩
    have hmem : (pass'.due, pass'.fired) ∈ l.underway.map fun pass => (pass.due, pass.fired) := by
      rw [hl.underway, ← hunderway, ← hl₂.underway]
      exact List.mem_map_of_mem hpass'
    obtain ⟨pass'', hpass'', hsame⟩ := List.mem_map.mp hmem
    rw [← (Prod.mk.inj hsame).1] at hdue'
    exact hdistinct.not_queued hpass'' hdue' (List.mem_map_of_mem ht)
  simp only [trace_cons, hopening.delivered, hopening.called, hopening.drained, firingsOf_append,
    honce]
  rfl

open Ledger in
/-- **A task runs in its tick**, if it is neither cancelled nor discarded before, and not any more
after it. -/
theorem Run.on_time {p call q : List Beat} {k n m : Machine} {event : Tick.Event} (hw : w.Fresh)
    (hrun : Run (Machine.idle w) p k) (hk : k.InStep p) (hfocus : k.focus = .dispatching event)
    (hend : event.isServerEnd = true) (hcall : Call k.stack k call n) (hback : n.BackAt k.stack)
    (huses : ∀ b ∈ call, b.UsesProxy) (hrest : Run n q m)
    (hfew : acceptances (trace (p ++ call ++ q)) < 2 ^ 64)
    (hsplit : trace p = pre ++ .accepted h delay action :: since)
    (hends : serverEnds since = delay) (hcancelled : .cancelled h ∉ since)
    (hdiscarded : ∀ i, .discarded i ∉ since) :
    firingsOf h (trace call) = 1 ∧ firingsOf h (trace q) = 0 := by
  obtain ⟨l, hreplay, hl⟩ := run_replay hw hrun
  obtain ⟨l₁, hreplay₁, hl₁⟩ := hl.run hcall.run
  obtain ⟨l₂, hreplay₂, hl₂⟩ := hl₁.run hrest
  have hwhole := (hreplay.append hreplay₁).append hreplay₂
  rw [← trace_append, ← trace_append] at hwhole
  have hfew₂ : l₂.accepted < 2 ^ 64 := by
    rw [accepted_of_replay hwhole, Nat.zero_add]
    exact hfew
  have hfew₁ := Nat.le_trans (accepted_le_of_replay hreplay₂) (Nat.le_of_lt hfew₂)
  -- the task waits for the next pass
  have howes : k.owesPass = false := by rw [Machine.owesPass, hfocus]
  have hpasses := hk.countdown hsplit
  rw [howes, hends] at hpasses
  have hwaiting : fate h delay since = .waiting 0 :=
    fate_eq_waiting_iff.mpr ⟨hcancelled, hdiscarded, hpasses.symm⟩
  have hpending : ⟨h, 0, action⟩ ∈ l.queue := by
    have hwhere := whereabouts_of_replay (hsplit ▸ hreplay)
      (Nat.le_trans (accepted_le_of_replay hreplay₁) hfew₁)
    rw [hwaiting] at hwhere
    generalize firingsOf h since = fired at hwhere
    cases hwhere with
    | queued left hqueue => exact hqueue
  have hfires : firingsOf h (trace call) = 1 :=
    hcall.fires_due hreplay hl hk.wired hfocus hend hback huses (hl₁.accepted ▸ hfew₁) hpending rfl
  refine ⟨hfires, ?_⟩
  rw [trace_append, trace_append, hsplit, List.append_assoc, List.append_assoc, List.cons_append]
    at hwhole
  have hatmost := (kept_of_replay hwhole hfew₂ hl₂).atMostOnce
  rw [firingsOf_append, firingsOf_append, hfires] at hatmost
  omega

end

/-! ## 2. Whole runs -/

/-- A part of a run in which a tick is delivered: it begins at `k` and has got to `n`. -/
structure DeliveryIn (w : World) (path p : List Beat) (k : Machine) (event : Tick.Event)
    (call : List Beat) (n : Machine) (q : List Beat) : Prop where
  split : path = p ++ call ++ q
  run : Run (Machine.idle w) p k
  focus : k.focus = .dispatching event
  call : Call k.stack k call n

theorem DeliveryIn.uses {w : World} {path p call q : List Beat} {k n : Machine} {event : Tick.Event}
    (h : DeliveryIn w path p k event call n q) (huses : ∀ b ∈ path, b.UsesProxy) :
    (∀ b ∈ p, b.UsesProxy) ∧ ∀ b ∈ call, b.UsesProxy := by
  rw [h.split] at huses
  exact List.forall_mem_append.mp (List.forall_mem_append.mp huses).1

/-- **Ticks and passes.**  In every run of a world that is set up around a proxy, if no command goes
past the proxy:

* the end of a server tick begins one pass, before any other handler is called for it, unless the
  run ends first;
* no other tick begins a pass;
* there are no other passes: each one was begun, two moves before, by such a delivery;
* with less than `2 ^ 64` acceptances, no task runs as long as not more ends of server ticks were
  delivered since its acceptance than its delay says;
* and then it runs in the next one, if it was neither cancelled nor discarded, and not after that.
-/
theorem punctuality_of_run {w : World} (hw : w.OfProxy) {path : List Beat} {m : Machine}
    (hrun : Run (Machine.idle w) path m) (huses : ∀ b ∈ path, b.UsesProxy) :
    (∀ p k event call n q, DeliveryIn w path p k event call n q →
      (event.isServerEnd = true →
        call.length < 3 ∧ n.focus.isFinal = false ∨
        ∃ b c d rest, call = b :: c :: d :: rest ∧ k.Opening event b c d ∧
          ∀ b' ∈ rest, ¬ b'.OpensPass k.stack event) ∧
      (event.isServerEnd = false → ∀ b ∈ call, ¬ b.OpensPass k.stack event)) ∧
    (∀ p d q, path = p ++ d :: q → d.before.focus = .passing →
      ∃ p' b c event, p = p' ++ [b, c] ∧ b.before.focus = .dispatching event ∧
        event.isServerEnd = true ∧ d.OpensPass b.before.stack event) ∧
    (acceptances (trace path) < 2 ^ 64 → ∀ pre since h delay action,
      (trace path = pre ++ .accepted h delay action :: since → serverEnds since ≤ delay →
        firingsOf h (trace path) = 0) ∧
      ∀ p k event call n q, DeliveryIn w path p k event call n q → event.isServerEnd = true →
        n.BackAt k.stack → trace p = pre ++ .accepted h delay action :: since →
        serverEnds since = delay → .cancelled h ∉ since → (∀ i, .discarded i ∉ since) →
        firingsOf h (trace p) = 0 ∧ firingsOf h (trace call) = 1 ∧ firingsOf h (trace q) = 0) := by
  refine ⟨?_, ?_, ?_⟩
  · intro p k event call n q hdelivery
    obtain ⟨hp, hcall⟩ := hdelivery.uses huses
    have hwired := (hdelivery.run.inStep hw.wired hp).wired
    constructor
    · intro hend
      refine (hdelivery.call.opens hdelivery.focus hwired hend hcall).imp_right ?_
      rintro ⟨b, c, d, rest, hsplit, hopening, -, honce⟩
      exact ⟨b, c, d, rest, hsplit, hopening, honce⟩
    · intro hend
      exact hdelivery.call.opens_none hdelivery.focus hwired hend hcall
  · rintro p d q rfl hpassing
    obtain ⟨k, hp, hd⟩ := hrun.split
    obtain ⟨_, ⟨rfl, -, -⟩, -⟩ := hd.uncons
    obtain ⟨p', b, c, event, rest, count, rfl, hdispatching, hend, hstack⟩ :=
      Run.opened hw.wired hp (List.forall_mem_append.mp huses).1 hpassing
    exact ⟨p', b, c, event, rfl, hdispatching, hend, hpassing, rest, count, hstack⟩
  · intro hfew pre since h delay action
    refine ⟨fun hsplit => hrun.not_early hw.fresh (hrun.inStep hw.wired huses) hfew hsplit, ?_⟩
    intro p k event call n q hdelivery hend hback hsplit hends hcancelled hdiscarded
    obtain ⟨hp, hcall⟩ := hdelivery.uses huses
    have hstep := hdelivery.run.inStep hw.wired hp
    obtain ⟨rfl, hk, hfocus, hinner⟩ := hdelivery
    obtain ⟨n', hinit, hrest⟩ := hrun.split
    obtain rfl := Run.unique hinit (hk.append hinner.run)
    refine ⟨hk.not_early hw.fresh hstep ?_ hsplit (Nat.le_of_eq hends),
      Run.on_time hw.fresh hk hstep hfocus hend hinner hback hcall hrest hfew hsplit hends hcancelled
        hdiscarded⟩
    rw [trace_append, trace_append, acceptances, List.countP_append, List.countP_append] at hfew
    rw [acceptances]
    omega

/-- A proxy with two handlers of server ticks, each of which has a task accepted with no delay: the
first one at the start of a tick, the second one at its end. -/
def dawn : List Beat × Machine :=
  (Machine.idle (World.proxied .default).world).played <|
    [.command (.register "early" [.server] [.start] [.schedule "today" (some 0) false .goOn []]),
      .step,
      .command (.register "late" [.server] [.finish]
        [.schedule "tomorrow" (some 0) false .goOn []]), .step,
      .command (.proxyTick (.server .start 1))] ++ List.replicate 10 .step ++
    [.command (.proxyTick (.server .finish 1)), .step]

/-- The end of the first tick. -/
def dusk : List Beat × Machine := dawn.2.played (List.replicate 15 .step)

/-- Up to the end of the next tick. -/
def night : List Beat × Machine :=
  dusk.2.played [.step, .command (.proxyTick (.server .finish 2)), .step]

/-- The end of the next tick. -/
def nextDusk : List Beat × Machine := night.2.played (List.replicate 15 .step)

/-- What was accepted at the start of the tick runs at its end; what was accepted at its end runs at
the end of the next tick. -/
theorem punctuality_of_dawn :
    (World.proxied .default).world.OfProxy ∧
    Run (Machine.idle (World.proxied .default).world)
      (dawn.1 ++ dusk.1 ++ (night.1 ++ nextDusk.1)) nextDusk.2 ∧
    (∀ b ∈ dawn.1 ++ dusk.1 ++ (night.1 ++ nextDusk.1), b.UsesProxy) ∧
    acceptances (trace (dawn.1 ++ dusk.1 ++ (night.1 ++ nextDusk.1))) < 2 ^ 64 ∧
    firingsOf (.ofNat 0) (trace dawn.1) = 0 ∧ firingsOf (.ofNat 0) (trace dusk.1) = 1 ∧
    firingsOf (.ofNat 1) (trace (dawn.1 ++ dusk.1 ++ night.1)) = 0 ∧
    firingsOf (.ofNat 1) (trace nextDusk.1) = 1 := by
  have hproxy : (World.proxied .default).world.OfProxy := .proxied .default
  have hdawn : Run (Machine.idle (World.proxied .default).world) dawn.1 dawn.2 :=
    Machine.played_run _ _
  have hdusk : Call dawn.2.stack dawn.2 dusk.1 dusk.2 := .of_run (Machine.played_run _ _) (by decide)
  have hnight : Run dusk.2 night.1 night.2 := Machine.played_run _ _
  have hnextDusk : Call night.2.stack night.2 nextDusk.1 nextDusk.2 :=
    .of_run (Machine.played_run _ _) (by decide)
  have hevening := (hdawn.append hdusk.run).append hnight
  have hrun := (hdawn.append hdusk.run).append (hnight.append hnextDusk.run)
  have huses : ∀ b ∈ dawn.1 ++ dusk.1 ++ (night.1 ++ nextDusk.1), b.UsesProxy := by decide
  have hfew : acceptances (trace (dawn.1 ++ dusk.1 ++ (night.1 ++ nextDusk.1))) < 2 ^ 64 := by decide
  obtain ⟨-, -, htasks⟩ := punctuality_of_run hproxy hrun huses
  -- the first task
  have hfirst : trace dawn.1 = (trace dawn.1).take 5 ++ .accepted (.ofNat 0) 0
      (.script "today" false []) :: (trace dawn.1).drop 6 := rfl
  have hwaits : fate (.ofNat 0) 0 ((trace dawn.1).drop 6) = .waiting 0 := by decide
  obtain ⟨hcancelled, hdiscarded, -⟩ := fate_eq_waiting_iff.mp hwaits
  obtain ⟨htoday, htoday', -⟩ := (htasks hfew _ _ _ _ _).2 dawn.1 dawn.2 (.server .finish 1) dusk.1
    dusk.2 _ ⟨rfl, hdawn, rfl, hdusk⟩ rfl ⟨rfl, rfl⟩ hfirst (by decide) hcancelled hdiscarded
  -- the second task
  have hsecond : trace (dawn.1 ++ dusk.1 ++ night.1) = (trace (dawn.1 ++ dusk.1 ++ night.1)).take 21
      ++ .accepted (.ofNat 1) 0 (.script "tomorrow" false [])
        :: (trace (dawn.1 ++ dusk.1 ++ night.1)).drop 22 := rfl
  have hwaits' : fate (.ofNat 1) 0 ((trace (dawn.1 ++ dusk.1 ++ night.1)).drop 22) = .waiting 0 := by
    decide
  obtain ⟨hcancelled', hdiscarded', -⟩ := fate_eq_waiting_iff.mp hwaits'
  obtain ⟨htomorrow, htomorrow', -⟩ := (htasks hfew _ _ _ _ _).2 (dawn.1 ++ dusk.1 ++ night.1) night.2
    (.server .finish 2) nextDusk.1 nextDusk.2 [] ⟨by simp, hevening, rfl, hnextDusk⟩ rfl ⟨rfl, rfl⟩
    hsecond (by decide) hcancelled' hdiscarded'
  exact ⟨hproxy, hrun, huses, hfew, htoday, htoday', htomorrow, htomorrow'⟩

end TickHost
