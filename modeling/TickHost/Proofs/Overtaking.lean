import TickHost.Proofs.Steps.Hooks

/-!
# Start hooks that come too late

A session is running from the move on that begins its start pass, not from the end of that pass.  So
a start hook may stop the session, and then the stop pass runs inside of the start pass: it goes
through all the listeners there are, also those whose start hook has not been called yet, and the
start pass goes on with these when the session is over.

A `CallSheet` is what a trace tells about this: which passes are under way, for which session, and
who was called.  The argument has three parts.

* `CallSheet.Nested`: how passes nest.  Further in are later sessions, and the stop pass of a
  session inside of its start pass; so while a stop pass is under way, the start pass waits.
* `CallSheet.Told`: the start pass of a session that is no longer running was overtaken by the stop
  pass, at a position that it had got to by then.  The listeners from that position on are stopped
  first and started afterwards, and no others.
* `CallSheet.Matches`: the trace of a run fills in a sheet that tells the state of the machine.
-/

namespace TickHost

/-! ## 1. Call sheets -/

/-- A call of a listener. -/
structure HookCall where
  /-- The hook that is called. -/
  hook : Lifecycle.Hook
  /-- The number of the session whose start or stop it is about. -/
  session : Nat
  /-- The position of the listener in the order of registration. -/
  index : Nat
  deriving DecidableEq

/-- A hook pass that is under way. -/
structure HookPass where
  /-- The hook it is for. -/
  hook : Lifecycle.Hook
  /-- The number of the session whose start or stop it is about. -/
  session : Nat
  /-- The position of the listener that is called next. -/
  next : Nat

/-- What a trace tells about hook passes. -/
structure CallSheet where
  /-- How many sessions have started. -/
  sessions : Nat := 0
  /-- Whether the last one is running. -/
  running : Bool := false
  /-- The passes under way, the innermost first. -/
  underway : List HookPass := []
  /-- The calls so far, in order. -/
  calls : List HookCall := []
  /-- The stop passes that began while the start pass of their session was under way: the number of
  the session, and the position of the listener that the start pass was to call next. -/
  overtaken : List (Nat × Nat) := []

namespace CallSheet

/-- Where the start pass of the last session is, if it is under way. -/
def unfinished (c : CallSheet) : List (Nat × Nat) :=
  (c.underway.filter fun p => p.hook == .start && p.session == c.sessions).map
    fun p => (p.session, p.next)

/-- One more event. -/
def note (c : CallSheet) : Event → CallSheet
  | .notified .start =>
    { c with
      sessions := c.sessions + 1
      running := true
      underway := ⟨.start, c.sessions + 1, 0⟩ :: c.underway }
  | .notified .stop =>
    { c with
      running := false
      underway := ⟨.stop, c.sessions, 0⟩ :: c.underway
      overtaken := c.overtaken ++ c.unfinished }
  | .called _ index _ =>
    match c.underway with
    | p :: rest =>
      { c with
        underway := ⟨p.hook, p.session, index + 1⟩ :: rest
        calls := c.calls ++ [⟨p.hook, p.session, index⟩] }
    | [] => c
  | .notifyEnded _ => { c with underway := c.underway.tail }
  | _ => c

/-- The sheet after these events. -/
def after (c : CallSheet) (events : List Event) : CallSheet := events.foldl note c

/-- When an event may come: a session is started when none is running, only a running one is
stopped, and the innermost pass is gone on with. -/
def Admits (c : CallSheet) : Event → Prop
  | .notified .start => c.running = false
  | .notified .stop => c.running = true
  | .called hook index _ => ∃ session rest, c.underway = ⟨hook, session, index⟩ :: rest
  | .notifyEnded hook => ∃ session next rest, c.underway = ⟨hook, session, next⟩ :: rest
  | _ => True

variable {c : CallSheet} {e : Event} {hook : Lifecycle.Hook} {session index n k i : Nat}
  {listener : Listener} {rest : List HookPass}

theorem mem_unfinished :
    (n, k) ∈ c.unfinished ↔ ⟨.start, n, k⟩ ∈ c.underway ∧ n = c.sessions := by
  simp only [unfinished, List.mem_map, List.mem_filter, Bool.and_eq_true, beq_iff_eq]
  constructor
  · rintro ⟨⟨hook, session, next⟩, ⟨hp, rfl, hsession⟩, heq⟩
    obtain ⟨rfl, rfl⟩ := Prod.mk.inj heq
    exact ⟨hp, hsession⟩
  · rintro ⟨hp, hn⟩
    exact ⟨_, ⟨hp, rfl, hn⟩, rfl⟩

theorem note_called (h : c.underway = ⟨hook, session, index⟩ :: rest) :
    c.note (.called hook index listener) =
      { c with
        underway := ⟨hook, session, index + 1⟩ :: rest
        calls := c.calls ++ [⟨hook, session, index⟩] } := by
  simp only [note, h]

theorem note_other (h : e.isRollCall = false) : c.note e = c := by
  cases e <;> first | rfl | cases h

/-- Only the events of hook passes count. -/
theorem after_filter (c : CallSheet) (events : List Event) :
    c.after (events.filter Event.isRollCall) = c.after events := by
  induction events generalizing c with
  | nil => rfl
  | cons e events ih =>
    cases he : e.isRollCall with
    | true =>
      rw [List.filter_cons_of_pos he]
      exact ih (c.note e)
    | false =>
      rw [List.filter_cons_of_neg (by simp [he]), ih, after, after, List.foldl_cons, note_other he]

/-! ## 2. How passes nest -/

/-- One pass may be inside of another: it is about a later session, or it stops what the other one
starts. -/
def Inside (inner outer : HookPass) : Prop :=
  outer.session < inner.session ∨
    outer.session = inner.session ∧ inner.hook = .stop ∧ outer.hook = .start

/-- **How passes nest**, and what they have called. -/
structure Nested (c : CallSheet) : Prop where
  /-- Passes are about sessions that have started. -/
  begun : ∀ p ∈ c.underway, p.session ≤ c.sessions
  /-- So are calls. -/
  called : ∀ x ∈ c.calls, x.session ≤ c.sessions
  /-- No stop pass is about a session that is running. -/
  stopping : c.running = true → ∀ p ∈ c.underway, p.hook = .stop → p.session < c.sessions
  /-- No stop hook was called for a session that is running. -/
  stopped : c.running = true → ∀ x ∈ c.calls, x.hook = .stop → x.session < c.sessions
  /-- Later passes are inside of earlier ones. -/
  order : c.underway.Pairwise Inside
  /-- A pass has called the listeners before its next one. -/
  ahead : ∀ p ∈ c.underway, ∀ x ∈ c.calls, x.hook = p.hook → x.session = p.session →
    x.index < p.next

theorem Nested.starts (h : c.Nested) : (c.note (.notified .start)).Nested where
  begun := List.forall_mem_cons.mpr ⟨Nat.le_refl _, fun p hp => Nat.le_succ_of_le (h.begun p hp)⟩
  called := fun x hx => Nat.le_succ_of_le (h.called x hx)
  stopping := fun _ => List.forall_mem_cons.mpr
    ⟨nofun, fun p hp _ => Nat.lt_succ_of_le (h.begun p hp)⟩
  stopped := fun _ x hx _ => Nat.lt_succ_of_le (h.called x hx)
  order := by
    refine List.pairwise_cons.mpr ⟨?_, h.order⟩
    intro p hp
    exact Or.inl (Nat.lt_succ_of_le (h.begun p hp))
  ahead := by
    refine List.forall_mem_cons.mpr ⟨?_, h.ahead⟩
    intro x hx _ hsession
    have hle := h.called x hx
    rw [hsession] at hle
    exact absurd hle (Nat.not_succ_le_self _)

theorem Nested.stops (h : c.Nested) (hrunning : c.running = true) :
    (c.note (.notified .stop)).Nested where
  begun := List.forall_mem_cons.mpr ⟨Nat.le_refl _, h.begun⟩
  called := h.called
  stopping := nofun
  stopped := nofun
  order := by
    refine List.pairwise_cons.mpr ⟨?_, h.order⟩
    intro p hp
    rcases Nat.lt_or_eq_of_le (h.begun p hp) with hlt | heq
    · exact Or.inl hlt
    · refine Or.inr ⟨heq, rfl, ?_⟩
      cases hhook : p.hook with
      | start => rfl
      | stop => exact absurd heq (Nat.ne_of_lt (h.stopping hrunning p hp hhook))
  ahead := by
    refine List.forall_mem_cons.mpr ⟨?_, h.ahead⟩
    intro x hx hhook hsession
    exact absurd hsession (Nat.ne_of_lt (h.stopped hrunning x hx hhook))

theorem Nested.calls (h : c.Nested) (hc : c.underway = ⟨hook, session, index⟩ :: rest) :
    (c.note (.called hook index listener)).Nested := by
  obtain ⟨hbegun, hcalled, hstopping, hstopped, horder, hahead⟩ := h
  rw [hc] at hbegun hstopping horder hahead
  obtain ⟨hbegun₀, hbegun⟩ := List.forall_mem_cons.mp hbegun
  obtain ⟨horder₀, horder⟩ := List.pairwise_cons.mp horder
  obtain ⟨hahead₀, hahead⟩ := List.forall_mem_cons.mp hahead
  rw [note_called hc]
  refine ⟨?_, ?_, ?_, ?_, ?_, ?_⟩
  · exact List.forall_mem_cons.mpr ⟨hbegun₀, hbegun⟩
  · exact List.forall_mem_append.mpr ⟨hcalled, List.forall_mem_singleton.mpr hbegun₀⟩
  · intro hrunning
    obtain ⟨hstopping₀, hstopping⟩ := List.forall_mem_cons.mp (hstopping hrunning)
    exact List.forall_mem_cons.mpr ⟨hstopping₀, hstopping⟩
  · intro hrunning
    obtain ⟨hstopping₀, -⟩ := List.forall_mem_cons.mp (hstopping hrunning)
    exact List.forall_mem_append.mpr
      ⟨hstopped hrunning, List.forall_mem_singleton.mpr hstopping₀⟩
  · exact List.pairwise_cons.mpr ⟨horder₀, horder⟩
  · refine List.forall_mem_cons.mpr ⟨?_, ?_⟩
    · refine List.forall_mem_append.mpr ⟨?_, List.forall_mem_singleton.mpr ?_⟩
      · intro x hx hhook hsession
        exact Nat.lt_succ_of_lt (hahead₀ x hx hhook hsession)
      · intro _ _
        exact Nat.lt_succ_self index
    · intro p hp
      refine List.forall_mem_append.mpr ⟨hahead p hp, List.forall_mem_singleton.mpr ?_⟩
      intro hhook hsession
      -- the call is one of the innermost pass, and no other pass is for that hook and session
      rcases horder₀ p hp with hlt | ⟨-, hstop, hstart⟩
      · exact absurd hsession (Nat.ne_of_gt hlt)
      · exact absurd (hstop.symm.trans (hhook.trans hstart)) (by decide)

theorem Nested.ends (h : c.Nested) (hc : c.underway = ⟨hook, session, n⟩ :: rest) :
    (c.note (.notifyEnded hook)).Nested := by
  obtain ⟨hbegun, hcalled, hstopping, hstopped, horder, hahead⟩ := h
  rw [hc] at hbegun hstopping horder hahead
  rw [note, hc]
  exact ⟨(List.forall_mem_cons.mp hbegun).2, hcalled,
    fun hrunning => (List.forall_mem_cons.mp (hstopping hrunning)).2, hstopped,
    (List.pairwise_cons.mp horder).2, (List.forall_mem_cons.mp hahead).2⟩

theorem Nested.note (h : c.Nested) (hadmits : c.Admits e) : (c.note e).Nested := by
  cases e with
  | notified hook =>
    cases hook with
    | start => exact h.starts
    | stop => exact h.stops hadmits
  | called hook index listener =>
    obtain ⟨session, rest, hc⟩ := hadmits
    exact h.calls hc
  | notifyEnded hook =>
    obtain ⟨session, next, rest, hc⟩ := hadmits
    exact h.ends hc
  | _ => exact h

/-! ## 3. Overtaken passes -/

/-- A pair that is in order after one more element was so before, or ends in that element. -/
theorem pair_sublist_snoc {α : Type} {x y z : α} {xs : List α} :
    [x, y].Sublist (xs ++ [z]) ↔ [x, y].Sublist xs ∨ x ∈ xs ∧ y = z := by
  constructor
  · intro h
    obtain ⟨as, bs, hsplit, has, hbs⟩ := List.sublist_append_iff.mp h
    rcases List.sublist_cons_iff.mp hbs with hnil | ⟨tail, rfl, hnil⟩
    · obtain rfl := List.sublist_nil.mp hnil
      rw [List.append_nil] at hsplit
      exact Or.inl (hsplit ▸ has)
    · obtain rfl := List.sublist_nil.mp hnil
      have hpair : [x] ++ [y] = as ++ [z] := hsplit
      obtain ⟨hinit, hlast⟩ := List.append_inj' hpair rfl
      exact Or.inr ⟨List.singleton_sublist.mp (hinit ▸ has), (List.cons.inj hlast).1⟩
  · rintro (h | ⟨hx, rfl⟩)
    · exact h.trans (List.sublist_append_left xs [z])
    · exact (List.singleton_sublist.mpr hx).append (List.Sublist.refl [y])

/-- **What overtaken passes tell about the order of calls.** -/
structure Told (c : CallSheet) : Prop where
  /-- Passes are overtaken by the stop of a session that has started. -/
  known : ∀ n k, (n, k) ∈ c.overtaken → n ≤ c.sessions ∧ (c.running = true → n < c.sessions)
  /-- A start pass that is under way while its session is not running any more was overtaken. -/
  late : ∀ p ∈ c.underway, p.hook = .start → (c.running = true → p.session < c.sessions) →
    ∃ k ≤ p.next, (p.session, k) ∈ c.overtaken
  /-- A listener that is stopped first and started afterwards is one that an overtaken pass had yet
  to call. -/
  only : ∀ n i, [⟨.stop, n, i⟩, ⟨.start, n, i⟩].Sublist c.calls → ∃ k ≤ i, (n, k) ∈ c.overtaken
  /-- If an overtaken pass has called such a listener, the stop pass is over, and has not called the
  listener afterwards. -/
  all : ∀ n k i, (n, k) ∈ c.overtaken → k ≤ i → ⟨.start, n, i⟩ ∈ c.calls →
    (∀ p ∈ c.underway, p.hook = .stop → p.session ≠ n) ∧
    (⟨.stop, n, i⟩ ∈ c.calls → [⟨.stop, n, i⟩, ⟨.start, n, i⟩].Sublist c.calls)

theorem Told.starts (h : c.Told) (hrunning : c.running = false) :
    (c.note (.notified .start)).Told where
  known := by
    intro n k hn
    have hle := (h.known n k hn).1
    exact ⟨Nat.le_succ_of_le hle, fun _ => Nat.lt_succ_of_le hle⟩
  late := by
    refine List.forall_mem_cons.mpr ⟨?_, ?_⟩
    · intro _ hlt
      exact absurd (hlt rfl) (Nat.lt_irrefl _)
    · intro p hp hhook _
      refine h.late p hp hhook ?_
      rw [hrunning]
      nofun
  only := h.only
  all := by
    intro n k i hn hk hstart
    obtain ⟨hover, hpair⟩ := h.all n k i hn hk hstart
    exact ⟨List.forall_mem_cons.mpr ⟨nofun, hover⟩, hpair⟩

theorem Told.stops (h : c.Told) (hnested : c.Nested) (hrunning : c.running = true) :
    (c.note (.notified .stop)).Told where
  known := by
    intro n k hn
    refine ⟨?_, nofun⟩
    rcases List.mem_append.mp hn with hold | hnew
    · exact (h.known n k hold).1
    · exact Nat.le_of_eq (mem_unfinished.mp hnew).2
  late := by
    refine List.forall_mem_cons.mpr ⟨nofun, ?_⟩
    intro p hp hhook _
    by_cases hlast : p.session = c.sessions
    · refine ⟨p.next, Nat.le_refl _, List.mem_append_right _ (mem_unfinished.mpr ⟨?_, hlast⟩)⟩
      rwa [← hhook]
    · have hlt := Nat.lt_of_le_of_ne (hnested.begun p hp) hlast
      obtain ⟨k, hk, hover⟩ := h.late p hp hhook fun _ => hlt
      exact ⟨k, hk, List.mem_append_left _ hover⟩
  only := by
    intro n i hpair
    obtain ⟨k, hk, hover⟩ := h.only n i hpair
    exact ⟨k, hk, List.mem_append_left _ hover⟩
  all := by
    intro n k i hn hk hstart
    rcases List.mem_append.mp hn with hold | hnew
    · obtain ⟨hover, hpair⟩ := h.all n k i hold hk hstart
      refine ⟨List.forall_mem_cons.mpr ⟨?_, hover⟩, hpair⟩
      intro _
      exact Nat.ne_of_gt ((h.known n k hold).2 hrunning)
    · -- the start pass has not got to this listener yet
      obtain ⟨hpass, -⟩ := mem_unfinished.mp hnew
      have hlt := hnested.ahead _ hpass _ hstart rfl rfl
      exact absurd hk (Nat.not_le_of_lt hlt)

theorem Told.calls (h : c.Told) (hnested : c.Nested)
    (hc : c.underway = ⟨hook, session, index⟩ :: rest) :
    (c.note (.called hook index listener)).Told := by
  obtain ⟨hknown, hlate, honly, hall⟩ := h
  have htop : ⟨hook, session, index⟩ ∈ c.underway := hc ▸ List.mem_cons_self
  have hrest : ∀ p ∈ rest, p ∈ c.underway := fun p hp => hc ▸ List.mem_cons_of_mem _ hp
  rw [note_called hc]
  refine ⟨hknown, ?_, ?_, ?_⟩
  · refine List.forall_mem_cons.mpr ⟨?_, fun p hp => hlate p (hrest p hp)⟩
    intro hhook hlt
    obtain ⟨k, hk, hover⟩ := hlate _ htop hhook hlt
    exact ⟨k, Nat.le_succ_of_le hk, hover⟩
  · intro n i hpair
    rcases pair_sublist_snoc.mp hpair with hold | ⟨hstop, hstart⟩
    · exact honly n i hold
    · obtain ⟨rfl, rfl, rfl⟩ := HookCall.mk.inj hstart
      exact hlate _ htop rfl fun hrunning => hnested.stopped hrunning _ hstop rfl
  · intro n k i hn hk hstart
    rcases List.mem_append.mp hstart with hold | hnew
    · obtain ⟨hover, hpair⟩ := hall n k i hn hk hold
      have htopOver : hook = .stop → session ≠ n := hover _ htop
      refine ⟨List.forall_mem_cons.mpr ⟨htopOver, fun p hp => hover p (hrest p hp)⟩, ?_⟩
      intro hstop
      rcases List.mem_append.mp hstop with hstop | hstop
      · exact (hpair hstop).trans (List.sublist_append_left _ _)
      · obtain ⟨rfl, rfl, rfl⟩ := HookCall.mk.inj (List.mem_singleton.mp hstop)
        exact absurd rfl (htopOver rfl)
    · obtain ⟨rfl, rfl, rfl⟩ := HookCall.mk.inj (List.mem_singleton.mp hnew)
      have horder := hnested.order
      rw [hc] at horder
      refine ⟨List.forall_mem_cons.mpr ⟨nofun, ?_⟩, ?_⟩
      · intro p hp _
        rcases (List.pairwise_cons.mp horder).1 p hp with hlt | ⟨-, hstop, -⟩
        · exact Nat.ne_of_lt hlt
        · cases hstop
      · intro hstop
        rcases List.mem_append.mp hstop with hstop | hstop
        · exact pair_sublist_snoc.mpr (Or.inr ⟨hstop, rfl⟩)
        · cases List.mem_singleton.mp hstop

theorem Told.ends (h : c.Told) (hc : c.underway = ⟨hook, session, index⟩ :: rest) :
    (c.note (.notifyEnded hook)).Told := by
  have hrest : ∀ p ∈ rest, p ∈ c.underway := fun p hp => hc ▸ List.mem_cons_of_mem _ hp
  rw [note, hc]
  refine ⟨h.known, fun p hp => h.late p (hrest p hp), h.only, ?_⟩
  intro n k i hn hk hstart
  obtain ⟨hover, hpair⟩ := h.all n k i hn hk hstart
  exact ⟨fun p hp => hover p (hrest p hp), hpair⟩

theorem Told.note (h : c.Told) (hnested : c.Nested) (hadmits : c.Admits e) :
    (c.note e).Told := by
  cases e with
  | notified hook =>
    cases hook with
    | start => exact h.starts hadmits
    | stop => exact h.stops hnested hadmits
  | called hook index listener =>
    obtain ⟨session, rest, hc⟩ := hadmits
    exact h.calls hnested hc
  | notifyEnded hook =>
    obtain ⟨session, next, rest, hc⟩ := hadmits
    exact h.ends hc
  | _ => exact h

/-- **A listener is stopped first and started afterwards just if an overtaken pass had yet to call
it**, and both calls were made. -/
theorem Told.overtaken_iff (h : c.Told) (n i : Nat) :
    [⟨.stop, n, i⟩, ⟨.start, n, i⟩].Sublist c.calls ↔
      ⟨.stop, n, i⟩ ∈ c.calls ∧ ⟨.start, n, i⟩ ∈ c.calls ∧ ∃ k ≤ i, (n, k) ∈ c.overtaken := by
  constructor
  · intro hpair
    exact ⟨hpair.subset (by simp), hpair.subset (by simp), h.only n i hpair⟩
  · rintro ⟨hstop, hstart, k, hk, hover⟩
    exact (h.all n k i hover hk hstart).2 hstop

end CallSheet

/-! ## 4. Sheets and machines -/

namespace CallSheet

/-- The sheet tells the state of the machine. -/
structure Matches (c : CallSheet) (m : Machine) : Prop where
  /-- The number of sessions. -/
  sessions : c.sessions = m.session
  /-- Whether the session is running. -/
  running : c.running = true ↔ m.state = .running
  /-- The hook passes under way. -/
  underway : c.underway.map (fun p => (p.hook, p.next)) =
    m.rollCalls.map fun r => (r.hook, r.next)

variable {c : CallSheet} {m : Machine} {b : Beat}

/-- The innermost pass of the machine is that of the sheet. -/
theorem Matches.innermost (h : c.Matches m) {hook : Lifecycle.Hook} {index : Nat}
    {roll : List Listener} {others : List RollCall}
    (hm : m.rollCalls = ⟨hook, index, roll⟩ :: others) :
    ∃ session rest, c.underway = ⟨hook, session, index⟩ :: rest ∧
      rest.map (fun p => (p.hook, p.next)) = others.map fun r => (r.hook, r.next) := by
  have hunderway := h.underway
  rw [hm, List.map_cons] at hunderway
  obtain ⟨⟨hook', session, next⟩, rest, hc, hpass, hrest⟩ := List.map_eq_cons_iff.mp hunderway
  obtain ⟨rfl, rfl⟩ := Prod.mk.inj hpass
  exact ⟨session, rest, hc, hrest⟩

/-- **A move is one event of the sheet, or none**, and the sheet follows. -/
theorem Matches.move (h : c.Matches b.before) (hb : b.Valid) :
    (c.after b.events).Matches b.after ∧
      (c.after b.events = c ∨ ∃ e, c.Admits e ∧ c.after b.events = c.note e) := by
  have hfilter := c.after_filter b.events
  have hpasses := hookPasses_filter b.events
  cases Machine.move_rollCalls hb with
  | elsewhere _ hcalls hevents =>
    simp only at hcalls hevents
    rw [hevents] at hfilter hpasses
    obtain ⟨hsession, hrunning⟩ := hb.session_of_no_pass hpasses.symm
    rw [← hfilter]
    exact ⟨⟨h.sessions.trans hsession.symm, h.running.trans hrunning.symm, hcalls ▸ h.underway⟩,
      Or.inl rfl⟩
  | began hook _ hcalls hevents =>
    simp only at hcalls hevents
    rw [hevents] at hfilter hpasses
    rw [← hfilter]
    cases hook with
    | start =>
      obtain ⟨hsession, hbefore, hafter⟩ := hb.session_of_start_pass hpasses.symm
      refine ⟨⟨?_, iff_of_true rfl hafter, ?_⟩, Or.inr ⟨.notified .start, ?_, rfl⟩⟩
      · exact (congrArg (· + 1) h.sessions).trans hsession.symm
      · rw [hcalls, List.map_cons, ← h.underway]; rfl
      · exact Bool.eq_false_iff.mpr fun hrunning => hbefore (h.running.mp hrunning)
    | stop =>
      obtain ⟨hsession, hbefore, hafter⟩ := hb.session_of_stop_pass hpasses.symm
      refine ⟨⟨?_, iff_of_false nofun hafter, ?_⟩, Or.inr ⟨.notified .stop, ?_, rfl⟩⟩
      · exact h.sessions.trans hsession.symm
      · rw [hcalls, List.map_cons, ← h.underway]; rfl
      · exact h.running.mpr hbefore
  | called hook index listener roll others _ hbefore hafter hevents =>
    simp only at hbefore hafter hevents
    rw [hevents] at hfilter hpasses
    obtain ⟨hsession, hrunning⟩ := hb.session_of_no_pass hpasses.symm
    obtain ⟨session, rest, hc, hrest⟩ := h.innermost hbefore
    have hnote : c.after b.events = c.note (.called hook index listener) := hfilter.symm
    refine ⟨?_, Or.inr ⟨.called hook index listener, ⟨session, rest, hc⟩, hnote⟩⟩
    rw [hnote, note_called hc]
    refine ⟨h.sessions.trans hsession.symm, h.running.trans hrunning.symm, ?_⟩
    rw [hafter, List.map_cons, List.map_cons, hrest]
  | ended hook index _ hbefore hevents =>
    simp only at hbefore hevents
    rw [hevents] at hfilter hpasses
    obtain ⟨hsession, hrunning⟩ := hb.session_of_no_pass hpasses.symm
    obtain ⟨session, rest, hc, hrest⟩ := h.innermost hbefore
    have hnote : c.after b.events = c.note (.notifyEnded hook) := hfilter.symm
    refine ⟨?_, Or.inr ⟨.notifyEnded hook, ⟨session, index, rest, hc⟩, hnote⟩⟩
    rw [hnote]
    refine ⟨h.sessions.trans hsession.symm, h.running.trans hrunning.symm, ?_⟩
    rw [← hrest, note, hc]; rfl

end CallSheet

/-! ## 5. Runs -/

/-- The sheet of a trace. -/
def callSheet (events : List Event) : CallSheet := ({} : CallSheet).after events

theorem callSheet_append (p q : List Event) : callSheet (p ++ q) = (callSheet p).after q :=
  List.foldl_append

/-- The sheet of a run tells the state of the machine, how passes nest and which were overtaken. -/
theorem Run.callSheet {w : World} (hw : w.Fresh) {path : List Beat} {m : Machine}
    (hrun : Run (Machine.idle w) path m) :
    (callSheet (trace path)).Matches m ∧ (callSheet (trace path)).Nested ∧
      (callSheet (trace path)).Told ∧ m.OnRoll := by
  induction hrun with
  | nil =>
    refine ⟨⟨hw.session.symm, ?_, rfl⟩, ?_, ?_, List.forall_mem_nil _⟩
    · refine iff_of_false Bool.false_ne_true ?_
      rw [Machine.state, Machine.idle, hw.state]
      rintro ⟨⟩
    · exact ⟨List.forall_mem_nil _, List.forall_mem_nil _, fun _ => List.forall_mem_nil _,
        fun _ => List.forall_mem_nil _, .nil, List.forall_mem_nil _⟩
    · refine ⟨?_, List.forall_mem_nil _, ?_, ?_⟩
      · rintro _ _ ⟨⟩
      · rintro _ _ ⟨⟩
      · rintro _ _ _ ⟨⟩
  | snoc _ hb ih =>
    obtain ⟨rfl, hvalid, rfl⟩ := hb
    obtain ⟨hmatches, hnested, htold, hroll⟩ := ih
    rw [trace_append, trace_cons, trace_nil, List.append_nil, callSheet_append]
    obtain ⟨hmatches', hsame | ⟨e, hadmits, hnote⟩⟩ := hmatches.move hvalid
    · rw [hsame] at hmatches' ⊢
      exact ⟨hmatches', hnested, htold, hroll.move hvalid⟩
    · rw [hnote] at hmatches' ⊢
      exact ⟨hmatches', hnested.note hadmits, htold.note hnested hadmits, hroll.move hvalid⟩

/-- A call is that of the listener at its position. -/
theorem Beat.Valid.listener_of_called {b : Beat} (hb : b.Valid) (hroll : b.before.OnRoll)
    {hook : Lifecycle.Hook} {index : Nat} {listener : Listener}
    (hmem : .called hook index listener ∈ b.events) :
    b.before.listeners[index]? = some listener := by
  have hfilter : .called hook index listener ∈ b.events.filter Event.isRollCall :=
    List.mem_filter.mpr ⟨hmem, rfl⟩
  cases Machine.move_rollCalls hb with
  | elsewhere _ _ hevents => rw [hevents] at hfilter; cases hfilter
  | began _ _ _ hevents => rw [hevents] at hfilter; cases List.mem_singleton.mp hfilter
  | called _ _ _ _ _ _ hbefore _ hevents =>
    rw [hevents] at hfilter
    cases List.mem_singleton.mp hfilter
    exact hroll.listener_at hbefore
  | ended _ _ _ _ hevents => rw [hevents] at hfilter; cases List.mem_singleton.mp hfilter

/-- **Start hooks that come too late.**  In every run from a fresh world, with whatever hooks do:

* the sessions that the sheet of the trace counts are those of the coordinator, and an index at
  which a listener is called is its position among the listeners;
* the stop hook of a listener is called for a session and after that its start hook for the same
  session, just if both are called and the stop pass of the session began while its start pass was
  under way and had yet to call the listener.

So start comes before stop in all sessions whose start hooks let the start pass come to its end
before the session is stopped. -/
theorem overtaking_of_run {w : World} (hw : w.Fresh) {path : List Beat} {m : Machine}
    (hrun : Run (Machine.idle w) path m) :
    (callSheet (trace path)).sessions = m.session ∧
    (∀ b ∈ path, ∀ hook index listener, .called hook index listener ∈ b.events →
      b.before.listeners[index]? = some listener) ∧
    ∀ n i, [⟨.stop, n, i⟩, ⟨.start, n, i⟩].Sublist (callSheet (trace path)).calls ↔
      ⟨.stop, n, i⟩ ∈ (callSheet (trace path)).calls ∧
      ⟨.start, n, i⟩ ∈ (callSheet (trace path)).calls ∧
      ∃ k ≤ i, (n, k) ∈ (callSheet (trace path)).overtaken := by
  obtain ⟨hmatches, -, htold, -⟩ := hrun.callSheet hw
  refine ⟨hmatches.sessions, ?_, htold.overtaken_iff⟩
  intro b hb hook index listener hmem
  obtain ⟨p, q, rfl⟩ := List.append_of_mem hb
  obtain ⟨hp, hvalid, -⟩ := Run.around hrun
  obtain ⟨-, -, -, hroll⟩ := Run.callSheet hw hp
  exact hvalid.listener_of_called hroll hmem

/-- Two listeners, the first of which stops the session from its start hook. -/
def hasty : List Beat × Machine :=
  (Machine.idle (World.parts 10 10)).played <|
    [.command (.addListener "hasty" .both [.notifyStop] [] none none 1), .step,
      .command (.addListener "late" .both [] [] none none 1), .step, .command .notifyStart]
      ++ List.replicate 20 .step

/-- The start pass is overtaken when it is to call the second listener, and so that one is started
after it was stopped, and the first one is not. -/
theorem overtaking_of_hasty :
    (World.parts 10 10).Fresh ∧ Run (Machine.idle (World.parts 10 10)) hasty.1 hasty.2 ∧
    hasty.2.isIdle = true ∧ (callSheet (trace hasty.1)).overtaken = [(1, 1)] ∧
    ¬ [⟨.stop, 1, 0⟩, ⟨.start, 1, 0⟩].Sublist (callSheet (trace hasty.1)).calls ∧
    [⟨.stop, 1, 1⟩, ⟨.start, 1, 1⟩].Sublist (callSheet (trace hasty.1)).calls := by
  have hrun : Run (Machine.idle (World.parts 10 10)) hasty.1 hasty.2 := Machine.played_run _ _
  have hovertaken : (callSheet (trace hasty.1)).overtaken = [(1, 1)] := by decide
  obtain ⟨-, -, hiff⟩ := overtaking_of_run (World.parts_fresh 10 10) hrun
  refine ⟨World.parts_fresh 10 10, hrun, rfl, hovertaken, ?_, ?_⟩
  · intro hpair
    obtain ⟨-, -, k, hk, hmem⟩ := (hiff 1 0).mp hpair
    rw [hovertaken, List.mem_singleton] at hmem
    cases hmem
    cases hk
  · exact (hiff 1 1).mpr ⟨by decide, by decide, 1, Nat.le_refl 1, hovertaken ▸ List.mem_cons_self⟩

/-- A listener may be left started by a session that has been stopped. -/
theorem hasty_leaves_started :
    ¬ ∀ (w : World) (path : List Beat) (m : Machine), w.Fresh → Run (Machine.idle w) path m →
      ∀ n i, ¬ [⟨.stop, n, i⟩, ⟨.start, n, i⟩].Sublist (callSheet (trace path)).calls := by
  intro hclaim
  exact hclaim _ hasty.1 hasty.2 (World.parts_fresh 10 10) (Machine.played_run _ _) 1 1 (by decide)

end TickHost
