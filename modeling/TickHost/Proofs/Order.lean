import TickHost.Proofs.Firing

/-!
# In what order actions run

The queue holds its tasks in the order of their acceptance, whatever was taken out of it from the
front, the middle or the end.  A pass takes its tasks in that order and fires them so.

* `Ledger.Sorted`: the queue, and what each pass under way has yet to fire, are in the order of
  handles.
* `Ledger.InOrder`: what a pass has fired comes before what it has yet to fire.  So the actions of
  one pass run in the order of handles, also when other passes are nested in it.
* Where no pass begins while another one is under way, passes do not mix.  Then the actions run pass
  by pass (`Ledger.byPass_of_replay`), and a task that was accepted earlier, with a delay that is no
  longer, is the first to run.
-/

namespace TickHost

/-! ## 1. The actions of a trace -/

/-- The action that an event begins: the number of the pass that runs it, which is the innermost one
under way, and the handle of its task. -/
def Event.turn? (log : PassLog) : Event → Option (Nat × Handle)
  | fired h _ => log.underway.head?.map (·, h)
  | _ => none

/-- The task whose action an event begins. -/
def Event.firedTask? : Event → Option Handle
  | fired h _ => some h
  | _ => none

/-- The task that an event accepts. -/
def Event.acceptedTask? : Event → Option Handle
  | accepted h _ _ => some h
  | _ => none

/-- The actions begun in a trace, in order, when these passes have begun before. -/
def turnsFrom : PassLog → List Event → List (Nat × Handle)
  | _, [] => []
  | log, e :: events => (e.turn? log).toList ++ turnsFrom (log.after e) events

/-- The actions begun in a trace, in order, each with its pass. -/
def turns (events : List Event) : List (Nat × Handle) := turnsFrom {} events

theorem turnsFrom_append (log : PassLog) (p q : List Event) :
    turnsFrom log (p ++ q) = turnsFrom log p ++ turnsFrom (p.foldl PassLog.after log) q := by
  induction p generalizing log with
  | nil => rfl
  | cons e p ih => simp [turnsFrom, ih]

theorem turns_append (p q : List Event) :
    turns (p ++ q) = turns p ++ turnsFrom (passLog p) q := turnsFrom_append {} p q

theorem turns_snoc (events : List Event) (e : Event) :
    turns (events ++ [e]) = turns events ++ (e.turn? (passLog events)).toList := by
  rw [turns_append]; simp [turnsFrom]

theorem Event.turn?_eq_none {e : Event} (h : ∀ h action, e ≠ .fired h action) (log : PassLog) :
    e.turn? log = none := by
  cases e with
  | fired h' action => exact absurd rfl (h h' action)
  | _ => rfl

/-! ## 2. What is pending and what passes have taken -/

/-- These tasks are in the order in which their handles were given out. -/
def Ascending (tasks : List (Task Action)) : Prop := tasks.Pairwise (·.handle.id < ·.handle.id)

/-- Handles given out one after the other ascend. -/
theorem Handle.ofNat_lt {i j : Nat} (h : i < j) (hj : j < 2 ^ 64) :
    (ofNat i).id < (ofNat j).id := by
  rw [UInt64.lt_iff_toNat_lt, id_ofNat (Nat.lt_trans h hj), id_ofNat hj]
  exact h

namespace Ledger

variable {l l' : Ledger} {e : Event} {events : List Event}

/-- **Everything that waits is in order**: the queue, and what each pass has yet to fire.  Passes
are numbered in the order in which they began. -/
structure Sorted (l : Ledger) : Prop where
  queue : Ascending l.queue
  due : ∀ pass ∈ l.underway, Ascending pass.due
  begun : ∀ pass ∈ l.underway, pass.number ≤ l.begun
  numbers : l.underway.Pairwise (·.number > ·.number)

theorem Sorted.empty : Sorted {} := ⟨.nil, by simp, by simp, .nil⟩

/-- What is pending has got its handle before the next one is given out. -/
theorem Distinct.below (hl : l.Distinct) (hfew : l.accepted < 2 ^ 64) :
    ∀ t ∈ l.queue, t.handle.id < (Handle.ofNat l.accepted).id := by
  intro t ht
  obtain ⟨i, hi, heq⟩ := hl.issued t.handle (List.mem_append_left _ (List.mem_map_of_mem ht))
  rw [heq]
  exact Handle.ofNat_lt hi hfew

/-- **Every posting keeps the order.** -/
theorem Posts.sorted (hpost : Posts l e l') (hl : l.Distinct) (hfew : l'.accepted ≤ 2 ^ 64)
    (hs : l.Sorted) : l'.Sorted := by
  obtain ⟨hqueue, hdue, hbegun, hnumbers⟩ := hs
  cases hpost with
  | accepted delay action =>
    refine ⟨List.pairwise_append.mpr ⟨hqueue, List.pairwise_singleton _ _, ?_⟩, hdue, hbegun,
      hnumbers⟩
    intro t ht new hnew
    rw [List.mem_singleton.mp hnew]
    exact hl.below (by simp only at hfew; omega) t ht
  | drained =>
    refine ⟨(hqueue.filter _).map _ fun _ _ h => h, ?_, ?_, ?_⟩
    · exact List.forall_mem_cons.mpr ⟨hqueue.filter _, hdue⟩
    · exact List.forall_mem_cons.mpr
        ⟨Nat.le_refl _, fun pass hpass => Nat.le_succ_of_le (hbegun pass hpass)⟩
    · exact List.pairwise_cons.mpr
        ⟨fun pass hpass => Nat.lt_succ_of_le (hbegun pass hpass), hnumbers⟩
  | fired number task due k passes h =>
    rw [h] at hdue hbegun hnumbers
    obtain ⟨htop, hrest⟩ := List.forall_mem_cons.mp hdue
    exact ⟨hqueue, List.forall_mem_cons.mpr ⟨htop.of_cons, hrest⟩,
      List.forall_mem_cons.mpr (List.forall_mem_cons.mp hbegun),
      List.pairwise_cons.mpr (List.pairwise_cons.mp hnumbers)⟩
  | passEnded number k passes h =>
    rw [h] at hdue hbegun hnumbers
    exact ⟨hqueue, (List.forall_mem_cons.mp hdue).2, (List.forall_mem_cons.mp hbegun).2,
      hnumbers.of_cons⟩
  | cancelled task before after h =>
    rw [h] at hqueue
    exact ⟨hqueue.sublist ((List.sublist_cons_self task after).append_left before), hdue, hbegun,
      hnumbers⟩
  | discarded => exact ⟨.nil, hdue, hbegun, hnumbers⟩
  | other => exact ⟨hqueue, hdue, hbegun, hnumbers⟩

/-! ## 3. What passes have fired -/

/-- **What a pass has fired comes before what it has yet to fire**, in the order of handles. -/
structure InOrder (events : List Event) (l : Ledger) : Prop where
  /-- Only passes that have begun have fired. -/
  begun : ∀ turn ∈ turns events, turn.1 ≤ l.begun
  /-- The actions of one pass have run in order. -/
  fired : (turns events).Pairwise fun a b => a.1 = b.1 → a.2.id < b.2.id
  /-- So will those that it has yet to fire. -/
  next : ∀ pass ∈ l.underway, ∀ turn ∈ turns events, turn.1 = pass.number →
    ∀ t ∈ pass.due, turn.2.id < t.handle.id

/-- An event that begins no action keeps the order if no pass has more to fire, but for passes that
have just begun. -/
theorem InOrder.keep (h : InOrder events l) (hfired : ∀ h action, e ≠ .fired h action)
    (hbegun : l.begun ≤ l'.begun)
    (hunderway : ∀ pass ∈ l'.underway, pass ∈ l.underway ∨ l.begun < pass.number) :
    InOrder (events ++ [e]) l' := by
  have hturns : turns (events ++ [e]) = turns events := by
    rw [turns_snoc, Event.turn?_eq_none hfired, Option.toList_none, List.append_nil]
  obtain ⟨hstarted, hordered, hnext⟩ := h
  refine ⟨?_, ?_, ?_⟩ <;> rw [hturns]
  · exact fun turn hturn => Nat.le_trans (hstarted turn hturn) hbegun
  · exact hordered
  · intro pass hpass turn hturn hnumber
    rcases hunderway pass hpass with hpass | hnew
    · exact hnext pass hpass turn hturn hnumber
    · have := hstarted turn hturn
      omega

theorem Posts.inOrder (hpost : Posts l e l') (hlog : (passLog events).underway =
    l.underway.map OpenPass.number) (hs : l.Sorted) (h : InOrder events l) :
    InOrder (events ++ [e]) l' := by
  cases hpost with
  | drained =>
    refine h.keep (by simp) (Nat.le_succ _) ?_
    intro pass hpass
    rcases List.mem_cons.mp hpass with rfl | hpass
    · exact Or.inr (Nat.lt_succ_self _)
    · exact Or.inl hpass
  | passEnded number k passes hpasses =>
    refine h.keep (by simp) (Nat.le_refl _) ?_
    intro pass hpass
    exact Or.inl (hpasses ▸ List.mem_cons_of_mem _ hpass)
  | accepted | cancelled | discarded =>
    exact h.keep (by simp) (Nat.le_refl _) fun pass hpass => Or.inl hpass
  | other _ hposted =>
    refine h.keep ?_ (Nat.le_refl _) fun pass hpass => Or.inl hpass
    rintro h action rfl
    cases hposted
  | fired number task due k passes hpasses =>
    have hturn : turns (events ++ [.fired task.handle task.action]) =
        turns events ++ [(number, task.handle)] := by
      rw [turns_snoc, Event.turn?, hlog, hpasses]; rfl
    have htop : (⟨number, task :: due, k⟩ : OpenPass) ∈ l.underway := by
      rw [hpasses]; exact List.mem_cons_self
    have hbefore := h.next _ htop
    have hnumbers := hs.numbers
    rw [hpasses] at hnumbers
    refine ⟨?_, ?_, ?_⟩ <;> rw [hturn]
    · exact List.forall_mem_append.mpr ⟨h.begun, List.forall_mem_singleton.mpr (hs.begun _ htop)⟩
    · refine List.pairwise_append.mpr ⟨h.fired, List.pairwise_singleton _ _, ?_⟩
      intro turn hmem new hnew hnumber
      obtain rfl := List.mem_singleton.mp hnew
      exact hbefore turn hmem hnumber task List.mem_cons_self
    · intro pass hpass turn hmem hnumber t ht
      rcases List.mem_cons.mp hpass with rfl | hpass
      · -- the pass goes on: what it fires now comes after what it has fired, and before the rest
        rcases List.mem_append.mp hmem with hmem | hmem
        · exact hbefore turn hmem hnumber t (List.mem_cons_of_mem _ ht)
        · obtain rfl := List.mem_singleton.mp hmem
          exact List.rel_of_pairwise_cons (hs.due _ htop) ht
      · rcases List.mem_append.mp hmem with hmem | hmem
        · exact h.next pass (hpasses ▸ List.mem_cons_of_mem _ hpass) turn hmem hnumber t ht
        · obtain rfl := List.mem_singleton.mp hmem
          have : number > pass.number := List.rel_of_pairwise_cons hnumbers hpass
          simp only at hnumber
          omega

theorem order_of_replay (hreplay : Replay {} events l) (hfew : l.accepted ≤ 2 ^ 64) :
    l.Sorted ∧ InOrder events l := by
  induction hreplay with
  | nil => exact ⟨.empty, by simp [turns, turnsFrom], .nil, by simp⟩
  | @snoc events _ _ _ hreplay hpost ih =>
    have hfew' := Nat.le_trans hpost.accepted_le hfew
    obtain ⟨hsorted, horder⟩ := ih hfew'
    have hdistinct := Replay.distinct hreplay hfew' .empty
    have hlog := congrArg PassLog.underway (log_of_replay hreplay)
    exact ⟨hpost.sorted hdistinct hfew hsorted, hpost.inOrder hlog hsorted horder⟩

/-- Every action that was begun has its turn. -/
theorem turns_complete (hreplay : Replay {} events l) :
    (turns events).map (·.2) = events.filterMap Event.firedTask? := by
  induction hreplay with
  | nil => rfl
  | @snoc events _ _ e hreplay hpost ih =>
    rw [turns_snoc, List.map_append, ih, List.filterMap_append]
    congr 1
    have hlog := congrArg PassLog.underway (log_of_replay hreplay)
    cases hpost with
    | fired number task due k passes h => rw [Event.turn?, hlog, h]; rfl
    | other _ h => cases e <;> first | rfl | cases h
    | _ => rfl

/-- Handles are given out in ascending order. -/
theorem acceptedTasks_sorted (hreplay : Replay {} events l) (hfew : l.accepted ≤ 2 ^ 64) :
    (events.filterMap Event.acceptedTask?).Pairwise (·.id < ·.id) ∧
      ∀ h ∈ events.filterMap Event.acceptedTask?, ∃ i < l.accepted, h = .ofNat i := by
  induction hreplay with
  | nil => exact ⟨.nil, by simp⟩
  | @snoc events _ _ e hreplay hpost ih =>
    obtain ⟨hsorted, hissued⟩ := ih (Nat.le_trans hpost.accepted_le hfew)
    rw [List.filterMap_append]
    cases hpost with
    | accepted delay action =>
      simp only at hfew
      constructor
      · refine List.pairwise_append.mpr ⟨hsorted, List.pairwise_singleton _ _, ?_⟩
        intro h hmem new hnew
        obtain ⟨i, hi, rfl⟩ := hissued h hmem
        rw [List.mem_singleton.mp hnew]
        exact Handle.ofNat_lt hi (by omega)
      · refine List.forall_mem_append.mpr ⟨?_, List.forall_mem_singleton.mpr ⟨_, by simp, rfl⟩⟩
        intro h hmem
        obtain ⟨i, hi, heq⟩ := hissued h hmem
        exact ⟨i, Nat.lt_succ_of_lt hi, heq⟩
    | other _ h =>
      have hnone : [e].filterMap Event.acceptedTask? = [] := by
        cases e <;> first | rfl | cases h
      rw [hnone, List.append_nil]
      exact ⟨hsorted, hissued⟩
    | _ =>
      rw [show List.filterMap _ [_] = [] from rfl, List.append_nil]
      exact ⟨hsorted, hissued⟩

/-! ## 4. One pass after the other -/

end Ledger

/-- No pass begins while another one is under way. -/
def PassesApart (events : List Event) : Prop :=
  ∀ i < events.length, events[i]?.any Event.isDrain = true →
    (passLog (events.take i)).underway = []

instance (events : List Event) : Decidable (PassesApart events) :=
  inferInstanceAs (Decidable (∀ i < events.length, _ → _))

theorem PassesApart.split {p q : List Event} (h : PassesApart (p ++ .drained :: q)) :
    (passLog p).underway = [] := by
  have := h p.length (by simp)
  rw [List.take_left] at this
  exact this (by simp [Event.isDrain])

theorem PassesApart.init {p q : List Event} (h : PassesApart (p ++ q)) : PassesApart p := by
  intro i hi hdrain
  have := h i (by rw [List.length_append]; omega)
  rw [List.getElem?_append_left hi, List.take_append_of_le_length (Nat.le_of_lt hi)] at this
  exact this hdrain

namespace Ledger

variable {l l' : Ledger} {e : Event} {events : List Event}

/-- **Passes do not mix**: the latest pass is the only one that may be under way, and the actions so
far ran pass by pass. -/
structure ByPass (events : List Event) (l : Ledger) : Prop where
  /-- Only the latest pass is under way. -/
  latest : l.underway.map OpenPass.number = [] ∨ l.underway.map OpenPass.number = [l.begun]
  /-- The actions so far. -/
  turns : (TickHost.turns events).Pairwise fun a b => a.1 ≤ b.1

theorem byPass_of_replay (hreplay : Replay {} events l) (hfew : l.accepted ≤ 2 ^ 64)
    (hapart : PassesApart events) : ByPass events l := by
  induction hreplay with
  | nil => exact ⟨Or.inl rfl, .nil⟩
  | @snoc events l₀ l' e hreplay hpost ih =>
    have hfew' := Nat.le_trans hpost.accepted_le hfew
    obtain ⟨hlatest, hturns⟩ := ih hfew' hapart.init
    have hlog := congrArg PassLog.underway (log_of_replay hreplay)
    have hquiet (h : ∀ h action, e ≠ .fired h action) :
        (TickHost.turns (events ++ [e])).Pairwise fun a b => a.1 ≤ b.1 := by
      rw [turns_snoc, Event.turn?_eq_none h, Option.toList_none, List.append_nil]
      exact hturns
    cases hpost with
    | accepted | cancelled | discarded => exact ⟨hlatest, hquiet (by simp)⟩
    | drained =>
      have hnone : l₀.underway = [] := List.map_eq_nil_iff.mp (hlog.symm.trans hapart.split)
      exact ⟨Or.inr (by simp [hnone]), hquiet (by simp)⟩
    | passEnded number k passes h =>
      rw [h] at hlatest
      have hnone : passes = [] := (by simpa using hlatest : number = l₀.begun ∧ passes = []).2
      exact ⟨Or.inl (by rw [hnone]; rfl), hquiet (by simp)⟩
    | other _ h =>
      refine ⟨hlatest, hquiet ?_⟩
      rintro h action rfl
      cases h
    | fired number task due k passes h =>
      refine ⟨by simpa [h] using hlatest, ?_⟩
      rw [h] at hlatest hlog
      have hnumber := (by simpa using hlatest : number = l₀.begun ∧ passes = []).1
      rw [turns_snoc, Event.turn?, hlog]
      refine List.pairwise_append.mpr ⟨hturns, List.pairwise_singleton _ _, ?_⟩
      intro turn hmem new hnew
      obtain rfl := List.mem_singleton.mp hnew
      have := (order_of_replay hreplay hfew').2.begun turn hmem
      simp only
      omega

end Ledger

/-! ## 5. Whole runs -/

/-- Passes are numbered by how many have begun. -/
theorem passLog_begun (events : List Event) : (passLog events).begun = drains events := by
  induction events using List.reverseRecOn with
  | nil => rfl
  | append_singleton events e ih =>
    rw [passLog, List.foldl_append, ← passLog, drains_append, ← ih]
    cases e <;> rfl

/-- The pass for a task comes no earlier when it is accepted later and has no shorter delay. -/
theorem passFor_le (pre mid : List Event) {d d' : Nat} (h : d ≤ d') :
    passFor pre d ≤ passFor (pre ++ mid) d' := by
  rw [passFor, passFor, passLog_begun, passLog_begun, drains_append]
  omega

/-- A task runs in the pass that is to take it. -/
theorem Kept.pass {pre post p q : List Event} {h : Handle} {delay : Nat} {action action' : Action}
    {m : Machine} (hk : Kept pre post h delay action m)
    (hsplit : pre ++ .accepted h delay action :: post = p ++ .fired h action' :: q) :
    (passLog p).underway.head? = some (passFor pre delay) := by
  rcases List.append_eq_append_iff.mp hsplit with ⟨since, rfl, hsince⟩ | ⟨since, rfl, hsince⟩
  · cases since with
    | nil => cases hsince
    | cons e since =>
      obtain ⟨rfl, hpost⟩ := List.cons.inj hsince
      exact (hk.inPass since action' q hpost).2.2
  · -- it would have run before it was accepted
    cases since with
    | nil => cases hsince
    | cons e since =>
      obtain ⟨rfl, -⟩ := List.cons.inj hsince
      have hfired : (.fired h action' : Event) ∈ p ++ .fired h action' :: since := by simp
      have := List.countP_eq_zero.mp hk.notBefore _ hfired
      simp [Event.fires] at this

theorem turns_fired {p : List Event} {h : Handle} {action : Action} {number : Nat}
    (hnumber : (passLog p).underway.head? = some number) (q : List Event) :
    turns (p ++ .fired h action :: q) = turns p ++ (number, h) :: turnsFrom (passLog p) q := by
  rw [turns_append, turnsFrom, Event.turn?, hnumber]
  rfl

/-- An action that runs after another one has its turn after it. -/
theorem turns_pair {R : Nat × Handle → Nat × Handle → Prop} {p q r : List Event}
    {h h' : Handle} {action action' : Action} {number number' : Nat}
    (hturns : (turns (p ++ .fired h action :: (q ++ .fired h' action' :: r))).Pairwise R)
    (hnumber : (passLog p).underway.head? = some number)
    (hnumber' : (passLog (p ++ .fired h action :: q)).underway.head? = some number') :
    R (number, h) (number', h') := by
  have hlog : q.foldl PassLog.after (passLog p) = passLog (p ++ .fired h action :: q) := by
    rw [passLog, passLog, List.foldl_append]; rfl
  rw [turns_fired hnumber, turnsFrom_append, hlog, turnsFrom, Event.turn?, hnumber'] at hturns
  exact List.rel_of_pairwise_cons (List.pairwise_append.mp hturns).2.1 (by simp)

/-- **Of two tasks the one accepted first runs first**, if its pass comes no later and the turns
ascend by pass, and in one pass by handle. -/
theorem Kept.runs_first {pre post pre' post' : List Event} {h h' : Handle} {delay delay' : Nat}
    {action action' : Action} {m : Machine} (hkept : Kept pre post h delay action m)
    (hkept' : Kept pre' post' h' delay' action' m)
    (hsame : pre ++ .accepted h delay action :: post = pre' ++ .accepted h' delay' action' :: post')
    (hpasses : passFor pre delay ≤ passFor pre' delay') (hlt : h.id < h'.id)
    (hturns : (turns (pre ++ .accepted h delay action :: post)).Pairwise
      fun a b => a.1 < b.1 ∨ a.1 = b.1 ∧ a.2.id < b.2.id)
    (hran : firingsOf h post ≠ 0) {p q : List Event} {body : Action}
    (hsplit : pre ++ .accepted h delay action :: post = p ++ .fired h' body :: q) :
    firingsOf h p = 1 := by
  have hne : h' ≠ h := by
    rintro rfl
    exact absurd hlt (by simp)
  have hcount : firingsOf h pre + firingsOf h post = firingsOf h p + firingsOf h q := by
    have := congrArg (firingsOf h) hsplit
    simpa [firingsOf, Event.fires, hne] using this
  have hnot : firingsOf h pre = 0 := hkept.notBefore
  have hmost := hkept.atMostOnce
  -- if it had run after the other one, its turn would be out of order
  by_contra hlate
  have hq : 0 < firingsOf h q := by omega
  obtain ⟨e, he, hfires⟩ := List.countP_pos_iff.mp hq
  obtain ⟨body', rfl⟩ : ∃ body', e = .fired h body' := by
    cases e with
    | fired h'' body' =>
      obtain rfl : h'' = h := by simpa [Event.fires] using hfires
      exact ⟨body', rfl⟩
    | _ => cases hfires
  obtain ⟨r, s, rfl⟩ := List.append_of_mem he
  have hsplit'' : pre ++ .accepted h delay action :: post =
      (p ++ .fired h' body :: r) ++ .fired h body' :: s := by rw [hsplit]; simp
  have hpass := hkept.pass hsplit''
  have hpass' := hkept'.pass (hsame.symm.trans hsplit)
  rw [hsplit] at hturns
  rcases turns_pair hturns hpass' hpass with hearlier | ⟨-, hbelow⟩
  · simp only at hearlier
    omega
  · exact absurd hbelow (UInt64.lt_asymm hlt)

open Ledger in
/-- **In what order actions run.**  At every moment of every run from a fresh world with less than
`2 ^ 64` acceptances:

* handles are given out in ascending order; the queue, and what each pass under way has yet to fire,
  ascends by handle, and the next handle is above all that are pending;
* every action that was begun has its turn, in the pass that was the innermost one at that moment,
  and the turns of one pass ascend by handle;
* if no pass has begun while another one was under way, the turns ascend by pass, and in one pass by
  handle; then of two tasks that have both run, the one that was accepted first, with a delay that
  is no longer, has run first. -/
theorem order_of_run {w : World} (hw : w.Fresh) {path : List Beat} {m : Machine}
    (hrun : Run (Machine.idle w) path m) (hfew : acceptances (trace path) < 2 ^ 64) :
    ((trace path).filterMap Event.acceptedTask?).Pairwise (·.id < ·.id) ∧
    Ascending m.world.scheduler.queue ∧
    (∀ t ∈ m.world.scheduler.queue, t.handle.id < m.world.scheduler.nextHandle.id) ∧
    (∀ pass ∈ m.underway, Ascending pass.1) ∧
    (turns (trace path)).map (·.2) = (trace path).filterMap Event.firedTask? ∧
    (turns (trace path)).Pairwise (fun a b => a.1 = b.1 → a.2.id < b.2.id) ∧
    (PassesApart (trace path) →
      (turns (trace path)).Pairwise (fun a b => a.1 < b.1 ∨ a.1 = b.1 ∧ a.2.id < b.2.id) ∧
      ∀ pre mid post h h' delay delay' action action',
        trace path = pre ++ .accepted h delay action ::
          (mid ++ .accepted h' delay' action' :: post) →
        delay ≤ delay' → firingsOf h (mid ++ .accepted h' delay' action' :: post) ≠ 0 →
        ∀ p body q, trace path = p ++ .fired h' body :: q → firingsOf h p = 1) := by
  obtain ⟨l, hreplay, hl⟩ := run_replay hw hrun
  have haccepted : l.accepted = acceptances (trace path) := by
    rw [accepted_of_replay hreplay, Nat.zero_add]
  have hfew' : l.accepted < 2 ^ 64 := haccepted ▸ hfew
  obtain ⟨hsorted, horder⟩ := order_of_replay hreplay (Nat.le_of_lt hfew')
  have hdistinct := Replay.distinct hreplay (Nat.le_of_lt hfew') .empty
  have hhandles := (acceptedTasks_sorted hreplay (Nat.le_of_lt hfew')).1
  refine ⟨hhandles, ?_, ?_, ?_, turns_complete hreplay, horder.fired, ?_⟩
  · exact hl.queue ▸ hsorted.queue
  · rw [← hl.queue, Scheduler.nextHandle, ← hl.accepted]
    exact hdistinct.below hfew'
  · rw [← hl.underway]
    exact List.forall_mem_map.mpr hsorted.due
  intro hapart
  have hturns : (turns (trace path)).Pairwise
      (fun a b => a.1 < b.1 ∨ a.1 = b.1 ∧ a.2.id < b.2.id) := by
    refine ((byPass_of_replay hreplay (Nat.le_of_lt hfew') hapart).turns.and horder.fired).imp ?_
    rintro a b ⟨hle, hsame⟩
    rcases Nat.lt_or_eq_of_le hle with hlt | heq
    · exact Or.inl hlt
    · exact Or.inr ⟨heq, hsame heq⟩
  refine ⟨hturns, ?_⟩
  intro pre mid post h h' delay delay' action action' hsplit hdelay hran p body q hfired
  have hsplit' : trace path = (pre ++ .accepted h delay action :: mid)
      ++ .accepted h' delay' action' :: post := by rw [hsplit]; simp
  have hlt : h.id < h'.id := by
    refine List.pairwise_iff_forall_sublist.mp hhandles ?_
    rw [hsplit]
    simp [List.filterMap_append, Event.acceptedTask?]
  exact (kept_of_replay (hsplit ▸ hreplay) hfew' hl).runs_first
    (kept_of_replay (hsplit' ▸ hreplay) hfew' hl) (hsplit.symm.trans hsplit')
    (passFor_le pre _ hdelay) hlt (hsplit ▸ hturns) hran (hsplit.symm.trans hfired)

/-- Two passes.  The first one runs the second task only, whose action cancels the third one and has
a fifth one accepted; the second pass runs what is left. -/
def relay : List Beat × Machine :=
  (Machine.idle (World.parts 10 10)).played <|
    [.command (.schedule "slow" (some 1) false .goOn []), .step,
      .command (.schedule "quick" (some 0) false .goOn
        [.cancel 2, .schedule "late" (some 0) false .goOn []]), .step,
      .command (.fill 1 1), .step, .command (.schedule "last" (some 1) false .goOn []), .step,
      .command .runPass] ++ List.replicate 12 .step
      ++ [.command .runPass] ++ List.replicate 12 .step

/-- The first task has the same delay as the fourth one, and runs before it. -/
theorem order_of_relay :
    (World.parts 10 10).Fresh ∧ Run (Machine.idle (World.parts 10 10)) relay.1 relay.2 ∧
    acceptances (trace relay.1) < 2 ^ 64 ∧ PassesApart (trace relay.1) ∧
    turns (trace relay.1) = [(1, .ofNat 1), (2, .ofNat 0), (2, .ofNat 3), (2, .ofNat 4)] ∧
    (turns (trace relay.1)).Pairwise (fun a b => a.1 < b.1 ∨ a.1 = b.1 ∧ a.2.id < b.2.id) ∧
    trace relay.1 = (trace relay.1).take 38
      ++ .fired (.ofNat 3) (.script "last" false []) :: (trace relay.1).drop 39 ∧
    firingsOf (.ofNat 0) ((trace relay.1).take 38) = 1 := by
  have hrun : Run (Machine.idle (World.parts 10 10)) relay.1 relay.2 := Machine.played_run _ _
  have hfew : acceptances (trace relay.1) < 2 ^ 64 := by decide
  have hapart : PassesApart (trace relay.1) := by decide
  have hfired : trace relay.1 = (trace relay.1).take 38
      ++ .fired (.ofNat 3) (.script "last" false []) :: (trace relay.1).drop 39 := rfl
  have haccepted : trace relay.1 = (trace relay.1).take 1
      ++ .accepted (.ofNat 0) 1 (.script "slow" false []) :: (((trace relay.1).drop 2).take 10
      ++ .accepted (.ofNat 3) 1 (.script "last" false []) :: (trace relay.1).drop 13) := rfl
  obtain ⟨-, -, -, -, -, -, hflat⟩ := order_of_run (World.parts_fresh 10 10) hrun hfew
  obtain ⟨hturns, hfirst⟩ := hflat hapart
  have hslow := hfirst _ _ _ _ _ _ _ _ _ haccepted (by decide) (by decide) _ _ _ hfired
  exact ⟨World.parts_fresh 10 10, hrun, hfew, hapart, by decide, hturns, hfired, hslow⟩

end TickHost
