import TickHost.Session

/-!
# Runs

A run begins with nothing under way and goes on move by move.  Most moves are steps of the machine.
Two others come from outside of it:

* whoever gives the commands gives the next one, once nothing is under way;
* a callback that is to carry out its next command goes on with other commands instead.

The second makes user code free.  The script that a callback comes with is only what it would do
by itself; in a run it may do anything else at any moment, so it may look at replies, keep state
between its calls, or end early.  What is proved of all runs is proved of all such callbacks.

A run is kept as the list of its beats, each one move with the machine before it and after it
(`Run`).  `Call` is a run in which an operation is under way all the time, and `play` computes runs.
-/

namespace TickHost

/-! ## 1. Moves -/

/-- What makes a run go on. -/
inductive Move where
  /-- The machine makes its next step. -/
  | step
  /-- The next command is given. -/
  | command (c : Command)
  /-- The callback that is running goes on with these commands. -/
  | improvise (commands : Script)
  deriving Repr

/-- Whether nothing is done next: there is a reply, or a callback has ended. -/
def Focus.isFinal : Focus → Bool
  | reply _ | ended _ => true
  | _ => false

namespace Machine

/-- The machine in which nothing has been done yet. -/
def idle (w : World) : Machine := ⟨w, .reply .done, []⟩

/-- Whether nothing is under way. -/
def isIdle (m : Machine) : Bool := m.stack.isEmpty && m.focus.isFinal

/-- The machine after a move that it allows. -/
def move? (m : Machine) : Move → Option Stepped
  | .step => m.step?
  | .command c => if m.isIdle then some (turnTo m.world [] (.command c)) else none
  | .improvise commands =>
    match m.focus with
    | .script _ => some (turnTo m.world m.stack (.script commands))
    | _ => none

/-- What a move is: a step, a command given to an idle machine, or other commands for the callback
that is running. -/
theorem move?_cases {m : Machine} {mv : Move} {s : Stepped} (h : m.move? mv = some s) :
    m.step? = some s ∨
    (m.isIdle = true ∧ ∃ c, mv = .command c ∧ s = turnTo m.world [] (.command c)) ∨
    ((∃ script, m.focus = .script script) ∧
      ∃ commands, s = turnTo m.world m.stack (.script commands)) := by
  cases mv with
  | step => exact Or.inl h
  | command c =>
    simp only [move?] at h
    split at h
    · rename_i hidle
      exact Or.inr (Or.inl ⟨hidle, c, rfl, (Option.some.inj h).symm⟩)
    · cases h
  | improvise commands =>
    simp only [move?] at h
    split at h
    · rename_i script hfocus
      exact Or.inr (Or.inr ⟨⟨script, hfocus⟩, commands, (Option.some.inj h).symm⟩)
    · cases h

/-- A callback that is not to carry out its next command, and a machine that is not idle, go on by
themselves. -/
theorem step_of_move {m : Machine} {mv : Move} {s : Stepped} (h : m.move? mv = some s)
    (hidle : m.isIdle = false) (hscript : ∀ commands, m.focus ≠ .script commands) :
    m.step? = some s := by
  rcases move?_cases h with h | ⟨hidle', -⟩ | ⟨⟨commands, hfocus⟩, -⟩
  · exact h
  · rw [hidle] at hidle'; cases hidle'
  · exact absurd hfocus (hscript commands)

end Machine

/-! ## 2. Trails -/

/-- A sequence of steps that leads from one state to another, grown at its end. -/
inductive Trail {σ ε : Type} (R : σ → ε → σ → Prop) (s : σ) : List ε → σ → Prop
  | nil : Trail R s [] s
  | snoc {es : List ε} {t u : σ} {e : ε} : Trail R s es t → R t e u → Trail R s (es ++ [e]) u

namespace Trail

variable {σ ε : Type} {R : σ → ε → σ → Prop} {s t u : σ} {e : ε} {es p q : List ε}

theorem single (h : R s e t) : Trail R s [e] t := Trail.nil.snoc h

theorem append (h : Trail R s p t) (h' : Trail R t q u) : Trail R s (p ++ q) u := by
  induction h' with
  | nil => simpa using h
  | snoc _ hstep ih => rw [← List.append_assoc]; exact ih.snoc hstep

theorem cons (h : R s e t) (h' : Trail R t es u) : Trail R s (e :: es) u := (single h).append h'

/-- A trail can be cut anywhere. -/
theorem split (h : Trail R s (p ++ q) u) : ∃ t, Trail R s p t ∧ Trail R t q u := by
  generalize hes : p ++ q = es at h
  induction h generalizing q with
  | nil =>
    obtain ⟨rfl, rfl⟩ := List.append_eq_nil_iff.mp hes
    exact ⟨s, .nil, .nil⟩
  | @snoc es t u e htrail hstep ih =>
    rcases List.eq_nil_or_concat q with rfl | ⟨q', e', rfl⟩
    · rw [List.append_nil] at hes
      exact ⟨u, hes ▸ htrail.snoc hstep, .nil⟩
    · rw [List.concat_eq_append, ← List.append_assoc] at hes
      obtain ⟨hinit, hlast⟩ := List.append_inj' hes rfl
      obtain ⟨k, hk, hk'⟩ := ih hinit
      refine ⟨k, hk, ?_⟩
      rw [List.concat_eq_append, hlast]
      exact hk'.snoc hstep

theorem eq_of_nil (h : Trail R s [] t) : s = t := by
  generalize hes : [] = es at h
  cases h with
  | nil => rfl
  | snoc htrail hstep => simp at hes

/-- The first step of a trail, and the rest. -/
theorem uncons (h : Trail R s (e :: es) u) : ∃ t, R s e t ∧ Trail R t es u := by
  obtain ⟨t, hhead, htail⟩ := split (p := [e]) h
  generalize hes : [e] = head at hhead
  cases hhead with
  | nil => cases hes
  | snoc hnil hstep =>
    change [] ++ [e] = _ at hes
    obtain ⟨rfl, he⟩ := List.append_inj' hes rfl
    obtain rfl := List.singleton_inj.mp he
    rw [hnil.eq_of_nil]
    exact ⟨t, hstep, htail⟩

/-- Only the events that may change something count. -/
theorem of_filter {counts : ε → Bool} (hskip : ∀ s e, counts e = false → R s e s) :
    ∀ {es : List ε} {s t : σ}, Trail R s (es.filter counts) t → Trail R s es t
  | [], _, _, h => h
  | e :: es, s, t, h => by
    cases he : counts e with
    | true =>
      rw [List.filter_cons_of_pos he] at h
      obtain ⟨k, hstep, hrest⟩ := h.uncons
      exact .cons hstep (of_filter hskip hrest)
    | false =>
      rw [List.filter_cons_of_neg (by simp [he])] at h
      exact .cons (hskip s e he) (of_filter hskip h)

end Trail

/-! ## 3. Runs -/

/-- One move of a run, with what it starts from and what it leads to. -/
structure Beat where
  /-- The machine before the move. -/
  before : Machine
  /-- The move. -/
  move : Move
  /-- The machine after the move. -/
  after : Machine
  /-- What happened. -/
  events : List Event
  deriving Repr

/-- The move is one that the machine allows. -/
def Beat.Valid (b : Beat) : Prop := b.before.move? b.move = some ⟨b.after, b.events⟩

/-- The beat is a move from one machine to another. -/
structure Beat.Leads (m : Machine) (b : Beat) (n : Machine) : Prop where
  before : b.before = m
  valid : b.Valid
  after : b.after = n

/-- What happened in a run, in order. -/
def trace (path : List Beat) : List Event := path.flatMap (·.events)

@[simp] theorem trace_nil : trace [] = [] := rfl

@[simp] theorem trace_append (p q : List Beat) : trace (p ++ q) = trace p ++ trace q := by
  simp [trace]

@[simp] theorem trace_cons (b : Beat) (p : List Beat) : trace (b :: p) = b.events ++ trace p := rfl

/-- A run from one machine to another. -/
abbrev Run : Machine → List Beat → Machine → Prop := Trail Beat.Leads

theorem Run.valid {m n : Machine} {path : List Beat} (h : Run m path n) : ∀ b ∈ path, b.Valid := by
  induction h with
  | nil => simp
  | snoc _ hb ih =>
    intro b hmem
    rcases List.mem_append.mp hmem with hmem | hmem
    · exact ih b hmem
    · rw [List.mem_singleton.mp hmem]; exact hb.valid

/-- The beats of a run tell where it leads. -/
theorem Run.unique {k m m' : Machine} {path : List Beat} (h : Run k path m) (h' : Run k path m') :
    m = m' := by
  cases h with
  | nil => exact Trail.eq_of_nil h'
  | snoc _ hlast =>
    generalize hpath : _ ++ [_] = path' at h'
    cases h' with
    | nil => simp at hpath
    | snoc _ hlast' =>
      obtain ⟨-, hsame⟩ := List.append_inj' hpath rfl
      obtain rfl := List.singleton_inj.mp hsame
      exact hlast.after.symm.trans hlast'.after

/-- A run is a beat of it with what comes before and what comes after. -/
theorem Run.around {m n : Machine} {p q : List Beat} {b : Beat} (h : Run m (p ++ b :: q) n) :
    Run m p b.before ∧ b.Valid ∧ Run b.after q n := by
  obtain ⟨k, hp, hrest⟩ := h.split
  obtain ⟨_, ⟨rfl, hvalid, rfl⟩, hq⟩ := hrest.uncons
  exact ⟨hp, hvalid, hq⟩

/-- A run can be cut after each of its beats. -/
theorem Run.cut {m n : Machine} {p q : List Beat} {b : Beat} (h : Run m (p ++ b :: q) n) :
    Run m (p ++ [b]) b.after ∧ Run b.after q n := by
  obtain ⟨hp, hvalid, hq⟩ := h.around
  exact ⟨hp.snoc ⟨rfl, hvalid, rfl⟩, hq⟩

/-- A run has a last beat, unless it has not begun. -/
theorem Run.unsnoc {m n : Machine} {path : List Beat} (h : Run m path n) :
    path = [] ∧ m = n ∨
      ∃ p b, path = p ++ [b] ∧ Run m p b.before ∧ b.Valid ∧ b.after = n := by
  cases h with
  | nil => exact Or.inl ⟨rfl, rfl⟩
  | snoc hp hb =>
    obtain ⟨rfl, hvalid, hafter⟩ := hb
    exact Or.inr ⟨_, _, rfl, hp, hvalid, hafter⟩

/-! ## 4. Calls -/

/-- The machine has come back to the stack `S`, with a reply or with the end of a callback for the
frame on top of it. -/
def Machine.BackAt (S : List Frame) (m : Machine) : Prop := m.stack = S ∧ m.focus.isFinal = true

/-- A run during which whatever was begun on the stack `S` is under way: it is not back at `S`,
except perhaps in the end. -/
structure Call (S : List Frame) (m : Machine) (path : List Beat) (n : Machine) : Prop where
  /-- It is a run. -/
  run : Run m path n
  /-- It was not back before. -/
  pending : ∀ b ∈ path, ¬ b.before.BackAt S

/-- What every move of a call keeps holds in the end if it holds in the beginning.  What is to be
kept may speak about the moves made so far. -/
theorem Call.keeps {S : List Frame} {m n : Machine} {path : List Beat}
    {P : List Beat → Machine → Prop} (h : Call S m path n) (h₀ : P [] m)
    (hmove : ∀ {p b}, Beat.Valid b → ¬ b.before.BackAt S → P p b.before → P (p ++ [b]) b.after) :
    P path n := by
  obtain ⟨hrun, hpending⟩ := h
  induction hrun with
  | nil => exact h₀
  | snoc _ hb ih =>
    obtain ⟨rfl, hvalid, rfl⟩ := hb
    have hlast := hpending _ (List.mem_append_right _ List.mem_cons_self)
    exact hmove hvalid hlast (ih fun b hb => hpending b (List.mem_append_left _ hb))

/-! ## 5. Computed runs -/

/-- Makes these moves one after the other. -/
def Machine.play : Machine → List Move → Option (List Beat × Machine)
  | m, [] => some ([], m)
  | m, mv :: moves => do
    let s ← m.move? mv
    let (path, n) ← s.machine.play moves
    return (⟨m, mv, s.machine, s.events⟩ :: path, n)

/-- What is played is a run. -/
theorem Machine.play_run : ∀ {moves : List Move} {m n : Machine} {path : List Beat},
    m.play moves = some (path, n) → Run m path n
  | [], m, n, path, h => by
    obtain ⟨rfl, rfl⟩ := Prod.mk.inj (Option.some.inj h)
    exact .nil
  | mv :: moves, m, n, path, h => by
    simp only [play, Option.bind_eq_bind, Option.bind_eq_some_iff, Option.pure_def] at h
    obtain ⟨s, hs, ⟨q, k⟩, hq, h⟩ := h
    obtain ⟨rfl, rfl⟩ := Prod.mk.inj (Option.some.inj h)
    exact .cons ⟨rfl, hs, rfl⟩ (play_run hq)

/-- The run that these moves make, and where it leads; if one is not allowed, none is made. -/
def Machine.played (m : Machine) (moves : List Move) : List Beat × Machine :=
  (m.play moves).getD ([], m)

theorem Machine.played_run (m : Machine) (moves : List Move) :
    Run m (m.played moves).1 (m.played moves).2 := by
  rw [played]
  cases h : m.play moves with
  | none => exact .nil
  | some played => exact play_run h

/-! ## 6. Beginnings -/

/-- A world whose scheduler and coordinator have just been made.  Handlers and listeners may have
been registered. -/
structure World.Fresh (w : World) : Prop where
  /-- No task is pending. -/
  queue : w.scheduler.queue = []
  /-- No task was accepted yet. -/
  accepted : w.scheduler.accepted = 0
  /-- No pass was completed yet. -/
  passes : w.scheduler.passes = 0
  /-- No session has started yet. -/
  state : w.coordinator.state = .unstarted
  /-- No session has run yet. -/
  session : w.coordinator.session = 0

namespace World

theorem parts_fresh (maxDelay maxPending : Nat) : (parts maxDelay maxPending).Fresh :=
  ⟨rfl, rfl, rfl, rfl, rfl⟩

theorem proxied_fresh (config : Config) : (proxied config).world.Fresh := ⟨rfl, rfl, rfl, rfl, rfl⟩

theorem hosted_fresh (config : Config) (sampler : Sampler) : (hosted config sampler).world.Fresh :=
  ⟨rfl, rfl, rfl, rfl, rfl⟩

/-- A limit for its runs leaves a host as fresh as it was. -/
theorem Fresh.limited {host : Turn Unit} (h : host.world.Fresh) : (limited host).world.Fresh :=
  ⟨h.queue, h.accepted, h.passes, h.state, h.session⟩

end World

end TickHost
