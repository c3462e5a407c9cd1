import TickHost.Proofs.Steps.Stack

/-!
# No end of a callback escapes

A callback ends by a panic, by a failure or by returning, and in each case its end passes through
the user code that waits on top of the operation that has called it, and goes no further.  For that
to hold, user code has to stand on top of such an operation wherever it is, at any depth of nesting;
this is the invariant (`Contained`).

So an operation that comes to its end has a reply (`call_replies`).  In a run, the script of a
callback that goes on is right on top of the operation that has called it (`Run.caller`), and no
user code stands on an operation that would not take note of its end (`Run.borne`).
-/

namespace TickHost

/-! ## 1. Shelter -/

/-- Whether user code on top of these frames has an operation below it that takes note of its end,
with nothing but user code in between. -/
def shelters : List Frame → Bool
  | [] => false
  | frame :: rest => frame.catches || frame.isUserCode && shelters rest

/-- All user code that waits in these frames is sheltered. -/
def AllSheltered : List Frame → Prop
  | [] => True
  | frame :: rest => (frame.isUserCode = true → shelters rest = true) ∧ AllSheltered rest

namespace Machine

/-- **The invariant.**  On top of `S`, user code is sheltered wherever it is. -/
def Contained (S : List Frame) (m : Machine) : Prop :=
  ∃ above, m.stack = above ++ S ∧ (m.focus.isUserCode = true → shelters above = true) ∧
    AllSheltered above

theorem Contained.step {S : List Frame} {m : Machine} {s : Stepped} (h : m.step? = some s)
    (hback : ¬ m.BackAt S) (hm : Contained S m) : Contained S s.machine := by
  obtain ⟨above, hstack, huser, hall⟩ := hm
  -- the frames of `S` are out of reach, for the machine is not back at them
  have hsplit {frame : Frame} {rest : List Frame} (hfinal : m.focus.isFinal = true)
      (hrest : m.stack = frame :: rest) :
      ∃ above', above = frame :: above' ∧ rest = above' ++ S := by
    cases above with
    | nil => exact absurd ⟨hstack, hfinal⟩ hback
    | cons frame' above' =>
      rw [hstack, List.cons_append] at hrest
      obtain ⟨rfl, rfl⟩ := List.cons.inj hrest
      exact ⟨above', rfl, rfl⟩
  cases step_stack h with
  | kept hs huser' => exact ⟨above, hs.trans hstack, fun hu => huser (huser' hu), hall⟩
  | pushed frame hs hframe huser' =>
    refine ⟨frame :: above, by rw [hs, hstack, List.cons_append], ?_, ?_, hall⟩
    · intro hu
      rcases huser' hu with hf | hf
      · simp [shelters, hf, huser (hframe hf)]
      · simp [shelters, hf]
    · intro hf
      exact huser (hframe hf)
  | popped frame hfinal hs huser' =>
    obtain ⟨above', rfl, hrest⟩ := hsplit hfinal hs
    refine ⟨above', hrest, ?_, hall.2⟩
    intro hu
    rcases huser' hu with hf | ⟨hm, hf⟩
    · exact hall.1 hf
    · have hshelters := huser hm
      simp only [shelters, hf, Bool.false_or, Bool.and_eq_true] at hshelters
      exact hshelters.2
  | replaced frame frame' rest hfinal hs hs' hframe huser' =>
    obtain ⟨above', rfl, rfl⟩ := hsplit hfinal hs
    refine ⟨frame' :: above', hs', ?_, ?_, hall.2⟩
    · intro hu
      simp [shelters, huser' hu]
    · intro hf
      rw [hframe] at hf
      cases hf

theorem Contained.move {S : List Frame} {m : Machine} {mv : Move} {s : Stepped}
    (h : m.move? mv = some s) (hback : ¬ m.BackAt S) (hm : Contained S m) :
    Contained S s.machine := by
  rcases move?_cases h with h | ⟨hidle, -⟩ | ⟨⟨script, hfocus⟩, commands, rfl⟩
  · exact hm.step h hback
  · obtain ⟨above, hstack, -, -⟩ := hm
    simp only [isIdle, Bool.and_eq_true, List.isEmpty_iff] at hidle
    obtain ⟨-, rfl⟩ := List.append_eq_nil_iff.mp (hstack.symm.trans hidle.1)
    exact absurd hidle hback
  · obtain ⟨above, hstack, huser, hall⟩ := hm
    exact ⟨above, hstack, fun _ => huser (by rw [hfocus]; rfl), hall⟩

/-- **An operation that has come to its end has a reply**: the end of a callback that it has called,
however deep, does not escape from it. -/
theorem call_replies {k n : Machine} {path : List Beat} (hk : k.focus.isUserCode = false)
    (hcall : Call k.stack k path n) (hback : n.BackAt k.stack) : ∃ r, n.focus = .reply r := by
  have hstart : Contained k.stack k := by
    refine ⟨[], rfl, ?_, trivial⟩
    intro hu
    rw [hk] at hu
    cases hu
  have hcontained : Contained k.stack n :=
    hcall.keeps (P := fun _ => Contained k.stack) hstart fun hb => Contained.move hb
  obtain ⟨above, hstack, huser, -⟩ := hcontained
  obtain ⟨hn, hfinal⟩ := hback
  obtain rfl : above = [] := List.append_left_eq_self.mp (hstack.symm.trans hn)
  cases hfocus : n.focus with
  | reply r => exact ⟨r, rfl⟩
  | ended outcome => exact absurd (huser (by rw [hfocus]; rfl)) (by decide)
  | _ => rw [hfocus] at hfinal; cases hfinal

end Machine

/-! ## 2. Scripts and their callers -/

/-- Whether a callback is to carry out its next command. -/
def Focus.isScript : Focus → Bool
  | script _ => true
  | _ => false

/-- Whether the top frame, if there is one, is of an operation that takes note of ends. -/
def isCaller : List Frame → Bool
  | [] => false
  | frame :: _ => frame.catches

/-- Every script that waits in these frames is right on top of the operation that has called it. -/
def AllCalled : List Frame → Prop
  | [] => True
  | .script .. :: rest => isCaller rest = true ∧ AllCalled rest
  | _ :: rest => AllCalled rest

theorem AllCalled.tail {frame : Frame} {rest : List Frame} (h : AllCalled (frame :: rest)) :
    AllCalled rest := by
  cases frame with
  | script => exact h.2
  | _ => exact h

namespace Machine

/-- Every script, the one that goes on and those that wait, is right on top of the operation that
has called it. -/
structure Called (m : Machine) : Prop where
  /-- The one that goes on. -/
  script : m.focus.isScript = true → isCaller m.stack = true
  /-- Those that wait. -/
  waiting : AllCalled m.stack

theorem Called.other {m : Machine} (hfocus : m.focus.isScript = false) (h : AllCalled m.stack) :
    Called m := by
  refine ⟨?_, h⟩
  intro hscript
  rw [hfocus] at hscript
  cases hscript

theorem called_perform (w : World) {stack : List Frame} (h : AllCalled stack) (c : Command) :
    Called (perform w stack c).machine := by
  cases c with
  | proxyTick | proxyLifecycle | config | step | run | samples | «repeat» =>
    simp only [perform]
    split <;> exact .other rfl h
  | _ => exact .other rfl h

theorem called_resume (w : World) {stack : List Frame} (r : Reply) {frame : Frame}
    (h : AllCalled (frame :: stack)) : Called (resume w stack r frame).machine := by
  have htail := h.tail
  cases frame with
  | script current rest =>
    simp only [resume]
    split
    · exact .other rfl htail
    · exact ⟨fun _ => h.1, htail⟩
  | loop left body rest replies =>
    simp only [resume]
    split <;> exact .other rfl htail
  | settling event =>
    simp only [resume]
    split
    · split <;> exact .other rfl htail
    · exact .other rfl htail
  | stepping phases => cases phases <;> exact .other rfl htail
  | running stage =>
    cases stage with
    | stepping =>
      simp only [resume, nextStage]
      split <;> exact .other rfl htail
    | _ => exact .other rfl htail
  | _ => exact .other rfl htail

theorem Called.step {m : Machine} {s : Stepped} (h : m.step? = some s) (hm : Called m) :
    Called s.machine := by
  obtain ⟨hscript, hwaiting⟩ := hm
  cases rule_of_step h with
  | command w S c => exact called_perform w hwaiting c
  | resumes w S r frame => exact called_resume w r hwaiting
  | finishes w S outcome frame => cases frame <;> exact .other rfl hwaiting.tail
  | scriptGoesOn => exact .other rfl ⟨hscript rfl, hwaiting⟩
  | fires => exact ⟨fun _ => rfl, hwaiting⟩
  | callsHandler w S event handler rest count =>
    cases handler with
    | script => exact ⟨fun _ => rfl, hwaiting⟩
    | _ => exact .other rfl hwaiting
  | callsListener w S hook index listener rest =>
    simp only [notify]
    split
    · exact ⟨fun _ => rfl, hwaiting⟩
    · exact .other rfl hwaiting
  | _ => exact .other rfl hwaiting

theorem Called.move {m : Machine} {mv : Move} {s : Stepped} (h : m.move? mv = some s)
    (hm : Called m) : Called s.machine := by
  rcases move?_cases h with h | ⟨-, c, -, rfl⟩ | ⟨⟨script, hfocus⟩, commands, rfl⟩
  · exact hm.step h
  · exact .other rfl trivial
  · exact ⟨fun _ => hm.script (by rw [hfocus]; rfl), hm.waiting⟩

end Machine

/-- **A callback is right on top of the operation that has called it**, at every moment of a run at
which it is to carry out its next command. -/
theorem Run.caller {w : World} {path : List Beat} {m : Machine}
    (hrun : Run (Machine.idle w) path m) {commands : Script} (hfocus : m.focus = .script commands) :
    ∃ frame stack, m.stack = frame :: stack ∧ frame.catches = true := by
  have hcalled : m.Called := by
    clear hfocus
    induction hrun with
    | nil => exact .other rfl trivial
    | snoc _ hb ih =>
      obtain ⟨rfl, hvalid, rfl⟩ := hb
      exact ih.move hvalid
  have htop := hcalled.script (by rw [hfocus]; rfl)
  cases hstack : m.stack with
  | nil => rw [hstack] at htop; cases htop
  | cons frame stack => rw [hstack] at htop; exact ⟨frame, stack, rfl, htop⟩

/-! ## 3. What user code stands on -/

/-- Whether user code may stand on a frame: on user code, or on an operation that takes note of its
end. -/
def Frame.bears (frame : Frame) : Bool := frame.catches || frame.isUserCode

/-- Wherever user code waits in these frames, it stands on a frame that bears it, or on nothing. -/
def AllBorne : List Frame → Prop
  | [] => True
  | frame :: rest =>
    (frame.isUserCode = true → ∀ below ∈ rest.head?, below.bears = true) ∧ AllBorne rest

namespace Machine

/-- **User code stands on frames that bear it**, or on nothing, for commands are given from outside,
too. -/
structure Borne (m : Machine) : Prop where
  /-- The user code that goes on. -/
  focus : m.focus.isUserCode = true → ∀ frame ∈ m.stack.head?, frame.bears = true
  /-- The user code that waits. -/
  frames : AllBorne m.stack

theorem Borne.step {m : Machine} {s : Stepped} (h : m.step? = some s) (hm : m.Borne) :
    s.machine.Borne := by
  obtain ⟨hfocus, hframes⟩ := hm
  cases step_stack h with
  | kept hs huser =>
    exact ⟨hs ▸ fun hu => hfocus (huser hu), hs ▸ hframes⟩
  | pushed frame hs hframe huser =>
    constructor
    · intro hu top htop
      rw [hs] at htop
      obtain rfl := Option.some.inj htop
      rcases huser hu with hf | hf <;> simp [Frame.bears, hf]
    · rw [hs]
      exact ⟨fun hf => hfocus (hframe hf), hframes⟩
  | popped frame hfinal hs huser =>
    rw [hs] at hfocus hframes
    refine ⟨fun hu => ?_, hframes.2⟩
    rcases huser hu with hf | ⟨hm, hf⟩
    · exact hframes.1 hf
    · have hbears := hfocus hm frame rfl
      simp only [Frame.bears, hf, Bool.false_or] at hbears
      exact hframes.1 hbears
  | replaced frame frame' rest hfinal hs hs' hframe huser =>
    rw [hs] at hframes
    constructor
    · intro hu top htop
      rw [hs'] at htop
      obtain rfl := Option.some.inj htop
      simp [Frame.bears, huser hu]
    · rw [hs']
      refine ⟨fun hf => ?_, hframes.2⟩
      rw [hframe] at hf
      cases hf

theorem Borne.move {m : Machine} {mv : Move} {s : Stepped} (h : m.move? mv = some s)
    (hm : m.Borne) : s.machine.Borne := by
  rcases move?_cases h with h | ⟨-, c, -, rfl⟩ | ⟨⟨script, hfocus⟩, commands, rfl⟩
  · exact hm.step h
  · exact ⟨fun _ => nofun, trivial⟩
  · exact ⟨fun _ => hm.focus (by rw [hfocus]; rfl), hm.frames⟩

end Machine

theorem Run.borne {w : World} {path : List Beat} {m : Machine}
    (hrun : Run (Machine.idle w) path m) : m.Borne := by
  induction hrun with
  | nil => exact ⟨fun _ => nofun, trivial⟩
  | snoc _ hb ih =>
    obtain ⟨rfl, hvalid, rfl⟩ := hb
    exact ih.move hvalid

end TickHost
