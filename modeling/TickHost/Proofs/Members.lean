import Mathlib.Data.List.Perm.Subperm
import TickHost.Proofs.Loading

/-!
# Members in any order

The members of an object are read one after the other, and a draft of the configuration goes from
one to the next.  Nothing hangs on that order:

* `Node.bare`: where a value stands in its text has no bearing on what it is read as, only on what
  is told about it when it cannot be read.
* `Sound`, `Says`: whether the members can be read, and what they say about each setting, is said
  without a draft and without an order.  Each member is judged by itself, but for the rule that no
  setting is given twice.
* `ofNode_object`: reading them one after the other comes to the same.
* `parse_of_members`: so what a text stands for does not change when its members change places, when
  members that are no settings are left out, or when other settings are given with them.
-/

namespace TickHost

/-! ## 1. Values without places -/

namespace Json5

/-- The beginning of whatever stands nowhere in particular. -/
def Start.anywhere : Start := ⟨⟨1, 1⟩, false⟩

/-- A key without its place. -/
def Key.bare (key : Key) : Key := ⟨.anywhere, key.contents⟩

namespace Node

mutual

/-- A value without the places of it and of its parts. -/
def bare : Node → Node
  | null _ => null .anywhere
  | boolean _ b => boolean .anywhere b
  | number _ literal => number .anywhere literal
  | text _ contents => text .anywhere contents
  | array _ items => array .anywhere (bareItems items)
  | object _ members => object .anywhere (bareMembers members)

/-- Items without their places. -/
def bareItems : List Node → List Node
  | [] => []
  | item :: items => bare item :: bareItems items

/-- Members without their places. -/
def bareMembers : List (Key × Node) → List (Key × Node)
  | [] => []
  | (key, value) :: members => (key.bare, bare value) :: bareMembers members

end

/-- A fault is told at another place, but it stays a fault. -/
theorem toOption_mapError {ε ε' α : Type} (f : ε → ε') (e : Except ε α) :
    (e.mapError f).toOption = e.toOption := by
  cases e <;> rfl

theorem toOption_read (s s' : Start) (contents : Contents) :
    (contents.read s).toOption = (contents.read s').toOption := by
  cases contents <;> rfl

theorem real_bare (node : Node) : node.bare.real.toOption = node.real.toOption := by
  cases node with
  | number s literal => rw [bare, real, real, toOption_mapError, toOption_mapError]
  | _ => rw [bare]; rfl

theorem truth_bare (node : Node) : node.bare.truth.toOption = node.truth.toOption := by
  cases node <;> rw [bare] <;> rfl

theorem string_bare (node : Node) : node.bare.string.toOption = node.string.toOption := by
  cases node with
  | text s contents => rw [bare, string, string, toOption_read]
  | _ => rw [bare]; rfl

theorem describe_bare (node : Node) : node.bare.describe.toOption = node.describe.toOption := by
  cases node with
  | number s literal => rw [bare, describe, describe, toOption_mapError, toOption_mapError]
  | text s contents =>
    rw [bare, describe, describe]
    cases contents <;> rfl
  | _ => rw [bare]; rfl

/-- What holds no other values is passed over by what it is called in a message. -/
theorem misfit?_of_describe {node : Node}
    (h : node.misfit? = match node.describe with
      | .error misfit => some misfit
      | .ok _ => none) :
    node.misfit?.isSome = node.describe.toOption.isNone := by
  rw [h]
  cases node.describe <;> rfl

mutual

/-- A value can be passed over wherever it stands. -/
theorem misfit?_bare : ∀ node : Node, node.bare.misfit?.isSome = node.misfit?.isSome
  | null s => by rw [bare]; rfl
  | boolean s b => by rw [bare]; rfl
  | number s literal => by
    rw [misfit?_of_describe rfl, misfit?_of_describe rfl, describe_bare]
  | text s contents => by
    rw [misfit?_of_describe rfl, misfit?_of_describe rfl, describe_bare]
  | array s items => by
    rw [bare, misfit?, misfit?]
    exact itemsMisfit?_bare items
  | object s members => by
    rw [bare, misfit?, misfit?]
    exact membersMisfit?_bare members

theorem itemsMisfit?_bare : ∀ items : List Node,
    (itemsMisfit? (bareItems items)).isSome = (itemsMisfit? items).isSome
  | [] => rfl
  | item :: items => by
    rw [bareItems, itemsMisfit?, itemsMisfit?, Option.isSome_or, Option.isSome_or,
      misfit?_bare item, itemsMisfit?_bare items]

theorem membersMisfit?_bare : ∀ members : List (Key × Node),
    (membersMisfit? (bareMembers members)).isSome = (membersMisfit? members).isSome
  | [] => rfl
  | (⟨s, none⟩, value) :: members => by
    rw [bareMembers, membersMisfit?, membersMisfit?]
    rfl
  | (⟨s, some key⟩, value) :: members => by
    rw [bareMembers, membersMisfit?, membersMisfit?]
    simp only [Key.bare, Option.isSome_or, misfit?_bare value, membersMisfit?_bare members]

end

theorem misfit?_bare_eq_none {node : Node} : node.bare.misfit? = none ↔ node.misfit? = none := by
  rw [← Option.not_isSome_iff_eq_none, misfit?_bare, Option.not_isSome_iff_eq_none]

end Node

end Json5

namespace Config

open Json5 (Key Node Misfit Start)

/-! ## 2. Settings -/

namespace Field

/-- What a setting is. -/
abbrev Value : Field → Type
  | tickRate => Binary32
  | maxDelay | maxPending => Nat
  | discardOnStop => Bool
  | logLevel => String

/-- A setting, read from a value. -/
def read : (field : Field) → Node → Except Misfit field.Value
  | tickRate, value => value.real.map (·.convert .single)
  | maxDelay, value => value.real.map (·.truncate (UInt32.size - 1))
  | maxPending, value => value.real.map (·.truncate (UInt64.size - 1))
  | discardOnStop, value => value.truth
  | logLevel, value => value.string

/-- Whether a setting may be so. -/
def Allows : (field : Field) → field.Value → Prop
  | tickRate, rate => rate.between 1 1000 = true
  | maxDelay, n | maxPending, n => n ≠ 0
  | discardOnStop, _ => True
  | logLevel, text => Text.isBlankText text = false

/-- A member gives a setting if its key is the name of it. -/
def Names (field : Field) (member : Key × Node) : Prop := member.1.contents = some field.word

instance (field : Field) (member : Key × Node) : Decidable (field.Names member) :=
  inferInstanceAs (Decidable (_ = _))

theorem ofWord?_eq_some {word : String} {field : Field} :
    ofWord? word = some field ↔ word = field.word := by
  constructor
  · intro h
    rw [ofWord?] at h
    have hword := List.find?_some h
    exact (eq_of_beq hword).symm
  · rintro rfl
    cases field <;> decide

/-- A member gives one setting. -/
theorem Names.unique {field field' : Field} {member : Key × Node} (h : field.Names member)
    (h' : field'.Names member) : field = field' := by
  have hword : field.word = field'.word := Option.some.inj (h.symm.trans h')
  exact Option.some.inj ((ofWord?_eq_some.mpr rfl).symm.trans (ofWord?_eq_some.mpr hword))

/-- A setting is read from what a value is, not from where it stands. -/
theorem toOption_read_bare (field : Field) (value : Node) :
    (field.read value.bare).toOption = (field.read value).toOption := by
  have hmap {α β : Type} (f : α → β) (e : Except Misfit α) :
      (e.map f).toOption = e.toOption.map f := by cases e <;> rfl
  cases field with
  | tickRate | maxDelay | maxPending => simp only [read, hmap, Node.real_bare]
  | discardOnStop => exact Node.truth_bare value
  | logLevel => exact Node.string_bare value

end Field

/-- A setting of a configuration. -/
def get (c : Config) : (field : Field) → field.Value
  | .tickRate => c.tickRate
  | .maxDelay => c.maxDelay
  | .maxPending => c.maxPending
  | .discardOnStop => c.discardOnStop
  | .logLevel => c.logLevel

/-- A configuration is its settings. -/
theorem ext_get {c c' : Config} (h : ∀ field, c.get field = c'.get field) : c = c' := by
  obtain ⟨rate, maxDelay, maxPending, discardOnStop, logLevel⟩ := c
  obtain rfl := h .tickRate
  obtain rfl := h .maxDelay
  obtain rfl := h .maxPending
  obtain rfl := h .discardOnStop
  obtain rfl := h .logLevel
  rfl

/-- **Each setting is checked by itself.** -/
theorem invalid?_eq_none_iff (c : Config) :
    c.invalid? = none ↔ ∀ field : Field, field.Allows (c.get field) := by
  have hguard {p : Prop} [Decidable p] (reason : Invalid) (rest : Option Invalid) :
      (if p then some reason else rest) = none ↔ ¬p ∧ rest = none := by
    split <;> simp [*]
  have hfields : (∀ field : Field, field.Allows (c.get field)) ↔
      c.tickRate.between 1 1000 = true ∧ c.maxDelay ≠ 0 ∧ c.maxPending ≠ 0 ∧
        Text.isBlankText c.logLevel = false := by
    constructor
    · exact fun h => ⟨h .tickRate, h .maxDelay, h .maxPending, h .logLevel⟩
    · rintro ⟨hrate, hdelay, hpending, hlevel⟩ (_ | _ | _ | _ | _)
      exacts [hrate, hdelay, hpending, trivial, hlevel]
  rw [hfields, invalid?, hguard, hguard, hguard, hguard]
  simp

theorem allows_default (field : Field) : field.Allows (default.get field) :=
  (invalid?_eq_none_iff default).mp (validate_eq_ok validate_default).1 field

namespace Draft

variable {s : Start} {d d' : Draft} {field : Field} {m : Key × Node}

/-- The value of a setting, if it was given. -/
def get? (d : Draft) : (field : Field) → Option field.Value
  | .tickRate => d.tickRate
  | .maxDelay => d.maxDelay
  | .maxPending => d.maxPending
  | .discardOnStop => d.discardOnStop
  | .logLevel => d.logLevel

/-- The draft with one more setting. -/
def put (d : Draft) : (field : Field) → field.Value → Draft
  | .tickRate, value => { d with tickRate := some value }
  | .maxDelay, value => { d with maxDelay := some value }
  | .maxPending, value => { d with maxPending := some value }
  | .discardOnStop, value => { d with discardOnStop := some value }
  | .logLevel, value => { d with logLevel := some value }

@[simp] theorem get?_put_self (d : Draft) (field : Field) (value : field.Value) :
    (d.put field value).get? field = some value := by
  cases field <;> rfl

theorem get?_put_of_ne (d : Draft) {other : Field} (h : other ≠ field) (value : field.Value) :
    (d.put field value).get? other = d.get? other := by
  cases field <;> cases other <;> first | rfl | exact absurd rfl h

theorem get?_complete (d : Draft) (field : Field) :
    d.complete.get field = (d.get? field).getD (default.get field) := by
  cases field <;> rfl

theorem has_eq (d : Draft) (field : Field) : d.has field = (d.get? field).isSome := by
  cases field <;> rfl

theorem set_eq (d : Draft) (field : Field) (value : Node) :
    d.set field value = (field.read value).map (d.put field) := by
  cases field with
  | tickRate | maxDelay | maxPending =>
    simp only [set, Field.read]
    cases value.real <;> rfl
  | discardOnStop | logLevel => rfl

theorem readMember_of_names (s : Start) (d : Draft) (h : field.Names m) :
    readMember s d m = if (d.get? field).isSome then .error (s.fault (.duplicate field.word))
      else (field.read m.2).map (d.put field) := by
  have hword : m.1.contents = some field.word := h
  simp only [readMember, hword, Json5.Contents.read, bind, Except.bind,
    Field.ofWord?_eq_some.mpr rfl, has_eq, set_eq]

theorem readMember_of_unnamed (s : Start) (d : Draft) (h : ∀ field : Field, ¬ field.Names m) :
    readMember s d m = .ok d' ↔ m.1.contents.isSome ∧ m.2.misfit? = none ∧ d' = d := by
  cases hcontents : m.1.contents with
  | none => simp [readMember, hcontents, Json5.Contents.read, bind, Except.bind]
  | some word =>
    have hword : Field.ofWord? word = none := by
      cases hfield : Field.ofWord? word with
      | none => rfl
      | some field =>
        obtain rfl := Field.ofWord?_eq_some.mp hfield
        exact (h field hcontents).elim
    cases hpass : m.2.misfit? <;>
      simp [readMember, hcontents, Json5.Contents.read, bind, Except.bind, hword, Node.skip, hpass,
        pure, Except.pure, eq_comm]

/-- **What one member does**: it gives a setting that was not given before, or it is passed over. -/
theorem readMember_eq_ok : readMember s d m = .ok d' ↔
    (∃ field : Field, field.Names m ∧ d.get? field = none ∧
      ∃ value, field.read m.2 = .ok value ∧ d' = d.put field value) ∨
    (∀ field : Field, ¬ field.Names m) ∧ m.1.contents.isSome ∧ m.2.misfit? = none ∧ d' = d := by
  by_cases hnames : ∃ field : Field, field.Names m
  · obtain ⟨field, hnames⟩ := hnames
    rw [readMember_of_names s d hnames]
    constructor
    · intro h
      refine Or.inl ⟨field, hnames, ?_⟩
      split at h
      · cases h
      · rename_i hfree
        refine ⟨Option.not_isSome_iff_eq_none.mp hfree, ?_⟩
        cases hvalue : field.read m.2 with
        | error misfit => rw [hvalue] at h; cases h
        | ok value =>
          rw [hvalue] at h
          exact ⟨value, rfl, (Except.ok.inj h).symm⟩
    · rintro (⟨other, hother, hfree, value, hvalue, rfl⟩ | ⟨hother, -⟩)
      · obtain rfl := hother.unique hnames
        rw [hfree, hvalue]
        rfl
      · exact (hother field hnames).elim
  · have hunnamed (field : Field) : ¬ field.Names m := fun h => hnames ⟨field, h⟩
    rw [readMember_of_unnamed s d hunnamed]
    constructor
    · exact fun h => Or.inr ⟨hunnamed, h⟩
    · rintro (⟨field, hfield, -⟩ | ⟨-, h⟩)
      · exact (hunnamed field hfield).elim
      · exact h

end Draft

/-! ## 3. What members say -/

/-- The values that members give for a setting. -/
def Field.own (field : Field) (members : List (Key × Node)) : List Node :=
  (members.filter (field.Names ·)).map (·.2)

/-- What members say about a setting, if they name it: what the first of its values is read as. -/
def Field.given? (field : Field) (members : List (Key × Node)) : Option (Option field.Value) :=
  (field.own members).head?.map fun value => (field.read value).toOption

/-- What a setting is by its own member alone, or by default where it has none. -/
def Field.setting? (field : Field) (members : List (Key × Node)) : Option field.Value :=
  (field.given? members).getD (some (default.get field))

/-- A member can be read: it gives a setting that can be read, or it can be passed over. -/
inductive Readable (m : Key × Node) : Prop
  | setting (field : Field) (hnames : field.Names m) (hvalue : (field.read m.2).toOption.isSome)
  | surplus (hunnamed : ∀ field : Field, ¬ field.Names m) (hkey : m.1.contents.isSome)
      (hpass : m.2.misfit? = none)

/-- Members can be read: each by itself, and no setting is given twice. -/
structure Sound (members : List (Key × Node)) : Prop where
  readable : ∀ m ∈ members, Readable m
  once : ∀ field : Field, members.countP (field.Names ·) ≤ 1

section

variable {s : Start} {d d' : Draft} {field : Field} {m : Key × Node}
  {members members' : List (Key × Node)}

theorem Field.own_append (field : Field) (members members' : List (Key × Node)) :
    field.own (members ++ members') = field.own members ++ field.own members' := by
  rw [own, List.filter_append, List.map_append, own, own]

theorem Field.own_of_names (h : field.Names m) : field.own [m] = [m.2] := by
  rw [own, List.filter_cons_of_pos (by simpa using h)]
  rfl

theorem Field.own_eq_nil_iff : field.own members = [] ↔ ∀ m ∈ members, ¬ field.Names m := by
  rw [own, List.map_eq_nil_iff, List.filter_eq_nil_iff]
  simp

theorem Field.own_of_not_names (h : ¬ field.Names m) : field.own [m] = [] :=
  own_eq_nil_iff.mpr (by simpa using h)

theorem Field.length_own (field : Field) (members : List (Key × Node)) :
    (field.own members).length = members.countP (field.Names ·) := by
  rw [own, List.length_map, ← List.countP_eq_length_filter]

/-- Members that are there in part can still be read. -/
theorem Sound.of_subperm (h : Sound members) (hsub : members'.Subperm members) :
    Sound members' where
  readable m hm := h.readable m (hsub.subset hm)
  once field := Nat.le_trans (hsub.countP_le _) (h.once field)

namespace Draft

/-- A draft has what the members say that were read so far. -/
structure Tells (d : Draft) (members : List (Key × Node)) : Prop where
  sound : Sound members
  given : ∀ field : Field, field.given? members = (d.get? field).map some

theorem Tells.get?_eq_none_iff (h : d.Tells members) :
    d.get? field = none ↔ field.own members = [] := by
  rw [← Option.map_eq_none_iff, ← h.given field, Field.given?, Option.map_eq_none_iff,
    List.head?_eq_none_iff]

/-- **Reading a member adds what it says.** -/
theorem Tells.read (h : d.Tells members) (hread : readMember s d m = .ok d') :
    d'.Tells (members ++ [m]) := by
  have hreadable (hm : Readable m) : ∀ m' ∈ members ++ [m], Readable m' :=
    List.forall_mem_append.mpr ⟨h.sound.readable, List.forall_mem_singleton.mpr hm⟩
  have hothers {other : Field} (hother : ¬ other.Names m) :
      other.own (members ++ [m]) = other.own members := by
    rw [Field.own_append, Field.own_of_not_names hother, List.append_nil]
  rcases readMember_eq_ok.mp hread with
    ⟨field, hnames, hfree, value, hvalue, rfl⟩ | ⟨hunnamed, hkey, hpass, rfl⟩
  · have hown : field.own (members ++ [m]) = [m.2] := by
      rw [Field.own_append, h.get?_eq_none_iff.mp hfree, Field.own_of_names hnames, List.nil_append]
    refine ⟨⟨hreadable (.setting field hnames (by rw [hvalue]; rfl)), fun other => ?_⟩,
      fun other => ?_⟩
    · rw [← Field.length_own]
      by_cases hother : other.Names m
      · obtain rfl := hother.unique hnames
        rw [hown]
        exact Nat.le_refl 1
      · rw [hothers hother, Field.length_own]
        exact h.sound.once other
    · rw [Field.given?]
      by_cases hother : other.Names m
      · obtain rfl := hother.unique hnames
        rw [hown, get?_put_self, List.head?_cons, Option.map_some, Option.map_some, hvalue]
        rfl
      · have hne : other ≠ field := fun heq => hother (heq ▸ hnames)
        rw [hothers hother, get?_put_of_ne d hne, ← h.given other, Field.given?]
  · refine ⟨⟨hreadable (.surplus hunnamed hkey hpass), fun other => ?_⟩, fun other => ?_⟩
    · rw [← Field.length_own, hothers (hunnamed other), Field.length_own]
      exact h.sound.once other
    · rw [Field.given?, hothers (hunnamed other), ← h.given other, Field.given?]

/-- A member that can be read is read, whatever was read before it. -/
theorem Tells.exists_read (h : d.Tells members) (hsound : Sound (members ++ [m])) :
    ∃ d', readMember s d m = .ok d' := by
  have hm : Readable m :=
    hsound.readable m (List.mem_append_right _ (List.mem_singleton_self m))
  cases hm with
  | setting field hnames hvalue =>
    have hfree : d.get? field = none := by
      have honce := hsound.once field
      rw [← Field.length_own, Field.own_append, Field.own_of_names hnames, List.length_append]
        at honce
      refine h.get?_eq_none_iff.mpr (List.length_eq_zero_iff.mp ?_)
      exact Nat.le_zero.mp (Nat.le_of_succ_le_succ honce)
    cases hread : field.read m.2 with
    | error misfit => rw [hread] at hvalue; cases hvalue
    | ok value => exact ⟨_, readMember_eq_ok.mpr (.inl ⟨field, hnames, hfree, value, hread, rfl⟩)⟩
  | surplus hunnamed hkey hpass =>
    exact ⟨d, readMember_eq_ok.mpr (.inr ⟨hunnamed, hkey, hpass, rfl⟩)⟩

theorem tells_nil : Draft.Tells {} [] where
  sound := ⟨by simp, fun _ => Nat.zero_le 1⟩
  given field := by cases field <;> rfl

theorem foldlM_snoc (s : Start) (members : List (Key × Node)) (m : Key × Node) :
    (members ++ [m]).foldlM (readMember s) {} =
      (members.foldlM (readMember s) {}).bind fun d => readMember s d m := by
  rw [List.foldlM_append]
  refine bind_congr fun d => ?_
  rw [List.foldlM_cons]
  exact bind_pure _

/-- **Reading members one after the other** collects what they say. -/
theorem tells_of_foldlM (h : members.foldlM (readMember s) {} = .ok d) : d.Tells members := by
  induction members using List.reverseRecOn generalizing d with
  | nil =>
    obtain rfl := Except.ok.inj h
    exact tells_nil
  | append_singleton members m ih =>
    rw [foldlM_snoc] at h
    cases hbefore : members.foldlM (readMember s) {} with
    | error misfit => rw [hbefore] at h; cases h
    | ok before =>
      rw [hbefore] at h
      exact (ih hbefore).read h

/-- Members that can be read one by one can be read one after the other. -/
theorem exists_foldlM (s : Start) (h : Sound members) :
    ∃ d, members.foldlM (readMember s) {} = .ok d := by
  induction members using List.reverseRecOn with
  | nil => exact ⟨{}, rfl⟩
  | append_singleton members m ih =>
    obtain ⟨before, hbefore⟩ := ih (h.of_subperm (List.sublist_append_left ..).subperm)
    obtain ⟨d, hread⟩ := (tells_of_foldlM hbefore).exists_read h
    refine ⟨d, ?_⟩
    rw [foldlM_snoc, hbefore]
    exact hread

/-- A setting of the configuration that a draft amounts to. -/
theorem Tells.setting? (h : d.Tells members) (field : Field) :
    field.setting? members = some (d.complete.get field) := by
  rw [Field.setting?, h.given field, get?_complete]
  cases d.get? field <;> rfl

end Draft

/-- **An object stands for what its members say**, if they can be read. -/
theorem ofNode_object {c : Config} : ofNode (.object s members) = .ok c ↔
    Sound members ∧ ∀ field : Field, field.setting? members = some (c.get field) := by
  rw [ofNode]
  constructor
  · intro h
    cases hread : members.foldlM (Draft.readMember s) {} with
    | error misfit => rw [hread] at h; cases h
    | ok d =>
      rw [hread] at h
      obtain rfl := Except.ok.inj h
      have htells := Draft.tells_of_foldlM hread
      exact ⟨htells.sound, htells.setting?⟩
  · rintro ⟨hsound, hsetting⟩
    obtain ⟨d, hread⟩ := Draft.exists_foldlM s hsound
    have htells := Draft.tells_of_foldlM hread
    rw [hread]
    refine congrArg Except.ok (ext_get fun field => Option.some.inj ?_)
    rw [← htells.setting? field, hsetting field]

/-- **A text stands for what the members of its object say**, if that is valid. -/
theorem parse_eq_ok {text : String} {c : Config}
    (hnode : Node.parse? text = some (.object s members)) : parse text = .ok c ↔
    (Sound members ∧ ∀ field : Field, field.setting? members = some (c.get field)) ∧
      c.invalid? = none := by
  rw [parse, hnode, ← ofNode_object]
  cases hread : ofNode (.object s members) with
  | error misfit =>
    constructor
    · intro h
      simp only [Except.mapError, bind, Except.bind, hread] at h
      cases h
    · rintro ⟨⟨⟩, -⟩
  | ok read =>
    simp only [Except.mapError, bind, Except.bind, hread, validate]
    cases hvalid : read.invalid? with
    | none =>
      constructor
      · intro h
        obtain rfl := Except.ok.inj h
        exact ⟨rfl, hvalid⟩
      · exact fun h => congrArg Except.ok (Except.ok.inj h.1)
    | some reason =>
      constructor
      · rintro ⟨⟩
      · rintro ⟨h, hnone⟩
        obtain rfl := Except.ok.inj h
        rw [hvalid] at hnone
        cases hnone

/-! ## 4. Members that change places -/

/-- Members are some of others, in any order and wherever they stand. -/
def Selects (members' members : List (Key × Node)) : Prop :=
  (Node.bareMembers members').Subperm (Node.bareMembers members)

/-- Members are others in any order and wherever they stand, but for some that are no settings. -/
def Rearranges (members' members : List (Key × Node)) : Prop :=
  ∃ surplus, (Node.bareMembers members).Perm (Node.bareMembers members' ++ surplus) ∧
    ∀ m ∈ surplus, ∀ field : Field, ¬ field.Names m

theorem Rearranges.selects (h : Rearranges members' members) : Selects members' members := by
  obtain ⟨surplus, hperm, -⟩ := h
  exact (List.sublist_append_left _ surplus).subperm.trans hperm.symm.subperm

theorem bareMembers_eq_map : ∀ members : List (Key × Node),
    Node.bareMembers members = members.map fun m => (m.1.bare, m.2.bare)
  | [] => rfl
  | (key, value) :: members => by
    rw [Node.bareMembers, List.map_cons, bareMembers_eq_map members]

theorem Field.own_bareMembers (field : Field) (members : List (Key × Node)) :
    field.own (Node.bareMembers members) = (field.own members).map Node.bare := by
  rw [bareMembers_eq_map, own, own, List.filter_map, List.map_map, List.map_map]
  rfl

theorem Field.setting?_bareMembers (field : Field) (members : List (Key × Node)) :
    field.setting? (Node.bareMembers members) = field.setting? members := by
  rw [setting?, setting?, given?, given?, own_bareMembers]
  cases field.own members with
  | nil => rfl
  | cons value values =>
    exact congrArg (Option.getD · _) (congrArg some (toOption_read_bare field value))

theorem Field.countP_bareMembers (field : Field) (members : List (Key × Node)) :
    (Node.bareMembers members).countP (field.Names ·) = members.countP (field.Names ·) := by
  rw [← length_own, own_bareMembers, List.length_map, length_own]

theorem readable_bare : Readable (m.1.bare, m.2.bare) ↔ Readable m := by
  constructor
  · rintro (⟨field, hnames, hvalue⟩ | ⟨hunnamed, hkey, hpass⟩)
    · rw [Field.toOption_read_bare] at hvalue
      exact .setting field hnames hvalue
    · exact .surplus hunnamed hkey (Node.misfit?_bare_eq_none.mp hpass)
  · rintro (⟨field, hnames, hvalue⟩ | ⟨hunnamed, hkey, hpass⟩)
    · rw [← Field.toOption_read_bare] at hvalue
      exact .setting field hnames hvalue
    · exact .surplus hunnamed hkey (Node.misfit?_bare_eq_none.mpr hpass)

/-- Whether members can be read does not depend on where they stand. -/
theorem sound_bareMembers : Sound (Node.bareMembers members) ↔ Sound members := by
  have hreadable : (∀ m ∈ Node.bareMembers members, Readable m) ↔ ∀ m ∈ members, Readable m := by
    rw [bareMembers_eq_map, List.forall_mem_map]
    simp only [readable_bare]
  constructor
  · intro h
    refine ⟨hreadable.mp h.readable, fun field => ?_⟩
    rw [← Field.countP_bareMembers]
    exact h.once field
  · intro h
    refine ⟨hreadable.mpr h.readable, fun field => ?_⟩
    rw [Field.countP_bareMembers]
    exact h.once field

/-- What is there but once is kept or left out. -/
theorem Selects.own (h : Selects members' members) (hsound : Sound members) (field : Field)
    (hkept : ∃ m ∈ members', field.Names m) :
    (field.own members').map Node.bare = (field.own members).map Node.bare := by
  rw [← Field.own_bareMembers, ← Field.own_bareMembers]
  have hle : (field.own (Node.bareMembers members)).length ≤ 1 := by
    rw [Field.length_own, Field.countP_bareMembers]
    exact hsound.once field
  have hpos : 0 < (field.own (Node.bareMembers members')).length := by
    rw [Field.length_own, Field.countP_bareMembers, List.countP_pos_iff]
    simpa using hkept
  have hsub : (field.own (Node.bareMembers members')).Subset
      (field.own (Node.bareMembers members)) :=
    List.map_subset _ (h.filter _).subset
  have hlength : (field.own (Node.bareMembers members')).length ≤
      (field.own (Node.bareMembers members)).length := by
    rw [Field.length_own, Field.length_own]
    exact h.countP_le _
  obtain ⟨value', hvalue'⟩ := List.length_eq_one_iff.mp
    (Nat.le_antisymm (Nat.le_trans hlength hle) hpos)
  obtain ⟨value, hvalue⟩ := List.length_eq_one_iff.mp
    (Nat.le_antisymm hle (Nat.le_trans hpos hlength))
  rw [hvalue, hvalue'] at hsub ⊢
  rw [List.mem_singleton.mp (hsub (List.mem_singleton_self value'))]

/-- The values for one setting are all that it depends on. -/
theorem Field.setting?_congr
    (h : (field.own members').map Node.bare = (field.own members).map Node.bare) :
    field.setting? members' = field.setting? members := by
  rw [← setting?_bareMembers field members', ← setting?_bareMembers field members, setting?,
    setting?, given?, given?, own_bareMembers, own_bareMembers, h]

theorem Field.setting?_of_unnamed (h : ∀ m ∈ members, ¬ field.Names m) :
    field.setting? members = some (default.get field) := by
  rw [setting?, given?, own_eq_nil_iff.mpr h]
  rfl

/-- What was left out named no setting. -/
theorem Rearranges.names (h : Rearranges members' members) (hnames : ∃ m ∈ members, field.Names m) :
    ∃ m ∈ members', field.Names m := by
  obtain ⟨surplus, hperm, hsurplus⟩ := h
  have hnone : surplus.countP (field.Names ·) = 0 :=
    List.countP_eq_zero.mpr fun m hm => by simpa using hsurplus m hm field
  have hcount : members.countP (field.Names ·) = members'.countP (field.Names ·) := by
    rw [← field.countP_bareMembers, hperm.countP_eq, List.countP_append, hnone, Nat.add_zero,
      field.countP_bareMembers]
  have hpos : 0 < members.countP (field.Names ·) := List.countP_pos_iff.mpr (by simpa using hnames)
  rw [hcount] at hpos
  simpa using List.countP_pos_iff.mp hpos

end

section

variable {text text' : String} {s s' : Start} {members members' : List (Key × Node)} {c c' : Config}
  {field : Field}

/-- **What is left when members are left out**: their settings have their defaults, and all others
are what they were. -/
theorem Selects.exists_parse (h : Selects members' members)
    (hnode : Node.parse? text = some (.object s members)) (hread : parse text = .ok c)
    (hnode' : Node.parse? text' = some (.object s' members')) :
    ∃ c', parse text' = .ok c' ∧ ∀ field : Field,
      c'.get field = if ∃ m ∈ members', field.Names m then c.get field else default.get field := by
  obtain ⟨⟨hsound, hsetting⟩, hvalid⟩ := (parse_eq_ok hnode).mp hread
  have hsound' : Sound members' :=
    sound_bareMembers.mp ((sound_bareMembers.mpr hsound).of_subperm h)
  obtain ⟨d, hfold⟩ := Draft.exists_foldlM s' hsound'
  have htells := Draft.tells_of_foldlM hfold
  have hget (field : Field) : d.complete.get field =
      if ∃ m ∈ members', field.Names m then c.get field else default.get field := by
    refine Option.some.inj ?_
    rw [← htells.setting? field]
    split
    · rename_i hkept
      rw [Field.setting?_congr (h.own hsound field hkept), hsetting field]
    · rename_i hdropped
      exact Field.setting?_of_unnamed fun m hm hnames => hdropped ⟨m, hm, hnames⟩
  refine ⟨d.complete, (parse_eq_ok hnode').mpr ⟨⟨hsound', htells.setting?⟩, ?_⟩, hget⟩
  refine (invalid?_eq_none_iff _).mpr fun field => ?_
  rw [hget field]
  split
  · exact (invalid?_eq_none_iff c).mp hvalid field
  · exact allows_default field

/-- **Places do not matter**, and neither do members that are no settings. -/
theorem Rearranges.parse_eq (h : Rearranges members' members)
    (hnode : Node.parse? text = some (.object s members)) (hread : parse text = .ok c)
    (hnode' : Node.parse? text' = some (.object s' members')) : parse text' = .ok c := by
  obtain ⟨⟨-, hsetting⟩, -⟩ := (parse_eq_ok hnode).mp hread
  obtain ⟨c', hread', hget⟩ := h.selects.exists_parse hnode hread hnode'
  rw [hread']
  refine congrArg Except.ok (ext_get fun field => ?_)
  rw [hget field]
  split
  · rfl
  · rename_i hdropped
    refine Option.some.inj ?_
    rw [← hsetting field]
    exact (Field.setting?_of_unnamed fun m hm hnames => hdropped (h.names ⟨m, hm, hnames⟩)).symm

/-- **The members of a text are read in any order.**  For every text that holds an object and stands
for a configuration:

* the configuration is valid;
* no setting is named twice;
* every text that holds the same members, in any order and wherever they stand, but for some that
  are no settings, stands for the same configuration;
* a setting is what its own member is read as, or its default if it has none;
* every text that holds some of the members stands for a configuration, in which the settings that
  are still named are what they were and the others have their defaults;
* in every text that stands for a configuration, a setting that is given the same value is the same,
  whatever else the text gives. -/
theorem parse_of_members (hnode : Node.parse? text = some (.object s members))
    (hread : parse text = .ok c) :
    c.validate = .ok c ∧
    (∀ field : Field, members.countP (field.Names ·) ≤ 1) ∧
    (∀ text' s' members', Node.parse? text' = some (.object s' members') →
      Rearranges members' members → parse text' = .ok c) ∧
    (∀ field : Field, field.setting? members = some (c.get field)) ∧
    (∀ text' s' members', Node.parse? text' = some (.object s' members') →
      Selects members' members → ∃ c', parse text' = .ok c' ∧ ∀ field : Field,
        c'.get field =
          if ∃ m ∈ members', field.Names m then c.get field else default.get field) ∧
    (∀ text' s' members' c', Node.parse? text' = some (.object s' members') →
      parse text' = .ok c' → ∀ field : Field,
        (field.own members').map Node.bare = (field.own members).map Node.bare →
        c'.get field = c.get field) := by
  obtain ⟨⟨hsound, hsetting⟩, -⟩ := (parse_eq_ok hnode).mp hread
  refine ⟨validate_of_parse hread, hsound.once, ?_, hsetting, ?_, ?_⟩
  · intro text' s' members' hnode' h
    exact h.parse_eq hnode hread hnode'
  · intro text' s' members' hnode' h
    exact h.exists_parse hnode hread hnode'
  · intro text' s' members' c' hnode' hread' field hown
    obtain ⟨⟨-, hsetting'⟩, -⟩ := (parse_eq_ok hnode').mp hread'
    refine Option.some.inj ?_
    rw [← hsetting field, ← hsetting' field, Field.setting?_congr hown]

end

/-- A place in the first line of a text. -/
def column (n : Nat) : Start := ⟨⟨1, n⟩, false⟩

/-- A text that gives two settings and something else. -/
def longText : String := "\x7bdiscard_on_stop: true, extra: [1], tick_rate: 7\x7d"

/-- Its members. -/
def longMembers : List (Key × Node) :=
  [(⟨column 2, some "discard_on_stop"⟩, .boolean (column 19) true),
   (⟨column 25, some "extra"⟩,
    .array (column 32) [.number (column 33) (.decimal none [1] none none)]),
   (⟨column 37, some "tick_rate"⟩, .number (column 48) (.decimal none [7] none none))]

/-- A text that gives the same settings in another order and in another spelling. -/
def shortText : String := "\x7b'tick_rate': 7, discard_on_stop: true\x7d"

/-- Its members. -/
def shortMembers : List (Key × Node) :=
  [(⟨column 2, some "tick_rate"⟩, .number (column 15) (.decimal none [7] none none)),
   (⟨column 18, some "discard_on_stop"⟩, .boolean (column 35) true)]

/-- A text is scanned from its characters. -/
theorem scan?_of_chars {text : String} {chars : List Char} (h : text.toList = chars)
    {lexemes : List Json5.Lexeme}
    (hscan : Json5.scanFrom (Json5.spotsFrom ⟨1, 1⟩ chars).length (Json5.spotsFrom ⟨1, 1⟩ chars) =
      some lexemes) : Json5.scan? text = some lexemes := by
  rw [← h] at hscan
  exact hscan

theorem parse?_longText :
    Node.parse? longText = some (.object (column 1) longMembers) := by
  have hscan : Json5.scan? longText = some
      [⟨column 1, .openBrace⟩, ⟨column 2, .word (some "discard_on_stop") true⟩, ⟨column 17, .colon⟩,
       ⟨column 19, .word (some "true") true⟩, ⟨column 23, .comma⟩,
       ⟨column 25, .word (some "extra") true⟩, ⟨column 30, .colon⟩, ⟨column 32, .openBracket⟩,
       ⟨column 33, .number (.decimal none [1] none none)⟩, ⟨column 34, .closeBracket⟩,
       ⟨column 35, .comma⟩, ⟨column 37, .word (some "tick_rate") true⟩, ⟨column 46, .colon⟩,
       ⟨column 48, .number (.decimal none [7] none none)⟩, ⟨column 49, .closeBrace⟩] :=
    scan?_of_chars String.toList_ofList (by decide +kernel)
  rw [Node.parse?, hscan]
  rfl

theorem parse?_shortText :
    Node.parse? shortText = some (.object (column 1) shortMembers) := by
  have hscan : Json5.scan? shortText = some
      [⟨column 1, .openBrace⟩, ⟨column 2, .text (some "tick_rate")⟩, ⟨column 13, .colon⟩,
       ⟨column 15, .number (.decimal none [7] none none)⟩, ⟨column 16, .comma⟩,
       ⟨column 18, .word (some "discard_on_stop") true⟩, ⟨column 33, .colon⟩,
       ⟨column 35, .word (some "true") true⟩, ⟨column 39, .closeBrace⟩] :=
    scan?_of_chars String.toList_ofList (by decide +kernel)
  rw [Node.parse?, hscan]
  rfl

theorem rearranges_short : Rearranges shortMembers longMembers := by
  refine ⟨[(⟨.anywhere, some "extra"⟩,
      .array .anywhere [.number .anywhere (.decimal none [1] none none)])],
    ((List.Perm.swap _ _ _).cons _).trans (List.Perm.swap _ _ _), ?_⟩
  intro m hm field
  obtain rfl := List.mem_singleton.mp hm
  cases field <;> decide

/-- What the texts stand for. -/
def sevenTicks : Config := { default with tickRate := .ofNat 7, discardOnStop := true }

theorem parse_longText : parse longText = .ok sevenTicks := by
  have hread : parse longText = sevenTicks.validate.mapError .invalid :=
    parse_of_chars _ String.toList_ofList (by decide +kernel)
  have hvalid : sevenTicks.invalid? = none := by decide +kernel
  rw [hread, validate, hvalid]
  rfl

/-- The short text stands for what the long one stands for. -/
theorem parse_of_shuffle :
    Node.parse? longText = some (.object (column 1) longMembers) ∧
    Node.parse? shortText = some (.object (column 1) shortMembers) ∧
    parse longText = .ok sevenTicks ∧ parse shortText = .ok sevenTicks := by
  obtain ⟨-, -, hplaces, -⟩ := parse_of_members parse?_longText parse_longText
  exact ⟨parse?_longText, parse?_shortText, parse_longText,
    hplaces _ _ _ parse?_shortText rearranges_short⟩

end Config

end TickHost
