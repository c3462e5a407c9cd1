import Mathlib.Data.List.Induction
import TickHost.FileTree

/-!
# Growing file trees

Making directories and writing a file add entries to a tree one by one.  A path that leads somewhere
still leads there afterwards, as long as no directory is put out of the way; and with what was
added, it may be that a path leads somewhere that has led nowhere.

* `FileTree.Closed`: every entry stands in a directory.
* `FileTree.Covers`: a tree has at least the entries and directories of another one, so paths lead
  on.
* `FileTree.Made`: what making directories along some paths may have done.  It adds directories that
  these paths lead to, and nothing else.
-/

namespace TickHost

namespace FileTree

variable {t t' t'' : FileTree} {loc loc' : Location} {entry : Entry} {p : Path}

/-! ## 1. Entries -/

/-- Every entry stands in a directory. -/
def Closed (t : FileTree) : Prop :=
  ∀ loc name, (t.entry? (loc ++ [name])).isSome → t.isDirectoryAt loc = true

theorem isDirectoryAt_iff : t.isDirectoryAt loc = true ↔ t.entry? loc = some .directory := by
  rw [isDirectoryAt]
  split <;> simp_all

theorem isSome_of_directory (h : t.isDirectoryAt loc = true) : (t.entry? loc).isSome := by
  rw [isDirectoryAt_iff.mp h]
  rfl

theorem lookup_filter_ne (entries : List (Location × Entry)) (h : loc' ≠ loc) :
    (entries.filter (·.1 != loc)).lookup loc' = entries.lookup loc' := by
  induction entries with
  | nil => rfl
  | cons e entries ih =>
    obtain ⟨at', entry⟩ := e
    by_cases hat : at' = loc
    · have hne : (loc' == at') = false := beq_eq_false_iff_ne.mpr fun heq => h (heq.trans hat)
      rw [List.filter_cons_of_neg (by simp [hat]), ih, List.lookup_cons, hne]
    · rw [List.filter_cons_of_pos (by simpa using hat), List.lookup_cons, List.lookup_cons, ih]

theorem lookup_filter_eq (entries : List (Location × Entry)) :
    (entries.filter (·.1 != loc)).lookup loc = none := by
  rw [List.lookup_eq_none_iff]
  intro e he
  have hne : e.1 ≠ loc := bne_iff_ne.mp (List.mem_filter.mp he).2
  exact bne_iff_ne.mpr hne.symm

theorem entry?_put_self (t : FileTree) (h : loc ≠ []) (entry : Entry) :
    entry? (t.put loc entry) loc = some entry := by
  rw [put, entry?, if_neg (by simpa using h), List.lookup_append, lookup_filter_eq]
  simp

theorem entry?_put_of_ne (t : FileTree) (h : loc' ≠ loc) (entry : Entry) :
    entry? (t.put loc entry) loc' = t.entry? loc' := by
  have hne : (loc' == loc) = false := beq_eq_false_iff_ne.mpr h
  simp only [put, entry?, List.lookup_append, lookup_filter_ne _ h, List.lookup_cons, hne,
    List.lookup_nil, Option.or_none]

theorem isDirectoryAt_put_of_ne (t : FileTree) (h : loc' ≠ loc) (entry : Entry) :
    (t.put loc entry).isDirectoryAt loc' = t.isDirectoryAt loc' := by
  rw [isDirectoryAt, entry?_put_of_ne t h, isDirectoryAt]

/-- What is put where no directory was, in one that is there, leaves every entry in a directory. -/
theorem Closed.put {name : String} (h : t.Closed) (hdir : t.isDirectoryAt loc = true)
    (hplace : t.isDirectoryAt (loc ++ [name]) = false) (entry : Entry) :
    (t.put (loc ++ [name]) entry).Closed := by
  intro loc' name' hsome
  by_cases hbelow : loc' = loc ++ [name]
  · -- nothing can be below what is no directory
    subst hbelow
    rw [entry?_put_of_ne t (by simp)] at hsome
    rw [h _ _ hsome] at hplace
    cases hplace
  · rw [isDirectoryAt_put_of_ne t hbelow]
    by_cases hhere : loc' ++ [name'] = loc ++ [name]
    · rw [(List.append_inj' hhere rfl).1]
      exact hdir
    · rw [entry?_put_of_ne t hhere] at hsome
      exact h _ _ hsome

theorem closed_empty : empty.Closed := by
  intro loc name hsome
  by_cases hhere : loc ++ [name] = ["home"]
  · have hroot : loc ++ [name] = [] ++ ["home"] := hhere
    obtain rfl : loc = [] := (List.append_inj' hroot rfl).1
    rfl
  · have hne : (loc ++ [name] == ["home"]) = false := beq_eq_false_iff_ne.mpr hhere
    rw [empty, entry?, if_neg (by simp), List.lookup_cons, hne] at hsome
    cases hsome

/-! ## 2. Paths that lead on -/

/-- A tree has at least the entries and the directories of another one. -/
structure Covers (t t' : FileTree) : Prop where
  home : t'.home = t.home
  directory : ∀ loc, t.isDirectoryAt loc = true → t'.isDirectoryAt loc = true
  entry : ∀ loc, (t.entry? loc).isSome → (t'.entry? loc).isSome

theorem Covers.refl (t : FileTree) : t.Covers t := ⟨rfl, fun _ h => h, fun _ h => h⟩

theorem Covers.trans (h : t.Covers t') (h' : t'.Covers t'') : t.Covers t'' :=
  ⟨h'.home.trans h.home, fun loc hloc => h'.directory loc (h.directory loc hloc),
    fun loc hloc => h'.entry loc (h.entry loc hloc)⟩

theorem Covers.origin (h : t.Covers t') (p : Path) : t'.origin p = t.origin p := by
  rw [FileTree.origin, h.home, FileTree.origin]

/-- What is put where no directory is takes nothing away. -/
theorem covers_put (hne : loc ≠ []) (hplace : t.isDirectoryAt loc = false) (entry : Entry) :
    t.Covers (t.put loc entry) := by
  refine ⟨rfl, fun loc' hdir => ?_, fun loc' hsome => ?_⟩
  · have hother : loc' ≠ loc := by
      rintro rfl
      rw [hdir] at hplace
      cases hplace
    rw [isDirectoryAt_put_of_ne t hother]
    exact hdir
  · by_cases hhere : loc' = loc
    · rw [hhere, entry?_put_self t hne]
      rfl
    · rw [entry?_put_of_ne t hhere]
      exact hsome

/-- The step of a walk to a name. -/
theorem walk_name {part : String} {rest : List String} (hdir : t.isDirectoryAt loc = true)
    (hdots : isDots part = false) (hsize : part.utf8ByteSize ≤ maxName)
    (hsome : (t.entry? (loc ++ [part])).isSome) :
    t.walk loc (part :: rest) = t.walk (loc ++ [part]) rest := by
  obtain ⟨hpoint, htwo⟩ := Bool.or_eq_false_iff.mp hdots
  rw [walk, if_neg (by simp [hdir]), if_neg (by simp [hpoint]), if_neg (by simp [htwo]),
    if_neg (Nat.not_lt.mpr hsize), if_pos hsome]

/-- **What a walk does with its first part**, if it gets anywhere. -/
theorem walk_cons {part : String} {rest : List String} (h : t.walk loc (part :: rest) = .ok loc') :
    t.isDirectoryAt loc = true ∧
      (part = "." ∧ t.walk loc rest = .ok loc' ∨
        part = ".." ∧ t.walk loc.dropLast rest = .ok loc' ∨
        isDots part = false ∧ part.utf8ByteSize ≤ maxName ∧ (t.entry? (loc ++ [part])).isSome ∧
          t.walk (loc ++ [part]) rest = .ok loc') := by
  rw [walk] at h
  split at h
  · cases h
  · rename_i hdir
    refine ⟨by simpa using hdir, ?_⟩
    split at h
    · rename_i hpoint
      exact Or.inl ⟨beq_iff_eq.mp hpoint, h⟩
    · rename_i hpoint
      split at h
      · rename_i htwo
        exact Or.inr (Or.inl ⟨beq_iff_eq.mp htwo, h⟩)
      · rename_i htwo
        split at h
        · cases h
        · rename_i hsize
          dsimp only at h
          split at h
          · rename_i hsome
            exact Or.inr (Or.inr ⟨by simp [isDots, hpoint, htwo], Nat.not_lt.mp hsize, hsome, h⟩)
          · cases h

theorem walk_point {rest : List String} (hdir : t.isDirectoryAt loc = true) :
    t.walk loc ("." :: rest) = t.walk loc rest := by
  rw [walk, if_neg (by simp [hdir]), if_pos (beq_self_eq_true _)]

theorem walk_up {rest : List String} (hdir : t.isDirectoryAt loc = true) :
    t.walk loc (".." :: rest) = t.walk loc.dropLast rest := by
  rw [walk, if_neg (by simp [hdir]), if_neg (by decide), if_pos (beq_self_eq_true _)]

/-- **A path that leads somewhere leads there in every tree that covers this one.** -/
theorem Covers.walk (h : t.Covers t') {parts : List String} (hwalk : t.walk loc parts = .ok loc') :
    t'.walk loc parts = .ok loc' := by
  induction parts generalizing loc with
  | nil => exact hwalk
  | cons part rest ih =>
    obtain ⟨hdir, ⟨rfl, hrest⟩ | ⟨rfl, hrest⟩ | ⟨hdots, hsize, hsome, hrest⟩⟩ := walk_cons hwalk
    · rw [walk_point (h.directory _ hdir)]
      exact ih hrest
    · rw [walk_up (h.directory _ hdir)]
      exact ih hrest
    · rw [walk_name (h.directory _ hdir) hdots hsize (h.entry _ hsome)]
      exact ih hrest

/-- A walk goes on where another one has led. -/
theorem walk_append {parts rest : List String} (h : t.walk loc parts = .ok loc') :
    t.walk loc (parts ++ rest) = t.walk loc' rest := by
  induction parts generalizing loc with
  | nil => rw [Except.ok.inj h]; rfl
  | cons part parts ih =>
    rw [List.cons_append]
    obtain ⟨hdir, ⟨rfl, hrest⟩ | ⟨rfl, hrest⟩ | ⟨hdots, hsize, hsome, hrest⟩⟩ := walk_cons h
    · rw [walk_point hdir]
      exact ih hrest
    · rw [walk_up hdir]
      exact ih hrest
    · rw [walk_name hdir hdots hsize hsome]
      exact ih hrest

/-! ## 3. Making directories -/

/-- A tree has all entries of another one as they are, and otherwise directories. -/
structure Grown (t t' : FileTree) : Prop where
  home : t'.home = t.home
  kept : ∀ loc entry, t.entry? loc = some entry → t'.entry? loc = some entry
  added : ∀ loc entry, t.entry? loc = none → t'.entry? loc = some entry → entry = .directory

theorem Grown.covers (h : t.Grown t') : t.Covers t' := by
  refine ⟨h.home, fun loc hloc => ?_, fun loc hsome => ?_⟩
  · exact isDirectoryAt_iff.mpr (h.kept loc _ (isDirectoryAt_iff.mp hloc))
  · obtain ⟨entry, hentry⟩ := Option.isSome_iff_exists.mp hsome
    rw [h.kept loc entry hentry]
    rfl

/-- **What making directories along some paths may have done**: new directories, to which these
paths lead. -/
structure Made (paths : List Path) (t t' : FileTree) : Prop where
  grown : t.Grown t'
  closed : t.Closed → t'.Closed
  leads : ∀ loc, t.entry? loc = none → (t'.entry? loc).isSome →
    ∃ q ∈ paths, t'.walk (t.origin q) q.parts = .ok loc

theorem Made.refl (paths : List Path) (t : FileTree) : Made paths t t := by
  refine ⟨⟨rfl, fun _ _ h => h, fun loc entry hnone hsome => ?_⟩, id, fun loc hnone hsome => ?_⟩
  · rw [hnone] at hsome
    cases hsome
  · rw [hnone] at hsome
    cases hsome

theorem Made.trans {paths : List Path} (h : Made paths t t') (h' : Made paths t' t'') :
    Made paths t t'' := by
  have hcovers := h'.grown.covers
  refine ⟨⟨h'.grown.home.trans h.grown.home, fun loc entry hentry => ?_, ?_⟩,
    fun hclosed => h'.closed (h.closed hclosed), ?_⟩
  · exact h'.grown.kept loc entry (h.grown.kept loc entry hentry)
  · intro loc entry hnone hsome
    cases hmiddle : t'.entry? loc with
    | none => exact h'.grown.added loc entry hmiddle hsome
    | some middle =>
      obtain rfl := h.grown.added loc middle hnone hmiddle
      exact (Option.some.inj (hsome.symm.trans (h'.grown.kept loc _ hmiddle)))
  · intro loc hnone hsome
    cases hmiddle : t'.entry? loc with
    | none =>
      obtain ⟨q, hq, hwalk⟩ := h'.leads loc hmiddle hsome
      rw [h.grown.covers.origin] at hwalk
      exact ⟨q, hq, hwalk⟩
    | some middle =>
      obtain ⟨q, hq, hwalk⟩ := h.leads loc hnone (by rw [hmiddle]; rfl)
      exact ⟨q, hq, hcovers.walk hwalk⟩

theorem Made.weaken {paths paths' : List Path} (h : Made paths t t')
    (hsubset : paths ⊆ paths') : Made paths' t t' := by
  refine ⟨h.grown, h.closed, fun loc hnone hsome => ?_⟩
  obtain ⟨q, hq, hwalk⟩ := h.leads loc hnone hsome
  exact ⟨q, hsubset hq, hwalk⟩

/-- Where the last part of a path is looked up. -/
theorem resolveParent_eq_ok {last : Option String} (h : t.resolveParent p = .ok (loc, last)) :
    checkPath p = .ok () ∧ t.walk (t.origin p) p.parts.dropLast = .ok loc ∧
      t.isDirectoryAt loc = true ∧ last = p.parts.getLast? := by
  simp only [resolveParent, bind, Except.bind] at h
  split at h
  · cases h
  · rename_i hcheck
    split at h
    · cases h
    · rename_i loc' hwalk
      split at h
      · rename_i hdir
        obtain ⟨rfl, rfl⟩ := Prod.mk.inj (Except.ok.inj h)
        exact ⟨hcheck, hwalk, hdir, rfl⟩
      · cases h

/-- **The new entry of a path**: its directory is there, and its last part is a name. -/
structure NewAt (t : FileTree) (p : Path) (loc : Location) (name : String) : Prop where
  check : checkPath p = .ok ()
  walk : t.walk (t.origin p) p.parts.dropLast = .ok loc
  directory : t.isDirectoryAt loc = true
  last : p.parts = p.parts.dropLast ++ [name]
  dots : isDots name = false
  size : name.utf8ByteSize ≤ maxName
  vacant : t.isDirectoryAt (loc ++ [name]) = false

theorem newAt_of_resolveParent {name : String}
    (h : t.resolveParent p = .ok (loc, some name)) (hdots : isDots name = false)
    (hsize : ¬ maxName < name.utf8ByteSize) (hvacant : t.isDirectoryAt (loc ++ [name]) = false) :
    t.NewAt p loc name := by
  obtain ⟨hcheck, hwalk, hdir, hlast⟩ := resolveParent_eq_ok h
  obtain ⟨init, hinit⟩ := List.getLast?_eq_some_iff.mp hlast.symm
  exact ⟨hcheck, hwalk, hdir, by rw [hinit, List.dropLast_concat], hdots, Nat.not_lt.mp hsize,
    hvacant⟩

/-- What is put there, the path leads to. -/
theorem NewAt.walk_put {name : String} (h : t.NewAt p loc name) (entry : Entry) :
    (t.put (loc ++ [name]) entry).walk (t.origin p) p.parts = .ok (loc ++ [name]) := by
  have hne : loc ++ [name] ≠ [] := by simp
  have hcovers := covers_put hne h.vacant entry
  rw [h.last, walk_append (hcovers.walk h.walk),
    walk_name (hcovers.directory _ h.directory) h.dots h.size]
  · rfl
  · rw [entry?_put_self t hne]
    rfl

theorem makeDirectory_eq_ok (h : t.makeDirectory p = .ok t') :
    ∃ loc name, t.NewAt p loc name ∧ t.entry? (loc ++ [name]) = none ∧
      t' = t.put (loc ++ [name]) .directory := by
  simp only [makeDirectory, bind, Except.bind] at h
  split at h
  · cases h
  · rename_i parent hparent
    obtain ⟨loc, last⟩ := parent
    split at h
    · cases h
    · rename_i name hname
      obtain rfl : last = some name := hname
      split at h
      · cases h
      · rename_i hdots
        split at h
        · cases h
        · rename_i hsize
          split at h
          · cases h
          · rename_i hnone
            have hnone : t.entry? (loc ++ [name]) = none := by simpa using hnone
            refine ⟨loc, name, newAt_of_resolveParent hparent (by simpa using hdots) hsize ?_,
              hnone, (Except.ok.inj h).symm⟩
            rw [isDirectoryAt, hnone]

theorem made_of_makeDirectory (h : t.makeDirectory p = .ok t') : Made [p] t t' := by
  obtain ⟨loc, name, hnew, hnone, rfl⟩ := makeDirectory_eq_ok h
  have hne : loc ++ [name] ≠ [] := by simp
  refine ⟨⟨rfl, fun loc' entry hentry => ?_, fun loc' entry hnone' hsome => ?_⟩,
    fun hclosed => hclosed.put hnew.directory hnew.vacant _, fun loc' hnone' hsome => ?_⟩
  · rwa [entry?_put_of_ne t (by rintro rfl; rw [hnone] at hentry; cases hentry)]
  · by_cases hhere : loc' = loc ++ [name]
    · rw [hhere, entry?_put_self t hne] at hsome
      exact (Option.some.inj hsome).symm
    · rw [entry?_put_of_ne t hhere, hnone'] at hsome
      cases hsome
  · by_cases hhere : loc' = loc ++ [name]
    · exact ⟨p, List.mem_singleton_self p, hhere ▸ hnew.walk_put .directory⟩
    · rw [entry?_put_of_ne t hhere, hnone'] at hsome
      cases hsome

theorem made_of_ensureDirectory {paths : List Path}
    {above : FileTree → FileTree × Except AccessFault Unit}
    (habove : ∀ t, Made paths t (above t).1) (t : FileTree) (p : Path) :
    Made (p :: paths) t (ensureDirectory above t p).1 := by
  have hfirst {t t' : FileTree} (h : t.makeDirectory p = .ok t') : Made (p :: paths) t t' :=
    (made_of_makeDirectory h).weaken (by simp)
  have hrest := (habove t).weaken (List.subset_cons_self p paths)
  rw [ensureDirectory]
  split
  · exact hfirst ‹_›
  · split
    · rename_i habove'
      rw [habove'] at hrest
      exact hrest
    · rename_i t' habove'
      rw [habove'] at hrest
      split
      · exact hrest.trans (hfirst ‹_›)
      · exact hrest
  · exact .refl _ t

theorem made_of_makeAll (paths : List Path) (t : FileTree) :
    Made paths t (makeAll paths t).1 := by
  induction paths generalizing t with
  | nil => exact .refl _ t
  | cons p paths ih => exact made_of_ensureDirectory ih t p

end FileTree

/-! ## 4. The way to a path -/

namespace Path

variable {rooted : Bool} {pieces : List String} {p q : Path}

/-- What is climbed to are initial pieces. -/
theorem prefix_of_mem_climb (h : q ∈ climb rooted pieces) :
    q.rooted = rooted ∧ q.pieces <+: pieces.reverse := by
  induction pieces with
  | nil => cases h
  | cons piece before ih =>
    have hbefore : before.reverse <+: (piece :: before).reverse := by
      rw [List.reverse_cons]
      exact List.prefix_append _ _
    rw [climb] at h
    split at h
    · rcases List.mem_cons.mp h with rfl | hmem
      · exact ⟨rfl, List.prefix_rfl⟩
      · exact ⟨(ih hmem).1, (ih hmem).2.trans hbefore⟩
    · exact ⟨(ih h).1, (ih h).2.trans hbefore⟩

/-- The pieces before the one that a climb begins with. -/
theorem climb_eq_cons {above : List Path} (h : climb rooted pieces = q :: above) :
    ∃ piece before, piece.isEmpty = false ∧ before.reverse ++ [piece] <+: pieces.reverse ∧
      above = climb rooted before := by
  induction pieces with
  | nil => cases h
  | cons piece before ih =>
    rw [climb] at h
    split at h
    · rename_i hcounts
      obtain ⟨-, rfl⟩ := List.cons.inj h
      have hname := (Bool.and_eq_true _ _ ▸ hcounts).1
      exact ⟨piece, before, by simpa using hname, List.reverse_cons ▸ List.prefix_rfl, rfl⟩
    · obtain ⟨piece', before', hname, hstarts, habove⟩ := ih h
      refine ⟨piece', before', hname, hstarts.trans ?_, habove⟩
      rw [List.reverse_cons]
      exact List.prefix_append _ _

/-- **What a path is written to stand in begins as the path does**, and leaves out its last part. -/
theorem parts_of_parent {parent : Path} (h : p.parent? = some parent) :
    ∀ q ∈ parent :: parent.ancestors, q.rooted = p.rooted ∧ q.parts <+: p.parts.dropLast := by
  rw [parent?] at h
  split at h
  · cases h
  · rename_i first above hancestors
    obtain ⟨piece, before, hname, ⟨rest, hpieces⟩, habove⟩ := climb_eq_cons hancestors
    rw [List.reverse_reverse] at hpieces
    have hparts : before.reverse.filter (!·.isEmpty) <+: p.parts.dropLast := by
      rw [parts, ← hpieces, List.filter_append, List.filter_append,
        List.filter_cons_of_pos (by simp [hname]), List.append_assoc,
        List.dropLast_append_of_ne_nil (by simp)]
      exact List.prefix_append _ _
    have hparent : parent.rooted = p.rooted ∧ parent.pieces <+: before.reverse := by
      obtain rfl := Option.some.inj h
      cases above with
      | nil => exact ⟨rfl, List.nil_prefix⟩
      | cons q above => exact prefix_of_mem_climb (habove ▸ List.mem_cons_self)
    intro q hq
    have hq' : q.rooted = p.rooted ∧ q.pieces <+: before.reverse := by
      rcases List.mem_cons.mp hq with rfl | hmem
      · exact hparent
      · obtain ⟨hrooted, hstarts⟩ := prefix_of_mem_climb hmem
        rw [List.reverse_reverse] at hstarts
        exact ⟨hrooted.trans hparent.1, hstarts.trans hparent.2⟩
    exact ⟨hq'.1, (hq'.2.filter _).trans hparts⟩

end Path

namespace FileTree

variable {t t' : FileTree} {loc loc' : Location} {entry : Entry} {p : Path}

theorem made_of_makeDirectories (t : FileTree) (p : Path) :
    Made (p :: p.ancestors) t (t.makeDirectories p).1 := by
  rw [makeDirectories]
  split
  · exact .refl _ t
  · rename_i first above hancestors
    refine (made_of_makeAll (p :: above) t).weaken ?_
    rw [hancestors]
    exact List.cons_subset_cons _ (List.subset_cons_self first above)

/-- **Making the directories that a path stands in** adds no others. -/
theorem made_of_makeParents (t : FileTree) (p : Path) :
    ∃ paths, Made paths t (t.makeParents p).1 ∧
      ∀ q ∈ paths, q.rooted = p.rooted ∧ q.parts <+: p.parts.dropLast := by
  rw [makeParents]
  split
  · exact ⟨[], .refl _ t, List.forall_mem_nil _⟩
  · rename_i parent hparent
    split
    · exact ⟨[], .refl _ t, List.forall_mem_nil _⟩
    · exact ⟨_, made_of_makeDirectories t parent, Path.parts_of_parent hparent⟩

/-! ## 5. Writing a file -/

theorem writeFile_eq_ok {bytes : ByteArray} (h : t.writeFile p bytes = .ok t') :
    ∃ loc name, t.NewAt p loc name ∧ p.slashed = false ∧
      t' = t.put (loc ++ [name]) (.file bytes) := by
  simp only [writeFile, bind, Except.bind] at h
  split at h
  · cases h
  · rename_i parent hparent
    obtain ⟨loc, last⟩ := parent
    dsimp only at h
    split at h
    · cases h
    · rename_i name
      split at h
      · cases h
      · rename_i hname
        obtain ⟨hdots, hslashed⟩ := Bool.or_eq_false_iff.mp (Bool.eq_false_iff.mpr hname)
        split at h
        · cases h
        · rename_i hsize
          split at h
          · cases h
          · rename_i hvacant
            exact ⟨loc, name, newAt_of_resolveParent hparent hdots hsize (by simpa using hvacant),
              hslashed, (Except.ok.inj h).symm⟩

theorem resolve_of_walk (hcheck : checkPath p = .ok ()) (hslashed : p.slashed = false)
    (hwalk : t.walk (t.origin p) p.parts = .ok loc) (hentry : t.entry? loc = some entry) :
    t.resolve p = .ok (loc, entry) := by
  simp only [resolve, hcheck, hwalk, bind, Except.bind, hentry, hslashed, Bool.false_and,
    Bool.false_eq_true, if_false]
  rfl

/-- A path leads to the file that was written there. -/
theorem NewAt.resolve_put {name : String} (h : t.NewAt p loc name) (hslashed : p.slashed = false)
    (entry : Entry) : (t.put (loc ++ [name]) entry).resolve p = .ok (loc ++ [name], entry) :=
  resolve_of_walk h.check hslashed (h.walk_put entry) (entry?_put_self t (by simp) entry)

/-! ## 6. What is overwritten -/

/-- Above what is in a tree there are directories. -/
theorem Closed.above {name : String} (h : t.Closed) (hsome : (t.entry? (loc ++ [name])).isSome) :
    ∀ start, start <+: loc → t.isDirectoryAt start = true := by
  induction loc using List.reverseRecOn generalizing name with
  | nil =>
    intro start hstart
    rw [List.prefix_nil.mp hstart]
    rfl
  | append_singleton loc last ih =>
    have hdir := h _ _ hsome
    intro start hstart
    rcases List.prefix_concat_iff.mp hstart with rfl | hstart
    · exact hdir
    · exact ih (isSome_of_directory hdir) start hstart

/-- A walk that never turns back needs no more than the directories on its way. -/
theorem walk_of_forward {parts : List String} (hforward : ".." ∉ parts)
    (hwalk : t'.walk loc parts = .ok loc') :
    loc <+: loc' ∧
      ((∀ start, start <+: loc' → t.isDirectoryAt start = true) → t.walk loc parts = .ok loc') := by
  induction parts generalizing loc with
  | nil =>
    obtain rfl := Except.ok.inj hwalk
    exact ⟨List.prefix_rfl, fun _ => rfl⟩
  | cons part rest ih =>
    rw [List.mem_cons, not_or] at hforward
    obtain ⟨-, ⟨rfl, hrest⟩ | ⟨rfl, -⟩ | ⟨hdots, hsize, -, hrest⟩⟩ := walk_cons hwalk
    · obtain ⟨hstarts, hlead⟩ := ih hforward.2 hrest
      refine ⟨hstarts, fun hdirs => ?_⟩
      rw [walk_point (hdirs loc hstarts)]
      exact hlead hdirs
    · exact absurd rfl hforward.1
    · obtain ⟨hstarts, hlead⟩ := ih hforward.2 hrest
      have hshort := (List.prefix_append loc [part]).trans hstarts
      refine ⟨hshort, fun hdirs => ?_⟩
      rw [walk_name (hdirs loc hshort) hdots hsize (isSome_of_directory (hdirs _ hstarts))]
      exact hlead hdirs

/-- **A path that never turns back leads to what is there before its directories are made**, if it
leads there afterwards. -/
theorem NewAt.leadsTo_before {name : String} (hnew : t'.NewAt p loc name)
    (hgrown : t.Grown t') (hclosed : t.Closed) (hslashed : p.slashed = false)
    (hforward : ".." ∉ p.parts) (hentry : t.entry? (loc ++ [name]) = some entry) :
    t.leadsTo p = true := by
  have hsome : (t.entry? (loc ++ [name])).isSome := by rw [hentry]; rfl
  have hwalk := hnew.walk
  rw [hgrown.covers.origin] at hwalk
  obtain ⟨-, hlead⟩ := walk_of_forward
    (fun hmem => hforward ((List.dropLast_subset _) hmem)) hwalk
  have hwhole : t.walk (t.origin p) p.parts = .ok (loc ++ [name]) := by
    rw [hnew.last, walk_append (hlead (hclosed.above hsome)),
      walk_name (hclosed _ _ hsome) hnew.dots hnew.size hsome]
    rfl
  rw [leadsTo, resolve_of_walk hnew.check hslashed hwhole hentry]
  rfl

end FileTree

end TickHost
