import TickHost.Config.Loading
import TickHost.Proofs.Trees

/-!
# What loading a configuration does to the files

Loading reads what is there, or writes the default where nothing is.  Whether something is there is
looked up before the missing directories are made, and a path may lead elsewhere once they are: one
that goes through a missing directory and back leads nowhere at first, and then to whatever has been
there all the time.  That is the one case in which a file is lost.

* `parse_defaultText`: the default text stands for the default configuration.
* `load_of_tree`: what becomes of the files for every tree and every path, and that loading a second
  time gives the same configuration again.
* `load_overwrites`: a file that is lost.
-/

namespace TickHost

namespace Config

/-! ## 1. The default text -/

/-- A text is read from its characters. -/
theorem parse_of_chars {text : String} (chars : List Char) (h : text.toList = chars) {c : Config}
    (hread : ((Json5.scanFrom (Json5.spotsFrom ⟨1, 1⟩ chars).length
      (Json5.spotsFrom ⟨1, 1⟩ chars)).bind Json5.Node.ofLexemes?).bind
        (fun node => (ofNode node).toOption) = some c) :
    parse text = c.validate.mapError .invalid := by
  rw [← h] at hread
  obtain ⟨node, hnode, hconfig⟩ := Option.bind_eq_some_iff.mp hread
  have hnode : Json5.Node.parse? text = some node := hnode
  rw [parse, hnode]
  cases hresult : ofNode node with
  | error misfit => rw [hresult] at hconfig; cases hconfig
  | ok c' =>
    rw [hresult] at hconfig
    obtain rfl := Option.some.inj hconfig
    simp only [hresult, Except.mapError, bind, Except.bind]

/-- What is valid is left as it is. -/
theorem validate_eq_ok {c c' : Config} (h : c.validate = .ok c') :
    c.invalid? = none ∧ c' = c := by
  rw [validate] at h
  split at h
  · cases h
  · exact ⟨‹_›, (Except.ok.inj h).symm⟩

/-- The default keeps the limits. -/
theorem validate_default : default.validate = .ok default := by
  have hvalid : default.invalid? = none := by decide +kernel
  rw [validate, hvalid]

/-- **The default text stands for the default configuration.** -/
theorem parse_defaultText : parse defaultText = .ok default := by
  have hchars : defaultText.toList = defaultText.toList := rfl
  -- the characters of each line are those that the literal lists
  conv at hchars =>
    rhs
    rw [defaultText, String.toList_intercalate]
    simp only [List.map_cons, List.map_nil]
    repeat rw [String.toList_ofList]
  rw [parse_of_chars (c := default) _ hchars (by decide +kernel), validate_default]
  rfl

/-- What was read is valid. -/
theorem validate_of_parse {text : String} {c : Config} (h : parse text = .ok c) :
    c.validate = .ok c := by
  rw [parse] at h
  split at h
  · cases h
  · simp only [bind, Except.bind] at h
    split at h
    · cases h
    · rename_i config _
      cases hvalid : config.validate with
      | error reason => rw [hvalid] at h; cases h
      | ok c' =>
        rw [hvalid] at h
        obtain rfl := Except.ok.inj h
        obtain ⟨-, rfl⟩ := validate_eq_ok hvalid
        exact hvalid

/-! ## 2. Reading and creating -/

section

variable {t : FileTree} {path : String}

theorem validate_of_read {c : Config} (h : read t path = .ok c) : c.validate = .ok c := by
  simp only [read, bind, Except.bind] at h
  split at h
  · cases h
  · exact validate_of_parse h

/-- A path that leads to a text is read as what the text stands for. -/
theorem read_of_text {loc : Location} {text : String}
    (h : t.resolve (.ofText path) = .ok (loc, .file text.toUTF8)) : read t path = parse text := by
  have htext : String.fromUTF8? text.toUTF8 = some text := by
    rw [String.fromUTF8?]
    exact dif_pos text.isValidUTF8
  simp only [read, FileTree.readText, FileTree.readFile, h, htext, bind, Except.bind,
    Except.mapError, pure, Except.pure]

theorem load_of_leadsTo (h : t.leadsTo (.ofText path) = true) :
    load t path = ⟨t, [], read t path⟩ := by
  rw [load, if_pos h]

/-- **What creating a configuration does**: the directories are made, and then perhaps the file is
written. -/
theorem create_cases (t : FileTree) (path : String) :
    (∃ problem, create t path = ⟨(t.makeParents (.ofText path)).1, [], .error problem⟩) ∨
    ∃ loc name, (t.makeParents (.ofText path)).1.NewAt (.ofText path) loc name ∧
      (Path.ofText path).slashed = false ∧
      create t path = ⟨(t.makeParents (.ofText path)).1.put (loc ++ [name])
        (.file defaultText.toUTF8), [.logged (.wroteConfig path)], .ok default⟩ := by
  rw [create]
  split
  · rename_i made fault hmade
    exact Or.inl ⟨_, by rw [hmade]⟩
  · rename_i made hmade
    rw [hmade]
    split
    · exact Or.inl ⟨_, rfl⟩
    · rename_i written hwritten
      obtain ⟨loc, name, hnew, hslashed, rfl⟩ := FileTree.writeFile_eq_ok hwritten
      exact Or.inr ⟨loc, name, hnew, hslashed, rfl⟩

end

/-! ## 3. Loading -/

/-- A file is lost that was not looked for: the path has led nowhere and goes through a directory
that was missing and back; in the end it leads to the file, which has the default text now. -/
structure Loaded.Overwrites (loaded : Loaded) (t : FileTree) (p : Path) (loc : Location)
    (entry : Entry) : Prop where
  nowhere : t.leadsTo p = false
  back : ".." ∈ p.parts
  file : ∃ bytes, entry = .file bytes
  leads : loaded.tree.resolve p = .ok (loc, .file defaultText.toUTF8)
  result : loaded.result = .ok default

/-- An entry is one that was missing on the way to a path: a directory on the way, or the file that
the path leads to, with the default text. -/
inductive Loaded.Creates (loaded : Loaded) (t : FileTree) (p : Path) (loc : Location) :
    Entry → Prop
  | directory (parts : List String) (hparts : parts <+: p.parts.dropLast)
      (hwalk : loaded.tree.walk (t.origin p) parts = .ok loc) : Creates loaded t p loc .directory
  | file (hleads : loaded.tree.resolve p = .ok (loc, .file defaultText.toUTF8)) :
      Creates loaded t p loc (.file defaultText.toUTF8)

section

variable {t t' : FileTree} {p : Path} {paths : List Path} {loaded : Loaded}

/-- Directories that were made on the way to a path are missing entries of it. -/
theorem Loaded.Creates.of_made (hmade : t.Made paths t')
    (hpaths : ∀ q ∈ paths, q.rooted = p.rooted ∧ q.parts <+: p.parts.dropLast)
    (hcovers : t'.Covers loaded.tree) {loc : Location} {entry : Entry} (hnone : t.entry? loc = none)
    (hentry : t'.entry? loc = some entry) : loaded.Creates t p loc entry := by
  obtain rfl := hmade.grown.added loc entry hnone hentry
  obtain ⟨q, hq, hwalk⟩ := hmade.leads loc hnone (by rw [hentry]; rfl)
  obtain ⟨hrooted, hparts⟩ := hpaths q hq
  have horigin : t.origin q = t.origin p := by rw [FileTree.origin, hrooted, FileTree.origin]
  exact .directory q.parts hparts (hcovers.walk (horigin ▸ hwalk))

end

/-- **What loading a configuration does to the files.**  For every tree whose entries stand in
directories, and every path that is a text (other bytes are left out, as `Path` says):

* if the path leads somewhere, nothing is changed and nothing is logged;
* every entry that was there is left as it was, but for a file that is overwritten at the end of a
  path that goes through a missing directory and back;
* an entry that was not there is a directory on the way to the path, or the file that the path leads
  to, with the default text;
* a configuration that was loaded is valid, and loading it again gives the same one and changes
  nothing;
* what is left is a tree whose entries stand in directories. -/
theorem load_of_tree (t : FileTree) (ht : t.Closed) (path : String) :
    (t.leadsTo (.ofText path) = true → (load t path).tree = t ∧ (load t path).events = []) ∧
    (∀ loc entry, t.entry? loc = some entry → (load t path).tree.entry? loc = some entry ∨
      (load t path).Overwrites t (.ofText path) loc entry) ∧
    (∀ loc entry, t.entry? loc = none → (load t path).tree.entry? loc = some entry →
      (load t path).Creates t (.ofText path) loc entry) ∧
    (∀ c, (load t path).result = .ok c → c.validate = .ok c ∧
      load (load t path).tree path = ⟨(load t path).tree, [], .ok c⟩) ∧
    (load t path).tree.Closed := by
  cases hleads : t.leadsTo (.ofText path) with
  | true =>
    rw [load_of_leadsTo hleads]
    refine ⟨fun _ => ⟨rfl, rfl⟩, fun _ _ hentry => Or.inl hentry, ?_, ?_, ht⟩
    · intro loc entry hnone hentry
      rw [hnone] at hentry
      cases hentry
    · intro c hread
      refine ⟨validate_of_read hread, ?_⟩
      rw [load_of_leadsTo hleads]
      exact congrArg (Loaded.mk t []) hread
  | false =>
    have hcreate : load t path = create t path := by
      rw [load, if_neg (by rw [hleads]; exact Bool.false_ne_true)]
    obtain ⟨paths, hmade, hpaths⟩ := FileTree.made_of_makeParents t (.ofText path)
    refine ⟨fun h => (Bool.false_ne_true h).elim, ?_⟩
    rw [hcreate]
    rcases create_cases t path with ⟨problem, hfailed⟩ | ⟨loc, name, hnew, hslashed, hwritten⟩
    · rw [hfailed]
      refine ⟨fun loc entry hentry => Or.inl (hmade.grown.kept loc entry hentry), ?_, ?_,
        hmade.closed ht⟩
      · intro loc entry hnone hentry
        exact .of_made hmade hpaths (.refl _) hnone hentry
      · rintro c ⟨⟩
    · have hne : loc ++ [name] ≠ [] := by simp
      have hresolve := hnew.resolve_put hslashed (.file defaultText.toUTF8)
      rw [hwritten]
      refine ⟨?_, ?_, ?_, (hmade.closed ht).put hnew.directory hnew.vacant _⟩
      · intro loc' entry hentry
        have hkept := hmade.grown.kept loc' entry hentry
        by_cases hhere : loc' = loc ++ [name]
        · subst hhere
          refine Or.inr ⟨hleads, ?_, ?_, hresolve, rfl⟩
          · -- without a part that leads back, the file would have been found
            refine Decidable.byContradiction fun hforward => ?_
            rw [hnew.leadsTo_before hmade.grown ht hslashed hforward hentry] at hleads
            cases hleads
          · cases entry with
            | file bytes => exact ⟨bytes, rfl⟩
            | directory =>
              have hvacant := hnew.vacant
              rw [FileTree.isDirectoryAt_iff.mpr hkept] at hvacant
              cases hvacant
        · exact Or.inl ((FileTree.entry?_put_of_ne _ hhere _).trans hkept)
      · intro loc' entry hnone hentry
        by_cases hhere : loc' = loc ++ [name]
        · subst hhere
          rw [FileTree.entry?_put_self _ hne] at hentry
          obtain rfl := Option.some.inj hentry
          exact .file hresolve
        · rw [FileTree.entry?_put_of_ne _ hhere] at hentry
          exact .of_made hmade hpaths (FileTree.covers_put hne hnew.vacant _) hnone hentry
      · intro c hc
        obtain rfl := Except.ok.inj hc
        refine ⟨validate_default, ?_⟩
        rw [load_of_leadsTo (by rw [FileTree.leadsTo, hresolve]; rfl), read_of_text hresolve,
          parse_defaultText]

/-- A configuration. -/
def ownText : String := "\x7btick_rate: 7\x7d"

/-- A tree with a configuration in the directory that relative paths begin at. -/
def cottage : FileTree := FileTree.empty.put ["home", "settings"] (.file ownText.toUTF8)

theorem cottage_closed : cottage.Closed :=
  @FileTree.Closed.put FileTree.empty ["home"] "settings" FileTree.closed_empty rfl rfl _

/-- The default is written next to it, in a new directory, and read from there. -/
theorem load_of_cottage :
    cottage.Closed ∧ cottage.leadsTo (.ofText "attic/settings") = false ∧
    (load cottage "attic/settings").result = .ok default ∧
    (load cottage "attic/settings").tree.entry? ["home", "settings"] =
      some (.file ownText.toUTF8) ∧
    load (load cottage "attic/settings").tree "attic/settings" =
      ⟨(load cottage "attic/settings").tree, [], .ok default⟩ := by
  have hresult : (load cottage "attic/settings").result = .ok default := rfl
  obtain ⟨-, hkept, -, hloaded, -⟩ := load_of_tree cottage cottage_closed "attic/settings"
  refine ⟨cottage_closed, by decide, hresult, ?_, (hloaded default hresult).2⟩
  rcases hkept ["home", "settings"] _ rfl with hsame | hlost
  · exact hsame
  · exact absurd hlost.back (by decide)

/-- **A file is lost** if the path goes through a missing directory and back. -/
theorem load_overwrites :
    cottage.Closed ∧ cottage.leadsTo (.ofText "attic/../settings") = false ∧
    cottage.entry? ["home", "settings"] = some (.file ownText.toUTF8) ∧
    (load cottage "attic/../settings").tree.entry? ["home", "settings"] =
      some (.file defaultText.toUTF8) ∧
    ownText.toUTF8 ≠ defaultText.toUTF8 := by
  refine ⟨cottage_closed, by decide, rfl, rfl, fun hsame => ?_⟩
  have hsecond : ownText.toUTF8.data.toList[1]? = defaultText.toUTF8.data.toList[1]? :=
    congrArg (·.data.toList[1]?) hsame
  have hown : ownText.toUTF8.data.toList[1]? = some 116 := rfl
  have hdefault : defaultText.toUTF8.data.toList[1]? = some 10 := rfl
  rw [hown, hdefault] at hsecond
  cases hsecond

end Config

end TickHost
