import TickHost.FileTree.Path

/-!
# File trees

Regular files and directories under one root.  A path is resolved part by part, as far as the tree
goes: every part but the last has to lead to a directory.  The operations are those of a file system
that loading a configuration makes use of: `exists`, `read_to_string`, `create_dir_all` and `write`.
Links, and the rights to read and write, are left out.
-/

namespace TickHost

/-! ## 1. Trees -/

/-- The names that lead from the root to an entry. -/
abbrev Location : Type := List String

/-- What a name in a directory stands for. -/
inductive Entry where
  /-- A directory. -/
  | directory
  /-- A file with these bytes. -/
  | file (bytes : ByteArray)

/-- The files and directories below a root, and the directory that relative paths begin at. -/
structure FileTree where
  /-- The entries below the root, earlier ones first. -/
  entries : List (Location × Entry) := []
  /-- Where relative paths begin. -/
  home : Location := []

/-- Why an entry of a file tree cannot be read or written. -/
inductive AccessFault where
  /-- There is no such entry. -/
  | notFound
  /-- A directory stands where a file is needed. -/
  | isADirectory
  /-- A file stands where a directory is needed. -/
  | notADirectory
  /-- An entry is there already. -/
  | alreadyExists
  /-- The file is no text. -/
  | invalidData
  /-- A name or a path is too long. -/
  | invalidFilename
  /-- A path has a character that no path can have. -/
  | invalidInput
  deriving DecidableEq, Repr

/-- The word for a fault. -/
def AccessFault.word : AccessFault → String
  | notFound => "NotFound"
  | isADirectory => "IsADirectory"
  | notADirectory => "NotADirectory"
  | alreadyExists => "AlreadyExists"
  | invalidData => "InvalidData"
  | invalidFilename => "InvalidFilename"
  | invalidInput => "InvalidInput"

namespace FileTree

/-- The entry at a location.  The root is a directory. -/
def entry? (t : FileTree) (loc : Location) : Option Entry :=
  if loc.isEmpty then some .directory else t.entries.lookup loc

/-- Whether a directory is at a location. -/
def isDirectoryAt (t : FileTree) (loc : Location) : Bool :=
  match t.entry? loc with
  | some .directory => true
  | _ => false

/-- The tree with an entry at a location, in place of what was there. -/
def put (t : FileTree) (loc : Location) (entry : Entry) : FileTree :=
  { t with entries := t.entries.filter (·.1 != loc) ++ [(loc, entry)] }

/-! ## 2. Resolving paths -/

/-- The longest name, in bytes. -/
def maxName : Nat := 255

/-- The longest path, in bytes. -/
def maxPath : Nat := 4095

/-- Whether a part leads to where it is or upwards, and not to a name. -/
def isDots (part : String) : Bool := part == "." || part == ".."

/-- The location that parts lead to.  Two points lead upwards, and at the root nowhere. -/
def walk (t : FileTree) : Location → List String → Except AccessFault Location
  | loc, [] => .ok loc
  | loc, part :: rest =>
    if !t.isDirectoryAt loc then .error .notADirectory
    else if part == "." then walk t loc rest
    else if part == ".." then walk t loc.dropLast rest
    else if maxName < part.utf8ByteSize then .error .invalidFilename
    else
      let next := loc ++ [part]
      if (t.entry? next).isSome then walk t next rest else .error .notFound

/-- Refuses a path that no tree can resolve. -/
def checkPath (p : Path) : Except AccessFault Unit :=
  if p.text.toList.contains '\x00' then .error .invalidInput
  else if maxPath < p.text.utf8ByteSize then .error .invalidFilename
  else if p.isEmpty then .error .notFound
  else .ok ()

/-- Where a path begins. -/
def origin (t : FileTree) (p : Path) : Location := if p.rooted then [] else t.home

/-- The location and the entry of a path that leads somewhere.  A slash at the end takes a
directory. -/
def resolve (t : FileTree) (p : Path) : Except AccessFault (Location × Entry) := do
  checkPath p
  let loc ← t.walk (t.origin p) p.parts
  match t.entry? loc with
  | none => .error .notFound
  | some entry =>
    if p.slashed && !t.isDirectoryAt loc then .error .notADirectory else return (loc, entry)

/-- Whether a path leads to an entry (`exists`). -/
def leadsTo (t : FileTree) (p : Path) : Bool := (t.resolve p).toOption.isSome

/-- Whether a path leads to a directory. -/
def leadsToDirectory (t : FileTree) (p : Path) : Bool :=
  match t.resolve p with
  | .ok (_, .directory) => true
  | _ => false

/-- The directory that the last part of a path is looked up in, and that part; a path without parts
has none. -/
def resolveParent (t : FileTree) (p : Path) : Except AccessFault (Location × Option String) := do
  checkPath p
  let loc ← t.walk (t.origin p) p.parts.dropLast
  if t.isDirectoryAt loc then return (loc, p.parts.getLast?) else .error .notADirectory

/-! ## 3. Reading and writing -/

/-- The bytes of the file that a path leads to. -/
def readFile (t : FileTree) (p : Path) : Except AccessFault ByteArray := do
  match ← t.resolve p with
  | (_, .directory) => .error .isADirectory
  | (_, .file bytes) => return bytes

/-- The text of the file that a path leads to (`read_to_string`). -/
def readText (t : FileTree) (p : Path) : Except AccessFault String := do
  match String.fromUTF8? (← t.readFile p) with
  | some text => return text
  | none => .error .invalidData

/-- Writes a file (`write`).  Only its directory has to be there. -/
def writeFile (t : FileTree) (p : Path) (bytes : ByteArray) : Except AccessFault FileTree := do
  let (loc, last) ← t.resolveParent p
  match last with
  | none => .error .isADirectory
  | some name =>
    if isDots name || p.slashed then .error .isADirectory
    else if maxName < name.utf8ByteSize then .error .invalidFilename
    else if t.isDirectoryAt (loc ++ [name]) then .error .isADirectory
    else return t.put (loc ++ [name]) (.file bytes)

/-- Makes one directory, where there is no entry yet. -/
def makeDirectory (t : FileTree) (p : Path) : Except AccessFault FileTree := do
  let (loc, last) ← t.resolveParent p
  match last with
  | none => .error .alreadyExists
  | some name =>
    if isDots name then .error .alreadyExists
    else if maxName < name.utf8ByteSize then .error .invalidFilename
    else if (t.entry? (loc ++ [name])).isSome then .error .alreadyExists
    else return t.put (loc ++ [name]) .directory

/-- Makes a directory unless it is there, given what makes the one that it stands in.  The tree
that is left holds all directories that were made, also when a later one was not. -/
def ensureDirectory (above : FileTree → FileTree × Except AccessFault Unit) (t : FileTree)
    (p : Path) : FileTree × Except AccessFault Unit :=
  match t.makeDirectory p with
  | .ok made => (made, .ok ())
  | .error .notFound =>
    match above t with
    | (t, .error fault) => (t, .error fault)
    | (t, .ok ()) =>
      match t.makeDirectory p with
      | .ok made => (made, .ok ())
      | .error fault => (t, if t.leadsToDirectory p then .ok () else .error fault)
  | .error fault => (t, if t.leadsToDirectory p then .ok () else .error fault)

/-- Makes the first of some directories, and before it those after it in the list, which lead to it
one by one. -/
def makeAll : List Path → FileTree → FileTree × Except AccessFault Unit
  | [], t => (t, .ok ())
  | p :: above, t => ensureDirectory (makeAll above) t p

/-- Makes a directory and all directories that lead to it, as far as they are missing
(`create_dir_all`). -/
def makeDirectories (t : FileTree) (p : Path) : FileTree × Except AccessFault Unit :=
  match p.ancestors with
  | [] => (t, .ok ())
  | _ :: above => makeAll (p :: above) t

/-- Makes the directories that a path is written to stand in, if it names any. -/
def makeParents (t : FileTree) (p : Path) : FileTree × Except AccessFault Unit :=
  match p.parent? with
  | none => (t, .ok ())
  | some parent => if parent.isEmpty then (t, .ok ()) else t.makeDirectories parent

/-! ## 4. Listing -/

/-- The entries below the directory that relative paths begin at, by their paths; that of a
directory ends in a slash. -/
def listing (t : FileTree) : List (String × Entry) :=
  let below := t.entries.filterMap fun (loc, entry) =>
    if t.home.isPrefixOf loc && loc != t.home then
      let path := "/".intercalate (loc.drop t.home.length)
      match entry with
      | .directory => some (path ++ "/", entry)
      | .file _ => some (path, entry)
    else none
  below.mergeSort fun a b => a.1 ≤ b.1

/-- A tree with nothing but the directory that relative paths begin at. -/
def empty : FileTree := ⟨[(["home"], .directory)], ["home"]⟩

end FileTree

end TickHost
