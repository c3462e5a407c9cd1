import TickHost.Config.Reading
import TickHost.FileTree
import TickHost.Trace

/-!
# Loading a configuration

A configuration is read from its file.  Where there is none, the default is written first, together
with the directories that lead to it, and used.
-/

namespace TickHost.Config

/-- What loading a configuration leaves behind. -/
structure Loaded where
  /-- The file tree afterwards. -/
  tree : FileTree
  /-- What happened. -/
  events : List Event
  /-- The configuration, or why there is none. -/
  result : Except Problem Config

/-- The configuration in a file that is there. -/
def read (t : FileTree) (path : String) : Except Problem Config := do
  let text ← (t.readText (.ofText path)).mapError (.access · path)
  parse text

/-- Writes the default configuration where there is none. -/
def create (t : FileTree) (path : String) : Loaded :=
  match t.makeParents (.ofText path) with
  | (t, .error fault) => ⟨t, [], .error (.access fault path)⟩
  | (t, .ok ()) =>
    match t.writeFile (.ofText path) defaultText.toUTF8 with
    | .error fault => ⟨t, [], .error (.access fault path)⟩
    | .ok written => ⟨written, [.logged (.wroteConfig path)], .ok default⟩

/-- Loads the configuration at a path (`load_or_create`). -/
def load (t : FileTree) (path : String) : Loaded :=
  if t.leadsTo (.ofText path) then ⟨t, [], read t path⟩ else create t path

end TickHost.Config
