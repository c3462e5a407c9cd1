/-!
# Paths

A path is split at its slashes, and its pieces are kept as they are written: a path may be too long
by what says nothing in it.  Empty pieces lead nowhere, except that a slash at the end asks for a
directory.

A path is a text here.  Names and paths of a file system are bytes, and need not be the encoding of
any text; those that are not are left out.
-/

namespace TickHost

/-- A path in a file tree. -/
structure Path where
  /-- Whether the path begins at the root. -/
  rooted : Bool
  /-- The pieces between the slashes, the slash of the root aside. -/
  pieces : List String
  deriving DecidableEq, Repr

namespace Path

/-! ## 1. Texts -/

/-- The pieces between the slashes of some characters. -/
def piecesOf (cs : List Char) : List String := (cs.splitOn '/').map String.ofList

/-- The path with this text. -/
def ofText (text : String) : Path :=
  match text.toList with
  | '/' :: cs => ⟨true, piecesOf cs⟩
  | cs => ⟨false, piecesOf cs⟩

/-- The text of a path. -/
def text (p : Path) : String := (if p.rooted then "/" else "") ++ "/".intercalate p.pieces

/-- The pieces that are not empty. -/
def parts (p : Path) : List String := p.pieces.filter (!·.isEmpty)

/-- A path that names nothing at all. -/
def isEmpty (p : Path) : Bool := !p.rooted && p.parts.isEmpty

/-- Whether a slash stands at the end of a path that names something. -/
def slashed (p : Path) : Bool := p.pieces.getLast? == some "" && !p.isEmpty

/-! ## 2. The way to a path -/

/-- Whether a piece names what a path leads to by itself.  A point does not, unless a relative path
begins with it. -/
def counts (rooted : Bool) (before : List String) (piece : String) : Bool :=
  !piece.isEmpty && (piece != "." || (!rooted && before.isEmpty))

/-- The paths that end in one of these pieces, which come last one first. -/
def climb (rooted : Bool) : List String → List Path
  | [] => []
  | piece :: before =>
    let above := climb rooted before
    if counts rooted before piece then ⟨rooted, (piece :: before).reverse⟩ :: above else above

/-- A path up to its last piece that counts, and what it is written to stand in, and so on upwards.
Neither the root nor the path that names nothing is among them. -/
def ancestors (p : Path) : List Path := climb p.rooted p.pieces.reverse

/-- The path to what a path is written to stand in. -/
def parent? (p : Path) : Option Path :=
  match p.ancestors with
  | [] => none
  | _ :: above => some (above.head?.getD ⟨p.rooted, []⟩)

end Path

end TickHost
