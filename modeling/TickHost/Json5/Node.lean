import TickHost.Json5.Token

/-!
# Values of a text

A text holds one value.  Every value and every key keeps its beginning: what is wrong with it is
reported there, and a number is recognised by its first two bytes.  As in `serde_json5`, the whole
text has to be in the grammar before any of its values is read.
-/

namespace TickHost.Json5

/-- The key of a member. -/
structure Key where
  /-- Where the key begins. -/
  start : Start
  /-- The key itself. -/
  contents : Contents
  deriving DecidableEq, Repr

/-- A value and where it begins. -/
inductive Node where
  | null (start : Start)
  | boolean (start : Start) (value : Bool)
  | number (start : Start) (literal : Literal)
  | text (start : Start) (contents : Contents)
  | array (start : Start) (items : List Node)
  | object (start : Start) (members : List (Key × Node))
  deriving Repr

namespace Node

/-- Where a value begins. -/
def start : Node → Start
  | null s | boolean s _ | number s _ | text s _ | array s _ | object s _ => s

/-- A value that is a single token. -/
def ofToken? (s : Start) : Token → Option Node
  | .number literal => some (number s literal)
  | .text contents => some (text s contents)
  | .word (some "null") true => some (null s)
  | .word (some "true") true => some (boolean s true)
  | .word (some "false") true => some (boolean s false)
  | .word (some "Infinity") true => some (number s (.infinity none))
  | .word (some "NaN") true => some (number s (.nan none))
  | _ => none

end Node

/-- A key that is a single token. -/
def Key.ofToken? (s : Start) : Token → Option Key
  | .text contents | .word contents _ => some ⟨s, contents⟩
  | _ => none

namespace Node

mutual

/-- A value at the beginning of some tokens, and what follows it. -/
def value? : Nat → List Lexeme → Option (Node × List Lexeme)
  | 0, _ | _ + 1, [] => none
  | fuel + 1, lexeme :: rest =>
    match lexeme.token with
    | .openBracket => do
      let (items, rest) ← items? fuel true rest
      return (array lexeme.start items, rest)
    | .openBrace => do
      let (members, rest) ← members? fuel true rest
      return (object lexeme.start members, rest)
    | token => (ofToken? lexeme.start token).map fun node => (node, rest)

/-- The items of an array up to its closing bracket, and what follows that.  A comma may stand after
the last item, but not alone: only an array without any item closes at `first`. -/
def items? : Nat → Bool → List Lexeme → Option (List Node × List Lexeme)
  | 0, _, _ => none
  | fuel + 1, first, lexemes =>
    match first, lexemes with
    | true, ⟨_, .closeBracket⟩ :: rest => some ([], rest)
    | _, _ => do
      let (item, rest) ← value? fuel lexemes
      match rest with
      | ⟨_, .closeBracket⟩ :: rest => return ([item], rest)
      | ⟨_, .comma⟩ :: ⟨_, .closeBracket⟩ :: rest => return ([item], rest)
      | ⟨_, .comma⟩ :: rest =>
        let (items, rest) ← items? fuel false rest
        return (item :: items, rest)
      | _ => none

/-- The members of an object up to its closing brace, and what follows that. -/
def members? : Nat → Bool → List Lexeme → Option (List (Key × Node) × List Lexeme)
  | 0, _, _ => none
  | fuel + 1, first, lexemes =>
    match first, lexemes with
    | true, ⟨_, .closeBrace⟩ :: rest => some ([], rest)
    | _, ⟨s, token⟩ :: ⟨_, .colon⟩ :: rest => do
      let key ← Key.ofToken? s token
      let (value, rest) ← value? fuel rest
      match rest with
      | ⟨_, .closeBrace⟩ :: rest => return ([(key, value)], rest)
      | ⟨_, .comma⟩ :: ⟨_, .closeBrace⟩ :: rest => return ([(key, value)], rest)
      | ⟨_, .comma⟩ :: rest =>
        let (members, rest) ← members? fuel false rest
        return ((key, value) :: members, rest)
      | _ => none
    | _, _ => none

end

/-- The value that some tokens make up, with none left over. -/
def ofLexemes? (lexemes : List Lexeme) : Option Node :=
  match value? (2 * lexemes.length + 2) lexemes with
  | some (node, []) => some node
  | _ => none

/-- The value of a text, unless the text is not one. -/
def parse? (text : String) : Option Node := (scan? text).bind ofLexemes?

end Node

end TickHost.Json5
