import TickHost.Json5.Literal
import TickHost.Text.Letters
import TickHost.Text.Marks

/-!
# Tokens

A text is a sequence of tokens with gaps of blanks and comments between them.  Each token keeps the
place of its first character, and whether the character after that is an ASCII one.

The modules `TickHost.Json5` say what the reader `serde_json5` makes of a text, which is not part of
the sources of the host.  Its grammar is that of JSON5, with its blanks, comments, trailing commas,
numbers, quotes and escapes; the exceptions stand beside the definitions that have them.
-/

namespace TickHost.Json5

/-! ## 1. Places -/

/-- A place in a text; lines and columns count from one. -/
structure Place where
  /-- The line. -/
  line : Nat
  /-- The column, in characters. -/
  column : Nat
  deriving DecidableEq, Repr

/-- The place after a character.  A line feed ends a line; a carriage return alone is a column. -/
def Place.after (p : Place) (c : Char) : Place :=
  if c == '\n' then ⟨p.line + 1, 1⟩ else ⟨p.line, p.column + 1⟩

/-- A character and where it stands. -/
structure Spot where
  /-- The place of the character. -/
  place : Place
  /-- The character. -/
  char : Char
  deriving DecidableEq, Repr

/-- The characters of a text with their places, the first of them at `p`. -/
def spotsFrom (p : Place) : List Char → List Spot
  | [] => []
  | c :: rest => ⟨p, c⟩ :: spotsFrom (p.after c) rest

/-- The characters of a text with their places. -/
def spots (text : String) : List Spot := spotsFrom ⟨1, 1⟩ text.toList

/-! ## 2. Token kinds -/

/-- The characters of a string or a name, unless an escape in it names half of a surrogate pair. -/
abbrev Contents : Type := Option String

/-- A token. -/
inductive Token where
  | openBrace
  | closeBrace
  | openBracket
  | closeBracket
  | comma
  | colon
  /-- A number. -/
  | number (literal : Literal)
  /-- A string. -/
  | text (contents : Contents)
  /-- A name, and whether it was written without escapes. -/
  | word (contents : Contents) (plain : Bool)
  deriving DecidableEq, Repr

/-- The beginning of a token. -/
structure Start where
  /-- The place of its first character. -/
  place : Place
  /-- Whether the character after its first one is more than one byte wide. -/
  wide : Bool
  deriving DecidableEq, Repr

/-- A token and its beginning. -/
structure Lexeme where
  /-- Where and how the token begins. -/
  start : Start
  /-- The token. -/
  token : Token
  deriving DecidableEq, Repr

/-! ## 3. Classes of characters -/

/-- Whether a character ends a line. -/
def isLineEnd (c : Char) : Bool :=
  c == '\n' || c == '\r' || c.toNat == 0x2028 || c.toNat == 0x2029

/-- Whether a character may stand between tokens. -/
def isGap (c : Char) : Bool :=
  let n := c.toNat
  isLineEnd c || n == 0x9 || n == 0xB || n == 0xC || n == 0x20 || n == 0xA0 || n == 0xFEFF
    || n == 0x1680 || (0x2000 ≤ n && n ≤ 0x200A) || n == 0x202F || n == 0x205F || n == 0x3000

/-- The value of a hexadecimal digit. -/
def hexDigit? (c : Char) : Option Nat :=
  if '0' ≤ c && c ≤ '9' then some (c.toNat - 48)
  else if 'a' ≤ c && c ≤ 'f' then some (c.toNat - 87)
  else if 'A' ≤ c && c ≤ 'F' then some (c.toNat - 55)
  else none

/-- The value of a decimal digit. -/
def digit? (c : Char) : Option Nat := if '0' ≤ c && c ≤ '9' then some (c.toNat - 48) else none

/-- Whether a name may begin with a character. -/
def isNameStart (c : Char) : Bool := Text.isLetter c || c == '$' || c == '_'

/-- Whether a name may go on with a character. -/
def isNamePart (c : Char) : Bool :=
  isNameStart c || Text.isMark c || c.toNat == 0x200C || c.toNat == 0x200D

/-! ## 4. Gaps -/

/-- What follows the end of a block comment, if it ends. -/
def afterBlock? : List Spot → Option (List Spot)
  | [] => none
  | [_] => none
  | a :: b :: rest =>
    if a.char == '*' && b.char == '/' then some rest else afterBlock? (b :: rest)

/-- What follows a comment whose first slash has been read. -/
def afterComment? : List Spot → Option (List Spot)
  | [] => none
  | s :: rest =>
    if s.char == '*' then afterBlock? rest
    else if s.char == '/' then some (rest.dropWhile fun s => !isLineEnd s.char)
    else none

/-! ## 5. Numbers -/

/-- The longest run of digits, and what follows it. -/
def digitsOf (value? : Char → Option Nat) : List Spot → List Nat × List Spot
  | [] => ([], [])
  | s :: rest =>
    match value? s.char with
    | some d => let (ds, after) := digitsOf value? rest; (d :: ds, after)
    | none => ([], s :: rest)

/-- A sign, if one is written, and what follows it. -/
def signOf : List Spot → Option Sign × List Spot
  | [] => (none, [])
  | s :: rest =>
    if s.char == '+' then (some .plus, rest)
    else if s.char == '-' then (some .minus, rest)
    else (none, s :: rest)

/-- What follows a word, if the characters begin with it. -/
def afterWord? : List Char → List Spot → Option (List Spot)
  | [], rest => some rest
  | _ :: _, [] => none
  | c :: word, s :: rest => if s.char == c then afterWord? word rest else none

/-- The exponent of a decimal, if a whole one is written, and what follows it. -/
def exponentOf (spots : List Spot) : Option Int × List Spot :=
  match spots with
  | [] => (none, spots)
  | s :: rest =>
    if s.char == 'e' || s.char == 'E' then
      let (sign, rest) := signOf rest
      match digitsOf digit? rest with
      | ([], _) => (none, spots)
      | (ds, rest) =>
        let n : Int := ofDigits 10 ds
        (some (if sign = some .minus then -n else n), rest)
    else (none, spots)

/-- Whether the next character is a point. -/
def atPoint : List Spot → Bool
  | [] => false
  | s :: _ => s.char == '.'

/-- The digits before the point: a zero alone, or digits that do not begin with zero. -/
def wholeOf : List Spot → List Nat × List Spot
  | [] => ([], [])
  | s :: rest => if s.char == '0' then ([0], rest) else digitsOf digit? (s :: rest)

/-- A decimal after its sign.  Digits must stand before the point or after it. -/
def decimal? (sign : Option Sign) (spots : List Spot) : Option (Literal × List Spot) :=
  let (whole, rest) := wholeOf spots
  if atPoint rest then
    let (fraction, rest) := digitsOf digit? rest.tail
    if whole.isEmpty && fraction.isEmpty then none
    else
      let (exponent, rest) := exponentOf rest
      some (.decimal sign whole (some fraction) exponent, rest)
  else if whole.isEmpty then none
  else
    let (exponent, rest) := exponentOf rest
    some (.decimal sign whole none exponent, rest)

/-- Hexadecimal digits after their mark, if there are any. -/
def hex? (sign : Option Sign) : List Spot → Option (Literal × List Spot)
  | zero :: x :: rest =>
    if zero.char == '0' && (x.char == 'x' || x.char == 'X') then
      match digitsOf hexDigit? rest with
      | ([], _) => none
      | (ds, rest) => some (.hex sign ds, rest)
    else none
  | _ => none

/-- A number that begins with a sign, a digit or a point. -/
def number? (spots : List Spot) : Option (Literal × List Spot) :=
  let (sign, rest) := signOf spots
  match afterWord? "Infinity".toList rest with
  | some rest => some (.infinity sign, rest)
  | none =>
    match afterWord? "NaN".toList rest with
    | some rest => some (.nan sign, rest)
    | none => (hex? sign rest).or (decimal? sign rest)

/-! ## 6. Strings and names -/

/-- The character with a code point, unless that is half of a surrogate pair. -/
def charAt? (n : Nat) : Option Char :=
  if 0xD800 ≤ n && n ≤ 0xDFFF then none else some (Char.ofNat n)

/-- Exactly `n` hexadecimal digits as a number, and what follows them. -/
def hexRun? : Nat → Nat → List Spot → Option (Nat × List Spot)
  | 0, value, rest => some (value, rest)
  | _ + 1, _, [] => none
  | n + 1, value, s :: rest => do
    let d ← hexDigit? s.char
    hexRun? n (16 * value + d) rest

/-- What an escape stands for, after its backslash: one character or one that is no character, or
nothing at all when a line is continued. -/
def escape? : List Spot → Option (List (Option Char) × List Spot)
  | [] => none
  | s :: rest =>
    match s.char with
    | 'x' => (hexRun? 2 0 rest).map fun (n, rest) => ([charAt? n], rest)
    | 'u' => (hexRun? 4 0 rest).map fun (n, rest) => ([charAt? n], rest)
    | 'b' => some ([some '\x08'], rest)
    | 'f' => some ([some '\x0c'], rest)
    | 'n' => some ([some '\n'], rest)
    | 'r' => some ([some '\r'], rest)
    | 't' => some ([some '\t'], rest)
    | 'v' => some ([some '\x0b'], rest)
    | '0' => some ([some '\x00'], rest)
    | '\r' =>
      match rest with
      | [] => some ([], [])
      | t :: after => some ([], if t.char == '\n' then after else rest)
    | c =>
      if isLineEnd c then some ([], rest)
      else if c.isDigit then none
      else some ([some c], rest)

/-- The characters of a string up to its closing quote, and what follows it. -/
def textBody? (quote : Char) : Nat → List Spot → Option (List (Option Char) × List Spot)
  | 0, _ | _ + 1, [] => none
  | fuel + 1, s :: rest =>
    if s.char == quote then some ([], rest)
    else if s.char == '\\' then do
      let (cs, rest) ← escape? rest
      let (more, rest) ← textBody? quote fuel rest
      return (cs ++ more, rest)
    else if isLineEnd s.char then none
    else do
      let (more, rest) ← textBody? quote fuel rest
      return (some s.char :: more, rest)

/-- The next character of a name, and whether it is written without an escape. -/
def nameChar? (allowed : Char → Bool) : List Spot → Option (Option Char × Bool × List Spot)
  | [] => none
  | s :: rest =>
    if s.char == '\\' then do
      let rest ← afterWord? ['u'] rest
      let (n, rest) ← hexRun? 4 0 rest
      return (charAt? n, false, rest)
    else if allowed s.char then some (some s.char, true, rest)
    else none

/-- The rest of a name, as long as it goes. -/
def nameBody : Nat → List Spot → List (Option Char) × Bool × List Spot
  | 0, spots => ([], true, spots)
  | fuel + 1, spots =>
    match nameChar? isNamePart spots with
    | none => ([], true, spots)
    | some (c, plain, rest) =>
      let (more, allPlain, rest) := nameBody fuel rest
      (c :: more, plain && allPlain, rest)

/-- The contents made of single characters. -/
def contentsOf (cs : List (Option Char)) : Contents := (cs.mapM id).map String.ofList

/-- A name: a character that may begin one, and all that goes on with it. -/
def name? (spots : List Spot) : Option (Token × List Spot) := do
  let (c, plain, rest) ← nameChar? isNameStart spots
  let (more, allPlain, rest) := nameBody rest.length rest
  return (.word (contentsOf (c :: more)) (plain && allPlain), rest)

/-! ## 7. Scanning -/

/-- The token that begins with the first of some characters, and what follows it. -/
def token? (s : Spot) (rest : List Spot) : Option (Token × List Spot) :=
  match s.char with
  | '\x7b' => some (.openBrace, rest)
  | '\x7d' => some (.closeBrace, rest)
  | '[' => some (.openBracket, rest)
  | ']' => some (.closeBracket, rest)
  | ',' => some (.comma, rest)
  | ':' => some (.colon, rest)
  | '\"' | '\'' =>
    (textBody? s.char (rest.length + 1) rest).map fun (cs, rest) => (.text (contentsOf cs), rest)
  | c =>
    if c == '+' || c == '-' || c == '.' || c.isDigit then
      (number? (s :: rest)).map fun (literal, rest) => (.number literal, rest)
    else name? (s :: rest)

/-- The beginning of a token, given its first character and those that follow. -/
def Start.ofSpots (s : Spot) (rest : List Spot) : Start :=
  ⟨s.place, rest.head?.any fun next => 0x80 ≤ next.char.toNat⟩

/-- The tokens of some characters, within `fuel` gaps and tokens. -/
def scanFrom : Nat → List Spot → Option (List Lexeme)
  | _, [] => some []
  | 0, _ :: _ => none
  | fuel + 1, s :: rest =>
    if isGap s.char then scanFrom fuel rest
    else if s.char == '/' then (afterComment? rest).bind (scanFrom fuel)
    else do
      let (token, after) ← token? s rest
      let more ← scanFrom fuel after
      return ⟨.ofSpots s rest, token⟩ :: more

/-- The tokens of a text, if it is made of tokens and gaps. -/
def scan? (text : String) : Option (List Lexeme) :=
  let spots := spots text
  scanFrom spots.length spots

end TickHost.Json5
