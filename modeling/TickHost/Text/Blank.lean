/-!
# White space

The characters with the property White_Space, in the ranges that the standard gives them.
-/

namespace TickHost.Text

/-- Whether a character is white space: the controls from tab to carriage return, the space, the
next line, and the spaces and separators beyond ASCII. -/
def isBlank (c : Char) : Bool :=
  let n := c.toNat
  (0x9 ≤ n && n ≤ 0xD) || n == 0x20 || n == 0x85 || n == 0xA0 || n == 0x1680
    || (0x2000 ≤ n && n ≤ 0x200A) || n == 0x2028 || n == 0x2029 || n == 0x202F || n == 0x205F
    || n == 0x3000

/-- Whether a text holds white space only. -/
def isBlankText (s : String) : Bool := s.toList.all isBlank

end TickHost.Text
