import StartEnd.Text.CodeRange

/-!
# White space

Blank characters are those with the `White_Space` property: the ASCII controls
from tab to carriage return, the space, and the wider spaces and separators of
other scripts. They separate tokens, and a displayed source line is shown
without the ones at its ends.
-/

namespace StartEnd.Text

/-- The 25 code points with the `White_Space` property. -/
def blankRanges : List (Nat × Nat) :=
  [(0x9, 0xd), (0x20, 0x20), (0x85, 0x85), (0xa0, 0xa0), (0x1680, 0x1680),
    (0x2000, 0x200a), (0x2028, 0x2029), (0x202f, 0x202f), (0x205f, 0x205f),
    (0x3000, 0x3000)]

/-- Whether a character is white space. -/
def isBlank (character : Char) : Bool := covered blankRanges character

/-- The text without the blank characters at its start and at its end. -/
def trimBlank (text : List Char) : List Char :=
  ((text.dropWhile isBlank).reverse.dropWhile isBlank).reverse

end StartEnd.Text
