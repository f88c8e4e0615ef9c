/-
Blank space. Two classes are in use: white space is the Unicode property
White_Space, which a written integer may carry around it; blank adds the
four ASCII information separators, and is what trimming removes from the
ends of a text.
-/
import Metrology.Text.Range

namespace Metrology.Text

/-- The white space code points, in ascending order. -/
def whiteSpaceRanges : List Range :=
  [ (0x09, 0x0D), (0x20, 0x20), (0x85, 0x85), (0xA0, 0xA0),
    (0x1680, 0x1680), (0x2000, 0x200A), (0x2028, 0x2029),
    (0x202F, 0x202F), (0x205F, 0x205F), (0x3000, 0x3000) ]

def isWhiteSpace (c : Char) : Bool := inRanges whiteSpaceRanges c

/-- White space or an information separator (FS, GS, RS, US). -/
def isBlank (c : Char) : Bool :=
  isWhiteSpace c || inRanges [(0x1C, 0x1F)] c

-- ========================================================== trimming

/-- The list without the leading and trailing members of a class. -/
def trimChars (p : Char → Bool) (cs : List Char) : List Char :=
  ((cs.dropWhile p).reverse.dropWhile p).reverse

/-- The text without the blanks at its ends. -/
def trim (s : String) : String := String.ofList (trimChars isBlank s.toList)

end Metrology.Text
