/-
What a console shows of a text. Control characters that would move the
cursor are dropped and tabs become spaces; everything else is shown as it
is.
-/
import Metrology.Text.Width

namespace Metrology.Console

/-- Bell, backspace, vertical tab, form feed and carriage return. -/
def isDropped (c : Char) : Bool :=
  Text.inRanges [(0x07, 0x08), (0x0B, 0x0D)] c

/-- The characters shown for a text that starts a line. -/
def plainChars (cs : List Char) : List Char :=
  Text.expandTabs 0 (cs.filter (!isDropped ·))

/-- The text as it is shown. -/
def plain (s : String) : String := String.ofList (plainChars s.toList)

end Metrology.Console
