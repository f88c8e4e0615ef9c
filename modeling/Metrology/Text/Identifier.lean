/-
Names as text: a letter of any script or an underscore, then letters,
digits, marks and connectors. Words with a meaning of their own are names
too; the class is about spelling only.
-/
import Metrology.Text.Identifier.Start
import Metrology.Text.Identifier.Continue
import Metrology.Text.Digit

namespace Metrology.Text

/-- May begin a name. -/
def isNameStart (c : Char) : Bool :=
  if c.toNat < 0x80 then isAsciiLetter c || c == '_'
  else inRanges identifierStartRanges c

/-- May continue a name. -/
def isNameChar (c : Char) : Bool :=
  if c.toNat < 0x80 then isAsciiLetter c || c == '_' || isAsciiDigit c
  else inRanges identifierStartRanges c || inRanges identifierContinueRanges c

/-- The text is spelled like a name. -/
def isName (s : String) : Bool :=
  match s.toList with
  | [] => false
  | c :: cs => isNameStart c && cs.all isNameChar

end Metrology.Text
