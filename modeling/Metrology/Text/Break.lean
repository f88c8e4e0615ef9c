/-
Grapheme break classes: what each code point does at the border between
two clusters, by the Unicode property Grapheme_Cluster_Break, with the
pictographs that joiners tie together as a class of their own.
-/
import Metrology.Text.Break.Extend
import Metrology.Text.Break.Spacing
import Metrology.Text.Break.Pictograph

namespace Metrology.Text

/-- How a code point behaves at a cluster border. -/
inductive BreakClass where
  | carriageReturn
  | lineFeed
  /-- Stands alone: controls, format characters, line separators. -/
  | control
  /-- Continues the cluster before it. -/
  | extend
  /-- The zero-width joiner, which also ties two pictographs. -/
  | joiner
  /-- Continues the cluster before it, with a glyph of its own. -/
  | spacingMark
  /-- Draws the character after it into its cluster. -/
  | prepend
  /-- Regional indicators pair up into flags. -/
  | regional
  | pictograph
  /-- Hangul: leading consonant, vowel, trailing consonant, and the
  composed syllables without and with a trailing consonant. -/
  | hangulL
  | hangulV
  | hangulT
  | hangulLV
  | hangulLVT
  | other
deriving DecidableEq, Repr

/-- The code points beyond Latin-1 that stand alone. -/
def controlRanges : List Range :=
  [ (0x61C, 0x61C), (0x180E, 0x180E), (0x200B, 0x200B), (0x200E, 0x200F),
    (0x2028, 0x202E), (0x2060, 0x206F), (0xFEFF, 0xFEFF), (0xFFF0, 0xFFFB),
    (0x13430, 0x1343F), (0x1BCA0, 0x1BCA3), (0x1D173, 0x1D17A),
    (0xE0000, 0xE001F), (0xE0080, 0xE00FF), (0xE01F0, 0xE0FFF) ]

/-- The code points that draw the next character into their cluster. -/
def prependRanges : List Range :=
  [ (0x600, 0x605), (0x6DD, 0x6DD), (0x70F, 0x70F), (0x890, 0x891),
    (0x8E2, 0x8E2), (0xD4E, 0xD4E), (0x110BD, 0x110BD), (0x110CD, 0x110CD),
    (0x111C2, 0x111C3), (0x1193F, 0x1193F), (0x11941, 0x11941),
    (0x11A3A, 0x11A3A), (0x11A84, 0x11A89), (0x11D46, 0x11D46),
    (0x11F02, 0x11F02) ]

/-- The class of a code point beyond Latin-1. -/
def wideBreakClass (c : Char) : BreakClass :=
  if c.toNat = 0x200D then .joiner
  else if inRanges controlRanges c then .control
  else if inRanges extendRanges c then .extend
  else if inRanges spacingMarkRanges c then .spacingMark
  else if inRanges prependRanges c then .prepend
  else if inRanges [(0x1F1E6, 0x1F1FF)] c then .regional
  else if inRanges [(0x1100, 0x115F), (0xA960, 0xA97C)] c then .hangulL
  else if inRanges [(0x1160, 0x11A7), (0xD7B0, 0xD7C6)] c then .hangulV
  else if inRanges [(0x11A8, 0x11FF), (0xD7CB, 0xD7FB)] c then .hangulT
  else if inRanges [(0xAC00, 0xD7A3)] c then
    if (c.toNat - 0xAC00) % 28 = 0 then .hangulLV else .hangulLVT
  else if inRanges pictographRanges c then .pictograph
  else .other

/-- The class of a code point. In ASCII only the controls are special. -/
def breakClass (c : Char) : BreakClass :=
  if c = '\r' then .carriageReturn
  else if c = '\n' then .lineFeed
  else if c.toNat < 0x20 then .control
  else if c.toNat < 0x7F then .other
  else if c.toNat < 0xA0 then .control
  else if c.toNat = 0xAD then .control
  else if c.toNat = 0xA9 || c.toNat = 0xAE then .pictograph
  else if c.toNat < 0x300 then .other
  else wideBreakClass c

end Metrology.Text
