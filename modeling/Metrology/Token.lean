/-
Tokens: the words of a program. A token is a lexeme and the place, in
clusters, where it starts. A unit block carries the scale it names, so a
program with an unknown unit has no tokens at all.
-/
import Metrology.Operator
import Metrology.Scale.Symbol

namespace Metrology

/-- The three families of brackets. -/
inductive Bracket where
  | paren
  | brace
  | square
deriving DecidableEq, Repr

namespace Bracket

/-- The opening bracket as text. -/
def opening : Bracket → String
  | .paren => "("
  | .brace => "\x7b"
  | .square => "["

/-- The closing bracket as text. -/
def closing : Bracket → String
  | .paren => ")"
  | .brace => "\x7d"
  | .square => "]"

end Bracket

/-- What a token says. -/
inductive Lexeme where
  | opening (b : Bracket)
  | closing (b : Bracket)
  | comma
  | semicolon
  | name (text : String)
  /-- Digits and points as written, and the unit symbol behind them. -/
  | number (text decorator : String)
  | operator (op : Operator)
  | keyword (word : String)
  /-- The inside of a unit block, and its scale. -/
  | unitBlock (text : String) (scale : Scale)
  /-- A string, its escapes resolved but for those of interpolation. -/
  | template (text : String)

namespace Lexeme

/-- The lexeme's text, without delimiters. -/
def text : Lexeme → String
  | .opening b => b.opening
  | .closing b => b.closing
  | .comma => ","
  | .semicolon => ";"
  | .name text => text
  | .number text _ => text
  | .operator op => op.symbol
  | .keyword word => word
  | .unitBlock text _ => text
  | .template text => text

/-- The lexeme as it is listed for inspection. -/
def describe : Lexeme → String
  | .number text decorator => s!"NUM\x7b{text}, \"{decorator}\"\x7d"
  | .name text => s!"ID\x7b{text}\x7d"
  | .operator op => s!"OP\x7b{op.symbol}\x7d"
  | .keyword word => s!"KW\x7b{word}\x7d"
  | .unitBlock text _ => s!"UNIT|{text}|"
  | .template text => s!"STR\"{text}\""
  | l => l.text

end Lexeme

/-- A lexeme and the position of its first cluster. -/
structure Token where
  lexeme : Lexeme
  position : Nat

end Metrology
