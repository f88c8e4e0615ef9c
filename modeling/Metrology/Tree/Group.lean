/-
Brackets. A row of tokens is first cut into pieces: single tokens, and
groups with everything between an outermost bracket and its partner. A
group's inside stays a row of tokens and is cut up in turn when it is
read.

Brackets of all three families must nest. Where they do not, the cut ends
in a broken piece that carries the error, so what stands before it is
still read first.
-/
import Metrology.Token

namespace Metrology.Tree

/-- A part of a row of tokens. -/
inductive Piece where
  | token (t : Token)
  | group (b : Bracket) (inside : List Token)
  /-- From here on the brackets do not match. -/
  | broken (e : ParseError)

/-- A group that is still open: its bracket, the brackets open inside it
(innermost first), and its tokens so far (last first). -/
structure OpenGroup where
  bracket : Bracket
  nested : List Bracket := []
  inside : List Token := []

namespace OpenGroup

def push (g : OpenGroup) (t : Token) : OpenGroup :=
  { g with inside := t :: g.inside }

/-- The bracket that has to close next. -/
def innermost (g : OpenGroup) : Bracket := g.nested.headD g.bracket

end OpenGroup

/-- The pieces from a place onwards, inside the open group if there is
one. -/
def piecesFrom (g? : Option OpenGroup) : List Token → List Piece
  | [] =>
      match g? with
      | none => []
      | some g =>
          [.broken (.unclosedBracket g.bracket.opening g.bracket.closing)]
  | t :: ts =>
      match g?, t.lexeme with
      | none, .opening b => piecesFrom (some { bracket := b }) ts
      | none, .closing b =>
          [.broken (.unopenedBracket b.closing t.position)]
      | none, _ => .token t :: piecesFrom none ts
      | some g, .opening b =>
          piecesFrom (some { g.push t with nested := b :: g.nested }) ts
      | some g, .closing b =>
          if b ≠ g.innermost then
            [.broken (.mismatchedBracket b.closing t.position)]
          else
            match g.nested with
            | [] => .group g.bracket g.inside.reverse :: piecesFrom none ts
            | _ :: nested =>
                piecesFrom (some { g.push t with nested := nested }) ts
      | some g, _ => piecesFrom (some (g.push t)) ts

/-- The pieces of a row of tokens. -/
def pieces (ts : List Token) : List Piece := piecesFrom none ts

-- ========================================================== separators

/-- How deep a token leaves the brackets around it. -/
def depthAfter (depth : Nat) : Lexeme → Nat
  | .opening _ => depth + 1
  | .closing _ => depth - 1
  | _ => depth

/-- The parts between the separators that no bracket encloses, one more
than there are separators. -/
def splitFrom (isSeparator : Lexeme → Bool) (depth : Nat) :
    List Token → List (List Token)
  | [] => [[]]
  | t :: ts =>
      if depth = 0 && isSeparator t.lexeme then
        [] :: splitFrom isSeparator depth ts
      else
        match splitFrom isSeparator (depthAfter depth t.lexeme) ts with
        | [] => [[t]]
        | part :: parts => (t :: part) :: parts

def isComma : Lexeme → Bool
  | .comma => true
  | _ => false

def isSemicolon : Lexeme → Bool
  | .semicolon => true
  | _ => false

/-- The arguments or cells of a row. -/
def splitCommas (ts : List Token) : List (List Token) := splitFrom isComma 0 ts

/-- The statements of a block or the rows of a matrix. -/
def splitSemicolons (ts : List Token) : List (List Token) :=
  splitFrom isSemicolon 0 ts

end Metrology.Tree
