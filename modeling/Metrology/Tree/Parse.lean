/-
From tokens to trees. The pieces of a row become the items of a level:
numbers, names and strings stand for themselves, a name before a group is
a call or an index, and a group is read by itself, part by part. The
level is then reduced to one tree.

Reading a group goes one bracket deeper, so the number of tokens bounds
the depth; `parseWithin` counts it down. At zero only the empty row is
left, whose tree is empty, so the bound is never felt.
-/
import Metrology.Tree.Group
import Metrology.Tree.Level
import Metrology.Numeral.Read

namespace Metrology.Tree

-- ============================================================== groups

/-- How the inside of a group is read. -/
abbrev Reader := List Token → Except ParseError Tree

/-- The arguments of a call, or the indices of a matrix. -/
def readArguments (read : Reader) (inside : List Token) :
    Except ParseError (List Tree) :=
  if inside.isEmpty then .ok [] else (splitCommas inside).mapM read

/-- The statements of a block. -/
def readBlock (read : Reader) (inside : List Token) :
    Except ParseError Tree := do
  if inside.isEmpty then return .leaf .block
  return .mk .block (← (splitSemicolons inside).mapM read)

/-- The cells of a row, which has to be as wide as the first one. -/
def readRow (read : Reader) (width : Nat) (row : List (List Token)) :
    Except ParseError (List Tree) :=
  if row.length ≠ width then .error (.raggedMatrix width row.length)
  else row.mapM read

/-- A matrix, row by row. -/
def readMatrix (read : Reader) (inside : List Token) :
    Except ParseError Tree := do
  if inside.isEmpty then return .leaf (.matrix 0 0)
  let rows := (splitSemicolons inside).map splitCommas
  let width := (rows.head?.map List.length).getD 0
  let cells ← rows.mapM (readRow read width)
  return .mk (.matrix width rows.length) cells.flatten

/-- A group in round brackets. Without content it has no value. -/
def readGroup (read : Reader) (inside : List Token) :
    Except ParseError Item := do
  if inside.isEmpty then return .waiting .empty
  return .done (← read inside)

-- =============================================================== items

/-- The item of a token that stands by itself. -/
def ofToken (t : Token) : Except ParseError Item :=
  match t.lexeme with
  | .number text decorator =>
      match Numeral.read? text with
      | some value => .ok (.done (leaf (.number value decorator)))
      | none => .error (.malformedNumber text t.position)
  | .operator op => .ok (.waiting (.operator op))
  | .keyword word => .ok (.waiting (.keyword word))
  | .name name => .ok (.done (leaf (.variable name)))
  | .unitBlock text scale => .ok (.waiting (.unitBlock text scale))
  | .template text => .ok (.done (leaf (.template text)))
  | .comma => .error (.strayToken "," t.position)
  | .semicolon => .error (.strayToken ";" t.position)
  | .opening b => .error (.unclosedBracket b.opening b.closing)
  | .closing b => .error (.unopenedBracket b.closing t.position)

/-- The name a token is. -/
def name? (t : Token) : Option String :=
  match t.lexeme with
  | .name name => some name
  | _ => none

/-- The items of a row of pieces. -/
def items (read : Reader) : List Piece → Except ParseError Level
  | [] => .ok []
  | .broken e :: _ => .error e
  | .token t :: .group b inside :: rest =>
      match name? t, b with
      | some name, .paren => do
          let arguments ← readArguments read inside
          return .done (.mk (.call name) arguments) :: (← items read rest)
      | some name, .square => do
          let indices ← readArguments read inside
          return .done (.mk (.index name) indices) :: (← items read rest)
      | _, _ => do
          let i ← ofToken t
          return i :: (← items read (.group b inside :: rest))
  | .token t :: rest => do
      let i ← ofToken t
      return i :: (← items read rest)
  | .group .paren inside :: rest => do
      let i ← readGroup read inside
      return i :: (← items read rest)
  | .group .brace inside :: rest => do
      let t ← readBlock read inside
      return .done t :: (← items read rest)
  | .group .square inside :: .group .square indices :: rest => do
      let target ← readMatrix read inside
      let indices ← readArguments read indices
      return .done (.mk (.index none) (target :: indices))
        :: (← items read rest)
  | .group .square inside :: rest => do
      let t ← readMatrix read inside
      return .done t :: (← items read rest)

-- =============================================================== trees

/-- The tree of a row of tokens whose brackets are at most that deep. -/
def parseWithin : Nat → Reader
  | 0, _ => .ok empty
  | _ + 1, [] => .ok empty
  | depth + 1, t :: ts => do
      reduce (← items (parseWithin depth) (pieces (t :: ts)))

/-- The tree of a row of tokens. -/
def parse (ts : List Token) : Except ParseError Tree :=
  parseWithin ts.length ts

end Metrology.Tree
