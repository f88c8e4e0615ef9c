/-
Levels. What stands between two brackets is a level: a row of items, each
either a complete tree or a node still waiting for its operands. Passes,
one per tier of precedence, let the waiting nodes take their neighbours,
until a single complete tree is left.

Within a tier the items are taken in the direction the tier associates:
signs from the right, so that they stack; units, queries and binary
operators from the left; else-branches from the right, so that each goes
to the last `if`.
-/
import Metrology.Tree
import Metrology.Error

namespace Metrology.Tree

/-- A place in a level. -/
inductive Item where
  /-- A complete operand. -/
  | done (t : Tree)
  /-- An operator, keyword or unit without its operands, or an empty
  group. -/
  | waiting (n : Node)

namespace Item

def hasValue : Item → Bool
  | .done _ => true
  | .waiting _ => false

def label : Item → String
  | .done t => t.label
  | .waiting n => n.label

def describe : Item → String
  | .done t => t.describe
  | .waiting n => n.label

/-- A waiting operator. -/
def waitingOperator? : Item → Option Operator
  | .waiting (.operator op) => some op
  | _ => none

/-- A waiting operator out of a list. -/
def isWaiting (ops : List Operator) (i : Item) : Bool :=
  i.waitingOperator?.any ops.contains

/-- No operand to the right of it can have it as its left neighbour. -/
def isPlaceholder : Item → Bool
  | .waiting (.operator _) | .waiting (.keyword _) | .waiting .empty => true
  | _ => false

def isUnitBlock : Item → Bool
  | .waiting (.unitBlock _ _) => true
  | _ => false

def isKeyword (word : String) : Item → Bool
  | .waiting (.keyword w) => w == word
  | _ => false

def isBlock : Item → Bool
  | .done (.mk .block _) => true
  | _ => false

def isVariable : Item → Bool
  | .done (.mk (.variable _) _) => true
  | _ => false

/-- A conditional with its condition and at least one branch. -/
def isIf : Item → Bool
  | .done (.mk (.operator .ifThen) _) => true
  | _ => false

/-- The tree of a complete operand. -/
def tree : Item → Tree
  | .done t => t
  | .waiting n => leaf n

def node : Item → Node
  | .done t => t.node
  | .waiting n => n

/-- The item with its operands attached. -/
def attach (i : Item) (operands : List Item) : Item :=
  .done (.mk i.node (operands.map tree))

end Item

abbrev Level := List Item

-- ============================================== signs before operands

/-- Signs that stand before their operand when nothing complete stands to
their left. -/
def leadingSigns : List Operator :=
  [.plus, .minus, .valueOf, .uncertaintyOf]

/-- The item takes the operand to its right: negation always, a sign
where no operand stands before it. -/
def isLeading (left : Option Item) (i : Item) : Bool :=
  i.isWaiting [.lnot] ||
    (i.isWaiting leadingSigns && left.all Item.isPlaceholder)

/-- Attaches signs to the operand behind them, the last sign first. -/
def attachLeading (left : Option Item) : Level → Except ParseError Level
  | [] => .ok []
  | i :: rest => do
      match ← attachLeading (some i) rest with
      | [] => return [i]
      | right :: rest' =>
          if isLeading left i then
            if right.hasValue then return i.attach [right] :: rest'
            else
              let symbol := (i.waitingOperator?.map Operator.symbol).getD ""
              throw (.signWithoutOperand symbol right.label)
          else return i :: right :: rest'

-- ====================================== queries and units behind them

/-- Attaches the wanted items to the operand before them, from the
left; `left` is the item before the level. -/
def attachTrailingTo (wanted : Item → Bool) (left : Item) :
    Level → Except ParseError Level
  | [] => .ok [left]
  | i :: rest =>
      if wanted i then
        if left.hasValue then
          attachTrailingTo wanted (i.attach [left]) rest
        else .error (.nothingBefore left.label i.label)
      else do return left :: (← attachTrailingTo wanted i rest)

def attachTrailing (wanted : Item → Bool) : Level → Except ParseError Level
  | [] => .ok []
  | i :: rest => attachTrailingTo wanted i rest

-- =================================================== binary operators

/-- Attaches the operators of a tier to their neighbours, from the left;
`left` is the item before the level. -/
def attachBinaryTo (ops : List Operator) (left : Item) :
    Level → Except ParseError Level
  | [] => .ok [left]
  | i :: rest =>
      if i.isWaiting ops then
        let symbol := (i.waitingOperator?.map Operator.symbol).getD ""
        match rest with
        | [] => .error (.operatorAtEdge symbol)
        | right :: rest =>
            if left.hasValue && right.hasValue then
              attachBinaryTo ops (i.attach [left, right]) rest
            else
              .error (.operandWithoutValue left.label symbol right.label)
      else do return left :: (← attachBinaryTo ops i rest)

def attachBinary (ops : List Operator) : Level → Except ParseError Level
  | [] => .ok []
  | i :: rest =>
      if i.isWaiting ops then
        .error (.operatorAtEdge
          ((i.waitingOperator?.map Operator.symbol).getD ""))
      else attachBinaryTo ops i rest

/-- The binary tiers, tightest first. -/
def tiers : List (List Operator) :=
  [ [.power],
    [.times, .divide],
    [.plusMinus],
    [.plus, .minus],
    [.equal, .notEqual, .greater, .greaterEqual, .less, .lessEqual],
    [.land, .lnand],
    [.lor, .lxor] ]

-- ========================================================= constructs

/-- Gives `if` or `while` the condition and the block behind it. -/
def attachConditional (op : Operator) : Level → Level
  | i :: condition :: body :: rest =>
      if i.isWaiting [op] && condition.hasValue && body.isBlock then
        i.attach [condition, body] :: attachConditional op rest
      else i :: attachConditional op (condition :: body :: rest)
  | short => short

/-- A conditional with one branch may take a second one. -/
def takesElse : Item → Bool
  | .done (.mk (.operator .ifThen) [_, _]) => true
  | _ => false

/-- The conditional with its other branch. -/
def addBranch (left right : Item) : Item :=
  .done (.mk left.tree.node (left.tree.children ++ [right.tree]))

/-- Gives each `else` and the branch behind it to the conditional before
it, the last one first. -/
def attachElse : Level → Except ParseError Level
  | [] => .ok []
  | left :: rest => do
      match ← attachElse rest with
      | i :: right :: rest' =>
          if i.isWaiting [.otherwise] then
            if takesElse left && (right.isIf || right.isBlock) then
              return addBranch left right :: rest'
            else throw (.misplacedElse left.label right.label)
          else return left :: i :: right :: rest'
      | rest' => return left :: rest'

/-- Gives `for` its variable, the matrix behind `in` and the block. -/
def attachFor : Level → Level
  | i :: name :: key :: cells :: body :: rest =>
      if i.isWaiting [.forLoop] && name.isVariable && key.isKeyword "in"
          && cells.hasValue && body.isBlock then
        i.attach [name, cells, body] :: attachFor rest
      else i :: attachFor (name :: key :: cells :: body :: rest)
  | short => short

/-- Gives `=` the variable before it and the value behind it, from the
left; `left` is the item before the level. -/
def attachAssignmentTo (left : Item) : Level → Except ParseError Level
  | [] => .ok [left]
  | i :: rest =>
      if i.isWaiting [.assign] then
        match rest with
        | [] => .error .assignmentAtEdge
        | right :: rest =>
            if !(left.isVariable && left.tree.children.isEmpty) then
              .error (.assignmentTarget left.label)
            else if !right.hasValue then
              .error (.assignmentValue right.label)
            else attachAssignmentTo (i.attach [left, right]) rest
      else do return left :: (← attachAssignmentTo i rest)

def attachAssignment : Level → Except ParseError Level
  | [] => .ok []
  | i :: rest =>
      if i.isWaiting [.assign] then .error .assignmentAtEdge
      else attachAssignmentTo i rest

-- ========================================================== reduction

/-- The single complete tree a reduced level has to consist of. -/
def single : Level → Except ParseError Tree
  | [.done t] => .ok t
  | [.waiting n] => .error (.noValue n.label)
  | level =>
      let items := ", ".intercalate (level.map Item.describe)
      .error (.unfinished s!"[{items}]")

/-- All passes in order. -/
def reduce (level : Level) : Except ParseError Tree := do
  let level ← attachLeading none level
  let level ← attachTrailing (·.isWaiting [.certain]) level
  let level ← attachTrailing Item.isUnitBlock level
  let level ← tiers.foldlM (fun level ops => attachBinary ops level) level
  let level ← attachElse (attachConditional .ifThen level)
  let level := attachFor (attachConditional .whileLoop level)
  single (← attachAssignment level)

end Metrology.Tree
