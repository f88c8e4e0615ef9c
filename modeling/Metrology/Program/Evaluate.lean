/-
The meaning of trees. What a node does depends on the trees of its
operands only through their labels and through the actions that evaluate
them, so the meaning of a tree is put together from the meanings of its
children: `Node.run` is the step, and `evaluate` the recursion.

Operands are evaluated in the order in which they stand. Only conditions
decide whether something is evaluated at all; logical operators evaluate
both sides.
-/
import Metrology.Program.Template
import Metrology.Console.Plain
import Metrology.Tree

namespace Metrology.Program

/-- An operand: its tree and the action that evaluates it. -/
structure Operand where
  tree : Tree
  run : Action Value

-- ========================================================== operators

/-- Operators with one operand. -/
def unary? : Operator → Option (Quantity → Except Error Quantity)
  | .plus => some fun q => .ok q
  | .minus => some fun q => .ok q.neg
  | .lnot => some fun q => .ok (.ofBool q.isZero)
  | .certain => some fun q => .ok (.ofBool q.isCertain)
  | .valueOf => some fun q => .ok q.value
  | .uncertaintyOf => some fun q => q.sigma.mapError Error.arithmetic
  | _ => none

/-- Operators with two operands. -/
def binary? : Operator → Option (Quantity → Quantity → Except Error Quantity)
  | .plus => some fun a b => (a.add b).mapError Error.unit
  | .minus => some fun a b => (a.sub b).mapError Error.unit
  | .times => some fun a b => .ok (a.mul b)
  | .divide => some fun a b => (a.div b).mapError Error.arithmetic
  | .power => some fun a b => a.pow b
  | .plusMinus => some fun a b => (a.plusMinus b).mapError Error.unit
  | .equal => some fun a b => a.compare b .equal
  | .notEqual => some fun a b => a.compare b .notEqual
  | .greater => some fun a b => a.compare b .greater
  | .greaterEqual => some fun a b => a.compare b .greaterEqual
  | .less => some fun a b => a.compare b .less
  | .lessEqual => some fun a b => a.compare b .lessEqual
  | .land => some fun a b => .ok (.ofBool (a.isTrue && b.isTrue))
  | .lnand => some fun a b => .ok (.ofBool !(a.isTrue && b.isTrue))
  | .lor => some fun a b => .ok (.ofBool (a.isTrue || b.isTrue))
  | .lxor => some fun a b => .ok (.ofBool (a.isTrue != b.isTrue))
  | _ => none

/-- The operand's number. -/
def Operand.number (k : Operand) (operator : String)
    (side : Option String := none) : Action Quantity := do
  match ← k.run with
  | .number q => return q
  | v => fail (.eval (.operandType operator v.kind side))

/-- Assignment to a variable. -/
def runAssign : List Operand → Action Value
  | [target, expression] => do
      match target.tree.node with
      | .variable name =>
          assign name (← expression.run)
          return .void
      | n => fail (.eval (.assignmentTarget n.label))
  | _ => fail (.malformed .operandCount)

/-- A conditional: the first branch if the condition holds, otherwise the
second if there is one. -/
def runIf : List Operand → Action Value
  | [] => fail (.malformed .missingOperand)
  | condition :: branches => do
      let q ← condition.number "if" "condition"
      if q.isTrue then
        match branches with
        | branch :: _ => branch.run
        | [] => fail (.malformed .missingOperand)
      else
        match branches with
        | [_, branch] => branch.run
        | _ => return .void

/-- A loop with a condition; its value is the column of its results. -/
def runWhile (lim : Limits) : List Operand → Action Value
  | [condition, body] => do
      let holds : Action Bool := do
        return (← condition.number "while" "condition").isTrue
      let results ← repeatWhile lim holds body.run lim.turns 0 []
      return .matrix (.column results)
  | _ => fail (.malformed .operandCount)

/-- Binds the index of a loop to a cell. An index without a name, which no
text spells, leaves the variables as they are. -/
def bindIndex (index : Tree) (v : Value) : Action Unit :=
  match index.node.name? with
  | some name => assign name v
  | none => pure ()

/-- A loop over a matrix, column by column; its value has the same shape,
each cell replaced by the result there. -/
def runFor (lim : Limits) : List Operand → Action Value
  | [index, cells, body] => do
      match ← cells.run with
      | .matrix m =>
          let visited ← require .cellCount m.columns?
          let results ← repeatFor lim (bindIndex index.tree) body.run 0
            visited []
          return .matrix
            (← require .cellCount
              (Matrix.ofColumns? m.width m.height results))
      | v => fail (.eval (.loopOverNonMatrix v.kind))
  | _ => fail (.malformed .operandCount)

/-- An operator that computes. -/
def runCompute (op : Operator) (kids : List Operand) : Action Value := do
  let unknown : EvalError := .unknownOperator op.symbol kids.length
  match kids with
  | [a] =>
      match unary? op with
      | some f => return .number (← lift (f (← a.number op.symbol)))
      | none => fail (.eval unknown)
  | [a, b] =>
      match binary? op with
      | some f =>
          let left ← a.number op.symbol "left-hand side"
          let right ← b.number op.symbol "right-hand side"
          return .number (← lift (f left right))
      | none => fail (.eval unknown)
  | _ => fail (.eval unknown)

def runOperator (lim : Limits) (op : Operator) (kids : List Operand) :
    Action Value :=
  match op with
  | .assign => runAssign kids
  | .ifThen => runIf kids
  | .whileLoop => runWhile lim kids
  | .forLoop => runFor lim kids
  | _ => runCompute op kids

-- ========================================================== functions

/-- A function of numbers. -/
inductive NumberFunction where
  | one (f : Quantity → Except Error Quantity)
  | two (f : Quantity → Quantity → Except Error Quantity)

/-- The functions of numbers by name. -/
def numberFunctions : List (String × NumberFunction) :=
  [ ("sin", .one Quantity.sin),
    ("cos", .one Quantity.cos),
    ("exp", .one Quantity.exp),
    ("i", .one fun q => .ok q.timesI),
    ("Re", .one fun q => .ok q.real),
    ("real", .one fun q => .ok q.real),
    ("Im", .one fun q => .ok q.imag),
    ("imag", .one fun q => .ok q.imag),
    ("sigma", .one fun q => q.sigma.mapError Error.arithmetic),
    ("sigma2", .one fun q => .ok q.sigma2),
    ("value", .one fun q => .ok q.value),
    ("abs", .one fun q => q.abs.mapError Error.arithmetic),
    ("arg", .one fun q => q.arg.mapError Error.arithmetic),
    ("max", .two Quantity.max),
    ("min", .two Quantity.min) ]

/-- The argument's number. -/
def Operand.argument (k : Operand) (function : String) (position : Nat) :
    Action Quantity := do
  match ← k.run with
  | .number q => return q
  | v => fail (.eval (.parameterType function v.kind position))

def runNumberFunction (name : String) (f : NumberFunction)
    (kids : List Operand) : Action Value := do
  match f, kids with
  | .one f, [a] => return .number (← lift (f (← a.argument name 1)))
  | .one _, _ => fail (.eval (.parameterCount name 1 kids.length))
  | .two f, [a, b] =>
      let x ← a.argument name 1
      let y ← b.argument name 2
      return .number (← lift (f x y))
  | .two _, _ => fail (.eval (.parameterCount name 2 kids.length))

/-- The operand's value as text. -/
def Operand.text (k : Operand) : Action String := do
  lift (← k.run).render

/-- Writes the texts of the operands, with `gap` between and `stop`
behind them. -/
def runWrite (gap stop : String) (kids : List Operand) : Action Value := do
  let texts ← kids.mapM Operand.text
  write (Console.plain (gap.intercalate texts) ++ stop)
  return .void

/-- The text a failure is reported with: the second argument if there is
one, otherwise the first behind a heading. -/
def failureText (heading : String) (v : Value) :
    List Operand → Action String
  | [] => do return s!"{heading}{← lift v.render}"
  | k :: _ => k.text

/-- Fails, unless a condition is asserted and is exactly one. -/
def runAssert (name heading : String) (asserts : Bool)
    (kids : List Operand) : Action Value := do
  match kids with
  | [] => fail (.eval (.oneOrTwoParameters name 0))
  | k :: rest =>
      if 1 < rest.length then
        fail (.eval (.oneOrTwoParameters name kids.length))
      let v ← k.run
      let holds := match v with
        | .number q => q.isExactly 1.0
        | _ => false
      if asserts && holds then return .void
      fail (.eval (.assertionFailed (← failureText heading v rest)))

def runCall (name : String) (kids : List Operand) : Action Value :=
  match numberFunctions.lookup name with
  | some f => runNumberFunction name f kids
  | none =>
      if name = "write" then
        if kids.isEmpty then fail (.eval .nothingToWrite)
        else runWrite "" "" kids
      else if name = "print" || name = "writeln" then runWrite " " "\n" kids
      else if name = "assert" then
        runAssert name "Assertion failed: " true kids
      else if name = "error" then runAssert name "Error: " false kids
      else fail (.eval (.unknownFunction name))

-- =========================================================== matrices

/-- The place, counted from zero, that an index names in a row of `size`:
from the front starting with one, or from the back. -/
def indexPlace (size : Nat) (k : Int) : Option Nat :=
  let k := if k < 0 then size + k + 1 else k
  if 1 ≤ k && k ≤ size then some (k - 1).toNat else none

/-- The quantity and the whole number that a value names as an index:
real, plain and not zero. -/
def indexNumber? : Value → Option (Quantity × Int)
  | .number q =>
      if q.isReal && q.unit.isUnitless && Numeral.isWhole q.re
          && q.re != 0.0 then
        (Numeral.truncate? q.re).map (q, ·)
      else none
  | _ => none

/-- The place an operand names. -/
def Operand.index (k : Operand) (size : Nat) (label : String) :
    Action Nat := do
  let v ← k.run
  match indexNumber? v with
  | none => fail (.eval (.badIndex (← lift v.render)))
  | some (q, n) =>
      match indexPlace size n with
      | some place => return place
      | none => fail (.eval (.indexOutOfRange (realText q.re) label size))

/-- A cell of a value, which has to be a matrix: by row and column, or by
row alone in a column. -/
def runIndices (label : String) (target : Value) (indices : List Operand) :
    Action Value := do
  match target with
  | .matrix m =>
      let cell (row col : Nat) : Action Value :=
        require .cellCount (m.cell? row col)
      match indices with
      | [k] =>
          if m.width ≠ 1 then
            fail (.eval (.singleIndex label m.width m.height))
          cell (← k.index m.height label) 0
      | [j, k] =>
          let row ← j.index m.height label
          let col ← k.index m.width label
          cell row col
      | _ => fail (.eval (.indexCount label indices.length))
  | v => fail (.eval (.notIndexable label v.kind))

def runIndex (target : Option String) (kids : List Operand) :
    Action Value := do
  match target, kids with
  | some name, _ => runIndices name (← lookup name) kids
  | none, k :: indices => runIndices "matrix literal" (← k.run) indices
  | none, [] => fail (.malformed .missingOperand)

/-- The values of operands, in order. -/
def runAll (kids : List Operand) : Action (List Value) := kids.mapM Operand.run

def runMatrix (width height : Nat) (kids : List Operand) : Action Value := do
  return .matrix
    (← require .cellCount (Matrix.ofCells? width height (← runAll kids)))

-- ============================================================== trees

/-- Evaluates operands in order and keeps the last value. -/
def runBlock : (last : Value) → List Operand → Action Value
  | last, [] => pure last
  | _, k :: kids => do runBlock (← k.run) kids

/-- A number on a scale. -/
def runUnitBlock (text : String) (scale : Scale) :
    List Operand → Action Value
  | [] => fail (.malformed .missingOperand)
  | k :: _ => do
      let q ← k.number s!"|{text}|"
      return .number (← lift ((q.onScale scale).mapError Error.unit))

/-- What a node does with its operands. -/
def runNode (lim : Limits) (n : Node) (kids : List Operand) : Action Value :=
  match n with
  | .empty => pure .void
  | .number value decorator => do
      return .number (← lift (Quantity.literal value decorator))
  | .operator op => runOperator lim op kids
  | .keyword word => fail (.eval (.keywordWithoutValue word))
  | .variable name => lookup name
  | .call name => runCall name kids
  | .block => runBlock .void kids
  | .unitBlock text scale => runUnitBlock text scale kids
  | .template text => do return .text (← fill text)
  | .matrix width height => runMatrix width height kids
  | .index target => runIndex target kids

mutual

/-- The action that evaluates a tree. -/
def evaluate (lim : Limits) : Tree → Action Value
  | .mk n children => runNode lim n (operands lim children)

/-- Trees with their actions. -/
def operands (lim : Limits) : List Tree → List Operand
  | [] => []
  | t :: ts => ⟨t, evaluate lim t⟩ :: operands lim ts

end

theorem operands_eq_map (lim : Limits) (ts : List Tree) :
    operands lim ts = ts.map fun t => ⟨t, evaluate lim t⟩ := by
  induction ts with
  | nil => rfl
  | cons t ts ih => rw [operands, ih]; rfl

theorem length_operands (lim : Limits) (ts : List Tree) :
    (operands lim ts).length = ts.length := by
  rw [operands_eq_map, List.length_map]

end Metrology.Program
