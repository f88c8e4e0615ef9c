/-
What can go wrong, by cause. Every stage has its own causes, `message` is
the only place where they are worded, and `Error` joins the stages.

Beside the errors a program is told about stand two kinds of failure with
no wording: arithmetic faults, where a result does not exist or does not
fit, and malformed trees, which no program text gives rise to.
-/
import Metrology.Dimension

namespace Metrology

open Numeral

-- ============================================================ causes

/-- Arithmetic without a result. -/
inductive ArithmeticFault where
  /-- The result is finite but beyond every double. -/
  | overflow
  | zeroDivision
  /-- The argument lies outside the function's domain. -/
  | domain
deriving DecidableEq, Repr

/-- A tree that lacks what its root needs. -/
inductive Malformation where
  /-- An operand that the evaluation reached is not there. -/
  | missingOperand
  /-- The operands are too many or too few. -/
  | operandCount
  /-- A matrix whose number of cells is not its width times height. -/
  | cellCount
deriving DecidableEq, Repr

/-- Why a text is not a row of tokens. -/
inductive LexErrorKind where
  | unexpected
  | unterminatedString
  | unterminatedUnit
deriving DecidableEq, Repr

/-- Where a text stops being a row of tokens: the position, in clusters,
and the cluster found there. -/
structure LexError where
  kind : LexErrorKind
  position : Nat
  found : String
deriving DecidableEq, Repr

/-- Why a text names no unit, or an operation does not fit the units of
its operands. -/
inductive UnitError where
  | exponentCount (found : Nat)
  | noSymbol (term : String)
  | unknownUnit (term symbol : String)
  | unknownExponent (term exponent : String)
  | shiftedScaled (term : String)
  | shiftedPower (term symbol : String)
  | manySlashes (block : String)
  | emptyBlock (block : String)
  | shiftedCombined (term block : String)
  | undecomposable (dimension : Dimension)
  | differentUnits (operator : String) (left right : Dimension)
  | exponentWithUnit
  | fractionalPower (base : Dimension) (exponent : String)
  | alreadyMeasured (found : Dimension)
  | otherDimension (found : Dimension) (wanted : String)
deriving DecidableEq, Repr

/-- Why a row of tokens is not a program. Trees appear by their
labels. -/
inductive ParseError where
  | mismatchedBracket (found : String) (position : Nat)
  | unclosedBracket ( opening closing : String)
  | unopenedBracket (found : String) (position : Nat)
  | strayToken (found : String) (position : Nat)
  | malformedNumber (text : String) (position : Nat)
  | raggedMatrix (expected found : Nat)
  | signWithoutOperand (operator right : String)
  | nothingBefore (left operator : String)
  | operatorAtEdge (operator : String)
  | operandWithoutValue (left operator right : String)
  | misplacedElse (left right : String)
  | assignmentAtEdge
  | assignmentTarget (found : String)
  | assignmentValue (found : String)
  | unfinished (level : String)
  | noValue (found : String)
deriving DecidableEq, Repr

/-- Why a program has no value. -/
inductive EvalError where
  | undefinedVariable (name : String)
  | assertionFailed (text : String)
  | iterationLimit (loop : String) (limit : Int)
  | notReal (operator : String)
  | notUnitless (function : String) (found : Dimension)
  | exponentNotReal
  | numericOverflow (operation : String)
  | unknownComparison (operator : String)
  | keywordWithoutValue (word : String)
  | operandType (operator found : String) (side : Option String)
  | assignmentTarget (found : String)
  | unknownOperator (operator : String) (count : Nat)
  | loopOverNonMatrix (found : String)
  | parameterCount (function : String) (expected found : Nat)
  | parameterType (function found : String) (position : Nat)
  | nothingToWrite
  | oneOrTwoParameters (function : String) (found : Nat)
  | unknownFunction (name : String)
  | notIndexable (target found : String)
  | singleIndex (target : String) (width height : Nat)
  | indexCount (target : String) (found : Nat)
  | badIndex (found : String)
  | indexOutOfRange (index target : String) (size : Nat)
  | unmatchedClose (position : Nat) (template : String)
  | unmatchedOpen (position : Nat) (template : String)
  | nestedOpen (position : Nat) (template : String)
  | malformedInterpolation (content template : String)
  | malformedUnitSuffix (content : String)
  | unitOfNonNumber (name found : String)
deriving DecidableEq, Repr

/-- Any failure. -/
inductive Error where
  | lex (e : LexError)
  | parse (e : ParseError)
  | unit (e : UnitError)
  | eval (e : EvalError)
  | arithmetic (f : ArithmeticFault)
  | malformed (m : Malformation)
deriving DecidableEq, Repr

instance : Coe UnitError Error := ⟨.unit⟩
instance : Coe EvalError Error := ⟨.eval⟩
instance : Coe ArithmeticFault Error := ⟨.arithmetic⟩

-- ========================================================== wording

def LexError.message (e : LexError) : String :=
  match e.kind with
  | .unexpected => s!"Unexpected character '{e.found}' at index {e.position}"
  | .unterminatedString =>
      s!"Unterminated string block starting at index {e.position}"
  | .unterminatedUnit =>
      s!"Unterminated unit block starting at index {e.position}"

def UnitError.message : UnitError → String
  | .exponentCount n => s!"A unit needs 7 exponents, got {n}."
  | .noSymbol term =>
      s!"Unknown unit expression '{term}': no unit symbol found."
  | .unknownUnit term symbol =>
      s!"Unknown unit expression '{term}' due to unknown unit '{symbol}'."
  | .unknownExponent term exponent =>
      s!"Unknown unit expression '{term}' due to unknown exponent " ++
        s!"'{exponent}'."
  | .shiftedScaled term =>
      s!"The shifted unit '°C' cannot take a prefix in '{term}'."
  | .shiftedPower term symbol =>
      s!"The shifted unit '{symbol}' cannot be raised to a power in " ++
        s!"'{term}'."
  | .manySlashes block =>
      s!"A unit block takes at most one '/', found in '{block}'."
  | .emptyBlock block => s!"Empty unit block '|{block}|'."
  | .shiftedCombined term block =>
      s!"The shifted unit '{term}' cannot be combined with other units in " ++
        s!"'|{block}|'."
  | .undecomposable d => s!"Unable to decompose {d.describe}."
  | .differentUnits operator left right =>
      s!"The '{operator}' operator needs operands with the same unit, " ++
        s!"found '{left.describe}' and '{right.describe}'."
  | .exponentWithUnit => "Exponent must be dimensionless."
  | .fractionalPower base exponent =>
      s!"A quantity with unit '{base.describe}' can only be raised to an " ++
        s!"integer power, found {exponent}."
  | .alreadyMeasured found =>
      s!"A unit block can only be applied to a unitless quantity, found " ++
        s!"'{found.describe}'."
  | .otherDimension found wanted =>
      s!"Cannot display a quantity with unit '{found.describe}' in " ++
        s!"'{wanted}'."

def ParseError.message : ParseError → String
  | .mismatchedBracket found position =>
      s!"Mismatched brackets: found '{found}' at index {position}."
  | .unclosedBracket opening closing =>
      s!"Each opening '{opening}' needs a corresponding closing '{closing}'."
  | .unopenedBracket found position =>
      s!"Closing '{found}' at index {position} with no matching opening " ++
        s!"bracket."
  | .strayToken found position => s!"Unexpected '{found}' at index {position}."
  | .malformedNumber text position =>
      s!"Malformed number '{text}' at index {position}."
  | .raggedMatrix expected found =>
      s!"Every row of a matrix needs the same width: expected {expected}, " ++
        s!"found {found}."
  | .signWithoutOperand operator right =>
      s!"A unary prefixed operator needs to be followed by a valued " ++
        s!"expression. Found operator '{operator}' followed by {right}."
  | .nothingBefore left operator =>
      s!"A unary postfixed operator needs a valued expression to its left. " ++
        s!"Found {left} before {operator}."
  | .operatorAtEdge operator =>
      s!"The binary operator '{operator}' needs valued expressions to its " ++
        s!"sides."
  | .operandWithoutValue left operator right =>
      s!"A binary operator needs valued expressions to its sides. Found " ++
        s!"left: {left}, operator: '{operator}', right: {right}."
  | .misplacedElse left right =>
      s!"'else' must follow an if-block and precede a block or another " ++
        s!"'if'. Found {left} else {right}."
  | .assignmentAtEdge =>
      "The assignment operator '=' needs a variable to its left and a " ++
        s!"value to its right."
  | .assignmentTarget found =>
      s!"The left side of '=' must be a variable, found {found}."
  | .assignmentValue found =>
      s!"The right side of '=' must be a valued expression, found {found}."
  | .unfinished level =>
      s!"The parsing couldn't finish. The reduced level resulted in: {level}"
  | .noValue found =>
      s!"The expression reduced to {found}, which has no value."

/-- A number of parameters in words. -/
def parameters (n : Nat) : String :=
  if n = 1 then "1 parameter" else s!"{n} parameters"

def EvalError.message : EvalError → String
  | .undefinedVariable name => s!"Undefined variable '{name}'"
  | .assertionFailed text => text
  | .iterationLimit loop limit =>
      s!"The '{loop}' loop exceeded the limit of {writeWhole limit} " ++
        s!"iterations."
  | .notReal operator =>
      s!"The '{operator}' operator can only compare real quantities."
  | .notUnitless function found =>
      s!"The '{function}' function takes a unitless quantity but " ++
        s!"'{found.describe}' was found."
  | .exponentNotReal => "The '^' operator takes a real exponent."
  | .numericOverflow operation => s!"Numeric overflow in '{operation}'."
  | .unknownComparison operator =>
      s!"Unknown comparison operator '{operator}'"
  | .keywordWithoutValue word => s!"The keyword '{word}' has no value."
  | .operandType operator found side =>
      let where_ := match side with
        | some s => s!" on the {s}"
        | none => ""
      s!"The '{operator}' operator operates on values of type 'Number' but " ++
        s!"an element of type '{found}' was found{where_}."
  | .assignmentTarget found =>
      s!"The '=' operator assigns to a variable, found {found}."
  | .unknownOperator operator count =>
      s!"Unknown operator '{operator}' with {parameters count}."
  | .loopOverNonMatrix found =>
      s!"The 'for' loop iterates over a 'Matrix' but an element of type " ++
        s!"'{found}' was found."
  | .parameterCount function expected found =>
      s!"The '{function}' function takes {parameters expected}, but " ++
        s!"{parameters found} were found."
  | .parameterType function found position =>
      s!"The '{function}' function takes values of type 'Number' but an " ++
        s!"element of type '{found}' was found as parameter {position}."
  | .nothingToWrite =>
      "The 'write' function takes one or more parameters but no parameters " ++
        s!"were found."
  | .oneOrTwoParameters function found =>
      s!"The '{function}' function takes 1 or 2 parameters, but " ++
        s!"{parameters found} were found."
  | .unknownFunction name => s!"Unknown function called '{name}'"
  | .notIndexable target found =>
      s!"Cannot index '{target}' of type '{found}', a 'Matrix' is needed."
  | .singleIndex target width height =>
      s!"A single index only applies to column vectors, but '{target}' is " ++
        s!"{width}x{height}."
  | .indexCount target found =>
      s!"A matrix is indexed with 1 or 2 indices, but {found} were found " ++
        s!"for '{target}'."
  | .badIndex found =>
      s!"Matrix indices must be real non-zero integers, found '{found}'."
  | .indexOutOfRange index target size =>
      s!"Index {index} is out of range for '{target}' of size {size}."
  | .unmatchedClose position template =>
      s!"Unmatched '\x7d' at index {position} in string \"{template}\"."
  | .unmatchedOpen position template =>
      s!"Unmatched '\x7b' at index {position} in string \"{template}\"."
  | .nestedOpen position template =>
      s!"Nested '\x7b' at index {position} in string \"{template}\"."
  | .malformedInterpolation content template =>
      s!"Malformed interpolation '\x7b{content}\x7d' in string " ++
        s!"\"{template}\"."
  | .malformedUnitSuffix content =>
      s!"Malformed unit suffix in '\x7b{content}\x7d', expected " ++
        s!"\x7bname|unit|\x7d."
  | .unitOfNonNumber name found =>
      s!"Only values of type 'Number' can be shown in a unit, but '{name}' " ++
        s!"is of type '{found}'."

/-- The wording of an error; arithmetic faults and malformed trees have
none. -/
def Error.message? : Error → Option String
  | .lex e => some e.message
  | .parse e => some e.message
  | .unit e => some e.message
  | .eval e => some e.message
  | .arithmetic _ => none
  | .malformed _ => none

end Metrology
