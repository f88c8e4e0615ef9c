/-
Reading units. A term is a symbol with an optional exponent: "km", "s-2",
"°C". A block joins terms by points, with at most one slash before the
divisors: "kg.m/s2", "1/s". Its scale is the product of the terms'
scales; a shifted scale only stands alone.
-/
import Metrology.Double.Checked
import Metrology.Scale.Symbol
import Metrology.Numeral.Read
import Metrology.Text.Cluster

namespace Metrology.Scale

open Text

-- ============================================================== terms

/-- The characters beyond ASCII letters that a symbol may hold. -/
def symbolExtras : List Char := ['°', '%', 'µ', 'μ', 'Ω', 'π']

/-- The cluster may stand in a unit symbol. -/
def isSymbolCluster (c : Cluster) : Bool :=
  match c.char? with
  | some x => isAsciiLetter x || symbolExtras.contains x
  | none => false

/-- The exponent written behind a symbol; one if there is none. -/
def readExponent (term : String) (cs : List Cluster) : Except UnitError Int :=
  if cs.isEmpty then .ok 1
  else
    match Numeral.readWhole? (textOf cs) with
    | some n => .ok n
    | none => .error (.unknownExponent term (textOf cs))

/-- The scale raised to a power. -/
def pow (s : Scale) (n : Int) : Except ArithmeticFault Scale := do
  let factor ← Double.powWhole s.factor n
  return { s with dimension := s.dimension ^ n, factor := factor }

/-- The symbol, its scale and its exponent. -/
def readParts (term : String) : Except UnitError (String × Scale × Int) := do
  let cs := clusters (trim term)
  let symbol := textOf (cs.takeWhile isSymbolCluster)
  if symbol = "" then throw (.noSymbol term)
  let scale ← lookup term symbol
  let n ← readExponent term (cs.dropWhile isSymbolCluster)
  if scale.shift != 0.0 && n ≠ 1 then throw (.shiftedPower term symbol)
  return (symbol, scale, n)

/-- The scale of one term. -/
def readTerm (term : String) : Except Error Scale := do
  let (_, scale, n) ← (readParts term).mapError Error.unit
  (scale.pow n).mapError Error.arithmetic

-- ============================================================= blocks

/-- The parts of a list between the occurrences of a separator, one more
than there are separators. -/
def splitOn (sep : Char) : List Char → List (List Char)
  | [] => [[]]
  | c :: cs =>
      if c = sep then [] :: splitOn sep cs
      else
        match splitOn sep cs with
        | [] => [[c]]
        | part :: parts => (c :: part) :: parts

/-- A term of a block, and whether it divides. -/
structure Term where
  text : String
  divides : Bool
deriving DecidableEq, Repr

/-- The terms of one side of the slash, empty ones and ones left out. -/
def sideTerms (divides : Bool) (side : List Char) : List Term :=
  (splitOn '.' side).filterMap fun part =>
    let t := trim (String.ofList part)
    if t = "" || t = "1" then none else some ⟨t, divides⟩

/-- The terms of a block, multiplied ones first. -/
def blockTerms (block : String) : Except UnitError (List Term) :=
  let found (ts : List Term) : Except UnitError (List Term) :=
    if ts.isEmpty then .error (.emptyBlock block) else .ok ts
  match splitOn '/' block.toList with
  | [above] => found (sideTerms false above)
  | [above, below] => found (sideTerms false above ++ sideTerms true below)
  | _ => .error (.manySlashes block)

/-- The scale so far with one more term's scale multiplied or divided
in. A shift replaces the one so far. -/
def combine (acc s : Scale) (divides : Bool) :
    Except ArithmeticFault Scale := do
  let shift := if s.shift != 0.0 then s.shift else acc.shift
  if divides then
    let factor ← Double.divide acc.factor s.factor
    return ⟨acc.dimension / s.dimension, factor, shift⟩
  else
    return ⟨acc.dimension * s.dimension, acc.factor * s.factor, shift⟩

/-- The scale of plain numbers. -/
def one : Scale := { dimension := .unitless }

/-- The product of the terms, from the left. `alone` says that the block
has a single term. -/
def readTerms (block : String) (alone : Bool) (acc : Scale) :
    List Term → Except Error Scale
  | [] => .ok acc
  | t :: ts => do
      let s ← readTerm t.text
      if s.shift != 0.0 && (!alone || t.divides) then
        throw (.unit (.shiftedCombined t.text block))
      let acc ← (combine acc s t.divides).mapError Error.arithmetic
      readTerms block alone acc ts

/-- The scale of a block. -/
def readBlock (block : String) : Except Error Scale := do
  let terms ← (blockTerms block).mapError Error.unit
  readTerms block (terms.length == 1) one terms

end Metrology.Scale
