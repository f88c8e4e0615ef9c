/-
Values: what programs compute. Statements such as assignments have the
value void; strings are already filled in; matrices hold values of any
kind.
-/
import Metrology.Matrix
import Metrology.Quantity.Text

namespace Metrology

inductive Value where
  | void
  | text (s : String)
  | number (q : Quantity)
  | matrix (m : Matrix Value)

namespace Value

/-- The kind of a value, as programs are told about it. -/
def kind : Value → String
  | .void => "Void"
  | .text _ => "String"
  | .number _ => "Number"
  | .matrix _ => "Matrix"

/-- Cells between commas and rows between semicolons, in brackets. -/
def rowsText (rows : List (List String)) : String :=
  let inside := "; ".intercalate (rows.map fun row => ", ".intercalate row)
  s!"[{inside}]"

mutual

/-- The value as text. -/
def render : Value → Except Error String
  | .void => .ok "Void"
  | .text s => .ok s
  | .number q => q.text
  | .matrix ⟨width, height, cells⟩ => do
      let texts ← renderAll cells
      match (Matrix.mk width height texts).rows? with
      | some rows => return rowsText rows
      | none => throw (.malformed .cellCount)

/-- The texts of a list of values, in order. -/
def renderAll : List Value → Except Error (List String)
  | [] => .ok []
  | v :: vs => do
      let s ← render v
      return s :: (← renderAll vs)

end

end Value

end Metrology
