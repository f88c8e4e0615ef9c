/-
Programs as trees. A node says what stands at a place and owns the trees
of its operands, statements or cells. Trees are shown by their labels,
with the children in brackets behind.
-/
import Metrology.Operator
import Metrology.Scale.Symbol
import Metrology.Text.Quoted

namespace Metrology

/-- What stands at a place in a program. -/
inductive Node where
  /-- Nothing: an empty program, argument or statement. -/
  | empty
  /-- A number and the unit symbol written behind it. -/
  | number (value : Float) (decorator : String)
  | operator (op : Operator)
  | keyword (word : String)
  | variable (name : String)
  | call (function : String)
  | block
  /-- A value measured on a scale, and the scale as written. -/
  | unitBlock (text : String) (scale : Scale)
  /-- A string with places to fill in. -/
  | template (text : String)
  | matrix (width height : Nat)
  /-- Cells of a named matrix, or without a name of the first child. -/
  | index (target : Option String)

/-- A node and the trees it owns. -/
inductive Tree where
  | mk (node : Node) (children : List Tree)

namespace Node

/-- The node by kind and content. -/
def label : Node → String
  | .empty => "None"
  | .number value decorator =>
      if decorator = "" then s!"Number({Numeral.write value})"
      else s!"Number({Numeral.write value}, {Text.quoted decorator})"
  | .operator op => s!"Operator({op.symbol})"
  | .keyword word => s!"Keyword({word})"
  | .variable name => s!"Variable({name})"
  | .call function => s!"FunctionCall({function})"
  | .block => "Block"
  | .unitBlock text _ => s!"UnitBlock(|{text}|)"
  | .template text => s!"StringBlock({Text.quoted text})"
  | .matrix width height => s!"MatrixBlock({width}x{height})"
  | .index none => "MatrixIndexing(None)"
  | .index (some name) => s!"MatrixIndexing({name})"

/-- The name a node carries, which a loop binds to each cell in turn. -/
def name? : Node → Option String
  | .operator op => some op.symbol
  | .keyword word => some word
  | .variable name => some name
  | .call function => some function
  | .unitBlock text _ => some text
  | .template text => some text
  | .index target => target
  | .empty | .number _ _ | .block | .matrix _ _ => none

end Node

namespace Tree

def node : Tree → Node
  | .mk n _ => n

def children : Tree → List Tree
  | .mk _ cs => cs

/-- A tree without children. -/
def leaf (n : Node) : Tree := .mk n []

/-- The tree of an empty program. -/
def empty : Tree := leaf .empty

instance : Inhabited Tree := ⟨empty⟩

def label (t : Tree) : String := t.node.label

mutual

/-- The label with the children in brackets. -/
def describe : Tree → String
  | .mk n [] => n.label
  | .mk n (c :: cs) => s!"{n.label}[{describe c}{describeRest cs}]"

/-- The trees of a list, each behind a comma. -/
def describeRest : List Tree → String
  | [] => ""
  | c :: cs => s!", {describe c}{describeRest cs}"

end

end Tree

end Metrology
