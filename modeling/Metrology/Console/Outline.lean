/-
Trees drawn with guides: each label on a line of its own, children below
it, joined by rules. A label of several lines keeps the guides of the
children that follow.
-/
import Metrology.Console.Markup
import Metrology.Tree

namespace Metrology.Console

/-- The guides before a child and before what hangs below it. -/
def guides (last : Bool) : String × String :=
  if last then ("└── ", "    ") else ("├── ", "│   ")

/-- The lines of a label. -/
def labelLines (t : Tree) : List String :=
  (shown (escape t.label)).splitOn "\n"

/-- Lines with one guide before the first and another before the rest. -/
def guided (first rest : String) : List String → List String
  | [] => []
  | line :: lines => (first ++ line) :: lines.map (rest ++ ·)

mutual

/-- The lines of a tree: `first` stands before its label and `rest`
before everything below. -/
def outline (first rest : String) : Tree → List String
  | .mk n children =>
      guided first rest (labelLines (.leaf n)) ++ outlineAll rest children

/-- The lines of trees below a common parent. -/
def outlineAll (rest : String) : List Tree → List String
  | [] => []
  | t :: ts =>
      let (before, below) := guides ts.isEmpty
      outline (rest ++ before) (rest ++ below) t ++ outlineAll rest ts

end

/-- The drawing of a tree, each line ended. -/
def drawing (t : Tree) : String :=
  String.join ((outline "" "" t).map (· ++ "\n"))

end Metrology.Console
