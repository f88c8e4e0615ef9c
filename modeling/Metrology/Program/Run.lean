/-
Whole programs: from text to tokens, to a tree, to a value. A text that
is no program changes nothing.
-/
import Metrology.Program.Evaluate
import Metrology.Token.Scan
import Metrology.Tree.Parse

namespace Metrology.Program

/-- The tree of a program whose text `split` takes apart. -/
def parseWith (split : Text.Splitter) (source : String) :
    Except Error Tree := do
  let tokens ← Token.scanWith split source
  (Tree.parse tokens).mapError Error.parse

/-- The tree of a program. -/
def parse (source : String) : Except Error Tree :=
  parseWith Text.clustersOf source

/-- Runs a program whose text `split` takes apart. -/
def runWith (split : Text.Splitter) (lim : Limits) (source : String) :
    Action Value := do
  evaluate lim (← lift (parseWith split source))

/-- Runs a program. -/
def run (lim : Limits) (source : String) : Action Value :=
  runWith Text.clustersOf lim source

theorem parse_eq_bind (source : String) :
    parse source = (Token.scan source >>= fun tokens =>
      (Tree.parse tokens).mapError Error.parse) := rfl

theorem run_eq_bind (lim : Limits) (source : String) :
    run lim source = lift (parse source) >>= evaluate lim := rfl

end Metrology.Program
