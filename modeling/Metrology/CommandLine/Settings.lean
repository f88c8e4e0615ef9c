/-
Settings of a session. The cap on iterations may come from the
environment of the process; an argument wins over it. A cap below zero is
refused once the arguments are in.
-/
import Metrology.CommandLine.Arguments

namespace Metrology.CommandLine

/-- What is shown, and how far loops may go. -/
structure Settings where
  maxIterations : Option Int := none
  showTokens : Bool := false
  showTree : Bool := false
  showTime : Bool := false
  verbosity : Nat := 0
deriving DecidableEq, Repr

/-- Why settings are refused. -/
inductive SettingsError where
  | notWhole (text : String)
  | negativeLimit
deriving DecidableEq, Repr

/-- The variable that holds the cap. -/
def limitVariable : String := "UNITSCRIPT_MAX_ITERATIONS"

def SettingsError.message : SettingsError → String
  | .notWhole text => s!"{limitVariable} must be an integer, got '{text}'."
  | .negativeLimit => "The iteration limit cannot be negative."

namespace Settings

/-- The settings from the value of the variable, blank meaning none. -/
def ofVariable (value : Option String) : Except SettingsError Settings :=
  let text := Text.trim (value.getD "")
  if text = "" then .ok {}
  else
    match Numeral.readWhole? text with
    | some n => .ok { maxIterations := some n }
    | none => .error (.notWhole text)

/-- The settings from the variable and the arguments. -/
def ofArguments (value : Option String) (a : Arguments) :
    Except SettingsError Settings := do
  let base ← ofVariable value
  let limit := a.maxIterations.or base.maxIterations
  if limit.any (· < 0) then throw .negativeLimit
  return {
    maxIterations := limit
    showTokens := a.tokens
    showTree := a.tree
    showTime := a.time
    verbosity := a.verbose }

end Settings

end Metrology.CommandLine
