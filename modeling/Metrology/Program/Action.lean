/-
Running programs. An action reads and changes the variables and adds to
the output; it yields a result or stops. What was done before a stop
stays done.

Loops are bounded in one of two ways. A cap on iterations is part of the
language: a loop that reaches it fails. Without one a loop may go on for
ever, so the number of turns that anyone is willing to wait is given with
the run, and running out of it is not an error of the program.
-/
import Metrology.Environment

namespace Metrology.Program

/-- The variables and everything written so far. -/
structure State where
  env : Environment := {}
  output : String := ""

/-- Why an action gives no result. -/
inductive Stop where
  | failed (e : Error)
  /-- A loop without a cap used up the turns it was given. -/
  | exhausted

abbrev Action := EStateM Stop State

/-- How far loops may go. -/
structure Limits where
  /-- The cap on the iterations of each loop. -/
  iterations : Option Int := none
  /-- The turns given to each loop that has no cap. -/
  patience : Nat

/-- The turns a loop needs at most before its cap stops it, or those it
is given. -/
def Limits.turns (lim : Limits) : Nat :=
  match lim.iterations with
  | some n => n.toNat + 1
  | none => lim.patience

-- ======================================================= basic actions

def fail {α : Type} (e : Error) : Action α := throw (.failed e)

/-- A result, or its error as a stop. -/
def lift {α : Type} : Except Error α → Action α
  | .ok a => pure a
  | .error e => fail e

/-- What a well-shaped tree provides, or its lack as a stop. -/
def require {α : Type} (m : Malformation) : Option α → Action α
  | some a => pure a
  | none => fail (.malformed m)

/-- The value of a variable. -/
def lookup (name : String) : Action Value := do
  match (← get).env.get? name with
  | some v => return v
  | none => fail (.eval (.undefinedVariable name))

/-- Assignment to a variable. -/
def assign (name : String) (v : Value) : Action Unit :=
  modify fun s => { s with env := s.env.set name v }

/-- Adds a text to the output. -/
def write (text : String) : Action Unit :=
  modify fun s => { s with output := s.output ++ text }

-- =============================================================== loops

/-- Fails if as many iterations are done as the cap allows. -/
def checkIterations (lim : Limits) (loop : String) (count : Nat) :
    Action Unit :=
  match lim.iterations with
  | none => pure ()
  | some n =>
      if n ≤ (count : Int) then fail (.eval (.iterationLimit loop n))
      else pure ()

/-- Repeats a body while a condition holds. The cap is checked once the
condition holds; `results` are those so far, last first. -/
def repeatWhile (lim : Limits) (condition : Action Bool)
    (body : Action Value) :
    (turns count : Nat) → (results : List Value) → Action (List Value)
  | 0, _, _ => throw .exhausted
  | turns + 1, count, results => do
      if ← condition then
        checkIterations lim "while" count
        let v ← body
        repeatWhile lim condition body turns (count + 1) (v :: results)
      else return results.reverse

/-- Repeats a body for each of some values, bound in turn. The cap is
checked before each binding. -/
def repeatFor (lim : Limits) (bind : Value → Action Unit)
    (body : Action Value) :
    (count : Nat) → (cells results : List Value) → Action (List Value)
  | _, [], results => return results.reverse
  | count, c :: cells, results => do
      checkIterations lim "for" count
      bind c
      let v ← body
      repeatFor lim bind body (count + 1) cells (v :: results)

end Metrology.Program
