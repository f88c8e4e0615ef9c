/-
The first condition that holds decides. Arms joined by `else` are read as
conditionals inside one another (`parse_arms`), so evaluating them asks one
condition at a time: where it holds, its block is all that is still
evaluated; where it is zero, the conditional behind the `else` takes over
in the state that the condition has left. By induction on the arms before
it, the first arm with a condition that is not zero gives the value, and
nothing behind it is touched.
-/
import Metrology.Proofs.Program.Effects
import Metrology.Proofs.Tree.Conditionals

namespace Metrology.Program

open Metrology.Tree (Arm LastBlock tokensBehind branchBehind)

variable {lim : Limits} {a : Arm} {q : Quantity} {s s' : State}

-- ============================================================= one arm

/-- What is evaluated where no condition holds. -/
def runOther (lim : Limits) : Option Tree → Action Value
  | some t => evaluate lim t
  | none => pure .void

/-- An operand that gives a number is that number to its operator. -/
theorem number_of_ok {k : Operand} (h : k.run s = .ok (.number q) s')
    (operator : String) (side : Option String) :
    k.number operator side s = .ok q s' := by
  rw [Operand.number, bind_of_ok h]
  rfl

/-- Where the condition holds the block is evaluated, whatever stands behind
it. -/
theorem evaluate_tree_of_isTrue
    (h : evaluate lim a.test s = .ok (.number q) s') (hq : q.isTrue = true)
    (other : Option Tree) :
    evaluate lim (a.tree other) s = evaluate lim a.body s' := by
  have hnumber := number_of_ok (k := ⟨a.test, evaluate lim a.test⟩) h "if"
    (some "condition")
  show runIf (operands lim (a.test :: a.body :: other.toList)) s = _
  rw [operands, operands, runIf, bind_of_ok hnumber, if_pos hq]

/-- Where it is zero the other branch is, in the state that the condition
has left. -/
theorem evaluate_tree_of_zero
    (h : evaluate lim a.test s = .ok (.number q) s') (hq : q.isTrue = false)
    (other : Option Tree) :
    evaluate lim (a.tree other) s = runOther lim other s' := by
  have hnumber := number_of_ok (k := ⟨a.test, evaluate lim a.test⟩) h "if"
    (some "condition")
  show runIf (operands lim (a.test :: a.body :: other.toList)) s = _
  rw [operands, operands, runIf, bind_of_ok hnumber, hq]
  cases other with
  | none => rfl
  | some t => rfl

-- ============================================================ all arms

/-- The conditions of these arms are evaluated one after the other, from
the first state to the second, and all of them are zero. -/
inductive AllZero (lim : Limits) : List Arm → State → State → Prop
  | nil {s : State} : AllZero lim [] s s
  | cons {a : Arm} {more : List Arm} {q : Quantity} {s s' s'' : State} :
      evaluate lim a.test s = .ok (.number q) s' → q.isTrue = false →
      AllZero lim more s' s'' → AllZero lim (a :: more) s s''

/-- Arms whose conditions are zero lead to what stands behind them. -/
theorem AllZero.runOther {before : List Arm} (h : AllZero lim before s s')
    (after : List Arm) (last : Option Tree) :
    runOther lim (branchBehind (before ++ after) last) s
      = Program.runOther lim (branchBehind after last) s' := by
  induction h with
  | nil => rfl
  | cons htest hzero _ ih =>
      rw [← ih]
      exact evaluate_tree_of_zero htest hzero _

/-- Arms joined by `else` are read as conditionals nested to the right, and
the first condition that holds decides. The conditions before it are
evaluated in order, then it is, then its block, and nothing else; if all
conditions are zero, it is the last block that is evaluated, or nothing. -/
theorem evaluate_first_true_branch (lim : Limits) (a : Arm)
    (more : List (Nat × Arm)) (last : Option (Nat × LastBlock)) :
    let arms := a :: more.map Prod.snd
    let other := last.map (·.2.body)
    let t := a.tree (branchBehind (more.map Prod.snd) other)
    Tree.parse (a.tokens ++ tokensBehind more last) = .ok t
      ∧ (∀ before b after q s s₁ s₂, arms = before ++ b :: after →
        AllZero lim before s s₁ →
        evaluate lim b.test s₁ = .ok (.number q) s₂ → q.isTrue = true →
        evaluate lim t s = evaluate lim b.body s₂)
      ∧ ∀ s s₁, AllZero lim arms s s₁ →
        evaluate lim t s = runOther lim other s₁ := by
  intro arms other t
  refine ⟨Tree.parse_arms a more last, ?_, ?_⟩
  · intro before b after q s s₁ s₂ harms hbefore htest hq
    have hlead := hbefore.runOther (b :: after) other
    -- the arms before it lead to the one that holds
    rw [← harms] at hlead
    exact hlead.trans (evaluate_tree_of_isTrue htest hq _)
  · intro s s₁ hzero
    have hlead := hzero.runOther [] other
    rw [List.append_nil] at hlead
    exact hlead

/-- The arm `if test { body }` of two names. -/
def nameArm (position : Nat) (test body : String) : Arm where
  position := position
  condition := [⟨.name test, position + 1⟩]
  block := Tree.enclosed .brace (position + 2) [⟨.name body, position + 3⟩]
    (position + 4)
  test := .leaf (.variable test)
  body := .mk .block [.leaf (.variable body)]
  isExpression := {
    ne_nil := List.cons_ne_nil _ _
    plain := by simp [Tree.outside, Lexeme.isBracket]
    parse_eq := rfl }
  isBraced := .mk (.some (List.cons_ne_nil _ _)
    (.last (.singleton rfl rfl)) (.cons rfl .nil))

/-- In `if x { y } else if z { y } else if y { x }` with zero for `x`, one for
`z` and a text for `y`, the second block gives the value; the last condition
would have been an error. -/
theorem evaluate_first_true_branch_second :
    let lim : Limits := { patience := 0 }
    let s : State := { env := ⟨[("x", .number (.ofReal 0.0)),
      ("z", .number (.ofReal 1.0)), ("y", .text "yes")]⟩ }
    let first := nameArm 0 "x" "y"
    let second := nameArm 6 "z" "y"
    let more := [(5, second), (11, nameArm 12 "y" "x")]
    let t := first.tree (branchBehind (more.map Prod.snd) none)
    Tree.parse (first.tokens ++ tokensBehind more none) = .ok t
      ∧ AllZero lim [first] s s
      ∧ evaluate lim second.test s = .ok (.number (.ofReal 1.0)) s
      ∧ (Quantity.ofReal 1.0).isTrue = true
      ∧ evaluate lim t s = .ok (.text "yes") s := by
  intro lim s first second more t
  have hzero : (Quantity.ofReal 0.0).isTrue = false := by decide +kernel
  have hone : (Quantity.ofReal 1.0).isTrue = true := by decide +kernel
  have hfirst : AllZero lim [first] s s := .cons rfl hzero .nil
  obtain ⟨hparse, htrue, -⟩ := evaluate_first_true_branch lim first more none
  exact ⟨hparse, hfirst, rfl, hone,
    htrue [first] second _ _ s s s rfl hfirst rfl hone⟩

end Metrology.Program
