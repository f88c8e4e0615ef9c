/-
Environments: the variables of a program and their values, in the order
in which they were first assigned.
-/
import Metrology.Value

namespace Metrology

structure Environment where
  bindings : List (String × Value) := []

namespace Environment

/-- The value of a variable. -/
def get? (env : Environment) (name : String) : Option Value :=
  env.bindings.lookup name

/-- Replaces the value of a variable, or adds it at the end. -/
def put (name : String) (v : Value) :
    List (String × Value) → List (String × Value)
  | [] => [(name, v)]
  | (n, w) :: rest =>
      if n = name then (n, v) :: rest else (n, w) :: put name v rest

/-- The environment after an assignment. -/
def set (env : Environment) (name : String) (v : Value) : Environment :=
  ⟨put name v env.bindings⟩

theorem lookup_put (name other : String) (v : Value)
    (bs : List (String × Value)) :
    (put name v bs).lookup other
      = if other = name then some v else bs.lookup other := by
  induction bs with
  | nil =>
    simp only [put, List.lookup_cons, List.lookup_nil]
    split <;> simp_all
  | cons b bs ih =>
    obtain ⟨n, w⟩ := b
    simp only [put]
    split
    · next h =>
      subst h
      simp only [List.lookup_cons]
      split <;> simp_all
    · next h =>
      simp only [List.lookup_cons, ih]
      split
      · next ho =>
        simp only [beq_iff_eq] at ho
        subst ho
        simp [h]
      · rfl

/-- Assignment changes one variable and no other. -/
theorem get?_set (env : Environment) (name other : String) (v : Value) :
    (env.set name v).get? other
      = if other = name then some v else env.get? other :=
  lookup_put name other v env.bindings

end Environment

end Metrology
