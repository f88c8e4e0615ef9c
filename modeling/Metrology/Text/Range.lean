/-
Character classes as tables of closed ranges of code points. A table is
plain data; membership is one function, so a class is settled by naming
its table.
-/

namespace Metrology.Text

/-- A closed range of code points, first and last. -/
abbrev Range := Nat × Nat

/-- The character lies in one of the ranges. -/
def inRanges (table : List Range) (c : Char) : Bool :=
  table.any fun (first, last) => first ≤ c.toNat && c.toNat ≤ last

theorem inRanges_iff {table : List Range} {c : Char} :
    inRanges table c = true
      ↔ ∃ r ∈ table, r.1 ≤ c.toNat ∧ c.toNat ≤ r.2 := by
  simp [inRanges]

end Metrology.Text
