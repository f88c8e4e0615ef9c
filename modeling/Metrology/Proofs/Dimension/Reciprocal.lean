/-
Reciprocals. A dimension and its reciprocal are shown in the same
symbols, in the same order, with opposite exponents.

Nothing in the search says so: each symbol is tried multiplied before it
is tried divided, and among equals the first one wins. But what a symbol
gains one way it loses the other way. By the triangle inequality the two
remainders have together at least twice the norm of what they are taken
out of (`two_mul_norm_le`), so at most one of them can beat what is in
hand, and the order in which the two are tried does not matter. The
search for the reciprocal then finds the opposite of each move, step by
step, and collects the opposite of each term.
-/
import Metrology.Proofs.Dimension.Composition
import Mathlib.Tactic.Linarith

namespace Metrology.Dimension

-- ========================================================== opposites

/-- The dimension with every exponent negated. -/
def reciprocal (d : Dimension) : Dimension where
  length := -d.length
  mass := -d.mass
  time := -d.time
  current := -d.current
  temperature := -d.temperature
  amount := -d.amount
  luminosity := -d.luminosity

/-- The terms with every exponent negated. -/
def opposite (terms : Terms) : Terms :=
  terms.map fun term => (term.1, -term.2)

/-- The same symbol the other way. -/
def Move.reversed (m : Move) : Move := { m with sign := -m.sign }

@[simp] theorem reversed_mk (symbol : String) (e : Dimension) (sign : Int) :
    Move.reversed ⟨symbol, e, sign⟩ = ⟨symbol, e, -sign⟩ := rfl

/-- What is in hand, with the move the other way. -/
def reversedHeld (held : Nat × Option Move) : Nat × Option Move :=
  (held.1, held.2.map Move.reversed)

/-- The reciprocal has the same norm. -/
@[simp] theorem norm_reciprocal (d : Dimension) :
    d.reciprocal.norm = d.norm := by
  simp only [norm, reciprocal, Int.natAbs_neg]

/-- The opposite move leaves the reciprocal of what the move leaves. -/
theorem leave_reversed (m : Move) (d : Dimension) :
    m.reversed.leave d.reciprocal = (m.leave d).reciprocal := by
  simp only [Move.leave, Move.reversed, reciprocal, div_def, pow_def,
    Dimension.div, Dimension.pow, Int.mul_neg, Dimension.mk.injEq]
  omega

-- ========================================================= one symbol

/-- The symbol both ways, as the search tries them. -/
def bothWays (entry : String × Dimension) : List Move :=
  [⟨entry.1, entry.2, 1⟩, ⟨entry.1, entry.2, -1⟩]

/-- The triangle inequality for one exponent. -/
theorem two_mul_natAbs_le (x a : Int) :
    2 * x.natAbs ≤ (x - a * 1).natAbs + (x - a * -1).natAbs := by
  omega

/-- What a symbol gains one way it loses the other way. -/
theorem two_mul_norm_le (symbol : String) (e d : Dimension) :
    2 * d.norm ≤ (Move.leave ⟨symbol, e, 1⟩ d).norm
      + (Move.leave ⟨symbol, e, -1⟩ d).norm := by
  have hlength := two_mul_natAbs_le d.length e.length
  have hmass := two_mul_natAbs_le d.mass e.mass
  have htime := two_mul_natAbs_le d.time e.time
  have hcurrent := two_mul_natAbs_le d.current e.current
  have htemperature := two_mul_natAbs_le d.temperature e.temperature
  have hamount := two_mul_natAbs_le d.amount e.amount
  have hluminosity := two_mul_natAbs_le d.luminosity e.luminosity
  rw [norm_leave, norm_leave, norm]
  linarith only [hlength, hmass, htime, hcurrent, htemperature, hamount,
    hluminosity]

@[simp] theorem norm_leave_reversed (m : Move) (d : Dimension) :
    (m.reversed.leave d.reciprocal).norm = (m.leave d).norm := by
  rw [leave_reversed, norm_reciprocal]

/-- At most one way beats what is in hand, so trying them in the other
order finds the same way. -/
theorem bestAmong_bothWays (entry : String × Dimension) (d : Dimension)
    {held : Nat × Option Move} (hheld : held.1 ≤ d.norm) :
    bestAmong d.reciprocal (reversedHeld held) (bothWays entry)
      = reversedHeld (bestAmong d held (bothWays entry)) := by
  obtain ⟨symbol, e⟩ := entry
  have hsum := two_mul_norm_le symbol e d
  have hover : (Move.leave ⟨symbol, e, 1⟩ d.reciprocal).norm
      = (Move.leave ⟨symbol, e, -1⟩ d).norm := by
    have h := norm_leave_reversed ⟨symbol, e, -1⟩ d
    rwa [reversed_mk, Int.neg_neg] at h
  have hunder : (Move.leave ⟨symbol, e, -1⟩ d.reciprocal).norm
      = (Move.leave ⟨symbol, e, 1⟩ d).norm := by
    have h := norm_leave_reversed ⟨symbol, e, 1⟩ d
    rwa [reversed_mk] at h
  simp only [bestAmong, bothWays, List.foldl_cons, List.foldl_nil, hover,
    hunder, reversedHeld]
  -- from here on two numbers count, which sum to twice the norm at least
  generalize (Move.leave ⟨symbol, e, 1⟩ d).norm = multiplied at hsum ⊢
  generalize (Move.leave ⟨symbol, e, -1⟩ d).norm = divided at hsum ⊢
  by_cases hm : multiplied < held.1
  · have hd : ¬ divided < held.1 := by omega
    have hworse : ¬ divided < multiplied := by omega
    simp only [if_pos hm, if_neg hd, if_neg hworse, Option.map_some,
      reversed_mk]
  · simp only [if_neg hm]
    by_cases hd : divided < held.1
    · have hworse : ¬ multiplied < divided := by omega
      simp only [if_pos hd, if_neg hworse, Option.map_some, reversed_mk,
        Int.neg_neg]
    · simp only [if_neg hd, if_neg hm]

-- ======================================================== all symbols

theorem moves_eq : moves = catalogue.flatMap bothWays := by
  unfold moves
  rfl

/-- The search goes on with what it holds. -/
theorem bestAmong_append (d : Dimension) (held : Nat × Option Move)
    (ms ns : List Move) :
    bestAmong d held (ms ++ ns) = bestAmong d (bestAmong d held ms) ns :=
  List.foldl_append

/-- Symbol by symbol, it holds the opposite move. -/
theorem bestAmong_reciprocal (d : Dimension) :
    ∀ (entries : List (String × Dimension)) (held : Nat × Option Move),
      held.1 ≤ d.norm →
      bestAmong d.reciprocal (reversedHeld held) (entries.flatMap bothWays)
        = reversedHeld (bestAmong d held (entries.flatMap bothWays)) := by
  intro entries
  induction entries with
  | nil => intro held _; rfl
  | cons entry entries ih =>
      intro held hheld
      have hle := Nat.le_trans (bestAmong_le_held d (bothWays entry) held) hheld
      rw [List.flatMap_cons, bestAmong_append, bestAmong_append,
        bestAmong_bothWays entry d hheld, ih _ hle]

/-- The best move for the reciprocal is the best move the other way. -/
theorem bestMove_reciprocal (d : Dimension) :
    bestMove moves d.reciprocal = (bestMove moves d).map Move.reversed := by
  have hbest := bestAmong_reciprocal d catalogue (d.norm, none) (Nat.le_refl _)
  rw [reversedHeld, Option.map_none] at hbest
  unfold bestMove
  rw [norm_reciprocal, moves_eq, hbest, reversedHeld]

-- ======================================================== decomposition

/-- Opposite exponents are raised by opposite amounts. -/
theorem bump_opposite (symbol : String) (sign : Int) (terms : Terms) :
    bump symbol (-sign) (opposite terms)
      = opposite (bump symbol sign terms) := by
  induction terms with
  | nil => rfl
  | cons term terms ih =>
      obtain ⟨s, n⟩ := term
      show bump symbol (-sign) ((s, -n) :: opposite terms) = _
      rw [bump, bump]
      split
      · show (s, -n + -sign) :: opposite terms
          = (s, -(n + sign)) :: opposite terms
        rw [Int.neg_add]
      · rw [ih]
        rfl

/-- Step by step, the search for the reciprocal collects the opposite
terms. -/
theorem composeFrom_reciprocal (terms : Terms) (d : Dimension) :
    composeFrom moves (opposite terms) d.reciprocal
      = (composeFrom moves terms d).map opposite := by
  fun_induction composeFrom moves terms d with
  | case1 terms d hzero =>
      rw [composeFrom, if_pos (by rw [norm_reciprocal, hzero])]
      rfl
  | case2 terms d hnorm hnone =>
      have hnone' : bestMove moves d.reciprocal = none := by
        rw [bestMove_reciprocal, hnone]
        rfl
      rw [composeFrom, if_neg (by rwa [norm_reciprocal])]
      split
      · rfl
      · next heq => rw [hnone'] at heq; cases heq
  | case3 terms d hnorm m hm ih =>
      have hm' : bestMove moves d.reciprocal = some m.reversed := by
        rw [bestMove_reciprocal, hm]
        rfl
      rw [composeFrom, if_neg (by rwa [norm_reciprocal])]
      split
      · next heq => rw [hm'] at heq; cases heq
      · next heq =>
        rw [hm'] at heq
        cases heq
        rw [leave_reversed, ← ih, ← bump_opposite]
        rfl

/-- The same exponents are zero. -/
theorem filter_opposite (terms : Terms) :
    (opposite terms).filter (fun (_, n) => n ≠ 0)
      = opposite (terms.filter fun (_, n) => n ≠ 0) := by
  rw [opposite, List.filter_map, opposite]
  refine congrArg _ (List.filter_congr fun term _ => ?_)
  simp

/-- The reciprocal of a dimension is shown in the same symbols in the
same order, with the opposite exponents. -/
theorem compose_reciprocal (d : Dimension) :
    ∃ terms, d.compose = .ok terms
      ∧ d.reciprocal.compose
        = .ok (terms.map fun term => (term.1, -term.2)) := by
  obtain ⟨out, hout, -⟩ := composeFrom_spec [] d proper_nil
  have hreciprocal : composeFrom moves [] d.reciprocal
      = some (opposite out) := by
    have hsearch := composeFrom_reciprocal [] d
    rw [hout] at hsearch
    exact hsearch
  refine ⟨out.filter fun (_, n) => n ≠ 0, ?_, ?_⟩
  · rw [compose, hout]
  · rw [compose, hreciprocal]
    exact congrArg Except.ok (filter_opposite out)

end Metrology.Dimension
