/-
Every dimension can be shown, and what is shown is that dimension. The
greedy search takes symbols out of a dimension one by one; the terms
collected so far and the remainder always multiply up to the dimension it
began with. It cannot get stuck: a remainder other than unitless has an
exponent that is not zero, and the base unit of that exponent, taken out
with its sign, lowers the norm by one. Each step adds at most one to the
sizes of the exponents collected and lowers the norm by at least one, so
the norm bounds how much is collected in the end.
-/
import Metrology.Dimension.Compose

namespace Metrology.Dimension

-- ============================================================ algebra

theorem mul_def (a b : Dimension) : a * b = Dimension.mul a b := rfl

theorem div_def (a b : Dimension) : a / b = Dimension.div a b := rfl

theorem pow_def (a : Dimension) (n : Int) : a ^ n = Dimension.pow a n := rfl

/-- Plain numbers have the neutral dimension. -/
@[simp] theorem mul_unitless (a : Dimension) : a * unitless = a := by
  obtain ⟨l, m, t, i, θ, n, j⟩ := a
  simp only [mul_def, Dimension.mul, unitless, Int.add_zero]

/-- From the left too. -/
@[simp] theorem unitless_mul (a : Dimension) : unitless * a = a := by
  obtain ⟨l, m, t, i, θ, n, j⟩ := a
  simp only [mul_def, Dimension.mul, unitless, Int.zero_add]

/-- Exponents add up in any order. -/
theorem mul_assoc (a b c : Dimension) : a * b * c = a * (b * c) := by
  simp only [mul_def, Dimension.mul, Int.add_assoc]

/-- Factors may be exchanged. -/
theorem mul_left_comm (a b c : Dimension) : a * (b * c) = b * (a * c) := by
  simp only [mul_def, Dimension.mul, Int.add_left_comm]

/-- The power zero is unitless. -/
@[simp] theorem pow_zero (a : Dimension) : a ^ (0 : Int) = unitless := by
  simp only [pow_def, Dimension.pow, Int.mul_zero, unitless]

/-- Exponents of one symbol add up. -/
theorem pow_add (a : Dimension) (n k : Int) :
    a ^ (n + k) = a ^ k * a ^ n := by
  simp only [pow_def, mul_def, Dimension.pow, Dimension.mul, Int.mul_add,
    Int.add_comm]

/-- What is taken out and what is left make the whole. -/
theorem mul_div_cancel (a b : Dimension) : a * (b / a) = b := by
  obtain ⟨l, m, t, i, θ, n, j⟩ := b
  simp only [mul_def, div_def, Dimension.mul, Dimension.div,
    Dimension.mk.injEq]
  omega

-- =============================================================== terms

/-- The dimension of a symbol of the catalogue. -/
def ofSymbol (symbol : String) : Dimension :=
  (catalogue.lookup symbol).getD unitless

/-- The product of the symbols' dimensions, each to its exponent. -/
def total : Terms → Dimension
  | [] => unitless
  | (symbol, n) :: terms => ofSymbol symbol ^ n * total terms

/-- The sum of the exponents' sizes. -/
def size : Terms → Nat
  | [] => 0
  | (_, n) :: terms => n.natAbs + size terms

/-- The terms are of distinct symbols of the catalogue. -/
structure Proper (terms : Terms) : Prop where
  distinct : (terms.map Prod.fst).Nodup
  listed : ∀ term ∈ terms, term.1 ∈ catalogue.map Prod.fst

/-- No terms at all are proper. -/
theorem proper_nil : Proper [] := ⟨List.nodup_nil, fun _ h => nomatch h⟩

/-- Raising the exponent of a symbol multiplies the whole by the symbol. -/
theorem total_bump (symbol : String) (sign : Int) (terms : Terms) :
    total (bump symbol sign terms)
      = ofSymbol symbol ^ sign * total terms := by
  induction terms with
  | nil => rfl
  | cons term terms ih =>
      obtain ⟨s, n⟩ := term
      unfold bump
      split
      · next heq =>
        subst heq
        rw [total, total, pow_add, mul_assoc]
      · rw [total, total, ih, mul_left_comm]

/-- And the sizes grow by no more than what is added. -/
theorem size_bump_le (symbol : String) (sign : Int) (terms : Terms) :
    size (bump symbol sign terms) ≤ sign.natAbs + size terms := by
  induction terms with
  | nil => exact Nat.le_refl _
  | cons term terms ih =>
      obtain ⟨s, n⟩ := term
      unfold bump
      split
      · rw [size, size]
        omega
      · rw [size, size]
        omega

/-- The symbols are the old ones and the one that is raised. -/
theorem mem_bump {symbol : String} {sign : Int} {terms : Terms}
    {term : String × Int} (h : term ∈ bump symbol sign terms) :
    term.1 = symbol ∨ term.1 ∈ terms.map Prod.fst := by
  induction terms with
  | nil =>
      rw [bump, List.mem_singleton] at h
      exact .inl (by rw [h])
  | cons t terms ih =>
      obtain ⟨s, n⟩ := t
      rw [List.map_cons, List.mem_cons]
      unfold bump at h
      split at h
      · next heq =>
        rcases List.mem_cons.mp h with rfl | h
        · exact .inl heq
        · exact .inr (.inr (List.mem_map_of_mem h))
      · rcases List.mem_cons.mp h with rfl | h
        · exact .inr (.inl rfl)
        · exact (ih h).imp_right .inr

/-- A symbol keeps its place, so symbols stay distinct. -/
theorem nodup_bump {symbol : String} {sign : Int} {terms : Terms}
    (h : (terms.map Prod.fst).Nodup) :
    ((bump symbol sign terms).map Prod.fst).Nodup := by
  induction terms with
  | nil => exact List.nodup_cons.mpr ⟨List.not_mem_nil, List.nodup_nil⟩
  | cons t terms ih =>
      obtain ⟨s, n⟩ := t
      rw [List.map_cons, List.nodup_cons] at h
      unfold bump
      split
      · rw [List.map_cons, List.nodup_cons]
        exact h
      · next hne =>
        rw [List.map_cons, List.nodup_cons]
        refine ⟨fun hmem => ?_, ih h.2⟩
        obtain ⟨term, hterm, heq⟩ := List.mem_map.mp hmem
        rcases mem_bump hterm with hsymbol | hold
        · exact hne (heq.symm.trans hsymbol)
        · exact h.1 (heq ▸ hold)

/-- Terms stay proper with a symbol of the catalogue. -/
theorem Proper.bump {symbol : String} {terms : Terms} (h : Proper terms)
    (hsymbol : symbol ∈ catalogue.map Prod.fst) (sign : Int) :
    Proper (bump symbol sign terms) := by
  refine ⟨nodup_bump h.distinct, fun term hterm => ?_⟩
  rcases mem_bump hterm with rfl | hold
  · exact hsymbol
  · obtain ⟨old, hold, heq⟩ := List.mem_map.mp hold
    exact heq ▸ h.listed old hold

-- ============================================================ the search

/-- The search ends with what it held, or with a move of the list and the
norm that this move leaves. -/
theorem bestAmong_cases (d : Dimension) : ∀ (ms : List Move)
    (held : Nat × Option Move), bestAmong d held ms = held
      ∨ ∃ m ∈ ms, bestAmong d held ms = ((m.leave d).norm, some m) := by
  intro ms
  induction ms with
  | nil => intro held; exact .inl rfl
  | cons x ms ih =>
      intro held
      unfold bestAmong at ih ⊢
      rw [List.foldl_cons]
      split
      · -- the move in hand changes to this one
        rcases ih ((x.leave d).norm, some x) with heq | ⟨m, hm, heq⟩
        · exact .inr ⟨x, List.mem_cons_self .., heq⟩
        · exact .inr ⟨m, List.mem_cons_of_mem _ hm, heq⟩
      · rcases ih held with heq | ⟨m, hm, heq⟩
        · exact .inl heq
        · exact .inr ⟨m, List.mem_cons_of_mem _ hm, heq⟩

/-- The norm in hand never grows. -/
theorem bestAmong_le_held (d : Dimension) : ∀ (ms : List Move)
    (held : Nat × Option Move), (bestAmong d held ms).1 ≤ held.1 := by
  intro ms
  induction ms with
  | nil => intro held; exact Nat.le_refl _
  | cons x ms ih =>
      intro held
      unfold bestAmong at ih ⊢
      rw [List.foldl_cons]
      split
      · next hlt => exact Nat.le_trans (ih _) (Nat.le_of_lt hlt)
      · exact ih held

/-- No move leaves a smaller norm than the best. -/
theorem bestAmong_le (d : Dimension) : ∀ (ms : List Move)
    (held : Nat × Option Move), ∀ m ∈ ms,
      (bestAmong d held ms).1 ≤ (m.leave d).norm := by
  intro ms
  induction ms with
  | nil => intro held m hm; cases hm
  | cons x ms ih =>
      intro held m hm
      rcases List.mem_cons.mp hm with rfl | hm
      · show (bestAmong d (if (m.leave d).norm < held.1
          then ((m.leave d).norm, some m) else held) ms).1 ≤ (m.leave d).norm
        refine Nat.le_trans (bestAmong_le_held d ms _) ?_
        split
        · exact Nat.le_refl _
        · next hge => exact Nat.le_of_not_lt hge
      · exact ih _ m hm

/-- The best move is one of those that are tried. -/
theorem mem_of_bestMove {ms : List Move} {d : Dimension} {m : Move}
    (h : bestMove ms d = some m) : m ∈ ms := by
  unfold bestMove at h
  rcases bestAmong_cases d ms (d.norm, none) with heq | ⟨x, hx, heq⟩
  · rw [heq] at h
    cases h
  · rw [heq] at h
    cases h
    exact hx

/-- A move is found wherever one helps. -/
theorem exists_bestMove {ms : List Move} {d : Dimension} {m : Move}
    (hm : m ∈ ms) (hlt : (m.leave d).norm < d.norm) :
    ∃ x, bestMove ms d = some x := by
  have hle := bestAmong_le d ms (d.norm, none) m hm
  unfold bestMove
  rcases bestAmong_cases d ms (d.norm, none) with heq | ⟨x, -, heq⟩
  · rw [heq] at hle
    exact absurd hle (Nat.not_le_of_lt hlt)
  · exact ⟨x, by rw [heq]⟩

-- ========================================================== the catalogue

/-- Moves are symbols of the catalogue, one way or the other. -/
theorem moves_spec : ∀ m ∈ moves, m.symbol ∈ catalogue.map Prod.fst
    ∧ ofSymbol m.symbol = m.dimension ∧ m.sign.natAbs = 1 := by
  decide +kernel

/-- The norm of what a move leaves, exponent by exponent. -/
theorem norm_leave (m : Move) (d : Dimension) :
    (m.leave d).norm
      = (d.length - m.dimension.length * m.sign).natAbs
        + (d.mass - m.dimension.mass * m.sign).natAbs
        + (d.time - m.dimension.time * m.sign).natAbs
        + (d.current - m.dimension.current * m.sign).natAbs
        + (d.temperature - m.dimension.temperature * m.sign).natAbs
        + (d.amount - m.dimension.amount * m.sign).natAbs
        + (d.luminosity - m.dimension.luminosity * m.sign).natAbs := rfl

/-- The base units, in the order of their exponents. -/
def baseUnits : List (String × Dimension) :=
  [ ("m", { length := 1 }), ("kg", { mass := 1 }), ("s", { time := 1 }),
    ("A", { current := 1 }), ("K", { temperature := 1 }),
    ("mol", { amount := 1 }), ("cd", { luminosity := 1 }) ]

/-- Base units are tried both ways. -/
theorem baseMove_mem : ∀ unit ∈ baseUnits,
    Move.mk unit.1 unit.2 1 ∈ moves ∧ Move.mk unit.1 unit.2 (-1) ∈ moves := by
  decide +kernel

/-- An exponent that is not zero can be brought nearer to it. -/
theorem natAbs_lowered {x : Int} (h : x ≠ 0) :
    (x - 1 * 1).natAbs < x.natAbs ∨ (x - 1 * -1).natAbs < x.natAbs := by
  omega

/-- What is not unitless has an exponent that is not zero, and the base
unit of that exponent lowers the norm. -/
theorem exists_lowering {d : Dimension} (h : d.norm ≠ 0) :
    ∃ m ∈ moves, (m.leave d).norm < d.norm := by
  -- up or down, as the sign of the exponent is
  suffices ∃ unit ∈ baseUnits,
      (Move.leave ⟨unit.1, unit.2, 1⟩ d).norm < d.norm
        ∨ (Move.leave ⟨unit.1, unit.2, -1⟩ d).norm < d.norm by
    obtain ⟨unit, hunit, hlower | hlower⟩ := this
    · exact ⟨_, (baseMove_mem unit hunit).1, hlower⟩
    · exact ⟨_, (baseMove_mem unit hunit).2, hlower⟩
  have hexponent : d.length ≠ 0 ∨ d.mass ≠ 0 ∨ d.time ≠ 0 ∨ d.current ≠ 0
      ∨ d.temperature ≠ 0 ∨ d.amount ≠ 0 ∨ d.luminosity ≠ 0 := by
    unfold norm at h
    omega
  -- one base unit for each exponent
  rcases hexponent with hl | hm | ht | hi | hθ | hn | hj
  · refine ⟨("m", { length := 1 }), by decide, ?_⟩
    rw [norm_leave, norm_leave, norm]
    simpa using natAbs_lowered hl
  · refine ⟨("kg", { mass := 1 }), by decide, ?_⟩
    rw [norm_leave, norm_leave, norm]
    simpa using natAbs_lowered hm
  · refine ⟨("s", { time := 1 }), by decide, ?_⟩
    rw [norm_leave, norm_leave, norm]
    simpa using natAbs_lowered ht
  · refine ⟨("A", { current := 1 }), by decide, ?_⟩
    rw [norm_leave, norm_leave, norm]
    simpa using natAbs_lowered hi
  · refine ⟨("K", { temperature := 1 }), by decide, ?_⟩
    rw [norm_leave, norm_leave, norm]
    simpa using natAbs_lowered hθ
  · refine ⟨("mol", { amount := 1 }), by decide, ?_⟩
    rw [norm_leave, norm_leave, norm]
    simpa using natAbs_lowered hn
  · refine ⟨("cd", { luminosity := 1 }), by decide, ?_⟩
    rw [norm_leave, norm_leave, norm]
    simpa using natAbs_lowered hj

-- ======================================================== the whole search

/-- From terms collected so far and a remainder the search ends, with
terms that make up both and are no larger than both. -/
theorem composeFrom_spec (terms : Terms) (d : Dimension)
    (h : Proper terms) :
    ∃ out, composeFrom moves terms d = some out ∧ Proper out
      ∧ total out = total terms * d ∧ size out ≤ size terms + d.norm := by
  fun_induction composeFrom moves terms d with
  | case1 terms d hzero =>
      have hd : d = unitless := norm_eq_zero_iff.mp hzero
      subst hd
      exact ⟨terms, rfl, h, (mul_unitless _).symm, by omega⟩
  | case2 terms d hnorm hnone =>
      -- the search does not get stuck here
      obtain ⟨m, hm, hlt⟩ := exists_lowering hnorm
      obtain ⟨x, hx⟩ := exists_bestMove hm hlt
      rw [hx] at hnone
      cases hnone
  | case3 terms d hnorm m hm ih =>
      obtain ⟨hsymbol, hdimension, hsign⟩ := moves_spec m (mem_of_bestMove hm)
      obtain ⟨out, hout, hproper, htotal, hsize⟩ :=
        ih (h.bump hsymbol m.sign)
      refine ⟨out, hout, hproper, ?_, ?_⟩
      · calc total out
            = ofSymbol m.symbol ^ m.sign * total terms * m.leave d := by
              rw [htotal, total_bump]
          _ = total terms * (m.dimension ^ m.sign * m.leave d) := by
              rw [hdimension, mul_assoc, mul_left_comm]
          _ = total terms * d := by rw [Move.leave, mul_div_cancel]
      · have hlower := norm_bestMove hm
        have hbump := size_bump_le m.symbol m.sign terms
        omega

-- =========================================================== left out terms

/-- Symbols with the exponent zero contribute nothing. -/
theorem total_filter (terms : Terms) :
    total (terms.filter fun (_, n) => n ≠ 0) = total terms := by
  induction terms with
  | nil => rfl
  | cons term terms ih =>
      obtain ⟨s, n⟩ := term
      by_cases hn : n = 0
      · subst hn
        rw [List.filter_cons_of_neg (by simp), ih, total, pow_zero,
          unitless_mul]
      · rw [List.filter_cons_of_pos (by simpa using hn), total, total, ih]

theorem size_filter_le (terms : Terms) :
    size (terms.filter fun (_, n) => n ≠ 0) ≤ size terms := by
  induction terms with
  | nil => exact Nat.le_refl _
  | cons term terms ih =>
      obtain ⟨s, n⟩ := term
      by_cases hn : n = 0
      · rw [List.filter_cons_of_neg (by simpa using hn), size]
        omega
      · rw [List.filter_cons_of_pos (by simpa using hn), size, size]
        omega

/-- Some of the terms are proper too. -/
theorem Proper.filter {terms : Terms} (h : Proper terms)
    (p : String × Int → Bool) : Proper (terms.filter p) where
  distinct := (List.filter_sublist.map Prod.fst).nodup h.distinct
  listed term hterm := h.listed term ((List.mem_filter.mp hterm).1)

/-- Every dimension is shown in distinct symbols of the catalogue with
exponents other than zero. They multiply up to it, the sizes of the
exponents sum to its norm at most, and only plain numbers are shown in no
symbol at all. -/
theorem compose_total (d : Dimension) : ∃ terms, d.compose = .ok terms
    ∧ (terms.map Prod.fst).Nodup
    ∧ (∀ term ∈ terms, term.1 ∈ catalogue.map Prod.fst ∧ term.2 ≠ 0)
    ∧ total terms = d ∧ size terms ≤ d.norm
    ∧ (terms = [] ↔ d = unitless) := by
  obtain ⟨out, hout, hproper, htotal, hsize⟩ :=
    composeFrom_spec [] d proper_nil
  rw [total, unitless_mul] at htotal
  rw [size, Nat.zero_add] at hsize
  have hkept := hproper.filter fun (_, n) => n ≠ 0
  have hwhole := (total_filter out).trans htotal
  refine ⟨out.filter fun (_, n) => n ≠ 0, ?_, hkept.distinct, ?_, hwhole,
    Nat.le_trans (size_filter_le out) hsize, ?_, ?_⟩
  · unfold compose
    rw [hout]
  · intro term hterm
    refine ⟨hkept.listed term hterm, ?_⟩
    simpa using (List.mem_filter.mp hterm).2
  · intro hnil
    rw [hnil] at hwhole
    exact hwhole.symm
  · rintro rfl
    rw [composeFrom, if_pos (norm_eq_zero_iff.mpr rfl)] at hout
    cases hout
    rfl

end Metrology.Dimension
