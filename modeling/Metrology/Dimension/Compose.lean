/-
A dimension from its exponents, and in familiar symbols. Newtons read
better than kg.m.s⁻², so a dimension is taken apart greedily: of all
catalogue symbols, multiplied or divided out, the one that leaves the
smallest remainder is taken, ties going to the earlier entry, until
nothing remains. Each step lowers the norm, so the search ends.
-/
import Metrology.Error

namespace Metrology.Dimension

/-- The dimension with these exponents, of which there must be seven. -/
def ofExponents : List Int → Except UnitError Dimension
  | [l, m, t, i, θ, n, j] => .ok ⟨l, m, t, i, θ, n, j⟩
  | exponents => .error (.exponentCount exponents.length)

/-- The symbols a dimension is shown in, in order of preference. -/
def catalogue : List (String × Dimension) :=
  [ ("kg", { mass := 1 }),
    ("m", { length := 1 }),
    ("s", { time := 1 }),
    ("A", { current := 1 }),
    ("K", { temperature := 1 }),
    ("mol", { amount := 1 }),
    ("cd", { luminosity := 1 }),
    ("N", { length := 1, mass := 1, time := -2 }),
    ("Pa", { length := -1, mass := 1, time := -2 }),
    ("J", { length := 2, mass := 1, time := -2 }),
    ("W", { length := 2, mass := 1, time := -3 }),
    ("C", { time := 1, current := 1 }),
    ("V", { length := 2, mass := 1, time := -3, current := -1 }),
    ("F", { length := -2, mass := -1, time := 4, current := 2 }),
    ("Ω", { length := 2, mass := 1, time := -3, current := -2 }),
    ("S", { length := -2, mass := -1, time := 3, current := 2 }),
    ("Wb", { length := 2, mass := 1, time := -2, current := -1 }),
    ("Tesla", { mass := 1, time := -2, current := -1 }),
    ("H", { length := 2, mass := 1, time := -2, current := -2 }),
    ("lx", { length := -2, luminosity := 1 }) ]

-- ============================================================== moves

/-- A symbol multiplied in (`sign = 1`) or divided in (`sign = -1`). -/
structure Move where
  symbol : String
  dimension : Dimension
  sign : Int
deriving DecidableEq, Repr

/-- What remains of a dimension once the move is taken out of it. -/
def Move.leave (m : Move) (d : Dimension) : Dimension :=
  d / m.dimension ^ m.sign

/-- Every symbol both ways, in order of preference. -/
def moves : List Move :=
  catalogue.flatMap fun (symbol, d) => [⟨symbol, d, 1⟩, ⟨symbol, d, -1⟩]

/-- The best of a list of moves that beats what is already in hand: the
remainder's norm and the move that leaves it. -/
def bestAmong (d : Dimension) (held : Nat × Option Move) (ms : List Move) :
    Nat × Option Move :=
  ms.foldl
    (fun best m =>
      if (m.leave d).norm < best.1 then ((m.leave d).norm, some m) else best)
    held

/-- The move that lowers the norm the most, the first of equals. -/
def bestMove (ms : List Move) (d : Dimension) : Option Move :=
  (bestAmong d (d.norm, none) ms).2

/-- Whatever is in hand leaves its recorded norm, and no more than the
norm the search began with. -/
theorem bestAmong_norm (d : Dimension) (ms : List Move) :
    ∀ held : Nat × Option Move, held.1 ≤ d.norm →
      (∀ m, held.2 = some m → (m.leave d).norm = held.1 ∧ held.1 < d.norm) →
      ∀ m, (bestAmong d held ms).2 = some m → (m.leave d).norm < d.norm := by
  induction ms with
  | nil =>
    intro held _ h m hm
    obtain ⟨h₁, h₂⟩ := h m hm
    omega
  | cons x ms ih =>
    intro held hle h m hm
    simp only [bestAmong, List.foldl_cons] at hm
    split at hm
    · next hlt =>
      refine ih ((x.leave d).norm, some x) (by omega) ?_ m hm
      intro m' hm'
      cases hm'
      exact ⟨rfl, by omega⟩
    · exact ih held hle h m hm

/-- A move is only taken when it lowers the norm. -/
theorem norm_bestMove {ms : List Move} {d : Dimension} {m : Move}
    (h : bestMove ms d = some m) : (m.leave d).norm < d.norm :=
  bestAmong_norm d ms (d.norm, none) (Nat.le_refl _)
    (fun _ hm => by cases hm) m h

-- ====================================================== decomposition

/-- Symbols with their exponents, in the order they were first chosen. -/
abbrev Terms := List (String × Int)

/-- One more occurrence of a symbol. A symbol keeps the place where it
was first chosen. -/
def bump (symbol : String) (sign : Int) : Terms → Terms
  | [] => [(symbol, sign)]
  | (s, n) :: rest =>
      if s = symbol then (s, n + sign) :: rest
      else (s, n) :: bump symbol sign rest

/-- The terms chosen so far, continued until nothing remains; none if at
some point no move helps. -/
def composeFrom (ms : List Move) (terms : Terms) (d : Dimension) :
    Option Terms :=
  if d.norm = 0 then some terms
  else
    match _h : bestMove ms d with
    | none => none
    | some m => composeFrom ms (bump m.symbol m.sign terms) (m.leave d)
termination_by d.norm
decreasing_by exact norm_bestMove _h

/-- The dimension in catalogue symbols, those that cancelled left out. -/
def compose (d : Dimension) : Except UnitError Terms :=
  match composeFrom moves [] d with
  | none => .error (.undecomposable d)
  | some terms => .ok (terms.filter fun (_, n) => n ≠ 0)

-- =============================================================== text

/-- A symbol with its exponent raised; the exponent one is not shown. -/
def termText (symbol : String) (n : Int) : String :=
  if n = 1 then symbol else symbol ++ Numeral.superscript n

/-- The terms joined by points, in bars when there are several. -/
def termsText (terms : Terms) : String :=
  let text := ".".intercalate (terms.map fun (symbol, n) => termText symbol n)
  if 1 < terms.length then s!"|{text}|" else text

/-- The dimension as it is shown behind a number: "N", "|m.s⁻¹|", and
nothing for plain numbers. -/
def text (d : Dimension) : Except UnitError String :=
  d.compose.map termsText

end Metrology.Dimension
