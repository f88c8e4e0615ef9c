/-
Faults of computed quantities. Arithmetic on doubles has three faults,
and where one of them is not turned into an error with a wording it gets
out as it is. Here stands, for each operation, which faults can: the
quotient and the functions that divide by a length have divisors that
sink to zero, sines and cosines grow too large or have no limit, and so
on. What has the empty list, or does not appear, guards against all.

The lists are read off the sequence of steps: `FaultsIn` and `RaisesIn`
pass through it, and a guard such as `overflowIn` takes its fault off the
list.
-/
import Metrology.Proofs.Sequence
import Metrology.Quantity.Text

namespace Metrology

/-- The faults of the result are in the list. -/
abbrev FaultsIn {α : Type} (fs : List ArithmeticFault)
    (x : Except ArithmeticFault α) : Prop :=
  FailsOnly (· ∈ fs) x

/-- The faults among the errors of the result are in the list. -/
abbrev RaisesIn {α : Type} (fs : List ArithmeticFault)
    (x : Except Error α) : Prop :=
  FailsOnly (fun e => ∀ f, e = .arithmetic f → f ∈ fs) x

section

variable {α : Type} {fs gs : List ArithmeticFault}

/-- A longer list holds the faults as well. -/
theorem FaultsIn.widen {x : Except ArithmeticFault α} (h : FaultsIn fs x)
    (hsub : fs ⊆ gs) : FaultsIn gs x :=
  h.mono fun _ hf => hsub hf

/-- Faults that are passed on are raised as they are. -/
theorem raisesIn_arithmetic {x : Except ArithmeticFault α}
    (h : FaultsIn fs x) : RaisesIn fs (x.mapError Error.arithmetic) := by
  refine .mapError fun f hf g hg => ?_
  cases hg
  exact h f hf

/-- A unit error is no fault of arithmetic. -/
theorem raisesIn_unit {x : Except UnitError α} :
    RaisesIn fs (x.mapError Error.unit) :=
  .mapError fun _ _ _ h => by cases h

theorem raisesIn_eval {x : Except EvalError α} :
    RaisesIn fs (x.mapError Error.eval) :=
  .mapError fun _ _ _ h => by cases h

/-- An overflow that a program is told about is no fault any more. -/
theorem raisesIn_overflowIn {operation : String}
    {x : Except ArithmeticFault α} (h : FaultsIn (.overflow :: fs) x) :
    RaisesIn fs (x.mapError (Quantity.overflowIn operation)) := by
  refine .mapError fun f hf g hg => ?_
  cases f with
  | overflow => cases hg
  | zeroDivision | domain =>
      cases hg
      exact (List.mem_cons.mp (h _ hf)).resolve_left nofun

end

-- ============================================================= doubles

namespace Double

/-- A quotient lacks a value for the divisor zero. -/
theorem faultsIn_divide (x y : Float) :
    FaultsIn [.zeroDivision] (divide x y) :=
  .ite (.error (by decide)) .ok

/-- A root lacks a value below zero. -/
theorem faultsIn_sqrt (x : Float) : FaultsIn [.domain] (sqrt x) :=
  .ite (.error (by decide)) .ok

/-- A power may grow too large. -/
theorem faultsIn_pow (x y : Float) : FaultsIn [.overflow] (pow x y) :=
  .ite (.error (by decide)) .ok

/-- With a whole exponent it may also be a reciprocal of zero. -/
theorem faultsIn_powWhole (x : Float) (n : Int) :
    FaultsIn [.overflow, .zeroDivision] (powWhole x n) := by
  refine .ite (.error (by decide)) (.ite (.error (by decide)) ?_)
  exact (faultsIn_pow _ _).widen (by decide)

end Double

-- ============================================================== scales

namespace Scale

/-- A scale is raised by raising its factor. -/
theorem faultsIn_pow (s : Scale) (n : Int) :
    FaultsIn [.overflow, .zeroDivision] (s.pow n) :=
  .bind (Double.faultsIn_powWhole _ n) fun _ _ => .ok

/-- Only a scale that divides can bring up a fault here, the factor zero. -/
theorem faultsIn_combine (acc s : Scale) (divides : Bool) :
    FaultsIn [.overflow, .zeroDivision] (combine acc s divides) := by
  unfold combine
  extract_lets shift
  refine .ite (.bind ?_ fun _ _ => .ok) .ok
  exact (Double.faultsIn_divide _ _).widen (by decide)

variable {P : Error → Prop}

/-- What is wrong with a term is a matter of units or of arithmetic. -/
theorem failsOnly_readTerm (hunit : ∀ e, P (.unit e))
    (hfault : ∀ f ∈ [.overflow, .zeroDivision], P (.arithmetic f))
    (term : String) : FailsOnly P (readTerm term) := by
  refine .bind (.mapError fun e _ => hunit e) fun _ _ => ?_
  exact .mapError ((faultsIn_pow _ _).mono hfault)

theorem failsOnly_readBlock (hunit : ∀ e, P (.unit e))
    (hfault : ∀ f ∈ [.overflow, .zeroDivision], P (.arithmetic f))
    (block : String) : FailsOnly P (readBlock block) := by
  have hterms : ∀ (alone : Bool) (ts : List Term) (acc : Scale),
      FailsOnly P (readTerms block alone acc ts) := by
    intro alone ts
    -- along the terms, for whatever has been combined before them
    induction ts with
    | nil => intro acc; exact .ok
    | cons t ts ih =>
        intro acc
        refine .bind (failsOnly_readTerm hunit hfault t.text) fun s _ => ?_
        refine .ite (.error (hunit _)) ?_
        have hcombine := (faultsIn_combine acc s t.divides).mono hfault
        exact .bind (.mapError hcombine) fun acc _ => ih acc
  exact .bind (.mapError fun e _ => hunit e) fun ts _ => hterms _ ts _

/-- The faults of a term are those of the power in it. -/
theorem raisesIn_readTerm (term : String) :
    RaisesIn [.overflow, .zeroDivision] (readTerm term) := by
  refine failsOnly_readTerm (fun e f hf => by cases hf) ?_ term
  intro f hf g hg
  cases hg
  exact hf

/-- And those of a block are those of its terms and of their quotients. -/
theorem raisesIn_readBlock (block : String) :
    RaisesIn [.overflow, .zeroDivision] (readBlock block) := by
  refine failsOnly_readBlock (fun e f hf => by cases hf) ?_ block
  intro f hf g hg
  cases hg
  exact hf

end Scale

-- ===================================================== complex numbers

namespace Phasor

open Double

/-- What has grown too large is a fault, and nothing else. -/
theorem faultsIn_unlessInfinite (z : Phasor) :
    FaultsIn [.overflow] z.unlessInfinite :=
  .ite (.error (by decide)) .ok

/-- A hyperbolic cosine may grow too large, or have no limit at infinity. -/
theorem faultsIn_cosh (z : Phasor) :
    FaultsIn [.overflow, .domain] z.cosh := by
  refine .ite ?_ (.ite (.error (by decide)) .ok)
  exact (faultsIn_unlessInfinite _).widen (by decide)

theorem faultsIn_sinh (z : Phasor) :
    FaultsIn [.overflow, .domain] z.sinh := by
  refine .ite ?_ (.ite (.error (by decide)) .ok)
  exact (faultsIn_unlessInfinite _).widen (by decide)

/-- The sine is a hyperbolic sine, turned. -/
theorem faultsIn_sin (z : Phasor) : FaultsIn [.overflow, .domain] z.sin :=
  .bind (faultsIn_sinh _) fun _ _ => .ok

/-- The cosine is a hyperbolic cosine, turned. -/
theorem faultsIn_cos (z : Phasor) : FaultsIn [.overflow, .domain] z.cos :=
  faultsIn_cosh _

/-- The exponential may grow too large, or have no limit at infinity. -/
theorem faultsIn_exp (z : Phasor) : FaultsIn [.overflow, .domain] z.exp := by
  refine .ite (.ite ?_ ?_) (.ite (.error (by decide)) .ok)
  · exact (faultsIn_unlessInfinite _).widen (by decide)
  · exact (faultsIn_unlessInfinite _).widen (by decide)

/-- Zero has no reciprocal. -/
theorem faultsIn_recip (z : Phasor) : FaultsIn [.zeroDivision] z.recip :=
  .ite (.ite (.error (by decide)) .ok) (.ite .ok .ok)

/-- In polar form, an angle that has grown beyond all numbers is a fault. -/
theorem faultsIn_powPolar (z : Phasor) (c : Float) :
    FaultsIn [.zeroDivision] (z.powPolar c) :=
  .ite (.error (by decide)) .ok

/-- A power of a complex number may grow too large, be a reciprocal of zero,
or lose its angle. -/
theorem faultsIn_pow (z : Phasor) (c : Float) :
    FaultsIn [.overflow, .zeroDivision] (z.pow c) := by
  have hinfinite : ∀ w : Phasor,
      FaultsIn [.overflow, .zeroDivision] w.unlessInfinite :=
    fun w => (faultsIn_unlessInfinite w).widen (by decide)
  unfold pow
  extract_lets finish
  -- by whether the exponent is a small whole number
  split
  · refine .ite (hinfinite _) (.bind ?_ fun w _ => hinfinite w)
    exact (faultsIn_recip _).widen (by decide)
  · refine .ite (.ite (.error (by decide)) (hinfinite zero)) ?_
    refine .bind ?_ fun w _ => hinfinite w
    exact (faultsIn_powPolar z c).widen (by decide)

end Phasor

-- ========================================================== quantities

namespace Quantity

open Double

/-- A number with a unit has the faults of the unit. -/
theorem raisesIn_literal (value : Float) (decorator : String) :
    RaisesIn [.overflow, .zeroDivision] (literal value decorator) := by
  refine .ite .ok (.ite .ok ?_)
  exact .bind (Scale.raisesIn_readTerm decorator) fun _ _ => .ok

/-- The squares of a small divisor may sink to zero. -/
theorem faultsIn_overNonzero (a b : Quantity) :
    FaultsIn [.zeroDivision] (a.overNonzero b) :=
  .ite (.error (by decide)) .ok

/-- So a quotient has that fault, though the divisor zero itself is none. -/
theorem faultsIn_div (a b : Quantity) : FaultsIn [.zeroDivision] (a.div b) :=
  .ite (.ite .ok (faultsIn_overNonzero _ _)) (faultsIn_overNonzero _ _)

/-- A base and a real exponent have the faults of their power. -/
theorem faultsIn_powValue (a : Quantity) (c : Float) :
    FaultsIn [.overflow, .zeroDivision] (a.powValue c) := by
  refine .ite .ok (.ite (.map ?_) (Phasor.faultsIn_pow _ c))
  exact (Double.faultsIn_pow _ c).widen (by decide)

/-- The derivatives of a power hold another power. -/
theorem faultsIn_powDerivatives (a : Quantity) (c : Float)
    (value : Phasor) :
    FaultsIn [.overflow, .zeroDivision] (a.powDerivatives c value) :=
  .ite .ok (.bind (Phasor.faultsIn_pow _ _) fun _ _ => .ok)

/-- The value of a power guards against overflow, its derivatives do
not. -/
theorem raisesIn_pow (a b : Quantity) :
    RaisesIn [.overflow, .zeroDivision] (a.pow b) := by
  refine .ite (.error nofun) (.ite (.error nofun) ?_)
  refine .bind raisesIn_unit fun unit _ => ?_
  refine .bind (raisesIn_overflowIn ?_) fun value _ => ?_
  · exact (faultsIn_powValue a b.re).widen (List.subset_cons_self _ _)
  · exact .bind (raisesIn_arithmetic (faultsIn_powDerivatives a b.re value))
      fun _ _ => .ok

/-- Comparing computes nothing that could fail. -/
theorem raisesIn_compare (a b : Quantity) (op : Operator) :
    RaisesIn [] (a.compare b op) := by
  refine .bind raisesIn_unit fun _ _ => ?_
  split
  · exact .ok
  · exact .ok
  · refine .bind raisesIn_eval fun _ _ => ?_
    split
    · exact .ok
    · exact .ok
    · exact .ok
    · exact .ok
    · exact .error nofun

/-- A deviation is a root, so it needs a variance that is not below zero. -/
theorem faultsIn_sigma (q : Quantity) : FaultsIn [.domain] q.sigma :=
  .bind (faultsIn_sqrt _) fun _ _ => .bind (faultsIn_sqrt _) fun _ _ => .ok

/-- The sine and its slope may fail, and neither says so in its own
words. -/
theorem raisesIn_sin (q : Quantity) :
    RaisesIn [.overflow, .domain] q.sin :=
  .bind raisesIn_eval fun _ _ =>
    .bind (raisesIn_arithmetic (Phasor.faultsIn_sin _)) fun _ _ =>
      .bind (raisesIn_arithmetic (Phasor.faultsIn_cos _)) fun _ _ => .ok

/-- The cosine likewise. -/
theorem raisesIn_cos (q : Quantity) :
    RaisesIn [.overflow, .domain] q.cos :=
  .bind raisesIn_eval fun _ _ =>
    .bind (raisesIn_arithmetic (Phasor.faultsIn_cos _)) fun _ _ =>
      .bind (raisesIn_arithmetic (Phasor.faultsIn_sin _)) fun _ _ => .ok

/-- Of the functions that may overflow this one says so. -/
theorem raisesIn_exp (q : Quantity) : RaisesIn [.domain] q.exp :=
  .bind raisesIn_eval fun _ _ =>
    .bind (raisesIn_overflowIn (Phasor.faultsIn_exp _)) fun _ _ => .ok

/-- The variance of a length is divided by the length, which may sink to
zero. -/
theorem faultsIn_abs (q : Quantity) : FaultsIn [.zeroDivision] q.abs := by
  unfold abs
  extract_lets length
  exact .ite .ok (.bind (faultsIn_divide _ _) fun _ _ => .ok)

theorem faultsIn_arg (q : Quantity) : FaultsIn [.zeroDivision] q.arg := by
  unfold arg
  extract_lets length finish
  exact .ite (.bind (faultsIn_divide _ _) fun _ _ => .ok) .ok

/-- Choosing the larger computes nothing that could fail. -/
theorem raisesIn_max (a b : Quantity) : RaisesIn [] (a.max b) :=
  .bind raisesIn_unit fun _ _ => .bind raisesIn_eval fun _ _ => .ok

theorem raisesIn_min (a b : Quantity) : RaisesIn [] (a.min b) :=
  .bind raisesIn_unit fun _ _ => .bind raisesIn_eval fun _ _ => .ok

end Quantity

end Metrology
