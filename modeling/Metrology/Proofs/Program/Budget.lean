/-
Caps on loops are transparent. A cap stops a loop that goes on for too
long and does nothing else: a run that reaches no cap ends in the same
way under every higher cap, and without one.

The two runs go in lockstep. They do the same at every basic action, so
what is left are the loops, where they count against different limits. A
loop that is let through by the lower limit is let through by the higher
one; where the lower limit stops it, the run has reached a cap and there
is nothing to show. The turns behind a loop must not run out either: as
many are left as the cap still allows, and one for the condition that
ends the loop.
-/
import Metrology.Proofs.Program.Effects

namespace Metrology.Program

variable {α β : Type} {lim lim' : Limits} {n : Int}

-- ========================================================= reached caps

/-- The run ended because a loop reached its cap. -/
def hitsCap : EStateM.Result Stop State α → Bool
  | .error (.failed (.eval (.iterationLimit _ _))) _ => true
  | _ => false

/-- A reached cap is an error that names the loop and the cap. -/
theorem exists_of_hitsCap {r : EStateM.Result Stop State α}
    (h : hitsCap r = true) : ∃ (loop : String) (m : Int) (s : State),
      r = .error (.failed (.eval (.iterationLimit loop m))) s := by
  unfold hitsCap at h
  split at h
  · exact ⟨_, _, _, rfl⟩
  · cases h

/-- A cap that is reached ends the whole sequence. -/
theorem hitsCap_bind {x : Action α} {f : α → Action β} {s : State}
    (h : hitsCap (x s) = true) : hitsCap ((x >>= f) s) = true := by
  obtain ⟨loop, m, s', hx⟩ := exists_of_hitsCap h
  show hitsCap (EStateM.bind x f s) = true
  unfold EStateM.bind
  rw [hx]
  rfl

/-- Unless the first action reaches a cap the second ends as it does:
with the same result or error, the same variables and the same output. -/
def SameUnlessCapped (α : Type) (x y : Action α) : Prop :=
  ∀ s : State, hitsCap (x s) = true ∨ y s = x s

/-- An action ends as it does. -/
theorem SameUnlessCapped.refl (x : Action α) : SameUnlessCapped α x x :=
  fun _ => .inr rfl

/-- In a sequence a cap may be reached early or late. -/
theorem SameUnlessCapped.bind {x y : Action α} {f g : α → Action β}
    (hx : SameUnlessCapped α x y)
    (hf : ∀ a, SameUnlessCapped β (f a) (g a)) :
    SameUnlessCapped β (x >>= f) (y >>= g) := by
  intro s
  rcases hx s with hcap | hsame
  · exact .inl (hitsCap_bind hcap)
  · show hitsCap (EStateM.bind x f s) = true
      ∨ EStateM.bind y g s = EStateM.bind x f s
    unfold EStateM.bind
    rw [hsame]
    cases x s with
    | ok a s' => exact hf a s'
    | error stop s' => exact .inr rfl

/-- Nothing but loops counts against a limit. -/
theorem stepwise_sameUnlessCapped :
    Stepwise (fun _ => True) SameUnlessCapped where
  pure a := .refl (Pure.pure a)
  bind := .bind
  fail _ := .refl _
  lookup _ := .refl _
  assign _ _ := .refl _
  write _ := .refl _

-- =============================================================== limits

/-- Every loop may go on at least as far as under the cap `n`. -/
def Limits.Cover (lim : Limits) (n : Int) : Prop :=
  match lim.iterations with
  | some m => n ≤ m
  | none => n.toNat < lim.patience

/-- Such a loop has more turns than the cap allows iterations. -/
theorem Limits.Cover.lt_turns (h : lim.Cover n) : n.toNat < lim.turns := by
  unfold Limits.Cover at h
  unfold Limits.turns
  cases hm : lim.iterations with
  | some m =>
      rw [hm] at h
      show n.toNat < m.toNat + 1
      have hle : n ≤ m := h
      omega
  | none =>
      rw [hm] at h
      exact h

/-- A loop that a cap lets through is let through by what covers it. -/
theorem Limits.Cover.checkIterations (h : lim.Cover n) {count : Nat}
    (hcount : (count : Int) < n) (loop : String) :
    checkIterations lim loop count = pure () := by
  unfold Limits.Cover at h
  unfold Program.checkIterations
  cases hm : lim.iterations with
  | some m =>
      rw [hm] at h
      have hle : n ≤ m := h
      exact if_neg (by omega)
  | none => rfl

/-- A loop with as many iterations as the cap is stopped. -/
theorem hitsCap_checkIterations (hcap : lim.iterations = some n)
    {count : Nat} (hcount : n ≤ (count : Int)) (loop : String) (s : State) :
    hitsCap (checkIterations lim loop count s) = true := by
  unfold Program.checkIterations
  rw [hcap]
  show hitsCap ((if n ≤ (count : Int) then _ else _ : Action Unit) s) = true
  rw [if_pos hcount]
  rfl

/-- A cap covers itself. -/
theorem cover_self (hcap : lim.iterations = some n) : lim.Cover n := by
  obtain ⟨iterations, patience⟩ := lim
  cases hcap
  exact Int.le_refl n

/-- What follows a check may take it that the cap is not yet reached. -/
theorem sameUnlessCapped_check (hcap : lim.iterations = some n)
    (hcover : lim'.Cover n) {count : Nat} {loop : String}
    {x y : Unit → Action α}
    (hx : (count : Int) < n → SameUnlessCapped α (x ()) (y ())) :
    SameUnlessCapped α (checkIterations lim loop count >>= x)
      (checkIterations lim' loop count >>= y) := by
  by_cases hcount : (count : Int) < n
  · rw [(cover_self hcap).checkIterations hcount,
      hcover.checkIterations hcount]
    exact hx hcount
  · intro s
    exact .inl (hitsCap_bind
      (hitsCap_checkIterations hcap (by omega) loop s))

-- ================================================================ loops

/-- `turns` are left beside the current one; under the cap they are those
that the cap still allows. -/
theorem sameUnlessCapped_while (hcap : lim.iterations = some n)
    (hcover : lim'.Cover n) {condition condition' : Action Bool}
    {body body' : Action Value}
    (hcondition : SameUnlessCapped Bool condition condition')
    (hbody : SameUnlessCapped Value body body') :
    ∀ (turns turns' count : Nat) (results : List Value),
      turns + count = n.toNat → turns ≤ turns' →
      SameUnlessCapped (List Value)
        (repeatWhile lim condition body (turns + 1) count results)
        (repeatWhile lim' condition' body' (turns' + 1) count results) := by
  intro turns
  induction turns with
  | zero =>
      intro turns' count results hsum _
      refine .bind hcondition fun holds => ?_
      refine Stepwise.ite (R := SameUnlessCapped) (fun _ => ?_) fun _ => .refl _
      -- no turn is left, so the cap is reached
      exact sameUnlessCapped_check hcap hcover fun hcount => by omega
  | succ turns ih =>
      intro turns' count results hsum hle
      obtain ⟨turns', rfl⟩ : ∃ k, turns' = k + 1 := ⟨turns' - 1, by omega⟩
      refine .bind hcondition fun holds => ?_
      refine Stepwise.ite (R := SameUnlessCapped) (fun _ => ?_) fun _ => .refl _
      refine sameUnlessCapped_check hcap hcover fun _ => ?_
      refine .bind hbody fun v => ?_
      exact ih turns' (count + 1) (v :: results) (by omega) (by omega)

/-- A loop over cells counts no turns, only iterations. -/
theorem sameUnlessCapped_for (hcap : lim.iterations = some n)
    (hcover : lim'.Cover n) {bind bind' : Value → Action Unit}
    {body body' : Action Value}
    (hbind : ∀ v, SameUnlessCapped Unit (bind v) (bind' v))
    (hbody : SameUnlessCapped Value body body') :
    ∀ (cells : List Value) (count : Nat) (results : List Value),
      SameUnlessCapped (List Value)
        (repeatFor lim bind body count cells results)
        (repeatFor lim' bind' body' count cells results) := by
  intro cells
  induction cells with
  | nil => intro count results; exact .refl _
  | cons c cells ih =>
      intro count results
      refine sameUnlessCapped_check hcap hcover fun _ => ?_
      refine .bind (hbind c) fun _ => ?_
      exact .bind hbody fun v => ih (count + 1) (v :: results)

/-- Runs under a cap and under what covers it go in lockstep. -/
theorem lockstep_sameUnlessCapped (hcap : lim.iterations = some n)
    (hcover : lim'.Cover n) :
    Lockstep lim lim' (fun _ => True) SameUnlessCapped where
  toStepwise := stepwise_sameUnlessCapped
  whileLoop hcondition hbody := by
    obtain ⟨turns', hturns'⟩ : ∃ k, lim'.turns = k + 1 :=
      ⟨lim'.turns - 1, by have := hcover.lt_turns; omega⟩
    rw [turns_of_cap hcap, hturns']
    refine sameUnlessCapped_while hcap hcover hcondition hbody _ _ _ _ rfl ?_
    have := hcover.lt_turns
    omega
  forLoop hbind hbody cells :=
    sameUnlessCapped_for hcap hcover hbind hbody cells 0 []

-- ============================================================ evaluation

/-- A run that reaches no cap ends as under any limits that cover it. -/
theorem evaluate_eq_of_cover (hcap : lim.iterations = some n)
    (hcover : lim'.Cover n) {t : Tree} {s : State}
    (h : hitsCap (evaluate lim t s) = false) :
    evaluate lim' t s = evaluate lim t s := by
  rcases (lockstep_sameUnlessCapped hcap hcover).evaluate t
    (fun _ _ => trivial) s with hhits | hsame
  · rw [hhits] at h
    cases h
  · exact hsame

/-- If the evaluation of a tree under a cap ends in anything but a
reached cap, it ends in the same way, with the same variables and the
same output, under every higher cap; and without a cap, as soon as loops
are given more turns than the cap has iterations. -/
theorem evaluate_eq_of_cap_not_hit (t : Tree) (s : State) (n : Int)
    (patience : Nat)
    (h : hitsCap (evaluate ⟨some n, patience⟩ t s) = false) :
    (∀ (m : Int) (patience' : Nat), n ≤ m →
      evaluate ⟨some m, patience'⟩ t s = evaluate ⟨some n, patience⟩ t s)
    ∧ ∀ patience' : Nat, n.toNat < patience' →
      evaluate ⟨none, patience'⟩ t s = evaluate ⟨some n, patience⟩ t s := by
  constructor
  · intro m patience' hle
    have hcover : Limits.Cover ⟨some m, patience'⟩ n := hle
    exact evaluate_eq_of_cover rfl hcover h
  · intro patience' hlt
    have hcover : Limits.Cover ⟨none, patience'⟩ n := hlt
    exact evaluate_eq_of_cover rfl hcover h

/-- `{x = 0; while x < 2 {x = x + 1}}` -/
def countToTwo : Tree :=
  let x := Tree.leaf (.variable "x")
  let number (value : Float) := Tree.leaf (.number value "")
  .mk .block
    [ .mk (.operator .assign) [x, number 0.0],
      .mk (.operator .whileLoop)
        [ .mk (.operator .less) [x, number 2.0],
          .mk .block
            [ .mk (.operator .assign)
                [x, .mk (.operator .plus) [x, number 1.0]] ] ] ]

/-- Two iterations are enough for this loop, so a third is never missed. -/
theorem evaluate_eq_of_cap_not_hit_countToTwo :
    hitsCap (evaluate ⟨some 2, 0⟩ countToTwo {}) = false
    ∧ evaluate ⟨some 3, 0⟩ countToTwo {} = evaluate ⟨some 2, 0⟩ countToTwo {}
    ∧ evaluate ⟨none, 3⟩ countToTwo {} = evaluate ⟨some 2, 0⟩ countToTwo {} := by
  have h : hitsCap (evaluate ⟨some 2, 0⟩ countToTwo {}) = false := by
    decide +kernel
  obtain ⟨hcap, hnone⟩ := evaluate_eq_of_cap_not_hit countToTwo {} 2 0 h
  exact ⟨h, hcap 3 0 (by decide), hnone 3 (by decide)⟩

end Metrology.Program
