/-
Computations in sequence, and what their ends say about their steps. A
sequence succeeds when all its steps do, and its errors are those of its
steps: `FailsOnly P x` says that every error of `x` is one of `P`, and a
computation has this property if its steps have it. `YieldsOnly P x` says
the same of its result, which is that of the last step.
-/
import Mathlib.Data.List.Forall2

namespace Metrology

-- ================================================ successful sequences

/-- A step that succeeds hands its result on. -/
@[simp] theorem ok_bind {ε α β : Type} (a : α) (f : α → Except ε β) :
    Except.ok a >>= f = f a := rfl

/-- A sequence succeeds when both its steps do. -/
theorem bind_eq_ok {ε α β : Type} {x : Except ε α} {f : α → Except ε β}
    {b : β} : x >>= f = .ok b ↔ ∃ a, x = .ok a ∧ f a = .ok b := by
  cases x with
  | error e => simp [bind, Except.bind]
  | ok a => simp [bind, Except.bind]

/-- A step whose result stands before those of the rest succeeds when
both do. -/
theorem bind_cons_eq_ok {ε α β : Type} {x : Except ε α} {f : α → β}
    {rest : Except ε (List β)} {bs : List β} :
    (do let a ← x; return f a :: (← rest)) = .ok bs
      ↔ ∃ a bs', x = .ok a ∧ rest = .ok bs' ∧ bs = f a :: bs' := by
  constructor
  · intro h
    obtain ⟨a, ha, h⟩ := bind_eq_ok.mp h
    obtain ⟨bs', hbs, h⟩ := bind_eq_ok.mp h
    cases h
    exact ⟨a, bs', ha, hbs, rfl⟩
  · rintro ⟨a, bs', ha, hbs, rfl⟩
    rw [ha, hbs]
    rfl

/-- A traversal succeeds when every step does. -/
theorem mapM_eq_ok {ε α β : Type} {f : α → Except ε β} :
    ∀ {xs : List α} {ys : List β},
      xs.mapM f = .ok ys ↔ List.Forall₂ (fun x y => f x = .ok y) xs ys := by
  intro xs
  induction xs with
  | nil =>
      intro ys
      rw [List.mapM_nil, List.forall₂_nil_left_iff]
      exact ⟨fun h => by cases h; rfl, fun h => by rw [h]; rfl⟩
  | cons x xs ih =>
      intro ys
      rw [List.mapM_cons, List.forall₂_cons_left_iff]
      constructor
      · intro h
        obtain ⟨y, ys', hy, hys, rfl⟩ := bind_cons_eq_ok.mp h
        exact ⟨y, ys', hy, ih.mp hys, rfl⟩
      · rintro ⟨y, ys', hy, hys, rfl⟩
        exact bind_cons_eq_ok.mpr ⟨y, ys', hy, ih.mpr hys, rfl⟩

/-- A traversal depends on its step only at the members of the list. -/
theorem mapM_congr {ε α β : Type} {f g : α → Except ε β} {xs : List α}
    (h : ∀ x ∈ xs, f x = g x) : xs.mapM f = xs.mapM g := by
  induction xs with
  | nil => rfl
  | cons x xs ih =>
      rw [List.mapM_cons, List.mapM_cons, h x (List.mem_cons_self ..),
        ih fun y hy => h y (List.mem_cons_of_mem _ hy)]

/-- A traversal succeeds alike on a changed list where its step does not
see the change. -/
theorem mapM_map_eq_ok {ε α β : Type} {f : α → Except ε β} {g : α → α} :
    ∀ {xs : List α} {ys : List β},
      (∀ x ∈ xs, ∀ y, f x = .ok y → f (g x) = .ok y) →
      xs.mapM f = .ok ys → (xs.map g).mapM f = .ok ys := by
  intro xs ys hf h
  have hsteps := mapM_eq_ok.mp h
  refine mapM_eq_ok.mpr ?_
  clear h
  induction hsteps with
  | nil => exact .nil
  | cons hy _ ih =>
      exact .cons (hf _ (List.mem_cons_self ..) _ hy)
        (ih fun x hx => hf x (List.mem_cons_of_mem _ hx))

-- ==================================================== failing sequences

/-- Every error of the result is one of `P`. -/
def FailsOnly {ε α : Type} (P : ε → Prop) (x : Except ε α) : Prop :=
  ∀ e, x = .error e → P e

namespace FailsOnly

variable {ε ε' α β : Type} {P Q : ε → Prop}

/-- A success is no error at all. -/
theorem ok {a : α} : FailsOnly P (.ok a : Except ε α) := by
  intro e h
  cases h

/-- An error is the only one of itself. -/
theorem error {e : ε} (h : P e) : FailsOnly P (.error e : Except ε α) := by
  intro e' h'
  cases h'
  exact h

/-- The errors of a sequence are those of its first step, or of the second
from where the first one leads. -/
theorem bind {x : Except ε α} {f : α → Except ε β} (hx : FailsOnly P x)
    (hf : ∀ a, x = .ok a → FailsOnly P (f a)) : FailsOnly P (x >>= f) := by
  cases x with
  | error e => exact error (hx e rfl)
  | ok a => exact hf a rfl

/-- The errors of a choice are those of its branches. -/
theorem ite {c : Prop} [Decidable c] {x y : Except ε α}
    (hx : FailsOnly P x) (hy : FailsOnly P y) :
    FailsOnly P (if c then x else y) := by
  split
  · exact hx
  · exact hy

/-- Errors that are renamed on the way are judged by their new names. -/
theorem mapError {x : Except ε α} {f : ε → ε'} {P : ε' → Prop}
    (hx : FailsOnly (fun e => P (f e)) x) : FailsOnly P (x.mapError f) := by
  cases x with
  | error e => exact error (hx e rfl)
  | ok a => exact ok

/-- What is done with a result adds no error. -/
theorem map {x : Except ε α} {f : α → β} (hx : FailsOnly P x) :
    FailsOnly P (x.map f) := by
  cases x with
  | error e => exact error (hx e rfl)
  | ok a => exact ok

/-- Errors of one kind are errors of every wider kind. -/
theorem mono {x : Except ε α} (hx : FailsOnly P x) (h : ∀ e, P e → Q e) :
    FailsOnly Q x :=
  fun e he => h e (hx e he)

/-- The errors of a traversal are those of its steps. -/
theorem mapM {f : α → Except ε β} {xs : List α}
    (h : ∀ x ∈ xs, FailsOnly P (f x)) : FailsOnly P (xs.mapM f) := by
  induction xs with
  | nil => exact ok
  | cons x xs ih =>
      rw [List.mapM_cons]
      refine bind (h x (List.mem_cons_self ..)) fun y _ => ?_
      exact bind (ih fun z hz => h z (List.mem_cons_of_mem _ hz))
        fun _ _ => ok

/-- The errors of a fold are those of its steps, whatever they start
from. -/
theorem foldlM {f : β → α → Except ε β} {xs : List α}
    (h : ∀ x ∈ xs, ∀ b, FailsOnly P (f b x)) :
    ∀ (b : β), FailsOnly P (xs.foldlM f b) := by
  induction xs with
  | nil => exact fun b => ok
  | cons x xs ih =>
      intro b
      rw [List.foldlM_cons]
      exact bind (h x (List.mem_cons_self ..) b) fun b' _ =>
        ih (fun y hy => h y (List.mem_cons_of_mem _ hy)) b'

end FailsOnly

-- ================================================ results of sequences

/-- The result, if there is one, is one of `P`. -/
def YieldsOnly {ε α : Type} (P : α → Prop) (x : Except ε α) : Prop :=
  ∀ a, x = .ok a → P a

namespace YieldsOnly

variable {ε ε' α β : Type} {P : α → Prop} {Q : β → Prop}

/-- A success yields what it is. -/
theorem ok {a : α} (h : P a) : YieldsOnly P (.ok a : Except ε α) := by
  intro a' h'
  cases h'
  exact h

/-- An error yields nothing. -/
theorem error {e : ε} : YieldsOnly P (.error e : Except ε α) := by
  intro a h
  cases h

/-- Only the last step of a sequence says what it yields. -/
theorem bind {x : Except ε β} {f : β → Except ε α}
    (hf : ∀ b, x = .ok b → YieldsOnly P (f b)) : YieldsOnly P (x >>= f) := by
  cases x with
  | error e => exact error
  | ok b => exact hf b rfl

/-- A choice yields what its branches do. -/
theorem ite {c : Prop} [Decidable c] {x y : Except ε α}
    (hx : YieldsOnly P x) (hy : YieldsOnly P y) :
    YieldsOnly P (if c then x else y) := by
  split
  · exact hx
  · exact hy

/-- Renaming errors does not touch results. -/
theorem mapError {x : Except ε α} {f : ε → ε'} (hx : YieldsOnly P x) :
    YieldsOnly P (x.mapError f) := by
  cases x with
  | error e => exact error
  | ok a => exact ok (hx a rfl)

end YieldsOnly

end Metrology
