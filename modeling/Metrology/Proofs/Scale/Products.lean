/-
Blocks of units: which texts are blocks, and what they stand for. A block
has at most one slash, and between its points and on either side of the
slash stand terms, of which empty ones and ones do not count. `IsBlock`
says so, with the rule that the shifted scale stands alone.

The reader goes through the terms from the left, and a term is all that
one step depends on (`readTerms_step`): it is taken in, it is refused, or
its factor cannot be computed. So the terms above the slash multiply up and
those below divide, in whatever order they stand (`readBlock_iff`).
-/
import Metrology.Proofs.Dimension.ReadBack
import Metrology.Proofs.Scale.Terms
import Mathlib.Data.List.Perm.Basic

namespace Metrology.Scale

open Metrology.Text

-- =========================================================== products

/-- The dimension of a product of powers. -/
def product : List (Scale × Int) → Dimension
  | [] => .unitless
  | power :: powers => power.1.dimension ^ power.2 * product powers

/-- Powers may be multiplied in any order. -/
theorem product_perm {powers powers' : List (Scale × Int)}
    (h : powers.Perm powers') : product powers = product powers' := by
  induction h with
  | nil => rfl
  | cons power _ ih => rw [product, product, ih]
  | swap p q powers =>
      rw [product, product, product, product, Dimension.mul_left_comm]
  | trans _ _ ih ih' => exact ih.trans ih'

/-- The dimension so far with another one multiplied or divided in. -/
def joined (divides : Bool) (d e : Dimension) : Dimension :=
  if divides then d / e else d * e

/-- Nothing changes with a plain number. -/
@[simp] theorem joined_unitless (divides : Bool) (d : Dimension) :
    joined divides d .unitless = d := by
  cases divides with
  | false => exact Dimension.mul_unitless d
  | true =>
      simp only [joined, if_true, Dimension.div_def, Dimension.div,
        Dimension.unitless, Int.sub_zero]

/-- Two that are joined one after the other are joined as a product. -/
theorem joined_joined (divides : Bool) (d e f : Dimension) :
    joined divides (joined divides d e) f = joined divides d (e * f) := by
  cases divides with
  | false => exact Dimension.mul_assoc d e f
  | true =>
      simp only [joined, if_true, Dimension.div_def, Dimension.mul_def,
        Dimension.div, Dimension.mul, Int.sub_sub]

-- ============================================================== blocks

/-- The terms between the points of one side, trimmed, without those that
are empty or one. -/
def pointed (side : List Char) : List String :=
  ((side.splitOn '.').map fun part => trim (String.ofList part)).filter
    fun term => !(term = "" || term = "1")

/-- The terms before the first slash, if there is one. -/
def above (block : String) : List String :=
  pointed (block.toList.takeWhile (· != '/'))

/-- The terms behind the first slash. -/
def below (block : String) : List String :=
  pointed ((block.toList.dropWhile (· != '/')).drop 1)

/-- A text that stands for a unit: it has at most one slash and some term,
each term stands for a power of a scale, and the shifted scale is alone
and not divided by. -/
structure IsBlock (block : String) : Prop where
  slash : block.toList.count '/' ≤ 1
  inhabited : above block ++ below block ≠ []
  means : ∀ term ∈ above block ++ below block, ∃ power, Means term power
  alone : ∀ term ∈ above block ++ below block, IsCelsius term →
    above block = [term] ∧ below block = []

/-- Terms have no blanks around them. -/
theorem trim_of_mem_pointed {side : List Char} {term : String}
    (h : term ∈ pointed side) : trim term = term := by
  obtain ⟨part, -, rfl⟩ := List.mem_map.mp (List.mem_filter.mp h).1
  exact trim_trim _

/-- The reader finds these terms on a side. -/
theorem sideTerms_eq (divides : Bool) (side : List Char) :
    sideTerms divides side = (pointed side).map (Term.mk · divides) := by
  rw [sideTerms, pointed, Dimension.splitOn_eq]
  induction side.splitOn '.' with
  | nil => rfl
  | cons part parts ih =>
      rw [List.map_cons, List.filterMap_cons, List.filter_cons, ih]
      dsimp only
      cases decide (trim (String.ofList part) = "")
          || decide (trim (String.ofList part) = "1") with
      | true => rfl
      | false => rfl

/-- The terms of both sides, those above first. -/
def terms (block : String) : List Term :=
  (above block).map (Term.mk · false) ++ (below block).map (Term.mk · true)

/-- As many terms as on both sides together. -/
@[simp] theorem length_terms (block : String) :
    (terms block).length = (above block ++ below block).length := by
  simp only [terms, List.length_append, List.length_map]

/-- No terms, if there are none on either side. -/
theorem terms_eq_nil_iff {block : String} :
    terms block = [] ↔ above block ++ below block = [] := by
  rw [← List.length_eq_zero_iff, length_terms, List.length_eq_zero_iff]

/-- Nothing is the separator where it does not occur. -/
theorem bne_of_not_mem {sep : Char} {cs : List Char} (h : sep ∉ cs) :
    ∀ c ∈ cs, (c != sep) = true := by
  intro c hc
  exact bne_iff_ne.mpr fun heq => h (heq ▸ hc)

/-- A block has terms if it has not too many slashes and anything but ones
between its points. -/
theorem blockTerms_eq (block : String) :
    blockTerms block
      = if 1 < block.toList.count '/' then .error (.manySlashes block)
        else if terms block = [] then .error (.emptyBlock block)
        else .ok (terms block) := by
  rw [blockTerms, terms, above, below, Dimension.splitOn_eq]
  simp only [List.isEmpty_iff, sideTerms_eq]
  generalize block.toList = cs
  -- by the number of slashes: none, one, and more
  by_cases hslash : '/' ∈ cs
  · obtain ⟨xs, ys, rfl, hxs⟩ := List.eq_append_cons_of_mem hslash
    have hinner := bne_of_not_mem hxs
    have htake : (xs ++ '/' :: ys).takeWhile (· != '/') = xs := by
      rw [List.takeWhile_append_of_pos hinner]
      exact List.append_nil xs
    have hdrop : ((xs ++ '/' :: ys).dropWhile (· != '/')).drop 1 = ys := by
      rw [List.dropWhile_append_of_pos hinner]
      rfl
    have hcount : (xs ++ '/' :: ys).count '/' = ys.count '/' + 1 := by
      rw [List.count_append, List.count_eq_zero_of_not_mem hxs,
        List.count_cons_self, Nat.zero_add]
    rw [List.splitOn_append_cons_self_of_not_mem hxs, htake, hdrop, hcount]
    by_cases hmore : '/' ∈ ys
    · obtain ⟨zs, rest, rfl, hzs⟩ := List.eq_append_cons_of_mem hmore
      rw [if_pos (Nat.lt_add_of_pos_left (List.count_pos_iff.mpr hmore)),
        List.splitOn_append_cons_self_of_not_mem hzs]
      cases hrest : rest.splitOn '/' with
      | nil => exact absurd hrest (List.splitOn_ne_nil _ _)
      | cons part parts => rfl
    · rw [List.splitOn_eq_singleton hmore,
        List.count_eq_zero_of_not_mem hmore]
      rfl
  · have hinner := bne_of_not_mem hslash
    have htake : cs.takeWhile (· != '/') = cs :=
      List.takeWhile_eq_self_iff.mpr hinner
    have hdrop : cs.dropWhile (· != '/') = [] :=
      List.dropWhile_eq_nil_iff.mpr hinner
    have hempty : pointed [] = [] := by decide
    rw [List.splitOn_eq_singleton hslash, htake, hdrop,
      List.count_eq_zero_of_not_mem hslash, List.drop_nil, hempty,
      List.map_nil, List.append_nil]
    rfl

-- ======================================================= one more term

/-- The term can stand in a block, of which it is the only term or not:
it stands for a power, and if it is one of the shifted scale, then it is
alone and multiplies. -/
def Accepted (only : Bool) (t : Term) : Prop :=
  (∃ power, Means t.text power)
    ∧ (IsCelsius t.text → only = true ∧ t.divides = false)

/-- The power that the term stands for has a factor, and not zero where it
divides. -/
def Computes (t : Term) : Prop :=
  ∃ s, readTerm t.text = .ok s
    ∧ (t.divides = true → (s.factor == 0.0) = false)

/-- Only a factor zero that divides cannot be taken in; the shift is that of
whichever has one. -/
theorem combine_cases (acc s : Scale) (divides : Bool) :
    (∃ f, combine acc s divides = .error f
      ∧ divides = true ∧ (s.factor == 0.0) = true)
    ∨ ∃ next, combine acc s divides = .ok next
      ∧ (divides = true → (s.factor == 0.0) = false)
      ∧ next.dimension = joined divides acc.dimension s.dimension
      ∧ ((next.shift != 0.0) = true
        ↔ (acc.shift != 0.0) = true ∨ (s.shift != 0.0) = true) := by
  have hshift : ((if s.shift != 0.0 then s.shift else acc.shift) != 0.0)
        = true
      ↔ (acc.shift != 0.0) = true ∨ (s.shift != 0.0) = true := by
    by_cases hs : (s.shift != 0.0) = true
    · rw [if_pos hs]
      exact ⟨.inr, fun _ => hs⟩
    · rw [if_neg hs, or_iff_left hs]
  cases divides with
  | false =>
      exact .inr ⟨_, rfl, fun h => absurd h Bool.false_ne_true, rfl, hshift⟩
  | true =>
      rw [combine, if_pos rfl, Double.divide]
      by_cases hzero : (s.factor == 0.0) = true
      · rw [if_pos hzero]
        exact .inl ⟨_, rfl, rfl, hzero⟩
      · rw [if_neg hzero]
        exact .inr ⟨_, rfl, fun _ => Bool.not_eq_true _ ▸ hzero, rfl, hshift⟩

/-- One more term is refused, has no factor, or is multiplied or divided
in. -/
theorem readTerms_step (block : String) (only : Bool) (acc : Scale)
    {t : Term} (htrim : trim t.text = t.text) :
    (¬ Accepted only t
      ∧ ∃ e, ∀ ts, readTerms block only acc (t :: ts) = .error (.unit e))
    ∨ (¬ Computes t
      ∧ ∃ f, ∀ ts, readTerms block only acc (t :: ts)
        = .error (.arithmetic f))
    ∨ ∃ power next, Accepted only t ∧ Computes t ∧ Means t.text power
      ∧ next.dimension
        = joined t.divides acc.dimension (power.1.dimension ^ power.2)
      ∧ ((next.shift != 0.0) = true
        ↔ (acc.shift != 0.0) = true ∨ IsCelsius t.text)
      ∧ ∀ ts, readTerms block only acc (t :: ts)
        = readTerms block only next ts := by
  rcases readTerm_cases htrim with ⟨power, hmeans, hread⟩ | ⟨hnone, e, hread⟩
  · rcases pow_cases power.1 power.2 with ⟨f, hpow⟩ | ⟨s, hpow, hdim, hsame⟩
    · rw [hpow] at hread
      refine .inr (.inl ⟨?_, f, fun ts => ?_⟩)
      · rintro ⟨s, hs, -⟩
        rw [hread] at hs
        cases hs
      · rw [readTerms, hread]
        rfl
    · rw [hpow] at hread
      have hcelsius := hmeans.isCelsius_iff
      rw [← hsame] at hcelsius
      -- a shift is only for a term that is alone and multiplies
      by_cases hmisplaced :
          (s.shift != 0.0 && (!only || t.divides)) = true
      · refine .inl ⟨?_, .shiftedCombined t.text block, fun ts => ?_⟩
        · rintro ⟨-, hplace⟩
          rw [Bool.and_eq_true] at hmisplaced
          obtain ⟨honly, hdivides⟩ := hplace (hcelsius.mpr hmisplaced.1)
          rw [honly, hdivides] at hmisplaced
          exact absurd hmisplaced.2 Bool.false_ne_true
        · rw [readTerms, hread, Except.mapError, ok_bind, if_pos hmisplaced]
          rfl
      · have haccepted : Accepted only t := by
          refine ⟨⟨power, hmeans⟩, fun h => ?_⟩
          rw [hcelsius.mp h] at hmisplaced
          simpa using hmisplaced
        rcases combine_cases acc s t.divides with
          ⟨f, hcombine, hdivides, hzero⟩
          | ⟨next, hcombine, hfactor, hnext, hshift⟩
        · refine .inr (.inl ⟨?_, f, fun ts => ?_⟩)
          · rintro ⟨s', hs, hfactor⟩
            cases Except.ok.inj (hread.symm.trans hs)
            rw [hfactor hdivides] at hzero
            cases hzero
          · rw [readTerms, hread, Except.mapError, ok_bind,
              if_neg hmisplaced, hcombine]
            rfl
        · refine .inr (.inr ⟨power, next, haccepted, ⟨s, hread, hfactor⟩,
            hmeans, ?_, ?_, fun ts => ?_⟩)
          · rw [hnext, hdim]
          · rw [hshift, hcelsius]
          · rw [readTerms, hread, Except.mapError, ok_bind,
              if_neg hmisplaced, hcombine]
            rfl
  · refine .inl ⟨fun h => ?_, e, fun ts => ?_⟩
    · obtain ⟨power, hmeans⟩ := h.1
      exact hnone power hmeans
    · rw [readTerms, hread]
      rfl

-- ============================================================ one side

/-- How reading the terms of one side can end. -/
inductive Outcome (only divides : Bool) (acc : Scale) (texts : List String) :
    Except Error Scale → Prop where
  | refused {e : UnitError}
      (hterm : ∃ text ∈ texts, ¬ Accepted only ⟨text, divides⟩) :
      Outcome only divides acc texts (.error (.unit e))
  | faulty {f : ArithmeticFault}
      (hterm : ∃ text ∈ texts, ¬ Computes ⟨text, divides⟩) :
      Outcome only divides acc texts (.error (.arithmetic f))
  | read {s : Scale} {powers : List (Scale × Int)}
      (haccepted : ∀ text ∈ texts, Accepted only ⟨text, divides⟩)
      (hcomputes : ∀ text ∈ texts, Computes ⟨text, divides⟩)
      (hmeans : List.Forall₂ Means texts powers)
      (hdimension :
        s.dimension = joined divides acc.dimension (product powers))
      (hshift : (s.shift != 0.0) = true
        ↔ (acc.shift != 0.0) = true ∨ ∃ text ∈ texts, IsCelsius text) :
      Outcome only divides acc texts (.ok s)

/-- A side is read term by term, with what was read before. -/
theorem readTerms_outcome (block : String) (only divides : Bool)
    {texts : List String} (htrim : ∀ text ∈ texts, trim text = text) :
    ∀ acc, Outcome only divides acc texts
      (readTerms block only acc (texts.map (Term.mk · divides))) := by
  induction texts with
  | nil =>
      intro acc
      refine .read (fun _ h => nomatch h) (fun _ h => nomatch h) .nil ?_ ?_
      · exact (joined_unitless divides acc.dimension).symm
      · simp only [List.not_mem_nil, false_and, exists_false, or_false]
  | cons text texts ih =>
      intro acc
      rw [List.map_cons]
      have hrest := fun t ht => htrim t (List.mem_cons_of_mem _ ht)
      rcases readTerms_step block only acc (t := ⟨text, divides⟩)
        (htrim text (List.mem_cons_self ..)) with
        ⟨hterm, e, hread⟩ | ⟨hterm, f, hread⟩
        | ⟨power, next, haccepted, hcomputes, hmeans, hnext, hshift, hread⟩
      · rw [hread]
        exact .refused ⟨text, List.mem_cons_self .., hterm⟩
      · rw [hread]
        exact .faulty ⟨text, List.mem_cons_self .., hterm⟩
      · rw [hread]
        -- the term is taken in, and the side comes to what the rest does
        have houtcome := ih hrest next
        generalize readTerms block only next (texts.map (Term.mk · divides))
          = result at houtcome ⊢
        cases houtcome with
        | refused hterm =>
            obtain ⟨t, ht, hterm⟩ := hterm
            exact .refused ⟨t, List.mem_cons_of_mem _ ht, hterm⟩
        | faulty hterm =>
            obtain ⟨t, ht, hterm⟩ := hterm
            exact .faulty ⟨t, List.mem_cons_of_mem _ ht, hterm⟩
        | read haccepted' hcomputes' hmeans' hdimension hshift' =>
            refine .read (List.forall_mem_cons.mpr ⟨haccepted, haccepted'⟩)
              (List.forall_mem_cons.mpr ⟨hcomputes, hcomputes'⟩)
              (.cons hmeans hmeans') ?_ ?_
            · rw [hdimension, hnext, joined_joined]
              rfl
            · rw [hshift', hshift, or_assoc]
              simp only [List.mem_cons, or_and_right, exists_or,
                exists_eq_left]

/-- One side is read behind the other. -/
theorem readTerms_append (block : String) (only : Bool) (ys : List Term) :
    ∀ (xs : List Term) (acc : Scale), readTerms block only acc (xs ++ ys)
      = readTerms block only acc xs >>= fun s =>
          readTerms block only s ys := by
  intro xs
  induction xs with
  | nil => intro acc; rfl
  | cons x xs ih =>
      intro acc
      rw [List.cons_append, readTerms, readTerms]
      cases readTerm x.text with
      | error e => rfl
      | ok s =>
          rw [ok_bind, ok_bind]
          split
          · rfl
          · cases combine acc s x.divides with
            | error f => rfl
            | ok next => exact ih next

-- ========================================================= whole blocks

/-- All terms are those above and those below. -/
theorem forall_mem_terms {p : Term → Prop} {block : String} :
    (∀ t ∈ terms block, p t) ↔ (∀ term ∈ above block, p ⟨term, false⟩)
      ∧ ∀ term ∈ below block, p ⟨term, true⟩ := by
  simp only [terms, List.forall_mem_append, List.forall_mem_map]

/-- A block with a single term has none of the other side. -/
theorem eq_singleton_of_length {block : String} {term : String}
    (hone : ((terms block).length == 1) = true)
    (hterm : term ∈ above block) :
    above block = [term] ∧ below block = [] := by
  have hlength : (above block).length + (below block).length = 1 := by
    rw [← List.length_append, ← length_terms]
    exact beq_iff_eq.mp hone
  have hpos := List.length_pos_of_mem hterm
  have hbelow : below block = [] := by
    apply List.eq_nil_of_length_eq_zero
    omega
  obtain ⟨other, hother⟩ := List.length_eq_one_iff.mp
    (show (above block).length = 1 by omega)
  rw [hother] at hterm
  rw [List.mem_singleton.mp hterm]
  exact ⟨hother, hbelow⟩

/-- A block by its terms, each with its place in it. -/
theorem isBlock_iff {block : String} : IsBlock block
    ↔ block.toList.count '/' ≤ 1 ∧ terms block ≠ []
      ∧ ∀ t ∈ terms block, Accepted ((terms block).length == 1) t := by
  rw [Ne, terms_eq_nil_iff, forall_mem_terms]
  constructor
  · rintro ⟨hslash, hne, hmeans, halone⟩
    rw [List.forall_mem_append] at hmeans halone
    refine ⟨hslash, hne, fun term hterm => ⟨hmeans.1 term hterm, ?_⟩,
      fun term hterm => ⟨hmeans.2 term hterm, ?_⟩⟩
    · intro hcelsius
      obtain ⟨habove, hbelow⟩ := halone.1 term hterm hcelsius
      rw [length_terms, habove, hbelow]
      exact ⟨rfl, rfl⟩
    · intro hcelsius
      rw [(halone.2 term hterm hcelsius).2] at hterm
      cases hterm
  · rintro ⟨hslash, hne, habove, hbelow⟩
    refine ⟨hslash, hne, ?_, ?_⟩
    · exact List.forall_mem_append.mpr
        ⟨fun term hterm => (habove term hterm).1,
          fun term hterm => (hbelow term hterm).1⟩
    · refine List.forall_mem_append.mpr
        ⟨fun term hterm hcelsius => ?_, fun term hterm hcelsius => ?_⟩
      · exact eq_singleton_of_length ((habove term hterm).2 hcelsius).1 hterm
      · exact absurd ((hbelow term hterm).2 hcelsius).2.symm
          Bool.false_ne_true

/-- A block is read, unless a factor cannot be computed, and any other
text is refused. -/
theorem readBlock_cases (block : String) :
    (¬ IsBlock block ∧ ∃ e, readBlock block = .error (.unit e))
    ∨ (¬ (∀ t ∈ terms block, Computes t)
      ∧ ∃ f, readBlock block = .error (.arithmetic f))
    ∨ ∃ s ups downs, IsBlock block ∧ (∀ t ∈ terms block, Computes t)
      ∧ List.Forall₂ Means (above block) ups
      ∧ List.Forall₂ Means (below block) downs
      ∧ s.dimension = product ups / product downs
      ∧ ((s.shift != 0.0) = true
        ↔ ∃ term ∈ above block ++ below block, IsCelsius term)
      ∧ readBlock block = .ok s := by
  rw [isBlock_iff, readBlock, blockTerms_eq]
  by_cases hslash : 1 < block.toList.count '/'
  · rw [if_pos hslash]
    exact .inl ⟨fun h => Nat.not_le.mpr hslash h.1, _, rfl⟩
  rw [if_neg hslash]
  by_cases hempty : terms block = []
  · rw [if_pos hempty]
    exact .inl ⟨fun h => h.2.1 hempty, _, rfl⟩
  rw [if_neg hempty, Except.mapError, ok_bind, forall_mem_terms,
    forall_mem_terms]
  generalize ((terms block).length == 1) = only
  rw [terms, readTerms_append]
  -- the terms above, and then those below with what these have come to
  have houtcome := readTerms_outcome block only false
    (fun t ht => trim_of_mem_pointed ht : ∀ t ∈ above block, _) one
  generalize readTerms block only one _ = result at houtcome ⊢
  cases houtcome with
  | refused hterm =>
      obtain ⟨t, ht, hterm⟩ := hterm
      exact .inl ⟨fun h => hterm (h.2.2.1 t ht), _, rfl⟩
  | faulty hterm =>
      obtain ⟨t, ht, hterm⟩ := hterm
      exact .inr (.inl ⟨fun h => hterm (h.1 t ht), _, rfl⟩)
  | read haccepted hcomputes hmeans hdimension hshift =>
      rename_i acc ups
      rw [ok_bind]
      have houtcome := readTerms_outcome block only true
        (fun t ht => trim_of_mem_pointed ht : ∀ t ∈ below block, _) acc
      generalize readTerms block only acc _ = result at houtcome ⊢
      cases houtcome with
      | refused hterm =>
          obtain ⟨t, ht, hterm⟩ := hterm
          exact .inl ⟨fun h => hterm (h.2.2.2 t ht), _, rfl⟩
      | faulty hterm =>
          obtain ⟨t, ht, hterm⟩ := hterm
          exact .inr (.inl ⟨fun h => hterm (h.2 t ht), _, rfl⟩)
      | read haccepted' hcomputes' hmeans' hdimension' hshift' =>
          rename_i s downs
          refine .inr (.inr ⟨s, ups, downs,
            ⟨Nat.not_lt.mp hslash, hempty, haccepted, haccepted'⟩,
            ⟨hcomputes, hcomputes'⟩, hmeans, hmeans', ?_, ?_, rfl⟩)
          · rw [hdimension', hdimension]
            exact congrArg (· / product downs)
              (Dimension.unitless_mul (product ups))
          · have hone : (one.shift != 0.0) = false := by decide +kernel
            rw [hshift', hshift, hone]
            simp only [Bool.false_eq_true, false_or, List.mem_append,
              or_and_right, exists_or]

-- ====================================================== changing places

/-- The terms of a block may change places within their sides. -/
theorem IsBlock.perm {block block' : String} (h : IsBlock block)
    (hslash : block'.toList.count '/' ≤ 1)
    (habove : (above block').Perm (above block))
    (hbelow : (below block').Perm (below block)) : IsBlock block' := by
  have hboth := habove.append hbelow
  refine ⟨hslash, fun hnil => ?_, fun term hterm => ?_,
    fun term hterm hcelsius => ?_⟩
  · rw [hnil] at hboth
    exact h.inhabited (List.nil_perm.mp hboth)
  · exact h.means term (hboth.subset hterm)
  · obtain ⟨hone, hnil⟩ := h.alone term (hboth.subset hterm) hcelsius
    rw [hone] at habove
    rw [hnil] at hbelow
    exact ⟨List.perm_singleton.mp habove, List.perm_nil.mp hbelow⟩

/-- Factors can be computed in any order. -/
theorem computes_perm {block block' : String}
    (h : ∀ t ∈ terms block, Computes t)
    (habove : (above block').Perm (above block))
    (hbelow : (below block').Perm (below block)) :
    ∀ t ∈ terms block', Computes t := by
  rw [forall_mem_terms] at h ⊢
  exact ⟨fun term hterm => h.1 term (habove.subset hterm),
    fun term hterm => h.2 term (hbelow.subset hterm)⟩

/-- Terms that change places stand for the same product. -/
theorem product_eq_of_perm {texts texts' : List String}
    {powers powers' : List (Scale × Int)}
    (hmeans : List.Forall₂ Means texts powers)
    (hmeans' : List.Forall₂ Means texts' powers')
    (h : texts.Perm texts') : product powers = product powers' :=
  product_perm (List.rel_perm_imp Means.rightUnique hmeans hmeans' h)

/-- A text is read as a unit if and only if it is a block, as far as the
factors can be computed; any other is refused. The dimension is the product
of the powers above over that of the powers below, and stays the same when
the terms of a side change places. The one block with a shift is a single
term of the shifted scale above. -/
theorem readBlock_iff (block : String)
    (hfactors : ∀ f, readBlock block ≠ .error (.arithmetic f)) :
    ((∃ s, readBlock block = .ok s) ↔ IsBlock block)
    ∧ (¬ IsBlock block → ∃ e, readBlock block = .error (.unit e))
    ∧ ∀ s, readBlock block = .ok s →
      (∃ ups downs, List.Forall₂ Means (above block) ups
        ∧ List.Forall₂ Means (below block) downs
        ∧ s.dimension = product ups / product downs)
      ∧ (∀ block', block'.toList.count '/' ≤ 1 →
        (above block').Perm (above block) →
        (below block').Perm (below block) →
        ∃ s', readBlock block' = .ok s' ∧ s'.dimension = s.dimension)
      ∧ ((s.shift != 0.0) = true
        ↔ ∃ term, above block = [term] ∧ below block = []
          ∧ IsCelsius term) := by
  rcases readBlock_cases block with ⟨hblock, e, hread⟩ | ⟨-, f, hread⟩
    | ⟨s, ups, downs, hblock, hcomputes, hups, hdowns, hdimension, hshift,
      hread⟩
  · rw [hread]
    refine ⟨⟨fun h => ?_, fun h => absurd h hblock⟩, fun _ => ⟨e, rfl⟩,
      fun s h => ?_⟩
    · obtain ⟨s, hs⟩ := h
      cases hs
    · cases h
  · -- a fault of arithmetic is excluded
    exact absurd hread (hfactors f)
  · refine ⟨⟨fun _ => hblock, fun _ => ⟨s, hread⟩⟩,
      fun h => absurd hblock h, ?_⟩
    intro s' hread'
    cases Except.ok.inj (hread.symm.trans hread')
    refine ⟨⟨ups, downs, hups, hdowns, hdimension⟩, ?_, ?_⟩
    · -- what is accepted of a term and computed of it does not depend on
      -- the others
      intro block' hslash habove hbelow
      have hblock' := hblock.perm hslash habove hbelow
      have hcomputes' := computes_perm hcomputes habove hbelow
      rcases readBlock_cases block' with ⟨hnot, -⟩ | ⟨hnot, -⟩
        | ⟨s', ups', downs', -, -, hups', hdowns', hdimension', -, hread'⟩
      · exact absurd hblock' hnot
      · exact absurd hcomputes' hnot
      · refine ⟨s', hread', ?_⟩
        rw [hdimension', hdimension, product_eq_of_perm hups' hups habove,
          product_eq_of_perm hdowns' hdowns hbelow]
    · rw [hshift]
      constructor
      · rintro ⟨term, hterm, hcelsius⟩
        obtain ⟨habove, hbelow⟩ := hblock.alone term hterm hcelsius
        exact ⟨term, habove, hbelow, hcelsius⟩
      · rintro ⟨term, habove, hbelow, hcelsius⟩
        rw [habove, hbelow]
        exact ⟨term, List.mem_cons_self .., hcelsius⟩

/-- Where there is a result, it can be named. -/
theorem exists_of_isOk {ε α : Type} {x : Except ε α} (h : x.isOk = true) :
    ∃ a, x = .ok a := by
  cases x with
  | error e => cases h
  | ok a => exact ⟨a, rfl⟩

/-- Newtons as a product, with blanks and a one among the terms, and the
shifted scale beside ones. -/
theorem readBlock_iff_newton :
    (∀ f, readBlock "kg. m.1/s2" ≠ .error (.arithmetic f))
      ∧ IsBlock "kg. m.1/s2"
      ∧ (∃ s s', readBlock "kg. m.1/s2" = .ok s
        ∧ readBlock "m.kg/s2" = .ok s' ∧ s'.dimension = s.dimension)
      ∧ (∀ f, readBlock "1.°C/" ≠ .error (.arithmetic f))
      ∧ ∃ s, readBlock "1.°C/" = .ok s ∧ (s.shift != 0.0) = true := by
  obtain ⟨s, hs⟩ := exists_of_isOk
    (show (readBlock "kg. m.1/s2").isOk = true by decide +kernel)
  obtain ⟨t, ht⟩ := exists_of_isOk
    (show (readBlock "1.°C/").isOk = true by decide +kernel)
  have hs' : ∀ f, readBlock "kg. m.1/s2" ≠ .error (.arithmetic f) := by
    intro f hf
    rw [hs] at hf
    cases hf
  have ht' : ∀ f, readBlock "1.°C/" ≠ .error (.arithmetic f) := by
    intro f hf
    rw [ht] at hf
    cases hf
  have hnewton := readBlock_iff "kg. m.1/s2" hs'
  have hcelsius := readBlock_iff "1.°C/" ht'
  refine ⟨hs', hnewton.1.mp ⟨s, hs⟩, ?_, ht', t, ht, ?_⟩
  · obtain ⟨s', hread, hdimension⟩ := (hnewton.2.2 s hs).2.1 "m.kg/s2"
      (by decide) (by decide) (by decide)
    exact ⟨s, s', hs, hread, hdimension⟩
  · refine (hcelsius.2.2 t ht).2.2.mpr
      ⟨celsius, by decide, by decide, 1, "", by decide, by decide, ?_, ?_⟩
    · exact List.forall_mem_cons.mpr ⟨by decide,
        List.forall_mem_singleton.mpr (by decide)⟩
    · exact .inl ⟨rfl, rfl⟩

end Metrology.Scale
