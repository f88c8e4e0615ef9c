/-
Where the errors of scanning come from. What a lexeme leaves behind is a
suffix of what was there, so each place that the scan reaches is a place
of the text. An error that does not speak of a character comes from the
one thing that scanning computes, the scale of a unit block, and then the
block stands between two bars of the text.
-/
import Metrology.Proofs.Quantity.Faults
import Metrology.Token.Scan

namespace Metrology

namespace Token

open Text

-- ============================================================ suffixes

/-- Behind a string literal stands what stood behind its end. -/
theorem suffix_splitString? : ∀ {cs inside rest : List Cluster},
    splitString? cs = some (inside, rest) → rest <:+ cs := by
  intro cs
  fun_induction splitString? cs with
  | case1 => intro _ _ h; cases h
  | case2 c cs _ =>
      intro _ _ h
      cases h
      exact List.suffix_cons c cs
  | case3 => intro _ _ h; cases h
  | case4 c _ _ d ds ih =>
      intro _ _ h
      obtain ⟨⟨i, r⟩, hi, heq⟩ := Option.map_eq_some_iff.mp h
      cases heq
      have hcons := (List.suffix_cons d ds).trans (List.suffix_cons c _)
      exact (ih hi).trans hcons
  | case5 c cs _ _ ih =>
      intro _ _ h
      obtain ⟨⟨i, r⟩, hi, heq⟩ := Option.map_eq_some_iff.mp h
      cases heq
      exact (ih hi).trans (List.suffix_cons c cs)

/-- Behind the letters of a number stands what stood behind them. -/
theorem suffix_splitDecorator (cs : List Cluster) :
    (splitDecorator cs).2 <:+ cs := by
  unfold splitDecorator
  split
  · exact List.suffix_refl _
  · split
    · exact List.dropWhile_suffix _
    · exact List.suffix_refl _

/-- A number takes its first character at least. -/
theorem suffix_scanNumber {c : Cluster} {cs : List Cluster}
    (h : isA isGroupedChar c = true) :
    (scanNumber (c :: cs)).2 <:+ cs := by
  have hdrop : (c :: cs).dropWhile (isA isGroupedChar)
      = cs.dropWhile (isA isGroupedChar) := by
    simp [h]
  have hdecorator := suffix_splitDecorator (cs.dropWhile (isA isGroupedChar))
  simp only [scanNumber, hdrop]
  exact hdecorator.trans (List.dropWhile_suffix _)

/-- Names, numbers, blanks and operators take characters from the front. -/
theorem suffix_scanPlain {position : Nat} {c : Cluster} {x : Char}
    {cs rest : List Cluster} {l : Option Lexeme} (hx : c.char? = some x)
    (h : scanPlain position c x cs = .ok (l, rest)) : rest <:+ cs := by
  unfold scanPlain at h
  split at h
  · cases h
    exact List.dropWhile_suffix _
  split at h
  · next hnumber =>
    cases h
    exact suffix_scanNumber (by simp [isA, hx, isGroupedChar, hnumber])
  split at h
  · cases h
    exact List.dropWhile_suffix _
  split at h
  · cases h
    exact List.suffix_refl _
  · cases h

/-- The cluster that opens and closes a unit block. -/
def bar : Cluster := ⟨'|', []⟩

/-- The inside of a unit block ends at a bar. -/
theorem eq_of_splitUnit? {cs inside rest : List Cluster}
    (h : splitUnit? cs = some (inside, rest)) :
    cs = inside ++ bar :: rest := by
  have hhead := List.head?_dropWhile_not (!isA (· == '|') ·) cs
  have happend := List.takeWhile_append_dropWhile
    (p := (!isA (· == '|') ·)) (l := cs)
  unfold splitUnit? at h
  split at h
  · cases h
  · next d rest' hdrop =>
    cases h
    rw [hdrop] at hhead happend
    have hbar : d = bar := by
      simp only [List.head?_cons, Bool.not_eq_false'] at hhead
      unfold isA at hhead
      split at hhead
      · next x hx =>
        rw [Cluster.char?_eq_some_iff.mp hx, bar, eq_of_beq hhead]
      · cases hhead
    rw [← hbar]
    exact happend.symm

/-- So does every lexeme, with all that it looks at. -/
theorem suffix_scanLexeme {position : Nat} {c : Cluster}
    {cs rest : List Cluster} {l : Option Lexeme}
    (h : scanLexeme position c cs = .ok (l, rest)) : rest <:+ cs := by
  unfold scanLexeme at h
  split at h
  · split at h
    · cases h
      exact List.suffix_refl _
    · cases h
  · next x hx =>
    split at h
    · cases h
      exact List.suffix_refl _
    split at h
    · split at h
      · cases h
      · next inside rest' hsplit =>
        obtain ⟨scale, -, h⟩ := bind_eq_ok.mp h
        cases h
        -- behind a unit stands what follows its second bar
        rw [eq_of_splitUnit? hsplit]
        exact (List.suffix_cons _ _).trans (List.suffix_append _ _)
    split at h
    · split at h
      · cases h
      · next hsplit =>
        cases h
        exact suffix_splitString? hsplit
    split at h
    · split at h
      · cases h
        exact List.suffix_refl _
      · next d rest' =>
        split at h
        · cases h
          exact List.suffix_cons _ _
        · cases h
          exact List.suffix_refl _
    · cases h
      exact List.suffix_refl _
    · exact suffix_scanPlain hx h

-- ============================================================== errors

/-- An error of scanning: one that speaks of a character, or that of a
unit block in the row. -/
def Explained (cs : List Cluster) (e : Error) : Prop :=
  (∃ l, e = .lex l) ∨ ∃ before inside after,
    cs = before ++ bar :: (inside ++ bar :: after) ∧
      Scale.readBlock (textOf inside) = .error e

/-- An error behind a place is explained in the whole row. -/
theorem Explained.of_suffix {cs cs' : List Cluster} {e : Error}
    (h : Explained cs e) (hsuffix : cs <:+ cs') : Explained cs' e := by
  rcases h with hlex | ⟨before, inside, after, rfl, hread⟩
  · exact .inl hlex
  · obtain ⟨front, rfl⟩ := hsuffix
    exact .inr ⟨front ++ before, inside, after, by simp, hread⟩

/-- Characters that begin no lexeme are complained about. -/
theorem lex_of_scanPlain {position : Nat} {c : Cluster} {x : Char}
    {cs : List Cluster} {e : Error}
    (h : scanPlain position c x cs = .error e) : ∃ l, e = .lex l := by
  unfold scanPlain at h
  iterate 4
    split at h
    · cases h
  cases h
  exact ⟨_, rfl⟩

/-- A lexeme that is none is complained about, or its unit is. -/
theorem explained_of_scanLexeme {position : Nat} {c : Cluster}
    {cs : List Cluster} {e : Error}
    (h : scanLexeme position c cs = .error e) : Explained (c :: cs) e := by
  unfold scanLexeme at h
  split at h
  · split at h
    · cases h
    · cases h
      exact .inl ⟨_, rfl⟩
  · next x hx =>
    split at h
    · cases h
    split at h
    · next hbar =>
      subst hbar
      split at h
      · cases h
        exact .inl ⟨_, rfl⟩
      · next inside rest hsplit =>
        -- the block is where the lexeme is, so nothing stands before it
        refine .inr ⟨[], inside, rest, ?_, ?_⟩
        · rw [eq_of_splitUnit? hsplit, Cluster.char?_eq_some_iff.mp hx]
          rfl
        · cases hread : Scale.readBlock (textOf inside) with
          | ok scale => rw [hread] at h; cases h
          | error e' => rw [hread] at h; cases h; rfl
    split at h
    · split at h
      · cases h
        exact .inl ⟨_, rfl⟩
      · cases h
    split at h
    · split at h
      · cases h
      · split at h
        · cases h
        · cases h
    · cases h
    · exact .inl (lex_of_scanPlain h)

theorem explained_of_scanFrom (position : Nat) (cs : List Cluster) :
    FailsOnly (Explained cs) (scanFrom position cs) := by
  fun_induction scanFrom position cs with
  | case1 => exact .ok
  | case2 position c cs e he => exact .error (explained_of_scanLexeme he)
  | case3 position c cs found rest hlexeme ih =>
      have hsuffix := (suffix_scanLexeme hlexeme).trans (List.suffix_cons c cs)
      refine .bind (ih.mono fun e he => he.of_suffix hsuffix) fun _ _ => ?_
      split
      · exact .ok
      · exact .ok

/-- The text stands between two bars of the source. -/
def Barred (source block : String) : Prop :=
  ∃ before after,
    source.toList = before ++ '|' :: (block.toList ++ '|' :: after)

/-- An error of scanning speaks of a character, or is that of a unit
block. -/
theorem lex_or_barred_of_scan {source : String} {e : Error}
    (h : scan source = .error e) :
    (∃ l, e = .lex l) ∨
      ∃ block, Barred source block ∧ Scale.readBlock block = .error e := by
  rcases explained_of_scanFrom 0 (clusters source) e h with
    hlex | ⟨before, inside, after, heq, hread⟩
  · exact .inl hlex
  · refine .inr ⟨textOf inside, ?_, hread⟩
    refine ⟨before.flatMap Cluster.toList, after.flatMap Cluster.toList, ?_⟩
    rw [← flatten_clusters source, heq]
    simp [textOf, bar, Cluster.toList]

end Token

end Metrology
