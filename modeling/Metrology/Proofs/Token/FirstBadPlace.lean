/-
Errors of scanning name the first bad place. The scanner takes off one
stretch after the other, so where it stops with an error that speaks of a
character, stretches lie behind it, and they fit together without the rest
of the text as well: fitting looks at the next cluster only to see that
nothing goes on there (`Stretch.Fits.shorten`). Cutting a text between two
clusters does not change the clusters before the cut
(`clusters_textOf_front`), so what stands before the place is a text
that can be scanned.

At the place itself one of two things holds. Either no stretch begins there
at all, or it is a bar or a quote whose partner is missing. A quote behind
it is no partner if a backslash takes it along, and a backslash takes
nothing along if another one took it (`isTaken`).
-/
import Metrology.Proofs.Token.Stretches

namespace Metrology.Text

-- ==================================================== cutting a text

/-- Clusters at the front are those of the characters at the front. -/
theorem exists_chars_of_clustersFrom : ∀ (cs : List Char) (cur : Cluster)
    (o : OpenCluster) {front back : List Cluster}, front ≠ [] →
    clustersFrom cur o cs = front ++ back →
    ∃ ds, clustersFrom cur o ds = front := by
  intro cs
  induction cs with
  | nil =>
      intro cur o front back hne h
      cases front with
      | nil => exact absurd rfl hne
      | cons c front =>
          rw [clustersFrom, List.cons_append] at h
          obtain ⟨rfl, hnil⟩ := List.cons.inj h
          rw [(List.append_eq_nil_iff.mp hnil.symm).1]
          exact ⟨[], rfl⟩
  | cons c cs ih =>
      intro cur o front back hne h
      rw [clustersFrom] at h
      split at h
      · -- the character belongs to the open cluster
        next hjoins =>
        obtain ⟨ds, hds⟩ := ih _ _ hne h
        exact ⟨c :: ds, by rw [clustersFrom, if_pos hjoins, hds]⟩
      · -- the open cluster is complete, and may be the last one of the
        -- front
        next hborder =>
        cases front with
        | nil => exact absurd rfl hne
        | cons d front =>
            rw [List.cons_append] at h
            obtain ⟨rfl, hrest⟩ := List.cons.inj h
            by_cases hfront : front = []
            · rw [hfront]
              exact ⟨[], rfl⟩
            · obtain ⟨ds, hds⟩ := ih _ _ hfront hrest
              exact ⟨c :: ds, by rw [clustersFrom, if_neg hborder, hds]⟩

/-- A text cut between two clusters keeps the clusters before the cut. -/
theorem clusters_textOf_front {s : String} {front : List Cluster}
    (h : front <+: clusters s) : clusters (textOf front) = front := by
  obtain ⟨back, h⟩ := h
  by_cases hne : front = []
  · rw [hne]
    rfl
  rw [clusters] at h
  cases hs : s.toList with
  | nil =>
      rw [hs] at h
      exact absurd (List.append_eq_nil_iff.mp h).1 hne
  | cons c cs =>
      rw [hs] at h
      obtain ⟨ds, hds⟩ := exists_chars_of_clustersFrom cs _ _ hne h.symm
      have hchars := flatten_clustersFrom ds ⟨c, []⟩ (.start (breakClass c))
      rw [clusters, textOf, String.toList_ofList, ← hds, hchars]
      rfl

end Metrology.Text

namespace Metrology.Token

open Text

variable {position : Nat} {x : Char} {c : Cluster}
  {cs rest span : List Cluster} {s : Stretch} {e : LexError}

-- ============================================= before the first bad place

/-- The fewer clusters follow, the fewer rows are longer. -/
theorem IsLongest.shorten {rest' : List Cluster} (h : IsLongest span rest)
    (hshort : rest' <+: rest) : IsLongest span rest' :=
  fun more hmore => h more (hmore.trans hshort)

/-- What fits before clusters fits before the first few of them. -/
theorem Stretch.Fits.shorten {rest' : List Cluster} (h : s.Fits rest)
    (hshort : rest' <+: rest) : s.Fits rest' := by
  cases s with
  | blank c => exact h
  | comment text =>
      refine ⟨h.1, ?_⟩
      cases rest' with
      | nil => exact .inl rfl
      | cons d rest' =>
          obtain ⟨more, rfl⟩ := hshort
          rcases h.2 with hnil | hfeed
          · cases hnil
          · exact .inr hfeed
  | lexeme l span => exact ⟨h.1, h.2.shorten hshort⟩

/-- Where a scan fails: behind stretches that fit together. -/
theorem exists_stretches_of_error {position : Nat} {cs : List Cluster}
    {e : Error} (h : scanFrom position cs = .error e) :
    ∃ row c rest, cs = spans row ++ c :: rest ∧ FitTogether row
      ∧ scanLexeme (position + (spans row).length) c rest = .error e := by
  fun_induction scanFrom position cs with
  | case1 => cases h
  | case2 position c cs e' hlexeme =>
      cases h
      exact ⟨[], c, cs, rfl, trivial, hlexeme⟩
  | case3 position c cs found behind hlexeme ih =>
      have hbehind : scanFrom (position + (cs.length + 1 - behind.length))
          behind = .error e := by
        cases hscan : scanFrom
            (position + (cs.length + 1 - behind.length)) behind with
        | error e' => rw [hscan] at h; exact h
        | ok tokens => rw [hscan] at h; cases found <;> cases h
      obtain ⟨row, d, rest, rfl, hrow, hbad⟩ := ih hbehind
      obtain ⟨s, behind', heq, hfits⟩ := exists_stretch hlexeme
      obtain ⟨c', cs', hspan, hscan⟩ := hfits.takesOff
      -- the scanner takes off what fits, so it found this stretch
      cases heq.trans hspan
      cases hlexeme.symm.trans (hscan position)
      have hlength := congrArg List.length heq
      rw [List.length_cons, List.length_append] at hlength
      refine ⟨s :: row, d, rest, ?_, ⟨hfits.shorten ⟨_, rfl⟩, hrow⟩, ?_⟩
      · rw [heq, ← List.append_assoc]
        rfl
      · rw [hlength, Nat.add_sub_cancel, Nat.add_assoc,
          ← List.length_append] at hbad
        exact hbad

-- ======================================================= nothing starts

/-- No blank, comment or lexeme, wherever it fits, starts these clusters. -/
def StartsNothing (cs : List Cluster) : Prop :=
  ∀ (s : Stretch) (rest : List Cluster), s.Fits rest → ¬ s.span <+: cs

/-- May start a lexeme. -/
def startsLexeme (x : Char) : Bool :=
  (punctuation? x).isSome || x == '|' || x == '"'
    || (Operator.lengthened? x).isSome || (Operator.single? x).isSome
    || isNumberChar x || isWordStart x

/-- A word, a number or an operator starts with such a character. -/
theorem IsRun.exists_start {raw : List Char} (h : IsRun raw) :
    ∃ x xs, raw = x :: xs ∧ startsLexeme x = true := by
  cases raw with
  | nil =>
      rcases h with ⟨x, xs, heq, -⟩ | ⟨text, decorator, hnumber⟩ | ⟨op, hop⟩
      · cases heq
      · obtain ⟨x, xs, heq, -⟩ := isNumber_iff.mp hnumber
        cases heq
      · have hall : ∀ e ∈ Operator.spellings, e.1 ≠ "" := by decide
        exact absurd rfl (hall _ hop)
  | cons x xs =>
      refine ⟨x, xs, rfl, ?_⟩
      rcases h.cases with ⟨h, -⟩ | ⟨h, -⟩ | ⟨h, -⟩ | ⟨h, -⟩
        <;> simp [startsLexeme, h]

theorem Spells.exists_start {l : Lexeme} (h : Spells span l) :
    ∃ x xs, span = alone x :: xs ∧ startsLexeme x = true := by
  have hrun : ∀ raw, IsRun raw → span = raw.map alone →
      ∃ x xs, span = alone x :: xs ∧ startsLexeme x = true := by
    rintro raw hraw rfl
    obtain ⟨x, xs, rfl, hx⟩ := hraw.exists_start
    exact ⟨x, xs.map alone, rfl, hx⟩
  cases l with
  | opening b => cases h; cases b <;> exact ⟨_, [], rfl, by decide⟩
  | closing b => cases h; cases b <;> exact ⟨_, [], rfl, by decide⟩
  | comma => cases h; exact ⟨',', [], rfl, by decide⟩
  | semicolon => cases h; exact ⟨';', [], rfl, by decide⟩
  | name text => exact hrun _ (.inl h.2.1) h.1
  | number text decorator =>
      obtain ⟨raw, hspan, hnumber⟩ := h
      exact hrun raw (.inr (.inl ⟨_, _, hnumber⟩)) hspan
  | operator op =>
      obtain ⟨hspan, hop⟩ := h
      refine hrun _ (.inr (.inr ⟨op, ?_⟩)) hspan
      rwa [String.ofList_toList]
  | keyword text =>
      obtain ⟨hspan, hkey⟩ := h
      exact hrun _ (.inl (word_of_mem_keywords hkey).2) hspan
  | unitBlock text scale =>
      obtain ⟨inside, rfl, -⟩ := h
      exact ⟨'|', inside ++ [bar], rfl, by decide⟩
  | template text =>
      obtain ⟨inside, rfl, -⟩ := h
      exact ⟨'"', inside ++ [alone '"'], rfl, by decide⟩

/-- A cluster that is neither blank nor the start of a comment or a lexeme
starts nothing. -/
theorem startsNothing_of (hgap : isGap c = false)
    (hstart : ∀ x, c = alone x → startsLexeme x = false)
    (hcomment : c = alone '\\' → cs.head? ≠ some (alone '\\')) :
    StartsNothing (c :: cs) := by
  rintro s rest hfits ⟨behind, heq⟩
  cases s with
  | blank d =>
      cases heq
      exact Bool.false_ne_true (hgap.symm.trans hfits)
  | comment text =>
      cases heq
      exact hcomment rfl rfl
  | lexeme l span =>
      obtain ⟨x, xs, rfl, hx⟩ := hfits.1.exists_start
      cases heq
      exact Bool.false_ne_true ((hstart x rfl).symm.trans hx)

-- ==================================================== missing partners

/-- The cluster at this index is taken along by a backslash that is not
taken along itself. -/
def isTaken (cs : List Cluster) : Nat → Bool
  | 0 => false
  | j + 1 => cs[j]? == some (alone '\\') && !isTaken cs j

/-- Clusters in front do not matter if they take nothing along. -/
theorem isTaken_append {front : List Cluster} (cs : List Cluster)
    (h : isTaken (front ++ cs) front.length = false) (j : Nat) :
    isTaken (front ++ cs) (front.length + j) = isTaken cs j := by
  induction j with
  | zero => exact h
  | succ j ih =>
      rw [← Nat.add_assoc, isTaken, isTaken, ih,
        List.getElem?_append_right (Nat.le_add_right ..),
        Nat.add_sub_cancel_left]

/-- Where no string ends, every quote is taken along. -/
theorem isTaken_of_splitString? : ∀ {cs : List Cluster},
    splitString? cs = none →
    ∀ j, cs[j]? = some (alone '"') → isTaken cs j = true := by
  intro cs
  fun_induction splitString? cs with
  | case1 => intro _ j hj; cases hj
  | case2 c cs hquote => intro h; cases h
  | case3 c hquote hslash =>
      intro _ j hj
      cases isChar_iff.mp hslash
      cases j with
      | zero => cases hj
      | succ j => cases hj
  | case4 c hquote hslash d cs ih =>
      intro h j hj
      cases isChar_iff.mp hslash
      -- places behind the pair count from its end
      have hpair : isTaken ([alone '\\', d] ++ cs) 2 = false := by
        simp [isTaken]
      rcases j with - | - | j
      · cases hj
      · rfl
      · have htaken := ih (Option.map_eq_none_iff.mp h) j hj
        rw [← isTaken_append cs hpair j, Nat.add_comm] at htaken
        exact htaken
  | case5 c cs hquote hslash ih =>
      intro h j hj
      have hplain : isTaken ([c] ++ cs) 1 = false := by
        simpa [isTaken] using isChar_iff.not.mp hslash
      cases j with
      | zero => exact absurd (Option.some.inj hj) (isChar_iff.not.mp hquote)
      | succ j =>
          have htaken := ih (Option.map_eq_none_iff.mp h) j hj
          rw [← isTaken_append cs hplain j, Nat.add_comm] at htaken
          exact htaken

/-- Where no unit block ends, no bar follows. -/
theorem bar_not_mem_of_splitUnit? (h : splitUnit? cs = none) : bar ∉ cs := by
  intro hbar
  unfold splitUnit? at h
  split at h
  · next hdrop =>
    have hnot := List.dropWhile_eq_nil_iff.mp hdrop bar hbar
    revert hnot
    decide
  · cases h

-- ============================================= at the first bad place

/-- What is wrong at a place: nothing starts there, or it is a bar or a
quote without a partner. -/
def IsBadPlace (c : Cluster) (cs : List Cluster) : LexErrorKind → Prop
  | .unexpected => StartsNothing (c :: cs)
  | .unterminatedUnit => c = bar ∧ bar ∉ cs
  | .unterminatedString => c = alone '"'
      ∧ ∀ j, cs[j]? = some (alone '"') → isTaken cs j = true

/-- Where no comment, number, word or blank starts either, nothing does. -/
theorem isBadPlace_of_scanPlain (hpunctuation : punctuation? x = none)
    (hbar : x ≠ '|') (hquote : x ≠ '"')
    (hlengthened : Operator.lengthened? x = none)
    (hsingle : Operator.single? x = none)
    (h : scanPlain position (alone x) x cs = .error (.lex e)) :
    e.position = position ∧ e.found = (alone x).text
      ∧ IsBadPlace (alone x) cs e.kind := by
  unfold scanPlain at h
  split at h
  · cases h
  next hcomment =>
  split at h
  · cases h
  next hnumber =>
  split at h
  · cases h
  next hword =>
  split at h
  · cases h
  next hgap =>
  cases h
  refine ⟨rfl, rfl, startsNothing_of ?_ ?_ ?_⟩
  · simpa [isGap, isA, alone, Cluster.char?] using hgap
  · rintro y heq
    cases heq
    simp [startsLexeme, hpunctuation, hbar, hquote, hlengthened, hsingle,
      hnumber, hword]
  · intro heq hnext
    cases heq
    exact hcomment (by rw [hnext]; rfl)

/-- An error that speaks of a character names this place, and the place is
bad. -/
theorem isBadPlace_of_scanLexeme
    (h : scanLexeme position c cs = .error (.lex e)) :
    e.position = position ∧ e.found = c.text ∧ IsBadPlace c cs e.kind := by
  unfold scanLexeme at h
  split at h
  · next hchar =>
    split at h
    · cases h
    · next hgap =>
      cases h
      have hnot : ∀ x, c ≠ alone x := by
        rintro x rfl
        cases hchar
      exact ⟨rfl, rfl, startsNothing_of (Bool.not_eq_true _ ▸ hgap)
        (fun x hx => absurd hx (hnot x)) fun hx => absurd hx (hnot _)⟩
  next x hx =>
  cases Cluster.char?_eq_some_iff.mp hx
  split at h
  · cases h
  next hpunctuation =>
  split at h
  · next hbar =>
    subst hbar
    split at h
    · next hsplit =>
      cases h
      exact ⟨rfl, rfl, rfl, bar_not_mem_of_splitUnit? hsplit⟩
    · next inside rest _ =>
      -- the errors of a unit block do not speak of characters
      have hread := Scale.failsOnly_readBlock (P := fun e => ∀ l, e ≠ .lex l)
        (fun _ _ => nofun) (fun _ _ _ => nofun) (textOf inside)
      cases hscale : Scale.readBlock (textOf inside) with
      | ok scale => rw [hscale] at h; cases h
      | error e' =>
          rw [hscale] at h
          cases h
          exact absurd rfl (hread _ hscale e)
  next hbar =>
  split at h
  · next hquote =>
    subst hquote
    split at h
    · next hsplit =>
      cases h
      exact ⟨rfl, rfl, rfl, isTaken_of_splitString? hsplit⟩
    · cases h
  next hquote =>
  split at h
  · split at h
    · cases h
    · split at h
      · cases h
      · cases h
  · cases h
  · next hlengthened hsingle =>
    exact isBadPlace_of_scanPlain hpunctuation hbar hquote hlengthened
      hsingle h

/-- An error of scanning that speaks of a character gives the first bad
place of a text. The cluster it names stands there; the clusters before it
are a text that can be scanned; and either no blank, comment or lexeme
starts there, or the cluster is a bar or a quote with no other behind it,
save quotes that a backslash takes along. -/
theorem scan_error_at_first_bad_place {source : String} {e : LexError}
    (h : scan source = .error (.lex e)) :
    ∃ before c behind, clusters source = before ++ c :: behind
      ∧ before.length = e.position ∧ e.found = c.text
      ∧ (∃ tokens, scan (textOf before) = .ok tokens)
      ∧ IsBadPlace c behind e.kind := by
  obtain ⟨row, c, behind, heq, hrow, hbad⟩ := exists_stretches_of_error h
  obtain ⟨hposition, hfound, hkind⟩ := isBadPlace_of_scanLexeme hbad
  rw [Nat.zero_add] at hposition
  refine ⟨spans row, c, behind, heq, hposition.symm, hfound,
    ⟨tokensFrom 0 row, ?_⟩, hkind⟩
  rw [scan_eq_scanFrom, clusters_textOf_front ⟨c :: behind, heq.symm⟩]
  exact scanFrom_spans row 0 hrow

/-- A string behind a comment, with two quotes in it that backslashes take
along. -/
theorem scan_error_at_open_string :
    let source := "\\\\ |\nx + \"a\\\\\\\"b\\\""
    let e : LexError := ⟨.unterminatedString, 9, "\""⟩
    scan source = .error (.lex e)
      ∧ ∃ before c behind, clusters source = before ++ c :: behind
        ∧ before.length = e.position ∧ e.found = c.text
        ∧ (∃ tokens, scan (textOf before) = .ok tokens)
        ∧ IsBadPlace c behind e.kind := by
  intro source e
  have hend : (scan source).map (fun _ => ()) = .error (.lex e) := by
    decide +kernel
  have h : scan source = .error (.lex e) := by
    cases hscan : scan source with
    | ok tokens => rw [hscan] at hend; cases hend
    | error e' => rw [hscan] at hend; cases hend; rfl
  exact ⟨h, scan_error_at_first_bad_place h⟩

end Metrology.Token
