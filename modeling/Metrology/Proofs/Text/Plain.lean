/-
Clusters of plain text. Most characters neither join the one before them
nor draw in the one after; all of ASCII is of this kind, but for one
pair: a line feed joins a carriage return. So a plain text has its
characters as its clusters, that pair apart (`clustersOf_plain`), and a
text without carriage returns has them without exception
(`clustersOf_singles`).
-/
import Metrology.Proofs.Token.Lines

namespace Metrology.Text

/-- The character joins no other, a carriage return and a line feed
apart. -/
def isPlain (c : Char) : Bool :=
  match breakClass c with
  | .carriageReturn | .lineFeed | .control | .other => true
  | _ => false

/-- A property of the characters of ASCII, decided by going through
them. -/
theorem forall_ascii {p : Char → Prop}
    (h : ∀ n < 0x80, p (Char.ofNat n)) {c : Char} (hc : c.toNat < 0x80) :
    p c := by
  have hp := h c.toNat hc
  rwa [Char.ofNat_toNat] at hp

/-- All of ASCII is plain. -/
theorem isPlain_of_ascii {c : Char} (h : c.toNat < 0x80) :
    isPlain c = true := by
  unfold isPlain breakClass
  by_cases hcr : c = '\r'
  · rw [if_pos hcr]
  by_cases hlf : c = '\n'
  · rw [if_neg hcr, if_pos hlf]
  by_cases hcontrol : c.toNat < 0x20
  · rw [if_neg hcr, if_neg hlf, if_pos hcontrol]
  by_cases hother : c.toNat < 0x7F
  · rw [if_neg hcr, if_neg hlf, if_neg hcontrol, if_pos hother]
  · rw [if_neg hcr, if_neg hlf, if_neg hcontrol, if_neg hother,
      if_pos (by omega)]

/-- Only a line feed is one. -/
theorem breakClass_ne_lineFeed {c : Char} (h : c ≠ '\n') :
    breakClass c ≠ .lineFeed := by
  unfold breakClass wideBreakClass
  rw [if_neg h]
  repeat' apply ite_ne
  all_goals exact BreakClass.noConfusion

/-- A character as a cluster. -/
def alone (c : Char) : Cluster := ⟨c, []⟩

/-- Every character alone, but for a carriage return with a line feed
behind it. -/
def pairBreaks : List Char → List Cluster
  | '\r' :: '\n' :: cs => ⟨'\r', ['\n']⟩ :: pairBreaks cs
  | c :: cs => alone c :: pairBreaks cs
  | [] => []

/-- Of two plain characters the second joins the first only in that
pair. -/
theorem joins_plain {c d : Char} (hc : isPlain c = true)
    (hd : isPlain d = true) (hpair : c = '\r' → d ≠ '\n') :
    (OpenCluster.start (breakClass c)).joins (breakClass d) = false := by
  have hbreak : breakClass c = .carriageReturn →
      breakClass d ≠ .lineFeed := by
    intro hcr
    refine breakClass_ne_lineFeed (hpair ?_)
    by_contra hne
    exact breakClass_ne_carriageReturn hne hcr
  unfold isPlain at hc hd
  unfold OpenCluster.joins OpenCluster.start
  -- four classes are plain, so there are sixteen pairs, and one of them
  -- joins
  cases hcc : breakClass c <;> rw [hcc] at hc <;> try cases hc
  all_goals
    cases hdd : breakClass d <;> rw [hdd] at hd <;> try cases hd
  all_goals first | rfl | exact absurd hdd (hbreak hcc)

/-- Nothing joins a cluster that ends in a line feed. -/
theorem clustersFrom_closed {o : OpenCluster} (h : o.last = .lineFeed)
    (cur : Cluster) (cs : List Char) :
    clustersFrom cur o cs = cur :: clustersOf cs := by
  cases cs with
  | nil => rfl
  | cons c cs =>
      have hjoins : o.joins (breakClass c) = false := by
        unfold OpenCluster.joins
        rw [h]
      rw [clustersFrom, hjoins]
      rfl

/-- The clusters of a plain text. -/
theorem clustersOf_plain {cs : List Char}
    (h : ∀ c ∈ cs, isPlain c = true) : clustersOf cs = pairBreaks cs := by
  fun_induction pairBreaks cs with
  | case1 cs ih =>
      have hjoins : (OpenCluster.start (breakClass '\r')).joins
          (breakClass '\n') = true := by decide
      have hlast : ((OpenCluster.start (breakClass '\r')).push
          (breakClass '\n')).last = .lineFeed := by decide
      rw [clustersOf, clustersFrom, if_pos hjoins, clustersFrom_closed hlast,
        ih fun c hc => h c (by simp [hc])]
      rfl
  | case2 c cs hpair ih =>
      have hrest := ih fun d hd => h d (List.mem_cons_of_mem _ hd)
      cases cs with
      | nil => rfl
      | cons d ds =>
          have hjoins := joins_plain (h c (List.mem_cons_self ..))
            (h d (by simp)) fun hc hd => hpair ds hc (by rw [hd])
          rw [clustersOf, clustersFrom, hjoins, ← hrest]
          rfl
  | case3 => rfl

/-- The splitter takes ASCII apart into its characters, but for a carriage
return with a line feed behind it. -/
def SplitsAscii (split : Splitter) : Prop :=
  ∀ cs, (∀ c ∈ cs, c.toNat < 0x80) → split cs = pairBreaks cs

/-- The rules for clusters do so. -/
theorem splitsAscii_clustersOf : SplitsAscii clustersOf := by
  intro cs hascii
  exact clustersOf_plain fun c hc => isPlain_of_ascii (hascii c hc)

/-- Without carriage returns in front nothing is paired there. -/
theorem pairBreaks_append {cs : List Char} (h : '\r' ∉ cs)
    (ds : List Char) :
    pairBreaks (cs ++ ds) = cs.map alone ++ pairBreaks ds := by
  induction cs with
  | nil => rfl
  | cons c cs ih =>
      rw [List.mem_cons, not_or] at h
      rw [List.cons_append, pairBreaks, ih h.2]
      · rfl
      · intro _ hc
        exact absurd hc.symm h.1

/-- A carriage return without a line feed behind it stands alone. -/
theorem pairBreaks_carriageReturn {cs : List Char}
    (h : cs.head? ≠ some '\n') :
    pairBreaks ('\r' :: cs) = alone '\r' :: pairBreaks cs := by
  rw [pairBreaks]
  rintro ds - rfl
  exact h rfl

/-- The clusters of a plain text without carriage returns. -/
theorem clustersOf_singles {cs : List Char}
    (h : ∀ c ∈ cs, isPlain c = true) (hcr : '\r' ∉ cs) :
    clustersOf cs = cs.map alone := by
  rw [clustersOf_plain h, ← List.append_nil cs, pairBreaks_append hcr]
  simp [pairBreaks]

/-- Characters alone make the text again. -/
@[simp] theorem flatMap_alone (cs : List Char) :
    (cs.map alone).flatMap Cluster.toList = cs := by
  induction cs with
  | nil => rfl
  | cons c cs ih => rw [List.map_cons, List.flatMap_cons, ih]; rfl

@[simp] theorem textOf_alone (cs : List Char) :
    textOf (cs.map alone) = String.ofList cs := by
  rw [textOf, flatMap_alone]

/-- A text without members of a class is not trimmed. -/
theorem trimChars_eq_self {p : Char → Bool} {cs : List Char}
    (h : ∀ c ∈ cs, p c = false) : trimChars p cs = cs := by
  have hdrop : ∀ ds : List Char, (∀ c ∈ ds, p c = false) →
      ds.dropWhile p = ds := by
    intro ds hds
    cases ds with
    | nil => rfl
    | cons d ds =>
        rw [List.dropWhile_cons_of_neg]
        simp [hds d (List.mem_cons_self ..)]
  rw [trimChars, hdrop cs h,
    hdrop cs.reverse fun c hc => h c (List.mem_reverse.mp hc),
    List.reverse_reverse]

/-- A character alone is that character. -/
@[simp] theorem isChar_alone (c x : Char) : (alone c).isChar x = (c == x) := by
  simp [alone, Cluster.isChar, Cluster.char?]

end Metrology.Text
