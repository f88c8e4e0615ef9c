/-
Scanning goes line by line. A line break that follows no carriage return
is a cluster by itself, so it cuts a text in two without changing the
clusters on either side (`clustersOf_append_lineFeed`). No lexeme runs
over such a break once it is complete before it: numbers, words and
comments end there at the latest, and blocks and strings have met their
end. So a text and a line break before another text add the first one's
tokens and nothing else (`Scans.append_lineFeed`).

Where a text starts matters for positions alone, those of its tokens and
that of an error, which are moved along (`scanFrom_add`). Together: a text
that can be scanned, a line break and any other text are scanned one after
the other, and an error of the second is the error of the whole.
-/
import Metrology.Proofs.Token.Blocks

namespace Metrology

namespace Text

/-- The line break as a cluster. -/
def lineFeed : Cluster := ⟨'\n', []⟩

/-- A choice avoids what both its branches avoid. -/
theorem ite_ne {α : Type} {p : Prop} [Decidable p] {a b x : α}
    (ha : a ≠ x) (hb : b ≠ x) : (if p then a else b) ≠ x := by
  by_cases hp : p
  · rw [if_pos hp]
    exact ha
  · rw [if_neg hp]
    exact hb

/-- Only a carriage return is one. -/
theorem breakClass_ne_carriageReturn {c : Char} (h : c ≠ '\r') :
    breakClass c ≠ .carriageReturn := by
  unfold breakClass wideBreakClass
  rw [if_neg h]
  repeat' apply ite_ne
  all_goals exact BreakClass.noConfusion

/-- A line break joins nothing but a carriage return. -/
theorem OpenCluster.joins_lineFeed {o : OpenCluster}
    (h : o.last ≠ .carriageReturn) : o.joins .lineFeed = false := by
  unfold OpenCluster.joins
  cases hlast : o.last <;> first | rfl | exact absurd hlast h

/-- Nothing joins a line break. -/
theorem clustersFrom_lineFeed (cs : List Char) :
    clustersFrom lineFeed (.start .lineFeed) cs
      = lineFeed :: clustersOf cs := by
  cases cs with
  | nil => rfl
  | cons c cs =>
      rw [clustersFrom, clustersOf]
      have hjoins : (OpenCluster.start .lineFeed).joins (breakClass c)
          = false := by
        unfold OpenCluster.joins
        cases breakClass c <;> rfl
      rw [hjoins]
      rfl

/-- Clusters before a line break are not changed by it. Only the last
character could join it, so what counts is that this is no carriage
return; without characters it is the open cluster that must not end in
one. -/
theorem clustersFrom_append_lineFeed (bs : List Char) :
    ∀ (cs : List Char) (cur : Cluster) (o : OpenCluster),
      (cs = [] → o.last ≠ .carriageReturn) → cs.getLast? ≠ some '\r' →
      clustersFrom cur o (cs ++ '\n' :: bs)
        = clustersFrom cur o cs ++ lineFeed :: clustersOf bs := by
  intro cs
  induction cs with
  | nil =>
      intro cur o hlast _
      have hclass : breakClass '\n' = .lineFeed := by decide
      rw [List.nil_append, clustersFrom.eq_2, clustersFrom.eq_1, hclass,
        OpenCluster.joins_lineFeed (hlast rfl)]
      show cur :: clustersFrom lineFeed (.start .lineFeed) bs = _
      rw [clustersFrom_lineFeed]
      rfl
  | cons c cs ih =>
      intro cur o _ hcs
      rw [List.getLast?_cons] at hcs
      have hrest : cs.getLast? ≠ some '\r' := by
        intro hlast
        rw [hlast] at hcs
        exact hcs rfl
      -- if this is the last character, it is the one that must not be a
      -- carriage return
      have hclass : cs = [] → breakClass c ≠ .carriageReturn := by
        rintro rfl
        refine breakClass_ne_carriageReturn ?_
        rintro rfl
        exact hcs rfl
      rw [List.cons_append, clustersFrom.eq_2, clustersFrom.eq_2]
      split
      · exact ih _ _ hclass hrest
      · rw [ih _ _ hclass hrest]
        rfl

/-- A line break that follows no carriage return cuts the clusters of a
text in two. -/
theorem clustersOf_append_lineFeed {cs : List Char}
    (h : cs.getLast? ≠ some '\r') (bs : List Char) :
    clustersOf (cs ++ '\n' :: bs)
      = clustersOf cs ++ lineFeed :: clustersOf bs := by
  cases cs with
  | nil => exact clustersFrom_lineFeed bs
  | cons c cs =>
      rw [List.getLast?_cons] at h
      refine clustersFrom_append_lineFeed bs cs ⟨c, []⟩ _ ?_ ?_
      · rintro rfl
        refine breakClass_ne_carriageReturn ?_
        rintro rfl
        exact h rfl
      · intro hlast
        rw [hlast] at h
        exact h rfl

/-- The splitter loses nothing, and takes a line break that follows no
carriage return for a cluster of its own, behind which it starts afresh. -/
structure CutsAtLineFeeds (split : Splitter) : Prop where
  flatten : ∀ cs, (split cs).flatMap Cluster.toList = cs
  append_lineFeed : ∀ {cs}, cs.getLast? ≠ some '\r' → ∀ bs,
    split (cs ++ '\n' :: bs) = split cs ++ lineFeed :: split bs

/-- The rules for clusters do so. -/
theorem cutsAtLineFeeds_clustersOf : CutsAtLineFeeds clustersOf :=
  ⟨flatten_clustersOf, clustersOf_append_lineFeed⟩

/-- A single character is a single cluster. -/
theorem CutsAtLineFeeds.singleton {split : Splitter}
    (h : CutsAtLineFeeds split) (x : Char) : split [x] = [⟨x, []⟩] := by
  have hflatten := h.flatten [x]
  cases hsplit : split [x] with
  | nil => rw [hsplit] at hflatten; cases hflatten
  | cons c rest =>
      rw [hsplit, List.flatMap_cons, Cluster.toList, List.cons_append]
        at hflatten
      obtain ⟨hfirst, hnone⟩ := List.cons.inj hflatten
      obtain ⟨hc, hrest⟩ := List.append_eq_nil_iff.mp hnone
      obtain ⟨first, attached⟩ := c
      cases rest with
      | nil => cases hfirst; cases hc; rfl
      | cons d rest => cases hrest

end Text

namespace Token

open Text

variable {position : Nat} {c : Cluster} {cs rest : List Cluster}
  {found : Option Lexeme}

-- ===================================================== runs of clusters

/-- A run of clusters ends before a cluster of another class. -/
theorem takeWhile_append_stop {p : Cluster → Bool} {d : Cluster}
    (hd : p d = false) (cs ds : List Cluster) :
    (cs ++ d :: ds).takeWhile p = cs.takeWhile p := by
  induction cs with
  | nil => rw [List.nil_append, List.takeWhile_cons, hd]; rfl
  | cons c cs ih =>
      rw [List.cons_append, List.takeWhile_cons, List.takeWhile_cons, ih]

/-- Behind the run stands the rest, and then what ends it. -/
theorem dropWhile_append_stop {p : Cluster → Bool} {d : Cluster}
    (hd : p d = false) (cs ds : List Cluster) :
    (cs ++ d :: ds).dropWhile p = cs.dropWhile p ++ d :: ds := by
  induction cs with
  | nil => rw [List.nil_append, List.dropWhile_cons, hd]; rfl
  | cons c cs ih =>
      rw [List.cons_append, List.dropWhile_cons, List.dropWhile_cons, ih]
      split
      · rfl
      · rfl

/-- What ends a run ends it whatever comes later. -/
theorem dropWhile_append_found {p : Cluster → Bool} {d : Cluster}
    (h : cs.dropWhile p = d :: rest) (ds : List Cluster) :
    (cs ++ ds).dropWhile p = d :: (rest ++ ds)
      ∧ (cs ++ ds).takeWhile p = cs.takeWhile p := by
  induction cs with
  | nil => cases h
  | cons c cs ih =>
      rw [List.dropWhile_cons] at h
      rw [List.cons_append, List.dropWhile_cons, List.takeWhile_cons,
        List.takeWhile_cons]
      by_cases hc : p c = true
      · rw [if_pos hc] at h ⊢
        obtain ⟨hdrop, htake⟩ := ih h
        rw [htake]
        exact ⟨hdrop, rfl⟩
      · rw [if_neg hc] at h ⊢
        cases h
        refine ⟨rfl, ?_⟩
        rw [if_neg hc, if_neg hc]

-- ============================================== lexemes before a break

/-- A unit block that has ended does not go on. -/
theorem splitUnit?_append {inside : List Cluster}
    (h : splitUnit? cs = some (inside, rest)) (ds : List Cluster) :
    splitUnit? (cs ++ ds) = some (inside, rest ++ ds) := by
  unfold splitUnit? at h ⊢
  split at h
  · cases h
  · next d rest' hdrop =>
    cases h
    obtain ⟨hdrop', htake⟩ := dropWhile_append_found hdrop ds
    rw [hdrop', htake]

theorem splitString?_append (ds : List Cluster) :
    ∀ {cs inside rest : List Cluster},
      splitString? cs = some (inside, rest) →
      splitString? (cs ++ ds) = some (inside, rest ++ ds) := by
  intro cs
  fun_induction splitString? cs with
  | case1 => intro _ _ h; cases h
  | case2 c cs hquote =>
      intro _ _ h
      cases h
      rw [List.cons_append, splitString?.eq_def]
      simp only [if_pos hquote]
  | case3 => intro _ _ h; cases h
  | case4 c hquote hslash d cs ih =>
      intro _ _ h
      obtain ⟨⟨inside, rest⟩, hsplit, heq⟩ := Option.map_eq_some_iff.mp h
      cases heq
      rw [List.cons_append, List.cons_append, splitString?.eq_def]
      simp only [if_neg hquote, if_pos hslash, ih hsplit]
      rfl
  | case5 c cs hquote hslash ih =>
      intro _ _ h
      obtain ⟨⟨inside, rest⟩, hsplit, heq⟩ := Option.map_eq_some_iff.mp h
      cases heq
      rw [List.cons_append, splitString?.eq_def]
      simp only [if_neg hquote, if_neg hslash, ih hsplit]
      rfl

/-- The letters of a number end at a line break. -/
theorem splitDecorator_append (cs ds : List Cluster) :
    splitDecorator (cs ++ lineFeed :: ds)
      = ((splitDecorator cs).1, (splitDecorator cs).2 ++ lineFeed :: ds) := by
  unfold splitDecorator
  cases cs with
  | nil => rfl
  | cons c cs =>
      rw [List.cons_append]
      by_cases hc : Scale.isSymbolCluster c = true
      · have hstop : (fun d => Scale.isSymbolCluster d
            || isA Text.isAsciiDigit d) lineFeed = false := by decide
        simp only [if_pos hc]
        rw [← List.cons_append, takeWhile_append_stop hstop,
          dropWhile_append_stop hstop]
      · simp only [if_neg hc]
        rfl

theorem scanNumber_append (cs ds : List Cluster) :
    scanNumber (cs ++ lineFeed :: ds)
      = ((scanNumber cs).1, (scanNumber cs).2 ++ lineFeed :: ds) := by
  have hstop : isA isGroupedChar lineFeed = false := by decide
  unfold scanNumber
  rw [takeWhile_append_stop hstop, dropWhile_append_stop hstop,
    splitDecorator_append]

theorem scanPlain_append {x : Char}
    (h : scanPlain position c x cs = .ok (found, rest))
    (ds : List Cluster) :
    scanPlain position c x (cs ++ lineFeed :: ds)
      = .ok (found, rest ++ lineFeed :: ds) := by
  -- a line feed is no backslash, so the line behind starts no comment
  -- here
  have hhead : (cs ++ lineFeed :: ds).head?.any (·.isChar '\\')
      = cs.head?.any (·.isChar '\\') := by
    cases cs with
    | nil => rfl
    | cons c cs => rfl
  unfold scanPlain at h ⊢
  rw [hhead]
  split at h
  · next hcomment =>
    have hstop : (!lineFeed.isChar '\n') = false := by decide
    rw [if_pos hcomment, dropWhile_append_stop hstop]
    cases h
    rfl
  · next hcomment =>
    rw [if_neg hcomment]
    split at h
    · next hnumber =>
      rw [if_pos hnumber, ← List.cons_append, scanNumber_append]
      cases h
      rfl
    · next hnumber =>
      rw [if_neg hnumber]
      split at h
      · next hword =>
        have hstop : isA isWordChar lineFeed = false := by decide
        rw [if_pos hword, takeWhile_append_stop hstop,
          dropWhile_append_stop hstop]
        cases h
        rfl
      · next hword =>
        rw [if_neg hword]
        split at h
        · next hgap =>
          rw [if_pos hgap]
          cases h
          rfl
        · cases h

/-- A lexeme that is complete before a line break stays as it is. -/
theorem scanLexeme_append
    (h : scanLexeme position c cs = .ok (found, rest)) (ds : List Cluster) :
    scanLexeme position c (cs ++ lineFeed :: ds)
      = .ok (found, rest ++ lineFeed :: ds) := by
  unfold scanLexeme at h ⊢
  cases hchar : c.char? with
  | none =>
      simp only [hchar] at h ⊢
      split at h
      · next hgap =>
        rw [if_pos hgap]
        cases h
        rfl
      · cases h
  | some x =>
      simp only [hchar] at h ⊢
      cases hpunctuation : punctuation? x with
      | some l =>
          simp only [hpunctuation] at h ⊢
          cases h
          rfl
      | none =>
          simp only [hpunctuation] at h ⊢
          by_cases hbar : x = '|'
          · rw [if_pos hbar] at h ⊢
            cases hsplit : splitUnit? cs with
            | none => rw [hsplit] at h; cases h
            | some block =>
                obtain ⟨inside, rest'⟩ := block
                rw [hsplit] at h
                obtain ⟨scale, hscale, h⟩ := bind_eq_ok.mp h
                cases h
                rw [splitUnit?_append hsplit]
                exact bind_eq_ok.mpr ⟨scale, hscale, rfl⟩
          rw [if_neg hbar] at h ⊢
          by_cases hquote : x = '"'
          · rw [if_pos hquote] at h ⊢
            cases hsplit : splitString? cs with
            | none => rw [hsplit] at h; cases h
            | some block =>
                obtain ⟨inside, rest'⟩ := block
                rw [hsplit] at h
                cases h
                rw [splitString?_append _ hsplit]
          rw [if_neg hquote] at h ⊢
          cases hlengthened : Operator.lengthened? x with
          | some ops =>
              obtain ⟨short, long⟩ := ops
              simp only [hlengthened] at h ⊢
              -- the break stands where an equals sign would have to
              cases cs with
              | nil => cases h; rfl
              | cons d cs =>
                  rw [List.cons_append]
                  simp only at h ⊢
                  split at h
                  · next hequals => rw [if_pos hequals]; cases h; rfl
                  · next hequals => rw [if_neg hequals]; cases h; rfl
          | none =>
              simp only [hlengthened] at h ⊢
              cases hsingle : Operator.single? x with
              | some op =>
                  simp only [hsingle] at h ⊢
                  cases h
                  rfl
              | none =>
                  simp only [hsingle] at h ⊢
                  exact scanPlain_append h ds

-- ======================================================= scanned texts

/-- Tokens behind what was found at a position. -/
def withFound (found : Option Lexeme) (position : Nat)
    (tokens : List Token) : List Token :=
  match found with
  | none => tokens
  | some l => ⟨l, position⟩ :: tokens

/-- The clusters from a position onwards are scanned, lexeme by lexeme,
into these tokens. -/
inductive Scans : Nat → List Cluster → List Token → Prop
  | nil {position : Nat} : Scans position [] []
  | cons {position : Nat} {c : Cluster} {cs rest : List Cluster}
      {found : Option Lexeme} {tokens : List Token} :
      scanLexeme position c cs = .ok (found, rest) →
      Scans (position + (cs.length + 1 - rest.length)) rest tokens →
      Scans position (c :: cs) (withFound found position tokens)

/-- A scan that succeeds goes lexeme by lexeme. -/
theorem scans_of_scanFrom {tokens : List Token}
    (h : scanFrom position cs = .ok tokens) : Scans position cs tokens := by
  fun_induction scanFrom position cs generalizing tokens with
  | case1 => cases h; exact .nil
  | case2 => cases h
  | case3 position c cs found rest hlexeme ih =>
      obtain ⟨tokens', htokens', h⟩ := bind_eq_ok.mp h
      cases found with
      | none => cases h; exact .cons hlexeme (ih htokens')
      | some l => cases h; exact .cons hlexeme (ih htokens')

/-- A lexeme is scanned before what it leaves. -/
theorem scanFrom_cons (h : scanLexeme position c cs = .ok (found, rest)) :
    scanFrom position (c :: cs)
      = (scanFrom (position + (cs.length + 1 - rest.length)) rest).map
          (withFound found position) := by
  rw [scanFrom]
  split
  · next heq => rw [h] at heq; cases heq
  · next found' rest' heq =>
    rw [h] at heq
    cases heq
    cases scanFrom (position + (cs.length + 1 - rest.length)) rest with
    | error e => rfl
    | ok tokens => cases found <;> rfl

/-- A line break is skipped. -/
theorem scanFrom_lineFeed (position : Nat) (ds : List Cluster) :
    scanFrom position (lineFeed :: ds) = scanFrom (position + 1) ds := by
  have hskip : scanLexeme position lineFeed ds = .ok (none, ds) := rfl
  have hlen : ds.length + 1 - ds.length = 1 := by omega
  rw [scanFrom_cons hskip, hlen]
  cases scanFrom (position + 1) ds with
  | error e => rfl
  | ok tokens => rfl

/-- The tokens of a text stand before those of what follows a line
break. -/
theorem Scans.append_lineFeed {tokens : List Token}
    (h : Scans position cs tokens) (ds : List Cluster) :
    scanFrom position (cs ++ lineFeed :: ds)
      = (scanFrom (position + cs.length + 1) ds).map (tokens ++ ·) := by
  induction h with
  | @nil position =>
      rw [List.nil_append, scanFrom_lineFeed]
      cases scanFrom (position + 1) ds with
      | error e => rfl
      | ok tokens => rfl
  | @cons position c cs rest found tokens hlexeme _ ih =>
      have hle := length_scanLexeme hlexeme
      have hstep : (cs ++ lineFeed :: ds).length + 1
          - (rest ++ lineFeed :: ds).length = cs.length + 1 - rest.length := by
        simp only [List.length_append, List.length_cons]
        omega
      have hend : position + (cs.length + 1 - rest.length) + rest.length + 1
          = position + (c :: cs).length + 1 := by
        rw [List.length_cons]
        omega
      rw [List.cons_append, scanFrom_cons (scanLexeme_append hlexeme ds),
        hstep, ih, hend]
      cases scanFrom (position + (c :: cs).length + 1) ds with
      | error e => rfl
      | ok more => cases found <;> rfl

-- ============================================================ positions

/-- The token so many places further on. -/
def moved (k : Nat) (t : Token) : Token := ⟨t.lexeme, t.position + k⟩

/-- A token further on says the same. -/
@[simp] theorem lexeme_moved (k : Nat) (t : Token) :
    (moved k t).lexeme = t.lexeme := rfl

/-- The error so many places further on. Only an error that speaks of a
character has a place. -/
def movedError (k : Nat) : Error → Error
  | .lex e => .lex { e with position := e.position + k }
  | e => e

/-- The outcome of a scan so many places further on. -/
def movedScan (k : Nat) (r : Except Error (List Token)) :
    Except Error (List Token) :=
  (r.map (List.map (moved k))).mapError (movedError k)

/-- An error of a unit has no place. -/
theorem movedError_readBlock (k : Nat) (block : String) :
    FailsOnly (fun e => movedError k e = e) (Scale.readBlock block) :=
  Scale.failsOnly_readBlock (fun _ => rfl) (fun _ _ => rfl) block

/-- A place further on, the complaint is about that place. -/
theorem scanPlain_add (position k : Nat) (c : Cluster) (x : Char)
    (cs : List Cluster) :
    scanPlain (position + k) c x cs
      = (scanPlain position c x cs).mapError (movedError k) := by
  unfold scanPlain
  iterate 4
    split
    · rfl
  rfl

/-- What a lexeme is does not depend on where it stands, nor does what is
wrong with it. -/
theorem scanLexeme_add (position k : Nat) (c : Cluster)
    (cs : List Cluster) :
    scanLexeme (position + k) c cs
      = (scanLexeme position c cs).mapError (movedError k) := by
  unfold scanLexeme
  split
  · split
    · rfl
    · rfl
  · split
    · rfl
    split
    · split
      · rfl
      · next inside rest _ =>
        cases hread : Scale.readBlock (textOf inside) with
        | ok scale => rfl
        | error e =>
            -- the error of a unit has no place to move
            show Except.error e = .error (movedError k e)
            rw [movedError_readBlock k _ e hread]
    split
    · split
      · rfl
      · rfl
    split
    · split
      · rfl
      · split
        · rfl
        · rfl
    · rfl
    · exact scanPlain_add ..

/-- Where no lexeme can be taken off, the scan ends. -/
theorem scanFrom_error {e : Error}
    (h : scanLexeme position c cs = .error e) :
    scanFrom position (c :: cs) = .error e := by
  rw [scanFrom]
  split
  · next heq => rw [h] at heq; cases heq; rfl
  · next heq => rw [h] at heq; cases heq

/-- Further on in a text the scan comes out the same, further on. -/
theorem scanFrom_add (position k : Nat) (cs : List Cluster) :
    scanFrom (position + k) cs = movedScan k (scanFrom position cs) := by
  fun_induction scanFrom position cs with
  | case1 position => rw [scanFrom]; rfl
  | case2 position c cs e he =>
      have hmoved := scanLexeme_add position k c cs
      rw [he] at hmoved
      rw [scanFrom_error hmoved]
      rfl
  | case3 position c cs found rest hlexeme ih =>
      have hmoved := scanLexeme_add position k c cs
      rw [hlexeme] at hmoved
      rw [scanFrom_cons hmoved, Nat.add_right_comm, ih]
      cases scanFrom (position + (cs.length + 1 - rest.length)) rest with
      | error e => rfl
      | ok tokens => cases found <;> rfl

-- ========================================================== whole texts

/-- A text that can be scanned, and that does not end in a carriage
return, stands before a line break for its tokens: behind the break the
scan is that of the other text, further on by the clusters of the first
and the break, whether it gives tokens or fails. This needs no more of the
clusters than that a line break is one, which is so of those that texts
are taken apart into. -/
theorem scan_append_lineFeed :
    CutsAtLineFeeds clustersOf
    ∧ ∀ split, CutsAtLineFeeds split →
      ∀ (a b : String) (tokens : List Token),
        a.toList.getLast? ≠ some '\r' → scanWith split a = .ok tokens →
        scanWith split (a ++ "\n" ++ b)
          = (movedScan ((split a.toList).length + 1) (scanWith split b)).map
              (tokens ++ ·) := by
  refine ⟨cutsAtLineFeeds_clustersOf, ?_⟩
  intro split hsplit a b tokens hend ha
  have hsource : (a ++ "\n" ++ b).toList = a.toList ++ '\n' :: b.toList := by
    simp
  have hlines : scanWith split (a ++ "\n" ++ b)
      = (scanFrom (0 + (split a.toList).length + 1) (split b.toList)).map
          (tokens ++ ·) := by
    rw [scanWith, hsource, hsplit.append_lineFeed hend]
    exact (scans_of_scanFrom ha).append_lineFeed (split b.toList)
  rw [hlines, Nat.add_assoc, scanFrom_add]
  rfl

/-- A string with an escaped quote, and a comment that nothing ends. -/
def remark : String := "x = \"\\\"\" \\\\ |"

/-- Behind the comment the next line is scanned, and its error is found
where it stands. -/
theorem scan_append_lineFeed_remark :
    remark.toList.getLast? ≠ some '\r' ∧ (scan remark).isOk = true ∧
      scan (remark ++ "\n" ++ "y ~")
        = .error (.lex ⟨.unexpected, 16, "~"⟩) := by
  have hend : remark.toList.getLast? ≠ some '\r' := by decide +kernel
  have hok : (scan remark).isOk = true := by decide +kernel
  have hlength : (clusters remark).length = 13 := by decide +kernel
  have herror : scan "y ~" = .error (.lex ⟨.unexpected, 2, "~"⟩) := by cbv
  refine ⟨hend, hok, ?_⟩
  cases hscan : scan remark with
  | error e => rw [hscan] at hok; cases hok
  | ok tokens =>
      have hlines := scan_append_lineFeed.2 _ scan_append_lineFeed.1 remark
        "y ~" tokens hend hscan
      rw [← clusters, hlength, ← scan, ← scan, herror] at hlines
      exact hlines

end Token

end Metrology
