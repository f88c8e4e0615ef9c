/-
Terms of units: a symbol with an exponent behind it. `Spells` says what a
term is, character by character: letters of symbols, and then nothing or
a written whole number. The reader goes by clusters instead, where a
letter may have marks attached and is then no letter of a symbol.

The two agree because a whole number starts with white space, a sign or a
digit of some script, and none of these attaches to a letter
(`joins_other`). So the letters of a term are clusters of their own,
and where they end, the number begins (`readParts_eq_ok_iff`).
-/
import Metrology.Proofs.Sequence
import Metrology.Proofs.Token.Spelling
import Metrology.Scale.Read
import Mathlib.Data.List.DropRight

namespace Metrology.Text

-- ============================================================= trimming

theorem trimChars_eq (p : Char → Bool) (cs : List Char) :
    trimChars p cs = (cs.dropWhile p).rdropWhile p := rfl

/-- What is left of a list whose first member stays starts with it. -/
theorem exists_trimChars_cons {p : Char → Bool} {c : Char}
    (hc : p c = false) (cs : List Char) :
    ∃ ds, trimChars p (c :: cs) = c :: ds := by
  have hdrop : (c :: cs).dropWhile p = c :: cs :=
    List.dropWhile_cons_of_neg (by simp [hc])
  rw [trimChars_eq, hdrop]
  cases hleft : (c :: cs).rdropWhile p with
  | nil =>
      have hall := List.rdropWhile_eq_nil_iff.mp hleft
      rw [hall c (List.mem_cons_self ..)] at hc
      cases hc
  | cons d ds =>
      obtain ⟨rest, hrest⟩ := List.rdropWhile_prefix p (l := c :: cs)
      rw [hleft] at hrest
      cases hrest
      exact ⟨ds, rfl⟩

/-- Trimming twice is trimming once. -/
@[simp] theorem trimChars_trimChars (p : Char → Bool) (cs : List Char) :
    trimChars p (trimChars p cs) = trimChars p cs := by
  have hfirst : (trimChars p cs).dropWhile p = trimChars p cs := by
    rw [trimChars_eq]
    cases hdrop : cs.dropWhile p with
    | nil => rfl
    | cons d ds =>
        have hd := List.head?_dropWhile_not p cs
        rw [hdrop] at hd
        obtain ⟨es, hes⟩ := exists_trimChars_cons hd ds
        rw [trimChars_eq, List.dropWhile_cons_of_neg (by simpa using hd)]
          at hes
        rw [hes, List.dropWhile_cons_of_neg (by simpa using hd)]
  rw [trimChars_eq p (trimChars p cs), hfirst, trimChars_eq,
    List.rdropWhile_idempotent]

/-- A trimmed text has no blanks around it. -/
@[simp] theorem trim_trim (s : String) : trim (trim s) = trim s := by
  rw [trim, trim, String.toList_ofList, trimChars_trimChars]

-- =============================================================== tables

/-- The range has no code point in common with those of the table. -/
def isApart (table : List Range) (r : Range) : Bool :=
  table.all fun s => r.2.blt s.1 || s.2.blt r.1

/-- What is in ranges apart from a table is not in the table. -/
theorem not_inRanges_of_isApart {table ranges : List Range} {c : Char}
    (h : ranges.all (isApart table) = true)
    (hc : inRanges ranges c = true) : inRanges table c = false := by
  rw [← Bool.not_eq_true, inRanges_iff]
  rintro ⟨s, hs, hlow, hhigh⟩
  obtain ⟨r, hr, hlow', hhigh'⟩ := inRanges_iff.mp hc
  have hapart := List.all_eq_true.mp (List.all_eq_true.mp h r hr) s hs
  rw [Bool.or_eq_true, Nat.blt_eq, Nat.blt_eq] at hapart
  omega

end Metrology.Text

namespace Metrology.Scale

open Metrology.Text
open Metrology.Token (isA isA_iff isSymbolChar Stops exists_run
  takeWhile_append_of_stops dropWhile_append_of_stops)

-- ======================================================== whole numbers

/-- What a written whole number can start with: white space, a sign or a
digit of some script. -/
def numberStarts : List Range :=
  whiteSpaceRanges ++ (0x2B, 0x2B) :: (0x2D, 0x2D)
    :: digitZeros.map fun z => (z, z + 9)

/-- White space may stand before a number. -/
theorem inRanges_of_isWhiteSpace {c : Char} (h : isWhiteSpace c = true) :
    inRanges numberStarts c = true := by
  obtain ⟨r, hr, hc⟩ := inRanges_iff.mp h
  exact inRanges_iff.mpr ⟨r, List.mem_append_left _ hr, hc⟩

theorem inRanges_of_digitValue? {c : Char} {d : Nat}
    (h : digitValue? c = some d) : inRanges numberStarts c = true := by
  obtain ⟨z, hz, -⟩ := Option.map_eq_some_iff.mp h
  have hbounds := List.find?_some hz
  rw [Bool.and_eq_true, decide_eq_true_iff, decide_eq_true_iff] at hbounds
  refine inRanges_iff.mpr ⟨(z, z + 9), ?_, hbounds⟩
  refine List.mem_append_right _ (List.mem_cons_of_mem _
    (List.mem_cons_of_mem _ ?_))
  exact List.mem_map.mpr ⟨z, List.mem_of_find?_eq_some hz, rfl⟩

/-- Digits in a row start with one, not with an underscore. -/
theorem inRanges_of_readAnyDigits? {c : Char} {cs : List Char}
    {value count : Nat} {r : Nat × Nat}
    (h : Numeral.readAnyDigits? value count true (c :: cs) = some r) :
    inRanges numberStarts c = true := by
  by_cases hc : c = '_'
  · subst hc
    cases h
  · rw [Numeral.readAnyDigits?] at h
    · obtain ⟨d, hd, -⟩ := Option.bind_eq_some_iff.mp h
      exact inRanges_of_digitValue? hd
    · exact hc

/-- A text that is read as a whole number starts like one. -/
theorem inRanges_of_readWhole? {text : String} {n : Int} {c : Char}
    {cs : List Char} (h : Numeral.readWhole? text = some n)
    (htext : text.toList = c :: cs) : inRanges numberStarts c = true := by
  by_cases hblank : isWhiteSpace c = true
  · exact inRanges_of_isWhiteSpace hblank
  · obtain ⟨ds, hds⟩ := exists_trimChars_cons (Bool.not_eq_true _ ▸ hblank) cs
    rw [Numeral.readWhole?, htext, hds] at h
    obtain ⟨⟨value, count⟩, hdigits, -⟩ := Option.bind_eq_some_iff.mp h
    split at hdigits
    · next heq =>
      rw [(List.cons.inj heq).1]
      decide
    · next heq =>
      rw [(List.cons.inj heq).1]
      decide
    · exact inRanges_of_readAnyDigits? hdigits

-- =========================================================== characters

/-- Clusters of symbols are characters of symbols without marks. -/
theorem isSymbolCluster_eq : isSymbolCluster = isA isSymbolChar := by
  funext c
  unfold isSymbolCluster isA isSymbolChar
  rfl

/-- Characters of symbols join nothing, and no number starts with one. -/
theorem isSymbolChar_spec {c : Char} (h : isSymbolChar c = true) :
    breakClass c = .other ∧ inRanges numberStarts c = false := by
  rcases Bool.or_eq_true_iff.mp h with h | h
  · have hascii : c.toNat < 0x80 := by
      simp only [isAsciiLetter, Bool.or_eq_true, Bool.and_eq_true,
        decide_eq_true_eq] at h
      rcases h with ⟨-, h⟩ | ⟨-, h⟩
      · exact Nat.lt_of_le_of_lt h (by decide)
      · exact Nat.lt_of_le_of_lt h (by decide)
    exact forall_ascii (p := fun c => isAsciiLetter c = true →
      breakClass c = .other ∧ inRanges numberStarts c = false)
      (by decide +kernel) hascii h
  · have hextras : symbolExtras.all (fun c => breakClass c == .other
        && !inRanges numberStarts c) = true := by decide +kernel
    have hc := List.all_eq_true.mp hextras c (List.contains_iff_mem.mp h)
    simpa using hc

/-- What a number starts with attaches to nothing before it. -/
theorem joins_other {c : Char} (h : inRanges numberStarts c = true) :
    (OpenCluster.start .other).joins (breakClass c) = false := by
  have hextend : inRanges extendRanges c = false :=
    not_inRanges_of_isApart (by decide +kernel) h
  have hspacing : inRanges spacingMarkRanges c = false :=
    not_inRanges_of_isApart (by decide +kernel) h
  have hjoiner : c.toNat ≠ 0x200D := by
    have hrange : inRanges [(0x200D, 0x200D)] c = false :=
      not_inRanges_of_isApart (by decide +kernel) h
    intro heq
    rw [← Bool.not_eq_true, inRanges_iff] at hrange
    exact hrange ⟨_, List.mem_singleton_self _, by omega⟩
  have hclass : breakClass c ≠ .extend ∧ breakClass c ≠ .joiner
      ∧ breakClass c ≠ .spacingMark := by
    unfold breakClass wideBreakClass
    simp only [if_neg hjoiner, hextend, hspacing, Bool.false_eq_true,
      if_false]
    refine ⟨?_, ?_, ?_⟩
    all_goals
      repeat' apply ite_ne
      all_goals exact BreakClass.noConfusion
  -- an ordinary character is joined by three classes only
  cases hk : breakClass c with
  | extend => exact absurd hk hclass.1
  | joiner => exact absurd hk hclass.2.1
  | spacingMark => exact absurd hk hclass.2.2
  | _ => rfl

-- ============================================================= clusters

/-- A character that nothing joins is a cluster. -/
theorem clustersOf_cons {c : Char} {cs : List Char}
    (h : ∀ d ∈ cs.head?,
      (OpenCluster.start (breakClass c)).joins (breakClass d) = false) :
    clustersOf (c :: cs) = alone c :: clustersOf cs := by
  cases cs with
  | nil => rfl
  | cons d ds =>
      rw [clustersOf, clustersFrom, h d rfl]
      rfl

/-- The characters of a symbol are clusters of their own, also with a
number behind them. -/
theorem clustersOf_append_number {xs rest : List Char}
    (hxs : ∀ c ∈ xs, isSymbolChar c = true)
    (hrest : ∀ d ∈ rest.head?, inRanges numberStarts d = true) :
    clustersOf (xs ++ rest) = xs.map alone ++ clustersOf rest := by
  induction xs with
  | nil => rfl
  | cons x xs ih =>
      have hx := (isSymbolChar_spec (hxs x (List.mem_cons_self ..))).1
      have hxs' := fun c hc => hxs c (List.mem_cons_of_mem _ hc)
      rw [List.cons_append, clustersOf_cons, ih hxs']
      · rfl
      · intro d hd
        rw [hx]
        cases xs with
        | nil => exact joins_other (hrest d hd)
        | cons y ys =>
            cases hd
            have hd' := hxs' d (List.mem_cons_self ..)
            rw [(isSymbolChar_spec hd').1]
            rfl

/-- The first cluster starts with the first character, whatever joins it. -/
theorem exists_clustersFrom (cs : List Char) :
    ∀ (cur : Cluster) (o : OpenCluster), ∃ marks rest,
      clustersFrom cur o cs = ⟨cur.first, marks⟩ :: rest := by
  induction cs with
  | nil => intro cur o; exact ⟨cur.rest, [], rfl⟩
  | cons c cs ih =>
      intro cur o
      rw [clustersFrom]
      split
      · exact ih (cur.push c) _
      · exact ⟨cur.rest, _, rfl⟩

/-- The clusters of a text that starts like a number do not start with
one of a symbol. -/
theorem stops_clustersOf {cs : List Char}
    (h : ∀ d ∈ cs.head?, inRanges numberStarts d = true) :
    Stops isSymbolCluster (clustersOf cs) := by
  cases cs with
  | nil => intro c hc; cases hc
  | cons d ds =>
      obtain ⟨marks, rest, hcut⟩ :=
        exists_clustersFrom ds ⟨d, []⟩ (.start (breakClass d))
      intro c hc
      rw [clustersOf, hcut] at hc
      cases hc
      rw [← Bool.not_eq_true, isSymbolCluster_eq]
      intro hsymbol
      obtain ⟨x, heq, hx⟩ := isA_iff.mp hsymbol
      cases heq
      have hd := h d rfl
      rw [(isSymbolChar_spec hx).2] at hd
      cases hd

-- ================================================================ terms

/-- The text behind a symbol stands for this exponent; nothing stands for
one. -/
def IsExponent (text : String) (n : Int) : Prop :=
  (text = "" ∧ n = 1) ∨ Numeral.readWhole? text = some n

/-- The term is a symbol with an exponent behind it. -/
def Spells (term symbol : String) (n : Int) : Prop :=
  ∃ exponent, term = symbol ++ exponent ∧ symbol ≠ ""
    ∧ (∀ c ∈ symbol.toList, isSymbolChar c = true) ∧ IsExponent exponent n

/-- An exponent starts like a number, if it is there. -/
theorem IsExponent.head_inRanges {text : String} {n : Int}
    (h : IsExponent text n) :
    ∀ d ∈ text.toList.head?, inRanges numberStarts d = true := by
  intro d hd
  rcases h with ⟨rfl, -⟩ | h
  · cases hd
  · obtain ⟨ds, htext⟩ := List.head?_eq_some_iff.mp hd
    exact inRanges_of_readWhole? h htext

/-- The clusters of a text make the text again. -/
@[simp] theorem textOf_clustersOf (cs : List Char) :
    textOf (clustersOf cs) = String.ofList cs := by
  rw [textOf, flatten_clustersOf]

/-- The symbol of a term are its first clusters that are letters of
symbols, and the exponent is what they leave. -/
theorem spells_iff {term symbol : String} {n : Int} :
    Spells term symbol n ↔ symbol ≠ ""
      ∧ textOf ((clusters term).takeWhile isSymbolCluster) = symbol
      ∧ IsExponent (textOf ((clusters term).dropWhile isSymbolCluster)) n := by
  constructor
  · rintro ⟨exponent, rfl, hne, hsymbol, hexponent⟩
    -- nothing that starts a number joins the letter before it
    have hhead := hexponent.head_inRanges
    have hstops := stops_clustersOf hhead
    have hletters : ∀ c ∈ symbol.toList.map alone,
        isSymbolCluster c = true := by
      rw [isSymbolCluster_eq]
      exact Token.forall_isA_map hsymbol
    have hclusters : clusters (symbol ++ exponent)
        = symbol.toList.map alone ++ clustersOf exponent.toList := by
      rw [clusters, String.toList_append,
        clustersOf_append_number hsymbol hhead]
    refine ⟨hne, ?_, ?_⟩
    · rw [hclusters, takeWhile_append_of_stops hletters hstops, textOf_alone,
        String.ofList_toList]
    · rw [hclusters, dropWhile_append_of_stops hletters hstops,
        textOf_clustersOf, String.ofList_toList]
      exact hexponent
  · rintro ⟨hne, hsymbol, hexponent⟩
    -- the clusters taken for the symbol are single characters
    obtain ⟨xs, rest, hcut, hxs, hstops⟩ :=
      exists_run isSymbolChar (clusters term)
    have hletters := Token.forall_isA_map hxs
    rw [isSymbolCluster_eq, hcut] at hsymbol hexponent
    rw [takeWhile_append_of_stops hletters hstops, textOf_alone] at hsymbol
    rw [dropWhile_append_of_stops hletters hstops] at hexponent
    subst hsymbol
    refine ⟨textOf rest, ?_, hne, ?_, hexponent⟩
    · apply String.toList_inj.mp
      rw [← flatten_clusters, hcut, List.flatMap_append, flatMap_alone,
        String.toList_append, String.toList_ofList, textOf,
        String.toList_ofList]
    · rwa [String.toList_ofList]

/-- What is read as an exponent. -/
theorem readExponent_eq_ok_iff {term : String} {cs : List Cluster}
    {n : Int} :
    readExponent term cs = .ok n ↔ IsExponent (textOf cs) n := by
  unfold readExponent IsExponent
  cases cs with
  | nil =>
      have hnone : Numeral.readWhole? "" = none := by decide
      simp [hnone, eq_comm, textOf]
  | cons c cs =>
      have hne : textOf (c :: cs) ≠ "" := by
        intro heq
        have hnil := congrArg String.toList heq
        rw [textOf, String.toList_ofList] at hnil
        cases hnil
      simp only [List.isEmpty_cons, Bool.false_eq_true, if_false, hne,
        false_and, false_or]
      cases Numeral.readWhole? (textOf (c :: cs)) with
      | none => simp
      | some k => simp

/-- What is read of a term. -/
theorem readParts_eq_ok_iff {term symbol : String} {scale : Scale}
    {n : Int} (htrim : trim term = term) :
    readParts term = .ok (symbol, scale, n)
      ↔ Spells term symbol n ∧ lookup term symbol = .ok scale
        ∧ ((scale.shift != 0.0) = true → n = 1) := by
  rw [spells_iff, ← @readExponent_eq_ok_iff term]
  unfold readParts
  rw [htrim]
  dsimp only
  generalize textOf ((clusters term).takeWhile isSymbolCluster) = found
  by_cases hempty : found = ""
  · rw [if_pos hempty]
    constructor
    · intro h; cases h
    · rintro ⟨⟨hne, rfl, -⟩, -⟩
      exact absurd hempty hne
  · rw [if_neg hempty]
    constructor
    · intro h
      obtain ⟨_, hlookup, h⟩ := bind_eq_ok.mp h
      obtain ⟨_, hexponent, h⟩ := bind_eq_ok.mp h
      split at h
      · cases h
      · next hpower =>
        cases h
        refine ⟨⟨hempty, rfl, hexponent⟩, hlookup, fun hshift => ?_⟩
        simpa [hshift] using hpower
    · rintro ⟨⟨-, rfl, hexponent⟩, hlookup, hpower⟩
      refine bind_eq_ok.mpr ⟨scale, hlookup, bind_eq_ok.mpr
        ⟨n, hexponent, ?_⟩⟩
      rw [if_neg]
      · rfl
      · simpa using hpower

-- =============================================================== scales

/-- Multiples of a unit have no shift. -/
theorem shift_of_lookupMultiple {term symbol : String} {scale : Scale} :
    ∀ {table : List (String × Float)},
      lookupMultiple term symbol table = .ok scale → scale.shift = 0.0 := by
  intro table
  induction table with
  | nil => intro h; cases h
  | cons multiple table ih =>
      intro h
      rw [lookupMultiple] at h
      split at h
      · exact ih h
      · split at h
        · cases h; rfl
        · split at h
          · cases h
          · exact ih h

/-- Of all symbols only that of the shifted scale has a shift. -/
theorem shift_ne_zero_iff {term symbol : String} {scale : Scale}
    (h : lookup term symbol = .ok scale) :
    (scale.shift != 0.0) = true ↔ symbol = celsius := by
  have hzero : ((0.0 : Float) != 0.0) = false := by decide +kernel
  have hshift : (celsiusShift != 0.0) = true := by decide +kernel
  unfold lookup at h
  by_cases hcelsius : symbol = celsius
  · rw [if_pos hcelsius] at h
    cases h
    exact ⟨fun _ => hcelsius, fun _ => hshift⟩
  · rw [if_neg hcelsius] at h
    have hnone : scale.shift = 0.0 := by
      split at h
      · cases h; rfl
      · split at h
        · cases h; rfl
        · exact shift_of_lookupMultiple h
    rw [hnone, hzero]
    exact ⟨fun heq => absurd heq Bool.false_ne_true,
      fun heq => absurd heq hcelsius⟩

/-- The term stands for a power of a scale. The shifted scale has no
powers but the first. -/
def Means (term : String) (power : Scale × Int) : Prop :=
  ∃ symbol, Spells term symbol power.2 ∧ lookup term symbol = .ok power.1
    ∧ (symbol = celsius → power.2 = 1)

/-- The term is one of the shifted scale, whatever its exponent. -/
def IsCelsius (term : String) : Prop := ∃ n, Spells term celsius n

/-- A term has one symbol. -/
theorem Spells.symbol_eq {term symbol other : String} {n k : Int}
    (h : Spells term symbol n) (h' : Spells term other k) :
    symbol = other := by
  rw [← (spells_iff.mp h).2.1, ← (spells_iff.mp h').2.1]

/-- Terms of the shifted scale are those with a shift. -/
theorem Means.isCelsius_iff {term : String} {power : Scale × Int}
    (h : Means term power) :
    IsCelsius term ↔ (power.1.shift != 0.0) = true := by
  obtain ⟨symbol, hspells, hlookup, -⟩ := h
  rw [shift_ne_zero_iff hlookup]
  constructor
  · rintro ⟨k, hk⟩
    exact hspells.symbol_eq hk
  · rintro rfl
    exact ⟨power.2, hspells⟩

/-- What a term stands for is what is read of it. -/
theorem means_iff {term : String} (htrim : trim term = term)
    {power : Scale × Int} :
    Means term power
      ↔ ∃ symbol, readParts term = .ok (symbol, power.1, power.2) := by
  refine exists_congr fun symbol => ?_
  rw [readParts_eq_ok_iff htrim]
  refine and_congr_right fun _ => and_congr_right fun hlookup => ?_
  rw [shift_ne_zero_iff hlookup]

theorem Spells.exponent_eq {term symbol other : String} {n k : Int}
    (h : Spells term symbol n) (h' : Spells term other k) : n = k := by
  have hn := (@readExponent_eq_ok_iff term _ _).mpr (spells_iff.mp h).2.2
  have hk := (@readExponent_eq_ok_iff term _ _).mpr (spells_iff.mp h').2.2
  rw [hn] at hk
  exact Except.ok.inj hk

/-- A term stands for one power only. -/
theorem Means.rightUnique : Relator.RightUnique Means := by
  rintro term ⟨scale, n⟩ ⟨scale', k⟩ ⟨symbol, hspells, hlookup, -⟩
    ⟨symbol', hspells', hlookup', -⟩
  have hn : n = k := hspells.exponent_eq hspells'
  rw [hspells.symbol_eq hspells'] at hlookup
  have hscale := Except.ok.inj (hlookup.symm.trans hlookup')
  exact Prod.ext hscale hn

/-- A term that stands for a power is read as that power, as far as the
factor can be computed, and any other is refused. -/
theorem readTerm_cases {term : String} (htrim : trim term = term) :
    (∃ power, Means term power
      ∧ readTerm term = (power.1.pow power.2).mapError Error.arithmetic)
    ∨ ((∀ power, ¬ Means term power)
      ∧ ∃ e, readTerm term = .error (.unit e)) := by
  unfold readTerm
  cases hread : readParts term with
  | ok parts =>
      obtain ⟨symbol, scale, n⟩ := parts
      refine .inl ⟨(scale, n), (means_iff htrim).mpr ⟨symbol, hread⟩, ?_⟩
      rw [Except.mapError, ok_bind]
  | error e =>
      refine .inr ⟨fun power hmeans => ?_, e, rfl⟩
      obtain ⟨symbol, hread'⟩ := (means_iff htrim).mp hmeans
      rw [hread] at hread'
      cases hread'

/-- A power has the dimension to that power and keeps the shift. -/
theorem pow_cases (scale : Scale) (n : Int) :
    (∃ f, scale.pow n = .error f)
      ∨ ∃ s, scale.pow n = .ok s ∧ s.dimension = scale.dimension ^ n
        ∧ s.shift = scale.shift := by
  unfold Scale.pow
  cases Double.powWhole scale.factor n with
  | error f => exact .inl ⟨f, rfl⟩
  | ok factor => exact .inr ⟨_, rfl, rfl, rfl⟩

end Metrology.Scale
