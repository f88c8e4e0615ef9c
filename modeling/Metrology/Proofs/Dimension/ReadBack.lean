/-
What is shown of a dimension can be read. Without its bars and with the
exponents lowered to the line, the text of a dimension is a block whose
scale is the dimension itself, in base units and without a shift, as long
as the exponents fit into a double. And whatever their size, no two
dimensions have the same text (`readBlock_text`).

The text is a row of terms, and nothing in a term is a point, a slash, a
bar or a blank, so the reader finds the terms again. In a term the letters
are the symbol and the rest is the exponent. Every symbol of the catalogue
stands for its dimension with the factor one, kilograms in particular, and
one to any power is one.
-/
import Metrology.Proofs.Dimension.Composition
import Metrology.Proofs.Numeral.Whole
import Metrology.Proofs.Sequence
import Metrology.Scale.Read

namespace Metrology.Dimension

open Metrology.Text
open Metrology.Numeral (wholeChars isWholeChar raised)
open Metrology.Scale (splitOn sideTerms blockTerms isSymbolCluster)

-- ====================================================== the plain form

/-- The digit or minus sign that a raised one stands for. -/
def lowered : Char → Char
  | '⁰' => '0'
  | '¹' => '1'
  | '²' => '2'
  | '³' => '3'
  | '⁴' => '4'
  | '⁵' => '5'
  | '⁶' => '6'
  | '⁷' => '7'
  | '⁸' => '8'
  | '⁹' => '9'
  | '⁻' => '-'
  | c => c

/-- The inside of a text in bars, and other texts as they are. -/
def withoutBars (cs : List Char) : List Char :=
  if cs.head? = some '|' ∧ cs.tail.getLast? = some '|' then cs.tail.dropLast
  else cs

/-- The text of a dimension as it is written in a block. -/
def plain (text : String) : String :=
  String.ofList ((withoutBars text.toList).map lowered)

/-- What stands behind a symbol for an exponent. -/
def exponentChars (n : Int) : List Char :=
  if n = 1 then [] else wholeChars n

/-- A term as it is written in a block. -/
def termChars (term : String × Int) : List Char :=
  term.1.toList ++ exponentChars term.2

-- ========================================================= characters

/-- A character that means nothing to the readers of blocks. -/
def isInert (c : Char) : Bool :=
  isPlain c && !isBlank c && lowered c == c
    && c != '.' && c != '/' && c != '|' && c != '\r'

/-- Such a character stands alone, and is neither trimmed nor lowered. -/
theorem isInert_spec {c : Char} (h : isInert c = true) :
    isPlain c = true ∧ isBlank c = false ∧ lowered c = c := by
  simp only [isInert, Bool.and_eq_true, Bool.not_eq_true', beq_iff_eq] at h
  obtain ⟨⟨⟨⟨⟨⟨hplain, hblank⟩, hlowered⟩, -⟩, -⟩, -⟩, -⟩ := h
  exact ⟨hplain, hblank, hlowered⟩

/-- Any other is not among them. -/
theorem not_mem_of_isInert {x : Char} (hx : isInert x = false)
    {cs : List Char} (h : ∀ c ∈ cs, isInert c = true) : x ∉ cs := by
  intro hmem
  rw [h x hmem] at hx
  cases hx

/-- The symbols are rows of letters. -/
theorem symbol_spec : ∀ symbol ∈ catalogue.map Prod.fst,
    symbol.toList ≠ [] ∧ ∀ c ∈ symbol.toList,
      isInert c = true ∧ isSymbolCluster (alone c) = true := by
  have hsymbols : ∀ symbol ∈ catalogue.map Prod.fst, symbol.toList ≠ []
      ∧ (symbol.toList.all fun c =>
        isInert c && isSymbolCluster (alone c)) = true := by decide +kernel
  intro symbol hmem
  obtain ⟨hne, hall⟩ := hsymbols symbol hmem
  refine ⟨hne, fun c hc => ?_⟩
  rw [← Bool.and_eq_true]
  exact List.all_eq_true.mp hall c hc

/-- Exponents hold no letters, and lowering undoes raising. -/
theorem exponentChar_spec {n : Int} {c : Char} (h : c ∈ exponentChars n) :
    isInert c = true ∧ isSymbolCluster (alone c) = false
      ∧ lowered (raised c) = c := by
  have hwhole : isWholeChar c = true := by
    unfold exponentChars at h
    split at h
    · cases h
    · exact Numeral.isWholeChar_of_mem h
  exact forall_ascii (p := fun c => isWholeChar c = true →
    isInert c = true ∧ isSymbolCluster (alone c) = false
      ∧ lowered (raised c) = c) (by decide +kernel)
    (Numeral.ascii_of_isWholeChar hwhole) hwhole

/-- The term has a symbol of the catalogue. -/
abbrev Listed (term : String × Int) : Prop :=
  term.1 ∈ catalogue.map Prod.fst

/-- Terms are made of such characters. -/
theorem isInert_termChars {term : String × Int} (h : Listed term) :
    ∀ c ∈ termChars term, isInert c = true := by
  intro c hc
  rcases List.mem_append.mp hc with hc | hc
  · exact ((symbol_spec term.1 h).2 c hc).1
  · exact (exponentChar_spec hc).1

-- ======================================================== plain texts

/-- A term is shown with its exponent raised. -/
theorem toList_termText (symbol : String) (n : Int) :
    (termText symbol n).toList
      = symbol.toList ++ (exponentChars n).map raised := by
  unfold termText exponentChars
  split
  · rw [List.map_nil, List.append_nil]
  · rw [String.toList_append, Numeral.superscript, String.toList_ofList]

/-- Lowered, it is the term of a block. -/
theorem map_lowered_termText {term : String × Int} (h : Listed term) :
    (termText term.1 term.2).toList.map lowered = termChars term := by
  have hsymbol : term.1.toList.map lowered = term.1.toList := by
    refine (List.map_congr_left fun c hc => ?_).trans (List.map_id _)
    exact (isInert_spec ((symbol_spec term.1 h).2 c hc).1).2.2
  have hexponent : ((exponentChars term.2).map raised).map lowered
      = exponentChars term.2 := by
    rw [List.map_map]
    exact (List.map_congr_left fun c hc =>
      (exponentChar_spec hc).2.2).trans (List.map_id _)
  rw [toList_termText, List.map_append, hsymbol, hexponent, termChars]

/-- A change of single characters goes into the parts. -/
theorem map_intercalate (f : Char → Char) (sep : List Char)
    (ls : List (List Char)) :
    (sep.intercalate ls).map f
      = (sep.map f).intercalate (ls.map (List.map f)) := by
  induction ls with
  | nil => rfl
  | cons l ls ih =>
      cases ls with
      | nil => simp
      | cons l' ls =>
          rw [List.intercalate_cons_cons, List.map_append, List.map_append,
            ih, List.map_cons, List.map_cons, List.map_cons,
            List.intercalate_cons_cons]

/-- What is in no part and not between them is not in the whole. -/
theorem not_mem_intercalate {x : Char} {sep : List Char} (hsep : x ∉ sep)
    {ls : List (List Char)} (h : ∀ l ∈ ls, x ∉ l) :
    x ∉ sep.intercalate ls := by
  induction ls with
  | nil => exact List.not_mem_nil
  | cons l ls ih =>
      have hl := h l (List.mem_cons_self ..)
      have hls := ih fun l hl => h l (List.mem_cons_of_mem _ hl)
      cases ls with
      | nil => simpa using hl
      | cons l' ls =>
          rw [List.intercalate_cons_cons]
          simp only [List.mem_append, not_or]
          exact ⟨⟨hl, hsep⟩, hls⟩

/-- The characters of terms in a block. -/
def termsChars (terms : Terms) : List Char :=
  ['.'].intercalate (terms.map termChars)

/-- What means something to readers is in no term. -/
theorem not_mem_termChars {terms : Terms}
    (h : ∀ term ∈ terms, Listed term) {x : Char} (hx : isInert x = false) :
    ∀ l ∈ terms.map termChars, x ∉ l := by
  intro l hl
  obtain ⟨term, hterm, rfl⟩ := List.mem_map.mp hl
  exact not_mem_of_isInert hx (isInert_termChars (h term hterm))

/-- The terms as they are shown, without the bars. -/
def unbarred (terms : Terms) : String :=
  ".".intercalate (terms.map fun term => termText term.1 term.2)

/-- Bars stand around more than one term. -/
theorem termsText_eq (terms : Terms) :
    termsText terms
      = if 1 < terms.length then "|" ++ unbarred terms ++ "|"
        else unbarred terms := rfl

/-- Lowered, the terms are those of a block. -/
theorem map_lowered_unbarred {terms : Terms}
    (h : ∀ term ∈ terms, Listed term) :
    (unbarred terms).toList.map lowered = termsChars terms := by
  rw [unbarred, String.toList_intercalate, map_intercalate, List.map_map,
    List.map_map]
  refine congrArg (List.intercalate ['.']) (List.map_congr_left ?_)
  intro term hterm
  exact map_lowered_termText (h term hterm)

/-- Bars are taken off. -/
@[simp] theorem withoutBars_bars (cs : List Char) :
    withoutBars ('|' :: (cs ++ ['|'])) = cs := by
  simp [withoutBars]

/-- A text without bars is left as it is. -/
theorem withoutBars_of_not_mem {cs : List Char} (h : '|' ∉ cs) :
    withoutBars cs = cs := by
  refine if_neg fun hbars => h ?_
  exact List.mem_of_mem_head? hbars.1

/-- The plain form of what is shown is a row of terms. -/
theorem plain_termsText {terms : Terms} (h : ∀ term ∈ terms, Listed term) :
    plain (termsText terms) = String.ofList (termsChars terms) := by
  have hbar : '|' ∉ (unbarred terms).toList := by
    intro hmem
    have hmem := List.mem_map_of_mem (f := lowered) hmem
    rw [map_lowered_unbarred h] at hmem
    exact not_mem_intercalate (by decide)
      (not_mem_termChars h (by decide)) hmem
  rw [plain, termsText_eq]
  refine congrArg String.ofList ?_
  split
  · have hbars : ("|" ++ unbarred terms ++ "|").toList
        = '|' :: ((unbarred terms).toList ++ ['|']) := by
      rw [String.toList_append, String.toList_append]
      rfl
    rw [hbars, withoutBars_bars, map_lowered_unbarred h]
  · rw [withoutBars_of_not_mem hbar, map_lowered_unbarred h]

-- ======================================================== finding terms

/-- The split of the reader is that of lists. -/
theorem splitOn_eq (sep : Char) (cs : List Char) :
    splitOn sep cs = cs.splitOn sep := by
  induction cs with
  | nil => rfl
  | cons c cs ih =>
      rw [splitOn, List.splitOn_cons_eq_if_modifyHead, ih]
      by_cases hc : c = sep
      · simp [hc]
      · simp only [if_neg hc, beq_iff_eq]
        cases hparts : cs.splitOn sep with
        | nil => exact absurd hparts (List.splitOn_ne_nil _ _)
        | cons part parts => rfl

/-- The points are those between terms. -/
theorem splitOn_termsChars {terms : Terms}
    (h : ∀ term ∈ terms, Listed term) (hne : terms ≠ []) :
    splitOn '.' (termsChars terms) = terms.map termChars := by
  rw [splitOn_eq]
  exact List.splitOn_intercalate '.' (not_mem_termChars h (by decide))
    (by simpa using hne)

/-- A term as the reader of blocks finds it. -/
def found (term : String × Int) : Scale.Term :=
  ⟨String.ofList (termChars term), false⟩

/-- No blank is taken off a term. -/
theorem trim_termChars {term : String × Int} (h : Listed term) :
    trim (String.ofList (termChars term)) = String.ofList (termChars term) := by
  have hblank : ∀ c ∈ termChars term, isBlank c = false := by
    intro c hc
    exact (isInert_spec (isInert_termChars h c hc)).2.1
  rw [trim, String.toList_ofList, trimChars_eq_self hblank]

/-- A term is neither empty nor the number one, as it begins with a
letter. -/
theorem termChars_ne {term : String × Int} (h : Listed term) :
    String.ofList (termChars term) ≠ ""
      ∧ String.ofList (termChars term) ≠ "1" := by
  obtain ⟨hne, hletters⟩ := symbol_spec term.1 h
  obtain ⟨c, cs, hcs⟩ := List.exists_cons_of_ne_nil hne
  have hletter := (hletters c (hcs ▸ List.mem_cons_self ..)).2
  constructor
  · intro heq
    have hnil := congrArg String.toList heq
    rw [String.toList_ofList, termChars, hcs] at hnil
    cases hnil
  · intro heq
    have hone := congrArg String.toList heq
    rw [String.toList_ofList, termChars, hcs] at hone
    rw [(List.cons.inj hone).1] at hletter
    revert hletter
    decide

/-- The reader finds the terms, and drops none. -/
theorem sideTerms_termsChars {terms : Terms}
    (h : ∀ term ∈ terms, Listed term) (hne : terms ≠ []) :
    sideTerms false (termsChars terms) = terms.map found := by
  rw [sideTerms, splitOn_termsChars h hne, List.filterMap_map,
    ← List.filterMap_eq_map]
  refine List.filterMap_congr fun term hterm => ?_
  have hlisted := h term hterm
  obtain ⟨hempty, hone⟩ := termChars_ne hlisted
  simp only [Function.comp, trim_termChars hlisted, hempty, hone, found,
    decide_false, Bool.or_self, Bool.false_eq_true, if_false]

/-- And it finds them all on one side, for lack of a slash. -/
theorem blockTerms_termsChars {terms : Terms}
    (h : ∀ term ∈ terms, Listed term) (hne : terms ≠ []) :
    blockTerms (String.ofList (termsChars terms))
      = .ok (terms.map found) := by
  have hslash : '/' ∉ termsChars terms :=
    not_mem_intercalate (by decide) (not_mem_termChars h (by decide))
  have hfound : (terms.map found).isEmpty = false := by
    simpa using hne
  unfold blockTerms
  rw [String.toList_ofList, splitOn_eq, List.splitOn_eq_singleton hslash]
  simp only [sideTerms_termsChars h hne, hfound]
  rfl

-- ======================================================== reading terms

/-- The exponent is below the bound up to which exponents are read and
powers are taken. -/
def Fits (n : Int) : Prop := n.natAbs < Nat.pow 2 1023

/-- Such an exponent is short enough to be read. -/
theorem length_digits_le {n : Int} (h : Fits n) :
    (Numeral.digits n.natAbs).length ≤ Numeral.wholeDigitLimit := by
  have hbound : Nat.pow 2 1023 < 10 ^ 4300 := by decide +kernel
  exact Nat.toDigits_length 10 n.natAbs 4300 (by decide)
    (Nat.lt_trans h hbound)

/-- The symbols of the catalogue are units without factor or shift. -/
theorem lookup_listed (term : String) {symbol : String}
    (h : symbol ∈ catalogue.map Prod.fst) :
    Scale.lookup term symbol = .ok { dimension := ofSymbol symbol } := by
  simp only [catalogue, List.map_cons, List.map_nil, List.mem_cons,
    List.not_mem_nil, or_false] at h
  rcases h with rfl | rfl | rfl | rfl | rfl | rfl | rfl | rfl | rfl | rfl
    | rfl | rfl | rfl | rfl | rfl | rfl | rfl | rfl | rfl | rfl
  all_goals rfl

/-- It is read as it was written, the one that is left out included. -/
theorem readExponent_exponentChars (term : String) {n : Int} (h : Fits n) :
    Scale.readExponent term ((exponentChars n).map alone) = .ok n := by
  unfold exponentChars
  by_cases hn : n = 1
  · rw [if_pos hn, hn]
    rfl
  · have hne : ((wholeChars n).map alone).isEmpty = false := by
      simp [Numeral.wholeChars_ne_nil]
    rw [if_neg hn, Scale.readExponent, hne, textOf_alone,
      ← Numeral.writeWhole, Numeral.readWhole?_writeWhole (length_digits_le h)]
    rfl

/-- One to any such power is one. -/
theorem powWhole_one {n : Int} (h : Fits n) :
    Double.powWhole 1.0 n = .ok 1.0 := by
  have hlimit : ¬ Double.wholeLimit ≤ n.natAbs := by
    have hbound : Nat.pow 2 1023 < Double.wholeLimit := by decide +kernel
    exact Nat.not_le_of_lt (Nat.lt_trans h hbound)
  have hzero : ((1.0 : Float) == 0.0) = false := by decide +kernel
  have hone : ((1.0 : Float) == 1.0) = true := by decide +kernel
  have hfinite : (1.0 : Float).isInf = false := by decide +kernel
  rw [Double.powWhole, if_neg hlimit, hzero, Double.pow, Double.powUnchecked,
    hone, Bool.or_true, if_pos rfl, hfinite]
  rfl

/-- So a unit without a factor has powers without one. -/
theorem pow_unscaled (d : Dimension) {n : Int} (h : Fits n) :
    Scale.pow { dimension := d } n = .ok { dimension := d ^ n } := by
  simp only [Scale.pow, powWhole_one h, ok_bind]
  rfl

/-- The letters of a term are its symbol, and the rest is its
exponent. -/
theorem span_termChars {term : String × Int} (h : Listed term) :
    (termChars term).takeWhile (isSymbolCluster ∘ alone) = term.1.toList
      ∧ (termChars term).dropWhile (isSymbolCluster ∘ alone)
        = exponentChars term.2 := by
  have hletters : ∀ c ∈ term.1.toList,
      (isSymbolCluster ∘ alone) c = true :=
    fun c hc => ((symbol_spec term.1 h).2 c hc).2
  rw [termChars, List.takeWhile_append_of_pos hletters,
    List.dropWhile_append_of_pos hletters]
  cases hexponent : exponentChars term.2 with
  | nil => exact ⟨List.append_nil _, rfl⟩
  | cons c cs =>
      have hc : ¬ (isSymbolCluster ∘ alone) c = true := by
        have hmem : c ∈ exponentChars term.2 :=
          hexponent ▸ List.mem_cons_self ..
        simp [(exponentChar_spec hmem).2.1]
      rw [List.takeWhile_cons_of_neg hc, List.dropWhile_cons_of_neg hc]
      exact ⟨List.append_nil _, rfl⟩

/-- The characters of a term are its clusters. -/
theorem clusters_termChars {term : String × Int} (h : Listed term) :
    clusters (String.ofList (termChars term)) = (termChars term).map alone := by
  rw [clusters, String.toList_ofList]
  apply clustersOf_singles
  · intro c hc
    exact (isInert_spec (isInert_termChars h c hc)).1
  · exact not_mem_of_isInert (by decide) (isInert_termChars h)

/-- A term is read as its symbol's dimension to its exponent. -/
theorem readTerm_termChars {term : String × Int} (h : Listed term)
    (hfits : Fits term.2) :
    Scale.readTerm (String.ofList (termChars term))
      = .ok { dimension := ofSymbol term.1 ^ term.2 } := by
  obtain ⟨hletters, hrest⟩ := span_termChars h
  have hsymbol : textOf (((termChars term).map alone).takeWhile
      isSymbolCluster) = term.1 := by
    rw [List.takeWhile_map, hletters, textOf_alone, String.ofList_toList]
  have hne : term.1 ≠ "" := by
    intro hempty
    exact (symbol_spec term.1 h).1 (by rw [hempty]; rfl)
  have hshift : ((0.0 : Float) != 0.0) = false := by decide +kernel
  have hparts : Scale.readParts (String.ofList (termChars term))
      = .ok (term.1, { dimension := ofSymbol term.1 }, term.2) := by
    unfold Scale.readParts
    simp only [trim_termChars h, clusters_termChars h, hsymbol, if_neg hne,
      lookup_listed _ h, List.dropWhile_map, hrest, ok_bind,
      readExponent_exponentChars _ hfits, hshift]
    rfl
  simp only [Scale.readTerm, hparts, Except.mapError, ok_bind,
    pow_unscaled _ hfits]

-- ======================================================= reading blocks

/-- The terms multiply up, and nothing gets a factor or a shift. -/
theorem readTerms_found (block : String) (single : Bool) {terms : Terms}
    (h : ∀ term ∈ terms, Listed term) (hfits : ∀ term ∈ terms, Fits term.2) :
    ∀ d : Dimension, Scale.readTerms block single { dimension := d }
        (terms.map found) = .ok { dimension := d * total terms } := by
  have hshift : ((0.0 : Float) != 0.0) = false := by decide +kernel
  have hfactor : (1.0 : Float) * 1.0 = 1.0 := by decide +kernel
  induction terms with
  | nil =>
      intro d
      rw [total, mul_unitless]
      rfl
  | cons term terms ih =>
      intro d
      have hterm := readTerm_termChars (h term (List.mem_cons_self ..))
        (hfits term (List.mem_cons_self ..))
      have hcombine : Scale.combine { dimension := d }
          { dimension := ofSymbol term.1 ^ term.2 } false
          = .ok { dimension := d * ofSymbol term.1 ^ term.2 } := by
        simp only [Scale.combine, hshift, hfactor]
        rfl
      rw [List.map_cons, Scale.readTerms]
      simp only [found, hterm, ok_bind, hshift, hcombine, Except.mapError]
      refine (ih (fun t ht => h t (List.mem_cons_of_mem _ ht))
        (fun t ht => hfits t (List.mem_cons_of_mem _ ht)) _).trans ?_
      rw [mul_assoc]
      rfl

/-- Terms are read as their product. -/
theorem readBlock_termsChars {terms : Terms}
    (h : ∀ term ∈ terms, Listed term) (hfits : ∀ term ∈ terms, Fits term.2)
    (hne : terms ≠ []) :
    Scale.readBlock (String.ofList (termsChars terms))
      = .ok { dimension := total terms } := by
  have hread := readTerms_found (String.ofList (termsChars terms))
    ((terms.map found).length == 1) h hfits unitless
  rw [unitless_mul] at hread
  rw [Scale.readBlock, blockTerms_termsChars h hne]
  exact hread

-- ======================================================== telling apart

/-- Different exponents are written differently, the empty one included. -/
theorem exponentChars_injective {n k : Int}
    (h : exponentChars n = exponentChars k) : n = k := by
  unfold exponentChars at h
  split at h
  · split at h
    · omega
    · exact absurd h.symm (Numeral.wholeChars_ne_nil k)
  · split at h
    · exact absurd h (Numeral.wholeChars_ne_nil n)
    · exact Numeral.wholeChars_injective h

/-- And so are different terms, as their letters end where the exponent
begins. -/
theorem termChars_injective {t u : String × Int} (ht : Listed t)
    (hu : Listed u) (h : termChars t = termChars u) : t = u := by
  obtain ⟨hsymbol, hexponent⟩ := span_termChars ht
  obtain ⟨hsymbol', hexponent'⟩ := span_termChars hu
  rw [h] at hsymbol hexponent
  refine Prod.ext ?_ ?_
  · exact String.toList_inj.mp (hsymbol.symm.trans hsymbol')
  · exact exponentChars_injective (hexponent.symm.trans hexponent')

theorem map_termChars_injective {ts us : Terms}
    (ht : ∀ t ∈ ts, Listed t) (hu : ∀ u ∈ us, Listed u)
    (h : ts.map termChars = us.map termChars) : ts = us := by
  induction ts generalizing us with
  | nil => exact (List.map_eq_nil_iff.mp h.symm).symm
  | cons t ts ih =>
      cases us with
      | nil => cases h
      | cons u us =>
          obtain ⟨hhead, htail⟩ := List.cons.inj h
          have heq := termChars_injective (ht t (List.mem_cons_self ..))
            (hu u (List.mem_cons_self ..)) hhead
          rw [heq, ih (fun x hx => ht x (List.mem_cons_of_mem _ hx))
            (fun x hx => hu x (List.mem_cons_of_mem _ hx)) htail]

/-- Some terms make some text. -/
theorem termsChars_ne_nil {ts : Terms} (ht : ∀ t ∈ ts, Listed t)
    (hne : ts ≠ []) : termsChars ts ≠ [] := by
  intro hnil
  have hparts := splitOn_termsChars ht hne
  rw [hnil] at hparts
  have hmem : [] ∈ ts.map termChars := hparts ▸ List.mem_cons_self ..
  obtain ⟨t, hmem, hempty⟩ := List.mem_map.mp hmem
  exact (termChars_ne (ht t hmem)).1 (congrArg String.ofList hempty)

/-- Terms are found again, so different terms are written differently. -/
theorem termsChars_injective {ts us : Terms} (ht : ∀ t ∈ ts, Listed t)
    (hu : ∀ u ∈ us, Listed u) (h : termsChars ts = termsChars us) :
    ts = us := by
  -- the reader of an empty text finds one empty term, so no terms at all
  -- have to be told apart first
  by_cases hts : ts = []
  · subst hts
    by_contra hus
    exact termsChars_ne_nil hu (Ne.symm hus) h.symm
  by_cases hus : us = []
  · subst hus
    exact absurd h (termsChars_ne_nil ht hts)
  apply map_termChars_injective ht hu
  rw [← splitOn_termsChars ht hts, h, splitOn_termsChars hu hus]

-- ============================================================ dimensions

/-- No exponent is larger than all sizes together. -/
theorem natAbs_le_size {terms : Terms} {term : String × Int}
    (h : term ∈ terms) : term.2.natAbs ≤ size terms := by
  induction terms with
  | nil => cases h
  | cons t terms ih =>
      obtain ⟨symbol, n⟩ := t
      rw [size]
      rcases List.mem_cons.mp h with rfl | h
      · omega
      · have hle := ih h
        omega

/-- What a dimension is shown as. -/
theorem exists_terms (d : Dimension) : ∃ terms, d.text = .ok (termsText terms)
    ∧ (∀ term ∈ terms, Listed term) ∧ total terms = d
    ∧ ∀ term ∈ terms, term.2.natAbs ≤ d.norm := by
  obtain ⟨out, hout, hproper, htotal, hsize⟩ :=
    composeFrom_spec [] d proper_nil
  rw [total, unitless_mul] at htotal
  rw [size, Nat.zero_add] at hsize
  refine ⟨out.filter _, ?_, (hproper.filter _).listed,
    (total_filter out).trans htotal, fun term hterm => ?_⟩
  · rw [text, compose, hout]
    rfl
  · exact Nat.le_trans (natAbs_le_size hterm)
      (Nat.le_trans (size_filter_le out) hsize)

/-- The text of a dimension, in its plain form, is a block that reads as
that dimension, without factor or shift, if the norm is so small that
every exponent has a double. No other dimension has that text. -/
theorem readBlock_text (d : Dimension) :
    (d ≠ unitless → d.norm < Nat.pow 2 1023 →
      ∃ text, d.text = .ok text
        ∧ Scale.readBlock (plain text)
          = .ok { dimension := d, factor := 1.0, shift := 0.0 })
    ∧ ∀ e : Dimension, e.text = d.text → e = d := by
  obtain ⟨terms, htext, hlisted, htotal, hsize⟩ := exists_terms d
  constructor
  · intro hd hnorm
    refine ⟨termsText terms, htext, ?_⟩
    have hne : terms ≠ [] := by
      rintro rfl
      exact hd htotal.symm
    have hfits : ∀ term ∈ terms, Fits term.2 :=
      fun term hterm => Nat.lt_of_le_of_lt (hsize term hterm) hnorm
    rw [plain_termsText hlisted, readBlock_termsChars hlisted hfits hne,
      htotal]
  · intro e he
    obtain ⟨others, htext', hlisted', htotal', -⟩ := exists_terms e
    rw [htext, htext'] at he
    have hplain := congrArg plain (Except.ok.inj he)
    rw [plain_termsText hlisted, plain_termsText hlisted'] at hplain
    have hsame := termsChars_injective hlisted' hlisted
      (String.ofList_inj.mp hplain)
    rw [← htotal, ← htotal', hsame]

/-- A dimension that is shown as "|kg⁻².m⁵.A¹².cd|". -/
def remote : Dimension :=
  { length := 5, mass := -2, current := 12, luminosity := 1 }

theorem readBlock_text_remote :
    remote ≠ unitless ∧ remote.norm < Nat.pow 2 1023
      ∧ (∃ text, remote.text = .ok text ∧ Scale.readBlock (plain text)
        = .ok { dimension := remote, factor := 1.0, shift := 0.0 }) := by
  have hd : remote ≠ unitless := by decide
  have hnorm : remote.norm < Nat.pow 2 1023 := by decide +kernel
  exact ⟨hd, hnorm, (readBlock_text remote).1 hd hnorm⟩

end Metrology.Dimension
