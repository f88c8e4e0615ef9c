/-
Every cluster of a text is accounted for. A text that can be scanned is a
row of stretches without gap or overlap: blanks, comments, and the spans
of its tokens, one each and in order, so that a token's position is where
its span starts. A span spells its token: it is the token's text, the
text between bars, a text between quotes with its escapes resolved, or
digits with a unit symbol, apostrophes apart. Words, numbers and
operators are as long as they can be.

The converse holds as well. A row of stretches that fit, each before the
ones behind it, is scanned into their tokens, so the stretches are the
grammar of tokens. Scanning one lexeme is where both meet: whatever the
scanner takes off, some stretch fits there (`exists_stretch`), and a
stretch that fits is what it takes off (`Stretch.Fits.takesOff`).
-/
import Metrology.Proofs.Token.Spelling

namespace Metrology.Token

open Text

-- =========================================================== stretches

/-- The row of clusters spells the lexeme. -/
def Spells (span : List Cluster) : Lexeme → Prop
  | .number text decorator => ∃ raw, span = raw.map alone
      ∧ IsNumber raw text.toList decorator.toList
  | .unitBlock text scale => ∃ inside, span = bar :: (inside ++ [bar])
      ∧ bar ∉ inside ∧ text = textOf inside
      ∧ Scale.readBlock text = .ok scale
  | .template text => ∃ inside,
      span = alone '"' :: (inside ++ [alone '"']) ∧ Escaped inside
      ∧ text = String.ofList (unescape (textOf inside).toList)
  | .name text => span = text.toList.map alone ∧ IsWord text.toList
      ∧ text ∉ Operator.words.map Prod.fst ∧ text ∉ keywords
  | .keyword text => span = text.toList.map alone ∧ text ∈ keywords
  | .operator op => span = op.symbol.toList.map alone
      ∧ (op.symbol, op) ∈ Operator.spellings
  | l => span = l.text.toList.map alone

/-- A part of a text: a blank, a comment by what stands behind its two
backslashes, or a lexeme with its span. -/
inductive Stretch where
  | blank (c : Cluster)
  | comment (text : List Cluster)
  | lexeme (l : Lexeme) (span : List Cluster)

namespace Stretch

/-- Its clusters. -/
def span : Stretch → List Cluster
  | .blank c => [c]
  | .comment text => alone '\\' :: alone '\\' :: text
  | .lexeme _ span => span

/-- Its lexeme, if it has one. -/
def lexeme? : Stretch → Option Lexeme
  | .lexeme l _ => some l
  | _ => none

/-- The stretch may stand before these clusters: a comment goes up to a
line feed or the end, and no lexeme stops short. -/
def Fits (rest : List Cluster) : Stretch → Prop
  | .blank c => isGap c = true
  | .comment text => lineFeed ∉ text
      ∧ (rest = [] ∨ rest.head? = some lineFeed)
  | .lexeme l span => Spells span l ∧ IsLongest span rest

end Stretch

/-- The clusters of stretches in a row. -/
def spans (row : List Stretch) : List Cluster := row.flatMap Stretch.span

/-- Each stretch fits before those behind it. -/
def FitTogether : List Stretch → Prop
  | [] => True
  | s :: row => s.Fits (spans row) ∧ FitTogether row

/-- The tokens of stretches, each where its span starts. -/
def tokensFrom (position : Nat) : List Stretch → List Token
  | [] => []
  | s :: row =>
      withFound s.lexeme? position (tokensFrom (position + s.span.length) row)

-- ============================================================== blocks

variable {x : Char} {c : Cluster} {cs inside rest : List Cluster}

/-- A unit goes up to the next bar. -/
theorem splitUnit?_eq_some_iff :
    splitUnit? cs = some (inside, rest)
      ↔ cs = inside ++ bar :: rest ∧ bar ∉ inside := by
  constructor
  · intro h
    refine ⟨eq_of_splitUnit? h, fun hbar => ?_⟩
    unfold splitUnit? at h
    split at h
    · cases h
    · cases h
      have hnot := List.mem_takeWhile_imp hbar
      revert hnot
      decide
  · rintro ⟨rfl, hbar⟩
    have hinside : ∀ d ∈ inside, (!isA (· == '|') d) = true := by
      intro d hd
      rw [Bool.not_eq_true', ← Bool.not_eq_true]
      intro hp
      obtain ⟨y, rfl, hy⟩ := isA_iff.mp hp
      rw [eq_of_beq hy] at hd
      exact hbar hd
    have hstop : Stops (!isA (· == '|') ·) (bar :: rest) := by
      intro d hd
      cases hd
      rfl
    unfold splitUnit?
    rw [dropWhile_append_of_stops hinside hstop,
      takeWhile_append_of_stops hinside hstop]

/-- A string goes up to the next quote that is not escaped. -/
theorem escaped_of_splitString? : ∀ {cs inside rest : List Cluster},
    splitString? cs = some (inside, rest) →
    cs = inside ++ alone '"' :: rest ∧ Escaped inside := by
  intro cs
  fun_induction splitString? cs with
  | case1 => intro _ _ h; cases h
  | case2 c cs hquote =>
      intro _ _ h
      cases h
      rw [isChar_iff.mp hquote]
      exact ⟨rfl, .nil⟩
  | case3 => intro _ _ h; cases h
  | case4 c hquote hslash d cs ih =>
      intro _ _ h
      obtain ⟨⟨inside, rest⟩, hsplit, heq⟩ := Option.map_eq_some_iff.mp h
      cases heq
      obtain ⟨rfl, hinside⟩ := ih hsplit
      rw [isChar_iff.mp hslash]
      exact ⟨rfl, .pair hinside⟩
  | case5 c cs hquote hslash ih =>
      intro _ _ h
      obtain ⟨⟨inside, rest⟩, hsplit, heq⟩ := Option.map_eq_some_iff.mp h
      cases heq
      obtain ⟨rfl, hinside⟩ := ih hsplit
      exact ⟨rfl, .plain (isChar_iff.not.mp hquote)
        (isChar_iff.not.mp hslash) hinside⟩

theorem splitString?_of_escaped (h : Escaped inside) (rest : List Cluster) :
    splitString? (inside ++ alone '"' :: rest) = some (inside, rest) := by
  induction h with
  | nil => rw [List.nil_append, splitString?.eq_def]; rfl
  | plain hquote hslash _ ih =>
      refine splitString?_plain ?_ ?_ ih
      · rwa [← Bool.not_eq_true, isChar_iff]
      · rwa [← Bool.not_eq_true, isChar_iff]
  | pair _ ih => exact splitString?_marked ih

-- ============================================================= numbers

/-- The class of clusters that a decorator goes on in. -/
theorem isDecoratorCluster_eq :
    (fun d => Scale.isSymbolCluster d || isA isAsciiDigit d)
      = isA isDecoratorChar := by
  funext d
  unfold Scale.isSymbolCluster isA
  cases d.char? <;> rfl

/-- A decorator is split off whole. -/
theorem splitDecorator_of_isDecorator {decorator : List Char}
    (h : IsDecorator decorator)
    (hrest : Stops (isA (continues decorator)) rest) :
    splitDecorator (decorator.map alone ++ rest)
      = (decorator.map alone, rest) := by
  unfold splitDecorator
  cases decorator with
  | nil =>
      cases rest with
      | nil => rfl
      | cons c rest =>
          have hc : Scale.isSymbolCluster c = false := by
            rw [← Bool.not_eq_true]
            intro hsymbol
            obtain ⟨x, rfl, hx⟩ := isA_iff.mp hsymbol
            have hsymbol : isSymbolChar x = true := hx
            have hstop : (isSymbolChar x || isGroupedChar x) = false :=
              hrest _ rfl
            rw [hsymbol] at hstop
            cases hstop
          simp [hc]
  | cons e es =>
      have he : Scale.isSymbolCluster (alone e) = true := h.starts e rfl
      have hrest : Stops (isA isDecoratorChar) rest := hrest
      rw [List.map_cons, List.cons_append]
      simp only [if_pos he, isDecoratorCluster_eq]
      rw [← List.cons_append, ← List.map_cons,
        takeWhile_append_of_stops (forall_isA_map h.all) hrest,
        dropWhile_append_of_stops (forall_isA_map h.all) hrest]

/-- Clusters of a class are found by their characters. -/
theorem filter_map_alone (p : Char → Bool) (xs : List Char) :
    (xs.map alone).filter (isA p) = (xs.filter p).map alone := by
  rw [List.filter_map]
  rfl

theorem scanNumber_of_isNumber {raw text decorator : List Char}
    (h : IsNumber raw text decorator)
    (hrest : Stops (isA (continues decorator)) rest) :
    scanNumber (raw.map alone ++ rest)
      = (.number (String.ofList text) (String.ofList decorator), rest) := by
  obtain ⟨x, xs, rfl, hx, hxs, rfl, hdecorator⟩ := isNumber_iff.mp h
  have hgrouped : ∀ c ∈ x :: xs, isGroupedChar c = true :=
    List.forall_mem_cons.mpr ⟨isGroupedChar_of_isNumberChar hx, hxs⟩
  have hstop : Stops (isA isGroupedChar) (decorator.map alone ++ rest) := by
    intro c hc
    rw [← Bool.not_eq_true]
    intro hp
    obtain ⟨y, rfl, hy⟩ := isA_iff.mp hp
    cases decorator with
    | nil =>
        have hnot : (isSymbolChar y || isGroupedChar y) = false :=
          hrest _ hc
        rw [hy, Bool.or_true] at hnot
        cases hnot
    | cons e es =>
        have heq : alone e = alone y := Option.some.inj hc
        cases heq
        exact hdecorator.head_not_grouped hy
  unfold scanNumber
  rw [List.map_append, List.append_assoc,
    takeWhile_append_of_stops (forall_isA_map hgrouped) hstop,
    dropWhile_append_of_stops (forall_isA_map hgrouped) hstop,
    splitDecorator_of_isDecorator hdecorator hrest]
  simp only [filter_map_alone, textOf_alone, List.filter_cons_of_pos hx]

/-- Where a digit or a point stands, a number does. -/
theorem exists_number (hx : isNumberChar x = true) (cs : List Cluster) :
    ∃ raw text decorator rest, alone x :: cs = raw.map alone ++ rest
      ∧ IsNumber raw text decorator
      ∧ Stops (isA (continues decorator)) rest := by
  obtain ⟨xs, behind, rfl, hxs, hgrouped⟩ := exists_run isGroupedChar cs
  have hundecorated (hstop : Stops (isA isSymbolChar) behind) :
      Stops (isA (continues [])) behind := by
    intro c hc
    rw [← Bool.not_eq_true]
    intro hp
    obtain ⟨y, rfl, hy⟩ := isA_iff.mp hp
    rcases Bool.or_eq_true_iff.mp hy with hy | hy
    · exact Bool.false_ne_true ((hstop _ hc).symm.trans hy)
    · exact Bool.false_ne_true ((hgrouped _ hc).symm.trans hy)
  by_cases hsymbol : Stops (isA isSymbolChar) behind
  · have hnumber : IsNumber (x :: xs ++ []) _ [] :=
      isNumber_iff.mpr ⟨x, xs, rfl, hx, hxs, rfl, ⟨nofun, nofun⟩⟩
    exact ⟨_, _, _, behind, by simp, hnumber, hundecorated hsymbol⟩
  · -- a unit symbol stands behind the digits
    obtain ⟨e, behind, rfl, he⟩ := exists_of_not_stops hsymbol
    obtain ⟨es, rest, rfl, hes, hrest⟩ := exists_run isDecoratorChar behind
    have hdecorator : IsDecorator (e :: es) := by
      refine ⟨by simpa using he, fun d hd => ?_⟩
      rcases List.mem_cons.mp hd with rfl | hd
      · simp [isDecoratorChar, he]
      · exact hes d hd
    have hnumber : IsNumber (x :: xs ++ e :: es) _ (e :: es) :=
      isNumber_iff.mpr ⟨x, xs, rfl, hx, hxs, rfl, hdecorator⟩
    exact ⟨_, _, _, rest, by simp, hnumber, hrest⟩

-- ======================================================== taken off

/-- The scanner takes the row off, wherever it stands, and this is what it
finds. -/
def TakesOff (span rest : List Cluster) (found : Option Lexeme) : Prop :=
  ∃ c cs, span ++ rest = c :: cs
    ∧ ∀ position, scanLexeme position c cs = .ok (found, rest)

/-- A blank is taken off. -/
theorem takesOff_blank (h : isGap c = true) : TakesOff [c] rest none := by
  refine ⟨c, rest, rfl, fun position => ?_⟩
  rcases Bool.or_eq_true_iff.mp h with hgap | hpair
  · obtain ⟨x, rfl, hx⟩ := isA_iff.mp hgap
    simp only [isGapChar, Bool.or_eq_true, beq_iff_eq] at hx
    rcases hx with ((rfl | rfl) | rfl) | rfl <;> rfl
  · rw [eq_of_beq hpair]
    rfl

theorem takesOff_punctuation {l : Lexeme} (h : punctuation? x = some l) :
    TakesOff [alone x] rest (some l) := by
  refine ⟨alone x, rest, rfl, fun position => ?_⟩
  simp only [scanLexeme, alone, Cluster.char?, h]

theorem takesOff_unitBlock {scale : Scale} (hbar : bar ∉ inside)
    (hread : Scale.readBlock (textOf inside) = .ok scale) :
    TakesOff (bar :: (inside ++ [bar])) rest
      (some (.unitBlock (textOf inside) scale)) := by
  refine ⟨bar, inside ++ bar :: rest, by simp, fun position => ?_⟩
  have hsplit : splitUnit? (inside ++ bar :: rest) = some (inside, rest) :=
    splitUnit?_eq_some_iff.mpr ⟨rfl, hbar⟩
  have hchar : bar.char? = some '|' := rfl
  have hplain : punctuation? '|' = none := rfl
  simp only [scanLexeme, hchar, hplain, if_true, hsplit, hread]
  rfl

theorem takesOff_template (h : Escaped inside) :
    TakesOff (alone '"' :: (inside ++ [alone '"'])) rest
      (some (.template (String.ofList (unescape (textOf inside).toList)))) := by
  refine ⟨alone '"', inside ++ alone '"' :: rest, by simp,
    fun position => ?_⟩
  have hchar : (alone '"').char? = some '"' := rfl
  have hplain : punctuation? '"' = none := rfl
  have hbar : '"' ≠ '|' := by decide
  simp only [scanLexeme, hchar, hplain, if_neg hbar, if_true,
    splitString?_of_escaped h rest]

theorem takesOff_single {op : Operator}
    (h : Operator.single? x = some op) :
    TakesOff [alone x] rest (some (.operator op)) := by
  have hx : (Operator.single? x).isSome = true := by rw [h]; rfl
  obtain ⟨-, -, hpunctuation, hbar, hquote⟩ := sign_spec (.inl hx)
  refine ⟨alone x, rest, rfl, fun position => ?_⟩
  simp only [scanLexeme, alone, Cluster.char?, hpunctuation, if_neg hbar,
    if_neg hquote, lengthened?_of_single? hx, h]

/-- A sign that has a longer form is taken off without it where no equals
sign follows. -/
theorem takesOff_short {short long : Operator}
    (h : Operator.lengthened? x = some (short, long))
    (hrest : Stops (isA (· == '=')) rest) :
    TakesOff [alone x] rest (some (.operator short)) := by
  have hx : (Operator.lengthened? x).isSome = true := by rw [h]; rfl
  obtain ⟨-, -, hpunctuation, hbar, hquote⟩ := sign_spec (.inr hx)
  refine ⟨alone x, rest, rfl, fun position => ?_⟩
  simp only [scanLexeme, alone, Cluster.char?, hpunctuation, if_neg hbar,
    if_neg hquote, h]
  cases rest with
  | nil => rfl
  | cons d rest =>
      have hd : ¬ d.isChar '=' = true := by
        intro heq
        cases isChar_iff.mp heq
        exact Bool.false_ne_true (hrest _ rfl).symm
      simp only [if_neg hd]

theorem takesOff_long {short long : Operator}
    (h : Operator.lengthened? x = some (short, long)) :
    TakesOff [alone x, alone '='] rest (some (.operator long)) := by
  have hx : (Operator.lengthened? x).isSome = true := by rw [h]; rfl
  obtain ⟨-, -, hpunctuation, hbar, hquote⟩ := sign_spec (.inr hx)
  refine ⟨alone x, alone '=' :: rest, rfl, fun position => ?_⟩
  simp only [scanLexeme, alone, Cluster.char?, hpunctuation, if_neg hbar,
    if_neg hquote, h]
  rfl

/-- Characters that start nothing else start what is plain. -/
theorem scanLexeme_plain (h : isPlainStart x = true) (position : Nat) :
    scanLexeme position (alone x) cs = scanPlain position (alone x) x cs := by
  obtain ⟨hpunctuation, hbar, hquote, hlengthened, hsingle⟩ :=
    isPlainStart_spec h
  simp only [scanLexeme, alone, Cluster.char?, hpunctuation, if_neg hbar,
    if_neg hquote, hlengthened, hsingle]

/-- A word is taken off whole. -/
theorem takesOff_word {raw : List Char} (h : IsWord raw)
    (hrest : Stops (isA isWordChar) rest) :
    TakesOff (raw.map alone) rest (some (word (String.ofList raw))) := by
  obtain ⟨x, xs, rfl, hx, hxs⟩ := h
  refine ⟨alone x, xs.map alone ++ rest, rfl, fun position => ?_⟩
  have hnumber : isNumberChar x = false := by
    rw [← Bool.not_eq_true]
    intro hnumber
    rw [(isGroupedChar_spec
      (isGroupedChar_of_isNumberChar hnumber)).1] at hx
    cases hx
  have hslash := ne_backslash (.inl hx)
  rw [scanLexeme_plain (by simp [isPlainStart, hx]), scanPlain]
  simp only [hslash, hnumber, hx, decide_false, Bool.false_and,
    Bool.false_eq_true, if_false, if_true]
  rw [takeWhile_append_of_stops (forall_isA_map hxs) hrest,
    dropWhile_append_of_stops (forall_isA_map hxs) hrest, ← List.map_cons,
    textOf_alone]

theorem takesOff_number {raw text decorator : List Char}
    (h : IsNumber raw text decorator)
    (hrest : Stops (isA (continues decorator)) rest) :
    TakesOff (raw.map alone) rest
      (some (.number (String.ofList text) (String.ofList decorator))) := by
  have hscan := scanNumber_of_isNumber h hrest
  obtain ⟨x, xs, rfl, hx, -⟩ := isNumber_iff.mp h
  refine ⟨alone x, (xs ++ decorator).map alone ++ rest, rfl,
    fun position => ?_⟩
  have hslash := ne_backslash (.inr hx)
  rw [scanLexeme_plain (by simp [isPlainStart, hx]), scanPlain]
  simp only [hslash, hx, decide_false, Bool.false_and, Bool.false_eq_true,
    if_false, if_true]
  rw [show alone x :: ((xs ++ decorator).map alone ++ rest)
    = (x :: xs ++ decorator).map alone ++ rest from rfl, hscan]

theorem takesOff_comment {text : List Cluster} (h : lineFeed ∉ text)
    (hrest : rest = [] ∨ rest.head? = some lineFeed) :
    TakesOff (alone '\\' :: alone '\\' :: text) rest none := by
  have hinside : ∀ c ∈ alone '\\' :: text, (!c.isChar '\n') = true := by
    intro c hc
    rw [Bool.not_eq_true', ← Bool.not_eq_true]
    intro hfeed
    rcases List.mem_cons.mp hc with rfl | hc
    · cases isChar_iff.mp hfeed
    · rw [isChar_iff.mp hfeed] at hc
      exact h hc
  have hstop : Stops (!·.isChar '\n') rest := by
    intro c hc
    rcases hrest with rfl | hfeed
    · cases hc
    · rw [hfeed] at hc
      cases hc
      rfl
  refine ⟨alone '\\', alone '\\' :: text ++ rest, rfl, fun position => ?_⟩
  rw [scanLexeme_plain (by decide), scanPlain,
    dropWhile_append_of_stops hinside hstop]
  rfl

-- ==================================================== a single stretch

/-- An operator has one spelling. -/
theorem symbol_of_mem_spellings {s : String} {op : Operator}
    (h : (s, op) ∈ Operator.spellings) : op.symbol = s := by
  have hall : ∀ e ∈ Operator.spellings, e.2.symbol = e.1 := by decide
  exact hall _ h

/-- Words of operators are operators. -/
theorem word_of_mem_words {s : String} {op : Operator}
    (h : (s, op) ∈ Operator.words) : word s = .operator op := by
  have hall : ∀ e ∈ Operator.words, Operator.words.lookup e.1 = some e.2 := by
    decide
  rw [word, hall _ h]

/-- A word that is neither of an operator nor reserved is a name. -/
theorem word_of_not_mem {s : String}
    (hop : s ∉ Operator.words.map Prod.fst) (hkey : s ∉ keywords) :
    word s = .name s := by
  have hlookup : Operator.words.lookup s = none := by
    rw [List.lookup_eq_none_iff]
    intro e he
    rw [bne_iff_ne]
    rintro rfl
    exact hop (List.mem_map_of_mem he)
  rw [word, hlookup]
  simp [hkey]

/-- The reserved word is a keyword. -/
theorem word_of_mem_keywords {s : String} (h : s ∈ keywords) :
    word s = .keyword s ∧ IsWord s.toList := by
  cases List.mem_singleton.mp h
  exact ⟨rfl, 'i', ['n'], rfl, by decide,
    List.forall_mem_singleton.mpr (by decide)⟩

/-- An operator is taken off, if it is not the start of a longer one. -/
theorem takesOff_operator {op : Operator}
    (h : (op.symbol, op) ∈ Operator.spellings)
    (hlongest : IsLongest (op.symbol.toList.map alone) rest) :
    TakesOff (op.symbol.toList.map alone) rest (some (.operator op)) := by
  rcases spelling_cases h with ⟨hmem, hword⟩ | ⟨x, heq, hx⟩
    | ⟨x, long, heq, hx⟩ | ⟨x, short, heq, hx⟩
  · have htaken := takesOff_word hword ((isLongest_word hword).mp hlongest)
    rwa [String.ofList_toList, word_of_mem_words hmem] at htaken
  · rw [heq, String.toList_ofList]
    exact takesOff_single hx
  · rw [heq, String.toList_ofList] at hlongest ⊢
    exact takesOff_short hx ((isLongest_short hx).mp hlongest)
  · rw [heq, String.toList_ofList]
    exact takesOff_long hx

/-- A stretch that fits is what the scanner takes off. -/
theorem Stretch.Fits.takesOff {s : Stretch} (h : s.Fits rest) :
    TakesOff s.span rest s.lexeme? := by
  cases s with
  | blank c => exact takesOff_blank h
  | comment text => exact takesOff_comment h.1 h.2
  | lexeme l span =>
      obtain ⟨hspells, hlongest⟩ := h
      show TakesOff span rest (some l)
      cases l with
      | opening b => cases hspells; cases b <;> exact takesOff_punctuation rfl
      | closing b => cases hspells; cases b <;> exact takesOff_punctuation rfl
      | comma => cases hspells; exact takesOff_punctuation rfl
      | semicolon => cases hspells; exact takesOff_punctuation rfl
      | name text =>
          obtain ⟨rfl, hword, hop, hkey⟩ := hspells
          have htaken :=
            takesOff_word hword ((isLongest_word hword).mp hlongest)
          rwa [String.ofList_toList, word_of_not_mem hop hkey] at htaken
      | number text decorator =>
          obtain ⟨raw, rfl, hnumber⟩ := hspells
          have htaken := takesOff_number hnumber
            ((isLongest_number hnumber).mp hlongest)
          rwa [String.ofList_toList, String.ofList_toList] at htaken
      | operator op =>
          obtain ⟨rfl, hop⟩ := hspells
          exact takesOff_operator hop hlongest
      | keyword text =>
          obtain ⟨rfl, hkey⟩ := hspells
          obtain ⟨heq, hword⟩ := word_of_mem_keywords hkey
          have htaken :=
            takesOff_word hword ((isLongest_word hword).mp hlongest)
          rwa [String.ofList_toList, heq] at htaken
      | unitBlock text scale =>
          obtain ⟨inside, rfl, hbar, rfl, hread⟩ := hspells
          exact takesOff_unitBlock hbar hread
      | template text =>
          obtain ⟨inside, rfl, hescaped, rfl⟩ := hspells
          exact takesOff_template hescaped

/-- Brackets, separators and delimiters start no longer run. -/
theorem isLongest_delimiter {y : Char}
    (h : ¬ (punctuation? y = none ∧ y ≠ '|' ∧ y ≠ '"'))
    (cs rest : List Cluster) : IsLongest (alone y :: cs) rest := by
  refine isLongest_of_head (fun x xs hrun heq => ?_) cs rest
  cases heq
  rcases hrun.cases with ⟨hword, -⟩ | ⟨hnumber, -⟩ | ⟨hsign, -⟩ | ⟨hsign, -⟩
  · obtain ⟨h₁, h₂, h₃, -⟩ := isPlainStart_spec (x := y)
      (by simp [isPlainStart, hword])
    exact h ⟨h₁, h₂, h₃⟩
  · obtain ⟨h₁, h₂, h₃, -⟩ := isPlainStart_spec (x := y)
      (by simp [isPlainStart, hnumber])
    exact h ⟨h₁, h₂, h₃⟩
  · exact h (sign_spec (.inl hsign)).2.2
  · exact h (sign_spec (.inr hsign)).2.2

/-- A bracket or a separator spells itself. -/
theorem spells_punctuation {l : Lexeme} (h : punctuation? x = some l) :
    Spells [alone x] l := by
  unfold punctuation? at h
  split at h <;> cases h <;> rfl

/-- Every word is a lexeme. -/
theorem spells_word {raw : List Char} (h : IsWord raw) :
    ∃ l, Spells (raw.map alone) l := by
  by_cases hop : String.ofList raw ∈ Operator.words.map Prod.fst
  · obtain ⟨⟨s, op⟩, hmem, heq⟩ := List.mem_map.mp hop
    have hall : ∀ e ∈ Operator.words, e ∈ Operator.spellings := by decide
    have hsymbol := symbol_of_mem_spellings (hall _ hmem)
    have htext : op.symbol = String.ofList raw := hsymbol.trans heq
    refine ⟨.operator op, ?_, ?_⟩
    · rw [htext, String.toList_ofList]
    · rw [hsymbol]
      exact hall _ hmem
  · by_cases hkey : String.ofList raw ∈ keywords
    · exact ⟨.keyword (String.ofList raw), by rw [String.toList_ofList], hkey⟩
    · refine ⟨.name (String.ofList raw), ?_, ?_, hop, hkey⟩
      · rw [String.toList_ofList]
      · rwa [String.toList_ofList]

/-- Every spelling in the table spells its operator. -/
theorem spells_operator {s : String} {op : Operator}
    (h : (s, op) ∈ Operator.spellings) :
    Spells (s.toList.map alone) (.operator op) := by
  have hsymbol := symbol_of_mem_spellings h
  exact ⟨by rw [hsymbol], by rwa [hsymbol]⟩

/-- A sign that an equals sign may lengthen, with it where it is there. -/
theorem exists_stretch_sign {short long : Operator}
    (h : Operator.lengthened? x = some (short, long)) (cs : List Cluster) :
    ∃ (s : Stretch) (rest : List Cluster), alone x :: cs = s.span ++ rest
      ∧ s.Fits rest := by
  obtain ⟨hshort, hlong⟩ := mem_spellings_of_lengthened? h
  -- the longer form wherever it can be
  by_cases hstop : Stops (isA (· == '=')) cs
  · refine ⟨.lexeme (.operator short) [alone x], cs, rfl, ?_,
      (isLongest_short h).mpr hstop⟩
    have hspells := spells_operator hshort
    rwa [String.toList_ofList] at hspells
  · obtain ⟨y, rest, rfl, hy⟩ := exists_of_not_stops hstop
    cases eq_of_beq hy
    refine ⟨.lexeme (.operator long) [alone x, alone '='], rest, rfl, ?_,
      isLongest_long h⟩
    have hspells := spells_operator hlong
    rwa [String.toList_ofList] at hspells

/-- Two backslashes start a comment. -/
theorem exists_stretch_comment
    (h : cs.head?.any (·.isChar '\\') = true) :
    ∃ (s : Stretch) (rest : List Cluster), alone '\\' :: cs = s.span ++ rest
      ∧ s.Fits rest := by
  cases cs with
  | nil => cases h
  | cons d cs =>
      cases isChar_iff.mp h
      refine ⟨.comment (cs.takeWhile (!·.isChar '\n')),
        cs.dropWhile (!·.isChar '\n'), ?_, fun hfeed => ?_, ?_⟩
      · simp [Stretch.span]
      · have hnot := List.mem_takeWhile_imp hfeed
        revert hnot
        decide
      · have hstop := stops_dropWhile (!·.isChar '\n') cs
        cases hrest : cs.dropWhile (!·.isChar '\n') with
        | nil => exact .inl rfl
        | cons d rest =>
            rw [hrest] at hstop
            have hd := hstop d rfl
            rw [Bool.not_eq_false'] at hd
            exact .inr (congrArg some (isChar_iff.mp hd))

/-- A comment, a number, a word or a blank. -/
theorem exists_stretch_plain {position : Nat}
    {r : Option Lexeme × List Cluster}
    (h : scanPlain position (alone x) x cs = .ok r) :
    ∃ (s : Stretch) (rest : List Cluster), alone x :: cs = s.span ++ rest
      ∧ s.Fits rest := by
  unfold scanPlain at h
  split at h
  · next hcomment =>
    obtain ⟨hx, hnext⟩ := Bool.and_eq_true_iff.mp hcomment
    cases of_decide_eq_true hx
    exact exists_stretch_comment hnext
  split at h
  · next hnumber =>
    obtain ⟨raw, text, decorator, rest, heq, hraw, hstop⟩ :=
      exists_number hnumber cs
    refine ⟨.lexeme (.number (String.ofList text) (String.ofList decorator))
      (raw.map alone), rest, heq, ⟨raw, rfl, ?_⟩,
      (isLongest_number hraw).mpr hstop⟩
    rwa [String.toList_ofList, String.toList_ofList]
  split at h
  · next hword =>
    obtain ⟨xs, rest, rfl, hxs, hstop⟩ := exists_run isWordChar cs
    have hraw : IsWord (x :: xs) := ⟨x, xs, rfl, hword, hxs⟩
    obtain ⟨l, hl⟩ := spells_word hraw
    exact ⟨.lexeme l ((x :: xs).map alone), rest, rfl, hl,
      (isLongest_word hraw).mpr hstop⟩
  split at h
  · next hgap =>
    refine ⟨.blank (alone x), cs, rfl, Bool.or_eq_true_iff.mpr (.inl hgap)⟩
  · cases h

/-- Where the scanner goes on, a stretch fits. -/
theorem exists_stretch {position : Nat} {r : Option Lexeme × List Cluster}
    (h : scanLexeme position c cs = .ok r) :
    ∃ (s : Stretch) (rest : List Cluster), c :: cs = s.span ++ rest
      ∧ s.Fits rest := by
  unfold scanLexeme at h
  split at h
  · split at h
    · next hgap => exact ⟨.blank c, cs, rfl, hgap⟩
    · cases h
  next x hx =>
  cases Cluster.char?_eq_some_iff.mp hx
  split at h
  · -- a bracket or a separator
    next l hl =>
    refine ⟨.lexeme l [alone x], cs, rfl, spells_punctuation hl, ?_⟩
    exact isLongest_delimiter (by simp [hl]) [] cs
  split at h
  · -- a unit
    next hbar =>
    subst hbar
    split at h
    · cases h
    · next inside rest hsplit =>
      obtain ⟨rfl, hbar⟩ := splitUnit?_eq_some_iff.mp hsplit
      obtain ⟨scale, hscale, -⟩ := bind_eq_ok.mp h
      refine ⟨.lexeme (.unitBlock (textOf inside) scale)
        (bar :: (inside ++ [bar])), rest, ?_, ?_, ?_⟩
      · simp [Stretch.span, bar]
      · exact ⟨inside, rfl, hbar, rfl, hscale⟩
      · exact isLongest_delimiter (by simp) _ rest
  split at h
  · -- a text in quotes
    next hquote =>
    subst hquote
    split at h
    · cases h
    · next inside rest hsplit =>
      obtain ⟨rfl, hescaped⟩ := escaped_of_splitString? hsplit
      refine ⟨.lexeme (.template _) (alone '"' :: (inside ++ [alone '"'])),
        rest, ?_, ⟨inside, rfl, hescaped, rfl⟩, ?_⟩
      · simp [Stretch.span, alone]
      · exact isLongest_delimiter (by simp) _ rest
  split at h
  · -- an operator of signs
    next hlengthened => exact exists_stretch_sign hlengthened cs
  · next op _ hsingle =>
    refine ⟨.lexeme (.operator op) [alone x], cs, rfl, ?_,
      isLongest_single hsingle⟩
    have hspells := spells_operator (mem_spellings_of_single? hsingle)
    rwa [String.toList_ofList] at hspells
  · exact exists_stretch_plain h

-- ============================================================ whole texts

/-- What a scan takes off in turn are stretches that fit together. -/
theorem Scans.exists_stretches {position : Nat} {tokens : List Token}
    (h : Scans position cs tokens) :
    ∃ row, cs = spans row ∧ FitTogether row
      ∧ tokens = tokensFrom position row := by
  induction h with
  | nil => exact ⟨[], rfl, trivial, rfl⟩
  | @cons position c cs rest found tokens hlexeme _ ih =>
      obtain ⟨row, rfl, hrow, rfl⟩ := ih
      obtain ⟨s, rest', heq, hfits⟩ := exists_stretch hlexeme
      obtain ⟨c', cs', hspan, hscan⟩ := hfits.takesOff
      -- the scanner takes off what fits, so it found this stretch
      cases heq.trans hspan
      cases hlexeme.symm.trans (hscan position)
      refine ⟨s :: row, heq, ⟨hfits, hrow⟩, ?_⟩
      have hlength := congrArg List.length heq
      rw [List.length_cons, List.length_append] at hlength
      rw [tokensFrom, hlength, Nat.add_sub_cancel]

/-- Stretches that fit together are scanned into their tokens. -/
theorem scanFrom_spans : ∀ (row : List Stretch) (position : Nat),
    FitTogether row →
    scanFrom position (spans row) = .ok (tokensFrom position row) := by
  intro row
  induction row with
  | nil => intro position _; rw [spans, List.flatMap_nil, scanFrom]; rfl
  | cons s row ih =>
      intro position h
      obtain ⟨hfits, hrow⟩ := h
      obtain ⟨c, cs, hspan, hscan⟩ := hfits.takesOff
      have hlength := congrArg List.length hspan
      rw [List.length_cons, List.length_append] at hlength
      rw [spans, List.flatMap_cons]
      show scanFrom position (s.span ++ spans row) = _
      rw [hspan, scanFrom_cons (hscan position), ← hlength,
        Nat.add_sub_cancel, ih _ hrow]
      rfl

/-- Something is always taken off. -/
theorem TakesOff.length_pos {span : List Cluster} {found : Option Lexeme}
    (h : TakesOff span rest found) : 0 < span.length := by
  obtain ⟨c, cs, hspan, hscan⟩ := h
  have hle := length_scanLexeme (hscan 0)
  have hlength := congrArg List.length hspan
  rw [List.length_append, List.length_cons] at hlength
  omega

/-- Later tokens stand further on. -/
theorem pairwise_tokensFrom : ∀ (row : List Stretch) (position : Nat),
    FitTogether row →
    (∀ t ∈ tokensFrom position row, position ≤ t.position)
      ∧ (tokensFrom position row).Pairwise (·.position < ·.position) := by
  intro row
  induction row with
  | nil => intro position _; exact ⟨nofun, .nil⟩
  | cons s row ih =>
      intro position h
      obtain ⟨hfits, hrow⟩ := h
      have hpos := hfits.takesOff.length_pos
      obtain ⟨hle, hpairwise⟩ := ih (position + s.span.length) hrow
      rw [tokensFrom]
      cases s.lexeme? with
      | none =>
          refine ⟨fun t ht => ?_, hpairwise⟩
          have := hle t ht
          omega
      | some l =>
          refine ⟨fun t ht => ?_, .cons (fun t ht => ?_) hpairwise⟩
          · rcases List.mem_cons.mp ht with rfl | ht
            · exact Nat.le_refl _
            · have := hle t ht
              omega
          · have := hle t ht
            show position < t.position
            omega

/-- A text is scanned into tokens exactly if it is a row of blanks,
comments and spans, one span for each token and in order: each token
stands where its span starts, and later ones further on; each span spells
its token and is as long as it can be. -/
theorem scan_eq_ok_iff_stretches (source : String) (tokens : List Token) :
    scan source = .ok tokens ↔ ∃ row, clusters source = spans row
      ∧ FitTogether row ∧ tokens = tokensFrom 0 row
      ∧ tokens.Pairwise (·.position < ·.position) := by
  constructor
  · intro h
    obtain ⟨row, hspans, hrow, rfl⟩ := (scans_of_scanFrom h).exists_stretches
    exact ⟨row, hspans, hrow, rfl, (pairwise_tokensFrom row 0 hrow).2⟩
  · rintro ⟨row, hspans, hrow, rfl, -⟩
    rw [scan_eq_scanFrom, hspans]
    exact scanFrom_spans row 0 hrow

end Metrology.Token
