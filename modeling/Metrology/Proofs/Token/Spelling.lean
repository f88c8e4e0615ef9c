/-
How tokens are spelled. Words, numbers and operators are rows of single
characters, each in a class of its own (`IsWord`, `IsNumber`,
`IsOperator`), and none of them stops where a longer one goes on
(`IsLongest`). To see that, one character of what follows is enough: a
class says which characters continue a member of it (`isLongest_iff`).
Unit blocks and strings end at a delimiter instead; in a string a
backslash takes the cluster behind it along (`Escaped`).

For each kind the file shows that the scanner takes off exactly such a
spelling, from both sides: what it takes off is one, and one that is
there is taken off.
-/
import Metrology.Proofs.Text.Plain
import Mathlib.Data.List.TakeWhile

namespace Metrology.Token

open Text

-- ============================================================= clusters

/-- A cluster of a class is a character of it without marks. -/
theorem isA_iff {p : Char → Bool} {c : Cluster} :
    isA p c = true ↔ ∃ x, c = alone x ∧ p x = true := by
  unfold isA
  constructor
  · intro h
    split at h
    · next x hx => exact ⟨x, Cluster.char?_eq_some_iff.mp hx, h⟩
    · cases h
  · rintro ⟨x, rfl, hx⟩
    exact hx

/-- A cluster that is a character has no marks either. -/
theorem isChar_iff {c : Cluster} {x : Char} :
    c.isChar x = true ↔ c = alone x := by
  unfold Cluster.isChar
  rw [beq_iff_eq]
  exact Cluster.char?_eq_some_iff

/-- Clusters of a class are characters of the class. -/
theorem exists_map_alone {p : Char → Bool} {cs : List Cluster}
    (h : ∀ c ∈ cs, isA p c = true) :
    ∃ xs : List Char, cs = xs.map alone ∧ ∀ x ∈ xs, p x = true := by
  induction cs with
  | nil => exact ⟨[], rfl, by simp⟩
  | cons c cs ih =>
      obtain ⟨x, rfl, hx⟩ := isA_iff.mp (h c (List.mem_cons_self ..))
      obtain ⟨xs, rfl, hxs⟩ := ih fun d hd => h d (List.mem_cons_of_mem _ hd)
      exact ⟨x :: xs, rfl, by simpa using ⟨hx, hxs⟩⟩

/-- The first of these clusters, if there is one, is not of the class. -/
def Stops (p : Cluster → Bool) (rest : List Cluster) : Prop :=
  ∀ c ∈ rest.head?, p c = false

/-- Where a class does not stop, a character of it stands. -/
theorem exists_of_not_stops {p : Char → Bool} {rest : List Cluster}
    (h : ¬ Stops (isA p) rest) :
    ∃ x rest', rest = alone x :: rest' ∧ p x = true := by
  cases rest with
  | nil => exact absurd (fun c hc => by cases hc) h
  | cons c rest =>
      by_cases hc : isA p c = true
      · obtain ⟨x, rfl, hx⟩ := isA_iff.mp hc
        exact ⟨x, rest, rfl, hx⟩
      · refine absurd (fun d hd => ?_) h
        cases hd
        exact Bool.not_eq_true _ ▸ hc

/-- Behind a run of a class, the class stops. -/
theorem stops_dropWhile (p : Cluster → Bool) (cs : List Cluster) :
    Stops p (cs.dropWhile p) := by
  intro c hc
  have h := List.head?_dropWhile_not p cs
  rw [Option.mem_def.mp hc] at h
  exact h

/-- A run of a class ends where a cluster is not of the class. -/
theorem takeWhile_append_of_stops {p : Cluster → Bool}
    {xs rest : List Cluster} (hxs : ∀ c ∈ xs, p c = true)
    (hrest : Stops p rest) : (xs ++ rest).takeWhile p = xs := by
  rw [List.takeWhile_append_of_pos hxs]
  cases rest with
  | nil => simp
  | cons c rest => simp [hrest c rfl]

theorem dropWhile_append_of_stops {p : Cluster → Bool}
    {xs rest : List Cluster} (hxs : ∀ c ∈ xs, p c = true)
    (hrest : Stops p rest) : (xs ++ rest).dropWhile p = rest := by
  rw [List.dropWhile_append_of_pos hxs]
  cases rest with
  | nil => rfl
  | cons c rest => rw [List.dropWhile_cons, hrest c rfl]; rfl

/-- Clusters begin with a run of a class, possibly an empty one. -/
theorem exists_run (p : Char → Bool) (cs : List Cluster) :
    ∃ (xs : List Char) (rest : List Cluster), cs = xs.map alone ++ rest
      ∧ (∀ x ∈ xs, p x = true) ∧ Stops (isA p) rest := by
  have hall : ∀ c ∈ cs.takeWhile (isA p), isA p c = true :=
    fun c hc => List.mem_takeWhile_imp hc
  obtain ⟨xs, hxs, hp⟩ := exists_map_alone hall
  refine ⟨xs, cs.dropWhile (isA p), ?_, hp, stops_dropWhile _ cs⟩
  rw [← hxs, List.takeWhile_append_dropWhile]

/-- Characters of a class are clusters of it. -/
theorem forall_isA_map {p : Char → Bool} {xs : List Char}
    (h : ∀ x ∈ xs, p x = true) : ∀ c ∈ xs.map alone, isA p c = true := by
  intro c hc
  obtain ⟨x, hx, rfl⟩ := List.mem_map.mp hc
  exact h x hx

-- ============================================================== classes

/-- A letter, then letters and digits. -/
def IsWord (raw : List Char) : Prop :=
  ∃ x xs, raw = x :: xs ∧ isWordStart x = true
    ∧ ∀ c ∈ xs, isWordChar c = true

/-- May stand in a unit symbol. -/
def isSymbolChar (c : Char) : Bool :=
  isAsciiLetter c || Scale.symbolExtras.contains c

/-- May stand in a unit symbol behind a number, after its start. -/
def isDecoratorChar (c : Char) : Bool := isSymbolChar c || isAsciiDigit c

/-- What may stand right behind the digits of a number: nothing, or a unit
symbol that may go on in digits. -/
structure IsDecorator (decorator : List Char) : Prop where
  starts : ∀ c ∈ decorator.head?, isSymbolChar c = true
  all : ∀ c ∈ decorator, isDecoratorChar c = true

/-- A number as it is written, and the digits and the decorator that are
read from it. Apostrophes group the digits and do not count. -/
structure IsNumber (raw text decorator : List Char) : Prop where
  ungrouped : raw.filter (· != '\'') = text ++ decorator
  begins : raw.head? ≠ some '\''
  ends : decorator <:+ raw
  text_ne_nil : text ≠ []
  digits : ∀ c ∈ text, isNumberChar c = true
  decorator : IsDecorator decorator

/-- The spelling of an operator, sign or word. -/
def IsOperator (raw : List Char) : Prop :=
  ∃ op, (String.ofList raw, op) ∈ Operator.spellings

/-- A word, a number or an operator. -/
def IsRun (raw : List Char) : Prop :=
  IsWord raw ∨ (∃ text decorator, IsNumber raw text decorator)
    ∨ IsOperator raw

/-- No longer row of clusters from the same place on is a word, a number
or an operator. -/
def IsLongest (span rest : List Cluster) : Prop :=
  ∀ more, more <+: rest → ∀ raw, span ++ more = raw.map alone →
    IsRun raw → more = []

/-- The clusters inside a string: a quote only behind a backslash, and a
backslash only with a cluster behind it. -/
inductive Escaped : List Cluster → Prop
  | nil : Escaped []
  | plain {c : Cluster} {cs : List Cluster} :
      c ≠ alone '"' → c ≠ alone '\\' → Escaped cs → Escaped (c :: cs)
  | pair {d : Cluster} {cs : List Cluster} :
      Escaped cs → Escaped (alone '\\' :: d :: cs)

/-- A cluster that means nothing special is inside the string. -/
theorem splitString?_plain {c : Cluster} {cs inside rest : List Cluster}
    (hquote : c.isChar '"' = false) (hslash : c.isChar '\\' = false)
    (h : splitString? cs = some (inside, rest)) :
    splitString? (c :: cs) = some (c :: inside, rest) := by
  rw [splitString?.eq_def]
  simp only [hquote, hslash, h]
  rfl

theorem splitString?_marked {d : Cluster} {cs inside rest : List Cluster}
    (h : splitString? cs = some (inside, rest)) :
    splitString? (alone '\\' :: d :: cs)
      = some (alone '\\' :: d :: inside, rest) := by
  rw [splitString?.eq_def]
  simp only [isChar_alone, h]
  rfl

-- ======================================================= what continues

/-- Characters that continue a row to a longer word, number or operator
decide whether it is the longest. -/
theorem isLongest_iff (raw : List Char) (p : Char → Bool)
    (hlonger : ∀ x, p x = true → IsRun (raw ++ [x]))
    (hnext : ∀ x more, IsRun (raw ++ x :: more) → p x = true)
    {rest : List Cluster} :
    IsLongest (raw.map alone) rest ↔ Stops (isA p) rest := by
  constructor
  · intro h c hc
    rw [← Bool.not_eq_true]
    intro hp
    obtain ⟨x, rfl, hx⟩ := isA_iff.mp hp
    obtain ⟨rest, rfl⟩ : ∃ rest', rest = alone x :: rest' := by
      cases rest with
      | nil => cases hc
      | cons d rest => cases hc; exact ⟨rest, rfl⟩
    have hmore := h [alone x] ⟨rest, rfl⟩ (raw ++ [x]) (by simp)
      (hlonger x hx)
    cases hmore
  · intro h more hprefix raw' heq hrun
    cases more with
    | nil => rfl
    | cons c more =>
        obtain ⟨rest', rfl⟩ := hprefix
        obtain ⟨front, back, rfl, hfront, hback⟩ :=
          List.map_eq_append_iff.mp heq.symm
        obtain ⟨x, back, rfl, rfl, -⟩ := List.map_eq_cons_iff.mp hback
        -- the longer row starts with `raw`, since clusters of single
        -- characters are equal only if the characters are
        have hfront : front = raw :=
          (List.map_injective_iff.mpr fun a b hab => by cases hab; rfl) hfront
        subst hfront
        have hx := h (alone x) rfl
        rw [show isA p (alone x) = p x from rfl, hnext x back hrun] at hx
        cases hx

/-- Nothing longer starts with a cluster that starts no word, number or
operator. -/
theorem isLongest_of_head {c : Cluster}
    (h : ∀ x xs, IsRun (x :: xs) → c ≠ alone x) (cs rest : List Cluster) :
    IsLongest (c :: cs) rest := by
  intro more _ raw heq hrun
  cases raw with
  | nil => cases heq
  | cons x xs => exact absurd (List.cons.inj heq).1 (h x xs hrun)

-- ========================================================== first letters

/-- The characters of a number are ASCII. -/
theorem ascii_of_isGroupedChar {x : Char} (h : isGroupedChar x = true) :
    x.toNat < 0x80 := by
  simp only [isGroupedChar, isNumberChar, isAsciiDigit, Bool.or_eq_true,
    Bool.and_eq_true, decide_eq_true_eq, beq_iff_eq] at h
  rcases h with (⟨-, h⟩ | rfl) | rfl
  · exact Nat.lt_of_le_of_lt h (by decide)
  · decide
  · decide

/-- Digits and points are among them. -/
theorem isGroupedChar_of_isNumberChar {x : Char}
    (h : isNumberChar x = true) : isGroupedChar x = true := by
  simp [isGroupedChar, h]

/-- A digit, a point or an apostrophe starts no word and no symbol, and
only the apostrophe does not count. -/
theorem isGroupedChar_spec {x : Char} (h : isGroupedChar x = true) :
    isWordStart x = false ∧ isSymbolChar x = false
      ∧ (x != '\'') = isNumberChar x := by
  have hall := forall_ascii (p := fun x => isGroupedChar x = true →
    isWordStart x = false ∧ isSymbolChar x = false
      ∧ (x != '\'') = isNumberChar x)
    (by decide +kernel) (ascii_of_isGroupedChar h)
  exact hall h

/-- A word or a number does not start with a backslash. -/
theorem ne_backslash {x : Char}
    (h : isWordStart x = true ∨ isNumberChar x = true) : x ≠ '\\' := by
  rintro rfl
  revert h
  decide

/-- The characters that are an operator by themselves. -/
def signs : List Char :=
  ['+', '-', '*', '/', '^', '?', '&', '$', '=', '!', '>', '<']

/-- An operator is a word, or a sign of one character, or a sign that an
equals sign lengthens, without it or with it. -/
theorem spelling_cases {s : String} {op : Operator}
    (h : (s, op) ∈ Operator.spellings) :
    ((s, op) ∈ Operator.words ∧ IsWord s.toList)
      ∨ (∃ x, s = String.ofList [x] ∧ Operator.single? x = some op)
      ∨ (∃ x long, s = String.ofList [x]
          ∧ Operator.lengthened? x = some (op, long))
      ∨ ∃ x short, s = String.ofList [x, '=']
          ∧ Operator.lengthened? x = some (short, op) := by
  -- the same for the entries of the table, with what can be decided
  have hall : ∀ e ∈ Operator.spellings,
      (e ∈ Operator.words ∧ e.1.toList.head?.any isWordStart
          ∧ e.1.toList.all isWordChar)
        ∨ (signs.any fun x => e.1 == String.ofList [x]
            && Operator.single? x == some e.2)
        ∨ (signs.any fun x => e.1 == String.ofList [x]
            && (Operator.lengthened? x).map Prod.fst == some e.2)
        ∨ (signs.any fun x => e.1 == String.ofList [x, '=']
            && (Operator.lengthened? x).map Prod.snd == some e.2) := by
    decide
  have hcases := hall _ h
  simp only [List.any_eq_true, Bool.and_eq_true, beq_iff_eq,
    Option.map_eq_some_iff] at hcases
  rcases hcases with ⟨hmem, hhead, hchars⟩ | ⟨x, -, hx, hop⟩
    | ⟨x, -, hx, ⟨short, long⟩, hop, rfl⟩
    | ⟨x, -, hx, ⟨short, long⟩, hop, rfl⟩
  · refine .inl ⟨hmem, ?_⟩
    cases hs : s.toList with
    | nil => rw [hs] at hhead; cases hhead
    | cons x xs =>
        rw [hs] at hhead hchars
        refine ⟨x, xs, rfl, hhead, fun c hc => ?_⟩
        exact List.all_eq_true.mp hchars c (List.mem_cons_of_mem _ hc)
  · exact .inr (.inl ⟨x, hx, hop⟩)
  · exact .inr (.inr (.inl ⟨x, long, hx, hop⟩))
  · exact .inr (.inr (.inr ⟨x, short, hx, hop⟩))

/-- The first character of a sign starts nothing else. -/
theorem sign_spec {x : Char}
    (h : (Operator.single? x).isSome ∨ (Operator.lengthened? x).isSome) :
    isWordStart x = false ∧ isNumberChar x = false
      ∧ punctuation? x = none ∧ x ≠ '|' ∧ x ≠ '"' := by
  unfold Operator.single? Operator.lengthened? at h
  rcases h with h | h <;> split at h <;> first | cases h; done | decide

-- ============================================================== numbers

/-- There are no apostrophes in a unit symbol. -/
theorem IsDecorator.ne_apostrophe {decorator : List Char}
    (h : IsDecorator decorator) : ∀ c ∈ decorator, (c != '\'') = true := by
  intro c hc
  rw [bne_iff_ne]
  rintro rfl
  have := h.all _ hc
  revert this
  decide

/-- A unit symbol does not start like a number. -/
theorem IsDecorator.head_not_grouped {x : Char} {xs : List Char}
    (h : IsDecorator (x :: xs)) : ¬ isGroupedChar x = true := by
  intro hx
  have hsymbol := h.starts x rfl
  rw [(isGroupedChar_spec hx).2.1] at hsymbol
  cases hsymbol

/-- A number is a digit or a point, more of them with apostrophes between,
and a decorator. -/
theorem isNumber_iff {raw text decorator : List Char} :
    IsNumber raw text decorator ↔ ∃ x xs, raw = x :: xs ++ decorator
      ∧ isNumberChar x = true ∧ (∀ c ∈ xs, isGroupedChar c = true)
      ∧ text = x :: xs.filter isNumberChar ∧ IsDecorator decorator := by
  constructor
  · intro h
    obtain ⟨digits, rfl⟩ := h.ends
    have htext : digits.filter (· != '\'') = text := by
      have hall := h.ungrouped
      rw [List.filter_append,
        List.filter_eq_self.mpr h.decorator.ne_apostrophe] at hall
      exact List.append_cancel_right hall
    have hgrouped : ∀ c ∈ digits, isGroupedChar c = true := by
      intro c hc
      by_cases hne : (c != '\'') = true
      · refine isGroupedChar_of_isNumberChar (h.digits c ?_)
        rw [← htext]
        exact List.mem_filter.mpr ⟨hc, hne⟩
      · rw [Bool.not_eq_true, bne_eq_false_iff_eq] at hne
        rw [hne]
        rfl
    -- before the decorator, what is no apostrophe is a digit or a point
    have hcount : digits.filter isNumberChar = text := by
      rw [← htext]
      exact List.filter_congr fun c hc =>
        (isGroupedChar_spec (hgrouped c hc)).2.2.symm
    cases digits with
    | nil => exact absurd hcount.symm h.text_ne_nil
    | cons x xs =>
        have hx : isNumberChar x = true := by
          rw [← (isGroupedChar_spec (hgrouped x (List.mem_cons_self ..))).2.2,
            bne_iff_ne]
          rintro rfl
          exact h.begins rfl
        refine ⟨x, xs, rfl, hx, fun c hc => ?_, ?_, h.decorator⟩
        · exact hgrouped c (List.mem_cons_of_mem _ hc)
        · rw [← hcount, List.filter_cons_of_pos hx]
  · rintro ⟨x, xs, rfl, hx, hxs, rfl, hdecorator⟩
    have hgrouped : ∀ c ∈ x :: xs, isGroupedChar c = true :=
      List.forall_mem_cons.mpr ⟨isGroupedChar_of_isNumberChar hx, hxs⟩
    have hcount : (x :: xs).filter (· != '\'')
        = x :: xs.filter isNumberChar := by
      rw [← List.filter_cons_of_pos hx]
      exact List.filter_congr fun c hc =>
        (isGroupedChar_spec (hgrouped c hc)).2.2
    refine ⟨?_, ?_, ⟨x :: xs, rfl⟩, by simp, ?_, hdecorator⟩
    · rw [List.filter_append, hcount,
        List.filter_eq_self.mpr hdecorator.ne_apostrophe]
    · rintro heq
      cases heq
      revert hx
      decide
    · intro c hc
      rcases List.mem_cons.mp hc with rfl | hc
      · exact hx
      · exact (List.mem_filter.mp hc).2

/-- The character goes on with a number that has this decorator. -/
def continues (decorator : List Char) (x : Char) : Bool :=
  if decorator.isEmpty then isSymbolChar x || isGroupedChar x
  else isDecoratorChar x

/-- A number with a character more that goes on with it is a number. -/
theorem IsNumber.longer {raw text decorator : List Char}
    (h : IsNumber raw text decorator) {c : Char}
    (hc : continues decorator c = true) :
    ∃ text' decorator', IsNumber (raw ++ [c]) text' decorator' := by
  obtain ⟨x, xs, rfl, hx, hxs, rfl, hdecorator⟩ := isNumber_iff.mp h
  unfold continues at hc
  -- digits go on with digits as long as there is no decorator
  by_cases hgroup : decorator = [] ∧ isGroupedChar c = true
  · obtain ⟨rfl, hgrouped⟩ := hgroup
    refine ⟨_, [], isNumber_iff.mpr ⟨x, xs ++ [c], by simp, hx, ?_, rfl,
      hdecorator⟩⟩
    intro d hd
    rcases List.mem_append.mp hd with hd | hd
    · exact hxs d hd
    · rw [List.mem_singleton.mp hd]
      exact hgrouped
  · have hdecorated : IsDecorator (decorator ++ [c]) := by
      cases decorator with
      | nil =>
          have hgrouped : ¬ isGroupedChar c = true :=
            fun hgrouped => hgroup ⟨rfl, hgrouped⟩
          have hsymbol : isSymbolChar c = true := by
            simpa [hgrouped] using hc
          exact ⟨by simpa using hsymbol,
            by simp [isDecoratorChar, hsymbol]⟩
      | cons e es =>
          refine ⟨by simpa using hdecorator.starts, fun d hd => ?_⟩
          rcases List.mem_append.mp hd with hd | hd
          · exact hdecorator.all d hd
          · rw [List.mem_singleton.mp hd]
            exact hc
    exact ⟨_, decorator ++ [c], isNumber_iff.mpr ⟨x, xs, by simp, hx, hxs,
      rfl, hdecorated⟩⟩

/-- The decorator starts where the digits end. -/
theorem IsNumber.dropWhile_eq {raw text decorator : List Char}
    (h : IsNumber raw text decorator) :
    raw.dropWhile isGroupedChar = decorator := by
  obtain ⟨x, xs, rfl, hx, hxs, -, hdecorator⟩ := isNumber_iff.mp h
  have hgrouped : ∀ c ∈ x :: xs, isGroupedChar c = true :=
    List.forall_mem_cons.mpr ⟨isGroupedChar_of_isNumberChar hx, hxs⟩
  rw [List.dropWhile_append_of_pos hgrouped]
  cases decorator with
  | nil => rfl
  | cons e es =>
      exact List.dropWhile_cons_of_neg hdecorator.head_not_grouped

/-- What stands behind a number in a longer one goes on with it. -/
theorem IsNumber.continues_of_append {raw text decorator more : List Char}
    {c : Char} (h : IsNumber raw text decorator)
    {text' decorator' : List Char}
    (h' : IsNumber (raw ++ c :: more) text' decorator') :
    continues decorator c = true := by
  have hdrop := h'.dropWhile_eq
  rw [List.dropWhile_append, h.dropWhile_eq] at hdrop
  unfold continues
  cases decorator with
  | nil =>
      by_cases hc : isGroupedChar c = true
      · simp [hc]
      · rw [List.isEmpty_nil, if_pos rfl, List.dropWhile_cons_of_neg hc]
          at hdrop
        have hsymbol := h'.decorator.starts c (by rw [← hdrop]; rfl)
        rw [hsymbol]
        rfl
  | cons e es =>
      rw [List.isEmpty_cons, if_neg Bool.false_ne_true] at hdrop
      exact h'.decorator.all c (by rw [← hdrop]; simp)

-- ================================================================= runs

/-- A word, a number or an operator, by its first character. -/
theorem IsRun.cases {x : Char} {xs : List Char} (h : IsRun (x :: xs)) :
    (isWordStart x = true ∧ ∀ c ∈ xs, isWordChar c = true)
      ∨ (isNumberChar x = true
          ∧ ∃ text decorator, IsNumber (x :: xs) text decorator)
      ∨ ((Operator.single? x).isSome ∧ xs = [])
      ∨ ((Operator.lengthened? x).isSome ∧ (xs = [] ∨ xs = ['='])) := by
  rcases h with ⟨y, ys, heq, hword⟩ | ⟨text, decorator, hnumber⟩ | ⟨op, hop⟩
  · cases heq
    exact .inl hword
  · obtain ⟨y, ys, heq, hy, -⟩ := isNumber_iff.mp hnumber
    cases heq
    exact .inr (.inl ⟨hy, text, decorator, hnumber⟩)
  · rcases spelling_cases hop with ⟨-, hword⟩ | ⟨y, heq, hy⟩
      | ⟨y, long, heq, hy⟩ | ⟨y, short, heq, hy⟩
    · rw [String.toList_ofList] at hword
      obtain ⟨y, ys, heq, hword⟩ := hword
      cases heq
      exact .inl hword
    · cases String.ofList_injective heq
      exact .inr (.inr (.inl ⟨by rw [hy]; rfl, rfl⟩))
    · cases String.ofList_injective heq
      exact .inr (.inr (.inr ⟨by rw [hy]; rfl, .inl rfl⟩))
    · cases String.ofList_injective heq
      exact .inr (.inr (.inr ⟨by rw [hy]; rfl, .inr rfl⟩))

variable {rest : List Cluster}

/-- A word goes on in letters and digits. -/
theorem isLongest_word {raw : List Char} (h : IsWord raw) :
    IsLongest (raw.map alone) rest ↔ Stops (isA isWordChar) rest := by
  obtain ⟨x, xs, rfl, hx, hxs⟩ := h
  refine isLongest_iff _ _ (fun c hc => .inl ⟨x, xs ++ [c], rfl, hx, ?_⟩)
    fun c more hrun => ?_
  · intro d hd
    rcases List.mem_append.mp hd with hd | hd
    · exact hxs d hd
    · rw [List.mem_singleton.mp hd]
      exact hc
  · rcases hrun.cases with ⟨-, hword⟩ | ⟨hnumber, -⟩ | ⟨hsign, -⟩ | ⟨hsign, -⟩
    · exact hword c (by simp)
    · rw [(isGroupedChar_spec
        (isGroupedChar_of_isNumberChar hnumber)).1] at hx
      cases hx
    · rw [(sign_spec (.inl hsign)).1] at hx
      cases hx
    · rw [(sign_spec (.inr hsign)).1] at hx
      cases hx

/-- A number goes on in what its decorator allows. -/
theorem isLongest_number {raw text decorator : List Char}
    (h : IsNumber raw text decorator) :
    IsLongest (raw.map alone) rest
      ↔ Stops (isA (continues decorator)) rest := by
  refine isLongest_iff _ _ (fun c hc => .inr (.inl (h.longer hc)))
    fun c more hrun => ?_
  obtain ⟨x, xs, rfl, hx, -⟩ := isNumber_iff.mp h
  rcases hrun.cases with ⟨hword, -⟩ | ⟨-, text', decorator', hnumber⟩
    | ⟨hsign, -⟩ | ⟨hsign, -⟩
  · rw [(isGroupedChar_spec (isGroupedChar_of_isNumberChar hx)).1] at hword
    cases hword
  · exact h.continues_of_append hnumber
  · rw [(sign_spec (.inl hsign)).2.1] at hx
    cases hx
  · rw [(sign_spec (.inr hsign)).2.1] at hx
    cases hx

/-- No sign is both with and without an equals sign. -/
theorem lengthened?_of_single? {x : Char}
    (h : (Operator.single? x).isSome = true) :
    Operator.lengthened? x = none := by
  unfold Operator.single? at h
  split at h <;> first | rfl | cases h

/-- Both forms of such a sign are operators. -/
theorem mem_spellings_of_lengthened? {x : Char} {short long : Operator}
    (h : Operator.lengthened? x = some (short, long)) :
    (String.ofList [x], short) ∈ Operator.spellings
      ∧ (String.ofList [x, '='], long) ∈ Operator.spellings := by
  unfold Operator.lengthened? at h
  split at h <;> cases h <;> decide

theorem mem_spellings_of_single? {x : Char} {op : Operator}
    (h : Operator.single? x = some op) :
    (String.ofList [x], op) ∈ Operator.spellings := by
  unfold Operator.single? at h
  split at h <;> cases h <;> decide

/-- What follows a sign in an operator is an equals sign, and only some
signs have it. -/
theorem IsRun.tail_of_sign {x : Char} {xs : List Char} (h : IsRun (x :: xs))
    (hx : (Operator.single? x).isSome ∨ (Operator.lengthened? x).isSome) :
    xs = [] ∨ ((Operator.lengthened? x).isSome ∧ xs = ['=']) := by
  obtain ⟨hword, hnumber, -⟩ := sign_spec hx
  rcases h.cases with ⟨h, -⟩ | ⟨h, -⟩ | ⟨-, hnil⟩ | ⟨hlong, hnil | hequals⟩
  · rw [hword] at h
    cases h
  · rw [hnumber] at h
    cases h
  · exact .inl hnil
  · exact .inl hnil
  · exact .inr ⟨hlong, hequals⟩

/-- The empty class stops everywhere. -/
theorem stops_false : Stops (isA fun _ => false) rest := by
  intro c _
  unfold isA
  split <;> rfl

/-- A sign that nothing lengthens is the longest. -/
theorem isLongest_single {x : Char} {op : Operator}
    (h : Operator.single? x = some op) : IsLongest [alone x] rest := by
  have hx : (Operator.single? x).isSome = true := by rw [h]; rfl
  refine (isLongest_iff [x] (fun _ => false) nofun
    fun c more hrun => ?_).mpr stops_false
  rcases hrun.tail_of_sign (.inl hx) with hnil | ⟨hlong, -⟩
  · cases hnil
  · rw [lengthened?_of_single? hx] at hlong
    cases hlong

/-- A sign that an equals sign lengthens is the longest where there is
none. -/
theorem isLongest_short {x : Char} {short long : Operator}
    (h : Operator.lengthened? x = some (short, long)) :
    IsLongest [alone x] rest ↔ Stops (isA (· == '=')) rest := by
  refine isLongest_iff [x] _ (fun c hc => ?_) fun c more hrun => ?_
  · rw [eq_of_beq hc]
    exact .inr (.inr ⟨long, (mem_spellings_of_lengthened? h).2⟩)
  · rcases hrun.tail_of_sign (.inr (by rw [h]; rfl)) with hnil | ⟨-, heq⟩
    · cases hnil
    · cases heq
      rfl

/-- With the equals sign it always is. -/
theorem isLongest_long {x : Char} {short long : Operator}
    (h : Operator.lengthened? x = some (short, long)) :
    IsLongest [alone x, alone '='] rest := by
  refine (isLongest_iff [x, '='] (fun _ => false) nofun
    fun c more hrun => ?_).mpr stops_false
  rcases hrun.tail_of_sign (.inr (by rw [h]; rfl)) with hnil | ⟨-, heq⟩
  · cases hnil
  · cases heq

-- ============================================== what a character starts

/-- May start a comment, a number, a word or a blank. -/
def isPlainStart (x : Char) : Bool :=
  isWordStart x || isNumberChar x || isGapChar x || x == '\\'

/-- Nothing else starts with such a character. -/
theorem isPlainStart_spec {x : Char} (h : isPlainStart x = true) :
    punctuation? x = none ∧ x ≠ '|' ∧ x ≠ '"'
      ∧ Operator.lengthened? x = none ∧ Operator.single? x = none := by
  have hne : ∀ y, isPlainStart y = false → x ≠ y := by
    rintro y hy rfl
    rw [h] at hy
    cases hy
  refine ⟨?_, hne _ (by decide), hne _ (by decide), ?_, ?_⟩
  · unfold punctuation?
    split <;> first | rfl | exact absurd rfl (hne _ (by decide))
  · unfold Operator.lengthened?
    split <;> first | rfl | exact absurd rfl (hne _ (by decide))
  · unfold Operator.single?
    split <;> first | rfl | exact absurd rfl (hne _ (by decide))

end Metrology.Token
