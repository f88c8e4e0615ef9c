/-
Strings show what was written into them. A string is put together from
segments, each a text or a variable. In the source a text has a backslash
before every backslash, quote and brace, and a variable is a name in
braces. Running the source gives the texts as they were and the variables
as values are written, in order (`run_quotation`).

Three readers see the marks one after another. The scanner looks for the
closing quote, cluster by cluster, and skips what a backslash marks. Then
marked quotes are resolved, character by character, and all other marks
are kept. At last the template is cut at its braces, cluster by cluster
again, and the other marks are resolved. What they agree on is the row of
strokes that the segments consist of: a stroke is a character or a place,
and each reader takes whole strokes off (`splitString?_row`,
`unescape_row`, `partsFrom_row`). The one cluster that is no stroke is a
carriage return with a line feed, two strokes that nobody marks.

A variable's value is written behind the readers' backs, so braces and
backslashes in it mean nothing.
-/
import Mathlib.Data.List.TakeWhile
import Metrology.Program.Run
import Metrology.Proofs.Token.Spelling
import Metrology.Proofs.Tree.Reading

namespace Metrology.Program

open Metrology.Text
open Metrology.Token (splitString? unescape scanWith scanFrom scanLexeme)

-- ============================================================= segments

/-- A part of what a string shows: a text, or the value of a variable. -/
inductive Segment where
  | text (s : String)
  | value (name : String)

/-- A character with a backslash before it if it is to be marked. -/
def marked (isMark : Char → Bool) (c : Char) : List Char :=
  if isMark c then ['\\', c] else [c]

/-- The characters that mean something in the source of a string. -/
def isSourceMark (c : Char) : Bool :=
  c == '\\' || c == '"' || c == '\x7b' || c == '\x7d'

/-- A segment as it is written in a string. -/
def Segment.written : Segment → List Char
  | .text s => s.toList.flatMap (marked isSourceMark)
  | .value name => '\x7b' :: (name.toList ++ ['\x7d'])

/-- The source of a string with these segments. -/
def quotation (segments : List Segment) : String :=
  String.ofList ('"' :: (segments.flatMap Segment.written ++ ['"']))

/-- What a variable shows. -/
def shownValue (env : Environment) (name : String) : Except Error String :=
  match env.get? name with
  | some v => v.render
  | none => .error (.eval (.undefinedVariable name))

/-- What a segment shows. -/
def Segment.shown (env : Environment) : Segment → Except Error String
  | .text s => .ok s
  | .value name => shownValue env name

/-- The text is ASCII. -/
def IsAscii (s : String) : Prop := ∀ c ∈ s.toList, c.toNat < 0x80

instance (s : String) : Decidable (IsAscii s) :=
  List.decidableBAll _ s.toList

/-- Texts are ASCII, and variables have names in ASCII. -/
def Segment.IsPlain : Segment → Prop
  | .text s => IsAscii s
  | .value name => isName name = true ∧ IsAscii name

instance : DecidablePred Segment.IsPlain
  | .text s => inferInstanceAs (Decidable (IsAscii s))
  | .value name =>
      inferInstanceAs (Decidable (isName name = true ∧ IsAscii name))

-- ============================================================== strokes

/-- What the readers of a string take off at a time: a character of a
text, or a place with the name of a variable. -/
inductive Stroke where
  | char (c : Char)
  | place (name : String)

/-- The strokes of a segment. -/
def Segment.strokes : Segment → List Stroke
  | .text s => s.toList.map .char
  | .value name => [.place name]

namespace Stroke

/-- The stroke as it is written where these characters are marked. -/
def written (isMark : Char → Bool) : Stroke → List Char
  | .char c => marked isMark c
  | .place name => '\x7b' :: (name.toList ++ ['\x7d'])

/-- What the stroke shows. -/
def shown (env : Environment) : Stroke → Except Error String
  | .char c => .ok (String.singleton c)
  | .place name => shownValue env name

/-- The character is ASCII, or the name is one in ASCII. -/
def IsPlain : Stroke → Prop
  | .char c => c.toNat < 0x80
  | .place name => isName name = true ∧ IsAscii name

end Stroke

/-- The strokes of segments are written as the segments are. -/
theorem flatMap_strokes (segments : List Segment) :
    (segments.flatMap Segment.strokes).flatMap (Stroke.written isSourceMark)
      = segments.flatMap Segment.written := by
  rw [List.flatMap_assoc]
  refine List.flatMap_congr fun g _ => ?_
  cases g with
  | text s => exact List.flatMap_map ..
  | value name => exact List.append_nil _

/-- Plain segments have plain strokes. -/
theorem isPlain_strokes {segments : List Segment}
    (h : ∀ g ∈ segments, g.IsPlain) :
    ∀ s ∈ segments.flatMap Segment.strokes, s.IsPlain := by
  intro s hs
  obtain ⟨g, hg, hs⟩ := List.mem_flatMap.mp hs
  have hplain := h g hg
  cases g with
  | text text =>
      obtain ⟨c, hc, rfl⟩ := List.mem_map.mp hs
      exact hplain c hc
  | value name =>
      cases List.mem_singleton.mp hs
      exact hplain

-- ========================================================== characters

/-- The characters of a name in ASCII. -/
def isAsciiNameChar (c : Char) : Bool :=
  isAsciiLetter c || c == '_' || isAsciiDigit c

/-- A name in ASCII is made of letters, digits and underscores. -/
theorem isAsciiNameChar_of_mem {name : String} (h : isName name = true)
    (hascii : IsAscii name) :
    ∀ c ∈ name.toList, isAsciiNameChar c = true := by
  intro c hc
  have hlow := hascii c hc
  unfold isName at h
  cases hname : name.toList with
  | nil => rw [hname] at hc; cases hc
  | cons x xs =>
      rw [hname] at h hc
      simp only [Bool.and_eq_true, List.all_eq_true] at h
      rcases List.mem_cons.mp hc with rfl | hc
      · have hstart := h.1
        rw [isNameStart, if_pos hlow] at hstart
        rw [isAsciiNameChar, hstart, Bool.true_or]
      · have hchar := h.2 c hc
        rw [isNameChar, if_pos hlow] at hchar
        exact hchar

/-- Other characters do not occur in a name. -/
theorem not_mem_name {name : String} (h : isName name = true)
    (hascii : IsAscii name) {x : Char} (hx : isAsciiNameChar x = false) :
    x ∉ name.toList := by
  intro hmem
  rw [isAsciiNameChar_of_mem h hascii x hmem] at hx
  cases hx

theorem marked_pos {isMark : Char → Bool} {c : Char}
    (h : isMark c = true) : marked isMark c = ['\\', c] := if_pos h

theorem marked_neg {isMark : Char → Bool} {c : Char}
    (h : isMark c = false) : marked isMark c = [c] := if_neg (by simp [h])

variable {isMark : Char → Bool}

/-- A character is written alone or behind a backslash. -/
theorem written_char (isMark : Char → Bool) (c : Char) :
    (Stroke.char c).written isMark = [c]
    ∨ (Stroke.char c).written isMark = ['\\', c] := by
  rw [Stroke.written, marked]
  split
  · exact .inr rfl
  · exact .inl rfl

-- ============================================== the clusters of a row

/-- The clusters of a row of strokes. -/
def rowClusters (isMark : Char → Bool) : List Stroke → List Cluster
  | .char '\r' :: .char '\n' :: ss =>
      ⟨'\r', ['\n']⟩ :: rowClusters isMark ss
  | s :: ss => (s.written isMark).map alone ++ rowClusters isMark ss
  | [] => []

/-- Only the stroke of a carriage return holds one. -/
theorem return_not_mem_written {s : Stroke} (hs : s.IsPlain)
    (hne : s ≠ .char '\r') : '\r' ∉ s.written isMark := by
  intro hmem
  cases s with
  | char c =>
      have hc : '\r' ≠ c := fun heq => hne (by rw [heq])
      rcases written_char isMark c with heq | heq
      · simp [heq, hc] at hmem
      · simp [heq, hc] at hmem
  | place name =>
      rcases List.mem_cons.mp hmem with heq | hmem
      · exact absurd heq (by decide)
      rcases List.mem_append.mp hmem with hmem | hmem
      · exact not_mem_name hs.1 hs.2 (by decide) hmem
      · exact absurd (List.mem_singleton.mp hmem) (by decide)

/-- Only the stroke of a line feed begins with one. -/
theorem head_row_eq_feed {ss : List Stroke} {rest : List Char}
    (hend : rest.head? ≠ some '\n')
    (h : (ss.flatMap (Stroke.written isMark) ++ rest).head? = some '\n') :
    ∃ more, ss = .char '\n' :: more := by
  cases ss with
  | nil => exact absurd h hend
  | cons s ss =>
      refine ⟨ss, ?_⟩
      rw [List.flatMap_cons] at h
      cases s with
      | char c =>
          rcases written_char isMark c with heq | heq
          · rw [heq] at h
            cases h
            rfl
          · rw [heq] at h
            cases h
      | place name => cases h

/-- Plain strokes are written in ASCII. -/
theorem ascii_of_row {ss : List Stroke} (h : ∀ s ∈ ss, s.IsPlain) :
    ∀ c ∈ ss.flatMap (Stroke.written isMark), c.toNat < 0x80 := by
  intro x hx
  obtain ⟨s, hs, hx⟩ := List.mem_flatMap.mp hx
  have hplain := h s hs
  cases s with
  | char c =>
      have hc : c.toNat < 0x80 := hplain
      rcases written_char isMark c with heq | heq
      · rw [heq] at hx
        rwa [List.mem_singleton.mp hx]
      · rw [heq] at hx
        rcases List.mem_cons.mp hx with rfl | hx
        · decide
        · rwa [List.mem_singleton.mp hx]
  | place name =>
      rcases List.mem_cons.mp hx with rfl | hx
      · decide
      rcases List.mem_append.mp hx with hx | hx
      · exact hplain.2 x hx
      · rw [List.mem_singleton.mp hx]
        decide

/-- Strokes do not run into one another, a line break in two halves
apart. -/
theorem pairBreaks_row (hreturn : isMark '\r' = false)
    (hfeed : isMark '\n' = false) {ss : List Stroke}
    (h : ∀ s ∈ ss, s.IsPlain) {rest : List Char}
    (hend : rest.head? ≠ some '\n') :
    pairBreaks (ss.flatMap (Stroke.written isMark) ++ rest)
      = rowClusters isMark ss ++ pairBreaks rest := by
  fun_induction rowClusters isMark ss with
  | case1 ss ih =>
      rw [List.flatMap_cons, List.flatMap_cons, Stroke.written,
        Stroke.written, marked_neg hreturn, marked_neg hfeed]
      exact congrArg (⟨'\r', ['\n']⟩ :: ·)
        (ih fun s hs => h s (by simp [hs]))
  | case2 s ss hpair ih =>
      rw [List.flatMap_cons, List.append_assoc, List.append_assoc,
        ← ih fun t ht => h t (List.mem_cons_of_mem _ ht)]
      -- a carriage return alone has no line feed behind it, or it would
      -- have been taken with it
      by_cases hs : s = .char '\r'
      · subst hs
        have hhead : (ss.flatMap (Stroke.written isMark) ++ rest).head?
            ≠ some '\n' := by
          intro hhead
          obtain ⟨more, rfl⟩ := head_row_eq_feed hend hhead
          exact hpair more rfl rfl
        rw [Stroke.written, marked_neg hreturn]
        exact pairBreaks_carriageReturn hhead
      · exact pairBreaks_append
          (return_not_mem_written (h s (List.mem_cons_self ..)) hs) _
  | case3 => rfl

/-- The clusters of a row are those of its strokes, line breaks apart. -/
theorem clustersOf_row (hreturn : isMark '\r' = false)
    (hfeed : isMark '\n' = false) {ss : List Stroke}
    (h : ∀ s ∈ ss, s.IsPlain) :
    clustersOf (ss.flatMap (Stroke.written isMark))
      = rowClusters isMark ss := by
  rw [splitsAscii_clustersOf _ (ascii_of_row h),
    ← List.append_nil (ss.flatMap _), pairBreaks_row hreturn hfeed h]
  · exact List.append_nil _
  · decide

/-- The clusters of a row in quotes. -/
theorem split_quoted {split : Splitter} (hsplit : SplitsAscii split)
    {ss : List Stroke} (h : ∀ s ∈ ss, s.IsPlain) :
    split ('"' :: (ss.flatMap (Stroke.written isSourceMark) ++ ['"']))
      = alone '"' :: (rowClusters isSourceMark ss ++ [alone '"']) := by
  have hascii : ∀ c ∈ '"' :: (ss.flatMap (Stroke.written isSourceMark)
      ++ ['"']), c.toNat < 0x80 := by
    intro c hc
    rcases List.mem_cons.mp hc with rfl | hc
    · decide
    rcases List.mem_append.mp hc with hc | hc
    · exact ascii_of_row h c hc
    · rw [List.mem_singleton.mp hc]
      decide
  have hquote : '\r' ∉ ['"'] := by decide
  have hopen : ∀ cs, pairBreaks ('"' :: cs) = alone '"' :: pairBreaks cs :=
    pairBreaks_append hquote
  rw [hsplit _ hascii, hopen, pairBreaks_row rfl rfl h (by decide)]
  rfl

/-- The clusters of a row hold what is written in it. -/
theorem flatMap_rowClusters (hreturn : isMark '\r' = false)
    (hfeed : isMark '\n' = false) (ss : List Stroke) :
    (rowClusters isMark ss).flatMap Cluster.toList
      = ss.flatMap (Stroke.written isMark) := by
  fun_induction rowClusters isMark ss with
  | case1 ss ih =>
      rw [List.flatMap_cons, List.flatMap_cons, List.flatMap_cons, ih,
        Stroke.written, Stroke.written, marked_neg hreturn,
        marked_neg hfeed]
      rfl
  | case2 s ss _ ih =>
      rw [List.flatMap_append, flatMap_alone, ih, List.flatMap_cons]
  | case3 => rfl

-- ============================================================ scanning

/-- The scanner passes by what is neither a quote nor a backslash. -/
theorem splitString?_plains {xs : List Char} {cs inside rest : List Cluster}
    (hquote : '"' ∉ xs) (hslash : '\\' ∉ xs)
    (h : splitString? cs = some (inside, rest)) :
    splitString? (xs.map alone ++ cs)
      = some (xs.map alone ++ inside, rest) := by
  induction xs with
  | nil => exact h
  | cons x xs ih =>
      rw [List.mem_cons, not_or] at hquote hslash
      refine Token.splitString?_plain ?_ ?_ (ih hquote.2 hslash.2)
      · simpa [isChar_alone] using Ne.symm hquote.1
      · simpa [isChar_alone] using Ne.symm hslash.1

/-- A character that is no name's does not occur in a place, braces
apart. -/
theorem not_mem_place {name : String} (h : isName name = true)
    (hascii : IsAscii name) {x : Char} (hx : isAsciiNameChar x = false)
    (hopen : x ≠ '\x7b') (hclose : x ≠ '\x7d') :
    x ∉ (Stroke.place name).written isMark := by
  intro hmem
  rcases List.mem_cons.mp hmem with heq | hmem
  · exact hopen heq
  rcases List.mem_append.mp hmem with hmem | hmem
  · exact not_mem_name h hascii hx hmem
  · exact hclose (List.mem_singleton.mp hmem)

/-- The closing quote is the first one that no stroke marks. -/
theorem splitString?_row {ss : List Stroke} (h : ∀ s ∈ ss, s.IsPlain)
    (rest : List Cluster) :
    splitString? (rowClusters isSourceMark ss ++ alone '"' :: rest)
      = some (rowClusters isSourceMark ss, rest) := by
  fun_induction rowClusters isSourceMark ss with
  | case1 ss ih =>
      exact Token.splitString?_plain rfl rfl (ih fun s hs => h s (by simp [hs]))
  | case2 s ss _ ih =>
      have hrest := ih fun t ht => h t (List.mem_cons_of_mem _ ht)
      have hs := h s (List.mem_cons_self ..)
      rw [List.append_assoc]
      cases s with
      | place name =>
          exact splitString?_plains
            (not_mem_place hs.1 hs.2 (by decide) (by decide) (by decide))
            (not_mem_place hs.1 hs.2 (by decide) (by decide) (by decide)) hrest
      | char c =>
          rw [Stroke.written]
          by_cases hmark : isSourceMark c = true
          · rw [marked_pos hmark]
            exact Token.splitString?_marked hrest
          · rw [Bool.not_eq_true] at hmark
            rw [marked_neg hmark]
            simp only [isSourceMark, Bool.or_eq_false_iff] at hmark
            refine splitString?_plains ?_ ?_ hrest
            · simpa using Ne.symm (by simpa using hmark.1.1.2)
            · simpa using Ne.symm (by simpa using hmark.1.1.1)
  | case3 =>
      rw [List.nil_append, Token.splitString?.eq_def]
      simp only [isChar_alone]
      rfl

-- ============================================================ resolving

/-- The characters that mean something in a template. -/
def isTemplateMark (c : Char) : Bool := c == '\\' || c == '\x7b' || c == '\x7d'

/-- A character that is no backslash is kept. -/
theorem unescape_cons {c : Char} (h : c ≠ '\\') (cs : List Char) :
    unescape (c :: cs) = c :: unescape cs := by
  rw [unescape]
  all_goals simp [h]

theorem unescape_plains {xs : List Char} (h : '\\' ∉ xs) (cs : List Char) :
    unescape (xs ++ cs) = xs ++ unescape cs := by
  induction xs with
  | nil => rfl
  | cons x xs ih =>
      rw [List.mem_cons, not_or] at h
      rw [List.cons_append, unescape_cons (Ne.symm h.1), ih h.2]
      rfl

/-- Marked quotes are resolved, and other marks are kept. -/
theorem unescape_stroke {s : Stroke} (h : s.IsPlain) (cs : List Char) :
    unescape (s.written isSourceMark ++ cs)
      = s.written isTemplateMark ++ unescape cs := by
  cases s with
  | place name =>
      exact unescape_plains
        (not_mem_place h.1 h.2 (by decide) (by decide) (by decide)) cs
  | char c =>
      rw [Stroke.written, Stroke.written]
      -- a quote is marked in the source and not in the template; all
      -- other marks stay
      by_cases hquote : c = '"'
      · subst hquote
        rfl
      by_cases hmark : isTemplateMark c = true
      · have hsource : isSourceMark c = true := by
          simp only [isTemplateMark, isSourceMark, Bool.or_eq_true] at hmark ⊢
          rcases hmark with (h | h) | h <;> simp [h]
        rw [marked_pos hmark, marked_pos hsource]
        simp only [isTemplateMark, Bool.or_eq_true, beq_iff_eq] at hmark
        rcases hmark with (rfl | rfl) | rfl <;> rfl
      · rw [Bool.not_eq_true] at hmark
        have hsource : isSourceMark c = false := by
          simp only [isTemplateMark, isSourceMark, Bool.or_eq_false_iff,
            beq_eq_false_iff_ne] at hmark ⊢
          exact ⟨⟨⟨hmark.1.1, hquote⟩, hmark.1.2⟩, hmark.2⟩
        rw [marked_neg hmark, marked_neg hsource]
        simp only [isTemplateMark, Bool.or_eq_false_iff,
          beq_eq_false_iff_ne] at hmark
        exact unescape_plains (by simpa using Ne.symm hmark.1.1) cs

/-- In a whole row, only the marks of quotes go. -/
theorem unescape_row {ss : List Stroke} (h : ∀ s ∈ ss, s.IsPlain) :
    unescape (ss.flatMap (Stroke.written isSourceMark))
      = ss.flatMap (Stroke.written isTemplateMark) := by
  induction ss with
  | nil => rfl
  | cons s ss ih =>
      rw [List.flatMap_cons, List.flatMap_cons,
        unescape_stroke (h s (List.mem_cons_self ..)),
        ih fun t ht => h t (List.mem_cons_of_mem _ ht)]

-- ============================================================= cutting

/-- The parts of a row of strokes. -/
def rowParts : List Stroke → List Part
  | .char '\r' :: .char '\n' :: ss => .literal "\r\n" :: rowParts ss
  | .char c :: ss => .literal (String.singleton c) :: rowParts ss
  | .place name :: ss => .place name :: rowParts ss
  | [] => []

variable {template : String} {position : Nat}

/-- A cluster without a meaning is shown as it is. -/
theorem partsFrom_plain {c : Cluster} (hslash : c.isChar '\\' = false)
    (hopen : c.isChar '\x7b' = false) (hclose : c.isChar '\x7d' = false)
    (cs : List Cluster) :
    partsFrom template position none (c :: cs)
      = .literal c.text :: partsFrom template (position + 1) none cs := by
  cases cs with
  | nil => simp [partsFrom, hopen, hclose]
  | cons d ds =>
      rw [partsFrom.eq_def]
      simp [hslash, hopen, hclose]

/-- A marked one is shown without its mark. -/
theorem partsFrom_marked {d : Cluster} (h : isEscapable d = true)
    (cs : List Cluster) :
    partsFrom template position none (alone '\\' :: d :: cs)
      = .literal d.text :: partsFrom template (position + 2) none cs := by
  rw [partsFrom.eq_def]
  simp [isChar_alone, h]

/-- A place goes on up to its closing brace. -/
theorem partsFrom_inside (template : String) {xs : List Char}
    (hopen : '\x7b' ∉ xs) (hclose : '\x7d' ∉ xs) (cs : List Cluster) :
    ∀ (position : Nat) (place : OpenPlace),
      partsFrom template position (some place)
          (xs.map alone ++ alone '\x7d' :: cs)
        = .place (textOf (place.content.reverse ++ xs.map alone))
          :: partsFrom template (position + xs.length + 1) none cs := by
  induction xs with
  | nil =>
      intro position place
      rw [List.map_nil, List.nil_append, partsFrom, List.append_nil,
        isChar_alone]
      rfl
  | cons x xs ih =>
      intro position place
      rw [List.mem_cons, not_or] at hopen hclose
      have hx : (alone x).isChar '\x7b' = false := by
        simpa [isChar_alone] using Ne.symm hopen.1
      have hx' : (alone x).isChar '\x7d' = false := by
        simpa [isChar_alone] using Ne.symm hclose.1
      rw [List.map_cons, List.cons_append, partsFrom, hx', hx]
      simp only [Bool.false_eq_true, if_false]
      rw [ih hopen.2 hclose.2, List.length_cons]
      simp only [List.reverse_cons, List.append_assoc, List.singleton_append,
        Nat.add_assoc, Nat.add_comm 1]

/-- A name in braces is a place. -/
theorem partsFrom_place {name : String} (h : isName name = true)
    (hascii : IsAscii name) (cs : List Cluster) :
    partsFrom template position none
        (((Stroke.place name).written isTemplateMark).map alone ++ cs)
      = .place name
        :: partsFrom template (position + name.toList.length + 2) none cs := by
  have hopen : '\x7b' ∉ name.toList := not_mem_name h hascii (by decide)
  have hclose : '\x7d' ∉ name.toList := not_mem_name h hascii (by decide)
  have hinside := partsFrom_inside template hopen hclose cs (position + 1)
    { position := position }
  have hrow : ((Stroke.place name).written isTemplateMark).map alone ++ cs
      = alone '\x7b' :: (name.toList.map alone ++ alone '\x7d' :: cs) := by
    simp [Stroke.written]
  rw [List.reverse_nil, List.nil_append, textOf_alone,
    String.ofList_toList] at hinside
  have hend : position + 1 + name.toList.length + 1
      = position + name.toList.length + 2 := by omega
  rw [hrow, ← hend, ← hinside]
  cases hcs : name.toList.map alone ++ alone '\x7d' :: cs with
  | nil => simp at hcs
  | cons d ds =>
      rw [partsFrom.eq_def]
      simp [isChar_alone]

/-- The template of a row is cut at the places of the row. -/
theorem partsFrom_row {ss : List Stroke} (h : ∀ s ∈ ss, s.IsPlain) :
    ∀ (position : Nat),
      partsFrom template position none (rowClusters isTemplateMark ss)
        = rowParts ss := by
  fun_induction rowClusters isTemplateMark ss with
  | case1 ss ih =>
      intro position
      rw [partsFrom_plain rfl rfl rfl, ih fun s hs => h s (by simp [hs]),
        rowParts]
      rfl
  | case2 s ss hpair ih =>
      intro position
      have hrest := ih fun t ht => h t (List.mem_cons_of_mem _ ht)
      have hs := h s (List.mem_cons_self ..)
      cases s with
      | place name => rw [partsFrom_place hs.1 hs.2, hrest, rowParts]
      | char c =>
          -- this stroke does not begin a line break
          have hparts : rowParts (.char c :: ss)
              = .literal (String.singleton c) :: rowParts ss := by
            rw [rowParts]
            rintro rest rfl rfl
            exact hpair rest rfl rfl
          rw [Stroke.written, hparts]
          by_cases hmark : isTemplateMark c = true
          · have hescapable : isEscapable (alone c) = true := by
              simp only [isTemplateMark, isEscapable, isChar_alone,
                Bool.or_eq_true] at hmark ⊢
              rcases hmark with (h | h) | h <;> simp [h]
            rw [marked_pos hmark, List.map_cons, List.map_cons, List.map_nil,
              List.cons_append, List.cons_append, List.nil_append,
              partsFrom_marked hescapable, hrest]
            rfl
          · rw [Bool.not_eq_true] at hmark
            rw [marked_neg hmark, List.map_cons, List.map_nil,
              List.cons_append, List.nil_append]
            simp only [isTemplateMark, Bool.or_eq_false_iff,
              ← isChar_alone] at hmark
            rw [partsFrom_plain hmark.1.1 hmark.1.2 hmark.2, hrest]
            rfl
  | case3 => intro position; rfl

-- ============================================================== filling

/-- What all members of a list show, one behind the other. -/
def shownAll {α : Type} (f : α → Except Error String) (xs : List α) :
    Except Error String :=
  (xs.mapM f).map String.join

/-- The first is shown before the others. -/
theorem shownAll_cons {α : Type} (f : α → Except Error String) (x : α)
    (xs : List α) :
    shownAll f (x :: xs)
      = (do
          let first ← f x
          let rest ← shownAll f xs
          return first ++ rest) := by
  rw [shownAll, shownAll, List.mapM_cons]
  cases f x with
  | error e => rfl
  | ok first =>
      cases xs.mapM f with
      | error e => rfl
      | ok rest =>
          show Except.ok (String.join (first :: rest)) = .ok _
          simp

/-- Characters show themselves. -/
theorem shownAll_chars (env : Environment) (cs : List Char)
    (ss : List Stroke) :
    shownAll (Stroke.shown env) (cs.map .char ++ ss)
      = (shownAll (Stroke.shown env) ss).map (String.ofList cs ++ ·) := by
  induction cs with
  | nil =>
      rw [List.map_nil, List.nil_append]
      cases shownAll (Stroke.shown env) ss with
      | error e => rfl
      | ok text => simp [Except.map]
  | cons c cs ih =>
      rw [List.map_cons, List.cons_append, shownAll_cons, ih]
      cases shownAll (Stroke.shown env) ss with
      | error e => rfl
      | ok text =>
          show Except.ok (String.singleton c ++ (String.ofList cs ++ text))
            = .ok (String.ofList (c :: cs) ++ text)
          rw [← String.append_assoc]
          simp [String.ofList_cons]

/-- The strokes of segments show what the segments show. -/
theorem shownAll_strokes (env : Environment) (segments : List Segment) :
    shownAll (Stroke.shown env) (segments.flatMap Segment.strokes)
      = shownAll (Segment.shown env) segments := by
  induction segments with
  | nil => rfl
  | cons g segments ih =>
      rw [List.flatMap_cons, shownAll_cons]
      cases g with
      | text s =>
          rw [Segment.strokes, shownAll_chars, ih, String.ofList_toList]
          cases shownAll (Segment.shown env) segments with
          | error e => rfl
          | ok text => rfl
      | value name =>
          rw [Segment.strokes, List.singleton_append, shownAll_cons, ih]
          rfl

/-- A list of parts filled in. -/
def fillAll (template : String) (ps : List Part) : Action String := do
  return String.join (← ps.mapM (fillPart template))

/-- A part that shows a text goes before the rest. -/
theorem fillAll_cons {p : Part} {ps : List Part} {s : State}
    {x y : Except Error String}
    (hp : fillPart template p s = lift x s)
    (hps : fillAll template ps s = lift y s) :
    fillAll template (p :: ps) s
      = lift (do
          let first ← x
          let rest ← y
          return first ++ rest) s := by
  have hcons : fillAll template (p :: ps)
      = (do
          let first ← fillPart template p
          let rest ← fillAll template ps
          return first ++ rest) := by
    simp [fillAll]
  rw [hcons]
  show EStateM.bind _ _ s = _
  unfold EStateM.bind
  rw [hp]
  cases x with
  | error e => rfl
  | ok first =>
      show EStateM.bind _ _ s = _
      unfold EStateM.bind
      rw [hps]
      cases y with
      | error e => rfl
      | ok rest => rfl

/-- A name in ASCII has no blanks at its ends. -/
theorem trim_name {name : String} (h : isName name = true)
    (hascii : IsAscii name) : trim name = name := by
  have hname : ∀ c ∈ name.toList, isBlank c = false := by
    intro c hc
    exact forall_ascii (p := fun c => isAsciiNameChar c = true →
      isBlank c = false) (by decide) (hascii c hc)
      (isAsciiNameChar_of_mem h hascii c hc)
  rw [trim, trimChars_eq_self hname, String.ofList_toList]

theorem get_apply (s : State) : (get : Action State) s = .ok s s := rfl

/-- A variable with a value has that value. -/
theorem lookup_of_some {name : String} {s : State} {v : Value}
    (h : s.env.get? name = some v) : lookup name s = .ok v s := by
  simp only [lookup, bind, EStateM.bind, get_apply, h]
  rfl

/-- A variable without one is an error. -/
theorem lookup_of_none {name : String} {s : State}
    (h : s.env.get? name = none) :
    lookup name s = .error (.failed (.eval (.undefinedVariable name))) s := by
  simp only [lookup, bind, EStateM.bind, get_apply, h]
  rfl

/-- A place shows the value of its variable. -/
theorem fillPart_place {name : String} (h : isName name = true)
    (hascii : IsAscii name) (s : State) :
    fillPart template (.place name) s = lift (shownValue s.env name) s := by
  have hbar : ∀ c ∈ name.toList, (c != '|') = true := by
    intro c hc
    rw [bne_iff_ne]
    rintro rfl
    exact not_mem_name h hascii (by decide) hc
  have htake : name.toList.takeWhile (· != '|') = name.toList :=
    List.takeWhile_eq_self_iff.mpr hbar
  have hdrop : name.toList.dropWhile (· != '|') = [] :=
    List.dropWhile_eq_nil_iff.mpr hbar
  show fillPlace template name s = _
  unfold fillPlace
  simp only [htake, hdrop, String.ofList_toList, trim_name h hascii, h]
  show EStateM.bind (lookup name) (fun v => lift v.render) s = _
  cases hget : s.env.get? name with
  | none => simp only [EStateM.bind, lookup_of_none hget, shownValue, hget]; rfl
  | some v => simp only [EStateM.bind, lookup_of_some hget, shownValue, hget]

/-- The parts of a row of strokes are filled in with what the strokes
show. -/
theorem fillAll_rowParts {ss : List Stroke} (h : ∀ x ∈ ss, x.IsPlain)
    (s : State) :
    fillAll template (rowParts ss) s
      = lift (shownAll (Stroke.shown s.env) ss) s := by
  fun_induction rowParts ss with
  | case1 ss ih =>
      have hrest := ih fun x hx => h x (by simp [hx])
      have hbreak : fillPart template (.literal "\r\n") s
          = lift (.ok "\r\n") s := rfl
      rw [fillAll_cons hbreak hrest, shownAll_cons, shownAll_cons]
      cases shownAll (Stroke.shown s.env) ss with
      | error e => rfl
      | ok text =>
          show lift (.ok ("\r" ++ "\n" ++ text)) s
            = lift (.ok ("\r" ++ ("\n" ++ text))) s
          rw [String.append_assoc]
  | case2 c ss _ ih =>
      have hrest := ih fun x hx => h x (List.mem_cons_of_mem _ hx)
      have hchar : fillPart template (.literal (String.singleton c)) s
          = lift (.ok (String.singleton c)) s := rfl
      rw [fillAll_cons hchar hrest, shownAll_cons]
      rfl
  | case3 name ss ih =>
      have hrest := ih fun x hx => h x (List.mem_cons_of_mem _ hx)
      have hname := h _ (List.mem_cons_self ..)
      rw [fillAll_cons (fillPart_place hname.1 hname.2 s) hrest,
        shownAll_cons]
      rfl
  | case4 => rfl

-- ============================================================== running

/-- The template of the strings with these strokes. -/
def rowTemplate (ss : List Stroke) : String :=
  String.ofList (ss.flatMap (Stroke.written isTemplateMark))

/-- The source of a string is one token. -/
theorem scan_quoted {split : Splitter} (hsplit : SplitsAscii split)
    {ss : List Stroke} (h : ∀ x ∈ ss, x.IsPlain) :
    scanWith split (String.ofList
        ('"' :: (ss.flatMap (Stroke.written isSourceMark) ++ ['"'])))
      = .ok [⟨.template (rowTemplate ss), 0⟩] := by
  have hfound : scanLexeme 0 (alone '"')
      (rowClusters isSourceMark ss ++ [alone '"'])
        = .ok (some (.template (rowTemplate ss)), []) := by
    have hinside : unescape (textOf (rowClusters isSourceMark ss)).toList
        = ss.flatMap (Stroke.written isTemplateMark) := by
      rw [textOf, flatMap_rowClusters rfl rfl, String.toList_ofList,
        unescape_row h]
    rw [rowTemplate, ← hinside]
    have hpunctuation : Token.punctuation? '"' = none := rfl
    have hbar : '"' ≠ '|' := by decide
    simp only [scanLexeme, alone, Cluster.char?, hpunctuation, if_neg hbar,
      if_true]
    rw [← alone, splitString?_row h]
  rw [scanWith, String.toList_ofList, split_quoted hsplit h,
    Token.scanFrom_cons hfound, scanFrom]
  rfl

/-- The template of a row is filled in with what its strokes show. -/
theorem fill_rowTemplate {ss : List Stroke} (h : ∀ x ∈ ss, x.IsPlain)
    (s : State) :
    fill (rowTemplate ss) s = lift (shownAll (Stroke.shown s.env) ss) s := by
  have hparts : parts (rowTemplate ss) = rowParts ss := by
    rw [parts, clusters, rowTemplate, String.toList_ofList,
      clustersOf_row rfl rfl h, partsFrom_row h]
  show fillAll (rowTemplate ss) (parts (rowTemplate ss)) s = _
  rw [hparts, fillAll_rowParts h]

/-- Running the source of a string shows its segments in order, and
changes nothing: the texts as they are, and the variables as their values
are written. It fails only if a variable has no value or its value cannot
be written, and then with the failure of the first such variable. This
needs no more of the clusters that the source is taken apart into than
that those of ASCII are its characters, which is so in programs and in
templates alike. -/
theorem run_quotation :
    SplitsAscii clustersOf
    ∧ ∀ split, SplitsAscii split →
      ∀ (lim : Limits) (segments : List Segment) (s : State),
        (∀ g ∈ segments, g.IsPlain) →
        (∀ texts, segments.mapM (Segment.shown s.env) = .ok texts →
          runWith split lim (quotation segments) s
            = .ok (.text (String.join texts)) s)
        ∧ ∀ e, segments.mapM (Segment.shown s.env) = .error e →
          runWith split lim (quotation segments) s
            = .error (.failed e) s := by
  refine ⟨splitsAscii_clustersOf, ?_⟩
  intro split hsplit lim segments s h
  have hplain := isPlain_strokes h
  have hparse : parseWith split (quotation segments)
      = .ok (.mk (.template
          (rowTemplate (segments.flatMap Segment.strokes))) []) := by
    rw [quotation, ← flatMap_strokes, parseWith, scan_quoted hsplit hplain]
    rfl
  have hrun : runWith split lim (quotation segments) s
      = EStateM.bind (fill (rowTemplate (segments.flatMap Segment.strokes)))
          (fun text => pure (.text text)) s := by
    rw [runWith, hparse]
    rfl
  rw [hrun]
  unfold EStateM.bind
  -- the strokes of a segment are shown as the segment is
  rw [fill_rowTemplate hplain, shownAll_strokes, shownAll]
  constructor
  · intro texts htexts
    rw [htexts]
    rfl
  · intro e he
    rw [he]
    rfl

/-- Every mark, a line break in two halves, and a variable whose value
looks like a place. -/
def marks : List Segment :=
  [.text "\\n\x7bx\x7d\"\r", .text "\n", .value "x_1", .text "\\"]

/-- The variable holds a backslash and a quote, and a place that names
it. -/
def marksState : State :=
  { env := ⟨[("x_1", .text "\\\"\x7bx_1\x7d")]⟩ }

theorem run_quotation_marks :
    (∀ g ∈ marks, g.IsPlain) ∧
    run ⟨none, 0⟩ (quotation marks) marksState
      = .ok (.text "\\n\x7bx\x7d\"\r\n\\\"\x7bx_1\x7d\\") marksState := by
  have hplain : ∀ g ∈ marks, g.IsPlain := by decide +kernel
  refine ⟨hplain, ?_⟩
  exact (run_quotation.2 clustersOf run_quotation.1 ⟨none, 0⟩ marks marksState
    hplain).1 ["\\n\x7bx\x7d\"\r", "\n", "\\\"\x7bx_1\x7d", "\\"] rfl

end Metrology.Program
