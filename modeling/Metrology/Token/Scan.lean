/-
From text to tokens. The text is read cluster by cluster, so that "µ" or
"°" is one character whatever it is made of. At each place one lexeme is
taken off, or a blank or comment skipped; either way the rest is shorter
(`length_scanLexeme`), so the scan ends. The first place where nothing
fits is the error.
-/
import Metrology.Token
import Metrology.Scale.Read

namespace Metrology.Token

open Text

-- ============================================================ classes

/-- Brackets and separators. -/
def punctuation? : Char → Option Lexeme
  | '(' => some (.opening .paren)
  | ')' => some (.closing .paren)
  | '\x7b' => some (.opening .brace)
  | '\x7d' => some (.closing .brace)
  | '[' => some (.opening .square)
  | ']' => some (.closing .square)
  | ',' => some .comma
  | ';' => some .semicolon
  | _ => none

/-- Words that belong to a construct. -/
def keywords : List String := ["in"]

/-- A digit or a decimal point. -/
def isNumberChar (c : Char) : Bool := isAsciiDigit c || c == '.'

/-- An apostrophe may group the digits of a number. -/
def isGroupedChar (c : Char) : Bool := isNumberChar c || c == '\''

/-- A letter of the Greek alphabet, without accents. -/
def isGreek (c : Char) : Bool :=
  inRanges [(0x391, 0x3A1), (0x3A3, 0x3A9), (0x3B1, 0x3C9)] c

/-- May begin a word: ASCII letters, the underscore, Greek letters and
the micro sign. -/
def isWordStart (c : Char) : Bool :=
  isAsciiLetter c || c == '_' || isGreek c || c == 'µ'

/-- May continue a word. -/
def isWordChar (c : Char) : Bool := isWordStart c || isAsciiDigit c

/-- Skipped between tokens. -/
def isGapChar (c : Char) : Bool :=
  c == ' ' || c == '\t' || c == '\r' || c == '\n'

/-- The cluster is a single character of a class. -/
def isA (p : Char → Bool) (c : Cluster) : Bool :=
  match c.char? with
  | some x => p x
  | none => false

/-- A blank cluster; a line break of two characters is one. -/
def isGap (c : Cluster) : Bool := isA isGapChar c || c == ⟨'\r', ['\n']⟩

-- ============================================================= blocks

/-- The clusters up to the next bar, and those behind it. -/
def splitUnit? (cs : List Cluster) : Option (List Cluster × List Cluster) :=
  match cs.dropWhile (!isA (· == '|') ·) with
  | [] => none
  | _ :: rest => some (cs.takeWhile (!isA (· == '|') ·), rest)

/-- The clusters up to the closing quote, and those behind it. A
backslash takes the cluster after it along. -/
def splitString? : List Cluster → Option (List Cluster × List Cluster)
  | [] => none
  | c :: cs =>
      if c.isChar '"' then some ([], cs)
      else if c.isChar '\\' then
        match cs with
        | [] => none
        | d :: ds =>
            (splitString? ds).map fun (inside, rest) => (c :: d :: inside, rest)
      else
        (splitString? cs).map fun (inside, rest) => (c :: inside, rest)

/-- The inside of a string with its escapes resolved: a line break, a tab
and a quote. Other pairs stay as they are for interpolation. -/
def unescape : List Char → List Char
  | '\\' :: 'n' :: cs => '\n' :: unescape cs
  | '\\' :: 't' :: cs => '\t' :: unescape cs
  | '\\' :: '"' :: cs => '"' :: unescape cs
  | '\\' :: c :: cs => '\\' :: c :: unescape cs
  | c :: cs => c :: unescape cs
  | [] => []

-- ============================================================= lexemes

/-- The lexeme of a word. -/
def word (text : String) : Lexeme :=
  match Operator.words.lookup text with
  | some op => .operator op
  | none => if keywords.contains text then .keyword text else .name text

/-- A unit symbol behind a number, which may go on in digits, and the
clusters after it. -/
def splitDecorator (cs : List Cluster) : List Cluster × List Cluster :=
  match cs with
  | [] => ([], [])
  | c :: _ =>
      if Scale.isSymbolCluster c then
        let p d := Scale.isSymbolCluster d || isA isAsciiDigit d
        (cs.takeWhile p, cs.dropWhile p)
      else ([], cs)

/-- A number from its first cluster on: digits and points, grouped or
not, then a unit symbol. -/
def scanNumber (cs : List Cluster) : Lexeme × List Cluster :=
  let digits := cs.takeWhile (isA isGroupedChar)
  let (decorator, rest) := splitDecorator (cs.dropWhile (isA isGroupedChar))
  (.number (textOf (digits.filter (isA isNumberChar))) (textOf decorator), rest)

/-- A lexeme that starts with neither a delimiter nor an operator: a
comment, a number, a word or a blank. -/
def scanPlain (position : Nat) (c : Cluster) (x : Char) (cs : List Cluster) :
    Except Error (Option Lexeme × List Cluster) :=
  if x = '\\' && cs.head?.any (·.isChar '\\') then
    .ok (none, cs.dropWhile (!·.isChar '\n'))
  else if isNumberChar x then
    let (l, rest) := scanNumber (c :: cs)
    .ok (some l, rest)
  else if isWordStart x then
    let rest := cs.takeWhile (isA isWordChar)
    .ok (some (word (textOf (c :: rest))), cs.dropWhile (isA isWordChar))
  else if isGapChar x then .ok (none, cs)
  else .error (.lex ⟨.unexpected, position, c.text⟩)

/-- The lexeme that starts at `c`, or nothing for a blank or a comment,
and the clusters after it. -/
def scanLexeme (position : Nat) (c : Cluster) (cs : List Cluster) :
    Except Error (Option Lexeme × List Cluster) :=
  match c.char? with
  | none =>
      if isGap c then .ok (none, cs)
      else .error (.lex ⟨.unexpected, position, c.text⟩)
  | some x =>
      match punctuation? x with
      | some l => .ok (some l, cs)
      | none =>
          if x = '|' then
            match splitUnit? cs with
            | none => .error (.lex ⟨.unterminatedUnit, position, c.text⟩)
            | some (inside, rest) => do
                let scale ← Scale.readBlock (textOf inside)
                return (some (.unitBlock (textOf inside) scale), rest)
          else if x = '"' then
            match splitString? cs with
            | none => .error (.lex ⟨.unterminatedString, position, c.text⟩)
            | some (inside, rest) =>
                let raw := (textOf inside).toList
                .ok (some (.template (String.ofList (unescape raw))), rest)
          else
            match Operator.lengthened? x, Operator.single? x with
            | some (short, long), _ =>
                match cs with
                | [] => .ok (some (.operator short), [])
                | d :: rest =>
                    if d.isChar '=' then .ok (some (.operator long), rest)
                    else .ok (some (.operator short), d :: rest)
            | none, some op => .ok (some (.operator op), cs)
            | none, none => scanPlain position c x cs

-- ============================================== the rest gets shorter

theorem length_splitUnit? {cs inside rest : List Cluster}
    (h : splitUnit? cs = some (inside, rest)) : rest.length < cs.length := by
  have hle := (List.dropWhile_sublist (l := cs) (!isA (· == '|') ·)).length_le
  unfold splitUnit? at h
  split at h
  · cases h
  · next hd =>
    cases h
    rw [hd, List.length_cons] at hle
    exact hle

theorem length_splitString? : ∀ {cs inside rest : List Cluster},
    splitString? cs = some (inside, rest) → rest.length < cs.length := by
  intro cs
  fun_induction splitString? cs with
  | case1 => intro _ _ h; cases h
  | case2 c cs _ => intro _ _ h; cases h; simp
  | case3 => intro _ _ h; cases h
  | case4 c _ _ d ds ih =>
    intro _ _ h
    obtain ⟨⟨i, r⟩, hi, he⟩ := Option.map_eq_some_iff.1 h
    cases he
    have := ih hi
    simp only [List.length_cons]
    omega
  | case5 c cs _ _ ih =>
    intro _ _ h
    obtain ⟨⟨i, r⟩, hi, he⟩ := Option.map_eq_some_iff.1 h
    cases he
    have := ih hi
    simp only [List.length_cons]
    omega

theorem length_splitDecorator (cs : List Cluster) :
    (splitDecorator cs).2.length ≤ cs.length := by
  unfold splitDecorator
  split
  · simp
  · split
    · exact (List.dropWhile_sublist _).length_le
    · exact Nat.le_refl _

theorem length_scanNumber {c : Cluster} {cs : List Cluster}
    (h : isA isGroupedChar c = true) :
    (scanNumber (c :: cs)).2.length ≤ cs.length := by
  have hd : (c :: cs).dropWhile (isA isGroupedChar)
      = cs.dropWhile (isA isGroupedChar) := by
    simp [h]
  have h₁ := length_splitDecorator (cs.dropWhile (isA isGroupedChar))
  have h₂ := (List.dropWhile_sublist (l := cs) (isA isGroupedChar)).length_le
  simp only [scanNumber, hd]
  omega

theorem length_scanPlain {position : Nat} {c : Cluster} {x : Char}
    {cs rest : List Cluster} {l : Option Lexeme} (hx : c.char? = some x)
    (h : scanPlain position c x cs = .ok (l, rest)) :
    rest.length ≤ cs.length := by
  unfold scanPlain at h
  split at h
  · cases h; exact (List.dropWhile_sublist _).length_le
  · split at h
    · next hn =>
      cases h
      apply length_scanNumber
      simp [isA, hx, isGroupedChar, hn]
    · split at h
      · cases h; exact (List.dropWhile_sublist _).length_le
      · split at h <;> cases h
        exact Nat.le_refl _

theorem length_scanLexeme {position : Nat} {c : Cluster}
    {cs rest : List Cluster} {l : Option Lexeme}
    (h : scanLexeme position c cs = .ok (l, rest)) :
    rest.length ≤ cs.length := by
  unfold scanLexeme at h
  split at h
  · split at h <;> cases h
    exact Nat.le_refl _
  · next x hx =>
    split at h
    · cases h; exact Nat.le_refl _
    · split at h
      · split at h
        · cases h
        · next hs =>
          have := length_splitUnit? hs
          cases hb : Scale.readBlock _ <;> rw [hb] at h <;> cases h
          omega
      · split at h
        · split at h
          · cases h
          · next hs =>
            have := length_splitString? hs
            cases h
            omega
        · split at h
          · split at h
            · cases h; simp
            · split at h <;> cases h <;> simp
          · cases h; exact Nat.le_refl _
          · exact length_scanPlain hx h

-- =============================================================== scan

/-- The tokens from a position onwards. -/
def scanFrom (position : Nat) (cs : List Cluster) : Except Error (List Token) :=
  match cs with
  | [] => .ok []
  | c :: cs =>
      match _h : scanLexeme position c cs with
      | .error e => .error e
      | .ok (found, rest) => do
          let tokens ← scanFrom (position + (cs.length + 1 - rest.length)) rest
          match found with
          | none => return tokens
          | some l => return ⟨l, position⟩ :: tokens
termination_by cs.length
decreasing_by
  have := length_scanLexeme _h
  simp only [List.length_cons]
  omega

/-- The tokens of a text that `split` takes apart. -/
def scanWith (split : Splitter) (source : String) :
    Except Error (List Token) :=
  scanFrom 0 (split source.toList)

/-- The tokens of a text. -/
def scan (source : String) : Except Error (List Token) :=
  scanWith clustersOf source

theorem scan_eq_scanFrom (source : String) :
    scan source = scanFrom 0 (clusters source) := rfl

end Metrology.Token
