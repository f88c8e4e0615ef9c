/-
Markup: text with tags in square brackets that style what stands between
them. Here only the text matters. A tag is an opening bracket, a letter
or one of a few signs, and anything but an opening bracket up to the
closing one; backslashes before it count in pairs, and an odd one makes
the tag literal. `escape` makes a text safe to put between tags.
-/
import Metrology.Console.Plain

namespace Metrology.Console

/-- A character by itself, or a tag with the backslashes before it. -/
inductive Piece where
  | char (c : Char)
  | tag (slashes : Nat) (inside : List Char)

/-- May be the first character of a tag. -/
def isTagStart (c : Char) : Bool :=
  ('a' ≤ c && c ≤ 'z') || c == '#' || c == '/' || c == '@'

/-- What a tag holds and what follows it, from its opening bracket. -/
def tag? : List Char → Option (List Char × List Char)
  | '[' :: c :: cs =>
      let inside := cs.takeWhile fun d => d != '[' && d != ']'
      match cs.dropWhile fun d => d != '[' && d != ']' with
      | ']' :: rest => if isTagStart c then some (c :: inside, rest) else none
      | _ => none
  | _ => none

/-- A tag with the backslashes before it, and what follows. -/
def slashedTag? (cs : List Char) :
    Option (Nat × List Char × List Char) :=
  (tag? (cs.dropWhile (· == '\\'))).map fun (inside, rest) =>
    ((cs.takeWhile (· == '\\')).length, inside, rest)

theorem length_tag? {cs inside rest : List Char}
    (h : tag? cs = some (inside, rest)) : rest.length < cs.length := by
  unfold tag? at h
  split at h
  · next c cs' =>
    have hle := (List.dropWhile_sublist (l := cs')
      (fun d => d != '[' && d != ']')).length_le
    dsimp only at h
    split at h
    · next hd =>
      split at h
      · cases h
        rw [hd] at hle
        simp only [List.length_cons] at hle ⊢
        omega
      · cases h
    · cases h
  · cases h

theorem length_slashedTag? {cs inside rest : List Char} {n : Nat}
    (h : slashedTag? cs = some (n, inside, rest)) :
    rest.length < cs.length := by
  obtain ⟨⟨i, r⟩, ht, he⟩ := Option.map_eq_some_iff.1 h
  cases he
  have h₁ := length_tag? ht
  have h₂ := (List.dropWhile_sublist (l := cs) (· == '\\')).length_le
  omega

/-- The pieces of a text, from the left. -/
def pieces (cs : List Char) : List Piece :=
  match cs with
  | [] => []
  | c :: cs' =>
      match _h : slashedTag? (c :: cs') with
      | some (n, inside, rest) => .tag n inside :: pieces rest
      | none => .char c :: pieces cs'
termination_by cs.length
decreasing_by
  · have := length_slashedTag? _h
    simpa using this
  · simp

/-- A literal tag. -/
def bracketed (inside : List Char) : List Char := '[' :: inside ++ [']']

-- ============================================================ escaping

/-- The piece with its backslashes doubled and a tag made literal. -/
def Piece.escape : Piece → List Char
  | .char c => [c]
  | .tag n inside => List.replicate (2 * n + 1) '\\' ++ bracketed inside

/-- A single backslash at the end is doubled, lest it take effect on what
follows. -/
def closeSlash (cs : List Char) : List Char :=
  match cs.reverse with
  | '\\' :: '\\' :: _ => cs
  | '\\' :: _ => cs ++ ['\\']
  | _ => cs

/-- The text as markup that shows it. -/
def escape (s : String) : String :=
  String.ofList (closeSlash ((pieces s.toList).flatMap Piece.escape))

-- =========================================================== rendering

/-- The text of a tag with backslashes before it: half of them, and the
tag itself if one is left over. -/
def tagText (n : Nat) (inside : List Char) : List Char :=
  List.replicate (n / 2) '\\' ++ if n % 2 = 1 then bracketed inside else []

/-- The text of pieces. A backslash before a bracket that opens no tag is
dropped. -/
def piecesText : List Piece → List Char
  | [] => []
  | .tag n inside :: rest => tagText n inside ++ piecesText rest
  | .char '\\' :: .char '[' :: rest => '[' :: piecesText rest
  | .char c :: rest => c :: piecesText rest

/-- The text that markup shows. -/
def shown (markup : String) : String :=
  String.ofList (plainChars (piecesText (pieces markup.toList)))

end Metrology.Console
