/-
Extended grapheme clusters: what a reader takes for one character. A
cluster is a code point with those that attach to it, so it is never
empty. Splitting a text into clusters loses nothing: the clusters'
characters in a row are the text (`flatten_clusters`).

A border is decided from left to right. Besides the class of the
character before it, two facts about the open cluster matter: whether its
regional indicators are still unpaired, and whether it ends in a
pictograph, possibly extended, that a joiner can tie to the next one. The
rules and the classes are those of Unicode 15.0, where conjuncts are not
kept together yet.
-/
import Metrology.Text.Break

namespace Metrology.Text

/-- A first code point and the code points attached to it. -/
structure Cluster where
  first : Char
  rest : List Char := []
deriving DecidableEq, Repr

namespace Cluster

def toList (c : Cluster) : List Char := c.first :: c.rest

def text (c : Cluster) : String := String.ofList c.toList

/-- The character, if the cluster is a single one. -/
def char? (c : Cluster) : Option Char :=
  match c.rest with
  | [] => some c.first
  | _ :: _ => none

/-- The cluster is just this character. -/
def isChar (c : Cluster) (x : Char) : Bool := c.char? == some x

/-- One more code point attached at the end. -/
def push (c : Cluster) (x : Char) : Cluster := { c with rest := c.rest ++ [x] }

theorem toList_push (c : Cluster) (x : Char) :
    (c.push x).toList = c.toList ++ [x] := rfl

theorem char?_eq_some_iff {c : Cluster} {x : Char} :
    c.char? = some x ↔ c = ⟨x, []⟩ := by
  obtain ⟨y, ys⟩ := c
  cases ys <;> simp [char?]

end Cluster

-- ============================================================ borders

/-- What is open at a border: the class of the last character, whether an
odd number of regional indicators ends the cluster, whether it ends in an
extended pictograph, and whether a joiner follows that. -/
structure OpenCluster where
  last : BreakClass
  unpaired : Bool := false
  pictograph : Bool := false
  tied : Bool := false

/-- The state after a cluster's first character. -/
def OpenCluster.start (k : BreakClass) : OpenCluster :=
  { last := k, unpaired := k == .regional, pictograph := k == .pictograph }

/-- The state after one more character of the same cluster. -/
def OpenCluster.push (o : OpenCluster) (k : BreakClass) : OpenCluster where
  last := k
  unpaired := k == .regional && !o.unpaired
  pictograph := k == .pictograph || (k == .extend && o.pictograph)
  tied := k == .joiner && o.pictograph

/-- The next character belongs to the open cluster. -/
def OpenCluster.joins (o : OpenCluster) (next : BreakClass) : Bool :=
  match o.last, next with
  | .carriageReturn, .lineFeed => true
  | .carriageReturn, _ | .lineFeed, _ | .control, _ => false
  | _, .carriageReturn | _, .lineFeed | _, .control => false
  | .hangulL, .hangulL | .hangulL, .hangulV => true
  | .hangulL, .hangulLV | .hangulL, .hangulLVT => true
  | .hangulLV, .hangulV | .hangulV, .hangulV => true
  | .hangulLV, .hangulT | .hangulV, .hangulT => true
  | .hangulLVT, .hangulT | .hangulT, .hangulT => true
  | _, .extend | _, .joiner | _, .spacingMark => true
  | .prepend, _ => true
  | .joiner, .pictograph => o.tied
  | .regional, .regional => o.unpaired
  | _, _ => false

/-- Clusters from an open one onwards. -/
def clustersFrom (cur : Cluster) (o : OpenCluster) :
    List Char → List Cluster
  | [] => [cur]
  | c :: cs =>
      if o.joins (breakClass c) then
        clustersFrom (cur.push c) (o.push (breakClass c)) cs
      else
        cur :: clustersFrom ⟨c, []⟩ (.start (breakClass c)) cs

/-- The clusters of a list of characters. -/
def clustersOf : List Char → List Cluster
  | [] => []
  | c :: cs => clustersFrom ⟨c, []⟩ (.start (breakClass c)) cs

/-- A way to take a row of characters apart into clusters. -/
abbrev Splitter := List Char → List Cluster

/-- The clusters of a text, in order. -/
def clusters (s : String) : List Cluster := clustersOf s.toList

/-- The text a row of clusters spells. -/
def textOf (cs : List Cluster) : String :=
  String.ofList (cs.flatMap Cluster.toList)

-- ==================================================== nothing is lost

theorem flatten_clustersFrom (cs : List Char) :
    ∀ (cur : Cluster) (o : OpenCluster),
      (clustersFrom cur o cs).flatMap Cluster.toList = cur.toList ++ cs := by
  induction cs with
  | nil => intro cur o; simp [clustersFrom]
  | cons c cs ih =>
    intro cur o
    simp only [clustersFrom]
    split
    · simp [ih, Cluster.toList_push]
    · simp [ih, Cluster.toList]

theorem flatten_clustersOf (cs : List Char) :
    (clustersOf cs).flatMap Cluster.toList = cs := by
  cases cs with
  | nil => rfl
  | cons c cs => simp [clustersOf, flatten_clustersFrom, Cluster.toList]

/-- The clusters' characters in a row are the text. -/
theorem flatten_clusters (s : String) :
    (clusters s).flatMap Cluster.toList = s.toList :=
  flatten_clustersOf s.toList

end Metrology.Text
