/-
A block is the sequence of its programs. Texts that are programs by
themselves, each on lines of its own and with semicolons between them,
make a block in braces, and running the block is running the texts one
after another: the same value or the same failure, at the same place,
with the same variables and the same output.

Three facts meet. A line break ends whatever the text before it left
open, a comment in particular, so the tokens of the block are those of
the texts, further on (`scanFrom_statement`). A text that has a tree has
no semicolon outside its brackets, and other places do not change its
tree, so the parts of the block have the trees of the texts
(`exists_parts`). And a block evaluates its statements in order and keeps
the last value (`runBlock_operands`).
-/
import Metrology.Proofs.Program.Effects
import Metrology.Proofs.Token.Lines
import Metrology.Proofs.Tree.Places
import Metrology.Proofs.Tree.Writing

namespace Metrology.Program

open Metrology.Tree (Parts ReadAll Contents isSemicolon)
open Metrology.Token (scanWith scanFrom scanLexeme moved scans_of_scanFrom)
open Metrology.Text (Cluster Splitter CutsAtLineFeeds clustersOf lineFeed)

/-- The texts as the statements of a block, each on lines of its own. -/
def braced (ps : List String) : String :=
  "\x7b\n" ++ ";\n".intercalate (ps.map (· ++ "\n")) ++ "\x7d"

/-- Runs programs one after another until one of them stops, and keeps
the value of the last. -/
def runInTurn (split : Splitter) (lim : Limits) (ps : List String) :
    Action Value :=
  ps.foldlM (fun _ p => runWith split lim p) .void

-- ======================================================== the characters

/-- The characters of such a block behind its first line. -/
def statements : List String → List Char
  | [] => ['\x7d']
  | [p] => p.toList ++ '\n' :: ['\x7d']
  | p :: q :: ps => p.toList ++ '\n' :: ';' :: '\n' :: statements (q :: ps)

/-- The statements and the closing brace. -/
theorem toList_intercalate_append (ps : List String) :
    (";\n".intercalate (ps.map (· ++ "\n"))).toList ++ ['\x7d']
      = statements ps := by
  rw [String.toList_intercalate]
  fun_induction statements ps with
  | case1 => rfl
  | case2 p => simp
  | case3 p q ps ih =>
      rw [← ih]
      simp [List.intercalate_cons_cons]

/-- The block begins with a line of its own. -/
theorem toList_braced (ps : List String) :
    (braced ps).toList = '\x7b' :: '\n' :: statements ps := by
  rw [braced, String.toList_append, String.toList_append, List.append_assoc,
    ← toList_intercalate_append]
  rfl

-- ============================================================ the tokens

variable {split : Splitter}

/-- A character of punctuation before a line break is a token. -/
theorem scanFrom_punctuation (hsplit : CutsAtLineFeeds split) {x : Char}
    {l : Lexeme} (h : Token.punctuation? x = some l) (hx : x ≠ '\r') (k : Nat)
    (cs : List Char) :
    scanFrom k (split (x :: '\n' :: cs))
      = (scanFrom (k + 2) (split cs)).map (⟨l, k⟩ :: ·) := by
  have hlast : [x].getLast? ≠ some '\r' := by simpa using hx
  have hcut : split (x :: '\n' :: cs) = ⟨x, []⟩ :: lineFeed :: split cs := by
    have happend := hsplit.append_lineFeed hlast cs
    rwa [hsplit.singleton] at happend
  have hfound : ∀ ds, scanLexeme k ⟨x, []⟩ ds = .ok (some l, ds) := by
    intro ds
    simp only [scanLexeme, Cluster.char?, h]
  rw [hcut, Token.scanFrom_cons (hfound _)]
  have hlen : (lineFeed :: split cs).length + 1
      - (lineFeed :: split cs).length = 1 := by omega
  rw [hlen, Token.scanFrom_lineFeed]
  rfl

/-- The closing brace ends the block. -/
theorem scanFrom_closing (hsplit : CutsAtLineFeeds split) (k : Nat) :
    scanFrom k (split ['\x7d']) = .ok [⟨.closing .brace, k⟩] := by
  have hfound : scanLexeme k ⟨'\x7d', []⟩ []
      = .ok (some (.closing .brace), []) := rfl
  rw [hsplit.singleton, Token.scanFrom_cons hfound, scanFrom]
  rfl

/-- A text and a line break give the tokens of the text, further on. -/
theorem scanFrom_statement (hsplit : CutsAtLineFeeds split) {p : String}
    {tokens : List Token} (hp : scanWith split p = .ok tokens)
    (hend : p.toList.getLast? ≠ some '\r') (k : Nat) (cs : List Char) :
    scanFrom k (split (p.toList ++ '\n' :: cs))
      = (scanFrom (k + (split p.toList).length + 1) (split cs)).map
          (tokens.map (moved k) ++ ·) := by
  have hscan : scanFrom 0 (split p.toList) = .ok tokens := hp
  have hmoved := Token.scanFrom_add 0 k (split p.toList)
  rw [Nat.zero_add, hscan] at hmoved
  rw [hsplit.append_lineFeed hend]
  exact (scans_of_scanFrom hmoved).append_lineFeed (split cs)

/-- What it takes for a text to have a tree. -/
theorem parseWith_eq_ok {p : String} {t : Tree}
    (h : parseWith split p = .ok t) :
    ∃ tokens, scanWith split p = .ok tokens ∧ Tree.parse tokens = .ok t := by
  obtain ⟨tokens, htokens, h⟩ := bind_eq_ok.mp h
  refine ⟨tokens, htokens, ?_⟩
  cases ht : Tree.parse tokens with
  | error e => rw [ht] at h; cases h
  | ok t' => rw [ht] at h; cases h; rfl

/-- Texts that are programs have trees. -/
theorem exists_trees {ps : List String}
    (h : ∀ p ∈ ps, ∃ t, parseWith split p = .ok t) :
    ∃ ts, List.Forall₂ (fun p t => parseWith split p = .ok t) ps ts := by
  induction ps with
  | nil => exact ⟨[], .nil⟩
  | cons p ps ih =>
      obtain ⟨t, ht⟩ := h p (List.mem_cons_self ..)
      obtain ⟨ts, hts⟩ := ih fun x hx => h x (List.mem_cons_of_mem _ hx)
      exact ⟨t :: ts, .cons ht hts⟩

/-- Behind the first line of the block stand the trees of the texts,
between semicolons, and the closing brace. -/
theorem exists_parts (hsplit : CutsAtLineFeeds split) {ps : List String}
    {ts : List Tree}
    (h : List.Forall₂ (fun p t => parseWith split p = .ok t) ps ts) :
    ps ≠ [] → (∀ p ∈ ps, p.toList.getLast? ≠ some '\r') →
    ∀ (k : Nat), ∃ inside parts q,
      scanFrom k (split (statements ps))
          = .ok (inside ++ [⟨.closing .brace, q⟩])
        ∧ Parts isSemicolon inside parts ∧ ReadAll parts ts := by
  induction h with
  | nil => intro hne; exact absurd rfl hne
  | @cons p t ps ts hp hps ih =>
      intro _ hend k
      obtain ⟨tokens, hscan, ht⟩ := parseWith_eq_ok hp
      -- the text stands further on in the block, which its tree does not
      -- show
      have ht' : Tree.parse (tokens.map (moved k)) = .ok t :=
        Tree.parse_map (Token.lexeme_moved k) ht
      have hfree : Tree.IsFree isSemicolon (tokens.map (moved k)) :=
        Tree.isFree_of_parse Tree.isStray_isSemicolon ht'
      have hline := scanFrom_statement hsplit hscan
        (hend p (List.mem_cons_self ..)) k
      cases ps with
      | nil =>
          cases hps
          refine ⟨_, [tokens.map (moved k)], k + (split p.toList).length + 1,
            ?_, .last hfree, .cons ht' .nil⟩
          rw [statements, hline, scanFrom_closing hsplit]
          rfl
      | cons p' ps =>
          obtain ⟨inside, parts, q, hrest, hparts, hread⟩ :=
            ih (List.cons_ne_nil _ _)
              (fun x hx => hend x (List.mem_cons_of_mem _ hx))
              (k + (split p.toList).length + 1 + 2)
          refine ⟨tokens.map (moved k)
              ++ ⟨.semicolon, k + (split p.toList).length + 1⟩ :: inside,
            tokens.map (moved k) :: parts, q, ?_,
            .cons hfree rfl hparts, .cons ht' hread⟩
          rw [statements, hline, scanFrom_punctuation hsplit rfl (by decide),
            hrest]
          simp [Except.map]

-- ============================================================== the runs

/-- A block runs its statements as the texts are run, one after the
other. -/
theorem runBlock_operands (lim : Limits) {ps : List String} {ts : List Tree}
    (h : List.Forall₂ (fun p t => parseWith split p = .ok t) ps ts) :
    ∀ (last : Value),
      runBlock last (operands lim ts)
        = ps.foldlM (fun _ p => runWith split lim p) last := by
  induction h with
  | nil => intro last; rfl
  | cons hp _ ih =>
      intro last
      rw [operands, runBlock, List.foldlM_cons, runWith_eq_evaluate hp]
      exact congrArg _ (funext ih)

/-- The inside of a block, cut at its semicolons. Nothing between the
braces is no statement rather than an empty one, which makes no
difference to the value. -/
theorem exists_contents {inside : List Token} {parts : List (List Token)}
    {ts : List Tree} (hparts : Parts isSemicolon inside parts)
    (hread : ReadAll parts ts) :
    ∃ ts', Contents isSemicolon inside ts' ∧ ∀ lim,
      runBlock .void (operands lim ts') = runBlock .void (operands lim ts) := by
  by_cases hne : inside = []
  · subst hne
    rw [Tree.ReadAll.eq_of_nil hparts hread]
    exact ⟨[], .none, fun lim => rfl⟩
  · exact ⟨ts, .some hne hparts hread, fun lim => rfl⟩

/-- The block has the trees between its semicolons as statements. -/
theorem parse_braced (hsplit : CutsAtLineFeeds split) {ps : List String}
    {inside : List Token} {q : Nat} {ts : List Tree}
    (hscan : scanFrom 2 (split (statements ps))
      = .ok (inside ++ [⟨.closing .brace, q⟩]))
    (hin : Contents isSemicolon inside ts) :
    parseWith split (braced ps) = .ok (.mk .block ts) := by
  have htokens : scanWith split (braced ps)
      = .ok (Tree.enclosed .brace 0 inside q) := by
    rw [scanWith, toList_braced, scanFrom_punctuation hsplit rfl (by decide),
      hscan]
    rfl
  have htree : Tree.parse (Tree.enclosed .brace 0 inside q)
      = .ok (.mk .block ts) := (Tree.Atom.block hin).parse
  rw [parseWith, htokens, ok_bind, htree]
  rfl

/-- Texts that are programs by themselves, none ending in a carriage
return, run as the statements of one block as they run one after another.
This needs no more of the clusters than that a line break is one, which is
so of those that programs are taken apart into. -/
theorem run_braced_eq_runInTurn :
    CutsAtLineFeeds clustersOf
    ∧ ∀ split, CutsAtLineFeeds split → ∀ (lim : Limits) (ps : List String),
      (∀ p ∈ ps, p.toList.getLast? ≠ some '\r') →
      (∀ p ∈ ps, ∃ t, parseWith split p = .ok t) →
      ∀ s : State,
        runWith split lim (braced ps) s = runInTurn split lim ps s := by
  refine ⟨Text.cutsAtLineFeeds_clustersOf, ?_⟩
  intro split hsplit lim ps hend hparse s
  obtain ⟨ts, hts⟩ := exists_trees hparse
  by_cases hne : ps = []
  · subst hne
    have hscan : scanFrom 2 (split (statements []))
        = .ok ([] ++ [⟨.closing .brace, 2⟩]) := scanFrom_closing hsplit 2
    rw [runWith_eq_evaluate (parse_braced hsplit hscan .none)]
    rfl
  · obtain ⟨inside, parts, q, hscan, hparts, hread⟩ :=
      exists_parts hsplit hts hne hend 2
    obtain ⟨ts', hin, hsame⟩ := exists_contents hparts hread
    rw [runWith_eq_evaluate (parse_braced hsplit hscan hin)]
    have hblock : evaluate lim (.mk .block ts')
        = runBlock .void (operands lim ts') := by
      rw [evaluate]
      rfl
    rw [hblock, hsame, runBlock_operands lim hts, runInTurn]

/-- Texts with a comment at the end, with nothing, with a comment alone,
with a semicolon in a string and with a block. -/
def remarks : List String :=
  ["x = 2 \\\\ two; or so", "", "\\\\ \x7b", "\"a;b\"", "\x7bx = x + 1; x\x7d"]

theorem run_braced_eq_runInTurn_remarks :
    (∀ p ∈ remarks, p.toList.getLast? ≠ some '\r') ∧
    (∀ p ∈ remarks, (parse p).isOk = true) ∧
    run ⟨none, 0⟩ (braced remarks) {}
      = runInTurn clustersOf ⟨none, 0⟩ remarks {} := by
  have hend : ∀ p ∈ remarks, p.toList.getLast? ≠ some '\r' := by
    decide +kernel
  have hparse : ∀ p ∈ remarks, (parse p).isOk = true := by decide +kernel
  refine ⟨hend, hparse, run_braced_eq_runInTurn.2 clustersOf
    run_braced_eq_runInTurn.1 ⟨none, 0⟩ remarks hend (fun p hp => ?_) {}⟩
  have hok := hparse p hp
  cases ht : parse p with
  | error e => rw [ht] at hok; cases hok
  | ok t => exact ⟨t, ht⟩

end Metrology.Program
