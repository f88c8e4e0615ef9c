/-
How binary operators group. A row of operands with operators between them
has a tree for each way to put brackets into it; precedence picks one. It
is stated as a grammar with one rule per tier (`Groups`): an expression
of a tier is an expression of the next tighter tier, or an expression of
the same tier, an operator of the tier and an expression of the next
tighter tier. So operators of a tier group from the left, and the tiers
are nested in the order of the list.

The passes work the other way around, from the tightest tier to the
loosest, each turning a row into a shorter one (`joinTier`). The two
agree because a tier's operators are its own: an operator of a looser
tier splits a row into two that a tighter pass treats separately
(`joinTier_append`, `joinTier_eq_append`). Hence a row has exactly one
tree, the one the passes find (`groups_iff_foldl_joinRow`).
-/
import Metrology.Proofs.Tree.Passes
import Mathlib.Data.List.Induction

namespace Metrology.Tree

/-- The binary operators by tier, loosest first. -/
def precedence : List (List Operator) :=
  [ [.lor, .lxor],
    [.land, .lnand],
    [.equal, .notEqual, .greater, .greaterEqual, .less, .lessEqual],
    [.plus, .minus],
    [.plusMinus],
    [.times, .divide],
    [.power] ]

/-- The passes go through the tiers the other way. -/
theorem precedence_eq : precedence = tiers.reverse := rfl

-- ========================================================== the grammar

/-- An operand and the operators behind it, each with its own operand,
group to a tree. -/
inductive Groups : List (List Operator) → Tree → List (Operator × Tree) →
    Tree → Prop
  | operand {t : Tree} : Groups [] t [] t
  | tighter {ops : List Operator} {rest : List (List Operator)} {t u : Tree}
      {links : List (Operator × Tree)} :
      Groups rest t links u → Groups (ops :: rest) t links u
  | binary {op : Operator} {ops : List Operator}
      {rest : List (List Operator)} {t l s r : Tree}
      {links links' : List (Operator × Tree)} :
      Groups (ops :: rest) t links l → op ∈ ops → Groups rest s links' r →
      Groups (ops :: rest) t (links ++ (op, s) :: links')
        (.mk (.operator op) [l, r])

-- ==================================================== one tier at a time

/-- The row with the operators of a tier grouped. -/
def joinTier (ops : List Operator) :
    Tree → List (Operator × Tree) → Tree × List (Operator × Tree)
  | t, [] => (t, [])
  | t, (op, r) :: links =>
      if op ∈ ops then joinTier ops (.mk (.operator op) [t, r]) links
      else
        let row := joinTier ops r links
        (t, (op, row.1) :: row.2)

variable {ops : List Operator}

/-- An operator of the tier takes the operands beside it. -/
theorem joinTier_cons_mem {op : Operator} (h : op ∈ ops) (t r : Tree)
    (links : List (Operator × Tree)) :
    joinTier ops t ((op, r) :: links)
      = joinTier ops (.mk (.operator op) [t, r]) links := by
  rw [joinTier, if_pos h]

/-- Any other is left, and the operand behind it starts anew. -/
theorem joinTier_cons_not_mem {op : Operator} (h : op ∉ ops) (t r : Tree)
    (links : List (Operator × Tree)) :
    joinTier ops t ((op, r) :: links)
      = (t, (op, (joinTier ops r links).1) :: (joinTier ops r links).2) := by
  rw [joinTier, if_neg h]

/-- A row that groups to one operand may stand before the rest. -/
theorem joinTier_append_of_nil :
    ∀ (xs : List (Operator × Tree)) (t : Tree)
      (ys : List (Operator × Tree)),
      (joinTier ops t xs).2 = [] →
      joinTier ops t (xs ++ ys) = joinTier ops (joinTier ops t xs).1 ys := by
  intro xs
  induction xs with
  | nil => intro t ys _; rfl
  | cons x xs ih =>
      intro t ys h
      obtain ⟨op, r⟩ := x
      by_cases hop : op ∈ ops
      · rw [joinTier_cons_mem hop] at h ⊢
        rw [List.cons_append, joinTier_cons_mem hop, ih _ _ h]
      · rw [joinTier_cons_not_mem hop] at h
        cases h

/-- An operator of another tier divides a row. -/
theorem joinTier_append {op : Operator} (hop : op ∉ ops) (s : Tree)
    (ys : List (Operator × Tree)) :
    ∀ (xs : List (Operator × Tree)) (t : Tree),
      joinTier ops t (xs ++ (op, s) :: ys)
        = ((joinTier ops t xs).1,
            (joinTier ops t xs).2
              ++ (op, (joinTier ops s ys).1) :: (joinTier ops s ys).2) := by
  intro xs
  induction xs with
  | nil => intro t; exact joinTier_cons_not_mem hop t s ys
  | cons x xs ih =>
      intro t
      obtain ⟨op', r⟩ := x
      by_cases hop' : op' ∈ ops
      · rw [List.cons_append, joinTier_cons_mem hop', joinTier_cons_mem hop',
          ih]
      · rw [List.cons_append, joinTier_cons_not_mem hop',
          joinTier_cons_not_mem hop', ih]
        rfl

/-- An operator that is left in a grouped row divided the row before. -/
theorem joinTier_eq_append {op : Operator} {s' : Tree}
    {bs : List (Operator × Tree)} :
    ∀ (links : List (Operator × Tree)) (t : Tree)
      (as : List (Operator × Tree)),
      (joinTier ops t links).2 = as ++ (op, s') :: bs →
      ∃ xs s ys, links = xs ++ (op, s) :: ys
        ∧ joinTier ops t xs = ((joinTier ops t links).1, as)
        ∧ joinTier ops s ys = (s', bs) := by
  intro links
  induction links with
  | nil => intro t as h; simp [joinTier] at h
  | cons x links ih =>
      intro t as h
      obtain ⟨op', r⟩ := x
      by_cases hop' : op' ∈ ops
      · rw [joinTier_cons_mem hop'] at h ⊢
        obtain ⟨xs, s, ys, rfl, hxs, hys⟩ := ih _ _ h
        exact ⟨(op', r) :: xs, s, ys, rfl,
          by rw [joinTier_cons_mem hop', hxs], hys⟩
      · rw [joinTier_cons_not_mem hop'] at h ⊢
        cases as with
        | nil =>
            obtain ⟨hhead, htail⟩ := List.cons.inj h
            cases hhead
            exact ⟨[], r, links, rfl, rfl, by rw [← htail]⟩
        | cons a as =>
            obtain ⟨rfl, htail⟩ := List.cons.inj h
            obtain ⟨xs, s, ys, rfl, hxs, hys⟩ := ih _ _ htail
            exact ⟨(op', r) :: xs, s, ys, rfl,
              by rw [joinTier_cons_not_mem hop', hxs], hys⟩

/-- Grouping a tier takes its operators out of the row. -/
theorem map_fst_joinTier (links : List (Operator × Tree)) :
    ∀ (t : Tree), (joinTier ops t links).2.map Prod.fst
      = (links.map Prod.fst).filter fun op => decide (op ∉ ops) := by
  induction links with
  | nil => intro t; rfl
  | cons x links ih =>
      intro t
      obtain ⟨op, r⟩ := x
      by_cases hop : op ∈ ops
      · rw [joinTier_cons_mem hop, ih]
        simp [hop]
      · rw [joinTier_cons_not_mem hop]
        simp [hop, ih]

/-- Nothing is left of a row of operators of the tier. -/
theorem joinTier_snd_eq_nil_iff {t : Tree}
    {links : List (Operator × Tree)} :
    (joinTier ops t links).2 = [] ↔ ∀ x ∈ links, x.1 ∈ ops := by
  rw [← List.map_eq_nil_iff, map_fst_joinTier, List.filter_eq_nil_iff]
  simp

-- ==================================================== the tightest tier

/-- Operators of a single tier group from the left. -/
theorem groups_singleton {t : Tree} (links : List (Operator × Tree)) :
    (∀ x ∈ links, x.1 ∈ ops) →
    Groups [ops] t links (joinTier ops t links).1 := by
  induction links using List.reverseRecOn with
  | nil => intro _; exact .tighter .operand
  -- the last operator is the outermost, so the induction is from the
  -- right
  | append_singleton links x ih =>
      intro h
      obtain ⟨op, r⟩ := x
      have hlinks : ∀ x ∈ links, x.1 ∈ ops :=
        fun x hx => h x (List.mem_append_left _ hx)
      have hop : op ∈ ops := h (op, r) (by simp)
      rw [joinTier_append_of_nil _ _ _ (joinTier_snd_eq_nil_iff.mpr hlinks),
        joinTier_cons_mem hop]
      exact .binary (ih hlinks) hop .operand

/-- With no tier left a row is one operand. -/
theorem groups_nil_iff {t u : Tree} {links : List (Operator × Tree)} :
    Groups [] t links u ↔ (t, links) = (u, []) := by
  constructor
  · intro h
    cases h
    rfl
  · intro h
    cases h
    exact .operand

/-- The tree of a row is that of the row with its tightest tier grouped,
if no looser tier shares the operators. -/
theorem Groups.joinTier {looser : List (List Operator)}
    (hdisj : ∀ tier ∈ looser, ∀ op ∈ tier, op ∉ ops) {u t : Tree}
    {links : List (Operator × Tree)}
    (h : Groups (looser ++ [ops]) t links u) :
    Groups looser (joinTier ops t links).1 (joinTier ops t links).2 u := by
  generalize hw : looser ++ [ops] = tiers at h
  induction h generalizing looser with
  | operand => simp at hw
  | @tighter ops' tiers t u links h ih =>
      cases looser with
      | nil =>
          cases hw
          cases groups_nil_iff.mp h
          exact .operand
      | cons tier looser =>
          cases hw
          exact .tighter (ih
            (fun tier' ht => hdisj tier' (List.mem_cons_of_mem _ ht)) rfl)
  | @binary op ops' tiers t l s r links links' hl hop hr ihl ihr =>
      cases looser with
      | nil =>
          cases hw
          cases groups_nil_iff.mp hr
          -- the operands before the last operator are one already
          have hlinks := groups_nil_iff.mp (ihl hdisj rfl)
          obtain ⟨hfst, hsnd⟩ := Prod.mk.inj hlinks
          rw [joinTier_append_of_nil _ _ _ hsnd, joinTier_cons_mem hop, hfst]
          exact .operand
      | cons tier looser =>
          cases hw
          have hnot : op ∉ ops := hdisj ops' (List.mem_cons_self ..) op hop
          rw [joinTier_append hnot]
          exact .binary (ihl hdisj rfl) hop (ihr
            (fun tier' ht => hdisj tier' (List.mem_cons_of_mem _ ht)) rfl)

/-- A tree of the row with a tier grouped is one of the row itself. -/
theorem Groups.of_joinTier {looser : List (List Operator)} {u t t' : Tree}
    {links links' : List (Operator × Tree)} (h : Groups looser t' links' u)
    (hjoin : Tree.joinTier ops t links = (t', links')) :
    Groups (looser ++ [ops]) t links u := by
  induction h generalizing t links with
  | operand =>
      have hnil := joinTier_snd_eq_nil_iff.mp (congrArg Prod.snd hjoin)
      have hgroups := groups_singleton (t := t) links hnil
      rwa [hjoin] at hgroups
  | tighter h ih => exact .tighter (ih hjoin)
  | @binary op ops' tiers t' l s r xs ys hl hop hr ihl ihr =>
      obtain ⟨as, s', bs, rfl, has, hbs⟩ :=
        joinTier_eq_append _ _ _ (congrArg Prod.snd hjoin)
      rw [congrArg Prod.fst hjoin] at has
      exact .binary (ihl has) hop (ihr hbs)

/-- Grouping the tightest tier first leaves the tree of a row the same,
provided no looser tier shares its operators. -/
theorem groups_append_iff {looser : List (List Operator)}
    (hdisj : ∀ tier ∈ looser, ∀ op ∈ tier, op ∉ ops) {u t : Tree}
    {links : List (Operator × Tree)} :
    Groups (looser ++ [ops]) t links u
      ↔ Groups looser (joinTier ops t links).1 (joinTier ops t links).2 u :=
  ⟨fun h => h.joinTier hdisj, fun h => h.of_joinTier rfl⟩

-- ============================================================ all tiers

/-- A row as a pair, with one tier grouped. -/
def joinRow (row : Tree × List (Operator × Tree)) (ops : List Operator) :
    Tree × List (Operator × Tree) :=
  joinTier ops row.1 row.2

/-- The tree of a row is found by grouping tier after tier, the tightest
first. -/
theorem groups_iff_foldl_joinRow {u : Tree} :
    ∀ (order : List (List Operator)),
      order.Pairwise (fun tier looser => ∀ op ∈ looser, op ∉ tier) →
      ∀ (row : Tree × List (Operator × Tree)),
        Groups order.reverse row.1 row.2 u
          ↔ order.foldl joinRow row = (u, []) := by
  intro order
  induction order with
  | nil => intro _ row; exact groups_nil_iff
  | cons tier order ih =>
      intro hpair row
      obtain ⟨hdisj, hpair⟩ := List.pairwise_cons.mp hpair
      rw [List.reverse_cons, List.foldl_cons, ← ih hpair]
      exact groups_append_iff fun looser hl =>
        hdisj looser (List.mem_reverse.mp hl)

/-- The tiers of the language have no operator in common. -/
theorem pairwise_tiers :
    tiers.Pairwise fun tier looser => ∀ op ∈ looser, op ∉ tier := by
  decide

/-- The tree of a row is what the tiers leave of it, in their order. -/
theorem groups_precedence_iff {t u : Tree}
    {links : List (Operator × Tree)} :
    Groups precedence t links u ↔ tiers.foldl joinRow (t, links) = (u, []) := by
  rw [precedence_eq]
  exact groups_iff_foldl_joinRow tiers pairwise_tiers (t, links)

/-- Operators left in a row after some tiers are of none of them. -/
theorem not_mem_of_mem_foldl_joinRow :
    ∀ (order : List (List Operator)) (row : Tree × List (Operator × Tree)),
      ∀ op ∈ (order.foldl joinRow row).2.map Prod.fst,
        op ∈ row.2.map Prod.fst ∧ op ∉ order.flatten := by
  intro order
  induction order with
  | nil => intro row op hop; exact ⟨hop, by simp⟩
  | cons tier order ih =>
      intro row op hop
      obtain ⟨hrow, horder⟩ := ih _ op hop
      rw [joinRow, map_fst_joinTier, List.mem_filter] at hrow
      refine ⟨hrow.1, ?_⟩
      rw [List.flatten_cons, List.mem_append]
      rintro (h | h)
      · exact absurd h (by simpa using hrow.2)
      · exact horder h

/-- A row of binary operators has exactly one tree. -/
theorem existsUnique_groups (t : Tree) {links : List (Operator × Tree)}
    (h : ∀ x ∈ links, x.1 ∈ precedence.flatten) :
    ∃ u, ∀ v, Groups precedence t links v ↔ v = u := by
  rcases hrow : tiers.foldl joinRow (t, links) with ⟨u, rest⟩
  have hrest : rest = [] := by
    rw [← List.map_eq_nil_iff (f := Prod.fst), List.eq_nil_iff_forall_not_mem]
    intro op hop
    have hmem : op ∈ (tiers.foldl joinRow (t, links)).2.map Prod.fst := by
      rw [hrow]
      exact hop
    obtain ⟨hlinks, hnot⟩ := not_mem_of_mem_foldl_joinRow _ _ op hmem
    obtain ⟨x, hx, rfl⟩ := List.mem_map.mp hlinks
    have := h x hx
    rw [precedence_eq, List.mem_flatten] at this
    obtain ⟨tier, htier, hop⟩ := this
    exact hnot (List.mem_flatten.mpr
      ⟨tier, List.mem_reverse.mp htier, hop⟩)
  refine ⟨u, fun v => ?_⟩
  rw [groups_precedence_iff, hrow, hrest]
  constructor
  · intro h
    exact (Prod.mk.inj h).1.symm
  · rintro rfl
    rfl

-- ========================================================= on the level

/-- A row as items. -/
def rowItems (row : Tree × List (Operator × Tree)) : Level :=
  .done row.1 :: linkItems row.2

/-- On the level, the pass for a tier groups the tier. -/
theorem attachBinaryTo_links (links : List (Operator × Tree)) :
    ∀ (t : Tree), attachBinaryTo ops (.done t) (linkItems links)
      = .ok (rowItems (joinTier ops t links)) := by
  induction links with
  | nil => intro t; rfl
  | cons x links ih =>
      intro t
      obtain ⟨op, r⟩ := x
      show attachBinaryTo ops (.done t)
        (.waiting (.operator op) :: .done r :: linkItems links) = _
      by_cases hop : op ∈ ops
      · have hw : (Item.waiting (.operator op)).isWaiting ops = true :=
          Item.isWaiting_iff.mpr ⟨op, hop, rfl⟩
        rw [attachBinaryTo, if_pos hw, joinTier_cons_mem hop]
        exact ih _
      · have hw : (Item.waiting (.operator op)).isWaiting ops = false := by
          simpa using hop
        rw [attachBinaryTo, hw, attachBinaryTo, joinTier_cons_not_mem hop]
        show (do return Item.done t :: (← (do
          return Item.waiting (.operator op) ::
            (← attachBinaryTo ops (.done r) (linkItems links))))) = _
        rw [ih]
        rfl

/-- The passes over the tiers group the tiers of a row. -/
theorem foldlM_attachBinary :
    ∀ (order : List (List Operator)) (row : Tree × List (Operator × Tree)),
      order.foldlM (fun level ops => attachBinary ops level) (rowItems row)
        = .ok (rowItems (order.foldl joinRow row)) := by
  intro order
  induction order with
  | nil => intro row; rfl
  | cons tier order ih =>
      intro row
      rw [List.foldlM_cons, List.foldl_cons]
      have h : attachBinary tier (rowItems row)
          = .ok (rowItems (joinRow row tier)) := attachBinaryTo_links _ _
      rw [h]
      exact ih _

/-- The items of two rows of operators. -/
@[simp] theorem linkItems_append (xs ys : List (Operator × Tree)) :
    linkItems (xs ++ ys) = linkItems xs ++ linkItems ys :=
  List.flatMap_append

/-- A level that a tier turns into a row was a row, with operators of the
tier in it beside those that are left. -/
theorem rowItems_of_gathers (links' : List (Operator × Tree)) :
    ∀ (t' : Tree) {level : Level},
      Gathers (Joined ops) level (rowItems (t', links')) →
      ∃ t links, level = rowItems (t, links)
        ∧ ∀ x ∈ links, x.1 ∈ ops ∨ x.1 ∈ links'.map Prod.fst := by
  induction links' with
  | nil =>
      intro t' level h
      rcases h.of_done_cons with
        ⟨rest, rfl, hrest⟩ | ⟨stretch, rest, rfl, hm, hrest⟩
      · cases hrest
        exact ⟨t', [], rfl, by simp⟩
      · obtain ⟨t, links, -, hops, rfl, -⟩ := hm
        cases hrest
        exact ⟨t, links, by rw [List.append_nil]; rfl,
          fun x hx => .inl (hops x hx)⟩
  | cons x links' ih =>
      intro t' level h
      obtain ⟨op, r'⟩ := x
      -- behind the first operand there is an operator that was left
      have htail : ∀ {rest : Level},
          Gathers (Joined ops) rest (linkItems ((op, r') :: links')) →
          ∃ links, rest = linkItems links ∧ ∀ x ∈ links,
            x.1 ∈ ops ∨ x.1 ∈ ((op, r') :: links').map Prod.fst := by
        intro rest hrest
        obtain ⟨tail, rfl, htail⟩ := hrest.of_waiting_cons
        obtain ⟨r, links, rfl, hops⟩ := ih r' htail
        refine ⟨(op, r) :: links, rfl, fun x hx => ?_⟩
        rcases List.mem_cons.mp hx with rfl | hx
        · exact .inr (by simp)
        · rcases hops x hx with h | h
          · exact .inl h
          · exact .inr (List.mem_cons_of_mem _ h)
      rcases h.of_done_cons with
        ⟨rest, rfl, hrest⟩ | ⟨stretch, rest, rfl, hm, hrest⟩
      · obtain ⟨links, rfl, hops⟩ := htail hrest
        exact ⟨t', links, rfl, hops⟩
      · obtain ⟨links, rfl, hops⟩ := htail hrest
        obtain ⟨t, links₀, -, hops₀, rfl, -⟩ := hm
        refine ⟨t, links₀ ++ links, ?_, fun x hx => ?_⟩
        · rw [rowItems, linkItems_append]
          rfl
        · rcases List.mem_append.mp hx with hx | hx
          · exact .inl (hops₀ x hx)
          · exact hops x hx

/-- A level that the tiers turn into a single tree was a row of their
operators. -/
theorem rowItems_of_foldlM {u : Tree} :
    ∀ (order : List (List Operator)) {level : Level},
      order.foldlM (fun level ops => attachBinary ops level) level
        = .ok [.done u] →
      ∃ t links, level = rowItems (t, links)
        ∧ ∀ x ∈ links, x.1 ∈ order.flatten := by
  intro order
  induction order with
  | nil =>
      intro level h
      cases h
      exact ⟨u, [], rfl, by simp⟩
  | cons tier order ih =>
      intro level h
      rw [List.foldlM_cons] at h
      obtain ⟨level', hpass, h⟩ := bind_eq_ok.mp h
      obtain ⟨t', links', rfl, hops'⟩ := ih h
      obtain ⟨t, links, rfl, hops⟩ :=
        rowItems_of_gathers links' t' (gathers_of_attachBinary hpass)
      refine ⟨t, links, rfl, fun x hx => ?_⟩
      rw [List.flatten_cons, List.mem_append]
      rcases hops x hx with h | h
      · exact .inl h
      · obtain ⟨y, hy, hxy⟩ := List.mem_map.mp h
        exact .inr (hxy ▸ hops' y hy)

end Metrology.Tree
