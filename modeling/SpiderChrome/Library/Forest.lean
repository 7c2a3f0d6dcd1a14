import SpiderChrome.Library.Table
import Mathlib.Logic.Relation

/-!
# Forests kept in a table

A table of nodes in which every node lists its children and names its parent. `Rooted` is the invariant of such a table: the two links agree, and every node hangs below one root. Acyclicity is a consequence, `Rooted.acyclic`. `Pruned` says what is left of a table after the subtrees under some nodes have been taken out of it, in whatever order that was done, and the lemmas `Rooted.prune`, `Rooted.collapse`, `Rooted.attach` and `Rooted.replace` carry the invariant through the ways a tree changes.

The node type is a parameter, with one function that reads the children of a node and one that reads its parent.
-/

namespace Forest

variable {K N : Type} [DecidableEq K] (children : N → List K) (parent : N → Option K)

/-- A node of the table lists the second key as a child. -/
def Child (t : Table K N) (p c : K) : Prop := ∃ n, t.get p = some n ∧ c ∈ children n

/-- The second key is the first or hangs below it. -/
def Below (t : Table K N) : K → K → Prop := Relation.ReflTransGen (Child children t)

/-- What is left of a table once the subtrees under `tops` are gone. -/
structure Pruned (before after : Table K N) (tops : List K) : Prop where
  kept : after.Sub before
  gone : ∀ k ∈ tops, after.get k = none
  closed : ∀ k n, before.get k = some n → after.get k = none → ∀ c ∈ children n, after.get c = none
  below : ∀ k n, before.get k = some n → after.get k = none → ∃ top ∈ tops, Below children before top k

/-- The two links agree, and every node hangs below the root. -/
structure Rooted (t : Table K N) (root : Option K) : Prop where
  linked : ∀ p n, t.get p = some n →
    ∀ c, c ∈ children n ↔ ∃ m, t.get c = some m ∧ parent m = some p
  reached : ∀ k n, t.get k = some n →
    ∃ r m, root = some r ∧ t.get r = some m ∧ parent m = none ∧ Below children t r k

variable {children parent}

theorem Child.mono {t t' : Table K N} (h : t.Sub t') {p c : K} (hchild : Child children t p c) :
    Child children t' p c := by
  obtain ⟨n, hn, hc⟩ := hchild
  exact ⟨n, h p n hn, hc⟩

theorem Below.mono {t t' : Table K N} (h : t.Sub t') {a b : K} (hbelow : Below children t a b) :
    Below children t' a b :=
  Relation.ReflTransGen.mono (fun _ _ => Child.mono h) _ _ hbelow

/-! ### Pruning -/

theorem Pruned.nil (t : Table K N) : Pruned children t t [] where
  kept := Table.Sub.refl t
  gone := fun _ hk => absurd hk List.not_mem_nil
  closed := fun k n hn hnone => by rw [hn] at hnone; cases hnone
  below := fun k n hn hnone => by rw [hn] at hnone; cases hnone

theorem Pruned.of_absent {t : Table K N} {k : K} (h : t.get k = none) :
    Pruned children t t [k] where
  kept := Table.Sub.refl t
  gone := fun x hx => by rw [List.mem_singleton.1 hx, h]
  closed := fun x n hn hnone => by rw [hn] at hnone; cases hnone
  below := fun x n hn hnone => by rw [hn] at hnone; cases hnone

/-- Pruning one subtree and then others prunes them all. -/
theorem Pruned.append {before middle after : Table K N} {tops tops' : List K}
    (h : Pruned children before middle tops) (h' : Pruned children middle after tops') :
    Pruned children before after (tops ++ tops') where
  kept := h'.kept.trans h.kept
  gone := fun k hk => by
    rcases List.mem_append.1 hk with hk | hk
    · exact h'.kept.get_eq_none (h.gone k hk)
    · exact h'.gone k hk
  closed := fun k n hn hnone c hc => by
    cases hmiddle : middle.get k with
    | none => exact h'.kept.get_eq_none (h.closed k n hn hmiddle c hc)
    | some m =>
      have hsame : n = m := Option.some.inj (hn.symm.trans (h.kept k m hmiddle))
      exact h'.closed k m hmiddle hnone c (hsame ▸ hc)
  below := fun k n hn hnone => by
    cases hmiddle : middle.get k with
    | none =>
      obtain ⟨top, htop, hbelow⟩ := h.below k n hn hmiddle
      exact ⟨top, List.mem_append_left _ htop, hbelow⟩
    | some m =>
      obtain ⟨top, htop, hbelow⟩ := h'.below k m hmiddle hnone
      exact ⟨top, List.mem_append_right _ htop, hbelow.mono h.kept⟩

/-- A fold of a function that prunes one subtree prunes the subtrees of the whole list, if what the function asks of a table is still true of every table with fewer entries. -/
theorem pruned_foldl {prune : Table K N → K → Table K N} (ready : Table K N → K → Prop)
    (hready : ∀ t t' k, t'.Sub t → ready t k → ready t' k)
    (hprune : ∀ t k, ready t k → Pruned children t (prune t k) [k])
    (ks : List K) (t : Table K N) (hks : ∀ k ∈ ks, ready t k) :
    Pruned children t (ks.foldl prune t) ks := by
  induction ks generalizing t with
  | nil => exact Pruned.nil t
  | cons k ks ih =>
    have hfirst := hprune t k (hks k List.mem_cons_self)
    exact hfirst.append (ih (prune t k) fun k' hk' =>
      hready t _ k' hfirst.kept (hks k' (List.mem_cons_of_mem k hk')))

/-- A node goes together with the subtrees of its children. -/
theorem Pruned.of_children {before after : Table K N} {top : K} {n : N}
    (hn : before.get top = some n) (h : Pruned children (before.remove top) after (children n)) :
    Pruned children before after [top] where
  kept := h.kept.trans (Table.remove_sub before top)
  gone := fun k hk => by
    rw [List.mem_singleton.1 hk]
    exact h.kept.get_eq_none (Table.get_remove_self before top)
  closed := fun k m hm hnone c hc => by
    by_cases hk : k = top
    · have hsame : m = n := Option.some.inj (hm.symm.trans (hk ▸ hn))
      exact h.gone c (hsame ▸ hc)
    · exact h.closed k m ((Table.get_remove_of_ne before hk).trans hm) hnone c hc
  below := fun k m hm hnone => by
    refine ⟨top, List.mem_singleton_self top, ?_⟩
    by_cases hk : k = top
    · rw [hk]
      exact Relation.ReflTransGen.refl
    · obtain ⟨c, hc, hbelow⟩ := h.below k m ((Table.get_remove_of_ne before hk).trans hm) hnone
      exact Relation.ReflTransGen.head ⟨n, hn, hc⟩ (hbelow.mono (Table.remove_sub before top))

theorem Pruned.get_eq_none_of_below {before after : Table K N} {tops : List K}
    (h : Pruned children before after tops) {top k : K} (htop : top ∈ tops)
    (hbelow : Below children before top k) : after.get k = none := by
  induction hbelow with
  | refl => exact h.gone top htop
  | tail _ hchild ih =>
    obtain ⟨n, hn, hc⟩ := hchild
    exact h.closed _ n hn ih _ hc

/-- Exactly the pruned subtree is gone, and nothing else has changed. -/
theorem Pruned.get_eq {before after : Table K N} {top : K} (h : Pruned children before after [top])
    (k : K) [Decidable (Below children before top k)] :
    after.get k = if Below children before top k then none else before.get k := by
  split
  · rename_i hbelow
    exact h.get_eq_none_of_below (List.mem_singleton_self top) hbelow
  · rename_i hbelow
    cases hbefore : before.get k with
    | none => exact h.kept.get_eq_none hbefore
    | some n =>
      cases hafter : after.get k with
      | some m => exact (h.kept k m hafter).symm.trans hbefore |>.symm ▸ rfl
      | none =>
        obtain ⟨top', htop', hbelow'⟩ := h.below k n hbefore hafter
        rw [List.mem_singleton.1 htop'] at hbelow'
        exact absurd hbelow' hbelow

theorem Pruned.get_of_not_below {before after : Table K N} {top : K}
    (h : Pruned children before after [top]) {k : K} (hbelow : ¬Below children before top k) :
    after.get k = before.get k := by
  classical
  rw [h.get_eq k, if_neg hbelow]

theorem Pruned.not_below {before after : Table K N} {top : K}
    (h : Pruned children before after [top]) {k : K} {n : N} (hk : after.get k = some n) :
    ¬Below children before top k := by
  intro hbelow
  rw [h.get_eq_none_of_below (List.mem_singleton_self top) hbelow] at hk
  cases hk

/-! ### Rooted tables -/

namespace Rooted

variable {t after : Table K N} {root : Option K}

theorem parent_unique (h : Rooted children parent t root) {p q c : K}
    (hp : Child children t p c) (hq : Child children t q c) : p = q := by
  obtain ⟨n, hn, hc⟩ := hp
  obtain ⟨n', hn', hc'⟩ := hq
  obtain ⟨m, hm, hparent⟩ := (h.linked p n hn c).1 hc
  obtain ⟨m', hm', hparent'⟩ := (h.linked q n' hn' c).1 hc'
  have hsame : m = m' := Option.some.inj (hm.symm.trans hm')
  rw [hsame] at hparent
  exact Option.some.inj (hparent.symm.trans hparent')

theorem not_child_root (h : Rooted children parent t root) {p r : K} {m : N}
    (hm : t.get r = some m) (hparent : parent m = none) : ¬Child children t p r := by
  rintro ⟨n, hn, hc⟩
  obtain ⟨m', hm', hparent'⟩ := (h.linked p n hn r).1 hc
  rw [Option.some.inj (hm'.symm.trans hm), hparent] at hparent'
  cases hparent'

theorem parent_mem (h : Rooted children parent t root) {k p : K} {n : N} (hn : t.get k = some n)
    (hp : parent n = some p) : ∃ m, t.get p = some m := by
  obtain ⟨r, m, _, hm, hnone, hbelow⟩ := h.reached k n hn
  rcases Relation.ReflTransGen.cases_tail hbelow with heq | ⟨q, _, hchild⟩
  · rw [heq, hm] at hn
    rw [← Option.some.inj hn, hnone] at hp
    cases hp
  · obtain ⟨n', hn', hc⟩ := hchild
    obtain ⟨m', hm', hparent⟩ := (h.linked q n' hn' k).1 hc
    rw [hn] at hm'
    rw [← Option.some.inj hm', hp] at hparent
    exact ⟨n', Option.some.inj hparent ▸ hn'⟩

/-- No node hangs below itself: its path from the root could be walked back for ever. -/
theorem acyclic (h : Rooted children parent t root) (k : K) :
    ¬Relation.TransGen (Child children t) k k := by
  intro hcycle
  obtain ⟨c, ⟨n, hn, -⟩, -⟩ := Relation.TransGen.head'_iff.1 hcycle
  obtain ⟨r, m, -, hm, hparent, hbelow⟩ := h.reached k n hn
  clear hn
  induction hbelow with
  | refl =>
    obtain ⟨p, _, hchild⟩ := Relation.TransGen.tail'_iff.1 hcycle
    exact h.not_child_root hm hparent hchild
  | @tail p k _ hchild ih =>
    obtain ⟨q, hpath, hlast⟩ := Relation.TransGen.tail'_iff.1 hcycle
    rw [h.parent_unique hlast hchild] at hpath
    exact ih (Relation.TransGen.head' hchild hpath)

theorem not_below_parent (h : Rooted children parent t root) {p c : K}
    (hchild : Child children t p c) : ¬Below children t c p := fun hbelow =>
  h.acyclic c (Relation.TransGen.tail' hbelow hchild)

/-- A change that keeps both links of every node keeps the invariant. -/
theorem update (h : Rooted children parent t root) (k : K) (f : N → N)
    (hchildren : ∀ n, children (f n) = children n) (hparent : ∀ n, parent (f n) = parent n) :
    Rooted children parent (t.update k f) root := by
  have hget : ∀ x, ∃ g : N → N, (∀ n, children (g n) = children n) ∧
      (∀ n, parent (g n) = parent n) ∧ (t.update k f).get x = (t.get x).map g := by
    intro x
    by_cases hx : x = k
    · exact ⟨f, hchildren, hparent, by rw [Table.get_update, if_pos hx]⟩
    · exact ⟨id, fun _ => rfl, fun _ => rfl, by
        rw [Table.get_update, if_neg hx, Option.map_id, id]⟩
  have hchild : ∀ p c, Child children t p c → Child children (t.update k f) p c := by
    rintro p c ⟨n, hn, hc⟩
    obtain ⟨g, hg, _, heq⟩ := hget p
    exact ⟨g n, by rw [heq, hn, Option.map_some], by rw [hg]; exact hc⟩
  constructor
  · intro p n hn c
    obtain ⟨g, hg, _, heq⟩ := hget p
    rw [heq, Option.map_eq_some_iff] at hn
    obtain ⟨n', hn', rfl⟩ := hn
    obtain ⟨g', _, hg', heq'⟩ := hget c
    rw [hg, h.linked p n' hn' c]
    constructor
    · rintro ⟨m, hm, hp⟩
      exact ⟨g' m, by rw [heq', hm, Option.map_some], by rw [hg', hp]⟩
    · rintro ⟨m, hm, hp⟩
      rw [heq', Option.map_eq_some_iff] at hm
      obtain ⟨m', hm', rfl⟩ := hm
      exact ⟨m', hm', by rw [← hg', hp]⟩
  · intro x n hn
    obtain ⟨g, _, _, heq⟩ := hget x
    rw [heq, Option.map_eq_some_iff] at hn
    obtain ⟨n', hn', _⟩ := hn
    obtain ⟨r, m, hr, hm, hp, hbelow⟩ := h.reached x n' hn'
    obtain ⟨g', _, hg', heq'⟩ := hget r
    exact ⟨r, g' m, hr, by rw [heq', hm, Option.map_some], by rw [hg', hp],
      Relation.ReflTransGen.mono hchild _ _ hbelow⟩

end Rooted

/-! ### How a tree changes -/

/-- A path that ends outside a subtree never enters it, so it survives a change that keeps the links outside. -/
theorem Below.outside {t result : Table K N} {k r x : K}
    (hkeep : ∀ y z, ¬Below children t k z → Child children t y z → Child children result y z)
    (hpath : Below children t r x) (hx : ¬Below children t k x) : Below children result r x := by
  induction hpath with
  | refl => exact Relation.ReflTransGen.refl
  | @tail y z _ hchild ih =>
    have hy : ¬Below children t k y := fun hbelow => hx (hbelow.tail hchild)
    exact (ih hy).tail (hkeep y z hx hchild)

namespace Rooted

variable {t after : Table K N} {root : Option K} {k : K} {n : N}

theorem of_empty (h : ∀ x, t.get x = none) : Rooted children parent t root where
  linked := fun p n hn => by rw [h p] at hn; cases hn
  reached := fun x n hn => by rw [h x] at hn; cases hn

/-- A root that names no node leaves no node at all. -/
theorem get_eq_none (h : Rooted children parent t root)
    (hroot : ∀ r, root = some r → t.get r = none) (x : K) : t.get x = none := by
  cases hx : t.get x with
  | none => rfl
  | some m =>
    obtain ⟨r, m', hr, hm', _⟩ := h.reached x m hx
    rw [hroot r hr] at hm'
    cases hm'

/-- The one node without a parent is the root. -/
theorem root_of_parent (h : Rooted children parent t root) (hn : t.get k = some n)
    (hparent : parent n = none) : root = some k := by
  obtain ⟨r, m, hr, _, _, hpath⟩ := h.reached k n hn
  rcases Relation.ReflTransGen.cases_tail hpath with heq | ⟨q, _, hchild⟩
  · rw [hr, heq]
  · exact absurd hchild (h.not_child_root hn hparent)

theorem below_root (h : Rooted children parent t root) (hroot : root = some k) {x : K} {m : N}
    (hm : t.get x = some m) : Below children t k x := by
  obtain ⟨r, _, hr, _, _, hpath⟩ := h.reached x m hm
  rw [hroot] at hr
  rw [Option.some.inj hr]
  exact hpath

/-- Nothing but the root has the root below it. -/
theorem eq_of_below_root (h : Rooted children parent t root) {x : K} {m : N} (hroot : root = some x)
    (hm : t.get x = some m) (hbelow : Below children t k x) : x = k := by
  rcases Relation.ReflTransGen.cases_tail hbelow with heq | ⟨p, -, hchild⟩
  · exact heq
  · obtain ⟨r, m', hr, hm', hparent, -⟩ := h.reached x m hm
    rw [hroot] at hr
    rw [Option.some.inj hr] at hchild
    exact absurd hchild (h.not_child_root hm' hparent)

/-- The parent of a node outside a subtree, or of the top of the subtree, is outside as well. -/
theorem not_below_of_child (h : Rooted children parent t root) {y z : K}
    (hchild : Child children t y z) (hz : ¬Below children t k z ∨ z = k) :
    ¬Below children t k y := by
  rcases hz with hz | rfl
  · exact fun hbelow => hz (hbelow.tail hchild)
  · exact h.not_below_parent hchild

/-- The children of a node outside a subtree are outside as well, its top apart. -/
theorem not_below_child (h : Rooted children parent t root) {y z : K}
    (hchild : Child children t y z) (hy : ¬Below children t k y) (hz : z ≠ k) :
    ¬Below children t k z := by
  intro hbelow
  rcases Relation.ReflTransGen.cases_tail hbelow with heq | ⟨q, hpath, hlast⟩
  · exact hz heq
  · rw [h.parent_unique hlast hchild] at hpath
    exact hy hpath

/-- Pruning the root empties the table. -/
theorem prune_root (h : Rooted children parent t root) (hprune : Pruned children t after [k])
    (hroot : root = some k) (x : K) : after.get x = none := by
  cases hx : after.get x with
  | none => rfl
  | some m => exact absurd (h.below_root hroot (hprune.kept x m hx)) (hprune.not_below hx)

/-- Pruning a node that has a parent and unlinking it there keeps the tree. -/
theorem prune (h : Rooted children parent t root) (hprune : Pruned children t after [k])
    (hn : t.get k = some n) {p : K} (hp : parent n = some p) (unlink : N → N)
    (hchildren : ∀ m c, c ∈ children (unlink m) ↔ c ∈ children m ∧ c ≠ k)
    (hparent : ∀ m, parent (unlink m) = parent m) :
    Rooted children parent (after.update p unlink) root := by
  have hkp : Child children t p k := by
    obtain ⟨m, hm⟩ := h.parent_mem hn hp
    exact ⟨m, hm, (h.linked p m hm k).2 ⟨n, hn, hp⟩⟩
  have hne : k ≠ p := fun heq => h.not_below_parent hkp (heq ▸ Relation.ReflTransGen.refl)
  -- A node of the result is a node of `t` outside the subtree, unlinked from `k`.
  have hback : ∀ x m, (after.update p unlink).get x = some m → ∃ m', t.get x = some m' ∧
      ¬Below children t k x ∧ parent m = parent m' ∧
      ∀ c, c ∈ children m ↔ c ∈ children m' ∧ (x = p → c ≠ k) := by
    intro x m hm
    rw [Table.get_update] at hm
    split at hm
    · rename_i hx
      rw [Option.map_eq_some_iff] at hm
      obtain ⟨m', hm', rfl⟩ := hm
      refine ⟨m', hprune.kept x m' hm', hprune.not_below hm', hparent m', fun c => ?_⟩
      rw [hchildren]
      exact and_congr_right fun _ => ⟨fun hc _ => hc, fun hc => hc hx⟩
    · rename_i hx
      refine ⟨m, hprune.kept x m hm, hprune.not_below hm, rfl, fun c => ?_⟩
      exact ⟨fun hc => ⟨hc, fun heq => absurd heq hx⟩, fun hc => hc.1⟩
  have hforth : ∀ x m, t.get x = some m → ¬Below children t k x →
      ∃ m', (after.update p unlink).get x = some m' ∧ parent m' = parent m ∧
      ∀ c, c ∈ children m' ↔ c ∈ children m ∧ (x = p → c ≠ k) := by
    intro x m hm hx
    rw [Table.get_update, hprune.get_of_not_below hx, hm]
    split
    · rename_i heq
      refine ⟨unlink m, rfl, hparent m, fun c => ?_⟩
      rw [hchildren]
      exact and_congr_right fun _ => ⟨fun hc _ => hc, fun hc => hc heq⟩
    · rename_i hxp
      exact ⟨m, rfl, rfl, fun c => ⟨fun hc => ⟨hc, fun heq => absurd heq hxp⟩, fun hc => hc.1⟩⟩
  constructor
  · intro x m hm c
    obtain ⟨m', hm', hx, _, hc⟩ := hback x m hm
    rw [hc, h.linked x m' hm' c]
    constructor
    · rintro ⟨⟨l, hl, hlp⟩, hck⟩
      have hchild : Child children t x c := ⟨m', hm', (h.linked x m' hm' c).2 ⟨l, hl, hlp⟩⟩
      have hne' : c ≠ k := by
        intro heq
        exact hck (h.parent_unique (heq ▸ hchild) hkp) heq
      obtain ⟨l', hl', hlp', _⟩ := hforth c l hl (h.not_below_child hchild hx hne')
      exact ⟨l', hl', hlp'.trans hlp⟩
    · rintro ⟨l, hl, hlp⟩
      obtain ⟨l', hl', hck, hlp', _⟩ := hback c l hl
      exact ⟨⟨l', hl', hlp' ▸ hlp⟩, fun _ heq => hck (heq ▸ Relation.ReflTransGen.refl)⟩
  · intro x m hm
    obtain ⟨m', hm', hx, _, _⟩ := hback x m hm
    obtain ⟨r, l, hr, hl, hlp, hpath⟩ := h.reached x m' hm'
    have hkr : ¬Below children t k r := fun hbelow => hx (hbelow.trans hpath)
    obtain ⟨l', hl', hlp', _⟩ := hforth r l hl hkr
    refine ⟨r, l', hr, hl', hlp'.trans hlp, hpath.outside ?_ hx⟩
    rintro y z hz hchild
    have hy := h.not_below_of_child hchild (Or.inl hz)
    obtain ⟨s, hs, hcs⟩ := hchild
    obtain ⟨s', hs', _, hc'⟩ := hforth y s hs hy
    exact ⟨s', hs', (hc' z).2 ⟨hcs, fun _ heq => hz (heq ▸ Relation.ReflTransGen.refl)⟩⟩

/-- Dropping everything below a node, and leaving the node in place, keeps the tree. -/
theorem collapse (h : Rooted children parent t root) (hprune : Pruned children t after [k])
    (hn : t.get k = some n) {leaf : N} (hleaf : children leaf = [])
    (hparent : parent leaf = parent n) : Rooted children parent (after.set k leaf) root := by
  have hself : ¬Child children t k k := fun hchild =>
    h.not_below_parent hchild Relation.ReflTransGen.refl
  have hback : ∀ x m, (after.set k leaf).get x = some m → x ≠ k →
      t.get x = some m ∧ ¬Below children t k x := by
    intro x m hm hx
    rw [Table.get_set_of_ne _ _ hx] at hm
    exact ⟨hprune.kept x m hm, hprune.not_below hm⟩
  have hforth : ∀ x, ¬Below children t k x → (after.set k leaf).get x = t.get x := by
    intro x hx
    have hxk : x ≠ k := fun heq => hx (heq ▸ Relation.ReflTransGen.refl)
    rw [Table.get_set_of_ne _ _ hxk, hprune.get_of_not_below hx]
  have hchild' : ∀ y z, Child children t y z → ¬Below children t k y →
      Child children (after.set k leaf) y z := by
    rintro y z ⟨s, hs, hz⟩ hy
    exact ⟨s, (hforth y hy).trans hs, hz⟩
  constructor
  · intro x m hm c
    by_cases hx : x = k
    · rw [hx, Table.get_set_self] at hm
      rw [← Option.some.inj hm, hleaf, hx]
      refine ⟨fun hc => absurd hc List.not_mem_nil, ?_⟩
      rintro ⟨l, hl, hlp⟩
      by_cases hck : c = k
      · rw [hck, Table.get_set_self] at hl
        rw [← Option.some.inj hl, hparent] at hlp
        exact absurd ⟨n, hn, (h.linked k n hn k).2 ⟨n, hn, hlp⟩⟩ hself
      · obtain ⟨hl', hbelow⟩ := hback c l hl hck
        refine absurd (Relation.ReflTransGen.single ?_) hbelow
        exact ⟨n, hn, (h.linked k n hn c).2 ⟨l, hl', hlp⟩⟩
    · obtain ⟨hm', hbelow⟩ := hback x m hm hx
      rw [h.linked x m hm' c]
      by_cases hck : c = k
      · rw [hck, Table.get_set_self]
        constructor
        · rintro ⟨l, hl, hlp⟩
          rw [Option.some.inj (hl.symm.trans hn)] at hlp
          exact ⟨leaf, rfl, hparent.trans hlp⟩
        · rintro ⟨l, hl, hlp⟩
          rw [← Option.some.inj hl, hparent] at hlp
          exact ⟨n, hn, hlp⟩
      · constructor
        · rintro ⟨l, hl, hlp⟩
          have hchild : Child children t x c := ⟨m, hm', (h.linked x m hm' c).2 ⟨l, hl, hlp⟩⟩
          exact ⟨l, (hforth c (h.not_below_child hchild hbelow hck)).trans hl, hlp⟩
        · rintro ⟨l, hl, hlp⟩
          exact ⟨l, (hback c l hl hck).1, hlp⟩
  · intro x m hm
    have hpath' : ∀ r x, Below children t r x → ¬Below children t k x →
        Below children (after.set k leaf) r x := fun r x hpath hx =>
      hpath.outside (fun y z hz hchild =>
        hchild' y z hchild (h.not_below_of_child hchild (Or.inl hz))) hx
    obtain ⟨m', hm'⟩ : ∃ m', t.get x = some m' := by
      by_cases hx : x = k
      · exact ⟨n, hx ▸ hn⟩
      · exact ⟨m, (hback x m hm hx).1⟩
    obtain ⟨r, l, hr, hl, hlp, hpath⟩ := h.reached x m' hm'
    obtain ⟨l', hl', hlp'⟩ : ∃ l', (after.set k leaf).get r = some l' ∧ parent l' = none := by
      by_cases hrk : r = k
      · rw [hrk] at hl
        exact ⟨leaf, by rw [hrk, Table.get_set_self],
          by rw [hparent, Option.some.inj (hn.symm.trans hl), hlp]⟩
      · refine ⟨l, (hforth r fun hbelow => ?_).trans hl, hlp⟩
        rcases Relation.ReflTransGen.cases_tail hbelow with heq | ⟨q, _, hchild⟩
        · exact hrk heq
        · exact h.not_child_root hl hlp hchild
    refine ⟨r, l', hr, hl', hlp', ?_⟩
    by_cases hx : x = k
    · rcases Relation.ReflTransGen.cases_tail hpath with heq | ⟨q, hpath, hchild⟩
      · rw [heq]
        exact Relation.ReflTransGen.refl
      · have hq := h.not_below_of_child hchild (Or.inr hx)
        exact (hpath' r q hpath hq).tail (hchild' q x hchild hq)
    · exact hpath' r x hpath (hback x m hm hx).2

/-- A new leaf under a node keeps the tree. -/
theorem attach (h : Rooted children parent t root) {p c : K} {node node' leaf : N}
    (hc : t.get c = none) (hp : t.get p = some node)
    (hchildren : ∀ x, x ∈ children node' ↔ x = c ∨ x ∈ children node)
    (hparent : parent node' = parent node) (hleaf : children leaf = [])
    (hleafParent : parent leaf = some p) :
    Rooted children parent ((t.set p node').set c leaf) root := by
  have hpc : p ≠ c := fun heq => by rw [heq, hc] at hp; cases hp
  have hget : ∀ x, ((t.set p node').set c leaf).get x =
      if x = c then some leaf else if x = p then some node' else t.get x := by
    intro x
    rw [Table.get_set, Table.get_set]
  have hchild : ∀ y z, Child children t y z → Child children ((t.set p node').set c leaf) y z := by
    rintro y z ⟨s, hs, hz⟩
    have hyc : y ≠ c := fun heq => by rw [heq, hc] at hs; cases hs
    by_cases hyp : y = p
    · rw [hyp, hp] at hs
      refine ⟨node', by rw [hget, if_neg hyc, if_pos hyp], (hchildren z).2 (Or.inr ?_)⟩
      rw [Option.some.inj hs]
      exact hz
    · exact ⟨s, by rw [hget, if_neg hyc, if_neg hyp, hs], hz⟩
  -- Apart from the leaf, the nodes and the parents they name are those of `t`.
  have hnode : ∀ x q, (∃ l, ((t.set p node').set c leaf).get x = some l ∧ parent l = q) ↔
      if x = c then q = some p else ∃ l, t.get x = some l ∧ parent l = q := by
    intro x q
    rw [hget]
    split
    · constructor
      · rintro ⟨l, hl, hlq⟩
        rw [← hlq, ← Option.some.inj hl, hleafParent]
      · intro hq
        exact ⟨leaf, rfl, hq ▸ hleafParent⟩
    · split
      · rename_i hx
        rw [hx, hp]
        constructor
        · rintro ⟨l, hl, hlq⟩
          exact ⟨node, rfl, by rw [← hparent, Option.some.inj hl, hlq]⟩
        · rintro ⟨l, hl, hlq⟩
          exact ⟨node', rfl, by rw [hparent, Option.some.inj hl, hlq]⟩
      · rfl
  constructor
  · intro x m hm y
    rw [hnode]
    rw [hget] at hm
    by_cases hxc : x = c
    · rw [if_pos hxc] at hm
      rw [← Option.some.inj hm, hleaf, hxc]
      refine ⟨fun hy => absurd hy List.not_mem_nil, fun hy => ?_⟩
      split at hy
      · exact absurd (Option.some.inj hy).symm hpc
      · obtain ⟨l, hl, hlp⟩ := hy
        obtain ⟨l', hl'⟩ := h.parent_mem hl hlp
        rw [hc] at hl'
        cases hl'
    · rw [if_neg hxc] at hm
      by_cases hxp : x = p
      · rw [if_pos hxp] at hm
        rw [← Option.some.inj hm, hchildren, hxp]
        split
        · rename_i hyc
          exact ⟨fun _ => rfl, fun _ => Or.inl hyc⟩
        · rename_i hyc
          rw [h.linked p node hp y]
          exact ⟨fun hy => hy.resolve_left hyc, Or.inr⟩
      · rw [if_neg hxp] at hm
        rw [h.linked x m hm y]
        split
        · rename_i hyc
          rw [hyc, hc]
          constructor
          · rintro ⟨l, hl, -⟩
            cases hl
          · intro heq
            exact absurd (Option.some.inj heq) hxp
        · rfl
  · intro x m hm
    have hreach : ∀ y l, t.get y = some l → ∃ r l', root = some r ∧
        ((t.set p node').set c leaf).get r = some l' ∧ parent l' = none ∧
        Below children ((t.set p node').set c leaf) r y := by
      intro y l hl
      obtain ⟨r, s, hr, hs, hsp, hpath⟩ := h.reached y l hl
      have hrc : r ≠ c := fun heq => by rw [heq, hc] at hs; cases hs
      obtain ⟨l', hl', hlp⟩ := (hnode r none).2 (by rw [if_neg hrc]; exact ⟨s, hs, hsp⟩)
      exact ⟨r, l', hr, hl', hlp, Relation.ReflTransGen.mono hchild _ _ hpath⟩
    by_cases hxc : x = c
    · obtain ⟨r, l', hr, hl', hlp, hpath⟩ := hreach p node hp
      refine ⟨r, l', hr, hl', hlp, hpath.tail ⟨node', ?_, (hchildren x).2 (Or.inl hxc)⟩⟩
      rw [hget, if_neg hpc, if_pos rfl]
    · rw [hget, if_neg hxc] at hm
      split at hm
      · rename_i hxp
        exact hreach x node (hxp ▸ hp)
      · exact hreach x m hm

/-- One node without a parent or a child is a tree. -/
theorem singleton (h : ∀ x, t.get x = none) (hchildren : children n = [])
    (hparent : parent n = none) : Rooted children parent (t.set k n) (some k) := by
  have hget : ∀ x m, (t.set k n).get x = some m → x = k ∧ m = n := by
    intro x m hm
    rw [Table.get_set, h x] at hm
    split at hm
    · rename_i hx
      exact ⟨hx, (Option.some.inj hm).symm⟩
    · cases hm
  constructor
  · intro x m hm c
    rw [(hget x m hm).2, hchildren]
    refine ⟨fun hc => absurd hc List.not_mem_nil, ?_⟩
    rintro ⟨l, hl, hlp⟩
    rw [(hget c l hl).2, hparent] at hlp
    cases hlp
  · intro x m hm
    rw [(hget x m hm).1]
    exact ⟨k, n, rfl, Table.get_set_self t k n, hparent, Relation.ReflTransGen.refl⟩

end Rooted

end Forest
