import Mathlib.Data.List.Basic

/-!
# Labels

A text is a row of labels with separators between them, as `List.splitOn` takes it apart. The labels of one text are the last ones of another just when the text stands at the end of the other, behind a separator or as the whole of it.
-/

namespace Labels

theorem intercalate_append {α : Type} {sep : List α} {before after : List (List α)} (hbefore : before ≠ [])
    (hafter : after ≠ []) :
    sep.intercalate (before ++ after) = sep.intercalate before ++ sep ++ sep.intercalate after := by
  induction before with
  | nil => exact absurd rfl hbefore
  | cons label before ih =>
    cases before with
    | nil => rw [List.singleton_append, List.intercalate_cons_of_ne_nil hafter, List.intercalate_singleton]
    | cons next before =>
      have hrest := ih (List.cons_ne_nil next before)
      rw [List.cons_append, List.intercalate_cons_of_ne_nil (List.append_ne_nil_of_left_ne_nil (List.cons_ne_nil _ _) _),
        hrest, List.intercalate_cons_of_ne_nil (List.cons_ne_nil _ _)]
      simp only [List.append_assoc]

variable {α : Type} [DecidableEq α] {c : α} {x y : List α}

theorem splitOn_inj (h : x.splitOn c = y.splitOn c) : x = y := by
  have hx := @List.intercalate_splitOn α x _ _ c
  rw [h, List.intercalate_splitOn] at hx
  exact hx.symm

/-- The labels are the last ones just when the text stands at the end, at the beginning of a label. -/
theorem splitOn_suffix_iff : y.splitOn c <:+ x.splitOn c ↔ x = y ∨ ∃ front, x = front ++ c :: y := by
  constructor
  · rintro ⟨before, hbefore⟩
    cases before with
    | nil => exact .inl (splitOn_inj hbefore).symm
    | cons label before =>
      refine .inr ⟨[c].intercalate (label :: before), ?_⟩
      have hjoin := @intercalate_append α [c] _ _ (List.cons_ne_nil label before) (List.splitOn_ne_nil c y)
      rw [hbefore, List.intercalate_splitOn, List.intercalate_splitOn, List.append_assoc] at hjoin
      exact hjoin
  · rintro (rfl | ⟨front, rfl⟩)
    · exact List.suffix_rfl
    · rw [List.splitOn_append_cons_self]
      exact List.suffix_append _ _

/-- A renaming that keeps the separators apart renames the labels. -/
theorem splitOn_map {f : α → α} (hf : ∀ a, f a = c ↔ a = c) (x : List α) :
    (x.map f).splitOn c = (x.splitOn c).map (List.map f) := by
  induction x with
  | nil => rfl
  | cons a x ih =>
    rw [List.map_cons, List.splitOn_cons_eq_if_modifyHead, List.splitOn_cons_eq_if_modifyHead, ih]
    by_cases h : a = c
    · rw [if_pos (beq_iff_eq.2 h), if_pos (beq_iff_eq.2 ((hf a).2 h)), List.map_cons, List.map_nil]
    · have hfa : f a ≠ c := fun hc => h ((hf a).1 hc)
      rw [if_neg (fun hc => h (beq_iff_eq.1 hc)), if_neg (fun hc => hfa (beq_iff_eq.1 hc))]
      cases x.splitOn c with
      | nil => rfl
      | cons label labels => rfl

/-! ### The last labels -/

/-- A text has one label, or a last label behind a separator. -/
theorem splitOn_cases (c : α) (x : List α) :
    c ∉ x ∧ x.splitOn c = [x] ∨
      ∃ front last, x = front ++ c :: last ∧ c ∉ last ∧ x.splitOn c = front.splitOn c ++ [last] := by
  by_cases hmem : c ∈ x
  · obtain ⟨last, front, heq, hlast⟩ := List.eq_append_cons_of_mem (List.mem_reverse.2 hmem)
    have hx : x = front.reverse ++ c :: last.reverse := by
      rw [← List.reverse_reverse x, heq, List.reverse_append, List.reverse_cons, List.append_assoc,
        List.singleton_append]
    have hnot : c ∉ last.reverse := fun h => hlast (List.mem_reverse.1 h)
    refine .inr ⟨front.reverse, last.reverse, hx, hnot, ?_⟩
    rw [hx, List.splitOn_append_cons_self, List.splitOn_eq_singleton hnot]
  · exact .inl ⟨hmem, List.splitOn_eq_singleton hmem⟩

/-- The labels are the stretches without separators that end at separators, or at the ends of the text. -/
theorem mem_splitOn_iff : y ∈ x.splitOn c ↔
    c ∉ y ∧ ∃ front back, x = front ++ y ++ back ∧ (∀ a ∈ front.getLast?, a = c) ∧ ∀ a ∈ back.head?, a = c := by
  constructor
  · induction hlength : x.length using Nat.strongRecOn generalizing x with
    | ind length ih =>
      intro hmem
      obtain ⟨hnot, hsplit⟩ | ⟨before, last, rfl, hnot, hsplit⟩ := splitOn_cases c x
      · rw [hsplit, List.mem_singleton] at hmem
        subst hmem
        exact ⟨hnot, [], [], (List.append_nil _).symm, nofun, nofun⟩
      · rw [hsplit, List.mem_append, List.mem_singleton] at hmem
        obtain hmem | rfl := hmem
        · have hshorter : before.length < length := by
            rw [← hlength, List.length_append, List.length_cons]
            omega
          obtain ⟨hy, front, back, rfl, hfront, hback⟩ := ih before.length hshorter rfl hmem
          refine ⟨hy, front, back ++ c :: last, List.append_assoc _ _ _, hfront, ?_⟩
          cases back with
          | nil =>
            rintro a ⟨⟩
            rfl
          | cons b back => exact hback
        · refine ⟨hnot, before ++ [c], [], ?_, ?_, nofun⟩
          · rw [List.append_nil, List.append_assoc, List.singleton_append]
          · rw [List.getLast?_concat]
            rintro a ⟨⟩
            rfl
  · rintro ⟨hy, front, back, rfl, hfront, hback⟩
    have hfirst : y ∈ (front ++ y).splitOn c := by
      obtain rfl | ⟨before, last, rfl⟩ := front.eq_nil_or_concat'
      · rw [List.nil_append, List.splitOn_eq_singleton hy]
        exact List.mem_singleton_self y
      · rw [hfront last List.getLast?_concat, List.append_assoc, List.singleton_append,
          List.splitOn_append_cons_self, List.splitOn_eq_singleton hy]
        exact List.mem_append_right _ (List.mem_singleton_self y)
    cases back with
    | nil =>
      rw [List.append_nil]
      exact hfirst
    | cons b back =>
      rw [hback b rfl, List.splitOn_append_cons_self]
      exact List.mem_append_left _ hfirst

end Labels
