import Mathlib.Data.List.Basic

/-!
# Joining with separators

Separators begin with a mark that is not in the rest of them. So no two places of separators in a text overlap, and where a text is joined in two ways each separator of the one stands in a part of the other, or at its separator.
-/

namespace Separator

variable {α : Type} {c : α} {sep sep' p s x y : List α}

/-- A separator begins with the mark, which is not in its rest. -/
def MarkedBy (c : α) (sep : List α) : Prop := ∃ rest, sep = c :: rest ∧ c ∉ rest

/-- A separator that does not come later stands at the other one, or ends before it. -/
theorem eq_or_ends_before (h : MarkedBy c sep) (h' : MarkedBy c sep') {d : List α}
    (heq : sep ++ s = d ++ (sep' ++ y)) :
    d = [] ∧ sep ++ s = sep' ++ y ∨ ∃ r, d = sep ++ r ∧ s = r ++ sep' ++ y := by
  obtain ⟨rest, rfl, hrest⟩ := h
  obtain ⟨rest', rfl, -⟩ := h'
  cases d with
  | nil => exact .inl ⟨rfl, heq⟩
  | cons a d =>
    obtain ⟨rfl, htail⟩ := List.cons.inj heq
    obtain ⟨r, hd, hs⟩ | ⟨b, hrest', htail'⟩ := List.append_eq_append_iff.1 htail
    · refine .inr ⟨r, by rw [hd, List.cons_append], ?_⟩
      rw [hs, List.append_assoc]
    · cases b with
      | nil =>
        rw [List.append_nil] at hrest'
        refine .inr ⟨[], by rw [hrest', List.append_nil], ?_⟩
        rw [List.nil_append, htail', List.nil_append]
      | cons a b =>
        have hmark := (List.cons.inj htail').1
        rw [hrest', ← hmark] at hrest
        exact absurd (List.mem_append_right d List.mem_cons_self) hrest

/-- Two ways to join one text: the separators stand at one place, or one of them in a part of the other way. -/
theorem cases_of_join_eq (h : MarkedBy c sep) (h' : MarkedBy c sep') (heq : p ++ sep ++ s = x ++ sep' ++ y) :
    p = x ∧ sep ++ s = sep' ++ y ∨ (∃ r, x = p ++ sep ++ r ∧ s = r ++ sep' ++ y) ∨
      ∃ r, p = x ++ sep' ++ r ∧ y = r ++ sep ++ s := by
  rw [List.append_assoc, List.append_assoc] at heq
  obtain ⟨d, hx, hd⟩ | ⟨d, hp, hd⟩ := List.append_eq_append_iff.1 heq
  · obtain ⟨rfl, hsame⟩ | ⟨r, rfl, hs⟩ := eq_or_ends_before h h' hd
    · exact .inl ⟨by rw [hx, List.append_nil], hsame⟩
    · exact .inr (.inl ⟨r, by rw [hx, List.append_assoc], hs⟩)
  · obtain ⟨rfl, hsame⟩ | ⟨r, rfl, hy⟩ := eq_or_ends_before h' h hd
    · exact .inl ⟨by rw [hp, List.append_nil], hsame.symm⟩
    · exact .inr (.inr ⟨r, by rw [hp, List.append_assoc], hy⟩)

/-! ### Texts -/

/-- The separator stands somewhere in the text. -/
def Occurs (sep text : String) : Prop := ∃ front back, text = front ++ sep ++ back

section Texts

variable {c : Char} {sep sep' p s x y : String}

theorem text_cases (h : MarkedBy c sep.toList) (h' : MarkedBy c sep'.toList) (heq : p ++ sep ++ s = x ++ sep' ++ y) :
    p = x ∧ sep ++ s = sep' ++ y ∨ (∃ r, x = p ++ sep ++ r ∧ s = r ++ sep' ++ y) ∨
      ∃ r, p = x ++ sep' ++ r ∧ y = r ++ sep ++ s := by
  have hlist := congrArg String.toList heq
  simp only [String.toList_append] at hlist
  obtain ⟨hp, hs⟩ | ⟨r, hx, hs⟩ | ⟨r, hp, hy⟩ := cases_of_join_eq h h' hlist
  · refine .inl ⟨String.toList_injective hp, String.toList_injective ?_⟩
    rw [String.toList_append, String.toList_append, hs]
  · refine .inr (.inl ⟨String.ofList r, String.toList_injective ?_, String.toList_injective ?_⟩)
    · simp only [String.toList_append, String.toList_ofList, hx]
    · simp only [String.toList_append, String.toList_ofList, hs]
  · refine .inr (.inr ⟨String.ofList r, String.toList_injective ?_, String.toList_injective ?_⟩)
    · simp only [String.toList_append, String.toList_ofList, hp]
    · simp only [String.toList_append, String.toList_ofList, hy]

theorem text_cases_self (h : MarkedBy c sep.toList) (heq : p ++ sep ++ s = x ++ sep ++ y) :
    p = x ∧ s = y ∨ (∃ r, x = p ++ sep ++ r ∧ s = r ++ sep ++ y) ∨ ∃ r, p = x ++ sep ++ r ∧ y = r ++ sep ++ s := by
  obtain ⟨hp, hs⟩ | hrest := text_cases h h heq
  · exact .inl ⟨hp, (String.append_right_inj sep).1 hs⟩
  · exact .inr hrest

/-- Where the separator is in neither part, the text can be joined in one way only. -/
theorem join_inj (h : MarkedBy c sep.toList) (hx : ¬ Occurs sep x) (hy : ¬ Occurs sep y)
    (heq : p ++ sep ++ s = x ++ sep ++ y) : p = x ∧ s = y := by
  obtain hsame | ⟨r, hr, -⟩ | ⟨r, -, hr⟩ := text_cases_self h heq
  · exact hsame
  · exact absurd ⟨p, r, hr⟩ hx
  · exact absurd ⟨r, s, hr⟩ hy

end Texts

end Separator
