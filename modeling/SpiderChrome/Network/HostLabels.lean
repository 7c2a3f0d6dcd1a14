import SpiderChrome.Network.Subdomains

/-!
# The labels of a host

`host_contains_label_icase` goes through a host from dot to dot. It tells whether one of the stretches between the dots is the label, however many dots stand together in the host, and whatever dots stand around the label.
-/

namespace SpiderChrome

namespace UrlHelpers

open Slice Unicode
open NetworkUtils (labels labels_append labels_of_notMem properLabels properLabels_append properLabels_nil
  properLabels_of_notMem trimEndMatches)

variable {front rest label segment back host : List Char}

/-! ### The positions of the loop -/

/-- The byte where the rest begins. -/
theorem getElem?_utf8_append (front rest : List Char) :
    (utf8 (front ++ rest))[(utf8 front).length]? = (utf8 rest).head? := by
  rw [utf8_append, List.getElem?_append_right (Nat.le_refl _), Nat.sub_self, List.head?_eq_getElem?]

theorem skipDots_eq (hb : List UInt8) (start : Nat) :
    skipDots hb start = if hb[start]? = some (byte '.') then skipDots hb (start + 1) else start := by
  rw [skipDots]
  by_cases hlt : start < hb.length
  · rw [dif_pos hlt, List.getElem?_eq_getElem hlt]
    simp only [Option.some.injEq]
  · rw [dif_neg hlt, List.getElem?_eq_none (Nat.le_of_not_lt hlt), if_neg nofun]

/-- A dot is skipped. -/
theorem skipDots_dot (front rest : List Char) :
    skipDots (utf8 (front ++ '.' :: rest)) (utf8 front).length =
      skipDots (utf8 (front ++ ['.'] ++ rest)) (utf8 (front ++ ['.'])).length := by
  have hdot : (utf8 ('.' :: rest)).head? = some (byte '.') := (head?_utf8_eq_iff dot_ascii).2 rfl
  have hlength : (utf8 (front ++ ['.'])).length = (utf8 front).length + 1 := length_utf8_behind front []
  rw [skipDots_eq, getElem?_utf8_append, if_pos hdot, hlength, List.append_assoc, List.singleton_append]

/-- The loop stops at a position that no dot stands at. -/
theorem skipDots_stop (front : List Char) (h : rest.head? ≠ some '.') :
    skipDots (utf8 (front ++ rest)) (utf8 front).length = (utf8 front).length := by
  have hdot : ¬ (utf8 rest).head? = some (byte '.') := mt (head?_utf8_eq_iff dot_ascii).1 h
  rw [skipDots_eq, getElem?_utf8_append, if_neg hdot]

theorem nextDot_append (front : List Char) (hsegment : '.' ∉ segment) (hback : ∀ c ∈ back.head?, c = '.') :
    nextDot (utf8 (front ++ (segment ++ back))) (utf8 front).length = (utf8 (front ++ segment)).length := by
  rw [nextDot, utf8_append, List.drop_left]
  cases back with
  | nil =>
    rw [List.append_nil, memchr_eq_none dot_ascii hsegment, utf8_append]
    rfl
  | cons c back =>
    rw [hback c rfl, memchr_append_cons dot_ascii hsegment, Option.map_some, Option.getD_some, utf8_append,
      List.length_append, Nat.add_comm]

theorem labelAt_append (front segment back label : List Char) :
    labelAt (utf8 (front ++ (segment ++ back))) (utf8 label) (utf8 front).length (utf8 (front ++ segment)).length =
      .ok (decide (lower segment = lower label)) := by
  have hstop : (utf8 (front ++ segment)).length = (utf8 front).length + (utf8 segment).length := by
    rw [utf8_append, List.length_append]
  have hlength : (utf8 (front ++ segment)).length - (utf8 front).length = (utf8 segment).length := by omega
  have hle : (utf8 (front ++ segment)).length ≤ (utf8 (front ++ (segment ++ back))).length := by
    rw [← List.append_assoc, utf8_append (front ++ segment), List.length_append]
    exact Nat.le_add_right _ _
  have hbytes : ((utf8 (front ++ (segment ++ back))).take (utf8 (front ++ segment)).length).drop (utf8 front).length =
      utf8 segment := by
    rw [← List.append_assoc, utf8_append (front ++ segment), List.take_left, utf8_append, List.drop_left]
  rw [labelAt, sub_of_le (by omega), ok_bind, hlength]
  by_cases hsame : (utf8 segment).length = (utf8 label).length
  · rw [if_pos hsame, bytesBetween, if_pos ⟨by omega, hle⟩, hbytes, ok_bind]
    exact congrArg Except.ok (Bool.eq_iff_iff.2 (eqIgnoreAsciiCase_iff.trans decide_eq_true_iff.symm))
  · have hother : ¬ lower segment = lower label := fun heq => hsame (length_utf8_of_lower heq)
    rw [if_neg hsame, decide_eq_false hother]

/-! ### The loop -/

/-- The label is among the labels of a text that are not empty. -/
def HasLabel (label text : List Char) : Prop := ∃ segment ∈ properLabels text, lower segment = lower label

theorem hasLabel_append (label front back : List Char) :
    HasLabel label (front ++ '.' :: back) ↔ HasLabel label front ∨ HasLabel label back := by
  simp only [HasLabel, properLabels_append, List.mem_append, or_and_right, exists_or]

theorem not_hasLabel_nil (label : List Char) : ¬ HasLabel label [] := by
  rintro ⟨segment, hmem, -⟩
  cases hmem

theorem hasLabel_dot (label rest : List Char) : HasLabel label ('.' :: rest) ↔ HasLabel label rest :=
  (hasLabel_append label [] rest).trans (or_iff_right (not_hasLabel_nil label))

theorem hasLabel_segment (hdot : '.' ∉ segment) (hne : segment ≠ []) :
    HasLabel label segment ↔ lower segment = lower label := by
  rw [HasLabel, properLabels_of_notMem hdot hne]
  simp only [List.mem_singleton, exists_eq_left]

/-- A text is a stretch without dots, and then nothing or a dot. -/
theorem exists_segment (text : List Char) :
    ∃ segment back, text = segment ++ back ∧ '.' ∉ segment ∧ ∀ c ∈ back.head?, c = '.' := by
  by_cases hdot : '.' ∈ text
  · obtain ⟨segment, back, rfl, hsegment⟩ := List.eq_append_cons_of_mem hdot
    exact ⟨segment, '.' :: back, rfl, hsegment, fun c hc => (Option.some.inj hc).symm⟩
  · exact ⟨text, [], (List.append_nil text).symm, hdot, nofun⟩

theorem hasLabel_behind (hsegment : '.' ∉ segment) (hne : segment ≠ []) (hback : ∀ c ∈ back.head?, c = '.') :
    HasLabel label (segment ++ back) ↔ lower segment = lower label ∨ HasLabel label back := by
  cases back with
  | nil => rw [List.append_nil, hasLabel_segment hsegment hne, or_iff_left (not_hasLabel_nil label)]
  | cons c back => rw [hback c rfl, hasLabel_append, hasLabel_segment hsegment hne, hasLabel_dot]

/-- From a position on, the loop finds the label just when the rest of the host has it. -/
theorem containsLabel_iff (front rest label : List Char) :
    containsLabel (utf8 (front ++ rest)) (utf8 label) (skipDots (utf8 (front ++ rest)) (utf8 front).length) =
      .ok true ↔ HasLabel label rest := by
  induction hlength : rest.length using Nat.strongRecOn generalizing front rest with
  | ind length ih =>
    by_cases hdot : rest.head? = some '.'
    · obtain ⟨rest, rfl⟩ := List.head?_eq_some_iff.1 hdot
      have hshorter : rest.length < length := by rw [← hlength]; exact Nat.lt_succ_self _
      rw [skipDots_dot, hasLabel_dot, ← ih rest.length hshorter (front ++ ['.']) rest rfl, List.append_assoc,
        List.singleton_append]
    · rw [skipDots_stop front hdot, containsLabel]
      obtain ⟨segment, back, rfl, hsegment, hback⟩ := exists_segment rest
      by_cases hnil : segment = []
      · have hempty : back = [] := by
          cases back with
          | nil => rfl
          | cons c back => exact absurd (by rw [hnil, hback c rfl]; rfl) hdot
        rw [hnil, hempty, List.append_nil, List.append_nil, dif_neg (Nat.lt_irrefl _)]
        exact iff_of_false nofun (not_hasLabel_nil label)
      have hlt : (utf8 front).length < (utf8 (front ++ (segment ++ back))).length := by
        have hpos := List.length_pos_iff.2 fun hempty => hnil (utf8_inj.1 (hempty.trans utf8_nil.symm))
        rw [utf8_append, utf8_append, List.length_append, List.length_append]
        omega
      rw [dif_pos hlt, nextDot_append front hsegment hback, labelAt_append, hasLabel_behind hsegment hnil hback]
      by_cases hsame : lower segment = lower label
      · rw [decide_eq_true hsame]
        exact iff_of_true rfl (.inl hsame)
      rw [decide_eq_false hsame, or_iff_right hsame, ← List.append_assoc]
      dsimp only
      cases back with
      | nil =>
        have hend : (utf8 (front ++ segment ++ []))[(utf8 (front ++ segment)).length + 1]? = none := by
          rw [List.append_nil]
          exact List.getElem?_eq_none (Nat.le_succ _)
        rw [skipDots_eq, hend, if_neg nofun, containsLabel, dif_neg]
        · exact iff_of_false nofun (not_hasLabel_nil label)
        · rw [List.append_nil]
          omega
      | cons c back =>
        have hshorter : back.length < length := by
          rw [← hlength, List.length_append, List.length_cons]
          omega
        have hposition : (utf8 (front ++ segment ++ ['.'])).length = (utf8 (front ++ segment)).length + 1 :=
          length_utf8_behind (front ++ segment) []
        rw [hback c rfl, hasLabel_dot, ← ih back.length hshorter (front ++ segment ++ ['.']) back rfl, hposition,
          List.append_assoc (front ++ segment), List.singleton_append]

/-! ### The search -/

/-- A stretch of a host without dots, which ends at dots or at the ends of the host. -/
structure Segment (host segment : List Char) : Prop where
  free : '.' ∉ segment
  maximal : ∃ front back, host = front ++ segment ++ back ∧ (∀ c ∈ front.getLast?, c = '.') ∧
    ∀ c ∈ back.head?, c = '.'

/-- A label without the dots around it: `str::trim_matches`. -/
def trimDots (label : List Char) : List Char := trimEndMatches '.' (label.dropWhile (· = '.'))

theorem segment_iff : Segment host segment ↔ segment ∈ labels host := by
  rw [labels, Labels.mem_splitOn_iff]
  exact ⟨fun h => ⟨h.free, h.maximal⟩, fun h => ⟨h.1, h.2⟩⟩

theorem hasLabel_iff (hne : label ≠ []) (host : List Char) :
    HasLabel label host ↔ ∃ segment, Segment host segment ∧ lower segment = lower label := by
  have hproper : ∀ segment : List Char, lower segment = lower label → segment ≠ [] := by
    rintro segment hsame rfl
    exact hne (List.map_eq_nil_iff.1 hsame.symm)
  constructor
  · rintro ⟨segment, hmem, hsame⟩
    exact ⟨segment, segment_iff.2 (List.mem_filter.1 hmem).1, hsame⟩
  · rintro ⟨segment, hsegment, hsame⟩
    have hempty : segment.isEmpty = false := List.isEmpty_eq_false_iff.2 (hproper segment hsame)
    exact ⟨segment, List.mem_filter.2 ⟨segment_iff.1 hsegment, by rw [hempty]; rfl⟩, hsame⟩

/-- What is trimmed off a host are dots. -/
theorem exists_dots (host : List Char) : ∃ n, host = trimEndMatches '.' host ++ List.replicate n '.' := by
  refine ⟨(host.reverse.takeWhile fun c => decide (c = '.')).length, ?_⟩
  have hdots : (host.reverse.takeWhile fun c => decide (c = '.')) =
      List.replicate (host.reverse.takeWhile fun c => decide (c = '.')).length '.' := by
    apply List.eq_replicate_of_mem
    intro c hc
    exact of_decide_eq_true (List.all_eq_true.1 List.all_takeWhile c hc)
  have hsplit := congrArg List.reverse (@List.takeWhile_append_dropWhile _ (fun c => decide (c = '.')) host.reverse)
  rw [List.reverse_append, List.reverse_reverse, hdots, List.reverse_replicate] at hsplit
  exact hsplit.symm

theorem hasLabel_trim (label host : List Char) : HasLabel label (trimEndMatches '.' host) ↔ HasLabel label host := by
  have hdots : ∀ (text : List Char) (n : Nat), HasLabel label (text ++ List.replicate n '.') ↔ HasLabel label text := by
    intro text n
    induction n with
    | zero => rw [List.replicate_zero, List.append_nil]
    | succ n ih =>
      rw [List.replicate_succ', ← List.append_assoc, hasLabel_append, or_iff_left (not_hasLabel_nil label), ih]
  obtain ⟨n, hhost⟩ := exists_dots host
  have htrim := hdots (trimEndMatches '.' host) n
  rw [← hhost] at htrim
  exact htrim.symm

theorem hostContainsLabelIcase_iff (host label : List Char) :
    hostContainsLabelIcase host label = .ok true ↔
      trimDots label ≠ [] ∧ ∃ segment, Segment host segment ∧ lower segment = lower (trimDots label) := by
  rw [hostContainsLabelIcase, ← trimDots]
  by_cases hlabel : trimDots label = []
  · rw [hlabel, List.isEmpty_nil, Bool.or_true, if_pos rfl]
    exact iff_of_false (by simp) fun h => h.1 rfl
  rw [← hasLabel_iff hlabel host, ← hasLabel_trim, and_iff_right hlabel, List.isEmpty_eq_false_iff.2 hlabel,
    Bool.or_false]
  by_cases hhost : trimEndMatches '.' host = []
  · rw [hhost, List.isEmpty_nil, if_pos rfl]
    exact iff_of_false (by simp) (not_hasLabel_nil _)
  · rw [List.isEmpty_eq_false_iff.2 hhost, if_neg Bool.false_ne_true]
    exact containsLabel_iff [] (trimEndMatches '.' host) (trimDots label)

/-- A search for labels that comes to an end and is exact. -/
structure FindsLabels (find : List Char → List Char → Except Panic Bool) : Prop where
  returns : ∀ host label, Returns (find host label)
  found_iff : ∀ host label, find host label = .ok true ↔
    trimDots label ≠ [] ∧ ∃ segment, Segment host segment ∧ lower segment = lower (trimDots label)
  inner : ∀ host label, '.' ∈ trimDots label → find host label = .ok false

theorem hostContainsLabelIcase_findsLabels : FindsLabels hostContainsLabelIcase := by
  refine ⟨hostContainsLabelIcase_returns, hostContainsLabelIcase_iff, ?_⟩
  intro host label hdot
  have hnone : ¬ hostContainsLabelIcase host label = .ok true := by
    rw [hostContainsLabelIcase_iff]
    rintro ⟨-, segment, hsegment, hsame⟩
    have hlower : '.' ∈ lower segment := by
      rw [hsame]
      exact List.mem_map_of_mem hdot
    obtain ⟨c, hc, hcdot⟩ := List.mem_map.1 hlower
    rw [(toLower_eq_dot_iff c).1 hcdot] at hc
    exact hsegment.free hc
  obtain ⟨found, hfound⟩ := hostContainsLabelIcase_returns host label
  rw [hfound] at hnone ⊢
  cases found with
  | false => rfl
  | true => exact absurd rfl hnone

end UrlHelpers

end SpiderChrome
