import SpiderChrome.Network.Sites

/-!
# Subdomains

`host_is_subdomain_of` compares the bytes of two texts and looks for one dot. It decides whether the labels of the base are the last labels of the host, for all texts, and that is what it is used for.
-/

namespace SpiderChrome

namespace UrlHelpers

open Slice Unicode
open NetworkUtils (labels labels_append labels_of_notMem trimEndMatches)

/-! ### Case -/

def lower (s : List Char) : List Char := NetworkUtils.toAsciiLowercase s

theorem lower_append (s t : List Char) : lower (s ++ t) = lower s ++ lower t := List.map_append

theorem lower_cons (c : Char) (s : List Char) : lower (c :: s) = c.toLower :: lower s := rfl

/-- An ASCII letter and its byte are lowered alike. -/
theorem byte_toLower : ∀ v < 128,
    (Char.ofNat v).toLower.toNat < 128 ∧ byte (Char.ofNat v).toLower = toAsciiLowercase (byte (Char.ofNat v)) := by
  decide +kernel

theorem toLower_of_not_ascii {c : Char} (h : ¬ c.toNat < 128) : c.toLower = c := by
  refine dif_neg ?_
  rintro ⟨-, hupper⟩
  have hz : 'Z'.val.toNat < 128 := by decide
  exact absurd ((UInt32.le_iff_toNat_le.1 hupper).trans_lt hz) h

theorem toAsciiLowercase_of_le {b : UInt8} (h : 128 ≤ b.toNat) : toAsciiLowercase b = b := by
  rw [toAsciiLowercase, if_neg]
  rintro ⟨-, hupper⟩
  have hle : b.toNat ≤ 90 := UInt8.le_iff_toNat_le.1 hupper
  omega

theorem utf8EncodeChar_toLower (c : Char) :
    String.utf8EncodeChar c.toLower = (String.utf8EncodeChar c).map toAsciiLowercase := by
  by_cases h : c.toNat < 128
  · obtain ⟨hlt, hbyte⟩ := byte_toLower c.toNat h
    rw [Char.ofNat_toNat] at hlt hbyte
    rw [utf8EncodeChar_ascii hlt, utf8EncodeChar_ascii h, List.map_singleton, hbyte]
  · rw [toLower_of_not_ascii h]
    have hsame : (String.utf8EncodeChar c).map toAsciiLowercase = (String.utf8EncodeChar c).map id := by
      apply List.map_congr_left
      intro b hb
      exact toAsciiLowercase_of_le (le_of_mem_utf8EncodeChar h hb)
    rw [hsame, List.map_id]

theorem utf8_lower (s : List Char) : utf8 (lower s) = (utf8 s).map toAsciiLowercase := by
  induction s with
  | nil => rfl
  | cons c s ih => rw [lower_cons, utf8_cons, utf8_cons, List.map_append, utf8EncodeChar_toLower, ih]

theorem length_utf8_lower (s : List Char) : (utf8 (lower s)).length = (utf8 s).length := by
  rw [utf8_lower, List.length_map]

theorem eqIgnoreAsciiCase_iff {s t : List Char} : eqIgnoreAsciiCase (utf8 s) (utf8 t) = true ↔ lower s = lower t := by
  rw [eqIgnoreAsciiCase, decide_eq_true_iff, ← utf8_lower, ← utf8_lower, utf8_inj]

theorem toLower_eq_dot_iff (c : Char) : c.toLower = '.' ↔ c = '.' := by
  have hbytes : ∀ v < 128, (Char.ofNat v).toLower = '.' → Char.ofNat v = '.' := by decide +kernel
  constructor
  · intro hdot
    by_cases h : c.toNat < 128
    · have hc := hbytes c.toNat h
      rw [Char.ofNat_toNat] at hc
      exact hc hdot
    · rwa [toLower_of_not_ascii h] at hdot
  · rintro rfl
    rfl

/-! ### Labels -/

/-- The labels of a host without dots at its end, in lower case. -/
def foldedLabels (host : List Char) : List (List Char) := (labels (trimEndMatches '.' host)).map lower

theorem foldedLabels_eq (host : List Char) : foldedLabels host = labels (lower (trimEndMatches '.' host)) :=
  (Labels.splitOn_map toLower_eq_dot_iff _).symm

variable {h b host base : List Char}

/-- The labels of a text are the last ones just when it is the other text, or stands behind a dot of it. -/
theorem labels_suffix_iff (h b : List Char) :
    labels (lower b) <:+ labels (lower h) ↔
      lower h = lower b ∨ ∃ front back, h = front ++ '.' :: back ∧ lower back = lower b := by
  rw [labels, labels, Labels.splitOn_suffix_iff]
  refine or_congr_right ?_
  constructor
  · rintro ⟨front, hlower⟩
    obtain ⟨front', rest, rfl, -, hrest⟩ := List.map_eq_append_iff.1 hlower
    obtain ⟨dot, back, rfl, hdot, hback⟩ := List.map_eq_cons_iff.1 hrest
    rw [(toLower_eq_dot_iff dot).1 hdot]
    exact ⟨front', back, rfl, hback⟩
  · rintro ⟨front, back, rfl, hback⟩
    refine ⟨lower front, ?_⟩
    rw [lower_append, lower_cons, hback]
    rfl

theorem length_utf8_of_lower (heq : lower h = lower b) : (utf8 h).length = (utf8 b).length := by
  rw [← length_utf8_lower h, heq, length_utf8_lower]

theorem length_utf8_behind (front back : List Char) :
    (utf8 (front ++ '.' :: back)).length = (utf8 front).length + (utf8 back).length + 1 := by
  rw [utf8_append, List.length_append, length_utf8_ascii_cons dot_ascii]
  omega

/-! ### The test -/

/-- The end of a text behind a dot is compared. -/
theorem endsWithIgnoreAsciiCase_behind {back : List Char} (front : List Char)
    (hlength : (utf8 back).length = (utf8 b).length) :
    endsWithIgnoreAsciiCase (front ++ '.' :: back) b = .ok (eqIgnoreAsciiCase (utf8 back) (utf8 b)) := by
  have htotal := length_utf8_behind front back
  have hstart : (utf8 (front ++ '.' :: back)).length - (utf8 b).length = (utf8 front).length + 1 := by omega
  rw [endsWithIgnoreAsciiCase, if_neg (by omega), sub_of_le (by omega), ok_bind, hstart, sliceFrom_after dot_ascii,
    ok_bind]

/-- The comparison behind the dot, where the host is longer. -/
theorem behindDot_iff (hlonger : (utf8 b).length < (utf8 h).length) :
    (if (utf8 h)[(utf8 h).length - (utf8 b).length - 1]? = some (byte '.') then endsWithIgnoreAsciiCase h b
        else .ok false) = .ok true ↔
      ∃ front back, h = front ++ '.' :: back ∧ lower back = lower b := by
  constructor
  · intro htrue
    split at htrue
    · rename_i hdot
      obtain ⟨front, back, rfl, hfront⟩ := cut_at_byte dot_ascii hdot
      have htotal := length_utf8_behind front back
      have hlength : (utf8 back).length = (utf8 b).length := by omega
      rw [endsWithIgnoreAsciiCase_behind front hlength] at htrue
      exact ⟨front, back, rfl, eqIgnoreAsciiCase_iff.1 (Except.ok.inj htrue)⟩
    · cases htrue
  · rintro ⟨front, back, rfl, hback⟩
    have hlength := length_utf8_of_lower hback
    have htotal := length_utf8_behind front back
    have hposition : (utf8 (front ++ '.' :: back)).length - (utf8 b).length - 1 = (utf8 front).length := by omega
    have hdot : (utf8 (front ++ '.' :: back))[(utf8 front).length]? = some (byte '.') := by
      rw [utf8_append, utf8_ascii_cons dot_ascii, List.getElem?_append_right (Nat.le_refl _), Nat.sub_self]
      rfl
    rw [hposition, if_pos hdot, endsWithIgnoreAsciiCase_behind front hlength, eqIgnoreAsciiCase_iff.2 hback]

theorem hostIsSubdomainOf_iff (host base : List Char) :
    hostIsSubdomainOf host base = .ok true ↔
      trimEndMatches '.' base ≠ [] ∧ foldedLabels base <:+ foldedLabels host := by
  rw [hostIsSubdomainOf, foldedLabels_eq, foldedLabels_eq, labels_suffix_iff]
  generalize trimEndMatches '.' host = h
  generalize trimEndMatches '.' base = b
  by_cases hempty : b = []
  · rw [if_pos (List.isEmpty_iff.2 hempty)]
    exact iff_of_false (by simp) fun hne => hne.1 hempty
  rw [if_neg (fun hnil => hempty (List.isEmpty_iff.1 hnil))]
  by_cases hsame : lower h = lower b
  · rw [if_pos (eqIgnoreAsciiCase_iff.2 hsame)]
    exact iff_of_true rfl ⟨hempty, .inl hsame⟩
  rw [if_neg (fun heq => hsame (eqIgnoreAsciiCase_iff.1 heq))]
  by_cases hshorter : (utf8 h).length ≤ (utf8 b).length
  · rw [if_pos hshorter]
    refine iff_of_false (by simp) ?_
    rintro ⟨-, heq | ⟨front, back, rfl, hback⟩⟩
    · exact hsame heq
    · have hlength := length_utf8_of_lower hback
      have htotal := length_utf8_behind front back
      omega
  · rw [if_neg hshorter, sub_of_le (by omega), ok_bind, sub_of_le (by omega), ok_bind, behindDot_iff (by omega)]
    constructor
    · intro hbehind
      exact ⟨hempty, .inr hbehind⟩
    · rintro ⟨-, heq | hbehind⟩
      · exact absurd heq hsame
      · exact hbehind

/-! ### What it does not look at -/

/-- An answer is known from whether it is yes. -/
theorem answer_eq {host' base' : List Char}
    (h : hostIsSubdomainOf host' base' = .ok true ↔ hostIsSubdomainOf host base = .ok true) :
    hostIsSubdomainOf host' base' = hostIsSubdomainOf host base := by
  obtain ⟨answer', hanswer'⟩ := hostIsSubdomainOf_returns host' base'
  obtain ⟨answer, hanswer⟩ := hostIsSubdomainOf_returns host base
  rw [hanswer', hanswer] at h ⊢
  rw [Except.ok.injEq, Except.ok.injEq, ← Bool.eq_iff_iff] at h
  rw [h]

theorem answer_eq_false (h : ¬ hostIsSubdomainOf host base = .ok true) : hostIsSubdomainOf host base = .ok false := by
  obtain ⟨answer, hanswer⟩ := hostIsSubdomainOf_returns host base
  rw [hanswer] at h ⊢
  cases answer with
  | false => rfl
  | true => exact absurd rfl h

theorem lower_trim (s : List Char) : lower (trimEndMatches '.' s) = trimEndMatches '.' (lower s) := by
  have hdot : (fun c => decide (c = '.')) ∘ Char.toLower = fun c => decide (c = '.') := by
    funext c
    exact decide_eq_decide.2 (toLower_eq_dot_iff c)
  rw [trimEndMatches, trimEndMatches, lower, lower, NetworkUtils.toAsciiLowercase, NetworkUtils.toAsciiLowercase,
    ← List.map_reverse, List.dropWhile_map, hdot, List.map_reverse]

theorem trim_append_dots (s : List Char) (n : Nat) :
    trimEndMatches '.' (s ++ List.replicate n '.') = trimEndMatches '.' s := by
  rw [trimEndMatches, List.reverse_append, List.reverse_replicate, List.dropWhile_append_of_pos]
  · rfl
  · intro c hc
    exact decide_eq_true (List.eq_of_mem_replicate hc)

theorem trim_append (front : List Char) {s : List Char} (h : trimEndMatches '.' s ≠ []) :
    trimEndMatches '.' (front ++ s) = front ++ trimEndMatches '.' s := by
  have hne : ¬ (s.reverse.dropWhile fun c => decide (c = '.')).isEmpty = true := by
    intro hempty
    apply h
    rw [trimEndMatches, List.isEmpty_iff.1 hempty]
    rfl
  rw [trimEndMatches, trimEndMatches, List.reverse_append, List.dropWhile_append, if_neg hne, List.reverse_append,
    List.reverse_reverse]

/-- The labels depend on the host in lower case, without dots at its end. -/
theorem foldedLabels_of_lower {host' : List Char} (h : lower host' = lower host) (n : Nat) :
    foldedLabels (host' ++ List.replicate n '.') = foldedLabels host := by
  rw [foldedLabels_eq, foldedLabels_eq, trim_append_dots, lower_trim, h, lower_trim]

theorem trim_ne_nil_of_lower {base' : List Char} (h : lower base' = lower base) (n : Nat) :
    trimEndMatches '.' (base' ++ List.replicate n '.') ≠ [] ↔ trimEndMatches '.' base ≠ [] := by
  have hnil : ∀ s : List Char, trimEndMatches '.' s = [] ↔ trimEndMatches '.' (lower s) = [] := by
    intro s
    rw [← lower_trim, lower, NetworkUtils.toAsciiLowercase, List.map_eq_nil_iff]
  rw [trim_append_dots, not_iff_not, hnil base', h, ← hnil base]

/-- A text that ends with the base behind another character than a dot does not have its labels. -/
theorem not_suffix_of_lookAlike {front back : List Char} {c : Char} (hc : c ≠ '.') (hback : lower back = lower base)
    (hne : trimEndMatches '.' base ≠ []) : ¬ foldedLabels base <:+ foldedLabels (front ++ c :: back) := by
  have hbackNe : trimEndMatches '.' back ≠ [] := by
    have hiff := trim_ne_nil_of_lower hback 0
    rw [List.replicate_zero, List.append_nil] at hiff
    exact hiff.2 hne
  have htrim : lower (trimEndMatches '.' back) = lower (trimEndMatches '.' base) := by
    rw [lower_trim, hback, ← lower_trim]
  have hlength := congrArg List.length htrim
  have htext := trim_append (front ++ [c]) hbackNe
  rw [List.append_assoc, List.append_assoc, List.singleton_append, List.singleton_append] at htext
  rw [foldedLabels_eq, foldedLabels_eq, htext, labels_suffix_iff]
  simp only [lower, NetworkUtils.toAsciiLowercase, List.length_map] at hlength
  rintro (hsame | ⟨front', back', hcut, hback'⟩)
  · have hlonger := congrArg List.length hsame
    simp only [lower, NetworkUtils.toAsciiLowercase, List.length_map, List.length_append, List.length_cons] at hlonger
    omega
  · have hlength' := congrArg List.length hback'
    simp only [lower, NetworkUtils.toAsciiLowercase, List.length_map] at hlength'
    have hrest := List.append_inj_right' hcut (by simp only [List.length_cons]; omega)
    exact hc (List.cons.inj hrest).1

/-- A test of hosts that tells whether the labels of the base are the last ones of the host, and what follows from that. -/
structure TestsLabels (test : List Char → List Char → Except Panic Bool) : Prop where
  suffix : ∀ host base, test host base = .ok true ↔
    trimEndMatches '.' base ≠ [] ∧ foldedLabels base <:+ foldedLabels host
  reflexive : ∀ host, trimEndMatches '.' host ≠ [] → test host host = .ok true
  transitive : ∀ a b c, test a b = .ok true → test b c = .ok true → test a c = .ok true
  insensitive : ∀ host base host' base' m n, lower host' = lower host → lower base' = lower base →
    test (host' ++ List.replicate m '.') (base' ++ List.replicate n '.') = test host base
  lookAlike : ∀ front c back base, c ≠ '.' → lower back = lower base → test (front ++ c :: back) base = .ok false

theorem hostIsSubdomainOf_testsLabels : TestsLabels hostIsSubdomainOf := by
  refine ⟨hostIsSubdomainOf_iff, ?_, ?_, ?_, ?_⟩
  · intro host hne
    exact (hostIsSubdomainOf_iff host host).2 ⟨hne, List.suffix_rfl⟩
  · intro a b c hab hbc
    obtain ⟨-, hab⟩ := (hostIsSubdomainOf_iff a b).1 hab
    obtain ⟨hne, hbc⟩ := (hostIsSubdomainOf_iff b c).1 hbc
    exact (hostIsSubdomainOf_iff a c).2 ⟨hne, hbc.trans hab⟩
  · intro host base host' base' m n hhost hbase
    apply answer_eq
    rw [hostIsSubdomainOf_iff, hostIsSubdomainOf_iff, foldedLabels_of_lower hhost, foldedLabels_of_lower hbase,
      trim_ne_nil_of_lower hbase]
  · intro front c back base hc hback
    apply answer_eq_false
    rw [hostIsSubdomainOf_iff]
    rintro ⟨hne, hsuffix⟩
    exact not_suffix_of_lookAlike hc hback hne hsuffix

example : hostIsSubdomainOf "evil-mainr.com".toList "mainr.com".toList = .ok false ∧
    hostIsSubdomainOf "WWW.Mainr.com.".toList "mainr.com".toList = .ok true := by decide

end UrlHelpers

end SpiderChrome
