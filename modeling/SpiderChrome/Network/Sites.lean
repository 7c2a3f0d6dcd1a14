import SpiderChrome.Library.Labels
import SpiderChrome.Network.Events
import SpiderChrome.Network.Helpers

/-!
# The sites of hosts

Requests count as first-party if their host has the base domain of the page's host. That is the end of the host from one of its labels on, but a host of one label behind `www.` or `m.` is stripped down to that label, and an empty label before the last one counts as a name. `site_iff` says for which hosts the base is a site of two labels. An address is no exception to the labels: `same_address_iff` says which addresses are told apart.
-/

namespace SpiderChrome

namespace NetworkUtils

open UrlHelpers (last_cases splitLast_append_cons splitLast_eq_none)

/-! ### Labels -/

def labels (host : List Char) : List (List Char) := host.splitOn '.'

/-- The labels that are not empty. -/
def properLabels (host : List Char) : List (List Char) := (labels host).filter fun label => !label.isEmpty

/-- What `base_domain_from_host` looks at: the host without dots at its end and the words at its beginning. -/
def stripped (host : List Char) : List Char :=
  let h := trimEndMatches '.' host
  let h := (stripPrefix? h "www.".toList).getD h
  (stripPrefix? h "m.".toList).getD h

/-- There is a label before the last one. If it is empty, the one before it is the name of a tenant. -/
def HasSite (host : List Char) : Prop :=
  match (labels (stripped host)).reverse with
  | _ :: sld :: left =>
    sld ≠ [] ∨ ∃ lbl ∈ left.head?, lbl ≠ [] ∧ isCommonSubdomainLabel lbl = false
  | _ => False

variable {host h left sld tld base : List Char}

theorem labels_cases (h : List Char) :
    '.' ∉ h ∧ labels h = [h] ∨
      ∃ front last, h = front ++ '.' :: last ∧ '.' ∉ last ∧ labels h = labels front ++ [last] :=
  Labels.splitOn_cases '.' h

theorem labels_append (front back : List Char) : labels (front ++ '.' :: back) = labels front ++ labels back :=
  List.splitOn_append_cons_self front back

theorem labels_of_notMem (h : '.' ∉ host) : labels host = [host] := List.splitOn_eq_singleton h

/-- What stands behind a dot begins with a label. -/
theorem labels_suffix (front back : List Char) : labels back <:+ labels (front ++ '.' :: back) := by
  rw [labels_append]
  exact List.suffix_append _ _

theorem properLabels_append (front back : List Char) :
    properLabels (front ++ '.' :: back) = properLabels front ++ properLabels back := by
  rw [properLabels, labels_append, List.filter_append]
  rfl

/-! ### Stripping -/

theorem stripPrefix?_cases (pat h : List Char) :
    (∃ rest, h = pat ++ rest ∧ (stripPrefix? h pat).getD h = rest) ∨ (stripPrefix? h pat).getD h = h := by
  rw [stripPrefix?]
  split
  · rename_i hprefix
    obtain ⟨rest, rfl⟩ := List.isPrefixOf_iff_prefix.1 hprefix
    exact .inl ⟨rest, rfl, List.drop_left⟩
  · exact .inr rfl

/-- A word with its dot is a label. -/
theorem labels_strip_suffix (word h : List Char) :
    labels ((stripPrefix? h (word ++ ['.'])).getD h) <:+ labels h := by
  obtain ⟨rest, rfl, hrest⟩ | hsame := stripPrefix?_cases (word ++ ['.']) h
  · rw [hrest, List.append_assoc]
    exact labels_suffix word rest
  · rw [hsame]

theorem labels_stripped_suffix (host : List Char) : labels (stripped host) <:+ labels (trimEndMatches '.' host) :=
  (labels_strip_suffix "m".toList _).trans (labels_strip_suffix "www".toList _)

/-- No trailing dot is left, so the last label of a host with a dot is not empty. -/
theorem last_ne_nil_of_trimmed {front last : List Char} (h : trimEndMatches '.' host = front ++ '.' :: last) :
    last ≠ [] := by
  rintro rfl
  have hhead : (trimEndMatches '.' host).reverse.head? ≠ some '.' := by
    rw [trimEndMatches, List.reverse_reverse]
    intro hdot
    have hnot := List.head?_dropWhile_not (fun c => decide (c = '.')) host.reverse
    rw [hdot] at hnot
    cases hnot
  rw [h, List.reverse_append] at hhead
  exact hhead rfl

/-- The stripped host is the host without its dots at the end, or stands behind a dot of it. -/
theorem stripped_cases (host : List Char) :
    trimEndMatches '.' host = stripped host ∨ ∃ front, trimEndMatches '.' host = front ++ '.' :: stripped host :=
  Labels.splitOn_suffix_iff.1 (labels_stripped_suffix host)

theorem last_ne_nil_of_stripped {front last : List Char} (h : stripped host = front ++ '.' :: last) : last ≠ [] := by
  obtain htrim | ⟨word, htrim⟩ := stripped_cases host
  · rw [h] at htrim
    exact last_ne_nil_of_trimmed htrim
  · rw [h, ← List.cons_append, ← List.append_assoc] at htrim
    exact last_ne_nil_of_trimmed htrim

/-! ### The base -/

/-- The base with the label to the left of it, if that is the name of a tenant. -/
def tenant (left base : List Char) : List Char :=
  let lbl := match splitLast '.' left with
    | some (_, lbl) => lbl
    | none => left
  if !lbl.isEmpty && !isCommonSubdomainLabel lbl then lbl ++ '.' :: base else base

/-- The last label on the left decides. -/
theorem tenant_cases (left base : List Char) :
    ∃ before lbl, labels left = before ++ [lbl] ∧ '.' ∉ lbl ∧
      tenant left base = if lbl ≠ [] ∧ isCommonSubdomainLabel lbl = false then lbl ++ '.' :: base else base := by
  have hif : ∀ lbl : List Char, (if !lbl.isEmpty && !isCommonSubdomainLabel lbl then lbl ++ '.' :: base else base) =
      if lbl ≠ [] ∧ isCommonSubdomainLabel lbl = false then lbl ++ '.' :: base else base := by
    intro lbl
    simp only [Bool.and_eq_true, Bool.not_eq_true', List.isEmpty_eq_false_iff]
  obtain ⟨hdot, hlabels⟩ | ⟨front, lbl, rfl, hdot, hlabels⟩ := labels_cases left
  · refine ⟨[], left, hlabels, hdot, ?_⟩
    rw [tenant, splitLast_eq_none hdot]
    exact hif left
  · refine ⟨labels front, lbl, hlabels, hdot, ?_⟩
    rw [tenant, splitLast_append_cons front hdot]
    exact hif lbl

theorem tenant_suffix (left base : List Char) :
    labels base <:+ labels (tenant left base) ∧ labels (tenant left base) <:+ labels (left ++ '.' :: base) := by
  obtain ⟨before, lbl, hlabels, hdot, htenant⟩ := tenant_cases left base
  rw [htenant]
  split
  · refine ⟨labels_suffix lbl base, ?_⟩
    rw [labels_append, labels_append, hlabels, labels_of_notMem hdot, List.append_assoc]
    exact List.suffix_append _ _
  · exact ⟨List.suffix_rfl, labels_suffix left base⟩

/-- The base of a stripped host. -/
def siteOf (h : List Char) : List Char :=
  match splitLast '.' h with
  | none => h
  | some (front, tld) =>
    match splitLast '.' front with
    | none => h
    | some (left, sld) =>
      let short := sld ++ '.' :: tld
      if utf8Len tld = 2 ∧ isCommonCcSld sld then
        match splitLast '.' left with
        | some (left', label) => tenant left' (label ++ '.' :: short)
        | none => tenant left short
      else tenant left short

theorem baseDomainFromHost_eq (host : List Char) : baseDomainFromHost host = siteOf (stripped host) := by
  rw [baseDomainFromHost, siteOf, stripped]
  dsimp only
  generalize (stripPrefix? _ "m.".toList).getD _ = h
  obtain hnone | ⟨front, tld, rfl, htld⟩ := last_cases '.' h
  · rw [splitLast_eq_none hnone]
  · rw [splitLast_append_cons front htld]
    dsimp only
    obtain hnone | ⟨left, sld, rfl, hsld⟩ := last_cases '.' front
    · rw [splitLast_eq_none hnone]
    · rw [splitLast_append_cons left hsld]
      dsimp only
      by_cases hcc : utf8Len tld = 2 ∧ isCommonCcSld sld = true
      · rw [if_pos hcc, if_pos hcc]
        cases splitLast '.' left with
        | none => rfl
        | some found => rfl
      · rw [if_neg hcc, if_neg hcc]
        rfl

/-- The base has one label, or two, or its labels stand at the end of three and include the last two. -/
theorem siteOf_cases (h : List Char) :
    ('.' ∉ h ∧ siteOf h = h) ∨
      (∃ sld tld, h = sld ++ '.' :: tld ∧ '.' ∉ sld ∧ '.' ∉ tld ∧ siteOf h = h) ∨
      ∃ left sld tld, h = left ++ '.' :: (sld ++ '.' :: tld) ∧ '.' ∉ sld ∧ '.' ∉ tld ∧
        labels (sld ++ '.' :: tld) <:+ labels (siteOf h) ∧ labels (siteOf h) <:+ labels h ∧
        (sld = [] → siteOf h = tenant left (sld ++ '.' :: tld)) := by
  obtain hnone | ⟨front, tld, rfl, htld⟩ := last_cases '.' h
  · rw [siteOf, splitLast_eq_none hnone]
    exact .inl ⟨hnone, rfl⟩
  obtain hnone | ⟨left, sld, rfl, hsld⟩ := last_cases '.' front
  · rw [siteOf, splitLast_append_cons front htld]
    dsimp only
    rw [splitLast_eq_none hnone]
    exact .inr (.inl ⟨front, tld, rfl, hnone, htld, rfl⟩)
  · refine .inr (.inr ⟨left, sld, tld, List.append_assoc _ _ _, hsld, htld, ?_⟩)
    rw [siteOf, splitLast_append_cons _ htld]
    dsimp only
    rw [splitLast_append_cons left hsld]
    dsimp only
    rw [List.append_assoc, List.cons_append]
    have hshort := tenant_suffix left (sld ++ '.' :: tld)
    split
    · rename_i hcc
      have hne : sld ≠ [] := by
        rintro rfl
        have hcommon := hcc.2
        revert hcommon
        decide
      obtain hnone | ⟨front, label, rfl, hlabel⟩ := last_cases '.' left
      · rw [splitLast_eq_none hnone]
        exact ⟨hshort.1, hshort.2, fun hempty => absurd hempty hne⟩
      · rw [splitLast_append_cons front hlabel]
        obtain ⟨hbase, hhost⟩ := tenant_suffix front (label ++ '.' :: (sld ++ '.' :: tld))
        rw [List.append_assoc, List.cons_append]
        exact ⟨(labels_suffix label _).trans hbase, hhost, fun hempty => absurd hempty hne⟩
    · exact ⟨hshort.1, hshort.2, fun _ => rfl⟩

theorem siteOf_suffix (h : List Char) : labels (siteOf h) <:+ labels h := by
  obtain ⟨-, hsite⟩ | ⟨sld, tld, -, -, -, hsite⟩ | ⟨left, sld, tld, -, -, -, -, hsuffix, -⟩ := siteOf_cases h
  · rw [hsite]
  · rw [hsite]
  · exact hsuffix

theorem base_suffix (host : List Char) : labels (baseDomainFromHost host) <:+ labels (trimEndMatches '.' host) := by
  rw [baseDomainFromHost_eq]
  exact (siteOf_suffix _).trans (labels_stripped_suffix host)

theorem properLabels_of_notMem (hdot : '.' ∉ h) (hne : h ≠ []) : properLabels h = [h] := by
  have hempty : h.isEmpty = false := List.isEmpty_eq_false_iff.2 hne
  rw [properLabels, labels_of_notMem hdot, List.filter_cons, List.filter_nil, hempty]
  rfl

theorem properLabels_nil : properLabels [] = [] := rfl

theorem length_properLabels_le (hdot : '.' ∉ h) : (properLabels h).length ≤ 1 := by
  rw [properLabels, labels_of_notMem hdot]
  exact List.length_filter_le _ _

theorem length_properLabels_of_suffix (h : labels base <:+ labels host) :
    (properLabels base).length ≤ (properLabels host).length :=
  (h.filter _).length_le

/-- The name of a tenant is the second label of a base whose own is empty. -/
theorem two_le_tenant_iff (left : List Char) (hdot : '.' ∉ tld) (htld : tld ≠ []) :
    2 ≤ (properLabels (tenant left ('.' :: tld))).length ↔
      ∃ lbl ∈ (labels left).reverse.head?, lbl ≠ [] ∧ isCommonSubdomainLabel lbl = false := by
  obtain ⟨before, lbl, hlabels, hlbl, htenant⟩ := tenant_cases left ('.' :: tld)
  have hshort : properLabels ('.' :: tld) = [tld] := by
    have happend := properLabels_append [] tld
    rw [List.nil_append, properLabels_nil, List.nil_append, properLabels_of_notMem hdot htld] at happend
    exact happend
  rw [htenant, hlabels, List.reverse_append, List.reverse_singleton, List.singleton_append, List.head?_cons]
  simp only [Option.mem_def, Option.some.injEq, exists_eq_left']
  split
  · rename_i hname
    rw [properLabels_append, properLabels_of_notMem hlbl hname.1, hshort]
    exact iff_of_true (Nat.le_refl 2) hname
  · rename_i hname
    have hone : ¬ 2 ≤ [tld].length := Nat.lt_irrefl 1
    rw [hshort]
    exact iff_of_false hone hname

/-- The base has two labels just when the stripped host has a label before the last one, or the name of a tenant. -/
theorem two_le_base_iff (host : List Char) :
    2 ≤ (properLabels (baseDomainFromHost host)).length ↔ HasSite host := by
  have hlast := @last_ne_nil_of_stripped host
  rw [baseDomainFromHost_eq, HasSite]
  generalize stripped host = h at hlast
  obtain ⟨hdot, hsite⟩ | ⟨sld, tld, rfl, hsld, htld, hsite⟩ |
    ⟨left, sld, tld, rfl, hsld, htld, hshort, -, htenant⟩ := siteOf_cases h
  · have hone := length_properLabels_le hdot
    rw [hsite, labels_of_notMem hdot]
    refine iff_of_false ?_ id
    omega
  · have hne := hlast rfl
    rw [hsite, labels_append, labels_of_notMem hsld, labels_of_notMem htld, properLabels_append,
      properLabels_of_notMem htld hne]
    by_cases hempty : sld = []
    · subst hempty
      have hone : ¬ 2 ≤ [tld].length := Nat.lt_irrefl 1
      refine iff_of_false hone ?_
      rintro (hne | ⟨lbl, hlbl, -⟩)
      · exact hne rfl
      · cases hlbl
    · rw [properLabels_of_notMem hsld hempty]
      exact iff_of_true (Nat.le_refl 2) (.inl hempty)
  · have hne : tld ≠ [] := by
      refine @hlast (left ++ '.' :: sld) tld ?_
      rw [List.append_assoc, List.cons_append]
    have hreverse : (labels (left ++ '.' :: (sld ++ '.' :: tld))).reverse = tld :: sld :: (labels left).reverse := by
      rw [labels_append, labels_append, labels_of_notMem hsld, labels_of_notMem htld, List.reverse_append]
      rfl
    rw [hreverse]
    dsimp only
    by_cases hempty : sld = []
    · rw [htenant hempty, hempty, List.nil_append, two_le_tenant_iff left htld hne]
      constructor
      · exact .inr
      · rintro (habsurd | hname)
        · exact absurd rfl habsurd
        · exact hname
    · have hle := length_properLabels_of_suffix hshort
      rw [properLabels_append, properLabels_of_notMem hsld hempty, properLabels_of_notMem htld hne] at hle
      exact iff_of_true hle (.inl hempty)

/-- Counted with the empty ones, there are two labels just when the stripped host has a dot. -/
theorem two_le_labels_base_iff (host : List Char) :
    2 ≤ (labels (baseDomainFromHost host)).length ↔ '.' ∈ stripped host := by
  rw [baseDomainFromHost_eq]
  generalize stripped host = h
  have hdot : ∀ front back : List Char, '.' ∈ front ++ '.' :: back := by
    intro front back
    exact List.mem_append_right _ List.mem_cons_self
  have htwo : ∀ {sld tld : List Char}, '.' ∉ sld → '.' ∉ tld → (labels (sld ++ '.' :: tld)).length = 2 := by
    intro sld tld hsld htld
    rw [labels_append, labels_of_notMem hsld, labels_of_notMem htld]
    rfl
  obtain ⟨hnone, hsite⟩ | ⟨sld, tld, rfl, hsld, htld, hsite⟩ | ⟨left, sld, tld, rfl, hsld, htld, hshort, -, -⟩ :=
    siteOf_cases h
  · rw [hsite, labels_of_notMem hnone]
    have hone : ¬ 2 ≤ [h].length := Nat.lt_irrefl 1
    exact iff_of_false hone hnone
  · rw [hsite, htwo hsld htld]
    exact iff_of_true (Nat.le_refl 2) (hdot sld tld)
  · have hle := hshort.length_le
    rw [htwo hsld htld] at hle
    exact iff_of_true hle (hdot _ _)

/-! ### First-party requests -/

open NetworkManager in
/-- With a page on a host, a URL is first-party if its host has the same base, and the base is not empty. -/
theorem isFirstPartyUrl_iff (nm : NetworkManager) {page : String} {rest : List Char}
    (hpage : hostAndRest page.toList = some (host, rest)) (url : String) :
    (nm.setPageUrl page).isFirstPartyUrl url = true ↔
      baseDomainFromHost host ≠ [] ∧ ∃ other rest', hostAndRest url.toList = some (other, rest') ∧
        baseDomainFromHost other = baseDomainFromHost host := by
  have hdomain : (nm.setPageUrl page).documentTargetDomain = String.ofList (baseDomainFromHost host) := by
    have htarget : targetDomain page = String.ofList (baseDomainFromHost host) := by
      delta targetDomain
      rw [hpage]
    rw [setPageUrl, emitRequestPolicy]
    split
    · exact htarget
    · exact htarget
  rw [isFirstPartyUrl, hdomain]
  cases hbase : baseDomainFromHost host with
  | nil =>
    have hempty : String.ofList [] = "" := rfl
    rw [if_pos hempty]
    exact iff_of_false Bool.false_ne_true fun h => h.1 rfl
  | cons c base =>
    have hne : String.ofList (c :: base) ≠ "" := fun h => List.cons_ne_nil c base (String.ofList_injective h)
    rw [if_neg hne]
    cases hostAndRest url.toList with
    | none =>
      refine iff_of_false Bool.false_ne_true ?_
      rintro ⟨-, other, rest', habsurd, -⟩
      cases habsurd
    | some found =>
      obtain ⟨other, rest'⟩ := found
      dsimp only
      rw [decide_eq_true_iff, String.ofList_inj]
      constructor
      · intro hsame
        exact ⟨List.cons_ne_nil c base, other, rest', rfl, hsame⟩
      · rintro ⟨-, other, rest', hfound, hsame⟩
        cases hfound
        exact hsame

/-- The base of a host is a site of at least two labels at its end, and pages on the host share it with the first-party URLs. -/
structure SiteOnly (host : List Char) : Prop where
  suffix : labels (baseDomainFromHost host) <:+ labels (trimEndMatches '.' host)
  two : 2 ≤ (properLabels (baseDomainFromHost host)).length
  firstParty : ∀ (nm : NetworkManager) (page url : String) (rest : List Char),
    hostAndRest page.toList = some (host, rest) → (nm.setPageUrl page).isFirstPartyUrl url = true →
      ∃ site other rest', hostAndRest url.toList = some (other, rest') ∧ 2 ≤ (properLabels site).length ∧
        labels site <:+ labels (trimEndMatches '.' host) ∧ labels site <:+ labels (trimEndMatches '.' other)

theorem site_iff (host : List Char) : SiteOnly host ↔ HasSite host := by
  rw [← two_le_base_iff]
  constructor
  · exact SiteOnly.two
  · intro htwo
    refine ⟨base_suffix host, htwo, ?_⟩
    intro nm page url rest hpage hfirst
    obtain ⟨-, other, rest', hurl, hsame⟩ := (isFirstPartyUrl_iff nm hpage url).1 hfirst
    refine ⟨baseDomainFromHost host, other, rest', hurl, htwo, base_suffix host, ?_⟩
    rw [← hsame]
    exact base_suffix other

/-- The word is stripped from a site of two labels, so that another one is first-party to it. -/
theorem word_stripped :
    properLabels "www.com".toList = ["www".toList, "com".toList] ∧
      baseDomainFromHost "www.com".toList = "com".toList ∧ baseDomainFromHost "m.com".toList = "com".toList ∧
      (∀ nm : NetworkManager, (nm.setPageUrl "https://www.com/").isFirstPartyUrl "https://m.com/" = true) ∧
      ¬ SiteOnly "www.com".toList := by
  have hbase : baseDomainFromHost "www.com".toList = "com".toList := by decide
  have hother : baseDomainFromHost "m.com".toList = "com".toList := by decide
  refine ⟨by decide, hbase, hother, ?_, ?_⟩
  · intro nm
    have hpage : hostAndRest "https://www.com/".toList = some ("www.com".toList, ['/']) := by decide
    have hurl : hostAndRest "https://m.com/".toList = some ("m.com".toList, ['/']) := by decide
    apply (isFirstPartyUrl_iff nm hpage "https://m.com/").2
    rw [hbase]
    exact ⟨by decide, _, _, hurl, hother⟩
  intro h
  have htwo := h.two
  rw [hbase] at htwo
  revert htwo
  decide

/-! ### Addresses -/

/-- An address in four octets. -/
structure Address where
  first : UInt8
  second : UInt8
  third : UInt8
  fourth : UInt8
deriving DecidableEq

def octet (o : UInt8) : List Char := Nat.toDigits 10 o.toNat

/-- An address in dotted decimals. -/
def Address.dotted (a : Address) : List Char :=
  octet a.first ++ '.' :: (octet a.second ++ '.' :: (octet a.third ++ '.' :: octet a.fourth))

theorem octet_digit (o : UInt8) : ∀ c ∈ octet o, c.isDigit = true := by
  intro c hc
  exact Nat.isDigit_of_mem_toDigits (by decide) (by decide) hc

theorem octet_ne_nil (o : UInt8) : octet o ≠ [] := Nat.toDigits_ne_nil

theorem dot_notMem_octet (o : UInt8) : '.' ∉ octet o := by
  intro hdot
  have hdigit := octet_digit o '.' hdot
  revert hdigit
  decide

theorem octet_inj {o o' : UInt8} (h : octet o = octet o') : o = o' := by
  have hvalue := congrArg (fun digits => Nat.ofDigitChars 10 digits 0) h
  rw [octet, octet, Nat.ofDigitChars_ten_toDigits, Nat.ofDigitChars_ten_toDigits] at hvalue
  exact UInt8.toNat_inj.1 hvalue

theorem octet_head (o : UInt8) : ∃ c rest, octet o = c :: rest ∧ c.isDigit = true := by
  cases h : octet o with
  | nil => exact absurd h (octet_ne_nil o)
  | cons c rest =>
    refine ⟨c, rest, rfl, octet_digit o c ?_⟩
    rw [h]
    exact List.mem_cons_self

theorem toLower_of_isDigit {c : Char} (h : c.isDigit = true) : c.toLower = c := by
  rw [Char.isDigit, Bool.and_eq_true, decide_eq_true_iff, decide_eq_true_iff] at h
  refine dif_neg ?_
  rintro ⟨hupper, -⟩
  have hlower := UInt32.le_iff_toNat_le.1 h.2
  have hle := UInt32.le_iff_toNat_le.1 hupper
  exact absurd (hle.trans hlower) (by decide)

/-- No word of a list is a number, if each begins with something else. -/
theorem octet_notMem {words : List String}
    (hwords : (words.all fun word => word.toList.head?.all fun c => !c.isDigit) = true) (o : UInt8) :
    String.ofList (toAsciiLowercase (octet o)) ∉ words := by
  intro hmem
  obtain ⟨c, rest, hoctet, hdigit⟩ := octet_head o
  have hhead := List.all_eq_true.1 hwords _ hmem
  rw [String.toList_ofList, hoctet, toAsciiLowercase, List.map_cons, toLower_of_isDigit hdigit, List.head?_cons,
    Option.all_some, hdigit] at hhead
  cases hhead

theorem octet_not_common (o : UInt8) : isCommonSubdomainLabel (octet o) = false := by
  have hnot : String.ofList (toAsciiLowercase (octet o)) ∉ commonSubdomainLabels := octet_notMem (by decide) o
  rw [isCommonSubdomainLabel, decide_eq_false hnot, Bool.and_false]

theorem octet_not_ccSld (o : UInt8) : isCommonCcSld (octet o) = false :=
  decide_eq_false (octet_notMem (by decide) o)

theorem trimEndMatches_of_last {last : List Char} (front : List Char) (hdot : '.' ∉ last) (hne : last ≠ []) :
    trimEndMatches '.' (front ++ last) = front ++ last := by
  have hback : last.reverse ≠ [] := fun h => hne (List.reverse_eq_nil_iff.1 h)
  obtain ⟨c, back, hreverse⟩ := List.exists_cons_of_ne_nil hback
  have hc : c ≠ '.' := by
    rintro rfl
    apply hdot
    rw [← List.mem_reverse, hreverse]
    exact List.mem_cons_self
  rw [trimEndMatches, List.reverse_append, hreverse, List.cons_append,
    List.dropWhile_cons_of_neg (by rwa [decide_eq_true_iff]), ← List.cons_append, ← hreverse, ← List.reverse_append,
    List.reverse_reverse]

/-- A word that begins with another character is not stripped. -/
theorem stripPrefix?_of_head {c d : Char} {word rest : List Char} (h : d ≠ c) :
    (stripPrefix? (c :: rest) (d :: word)).getD (c :: rest) = c :: rest := by
  have hprefix : ¬ (d :: word).isPrefixOf (c :: rest) = true := by
    intro hprefix
    obtain ⟨back, hback⟩ := List.isPrefixOf_iff_prefix.1 hprefix
    exact h (List.cons.inj hback).1
  rw [stripPrefix?, if_neg hprefix]
  rfl

namespace Address

theorem stripped_dotted (a : Address) : stripped a.dotted = a.dotted := by
  have htrim : trimEndMatches '.' a.dotted = a.dotted := by
    have hlast := trimEndMatches_of_last (octet a.first ++ '.' :: (octet a.second ++ '.' :: (octet a.third ++ ['.'])))
      (dot_notMem_octet a.fourth) (octet_ne_nil a.fourth)
    simpa only [dotted, List.append_assoc, List.cons_append, List.nil_append] using hlast
  obtain ⟨c, rest, hoctet, hdigit⟩ := octet_head a.first
  have hw : 'w' ≠ c := by
    rintro rfl
    exact absurd hdigit (by decide)
  have hm : 'm' ≠ c := by
    rintro rfl
    exact absurd hdigit (by decide)
  rw [stripped, htrim, dotted, hoctet, List.cons_append]
  exact (congrArg (fun h => (stripPrefix? h "m.".toList).getD h) (stripPrefix?_of_head hw)).trans
    (stripPrefix?_of_head hm)

/-- The first octet is taken for the name of a host. -/
theorem base_dotted (a : Address) :
    baseDomainFromHost a.dotted = octet a.second ++ '.' :: (octet a.third ++ '.' :: octet a.fourth) := by
  have hfourth := splitLast_append_cons (octet a.first ++ '.' :: (octet a.second ++ '.' :: octet a.third))
    (dot_notMem_octet a.fourth)
  have hthird := splitLast_append_cons (octet a.first ++ '.' :: octet a.second) (dot_notMem_octet a.third)
  have hsecond := splitLast_append_cons (octet a.first) (dot_notMem_octet a.second)
  have hname : (!(octet a.second).isEmpty && !isCommonSubdomainLabel (octet a.second)) = true := by
    rw [octet_not_common, List.isEmpty_eq_false_iff.2 (octet_ne_nil a.second)]
    rfl
  have hcc : ¬ (utf8Len (octet a.fourth) = 2 ∧ isCommonCcSld (octet a.third) = true) := by
    rintro ⟨-, hcommon⟩
    rw [octet_not_ccSld] at hcommon
    cases hcommon
  simp only [List.append_assoc, List.cons_append] at hfourth hthird hsecond
  rw [baseDomainFromHost_eq, stripped_dotted, siteOf, dotted, hfourth]
  dsimp only
  rw [hthird]
  dsimp only
  rw [if_neg hcc, tenant, hsecond]
  dsimp only
  rw [if_pos hname]

theorem base_inj {a b : Address} :
    baseDomainFromHost a.dotted = baseDomainFromHost b.dotted ↔
      a.second = b.second ∧ a.third = b.third ∧ a.fourth = b.fourth := by
  rw [base_dotted, base_dotted]
  constructor
  · intro h
    have hlabels := congrArg labels h
    simp only [labels_append, labels_of_notMem (dot_notMem_octet _), List.singleton_append, List.cons.injEq] at hlabels
    obtain ⟨hsecond, hthird, hfourth, -⟩ := hlabels
    exact ⟨octet_inj hsecond, octet_inj hthird, octet_inj hfourth⟩
  · rintro ⟨hsecond, hthird, hfourth⟩
    rw [hsecond, hthird, hfourth]

end Address

/-- A URL on another address is not first-party unless it differs in the first octet alone. -/
theorem same_address_iff (nm : NetworkManager) (a b : Address) {page url : String} {rest rest' : List Char}
    (hpage : hostAndRest page.toList = some (a.dotted, rest)) (hurl : hostAndRest url.toList = some (b.dotted, rest')) :
    ((nm.setPageUrl page).isFirstPartyUrl url = true → a = b) ↔
      (a.second = b.second → a.third = b.third → a.fourth = b.fourth → a.first = b.first) := by
  have hfirst : (nm.setPageUrl page).isFirstPartyUrl url = true ↔
      a.second = b.second ∧ a.third = b.third ∧ a.fourth = b.fourth := by
    rw [isFirstPartyUrl_iff nm hpage, ← Address.base_inj]
    constructor
    · rintro ⟨-, other, rest'', hfound, hsame⟩
      rw [hurl] at hfound
      cases hfound
      exact hsame.symm
    · intro hsame
      have hne : baseDomainFromHost a.dotted ≠ [] := by
        rw [a.base_dotted]
        exact List.append_ne_nil_of_left_ne_nil (octet_ne_nil _) _
      exact ⟨hne, _, _, hurl, hsame.symm⟩
  rw [hfirst]
  constructor
  · intro h hsecond hthird hfourth
    rw [h ⟨hsecond, hthird, hfourth⟩]
  · rintro h ⟨hsecond, hthird, hfourth⟩
    have hsame := h hsecond hthird hfourth
    cases a
    cases b
    simp only at hsecond hthird hfourth hsame
    rw [hsame, hsecond, hthird, hfourth]

/-- Two addresses with the same last octets. -/
theorem foreign_address :
    hostAndRest "http://1.2.3.4/".toList = some (Address.dotted ⟨1, 2, 3, 4⟩, ['/']) ∧
      hostAndRest "http://9.2.3.4/".toList = some (Address.dotted ⟨9, 2, 3, 4⟩, ['/']) ∧
      (⟨1, 2, 3, 4⟩ : Address) ≠ ⟨9, 2, 3, 4⟩ ∧
      ∀ nm : NetworkManager, (nm.setPageUrl "http://1.2.3.4/").isFirstPartyUrl "http://9.2.3.4/" = true := by
  have hpage : hostAndRest "http://1.2.3.4/".toList = some (Address.dotted ⟨1, 2, 3, 4⟩, ['/']) := by decide
  have hurl : hostAndRest "http://9.2.3.4/".toList = some (Address.dotted ⟨9, 2, 3, 4⟩, ['/']) := by decide
  refine ⟨hpage, hurl, by decide, ?_⟩
  intro nm
  apply (isFirstPartyUrl_iff nm hpage "http://9.2.3.4/").2
  exact ⟨by decide, _, _, hurl, by decide⟩

/-- An address that differs in its last octet as well. -/
theorem other_address :
    hostAndRest "http://1.2.3.4/".toList = some (Address.dotted ⟨1, 2, 3, 4⟩, ['/']) ∧
      hostAndRest "http://9.2.3.5/".toList = some (Address.dotted ⟨9, 2, 3, 5⟩, ['/']) ∧
      ∀ nm : NetworkManager, (nm.setPageUrl "http://1.2.3.4/").isFirstPartyUrl "http://9.2.3.5/" = true →
        (⟨1, 2, 3, 4⟩ : Address) = ⟨9, 2, 3, 5⟩ := by
  have hpage : hostAndRest "http://1.2.3.4/".toList = some (Address.dotted ⟨1, 2, 3, 4⟩, ['/']) := by decide
  have hurl : hostAndRest "http://9.2.3.5/".toList = some (Address.dotted ⟨9, 2, 3, 5⟩, ['/']) := by decide
  refine ⟨hpage, hurl, ?_⟩
  intro nm
  exact (same_address_iff nm ⟨1, 2, 3, 4⟩ ⟨9, 2, 3, 5⟩ hpage hurl).2 (by decide)

end NetworkUtils

end SpiderChrome
