import Mathlib.Data.List.Forall2
import SpiderChrome.Pdl.Domains

/-!
# The lines of the printed text

No printed line has a line end in it, and none ends in a carriage return, so that the lines of the text are those that were printed.
-/

namespace SpiderChrome.Pdl

/-- A line that is left as it is. -/
structure Whole (line : List Char) : Prop where
  noNewline : '\n' ∉ line
  noReturn : line.getLast? ≠ some '\r'

theorem splitOn_lines {printed : List (List Char)} (h : ∀ line ∈ printed, Whole line) :
    (printed.flatMap fun line => line ++ ['\n']).splitOn '\n' = printed ++ [[]] := by
  induction printed with
  | nil => rfl
  | cons line printed ih =>
    obtain ⟨hline, hprinted⟩ := List.forall_mem_cons.1 h
    rw [List.flatMap_cons, ← List.append_cons, List.splitOn_append_cons_self_of_not_mem hline.noNewline, ih hprinted,
      List.cons_append]

theorem Whole.stripLine {line : List Char} (h : Whole line) : stripLine line = line := if_neg h.noReturn

theorem lines_flatMap {printed : List (List Char)} (h : ∀ line ∈ printed, Whole line) :
    lines (printed.flatMap fun line => line ++ ['\n']) = printed := by
  have hstrip : printed.map stripLine = printed.map id := List.map_congr_left fun line hline => (h line hline).stripLine
  rw [List.map_id] at hstrip
  rw [lines, splitOn_lines h, List.dropLast_concat, List.getLast?_concat, if_pos rfl, hstrip, List.append_nil]

/-! ### The printed lines -/

theorem Ends.whole {text : List Char} (h : Ends text) (indent : Nat) : Whole (indented indent text) := by
  have hindent : '\n' ∉ List.replicate indent ' ' := by
    intro hmem
    exact absurd (List.eq_of_mem_replicate hmem) (by decide)
  obtain ⟨⟨c, hlast, hc⟩, hnewline⟩ := h.append hindent
  refine ⟨hnewline, ?_⟩
  rw [indented, hlast]
  intro heq
  rw [Option.some.inj heq] at hc
  exact absurd hc (by decide)

theorem newline_notMem_of_mem_splitOn {text piece : List Char} (h : piece ∈ text.splitOn '\n') : '\n' ∉ piece := by
  induction text generalizing piece with
  | nil =>
    rw [List.mem_singleton.1 h]
    exact List.not_mem_nil
  | cons c text ih =>
    rw [List.splitOn_cons_eq_if_modifyHead] at h
    split at h
    · obtain rfl | hrest := List.mem_cons.1 h
      · exact List.not_mem_nil
      · exact ih hrest
    · rename_i hc
      cases hpieces : text.splitOn '\n' with
      | nil => exact absurd hpieces (List.splitOn_ne_nil _ _)
      | cons first pieces =>
        rw [hpieces] at h ih
        obtain rfl | hrest := List.mem_cons.1 h
        · intro hmem
          obtain heq | hfirst := List.mem_cons.1 hmem
          · exact hc (beq_iff_eq.2 heq.symm)
          · exact ih List.mem_cons_self hfirst
        · exact ih (List.mem_cons_of_mem _ hrest)

theorem ends_commentText {piece : List Char} (h : Trimmed piece) (hnewline : '\n' ∉ piece) : Ends (commentText piece) := by
  rw [commentText]
  split
  · exact ⟨⟨'#', rfl, by decide⟩, by decide⟩
  · rename_i hne
    have hends : Ends piece := by
      refine ⟨⟨piece.getLast hne, List.getLast?_eq_some_getLast hne, ?_⟩, hnewline⟩
      exact h.last _ (List.getLast?_eq_some_getLast hne)
    exact @Ends.append ['#', ' '] _ (by decide) hends

theorem whole_commentLines (indent : Nat) {description : Option String} (h : Description description) :
    ∀ line ∈ commentLines indent description, Whole line := by
  cases description with
  | none => exact List.forall_mem_nil _
  | some text =>
    rw [commentLines, List.forall_mem_map]
    intro piece hpiece
    exact (ends_commentText (h text rfl piece hpiece) (newline_notMem_of_mem_splitOn hpiece)).whole indent

theorem whole_variantLines (indent : Nat) {variant : Variant} (h : variant.WellFormed) :
    ∀ line ∈ variantLines indent variant, Whole line := by
  rw [variantLines, List.forall_mem_append, List.forall_mem_singleton]
  exact ⟨whole_commentLines indent h.description, h.name.solid.ends.whole indent⟩

theorem PdlType.WellFormed.variant {ty : PdlType} (h : ty.WellFormed) : ∀ variant ∈ ty.literals, variant.WellFormed := by
  by_cases hliterals : ty.literals = []
  · rw [hliterals]
    exact List.forall_mem_nil _
  · obtain henum | henum := h.eq_enum hliterals
    · rw [henum] at h
      exact h
    · rw [henum] at h
      exact h

theorem whole_paramLines {domain : String} {param : Param} (h : param.WellFormed domain) :
    ∀ line ∈ paramLines param, Whole line := by
  rw [paramLines, List.forall_mem_append, List.forall_mem_cons, List.forall_mem_flatMap]
  refine ⟨whole_commentLines 6 h.description, (ends_memberText h.name h.ty.word).whole 6, ?_⟩
  intro variant hvariant
  exact whole_variantLines 8 (h.ty.variant variant hvariant)

theorem whole_section {domain word : String} (hword : Ends word.toList) {params : List Param}
    (h : ∀ param ∈ params, param.WellFormed domain) :
    ∀ line ∈ indented 4 word.toList :: params.flatMap paramLines, Whole line := by
  rw [List.forall_mem_cons, List.forall_mem_flatMap]
  exact ⟨hword.whole 4, fun param hparam => whole_paramLines (h param hparam)⟩

theorem whole_sectionLines {domain word : String} (hword : Ends word.toList) {params : List Param}
    (h : ∀ param ∈ params, param.WellFormed domain) : ∀ line ∈ sectionLines word params, Whole line := by
  rw [sectionLines]
  split
  · exact List.forall_mem_nil _
  · exact whole_section hword h

theorem ends_parameters : Ends "parameters".toList := ⟨⟨'s', rfl, by decide⟩, by decide⟩

theorem whole_itemLines {domain : String} {ty : TypeDef} (h : ty.WellFormed domain) :
    ∀ line ∈ itemLines ty.item, Whole line := by
  cases hitem : ty.item with
  | none => exact List.forall_mem_nil _
  | some item =>
    cases item with
    | enum variants =>
      have henum : Ends "enum".toList := ⟨⟨'m', rfl, by decide⟩, by decide⟩
      rw [itemLines, List.forall_mem_cons, List.forall_mem_flatMap]
      exact ⟨henum.whole 4, fun variant hvariant => whole_variantLines 6 (h.enum variants hitem variant hvariant)⟩
    | properties params => exact whole_section ⟨⟨'s', rfl, by decide⟩, by decide⟩ (h.properties params hitem)

theorem whole_redirectLines {redirect : Option Redirect} (h : ∀ r ∈ redirect, r.WellFormed) :
    ∀ line ∈ redirectLines redirect, Whole line := by
  cases redirect with
  | none => exact List.forall_mem_nil _
  | some redirect =>
    obtain ⟨hdescription, hdomain, -⟩ := h redirect rfl
    have hends : Ends ("redirect ".toList ++ redirect.domain.toList) := hdomain.solid.ends.append (by decide)
    rw [redirectLines, List.forall_mem_append, List.forall_mem_singleton]
    exact ⟨whole_commentLines 4 hdescription, hends.whole 4⟩

theorem whole_elementLines {domain : String} {element : Element} (h : element.WellFormed domain) :
    ∀ line ∈ elementLines element, Whole line := by
  cases element with
  | type ty =>
    have hheader := (ends_typeHeader h.name h.extendsType.word).whole 2
    rw [elementLines, List.forall_mem_append, List.forall_mem_cons]
    exact ⟨whole_commentLines 2 h.description, hheader, whole_itemLines h⟩
  | command cmd =>
    have hheader : Ends (headerText cmd.experimental cmd.deprecated "command " cmd.name) :=
      ends_header (by decide) h.name.solid.ends _ _
    rw [elementLines, List.forall_mem_append, List.forall_mem_cons, List.forall_mem_append, List.forall_mem_append]
    exact ⟨whole_commentLines 2 h.description, hheader.whole 2, whole_redirectLines h.redirect,
      whole_sectionLines ends_parameters h.parameters, whole_sectionLines ⟨⟨'s', rfl, by decide⟩, by decide⟩ h.returns⟩
  | event ev =>
    have hheader : Ends (headerText ev.experimental ev.deprecated "event " ev.name) :=
      ends_header (by decide) h.name.solid.ends _ _
    rw [elementLines, List.forall_mem_append, List.forall_mem_cons]
    exact ⟨whole_commentLines 2 h.description, hheader.whole 2, whole_sectionLines ends_parameters h.parameters⟩

theorem whole_blank : Whole [] := ⟨List.not_mem_nil, nofun⟩

theorem whole_domainLines {domain : Domain} {elements : List Element} (h : domain.WellFormed)
    (hlists : domain.Lists elements) : ∀ line ∈ domainLines domain elements, Whole line := by
  have hheader : Ends (headerText domain.experimental domain.deprecated "domain " domain.name) :=
    ends_header (by decide) h.name.solid.ends _ _
  rw [domainLines, List.forall_mem_cons, List.forall_mem_append, List.forall_mem_cons, List.forall_mem_append,
    List.forall_mem_map, List.forall_mem_flatMap]
  refine ⟨whole_blank, whole_commentLines 0 h.description, hheader.whole 0, ?_, ?_⟩
  · intro name hname
    have hdepends : Ends ("depends on ".toList ++ name.toList) := (h.dependencies name hname).solid.ends.append (by decide)
    exact hdepends.whole 2
  · intro element helement
    rw [List.forall_mem_cons]
    exact ⟨whole_blank, whole_elementLines (h.element hlists helement)⟩

theorem whole_versionLines (version : Version) : ∀ line ∈ versionLines version, Whole line := by
  have hword : Ends "version".toList := ⟨⟨'n', rfl, by decide⟩, by decide⟩
  have hmajor : Ends ("major ".toList ++ Nat.toDigits 10 version.major) := (toDigits_ends _).append (by decide)
  have hminor : Ends ("minor ".toList ++ Nat.toDigits 10 version.minor) := (toDigits_ends _).append (by decide)
  rw [versionLines, List.forall_mem_cons, List.forall_mem_cons, List.forall_mem_singleton]
  exact ⟨hword.whole 0, hmajor.whole 2, hminor.whole 2⟩

variable {protocol : Protocol} {orders : List (List Element)}

theorem whole_protocolLines (h : protocol.WellFormed) (horders : List.Forall₂ Domain.Lists protocol.domains orders) :
    ∀ line ∈ protocolLines protocol orders, Whole line := by
  rw [protocolLines, List.forall_mem_append, List.forall_mem_cons, List.forall_mem_append, List.forall_mem_flatMap]
  refine ⟨whole_commentLines 0 h.description, whole_blank, whole_versionLines _, ?_⟩
  rintro ⟨domain, elements⟩ hentry
  exact whole_domainLines (h.domains domain (List.of_mem_zip hentry).1) (List.forall₂_zip horders hentry)

theorem lines_print (h : protocol.WellFormed) (horders : List.Forall₂ Domain.Lists protocol.domains orders) :
    lines (print protocol orders).toList = protocolLines protocol orders := by
  rw [print, String.toList_ofList]
  exact lines_flatMap (whole_protocolLines h horders)

end SpiderChrome.Pdl
