import SpiderChrome.Pdl.Text

/-!
# The round trip of protocol definitions

A protocol that is printed is read back, but for the names of its redirects: they are looked for in a description that has been taken before. A parameter that is an array of an enumeration with literals is not read at all: the literals are looked for an enumeration, and the parameter has an array.
-/

namespace SpiderChrome.Pdl

open Scanner
open ParseState (stepLine)

/-- What is left of a protocol. -/
def Protocol.readBack (protocol : Protocol) : Protocol :=
  { protocol with domains := protocol.domains.map Domain.readBack }

variable {protocol : Protocol} {orders : List (List Element)}

/-! ### Protocols without literals of arrays -/

theorem leads_major (front : Option String) (n : Nat) {major : Nat} (h : major < 2 ^ 64) :
    Leads stepLine (Within ⟨front, some ⟨n, 0⟩⟩ [] none none) [indented 2 ("major ".toList ++ Nat.toDigits 10 major)]
      (Within ⟨front, some ⟨major, 0⟩⟩ [] none none) := by
  apply Leads.single
  rintro s ⟨memberEnum, rfl⟩
  refine ⟨_, ⟨memberEnum, rfl⟩, ?_⟩
  intro place
  rw [stepLine, classify_major, ParseState.step]
  dsimp only [ParseState.getOrBail, bind, Except.bind]
  rw [parseUsize_toDigits h]
  rfl

theorem leads_minor (front : Option String) (major : Nat) {minor : Nat} (h : minor < 2 ^ 64) :
    Leads stepLine (Within ⟨front, some ⟨major, 0⟩⟩ [] none none)
      [indented 2 ("minor ".toList ++ Nat.toDigits 10 minor)]
      (Within ⟨front, some ⟨major, minor⟩⟩ [] none none) := by
  apply Leads.single
  rintro s ⟨memberEnum, rfl⟩
  refine ⟨_, ⟨memberEnum, rfl⟩, ?_⟩
  intro place
  rw [stepLine, classify_minor, ParseState.step]
  dsimp only [ParseState.getOrBail, bind, Except.bind]
  rw [parseUsize_toDigits h]
  rfl

/-- The description at the top of the text is that of the protocol. -/
theorem leads_front (h : protocol.WellFormed) :
    Leads stepLine (fun s => s = ParseState.new)
      (commentLines 0 protocol.description ++ [] :: versionLines protocol.version)
      (Within ⟨protocol.description, some protocol.version⟩ [] none none) := by
  have hdescription : Leads stepLine (fun s => s = ParseState.new) (commentLines 0 protocol.description)
      (fun s => s = { ParseState.new with description := protocol.description }) := by
    rintro s rfl
    exact ⟨_, rfl, fun place => read_description 0 h.description rfl place⟩
  have hversion : Leads stepLine (fun s => s = { ParseState.new with description := protocol.description })
      ["version".toList] (Within ⟨protocol.description, some ⟨0, 0⟩⟩ [] none none) := by
    apply Leads.single
    rintro s rfl
    refine ⟨_, ⟨false, rfl⟩, ?_⟩
    intro place
    rw [stepLine, classify_version]
    rfl
  apply hdescription.append
  apply (leads_blank _).cons
  apply hversion.cons
  apply (leads_major _ _ h.major).cons
  exact leads_minor _ _ h.minor

theorem Element.WellFormed.params {domain : String} {element : Element} (h : element.WellFormed domain) :
    ∀ param ∈ element.params, param.WellFormed domain := by
  cases element with
  | type ty =>
    cases hitem : ty.item with
    | none =>
      rw [Element.params, hitem]
      exact List.forall_mem_nil _
    | some item =>
      rw [Element.params, hitem]
      cases item with
      | enum variants => exact List.forall_mem_nil _
      | properties params => exact h.properties params hitem
  | command cmd => exact List.forall_mem_append.2 ⟨h.parameters, h.returns⟩
  | event ev => exact h.parameters

/-- No parameter, return value or property has literals in an array. -/
def NoEnumArrays (orders : List (List Element)) : Prop :=
  ∀ elements ∈ orders, ∀ element ∈ elements, ∀ param ∈ element.params, ¬ param.isEnumArray

theorem map_readBack_zip (horders : List.Forall₂ Domain.Lists protocol.domains orders) :
    (protocol.domains.zip orders).map (fun entry => entry.1.readBack) = protocol.domains.map Domain.readBack := by
  have hfst : (protocol.domains.zip orders).map Prod.fst = protocol.domains :=
    List.map_fst_zip (le_of_eq horders.length_eq)
  calc (protocol.domains.zip orders).map (fun entry => entry.1.readBack)
      = ((protocol.domains.zip orders).map Prod.fst).map Domain.readBack := by rw [List.map_map]; rfl
    _ = protocol.domains.map Domain.readBack := by rw [hfst]

theorem leads_protocol (h : protocol.WellFormed) (horders : List.Forall₂ Domain.Lists protocol.domains orders)
    (harrays : NoEnumArrays orders) :
    Leads stepLine (fun s => s = ParseState.new) (protocolLines protocol orders)
      (Between ⟨protocol.description, some protocol.version⟩ (protocol.domains.map Domain.readBack)) := by
  have hentry : ∀ done : List (Domain × List Element), ∀ entry ∈ protocol.domains.zip orders,
      Leads stepLine
        (Between ⟨protocol.description, some protocol.version⟩ (done.map fun entry => entry.1.readBack))
        (domainLines entry.1 entry.2)
        (Between ⟨protocol.description, some protocol.version⟩
          ((done ++ [entry]).map fun entry => entry.1.readBack)) := by
    rintro done ⟨domain, elements⟩ hmem
    obtain ⟨hdomain, helements⟩ := List.of_mem_zip hmem
    have hwell := h.domains domain hdomain
    have hlists : domain.Lists elements := List.forall₂_zip horders hmem
    rw [List.map_append, List.map_singleton]
    apply leads_domainLines hwell hlists
    intro element helement param hparam
    exact ⟨(hwell.element hlists helement).params param hparam, harrays elements helements element helement param hparam⟩
  have hdomains := Leads.flatMap hentry []
  rw [List.nil_append, map_readBack_zip horders] at hdomains
  rw [protocolLines, ← List.cons_append, ← List.append_assoc]
  exact (leads_front h).append (hdomains.mono (fun _ hs => hs.between) fun _ hs => hs)

/-- A protocol without literals of arrays is read back without the names of its redirects. -/
theorem parsePdl_print (h : protocol.WellFormed) (horders : List.Forall₂ Domain.Lists protocol.domains orders)
    (harrays : NoEnumArrays orders) : parsePdl (print protocol orders) = .ok protocol.readBack := by
  obtain ⟨s, hs, hread⟩ := leads_protocol h horders harrays _ rfl
  obtain ⟨memberEnum, hflush⟩ := hs.flush
  rw [parsePdl, lines_print h horders, ParseState.run, hread]
  dsimp only [bind, Except.bind]
  rw [hflush]
  rfl

/-! ### Literals of arrays -/

/-- The literals that follow are looked for in a type that is an array. -/
def Stuck (s : ParseState) : Prop :=
  s.memberEnum = true ∧
    ∃ kind params param ty, s.member = some ⟨kind, params ++ [param]⟩ ∧ param.ty = .arrayOf ty

theorem read_anyDescription (indent : Nat) {description : Option String} (h : Description description)
    (s : ParseState) : ∃ text, ∀ place,
      readFrom stepLine place s (commentLines indent description) = .ok { s with description := text } := by
  cases description with
  | none => exact ⟨s.description, fun _ => rfl⟩
  | some text => exact ⟨_, fun place => read_comments indent (h text rfl) place s⟩

theorem pushMemberVariant_array (lineNum : Nat) (variant : Variant) (kind : Section) (params : List Param)
    {param : Param} {ty : PdlType} (harray : param.ty = .arrayOf ty) :
    ParseState.pushMemberVariant lineNum variant ⟨kind, params ++ [param]⟩ =
      ParseState.bail lineNum "missing enum declaration" := by
  have hlast : (params ++ [param]).getLast? = some param := List.getLast?_concat
  rw [ParseState.pushMemberVariant]
  dsimp only
  rw [hlast]
  dsimp only [ParseState.getOrBail, bind, Except.bind]
  rw [ParseState.pushVariant, harray]
  rfl

theorem fails_variant {variant : Variant} (h : variant.WellFormed) : Fails stepLine Stuck (variantLines 8 variant) := by
  rintro s ⟨hmemberEnum, kind, params, param, ty, hmember, harray⟩ place
  obtain ⟨text, hread⟩ := read_anyDescription 8 h.description s
  have hliteral : ∀ place, stepLine place { s with description := text } (indented 8 variant.name.toList) =
      ParseState.bail place "missing enum declaration" := by
    intro place
    have hpush := pushMemberVariant_array place ⟨text, variant.name⟩ kind params harray
    rw [stepLine, classify_literal 8 (.inr rfl) h.name, ParseState.step]
    dsimp only
    rw [if_pos hmemberEnum, hmember]
    dsimp only [ParseState.getOrBail, bind, Except.bind]
    rw [hpush]
    rfl
  have hlines : readFrom stepLine place s (variantLines 8 variant) =
      ParseState.bail (place + (commentLines 8 variant.description).length) "missing enum declaration" := by
    rw [variantLines, readFrom_append, hread]
    exact (readFrom_singleton _ _ _).trans (hliteral _)
  exact ⟨_, hlines⟩

/-- The line of an array of an enumeration is refused, or leads to where a literal is. -/
theorem stuck_of_stepLine {domain : String} {param : Param} (h : param.WellFormed domain)
    {ty : PdlType} (hty : param.ty = .arrayOf ty) (henum : param.ty.word = "enum") {s s' : ParseState} {place : Nat}
    (hstep : stepLine place s (indented 6 (memberText param)) = .ok s') : Stuck s' := by
  rw [stepLine, classify_member h.name h.ty.word, ParseState.step] at hstep
  cases hdomain : s.domains.getLast? with
  | none =>
    rw [hdomain] at hstep
    cases hstep
  | some domain =>
    cases hmember : s.member with
    | none =>
      rw [hdomain, hmember] at hstep
      cases hstep
    | some member =>
      rw [hdomain, hmember] at hstep
      obtain rfl := Except.ok.inj hstep
      refine ⟨if_pos henum, member.kind, member.params, _, .named "enum", rfl, ?_⟩
      show PdlType.new param.ty.word param.ty.isArray = .arrayOf (.named "enum")
      rw [henum, hty]
      rfl

theorem fails_paramLines {domain : String} {param : Param} (h : param.WellFormed domain) (harray : param.isEnumArray) :
    Fails stepLine (fun _ => True) (paramLines param) := by
  obtain ⟨variants, hne, hty⟩ := harray
  cases variants with
  | nil => exact absurd rfl hne
  | cons variant variants =>
    have hliterals : param.ty.literals = variant :: variants := by
      rw [hty]
      rfl
    have henum : param.ty.word = "enum" := by
      rw [hty]
      rfl
    have hvariant : variant.WellFormed := h.ty.variant variant (by rw [hliterals]; exact List.mem_cons_self)
    have hfails := (fails_variant hvariant).append (variants.flatMap (variantLines 8))
    rw [paramLines, hliterals, List.flatMap_cons]
    apply Fails.after_any
    intro s _ place
    rw [readFrom]
    cases hstep : stepLine place s (indented 6 (memberText param)) with
    | error error => exact ⟨error, rfl⟩
    | ok s' => exact hfails s' (stuck_of_stepLine h hty henum hstep) _

theorem fails_sectionLines {params : List Param} {param : Param} (hparam : param ∈ params)
    (h : Fails stepLine (fun _ => True) (paramLines param)) (word : String) :
    Fails stepLine (fun _ => True) (sectionLines word params) := by
  rw [sectionLines, if_neg (List.ne_nil_of_mem hparam)]
  exact (Fails.flatMap hparam h).cons_any _

theorem fails_elementLines {element : Element} {param : Param} (hparam : param ∈ element.params)
    (h : Fails stepLine (fun _ => True) (paramLines param)) :
    Fails stepLine (fun _ => True) (elementLines element) := by
  cases element with
  | type ty =>
    rw [elementLines, List.append_cons]
    apply Fails.after_any
    cases hitem : ty.item with
    | none =>
      rw [Element.params, hitem] at hparam
      exact absurd hparam List.not_mem_nil
    | some item =>
      rw [Element.params, hitem] at hparam
      cases item with
      | enum variants => exact absurd hparam List.not_mem_nil
      | properties params => exact (Fails.flatMap hparam h).cons_any _
  | command cmd =>
    rw [elementLines, List.append_cons]
    apply Fails.after_any
    apply Fails.after_any
    obtain hparameter | hreturn := List.mem_append.1 hparam
    · exact (fails_sectionLines hparameter h _).append _
    · exact (fails_sectionLines hreturn h _).after_any _
  | event ev =>
    rw [elementLines, List.append_cons]
    exact (fails_sectionLines hparam h _).after_any _

theorem exists_domain (horders : List.Forall₂ Domain.Lists protocol.domains orders) {elements : List Element}
    (helements : elements ∈ orders) : ∃ domain, (domain, elements) ∈ protocol.domains.zip orders := by
  have hsnd : (protocol.domains.zip orders).map Prod.snd = orders := List.map_snd_zip (ge_of_eq horders.length_eq)
  rw [← hsnd] at helements
  obtain ⟨⟨domain, elements⟩, hentry, rfl⟩ := List.mem_map.1 helements
  exact ⟨domain, hentry⟩

theorem fails_protocolLines {domain : Domain} {elements : List Element} {element : Element}
    (hentry : (domain, elements) ∈ protocol.domains.zip orders) (helement : element ∈ elements)
    (h : Fails stepLine (fun _ => True) (elementLines element)) :
    Fails stepLine (fun _ => True) (protocolLines protocol orders) := by
  have hdomain : Fails stepLine (fun _ => True) (domainLines domain elements) := by
    rw [domainLines, List.append_cons]
    apply Fails.cons_any
    apply Fails.after_any
    apply Fails.after_any
    exact Fails.flatMap helement (h.cons_any _)
  rw [protocolLines, List.append_cons]
  apply Fails.after_any
  apply Fails.after_any
  exact Fails.flatMap hentry hdomain

/-- A protocol with literals of an array is not read. -/
theorem parsePdl_print_error (h : protocol.WellFormed)
    (horders : List.Forall₂ Domain.Lists protocol.domains orders) (harrays : ¬ NoEnumArrays orders) :
    ∃ error, parsePdl (print protocol orders) = .error error := by
  simp only [NoEnumArrays, not_forall, not_not] at harrays
  obtain ⟨elements, helements, element, helement, param, hparam, harray⟩ := harrays
  obtain ⟨domain, hentry⟩ := exists_domain horders helements
  have hwell := (h.domains domain (List.of_mem_zip hentry).1).element (List.forall₂_zip horders hentry) helement
  have hfails := fails_elementLines hparam (fails_paramLines (hwell.params param hparam) harray)
  obtain ⟨error, hread⟩ := fails_protocolLines hentry helement hfails ParseState.new trivial 1
  refine ⟨error, ?_⟩
  rw [parsePdl, lines_print h horders, ParseState.run, hread]
  rfl

/-! ### The round trip -/

/-- No command is redirected to a command of another name. -/
def NoRedirectNames (protocol : Protocol) : Prop :=
  ∀ domain ∈ protocol.domains, ∀ cmd ∈ domain.commands, ∀ redirect ∈ cmd.redirect, redirect.name = none

theorem Redirect.readBack_eq_iff {redirect : Redirect} : redirect.readBack = redirect ↔ redirect.name = none := by
  constructor
  · intro heq
    rw [← heq]
    rfl
  · intro hnone
    rw [Redirect.readBack, ← hnone]

theorem Command.readBack_eq_iff {cmd : Command} :
    cmd.readBack = cmd ↔ ∀ redirect ∈ cmd.redirect, redirect.name = none := by
  have hfield : cmd.readBack = cmd ↔ cmd.redirect.map Redirect.readBack = cmd.redirect := by
    constructor
    · intro heq
      exact congrArg Command.redirect heq
    · intro heq
      rw [Command.readBack, heq]
  rw [hfield]
  cases cmd.redirect with
  | none => exact ⟨fun _ => (by simp), fun _ => rfl⟩
  | some redirect =>
    rw [Option.map_some, Option.some_inj, Redirect.readBack_eq_iff]
    constructor
    · rintro hnone r hr
      rw [← Option.some.inj hr]
      exact hnone
    · intro hnone
      exact hnone redirect rfl

theorem map_eq_self_iff {A : Type} {f : A → A} {l : List A} : l.map f = l ↔ ∀ a ∈ l, f a = a := by
  have hmap := @List.map_inj_left _ _ l f id
  rw [List.map_id] at hmap
  exact hmap

theorem Domain.readBack_eq_iff {domain : Domain} :
    domain.readBack = domain ↔ ∀ cmd ∈ domain.commands, ∀ redirect ∈ cmd.redirect, redirect.name = none := by
  have hfield : domain.readBack = domain ↔ domain.commands.map Command.readBack = domain.commands := by
    constructor
    · intro heq
      exact congrArg Domain.commands heq
    · intro heq
      rw [Domain.readBack, heq]
  rw [hfield, map_eq_self_iff]
  exact forall₂_congr fun _ _ => Command.readBack_eq_iff

theorem Protocol.readBack_eq_iff : protocol.readBack = protocol ↔ NoRedirectNames protocol := by
  have hfield : protocol.readBack = protocol ↔ protocol.domains.map Domain.readBack = protocol.domains := by
    constructor
    · intro heq
      exact congrArg Protocol.domains heq
    · intro heq
      rw [Protocol.readBack, heq]
  rw [hfield, map_eq_self_iff]
  exact forall₂_congr fun _ _ => Domain.readBack_eq_iff

/-- The protocol that is read from a printed one is the same exactly if none of its redirects has a name and none of its parameters has literals in an array. -/
theorem parsePdl_print_iff (h : protocol.WellFormed) (horders : List.Forall₂ Domain.Lists protocol.domains orders) :
    parsePdl (print protocol orders) = .ok protocol ↔ NoRedirectNames protocol ∧ NoEnumArrays orders := by
  constructor
  · intro hparse
    by_cases harrays : NoEnumArrays orders
    · refine ⟨?_, harrays⟩
      rw [parsePdl_print h horders harrays] at hparse
      exact Protocol.readBack_eq_iff.1 (Except.ok.inj hparse)
    · obtain ⟨error, herror⟩ := parsePdl_print_error h horders harrays
      rw [herror] at hparse
      cases hparse
  · rintro ⟨hnames, harrays⟩
    rw [parsePdl_print h horders harrays, Protocol.readBack_eq_iff.2 hnames]

/-! ### A command of the files of the browser -/

/-- The command is redirected to another domain, with a description of the redirect. -/
def hideHighlight (description name : Option String) : Command :=
  { description := some "Hides any highlight.", experimental := false, deprecated := false, name := "hideHighlight"
    redirect := some ⟨description, "Overlay", name⟩, parameters := [], returns := [], rawName := "DOM.hideHighlight"
    isCircularDep := false }

def highlightProtocol (description name : Option String) : Protocol :=
  { description := none, version := ⟨1, 3⟩
    domains :=
      [{ description := none, experimental := false, deprecated := false, name := "DOM", dependencies := ["Runtime"]
         types := [], commands := [hideHighlight description name], events := [] }] }

def highlightOrders (description name : Option String) : List (List Element) :=
  [[.command (hideHighlight description name)]]

theorem highlight_lists (description name : Option String) :
    List.Forall₂ Domain.Lists (highlightProtocol description name).domains (highlightOrders description name) :=
  .cons ⟨rfl, rfl, rfl⟩ .nil

theorem description_of_trimmed {text : String} (hfirst : Begins text.toList) (hlast : Ends text.toList) :
    Description (some text) := by
  intro text' htext piece hpiece
  obtain rfl := Option.some.inj htext
  rw [List.splitOn_eq_singleton hfirst.noNewline, List.mem_singleton] at hpiece
  rw [hpiece]
  exact trimmed hfirst hlast

theorem hideHighlight_wellFormed {description name : Option String} (hdescription : Description description)
    (hname : name = description.bind ParseState.commandToUse) :
    (hideHighlight description name).WellFormed "DOM" := by
  have htext : Description (some "Hides any highlight.") :=
    description_of_trimmed ⟨⟨'H', rfl, by decide⟩, by decide⟩ ⟨⟨'.', rfl, by decide⟩, by decide⟩
  have hword : Word "hideHighlight" := word_of_all (by decide) (by decide) (by decide)
  have hoverlay : Word "Overlay" := word_of_all (by decide) (by decide) (by decide)
  have hcircular : false = isCircularDep "DOM" "hideHighlight" := by decide +kernel
  refine ⟨htext, hword, ?_, List.forall_mem_nil _, List.forall_mem_nil _, rfl, hcircular⟩
  intro redirect hredirect
  rw [← Option.some.inj hredirect]
  exact ⟨hdescription, hoverlay, hname⟩

theorem highlight_wellFormed {description name : Option String} (hdescription : Description description)
    (hname : name = description.bind ParseState.commandToUse) : (highlightProtocol description name).WellFormed := by
  have hmajor : 1 < 2 ^ 64 := by decide
  have hminor : 3 < 2 ^ 64 := by decide
  have hdom : Word "DOM" := word_of_all (by decide) (by decide) (by decide)
  have hruntime : Word "Runtime" := word_of_all (by decide) (by decide) (by decide)
  refine ⟨nofun, hmajor, hminor, ?_⟩
  intro domain hdomain
  rw [List.mem_singleton.1 hdomain]
  exact ⟨nofun, hdom, List.forall_mem_singleton.2 hruntime, List.forall_mem_nil _,
    List.forall_mem_singleton.2 (hideHighlight_wellFormed hdescription hname), List.forall_mem_nil _⟩

/-- Without a name, the redirect is read back. -/
theorem highlight_round_trip :
    parsePdl (print (highlightProtocol none none) (highlightOrders none none)) = .ok (highlightProtocol none none) := by
  have hwell : (highlightProtocol none none).WellFormed := highlight_wellFormed (fun _ => nofun) rfl
  apply (parsePdl_print_iff hwell (highlight_lists none none)).2
  refine ⟨?_, ?_⟩
  · intro domain hdomain cmd hcmd redirect hredirect
    rw [List.mem_singleton.1 hdomain] at hcmd
    rw [List.mem_singleton.1 hcmd] at hredirect
    rw [← Option.some.inj hredirect]
  · intro elements helements element helement param hparam
    rw [List.mem_singleton.1 helements] at helement
    rw [List.mem_singleton.1 helement] at hparam
    exact absurd hparam List.not_mem_nil

theorem highlight_loses_name :
    (highlightProtocol (some "Use 'Overlay.hideHighlight' instead") (some "hideHighlight")).WellFormed ∧
      parsePdl (print
        (highlightProtocol (some "Use 'Overlay.hideHighlight' instead") (some "hideHighlight"))
        (highlightOrders (some "Use 'Overlay.hideHighlight' instead") (some "hideHighlight"))) =
        .ok (highlightProtocol (some "Use 'Overlay.hideHighlight' instead") none) ∧
      ¬ ∀ protocol orders, protocol.WellFormed → List.Forall₂ Domain.Lists protocol.domains orders →
        parsePdl (print protocol orders) = .ok protocol := by
  have hwell : (highlightProtocol (some "Use 'Overlay.hideHighlight' instead") (some "hideHighlight")).WellFormed :=
    highlight_wellFormed
      (description_of_trimmed ⟨⟨'U', rfl, by decide⟩, by decide⟩ ⟨⟨'d', rfl, by decide⟩, by decide⟩) (by decide +kernel)
  have hread : parsePdl (print
      (highlightProtocol (some "Use 'Overlay.hideHighlight' instead") (some "hideHighlight"))
      (highlightOrders (some "Use 'Overlay.hideHighlight' instead") (some "hideHighlight"))) =
    .ok (highlightProtocol (some "Use 'Overlay.hideHighlight' instead") none) := by decide +kernel
  refine ⟨hwell, hread, ?_⟩
  intro hall
  have hsame := hall _ _ hwell (highlight_lists _ _)
  rw [hread] at hsame
  exact absurd (Except.ok.inj hsame) (by decide +kernel)

end SpiderChrome.Pdl
