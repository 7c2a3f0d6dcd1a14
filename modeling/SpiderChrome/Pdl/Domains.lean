import SpiderChrome.Pdl.Reading

/-!
# Domains that are read back

An element is added to its domain when the next element or domain begins, or the text ends. `Between` are the states in which that, done at once, gives the domains.
-/

namespace SpiderChrome.Pdl

open Scanner
open ParseState (stepLine)

/-! ### What is under way -/

/-- Nothing waits for a description, and the domains are these when what is under way is finished. -/
structure Between (front : Front) (domains : List Domain) (s : ParseState) : Prop where
  quiet : s.description = none
  current : s.domains.getLast?.map Domain.name = domains.getLast?.map Domain.name
  flush : ∃ memberEnum,
    s.flush = .ok ⟨front.protocolDescription, domains, none, front.version, none, none, memberEnum⟩

theorem flush_describe (s : ParseState) (description : Option String) :
    ParseState.flush { s with description := description } =
      (fun s => { s with description := description }) <$> s.flush := by
  obtain ⟨protocolDescription, domains, waiting, version, element, member, memberEnum⟩ := s
  rw [ParseState.flush, ParseState.flush]
  dsimp only
  cases domains.getLast? with
  | none => rfl
  | some domain =>
    cases element with
    | none => rfl
    | some element =>
      cases member with
      | none => rfl
      | some member =>
        dsimp only [bind, Except.bind]
        cases element.addMember member with
        | error error => rfl
        | ok element => rfl

variable {front : Front} {domains : List Domain} {d : Domain}

theorem Within.between {s : ParseState} (h : Within front domains none none s) : Between front domains s := by
  obtain ⟨memberEnum, rfl⟩ := h
  refine ⟨rfl, rfl, memberEnum, ?_⟩
  rw [ParseState.flush]
  dsimp only
  cases domains.getLast? with
  | none => rfl
  | some domain => rfl

theorem Building.between {target : Element} {s : ParseState} (h : Building front (domains ++ [d]) target s) :
    Between front (domains ++ [target.consume d]) s := by
  obtain ⟨element, member, hfinish, memberEnum, rfl⟩ := h
  refine ⟨rfl, ?_, memberEnum, ?_⟩
  · dsimp only
    rw [List.getLast?_concat, List.getLast?_concat, Option.map_some, Option.map_some, Element.name_consume]
  · rw [ParseState.flush]
    dsimp only
    rw [List.getLast?_concat]
    cases member with
    | none =>
      obtain rfl : element = target := Except.ok.inj hfinish
      dsimp only [bind, Except.bind, pure, Except.pure]
      rw [List.modifyLast_concat]
    | some member =>
      have hadd : element.addMember member = .ok target := hfinish
      dsimp only [bind, Except.bind, pure, Except.pure]
      rw [hadd]
      dsimp only
      rw [List.modifyLast_concat]

/-- What is under way is finished with a description that waits. -/
theorem Between.flush_described {s : ParseState} (h : Between front domains s) (description : Option String) :
    ∃ memberEnum, ParseState.flush { s with description := description } =
      .ok ⟨front.protocolDescription, domains, description, front.version, none, none, memberEnum⟩ := by
  obtain ⟨memberEnum, hflush⟩ := h.flush
  refine ⟨memberEnum, ?_⟩
  rw [flush_describe, hflush]
  rfl

theorem Between.current_domain {s : ParseState} (h : Between front domains s) (hdomain : domains.getLast? = some d) :
    ∃ raw, s.domains.getLast? = some raw ∧ raw.name = d.name := by
  have hcurrent := h.current
  rw [hdomain, Option.map_some] at hcurrent
  exact Option.map_eq_some_iff.1 hcurrent

/-! ### Elements -/

theorem leads_type {ty : TypeDef} (hdomain : domains.getLast? = some d) (h : ty.WellFormed d.name) :
    Leads stepLine (Between front domains) (commentLines 2 ty.description ++ [indented 2 (typeHeader ty)])
      (Within front domains (some (.type { ty with item := none })) none) := by
  apply leads_described 2 h.description fun _ hs => hs.quiet
  intro s hs
  obtain ⟨raw, hraw, hname⟩ := hs.current_domain hdomain
  obtain ⟨memberEnum, hflush⟩ := hs.flush_described ty.description
  obtain ⟨hrawName, hcircular⟩ := h.derived
  refine ⟨_, ⟨memberEnum, rfl⟩, ?_⟩
  intro place
  rw [stepLine, classify_type h.name h.extendsType.word, ParseState.step]
  dsimp only
  rw [hraw, h.extendsType.new_word]
  dsimp only [ParseState.getOrBail, bind, Except.bind]
  rw [hflush]
  dsimp only [pure, Except.pure]
  rw [hname, ← hrawName, ← hcircular]

/-- A command or an event as its header alone says. -/
def callElement (isCommand : Bool) (description : Option String) (header : Header) (domain : String) : Element :=
  if isCommand then
    .command ⟨description, header.experimental, header.deprecated, header.name, none, [], [],
      domain ++ "." ++ header.name, isCircularDep domain header.name⟩
  else
    .event ⟨description, header.experimental, header.deprecated, header.name, [], domain ++ "." ++ header.name,
      isCircularDep domain header.name⟩

theorem leads_call (isCommand experimental deprecated : Bool) {description : Option String} {name : String}
    (hdomain : domains.getLast? = some d) (hdescription : Description description) (hword : Word name) :
    Leads stepLine (Between front domains)
      (commentLines 2 description ++ [indented 2 (headerText experimental deprecated (callWord isCommand) name)])
      (Within front domains (some (callElement isCommand description ⟨experimental, deprecated, name⟩ d.name)) none) := by
  apply leads_described 2 hdescription fun _ hs => hs.quiet
  intro s hs
  obtain ⟨raw, hraw, hname⟩ := hs.current_domain hdomain
  obtain ⟨memberEnum, hflush⟩ := hs.flush_described description
  refine ⟨_, ⟨memberEnum, rfl⟩, ?_⟩
  intro place
  rw [stepLine, classify_call experimental deprecated isCommand hword, ParseState.step]
  dsimp only
  rw [hraw]
  dsimp only [ParseState.getOrBail, bind, Except.bind]
  rw [hflush]
  dsimp only [pure, Except.pure]
  rw [hname]
  rfl

theorem leads_command {cmd : Command} (hdomain : domains.getLast? = some d) (h : cmd.WellFormed d.name) :
    Leads stepLine (Between front domains)
      (commentLines 2 cmd.description ++
        [indented 2 (headerText cmd.experimental cmd.deprecated "command " cmd.name)])
      (Within front domains (some (.command { cmd with redirect := none, parameters := [], returns := [] })) none) := by
  have hcall := @leads_call front domains d true cmd.experimental cmd.deprecated cmd.description cmd.name hdomain
    h.description h.name
  obtain ⟨hraw, hcircular⟩ := h.derived
  rw [callElement, if_pos rfl] at hcall
  dsimp only at hcall
  rw [← hraw, ← hcircular] at hcall
  exact hcall

theorem leads_event {ev : Event} (hdomain : domains.getLast? = some d) (h : ev.WellFormed d.name) :
    Leads stepLine (Between front domains)
      (commentLines 2 ev.description ++ [indented 2 (headerText ev.experimental ev.deprecated "event " ev.name)])
      (Within front domains (some (.event { ev with parameters := [] })) none) := by
  have hcall := @leads_call front domains d false ev.experimental ev.deprecated ev.description ev.name hdomain
    h.description h.name
  obtain ⟨hraw, hcircular⟩ := h.derived
  rw [callElement, if_neg Bool.false_ne_true] at hcall
  dsimp only at hcall
  rw [← hraw, ← hcircular] at hcall
  exact hcall

/-- What is left of an element. -/
def Element.readBack : Element → Element
  | type ty => type ty
  | command cmd => command cmd.readBack
  | event ev => event ev

/-- The element stands in a domain of the name. -/
def Element.WellFormed (domain : String) : Element → Prop
  | type ty => ty.WellFormed domain
  | command cmd => cmd.WellFormed domain
  | event ev => ev.WellFormed domain

theorem leads_elementLines {element : Element} (hdomain : domains.getLast? = some d) (h : element.WellFormed d.name)
    (hparams : Readable d.name element.params) :
    Leads stepLine (Between front domains) (elementLines element) (Building front domains element.readBack) := by
  cases element with
  | type ty =>
    rw [elementLines, List.append_cons]
    exact (leads_type hdomain h).append (leads_itemLines hdomain h hparams)
  | command cmd =>
    rw [elementLines, List.append_cons]
    exact (leads_command hdomain h).append (leads_commandBody hdomain h hparams)
  | event ev =>
    rw [elementLines, List.append_cons]
    have hadd : (Element.event { ev with parameters := [] }).addMember ⟨.parameters, ev.parameters⟩ =
      .ok (.event ev) := rfl
    have hempty : ev.parameters = [] → Element.event ev = .event { ev with parameters := [] } := by
      intro hnil
      rw [← hnil]
    apply (leads_event hdomain h).append
    apply (leads_sectionLines classify_parameters hdomain hparams hadd hempty).mono _ (fun _ hs => hs)
    intro s hs
    exact ⟨_, none, rfl, hs⟩

/-- The elements are read one after the other, each into its domain. -/
theorem leads_elements {elements : List Element}
    (h : ∀ element ∈ elements, element.WellFormed d.name ∧ Readable d.name element.params) :
    Leads stepLine (Between front (domains ++ [d])) (elements.flatMap fun element => [] :: elementLines element)
      (Between front (domains ++ [elements.foldl (fun d element => element.readBack.consume d) d])) := by
  induction elements generalizing d with
  | nil => exact Leads.nil fun _ hs => hs
  | cons element elements ih =>
    obtain ⟨⟨hwell, hparams⟩, hrest⟩ := List.forall_mem_cons.1 h
    have hname : (element.readBack.consume d).name = d.name := Element.name_consume _ _
    have helement := @leads_elementLines front (domains ++ [d]) d element List.getLast?_concat hwell hparams
    rw [List.flatMap_cons, List.foldl_cons, List.cons_append]
    apply (leads_blank _).cons
    apply (helement.mono (fun _ hs => hs) fun _ hs => hs.between).append
    apply ih
    rw [hname]
    exact hrest

/-! ### Domains -/

/-- What is left of a domain. -/
def Domain.readBack (domain : Domain) : Domain := { domain with commands := domain.commands.map Command.readBack }

theorem foldl_consume (elements : List Element) (d : Domain) :
    elements.foldl (fun d element => element.readBack.consume d) d =
      { d with
        types := d.types ++ elements.filterMap Element.type?
        commands := d.commands ++ (elements.filterMap Element.command?).map Command.readBack
        events := d.events ++ elements.filterMap Element.event? } := by
  induction elements generalizing d with
  | nil => simp
  | cons element elements ih =>
    rw [List.foldl_cons, ih]
    cases element with
    | type ty => simp [List.filterMap_cons, Element.readBack, Element.consume, Element.type?, Element.command?, Element.event?]
    | command cmd => simp [List.filterMap_cons, Element.readBack, Element.consume, Element.type?, Element.command?, Element.event?]
    | event ev => simp [List.filterMap_cons, Element.readBack, Element.consume, Element.type?, Element.command?, Element.event?]

theorem Domain.Lists.foldl_consume {domain : Domain} {elements : List Element} (h : domain.Lists elements) :
    elements.foldl (fun d element => element.readBack.consume d)
      { domain with types := [], commands := [], events := [] } = domain.readBack := by
  rw [Pdl.foldl_consume, h.types, h.commands, h.events]
  rfl

theorem Domain.WellFormed.element {domain : Domain} {elements : List Element} (h : domain.WellFormed)
    (hlists : domain.Lists elements) {element : Element} (helement : element ∈ elements) :
    element.WellFormed domain.name := by
  cases element with
  | type ty =>
    apply h.types
    rw [← hlists.types]
    exact List.mem_filterMap.2 ⟨_, helement, rfl⟩
  | command cmd =>
    apply h.commands
    rw [← hlists.commands]
    exact List.mem_filterMap.2 ⟨_, helement, rfl⟩
  | event ev =>
    apply h.events
    rw [← hlists.events]
    exact List.mem_filterMap.2 ⟨_, helement, rfl⟩

theorem leads_domain {domain : Domain} (h : domain.WellFormed) :
    Leads stepLine (Between front domains)
      (commentLines 0 domain.description ++
        [headerText domain.experimental domain.deprecated "domain " domain.name])
      (Within front (domains ++ [{ domain with dependencies := [], types := [], commands := [], events := [] }])
        none none) := by
  apply leads_described 0 h.description fun _ hs => hs.quiet
  intro s hs
  obtain ⟨memberEnum, hflush⟩ := hs.flush_described domain.description
  refine ⟨_, ⟨memberEnum, rfl⟩, ?_⟩
  intro place
  rw [stepLine, classify_domain _ _ h.name, ParseState.step, hflush]
  rfl

theorem leads_dependsOn (d : Domain) (done : List String) {name : String} (h : Word name) :
    Leads stepLine (Within front (domains ++ [{ d with dependencies := done }]) none none)
      [indented 2 ("depends on ".toList ++ name.toList)]
      (Within front (domains ++ [{ d with dependencies := done ++ [name] }]) none none) := by
  apply Leads.single
  rintro s ⟨memberEnum, rfl⟩
  refine ⟨_, ⟨memberEnum, rfl⟩, ?_⟩
  intro place
  rw [stepLine, classify_dependsOn h, ParseState.step]
  dsimp only
  rw [List.getLast?_concat, List.modifyLast_concat]
  rfl

theorem leads_domainLines {domain : Domain} {elements : List Element} (h : domain.WellFormed)
    (hlists : domain.Lists elements) (hparams : ∀ element ∈ elements, Readable domain.name element.params) :
    Leads stepLine (Between front domains) (domainLines domain elements)
      (Between front (domains ++ [domain.readBack])) := by
  have hdepends : Leads stepLine
      (Within front (domains ++ [{ domain with dependencies := [], types := [], commands := [], events := [] }])
        none none)
      (domain.dependencies.flatMap fun name => [indented 2 ("depends on ".toList ++ name.toList)])
      (Within front (domains ++ [{ domain with types := [], commands := [], events := [] }]) none none) :=
    Leads.flatMap (fun done name hname => @leads_dependsOn front domains
      { domain with types := [], commands := [], events := [] } done name (h.dependencies name hname)) []
  have helements := @leads_elements front domains { domain with types := [], commands := [], events := [] } elements
    fun element helement => ⟨h.element hlists helement, hparams element helement⟩
  rw [hlists.foldl_consume] at helements
  rw [← List.map_eq_flatMap] at hdepends
  rw [domainLines, List.append_cons]
  apply (leads_blank _).cons
  apply (leads_domain h).append
  apply hdepends.append
  exact helements.mono (fun _ hs => hs.between) fun _ hs => hs

end SpiderChrome.Pdl
