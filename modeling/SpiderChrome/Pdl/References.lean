import SpiderChrome.Pdl.Mentions

/-!
# References between generated types

A type that a definition refers to is written as a path, from the module of the one domain to that of the other. `references_resolve` says that Rust finds there what was made for the definition that is meant, and that no path dangles exactly where everything that is meant was included.
-/

namespace SpiderChrome.Pdl

open ModuleTree (Path)

variable {w : Nat} {α β : Type}

namespace Settings

variable {g : Settings w} {domain : Domain}

/-! ### The tables -/

section Tables

variable {name : String}

theorem get_foldl_set (domains : List Domain) (idx : Nat) (t : Table String Nat) :
    (domains.foldl (fun t d => t.set d.name idx) t).get name =
      if name ∈ domains.map Domain.name then some idx else t.get name := by
  induction domains generalizing t with
  | nil => rfl
  | cons d domains ih =>
    rw [List.foldl_cons, ih, Table.get_set, List.map_cons]
    by_cases hrest : name ∈ domains.map Domain.name
    · rw [if_pos hrest, if_pos (List.mem_cons_of_mem _ hrest)]
    · rw [if_neg hrest]
      refine if_congr ?_ rfl rfl
      rw [List.mem_cons, or_iff_left hrest]

/-- A domain is in the table if it is in one of the files, with the place of one that it is in. -/
theorem get_foldl_files (name : String) (files : List ((String × Protocol) × Nat)) (t : Table String Nat) :
    ((∃ file ∈ files, name ∈ file.1.2.domains.map Domain.name ∧
        (files.foldl (fun t file => file.1.2.domains.foldl (fun t d => t.set d.name file.2) t) t).get name = some file.2)) ∨
      (∀ file ∈ files, name ∉ file.1.2.domains.map Domain.name) ∧
        (files.foldl (fun t file => file.1.2.domains.foldl (fun t d => t.set d.name file.2) t) t).get name = t.get name := by
  induction files generalizing t with
  | nil => exact .inr ⟨fun _ h => absurd h List.not_mem_nil, rfl⟩
  | cons file files ih =>
    rw [List.foldl_cons]
    rcases ih (file.1.2.domains.foldl (fun t d => t.set d.name file.2) t) with ⟨later, hlater, hname, hget⟩ | ⟨hnone, hget⟩
    · exact .inl ⟨later, List.mem_cons_of_mem _ hlater, hname, hget⟩
    · rw [get_foldl_set] at hget
      by_cases hname : name ∈ file.1.2.domains.map Domain.name
      · rw [if_pos hname] at hget
        exact .inl ⟨file, List.mem_cons_self, hname, hget⟩
      · rw [if_neg hname] at hget
        exact .inr ⟨List.forall_mem_cons.2 ⟨hname, hnone⟩, hget⟩

/-- What the table has for a name is a file with a domain of that name. -/
theorem mem_of_get_domains (g : Options w) {pdls : List (String × Protocol)} {idx : Nat}
    (h : (g.register pdls).domains.get name = some idx) : ∃ pdl, pdls[idx]? = some pdl ∧ name ∈ pdl.2.domains.map Domain.name := by
  rcases get_foldl_files name pdls.zipIdx ∅ with ⟨⟨pdl, i⟩, hmem, hname, hget⟩ | ⟨-, hget⟩
  · rw [Options.register, hget] at h
    cases h
    exact ⟨pdl, List.mem_zipIdx_iff_getElem?.1 hmem, hname⟩
  · rw [Options.register, hget] at h
    cases h

theorem get_domains_of_mem (g : Options w) {pdls : List (String × Protocol)} {pdl : String × Protocol} (hpdl : pdl ∈ pdls)
    (hname : name ∈ pdl.2.domains.map Domain.name) : ∃ idx, (g.register pdls).domains.get name = some idx := by
  rcases get_foldl_files name pdls.zipIdx ∅ with ⟨file, -, -, hget⟩ | ⟨hnone, -⟩
  · exact ⟨file.2, hget⟩
  · obtain ⟨idx, hidx⟩ := List.mem_iff_getElem?.1 hpdl
    exact absurd hname (hnone (pdl, idx) (List.mem_zipIdx_iff_getElem?.2 hidx))

/-- Where no two domains have the same name, the table says which file a domain is in. -/
theorem get_domains_iff (g : Options w) {pdls : List (String × Protocol)}
    (hdomains : (pdls.flatMap fun pdl => pdl.2.domains.map Domain.name).Nodup) {idx : Nat} :
    (g.register pdls).domains.get name = some idx ↔
      ∃ pdl, pdls[idx]? = some pdl ∧ name ∈ pdl.2.domains.map Domain.name := by
  refine ⟨mem_of_get_domains g, ?_⟩
  rintro ⟨pdl, hidx, hname⟩
  obtain ⟨i, hget⟩ := get_domains_of_mem g (List.mem_of_getElem? hidx) hname
  obtain ⟨pdl', hi, hname'⟩ := mem_of_get_domains g hget
  rw [hget]
  apply congrArg some
  obtain ⟨hilt, rfl⟩ := List.getElem?_eq_some_iff.1 hi
  obtain ⟨hidxlt, rfl⟩ := List.getElem?_eq_some_iff.1 hidx
  have hpairwise := List.pairwise_iff_getElem.1 (List.nodup_flatMap.1 hdomains).2
  rcases Nat.lt_trichotomy i idx with hlt | hsame | hlt
  · exact absurd hname (hpairwise i idx hilt hidxlt hlt hname')
  · exact hsame
  · exact absurd hname' (hpairwise idx i hidxlt hilt hlt hname)

end Tables

/-! ### The modules -/

/-- What was made under a name for a definition of a domain. -/
def Made (g : Settings w) (pdls : List (String × Protocol)) (dom ident : String) (item : RustItem) : Prop :=
  ∃ pdl ∈ pdls, ∃ domain ∈ g.keptDomains pdl.2.domains, domain.name = dom ∧ ∃ dt ∈ g.keptDatatypes domain,
    ∃ items, Gen.Yields (g.generateType domain dt) items ∧ (ident, item) ∈ items

/-- A reference to a type of a domain, in the fields that are included or in the enum of all events, with the module that it stands in. -/
inductive Refers (g : Settings w) (pdls : List (String × Protocol)) : List String → String → String → Prop
  | field {pdl : String × Protocol} {domain : Domain} {dt : DomainDatatype} {dom ident : String} (hpdl : pdl ∈ pdls)
    (hdomain : domain ∈ g.keptDomains pdl.2.domains) (hdt : dt ∈ g.keptDatatypes domain)
    (hmention : (dom, ident) ∈ g.typeMentions domain dt) : Refers g pdls [pdl.1, g.toSnakeCase domain.name] dom ident
  | event {pdl : String × Protocol} {domain : Domain} {ev : Event} (hpdl : pdl ∈ pdls)
    (hdomain : domain ∈ g.keptDomains pdl.2.domains) (hev : ev ∈ g.keptEvents domain) :
    Refers g pdls ["events"] domain.name ("Event" ++ g.toUpperCamelCase ev.name)

/-- The module of a domain. -/
def DomainModule (g : Settings w) (domain : Domain) (entry : String × ModuleTree RustItem) : Prop :=
  entry.1 = g.toSnakeCase domain.name ∧ ∃ items, entry.2 = .mk items [] ∧ Gen.Yields (g.generateDomain domain) items

/-- The module of a file. -/
def FileModule (g : Settings w) (pdl : String × Protocol) (entry : String × ModuleTree RustItem) : Prop :=
  entry.1 = pdl.1 ∧ ∃ domains, entry.2 = .mk [] domains ∧
    List.Forall₂ g.DomainModule (g.keptDomains pdl.2.domains) domains

theorem yields_generateDomain {pdl : Protocol} {domains : List (String × ModuleTree RustItem)}
    (h : Gen.Yields (g.generateTypes pdl.domains) domains) :
    List.Forall₂ g.DomainModule (g.keptDomains pdl.domains) domains := by
  refine h.collect_one fun domain piece hpiece => ?_
  obtain ⟨items, hitems, hpiece⟩ := hpiece.bind
  exact ⟨_, hpiece.pure, rfl, items, rfl, hitems⟩

theorem yields_generateModules {pdls : List (String × Protocol)} {modules : List (String × ModuleTree RustItem)}
    (h : Gen.Yields (g.generateModules pdls) modules) : List.Forall₂ g.FileModule pdls modules := by
  refine h.collect_one fun pdl piece hpiece => ?_
  obtain ⟨domains, hdomains, hpiece⟩ := hpiece.bind
  exact ⟨_, hpiece.pure, rfl, domains, rfl, yields_generateDomain hdomains⟩

/-! ### The file that is written -/

variable {pdls : List (String × Protocol)} {fuel : Nat} {crate : ModuleTree RustItem}

/-- The modules and the events of a file that is written. -/
structure Wrote (g : Settings w) (pdls : List (String × Protocol)) (crate : ModuleTree RustItem)
    (modules : List (String × ModuleTree RustItem)) (events : List EventType) : Prop where
  output : crate = g.output modules events
  modules : List.Forall₂ g.FileModule pdls modules
  events : ∃ sizes, g.generateEventEnums sizes pdls = .ok events

theorem wrote_compilePdls {g : Options w} (h : g.compilePdls fuel pdls = some (.ok crate)) :
    ∃ modules events, (g.register pdls).Wrote pdls crate modules events := by
  rw [Options.compilePdls] at h
  split at h
  · cases h
  rename_i modules sizes hmodules
  obtain ⟨resolved, -, h⟩ := Option.map_eq_some_iff.1 h
  split at h
  · cases h
  rename_i _ sizes'
  cases hevents : (g.register pdls).generateEventEnums sizes' pdls with
  | error panic =>
    rw [hevents] at h
    cases h
  | ok events =>
    rw [hevents] at h
    cases h
    exact ⟨modules, events, rfl, yields_generateModules ⟨_, _, hmodules⟩, _, hevents⟩

theorem forall₂_of_mapM {f : α → Except Panicked β} {as : List α} {bs : List β} (h : as.mapM f = .ok bs) :
    List.Forall₂ (fun a b => f a = .ok b) as bs := by
  induction as generalizing bs with
  | nil =>
    cases h
    exact .nil
  | cons a as ih =>
    rw [List.mapM_cons] at h
    cases hfirst : f a with
    | error panic =>
      rw [hfirst] at h
      cases h
    | ok b =>
      rw [hfirst] at h
      cases hrest : as.mapM f with
      | error panic =>
        rw [hrest] at h
        cases h
      | ok rest =>
        rw [hrest] at h
        cases h
        exact .cons hfirst (ih hrest)

end Settings

/-! ### What paths mean -/

/-- A path stands in an item of a module. -/
def Contains (crate : ModuleTree RustItem) (place : List String) (path : Path) : Prop :=
  ∃ m, crate.descend place = some m ∧ path ∈ RustItem.allPaths m.items

/-- No path dangles. -/
def Closed (crate : ModuleTree RustItem) : Prop :=
  ∀ place path, Contains crate place path → ∃ item, crate.resolve place path = some item

section Meaning

open Settings

variable {g : Options w} {pdls : List (String × Protocol)} {crate : ModuleTree RustItem}
  {modules : List (String × ModuleTree RustItem)} {events : List EventType}
  (hdomains : (pdls.flatMap fun pdl => pdl.2.domains.map Domain.name).Nodup)

include hdomains

/-- The table has the file of every domain. -/
theorem get_of_domain {pdl : String × Protocol} (hpdl : pdl ∈ pdls) {domain : Domain} (hdomain : domain ∈ pdl.2.domains) :
    ∃ idx, (g.register pdls).domains.get domain.name = some idx ∧ pdls[idx]? = some pdl := by
  obtain ⟨idx, hidx⟩ := List.mem_iff_getElem?.1 hpdl
  exact ⟨idx, (get_domains_iff g hdomains).2 ⟨pdl, hidx, List.mem_map_of_mem hdomain⟩, hidx⟩

/-- What the table has for a domain is its file. -/
theorem file_of_get {idx : Nat} {name : String} (h : (g.register pdls).domains.get name = some idx) :
    ∃ pdl ∈ pdls, pdls[idx]? = some pdl ∧ (g.register pdls).protocolMods[idx]? = some pdl.1 ∧
      ∃ domain ∈ pdl.2.domains, domain.name = name := by
  obtain ⟨pdl, hidx, hname⟩ := (get_domains_iff g hdomains).1 h
  refine ⟨pdl, List.mem_of_getElem? hidx, hidx, ?_, List.mem_map.1 hname⟩
  rw [Options.register, List.getElem?_map, hidx]
  rfl

/-- The event of an enum's variant, with its file. -/
theorem generateEvent_ok {sizes : Generator w} {pdl : String × Protocol} (hpdl : pdl ∈ pdls) {domain : Domain}
    (hdomain : domain ∈ pdl.2.domains) {ev : Event} {made : EventType}
    (h : (g.register pdls).generateEvent sizes domain ev = .ok made) :
    made.tyQualifier g = ⟨1, [pdl.1, g.toSnakeCase domain.name], "Event" ++ g.toUpperCamelCase ev.name⟩ := by
  obtain ⟨idx, hget, hidx⟩ := get_of_domain (g := g) hdomains hpdl hdomain
  obtain ⟨pdl', -, hidx', hmod, -⟩ := file_of_get hdomains hget
  obtain rfl := Option.some.inj (hidx.symm.trans hidx')
  rw [generateEvent, hget] at h
  dsimp only at h
  rw [hmod] at h
  dsimp only at h
  split at h
  · cases h
  · cases h
    rfl

/-- The paths of the enum of all events. -/
theorem paths_events_iff {sizes : Generator w} (hevents : (g.register pdls).generateEventEnums sizes pdls = .ok events)
    {path : Path} :
    path ∈ (events.map (EventType.variant g)).flatMap (fun variant => variant.2.paths) ↔
      ∃ pdl ∈ pdls, ∃ domain ∈ g.keptDomains pdl.2.domains, ∃ ev ∈ g.keptEvents domain,
        path = ⟨1, [pdl.1, g.toSnakeCase domain.name], "Event" ++ g.toUpperCamelCase ev.name⟩ := by
  have hpaths : ∀ made : EventType, (made.variant g).2.paths = [made.tyQualifier g] := by
    intro made
    rw [EventType.variant]
    split_ifs
    all_goals rfl
  have hmade := forall₂_of_mapM hevents
  rw [List.flatMap_map, List.mem_flatMap]
  simp only [hpaths, List.mem_singleton]
  constructor
  · rintro ⟨made, hmem, rfl⟩
    obtain ⟨⟨domain, ev⟩, hpair, hev⟩ := exists_of_mem_right hmade hmem
    obtain ⟨pdl, hpdl, hpair⟩ := List.mem_flatMap.1 hpair
    obtain ⟨domain', hdomain, hpair⟩ := List.mem_flatMap.1 hpair
    obtain ⟨ev', hev', hsame⟩ := List.mem_map.1 hpair
    cases hsame
    exact ⟨pdl, hpdl, domain, hdomain, ev, hev', generateEvent_ok hdomains hpdl (List.mem_of_mem_filter hdomain) hev⟩
  · rintro ⟨pdl, hpdl, domain, hdomain, ev, hev, rfl⟩
    obtain ⟨made, hmem, hok⟩ := exists_of_mem_left hmade (a := (domain, ev))
      (List.mem_flatMap.2 ⟨pdl, hpdl, List.mem_flatMap.2 ⟨domain, hdomain, List.mem_map_of_mem hev⟩⟩)
    exact ⟨made, hmem, (generateEvent_ok hdomains hpdl (List.mem_of_mem_filter hdomain) hok).symm⟩

omit hdomains in
/-- The module of a file is found under its name. -/
theorem descend_file (hwrote : (g.register pdls).Wrote pdls crate modules events) (hdistinct : crate.Distinct)
    {pdl : String × Protocol} (hpdl : pdl ∈ pdls) :
    ∃ entries, crate.descend [pdl.1] = some (.mk [] entries) ∧
      List.Forall₂ (g.register pdls).DomainModule (g.keptDomains pdl.2.domains) entries := by
  obtain ⟨⟨name, m⟩, hentry, hname, entries, hm, hentries⟩ := exists_of_mem_left hwrote.modules hpdl
  dsimp only at hname hm
  subst hname hm
  refine ⟨entries, ?_, hentries⟩
  rw [ModuleTree.descend_singleton, hdistinct.child_iff (ModuleTree.descend_nil crate), hwrote.output]
  exact List.mem_append_left _ (List.mem_append_right _ hentry)

omit hdomains in
/-- The module of a domain that is included is found under its name. -/
theorem descend_domain (hwrote : (g.register pdls).Wrote pdls crate modules events) (hdistinct : crate.Distinct)
    {pdl : String × Protocol} (hpdl : pdl ∈ pdls) {domain : Domain} (hdomain : domain ∈ g.keptDomains pdl.2.domains) :
    ∃ items, crate.descend [pdl.1, g.toSnakeCase domain.name] = some (.mk items []) ∧
      Gen.Yields ((g.register pdls).generateDomain domain) items := by
  obtain ⟨entries, hfile, hentries⟩ := descend_file hwrote hdistinct hpdl
  obtain ⟨⟨name, m⟩, hentry, hname, items, hm, hyields⟩ := exists_of_mem_left hentries hdomain
  dsimp only at hname hm
  subst hname hm
  have hchild : (ModuleTree.mk [] entries).child (g.toSnakeCase domain.name) = some (.mk items []) :=
    (hdistinct.child_iff hfile).2 hentry
  have happend := ModuleTree.descend_append crate [pdl.1] [g.toSnakeCase domain.name]
  rw [hfile, Option.bind_some, ModuleTree.descend_singleton, hchild] at happend
  exact ⟨items, happend, hyields⟩

/-- An item is found in the module of a domain exactly if it was made for one of the domain's definitions. -/
theorem item_of_domain (hwrote : (g.register pdls).Wrote pdls crate modules events) (hdistinct : crate.Distinct)
    (hmodules : ∀ pdl ∈ pdls, (pdl.2.domains.map fun d => g.toSnakeCase d.name).Nodup) {pdl : String × Protocol}
    (hpdl : pdl ∈ pdls) {domain : Domain} (hdomain : domain ∈ pdl.2.domains) {ident : String} {item : RustItem} :
    (crate.descend [pdl.1, g.toSnakeCase domain.name]).bind (fun m => m.item ident) = some item ↔
      (g.register pdls).Made pdls domain.name ident item := by
  constructor
  · intro h
    obtain ⟨m, hm, hitem⟩ := Option.bind_eq_some_iff.1 h
    obtain ⟨entries, hfile, hentries⟩ := descend_file hwrote hdistinct hpdl
    have happend := ModuleTree.descend_append crate [pdl.1] [g.toSnakeCase domain.name]
    rw [hfile, Option.bind_some, ModuleTree.descend_singleton] at happend
    obtain ⟨domain', hkept, hname, items, hitems, hyields⟩ :=
      exists_of_mem_right hentries ((hdistinct.child_iff hfile).1 (happend.symm.trans hm))
    have hsame : domain' = domain :=
      List.inj_on_of_nodup_map (hmodules pdl hpdl) (List.mem_of_mem_filter hkept) hdomain hname.symm
    subst hsame
    dsimp only at hitems
    subst hitems
    obtain ⟨dt, hdt, made, hmade, hin⟩ := (mem_generateDomain_iff hyields).1 ((hdistinct.item_iff hm).1 hitem)
    exact ⟨pdl, hpdl, domain', hkept, rfl, dt, hdt, made, hmade, hin⟩
  · rintro ⟨pdl', hpdl', domain', hkept, hname, dt, hdt, made, hmade, hin⟩
    obtain ⟨idx, hget, hidx⟩ := get_of_domain (g := g) hdomains hpdl hdomain
    obtain ⟨idx', hget', hidx'⟩ := get_of_domain (g := g) hdomains hpdl' (List.mem_of_mem_filter hkept)
    rw [hname, hget] at hget'
    cases hget'
    obtain rfl := Option.some.inj (hidx.symm.trans hidx')
    obtain ⟨items, hfound, hyields⟩ := descend_domain hwrote hdistinct hpdl hkept
    rw [← hname, hfound, Option.bind_some, hdistinct.item_iff hfound]
    exact (mem_generateDomain_iff hyields).2 ⟨dt, hdt, made, hmade, hin⟩

/-- A path that is written for a type of a domain means what was made for it. -/
theorem resolve_writes (hwrote : (g.register pdls).Wrote pdls crate modules events) (hdistinct : crate.Distinct)
    (hmodules : ∀ pdl ∈ pdls, (pdl.2.domains.map fun d => g.toSnakeCase d.name).Nodup) {pdl : String × Protocol}
    (hpdl : pdl ∈ pdls) {domain : Domain} (hdomain : domain ∈ pdl.2.domains) {dom ident : String} {path : Path}
    (hwrites : (g.register pdls).Writes domain (dom, ident) path) {item : RustItem} :
    crate.resolve [pdl.1, g.toSnakeCase domain.name] path = some item ↔ (g.register pdls).Made pdls dom ident item := by
  obtain ⟨idx, hget, hidx⟩ := get_of_domain (g := g) hdomains hpdl hdomain
  cases hwrites with
  | here =>
    rw [← item_of_domain hdomains hwrote hdistinct hmodules hpdl hdomain]
    have hresolve := crate.resolve_append [pdl.1, g.toSnakeCase domain.name] [] [] ident
    exact Eq.congr_left hresolve
  | sibling hown href =>
    obtain ⟨pdl', -, hidx', -, domain', hdomain', rfl⟩ := file_of_get hdomains href
    rw [hget] at hown
    cases hown
    obtain rfl := Option.some.inj (hidx.symm.trans hidx')
    rw [← item_of_domain hdomains hwrote hdistinct hmodules hpdl hdomain']
    have hresolve := crate.resolve_append [pdl.1] [g.toSnakeCase domain.name] [g.toSnakeCase domain'.name] ident
    rw [List.singleton_append] at hresolve
    exact Eq.congr_left hresolve
  | cousin hown href hmod =>
    obtain ⟨pdl', hpdl', -, hmod', domain', hdomain', rfl⟩ := file_of_get hdomains href
    obtain rfl := Option.some.inj (hmod.symm.trans hmod')
    rw [← item_of_domain hdomains hwrote hdistinct hmodules hpdl' hdomain']
    have hresolve := crate.resolve_append [] [pdl.1, g.toSnakeCase domain.name] [pdl'.1, g.toSnakeCase domain'.name] ident
    exact Eq.congr_left hresolve

omit hdomains in
/-- The paths in the file stand in the enum of all events, and in what was made for a definition. -/
theorem contains_iff (hwrote : (g.register pdls).Wrote pdls crate modules events) (hdistinct : crate.Distinct)
    {place : List String} {path : Path} :
    Contains crate place path ↔
      (place = ["events"] ∧ path ∈ (events.map (EventType.variant g)).flatMap fun variant => variant.2.paths) ∨
        ∃ pdl ∈ pdls, ∃ domain ∈ g.keptDomains pdl.2.domains, ∃ dt ∈ g.keptDatatypes domain, ∃ made,
          Gen.Yields ((g.register pdls).generateType domain dt) made ∧ place = [pdl.1, g.toSnakeCase domain.name] ∧
            path ∈ RustItem.allPaths made := by
  have hroot := ModuleTree.descend_nil crate
  constructor
  · rintro ⟨m, hm, hpath⟩
    cases place with
    | nil =>
      obtain rfl := Option.some.inj (hroot.symm.trans hm)
      rw [hwrote.output] at hpath
      cases hpath
    | cons name place =>
      rw [ModuleTree.descend_cons] at hm
      obtain ⟨c, hc, hm⟩ := Option.bind_eq_some_iff.1 hm
      rw [hdistinct.child_iff hroot, hwrote.output] at hc
      have hempty : ∀ {c : ModuleTree RustItem}, c = .mk [] [] → c.descend place = some m → False := by
        rintro _ rfl hm
        obtain ⟨-, rfl⟩ := ModuleTree.descend_leaf hm
        cases hpath
      rcases List.mem_append.1 hc with hc | hc
      · rcases List.mem_append.1 hc with hc | hc
        · rcases List.mem_cons.1 hc with hc | hc
          · cases hc
            exact (hempty rfl hm).elim
          · obtain hc := List.mem_singleton.1 hc
            cases hc
            obtain ⟨rfl, rfl⟩ := ModuleTree.descend_leaf hm
            refine .inl ⟨rfl, ?_⟩
            exact (List.append_nil _).subst hpath
        · obtain ⟨pdl, hpdl, rfl, entries, hentries, hdomains⟩ := exists_of_mem_right hwrote.modules hc
          dsimp only at hentries
          subst hentries
          cases place with
          | nil =>
            rw [ModuleTree.descend_nil] at hm
            cases hm
            cases hpath
          | cons name place =>
            rw [ModuleTree.descend_cons] at hm
            obtain ⟨d, hd, hm⟩ := Option.bind_eq_some_iff.1 hm
            obtain ⟨domain, hdomain, hname, items, hitems, hyields⟩ :=
              exists_of_mem_right hdomains (ModuleTree.mem_of_lookup hd)
            dsimp only at hname hitems
            subst hname hitems
            obtain ⟨rfl, rfl⟩ := ModuleTree.descend_leaf hm
            obtain ⟨entry, hentry, hpath⟩ := List.mem_flatMap.1 hpath
            obtain ⟨dt, hdt, made, hmade, hin⟩ := (mem_generateDomain_iff hyields).1 hentry
            exact .inr ⟨pdl, hpdl, domain, hdomain, dt, hdt, made, hmade, rfl, List.mem_flatMap.2 ⟨entry, hin, hpath⟩⟩
      · obtain hc := List.mem_singleton.1 hc
        cases hc
        exact (hempty rfl hm).elim
  · rintro (⟨rfl, hpath⟩ | ⟨pdl, hpdl, domain, hdomain, dt, hdt, made, hmade, rfl, hpath⟩)
    · have hchild : crate.child "events" = some (.mk [("CdpEvent", .cdpEvent (events.map (EventType.variant g)))] []) := by
        rw [hdistinct.child_iff hroot, hwrote.output]
        exact List.mem_append_left _ (List.mem_append_left _ (List.mem_cons_of_mem _ (List.mem_singleton_self _)))
      refine ⟨_, (ModuleTree.descend_singleton _ _).trans hchild, ?_⟩
      exact (List.append_nil _).symm.subst hpath
    · obtain ⟨items, hfound, hyields⟩ := descend_domain hwrote hdistinct hpdl hdomain
      obtain ⟨entry, hin, hpath⟩ := List.mem_flatMap.1 hpath
      exact ⟨_, hfound, List.mem_flatMap.2 ⟨entry, (mem_generateDomain_iff hyields).2 ⟨dt, hdt, made, hmade, hin⟩, hpath⟩⟩

/-- What a path of the file refers to, and what is found there. -/
theorem refers_of_contains (hwrote : (g.register pdls).Wrote pdls crate modules events) (hdistinct : crate.Distinct)
    (hmodules : ∀ pdl ∈ pdls, (pdl.2.domains.map fun d => g.toSnakeCase d.name).Nodup) {place : List String} {path : Path}
    (h : Contains crate place path) :
    ∃ dom ident, (g.register pdls).Refers pdls place dom ident ∧
      ∀ item, crate.resolve place path = some item ↔ (g.register pdls).Made pdls dom ident item := by
  obtain ⟨sizes, hevents⟩ := hwrote.events
  rcases (contains_iff hwrote hdistinct).1 h with
    ⟨rfl, hpath⟩ | ⟨pdl, hpdl, domain, hdomain, dt, hdt, made, hmade, rfl, hpath⟩
  · obtain ⟨pdl, hpdl, domain, hdomain, ev, hev, rfl⟩ := (paths_events_iff hdomains hevents).1 hpath
    refine ⟨_, _, .event hpdl hdomain hev, fun item => ?_⟩
    rw [← item_of_domain hdomains hwrote hdistinct hmodules hpdl (List.mem_of_mem_filter hdomain)]
    exact Eq.congr_left (crate.resolve_append [] ["events"] [pdl.1, g.toSnakeCase domain.name] _)
  · obtain ⟨⟨dom, ident⟩, hmention, hwrites⟩ := (yields_generateType hmade).meant path hpath
    exact ⟨dom, ident, .field hpdl hdomain hdt hmention, fun item =>
      resolve_writes hdomains hwrote hdistinct hmodules hpdl (List.mem_of_mem_filter hdomain) hwrites⟩

/-- A path of the file for what is referred to, and what is found there. -/
theorem contains_of_refers (hwrote : (g.register pdls).Wrote pdls crate modules events) (hdistinct : crate.Distinct)
    (hmodules : ∀ pdl ∈ pdls, (pdl.2.domains.map fun d => g.toSnakeCase d.name).Nodup) {place : List String}
    {dom ident : String} (h : (g.register pdls).Refers pdls place dom ident) :
    ∃ path, Contains crate place path ∧
      ∀ item, crate.resolve place path = some item ↔ (g.register pdls).Made pdls dom ident item := by
  obtain ⟨sizes, hevents⟩ := hwrote.events
  cases h with
  | @field pdl domain dt dom ident hpdl hdomain hdt hmention =>
    obtain ⟨items, -, hyields⟩ := descend_domain hwrote hdistinct hpdl hdomain
    obtain ⟨pieces, hpieces, rfl⟩ := hyields.collect
    obtain ⟨made, -, hmade⟩ := exists_of_mem_left hpieces hdt
    obtain ⟨path, hpath, hwrites⟩ := (yields_generateType hmade).written _ hmention
    exact ⟨path, (contains_iff hwrote hdistinct).2 (.inr ⟨pdl, hpdl, domain, hdomain, dt, hdt, made, hmade, rfl, hpath⟩),
      fun item => resolve_writes hdomains hwrote hdistinct hmodules hpdl (List.mem_of_mem_filter hdomain) hwrites⟩
  | @event pdl domain ev hpdl hdomain hev =>
    refine ⟨_, (contains_iff hwrote hdistinct).2
      (.inl ⟨rfl, (paths_events_iff hdomains hevents).2 ⟨pdl, hpdl, domain, hdomain, ev, hev, rfl⟩⟩), fun item => ?_⟩
    rw [← item_of_domain hdomains hwrote hdistinct hmodules hpdl (List.mem_of_mem_filter hdomain)]
    exact Eq.congr_left (crate.resolve_append [] ["events"] [pdl.1, g.toSnakeCase domain.name] _)

end Meaning

/-- The struct of an event that is included. -/
theorem made_event {g : Options w} {pdls : List (String × Protocol)} {crate : ModuleTree RustItem}
    {modules : List (String × ModuleTree RustItem)} {events : List EventType}
    (hwrote : (g.register pdls).Wrote pdls crate modules events) {pdl : String × Protocol} (hpdl : pdl ∈ pdls)
    {domain : Domain} (hdomain : domain ∈ g.keptDomains pdl.2.domains) {ev : Event} (hev : ev ∈ g.keptEvents domain) :
    ∃ item, (g.register pdls).Made pdls domain.name ("Event" ++ g.toUpperCamelCase ev.name) item := by
  have hdt := g.mem_keptDatatypes hev
  obtain ⟨_, -, -, entries, -, hentries⟩ := Settings.exists_of_mem_left hwrote.modules hpdl
  obtain ⟨_, -, -, items, -, hyields⟩ := Settings.exists_of_mem_left hentries hdomain
  obtain ⟨pieces, hpieces, rfl⟩ := hyields.collect
  obtain ⟨made, -, hmade⟩ := Settings.exists_of_mem_left hpieces hdt
  obtain ⟨struct, hstruct, hreturn⟩ := hmade.bind
  obtain rfl := hreturn.pure
  obtain ⟨item, hitem⟩ := Settings.mem_generateStruct hstruct
  exact ⟨item, pdl, hpdl, domain, hdomain, rfl, _, hdt, made, hmade, hitem⟩

/-- If no two domains have the same name, and Rust finds no name twice in a module, then every path in the generated file means just what was made for the definition that it refers to, or nothing where that was left out; and no path dangles exactly if all that the fields refer to was made. -/
theorem references_resolve (g : Options w) (fuel : Nat) (pdls : List (String × Protocol)) (crate : ModuleTree RustItem)
    (hcompile : g.compilePdls fuel pdls = some (.ok crate))
    (hdomains : (pdls.flatMap fun pdl => pdl.2.domains.map Domain.name).Nodup)
    (hmodules : ∀ pdl ∈ pdls, (pdl.2.domains.map fun d => g.toSnakeCase d.name).Nodup) (hdistinct : crate.Distinct) :
    (∀ place path, Contains crate place path → ∃ dom ident, (g.register pdls).Refers pdls place dom ident ∧
      ∀ item, crate.resolve place path = some item ↔ (g.register pdls).Made pdls dom ident item) ∧
    (Closed crate ↔ ∀ pdl ∈ pdls, ∀ domain ∈ g.keptDomains pdl.2.domains, ∀ dt ∈ g.keptDatatypes domain,
      ∀ mention ∈ (g.register pdls).typeMentions domain dt,
        ∃ item, (g.register pdls).Made pdls mention.1 mention.2 item) := by
  obtain ⟨modules, events, hwrote⟩ := Settings.wrote_compilePdls hcompile
  have hmeans := fun place path => @refers_of_contains w g pdls crate modules events hdomains hwrote hdistinct hmodules place path
  refine ⟨hmeans, fun hclosed pdl hpdl domain hdomain dt hdt mention hmention => ?_, fun hmade place path hpath => ?_⟩
  · obtain ⟨path, hpath, hfound⟩ :=
      contains_of_refers hdomains hwrote hdistinct hmodules (.field hpdl hdomain hdt hmention)
    obtain ⟨item, hitem⟩ := hclosed _ path hpath
    exact ⟨item, (hfound item).1 hitem⟩
  · obtain ⟨dom, ident, hrefers, hfound⟩ := hmeans place path hpath
    cases hrefers with
    | field hpdl hdomain hdt hmention =>
      obtain ⟨item, hitem⟩ := hmade _ hpdl _ hdomain _ hdt _ hmention
      exact ⟨item, (hfound item).2 hitem⟩
    | event hpdl hdomain hev =>
      obtain ⟨item, hitem⟩ := made_event hwrote hpdl hdomain hev
      exact ⟨item, (hfound item).2 hitem⟩

open EnumStrings (asciiUpperCamelCase asciiLowercase)

/-- All names in question are single words, which are in snake case when they are in small letters. -/
def asciiOptions : Options 64 where
  toUpperCamelCase := asciiUpperCamelCase
  toSnakeCase := asciiLowercase
  toLowercase := asciiLowercase
  sizeOf := ⟨8, 8, 1, 24, 32, 24, 24, 8⟩
  checks := true
  withExperimental := true
  withDeprecated := false

/-- A string type in the one file. -/
def scriptFile : Protocol := ⟨none, ⟨1, 3⟩, [⟨none, false, false, "Runtime", [],
  [⟨none, false, false, "ScriptId", .string, none, "Runtime.ScriptId", false⟩], [], []⟩]⟩

/-- A type that refers to itself, with an enum inside; an event and a command that refer to it, and the latter to the other file. -/
def browserFile : Protocol := ⟨none, ⟨1, 3⟩,
  [⟨none, false, false, "DOM", [],
      [⟨none, false, false, "Node", .object, some (.properties
        [⟨none, false, false, true, .arrayOf (.ref "Node"), "children", "DOM.Node.children", false⟩,
          ⟨none, false, false, false, .enum [⟨none, "user"⟩, ⟨none, "open"⟩], "kind", "DOM.Node.kind", false⟩]),
        "DOM.Node", false⟩],
      [],
      [⟨none, false, false, "attached", [⟨none, false, false, false, .ref "Node", "node", "DOM.attached.node", false⟩],
        "DOM.attached", false⟩]⟩,
    ⟨none, false, false, "Page", [], [],
      [⟨none, false, false, "navigate", none,
        [⟨none, false, false, false, .ref "Runtime.ScriptId", "script", "Page.navigate.script", false⟩],
        [⟨none, false, false, false, .ref "DOM.Node", "root", "Page.navigate.root", false⟩], "Page.navigate", false⟩],
      []⟩]⟩

def files : List (String × Protocol) := [("js", scriptFile), ("browser", browserFile)]

theorem references_resolve_files : ∃ crate, asciiOptions.compilePdls 5 files = some (.ok crate) ∧
    (∀ place path, Contains crate place path → ∃ dom ident, (asciiOptions.register files).Refers files place dom ident ∧
      ∀ item, crate.resolve place path = some item ↔ (asciiOptions.register files).Made files dom ident item) ∧
    (Closed crate ↔ ∀ pdl ∈ files, ∀ domain ∈ asciiOptions.keptDomains pdl.2.domains,
      ∀ dt ∈ asciiOptions.keptDatatypes domain, ∀ mention ∈ (asciiOptions.register files).typeMentions domain dt,
        ∃ item, (asciiOptions.register files).Made files mention.1 mention.2 item) := by
  refine ⟨_, rfl, references_resolve asciiOptions 5 files _ rfl (by decide) (by decide) ?_⟩
  exact ModuleTree.distinct_of_checkNames (by decide)

end SpiderChrome.Pdl
