import SpiderChrome.Pdl.Generate

/-!
# What is written for a definition

The generator works on the sizes as it goes, but what it makes of a definition does not depend on them: `steady_generateType`. In the items that are made for a definition stand just the paths for what its included fields refer to: `yields_generateType`.
-/

namespace SpiderChrome.Pdl

open ModuleTree (Path)

variable {w : Nat} {α β : Type}

/-! ### What a computation comes to -/

namespace Gen

/-- What a computation comes to, from some sizes or other. -/
def Yields (x : Gen w α) (a : α) : Prop := ∃ s s', x s = .ok (a, s')

/-- What a computation comes to does not depend on the sizes. -/
def Steady (x : Gen w α) : Prop := ∀ a b, Yields x a → Yields x b → a = b

theorem Yields.bind {x : Gen w α} {f : α → Gen w β} {b : β} (h : Yields (x >>= f) b) :
    ∃ a, Yields x a ∧ Yields (f a) b := by
  obtain ⟨s, s', h⟩ := h
  obtain ⟨a, s₁, hx, hf⟩ := bind_ok h
  exact ⟨a, ⟨s, s₁, hx⟩, s₁, s', hf⟩

theorem Yields.pure {a b : α} (h : Yields (pure a : Gen w α) b) : b = a := by
  obtain ⟨s, s', h⟩ := h
  exact (pure_ok h).1

theorem Yields.lift {x : Except Panicked α} {a : α} (h : Yields (liftM x : Gen w α) a) : x = .ok a := by
  obtain ⟨s, s', h⟩ := h
  exact (lift_ok h).1

/-- The results for the members of a list are joined. -/
theorem Yields.collect {f : α → Gen w (List β)} {as : List α} {bs : List β} (h : Yields (Gen.collect f as) bs) :
    ∃ pieces, List.Forall₂ (fun a piece => Yields (f a) piece) as pieces ∧ bs = pieces.flatten := by
  induction as generalizing bs with
  | nil => exact ⟨[], .nil, h.pure⟩
  | cons a as ih =>
    obtain ⟨piece, hpiece, h⟩ := h.bind
    obtain ⟨rest, hrest, h⟩ := h.bind
    obtain rfl := h.pure
    obtain ⟨pieces, hpieces, rfl⟩ := ih hrest
    exact ⟨piece :: pieces, .cons hpiece hpieces, rfl⟩

/-- Where each member comes to one result, so does the list. -/
theorem Yields.collect_one {f : α → Gen w (List β)} {R : α → β → Prop} {as : List α} {bs : List β}
    (h : Yields (Gen.collect f as) bs) (hf : ∀ a piece, Yields (f a) piece → ∃ b, piece = [b] ∧ R a b) :
    List.Forall₂ R as bs := by
  induction as generalizing bs with
  | nil =>
    obtain rfl := h.pure
    exact .nil
  | cons a as ih =>
    obtain ⟨piece, hpiece, h⟩ := h.bind
    obtain ⟨rest, hrest, h⟩ := h.bind
    obtain rfl := h.pure
    obtain ⟨b, rfl, hb⟩ := hf a piece hpiece
    exact .cons hb (ih hrest)

theorem steady_pure (a : α) : Steady (pure a : Gen w α) := fun _ _ hb hc => hb.pure.trans hc.pure.symm

theorem steady_lift (x : Except Panicked α) : Steady (liftM x : Gen w α) := fun _ _ hb hc =>
  Except.ok.inj (hb.lift.symm.trans hc.lift)

theorem steady_unit (x : Gen w Unit) : Steady x := fun _ _ _ _ => rfl

theorem Steady.bind {x : Gen w α} {f : α → Gen w β} (hx : Steady x) (hf : ∀ a, Steady (f a)) : Steady (x >>= f) := by
  intro b c hb hc
  obtain ⟨a, ha, hb⟩ := hb.bind
  obtain ⟨a', ha', hc⟩ := hc.bind
  obtain rfl := hx a a' ha ha'
  exact hf a b c hb hc

theorem Steady.collect {f : α → Gen w (List β)} (hf : ∀ a, Steady (f a)) (as : List α) : Steady (collect f as) := by
  induction as with
  | nil => exact steady_pure []
  | cons a as ih => exact (hf a).bind fun bs => ih.bind fun rest => steady_pure (bs ++ rest)

end Gen

/-! ### Paths in the generated code -/

namespace RustType

/-- The paths that a type is made of. -/
def paths : RustType → List Path
  | path p => [p]
  | box ty => ty.paths
  | vec ty => ty.paths
  | _ => []

end RustType

@[simp] theorem FieldType.paths_toTokens (ty : FieldType) : ty.toTokens.paths = ty.ty.paths := by
  rw [FieldType.toTokens]
  split_ifs
  all_goals rfl

namespace RustItem

def paths : RustItem → List Path
  | struct _ fields => fields.flatMap fun field => field.ty.ty.paths
  | wrapper _ ty => ty.ty.paths
  | enum _ => []
  | builder fields => fields.flatMap fun field => field.ty.ty.paths
  | cdpEvent variants => variants.flatMap fun variant => variant.2.paths

/-- The paths of some items. -/
def allPaths (items : List (String × RustItem)) : List Path := items.flatMap fun item => item.2.paths

@[simp] theorem allPaths_nil : allPaths [] = [] := rfl

@[simp] theorem allPaths_cons (item : String × RustItem) (items : List (String × RustItem)) :
    allPaths (item :: items) = item.2.paths ++ allPaths items := List.flatMap_cons

@[simp] theorem allPaths_append (items items' : List (String × RustItem)) :
    allPaths (items ++ items') = allPaths items ++ allPaths items' := List.flatMap_append

end RustItem

/-! ### What a definition refers to -/

namespace Settings

variable (g : Settings w)

/-- The domain and the type that a name means in a domain. -/
def target (domain : Domain) (name : String) : String × String :=
  let (path, tyName) := rsplitDot name
  (if path = "" then domain.name else path, g.toUpperCamelCase tyName)

/-- What the type of a field refers to, each with its domain: enums are defined with their fields, and a type that refers to itself by its name means itself. -/
def mentions (domain : Domain) (parent paramName : String) : PdlType → List (String × String)
  | .enum _ => [(domain.name, g.subenumName parent paramName)]
  | .arrayOf (.ref name) => [g.target domain name]
  | .arrayOf ty => mentions domain parent paramName ty
  | .ref name => if name = parent then [(domain.name, g.toUpperCamelCase name)] else [g.target domain name]
  | _ => []

/-- What a type extends. -/
def extendsMentions (domain : Domain) : DomainDatatype → List (String × String)
  | .type tydef => g.mentions domain tydef.name tydef.name tydef.extendsType
  | _ => []

/-- What a struct refers to; a type without fields stands for what it extends. -/
def structMentions (domain : Domain) (dt : DomainDatatype) (params : List Param) : List (String × String) :=
  if params = [] ∧ dt.rawName ≠ "Runtime.evaluate" then g.extendsMentions domain dt
  else params.flatMap fun param => g.mentions domain dt.name param.name param.ty

/-- What the answer to a command refers to. -/
def returnsMentions (domain : Domain) : DomainDatatype → List (String × String)
  | .command cmd => g.structMentions domain (.command cmd) (g.keptParams cmd.returns)
  | _ => []

/-- What a definition refers to in the fields that are included. -/
def typeMentions (domain : Domain) (dt : DomainDatatype) : List (String × String) :=
  if dt.asEnum.isSome then [] else g.structMentions domain dt (g.keptParams dt.params) ++ g.returnsMentions domain dt

/-- A path that stands in the module of a domain for a type of a domain. -/
inductive Writes (g : Settings w) (domain : Domain) : String × String → Path → Prop
  | here (ident : String) : Writes g domain (domain.name, ident) ⟨0, [], ident⟩
  | sibling {path : String} {idx : Nat} (hown : g.domains.get domain.name = some idx)
    (href : g.domains.get path = some idx) (ident : String) :
    Writes g domain (path, ident) ⟨1, [g.toSnakeCase path], ident⟩
  | cousin {path modName : String} {idx refIdx : Nat} (hown : g.domains.get domain.name = some idx)
    (href : g.domains.get path = some refIdx) (hmod : g.protocolMods[refIdx]? = some modName) (ident : String) :
    Writes g domain (path, ident) ⟨2, [modName, g.toSnakeCase path], ident⟩

/-- The paths are those that stand for what is mentioned. -/
structure Spells (domain : Domain) (mentions : List (String × String)) (paths : List Path) : Prop where
  meant : ∀ path ∈ paths, ∃ mention ∈ mentions, g.Writes domain mention path
  written : ∀ mention ∈ mentions, ∃ path ∈ paths, g.Writes domain mention path

variable {g} {domain : Domain}

theorem spells_nil : g.Spells domain [] [] := ⟨fun _ h => absurd h List.not_mem_nil, fun _ h => absurd h List.not_mem_nil⟩

theorem spells_singleton {mention : String × String} {path : Path} (h : g.Writes domain mention path) :
    g.Spells domain [mention] [path] := by
  constructor
  · intro p hp
    obtain rfl := List.mem_singleton.1 hp
    exact ⟨mention, List.mem_singleton_self _, h⟩
  · intro m hm
    obtain rfl := List.mem_singleton.1 hm
    exact ⟨path, List.mem_singleton_self _, h⟩

theorem Spells.append {ms ms' : List (String × String)} {ps ps' : List Path} (h : g.Spells domain ms ps)
    (h' : g.Spells domain ms' ps') : g.Spells domain (ms ++ ms') (ps ++ ps') := by
  constructor
  · intro path hpath
    rcases List.mem_append.1 hpath with hpath | hpath
    · obtain ⟨mention, hmention, hwrites⟩ := h.meant path hpath
      exact ⟨mention, List.mem_append_left _ hmention, hwrites⟩
    · obtain ⟨mention, hmention, hwrites⟩ := h'.meant path hpath
      exact ⟨mention, List.mem_append_right _ hmention, hwrites⟩
  · intro mention hmention
    rcases List.mem_append.1 hmention with hmention | hmention
    · obtain ⟨path, hpath, hwrites⟩ := h.written mention hmention
      exact ⟨path, List.mem_append_left _ hpath, hwrites⟩
    · obtain ⟨path, hpath, hwrites⟩ := h'.written mention hmention
      exact ⟨path, List.mem_append_right _ hpath, hwrites⟩

/-- Paths may be written more than once. -/
theorem Spells.double {ms : List (String × String)} {ps : List Path} (h : g.Spells domain ms ps) :
    g.Spells domain ms (ps ++ ps) := by
  constructor
  · intro path hpath
    rw [List.mem_append, or_self] at hpath
    exact h.meant path hpath
  · intro mention hmention
    obtain ⟨path, hpath, hwrites⟩ := h.written mention hmention
    exact ⟨path, List.mem_append_left _ hpath, hwrites⟩

theorem exists_of_mem_right {R : α → β → Prop} {as : List α} {bs : List β} (h : List.Forall₂ R as bs) {b : β}
    (hb : b ∈ bs) : ∃ a ∈ as, R a b := by
  induction h with
  | nil => cases hb
  | cons hfirst _ ih =>
    obtain rfl | hb := List.mem_cons.1 hb
    · exact ⟨_, List.mem_cons_self, hfirst⟩
    · obtain ⟨a, ha, hab⟩ := ih hb
      exact ⟨a, List.mem_cons_of_mem _ ha, hab⟩

theorem exists_of_mem_left {R : α → β → Prop} {as : List α} {bs : List β} (h : List.Forall₂ R as bs) {a : α}
    (ha : a ∈ as) : ∃ b ∈ bs, R a b := exists_of_mem_right h.flip ha

/-- Results that spell what each member mentions spell it together. -/
theorem spells_flatMap {f : α → List (String × String)} {as : List α} {bs : List β} {paths : β → List Path}
    (h : List.Forall₂ (fun a b => g.Spells domain (f a) (paths b)) as bs) :
    g.Spells domain (as.flatMap f) (bs.flatMap paths) := by
  induction h with
  | nil => exact spells_nil
  | cons hfirst _ ih =>
    rw [List.flatMap_cons, List.flatMap_cons]
    exact hfirst.append ih

/-! ### What is written for a definition -/

theorem writes_projectedType {name : String} {path : Path} (h : g.projectedType domain name = .ok path) :
    g.Writes domain (g.target domain name) path := by
  rw [projectedType] at h
  rw [target]
  dsimp only at h ⊢
  split at h
  · rename_i hempty
    cases h
    rw [if_pos hempty]
    exact .here _
  · rename_i hempty
    rw [if_neg hempty]
    split at h
    · cases h
    rename_i idx hown
    split at h
    · cases h
    rename_i refIdx href
    split at h
    · rename_i hsame
      subst hsame
      cases h
      exact .sibling hown href _
    · split at h
      · cases h
      · rename_i modName hmod
        cases h
        exact .cousin hown href hmod _

theorem spells_generateFieldType {parent paramName : String} {ty : PdlType} {made : FieldType × (BitVec w ⊕ String)}
    (h : g.generateFieldType domain parent paramName ty = .ok made) :
    g.Spells domain (g.mentions domain parent paramName ty) made.1.ty.paths := by
  induction ty using PdlType.rec generalizing made with
  | integer | number | boolean | string | object | any | binary =>
    cases h
    exact spells_nil
  | enum variants =>
    cases h
    exact spells_singleton (.here _)
  | ref name =>
    rw [generateFieldType] at h
    rw [mentions]
    split at h
    · rename_i hself
      cases h
      rw [if_pos hself]
      exact spells_singleton (.here _)
    · rename_i hself
      rw [if_neg hself]
      cases hpath : g.projectedType domain name with
      | error panic =>
        rw [hpath] at h
        cases h
      | ok path =>
        rw [hpath] at h
        cases h
        exact spells_singleton (writes_projectedType hpath)
  | arrayOf ty ih =>
    by_cases href : ∃ name, ty = .ref name
    · obtain ⟨name, rfl⟩ := href
      rw [generateFieldType] at h
      rw [mentions]
      cases hpath : g.projectedType domain name with
      | error panic =>
        rw [hpath] at h
        cases h
      | ok path =>
        rw [hpath] at h
        cases h
        exact spells_singleton (writes_projectedType hpath)
    · have hno : ∀ name, ty = .ref name → False := fun name hname => href ⟨name, hname⟩
      rw [generateFieldType] at h
      · rw [mentions]
        · cases hinner : g.generateFieldType domain parent paramName ty with
          | error panic =>
            rw [hinner] at h
            cases h
          | ok inner =>
            rw [hinner] at h
            cases h
            exact (FieldType.paths_toTokens inner.1).symm ▸ ih hinner
        · exact hno
      · exact hno

theorem yields_generateSubenums {dt : DomainDatatype} {param : Param} {enums : List (String × RustItem)}
    (h : Gen.Yields (g.generateSubenums dt param) enums) : RustItem.allPaths enums = [] := by
  rw [generateSubenums] at h
  split at h
  · obtain ⟨_, henum, h⟩ := h.bind
    obtain rfl := h.pure
    obtain ⟨_, -, henum⟩ := henum.bind
    obtain rfl := henum.pure
    rfl
  · obtain rfl := h.pure
    rfl

theorem yields_generateField {dt : DomainDatatype} {structIdent : String} {param : Param}
    {made : FieldDefinition × List (String × RustItem)} (h : Gen.Yields (g.generateField domain dt structIdent param) made) :
    g.Spells domain (g.mentions domain dt.name param.name param.ty) made.1.ty.ty.paths ∧ RustItem.allPaths made.2 = [] := by
  obtain ⟨enums, henums, h⟩ := h.bind
  obtain ⟨ty, hty, h⟩ := h.bind
  obtain ⟨_, -, h⟩ := h.bind
  obtain rfl := h.pure
  exact ⟨spells_generateFieldType hty.lift, yields_generateSubenums henums⟩

theorem applyStructFixup_eq_nil_iff (dt : DomainDatatype) (fields : List FieldDefinition) :
    applyStructFixup dt fields = [] ↔ fields = [] ∧ dt.rawName ≠ "Runtime.evaluate" := by
  rw [applyStructFixup]
  split
  · rename_i heval
    rw [List.append_eq_nil_iff]
    exact iff_of_false (fun h => List.cons_ne_nil _ _ h.2) fun h => h.2 heval
  · rename_i heval
    exact (and_iff_left heval).symm

theorem paths_applyStructFixup (dt : DomainDatatype) (fields : List FieldDefinition) :
    ((applyStructFixup dt fields).flatMap fun field => field.ty.ty.paths) = fields.flatMap fun field => field.ty.ty.paths := by
  rw [applyStructFixup]
  split
  · rw [List.flatMap_append]
    exact List.append_nil _
  · rfl

/-- There are as many fields as there are parameters. -/
theorem map_fst_eq_nil_iff {dt : DomainDatatype} {structIdent : String} {params : List Param}
    {made : List (FieldDefinition × List (String × RustItem))}
    (h : Gen.Yields (Gen.collect (fun param => do
      let field ← g.generateField domain dt structIdent param
      pure [field]) params) made) : made.map Prod.fst = [] ↔ params = [] := by
  have hlength : List.Forall₂ (fun _ _ => True) params made := by
    refine h.collect_one fun param piece hpiece => ?_
    obtain ⟨field, -, hpiece⟩ := hpiece.bind
    exact ⟨field, hpiece.pure, trivial⟩
  rw [List.map_eq_nil_iff, ← List.length_eq_zero_iff, ← List.length_eq_zero_iff, hlength.length_eq]

theorem yields_generateStruct {dt : DomainDatatype} {structIdent : String} {identifier : Option String}
    {params : List Param} {items : List (String × RustItem)}
    (h : Gen.Yields (g.generateStruct domain dt structIdent identifier params) items) :
    g.Spells domain (g.structMentions domain dt params) (RustItem.allPaths items) := by
  obtain ⟨made, hmade, h⟩ := h.bind
  have hfields : List.Forall₂ (fun param field =>
      g.Spells domain (g.mentions domain dt.name param.name param.ty) field.1.ty.ty.paths ∧
        RustItem.allPaths field.2 = []) params made := by
    refine hmade.collect_one fun param piece hpiece => ?_
    obtain ⟨field, hfield, hpiece⟩ := hpiece.bind
    exact ⟨field, hpiece.pure, yields_generateField hfield⟩
  have hspells := spells_flatMap (hfields.imp fun _ _ h => h.1)
  rw [structMentions]
  dsimp only at h
  split at h
  · rename_i hnofields
    rw [List.isEmpty_iff, applyStructFixup_eq_nil_iff, map_fst_eq_nil_iff hmade] at hnofields
    rw [if_pos hnofields]
    cases dt with
    | type tydef =>
      obtain ⟨wrapped, hwrapped, h⟩ := h.bind
      obtain ⟨_, -, h⟩ := h.bind
      obtain rfl := h.pure
      rw [RustItem.allPaths_cons, RustItem.allPaths_nil, List.append_nil]
      exact spells_generateFieldType hwrapped.lift
    | command cmd =>
      obtain ⟨_, -, h⟩ := h.bind
      obtain rfl := h.pure
      exact spells_nil
    | event ev =>
      obtain ⟨_, -, h⟩ := h.bind
      obtain rfl := h.pure
      exact spells_nil
  · rename_i hnofields
    rw [List.isEmpty_iff, applyStructFixup_eq_nil_iff, map_fst_eq_nil_iff hmade] at hnofields
    rw [if_neg hnofields]
    obtain rfl := h.pure
    have hfieldPaths : ((applyStructFixup dt (made.map Prod.fst)).flatMap fun field => field.ty.ty.paths) =
        made.flatMap fun field => field.1.ty.ty.paths := by
      rw [paths_applyStructFixup, List.flatMap_map]
    have henums : RustItem.allPaths (made.flatMap Prod.snd) = [] := by
      rw [RustItem.allPaths, List.flatMap_assoc]
      refine List.flatMap_eq_nil_iff.2 fun field hfield => ?_
      obtain ⟨param, -, -, hnone⟩ := exists_of_mem_right hfields hfield
      exact hnone
    rw [List.cons_append, RustItem.allPaths_cons, RustItem.allPaths_append, henums, RustItem.paths, hfieldPaths, List.nil_append]
    split
    · rw [RustItem.allPaths_cons, RustItem.allPaths_nil, List.append_nil, RustItem.paths, hfieldPaths]
      exact hspells.double
    · rw [RustItem.allPaths_nil, List.append_nil]
      exact hspells

theorem yields_generateType {dt : DomainDatatype} {items : List (String × RustItem)}
    (h : Gen.Yields (g.generateType domain dt) items) :
    g.Spells domain (g.typeMentions domain dt) (RustItem.allPaths items) := by
  rw [generateType] at h
  rw [typeMentions]
  split at h
  · rename_i vars hvars
    obtain ⟨enum, henum, h⟩ := h.bind
    obtain rfl := h.pure
    obtain ⟨_, -, henum⟩ := henum.bind
    obtain rfl := henum.pure
    rw [hvars]
    exact spells_nil
  · rename_i hnone
    obtain ⟨struct, hstruct, h⟩ := h.bind
    rw [hnone, if_neg (by decide)]
    have hspells := yields_generateStruct hstruct
    cases dt with
    | command cmd =>
      obtain ⟨returns, hreturns, h⟩ := h.bind
      obtain rfl := h.pure
      rw [RustItem.allPaths_append]
      exact hspells.append (yields_generateStruct hreturns)
    | type tydef =>
      obtain rfl := h.pure
      exact (List.append_nil (g.structMentions domain (.type tydef) _)).symm ▸ hspells
    | event ev =>
      obtain rfl := h.pure
      exact (List.append_nil (g.structMentions domain (.event ev) _)).symm ▸ hspells

/-! ### What is made does not depend on the sizes -/

theorem steady_generateEnum (ident : String) (variants : List Variant) : Gen.Steady (g.generateEnum ident variants) :=
  (Gen.steady_unit _).bind fun _ => Gen.steady_pure _

theorem steady_generateSubenums (dt : DomainDatatype) (param : Param) : Gen.Steady (g.generateSubenums dt param) := by
  rw [generateSubenums]
  split
  · exact (steady_generateEnum _ _).bind fun _ => Gen.steady_pure _
  · exact Gen.steady_pure _

theorem steady_generateField (dt : DomainDatatype) (structIdent : String) (param : Param) :
    Gen.Steady (g.generateField domain dt structIdent param) :=
  (steady_generateSubenums dt param).bind fun _ => (Gen.steady_lift _).bind fun _ => (Gen.steady_unit _).bind fun _ =>
    Gen.steady_pure _

theorem steady_generateStruct (dt : DomainDatatype) (structIdent : String) (identifier : Option String)
    (params : List Param) : Gen.Steady (g.generateStruct domain dt structIdent identifier params) := by
  have hfields : ∀ param, Gen.Steady (do
      let field ← g.generateField domain dt structIdent param
      pure [field]) := fun param => (steady_generateField dt structIdent param).bind fun _ => Gen.steady_pure _
  refine (Gen.Steady.collect hfields params).bind fun made => ?_
  dsimp only
  split
  · cases dt with
    | type tydef => exact (Gen.steady_lift _).bind fun _ => (Gen.steady_unit _).bind fun _ => Gen.steady_pure _
    | command cmd => exact (Gen.steady_unit _).bind fun _ => Gen.steady_pure _
    | event ev => exact (Gen.steady_unit _).bind fun _ => Gen.steady_pure _
  · exact Gen.steady_pure _

theorem steady_generateType (dt : DomainDatatype) : Gen.Steady (g.generateType domain dt) := by
  rw [generateType]
  split
  · exact (steady_generateEnum _ _).bind fun _ => Gen.steady_pure _
  · refine (steady_generateStruct dt _ _ _).bind fun items => ?_
    cases dt with
    | command cmd => exact (steady_generateStruct _ _ _ _).bind fun _ => Gen.steady_pure _
    | type tydef => exact Gen.steady_pure _
    | event ev => exact Gen.steady_pure _

theorem mem_generateDomain_iff {items : List (String × RustItem)} (h : Gen.Yields (g.generateDomain domain) items)
    {entry : String × RustItem} :
    entry ∈ items ↔ ∃ dt ∈ g.keptDatatypes domain, ∃ made, Gen.Yields (g.generateType domain dt) made ∧ entry ∈ made := by
  obtain ⟨pieces, hpieces, rfl⟩ := h.collect
  rw [List.mem_flatten]
  constructor
  · rintro ⟨piece, hpiece, hentry⟩
    obtain ⟨dt, hdt, hyields⟩ := exists_of_mem_right hpieces hpiece
    exact ⟨dt, hdt, piece, hyields, hentry⟩
  · rintro ⟨dt, hdt, made, hmade, hentry⟩
    obtain ⟨piece, hpiece, hyields⟩ := exists_of_mem_left hpieces hdt
    exact ⟨piece, hpiece, steady_generateType dt made piece hmade hyields ▸ hentry⟩

/-- A struct is made under its name. -/
theorem mem_generateStruct {dt : DomainDatatype} {structIdent : String} {identifier : Option String}
    {params : List Param} {items : List (String × RustItem)}
    (h : Gen.Yields (g.generateStruct domain dt structIdent identifier params) items) :
    ∃ item, (structIdent, item) ∈ items := by
  obtain ⟨made, -, h⟩ := h.bind
  dsimp only at h
  split at h
  · cases dt with
    | type tydef =>
      obtain ⟨_, -, h⟩ := h.bind
      obtain ⟨_, -, h⟩ := h.bind
      obtain rfl := h.pure
      exact ⟨_, List.mem_cons_self⟩
    | command cmd =>
      obtain ⟨_, -, h⟩ := h.bind
      obtain rfl := h.pure
      exact ⟨_, List.mem_cons_self⟩
    | event ev =>
      obtain ⟨_, -, h⟩ := h.bind
      obtain rfl := h.pure
      exact ⟨_, List.mem_cons_self⟩
  · obtain rfl := h.pure
    exact ⟨_, List.mem_cons_self⟩

end Settings

end SpiderChrome.Pdl
