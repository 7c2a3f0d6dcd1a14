import SpiderChrome.Library.Modules
import SpiderChrome.Pdl.EnumStrings
import SpiderChrome.Pdl.Sizes
import SpiderChrome.Pdl.Syntax

/-!
# The generator

The generator makes Rust modules from protocol definitions: a module for each file, in it one for each domain, and in that the types, the commands and the events. Types are written as paths, and what a path means is left to Rust. While the types are made, their sizes are added up, for the enum of all events boxes what is too large.
-/

namespace SpiderChrome.Pdl

open ModuleTree (Path)

/-! ### The generated code -/

inductive RustType where
  | i64
  | f64
  | bool
  | string
  | value
  | binary
  | path (path : Path)
  | box (ty : RustType)
  | vec (ty : RustType)
deriving DecidableEq

structure FieldType where
  needsBox : Bool
  isVec : Bool
  ty : RustType
deriving DecidableEq

namespace FieldType

def new (ty : RustType) : FieldType := ⟨false, false, ty⟩

def newBox (ty : RustType) : FieldType := ⟨true, false, ty⟩

def newVec (ty : RustType) : FieldType := ⟨false, true, ty⟩

def toTokens (ty : FieldType) : RustType :=
  if ty.needsBox then .box ty.ty else if ty.isVec then .vec ty.ty else ty.ty

end FieldType

structure FieldDefinition where
  name : String
  nameIdent : String
  ty : FieldType
  optional : Bool
  isEnum : Bool
  serdeSkip : Bool
deriving DecidableEq

/-- An item of a generated module. A type that is made from a definition of its own has that one's name as its `IDENTIFIER`; an enum has its variants with their strings. -/
inductive RustItem where
  | struct (identifier : Option String) (fields : List FieldDefinition)
  | wrapper (identifier : Option String) (ty : FieldType)
  | enum (arms : List (String × List String))
  | builder (fields : List FieldDefinition)
  | cdpEvent (variants : List (String × RustType))

/-! ### Definitions of a domain -/

/-- A type, a command or an event. -/
inductive DomainDatatype where
  | type (ty : TypeDef)
  | command (cmd : Command)
  | event (ev : Event)

namespace DomainDatatype

def name : DomainDatatype → String
  | type ty => ty.name
  | command cmd => cmd.name
  | event ev => ev.name

def rawName : DomainDatatype → String
  | type ty => ty.rawName
  | command cmd => cmd.rawName
  | event ev => ev.rawName

def isDeprecated : DomainDatatype → Bool
  | type ty => ty.deprecated
  | command cmd => cmd.deprecated
  | event ev => ev.deprecated

def isExperimental : DomainDatatype → Bool
  | type ty => ty.experimental
  | command cmd => cmd.experimental
  | event ev => ev.experimental

def isType : DomainDatatype → Bool
  | type _ => true
  | _ => false

def isCommand : DomainDatatype → Bool
  | command _ => true
  | _ => false

def params : DomainDatatype → List Param
  | type ty =>
    match ty.item with
    | some (.properties params) => params
    | _ => []
  | command cmd => cmd.parameters
  | event ev => ev.parameters

def asEnum : DomainDatatype → Option (List Variant)
  | type ty =>
    match ty.item with
    | some (.enum vars) => some vars
    | _ => none
  | _ => none

end DomainDatatype

def PdlType.isEnum : PdlType → Bool
  | enum _ => true
  | _ => false

def TypeDef.isEnum (ty : TypeDef) : Bool :=
  match ty.item with
  | some (.enum _) => true
  | _ => false

/-- The types first, then the commands and the events. -/
def Domain.datatypes (domain : Domain) : List DomainDatatype :=
  domain.types.map .type ++ domain.commands.map .command ++ domain.events.map .event

/-- `rsplitn(2, '.')`: what stands before the last dot, and what behind it. -/
def rsplitDot (name : String) : String × String :=
  let back := name.toList.reverse
  (String.ofList (back.dropWhile (· ≠ '.')).tail.reverse, String.ofList (back.takeWhile (· ≠ '.')).reverse)

/-! ### Settings -/

/-- The sizes of Rust types. -/
structure RustSizes (w : Nat) where
  i64 : BitVec w
  f64 : BitVec w
  bool : BitVec w
  string : BitVec w
  value : BitVec w
  binary : BitVec w
  vec : BitVec w
  box : BitVec w

/-- What the generator is built with: the cases of names, the sizes of types, and whether overflow is checked. -/
structure Options (w : Nat) where
  toUpperCamelCase : String → String
  toSnakeCase : String → String
  toLowercase : String → String
  sizeOf : RustSizes w
  checks : Bool
  withExperimental : Bool
  withDeprecated : Bool

/-- The tables that are filled before anything is generated. -/
structure Settings (w : Nat) extends Options w where
  protocolMods : List String
  domains : Table String Nat
  enums : List String

/-- What the generator panics with. -/
inductive Panicked where
  | sizes (panic : Generator.Panic)
  | noReferencedDomain (path : String)
  | noMatchingDomain (domain : String)
  | outOfBounds
  | noType (reff : String)
deriving DecidableEq

/-- A computation on the sizes. -/
abbrev Gen (w : Nat) := StateT (Generator w) (Except Panicked)

namespace Gen

variable {w : Nat} {α β : Type}

/-- The results for the members of a list, one after the other. -/
def collect (f : α → Gen w (List β)) : List α → Gen w (List β)
  | [] => pure []
  | a :: as => do
    let bs ← f a
    let rest ← collect f as
    pure (bs ++ rest)

def store (checks : Bool) (ty : String) (size : BitVec w ⊕ String) : Gen w Unit := fun sizes =>
  match sizes.storeSize checks ty size with
  | .ok sizes => .ok ((), sizes)
  | .error panic => .error (.sizes panic)

/-- `self.type_size.insert`. -/
def insert (ty : String) (size : BitVec w) : Gen w Unit := fun sizes =>
  .ok ((), { sizes with typeSize := sizes.typeSize.set ty size })

theorem bind_ok {x : Gen w α} {f : α → Gen w β} {s s' : Generator w} {b : β} (h : (x >>= f) s = .ok (b, s')) :
    ∃ a s₁, x s = .ok (a, s₁) ∧ f a s₁ = .ok (b, s') := by
  change (x s >>= fun made => f made.1 made.2) = _ at h
  cases hx : x s with
  | error panic =>
    rw [hx] at h
    cases h
  | ok made =>
    rw [hx] at h
    exact ⟨made.1, made.2, rfl, h⟩

theorem pure_ok {a b : α} {s s' : Generator w} (h : (pure a : Gen w α) s = .ok (b, s')) : b = a ∧ s' = s := by
  cases h
  exact ⟨rfl, rfl⟩

theorem lift_ok {x : Except Panicked α} {a : α} {s s' : Generator w} (h : (liftM x : Gen w α) s = .ok (a, s')) :
    x = .ok a ∧ s' = s := by
  cases x with
  | error panic => cases h
  | ok b =>
    cases h
    exact ⟨rfl, rfl⟩

end Gen

namespace Options

variable {w : Nat} (g : Options w)

/-- The filters for what is deprecated or experimental. -/
def includes (deprecated experimental : Bool) : Bool :=
  (g.withDeprecated || !deprecated) && (g.withExperimental || !experimental)

def keptDomains (domains : List Domain) : List Domain := domains.filter fun d => g.includes d.deprecated d.experimental

def keptDatatypes (domain : Domain) : List DomainDatatype :=
  domain.datatypes.filter fun dt => g.includes dt.isDeprecated dt.isExperimental

def keptParams (params : List Param) : List Param := params.filter fun p => g.includes p.deprecated p.experimental

/-- The event among the definitions, if it is one. -/
def keptEvents (domain : Domain) : List Event := domain.events.filter fun ev => g.includes ev.deprecated ev.experimental

theorem mem_keptDatatypes {domain : Domain} {ev : Event} (h : ev ∈ g.keptEvents domain) :
    .event ev ∈ g.keptDatatypes domain := by
  obtain ⟨hmem, hincluded⟩ := List.mem_filter.1 h
  exact List.mem_filter.2 ⟨List.mem_append_right _ (List.mem_map_of_mem hmem), hincluded⟩

def generateFieldName (name : String) : String :=
  let name := g.toSnakeCase name
  match name with
  | "type" => "r#type"
  | "mod" => "r#mod"
  | "override" => "r#override"
  | _ => name

/-- The name of an enum that is defined inside a type. -/
def subenumName (parent inner : String) : String :=
  g.toUpperCamelCase parent ++ EnumStrings.generateEnumFieldName g.toUpperCamelCase inner

def identName : DomainDatatype → String
  | .type ty => g.toUpperCamelCase ty.name
  | .command cmd => g.toUpperCamelCase cmd.name ++ "Params"
  | .event ev => "Event" ++ g.toUpperCamelCase ev.name

/-- The tables for some files, each with the name of its module. A domain that is in two files belongs to the later one. -/
def register (pdls : List (String × Protocol)) : Settings w where
  toOptions := g
  protocolMods := pdls.map Prod.fst
  domains := pdls.zipIdx.foldl (fun domains pdl => pdl.1.2.domains.foldl (fun domains d => domains.set d.name pdl.2) domains) ∅
  enums := pdls.flatMap fun pdl => pdl.2.domains.flatMap fun d => (d.types.filter TypeDef.isEnum).map TypeDef.rawName

end Options

/-! ### Types of fields -/

namespace Settings

variable {w : Nat} (g : Settings w)

/-- The path to a type that is referred to: `Runtime.ScriptId` is in the module of `Runtime`, which may be in another file than the domain. -/
def projectedType (domain : Domain) (name : String) : Except Panicked Path :=
  let (path, tyName) := rsplitDot name
  let ident := g.toUpperCamelCase tyName
  if path = "" then .ok ⟨0, [], ident⟩
  else
    match g.domains.get domain.name with
    | none => .error (.noMatchingDomain domain.name)
    | some currentDomainIdx =>
      match g.domains.get path with
      | none => .error (.noReferencedDomain path)
      | some refDomainIdx =>
        if currentDomainIdx = refDomainIdx then .ok ⟨1, [g.toSnakeCase path], ident⟩
        else
          match g.protocolMods[refDomainIdx]? with
          | none => .error .outOfBounds
          | some modName => .ok ⟨2, [modName, g.toSnakeCase path], ident⟩

/-- The type of a field with its size, or with the name of the type that it takes its size from. -/
def generateFieldType (domain : Domain) (parent paramName : String) :
    PdlType → Except Panicked (FieldType × (BitVec w ⊕ String))
  | .integer => .ok (.new .i64, .inl g.sizeOf.i64)
  | .number => .ok (.new .f64, .inl g.sizeOf.f64)
  | .boolean => .ok (.new .bool, .inl g.sizeOf.bool)
  | .string => .ok (.new .string, .inl g.sizeOf.string)
  | .object => .ok (.new .value, .inl g.sizeOf.value)
  | .any => .ok (.new .value, .inl g.sizeOf.value)
  | .binary => .ok (.new .binary, .inl g.sizeOf.binary)
  | .enum _ => .ok (.new (.path ⟨0, [], g.subenumName parent paramName⟩), .inl 16)
  | .arrayOf (.ref name) => do
    let path ← g.projectedType domain name
    .ok (.newVec (.path path), .inl g.sizeOf.vec)
  | .arrayOf ty => do
    let made ← generateFieldType domain parent paramName ty
    .ok (.newVec made.1.toTokens, .inl g.sizeOf.vec)
  | .ref name =>
    -- A type that contains itself is boxed.
    if name = parent then .ok (.newBox (.path ⟨0, [], g.toUpperCamelCase name⟩), .inl g.sizeOf.box)
    else do
      let path ← g.projectedType domain name
      .ok (.new (.path path), .inr (g.toUpperCamelCase (rsplitDot name).2))

/-! ### Types -/

/-- Add a utility field that is not part of the protocol. -/
def applyStructFixup (dt : DomainDatatype) (fields : List FieldDefinition) : List FieldDefinition :=
  if dt.rawName = "Runtime.evaluate" then
    fields ++ [⟨"eval_as_function_fallback", "eval_as_function_fallback", .new .bool, true, false, true⟩]
  else fields

def generateEnum (ident : String) (variants : List Variant) : Gen w (String × RustItem) := do
  let enumName := g.toUpperCamelCase (rsplitDot ident).2
  Gen.insert enumName 16
  pure (enumName, .enum (EnumStrings.generateEnum g.toUpperCamelCase g.toLowercase (variants.map Variant.name)))

/-- The enum that is defined inside a parameter. -/
def generateSubenums (dt : DomainDatatype) (param : Param) : Gen w (List (String × RustItem)) :=
  match param.ty with
  | .enum vars => do
    let enum ← g.generateEnum (g.subenumName dt.name param.name) vars
    pure [enum]
  | _ => pure []

/-- The type of a parameter points to an enum. -/
def pointsToEnum (domain : Domain) : PdlType → Bool
  | .ref name => g.enums.contains name || g.enums.contains (domain.name ++ "." ++ name)
  | ty => ty.isEnum

/-- A field, and the enum that is defined with it. -/
def generateField (domain : Domain) (dt : DomainDatatype) (structIdent : String) (param : Param) :
    Gen w (FieldDefinition × List (String × RustItem)) := do
  let enums ← g.generateSubenums dt param
  let made ← g.generateFieldType domain dt.name param.name param.ty
  Gen.store g.checks structIdent made.2
  pure (⟨param.name, g.generateFieldName param.name, made.1, param.optional, g.pointsToEnum domain param.ty, false⟩, enums)

/-- A struct with the enums that are defined inside it, and its builder. The `IDENTIFIER` is added by `generate_type`. -/
def generateStruct (domain : Domain) (dt : DomainDatatype) (structIdent : String) (identifier : Option String)
    (params : List Param) : Gen w (List (String × RustItem)) := do
  let made ← Gen.collect (fun param => do
    let field ← g.generateField domain dt structIdent param
    pure [field]) params
  let fields := applyStructFixup dt (made.map Prod.fst)
  if fields.isEmpty then
    match dt with
    | .type tydef => do
      let wrapped ← g.generateFieldType domain dt.name dt.name tydef.extendsType
      Gen.store g.checks structIdent wrapped.2
      pure [(structIdent, .wrapper identifier wrapped.1)]
    | _ => do
      Gen.insert structIdent 0
      pure [(structIdent, .struct identifier [])]
  else
    pure ((structIdent, .struct identifier fields) :: made.flatMap Prod.snd ++
      if dt.isCommand || dt.isType then [(structIdent ++ "Builder", .builder fields)] else [])

def generateType (domain : Domain) (dt : DomainDatatype) : Gen w (List (String × RustItem)) :=
  match dt.asEnum with
  | some vars => do
    let enum ← g.generateEnum dt.name vars
    pure [enum]
  | none => do
    let items ← g.generateStruct domain dt (g.identName dt) (some dt.rawName) (g.keptParams dt.params)
    match dt with
    | .command cmd => do
      let returns ← g.generateStruct domain dt (g.toUpperCamelCase cmd.name ++ "Returns") none (g.keptParams cmd.returns)
      pure (items ++ returns)
    | _ => pure items

/-! ### Modules -/

def generateDomain (domain : Domain) : Gen w (List (String × RustItem)) :=
  Gen.collect (g.generateType domain) (g.keptDatatypes domain)

def generateTypes (domains : List Domain) : Gen w (List (String × ModuleTree RustItem)) :=
  Gen.collect (fun domain => do
    let items ← g.generateDomain domain
    pure [(g.toSnakeCase domain.name, .mk items [])]) (g.keptDomains domains)

def generateModules (pdls : List (String × Protocol)) : Gen w (List (String × ModuleTree RustItem)) :=
  Gen.collect (fun pdl => do
    let domains ← g.generateTypes pdl.2.domains
    pure [(pdl.1, .mk [] domains)]) pdls

end Settings

/-! ### Events -/

structure EventType where
  protocolMod : String
  domain : Domain
  inner : Event
  needsBox : Bool

namespace EventType

variable {w : Nat} (g : Options w) (ev : EventType)

def tyIdent : String := "Event" ++ g.toUpperCamelCase ev.inner.name

def varIdent : String := g.toUpperCamelCase ev.domain.name ++ g.toUpperCamelCase ev.inner.name

def tyQualifier : Path := ⟨1, [ev.protocolMod, g.toSnakeCase ev.domain.name], ev.tyIdent g⟩

/-- The variant of `CdpEvent`. -/
def variant : String × RustType :=
  (ev.varIdent g, if ev.needsBox then .box (.path (ev.tyQualifier g)) else .path (ev.tyQualifier g))

end EventType

namespace Settings

variable {w : Nat} (g : Settings w)

def generateEvent (sizes : Generator w) (domain : Domain) (event : Event) : Except Panicked EventType :=
  match g.domains.get domain.name with
  | none => .error (.noMatchingDomain domain.name)
  | some domainIdx =>
    match g.protocolMods[domainIdx]? with
    | none => .error .outOfBounds
    | some protocolMod =>
      let evName := "Event" ++ g.toUpperCamelCase event.name
      match sizes.typeSize.get evName with
      | none => .error (.noType evName)
      | some size => .ok ⟨protocolMod, domain, event, 200 < size.toNat⟩

/-- The events of all files that are included. -/
def generateEventEnums (sizes : Generator w) (pdls : List (String × Protocol)) : Except Panicked (List EventType) :=
  (pdls.flatMap fun pdl => (g.keptDomains pdl.2.domains).flatMap fun domain =>
    (g.keptEvents domain).map fun event => (domain, event)).mapM fun event => g.generateEvent sizes event.1 event.2

/-- The file that is written: the modules stand between the ones that every file has. -/
def output (modules : List (String × ModuleTree RustItem)) (events : List EventType) : ModuleTree RustItem :=
  .mk [] ([("sealed", .mk [] []), ("events", .mk [("CdpEvent", .cdpEvent (events.map (EventType.variant g.toOptions)))] [])] ++
    modules ++ [("de", .mk [] [])])

end Settings

/-- The generator, from the files with the names of their modules. The sizes that were put off are added up before the events are made. -/
def Options.compilePdls {w : Nat} (g : Options w) (fuel : Nat) (pdls : List (String × Protocol)) :
    Option (Except Panicked (ModuleTree RustItem)) :=
  let g := g.register pdls
  match g.generateModules pdls ⟨∅, []⟩ with
  | .error panic => some (.error panic)
  | .ok (modules, sizes) =>
    (sizes.resolveSizes g.checks fuel).map fun resolved =>
      match resolved with
      | .error panic => .error (.sizes panic)
      | .ok sizes => (g.generateEventEnums sizes pdls).map (g.output modules)

end SpiderChrome.Pdl
