import SpiderChrome.Pdl.Parser

/-!
# The layout of protocol definitions

The layout of the files of the browser: a blank line before every domain and every element, two more spaces on each level, and the description of an element as comment lines right above it. The elements of a domain stand in any order. What such a text can say at all is what makes a protocol well formed.
-/

namespace SpiderChrome.Pdl

open NetworkManager (isWhitespace)

/-! ### Lines -/

def indented (indent : Nat) (text : List Char) : List Char := List.replicate indent ' ' ++ text

def commentText (piece : List Char) : List Char := '#' :: if piece = [] then [] else ' ' :: piece

def commentLines (indent : Nat) : Option String → List (List Char)
  | some text => (text.toList.splitOn '\n').map fun piece => indented indent (commentText piece)
  | none => []

def flagText (flag : Bool) (word : String) : List Char := if flag then word.toList else []

def flagsText (experimental deprecated : Bool) : List Char :=
  flagText experimental "experimental " ++ flagText deprecated "deprecated "

/-- The word of a type; that of an array is the word of what it is an array of. -/
def PdlType.word : PdlType → String
  | integer => "integer"
  | number => "number"
  | boolean => "boolean"
  | string => "string"
  | object => "object"
  | any => "any"
  | binary => "binary"
  | enum _ => "enum"
  | arrayOf ty => ty.word
  | ref name => name

def PdlType.isArray : PdlType → Bool
  | arrayOf _ => true
  | _ => false

/-- The literals that a type has. -/
def PdlType.literals : PdlType → List Variant
  | enum variants => variants
  | arrayOf ty => ty.literals
  | _ => []

def typeText (ty : PdlType) : List Char := flagText ty.isArray "array of " ++ ty.word.toList

/-! ### Elements -/

def variantLines (indent : Nat) (variant : Variant) : List (List Char) :=
  commentLines indent variant.description ++ [indented indent variant.name.toList]

def memberText (param : Param) : List Char :=
  flagsText param.experimental param.deprecated ++
    (flagText param.optional "optional " ++ (typeText param.ty ++ ' ' :: param.name.toList))

def paramLines (param : Param) : List (List Char) :=
  commentLines 6 param.description ++ indented 6 (memberText param) :: param.ty.literals.flatMap (variantLines 8)

/-- A section without parameters is left out. -/
def sectionLines (word : String) (params : List Param) : List (List Char) :=
  if params = [] then [] else indented 4 word.toList :: params.flatMap paramLines

def itemLines : Option Item → List (List Char)
  | some (.enum variants) => indented 4 "enum".toList :: variants.flatMap (variantLines 6)
  | some (.properties params) => indented 4 "properties".toList :: params.flatMap paramLines
  | none => []

def headerText (experimental deprecated : Bool) (word name : String) : List Char :=
  flagsText experimental deprecated ++ (word.toList ++ name.toList)

def typeHeader (ty : TypeDef) : List Char :=
  headerText ty.experimental ty.deprecated "type " ty.name ++ (" extends ".toList ++ typeText ty.extendsType)

def redirectLines : Option Redirect → List (List Char)
  | some redirect => commentLines 4 redirect.description ++ [indented 4 ("redirect ".toList ++ redirect.domain.toList)]
  | none => []

def elementLines : Element → List (List Char)
  | .type ty => commentLines 2 ty.description ++ indented 2 (typeHeader ty) :: itemLines ty.item
  | .command cmd =>
    commentLines 2 cmd.description ++
      indented 2 (headerText cmd.experimental cmd.deprecated "command " cmd.name) ::
        (redirectLines cmd.redirect ++
          (sectionLines "parameters" cmd.parameters ++ sectionLines "returns" cmd.returns))
  | .event ev =>
    commentLines 2 ev.description ++
      indented 2 (headerText ev.experimental ev.deprecated "event " ev.name) :: sectionLines "parameters" ev.parameters

/-! ### Protocols -/

def domainLines (domain : Domain) (elements : List Element) : List (List Char) :=
  [] :: (commentLines 0 domain.description ++
    headerText domain.experimental domain.deprecated "domain " domain.name ::
      (domain.dependencies.map (fun name => indented 2 ("depends on ".toList ++ name.toList)) ++
        elements.flatMap fun element => [] :: elementLines element))

def versionLines (version : Version) : List (List Char) :=
  ["version".toList, indented 2 ("major ".toList ++ Nat.toDigits 10 version.major),
    indented 2 ("minor ".toList ++ Nat.toDigits 10 version.minor)]

/-- The lines of a protocol, with the elements of each domain in some order. -/
def protocolLines (protocol : Protocol) (orders : List (List Element)) : List (List Char) :=
  commentLines 0 protocol.description ++ [] :: (versionLines protocol.version ++
    (protocol.domains.zip orders).flatMap fun entry => domainLines entry.1 entry.2)

def print (protocol : Protocol) (orders : List (List Element)) : String :=
  String.ofList ((protocolLines protocol orders).flatMap fun line => line ++ ['\n'])

def Element.type? : Element → Option TypeDef
  | type ty => some ty
  | _ => none

def Element.command? : Element → Option Command
  | command cmd => some cmd
  | _ => none

def Element.event? : Element → Option Event
  | event ev => some ev
  | _ => none

/-- The elements are those of the domain, in an order that keeps each of its lists. -/
structure Domain.Lists (domain : Domain) (elements : List Element) : Prop where
  types : elements.filterMap Element.type? = domain.types
  commands : elements.filterMap Element.command? = domain.commands
  events : elements.filterMap Element.event? = domain.events

/-! ### Well-formed protocols -/

/-- A name: not empty, without white space, and not to be taken for a comment. -/
structure Word (s : String) : Prop where
  ne_nil : s.toList ≠ []
  noSpace : ∀ c ∈ s.toList, isWhitespace c = false
  noComment : s.toList.head? ≠ some '#'

/-- A line of a description has no white space on either side. -/
structure Trimmed (piece : List Char) : Prop where
  first : ∀ c ∈ piece.head?, isWhitespace c = false
  last : ∀ c ∈ piece.getLast?, isWhitespace c = false

def Description (description : Option String) : Prop :=
  ∀ text ∈ description, ∀ piece ∈ text.toList.splitOn '\n', Trimmed piece

structure Variant.WellFormed (variant : Variant) : Prop where
  description : Description variant.description
  name : Word variant.name

namespace PdlType

/-- The words that are not the name of a type of the protocol. -/
def keywords : List String := ["enum", "integer", "number", "boolean", "string", "object", "any", "binary"]

/-- A type that is its word. -/
def Plain : PdlType → Prop
  | enum variants => variants = []
  | arrayOf _ => False
  | ref name => Word name ∧ name ∉ keywords
  | _ => True

/-- A type that the declaration of a type extends; the literals of the declaration are its item. -/
def Extended : PdlType → Prop
  | arrayOf ty => ty.Plain
  | ty => ty.Plain

/-- The type of a parameter; what is an array has no array in it. -/
def WellFormed : PdlType → Prop
  | enum variants => ∀ variant ∈ variants, variant.WellFormed
  | arrayOf (enum variants) => ∀ variant ∈ variants, variant.WellFormed
  | arrayOf ty => ty.Plain
  | ty => ty.Plain

end PdlType

/-- The last two fields of what is declared in a domain are made of the names. -/
def Derived (domain name rawName : String) (circular : Bool) : Prop :=
  rawName = domain ++ "." ++ name ∧ circular = isCircularDep domain name

structure Param.WellFormed (domain : String) (param : Param) : Prop where
  description : Description param.description
  ty : param.ty.WellFormed
  name : Word param.name
  derived : Derived domain param.name param.rawName param.isCircularDep

structure TypeDef.WellFormed (domain : String) (ty : TypeDef) : Prop where
  description : Description ty.description
  name : Word ty.name
  extendsType : ty.extendsType.Extended
  enum : ∀ variants, ty.item = some (.enum variants) → ∀ variant ∈ variants, variant.WellFormed
  properties : ∀ params, ty.item = some (.properties params) → ∀ param ∈ params, param.WellFormed domain
  derived : Derived domain ty.name ty.rawName ty.isCircularDep

/-- The text has no other place for the name of the command than the comment. -/
structure Redirect.WellFormed (redirect : Redirect) : Prop where
  description : Description redirect.description
  domain : Word redirect.domain
  name : redirect.name = redirect.description.bind ParseState.commandToUse

structure Command.WellFormed (domain : String) (cmd : Command) : Prop where
  description : Description cmd.description
  name : Word cmd.name
  redirect : ∀ redirect ∈ cmd.redirect, redirect.WellFormed
  parameters : ∀ param ∈ cmd.parameters, param.WellFormed domain
  returns : ∀ param ∈ cmd.returns, param.WellFormed domain
  derived : Derived domain cmd.name cmd.rawName cmd.isCircularDep

structure Event.WellFormed (domain : String) (ev : Event) : Prop where
  description : Description ev.description
  name : Word ev.name
  parameters : ∀ param ∈ ev.parameters, param.WellFormed domain
  derived : Derived domain ev.name ev.rawName ev.isCircularDep

structure Domain.WellFormed (domain : Domain) : Prop where
  description : Description domain.description
  name : Word domain.name
  dependencies : ∀ name ∈ domain.dependencies, Word name
  types : ∀ ty ∈ domain.types, ty.WellFormed domain.name
  commands : ∀ cmd ∈ domain.commands, cmd.WellFormed domain.name
  events : ∀ ev ∈ domain.events, ev.WellFormed domain.name

/-- The numbers of the version fit in a `usize`. -/
structure Protocol.WellFormed (protocol : Protocol) : Prop where
  description : Description protocol.description
  major : protocol.version.major < 2 ^ 64
  minor : protocol.version.minor < 2 ^ 64
  domains : ∀ domain ∈ protocol.domains, domain.WellFormed

/-! ### What the parser loses -/

def Param.isEnumArray (param : Param) : Prop := ∃ variants, variants ≠ [] ∧ param.ty = .arrayOf (.enum variants)

/-- The parameters, return values and properties of an element. -/
def Element.params : Element → List Param
  | type ty =>
    match ty.item with
    | some (.properties params) => params
    | _ => []
  | command cmd => cmd.parameters ++ cmd.returns
  | event ev => ev.parameters

end SpiderChrome.Pdl
