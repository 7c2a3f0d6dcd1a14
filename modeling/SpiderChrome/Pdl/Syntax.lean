import Mathlib.Data.List.Basic

/-!
# Protocol definitions

The data of a protocol definition, as `pdl/mod.rs` has it, and the table of `pdl/dep.rs`.
-/

namespace SpiderChrome.Pdl

structure Version where
  major : Nat
  minor : Nat
deriving DecidableEq

structure Variant where
  description : Option String
  name : String
deriving DecidableEq

/-- The `Type` of the source. -/
inductive PdlType where
  | integer
  | number
  | boolean
  | string
  | object
  | any
  | binary
  | enum (variants : List Variant)
  | arrayOf (ty : PdlType)
  | ref (name : String)
deriving DecidableEq

namespace PdlType

def named (ty : String) : PdlType :=
  if ty = "enum" then enum []
  else if ty = "integer" then integer
  else if ty = "number" then number
  else if ty = "boolean" then boolean
  else if ty = "string" then string
  else if ty = "object" then object
  else if ty = "any" then any
  else if ty = "binary" then binary
  else ref ty

def new (ty : String) (isArray : Bool) : PdlType := if isArray then arrayOf (named ty) else named ty

end PdlType

structure Param where
  description : Option String
  experimental : Bool
  deprecated : Bool
  optional : Bool
  ty : PdlType
  name : String
  rawName : String
  isCircularDep : Bool
deriving DecidableEq

inductive Item where
  | enum (variants : List Variant)
  | properties (params : List Param)
deriving DecidableEq

structure TypeDef where
  description : Option String
  experimental : Bool
  deprecated : Bool
  name : String
  extendsType : PdlType
  item : Option Item
  rawName : String
  isCircularDep : Bool
deriving DecidableEq

structure Redirect where
  description : Option String
  domain : String
  name : Option String
deriving DecidableEq

structure Command where
  description : Option String
  experimental : Bool
  deprecated : Bool
  name : String
  redirect : Option Redirect
  parameters : List Param
  returns : List Param
  rawName : String
  isCircularDep : Bool
deriving DecidableEq

structure Event where
  description : Option String
  experimental : Bool
  deprecated : Bool
  name : String
  parameters : List Param
  rawName : String
  isCircularDep : Bool
deriving DecidableEq

structure Domain where
  description : Option String
  experimental : Bool
  deprecated : Bool
  name : String
  dependencies : List String
  types : List TypeDef
  commands : List Command
  events : List Event
deriving DecidableEq

structure Protocol where
  description : Option String
  version : Version
  domains : List Domain
deriving DecidableEq

/-- The types that can cause circular dependency issues. -/
def circularDeps : List String :=
  ["browser.browsercontextid", "dom.backendnodeid", "dom.backendnode", "dom.nodeid", "dom.node", "dom.nodetype",
    "dom.pseudotype", "dom.rgba", "dom.shadowroottype", "network.loaderid", "network.monotonictime",
    "network.timesinceepoch", "page.frameid", "page.frame"]

/-- A letter in lowercase where that is ASCII; the others, of which the table has none, are left alone. The Kelvin sign has an ASCII letter in lowercase. -/
def lowercase (c : Char) : Char := if c = Char.ofNat 8490 then 'k' else c.toLower

def toLowercase (s : String) : String := String.ofList (s.toList.map lowercase)

def isCircularDep (dty tyStr : String) : Bool := circularDeps.contains (toLowercase dty ++ "." ++ toLowercase tyStr)

end SpiderChrome.Pdl
