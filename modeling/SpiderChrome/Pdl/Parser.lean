import SpiderChrome.Library.Matcher
import SpiderChrome.Library.Scanner
import SpiderChrome.Network.Events
import SpiderChrome.Pdl.Syntax

/-!
# The parser of protocol definitions

`parse_pdl` of `pdl/parser.rs` reads a text line by line. The tests that it makes of a line, one regular expression after the other, are on the line alone, so that they are a function `classify` to the kinds of line; what is done with a line is `step`.
-/

namespace SpiderChrome.Pdl

open Matcher
open NetworkManager (isWhitespace trim parseU64)

/-! ### The regular expressions -/

/-- The digit zero of every script that has decimal digits; the nine others follow it. -/
def decimalZeros : List Nat :=
  [0x30, 0x660, 0x6F0, 0x7C0, 0x966, 0x9E6, 0xA66, 0xAE6, 0xB66, 0xBE6, 0xC66, 0xCE6, 0xD66, 0xDE6, 0xE50, 0xED0,
    0xF20, 0x1040, 0x1090, 0x17E0, 0x1810, 0x1946, 0x19D0, 0x1A80, 0x1A90, 0x1B50, 0x1BB0, 0x1C40, 0x1C50, 0xA620,
    0xA8D0, 0xA900, 0xA9D0, 0xA9F0, 0xAA50, 0xABF0, 0xFF10, 0x104A0, 0x10D30, 0x10D40, 0x11066, 0x110F0, 0x11136,
    0x111D0, 0x112F0, 0x11450, 0x114D0, 0x11650, 0x116C0, 0x116D0, 0x116DA, 0x11730, 0x118E0, 0x11950, 0x11BF0,
    0x11C50, 0x11D50, 0x11DA0, 0x11F50, 0x16130, 0x16A60, 0x16AC0, 0x16B50, 0x16D70, 0x1CCF0, 0x1D7CE, 0x1D7D8,
    0x1D7E2, 0x1D7EC, 0x1D7F6, 0x1E140, 0x1E2F0, 0x1E4F0, 0x1E5F1, 0x1E950, 0x1FBF0]

/-- `\d`. -/
def isDecimal (c : Char) : Bool := decimalZeros.any fun first => first ≤ c.toNat && c.toNat < first + 10

/-- `[^\s]`. -/
def notSpace (c : Char) : Bool := !isWhitespace c

/-- `.` -/
def notNewline (c : Char) : Bool := c ≠ '\n'

/-- The flags and the name of a declaration. -/
structure Header where
  experimental : Bool
  deprecated : Bool
  name : String

/-- `(experimental )?(deprecated )?` -/
def flags {B : Type} (k : Bool → Bool → List Char → Option B) : List Char → Option B :=
  opt "experimental ".toList fun experimental => opt "deprecated ".toList fun deprecated => k experimental deprecated

/-- `^(experimental )?(deprecated )?domain (.*)` -/
def domainRegex : List Char → Option Header :=
  flags fun experimental deprecated => lit "domain ".toList <|
    star notNewline fun name _ => some ⟨experimental, deprecated, String.ofList name⟩

/-- `^  depends on ([^\s]+)` -/
def dependsRegex : List Char → Option String :=
  lit "  depends on ".toList <| plus notSpace fun name _ => some (String.ofList name)

/-- `^  (experimental )?(deprecated )?type (.*) extends (array of )?([^\s]+)` -/
def typeRegex : List Char → Option (Header × Bool × String) :=
  lit "  ".toList <| flags fun experimental deprecated => lit "type ".toList <| star notNewline fun name =>
    lit " extends ".toList <| opt "array of ".toList fun isArray => plus notSpace fun ty _ =>
      some (⟨experimental, deprecated, String.ofList name⟩, isArray, String.ofList ty)

/-- `^  (experimental )?(deprecated )?(command|event) (.*)`, with whether it is a command. -/
def callRegex : List Char → Option (Header × Bool) :=
  lit "  ".toList <| flags fun experimental deprecated => oneOf ["command".toList, "event".toList] fun kind =>
    lit " ".toList <| star notNewline fun name _ =>
      some (⟨experimental, deprecated, String.ofList name⟩, kind = "command".toList)

/-- A parameter as its line has it. -/
structure MemberLine where
  experimental : Bool
  deprecated : Bool
  optional : Bool
  isArray : Bool
  ty : String
  name : String

/-- `^      (experimental )?(deprecated )?(optional )?(array of )?([^\s]+) ([^\s]+)` -/
def memberRegex : List Char → Option MemberLine :=
  lit "      ".toList <| flags fun experimental deprecated => opt "optional ".toList fun optional =>
    opt "array of ".toList fun isArray => plus notSpace fun ty => lit " ".toList <| plus notSpace fun name _ =>
      some ⟨experimental, deprecated, optional, isArray, String.ofList ty, String.ofList name⟩

inductive Section where
  | parameters
  | returns
  | properties
deriving DecidableEq

/-- `^    (parameters|returns|properties)` -/
def sectionRegex : List Char → Option Section :=
  lit "    ".toList <| oneOf ["parameters".toList, "returns".toList, "properties".toList] fun kind _ =>
    some (if kind = "parameters".toList then .parameters else if kind = "returns".toList then .returns else .properties)

/-- `^  major (\d+)`, or the same with `minor`. -/
def versionRegex (part : String) : List Char → Option (List Char) :=
  lit ("  " ++ part ++ " ").toList <| plus isDecimal fun digits _ => some digits

/-- `^    redirect ([^\s]+)` -/
def redirectRegex : List Char → Option String :=
  lit "    redirect ".toList <| plus notSpace fun domain _ => some (String.ofList domain)

/-- A continuation that matches at the end of the text only. -/
def atEnd {B : Type} (result : B) (rest : List Char) : Option B := if rest = [] then some result else none

def quote : Char := Char.ofNat 39

/-- `^Use '([^']+)' instead$` -/
def insteadRegex : List Char → Option (List Char) :=
  lit ("Use ".toList ++ [quote]) <| plus (fun c => c ≠ quote) fun used =>
    lit (quote :: " instead".toList) <| atEnd used

/-- `^      (  )?[^\n\t]+$` -/
def literalRegex : List Char → Option Unit :=
  lit "      ".toList <| opt "  ".toList fun _ => plus (fun c => c ≠ '\n' ∧ c ≠ '\t') fun _ => atEnd ()

/-! ### The kinds of line -/

inductive Line where
  | comment (text : List Char)
  | blank
  | domain (header : Header)
  | dependsOn (name : String)
  | type (header : Header) (isArray : Bool) (ty : String)
  | call (header : Header) (isCommand : Bool)
  | member (member : MemberLine)
  | declares (kind : Section)
  | enum
  | version
  | major (digits : List Char)
  | minor (digits : List Char)
  | redirect (domain : String)
  | literal (name : String)
  | unknown (line : List Char)

/-- The tests of a line that is neither blank nor a comment, in their order. -/
def classifyDeclaration (line : List Char) : Line :=
  if let some header := domainRegex line then .domain header
  else if let some name := dependsRegex line then .dependsOn name
  else if let some (header, isArray, ty) := typeRegex line then .type header isArray ty
  else if let some (header, isCommand) := callRegex line then .call header isCommand
  else if let some member := memberRegex line then .member member
  else if let some kind := sectionRegex line then .declares kind
  else if "    enum".toList.isPrefixOf line then .enum
  else if "version".toList.isPrefixOf line then .version
  else if let some digits := versionRegex "major" line then .major digits
  else if let some digits := versionRegex "minor" line then .minor digits
  else if let some domain := redirectRegex line then .redirect domain
  else if (literalRegex line).isSome then .literal (String.ofList (trim line))
  else .unknown line

def classify (line : List Char) : Line :=
  let trimLine := trim line
  if trimLine.head? = some '#' then .comment (trimLine.tail.dropWhile isWhitespace)
  else if trimLine.isEmpty then .blank
  else classifyDeclaration line

/-! ### The state of the parser -/

/-- A parse fails with a message, or panics. -/
inductive Failure where
  | error (message : String)
  | panic
deriving DecidableEq

/-- The `Member` of the source: a section with its parameters so far. -/
structure Member where
  kind : Section
  params : List Param

inductive Element where
  | type (ty : TypeDef)
  | command (cmd : Command)
  | event (ev : Event)

namespace Element

/-- The element is added to its domain. -/
def consume (element : Element) (domain : Domain) : Domain :=
  match element with
  | type ty => { domain with types := domain.types ++ [ty] }
  | command cmd => { domain with commands := domain.commands ++ [cmd] }
  | event ev => { domain with events := domain.events ++ [ev] }

theorem name_consume (element : Element) (domain : Domain) : (element.consume domain).name = domain.name := by
  cases element with
  | type ty => rfl
  | command cmd => rfl
  | event ev => rfl

def addMember (element : Element) (member : Member) : Except Failure Element :=
  match member.kind, element with
  | .parameters, command cmd => .ok (command { cmd with parameters := member.params })
  | .parameters, event ev => .ok (event { ev with parameters := member.params })
  | .returns, command cmd => .ok (command { cmd with returns := member.params })
  | .properties, type ty =>
    if ty.item.isSome then .error (.error ("Type " ++ ty.name ++ " can't have additional properties section"))
    else .ok (type { ty with item := some (.properties member.params) })
  | _, _ => .error (.error "Invalid member")

end Element

/-- The local variables of `parse_pdl`, with the fields of the protocol that are filled. -/
structure ParseState where
  protocolDescription : Option String
  domains : List Domain
  description : Option String
  version : Option Version
  element : Option Element
  member : Option Member
  memberEnum : Bool

namespace ParseState

def new : ParseState := ⟨none, [], none, none, none, none, false⟩

/-- The element that is under way is finished, if there is a domain to add it to. -/
def flush (s : ParseState) : Except Failure ParseState :=
  match s.domains.getLast?, s.element with
  | some _, some element => do
    let element ← match s.member with
      | some member => element.addMember member
      | none => pure element
    pure { s with domains := s.domains.modifyLast element.consume, element := none, member := none }
  | _, _ => pure s

/-- `line {}: …` -/
def bail {A : Type} (lineNum : Nat) (message : String) : Except Failure A :=
  .error (.error ("line " ++ toString lineNum ++ ": " ++ message))

def getOrBail {A : Type} (lineNum : Nat) (message : String) : Option A → Except Failure A
  | some a => .ok a
  | none => bail lineNum message

/-- `parse().unwrap()` of the digits of a version. -/
def parseUsize (digits : List Char) : Except Failure Nat :=
  match parseU64 digits with
  | some n => .ok n.toNat
  | none => .error .panic

/-- What follows the last dot. -/
def afterLastDot (used : List Char) : List Char := (used.splitOn '.').getLastD []

/-- The name of the command that a comment says to use instead. -/
def commandToUse (description : String) : Option String :=
  (insteadRegex description.toList).map fun used => String.ofList (afterLastDot used)

def pushVariant (lineNum : Nat) (variant : Variant) (param : Param) : Except Failure Param :=
  match param.ty with
  | .enum vars => .ok { param with ty := .enum (vars ++ [variant]) }
  | _ => bail lineNum "missing enum declaration"

/-- A literal of the enumeration that is the type of the last parameter. -/
def pushMemberVariant (lineNum : Nat) (variant : Variant) (member : Member) : Except Failure Member := do
  let param ← getOrBail lineNum "missing parameter declaration" member.params.getLast?
  let param ← pushVariant lineNum variant param
  pure { member with params := member.params.modifyLast fun _ => param }

/-- A literal of the enumeration that is the item of a type. -/
def pushItemVariant (lineNum : Nat) (variant : Variant) : Element → Except Failure Element
  | .type ty =>
    match ty.item with
    | some (.enum vars) => .ok (.type { ty with item := some (.enum (vars ++ [variant])) })
    | _ => bail lineNum "missing enum declaration"
  | _ => bail lineNum "missing enum declaration"

def appendComment (description : Option String) (text : List Char) : String :=
  match description with
  | some desc => desc ++ "\n" ++ String.ofList text
  | none => String.ofList text

/-- What is done with a line. -/
def step (lineNum : Nat) (s : ParseState) : Line → Except Failure ParseState
  | .comment text => pure { s with description := some (appendComment s.description text) }
  | .blank => pure s
  | .domain header => do
    let s ← s.flush
    let domain : Domain :=
      { description := s.description, experimental := header.experimental, deprecated := header.deprecated
        name := header.name, dependencies := [], types := [], commands := [], events := [] }
    pure { s with description := none, domains := s.domains ++ [domain] }
  | .dependsOn name => do
    let _ ← getOrBail lineNum "missing domain declaration" s.domains.getLast?
    pure { s with
      domains := s.domains.modifyLast fun domain => { domain with dependencies := domain.dependencies ++ [name] } }
  | .type header isArray ty => do
    let domain ← getOrBail lineNum "missing domain declaration" s.domains.getLast?
    let s ← s.flush
    let ty : TypeDef :=
      { description := s.description, experimental := header.experimental, deprecated := header.deprecated
        name := header.name, extendsType := .new ty isArray, item := none
        rawName := domain.name ++ "." ++ header.name, isCircularDep := isCircularDep domain.name header.name }
    pure { s with description := none, element := some (.type ty) }
  | .call header isCommand => do
    let domain ← getOrBail lineNum "missing domain declaration" s.domains.getLast?
    let s ← s.flush
    let rawName := domain.name ++ "." ++ header.name
    let circular := isCircularDep domain.name header.name
    let element : Element :=
      if isCommand then
        .command
          { description := s.description, experimental := header.experimental, deprecated := header.deprecated
            name := header.name, redirect := none, parameters := [], returns := [], rawName := rawName
            isCircularDep := circular }
      else
        .event
          { description := s.description, experimental := header.experimental, deprecated := header.deprecated
            name := header.name, parameters := [], rawName := rawName, isCircularDep := circular }
    pure { s with description := none, element := some element }
  | .member line => do
    let domain ← getOrBail lineNum "missing domain declaration" s.domains.getLast?
    let param : Param :=
      { description := s.description, experimental := line.experimental, deprecated := line.deprecated
        optional := line.optional, ty := .new line.ty line.isArray, name := line.name
        rawName := domain.name ++ "." ++ line.name, isCircularDep := isCircularDep domain.name line.name }
    let member ← getOrBail lineNum ("parameter " ++ line.name ++ " has no declared member section") s.member
    pure { s with
      description := none
      member := some { member with params := member.params ++ [param] }
      memberEnum := if line.ty = "enum" then true else s.memberEnum }
  | .declares kind => do
    let element ← match s.member with
      | some member => do
        let element ← getOrBail lineNum "member has no parent item" s.element
        some <$> element.addMember member
      | none => pure s.element
    pure { s with element := element, member := some ⟨kind, []⟩ }
  | .enum =>
    match s.element with
    | some (.type ty) =>
      if ty.item.isNone then
        pure { s with memberEnum := false, element := some (.type { ty with item := some (.enum []) }) }
      else bail lineNum "enum declaration not allowed"
    | _ => bail lineNum "enum declaration not allowed"
  | .version =>
    pure { s with protocolDescription := s.description, description := none, version := some ⟨0, 0⟩ }
  | .major digits => do
    let version ← getOrBail lineNum "version must be declared first" s.version
    let major ← parseUsize digits
    pure { s with version := some { version with major := major } }
  | .minor digits => do
    let version ← getOrBail lineNum "missing version declaration" s.version
    let minor ← parseUsize digits
    pure { s with version := some { version with minor := minor } }
  | .redirect domain =>
    let redirect : Redirect := { description := s.description, domain := domain, name := none }
    -- the description has just been taken, so that none is left to read the name from
    let s := { s with description := none }
    let redirect := { redirect with name := s.description.bind commandToUse }
    match s.element with
    | some (.command cmd) => pure { s with element := some (.command { cmd with redirect := some redirect }) }
    | some _ => bail lineNum "can't add redirect here"
    | none => bail lineNum "missing item declaration"
  | .literal name =>
    let variant : Variant := { description := s.description, name := name }
    if s.memberEnum then do
      let member ← getOrBail lineNum "missing member declaration" s.member
      let member ← pushMemberVariant lineNum variant member
      pure { s with description := none, member := some member }
    else do
      let element ← getOrBail lineNum "missing item declaration" s.element
      let element ← pushItemVariant lineNum variant element
      pure { s with description := none, element := some element }
  | .unknown line => bail lineNum ("unknown token " ++ "`" ++ String.ofList line ++ "`")

/-- What is done with a line of the text. -/
def stepLine (lineNum : Nat) (s : ParseState) (line : List Char) : Except Failure ParseState :=
  s.step lineNum (classify line)

/-- The lines, of which the first has the number. -/
def run : Nat → ParseState → List (List Char) → Except Failure ParseState := Scanner.readFrom stepLine

end ParseState

/-- A line of `lines` without its end. -/
def stripLine (line : List Char) : List Char := if line.getLast? = some '\r' then line.dropLast else line

/-- `input.lines()`: a line end that nothing follows does not begin another line. -/
def lines (input : List Char) : List (List Char) :=
  let pieces := input.splitOn '\n'
  pieces.dropLast.map stripLine ++ (if pieces.getLast? = some [] then [] else pieces.getLast?.toList)

def parsePdl (input : String) : Except Failure Protocol := do
  let s ← ParseState.run 1 ParseState.new (lines input.toList)
  let s ← s.flush
  match s.version with
  | some version => pure { description := s.protocolDescription, version := version, domains := s.domains }
  | none => .error (.error "Missing version")

end SpiderChrome.Pdl
