import Mathlib.Algebra.GroupWithZero.Nat

/-!
# Hosts and base domains

The parts of `handler/network_utils.rs` that the network manager uses to tell first-party requests from others. The source works on the bytes of a string and splits it only at ASCII separators, so a string is a list of characters here, and a length in bytes is `utf8Len`.
-/

namespace SpiderChrome

namespace NetworkUtils

def utf8Len (s : List Char) : Nat := (s.map fun c => c.utf8Size).sum

def stripPrefix? (s pat : List Char) : Option (List Char) :=
  if pat.isPrefixOf s then some (s.drop pat.length) else none

/-- What stands before and after the last occurrence of a character. -/
def splitLast (c : Char) (s : List Char) : Option (List Char × List Char) :=
  if c ∈ s then
    some (((s.reverse.dropWhile (· ≠ c)).drop 1).reverse, (s.reverse.takeWhile (· ≠ c)).reverse)
  else none

def trimEndMatches (c : Char) (s : List Char) : List Char := (s.reverse.dropWhile (· = c)).reverse

def toAsciiLowercase (s : List Char) : List Char := s.map Char.toLower

def stripSpecialSchemes (url : List Char) : List Char :=
  let url := (stripPrefix? url "blob:".toList).getD url
  (stripPrefix? url "filesystem:".toList).getD url

/-- What follows `scheme://` or a leading `//`. -/
def afterScheme (url : List Char) : Option (List Char) :=
  let protocolRelative := stripPrefix? url "//".toList
  if ':' ∈ url then
    match stripPrefix? (url.dropWhile (· ≠ ':')) "://".toList with
    | some rest => some rest
    | none => protocolRelative
  else protocolRelative

def hostAndRest (url : List Char) : Option (List Char × List Char) := do
  let url ← afterScheme (stripSpecialSchemes url)
  let endsAuthority (c : Char) : Bool := c = '/' ∨ c = '?' ∨ c = '#'
  let authority := url.takeWhile (!endsAuthority ·)
  let rest := url.dropWhile (!endsAuthority ·)
  if authority.isEmpty then none
  else
    let authority := match splitLast '@' authority with
      | some (_, host) => host
      | none => authority
    match authority with
    | '[' :: literal =>
      if ']' ∈ literal then some (literal.takeWhile (· ≠ ']'), rest) else none
    | _ =>
      let host := authority.takeWhile (· ≠ ':')
      if host.isEmpty then none else some (host, rest)

def commonSubdomainLabels : List String :=
  ["www", "m", "amp", "api", "cdn", "static", "assets", "img", "images", "media", "files",
    "login", "auth", "sso", "id", "account", "accounts",
    "app", "apps", "dashboard", "admin", "portal", "console",
    "status", "support", "help", "docs", "blog",
    "dev", "staging", "stage", "test", "qa", "uat", "beta", "alpha", "preview", "demo", "sandbox",
    "uploads", "download", "storage", "origin", "edge", "cache",
    "mail", "email", "smtp", "mx", "webmail",
    "graphql", "rpc", "ws"]

def isCommonSubdomainLabel (lbl : List Char) : Bool :=
  !lbl.isEmpty && decide (String.ofList (toAsciiLowercase lbl) ∈ commonSubdomainLabels)

def isCommonCcSld (sld : List Char) : Bool :=
  decide (String.ofList (toAsciiLowercase sld) ∈
    ["co", "ac", "go", "or", "ne", "ed", "gr", "lg", "ad",
      "com", "net", "org", "gov", "edu", "mil", "nic", "sch", "gob", "gouv"])

def baseDomainFromHost (host : List Char) : List Char :=
  let h := trimEndMatches '.' host
  let h := (stripPrefix? h "www.".toList).getD h
  let h := (stripPrefix? h "m.".toList).getD h
  match splitLast '.' h with
  | none => h
  | some (front, tld) =>
    match splitLast '.' front with
    | none => h
    | some (left, sld) =>
      let short := sld ++ '.' :: tld
      let (left, base) :=
        if utf8Len tld = 2 ∧ isCommonCcSld sld then
          match splitLast '.' left with
          | some (left', label) => (left', label ++ '.' :: short)
          | none => (left, short)
        else (left, short)
      let lbl := match splitLast '.' left with
        | some (_, lbl) => lbl
        | none => left
      if !lbl.isEmpty && !isCommonSubdomainLabel lbl then lbl ++ '.' :: base else base

end NetworkUtils

end SpiderChrome
