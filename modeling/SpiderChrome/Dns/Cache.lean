import SpiderChrome.Cdp.Page
import SpiderChrome.Library.Separator
import SpiderChrome.Library.Table

/-!
# The DNS cache

The map of `dns.rs` from `host:port` to the addresses that a lookup has found, and what the module does to it. Each operation on the map is one step of whoever takes it: a lock is held for one operation and never for two.
-/

namespace SpiderChrome

namespace Dns

def ttl : Duration := 30000000000
def reapAt : Nat := 256
def hardCap : Nat := 1024

inductive IpAddr where
  | v4 (bits : BitVec 32)
  | v6 (bits : BitVec 128)
deriving DecidableEq

structure SocketAddr where
  ip : IpAddr
  port : UInt16
deriving DecidableEq

/-- The addresses that a lookup has found, in an allocation that is shared from then on. `maker` is the call of `resolve` whose lookup it was; no function reads it. -/
structure Arc where
  maker : Nat
  addrs : List SocketAddr
deriving DecidableEq

structure Entry where
  addrs : Arc
  storedAt : Instant

/-- `at.elapsed()`. -/
def Entry.elapsed (e : Entry) (now : Instant) : Duration := now - e.storedAt

inductive Error where
  | io (error : String)
  | msg (message : String)
deriving DecidableEq

def key (host : String) (port : UInt16) : String := host ++ ":" ++ toString port.toNat

def fresh (cache : Table String Entry) (now : Instant) (k : String) : Option Arc :=
  match cache.get k with
  | some e => if e.elapsed now ≤ ttl then some e.addrs else none
  | none => none

def invalidate (cache : Table String Entry) (host : String) (port : UInt16) : Table String Entry :=
  cache.remove (key host port)

/-- What becomes of the answer of the resolver. -/
def lookup (host : String) (port : UInt16) : Except String (List SocketAddr) → Except Error (List SocketAddr)
  | .error error => .error (.io error)
  | .ok [] => .error (.msg s!"dns: no addresses for {host}:{port}")
  | .ok addrs => .ok addrs

/-! ### The three operations of `store` -/

def reap (cache : Table String Entry) (now : Instant) : Table String Entry :=
  if reapAt ≤ cache.size then cache.retain fun _ e => e.elapsed now ≤ ttl else cache

def hasRoom (cache : Table String Entry) : Bool := cache.size < hardCap

def insert (cache : Table String Entry) (now : Instant) (k : String) (addrs : Arc) : Table String Entry :=
  cache.set k ⟨addrs, now⟩

/-- `store` where nobody comes in between. -/
def store (cache : Table String Entry) (now : Instant) (k : String) (addrs : Arc) : Table String Entry :=
  if hasRoom (reap cache now) then insert (reap cache now) now k addrs else reap cache now

/-! ### Keys -/

theorem marked_colon : Separator.MarkedBy ':' ":".toList := ⟨[], rfl, List.not_mem_nil⟩

theorem not_occurs_port (port : Nat) : ¬ Separator.Occurs ":" (toString port) := by
  rintro ⟨front, back, heq⟩
  have hmem : ':' ∈ (toString port).toList := by
    rw [heq]
    simp
  have hdigit : ':'.isDigit = true := by
    refine Nat.isDigit_of_mem_toDigits (b := 10) (n := port) (by decide) (by decide) ?_
    simpa [Nat.repr] using hmem
  cases hdigit

theorem toString_inj {m n : Nat} (h : toString m = toString n) : m = n := by
  have hdigits : Nat.toDigits 10 m = Nat.toDigits 10 n := by
    simpa [Nat.repr] using congrArg String.toList h
  have hvalue := congrArg (fun digits => Nat.ofDigitChars 10 digits 0) hdigits
  rwa [Nat.ofDigitChars_toDigits (by decide) (by decide),
    Nat.ofDigitChars_toDigits (by decide) (by decide)] at hvalue

/-- The last colon of a key is before the port. -/
theorem key_inj {host host' : String} {port port' : UInt16} (h : key host port = key host' port') :
    host = host' ∧ port = port' := by
  obtain ⟨hhost, hport⟩ | ⟨r, -, hport⟩ | ⟨r, -, hport⟩ := Separator.text_cases_self marked_colon h
  · exact ⟨hhost, UInt16.toNat_inj.1 (toString_inj hport)⟩
  · exact absurd ⟨r, _, hport⟩ (not_occurs_port port.toNat)
  · exact absurd ⟨r, _, hport⟩ (not_occurs_port port'.toNat)

/-! ### What the operations do -/

theorem fresh_eq_some {cache : Table String Entry} {now : Instant} {k : String} {addrs : Arc}
    (h : fresh cache now k = some addrs) :
    ∃ e, cache.get k = some e ∧ e.addrs = addrs ∧ e.elapsed now ≤ ttl := by
  unfold fresh at h
  split at h
  · rename_i e hget
    split at h
    · rename_i hyoung
      exact ⟨e, hget, Option.some.inj h, hyoung⟩
    · cases h
  · cases h

theorem reap_sub (cache : Table String Entry) (now : Instant) : (reap cache now).Sub cache := by
  intro k e hget
  unfold reap at hget
  split at hget
  · rw [Table.get_retain, Option.filter_eq_some_iff] at hget
    exact hget.1
  · exact hget

end Dns

end SpiderChrome
