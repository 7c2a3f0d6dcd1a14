import Mathlib.Order.Nat
import SpiderChrome.Dns.Cache
import SpiderChrome.Library.Run

/-!
# Calls of `resolve`

Any number of calls of `resolve` run at once, and each operation of one of them on the cache is a step of its own, with calls of `invalidate` and the time in between. A lookup is under way while others go on, and what it finds is stored whatever has become of the endpoint meanwhile; a call that has found room inserts after others have. `cache_law` says that this is all that can go wrong, and `guard_needed` that it does.
-/

namespace SpiderChrome

namespace Dns

/-- A lookup that has come to an end. `asked` counts the invalidations of its endpoint when it started. -/
structure Lookup where
  asked : Nat
  addrs : Arc
deriving DecidableEq

/-- How far a call of `resolve` has come: it has found nothing fresh, waits for its lookup, has reaped the cache, or has seen that there is room. -/
inductive Phase where
  | called
  | missed
  | looking (asked : Nat)
  | found (lookup : Lookup)
  | reaped (lookup : Lookup)
  | fits (lookup : Lookup)
  | served (addrs : Arc) (now : Instant)
  | resolved (lookup : Lookup) (stored : Option Instant)
  | failed (error : Error)
deriving DecidableEq

/-- A call of `resolve`. `called` counts the invalidations of its endpoint when it started. -/
structure Call where
  host : String
  port : UInt16
  called : Nat
  phase : Phase
deriving DecidableEq

structure World where
  cache : Table String Entry
  now : Instant
  calls : Table Nat Call
  /-- The calls of `invalidate` so far. -/
  invalidated : List (String × UInt16)

inductive Input where
  | call (id : Nat) (host : String) (port : UInt16)
  /-- The call takes its next step. -/
  | advance (id : Nat)
  /-- The resolver of the system answers the lookup of the call. -/
  | answer (id : Nat) (answer : Except String (List SocketAddr))
  | invalidate (host : String) (port : UInt16)
  | pass (time : Duration)

def Call.key (call : Call) : String := Dns.key call.host call.port

namespace World

def new : World := ⟨∅, 0, ∅, []⟩

def invalidations (w : World) (host : String) (port : UInt16) : Nat := w.invalidated.count (host, port)

def put (w : World) (id : Nat) (call : Call) (phase : Phase) : World :=
  { w with calls := w.calls.set id { call with phase := phase } }

/-- The next step of a call that does not wait. -/
def advance (w : World) (id : Nat) (call : Call) : World :=
  match call.phase with
  | .called =>
    match fresh w.cache w.now call.key with
    | some addrs => w.put id call (.served addrs w.now)
    | none => w.put id call .missed
  | .missed => w.put id call (.looking (w.invalidations call.host call.port))
  | .found lookup => { w with cache := reap w.cache w.now }.put id call (.reaped lookup)
  | .reaped lookup =>
    if hasRoom w.cache then w.put id call (.fits lookup) else w.put id call (.resolved lookup none)
  | .fits lookup =>
    { w with cache := insert w.cache w.now call.key lookup.addrs }.put id call
      (.resolved lookup (some w.now))
  | _ => w

/-- The lookup of a call returns. -/
def answer (w : World) (id : Nat) (call : Call) (answer : Except String (List SocketAddr)) : World :=
  match call.phase with
  | .looking asked =>
    match lookup call.host call.port answer with
    | .ok addrs => w.put id call (.found ⟨asked, ⟨id, addrs⟩⟩)
    | .error error => w.put id call (.failed error)
  | _ => w

def step (w : World) : Input → World
  | .call id host port =>
    match w.calls.get id with
    | some _ => w
    | none => { w with calls := w.calls.set id ⟨host, port, w.invalidations host port, .called⟩ }
  | .advance id =>
    match w.calls.get id with
    | some call => w.advance id call
    | none => w
  | .answer id answer =>
    match w.calls.get id with
    | some call => w.answer id call answer
    | none => w
  | .invalidate host port =>
    { w with
      cache := invalidate w.cache host port
      invalidated := w.invalidated ++ [(host, port)] }
  | .pass time => { w with now := w.now + time }

/-- The three steps of a call that has found addresses are `store` when nobody comes in between. -/
theorem advance_store {w : World} {id : Nat} {call : Call} {lookup : Lookup}
    (hget : w.calls.get id = some call) (hphase : call.phase = .found lookup) :
    (Run.final step w [.advance id, .advance id, .advance id]).cache =
      store w.cache w.now call.key lookup.addrs := by
  unfold store
  split
  · rename_i hroom
    simp [Run.final, step, advance, put, hget, hphase, hroom, Call.key]
  · rename_i hroom
    simp [Run.final, step, advance, put, hget, hphase, hroom]

/-! ### What the cache is for -/

/-- The addresses were found by the lookup of a call for the endpoint that started after so many invalidations, and that call stored them then. -/
def Sourced (w : World) (addrs : Arc) (host : String) (port : UInt16) (stored : Instant) (asked : Nat) :
    Prop :=
  ∃ source, w.calls.get addrs.maker = some source ∧ source.host = host ∧ source.port = port ∧
    source.phase = .resolved ⟨asked, addrs⟩ (some stored)

/-- Whoever is served from the cache is given what a lookup for the same endpoint has found, which was stored within the time to live and started after every invalidation that was over when the call started; whoever is not has looked up by itself; and the cache is within its cap. -/
structure Kept (w : World) : Prop where
  served : ∀ id call addrs now, w.calls.get id = some call → call.phase = .served addrs now →
    ∃ stored asked, w.Sourced addrs call.host call.port stored asked ∧
      stored ≤ now ∧ now ≤ stored + ttl ∧ call.called ≤ asked
  resolved : ∀ id call lookup stored, w.calls.get id = some call → call.phase = .resolved lookup stored →
    lookup.addrs.maker = id ∧ call.called ≤ lookup.asked
  bounded : w.cache.size ≤ hardCap

/-- The call that inserts what it has found in this step, if one does. -/
def insertion? (w : World) : Input → Option (Call × Lookup)
  | .advance id =>
    match w.calls.get id with
    | some ⟨host, port, called, .fits lookup⟩ => some (⟨host, port, called, .fits lookup⟩, lookup)
    | _ => none
  | _ => none

/-- What is inserted has not been invalidated since its lookup started, and there still is room for it or it replaces an entry. -/
def Guard (w : World) (input : Input) : Prop :=
  ∀ inserted ∈ w.insertion? input,
    w.invalidations inserted.1.host inserted.1.port = inserted.2.asked ∧
    (w.cache.size < hardCap ∨ w.cache.contains inserted.1.key = true)

instance (w : World) (input : Input) : Decidable (w.Guard input) :=
  inferInstanceAs (Decidable (∀ inserted ∈ w.insertion? input, _ ∧ (_ ∨ _)))

/-! ### What holds between the steps -/

/-- What is known of a call by its phase, with the invalidations of its endpoint so far. -/
def Known (id called sofar : Nat) : Phase → Prop
  | .looking asked => called ≤ asked ∧ asked ≤ sofar
  | .found lookup | .reaped lookup | .fits lookup | .resolved lookup _ =>
    lookup.addrs.maker = id ∧ called ≤ lookup.asked ∧ lookup.asked ≤ sofar
  | _ => True

structure Sound (w : World) : Prop where
  served : ∀ id call addrs now, w.calls.get id = some call → call.phase = .served addrs now →
    ∃ stored asked, w.Sourced addrs call.host call.port stored asked ∧
      stored ≤ now ∧ now ≤ stored + ttl ∧ call.called ≤ asked
  known : ∀ id call, w.calls.get id = some call →
    call.called ≤ w.invalidations call.host call.port ∧
    Known id call.called (w.invalidations call.host call.port) call.phase
  /-- No entry has been invalidated since its lookup started. -/
  entries : ∀ k e, w.cache.get k = some e → ∃ host port asked, k = key host port ∧
    w.Sourced e.addrs host port e.storedAt asked ∧ e.storedAt ≤ w.now ∧ w.invalidations host port ≤ asked
  bounded : w.cache.size ≤ hardCap

variable {w : World} {id : Nat} {call : Call} {input : Input}

theorem Sound.kept (h : w.Sound) : w.Kept where
  served := h.served
  resolved := by
    intro id call lookup stored hget hphase
    have hknown := (h.known id call hget).2
    rw [hphase] at hknown
    exact ⟨hknown.1, hknown.2.1⟩
  bounded := h.bounded

theorem sound_new : new.Sound where
  served := nofun
  known := nofun
  entries := nofun
  bounded := Nat.zero_le _

/-- Whether a call has returned with addresses of its own. -/
def Phase.isResolved : Phase → Bool
  | .resolved _ _ => true
  | _ => false

/-- A source stays one as long as its call does not change. -/
theorem Sourced.set {addrs : Arc} {host : String} {port : UInt16} {stored : Instant} {asked : Nat}
    (h : w.Sourced addrs host port stored asked) (id : Nat)
    (hopen : ∀ call, w.calls.get id = some call → Phase.isResolved call.phase = false) (call' : Call)
    (w' : World) (hcalls : w'.calls = w.calls.set id call') : w'.Sourced addrs host port stored asked := by
  obtain ⟨source, hget, hhost, hport, hphase⟩ := h
  have hne : addrs.maker ≠ id := by
    intro heq
    have hnot := hopen source (heq ▸ hget)
    rw [hphase] at hnot
    cases hnot
  refine ⟨source, ?_, hhost, hport, hphase⟩
  rw [hcalls, Table.get_set_of_ne _ _ hne, hget]

/-- A step of one call: what it needs to know of its new phase and of the cache that it leaves. -/
theorem Sound.put (h : w.Sound) (hget : w.calls.get id = some call)
    (hopen : Phase.isResolved call.phase = false) {phase : Phase} {cache : Table String Entry}
    (hknown : Known id call.called (w.invalidations call.host call.port) phase)
    (hserved : ∀ addrs now, phase = .served addrs now →
      ∃ stored asked, w.Sourced addrs call.host call.port stored asked ∧
        stored ≤ now ∧ now ≤ stored + ttl ∧ call.called ≤ asked)
    (hcache : ∀ k e, cache.get k = some e → w.cache.get k = some e ∨ ∃ asked,
      phase = .resolved ⟨asked, e.addrs⟩ (some e.storedAt) ∧ e.addrs.maker = id ∧ k = call.key ∧
      e.storedAt ≤ w.now ∧ w.invalidations call.host call.port ≤ asked)
    (hsize : cache.size ≤ hardCap) : ({ w with cache := cache }.put id call phase).Sound := by
  have hstays : ∀ {addrs host port stored asked}, w.Sourced addrs host port stored asked →
      ({ w with cache := cache }.put id call phase).Sourced addrs host port stored asked := by
    intro addrs host port stored asked hsourced
    refine hsourced.set id (fun call' hget' => ?_) { call with phase := phase } _ rfl
    rw [hget] at hget'
    rwa [← Option.some.inj hget']
  have hcalls : ∀ id' call', ({ w with cache := cache }.put id call phase).calls.get id' = some call' →
      id' = id ∧ call' = { call with phase := phase } ∨ w.calls.get id' = some call' := by
    intro id' call' hget'
    rw [World.put, Table.get_set] at hget'
    split at hget'
    · rename_i heq
      exact .inl ⟨heq, (Option.some.inj hget').symm⟩
    · exact .inr hget'
  constructor
  · intro id' call' addrs now hget' hphase
    obtain ⟨rfl, rfl⟩ | hold := hcalls id' call' hget'
    · obtain ⟨stored, asked, hsourced, hrest⟩ := hserved addrs now hphase
      exact ⟨stored, asked, hstays hsourced, hrest⟩
    · obtain ⟨stored, asked, hsourced, hrest⟩ := h.served id' call' addrs now hold hphase
      exact ⟨stored, asked, hstays hsourced, hrest⟩
  · intro id' call' hget'
    obtain ⟨rfl, rfl⟩ | hold := hcalls id' call' hget'
    · exact ⟨(h.known id' call hget).1, hknown⟩
    · exact h.known id' call' hold
  · intro k e hentry
    obtain hold | ⟨asked, hphase, hmaker, hkey, hstored, hasked⟩ := hcache k e hentry
    · obtain ⟨host, port, asked, hkey, hsourced, hrest⟩ := h.entries k e hold
      exact ⟨host, port, asked, hkey, hstays hsourced, hrest⟩
    · refine ⟨call.host, call.port, asked, hkey, ⟨{ call with phase := phase }, ?_, rfl, rfl, hphase⟩,
        hstored, hasked⟩
      rw [hmaker, World.put, Table.get_set_self]
  · exact hsize

/-- A step that leaves the cache alone and serves nobody. -/
theorem Sound.moves (h : w.Sound) (hget : w.calls.get id = some call)
    (hopen : Phase.isResolved call.phase = false) {phase : Phase}
    (hknown : Known id call.called (w.invalidations call.host call.port) phase)
    (hnot : ∀ addrs now, phase ≠ .served addrs now) : (w.put id call phase).Sound :=
  h.put hget hopen hknown (fun addrs now heq => absurd heq (hnot addrs now)) (fun _ _ hold => .inl hold)
    h.bounded

/-- What is fresh in the cache is what the caller may be given. -/
theorem Sound.serves (h : w.Sound) (hget : w.calls.get id = some call)
    (hphase : call.phase = .called) {addrs : Arc} (hfresh : fresh w.cache w.now call.key = some addrs) :
    (w.put id call (.served addrs w.now)).Sound := by
  obtain ⟨e, hentry, rfl, hyoung⟩ := fresh_eq_some hfresh
  obtain ⟨host, port, asked, hkey, hsourced, hstored, hasked⟩ := h.entries _ e hentry
  obtain ⟨rfl, rfl⟩ := key_inj hkey
  have hcalled := (h.known id call hget).1
  refine h.put hget (by rw [hphase]; rfl) trivial (fun addrs now heq => ?_) (fun _ _ hold => .inl hold)
    h.bounded
  obtain ⟨rfl, rfl⟩ := Phase.served.inj heq
  have hage : w.now ≤ e.storedAt + ttl := Nat.sub_le_iff_le_add'.1 hyoung
  exact ⟨e.storedAt, asked, hsourced, hstored, hage, hcalled.trans hasked⟩

theorem size_insert_le {cache : Table String Entry} {k : String} (now : Instant) (addrs : Arc)
    (hsize : cache.size ≤ hardCap) (hroom : cache.size < hardCap ∨ cache.contains k = true) :
    (insert cache now k addrs).size ≤ hardCap := by
  obtain hroom | hroom := hroom
  · have hle := cache.size_set_le k ⟨addrs, now⟩
    exact hle.trans hroom
  · obtain ⟨e, he⟩ := Option.isSome_iff_exists.1 hroom
    rw [insert, Table.size_set_of_get he]
    exact hsize

/-- An insertion under the guard. -/
theorem Sound.inserts (h : w.Sound) (hget : w.calls.get id = some call) {lookup : Lookup}
    (hphase : call.phase = .fits lookup) (hfresh : w.invalidations call.host call.port = lookup.asked)
    (hroom : w.cache.size < hardCap ∨ w.cache.contains call.key = true) :
    ({ w with cache := insert w.cache w.now call.key lookup.addrs }.put id call
      (.resolved lookup (some w.now))).Sound := by
  have hknown := (h.known id call hget).2
  rw [hphase] at hknown
  refine h.put hget (by rw [hphase]; rfl) hknown nofun (fun k e hentry => ?_)
    (size_insert_le w.now lookup.addrs h.bounded hroom)
  rw [insert, Table.get_set] at hentry
  split at hentry
  · rename_i hkey
    obtain rfl := Option.some.inj hentry
    exact .inr ⟨lookup.asked, rfl, hknown.1, hkey, Nat.le_refl _, hfresh.le⟩
  · exact .inl hentry

theorem Sound.reaps (h : w.Sound) (hget : w.calls.get id = some call) {lookup : Lookup}
    (hphase : call.phase = .found lookup) :
    ({ w with cache := reap w.cache w.now }.put id call (.reaped lookup)).Sound := by
  have hknown := (h.known id call hget).2
  have hsub := reap_sub w.cache w.now
  rw [hphase] at hknown
  exact h.put hget (by rw [hphase]; rfl) hknown nofun (fun k e hentry => .inl (hsub k e hentry))
    (hsub.size_le.trans h.bounded)

theorem insertion?_of_fits (hget : w.calls.get id = some call) {lookup : Lookup}
    (hphase : call.phase = .fits lookup) : w.insertion? (.advance id) = some (call, lookup) := by
  obtain ⟨host, port, called, phase⟩ := call
  subst hphase
  simp only [insertion?, hget]

theorem Sound.advance (h : w.Sound) (hget : w.calls.get id = some call)
    (hguard : w.Guard (.advance id)) : (w.advance id call).Sound := by
  have hknown := h.known id call hget
  unfold World.advance
  cases hphase : call.phase with
  | called =>
    dsimp only
    split
    · rename_i addrs hfresh
      exact h.serves hget hphase hfresh
    · exact h.moves hget (by rw [hphase]; rfl) trivial nofun
  | missed => exact h.moves hget (by rw [hphase]; rfl) ⟨hknown.1, Nat.le_refl _⟩ nofun
  | found lookup => exact h.reaps hget hphase
  | reaped lookup =>
    rw [hphase] at hknown
    dsimp only
    split
    · exact h.moves hget (by rw [hphase]; rfl) hknown.2 nofun
    · exact h.moves hget (by rw [hphase]; rfl) hknown.2 nofun
  | fits lookup =>
    obtain ⟨hfresh, hroom⟩ := hguard (call, lookup) (insertion?_of_fits hget hphase)
    exact h.inserts hget hphase hfresh hroom
  | looking asked | served addrs now | resolved lookup stored | failed error => exact h

theorem Sound.answer (h : w.Sound) (hget : w.calls.get id = some call)
    (answer : Except String (List SocketAddr)) : (w.answer id call answer).Sound := by
  have hknown := h.known id call hget
  unfold World.answer
  cases hphase : call.phase with
  | looking asked =>
    rw [hphase] at hknown
    dsimp only
    split
    · exact h.moves hget (by rw [hphase]; rfl) ⟨rfl, hknown.2⟩ nofun
    · exact h.moves hget (by rw [hphase]; rfl) trivial nofun
  | _ => exact h

/-- A new call starts after all invalidations so far. -/
theorem Sound.opens (h : w.Sound) (hnew : w.calls.get id = none) (host : String) (port : UInt16) :
    { w with calls := w.calls.set id ⟨host, port, w.invalidations host port, .called⟩ }.Sound := by
  have hstays : ∀ {addrs host' port' stored asked}, w.Sourced addrs host' port' stored asked →
      { w with calls := w.calls.set id ⟨host, port, w.invalidations host port, .called⟩ }.Sourced
        addrs host' port' stored asked := by
    intro addrs host' port' stored asked hsourced
    refine hsourced.set id (fun call hget => ?_) _ _ rfl
    rw [hnew] at hget
    cases hget
  constructor
  · intro id' call addrs now hget hphase
    rw [Table.get_set] at hget
    split at hget
    · obtain rfl := Option.some.inj hget
      cases hphase
    · obtain ⟨stored, asked, hsourced, hrest⟩ := h.served id' call addrs now hget hphase
      exact ⟨stored, asked, hstays hsourced, hrest⟩
  · intro id' call hget
    rw [Table.get_set] at hget
    split at hget
    · obtain rfl := Option.some.inj hget
      exact ⟨Nat.le_refl _, trivial⟩
    · exact h.known id' call hget
  · intro k e hentry
    obtain ⟨host', port', asked, hkey, hsourced, hrest⟩ := h.entries k e hentry
    exact ⟨host', port', asked, hkey, hstays hsourced, hrest⟩
  · exact h.bounded

theorem Known.mono {called sofar later : Nat} {phase : Phase} (h : Known id called sofar phase)
    (hle : sofar ≤ later) : Known id called later phase := by
  cases phase with
  | looking asked => exact ⟨h.1, h.2.trans hle⟩
  | found lookup | reaped lookup | fits lookup | resolved lookup stored => exact ⟨h.1, h.2.1, h.2.2.trans hle⟩
  | _ => trivial

/-- Whatever an invalidation counts against is no longer in the cache. -/
theorem Sound.invalidate (h : w.Sound) (host : String) (port : UInt16) :
    (w.step (.invalidate host port)).Sound := by
  have hcount : ∀ host' port', (w.step (.invalidate host port)).invalidations host' port' =
      w.invalidations host' port' + [(host, port)].count (host', port') :=
    fun host' port' => List.count_append
  have hsub := Table.remove_sub w.cache (key host port)
  constructor
  · exact h.served
  · intro id call hget
    obtain ⟨hcalled, hknown⟩ := h.known id call hget
    have hle : w.invalidations call.host call.port ≤
        (w.step (.invalidate host port)).invalidations call.host call.port := by
      rw [hcount]
      exact Nat.le_add_right _ _
    exact ⟨hcalled.trans hle, hknown.mono hle⟩
  · intro k e hentry
    obtain ⟨host', port', asked, hkey, hsourced, hstored, hasked⟩ := h.entries k e (hsub k e hentry)
    refine ⟨host', port', asked, hkey, hsourced, hstored, ?_⟩
    have hother : (host, port) ≠ (host', port') := by
      intro heq
      obtain ⟨rfl, rfl⟩ := Prod.mk.inj heq
      rw [hkey] at hentry
      exact absurd (Table.get_remove_self w.cache (key host port)) (by simp [step, Dns.invalidate] at hentry)
    rw [hcount, List.count_singleton, if_neg (by simpa using hother)]
    exact hasked
  · exact hsub.size_le.trans h.bounded

/-- Time changes nothing but the age of the entries. -/
theorem Sound.pass (h : w.Sound) (time : Duration) : (w.step (.pass time)).Sound where
  served := h.served
  known := h.known
  entries := by
    intro k e hentry
    obtain ⟨host, port, asked, hkey, hsourced, hstored, hasked⟩ := h.entries k e hentry
    exact ⟨host, port, asked, hkey, hsourced, Nat.le_add_right_of_le hstored, hasked⟩
  bounded := h.bounded

theorem Sound.step (h : w.Sound) (hguard : w.Guard input) : (w.step input).Sound := by
  cases input with
  | call id host port =>
    cases hget : w.calls.get id with
    | some call => simpa only [World.step, hget] using h
    | none => simpa only [World.step, hget] using h.opens hget host port
  | advance id =>
    cases hget : w.calls.get id with
    | some call => simpa only [World.step, hget] using h.advance hget hguard
    | none => simpa only [World.step, hget] using h
  | answer id answer =>
    cases hget : w.calls.get id with
    | some call => simpa only [World.step, hget] using h.answer hget answer
    | none => simpa only [World.step, hget] using h
  | invalidate host port => exact h.invalidate host port
  | pass time => exact h.pass time

/-! ### Runs -/

/-- Where everything that is inserted is still valid and there still is room for it, the cache is fresh and within its cap at every moment. -/
theorem cache_law (inputs : List Input) (h : Run.Allowed step Guard new inputs) :
    Run.Always step Kept new inputs :=
  (Run.always_of_allowed (fun _ _ hsound hguard => hsound.step hguard) sound_new h).mono
    fun _ hsound => hsound.kept

/-! ### The guard is needed -/

/-- An insertion is the step of a call that has found room. -/
theorem insertion?_eq_some {lookup : Lookup} (h : w.insertion? input = some (call, lookup)) :
    ∃ id, input = .advance id ∧ w.calls.get id = some call ∧ call.phase = .fits lookup := by
  unfold insertion? at h
  split at h
  · rename_i id
    split at h
    · rename_i hget
      obtain ⟨rfl, rfl⟩ := Prod.mk.inj (Option.some.inj h)
      exact ⟨id, rfl, hget, rfl⟩
    · cases h
  · cases h

theorem exists_unused (calls : Table Nat Call) : ∃ id, calls.get id = none := by
  have hbound : ∀ ids : List Nat, ∃ bound, ∀ id ∈ ids, id < bound := by
    intro ids
    induction ids with
    | nil => exact ⟨0, nofun⟩
    | cons id rest ih =>
      obtain ⟨bound, hbound⟩ := ih
      refine ⟨bound + id + 1, List.forall_mem_cons.2 ⟨by omega, fun other hother => ?_⟩⟩
      have hless := hbound other hother
      omega
  obtain ⟨bound, hbound⟩ := hbound calls.keys
  refine ⟨bound, Option.eq_none_iff_forall_ne_some.2 fun call hget => ?_⟩
  exact absurd (hbound bound ((calls.mem_keys bound).2 ⟨call, hget⟩)) (Nat.lt_irrefl bound)

/-- Somebody calls `resolve` and looks into the cache at once. -/
def probe (w : World) (id : Nat) (host : String) (port : UInt16) : World :=
  Run.final step w [.call id host port, .advance id]

theorem probe_eq (hnew : w.calls.get id = none) (host : String) (port : UInt16) :
    w.probe id host port =
      let opened := { w with calls := w.calls.set id ⟨host, port, w.invalidations host port, .called⟩ }
      opened.advance id ⟨host, port, w.invalidations host port, .called⟩ := by
  simp only [probe, Run.final, List.foldl_cons, List.foldl_nil, step, hnew, Table.get_set_self]

theorem Sound.probe (h : w.Sound) (hnew : w.calls.get id = none) (host : String) (port : UInt16) :
    (w.probe id host port).Sound := by
  rw [probe_eq hnew]
  refine (h.opens hnew host port).advance (Table.get_set_self _ _ _) fun inserted hinserted => ?_
  obtain ⟨_, hinput, hget, hphase⟩ := insertion?_eq_some (Option.mem_def.1 hinserted)
  obtain rfl := Input.advance.inj hinput
  rw [Table.get_set_self] at hget
  rw [← Option.some.inj hget] at hphase
  cases hphase

/-- A fresh entry is served to whoever asks. -/
theorem probe_fresh (hnew : w.calls.get id = none) {host : String} {port : UInt16} {addrs : Arc}
    (hfresh : fresh w.cache w.now (key host port) = some addrs) :
    (w.probe id host port).calls.get id =
      some ⟨host, port, w.invalidations host port, .served addrs w.now⟩ := by
  rw [probe_eq hnew]
  simp only [World.advance, Call.key, hfresh, put, Table.get_set_self]

theorem probe_cache (hnew : w.calls.get id = none) (host : String) (port : UInt16) :
    (w.probe id host port).cache = w.cache := by
  rw [probe_eq hnew]
  simp only [World.advance]
  split
  · rfl
  · rfl

theorem probe_get (hnew : w.calls.get id = none) {other : Nat} (hother : other ≠ id) (host : String)
    (port : UInt16) : (w.probe id host port).calls.get other = w.calls.get other := by
  rw [probe_eq hnew]
  simp only [World.advance]
  split
  · simp only [put, Table.get_set_of_ne _ _ hother]
  · simp only [put, Table.get_set_of_ne _ _ hother]

/-- The guard is what it takes: after a step that does not meet it there are too many entries, or the next caller is served what has been invalidated. -/
theorem guard_iff (h : w.Sound) : w.Guard input ↔
    ∀ id host port, (w.step input).calls.get id = none → ((w.step input).probe id host port).Kept := by
  constructor
  · intro hguard id host port hnew
    exact ((h.step hguard).probe hnew host port).kept
  · intro hprobes inserted hinserted
    obtain ⟨call, lookup⟩ := inserted
    obtain ⟨id, rfl, hget, hphase⟩ := insertion?_eq_some (Option.mem_def.1 hinserted)
    have hknown := (h.known id call hget).2
    rw [hphase] at hknown
    obtain ⟨hmaker, -, hasked⟩ := hknown
    have hstep : w.step (.advance id) =
        { w with cache := insert w.cache w.now call.key lookup.addrs }.put id call
          (.resolved lookup (some w.now)) := by
      simp only [World.step, hget, World.advance, hphase]
    obtain ⟨other, hnew⟩ := exists_unused (w.step (.advance id)).calls
    have hkept := hprobes other call.host call.port hnew
    have hself : (w.step (.advance id)).calls.get id =
        some { call with phase := .resolved lookup (some w.now) } := by
      rw [hstep, put, Table.get_set_self]
    have hne : id ≠ other := by
      rintro rfl
      rw [hself] at hnew
      cases hnew
    have hfresh : fresh (w.step (.advance id)).cache (w.step (.advance id)).now
        (key call.host call.port) = some lookup.addrs := by
      simp [hstep, put, insert, fresh, Call.key, Entry.elapsed]
    constructor
    · obtain ⟨stored, asked, ⟨source, hsource, -, -, hresolved⟩, -, -, hcalled⟩ :=
        hkept.served other _ _ _ (probe_fresh hnew hfresh) rfl
      rw [hmaker, probe_get hnew hne, hself] at hsource
      rw [← Option.some.inj hsource] at hresolved
      obtain ⟨hlookup, -⟩ := Phase.resolved.inj hresolved
      have hinvalidations : (w.step (.advance id)).invalidations call.host call.port =
          w.invalidations call.host call.port := by
        rw [hstep]
        rfl
      rw [hinvalidations] at hcalled
      rw [hlookup] at hasked ⊢
      exact Nat.le_antisymm hcalled hasked
    · have hsize := hkept.bounded
      rw [probe_cache hnew, hstep] at hsize
      cases hcontains : w.cache.contains call.key with
      | true => exact .inr rfl
      | false =>
        have hnone : w.cache.get call.key = none := by simpa [Table.contains] using hcontains
        refine .inl ?_
        rw [put, insert, Table.size_set_of_get_eq_none hnone] at hsize
        exact hsize

/-! ### Two runs -/

/-- The steps of a call that has to look up, with what it is answered. -/
def looksUp (id : Nat) (host : String) (addrs : List SocketAddr) : List Input :=
  [.call id host 9222, .advance id, .advance id, .answer id (.ok addrs)]

def stores (id : Nat) : List Input := [.advance id, .advance id, .advance id]

def oldAddr : SocketAddr := ⟨.v4 0x0a000001, 9222⟩
def newAddr : SocketAddr := ⟨.v4 0x0a000002, 9222⟩

/-- The first call stores what it finds, the second is served that, and the third looks up again after an invalidation. -/
def healing : List Input :=
  looksUp 0 "chrome" [oldAddr] ++ stores 0 ++ [.pass 1000000000, .call 1 "chrome" 9222, .advance 1] ++
    [.invalidate "chrome" 9222] ++ looksUp 2 "chrome" [newAddr] ++ stores 2

theorem cache_law_healing : Run.Always step Kept new healing := cache_law healing (by decide +kernel)

/-- The endpoint is invalidated while the first call looks it up, and the second call starts after that. -/
def pinned : List Input :=
  looksUp 0 "chrome" [oldAddr] ++ [.invalidate "chrome" 9222] ++ stores 0 ++ [.call 1 "chrome" 9222, .advance 1]

theorem not_kept_pinned : ¬ Run.Always step Kept new pinned := by
  intro h
  have hserved : (Run.final step new pinned).calls.get 1 =
      some ⟨"chrome", 9222, 1, .served ⟨0, [oldAddr]⟩ 0⟩ := by decide +kernel
  have hfound : (Run.final step new pinned).calls.get 0 =
      some ⟨"chrome", 9222, 0, .resolved ⟨0, ⟨0, [oldAddr]⟩⟩ (some 0)⟩ := by decide +kernel
  obtain ⟨stored, asked, ⟨source, hsource, -, -, hphase⟩, -, -, hcalled⟩ := h.last.served 1 _ _ _ hserved rfl
  rw [hfound] at hsource
  rw [← Option.some.inj hsource] at hphase
  obtain ⟨hlookup, -⟩ := Phase.resolved.inj hphase
  obtain ⟨rfl, -⟩ := Lookup.mk.inj hlookup
  cases hcalled

/-! ### Room that several calls have found -/

/-- Calls for different endpoints find that there is room, one after the other, and then insert. -/
def crowd (n : Nat) : List Input :=
  ((List.range n).flatMap fun id => looksUp id (toString id) [oldAddr] ++ [.advance id, .advance id]) ++
    (List.range n).map .advance

/-- So many calls have found room, and so many of them have inserted. -/
structure Crowded (w : World) (found inserted : Nat) : Prop where
  size : w.cache.size = inserted
  absent : ∀ id, inserted ≤ id → w.cache.get (key (toString id) 9222) = none
  fits : ∀ id, inserted ≤ id → id < found →
    w.calls.get id = some ⟨toString id, 9222, 0, .fits ⟨0, ⟨id, [oldAddr]⟩⟩⟩
  unused : ∀ id, found ≤ id → w.calls.get id = none
  quiet : w.invalidated = []

theorem Crowded.finds {n : Nat} (h : w.Crowded n 0) :
    (Run.final step w (looksUp n (toString n) [oldAddr] ++ [.advance n, .advance n])).Crowded (n + 1) 0 := by
  have hnew := h.unused n (Nat.le_refl n)
  have habsent := h.absent n (Nat.zero_le n)
  have hfresh : fresh w.cache w.now (key (toString n) 9222) = none := by rw [fresh, habsent]
  have hreap : reap w.cache w.now = w.cache := by
    rw [reap, h.size]
    rfl
  have hroom : hasRoom w.cache = true := by
    rw [hasRoom, h.size]
    rfl
  have hcount : ∀ calls, { w with calls := calls }.invalidations (toString n) 9222 = 0 := by
    intro calls
    rw [invalidations, h.quiet]
    rfl
  obtain ⟨calls, hcalls, hother⟩ : ∃ calls : Table Nat Call,
      Run.final step w (looksUp n (toString n) [oldAddr] ++ [.advance n, .advance n]) =
        { w with calls := calls } ∧
      ∀ id, calls.get id = if id = n then some ⟨toString n, 9222, 0, .fits ⟨0, ⟨n, [oldAddr]⟩⟩⟩
        else w.calls.get id := by
    simp only [Run.final, looksUp, List.cons_append, List.nil_append, List.foldl_cons, List.foldl_nil, step,
      hnew, Table.get_set_self, advance, answer, put, Call.key, hfresh, lookup, hreap, hroom, hcount,
      if_true]
    refine ⟨_, rfl, fun id => ?_⟩
    simp only [Table.get_set]
    split
    · rfl
    · rfl
  rw [hcalls]
  refine ⟨h.size, h.absent, fun id _ hid => ?_, fun id hid => ?_, h.quiet⟩
  · rw [hother]
    split
    · rename_i heq
      rw [heq]
    · rename_i hne
      exact h.fits id (Nat.zero_le id) (by omega)
  · rw [hother, if_neg (by omega)]
    exact h.unused id (by omega)

theorem Crowded.inserts {n m : Nat} (h : w.Crowded n m) (hm : m < n) :
    (w.step (.advance m)).Crowded n (m + 1) := by
  have hget := h.fits m (Nat.le_refl m) hm
  have hstep : w.step (.advance m) =
      { w with cache := insert w.cache w.now (key (toString m) 9222) ⟨m, [oldAddr]⟩ }.put m
        ⟨toString m, 9222, 0, .fits ⟨0, ⟨m, [oldAddr]⟩⟩⟩ (.resolved ⟨0, ⟨m, [oldAddr]⟩⟩ (some w.now)) := by
    simp only [step, hget, advance, Call.key]
  rw [hstep]
  refine ⟨?_, fun id hid => ?_, fun id hid hless => ?_, fun id hid => ?_, h.quiet⟩
  · rw [put, insert, Table.size_set_of_get_eq_none (h.absent m (Nat.le_refl m)), h.size]
  · have hne : key (toString id) 9222 ≠ key (toString m) 9222 := by
      intro heq
      have hsame := toString_inj (key_inj heq).1
      omega
    rw [put, insert, Table.get_set_of_ne _ _ hne]
    exact h.absent id (by omega)
  · rw [put, Table.get_set_of_ne _ _ (by omega)]
    exact h.fits id (by omega) hless
  · rw [put, Table.get_set_of_ne _ _ (by omega)]
    exact h.unused id hid

/-- The cache grows by every call that has found room, whatever its cap. -/
theorem size_crowd (n : Nat) : (Run.final step new (crowd n)).cache.size = n := by
  have hfound : (Run.final step new ((List.range n).flatMap fun id =>
      looksUp id (toString id) [oldAddr] ++ [.advance id, .advance id])).Crowded n 0 := by
    induction n with
    | zero => exact ⟨rfl, fun _ _ => rfl, fun _ _ hid => absurd hid (Nat.not_lt_zero _), fun _ _ => rfl, rfl⟩
    | succ n ih =>
      rw [List.range_succ, List.flatMap_append, Run.final_append, List.flatMap_singleton]
      exact ih.finds
  have hinserted : ∀ m, m ≤ n → (Run.final step (Run.final step new ((List.range n).flatMap fun id =>
      looksUp id (toString id) [oldAddr] ++ [.advance id, .advance id]))
        ((List.range m).map .advance)).Crowded n m := by
    intro m hm
    induction m with
    | zero => exact hfound
    | succ m ih =>
      rw [List.range_succ, List.map_append, Run.final_append]
      exact (ih (by omega)).inserts (by omega)
  rw [crowd, Run.final_append]
  exact (hinserted n (Nat.le_refl n)).size

theorem not_kept_crowd {n : Nat} (hn : hardCap < n) : ¬ Run.Always step Kept new (crowd n) := by
  intro h
  have hsize := h.last.bounded
  rw [size_crowd] at hsize
  exact absurd hsize (Nat.not_le.2 hn)

/-- What was found before an invalidation is served after it, and more calls than the cache may have entries all make one. -/
theorem cache_law_not_unguarded :
    ¬ Run.Always step Kept new pinned ∧ ¬ Run.Always step Kept new (crowd (hardCap + 1)) :=
  ⟨not_kept_pinned, not_kept_crowd (Nat.lt_succ_self hardCap)⟩

end World

end Dns

end SpiderChrome
