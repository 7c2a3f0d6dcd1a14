import SpiderChrome.Cache.Session
import SpiderChrome.Library.Run

/-!
# Histories of the session cache

The session cache under any sequence of insertions and clears. It stays within its two bounds, and an insertion under a site that is there leaves the others alone. A response that was inserted is found, but for one case: a site that is full and has an older response under the key keeps that one.
-/

namespace SpiderChrome

open Run

/-- A call of another part of the program, with the order in which the map is iterated. -/
inductive CacheCall where
  | insert (order : List String) (cacheKey : String) (entry : CacheEntry) (entryKey : String)
  | clear (cacheKey : String)

namespace SessionStore

/-- An insertion with an order that is not one of the map does not occur. -/
def step (s : SessionStore) : CacheCall → SessionStore
  | .insert order cacheKey entry entryKey =>
    if order.Perm s.sites.keys then s.sessionCacheInsert order cacheKey entry entryKey else s
  | .clear cacheKey => s.clearLocalSessionCache cacheKey

/-! ### The bounds -/

structure Bounded (s : SessionStore) : Prop where
  sites : s.sites.size ≤ maxSites
  perSite : ∀ site inner, s.sites.get site = some inner → inner.size ≤ maxPerSite

/-- An insertion under a site that is there leaves the other sites alone. -/
def KeepsOthers (s : SessionStore) : CacheCall → Prop
  | .insert order cacheKey entry entryKey =>
    s.sites.get cacheKey ≠ none → ∀ site, site ≠ cacheKey →
      (s.step (.insert order cacheKey entry entryKey)).sites.get site = s.sites.get site
  | .clear _ => True

variable {s : SessionStore}

theorem Bounded.clear (h : s.Bounded) (cacheKey : String) : (s.clearLocalSessionCache cacheKey).Bounded := by
  refine ⟨(Table.Sub.size_le (Table.remove_sub _ _)).trans h.sites, ?_⟩
  intro site inner hget
  exact h.perSite site inner (Table.remove_sub _ _ _ _ hget)

/-- What is left of the sites when room was made for another one. -/
theorem size_foldl_evicted (h : s.Bounded) {order : List String} (horder : order.Perm s.sites.keys) :
    ((s.evicted order).foldl clearLocalSessionCache s).sites.size < maxSites := by
  rw [evicted]
  split
  · have hsize := Table.size_removed_le horder (get_foldl_clear s (order.take (maxSites / 4)))
    have hbound := h.sites
    simp only [maxSites] at hsize hbound ⊢
    omega
  · rename_i hroom
    exact Nat.lt_of_not_le hroom

theorem Bounded.insert (h : s.Bounded) {order : List String} (horder : order.Perm s.sites.keys) (cacheKey : String)
    (entry : CacheEntry) (entryKey : String) : (s.sessionCacheInsert order cacheKey entry entryKey).Bounded := by
  rw [sessionCacheInsert]
  cases hget : s.sites.get cacheKey with
  | some inner =>
    dsimp only
    split
    · rename_i hroom
      refine ⟨(Table.size_set_of_get hget _).le.trans h.sites, ?_⟩
      intro site inner' hinner
      rw [Table.get_set] at hinner
      split at hinner
      · rw [← Option.some.inj hinner]
        exact (Table.size_set_le inner entryKey entry).trans hroom
      · exact h.perSite site inner' hinner
    · exact h
  | none =>
    have hsize := size_foldl_evicted h horder
    refine ⟨(Table.size_set_le _ cacheKey _).trans hsize, ?_⟩
    intro site inner' hinner
    dsimp only at hinner
    rw [Table.get_set] at hinner
    split at hinner
    · rw [← Option.some.inj hinner]
      have hone := Table.size_set_le (∅ : Table String CacheEntry) entryKey entry
      have hempty : (∅ : Table String CacheEntry).size = 0 := rfl
      simp only [maxPerSite]
      omega
    · rw [get_foldl_clear] at hinner
      split at hinner
      · cases hinner
      · exact h.perSite site inner' hinner

theorem Bounded.step (h : s.Bounded) (call : CacheCall) : (s.step call).Bounded := by
  cases call with
  | insert order cacheKey entry entryKey =>
    rw [SessionStore.step]
    split
    · rename_i horder
      exact h.insert horder cacheKey entry entryKey
    · exact h
  | clear cacheKey => exact h.clear cacheKey

theorem keepsOthers (s : SessionStore) (call : CacheCall) : s.KeepsOthers call := by
  cases call with
  | insert order cacheKey entry entryKey =>
    intro hthere site hne
    rw [SessionStore.step]
    split
    · rw [get_insert_of_ne s order hne, if_neg (fun hmissing => hthere hmissing.1)]
    · rfl
  | clear cacheKey => trivial

theorem bounded_empty : (⟨∅⟩ : SessionStore).Bounded := ⟨Nat.zero_le _, nofun⟩

/-- In every history the sites and the responses of each site stay within their bounds, and an insertion under a site that is there leaves the others alone. -/
theorem session_cache_bounded (calls : List CacheCall) :
    Always step Bounded ⟨∅⟩ calls ∧ Allowed step KeepsOthers ⟨∅⟩ calls := by
  refine ⟨?_, ?_⟩
  · exact always_of_step (fun _ call h => h.step call) bounded_empty calls
  · exact allowed_of_step (fun _ => True) (fun _ _ h => h) (fun s call _ => keepsOthers s call) trivial calls

end SessionStore

/-! ### What is found after an insertion -/

/-- The session cache, and the response that was inserted last under each site and key. -/
structure CacheHistory where
  store : SessionStore
  latest : String → String → Option CacheEntry

namespace CacheHistory

def new : CacheHistory := ⟨⟨∅⟩, fun _ _ => none⟩

def step (h : CacheHistory) : CacheCall → CacheHistory
  | .insert order cacheKey entry entryKey =>
    if order.Perm h.store.sites.keys then
      { store := h.store.sessionCacheInsert order cacheKey entry entryKey
        latest := fun site key => if site = cacheKey ∧ key = entryKey then some entry else h.latest site key }
    else h
  | .clear cacheKey => { h with store := h.store.clearLocalSessionCache cacheKey }

/-- What is served is what was inserted last. -/
def Fresh (h : CacheHistory) : Prop :=
  ∀ site key entry, h.store.getSessionCacheItem site key = some entry → h.latest site key = some entry

/-- An insertion under a key that is there, or at a site that has room, is found when it returns. -/
def Finds (h : CacheHistory) : CacheCall → Prop
  | .insert order cacheKey entry entryKey =>
    order.Perm h.store.sites.keys →
      h.store.getSessionCacheItem cacheKey entryKey ≠ none ∨ h.store.accepts cacheKey = true →
      (h.step (.insert order cacheKey entry entryKey)).store.getSessionCacheItem cacheKey entryKey = some entry
  | .clear _ => True

/-- The site has room, or no other response under the key. -/
def Replaces (h : CacheHistory) : CacheCall → Prop
  | .insert order cacheKey entry entryKey =>
    order.Perm h.store.sites.keys → h.store.accepts cacheKey = false →
      ∀ old, h.store.getSessionCacheItem cacheKey entryKey = some old → old = entry
  | .clear _ => True

/-- What stands under its key after an insertion. -/
theorem item_insert_self (s : SessionStore) (order : List String) (cacheKey : String) (entry : CacheEntry)
    (entryKey : String) :
    (s.sessionCacheInsert order cacheKey entry entryKey).getSessionCacheItem cacheKey entryKey =
      if s.accepts cacheKey then some entry else s.getSessionCacheItem cacheKey entryKey := by
  cases hget : s.sites.get cacheKey with
  | none =>
    have hroom : s.accepts cacheKey = true := by rw [SessionStore.accepts, hget]
    rw [if_pos hroom, SessionStore.sessionCacheInsert, hget, SessionStore.getSessionCacheItem]
    dsimp only
    rw [Table.get_set_self, Option.bind_some, Table.get_set_self]
  | some inner =>
    by_cases hsize : inner.size < SessionStore.maxPerSite
    · have hroom : s.accepts cacheKey = true := by
        rw [SessionStore.accepts, hget]
        exact decide_eq_true hsize
      rw [if_pos hroom, SessionStore.sessionCacheInsert, hget, SessionStore.getSessionCacheItem]
      dsimp only
      rw [if_pos hsize, Table.get_set_self, Option.bind_some, Table.get_set_self]
    · have hfull : s.accepts cacheKey = false := by
        rw [SessionStore.accepts, hget]
        exact decide_eq_false hsize
      rw [hfull, if_neg Bool.false_ne_true, SessionStore.sessionCacheInsert, hget]
      dsimp only
      rw [if_neg hsize]

variable {h : CacheHistory}

theorem finds_insert_iff {order : List String} (horder : order.Perm h.store.sites.keys) (cacheKey : String)
    (entry : CacheEntry) (entryKey : String) :
    h.Finds (.insert order cacheKey entry entryKey) ↔ h.Replaces (.insert order cacheKey entry entryKey) := by
  have hitem : (h.step (.insert order cacheKey entry entryKey)).store.getSessionCacheItem cacheKey entryKey =
      if h.store.accepts cacheKey then some entry else h.store.getSessionCacheItem cacheKey entryKey := by
    rw [step, if_pos horder]
    exact item_insert_self h.store order cacheKey entry entryKey
  constructor
  · intro hfinds _ hfull old hold
    have hfound := hfinds horder (.inl (by rw [hold]; nofun))
    rw [hitem, hfull, if_neg Bool.false_ne_true, hold] at hfound
    exact Option.some.inj hfound
  · intro hreplaces _ hthere
    rw [hitem]
    by_cases hroom : h.store.accepts cacheKey = true
    · rw [if_pos hroom]
    · obtain ⟨old, hold⟩ := Option.ne_none_iff_exists'.1 (hthere.resolve_right hroom)
      rw [if_neg hroom, hold, hreplaces horder (Bool.eq_false_iff.2 hroom) old hold]

/-- What was served stays fresh unless a full site keeps an older response. -/
theorem Fresh.insert (hfresh : h.Fresh) {order : List String} {cacheKey entryKey : String} {entry : CacheEntry}
    (hreplaces : h.Replaces (.insert order cacheKey entry entryKey)) :
    (h.step (.insert order cacheKey entry entryKey)).Fresh := by
  rw [step]
  split
  · rename_i horder
    intro site key served hserved
    dsimp only at hserved ⊢
    obtain ⟨-, hkey, rfl⟩ | ⟨hold, hnew⟩ := SessionStore.item_insert hserved
    · exact if_pos (Prod.mk.inj hkey)
    · split
      · rename_i hkey
        obtain ⟨rfl, rfl⟩ := hkey
        have hfull : h.store.accepts site = false := Bool.eq_false_iff.2 fun hroom => hnew ⟨hroom, rfl⟩
        rw [hreplaces horder hfull served hold]
      · exact hfresh site key served hold
  · exact hfresh

theorem Fresh.clear (hfresh : h.Fresh) (cacheKey : String) : (h.step (.clear cacheKey)).Fresh := by
  intro site key served hserved
  apply hfresh
  obtain ⟨inner, hinner, hitem⟩ := Option.bind_eq_some_iff.1 hserved
  exact Option.bind_eq_some_iff.2 ⟨inner, Table.remove_sub _ _ _ _ hinner, hitem⟩

theorem step_iff (hfresh : h.Fresh) (call : CacheCall) :
    h.Finds call ∧ (h.step call).Fresh ↔ h.Replaces call := by
  cases call with
  | clear cacheKey => exact ⟨fun _ => trivial, fun _ => ⟨trivial, hfresh.clear cacheKey⟩⟩
  | insert order cacheKey entry entryKey =>
    constructor
    · rintro ⟨hfinds, -⟩ horder
      exact (finds_insert_iff horder cacheKey entry entryKey).1 hfinds horder
    · intro hreplaces
      refine ⟨?_, hfresh.insert hreplaces⟩
      intro horder
      exact (finds_insert_iff horder cacheKey entry entryKey).2 hreplaces horder

theorem fresh_new : new.Fresh := by
  intro site key entry hserved
  have hnone : new.store.getSessionCacheItem site key = none := rfl
  rw [hnone] at hserved
  cases hserved

/-- In a history every insertion is found and only what was inserted last is served, just when no insertion meets a full site with another response under its key. -/
theorem resources_found_iff (calls : List CacheCall) :
    Allowed step Finds new calls ∧ Always step Fresh new calls ↔ Allowed step Replaces new calls :=
  @allowed_and_always_iff_allowed _ _ step Replaces Fresh Finds (fun _ => True) (fun _ _ _ => trivial)
    (fun _ call _ hfresh => step_iff hfresh call) new trivial fresh_new calls

/-! ### A full site -/

/-- The keys of different resources. -/
def resourceKey (n : Nat) : String := String.ofList (List.replicate n 'a')

def responseOf (body : List UInt8) : CacheEntry := (⟨body, [], 200⟩, fun _ => false)

/-- The resources up to the last are inserted under one site. -/
def filling : Nat → List CacheCall
  | 0 => [.insert [] "site" (responseOf [1]) (resourceKey 0)]
  | last + 1 => filling last ++ [.insert ["site"] "site" (responseOf [1]) (resourceKey (last + 1))]

/-- The site has the resources up to the last, and is the only one. -/
structure Filled (last : Nat) (h : CacheHistory) : Prop where
  keys : h.store.sites.keys = ["site"]
  held : ∃ inner, h.store.sites.get "site" = some inner ∧ inner.size = last + 1 ∧
    inner.get (resourceKey 0) = some (responseOf [1]) ∧ ∀ n, last < n → inner.get (resourceKey n) = none

theorem resourceKey_inj {m n : Nat} (h : resourceKey m = resourceKey n) : m = n := by
  have hlist := congrArg (fun s : String => s.toList.length) h
  simpa [resourceKey] using hlist

theorem filled (last : Nat) (hlast : last < SessionStore.maxPerSite) : Filled last (final step new (filling last)) := by
  induction last with
  | zero =>
    refine ⟨rfl, _, rfl, rfl, rfl, ?_⟩
    intro n hn
    rw [Table.get_set_of_ne]
    · rfl
    · intro heq
      have hzero := resourceKey_inj heq
      omega
  | succ last ih =>
    obtain ⟨hkeys, inner, hget, hsize, hfirst, hlater⟩ := ih (by omega)
    have hroom : inner.size < SessionStore.maxPerSite := by omega
    have horder : ["site"].Perm (final step new (filling last)).store.sites.keys := by rw [hkeys]
    have hnext : (final step new (filling (last + 1))).store =
        ⟨(final step new (filling last)).store.sites.set "site"
          (inner.set (resourceKey (last + 1)) (responseOf [1]))⟩ := by
      rw [filling, final_append, final_cons, final_nil, step, if_pos horder]
      dsimp only
      rw [SessionStore.sessionCacheInsert, hget]
      exact if_pos hroom
    refine ⟨?_, inner.set (resourceKey (last + 1)) (responseOf [1]), ?_, ?_, ?_, ?_⟩
    · rw [hnext, Table.keys_set, hkeys]
      rfl
    · rw [hnext]
      exact Table.get_set_self _ _ _
    · rw [Table.size_set_of_get_eq_none (hlater (last + 1) (Nat.lt_succ_self last)), hsize]
    · have hne : resourceKey 0 ≠ resourceKey (last + 1) := by
        intro heq
        have hzero := resourceKey_inj heq
        omega
      rw [Table.get_set_of_ne _ _ hne, hfirst]
    · intro n hn
      have hne : resourceKey n ≠ resourceKey (last + 1) := by
        intro heq
        have hsame := resourceKey_inj heq
        omega
      rw [Table.get_set_of_ne _ _ hne]
      exact hlater n (by omega)

def fullSite : CacheHistory := final step new (filling (SessionStore.maxPerSite - 1))

/-- A newer response for the first resource. -/
def newer : CacheCall := .insert ["site"] "site" (responseOf [2]) (resourceKey 0)

theorem Filled.newer_kept (hfilled : Filled (SessionStore.maxPerSite - 1) h) :
    (h.step newer).latest "site" (resourceKey 0) = some (responseOf [2]) ∧
      (h.step newer).store.getSessionCacheItem "site" (resourceKey 0) = some (responseOf [1]) := by
  obtain ⟨hkeys, inner, hget, hsize, hfirst, -⟩ := hfilled
  have horder : ["site"].Perm h.store.sites.keys := by rw [hkeys]
  have hroom : ¬ inner.size < SessionStore.maxPerSite := by
    rw [hsize]
    decide
  constructor
  · rw [newer, step, if_pos horder]
    dsimp only
    rw [if_pos (And.intro rfl rfl)]
  · rw [newer, step, if_pos horder]
    dsimp only
    rw [SessionStore.sessionCacheInsert, hget]
    dsimp only
    rw [if_neg hroom, SessionStore.getSessionCacheItem, hget, Option.bind_some, hfirst]

/-- The older response is not the one inserted last. -/
theorem Filled.not_always_fresh {calls : List CacheCall}
    (hfilled : Filled (SessionStore.maxPerSite - 1) (final step new calls)) :
    ¬ Always step Fresh new (calls ++ [newer]) := by
  obtain ⟨hlatest, hserved⟩ := hfilled.newer_kept
  intro hfresh
  have hlast := hfresh.last
  rw [final_append, final_cons, final_nil] at hlast
  have hsame := hlast "site" (resourceKey 0) _ hserved
  rw [hlatest] at hsame
  exact absurd (congrArg (fun entry => entry.map fun e => e.1.body) hsame) (by decide)

/-- The site is full when the newer response is inserted, and the older one goes on to be served. -/
theorem full_site_keeps_old :
    (fullSite.step newer).latest "site" (resourceKey 0) = some (responseOf [2]) ∧
      (fullSite.step newer).store.getSessionCacheItem "site" (resourceKey 0) = some (responseOf [1]) ∧
      ¬ (Allowed step Finds new (filling (SessionStore.maxPerSite - 1) ++ [newer]) ∧
        Always step Fresh new (filling (SessionStore.maxPerSite - 1) ++ [newer])) := by
  have hfilled : Filled (SessionStore.maxPerSite - 1) fullSite := filled _ (by decide)
  obtain ⟨hlatest, hserved⟩ := hfilled.newer_kept
  exact ⟨hlatest, hserved, not_and_of_not_right _ hfilled.not_always_fresh⟩

end CacheHistory

end SpiderChrome
