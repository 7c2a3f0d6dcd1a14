import SpiderChrome.Network.Manager

/-!
# The session cache

The keys under which responses are cached, and the cache of the session, which has a table of responses for each site key, as `cache/manager.rs` and `cache/remote.rs` have them. The hash of the keys and the parser of URLs are those of other packages.
-/

namespace SpiderChrome

/-- The functions that keys are made with: `hex::encode` of the BLAKE3 hash of a text, and `Url::parse`, which gives the text of a URL without its fragment. -/
structure KeyMaker where
  hash : String → String
  parse : String → Option String

namespace KeyMaker

/-- The text that is hashed into a site key. -/
def siteText (normalized auth ns : String) : String :=
  "v1|url=" ++ normalized ++ "|auth=" ++ auth ++ "|ns=" ++ ns

def siteKeyForTargetUrl (keys : KeyMaker) (targetUrl : String) (auth ns : Option String) : String :=
  let normalized := (keys.parse targetUrl).getD targetUrl
  keys.hash (siteText normalized (auth.getD "") (ns.getD ""))

end KeyMaker

/-- The general caching strategy of a visit. -/
inductive CacheStrategy where
  | scraping
  | screenshots
deriving DecidableEq

/-! ### The session cache -/

/-- A cached response with the policy that tells when it is stale. -/
abbrev CacheEntry : Type := CachedResponse × (Instant → Bool)

/-- `LOCAL_SESSION_CACHE`. -/
structure SessionStore where
  sites : Table String (Table String CacheEntry)

namespace SessionStore

def maxSites : Nat := 2000

def maxPerSite : Nat := 10000

def clearLocalSessionCache (s : SessionStore) (cacheKey : String) : SessionStore :=
  { s with sites := s.sites.remove cacheKey }

/-- The first quarter of the sites, in the order in which the map is iterated, makes room when the cache is full. -/
def evicted (s : SessionStore) (order : List String) : List String :=
  if s.sites.size ≥ maxSites then order.take (maxSites / 4) else []

def sessionCacheInsert (s : SessionStore) (order : List String) (cacheKey : String) (entry : CacheEntry)
    (entryKey : String) : SessionStore :=
  match s.sites.get cacheKey with
  | some inner =>
    if inner.size < maxPerSite then { s with sites := s.sites.set cacheKey (inner.set entryKey entry) } else s
  | none =>
    let s := (s.evicted order).foldl clearLocalSessionCache s
    { s with sites := s.sites.set cacheKey ((∅ : Table String CacheEntry).set entryKey entry) }

def getSessionCacheItem (s : SessionStore) (cacheKey targetUrl : String) : Option CacheEntry :=
  (s.sites.get cacheKey).bind fun localCache => localCache.get targetUrl

def checkSessionCacheItem (s : SessionStore) (cacheKey targetUrl : String) : Bool :=
  (s.getSessionCacheItem cacheKey targetUrl).isSome

/-- The site has room for another response. -/
def accepts (s : SessionStore) (cacheSite : String) : Bool :=
  match s.sites.get cacheSite with
  | some inner => inner.size < maxPerSite
  | none => true

/-! ### What an insertion does -/

theorem get_foldl_clear (s : SessionStore) (keys : List String) (site : String) :
    (keys.foldl clearLocalSessionCache s).sites.get site = if site ∈ keys then none else s.sites.get site := by
  induction keys generalizing s with
  | nil => rfl
  | cons key rest ih =>
    rw [List.foldl_cons, ih, clearLocalSessionCache, Table.get_remove]
    by_cases hrest : site ∈ rest
    · rw [if_pos hrest, if_pos (List.mem_cons_of_mem _ hrest)]
    · rw [if_neg hrest]
      by_cases hkey : site = key
      · rw [if_pos hkey, if_pos (hkey ▸ List.mem_cons_self)]
      · rw [if_neg hkey, if_neg (fun hmem => (List.mem_cons.1 hmem).elim hkey hrest)]

/-- After an insertion there is something under its site key. -/
theorem get_insert_self (s : SessionStore) (order : List String) (cacheKey : String) (entry : CacheEntry)
    (entryKey : String) : (s.sessionCacheInsert order cacheKey entry entryKey).sites.get cacheKey ≠ none := by
  rw [sessionCacheInsert]
  split
  · rename_i inner hget
    split
    · rw [Table.get_set_self]
      exact Option.some_ne_none _
    · rw [hget]
      exact Option.some_ne_none _
  · rw [Table.get_set_self]
    exact Option.some_ne_none _

/-- An insertion under another key leaves a site alone, unless it evicts it. -/
theorem get_insert_of_ne (s : SessionStore) (order : List String) {cacheKey site : String} (hne : site ≠ cacheKey)
    (entry : CacheEntry) (entryKey : String) :
    (s.sessionCacheInsert order cacheKey entry entryKey).sites.get site =
      if s.sites.get cacheKey = none ∧ site ∈ s.evicted order then none else s.sites.get site := by
  rw [sessionCacheInsert]
  split
  · rename_i inner hget
    have hkept : ¬ (s.sites.get cacheKey = none ∧ site ∈ s.evicted order) := by
      rw [hget]
      rintro ⟨hnone, -⟩
      cases hnone
    rw [if_neg hkept]
    split
    · rw [Table.get_set_of_ne _ _ hne]
    · rfl
  · rename_i hget
    rw [Table.get_set_of_ne _ _ hne, get_foldl_clear]
    exact if_congr (by rw [hget]; simp) rfl rfl

/-- What is in the session cache after an insertion was inserted by it, or was there before. -/
theorem item_insert {s : SessionStore} {order : List String} {cacheSite key site key' : String}
    {entry entry' : CacheEntry}
    (h : (s.sessionCacheInsert order cacheSite entry key).getSessionCacheItem site key' = some entry') :
    (s.accepts cacheSite = true ∧ (site, key') = (cacheSite, key) ∧ entry' = entry) ∨
      (s.getSessionCacheItem site key' = some entry' ∧
        ¬ (s.accepts cacheSite = true ∧ (site, key') = (cacheSite, key))) := by
  by_cases hsite : site = cacheSite
  · subst hsite
    rw [sessionCacheInsert, getSessionCacheItem] at h
    rw [accepts, getSessionCacheItem]
    cases hget : s.sites.get site with
    | none =>
      rw [hget] at h
      dsimp only at h
      rw [Table.get_set_self, Option.bind_some, Table.get_set] at h
      split at h
      · rename_i hkey
        exact .inl ⟨rfl, by rw [hkey], (Option.some.inj h).symm⟩
      · cases h
    | some inner =>
      rw [hget] at h
      dsimp only at h ⊢
      split at h
      · rename_i hroom
        rw [Table.get_set_self, Option.bind_some, Table.get_set] at h
        split at h
        · rename_i hkey
          exact .inl ⟨decide_eq_true hroom, by rw [hkey], (Option.some.inj h).symm⟩
        · rename_i hkey
          exact .inr ⟨h, fun heq => hkey (Prod.mk.inj heq.2).2⟩
      · rename_i hfull
        rw [hget] at h
        exact .inr ⟨h, fun heq => hfull (of_decide_eq_true heq.1)⟩
  · refine .inr ⟨?_, fun heq => hsite (Prod.mk.inj heq.2).1⟩
    rw [getSessionCacheItem, s.get_insert_of_ne order hsite] at h
    split at h
    · cases h
    · exact h

end SessionStore

end SpiderChrome
