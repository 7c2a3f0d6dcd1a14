import SpiderChrome.Cache.Navigation

/-!
# The site keys of a cached navigation

Five parts of the program use the session cache of a navigation, each under the site key that it was given or that it makes. The remote seed, the network manager and the clearing step have the key of the target. The response listener is handed that key in place of a URL and makes a key of it once more, and the streaming interceptor makes one of the URL of the resource, so what these two store, the others do not find.
-/

namespace SpiderChrome

/-- The site keys that a call uses, directly or in the task that it starts, for a response. -/
def Call.siteKeys (keys : KeyMaker) (response : String) : Call → List String
  | setCacheKey cacheSiteKey _ => cacheSiteKey.toList
  | spawnResponseCacheListener cacheSite _ _ _ _ => [cacheSite]
  | spawnFetchCacheInterceptor auth _ _ => [streamedSite keys auth response]
  | getCacheSite targetUrl auth _ ns => [keys.siteKeyForTargetUrl targetUrl auth ns]
  | gotoWithCache _ _ => []
  | gotoWithCacheHttpFuture _ _ => []
  | clearLocalSessionCache cacheKey => [cacheKey]

/-- All that a navigation does with the session cache for a response, it does under its own site key. -/
def OneSiteKey (keys : KeyMaker) (nav : CachedNavigation) (statements : List Stmt) (response : String) : Prop :=
  ∀ stmt ∈ statements, ∀ call ∈ stmt.calls, ∀ key ∈ call.siteKeys keys response, key = nav.cacheSite keys

/-- What is assumed of the functions of other packages: the hash has no collisions, no text is the hash of the site text made of it, and a hash has only hex digits; and what has no colon has no scheme, so it does not parse as a URL. -/
structure KeyMaker.Ideal (keys : KeyMaker) : Prop where
  injective : Function.Injective keys.hash
  noFixedPoint : ∀ text auth ns, keys.hash (siteText text auth ns) ≠ text
  hex : ∀ text, ':' ∉ (keys.hash text).toList
  relative : ∀ text : String, ':' ∉ text.toList → keys.parse text = none

namespace KeyMaker

variable {keys : KeyMaker}

theorem siteText_inj {text text' auth ns : String} (h : siteText text auth ns = siteText text' auth ns) :
    text = text' := by
  rw [siteText, siteText, String.append_left_inj, String.append_left_inj, String.append_left_inj,
    String.append_left_inj, String.append_right_inj] at h
  exact h

/-- A site key that is taken for a URL gives another site key. -/
theorem Ideal.siteKey_ne (ideal : keys.Ideal) (targetUrl : String) (auth ns : Option String) :
    keys.siteKeyForTargetUrl (keys.siteKeyForTargetUrl targetUrl auth ns) auth ns ≠
      keys.siteKeyForTargetUrl targetUrl auth ns := by
  have hparse : keys.parse (keys.siteKeyForTargetUrl targetUrl auth ns) = none := ideal.relative _ (ideal.hex _)
  intro heq
  rw [siteKeyForTargetUrl, hparse, Option.getD_none] at heq
  have htext := siteText_inj (ideal.injective heq)
  exact ideal.noFixedPoint _ _ _ htext

/-- The streamed response is under the site key of the navigation where the two texts are the same. -/
theorem Ideal.streamedSite_iff (ideal : keys.Ideal) (nav : CachedNavigation) (response : String) :
    streamedSite keys nav.auth response = nav.cacheSite keys ↔
      siteText ((keys.parse response).getD response) (nav.auth.getD "") "" =
        siteText ((keys.parse nav.targetUrl).getD nav.targetUrl) (nav.auth.getD "") (nav.ns.getD "") :=
  ideal.injective.eq_iff

end KeyMaker

namespace CachedNavigation

variable {keys : KeyMaker} {nav : CachedNavigation}

/-- The key under which the listener stores every response. -/
def listenerSite (nav : CachedNavigation) (keys : KeyMaker) : String :=
  keys.siteKeyForTargetUrl (nav.cacheSite keys) nav.auth nav.ns

/-- What follows the start of the listener makes no difference. -/
theorem not_oneSiteKey (ideal : keys.Ideal) (nav : CachedNavigation) (rest : List Stmt) (response : String) :
    ¬ OneSiteKey keys nav (nav.prepareRemote keys ++ rest) response := by
  intro h
  have hlistener : nav.listenerSite keys = nav.cacheSite keys := by
    refine h _ (List.mem_append_left _ (List.mem_cons_of_mem _ (List.mem_singleton_self _)))
      (Page.spawnCacheListener keys (nav.cacheSite keys) nav.auth nav.cacheStrategy (nav.remote.or (some "true")) false
        nav.ns) ?_ _ (List.mem_singleton_self _)
    exact List.mem_append_left _ (List.mem_append_left _ (List.mem_singleton_self _))
  exact ideal.siteKey_ne nav.targetUrl nav.auth nav.ns hlistener

/-- What the listener stores for a site of which nothing is cached, the network manager does not find. -/
theorem cachedResponse_of_listener (ideal : keys.Ideal) (nav : CachedNavigation) {session : SessionStore}
    (hnone : session.sites.get (nav.cacheSite keys) = none) (order : List String) (entry : CacheEntry)
    (entryKey : String) {nm : NetworkManager} (hkey : nm.cacheSiteKey = some (nav.cacheSite keys)) (now : Instant)
    (method url : String) :
    nm.cachedResponse
      (session.sessionCacheInsert order (nav.listenerSite keys) entry entryKey).getSessionCacheItem now method url =
        none := by
  have hne : nav.cacheSite keys ≠ nav.listenerSite keys := (ideal.siteKey_ne nav.targetUrl nav.auth nav.ns).symm
  have hget : (session.sessionCacheInsert order (nav.listenerSite keys) entry entryKey).sites.get
      (nav.cacheSite keys) = none := by
    rw [session.get_insert_of_ne order hne, hnone, ite_self]
  rw [NetworkManager.cachedResponse, hkey]
  cases nm.cachePolicy with
  | none => rfl
  | some policy =>
    dsimp only
    rw [SessionStore.getSessionCacheItem, hget]
    rfl

/-- For no navigation and no response there is one site key: that of the listener is always another one. The seed, the network manager and the clearing step agree, the interceptor agrees with them where the two site texts are the same, and what the listener stores the network manager does not find. -/
theorem no_single_site_key (keys : KeyMaker) (ideal : keys.Ideal) (nav : CachedNavigation) (response : String) :
    ¬ OneSiteKey keys nav (nav.gotoWithCacheRemote keys) response ∧
      ¬ OneSiteKey keys nav (nav.httpFutureWithCache keys) response ∧
      (Page.seedCache nav.targetUrl nav.auth (nav.remote.or (some "true")) nav.ns).siteKeys keys response =
        [nav.cacheSite keys] ∧
      (streamedSite keys nav.auth response = nav.cacheSite keys ↔
        KeyMaker.siteText ((keys.parse response).getD response) (nav.auth.getD "") "" =
          KeyMaker.siteText ((keys.parse nav.targetUrl).getD nav.targetUrl) (nav.auth.getD "") (nav.ns.getD "")) ∧
      ∀ (session : SessionStore) (order : List String) (entry : CacheEntry) (entryKey : String) (nm : NetworkManager)
        (now : Instant) (method url : String), session.sites.get (nav.cacheSite keys) = none →
        nm.cacheSiteKey = some (nav.cacheSite keys) →
        nm.cachedResponse
          (session.sessionCacheInsert order (nav.listenerSite keys) entry entryKey).getSessionCacheItem now method
          url = none :=
  ⟨not_oneSiteKey ideal nav _ response, not_oneSiteKey ideal nav _ response, rfl, ideal.streamedSite_iff nav response,
    fun _ order entry entryKey _ now method url hnone hkey =>
      cachedResponse_of_listener ideal nav hnone order entry entryKey hkey now method url⟩

end CachedNavigation

/-! ### An ideal hash -/

/-- A code of texts without collisions: every character in unary. -/
def unary (chars : List Char) : List Char := chars.flatMap fun c => List.replicate c.toNat 'x' ++ ['y']

theorem replicate_split {m n : Nat} {rest rest' : List Char}
    (h : List.replicate m 'x' ++ 'y' :: rest = List.replicate n 'x' ++ 'y' :: rest') : m = n ∧ rest = rest' := by
  induction m generalizing n with
  | zero =>
    cases n with
    | zero => exact ⟨rfl, (List.cons.inj h).2⟩
    | succ n => exact absurd (List.cons.inj h).1 (by decide)
  | succ m ih =>
    cases n with
    | zero => exact absurd (List.cons.inj h).1 (by decide)
    | succ n =>
      obtain ⟨heq, hrest⟩ := ih (List.cons.inj h).2
      exact ⟨congrArg (· + 1) heq, hrest⟩

theorem unary_injective : Function.Injective unary := by
  intro chars
  induction chars with
  | nil =>
    intro chars' h
    cases chars' with
    | nil => rfl
    | cons c rest =>
      have hlength := congrArg List.length h
      simp [unary] at hlength
  | cons c rest ih =>
    intro chars' h
    cases chars' with
    | nil =>
      have hlength := congrArg List.length h
      simp [unary] at hlength
    | cons d rest' =>
      rw [unary, unary, List.flatMap_cons, List.flatMap_cons, List.append_assoc, List.append_assoc] at h
      obtain ⟨hcode, hrest⟩ := replicate_split h
      rw [ih hrest, Char.toNat_inj.1 hcode]

theorem length_le_unary (chars : List Char) : chars.length ≤ (unary chars).length := by
  induction chars with
  | nil => exact Nat.le_refl _
  | cons c rest ih =>
    have hcons : unary (c :: rest) = (List.replicate c.toNat 'x' ++ ['y']) ++ unary rest := List.flatMap_cons
    rw [hcons, List.length_append, List.length_append, List.length_cons, List.length_singleton]
    omega

theorem colon_notMem_unary (chars : List Char) : ':' ∉ unary chars := by
  rw [unary, List.mem_flatMap]
  rintro ⟨c, -, hmem⟩
  obtain hx | hy := List.mem_append.1 hmem
  · exact absurd (List.eq_of_mem_replicate hx) (by decide)
  · exact absurd (List.mem_singleton.1 hy) (by decide)

/-- The site key of `https://example.com/`. -/
def sampleSite : String := "d127152f6d7624c334140625265202413878a0e7da20bba3e2e830b18d164718"

/-- The site key of that site key. -/
def sampleListenerSite : String := "716ffe85acdca1e4ac707af6c4d61adfeab38dd33818f293eba3af7d92bedf66"

/-- The BLAKE3 digests of these two, among the codes of all other texts; a text parses if it has a scheme. -/
def sampleKeys : KeyMaker where
  hash text :=
    if text = KeyMaker.siteText "https://example.com/" "" "" then sampleSite
    else if text = KeyMaker.siteText sampleSite "" "" then sampleListenerSite
    else String.ofList ('z' :: unary text.toList)
  parse text := if ':' ∈ text.toList then some text else none

theorem ne_coded {text : String} (h : text.toList.head? ≠ some 'z') (chars : List Char) :
    text ≠ String.ofList ('z' :: chars) := by
  rintro rfl
  rw [String.toList_ofList] at h
  exact h rfl

/-- Texts that begin with different letters have different site texts. -/
theorem siteText_ne {text text' : String} {c c' : Char} {rest rest' : List Char} (h : text.toList = c :: rest)
    (h' : text'.toList = c' :: rest') (hne : c ≠ c') (auth ns auth' ns' : String) :
    KeyMaker.siteText text auth ns ≠ KeyMaker.siteText text' auth' ns' := by
  intro heq
  have hlist := congrArg String.toList heq
  simp only [KeyMaker.siteText, String.toList_append, h, h', List.append_assoc, List.append_cancel_left_eq,
    List.cons_append] at hlist
  exact hne (List.cons.inj hlist).1

theorem length_lt_coded (text auth ns : String) :
    text.length < (String.ofList ('z' :: unary (KeyMaker.siteText text auth ns).toList)).length := by
  have hcode := length_le_unary (KeyMaker.siteText text auth ns).toList
  rw [String.length_toList, KeyMaker.siteText, String.length_append, String.length_append, String.length_append,
    String.length_append, String.length_append] at hcode
  rw [String.length_ofList, List.length_cons, KeyMaker.siteText]
  omega

theorem sampleKeys_ideal : sampleKeys.Ideal where
  injective := by
    intro text text' h
    rw [sampleKeys] at h
    dsimp only at h
    have hdigests : sampleSite ≠ sampleListenerSite := by decide
    have hsite := @ne_coded sampleSite (by decide)
    have hlistener := @ne_coded sampleListenerSite (by decide)
    split at h
    · rename_i heq
      split at h
      · rename_i heq'
        rw [heq, heq']
      · split at h
        · exact absurd h hdigests
        · exact absurd h (hsite _)
    · split at h
      · rename_i heq
        split at h
        · exact absurd h.symm hdigests
        · split at h
          · rename_i heq'
            rw [heq, heq']
          · exact absurd h (hlistener _)
      · split at h
        · exact absurd h.symm (hsite _)
        · split at h
          · exact absurd h.symm (hlistener _)
          · have hchars := String.ofList_injective h
            exact String.toList_injective (unary_injective (List.cons.inj hchars).2)
  noFixedPoint text auth ns := by
    rw [sampleKeys]
    dsimp only
    split
    · rename_i heq
      rintro rfl
      exact absurd heq (siteText_ne rfl rfl (by decide) _ _ _ _)
    · split
      · rename_i heq
        rintro rfl
        exact absurd heq (siteText_ne rfl rfl (by decide) _ _ _ _)
      · intro heq
        have hlt := length_lt_coded text auth ns
        rw [heq] at hlt
        exact Nat.lt_irrefl _ hlt
  hex text := by
    rw [sampleKeys]
    dsimp only
    split
    · decide
    · split
      · decide
      · rw [String.toList_ofList]
        exact fun hmem => (List.mem_cons.1 hmem).elim (by decide) (colon_notMem_unary _)
  relative text h := if_neg h

/-- A navigation without credentials and namespace. -/
def sampleNavigation : CachedNavigation where
  targetUrl := "https://example.com/"
  auth := none
  cachePolicy := some .normal
  cacheStrategy := none
  remote := none
  interceptEnabled := none
  ns := none

/-- A network manager that reads from the site of the navigation. -/
def sampleReader : NetworkManager :=
  { NetworkManager.new false 30000 with cacheSiteKey := some sampleSite, cachePolicy := some .normal }

theorem no_single_site_key_sample :
    ¬ OneSiteKey sampleKeys sampleNavigation (sampleNavigation.gotoWithCacheRemote sampleKeys) "https://example.com/" ∧
      streamedSite sampleKeys none "https://example.com/" = sampleNavigation.cacheSite sampleKeys ∧
      sampleReader.cachedResponse
        (SessionStore.sessionCacheInsert ⟨∅⟩ [] (sampleNavigation.listenerSite sampleKeys)
          (⟨[], [], 200⟩, fun _ => false) "GET:https://example.com/").getSessionCacheItem 0 "GET"
        "https://example.com/" = none := by
  obtain ⟨hremote, -, -, hstreamed, hmiss⟩ :=
    CachedNavigation.no_single_site_key sampleKeys sampleKeys_ideal sampleNavigation "https://example.com/"
  have hkey : sampleReader.cacheSiteKey = some (sampleNavigation.cacheSite sampleKeys) := by decide +kernel
  exact ⟨hremote, hstreamed.2 rfl, hmiss ⟨∅⟩ [] _ _ sampleReader 0 _ _ rfl hkey⟩

/-- For the document of that navigation the listener uses another key than the network manager. -/
theorem sample_listener_key :
    sampleNavigation.cacheSite sampleKeys = sampleSite ∧ sampleNavigation.listenerSite sampleKeys = sampleListenerSite ∧
      ¬ ∀ (keys : KeyMaker), keys.Ideal → ∀ (nav : CachedNavigation) (response : String),
        OneSiteKey keys nav (nav.gotoWithCacheRemote keys) response ∧
          OneSiteKey keys nav (nav.httpFutureWithCache keys) response := by
  refine ⟨by decide +kernel, by decide +kernel, fun hall => ?_⟩
  obtain ⟨hremote, -⟩ := hall sampleKeys sampleKeys_ideal sampleNavigation "https://example.com/"
  exact CachedNavigation.not_oneSiteKey sampleKeys_ideal sampleNavigation _ _ hremote

end SpiderChrome
