import SpiderChrome.Cache.Methods

/-!
# The replay of a stored response

A pause may find a stored response on two ways, through the network manager in the session cache and through the interceptor on disk. Both answer with its headers and its body. The manager answers with its status too, the interceptor always with 200.
-/

namespace SpiderChrome

/-- A fulfilled pause: its status, its body and its headers. -/
structure Fulfillment where
  status : Int
  body : Option (List UInt8)
  headers : Option (List (String × String))
deriving DecidableEq

def NetworkEvent.fulfillment (requestId : Fetch.RequestId) : NetworkEvent → Option Fulfillment
  | sendCdpRequest (.fulfillRequest id status body headers) =>
    if id = requestId then some ⟨status, body, headers⟩ else none
  | _ => none

def FetchEffect.fulfillment (requestId : Fetch.RequestId) : FetchEffect → Option Fulfillment
  | send command => (NetworkEvent.sendCdpRequest command).fulfillment requestId
  | _ => none

/-- With what the events that the manager queues for a pause fulfill it. -/
def NetworkManager.fulfillments (requestId : Fetch.RequestId) (nm nm' : NetworkManager) : List Fulfillment :=
  (nm'.queuedEvents.drop nm.queuedEvents.length).filterMap (NetworkEvent.fulfillment requestId)

/-- Each header has one value. -/
def CachedResponse.SingleValued (response : CachedResponse) : Prop := ∀ header ∈ response.headers, header.2.length = 1

/-- The headers of a response, one for each value. -/
def CachedResponse.headerPairs (response : CachedResponse) : List (String × String) :=
  response.headers.flatMap fun (name, values) => values.map fun value => (name, value)

/-- The pause is fulfilled once, with the stored status, headers and body. -/
def CachedResponse.Replayed (response : CachedResponse) (fulfillments : List Fulfillment) : Prop :=
  ∃ headers, fulfillments = [⟨response.status.toNat, some response.body, some headers⟩] ∧
    headers.Perm response.headerPairs

theorem headersFromMulti_of_singleValued {response : CachedResponse} (h : response.SingleValued) :
    NetworkManager.headersFromMulti response.headers = response.headerPairs := by
  rw [NetworkManager.headersFromMulti, CachedResponse.headerPairs, ← List.flatMap_pure_eq_map]
  apply List.flatMap_congr
  rintro ⟨name, values⟩ hheader
  obtain ⟨value, rfl⟩ := List.length_eq_one_iff.1 (h (name, values) hheader)
  rfl

/-! ### The network manager -/

namespace NetworkManager

variable {nm : NetworkManager}

theorem fulfillment_of_not_answers {requestId : Fetch.RequestId} {event : NetworkEvent}
    (h : event.answers requestId = false) : event.fulfillment requestId = none := by
  cases event with
  | sendCdpRequest command =>
    cases command with
    | fulfillRequest id status body headers => exact if_neg (of_decide_eq_false h)
    | _ => rfl
  | _ => rfl

/-- A pause that hits is answered with the cached response as it is stored. -/
theorem fulfillments_of_hits {blockers : Blockers} {cache : SessionCache} {systemNow : Instant}
    {event : EventRequestPaused} (hits : nm.Hits blockers cache systemNow event) {response : CachedResponse}
    (hcached : nm.cachedResponse cache systemNow event.request.method (nm.effectiveUrl event) = some response)
    (now : Instant) :
    nm.fulfillments event.requestId (nm.onFetchRequestPaused blockers cache now systemNow event) =
      [⟨response.status.toNat, some response.body, some (headersFromMulti response.headers)⟩] := by
  have hbooks : Answered event.requestId 0 nm ((nm.reconcilePaused now event).tracked event).1 :=
    (nm.reconcilePaused_answered now event).trans (answered_of_queuedEvents_eq
      (handleDocumentReplacementAndTracking_queuedEvents _ _ _))
  rw [effectiveUrl] at hcached
  rw [nm.onFetchRequestPaused_of_open blockers cache now systemNow event hits.own hits.running, hits.allowed,
    answerPaused, if_neg Bool.false_ne_true, nm.cachedResponse_tracked, hcached]
  dsimp only
  rw [fulfillments, fulfillRequestFromCache]
  rw [filterMap_pushCdpRequest hbooks _ fun _ => fulfillment_of_not_answers]
  rw [NetworkEvent.fulfillment, if_pos rfl, Option.toList_some]

end NetworkManager

/-! ### The interceptor -/

/-- A pause that hits the cache on disk is answered with 200 and the rest of what is stored. -/
theorem fulfillments_of_fetchHits {disk : DiskCache} {inTime : Bool} {systemNow : Instant} {event : EventRequestPaused}
    {stage : FetchStage} {auth : Option String} {policy : Option BasicCachePolicy}
    {cacheStrategy : Option CacheStrategy} (hits : FetchHits disk inTime systemNow event stage auth policy cacheStrategy)
    {response : CachedResponse}
    (hstored : (disk.get (createCacheKeyRaw event.request.url none auth)).map Prod.fst = some response)
    (world : FetchWorld) :
    let cached := getCachedUrlWithMetadata disk inTime systemNow event.request.url auth policy
    (handleFetchPaused { world with cachedUrlWithMetadata := cached } event stage cacheStrategy).filterMap
      (FetchEffect.fulfillment event.requestId) =
        [⟨200, some response.body, some (NetworkManager.headersFromMulti response.headers)⟩] := by
  intro cached
  have hcached : cached = some (response.body, NetworkManager.headersFromMulti response.headers) := by
    obtain ⟨found, hfound⟩ := Option.isSome_iff_exists.1 hits.cached
    obtain ⟨entry, hentry, hsame⟩ := getCachedUrlWithMetadata_entry hfound
    rw [hentry, Option.map_some] at hstored
    rw [← Option.some.inj hstored, hsame]
    exact hfound
  rw [handleFetchPaused, if_neg (Bool.eq_false_iff.1 hits.eligible), if_neg (Bool.eq_false_iff.1 hits.noError)]
  dsimp only
  rw [hcached]
  dsimp only
  exact List.filterMap_cons_some (if_pos rfl)

/-! ### Both -/

theorem replayed_iff {response : CachedResponse} (h : response.SingleValued) (status : Int) :
    response.Replayed [⟨status, some response.body, some (NetworkManager.headersFromMulti response.headers)⟩] ↔
      status = response.status.toNat := by
  constructor
  · rintro ⟨headers, heq, -⟩
    exact congrArg Fulfillment.status (List.head_eq_of_cons_eq heq)
  · intro hstatus
    refine ⟨NetworkManager.headersFromMulti response.headers, by rw [hstatus], ?_⟩
    rw [headersFromMulti_of_singleValued h]

/-- A stored response that a pause finds on both ways is replayed on both as it is stored, just when its status is 200. -/
theorem replays_agree_iff {response : CachedResponse} (hsingle : response.SingleValued) {event : EventRequestPaused}
    {nm : NetworkManager} {blockers : Blockers} {cache : SessionCache} {systemNow : Instant}
    (hits : nm.Hits blockers cache systemNow event)
    (hcached : nm.cachedResponse cache systemNow event.request.method (nm.effectiveUrl event) = some response)
    (now : Instant) {disk : DiskCache} {inTime : Bool} {fetchNow : Instant} {stage : FetchStage}
    {auth : Option String} {policy : Option BasicCachePolicy} {cacheStrategy : Option CacheStrategy}
    (hfetch : FetchHits disk inTime fetchNow event stage auth policy cacheStrategy)
    (hstored : (disk.get (createCacheKeyRaw event.request.url none auth)).map Prod.fst = some response)
    (world : FetchWorld) :
    let found := getCachedUrlWithMetadata disk inTime fetchNow event.request.url auth policy
    response.Replayed
        (nm.fulfillments event.requestId (nm.onFetchRequestPaused blockers cache now systemNow event)) ∧
      response.Replayed ((handleFetchPaused { world with cachedUrlWithMetadata := found } event stage
        cacheStrategy).filterMap (FetchEffect.fulfillment event.requestId)) ↔
      response.status = 200 := by
  intro found
  rw [NetworkManager.fulfillments_of_hits hits hcached now, fulfillments_of_fetchHits hfetch hstored world,
    replayed_iff hsingle, replayed_iff hsingle]
  constructor
  · rintro ⟨-, hstatus⟩
    apply UInt16.toNat_inj.1
    have hnat : (200 : Int) = response.status.toNat := hstatus
    change response.status.toNat = 200
    omega
  · intro hstatus
    rw [hstatus]
    exact ⟨rfl, rfl⟩

/-! ### A page that is not there -/

/-- The page of a login as it was stored with a status. -/
def storedLogin (status : UInt16) : CachedResponse := ⟨textBytes "welcome", [("content-type", ["text/html"])], status⟩

def loginSession (status : UInt16) : SessionCache := fun _ key =>
  if key = "GET:https://example.com/login" then some (storedLogin status, fun _ => false) else none

def loginDisk (status : UInt16) : DiskCache :=
  Table.set ∅ (createCacheKeyRaw "https://example.com/login" none none) (storedLogin status, fun _ => false)

theorem storedLogin_singleValued (status : UInt16) : (storedLogin status).SingleValued :=
  List.forall_mem_singleton.2 rfl

theorem sampleReader_cachedResponse (status : UInt16) :
    sampleReader.cachedResponse (loginSession status) 0 "GET" (sampleReader.effectiveUrl (samplePaused "GET")) =
      some (storedLogin status) := rfl

theorem sampleReader_hits (status : UInt16) :
    sampleReader.Hits .none (loginSession status) 0 (samplePaused "GET") where
  own := rfl
  running := rfl
  allowed := by decide +kernel
  cached := congrArg Option.isSome (sampleReader_cachedResponse status)

theorem loginDisk_fetchHits (status : UInt16) :
    FetchHits (loginDisk status) true 0 (samplePaused "GET") ⟨none, none, none, []⟩ none none none where
  eligible := by decide +kernel
  noError := rfl
  cached := rfl

def loginAtManager (status : UInt16) : List Fulfillment :=
  sampleReader.fulfillments ⟨"2"⟩
    (sampleReader.onFetchRequestPaused .none (loginSession status) 0 0 (samplePaused "GET"))

def loginAtInterceptor (status : UInt16) : List Fulfillment :=
  let cached := getCachedUrlWithMetadata (loginDisk status) true 0 "https://example.com/login" none none
  (handleFetchPaused { sampleWorld with cachedUrlWithMetadata := cached } (samplePaused "GET")
    ⟨none, none, none, []⟩ none).filterMap (FetchEffect.fulfillment ⟨"2"⟩)

/-- The page is replayed alike when it was there. -/
theorem replays_agree_200 :
    (storedLogin 200).Replayed (loginAtManager 200) ∧ (storedLogin 200).Replayed (loginAtInterceptor 200) :=
  (replays_agree_iff (storedLogin_singleValued 200) (sampleReader_hits 200) (sampleReader_cachedResponse 200) 0
    (loginDisk_fetchHits 200) rfl sampleWorld).2 rfl

/-- A page that was not found is replayed as 404 by the manager and as 200 by the interceptor. -/
theorem not_found_replayed_as_200 :
    (loginAtManager 404).map Fulfillment.status = [404] ∧ (loginAtInterceptor 404).map Fulfillment.status = [200] ∧
      ¬ (storedLogin 404).Replayed (loginAtInterceptor 404) := by
  have hmanager : loginAtManager 404 = _ :=
    NetworkManager.fulfillments_of_hits (sampleReader_hits 404) (sampleReader_cachedResponse 404) 0
  have hinterceptor : loginAtInterceptor 404 = _ :=
    fulfillments_of_fetchHits (loginDisk_fetchHits 404) rfl sampleWorld
  rw [hmanager, hinterceptor, replayed_iff (storedLogin_singleValued 404)]
  decide

end SpiderChrome
