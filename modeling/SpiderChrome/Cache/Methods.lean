import SpiderChrome.Library.Run
import SpiderChrome.Cache.Listener
import SpiderChrome.Cache.Markers
import SpiderChrome.Network.Decision

/-!
# The method of a cached response

Every response is filed under the method `GET`, whatever the method of the request that it answers. A pause is looked up under its own method by the network manager and under `GET` by the interceptor. So a cached response meets a request of another method, and the theorem says exactly in which runs none does.
-/

namespace SpiderChrome

open Run

/-! ### What a pause is fulfilled with -/

/-- The body with which an event fulfills the pause. -/
def NetworkEvent.servedBody (requestId : Fetch.RequestId) : NetworkEvent → Option (List UInt8)
  | sendCdpRequest (.fulfillRequest id _ body _) => if id = requestId then body else none
  | _ => none

def FetchEffect.servedBody (requestId : Fetch.RequestId) : FetchEffect → Option (List UInt8)
  | send command => (NetworkEvent.sendCdpRequest command).servedBody requestId
  | _ => none

namespace NetworkManager

variable {nm nm' : NetworkManager}

/-- The bodies with which what is new in the queue of the second manager fulfills the pause. -/
def servedBodies (requestId : Fetch.RequestId) (nm nm' : NetworkManager) : List (List UInt8) :=
  (nm'.queuedEvents.drop nm.queuedEvents.length).filterMap (NetworkEvent.servedBody requestId)

/-- The pause is the manager's to answer, it is not blocked, and there is a cached response that may answer it. -/
structure Hits (nm : NetworkManager) (blockers : Blockers) (cache : SessionCache) (systemNow : Instant)
    (event : EventRequestPaused) : Prop where
  own : (nm.userRequestInterceptionEnabled && nm.protocolRequestInterceptionEnabled) = false
  running : nm.blockAll = false
  allowed : nm.decision blockers event = false
  cached : (nm.cachedResponse cache systemNow event.request.method (nm.effectiveUrl event)).isSome = true

end NetworkManager

/-! ### The system -/

/-- A response with the method and the URL of the request that it answers. -/
structure StoredResponse where
  method : String
  url : String
  body : List UInt8

/-- Where a cached response comes from, and the credentials with which it was stored. -/
structure Origin where
  response : StoredResponse
  auth : Option String

inductive TaskEffect where
  | fetch (effect : FetchEffect)
  | listen (effect : ListenerEffect)
  | seed (effect : SeedEffect)

/-- A handler under way, with the request that its response answers and what it has left to do. -/
structure CacheTask where
  method : String
  url : String
  auth : Option String
  left : List TaskEffect

def CacheTask.origin (task : CacheTask) (body : List UInt8) : Origin := ⟨⟨task.method, task.url, body⟩, task.auth⟩

/-- A pause that was answered from a cache, with the response that was served. -/
structure Served where
  method : String
  url : String
  body : List UInt8
  source : Option StoredResponse

/-- The caches with the handlers that fill them. Where the entries come from and what was stored and served is recorded, and no handler reads it. -/
structure CacheSystem where
  session : SessionStore
  pending : Finset String
  disk : DiskCache
  remote : List (DumpJob × Origin)
  tasks : List CacheTask
  origins : Table (String × String) Origin
  diskOrigins : Table String Origin
  stored : List StoredResponse
  served : List Served

/-- A response is listened to, of a request with some method, or is paused at the response stage; a page is seeded with what the remote server has; a handler does the next thing; or a request is paused, for the manager or for the interceptor. -/
inductive CacheInput where
  | listen (world : ListenerWorld) (cacheSite : String) (event : EventResponseReceived) (details : ResponseDetails)
      (method : String) (auth : Option String) (cacheStrategy : Option CacheStrategy) (dumpRemote : Option String)
      (dumpReadonly : Bool)
  | stream (keys : KeyMaker) (world : FetchWorld) (event : EventRequestPaused) (stage : FetchStage)
      (auth : Option String) (cacheStrategy : Option CacheStrategy)
  | seed (keys : KeyMaker) (world : SeedWorld) (targetUrl : String) (auth ns : Option String)
      (payload : HybridCachePayload) (i : Nat)
  | resume (i : Nat) (order : List String)
  | pauseAtManager (nm : NetworkManager) (blockers : Blockers) (now systemNow : Instant) (event : EventRequestPaused)
  | pauseAtInterceptor (world : FetchWorld) (inTime : Bool) (systemNow : Instant) (event : EventRequestPaused)
      (stage : FetchStage) (auth : Option String) (policy : Option BasicCachePolicy)
      (cacheStrategy : Option CacheStrategy)

/-- The interceptor looks the pause up, and finds a cached response. -/
structure FetchHits (disk : DiskCache) (inTime : Bool) (systemNow : Instant) (event : EventRequestPaused)
    (stage : FetchStage) (auth : Option String) (policy : Option BasicCachePolicy)
    (cacheStrategy : Option CacheStrategy) : Prop where
  eligible : (!allowCacheResponse event.resourceType cacheStrategy || !startsWithHttp event.request.url) = false
  noError : stage.responseErrorReason.isSome = false
  cached : (getCachedUrlWithMetadata disk inTime systemNow event.request.url auth policy).isSome = true

namespace CacheSystem

def new : CacheSystem := ⟨⟨∅⟩, ∅, ∅, [], [], ∅, ∅, [], []⟩

/-- A response goes into the session cache. -/
def file (s : CacheSystem) (order : List String) (origin : Origin) (cacheSite : String) (entry : CacheEntry)
    (key : String) : CacheSystem :=
  { s with
    session := s.session.sessionCacheInsert order cacheSite entry key
    origins := if s.session.accepts cacheSite then s.origins.set (cacheSite, key) origin else s.origins }

def learn (s : CacheSystem) (response : StoredResponse) : CacheSystem := { s with stored := s.stored ++ [response] }

/-- The listener or the interceptor stores a response. -/
def store (s : CacheSystem) (order : List String) (origin : Origin) (cacheSite : String) (entry : CacheEntry)
    (key : String) : CacheSystem :=
  if s.session.accepts cacheSite then (s.learn origin.response).file order origin cacheSite entry key else s

/-- A handler does an effect. -/
def perform (s : CacheSystem) (order : List String) (task : CacheTask) : TaskEffect → CacheSystem
  | .fetch (.sessionCacheInsert cacheSite entry key) => s.store order (task.origin entry.1.body) cacheSite entry key
  | .fetch effect => { s with pending := effect.markers s.pending }
  | .listen (.sessionCacheInsert cacheSite entry key) => s.store order (task.origin entry.1.body) cacheSite entry key
  | .listen (.enqueue job) =>
    { s.learn (task.origin job.body).response with remote := s.remote ++ [(job, task.origin job.body)] }
  | .listen (.getResponseBody _) => s
  | .seed (.put key entry) =>
    { s with
      disk := s.disk.set key entry
      diskOrigins := s.diskOrigins.set key (task.origin entry.1.body) }
  | .seed (.sessionCacheInsert cacheKey entry key) => s.file order (task.origin entry.1.body) cacheKey entry key

def spawn (s : CacheSystem) (task : CacheTask) : CacheSystem := { s with tasks := s.tasks ++ [task] }

def serve (s : CacheSystem) (event : EventRequestPaused) (url : String) (source : Option Origin)
    (bodies : List (List UInt8)) : CacheSystem :=
  { s with
    served := s.served ++ bodies.map fun body => ⟨event.request.method, url, body, source.map Origin.response⟩ }

/-- The origin of the response under which the manager looks a pause up. -/
def sessionOrigin (s : CacheSystem) (nm : NetworkManager) (event : EventRequestPaused) : Option Origin :=
  s.origins.get (nm.cacheSiteKey.getD "", event.request.method ++ ":" ++ nm.effectiveUrl event)

/-- The origin of the response under which the interceptor looks a pause up. -/
def diskOrigin (s : CacheSystem) (event : EventRequestPaused) (auth : Option String) : Option Origin :=
  s.diskOrigins.get (createCacheKeyRaw event.request.url none auth)

def step (s : CacheSystem) : CacheInput → CacheSystem
  | .listen world cacheSite event details method auth cacheStrategy dumpRemote dumpReadonly =>
    let effects := handleSingleResponse world s.session s.pending cacheSite event details auth cacheStrategy
      dumpRemote dumpReadonly
    s.spawn ⟨method, event.response.url, auth, effects.map .listen⟩
  | .stream keys world event stage auth cacheStrategy =>
    let effects := handleFetchResponseStage keys world event stage auth cacheStrategy
    s.spawn ⟨event.request.method, event.request.url, auth, effects.map .fetch⟩
  | .seed keys world targetUrl auth ns payload i =>
    match s.remote[i]? with
    | some (job, origin) =>
      if payload.Carries world job then
        let effects := seedPayloadIntoLocalCache world (keys.siteKeyForTargetUrl targetUrl auth ns) payload targetUrl
        s.spawn ⟨origin.response.method, origin.response.url, origin.auth, effects.map .seed⟩
      else s
    | none => s
  | .resume i order =>
    match s.tasks[i]? with
    | some task =>
      match task.left with
      | effect :: rest =>
        if order.Perm s.session.sites.keys then
          { s.perform order task effect with tasks := s.tasks.set i { task with left := rest } }
        else s
      | [] => s
    | none => s
  | .pauseAtManager nm blockers now systemNow event =>
    let nm' := nm.onFetchRequestPaused blockers s.session.getSessionCacheItem now systemNow event
    s.serve event (nm.effectiveUrl event) (s.sessionOrigin nm event) (nm.servedBodies event.requestId nm')
  | .pauseAtInterceptor world inTime systemNow event stage auth policy cacheStrategy =>
    let cached := getCachedUrlWithMetadata s.disk inTime systemNow event.request.url auth policy
    let effects := handleFetchPaused { world with cachedUrlWithMetadata := cached } event stage cacheStrategy
    s.serve event event.request.url (s.diskOrigin event auth)
      (effects.filterMap (FetchEffect.servedBody event.requestId))

end CacheSystem

/-- What is served is the body of a stored response to a request of the same method and the same URL. -/
def Served.Respects (served : Served) (stored : List StoredResponse) : Prop :=
  ∃ response ∈ stored, served.source = some response ∧ response.body = served.body ∧
    response.method = served.method ∧ response.url = served.url

namespace CacheSystem

def RespectsMethods (s : CacheSystem) : Prop := ∀ served ∈ s.served, served.Respects s.stored

/-- Where the manager finds a cached response, the pause and the request that the response answered are `GET`s; where the interceptor finds one, the two have the same method and the same credentials. -/
def MethodsAgree (s : CacheSystem) : CacheInput → Prop
  | .pauseAtManager nm blockers _ systemNow event =>
    nm.Hits blockers s.session.getSessionCacheItem systemNow event →
      event.request.method = "GET" ∧
        ∃ origin, s.sessionOrigin nm event = some origin ∧ origin.response.method = "GET"
  | .pauseAtInterceptor _ inTime systemNow event stage auth policy cacheStrategy =>
    FetchHits s.disk inTime systemNow event stage auth policy cacheStrategy →
      ∃ origin, s.diskOrigin event auth = some origin ∧ origin.response.method = event.request.method ∧
        origin.auth = auth
  | _ => True

end CacheSystem

/-! ### What the handlers file -/

theorem getKey (url : String) : "GET" ++ ":" ++ url = "GET:" ++ url := rfl

theorem createCacheKeyRaw_auth {url : String} {auth auth' : Option String}
    (h : createCacheKeyRaw url none auth = createCacheKeyRaw url none auth') : auth = auth' := by
  have hlength := congrArg String.length h
  have hcolon : 0 < ":".length := by decide
  cases auth with
  | none =>
    cases auth' with
    | none => rfl
    | some a =>
      simp only [createCacheKeyRaw, String.length_append] at hlength
      omega
  | some a =>
    cases auth' with
    | none =>
      simp only [createCacheKeyRaw, String.length_append] at hlength
      omega
    | some a' =>
      rw [createCacheKeyRaw, createCacheKeyRaw] at h
      rw [(String.append_right_inj _).1 h]

theorem createCacheKeyRaw_url {url url' : String} {auth : Option String}
    (h : createCacheKeyRaw url none auth = createCacheKeyRaw url' none auth) : url = url' := by
  cases auth with
  | none => exact (String.append_right_inj _).1 h
  | some a =>
    rw [createCacheKeyRaw, createCacheKeyRaw] at h
    exact (String.append_right_inj _).1 ((String.append_left_inj _).1 ((String.append_left_inj _).1 h))

/-- What the effect files for a task, it files under `GET` and the URL of the task; what a seed files was stored before. -/
def TaskEffect.Fits (stored : List StoredResponse) (task : CacheTask) : TaskEffect → Prop
  | .fetch (.sessionCacheInsert _ _ key) => key = "GET:" ++ task.url
  | .listen (.sessionCacheInsert _ _ key) => key = "GET:" ++ task.url
  | .listen (.enqueue job) =>
    job.cacheKey = createCacheKeyRaw task.url none task.auth ∧ job.url = task.url ∧ job.method = "GET"
  | .seed (.put key entry) =>
    key = createCacheKeyRaw task.url none task.auth ∧ (task.origin entry.1.body).response ∈ stored
  | .seed (.sessionCacheInsert _ entry key) =>
    key = "GET:" ++ task.url ∧ (task.origin entry.1.body).response ∈ stored
  | _ => True

theorem TaskEffect.Fits.mono {stored stored' : List StoredResponse} {task : CacheTask} {effect : TaskEffect}
    (h : effect.Fits stored task) (hsub : stored ⊆ stored') : effect.Fits stored' task := by
  cases effect with
  | fetch effect =>
    cases effect with
    | _ => exact h
  | listen effect =>
    cases effect with
    | _ => exact h
  | seed effect =>
    cases effect with
    | _ => exact ⟨h.1, hsub h.2⟩

section Handlers

variable {stored : List StoredResponse} {task : CacheTask}

theorem fits_handleSingleResponse (world : ListenerWorld) (session : SessionStore) (pending : Finset String)
    (cacheSite : String) (event : EventResponseReceived) (details : ResponseDetails)
    (cacheStrategy : Option CacheStrategy) (dumpRemote : Option String) (dumpReadonly : Bool)
    (hurl : event.response.url = task.url) :
    ∀ effect ∈ handleSingleResponse world session pending cacheSite event details task.auth cacheStrategy dumpRemote
      dumpReadonly, (TaskEffect.listen effect).Fits stored task := by
  have hstore : ∀ body, ∀ effect ∈ cacheAndDump world cacheSite event details task.auth dumpRemote dumpReadonly body,
      (TaskEffect.listen effect).Fits stored task := by
    intro body
    rw [cacheAndDump, hurl]
    refine List.forall_mem_cons.2 ⟨getKey _, ?_⟩
    split
    · exact List.forall_mem_nil _
    · exact List.forall_mem_singleton.2 ⟨rfl, rfl, rfl⟩
  rw [handleSingleResponse]
  dsimp only
  split
  · exact List.forall_mem_nil _
  split
  · exact List.forall_mem_nil _
  split
  · exact List.forall_mem_nil _
  split
  · exact List.forall_mem_nil _
  refine List.forall_mem_cons.2 ⟨trivial, ?_⟩
  split
  · split
    · exact List.forall_mem_nil _
    · exact hstore _
  · exact List.forall_mem_nil _

theorem fits_cacheAndFulfill (keys : KeyMaker) (world : FetchWorld) (event : EventRequestPaused) (stage : FetchStage)
    (auth : Option String) (status : Int) (body : List UInt8) (hurl : event.request.url = task.url) :
    ∀ effect ∈ cacheAndFulfill keys world event stage auth status ("GET:" ++ event.request.url) body,
      (TaskEffect.fetch effect).Fits stored task := by
  rw [cacheAndFulfill, hurl]
  split
  · exact List.forall_mem_cons.2 ⟨trivial, List.forall_mem_singleton.2 trivial⟩
  · exact List.forall_mem_cons.2 ⟨trivial, List.forall_mem_cons.2 ⟨rfl, List.forall_mem_singleton.2 trivial⟩⟩

theorem fits_oneshot (world : FetchWorld) (event : EventRequestPaused) (dedupKey : String) :
    ∀ effect ∈ (fetchResponseBodyOneshot world event dedupKey).1, (TaskEffect.fetch effect).Fits stored task := by
  have hread : (TaskEffect.fetch (.getResponseBody event.requestId)).Fits stored task := trivial
  rw [fetchResponseBodyOneshot]
  split
  · split
    · split
      · exact List.forall_mem_singleton.2 hread
      · exact List.forall_mem_cons.2 ⟨hread, List.forall_mem_singleton.2 trivial⟩
    · exact List.forall_mem_singleton.2 hread
  · exact List.forall_mem_singleton.2 hread

theorem fits_handleFetchResponseStage (keys : KeyMaker) (world : FetchWorld) (event : EventRequestPaused)
    (stage : FetchStage) (auth : Option String) (cacheStrategy : Option CacheStrategy)
    (hurl : event.request.url = task.url) :
    ∀ effect ∈ handleFetchResponseStage keys world event stage auth cacheStrategy,
      (TaskEffect.fetch effect).Fits stored task := by
  have hsend : ∀ command, (TaskEffect.fetch (.send command)).Fits stored task := fun _ => trivial
  obtain heq | heq := handleFetchResponseStage_cases keys world event stage auth cacheStrategy
  · rw [heq]
    exact List.forall_mem_singleton.2 (hsend _)
  · rw [heq, streamAndFulfill]
    refine List.forall_mem_cons.2 ⟨trivial, List.forall_mem_cons.2 ⟨trivial, ?_⟩⟩
    split
    · exact fits_cacheAndFulfill keys world event stage auth _ _ hurl
    · refine List.forall_mem_append.2 ⟨fits_oneshot world event _, ?_⟩
      split
      · exact fits_cacheAndFulfill keys world event stage auth _ _ hurl
      · exact List.forall_mem_cons.2 ⟨trivial, List.forall_mem_singleton.2 (hsend _)⟩
    · exact List.forall_mem_cons.2 ⟨trivial, List.forall_mem_singleton.2 (hsend _)⟩

/-- A seed files what its job holds. -/
theorem fits_seedPayloadIntoLocalCache {world : SeedWorld} {payload : HybridCachePayload} {job : DumpJob}
    (hcarries : payload.Carries world job) (cacheKey targetUrl : String)
    (hkey : job.cacheKey = createCacheKeyRaw task.url none task.auth) (hurl : job.url = task.url)
    (hmethod : job.method = "GET") (hstored : (task.origin job.body).response ∈ stored) :
    ∀ effect ∈ seedPayloadIntoLocalCache world cacheKey payload targetUrl,
      (TaskEffect.seed effect).Fits stored task := by
  have hsession : payload.method ++ ":" ++ payload.url = "GET:" ++ task.url := by
    rw [hcarries.method, hmethod, hcarries.url, hurl, getKey]
  rw [seedPayloadIntoLocalCache]
  split
  · exact List.forall_mem_nil _
  split
  · exact List.forall_mem_nil _
  rw [hcarries.body, hcarries.normal]
  dsimp only
  split
  · split
    · exact List.forall_mem_cons.2 ⟨⟨hcarries.resourceKey.trans hkey, hstored⟩,
        List.forall_mem_singleton.2 ⟨hsession, hstored⟩⟩
    · exact List.forall_mem_nil _
  · exact List.forall_mem_singleton.2 ⟨hsession, hstored⟩

end Handlers

/-! ### What the caches hold -/

/-- The origin is that of a stored response with this body. -/
def Origin.Gives (origin : Origin) (stored : List StoredResponse) (body : List UInt8) : Prop :=
  origin.response ∈ stored ∧ origin.response.body = body

namespace CacheSystem

variable {s : CacheSystem}

/-- Every cached response has its origin on record, and its key says `GET` and the URL of the request that it answers. -/
structure Kept (s : CacheSystem) : Prop where
  session : ∀ site key entry, s.session.getSessionCacheItem site key = some entry →
    ∃ origin, s.origins.get (site, key) = some origin ∧ origin.Gives s.stored entry.1.body ∧
      key = "GET:" ++ origin.response.url
  disk : ∀ key entry, s.disk.get key = some entry →
    ∃ origin, s.diskOrigins.get key = some origin ∧ origin.Gives s.stored entry.1.body ∧
      key = createCacheKeyRaw origin.response.url none origin.auth
  remote : ∀ job origin, (job, origin) ∈ s.remote →
    origin.Gives s.stored job.body ∧ job.cacheKey = createCacheKeyRaw origin.response.url none origin.auth ∧
      job.url = origin.response.url ∧ job.method = "GET"
  tasks : ∀ task ∈ s.tasks, ∀ effect ∈ task.left, effect.Fits s.stored task

theorem kept_new : Kept new where
  session _ _ _ h := nomatch h
  disk _ _ h := nomatch h
  remote _ _ h := nomatch h
  tasks _ h := nomatch h

theorem Kept.learn (h : Kept s) (response : StoredResponse) : Kept (s.learn response) := by
  have hsub : s.stored ⊆ s.stored ++ [response] := List.subset_append_left _ _
  constructor
  · intro site key entry hitem
    obtain ⟨origin, horigin, hgives, hkey⟩ := h.session site key entry hitem
    exact ⟨origin, horigin, ⟨hsub hgives.1, hgives.2⟩, hkey⟩
  · intro key entry hget
    obtain ⟨origin, horigin, hgives, hkey⟩ := h.disk key entry hget
    exact ⟨origin, horigin, ⟨hsub hgives.1, hgives.2⟩, hkey⟩
  · intro job origin hmem
    obtain ⟨hgives, hjob⟩ := h.remote job origin hmem
    exact ⟨⟨hsub hgives.1, hgives.2⟩, hjob⟩
  · intro task htask effect heffect
    exact (h.tasks task htask effect heffect).mono hsub

theorem Kept.spawn (h : Kept s) {task : CacheTask} {Effect : Type} {wrap : Effect → TaskEffect}
    {effects : List Effect} (hleft : task.left = effects.map wrap)
    (hfits : ∀ effect ∈ effects, (wrap effect).Fits s.stored task) : Kept (s.spawn task) where
  session := h.session
  disk := h.disk
  remote := h.remote
  tasks := by
    refine List.forall_mem_append.2 ⟨h.tasks, List.forall_mem_singleton.2 ?_⟩
    rw [hleft]
    exact List.forall_mem_map.2 hfits

theorem Kept.file (h : Kept s) (order : List String) {origin : Origin} (cacheSite : String) {entry : CacheEntry}
    {key : String} (hgives : origin.Gives s.stored entry.1.body) (hkey : key = "GET:" ++ origin.response.url) :
    Kept (s.file order origin cacheSite entry key) where
  session site key' entry' hitem := by
    rw [CacheSystem.file]
    dsimp only
    obtain ⟨haccepts, heq, rfl⟩ | ⟨hold, hother⟩ := SessionStore.item_insert hitem
    · obtain ⟨rfl, rfl⟩ := Prod.mk.inj heq
      exact ⟨origin, by rw [if_pos haccepts, Table.get_set_self], hgives, hkey⟩
    · obtain ⟨origin', horigin, hrest⟩ := h.session site key' entry' hold
      refine ⟨origin', ?_, hrest⟩
      by_cases haccepts : s.session.accepts cacheSite = true
      · rw [if_pos haccepts, Table.get_set_of_ne _ _ fun heq => hother ⟨haccepts, heq⟩]
        exact horigin
      · rw [if_neg haccepts]
        exact horigin
  disk := h.disk
  remote := h.remote
  tasks := h.tasks

theorem Kept.store (h : Kept s) (order : List String) {origin : Origin} (cacheSite : String) {entry : CacheEntry}
    {key : String} (hbody : origin.response.body = entry.1.body) (hkey : key = "GET:" ++ origin.response.url) :
    Kept (s.store order origin cacheSite entry key) := by
  rw [CacheSystem.store]
  split
  · have hlearnt : origin.response ∈ (s.learn origin.response).stored :=
      List.mem_append_right _ (List.mem_singleton_self _)
    exact (h.learn origin.response).file order cacheSite ⟨hlearnt, hbody⟩ hkey
  · exact h

theorem Kept.perform (h : Kept s) (order : List String) {task : CacheTask} {effect : TaskEffect}
    (hfits : effect.Fits s.stored task) : Kept (s.perform order task effect) := by
  cases effect with
  | fetch effect =>
    cases effect with
    | sessionCacheInsert cacheSite entry key => exact h.store order cacheSite rfl hfits
    | _ => exact ⟨h.session, h.disk, h.remote, h.tasks⟩
  | listen effect =>
    cases effect with
    | getResponseBody requestId => exact h
    | sessionCacheInsert cacheSite entry key => exact h.store order cacheSite rfl hfits
    | enqueue job =>
      have hlearnt := h.learn (task.origin job.body).response
      refine ⟨hlearnt.session, hlearnt.disk, ?_, hlearnt.tasks⟩
      intro job' origin hmem
      obtain hold | hnew := List.mem_append.1 hmem
      · exact hlearnt.remote job' origin hold
      · obtain ⟨rfl, rfl⟩ := Prod.mk.inj (List.mem_singleton.1 hnew)
        exact ⟨⟨List.mem_append_right _ (List.mem_singleton_self _), rfl⟩, hfits⟩
  | seed effect =>
    cases effect with
    | put key entry =>
      refine ⟨h.session, ?_, h.remote, h.tasks⟩
      intro key' entry' hget
      rw [CacheSystem.perform] at hget ⊢
      dsimp only at hget ⊢
      rw [Table.get_set] at hget ⊢
      split at hget
      · rename_i heq
        rw [if_pos heq]
        obtain rfl := Option.some.inj hget
        exact ⟨_, rfl, ⟨hfits.2, rfl⟩, heq.trans hfits.1⟩
      · rename_i hne
        rw [if_neg hne]
        exact h.disk key' entry' hget
    | sessionCacheInsert cacheKey entry key => exact h.file order cacheKey ⟨hfits.2, rfl⟩ hfits.1

/-- Storing starts no task, serves nothing and forgets nothing. -/
structure Grows (s s' : CacheSystem) : Prop where
  tasks : s'.tasks = s.tasks
  served : s'.served = s.served
  stored : s.stored ⊆ s'.stored

theorem Grows.refl (s : CacheSystem) : Grows s s := ⟨rfl, rfl, List.Subset.refl _⟩

theorem grows_store (s : CacheSystem) (order : List String) (origin : Origin) (cacheSite : String)
    (entry : CacheEntry) (key : String) : Grows s (s.store order origin cacheSite entry key) := by
  rw [store]
  split
  · exact ⟨rfl, rfl, List.subset_append_left _ _⟩
  · exact .refl s

theorem grows_perform (s : CacheSystem) (order : List String) (task : CacheTask) (effect : TaskEffect) :
    Grows s (s.perform order task effect) := by
  cases effect with
  | fetch effect =>
    cases effect with
    | sessionCacheInsert cacheSite entry key => exact s.grows_store _ _ _ _ _
    | _ => exact ⟨rfl, rfl, List.Subset.refl _⟩
  | listen effect =>
    cases effect with
    | getResponseBody requestId => exact .refl s
    | sessionCacheInsert cacheSite entry key => exact s.grows_store _ _ _ _ _
    | enqueue job => exact ⟨rfl, rfl, List.subset_append_left _ _⟩
  | seed effect =>
    cases effect with
    | _ => exact ⟨rfl, rfl, List.Subset.refl _⟩

theorem fits_rest {stored : List StoredResponse} {task : CacheTask} {effect : TaskEffect} {rest : List TaskEffect}
    (h : effect.Fits stored task) : effect.Fits stored { task with left := rest } := by
  cases effect with
  | fetch effect =>
    cases effect with
    | _ => exact h
  | listen effect =>
    cases effect with
    | _ => exact h
  | seed effect =>
    cases effect with
    | _ => exact h

theorem Kept.step (h : Kept s) (input : CacheInput) : Kept (s.step input) := by
  cases input with
  | listen world cacheSite event details method auth cacheStrategy dumpRemote dumpReadonly =>
    apply h.spawn rfl
    exact @fits_handleSingleResponse _ ⟨method, event.response.url, auth, _⟩ world s.session s.pending cacheSite event
      details cacheStrategy dumpRemote dumpReadonly rfl
  | stream keys world event stage auth cacheStrategy =>
    apply h.spawn rfl
    exact fits_handleFetchResponseStage keys world event stage auth cacheStrategy rfl
  | seed keys world targetUrl auth ns payload i =>
    rw [CacheSystem.step]
    split
    · rename_i job origin hjob
      split
      · rename_i hcarries
        obtain ⟨hgives, hkey, hurl, hmethod⟩ := h.remote job origin (List.mem_of_getElem? hjob)
        apply h.spawn rfl
        apply fits_seedPayloadIntoLocalCache hcarries _ _ hkey hurl hmethod
        rw [CacheTask.origin, ← hgives.2]
        exact hgives.1
      · exact h
    · exact h
  | resume i order =>
    rw [CacheSystem.step]
    split
    · rename_i task htask
      have hmem := List.mem_of_getElem? htask
      split
      · rename_i effect rest hleft
        split
        · have hperformed := h.perform order (h.tasks task hmem effect (by rw [hleft]; exact List.mem_cons_self))
          have htasks : (s.perform order task effect).tasks = s.tasks := (s.grows_perform order task effect).tasks
          refine ⟨hperformed.session, hperformed.disk, hperformed.remote, ?_⟩
          intro task' htask' effect' heffect'
          obtain hold | rfl := List.mem_or_eq_of_mem_set htask'
          · exact hperformed.tasks task' (by rw [htasks]; exact hold) effect' heffect'
          · apply fits_rest
            apply hperformed.tasks task (by rw [htasks]; exact hmem)
            rw [hleft]
            exact List.mem_cons_of_mem _ heffect'
        · exact h
      · exact h
    · exact h
  | pauseAtManager nm blockers now systemNow event => exact ⟨h.session, h.disk, h.remote, h.tasks⟩
  | pauseAtInterceptor world inTime systemNow event stage auth policy cacheStrategy =>
    exact ⟨h.session, h.disk, h.remote, h.tasks⟩

end CacheSystem

/-! ### When a cache answers -/

namespace NetworkManager

variable {nm nm' : NetworkManager} {requestId : Fetch.RequestId}

theorem servedBody_of_not_answers {event : NetworkEvent} (h : event.answers requestId = false) :
    event.servedBody requestId = none := by
  cases event with
  | sendCdpRequest command =>
    cases command with
    | fulfillRequest id status body headers => exact if_neg (of_decide_eq_false h)
    | _ => rfl
  | _ => rfl

/-- After some bookkeeping a command is pushed: no other event that is new answers the pause. -/
theorem filterMap_pushCdpRequest (h : Answered requestId 0 nm nm') (command : NetworkCommand) {A : Type}
    {observe : NetworkEvent → Option A} (hobserve : ∀ event, event.answers requestId = false → observe event = none) :
    ((nm'.pushCdpRequest command).queuedEvents.drop nm.queuedEvents.length).filterMap observe =
      (observe (.sendCdpRequest command)).toList := by
  obtain ⟨added, hadded, hcount⟩ := h
  have hpushed : (nm'.pushCdpRequest command).queuedEvents =
      nm.queuedEvents ++ (added ++ [.sendCdpRequest command]) := by
    rw [← List.append_assoc, ← hadded]
    rfl
  have hquiet : added.filterMap observe = [] := by
    apply List.filterMap_eq_nil_iff.2
    intro event hmem
    have hnot := List.countP_eq_zero.1 hcount event hmem
    exact hobserve event (Bool.eq_false_iff.2 hnot)
  rw [hpushed, List.drop_left, List.filterMap_append, hquiet, List.nil_append]
  cases hseen : observe (.sendCdpRequest command) with
  | none => rw [List.filterMap_cons_none hseen, List.filterMap_nil, Option.toList_none]
  | some a => rw [List.filterMap_cons_some hseen, List.filterMap_nil, Option.toList_some]

/-- What a command that is pushed after some bookkeeping fulfills the pause with. -/
theorem servedBodies_pushCdpRequest (h : Answered requestId 0 nm nm') (command : NetworkCommand) :
    nm.servedBodies requestId (nm'.pushCdpRequest command) =
      ((NetworkEvent.sendCdpRequest command).servedBody requestId).toList :=
  filterMap_pushCdpRequest h command fun _ => servedBody_of_not_answers

/-- The books and the document have no say in which response is cached. -/
theorem cachedResponse_tracked (nm : NetworkManager) (now : Instant) (event : EventRequestPaused) :
    ((nm.reconcilePaused now event).tracked event).1.cachedResponse = nm.cachedResponse := by
  have hsame := nm.sameSettings_reconcilePaused now event
  funext cache systemNow method url
  rw [tracked_eq, hsame]
  rfl

/-- A pause that is not skipped is answered with the cached response, if there is one. -/
theorem servedBodies_answerPaused {event : EventRequestPaused} (h : Answered event.requestId 0 nm nm')
    (cache : SessionCache) (systemNow : Instant) (replacer : Option String) (skip : Bool) :
    nm.servedBodies event.requestId (nm'.answerPaused cache systemNow event replacer skip) =
      if skip then []
      else ((nm'.cachedResponse cache systemNow event.request.method
        (replacer.getD event.request.url)).map CachedResponse.body).toList := by
  rw [answerPaused]
  cases skip with
  | true => exact (servedBodies_pushCdpRequest h _).trans (by simp [NetworkEvent.servedBody])
  | false =>
    rw [if_neg Bool.false_ne_true, if_neg Bool.false_ne_true]
    cases nm'.cachedResponse cache systemNow event.request.method (replacer.getD event.request.url) with
    | some response => exact (servedBodies_pushCdpRequest h _).trans (by simp [NetworkEvent.servedBody])
    | none =>
      cases replacer with
      | none => exact servedBodies_pushCdpRequest h _
      | some url => exact servedBodies_pushCdpRequest h _

/-- A pause that hits is answered with the cached response, and no other pause is answered with a body. -/
theorem servedBodies_onFetchRequestPaused (nm : NetworkManager) (blockers : Blockers) (cache : SessionCache)
    (now systemNow : Instant) (event : EventRequestPaused) :
    (nm.Hits blockers cache systemNow event ∧ ∃ response,
      nm.cachedResponse cache systemNow event.request.method (nm.effectiveUrl event) = some response ∧
        nm.servedBodies event.requestId (nm.onFetchRequestPaused blockers cache now systemNow event) =
          [response.body]) ∨
      (¬ nm.Hits blockers cache systemNow event ∧
        nm.servedBodies event.requestId (nm.onFetchRequestPaused blockers cache now systemNow event) = []) := by
  cases huser : nm.userRequestInterceptionEnabled && nm.protocolRequestInterceptionEnabled with
  | true =>
    refine .inr ⟨fun hits => absurd (huser.symm.trans hits.own) nofun, ?_⟩
    rw [onFetchRequestPaused, if_pos huser, servedBodies, List.drop_length, List.filterMap_nil]
  | false =>
    cases hblock : nm.blockAll with
    | true =>
      refine .inr ⟨fun hits => absurd (hblock.symm.trans hits.running) nofun, ?_⟩
      rw [onFetchRequestPaused, huser, hblock]
      exact servedBodies_pushCdpRequest (answered_of_queuedEvents_eq rfl) _
    | false =>
      have hbooks : Answered event.requestId 0 nm ((nm.reconcilePaused now event).tracked event).1 :=
        (nm.reconcilePaused_answered now event).trans (answered_of_queuedEvents_eq
          (handleDocumentReplacementAndTracking_queuedEvents _ _ _))
      rw [nm.onFetchRequestPaused_of_open blockers cache now systemNow event huser hblock,
        servedBodies_answerPaused hbooks, nm.cachedResponse_tracked]
      cases hdecision : nm.decision blockers event with
      | true => exact .inr ⟨fun hits => absurd (hdecision.symm.trans hits.allowed) nofun, rfl⟩
      | false =>
        rw [if_neg Bool.false_ne_true, ← effectiveUrl]
        cases hcached : nm.cachedResponse cache systemNow event.request.method (nm.effectiveUrl event) with
        | none =>
          refine .inr ⟨fun hits => ?_, rfl⟩
          have hsome := hits.cached
          rw [hcached] at hsome
          cases hsome
        | some response => exact .inl ⟨⟨huser, hblock, hdecision, by rw [hcached]; rfl⟩, response, rfl, rfl⟩

theorem cachedResponse_some {cache : SessionCache} {systemNow : Instant} {method url : String}
    {response : CachedResponse} (h : nm.cachedResponse cache systemNow method url = some response) :
    ∃ isStale, cache (nm.cacheSiteKey.getD "") (method ++ ":" ++ url) = some (response, isStale) := by
  rw [cachedResponse] at h
  split at h
  · rename_i policy cacheSiteKey _ hkey
    rw [hkey]
    split at h
    · rename_i response' isStale hget
      split at h
      · rw [← Option.some.inj h]
        exact ⟨isStale, hget⟩
      · cases h
    · cases h
  · cases h

end NetworkManager

/-- What is found is what is stored on disk. -/
theorem getCachedUrlWithMetadata_entry {disk : DiskCache} {inTime : Bool} {systemNow : Instant} {url : String}
    {auth : Option String} {policy : Option BasicCachePolicy} {found : List UInt8 × List (String × String)}
    (h : getCachedUrlWithMetadata disk inTime systemNow url auth policy = some found) :
    ∃ entry, disk.get (createCacheKeyRaw url none auth) = some entry ∧
      (entry.1.body, NetworkManager.headersFromMulti entry.1.headers) = found := by
  rw [getCachedUrlWithMetadata] at h
  split at h
  · split at h
    · rename_i response isStale hget
      obtain ⟨-, heq⟩ := Option.ite_none_right_eq_some.1 h
      exact ⟨_, hget, Option.some.inj heq⟩
    · cases h
  · cases h

theorem getCachedUrlWithMetadata_some {disk : DiskCache} {inTime : Bool} {systemNow : Instant} {url : String}
    {auth : Option String} {policy : Option BasicCachePolicy} {body : List UInt8} {headers : List (String × String)}
    (h : getCachedUrlWithMetadata disk inTime systemNow url auth policy = some (body, headers)) :
    ∃ entry, disk.get (createCacheKeyRaw url none auth) = some entry ∧ entry.1.body = body := by
  obtain ⟨entry, hentry, hsame⟩ := getCachedUrlWithMetadata_entry h
  exact ⟨entry, hentry, (Prod.mk.inj hsame).1⟩

/-- A pause that hits the cache on disk is fulfilled with what is there, and no other pause is. -/
theorem servedBodies_handleFetchPaused (world : FetchWorld) (disk : DiskCache) (inTime : Bool) (systemNow : Instant)
    (event : EventRequestPaused) (stage : FetchStage) (auth : Option String) (policy : Option BasicCachePolicy)
    (cacheStrategy : Option CacheStrategy) :
    let cached := getCachedUrlWithMetadata disk inTime systemNow event.request.url auth policy
    let bodies := (handleFetchPaused { world with cachedUrlWithMetadata := cached } event stage cacheStrategy).filterMap
      (FetchEffect.servedBody event.requestId)
    (FetchHits disk inTime systemNow event stage auth policy cacheStrategy ∧
      ∃ body headers, cached = some (body, headers) ∧ bodies = [body]) ∨
      (¬ FetchHits disk inTime systemNow event stage auth policy cacheStrategy ∧ bodies = []) := by
  intro cached bodies
  dsimp only [bodies]
  rw [handleFetchPaused]
  split
  · rename_i hnot
    exact .inr ⟨fun hits => absurd (hits.eligible.symm.trans hnot) nofun, rfl⟩
  · rename_i heligible
    split
    · rename_i herror
      exact .inr ⟨fun hits => absurd (hits.noError.symm.trans herror) nofun, rfl⟩
    · rename_i herror
      cases hcached : cached with
      | some found =>
        have hsome : cached.isSome = true := by rw [hcached, Option.isSome_some]
        refine .inl ⟨⟨Bool.eq_false_iff.2 heligible, Bool.eq_false_iff.2 herror, hsome⟩, found.1, found.2, rfl, ?_⟩
        dsimp only
        exact List.filterMap_cons_some (if_pos rfl)
      | none =>
        refine .inr ⟨fun hits => ?_, rfl⟩
        have hsome : cached.isSome = true := hits.cached
        rw [hcached] at hsome
        cases hsome

namespace CacheSystem

variable {s : CacheSystem}

theorem Grows.respects {s' : CacheSystem} (h : Grows s s') (hrespects : s.RespectsMethods) : s'.RespectsMethods := by
  intro served hserved
  rw [h.served] at hserved
  obtain ⟨response, hmem, hrest⟩ := hrespects served hserved
  exact ⟨response, h.stored hmem, hrest⟩

theorem respects_serve_iff (hrespects : s.RespectsMethods) (event : EventRequestPaused) (url : String)
    (source : Option Origin) (bodies : List (List UInt8)) :
    (s.serve event url source bodies).RespectsMethods ↔
      ∀ body ∈ bodies, Served.Respects ⟨event.request.method, url, body, source.map Origin.response⟩ s.stored := by
  constructor
  · intro h body hbody
    exact h _ (List.mem_append_right _ (List.mem_map_of_mem hbody))
  · intro h
    exact List.forall_mem_append.2 ⟨hrespects, List.forall_mem_map.2 h⟩

/-- A body whose origin is known may be served for the method and the URL of the origin only. -/
theorem respects_of_gives {stored : List StoredResponse} {origin : Origin} {body : List UInt8}
    (h : origin.Gives stored body) (method url : String) :
    Served.Respects ⟨method, url, body, some origin.response⟩ stored ↔
      origin.response.method = method ∧ origin.response.url = url := by
  constructor
  · intro ⟨response, _, hsource, _, hmethod, hurl⟩
    rw [Option.some.inj hsource]
    exact ⟨hmethod, hurl⟩
  · intro ⟨hmethod, hurl⟩
    exact ⟨origin.response, h.1, rfl, h.2, hmethod, hurl⟩

/-- Under its own key, a pause finds the response to a request of its method and its URL just when both are `GET`s. -/
theorem session_key_iff {method url : String} {response : StoredResponse}
    (hkey : method ++ ":" ++ url = "GET:" ++ response.url) :
    response.method = method ∧ response.url = url ↔ method = "GET" ∧ response.method = "GET" := by
  rw [← getKey] at hkey
  constructor
  · intro ⟨hmethod, hurl⟩
    rw [hurl] at hkey
    have hget : method = "GET" := (String.append_left_inj _).1 ((String.append_left_inj _).1 hkey)
    exact ⟨hget, hmethod.trans hget⟩
  · intro ⟨hget, hmethod⟩
    rw [hget] at hkey
    exact ⟨hmethod.trans hget.symm, ((String.append_right_inj _).1 hkey).symm⟩

theorem respects_pauseAtManager (h : Kept s) (hrespects : s.RespectsMethods) (nm : NetworkManager)
    (blockers : Blockers) (now systemNow : Instant) (event : EventRequestPaused) :
    (s.step (.pauseAtManager nm blockers now systemNow event)).RespectsMethods ↔
      s.MethodsAgree (.pauseAtManager nm blockers now systemNow event) := by
  rw [step, respects_serve_iff hrespects, MethodsAgree]
  obtain ⟨hits, response, hcached, hbodies⟩ | ⟨hmisses, hbodies⟩ :=
    nm.servedBodies_onFetchRequestPaused blockers s.session.getSessionCacheItem now systemNow event
  · obtain ⟨isStale, hitem⟩ := NetworkManager.cachedResponse_some hcached
    obtain ⟨origin, horigin, hgives, hkey⟩ := h.session _ _ _ hitem
    have hfound : s.sessionOrigin nm event = some origin := horigin
    rw [hbodies, List.forall_mem_singleton, hfound, Option.map_some, respects_of_gives hgives, session_key_iff hkey]
    constructor
    · intro ⟨hget, hmethod⟩ _
      exact ⟨hget, origin, rfl, hmethod⟩
    · intro hagree
      obtain ⟨hget, origin', heq, hmethod⟩ := hagree hits
      rw [← Option.some.inj heq] at hmethod
      exact ⟨hget, hmethod⟩
  · rw [hbodies]
    exact iff_of_true (List.forall_mem_nil _) fun hits => absurd hits hmisses

theorem respects_pauseAtInterceptor (h : Kept s) (hrespects : s.RespectsMethods) (world : FetchWorld) (inTime : Bool)
    (systemNow : Instant) (event : EventRequestPaused) (stage : FetchStage) (auth : Option String)
    (policy : Option BasicCachePolicy) (cacheStrategy : Option CacheStrategy) :
    (s.step (.pauseAtInterceptor world inTime systemNow event stage auth policy cacheStrategy)).RespectsMethods ↔
      s.MethodsAgree (.pauseAtInterceptor world inTime systemNow event stage auth policy cacheStrategy) := by
  rw [step, respects_serve_iff hrespects, MethodsAgree]
  obtain ⟨hits, body, headers, hcached, hbodies⟩ | ⟨hmisses, hbodies⟩ :=
    servedBodies_handleFetchPaused world s.disk inTime systemNow event stage auth policy cacheStrategy
  · obtain ⟨entry, hentry, rfl⟩ := getCachedUrlWithMetadata_some hcached
    obtain ⟨origin, horigin, hgives, hkey⟩ := h.disk _ _ hentry
    have hfound : s.diskOrigin event auth = some origin := horigin
    rw [hbodies, List.forall_mem_singleton, hfound, Option.map_some, respects_of_gives hgives]
    constructor
    · intro ⟨hmethod, hurl⟩ _
      rw [hurl] at hkey
      exact ⟨origin, rfl, hmethod, (createCacheKeyRaw_auth hkey).symm⟩
    · intro hagree
      obtain ⟨origin', heq, hmethod, hauth⟩ := hagree hits
      rw [← Option.some.inj heq] at hmethod hauth
      rw [hauth] at hkey
      exact ⟨hmethod, (createCacheKeyRaw_url hkey).symm⟩
  · rw [hbodies]
    exact iff_of_true (List.forall_mem_nil _) fun hits => absurd hits hmisses

theorem respects_step_iff (h : Kept s) (hrespects : s.RespectsMethods) (input : CacheInput) :
    (s.step input).RespectsMethods ↔ s.MethodsAgree input := by
  cases input with
  | listen world cacheSite event details method auth cacheStrategy dumpRemote dumpReadonly =>
    exact iff_of_true hrespects trivial
  | stream keys world event stage auth cacheStrategy => exact iff_of_true hrespects trivial
  | seed keys world targetUrl auth ns payload i =>
    refine iff_of_true ?_ trivial
    rw [step]
    split
    · split
      · exact hrespects
      · exact hrespects
    · exact hrespects
  | resume i order =>
    refine iff_of_true ?_ trivial
    rw [step]
    split
    · rename_i task htask
      split
      · rename_i effect rest hleft
        split
        · exact (s.grows_perform order task effect).respects hrespects
        · exact hrespects
      · exact hrespects
    · exact hrespects
  | pauseAtManager nm blockers now systemNow event =>
    exact respects_pauseAtManager h hrespects nm blockers now systemNow event
  | pauseAtInterceptor world inTime systemNow event stage auth policy cacheStrategy =>
    exact respects_pauseAtInterceptor h hrespects world inTime systemNow event stage auth policy cacheStrategy

/-- Whatever is stored and seeded and however the handlers take turns, in every state of a run all that was served was stored for the method and the URL it was served for, if and only if at every pause that finds a cached response the two requests are `GET`s, or, for the interceptor, have the same method and the same credentials. -/
theorem respects_methods_iff (inputs : List CacheInput) :
    Always step RespectsMethods new inputs ↔ Allowed step MethodsAgree new inputs := by
  have hnew : new.RespectsMethods := nofun
  apply always_iff_allowed (fun s _ => Kept s)
  · intro s input rest h
    exact h.step input
  · intro s input rest h hrespects
    exact respects_step_iff h hrespects input
  · exact kept_new
  · exact hnew

end CacheSystem

/-! ### A login -/

/-- The page that a login leads to. -/
def sampleLogin : EventResponseReceived where
  requestId := ⟨"1"⟩
  response := ⟨"https://example.com/login", 200, .object []⟩
  encodedDataLength := 7

def sampleListenerWorld : ListenerWorld where
  responseBody := some ⟨"welcome", false⟩
  decodeBase64 _ := none
  printJson _ := ""
  iterate _ := []
  cachePolicy _ _ _ _ _ := false

/-- The page is listened to, as the response to a request with the method, and cached. -/
def sampleListen (method : String) : List CacheInput :=
  [.listen sampleListenerWorld sampleSite sampleLogin ⟨.document, 7, none⟩ method none none none false,
    .resume 0 [], .resume 0 []]

def samplePaused (method : String) : EventRequestPaused where
  requestId := ⟨"2"⟩
  request := ⟨"https://example.com/login", method, none⟩
  resourceType := .document
  networkId := none
  redirectedRequestId := none

/-- The page that was posted for is asked for with a `GET`. -/
def samplePosted : List CacheInput :=
  sampleListen "POST" ++ [.pauseAtManager sampleReader .none 0 0 (samplePaused "GET")]

def sampleSeedWorld : SeedWorld where
  decodeBase64 _ := some (textBytes "welcome")
  parseUri _ := true
  parseUrl url := some url
  iterate _ := []
  cachePolicy _ _ := false
  putSucceeds := true

def samplePayload : HybridCachePayload where
  resourceKey := "GET:https://example.com/login"
  url := "https://example.com/login"
  method := "GET"
  status := 200
  requestHeaders := ∅
  responseHeaders := ∅
  bodyBase64 := "d2VsY29tZQ=="

/-- The page that was asked for with a `GET` is dumped and seeded, and then it is posted to. -/
def sampleGot : List CacheInput :=
  sampleListen "GET" ++
    [.resume 0 [sampleSite],
      .seed sampleKeys sampleSeedWorld "https://example.com/login" none none samplePayload 0, .resume 1 [sampleSite],
      .pauseAtInterceptor sampleWorld true 0 (samplePaused "POST") ⟨none, none, none, []⟩ none none none]

/-- The answer to a `POST` is replayed for a `GET`, and the answer to a `GET` for a `POST`. -/
theorem CacheSystem.mixes_methods :
    (final step new samplePosted).served.map (fun served => (served.method, served.source.map StoredResponse.method)) =
        [("GET", some "POST")] ∧
      (final step new sampleGot).served.map (fun served => (served.method, served.source.map StoredResponse.method)) =
        [("POST", some "GET")] ∧
      ¬ ∀ inputs, Always step RespectsMethods new inputs := by
  have hserved : (final step new samplePosted).served.map
      (fun served => (served.method, served.source.map StoredResponse.method)) = [("GET", some "POST")] := by
    decide +kernel
  have hstored : (final step new samplePosted).stored.map StoredResponse.method = ["POST"] := by decide +kernel
  refine ⟨hserved, by decide +kernel, fun hall => ?_⟩
  have hpair : ("GET", some "POST") ∈ (final step new samplePosted).served.map
      fun served => (served.method, served.source.map StoredResponse.method) := by
    rw [hserved]
    exact List.mem_singleton_self _
  obtain ⟨served, hmem, heq⟩ := List.mem_map.1 hpair
  obtain ⟨response, hresponse, -, -, hmethod, -⟩ := (hall samplePosted).last served hmem
  have hposted : response.method ∈ (final step new samplePosted).stored.map StoredResponse.method :=
    List.mem_map_of_mem hresponse
  rw [hstored, List.mem_singleton, hmethod, (Prod.mk.inj heq).1] at hposted
  exact absurd hposted (by decide)

end SpiderChrome
