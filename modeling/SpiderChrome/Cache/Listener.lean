import SpiderChrome.Cache.Interceptor

/-!
# The response listener and the cache on disk

What `cache/manager.rs` does with a response of which the `Network` domain tells, and how `cache/remote.rs` brings what the listener has dumped into the cache on disk. The remote server keeps what it is given, and the pages of later runs are seeded with it. As for the interceptor, what others reply is given from the start.
-/

namespace SpiderChrome

/-- The key of a resource on disk. -/
def createCacheKeyRaw (uri : String) (overrideMethod auth : Option String) : String :=
  let method := overrideMethod.getD "GET"
  match auth with
  | some a => method ++ ":" ++ uri ++ ":" ++ a
  | none => method ++ ":" ++ uri

/-! ### The listener -/

/-- What of a response event only the listener reads; here the length of the data is not cast. -/
structure ResponseDetails where
  type : ResourceType
  encodedDataLength : Rat
  requestHeaders : Option Value

/-- What the listener is told by others. `printJson` is the text of a JSON value. -/
structure ListenerWorld where
  responseBody : Option ResponseBody
  decodeBase64 : String → Option (List UInt8)
  printJson : Value → String
  iterate : Table String String → List (String × String)
  cachePolicy : String → List (String × String) → Int → List (String × String) → Instant → Bool

/-- A response on its way to the remote server. -/
structure DumpJob where
  cacheKey : String
  cacheSite : String
  url : String
  method : String
  status : UInt16
  requestHeaders : Table String String
  responseHeaders : Table String String
  body : List UInt8
  dumpRemote : Option String

/-- What the listener does. A job for which the queue has no room is lost. -/
inductive ListenerEffect where
  | getResponseBody (requestId : Network.RequestId)
  | sessionCacheInsert (cacheSite : String) (entry : CacheEntry) (key : String)
  | enqueue (job : DumpJob)

def defaultMethod : String := "GET"

def headersToStringMap (printJson : Value → String) : Value → Table String String
  | .object fields => fields.foldl (fun out field => out.set field.1 (field.2.asStr.getD (printJson field.2))) ∅
  | _ => ∅

/-- The body, unless the browser does not give it or it does not decode. -/
def ListenerWorld.body (world : ListenerWorld) : Option (List UInt8) :=
  world.responseBody.bind fun ret =>
    if ret.base64Encoded then world.decodeBase64 ret.body else some (textBytes ret.body)

/-- What becomes of a body that was read: it goes into the session cache and, unless the cache is only to be read, to the remote server. -/
def cacheAndDump (world : ListenerWorld) (cacheSite : String) (event : EventResponseReceived)
    (details : ResponseDetails) (auth dumpRemote : Option String) (dumpReadonly : Bool) (body : List UInt8) :
    List ListenerEffect :=
  let url := event.response.url
  let respHeaders := headersToStringMap world.printJson event.response.headers
  let reqHeaders := (details.requestHeaders.map (headersToStringMap world.printJson)).getD ∅
  let status := UInt16.ofInt event.response.status
  let response : CachedResponse :=
    { body := body, headers := (world.iterate respHeaders).map fun header => (header.1, [header.2]), status := status }
  let isStale := world.cachePolicy url (world.iterate reqHeaders) status.toNat (world.iterate respHeaders)
  let job : DumpJob :=
    { cacheKey := createCacheKeyRaw url (some defaultMethod) auth, cacheSite := cacheSite, url := url
      method := defaultMethod, status := status, requestHeaders := reqHeaders, responseHeaders := respHeaders
      body := body, dumpRemote := dumpRemote }
  .sessionCacheInsert cacheSite (response, isStale) (defaultMethod ++ ":" ++ url) ::
    if dumpReadonly then [] else [.enqueue job]

/-- The event does not tell the method of the request. -/
def handleSingleResponse (world : ListenerWorld) (session : SessionStore) (pending : Finset String)
    (cacheSite : String) (event : EventResponseReceived) (details : ResponseDetails) (auth : Option String)
    (cacheStrategy : Option CacheStrategy) (dumpRemote : Option String) (dumpReadonly : Bool) :
    List ListenerEffect :=
  let url := event.response.url
  if !startsWithHttp url then []
  else
    let eligibleForCache := decide (details.type = .document) || allowCacheResponse details.type cacheStrategy
    if !eligibleForCache || decide (details.encodedDataLength = 0) then []
    else
      let currentUrl := defaultMethod ++ ":" ++ url
      if session.checkSessionCacheItem cacheSite currentUrl then []
      else if currentUrl ∈ pending then []
      else
        .getResponseBody event.requestId ::
          match world.body with
          | some body =>
            if isBodyEmptyForCache body then []
            else cacheAndDump world cacheSite event details auth dumpRemote dumpReadonly body
          | none => []

/-! ### The cache on disk -/

/-- `CACACHE_MANAGER`. -/
abbrev DiskCache := Table String CacheEntry

/-- `inTime` is whether the disk replies within the timeout. -/
def getCachedUrlWithMetadata (disk : DiskCache) (inTime : Bool) (systemNow : Instant) (targetUrl : String)
    (auth : Option String) (policy : Option BasicCachePolicy) : Option (List UInt8 × List (String × String)) :=
  if inTime then
    match disk.get (createCacheKeyRaw targetUrl none auth) with
    | some (response, isStale) =>
      let allow := match policy with
        | some .allowStale => true
        | some (.period now) => !isStale now
        | _ => !isStale systemNow
      if allow then some (response.body, NetworkManager.headersFromMulti response.headers) else none
    | none => none
  else none

/-- A response as the remote server gives it back. -/
structure HybridCachePayload where
  resourceKey : String
  url : String
  method : String
  status : UInt16
  requestHeaders : Table String String
  responseHeaders : Table String String
  bodyBase64 : String

/-- What seeding is told by others. `parseUri` is whether the text is a URI, `parseUrl` gives the text of the parsed URL, and `cachePolicy` is made of the request and the response of the payload. -/
structure SeedWorld where
  decodeBase64 : String → Option (List UInt8)
  parseUri : String → Bool
  parseUrl : String → Option String
  iterate : Table String String → List (String × String)
  cachePolicy : HybridCachePayload → Instant → Bool
  putSucceeds : Bool

inductive SeedEffect where
  | put (key : String) (entry : CacheEntry)
  | sessionCacheInsert (cacheKey : String) (entry : CacheEntry) (key : String)

/-- Only the document for which the cache is seeded goes to disk. -/
def seedPayloadIntoLocalCache (world : SeedWorld) (cacheKey : String) (payload : HybridCachePayload)
    (targetUrl : String) : List SeedEffect :=
  if payload.bodyBase64 = "" then []
  else if !world.parseUri payload.url then []
  else
    match world.decodeBase64 payload.bodyBase64, world.parseUrl payload.url with
    | some body, some url =>
      let response : CachedResponse :=
        { body := body, headers := (world.iterate payload.responseHeaders).map fun header => (header.1, [header.2])
          status := payload.status }
      let entry : CacheEntry := (response, world.cachePolicy payload)
      let insert := SeedEffect.sessionCacheInsert cacheKey entry (payload.method ++ ":" ++ url)
      if payload.url = targetUrl then
        if world.putSucceeds then [.put payload.resourceKey entry, insert] else []
      else [insert]
    | _, _ => []

/-- The payload is what the remote server makes of a job, and its URL is written as `Url` writes it. -/
structure HybridCachePayload.Carries (payload : HybridCachePayload) (world : SeedWorld) (job : DumpJob) : Prop where
  resourceKey : payload.resourceKey = job.cacheKey
  url : payload.url = job.url
  method : payload.method = job.method
  body : world.decodeBase64 payload.bodyBase64 = some job.body
  normal : world.parseUrl payload.url = some payload.url

instance (payload : HybridCachePayload) (world : SeedWorld) (job : DumpJob) :
    Decidable (payload.Carries world job) :=
  decidable_of_iff
    (payload.resourceKey = job.cacheKey ∧ payload.url = job.url ∧ payload.method = job.method ∧
      world.decodeBase64 payload.bodyBase64 = some job.body ∧ world.parseUrl payload.url = some payload.url)
    ⟨fun ⟨hkey, hurl, hmethod, hbody, hnormal⟩ => ⟨hkey, hurl, hmethod, hbody, hnormal⟩,
      fun h => ⟨h.resourceKey, h.url, h.method, h.body, h.normal⟩⟩

end SpiderChrome
