import SpiderChrome.Cache.Navigation
import SpiderChrome.Network.Events
import Mathlib.Data.List.Infix

/-!
# The streaming interceptor

What `cache/manager.rs` does with a paused request. The replies of the browser and of other packages are given from the start, so that a handler is the list of what it does, in order, with whatever they are. Between any two of these other tasks may run.
-/

namespace SpiderChrome

/-- What of a pause only the interceptor reads: the response, if there is one, and the headers of the request. -/
structure FetchStage where
  responseErrorReason : Option String
  responseStatusCode : Option Int
  responseHeaders : Option (List (String × String))
  requestHeaders : List (String × String)

/-- The body of a response taken as a stream. -/
inductive StreamResult where
  | ok (body : List UInt8)
  | notStarted
  | partialBody (body : List UInt8)

/-- The result of `Fetch.getResponseBody`. -/
structure ResponseBody where
  body : String
  base64Encoded : Bool

/-- What the handlers are told by others. The headers of a cached response and of a map are in the order in which the map is iterated. -/
structure FetchWorld where
  activePageCount : Nat
  cachedUrlWithMetadata : Option (List UInt8 × List (String × String))
  responseBodyAsStream : StreamResult
  responseBody : Option ResponseBody
  decodeBase64 : String → Option (List UInt8)
  iterate : Table String String → List (String × String)
  cachePolicy : String → List (String × String) → Int → List (String × String) → Instant → Bool

/-- What a handler does. A body is read with a command that it waits for. -/
inductive FetchEffect where
  | send (command : NetworkCommand)
  | takeResponseBodyAsStream (requestId : Fetch.RequestId)
  | getResponseBody (requestId : Fetch.RequestId)
  | markStreamPending (key : String)
  | clearStreamPending (key : String)
  | sessionCacheInsert (cacheSite : String) (entry : CacheEntry) (key : String)

/-! ### Bodies -/

def isAsciiWhitespace (b : UInt8) : Bool := b = 32 ∨ b = 9 ∨ b = 10 ∨ b = 12 ∨ b = 13

def trimAscii (bytes : List UInt8) : List UInt8 :=
  ((bytes.dropWhile isAsciiWhitespace).reverse.dropWhile isAsciiWhitespace).reverse

def lowercaseByte (b : UInt8) : UInt8 := if 65 ≤ b ∧ b ≤ 90 then b + 32 else b

/-- `memmem::find`. -/
def findBytes (haystack needle : List UInt8) : Option Nat := haystack.tails.findIdx? needle.isPrefixOf

def textBytes (s : String) : List UInt8 := s.toUTF8.data.toList

def isBodyEmptyForCache (body : List UInt8) : Bool :=
  let trimmed := trimAscii body
  if trimmed.isEmpty then true
  else if trimmed.head? ≠ some 60 then false
  else if trimmed = textBytes "<html><head></head><body></body></html>" ∨ trimmed = textBytes "<html></html>" then true
  else if trimmed.length ≤ 2048 then
    let lower := trimmed.map lowercaseByte
    let content := do
      let bodyOpen ← findBytes lower (textBytes "<body")
      let gt ← (lower.drop bodyOpen).findIdx? (· = 62)
      let contentStart := bodyOpen + gt + 1
      let close ← findBytes (lower.drop contentStart) (textBytes "</body>")
      pure ((trimmed.drop contentStart).take close)
    content.any fun bytes => bytes.all isAsciiWhitespace
  else false

/-! ### The decision to stream -/

def allowCacheResponse (resourceType : ResourceType) (cacheStrategy : Option CacheStrategy) : Bool :=
  let isData := isDataResource resourceType
  let isMediaLike := resourceType = .image ∨ resourceType = .media ∨ resourceType = .font
  match cacheStrategy.getD .scraping with
  | .scraping => !isData && !isMediaLike
  | .screenshots => !isData

def baseStreamingThreshold : Nat := 2097152

def minStreamingThreshold : Nat := 524288

def highPressurePages : Nat := 128

def streamingThresholdBytes (activePageCount : Nat) : Nat :=
  if activePageCount ≥ highPressurePages then minStreamingThreshold
  else
    let range := baseStreamingThreshold - minStreamingThreshold
    baseStreamingThreshold - range * activePageCount / highPressurePages

def eqIgnoreAsciiCase (s t : String) : Bool := s.toList.map Char.toLower = t.toList.map Char.toLower

/-- Where two names of the header differ only in case, the first one in the order of the map decides. -/
def contentLengthFromHeaders (headers : List (String × String)) : Option Nat :=
  (headers.find? fun header => eqIgnoreAsciiCase header.1 "content-length").bind fun header =>
    (NetworkManager.parseU64 header.2.toList).map UInt64.toNat

def responseHeadersFromEvent (world : FetchWorld) (stage : FetchStage) : List (String × String) :=
  world.iterate ((stage.responseHeaders.getD []).foldl (fun map header => map.set header.1 header.2) ∅)

def startsWithHttp (url : String) : Bool := "http".toList.isPrefixOf url.toList

def continueRequest (event : EventRequestPaused) : FetchEffect := .send (.continueRequest event.requestId none none)

def fulfillRequest (event : EventRequestPaused) (status : Int) (body : List UInt8) (headers : List (String × String)) :
    FetchEffect :=
  .send (.fulfillRequest event.requestId status (some body) (some headers))

/-! ### The handlers -/

/-- The request stage: a cached response answers the request, or it goes on. -/
def handleFetchPaused (world : FetchWorld) (event : EventRequestPaused) (stage : FetchStage)
    (cacheStrategy : Option CacheStrategy) : List FetchEffect :=
  if !allowCacheResponse event.resourceType cacheStrategy || !startsWithHttp event.request.url then
    [continueRequest event]
  else if stage.responseErrorReason.isSome then [continueRequest event]
  else
    match world.cachedUrlWithMetadata with
    | some (body, metadata) => [fulfillRequest event 200 body metadata]
    | none => [continueRequest event]

/-- What it does, and the body. -/
def fetchResponseBodyOneshot (world : FetchWorld) (event : EventRequestPaused) (dedupKey : String) :
    List FetchEffect × Option (List UInt8) :=
  match world.responseBody with
  | some ret =>
    if ret.base64Encoded then
      match world.decodeBase64 ret.body with
      | some body => ([.getResponseBody event.requestId], some body)
      | none => ([.getResponseBody event.requestId, .clearStreamPending dedupKey], none)
    else ([.getResponseBody event.requestId], some (textBytes ret.body))
  | none => ([.getResponseBody event.requestId], none)

/-- The end of the response stage when the whole body was read. -/
def cacheAndFulfill (keys : KeyMaker) (world : FetchWorld) (event : EventRequestPaused) (stage : FetchStage)
    (auth : Option String) (status : Int) (dedupKey : String) (body : List UInt8) : List FetchEffect :=
  let respHeaders := responseHeadersFromEvent world stage
  let fulfill := fulfillRequest event status body respHeaders
  if isBodyEmptyForCache body then [.clearStreamPending dedupKey, fulfill]
  else
    let response : CachedResponse :=
      { body := body, headers := respHeaders.map fun header => (header.1, [header.2])
        status := UInt16.ofNat status.toNat }
    let isStale := world.cachePolicy event.request.url stage.requestHeaders status respHeaders
    [.clearStreamPending dedupKey,
      .sessionCacheInsert (streamedSite keys auth event.request.url) (response, isStale) dedupKey, fulfill]

/-- Only a response that is known to be large is streamed. -/
def shouldStream (world : FetchWorld) (stage : FetchStage) : Bool :=
  match contentLengthFromHeaders (responseHeadersFromEvent world stage) with
  | some len => decide (len ≥ streamingThresholdBytes world.activePageCount)
  | none => false

/-- The response stage from the mark on. -/
def streamAndFulfill (keys : KeyMaker) (world : FetchWorld) (event : EventRequestPaused) (stage : FetchStage)
    (auth : Option String) (status : Int) : List FetchEffect :=
  let dedupKey := "GET:" ++ event.request.url
  .markStreamPending dedupKey :: .takeResponseBodyAsStream event.requestId ::
    match world.responseBodyAsStream with
    | .ok body => cacheAndFulfill keys world event stage auth status dedupKey body
    | .notStarted =>
      let (effects, body) := fetchResponseBodyOneshot world event dedupKey
      effects ++ match body with
        | some body => cacheAndFulfill keys world event stage auth status dedupKey body
        | none => [.clearStreamPending dedupKey, continueRequest event]
    | .partialBody body =>
      [.clearStreamPending dedupKey, fulfillRequest event status body (responseHeadersFromEvent world stage)]

/-- The response stage: the body of a large response is read, cached and given to the request. -/
def handleFetchResponseStage (keys : KeyMaker) (world : FetchWorld) (event : EventRequestPaused) (stage : FetchStage)
    (auth : Option String) (cacheStrategy : Option CacheStrategy) : List FetchEffect :=
  let status := stage.responseStatusCode.getD 0
  if stage.responseErrorReason.isSome then [continueRequest event]
  else if !allowCacheResponse event.resourceType cacheStrategy || !startsWithHttp event.request.url then
    [continueRequest event]
  else if ¬ (200 ≤ status ∧ status < 400) then [continueRequest event]
  else if !shouldStream world stage then [continueRequest event]
  else streamAndFulfill keys world event stage auth status

/-- The response stage lets a response go on, or streams it. -/
theorem handleFetchResponseStage_cases (keys : KeyMaker) (world : FetchWorld) (event : EventRequestPaused)
    (stage : FetchStage) (auth : Option String) (cacheStrategy : Option CacheStrategy) :
    handleFetchResponseStage keys world event stage auth cacheStrategy = [continueRequest event] ∨
      handleFetchResponseStage keys world event stage auth cacheStrategy =
        streamAndFulfill keys world event stage auth (stage.responseStatusCode.getD 0) := by
  rw [handleFetchResponseStage]
  split
  · exact .inl rfl
  split
  · exact .inl rfl
  split
  · exact .inl rfl
  split
  · exact .inl rfl
  · exact .inr rfl

/-- The loop of the interceptor: a pause with a response goes to the worker, another one is handled on the spot. -/
def interceptorEffects (keys : KeyMaker) (world : FetchWorld) (event : EventRequestPaused) (stage : FetchStage)
    (auth : Option String) (cacheStrategy : Option CacheStrategy) : List FetchEffect :=
  if stage.responseStatusCode.isSome then handleFetchResponseStage keys world event stage auth cacheStrategy
  else handleFetchPaused world event stage cacheStrategy

/-! ### A large script -/

/-- A script of 2 MiB that is read as a stream; its body is shortened here. -/
def sampleWorld : FetchWorld where
  activePageCount := 1
  cachedUrlWithMetadata := none
  responseBodyAsStream := .ok [120]
  responseBody := none
  decodeBase64 _ := none
  iterate map := map.keys.filterMap fun name => (map.get name).map fun value => (name, value)
  cachePolicy _ _ _ _ _ := false

def samplePause (id : String) : EventRequestPaused where
  requestId := ⟨id⟩
  request := ⟨"https://example.com/a.js", "GET", none⟩
  resourceType := .script
  networkId := none
  redirectedRequestId := none

def sampleStage : FetchStage := ⟨none, some 200, some [("Content-Length", "2097152")], []⟩

end SpiderChrome
