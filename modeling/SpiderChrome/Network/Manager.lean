import SpiderChrome.Cdp.Fetch
import SpiderChrome.Library.Table
import SpiderChrome.Network.Url
import Mathlib.Data.Finset.Basic

/-!
# The network manager

The bookkeeping of requests and the decision what becomes of a paused one, as `handler/network.rs` makes it. The lists of `spider_network_blocker` and `spider_firewall`, the ad-block engine and the intercept manager come from other packages: they are functions to a Boolean, and everything here holds whatever they answer. `now` is the reading of the clock at the call. An Aho-Corasick matcher is the list of its patterns, and matches where one of them occurs.
-/

namespace SpiderChrome

open Network NetworkUtils

/-- What an ad-block engine is asked about. -/
structure AdblockRequest where
  url : String
  hostname : String
  sourceHostname : String
  requestType : String
  thirdParty : Bool

abbrev AdblockEngine := AdblockRequest → Bool

/-- The name under which the manager is shown, and `intercept_detection`, with the url, the flag `ignore_visuals` and whether the request is for data. -/
structure NetworkInterceptManager where
  debug : String
  interceptDetection : String → Bool → Bool → Bool

/-- The block lists of other packages. -/
structure Blockers where
  ignoreScriptEmbedded : String → Bool
  ignoreScriptXhr : String → Bool
  ignoreScriptXhrMedia : String → Bool
  blockWebsite : String → Bool
  blockXhr : String → Bool
  blockAds : String → Bool
  urlIgnoreTrie : String → Bool
  urlIgnoreTriePaths : String → Bool
  urlIgnoreScriptBasePaths : String → Bool
  urlIgnoreScriptStylesPaths : String → Bool
  adEngine : AdblockEngine

/-- No list blocks anything. -/
def Blockers.none : Blockers where
  ignoreScriptEmbedded := fun _ => false
  ignoreScriptXhr := fun _ => false
  ignoreScriptXhrMedia := fun _ => false
  blockWebsite := fun _ => false
  blockXhr := fun _ => false
  blockAds := fun _ => false
  urlIgnoreTrie := fun _ => false
  urlIgnoreTriePaths := fun _ => false
  urlIgnoreScriptBasePaths := fun _ => false
  urlIgnoreScriptStylesPaths := fun _ => false
  adEngine := fun _ => false

inductive BasicCachePolicy where
  | allowStale
  | period (now : Instant)
  | normal

/-- `systemNow` is the reading of the system clock. -/
def BasicCachePolicy.allowsCached (policy : BasicCachePolicy) (systemNow : Instant)
    (isStale : Instant → Bool) : Bool :=
  match policy with
  | .allowStale => true
  | .period now => !isStale now
  | .normal => !isStale systemNow

structure CachedResponse where
  body : List UInt8
  headers : List (String × List String)
  status : UInt16

/-- The session cache, by site key and url. An entry has the response and tells when it is stale. -/
abbrev SessionCache := String → String → Option (CachedResponse × (Instant → Bool))

structure NetworkManager where
  queuedEvents : List NetworkEvent
  ignoreHttpserrors : Bool
  requests : Table RequestId HttpRequest
  requestsWillBeSent : Table RequestId (EventRequestWillBeSent × Instant)
  extraHeaders : List (String × String)
  requestIdToInterceptionId : Table RequestId (InterceptionId × Instant)
  userCacheDisabled : Bool
  attemptedAuthentications : Finset RequestId
  credentials : Option Credentials
  userRequestInterceptionEnabled : Bool
  blockAll : Bool
  protocolRequestInterceptionEnabled : Bool
  requestTimeout : Duration
  ignoreVisuals : Bool
  blockStylesheets : Bool
  blockJavascript : Bool
  allowFirstPartyStylesheets : Bool
  allowFirstPartyJavascript : Bool
  allowFirstPartyVisuals : Bool
  blockAnalytics : Bool
  blockPrefetch : Bool
  onlyHtml : Bool
  xmlDocument : Bool
  interceptManager : NetworkInterceptManager
  documentReloadTracker : UInt8
  documentTargetUrl : String
  documentTargetDomain : String
  maxBytesAllowed : Option UInt64
  maxRedirects : Option Nat
  cacheSiteKey : Option String
  cachePolicy : Option BasicCachePolicy
  whitelistPatterns : List String
  whitelistMatcher : Option (List String)
  blacklistPatterns : List String
  blacklistMatcher : Option (List String)
  blacklistStrict : Bool
  remoteLocalPolicy : Bool
  adblockEngine : Option AdblockEngine

def ignoreVisualResourceMap : List String := ["Image", "Media", "Font"]

def ignoreNetworkingResourceMap : List String := ["CspViolationReport", "Ping"]

def jsFrameworkAllow3rdParty : List String :=
  ["https://m.stripe.network/",
    "https://challenges.cloudflare.com/",
    "https://js.stripe.com/",
    "https://cdn.prod.website-files.com/",
    "https://cdnjs.cloudflare.com/",
    "https://code.jquery.com/jquery-",
    "https://ct.captcha-delivery.com/",
    "https://geo.captcha-delivery.com/",
    "https://img1.wsimg.com/parking-lander/static/js/main.d9ebbb8c.js",
    "https://cdn.auth0.com/client",
    "https://captcha.px-cloud.net/",
    "https://www.capy.me/puzzle/",
    "https://www.gstatic.com/recaptcha/",
    "https://google.com/recaptcha/",
    "https://www.google.com/recaptcha/",
    "https://www.recaptcha.net/recaptcha/",
    "https://js.hcaptcha.com/1/api.js",
    "https://hcaptcha.com/1/api.js",
    "https://js.datadome.co/tags.js",
    "https://api-js.datadome.co/",
    "https://client.perimeterx.net/",
    "https://captcha.px-cdn.net/",
    "https://newassets.hcaptcha.com/",
    "https://captcha.px-cloud.net/",
    "https://s.perimeterx.net/",
    "https://api.leminnow.com/captcha/",
    "https://client-api.arkoselabs.com/",
    "https://static.geetest.com/v4/gt4.js",
    "https://static.geetest.com/",
    "https://cdn.jsdelivr.net/npm/@friendlycaptcha/",
    "https://cdn.perfdrive.com/aperture/",
    "https://assets.queue-it.net/",
    "discourse-cdn.com/",
    "hcaptcha.com",
    "/cdn-cgi/challenge-platform/",
    "/_Incapsula_Resource"]

def ignoreXhrAssets : List String :=
  ["jpg", "jpeg", "png", "gif", "svg", "webp",
    "mp4", "avi", "mov", "wmv", "flv",
    "mp3", "wav", "ogg",
    "woff", "woff2", "ttf", "otf",
    "swf", "xap",
    "ico", "eot",
    ".jpg", ".jpeg", ".png", ".gif", ".svg", ".webp",
    ".mp4", ".avi", ".mov", ".wmv", ".flv",
    ".mp3", ".wav", ".ogg",
    ".woff", ".woff2", ".ttf", ".otf",
    ".swf", ".xap",
    ".ico", ".eot"]

/-- `is_match` of a matcher. -/
def isMatch (patterns : List String) (s : String) : Bool :=
  patterns.any fun pattern => decide (pattern.toList <:+: s.toList)

def isRedirectStatus (status : Int) : Bool :=
  status = 301 ∨ status = 302 ∨ status = 303 ∨ status = 307 ∨ status = 308

def isDataResource : ResourceType → Bool
  | .xhr | .fetch | .webSocket | .eventSource | .prefetch | .preflight => true
  | _ => false

/-- `s.replacen(pat, rep, 1)`. -/
def replaceFirst (pat rep : List Char) : List Char → List Char
  | [] => []
  | c :: s =>
    match stripPrefix? (c :: s) pat with
    | some rest => rep ++ rest
    | none => c :: replaceFirst pat rep s

/-- `s.replace(pat, "")`, with the number of characters of an occurrence that are still to be skipped. -/
def removeAll (pat : List Char) : Nat → List Char → List Char
  | _, [] => []
  | skip + 1, _ :: s => removeAll pat skip s
  | 0, c :: s =>
    if pat ≠ [] ∧ pat.isPrefixOf (c :: s) then removeAll pat (pat.length - 1) s
    else c :: removeAll pat 0 s

/-- What follows the first occurrence of a pattern. -/
def afterFirst (pat : List Char) : List Char → Option (List Char)
  | [] => none
  | c :: s =>
    match stripPrefix? (c :: s) pat with
    | some rest => some rest
    | none => afterFirst pat s

namespace NetworkManager

def new (ignoreHttpserrors : Bool) (requestTimeout : Duration) : NetworkManager where
  queuedEvents := []
  ignoreHttpserrors := ignoreHttpserrors
  requests := ∅
  requestsWillBeSent := ∅
  extraHeaders := []
  requestIdToInterceptionId := ∅
  userCacheDisabled := false
  attemptedAuthentications := ∅
  credentials := none
  userRequestInterceptionEnabled := false
  blockAll := false
  protocolRequestInterceptionEnabled := false
  requestTimeout := requestTimeout
  ignoreVisuals := false
  blockStylesheets := false
  blockJavascript := false
  allowFirstPartyStylesheets := true
  allowFirstPartyJavascript := true
  allowFirstPartyVisuals := true
  blockAnalytics := true
  blockPrefetch := true
  onlyHtml := false
  xmlDocument := false
  interceptManager := ⟨"Unknown", fun _ _ _ => false⟩
  documentReloadTracker := 0
  documentTargetUrl := ""
  documentTargetDomain := ""
  maxBytesAllowed := none
  maxRedirects := none
  cacheSiteKey := none
  cachePolicy := none
  whitelistPatterns := []
  whitelistMatcher := none
  blacklistPatterns := []
  blacklistMatcher := none
  blacklistStrict := true
  remoteLocalPolicy := false
  adblockEngine := none

def pushEvent (nm : NetworkManager) (event : NetworkEvent) : NetworkManager :=
  { nm with queuedEvents := nm.queuedEvents ++ [event] }

def pushCdpRequest (nm : NetworkManager) (command : NetworkCommand) : NetworkManager :=
  nm.pushEvent (.sendCdpRequest command)

/-! ### The interception switch -/

def updateProtocolRequestInterception (nm : NetworkManager) : NetworkManager :=
  let enabled := nm.userRequestInterceptionEnabled || nm.credentials.isSome
  if enabled = nm.protocolRequestInterceptionEnabled then nm
  else if enabled then nm.pushCdpRequest .fetchEnable
  else nm.pushCdpRequest .fetchDisable

def setRequestInterception (nm : NetworkManager) (enabled : Bool) : NetworkManager :=
  { nm with userRequestInterceptionEnabled := enabled }.updateProtocolRequestInterception

def authenticate (nm : NetworkManager) (credentials : Credentials) : NetworkManager :=
  { { nm with credentials := some credentials }.updateProtocolRequestInterception with
    protocolRequestInterceptionEnabled := true }

/-! ### Tracked requests -/

/-- The `Location` of a redirect, as it is written back: without the url that it is relative to, and only if it differs from it. -/
def fixedLocation (redirectResp : Network.Response) : Option String :=
  if isRedirectStatus redirectResp.status then
    match (redirectResp.headers.index "Location").asStr with
    | some location =>
      if redirectResp.url ≠ location then
        some (String.ofList (removeAll redirectResp.url.toList 0 location.toList))
      else none
    | none => none
  else none

def setLocation (location : Option String) (response : Network.Response) : Network.Response :=
  match location with
  | some location =>
    if location = "" then response
    else { response with headers := response.headers.setIndex "Location" (.string location) }
  | none => response

def handleRequestRedirect (nm : NetworkManager) (request : HttpRequest) (response : Network.Response) :
    NetworkManager × HttpRequest :=
  ({ nm with
      attemptedAuthentications := match request.interceptionId with
        | some id => nm.attemptedAuthentications.erase ⟨id.inner⟩
        | none => nm.attemptedAuthentications },
    request.setResponse response)

/-- The part of `on_request` that ends the request a redirect comes from. -/
def takeRedirectChain (nm : NetworkManager) (event : EventRequestWillBeSent) :
    NetworkManager × List HttpRequest :=
  match event.redirectResponse with
  | none => (nm, [])
  | some redirectResp =>
    match nm.requests.get event.requestId with
    | none => (nm, [])
    | some request =>
      let nm := { nm with requests := nm.requests.remove event.requestId }
      let location := fixedLocation redirectResp
      let request := { request with response := request.response.map (setLocation location) }
      let (nm, request) := nm.handleRequestRedirect request (setLocation location redirectResp)
      (nm, request.redirectChain ++ [{ request with redirectChain := [] }])

/-- A document that was redirected more often than the cap allows. -/
def exceedsMaxRedirects (nm : NetworkManager) (event : EventRequestWillBeSent)
    (redirectChain : List HttpRequest) : Bool :=
  match nm.maxRedirects with
  | some cap => decide (event.type = some .document ∧ cap < redirectChain.length)
  | none => false

def onRequest (nm : NetworkManager) (now : Instant) (event : EventRequestWillBeSent)
    (interceptionId : Option InterceptionId) : NetworkManager :=
  let (nm, redirectChain) := nm.takeRedirectChain event
  let request := HttpRequest.new event.requestId event.frameId interceptionId
    nm.userRequestInterceptionEnabled redirectChain now
  if nm.exceedsMaxRedirects event redirectChain then
    let failed := { request with
      url := some event.request.url
      method := some event.request.method
      failureText := some "net::ERR_TOO_MANY_REDIRECTS" }
    (nm.pushCdpRequest .stopLoading).pushEvent (.requestFailed failed)
  else
    { nm.pushEvent (.request event.requestId) with
      requests := nm.requests.set event.requestId request }

def onRequestWillBeSent (nm : NetworkManager) (now : Instant) (event : EventRequestWillBeSent) :
    NetworkManager :=
  if nm.protocolRequestInterceptionEnabled ∧ ¬"data:".toList.isPrefixOf event.request.url.toList then
    match nm.requestIdToInterceptionId.get event.requestId with
    | some (interceptionId, _) =>
      { nm with
        requestIdToInterceptionId := nm.requestIdToInterceptionId.remove event.requestId }.onRequest
        now event (some interceptionId)
    | none =>
      { nm with
        requestsWillBeSent := nm.requestsWillBeSent.set event.requestId (event, now) }
  else nm.onRequest now event none

/-! ### Tests on a paused request -/

def isBlacklisted (nm : NetworkManager) (url : String) : Bool :=
  (nm.blacklistMatcher.map (isMatch · url)).getD false

def isWhitelisted (nm : NetworkManager) (url : String) : Bool :=
  (nm.whitelistMatcher.map (isMatch · url)).getD false

def urlPathWithLeadingSlash (url : List Char) : Option (List Char) := do
  let afterSlashes ← afterFirst "//".toList url
  let path := afterSlashes.dropWhile (· ≠ '/')
  if path.isEmpty then none else some path

def stripQueryFragment (s : List Char) : List Char := s.takeWhile fun c => c ≠ '?' ∧ c ≠ '#'

def shouldBlockScriptBlocklistOnly (nm : NetworkManager) (blockers : Blockers) (url : String) :
    Bool :=
  nm.blockAnalytics && blockers.urlIgnoreTrie url || blockers.blockWebsite url ||
    match urlPathWithLeadingSlash url.toList with
    | some pathWithSlash =>
      let pSlash := stripQueryFragment pathWithSlash
      let pNoslash := String.ofList ((stripPrefix? pSlash ['/']).getD pSlash)
      let base := String.ofList (((splitLast '/' pSlash).map Prod.snd).getD pSlash)
      nm.blockAnalytics && blockers.urlIgnoreTriePaths (String.ofList pSlash) ||
        nm.blockAnalytics && blockers.urlIgnoreTriePaths pNoslash ||
        nm.blockAnalytics && blockers.urlIgnoreTriePaths base ||
        blockers.urlIgnoreScriptBasePaths pNoslash ||
        nm.ignoreVisuals && blockers.urlIgnoreScriptStylesPaths pNoslash
    | none => false

/-- Whether the extension of a url is one that the flags exclude. The comparison is without case. -/
def isBlockedAsset (nm : NetworkManager) (url : List Char) : Bool :=
  match splitLast '.' url with
  | some (_, extension) =>
    if 3 ≤ 1 + utf8Len extension then
      if nm.ignoreVisuals &&
          decide (String.ofList (toAsciiLowercase extension) ∈ ignoreXhrAssets) then true
      else nm.blockStylesheets && decide ("css".toList <:+: toAsciiLowercase extension)
    else false
  | none => false

def skipXhr (nm : NetworkManager) (blockers : Blockers) (skipNetworking : Bool)
    (event : EventRequestPaused) (networkEvent : Bool) : Bool :=
  if !skipNetworking && networkEvent then
    let url := event.request.url
    if nm.blockAnalytics && (blockers.ignoreScriptXhr url || blockers.blockXhr url) then true
    else if nm.blockStylesheets || nm.ignoreVisuals then
      nm.isBlockedAsset url.toList || blockers.ignoreScriptXhrMedia url
    else skipNetworking
  else skipNetworking

/-- The host that the ad-block engine is told, the page's own where the url has no web scheme. -/
def adHostname (sourceDomain : String) (url : List Char) : String :=
  match (stripPrefix? url "https://".toList).orElse fun _ => stripPrefix? url "http://".toList with
  | some rest =>
    let authority := rest.takeWhile (· ≠ '/')
    let hostPort := ((splitLast '@' authority).map Prod.snd).getD authority
    String.ofList (hostPort.takeWhile (· ≠ ':'))
  | none => sourceDomain

def adResourceType : ResourceType → String
  | .script => "script"
  | .image => "image"
  | .media => "media"
  | .stylesheet => "stylesheet"
  | .document => "document"
  | .fetch => "fetch"
  | .xhr => "xhr"
  | _ => "other"

def isBlockable : ResourceType → Bool
  | .script | .image | .media | .stylesheet | .document | .fetch | .xhr => true
  | _ => false

def detectAd (nm : NetworkManager) (blockers : Blockers) (event : EventRequestPaused) : Bool :=
  if !isBlockable event.resourceType then false
  else
    let sourceDomain :=
      if nm.documentTargetDomain = "" then "example.com" else nm.documentTargetDomain
    (nm.adblockEngine.getD blockers.adEngine)
      { url := event.request.url
        hostname := adHostname sourceDomain event.request.url.toList
        sourceHostname := sourceDomain
        requestType := adResourceType event.resourceType
        thirdParty := !event.request.isSameSite.getD false }

def detectAdIfEnabled (nm : NetworkManager) (blockers : Blockers) (event : EventRequestPaused)
    (skipNetworking : Bool) : Bool :=
  if skipNetworking then true
  else blockers.blockAds event.request.url || nm.detectAd blockers event

def shouldSkipForVisualsAndBasic (nm : NetworkManager) (resourceType : ResourceType) : Bool :=
  nm.ignoreVisuals && decide (resourceType.asRef ∈ ignoreVisualResourceMap) ||
    nm.blockStylesheets && decide (resourceType = .stylesheet)

def isFirstPartyUrl (nm : NetworkManager) (url : String) : Bool :=
  if nm.documentTargetDomain = "" then false
  else match hostAndRest url.toList with
    | some (host, _) => String.ofList (baseDomainFromHost host) = nm.documentTargetDomain
    | none => false

/-! ### The document -/

/-- `s.pop()` where the text ends with a slash. -/
def popSlash (s : List Char) : List Char :=
  if ['/'].isSuffixOf s then s.dropLast else s

/-- The url that a masked redirect stands for: the target with its scheme exchanged, followed by the target with its scheme broken. -/
def unmaskedUrl (targetUrl currentUrl : String) : Option String :=
  let target := targetUrl.toList
  let (httpReplacement, httpsReplacement) :=
    if "http://".toList.isPrefixOf target then
      (replaceFirst "http://".toList "http//".toList target,
        replaceFirst "http://".toList "https://".toList target)
    else
      (replaceFirst "https://".toList "https//".toList target,
        replaceFirst "https://".toList "http://".toList target)
  let trailing := ['/'].isSuffixOf httpsReplacement
  let httpsReplacement := popSlash (popSlash httpsReplacement)
  if currentUrl.toList = httpsReplacement ++ httpReplacement then
    some (String.ofList (if trailing then httpsReplacement ++ ['/'] else httpsReplacement))
  else none

/-- The base domain of a page's url, empty where the url has no host. -/
def targetDomain (url : String) : String :=
  match hostAndRest url.toList with
  | some (host, _) => String.ofList (baseDomainFromHost host)
  | none => ""

/-- The tracker is a `u8`, and wraps where overflow is not checked. The result is the url that the request is really for, if that is not its own. -/
def handleDocumentReplacementAndTracking (nm : NetworkManager) (event : EventRequestPaused)
    (documentResource : Bool) : NetworkManager × Option String :=
  let currentUrl := event.request.url
  if documentResource then
    let replacer :=
      if nm.documentTargetUrl = currentUrl then none
      else if nm.documentTargetUrl ≠ "" ∧ event.redirectedRequestId.isSome then
        unmaskedUrl nm.documentTargetUrl currentUrl
      else none
    ({ nm with
        documentReloadTracker :=
          if nm.documentTargetUrl = currentUrl then nm.documentReloadTracker + 1
          else nm.documentReloadTracker
        xmlDocument := nm.xmlDocument ||
          (decide (nm.documentTargetUrl = "") && ".xml".toList.isSuffixOf currentUrl.toList)
        documentTargetUrl := currentUrl
        documentTargetDomain := targetDomain currentUrl },
      replacer)
  else (nm, none)

/-! ### The decision -/

/-- The checks that come before the document is tracked. -/
def skipStatic (nm : NetworkManager) (event : EventRequestPaused) : Bool :=
  let skip := nm.blockAll || decide (event.resourceType.asRef ∈ ignoreNetworkingResourceMap)
  let skip := if event.resourceType = .prefetch ∧ !nm.blockPrefetch then true else skip
  if !skip then decide (3 ≤ nm.documentReloadTracker) else skip

/-- The checks that can block a request, from the soft blacklist to the website list. -/
def skipBlocked (nm : NetworkManager) (blockers : Blockers) (event : EventRequestPaused)
    (currentUrl : String) (hadReplacer : Bool) (skip : Bool) : Bool :=
  let javascriptResource := decide (event.resourceType = .script)
  let documentResource := decide (event.resourceType = .document)
  let networkResource := !documentResource && isDataResource event.resourceType
  let skip := if !nm.blacklistStrict && nm.isBlacklisted currentUrl then true else skip
  let skip :=
    if !skip then
      if nm.xmlDocument && ".xsl".toList.isSuffixOf currentUrl.toList then false
      else nm.shouldSkipForVisualsAndBasic event.resourceType
    else skip
  let isMainDocumentRequest := documentResource &&
    (event.redirectedRequestId.isSome || hadReplacer || decide (nm.documentTargetUrl = "") ||
      decide (event.request.url = nm.documentTargetUrl))
  let skip := if !isMainDocumentRequest then nm.detectAdIfEnabled blockers event skip else skip
  let skip :=
    if !skip && nm.blockJavascript && (nm.onlyHtml || nm.ignoreVisuals) &&
        (javascriptResource || documentResource || decide (event.resourceType = .stylesheet) ||
          decide (event.resourceType = .image)) then
      blockers.ignoreScriptEmbedded currentUrl
    else skip
  let skip :=
    if !skip && javascriptResource then nm.shouldBlockScriptBlocklistOnly blockers currentUrl
    else skip
  let skip := nm.skipXhr blockers skip event networkResource
  let skip :=
    if !skip && (javascriptResource || networkResource || documentResource) then
      nm.interceptManager.interceptDetection currentUrl nm.ignoreVisuals networkResource
    else skip
  if !skip && (javascriptResource || networkResource) then blockers.blockWebsite currentUrl else skip

/-- The checks that can rescue a blocked request, and the strict blacklist that nothing rescues from. -/
def skipRescued (nm : NetworkManager) (event : EventRequestPaused) (currentUrl : String)
    (initiatorType : Option InitiatorType) (skip : Bool) : Bool :=
  let javascriptResource := decide (event.resourceType = .script)
  let skip :=
    if skip && javascriptResource && isMatch jsFrameworkAllow3rdParty currentUrl then false else skip
  let skip := if skip && nm.isWhitelisted currentUrl then false else skip
  let skip :=
    if skip && decide (nm.documentTargetDomain ≠ "") then
      let allow :=
        if event.resourceType = .stylesheet then nm.allowFirstPartyStylesheets
        else if event.resourceType = .script then nm.allowFirstPartyJavascript
        else if event.resourceType.asRef ∈ ignoreVisualResourceMap then nm.allowFirstPartyVisuals
        else false
      if allow && nm.isFirstPartyUrl currentUrl then false else skip
    else skip
  let skip :=
    if skip && nm.allowFirstPartyStylesheets && nm.blockStylesheets &&
        decide (event.resourceType = .stylesheet) && decide (initiatorType ≠ some .script) then false
    else skip
  if nm.blacklistStrict && nm.isBlacklisted currentUrl then true else skip

/-! ### The answer -/

def failRequestBlocked (nm : NetworkManager) (requestId : Fetch.RequestId) : NetworkManager :=
  nm.pushCdpRequest (.failRequest requestId)

def fulfillRequestEmpty200 (nm : NetworkManager) (requestId : Fetch.RequestId) : NetworkManager :=
  nm.pushCdpRequest (.fulfillRequest requestId 200 none none)

def fulfillRequestFromCache (nm : NetworkManager) (requestId : Fetch.RequestId) (body : List UInt8)
    (headers : List (String × String)) (status : Int) : NetworkManager :=
  nm.pushCdpRequest (.fulfillRequest requestId status (some body) (some headers))

def continueRequestWithUrl (nm : NetworkManager) (requestId : Fetch.RequestId) (url : Option String)
    (interceptResponse : Bool) : NetworkManager :=
  match url with
  | some url => nm.pushCdpRequest (.continueRequest requestId (some url) (some interceptResponse))
  | none => nm.pushCdpRequest (.continueRequest requestId none none)

def headersFromMulti (headers : List (String × List String)) : List (String × String) :=
  headers.map fun (name, values) => (name, values.headD "")

/-- The cached response that may answer a request, if there is one. -/
def cachedResponse (nm : NetworkManager) (cache : SessionCache) (systemNow : Instant)
    (method currentUrl : String) : Option CachedResponse :=
  match nm.cachePolicy, nm.cacheSiteKey with
  | some policy, some cacheSiteKey =>
    match cache cacheSiteKey (method ++ ":" ++ currentUrl) with
    | some (response, isStale) =>
      if policy.allowsCached systemNow isStale then some response else none
    | none => none
  | _, _ => none

/-- The part of `on_fetch_request_paused` that brings the pause and its request together. -/
def reconcilePaused (nm : NetworkManager) (now : Instant) (event : EventRequestPaused) :
    NetworkManager :=
  match event.networkId with
  | some networkId =>
    match nm.requestsWillBeSent.get networkId with
    | some (requestWillBeSent, _) =>
      { nm with requestsWillBeSent := nm.requestsWillBeSent.remove networkId }.onRequest now
        requestWillBeSent (some event.requestId.toInterceptionId)
    | none =>
      { nm with
        requestIdToInterceptionId := nm.requestIdToInterceptionId.set networkId
          (event.requestId.toInterceptionId, now) }
  | none => nm

/-- The answer to a paused request once it is decided whether it is skipped. -/
def answerPaused (nm : NetworkManager) (cache : SessionCache) (systemNow : Instant)
    (event : EventRequestPaused) (replacer : Option String) (skip : Bool) : NetworkManager :=
  if skip then nm.fulfillRequestEmpty200 event.requestId
  else
    match nm.cachedResponse cache systemNow event.request.method
        (replacer.getD event.request.url) with
    | some response =>
      nm.fulfillRequestFromCache event.requestId response.body (headersFromMulti response.headers)
        response.status.toNat
    | none => nm.continueRequestWithUrl event.requestId replacer (!replacer.isSome)

def onFetchRequestPaused (nm : NetworkManager) (blockers : Blockers) (cache : SessionCache)
    (now systemNow : Instant) (event : EventRequestPaused) : NetworkManager :=
  if nm.userRequestInterceptionEnabled && nm.protocolRequestInterceptionEnabled then nm
  else if nm.blockAll then nm.failRequestBlocked event.requestId
  else
    let initiatorType := (event.networkId.bind nm.requestsWillBeSent.get).map fun (rwbs, _) =>
      rwbs.initiatorType
    let nm := nm.reconcilePaused now event
    let skip := nm.skipStatic event
    let (nm, replacer) := nm.handleDocumentReplacementAndTracking event
      (decide (event.resourceType = .document))
    let currentUrl := replacer.getD event.request.url
    let skip := nm.skipBlocked blockers event currentUrl replacer.isSome skip
    let skip := nm.skipRescued event currentUrl initiatorType skip
    nm.answerPaused cache systemNow event replacer skip

end NetworkManager

end SpiderChrome
