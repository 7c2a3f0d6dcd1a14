import SpiderChrome.Network.Manager
import SpiderChrome.Cdp.Command

/-!
# The rest of the network manager

The setters that a target configures its manager with, the events after a request was sent, and the form in which the queued commands go to the wire.
-/

namespace SpiderChrome

open Network NetworkUtils

/-! ### Commands on the wire -/

def base64Alphabet : List Char :=
  "ABCDEFGHIJKLMNOPQRSTUVWXYZabcdefghijklmnopqrstuvwxyz0123456789+/".toList

/-- The character for six bits. -/
def base64Char (n : Nat) : Char := (base64Alphabet[n % 64]?).getD '='

/-- `general_purpose::STANDARD.encode`. -/
def base64Encode : List UInt8 → List Char
  | [] => []
  | [a] =>
    let n := a.toNat * 65536
    [base64Char (n / 262144), base64Char (n / 4096), '=', '=']
  | [a, b] =>
    let n := a.toNat * 65536 + b.toNat * 256
    [base64Char (n / 262144), base64Char (n / 4096), base64Char (n / 64), '=']
  | a :: b :: c :: rest =>
    let n := a.toNat * 65536 + b.toNat * 256 + c.toNat
    [base64Char (n / 262144), base64Char (n / 4096), base64Char (n / 64), base64Char n] ++
      base64Encode rest

/-- The fields that are present. -/
def presentFields (fields : List (String × Option Value)) : Value :=
  .object (fields.filterMap fun field => field.2.map fun value => (field.1, value))

def headerEntry (header : String × String) : Value :=
  .object [("name", .string header.1), ("value", .string header.2)]

def AuthChallengeResponseResponse.asRef : AuthChallengeResponseResponse → String
  | default => "Default"
  | cancelAuth => "CancelAuth"
  | provideCredentials => "ProvideCredentials"

namespace NetworkCommand

def identifier : NetworkCommand → MethodId
  | fetchEnable => "Fetch.enable"
  | fetchDisable => "Fetch.disable"
  | failRequest _ => "Fetch.failRequest"
  | fulfillRequest _ _ _ _ => "Fetch.fulfillRequest"
  | continueRequest _ _ _ => "Fetch.continueRequest"
  | continueWithAuth _ _ _ => "Fetch.continueWithAuth"
  | stopLoading => "Page.stopLoading"
  | setCacheDisabled _ => "Network.setCacheDisabled"
  | setBypassServiceWorker _ => "Network.setBypassServiceWorker"
  | setExtraHttpHeaders _ => "Network.setExtraHTTPHeaders"
  | setPolicy _ => "Interception.setPolicy"

def params : NetworkCommand → Value
  | fetchEnable => .object
      [("patterns", .array [.object [("urlPattern", .string "*"), ("requestStage", .string "Request")]]),
        ("handleAuthRequests", .bool true)]
  | fetchDisable => .object []
  | failRequest requestId => .object
      [("requestId", .string requestId.inner), ("errorReason", .string "BlockedByClient")]
  | fulfillRequest requestId responseCode body responseHeaders => presentFields
      [("requestId", some (.string requestId.inner)),
        ("responseCode", some (.number (toString responseCode))),
        ("responseHeaders", responseHeaders.map fun headers => .array (headers.map headerEntry)),
        ("body", body.map fun bytes => .string (String.ofList (base64Encode bytes)))]
  | continueRequest requestId url interceptResponse => presentFields
      [("requestId", some (.string requestId.inner)),
        ("url", url.map .string),
        ("interceptResponse", interceptResponse.map .bool)]
  | continueWithAuth requestId response credentials => .object
      [("requestId", .string requestId.inner),
        ("authChallengeResponse", presentFields
          [("response", some (.string response.asRef)),
            ("username", credentials.map fun creds => .string creds.username),
            ("password", credentials.map fun creds => .string creds.password)])]
  | stopLoading => .object []
  | setCacheDisabled cacheDisabled => .object [("cacheDisabled", .bool cacheDisabled)]
  | setBypassServiceWorker bypass => .object [("bypass", .bool bypass)]
  | setExtraHttpHeaders headers => .object
      [("headers", .object (headers.map fun (name, value) => (name, .string value)))]
  | setPolicy params => params

end NetworkCommand

namespace NetworkManager

/-! ### Setters -/

def setAdblockEngine (nm : NetworkManager) (engine : AdblockEngine) : NetworkManager :=
  { nm with adblockEngine := some engine }

def rebuildMatcher (patterns : List String) : Option (List String) :=
  if patterns.isEmpty then none else some patterns

def setWhitelistPatterns (nm : NetworkManager) (patterns : List String) : NetworkManager :=
  { nm with whitelistPatterns := patterns, whitelistMatcher := rebuildMatcher patterns }

def setBlacklistPatterns (nm : NetworkManager) (patterns : List String) : NetworkManager :=
  { nm with blacklistPatterns := patterns, blacklistMatcher := rebuildMatcher patterns }

def initCommands (nm : NetworkManager) : CommandChain :=
  .new
    (if nm.ignoreHttpserrors then
      [("Network.enable", .object []),
        ("Security.setIgnoreCertificateErrors", .object [("ignore", .bool true)])]
    else [("Network.enable", .object [])])
    nm.requestTimeout

def setExtraHeaders (nm : NetworkManager) (headers : List (String × String)) : NetworkManager :=
  let headers := headers.filter fun (name, _) =>
    name ≠ "proxy-authorization" ∧ name ≠ "Proxy-Authorization"
  let nm := { nm with extraHeaders := headers }
  if headers.isEmpty then nm else nm.pushCdpRequest (.setExtraHttpHeaders headers)

def setServiceWorkerEnabled (nm : NetworkManager) (bypass : Bool) : NetworkManager :=
  nm.pushCdpRequest (.setBypassServiceWorker bypass)

def setBlockAll (nm : NetworkManager) (blockAll : Bool) : NetworkManager :=
  { nm with blockAll := blockAll }

def setRemoteLocalPolicy (nm : NetworkManager) (enabled : Bool) : NetworkManager :=
  { nm with remoteLocalPolicy := enabled }

/-- Built with the `firewall` feature. -/
def requestPolicyParams (nm : NetworkManager) : Value :=
  .object
    [("version", .number "1"),
      ("enabled", .bool true),
      ("flags", .object
        [("blockAll", .bool nm.blockAll),
          ("blockVisuals", .bool nm.ignoreVisuals),
          ("blockStylesheets", .bool nm.blockStylesheets),
          ("blockJavascript", .bool nm.blockJavascript),
          ("blockAnalytics", .bool nm.blockAnalytics),
          ("blockAds", .bool true),
          ("blockPrefetch", .bool nm.blockPrefetch),
          ("onlyHtml", .bool nm.onlyHtml),
          ("blacklistStrict", .bool nm.blacklistStrict),
          ("allowFirstPartyStylesheets", .bool nm.allowFirstPartyStylesheets),
          ("allowFirstPartyJavascript", .bool nm.allowFirstPartyJavascript),
          ("allowFirstPartyVisuals", .bool nm.allowFirstPartyVisuals)]),
      ("blacklist", .array (nm.blacklistPatterns.map .string)),
      ("whitelist", .array (nm.whitelistPatterns.map .string)),
      ("interceptManager", .string nm.interceptManager.debug),
      ("pageUrl", .string nm.documentTargetUrl)]

def emitRequestPolicy (nm : NetworkManager) : NetworkManager :=
  if !nm.remoteLocalPolicy || !nm.protocolRequestInterceptionEnabled then nm
  else nm.pushCdpRequest (.setPolicy nm.requestPolicyParams)

def updateProtocolCacheDisabled (nm : NetworkManager) : NetworkManager :=
  nm.pushCdpRequest (.setCacheDisabled nm.userCacheDisabled)

def setCacheEnabled (nm : NetworkManager) (enabled : Bool) : NetworkManager :=
  let run := nm.userCacheDisabled = enabled
  let nm := { nm with userCacheDisabled := !enabled }
  if run then nm.updateProtocolCacheDisabled else nm

def enableRequestIntercept (nm : NetworkManager) : NetworkManager :=
  { nm with protocolRequestInterceptionEnabled := true }

def setCacheSiteKey (nm : NetworkManager) (cacheSiteKey : Option String) : NetworkManager :=
  { nm with cacheSiteKey := cacheSiteKey }

def setCachePolicy (nm : NetworkManager) (cachePolicy : Option BasicCachePolicy) : NetworkManager :=
  { nm with cachePolicy := cachePolicy }

def hasTargetDomain (nm : NetworkManager) : Bool := nm.documentTargetUrl ≠ ""

def setPageUrl (nm : NetworkManager) (pageTargetUrl : String) : NetworkManager :=
  { nm with
    documentTargetDomain := targetDomain pageTargetUrl
    documentTargetUrl := pageTargetUrl }.emitRequestPolicy

def clearTargetDomain (nm : NetworkManager) : NetworkManager :=
  { nm with documentReloadTracker := 0, documentTargetUrl := "", documentTargetDomain := "" }

/-! ### Events -/

def onFetchAuthRequired (nm : NetworkManager) (requestId : Fetch.RequestId) : NetworkManager :=
  let attempted : RequestId := ⟨requestId.inner⟩
  if attempted ∈ nm.attemptedAuthentications then
    nm.pushCdpRequest (.continueWithAuth requestId .cancelAuth nm.credentials)
  else if nm.credentials.isSome then
    { nm with attemptedAuthentications := insert attempted nm.attemptedAuthentications }.pushCdpRequest
      (.continueWithAuth requestId .provideCredentials nm.credentials)
  else nm.pushCdpRequest (.continueWithAuth requestId .default nm.credentials)

def onRequestServedFromCache (nm : NetworkManager) (requestId : RequestId) : NetworkManager :=
  { nm with
    requests := nm.requests.update requestId fun request => { request with fromMemoryCache := true } }

/-- The characters that `trim` takes away. -/
def isWhitespace (c : Char) : Bool :=
  let n := c.toNat
  9 ≤ n && n ≤ 13 || n == 32 || n == 133 || n == 160 || n == 5760 || 8192 ≤ n && n ≤ 8202 ||
    n == 8232 || n == 8233 || n == 8239 || n == 8287 || n == 12288

def trim (s : List Char) : List Char :=
  ((s.dropWhile isWhitespace).reverse.dropWhile isWhitespace).reverse

/-- `parse::<u64>`. -/
def parseU64 (s : List Char) : Option UInt64 :=
  let digits := (stripPrefix? s ['+']).getD s
  if digits.isEmpty then none
  else if digits.all Char.isDigit then
    let n := digits.foldl (fun n c => 10 * n + (c.toNat - 48)) 0
    if n < UInt64.size then some (UInt64.ofNat n) else none
  else none

def saturatingSub (a b : UInt64) : UInt64 := if a ≤ b then 0 else a - b

/-- What is left of a budget after a response. -/
def spendBytes (maxBytes : UInt64) (event : EventResponseReceived) : UInt64 :=
  let contentLength := (event.response.headers.field? "content-length").bind Value.asStr |>.bind
    fun s => parseU64 (trim s.toList)
  let left := saturatingSub maxBytes event.encodedDataLength
  match contentLength with
  | some length => if left < length then 0 else left
  | none => left

def onResponseReceived (nm : NetworkManager) (event : EventResponseReceived) : NetworkManager :=
  let left := nm.maxBytesAllowed.map fun maxBytes => spendBytes maxBytes event
  let requestFailed := left = some 0
  let deducted := saturatingSub (nm.maxBytesAllowed.getD 0) (left.getD 0)
  let nm := { nm with maxBytesAllowed := left }
  let nm := if 0 < deducted then nm.pushEvent (.bytesConsumed deducted) else nm
  let nm := if requestFailed then nm.setBlockAll true else nm
  match nm.requests.get event.requestId with
  | some request =>
    let request := request.setResponse event.response
    { nm with requests := nm.requests.remove event.requestId }.pushEvent
      (if requestFailed then .requestFailed request else .requestFinished request)
  | none => nm

/-- A request that is done takes its attempted authentication with it. -/
def forgetAttempt (nm : NetworkManager) (request : HttpRequest) : NetworkManager :=
  { nm with
    attemptedAuthentications := match request.interceptionId with
      | some id => nm.attemptedAuthentications.erase ⟨id.inner⟩
      | none => nm.attemptedAuthentications }

def onNetworkLoadingFinished (nm : NetworkManager) (requestId : RequestId) : NetworkManager :=
  match nm.requests.get requestId with
  | some request =>
    ({ nm with requests := nm.requests.remove requestId }.forgetAttempt request).pushEvent
      (.requestFinished request)
  | none => nm

def onNetworkLoadingFailed (nm : NetworkManager) (event : EventLoadingFailed) : NetworkManager :=
  match nm.requests.get event.requestId with
  | some request =>
    ({ nm with requests := nm.requests.remove event.requestId }.forgetAttempt request).pushEvent
      (.requestFailed { request with failureText := some event.errorText })
  | none => nm

/-- 30 seconds. -/
def staleBuffer : Duration := 30000000000

/-- 120 seconds. -/
def staleRequest : Duration := 120000000000

def evictStaleEntries (nm : NetworkManager) (now : Instant) : NetworkManager :=
  let requests := nm.requests.retain fun _ request => now - staleRequest < request.createdAt
  { nm with
    requestsWillBeSent := nm.requestsWillBeSent.retain fun _ entry => now - staleBuffer < entry.2
    requestIdToInterceptionId :=
      nm.requestIdToInterceptionId.retain fun _ entry => now - staleBuffer < entry.2
    requests := requests
    attemptedAuthentications := nm.attemptedAuthentications.filter fun id =>
      ∃ request ∈ requests.values, request.interceptionId = some ⟨id.inner⟩ }

end NetworkManager

end SpiderChrome
