import SpiderChrome.Target.Poll

/-!
# The handler

The handler keeps the targets and the commands that wait for a response, and gives every navigation an id of its own, as `handler/mod.rs` has it. The connection is the counter of its call ids; what is handed to it is kept in `submitted`, beside the navigation that it was submitted for. What is sent on a oneshot channel is kept in `replies`, and what a page asked for in `gotos`. No function reads these three. Event listeners are left out, as in a target.
-/

namespace SpiderChrome

structure HandlerConfig where
  ignoreHttpsErrors : Bool
  viewport : Option Viewport
  contextIds : List BrowserContextId
  requestTimeout : Duration
  requestIntercept : Bool
  cacheEnabled : Bool
  serviceWorkerEnabled : Bool
  ignoreVisuals : Bool
  ignoreStylesheets : Bool
  ignoreJavascript : Bool
  allowFirstPartyStylesheets : Bool
  allowFirstPartyJavascript : Bool
  allowFirstPartyVisuals : Bool
  ignoreAnalytics : Bool
  ignorePrefetch : Bool
  extraHeaders : Option (List (String × String))
  onlyHtml : Bool
  createdFirstTarget : Bool
  interceptManager : NetworkInterceptManager
  maxBytesAllowed : Option UInt64
  maxRedirects : Option Nat
  maxMainFrameNavigations : Option UInt32
  whitelistPatterns : Option (List String)
  blacklistPatterns : Option (List String)
  remoteLocalPolicy : Bool
  /-- The engine that is built from the filter rules. -/
  adblockEngine : Option AdblockEngine

/-- The configuration that `on_target_created` gives to a new target. -/
def HandlerConfig.targetConfig (config : HandlerConfig) : TargetConfig where
  ignoreHttpsErrors := config.ignoreHttpsErrors
  requestTimeout := config.requestTimeout
  viewport := config.viewport
  requestIntercept := config.requestIntercept
  cacheEnabled := config.cacheEnabled
  serviceWorkerEnabled := config.serviceWorkerEnabled
  ignoreVisuals := config.ignoreVisuals
  ignoreStylesheets := config.ignoreStylesheets
  ignoreJavascript := config.ignoreJavascript
  ignoreAnalytics := config.ignoreAnalytics
  ignorePrefetch := config.ignorePrefetch
  allowFirstPartyStylesheets := config.allowFirstPartyStylesheets
  allowFirstPartyJavascript := config.allowFirstPartyJavascript
  allowFirstPartyVisuals := config.allowFirstPartyVisuals
  extraHeaders := config.extraHeaders
  onlyHtml := config.onlyHtml && config.createdFirstTarget
  interceptManager := config.interceptManager
  remoteLocalPolicy := config.remoteLocalPolicy
  maxBytesAllowed := config.maxBytesAllowed
  maxRedirects := config.maxRedirects
  maxMainFrameNavigations := config.maxMainFrameNavigations
  whitelistPatterns := config.whitelistPatterns
  blacklistPatterns := config.blacklistPatterns
  adblockEngine := config.adblockEngine

structure Session where
  id : SessionId
  targetId : TargetId

/-- A navigation that somebody waits for, which is done once it was answered and has ended. -/
structure NavigationInProgress where
  navigated : Bool
  response : Option Response
  tx : Sender

def NavigationInProgress.new (tx : Sender) : NavigationInProgress := ⟨false, none, tx⟩

inductive PendingRequest where
  | createTarget (tx : Sender)
  | getTargets (tx : Sender)
  | navigate (id : NavigationId)
  | externalCommand (tx : Sender) (targetId : Option TargetId)
  | internalCommand (targetId : TargetId)
  | closeBrowser (tx : Sender)

/-- The navigation that a request is submitted for. -/
def PendingRequest.navigationId? : PendingRequest → Option NavigationId
  | navigate id => some id
  | _ => none

/-- The parameters of `Target.createTarget`, with the value that they are sent as. -/
structure CreateTargetParams where
  url : String
  browserContextId : Option BrowserContextId
  value : Value

/-- A message of the browser handle. Of a listener only its method is kept. -/
inductive HandlerMessage where
  | createPage (params : CreateTargetParams) (tx : Sender)
  | fetchTargets (tx : Sender)
  | insertContext (ctx : BrowserContext)
  | disposeContext (ctx : BrowserContext)
  | getPages (tx : Sender)
  | command (msg : CommandMessage)
  | getPage (targetId : TargetId) (tx : Sender)
  | addEventListener (method : MethodId)
  | closeBrowser (tx : Sender)

/-- A navigation that a page asked for: its id, the request, and the main frame that its target had then. -/
structure Goto where
  id : NavigationId
  req : Request
  mainFrame : Option FrameId

structure Handler where
  defaultBrowserContext : BrowserContext
  browserContexts : Finset BrowserContext
  pendingCommands : Table CallId (PendingRequest × MethodId × Instant)
  targetIds : List TargetId
  targets : Table TargetId Target
  navigations : Table NavigationId NavigationInProgress
  sessions : Table SessionId Session
  nextCallId : Nat
  nextNavigationId : Nat
  config : HandlerConfig
  closing : Bool
  remainingBytes : Option UInt64
  budgetExhausted : Bool
  attachedTargets : Finset TargetId
  submitted : List (MethodCall × Option NavigationId)
  replies : List (Sender × Reply)
  gotos : List Goto

/-- The conversion of errors that an unsuccessful navigation goes through. -/
def NavigationError.toCdpError : NavigationError → CdpError
  | timeout _ _ _ => .timeout
  | frameNotFound _ frame => .frameNotFound frame
  | tooManyNavigations _ count => .tooManyNavigations count

/-- `maybe_store_attach_session_id`. -/
def maybeStoreAttachSessionId (decoders : Decoders) (target : Target) (method : MethodId)
    (resp : Response) : Target :=
  if method ≠ "Target.attachToTarget" then target
  else match toCommandResponse decoders.attachToTarget resp with
    | .ok sessionId => target.setSessionId sessionId
    | .error _ => target

namespace Handler

/-- A new handler. Its first call asks the browser to report targets. -/
def new (config : HandlerConfig) : Handler where
  defaultBrowserContext := ⟨none⟩
  browserContexts := (config.contextIds.map fun id => (⟨some id⟩ : BrowserContext)).toFinset
  pendingCommands := ∅
  targetIds := []
  targets := ∅
  navigations := ∅
  sessions := ∅
  nextCallId := 1
  nextNavigationId := 0
  config := config
  closing := false
  remainingBytes := none
  budgetExhausted := false
  attachedTargets := ∅
  submitted :=
    [(⟨⟨0⟩, "Target.setDiscoverTargets", none, .object [("discover", .bool true)]⟩, none)]
  replies := []
  gotos := []

def send (h : Handler) (tx : Sender) (reply : Reply) : Handler :=
  { h with replies := h.replies ++ [(tx, reply)] }

/-! ### Submitting -/

/-- A request is given the next call id and handed to the connection, and waits for its response if the connection took it. -/
def submit (h : Handler) (accepted : Bool) (req : Request) (pending : PendingRequest)
    (now : Instant) : Handler :=
  let call : MethodCall := ⟨⟨h.nextCallId⟩, req.method, req.sessionId, req.params⟩
  let h := { h with nextCallId := wrappingSucc h.nextCallId }
  if accepted then
    { h with
      submitted := h.submitted ++ [(call, pending.navigationId?)]
      pendingCommands := h.pendingCommands.set call.id (pending, req.method, now) }
  else h

/-- The target of the session that a command names. -/
def commandTarget (h : Handler) (msg : CommandMessage) : Option TargetId :=
  (msg.sessionId.bind h.sessions.get).map Session.targetId

def submitExternalCommand (h : Handler) (accepted : Bool) (msg : CommandMessage) (now : Instant) :
    Handler :=
  h.submit accepted msg.split.1 (.externalCommand msg.sender (h.commandTarget msg)) now

def submitInternalCommand (h : Handler) (accepted : Bool) (targetId : TargetId) (req : Request)
    (now : Instant) : Handler :=
  h.submit accepted req (.internalCommand targetId) now

def submitFetchTargets (h : Handler) (accepted : Bool) (tx : Sender) (now : Instant) : Handler :=
  h.submit accepted ⟨"Target.getTargets", none, .object []⟩ (.getTargets tx) now

def submitNavigation (h : Handler) (accepted : Bool) (id : NavigationId) (req : Request)
    (now : Instant) : Handler :=
  h.submit accepted req (.navigate id) now

def submitClose (h : Handler) (accepted : Bool) (tx : Sender) (now : Instant) : Handler :=
  h.submit accepted ⟨"Browser.close", none, .object []⟩ (.closeBrowser tx) now

/-- The urls that a page can be created with. -/
def canCreatePage (url : String) : Bool :=
  let aboutBlank := decide (url = "about:blank")
  aboutBlank || (!aboutBlank && "http".isPrefixOf url || "file://".isPrefixOf url)

/-- The methods `create_page` and `create_page_async`. -/
def createPage (h : Handler) (accepted : Bool) (params : CreateTargetParams) (tx : Sender)
    (now : Instant) : Handler :=
  if canCreatePage params.url then
    let h := h.submit accepted ⟨"Target.createTarget", none, params.value⟩ (.createTarget tx) now
    if accepted then h
    else h.send tx (.page (.error (.chromeMessage "WS command channel full or closed")))
  else h.send tx (.page (.error .notFound))

/-! ### Targets that come and go -/

/-- The test at the head of `on_target_created`: the target belongs to a context that the handler knows, if it knows any. -/
def admits (h : Handler) (targetInfo : TargetInfo) : Bool :=
  match targetInfo.browserContextId with
  | some contextId =>
    decide (h.browserContexts = ∅ ∨ BrowserContext.mk (some contextId) ∈ h.browserContexts)
  | none => true

def onTargetCreated (h : Handler) (targetInfo : TargetInfo) : Handler :=
  if !h.admits targetInfo then h
  else
    let browserCtx := match targetInfo.browserContextId with
      | some contextId => BrowserContext.mk (some contextId)
      | none => h.defaultBrowserContext
    let target := Target.new targetInfo h.config.targetConfig browserCtx
    { h with
      targetIds := h.targetIds ++ [targetInfo.targetId]
      targets := h.targets.set targetInfo.targetId target }

def onAttachedToTarget (h : Handler) (event : EventAttachedToTarget) : Handler :=
  let session : Session := ⟨event.sessionId, event.targetInfo.targetId⟩
  { h with
    targets := h.targets.update session.targetId fun target => target.setSessionId session.id
    sessions := h.sessions.set event.sessionId session }

def onDetachedFromTarget (h : Handler) (sessionId : SessionId) : Handler :=
  match h.sessions.get sessionId with
  | some session =>
    { h with
      sessions := h.sessions.remove sessionId
      targets := h.targets.update session.targetId fun target => { target with sessionId := none } }
  | none => h

/-- The clean-up of the maps after a target that is gone. -/
def removeTarget (h : Handler) (targetId : TargetId) : Handler :=
  let h := { h with attachedTargets := h.attachedTargets.erase targetId }
  match h.targets.get targetId with
  | some target =>
    { h with
      targets := h.targets.remove targetId
      sessions := match target.sessionId with
        | some session => h.sessions.remove session
        | none => h.sessions }
  | none => h

def onTargetDestroyed (h : Handler) (targetId : TargetId) : Handler := h.removeTarget targetId

/-- The pending request is bound to the target. -/
def PendingRequest.isBoundTo (targetId : TargetId) : PendingRequest → Bool
  | .externalCommand _ (some boundTo) => boundTo = targetId
  | .internalCommand boundTo => boundTo = targetId
  | _ => false

/-- The error of a command whose target has crashed. -/
def crashError (debugTargetId : TargetId → String) (event : EventTargetCrashed) : CdpError :=
  .chromeMessage ("target " ++ debugTargetId event.targetId ++ " crashed: " ++ event.status ++
    " (errorCode=" ++ toString event.errorCode ++ ")")

/-- One command that a crash cancels. -/
def cancel (debugTargetId : TargetId → String) (event : EventTargetCrashed) (h : Handler)
    (call : CallId) : Handler :=
  match h.pendingCommands.get call with
  | some (req, _, _) =>
    let h := { h with pendingCommands := h.pendingCommands.remove call }
    match req with
    | .externalCommand tx _ => h.send tx (.response (.error (crashError debugTargetId event)))
    | _ => h
  | none => h

def onTargetCrashed (h : Handler) (debugTargetId : TargetId → String) (event : EventTargetCrashed) :
    Handler :=
  let toCancel := (h.pendingCommands.toList.filter fun entry =>
    PendingRequest.isBoundTo event.targetId entry.2.1).map Prod.fst
  (toCancel.foldl (cancel debugTargetId event) h).removeTarget event.targetId

/-- The target of the session that an event names, with its id. -/
def eventTarget (h : Handler) (event : CdpEventMessage) : Option (TargetId × Target) :=
  (event.sessionId.bind fun id => h.sessions.get ⟨id⟩).bind fun session =>
    (h.targets.get session.targetId).map fun target => (session.targetId, target)

def onEvent (h : Handler) (env : Env) (event : CdpEventMessage) : Handler :=
  match h.eventTarget event with
  | some (targetId, target) =>
    { h with targets := h.targets.set targetId (target.onEvent env event) }
  | none =>
    match event.params with
    | .targetTargetCreated targetInfo => h.onTargetCreated targetInfo
    | .targetAttachedToTarget ev => h.onAttachedToTarget ev
    | .targetTargetDestroyed targetId => h.onTargetDestroyed targetId
    | .targetTargetCrashed ev => h.onTargetCrashed env.debugTargetId ev
    | .targetDetachedFromTarget sessionId => h.onDetachedFromTarget sessionId
    | _ => h

/-! ### Responses -/

def onNavigationResponse (h : Handler) (id : NavigationId) (resp : Response) : Handler :=
  match h.navigations.get id with
  | some nav =>
    let h := { h with navigations := h.navigations.remove id }
    if nav.navigated then h.send nav.tx (.response (.ok resp))
    else { h with navigations := h.navigations.set id { nav with response := some resp } }
  | none => h

def onNavigationLifecycleCompleted (h : Handler) (res : Except NavigationError NavigationOk) :
    Handler :=
  match res with
  | .ok ok =>
    match h.navigations.get ok.navigationId with
    | some nav =>
      let h := { h with navigations := h.navigations.remove ok.navigationId }
      match nav.response with
      | some resp => h.send nav.tx (.response (.ok resp))
      | none =>
        { h with navigations := h.navigations.set ok.navigationId { nav with navigated := true } }
    | none => h
  | .error err =>
    match h.navigations.get err.navigationId with
    | some nav =>
      { h with navigations := h.navigations.remove err.navigationId }.send nav.tx
        (.response (.error err.toCdpError))
    | none => h

/-- What a response does once its request is taken from those that wait. -/
def resolve (h : Handler) (env : Env) (method : MethodId) (resp : Response) :
    PendingRequest → Handler
  | .createTarget tx =>
    match toCommandResponse env.decoders.createTarget resp with
    | .ok targetId =>
      match h.targets.get targetId with
      | some target => { h with targets := h.targets.set targetId (target.setInitiator tx) }
      | none => h.send tx (.page (.error .notFound))
    | .error err => h.send tx (.page (.error err))
  | .getTargets tx =>
    match toCommandResponse env.decoders.getTargets resp with
    | .ok targetInfos =>
      (targetInfos.foldl onTargetCreated h).send tx (.targets (.ok targetInfos))
    | .error err => h.send tx (.targets (.error err))
  | .navigate id =>
    let h := h.onNavigationResponse id resp
    { h with config := { h.config with
        createdFirstTarget := h.config.createdFirstTarget || h.config.onlyHtml } }
  | .externalCommand tx _ => h.send tx (.response (.ok resp))
  | .internalCommand targetId =>
    { h with targets := h.targets.update targetId fun target =>
        (maybeStoreAttachSessionId env.decoders target method resp).onResponse env resp method }
  | .closeBrowser tx => { h with closing := true }.send tx (.closed (.ok ()))

def onResponse (h : Handler) (env : Env) (resp : Response) : Handler :=
  match h.pendingCommands.get resp.id with
  | some (req, method, _) =>
    { h with pendingCommands := h.pendingCommands.remove resp.id }.resolve env method resp req
  | none => h

/-! ### Timeouts -/

/-- One command that has waited for too long. -/
def timeOut (h : Handler) (call : CallId) : Handler :=
  match h.pendingCommands.get call with
  | some (req, _, _) =>
    let h := { h with pendingCommands := h.pendingCommands.remove call }
    match req with
    | .createTarget tx => h.send tx (.page (.error .timeout))
    | .getTargets tx => h.send tx (.targets (.error .timeout))
    | .navigate id =>
      match h.navigations.get id with
      | some nav =>
        { h with navigations := h.navigations.remove id }.send nav.tx (.response (.error .timeout))
      | none => h
    | .externalCommand tx _ => h.send tx (.response (.error .timeout))
    | .internalCommand _ => h
    | .closeBrowser tx => h.send tx (.closed (.error .timeout))
  | none => h

def evictTimedOutCommands (h : Handler) (now : Instant) : Handler :=
  if now < h.config.requestTimeout then h
  else
    let deadline := now - h.config.requestTimeout
    let timedOut := (h.pendingCommands.toList.filter fun entry => entry.2.2.2 < deadline).map Prod.fst
    timedOut.foldl timeOut h

/-- What a tick of the eviction timer does. -/
def evict (h : Handler) (now : Instant) : Handler :=
  let h := h.evictTimedOutCommands now
  { h with targets := h.targets.mapValues fun t =>
      { t with
        networkManager := t.networkManager.evictStaleEntries now
        frameManager := t.frameManager.evictStaleContextIds } }

end Handler

end SpiderChrome
