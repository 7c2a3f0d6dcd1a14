import SpiderChrome.Frame.Manager
import SpiderChrome.Network.Events

/-!
# Targets

A target owns a frame manager and a network manager, is initialised by chains of commands, and then exchanges messages with its page and events with the handler, as `handler/target.rs` has it. The listeners of a target are left out: nothing here reads them. What is sent on a oneshot channel is kept in `replies`, which no function reads either.
-/

namespace SpiderChrome

/-! ### What a target is made of -/

structure Viewport where
  width : UInt32
  height : UInt32
  /-- The literal of the number. -/
  deviceScaleFactor : Option String
  emulatingMobile : Bool
  isLandscape : Bool
  hasTouch : Bool

inductive TargetType where
  | page | backgroundPage | serviceWorker | sharedWorker | other | browser | webview
  | unknown (type : String)
deriving DecidableEq

def TargetType.new (type : String) : TargetType :=
  if type = "page" then page
  else if type = "background_page" then backgroundPage
  else if type = "service_worker" then serviceWorker
  else if type = "shared_worker" then sharedWorker
  else if type = "other" then other
  else if type = "browser" then browser
  else if type = "webview" then webview
  else unknown type

structure BrowserContext where
  id : Option BrowserContextId
deriving DecidableEq

structure TargetConfig where
  ignoreHttpsErrors : Bool
  requestTimeout : Duration
  viewport : Option Viewport
  requestIntercept : Bool
  cacheEnabled : Bool
  serviceWorkerEnabled : Bool
  ignoreVisuals : Bool
  ignoreStylesheets : Bool
  ignoreJavascript : Bool
  ignoreAnalytics : Bool
  ignorePrefetch : Bool
  allowFirstPartyStylesheets : Bool
  allowFirstPartyJavascript : Bool
  allowFirstPartyVisuals : Bool
  extraHeaders : Option (List (String × String))
  onlyHtml : Bool
  interceptManager : NetworkInterceptManager
  remoteLocalPolicy : Bool
  maxBytesAllowed : Option UInt64
  maxRedirects : Option Nat
  maxMainFrameNavigations : Option UInt32
  whitelistPatterns : Option (List String)
  blacklistPatterns : Option (List String)
  /-- The engine that is built from the filter rules. -/
  adblockEngine : Option AdblockEngine

/-- What a page knows of its target. -/
structure PageInner where
  targetId : TargetId
  sessionId : SessionId
  openerId : Option TargetId

inductive DOMWorldKind where
  | main | secondary
deriving DecidableEq

/-- A message that a page sends to its target. Of a listener only its method is kept. -/
inductive TargetMessage where
  | command (cmd : CommandMessage)
  | mainFrame (tx : Sender)
  | allFrames (tx : Sender)
  | cacheKey (cacheKey : Option String) (cachePolicy : Option BasicCachePolicy)
  | url (frameId : Option FrameId) (tx : Sender)
  | name (frameId : Option FrameId) (tx : Sender)
  | parent (frameId : FrameId) (tx : Sender)
  | waitForNavigation (tx : Sender)
  | waitForDomContentLoaded (tx : Sender)
  | waitForLoad (tx : Sender)
  | waitForNetworkIdle (tx : Sender)
  | waitForNetworkAlmostIdle (tx : Sender)
  | addEventListener (method : MethodId)
  | getExecutionContext (domWorld : DOMWorldKind) (frameId : Option FrameId) (tx : Sender)
  | authenticate (credentials : Credentials)
  | blockNetwork (blocked : Bool)
  | enableInterception (enabled : Bool)

/-- What is sent on a oneshot channel. -/
inductive Reply where
  | response (result : Except CdpError Response)
  | page (result : Except CdpError PageInner)
  | targets (result : Except CdpError (List TargetInfo))
  | closed (result : Except CdpError Unit)
  | pages (pages : List PageInner)
  | pageIfAny (page : Option PageInner)
  | httpRequest (request : Option HttpRequest)
  | frameId (id : Option FrameId)
  | frameIds (ids : List FrameId)
  | text (text : Option String)
  | executionContext (id : Option ExecutionContextId)

/-- The receiving half of the page's channel, with what waits in it. -/
structure PageHandle where
  rx : List TargetMessage
  page : PageInner

inductive TargetEvent where
  | request (req : Request)
  | navigationRequest (id : NavigationId) (req : Request)
  | navigationResult (result : Except NavigationError NavigationOk)
  | command (msg : CommandMessage)
  | bytesConsumed (bytes : UInt64)

inductive TargetInit where
  | initializingFrame (cmds : CommandChain)
  | initializingNetwork (cmds : CommandChain)
  | initializingPage (cmds : CommandChain)
  | initializingEmulation (cmds : CommandChain)
  | attachToTarget
  | initialized
  | closing

/-- The state with its chain changed, where it has one. -/
def TargetInit.mapCommands (f : CommandChain → CommandChain) : TargetInit → TargetInit
  | initializingFrame cmds => initializingFrame (f cmds)
  | initializingNetwork cmds => initializingNetwork (f cmds)
  | initializingPage cmds => initializingPage (f cmds)
  | initializingEmulation cmds => initializingEmulation (f cmds)
  | init => init

structure Target where
  info : TargetInfo
  type : TargetType
  config : TargetConfig
  browserContext : BrowserContext
  frameManager : FrameManager
  networkManager : NetworkManager
  sessionId : Option SessionId
  page : Option PageHandle
  initState : TargetInit
  queuedEvents : List TargetEvent
  waitForFrameNavigation : List Sender
  waitForDomContentLoaded : List Sender
  waitForLoad : List Sender
  waitForNetworkIdle : List Sender
  waitForNetworkAlmostIdle : List Sender
  initiator : Option Sender
  replies : List (Sender × Reply)

/-- What is read outside the handler during a call: the clock, at each reading, the system clock, the session cache, the lists of other packages, the random names, the channels whose receiver is gone, the decoders, and the way a target id is printed. -/
structure Env where
  clock : Nat → Instant
  systemNow : Instant
  cache : SessionCache
  blockers : Blockers
  worldName : FrameId → String
  evaluationScriptUrl : String
  isClosed : Sender → Bool
  decoders : Decoders
  debugTargetId : TargetId → String

/-! ### Commands of initialisation -/

namespace FrameManager

def initCommands (timeout : Duration) : CommandChain :=
  .new
    [("Page.enable", .object []), ("Page.getFrameTree", .object []),
      ("Page.setLifecycleEventsEnabled", .object [("enabled", .bool true)])]
    timeout

/-- The method `get_isolated_world_name`. -/
def isolatedWorldName? (fm : FrameManager) : Option String :=
  fm.mainFrame?.map Frame.isolatedWorldName

def ensureIsolatedWorld (fm : FrameManager) (evaluationScriptUrl worldName : String) :
    FrameManager × Option CommandChain :=
  if worldName ∈ fm.isolatedWorlds then (fm, none)
  else
    ({ fm with isolatedWorlds := insert worldName fm.isolatedWorlds },
      some (.new
        (("Page.addScriptToEvaluateOnNewDocument", .object
          [("source", .string ("//# sourceURL=" ++ evaluationScriptUrl)),
            ("worldName", .string worldName)]) ::
        fm.frames.keys.map fun id => ("Page.createIsolatedWorld", .object
          [("frameId", .string id.inner), ("worldName", .string worldName),
            ("grantUniveralAccess", .bool true)]))
        fm.requestTimeout))

end FrameManager

/-- `init_commands` of the emulation manager. -/
def emulationInitCommands (viewport : Viewport) (timeout : Duration) : CommandChain :=
  .new
    [("Emulation.setDeviceMetricsOverride", .object
      [("width", .number (toString viewport.width)),
        ("height", .number (toString viewport.height)),
        ("deviceScaleFactor", .number (viewport.deviceScaleFactor.getD "1.0")),
        ("mobile", .bool viewport.emulatingMobile),
        ("screenOrientation", .object
          (if viewport.isLandscape then
            [("type", .string "landscapePrimary"), ("angle", .number "90")]
          else [("type", .string "portraitPrimary"), ("angle", .number "0")]))]),
      ("Emulation.setTouchEmulationEnabled", .object [("enabled", .bool viewport.emulatingMobile)])]
    timeout

namespace Target

/-- Built without the `collect_metrics` feature. -/
def pageInitCommands (timeout : Duration) : CommandChain :=
  .new
    [("Target.setAutoAttach", .object
      [("autoAttach", .bool true), ("waitForDebuggerOnStart", .bool true), ("flatten", .bool true)]),
      ("Log.disable", .object [])]
    timeout

/-! ### A new target -/

/-- The network manager of a new target. -/
def configuredNetworkManager (config : TargetConfig) : NetworkManager :=
  let nm := NetworkManager.new config.ignoreHttpsErrors config.requestTimeout
  let nm := if !config.cacheEnabled then nm.setCacheEnabled false else nm
  let nm := if !config.serviceWorkerEnabled then nm.setServiceWorkerEnabled true else nm
  let nm := nm.setRequestInterception config.requestIntercept
  let nm := { nm with
    maxBytesAllowed := config.maxBytesAllowed
    maxRedirects := config.maxRedirects }
  let nm := match config.extraHeaders with
    | some headers => nm.setExtraHeaders headers
    | none => nm
  let nm := match config.whitelistPatterns with
    | some whitelist => nm.setWhitelistPatterns whitelist
    | none => nm
  let nm := match config.blacklistPatterns with
    | some blacklist => nm.setBlacklistPatterns blacklist
    | none => nm
  let nm := { nm with
    ignoreVisuals := config.ignoreVisuals
    blockJavascript := config.ignoreJavascript
    blockAnalytics := config.ignoreAnalytics
    blockPrefetch := config.ignorePrefetch
    blockStylesheets := config.ignoreStylesheets
    allowFirstPartyStylesheets := config.allowFirstPartyStylesheets
    allowFirstPartyJavascript := config.allowFirstPartyJavascript
    allowFirstPartyVisuals := config.allowFirstPartyVisuals
    onlyHtml := config.onlyHtml
    interceptManager := config.interceptManager }
  let nm := (nm.setRemoteLocalPolicy config.remoteLocalPolicy).emitRequestPolicy
  match config.adblockEngine with
  | some engine => nm.setAdblockEngine engine
  | none => nm

def new (info : TargetInfo) (config : TargetConfig) (browserContext : BrowserContext) : Target where
  info := info
  type := .new info.type
  config := config
  browserContext := browserContext
  frameManager :=
    (FrameManager.new config.requestTimeout).setMaxMainFrameNavigations config.maxMainFrameNavigations
  networkManager := configuredNetworkManager config
  sessionId := none
  page := none
  initState := .attachToTarget
  queuedEvents := []
  waitForFrameNavigation := []
  waitForDomContentLoaded := []
  waitForLoad := []
  waitForNetworkIdle := []
  waitForNetworkAlmostIdle := []
  initiator := none
  replies := []

/-! ### Small steps -/

/-- A message is put into the channel of the page, if there is one. -/
def receive (t : Target) (msg : TargetMessage) : Target :=
  { t with page := t.page.map fun handle => { handle with rx := handle.rx ++ [msg] } }

def isPage (t : Target) : Bool := t.type = .page

def setSessionId (t : Target) (id : SessionId) : Target := { t with sessionId := some id }

def setInitiator (t : Target) (tx : Sender) : Target := { t with initiator := some tx }

def send (t : Target) (tx : Sender) (reply : Reply) : Target :=
  { t with replies := t.replies ++ [(tx, reply)] }

def pushEvent (t : Target) (event : TargetEvent) : Target :=
  { t with queuedEvents := t.queuedEvents ++ [event] }

/-- A request in the target's session. -/
def sessionRequest (t : Target) (method : MethodId) (params : Value) : Request :=
  ⟨method, t.sessionId.map SessionId.inner, params⟩

/-- The method `create_page`. -/
def createPage (t : Target) : Target :=
  match t.page, t.sessionId with
  | none, some session =>
    { t with page := some ⟨[], t.info.targetId, session, t.info.openerId⟩ }
  | _, _ => t

/-- The method `get_or_create_page`, with the page if there is one then. -/
def getOrCreatePage (t : Target) : Target × Option PageInner :=
  (t.createPage, t.createPage.page.map PageHandle.page)

def goto (t : Target) (req : FrameRequestedNavigation) : Target :=
  let nm :=
    if t.networkManager.hasTargetDomain then
      let nm := t.networkManager.clearTargetDomain
      match (req.req.params.field? "url").bind Value.asStr with
      | some url => nm.setPageUrl url
      | none => nm
    else t.networkManager
  { t with networkManager := nm, frameManager := t.frameManager.goto req }

def onResponse (t : Target) (env : Env) (resp : Response) (method : MethodId) : Target :=
  let t := { t with initState := t.initState.mapCommands fun cmds => cmds.receivedResponse method }
  if method = "Page.getFrameTree" then
    match resp.result.bind env.decoders.getFrameTree with
    | some frameTree =>
      { t with frameManager := FrameManager.onFrameTree env.worldName frameTree t.frameManager }
    | none => t
  else t

def onInitializationFailed (t : Target) : Target × TargetEvent :=
  let t := match t.initiator with
    | some initiator => { t with initiator := none }.send initiator (.page (.error .timeout))
    | none => t
  let t := { t with initState := .closing }
  (t, .request (t.sessionRequest "Target.closeTarget"
    (.object [("targetId", .string t.info.targetId.inner)])))

end Target

end SpiderChrome
