import SpiderChrome.Target.State

/-!
# What a target does

A target takes in the events of its session and the messages of its page, and is polled for what it has to tell the handler. `poll` is the method of the stream and reads the page's channel itself; `advance` is the one of the other drivers, which hand the messages over beforehand. What the two share is written once.
-/

namespace SpiderChrome

structure EventAttachedToTarget where
  sessionId : SessionId
  targetInfo : TargetInfo
  waitingForDebugger : Bool

structure EventTargetCrashed where
  targetId : TargetId
  status : String
  errorCode : Int

/-- The events that the handler and its targets look at. -/
inductive CdpEvent where
  | targetTargetCreated (targetInfo : TargetInfo)
  | targetAttachedToTarget (event : EventAttachedToTarget)
  | targetTargetDestroyed (targetId : TargetId)
  | targetTargetCrashed (event : EventTargetCrashed)
  | targetDetachedFromTarget (sessionId : SessionId)
  | pageFrameAttached (frameId parentFrameId : FrameId)
  | pageFrameDetached (frameId : FrameId)
  | pageFrameNavigated (frame : CdpFrame)
  | pageNavigatedWithinDocument (event : EventNavigatedWithinDocument)
  | pageLifecycleEvent (event : EventLifecycleEvent)
  | pageFrameStartedLoading (frameId : FrameId)
  | pageFrameStoppedLoading (frameId : FrameId)
  | runtimeExecutionContextCreated (context : ExecutionContextDescription)
  | runtimeExecutionContextDestroyed (uniqueId : String)
  | runtimeExecutionContextsCleared
  | runtimeBindingCalled
  | fetchRequestPaused (event : EventRequestPaused)
  | fetchAuthRequired (requestId : Fetch.RequestId)
  | networkRequestWillBeSent (event : EventRequestWillBeSent)
  | networkRequestServedFromCache (requestId : Network.RequestId)
  | networkResponseReceived (event : EventResponseReceived)
  | networkLoadingFinished (requestId : Network.RequestId)
  | networkLoadingFailed (event : EventLoadingFailed)
  | other

structure CdpEventMessage where
  params : CdpEvent
  sessionId : Option String

/-- The event is meant for the session it names and no other. -/
def CdpEvent.isSessionScoped : CdpEvent → Bool
  | targetTargetCreated _ | targetAttachedToTarget _ | targetTargetDestroyed _
  | targetTargetCrashed _ | targetDetachedFromTarget _ | networkRequestServedFromCache _
  | other => false
  | _ => true

namespace Target

def onEvent (t : Target) (env : Env) (event : CdpEventMessage) : Target :=
  if event.params.isSessionScoped ∧
      (event.sessionId = none ∨ t.sessionId.map SessionId.inner ≠ event.sessionId) then t
  else
    let fm := t.frameManager
    let nm := t.networkManager
    match event.params with
    | .pageFrameAttached frameId parentFrameId =>
      { t with frameManager := fm.onFrameAttached frameId (some parentFrameId) }
    | .pageFrameDetached frameId => { t with frameManager := fm.onFrameDetached frameId }
    | .pageFrameNavigated frame =>
      { t with frameManager := fm.onFrameNavigated frame (env.worldName frame.id) }
    | .pageNavigatedWithinDocument ev =>
      { t with frameManager := fm.onFrameNavigatedWithinDocument ev }
    | .runtimeExecutionContextCreated context =>
      { t with frameManager := fm.onFrameExecutionContextCreated context }
    | .runtimeExecutionContextDestroyed uniqueId =>
      { t with frameManager := fm.onFrameExecutionContextDestroyed uniqueId }
    | .runtimeExecutionContextsCleared =>
      { t with frameManager := fm.onExecutionContextsCleared }
    | .pageLifecycleEvent ev => { t with frameManager := fm.onPageLifecycleEvent ev }
    | .pageFrameStartedLoading frameId => { t with frameManager := fm.onFrameStartedLoading frameId }
    | .pageFrameStoppedLoading frameId => { t with frameManager := fm.onFrameStoppedLoading frameId }
    | .targetAttachedToTarget ev =>
      let t :=
        if ev.waitingForDebugger then
          t.pushEvent (.request
            ⟨"Runtime.runIfWaitingForDebugger", some ev.sessionId.inner, .object []⟩)
        else t
      if ev.targetInfo.type = "service_worker" then
        t.pushEvent (.request (t.sessionRequest "Target.detachFromTarget"
          (.object [("sessionId", .string ev.sessionId.inner)])))
      else t
    | .fetchRequestPaused ev =>
      { t with
        networkManager :=
          nm.onFetchRequestPaused env.blockers env.cache (env.clock 0) env.systemNow ev }
    | .fetchAuthRequired requestId => { t with networkManager := nm.onFetchAuthRequired requestId }
    | .networkRequestWillBeSent ev =>
      { t with networkManager := nm.onRequestWillBeSent (env.clock 0) ev }
    | .networkRequestServedFromCache requestId =>
      { t with networkManager := nm.onRequestServedFromCache requestId }
    | .networkResponseReceived ev => { t with networkManager := nm.onResponseReceived ev }
    | .networkLoadingFinished requestId =>
      { t with networkManager := nm.onNetworkLoadingFinished requestId }
    | .networkLoadingFailed ev => { t with networkManager := nm.onNetworkLoadingFailed ev }
    | _ => t

/-! ### Messages of the page -/

/-- What `Network.setBlockedURLs` asks of the network manager. -/
def setBlockedUrls (nm : NetworkManager) (params : Value) : NetworkManager :=
  match (params.field? "urls").bind Value.asArray with
  | some urls =>
    let urls := urls.filterMap Value.asStr
    if "!*" ∈ urls then nm.setBlockAll false
    else if urls.any fun s => s.toList.contains '*' then nm.setBlockAll true
    else nm
  | none => nm

/-- The frame that a message asks about. -/
def askedFrame (t : Target) (frameId : Option FrameId) : Option Frame :=
  match frameId with
  | some frameId => t.frameManager.frames.get frameId
  | none => t.frameManager.mainFrame?

/-- Whether the main frame has come as far as a waiter wants. -/
def mainFrameIs (t : Target) (reached : Frame → Bool) : Bool :=
  (t.frameManager.mainFrame?.map reached).getD false

/-- The request of the main frame, which is what waiters are sent. -/
def mainRequest (t : Target) : Reply :=
  .httpRequest (t.frameManager.mainFrame?.bind Frame.httpRequest)

/-- One message of the page. `poll` has the same arms as `on_page_message`. -/
def handlePageMessage (t : Target) : TargetMessage → Target
  | .command cmd =>
    { t with
      networkManager :=
        if cmd.method = "Network.setBlockedURLs" then setBlockedUrls t.networkManager cmd.params
        else t.networkManager }.pushEvent (.command cmd)
  | .mainFrame tx => t.send tx (.frameId (t.frameManager.mainFrame?.map Frame.id))
  | .allFrames tx => t.send tx (.frameIds (t.frameManager.frames.values.map Frame.id))
  | .cacheKey cacheKey cachePolicy =>
    { t with
      networkManager := (t.networkManager.setCacheSiteKey cacheKey).setCachePolicy cachePolicy }
  | .url frameId tx => t.send tx (.text ((t.askedFrame frameId).bind Frame.url))
  | .name frameId tx => t.send tx (.text ((t.askedFrame frameId).bind Frame.name))
  | .parent frameId tx =>
    t.send tx (.frameId ((t.frameManager.frames.get frameId).bind Frame.parentFrame))
  | .waitForNavigation tx =>
    if t.mainFrameIs Frame.isDomContentLoaded then t.send tx t.mainRequest
    else { t with waitForFrameNavigation := t.waitForFrameNavigation ++ [tx] }
  | .waitForDomContentLoaded tx =>
    if t.mainFrameIs Frame.isDomContentLoaded then t.send tx t.mainRequest
    else { t with waitForDomContentLoaded := t.waitForDomContentLoaded ++ [tx] }
  | .waitForLoad tx =>
    if t.mainFrameIs Frame.isLoaded then t.send tx t.mainRequest
    else { t with waitForLoad := t.waitForLoad ++ [tx] }
  | .waitForNetworkIdle tx =>
    if t.mainFrameIs Frame.isNetworkIdle then t.send tx t.mainRequest
    else { t with waitForNetworkIdle := t.waitForNetworkIdle ++ [tx] }
  | .waitForNetworkAlmostIdle tx =>
    if t.mainFrameIs Frame.isNetworkAlmostIdle then t.send tx t.mainRequest
    else { t with waitForNetworkAlmostIdle := t.waitForNetworkAlmostIdle ++ [tx] }
  | .addEventListener method =>
    if method = "Fetch.requestPaused" then
      { t with networkManager := t.networkManager.enableRequestIntercept }
    else t
  | .getExecutionContext domWorld frameId tx =>
    t.send tx (.executionContext ((t.askedFrame frameId).bind fun frame =>
      match domWorld with
      | .main => frame.mainWorld.executionCtx
      | .secondary => frame.secondaryWorld.executionCtx))
  | .authenticate credentials =>
    { t with networkManager := t.networkManager.authenticate credentials }
  | .blockNetwork blocked => { t with networkManager := t.networkManager.setBlockAll blocked }
  | .enableInterception enabled =>
    { t with networkManager := { t.networkManager with userRequestInterceptionEnabled := !enabled } }

def onPageMessage (t : Target) (msg : TargetMessage) : Target :=
  match t.initState with
  | .closing => t
  | _ => t.handlePageMessage msg

/-! ### Initialisation -/

/-- What becomes of a poll after the initialisation had its turn. -/
inductive InitTurn where
  | emit (event : TargetEvent)
  | stop
  | proceed

/-- The arm of an initialised target: the page goes to whoever asked for it once the main frame is loaded. -/
def serveInitiator (t : Target) : Target :=
  match t.initiator with
  | some initiator =>
    if t.mainFrameIs Frame.isLoaded then
      match t.getOrCreatePage with
      | (t, some page) => { t with initiator := none }.send initiator (.page (.ok page))
      | (t, none) => t
    else t
  | none => t

/-- What an initialising target does with the answer of its chain, unless the chain is done. -/
def chainTurn (t : Target) : NextCommand → Target × InitTurn
  | .command method params => (t, .emit (.request (t.sessionRequest method params)))
  | .deadlineExceeded _ _ =>
    let (t, event) := t.onInitializationFailed
    (t, .emit event)
  | _ => (t, .stop)

/-- The state that a finished chain of frames leads to. -/
def afterFrameChain (t : Target) (env : Env) : Target :=
  match t.frameManager.isolatedWorldName? with
  | some worldName =>
    match t.frameManager.ensureIsolatedWorld env.evaluationScriptUrl worldName with
    | (fm, some isolatedWorldCmds) =>
      { t with frameManager := fm, initState := .initializingFrame isolatedWorldCmds }
    | (fm, none) =>
      { t with frameManager := fm, initState := .initializingNetwork t.networkManager.initCommands }
  | none => { t with initState := .initializingNetwork t.networkManager.initCommands }

/-- The `match` on the state of the initialisation, followed through at most so many finished chains. -/
def initTurn (env : Env) (now : Instant) : Nat → Target → Target × InitTurn
  | 0, t => (t, .stop)
  | chains + 1, t =>
    match t.initState with
    | .attachToTarget =>
      ({ t with initState := .initializingFrame (FrameManager.initCommands t.config.requestTimeout) },
        .emit (.request ⟨"Target.attachToTarget", none,
          .object [("targetId", .string t.info.targetId.inner), ("flatten", .bool true)]⟩))
    | .initializingFrame cmds =>
      if t.sessionId = none then (t, .stop)
      else match cmds.poll now with
        | (cmds, .done) =>
          initTurn env now chains ({ t with initState := .initializingFrame cmds }.afterFrameChain env)
        | (cmds, next) => { t with initState := .initializingFrame cmds }.chainTurn next
    | .initializingNetwork cmds =>
      match cmds.poll now with
      | (_, .done) =>
        initTurn env now chains
          { t with initState := .initializingPage (pageInitCommands t.config.requestTimeout) }
      | (cmds, next) => { t with initState := .initializingNetwork cmds }.chainTurn next
    | .initializingPage cmds =>
      match cmds.poll now with
      | (_, .done) =>
        initTurn env now chains { t with initState := match t.config.viewport with
          | some viewport =>
            .initializingEmulation (emulationInitCommands viewport t.config.requestTimeout)
          | none => .initialized }
      | (cmds, next) => { t with initState := .initializingPage cmds }.chainTurn next
    | .initializingEmulation cmds =>
      match cmds.poll now with
      | (_, .done) => initTurn env now chains { t with initState := .initialized }
      | (cmds, next) => { t with initState := .initializingEmulation cmds }.chainTurn next
    | .initialized => (t.serveInitiator, .proceed)
    | .closing => (t, .stop)

/-! ### The event pump -/

def waiterDrainBudget : Nat := 64

/-- `pop` as often as the budget allows. The senders in the order they fire, and those that are left. -/
def drainWaiters (queue : List Sender) (budget : Nat) : List Sender × List Sender :=
  (queue.reverse.take budget, queue.take (queue.length - budget))

/-- Waiters whose receiver is gone are dropped. -/
def pruneWaiters (t : Target) (isClosed : Sender → Bool) : Target :=
  { t with
    waitForFrameNavigation := t.waitForFrameNavigation.filter fun tx => !isClosed tx
    waitForDomContentLoaded := t.waitForDomContentLoaded.filter fun tx => !isClosed tx
    waitForLoad := t.waitForLoad.filter fun tx => !isClosed tx
    waitForNetworkIdle := t.waitForNetworkIdle.filter fun tx => !isClosed tx
    waitForNetworkAlmostIdle := t.waitForNetworkAlmostIdle.filter fun tx => !isClosed tx }

/-- One queue of waiters that may fire: the senders that fire and those that are left. -/
def fire (reached : Bool) (budget : List Sender → Nat) (queue : List Sender) :
    List Sender × List Sender :=
  if reached then drainWaiters queue (budget queue) else ([], queue)

/-- The waiters that the main frame has come far enough for, each queue up to a budget. The result tells whether any are left of a queue that fired. -/
def notifyWaiters (t : Target) (budget : List Sender → Nat) : Target × Bool :=
  match t.frameManager.mainFrame? with
  | some frame =>
    let dom := fire frame.isDomContentLoaded budget t.waitForDomContentLoaded
    let navigation := fire frame.isDomContentLoaded budget t.waitForFrameNavigation
    let load := fire frame.isLoaded budget t.waitForLoad
    let idle := fire frame.isNetworkIdle budget t.waitForNetworkIdle
    let almostIdle := fire frame.isNetworkAlmostIdle budget t.waitForNetworkAlmostIdle
    let fired := dom.1 ++ navigation.1 ++ load.1 ++ idle.1 ++ almostIdle.1
    ({ t with
        waitForDomContentLoaded := dom.2
        waitForFrameNavigation := navigation.2
        waitForLoad := load.2
        waitForNetworkIdle := idle.2
        waitForNetworkAlmostIdle := almostIdle.2
        replies := t.replies ++ fired.map fun tx => (tx, .httpRequest frame.httpRequest) },
      frame.isDomContentLoaded && !(dom.2.isEmpty && navigation.2.isEmpty) ||
        frame.isLoaded && !load.2.isEmpty ||
        frame.isNetworkIdle && !idle.2.isEmpty ||
        frame.isNetworkAlmostIdle && !almostIdle.2.isEmpty)
  | none => (t, false)

/-- What becomes of one event of the network manager. -/
def handleNetworkEvent (t : Target) : NetworkEvent → Target
  | .sendCdpRequest command =>
    t.pushEvent (.request (t.sessionRequest command.identifier command.params))
  | .request _ => t
  | .response _ => t
  | .requestFailed request =>
    { t with frameManager := t.frameManager.onHttpRequestFinished request }
  | .requestFinished request =>
    { t with frameManager := t.frameManager.onHttpRequestFinished request }
  | .bytesConsumed bytes => t.pushEvent (.bytesConsumed bytes)

/-- The loop that polls the network manager until it is empty. -/
def drainNetwork (t : Target) : Target :=
  t.networkManager.queuedEvents.foldl handleNetworkEvent
    { t with networkManager := { t.networkManager with queuedEvents := [] } }

def frameEvent : FrameEvent → TargetEvent
  | .navigationResult result => .navigationResult result
  | .navigationRequest id req => .navigationRequest id req

/-- The loop that polls the frame manager until it yields nothing, with a bound on the turns. -/
def drainFramesTo (clock : Nat → Instant) (now : Instant) : Nat → Target → Target
  | 0, t => t
  | turns + 1, t =>
    match t.frameManager.poll now (clock turns) with
    | (fm, some event) =>
      drainFramesTo clock now turns ({ t with frameManager := fm }.pushEvent (frameEvent event))
    | (fm, none) => { t with frameManager := fm }

/-- A navigation is handed out once and ends once, which bounds the turns. -/
def frameTurns (fm : FrameManager) : Nat :=
  2 * fm.pendingNavigations.length + (if fm.navigation.isSome then 1 else 0)

def drainFrames (t : Target) (clock : Nat → Instant) (now : Instant) : Target :=
  drainFramesTo clock now (frameTurns t.frameManager) t

/-- The loop over the page's channel in `poll`. -/
def receivePageMessages (t : Target) : Target :=
  match t.page with
  | some handle => handle.rx.foldl handlePageMessage { t with page := some { handle with rx := [] } }
  | none => t

/-- What a poll leaves and yields. `woken` tells that the waker was called. -/
structure Polled where
  target : Target
  event : Option TargetEvent
  woken : Bool

/-- The `loop` of `poll` and `advance`. Its second turn ends it: either there is an event by then, or there was none to queue. -/
def pump (t : Target) (budget : List Sender → Nat) (receive : Target → Target)
    (clock : Nat → Instant) (now : Instant) : Polled :=
  let (t, woken) := t.notifyWaiters budget
  match t.queuedEvents with
  | event :: rest => ⟨{ t with queuedEvents := rest }, some event, woken⟩
  | [] =>
    let t := ((receive t).drainNetwork).drainFrames clock now
    match t.queuedEvents with
    | [] => ⟨t, none, woken⟩
    | event :: rest =>
      let (t, again) := t.notifyWaiters budget
      ⟨{ t with queuedEvents := rest }, some event, woken || again⟩

/-- What `poll` and `advance` share. -/
def pollWith (t : Target) (budget : List Sender → Nat) (receive : Target → Target) (env : Env)
    (now : Instant) : Polled :=
  if !t.isPage then ⟨t, none, false⟩
  else match initTurn env now 6 t with
    | (t, .emit event) => ⟨t, some event, false⟩
    | (t, .stop) => ⟨t, none, false⟩
    | (t, .proceed) => (t.pruneWaiters env.isClosed).pump budget receive env.clock now

def poll (t : Target) (env : Env) (now : Instant) : Polled :=
  t.pollWith (fun _ => waiterDrainBudget) receivePageMessages env now

def advance (t : Target) (env : Env) (now : Instant) : Polled :=
  t.pollWith List.length (fun t => t) env now

end Target

end SpiderChrome
