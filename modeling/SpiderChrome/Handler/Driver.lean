import SpiderChrome.Handler.State
import SpiderChrome.Library.Run

/-!
# The drivers of the handler

A handler is driven as a stream, by `poll_next`, or as a task of its own, by `run`. The two loops do the same things to the handler and to its targets, one thing after the other, and differ in how they poll a target and in what they do with a command of a page. `HandlerInput` lists the things, and `Handler.step` does one of them. The stream queues a call in its connection, which always takes it; `run` hands it to the channel of the writer, which may be full or closed, so an input says whether a call is accepted.
-/

namespace SpiderChrome

inductive Driver where
  | stream | run
deriving DecidableEq

/-- Whether a call is taken, where the channel of the writer would take it or not. -/
def Driver.accepts : Driver → Bool → Bool
  | stream, _ => true
  | run, accepted => accepted

namespace Handler

/-! ### Events of a target -/

/-- A command of a page that starts a navigation. The method `on_target_message` leaves it to the target to hand the request out again; `run` submits it as well. -/
def onNavigation (h : Handler) (driver : Driver) (accepted : Bool) (target : Target)
    (msg : CommandMessage) (now : Instant) : Handler × Target :=
  let id : NavigationId := ⟨h.nextNavigationId⟩
  let h := { h with
    nextNavigationId := wrappingSucc h.nextNavigationId
    gotos := h.gotos ++ [Goto.mk id msg.split.1 target.frameManager.mainFrame] }
  let target := target.goto ⟨id, msg.split.1, h.config.requestTimeout⟩
  let h := match driver with
    | .stream => h
    | .run => h.submit accepted msg.split.1 (.navigate id) now
  ({ h with navigations := h.navigations.set id (.new msg.sender) }, target)

/-- A command of a page that starts no navigation. The stream looks the target up by the session, `run` has it at hand. -/
def onPageCommand (h : Handler) (driver : Driver) (accepted : Bool) (target : Target)
    (msg : CommandMessage) (now : Instant) : Handler :=
  match driver with
  | .stream => h.submitExternalCommand accepted msg now
  | .run =>
    h.submit accepted msg.split.1 (.externalCommand msg.sender (some target.info.targetId)) now

/-- What a handler does with an event of one of its targets. -/
def onTargetEvent (h : Handler) (driver : Driver) (accepted : Bool) (target : Target)
    (event : TargetEvent) (now : Instant) : Handler × Target :=
  match event with
  | .request req => (h.submitInternalCommand accepted target.info.targetId req now, target)
  | .command msg =>
    if msg.isNavigation then h.onNavigation driver accepted target msg now
    else (h.onPageCommand driver accepted target msg now, target)
  | .navigationRequest id req => (h.submitNavigation accepted id req now, target)
  | .navigationResult res => (h.onNavigationLifecycleCompleted res, target)
  | .bytesConsumed bytes =>
    match h.remainingBytes with
    | some left =>
      let left := NetworkManager.saturatingSub left bytes
      ({ h with remainingBytes := some left, budgetExhausted := h.budgetExhausted || left = 0 },
        target)
    | none => (h, target)

def pollTarget : Driver → Target → Env → Instant → Target.Polled
  | .stream => Target.poll
  | .run => Target.advance

/-- One turn of the loop over the events of a target. -/
def turn (h : Handler) (driver : Driver) (accepted : Bool) (targetId : TargetId) (env : Env)
    (now : Instant) : Handler :=
  match h.targets.get targetId with
  | some target =>
    let polled := pollTarget driver target env now
    let (h, target) := match polled.event with
      | some event => h.onTargetEvent driver (driver.accepts accepted) polled.target event now
      | none => (h, polled.target)
    { h with targets := h.targets.set targetId target }
  | none => h

def perTargetDrainBudget : Nat := 128

/-- `run` takes the messages of a page from its channel and hands them to the target. -/
def drainPage (target : Target) : Target :=
  match target.page with
  | some handle =>
    (handle.rx.take perTargetDrainBudget).foldl Target.onPageMessage
      { target with page := some { handle with rx := handle.rx.drop perTargetDrainBudget } }
  | none => target

/-! ### Messages of the browser handle -/

/-- The pages of the targets that have one, or can have one. -/
def getPages (h : Handler) : Handler × List PageInner :=
  ({ h with targets := h.targets.mapValues fun target =>
      if target.isPage then target.createPage else target },
    (h.targets.values.filter Target.isPage).filterMap fun target => target.getOrCreatePage.2)

def getPage (h : Handler) (targetId : TargetId) : Handler × Option PageInner :=
  ({ h with targets := h.targets.update targetId Target.createPage },
    (h.targets.get targetId).bind fun target => target.getOrCreatePage.2)

/-- The target is not known to belong to the context. -/
def isOutside (h : Handler) (ctx : BrowserContext) (targetId : TargetId) : Bool :=
  match (h.targets.get targetId).bind fun target => target.info.browserContextId with
  | some id => some id ≠ ctx.id
  | none => true

def onBrowserMessage (h : Handler) (accepted : Bool) (msg : HandlerMessage) (now : Instant) :
    Handler :=
  match msg with
  | .command cmd => h.submitExternalCommand accepted cmd now
  | .fetchTargets tx => h.submitFetchTargets accepted tx now
  | .closeBrowser tx => h.submitClose accepted tx now
  | .createPage params tx =>
    let h := match params.browserContextId with
      | some id => { h with browserContexts := insert (BrowserContext.mk (some id)) h.browserContexts }
      | none => h
    h.createPage accepted params tx now
  | .getPages tx => h.getPages.1.send tx (.pages h.getPages.2)
  | .insertContext ctx =>
    { h with
      defaultBrowserContext :=
        if h.defaultBrowserContext.id = none then ctx else h.defaultBrowserContext
      browserContexts := insert ctx h.browserContexts }
  | .disposeContext ctx =>
    { h with
      browserContexts := h.browserContexts.erase ctx
      attachedTargets := h.attachedTargets.filter fun targetId => h.isOutside ctx targetId
      closing := true }
  | .getPage targetId tx => (h.getPage targetId).1.send tx (.pageIfAny (h.getPage targetId).2)
  | .addEventListener _ => h

/-- A handler whose budget is exhausted blocks all its targets. -/
def blockExhausted (h : Handler) : Handler :=
  if h.budgetExhausted then
    { h with targets := h.targets.mapValues fun target =>
        { target with networkManager := target.networkManager.setBlockAll true } }
  else h

end Handler

/-! ### Inputs -/

/-- What a driver does next: it takes a message of the browser handle, takes the messages of a page, polls a target, blocks the targets of an exhausted handler, takes a response or an event from the connection, or hears the eviction timer. A page may send a message at any time. -/
inductive HandlerInput where
  | browserMessage (accepted : Bool) (msg : HandlerMessage) (now : Instant)
  | pageMessage (targetId : TargetId) (msg : TargetMessage)
  | drainPage (targetId : TargetId)
  | turn (accepted : Bool) (targetId : TargetId) (env : Env) (now : Instant)
  | blockExhausted
  | response (env : Env) (resp : Response)
  | event (env : Env) (event : CdpEventMessage)
  | evict (now : Instant)

namespace Handler

def step (driver : Driver) (h : Handler) : HandlerInput → Handler
  | .browserMessage accepted msg now => h.onBrowserMessage (driver.accepts accepted) msg now
  | .pageMessage targetId msg =>
    { h with targets := h.targets.update targetId fun target => target.receive msg }
  | .drainPage targetId =>
    match driver with
    | .stream => h
    | .run => { h with targets := h.targets.update targetId drainPage }
  | .turn accepted targetId env now => h.turn driver accepted targetId env now
  | .blockExhausted => h.blockExhausted
  | .response env resp => h.onResponse env resp
  | .event env event => h.onEvent env event
  | .evict now => h.evict now

/-! ### A page that is ready -/

/-- The default configuration, with a timeout of 30 seconds. -/
def plainConfig : HandlerConfig where
  ignoreHttpsErrors := true
  viewport := none
  contextIds := []
  requestTimeout := 30000000000
  requestIntercept := false
  cacheEnabled := true
  serviceWorkerEnabled := true
  ignoreVisuals := false
  ignoreStylesheets := false
  ignoreJavascript := false
  allowFirstPartyStylesheets := true
  allowFirstPartyJavascript := true
  allowFirstPartyVisuals := true
  ignoreAnalytics := true
  ignorePrefetch := true
  extraHeaders := none
  onlyHtml := false
  createdFirstTarget := false
  interceptManager := ⟨"Unknown", fun _ _ _ => false⟩
  maxBytesAllowed := none
  maxRedirects := none
  maxMainFrameNavigations := none
  whitelistPatterns := none
  blacklistPatterns := none
  remoteLocalPolicy := false
  adblockEngine := none

/-- A browser with one session, and a page of one frame. -/
def plainEnv : Env where
  clock := fun _ => 0
  systemNow := 0
  cache := fun _ _ => none
  blockers := .none
  worldName := fun _ => "world"
  evaluationScriptUrl := "script"
  isClosed := fun _ => false
  decoders := {
    createTarget := fun _ => none
    attachToTarget := fun _ => some ⟨"session"⟩
    getTargets := fun _ => none
    getFrameTree := fun _ => some (.node ⟨⟨"main"⟩, none, none, "about:blank", none⟩ none) }
  debugTargetId := TargetId.inner

def plainTarget : TargetId := ⟨"page"⟩

def plainResponse (call : Nat) : Response := ⟨⟨call⟩, some (.object []), none⟩

/-- A target is created, and every command of its initialisation is answered. -/
def openPage : List HandlerInput :=
  .event plainEnv ⟨.targetTargetCreated ⟨plainTarget, "page", none, none⟩, none⟩ ::
    (List.range 10).flatMap fun call =>
      [.turn true plainTarget plainEnv 0, .response plainEnv (plainResponse (call + 1))]

/-- The page is fetched and asked to navigate, and the target is polled until it has nothing to tell. -/
def gotoPage : List HandlerInput :=
  [.turn true plainTarget plainEnv 0,
    .browserMessage true (.getPage plainTarget ⟨0⟩) 0,
    .pageMessage plainTarget (.command
      ⟨"Page.navigate", some ⟨"session"⟩, .object [("url", .string "https://example.org")], ⟨1⟩⟩),
    .drainPage plainTarget,
    .turn true plainTarget plainEnv 0,
    .turn true plainTarget plainEnv 0,
    .turn true plainTarget plainEnv 0]

end Handler

end SpiderChrome
