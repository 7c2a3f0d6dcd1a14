import SpiderChrome.Parallel.Session

/-!
# The router

The task at the top of the parallel handler, as `handler/parallel/router.rs` and `ids.rs` have it. It reads the connection, hands every response and event to the task of its session, and sees to what the browser handle asks for. The allocator of call ids is shared with the tasks. What the router hands to the writer and to the tasks, the tasks that it spawns and what it sends on oneshot channels are kept in records, which no function reads.
-/

namespace SpiderChrome

/-! ### Call ids -/

/-- The counter of call ids, and for each call of a task the slot that its response goes to. -/
structure CallIdAllocator where
  next : Nat
  routing : Table CallId UInt16

namespace CallIdAllocator

def new (start : Nat) : CallIdAllocator := ⟨max start 1, ∅⟩

/-- A fresh id. Slot 0 is the router's, whose responses need no route. -/
def alloc (ids : CallIdAllocator) (slot : UInt16) : CallIdAllocator × CallId :=
  let id : CallId := ⟨ids.next⟩
  ({ next := wrappingSucc ids.next,
     routing := if slot ≠ 0 then ids.routing.set id slot else ids.routing }, id)

def takeRoute (ids : CallIdAllocator) (id : CallId) : CallIdAllocator × Option UInt16 :=
  ({ ids with routing := ids.routing.remove id }, ids.routing.get id)

def dropSlot (ids : CallIdAllocator) (slot : UInt16) : CallIdAllocator :=
  { ids with routing := ids.routing.retain fun _ s => s ≠ slot }

end CallIdAllocator

/-! ### The state -/

/-- What the router sends to a task. -/
inductive RouterToSession where
  | response (callId : CallId) (resp : Response) (method : MethodId)
  | event (event : CdpEventMessage)
  | setInitiator (tx : Sender)
  | shutdown

/-- A call of the router that waits for its response. -/
inductive RouterPending where
  | createTarget (tx : Sender)
  | browserCommand (tx : Sender)
  | boot

structure SessionEntry where
  targetId : TargetId
  sessionId : Option String

structure Router where
  config : HandlerConfig
  defaultBrowserContext : BrowserContext
  ids : CallIdAllocator
  pending : Table CallId (RouterPending × MethodId × Instant)
  pendingInitiatorTs : Table TargetId Instant
  sessions : Table UInt16 SessionEntry
  targetIdToSlot : Table TargetId UInt16
  sessionIdToSlot : Table String UInt16
  nextSlot : UInt16
  pendingInitiators : Table TargetId Sender
  /-- No slot was left, and the task has panicked. -/
  panicked : Bool
  submitted : List MethodCall
  replies : List (Sender × Reply)
  toSessions : List (UInt16 × RouterToSession)
  spawned : List (UInt16 × TargetInfo × BrowserContext)

namespace Router

/-- A new router. The call that asks the browser to report targets is on its way. -/
def new (config : HandlerConfig) (defaultBrowserContext : BrowserContext) (bootCallId : CallId)
    (bootMethod : MethodId) (nextCallId : Nat) (now : Instant) : Router where
  config := config
  defaultBrowserContext := defaultBrowserContext
  ids := .new nextCallId
  pending := (∅ : Table _ _).set bootCallId (.boot, bootMethod, now)
  pendingInitiatorTs := ∅
  sessions := ∅
  targetIdToSlot := ∅
  sessionIdToSlot := ∅
  nextSlot := 1
  pendingInitiators := ∅
  panicked := false
  submitted := []
  replies := []
  toSessions := []
  spawned := []

def send (r : Router) (tx : Sender) (reply : Reply) : Router :=
  { r with replies := r.replies ++ [(tx, reply)] }

def toSession (r : Router) (slot : UInt16) (msg : RouterToSession) : Router :=
  { r with toSessions := r.toSessions ++ [(slot, msg)] }

/-! ### Responses -/

def handleRouterResponse (r : Router) (decoders : Decoders) (now : Instant) (callId : CallId)
    (resp : Response) : Router :=
  match r.pending.get callId with
  | some (pending, _, _) =>
    let r := { r with pending := r.pending.remove callId }
    match pending with
    | .boot => r
    | .browserCommand tx => r.send tx (.response (.ok resp))
    | .createTarget tx =>
      match toCommandResponse decoders.createTarget resp with
      | .ok targetId =>
        match r.targetIdToSlot.get targetId with
        | some slot =>
          match r.sessions.get slot with
          | some _ => r.toSession slot (.setInitiator tx)
          | none => r.send tx (.page (.error .notFound))
        | none =>
          -- The response may come before the event, which then finds the initiator here.
          { r with
            pendingInitiatorTs := r.pendingInitiatorTs.set targetId now
            pendingInitiators := r.pendingInitiators.set targetId tx }
      | .error err => r.send tx (.page (.error err))
  | none => r

def onResponse (r : Router) (decoders : Decoders) (now : Instant) (resp : Response) : Router :=
  let (ids, route) := r.ids.takeRoute resp.id
  let r := { r with ids := ids }
  match route with
  | some slot =>
    match r.sessions.get slot with
    | some _ => r.toSession slot (.response resp.id resp "")
    | none => r
  | none => r.handleRouterResponse decoders now resp.id resp

/-! ### Targets and sessions -/

/-- A target that the router has no task for gets one, and with it the initiator that waits for it. -/
def onTargetCreated (r : Router) (info : TargetInfo) : Router :=
  if (r.targetIdToSlot.get info.targetId).isSome then r
  else if r.nextSlot = 65535 then { r with panicked := true }
  else
    let browserCtx := match info.browserContextId with
      | some contextId => BrowserContext.mk (some contextId)
      | none => r.defaultBrowserContext
    let slot := r.nextSlot
    let parkedInitiator := r.pendingInitiators.get info.targetId
    let r := { r with
      nextSlot := slot + 1
      targetIdToSlot := r.targetIdToSlot.set info.targetId slot
      pendingInitiators := r.pendingInitiators.remove info.targetId
      pendingInitiatorTs := r.pendingInitiatorTs.remove info.targetId
      sessions := r.sessions.set slot ⟨info.targetId, none⟩
      spawned := r.spawned ++ [(slot, info, browserCtx)] }
    match parkedInitiator with
    | some tx => r.toSession slot (.setInitiator tx)
    | none => r

def onAttachedToTarget (r : Router) (event : EventAttachedToTarget) : Router :=
  match r.targetIdToSlot.get event.targetInfo.targetId with
  | some slot =>
    { r with
      sessionIdToSlot := r.sessionIdToSlot.set event.sessionId.inner slot
      sessions := r.sessions.update slot fun entry =>
        { entry with sessionId := some event.sessionId.inner } }
  | none => r

/-- A message for the task in a slot, if there is one. -/
def toSlot (r : Router) (slot : Option UInt16) (msg : RouterToSession) : Router :=
  match slot with
  | some slot =>
    match r.sessions.get slot with
    | some _ => r.toSession slot msg
    | none => r
  | none => r

def onTargetGone (r : Router) (targetId : TargetId) : Router :=
  r.toSlot (r.targetIdToSlot.get targetId) .shutdown

def onEvent (r : Router) (event : CdpEventMessage) : Router :=
  match event.sessionId with
  | some sid => r.toSlot (r.sessionIdToSlot.get sid) (.event event)
  | none =>
    match event.params with
    | .targetTargetCreated info => r.onTargetCreated info
    | .targetAttachedToTarget ev => r.onAttachedToTarget ev
    | .targetTargetDestroyed targetId => r.onTargetGone targetId
    | .targetTargetCrashed ev => r.onTargetGone ev.targetId
    | .targetDetachedFromTarget sessionId =>
      r.toSlot (r.sessionIdToSlot.get sessionId.inner) .shutdown
    | _ => r

def removeSession (r : Router) (slot : UInt16) : Router :=
  match r.sessions.get slot with
  | some entry =>
    { r with
      sessions := r.sessions.remove slot
      targetIdToSlot := r.targetIdToSlot.remove entry.targetId
      sessionIdToSlot := match entry.sessionId with
        | some sid => r.sessionIdToSlot.remove sid
        | none => r.sessionIdToSlot
      ids := r.ids.dropSlot slot }
  | none => r

/-- What a task tells the router. -/
def onLifecycle (r : Router) : SessionToRouter → Router
  | .sessionAttached slot sessionId =>
    { r with
      sessions := r.sessions.update slot fun entry => { entry with sessionId := some sessionId }
      sessionIdToSlot := r.sessionIdToSlot.set sessionId slot }
  | .detached slot => r.removeSession slot

/-! ### Messages of the browser handle -/

/-- A call of the router itself, which waits for its response if the writer took it. -/
def submit (r : Router) (accepted : Bool) (req : Request) (tx : Sender) (refusal : Reply)
    (pending : RouterPending) (now : Instant) : Router :=
  let (ids, callId) := r.ids.alloc 0
  let r := { r with ids := ids }
  if accepted then
    { r with
      submitted := r.submitted ++ [⟨callId, req.method, req.sessionId, req.params⟩]
      pending := r.pending.set callId (pending, req.method, now) }
  else r.send tx refusal

/-- The urls that a page can be created with. -/
def canCreatePage (url : String) : Bool :=
  let aboutBlank := decide (url = "about:blank")
  aboutBlank || (!aboutBlank && ("http".isPrefixOf url || "file://".isPrefixOf url))

def createPage (r : Router) (accepted : Bool) (params : CreateTargetParams) (tx : Sender)
    (now : Instant) : Router :=
  if canCreatePage params.url then
    r.submit accepted ⟨"Target.createTarget", none, params.value⟩ tx
      (.page (.error (.chromeMessage "WS writer closed"))) (.createTarget tx) now
  else r.send tx (.page (.error .notFound))

/-- The methods `dispatch_browser_command` and `dispatch_session_command_via_ws`: the call is the router's own whether or not its session has a task. -/
def dispatchBrowserCommand (r : Router) (accepted : Bool) (cmd : CommandMessage) (now : Instant) :
    Router :=
  r.submit accepted cmd.split.1 cmd.sender (.response (.error (.chromeMessage "WS writer closed")))
    (.browserCommand cmd.sender) now

def onBrowserMessage (r : Router) (accepted : Bool) (msg : HandlerMessage) (now : Instant) : Router :=
  match msg with
  | .createPage params tx => r.createPage accepted params tx now
  | .command cmd => r.dispatchBrowserCommand accepted cmd now
  | .closeBrowser tx => r.send tx (.closed (.ok ()))
  | .getPages tx => r.send tx (.pages [])
  | .getPage _ tx => r.send tx (.pageIfAny none)
  | .fetchTargets tx => r.send tx (.targets (.ok []))
  | .insertContext _ | .disposeContext _ => r
  | .addEventListener _ => r

/-! ### Timeouts -/

/-- One call that has waited for too long. -/
def timeOut (r : Router) (callId : CallId) : Router :=
  match r.pending.get callId with
  | some (pending, _, _) =>
    let r := { r with pending := r.pending.remove callId }
    match pending with
    | .boot => r
    | .browserCommand tx => r.send tx (.response (.error .timeout))
    | .createTarget tx => r.send tx (.page (.error .timeout))
  | none => r

/-- One initiator whose target did not come in time. -/
def timeOutInitiator (r : Router) (targetId : TargetId) : Router :=
  let r := { r with pendingInitiatorTs := r.pendingInitiatorTs.remove targetId }
  match r.pendingInitiators.get targetId with
  | some tx =>
    { r with pendingInitiators := r.pendingInitiators.remove targetId }.send tx
      (.page (.error .timeout))
  | none => r

def evictRouterPending (r : Router) (now : Instant) (requestTimeout : Duration) : Router :=
  if now < requestTimeout then r
  else
    let deadline := now - requestTimeout
    let stale := (r.pending.toList.filter fun entry => entry.2.2.2 < deadline).map Prod.fst
    let r := stale.foldl timeOut r
    let staleTargets :=
      (r.pendingInitiatorTs.toList.filter fun entry => entry.2 < deadline).map Prod.fst
    staleTargets.foldl timeOutInitiator r

end Router

/-! ### Inputs -/

/-- What the router does next: it takes a response or an event from the connection, a message of one of its tasks or of the browser handle, or hears its eviction timer. -/
inductive RouterInput where
  | response (decoders : Decoders) (now : Instant) (resp : Response)
  | event (event : CdpEventMessage)
  | lifecycle (msg : SessionToRouter)
  | browserMessage (accepted : Bool) (msg : HandlerMessage) (now : Instant)
  | evict (now : Instant)

namespace Router

def step (r : Router) (input : RouterInput) : Router :=
  if r.panicked then r
  else match input with
    | .response decoders now resp => r.onResponse decoders now resp
    | .event event => r.onEvent event
    | .lifecycle msg => r.onLifecycle msg
    | .browserMessage accepted msg now => r.onBrowserMessage accepted msg now
    | .evict now => r.evictRouterPending now r.config.requestTimeout

end Router

end SpiderChrome
