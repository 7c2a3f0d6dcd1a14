import SpiderChrome.Handler.Driver
import SpiderChrome.Library.Run

/-!
# Session tasks

The parallel handler gives every target a task of its own, which owns the target, the calls that it made and the navigations that somebody waits for, as `handler/parallel/session.rs` has it. The allocator of call ids is shared with the router and the other tasks, so the id of a call is an argument here; the routes of the responses are the router's. `submitted`, `replies`, `gotos` and `toRouter` are records that no function reads.
-/

namespace SpiderChrome

inductive SessionPending where
  | internal
  | external (tx : Sender)
  | navigate (id : NavigationId)

/-- The navigation that a call is made for. -/
def SessionPending.navigationId? : SessionPending → Option NavigationId
  | navigate id => some id
  | _ => none

/-- What a task tells the router. -/
inductive SessionToRouter where
  | sessionAttached (slot : UInt16) (sessionId : String)
  | detached (slot : UInt16)

structure SessionTask where
  slot : UInt16
  target : Target
  pending : Table CallId (SessionPending × MethodId × Instant)
  navigations : Table NavigationId NavigationInProgress
  nextNavId : Nat
  sessionIdReported : Bool
  requestTimeout : Duration
  /-- The task has left its loop. -/
  stopped : Bool
  submitted : List (MethodCall × Option NavigationId)
  replies : List (Sender × Reply)
  gotos : List Goto
  toRouter : List SessionToRouter

namespace SessionTask

def new (slot : UInt16) (target : Target) (requestTimeout : Duration) : SessionTask where
  slot := slot
  target := target
  pending := ∅
  navigations := ∅
  nextNavId := 0
  sessionIdReported := false
  requestTimeout := requestTimeout
  stopped := false
  submitted := []
  replies := []
  gotos := []
  toRouter := []

def send (task : SessionTask) (tx : Sender) (reply : Reply) : SessionTask :=
  { task with replies := task.replies ++ [(tx, reply)] }

/-! ### Submitting -/

/-- A call is handed to the writer, and waits for its response if the writer is there. -/
def submit (task : SessionTask) (accepted : Bool) (callId : CallId) (req : Request)
    (pending : SessionPending) (now : Instant) : SessionTask :=
  if accepted then
    { task with
      submitted := task.submitted ++
        [(⟨callId, req.method, req.sessionId, req.params⟩, pending.navigationId?)]
      pending := task.pending.set callId (pending, req.method, now) }
  else task

def submitNavigationCommand (task : SessionTask) (accepted : Bool) (callId : CallId)
    (msg : CommandMessage) (now : Instant) : SessionTask :=
  let (req, sender) := msg.split
  let navId : NavigationId := ⟨task.nextNavId⟩
  let task := { task with
    nextNavId := wrappingSucc task.nextNavId
    gotos := task.gotos ++ [Goto.mk navId req task.target.frameManager.mainFrame]
    target := task.target.goto ⟨navId, req, task.requestTimeout⟩ }
  if accepted then
    let task := task.submit true callId req (.navigate navId) now
    { task with navigations := task.navigations.set navId (.new sender) }
  else task.send sender (.response (.error (.chromeMessage "WS writer closed")))

def submitNavRequest (task : SessionTask) (accepted : Bool) (callId : CallId) (navId : NavigationId)
    (req : Request) (now : Instant) : SessionTask :=
  if accepted then task.submit true callId req (.navigate navId) now
  else { task with navigations := task.navigations.remove navId }

def submitInternal (task : SessionTask) (accepted : Bool) (callId : CallId) (req : Request)
    (now : Instant) : SessionTask :=
  task.submit accepted callId req .internal now

def submitExternal (task : SessionTask) (accepted : Bool) (callId : CallId) (msg : CommandMessage)
    (now : Instant) : SessionTask :=
  let (req, sender) := msg.split
  if accepted then task.submit true callId req (.external sender) now
  else task.send sender (.response (.error (.chromeMessage "WS writer closed")))

/-! ### Responses and results -/

def onNavigationResponse (task : SessionTask) (navId : NavigationId) (resp : Response) :
    SessionTask :=
  match task.navigations.get navId with
  | some nav =>
    let task := { task with navigations := task.navigations.remove navId }
    if nav.navigated then task.send nav.tx (.response (.ok resp))
    else
      { task with navigations := task.navigations.set navId { nav with response := some resp } }
  | none => task

def onNavigationLifecycleCompleted (task : SessionTask)
    (res : Except NavigationError NavigationOk) : SessionTask :=
  match res with
  | .ok ok =>
    match task.navigations.get ok.navigationId with
    | some nav =>
      let task := { task with navigations := task.navigations.remove ok.navigationId }
      match nav.response with
      | some resp => task.send nav.tx (.response (.ok resp))
      | none =>
        { task with
          navigations := task.navigations.set ok.navigationId { nav with navigated := true } }
    | none => task
  | .error err =>
    match task.navigations.get err.navigationId with
    | some nav =>
      { task with navigations := task.navigations.remove err.navigationId }.send nav.tx
        (.response (.error err.toCdpError))
    | none => task

/-- The session id that the answer to `Target.attachToTarget` carries is kept, and reported once. -/
def storeSessionId (task : SessionTask) (decoders : Decoders) (method : MethodId) (resp : Response) :
    SessionTask :=
  if method ≠ "Target.attachToTarget" then task
  else match toCommandResponse decoders.attachToTarget resp with
    | .ok sessionId =>
      { task with
        target := task.target.setSessionId sessionId
        sessionIdReported := true
        toRouter :=
          if task.sessionIdReported then task.toRouter
          else task.toRouter ++ [.sessionAttached task.slot sessionId.inner] }
    | .error _ => task

def onResponse (task : SessionTask) (env : Env) (callId : CallId) (resp : Response) : SessionTask :=
  match task.pending.get callId with
  | some (pending, method, _) =>
    let task := { task with pending := task.pending.remove callId }
    match pending with
    | .internal =>
      let task := task.storeSessionId env.decoders method resp
      { task with target := task.target.onResponse env resp method }
    | .external tx => task.send tx (.response (.ok resp))
    | .navigate navId => task.onNavigationResponse navId resp
  | none => task

/-! ### Timeouts and the end -/

/-- One call that has waited for too long. -/
def timeOut (task : SessionTask) (callId : CallId) : SessionTask :=
  match task.pending.get callId with
  | some (pending, _, _) =>
    let task := { task with pending := task.pending.remove callId }
    match pending with
    | .internal => task
    | .external tx => task.send tx (.response (.error .timeout))
    | .navigate navId =>
      match task.navigations.get navId with
      | some nav =>
        { task with navigations := task.navigations.remove navId }.send nav.tx
          (.response (.error .timeout))
      | none => task
  | none => task

def evictStale (task : SessionTask) (now : Instant) : SessionTask :=
  if now < task.requestTimeout then task
  else
    let deadline := now - task.requestTimeout
    let stale := (task.pending.toList.filter fun entry => entry.2.2.2 < deadline).map Prod.fst
    stale.foldl timeOut task

/-- The error of a command whose target is gone. -/
def targetGone : Reply := .response (.error (.chromeMessage "target detached or crashed"))

/-- One pending call that is cancelled. -/
def cancelPending (task : SessionTask) : SessionPending → SessionTask
  | .external tx => task.send tx targetGone
  | .navigate navId =>
    match task.navigations.get navId with
    | some nav =>
      { task with navigations := task.navigations.remove navId }.send nav.tx targetGone
    | none => task
  | .internal => task

def cancelInFlight (task : SessionTask) : SessionTask :=
  let task := (task.pending.values.map Prod.fst).foldl cancelPending { task with pending := ∅ }
  { task with
    navigations := ∅
    replies := task.replies ++ task.navigations.values.map fun nav => (nav.tx, targetGone) }

/-! ### Driving -/

/-- The page's channel is emptied into the target. -/
def drainPage (task : SessionTask) : SessionTask :=
  match task.target.page with
  | some handle =>
    { task with
      target := handle.rx.foldl Target.onPageMessage
        { task.target with page := some { handle with rx := [] } } }
  | none => task

/-- What a task does with an event of its target. -/
def onTargetEvent (task : SessionTask) (accepted : Bool) (callId : CallId) (now : Instant) :
    TargetEvent → SessionTask
  | .request req => task.submitInternal accepted callId req now
  | .command msg =>
    if msg.isNavigation then task.submitNavigationCommand accepted callId msg now
    else task.submitExternal accepted callId msg now
  | .navigationRequest navId req => task.submitNavRequest accepted callId navId req now
  | .navigationResult res => task.onNavigationLifecycleCompleted res
  | .bytesConsumed _ => task

/-- One turn of the loop in `drive`. -/
def turn (task : SessionTask) (accepted : Bool) (callId : CallId) (env : Env) (now : Instant) :
    SessionTask :=
  let polled := task.target.advance env now
  let task := { task with target := polled.target }
  match polled.event with
  | some event => task.onTargetEvent accepted callId now event
  | none => task

end SessionTask

/-- What a task does next: it takes what the router has for it, hears its eviction timer, or drives its target, message by message and event by event. A page may send a message at any time. -/
inductive SessionInput where
  | response (env : Env) (callId : CallId) (resp : Response)
  | event (env : Env) (event : CdpEventMessage)
  | setInitiator (tx : Sender)
  | shutdown
  | evict (now : Instant)
  | pageMessage (msg : TargetMessage)
  | drainPage
  | turn (accepted : Bool) (callId : CallId) (env : Env) (now : Instant)

namespace SessionTask

def step (task : SessionTask) (input : SessionInput) : SessionTask :=
  if task.stopped then task
  else match input with
    | .response env callId resp => task.onResponse env callId resp
    | .event env event => { task with target := task.target.onEvent env event }
    | .setInitiator tx => { task with target := task.target.setInitiator tx }
    | .shutdown =>
      let task := task.cancelInFlight
      { task with stopped := true, toRouter := task.toRouter ++ [.detached task.slot] }
    | .evict now => task.evictStale now
    | .pageMessage msg => { task with target := task.target.receive msg }
    | .drainPage => task.drainPage
    | .turn accepted callId env now => task.turn accepted callId env now

/-- The task of a new target. -/
def spawned (slot : UInt16) (config : HandlerConfig) (info : TargetInfo) (context : BrowserContext) :
    SessionTask :=
  new slot (.new info config.targetConfig context) config.requestTimeout

/-! ### A page that is ready -/

/-- Somebody asks for the page, every command of its initialisation is answered, and the page loads. -/
def openPage : List SessionInput :=
  .setInitiator ⟨0⟩ ::
    ((List.range 10).flatMap fun call =>
      [.turn true ⟨call + 1⟩ Handler.plainEnv 0,
        .response Handler.plainEnv ⟨call + 1⟩ (Handler.plainResponse (call + 1))]) ++
    [.turn true ⟨11⟩ Handler.plainEnv 0,
      .event Handler.plainEnv
        ⟨.pageLifecycleEvent ⟨⟨"main"⟩, ⟨"loader"⟩, "load"⟩, some "session"⟩]

/-- The page is handed over and asked to navigate, and the target is driven until it has nothing to tell. -/
def gotoPage : List SessionInput :=
  [.turn true ⟨11⟩ Handler.plainEnv 0,
    .pageMessage (.command
      ⟨"Page.navigate", some ⟨"session"⟩, .object [("url", .string "https://example.org")], ⟨1⟩⟩),
    .drainPage,
    .turn true ⟨11⟩ Handler.plainEnv 0,
    .turn true ⟨12⟩ Handler.plainEnv 0,
    .turn true ⟨13⟩ Handler.plainEnv 0]

end SessionTask

end SpiderChrome
