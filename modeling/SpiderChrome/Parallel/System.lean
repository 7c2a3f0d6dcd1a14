import SpiderChrome.Parallel.Routing
import SpiderChrome.Library.Switchboard

/-!
# The parallel handler as a whole

The router and its tasks run at the same time. They meet in the allocator of call ids, in the channels between them and at the writer, so what one of them does to these in one go is a move of its own, and the others may move in between. What a party has begun and not finished is in `doing`; the router is the party of slot 0. To submit a call takes four moves: an id is fetched, its route is inserted, the call is handed to the writer, and the call is entered in the table of those that wait. A move that is not possible leaves everything as it is.
-/

namespace SpiderChrome

/-! ### The parts of what is done in several moves -/

namespace CallIdAllocator

/-- The first half of `alloc`. -/
def fetchAdd (ids : CallIdAllocator) : CallIdAllocator × CallId :=
  ({ ids with next := wrappingSucc ids.next }, ⟨ids.next⟩)

/-- The second half of `alloc`. -/
def insertRoute (ids : CallIdAllocator) (id : CallId) (slot : UInt16) : CallIdAllocator :=
  { ids with routing := if slot ≠ 0 then ids.routing.set id slot else ids.routing }

theorem alloc_eq (ids : CallIdAllocator) (slot : UInt16) :
    ids.alloc slot = (ids.fetchAdd.1.insertRoute ids.fetchAdd.2 slot, ids.fetchAdd.2) := rfl

end CallIdAllocator

/-- A call that the router makes for the browser handle, and what it says if the writer is gone. -/
structure RouterCall where
  req : Request
  tx : Sender
  refusal : Reply
  pending : RouterPending

namespace Router

/-- The call that a message of the browser handle makes. -/
def callOf : HandlerMessage → Option RouterCall
  | .createPage params tx =>
    if canCreatePage params.url then
      some ⟨⟨"Target.createTarget", none, params.value⟩, tx,
        .page (.error (.chromeMessage "WS writer closed")), .createTarget tx⟩
    else none
  | .command cmd =>
    some ⟨cmd.split.1, cmd.sender, .response (.error (.chromeMessage "WS writer closed")),
      .browserCommand cmd.sender⟩
  | _ => none

/-- The last part of a submission: the call waits if the writer took it. -/
def enter (r : Router) (accepted : Bool) (callId : CallId) (call : RouterCall) (now : Instant) : Router :=
  if accepted then
    { r with
      submitted := r.submitted ++ [⟨callId, call.req.method, call.req.sessionId, call.req.params⟩]
      pending := r.pending.set callId (call.pending, call.req.method, now) }
  else r.send call.tx call.refusal

/-- What is done with a response when its route is known. -/
def handOn (r : Router) (decoders : Decoders) (now : Instant) (resp : Response)
    (route : Option UInt16) : Router :=
  match route with
  | some slot => r.toSlot (some slot) (.response resp.id resp "")
  | none => r.handleRouterResponse decoders now resp.id resp

/-- The calls that do not wait any more when the router has come to another state. -/
def lost (r r' : Router) : List CallId := r.pending.keys.filter fun callId => (r'.pending.get callId).isNone

/-- The session in a slot is forgotten, but its routes are not dropped yet. -/
def forget (r : Router) (slot : UInt16) : Router := { r.removeSession slot with ids := r.ids }

theorem onBrowserMessage_eq (r : Router) (accepted : Bool) {msg : HandlerMessage} {call : RouterCall}
    (hcall : callOf msg = some call) (now : Instant) :
    r.onBrowserMessage accepted msg now =
      { r with ids := (r.ids.alloc 0).1 }.enter accepted (r.ids.alloc 0).2 call now := by
  cases msg with
  | createPage params tx =>
    simp only [callOf] at hcall
    split at hcall
    · rename_i hurl
      cases hcall
      simp only [onBrowserMessage, createPage, hurl, if_true]
      rfl
    · cases hcall
  | command cmd =>
    cases hcall
    rfl
  | _ => cases hcall

theorem onResponse_eq (r : Router) (decoders : Decoders) (now : Instant) (resp : Response) :
    r.onResponse decoders now resp =
      { r with ids := (r.ids.takeRoute resp.id).1 }.handOn decoders now resp
        (r.ids.takeRoute resp.id).2 := by
  unfold onResponse handOn
  dsimp only [CallIdAllocator.takeRoute]
  cases r.ids.routing.get resp.id with
  | none => rfl
  | some slot => rfl

theorem removeSession_eq {r : Router} {slot : UInt16} {entry : SessionEntry}
    (hentry : r.sessions.get slot = some entry) :
    r.removeSession slot = { r.forget slot with ids := r.ids.dropSlot slot } := by
  simp only [forget, removeSession, hentry]

end Router

namespace SessionTask

/-- The first part of a turn. -/
def advanced (task : SessionTask) (env : Env) (now : Instant) : SessionTask :=
  { task with target := (task.target.advance env now).target }

theorem turn_eq (task : SessionTask) (accepted : Bool) (callId : CallId) (env : Env) (now : Instant) :
    task.turn accepted callId env now =
      match (task.target.advance env now).event with
      | some event => (task.advanced env now).onTargetEvent accepted callId now event
      | none => task.advanced env now := rfl

/-- The calls that have waited for too long. -/
def stale (task : SessionTask) (now : Instant) : List CallId :=
  if now < task.requestTimeout then []
  else (task.pending.toList.filter fun entry => entry.2.2.2 < now - task.requestTimeout).map Prod.fst

theorem evictStale_eq (task : SessionTask) (now : Instant) :
    task.evictStale now = (task.stale now).foldl timeOut task := by
  unfold evictStale stale
  split
  · rfl
  · rfl

end SessionTask

/-- The event makes a call. -/
def TargetEvent.calls : TargetEvent → Bool
  | request _ | command _ | navigationRequest _ _ => true
  | _ => false

/-- What a message of the router is to the task that takes it from its inbox. -/
def RouterToSession.toInput (env : Env) : RouterToSession → SessionInput
  | response callId resp _ => .response env callId resp
  | event message => .event env message
  | setInitiator tx => .setInitiator tx
  | shutdown => .shutdown

/-! ### The state -/

/-- What a call is made for: a message of the browser handle, or an event of a target. -/
inductive Work where
  | call (call : RouterCall) (now : Instant)
  | event (event : TargetEvent) (now : Instant)

/-- What a party is in the middle of. -/
inductive Doing where
  | nothing
  | submits (stage : Switchboard.Stage) (callId : CallId) (work : Work)
  | hands (decoders : Decoders) (now : Instant) (resp : Response) (route : Option UInt16)
  | drops (slot : UInt16)
  | evicts (stale : List CallId)
  | timesOut (callId : CallId) (stale : List CallId)

namespace Doing

def isNothing : Doing → Bool
  | nothing => true
  | _ => false

/-- Something that the router does. -/
def isRouters : Doing → Bool
  | nothing | submits _ _ (.call _ _) | hands _ _ _ _ | drops _ => true
  | _ => false

/-- Something that a task does. -/
def isTasks : Doing → Bool
  | nothing | evicts _ | timesOut _ _ => true
  | submits _ _ (.event event _) => event.calls
  | _ => false

/-- The rest of an eviction. -/
def evicting : List CallId → Doing
  | [] => nothing
  | stale => evicts stale

end Doing

/-- The router, the tasks by their slots, what they are in the middle of, the channels, and the ids of the calls that the writer has taken. The other fields record what happened to the calls and to the senders that pages were asked for with; no function reads them. -/
structure System where
  router : Router
  tasks : Table UInt16 SessionTask
  doing : UInt16 → Doing
  inboxes : UInt16 → List RouterToSession
  lifecycle : List SessionToRouter
  written : List CallId
  taken : List (CallId × UInt16)
  entered : List (CallId × UInt16)
  read : List CallId
  handed : List (CallId × UInt16)
  expired : List (CallId × UInt16)
  asked : List Sender
  assigned : List (Sender × TargetId)

namespace System

def sessionInboxCapacity : Nat := 1024

def sessionLifecycleCapacity : Nat := 256

/-- The handler when the router starts. The call that it waits for has the id before those that are handed out. -/
def start (config : HandlerConfig) (context : BrowserContext) (bootMethod : MethodId) (nextCallId : Nat)
    (now : Instant) : System where
  router := .new config context ⟨nextCallId - 1⟩ bootMethod nextCallId now
  tasks := ∅
  doing := fun _ => .nothing
  inboxes := fun _ => []
  lifecycle := []
  written := [⟨nextCallId - 1⟩]
  taken := [(⟨nextCallId - 1⟩, 0)]
  entered := [(⟨nextCallId - 1⟩, 0)]
  read := []
  handed := []
  expired := []
  asked := []
  assigned := []

/-- The task in a slot has not left its loop. -/
def live (s : System) (slot : UInt16) : Bool :=
  match s.tasks.get slot with
  | some task => !task.stopped
  | none => false

def does (s : System) (party : UInt16) (doing : Doing) : System :=
  { s with doing := Function.update s.doing party doing }

/-! ### Channels -/

/-- A message for a task. It is lost if the task has left its loop. -/
def push (s : System) (entry : UInt16 × RouterToSession) : System :=
  if s.live entry.1 then
    { s with inboxes := Function.update s.inboxes entry.1 (s.inboxes entry.1 ++ [entry.2]) }
  else s

/-- The method `try_send` of the lifecycle channel, whose failure nobody looks at. -/
def trySend (lifecycle : List SessionToRouter) (msg : SessionToRouter) : List SessionToRouter :=
  if lifecycle.length < sessionLifecycleCapacity then lifecycle ++ [msg] else lifecycle

/-- The router has to wait: the inbox that its message is for is full. -/
def blocked (s : System) (r : Router) : Bool :=
  (r.toSessions.drop s.router.toSessions.length).any fun entry =>
    s.live entry.1 && decide (sessionInboxCapacity ≤ (s.inboxes entry.1).length)

/-- The router has come from one state to another: its tasks are spawned and its messages sent. -/
def afterRouter (s : System) (r : Router) : System :=
  (r.toSessions.drop s.router.toSessions.length).foldl push
    { s with
      router := r
      tasks := (r.spawned.drop s.router.spawned.length).foldl (fun tasks entry =>
        tasks.set entry.1 (.spawned entry.1 r.config entry.2.1 entry.2.2)) s.tasks }

/-- A task has come from one state to another: its messages to the router are sent. -/
def afterTask (s : System) (slot : UInt16) (task task' : SessionTask) : System :=
  { s with
    tasks := s.tasks.set slot task'
    lifecycle := (task'.toRouter.drop task.toRouter.length).foldl trySend s.lifecycle }

/-! ### Moves -/

/-- The router can take something new. -/
def idle (s : System) : Bool := (s.doing 0).isNothing && !s.router.panicked

/-- The task in a slot, if it can take something new. -/
def idleTask (s : System) (slot : UInt16) : Option SessionTask :=
  if (s.doing slot).isNothing && s.live slot then s.tasks.get slot else none

/-- The senders that pages were asked for with, after a message of the browser handle. -/
def askedAfter (s : System) : HandlerMessage → List Sender
  | .createPage _ tx => s.asked ++ [tx]
  | _ => s.asked

/-- An id is fetched for a call. -/
def fetch (s : System) (party : UInt16) (work : Work) : System :=
  let (ids, callId) := s.router.ids.fetchAdd
  { s with
    router := { s.router with ids := ids }
    taken := s.taken ++ [(callId, party)] }.does party (.submits .fetched callId work)

/-- The call waits, or has been refused. -/
def finish (s : System) (party : UInt16) (accepted : Bool) (callId : CallId) (work : Work) : System :=
  let s := { s with entered := if accepted then s.entered ++ [(callId, party)] else s.entered }
  match work with
  | .call call now => { s with router := s.router.enter accepted callId call now }.does party .nothing
  | .event event now =>
    match s.tasks.get party with
    | some task => (s.afterTask party task (task.onTargetEvent accepted callId now event)).does party .nothing
    | none => s

def proceed (s : System) (party : UInt16) (accepted : Bool) : System :=
  match s.doing party with
  | .submits .fetched callId work =>
    { s with router := { s.router with ids := s.router.ids.insertRoute callId party } }.does party
      (.submits .routed callId work)
  | .submits .routed callId work =>
    if accepted then
      { s with written := s.written ++ [callId] }.does party (.submits .written callId work)
    else s.finish party false callId work
  | .submits .written callId work => s.finish party true callId work
  | _ => s

/-- The sender that a response assigns to a target. -/
def assigns (r : Router) (decoders : Decoders) (resp : Response) : List (Sender × TargetId) :=
  match r.pending.get resp.id, toCommandResponse decoders.createTarget resp with
  | some (.createTarget tx, _, _), .ok targetId => [(tx, targetId)]
  | _, _ => []

/-- The rest of `on_response`. -/
def hand (s : System) : System :=
  match s.doing 0 with
  | .hands decoders now resp route =>
    let r := s.router.handOn decoders now resp route
    if s.blocked r then s
    else
      let s := match route with
        | some _ => s
        | none => { s with
            handed := if (s.router.pending.get resp.id).isSome then s.handed ++ [(resp.id, 0)] else s.handed
            assigned := s.assigned ++ assigns s.router decoders resp }
      (s.afterRouter r).does 0 .nothing
  | _ => s

/-- The router takes what a task tells it. -/
def hear (s : System) : System :=
  if s.idle then
    match s.lifecycle with
    | [] => s
    | .sessionAttached slot sessionId :: rest =>
      { s with lifecycle := rest, router := s.router.onLifecycle (.sessionAttached slot sessionId) }
    | .detached slot :: rest =>
      match s.router.sessions.get slot with
      | some _ => { s with lifecycle := rest, router := s.router.forget slot }.does 0 (.drops slot)
      | none => { s with lifecycle := rest }
  else s

/-- The routes of the calls of a session that is gone are dropped. -/
def dropRoutes (s : System) : System :=
  match s.doing 0 with
  | .drops slot =>
    { s with router := { s.router with ids := s.router.ids.dropSlot slot } }.does 0 .nothing
  | _ => s

/-- A task takes an input and leaves the rest of its inbox, which is gone when the task has left its loop. -/
def afterInput (s : System) (slot : UInt16) (task : SessionTask) (input : SessionInput)
    (rest : List RouterToSession) : System :=
  { s.afterTask slot task (task.step input) with
    inboxes := Function.update s.inboxes slot (if (task.step input).stopped then [] else rest)
    handed := match input with
      | .response _ callId _ =>
        if (task.pending.get callId).isSome then s.handed ++ [(callId, slot)] else s.handed
      | _ => s.handed }

/-- A task takes a message from its inbox, or learns that the router is gone. -/
def receive (s : System) (slot : UInt16) (env : Env) : System :=
  match s.idleTask slot with
  | some task =>
    match s.inboxes slot with
    | msg :: rest => s.afterInput slot task (msg.toInput env) rest
    | [] => if s.router.panicked then s.afterInput slot task .shutdown [] else s
  | none => s

end System

/-- What one of the parties does. -/
inductive Move where
  | browser (msg : HandlerMessage) (now : Instant)
  | response (decoders : Decoders) (now : Instant) (resp : Response)
  | hand
  | event (event : CdpEventMessage)
  | hear
  | dropRoutes
  | evict (now : Instant)
  | proceed (party : UInt16) (accepted : Bool)
  | turn (slot : UInt16) (env : Env) (now : Instant)
  | receive (slot : UInt16) (env : Env)
  | evictStale (slot : UInt16) (now : Instant)
  | takeRoute (slot : UInt16)
  | timeOut (slot : UInt16)
  | pageMessage (slot : UInt16) (msg : TargetMessage)
  | drainPage (slot : UInt16)

namespace System

def step (s : System) : Move → System
  | .browser msg now =>
    if s.idle then
      let s := { s with asked := s.askedAfter msg }
      match Router.callOf msg with
      | some call => s.fetch 0 (.call call now)
      | none => s.afterRouter (s.router.onBrowserMessage true msg now)
    else s
  | .response decoders now resp =>
    if s.idle then
      let (ids, route) := s.router.ids.takeRoute resp.id
      { s with router := { s.router with ids := ids }, read := s.read ++ [resp.id] }.does 0
        (.hands decoders now resp route)
    else s
  | .hand => s.hand
  | .event event =>
    if s.idle then
      let r := s.router.onEvent event
      if s.blocked r then s else s.afterRouter r
    else s
  | .hear => s.hear
  | .dropRoutes => s.dropRoutes
  | .evict now =>
    if s.idle then
      let r := s.router.evictRouterPending now s.router.config.requestTimeout
      { s with
        router := r
        expired := s.expired ++ (s.router.lost r).map fun callId => (callId, 0) }
    else s
  | .proceed party accepted => s.proceed party accepted
  | .turn slot env now =>
    match s.idleTask slot with
    | some task =>
      let task' := task.advanced env now
      let s := s.afterTask slot task task'
      match (task.target.advance env now).event with
      | some event =>
        if event.calls then s.fetch slot (.event event now)
        else s.afterTask slot task' (task'.onTargetEvent true ⟨0⟩ now event)
      | none => s
    | none => s
  | .receive slot env => s.receive slot env
  | .evictStale slot now =>
    match s.idleTask slot with
    | some task => s.does slot (.evicting (task.stale now))
    | none => s
  | .takeRoute slot =>
    match s.doing slot with
    | .evicts (callId :: rest) =>
      { s with
        router := { s.router with ids := (s.router.ids.takeRoute callId).1 }
        expired := s.expired ++ [(callId, slot)] }.does slot (.timesOut callId rest)
    | _ => s
  | .timeOut slot =>
    match s.doing slot, s.tasks.get slot with
    | .timesOut callId rest, some task =>
      (s.afterTask slot task (task.timeOut callId)).does slot (.evicting rest)
    | _, _ => s
  | .pageMessage slot msg =>
    match s.tasks.get slot with
    | some task => s.afterTask slot task (task.step (.pageMessage msg))
    | none => s
  | .drainPage slot =>
    match s.idleTask slot with
    | some task => s.afterTask slot task (task.step .drainPage)
    | none => s

end System

end SpiderChrome
