import SpiderChrome.Library.Table
import SpiderChrome.Network.Http
import Mathlib.Data.Finset.Basic
import Mathlib.Data.Finset.Fold

/-!
# The frame manager

The frames of a page and the navigations that are under way on it, as `handler/frame.rs` keeps them. Every method takes the manager and returns the manager after the call. What a method reads from outside the manager is an argument: the clock, and the random name that a frame without a parent draws for its isolated world.

A hash set whose elements are visited one by one is a list here. The order of the list is the order of the visit, which the source leaves open.
-/

namespace SpiderChrome

structure DOMWorld where
  executionCtx : Option ExecutionContextId
  executionCtxUniqueId : Option String
  detached : Bool

namespace DOMWorld

def default : DOMWorld := ⟨none, none, false⟩

def setContext (world : DOMWorld) (ctx : ExecutionContextId) (uniqueId : String) : DOMWorld :=
  { world with executionCtx := some ctx, executionCtxUniqueId := some uniqueId }

def takeContext (world : DOMWorld) : DOMWorld :=
  { world with executionCtx := none, executionCtxUniqueId := none }

end DOMWorld

structure Frame where
  parentFrame : Option FrameId
  id : FrameId
  mainWorld : DOMWorld
  secondaryWorld : DOMWorld
  loaderId : Option LoaderId
  url : Option String
  httpRequest : Option HttpRequest
  childFrames : List FrameId
  name : Option String
  lifecycleEvents : Finset MethodId
  isolatedWorldName : String

namespace Frame

/-- `worldName` is the name that `random_world_name` draws. -/
def new (id : FrameId) (worldName : String) : Frame where
  parentFrame := none
  id := id
  mainWorld := .default
  secondaryWorld := .default
  loaderId := none
  url := none
  httpRequest := none
  childFrames := []
  name := none
  lifecycleEvents := ∅
  isolatedWorldName := worldName

/-- The new frame, and its parent with the child entered. -/
def withParent (id : FrameId) (parent : Frame) : Frame × Frame :=
  ({ parentFrame := some parent.id
     id := id
     mainWorld := .default
     secondaryWorld := .default
     loaderId := none
     url := none
     httpRequest := none
     childFrames := []
     name := none
     lifecycleEvents := ∅
     isolatedWorldName := parent.isolatedWorldName },
    { parent with childFrames := parent.childFrames.insert id })

def navigated (f : Frame) (frame : CdpFrame) : Frame :=
  { f with
    name := frame.name
    url := some (match frame.urlFragment with
      | some fragment => frame.url ++ fragment
      | none => frame.url) }

def navigatedWithinUrl (f : Frame) (url : String) : Frame := { f with url := some url }

def onLoadingStopped (f : Frame) : Frame :=
  { f with lifecycleEvents := insert "load" (insert "DOMContentLoaded" f.lifecycleEvents) }

def onLoadingStarted (f : Frame) : Frame := { f with lifecycleEvents := ∅, httpRequest := none }

def isLoaded (f : Frame) : Bool := "load" ∈ f.lifecycleEvents

def isDomContentLoaded (f : Frame) : Bool := "DOMContentLoaded" ∈ f.lifecycleEvents

def isNetworkIdle (f : Frame) : Bool := "networkIdle" ∈ f.lifecycleEvents

def isNetworkAlmostIdle (f : Frame) : Bool := "networkAlmostIdle" ∈ f.lifecycleEvents

def clearContexts (f : Frame) : Frame :=
  { f with mainWorld := f.mainWorld.takeContext, secondaryWorld := f.secondaryWorld.takeContext }

def destroyContext (f : Frame) (ctxUniqueId : String) : Frame :=
  if f.mainWorld.executionCtxUniqueId = some ctxUniqueId then
    { f with mainWorld := f.mainWorld.takeContext }
  else if f.secondaryWorld.executionCtxUniqueId = some ctxUniqueId then
    { f with secondaryWorld := f.secondaryWorld.takeContext }
  else f

def setRequest (f : Frame) (request : HttpRequest) : Frame :=
  { f with httpRequest := some request }

end Frame

structure NavigationId where
  val : Nat
deriving DecidableEq, Repr

structure FrameRequestedNavigation where
  id : NavigationId
  req : Request
  timeout : Duration

/-- Puts the frame into the `frameId` parameter of the request, unless the caller chose one. -/
def FrameRequestedNavigation.setFrameId (nav : FrameRequestedNavigation) (frameId : FrameId) :
    FrameRequestedNavigation :=
  { nav with req := { nav.req with
      params := nav.req.params.insertVacant "frameId" (.string frameId.inner) } }

inductive LifecycleEvent where
  | load | domcontentLoaded | networkIdle | networkAlmostIdle
deriving DecidableEq

def LifecycleEvent.toMethodId : LifecycleEvent → MethodId
  | load => "load"
  | domcontentLoaded => "DOMContentLoaded"
  | networkIdle => "networkIdle"
  | networkAlmostIdle => "networkAlmostIdle"

structure NavigationWatcher where
  id : NavigationId
  expectedLifecycle : Finset MethodId
  frameId : FrameId
  loaderId : Option LoaderId
  sameDocumentNavigation : Bool

namespace NavigationWatcher

def untilLifecycle (id : NavigationId) (frame : FrameId) (loaderId : Option LoaderId)
    (events : List LifecycleEvent) : NavigationWatcher where
  id := id
  expectedLifecycle := (events.map LifecycleEvent.toMethodId).toFinset
  frameId := frame
  loaderId := loaderId
  sameDocumentNavigation := false

def untilLoad (id : NavigationId) (frame : FrameId) (loaderId : Option LoaderId) :
    NavigationWatcher :=
  untilLifecycle id frame loaderId [.load]

def onFrameNavigatedWithinDocument (watcher : NavigationWatcher)
    (ev : EventNavigatedWithinDocument) : NavigationWatcher :=
  if watcher.frameId = ev.frameId then { watcher with sameDocumentNavigation := true } else watcher

end NavigationWatcher

inductive NavigationError where
  | timeout (id : NavigationId) (now deadline : Instant)
  | frameNotFound (id : NavigationId) (frame : FrameId)
  | tooManyNavigations (id : NavigationId) (count : UInt32)

def NavigationError.navigationId : NavigationError → NavigationId
  | timeout id _ _ => id
  | frameNotFound id _ => id
  | tooManyNavigations id _ => id

inductive NavigationOk where
  | sameDocumentNavigation (id : NavigationId)
  | newDocumentNavigation (id : NavigationId)
deriving DecidableEq

def NavigationOk.navigationId : NavigationOk → NavigationId
  | sameDocumentNavigation id => id
  | newDocumentNavigation id => id

inductive FrameEvent where
  | navigationResult (result : Except NavigationError NavigationOk)
  | navigationRequest (id : NavigationId) (req : Request)

structure FrameManager where
  mainFrame : Option FrameId
  frames : Table FrameId Frame
  contextIds : Table String FrameId
  isolatedWorlds : Finset String
  requestTimeout : Duration
  pendingNavigations : List (FrameRequestedNavigation × NavigationWatcher)
  navigation : Option (NavigationWatcher × Instant)
  maxMainFrameNavigations : Option UInt32
  mainFrameNavCount : UInt32

/-- `u32::saturating_add`. -/
def saturatingAdd (a b : UInt32) : UInt32 :=
  if a.toNat + b.toNat < UInt32.size then a + b else 4294967295

namespace FrameManager

def new (requestTimeout : Duration) : FrameManager where
  mainFrame := none
  frames := ∅
  contextIds := ∅
  isolatedWorlds := ∅
  requestTimeout := requestTimeout
  pendingNavigations := []
  navigation := none
  maxMainFrameNavigations := none
  mainFrameNavCount := 0

def setMaxMainFrameNavigations (fm : FrameManager) (cap : Option UInt32) : FrameManager :=
  { fm with maxMainFrameNavigations := cap }

/-- The method `main_frame`: the frame that the field of that name points at, if it is there. -/
def mainFrame? (fm : FrameManager) : Option Frame := fm.mainFrame.bind fm.frames.get

/-! ### Navigations -/

def checkLifecycle (watcher : NavigationWatcher) (frame : Frame) : Bool :=
  decide (∀ ev ∈ watcher.expectedLifecycle, ev ∈ frame.lifecycleEvents ∨
    (frame.url = none ∧ "DOMContentLoaded" ∈ frame.lifecycleEvents))

def checkLifecycleComplete (watcher : NavigationWatcher) (frame : Frame) : Option NavigationOk :=
  if !checkLifecycle watcher frame then none
  else if frame.loaderId = watcher.loaderId ∧ !watcher.sameDocumentNavigation then none
  else if watcher.sameDocumentNavigation then some (.sameDocumentNavigation watcher.id)
  else if frame.loaderId ≠ watcher.loaderId then some (.newDocumentNavigation watcher.id)
  else none

/-- The navigation-loop guard of `poll`. -/
def exceedsCap (fm : FrameManager) : Bool :=
  match fm.maxMainFrameNavigations with
  | some cap => cap < fm.mainFrameNavCount
  | none => false

/-- `clock` is the reading of `Instant::now()` when a navigation is taken from the queue. -/
def poll (fm : FrameManager) (now clock : Instant) : FrameManager × Option FrameEvent :=
  match fm.navigation with
  | some (watcher, deadline) =>
    if fm.exceedsCap then
      ({ fm with navigation := none },
        some (.navigationResult (.error (.tooManyNavigations watcher.id fm.mainFrameNavCount))))
    else if deadline < now then
      ({ fm with navigation := none },
        some (.navigationResult (.error (.timeout watcher.id now deadline))))
    else match fm.frames.get watcher.frameId with
      | some frame =>
        match checkLifecycleComplete watcher frame with
        | some nav => ({ fm with navigation := none }, some (.navigationResult (.ok nav)))
        | none => (fm, none)
      | none =>
        ({ fm with navigation := none },
          some (.navigationResult (.error (.frameNotFound watcher.id watcher.frameId))))
  | none =>
    match fm.pendingNavigations with
    | (req, watcher) :: rest =>
      ({ fm with
          pendingNavigations := rest
          navigation := some (watcher, clock + req.timeout) },
        some (.navigationRequest req.id req.req))
    | [] => (fm, none)

def navigateFrame (fm : FrameManager) (frameId : FrameId) (req : FrameRequestedNavigation) :
    FrameManager :=
  let loaderId := (fm.frames.get frameId).bind Frame.loaderId
  let watcher := NavigationWatcher.untilLoad req.id frameId loaderId
  { fm with
    mainFrameNavCount := 0
    pendingNavigations := fm.pendingNavigations ++ [(req.setFrameId frameId, watcher)] }

/-- A request that arrives before there is a main frame is dropped. -/
def goto (fm : FrameManager) (req : FrameRequestedNavigation) : FrameManager :=
  match fm.mainFrame with
  | some frameId => fm.navigateFrame frameId req
  | none => fm

/-! ### Frames -/

/-- The last step of `remove_frames_recursively`: the parent forgets the frame. -/
def unlinkFromParent (frames : Table FrameId Frame) (frame : Frame) : Table FrameId Frame :=
  match frame.parentFrame with
  | some parentId => frames.update parentId fun parent =>
      { parent with childFrames := parent.childFrames.filter (· ≠ frame.id) }
  | none => frames

/-- `remove_frames_recursively` with a bound on the depth of the recursion. A call that goes deeper has taken a frame out of the table first, so the number of frames bounds the depth. -/
def removeFramesTo : Nat → Table FrameId Frame → FrameId → Table FrameId Frame × Option Frame
  | 0, frames, _ => (frames, none)
  | depth + 1, frames, id =>
    match frames.get id with
    | some frame =>
      let frames := frame.childFrames.foldl
        (fun frames child => (removeFramesTo depth frames child).1) (frames.remove id)
      (unlinkFromParent frames frame, some { frame with parentFrame := none })
    | none => (frames, none)

def removeFramesRecursively (frames : Table FrameId Frame) (id : FrameId) :
    Table FrameId Frame × Option Frame :=
  removeFramesTo frames.size frames id

/-- The loops that drop every child of a frame. -/
def removeChildren (frames : Table FrameId Frame) (children : List FrameId) :
    Table FrameId Frame :=
  children.foldl (fun frames child => (removeFramesRecursively frames child).1) frames

def onFrameAttached (fm : FrameManager) (frameId : FrameId) (parentFrameId : Option FrameId) :
    FrameManager :=
  if (fm.frames.get frameId).isSome then fm
  else match parentFrameId with
    | some parentFrameId =>
      match fm.frames.get parentFrameId with
      | some parent =>
        let (frame, parent) := Frame.withParent frameId parent
        { fm with frames := (fm.frames.set parentFrameId parent).set frameId frame }
      | none => fm
    | none => fm

def onFrameDetached (fm : FrameManager) (frameId : FrameId) : FrameManager :=
  { fm with frames := (removeFramesRecursively fm.frames frameId).1 }

/-- The active watcher follows the main frame to its new id. -/
def followMainFrame (oldMain : Option FrameId) (newId : FrameId)
    (navigation : Option (NavigationWatcher × Instant)) : Option (NavigationWatcher × Instant) :=
  if oldMain = some newId then navigation
  else navigation.map fun (watcher, deadline) =>
    if oldMain = some watcher.frameId then ({ watcher with frameId := newId }, deadline)
    else (watcher, deadline)

/-- The branch of `on_frame_navigated` for a frame that has a parent. -/
def onChildNavigated (fm : FrameManager) (frame : CdpFrame) : FrameManager :=
  match fm.frames.get frame.id with
  | some f =>
    let frames := removeChildren (fm.frames.remove frame.id) f.childFrames
    { fm with frames := frames.set frame.id ({ f with childFrames := [] }.navigated frame) }
  | none => fm

/-- The main frame under its new id with its children gone, or a fresh frame when there was none. -/
def takeMainFrame (fm : FrameManager) (frame : CdpFrame) (worldName : String) :
    Table FrameId Frame × Frame :=
  match fm.mainFrame with
  | some main =>
    match fm.frames.get main with
    | some mainFrame =>
      (removeChildren (fm.frames.remove main) mainFrame.childFrames,
        { mainFrame with childFrames := [], id := frame.id })
    | none => (fm.frames, Frame.new frame.id worldName)
  | none => (fm.frames, Frame.new frame.id worldName)

/-- The branch of `on_frame_navigated` for the main frame. -/
def onMainNavigated (fm : FrameManager) (frame : CdpFrame) (worldName : String) : FrameManager :=
  let (frames, f) := fm.takeMainFrame frame worldName
  let f := f.navigated frame
  { fm with
    mainFrameNavCount := saturatingAdd fm.mainFrameNavCount 1
    mainFrame := some f.id
    frames := frames.set f.id f
    navigation := followMainFrame fm.mainFrame f.id fm.navigation }

theorem takeMainFrame_id (fm : FrameManager) (frame : CdpFrame) (worldName : String) :
    (fm.takeMainFrame frame worldName).2.id = frame.id := by
  unfold takeMainFrame
  split
  · split
    · rfl
    · rfl
  · rfl

theorem onMainNavigated_eq (fm : FrameManager) (frame : CdpFrame) (worldName : String) :
    fm.onMainNavigated frame worldName =
      { fm with
        mainFrameNavCount := saturatingAdd fm.mainFrameNavCount 1
        mainFrame := some frame.id
        frames := (fm.takeMainFrame frame worldName).1.set frame.id
          ((fm.takeMainFrame frame worldName).2.navigated frame)
        navigation := followMainFrame fm.mainFrame frame.id fm.navigation } := by
  rw [← takeMainFrame_id fm frame worldName]
  rfl

/-- `worldName` gives the name that is drawn if a frame has to be made. -/
def onFrameNavigated (fm : FrameManager) (frame : CdpFrame) (worldName : String) : FrameManager :=
  if frame.parentId.isSome then fm.onChildNavigated frame
  else fm.onMainNavigated frame worldName

mutual

def onFrameTree (worldName : FrameId → String) : FrameTree → FrameManager → FrameManager
  | .node frame childFrames, fm =>
    let fm := fm.onFrameAttached frame.id frame.parentId
    let fm := fm.onFrameNavigated frame (worldName frame.id)
    onChildTrees? worldName childFrames fm

def onChildTrees? (worldName : FrameId → String) :
    Option (List FrameTree) → FrameManager → FrameManager
  | some children, fm => onChildTrees worldName children fm
  | none, fm => fm

def onChildTrees (worldName : FrameId → String) : List FrameTree → FrameManager → FrameManager
  | childTree :: rest, fm => onChildTrees worldName rest (onFrameTree worldName childTree fm)
  | [], fm => fm

end

def onFrameNavigatedWithinDocument (fm : FrameManager) (event : EventNavigatedWithinDocument) :
    FrameManager :=
  { fm with
    frames := fm.frames.update event.frameId fun frame => frame.navigatedWithinUrl event.url
    navigation := fm.navigation.map fun (watcher, deadline) =>
      (watcher.onFrameNavigatedWithinDocument event, deadline) }

def onFrameStoppedLoading (fm : FrameManager) (frameId : FrameId) : FrameManager :=
  { fm with frames := fm.frames.update frameId Frame.onLoadingStopped }

def onFrameStartedLoading (fm : FrameManager) (frameId : FrameId) : FrameManager :=
  { fm with frames := fm.frames.update frameId Frame.onLoadingStarted }

/-- What a lifecycle event does to its frame. -/
def lifecycleUpdate (event : EventLifecycleEvent) (frame : Frame) : Frame :=
  let frame := if event.name = "init" then
      { frame with loaderId := some event.loaderId, lifecycleEvents := ∅ }
    else frame
  { frame with lifecycleEvents := insert event.name frame.lifecycleEvents }

def onPageLifecycleEvent (fm : FrameManager) (event : EventLifecycleEvent) : FrameManager :=
  { fm with frames := fm.frames.update event.frameId (lifecycleUpdate event) }

def onHttpRequestFinished (fm : FrameManager) (request : HttpRequest) : FrameManager :=
  match request.frame with
  | some id => { fm with frames := fm.frames.update id fun frame => frame.setRequest request }
  | none => fm

/-! ### Execution contexts -/

/-- The `frameId` that the auxiliary data of a context names. -/
def contextFrameId (context : ExecutionContextDescription) : Option FrameId :=
  (context.auxData.bind fun data => (data.index "frameId").asStr).map FrameId.mk

def contextIsDefault (context : ExecutionContextDescription) : Bool :=
  (context.auxData.bind fun data => (data.index "isDefault").asBool).getD false

def contextIsIsolated (context : ExecutionContextDescription) : Bool :=
  match context.auxData with
  | some data => (data.index "type").asStr = some "isolated"
  | none => false

/-- Where a frame puts a context that was created in it. -/
def adoptContext (context : ExecutionContextDescription) (frame : Frame) : Frame :=
  if contextIsDefault context then
    { frame with mainWorld := frame.mainWorld.setContext context.id context.uniqueId }
  else if context.name = frame.isolatedWorldName ∧ frame.secondaryWorld.executionCtx = none then
    { frame with secondaryWorld := frame.secondaryWorld.setContext context.id context.uniqueId }
  else frame

def onFrameExecutionContextCreated (fm : FrameManager) (context : ExecutionContextDescription) :
    FrameManager :=
  let fm := match contextFrameId context with
    | some frameId =>
      match fm.frames.get frameId with
      | some frame =>
        { fm with
          frames := fm.frames.set frameId (adoptContext context frame)
          contextIds := fm.contextIds.set context.uniqueId frame.id }
      | none => fm
    | none => fm
  if contextIsIsolated context then
    { fm with isolatedWorlds := insert context.name fm.isolatedWorlds }
  else fm

def onFrameExecutionContextDestroyed (fm : FrameManager) (uniqueId : String) : FrameManager :=
  match fm.contextIds.get uniqueId with
  | some id =>
    { fm with
      contextIds := fm.contextIds.remove uniqueId
      frames := fm.frames.update id fun frame => frame.destroyContext uniqueId }
  | none => fm

def onExecutionContextsCleared (fm : FrameManager) : FrameManager :=
  { fm with
    frames := fm.contextIds.values.foldl (fun frames id => frames.update id Frame.clearContexts)
      fm.frames
    contextIds := ∅
    isolatedWorlds := ∅ }

def evictStaleContextIds (fm : FrameManager) : FrameManager :=
  { fm with contextIds := fm.contextIds.retain fun _ fid => (fm.frames.get fid).isSome }

end FrameManager

end SpiderChrome
