import SpiderChrome.Frame.Manager
import SpiderChrome.Library.Run

/-!
# What happens to a frame manager

A target calls the methods of its frame manager in whatever order the browser and the user decide. An input is one such call with its arguments, and `FrameInput.apply` makes the call. The manager that a target starts from is `FrameManager.started`.
-/

namespace SpiderChrome

inductive FrameInput where
  | goto (req : FrameRequestedNavigation)
  | poll (now clock : Instant)
  | frameTree (frameTree : FrameTree) (worldName : FrameId → String)
  | frameAttached (frameId : FrameId) (parentFrameId : Option FrameId)
  | frameDetached (frameId : FrameId)
  | frameNavigated (frame : CdpFrame) (worldName : String)
  | navigatedWithinDocument (event : EventNavigatedWithinDocument)
  | stoppedLoading (frameId : FrameId)
  | startedLoading (frameId : FrameId)
  | lifecycleEvent (event : EventLifecycleEvent)
  | httpRequestFinished (request : HttpRequest)
  | contextCreated (context : ExecutionContextDescription)
  | contextDestroyed (uniqueId : String)
  | contextsCleared
  | evictStaleContextIds

namespace FrameManager

/-- The manager of a new target whose handler was configured with the cap. -/
def started (requestTimeout : Duration) (cap : Option UInt32) : FrameManager :=
  (new requestTimeout).setMaxMainFrameNavigations cap

end FrameManager

namespace FrameInput

def apply (fm : FrameManager) : FrameInput → FrameManager
  | goto req => fm.goto req
  | poll now clock => (fm.poll now clock).1
  | frameTree tree worldName => FrameManager.onFrameTree worldName tree fm
  | frameAttached frameId parentFrameId => fm.onFrameAttached frameId parentFrameId
  | frameDetached frameId => fm.onFrameDetached frameId
  | frameNavigated frame worldName => fm.onFrameNavigated frame worldName
  | navigatedWithinDocument event => fm.onFrameNavigatedWithinDocument event
  | stoppedLoading frameId => fm.onFrameStoppedLoading frameId
  | startedLoading frameId => fm.onFrameStartedLoading frameId
  | lifecycleEvent event => fm.onPageLifecycleEvent event
  | httpRequestFinished request => fm.onHttpRequestFinished request
  | contextCreated context => fm.onFrameExecutionContextCreated context
  | contextDestroyed uniqueId => fm.onFrameExecutionContextDestroyed uniqueId
  | contextsCleared => fm.onExecutionContextsCleared
  | evictStaleContextIds => fm.evictStaleContextIds

end FrameInput

/-! ### Taking in a frame tree -/

mutual

/-- The records of a frame tree, each before those of its children. -/
def FrameTree.nodes : FrameTree → List CdpFrame
  | .node frame childFrames => frame :: childNodes? childFrames

def childNodes? : Option (List FrameTree) → List CdpFrame
  | some children => childNodes children
  | none => []

def childNodes : List FrameTree → List CdpFrame
  | childTree :: rest => childTree.nodes ++ childNodes rest
  | [] => []

end

namespace FrameManager

/-- What `on_frame_tree` does with one record. -/
def onFrameNode (worldName : FrameId → String) (fm : FrameManager) (frame : CdpFrame) :
    FrameManager :=
  (fm.onFrameAttached frame.id frame.parentId).onFrameNavigated frame (worldName frame.id)

mutual

/-- A frame tree is taken in record by record. -/
theorem onFrameTree_eq (worldName : FrameId → String) (tree : FrameTree) (fm : FrameManager) :
    onFrameTree worldName tree fm = tree.nodes.foldl (onFrameNode worldName) fm := by
  obtain ⟨frame, childFrames⟩ := tree
  cases childFrames with
  | none => rfl
  | some children => exact onChildTrees_eq worldName children (onFrameNode worldName fm frame)

theorem onChildTrees_eq (worldName : FrameId → String) (trees : List FrameTree)
    (fm : FrameManager) :
    onChildTrees worldName trees fm = (childNodes trees).foldl (onFrameNode worldName) fm := by
  cases trees with
  | nil => rfl
  | cons tree rest =>
    rw [onChildTrees, childNodes, List.foldl_append, onFrameTree_eq worldName tree,
      onChildTrees_eq worldName rest]

end

end FrameManager

end SpiderChrome
