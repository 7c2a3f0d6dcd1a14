import SpiderChrome.Cdp.Value

/-!
# Page and runtime messages

The ids, records and events of the `Page` and `Runtime` domains, with the fields that the frame manager reads.
-/

namespace SpiderChrome

/-- A point in time, in nanoseconds of a monotonic clock. -/
abbrev Instant := Nat

/-- A span of time, in nanoseconds. -/
abbrev Duration := Nat

structure FrameId where
  inner : String
deriving DecidableEq, Repr

structure LoaderId where
  inner : String
deriving DecidableEq, Repr

structure ExecutionContextId where
  inner : Int
deriving DecidableEq, Repr

/-- The `Page.Frame` record of the protocol. -/
structure CdpFrame where
  id : FrameId
  parentId : Option FrameId
  name : Option String
  url : String
  urlFragment : Option String

/-- A node of the answer to `Page.getFrameTree`. -/
inductive FrameTree where
  | node (frame : CdpFrame) (childFrames : Option (List FrameTree))

structure EventNavigatedWithinDocument where
  frameId : FrameId
  url : String

structure EventLifecycleEvent where
  frameId : FrameId
  loaderId : LoaderId
  name : String

structure ExecutionContextDescription where
  id : ExecutionContextId
  name : String
  uniqueId : String
  auxData : Option Value

end SpiderChrome
