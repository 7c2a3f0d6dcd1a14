import SpiderChrome.Frame.Input

/-!
# What a call does to the navigations

The facts that every result about navigations starts from. `poll_step` lists what a poll can do. An input that is `quiet` leaves the navigations, the main frame's id and the counter alone. The rest are `goto`, a navigation within a document, and the navigations of the main frame, which come one at a time or as the records of a frame tree.
-/

namespace SpiderChrome

namespace FrameManager

/-- What one poll can do, with what it leaves and what it yields. -/
inductive PollStep (fm : FrameManager) (now clock : Instant) :
    FrameManager → Option FrameEvent → Prop where
  | idle (hnavigation : fm.navigation = none) (hqueue : fm.pendingNavigations = []) :
      PollStep fm now clock fm none
  | issued (req : FrameRequestedNavigation) (watcher : NavigationWatcher)
      (rest : List (FrameRequestedNavigation × NavigationWatcher))
      (hnavigation : fm.navigation = none) (hqueue : fm.pendingNavigations = (req, watcher) :: rest) :
      PollStep fm now clock
        { fm with
          pendingNavigations := rest
          navigation := some (watcher, clock + req.timeout) }
        (some (.navigationRequest req.id req.req))
  | waiting (watcher : NavigationWatcher) (deadline : Instant)
      (hnavigation : fm.navigation = some (watcher, deadline)) (hcap : fm.exceedsCap = false) :
      PollStep fm now clock fm none
  | capped (watcher : NavigationWatcher) (deadline : Instant)
      (hnavigation : fm.navigation = some (watcher, deadline)) (hcap : fm.exceedsCap = true) :
      PollStep fm now clock { fm with navigation := none }
        (some (.navigationResult (.error (.tooManyNavigations watcher.id fm.mainFrameNavCount))))
  | timedOut (watcher : NavigationWatcher) (deadline : Instant)
      (hnavigation : fm.navigation = some (watcher, deadline)) (hcap : fm.exceedsCap = false)
      (hlate : deadline < now) :
      PollStep fm now clock { fm with navigation := none }
        (some (.navigationResult (.error (.timeout watcher.id now deadline))))
  | lost (watcher : NavigationWatcher) (deadline : Instant)
      (hnavigation : fm.navigation = some (watcher, deadline)) (hcap : fm.exceedsCap = false)
      (hframe : fm.frames.get watcher.frameId = none) :
      PollStep fm now clock { fm with navigation := none }
        (some (.navigationResult (.error (.frameNotFound watcher.id watcher.frameId))))
  | completed (watcher : NavigationWatcher) (deadline : Instant) (frame : Frame) (nav : NavigationOk)
      (hnavigation : fm.navigation = some (watcher, deadline)) (hcap : fm.exceedsCap = false)
      (hframe : fm.frames.get watcher.frameId = some frame)
      (hnav : checkLifecycleComplete watcher frame = some nav) :
      PollStep fm now clock { fm with navigation := none } (some (.navigationResult (.ok nav)))

theorem poll_step (fm : FrameManager) (now clock : Instant) :
    PollStep fm now clock (fm.poll now clock).1 (fm.poll now clock).2 := by
  unfold poll
  split
  · rename_i watcher deadline hnavigation
    split
    · rename_i hcap
      exact .capped watcher deadline hnavigation hcap
    · rename_i hcap
      rw [Bool.not_eq_true] at hcap
      split
      · rename_i hlate
        exact .timedOut watcher deadline hnavigation hcap hlate
      · split
        · rename_i frame hframe
          split
          · rename_i nav hnav
            exact .completed watcher deadline frame nav hnavigation hcap hframe hnav
          · exact .waiting watcher deadline hnavigation hcap
        · rename_i hframe
          exact .lost watcher deadline hnavigation hcap hframe
  · rename_i hnavigation
    split
    · rename_i req watcher rest hqueue
      exact .issued req watcher rest hnavigation hqueue
    · rename_i hqueue
      exact .idle hnavigation hqueue

/-! ### Calls that leave the frames alone -/

theorem poll_frames (fm : FrameManager) (now clock : Instant) :
    (fm.poll now clock).1.frames = fm.frames := by
  unfold poll
  repeat' split
  all_goals rfl

theorem poll_mainFrame (fm : FrameManager) (now clock : Instant) :
    (fm.poll now clock).1.mainFrame = fm.mainFrame := by
  unfold poll
  repeat' split
  all_goals rfl

theorem goto_frames (fm : FrameManager) (req : FrameRequestedNavigation) :
    (fm.goto req).frames = fm.frames := by
  unfold goto
  split
  all_goals rfl

theorem goto_mainFrame (fm : FrameManager) (req : FrameRequestedNavigation) :
    (fm.goto req).mainFrame = fm.mainFrame := by
  unfold goto
  split
  all_goals rfl

/-! ### Calls that leave the navigations alone -/

/-- The two managers agree in everything but their frames and contexts. -/
structure SameNavigations (fm fm' : FrameManager) : Prop where
  mainFrame : fm'.mainFrame = fm.mainFrame
  pendingNavigations : fm'.pendingNavigations = fm.pendingNavigations
  navigation : fm'.navigation = fm.navigation
  mainFrameNavCount : fm'.mainFrameNavCount = fm.mainFrameNavCount
  maxMainFrameNavigations : fm'.maxMainFrameNavigations = fm.maxMainFrameNavigations

theorem SameNavigations.trans {fm fm' fm'' : FrameManager} (h : SameNavigations fm fm')
    (h' : SameNavigations fm' fm'') : SameNavigations fm fm'' where
  mainFrame := h'.mainFrame.trans h.mainFrame
  pendingNavigations := h'.pendingNavigations.trans h.pendingNavigations
  navigation := h'.navigation.trans h.navigation
  mainFrameNavCount := h'.mainFrameNavCount.trans h.mainFrameNavCount
  maxMainFrameNavigations := h'.maxMainFrameNavigations.trans h.maxMainFrameNavigations

theorem sameNavigations_onFrameAttached (fm : FrameManager) (frameId : FrameId)
    (parentFrameId : Option FrameId) :
    SameNavigations fm (fm.onFrameAttached frameId parentFrameId) := by
  unfold onFrameAttached
  repeat' split
  all_goals exact ⟨rfl, rfl, rfl, rfl, rfl⟩

theorem sameNavigations_onChildNavigated (fm : FrameManager) (frame : CdpFrame) :
    SameNavigations fm (fm.onChildNavigated frame) := by
  unfold onChildNavigated
  split
  all_goals exact ⟨rfl, rfl, rfl, rfl, rfl⟩

theorem sameNavigations_onHttpRequestFinished (fm : FrameManager) (request : HttpRequest) :
    SameNavigations fm (fm.onHttpRequestFinished request) := by
  unfold onHttpRequestFinished
  split
  all_goals exact ⟨rfl, rfl, rfl, rfl, rfl⟩

theorem sameNavigations_onFrameExecutionContextCreated (fm : FrameManager)
    (context : ExecutionContextDescription) :
    SameNavigations fm (fm.onFrameExecutionContextCreated context) := by
  unfold onFrameExecutionContextCreated
  repeat' split
  all_goals exact ⟨rfl, rfl, rfl, rfl, rfl⟩

theorem sameNavigations_onFrameExecutionContextDestroyed (fm : FrameManager) (uniqueId : String) :
    SameNavigations fm (fm.onFrameExecutionContextDestroyed uniqueId) := by
  unfold onFrameExecutionContextDestroyed
  split
  all_goals exact ⟨rfl, rfl, rfl, rfl, rfl⟩

theorem sameNavigations_onFrameNode (worldName : FrameId → String) (fm : FrameManager)
    {frame : CdpFrame} (h : frame.parentId.isSome = true) :
    SameNavigations fm (onFrameNode worldName fm frame) := by
  unfold onFrameNode onFrameNavigated
  rw [if_pos h]
  exact (sameNavigations_onFrameAttached fm frame.id frame.parentId).trans
    (sameNavigations_onChildNavigated _ frame)

/-- A record without a parent is not attached, it navigates the main frame. -/
theorem onFrameNode_of_main (worldName : FrameId → String) (fm : FrameManager) {frame : CdpFrame}
    (h : frame.parentId.isSome = false) :
    onFrameNode worldName fm frame = fm.onMainNavigated frame (worldName frame.id) := by
  have hattached : fm.onFrameAttached frame.id frame.parentId = fm := by
    rw [Option.isSome_eq_false_iff, Option.isNone_iff_eq_none] at h
    unfold onFrameAttached
    rw [h]
    split
    · rfl
    · rfl
  unfold onFrameNode onFrameNavigated
  rw [hattached, h]
  rfl

end FrameManager

/-! ### The main frame's id -/

/-- The main frame's id after a navigation of a frame. -/
def CdpFrame.newMain (main : Option FrameId) (frame : CdpFrame) : Option FrameId :=
  if frame.parentId.isSome then main else some frame.id

namespace FrameInput

open FrameManager

/-- The main frame's id after the input. -/
def newMain (main : Option FrameId) : FrameInput → Option FrameId
  | frameTree tree _ => tree.nodes.foldl CdpFrame.newMain main
  | frameNavigated frame _ => frame.newMain main
  | _ => main

/-- The input leaves the navigations, the main frame's id and the counter alone. -/
def quiet : FrameInput → Bool
  | goto _ | poll _ _ | frameTree _ _ | navigatedWithinDocument _ => false
  | frameNavigated frame _ => frame.parentId.isSome
  | _ => true

/-- The input is a poll that hands out the request of a queued navigation. -/
def issues (fm : FrameManager) : FrameInput → Bool
  | poll now clock =>
    match (fm.poll now clock).2 with
    | some (.navigationRequest _ _) => true
    | _ => false
  | _ => false

theorem issues_poll (fm : FrameManager) (now clock : Instant) :
    (poll now clock).issues fm =
      match (fm.poll now clock).2 with
      | some (.navigationRequest _ _) => true
      | _ => false := rfl

theorem apply_of_quiet {input : FrameInput} (h : input.quiet = true) (fm : FrameManager) :
    SameNavigations fm (apply fm input) := by
  cases input with
  | goto req => cases h
  | poll now clock => cases h
  | frameTree tree worldName => cases h
  | navigatedWithinDocument event => cases h
  | frameAttached frameId parentFrameId =>
    exact sameNavigations_onFrameAttached fm frameId parentFrameId
  | frameNavigated frame worldName =>
    have heq : fm.onFrameNavigated frame worldName = fm.onChildNavigated frame := if_pos h
    change SameNavigations fm (fm.onFrameNavigated frame worldName)
    rw [heq]
    exact sameNavigations_onChildNavigated fm frame
  | httpRequestFinished request => exact sameNavigations_onHttpRequestFinished fm request
  | contextCreated context => exact sameNavigations_onFrameExecutionContextCreated fm context
  | contextDestroyed uniqueId => exact sameNavigations_onFrameExecutionContextDestroyed fm uniqueId
  | frameDetached frameId => exact ⟨rfl, rfl, rfl, rfl, rfl⟩
  | stoppedLoading frameId => exact ⟨rfl, rfl, rfl, rfl, rfl⟩
  | startedLoading frameId => exact ⟨rfl, rfl, rfl, rfl, rfl⟩
  | lifecycleEvent event => exact ⟨rfl, rfl, rfl, rfl, rfl⟩
  | contextsCleared => exact ⟨rfl, rfl, rfl, rfl, rfl⟩
  | evictStaleContextIds => exact ⟨rfl, rfl, rfl, rfl, rfl⟩

theorem newMain_of_quiet {input : FrameInput} (h : input.quiet = true) (main : Option FrameId) :
    input.newMain main = main := by
  cases input with
  | frameNavigated frame worldName => exact if_pos h
  | frameTree tree worldName => cases h
  | _ => rfl

theorem issues_of_quiet {input : FrameInput} (h : input.quiet = true) (fm : FrameManager) :
    input.issues fm = false := by
  cases input with
  | poll now clock => cases h
  | _ => rfl

end FrameInput

namespace FrameManager

theorem onFrameNode_mainFrame (worldName : FrameId → String) (fm : FrameManager)
    (frame : CdpFrame) :
    (onFrameNode worldName fm frame).mainFrame = frame.newMain fm.mainFrame := by
  unfold CdpFrame.newMain
  cases hparent : frame.parentId.isSome with
  | true => exact (sameNavigations_onFrameNode worldName fm hparent).mainFrame
  | false => rw [onFrameNode_of_main worldName fm hparent, onMainNavigated_eq]; rfl

theorem onFrameNavigated_of_main (fm : FrameManager) {frame : CdpFrame} (worldName : String)
    (h : frame.parentId.isSome = false) :
    fm.onFrameNavigated frame worldName = fm.onMainNavigated frame worldName := by
  unfold onFrameNavigated
  rw [h]
  rfl

theorem onFrameTree_mainFrame (worldName : FrameId → String) (tree : FrameTree)
    (fm : FrameManager) :
    (onFrameTree worldName tree fm).mainFrame = tree.nodes.foldl CdpFrame.newMain fm.mainFrame := by
  rw [onFrameTree_eq]
  induction tree.nodes generalizing fm with
  | nil => rfl
  | cons frame rest ih =>
    rw [List.foldl_cons, List.foldl_cons, ih, onFrameNode_mainFrame]

theorem apply_mainFrame (fm : FrameManager) (input : FrameInput) :
    (FrameInput.apply fm input).mainFrame = input.newMain fm.mainFrame := by
  cases hquiet : input.quiet with
  | true =>
    rw [FrameInput.newMain_of_quiet hquiet]
    exact (FrameInput.apply_of_quiet hquiet fm).mainFrame
  | false =>
    cases input with
    | goto req => exact goto_mainFrame fm req
    | poll now clock => exact poll_mainFrame fm now clock
    | navigatedWithinDocument event => rfl
    | frameTree tree worldName => exact onFrameTree_mainFrame worldName tree fm
    | frameNavigated frame worldName =>
      have hmain : (FrameInput.frameNavigated frame worldName).newMain fm.mainFrame = some frame.id :=
        if_neg (by rw [show frame.parentId.isSome = false from hquiet]; exact Bool.false_ne_true)
      change (fm.onFrameNavigated frame worldName).mainFrame = _
      rw [onFrameNavigated_of_main fm worldName hquiet, onMainNavigated_eq, hmain]
    | _ => cases hquiet

/-- Navigating the main frame and taking in a frame tree leave the queue alone. -/
theorem onFrameTree_pendingNavigations (worldName : FrameId → String) (tree : FrameTree)
    (fm : FrameManager) :
    (onFrameTree worldName tree fm).pendingNavigations = fm.pendingNavigations := by
  rw [onFrameTree_eq]
  refine Run.foldl_unchanged (fun fm frame => ?_) fm tree.nodes
  cases hparent : frame.parentId.isSome with
  | true => exact (sameNavigations_onFrameNode worldName fm hparent).pendingNavigations
  | false => rw [onFrameNode_of_main worldName fm hparent, onMainNavigated_eq]

end FrameManager

end SpiderChrome
