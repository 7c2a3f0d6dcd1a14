import SpiderChrome.Frame.Navigation
import SpiderChrome.Library.Run
import SpiderChrome.Target.Poll

/-!
# What a target still has to report

The frame manager reports what becomes of its navigations, the target queues the reports behind its other events, and each poll of the target gives out one event. A list that the frame manager gives up from the front, one report at a time, is so passed on to the handler in order and without loss. `poll_backlog` says this once for every such list; the navigations that are still to end and the requests that are still to be sent are the two that are wanted.
-/

namespace SpiderChrome

/-- An input that the browser causes; the rest are the calls that start navigations and ask for them. -/
def FrameInput.isFrameEvent : FrameInput → Bool
  | goto _ | poll _ _ => false
  | _ => true

namespace Target

/-- Each report of the frame manager takes the first element of its list with it, and nothing else touches the list. -/
structure Reports {α : Type} (f : TargetEvent → Option α) (g : FrameManager → List α) : Prop where
  poll : ∀ fm now clock,
    g fm = (((fm.poll now clock).2.map frameEvent).bind f).toList ++ g (fm.poll now clock).1
  frames : ∀ fm input, input.isFrameEvent = true → g (FrameInput.apply fm input) = g fm
  worlds : ∀ fm worlds, g { fm with isolatedWorlds := worlds } = g fm
  started : ∀ timeout cap, g (.started timeout cap) = []
  request : ∀ req, f (.request req) = none
  command : ∀ msg, f (.command msg) = none
  bytesConsumed : ∀ bytes, f (.bytesConsumed bytes) = none

/-- The same of what the target does by itself: its page may have it report more. -/
structure Drains {α : Type} (f : TargetEvent → Option α) (g : FrameManager → List α) : Prop where
  poll : ∀ fm now clock,
    g fm = (((fm.poll now clock).2.map frameEvent).bind f).toList ++ g (fm.poll now clock).1
  frames : ∀ fm input, input.isFrameEvent = true → g (FrameInput.apply fm input) = g fm
  worlds : ∀ fm worlds, g { fm with isolatedWorlds := worlds } = g fm
  request : ∀ req, f (.request req) = none
  bytesConsumed : ∀ bytes, f (.bytesConsumed bytes) = none

theorem Reports.drains {α : Type} {f : TargetEvent → Option α} {g : FrameManager → List α} (h : Reports f g) :
    Drains f g :=
  ⟨h.poll, h.frames, h.worlds, h.request, h.bytesConsumed⟩

/-- What the queue and the frame manager have left to report. -/
def backlog {α : Type} (f : TargetEvent → Option α) (g : FrameManager → List α) (t : Target) :
    List α :=
  t.queuedEvents.filterMap f ++ g t.frameManager

section Backlog

variable {α : Type} {f : TargetEvent → Option α} {g : FrameManager → List α}

theorem backlog_of_eq {t t' : Target} (hqueue : t'.queuedEvents = t.queuedEvents)
    (hframes : g t'.frameManager = g t.frameManager) : t'.backlog f g = t.backlog f g := by
  rw [backlog, backlog, hqueue, hframes]

theorem backlog_pushEvent (t : Target) {event : TargetEvent} (h : f event = none) :
    (t.pushEvent event).backlog f g = t.backlog f g := by
  simp [backlog, pushEvent, h]

/-- A report in the queue stands in front of what the frame manager has left. -/
theorem backlog_pushReport (t : Target) (fm : FrameManager) (event : TargetEvent) :
    ({ t with frameManager := fm }.pushEvent event).backlog f g =
      t.queuedEvents.filterMap f ++ ((f event).toList ++ g fm) := by
  cases hevent : f event with
  | none => simp [backlog, pushEvent, hevent]
  | some report => simp [backlog, pushEvent, hevent]

theorem backlog_popEvent {t : Target} {event : TargetEvent} {rest : List TargetEvent}
    (h : t.queuedEvents = event :: rest) :
    t.backlog f g = (f event).toList ++ { t with queuedEvents := rest }.backlog f g := by
  cases hevent : f event with
  | none => simp [backlog, h, hevent]
  | some report => simp [backlog, h, hevent]

section

variable (hf : Reports f g)

include hf

/-! ### Messages of the page -/

theorem backlog_handlePageMessage (t : Target) (msg : TargetMessage) :
    (t.handlePageMessage msg).backlog f g = t.backlog f g := by
  cases msg with
  | command cmd => exact backlog_pushEvent _ (hf.command cmd)
  | waitForNavigation tx | waitForDomContentLoaded tx | waitForLoad tx | waitForNetworkIdle tx
  | waitForNetworkAlmostIdle tx =>
    simp only [handlePageMessage]
    split
    · exact backlog_of_eq rfl rfl
    · exact backlog_of_eq rfl rfl
  | addEventListener method =>
    simp only [handlePageMessage]
    split
    · exact backlog_of_eq rfl rfl
    · rfl
  | _ => exact backlog_of_eq rfl rfl

theorem backlog_onPageMessage (t : Target) (msg : TargetMessage) :
    (t.onPageMessage msg).backlog f g = t.backlog f g := by
  unfold onPageMessage
  split
  · rfl
  · exact backlog_handlePageMessage hf t msg

theorem backlog_receivePageMessages (t : Target) :
    t.receivePageMessages.backlog f g = t.backlog f g := by
  unfold receivePageMessages
  split
  · rw [Run.foldl_unchanged (backlog_handlePageMessage hf)]
    exact backlog_of_eq rfl rfl
  · rfl

end

variable (hf : Drains f g)

include hf

/-! ### Small steps -/

theorem backlog_frames (t : Target) {input : FrameInput} (h : input.isFrameEvent = true) :
    { t with frameManager := FrameInput.apply t.frameManager input }.backlog f g = t.backlog f g :=
  backlog_of_eq rfl (hf.frames t.frameManager input h)

theorem backlog_handleNetworkEvent (t : Target) (event : NetworkEvent) :
    (t.handleNetworkEvent event).backlog f g = t.backlog f g := by
  cases event with
  | sendCdpRequest command => exact backlog_pushEvent _ (hf.request _)
  | request id => rfl
  | response id => rfl
  | requestFailed request =>
    exact backlog_frames hf t (show (FrameInput.httpRequestFinished request).isFrameEvent = true from rfl)
  | requestFinished request =>
    exact backlog_frames hf t (show (FrameInput.httpRequestFinished request).isFrameEvent = true from rfl)
  | bytesConsumed bytes => exact backlog_pushEvent _ (hf.bytesConsumed bytes)

theorem backlog_drainNetwork (t : Target) : t.drainNetwork.backlog f g = t.backlog f g := by
  unfold drainNetwork
  rw [Run.foldl_unchanged (backlog_handleNetworkEvent hf)]
  exact backlog_of_eq rfl rfl

theorem backlog_drainFramesTo (clock : Nat → Instant) (now : Instant) (turns : Nat) (t : Target) :
    (t.drainFramesTo clock now turns).backlog f g = t.backlog f g := by
  induction turns generalizing t with
  | zero => rfl
  | succ turns ih =>
    have hpoll := hf.poll t.frameManager now (clock turns)
    unfold drainFramesTo
    split
    · rename_i fm event heq
      rw [ih, backlog_pushReport, backlog, hpoll, heq]
      rfl
    · rename_i fm heq
      rw [heq] at hpoll
      exact backlog_of_eq rfl hpoll.symm

theorem backlog_drainFrames (t : Target) (clock : Nat → Instant) (now : Instant) :
    (t.drainFrames clock now).backlog f g = t.backlog f g :=
  backlog_drainFramesTo hf clock now _ t

omit hf in
theorem backlog_pruneWaiters (t : Target) (isClosed : Sender → Bool) :
    (t.pruneWaiters isClosed).backlog f g = t.backlog f g := backlog_of_eq rfl rfl

omit hf in
theorem backlog_notifyWaiters (t : Target) (budget : List Sender → Nat) :
    (t.notifyWaiters budget).1.backlog f g = t.backlog f g := by
  unfold notifyWaiters
  split
  · exact backlog_of_eq rfl rfl
  · rfl

/-! ### A poll -/

omit hf in
theorem backlog_getOrCreatePage (t : Target) :
    t.getOrCreatePage.1.backlog f g = t.backlog f g := by
  simp only [getOrCreatePage, createPage]
  split
  · exact backlog_of_eq rfl rfl
  · rfl

omit hf in
theorem backlog_serveInitiator (t : Target) : t.serveInitiator.backlog f g = t.backlog f g := by
  have hpage : t.getOrCreatePage.1.backlog f g = t.backlog f g := backlog_getOrCreatePage t
  unfold serveInitiator
  split
  · split
    · split
      · rename_i t' page heq
        rw [heq] at hpage
        rw [← hpage]
        exact backlog_of_eq rfl rfl
      · rename_i t' heq
        rw [heq] at hpage
        exact hpage
    · rfl
  · rfl

omit hf in
theorem backlog_chainTurn (t : Target) (next : NextCommand) :
    (t.chainTurn next).1.backlog f g = t.backlog f g := by
  cases next with
  | deadlineExceeded now deadline =>
    simp only [chainTurn, onInitializationFailed]
    split
    · exact backlog_of_eq rfl rfl
    · exact backlog_of_eq rfl rfl
  | _ => rfl

theorem backlog_afterFrameChain (t : Target) (env : Env) :
    (t.afterFrameChain env).backlog f g = t.backlog f g := by
  unfold afterFrameChain FrameManager.ensureIsolatedWorld
  split
  · split
    · rename_i heq
      split at heq
      · cases heq
      · obtain ⟨rfl, -⟩ := Prod.mk.inj heq
        exact backlog_of_eq rfl (hf.worlds t.frameManager _)
    · rename_i heq
      split at heq
      · obtain ⟨rfl, -⟩ := Prod.mk.inj heq
        exact backlog_of_eq rfl rfl
      · cases heq
  · exact backlog_of_eq rfl rfl

theorem backlog_initTurn (env : Env) (now : Instant) (chains : Nat) (t : Target) :
    (t.initTurn env now chains).1.backlog f g = t.backlog f g := by
  induction chains generalizing t with
  | zero => rfl
  | succ chains ih =>
    unfold initTurn
    split
    · exact backlog_of_eq rfl rfl
    · split
      · rfl
      · split
        · rw [ih, backlog_afterFrameChain hf]
          exact backlog_of_eq rfl rfl
        · exact (backlog_chainTurn _ _).trans (backlog_of_eq rfl rfl)
    · split
      · exact (ih _).trans (backlog_of_eq rfl rfl)
      · exact (backlog_chainTurn _ _).trans (backlog_of_eq rfl rfl)
    · split
      · exact (ih _).trans (backlog_of_eq rfl rfl)
      · exact (backlog_chainTurn _ _).trans (backlog_of_eq rfl rfl)
    · split
      · exact (ih _).trans (backlog_of_eq rfl rfl)
      · exact (backlog_chainTurn _ _).trans (backlog_of_eq rfl rfl)
    · exact backlog_serveInitiator t
    · rfl

omit hf in
/-- An initialising target only ever emits requests. -/
theorem initTurn_emit {env : Env} {now : Instant} {chains : Nat} {t : Target} {event : TargetEvent}
    (h : (t.initTurn env now chains).2 = .emit event) : ∃ req, event = .request req := by
  have hchain : ∀ (t : Target) (next : NextCommand), (t.chainTurn next).2 = .emit event →
      ∃ req, event = .request req := by
    intro t next h
    cases next with
    | command method params => exact ⟨_, (InitTurn.emit.inj h).symm⟩
    | deadlineExceeded now deadline => exact ⟨_, (InitTurn.emit.inj h).symm⟩
    | pending => cases h
    | done => cases h
  induction chains generalizing t with
  | zero => cases h
  | succ chains ih =>
    unfold initTurn at h
    split at h
    · exact ⟨_, (InitTurn.emit.inj h).symm⟩
    · split at h
      · cases h
      · split at h
        · exact ih h
        · exact hchain _ _ h
    · split at h
      · exact ih h
      · exact hchain _ _ h
    · split at h
      · exact ih h
      · exact hchain _ _ h
    · split at h
      · exact ih h
      · exact hchain _ _ h
    · cases h
    · cases h

/-- The pump gives up what its event reports, and nothing else, as long as the messages it receives report nothing. -/
theorem backlog_pump (t : Target) (budget : List Sender → Nat) {receive : Target → Target}
    (hreceive : ∀ t : Target, (receive t).backlog f g = t.backlog f g) (clock : Nat → Instant)
    (now : Instant) :
    t.backlog f g = ((t.pump budget receive clock now).event.bind f).toList ++
      (t.pump budget receive clock now).target.backlog f g := by
  have hnotified : (t.notifyWaiters budget).1.backlog f g = t.backlog f g :=
    backlog_notifyWaiters t budget
  simp only [pump]
  rw [← hnotified]
  generalize (t.notifyWaiters budget).1 = t'
  generalize (t.notifyWaiters budget).2 = woken
  split
  · rename_i event rest hqueue
    exact backlog_popEvent hqueue
  · have hdrained : (((receive t').drainNetwork).drainFrames clock now).backlog f g =
        t'.backlog f g := by
      rw [backlog_drainFrames hf, backlog_drainNetwork hf, hreceive]
    rw [← hdrained]
    generalize ((receive t').drainNetwork).drainFrames clock now = t''
    split
    · rfl
    · rename_i event rest hqueue
      have hrest : { t''.notifyWaiters budget |>.1 with queuedEvents := rest }.backlog f g =
          { t'' with queuedEvents := rest }.backlog f g := by
        unfold notifyWaiters
        split
        · exact backlog_of_eq rfl rfl
        · rfl
      rw [backlog_popEvent hqueue, ← hrest]
      rfl

theorem backlog_pollWith (t : Target) (budget : List Sender → Nat) {receive : Target → Target}
    (hreceive : ∀ t : Target, (receive t).backlog f g = t.backlog f g) (env : Env) (now : Instant) :
    t.backlog f g = ((t.pollWith budget receive env now).event.bind f).toList ++
      (t.pollWith budget receive env now).target.backlog f g := by
  have hinit := backlog_initTurn hf env now 6 t
  unfold pollWith
  split
  · rfl
  · split
    · rename_i t' event heq
      obtain ⟨req, rfl⟩ := initTurn_emit (congrArg Prod.snd heq)
      rw [heq] at hinit
      simp [hf.request, ← hinit]
    · rename_i t' heq
      rw [heq] at hinit
      exact hinit.symm
    · rename_i t' heq
      rw [heq] at hinit
      rw [← hinit, ← backlog_pruneWaiters t' env.isClosed]
      exact backlog_pump hf _ budget hreceive env.clock now

omit hf in
theorem backlog_poll (hf : Reports f g) (t : Target) (env : Env) (now : Instant) :
    t.backlog f g = ((t.poll env now).event.bind f).toList ++ (t.poll env now).target.backlog f g :=
  backlog_pollWith hf.drains t _ (backlog_receivePageMessages hf) env now

theorem backlog_advance (t : Target) (env : Env) (now : Instant) :
    t.backlog f g =
      ((t.advance env now).event.bind f).toList ++ (t.advance env now).target.backlog f g :=
  backlog_pollWith hf t _ (fun _ => rfl) env now

/-! ### Events and responses -/

theorem backlog_onEvent (t : Target) (env : Env) (event : CdpEventMessage) :
    (t.onEvent env event).backlog f g = t.backlog f g := by
  obtain ⟨params, sessionId⟩ := event
  have hframes : ∀ input : FrameInput, input.isFrameEvent = true →
      { t with frameManager := FrameInput.apply t.frameManager input }.backlog f g =
        t.backlog f g := fun input h => backlog_frames hf t h
  unfold onEvent
  split
  · rfl
  · cases params with
    | pageFrameAttached frameId parentFrameId =>
      exact hframes (.frameAttached frameId (some parentFrameId)) rfl
    | pageFrameDetached frameId => exact hframes (.frameDetached frameId) rfl
    | pageFrameNavigated frame => exact hframes (.frameNavigated frame (env.worldName frame.id)) rfl
    | pageNavigatedWithinDocument ev => exact hframes (.navigatedWithinDocument ev) rfl
    | runtimeExecutionContextCreated context => exact hframes (.contextCreated context) rfl
    | runtimeExecutionContextDestroyed uniqueId => exact hframes (.contextDestroyed uniqueId) rfl
    | runtimeExecutionContextsCleared => exact hframes .contextsCleared rfl
    | pageLifecycleEvent ev => exact hframes (.lifecycleEvent ev) rfl
    | pageFrameStartedLoading frameId => exact hframes (.startedLoading frameId) rfl
    | pageFrameStoppedLoading frameId => exact hframes (.stoppedLoading frameId) rfl
    | targetAttachedToTarget ev =>
      have hrun : ∀ t : Target, (if ev.waitingForDebugger = true then
          t.pushEvent (.request ⟨"Runtime.runIfWaitingForDebugger", some ev.sessionId.inner,
            .object []⟩) else t).backlog f g = t.backlog f g := by
        intro t
        split
        · exact backlog_pushEvent t (hf.request _)
        · rfl
      dsimp only
      split
      · exact (backlog_pushEvent _ (hf.request _)).trans (hrun t)
      · exact hrun t
    | _ => exact backlog_of_eq rfl rfl

theorem backlog_onResponse (t : Target) (env : Env) (resp : Response) (method : MethodId) :
    (t.onResponse env resp method).backlog f g = t.backlog f g := by
  unfold onResponse
  dsimp only
  split
  · split
    · rename_i frameTree _
      exact backlog_of_eq rfl (hf.frames t.frameManager (.frameTree frameTree env.worldName) rfl)
    · exact backlog_of_eq rfl rfl
  · exact backlog_of_eq rfl rfl

omit hf in
theorem backlog_goto (t : Target) (req : FrameRequestedNavigation) :
    (t.goto req).backlog f g =
      t.queuedEvents.filterMap f ++ g (t.frameManager.goto req) := rfl

omit hf in
theorem backlog_new (hf : Reports f g) (info : TargetInfo) (config : TargetConfig) (browserContext : BrowserContext) :
    (new info config browserContext).backlog f g = [] :=
  hf.started config.requestTimeout config.maxMainFrameNavigations

end Backlog

end Target

/-! ### Navigations that are still to end and requests that are still to be sent -/

namespace FrameManager

theorem checkLifecycleComplete_id {watcher : NavigationWatcher} {frame : Frame} {nav : NavigationOk}
    (h : checkLifecycleComplete watcher frame = some nav) : nav.navigationId = watcher.id := by
  unfold checkLifecycleComplete at h
  split at h
  · cases h
  · split at h
    · cases h
    · split at h
      · cases h
        rfl
      · split at h
        · cases h
          rfl
        · cases h

def activeId (fm : FrameManager) : Option NavigationId :=
  fm.navigation.map fun navigation => navigation.1.id

/-- The active navigation, then the queued ones. -/
def navigationIds (fm : FrameManager) : List NavigationId :=
  fm.activeId.toList ++ fm.pendingNavigations.map fun pending => pending.2.id

/-- The requests that are still queued. -/
def unsent (fm : FrameManager) : List (NavigationId × Request) :=
  fm.pendingNavigations.map fun pending => (pending.1.id, pending.1.req)

theorem activeId_onMainNavigated (fm : FrameManager) (frame : CdpFrame) (worldName : String) :
    (fm.onMainNavigated frame worldName).activeId = fm.activeId := by
  rw [onMainNavigated_eq]
  unfold activeId followMainFrame
  dsimp only
  split
  · rfl
  · rw [Option.map_map]
    congr 1
    funext navigation
    dsimp only [Function.comp]
    split
    · rfl
    · rfl

/-- What the browser does leaves the navigations under their ids and in their order. -/
theorem navigations_apply (fm : FrameManager) {input : FrameInput} (h : input.isFrameEvent = true) :
    (FrameInput.apply fm input).activeId = fm.activeId ∧
      (FrameInput.apply fm input).pendingNavigations = fm.pendingNavigations := by
  cases hquiet : input.quiet with
  | true =>
    have hsame := FrameInput.apply_of_quiet hquiet fm
    unfold activeId
    rw [hsame.navigation]
    exact ⟨rfl, hsame.pendingNavigations⟩
  | false =>
    cases input with
    | goto req => cases h
    | poll now clock => cases h
    | frameTree tree worldName =>
      refine ⟨?_, onFrameTree_pendingNavigations worldName tree fm⟩
      change (onFrameTree worldName tree fm).activeId = fm.activeId
      rw [onFrameTree_eq]
      refine Run.foldl_unchanged (fun fm frame => ?_) fm tree.nodes
      cases hparent : frame.parentId.isSome with
      | true =>
        unfold activeId
        rw [(sameNavigations_onFrameNode worldName fm hparent).navigation]
      | false => rw [onFrameNode_of_main worldName fm hparent, activeId_onMainNavigated]
    | frameNavigated frame worldName =>
      change (fm.onFrameNavigated frame worldName).activeId = fm.activeId ∧
        (fm.onFrameNavigated frame worldName).pendingNavigations = fm.pendingNavigations
      rw [onFrameNavigated_of_main fm worldName hquiet]
      refine ⟨activeId_onMainNavigated fm frame worldName, ?_⟩
      rw [onMainNavigated_eq]
    | navigatedWithinDocument event =>
      refine ⟨?_, rfl⟩
      change (fm.navigation.map fun navigation =>
        (navigation.1.onFrameNavigatedWithinDocument event, navigation.2)).map
          (fun navigation => navigation.1.id) = fm.activeId
      rw [Option.map_map]
      unfold activeId NavigationWatcher.onFrameNavigatedWithinDocument
      congr 1
      funext navigation
      dsimp only [Function.comp]
      split
      · rfl
      · rfl
    | _ => cases hquiet

theorem goto_of_mainFrame {fm : FrameManager} {frameId : FrameId} (h : fm.mainFrame = some frameId)
    (req : FrameRequestedNavigation) : fm.goto req = fm.navigateFrame frameId req := by
  unfold goto
  rw [h]

theorem goto_of_no_mainFrame {fm : FrameManager} (h : fm.mainFrame = none)
    (req : FrameRequestedNavigation) : fm.goto req = fm := by
  unfold goto
  rw [h]

end FrameManager

/-- The navigation that an event ends. -/
def TargetEvent.resultId? : TargetEvent → Option NavigationId
  | navigationResult (.ok nav) => some nav.navigationId
  | navigationResult (.error err) => some err.navigationId
  | _ => none

/-- The request that an event hands out. -/
def TargetEvent.sentRequest? : TargetEvent → Option (NavigationId × Request)
  | navigationRequest id req => some (id, req)
  | _ => none

namespace Target

theorem reports_navigationIds : Reports TargetEvent.resultId? FrameManager.navigationIds where
  poll := by
    intro fm now clock
    have hstep := FrameManager.poll_step fm now clock
    generalize (fm.poll now clock).1 = fm' at hstep ⊢
    generalize (fm.poll now clock).2 = event at hstep ⊢
    unfold FrameManager.navigationIds FrameManager.activeId
    cases hstep with
    | idle hnavigation hqueue => rfl
    | issued req watcher rest hnavigation hqueue => rw [hnavigation, hqueue]; rfl
    | waiting watcher deadline hnavigation hcap => rfl
    | capped watcher deadline hnavigation hcap => rw [hnavigation]; rfl
    | timedOut watcher deadline hnavigation hcap hlate => rw [hnavigation]; rfl
    | lost watcher deadline hnavigation hcap hframe => rw [hnavigation]; rfl
    | completed watcher deadline frame nav hnavigation hcap hframe hnav =>
      rw [hnavigation]
      show watcher.id :: _ = nav.navigationId :: _
      rw [FrameManager.checkLifecycleComplete_id hnav]
      rfl
  frames := by
    intro fm input h
    obtain ⟨hactive, hqueue⟩ := FrameManager.navigations_apply fm h
    unfold FrameManager.navigationIds
    rw [hactive, hqueue]
  worlds := fun _ _ => rfl
  started := fun _ _ => rfl
  request := fun _ => rfl
  command := fun _ => rfl
  bytesConsumed := fun _ => rfl

theorem reports_unsent : Reports TargetEvent.sentRequest? FrameManager.unsent where
  poll := by
    intro fm now clock
    have hstep := FrameManager.poll_step fm now clock
    generalize (fm.poll now clock).1 = fm' at hstep ⊢
    generalize (fm.poll now clock).2 = event at hstep ⊢
    unfold FrameManager.unsent
    cases hstep with
    | issued req watcher rest hnavigation hqueue => rw [hqueue]; rfl
    | _ => rfl
  frames := by
    intro fm input h
    unfold FrameManager.unsent
    rw [(FrameManager.navigations_apply fm h).2]
  worlds := fun _ _ => rfl
  started := fun _ _ => rfl
  request := fun _ => rfl
  command := fun _ => rfl
  bytesConsumed := fun _ => rfl

/-- The navigations that the target has not reported the end of. -/
def navigationIds (t : Target) : List NavigationId :=
  t.backlog TargetEvent.resultId? FrameManager.navigationIds

/-- The requests that the target has not handed to the handler. -/
def unsent (t : Target) : List (NavigationId × Request) :=
  t.backlog TargetEvent.sentRequest? FrameManager.unsent

/-- A target that knows no main frame drops the request. -/
theorem navigationIds_goto (t : Target) (req : FrameRequestedNavigation) :
    (t.goto req).navigationIds =
      t.navigationIds ++ if t.frameManager.mainFrame.isSome then [req.id] else [] := by
  unfold navigationIds
  rw [backlog_goto, backlog]
  cases hmain : t.frameManager.mainFrame with
  | none => simp [FrameManager.goto_of_no_mainFrame hmain]
  | some frameId =>
    rw [FrameManager.goto_of_mainFrame hmain]
    simp [FrameManager.navigationIds, FrameManager.activeId, FrameManager.navigateFrame,
      NavigationWatcher.untilLoad, NavigationWatcher.untilLifecycle]

theorem unsent_goto (t : Target) (req : FrameRequestedNavigation) :
    (t.goto req).unsent = t.unsent ++
      (t.frameManager.mainFrame.map fun frameId => (req.id, (req.setFrameId frameId).req)).toList := by
  unfold unsent
  rw [backlog_goto, backlog]
  cases hmain : t.frameManager.mainFrame with
  | none => simp [FrameManager.goto_of_no_mainFrame hmain]
  | some frameId =>
    rw [FrameManager.goto_of_mainFrame hmain]
    simp [FrameManager.unsent, FrameManager.navigateFrame, FrameRequestedNavigation.setFrameId]

/-! ### The drain is complete -/

/-- Each report shortens what is left of the navigations. -/
theorem frameTurns_poll (fm : FrameManager) (now clock : Instant) :
    (fm.poll now clock).2.isSome = true → frameTurns (fm.poll now clock).1 < frameTurns fm := by
  have hstep := FrameManager.poll_step fm now clock
  generalize (fm.poll now clock).1 = fm' at hstep ⊢
  generalize (fm.poll now clock).2 = event at hstep ⊢
  intro hsome
  unfold frameTurns
  cases hstep with
  | idle hnavigation hqueue => cases hsome
  | waiting watcher deadline hnavigation hcap => cases hsome
  | issued req watcher rest hnavigation hqueue => simp [hnavigation, hqueue]; omega
  | capped watcher deadline hnavigation hcap => simp [hnavigation]
  | timedOut watcher deadline hnavigation hcap hlate => simp [hnavigation]
  | lost watcher deadline hnavigation hcap hframe => simp [hnavigation]
  | completed watcher deadline frame nav hnavigation hcap hframe hnav => simp [hnavigation]

theorem drainFramesTo_drained (clock : Nat → Instant) (now : Instant) (turns : Nat) (t : Target)
    (hturns : frameTurns t.frameManager ≤ turns) :
    ∃ last, ((t.drainFramesTo clock now turns).frameManager.poll now last).2 = none := by
  induction turns generalizing t with
  | zero =>
    refine ⟨now, Option.eq_none_iff_forall_ne_some.2 fun event hevent => ?_⟩
    have hshorter := frameTurns_poll t.frameManager now now (Option.isSome_iff_exists.2 ⟨event, hevent⟩)
    omega
  | succ turns ih =>
    have hstep := FrameManager.poll_step t.frameManager now (clock turns)
    have hshorter := frameTurns_poll t.frameManager now (clock turns)
    cases hpoll : t.frameManager.poll now (clock turns) with
    | mk fm event =>
      rw [hpoll] at hstep hshorter
      cases event with
      | some event =>
        have hleft : frameTurns fm ≤ turns := by
          have hless : frameTurns fm < frameTurns t.frameManager := hshorter rfl
          omega
        simp only [drainFramesTo, hpoll]
        exact ih ({ t with frameManager := fm }.pushEvent (frameEvent event)) hleft
      | none =>
        -- A poll that yields nothing leaves the manager as it was.
        have hsame : fm = t.frameManager := by
          cases hstep with
          | idle => rfl
          | waiting => rfl
        refine ⟨clock turns, ?_⟩
        simp only [drainFramesTo, hpoll]
        rw [hsame, hpoll]

/-- The loop over the frame manager ends when there is nothing more to report. -/
theorem drainFrames_drained (t : Target) (clock : Nat → Instant) (now : Instant) :
    ∃ last, ((t.drainFrames clock now).frameManager.poll now last).2 = none :=
  drainFramesTo_drained clock now _ t (Nat.le_refl _)

end Target

end SpiderChrome
