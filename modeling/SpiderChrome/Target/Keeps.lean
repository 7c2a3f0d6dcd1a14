import SpiderChrome.Handler.Deliver
import SpiderChrome.Network.Budget

/-!
# What a target keeps

To poll a target changes much of it, but not the session it belongs to, and it unblocks the network only where a message of the page asks for that. A property that looks at no more of a target than its session, its block and its page is kept by all the small steps of a poll, which `Steady` says once for all such properties. From it follow the session that a target has after an input, and the messages that wait in the channel of its page.
-/

namespace SpiderChrome

namespace Target

/-- A property that the small steps of a poll keep. -/
structure Steady (p : Target → Prop) : Prop where
  of_same : ∀ {t t' : Target}, p t → t'.sessionId = t.sessionId →
    t'.networkManager.blockAll = t.networkManager.blockAll → t'.page = t.page → p t'
  createPage : ∀ {t : Target}, p t → p t.createPage

variable {p : Target → Prop} {t : Target}

/-! ### The steps of a poll -/

theorem Steady.serveInitiator (hp : Steady p) (h : p t) : p t.serveInitiator := by
  have hcreated := hp.createPage h
  unfold Target.serveInitiator
  split
  · split
    · split
      · rename_i t' page heq
        rw [(Prod.mk.inj heq).1.symm]
        exact hp.of_same hcreated rfl rfl rfl
      · rename_i t' heq
        rw [(Prod.mk.inj heq).1.symm]
        exact hcreated
    · exact h
  · exact h

theorem Steady.onInitializationFailed (hp : Steady p) (h : p t) : p t.onInitializationFailed.1 := by
  unfold Target.onInitializationFailed
  cases t.initiator with
  | none => exact hp.of_same h rfl rfl rfl
  | some initiator => exact hp.of_same h rfl rfl rfl

theorem Steady.chainTurn (hp : Steady p) (h : p t) (next : NextCommand) : p (t.chainTurn next).1 := by
  cases next with
  | deadlineExceeded now deadline => exact hp.onInitializationFailed h
  | _ => exact h

theorem Steady.afterFrameChain (hp : Steady p) (h : p t) (env : Env) : p (t.afterFrameChain env) := by
  unfold Target.afterFrameChain
  split
  · split
    · exact hp.of_same h rfl rfl rfl
    · exact hp.of_same h rfl rfl rfl
  · exact hp.of_same h rfl rfl rfl

theorem Steady.initTurn (hp : Steady p) (env : Env) (now : Instant) (chains : Nat) (h : p t) :
    p (initTurn env now chains t).1 := by
  induction chains generalizing t with
  | zero => exact h
  | succ chains ih =>
    unfold Target.initTurn
    split
    · exact hp.of_same h rfl rfl rfl
    · split
      · exact h
      · split
        · exact ih (hp.afterFrameChain (hp.of_same h rfl rfl rfl) env)
        · refine hp.chainTurn ?_ _
          exact hp.of_same h rfl rfl rfl
    · split
      · exact ih (hp.of_same h rfl rfl rfl)
      · refine hp.chainTurn ?_ _
        exact hp.of_same h rfl rfl rfl
    · split
      · exact ih (hp.of_same h rfl rfl rfl)
      · refine hp.chainTurn ?_ _
        exact hp.of_same h rfl rfl rfl
    · split
      · exact ih (hp.of_same h rfl rfl rfl)
      · refine hp.chainTurn ?_ _
        exact hp.of_same h rfl rfl rfl
    · exact hp.serveInitiator h
    · exact h

theorem Steady.notifyWaiters (hp : Steady p) (h : p t) (budget : List Sender → Nat) :
    p (t.notifyWaiters budget).1 := by
  unfold Target.notifyWaiters
  split
  · exact hp.of_same h rfl rfl rfl
  · exact h

theorem Steady.handleNetworkEvent (hp : Steady p) (h : p t) (event : NetworkEvent) :
    p (t.handleNetworkEvent event) := by
  cases event with
  | request id => exact h
  | response id => exact h
  | _ => exact hp.of_same h rfl rfl rfl

theorem Steady.drainNetwork (hp : Steady p) (h : p t) : p t.drainNetwork := by
  unfold Target.drainNetwork
  have hstart : p { t with networkManager := { t.networkManager with queuedEvents := [] } } :=
    hp.of_same h rfl rfl rfl
  exact Run.invariant_of_step p (fun _ event h => hp.handleNetworkEvent h event) hstart _

theorem Steady.drainFramesTo (hp : Steady p) (clock : Nat → Instant) (now : Instant) (turns : Nat)
    (h : p t) : p (t.drainFramesTo clock now turns) := by
  induction turns generalizing t with
  | zero => exact h
  | succ turns ih =>
    unfold Target.drainFramesTo
    split
    · exact ih (hp.of_same h rfl rfl rfl)
    · exact hp.of_same h rfl rfl rfl

theorem Steady.pump (hp : Steady p) {receive : Target → Target} (hreceive : ∀ {t}, p t → p (receive t))
    (h : p t) (budget : List Sender → Nat) (clock : Nat → Instant) (now : Instant) :
    p (t.pump budget receive clock now).target := by
  have hnotified := hp.notifyWaiters h budget
  unfold Target.pump
  dsimp only
  split
  · exact hp.of_same hnotified rfl rfl rfl
  · have hdrained : p (((receive (t.notifyWaiters budget).1).drainNetwork).drainFrames clock now) :=
      hp.drainFramesTo clock now _ (hp.drainNetwork (hreceive hnotified))
    split
    · exact hdrained
    · exact hp.of_same (hp.notifyWaiters hdrained budget) rfl rfl rfl

theorem Steady.pollWith (hp : Steady p) {receive : Target → Target}
    (hreceive : ∀ {t}, p t → p (receive t)) (h : p t) (budget : List Sender → Nat) (env : Env)
    (now : Instant) : p (t.pollWith budget receive env now).target := by
  have hinit := hp.initTurn env now 6 h
  unfold Target.pollWith
  split
  · exact h
  · split
    · rename_i heq
      rw [heq] at hinit
      exact hinit
    · rename_i heq
      rw [heq] at hinit
      exact hinit
    · rename_i heq
      rw [heq] at hinit
      refine hp.pump hreceive ?_ budget env.clock now
      exact hp.of_same hinit rfl rfl rfl

/-! ### The session of a target -/

/-- What a message of the page can change. -/
theorem handlePageMessage_same (t : Target) (msg : TargetMessage) :
    ∃ nm queue navigation dom load idle almostIdle replies, t.handlePageMessage msg = { t with
      networkManager := nm
      queuedEvents := queue
      waitForFrameNavigation := navigation
      waitForDomContentLoaded := dom
      waitForLoad := load
      waitForNetworkIdle := idle
      waitForNetworkAlmostIdle := almostIdle
      replies := replies } := by
  cases msg with
  | waitForNavigation tx | waitForDomContentLoaded tx | waitForLoad tx | waitForNetworkIdle tx
  | waitForNetworkAlmostIdle tx =>
    simp only [handlePageMessage]
    split
    · exact ⟨_, _, _, _, _, _, _, _, rfl⟩
    · exact ⟨_, _, _, _, _, _, _, _, rfl⟩
  | addEventListener method =>
    simp only [handlePageMessage]
    split
    · exact ⟨_, _, _, _, _, _, _, _, rfl⟩
    · exact ⟨_, _, _, _, _, _, _, _, rfl⟩
  | _ => exact ⟨_, _, _, _, _, _, _, _, rfl⟩

theorem sessionId_handlePageMessage (t : Target) (msg : TargetMessage) :
    (t.handlePageMessage msg).sessionId = t.sessionId := by
  obtain ⟨_, _, _, _, _, _, _, _, heq⟩ := t.handlePageMessage_same msg
  rw [heq]

theorem initState_handlePageMessage (t : Target) (msg : TargetMessage) :
    (t.handlePageMessage msg).initState = t.initState := by
  obtain ⟨_, _, _, _, _, _, _, _, heq⟩ := t.handlePageMessage_same msg
  rw [heq]

theorem sessionId_onPageMessage (t : Target) (msg : TargetMessage) :
    (t.onPageMessage msg).sessionId = t.sessionId := by
  unfold onPageMessage
  split
  · rfl
  · exact t.sessionId_handlePageMessage msg

theorem sessionId_createPage (t : Target) : t.createPage.sessionId = t.sessionId := by
  unfold createPage
  split
  · rfl
  · rfl

theorem steady_sessionId (sessionId : Option SessionId) :
    Steady fun t => t.sessionId = sessionId where
  of_same := fun h hsession _ _ => hsession.trans h
  createPage := fun {t} h => t.sessionId_createPage.trans h

theorem sessionId_receivePageMessages (t : Target) :
    t.receivePageMessages.sessionId = t.sessionId := by
  unfold receivePageMessages
  split
  · rw [Run.foldl_unchanged sessionId_handlePageMessage]
  · rfl

theorem sessionId_pollTarget (driver : Driver) (t : Target) (env : Env) (now : Instant) :
    (Handler.pollTarget driver t env now).target.sessionId = t.sessionId := by
  have hp := steady_sessionId t.sessionId
  cases driver with
  | stream =>
    exact hp.pollWith (fun {t'} h => t'.sessionId_receivePageMessages.trans h) rfl _ env now
  | run => exact hp.pollWith (fun h => h) rfl _ env now

theorem sessionId_navigated (polled : Polled) (id : NavigationId) (timeout : Duration) :
    (navigated polled id timeout).sessionId = polled.target.sessionId := by
  unfold navigated
  split
  · split
    · rfl
    · rfl
  · rfl

/-- What an event can change. -/
theorem onEvent_same (t : Target) (env : Env) (event : CdpEventMessage) :
    ∃ nm fm queue, t.onEvent env event = { t with
      networkManager := nm
      frameManager := fm
      queuedEvents := queue } := by
  unfold onEvent
  split
  · exact ⟨_, _, _, rfl⟩
  · dsimp only
    split
    case h_11 =>
      split
      · split
        · exact ⟨_, _, _, rfl⟩
        · exact ⟨_, _, _, rfl⟩
      · split
        · exact ⟨_, _, _, rfl⟩
        · exact ⟨_, _, _, rfl⟩
    all_goals exact ⟨_, _, _, rfl⟩

/-- What an event does to the network manager, the manager does with an event of its own. -/
theorem networkManager_onEvent (t : Target) (env : Env) (event : CdpEventMessage) :
    (t.onEvent env event).networkManager = t.networkManager ∨
      ∃ input, (∀ blockAll, input ≠ .setBlockAll blockAll) ∧
        (t.onEvent env event).networkManager = t.networkManager.step env.blockers input := by
  unfold onEvent
  split
  · exact .inl rfl
  · dsimp only
    split
    case h_11 =>
      split
      · split
        · exact .inl rfl
        · exact .inl rfl
      · split
        · exact .inl rfl
        · exact .inl rfl
    case h_12 ev _ => exact .inr ⟨.requestPaused env.cache (env.clock 0) env.systemNow ev, nofun, rfl⟩
    case h_13 requestId _ => exact .inr ⟨.authRequired requestId, nofun, rfl⟩
    case h_14 ev _ => exact .inr ⟨.requestWillBeSent (env.clock 0) ev, nofun, rfl⟩
    case h_15 requestId _ => exact .inr ⟨.requestServedFromCache requestId, nofun, rfl⟩
    case h_16 ev _ => exact .inr ⟨.responseReceived ev, nofun, rfl⟩
    case h_17 requestId _ => exact .inr ⟨.loadingFinished requestId, nofun, rfl⟩
    case h_18 ev _ => exact .inr ⟨.loadingFailed ev, nofun, rfl⟩
    all_goals exact .inl rfl

theorem sessionId_onEvent (t : Target) (env : Env) (event : CdpEventMessage) :
    (t.onEvent env event).sessionId = t.sessionId := by
  obtain ⟨_, _, _, heq⟩ := t.onEvent_same env event
  rw [heq]

theorem sessionId_onResponse (t : Target) (env : Env) (resp : Response) (method : MethodId) :
    (t.onResponse env resp method).sessionId = t.sessionId := by
  unfold onResponse
  dsimp only
  split
  · split
    · rfl
    · rfl
  · rfl

/-- The session that a target has after an input. -/
def sessionAfter (t : Target) : TargetInput → Option SessionId
  | .attached session => some session
  | .detached => none
  | .response env method resp => (maybeStoreAttachSessionId env.decoders t method resp).sessionId
  | _ => t.sessionId

theorem sessionId_take (t : Target) (input : TargetInput) :
    (t.take input).sessionId = t.sessionAfter input := by
  cases input with
  | event env event => exact t.sessionId_onEvent env event
  | response env method resp => exact sessionId_onResponse _ env resp method
  | drained =>
    simp only [take, Handler.drainPage]
    split
    · rw [Run.foldl_unchanged sessionId_onPageMessage]
      rfl
    · rfl
  | paged everyKind =>
    simp only [take]
    split
    · exact t.sessionId_createPage
    · rfl
  | polled driver env now id timeout =>
    exact (sessionId_navigated _ id timeout).trans (sessionId_pollTarget driver t env now)
  | _ => rfl

/-! ### The channel of the page -/

/-- The messages that wait in the channel of the page. -/
def waiting (t : Target) : List TargetMessage := (t.page.map PageHandle.rx).getD []

theorem waiting_of_page_eq {t t' : Target} (h : t'.page = t.page) : t'.waiting = t.waiting := by
  rw [waiting, waiting, h]

theorem waiting_createPage (t : Target) : t.createPage.waiting = t.waiting := by
  unfold createPage
  split
  · rename_i hpage _
    rw [waiting, waiting, hpage]
    rfl
  · rfl

theorem steady_waiting (msgs : List TargetMessage) : Steady fun t => t.waiting = msgs where
  of_same := fun h _ _ hpage => (waiting_of_page_eq hpage).trans h
  createPage := fun {t} h => t.waiting_createPage.trans h

theorem page_handlePageMessage (t : Target) (msg : TargetMessage) :
    (t.handlePageMessage msg).page = t.page := by
  obtain ⟨_, _, _, _, _, _, _, _, heq⟩ := t.handlePageMessage_same msg
  rw [heq]

theorem page_onPageMessage (t : Target) (msg : TargetMessage) :
    (t.onPageMessage msg).page = t.page := by
  unfold onPageMessage
  split
  · rfl
  · exact t.page_handlePageMessage msg

theorem waiting_drainPage (t : Target) :
    (Handler.drainPage t).waiting = t.waiting.drop Handler.perTargetDrainBudget := by
  unfold Handler.drainPage
  split
  · rename_i handle hpage
    rw [waiting, Run.foldl_unchanged page_onPageMessage, waiting, hpage]
    rfl
  · rename_i hpage
    rw [waiting, hpage]
    rfl

theorem page_onEvent (t : Target) (env : Env) (event : CdpEventMessage) :
    (t.onEvent env event).page = t.page := by
  obtain ⟨_, _, _, heq⟩ := t.onEvent_same env event
  rw [heq]

theorem waiting_navigated (polled : Polled) (id : NavigationId) (timeout : Duration) :
    (navigated polled id timeout).waiting = polled.target.waiting := by
  unfold navigated
  split
  · split
    · rfl
    · rfl
  · rfl

end Target

end SpiderChrome
