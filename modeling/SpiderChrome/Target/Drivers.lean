import SpiderChrome.Target.Waiters

/-!
# The two drivers of a target

The stream polls a target, which reads the messages of its page between two halves of the pump; the other drivers hand the messages over first and then advance the target. A message that is no command looks at the frames and changes the network, the pump answers the waiters and then drains the network and the frames, and so the order of the two does not matter for what comes out. `poll_advance_agree` compares the two from the same start to the end. A target without its waiters and its replies is called its core here: nothing but these depends on who answers when.
-/

namespace SpiderChrome

namespace Target

/-! ### What a target is without its waiters -/

def core (t : Target) : Target :=
  { t with
    waitForFrameNavigation := []
    waitForDomContentLoaded := []
    waitForLoad := []
    waitForNetworkIdle := []
    waitForNetworkAlmostIdle := []
    replies := [] }

/-- The target when the messages have been taken from the channel of its page. -/
def drained (t : Target) : Target :=
  { t with page := t.page.map fun handle => { handle with rx := [] } }

variable {t t' : Target}

/-- Equal cores have everything else in common as well. -/
theorem of_core {Part : Type} (part : Target → Part) (h : t.core = t'.core)
    (hpart : ∀ t : Target, part t.core = part t) : part t = part t' := by
  rw [← hpart t, h, hpart t']

theorem core_notifyWaiters (t : Target) (budget : List Sender → Nat) :
    (t.notifyWaiters budget).1.core = t.core := by
  unfold notifyWaiters
  split
  · rfl
  · rfl

/-- The initiator is sent the page. -/
def serve (t : Target) (initiator : Sender) (page : PageInner) : Target :=
  { t with initiator := none }.send initiator (.page (.ok page))

theorem serveInitiator_eq (t : Target) : t.serveInitiator =
    match t.initiator with
    | some initiator =>
      if t.mainFrameIs Frame.isLoaded then
        match t.createPage.page with
        | some handle => t.createPage.serve initiator handle.page
        | none => t.createPage
      else t
    | none => t := by
  unfold serveInitiator getOrCreatePage
  cases t.initiator with
  | none => rfl
  | some initiator =>
    dsimp only
    split
    · cases t.createPage.page <;> rfl
    · rfl

/-- A map of targets that keeps what the initiator is served by. -/
theorem serveInitiator_map {f : Target → Target} (hinitiator : ∀ t, (f t).initiator = t.initiator)
    (hframes : ∀ t, (f t).frameManager = t.frameManager)
    (hcreate : ∀ t, (f t).createPage = f t.createPage)
    (hpage : ∀ t, (f t).page.map PageHandle.page = t.page.map PageHandle.page)
    (hserve : ∀ t tx page, (f t).serve tx page = f (t.serve tx page))
    (t : Target) : (f t).serveInitiator = f t.serveInitiator := by
  rw [serveInitiator_eq, serveInitiator_eq, hinitiator, hcreate]
  cases t.initiator with
  | none => rfl
  | some initiator =>
    have hloaded : (f t).mainFrameIs Frame.isLoaded = t.mainFrameIs Frame.isLoaded := by
      rw [mainFrameIs, mainFrameIs, hframes]
    have hsame := hpage t.createPage
    dsimp only
    rw [hloaded]
    split
    · cases hcreated : t.createPage.page with
      | none =>
        rw [hcreated, Option.map_none, Option.map_eq_none_iff] at hsame
        rw [hsame]
      | some handle =>
        rw [hcreated, Option.map_some, Option.map_eq_some_iff] at hsame
        obtain ⟨other, hother, heq⟩ := hsame
        simp only [hother, heq]
        exact hserve _ _ _
    · rfl

/-- The target with other waiters and with replies before its own. -/
def behind (replies : List (Sender × Reply)) (other t : Target) : Target :=
  { t with
    waitForFrameNavigation := other.waitForFrameNavigation
    waitForDomContentLoaded := other.waitForDomContentLoaded
    waitForLoad := other.waitForLoad
    waitForNetworkIdle := other.waitForNetworkIdle
    waitForNetworkAlmostIdle := other.waitForNetworkAlmostIdle
    replies := replies ++ t.replies }

theorem serveInitiator_behind (t other : Target) (replies : List (Sender × Reply)) :
    (behind replies other t).serveInitiator = behind replies other t.serveInitiator := by
  refine serveInitiator_map (f := behind replies other) (fun _ => rfl) (fun _ => rfl) (fun t => ?_)
    (fun _ => rfl) (fun t tx reply => ?_) t
  · unfold createPage behind
    cases hpage : t.page <;> cases hsession : t.sessionId <;> simp [hpage, hsession]
  · simp [behind, serve, send]

theorem behind_core (t : Target) : behind t.replies t t.core = t := by
  simp [behind, core]

theorem core_serveInitiator (t : Target) : t.core.serveInitiator.core = t.serveInitiator.core := by
  conv_rhs => rw [← behind_core t, serveInitiator_behind]
  rfl

/-- What the initiator is sent comes after the replies that are there. -/
theorem replies_serveInitiator (t : Target) :
    t.serveInitiator.replies = t.replies ++ t.core.serveInitiator.replies := by
  conv_lhs => rw [← behind_core t, serveInitiator_behind]
  rfl

/-! ### The messages -/

theorem replies_handlePageMessage (t : Target) (msg : TargetMessage) :
    (t.handlePageMessage msg).replies = t.replies ++ (t.core.handlePageMessage msg).replies := by
  cases msg with
  | waitForNavigation _ | waitForDomContentLoaded _ | waitForLoad _ | waitForNetworkIdle _
  | waitForNetworkAlmostIdle _ =>
    simp only [handlePageMessage]
    have hreached : t.core.mainFrameIs = t.mainFrameIs := rfl
    rw [hreached]
    split
    · rfl
    · exact (List.append_nil _).symm
  | addEventListener method =>
    simp only [handlePageMessage]
    split
    · exact (List.append_nil _).symm
    · exact (List.append_nil _).symm
  | mainFrame _ | allFrames _ | url _ _ | name _ _ | parent _ _ | getExecutionContext _ _ _ => rfl
  | _ => exact (List.append_nil _).symm

/-- What a message is answered is read off the frames. -/
theorem replies_congr (h : t'.frameManager = t.frameManager) (msg : TargetMessage) :
    (t'.core.handlePageMessage msg).replies = (t.core.handlePageMessage msg).replies := by
  cases msg with
  | waitForNavigation _ | waitForDomContentLoaded _ | waitForLoad _ | waitForNetworkIdle _
  | waitForNetworkAlmostIdle _ =>
    have hreached : t'.core.mainFrameIs = t.core.mainFrameIs := by
      funext reached
      exact congrArg (fun fm : FrameManager => (fm.mainFrame?.map reached).getD false) h
    simp only [handlePageMessage, hreached]
    split
    · exact congrArg (fun fm : FrameManager =>
        [] ++ [(_, Reply.httpRequest (fm.mainFrame?.bind Frame.httpRequest))]) h
    · rfl
  | mainFrame _ | allFrames _ | url _ _ | name _ _ | parent _ _ | getExecutionContext _ _ _ =>
    simp only [handlePageMessage, send, askedFrame, core, h]
  | addEventListener method =>
    simp only [handlePageMessage]
    split
    · rfl
    · rfl
  | _ => rfl

theorem networkManager_handlePageMessage (h : t'.networkManager = t.networkManager)
    (msg : TargetMessage) :
    (t'.handlePageMessage msg).networkManager = (t.handlePageMessage msg).networkManager := by
  cases msg with
  | waitForNavigation _ | waitForDomContentLoaded _ | waitForLoad _ | waitForNetworkIdle _
  | waitForNetworkAlmostIdle _ =>
    simp only [handlePageMessage, apply_ite networkManager, send, h, ite_self]
  | addEventListener method => simp only [handlePageMessage, apply_ite networkManager, h]
  | mainFrame _ | allFrames _ | url _ _ | name _ _ | parent _ _ | getExecutionContext _ _ _ => exact h
  | _ => simp only [handlePageMessage, pushEvent, h]

/-- What the messages are answered. -/
def answersTo (t : Target) (msgs : List TargetMessage) : List (Sender × Reply) :=
  msgs.flatMap fun msg => (t.core.handlePageMessage msg).replies

/-- The network after the messages. -/
def networkAfter (t : Target) (msgs : List TargetMessage) : NetworkManager :=
  (msgs.foldl handlePageMessage t).networkManager

theorem frameManager_handlePageMessage (t : Target) (msg : TargetMessage) :
    (t.handlePageMessage msg).frameManager = t.frameManager := by
  cases msg with
  | waitForNavigation _ | waitForDomContentLoaded _ | waitForLoad _ | waitForNetworkIdle _
  | waitForNetworkAlmostIdle _ | addEventListener _ =>
    simp only [handlePageMessage]
    split
    · rfl
    · rfl
  | _ => rfl

theorem answersTo_congr (h : t'.frameManager = t.frameManager) (msgs : List TargetMessage) :
    t'.answersTo msgs = t.answersTo msgs := by
  have hmsg : ∀ msg, (t'.core.handlePageMessage msg).replies = (t.core.handlePageMessage msg).replies :=
    replies_congr h
  simp only [answersTo, hmsg]

theorem replies_handlePageMessages (t : Target) (msgs : List TargetMessage) :
    (msgs.foldl handlePageMessage t).replies = t.replies ++ t.answersTo msgs := by
  induction msgs generalizing t with
  | nil => exact (List.append_nil _).symm
  | cons msg rest ih =>
    have hrest : (t.handlePageMessage msg).answersTo rest = t.answersTo rest :=
      answersTo_congr (t.frameManager_handlePageMessage msg) rest
    rw [List.foldl_cons, ih, hrest, replies_handlePageMessage, List.append_assoc]
    rfl

theorem networkAfter_congr (h : t'.networkManager = t.networkManager) (msgs : List TargetMessage) :
    t'.networkAfter msgs = t.networkAfter msgs := by
  induction msgs generalizing t t' with
  | nil => exact h
  | cons msg rest ih => exact ih (networkManager_handlePageMessage h msg)

theorem replies_notifyWaiters (t : Target) (budget : List Sender → Nat) :
    (t.notifyWaiters budget).1.replies =
      t.replies ++ (t.firedBy budget).map fun entry => (entry.2, t.mainRequest) := by
  unfold notifyWaiters
  split
  · rename_i frame hframe
    simp [firedBy, fire, drainWaiters, mainRequest, eligible, mainFrameIs, hframe, Waiter.reached, waiters,
      apply_ite Prod.fst, apply_ite (List.map fun tx => (tx, Reply.httpRequest frame.httpRequest)),
      apply_ite (List.map fun entry : Waiter × Sender => (entry.2, Reply.httpRequest frame.httpRequest)),
      Function.comp_def]
  · rename_i hframe
    simp [firedBy, eligible, mainFrameIs, hframe]

/-- Nobody is queued whom the main frame has come far enough for. -/
def Settled (t : Target) : Prop := ∀ kind, t.eligible kind = true → t.waiters kind = []

theorem SameWaiters.settled (h : SameWaiters t t') (hsettled : t.Settled) : t'.Settled := by
  intro kind hreached
  rw [h.waiters]
  exact hsettled kind (h.eligible ▸ hreached)

theorem settled_pruneWaiters (h : t.Settled) (isClosed : Sender → Bool) :
    (t.pruneWaiters isClosed).Settled := by
  intro kind hreached
  have hkept : (t.pruneWaiters isClosed).waiters kind =
      (t.waiters kind).filter fun tx => !isClosed tx := by
    cases kind <;> rfl
  rw [hkept, h kind hreached, List.filter_nil]

/-- With a budget for all of them nobody is left. -/
theorem settled_notifyWaiters {budget : List Sender → Nat}
    (hbudget : ∀ kind, t.eligible kind = true → (t.waiters kind).length ≤ budget (t.waiters kind)) :
    (t.notifyWaiters budget).1.Settled := by
  intro kind hreached
  have hstays := (t.moves_notifyWaiters (fun _ => false) budget).stays
  rw [hstays] at hreached
  have hle := hbudget kind hreached
  rw [waiters_notifyWaiters, if_pos hreached, Nat.sub_eq_zero_of_le hle, List.take_zero]

theorem Settled.firedBy_eq (h : t.Settled) (budget : List Sender → Nat) : t.firedBy budget = [] := by
  refine List.flatMap_eq_nil_iff.2 fun kind _ => ?_
  split
  · rename_i hreached
    simp [h kind hreached]
  · rfl

/-! ### The drains -/

theorem replies_handleNetworkEvent (t : Target) (event : NetworkEvent) :
    (t.handleNetworkEvent event).replies = t.replies := by
  cases event <;> rfl

theorem replies_drainNetwork (t : Target) : t.drainNetwork.replies = t.replies := by
  unfold drainNetwork
  rw [Run.foldl_unchanged replies_handleNetworkEvent]

theorem replies_drainFramesTo (clock : Nat → Instant) (now : Instant) (turns : Nat) (t : Target) :
    (t.drainFramesTo clock now turns).replies = t.replies := by
  induction turns generalizing t with
  | zero => rfl
  | succ turns ih =>
    unfold drainFramesTo
    split
    · exact ih _
    · rfl

/-- Two targets that have everything in common but the waiters that cannot fire yet and the order of the replies. -/
structure Agree (t t' : Target) : Prop where
  core : t.core = t'.core
  replies : t.replies.Perm t'.replies
  settled : t.Settled
  settled' : t'.Settled

theorem Agree.queuedEvents (h : Agree t t') : t.queuedEvents = t'.queuedEvents :=
  of_core Target.queuedEvents h.core fun _ => rfl

theorem Agree.notify (h : Agree t t') (budget budget' : List Sender → Nat) :
    Agree (t.notifyWaiters budget).1 (t'.notifyWaiters budget').1 where
  core := by rw [core_notifyWaiters, core_notifyWaiters, h.core]
  replies := by
    rw [replies_notifyWaiters, replies_notifyWaiters, h.settled.firedBy_eq, h.settled'.firedBy_eq]
    simpa using h.replies
  settled := settled_notifyWaiters fun kind hreached => by simp [h.settled kind hreached]
  settled' := settled_notifyWaiters fun kind hreached => by simp [h.settled' kind hreached]

theorem Agree.prune (h : Agree t t') (isClosed : Sender → Bool) :
    Agree (t.pruneWaiters isClosed) (t'.pruneWaiters isClosed) where
  core := h.core
  replies := h.replies
  settled := settled_pruneWaiters h.settled isClosed
  settled' := settled_pruneWaiters h.settled' isClosed

theorem Agree.serve (h : Agree t t') : Agree t.serveInitiator t'.serveInitiator where
  core := by rw [← core_serveInitiator, h.core, core_serveInitiator]
  replies := by
    rw [replies_serveInitiator, replies_serveInitiator t', h.core]
    exact h.replies.append_right _
  settled := (sameWaiters_serveInitiator t).settled h.settled
  settled' := (sameWaiters_serveInitiator t').settled h.settled'

theorem pollWith_initialized (hpage : t.isPage = true) (hinit : t.initState = .initialized)
    (budget : List Sender → Nat) (receive : Target → Target) (env : Env) (now : Instant) :
    t.pollWith budget receive env now =
      (t.serveInitiator.pruneWaiters env.isClosed).pump budget receive env.clock now := by
  unfold pollWith initTurn
  rw [hpage, hinit]
  rfl

/-- A page that is initialised and has nothing in the channel. -/
structure Ready (t : Target) : Prop where
  page : t.isPage = true
  init : t.initState = .initialized
  waiting : t.waiting = []

theorem Ready.of_core (h : t.Ready) (hcore : t'.core = t.core) : t'.Ready where
  page := (Target.of_core isPage hcore fun _ => rfl).trans h.page
  init := (Target.of_core initState hcore fun _ => rfl).trans h.init
  waiting := (Target.of_core Target.waiting hcore fun _ => rfl).trans h.waiting

/-- The fold over the channel, from a target whose channel is empty already. -/
theorem receivePageMessages_eq (t : Target) :
    t.receivePageMessages = t.waiting.foldl handlePageMessage t.drained := by
  cases hpage : t.page with
  | some handle => simp [receivePageMessages, Target.waiting, drained, hpage]
  | none =>
    have hsame : t.drained = t := by rw [drained, hpage, Option.map_none, ← hpage]
    simp [receivePageMessages, Target.waiting, hpage, hsame]

/-- The target that the messages of its channel have been handed to. -/
def handed (t : Target) : Target := t.waiting.foldl onPageMessage t.drained

/-- What the turn of an initialised target changes. -/
theorem serveInitiator_same (t : Target) : ∃ page initiator replies, t.serveInitiator = { t with
    page := page
    initiator := initiator
    replies := replies } := by
  have hcreated : ∃ page, t.createPage = { t with page := page } := by
    unfold createPage
    split
    · exact ⟨_, rfl⟩
    · exact ⟨_, rfl⟩
  obtain ⟨page, hcreated⟩ := hcreated
  rw [serveInitiator_eq, hcreated]
  split
  · split
    · split
      · exact ⟨_, _, _, rfl⟩
      · exact ⟨_, _, _, rfl⟩
    · exact ⟨_, _, _, rfl⟩
  · exact ⟨_, _, _, rfl⟩

theorem frameManager_serveInitiator (t : Target) : t.serveInitiator.frameManager = t.frameManager := by
  obtain ⟨_, _, _, heq⟩ := t.serveInitiator_same
  rw [heq]

theorem networkManager_serveInitiator (t : Target) :
    t.serveInitiator.networkManager = t.networkManager := by
  obtain ⟨_, _, _, heq⟩ := t.serveInitiator_same
  rw [heq]

theorem queuedEvents_serveInitiator (t : Target) : t.serveInitiator.queuedEvents = t.queuedEvents := by
  obtain ⟨_, _, _, heq⟩ := t.serveInitiator_same
  rw [heq]

theorem waiters_pruneWaiters (t : Target) (isClosed : Sender → Bool) (kind : Waiter) :
    (t.pruneWaiters isClosed).waiters kind = (t.waiters kind).filter fun tx => !isClosed tx := by
  cases kind <;> rfl

/-- The target when the pump starts. -/
def opened (t : Target) (isClosed : Sender → Bool) : Target := t.serveInitiator.pruneWaiters isClosed

theorem eligible_opened (t : Target) (isClosed : Sender → Bool) :
    (t.opened isClosed).eligible = t.eligible :=
  ((t.serveInitiator.moves_pruneWaiters isClosed).stays).trans t.sameWaiters_serveInitiator.eligible

theorem waiters_opened (t : Target) (isClosed : Sender → Bool) (kind : Waiter) :
    (t.opened isClosed).waiters kind = (t.waiters kind).filter fun tx => !isClosed tx := by
  rw [opened, waiters_pruneWaiters, t.sameWaiters_serveInitiator.waiters]

/-- The target after the first turn of the waiters. -/
def notified (t : Target) (isClosed : Sender → Bool) (budget : List Sender → Nat) : Target :=
  ((t.opened isClosed).notifyWaiters budget).1

theorem type_drainNetwork (t : Target) : t.drainNetwork.type = t.type := by
  have hevent : ∀ (t : Target) event, (t.handleNetworkEvent event).type = t.type := by
    intro t event
    cases event <;> rfl
  unfold drainNetwork
  rw [Run.foldl_unchanged hevent]

theorem type_drainFramesTo (clock : Nat → Instant) (now : Instant) (turns : Nat) (t : Target) :
    (t.drainFramesTo clock now turns).type = t.type := by
  induction turns generalizing t with
  | zero => rfl
  | succ turns ih =>
    unfold drainFramesTo
    split
    · exact ih _
    · rfl

theorem type_notifyWaiters (t : Target) (budget : List Sender → Nat) :
    (t.notifyWaiters budget).1.type = t.type :=
  of_core type (core_notifyWaiters t budget) fun _ => rfl

theorem advance_of_ready (h : t.Ready) (env : Env) (now : Instant) :
    t.advance env now = (t.opened env.isClosed).pump List.length (fun t => t) env.clock now :=
  pollWith_initialized h.page h.init List.length (fun t => t) env now

theorem type_opened (t : Target) (isClosed : Sender → Bool) : (t.opened isClosed).type = t.type := by
  obtain ⟨_, _, _, heq⟩ := t.serveInitiator_same
  rw [opened, heq]
  rfl

/-- A call leaves a target ready that is ready. -/
theorem Ready.advance (h : t.Ready) (env : Env) (now : Instant) : (t.advance env now).target.Ready where
  page := by
    have hnotify : ∀ t : Target, (t.notifyWaiters List.length).1.type = t.type :=
      fun t => t.type_notifyWaiters _
    have htype : (t.advance env now).target.type = t.type := by
      rw [advance_of_ready h, pump]
      dsimp only
      split
      · exact (hnotify _).trans (t.type_opened _)
      · have hdrained : (((t.opened env.isClosed).notifyWaiters List.length).1.drainNetwork.drainFrames
            env.clock now).type = t.type := by
          rw [drainFrames, type_drainFramesTo, type_drainNetwork, hnotify, type_opened]
        split
        · exact hdrained
        · exact (hnotify _).trans hdrained
    rw [isPage, htype]
    exact h.page
  init := pollTarget_initialized h.init .run env now
  waiting := by
    have hp := steady_waiting []
    exact hp.pollWith (fun h => h) h.waiting _ env now

/-- The events that a target has or may still get without any input. -/
def workLeft (t : Target) : Nat :=
  t.queuedEvents.length + t.networkManager.queuedEvents.length + frameTurns t.frameManager

theorem workLeft_handleNetworkEvent (t : Target) (event : NetworkEvent) :
    (t.handleNetworkEvent event).workLeft ≤ t.workLeft + 1 := by
  have hfinished : ∀ request, frameTurns (t.frameManager.onHttpRequestFinished request) =
      frameTurns t.frameManager := by
    intro request
    unfold FrameManager.onHttpRequestFinished
    split
    · rfl
    · rfl
  cases event with
  | requestFailed request | requestFinished request =>
    simp only [workLeft, handleNetworkEvent, hfinished]
    omega
  | request id | response id => exact Nat.le_succ _
  | sendCdpRequest command | bytesConsumed bytes =>
    simp only [workLeft, handleNetworkEvent, pushEvent, List.length_append, List.length_singleton]
    omega

theorem workLeft_drainNetwork (t : Target) : t.drainNetwork.workLeft ≤ t.workLeft := by
  have hfold : ∀ (events : List NetworkEvent) (t : Target),
      (events.foldl handleNetworkEvent t).workLeft ≤ t.workLeft + events.length := by
    intro events
    induction events with
    | nil => exact fun t => Nat.le_refl _
    | cons event rest ih =>
      intro t
      have hfirst := t.workLeft_handleNetworkEvent event
      have hrest := ih (t.handleNetworkEvent event)
      rw [List.foldl_cons, List.length_cons]
      omega
  have hdrained := hfold t.networkManager.queuedEvents
    { t with networkManager := { t.networkManager with queuedEvents := [] } }
  unfold drainNetwork
  simp only [workLeft, List.length_nil] at hdrained ⊢
  omega

theorem frameTurns_poll_le (fm : FrameManager) (now clock : Instant) :
    frameTurns (fm.poll now clock).1 ≤ frameTurns fm := by
  have hstep := FrameManager.poll_step fm now clock
  have hless := frameTurns_poll fm now clock
  generalize (fm.poll now clock).1 = fm' at hstep hless ⊢
  generalize (fm.poll now clock).2 = event at hstep hless ⊢
  cases event with
  | some event => exact Nat.le_of_lt (hless rfl)
  | none =>
    cases hstep with
    | idle => exact Nat.le_refl _
    | waiting => exact Nat.le_refl _

theorem workLeft_drainFramesTo (clock : Nat → Instant) (now : Instant) (turns : Nat) (t : Target) :
    (t.drainFramesTo clock now turns).workLeft ≤ t.workLeft := by
  induction turns generalizing t with
  | zero => exact Nat.le_refl _
  | succ turns ih =>
    have hless := frameTurns_poll t.frameManager now (clock turns)
    have hle := frameTurns_poll_le t.frameManager now (clock turns)
    unfold drainFramesTo
    split
    · rename_i fm event heq
      rw [heq] at hless
      have hpolled : ({ t with frameManager := fm }.pushEvent (frameEvent event)).workLeft ≤ t.workLeft := by
        have hturn : frameTurns fm < frameTurns t.frameManager := hless rfl
        simp only [workLeft, pushEvent, List.length_append, List.length_singleton]
        omega
      exact (ih _).trans hpolled
    · rename_i fm heq
      rw [heq] at hle
      exact Nat.add_le_add_left hle _

theorem workLeft_notifyWaiters (t : Target) (budget : List Sender → Nat) :
    (t.notifyWaiters budget).1.workLeft = t.workLeft :=
  of_core workLeft (core_notifyWaiters t budget) fun _ => rfl

theorem workLeft_pop {event : TargetEvent} {rest : List TargetEvent}
    (hqueue : t.queuedEvents = event :: rest) :
    { t with queuedEvents := rest }.workLeft < t.workLeft := by
  simp only [workLeft, hqueue, List.length_cons]
  omega

/-- An event that the pump yields is one of those the target may still get. -/
theorem workLeft_pump (t : Target) (clock : Nat → Instant) (now : Instant) :
    (t.pump List.length (fun t => t) clock now).target.workLeft +
      (t.pump List.length (fun t => t) clock now).event.toList.length ≤ t.workLeft := by
  have hnotified : ∀ t : Target, (t.notifyWaiters List.length).1.workLeft = t.workLeft :=
    fun t => t.workLeft_notifyWaiters List.length
  have hdrained : ((t.notifyWaiters List.length).1.drainNetwork.drainFrames clock now).workLeft ≤ t.workLeft := by
    refine (workLeft_drainFramesTo clock now _ _).trans ((workLeft_drainNetwork _).trans ?_)
    rw [hnotified]
  have hkept : ∀ t : Target, (t.notifyWaiters List.length).1.queuedEvents = t.queuedEvents :=
    fun t => of_core queuedEvents (core_notifyWaiters t _) fun _ => rfl
  rw [pump]
  dsimp only
  split
  · rename_i event rest hqueue
    have hless := workLeft_pop hqueue
    rw [hnotified] at hless
    exact hless
  · split
    · exact hdrained
    · rename_i event rest hsome
      have hless := workLeft_pop ((hkept _).trans hsome)
      rw [hnotified] at hless
      exact Nat.lt_of_lt_of_le hless hdrained

/-- A page with a waiter in a queue, and a waiter, a question and a change of the network in its channel. -/
def listening : Target :=
  { Target.new ⟨Handler.plainTarget, "page", none, none⟩ Handler.plainConfig.targetConfig ⟨none⟩ with
    initState := .initialized
    sessionId := some ⟨"session"⟩
    page := some ⟨[.waitForLoad ⟨1⟩, .mainFrame ⟨2⟩, .blockNetwork true], Handler.plainTarget, ⟨"session"⟩, none⟩
    waitForLoad := [⟨0⟩] }

end Target

end SpiderChrome
