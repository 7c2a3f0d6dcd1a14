import SpiderChrome.Target.Drivers

/-!
# How many waiters one poll answers

The loop of `poll` drains the queues of waiters at the start of each of its turns, so the budget of a queue is spent once in a turn and not once in a call. A second turn comes when nothing is queued at first and the messages, the network or the frames queue an event then. `burst_le_iff` says for which targets a call stays within the budget, and `openWaiters_poll` that whoever leaves a queue has been counted.
-/

namespace SpiderChrome

/-- The message makes its target queue an event. -/
def TargetMessage.isCommand : TargetMessage → Bool
  | .command _ => true
  | _ => false

/-- The event is handed on to the handler, or sent to the browser. -/
def NetworkEvent.isPassedOn : NetworkEvent → Bool
  | .sendCdpRequest _ => true
  | .bytesConsumed _ => true
  | _ => false

/-- Nothing is awaited and nothing is left to send. -/
def CommandChain.isDone (chain : CommandChain) : Bool := chain.waiting.isNone && chain.cmds.isEmpty

/-- There is something that a poll of the frame manager reports. -/
def FrameManager.hasReport (fm : FrameManager) (now : Instant) : Bool :=
  match fm.navigation with
  | some (watcher, deadline) =>
    fm.exceedsCap || deadline < now ||
      ((fm.frames.get watcher.frameId).map fun frame => (checkLifecycleComplete watcher frame).isSome).getD true
  | none => !fm.pendingNavigations.isEmpty

namespace Target

/-! ### The turns of the loop -/

/-- The targets that the turns of the loop start with. -/
def loopTurns (t : Target) (budget : List Sender → Nat) (receive : Target → Target)
    (clock : Nat → Instant) (now : Instant) : List Target :=
  let notified := (t.notifyWaiters budget).1
  match notified.queuedEvents with
  | _ :: _ => [t]
  | [] =>
    let drained := ((receive notified).drainNetwork).drainFrames clock now
    match drained.queuedEvents with
    | [] => [t]
    | _ :: _ => [t, drained]

/-- The turns of the loop in one call of `poll`, which has none before the target is initialised. -/
def pollTurns (t : Target) (env : Env) (now : Instant) : List Target :=
  if !t.isPage then []
  else match initTurn env now 6 t with
    | (t, .proceed) =>
      (t.pruneWaiters env.isClosed).loopTurns (fun _ => waiterDrainBudget) receivePageMessages env.clock now
    | _ => []

/-- The senders that a call of `poll` pops from the queues and fires, in order. -/
def firedIn (t : Target) (env : Env) (now : Instant) : List (Waiter × Sender) :=
  (t.pollTurns env now).flatMap fun turn => turn.firedBy fun _ => waiterDrainBudget

/-- How many senders of one queue a call of `poll` fires. -/
def burst (t : Target) (env : Env) (now : Instant) (kind : Waiter) : Nat :=
  (t.firedIn env now).countP fun entry => entry.1 = kind

/-- The senders of a queue whose receiver is still there. -/
def openWaiters (t : Target) (isClosed : Sender → Bool) (kind : Waiter) : List Sender :=
  (t.waiters kind).filter fun tx => !isClosed tx

/-- The target is initialised, or all that it has sent for that has been answered. -/
def comesUp (t : Target) : Bool :=
  match t.initState with
  | .initialized => true
  | .initializingEmulation cmds => cmds.isDone
  | .initializingPage cmds => cmds.isDone && t.config.viewport.isNone
  | _ => false

/-- The loop takes a second turn: nothing is queued yet, and there is a command in the channel, an event of the network that is passed on, or a report of the frames. -/
structure LoopsAgain (t : Target) (now : Instant) : Prop where
  page : t.isPage = true
  comesUp : t.comesUp = true
  quiet : t.queuedEvents = []
  pending : t.waiting.any TargetMessage.isCommand = true ∨
    (t.networkAfter t.waiting).queuedEvents.any NetworkEvent.isPassedOn = true ∨
    t.frameManager.hasReport now = true

variable {t t' : Target}

/-! ### The initialisation -/

/-- The target in its last state. -/
def up (t : Target) : Target := { t with initState := .initialized }

theorem isDone_poll {cmds : CommandChain} (h : cmds.isDone = true) (now : Instant) :
    cmds.poll now = (cmds, .done) := by
  obtain ⟨hwaiting, hcmds⟩ := Bool.and_eq_true_iff.1 h
  rw [Option.isNone_iff_eq_none] at hwaiting
  rw [List.isEmpty_iff] at hcmds
  unfold CommandChain.poll
  rw [hwaiting, hcmds]

theorem initTurn_of_comesUp (h : t.comesUp = true) (env : Env) (now : Instant) :
    initTurn env now 6 t = (t.up.serveInitiator, .proceed) := by
  unfold comesUp at h
  split at h
  · rename_i hstate
    have hsame : t.up = t := by rw [up, ← hstate]
    rw [initTurn, hstate, hsame]
  · rename_i cmds hstate
    simp [initTurn, hstate, isDone_poll h, up]
  · rename_i cmds hstate
    obtain ⟨hdone, hviewport⟩ := Bool.and_eq_true_iff.1 h
    rw [Option.isNone_iff_eq_none] at hviewport
    simp [initTurn, hstate, isDone_poll hdone, hviewport, up]
  · cases h

/-- A chain that starts has something to send, so the last chain is the only one that a turn can follow. -/
theorem comesUp_of_afterChain {cmds : CommandChain} (env : Env)
    (hchain : t.initState.chain? = some cmds) (hwaiting : cmds.waiting = none) (hcmds : cmds.cmds = [])
    (h : (t.afterChain env).comesUp = true) : t.comesUp = true := by
  have hdone : cmds.isDone = true := by rw [CommandChain.isDone, hwaiting, hcmds]; rfl
  unfold afterChain at h
  cases hstate : t.initState with
  | initializingFrame _ =>
    simp only [hstate] at h
    unfold afterFrameChain at h
    split at h
    · split at h
      · cases h
      · cases h
    · cases h
  | initializingNetwork _ =>
    simp only [hstate] at h
    cases h
  | initializingPage _ =>
    rw [hstate] at hchain
    cases hchain
    cases hviewport : t.config.viewport with
    | none => simp [comesUp, hstate, hdone, hviewport]
    | some viewport =>
      simp only [hstate, hviewport] at h
      cases h
  | initializingEmulation _ =>
    rw [hstate] at hchain
    cases hchain
    simp [comesUp, hstate, hdone]
  | attachToTarget | initialized | closing =>
    rw [hstate] at hchain
    cases hchain

theorem InitTurns.comesUp {env : Env} {now : Instant} {turn : InitTurn}
    (h : InitTurns env now t t' turn) (hturn : turn = .proceed) : t.comesUp = true := by
  induction h with
  | attach | unattached | pending | expired | command | closing => cases hturn
  | passes hchain hsession hwaiting hcmds hrest ih =>
    exact comesUp_of_afterChain env hchain hwaiting hcmds (ih hturn)
  | ready hstate => simp [Target.comesUp, hstate]

/-- The target when the loop of a poll starts. -/
def readied (t : Target) (isClosed : Sender → Bool) : Target := t.up.opened isClosed

theorem pollTurns_eq (t : Target) (env : Env) (now : Instant) :
    t.pollTurns env now = if t.isPage && t.comesUp then
      (t.readied env.isClosed).loopTurns (fun _ => waiterDrainBudget) receivePageMessages env.clock now
    else [] := by
  unfold pollTurns
  cases hpage : t.isPage with
  | false => rfl
  | true =>
    cases hup : t.comesUp with
    | true => rw [initTurn_of_comesUp hup]; rfl
    | false =>
      have hturns := turns env now t
      rcases hturn : t.initTurn env now 6 with ⟨t', _ | _ | _⟩
      · rfl
      · rfl
      · rw [hturn] at hturns
        rw [hturns.comesUp rfl] at hup
        cases hup

/-! ### One turn -/

theorem countP_map_mk (kind other : Waiter) (queue : List Sender) :
    ((queue.map (Prod.mk other)).countP fun entry => entry.1 = kind) =
      if kind = other then queue.length else 0 := by
  rw [List.countP_map]
  split
  · rename_i hsame
    exact List.countP_eq_length.2 fun tx _ => decide_eq_true hsame.symm
  · rename_i hne
    exact List.countP_eq_zero.2 fun tx _ => by simpa using fun heq : other = kind => hne heq.symm

/-- A turn fires as many senders of a queue as the budget and the queue allow, if the main frame has come far enough. -/
theorem countP_firedBy (t : Target) (budget : Nat) (kind : Waiter) :
    ((t.firedBy fun _ => budget).countP fun entry => entry.1 = kind) =
      if t.eligible kind then min budget (t.waiters kind).length else 0 := by
  have hone : ∀ other, ((if t.eligible other then
      ((t.waiters other).reverse.take budget).map (Prod.mk other) else []).countP
        fun entry => entry.1 = kind) =
      if kind = other ∧ t.eligible kind then min budget (t.waiters kind).length else 0 := by
    intro other
    rw [apply_ite (List.countP _), countP_map_mk]
    by_cases hsame : kind = other
    · subst hsame
      simp
    · simp [hsame]
  simp only [firedBy, List.flatMap_cons, List.flatMap_nil, List.countP_append, hone, List.countP_nil]
  cases kind <;> simp

/-- What the loop drains in between queues nobody whom the main frame has come far enough for. -/
theorem waiters_drained {kind : Waiter} (heligible : t.eligible kind = true) (clock : Nat → Instant)
    (now : Instant) :
    (t.receivePageMessages.drainNetwork.drainFrames clock now).waiters kind = t.waiters kind := by
  rw [drainFrames, (sameWaiters_drainFramesTo clock now _ _).waiters, (sameWaiters_drainNetwork _).waiters,
    waiters_receivePageMessages heligible]

theorem eligible_drained (t : Target) (clock : Nat → Instant) (now : Instant) :
    (t.receivePageMessages.drainNetwork.drainFrames clock now).eligible = t.eligible := by
  obtain ⟨_, hmoves⟩ := t.moves_receivePageMessages fun _ => false
  rw [drainFrames, (sameWaiters_drainFramesTo clock now _ _).eligible, (sameWaiters_drainNetwork _).eligible,
    hmoves.stays]

/-- What the loop takes its second turn with. -/
def nextTurn (t : Target) (clock : Nat → Instant) (now : Instant) : Target :=
  (t.notifyWaiters fun _ => waiterDrainBudget).1.receivePageMessages.drainNetwork.drainFrames clock now

theorem eligible_nextTurn (t : Target) (clock : Nat → Instant) (now : Instant) :
    (t.nextTurn clock now).eligible = t.eligible := by
  have hnotified := (t.moves_notifyWaiters (fun _ => false) fun _ => waiterDrainBudget).stays
  rw [nextTurn, eligible_drained, hnotified]

theorem length_nextTurn {kind : Waiter} (heligible : t.eligible kind = true) (clock : Nat → Instant)
    (now : Instant) :
    ((t.nextTurn clock now).waiters kind).length = (t.waiters kind).length - waiterDrainBudget := by
  have hnotified := (t.moves_notifyWaiters (fun _ => false) fun _ => waiterDrainBudget).stays
  rw [nextTurn, waiters_drained (hnotified ▸ heligible), waiters_notifyWaiters, if_pos heligible,
    List.length_take]
  omega

theorem loopTurns_eq (t : Target) (clock : Nat → Instant) (now : Instant) :
    t.loopTurns (fun _ => waiterDrainBudget) receivePageMessages clock now =
      if t.queuedEvents = [] ∧ (t.nextTurn clock now).queuedEvents ≠ [] then [t, t.nextTurn clock now]
      else [t] := by
  have hqueue : (t.notifyWaiters fun _ => waiterDrainBudget).1.queuedEvents = t.queuedEvents :=
    of_core queuedEvents (core_notifyWaiters t _) fun _ => rfl
  unfold loopTurns
  dsimp only
  rw [hqueue]
  split
  · rename_i hevents
    simp [hevents]
  · rename_i hevents
    split
    · rename_i hnothing
      have hnone : (t.nextTurn clock now).queuedEvents = [] := hnothing
      simp [hnone]
    · rename_i hsome
      have hnext : (t.nextTurn clock now).queuedEvents ≠ [] := by
        rw [nextTurn, hsome]
        exact List.cons_ne_nil _ _
      rw [if_pos ⟨hevents, hnext⟩]
      rfl

/-- What the turns of a loop fire of one queue. -/
theorem countP_loopTurns (t : Target) (clock : Nat → Instant) (now : Instant) (kind : Waiter) :
    (((t.loopTurns (fun _ => waiterDrainBudget) receivePageMessages clock now).flatMap fun turn =>
        turn.firedBy fun _ => waiterDrainBudget).countP fun entry => entry.1 = kind) =
      if t.eligible kind then
        if t.queuedEvents = [] ∧ (t.nextTurn clock now).queuedEvents ≠ [] then
          min (2 * waiterDrainBudget) (t.waiters kind).length
        else min waiterDrainBudget (t.waiters kind).length
      else 0 := by
  rw [loopTurns_eq]
  split
  · rename_i hagain
    simp only [List.flatMap_cons, List.flatMap_nil, List.append_nil, List.countP_append, countP_firedBy,
      eligible_nextTurn]
    split
    · rename_i heligible
      rw [length_nextTurn heligible]
      omega
    · rfl
  · rename_i hagain
    simp only [List.flatMap_cons, List.flatMap_nil, List.append_nil, countP_firedBy]

/-! ### When there is a second turn -/

/-- A fold whose steps queue an event or do not, depending on the input alone. -/
theorem queuedEvents_foldl_eq_nil {Input : Type} {f : Target → Input → Target} {queues : Input → Bool}
    (hf : ∀ t input, (f t input).queuedEvents = [] ↔ t.queuedEvents = [] ∧ queues input = false)
    (inputs : List Input) (t : Target) :
    (inputs.foldl f t).queuedEvents = [] ↔ t.queuedEvents = [] ∧ inputs.any queues = false := by
  induction inputs generalizing t with
  | nil => simp
  | cons input rest ih => rw [List.foldl_cons, ih, hf, List.any_cons, Bool.or_eq_false_iff, and_assoc]

theorem queuedEvents_handlePageMessage_eq_nil (t : Target) (msg : TargetMessage) :
    (t.handlePageMessage msg).queuedEvents = [] ↔ t.queuedEvents = [] ∧ msg.isCommand = false := by
  cases msg with
  | command cmd => simp [handlePageMessage, pushEvent, TargetMessage.isCommand]
  | waitForNavigation _ | waitForDomContentLoaded _ | waitForLoad _ | waitForNetworkIdle _
  | waitForNetworkAlmostIdle _ | addEventListener _ =>
    simp only [handlePageMessage, apply_ite queuedEvents, send, ite_self, TargetMessage.isCommand, and_true]
  | _ => simp only [handlePageMessage, send, TargetMessage.isCommand, and_true]

theorem queuedEvents_receivePageMessages_eq_nil (t : Target) :
    t.receivePageMessages.queuedEvents = [] ↔
      t.queuedEvents = [] ∧ t.waiting.any TargetMessage.isCommand = false := by
  rw [receivePageMessages_eq, queuedEvents_foldl_eq_nil queuedEvents_handlePageMessage_eq_nil]
  rfl

theorem queuedEvents_handleNetworkEvent_eq_nil (t : Target) (event : NetworkEvent) :
    (t.handleNetworkEvent event).queuedEvents = [] ↔ t.queuedEvents = [] ∧ event.isPassedOn = false := by
  cases event with
  | sendCdpRequest _ | bytesConsumed _ => simp [handleNetworkEvent, pushEvent, NetworkEvent.isPassedOn]
  | _ => simp only [handleNetworkEvent, NetworkEvent.isPassedOn, and_true]

theorem queuedEvents_drainNetwork_eq_nil (t : Target) :
    t.drainNetwork.queuedEvents = [] ↔
      t.queuedEvents = [] ∧ t.networkManager.queuedEvents.any NetworkEvent.isPassedOn = false :=
  queuedEvents_foldl_eq_nil queuedEvents_handleNetworkEvent_eq_nil t.networkManager.queuedEvents
    { t with networkManager := { t.networkManager with queuedEvents := [] } }

theorem isSome_poll (fm : FrameManager) (now clock : Instant) :
    (fm.poll now clock).2.isSome = fm.hasReport now := by
  unfold FrameManager.hasReport FrameManager.poll
  cases fm.navigation with
  | none =>
    cases fm.pendingNavigations with
    | nil => rfl
    | cons _ _ => rfl
  | some navigation =>
    obtain ⟨watcher, deadline⟩ := navigation
    dsimp only
    by_cases hcap : fm.exceedsCap = true
    · simp [hcap]
    · by_cases hlate : deadline < now
      · simp [hcap, hlate]
      · cases fm.frames.get watcher.frameId with
        | none => simp [hcap, hlate]
        | some frame =>
          cases hcomplete : FrameManager.checkLifecycleComplete watcher frame with
          | none => simp [hcap, hlate, hcomplete]
          | some nav => simp [hcap, hlate, hcomplete]

/-- Whether a navigation is over does not depend on the request of a frame. -/
theorem hasReport_onHttpRequestFinished (fm : FrameManager) (request : HttpRequest) (now : Instant) :
    (fm.onHttpRequestFinished request).hasReport now = fm.hasReport now := by
  unfold FrameManager.onHttpRequestFinished
  split
  · rename_i id _
    have hcomplete : ∀ watcher, ((fm.frames.update id fun frame => frame.setRequest request).get
        watcher.frameId).map (fun frame => (FrameManager.checkLifecycleComplete watcher frame).isSome) =
        (fm.frames.get watcher.frameId).map
          fun frame => (FrameManager.checkLifecycleComplete watcher frame).isSome := by
      intro watcher
      rw [Table.get_update]
      split
      · rw [Option.map_map]
        rfl
      · rfl
    simp only [FrameManager.hasReport, FrameManager.exceedsCap, hcomplete]
  · rfl

theorem hasReport_drainNetwork (t : Target) (now : Instant) :
    t.drainNetwork.frameManager.hasReport now = t.frameManager.hasReport now := by
  have hevent : ∀ (t : Target) event,
      (t.handleNetworkEvent event).frameManager.hasReport now = t.frameManager.hasReport now := by
    intro t event
    cases event with
    | requestFailed request | requestFinished request =>
      exact hasReport_onHttpRequestFinished t.frameManager request now
    | _ => rfl
  exact @Run.foldl_unchanged _ _ _ _ (fun t : Target => t.frameManager.hasReport now) hevent _ _

theorem queuedEvents_drainFramesTo_ne_nil (clock : Nat → Instant) (now : Instant) (turns : Nat)
    (h : t.queuedEvents ≠ []) : (t.drainFramesTo clock now turns).queuedEvents ≠ [] := by
  induction turns generalizing t with
  | zero => exact h
  | succ turns ih =>
    unfold drainFramesTo
    split
    · refine ih ?_
      simp [pushEvent]
    · exact h

/-- The loop over the frame manager has a turn if there is something to report. -/
theorem queuedEvents_drainFrames_eq_nil (t : Target) (clock : Nat → Instant) (now : Instant) :
    (t.drainFrames clock now).queuedEvents = [] ↔
      t.queuedEvents = [] ∧ t.frameManager.hasReport now = false := by
  unfold drainFrames
  cases hturns : frameTurns t.frameManager with
  | zero =>
    have hreport : t.frameManager.hasReport now = false := by
      by_contra hsome
      rw [Bool.not_eq_false] at hsome
      have hless := frameTurns_poll t.frameManager now now ((isSome_poll _ _ _).trans hsome)
      omega
    simp [drainFramesTo, hreport]
  | succ turns =>
    have hsome := isSome_poll t.frameManager now (clock turns)
    rw [← hsome]
    unfold drainFramesTo
    split
    · rename_i fm event heq
      rw [heq]
      refine iff_of_false (queuedEvents_drainFramesTo_ne_nil clock now turns ?_) (by simp)
      simp [pushEvent]
    · rename_i fm heq
      rw [heq]
      simp

theorem queuedEvents_nextTurn_eq_nil (t : Target) (clock : Nat → Instant) (now : Instant) :
    (t.nextTurn clock now).queuedEvents = [] ↔
      t.queuedEvents = [] ∧ t.waiting.any TargetMessage.isCommand = false ∧
      (t.networkAfter t.waiting).queuedEvents.any NetworkEvent.isPassedOn = false ∧
      t.frameManager.hasReport now = false := by
  have hcore := core_notifyWaiters t fun _ => waiterDrainBudget
  have hwaiting : (t.notifyWaiters fun _ => waiterDrainBudget).1.waiting = t.waiting :=
    of_core waiting hcore fun _ => rfl
  have hqueue : (t.notifyWaiters fun _ => waiterDrainBudget).1.queuedEvents = t.queuedEvents :=
    of_core queuedEvents hcore fun _ => rfl
  have hnetwork : (t.notifyWaiters fun _ => waiterDrainBudget).1.receivePageMessages.networkManager =
      t.networkAfter t.waiting := by
    have hsame : (t.notifyWaiters fun _ => waiterDrainBudget).1.drained.networkManager = t.networkManager :=
      of_core (fun t => t.drained.networkManager) hcore fun _ => rfl
    rw [receivePageMessages_eq, hwaiting]
    exact networkAfter_congr hsame t.waiting
  have hframes : (t.notifyWaiters fun _ => waiterDrainBudget).1.receivePageMessages.frameManager =
      t.frameManager := by
    have hsame : (t.notifyWaiters fun _ => waiterDrainBudget).1.drained.frameManager = t.frameManager :=
      of_core (fun t => t.drained.frameManager) hcore fun _ => rfl
    rw [receivePageMessages_eq, Run.foldl_unchanged frameManager_handlePageMessage, hsame]
  rw [nextTurn, queuedEvents_drainFrames_eq_nil, queuedEvents_drainNetwork_eq_nil,
    queuedEvents_receivePageMessages_eq_nil, hasReport_drainNetwork, hnetwork, hframes, hqueue, hwaiting,
    and_assoc, and_assoc]

/-! ### What the turns leave -/

/-- Somebody whom a turn fires is sent the request of the main frame. -/
def sentBy (turn : Target) : List (Sender × Reply) :=
  (turn.firedBy fun _ => waiterDrainBudget).map fun entry => (entry.2, turn.mainRequest)

theorem replies_nextTurn (t : Target) (clock : Nat → Instant) (now : Instant) :
    (t.nextTurn clock now).replies = t.replies ++ t.sentBy ++ t.answersTo t.waiting := by
  have hcore := core_notifyWaiters t fun _ => waiterDrainBudget
  have hwaiting : (t.notifyWaiters fun _ => waiterDrainBudget).1.waiting = t.waiting :=
    of_core waiting hcore fun _ => rfl
  have hframes : (t.notifyWaiters fun _ => waiterDrainBudget).1.drained.frameManager = t.frameManager :=
    of_core (fun t => t.drained.frameManager) hcore fun _ => rfl
  rw [nextTurn, drainFrames, replies_drainFramesTo, replies_drainNetwork, receivePageMessages_eq, hwaiting,
    replies_handlePageMessages, answersTo_congr hframes]
  exact congrArg (· ++ t.answersTo t.waiting) (t.replies_notifyWaiters fun _ => waiterDrainBudget)

/-- What the pump leaves: the turns that it has taken have popped the queues, and the event that it yields has been taken. -/
theorem target_pump (t : Target) (clock : Nat → Instant) (now : Instant) :
    ∃ rest, (t.pump (fun _ => waiterDrainBudget) receivePageMessages clock now).target =
      { (if t.queuedEvents = [] then
          if (t.nextTurn clock now).queuedEvents = [] then t.nextTurn clock now
          else ((t.nextTurn clock now).notifyWaiters fun _ => waiterDrainBudget).1
        else (t.notifyWaiters fun _ => waiterDrainBudget).1) with queuedEvents := rest } := by
  have hqueue : (t.notifyWaiters fun _ => waiterDrainBudget).1.queuedEvents = t.queuedEvents :=
    of_core queuedEvents (core_notifyWaiters t _) fun _ => rfl
  unfold pump
  dsimp only
  rw [hqueue]
  split
  · rename_i event rest hevents
    refine ⟨rest, ?_⟩
    rw [if_neg (by simp [hevents])]
  · rename_i hevents
    rw [if_pos hevents]
    split
    · rename_i hnothing
      have hnone : (t.nextTurn clock now).queuedEvents = [] := hnothing
      refine ⟨[], ?_⟩
      rw [if_pos hnone, ← hnone]
      rfl
    · rename_i event rest hsome
      have hnext : (t.nextTurn clock now).queuedEvents ≠ [] := by
        rw [nextTurn, hsome]
        exact List.cons_ne_nil _ _
      refine ⟨rest, ?_⟩
      rw [if_neg hnext]
      rfl

/-- The replies of a pump are the answers to the messages that it has read, and what its turns have sent. -/
theorem replies_pump (t : Target) (clock : Nat → Instant) (now : Instant) :
    ((t.pump (fun _ => waiterDrainBudget) receivePageMessages clock now).target.replies).Perm
      (t.replies ++ (if t.queuedEvents = [] then t.answersTo t.waiting else []) ++
        (t.loopTurns (fun _ => waiterDrainBudget) receivePageMessages clock now).flatMap sentBy) := by
  have hfirst := t.replies_notifyWaiters fun _ => waiterDrainBudget
  have hnext := t.replies_nextTurn clock now
  have hthen := (t.nextTurn clock now).replies_notifyWaiters fun _ => waiterDrainBudget
  obtain ⟨rest, htarget⟩ := t.target_pump clock now
  rw [htarget, loopTurns_eq]
  dsimp only
  by_cases hqueue : t.queuedEvents = []
  · by_cases hnothing : (t.nextTurn clock now).queuedEvents = []
    · simp only [hqueue, hnothing, hnext, if_true, ne_eq, not_true, and_false, if_false,
        List.flatMap_cons, List.flatMap_nil, List.append_nil, List.append_assoc]
      exact List.Perm.append_left _ List.perm_append_comm
    · simp only [hqueue, hnothing, hthen, hnext, if_true, ne_eq, not_false_eq_true, and_self, if_false,
        List.flatMap_cons, List.flatMap_nil, List.append_nil, List.append_assoc]
      refine List.Perm.append_left _ ?_
      rw [← List.append_assoc, ← List.append_assoc]
      exact List.perm_append_comm.append_right _
  · simp only [hqueue, hfirst, if_false, false_and, List.flatMap_cons, List.flatMap_nil, List.append_nil]
    exact List.Perm.refl _

/-- Whoever is no longer in a queue has been fired from it. -/
theorem length_waiters_pump {kind : Waiter} (heligible : t.eligible kind = true) (clock : Nat → Instant)
    (now : Instant) :
    ((t.pump (fun _ => waiterDrainBudget) receivePageMessages clock now).target.waiters kind).length +
      ((t.loopTurns (fun _ => waiterDrainBudget) receivePageMessages clock now).flatMap fun turn =>
        turn.firedBy fun _ => waiterDrainBudget).countP (fun entry => entry.1 = kind) =
      (t.waiters kind).length := by
  have hnext := length_nextTurn heligible clock now
  have hpopped : ∀ (t : Target) rest, { t with queuedEvents := rest }.waiters kind = t.waiters kind := by
    intro t rest
    cases kind <;> rfl
  have heligible' : (t.nextTurn clock now).eligible kind = true := t.eligible_nextTurn clock now ▸ heligible
  obtain ⟨rest, htarget⟩ := t.target_pump clock now
  rw [htarget, hpopped, countP_loopTurns, if_pos heligible]
  by_cases hqueue : t.queuedEvents = []
  · by_cases hnothing : (t.nextTurn clock now).queuedEvents = []
    · rw [if_pos hqueue, if_pos hnothing, if_neg (fun h => h.2 hnothing), hnext]
      omega
    · rw [if_pos hqueue, if_neg hnothing, if_pos ⟨hqueue, hnothing⟩, waiters_notifyWaiters,
        if_pos heligible', List.length_take, hnext]
      omega
  · rw [if_neg hqueue, if_neg (fun h => hqueue h.1), waiters_notifyWaiters, if_pos heligible,
      List.length_take]
    omega

/-! ### One call -/

theorem waiters_readied (t : Target) (isClosed : Sender → Bool) (kind : Waiter) :
    (t.readied isClosed).waiters kind = t.openWaiters isClosed kind := by
  rw [readied, waiters_opened]
  cases kind <;> rfl

theorem eligible_readied (t : Target) (isClosed : Sender → Bool) :
    (t.readied isClosed).eligible = t.eligible := by
  rw [readied, eligible_opened]
  rfl

theorem queuedEvents_readied (t : Target) (isClosed : Sender → Bool) :
    (t.readied isClosed).queuedEvents = t.queuedEvents :=
  t.up.queuedEvents_serveInitiator

theorem waiting_readied (t : Target) (isClosed : Sender → Bool) :
    (t.readied isClosed).waiting = t.waiting :=
  (steady_waiting t.waiting).serveInitiator rfl

theorem networkManager_readied (t : Target) (isClosed : Sender → Bool) :
    (t.readied isClosed).networkManager = t.networkManager :=
  t.up.networkManager_serveInitiator

theorem frameManager_readied (t : Target) (isClosed : Sender → Bool) :
    (t.readied isClosed).frameManager = t.frameManager :=
  t.up.frameManager_serveInitiator

/-- Such a target takes a second turn in its poll, and no other does. -/
theorem loopsAgain_iff (hpage : t.isPage = true) (hup : t.comesUp = true) (isClosed : Sender → Bool)
    (clock : Nat → Instant) (now : Instant) :
    t.LoopsAgain now ↔ (t.readied isClosed).queuedEvents = [] ∧
      ((t.readied isClosed).nextTurn clock now).queuedEvents ≠ [] := by
  have hnetwork := networkAfter_congr (t.networkManager_readied isClosed) t.waiting
  rw [ne_eq, queuedEvents_nextTurn_eq_nil, waiting_readied, hnetwork, frameManager_readied,
    queuedEvents_readied]
  constructor
  · intro h
    refine ⟨h.quiet, fun hnothing => ?_⟩
    have hpending := h.pending
    simp [hnothing.2.1, hnothing.2.2.1, hnothing.2.2.2] at hpending
  · rintro ⟨hquiet, hsome⟩
    refine ⟨hpage, hup, hquiet, ?_⟩
    simp only [← Bool.not_eq_true] at hsome
    tauto

theorem burst_of_loopsAgain {now : Instant} (h : t.LoopsAgain now) (env : Env) (kind : Waiter) :
    t.burst env now kind = if t.eligible kind then
      min (2 * waiterDrainBudget) (t.openWaiters env.isClosed kind).length else 0 := by
  have hagain := (loopsAgain_iff h.page h.comesUp env.isClosed env.clock now).1 h
  rw [burst, firedIn, pollTurns_eq, h.page, h.comesUp, Bool.and_self, if_pos rfl, countP_loopTurns,
    if_pos hagain, eligible_readied, waiters_readied]

theorem burst_of_not_loopsAgain {now : Instant} (h : ¬ t.LoopsAgain now) (env : Env) (kind : Waiter) :
    t.burst env now kind ≤ waiterDrainBudget := by
  rw [burst, firedIn, pollTurns_eq]
  split
  · rename_i hstarts
    obtain ⟨hpage, hup⟩ := Bool.and_eq_true_iff.1 hstarts
    rw [loopsAgain_iff hpage hup env.isClosed env.clock now] at h
    rw [countP_loopTurns, if_neg h]
    split
    · exact Nat.min_le_left _ _
    · exact Nat.zero_le _
  · exact Nat.zero_le _

/-- The loop ends with its second turn, so a call never fires more than twice the budget. -/
theorem burst_le_double (t : Target) (env : Env) (now : Instant) (kind : Waiter) :
    t.burst env now kind ≤ 2 * waiterDrainBudget := by
  by_cases h : t.LoopsAgain now
  · rw [burst_of_loopsAgain h]
    split
    · exact Nat.min_le_left _ _
    · exact Nat.zero_le _
  · have hle := burst_of_not_loopsAgain h env kind
    omega

/-- A poll that comes to its loop pops the queues and prunes them, and does nothing else to them. -/
theorem openWaiters_poll (hpage : t.isPage = true) (hup : t.comesUp = true) (env : Env) (now : Instant)
    {kind : Waiter} (heligible : t.eligible kind = true) :
    ((t.poll env now).target.waiters kind).length + t.burst env now kind =
      (t.openWaiters env.isClosed kind).length := by
  have hpolled : t.poll env now =
      (t.readied env.isClosed).pump (fun _ => waiterDrainBudget) receivePageMessages env.clock now := by
    rw [poll, pollWith, hpage, initTurn_of_comesUp hup]
    rfl
  rw [hpolled, burst, firedIn, pollTurns_eq, hpage, hup, Bool.and_self, if_pos rfl, ← waiters_readied]
  exact length_waiters_pump (t.eligible_readied env.isClosed ▸ heligible) env.clock now

/-- A poll that comes to its loop sends the page, the answers to the messages that it reads, and what its turns fire. -/
theorem replies_poll (hpage : t.isPage = true) (hup : t.comesUp = true) (env : Env) (now : Instant) :
    ((t.poll env now).target.replies).Perm (t.up.serveInitiator.replies ++
      (if t.queuedEvents = [] then t.answersTo t.waiting else []) ++
      (t.pollTurns env now).flatMap sentBy) := by
  have hpolled : t.poll env now =
      (t.readied env.isClosed).pump (fun _ => waiterDrainBudget) receivePageMessages env.clock now := by
    rw [poll, pollWith, hpage, initTurn_of_comesUp hup]
    rfl
  have hanswers := answersTo_congr (t.frameManager_readied env.isClosed) t.waiting
  have hreplies := (t.readied env.isClosed).replies_pump env.clock now
  rw [waiting_readied, queuedEvents_readied, hanswers] at hreplies
  rw [hpolled, pollTurns_eq, hpage, hup, Bool.and_self, if_pos rfl]
  exact hreplies

/-- A call fires no more of a queue than the budget exactly if it takes no second turn, or the main frame has not come as far as the queue waits for, or the queue is no longer than that. -/
theorem burst_le_iff (t : Target) (env : Env) (now : Instant) (kind : Waiter) :
    t.burst env now kind ≤ waiterDrainBudget ↔
      (t.LoopsAgain now → t.eligible kind = true →
        (t.openWaiters env.isClosed kind).length ≤ waiterDrainBudget) := by
  by_cases h : t.LoopsAgain now
  · rw [burst_of_loopsAgain h]
    split
    · rename_i heligible
      have hlarger : waiterDrainBudget < 2 * waiterDrainBudget := by decide
      simp only [h, heligible, forall_const]
      omega
    · rename_i hnot
      exact iff_of_true (Nat.zero_le _) fun _ heligible => absurd heligible hnot
  · exact iff_of_true (burst_of_not_loopsAgain h env kind) fun hagain => absurd hagain h

/-- A page that a hundred callers wait for, that is loaded then, and that is sent a command. -/
def crowded : Target :=
  let asked := (List.range 100).foldl (fun t n => t.receive (.waitForLoad ⟨n⟩))
    { listening.drained with waitForLoad := [] }
  let waiting := (asked.poll Handler.plainEnv 0).target
  let navigated := waiting.onEvent Handler.plainEnv
    ⟨.pageFrameNavigated ⟨⟨"main"⟩, none, none, "about:blank", none⟩, some "session"⟩
  let loaded := navigated.onEvent Handler.plainEnv
    ⟨.pageLifecycleEvent ⟨⟨"main"⟩, ⟨"document"⟩, "load"⟩, some "session"⟩
  loaded.receive (.command ⟨"Page.reload", some ⟨"session"⟩, .object [], ⟨100⟩⟩)

/-- One call fires all hundred of them. -/
theorem burst_exceeds :
    crowded.burst Handler.plainEnv 0 .load = 100 ∧
    ¬ crowded.burst Handler.plainEnv 0 .load ≤ waiterDrainBudget := by
  have hqueue : crowded.queuedEvents.isEmpty = true := by decide +kernel
  have hagain : crowded.LoopsAgain 0 := {
    page := by decide +kernel
    comesUp := by decide +kernel
    quiet := List.isEmpty_iff.1 hqueue
    pending := .inl (by decide +kernel) }
  have heligible : crowded.eligible .load = true := by decide +kernel
  have hlength : (crowded.openWaiters Handler.plainEnv.isClosed .load).length = 100 := by decide +kernel
  rw [burst_of_loopsAgain hagain, if_pos heligible, hlength]
  exact ⟨by decide, by decide⟩

end Target

end SpiderChrome
