import SpiderChrome.Target.Turns
import Mathlib.Data.List.Perm.Basic

/-!
# Waiters

A page that waits for its main frame leaves the sender of a oneshot channel with the target, in one of five queues after the event it waits for. A message of this kind is answered at once if the frame has come that far. Otherwise the sender is queued, and the polls of the target fire the queues as the frame comes along and drop the senders whose receiver is gone. `waiters_law` gives an account of every sender that a target ever got, whatever drives the target.
-/

namespace SpiderChrome

inductive Waiter where
  | navigation | domContentLoaded | load | networkIdle | networkAlmostIdle
deriving DecidableEq

namespace Waiter

def all : List Waiter := [navigation, domContentLoaded, load, networkIdle, networkAlmostIdle]

/-- The event that the main frame must have reached. -/
def reached : Waiter → Frame → Bool
  | navigation => Frame.isDomContentLoaded
  | domContentLoaded => Frame.isDomContentLoaded
  | load => Frame.isLoaded
  | networkIdle => Frame.isNetworkIdle
  | networkAlmostIdle => Frame.isNetworkAlmostIdle

/-- To have reached an event is to have it among those of the lifecycle. -/
def event : Waiter → MethodId
  | navigation => "DOMContentLoaded"
  | domContentLoaded => "DOMContentLoaded"
  | load => "load"
  | networkIdle => "networkIdle"
  | networkAlmostIdle => "networkAlmostIdle"

theorem reached_iff (kind : Waiter) (frame : Frame) :
    kind.reached frame = true ↔ kind.event ∈ frame.lifecycleEvents := by
  cases kind <;> exact decide_eq_true_iff

end Waiter

/-- The sender that a message leaves with the target, and what it waits for. -/
def TargetMessage.waiter? : TargetMessage → Option (Waiter × Sender)
  | waitForNavigation tx => some (.navigation, tx)
  | waitForDomContentLoaded tx => some (.domContentLoaded, tx)
  | waitForLoad tx => some (.load, tx)
  | waitForNetworkIdle tx => some (.networkIdle, tx)
  | waitForNetworkAlmostIdle tx => some (.networkAlmostIdle, tx)
  | _ => none

namespace Target

/-! ### The queues -/

def waiters (t : Target) : Waiter → List Sender
  | .navigation => t.waitForFrameNavigation
  | .domContentLoaded => t.waitForDomContentLoaded
  | .load => t.waitForLoad
  | .networkIdle => t.waitForNetworkIdle
  | .networkAlmostIdle => t.waitForNetworkAlmostIdle

/-- The senders in the queues. -/
def queuedWaiters (t : Target) : List (Waiter × Sender) :=
  Waiter.all.flatMap fun kind => (t.waiters kind).map (Prod.mk kind)

/-- The senders that were sent the request of the main frame, in order. -/
def answered (t : Target) : List Sender :=
  t.replies.filterMap fun
    | (tx, .httpRequest _) => some tx
    | _ => none

/-- The main frame has come as far as the waiters of a kind want. -/
def eligible (t : Target) (kind : Waiter) : Bool := t.mainFrameIs kind.reached

/-- The target with a sender at the end of a queue. -/
def enqueue (t : Target) (tx : Sender) : Waiter → Target
  | .navigation => { t with waitForFrameNavigation := t.waitForFrameNavigation ++ [tx] }
  | .domContentLoaded => { t with waitForDomContentLoaded := t.waitForDomContentLoaded ++ [tx] }
  | .load => { t with waitForLoad := t.waitForLoad ++ [tx] }
  | .networkIdle => { t with waitForNetworkIdle := t.waitForNetworkIdle ++ [tx] }
  | .networkAlmostIdle => { t with waitForNetworkAlmostIdle := t.waitForNetworkAlmostIdle ++ [tx] }

variable {t t' t'' : Target} {isClosed : Sender → Bool}

theorem eligible_iff (t : Target) (kind : Waiter) : t.eligible kind = true ↔
    ∃ frame, t.frameManager.mainFrame? = some frame ∧ kind.event ∈ frame.lifecycleEvents := by
  unfold eligible mainFrameIs
  cases t.frameManager.mainFrame? with
  | none => simp
  | some frame => simp [kind.reached_iff frame]

theorem waiters_enqueue (t : Target) (tx : Sender) (kind other : Waiter) :
    (t.enqueue tx kind).waiters other =
      if other = kind then t.waiters other ++ [tx] else t.waiters other := by
  cases kind <;> cases other <;> rfl

theorem count_map_mk (kind other : Waiter) (tx : Sender) (queue : List Sender) :
    (queue.map (Prod.mk other)).count (kind, tx) = if kind = other then queue.count tx else 0 := by
  split
  · rename_i hsame
    subst hsame
    exact List.count_map_of_injective queue _ (fun _ _ h => (Prod.mk.inj h).2) tx
  · rename_i hother
    rw [List.count_eq_zero]
    intro hmem
    obtain ⟨_, _, heq⟩ := List.mem_map.1 hmem
    exact hother (Prod.mk.inj heq).1.symm

/-- A sender stands among the queued ones as often as it stands in its queue. -/
theorem count_queuedWaiters (t : Target) (kind : Waiter) (tx : Sender) :
    t.queuedWaiters.count (kind, tx) = (t.waiters kind).count tx := by
  cases kind <;> simp [queuedWaiters, Waiter.all, count_map_mk]

/-- A message that waits is answered or queued. -/
theorem handlePageMessage_waiter {msg : TargetMessage} {kind : Waiter} {tx : Sender}
    (hmsg : msg.waiter? = some (kind, tx)) :
    t.handlePageMessage msg =
      if t.eligible kind then t.send tx t.mainRequest else t.enqueue tx kind := by
  cases msg with
  | waitForNavigation _ | waitForDomContentLoaded _ | waitForLoad _ | waitForNetworkIdle _
  | waitForNetworkAlmostIdle _ =>
    cases hmsg
    rfl
  | _ => cases hmsg

/-! ### What leaves the waiters alone -/

/-- Nothing has become of the waiters, and nothing they look at has changed. -/
structure SameWaiters (t t' : Target) : Prop where
  waiters : t'.waiters = t.waiters
  answered : t'.answered = t.answered
  eligible : t'.eligible = t.eligible

theorem SameWaiters.refl (t : Target) : SameWaiters t t := ⟨rfl, rfl, rfl⟩

theorem SameWaiters.trans (h : SameWaiters t t') (h' : SameWaiters t' t'') : SameWaiters t t'' :=
  ⟨h'.waiters.trans h.waiters, h'.answered.trans h.answered, h'.eligible.trans h.eligible⟩

theorem eligible_of_mainFrame? (h : t'.frameManager.mainFrame? = t.frameManager.mainFrame?) :
    t'.eligible = t.eligible := by
  funext kind
  rw [eligible, eligible, mainFrameIs, mainFrameIs, h]

/-- The queues, the replies and the main frame are as they were. -/
theorem SameWaiters.of_eq (hwaiters : t'.waiters = t.waiters) (hreplies : t'.replies = t.replies)
    (hframe : t'.frameManager.mainFrame? = t.frameManager.mainFrame?) : SameWaiters t t' where
  waiters := hwaiters
  answered := by rw [Target.answered, Target.answered, hreplies]
  eligible := eligible_of_mainFrame? hframe

/-- The same, with another reply that is not the request of the main frame. -/
theorem SameWaiters.of_reply {tx : Sender} {reply : Reply} (hreply : ∀ request, reply ≠ .httpRequest request)
    (hwaiters : t'.waiters = t.waiters) (hreplies : t'.replies = t.replies ++ [(tx, reply)])
    (hframe : t'.frameManager.mainFrame? = t.frameManager.mainFrame?) : SameWaiters t t' where
  waiters := hwaiters
  answered := by
    rw [Target.answered, Target.answered, hreplies]
    cases reply with
    | httpRequest request => exact absurd rfl (hreply request)
    | _ => simp
  eligible := eligible_of_mainFrame? hframe

theorem SameWaiters.of_page {tx : Sender} {result : Except CdpError PageInner}
    (hwaiters : t'.waiters = t.waiters)
    (hreplies : t'.replies = t.replies ++ [(tx, .page result)])
    (hframe : t'.frameManager.mainFrame? = t.frameManager.mainFrame?) : SameWaiters t t' :=
  .of_reply (fun _ h => Reply.noConfusion h) hwaiters hreplies hframe

theorem sameWaiters_createPage (t : Target) : SameWaiters t t.createPage := by
  unfold createPage
  split
  · exact .of_eq rfl rfl rfl
  · exact .refl t

theorem sameWaiters_handlePageMessage {msg : TargetMessage} (hmsg : msg.waiter? = none) :
    SameWaiters t (t.handlePageMessage msg) := by
  cases msg with
  | waitForNavigation _ | waitForDomContentLoaded _ | waitForLoad _ | waitForNetworkIdle _
  | waitForNetworkAlmostIdle _ => cases hmsg
  | mainFrame tx | allFrames tx | url frameId tx | name frameId tx | parent frameId tx
  | getExecutionContext domWorld frameId tx => exact .of_reply (fun _ h => Reply.noConfusion h) rfl rfl rfl
  | addEventListener method =>
    simp only [handlePageMessage]
    split
    · exact .of_eq rfl rfl rfl
    · exact .refl t
  | _ => exact .of_eq rfl rfl rfl

theorem sameWaiters_serveInitiator (t : Target) : SameWaiters t t.serveInitiator := by
  unfold serveInitiator
  split
  · rename_i initiator _
    split
    · have hcreated := t.sameWaiters_createPage
      split
      · rename_i t' page heq
        obtain rfl := (Prod.mk.inj heq).1
        exact hcreated.trans (.of_page rfl rfl rfl)
      · rename_i t' heq
        obtain rfl := (Prod.mk.inj heq).1
        exact hcreated
    · exact .refl t
  · exact .refl t

theorem sameWaiters_chainTurn (t : Target) (next : NextCommand) :
    SameWaiters t (t.chainTurn next).1 := by
  cases next with
  | deadlineExceeded now deadline =>
    simp only [chainTurn, onInitializationFailed]
    cases t.initiator with
    | none => exact .of_eq rfl rfl rfl
    | some initiator => exact .of_page rfl rfl rfl
  | _ => exact .refl t

theorem sameWaiters_afterFrameChain (t : Target) (env : Env) :
    SameWaiters t (t.afterFrameChain env) := by
  have hworld : ∀ url name,
      (t.frameManager.ensureIsolatedWorld url name).1.mainFrame? = t.frameManager.mainFrame? := by
    intro url name
    unfold FrameManager.ensureIsolatedWorld
    split
    · rfl
    · rfl
  unfold afterFrameChain
  split
  · rename_i worldName _
    have hsame := hworld env.evaluationScriptUrl worldName
    split
    · rename_i fm cmds heq
      rw [heq] at hsame
      exact .of_eq rfl rfl hsame
    · rename_i fm heq
      rw [heq] at hsame
      exact .of_eq rfl rfl hsame
  · exact .of_eq rfl rfl rfl

theorem sameWaiters_initTurn (env : Env) (now : Instant) (chains : Nat) (t : Target) :
    SameWaiters t (t.initTurn env now chains).1 := by
  have hstate : ∀ (t : Target) (state : TargetInit), SameWaiters t { t with initState := state } :=
    fun _ _ => .of_eq rfl rfl rfl
  induction chains generalizing t with
  | zero => exact .refl t
  | succ chains ih =>
    unfold initTurn
    split
    · exact hstate t _
    · split
      · exact .refl t
      · split
        · exact (hstate t _).trans ((sameWaiters_afterFrameChain _ env).trans (ih _))
        · exact (hstate t _).trans (sameWaiters_chainTurn _ _)
    · split
      · exact (hstate t _).trans (ih _)
      · exact (hstate t _).trans (sameWaiters_chainTurn _ _)
    · split
      · exact (hstate t _).trans (ih _)
      · exact (hstate t _).trans (sameWaiters_chainTurn _ _)
    · split
      · exact (hstate t _).trans (ih _)
      · exact (hstate t _).trans (sameWaiters_chainTurn _ _)
    · exact sameWaiters_serveInitiator t
    · exact .refl t

/-! ### What becomes of the waiters in a poll -/

/-- Senders come in from messages that ask for them, are fired if the main frame has come as far as they want, or are dropped because their receiver is gone; the others are where they were, and the main frame comes no further meanwhile. -/
structure Moves (isClosed : Sender → Bool) (t t' : Target) (asked fired closed : List (Waiter × Sender)) :
    Prop where
  count : ∀ kind tx, (t.waiters kind).count tx + asked.count (kind, tx) =
    fired.count (kind, tx) + (t'.waiters kind).count tx + closed.count (kind, tx)
  answered : t'.answered = t.answered ++ fired.map Prod.snd
  reached : ∀ entry ∈ fired, t.eligible entry.1 = true
  gone : ∀ entry ∈ closed, isClosed entry.2 = true
  stays : t'.eligible = t.eligible

theorem SameWaiters.moves (h : SameWaiters t t') : Moves isClosed t t' [] [] [] where
  count := fun kind tx => by simp [h.waiters]
  answered := by simp [h.answered]
  reached := nofun
  gone := nofun
  stays := h.eligible

theorem Moves.trans {asked asked' fired fired' closed closed' : List (Waiter × Sender)}
    (h : Moves isClosed t t' asked fired closed) (h' : Moves isClosed t' t'' asked' fired' closed') :
    Moves isClosed t t'' (asked ++ asked') (fired ++ fired') (closed ++ closed') where
  count := by
    intro kind tx
    have hfirst := h.count kind tx
    have hthen := h'.count kind tx
    simp only [List.count_append]
    omega
  answered := by rw [h'.answered, h.answered, List.map_append, List.append_assoc]
  reached := by
    intro entry hentry
    rcases List.mem_append.1 hentry with hentry | hentry
    · exact h.reached entry hentry
    · rw [← h.stays]
      exact h'.reached entry hentry
  gone := by
    intro entry hentry
    rcases List.mem_append.1 hentry with hentry | hentry
    · exact h.gone entry hentry
    · exact h'.gone entry hentry
  stays := h'.stays.trans h.stays

/-- A filter keeps all of an element or nothing. -/
theorem count_filter {α : Type} [BEq α] [LawfulBEq α] (keep : α → Bool) (x : α) (list : List α) :
    (list.filter keep).count x = if keep x then list.count x else 0 := by
  split
  · rename_i hkeep
    exact List.count_filter hkeep
  · rename_i hkeep
    exact List.count_eq_zero.2 fun hmem => hkeep (List.mem_filter.1 hmem).2

theorem moves_pruneWaiters (t : Target) (isClosed : Sender → Bool) :
    Moves isClosed t (t.pruneWaiters isClosed) [] []
      (t.queuedWaiters.filter fun entry => isClosed entry.2) where
  count := by
    intro kind tx
    have hkept : (t.pruneWaiters isClosed).waiters kind =
        (t.waiters kind).filter fun tx => !isClosed tx := by
      cases kind <;> rfl
    rw [hkept, count_filter, count_filter, count_queuedWaiters]
    cases isClosed tx <;> simp
  answered := by simp [pruneWaiters, answered]
  reached := nofun
  gone := fun entry hentry => (List.mem_filter.1 hentry).2
  stays := rfl

/-- The senders that a turn of the pump fires, in order. -/
def firedBy (t : Target) (budget : List Sender → Nat) : List (Waiter × Sender) :=
  [Waiter.domContentLoaded, .navigation, .load, .networkIdle, .networkAlmostIdle].flatMap fun kind =>
    if t.eligible kind then
      ((t.waiters kind).reverse.take (budget (t.waiters kind))).map (Prod.mk kind)
    else []

theorem count_firedBy (t : Target) (budget : List Sender → Nat) (kind : Waiter) (tx : Sender) :
    (t.firedBy budget).count (kind, tx) =
      if t.eligible kind then ((t.waiters kind).reverse.take (budget (t.waiters kind))).count tx
      else 0 := by
  have hone : ∀ other, (if t.eligible other then
      ((t.waiters other).reverse.take (budget (t.waiters other))).map (Prod.mk other)
      else []).count (kind, tx) = if kind = other ∧ t.eligible kind then
        ((t.waiters kind).reverse.take (budget (t.waiters kind))).count tx else 0 := by
    intro other
    rw [apply_ite (List.count (kind, tx)), count_map_mk]
    by_cases hsame : kind = other
    · subst hsame
      simp
    · simp [hsame]
  simp only [firedBy, List.flatMap_cons, List.flatMap_nil, List.count_append, hone, List.count_nil]
  cases kind <;> simp

theorem waiters_notifyWaiters (t : Target) (budget : List Sender → Nat) (kind : Waiter) :
    (t.notifyWaiters budget).1.waiters kind =
      if t.eligible kind then
        (t.waiters kind).take ((t.waiters kind).length - budget (t.waiters kind))
      else t.waiters kind := by
  unfold notifyWaiters
  split
  · rename_i frame hframe
    simp only [eligible, mainFrameIs, hframe, Option.map_some, Option.getD_some]
    cases kind <;> exact apply_ite Prod.snd _ _ _
  · rename_i hframe
    simp [eligible, mainFrameIs, hframe]

theorem answered_notifyWaiters (t : Target) (budget : List Sender → Nat) :
    (t.notifyWaiters budget).1.answered = t.answered ++ (t.firedBy budget).map Prod.snd := by
  unfold notifyWaiters
  split
  · rename_i frame hframe
    simp [firedBy, fire, drainWaiters, answered, eligible, mainFrameIs, hframe, Waiter.reached, waiters,
      apply_ite Prod.fst, apply_ite (List.map Prod.snd), Function.comp_def]
  · rename_i hframe
    simp [firedBy, eligible, mainFrameIs, hframe]

/-- What is popped and what is left make up the queue. -/
theorem count_pop (queue : List Sender) (budget : Nat) (tx : Sender) :
    (queue.reverse.take budget).count tx + (queue.take (queue.length - budget)).count tx =
      queue.count tx := by
  rw [List.take_reverse, List.count_reverse, Nat.add_comm, ← List.count_append,
    List.take_append_drop]

theorem moves_notifyWaiters (t : Target) (isClosed : Sender → Bool) (budget : List Sender → Nat) :
    Moves isClosed t (t.notifyWaiters budget).1 [] (t.firedBy budget) [] where
  count := by
    intro kind tx
    have hpop := count_pop (t.waiters kind) (budget (t.waiters kind)) tx
    rw [count_firedBy, waiters_notifyWaiters]
    split
    · simpa using hpop.symm
    · simp
  answered := t.answered_notifyWaiters budget
  reached := by
    intro entry hentry
    simp only [firedBy, List.mem_flatMap] at hentry
    obtain ⟨kind, _, hentry⟩ := hentry
    split at hentry
    · rename_i heligible
      obtain ⟨_, _, rfl⟩ := List.mem_map.1 hentry
      exact heligible
    · cases hentry
  gone := nofun
  stays := by
    unfold notifyWaiters
    split
    · rfl
    · rfl

theorem moves_handlePageMessage (t : Target) (isClosed : Sender → Bool) (msg : TargetMessage) :
    ∃ fired, Moves isClosed t (t.handlePageMessage msg) msg.waiter?.toList fired [] := by
  cases hmsg : msg.waiter? with
  | none => exact ⟨[], (sameWaiters_handlePageMessage hmsg).moves⟩
  | some entry =>
    obtain ⟨kind, tx⟩ := entry
    rw [handlePageMessage_waiter hmsg]
    split
    · rename_i heligible
      refine ⟨[(kind, tx)], fun other sender => ?_, ?_, ?_, nofun, rfl⟩
      · have hqueue : (t.send tx t.mainRequest).waiters other = t.waiters other := rfl
        rw [hqueue]
        simp [Nat.add_comm]
      · simp [answered, send, mainRequest]
      · intro entry hentry
        obtain rfl := List.mem_singleton.1 hentry
        exact heligible
    · refine ⟨[], fun other sender => ?_, ?_, nofun, nofun, ?_⟩
      · rw [waiters_enqueue]
        split
        · rename_i hsame
          subst hsame
          simp [List.count_singleton]
        · rename_i hother
          have hne : (kind, tx) ≠ (other, sender) := fun heq => hother (Prod.mk.inj heq).1.symm
          simp [hne]
      · cases kind <;> simp [enqueue, answered]
      · cases kind <;> rfl

theorem moves_handlePageMessages (t : Target) (isClosed : Sender → Bool) (msgs : List TargetMessage) :
    ∃ fired, Moves isClosed t (msgs.foldl handlePageMessage t) (msgs.filterMap TargetMessage.waiter?)
      fired [] := by
  induction msgs generalizing t with
  | nil => exact ⟨[], (SameWaiters.refl t).moves⟩
  | cons msg rest ih =>
    obtain ⟨fired, hmsg⟩ := t.moves_handlePageMessage isClosed msg
    obtain ⟨firedRest, hrest⟩ := ih (t.handlePageMessage msg)
    refine ⟨fired ++ firedRest, ?_⟩
    have hmoves := hmsg.trans hrest
    cases hwaiter : msg.waiter? with
    | none =>
      rw [hwaiter] at hmoves
      rwa [List.filterMap_cons_none hwaiter]
    | some entry =>
      rw [hwaiter] at hmoves
      rwa [List.filterMap_cons_some hwaiter]

/-- The channel of a page is emptied, and everybody who waits in it is answered or queued. -/
theorem moves_receivePageMessages (t : Target) (isClosed : Sender → Bool) :
    ∃ fired, Moves isClosed t t.receivePageMessages (t.waiting.filterMap TargetMessage.waiter?)
      fired [] := by
  unfold receivePageMessages waiting
  split
  · rename_i handle hpage
    have hstart : SameWaiters t { t with page := some { handle with rx := [] } } := .of_eq rfl rfl rfl
    obtain ⟨fired, hmoves⟩ := moves_handlePageMessages
      { t with page := some { handle with rx := [] } } isClosed handle.rx
    rw [hpage]
    exact ⟨fired, hstart.moves.trans hmoves⟩
  · rename_i hpage
    rw [hpage]
    exact ⟨[], (SameWaiters.refl t).moves⟩

/-- A response that is entered in its frame does not change how far the frame has come. -/
theorem eligible_onHttpRequestFinished (t : Target) (request : HttpRequest) :
    { t with frameManager := t.frameManager.onHttpRequestFinished request }.eligible =
      t.eligible := by
  funext kind
  simp only [eligible, mainFrameIs, FrameManager.onHttpRequestFinished]
  split
  · rename_i id _
    simp only [FrameManager.mainFrame?]
    cases t.frameManager.mainFrame with
    | none => rfl
    | some main =>
      simp only [Option.bind_some, Table.get_update]
      split
      · cases t.frameManager.frames.get main with
        | none => rfl
        | some frame => cases kind <;> rfl
      · rfl
  · rfl

theorem sameWaiters_handleNetworkEvent (t : Target) (event : NetworkEvent) :
    SameWaiters t (t.handleNetworkEvent event) := by
  cases event with
  | requestFailed request => exact ⟨rfl, rfl, t.eligible_onHttpRequestFinished request⟩
  | requestFinished request => exact ⟨rfl, rfl, t.eligible_onHttpRequestFinished request⟩
  | request id => exact .refl t
  | response id => exact .refl t
  | _ => exact .of_eq rfl rfl rfl

theorem sameWaiters_drainNetwork (t : Target) : SameWaiters t t.drainNetwork := by
  have hstart : SameWaiters t { t with networkManager := { t.networkManager with queuedEvents := [] } } :=
    .of_eq rfl rfl rfl
  exact hstart.trans
    (Run.foldl_rel SameWaiters.refl SameWaiters.trans sameWaiters_handleNetworkEvent _ _)

theorem mainFrame?_poll (fm : FrameManager) (now clock : Instant) :
    (fm.poll now clock).1.mainFrame? = fm.mainFrame? := by
  unfold FrameManager.poll
  split
  · split
    · rfl
    · split
      · rfl
      · split
        · split
          · rfl
          · rfl
        · rfl
  · split
    · rfl
    · rfl

theorem sameWaiters_drainFramesTo (clock : Nat → Instant) (now : Instant) (turns : Nat) (t : Target) :
    SameWaiters t (t.drainFramesTo clock now turns) := by
  induction turns generalizing t with
  | zero => exact .refl t
  | succ turns ih =>
    have hframe := mainFrame?_poll t.frameManager now (clock turns)
    unfold drainFramesTo
    split
    · rename_i fm event heq
      rw [heq] at hframe
      have hpolled : SameWaiters t ({ t with frameManager := fm }.pushEvent (frameEvent event)) :=
        .of_eq rfl rfl hframe
      exact hpolled.trans (ih _)
    · rename_i fm heq
      rw [heq] at hframe
      exact .of_eq rfl rfl hframe

/-! ### Polls -/

/-- The senders that wait in the channel of the page. -/
def channelWaiters (t : Target) : List (Waiter × Sender) :=
  t.waiting.filterMap TargetMessage.waiter?

/-- The senders move, and those that are asked for come from the channel. -/
def Passes (isClosed : Sender → Bool) (t t' : Target) : Prop :=
  ∃ asked fired closed, Moves isClosed t t' asked fired closed ∧
    t.channelWaiters = asked ++ t'.channelWaiters

theorem Passes.trans (h : Passes isClosed t t') (h' : Passes isClosed t' t'') :
    Passes isClosed t t'' := by
  obtain ⟨asked, fired, closed, hmoves, hchannel⟩ := h
  obtain ⟨asked', fired', closed', hmoves', hchannel'⟩ := h'
  refine ⟨_, _, _, hmoves.trans hmoves', ?_⟩
  rw [hchannel, hchannel', List.append_assoc]

theorem Passes.of_moves {fired closed : List (Waiter × Sender)}
    (h : Moves isClosed t t' [] fired closed) (hwaiting : t'.waiting = t.waiting) :
    Passes isClosed t t' :=
  ⟨[], fired, closed, h, by rw [channelWaiters, channelWaiters, hwaiting, List.nil_append]⟩

theorem passes_receivePageMessages (t : Target) : Passes isClosed t t.receivePageMessages := by
  obtain ⟨fired, hmoves⟩ := t.moves_receivePageMessages isClosed
  refine ⟨_, fired, [], hmoves, ?_⟩
  have hempty : t.receivePageMessages.waiting = [] := by
    unfold receivePageMessages
    split
    · rw [waiting, Run.foldl_unchanged page_handlePageMessage]
      rfl
    · rename_i hpage
      rw [waiting, hpage]
      rfl
  rw [channelWaiters, channelWaiters, hempty]
  exact (List.append_nil _).symm

theorem passes_pump {receive : Target → Target} (hreceive : ∀ t, Passes isClosed t (receive t))
    (t : Target) (budget : List Sender → Nat) (clock : Nat → Instant) (now : Instant) :
    Passes isClosed t (t.pump budget receive clock now).target := by
  have hnotify : ∀ t : Target, Passes isClosed t (t.notifyWaiters budget).1 := fun t =>
    .of_moves (t.moves_notifyWaiters isClosed budget) ((steady_waiting t.waiting).notifyWaiters rfl budget)
  have hpop : ∀ (t : Target) rest, Passes isClosed t { t with queuedEvents := rest } := by
    intro t rest
    have hsame : SameWaiters t { t with queuedEvents := rest } := .of_eq rfl rfl rfl
    exact .of_moves hsame.moves rfl
  have hdrain : ∀ t : Target, Passes isClosed t (t.drainNetwork.drainFrames clock now) := by
    intro t
    have hp := steady_waiting t.waiting
    exact .of_moves (t.sameWaiters_drainNetwork.trans
      (sameWaiters_drainFramesTo clock now _ t.drainNetwork)).moves
      (hp.drainFramesTo clock now _ (hp.drainNetwork rfl))
  unfold pump
  dsimp only
  split
  · exact (hnotify t).trans (hpop _ _)
  · have hdrained := (hnotify t).trans ((hreceive _).trans (hdrain _))
    split
    · exact hdrained
    · exact hdrained.trans ((hnotify _).trans (hpop _ _))

theorem passes_pollTarget (driver : Driver) (t : Target) (env : Env) (now : Instant) :
    Passes env.isClosed t (Handler.pollTarget driver t env now).target := by
  have hpolled : ∀ {receive : Target → Target} (budget : List Sender → Nat),
      (∀ t, Passes env.isClosed t (receive t)) →
      Passes env.isClosed t (t.pollWith budget receive env now).target := by
    intro receive budget hreceive
    have hinit : Passes env.isClosed t (t.initTurn env now 6).1 :=
      .of_moves (sameWaiters_initTurn env now 6 t).moves
        ((steady_waiting t.waiting).initTurn env now 6 rfl)
    unfold pollWith
    split
    · exact .of_moves (SameWaiters.refl t).moves rfl
    · rcases hturn : t.initTurn env now 6 with ⟨t', _ | _ | _⟩
      · rwa [hturn] at hinit
      · rwa [hturn] at hinit
      · rw [hturn] at hinit
        exact hinit.trans ((Passes.of_moves (t'.moves_pruneWaiters env.isClosed) rfl).trans
          (passes_pump hreceive _ budget env.clock now))
  cases driver with
  | stream => exact hpolled _ passes_receivePageMessages
  | run => exact hpolled _ fun t => .of_moves (SameWaiters.refl t).moves rfl

/-! ### Waking up -/

/-- A queue that fired and is not empty makes the pump call the waker. -/
theorem woken_notifyWaiters {budget : List Sender → Nat} {kind : Waiter}
    (heligible : t.eligible kind = true) (hleft : (t.notifyWaiters budget).1.waiters kind ≠ []) :
    (t.notifyWaiters budget).2 = true := by
  unfold notifyWaiters at hleft ⊢
  split at hleft
  · rename_i frame hframe
    simp only [eligible, mainFrameIs, hframe, Option.map_some, Option.getD_some] at heligible
    cases kind with
    | navigation | domContentLoaded | load | networkIdle | networkAlmostIdle =>
      simp only [Waiter.reached] at heligible
      simp only [waiters, heligible] at hleft
      simp [heligible, hleft]
  · rename_i hframe
    simp [eligible, mainFrameIs, hframe] at heligible

/-- Messages queue nobody whom the main frame has come far enough for. -/
theorem waiters_handlePageMessage {kind : Waiter} (heligible : t.eligible kind = true)
    (msg : TargetMessage) : (t.handlePageMessage msg).waiters kind = t.waiters kind := by
  cases hmsg : msg.waiter? with
  | none => rw [(sameWaiters_handlePageMessage hmsg).waiters]
  | some entry =>
    obtain ⟨asked, tx⟩ := entry
    rw [handlePageMessage_waiter hmsg]
    split
    · rfl
    · rename_i hnot
      rw [waiters_enqueue, if_neg]
      intro hsame
      exact hnot (hsame ▸ heligible)

theorem waiters_handlePageMessages {kind : Waiter} (heligible : t.eligible kind = true)
    (msgs : List TargetMessage) :
    (msgs.foldl handlePageMessage t).waiters kind = t.waiters kind := by
  induction msgs generalizing t with
  | nil => rfl
  | cons msg rest ih =>
    obtain ⟨fired, hmoves⟩ := t.moves_handlePageMessage (fun _ => false) msg
    rw [List.foldl_cons, ih (hmoves.stays ▸ heligible), waiters_handlePageMessage heligible]

theorem waiters_receivePageMessages {kind : Waiter} (heligible : t.eligible kind = true) :
    t.receivePageMessages.waiters kind = t.waiters kind := by
  unfold receivePageMessages
  split
  · rename_i handle _
    have hstart : SameWaiters t { t with page := some { handle with rx := [] } } := .of_eq rfl rfl rfl
    rw [waiters_handlePageMessages (hstart.eligible ▸ heligible), hstart.waiters]
  · rfl

/-- What a turn of the pump that yields nothing comes to. -/
theorem pump_none {budget : List Sender → Nat} {receive : Target → Target} {clock : Nat → Instant}
    {now : Instant} (hevent : (t.pump budget receive clock now).event = none) :
    t.pump budget receive clock now =
      ⟨(receive (t.notifyWaiters budget).1).drainNetwork.drainFrames clock now, none,
        (t.notifyWaiters budget).2⟩ := by
  unfold pump at hevent ⊢
  dsimp only at hevent ⊢
  cases hqueue : (t.notifyWaiters budget).1.queuedEvents with
  | cons event rest => simp [hqueue] at hevent
  | nil =>
    simp only [hqueue] at hevent ⊢
    cases hdrained :
      ((receive (t.notifyWaiters budget).1).drainNetwork.drainFrames clock now).queuedEvents with
    | cons event rest => simp [hdrained] at hevent
    | nil => rfl

/-- A turn of the pump that yields nothing leaves a waiter that may fire only if it has called the waker. -/
theorem woken_pump {budget : List Sender → Nat} {clock : Nat → Instant} {now : Instant} {kind : Waiter}
    (hevent : (t.pump budget receivePageMessages clock now).event = none)
    (heligible : (t.pump budget receivePageMessages clock now).target.eligible kind = true)
    (hleft : (t.pump budget receivePageMessages clock now).target.waiters kind ≠ []) :
    (t.pump budget receivePageMessages clock now).woken = true := by
  have hnotified : (t.notifyWaiters budget).1.eligible = t.eligible :=
    (t.moves_notifyWaiters (fun _ => false) budget).stays
  obtain ⟨fired, hreceived⟩ :=
    (t.notifyWaiters budget).1.moves_receivePageMessages fun _ => false
  have hdrained : SameWaiters (t.notifyWaiters budget).1.receivePageMessages
      ((t.notifyWaiters budget).1.receivePageMessages.drainNetwork.drainFrames clock now) :=
    (sameWaiters_drainNetwork _).trans (sameWaiters_drainFramesTo clock now _ _)
  rw [pump_none hevent] at heligible hleft ⊢
  rw [hdrained.eligible, hreceived.stays] at heligible
  rw [hdrained.waiters, waiters_receivePageMessages heligible] at hleft
  exact woken_notifyWaiters (hnotified ▸ heligible) hleft

/-- What a poll of a page that yields nothing leaves in the queues waits for more, or the waker has been called, or the target is not initialised and has been left alone. -/
theorem woken_poll {env : Env} {now : Instant} {kind : Waiter} (hpage : t.isPage = true)
    (hevent : (t.poll env now).event = none)
    (hinit : (t.poll env now).target.initState.isInitialized = true)
    (heligible : (t.poll env now).target.eligible kind = true)
    (hleft : (t.poll env now).target.waiters kind ≠ []) : (t.poll env now).woken = true := by
  have hproceed := (turns env now t).proceed_iff
  unfold poll pollWith at hevent hinit heligible hleft ⊢
  rw [hpage] at hevent hinit heligible hleft ⊢
  rcases hturn : t.initTurn env now 6 with ⟨t', _ | _ | _⟩
  · simp [hturn] at hevent
  · simp only [hturn] at hproceed
    simp only [hturn, Bool.not_true, Bool.false_eq_true, if_false] at hinit
    cases hproceed.2 hinit
  · simp only [hturn, Bool.not_true, Bool.false_eq_true, if_false] at hevent heligible hleft ⊢
    exact woken_pump hevent heligible hleft

/-- The queues of a target that is not initialised are not touched by a poll. -/
theorem waiters_pollTarget (driver : Driver) (env : Env) (now : Instant)
    (hinit : (Handler.pollTarget driver t env now).target.initState.isInitialized = false) :
    (Handler.pollTarget driver t env now).target.waiters = t.waiters := by
  have hsame := (sameWaiters_initTurn env now 6 t).waiters
  have hproceed := (turns env now t).proceed_iff
  by_cases hpage : t.isPage = true
  · have hpolled := pollTarget_turn hpage driver env now
    rcases hturn : t.initTurn env now 6 with ⟨t', _ | _ | _⟩
    · simp only [hturn] at hpolled hsame
      rw [hpolled, hsame]
    · simp only [hturn] at hpolled hsame
      rw [hpolled, hsame]
    · simp only [hturn] at hpolled hproceed
      rw [hpolled, hproceed.1 trivial] at hinit
      cases hinit
  · rw [pollTarget_of_not_page hpage]

end Target

/-! ### Runs -/

/-- What happens to a target. A message of the page reaches it through its channel, or is handed to it by a driver that has taken it from the channel. -/
inductive WaiterInput where
  | delivered (input : TargetInput)
  | handed (msg : TargetMessage)

namespace WaiterInput

def apply (t : Target) : WaiterInput → Target
  | .delivered input => t.take input
  | .handed msg => t.onPageMessage msg

/-- The waiters that a page sends. Without a channel it cannot send any. -/
def asked (t : Target) : WaiterInput → List (Waiter × Sender)
  | .delivered (.message msg) => if t.page.isSome then msg.waiter?.toList else []
  | .handed msg => msg.waiter?.toList
  | _ => []

/-- The waiters that are handed to a target that is closing. -/
def refused (t : Target) (input : WaiterInput) : List (Waiter × Sender) :=
  if t.initState.isClosing then
    match input with
    | .delivered .drained =>
      (t.waiting.take Handler.perTargetDrainBudget).filterMap TargetMessage.waiter?
    | .handed msg => msg.waiter?.toList
    | _ => []
  else []

/-- The channels that a poll finds closed. -/
def isClosed : WaiterInput → Sender → Bool
  | .delivered (.polled _ env _ _ _) => env.isClosed
  | _ => fun _ => false

/-- Messages are handed over, and not read by a poll. -/
def handsOver : WaiterInput → Bool
  | .delivered .drained => true
  | .handed _ => true
  | _ => false

end WaiterInput

/-- A target, and what is known of its waiters: who has asked, who was handed to it while it was closing, who was found closed by a poll, and whether messages were handed over. -/
structure Watch where
  target : Target
  asked : List (Waiter × Sender)
  refused : List (Waiter × Sender)
  closed : Sender → Bool
  handedOver : Bool

namespace Watch

def start (t : Target) : Watch := ⟨t, [], [], fun _ => false, false⟩

def step (w : Watch) (input : WaiterInput) : Watch where
  target := input.apply w.target
  asked := w.asked ++ input.asked w.target
  refused := w.refused ++ input.refused w.target
  closed := fun tx => w.closed tx || input.isClosed tx
  handedOver := w.handedOver || input.handsOver

/-- Everybody who has asked was answered, is in a queue or in the channel, was found closed, or was handed to a target that was closing; and nobody is two of these. -/
def Accounted (w : Watch) : Prop :=
  ∃ fired closed : List (Waiter × Sender),
    w.target.answered = fired.map Prod.snd ∧
    (∀ entry ∈ closed, w.closed entry.2 = true) ∧
    w.asked.Perm (fired ++ w.target.queuedWaiters ++ w.target.channelWaiters ++ closed ++ w.refused)

/-- Whoever is answered has asked for something that the main frame has reached. -/
def Reached (w : Watch) (input : WaiterInput) : Prop :=
  ∃ fired : List (Waiter × Sender),
    (w.step input).target.answered = w.target.answered ++ fired.map Prod.snd ∧
    ∀ entry ∈ fired, entry ∈ (w.step input).asked ∧
      ∃ frame, w.target.frameManager.mainFrame? = some frame ∧
        entry.1.event ∈ frame.lifecycleEvents

/-- A poll of the stream that yields nothing and leaves a waiter that may fire has called the waker. -/
def Rearmed (w : Watch) : WaiterInput → Prop
  | .delivered (.polled .stream env now _ _) =>
    let polled := w.target.poll env now
    w.target.isPage = true → polled.event = none →
    (∃ kind, polled.target.eligible kind = true ∧ polled.target.waiters kind ≠ []) →
    polled.target.initState.isInitialized = true ∨ w.handedOver = false → polled.woken = true
  | _ => True

end Watch

/-! ### What one input does -/

namespace Target

/-- The books of one input: what was held and what is asked for is answered, held, found closed or refused. -/
structure Books (t t' : Target) (isClosed : Sender → Bool)
    (asked fired closed refused : List (Waiter × Sender)) : Prop where
  count : ∀ kind tx, (t.waiters kind).count tx + t.channelWaiters.count (kind, tx) +
      asked.count (kind, tx) =
    fired.count (kind, tx) + (t'.waiters kind).count tx + t'.channelWaiters.count (kind, tx) +
      closed.count (kind, tx) + refused.count (kind, tx)
  answered : t'.answered = t.answered ++ fired.map Prod.snd
  reached : ∀ entry ∈ fired, t.eligible entry.1 = true
  gone : ∀ entry ∈ closed, isClosed entry.2 = true

variable {t t' : Target} {isClosed : Sender → Bool}

theorem Books.of_same (hwaiters : t'.waiters = t.waiters) (hreplies : t'.replies = t.replies)
    (hwaiting : t'.waiting = t.waiting) : Books t t' isClosed [] [] [] [] where
  count := fun kind tx => by
    rw [channelWaiters, channelWaiters, hwaiters, hwaiting]
    simp
  answered := by
    rw [Target.answered, Target.answered, hreplies]
    simp
  reached := nofun
  gone := nofun

theorem Passes.books (h : Passes isClosed t t') :
    ∃ fired closed, Books t t' isClosed [] fired closed [] := by
  obtain ⟨asked, fired, closed, hmoves, hchannel⟩ := h
  refine ⟨fired, closed, fun kind tx => ?_, hmoves.answered, hmoves.reached, hmoves.gone⟩
  have hcount := hmoves.count kind tx
  rw [hchannel, List.count_append]
  simp only [List.count_nil]
  omega

/-- Nothing that follows a poll touches the waiters. -/
theorem books_navigated {polled : Polled} {fired closed : List (Waiter × Sender)}
    (h : Books t polled.target isClosed [] fired closed []) (id : NavigationId) (timeout : Duration) :
    Books t (navigated polled id timeout) isClosed [] fired closed [] := by
  have hsame : (navigated polled id timeout).waiters = polled.target.waiters ∧
      (navigated polled id timeout).replies = polled.target.replies := by
    unfold navigated
    split
    · split
      · exact ⟨rfl, rfl⟩
      · exact ⟨rfl, rfl⟩
    · exact ⟨rfl, rfl⟩
  have hchannel : (navigated polled id timeout).channelWaiters = polled.target.channelWaiters :=
    congrArg (List.filterMap TargetMessage.waiter?) (waiting_navigated polled id timeout)
  exact {
    count := fun kind tx => by
      rw [hsame.1, hchannel]
      exact h.count kind tx
    answered := by
      rw [Target.answered, hsame.2]
      exact h.answered
    reached := h.reached
    gone := h.gone }

/-- Messages that are handed to a target are taken in, unless it is closing. -/
theorem onPageMessages_eq (t : Target) (msgs : List TargetMessage) :
    msgs.foldl onPageMessage t =
      if t.initState.isClosing then t else msgs.foldl handlePageMessage t := by
  induction msgs generalizing t with
  | nil => simp
  | cons msg rest ih =>
    rw [List.foldl_cons, ih, List.foldl_cons]
    cases hstate : t.initState with
    | closing => simp [onPageMessage, hstate, TargetInit.isClosing]
    | _ =>
      simp [onPageMessage, hstate, TargetInit.isClosing, initState_handlePageMessage]

/-- Messages that are handed over leave their senders with the target, or with nobody. -/
theorem books_onPageMessages (t t' : Target) (isClosed : Sender → Bool) (msgs : List TargetMessage)
    (asked : List (Waiter × Sender)) (hwaiters : t'.waiters = t.waiters) (hreplies : t'.replies = t.replies)
    (heligible : t'.eligible = t.eligible) (hinit : t'.initState = t.initState)
    (hcount : ∀ kind tx, t.channelWaiters.count (kind, tx) + asked.count (kind, tx) =
      (msgs.filterMap TargetMessage.waiter?).count (kind, tx) + t'.channelWaiters.count (kind, tx)) :
    ∃ fired, Books t (msgs.foldl onPageMessage t') isClosed asked fired []
      (if t.initState.isClosing then msgs.filterMap TargetMessage.waiter? else []) := by
  have hpage : (msgs.foldl onPageMessage t').channelWaiters = t'.channelWaiters :=
    congrArg (List.filterMap TargetMessage.waiter?)
      (waiting_of_page_eq (Run.foldl_unchanged page_onPageMessage t' msgs))
  have hanswered : t'.answered = t.answered := by rw [answered, answered, hreplies]
  rw [onPageMessages_eq, hinit] at hpage
  rw [onPageMessages_eq, hinit]
  cases hclosing : t.initState.isClosing with
  | true =>
    refine ⟨[], fun kind tx => ?_, by simp [hanswered], nofun, nofun⟩
    have hsum := hcount kind tx
    simp only [if_true, hwaiters, List.count_nil]
    omega
  | false =>
    simp only [hclosing, Bool.false_eq_true, if_false] at hpage ⊢
    obtain ⟨fired, hmoves⟩ := t'.moves_handlePageMessages isClosed msgs
    refine ⟨fired, fun kind tx => ?_, hanswered ▸ hmoves.answered, heligible ▸ hmoves.reached, nofun⟩
    have hqueues := hmoves.count kind tx
    have hsum := hcount kind tx
    rw [hwaiters] at hqueues
    rw [hpage]
    simp only [List.count_nil] at hqueues ⊢
    omega

/-- What a response can change. -/
theorem response_same (t : Target) (env : Env) (method : MethodId) (resp : Response) :
    ∃ fm session init,
      (maybeStoreAttachSessionId env.decoders t method resp).onResponse env resp method = { t with
        frameManager := fm
        sessionId := session
        initState := init } := by
  have hresponse : ∀ t : Target, ∃ fm init, t.onResponse env resp method = { t with
      frameManager := fm
      initState := init } := by
    intro t
    unfold onResponse
    dsimp only
    split
    · split
      · exact ⟨_, _, rfl⟩
      · exact ⟨_, _, rfl⟩
    · exact ⟨_, _, rfl⟩
  have hstored : ∃ session, maybeStoreAttachSessionId env.decoders t method resp = { t with
      sessionId := session } := by
    unfold maybeStoreAttachSessionId
    split
    · exact ⟨_, rfl⟩
    · split
      · exact ⟨_, rfl⟩
      · exact ⟨_, rfl⟩
  obtain ⟨session, hsession⟩ := hstored
  obtain ⟨fm, init, hchanged⟩ := hresponse { t with sessionId := session }
  exact ⟨fm, session, init, hsession ▸ hchanged⟩

/-- Every input leaves the books in order. -/
theorem books_apply (t : Target) (input : WaiterInput) :
    ∃ fired closed, Books t (input.apply t) input.isClosed (input.asked t) fired closed
      (input.refused t) := by
  have hrefused : ∀ input : WaiterInput, input.handsOver = false → input.refused t = [] := by
    intro input hinput
    unfold WaiterInput.refused
    split
    · split
      · cases hinput
      · cases hinput
      · rfl
    · rfl
  cases input with
  | handed msg =>
    have hmsg : [msg].filterMap TargetMessage.waiter? = msg.waiter?.toList := by
      cases hwaiter : msg.waiter? <;> simp [hwaiter]
    obtain ⟨fired, hbooks⟩ := books_onPageMessages t t (fun _ => false) [msg] msg.waiter?.toList rfl rfl
      rfl rfl (fun kind tx => by rw [hmsg, Nat.add_comm])
    rw [hmsg] at hbooks
    exact ⟨fired, [], hbooks⟩
  | delivered input =>
    cases input with
    | event env event =>
      obtain ⟨_, _, _, heq⟩ := t.onEvent_same env event
      rw [hrefused _ rfl]
      have happly : (WaiterInput.delivered (.event env event)).apply t = t.onEvent env event := rfl
      rw [happly, heq]
      exact ⟨[], [], .of_same rfl rfl rfl⟩
    | response env method resp =>
      obtain ⟨_, _, _, heq⟩ := t.response_same env method resp
      have happly : (WaiterInput.delivered (.response env method resp)).apply t =
        (maybeStoreAttachSessionId env.decoders t method resp).onResponse env resp method := rfl
      rw [hrefused _ rfl, happly, heq]
      exact ⟨[], [], .of_same rfl rfl rfl⟩
    | message msg =>
      rw [hrefused _ rfl]
      cases hpage : t.page with
      | none =>
        have hasked : (WaiterInput.delivered (.message msg)).asked t = [] := by
          simp [WaiterInput.asked, hpage]
        have hchannel : (t.receive msg).waiting = t.waiting := by simp [waiting, receive, hpage]
        rw [hasked]
        exact ⟨[], [], .of_same rfl rfl hchannel⟩
      | some handle =>
        have hasked : (WaiterInput.delivered (.message msg)).asked t = msg.waiter?.toList := by
          simp [WaiterInput.asked, hpage]
        have hchannel : (t.receive msg).channelWaiters = t.channelWaiters ++ msg.waiter?.toList := by
          cases hwaiter : msg.waiter? <;> simp [channelWaiters, waiting, receive, hpage, hwaiter]
        have hqueues : (t.receive msg).waiters = t.waiters := rfl
        rw [hasked]
        refine ⟨[], [], fun kind tx => ?_, by simp [WaiterInput.apply, take, receive, answered],
          (by simp), (by simp)⟩
        have happly : (WaiterInput.delivered (.message msg)).apply t = t.receive msg := rfl
        rw [happly, hqueues, hchannel, List.count_append]
        simp only [List.count_nil]
        omega
    | drained =>
      cases hpage : t.page with
      | none =>
        have hwaiting : t.waiting = [] := by simp [waiting, hpage]
        have happly : (WaiterInput.delivered .drained).apply t = t := by
          simp [WaiterInput.apply, take, Handler.drainPage, hpage]
        have hnone : (WaiterInput.delivered .drained).refused t = [] := by
          simp [WaiterInput.refused, hwaiting]
        rw [happly, hnone]
        exact ⟨[], [], .of_same rfl rfl rfl⟩
      | some handle =>
        have hwaiting : t.waiting = handle.rx := by simp [waiting, hpage]
        have happly : (WaiterInput.delivered .drained).apply t =
            (handle.rx.take Handler.perTargetDrainBudget).foldl onPageMessage
              { t with page := some { handle with rx := handle.rx.drop Handler.perTargetDrainBudget } } := by
          simp [WaiterInput.apply, take, Handler.drainPage, hpage]
        have hrefusedSome : (WaiterInput.delivered .drained).refused t =
            if t.initState.isClosing then
              (handle.rx.take Handler.perTargetDrainBudget).filterMap TargetMessage.waiter?
            else [] := by
          simp [WaiterInput.refused, hwaiting]
        obtain ⟨fired, hbooks⟩ := books_onPageMessages t
          { t with page := some { handle with rx := handle.rx.drop Handler.perTargetDrainBudget } }
          (fun _ => false) (handle.rx.take Handler.perTargetDrainBudget) [] rfl rfl rfl rfl (fun kind tx => by
            have hsplit : t.channelWaiters =
                (handle.rx.take Handler.perTargetDrainBudget).filterMap TargetMessage.waiter? ++
                (handle.rx.drop Handler.perTargetDrainBudget).filterMap TargetMessage.waiter? := by
              rw [← List.filterMap_append, List.take_append_drop, channelWaiters, hwaiting]
            rw [hsplit, List.count_append]
            rfl)
        rw [happly, hrefusedSome]
        exact ⟨fired, [], hbooks⟩
    | paged everyKind =>
      rw [hrefused _ rfl]
      have hreplies : t.createPage.replies = t.replies := by
        unfold createPage
        split
        · rfl
        · rfl
      simp only [WaiterInput.apply, take]
      split
      · exact ⟨[], [], .of_same t.sameWaiters_createPage.waiters hreplies t.waiting_createPage⟩
      · exact ⟨[], [], .of_same rfl rfl rfl⟩
    | polled driver env now id timeout =>
      rw [hrefused _ rfl]
      obtain ⟨fired, closed, hbooks⟩ := (passes_pollTarget driver t env now).books
      exact ⟨fired, closed, books_navigated hbooks id timeout⟩
    | attached session | detached | initiated tx | blocked | evicted now =>
      rw [hrefused _ rfl]
      exact ⟨[], [], .of_same rfl rfl rfl⟩

end Target

namespace Watch

variable {w : Watch}

theorem accounted_step (h : w.Accounted) (input : WaiterInput) : (w.step input).Accounted := by
  obtain ⟨fired, closed, hanswered, hclosed, hperm⟩ := h
  obtain ⟨fired', closed', hbooks⟩ := w.target.books_apply input
  refine ⟨fired ++ fired', closed ++ closed', ?_, ?_, ?_⟩
  · exact hbooks.answered.trans (by rw [hanswered, List.map_append])
  · intro entry hentry
    rcases List.mem_append.1 hentry with hentry | hentry
    · simp [step, hclosed entry hentry]
    · simp [step, hbooks.gone entry hentry]
  · rw [List.perm_iff_count] at hperm ⊢
    rintro ⟨kind, tx⟩
    have hbefore := hperm (kind, tx)
    have hcount := hbooks.count kind tx
    simp only [step, List.count_append, Target.count_queuedWaiters] at hbefore ⊢
    omega

theorem reached_of_accounted (h : w.Accounted) (input : WaiterInput) : w.Reached input := by
  obtain ⟨fired, closed, hanswered, hclosed, hperm⟩ := h
  obtain ⟨fired', closed', hbooks⟩ := w.target.books_apply input
  refine ⟨fired', hbooks.answered, fun entry hentry =>
    ⟨?_, (w.target.eligible_iff entry.1).1 (hbooks.reached entry hentry)⟩⟩
  obtain ⟨kind, tx⟩ := entry
  have hbefore := (List.perm_iff_count.1 hperm) (kind, tx)
  have hcount := hbooks.count kind tx
  have hfired := List.count_pos_iff.2 hentry
  rw [← List.count_pos_iff]
  simp only [step, List.count_append, Target.count_queuedWaiters] at hbefore ⊢
  omega

/-- As long as nobody hands messages over, only an initialised target has waiters. -/
def Fresh (w : Watch) : Prop :=
  w.handedOver = false → w.target.initState.isInitialized = true ∨ ∀ kind, w.target.waiters kind = []

theorem fresh_step (h : w.Fresh) (input : WaiterInput) : (w.step input).Fresh := by
  intro hhanded
  obtain ⟨hbefore, hinput⟩ := Bool.or_eq_false_iff.1 hhanded
  have hfresh := h hbefore
  have hsame : ∀ t' : Target, t'.initState.isInitialized = w.target.initState.isInitialized →
      t'.waiters = w.target.waiters →
      t'.initState.isInitialized = true ∨ ∀ kind, t'.waiters kind = [] := by
    intro t' hinit hwaiters
    rwa [hinit, hwaiters]
  cases input with
  | handed msg => cases hinput
  | delivered input =>
    cases input with
    | drained => cases hinput
    | event env event =>
      obtain ⟨_, _, _, heq⟩ := w.target.onEvent_same env event
      have happly : (w.step (.delivered (.event env event))).target = w.target.onEvent env event := rfl
      rw [happly, heq]
      exact hsame _ rfl rfl
    | response env method resp =>
      obtain ⟨_, _, _, heq⟩ := w.target.response_same env method resp
      have hqueues : ((maybeStoreAttachSessionId env.decoders w.target method resp).onResponse env resp
          method).waiters = w.target.waiters := by
        rw [heq]
        rfl
      have hinit : ((maybeStoreAttachSessionId env.decoders w.target method resp).onResponse env resp
          method).initState.isInitialized = w.target.initState.isInitialized := by
        rw [Target.initState_response]
        cases w.target.initState <;> rfl
      exact hsame _ hinit hqueues
    | paged everyKind =>
      have hqueues := w.target.sameWaiters_createPage.waiters
      have hinit : w.target.createPage.initState = w.target.initState := by
        unfold Target.createPage
        split
        · rfl
        · rfl
      simp only [step, WaiterInput.apply, Target.take]
      split
      · exact hsame _ (congrArg TargetInit.isInitialized hinit) hqueues
      · exact hfresh
    | polled driver env now id timeout =>
      have hnavigated : ∀ polled : Target.Polled,
          (Target.navigated polled id timeout).initState = polled.target.initState ∧
          (Target.navigated polled id timeout).waiters = polled.target.waiters := by
        intro polled
        unfold Target.navigated
        split
        · split
          · exact ⟨rfl, rfl⟩
          · exact ⟨rfl, rfl⟩
        · exact ⟨rfl, rfl⟩
      obtain ⟨hinit, hqueues⟩ := hnavigated (Handler.pollTarget driver w.target env now)
      have happly : (w.step (.delivered (.polled driver env now id timeout))).target =
        Target.navigated (Handler.pollTarget driver w.target env now) id timeout := rfl
      rw [happly, hinit, hqueues]
      cases hstate :
        (Handler.pollTarget driver w.target env now).target.initState.isInitialized with
      | true => exact .inl rfl
      | false =>
        rw [Target.waiters_pollTarget driver env now hstate]
        refine .inr (hfresh.resolve_left fun hdone => ?_)
        rw [Target.pollTarget_initialized (Target.initState_eq_of_isInitialized hdone)] at hstate
        cases hstate
    | _ => exact hsame _ rfl rfl

theorem rearmed_of_fresh (h : w.Fresh) (input : WaiterInput) : w.Rearmed input := by
  unfold Rearmed
  split
  · rename_i env now id timeout
    dsimp only
    rintro hpage hevent ⟨kind, heligible, hleft⟩ hready
    cases hstate : (w.target.poll env now).target.initState.isInitialized with
    | true => exact Target.woken_poll hpage hevent hstate heligible hleft
    | false =>
      have hhanded := hready.resolve_left (by simp [hstate])
      have hqueues := Target.waiters_pollTarget .stream env now hstate
      rcases h hhanded with hdone | hempty
      · have hpolled := Target.pollTarget_initialized (Target.initState_eq_of_isInitialized hdone)
          .stream env now
        rw [Handler.pollTarget] at hpolled
        rw [hpolled] at hstate
        cases hstate
      · exact absurd (by rw [← hempty kind]; exact congrFun hqueues kind) hleft
  · trivial

theorem start_accounted (info : TargetInfo) (config : TargetConfig) (browserContext : BrowserContext) :
    (start (.new info config browserContext)).Accounted :=
  ⟨[], [], rfl, nofun, List.Perm.nil⟩

/-! ### The law of waiters -/

/-- Whatever happens to a target, nobody who waits on it is lost or answered twice, but for those who are handed to it while it is closing; an answer comes when the main frame has reached what is waited for; and a poll of the stream that leaves somebody behind who may be answered has called the waker, but for a target that was handed messages before it was initialised. -/
theorem waiters_law (info : TargetInfo) (config : TargetConfig) (browserContext : BrowserContext)
    (inputs : List WaiterInput) :
    Run.Always step Accounted (start (.new info config browserContext)) inputs ∧
    Run.Allowed step (fun w input => w.Reached input ∧ w.Rearmed input)
      (start (.new info config browserContext)) inputs := by
  have hstart : (start (.new info config browserContext)).Accounted ∧
      (start (.new info config browserContext)).Fresh :=
    ⟨start_accounted info config browserContext, fun _ => .inr fun kind => by cases kind <;> rfl⟩
  have hstep : ∀ w input, Accounted w ∧ Fresh w → Accounted (w.step input) ∧ Fresh (w.step input) :=
    fun w input h => ⟨accounted_step h.1 input, fresh_step h.2 input⟩
  constructor
  · exact (Run.always_of_step hstep hstart inputs).mono fun w h => h.1
  · exact Run.allowed_of_step _ hstep
      (fun w input h => ⟨reached_of_accounted h.1 input, rearmed_of_fresh h.2 input⟩) hstart inputs

/-- A page that gives up its initialisation and is then handed a waiter. -/
def handedWhileClosing : List WaiterInput :=
  [.delivered (.polled .run Handler.plainEnv 0 ⟨0⟩ 0), .delivered (.attached ⟨"session"⟩),
    .delivered (.polled .run Handler.plainEnv 0 ⟨0⟩ 0),
    .delivered (.polled .run Handler.plainEnv 31000000000 ⟨0⟩ 0), .handed (.waitForLoad ⟨5⟩)]

/-- A page that is handed a waiter and loads its document before it is initialised. -/
def handedBeforeInitialized : List WaiterInput :=
  [.delivered (.attached ⟨"session"⟩), .delivered (.polled .stream Handler.plainEnv 0 ⟨0⟩ 0),
    .delivered (.polled .stream Handler.plainEnv 0 ⟨0⟩ 0), .handed (.waitForLoad ⟨5⟩),
    .delivered (.event Handler.plainEnv
      ⟨.pageFrameNavigated ⟨⟨"main"⟩, none, none, "about:blank", none⟩, some "session"⟩),
    .delivered (.event Handler.plainEnv
      ⟨.pageLifecycleEvent ⟨⟨"main"⟩, ⟨"document"⟩, "load"⟩, some "session"⟩)]

/-- A waiter that is handed to a closing target is lost, and one that was handed over before its target is initialised is not woken up for. -/
theorem waiters_law_not_unguarded :
    let start := start (.new ⟨Handler.plainTarget, "page", none, none⟩ Handler.plainConfig.targetConfig ⟨none⟩)
    let lost := Run.final step start handedWhileClosing
    let late := (Run.final step start handedBeforeInitialized).target.poll Handler.plainEnv 0
    (¬ ∃ fired closed : List (Waiter × Sender), lost.target.answered = fired.map Prod.snd ∧
      (∀ entry ∈ closed, lost.closed entry.2 = true) ∧
      lost.asked.Perm (fired ++ lost.target.queuedWaiters ++ lost.target.channelWaiters ++ closed)) ∧
    late.event = none ∧ late.target.eligible .load = true ∧ late.target.waiters .load = [⟨5⟩] ∧
    late.woken = false := by
  intro start lost late
  have hanswered : lost.target.answered = [] := by decide +kernel
  have hasked : lost.asked = [(.load, ⟨5⟩)] := by decide +kernel
  have hqueued : lost.target.queuedWaiters = [] := by decide +kernel
  have hchannel : lost.target.channelWaiters = [] := by decide +kernel
  have hclosed : lost.closed ⟨5⟩ = false := by decide +kernel
  have hnothing : late.event.isNone = true := by decide +kernel
  refine ⟨?_, Option.isNone_iff_eq_none.1 hnothing, by decide +kernel, by decide +kernel,
    by decide +kernel⟩
  rintro ⟨fired, closed, hfired, hgone, hperm⟩
  obtain rfl : fired = [] := List.map_eq_nil_iff.1 (hfired.symm.trans hanswered)
  rw [hasked, hqueued, hchannel] at hperm
  have hmem : (Waiter.load, (⟨5⟩ : Sender)) ∈ closed := by simpa using hperm.subset
  rw [hgone _ hmem] at hclosed
  cases hclosed

end Watch

end SpiderChrome
