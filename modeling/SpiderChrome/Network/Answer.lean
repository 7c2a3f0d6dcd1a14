import SpiderChrome.Network.Manager
import SpiderChrome.Library.Run

/-!
# Answers to paused requests

A paused request waits in the browser until one of three commands names it, and a second one is an error. The decision about it is long and depends on lists that are not ours, but it only ever ends in one push. `interception_answers` counts the pushes over everything that is queued from the pause on.
-/

namespace SpiderChrome

/-- The command decides the fate of a paused request. -/
def NetworkCommand.answers (requestId : Fetch.RequestId) : NetworkCommand → Bool
  | failRequest id => id = requestId
  | fulfillRequest id _ _ _ => id = requestId
  | continueRequest id _ _ => id = requestId
  | _ => false

def NetworkEvent.answers (requestId : Fetch.RequestId) : NetworkEvent → Bool
  | sendCdpRequest command => command.answers requestId
  | _ => false

namespace NetworkManager

/-- The queue of the second manager continues that of the first, with so many answers to a request among what is new. -/
def Answered (requestId : Fetch.RequestId) (count : Nat) (nm nm' : NetworkManager) : Prop :=
  ∃ added, nm'.queuedEvents = nm.queuedEvents ++ added ∧
    added.countP (NetworkEvent.answers requestId) = count

variable {requestId : Fetch.RequestId} {nm nm' nm'' : NetworkManager}

theorem answered_of_queuedEvents_eq (h : nm'.queuedEvents = nm.queuedEvents) :
    Answered requestId 0 nm nm' :=
  ⟨[], by simp [h], rfl⟩

theorem Answered.trans {m n : Nat} (h : Answered requestId m nm nm')
    (h' : Answered requestId n nm' nm'') : Answered requestId (m + n) nm nm'' := by
  obtain ⟨added, hadded, hm⟩ := h
  obtain ⟨later, hlater, hn⟩ := h'
  refine ⟨added ++ later, ?_, ?_⟩
  · rw [hlater, hadded, List.append_assoc]
  · rw [List.countP_append, hm, hn]

theorem answered_pushEvent (nm : NetworkManager) (event : NetworkEvent) :
    Answered requestId (if event.answers requestId then 1 else 0) nm (nm.pushEvent event) := by
  refine ⟨[event], rfl, ?_⟩
  simp [List.countP_cons]

/-! ### Bookkeeping answers nothing -/

theorem takeRedirectChain_queuedEvents (nm : NetworkManager) (event : EventRequestWillBeSent) :
    (nm.takeRedirectChain event).1.queuedEvents = nm.queuedEvents := by
  unfold takeRedirectChain
  split
  · rfl
  · split <;> rfl

theorem onRequest_answered (nm : NetworkManager) (now : Instant) (event : EventRequestWillBeSent)
    (interceptionId : Option Network.InterceptionId) :
    Answered requestId 0 nm (nm.onRequest now event interceptionId) := by
  have htaken : Answered requestId 0 nm (nm.takeRedirectChain event).1 :=
    answered_of_queuedEvents_eq (nm.takeRedirectChain_queuedEvents event)
  simp only [onRequest]
  split
  · have hstop := @answered_pushEvent requestId (nm.takeRedirectChain event).1
      (.sendCdpRequest .stopLoading)
    exact (htaken.trans hstop).trans (answered_pushEvent _ _)
  · exact htaken.trans (answered_pushEvent _ _)

theorem onRequestWillBeSent_answered (nm : NetworkManager) (now : Instant)
    (event : EventRequestWillBeSent) :
    Answered requestId 0 nm (nm.onRequestWillBeSent now event) := by
  unfold onRequestWillBeSent
  split
  · split
    · exact onRequest_answered { nm with requestIdToInterceptionId := _ } now event _
    · exact answered_of_queuedEvents_eq rfl
  · exact onRequest_answered nm now event none

theorem reconcilePaused_answered (nm : NetworkManager) (now : Instant) (event : EventRequestPaused) :
    Answered requestId 0 nm (nm.reconcilePaused now event) := by
  unfold reconcilePaused
  split
  · split
    · exact onRequest_answered { nm with requestsWillBeSent := _ } now _ _
    · exact answered_of_queuedEvents_eq rfl
  · exact answered_of_queuedEvents_eq rfl

theorem handleDocumentReplacementAndTracking_queuedEvents (nm : NetworkManager)
    (event : EventRequestPaused) (documentResource : Bool) :
    (nm.handleDocumentReplacementAndTracking event documentResource).1.queuedEvents =
      nm.queuedEvents := by
  unfold handleDocumentReplacementAndTracking
  split <;> rfl

/-! ### The decision answers once -/

theorem answered_pushCdpRequest (nm : NetworkManager) {command : NetworkCommand}
    (h : command.answers requestId = true) :
    Answered requestId 1 nm (nm.pushCdpRequest command) := by
  have hpush := @answered_pushEvent requestId nm (.sendCdpRequest command)
  rwa [show (NetworkEvent.sendCdpRequest command).answers requestId = true from h,
    if_pos rfl] at hpush

theorem failRequestBlocked_answered (nm : NetworkManager) (requestId : Fetch.RequestId) :
    Answered requestId 1 nm (nm.failRequestBlocked requestId) := by
  apply answered_pushCdpRequest
  simp [NetworkCommand.answers]

theorem answerPaused_answered (nm : NetworkManager) (cache : SessionCache) (systemNow : Instant)
    (event : EventRequestPaused) (replacer : Option String) (skip : Bool) :
    Answered event.requestId 1 nm (nm.answerPaused cache systemNow event replacer skip) := by
  unfold answerPaused
  split
  · apply answered_pushCdpRequest
    simp [NetworkCommand.answers]
  · split
    · apply answered_pushCdpRequest
      simp [NetworkCommand.answers]
    · -- with or without another url
      cases replacer with
      | none =>
        apply answered_pushCdpRequest
        simp [NetworkCommand.answers]
      | some url =>
        apply answered_pushCdpRequest
        simp [NetworkCommand.answers]

theorem onFetchRequestPaused_answered (nm : NetworkManager) (blockers : Blockers)
    (cache : SessionCache) (now systemNow : Instant) (event : EventRequestPaused) :
    Answered event.requestId
      (if nm.userRequestInterceptionEnabled && nm.protocolRequestInterceptionEnabled then 0 else 1)
      nm (nm.onFetchRequestPaused blockers cache now systemNow event) := by
  unfold onFetchRequestPaused
  split
  · exact answered_of_queuedEvents_eq rfl
  · split
    · exact nm.failRequestBlocked_answered event.requestId
    · have hreconciled : Answered event.requestId 0 nm (nm.reconcilePaused now event) :=
        nm.reconcilePaused_answered now event
      have htracked := hreconciled.trans (answered_of_queuedEvents_eq
        ((nm.reconcilePaused now event).handleDocumentReplacementAndTracking_queuedEvents event
          (decide (event.resourceType = .document))))
      exact htracked.trans (answerPaused_answered _ _ _ _ _ _)

theorem onRequestWillBeSent_run_answered (nm : NetworkManager)
    (later : List (EventRequestWillBeSent × Instant)) :
    Answered requestId 0 nm
      (Run.final (fun nm arrival => nm.onRequestWillBeSent arrival.2 arrival.1) nm later) := by
  apply Run.invariant_of_step (Answered requestId 0 nm) _ (answered_of_queuedEvents_eq rfl)
  intro nm' arrival h
  exact h.trans (nm'.onRequestWillBeSent_answered arrival.2 arrival.1)

/-- From the pause on, whatever requests are announced later, exactly one answer to the paused request is queued, and none if the user is the one to answer it. -/
theorem interception_answers (nm : NetworkManager) (blockers : Blockers) (cache : SessionCache)
    (now systemNow : Instant) (event : EventRequestPaused)
    (later : List (EventRequestWillBeSent × Instant)) :
    Answered event.requestId
      (if nm.userRequestInterceptionEnabled && nm.protocolRequestInterceptionEnabled then 0 else 1)
      nm
      (Run.final (fun nm arrival => nm.onRequestWillBeSent arrival.2 arrival.1)
        (nm.onFetchRequestPaused blockers cache now systemNow event) later) := by
  have hpaused := nm.onFetchRequestPaused_answered blockers cache now systemNow event
  exact hpaused.trans (onRequestWillBeSent_run_answered _ later)

end NetworkManager

end SpiderChrome
