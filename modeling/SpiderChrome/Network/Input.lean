import SpiderChrome.Network.Decision
import SpiderChrome.Network.Events

/-!
# What reaches a network manager

The events of the `Network` and `Fetch` domains with what is read at the call, the sweep of stale entries, and the switch that blocks everything. A run of a manager takes them in any order.
-/

namespace SpiderChrome

open Network

inductive NetworkInput where
  | requestWillBeSent (now : Instant) (event : EventRequestWillBeSent)
  | requestServedFromCache (requestId : RequestId)
  | responseReceived (event : EventResponseReceived)
  | loadingFinished (requestId : RequestId)
  | loadingFailed (event : EventLoadingFailed)
  | requestPaused (cache : SessionCache) (now systemNow : Instant) (event : EventRequestPaused)
  | authRequired (requestId : Fetch.RequestId)
  | evict (now : Instant)
  | setBlockAll (blockAll : Bool)

namespace NetworkManager

def step (blockers : Blockers) (nm : NetworkManager) : NetworkInput → NetworkManager
  | .requestWillBeSent now event => nm.onRequestWillBeSent now event
  | .requestServedFromCache requestId => nm.onRequestServedFromCache requestId
  | .responseReceived event => nm.onResponseReceived event
  | .loadingFinished requestId => nm.onNetworkLoadingFinished requestId
  | .loadingFailed event => nm.onNetworkLoadingFailed event
  | .requestPaused cache now systemNow event =>
    nm.onFetchRequestPaused blockers cache now systemNow event
  | .authRequired requestId => nm.onFetchAuthRequired requestId
  | .evict now => nm.evictStaleEntries now
  | .setBlockAll blockAll => nm.setBlockAll blockAll

/-! ### What a response does -/

/-- What a response leaves of the budget. -/
def leftBytes (nm : NetworkManager) (event : EventResponseReceived) : Option UInt64 :=
  nm.maxBytesAllowed.map (spendBytes · event)

/-- The part of `on_response_received` that settles the budget. -/
def settle (nm : NetworkManager) (event : EventResponseReceived) : NetworkManager :=
  let left := nm.leftBytes event
  let deducted := saturatingSub (nm.maxBytesAllowed.getD 0) (left.getD 0)
  let nm := { nm with maxBytesAllowed := left }
  let nm := if 0 < deducted then nm.pushEvent (.bytesConsumed deducted) else nm
  if left = some 0 then nm.setBlockAll true else nm

theorem settle_eq (nm : NetworkManager) (event : EventResponseReceived) :
    nm.settle event = { nm with
      maxBytesAllowed := nm.leftBytes event
      blockAll := nm.blockAll || decide (nm.leftBytes event = some 0)
      queuedEvents :=
        if 0 < saturatingSub (nm.maxBytesAllowed.getD 0) ((nm.leftBytes event).getD 0) then
          nm.queuedEvents ++ [.bytesConsumed
            (saturatingSub (nm.maxBytesAllowed.getD 0) ((nm.leftBytes event).getD 0))]
        else nm.queuedEvents } := by
  unfold settle
  by_cases hleft : nm.leftBytes event = some 0
  · simp only [hleft, if_true, decide_true, Bool.or_true]
    split
    · rfl
    · rfl
  · simp only [hleft, if_false, decide_false, Bool.or_false]
    split
    · rfl
    · rfl

theorem onResponseReceived_eq (nm : NetworkManager) (event : EventResponseReceived) :
    nm.onResponseReceived event =
      match nm.requests.get event.requestId with
      | some request =>
        { nm.settle event with requests := nm.requests.remove event.requestId }.pushEvent
          (if nm.leftBytes event = some 0 then .requestFailed (request.setResponse event.response)
          else .requestFinished (request.setResponse event.response))
      | none => nm.settle event := by
  have hrequests : (nm.settle event).requests = nm.requests := by rw [settle_eq]
  rw [← hrequests]
  rfl

/-! ### What the others do -/

theorem onFetchAuthRequired_same (nm : NetworkManager) (requestId : Fetch.RequestId) :
    ∃ attempted command, nm.onFetchAuthRequired requestId =
      { nm with attemptedAuthentications := attempted }.pushCdpRequest command := by
  by_cases hattempted : (⟨requestId.inner⟩ : RequestId) ∈ nm.attemptedAuthentications
  · exact ⟨_, _, if_pos hattempted⟩
  · by_cases hcredentials : nm.credentials.isSome
    · exact ⟨_, _, (if_neg hattempted).trans (if_pos hcredentials)⟩
    · exact ⟨_, _, (if_neg hattempted).trans (if_neg hcredentials)⟩

/-! ### What a pause does -/

theorem answerPaused_eq (nm : NetworkManager) (cache : SessionCache) (systemNow : Instant)
    (event : EventRequestPaused) (replacer : Option String) (skip : Bool) :
    ∃ command, nm.answerPaused cache systemNow event replacer skip = nm.pushCdpRequest command := by
  unfold answerPaused
  split
  · exact ⟨_, rfl⟩
  · split
    · exact ⟨_, rfl⟩
    · cases replacer with
      | none => exact ⟨_, rfl⟩
      | some url => exact ⟨_, rfl⟩

/-- A pause is left to the user, or failed at once, or brought together with its request and answered by one command. -/
theorem onFetchRequestPaused_cases (nm : NetworkManager) (blockers : Blockers)
    (cache : SessionCache) (now systemNow : Instant) (event : EventRequestPaused) :
    ((nm.userRequestInterceptionEnabled && nm.protocolRequestInterceptionEnabled) = true ∧
      nm.onFetchRequestPaused blockers cache now systemNow event = nm) ∨
    ((nm.userRequestInterceptionEnabled && nm.protocolRequestInterceptionEnabled) = false ∧
      nm.blockAll = true ∧ nm.onFetchRequestPaused blockers cache now systemNow event =
        nm.failRequestBlocked event.requestId) ∨
    ((nm.userRequestInterceptionEnabled && nm.protocolRequestInterceptionEnabled) = false ∧
      nm.blockAll = false ∧ ∃ command, nm.onFetchRequestPaused blockers cache now systemNow event =
        ((nm.reconcilePaused now event).tracked event).1.pushCdpRequest command) := by
  cases huser : nm.userRequestInterceptionEnabled && nm.protocolRequestInterceptionEnabled with
  | true => exact .inl ⟨rfl, if_pos huser⟩
  | false =>
    cases hblock : nm.blockAll with
    | true =>
      refine .inr (.inl ⟨rfl, rfl, ?_⟩)
      simp only [onFetchRequestPaused, huser, hblock, Bool.false_eq_true, if_false, if_true]
    | false =>
      refine .inr (.inr ⟨rfl, rfl, ?_⟩)
      rw [nm.onFetchRequestPaused_of_open blockers cache now systemNow event huser hblock]
      exact answerPaused_eq _ _ _ _ _ _

/-! ### What an input leaves alone -/

/-- The document is requested under the url that it already has. -/
def repeatsDocument (nm : NetworkManager) : NetworkInput → Bool
  | .requestPaused _ _ _ event =>
    !(nm.userRequestInterceptionEnabled && nm.protocolRequestInterceptionEnabled) && !nm.blockAll &&
      decide (event.resourceType = .document) && decide (nm.documentTargetUrl = event.request.url)
  | _ => false

/-- The second manager is the first but for its books, the budget with the switch that goes with it, and what is known of the document; and only a repeated document is counted. -/
def SettledBy (nm : NetworkManager) (input : NetworkInput) (nm' : NetworkManager) : Prop :=
  ∃ maxBytesAllowed blockAll xmlDocument documentTargetUrl documentTargetDomain,
    SameSettings { nm with
      maxBytesAllowed := maxBytesAllowed
      blockAll := blockAll
      documentReloadTracker :=
        if nm.repeatsDocument input then nm.documentReloadTracker + 1 else nm.documentReloadTracker
      xmlDocument := xmlDocument
      documentTargetUrl := documentTargetUrl
      documentTargetDomain := documentTargetDomain } nm'

variable {nm nm' : NetworkManager} {input : NetworkInput}

theorem SameSettings.settled (h : SameSettings nm nm') (hrepeats : nm.repeatsDocument input = false) :
    nm.SettledBy input nm' := by
  refine ⟨nm.maxBytesAllowed, nm.blockAll, nm.xmlDocument, nm.documentTargetUrl,
    nm.documentTargetDomain, ?_⟩
  rw [hrepeats]
  exact h

theorem tracked_settled (cache : SessionCache) (now systemNow : Instant) (event : EventRequestPaused)
    (huser : (nm.userRequestInterceptionEnabled && nm.protocolRequestInterceptionEnabled) = false)
    (hblock : nm.blockAll = false) :
    nm.SettledBy (.requestPaused cache now systemNow event) (nm.tracked event).1 := by
  have htracker : (nm.tracked event).1.documentReloadTracker =
      if nm.repeatsDocument (.requestPaused cache now systemNow event) then
        nm.documentReloadTracker + 1
      else nm.documentReloadTracker := by
    simp only [tracked, handleDocumentReplacementAndTracking, repeatsDocument, huser, hblock]
    by_cases hdocument : event.resourceType = .document <;> simp [hdocument]
  have hsame : SameSettings { nm with
      documentReloadTracker := (nm.tracked event).1.documentReloadTracker
      xmlDocument := (nm.tracked event).1.xmlDocument
      documentTargetUrl := (nm.tracked event).1.documentTargetUrl
      documentTargetDomain := (nm.tracked event).1.documentTargetDomain } (nm.tracked event).1 := by
    rw [← tracked_eq]
    exact .refl _
  rw [htracker] at hsame
  exact ⟨nm.maxBytesAllowed, nm.blockAll, (nm.tracked event).1.xmlDocument,
    (nm.tracked event).1.documentTargetUrl, (nm.tracked event).1.documentTargetDomain, hsame⟩

theorem settledBy_step (blockers : Blockers) (nm : NetworkManager) (input : NetworkInput) :
    nm.SettledBy input (nm.step blockers input) := by
  cases input with
  | requestWillBeSent now event =>
    refine SameSettings.settled ?_ rfl
    simp only [step, onRequestWillBeSent]
    split
    · split
      · exact (show SameSettings nm { nm with requestIdToInterceptionId := _ } from rfl).trans
          (sameSettings_onRequest _ now event _)
      · rfl
    · exact sameSettings_onRequest nm now event none
  | responseReceived event =>
    refine ⟨nm.leftBytes event, nm.blockAll || decide (nm.leftBytes event = some 0), nm.xmlDocument,
      nm.documentTargetUrl, nm.documentTargetDomain, ?_⟩
    rw [step, onResponseReceived_eq, settle_eq]
    cases nm.requests.get event.requestId with
    | some request => rfl
    | none => rfl
  | loadingFinished requestId =>
    refine SameSettings.settled ?_ rfl
    simp only [step, onNetworkLoadingFinished]
    split
    · rfl
    · rfl
  | loadingFailed event =>
    refine SameSettings.settled ?_ rfl
    simp only [step, onNetworkLoadingFailed]
    split
    · rfl
    · rfl
  | requestPaused cache now systemNow event =>
    rw [step]
    obtain ⟨huser, heq⟩ | ⟨huser, hblock, heq⟩ | ⟨huser, hblock, command, heq⟩ :=
      nm.onFetchRequestPaused_cases blockers cache now systemNow event
    · rw [heq]
      exact (SameSettings.refl nm).settled (by simp [repeatsDocument, huser])
    · rw [heq]
      exact SameSettings.settled rfl (by simp [repeatsDocument, hblock])
    · obtain ⟨maxBytesAllowed, blockAll, xmlDocument, url, domain, htracked⟩ :=
        nm.tracked_settled cache now systemNow event huser hblock
      have hsame := ((nm.sameSettings_reconcilePaused now event).tracked event).1
      rw [heq]
      exact ⟨maxBytesAllowed, blockAll, xmlDocument, url, domain,
        (htracked.trans hsame).trans (rfl : SameSettings _ (pushCdpRequest _ command))⟩
  | authRequired requestId =>
    obtain ⟨attempted, command, heq⟩ := nm.onFetchAuthRequired_same requestId
    rw [step, heq]
    exact SameSettings.settled rfl rfl
  | requestServedFromCache requestId => exact SameSettings.settled rfl rfl
  | evict now => exact SameSettings.settled rfl rfl
  | setBlockAll blockAll =>
    exact ⟨nm.maxBytesAllowed, blockAll, nm.xmlDocument, nm.documentTargetUrl,
      nm.documentTargetDomain, rfl⟩

theorem credentials_step (blockers : Blockers) (nm : NetworkManager) (input : NetworkInput) :
    (nm.step blockers input).credentials = nm.credentials := by
  obtain ⟨_, _, _, _, _, hsame⟩ := nm.settledBy_step blockers input
  rw [hsame]

theorem user_step (blockers : Blockers) (nm : NetworkManager) (input : NetworkInput) :
    (nm.step blockers input).userRequestInterceptionEnabled = nm.userRequestInterceptionEnabled := by
  obtain ⟨_, _, _, _, _, hsame⟩ := nm.settledBy_step blockers input
  rw [hsame]

theorem protocol_step (blockers : Blockers) (nm : NetworkManager) (input : NetworkInput) :
    (nm.step blockers input).protocolRequestInterceptionEnabled = nm.protocolRequestInterceptionEnabled := by
  obtain ⟨_, _, _, _, _, hsame⟩ := nm.settledBy_step blockers input
  rw [hsame]

theorem tracker_step (blockers : Blockers) (nm : NetworkManager) (input : NetworkInput) :
    (nm.step blockers input).documentReloadTracker =
      if nm.repeatsDocument input then nm.documentReloadTracker + 1
      else nm.documentReloadTracker := by
  obtain ⟨_, _, _, _, _, hsame⟩ := nm.settledBy_step blockers input
  rw [hsame]

end NetworkManager

end SpiderChrome
