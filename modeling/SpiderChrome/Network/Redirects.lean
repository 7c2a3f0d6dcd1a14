import SpiderChrome.Network.Accounts

/-!
# Redirects

A redirect is announced under the id of the request that it replaces. `on_request` takes the entry of that id out of the table, moves its chain into the new entry and appends what is left of it, so a request carries the hops before it as a flat list. With interception a hop is held back until its pause arrives, and the table is not touched before.

The cap reads the length of that list. Going over it removes the entry, and with it the list.
-/

namespace SpiderChrome

open Network

/-- What `on_request` is called with. -/
structure Announcement where
  now : Instant
  event : EventRequestWillBeSent
  interceptionId : Option InterceptionId

/-- The event neither reports a new request nor answers an authentication challenge. -/
def NetworkEvent.isRoutine : NetworkEvent → Bool
  | request _ => false
  | sendCdpRequest (.continueWithAuth _ _ _) => false
  | _ => true

/-- The event reports the request as new. -/
def NetworkEvent.isRequestOf (id : RequestId) : NetworkEvent → Bool
  | request reported => reported = id
  | _ => false

namespace NetworkManager

/-- The announcement that an input hands to `on_request`: one that is not held back, or one that the pause was missing for. -/
def announcement (nm : NetworkManager) : NetworkInput → Option Announcement
  | .requestWillBeSent now event =>
    if nm.protocolRequestInterceptionEnabled ∧ ¬"data:".toList.isPrefixOf event.request.url.toList then
      (nm.requestIdToInterceptionId.get event.requestId).map fun entry => ⟨now, event, some entry.1⟩
    else some ⟨now, event, none⟩
  | .requestPaused _ now _ event =>
    if (nm.userRequestInterceptionEnabled && nm.protocolRequestInterceptionEnabled) || nm.blockAll then
      none
    else (event.networkId.bind nm.requestsWillBeSent.get).map fun entry =>
      ⟨now, entry.1, some event.requestId.toInterceptionId⟩
  | _ => none

variable {nm nm' : NetworkManager} {input : NetworkInput} {announced : Announcement}

/-! ### What `on_request` leaves -/

theorem newRequest_congr (hrequests : nm'.requests = nm.requests)
    (huser : nm'.userRequestInterceptionEnabled = nm.userRequestInterceptionEnabled) (now : Instant)
    (event : EventRequestWillBeSent) (interceptionId : Option InterceptionId) :
    nm'.newRequest now event interceptionId = nm.newRequest now event interceptionId := by
  rw [newRequest, newRequest, takeRedirectChain_congr hrequests, huser]

/-- The request goes over the cap on redirects. -/
def overtops (nm : NetworkManager) (event : EventRequestWillBeSent) : Bool :=
  nm.exceedsMaxRedirects event (nm.takeRedirectChain event).2

theorem overtops_congr (hrequests : nm'.requests = nm.requests)
    (hcap : nm'.maxRedirects = nm.maxRedirects) (event : EventRequestWillBeSent) :
    nm'.overtops event = nm.overtops event := by
  rw [overtops, overtops, takeRedirectChain_congr hrequests, exceedsMaxRedirects,
    exceedsMaxRedirects, hcap]

/-- A chain is only over a cap if there was an entry to take it from. -/
theorem tracked_of_overtops {event : EventRequestWillBeSent} (h : nm.overtops event = true) :
    event.redirectResponse.isSome = true ∧ (nm.requests.get event.requestId).isSome = true := by
  cases hresponse : event.redirectResponse with
  | none =>
    simp only [overtops, exceedsMaxRedirects, takeRedirectChain, hresponse] at h
    split at h <;> simp at h
  | some response =>
    cases hget : nm.requests.get event.requestId with
    | none =>
      simp only [overtops, exceedsMaxRedirects, takeRedirectChain, hresponse, hget] at h
      split at h <;> simp at h
    | some request => exact ⟨rfl, rfl⟩

theorem requests_onRequest (nm : NetworkManager) (now : Instant) (event : EventRequestWillBeSent)
    (interceptionId : Option InterceptionId) (id : RequestId) :
    (nm.onRequest now event interceptionId).requests.get id =
      if event.requestId = id then
        if nm.overtops event then none else some (nm.newRequest now event interceptionId)
      else nm.requests.get id := by
  obtain ⟨attempted, htaken⟩ := nm.takeRedirectChain_eq event
  have htable : ∀ id, event.requestId ≠ id →
      (nm.takeRedirectChain event).1.requests.get id = nm.requests.get id := by
    intro id hid
    rw [htaken]
    dsimp only
    split
    · exact Table.get_remove_of_ne _ (Ne.symm hid)
    · rfl
  rw [onRequest_eq, show nm.exceedsMaxRedirects event (nm.newRequest now event interceptionId).redirectChain =
    nm.overtops event from rfl]
  cases hover : nm.overtops event with
  | true =>
    by_cases hid : event.requestId = id
    · subst hid
      show (nm.takeRedirectChain event).1.requests.get event.requestId = _
      rw [htaken]
      simp only [(tracked_of_overtops hover).1, if_true, Table.get_remove_self]
    · rw [if_neg hid]
      exact htable id hid
  | false =>
    rw [if_neg (by simp)]
    show ((nm.takeRedirectChain event).1.requests.set event.requestId _).get id = _
    rw [Table.get_set]
    by_cases hid : event.requestId = id
    · simp [hid]
    · rw [if_neg (Ne.symm hid), if_neg hid, htable id hid]

/-! ### What an input leaves -/

/-- The managers agree on everything that `on_request` reads or writes. -/
structure SameTables (nm nm' : NetworkManager) : Prop where
  requests : nm'.requests = nm.requests
  attempted : nm'.attemptedAuthentications = nm.attemptedAuthentications
  user : nm'.userRequestInterceptionEnabled = nm.userRequestInterceptionEnabled
  cap : nm'.maxRedirects = nm.maxRedirects
  queued : nm'.queuedEvents = nm.queuedEvents

theorem SameTables.onRequest (h : SameTables nm nm') (announced : Announcement) (id : RequestId) :
    (nm'.onRequest announced.now announced.event announced.interceptionId).requests.get id =
      (nm.onRequest announced.now announced.event announced.interceptionId).requests.get id := by
  rw [requests_onRequest, requests_onRequest, overtops_congr h.requests h.cap,
    newRequest_congr h.requests h.user, h.requests]

/-- An announcement reaches `on_request` with the tables as they were, and at most one command is queued after it. -/
theorem step_of_announcement (blockers : Blockers) (h : nm.announcement input = some announced) :
    ∃ nm', SameTables nm nm' ∧ ∃ answer : List NetworkCommand,
      let after := nm'.onRequest announced.now announced.event announced.interceptionId
      (nm.step blockers input).requests = after.requests ∧
        (nm.step blockers input).attemptedAuthentications = after.attemptedAuthentications ∧
        (nm.step blockers input).queuedEvents =
          after.queuedEvents ++ answer.map NetworkEvent.sendCdpRequest := by
  cases input with
  | requestWillBeSent now event =>
    simp only [announcement] at h
    simp only [step, onRequestWillBeSent]
    split at h
    · rename_i hintercepted
      obtain ⟨⟨interceptionId, paused⟩, hget, heq⟩ := Option.map_eq_some_iff.1 h
      subst heq
      rw [if_pos hintercepted, hget]
      dsimp only
      exact ⟨{ nm with
          requestIdToInterceptionId := nm.requestIdToInterceptionId.remove event.requestId },
        ⟨rfl, rfl, rfl, rfl, rfl⟩, [], rfl, rfl, by rw [List.map_nil, List.append_nil]⟩
    · rename_i hopen
      cases h
      rw [if_neg hopen]
      exact ⟨nm, ⟨rfl, rfl, rfl, rfl, rfl⟩, [], rfl, rfl, by rw [List.map_nil, List.append_nil]⟩
  | requestPaused cache now systemNow event =>
    simp only [announcement] at h
    split at h
    · cases h
    · rename_i hopen
      obtain ⟨huser, hblock⟩ := Bool.or_eq_false_iff.1 (Bool.eq_false_iff.2 hopen)
      obtain ⟨entry, hentry, heq⟩ := Option.map_eq_some_iff.1 h
      subst heq
      obtain ⟨networkId, hnetwork, hget⟩ := Option.bind_eq_some_iff.1 hentry
      obtain ⟨htrue, _⟩ | ⟨_, htrue, _⟩ | ⟨_, _, command, heq⟩ :=
        nm.onFetchRequestPaused_cases blockers cache now systemNow event
      · rw [huser] at htrue
        cases htrue
      · rw [hblock] at htrue
        cases htrue
      · refine ⟨{ nm with requestsWillBeSent := nm.requestsWillBeSent.remove networkId },
          ⟨rfl, rfl, rfl, rfl, rfl⟩, [command], ?_⟩
        simp only [step]
        rw [heq, tracked_eq]
        simp only [reconcilePaused, hnetwork, hget]
        exact ⟨rfl, rfl, rfl⟩
  | _ => cases h

/-- What an input that announces nothing leaves of an entry. -/
def leftEntry (nm : NetworkManager) (id : RequestId) : NetworkInput → Option HttpRequest
  | .requestServedFromCache requestId =>
    if requestId = id then
      (nm.requests.get id).map fun request => { request with fromMemoryCache := true }
    else nm.requests.get id
  | .responseReceived event => if event.requestId = id then none else nm.requests.get id
  | .loadingFinished requestId => if requestId = id then none else nm.requests.get id
  | .loadingFailed event => if event.requestId = id then none else nm.requests.get id
  | .evict now =>
    (nm.requests.get id).filter fun request => now - staleRequest < request.createdAt
  | _ => nm.requests.get id

theorem get_remove_eq {V : Type} (t : Table RequestId V) (x id : RequestId) :
    (t.remove x).get id = if x = id then none else t.get id := by
  rw [Table.get_remove]
  by_cases hid : x = id
  · rw [if_pos hid, if_pos hid.symm]
  · rw [if_neg hid, if_neg (Ne.symm hid)]

/-- A pause that releases nothing leaves the tables alone. -/
theorem onFetchRequestPaused_of_none (blockers : Blockers) (cache : SessionCache)
    (now systemNow : Instant) (event : EventRequestPaused)
    (h : nm.announcement (.requestPaused cache now systemNow event) = none) :
    let after := nm.onFetchRequestPaused blockers cache now systemNow event
    after.requests = nm.requests ∧
      after.attemptedAuthentications = nm.attemptedAuthentications ∧
      after.requestsWillBeSent = nm.requestsWillBeSent := by
  simp only [announcement] at h
  obtain ⟨huser, heq⟩ | ⟨huser, hblock, heq⟩ | ⟨huser, hblock, command, heq⟩ :=
    nm.onFetchRequestPaused_cases blockers cache now systemNow event
  · rw [heq]
    exact ⟨rfl, rfl, rfl⟩
  · rw [heq]
    exact ⟨rfl, rfl, rfl⟩
  · rw [if_neg (by simp [huser, hblock])] at h
    rw [heq, tracked_eq]
    simp only [reconcilePaused]
    cases hnetwork : event.networkId with
    | none => exact ⟨rfl, rfl, rfl⟩
    | some networkId =>
      rw [hnetwork, Option.bind_some, Option.map_eq_none_iff] at h
      simp only [h]
      exact ⟨rfl, rfl, rfl⟩

theorem requests_step_of_none (blockers : Blockers) (h : nm.announcement input = none)
    (id : RequestId) : (nm.step blockers input).requests.get id = nm.leftEntry id input := by
  cases input with
  | requestWillBeSent now event =>
    simp only [announcement] at h
    simp only [step, onRequestWillBeSent]
    split at h
    · rename_i hintercepted
      rw [if_pos hintercepted, Option.map_eq_none_iff.1 h]
      rfl
    · cases h
  | requestServedFromCache requestId =>
    simp only [step, onRequestServedFromCache, leftEntry, Table.get_update]
    by_cases hid : requestId = id
    · rw [if_pos hid, if_pos hid.symm]
    · rw [if_neg hid, if_neg (Ne.symm hid)]
  | responseReceived event =>
    simp only [step, onResponseReceived_eq, leftEntry]
    rw [← get_remove_eq]
    cases hget : nm.requests.get event.requestId with
    | some request => rfl
    | none =>
      rw [Table.remove_of_get_eq_none hget]
      dsimp only
      rw [settle_eq]
  | loadingFinished requestId =>
    simp only [step, onNetworkLoadingFinished, leftEntry]
    rw [← get_remove_eq]
    cases hget : nm.requests.get requestId with
    | some request => rfl
    | none => rw [Table.remove_of_get_eq_none hget]
  | loadingFailed event =>
    simp only [step, onNetworkLoadingFailed, leftEntry]
    rw [← get_remove_eq]
    cases hget : nm.requests.get event.requestId with
    | some request => rfl
    | none => rw [Table.remove_of_get_eq_none hget]
  | requestPaused cache now systemNow event =>
    rw [step, (onFetchRequestPaused_of_none blockers cache now systemNow event h).1]
    rfl
  | authRequired requestId =>
    obtain ⟨attempted, command, heq⟩ := nm.onFetchAuthRequired_same requestId
    rw [step, heq]
    rfl
  | evict now => exact Table.get_retain _ _ _
  | setBlockAll blockAll => rfl

/-- The entry of an id after an input. -/
theorem requests_step (blockers : Blockers) (nm : NetworkManager) (input : NetworkInput)
    (id : RequestId) : (nm.step blockers input).requests.get id =
      match nm.announcement input with
      | some announced =>
        if announced.event.requestId = id then
          if nm.overtops announced.event then none
          else some (nm.newRequest announced.now announced.event announced.interceptionId)
        else nm.requests.get id
      | none => nm.leftEntry id input := by
  cases h : nm.announcement input with
  | none => exact requests_step_of_none blockers h id
  | some announced =>
    obtain ⟨nm', hsame, answer, hrequests, _, _⟩ := step_of_announcement blockers h
    rw [hrequests, hsame.onRequest, requests_onRequest]

/-! ### What an input queues -/

/-- How an authentication challenge is answered. -/
def challengeAnswer (nm : NetworkManager) (requestId : Fetch.RequestId) :
    AuthChallengeResponseResponse :=
  if (⟨requestId.inner⟩ : RequestId) ∈ nm.attemptedAuthentications then .cancelAuth
  else if nm.credentials.isSome then .provideCredentials
  else .default

/-- The new request that an input reports. -/
def reported (nm : NetworkManager) (input : NetworkInput) : Option NetworkEvent :=
  (nm.announcement input).bind fun announced =>
    if nm.overtops announced.event then none else some (.request announced.event.requestId)

/-- The answer to a challenge. -/
def challenged (nm : NetworkManager) : NetworkInput → Option NetworkEvent
  | .authRequired requestId =>
    some (.sendCdpRequest (.continueWithAuth requestId (nm.challengeAnswer requestId) nm.credentials))
  | _ => none

/-- The event of an input that is not routine. -/
def marked (nm : NetworkManager) (input : NetworkInput) : Option NetworkEvent :=
  (nm.reported input).or (nm.challenged input)

/-- The queue of the second manager continues that of the first, and what is new is routine but for one event. -/
def Queues (event : Option NetworkEvent) (nm nm' : NetworkManager) : Prop :=
  ∃ first last, nm'.queuedEvents = nm.queuedEvents ++ (first ++ event.toList ++ last) ∧
    ∀ routine ∈ first ++ last, routine.isRoutine = true

variable {event : Option NetworkEvent}

theorem queues_none (h : nm'.queuedEvents = nm.queuedEvents) : Queues none nm nm' :=
  ⟨[], [], by simp [h], by simp⟩

theorem Queues.push (h : Queues event nm nm') {routine : NetworkEvent}
    (hroutine : routine.isRoutine = true) : Queues event nm (nm'.pushEvent routine) := by
  obtain ⟨first, last, hqueued, hall⟩ := h
  refine ⟨first, last ++ [routine], ?_, ?_⟩
  · rw [pushEvent, hqueued]
    simp only [List.append_assoc]
  · simpa [← List.append_assoc, or_imp, forall_and, hroutine] using hall

theorem Queues.mark (h : Queues none nm nm') (marked : NetworkEvent) :
    Queues (some marked) nm (nm'.pushEvent marked) := by
  obtain ⟨first, last, hqueued, hall⟩ := h
  refine ⟨first ++ last, [], ?_, by simpa using hall⟩
  rw [pushEvent, hqueued]
  simp

theorem Queues.of_same {nm'' : NetworkManager} (h : Queues event nm nm')
    (hqueued : nm''.queuedEvents = nm'.queuedEvents) : Queues event nm nm'' := by
  rw [Queues, hqueued]
  exact h

theorem SameTables.queues (h : SameTables nm nm') (now : Instant) (event : EventRequestWillBeSent)
    (interceptionId : Option InterceptionId) :
    Queues (if nm.overtops event then none else some (.request event.requestId)) nm
      (nm'.onRequest now event interceptionId) := by
  have htaken : Queues none nm (nm'.takeRedirectChain event).1 :=
    queues_none ((nm'.takeRedirectChain_queuedEvents event).trans h.queued)
  rw [onRequest_eq, show nm'.exceedsMaxRedirects event (nm'.newRequest now event interceptionId).redirectChain =
    nm'.overtops event from rfl, overtops_congr h.requests h.cap]
  cases nm.overtops event with
  | true =>
    have hstop : (NetworkEvent.sendCdpRequest .stopLoading).isRoutine = true := rfl
    exact (htaken.push hstop).push rfl
  | false => exact htaken.mark (.request event.requestId)

theorem queues_settle (nm : NetworkManager) (event : EventResponseReceived) :
    Queues none nm (nm.settle event) := by
  have hsettled := nm.settle_eq event
  rw [hsettled]
  split
  · have hempty : Queues none nm nm := queues_none rfl
    have hconsumed : ∀ bytes, (NetworkEvent.bytesConsumed bytes).isRoutine = true := fun _ => rfl
    exact (hempty.push (hconsumed _)).of_same rfl
  · exact queues_none rfl

theorem queues_reconcilePaused (nm : NetworkManager) (now : Instant) (event : EventRequestPaused) :
    Queues ((event.networkId.bind nm.requestsWillBeSent.get).bind fun entry =>
      if nm.overtops entry.1 then none else some (.request entry.1.requestId)) nm
      (nm.reconcilePaused now event) := by
  unfold reconcilePaused
  cases event.networkId with
  | none => exact queues_none rfl
  | some networkId =>
    simp only [Option.bind_some]
    cases nm.requestsWillBeSent.get networkId with
    | none => exact queues_none rfl
    | some entry =>
      have hsame : SameTables nm
          { nm with requestsWillBeSent := nm.requestsWillBeSent.remove networkId } :=
        ⟨rfl, rfl, rfl, rfl, rfl⟩
      exact hsame.queues now entry.1 _

theorem answers_isRoutine {requestId : Fetch.RequestId} {command : NetworkCommand}
    (h : command.answers requestId = true) :
    (NetworkEvent.sendCdpRequest command).isRoutine = true := by
  cases command with
  | continueWithAuth requestId response credentials => cases h
  | _ => rfl

theorem answerPaused_push (nm : NetworkManager) (cache : SessionCache) (systemNow : Instant)
    (event : EventRequestPaused) (replacer : Option String) (skip : Bool) :
    ∃ command, command.answers event.requestId = true ∧
      nm.answerPaused cache systemNow event replacer skip = nm.pushCdpRequest command := by
  obtain ⟨command, heq⟩ := nm.answerPaused_eq cache systemNow event replacer skip
  obtain ⟨added, hadded, hcount⟩ := nm.answerPaused_answered cache systemNow event replacer skip
  refine ⟨command, ?_, heq⟩
  rw [heq] at hadded
  obtain rfl := List.append_cancel_left hadded
  rw [List.countP_singleton] at hcount
  by_contra hno
  rw [if_neg (show ¬(NetworkEvent.sendCdpRequest command).answers event.requestId = true from hno)]
    at hcount
  cases hcount

/-- Every input queues routine events and at most one other. -/
theorem queues_step (blockers : Blockers) (nm : NetworkManager) (input : NetworkInput) :
    Queues (nm.marked input) nm (nm.step blockers input) := by
  cases input with
  | requestWillBeSent now event =>
    simp only [step, onRequestWillBeSent, marked, reported, challenged, announcement, Option.or_none]
    split
    · cases nm.requestIdToInterceptionId.get event.requestId with
      | some paused =>
        have hsame : SameTables nm { nm with
            requestIdToInterceptionId := nm.requestIdToInterceptionId.remove event.requestId } :=
          ⟨rfl, rfl, rfl, rfl, rfl⟩
        exact hsame.queues now event _
      | none => exact queues_none rfl
    · have hsame : SameTables nm nm := ⟨rfl, rfl, rfl, rfl, rfl⟩
      exact hsame.queues now event none
  | requestServedFromCache requestId => exact queues_none rfl
  | responseReceived event =>
    rw [step, onResponseReceived_eq]
    split
    · have hremoved : Queues none nm
          { nm.settle event with requests := nm.requests.remove event.requestId } :=
        (nm.queues_settle event).of_same rfl
      refine hremoved.push ?_
      split
      · rfl
      · rfl
    · exact nm.queues_settle event
  | loadingFinished requestId =>
    simp only [step, onNetworkLoadingFinished]
    split
    · exact (queues_none rfl).push rfl
    · exact queues_none rfl
  | loadingFailed event =>
    simp only [step, onNetworkLoadingFailed]
    split
    · exact (queues_none rfl).push rfl
    · exact queues_none rfl
  | requestPaused cache now systemNow event =>
    rw [step, marked, reported, show nm.challenged (.requestPaused cache now systemNow event) = none from rfl,
      Option.or_none]
    cases huser : nm.userRequestInterceptionEnabled && nm.protocolRequestInterceptionEnabled with
    | true =>
      simp only [onFetchRequestPaused, announcement, huser, Bool.true_or, if_true]
      exact queues_none rfl
    | false =>
      cases hblock : nm.blockAll with
      | true =>
        simp only [onFetchRequestPaused, announcement, huser, hblock, Bool.or_true, if_true]
        exact (queues_none rfl).push rfl
      | false =>
        obtain ⟨command, hanswers, heq⟩ := ((nm.reconcilePaused now event).tracked event).1.answerPaused_push
          cache systemNow event (nm.tracked event).2 (nm.decision blockers event)
        rw [nm.onFetchRequestPaused_of_open blockers cache now systemNow event huser hblock, heq,
          tracked_eq]
        simp only [announcement, huser, hblock, Bool.or_false, Bool.false_eq_true, if_false,
          Option.bind_map]
        exact ((nm.queues_reconcilePaused now event).of_same rfl).push (answers_isRoutine hanswers)
  | authRequired requestId =>
    simp only [step, onFetchAuthRequired, marked, reported, challenged, challengeAnswer, announcement,
      Option.bind_none, Option.none_or]
    split
    · exact (queues_none rfl).mark _
    · split
      · have hattempted : ∀ attempts, Queues none nm { nm with attemptedAuthentications := attempts } :=
          fun _ => queues_none rfl
        exact (hattempted _).mark _
      · exact (queues_none rfl).mark _
  | evict now => exact queues_none rfl
  | setBlockAll blockAll => exact queues_none rfl

/-- How often a request was reported as new. -/
def requestEvents (nm : NetworkManager) (id : RequestId) : Nat :=
  nm.queuedEvents.countP (NetworkEvent.isRequestOf id)

theorem Queues.requestEvents (h : Queues event nm nm') (id : RequestId) :
    nm'.requestEvents id = nm.requestEvents id + event.toList.countP (NetworkEvent.isRequestOf id) := by
  obtain ⟨first, last, hqueued, hall⟩ := h
  have hroutine : ∀ routine ∈ first ++ last, ¬routine.isRequestOf id = true := by
    intro routine hmem
    have hroutine := hall routine hmem
    cases routine with
    | request id => cases hroutine
    | _ => exact Bool.false_ne_true
  have hnone := List.countP_eq_zero.2 hroutine
  rw [List.countP_append] at hnone
  simp only [NetworkManager.requestEvents, hqueued, List.countP_append]
  omega

theorem requestEvents_step (blockers : Blockers) (nm : NetworkManager) (input : NetworkInput)
    (id : RequestId) : (nm.step blockers input).requestEvents id = nm.requestEvents id +
      match nm.announcement input with
      | some announced =>
        if announced.event.requestId = id ∧ nm.overtops announced.event = false then 1 else 0
      | none => 0 := by
  rw [(nm.queues_step blockers input).requestEvents id, marked, reported]
  cases hannounced : nm.announcement input with
  | none =>
    cases input with
    | authRequired requestId => rfl
    | _ => rfl
  | some announced =>
    have hunchallenged : nm.challenged input = none := by
      cases input with
      | authRequired requestId => cases hannounced
      | _ => rfl
    rw [hunchallenged, Option.bind_some, Option.or_none]
    cases hover : nm.overtops announced.event with
    | true => simp [hover]
    | false => simp [hover, List.countP_cons, NetworkEvent.isRequestOf]

/-! ### The chain -/

/-- The response of a redirect as it is kept: its `Location` is written back without the url that it is relative to. -/
def keptResponse (response : Network.Response) : Network.Response :=
  setLocation (fixedLocation response) response

/-- What is kept of a hop, given the announcement of the hop after it. -/
structure HopRecord (id : RequestId) (hop next : EventRequestWillBeSent) (entry : HttpRequest) :
    Prop where
  requestId : entry.requestId = id
  frame : entry.frame = hop.frameId
  response : entry.response = next.redirectResponse.map keptResponse
  redirectChain : entry.redirectChain = []

/-- The entry of the last of some hops: its chain keeps the hops before it, in order. -/
structure Tracks (id : RequestId) (hops : List EventRequestWillBeSent) (request : HttpRequest) :
    Prop where
  requestId : request.requestId = id
  frame : hops.getLast?.map EventRequestWillBeSent.frameId = some request.frame
  chain : List.Forall₂ (fun hop entry => HopRecord id hop.1 hop.2 entry) (hops.zip hops.tail)
    request.redirectChain

/-- The entry is that of the last hop, and there is none before the first. -/
def TracksLast (id : RequestId) (hops : List EventRequestWillBeSent) : Option HttpRequest → Prop
  | none => hops = []
  | some request => Tracks id hops request

theorem zip_tail_concat {α : Type} (items : List α) (last next : α) :
    (items ++ [last, next]).zip (items ++ [last, next]).tail =
      (items ++ [last]).zip (items ++ [last]).tail ++ [(last, next)] := by
  induction items with
  | nil => rfl
  | cons first rest ih =>
    cases rest with
    | nil => rfl
    | cons second rest =>
      simp only [List.cons_append, List.tail_cons, List.zip_cons_cons] at ih ⊢
      rw [ih]

theorem Tracks.length {id : RequestId} {hops : List EventRequestWillBeSent} {request : HttpRequest}
    (h : Tracks id hops request) : request.redirectChain.length + 1 = hops.length := by
  have hlength := h.chain.length_eq
  have hne : hops ≠ [] := by
    rintro rfl
    cases h.frame
  have hpos := List.length_pos_iff.2 hne
  rw [List.length_zip, List.length_tail] at hlength
  omega

theorem TracksLast.served {id : RequestId} {hops : List EventRequestWillBeSent}
    {entry : Option HttpRequest} (h : TracksLast id hops entry) :
    TracksLast id hops (entry.map fun request => { request with fromMemoryCache := true }) := by
  cases entry with
  | none => exact h
  | some request => exact ⟨h.requestId, h.frame, h.chain⟩

/-- The step of the induction: the next hop takes the chain over and appends the last one. -/
theorem TracksLast.next {id : RequestId} {hops : List EventRequestWillBeSent}
    (h : TracksLast id hops (nm.requests.get id)) {event : EventRequestWillBeSent}
    (hid : event.requestId = id)
    (hredirect : (nm.requests.get id).isSome = true → event.redirectResponse.isSome = true)
    (now : Instant) (interceptionId : Option InterceptionId) :
    Tracks id (hops ++ [event]) (nm.newRequest now event interceptionId) := by
  refine ⟨hid, by simp [newRequest, HttpRequest.new], ?_⟩
  show List.Forall₂ _ _ (nm.takeRedirectChain event).2
  subst hid
  cases hget : nm.requests.get event.requestId with
  | none =>
    rw [hget] at h
    rw [show hops = [] from h]
    have hchain : (nm.takeRedirectChain event).2 = [] := by
      unfold takeRedirectChain
      cases event.redirectResponse with
      | none => rfl
      | some response => simp only [hget]
    rw [hchain]
    exact List.Forall₂.nil
  | some request =>
    rw [hget] at h hredirect
    obtain ⟨hrequestId, hframe, hchain⟩ := h
    obtain ⟨response, hresponse⟩ := Option.isSome_iff_exists.1 (hredirect rfl)
    obtain ⟨last, hlast, hlastFrame⟩ := Option.map_eq_some_iff.1 hframe
    obtain ⟨earlier, rfl⟩ := List.getLast?_eq_some_iff.1 hlast
    rw [List.append_assoc, List.singleton_append, zip_tail_concat]
    simp only [takeRedirectChain, hresponse, hget, handleRequestRedirect, HttpRequest.setResponse]
    refine List.rel_append hchain (List.Forall₂.cons ?_ List.Forall₂.nil)
    exact ⟨hrequestId, hlastFrame.symm, by rw [hresponse]; rfl, rfl⟩

/-! ### The buffer -/

theorem requestsWillBeSent_onRequest (nm : NetworkManager) (now : Instant)
    (event : EventRequestWillBeSent) (interceptionId : Option InterceptionId) :
    (nm.onRequest now event interceptionId).requestsWillBeSent = nm.requestsWillBeSent := by
  obtain ⟨attempted, htaken⟩ := nm.takeRedirectChain_eq event
  have hbuffer : (nm.takeRedirectChain event).1.requestsWillBeSent = nm.requestsWillBeSent := by
    rw [htaken]
  rw [onRequest_eq]
  split
  · exact hbuffer
  · exact hbuffer

/-- What an input leaves in the buffer. -/
def leftBuffer (nm : NetworkManager) :
    NetworkInput → Table RequestId (EventRequestWillBeSent × Instant)
  | .requestWillBeSent now event =>
    match nm.announcement (.requestWillBeSent now event) with
    | some _ => nm.requestsWillBeSent
    | none => nm.requestsWillBeSent.set event.requestId (event, now)
  | .requestPaused cache now systemNow event =>
    match nm.announcement (.requestPaused cache now systemNow event), event.networkId with
    | some _, some networkId => nm.requestsWillBeSent.remove networkId
    | _, _ => nm.requestsWillBeSent
  | .evict now => nm.requestsWillBeSent.retain fun _ entry => now - staleBuffer < entry.2
  | _ => nm.requestsWillBeSent

theorem requestsWillBeSent_step (blockers : Blockers) (nm : NetworkManager) (input : NetworkInput) :
    (nm.step blockers input).requestsWillBeSent = nm.leftBuffer input := by
  cases input with
  | requestWillBeSent now event =>
    simp only [step, onRequestWillBeSent, leftBuffer, announcement]
    split
    · cases nm.requestIdToInterceptionId.get event.requestId with
      | some paused => exact requestsWillBeSent_onRequest _ now event _
      | none => rfl
    · exact requestsWillBeSent_onRequest nm now event none
  | requestPaused cache now systemNow event =>
    obtain ⟨huser, heq⟩ | ⟨huser, hblock, heq⟩ | ⟨huser, hblock, command, heq⟩ :=
      nm.onFetchRequestPaused_cases blockers cache now systemNow event
    · simp only [step, heq, leftBuffer, announcement, huser, Bool.true_or, if_true]
    · simp only [step, heq, leftBuffer, announcement, huser, hblock, Bool.or_true, if_true]
      rfl
    · rw [step, heq, tracked_eq]
      simp only [leftBuffer, announcement, huser, hblock, Bool.or_false, Bool.false_eq_true, if_false,
        reconcilePaused]
      cases event.networkId with
      | none => rfl
      | some networkId =>
        simp only [Option.bind_some]
        cases nm.requestsWillBeSent.get networkId with
        | none => rfl
        | some entry => exact requestsWillBeSent_onRequest _ now entry.1 _
  | responseReceived event =>
    rw [step, onResponseReceived_eq, settle_eq]
    split
    · rfl
    · rfl
  | loadingFinished requestId =>
    simp only [step, onNetworkLoadingFinished]
    split
    · rfl
    · rfl
  | loadingFailed event =>
    simp only [step, onNetworkLoadingFailed]
    split
    · rfl
    · rfl
  | authRequired requestId =>
    obtain ⟨attempted, command, heq⟩ := nm.onFetchAuthRequired_same requestId
    rw [step, heq]
    rfl
  | _ => rfl

/-! ### A sequence of hops -/

/-- The announcement of a request, if the input is one. -/
def sentFor (id : RequestId) : NetworkInput → Option EventRequestWillBeSent
  | .requestWillBeSent _ event => if event.requestId = id then some event else none
  | _ => none

/-- The hops of a request, in the order in which they are announced. -/
def hopsOf (id : RequestId) (inputs : List NetworkInput) : List EventRequestWillBeSent :=
  inputs.filterMap (sentFor id)

/-- The hops that reached `on_request`: all of them, but for the last while it is held back. -/
def takenHops (id : RequestId) (hops : List EventRequestWillBeSent) (nm : NetworkManager) :
    List EventRequestWillBeSent :=
  if (nm.requestsWillBeSent.get id).isSome then hops.dropLast else hops

/-- Nothing is known of the request. -/
structure Unknown (id : RequestId) (nm : NetworkManager) : Prop where
  requests : nm.requests.get id = none
  buffer : nm.requestsWillBeSent.get id = none
  others : ∀ key entry, nm.requestsWillBeSent.get key = some entry → entry.1.requestId ≠ id

/-- The input is no end of the request: it is not answered, finished, failed or swept away, goes over no cap, and is announced again only as a redirect, and not while the hop before is held back. -/
def Undisturbed (id : RequestId) (nm : NetworkManager) (input : NetworkInput) : Prop :=
  (match input with
    | .requestWillBeSent _ event => event.requestId = id →
      nm.requestsWillBeSent.get id = none ∧
        ((nm.requests.get id).isSome = true → event.redirectResponse.isSome = true)
    | .responseReceived event => event.requestId ≠ id
    | .loadingFinished requestId => requestId ≠ id
    | .loadingFailed event => event.requestId ≠ id
    | .evict now =>
      (∀ request, nm.requests.get id = some request → now - staleRequest < request.createdAt) ∧
        ∀ entry, nm.requestsWillBeSent.get id = some entry → now - staleBuffer < entry.2
    | _ => True) ∧
  ∀ announced, nm.announcement input = some announced → announced.event.requestId = id →
    nm.overtops announced.event = false

/-- What a manager knows of a request after some hops of it. -/
structure Trail (id : RequestId) (hops : List EventRequestWillBeSent) (nm : NetworkManager) :
    Prop where
  key : ∀ key entry, nm.requestsWillBeSent.get key = some entry → entry.1.requestId = id → key = id
  held : ∀ entry, nm.requestsWillBeSent.get id = some entry →
    entry.1.requestId = id ∧ hops.getLast? = some entry.1 ∧
      ((nm.requests.get id).isSome = true → entry.1.redirectResponse.isSome = true)
  entry : TracksLast id (takenHops id hops nm) (nm.requests.get id)

variable {id : RequestId} {hops : List EventRequestWillBeSent}

theorem Unknown.trail (h : Unknown id nm) : Trail id [] nm where
  key key entry hget hid := absurd hid (h.others key entry hget)
  held entry hget := by
    rw [h.buffer] at hget
    cases hget
  entry := by
    rw [h.requests, takenHops, h.buffer]
    rfl

theorem Trail.of_same (h : Trail id hops nm)
    (hbuffer : ∀ key entry, nm'.requestsWillBeSent.get key = some entry →
      nm.requestsWillBeSent.get key = some entry)
    (hheld : nm'.requestsWillBeSent.get id = nm.requestsWillBeSent.get id)
    (hrequests : nm'.requests.get id = nm.requests.get id) : Trail id hops nm' where
  key key entry hget := h.key key entry (hbuffer key entry hget)
  held entry hget := by
    rw [hrequests]
    exact h.held entry (hheld ▸ hget)
  entry := by
    rw [hrequests, takenHops, hheld]
    exact h.entry

theorem Trail.served (h : Trail id hops nm) (hbuffer : nm'.requestsWillBeSent = nm.requestsWillBeSent)
    (hrequests : nm'.requests.get id =
      (nm.requests.get id).map fun request => { request with fromMemoryCache := true }) :
    Trail id hops nm' where
  key := by
    rw [hbuffer]
    exact h.key
  held := by
    rw [hbuffer, hrequests, Option.isSome_map]
    exact h.held
  entry := by
    rw [hrequests, takenHops, hbuffer]
    exact h.entry.served

/-- A hop is announced and reaches `on_request` at once. -/
theorem Trail.announce (h : Trail id hops nm) {event : EventRequestWillBeSent}
    (hid : event.requestId = id) (hfree : nm.requestsWillBeSent.get id = none)
    (hredirect : (nm.requests.get id).isSome = true → event.redirectResponse.isSome = true)
    {now : Instant} {interceptionId : Option InterceptionId}
    (hbuffer : nm'.requestsWillBeSent = nm.requestsWillBeSent)
    (hrequests : nm'.requests.get id = some (nm.newRequest now event interceptionId)) :
    Trail id (hops ++ [event]) nm' where
  key := by
    rw [hbuffer]
    exact h.key
  held entry hget := by
    rw [hbuffer, hfree] at hget
    cases hget
  entry := by
    have hentry := h.entry
    rw [takenHops, hfree] at hentry
    rw [hrequests, takenHops, hbuffer, hfree]
    exact TracksLast.next hentry hid hredirect now interceptionId

/-- A hop is announced and held back. -/
theorem Trail.hold (h : Trail id hops nm) {event : EventRequestWillBeSent}
    (hid : event.requestId = id) (hfree : nm.requestsWillBeSent.get id = none)
    (hredirect : (nm.requests.get id).isSome = true → event.redirectResponse.isSome = true)
    {now : Instant} (hbuffer : nm'.requestsWillBeSent = nm.requestsWillBeSent.set id (event, now))
    (hrequests : nm'.requests.get id = nm.requests.get id) : Trail id (hops ++ [event]) nm' where
  key key entry hget hentry := by
    rw [hbuffer, Table.get_set] at hget
    split at hget
    · assumption
    · exact h.key key entry hget hentry
  held entry hget := by
    rw [hbuffer, Table.get_set_self] at hget
    cases hget
    rw [hrequests]
    exact ⟨hid, List.getLast?_concat, hredirect⟩
  entry := by
    have hentry := h.entry
    rw [takenHops, hfree] at hentry
    rw [hrequests, takenHops, hbuffer, Table.get_set_self]
    simpa using hentry

/-- The hop that was held back reaches `on_request` with its pause. -/
theorem Trail.release (h : Trail id hops nm) {entry : EventRequestWillBeSent × Instant}
    (hheld : nm.requestsWillBeSent.get id = some entry) {now : Instant}
    {interceptionId : Option InterceptionId}
    (hbuffer : nm'.requestsWillBeSent = nm.requestsWillBeSent.remove id)
    (hrequests : nm'.requests.get id = some (nm.newRequest now entry.1 interceptionId)) :
    Trail id hops nm' where
  key key entry hget hentry := by
    rw [hbuffer] at hget
    exact h.key key entry (Table.remove_sub _ _ _ _ hget) hentry
  held entry hget := by
    rw [hbuffer, Table.get_remove_self] at hget
    cases hget
  entry := by
    obtain ⟨hid, hlast, hredirect⟩ := h.held entry hheld
    obtain ⟨earlier, rfl⟩ := List.getLast?_eq_some_iff.1 hlast
    have hentry := h.entry
    rw [takenHops, hheld, Option.isSome_some, if_pos rfl, List.dropLast_concat] at hentry
    rw [hrequests, takenHops, hbuffer, Table.get_remove_self]
    exact TracksLast.next hentry hid hredirect now interceptionId

theorem Trail.step_requestWillBeSent (h : Trail id hops nm) (blockers : Blockers) {now : Instant}
    {event : EventRequestWillBeSent}
    (hguard : Undisturbed id nm (.requestWillBeSent now event)) :
    Trail id (hops ++ (sentFor id (.requestWillBeSent now event)).toList)
      (nm.step blockers (.requestWillBeSent now event)) := by
  have hrequests := requests_step blockers nm (.requestWillBeSent now event) id
  have hbuffer := requestsWillBeSent_step blockers nm (.requestWillBeSent now event)
  obtain ⟨hsent, hcap⟩ := hguard
  have hevent : ∀ announced, nm.announcement (.requestWillBeSent now event) = some announced →
      announced.event = event := by
    intro announced hannounced
    simp only [announcement] at hannounced
    split at hannounced
    · obtain ⟨entry, _, rfl⟩ := Option.map_eq_some_iff.1 hannounced
      rfl
    · cases hannounced
      rfl
  by_cases hid : event.requestId = id
  · obtain ⟨hfree, hredirect⟩ := hsent hid
    rw [sentFor, if_pos hid, Option.toList_some]
    cases hannounced : nm.announcement (.requestWillBeSent now event) with
    | none =>
      simp only [leftBuffer, hannounced] at hbuffer
      simp only [hannounced, leftEntry] at hrequests
      exact h.hold hid hfree hredirect (hid ▸ hbuffer) hrequests
    | some announced =>
      have hover := hcap announced hannounced (hevent announced hannounced ▸ hid)
      simp only [leftBuffer, hannounced] at hbuffer
      rw [hevent announced hannounced] at hover
      simp only [hannounced, hover, hevent announced hannounced, hid, if_true] at hrequests
      exact h.announce hid hfree hredirect hbuffer hrequests
  · rw [sentFor, if_neg hid, Option.toList_none, List.append_nil]
    cases hannounced : nm.announcement (.requestWillBeSent now event) with
    | none =>
      simp only [leftBuffer, hannounced] at hbuffer
      simp only [hannounced, leftEntry] at hrequests
      -- The buffer gets an entry for another request.
      refine ⟨fun key entry hget hentry => ?_, fun entry hget => ?_, ?_⟩
      · rw [hbuffer, Table.get_set] at hget
        split at hget
        · cases hget
          exact absurd hentry hid
        · exact h.key key entry hget hentry
      · rw [hbuffer, Table.get_set_of_ne _ _ (Ne.symm hid)] at hget
        rw [hrequests]
        exact h.held entry hget
      · rw [hrequests, takenHops, hbuffer, Table.get_set_of_ne _ _ (Ne.symm hid)]
        exact h.entry
    | some announced =>
      simp only [leftBuffer, hannounced] at hbuffer
      simp only [hannounced, hevent announced hannounced, hid, if_false] at hrequests
      exact h.of_same (fun _ _ hget => hbuffer ▸ hget) (by rw [hbuffer]) hrequests

theorem Trail.step_requestPaused (h : Trail id hops nm) (blockers : Blockers) {cache : SessionCache}
    {now systemNow : Instant} {event : EventRequestPaused}
    (hguard : Undisturbed id nm (.requestPaused cache now systemNow event)) :
    Trail id hops (nm.step blockers (.requestPaused cache now systemNow event)) := by
  have hrequests := requests_step blockers nm (.requestPaused cache now systemNow event) id
  have hbuffer := requestsWillBeSent_step blockers nm (.requestPaused cache now systemNow event)
  cases hannounced : nm.announcement (.requestPaused cache now systemNow event) with
  | none =>
    simp only [leftBuffer, hannounced] at hbuffer
    simp only [hannounced, leftEntry] at hrequests
    exact h.of_same (fun _ _ hget => hbuffer ▸ hget) (by rw [hbuffer]) hrequests
  | some announced =>
    have hover := hguard.2 announced hannounced
    have hopen := hannounced
    simp only [announcement] at hopen
    split at hopen
    · cases hopen
    · obtain ⟨entry, hentry, rfl⟩ := Option.map_eq_some_iff.1 hopen
      obtain ⟨networkId, hnetwork, hget⟩ := Option.bind_eq_some_iff.1 hentry
      simp only [leftBuffer, hannounced, hnetwork] at hbuffer
      simp only [hannounced] at hrequests hover
      by_cases hid : entry.1.requestId = id
      · obtain rfl : networkId = id := h.key networkId entry hget hid
        simp only [hid, hover hid, if_true] at hrequests
        exact h.release hget hbuffer hrequests
      · have hne : networkId ≠ id := by
          rintro rfl
          exact hid (h.held entry hget).1
        simp only [hid, if_false] at hrequests
        refine h.of_same (fun key entry hget => ?_) ?_ hrequests
        · rw [hbuffer] at hget
          exact Table.remove_sub _ _ _ _ hget
        · rw [hbuffer, Table.get_remove_of_ne _ hne.symm]

theorem filter_eq_self {α : Type} {entry : Option α} {keep : α → Bool}
    (h : ∀ a, entry = some a → keep a = true) : entry.filter keep = entry := by
  cases entry with
  | none => rfl
  | some a => rw [Option.filter_some, if_pos (h a rfl)]

theorem Trail.step (h : Trail id hops nm) (blockers : Blockers) (hguard : Undisturbed id nm input) :
    Trail id (hops ++ (sentFor id input).toList) (nm.step blockers input) := by
  have hrequests := requests_step blockers nm input id
  have hbuffer := requestsWillBeSent_step blockers nm input
  have hquiet : ∀ (_ : nm.announcement input = none) (_ : sentFor id input = none)
      (_ : nm.leftBuffer input = nm.requestsWillBeSent)
      (_ : nm.leftEntry id input = nm.requests.get id),
      Trail id (hops ++ (sentFor id input).toList) (nm.step blockers input) := by
    intro hannounced hsent hleft hentry
    rw [hsent, Option.toList_none, List.append_nil]
    rw [hannounced] at hrequests
    exact h.of_same (fun _ _ hget => (hbuffer.trans hleft) ▸ hget) (by rw [hbuffer, hleft])
      (hrequests.trans hentry)
  cases input with
  | requestWillBeSent now event => exact h.step_requestWillBeSent blockers hguard
  | requestServedFromCache requestId =>
    by_cases hid : requestId = id
    · rw [show sentFor id (.requestServedFromCache requestId) = none from rfl, Option.toList_none,
        List.append_nil]
      exact h.served hbuffer (hrequests.trans (if_pos hid))
    · exact hquiet rfl rfl rfl (if_neg hid)
  | responseReceived event => exact hquiet rfl rfl rfl (if_neg hguard.1)
  | loadingFinished requestId => exact hquiet rfl rfl rfl (if_neg hguard.1)
  | loadingFailed event => exact hquiet rfl rfl rfl (if_neg hguard.1)
  | requestPaused cache now systemNow event =>
    rw [show sentFor id (.requestPaused cache now systemNow event) = none from rfl,
      Option.toList_none, List.append_nil]
    exact h.step_requestPaused blockers hguard
  | authRequired requestId => exact hquiet rfl rfl rfl rfl
  | evict now =>
    obtain ⟨⟨hlive, hfresh⟩, _⟩ := hguard
    rw [show sentFor id (.evict now) = none from rfl, Option.toList_none, List.append_nil]
    refine h.of_same (fun key entry hget => ?_) ?_ (hrequests.trans ?_)
    · rw [hbuffer, leftBuffer, Table.get_retain, Option.filter_eq_some_iff] at hget
      exact hget.1
    · rw [hbuffer, leftBuffer, Table.get_retain]
      exact filter_eq_self fun entry hentry => decide_eq_true (hfresh entry hentry)
    · exact filter_eq_self fun request hget => decide_eq_true (hlive request hget)
  | setBlockAll blockAll => exact hquiet rfl rfl rfl rfl

/-- A request that was redirected has all its earlier hops in its chain, in the order in which they were announced, each with the redirect response it got and with no chain of its own. A hop counts from when it reaches `on_request`. -/
theorem redirect_chain_keeps_hops (blockers : Blockers) (id : RequestId) (nm : NetworkManager)
    (hunknown : Unknown id nm) (inputs : List NetworkInput)
    (hundisturbed : Run.Allowed (step blockers) (Undisturbed id) nm inputs) :
    let final := Run.final (step blockers) nm inputs
    let hops := takenHops id (hopsOf id inputs) final
    (hops ≠ [] → (final.requests.get id).isSome = true) ∧
      ∀ request, final.requests.get id = some request →
        request.redirectChain.length + 1 = hops.length ∧
          List.Forall₂ (fun hop entry => HopRecord id hop.1 hop.2 entry) (hops.zip hops.tail)
            request.redirectChain := by
  have htrail : Trail id (hopsOf id inputs) (Run.final (step blockers) nm inputs) := by
    refine Run.history (fun inputs nm => Trail id (hopsOf id inputs) nm) hunknown.trail
      (fun before input htrail hguard => ?_) hundisturbed
    have hhops : hopsOf id (before ++ [input]) = hopsOf id before ++ (sentFor id input).toList := by
      rw [hopsOf, List.filterMap_append, List.filterMap_cons, List.filterMap_nil]
      cases sentFor id input with
      | none => rfl
      | some event => rfl
    rw [hhops]
    exact htrail.step blockers hguard
  have hentry := htrail.entry
  refine ⟨fun hne => ?_, fun request hget => ?_⟩
  · rw [Option.isSome_iff_ne_none]
    intro hnone
    rw [hnone] at hentry
    exact hne hentry
  · rw [hget] at hentry
    exact ⟨Tracks.length hentry, Tracks.chain hentry⟩

/-- The answer of a redirect. -/
def redirectFrom (url location : String) : Network.Response :=
  ⟨url, 302, .object [("Location", .string location)]⟩

/-- A document is announced, without interception. -/
def documentSent (url : String) (redirectResponse : Option Network.Response) : NetworkInput :=
  .requestWillBeSent 0
    { requestId := ⟨"r"⟩
      request := ⟨url, "GET", none⟩
      frameId := none
      redirectResponse := redirectResponse
      type := some .document
      initiatorType := .other }

/-- The pause of the document. -/
def documentPaused (url : String) : NetworkInput :=
  .requestPaused (fun _ _ => none) 0 0
    { requestId := ⟨"i"⟩
      request := ⟨url, "GET", none⟩
      resourceType := .document
      networkId := some ⟨"r"⟩
      redirectedRequestId := none }

/-- The kept response is not the redirect response itself, whose `Location` was absolute; and a hop that is announced while the hop before is held back takes its place. -/
theorem redirect_chain_not_verbatim :
    (let final := Run.final (step Blockers.none) (new false 0)
      [documentSent "http://a/" none,
        documentSent "http://a/b" (some (redirectFrom "http://a/" "http://a/b"))]
    (((final.requests.get ⟨"r"⟩).bind (·.redirectChain.head?)).bind (·.response)).bind
      (fun response => (response.headers.index "Location").asStr) = some "b") ∧
    (let hops := [documentSent "/0" none, documentPaused "/0",
      documentSent "/1" (some (redirectFrom "/0" "/1")),
      documentSent "/2" (some (redirectFrom "/1" "/2")), documentPaused "/2"]
    let final := Run.final (step Blockers.none) (new false 0).enableRequestIntercept hops
    (hopsOf ⟨"r"⟩ hops).length = 3 ∧
      (final.requests.get ⟨"r"⟩).map (·.redirectChain.length) = some 1) := by
  decide +kernel

/-- A document that is redirected twice. -/
def twoRedirects : List NetworkInput :=
  [documentSent "/0" none, documentSent "/1" (some (redirectFrom "/0" "/1")),
    documentSent "/2" (some (redirectFrom "/1" "/2"))]

theorem undisturbed_twoRedirects :
    Run.Allowed (step Blockers.none) (Undisturbed ⟨"r"⟩) (new false 0) twoRedirects := by
  refine ⟨⟨fun _ => ⟨rfl, fun h => ?_⟩, ?_⟩, ⟨fun _ => ⟨rfl, fun _ => rfl⟩, ?_⟩,
    ⟨fun _ => ⟨rfl, fun _ => rfl⟩, ?_⟩, trivial⟩
  · cases h
  all_goals
    intro announced h _
    cases h
    rfl

theorem redirect_chain_keeps_hops_twoRedirects :
    let final := Run.final (step Blockers.none) (new false 0) twoRedirects
    let hops := takenHops ⟨"r"⟩ (hopsOf ⟨"r"⟩ twoRedirects) final
    hops.length = 3 ∧ ((hops ≠ [] → (final.requests.get ⟨"r"⟩).isSome = true) ∧
      ∀ request, final.requests.get ⟨"r"⟩ = some request →
        request.redirectChain.length + 1 = hops.length ∧
          List.Forall₂ (fun hop entry => HopRecord ⟨"r"⟩ hop.1 hop.2 entry) (hops.zip hops.tail)
            request.redirectChain) := by
  refine ⟨rfl, redirect_chain_keeps_hops Blockers.none ⟨"r"⟩ (new false 0) ⟨rfl, rfl, ?_⟩ twoRedirects
    undisturbed_twoRedirects⟩
  intro key entry hget
  cases hget

/-! ### Over the cap -/

/-- The input makes a hop of the request go over the cap. -/
def Capped (id : RequestId) (nm : NetworkManager) (input : NetworkInput) : Prop :=
  ∃ announced, nm.announcement input = some announced ∧ announced.event.requestId = id ∧
    nm.overtops announced.event = true

/-- No announcement of the request reaches `on_request`: none arrives, or it is held back and its pause does not arrive. -/
def Silent (id : RequestId) (nm : NetworkManager) (input : NetworkInput) : Prop :=
  ∀ announced, nm.announcement input = some announced → announced.event.requestId ≠ id

/-- The request is not tracked, and was reported as new so often. -/
def Untracked (id : RequestId) (count : Nat) (nm : NetworkManager) : Prop :=
  nm.requests.get id = none ∧ nm.requestEvents id = count

theorem untracked_of_capped (blockers : Blockers) {id : RequestId} (h : Capped id nm input) :
    Untracked id (nm.requestEvents id) (nm.step blockers input) := by
  obtain ⟨announced, hannounced, hid, hover⟩ := h
  constructor
  · rw [requests_step, hannounced]
    simp only [hid, hover, if_true]
  · rw [requestEvents_step, hannounced]
    simp [hover]

theorem leftEntry_of_untracked {id : RequestId} (h : nm.requests.get id = none)
    (input : NetworkInput) : nm.leftEntry id input = none := by
  cases input with
  | requestServedFromCache requestId => simp [leftEntry, h]
  | responseReceived event => simp [leftEntry, h]
  | loadingFinished requestId => simp [leftEntry, h]
  | loadingFailed event => simp [leftEntry, h]
  | evict now => simp [leftEntry, h]
  | _ => exact h

/-- Where there is no entry there is no chain, so any hop that is announced is taken for a new request. -/
theorem untracked_step_iff (blockers : Blockers) {id : RequestId} {count : Nat}
    (h : Untracked id count nm) (input : NetworkInput) :
    Untracked id count (nm.step blockers input) ↔ Silent id nm input := by
  obtain ⟨hget, hcount⟩ := h
  rw [Untracked, requests_step, requestEvents_step, hcount, Silent]
  cases hannounced : nm.announcement input with
  | none => simp [leftEntry_of_untracked hget]
  | some announced =>
    by_cases hid : announced.event.requestId = id
    · have hover : nm.overtops announced.event = false := by
        rw [← Bool.not_eq_true]
        intro hover
        have htracked := (tracked_of_overtops hover).2
        rw [hid, hget] at htracked
        cases htracked
      simp [hid, hover]
    · simp [hid, hget]

/-- After a hop went over the cap the request stays gone just as long as no later hop of it reaches `on_request`. -/
theorem redirect_cap_final_iff (blockers : Blockers) (id : RequestId) (nm : NetworkManager)
    (input : NetworkInput) (hcapped : Capped id nm input) (later : List NetworkInput) :
    Run.Always (step blockers) (Untracked id (nm.requestEvents id)) (nm.step blockers input) later ↔
      Run.Allowed (step blockers) (Silent id) (nm.step blockers input) later :=
  Run.always_iff_allowed (fun _ _ => True) (fun _ _ _ _ => trivial)
    (fun _ input _ _ huntracked => untracked_step_iff blockers huntracked input) trivial
    (untracked_of_capped blockers hcapped)

/-- A manager that allows no redirect, with a document in its table. -/
def noRedirects : NetworkManager :=
  { new false 0 with maxRedirects := some 0 }.step Blockers.none (documentSent "/0" none)

theorem capped_noRedirects :
    Capped ⟨"r"⟩ noRedirects (documentSent "/1" (some (redirectFrom "/0" "/1"))) :=
  ⟨_, rfl, rfl, by decide⟩

/-- One hop goes over the cap and is reported, and the next is tracked as a new request with an empty chain. -/
theorem redirect_cap_not_final :
    let capped := noRedirects.step Blockers.none (documentSent "/1" (some (redirectFrom "/0" "/1")))
    let hop := documentSent "/2" (some (redirectFrom "/1" "/2"))
    Capped ⟨"r"⟩ noRedirects (documentSent "/1" (some (redirectFrom "/0" "/1"))) ∧
      ((capped.step Blockers.none hop).requests.get ⟨"r"⟩).map (·.redirectChain.length) = some 0 ∧
      (capped.step Blockers.none hop).requestEvents ⟨"r"⟩ = capped.requestEvents ⟨"r"⟩ + 1 ∧
      ¬Run.Always (step Blockers.none) (Untracked ⟨"r"⟩ (noRedirects.requestEvents ⟨"r"⟩)) capped
        [hop] := by
  refine ⟨capped_noRedirects, by decide, by decide, fun halways => ?_⟩
  have hcount := halways.last.2
  revert hcount
  decide

theorem redirect_cap_final_iff_noRedirects :
    Run.Always (step Blockers.none) (Untracked ⟨"r"⟩ (noRedirects.requestEvents ⟨"r"⟩))
        (noRedirects.step Blockers.none (documentSent "/1" (some (redirectFrom "/0" "/1"))))
        [.loadingFinished ⟨"r"⟩] ↔
      Run.Allowed (step Blockers.none) (Silent ⟨"r"⟩)
        (noRedirects.step Blockers.none (documentSent "/1" (some (redirectFrom "/0" "/1"))))
        [.loadingFinished ⟨"r"⟩] :=
  redirect_cap_final_iff Blockers.none ⟨"r"⟩ noRedirects
    (documentSent "/1" (some (redirectFrom "/0" "/1"))) capped_noRedirects [.loadingFinished ⟨"r"⟩]

end NetworkManager

end SpiderChrome
