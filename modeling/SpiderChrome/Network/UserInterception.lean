import SpiderChrome.Network.Budget

/-!
# Who answers, and what is tracked

With user interception on the user answers the paused requests, and the manager should track the same requests as it does with user interception off. It does not: the pause is where a buffered announcement becomes a tracked request, and with the flag on `on_fetch_request_paused` returns before it gets there. The request is never in the table, nothing is reported of it, and its announcement stays in the buffer. `same_tracking_iff` says that the two runs agree just as long as no announcement and pause of one request meet.
-/

namespace SpiderChrome

open Network

mutual

/-- A request without the record of who answers its pauses. -/
def HttpRequest.forgetUser : HttpRequest → HttpRequest
  | ⟨requestId, fromMemoryCache, failureText, interceptionId, response, frame, _, method, url,
      redirectChain, createdAt⟩ =>
    ⟨requestId, fromMemoryCache, failureText, interceptionId, response, frame, false, method, url,
      HttpRequest.forgetUsers redirectChain, createdAt⟩

def HttpRequest.forgetUsers : List HttpRequest → List HttpRequest
  | [] => []
  | request :: rest => request.forgetUser :: HttpRequest.forgetUsers rest

end

/-- The end of a request that an event reports. -/
def NetworkEvent.ended? : NetworkEvent → Option (RequestFate × HttpRequest)
  | requestFinished ended => some (.finished, ended.forgetUser)
  | requestFailed ended => some (.failed, ended.forgetUser)
  | _ => none

namespace HttpRequest

theorem forgetUsers_append (chain chain' : List HttpRequest) :
    forgetUsers (chain ++ chain') = forgetUsers chain ++ forgetUsers chain' := by
  induction chain with
  | nil => rfl
  | cons request rest ih => exact congrArg (request.forgetUser :: ·) ih

theorem length_forgetUsers (chain : List HttpRequest) : (forgetUsers chain).length = chain.length := by
  induction chain with
  | nil => rfl
  | cons request rest ih => exact congrArg (· + 1) ih

/-! Two requests that differ at most in who answers them, and in the same way what they were redirected from. -/

variable {request request' : HttpRequest}

theorem forgetUser_fromMemoryCache (h : request'.forgetUser = request.forgetUser) :
    { request' with fromMemoryCache := true }.forgetUser =
      { request with fromMemoryCache := true }.forgetUser := by
  obtain ⟨⟩ := request
  obtain ⟨⟩ := request'
  simp only [forgetUser, mk.injEq] at h
  simp only [forgetUser, h]

theorem forgetUser_setResponse (h : request'.forgetUser = request.forgetUser)
    (response : Network.Response) :
    (request'.setResponse response).forgetUser = (request.setResponse response).forgetUser := by
  obtain ⟨⟩ := request
  obtain ⟨⟩ := request'
  simp only [forgetUser, mk.injEq] at h
  simp only [setResponse, forgetUser, h]

theorem forgetUser_failureText (h : request'.forgetUser = request.forgetUser) (text : Option String) :
    { request' with failureText := text }.forgetUser =
      { request with failureText := text }.forgetUser := by
  obtain ⟨⟩ := request
  obtain ⟨⟩ := request'
  simp only [forgetUser, mk.injEq] at h
  simp only [forgetUser, h]

theorem forgetUser_overCap (h : request'.forgetUser = request.forgetUser)
    (event : EventRequestWillBeSent) (text : Option String) :
    { NetworkManager.overCap event request' with failureText := text }.forgetUser =
      { NetworkManager.overCap event request with failureText := text }.forgetUser := by
  obtain ⟨⟩ := request
  obtain ⟨⟩ := request'
  simp only [forgetUser, mk.injEq] at h
  simp only [NetworkManager.overCap, forgetUser, h]

theorem createdAt_of_forgetUser (h : request'.forgetUser = request.forgetUser) :
    request'.createdAt = request.createdAt := by
  obtain ⟨⟩ := request
  obtain ⟨⟩ := request'
  simp only [forgetUser, mk.injEq] at h
  simp only [h]

theorem interceptionId_of_forgetUser (h : request'.forgetUser = request.forgetUser) :
    request'.interceptionId = request.interceptionId := by
  obtain ⟨⟩ := request
  obtain ⟨⟩ := request'
  simp only [forgetUser, mk.injEq] at h
  simp only [h]

end HttpRequest

theorem NetworkEvent.requestFinished_congr {request request' : HttpRequest}
    (h : request'.forgetUser = request.forgetUser) :
    (requestFinished request').ended? = (requestFinished request).ended? := by
  rw [ended?, ended?, h]

theorem NetworkEvent.requestFailed_congr {request request' : HttpRequest}
    (h : request'.forgetUser = request.forgetUser) :
    (requestFailed request').ended? = (requestFailed request).ended? := by
  rw [ended?, ended?, h]

namespace NetworkManager

/-- The ends of requests reported so far. -/
def ended (nm : NetworkManager) : List (RequestFate × HttpRequest) :=
  nm.queuedEvents.filterMap NetworkEvent.ended?

/-- Two managers that track the same requests, have reported the same ends, and wait for the pauses of the same requests. -/
structure SameTracking (nm nm' : NetworkManager) : Prop where
  requests : ∀ id, (nm'.requests.get id).map HttpRequest.forgetUser =
    (nm.requests.get id).map HttpRequest.forgetUser
  ended : nm'.ended = nm.ended
  buffered : nm'.requestsWillBeSent = nm.requestsWillBeSent

/-- Two managers with the same budget, block and redirect cap. -/
structure SameLimits (nm nm' : NetworkManager) : Prop where
  maxBytesAllowed : nm'.maxBytesAllowed = nm.maxBytesAllowed
  blockAll : nm'.blockAll = nm.blockAll
  maxRedirects : nm'.maxRedirects = nm.maxRedirects

variable {on off on' off' : NetworkManager}

theorem ended_pushEvent (nm : NetworkManager) (event : NetworkEvent) :
    (nm.pushEvent event).ended = nm.ended ++ event.ended?.toList := by
  simp only [ended, pushEvent, List.filterMap_append, List.filterMap_cons, List.filterMap_nil]
  cases event.ended? with
  | none => rfl
  | some report => rfl

/-! ### A tracked request in both runs -/

theorem SameTracking.chain (h : SameTracking on off) (event : EventRequestWillBeSent) :
    HttpRequest.forgetUsers (off.takeRedirectChain event).2 =
      HttpRequest.forgetUsers (on.takeRedirectChain event).2 := by
  have hget := h.requests event.requestId
  cases hredirect : event.redirectResponse with
  | none => simp only [takeRedirectChain, hredirect]
  | some response =>
    cases hon : on.requests.get event.requestId with
    | none =>
      rw [hon, Option.map_none, Option.map_eq_none_iff] at hget
      simp only [takeRedirectChain, hredirect, hon, hget]
    | some request =>
      rw [hon, Option.map_some, Option.map_eq_some_iff] at hget
      obtain ⟨request', hoff, hsame⟩ := hget
      simp only [takeRedirectChain, hredirect, hon, hoff, handleRequestRedirect, HttpRequest.setResponse,
        HttpRequest.forgetUsers_append]
      obtain ⟨⟩ := request
      obtain ⟨⟩ := request'
      simp only [HttpRequest.forgetUser, HttpRequest.mk.injEq] at hsame
      simp only [HttpRequest.forgetUsers, HttpRequest.forgetUser, hsame]

theorem SameTracking.newRequest (h : SameTracking on off) (now : Instant)
    (event : EventRequestWillBeSent) (interceptionId : Option InterceptionId) :
    (off.newRequest now event interceptionId).forgetUser =
      (on.newRequest now event interceptionId).forgetUser := by
  simp only [NetworkManager.newRequest, HttpRequest.new, HttpRequest.forgetUser, h.chain event]

theorem SameTracking.exceedsMaxRedirects (h : SameTracking on off) (hlimits : SameLimits on off)
    (event : EventRequestWillBeSent) :
    off.exceedsMaxRedirects event (off.takeRedirectChain event).2 =
      on.exceedsMaxRedirects event (on.takeRedirectChain event).2 := by
  have hlength := congrArg List.length (h.chain event)
  rw [HttpRequest.length_forgetUsers, HttpRequest.length_forgetUsers] at hlength
  simp only [NetworkManager.exceedsMaxRedirects, hlimits.maxRedirects, hlength]

/-! ### What keeps the tracking the same -/

theorem SameTracking.pushEvent (h : SameTracking on off) {event event' : NetworkEvent}
    (hevent : event'.ended? = event.ended?) :
    SameTracking (on.pushEvent event) (off.pushEvent event') where
  requests := h.requests
  ended := by rw [ended_pushEvent, ended_pushEvent, h.ended, hevent]
  buffered := h.buffered

theorem SameTracking.remove (h : SameTracking on off) (requestId : RequestId) :
    SameTracking { on with requests := on.requests.remove requestId }
      { off with requests := off.requests.remove requestId } where
  requests id := by
    simp only [Table.get_remove]
    split
    · rfl
    · exact h.requests id
  ended := h.ended
  buffered := h.buffered

theorem SameTracking.set (h : SameTracking on off) (requestId : RequestId)
    {request request' : HttpRequest} (hsame : request'.forgetUser = request.forgetUser) :
    SameTracking { on with requests := on.requests.set requestId request }
      { off with requests := off.requests.set requestId request' } where
  requests id := by
    simp only [Table.get_set]
    split
    · exact congrArg some hsame
    · exact h.requests id
  ended := h.ended
  buffered := h.buffered

/-- Only the entries, the queue and the buffer are compared. -/
theorem SameTracking.of_same (h : SameTracking on off) (hon : on'.requests = on.requests)
    (hoff : off'.requests = off.requests) (hendedOn : on'.ended = on.ended)
    (hendedOff : off'.ended = off.ended)
    (hbuffered : off'.requestsWillBeSent = on'.requestsWillBeSent) : SameTracking on' off' where
  requests id := by rw [hon, hoff, h.requests id]
  ended := by rw [hendedOn, hendedOff, h.ended]
  buffered := hbuffered

/-- A request that both have, or neither. -/
theorem SameTracking.get_cases (h : SameTracking on off) (id : RequestId) :
    on.requests.get id = none ∧ off.requests.get id = none ∨
      ∃ request request', on.requests.get id = some request ∧
        off.requests.get id = some request' ∧ request'.forgetUser = request.forgetUser := by
  have hget := h.requests id
  cases hon : on.requests.get id with
  | none =>
    rw [hon, Option.map_none, Option.map_eq_none_iff] at hget
    exact .inl ⟨rfl, hget⟩
  | some request =>
    rw [hon, Option.map_some, Option.map_eq_some_iff] at hget
    obtain ⟨request', hoff, hsame⟩ := hget
    exact .inr ⟨request, request', rfl, hoff, hsame⟩

theorem SameTracking.takeRedirectChain (h : SameTracking on off) (event : EventRequestWillBeSent) :
    SameTracking (on.takeRedirectChain event).1 (off.takeRedirectChain event).1 := by
  obtain ⟨attempted, hon⟩ := on.takeRedirectChain_eq event
  obtain ⟨attempted', hoff⟩ := off.takeRedirectChain_eq event
  rw [hon, hoff]
  split
  · exact (h.remove event.requestId).of_same rfl rfl rfl rfl h.buffered
  · exact h.of_same rfl rfl rfl rfl h.buffered

theorem SameTracking.onRequest (h : SameTracking on off) (hlimits : SameLimits on off)
    (now : Instant) (event : EventRequestWillBeSent) (interceptionId : Option InterceptionId) :
    SameTracking (on.onRequest now event interceptionId) (off.onRequest now event interceptionId) := by
  have hnew := h.newRequest now event interceptionId
  have hexceeds : off.exceedsMaxRedirects event (off.newRequest now event interceptionId).redirectChain =
      on.exceedsMaxRedirects event (on.newRequest now event interceptionId).redirectChain :=
    h.exceedsMaxRedirects hlimits event
  rw [onRequest_eq, onRequest_eq, hexceeds]
  split
  · refine ((h.takeRedirectChain event).pushEvent rfl).pushEvent ?_
    exact NetworkEvent.requestFailed_congr
      (HttpRequest.forgetUser_overCap hnew event (some "net::ERR_TOO_MANY_REDIRECTS"))
  · exact ((h.takeRedirectChain event).set event.requestId hnew).pushEvent rfl

theorem onRequestWillBeSent_of_data {nm : NetworkManager} (now : Instant)
    {event : EventRequestWillBeSent} (hdata : "data:".toList.isPrefixOf event.request.url.toList) :
    nm.onRequestWillBeSent now event = nm.onRequest now event none :=
  if_neg fun h => h.2 hdata

/-- An announcement that finds the pause of its request. -/
theorem onRequestWillBeSent_of_paused {nm : NetworkManager}
    (hprotocol : nm.protocolRequestInterceptionEnabled = true) (now : Instant)
    {event : EventRequestWillBeSent} (hdata : ¬"data:".toList.isPrefixOf event.request.url.toList)
    {paused : InterceptionId × Instant}
    (hget : nm.requestIdToInterceptionId.get event.requestId = some paused) :
    nm.onRequestWillBeSent now event =
      { nm with
        requestIdToInterceptionId := nm.requestIdToInterceptionId.remove event.requestId }.onRequest
        now event (some paused.1) := by
  rw [onRequestWillBeSent, if_pos ⟨hprotocol, hdata⟩, hget]

/-- An announcement that has to wait for the pause of its request. -/
theorem onRequestWillBeSent_of_waiting {nm : NetworkManager}
    (hprotocol : nm.protocolRequestInterceptionEnabled = true) (now : Instant)
    {event : EventRequestWillBeSent} (hdata : ¬"data:".toList.isPrefixOf event.request.url.toList)
    (hget : nm.requestIdToInterceptionId.get event.requestId = none) :
    nm.onRequestWillBeSent now event =
      { nm with requestsWillBeSent := nm.requestsWillBeSent.set event.requestId (event, now) } := by
  rw [onRequestWillBeSent, if_pos ⟨hprotocol, hdata⟩, hget]

theorem SameTracking.onRequestWillBeSent (h : SameTracking on off) (hlimits : SameLimits on off)
    (hon : on.protocolRequestInterceptionEnabled = true)
    (hoff : off.protocolRequestInterceptionEnabled = true) (now : Instant)
    (event : EventRequestWillBeSent)
    (hpaused : ¬"data:".toList.isPrefixOf event.request.url.toList →
      off.requestIdToInterceptionId.get event.requestId =
        on.requestIdToInterceptionId.get event.requestId) :
    SameTracking (on.onRequestWillBeSent now event) (off.onRequestWillBeSent now event) := by
  by_cases hdata : "data:".toList.isPrefixOf event.request.url.toList
  · rw [onRequestWillBeSent_of_data now hdata, onRequestWillBeSent_of_data now hdata]
    exact h.onRequest hlimits now event none
  · have hsame := hpaused hdata
    cases hget : on.requestIdToInterceptionId.get event.requestId with
    | some paused =>
      have hremoved : SameTracking { on with
            requestIdToInterceptionId := on.requestIdToInterceptionId.remove event.requestId }
          { off with
            requestIdToInterceptionId := off.requestIdToInterceptionId.remove event.requestId } :=
        h.of_same rfl rfl rfl rfl h.buffered
      have hremovedLimits : SameLimits { on with
            requestIdToInterceptionId := on.requestIdToInterceptionId.remove event.requestId }
          { off with
            requestIdToInterceptionId := off.requestIdToInterceptionId.remove event.requestId } :=
        ⟨hlimits.maxBytesAllowed, hlimits.blockAll, hlimits.maxRedirects⟩
      rw [onRequestWillBeSent_of_paused hon now hdata hget,
        onRequestWillBeSent_of_paused hoff now hdata (hsame.trans hget)]
      exact hremoved.onRequest hremovedLimits now event (some paused.1)
    | none =>
      rw [onRequestWillBeSent_of_waiting hon now hdata hget,
        onRequestWillBeSent_of_waiting hoff now hdata (hsame.trans hget)]
      exact h.of_same rfl rfl rfl rfl (congrArg (·.set event.requestId (event, now)) h.buffered)

theorem SameTracking.settle (h : SameTracking on off) (event : EventResponseReceived) :
    SameTracking (on.settle event) (off.settle event) := by
  have hended : ∀ nm : NetworkManager, (nm.settle event).ended = nm.ended := by
    intro nm
    rw [settle_eq, NetworkManager.ended]
    dsimp only
    split
    · exact (ended_pushEvent _ _).trans (List.append_nil _)
    · rfl
  refine h.of_same ?_ ?_ (hended on) (hended off) ?_
  · rw [settle_eq]
  · rw [settle_eq]
  · rw [settle_eq, settle_eq, h.buffered]

theorem SameTracking.onResponseReceived (h : SameTracking on off) (hlimits : SameLimits on off)
    (event : EventResponseReceived) :
    SameTracking (on.onResponseReceived event) (off.onResponseReceived event) := by
  have hleft : off.leftBytes event = on.leftBytes event := by
    rw [leftBytes, leftBytes, hlimits.maxBytesAllowed]
  have hsettled := h.settle event
  have hon : (on.settle event).requests = on.requests := by rw [settle_eq]
  have hoff : (off.settle event).requests = off.requests := by rw [settle_eq]
  rw [onResponseReceived_eq, onResponseReceived_eq, hleft]
  obtain ⟨hnone, hnone'⟩ | ⟨request, request', hget, hget', hsame⟩ := h.get_cases event.requestId
  · rw [hnone, hnone']
    exact hsettled
  · have hresponse := HttpRequest.forgetUser_setResponse hsame event.response
    rw [hget, hget', ← hon, ← hoff]
    refine (hsettled.remove event.requestId).pushEvent ?_
    split
    · exact NetworkEvent.requestFailed_congr hresponse
    · exact NetworkEvent.requestFinished_congr hresponse

theorem SameTracking.forgetAttempt (h : SameTracking on off) (request request' : HttpRequest) :
    SameTracking (on.forgetAttempt request) (off.forgetAttempt request') :=
  h.of_same rfl rfl rfl rfl h.buffered

theorem SameTracking.onNetworkLoadingFinished (h : SameTracking on off) (requestId : RequestId) :
    SameTracking (on.onNetworkLoadingFinished requestId) (off.onNetworkLoadingFinished requestId) := by
  unfold NetworkManager.onNetworkLoadingFinished
  obtain ⟨hnone, hnone'⟩ | ⟨request, request', hget, hget', hsame⟩ := h.get_cases requestId
  · rw [hnone, hnone']
    exact h
  · rw [hget, hget']
    refine ((h.remove requestId).forgetAttempt request request').pushEvent ?_
    exact NetworkEvent.requestFinished_congr hsame

theorem SameTracking.onNetworkLoadingFailed (h : SameTracking on off) (event : EventLoadingFailed) :
    SameTracking (on.onNetworkLoadingFailed event) (off.onNetworkLoadingFailed event) := by
  unfold NetworkManager.onNetworkLoadingFailed
  obtain ⟨hnone, hnone'⟩ | ⟨request, request', hget, hget', hsame⟩ := h.get_cases event.requestId
  · rw [hnone, hnone']
    exact h
  · rw [hget, hget']
    refine ((h.remove event.requestId).forgetAttempt request request').pushEvent ?_
    exact NetworkEvent.requestFailed_congr
      (HttpRequest.forgetUser_failureText hsame (some event.errorText))

theorem SameTracking.onRequestServedFromCache (h : SameTracking on off) (requestId : RequestId) :
    SameTracking (on.onRequestServedFromCache requestId) (off.onRequestServedFromCache requestId) := by
  refine ⟨fun id => ?_, h.ended, h.buffered⟩
  simp only [NetworkManager.onRequestServedFromCache, Table.get_update]
  split
  · obtain ⟨hnone, hnone'⟩ | ⟨request, request', hget, hget', hsame⟩ := h.get_cases id
    · rw [hnone, hnone']
    · rw [hget, hget']
      exact congrArg some (HttpRequest.forgetUser_fromMemoryCache hsame)
  · exact h.requests id

theorem SameTracking.evictStaleEntries (h : SameTracking on off) (now : Instant) :
    SameTracking (on.evictStaleEntries now) (off.evictStaleEntries now) := by
  refine ⟨fun id => ?_, h.ended, ?_⟩
  · simp only [NetworkManager.evictStaleEntries, Table.get_retain]
    obtain ⟨hnone, hnone'⟩ | ⟨request, request', hget, hget', hsame⟩ := h.get_cases id
    · rw [hnone, hnone']
    · rw [hget, hget', Option.filter_some, Option.filter_some,
        HttpRequest.createdAt_of_forgetUser hsame]
      split
      · exact congrArg some hsame
      · rfl
  · simp only [NetworkManager.evictStaleEntries, h.buffered]

/-! ### What a pause does to the tracking -/

theorem ended_pushCdpRequest (nm : NetworkManager) (command : NetworkCommand) :
    (nm.pushCdpRequest command).ended = nm.ended :=
  (ended_pushEvent _ _).trans (List.append_nil _)

/-- A pause that the manager answers leaves what it leaves by being brought together with its announcement. -/
theorem onFetchRequestPaused_tracking (nm : NetworkManager) (blockers : Blockers)
    (cache : SessionCache) (now systemNow : Instant) (event : EventRequestPaused)
    (huser : nm.userRequestInterceptionEnabled = false) (hblock : nm.blockAll = false) :
    (nm.onFetchRequestPaused blockers cache now systemNow event).requests =
        (nm.reconcilePaused now event).requests ∧
      (nm.onFetchRequestPaused blockers cache now systemNow event).ended =
        (nm.reconcilePaused now event).ended ∧
      (nm.onFetchRequestPaused blockers cache now systemNow event).requestsWillBeSent =
        (nm.reconcilePaused now event).requestsWillBeSent := by
  obtain ⟨hon, _⟩ | ⟨_, hblocked, _⟩ | ⟨_, _, command, heq⟩ :=
    nm.onFetchRequestPaused_cases blockers cache now systemNow event
  · rw [huser] at hon
    cases hon
  · rw [hblock] at hblocked
    cases hblocked
  · rw [heq]
    refine ⟨?_, ?_, ?_⟩
    · show ((nm.reconcilePaused now event).tracked event).1.requests = _
      rw [tracked_eq]
    · rw [ended_pushCdpRequest, tracked_eq]
      rfl
    · show ((nm.reconcilePaused now event).tracked event).1.requestsWillBeSent = _
      rw [tracked_eq]

/-- The manager whose user answers does nothing at a pause. -/
theorem onFetchRequestPaused_of_user {nm : NetworkManager}
    (huser : nm.userRequestInterceptionEnabled = true)
    (hprotocol : nm.protocolRequestInterceptionEnabled = true) (blockers : Blockers)
    (cache : SessionCache) (now systemNow : Instant) (event : EventRequestPaused) :
    nm.onFetchRequestPaused blockers cache now systemNow event = nm := by
  rw [onFetchRequestPaused, huser, hprotocol]
  rfl

/-- A pause without its announcement is at most remembered. -/
theorem reconcilePaused_of_unmet {nm : NetworkManager} {event : EventRequestPaused}
    (h : event.networkId.bind nm.requestsWillBeSent.get = none) (now : Instant) :
    ∃ paused, nm.reconcilePaused now event = { nm with requestIdToInterceptionId := paused } := by
  unfold reconcilePaused
  cases hid : event.networkId with
  | none => exact ⟨_, rfl⟩
  | some networkId =>
    rw [hid, Option.bind_some] at h
    simp only [h]
    exact ⟨_, rfl⟩

theorem reconcilePaused_of_met {nm : NetworkManager} {event : EventRequestPaused}
    {sent : EventRequestWillBeSent × Instant}
    (h : event.networkId.bind nm.requestsWillBeSent.get = some sent) (now : Instant) :
    ∃ buffered, nm.reconcilePaused now event = { nm with requestsWillBeSent := buffered }.onRequest now
      sent.1 (some event.requestId.toInterceptionId) := by
  unfold reconcilePaused
  cases hid : event.networkId with
  | none =>
    rw [hid] at h
    cases h
  | some networkId =>
    rw [hid, Option.bind_some] at h
    simp only [h]
    exact ⟨_, rfl⟩

theorem SameTracking.onFetchRequestPaused (h : SameTracking on off) (blockers : Blockers)
    (hon : on.userRequestInterceptionEnabled = true)
    (hprotocol : on.protocolRequestInterceptionEnabled = true)
    (hoff : off.userRequestInterceptionEnabled = false) (cache : SessionCache)
    (now systemNow : Instant) (event : EventRequestPaused)
    (hunmet : off.blockAll = false → event.networkId.bind off.requestsWillBeSent.get = none) :
    SameTracking (on.onFetchRequestPaused blockers cache now systemNow event)
      (off.onFetchRequestPaused blockers cache now systemNow event) := by
  rw [onFetchRequestPaused_of_user hon hprotocol]
  cases hblock : off.blockAll with
  | true =>
    have hfailed : off.onFetchRequestPaused blockers cache now systemNow event =
        off.failRequestBlocked event.requestId := by
      simp only [NetworkManager.onFetchRequestPaused, hoff, hblock, Bool.false_and, Bool.false_eq_true,
        if_false, if_true]
    rw [hfailed]
    exact h.of_same rfl rfl rfl (ended_pushCdpRequest _ _) h.buffered
  | false =>
    obtain ⟨hrequests, hended, hbuffered⟩ :=
      off.onFetchRequestPaused_tracking blockers cache now systemNow event hoff hblock
    obtain ⟨paused, heq⟩ := reconcilePaused_of_unmet (hunmet hblock) now
    rw [heq] at hrequests hended hbuffered
    exact h.of_same rfl hrequests rfl hended (hbuffered.trans h.buffered)

/-! ### What no input changes -/

/-- The switches of interception, and the redirect cap. -/
def flags (nm : NetworkManager) : Bool × Bool × Option Nat :=
  (nm.userRequestInterceptionEnabled, nm.protocolRequestInterceptionEnabled, nm.maxRedirects)

theorem SameSettings.flags {nm nm' : NetworkManager} (h : SameSettings nm nm') :
    nm'.flags = nm.flags := by
  rw [h]
  rfl

theorem flags_onFetchRequestPaused (nm : NetworkManager) (blockers : Blockers)
    (cache : SessionCache) (now systemNow : Instant) (event : EventRequestPaused) :
    (nm.onFetchRequestPaused blockers cache now systemNow event).flags = nm.flags := by
  obtain ⟨_, heq⟩ | ⟨_, _, heq⟩ | ⟨_, _, command, heq⟩ :=
    nm.onFetchRequestPaused_cases blockers cache now systemNow event
  · rw [heq]
  · rw [heq]
    rfl
  · have htracked : ((nm.reconcilePaused now event).tracked event).1.flags =
        (nm.reconcilePaused now event).flags := by
      rw [tracked_eq]
      rfl
    rw [heq]
    exact htracked.trans (nm.sameSettings_reconcilePaused now event).flags

theorem flags_step (nm : NetworkManager) (blockers : Blockers) (input : NetworkInput) :
    (nm.step blockers input).flags = nm.flags := by
  cases input with
  | requestWillBeSent now event =>
    simp only [step, onRequestWillBeSent]
    split
    · split
      · exact (sameSettings_onRequest _ now event _).flags
      · rfl
    · exact (nm.sameSettings_onRequest now event none).flags
  | responseReceived event =>
    simp only [step, onResponseReceived_eq, settle_eq]
    split
    · rfl
    · rfl
  | loadingFinished requestId =>
    simp only [step, onNetworkLoadingFinished]
    split
    · rfl
    · rfl
  | loadingFailed event =>
    simp only [step, onNetworkLoadingFailed]
    split
    · rfl
    · rfl
  | requestPaused cache now systemNow event =>
    exact nm.flags_onFetchRequestPaused blockers cache now systemNow event
  | authRequired requestId =>
    obtain ⟨attempted, command, heq⟩ := nm.onFetchAuthRequired_same requestId
    rw [step, heq]
    rfl
  | requestServedFromCache requestId => rfl
  | evict now => rfl
  | setBlockAll blockAll => rfl

theorem SameLimits.step (h : SameLimits on off) (blockers : Blockers) (input : NetworkInput) :
    SameLimits (on.step blockers input) (off.step blockers input) := by
  have hmaxRedirects : (off.step blockers input).maxRedirects = (on.step blockers input).maxRedirects := by
    have hon := congrArg (fun flags => flags.2.2) (on.flags_step blockers input)
    have hoff := congrArg (fun flags => flags.2.2) (off.flags_step blockers input)
    exact hoff.trans (h.maxRedirects.trans hon.symm)
  have hothers : ∀ {on' off'}, SameBudget on on' → SameBudget off off' →
      off'.maxBytesAllowed = on'.maxBytesAllowed ∧ off'.blockAll = on'.blockAll := by
    intro on' off' hon hoff
    rw [hon.maxBytesAllowed, hon.blockAll, hoff.maxBytesAllowed, hoff.blockAll]
    exact ⟨h.maxBytesAllowed, h.blockAll⟩
  suffices hbudget : (off.step blockers input).maxBytesAllowed = (on.step blockers input).maxBytesAllowed ∧
      (off.step blockers input).blockAll = (on.step blockers input).blockAll from
    ⟨hbudget.1, hbudget.2, hmaxRedirects⟩
  cases input with
  | responseReceived event =>
    have hon := on.sameBudget_onResponseReceived event
    have hoff := off.sameBudget_onResponseReceived event
    have hleft : off.leftBytes event = on.leftBytes event := by
      rw [leftBytes, leftBytes, h.maxBytesAllowed]
    refine ⟨hoff.maxBytesAllowed.trans (Eq.trans ?_ hon.maxBytesAllowed.symm),
      hoff.blockAll.trans (Eq.trans ?_ hon.blockAll.symm)⟩
    · rw [settle_eq, settle_eq, hleft]
    · rw [settle_eq, settle_eq, hleft, h.blockAll]
  | setBlockAll blockAll => exact ⟨h.maxBytesAllowed, rfl⟩
  | _ => exact hothers (on.sameBudget_step blockers _ (by simp) (by simp)) (off.sameBudget_step blockers _ (by simp) (by simp))

/-! ### Two runs -/

/-- The manager with interception on, and the user answering or not. -/
def intercepting (nm : NetworkManager) (user : Bool) : NetworkManager :=
  { nm with protocolRequestInterceptionEnabled := true, userRequestInterceptionEnabled := user }

/-- Two managers take the same input. -/
def stepBoth (blockers : Blockers) (runs : NetworkManager × NetworkManager) (input : NetworkInput) :
    NetworkManager × NetworkManager :=
  (runs.1.step blockers input, runs.2.step blockers input)

/-- In the run whose user does not answer, no announcement meets the pause of its request, unless it does in the other run too. -/
def Unmet (runs : NetworkManager × NetworkManager) : NetworkInput → Prop
  | .requestWillBeSent _ event => ¬"data:".toList.isPrefixOf event.request.url.toList →
    runs.2.requestIdToInterceptionId.get event.requestId =
      runs.1.requestIdToInterceptionId.get event.requestId
  | .requestPaused _ _ _ event =>
    runs.2.blockAll = false → event.networkId.bind runs.2.requestsWillBeSent.get = none
  | _ => True

/-- Two managers of which only the first has a user who answers. -/
structure Twins (runs : NetworkManager × NetworkManager) : Prop where
  on : (runs.1.userRequestInterceptionEnabled, runs.1.protocolRequestInterceptionEnabled) = (true, true)
  off : (runs.2.userRequestInterceptionEnabled, runs.2.protocolRequestInterceptionEnabled) = (false, true)
  limits : SameLimits runs.1 runs.2

theorem twins_intercepting (nm : NetworkManager) :
    Twins (nm.intercepting true, nm.intercepting false) := ⟨rfl, rfl, rfl, rfl, rfl⟩

theorem Twins.step {runs : NetworkManager × NetworkManager} (h : Twins runs) (blockers : Blockers)
    (input : NetworkInput) : Twins (stepBoth blockers runs input) where
  on := (congrArg (fun flags => (flags.1, flags.2.1)) (runs.1.flags_step blockers input)).trans h.on
  off := (congrArg (fun flags => (flags.1, flags.2.1)) (runs.2.flags_step blockers input)).trans h.off
  limits := h.limits.step blockers input

theorem SameTracking.step {runs : NetworkManager × NetworkManager}
    (h : SameTracking runs.1 runs.2) (htwins : Twins runs) (blockers : Blockers) (input : NetworkInput)
    (hunmet : Unmet runs input) :
    SameTracking (stepBoth blockers runs input).1 (stepBoth blockers runs input).2 := by
  obtain ⟨huserOn, hprotocolOn⟩ := Prod.mk.inj htwins.on
  obtain ⟨huserOff, hprotocolOff⟩ := Prod.mk.inj htwins.off
  cases input with
  | requestWillBeSent now event =>
    exact h.onRequestWillBeSent htwins.limits hprotocolOn hprotocolOff now event hunmet
  | requestServedFromCache requestId => exact h.onRequestServedFromCache requestId
  | responseReceived event => exact h.onResponseReceived htwins.limits event
  | loadingFinished requestId => exact h.onNetworkLoadingFinished requestId
  | loadingFailed event => exact h.onNetworkLoadingFailed event
  | requestPaused cache now systemNow event =>
    exact h.onFetchRequestPaused blockers huserOn hprotocolOn huserOff cache now systemNow event hunmet
  | authRequired requestId =>
    obtain ⟨attempted, command, hon⟩ := runs.1.onFetchAuthRequired_same requestId
    obtain ⟨attempted', command', hoff⟩ := runs.2.onFetchAuthRequired_same requestId
    simp only [stepBoth, NetworkManager.step, hon, hoff]
    exact h.of_same rfl rfl (ended_pushCdpRequest _ _) (ended_pushCdpRequest _ _) h.buffered
  | evict now => exact h.evictStaleEntries now
  | setBlockAll blockAll => exact h.of_same rfl rfl rfl rfl h.buffered

/-! ### A manager whose user answers, started with nothing tracked -/

/-- No pause is remembered, and no tracked request was paused. -/
structure Passive (nm : NetworkManager) : Prop where
  nonePaused : ∀ id, nm.requestIdToInterceptionId.get id = none
  unpaused : ∀ id request, nm.requests.get id = some request → request.interceptionId = none

theorem Passive.onRequest {nm : NetworkManager} (h : Passive nm) (now : Instant)
    (event : EventRequestWillBeSent) : Passive (nm.onRequest now event none) := by
  obtain ⟨attempted, hfst⟩ := nm.takeRedirectChain_eq event
  have hunpaused : ∀ id request, (if event.redirectResponse.isSome then nm.requests.remove event.requestId
      else nm.requests).get id = some request → request.interceptionId = none := by
    intro id request hget
    split at hget
    · exact h.unpaused id request (Table.remove_sub _ _ _ _ hget)
    · exact h.unpaused id request hget
  rw [onRequest_eq, hfst]
  split
  · exact ⟨h.nonePaused, hunpaused⟩
  · refine ⟨h.nonePaused, fun id request hget => ?_⟩
    rw [Table.get_set] at hget
    split at hget
    · exact Option.some.inj hget ▸ rfl
    · exact hunpaused id request hget

/-- Entries only leave. -/
theorem Passive.of_sub {nm nm' : NetworkManager} (h : Passive nm)
    (hpaused : nm'.requestIdToInterceptionId.Sub nm.requestIdToInterceptionId)
    (hrequests : nm'.requests.Sub nm.requests) : Passive nm' where
  nonePaused id := hpaused.get_eq_none (h.nonePaused id)
  unpaused id request hget := h.unpaused id request (hrequests id request hget)

theorem retain_sub {K V : Type} [DecidableEq K] (t : Table K V) (keep : K → V → Bool) :
    (t.retain keep).Sub t := by
  intro k v hget
  rw [Table.get_retain, Option.filter_eq_some_iff] at hget
  exact hget.1

theorem Passive.step {nm : NetworkManager} (h : Passive nm)
    (huser : nm.userRequestInterceptionEnabled = true)
    (hprotocol : nm.protocolRequestInterceptionEnabled = true) (blockers : Blockers)
    (input : NetworkInput) : Passive (nm.step blockers input) := by
  cases input with
  | requestWillBeSent now event =>
    by_cases hdata : "data:".toList.isPrefixOf event.request.url.toList
    · rw [NetworkManager.step, onRequestWillBeSent_of_data now hdata]
      exact h.onRequest now event
    · rw [NetworkManager.step, onRequestWillBeSent_of_waiting hprotocol now hdata (h.nonePaused _)]
      exact h.of_sub (.refl _) (.refl _)
  | requestServedFromCache requestId =>
    refine ⟨h.nonePaused, fun id request hget => ?_⟩
    simp only [NetworkManager.step, onRequestServedFromCache, Table.get_update] at hget
    split at hget
    · obtain ⟨request', hget', rfl⟩ := Option.map_eq_some_iff.1 hget
      exact h.unpaused id request' hget'
    · exact h.unpaused id request hget
  | responseReceived event =>
    simp only [NetworkManager.step, onResponseReceived_eq, settle_eq]
    split
    · exact h.of_sub (.refl _) (Table.remove_sub _ _)
    · exact h.of_sub (.refl _) (.refl _)
  | loadingFinished requestId =>
    simp only [NetworkManager.step, onNetworkLoadingFinished]
    split
    · exact h.of_sub (.refl _) (Table.remove_sub _ _)
    · exact h
  | loadingFailed event =>
    simp only [NetworkManager.step, onNetworkLoadingFailed]
    split
    · exact h.of_sub (.refl _) (Table.remove_sub _ _)
    · exact h
  | requestPaused cache now systemNow event =>
    rw [NetworkManager.step, onFetchRequestPaused_of_user huser hprotocol]
    exact h
  | authRequired requestId =>
    obtain ⟨attempted, command, heq⟩ := nm.onFetchAuthRequired_same requestId
    rw [NetworkManager.step, heq]
    exact h.of_sub (.refl _) (.refl _)
  | evict now => exact h.of_sub (retain_sub _ _) (retain_sub _ _)
  | setBlockAll blockAll => exact h.of_sub (.refl _) (.refl _)

/-- Once the other run has made a request of an announcement and its pause, the two no longer track the same. -/
theorem not_sameTracking_of_met (h : SameTracking on off) (hpassive : Passive on)
    (hsame : SameTracking on' off') (sent : NetworkManager) (now : Instant)
    (event : EventRequestWillBeSent) (interceptionId : InterceptionId)
    (hon : on'.requests = on.requests) (hendedOn : on'.ended = on.ended) (hsent : sent.ended = off.ended)
    (hoff : off'.requests = (sent.onRequest now event (some interceptionId)).requests)
    (hendedOff : off'.ended = (sent.onRequest now event (some interceptionId)).ended) : False := by
  have hended : off'.ended = off.ended := hsame.ended.trans (hendedOn.trans h.ended.symm)
  obtain ⟨attempted, hfst⟩ := sent.takeRedirectChain_eq event
  rw [onRequest_eq, hfst] at hoff hendedOff
  split at hendedOff
  · -- Over the redirect cap the request is reported as failed in the one run only.
    have hlength := congrArg List.length (hended.symm.trans hendedOff)
    rw [ended_pushEvent, ended_pushCdpRequest, ← hsent] at hlength
    simp only [NetworkManager.ended, NetworkEvent.ended?, Option.toList_some, List.length_append,
      List.length_singleton] at hlength
    omega
  · -- Otherwise it is in the one table, as a request that was paused.
    rename_i hcap
    rw [if_neg hcap] at hoff
    obtain ⟨hnone, hnone'⟩ | ⟨request, request', hget, hget', heq⟩ := hsame.get_cases event.requestId
    · rw [hoff, Table.get_set_self] at hnone'
      cases hnone'
    · rw [hoff, Table.get_set_self] at hget'
      have hid := HttpRequest.interceptionId_of_forgetUser heq
      rw [hpassive.unpaused event.requestId request (hon ▸ hget), ← Option.some.inj hget'] at hid
      cases hid

theorem unmet_of_sameTracking {runs : NetworkManager × NetworkManager}
    (h : SameTracking runs.1 runs.2) (htwins : Twins runs) (hpassive : Passive runs.1)
    (blockers : Blockers) (input : NetworkInput)
    (hnext : SameTracking (stepBoth blockers runs input).1 (stepBoth blockers runs input).2) :
    Unmet runs input := by
  obtain ⟨huserOn, hprotocolOn⟩ := Prod.mk.inj htwins.on
  obtain ⟨huserOff, hprotocolOff⟩ := Prod.mk.inj htwins.off
  cases input with
  | requestWillBeSent now event =>
    intro hdata
    have hnone := hpassive.nonePaused event.requestId
    rw [hnone, Option.eq_none_iff_forall_ne_some]
    intro paused hpaused
    simp only [stepBoth, step, onRequestWillBeSent_of_waiting hprotocolOn now hdata hnone,
      onRequestWillBeSent_of_paused hprotocolOff now hdata hpaused] at hnext
    exact not_sameTracking_of_met h hpassive hnext
      { runs.2 with
        requestIdToInterceptionId := runs.2.requestIdToInterceptionId.remove event.requestId }
      now event paused.1 rfl rfl rfl rfl rfl
  | requestPaused cache now systemNow event =>
    intro hblock
    rw [Option.eq_none_iff_forall_ne_some]
    intro sent hsent
    obtain ⟨hrequests, hended, _⟩ :=
      runs.2.onFetchRequestPaused_tracking blockers cache now systemNow event huserOff hblock
    obtain ⟨buffered, heq⟩ := reconcilePaused_of_met hsent now
    rw [heq] at hrequests hended
    simp only [stepBoth, step, onFetchRequestPaused_of_user huserOn hprotocolOn] at hnext
    exact not_sameTracking_of_met h hpassive hnext { runs.2 with requestsWillBeSent := buffered } now
      sent.1 event.requestId.toInterceptionId rfl rfl rfl hrequests hended
  | _ => trivial

/-! ### The account -/

/-- Two runs on the same events, one with the user answering the pauses and one without, track the same requests as long as no announcement and pause of one request meet. For a manager that starts with no pause remembered and no paused request tracked, that is exactly how long they do. -/
theorem same_tracking_iff (blockers : Blockers) (nm : NetworkManager) (inputs : List NetworkInput) :
    let runs := (nm.intercepting true, nm.intercepting false)
    (Run.Allowed (stepBoth blockers) Unmet runs inputs →
      Run.Always (stepBoth blockers) (fun runs => SameTracking runs.1 runs.2) runs inputs) ∧
    (Passive nm →
      (Run.Always (stepBoth blockers) (fun runs => SameTracking runs.1 runs.2) runs inputs ↔
        Run.Allowed (stepBoth blockers) Unmet runs inputs)) := by
  intro runs
  have hstart : SameTracking runs.1 runs.2 := ⟨fun _ => rfl, rfl, rfl⟩
  refine ⟨fun hallowed => ?_, fun hpassive => ?_⟩
  · have hboth := Run.always_of_allowed
      (fun runs input (h : Twins runs ∧ SameTracking runs.1 runs.2) hunmet =>
        ⟨h.1.step blockers input, h.2.step h.1 blockers input hunmet⟩)
      ⟨twins_intercepting nm, hstart⟩ hallowed
    exact hboth.mono fun _ h => h.2
  · refine Run.always_iff_allowed (fun runs _ => Twins runs ∧ Passive runs.1) ?_ ?_
      ⟨twins_intercepting nm, hpassive.of_sub (.refl _) (.refl _)⟩ hstart
    · intro runs input rest hkept
      obtain ⟨huser, hprotocol⟩ := Prod.mk.inj hkept.1.on
      exact ⟨hkept.1.step blockers input, hkept.2.step huser hprotocol blockers input⟩
    · intro runs input rest hkept hsame
      exact ⟨unmet_of_sameTracking hsame hkept.1 hkept.2 blockers input,
        hsame.step hkept.1 blockers input⟩

/-- A request that is announced. -/
def sentRequest (url : String) : EventRequestWillBeSent where
  requestId := ⟨"1"⟩
  request := ⟨url, "GET", none⟩
  frameId := none
  redirectResponse := none
  type := some .document
  initiatorType := .other

/-- One page load: announced, then paused. Without the user it is tracked; with the user it is not, and its announcement keeps waiting. -/
theorem user_interception_loses_request :
    let paused := { pausedRequest "https://example.org/" .document with networkId := some ⟨"1"⟩ }
    let runs := Run.final (stepBoth .none)
      ((new false 0).intercepting true, (new false 0).intercepting false)
      [.requestWillBeSent 0 (sentRequest "https://example.org/"),
        .requestPaused (fun _ _ => none) 0 0 paused]
    ((runs.1.requests.get ⟨"1"⟩).isSome, (runs.1.requestsWillBeSent.get ⟨"1"⟩).isSome) = (false, true) ∧
      ((runs.2.requests.get ⟨"1"⟩).isSome, (runs.2.requestsWillBeSent.get ⟨"1"⟩).isSome) =
        (true, false) ∧ ¬ SameTracking runs.1 runs.2 := by
  intro paused runs
  have hon : ((runs.1.requests.get ⟨"1"⟩).isSome, (runs.1.requestsWillBeSent.get ⟨"1"⟩).isSome) =
      (false, true) := by decide +kernel
  have hoff : ((runs.2.requests.get ⟨"1"⟩).isSome, (runs.2.requestsWillBeSent.get ⟨"1"⟩).isSome) =
      (true, false) := by decide +kernel
  refine ⟨hon, hoff, fun hsame => ?_⟩
  have hbuffered := congrArg (fun buffered => (buffered.get ⟨"1"⟩).isSome) hsame.buffered
  rw [(Prod.mk.inj hon).2, (Prod.mk.inj hoff).2] at hbuffered
  cases hbuffered

/-- A request for data is never paused, and both runs track it. -/
theorem same_tracking_iff_data :
    let runs := ((new false 0).intercepting true, (new false 0).intercepting false)
    Run.Always (stepBoth .none) (fun runs => SameTracking runs.1 runs.2) runs
      [.requestWillBeSent 0 (sentRequest "data:,a"), .loadingFinished ⟨"1"⟩] := by
  refine (same_tracking_iff .none (new false 0) _).1 ⟨fun hdata => absurd ?_ hdata, trivial, trivial⟩
  decide

end NetworkManager

end SpiderChrome
