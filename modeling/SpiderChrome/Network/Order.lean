import SpiderChrome.Network.Manager
import SpiderChrome.Library.Run
import Mathlib.Data.List.Permutation

/-!
# The order of the two announcements

A request is announced twice, when it is sent and when it is paused, and the two announcements may come in either order and between those of other requests. Whichever comes first waits in a buffer for the other. `requests_order_independent` says that the order does not matter: the books read at one network id are touched only by the two announcements with that id, and these two meet in the same way whichever is first.
-/

namespace SpiderChrome

open Network

inductive FetchSignal where
  | requestWillBeSent (event : EventRequestWillBeSent)
  | requestPaused (event : EventRequestPaused)

def FetchSignal.networkId : FetchSignal → Option RequestId
  | requestWillBeSent event => some event.requestId
  | requestPaused event => event.networkId

/-- A signal with what is read when it is handled: the clocks and the session cache. -/
structure Arrival where
  signal : FetchSignal
  now : Instant
  systemNow : Instant
  cache : SessionCache

/-- The two announcements of one request. -/
structure AnnouncedRequest where
  willBeSent : EventRequestWillBeSent
  paused : EventRequestPaused
  networkId : paused.networkId = some willBeSent.requestId
  noRedirect : willBeSent.redirectResponse = none
  notData : ¬"data:".toList.isPrefixOf willBeSent.request.url.toList

namespace AnnouncedRequest

def id (r : AnnouncedRequest) : RequestId := r.willBeSent.requestId

def interceptionId (r : AnnouncedRequest) : InterceptionId := r.paused.requestId.toInterceptionId

def signals (r : AnnouncedRequest) : List FetchSignal :=
  [.requestWillBeSent r.willBeSent, .requestPaused r.paused]

/-- The entry that is made for the request. -/
def entry (r : AnnouncedRequest) (now : Instant) : HttpRequest :=
  HttpRequest.new r.id r.willBeSent.frameId (some r.interceptionId) false [] now

end AnnouncedRequest

/-- An entry without the time at which it was made. -/
def HttpRequest.forgetCreatedAt (request : HttpRequest) : HttpRequest := { request with createdAt := 0 }

namespace NetworkManager

/-- What the manager does with a signal. -/
def receive (blockers : Blockers) (nm : NetworkManager) (arrival : Arrival) : NetworkManager :=
  match arrival.signal with
  | .requestWillBeSent event => nm.onRequestWillBeSent arrival.now event
  | .requestPaused event =>
    nm.onFetchRequestPaused blockers arrival.cache arrival.now arrival.systemNow event

/-- Interception is on in the browser and not the user's, nothing is blocked as a whole, and no announcement waits for its other half. -/
structure ReadyForRequests (nm : NetworkManager) : Prop where
  protocol : nm.protocolRequestInterceptionEnabled = true
  user : nm.userRequestInterceptionEnabled = false
  notBlocked : nm.blockAll = false
  noneSent : nm.requestsWillBeSent.isEmpty = true
  nonePaused : nm.requestIdToInterceptionId.isEmpty = true

/-! ### The books -/

/-- Two managers with the same entries, buffers and switches. -/
structure SameBooks (nm nm' : NetworkManager) : Prop where
  sent : nm'.requestsWillBeSent = nm.requestsWillBeSent
  paused : nm'.requestIdToInterceptionId = nm.requestIdToInterceptionId
  requests : nm'.requests = nm.requests
  protocol : nm'.protocolRequestInterceptionEnabled = nm.protocolRequestInterceptionEnabled
  user : nm'.userRequestInterceptionEnabled = nm.userRequestInterceptionEnabled
  blockAll : nm'.blockAll = nm.blockAll

theorem sameBooks_pushCdpRequest (nm : NetworkManager) (command : NetworkCommand) :
    SameBooks nm (nm.pushCdpRequest command) := ⟨rfl, rfl, rfl, rfl, rfl, rfl⟩

theorem SameBooks.trans {nm nm' nm'' : NetworkManager} (h : SameBooks nm nm')
    (h' : SameBooks nm' nm'') : SameBooks nm nm'' where
  sent := h'.sent.trans h.sent
  paused := h'.paused.trans h.paused
  requests := h'.requests.trans h.requests
  protocol := h'.protocol.trans h.protocol
  user := h'.user.trans h.user
  blockAll := h'.blockAll.trans h.blockAll

theorem sameBooks_handleDocumentReplacementAndTracking (nm : NetworkManager)
    (event : EventRequestPaused) (documentResource : Bool) :
    SameBooks nm (nm.handleDocumentReplacementAndTracking event documentResource).1 := by
  unfold handleDocumentReplacementAndTracking
  split <;> exact ⟨rfl, rfl, rfl, rfl, rfl, rfl⟩

theorem sameBooks_answerPaused (nm : NetworkManager) (cache : SessionCache) (systemNow : Instant)
    (event : EventRequestPaused) (replacer : Option String) (skip : Bool) :
    SameBooks nm (nm.answerPaused cache systemNow event replacer skip) := by
  unfold answerPaused
  split
  · exact nm.sameBooks_pushCdpRequest _
  · split
    · exact nm.sameBooks_pushCdpRequest _
    · cases replacer <;> exact nm.sameBooks_pushCdpRequest _

/-- Past the switches a pause changes the books only where it meets its request. -/
theorem sameBooks_onFetchRequestPaused (nm : NetworkManager) (blockers : Blockers)
    (cache : SessionCache) (now systemNow : Instant) (event : EventRequestPaused)
    (huser : nm.userRequestInterceptionEnabled = false) (hblockAll : nm.blockAll = false) :
    SameBooks (nm.reconcilePaused now event)
      (nm.onFetchRequestPaused blockers cache now systemNow event) := by
  simp only [onFetchRequestPaused, huser, hblockAll, Bool.false_and, Bool.false_eq_true, if_false]
  exact (sameBooks_handleDocumentReplacementAndTracking _ _ _).trans (sameBooks_answerPaused _ _ _ _ _ _)

theorem onRequest_of_noRedirect (nm : NetworkManager) (now : Instant)
    (event : EventRequestWillBeSent) (interceptionId : Option InterceptionId)
    (h : event.redirectResponse = none) :
    nm.onRequest now event interceptionId =
      { nm.pushEvent (.request event.requestId) with
        requests := nm.requests.set event.requestId (HttpRequest.new event.requestId event.frameId
          interceptionId nm.userRequestInterceptionEnabled [] now) } := by
  have htaken : nm.takeRedirectChain event = (nm, []) := by rw [takeRedirectChain, h]
  have hcap : nm.exceedsMaxRedirects event [] = false := by
    unfold exceedsMaxRedirects
    split <;> simp
  simp only [onRequest, htaken, hcap, Bool.false_eq_true, if_false]

/-! ### The books at one id -/

/-- What is kept under one network id. -/
structure Ledger where
  sent : Option (EventRequestWillBeSent × Instant)
  paused : Option (InterceptionId × Instant)
  request : Option HttpRequest

def ledger (id : RequestId) (nm : NetworkManager) : Ledger where
  sent := nm.requestsWillBeSent.get id
  paused := nm.requestIdToInterceptionId.get id
  request := nm.requests.get id

/-- How the two announcements of a request meet. -/
def Ledger.step (ledger : Ledger) (arrival : Arrival) : Ledger :=
  match arrival.signal with
  | .requestWillBeSent event =>
    match ledger.paused with
    | some (interceptionId, _) =>
      { ledger with
        paused := none
        request := some (HttpRequest.new event.requestId event.frameId (some interceptionId) false []
          arrival.now) }
    | none => { ledger with sent := some (event, arrival.now) }
  | .requestPaused event =>
    match ledger.sent with
    | some (sent, _) =>
      { ledger with
        sent := none
        request := some (HttpRequest.new sent.requestId sent.frameId
          (some event.requestId.toInterceptionId) false [] arrival.now) }
    | none => { ledger with paused := some (event.requestId.toInterceptionId, arrival.now) }

/-- The switches as they have to be, and every request that waits for its pause under its own id. -/
structure Intercepting (nm : NetworkManager) : Prop where
  protocol : nm.protocolRequestInterceptionEnabled = true
  user : nm.userRequestInterceptionEnabled = false
  notBlocked : nm.blockAll = false
  sent : ∀ id sent now, nm.requestsWillBeSent.get id = some (sent, now) →
    sent.requestId = id ∧ sent.redirectResponse = none

theorem Intercepting.of_sameBooks {nm nm' : NetworkManager} (h : Intercepting nm)
    (hsame : SameBooks nm nm') : Intercepting nm' where
  protocol := by rw [hsame.protocol, h.protocol]
  user := by rw [hsame.user, h.user]
  notBlocked := by rw [hsame.blockAll, h.notBlocked]
  sent := by rw [hsame.sent]; exact h.sent

theorem ledger_of_sameBooks {nm nm' : NetworkManager} (hsame : SameBooks nm nm') (id : RequestId) :
    ledger id nm' = ledger id nm := by
  simp only [ledger, hsame.sent, hsame.paused, hsame.requests]

/-- A signal of a request that does not redirect, with a network id and without a `data:` url. -/
def Ordinary (arrival : Arrival) : Prop :=
  match arrival.signal with
  | .requestWillBeSent event =>
    event.redirectResponse = none ∧ ¬"data:".toList.isPrefixOf event.request.url.toList
  | .requestPaused event => event.networkId.isSome = true

/-- What is left to say once an announcement either waits or meets the other one. -/
structure Received (nm nm' : NetworkManager) (arrival : Arrival) : Prop where
  intercepting : Intercepting nm'
  touched : ∀ id, arrival.signal.networkId = some id → ledger id nm' = (ledger id nm).step arrival
  untouched : ∀ id, arrival.signal.networkId ≠ some id → ledger id nm' = ledger id nm

theorem received_requestWillBeSent {nm : NetworkManager} (h : Intercepting nm) (arrival : Arrival)
    {event : EventRequestWillBeSent} (hsignal : arrival.signal = .requestWillBeSent event)
    (hredirect : event.redirectResponse = none)
    (hdata : ¬"data:".toList.isPrefixOf event.request.url.toList) :
    Received nm (nm.onRequestWillBeSent arrival.now event) arrival := by
  have hid : arrival.signal.networkId = some event.requestId := by rw [hsignal]; rfl
  unfold onRequestWillBeSent
  rw [if_pos ⟨h.protocol, hdata⟩]
  cases hpaused : nm.requestIdToInterceptionId.get event.requestId with
  | some waiting =>
    simp only
    rw [onRequest_of_noRedirect _ _ _ _ hredirect]
    refine ⟨⟨h.protocol, h.user, h.notBlocked, h.sent⟩, fun id htouched => ?_, fun id hother => ?_⟩
    · obtain rfl : event.requestId = id := Option.some.inj (hid ▸ htouched)
      simp [ledger, Ledger.step, hsignal, hpaused, pushEvent, h.user]
    · have hne : id ≠ event.requestId := fun heq => hother (by rw [hid, heq])
      simp [ledger, pushEvent, Table.get_set_of_ne _ _ hne, Table.get_remove_of_ne _ hne]
  | none =>
    refine ⟨⟨h.protocol, h.user, h.notBlocked, fun id sent now hget => ?_⟩, fun id htouched => ?_,
      fun id hother => ?_⟩
    · simp only [Table.get_set] at hget
      split at hget
      · rename_i heq
        obtain ⟨rfl, rfl⟩ := Prod.mk.inj (Option.some.inj hget)
        exact ⟨heq.symm, hredirect⟩
      · exact h.sent id sent now hget
    · obtain rfl : event.requestId = id := Option.some.inj (hid ▸ htouched)
      simp [ledger, Ledger.step, hsignal, hpaused]
    · have hne : id ≠ event.requestId := fun heq => hother (by rw [hid, heq])
      simp [ledger, Table.get_set_of_ne _ _ hne]

theorem received_reconcilePaused {nm : NetworkManager} (h : Intercepting nm) (arrival : Arrival)
    {event : EventRequestPaused} (hsignal : arrival.signal = .requestPaused event)
    {networkId : RequestId} (hnetworkId : event.networkId = some networkId) :
    Received nm (nm.reconcilePaused arrival.now event) arrival := by
  have hid : arrival.signal.networkId = some networkId := by rw [hsignal]; exact hnetworkId
  simp only [reconcilePaused, hnetworkId]
  cases hsent : nm.requestsWillBeSent.get networkId with
  | some waiting =>
    obtain ⟨sent, since⟩ := waiting
    obtain ⟨hown, hredirect⟩ := h.sent _ _ _ hsent
    simp only
    rw [onRequest_of_noRedirect _ _ _ _ hredirect]
    refine ⟨⟨h.protocol, h.user, h.notBlocked, fun id sent now hget => ?_⟩, fun id htouched => ?_,
      fun id hother => ?_⟩
    · exact h.sent id sent now (Table.remove_sub _ _ _ _ hget)
    · obtain rfl : networkId = id := Option.some.inj (hid ▸ htouched)
      simp [ledger, Ledger.step, hsignal, hsent, pushEvent, h.user, hown]
    · have hne : id ≠ networkId := fun heq => hother (by rw [hid, heq])
      simp [ledger, pushEvent, hown, Table.get_set_of_ne _ _ hne, Table.get_remove_of_ne _ hne]
  | none =>
    refine ⟨⟨h.protocol, h.user, h.notBlocked, h.sent⟩, fun id htouched => ?_, fun id hother => ?_⟩
    · obtain rfl : networkId = id := Option.some.inj (hid ▸ htouched)
      simp [ledger, Ledger.step, hsignal, hsent]
    · have hne : id ≠ networkId := fun heq => hother (by rw [hid, heq])
      simp [ledger, Table.get_set_of_ne _ _ hne]

theorem receive_received (blockers : Blockers) {nm : NetworkManager} (h : Intercepting nm)
    {arrival : Arrival} (hordinary : Ordinary arrival) :
    Received nm (receive blockers nm arrival) arrival := by
  unfold Ordinary at hordinary
  unfold receive
  split at hordinary
  · rename_i event hsignal
    exact received_requestWillBeSent h arrival hsignal hordinary.1 hordinary.2
  · rename_i event hsignal
    obtain ⟨networkId, hnetworkId⟩ := Option.isSome_iff_exists.1 hordinary
    have hreceived := received_reconcilePaused h arrival hsignal hnetworkId
    have hsame := nm.sameBooks_onFetchRequestPaused blockers arrival.cache arrival.now
      arrival.systemNow event h.user h.notBlocked
    constructor
    · exact hreceived.intercepting.of_sameBooks hsame
    · intro id htouched
      rw [← hreceived.touched id htouched]
      exact ledger_of_sameBooks hsame id
    · intro id hother
      rw [← hreceived.untouched id hother]
      exact ledger_of_sameBooks hsame id

/-- Read at one id, a run is the run of the signals with that id. -/
theorem ledger_run (blockers : Blockers) {nm : NetworkManager} (h : Intercepting nm)
    {arrivals : List Arrival} (hordinary : ∀ arrival ∈ arrivals, Ordinary arrival) (id : RequestId) :
    ledger id (Run.final (receive blockers) nm arrivals) =
      Run.final Ledger.step (ledger id nm)
        (arrivals.filter fun arrival => decide (arrival.signal.networkId = some id)) := by
  apply Run.view_final (ledger id) _ Intercepting Ordinary _ _ _ h hordinary
  · intro nm arrival h hordinary
    exact (receive_received blockers h hordinary).intercepting
  · intro nm arrival h hordinary htouched
    exact (receive_received blockers h hordinary).touched id (of_decide_eq_true htouched)
  · intro nm arrival h hordinary hother
    exact (receive_received blockers h hordinary).untouched id (of_decide_eq_false hother)

/-! ### The signals with one id -/

/-- The signals of some requests in some order, each with what is read when it is handled. -/
def Announces (requests : List AnnouncedRequest) (arrivals : List Arrival) : Prop :=
  (arrivals.map Arrival.signal).Perm (requests.flatMap AnnouncedRequest.signals)

theorem signals_networkId (r : AnnouncedRequest) {signal : FetchSignal} (h : signal ∈ r.signals) :
    signal.networkId = some r.id := by
  simp only [AnnouncedRequest.signals, List.mem_cons, List.not_mem_nil, or_false] at h
  obtain rfl | rfl := h
  · rfl
  · exact r.networkId

theorem signals_filter (r : AnnouncedRequest) (id : RequestId) :
    (r.signals.filter fun signal => decide (signal.networkId = some id)) =
      if r.id = id then r.signals else [] := by
  split
  · rename_i heq
    rw [List.filter_eq_self]
    intro signal hsignal
    simp [signals_networkId r hsignal, heq]
  · rename_i hne
    rw [List.filter_eq_nil_iff]
    intro signal hsignal
    simp [signals_networkId r hsignal, hne]

theorem flatMap_signals_filter {requests : List AnnouncedRequest} (id : RequestId) :
    ((requests.flatMap AnnouncedRequest.signals).filter fun signal =>
      decide (signal.networkId = some id)) =
      (requests.filter fun r => decide (r.id = id)).flatMap AnnouncedRequest.signals := by
  induction requests with
  | nil => rfl
  | cons r rest ih =>
    rw [List.flatMap_cons, List.filter_append, signals_filter, ih]
    by_cases h : r.id = id <;> simp [h]

theorem filter_of_nodup {requests : List AnnouncedRequest}
    (hids : (requests.map AnnouncedRequest.id).Nodup) {r : AnnouncedRequest} (h : r ∈ requests) :
    (requests.filter fun r' => decide (r'.id = r.id)) = [r] := by
  induction requests with
  | nil => cases h
  | cons first rest ih =>
    rw [List.map_cons, List.nodup_cons] at hids
    obtain rfl | hrest := List.mem_cons.1 h
    · have hnone : (rest.filter fun r' => decide (r'.id = r.id)) = [] := by
        rw [List.filter_eq_nil_iff]
        intro r' hr' heq
        exact hids.1 (List.mem_map.2 ⟨r', hr', of_decide_eq_true heq⟩)
      simp [hnone]
    · have hne : first.id ≠ r.id := fun heq => hids.1 (List.mem_map.2 ⟨r, hrest, heq.symm⟩)
      simp [hne, ih hids.2 hrest]

theorem Announces.ordinary {requests : List AnnouncedRequest} {arrivals : List Arrival}
    (h : Announces requests arrivals) : ∀ arrival ∈ arrivals, Ordinary arrival := by
  intro arrival harrival
  have hmem := (List.Perm.mem_iff h).1 (List.mem_map.2 ⟨arrival, harrival, rfl⟩)
  obtain ⟨r, _, hsignal⟩ := List.mem_flatMap.1 hmem
  simp only [AnnouncedRequest.signals, List.mem_cons, List.not_mem_nil, or_false] at hsignal
  unfold Ordinary
  obtain heq | heq := hsignal
  · rw [heq]
    exact ⟨r.noRedirect, r.notData⟩
  · rw [heq]
    show r.paused.networkId.isSome = true
    rw [r.networkId]
    rfl

theorem Announces.filter {requests : List AnnouncedRequest} {arrivals : List Arrival}
    (h : Announces requests arrivals) (id : RequestId) :
    Announces (requests.filter fun r => decide (r.id = id))
      (arrivals.filter fun arrival => decide (arrival.signal.networkId = some id)) := by
  have hperm := List.Perm.filter (fun signal => decide (signal.networkId = some id)) h
  rw [flatMap_signals_filter, List.filter_map] at hperm
  exact hperm

/-- The two announcements of one request, in whichever order. -/
theorem Announces.pair {r : AnnouncedRequest} {arrivals : List Arrival} (h : Announces [r] arrivals) :
    ∃ first second, arrivals = [first, second] ∧
      (first.signal = .requestWillBeSent r.willBeSent ∧ second.signal = .requestPaused r.paused ∨
        first.signal = .requestPaused r.paused ∧ second.signal = .requestWillBeSent r.willBeSent) := by
  have hpair : arrivals.map Arrival.signal =
      [.requestWillBeSent r.willBeSent, .requestPaused r.paused] ∨
    arrivals.map Arrival.signal = [.requestPaused r.paused, .requestWillBeSent r.willBeSent] :=
    List.perm_pair.1 h
  have hlength : arrivals.length = 2 := by
    rw [← List.length_map Arrival.signal]
    obtain heq | heq := hpair <;> rw [heq] <;> rfl
  obtain ⟨first, second, rfl⟩ := List.length_eq_two.1 hlength
  refine ⟨first, second, rfl, ?_⟩
  simpa using hpair

theorem Announces.nil {arrivals : List Arrival} (h : Announces [] arrivals) : arrivals = [] := by
  exact List.map_eq_nil_iff.1 (List.Perm.eq_nil h)

/-! ### The books at the end -/

theorem ReadyForRequests.intercepting {nm : NetworkManager} (h : ReadyForRequests nm) :
    Intercepting nm where
  protocol := h.protocol
  user := h.user
  notBlocked := h.notBlocked
  sent := by
    intro id sent now hget
    rw [(Table.isEmpty_iff _).1 h.noneSent id] at hget
    cases hget

theorem ReadyForRequests.ledger {nm : NetworkManager} (h : ReadyForRequests nm) (id : RequestId) :
    ledger id nm = ⟨none, none, nm.requests.get id⟩ := by
  simp [NetworkManager.ledger, (Table.isEmpty_iff _).1 h.noneSent id,
    (Table.isEmpty_iff _).1 h.nonePaused id]

/-- Whichever announcement is first, the request is entered with its own interception id, and nothing waits. -/
theorem ledger_pair (r : AnnouncedRequest) {arrivals : List Arrival} (h : Announces [r] arrivals)
    (request : Option HttpRequest) :
    ∃ now, Run.final Ledger.step ⟨none, none, request⟩ arrivals = ⟨none, none, some (r.entry now)⟩ := by
  obtain ⟨first, second, rfl, ⟨hfirst, hsecond⟩ | ⟨hfirst, hsecond⟩⟩ := h.pair
  · refine ⟨second.now, ?_⟩
    simp [Run.final, Ledger.step, hfirst, hsecond, AnnouncedRequest.entry, AnnouncedRequest.id,
      AnnouncedRequest.interceptionId]
  · refine ⟨second.now, ?_⟩
    simp [Run.final, Ledger.step, hfirst, hsecond, AnnouncedRequest.entry, AnnouncedRequest.id,
      AnnouncedRequest.interceptionId]

section Final

variable (blockers : Blockers) {nm : NetworkManager} (hnm : ReadyForRequests nm)
  {requests : List AnnouncedRequest} (hids : (requests.map AnnouncedRequest.id).Nodup)
  {arrivals : List Arrival} (harrivals : Announces requests arrivals)

include hnm harrivals

include hids in
theorem ledger_of_announced {r : AnnouncedRequest} (hr : r ∈ requests) :
    ∃ now, ledger r.id (Run.final (receive blockers) nm arrivals) =
      ⟨none, none, some (r.entry now)⟩ := by
  rw [ledger_run blockers hnm.intercepting harrivals.ordinary, hnm.ledger]
  apply ledger_pair
  rw [← filter_of_nodup hids hr]
  exact harrivals.filter r.id

theorem ledger_of_other {id : RequestId} (hid : ∀ r ∈ requests, r.id ≠ id) :
    ledger id (Run.final (receive blockers) nm arrivals) = ⟨none, none, nm.requests.get id⟩ := by
  have hnone : (requests.filter fun r => decide (r.id = id)) = [] := by
    rw [List.filter_eq_nil_iff]
    intro r hr heq
    exact hid r hr (of_decide_eq_true heq)
  have hfilter := harrivals.filter id
  rw [hnone] at hfilter
  rw [ledger_run blockers hnm.intercepting harrivals.ordinary, hnm.ledger, hfilter.nil]
  rfl

include hids in
theorem none_waiting (id : RequestId) :
    (ledger id (Run.final (receive blockers) nm arrivals)).sent = none ∧
      (ledger id (Run.final (receive blockers) nm arrivals)).paused = none := by
  by_cases h : ∃ r ∈ requests, r.id = id
  · obtain ⟨r, hr, rfl⟩ := h
    obtain ⟨now, hledger⟩ := ledger_of_announced blockers hnm hids harrivals hr
    rw [hledger]
    exact ⟨rfl, rfl⟩
  · have hid : ∀ r ∈ requests, r.id ≠ id := by simpa using h
    rw [ledger_of_other blockers hnm harrivals hid]
    exact ⟨rfl, rfl⟩

end Final

/-- The announcements of requests with different network ids can arrive in any order: every request is entered with its own interception id, nothing is left waiting, and the entries are the same up to the time of their making. -/
theorem requests_order_independent (blockers : Blockers) {nm : NetworkManager}
    (hnm : ReadyForRequests nm) {requests : List AnnouncedRequest}
    (hids : (requests.map AnnouncedRequest.id).Nodup) {arrivals arrivals' : List Arrival}
    (harrivals : Announces requests arrivals) (harrivals' : Announces requests arrivals') :
    let final := Run.final (receive blockers) nm arrivals
    let final' := Run.final (receive blockers) nm arrivals'
    (∀ id, (final.requests.get id).map HttpRequest.forgetCreatedAt =
      (final'.requests.get id).map HttpRequest.forgetCreatedAt) ∧
    (∀ r ∈ requests, ∃ now, final.requests.get r.id = some (r.entry now)) ∧
    (∀ id, (∀ r ∈ requests, r.id ≠ id) → final.requests.get id = nm.requests.get id) ∧
    final.requestsWillBeSent.isEmpty = true ∧ final.requestIdToInterceptionId.isEmpty = true := by
  intro final final'
  have hentered : ∀ r ∈ requests, ∃ now, final.requests.get r.id = some (r.entry now) := by
    intro r hr
    obtain ⟨now, hledger⟩ := ledger_of_announced blockers hnm hids harrivals hr
    exact ⟨now, congrArg Ledger.request hledger⟩
  have hothers : ∀ id, (∀ r ∈ requests, r.id ≠ id) → final.requests.get id = nm.requests.get id :=
    fun id hid => congrArg Ledger.request (ledger_of_other blockers hnm harrivals hid)
  refine ⟨fun id => ?_, hentered, hothers, (Table.isEmpty_iff _).2 fun id => ?_,
    (Table.isEmpty_iff _).2 fun id => ?_⟩
  · by_cases h : ∃ r ∈ requests, r.id = id
    · obtain ⟨r, hr, rfl⟩ := h
      obtain ⟨now, hentry⟩ := hentered r hr
      obtain ⟨now', hledger'⟩ := ledger_of_announced blockers hnm hids harrivals' hr
      have hentry' : final'.requests.get r.id = some (r.entry now') := congrArg Ledger.request hledger'
      rw [hentry, hentry']
      rfl
    · have hid : ∀ r ∈ requests, r.id ≠ id := by simpa using h
      have hother' : final'.requests.get id = nm.requests.get id :=
        congrArg Ledger.request (ledger_of_other blockers hnm harrivals' hid)
      rw [hothers id hid, hother']
  · exact (none_waiting blockers hnm hids harrivals id).1
  · exact (none_waiting blockers hnm hids harrivals id).2

/-- A request for a script, with two ids. -/
def scriptRequest (id pausedId : String) : AnnouncedRequest where
  willBeSent :=
    { requestId := ⟨id⟩, request := ⟨"https://example.com/" ++ id, "GET", none⟩, frameId := none,
      redirectResponse := none, type := some .script, initiatorType := .parser }
  paused :=
    { requestId := ⟨pausedId⟩, request := ⟨"https://example.com/" ++ id, "GET", none⟩,
      resourceType := .script, networkId := some ⟨id⟩, redirectedRequestId := none }
  networkId := rfl
  noRedirect := rfl
  notData := by simp [String.toList_append]

def arrive (signal : FetchSignal) (now : Instant) : Arrival := ⟨signal, now, now, fun _ _ => none⟩

/-- Two scripts, one announced as sent first and the other as paused first. -/
theorem requests_order_independent_example :
    let final := Run.final (receive .none)
      { new true 0 with protocolRequestInterceptionEnabled := true }
      [arrive (.requestWillBeSent (scriptRequest "1" "a").willBeSent) 1,
        arrive (.requestPaused (scriptRequest "2" "b").paused) 2,
        arrive (.requestWillBeSent (scriptRequest "2" "b").willBeSent) 3,
        arrive (.requestPaused (scriptRequest "1" "a").paused) 4]
    (∃ now, final.requests.get ⟨"1"⟩ = some ((scriptRequest "1" "a").entry now)) ∧
      (∃ now, final.requests.get ⟨"2"⟩ = some ((scriptRequest "2" "b").entry now)) ∧
      final.requestsWillBeSent.isEmpty = true ∧ final.requestIdToInterceptionId.isEmpty = true := by
  have hannounced : Announces [scriptRequest "1" "a", scriptRequest "2" "b"]
      [arrive (.requestWillBeSent (scriptRequest "1" "a").willBeSent) 1,
        arrive (.requestPaused (scriptRequest "2" "b").paused) 2,
        arrive (.requestWillBeSent (scriptRequest "2" "b").willBeSent) 3,
        arrive (.requestPaused (scriptRequest "1" "a").paused) 4] := by
    apply List.Perm.cons
    exact List.reverse_perm [FetchSignal.requestPaused (scriptRequest "1" "a").paused,
      FetchSignal.requestWillBeSent (scriptRequest "2" "b").willBeSent,
      FetchSignal.requestPaused (scriptRequest "2" "b").paused]
  have hready : ReadyForRequests { new true 0 with protocolRequestInterceptionEnabled := true } :=
    ⟨rfl, rfl, rfl, rfl, rfl⟩
  obtain ⟨_, hentered, _, hsent, hpaused⟩ :=
    requests_order_independent .none hready (by decide) hannounced hannounced
  exact ⟨hentered _ List.mem_cons_self, hentered _ (List.mem_cons_of_mem _ List.mem_cons_self),
    hsent, hpaused⟩

end NetworkManager

end SpiderChrome
