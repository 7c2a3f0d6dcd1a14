import SpiderChrome.Library.Register
import SpiderChrome.Library.Run
import SpiderChrome.Network.Input

/-!
# What becomes of a request

Every entry that is made in the table of requests is written down in a register, with what becomes of it: it is reported as finished or failed, it goes into the chain of the request that it was redirected to, it is replaced by a later entry, or it is swept away as stale. A request over the redirect cap is written down and closed at once, for it is reported without ever being in the table.
-/

namespace SpiderChrome

open Network

inductive RequestFate where
  | finished
  | failed
  | redirected (successor : Nat)
  | replaced
  | evicted
deriving DecidableEq

/-- The fate is one that is reported. -/
def RequestFate.isReported : RequestFate → Bool
  | finished | failed => true
  | _ => false

/-- An entry without what is still written into it while it is in the table. -/
def HttpRequest.identity (request : HttpRequest) : HttpRequest :=
  { request with response := none, failureText := none, fromMemoryCache := false }

/-- The report that an event makes of a request. -/
def NetworkEvent.report? : NetworkEvent → Option (RequestFate × HttpRequest)
  | requestFinished ended => some (.finished, ended.identity)
  | requestFailed ended => some (.failed, ended.identity)
  | _ => none

abbrev Requests := Register RequestId HttpRequest RequestFate

/-- What the register says was reported. -/
def Requests.reports (r : Requests) : List (RequestFate × HttpRequest) :=
  r.closed.filterMap fun entry =>
    if entry.2.2.isReported then some (entry.2.2, entry.2.1.identity) else none

namespace NetworkManager

/-- The reports in the queue. -/
def reports (nm : NetworkManager) : List (RequestFate × HttpRequest) :=
  nm.queuedEvents.filterMap NetworkEvent.report?

/-! ### Writing it down -/

/-- The entry that `on_request` makes, or would make if the chain were shorter. -/
def newRequest (nm : NetworkManager) (now : Instant) (event : EventRequestWillBeSent)
    (interceptionId : Option InterceptionId) : HttpRequest :=
  HttpRequest.new event.requestId event.frameId interceptionId nm.userRequestInterceptionEnabled
    (nm.takeRedirectChain event).2 now

/-- The register after the request that a redirect comes from was taken out. -/
def bookRedirect (event : EventRequestWillBeSent) (r : Requests) : Requests :=
  if event.redirectResponse.isSome then r.take event.requestId (.redirected r.opened) else r

/-- A document over the redirect cap, as it is reported. -/
def overCap (event : EventRequestWillBeSent) (request : HttpRequest) : HttpRequest :=
  { request with url := some event.request.url, method := some event.request.method }

/-- What `on_request` does to the register. -/
def bookRequest (nm : NetworkManager) (now : Instant) (event : EventRequestWillBeSent)
    (interceptionId : Option InterceptionId) (r : Requests) : Requests :=
  let request := nm.newRequest now event interceptionId
  if nm.exceedsMaxRedirects event request.redirectChain then
    (bookRedirect event r).pass (overCap event request) .failed
  else (bookRedirect event r).put event.requestId request .replaced

/-- What an input does to the register. -/
def book (nm : NetworkManager) (r : Requests) : NetworkInput → Requests
  | .requestWillBeSent now event =>
    if nm.protocolRequestInterceptionEnabled ∧ ¬"data:".toList.isPrefixOf event.request.url.toList then
      match nm.requestIdToInterceptionId.get event.requestId with
      | some (interceptionId, _) => nm.bookRequest now event (some interceptionId) r
      | none => r
    else nm.bookRequest now event none r
  | .responseReceived event =>
    r.take event.requestId (if nm.leftBytes event = some 0 then .failed else .finished)
  | .loadingFinished requestId => r.take requestId .finished
  | .loadingFailed event => r.take event.requestId .failed
  | .requestPaused _ now _ event =>
    if (nm.userRequestInterceptionEnabled && nm.protocolRequestInterceptionEnabled) || nm.blockAll then r
    else match event.networkId.bind nm.requestsWillBeSent.get with
      | some (requestWillBeSent, _) =>
        nm.bookRequest now requestWillBeSent (some event.requestId.toInterceptionId) r
      | none => r
  | .evict now => r.sweep (fun request => now - staleRequest < request.createdAt) .evicted
  | _ => r

/-- A manager takes an input, and what becomes of its requests is written down. -/
def bookedStep (blockers : Blockers) (state : NetworkManager × Requests) (input : NetworkInput) :
    NetworkManager × Requests :=
  (state.1.step blockers input, state.1.book state.2 input)

/-- What was redirected is the last of the chain of its successor. -/
def Chained (r : Requests) : Prop :=
  ∀ n request m, (n, request, RequestFate.redirected m) ∈ r.closed →
    ∃ successor, (m, successor) ∈ r.items ∧ ∃ last, successor.redirectChain =
      request.redirectChain ++ [last] ∧ last.identity = { request with redirectChain := [] }.identity

/-- The register counts what a manager holds and what it has reported since it started as another. -/
structure Tallied (start nm : NetworkManager) (r : Requests) : Prop where
  /-- Every entry has one place: it is live or was closed once. -/
  accounted : r.Accounted
  /-- What is live is what the table holds. -/
  live : ∀ id, (nm.requests.get id).map HttpRequest.identity = (r.item id).map HttpRequest.identity
  /-- What was reported is what was closed as reported, each once. -/
  reported : nm.reports = start.reports ++ r.reports

/-- The register tells the truth about a manager that started as another. -/
structure Books (start nm : NetworkManager) (r : Requests) : Prop where
  tallied : Tallied start nm r
  chained : Chained r

variable {start nm nm' : NetworkManager} {r r' : Requests}

/-! ### Reports -/

theorem reports_pushEvent (nm : NetworkManager) (event : NetworkEvent) :
    (nm.pushEvent event).reports = nm.reports ++ event.report?.toList := by
  simp only [reports, pushEvent, List.filterMap_append, List.filterMap_cons, List.filterMap_nil]
  cases event.report? with
  | none => rfl
  | some report => rfl

/-- The report of closing an item, where there is one. -/
def reportOf (fate : RequestFate) (request : Option HttpRequest) :
    List (RequestFate × HttpRequest) :=
  if fate.isReported then (request.map fun request => (fate, request.identity)).toList else []

theorem reportOf_congr {request request' : Option HttpRequest} (fate : RequestFate)
    (h : request.map HttpRequest.identity = request'.map HttpRequest.identity) :
    reportOf fate request = reportOf fate request' := by
  have hmap : ∀ request : Option HttpRequest, request.map (fun request => (fate, request.identity)) =
      (request.map HttpRequest.identity).map (Prod.mk fate) := by
    intro request
    rw [Option.map_map]
    rfl
  simp only [reportOf, hmap, h]

theorem reports_append (r r' : Requests) (new : List (Nat × HttpRequest × RequestFate))
    (h : r'.closed = r.closed ++ new) : r'.reports = r.reports ++ new.filterMap fun entry =>
      if entry.2.2.isReported then some (entry.2.2, entry.2.1.identity) else none := by
  rw [Requests.reports, h, List.filterMap_append]
  rfl

theorem reports_take (r : Requests) (id : RequestId) (fate : RequestFate) :
    Requests.reports (r.take id fate) = r.reports ++ reportOf fate (r.item id) := by
  rw [reports_append r (r.take id fate) _ (r.closed_take id fate), Register.item, reportOf]
  cases r.live.get id with
  | none => simp
  | some entry => by_cases hreported : fate.isReported <;> simp [hreported]

theorem reports_put (r : Requests) (id : RequestId) (request : HttpRequest) :
    Requests.reports (r.put id request .replaced) = r.reports := by
  have htaken := reports_take r id .replaced
  rw [show reportOf .replaced (r.item id) = [] from rfl, List.append_nil] at htaken
  exact htaken

theorem reports_pass_failed (r : Requests) (request : HttpRequest) :
    Requests.reports (r.pass request .failed) = r.reports ++ [(.failed, request.identity)] :=
  reports_append r (r.pass request .failed) [(r.opened, request, .failed)] rfl

theorem reports_sweep (r : Requests) (keep : HttpRequest → Bool) :
    Requests.reports (r.sweep keep .evicted) = r.reports := by
  have hnone : ∀ entries : List (Nat × HttpRequest),
      ((entries.map fun entry => (entry.1, entry.2, RequestFate.evicted)).filterMap fun entry =>
        if entry.2.2.isReported then some (entry.2.2, entry.2.1.identity) else none) = [] := by
    intro entries
    rw [List.filterMap_eq_nil_iff]
    intro entry hentry
    obtain ⟨_, _, rfl⟩ := List.mem_map.1 hentry
    rfl
  rw [reports_append r (r.sweep keep .evicted) _ rfl, hnone, List.append_nil]

/-! ### Chains -/

theorem Chained.grow (h : Chained r) (hitems : ∀ entry ∈ r.items, entry ∈ r'.items)
    (hclosed : ∀ n request m, (n, request, RequestFate.redirected m) ∈ r'.closed →
      (n, request, RequestFate.redirected m) ∈ r.closed) : Chained r' := by
  intro n request m hmem
  obtain ⟨successor, hsuccessor, hchain⟩ := h n request m (hclosed n request m hmem)
  exact ⟨successor, hitems _ hsuccessor, hchain⟩

theorem mem_closed_take {r : Requests} {id : RequestId} {fate : RequestFate} {n m : Nat}
    {request : HttpRequest}
    (hmem : (n, request, RequestFate.redirected m) ∈ (r.take id fate).closed) :
    (n, request, RequestFate.redirected m) ∈ r.closed ∨
      r.live.get id = some (n, request) ∧ fate = .redirected m := by
  rw [Register.closed_take, List.mem_append, Option.mem_toList, Option.map_eq_some_iff] at hmem
  obtain hold | ⟨⟨n', request'⟩, hget, heq⟩ := hmem
  · exact .inl hold
  · cases heq
    exact .inr ⟨hget, rfl⟩

theorem Chained.take (h : Chained r) (id : RequestId) {fate : RequestFate}
    (hfate : ∀ m, fate ≠ .redirected m) : Chained (r.take id fate) := by
  refine h.grow (fun entry hentry => Register.mem_items_take hentry id fate) fun n request m hmem => ?_
  obtain hold | ⟨_, heq⟩ := mem_closed_take hmem
  · exact hold
  · exact absurd heq (hfate m)

theorem Chained.sweep (h : Chained r) (keep : HttpRequest → Bool) :
    Chained (r.sweep keep .evicted) := by
  refine h.grow (fun entry hentry => Register.mem_items_sweep hentry keep .evicted)
    fun n request m hmem => ?_
  obtain hold | hnew := List.mem_append.1 hmem
  · exact hold
  · obtain ⟨_, _, heq⟩ := List.mem_map.1 hnew
    cases heq

/-! ### One operation at a time -/

theorem Tallied.of_same (h : Tallied start nm r) (hrequests : ∀ id,
      (nm'.requests.get id).map HttpRequest.identity = (nm.requests.get id).map HttpRequest.identity)
    (hreports : nm'.reports = nm.reports) : Tallied start nm' r where
  accounted := h.accounted
  live id := (hrequests id).trans (h.live id)
  reported := hreports.trans h.reported

theorem Tallied.take (h : Tallied start nm r) (id : RequestId) (fate : RequestFate)
    (hrequests : nm'.requests = nm.requests.remove id)
    (hreports : nm'.reports = nm.reports ++ reportOf fate (nm.requests.get id)) :
    Tallied start nm' (r.take id fate) where
  accounted := h.accounted.take id fate
  live x := by
    rw [hrequests, Table.get_remove, Register.item_take]
    split
    · rfl
    · exact h.live x
  reported := by
    rw [hreports, h.reported, reports_take, reportOf_congr fate (h.live id), List.append_assoc]

theorem Tallied.put (h : Tallied start nm r) (id : RequestId) (request : HttpRequest)
    (hrequests : nm'.requests = nm.requests.set id request) (hreports : nm'.reports = nm.reports) :
    Tallied start nm' (r.put id request .replaced) where
  accounted := h.accounted.put id request .replaced
  live x := by
    rw [hrequests, Table.get_set, Register.item_put]
    split
    · rfl
    · exact h.live x
  reported := by rw [hreports, h.reported, reports_put]

theorem Tallied.pass (h : Tallied start nm r) (request : HttpRequest)
    (hrequests : nm'.requests = nm.requests)
    (hreports : nm'.reports = nm.reports ++ [(.failed, request.identity)]) :
    Tallied start nm' (r.pass request .failed) where
  accounted := h.accounted.pass request .failed
  live x := by
    rw [hrequests]
    exact h.live x
  reported := by rw [hreports, h.reported, reports_pass_failed, List.append_assoc]

/-- The sweep looks only at what an entry keeps from the start. -/
theorem Tallied.sweep (h : Tallied start nm r) (keep : HttpRequest → Bool)
    (hkeep : ∀ request, keep request.identity = keep request)
    (hrequests : nm'.requests = nm.requests.retain fun _ request => keep request)
    (hreports : nm'.reports = nm.reports) : Tallied start nm' (r.sweep keep .evicted) where
  accounted := h.accounted.sweep keep .evicted
  live x := by
    have hfilter : ∀ request : Option HttpRequest, (request.filter keep).map HttpRequest.identity =
        (request.map HttpRequest.identity).filter keep := by
      intro request
      cases request with
      | none => rfl
      | some request =>
        simp only [Option.filter_some, Option.map_some, hkeep]
        split
        · rfl
        · rfl
    rw [hrequests, Table.get_retain, Register.item_sweep, hfilter, hfilter, h.live x]
  reported := by rw [hreports, h.reported, reports_sweep]

theorem Books.take (h : Books start nm r) (id : RequestId) (fate : RequestFate)
    (hfate : ∀ m, fate ≠ .redirected m) (hrequests : nm'.requests = nm.requests.remove id)
    (hreports : nm'.reports = nm.reports ++ reportOf fate (nm.requests.get id)) :
    Books start nm' (r.take id fate) :=
  ⟨h.tallied.take id fate hrequests hreports, h.chained.take id hfate⟩

theorem Books.of_same (h : Books start nm r) (hrequests : nm'.requests = nm.requests)
    (hreports : nm'.reports = nm.reports) : Books start nm' r :=
  ⟨h.tallied.of_same (fun id => by rw [hrequests]) hreports, h.chained⟩

/-! ### Redirects -/

theorem takeRedirectChain_eq (nm : NetworkManager) (event : EventRequestWillBeSent) :
    ∃ attempted, (nm.takeRedirectChain event).1 = { nm with
      requests := if event.redirectResponse.isSome then nm.requests.remove event.requestId
        else nm.requests
      attemptedAuthentications := attempted } := by
  unfold takeRedirectChain
  cases event.redirectResponse with
  | none => exact ⟨_, rfl⟩
  | some response =>
    cases hget : nm.requests.get event.requestId with
    | none =>
      refine ⟨nm.attemptedAuthentications, ?_⟩
      simp only [Option.isSome_some, if_true, Table.remove_of_get_eq_none hget]
    | some request => exact ⟨_, rfl⟩

/-- The chain is taken from the table alone. -/
theorem takeRedirectChain_congr {nm nm' : NetworkManager} (h : nm'.requests = nm.requests)
    (event : EventRequestWillBeSent) :
    (nm'.takeRedirectChain event).2 = (nm.takeRedirectChain event).2 := by
  unfold takeRedirectChain
  cases event.redirectResponse with
  | none => rfl
  | some response =>
    simp only [h]
    cases nm.requests.get event.requestId with
    | none => rfl
    | some request => rfl

theorem takeRedirectChain_of_get {event : EventRequestWillBeSent} {request : HttpRequest}
    (hredirect : event.redirectResponse.isSome = true)
    (hget : nm.requests.get event.requestId = some request) :
    ∃ last, (nm.takeRedirectChain event).2 = request.redirectChain ++ [last] ∧
      last.identity = { request with redirectChain := [] }.identity := by
  obtain ⟨response, hresponse⟩ := Option.isSome_iff_exists.1 hredirect
  simp only [takeRedirectChain, hresponse, hget]
  exact ⟨_, rfl, rfl⟩

theorem bookRequest_congr (hrequests : nm'.requests = nm.requests)
    (huser : nm'.userRequestInterceptionEnabled = nm.userRequestInterceptionEnabled)
    (hcap : nm'.maxRedirects = nm.maxRedirects) (now : Instant) (event : EventRequestWillBeSent)
    (interceptionId : Option InterceptionId) (r : Requests) :
    nm'.bookRequest now event interceptionId r = nm.bookRequest now event interceptionId r := by
  have hnew : nm'.newRequest now event interceptionId = nm.newRequest now event interceptionId := by
    rw [newRequest, newRequest, takeRedirectChain_congr hrequests, huser]
  have hexceeds : ∀ chain, nm'.exceedsMaxRedirects event chain = nm.exceedsMaxRedirects event chain := by
    intro chain
    rw [exceedsMaxRedirects, exceedsMaxRedirects, hcap]
  rw [bookRequest, bookRequest, hnew, hexceeds]

theorem opened_bookRedirect (event : EventRequestWillBeSent) (r : Requests) :
    (bookRedirect event r).opened = r.opened := by
  unfold bookRedirect
  split
  · exact r.opened_take _ _
  · rfl

theorem mem_items_bookRedirect {entry : Nat × HttpRequest} (h : entry ∈ r.items)
    (event : EventRequestWillBeSent) : entry ∈ (bookRedirect event r).items := by
  unfold bookRedirect
  split
  · exact Register.mem_items_take h _ _
  · exact h

theorem Tallied.bookRedirect (h : Tallied start nm r) (event : EventRequestWillBeSent) :
    Tallied start (nm.takeRedirectChain event).1 (bookRedirect event r) := by
  obtain ⟨attempted, hfst⟩ := nm.takeRedirectChain_eq event
  rw [hfst, NetworkManager.bookRedirect]
  cases hredirect : event.redirectResponse.isSome with
  | true => exact h.take _ _ rfl (List.append_nil _).symm
  | false => exact h.of_same (fun _ => rfl) rfl

/-- What was redirected is in the chain of the request that gets the next number. -/
theorem Books.chained_of_successor (h : Books start nm r) (event : EventRequestWillBeSent)
    (successor : HttpRequest) (hsuccessor : (r.opened, successor) ∈ r'.items)
    (hchain : successor.redirectChain = (nm.takeRedirectChain event).2)
    (hitems : ∀ entry ∈ (bookRedirect event r).items, entry ∈ r'.items)
    (hclosed : ∀ n request m, (n, request, RequestFate.redirected m) ∈ r'.closed →
      (n, request, RequestFate.redirected m) ∈ (bookRedirect event r).closed) : Chained r' := by
  intro n request m hmem
  have hold : (n, request, RequestFate.redirected m) ∈ r.closed → ∃ successor,
      (m, successor) ∈ r'.items ∧ ∃ last, successor.redirectChain = request.redirectChain ++ [last] ∧
        last.identity = { request with redirectChain := [] }.identity := by
    intro hmem
    obtain ⟨successor, hmem, hlast⟩ := h.chained n request m hmem
    exact ⟨successor, hitems _ (mem_items_bookRedirect hmem event), hlast⟩
  have hredirected := hclosed n request m hmem
  unfold bookRedirect at hredirected
  split at hredirected
  · rename_i hredirect
    obtain hmem | ⟨hlive, hfate⟩ := mem_closed_take hredirected
    · exact hold hmem
    · -- The entry was live under the id, so the table holds it with the same chain.
      cases hfate
      have hitem : (nm.requests.get event.requestId).map HttpRequest.identity =
          some request.identity := by
        rw [h.tallied.live, Register.item, hlive]
        rfl
      obtain ⟨held, hget, hidentity⟩ := Option.map_eq_some_iff.1 hitem
      obtain ⟨last, hlast, hsame⟩ := takeRedirectChain_of_get hredirect hget
      refine ⟨successor, hsuccessor, last, ?_, ?_⟩
      · rw [hchain, hlast]
        have hsameChain : held.identity.redirectChain = request.identity.redirectChain := by
          rw [hidentity]
        exact congrArg (· ++ [last]) hsameChain
      · rw [hsame]
        exact congrArg (fun request : HttpRequest => { request with redirectChain := [] }) hidentity
  · exact hold hredirected

/-- What `on_request` does, seen from the state that the redirect leaves. -/
theorem onRequest_eq (nm : NetworkManager) (now : Instant) (event : EventRequestWillBeSent)
    (interceptionId : Option InterceptionId) :
    nm.onRequest now event interceptionId =
      if nm.exceedsMaxRedirects event (nm.newRequest now event interceptionId).redirectChain then
        ((nm.takeRedirectChain event).1.pushCdpRequest .stopLoading).pushEvent (.requestFailed
          { overCap event (nm.newRequest now event interceptionId) with
            failureText := some "net::ERR_TOO_MANY_REDIRECTS" })
      else
        { (nm.takeRedirectChain event).1.pushEvent (.request event.requestId) with
          requests := (nm.takeRedirectChain event).1.requests.set event.requestId
            (nm.newRequest now event interceptionId) } := by
  obtain ⟨attempted, hfst⟩ := nm.takeRedirectChain_eq event
  have hcap : (nm.takeRedirectChain event).1.exceedsMaxRedirects event (nm.takeRedirectChain event).2 =
      nm.exceedsMaxRedirects event (nm.takeRedirectChain event).2 := by
    rw [hfst]
    rfl
  have huser : (nm.takeRedirectChain event).1.userRequestInterceptionEnabled =
      nm.userRequestInterceptionEnabled := by rw [hfst]
  simp only [onRequest, hcap, huser]
  rfl

theorem Books.onRequest (h : Books start nm r) (now : Instant) (event : EventRequestWillBeSent)
    (interceptionId : Option InterceptionId) :
    Books start (nm.onRequest now event interceptionId)
      (nm.bookRequest now event interceptionId r) := by
  have htallied := h.tallied.bookRedirect event
  have hopened := opened_bookRedirect event r
  rw [onRequest_eq, bookRequest]
  split
  · refine ⟨htallied.pass _ rfl ?_, h.chained_of_successor event
      (overCap event (nm.newRequest now event interceptionId)) ?_ rfl ?_ ?_⟩
    · rw [reports_pushEvent, pushCdpRequest, reports_pushEvent, List.append_assoc]
      rfl
    · exact hopened ▸ (Register.items_pass _ _ _).mem_iff.2 List.mem_cons_self
    · exact fun entry hentry => Register.mem_items_pass hentry _ _
    · intro n request m hmem
      obtain hold | hnew := List.mem_append.1 hmem
      · exact hold
      · cases List.mem_singleton.1 hnew
  · refine ⟨htallied.put _ _ rfl ?_, h.chained_of_successor event
      (nm.newRequest now event interceptionId) ?_ rfl ?_ ?_⟩
    · exact (reports_pushEvent _ _).trans (List.append_nil _)
    · exact hopened ▸ (Register.items_put _ _ _ _).mem_iff.2 List.mem_cons_self
    · exact fun entry hentry => Register.mem_items_put hentry _ _ _
    · intro n request m hmem
      rw [Register.closed_put] at hmem
      obtain hold | ⟨_, hfate⟩ := mem_closed_take hmem
      · exact hold
      · cases hfate

/-- The buffers play no part in what `on_request` does. -/
theorem Books.onRequest_of_same (h : Books start nm r) (nm' : NetworkManager)
    (hrequests : nm'.requests = nm.requests) (hreports : nm'.reports = nm.reports)
    (huser : nm'.userRequestInterceptionEnabled = nm.userRequestInterceptionEnabled)
    (hcap : nm'.maxRedirects = nm.maxRedirects) (now : Instant) (event : EventRequestWillBeSent)
    (interceptionId : Option InterceptionId) :
    Books start (nm'.onRequest now event interceptionId)
      (nm.bookRequest now event interceptionId r) := by
  rw [← bookRequest_congr hrequests huser hcap]
  exact (h.of_same hrequests hreports).onRequest now event interceptionId

/-! ### A step -/

theorem Books.onRequestWillBeSent (h : Books start nm r) (now : Instant)
    (event : EventRequestWillBeSent) :
    Books start (nm.onRequestWillBeSent now event)
      (nm.book r (.requestWillBeSent now event)) := by
  simp only [NetworkManager.onRequestWillBeSent, book]
  split
  · cases nm.requestIdToInterceptionId.get event.requestId with
    | some paused =>
      exact h.onRequest_of_same
        { nm with requestIdToInterceptionId := nm.requestIdToInterceptionId.remove event.requestId }
        rfl rfl rfl rfl now event (some paused.1)
    | none => exact h.of_same rfl rfl
  · exact h.onRequest now event none

theorem Books.onRequestServedFromCache (h : Books start nm r) (requestId : RequestId) :
    Books start (nm.onRequestServedFromCache requestId) r := by
  refine ⟨h.tallied.of_same (fun id => ?_) rfl, h.chained⟩
  rw [NetworkManager.onRequestServedFromCache, Table.get_update]
  split
  · rw [Option.map_map]
    rfl
  · rfl

theorem reports_settle (nm : NetworkManager) (event : EventResponseReceived) :
    (nm.settle event).reports = nm.reports := by
  rw [settle_eq, reports]
  dsimp only
  split
  · exact (reports_pushEvent _ _).trans (List.append_nil _)
  · rfl

theorem Books.onResponseReceived (h : Books start nm r) (event : EventResponseReceived) :
    Books start (nm.onResponseReceived event) (nm.book r (.responseReceived event)) := by
  have hfate : ∀ m, (if nm.leftBytes event = some 0 then RequestFate.failed else .finished) ≠
      .redirected m := by
    intro m
    split <;> exact RequestFate.noConfusion
  refine h.take event.requestId _ hfate ?_ ?_
  · rw [onResponseReceived_eq]
    split
    · rfl
    · rename_i hnone
      rw [settle_eq, Table.remove_of_get_eq_none hnone]
  · rw [onResponseReceived_eq]
    cases nm.requests.get event.requestId with
    | some request =>
      rw [reports_pushEvent]
      refine congrArg₂ (· ++ ·) (nm.reports_settle event) ?_
      split
      · rfl
      · rfl
    | none =>
      rw [reports_settle]
      unfold reportOf
      split
      · exact (List.append_nil _).symm
      · exact (List.append_nil _).symm

theorem Books.onNetworkLoadingFinished (h : Books start nm r) (requestId : RequestId) :
    Books start (nm.onNetworkLoadingFinished requestId) (r.take requestId .finished) := by
  unfold NetworkManager.onNetworkLoadingFinished
  split
  · rename_i request hget
    refine h.take requestId .finished (fun _ => RequestFate.noConfusion) rfl ?_
    rw [reports_pushEvent, hget]
    rfl
  · rename_i hnone
    refine h.take requestId .finished (fun _ => RequestFate.noConfusion) ?_ ?_
    · exact (Table.remove_of_get_eq_none hnone).symm
    · rw [hnone]
      exact (List.append_nil _).symm

theorem Books.onNetworkLoadingFailed (h : Books start nm r) (event : EventLoadingFailed) :
    Books start (nm.onNetworkLoadingFailed event) (r.take event.requestId .failed) := by
  unfold NetworkManager.onNetworkLoadingFailed
  split
  · rename_i request hget
    refine h.take event.requestId .failed (fun _ => RequestFate.noConfusion) rfl ?_
    rw [reports_pushEvent, hget]
    rfl
  · rename_i hnone
    refine h.take event.requestId .failed (fun _ => RequestFate.noConfusion) ?_ ?_
    · exact (Table.remove_of_get_eq_none hnone).symm
    · rw [hnone]
      exact (List.append_nil _).symm

theorem Books.reconcilePaused (h : Books start nm r) (now : Instant) (event : EventRequestPaused) :
    Books start (nm.reconcilePaused now event)
      (match event.networkId.bind nm.requestsWillBeSent.get with
      | some (requestWillBeSent, _) =>
        nm.bookRequest now requestWillBeSent (some event.requestId.toInterceptionId) r
      | none => r) := by
  unfold NetworkManager.reconcilePaused
  cases event.networkId with
  | none => exact h
  | some networkId =>
    simp only [Option.bind_some]
    cases nm.requestsWillBeSent.get networkId with
    | none => exact h.of_same rfl rfl
    | some sent =>
      exact h.onRequest_of_same
        { nm with requestsWillBeSent := nm.requestsWillBeSent.remove networkId }
        rfl rfl rfl rfl now sent.1 _

theorem Books.pushCdpRequest (h : Books start nm r) (command : NetworkCommand) :
    Books start (nm.pushCdpRequest command) r :=
  h.of_same rfl ((reports_pushEvent _ _).trans (List.append_nil _))

theorem Books.onFetchRequestPaused (h : Books start nm r) (blockers : Blockers)
    (cache : SessionCache) (now systemNow : Instant) (event : EventRequestPaused) :
    Books start (nm.onFetchRequestPaused blockers cache now systemNow event)
      (nm.book r (.requestPaused cache now systemNow event)) := by
  obtain ⟨huser, heq⟩ | ⟨huser, hblock, heq⟩ | ⟨huser, hblock, command, heq⟩ :=
    nm.onFetchRequestPaused_cases blockers cache now systemNow event
  · rw [heq, book, huser]
    exact h
  · rw [heq, book, huser, hblock]
    exact h.pushCdpRequest _
  · have hrequests : ((nm.reconcilePaused now event).tracked event).1.requests =
        (nm.reconcilePaused now event).requests := by rw [tracked_eq]
    have hreports : ((nm.reconcilePaused now event).tracked event).1.reports =
        (nm.reconcilePaused now event).reports := by
      rw [tracked_eq]
      rfl
    rw [heq, book, huser, hblock]
    exact ((h.reconcilePaused now event).of_same hrequests hreports).pushCdpRequest command

theorem Books.onFetchAuthRequired (h : Books start nm r) (requestId : Fetch.RequestId) :
    Books start (nm.onFetchAuthRequired requestId) r := by
  obtain ⟨attempted, command, heq⟩ := nm.onFetchAuthRequired_same requestId
  rw [heq]
  have hsame : Books start { nm with attemptedAuthentications := attempted } r := h.of_same rfl rfl
  exact hsame.pushCdpRequest command

theorem Books.evictStaleEntries (h : Books start nm r) (now : Instant) :
    Books start (nm.evictStaleEntries now) (nm.book r (.evict now)) := by
  refine ⟨?_, h.chained.sweep _⟩
  exact h.tallied.sweep (fun request => now - staleRequest < request.createdAt) (fun _ => rfl) rfl rfl

/-- Whatever reaches a manager, the register stays true. -/
theorem Books.bookedStep (h : Books start nm r) (blockers : Blockers) (input : NetworkInput) :
    Books start (nm.step blockers input) (nm.book r input) := by
  cases input with
  | requestWillBeSent now event => exact h.onRequestWillBeSent now event
  | requestServedFromCache requestId => exact h.onRequestServedFromCache requestId
  | responseReceived event => exact h.onResponseReceived event
  | loadingFinished requestId => exact h.onNetworkLoadingFinished requestId
  | loadingFailed event => exact h.onNetworkLoadingFailed event
  | requestPaused cache now systemNow event => exact h.onFetchRequestPaused blockers cache now systemNow event
  | authRequired requestId => exact h.onFetchAuthRequired requestId
  | evict now => exact h.evictStaleEntries now
  | setBlockAll blockAll => exact h.of_same rfl rfl

/-! ### A run -/

theorem books_start (nm : NetworkManager) : Books nm nm (Register.ofTable nm.requests) where
  tallied := {
    accounted := Register.accounted_ofTable _
    live := fun id => by rw [Register.item_ofTable]
    reported := (List.append_nil _).symm }
  chained := fun _ _ _ hmem => absurd hmem List.not_mem_nil

theorem final_bookedStep (blockers : Blockers) (nm : NetworkManager) (r : Requests)
    (inputs : List NetworkInput) : (Run.final (NetworkManager.bookedStep blockers) (nm, r) inputs).1 =
      Run.final (step blockers) nm inputs := by
  induction inputs generalizing nm r with
  | nil => rfl
  | cons input rest ih => exact ih _ _

/-- Each tracked request ends once. Over any run every entry that was ever made has a number of its own, and is at the end in exactly one place: in the table, or reported once, or the last of the chain of its successor, or replaced, or swept away. -/
theorem requests_end_once (blockers : Blockers) (nm : NetworkManager) (inputs : List NetworkInput) :
    let final := Run.final (NetworkManager.bookedStep blockers) (nm, Register.ofTable nm.requests) inputs
    final.1 = Run.final (step blockers) nm inputs ∧ Books nm final.1 final.2 := by
  refine ⟨final_bookedStep blockers nm _ inputs, ?_⟩
  exact Run.invariant_of_step (fun state : NetworkManager × Requests => Books nm state.1 state.2)
    (fun _ input h => h.bookedStep blockers input) (books_start nm) inputs

end NetworkManager

end SpiderChrome
