import SpiderChrome.Network.Redirects
import Mathlib.Data.Finset.Option

/-!
# Credentials

A request that is challenged is offered the credentials once. That it was is kept in a set of its own, which is read at the next challenge and cleared when the request is finished, failed or redirected. The sweep of stale entries clears it as well: it drops every id that no request left in the table was paused under. A request can be challenged without being in the table, for it is only entered when its announcement and its pause have met, is taken out by its response, and is itself swept after a while; then the credentials are offered again.
-/

namespace SpiderChrome

open Network

/-- The request that credentials are offered to. -/
def NetworkEvent.offeredTo : NetworkEvent → Option RequestId
  | sendCdpRequest (.continueWithAuth requestId .provideCredentials _) => some ⟨requestId.inner⟩
  | _ => none

namespace NetworkManager

/-- The offers that were ever queued, in order. -/
def offers (nm : NetworkManager) : List RequestId :=
  nm.queuedEvents.filterMap NetworkEvent.offeredTo

/-- The offer that an input makes. -/
def offerOf (nm : NetworkManager) : NetworkInput → Option RequestId
  | .authRequired requestId =>
    if nm.challengeAnswer requestId = .provideCredentials then some ⟨requestId.inner⟩ else none
  | _ => none

variable {nm nm' : NetworkManager} {input : NetworkInput}

theorem Queues.offers {event : Option NetworkEvent} (h : Queues event nm nm') :
    nm'.offers = nm.offers ++ (event.bind NetworkEvent.offeredTo).toList := by
  obtain ⟨first, last, hqueued, hall⟩ := h
  have hroutine : ∀ routine ∈ first ++ last, routine.offeredTo = none := by
    intro routine hmem
    have hroutine := hall routine hmem
    cases routine with
    | sendCdpRequest command =>
      cases command with
      | continueWithAuth requestId response credentials => cases hroutine
      | _ => rfl
    | _ => rfl
  have hfirst : first.filterMap NetworkEvent.offeredTo = [] :=
    List.filterMap_eq_nil_iff.2 fun routine hmem => hroutine routine (List.mem_append_left _ hmem)
  have hlast : last.filterMap NetworkEvent.offeredTo = [] :=
    List.filterMap_eq_nil_iff.2 fun routine hmem => hroutine routine (List.mem_append_right _ hmem)
  simp only [NetworkManager.offers, hqueued, List.filterMap_append, hfirst, hlast, List.nil_append,
    List.append_nil]
  cases event with
  | none => rfl
  | some event => cases hoffer : event.offeredTo <;> simp [hoffer]

theorem offers_step (blockers : Blockers) (nm : NetworkManager) (input : NetworkInput) :
    (nm.step blockers input).offers = nm.offers ++ (nm.offerOf input).toList := by
  rw [(nm.queues_step blockers input).offers]
  refine congrArg (nm.offers ++ Option.toList ·) ?_
  have hreported : (nm.reported input).bind NetworkEvent.offeredTo = none := by
    rw [reported]
    cases nm.announcement input with
    | none => rfl
    | some announced =>
      simp only [Option.bind_some]
      split
      · rfl
      · rfl
  cases input with
  | authRequired requestId =>
    show NetworkEvent.offeredTo (.sendCdpRequest (.continueWithAuth requestId _ _)) = _
    rw [offerOf]
    cases nm.challengeAnswer requestId with
    | provideCredentials => rfl
    | default => rfl
    | cancelAuth => rfl
  | _ =>
    show ((nm.reported _).or none).bind NetworkEvent.offeredTo = none
    rw [Option.or_none]
    exact hreported

/-! ### What becomes of an attempt -/

/-- The request that an input ends. Whether a response ends it too is left open: it takes the request out of the table and does not clear the attempt. -/
def endedRequest (answered : Bool) (nm : NetworkManager) (input : NetworkInput) : Option HttpRequest :=
  match input with
  | .responseReceived event => if answered then nm.requests.get event.requestId else none
  | .loadingFinished requestId => nm.requests.get requestId
  | .loadingFailed event => nm.requests.get event.requestId
  | input => (nm.announcement input).bind fun announced =>
    if announced.event.redirectResponse.isSome then nm.requests.get announced.event.requestId
    else none

/-- The id that a request was paused under. -/
def pausedUnder (request : Option HttpRequest) : Finset RequestId :=
  ((request.bind HttpRequest.interceptionId).map fun id => (⟨id.inner⟩ : RequestId)).toFinset

/-- The attempts that a sweep drops: no request that it leaves was paused under the id. -/
def stranded (nm : NetworkManager) : NetworkInput → Finset RequestId
  | .evict now => nm.attemptedAuthentications.filter fun id =>
    ¬∃ request ∈ (nm.requests.retain fun _ request => now - staleRequest < request.createdAt).values,
      request.interceptionId = some ⟨id.inner⟩
  | _ => ∅

theorem erase_attempt (attempted : Finset RequestId) (request : HttpRequest) :
    (match request.interceptionId with
      | some id => attempted.erase ⟨id.inner⟩
      | none => attempted) = attempted \ pausedUnder (some request) := by
  rw [pausedUnder, Option.bind_some]
  cases request.interceptionId with
  | none => simp
  | some id => simp [Finset.sdiff_singleton_eq_erase]

theorem takeRedirectChain_attempted (nm : NetworkManager) (event : EventRequestWillBeSent) :
    (nm.takeRedirectChain event).1.attemptedAuthentications = nm.attemptedAuthentications \
      pausedUnder (if event.redirectResponse.isSome then nm.requests.get event.requestId else none) := by
  unfold takeRedirectChain
  cases event.redirectResponse with
  | none => exact Finset.sdiff_empty.symm
  | some response =>
    cases nm.requests.get event.requestId with
    | none => exact Finset.sdiff_empty.symm
    | some request => exact erase_attempt _ _

theorem onRequest_attempted (nm : NetworkManager) (now : Instant) (event : EventRequestWillBeSent)
    (interceptionId : Option InterceptionId) :
    (nm.onRequest now event interceptionId).attemptedAuthentications =
      (nm.takeRedirectChain event).1.attemptedAuthentications := by
  rw [onRequest_eq]
  split
  · rfl
  · rfl

theorem onFetchAuthRequired_attempted (nm : NetworkManager) (requestId : Fetch.RequestId) :
    (nm.onFetchAuthRequired requestId).attemptedAuthentications =
      nm.attemptedAuthentications ∪ (nm.offerOf (.authRequired requestId)).toFinset := by
  simp only [onFetchAuthRequired, offerOf, challengeAnswer]
  split
  · simp [pushCdpRequest, pushEvent]
  · split
    · simp [pushCdpRequest, pushEvent]
    · simp [pushCdpRequest, pushEvent]

/-- The attempts after an input: an end and a sweep take some away, an offer adds one. -/
theorem attempted_step (blockers : Blockers) (nm : NetworkManager) (input : NetworkInput) :
    (nm.step blockers input).attemptedAuthentications =
      ((nm.attemptedAuthentications \ pausedUnder (nm.endedRequest false input)) \
        nm.stranded input) ∪ (nm.offerOf input).toFinset := by
  have hplain : ∀ ended, nm.stranded input = ∅ → nm.offerOf input = none →
      nm.endedRequest false input = ended →
      ((nm.attemptedAuthentications \ pausedUnder (nm.endedRequest false input)) \
        nm.stranded input) ∪ (nm.offerOf input).toFinset =
      nm.attemptedAuthentications \ pausedUnder ended := by
    intro ended hstranded hoffer hended
    rw [hstranded, hoffer, hended, Finset.sdiff_empty]
    exact Finset.union_empty _
  cases hannounced : nm.announcement input with
  | some announced =>
    obtain ⟨nm', hsame, answer, _, hattempted, _⟩ := step_of_announcement blockers hannounced
    rw [hattempted, onRequest_attempted, takeRedirectChain_attempted, hsame.attempted, hsame.requests]
    refine (hplain _ ?_ ?_ ?_).symm
    · cases input <;> first | rfl | cases hannounced
    · cases input <;> first | rfl | cases hannounced
    · cases input with
      | requestWillBeSent now event => simp only [endedRequest, hannounced, Option.bind_some]
      | requestPaused cache now systemNow event =>
        simp only [endedRequest, hannounced, Option.bind_some]
      | _ => cases hannounced
  | none =>
    cases input with
    | requestWillBeSent now event =>
      refine Eq.trans ?_ (hplain none rfl rfl ?_).symm
      · simp only [announcement] at hannounced
        simp only [step, onRequestWillBeSent]
        split at hannounced
        · rename_i hintercepted
          rw [if_pos hintercepted, Option.map_eq_none_iff.1 hannounced]
          exact Finset.sdiff_empty.symm
        · cases hannounced
      · simp only [endedRequest, hannounced, Option.bind_none]
    | requestServedFromCache requestId => exact (hplain none rfl rfl rfl).symm ▸ Finset.sdiff_empty.symm
    | responseReceived event =>
      refine Eq.trans ?_ (hplain none rfl rfl rfl).symm
      rw [step, onResponseReceived_eq, settle_eq]
      split
      · exact Finset.sdiff_empty.symm
      · exact Finset.sdiff_empty.symm
    | loadingFinished requestId =>
      refine Eq.trans ?_ (hplain (nm.requests.get requestId) rfl rfl rfl).symm
      simp only [step, onNetworkLoadingFinished]
      cases nm.requests.get requestId with
      | none => exact Finset.sdiff_empty.symm
      | some request => exact erase_attempt _ _
    | loadingFailed event =>
      refine Eq.trans ?_ (hplain (nm.requests.get event.requestId) rfl rfl rfl).symm
      simp only [step, onNetworkLoadingFailed]
      cases nm.requests.get event.requestId with
      | none => exact Finset.sdiff_empty.symm
      | some request => exact erase_attempt _ _
    | requestPaused cache now systemNow event =>
      refine Eq.trans ?_ (hplain none rfl rfl ?_).symm
      · exact (onFetchRequestPaused_of_none blockers cache now systemNow event hannounced).2.1.trans
          Finset.sdiff_empty.symm
      · simp only [endedRequest, hannounced, Option.bind_none]
    | authRequired requestId =>
      rw [step, onFetchAuthRequired_attempted]
      show _ = ((_ \ ∅) \ ∅) ∪ _
      rw [Finset.sdiff_empty, Finset.sdiff_empty]
    | evict now =>
      show nm.attemptedAuthentications.filter _ = ((_ \ ∅) \ nm.attemptedAuthentications.filter _) ∪ ∅
      rw [Finset.sdiff_empty, Finset.union_empty]
      ext id
      simp only [Finset.mem_filter, Finset.mem_sdiff]
      constructor
      · rintro ⟨hmem, hkept⟩
        exact ⟨hmem, fun hdropped => hdropped.2 hkept⟩
      · rintro ⟨hmem, hkept⟩
        exact ⟨hmem, Classical.byContradiction fun hdropped => hkept ⟨hmem, hdropped⟩⟩
    | setBlockAll blockAll => exact (hplain none rfl rfl rfl).symm ▸ Finset.sdiff_empty.symm

end NetworkManager

/-! ### Offers and ends -/

/-- A manager with what it did: the ids that credentials were offered to since their request last ended, and those of them whose attempt was dropped by a sweep in between. -/
structure Offers where
  manager : NetworkManager
  offered : Finset RequestId
  forgotten : Finset RequestId

namespace Offers

/-- Nothing was offered yet. -/
def start (nm : NetworkManager) : Offers := ⟨nm, ∅, ∅⟩

/-- The offers that an input adds to the queue. -/
def made (blockers : Blockers) (s : Offers) (input : NetworkInput) : List RequestId :=
  (s.manager.step blockers input).offers.drop s.manager.offers.length

def step (answered : Bool) (blockers : Blockers) (s : Offers) (input : NetworkInput) : Offers :=
  let ended := NetworkManager.pausedUnder (s.manager.endedRequest answered input)
  let made := (s.made blockers input).toFinset
  { manager := s.manager.step blockers input
    offered := (s.offered \ ended) ∪ made
    forgotten := ((s.forgotten \ ended) \ made) ∪ (s.offered ∩ s.manager.stranded input) }

/-- Every offer of the step goes to an id that has had none since its request last ended, and a challenge of one that has had its offer is cancelled. -/
def Once (blockers : Blockers) (s : Offers) (input : NetworkInput) : Prop :=
  (∀ id ∈ s.made blockers input, id ∉ s.offered) ∧
    match input with
    | .authRequired requestId => ⟨requestId.inner⟩ ∈ s.offered →
      s.manager.step blockers input = s.manager.pushCdpRequest
        (.continueWithAuth requestId .cancelAuth s.manager.credentials)
    | _ => True

/-- No challenge comes for an id whose attempt a sweep has dropped. -/
def Unforgotten (s : Offers) : NetworkInput → Prop
  | .authRequired requestId => ⟨requestId.inner⟩ ∉ s.forgotten
  | _ => True

/-- An offer that was made and not ended is either remembered or was dropped by a sweep. -/
structure Kept (s : Offers) : Prop where
  credentials : s.manager.credentials.isSome = true
  offered : ∀ id ∈ s.offered, id ∈ s.manager.attemptedAuthentications ∨ id ∈ s.forgotten
  forgotten : ∀ id ∈ s.forgotten, id ∈ s.offered ∧ id ∉ s.manager.attemptedAuthentications

theorem made_eq (blockers : Blockers) (s : Offers) (input : NetworkInput) :
    s.made blockers input = (s.manager.offerOf input).toList := by
  rw [made, NetworkManager.offers_step, List.drop_left]

theorem mem_made (blockers : Blockers) (s : Offers) (input : NetworkInput) (id : RequestId) :
    id ∈ s.made blockers input ↔ s.manager.offerOf input = some id := by
  rw [made_eq, Option.mem_toList]

/-- Only an id that has no attempt is made an offer. -/
theorem not_mem_attempted_of_made {blockers : Blockers} {s : Offers} {input : NetworkInput}
    {id : RequestId} (h : id ∈ s.made blockers input) :
    id ∉ s.manager.attemptedAuthentications := by
  rw [mem_made] at h
  cases input with
  | authRequired requestId =>
    rw [NetworkManager.offerOf, Option.ite_none_right_eq_some, Option.some.injEq] at h
    obtain ⟨hprovided, rfl⟩ := h
    intro hmem
    rw [NetworkManager.challengeAnswer, if_pos hmem] at hprovided
    cases hprovided
  | _ => cases h

/-- With credentials the first challenge of an id is an offer. -/
theorem made_of_not_mem {blockers : Blockers} {s : Offers}
    (hcredentials : s.manager.credentials.isSome = true) {requestId : Fetch.RequestId}
    (h : ⟨requestId.inner⟩ ∉ s.manager.attemptedAuthentications) :
    ⟨requestId.inner⟩ ∈ s.made blockers (.authRequired requestId) := by
  rw [mem_made]
  simp only [NetworkManager.offerOf, NetworkManager.challengeAnswer, if_neg h, hcredentials, if_true]

/-- A request that is ended by less is ended by more. -/
theorem endedRequest_mono {answered : Bool} {nm : NetworkManager} {input : NetworkInput}
    {request : HttpRequest} (h : nm.endedRequest false input = some request) :
    nm.endedRequest answered input = some request := by
  cases input with
  | responseReceived event => cases h
  | _ => exact h

theorem pausedUnder_subset {answered : Bool} {nm : NetworkManager} {input : NetworkInput} :
    NetworkManager.pausedUnder (nm.endedRequest false input) ⊆
      NetworkManager.pausedUnder (nm.endedRequest answered input) := by
  cases h : nm.endedRequest false input with
  | none => exact Finset.empty_subset _
  | some request => rw [endedRequest_mono h]

/-- A sweep ends no request and makes no offer. -/
theorem of_mem_stranded {nm : NetworkManager} {input : NetworkInput} {id : RequestId}
    (h : id ∈ nm.stranded input) (answered : Bool) :
    nm.endedRequest answered input = none ∧ nm.offerOf input = none := by
  cases input with
  | evict now => exact ⟨rfl, rfl⟩
  | _ => cases h

theorem Kept.step {s : Offers} (h : s.Kept) (answered : Bool) (blockers : Blockers)
    (input : NetworkInput) : (s.step answered blockers input).Kept := by
  have hattempted := NetworkManager.attempted_step blockers s.manager input
  have hmade : ∀ id, id ∈ (s.manager.offerOf input).toFinset ↔ id ∈ s.made blockers input := by
    intro id
    rw [Option.mem_toFinset, mem_made]
    rfl
  refine ⟨?_, fun id hid => ?_, fun id hid => ?_⟩
  · rw [Offers.step, NetworkManager.credentials_step]
    exact h.credentials
  · show id ∈ (s.manager.step blockers input).attemptedAuthentications ∨ _
    simp only [Offers.step, Finset.mem_union, Finset.mem_sdiff, Finset.mem_inter,
      List.mem_toFinset, hattempted, hmade] at hid ⊢
    obtain ⟨hoffered, hended⟩ | hnew := hid
    · by_cases hnew : id ∈ s.made blockers input
      · exact .inl (.inr hnew)
      · obtain hremembered | hforgotten := h.offered id hoffered
        · by_cases hstranded : id ∈ s.manager.stranded input
          · exact .inr (.inr ⟨hoffered, hstranded⟩)
          · exact .inl (.inl ⟨⟨hremembered, fun hmem => hended (pausedUnder_subset hmem)⟩, hstranded⟩)
        · exact .inr (.inl ⟨⟨hforgotten, hended⟩, hnew⟩)
    · exact .inl (.inr hnew)
  · show _ ∧ id ∉ (s.manager.step blockers input).attemptedAuthentications
    simp only [Offers.step, Finset.mem_union, Finset.mem_sdiff, Finset.mem_inter,
      List.mem_toFinset, hattempted, hmade] at hid ⊢
    obtain ⟨⟨hforgotten, hended⟩, hnew⟩ | ⟨hoffered, hstranded⟩ := hid
    · obtain ⟨hoffered, hnot⟩ := h.forgotten id hforgotten
      refine ⟨.inl ⟨hoffered, hended⟩, ?_⟩
      rintro (⟨⟨hmem, _⟩, _⟩ | hmade)
      · exact hnot hmem
      · exact hnew hmade
    · obtain ⟨hended, hoffer⟩ := of_mem_stranded hstranded answered
      refine ⟨.inl ⟨hoffered, ?_⟩, ?_⟩
      · rw [hended]
        exact Finset.notMem_empty id
      · rintro (⟨_, hkept⟩ | hmade)
        · exact hkept hstranded
        · rw [mem_made, hoffer] at hmade
          cases hmade

/-- A step keeps to one offer just when no sweep has dropped the attempt that it challenges. -/
theorem Kept.once_iff {s : Offers} (h : s.Kept) (blockers : Blockers) (input : NetworkInput) :
    s.Once blockers input ↔ s.Unforgotten input := by
  cases input with
  | authRequired requestId =>
    constructor
    · rintro ⟨hfirst, _⟩ hforgotten
      obtain ⟨hoffered, hnot⟩ := h.forgotten _ hforgotten
      exact hfirst _ (made_of_not_mem h.credentials hnot) hoffered
    · intro hunforgotten
      have hremembered : ⟨requestId.inner⟩ ∈ s.offered →
          ⟨requestId.inner⟩ ∈ s.manager.attemptedAuthentications := fun hoffered =>
        (h.offered _ hoffered).resolve_right hunforgotten
      refine ⟨fun id hmade hoffered => ?_, fun hoffered => if_pos (hremembered hoffered)⟩
      have hnot := not_mem_attempted_of_made hmade
      rw [mem_made, NetworkManager.offerOf, Option.ite_none_right_eq_some, Option.some.injEq] at hmade
      obtain ⟨_, rfl⟩ := hmade
      exact hnot (hremembered hoffered)
  | _ =>
    refine iff_of_true ⟨fun id hmade => ?_, trivial⟩ trivial
    rw [mem_made] at hmade
    cases hmade

/-- Credentials are offered once to every request, and never again before it ends, just when no challenge comes for a request whose attempt a sweep has dropped. -/
theorem offered_once_iff (answered : Bool) (blockers : Blockers) (nm : NetworkManager)
    (hcredentials : nm.credentials.isSome = true) (inputs : List NetworkInput) :
    Run.Allowed (step answered blockers) (Once blockers) (start nm) inputs ↔
      Run.Allowed (step answered blockers) Unforgotten (start nm) inputs := by
  refine Run.allowed_congr Kept (fun s input h => h.step answered blockers input)
    (fun s input h => h.once_iff blockers input) ⟨hcredentials, ?_, ?_⟩ inputs
  · exact fun id hid => absurd hid (Finset.notMem_empty id)
  · exact fun id hid => absurd hid (Finset.notMem_empty id)

/-- A manager with credentials, whose user answers the paused requests. -/
def guarded : NetworkManager :=
  ((NetworkManager.new false 0).authenticate ⟨"user", "password"⟩).setRequestInterception true

/-- A document is announced and paused, and its server refuses the credentials, with a sweep between the two challenges. -/
def refused : List NetworkInput :=
  [NetworkManager.documentSent "/" none, NetworkManager.documentPaused "/", .authRequired ⟨"i"⟩,
    .evict 0, .authRequired ⟨"i"⟩]

/-- The credentials are offered twice to a request that has not ended. -/
theorem offered_twice :
    (Run.final (NetworkManager.step Blockers.none) guarded refused).offers = [⟨"i"⟩, ⟨"i"⟩] ∧
      ¬Run.Allowed (step true Blockers.none) (Once Blockers.none) (start guarded) refused := by
  refine ⟨by decide +kernel, ?_⟩
  rintro ⟨_, _, _, _, ⟨hfirst, _⟩, _⟩
  revert hfirst
  decide +kernel

theorem offered_once_iff_guarded :
    Run.Allowed (step true Blockers.none) (Once Blockers.none) (start guarded)
        [.authRequired ⟨"i"⟩, .authRequired ⟨"i"⟩] ↔
      Run.Allowed (step true Blockers.none) Unforgotten (start guarded)
        [.authRequired ⟨"i"⟩, .authRequired ⟨"i"⟩] :=
  offered_once_iff true Blockers.none guarded rfl [.authRequired ⟨"i"⟩, .authRequired ⟨"i"⟩]

end Offers

end SpiderChrome
