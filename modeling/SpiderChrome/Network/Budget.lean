import SpiderChrome.Network.Accounts

/-!
# The byte budget of a manager

A manager that is given a number of bytes counts them down with every response and reports what it took off. What it has reported and what is left are together what it was given. When nothing is left it blocks everything, until someone switches that off.
-/

namespace SpiderChrome

open Network

/-- The bytes that an event reports. -/
def NetworkEvent.bytes : NetworkEvent → Nat
  | bytesConsumed n => n.toNat
  | _ => 0

namespace NetworkManager

/-- The bytes reported altogether. -/
def consumed (nm : NetworkManager) : Nat := (nm.queuedEvents.map NetworkEvent.bytes).sum

theorem consumed_pushEvent (nm : NetworkManager) (event : NetworkEvent) :
    (nm.pushEvent event).consumed = nm.consumed + event.bytes := by
  simp only [consumed, pushEvent, List.map_append, List.map_cons, List.map_nil, List.sum_append,
    List.sum_singleton]

variable {start nm nm' nm'' : NetworkManager}

/-! ### What leaves the budget alone -/

/-- Two managers with the same budget that have reported the same bytes and block alike. -/
structure SameBudget (nm nm' : NetworkManager) : Prop where
  maxBytesAllowed : nm'.maxBytesAllowed = nm.maxBytesAllowed
  consumed : nm'.consumed = nm.consumed
  blockAll : nm'.blockAll = nm.blockAll

theorem SameBudget.trans (h : SameBudget nm nm') (h' : SameBudget nm' nm'') :
    SameBudget nm nm'' where
  maxBytesAllowed := h'.maxBytesAllowed.trans h.maxBytesAllowed
  consumed := h'.consumed.trans h.consumed
  blockAll := h'.blockAll.trans h.blockAll

theorem sameBudget_pushEvent (nm : NetworkManager) {event : NetworkEvent} (h : event.bytes = 0) :
    SameBudget nm (nm.pushEvent event) where
  maxBytesAllowed := rfl
  consumed := by rw [consumed_pushEvent, h, Nat.add_zero]
  blockAll := rfl

theorem sameBudget_takeRedirectChain (nm : NetworkManager) (event : EventRequestWillBeSent) :
    SameBudget nm (nm.takeRedirectChain event).1 := by
  obtain ⟨attempted, hfst⟩ := nm.takeRedirectChain_eq event
  rw [hfst]
  exact ⟨rfl, rfl, rfl⟩

theorem sameBudget_onRequest (nm : NetworkManager) (now : Instant) (event : EventRequestWillBeSent)
    (interceptionId : Option InterceptionId) :
    SameBudget nm (nm.onRequest now event interceptionId) := by
  have htaken := nm.sameBudget_takeRedirectChain event
  rw [onRequest_eq]
  split
  · exact (htaken.trans (sameBudget_pushEvent _ rfl)).trans (sameBudget_pushEvent _ rfl)
  · have hpushed := htaken.trans (sameBudget_pushEvent _ (rfl : (NetworkEvent.request event.requestId).bytes = 0))
    exact ⟨hpushed.maxBytesAllowed, hpushed.consumed, hpushed.blockAll⟩

theorem sameBudget_onRequestWillBeSent (nm : NetworkManager) (now : Instant)
    (event : EventRequestWillBeSent) : SameBudget nm (nm.onRequestWillBeSent now event) := by
  unfold onRequestWillBeSent
  split
  · cases nm.requestIdToInterceptionId.get event.requestId with
    | some paused =>
      have hremoved : SameBudget nm { nm with
          requestIdToInterceptionId := nm.requestIdToInterceptionId.remove event.requestId } :=
        ⟨rfl, rfl, rfl⟩
      exact hremoved.trans (sameBudget_onRequest _ now event _)
    | none => exact ⟨rfl, rfl, rfl⟩
  · exact nm.sameBudget_onRequest now event none

theorem sameBudget_reconcilePaused (nm : NetworkManager) (now : Instant)
    (event : EventRequestPaused) : SameBudget nm (nm.reconcilePaused now event) := by
  unfold reconcilePaused
  cases event.networkId with
  | none => exact ⟨rfl, rfl, rfl⟩
  | some networkId =>
    dsimp only
    cases nm.requestsWillBeSent.get networkId with
    | none => exact ⟨rfl, rfl, rfl⟩
    | some sent =>
      have hremoved : SameBudget nm
          { nm with requestsWillBeSent := nm.requestsWillBeSent.remove networkId } := ⟨rfl, rfl, rfl⟩
      exact hremoved.trans (sameBudget_onRequest _ now sent.1 _)

theorem sameBudget_onFetchRequestPaused (nm : NetworkManager) (blockers : Blockers)
    (cache : SessionCache) (now systemNow : Instant) (event : EventRequestPaused) :
    SameBudget nm (nm.onFetchRequestPaused blockers cache now systemNow event) := by
  obtain ⟨_, heq⟩ | ⟨_, _, heq⟩ | ⟨_, _, command, heq⟩ :=
    nm.onFetchRequestPaused_cases blockers cache now systemNow event
  · rw [heq]
    exact ⟨rfl, rfl, rfl⟩
  · rw [heq]
    exact sameBudget_pushEvent nm rfl
  · have htracked : SameBudget (nm.reconcilePaused now event)
        ((nm.reconcilePaused now event).tracked event).1 := by
      rw [tracked_eq]
      exact ⟨rfl, rfl, rfl⟩
    rw [heq]
    exact ((nm.sameBudget_reconcilePaused now event).trans htracked).trans
      (sameBudget_pushEvent _ rfl)

/-- The request that is done leaves the table, and is reported. -/
theorem sameBudget_taken (nm : NetworkManager) (requestId : RequestId) (request : HttpRequest)
    {event : NetworkEvent} (h : event.bytes = 0) :
    SameBudget nm (({ nm with requests := nm.requests.remove requestId }.forgetAttempt
      request).pushEvent event) := by
  have hremoved : SameBudget nm
      ({ nm with requests := nm.requests.remove requestId }.forgetAttempt request) := ⟨rfl, rfl, rfl⟩
  exact hremoved.trans (sameBudget_pushEvent _ h)

/-- Only a response touches the budget, and only it and the switch touch what blocks. -/
theorem sameBudget_step (nm : NetworkManager) (blockers : Blockers) (input : NetworkInput)
    (hresponse : ∀ event, input ≠ .responseReceived event)
    (hswitch : ∀ blockAll, input ≠ .setBlockAll blockAll) :
    SameBudget nm (nm.step blockers input) := by
  cases input with
  | requestWillBeSent now event => exact nm.sameBudget_onRequestWillBeSent now event
  | requestServedFromCache requestId => exact ⟨rfl, rfl, rfl⟩
  | responseReceived event => exact absurd rfl (hresponse event)
  | loadingFinished requestId =>
    simp only [step, onNetworkLoadingFinished]
    split
    · exact nm.sameBudget_taken requestId _ rfl
    · exact ⟨rfl, rfl, rfl⟩
  | loadingFailed event =>
    simp only [step, onNetworkLoadingFailed]
    split
    · exact nm.sameBudget_taken event.requestId _ rfl
    · exact ⟨rfl, rfl, rfl⟩
  | requestPaused cache now systemNow event =>
    exact nm.sameBudget_onFetchRequestPaused blockers cache now systemNow event
  | authRequired requestId =>
    obtain ⟨attempted, command, heq⟩ := nm.onFetchAuthRequired_same requestId
    have hsame : SameBudget nm { nm with attemptedAuthentications := attempted } := ⟨rfl, rfl, rfl⟩
    rw [step, heq]
    exact hsame.trans (sameBudget_pushEvent _ rfl)
  | evict now => exact ⟨rfl, rfl, rfl⟩
  | setBlockAll blockAll => exact absurd rfl (hswitch blockAll)

/-! ### What a response takes off -/

theorem toNat_saturatingSub (a b : UInt64) : (saturatingSub a b).toNat = a.toNat - b.toNat := by
  unfold saturatingSub
  split
  · rename_i h
    rw [UInt64.le_iff_toNat_le] at h
    simp only [UInt64.toNat_zero]
    omega
  · rename_i h
    exact UInt64.toNat_sub_of_le _ _ (UInt64.le_of_lt (UInt64.not_le.1 h))

theorem spendBytes_le (maxBytes : UInt64) (event : EventResponseReceived) :
    (spendBytes maxBytes event).toNat ≤ maxBytes.toNat := by
  have hreceived := toNat_saturatingSub maxBytes event.encodedDataLength
  unfold spendBytes
  dsimp only
  split
  · split
    · exact Nat.zero_le _
    · omega
  · omega

/-- What is left with what was reported is what was left before, whether or not anything was. -/
theorem consumed_settle {maxBytes : UInt64} (h : nm.maxBytesAllowed = some maxBytes)
    (event : EventResponseReceived) :
    (spendBytes maxBytes event).toNat + (nm.settle event).consumed = maxBytes.toNat + nm.consumed := by
  have hle := spendBytes_le maxBytes event
  have hdeducted := toNat_saturatingSub maxBytes (spendBytes maxBytes event)
  have hleft : nm.leftBytes event = some (spendBytes maxBytes event) := by
    rw [leftBytes, h, Option.map_some]
  rw [settle_eq]
  simp only [h, hleft, Option.getD_some]
  split
  · have hpushed := nm.consumed_pushEvent (.bytesConsumed (saturatingSub maxBytes (spendBytes maxBytes event)))
    simp only [consumed, pushEvent, NetworkEvent.bytes] at hpushed ⊢
    omega
  · rename_i hzero
    rw [UInt64.lt_iff_toNat_lt, UInt64.toNat_zero] at hzero
    simp only [consumed]
    omega

/-- A tracked request leaves the table with a report, which counts no bytes. -/
theorem sameBudget_onResponseReceived (nm : NetworkManager) (event : EventResponseReceived) :
    SameBudget (nm.settle event) (nm.onResponseReceived event) := by
  rw [onResponseReceived_eq]
  split
  · have hremoved : SameBudget (nm.settle event)
        { nm.settle event with requests := nm.requests.remove event.requestId } := ⟨rfl, rfl, rfl⟩
    refine hremoved.trans (sameBudget_pushEvent _ ?_)
    split
    · rfl
    · rfl
  · exact ⟨rfl, rfl, rfl⟩

/-! ### A run -/

/-- What is left and what was reported since the start are what there was at the start. -/
def Balanced (start : NetworkManager) (budget : UInt64) (nm : NetworkManager) : Prop :=
  ∃ left, nm.maxBytesAllowed = some left ∧
    left.toNat + nm.consumed = budget.toNat + start.consumed

theorem Balanced.of_sameBudget {budget : UInt64} (h : Balanced start budget nm)
    (hsame : SameBudget nm nm') : Balanced start budget nm' := by
  obtain ⟨left, hleft, hsum⟩ := h
  exact ⟨left, hsame.maxBytesAllowed.trans hleft, by rw [hsame.consumed, hsum]⟩

theorem Balanced.step {budget : UInt64} (h : Balanced start budget nm) (blockers : Blockers)
    (input : NetworkInput) : Balanced start budget (nm.step blockers input) := by
  cases input with
  | responseReceived event =>
    obtain ⟨left, hleft, hsum⟩ := h
    have hsettled : Balanced start budget (nm.settle event) := by
      refine ⟨spendBytes left event, ?_, (consumed_settle hleft event).trans hsum⟩
      rw [settle_eq, leftBytes, hleft, Option.map_some]
    exact hsettled.of_sameBudget (nm.sameBudget_onResponseReceived event)
  | setBlockAll blockAll => exact h
  | _ => exact h.of_sameBudget (nm.sameBudget_step blockers _ (by simp) (by simp))

/-- Nothing is left, and everything is blocked. -/
structure Exhausted (nm : NetworkManager) : Prop where
  nothingLeft : nm.maxBytesAllowed = some 0
  blockAll : nm.blockAll = true

theorem Exhausted.of_sameBudget (h : Exhausted nm) (hsame : SameBudget nm nm') : Exhausted nm' where
  nothingLeft := hsame.maxBytesAllowed.trans h.nothingLeft
  blockAll := hsame.blockAll.trans h.blockAll

/-- The response that uses up the budget blocks everything. -/
theorem exhausted_settle {event : EventResponseReceived} (h : nm.leftBytes event = some 0) :
    Exhausted (nm.settle event) := by
  rw [settle_eq, h]
  exact ⟨rfl, Bool.or_true _⟩

theorem leftBytes_of_nothingLeft (h : nm.maxBytesAllowed = some 0) (event : EventResponseReceived) :
    nm.leftBytes event = some 0 := by
  have hle := spendBytes_le 0 event
  have hzero : spendBytes 0 event = 0 := UInt64.toNat_inj.1 (Nat.le_zero.1 hle)
  rw [leftBytes, h, Option.map_some, hzero]

theorem Exhausted.step (h : Exhausted nm) (blockers : Blockers) (input : NetworkInput)
    (hswitch : input ≠ .setBlockAll false) : Exhausted (nm.step blockers input) := by
  cases input with
  | responseReceived event =>
    exact (exhausted_settle (leftBytes_of_nothingLeft h.nothingLeft event)).of_sameBudget
      (nm.sameBudget_onResponseReceived event)
  | setBlockAll blockAll =>
    cases blockAll with
    | true => exact ⟨h.nothingLeft, rfl⟩
    | false => exact absurd rfl hswitch
  | _ => exact h.of_sameBudget (nm.sameBudget_step blockers _ nofun nofun)

/-- With nothing left a response reports its request as failed, and nothing else. -/
theorem Exhausted.queuedEvents_onResponseReceived (h : Exhausted nm) {event : EventResponseReceived}
    {request : HttpRequest} (hget : nm.requests.get event.requestId = some request) :
    (nm.onResponseReceived event).queuedEvents =
      nm.queuedEvents ++ [.requestFailed (request.setResponse event.response)] := by
  have hleft := leftBytes_of_nothingLeft h.nothingLeft event
  rw [onResponseReceived_eq, hget]
  simp only [hleft, if_true, settle_eq, h.nothingLeft, Option.getD_some]
  rfl

theorem Exhausted.onFetchRequestPaused (h : Exhausted nm) (blockers : Blockers)
    (cache : SessionCache) (now systemNow : Instant) (event : EventRequestPaused)
    (huser : (nm.userRequestInterceptionEnabled && nm.protocolRequestInterceptionEnabled) = false) :
    nm.onFetchRequestPaused blockers cache now systemNow event =
      nm.pushCdpRequest (.failRequest event.requestId) := by
  obtain ⟨hon, _⟩ | ⟨_, _, heq⟩ | ⟨_, hopen, _⟩ :=
    nm.onFetchRequestPaused_cases blockers cache now systemNow event
  · rw [huser] at hon
    cases hon
  · exact heq
  · rw [h.blockAll] at hopen
    cases hopen

/-- The budget of a manager over any run: it is always what is left and what was reported, and once a response has used it up, everything is blocked until that is switched off. -/
theorem budget_enforced (blockers : Blockers) (start : NetworkManager) (budget : UInt64)
    (hbudget : start.maxBytesAllowed = some budget) (before : List NetworkInput) :
    Balanced start budget (Run.final (step blockers) start before) ∧
    ∀ event after,
      ((Run.final (step blockers) start before).onResponseReceived event).maxBytesAllowed = some 0 →
      .setBlockAll false ∉ after →
      let nm := Run.final (step blockers) start (before ++ .responseReceived event :: after)
      nm.blockAll = true ∧
      (∀ later request, nm.requests.get later.requestId = some request →
        (nm.onResponseReceived later).queuedEvents =
          nm.queuedEvents ++ [.requestFailed (request.setResponse later.response)]) ∧
      ∀ cache now systemNow paused,
        (nm.userRequestInterceptionEnabled && nm.protocolRequestInterceptionEnabled) = false →
        nm.onFetchRequestPaused blockers cache now systemNow paused =
          nm.pushCdpRequest (.failRequest paused.requestId) := by
  refine ⟨?_, fun event after hzero hafter => ?_⟩
  · exact Run.invariant_of_step (Balanced start budget) (fun _ input h => h.step blockers input)
      ⟨budget, hbudget, rfl⟩ before
  · have hsame := (Run.final (NetworkManager.step blockers) start before).sameBudget_onResponseReceived event
    have hleft : (Run.final (NetworkManager.step blockers) start before).leftBytes event = some 0 := by
      rw [hsame.maxBytesAllowed, settle_eq] at hzero
      exact hzero
    have hresponse := (exhausted_settle hleft).of_sameBudget hsame
    have hexhausted : Exhausted (Run.final (NetworkManager.step blockers) start
        (before ++ .responseReceived event :: after)) := by
      rw [Run.final_append, Run.final_cons]
      refine Run.invariant Exhausted (fun _ input h hswitch => h.step blockers input hswitch) hresponse
        (Run.allowed_of_forall _ fun input hinput => ?_)
      rintro rfl
      exact hafter hinput
    exact ⟨hexhausted.blockAll, fun later request hget => hexhausted.queuedEvents_onResponseReceived hget,
      fun cache now systemNow paused huser =>
        hexhausted.onFetchRequestPaused blockers cache now systemNow paused huser⟩

/-- A response of ten bytes to a request that is not tracked, on a budget of eight. -/
theorem budget_enforced_ten_bytes :
    let start := { NetworkManager.new false 0 with maxBytesAllowed := some 8 }
    let event : EventResponseReceived := ⟨⟨"1"⟩, ⟨"https://a.example/", 200, .object []⟩, 10⟩
    (Run.final (step .none) start [.responseReceived event, .loadingFinished ⟨"1"⟩]).blockAll = true := by
  intro start event
  exact ((budget_enforced .none start 8 rfl []).2 event [.loadingFinished ⟨"1"⟩] (by decide)
    (by simp)).1

end NetworkManager

end SpiderChrome
