import SpiderChrome.Handler.Creation
import SpiderChrome.Parallel.Routing

/-!
# A page that is created through the router

The router keeps the sender of a new page until the event of its target comes, so the order of the answer and the event does not matter: either way the sender goes to the task of the target. `creation_order_iff` sets this against the handler, where the page is handed on just when the target is there before the answer.
-/

namespace SpiderChrome

namespace Router

variable {r r' : Router} {targetId : TargetId} {tx : Sender}

/-- The response answers the call that creates the target, on behalf of the sender. -/
structure Creates (r : Router) (decoders : Decoders) (resp : Response) (targetId : TargetId)
    (tx : Sender) : Prop where
  running : r.panicked = false
  unrouted : r.ids.routing.get resp.id = none
  pending : ∃ method sentAt, r.pending.get resp.id = some (.createTarget tx, method, sentAt)
  answer : toCommandResponse decoders.createTarget resp = .ok targetId

/-- A step sends the sender to the task of the target, and answers nobody. -/
def HandsOn (r r' : Router) (targetId : TargetId) (tx : Sender) : Prop :=
  ∃ slot, r'.targetIdToSlot.get targetId = some slot ∧
    r'.toSessions = r.toSessions ++ [(slot, .setInitiator tx)] ∧ r'.replies = r.replies

/-- The sender waits for the target, which has no task yet. -/
structure Parked (targetId : TargetId) (tx : Sender) (since : Instant) (r : Router) : Prop where
  unknown : r.targetIdToSlot.get targetId = none
  initiator : r.pendingInitiators.get targetId = some tx
  parkedAt : r.pendingInitiatorTs.get targetId = some since

/-- The target is not announced, no other call that creates it is answered, and the sender is not timed out. -/
def LeavesParked (targetId : TargetId) (r : Router) : RouterInput → Prop
  | .event ⟨.targetTargetCreated info, none⟩ => info.targetId ≠ targetId
  | .response decoders _ resp =>
    ∀ tx method sentAt, r.pending.get resp.id = some (.createTarget tx, method, sentAt) →
      toCommandResponse decoders.createTarget resp ≠ .ok targetId
  | .evict now =>
    ∀ parkedAt, r.pendingInitiatorTs.get targetId = some parkedAt →
      ¬ parkedAt < now - r.config.requestTimeout
  | _ => True

/-! ### The answer and the event -/

theorem onResponse_of_creates {decoders : Decoders} {resp : Response}
    (hcreates : r.Creates decoders resp targetId tx) (now : Instant) :
    ∃ ids pending, r.step (.response decoders now resp) =
      match r.targetIdToSlot.get targetId with
      | some slot =>
        match r.sessions.get slot with
        | some _ => { r with ids := ids, pending := pending }.toSession slot (.setInitiator tx)
        | none => { r with ids := ids, pending := pending }.send tx (.page (.error .notFound))
      | none => { r with
          ids := ids
          pending := pending
          pendingInitiatorTs := r.pendingInitiatorTs.set targetId now
          pendingInitiators := r.pendingInitiators.set targetId tx } := by
  obtain ⟨method, sentAt, hpending⟩ := hcreates.pending
  refine ⟨(r.ids.takeRoute resp.id).1, r.pending.remove resp.id, ?_⟩
  simp only [step, hcreates.running, Bool.false_eq_true, if_false, onResponse, CallIdAllocator.takeRoute,
    hcreates.unrouted]
  cases hslot : r.targetIdToSlot.get targetId with
  | none => simp only [handleRouterResponse, hpending, hcreates.answer, hslot]
  | some slot =>
    cases hentry : r.sessions.get slot with
    | none => simp only [handleRouterResponse, hpending, hcreates.answer, hslot, hentry]
    | some entry => simp only [handleRouterResponse, hpending, hcreates.answer, hslot, hentry]

/-- A target that has a task gets the sender with the answer. -/
theorem handsOn_of_known (hrouted : r.Routed) {decoders : Decoders} {resp : Response}
    (hcreates : r.Creates decoders resp targetId tx) (now : Instant)
    (hknown : (r.targetIdToSlot.get targetId).isSome) :
    HandsOn r (r.step (.response decoders now resp)) targetId tx := by
  obtain ⟨slot, hslot⟩ := Option.isSome_iff_exists.1 hknown
  obtain ⟨entry, hentry, _⟩ := Option.map_eq_some_iff.1 ((hrouted.slot_iff targetId slot).1 hslot)
  obtain ⟨ids, pending, heq⟩ := onResponse_of_creates hcreates now
  simp only [hslot, hentry] at heq
  exact ⟨slot, by rw [heq]; exact hslot, by rw [heq]; rfl, by rw [heq]; rfl⟩

/-- Otherwise the sender is parked, and nobody is answered. -/
theorem parked_of_unknown {decoders : Decoders} {resp : Response}
    (hcreates : r.Creates decoders resp targetId tx) (now : Instant)
    (hunknown : r.targetIdToSlot.get targetId = none) :
    Parked targetId tx now (r.step (.response decoders now resp)) ∧
      (r.step (.response decoders now resp)).replies = r.replies := by
  obtain ⟨ids, pending, heq⟩ := onResponse_of_creates hcreates now
  simp only [hunknown] at heq
  rw [heq]
  exact ⟨⟨hunknown, Table.get_set_self _ _ _, Table.get_set_self _ _ _⟩, rfl⟩

/-- A sender that is parked goes to the task of the target when the target is announced. -/
theorem Parked.handsOn {since : Instant} (h : Parked targetId tx since r) {info : TargetInfo}
    (hinfo : info.targetId = targetId) (hrunning : r.panicked = false) (hslot : r.nextSlot ≠ 65535) :
    HandsOn r (r.step (.event ⟨.targetTargetCreated info, none⟩)) targetId tx := by
  subst hinfo
  obtain ⟨context, toSessions, heq, hsent⟩ := onTargetCreated_of_unknown h.unknown hslot
  have hstep : r.step (.event ⟨.targetTargetCreated info, none⟩) = r.onTargetCreated info := by
    simp only [step, hrunning, Bool.false_eq_true, if_false]
    rfl
  rw [h.initiator] at hsent
  rw [hstep, heq]
  exact ⟨r.nextSlot, Table.get_set_self _ _ _, hsent, rfl⟩

/-! ### While the sender waits -/

/-- The senders that wait for a target, with the time since when. -/
def parking (r : Router) : Table TargetId Sender × Table TargetId Instant :=
  (r.pendingInitiators, r.pendingInitiatorTs)

theorem Parked.of_same {since : Instant} (h : Parked targetId tx since r) (hsame : SameSlots r r')
    (hparking : r'.parking = r.parking) : Parked targetId tx since r' := by
  obtain ⟨hinitiators, hts⟩ := Prod.mk.inj hparking
  exact ⟨by rw [hsame.targetIdToSlot]; exact h.unknown, by rw [hinitiators]; exact h.initiator,
    by rw [hts]; exact h.parkedAt⟩

theorem parking_toSlot (r : Router) (slot : Option UInt16) (msg : RouterToSession) :
    (r.toSlot slot msg).parking = r.parking := by
  unfold toSlot
  split
  · split
    · rfl
    · rfl
  · rfl

theorem parking_onAttachedToTarget (r : Router) (event : EventAttachedToTarget) :
    (r.onAttachedToTarget event).parking = r.parking := by
  unfold onAttachedToTarget
  split
  · rfl
  · rfl

theorem parking_submit (r : Router) (accepted : Bool) (req : Request) (tx : Sender) (refusal : Reply)
    (pending : RouterPending) (now : Instant) :
    (r.submit accepted req tx refusal pending now).parking = r.parking := by
  simp only [submit]
  split
  · rfl
  · rfl

theorem parking_onBrowserMessage (r : Router) (accepted : Bool) (msg : HandlerMessage)
    (now : Instant) : (r.onBrowserMessage accepted msg now).parking = r.parking := by
  cases msg with
  | createPage params tx =>
    simp only [onBrowserMessage, createPage]
    split
    · exact r.parking_submit _ _ _ _ _ _
    · rfl
  | command cmd => exact r.parking_submit _ _ _ _ _ _
  | _ => rfl

theorem parking_timeOut (r : Router) (call : CallId) : (r.timeOut call).parking = r.parking := by
  simp only [timeOut]
  split
  · split
    · rfl
    · rfl
    · rfl
  · rfl

theorem Parked.onResponse {since : Instant} (h : Parked targetId tx since r) (decoders : Decoders)
    (now : Instant) (resp : Response)
    (hleft : LeavesParked targetId r (.response decoders now resp)) :
    Parked targetId tx since (r.onResponse decoders now resp) := by
  have hslots := r.sameSlots_onResponse decoders now resp
  simp only [Router.onResponse, CallIdAllocator.takeRoute] at hslots ⊢
  split
  · refine h.of_same ?_ ?_
    · simpa only [*] using hslots
    · split
      · rfl
      · rfl
  · rename_i hroute
    rw [hroute] at hslots
    cases hpending : r.pending.get resp.id with
    | none =>
      refine h.of_same hslots ?_
      simp only [handleRouterResponse, hpending]
      rfl
    | some pending =>
      obtain ⟨request, method, sentAt⟩ := pending
      simp only [handleRouterResponse, hpending] at hslots ⊢
      cases request with
      | boot => exact h.of_same hslots rfl
      | browserCommand other => exact h.of_same hslots rfl
      | createTarget other =>
        cases hanswer : toCommandResponse decoders.createTarget resp with
        | error err =>
          rw [hanswer] at hslots
          exact h.of_same hslots rfl
        | ok created =>
          rw [hanswer] at hslots
          have hother : targetId ≠ created := by
            rintro rfl
            exact hleft other method sentAt hpending hanswer
          dsimp only at hslots ⊢
          cases hslot : r.targetIdToSlot.get created with
          | some slot =>
            rw [hslot] at hslots
            refine h.of_same hslots ?_
            dsimp only
            split
            · rfl
            · rfl
          | none =>
            -- Another target is awaited, and the sender keeps its place.
            exact ⟨h.unknown, (Table.get_set_of_ne _ _ hother).trans h.initiator,
              (Table.get_set_of_ne _ _ hother).trans h.parkedAt⟩

theorem Parked.timeOutInitiator {since : Instant} (h : Parked targetId tx since r) {other : TargetId}
    (hother : targetId ≠ other) : Parked targetId tx since (r.timeOutInitiator other) := by
  have hts := (Table.get_remove_of_ne r.pendingInitiatorTs hother).trans h.parkedAt
  simp only [Router.timeOutInitiator]
  split
  · exact ⟨h.unknown, (Table.get_remove_of_ne r.pendingInitiators hother).trans h.initiator, hts⟩
  · exact ⟨h.unknown, h.initiator, hts⟩

theorem Parked.evict {since : Instant} (h : Parked targetId tx since r) (now : Instant)
    (requestTimeout : Duration) (hleft : ¬ since < now - requestTimeout) :
    Parked targetId tx since (r.evictRouterPending now requestTimeout) := by
  simp only [evictRouterPending]
  split
  · exact h
  · generalize (r.pending.toList.filter fun entry => entry.2.2.2 < now - requestTimeout).map Prod.fst =
      calls
    have htimed : Parked targetId tx since (calls.foldl timeOut r) :=
      h.of_same (Run.foldl_rel .refl .trans sameSlots_timeOut r calls)
        (Run.foldl_unchanged parking_timeOut r calls)
    generalize calls.foldl timeOut r = r' at htimed
    have hothers : ∀ other ∈ (r'.pendingInitiatorTs.toList.filter fun entry =>
        entry.2 < now - requestTimeout).map Prod.fst, targetId ≠ other := by
      rintro other hmem rfl
      obtain ⟨⟨_, parkedAt⟩, hentry, rfl⟩ := List.mem_map.1 hmem
      obtain ⟨hlisted, hlate⟩ := List.mem_filter.1 hentry
      rw [Table.mem_toList, htimed.parkedAt] at hlisted
      cases hlisted
      exact hleft (by simpa using hlate)
    generalize (r'.pendingInitiatorTs.toList.filter fun entry =>
      entry.2 < now - requestTimeout).map Prod.fst = others at hothers
    induction others generalizing r' with
    | nil => exact htimed
    | cons other rest ih =>
      exact ih _ (htimed.timeOutInitiator (hothers other List.mem_cons_self))
        fun x hx => hothers x (List.mem_cons_of_mem _ hx)

theorem Parked.onTargetCreated {since : Instant} (h : Parked targetId tx since r) {info : TargetInfo}
    (hother : info.targetId ≠ targetId) : Parked targetId tx since (r.onTargetCreated info) := by
  have hne := Ne.symm hother
  cases hknown : r.targetIdToSlot.get info.targetId with
  | some slot =>
    rw [onTargetCreated_of_known hknown]
    exact h
  | none =>
    by_cases hslot : r.nextSlot = 65535
    · rw [onTargetCreated_of_full hknown hslot]
      exact ⟨h.unknown, h.initiator, h.parkedAt⟩
    · obtain ⟨context, toSessions, heq, _⟩ := onTargetCreated_of_unknown hknown hslot
      rw [heq]
      exact ⟨(Table.get_set_of_ne _ _ hne).trans h.unknown,
        (Table.get_remove_of_ne _ hne).trans h.initiator,
        (Table.get_remove_of_ne _ hne).trans h.parkedAt⟩

theorem Parked.removeSession {since : Instant} (h : Parked targetId tx since r) (slot : UInt16) :
    Parked targetId tx since (r.removeSession slot) := by
  have hunknown : (r.removeSession slot).targetIdToSlot.get targetId = none := by
    rw [removeSession_targetIdToSlot]
    split
    · rw [Table.get_remove]
      split
      · rfl
      · exact h.unknown
    · exact h.unknown
  refine ⟨hunknown, ?_, ?_⟩
  · unfold Router.removeSession
    split
    · exact h.initiator
    · exact h.initiator
  · unfold Router.removeSession
    split
    · exact h.parkedAt
    · exact h.parkedAt

theorem Parked.onEvent {since : Instant} (h : Parked targetId tx since r) (event : CdpEventMessage)
    (hleft : LeavesParked targetId r (.event event)) :
    Parked targetId tx since (r.onEvent event) := by
  obtain ⟨params, sessionId⟩ := event
  cases sessionId with
  | some sid => exact h.of_same (r.sameSlots_toSlot _ _) (r.parking_toSlot _ _)
  | none =>
    cases params with
    | targetTargetCreated info => exact h.onTargetCreated hleft
    | targetAttachedToTarget ev =>
      exact h.of_same (r.sameSlots_onAttachedToTarget ev) (r.parking_onAttachedToTarget ev)
    | targetTargetDestroyed gone => exact h.of_same (r.sameSlots_toSlot _ _) (r.parking_toSlot _ _)
    | targetTargetCrashed ev => exact h.of_same (r.sameSlots_toSlot _ _) (r.parking_toSlot _ _)
    | targetDetachedFromTarget sessionId =>
      exact h.of_same (r.sameSlots_toSlot _ _) (r.parking_toSlot _ _)
    | _ => exact h

/-- A sender that is parked stays so until its target is announced. -/
theorem Parked.step {since : Instant} (h : Parked targetId tx since r) (input : RouterInput)
    (hleft : LeavesParked targetId r input) : Parked targetId tx since (r.step input) := by
  unfold Router.step
  split
  · exact h
  · cases input with
    | response decoders now resp => exact h.onResponse decoders now resp hleft
    | event event => exact h.onEvent event hleft
    | lifecycle msg =>
      cases msg with
      | sessionAttached slot sessionId => exact h.of_same (r.sameSlots_sessionAttached slot sessionId) rfl
      | detached slot => exact h.removeSession slot
    | browserMessage accepted msg now =>
      exact h.of_same (r.sameSlots_onBrowserMessage accepted msg now)
        (r.parking_onBrowserMessage accepted msg now)
    | evict now => exact h.evict now _ (hleft since h.parkedAt)

theorem routed_final {config : HandlerConfig} {context : BrowserContext} {bootCallId : CallId}
    {bootMethod : MethodId} {nextCallId : Nat} {now : Instant} (inputs : List RouterInput) :
    Routed (Run.final step (new config context bootCallId bootMethod nextCallId now) inputs) :=
  Run.invariant_of_step Routed (fun _ input h => h.step input) (routed_new _ _ _ _ _ _) inputs

end Router

/-! ### The two orders -/

/-- Whichever of the answer and the event comes first in a handler, the sender is handed to the target, and nobody is told of an error, just when the target is there when the answer comes; it is there if it was announced before, admitted, and not removed since. In the router the sender is handed on in both orders: with the answer where the target has a task, and else with the event. -/
theorem creation_order_iff (driver : Driver) (config : HandlerConfig) (info : TargetInfo)
    (resp : Response) (tx : Sender) :
    (∀ (before between : List HandlerInput) (env env' : Env) (eventFirst : Bool),
      let start := Run.final (Handler.step driver) (.new config) before
      let created : HandlerInput := .event env ⟨.targetTargetCreated info, none⟩
      let arrival := Handler.arrival driver start created between eventFirst
      start.targets.get info.targetId = none → arrival.Creates env' resp info.targetId tx →
        (Handler.Initiated arrival
            (Handler.bothCame driver start created (.response env' resp) between eventFirst)
            info.targetId tx ↔
          (arrival.targets.get info.targetId).isSome) ∧
        (eventFirst = true → start.admits info = true →
          Run.Allowed (Handler.step driver) (fun h input => h.removed input ≠ some info.targetId)
            (start.step driver created) between →
          (arrival.targets.get info.targetId).isSome)) ∧
    ∀ (context : BrowserContext) (boot : CallId × MethodId × Nat × Instant) (before : List RouterInput)
      (decoders : Decoders) (now : Instant),
      let arrival := Run.final Router.step
        (.new config context boot.1 boot.2.1 boot.2.2.1 boot.2.2.2) before
      let answered := arrival.step (.response decoders now resp)
      arrival.Creates decoders resp info.targetId tx →
        ((arrival.targetIdToSlot.get info.targetId).isSome →
          Router.HandsOn arrival answered info.targetId tx) ∧
        ∀ between, arrival.targetIdToSlot.get info.targetId = none →
          Run.Allowed Router.step (Router.LeavesParked info.targetId) answered between →
          let announced := Run.final Router.step answered between
          announced.panicked = false → announced.nextSlot ≠ 65535 →
            answered.replies = arrival.replies ∧ Router.HandsOn announced
              (announced.step (.event ⟨.targetTargetCreated info, none⟩)) info.targetId tx := by
  refine ⟨fun before between env env' eventFirst => ?_, fun context boot before decoders now => ?_⟩
  · intro start created arrival hunknown hcreates
    refine ⟨Handler.initiated_iff (fun _ => hunknown) hcreates, ?_⟩
    rintro rfl hadmits hleft
    have hthere : ((start.step driver created).targets.get info.targetId).isSome := by
      rw [Handler.isSome_step]
      have hannounced : start.announced created = [info] := by
        show [info].filter start.admits = [info]
        rw [List.filter_cons_of_pos hadmits, List.filter_nil]
      simp [hannounced]
    have hkept := Handler.isSome_final hthere hleft
    exact hkept
  · intro arrival answered hcreates
    refine ⟨fun hknown => Router.handsOn_of_known (Router.routed_final before) hcreates now hknown, ?_⟩
    intro between hunknown hleft announced hrunning hslot
    obtain ⟨hparked, hreplies⟩ := Router.parked_of_unknown hcreates now hunknown
    have hwaiting : Router.Parked info.targetId tx now announced :=
      Run.invariant _ (fun _ input h hleft => h.step input hleft) hparked hleft
    exact ⟨hreplies, hwaiting.handsOn rfl hrunning hslot⟩

/-! ### A page that is asked for -/

namespace Handler

/-- The answer to `Target.createTarget` says which target was created. -/
def createdEnv : Env :=
  { plainEnv with decoders := { plainEnv.decoders with createTarget := fun _ => some plainTarget } }

def newPage : HandlerMessage := .createPage ⟨"about:blank", none, .object []⟩ ⟨0⟩

def plainInfo : TargetInfo := ⟨plainTarget, "page", none, none⟩

end Handler

open Handler in
/-- The event first in the handler, and the answer first in the router. -/
theorem creation_order_iff_new_page :
    (let start := Run.final (Handler.step .run) (.new plainConfig) [.browserMessage true newPage 0]
    let created : HandlerInput := .event plainEnv ⟨.targetTargetCreated plainInfo, none⟩
    Initiated (arrival .run start created [] true)
      (bothCame .run start created (.response createdEnv (Handler.plainResponse 1)) [] true) plainTarget ⟨0⟩) ∧
    let arrival := Run.final Router.step (.new plainConfig ⟨none⟩ ⟨0⟩ "boot" 1 0)
      [.browserMessage true newPage 0]
    let answered := arrival.step (.response createdEnv.decoders 0 (Handler.plainResponse 1))
    Router.HandsOn answered (answered.step (.event ⟨.targetTargetCreated plainInfo, none⟩)) plainTarget
      ⟨0⟩ := by
  refine ⟨?_, ?_⟩
  · intro start created
    obtain ⟨hiff, hthere⟩ := (creation_order_iff .run plainConfig plainInfo (Handler.plainResponse 1) ⟨0⟩).1
      [.browserMessage true newPage 0] [] plainEnv createdEnv true rfl ⟨⟨_, _, rfl⟩, rfl⟩
    exact hiff.2 (hthere rfl rfl trivial)
  · intro arrival answered
    have hrouter := (creation_order_iff .run plainConfig plainInfo (Handler.plainResponse 1) ⟨0⟩).2 ⟨none⟩
      (⟨0⟩, "boot", 1, 0) [.browserMessage true newPage 0] createdEnv.decoders 0
      ⟨rfl, rfl, ⟨_, _, rfl⟩, rfl⟩
    exact (hrouter.2 [] rfl trivial rfl (by decide)).2

open Handler in
/-- With the answer first, who asked for the page is told that there is none. -/
theorem answer_first_not_found :
    let start := Run.final (Handler.step .run) (.new plainConfig) [.browserMessage true newPage 0]
    let created : HandlerInput := .event plainEnv ⟨.targetTargetCreated plainInfo, none⟩
    start.Creates createdEnv (Handler.plainResponse 1) plainTarget ⟨0⟩ ∧
    ¬ Initiated start (bothCame .run start created (.response createdEnv (Handler.plainResponse 1)) [] false)
      plainTarget ⟨0⟩ := by
  intro start created
  refine ⟨⟨⟨_, _, rfl⟩, rfl⟩, fun hinitiated => ?_⟩
  have hnone : ((bothCame .run start created (.response createdEnv (Handler.plainResponse 1)) [] false).targets.get
      plainTarget).bind Target.initiator = none := by decide +kernel
  cases hnone.symm.trans hinitiated.1

end SpiderChrome
