import SpiderChrome.Handler.Deliver

/-!
# A page that is created

Who asks for a new page waits for two things that come in either order: the answer to `Target.createTarget`, and the event that the target was created. The handler decides when the answer comes: it hands the sender to the target if it has it, and else answers that there is none. So the order matters: `creation_iff` says that the page is handed on just when the target is there before the answer.
-/

namespace SpiderChrome

namespace Handler

variable {h h' : Handler}

/-! ### What was sent is never taken back -/

theorem replies_submit (h : Handler) (accepted : Bool) (req : Request) (pending : PendingRequest)
    (now : Instant) : (h.submit accepted req pending now).replies = h.replies := by
  obtain ⟨_, _, _, heq⟩ := h.submit_same accepted req pending now
  rw [heq]

theorem replies_createPage (h : Handler) (accepted : Bool) (params : CreateTargetParams) (tx : Sender)
    (now : Instant) : h.replies <+: (h.createPage accepted params tx now).replies := by
  obtain ⟨_, _, _, _, hreplies, heq⟩ := h.createPage_same accepted params tx now
  rw [heq]
  exact hreplies

theorem replies_onBrowserMessage (h : Handler) (accepted : Bool) (msg : HandlerMessage)
    (now : Instant) : h.replies <+: (h.onBrowserMessage accepted msg now).replies := by
  cases msg with
  | createPage params tx =>
    simp only [onBrowserMessage]
    split
    · rename_i id _
      exact replies_createPage
        { h with browserContexts := insert (BrowserContext.mk (some id)) h.browserContexts }
        accepted params tx now
    · exact replies_createPage _ accepted params tx now
  | command cmd => exact (h.replies_submit _ _ _ _).symm ▸ List.prefix_rfl
  | fetchTargets tx => exact (h.replies_submit _ _ _ _).symm ▸ List.prefix_rfl
  | closeBrowser tx => exact (h.replies_submit _ _ _ _).symm ▸ List.prefix_rfl
  | getPages tx => exact List.prefix_append _ _
  | getPage targetId tx => exact List.prefix_append _ _
  | insertContext ctx => exact List.prefix_rfl
  | disposeContext ctx => exact List.prefix_rfl
  | addEventListener method => exact List.prefix_rfl

theorem replies_onNavigationResponse (h : Handler) (id : NavigationId) (resp : Response) :
    h.replies <+: (h.onNavigationResponse id resp).replies := by
  obtain ⟨_, _, hreplies, heq⟩ := h.onNavigationResponse_same id resp
  rw [heq]
  exact hreplies

theorem replies_onNavigationLifecycleCompleted (h : Handler)
    (res : Except NavigationError NavigationOk) :
    h.replies <+: (h.onNavigationLifecycleCompleted res).replies := by
  obtain ⟨_, _, hreplies, heq⟩ := h.onNavigationLifecycleCompleted_same res
  rw [heq]
  exact hreplies

/-- A loop whose turns take back no reply takes back none. -/
theorem replies_foldl {α : Type} {step : Handler → α → Handler}
    (hstep : ∀ h x, h.replies <+: (step h x).replies) (h : Handler) (xs : List α) :
    h.replies <+: (xs.foldl step h).replies :=
  Run.foldl_rel (r := fun h h' : Handler => h.replies <+: h'.replies) (fun _ => List.prefix_rfl)
    List.IsPrefix.trans hstep h xs

theorem replies_onTargetCreated (h : Handler) (targetInfo : TargetInfo) :
    (h.onTargetCreated targetInfo).replies = h.replies := by
  obtain ⟨_, _, heq⟩ := h.onTargetCreated_same targetInfo
  rw [heq]

theorem replies_onTargetEvent (h : Handler) (driver : Driver) (accepted : Bool) (target : Target)
    (event : TargetEvent) (now : Instant) :
    h.replies <+: (h.onTargetEvent driver accepted target event now).1.replies := by
  have hsubmit : ∀ (h : Handler) req pending,
      h.replies <+: (h.submit accepted req pending now).replies := fun h req pending =>
    (h.replies_submit accepted req pending now).symm ▸ List.prefix_rfl
  cases event with
  | request req => exact hsubmit h _ _
  | navigationRequest id req => exact hsubmit h _ _
  | navigationResult res => exact h.replies_onNavigationLifecycleCompleted res
  | command msg =>
    simp only [onTargetEvent]
    split
    · obtain ⟨_, _, _, _, _, _, heq⟩ := h.onNavigation_same driver accepted target msg now
      rw [heq]
    · cases driver with
      | stream => exact hsubmit h _ _
      | run => exact hsubmit h _ _
  | bytesConsumed bytes =>
    simp only [onTargetEvent]
    split
    · exact List.prefix_rfl
    · exact List.prefix_rfl

theorem replies_turn (h : Handler) (driver : Driver) (accepted : Bool) (targetId : TargetId) (env : Env)
    (now : Instant) : h.replies <+: (h.turn driver accepted targetId env now).replies := by
  cases htarget : h.targets.get targetId with
  | none => rw [turn_of_none htarget]
  | some target =>
    cases hevent : (pollTarget driver target env now).event with
    | none => rw [turn_of_idle htarget accepted hevent]
    | some event =>
      rw [turn_of_event htarget accepted hevent]
      exact h.replies_onTargetEvent driver _ _ event now

theorem replies_resolve (h : Handler) (env : Env) (method : MethodId) (resp : Response)
    (pending : PendingRequest) : h.replies <+: (h.resolve env method resp pending).replies := by
  cases pending with
  | createTarget tx =>
    simp only [resolve]
    split
    · split
      · exact List.prefix_rfl
      · exact List.prefix_append _ _
    · exact List.prefix_append _ _
  | getTargets tx =>
    simp only [resolve]
    split
    · exact (replies_foldl (fun h info => (h.replies_onTargetCreated info).symm ▸ List.prefix_rfl) h
        _).trans (List.prefix_append _ _)
    · exact List.prefix_append _ _
  | navigate id => exact h.replies_onNavigationResponse id resp
  | externalCommand tx boundTo => exact List.prefix_append _ _
  | internalCommand owner => exact List.prefix_rfl
  | closeBrowser tx => exact List.prefix_append _ _

theorem replies_timeOut (h : Handler) (call : CallId) : h.replies <+: (h.timeOut call).replies := by
  obtain ⟨_, _, _, hreplies, heq⟩ := h.timeOut_same call
  rw [heq]
  exact hreplies

theorem replies_cancel (debugTargetId : TargetId → String) (event : EventTargetCrashed) (h : Handler)
    (call : CallId) : h.replies <+: (cancel debugTargetId event h call).replies := by
  obtain ⟨_, _, hreplies, heq⟩ := cancel_same debugTargetId event h call
  rw [heq]
  exact hreplies

theorem replies_removeTarget (h : Handler) (targetId : TargetId) :
    (h.removeTarget targetId).replies = h.replies := by
  obtain ⟨_, _, _, heq⟩ := h.removeTarget_same targetId
  rw [heq]

theorem replies_onEvent (h : Handler) (env : Env) (event : CdpEventMessage) :
    h.replies <+: (h.onEvent env event).replies := by
  simp only [onEvent]
  split
  · exact List.prefix_rfl
  · split
    · exact (h.replies_onTargetCreated _).symm ▸ List.prefix_rfl
    · exact List.prefix_rfl
    · exact (h.replies_removeTarget _).symm ▸ List.prefix_rfl
    · simp only [onTargetCrashed, replies_removeTarget]
      exact replies_foldl (replies_cancel env.debugTargetId _) h _
    · simp only [onDetachedFromTarget]
      split
      · exact List.prefix_rfl
      · exact List.prefix_rfl
    · exact List.prefix_rfl

/-- What a handler has sent stays sent. -/
theorem replies_step (h : Handler) (driver : Driver) (input : HandlerInput) :
    h.replies <+: (h.step driver input).replies := by
  cases input with
  | browserMessage accepted msg now => exact h.replies_onBrowserMessage _ msg now
  | pageMessage asked msg => exact List.prefix_rfl
  | drainPage asked =>
    cases driver with
    | stream => exact List.prefix_rfl
    | run => exact List.prefix_rfl
  | turn accepted polled env now => exact h.replies_turn driver accepted polled env now
  | blockExhausted =>
    simp only [step, blockExhausted]
    split
    · exact List.prefix_rfl
    · exact List.prefix_rfl
  | response env resp =>
    simp only [step, onResponse]
    split
    · exact replies_resolve { h with pendingCommands := h.pendingCommands.remove resp.id } env _ resp _
    · exact List.prefix_rfl
  | event env event => exact h.replies_onEvent env event
  | evict now =>
    simp only [step, evict, evictTimedOutCommands]
    split
    · exact List.prefix_rfl
    · exact replies_foldl replies_timeOut h _

theorem replies_final (h : Handler) (driver : Driver) (inputs : List HandlerInput) :
    h.replies <+: (Run.final (step driver) h inputs).replies :=
  replies_foldl (fun h input => h.replies_step driver input) h inputs

/-! ### The answer -/

/-- The response answers the call that creates the target, on behalf of the sender. -/
structure Creates (h : Handler) (env : Env) (resp : Response) (targetId : TargetId) (tx : Sender) :
    Prop where
  pending : ∃ method sentAt, h.pendingCommands.get resp.id = some (.createTarget tx, method, sentAt)
  answer : toCommandResponse env.decoders.createTarget resp = .ok targetId

/-- The sender waits in the target, and since the response came no error was sent on it. -/
def Initiated (arrival h : Handler) (targetId : TargetId) (tx : Sender) : Prop :=
  (h.targets.get targetId).bind Target.initiator = some tx ∧
    ∀ err, (tx, .page (.error err)) ∉ h.replies.drop arrival.replies.length

variable {env : Env} {resp : Response} {targetId : TargetId} {tx : Sender}

theorem onResponse_of_creates (h : Handler) (hcreates : h.Creates env resp targetId tx) :
    h.onResponse env resp =
      match h.targets.get targetId with
      | some target =>
        { h with
          pendingCommands := h.pendingCommands.remove resp.id
          targets := h.targets.set targetId (target.setInitiator tx) }
      | none =>
        { h with pendingCommands := h.pendingCommands.remove resp.id }.send tx
          (.page (.error .notFound)) := by
  obtain ⟨method, sentAt, hpending⟩ := hcreates.pending
  cases hget : h.targets.get targetId with
  | none => simp only [onResponse, hpending, resolve, hcreates.answer, hget]
  | some target => simp only [onResponse, hpending, resolve, hcreates.answer, hget]

/-- A target that is there gets the sender. -/
theorem initiated_of_known (hcreates : h.Creates env resp targetId tx) {target : Target}
    (hknown : h.targets.get targetId = some target) :
    Initiated h (h.onResponse env resp) targetId tx := by
  rw [onResponse_of_creates h hcreates, hknown]
  refine ⟨?_, fun err => ?_⟩
  · rw [Table.get_set_self]
    rfl
  · rw [List.drop_length]
    exact List.not_mem_nil

/-- Where the target is not there the error is sent at once, and stays sent. -/
theorem not_initiated_of_unknown (hcreates : h.Creates env resp targetId tx)
    (hunknown : h.targets.get targetId = none) (driver : Driver) (rest : List HandlerInput) :
    ¬ Initiated h (Run.final (step driver) (h.onResponse env resp) rest) targetId tx := by
  rintro ⟨_, hnone⟩
  obtain ⟨later, hlater⟩ := replies_final (h.onResponse env resp) driver rest
  have hsent : (h.onResponse env resp).replies = h.replies ++ [(tx, .page (.error .notFound))] := by
    rw [onResponse_of_creates h hcreates, hunknown]
    rfl
  rw [hsent, List.append_assoc] at hlater
  refine hnone .notFound ?_
  rw [← hlater, List.drop_left]
  exact List.mem_cons_self

/-! ### The two orders -/

/-- The state in which the response comes, when the event comes before it or after it. -/
def arrival (driver : Driver) (start : Handler) (created : HandlerInput) (between : List HandlerInput)
    (eventFirst : Bool) : Handler :=
  if eventFirst then Run.final (step driver) start (created :: between) else start

/-- The state in which both have come. -/
def bothCame (driver : Driver) (start : Handler) (created answered : HandlerInput)
    (between : List HandlerInput) (eventFirst : Bool) : Handler :=
  if eventFirst then Run.final (step driver) start (created :: between ++ [answered])
  else Run.final (step driver) start (answered :: between ++ [created])

theorem initiated_iff {driver : Driver} {start : Handler} {created : HandlerInput}
    {between : List HandlerInput} {eventFirst : Bool}
    (hstart : eventFirst = false → start.targets.get targetId = none)
    (hcreates : (arrival driver start created between eventFirst).Creates env resp targetId tx) :
    Initiated (arrival driver start created between eventFirst)
        (bothCame driver start created (.response env resp) between eventFirst) targetId tx ↔
      ((arrival driver start created between eventFirst).targets.get targetId).isSome := by
  cases eventFirst with
  | false =>
    rw [show arrival driver start created between false = start from rfl, hstart rfl]
    exact iff_of_false (not_initiated_of_unknown hcreates (hstart rfl) driver _) nofun
  | true =>
    have hboth : bothCame driver start created (.response env resp) between true =
        (arrival driver start created between true).onResponse env resp := by
      simp only [bothCame, arrival, if_true, Run.final_append, Run.final_cons, Run.final_nil]
      rfl
    rw [hboth]
    cases hknown : (arrival driver start created between true).targets.get targetId with
    | some target => exact iff_of_true (initiated_of_known hcreates hknown) rfl
    | none => exact iff_of_false (not_initiated_of_unknown hcreates hknown driver []) nofun

/-- A target that was put in place stays there while no input removes it. -/
theorem isSome_final {driver : Driver} {inputs : List HandlerInput} (hknown : (h.targets.get targetId).isSome)
    (hleft : Run.Allowed (step driver) (fun h input => h.removed input ≠ some targetId) h inputs) :
    ((Run.final (step driver) h inputs).targets.get targetId).isSome := by
  refine Run.invariant (fun h : Handler => (h.targets.get targetId).isSome = true) ?_ hknown hleft
  intro h input hknown hremoved
  rw [isSome_step, hknown]
  simp [hremoved]

end Handler

end SpiderChrome
