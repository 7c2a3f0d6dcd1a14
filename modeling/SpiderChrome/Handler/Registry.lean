import SpiderChrome.Handler.Deliver

/-!
# What an input does to the rest of the handler

Beside its targets a handler keeps the list of their ids, the table of sessions and the budget of bytes. The ids grow by what is announced, and the sessions change where one is attached or detached and where a target goes. The budget is never given a number to start with, so nothing ever comes off it.
-/

namespace SpiderChrome

namespace Handler

/-- The list of ids, the table of sessions and the budget. -/
def registry (h : Handler) :
    List TargetId × Table SessionId Session × Option UInt64 × Bool :=
  (h.targetIds, h.sessions, h.remainingBytes, h.budgetExhausted)

/-- The table of sessions after a target is removed. -/
def sessionsWithout (h : Handler) (targetId : TargetId) : Table SessionId Session :=
  match h.targets.get targetId with
  | some target =>
    match target.sessionId with
    | some session => h.sessions.remove session
    | none => h.sessions
  | none => h.sessions

/-- The table of sessions after an input. -/
def sessionsAfter (h : Handler) : HandlerInput → Table SessionId Session
  | .event _ event =>
    match h.eventTarget event, event.params with
    | none, .targetAttachedToTarget ev => h.sessions.set ev.sessionId ⟨ev.sessionId, ev.targetInfo.targetId⟩
    | none, .targetDetachedFromTarget sessionId => h.sessions.remove sessionId
    | none, .targetTargetDestroyed targetId => h.sessionsWithout targetId
    | none, .targetTargetCrashed ev => h.sessionsWithout ev.targetId
    | _, _ => h.sessions
  | _ => h.sessions

/-! ### Calls that leave the registry alone -/

theorem registry_submit (h : Handler) (accepted : Bool) (req : Request) (pending : PendingRequest)
    (now : Instant) : (h.submit accepted req pending now).registry = h.registry := by
  obtain ⟨_, _, _, heq⟩ := h.submit_same accepted req pending now
  rw [heq]
  rfl

theorem registry_createPage (h : Handler) (accepted : Bool) (params : CreateTargetParams)
    (tx : Sender) (now : Instant) : (h.createPage accepted params tx now).registry = h.registry := by
  obtain ⟨_, _, _, _, _, heq⟩ := h.createPage_same accepted params tx now
  rw [heq]
  rfl

theorem registry_onBrowserMessage (h : Handler) (accepted : Bool) (msg : HandlerMessage)
    (now : Instant) : (h.onBrowserMessage accepted msg now).registry = h.registry := by
  cases msg with
  | createPage params tx =>
    simp only [onBrowserMessage]
    split
    · exact registry_createPage _ _ _ _ _
    · exact registry_createPage _ _ _ _ _
  | command cmd => exact h.registry_submit _ _ _ _
  | fetchTargets tx => exact h.registry_submit _ _ _ _
  | closeBrowser tx => exact h.registry_submit _ _ _ _
  | _ => rfl

theorem registry_onNavigationResponse (h : Handler) (id : NavigationId) (resp : Response) :
    (h.onNavigationResponse id resp).registry = h.registry := by
  obtain ⟨_, _, _, heq⟩ := h.onNavigationResponse_same id resp
  rw [heq]
  rfl

theorem registry_onNavigationLifecycleCompleted (h : Handler)
    (res : Except NavigationError NavigationOk) :
    (h.onNavigationLifecycleCompleted res).registry = h.registry := by
  obtain ⟨_, _, _, heq⟩ := h.onNavigationLifecycleCompleted_same res
  rw [heq]
  rfl

theorem registry_timeOut (h : Handler) (call : CallId) : (h.timeOut call).registry = h.registry := by
  obtain ⟨_, _, _, _, heq⟩ := h.timeOut_same call
  rw [heq]
  rfl

theorem registry_evict (h : Handler) (now : Instant) : (h.evict now).registry = h.registry := by
  have hcommands : (h.evictTimedOutCommands now).registry = h.registry := by
    simp only [evictTimedOutCommands]
    split
    · rfl
    · exact Run.foldl_unchanged registry_timeOut h _
  exact hcommands

theorem registry_cancel (debugTargetId : TargetId → String) (event : EventTargetCrashed)
    (h : Handler) (call : CallId) : (cancel debugTargetId event h call).registry = h.registry := by
  obtain ⟨_, _, _, heq⟩ := cancel_same debugTargetId event h call
  rw [heq]
  rfl

theorem registry_onNavigation (h : Handler) (driver : Driver) (accepted : Bool) (target : Target)
    (msg : CommandMessage) (now : Instant) :
    (h.onNavigation driver accepted target msg now).1.registry = h.registry := by
  obtain ⟨_, _, _, _, _, _, heq⟩ := h.onNavigation_same driver accepted target msg now
  rw [heq]
  rfl

theorem registry_onPageCommand (h : Handler) (driver : Driver) (accepted : Bool) (target : Target)
    (msg : CommandMessage) (now : Instant) :
    (h.onPageCommand driver accepted target msg now).registry = h.registry := by
  cases driver with
  | stream => exact h.registry_submit accepted _ _ now
  | run => exact h.registry_submit accepted _ _ now

/-- An event of a target touches the registry only where the budget has a number to count down. -/
theorem registry_onTargetEvent (h : Handler) (driver : Driver) (accepted : Bool) (target : Target)
    (event : TargetEvent) (now : Instant)
    (hbytes : ∀ bytes, event = .bytesConsumed bytes → h.remainingBytes = none) :
    (h.onTargetEvent driver accepted target event now).1.registry = h.registry := by
  cases event with
  | request req => exact h.registry_submit accepted _ _ now
  | navigationRequest id req => exact h.registry_submit accepted _ _ now
  | navigationResult res => exact h.registry_onNavigationLifecycleCompleted res
  | command msg =>
    simp only [onTargetEvent]
    split
    · exact h.registry_onNavigation driver accepted target msg now
    · exact h.registry_onPageCommand driver accepted target msg now
  | bytesConsumed bytes =>
    simp only [onTargetEvent, hbytes bytes rfl]

theorem registry_turn (h : Handler) (driver : Driver) (accepted : Bool) (targetId : TargetId)
    (env : Env) (now : Instant) (hbytes : h.remainingBytes = none) :
    (h.turn driver accepted targetId env now).registry = h.registry := by
  cases htarget : h.targets.get targetId with
  | none => rw [turn_of_none htarget]
  | some target =>
    cases hevent : (pollTarget driver target env now).event with
    | none =>
      rw [turn_of_idle htarget accepted hevent]
      rfl
    | some event =>
      rw [turn_of_event htarget accepted hevent]
      exact h.registry_onTargetEvent driver _ _ event now fun _ _ => hbytes

/-! ### A step -/

/-- The registry after an input. -/
def registryAfter (h : Handler) (input : HandlerInput) :
    List TargetId × Table SessionId Session × Option UInt64 × Bool :=
  (h.targetIds ++ (h.announced input).map TargetInfo.targetId, h.sessionsAfter input,
    h.remainingBytes, h.budgetExhausted)

theorem registryAfter_of_same {h : Handler} {input : HandlerInput} (hannounced : h.announced input = [])
    (hsessions : h.sessionsAfter input = h.sessions) : h.registryAfter input = h.registry := by
  rw [registryAfter, hannounced, hsessions, List.map_nil, List.append_nil]
  rfl

theorem registry_foldl_onTargetCreated (h : Handler) (targetInfos : List TargetInfo) :
    (targetInfos.foldl onTargetCreated h).registry =
      (h.targetIds ++ (targetInfos.filter h.admits).map TargetInfo.targetId, h.sessions,
        h.remainingBytes, h.budgetExhausted) := by
  induction targetInfos generalizing h with
  | nil =>
    simp only [List.foldl_nil, List.filter_nil, List.map_nil, List.append_nil]
    rfl
  | cons targetInfo rest ih =>
    rw [List.foldl_cons, ih, (h.onTargetCreated_admits targetInfo).1]
    unfold onTargetCreated
    cases hinfo : h.admits targetInfo with
    | false => rw [List.filter_cons_of_neg (by rw [hinfo]; exact Bool.false_ne_true)]; rfl
    | true =>
      rw [List.filter_cons_of_pos hinfo]
      simp [List.append_assoc]

theorem registry_removeTarget (h : Handler) (targetId : TargetId) :
    (h.removeTarget targetId).registry =
      (h.targetIds, h.sessionsWithout targetId, h.remainingBytes, h.budgetExhausted) := by
  unfold removeTarget sessionsWithout
  dsimp only
  cases h.targets.get targetId with
  | none => rfl
  | some target => rfl

theorem registry_onTargetCrashed (h : Handler) (debugTargetId : TargetId → String)
    (event : EventTargetCrashed) :
    (h.onTargetCrashed debugTargetId event).registry =
      (h.targetIds, h.sessionsWithout event.targetId, h.remainingBytes, h.budgetExhausted) := by
  have hregistry := Run.foldl_unchanged (registry_cancel debugTargetId event) h
  have htargets := Run.foldl_unchanged (cancel_targets debugTargetId event) h
  simp only [registry, Prod.mk.injEq] at hregistry
  simp only [onTargetCrashed]
  rw [registry_removeTarget, sessionsWithout, sessionsWithout, htargets, (hregistry _).1,
    (hregistry _).2.1, (hregistry _).2.2.1, (hregistry _).2.2.2]

theorem registry_onResponse (h : Handler) (env : Env) (resp : Response) :
    (h.onResponse env resp).registry = h.registryAfter (.response env resp) := by
  cases hpending : h.pendingCommands.get resp.id with
  | none =>
    rw [registryAfter_of_same (by simp only [announced, hpending]) rfl]
    simp only [onResponse, hpending]
  | some pending =>
    obtain ⟨request, method, sentAt⟩ := pending
    simp only [onResponse, hpending]
    cases request with
    | createTarget tx =>
      rw [registryAfter_of_same (by simp only [announced, hpending]) rfl]
      simp only [resolve]
      split
      · split
        · rfl
        · rfl
      · rfl
    | getTargets tx =>
      cases hdecode : toCommandResponse env.decoders.getTargets resp with
      | error err =>
        rw [registryAfter_of_same (by simp only [announced, hpending, hdecode]) rfl]
        simp only [resolve, hdecode]
        rfl
      | ok targetInfos =>
        have hannounced : h.announced (.response env resp) = targetInfos.filter h.admits := by
          simp only [announced, hpending, hdecode]
        rw [registryAfter, hannounced]
        simp only [resolve, hdecode]
        exact registry_foldl_onTargetCreated _ targetInfos
    | navigate id =>
      rw [registryAfter_of_same (by simp only [announced, hpending]) rfl]
      exact registry_onNavigationResponse _ id resp
    | externalCommand tx boundTo =>
      rw [registryAfter_of_same (by simp only [announced, hpending]) rfl]
      rfl
    | internalCommand owner =>
      rw [registryAfter_of_same (by simp only [announced, hpending]) rfl]
      rfl
    | closeBrowser tx =>
      rw [registryAfter_of_same (by simp only [announced, hpending]) rfl]
      rfl

theorem registry_onEvent (h : Handler) (env : Env) (event : CdpEventMessage) :
    (h.onEvent env event).registry = h.registryAfter (.event env event) := by
  obtain ⟨params, sessionId⟩ := event
  cases hfound : h.eventTarget ⟨params, sessionId⟩ with
  | some found =>
    rw [registryAfter_of_same (by simp only [announced, hfound]) (by simp only [sessionsAfter, hfound])]
    simp only [onEvent, hfound]
    rfl
  | none =>
    simp only [onEvent, hfound]
    cases params with
    | targetTargetCreated targetInfo =>
      have hcreated := registry_foldl_onTargetCreated h [targetInfo]
      simp only [registryAfter, announced, sessionsAfter, hfound]
      exact hcreated
    | targetTargetDestroyed gone =>
      simp only [registryAfter, announced, sessionsAfter, hfound, List.map_nil, List.append_nil]
      exact h.registry_removeTarget gone
    | targetTargetCrashed ev =>
      simp only [registryAfter, announced, sessionsAfter, hfound, List.map_nil, List.append_nil]
      exact h.registry_onTargetCrashed env.debugTargetId ev
    | targetAttachedToTarget ev =>
      simp only [registryAfter, announced, sessionsAfter, hfound, List.map_nil, List.append_nil]
      rfl
    | targetDetachedFromTarget detached =>
      simp only [registryAfter, announced, sessionsAfter, hfound, List.map_nil, List.append_nil]
      unfold onDetachedFromTarget
      split
      · rfl
      · rename_i hnone
        rw [Table.remove_of_get_eq_none hnone]
        rfl
    | _ =>
      rw [registryAfter_of_same (by simp only [announced, hfound]) (by simp only [sessionsAfter, hfound])]

/-- What an input does to the registry of a handler whose budget has no number. -/
theorem registry_step (h : Handler) (driver : Driver) (input : HandlerInput)
    (hbytes : h.remainingBytes = none) : (h.step driver input).registry = h.registryAfter input := by
  cases input with
  | response env resp => exact h.registry_onResponse env resp
  | event env event => exact h.registry_onEvent env event
  | browserMessage accepted msg now =>
    rw [registryAfter_of_same rfl rfl]
    exact h.registry_onBrowserMessage _ msg now
  | pageMessage asked msg =>
    rw [registryAfter_of_same rfl rfl]
    rfl
  | drainPage asked =>
    rw [registryAfter_of_same rfl rfl]
    cases driver with
    | stream => rfl
    | run => rfl
  | turn accepted polled env now =>
    rw [registryAfter_of_same rfl rfl]
    exact h.registry_turn driver accepted polled env now hbytes
  | blockExhausted =>
    rw [registryAfter_of_same rfl rfl]
    simp only [step, blockExhausted]
    split
    · rfl
    · rfl
  | evict now =>
    rw [registryAfter_of_same rfl rfl]
    exact h.registry_evict now

variable {h : Handler}

theorem targetIds_step (hbytes : h.remainingBytes = none) (driver : Driver) (input : HandlerInput) :
    (h.step driver input).targetIds =
      h.targetIds ++ (h.announced input).map TargetInfo.targetId :=
  congrArg Prod.fst (h.registry_step driver input hbytes)

theorem sessions_step (hbytes : h.remainingBytes = none) (driver : Driver) (input : HandlerInput) :
    (h.step driver input).sessions = h.sessionsAfter input :=
  congrArg (fun registry => registry.2.1) (h.registry_step driver input hbytes)

theorem remainingBytes_step (hbytes : h.remainingBytes = none) (driver : Driver) (input : HandlerInput) :
    (h.step driver input).remainingBytes = none :=
  (congrArg (fun registry => registry.2.2.1) (h.registry_step driver input hbytes)).trans hbytes

/-- Every target has its id in the list. -/
def Listed (h : Handler) : Prop :=
  ∀ targetId, (h.targets.get targetId).isSome → targetId ∈ h.targetIds

theorem Listed.step (hlisted : Listed h) (hbytes : h.remainingBytes = none) (driver : Driver)
    (input : HandlerInput) : Listed (h.step driver input) := by
  intro targetId hthere
  rw [isSome_step] at hthere
  rw [targetIds_step hbytes, List.mem_append]
  simp only [Bool.or_eq_true, decide_eq_true_eq, Bool.and_eq_true] at hthere
  obtain hannounced | ⟨_, hbefore⟩ := hthere
  · exact .inr hannounced
  · exact .inl (hlisted targetId hbefore)

end Handler

end SpiderChrome
