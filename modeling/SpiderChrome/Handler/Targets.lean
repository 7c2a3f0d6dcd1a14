import SpiderChrome.Handler.Calls
import SpiderChrome.Target.Backlog

/-!
# What the targets of a handler still have to report

`held` is the backlog of a target that the handler has. An input that polls no target leaves every backlog alone, but for the targets that it removes or starts afresh; these are listed by `dropped`. A turn takes one report from the target that it polls, and a navigation adds to it.
-/

namespace SpiderChrome

namespace Handler

variable {α : Type} {f : TargetEvent → Option α} {g : FrameManager → List α}

/-- What a target has left to report; nothing if it is not there. -/
def held (f : TargetEvent → Option α) (g : FrameManager → List α) (h : Handler)
    (targetId : TargetId) : List α :=
  match h.targets.get targetId with
  | some target => target.backlog f g
  | none => []

/-- The targets that the answer to a request puts a new target in the place of. -/
def replaced (h : Handler) (env : Env) (resp : Response) : PendingRequest → List TargetId
  | .getTargets _ =>
    match toCommandResponse env.decoders.getTargets resp with
    | .ok targetInfos => (targetInfos.filter h.admits).map TargetInfo.targetId
    | .error _ => []
  | _ => []

/-- The targets that an input removes, or puts a new target in the place of. -/
def dropped (h : Handler) : HandlerInput → List TargetId
  | .response env resp =>
    match h.pendingCommands.get resp.id with
    | some (pending, _, _) => h.replaced env resp pending
    | none => []
  | .event _ event =>
    match h.eventTarget event with
    | some _ => []
    | none =>
      match event.params with
      | .targetTargetCreated targetInfo =>
        if h.admits targetInfo then [targetInfo.targetId] else []
      | .targetTargetDestroyed targetId => [targetId]
      | .targetTargetCrashed ev => [ev.targetId]
      | _ => []
  | _ => []

theorem held_of_targets_eq {h h' : Handler} (heq : h'.targets = h.targets) (targetId : TargetId) :
    h'.held f g targetId = h.held f g targetId := by
  rw [held, held, heq]

theorem held_mapValues {h h' : Handler} {change : Target → Target}
    (heq : h'.targets = h.targets.mapValues change)
    (hchange : ∀ target, (change target).backlog f g = target.backlog f g) (targetId : TargetId) :
    h'.held f g targetId = h.held f g targetId := by
  rw [held, held, heq, Table.get_mapValues]
  cases h.targets.get targetId with
  | none => rfl
  | some target => exact hchange target

theorem held_update {h h' : Handler} {changed : TargetId} {change : Target → Target}
    (heq : h'.targets = h.targets.update changed change)
    (hchange : ∀ target, (change target).backlog f g = target.backlog f g) (targetId : TargetId) :
    h'.held f g targetId = h.held f g targetId := by
  rw [held, held, heq, Table.get_update]
  cases h.targets.get targetId with
  | none => simp
  | some target =>
    split
    · rename_i heq
      split at heq
      · cases heq
        exact hchange target
      · cases heq
        rfl
    · rename_i heq
      split at heq
      · cases heq
      · cases heq

theorem held_set {h h' : Handler} {changed : TargetId} {target : Target}
    (heq : h'.targets = h.targets.set changed target) (targetId : TargetId) :
    h'.held f g targetId = if targetId = changed then target.backlog f g else h.held f g targetId := by
  rw [held, held, heq, Table.get_set]
  split
  · rename_i heq
    split at heq
    · cases heq
      rename_i hsame
      rw [if_pos hsame]
    · rename_i hother
      rw [if_neg hother, heq]
  · rename_i heq
    split at heq
    · cases heq
    · rename_i hother
      rw [if_neg hother, heq]

theorem held_remove {h h' : Handler} {removed : TargetId}
    (heq : h'.targets = h.targets.remove removed) (targetId : TargetId) :
    h'.held f g targetId = if targetId = removed then [] else h.held f g targetId := by
  rw [held, held, heq, Table.get_remove]
  by_cases hsame : targetId = removed
  · rw [if_pos hsame, if_pos hsame]
  · rw [if_neg hsame, if_neg hsame]

/-! ### Calls that leave the targets alone -/

theorem submit_targets (h : Handler) (accepted : Bool) (req : Request) (pending : PendingRequest)
    (now : Instant) : (h.submit accepted req pending now).targets = h.targets := by
  obtain ⟨_, _, _, heq⟩ := h.submit_same accepted req pending now
  rw [heq]

theorem createPage_targets (h : Handler) (accepted : Bool) (params : CreateTargetParams)
    (tx : Sender) (now : Instant) : (h.createPage accepted params tx now).targets = h.targets := by
  obtain ⟨_, _, _, _, _, heq⟩ := h.createPage_same accepted params tx now
  rw [heq]

theorem onNavigationResponse_targets (h : Handler) (id : NavigationId) (resp : Response) :
    (h.onNavigationResponse id resp).targets = h.targets := by
  obtain ⟨_, _, _, heq⟩ := h.onNavigationResponse_same id resp
  rw [heq]

theorem onNavigationLifecycleCompleted_targets (h : Handler)
    (res : Except NavigationError NavigationOk) :
    (h.onNavigationLifecycleCompleted res).targets = h.targets := by
  obtain ⟨_, _, _, heq⟩ := h.onNavigationLifecycleCompleted_same res
  rw [heq]

theorem timeOut_targets (h : Handler) (call : CallId) : (h.timeOut call).targets = h.targets := by
  obtain ⟨_, _, _, _, heq⟩ := h.timeOut_same call
  rw [heq]

theorem evictTimedOutCommands_targets (h : Handler) (now : Instant) :
    (h.evictTimedOutCommands now).targets = h.targets := by
  simp only [evictTimedOutCommands]
  split
  · rfl
  · exact Run.foldl_unchanged timeOut_targets h _

theorem cancel_targets (debugTargetId : TargetId → String) (event : EventTargetCrashed)
    (h : Handler) (call : CallId) : (cancel debugTargetId event h call).targets = h.targets := by
  obtain ⟨_, _, _, heq⟩ := cancel_same debugTargetId event h call
  rw [heq]

theorem removeTarget_targets (h : Handler) (targetId : TargetId) :
    (h.removeTarget targetId).targets = h.targets.remove targetId := by
  simp only [removeTarget]
  split
  · rfl
  · rename_i hnone
    exact (Table.remove_of_get_eq_none hnone).symm

/-! ### Inputs that poll no target -/

section Inputs

variable (hf : Target.Reports f g)

include hf

theorem held_onTargetCreated (h : Handler) (targetInfo : TargetInfo) (targetId : TargetId) :
    (h.onTargetCreated targetInfo).held f g targetId =
      if h.admits targetInfo = true ∧ targetId = targetInfo.targetId then []
      else h.held f g targetId := by
  simp only [onTargetCreated]
  cases hadmits : h.admits targetInfo with
  | false => simp
  | true =>
    simp only [Bool.not_true, Bool.false_eq_true, if_false, true_and]
    rw [held_set rfl, Target.backlog_new hf]

theorem held_foldl_onTargetCreated (h : Handler) (targetInfos : List TargetInfo)
    (targetId : TargetId) :
    (targetInfos.foldl onTargetCreated h).held f g targetId =
      if targetId ∈ (targetInfos.filter h.admits).map TargetInfo.targetId then []
      else h.held f g targetId := by
  induction targetInfos generalizing h with
  | nil => simp
  | cons targetInfo rest ih =>
    have hadmits : (h.onTargetCreated targetInfo).admits = h.admits := by
      simp only [onTargetCreated]
      split
      · rfl
      · rfl
    rw [List.foldl_cons, ih, hadmits, held_onTargetCreated hf]
    cases hinfo : h.admits targetInfo with
    | false =>
      rw [List.filter_cons_of_neg (by rw [hinfo]; exact Bool.false_ne_true)]
      simp only [Bool.false_eq_true, false_and, if_false]
    | true =>
      rw [List.filter_cons_of_pos hinfo, List.map_cons]
      by_cases hsame : targetId = targetInfo.targetId
      · simp [hsame]
      · simp only [List.mem_cons, hsame, and_false, if_false, false_or]

theorem held_resolve (h : Handler) (env : Env) (method : MethodId) (resp : Response)
    (pending : PendingRequest) (targetId : TargetId) :
    (h.resolve env method resp pending).held f g targetId =
      if targetId ∈ h.replaced env resp pending then [] else h.held f g targetId := by
  cases pending with
  | createTarget tx =>
    rw [show h.replaced env resp (.createTarget tx) = [] from rfl, if_neg List.not_mem_nil]
    simp only [resolve]
    split
    · split
      · rename_i created _ target htarget
        rw [held_set rfl]
        split
        · rename_i hsame
          rw [held, hsame, htarget]
          exact Target.backlog_of_eq rfl rfl
        · rfl
      · rfl
    · rfl
  | getTargets tx =>
    cases hdecode : toCommandResponse env.decoders.getTargets resp with
    | ok targetInfos =>
      simp only [resolve, replaced, hdecode]
      exact held_foldl_onTargetCreated hf h targetInfos targetId
    | error err =>
      simp only [resolve, replaced, hdecode, List.not_mem_nil, if_false]
      rfl
  | navigate id =>
    rw [show h.replaced env resp (.navigate id) = [] from rfl, if_neg List.not_mem_nil]
    exact held_of_targets_eq (onNavigationResponse_targets h id resp) targetId
  | externalCommand tx boundTo => exact (if_neg List.not_mem_nil).symm
  | internalCommand owner =>
    rw [show h.replaced env resp (.internalCommand owner) = [] from rfl, if_neg List.not_mem_nil]
    refine held_update rfl (fun target => ?_) targetId
    rw [Target.backlog_onResponse hf.drains]
    unfold maybeStoreAttachSessionId
    split
    · rfl
    · split
      · exact Target.backlog_of_eq rfl rfl
      · rfl
  | closeBrowser tx => exact (if_neg List.not_mem_nil).symm

theorem held_onResponse (h : Handler) (env : Env) (resp : Response) (targetId : TargetId) :
    (h.onResponse env resp).held f g targetId =
      if targetId ∈ h.dropped (.response env resp) then [] else h.held f g targetId := by
  cases hpending : h.pendingCommands.get resp.id with
  | some pending =>
    have hdropped : h.dropped (.response env resp) = h.replaced env resp pending.1 := by
      simp only [dropped, hpending]
    rw [hdropped]
    simp only [onResponse, hpending]
    exact held_resolve hf _ env _ resp _ targetId
  | none =>
    have hdropped : h.dropped (.response env resp) = [] := by simp only [dropped, hpending]
    rw [hdropped, if_neg List.not_mem_nil]
    simp only [onResponse, hpending]

omit hf in
theorem eventTarget_get {h : Handler} {event : CdpEventMessage} {targetId : TargetId}
    {target : Target} (htarget : h.eventTarget event = some (targetId, target)) :
    h.targets.get targetId = some target := by
  rw [eventTarget, Option.bind_eq_some_iff] at htarget
  obtain ⟨session, -, htarget⟩ := htarget
  rw [Option.map_eq_some_iff] at htarget
  obtain ⟨target', hget, heq⟩ := htarget
  cases heq
  exact hget

/-- The events that the handler takes itself. -/
theorem held_onEvent_of_none (h : Handler) (env : Env) (event : CdpEventMessage)
    (hnone : h.eventTarget event = none) (targetId : TargetId) :
    (h.onEvent env event).held f g targetId =
      if targetId ∈ h.dropped (.event env event) then [] else h.held f g targetId := by
  obtain ⟨params, sessionId⟩ := event
  simp only [onEvent, hnone]
  cases params with
  | targetTargetCreated targetInfo =>
    have hdropped : h.dropped (.event env ⟨.targetTargetCreated targetInfo, sessionId⟩) =
        if h.admits targetInfo then [targetInfo.targetId] else [] := by
      simp only [dropped, hnone]
    rw [hdropped]
    dsimp only
    rw [held_onTargetCreated hf]
    cases h.admits targetInfo with
    | false => simp
    | true => simp
  | targetTargetDestroyed removed =>
    have hdropped : h.dropped (.event env ⟨.targetTargetDestroyed removed, sessionId⟩) =
        [removed] := by
      simp only [dropped, hnone]
    rw [hdropped]
    dsimp only
    rw [onTargetDestroyed, held_remove (removeTarget_targets h removed)]
    simp only [List.mem_singleton]
  | targetTargetCrashed ev =>
    have hdropped : h.dropped (.event env ⟨.targetTargetCrashed ev, sessionId⟩) =
        [ev.targetId] := by
      simp only [dropped, hnone]
    rw [hdropped]
    dsimp only [onTargetCrashed]
    rw [held_remove (removeTarget_targets _ ev.targetId)]
    simp only [List.mem_singleton]
    rw [held_of_targets_eq (Run.foldl_unchanged (cancel_targets env.debugTargetId ev) h _)]
  | targetAttachedToTarget ev =>
    have hdropped : h.dropped (.event env ⟨.targetAttachedToTarget ev, sessionId⟩) = [] := by
      simp only [dropped, hnone]
    rw [hdropped, if_neg List.not_mem_nil]
    dsimp only [onAttachedToTarget]
    refine held_update rfl (fun target => ?_) targetId
    exact Target.backlog_of_eq rfl rfl
  | targetDetachedFromTarget detached =>
    have hdropped : h.dropped (.event env ⟨.targetDetachedFromTarget detached, sessionId⟩) = [] := by
      simp only [dropped, hnone]
    rw [hdropped, if_neg List.not_mem_nil]
    simp only [onDetachedFromTarget]
    split
    · refine held_update rfl (fun target => ?_) targetId
      exact Target.backlog_of_eq rfl rfl
    · rfl
  | _ =>
    rw [if_neg]
    simp only [dropped, hnone, List.not_mem_nil, not_false_eq_true]

theorem held_onEvent (h : Handler) (env : Env) (event : CdpEventMessage) (targetId : TargetId) :
    (h.onEvent env event).held f g targetId =
      if targetId ∈ h.dropped (.event env event) then [] else h.held f g targetId := by
  cases htarget : h.eventTarget event with
  | none => exact held_onEvent_of_none hf h env event htarget targetId
  | some found =>
    obtain ⟨owner, target⟩ := found
    have hdropped : h.dropped (.event env event) = [] := by simp only [dropped, htarget]
    rw [hdropped, if_neg List.not_mem_nil]
    simp only [onEvent, htarget]
    rw [held_set rfl]
    split
    · rename_i hsame
      rw [Target.backlog_onEvent hf.drains, held, hsame, eventTarget_get htarget]
    · rfl

theorem held_evict (h : Handler) (now : Instant) (targetId : TargetId) :
    (h.evict now).held f g targetId = h.held f g targetId := by
  have hswept : (h.evict now).held f g targetId =
      (h.evictTimedOutCommands now).held f g targetId := by
    refine @held_mapValues _ f g _ _ (fun t => { t with
      networkManager := t.networkManager.evictStaleEntries now
      frameManager := t.frameManager.evictStaleContextIds }) rfl (fun target => ?_) targetId
    exact Target.backlog_of_eq rfl (hf.frames target.frameManager .evictStaleContextIds rfl)
  rw [hswept, held_of_targets_eq (evictTimedOutCommands_targets h now)]

omit hf in
theorem held_onBrowserMessage (h : Handler) (accepted : Bool) (msg : HandlerMessage) (now : Instant)
    (targetId : TargetId) :
    (h.onBrowserMessage accepted msg now).held f g targetId = h.held f g targetId := by
  have hpage : ∀ target : Target, target.createPage.backlog f g = target.backlog f g :=
    Target.backlog_getOrCreatePage
  cases msg with
  | createPage params tx =>
    simp only [onBrowserMessage]
    split
    · exact held_of_targets_eq (createPage_targets _ _ _ _ _) targetId
    · exact held_of_targets_eq (createPage_targets _ _ _ _ _) targetId
  | fetchTargets tx => exact held_of_targets_eq (submit_targets h _ _ _ _) targetId
  | command cmd => exact held_of_targets_eq (submit_targets h _ _ _ _) targetId
  | closeBrowser tx => exact held_of_targets_eq (submit_targets h _ _ _ _) targetId
  | getPages tx =>
    refine @held_mapValues _ f g _ _
      (fun target => if target.isPage then target.createPage else target) rfl
      (fun target => ?_) targetId
    split
    · exact hpage target
    · rfl
  | getPage asked tx => exact held_update rfl hpage targetId
  | insertContext ctx => rfl
  | disposeContext ctx => rfl
  | addEventListener method => rfl

theorem backlog_drainPage (target : Target) :
    (drainPage target).backlog f g = target.backlog f g := by
  unfold drainPage
  split
  · rename_i handle _
    rw [Run.foldl_unchanged (Target.backlog_onPageMessage hf)]
    exact Target.backlog_of_eq rfl rfl
  · rfl

/-- An input that polls no target leaves what the targets have to report alone, but for the targets that it drops. -/
theorem held_step (driver : Driver) (h : Handler) {input : HandlerInput}
    (hinput : ∀ accepted targetId env now, input ≠ .turn accepted targetId env now)
    (targetId : TargetId) :
    (h.step driver input).held f g targetId =
      if targetId ∈ h.dropped input then [] else h.held f g targetId := by
  cases input with
  | browserMessage accepted msg now =>
    exact (held_onBrowserMessage h _ msg now targetId).trans (if_neg List.not_mem_nil).symm
  | pageMessage asked msg =>
    rw [show h.dropped (.pageMessage asked msg) = [] from rfl, if_neg List.not_mem_nil]
    simp only [step]
    refine held_update rfl (fun target => ?_) targetId
    exact Target.backlog_of_eq rfl rfl
  | drainPage asked =>
    rw [show h.dropped (.drainPage asked) = [] from rfl, if_neg List.not_mem_nil]
    cases driver with
    | stream => rfl
    | run => exact held_update rfl (backlog_drainPage hf) targetId
  | turn accepted polled env now => exact absurd rfl (hinput accepted polled env now)
  | blockExhausted =>
    rw [show h.dropped .blockExhausted = [] from rfl, if_neg List.not_mem_nil]
    simp only [step, blockExhausted]
    split
    · refine @held_mapValues _ f g _ _ (fun target => { target with
        networkManager := target.networkManager.setBlockAll true }) rfl (fun target => ?_) targetId
      exact Target.backlog_of_eq rfl rfl
    · rfl
  | response env resp => exact held_onResponse hf h env resp targetId
  | event env event => exact held_onEvent hf h env event targetId
  | evict now => exact (held_evict hf h now targetId).trans (if_neg List.not_mem_nil).symm

end Inputs

/-! ### A turn -/

/-- The target after the handler has dealt with its event. A navigation is given back to it, and everything else leaves it alone. -/
def afterEvent (h : Handler) (target : Target) : Option TargetEvent → Target
  | some (.command msg) =>
    if msg.isNavigation then
      target.goto ⟨⟨h.nextNavigationId⟩, msg.split.1, h.config.requestTimeout⟩
    else target
  | _ => target

theorem afterEvent_of_plain (h : Handler) (target : Target) {msg : CommandMessage}
    (hplain : msg.isNavigation = false) : h.afterEvent target (some (.command msg)) = target := by
  simp only [afterEvent, hplain, Bool.false_eq_true, if_false]

theorem afterEvent_of_navigation (h : Handler) (target : Target) {msg : CommandMessage}
    (hnavigation : msg.isNavigation = true) :
    h.afterEvent target (some (.command msg)) =
      target.goto ⟨⟨h.nextNavigationId⟩, msg.split.1, h.config.requestTimeout⟩ := by
  simp only [afterEvent, hnavigation, if_true]

theorem onNavigation_targets (h : Handler) (driver : Driver) (accepted : Bool) (target : Target)
    (msg : CommandMessage) (now : Instant) :
    (h.onNavigation driver accepted target msg now).1.targets = h.targets := by
  obtain ⟨_, _, _, _, _, _, heq⟩ := h.onNavigation_same driver accepted target msg now
  rw [heq]

theorem onPageCommand_targets (h : Handler) (driver : Driver) (accepted : Bool) (target : Target)
    (msg : CommandMessage) (now : Instant) :
    (h.onPageCommand driver accepted target msg now).targets = h.targets := by
  cases driver with
  | stream => exact submit_targets h accepted _ _ now
  | run => exact submit_targets h accepted _ _ now

theorem onTargetEvent_targets (h : Handler) (driver : Driver) (accepted : Bool) (target : Target)
    (event : TargetEvent) (now : Instant) :
    (h.onTargetEvent driver accepted target event now).1.targets = h.targets := by
  cases event with
  | request req => exact submit_targets h accepted _ _ now
  | navigationRequest id req => exact submit_targets h accepted _ _ now
  | navigationResult res => exact onNavigationLifecycleCompleted_targets h res
  | command msg =>
    simp only [onTargetEvent]
    split
    · exact onNavigation_targets h driver accepted target msg now
    · exact onPageCommand_targets h driver accepted target msg now
  | bytesConsumed bytes =>
    simp only [onTargetEvent]
    split
    · rfl
    · rfl

theorem onTargetEvent_target (h : Handler) (driver : Driver) (accepted : Bool) (target : Target)
    (event : TargetEvent) (now : Instant) :
    (h.onTargetEvent driver accepted target event now).2 = h.afterEvent target (some event) := by
  cases event with
  | command msg =>
    simp only [onTargetEvent, afterEvent]
    split
    · rfl
    · rfl
  | bytesConsumed bytes =>
    simp only [onTargetEvent, afterEvent]
    split
    · rfl
    · rfl
  | _ => rfl

theorem turn_of_none {h : Handler} {targetId : TargetId} (htarget : h.targets.get targetId = none)
    (driver : Driver) (accepted : Bool) (env : Env) (now : Instant) :
    h.turn driver accepted targetId env now = h := by
  simp only [turn, htarget]

/-- A turn whose target has nothing to tell. -/
theorem turn_of_idle {h : Handler} {targetId : TargetId} {target : Target}
    (htarget : h.targets.get targetId = some target) {driver : Driver} (accepted : Bool) {env : Env}
    {now : Instant} (hevent : (pollTarget driver target env now).event = none) :
    h.turn driver accepted targetId env now =
      { h with targets := h.targets.set targetId (pollTarget driver target env now).target } := by
  simp only [turn, htarget, hevent]

theorem turn_of_event {h : Handler} {targetId : TargetId} {target : Target}
    (htarget : h.targets.get targetId = some target) {driver : Driver} (accepted : Bool) {env : Env}
    {now : Instant} {event : TargetEvent}
    (hevent : (pollTarget driver target env now).event = some event) :
    h.turn driver accepted targetId env now =
      { (h.onTargetEvent driver (driver.accepts accepted) (pollTarget driver target env now).target
          event now).1 with
        targets := h.targets.set targetId
          (h.afterEvent (pollTarget driver target env now).target (some event)) } := by
  simp only [turn, htarget, hevent, onTargetEvent_targets, onTargetEvent_target]

theorem turn_targets {h : Handler} {targetId : TargetId} {target : Target}
    (htarget : h.targets.get targetId = some target) (driver : Driver) (accepted : Bool) (env : Env)
    (now : Instant) :
    (h.turn driver accepted targetId env now).targets = h.targets.set targetId
      (h.afterEvent (pollTarget driver target env now).target
        (pollTarget driver target env now).event) := by
  cases hevent : (pollTarget driver target env now).event with
  | none => rw [turn_of_idle htarget accepted hevent]; rfl
  | some event => rw [turn_of_event htarget accepted hevent]

/-- The polled target gives up what its event reports. -/
theorem held_polled (hf : Target.Reports f g) {h : Handler} {targetId : TargetId} {target : Target}
    (htarget : h.targets.get targetId = some target) (driver : Driver) (env : Env) (now : Instant) :
    h.held f g targetId = ((pollTarget driver target env now).event.bind f).toList ++
      (pollTarget driver target env now).target.backlog f g := by
  rw [held, htarget]
  cases driver with
  | stream => exact Target.backlog_poll hf target env now
  | run => exact Target.backlog_advance hf.drains target env now

/-- Nothing changes where the event reports nothing of the kind and nothing is given back to the target. -/
theorem held_turn_of_kept (hf : Target.Reports f g) {h : Handler} {targetId : TargetId}
    {target : Target} (htarget : h.targets.get targetId = some target) (driver : Driver)
    (accepted : Bool) (env : Env) (now : Instant)
    (hnone : (pollTarget driver target env now).event.bind f = none)
    (hkept : h.afterEvent (pollTarget driver target env now).target
      (pollTarget driver target env now).event = (pollTarget driver target env now).target)
    (t : TargetId) : (h.turn driver accepted targetId env now).held f g t = h.held f g t := by
  rw [held_set (turn_targets htarget driver accepted env now), hkept]
  split
  · rename_i hsame
    rw [hsame, held_polled hf htarget driver env now, hnone]
    rfl
  · rfl

end Handler

end SpiderChrome
