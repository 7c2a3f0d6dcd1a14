import SpiderChrome.Handler.Targets

/-!
# What an input does to one target

A target that a handler has is put in place afresh, or removed, or takes what the input delivers to it, which is one thing at most. `get_step` says which. What is proved about a target goes from here to every handler: it is enough to look at what can be delivered.
-/

namespace SpiderChrome

/-- What a handler does to a target. -/
inductive TargetInput where
  | event (env : Env) (event : CdpEventMessage)
  | response (env : Env) (method : MethodId) (resp : Response)
  | attached (session : SessionId)
  | detached
  | initiated (tx : Sender)
  | message (msg : TargetMessage)
  | drained
  | paged (everyKind : Bool)
  | polled (driver : Driver) (env : Env) (now : Instant) (id : NavigationId) (timeout : Duration)
  | blocked
  | evicted (now : Instant)

/-- What a target that was polled becomes when its event is a navigation of its page. -/
def Target.navigated (polled : Target.Polled) (id : NavigationId) (timeout : Duration) : Target :=
  match polled.event with
  | some (.command msg) =>
    if msg.isNavigation then polled.target.goto ⟨id, msg.split.1, timeout⟩ else polled.target
  | _ => polled.target

def Target.take (t : Target) : TargetInput → Target
  | .event env event => t.onEvent env event
  | .response env method resp =>
    (maybeStoreAttachSessionId env.decoders t method resp).onResponse env resp method
  | .attached session => t.setSessionId session
  | .detached => { t with sessionId := none }
  | .initiated tx => t.setInitiator tx
  | .message msg => t.receive msg
  | .drained => Handler.drainPage t
  | .paged everyKind => if everyKind || t.isPage then t.createPage else t
  | .polled driver env now id timeout =>
    Target.navigated (Handler.pollTarget driver t env now) id timeout
  | .blocked => { t with networkManager := t.networkManager.setBlockAll true }
  | .evicted now =>
    { t with
      networkManager := t.networkManager.evictStaleEntries now
      frameManager := t.frameManager.evictStaleContextIds }

namespace Handler

/-- The targets that an input puts in place afresh, in order. -/
def announced (h : Handler) : HandlerInput → List TargetInfo
  | .response env resp =>
    match h.pendingCommands.get resp.id with
    | some (.getTargets _, _, _) =>
      match toCommandResponse env.decoders.getTargets resp with
      | .ok targetInfos => targetInfos.filter h.admits
      | .error _ => []
    | _ => []
  | .event _ event =>
    match h.eventTarget event, event.params with
    | none, .targetTargetCreated targetInfo => [targetInfo].filter h.admits
    | _, _ => []
  | _ => []

/-- The target that an input removes. -/
def removed (h : Handler) : HandlerInput → Option TargetId
  | .event _ event =>
    match h.eventTarget event, event.params with
    | none, .targetTargetDestroyed targetId => some targetId
    | none, .targetTargetCrashed ev => some ev.targetId
    | _, _ => none
  | _ => none

/-- The target that is put in place for an announcement. -/
def fresh (h : Handler) (targetInfo : TargetInfo) : Target :=
  .new targetInfo h.config.targetConfig (match targetInfo.browserContextId with
    | some contextId => BrowserContext.mk (some contextId)
    | none => h.defaultBrowserContext)

/-- What an input delivers to a target. -/
def delivered (h : Handler) (driver : Driver) (targetId : TargetId) :
    HandlerInput → Option TargetInput
  | .browserMessage _ (.getPages _) _ => some (.paged false)
  | .browserMessage _ (.getPage asked _) _ => if targetId = asked then some (.paged true) else none
  | .browserMessage _ _ _ => none
  | .pageMessage asked msg => if targetId = asked then some (.message msg) else none
  | .drainPage asked => if targetId = asked ∧ driver = .run then some .drained else none
  | .turn _ polled env now =>
    if targetId = polled then
      some (.polled driver env now ⟨h.nextNavigationId⟩ h.config.requestTimeout)
    else none
  | .blockExhausted => if h.budgetExhausted then some .blocked else none
  | .response env resp =>
    match h.pendingCommands.get resp.id with
    | some (.createTarget tx, _, _) =>
      match toCommandResponse env.decoders.createTarget resp with
      | .ok created => if targetId = created then some (.initiated tx) else none
      | .error _ => none
    | some (.internalCommand owner, method, _) =>
      if targetId = owner then some (.response env method resp) else none
    | _ => none
  | .event env event =>
    match h.eventTarget event with
    | some (owner, _) => if targetId = owner then some (.event env event) else none
    | none =>
      match event.params with
      | .targetAttachedToTarget ev =>
        if targetId = ev.targetInfo.targetId then some (.attached ev.sessionId) else none
      | .targetDetachedFromTarget sessionId =>
        if (h.sessions.get sessionId).map Session.targetId = some targetId then some .detached
        else none
      | _ => none
  | .evict now => some (.evicted now)

/-- What is in the place of a target after an input. -/
def placed (h : Handler) (driver : Driver) (input : HandlerInput) (targetId : TargetId) :
    Option Target :=
  match ((h.announced input).filter fun info => info.targetId = targetId).getLast? with
  | some targetInfo => some (h.fresh targetInfo)
  | none =>
    if h.removed input = some targetId then none
    else (h.targets.get targetId).map fun t => (h.delivered driver targetId input).elim t t.take

/-! ### One kind of input at a time -/

variable {h h' : Handler} {driver : Driver} {input : HandlerInput} {targetId : TargetId}

theorem placed_of_none (hnone : ∀ info ∈ h.announced input, info.targetId ≠ targetId) :
    h.placed driver input targetId =
      if h.removed input = some targetId then none
      else (h.targets.get targetId).map fun t =>
        (h.delivered driver targetId input).elim t t.take := by
  have hfilter : ((h.announced input).filter fun info => info.targetId = targetId) = [] := by
    rw [List.filter_eq_nil_iff]
    intro info hinfo
    simpa using hnone info hinfo
  rw [placed, hfilter]
  rfl

/-- Most inputs announce and remove nothing. -/
theorem placed_of_delivered {delivered : Option TargetInput} (hannounced : h.announced input = [])
    (hremoved : h.removed input = none) (hdelivered : h.delivered driver targetId input = delivered) :
    h.placed driver input targetId =
      (h.targets.get targetId).map fun t => delivered.elim t t.take := by
  rw [placed, hannounced, hremoved, hdelivered]
  rfl

theorem placed_of_untouched (hannounced : h.announced input = []) (hremoved : h.removed input = none)
    (hdelivered : h.delivered driver targetId input = none) :
    h.placed driver input targetId = h.targets.get targetId := by
  rw [placed_of_delivered hannounced hremoved hdelivered]
  exact Option.map_id' (x := h.targets.get targetId)

theorem get_mapValues_take (taken : TargetInput)
    (heq : h'.targets = h.targets.mapValues fun t => t.take taken) (targetId : TargetId) :
    h'.targets.get targetId = (h.targets.get targetId).map fun t => t.take taken := by
  rw [heq, Table.get_mapValues]

theorem get_update_take {changed : TargetId} (taken : TargetInput)
    (heq : h'.targets = h.targets.update changed fun t => t.take taken) (targetId : TargetId) :
    h'.targets.get targetId = (h.targets.get targetId).map fun t =>
      (if targetId = changed then some taken else none).elim t t.take := by
  rw [heq, Table.get_update]
  split
  · rfl
  · exact (Option.map_id' (x := h.targets.get targetId)).symm

theorem get_set_take {changed : TargetId} {target : Target} (taken : TargetInput)
    (htarget : h.targets.get changed = some target)
    (heq : h'.targets = h.targets.set changed (target.take taken)) (targetId : TargetId) :
    h'.targets.get targetId = (h.targets.get targetId).map fun t =>
      (if targetId = changed then some taken else none).elim t t.take := by
  refine get_update_take taken ?_ targetId
  rw [heq, Table.update_of_get htarget]

theorem onTargetCreated_admits (h : Handler) (targetInfo : TargetInfo) :
    (h.onTargetCreated targetInfo).admits = h.admits ∧
      (h.onTargetCreated targetInfo).fresh = h.fresh := by
  unfold onTargetCreated
  split
  · exact ⟨rfl, rfl⟩
  · exact ⟨rfl, rfl⟩

theorem get_onTargetCreated (h : Handler) (targetInfo : TargetInfo) (targetId : TargetId) :
    (h.onTargetCreated targetInfo).targets.get targetId =
      if h.admits targetInfo = true ∧ targetInfo.targetId = targetId then some (h.fresh targetInfo)
      else h.targets.get targetId := by
  unfold onTargetCreated
  cases h.admits targetInfo with
  | false => simp
  | true =>
    simp only [Bool.not_true, Bool.false_eq_true, if_false, true_and, Table.get_set,
      @eq_comm _ targetId]
    rfl

theorem get_foldl_onTargetCreated (h : Handler) (targetInfos : List TargetInfo)
    (targetId : TargetId) :
    (targetInfos.foldl onTargetCreated h).targets.get targetId =
      match ((targetInfos.filter h.admits).filter fun info => info.targetId = targetId).getLast? with
      | some targetInfo => some (h.fresh targetInfo)
      | none => h.targets.get targetId := by
  induction targetInfos generalizing h with
  | nil => rfl
  | cons targetInfo rest ih =>
    obtain ⟨hadmits, hfresh⟩ := h.onTargetCreated_admits targetInfo
    rw [List.foldl_cons, ih, hadmits, hfresh, get_onTargetCreated]
    cases hinfo : h.admits targetInfo with
    | false => rw [List.filter_cons_of_neg (by rw [hinfo]; exact Bool.false_ne_true)]; simp
    | true =>
      rw [List.filter_cons_of_pos hinfo]
      by_cases hsame : targetInfo.targetId = targetId
      · rw [List.filter_cons_of_pos (by simpa using hsame), List.getLast?_cons]
        cases ((rest.filter h.admits).filter fun info => info.targetId = targetId).getLast? with
        | none => simp [hsame]
        | some last => rfl
      · rw [List.filter_cons_of_neg (by simpa using hsame)]
        simp [hsame]

/-! ### The inputs -/

theorem get_onBrowserMessage (h : Handler) (driver : Driver) (accepted : Bool) (msg : HandlerMessage)
    (now : Instant) (targetId : TargetId) :
    (h.onBrowserMessage (driver.accepts accepted) msg now).targets.get targetId =
      h.placed driver (.browserMessage accepted msg now) targetId := by
  cases msg with
  | getPages tx =>
    rw [placed_of_delivered rfl rfl rfl]
    refine get_mapValues_take (.paged false) ?_ targetId
    simp only [Target.take, Bool.false_or]
    rfl
  | getPage asked tx =>
    rw [placed_of_delivered rfl rfl rfl]
    exact get_update_take (.paged true) rfl targetId
  | createPage params tx =>
    rw [placed_of_untouched rfl rfl rfl]
    simp only [onBrowserMessage]
    split
    · rw [createPage_targets]
    · rw [createPage_targets]
  | command cmd =>
    rw [placed_of_untouched rfl rfl rfl]
    exact congrArg (·.get targetId) (submit_targets h _ _ _ _)
  | fetchTargets tx =>
    rw [placed_of_untouched rfl rfl rfl]
    exact congrArg (·.get targetId) (submit_targets h _ _ _ _)
  | closeBrowser tx =>
    rw [placed_of_untouched rfl rfl rfl]
    exact congrArg (·.get targetId) (submit_targets h _ _ _ _)
  | insertContext ctx =>
    rw [placed_of_untouched rfl rfl rfl]
    rfl
  | disposeContext ctx =>
    rw [placed_of_untouched rfl rfl rfl]
    rfl
  | addEventListener method =>
    rw [placed_of_untouched rfl rfl rfl]
    rfl

theorem get_turn (h : Handler) (driver : Driver) (accepted : Bool) (polled : TargetId) (env : Env)
    (now : Instant) (targetId : TargetId) :
    (h.turn driver accepted polled env now).targets.get targetId =
      h.placed driver (.turn accepted polled env now) targetId := by
  rw [placed_of_delivered rfl rfl rfl]
  cases htarget : h.targets.get polled with
  | none =>
    rw [turn_of_none htarget]
    simp only [delivered]
    split
    · rename_i hsame
      rw [hsame, htarget, Option.map_none]
    · exact (Option.map_id' (x := h.targets.get targetId)).symm
  | some target =>
    refine get_set_take (.polled driver env now ⟨h.nextNavigationId⟩ h.config.requestTimeout) htarget ?_
      targetId
    rw [turn_targets htarget]
    rfl

theorem get_onResponse (h : Handler) (driver : Driver) (env : Env) (resp : Response)
    (targetId : TargetId) :
    (h.onResponse env resp).targets.get targetId =
      h.placed driver (.response env resp) targetId := by
  cases hpending : h.pendingCommands.get resp.id with
  | none =>
    rw [placed_of_untouched (by simp only [announced, hpending]) rfl (by simp only [delivered, hpending]),
      onResponse, hpending]
  | some pending =>
    obtain ⟨request, method, sentAt⟩ := pending
    simp only [onResponse, hpending]
    cases request with
    | createTarget tx =>
      have hannounced : h.announced (.response env resp) = [] := by simp only [announced, hpending]
      cases hdecode : toCommandResponse env.decoders.createTarget resp with
      | error err =>
        rw [placed_of_untouched hannounced rfl (by simp only [delivered, hpending, hdecode])]
        simp only [resolve, hdecode]
        rfl
      | ok created =>
        have hdelivered : h.delivered driver targetId (.response env resp) =
            if targetId = created then some (.initiated tx) else none := by
          simp only [delivered, hpending, hdecode]
        rw [placed_of_delivered hannounced rfl hdelivered]
        simp only [resolve, hdecode]
        cases htarget : h.targets.get created with
        | some target => exact get_set_take (.initiated tx) htarget rfl targetId
        | none =>
          refine get_update_take (.initiated tx) ?_ targetId
          rw [Table.update_of_get_eq_none htarget]
          rfl
    | getTargets tx =>
      cases hdecode : toCommandResponse env.decoders.getTargets resp with
      | error err =>
        rw [placed_of_untouched (by simp only [announced, hpending, hdecode]) rfl
          (by simp only [delivered, hpending])]
        simp only [resolve, hdecode]
        rfl
      | ok targetInfos =>
        have hannounced : h.announced (.response env resp) = targetInfos.filter h.admits := by
          simp only [announced, hpending, hdecode]
        have hdelivered : h.delivered driver targetId (.response env resp) = none := by
          simp only [delivered, hpending]
        rw [placed, hannounced, hdelivered]
        simp only [resolve, hdecode]
        refine (get_foldl_onTargetCreated _ targetInfos targetId).trans ?_
        show (match ((targetInfos.filter h.admits).filter fun info => info.targetId = targetId).getLast? with
          | some targetInfo => some (h.fresh targetInfo)
          | none => h.targets.get targetId) = _
        cases ((targetInfos.filter h.admits).filter fun info => info.targetId = targetId).getLast? with
        | some last => rfl
        | none => exact (Option.map_id' (x := h.targets.get targetId)).symm
    | navigate id =>
      rw [placed_of_untouched (by simp only [announced, hpending]) rfl (by simp only [delivered, hpending])]
      exact congrArg (·.get targetId) (onNavigationResponse_targets _ id resp)
    | externalCommand tx boundTo =>
      rw [placed_of_untouched (by simp only [announced, hpending]) rfl (by simp only [delivered, hpending])]
      rfl
    | internalCommand owner =>
      have hdelivered : h.delivered driver targetId (.response env resp) =
          if targetId = owner then some (.response env method resp) else none := by
        simp only [delivered, hpending]
      rw [placed_of_delivered (by simp only [announced, hpending]) rfl hdelivered]
      exact get_update_take (.response env method resp) rfl targetId
    | closeBrowser tx =>
      rw [placed_of_untouched (by simp only [announced, hpending]) rfl (by simp only [delivered, hpending])]
      rfl

theorem get_onTargetCrashed (h : Handler) (debugTargetId : TargetId → String)
    (event : EventTargetCrashed) (targetId : TargetId) :
    (h.onTargetCrashed debugTargetId event).targets.get targetId =
      if targetId = event.targetId then none else h.targets.get targetId := by
  simp only [onTargetCrashed]
  rw [removeTarget_targets, Run.foldl_unchanged (cancel_targets debugTargetId event), Table.get_remove]

/-- The events that the handler takes itself. -/
theorem get_onEvent_of_none (h : Handler) (driver : Driver) (env : Env) (event : CdpEventMessage)
    (hfound : h.eventTarget event = none) (targetId : TargetId) :
    (h.onEvent env event).targets.get targetId = h.placed driver (.event env event) targetId := by
  obtain ⟨params, sessionId⟩ := event
  simp only [onEvent, hfound]
  cases params with
  | targetTargetCreated targetInfo =>
    have hannounced : h.announced (.event env ⟨.targetTargetCreated targetInfo, sessionId⟩) =
        [targetInfo].filter h.admits := by simp only [announced, hfound]
    have hremoved : h.removed (.event env ⟨.targetTargetCreated targetInfo, sessionId⟩) = none := by
      simp only [removed, hfound]
    have hdelivered : h.delivered driver targetId
        (.event env ⟨.targetTargetCreated targetInfo, sessionId⟩) = none := by
      simp only [delivered, hfound]
    have hget := get_foldl_onTargetCreated h [targetInfo] targetId
    rw [placed, hannounced, hremoved, hdelivered]
    refine hget.trans ?_
    cases (([targetInfo].filter h.admits).filter fun info => info.targetId = targetId).getLast? with
    | some last => rfl
    | none => exact (Option.map_id' (x := h.targets.get targetId)).symm
  | targetTargetDestroyed gone =>
    have hremoved : h.removed (.event env ⟨.targetTargetDestroyed gone, sessionId⟩) = some gone := by
      simp only [removed, hfound]
    have hdelivered : h.delivered driver targetId
        (.event env ⟨.targetTargetDestroyed gone, sessionId⟩) = none := by
      simp only [delivered, hfound]
    rw [placed_of_none (by simp only [announced, hfound]; exact fun _ => (absurd · List.not_mem_nil)),
      hremoved, hdelivered]
    dsimp only [onTargetDestroyed]
    rw [removeTarget_targets, Table.get_remove]
    simp only [Option.some.injEq, @eq_comm _ gone]
    split
    · rfl
    · exact (Option.map_id' (x := h.targets.get targetId)).symm
  | targetTargetCrashed ev =>
    have hremoved : h.removed (.event env ⟨.targetTargetCrashed ev, sessionId⟩) = some ev.targetId := by
      simp only [removed, hfound]
    have hdelivered : h.delivered driver targetId
        (.event env ⟨.targetTargetCrashed ev, sessionId⟩) = none := by
      simp only [delivered, hfound]
    rw [placed_of_none (by simp only [announced, hfound]; exact fun _ => (absurd · List.not_mem_nil)),
      hremoved, hdelivered]
    dsimp only
    rw [get_onTargetCrashed]
    simp only [Option.some.injEq, @eq_comm _ ev.targetId]
    split
    · rfl
    · exact (Option.map_id' (x := h.targets.get targetId)).symm
  | targetAttachedToTarget ev =>
    have hdelivered : h.delivered driver targetId
        (.event env ⟨.targetAttachedToTarget ev, sessionId⟩) =
          if targetId = ev.targetInfo.targetId then some (.attached ev.sessionId) else none := by
      simp only [delivered, hfound]
    have htargets : (h.onAttachedToTarget ev).targets =
        h.targets.update ev.targetInfo.targetId fun t => t.take (.attached ev.sessionId) := rfl
    rw [placed_of_delivered (by simp only [announced, hfound]) (by simp only [removed, hfound]) hdelivered]
    exact get_update_take _ htargets targetId
  | targetDetachedFromTarget detached =>
    have hdelivered : h.delivered driver targetId
        (.event env ⟨.targetDetachedFromTarget detached, sessionId⟩) =
          if (h.sessions.get detached).map Session.targetId = some targetId then some .detached
          else none := by
      simp only [delivered, hfound]
    rw [placed_of_delivered (by simp only [announced, hfound]) (by simp only [removed, hfound]) hdelivered]
    cases hsession : h.sessions.get detached with
    | some session =>
      have htargets : (h.onDetachedFromTarget detached).targets =
          h.targets.update session.targetId fun t => t.take .detached := by
        simp only [onDetachedFromTarget, hsession]
        rfl
      rw [Option.map_some]
      simp only [Option.some.injEq, @eq_comm _ session.targetId]
      exact get_update_take _ htargets targetId
    | none =>
      dsimp only [onDetachedFromTarget]
      rw [hsession, Option.map_none, if_neg (by simp)]
      exact (Option.map_id' (x := h.targets.get targetId)).symm
  | _ =>
    rw [placed_of_untouched (by simp only [announced, hfound]) (by simp only [removed, hfound])
      (by simp only [delivered, hfound])]

theorem get_onEvent (h : Handler) (driver : Driver) (env : Env) (event : CdpEventMessage)
    (targetId : TargetId) :
    (h.onEvent env event).targets.get targetId = h.placed driver (.event env event) targetId := by
  cases hfound : h.eventTarget event with
  | none => exact h.get_onEvent_of_none driver env event hfound targetId
  | some found =>
    obtain ⟨owner, target⟩ := found
    have hdelivered : h.delivered driver targetId (.event env event) =
        if targetId = owner then some (.event env event) else none := by
      simp only [delivered, hfound]
    have htargets : (h.onEvent env event).targets =
        h.targets.set owner (target.take (.event env event)) := by
      simp only [onEvent, hfound]
      rfl
    rw [placed_of_delivered (by simp only [announced, hfound]) (by simp only [removed, hfound]) hdelivered]
    exact get_set_take _ (eventTarget_get hfound) htargets targetId

/-- An input puts in the place of every target what `placed` says. -/
theorem get_step (h : Handler) (driver : Driver) (input : HandlerInput) (targetId : TargetId) :
    (h.step driver input).targets.get targetId = h.placed driver input targetId := by
  cases input with
  | browserMessage accepted msg now => exact h.get_onBrowserMessage driver accepted msg now targetId
  | pageMessage asked msg =>
    rw [placed_of_delivered rfl rfl rfl]
    exact get_update_take (.message msg) rfl targetId
  | drainPage asked =>
    cases driver with
    | stream =>
      have hdelivered : h.delivered .stream targetId (.drainPage asked) = none := by
        simp only [delivered, reduceCtorEq, and_false, if_false]
      rw [placed_of_untouched rfl rfl hdelivered]
      rfl
    | run =>
      have hdelivered : h.delivered .run targetId (.drainPage asked) =
          if targetId = asked then some .drained else none := by
        simp only [delivered, and_true]
      rw [placed_of_delivered rfl rfl hdelivered]
      exact get_update_take .drained rfl targetId
  | turn accepted polled env now => exact h.get_turn driver accepted polled env now targetId
  | blockExhausted =>
    rw [placed_of_delivered rfl rfl rfl]
    simp only [step, blockExhausted, delivered]
    split
    · exact get_mapValues_take .blocked rfl targetId
    · exact (Option.map_id' (x := h.targets.get targetId)).symm
  | response env resp => exact h.get_onResponse driver env resp targetId
  | event env event => exact h.get_onEvent driver env event targetId
  | evict now =>
    rw [placed_of_delivered rfl rfl rfl]
    have htargets : (h.evict now).targets = h.targets.mapValues fun t => t.take (.evicted now) := by
      simp only [evict, evictTimedOutCommands_targets]
      rfl
    exact get_mapValues_take _ htargets targetId

/-- The targets after an input are those before it, but for what it announces and what it removes. -/
theorem isSome_step (h : Handler) (driver : Driver) (input : HandlerInput) (targetId : TargetId) :
    ((h.step driver input).targets.get targetId).isSome =
      (decide (targetId ∈ (h.announced input).map TargetInfo.targetId) ||
        (decide (h.removed input ≠ some targetId) && (h.targets.get targetId).isSome)) := by
  rw [get_step, placed]
  cases hlast : ((h.announced input).filter fun info => info.targetId = targetId).getLast? with
  | some info =>
    have hmem := List.mem_filter.1 (List.mem_of_getLast? hlast)
    have hannounced : targetId ∈ (h.announced input).map TargetInfo.targetId :=
      List.mem_map.2 ⟨info, hmem.1, by simpa using hmem.2⟩
    simp [hannounced]
  | none =>
    rw [List.getLast?_eq_none_iff, List.filter_eq_nil_iff] at hlast
    have hannounced : targetId ∉ (h.announced input).map TargetInfo.targetId := by
      intro hmem
      obtain ⟨info, hinfo, hsame⟩ := List.mem_map.1 hmem
      exact hlast info hinfo (by simpa using hsame)
    by_cases hremoved : h.removed input = some targetId
    · simp [hannounced, hremoved]
    · simp [hannounced, hremoved]

end Handler

end SpiderChrome
