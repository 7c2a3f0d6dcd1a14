import SpiderChrome.Parallel.System

/-!
# The moves of the parallel handler

`Happens` says what a move comes to, with a rule for each thing that a party can do, and `happens` that every move follows the rules. From it follow the facts that the other modules rest on: a task that has not left its loop is registered with the router, and nobody but a running task is in the middle of something.
-/

namespace SpiderChrome

/-! ### What the router changes -/

namespace Router

variable (r : Router)

/-- A message to the task in a slot, if there is one. -/
def addressed (slot : Option UInt16) (msg : RouterToSession) : List (UInt16 × RouterToSession) :=
  match slot with
  | some slot => if (r.sessions.get slot).isSome then [(slot, msg)] else []
  | none => []

theorem toSlot_eq (slot : Option UInt16) (msg : RouterToSession) :
    r.toSlot slot msg = { r with toSessions := r.toSessions ++ r.addressed slot msg } := by
  unfold toSlot addressed
  cases slot with
  | none => simp
  | some slot =>
    cases hentry : r.sessions.get slot with
    | none => simp [hentry]
    | some entry => simp [hentry, toSession]

/-- Two routers that have the same sessions, slots and routes. -/
structure SameRegistry (r r' : Router) : Prop where
  ids : r'.ids = r.ids
  sessions : r'.sessions = r.sessions
  targetIdToSlot : r'.targetIdToSlot = r.targetIdToSlot
  sessionIdToSlot : r'.sessionIdToSlot = r.sessionIdToSlot
  nextSlot : r'.nextSlot = r.nextSlot
  panicked : r'.panicked = r.panicked
  spawned : r'.spawned = r.spawned

theorem SameRegistry.refl (r : Router) : SameRegistry r r := ⟨rfl, rfl, rfl, rfl, rfl, rfl, rfl⟩

theorem SameRegistry.trans {r r' r'' : Router} (h : SameRegistry r r') (h' : SameRegistry r' r'') :
    SameRegistry r r'' where
  ids := h'.ids.trans h.ids
  sessions := h'.sessions.trans h.sessions
  targetIdToSlot := h'.targetIdToSlot.trans h.targetIdToSlot
  sessionIdToSlot := h'.sessionIdToSlot.trans h.sessionIdToSlot
  nextSlot := h'.nextSlot.trans h.nextSlot
  panicked := h'.panicked.trans h.panicked
  spawned := h'.spawned.trans h.spawned

theorem sameRegistry_toSlot (slot : Option UInt16) (msg : RouterToSession) :
    SameRegistry r (r.toSlot slot msg) := by
  rw [toSlot_eq]
  exact ⟨rfl, rfl, rfl, rfl, rfl, rfl, rfl⟩

theorem sameRegistry_handleRouterResponse (decoders : Decoders) (now : Instant) (callId : CallId)
    (resp : Response) : SameRegistry r (r.handleRouterResponse decoders now callId resp) := by
  simp only [handleRouterResponse]
  split
  · split
    · exact ⟨rfl, rfl, rfl, rfl, rfl, rfl, rfl⟩
    · exact ⟨rfl, rfl, rfl, rfl, rfl, rfl, rfl⟩
    · split
      · split
        · split
          · exact ⟨rfl, rfl, rfl, rfl, rfl, rfl, rfl⟩
          · exact ⟨rfl, rfl, rfl, rfl, rfl, rfl, rfl⟩
        · exact ⟨rfl, rfl, rfl, rfl, rfl, rfl, rfl⟩
      · exact ⟨rfl, rfl, rfl, rfl, rfl, rfl, rfl⟩
  · exact .refl r

/-- A response is not waited for any more. -/
theorem pending_handleRouterResponse (decoders : Decoders) (now : Instant) (callId : CallId)
    (resp : Response) :
    (r.handleRouterResponse decoders now callId resp).pending = r.pending.remove callId := by
  simp only [handleRouterResponse]
  split
  · split
    · rfl
    · rfl
    · split
      · split
        · split
          · rfl
          · rfl
        · rfl
      · rfl
  · rename_i hnone
    exact (Table.remove_of_get_eq_none hnone).symm

/-- A response of the router's own sends an initiator at most. -/
theorem toSessions_handleRouterResponse (decoders : Decoders) (now : Instant) (callId : CallId)
    (resp : Response) :
    ∃ msgs, (r.handleRouterResponse decoders now callId resp).toSessions = r.toSessions ++ msgs ∧
      ∀ entry ∈ msgs, ∃ slot tx, entry = (slot, .setInitiator tx) := by
  have hquiet : ∀ r' : Router, r'.toSessions = r.toSessions →
      ∃ msgs, r'.toSessions = r.toSessions ++ msgs ∧
        ∀ entry ∈ msgs, ∃ slot tx, entry = (slot, RouterToSession.setInitiator tx) :=
    fun r' hsame => ⟨[], hsame.trans (List.append_nil _).symm,
      fun _ hentry => absurd hentry List.not_mem_nil⟩
  simp only [handleRouterResponse]
  split
  · split
    · exact hquiet _ rfl
    · exact hquiet _ rfl
    · rename_i tx _
      split
      · split
        · rename_i slot _
          split
          · exact ⟨[(slot, .setInitiator tx)], rfl, fun entry hentry =>
              ⟨slot, tx, List.mem_singleton.1 hentry⟩⟩
          · exact hquiet _ rfl
        · exact hquiet _ rfl
      · exact hquiet _ rfl
  · exact hquiet _ rfl

theorem sameRegistry_onBrowserMessage {msg : HandlerMessage} (hcall : callOf msg = none) (now : Instant) :
    SameRegistry r (r.onBrowserMessage true msg now) ∧
      (r.onBrowserMessage true msg now).pending = r.pending ∧
      (r.onBrowserMessage true msg now).toSessions = r.toSessions := by
  cases msg with
  | createPage params tx =>
    simp only [callOf] at hcall
    split at hcall
    · cases hcall
    · rename_i hurl
      simp only [onBrowserMessage, createPage, hurl]
      exact ⟨⟨rfl, rfl, rfl, rfl, rfl, rfl, rfl⟩, rfl, rfl⟩
  | command cmd => cases hcall
  | _ => exact ⟨⟨rfl, rfl, rfl, rfl, rfl, rfl, rfl⟩, rfl, rfl⟩

theorem sameRegistry_timeOut (callId : CallId) :
    SameRegistry r (r.timeOut callId) ∧ (r.timeOut callId).pending = r.pending.remove callId ∧
      (r.timeOut callId).toSessions = r.toSessions := by
  simp only [timeOut]
  split
  · split
    · exact ⟨⟨rfl, rfl, rfl, rfl, rfl, rfl, rfl⟩, rfl, rfl⟩
    · exact ⟨⟨rfl, rfl, rfl, rfl, rfl, rfl, rfl⟩, rfl, rfl⟩
    · exact ⟨⟨rfl, rfl, rfl, rfl, rfl, rfl, rfl⟩, rfl, rfl⟩
  · rename_i hnone
    exact ⟨.refl r, (Table.remove_of_get_eq_none hnone).symm, rfl⟩

theorem sameRegistry_timeOutInitiator (targetId : TargetId) :
    SameRegistry r (r.timeOutInitiator targetId) ∧ (r.timeOutInitiator targetId).pending = r.pending ∧
      (r.timeOutInitiator targetId).toSessions = r.toSessions := by
  simp only [timeOutInitiator]
  split
  · exact ⟨⟨rfl, rfl, rfl, rfl, rfl, rfl, rfl⟩, rfl, rfl⟩
  · exact ⟨⟨rfl, rfl, rfl, rfl, rfl, rfl, rfl⟩, rfl, rfl⟩

/-- An eviction takes calls from the table of those that wait, and tells no task. -/
theorem sameRegistry_evictRouterPending (now : Instant) (requestTimeout : Duration) :
    SameRegistry r (r.evictRouterPending now requestTimeout) ∧
      (r.evictRouterPending now requestTimeout).pending.Sub r.pending ∧
      (r.evictRouterPending now requestTimeout).toSessions = r.toSessions := by
  have hcalls := @Run.foldl_rel _ _ timeOut
    (fun r r' => SameRegistry r r' ∧ r'.pending.Sub r.pending ∧ r'.toSessions = r.toSessions)
    (fun r => ⟨.refl r, .refl _, rfl⟩)
    (fun h h' => ⟨h.1.trans h'.1, h'.2.1.trans h.2.1, h'.2.2.trans h.2.2⟩)
    fun r callId => by
      obtain ⟨hsame, hpending, htold⟩ := r.sameRegistry_timeOut callId
      exact ⟨hsame, hpending ▸ r.pending.remove_sub callId, htold⟩
  have hinitiators := @Run.foldl_rel _ _ timeOutInitiator
    (fun r r' => SameRegistry r r' ∧ r'.pending.Sub r.pending ∧ r'.toSessions = r.toSessions)
    (fun r => ⟨.refl r, .refl _, rfl⟩)
    (fun h h' => ⟨h.1.trans h'.1, h'.2.1.trans h.2.1, h'.2.2.trans h.2.2⟩)
    fun r targetId => by
      obtain ⟨hsame, hpending, htold⟩ := r.sameRegistry_timeOutInitiator targetId
      exact ⟨hsame, hpending ▸ .refl _, htold⟩
  simp only [evictRouterPending]
  split
  · exact ⟨.refl r, .refl _, rfl⟩
  · obtain ⟨hsame, hsub, htold⟩ := hcalls r _
    obtain ⟨hsame', hsub', htold'⟩ := hinitiators _ _
    exact ⟨hsame.trans hsame', hsub'.trans hsub, htold'.trans htold⟩

theorem sameRegistry_enter (accepted : Bool) (callId : CallId) (call : RouterCall) (now : Instant) :
    SameRegistry r (r.enter accepted callId call now) := by
  cases accepted with
  | true => exact ⟨rfl, rfl, rfl, rfl, rfl, rfl, rfl⟩
  | false => exact ⟨rfl, rfl, rfl, rfl, rfl, rfl, rfl⟩

/-- An event tells a task something, or announces or attaches a target. -/
theorem onEvent_cases (event : CdpEventMessage) :
    (∃ slot msg, r.onEvent event = r.toSlot slot msg ∧
      (∀ callId resp method, msg ≠ .response callId resp method) ∧ ∀ tx, msg ≠ .setInitiator tx) ∨
      (∃ info, event = ⟨.targetTargetCreated info, none⟩ ∧ r.onEvent event = r.onTargetCreated info) ∨
      (∃ ev, event = ⟨.targetAttachedToTarget ev, none⟩ ∧ r.onEvent event = r.onAttachedToTarget ev) ∨
      r.onEvent event = r := by
  obtain ⟨params, sessionId⟩ := event
  unfold onEvent
  dsimp only
  split
  · exact .inl ⟨_, _, rfl, nofun, nofun⟩
  · split
    · exact .inr (.inl ⟨_, rfl, rfl⟩)
    · exact .inr (.inr (.inl ⟨_, rfl, rfl⟩))
    · exact .inl ⟨_, _, rfl, nofun, nofun⟩
    · exact .inl ⟨_, _, rfl, nofun, nofun⟩
    · exact .inl ⟨_, _, rfl, nofun, nofun⟩
    · exact .inr (.inr (.inr rfl))

/-- The sessions that are attached stay where they are. -/
theorem onAttachedToTarget_same (ev : EventAttachedToTarget) :
    ∃ sessions sessionIdToSlot, r.onAttachedToTarget ev = { r with
        sessions := sessions
        sessionIdToSlot := sessionIdToSlot } ∧
      ∀ slot, (sessions.get slot).map SessionEntry.targetId = r.owner slot := by
  unfold onAttachedToTarget
  split
  · exact ⟨_, _, rfl, r.owner_update_sessionId _ _⟩
  · exact ⟨_, _, rfl, fun _ => rfl⟩

/-- A session that is forgotten is no session any more, and the others are. -/
theorem forget_same (slot : UInt16) :
    ∃ sessions targetIdToSlot sessionIdToSlot, r.forget slot = { r with
        sessions := sessions
        targetIdToSlot := targetIdToSlot
        sessionIdToSlot := sessionIdToSlot } ∧
      ∀ x, sessions.get x = if x = slot then none else r.sessions.get x := by
  unfold forget removeSession
  cases hentry : r.sessions.get slot with
  | some entry => exact ⟨_, _, _, rfl, fun x => Table.get_remove _ _ _⟩
  | none =>
    refine ⟨_, _, _, rfl, fun x => ?_⟩
    by_cases hsame : x = slot
    · rw [if_pos hsame, hsame, hentry]
    · rw [if_neg hsame]

end Router

/-! ### What a task changes -/

namespace SessionTask

variable (task : SessionTask)

theorem onNavigationResponse_same (navId : NavigationId) (resp : Response) :
    ∃ navigations replies, task.onNavigationResponse navId resp = { task with
      navigations := navigations
      replies := replies } := by
  unfold onNavigationResponse
  split
  · dsimp only
    split
    · exact ⟨_, _, rfl⟩
    · exact ⟨_, _, rfl⟩
  · exact ⟨_, _, rfl⟩

theorem onNavigationLifecycleCompleted_same (res : Except NavigationError NavigationOk) :
    ∃ navigations replies, task.onNavigationLifecycleCompleted res = { task with
      navigations := navigations
      replies := replies } := by
  unfold onNavigationLifecycleCompleted
  split
  · split
    · dsimp only
      split
      · exact ⟨_, _, rfl⟩
      · exact ⟨_, _, rfl⟩
    · exact ⟨_, _, rfl⟩
  · split
    · exact ⟨_, _, rfl⟩
    · exact ⟨_, _, rfl⟩

/-- The session id that a response stores, if it does. -/
def storesSessionId (decoders : Decoders) (method : MethodId) (resp : Response) : Option SessionId :=
  if method ≠ "Target.attachToTarget" then none
  else match toCommandResponse decoders.attachToTarget resp with
    | .ok sessionId => some sessionId
    | .error _ => none

theorem storeSessionId_eq (decoders : Decoders) (method : MethodId) (resp : Response) :
    task.storeSessionId decoders method resp =
      match storesSessionId decoders method resp with
      | some sessionId =>
        { task with
          target := task.target.setSessionId sessionId
          sessionIdReported := true
          toRouter :=
            if task.sessionIdReported then task.toRouter
            else task.toRouter ++ [.sessionAttached task.slot sessionId.inner] }
      | none => task := by
  unfold storeSessionId storesSessionId
  by_cases hmethod : method = "Target.attachToTarget"
  · cases hparsed : toCommandResponse decoders.attachToTarget resp with
    | ok sessionId => simp [hmethod]
    | error err => simp [hmethod]
  · simp [hmethod]

/-- A response is no longer waited for, and changes the target only if it answers a call of the target's own. -/
theorem onResponse_same (env : Env) (callId : CallId) (resp : Response) :
    ∃ navigations replies, task.onResponse env callId resp =
      match task.pending.get callId with
      | some (.internal, method, _) =>
        let stored := { task with pending := task.pending.remove callId }.storeSessionId env.decoders method resp
        { stored with target := stored.target.onResponse env resp method }
      | _ => { task with
          pending := task.pending.remove callId
          navigations := navigations
          replies := replies } := by
  unfold onResponse
  cases hpending : task.pending.get callId with
  | none =>
    refine ⟨task.navigations, task.replies, ?_⟩
    rw [Table.remove_of_get_eq_none hpending]
  | some entry =>
    obtain ⟨pending, method, since⟩ := entry
    cases pending with
    | internal => exact ⟨task.navigations, task.replies, rfl⟩
    | external tx => exact ⟨_, _, rfl⟩
    | navigate navId =>
      obtain ⟨navigations, replies, heq⟩ :=
        { task with pending := task.pending.remove callId }.onNavigationResponse_same navId resp
      exact ⟨navigations, replies, heq⟩

theorem timeOut_same (callId : CallId) :
    ∃ navigations replies, task.timeOut callId = { task with
      pending := task.pending.remove callId
      navigations := navigations
      replies := replies } := by
  unfold timeOut
  split
  · rename_i pending _ _ _
    cases pending with
    | internal => exact ⟨_, _, rfl⟩
    | external tx => exact ⟨_, _, rfl⟩
    | navigate navId =>
      dsimp only
      split
      · exact ⟨_, _, rfl⟩
      · exact ⟨_, _, rfl⟩
  · rename_i hnone
    refine ⟨task.navigations, task.replies, ?_⟩
    rw [Table.remove_of_get_eq_none hnone]

/-- A task that leaves its loop waits for nothing any more. -/
theorem cancelInFlight_same : ∃ replies, task.cancelInFlight = { task with
    pending := ∅
    navigations := ∅
    replies := replies } := by
  have hcancel : ∀ (pending : List SessionPending) (task : SessionTask), ∃ navigations replies,
      pending.foldl cancelPending task = { task with
        navigations := navigations
        replies := replies } := by
    intro pending
    induction pending with
    | nil => exact fun task => ⟨_, _, rfl⟩
    | cons entry rest ih =>
      intro task
      have hfirst : ∃ navigations replies, task.cancelPending entry = { task with
          navigations := navigations
          replies := replies } := by
        cases entry with
        | internal => exact ⟨_, _, rfl⟩
        | external tx => exact ⟨_, _, rfl⟩
        | navigate navId =>
          simp only [cancelPending]
          split
          · exact ⟨_, _, rfl⟩
          · exact ⟨_, _, rfl⟩
      obtain ⟨_, _, hfirst⟩ := hfirst
      obtain ⟨navigations, replies, hrest⟩ := ih (task.cancelPending entry)
      rw [hfirst] at hrest
      exact ⟨navigations, replies, by rw [List.foldl_cons, hfirst, hrest]⟩
  obtain ⟨navigations, replies, heq⟩ :=
    hcancel (task.pending.values.map Prod.fst) { task with pending := ∅ }
  unfold cancelInFlight
  rw [heq]
  exact ⟨_, rfl⟩

/-- A task that goes on: it keeps its slot, does not leave its loop, and tells the router of a session at most. -/
structure Continues (task task' : SessionTask) : Prop where
  slot : task'.slot = task.slot
  stopped : task'.stopped = task.stopped
  toRouter : ∃ msgs, task'.toRouter = task.toRouter ++ msgs ∧
    ∀ msg ∈ msgs, ∃ sessionId, msg = .sessionAttached task.slot sessionId

variable {task}

theorem Continues.of_eq {task' : SessionTask} (hslot : task'.slot = task.slot)
    (hstopped : task'.stopped = task.stopped) (htoRouter : task'.toRouter = task.toRouter) :
    Continues task task' :=
  ⟨hslot, hstopped, [], htoRouter.trans (List.append_nil _).symm,
    fun _ hmsg => absurd hmsg List.not_mem_nil⟩

theorem continues_advanced (task : SessionTask) (env : Env) (now : Instant) :
    Continues task (task.advanced env now) :=
  .of_eq rfl rfl rfl

theorem continues_onTargetEvent (task : SessionTask) (accepted : Bool) (callId : CallId) (now : Instant)
    (event : TargetEvent) : Continues task (task.onTargetEvent accepted callId now event) := by
  cases event with
  | request req =>
    cases accepted with
    | true => exact .of_eq rfl rfl rfl
    | false => exact .of_eq rfl rfl rfl
  | command msg =>
    simp only [onTargetEvent]
    split
    · cases accepted with
      | true => exact .of_eq rfl rfl rfl
      | false => exact .of_eq rfl rfl rfl
    · cases accepted with
      | true => exact .of_eq rfl rfl rfl
      | false => exact .of_eq rfl rfl rfl
  | navigationRequest navId req =>
    cases accepted with
    | true => exact .of_eq rfl rfl rfl
    | false => exact .of_eq rfl rfl rfl
  | navigationResult res =>
    obtain ⟨_, _, heq⟩ := task.onNavigationLifecycleCompleted_same res
    simp only [onTargetEvent, heq]
    exact .of_eq rfl rfl rfl
  | bytesConsumed bytes => exact .of_eq rfl rfl rfl

theorem continues_turn (task : SessionTask) (accepted : Bool) (callId : CallId) (env : Env)
    (now : Instant) : Continues task (task.turn accepted callId env now) := by
  rw [turn_eq]
  split
  · rename_i event _
    have hevent := (task.advanced env now).continues_onTargetEvent accepted callId now event
    exact ⟨hevent.slot, hevent.stopped, hevent.toRouter⟩
  · exact task.continues_advanced env now

theorem continues_onResponse (task : SessionTask) (env : Env) (callId : CallId) (resp : Response) :
    Continues task (task.onResponse env callId resp) := by
  obtain ⟨navigations, replies, heq⟩ := task.onResponse_same env callId resp
  rw [heq]
  split
  · simp only [storeSessionId_eq]
    split
    · rename_i sessionId _
      refine ⟨rfl, rfl, ?_⟩
      dsimp only
      split
      · exact ⟨[], (List.append_nil _).symm, fun _ hmsg => absurd hmsg List.not_mem_nil⟩
      · exact ⟨[.sessionAttached task.slot sessionId.inner], rfl, fun msg hmsg =>
          ⟨sessionId.inner, List.mem_singleton.1 hmsg⟩⟩
    · exact .of_eq rfl rfl rfl
  · exact .of_eq rfl rfl rfl

theorem continues_timeOut (task : SessionTask) (callId : CallId) :
    Continues task (task.timeOut callId) := by
  obtain ⟨_, _, heq⟩ := task.timeOut_same callId
  rw [heq]
  exact .of_eq rfl rfl rfl

/-- An input that does not end the task. -/
theorem continues_step (task : SessionTask) {input : SessionInput} (hshutdown : input ≠ .shutdown)
    (hevict : ∀ now, input ≠ .evict now) : Continues task (task.step input) := by
  unfold step
  split
  · exact .of_eq rfl rfl rfl
  · cases input with
    | shutdown => exact absurd rfl hshutdown
    | evict now => exact absurd rfl (hevict now)
    | response env callId resp => exact task.continues_onResponse env callId resp
    | turn accepted callId env now => exact task.continues_turn accepted callId env now
    | drainPage =>
      simp only [drainPage]
      split
      · exact .of_eq rfl rfl rfl
      · exact .of_eq rfl rfl rfl
    | event _ _ | setInitiator _ | pageMessage _ => exact .of_eq rfl rfl rfl

/-- A task that is told to shut down does so and says that it has. -/
theorem step_shutdown (hstopped : task.stopped = false) :
    ∃ replies, task.step .shutdown = { task with
      pending := ∅
      navigations := ∅
      replies := replies
      stopped := true
      toRouter := task.toRouter ++ [.detached task.slot] } := by
  obtain ⟨replies, heq⟩ := task.cancelInFlight_same
  refine ⟨replies, ?_⟩
  simp only [step, hstopped, Bool.false_eq_true, if_false, heq]

end SessionTask

namespace System

variable {s s' : System} {move : Move}

/-! ### Channels -/

theorem live_iff {slot : UInt16} :
    s.live slot = true ↔ ∃ task, s.tasks.get slot = some task ∧ task.stopped = false := by
  unfold live
  cases s.tasks.get slot with
  | none => simp
  | some task => simp

/-- What of the messages gets into an inbox. -/
def delivered (s : System) (msgs : List (UInt16 × RouterToSession)) (slot : UInt16) : List RouterToSession :=
  if s.live slot then (msgs.filter fun entry => entry.1 = slot).map Prod.snd else []

theorem foldl_push (s : System) (msgs : List (UInt16 × RouterToSession)) :
    msgs.foldl push s = { s with inboxes := fun slot => s.inboxes slot ++ s.delivered msgs slot } := by
  induction msgs generalizing s with
  | nil => simp [delivered]
  | cons entry rest ih =>
    rw [List.foldl_cons, ih]
    unfold push
    split
    · rename_i hlive
      refine congrArg (fun inboxes => { s with inboxes := inboxes }) (funext fun slot => ?_)
      show Function.update s.inboxes entry.1 _ slot ++ s.delivered rest slot = _
      by_cases hslot : slot = entry.1
      · subst hslot
        simp [delivered, hlive]
      · simp [delivered, hslot, Ne.symm hslot]
    · rename_i hlive
      refine congrArg (fun inboxes => { s with inboxes := inboxes }) (funext fun slot => ?_)
      by_cases hslot : slot = entry.1
      · subst hslot
        simp [delivered, hlive]
      · simp [delivered, Ne.symm hslot]

/-- The tasks that the router spawns. -/
def spawn (config : HandlerConfig) (tasks : Table UInt16 SessionTask)
    (spawned : List (UInt16 × TargetInfo × BrowserContext)) : Table UInt16 SessionTask :=
  spawned.foldl (fun tasks entry =>
    tasks.set entry.1 (.spawned entry.1 config entry.2.1 entry.2.2)) tasks

theorem afterRouter_eq {r : Router} {msgs : List (UInt16 × RouterToSession)}
    {spawned : List (UInt16 × TargetInfo × BrowserContext)}
    (hmsgs : r.toSessions = s.router.toSessions ++ msgs)
    (hspawned : r.spawned = s.router.spawned ++ spawned) :
    s.afterRouter r =
      let after := { s with router := r, tasks := spawn r.config s.tasks spawned }
      { after with inboxes := fun slot => s.inboxes slot ++ after.delivered msgs slot } := by
  have hnew : r.toSessions.drop s.router.toSessions.length = msgs := by simp [hmsgs]
  have htasks : r.spawned.drop s.router.spawned.length = spawned := by simp [hspawned]
  unfold afterRouter
  rw [hnew, htasks, foldl_push]
  rfl

@[simp] theorem router_afterRouter (s : System) (r : Router) : (s.afterRouter r).router = r := by
  rw [afterRouter, foldl_push]

@[simp] theorem doing_afterRouter (s : System) (r : Router) : (s.afterRouter r).doing = s.doing := by
  rw [afterRouter, foldl_push]

@[simp] theorem taken_afterRouter (s : System) (r : Router) : (s.afterRouter r).taken = s.taken := by
  rw [afterRouter, foldl_push]

@[simp] theorem asked_afterRouter (s : System) (r : Router) : (s.afterRouter r).asked = s.asked := by
  rw [afterRouter, foldl_push]

@[simp] theorem assigned_afterRouter (s : System) (r : Router) : (s.afterRouter r).assigned = s.assigned := by
  rw [afterRouter, foldl_push]

@[simp] theorem lifecycle_afterRouter (s : System) (r : Router) : (s.afterRouter r).lifecycle = s.lifecycle := by
  rw [afterRouter, foldl_push]

@[simp] theorem tasks_afterRouter (s : System) (r : Router) :
    (s.afterRouter r).tasks = spawn r.config s.tasks (r.spawned.drop s.router.spawned.length) := by
  rw [afterRouter, foldl_push]
  rfl

theorem tasks_afterRouter_of_spawned {r : Router} (hspawned : r.spawned = s.router.spawned) :
    (s.afterRouter r).tasks = s.tasks := by
  rw [tasks_afterRouter, hspawned, List.drop_length]
  rfl

/-- What is in the lifecycle channel was there or has been sent. -/
theorem mem_foldl_trySend {lifecycle msgs : List SessionToRouter} {msg : SessionToRouter}
    (h : msg ∈ msgs.foldl trySend lifecycle) : msg ∈ lifecycle ∨ msg ∈ msgs := by
  induction msgs generalizing lifecycle with
  | nil => exact .inl h
  | cons sent rest ih =>
    rcases ih h with h | h
    · unfold trySend at h
      split at h
      · rcases List.mem_append.1 h with h | h
        · exact .inl h
        · exact .inr (List.mem_cons.2 (.inl (List.mem_singleton.1 h)))
      · exact .inl h
    · exact .inr (List.mem_cons_of_mem _ h)

/-! ### What happens -/

/-- What a move comes to. -/
inductive Happens (s : System) : Move → System → Prop where
  | nothing (move : Move) : Happens s move s
  | calls {msg : HandlerMessage} {call : RouterCall} {now : Instant} (hidle : s.idle = true)
      (hcall : Router.callOf msg = some call) :
      Happens s (.browser msg now) ({ s with asked := s.askedAfter msg }.fetch 0 (.call call now))
  | hears {msg : HandlerMessage} {now : Instant} (hidle : s.idle = true)
      (hcall : Router.callOf msg = none) :
      Happens s (.browser msg now)
        ({ s with asked := s.askedAfter msg }.afterRouter (s.router.onBrowserMessage true msg now))
  | reads {decoders : Decoders} {now : Instant} {resp : Response} (hidle : s.idle = true) :
      Happens s (.response decoders now resp)
        ({ s with
          router := { s.router with ids := (s.router.ids.takeRoute resp.id).1 }
          read := s.read ++ [resp.id] }.does 0
          (.hands decoders now resp (s.router.ids.takeRoute resp.id).2))
  | handsOn {decoders : Decoders} {now : Instant} {resp : Response} {slot : UInt16}
      (hdoing : s.doing 0 = .hands decoders now resp (some slot)) :
      Happens s .hand
        ((s.afterRouter (s.router.toSlot (some slot) (.response resp.id resp ""))).does 0 .nothing)
  | answers {decoders : Decoders} {now : Instant} {resp : Response}
      (hdoing : s.doing 0 = .hands decoders now resp none) :
      Happens s .hand
        (({ s with
          handed := if (s.router.pending.get resp.id).isSome then s.handed ++ [(resp.id, 0)] else s.handed
          assigned := s.assigned ++ assigns s.router decoders resp }.afterRouter
          (s.router.handleRouterResponse decoders now resp.id resp)).does 0 .nothing)
  | event {event : CdpEventMessage} (hidle : s.idle = true) :
      Happens s (.event event) (s.afterRouter (s.router.onEvent event))
  | attached {slot : UInt16} {sessionId : String} {rest : List SessionToRouter} (hidle : s.idle = true)
      (hlifecycle : s.lifecycle = .sessionAttached slot sessionId :: rest) :
      Happens s .hear
        { s with lifecycle := rest, router := s.router.onLifecycle (.sessionAttached slot sessionId) }
  | forgets {slot : UInt16} {entry : SessionEntry} {rest : List SessionToRouter} (hidle : s.idle = true)
      (hlifecycle : s.lifecycle = .detached slot :: rest) (hentry : s.router.sessions.get slot = some entry) :
      Happens s .hear ({ s with lifecycle := rest, router := s.router.forget slot }.does 0 (.drops slot))
  | ignores {slot : UInt16} {rest : List SessionToRouter} (hidle : s.idle = true)
      (hlifecycle : s.lifecycle = .detached slot :: rest) (hentry : s.router.sessions.get slot = none) :
      Happens s .hear { s with lifecycle := rest }
  | dropsRoutes {slot : UInt16} (hdoing : s.doing 0 = .drops slot) :
      Happens s .dropRoutes
        ({ s with router := { s.router with ids := s.router.ids.dropSlot slot } }.does 0 .nothing)
  | evicts {now : Instant} (hidle : s.idle = true) :
      Happens s (.evict now)
        { s with
          router := s.router.evictRouterPending now s.router.config.requestTimeout
          expired := s.expired ++
            (s.router.lost (s.router.evictRouterPending now s.router.config.requestTimeout)).map fun callId =>
              (callId, 0) }
  | routes {party : UInt16} {accepted : Bool} {callId : CallId} {work : Work}
      (hdoing : s.doing party = .submits .fetched callId work) :
      Happens s (.proceed party accepted)
        ({ s with router := { s.router with ids := s.router.ids.insertRoute callId party } }.does party
          (.submits .routed callId work))
  | writes {party : UInt16} {callId : CallId} {work : Work}
      (hdoing : s.doing party = .submits .routed callId work) :
      Happens s (.proceed party true)
        ({ s with written := s.written ++ [callId] }.does party (.submits .written callId work))
  | refuses {party : UInt16} {callId : CallId} {work : Work}
      (hdoing : s.doing party = .submits .routed callId work) :
      Happens s (.proceed party false) (s.finish party false callId work)
  | enters {party : UInt16} {accepted : Bool} {callId : CallId} {work : Work}
      (hdoing : s.doing party = .submits .written callId work) :
      Happens s (.proceed party accepted) (s.finish party true callId work)
  | fetches {slot : UInt16} {env : Env} {now : Instant} {task : SessionTask} {event : TargetEvent}
      (hidle : s.idleTask slot = some task) (hevent : (task.target.advance env now).event = some event)
      (hcalls : event.calls = true) :
      Happens s (.turn slot env now)
        ((s.afterTask slot task (task.advanced env now)).fetch slot (.event event now))
  | turns {slot : UInt16} {env : Env} {now : Instant} {task : SessionTask} {event : TargetEvent}
      (hidle : s.idleTask slot = some task) (hevent : (task.target.advance env now).event = some event)
      (hcalls : event.calls = false) :
      Happens s (.turn slot env now)
        ((s.afterTask slot task (task.advanced env now)).afterTask slot (task.advanced env now)
          ((task.advanced env now).onTargetEvent true ⟨0⟩ now event))
  | rests {slot : UInt16} {env : Env} {now : Instant} {task : SessionTask}
      (hidle : s.idleTask slot = some task) (hevent : (task.target.advance env now).event = none) :
      Happens s (.turn slot env now)
        (s.afterTask slot task (task.advanced env now))
  | receives {slot : UInt16} {env : Env} {task : SessionTask} {msg : RouterToSession}
      {rest : List RouterToSession} (hidle : s.idleTask slot = some task)
      (hinbox : s.inboxes slot = msg :: rest) :
      Happens s (.receive slot env) (s.afterInput slot task (msg.toInput env) rest)
  | orphaned {slot : UInt16} {env : Env} {task : SessionTask} (hidle : s.idleTask slot = some task)
      (hinbox : s.inboxes slot = []) (hpanicked : s.router.panicked = true) :
      Happens s (.receive slot env) (s.afterInput slot task .shutdown [])
  | choosesStale {slot : UInt16} {now : Instant} {task : SessionTask} (hidle : s.idleTask slot = some task) :
      Happens s (.evictStale slot now) (s.does slot (.evicting (task.stale now)))
  | takesRoute {slot : UInt16} {callId : CallId} {rest : List CallId}
      (hdoing : s.doing slot = .evicts (callId :: rest)) :
      Happens s (.takeRoute slot)
        ({ s with
          router := { s.router with ids := (s.router.ids.takeRoute callId).1 }
          expired := s.expired ++ [(callId, slot)] }.does slot (.timesOut callId rest))
  | timesOut {slot : UInt16} {callId : CallId} {rest : List CallId} {task : SessionTask}
      (hdoing : s.doing slot = .timesOut callId rest) (htask : s.tasks.get slot = some task) :
      Happens s (.timeOut slot)
        ((s.afterTask slot task (task.timeOut callId)).does slot (.evicting rest))
  | pageMessage {slot : UInt16} {msg : TargetMessage} {task : SessionTask}
      (htask : s.tasks.get slot = some task) :
      Happens s (.pageMessage slot msg) (s.afterTask slot task (task.step (.pageMessage msg)))
  | drainsPage {slot : UInt16} {task : SessionTask} (hidle : s.idleTask slot = some task) :
      Happens s (.drainPage slot) (s.afterTask slot task (task.step .drainPage))

theorem happens (s : System) (move : Move) : Happens s move (s.step move) := by
  cases move with
  | browser msg now =>
    by_cases hidle : s.idle = true
    · simp only [step, hidle, if_true]
      cases hcall : Router.callOf msg with
      | some call => exact .calls hidle hcall
      | none => exact .hears hidle hcall
    · simp only [step, hidle]
      exact .nothing _
  | response decoders now resp =>
    by_cases hidle : s.idle = true
    · simp only [step, hidle, if_true]
      exact .reads hidle
    · simp only [step, hidle]
      exact .nothing _
  | hand =>
    cases hdoing : s.doing 0 with
    | hands decoders now resp route =>
      simp only [step, hand, hdoing]
      split
      · exact .nothing _
      · cases route with
        | some slot => exact .handsOn hdoing
        | none => exact .answers hdoing
    | _ =>
      simp only [step, hand, hdoing]
      exact .nothing _
  | event event =>
    by_cases hidle : s.idle = true
    · simp only [step, hidle, if_true]
      split
      · exact .nothing _
      · exact .event hidle
    · simp only [step, hidle]
      exact .nothing _
  | hear =>
    by_cases hidle : s.idle = true
    · cases hlifecycle : s.lifecycle with
      | nil =>
        simp only [step, hear, hidle, hlifecycle, if_true]
        exact .nothing _
      | cons msg rest =>
        cases msg with
        | sessionAttached slot sessionId =>
          simp only [step, hear, hidle, hlifecycle, if_true]
          exact .attached hidle hlifecycle
        | detached slot =>
          simp only [step, hear, hidle, hlifecycle, if_true]
          cases hentry : s.router.sessions.get slot with
          | some entry => exact .forgets hidle hlifecycle hentry
          | none => exact .ignores hidle hlifecycle hentry
    · simp only [step, hear, hidle]
      exact .nothing _
  | dropRoutes =>
    cases hdoing : s.doing 0 with
    | drops slot =>
      simp only [step, dropRoutes, hdoing]
      exact .dropsRoutes hdoing
    | _ =>
      simp only [step, dropRoutes, hdoing]
      exact .nothing _
  | evict now =>
    by_cases hidle : s.idle = true
    · simp only [step, hidle, if_true]
      exact .evicts hidle
    · simp only [step, hidle]
      exact .nothing _
  | proceed party accepted =>
    cases hdoing : s.doing party with
    | submits stage callId work =>
      cases stage with
      | fetched =>
        simp only [step, proceed, hdoing]
        exact .routes hdoing
      | routed =>
        cases accepted with
        | true =>
          simp only [step, proceed, hdoing, if_true]
          exact .writes hdoing
        | false =>
          simp only [step, proceed, hdoing, Bool.false_eq_true, if_false]
          exact .refuses hdoing
      | written =>
        simp only [step, proceed, hdoing]
        exact .enters hdoing
    | _ =>
      simp only [step, proceed, hdoing]
      exact .nothing _
  | turn slot env now =>
    cases hidle : s.idleTask slot with
    | none =>
      simp only [step, hidle]
      exact .nothing _
    | some task =>
      simp only [step, hidle]
      cases hevent : (task.target.advance env now).event with
      | none => exact .rests hidle hevent
      | some event =>
        cases hcalls : event.calls with
        | true =>
          simp only [hcalls, if_true]
          exact .fetches hidle hevent hcalls
        | false =>
          simp only [hcalls, Bool.false_eq_true, if_false]
          exact .turns hidle hevent hcalls
  | receive slot env =>
    cases hidle : s.idleTask slot with
    | none =>
      simp only [step, receive, hidle]
      exact .nothing _
    | some task =>
      simp only [step, receive, hidle]
      cases hinbox : s.inboxes slot with
      | nil =>
        by_cases hpanicked : s.router.panicked = true
        · simp only [hpanicked, if_true]
          exact .orphaned hidle hinbox hpanicked
        · simp only [hpanicked]
          exact .nothing _
      | cons msg rest => exact .receives hidle hinbox
  | evictStale slot now =>
    cases hidle : s.idleTask slot with
    | none =>
      simp only [step, hidle]
      exact .nothing _
    | some task =>
      simp only [step, hidle]
      exact .choosesStale hidle
  | takeRoute slot =>
    simp only [step]
    split
    · rename_i hdoing
      exact .takesRoute hdoing
    · exact .nothing _
  | timeOut slot =>
    simp only [step]
    split
    · rename_i hdoing htask
      exact .timesOut hdoing htask
    · exact .nothing _
  | pageMessage slot msg =>
    simp only [step]
    split
    · rename_i htask
      exact .pageMessage htask
    · exact .nothing _
  | drainPage slot =>
    cases hidle : s.idleTask slot with
    | none =>
      simp only [step, hidle]
      exact .nothing _
    | some task =>
      simp only [step, hidle]
      exact .drainsPage hidle

/-! ### The tasks and the registry -/

/-- The task in a slot has left its loop. -/
def gone (s : System) (slot : UInt16) : Prop := ∃ task, s.tasks.get slot = some task ∧ task.stopped = true

/-- A task that has not left its loop is registered, and one that is said to have left it has. Nobody but a running task is in the middle of something, and nothing but what a task does. -/
structure Staffed (s : System) : Prop where
  registered : ∀ slot, s.live slot = true → (s.router.sessions.get slot).isSome = true
  detached : ∀ slot, .detached slot ∈ s.lifecycle → s.gone slot
  dropping : ∀ slot, s.doing 0 = .drops slot → s.gone slot
  busy : ∀ slot, slot ≠ 0 → (s.doing slot).isNothing = false → s.live slot = true
  slots : ∀ slot task, s.tasks.get slot = some task →
    task.slot = slot ∧ slot ≠ 0 ∧ slot < s.router.nextSlot
  next : s.router.nextSlot ≠ 0
  emptied : ∀ slot, s.live slot = false → s.inboxes slot = []
  routers : (s.doing 0).isRouters = true
  ofTasks : ∀ slot, slot ≠ 0 → (s.doing slot).isTasks = true

theorem not_live_of_gone {slot : UInt16} (h : s.gone slot) : s.live slot = false := by
  obtain ⟨task, htask, hstopped⟩ := h
  simp [live, htask, hstopped]

theorem Staffed.of_same (h : Staffed s) (hsessions : s'.router.sessions = s.router.sessions)
    (hnext : s'.router.nextSlot = s.router.nextSlot) (htasks : s'.tasks = s.tasks)
    (hlifecycle : s'.lifecycle = s.lifecycle) (hinboxes : s'.inboxes = s.inboxes)
    (hdoing : s'.doing = s.doing) : Staffed s' := by
  have hlive : s'.live = s.live := by
    funext slot
    rw [live, live, htasks]
  have hgone : s'.gone = s.gone := by
    funext slot
    rw [gone, gone, htasks]
  constructor
  · rw [hlive, hsessions]
    exact h.registered
  · rw [hlifecycle, hgone]
    exact h.detached
  · rw [hdoing, hgone]
    exact h.dropping
  · rw [hdoing, hlive]
    exact h.busy
  · rw [htasks, hnext]
    exact h.slots
  · rw [hnext]
    exact h.next
  · rw [hlive, hinboxes]
    exact h.emptied
  · rw [hdoing]
    exact h.routers
  · rw [hdoing]
    exact h.ofTasks

/-- The router goes on to something else. -/
theorem Staffed.routerDoes (h : Staffed s) {doing : Doing} (hkind : doing.isRouters = true)
    (hdrops : ∀ slot, doing = .drops slot → s.gone slot) : Staffed (s.does 0 doing) where
  registered := h.registered
  detached := h.detached
  dropping := by
    intro slot hdoing
    simp only [does, Function.update_self] at hdoing
    exact hdrops slot hdoing
  busy := by
    intro slot hslot hbusy
    simp only [does, Function.update_of_ne hslot] at hbusy
    exact h.busy slot hslot hbusy
  slots := h.slots
  next := h.next
  emptied := h.emptied
  routers := by
    simp only [does, Function.update_self]
    exact hkind
  ofTasks := by
    intro slot hslot
    simp only [does, Function.update_of_ne hslot]
    exact h.ofTasks slot hslot

/-- A task that is running goes on to something else. -/
theorem Staffed.taskDoes (h : Staffed s) {slot : UInt16} {doing : Doing} (hslot : slot ≠ 0)
    (hlive : s.live slot = true) (hkind : doing.isTasks = true) : Staffed (s.does slot doing) where
  registered := h.registered
  detached := h.detached
  dropping := by
    intro other hdoing
    simp only [does, Function.update_of_ne hslot.symm] at hdoing
    exact h.dropping other hdoing
  busy := by
    intro other hother hbusy
    by_cases hsame : other = slot
    · rw [hsame]
      exact hlive
    · simp only [does, Function.update_of_ne hsame] at hbusy
      exact h.busy other hother hbusy
  slots := h.slots
  next := h.next
  emptied := h.emptied
  routers := by
    simp only [does, Function.update_of_ne hslot.symm]
    exact h.routers
  ofTasks := by
    intro other hother
    by_cases hsame : other = slot
    · simp only [does, hsame, Function.update_self]
      exact hkind
    · simp only [does, Function.update_of_ne hsame]
      exact h.ofTasks other hother

theorem live_afterTask {slot : UInt16} {task task' : SessionTask} (x : UInt16) :
    (s.afterTask slot task task').live x = if x = slot then !task'.stopped else s.live x := by
  by_cases hsame : x = slot
  · simp [live, afterTask, hsame]
  · simp [live, afterTask, Table.get_set_of_ne _ _ hsame, hsame]

/-- A task goes on. -/
theorem Staffed.afterTask (h : Staffed s) {slot : UInt16} {task task' : SessionTask}
    (htask : s.tasks.get slot = some task) (hcontinues : task.Continues task') :
    Staffed (s.afterTask slot task task') := by
  have hlive : (s.afterTask slot task task').live = s.live := by
    funext x
    rw [live_afterTask]
    split
    · rename_i hsame
      rw [hsame, live, htask, hcontinues.stopped]
    · rfl
  have hgone : ∀ x, s.gone x → (s.afterTask slot task task').gone x := by
    rintro x ⟨other, hother, hstopped⟩
    by_cases hsame : x = slot
    · rw [hsame, htask] at hother
      cases hother
      exact ⟨task', by simp [System.afterTask, hsame], hcontinues.stopped.trans hstopped⟩
    · exact ⟨other, by simp [System.afterTask, Table.get_set_of_ne _ _ hsame, hother], hstopped⟩
  have hsent : ∀ x, .detached x ∈ (s.afterTask slot task task').lifecycle →
      .detached x ∈ s.lifecycle := by
    intro x hx
    obtain ⟨msgs, hmsgs, hattached⟩ := hcontinues.toRouter
    have hnew : task'.toRouter.drop task.toRouter.length = msgs := by simp [hmsgs]
    simp only [System.afterTask, hnew] at hx
    rcases mem_foldl_trySend hx with hx | hx
    · exact hx
    · obtain ⟨_, heq⟩ := hattached _ hx
      cases heq
  constructor
  · rw [hlive]
    exact h.registered
  · exact fun x hx => hgone x (h.detached x (hsent x hx))
  · exact fun x hx => hgone x (h.dropping x hx)
  · rw [hlive]
    exact h.busy
  · intro x other hother
    simp only [System.afterTask, Table.get_set] at hother
    split at hother
    · rename_i hsame
      cases hother
      rw [hsame, hcontinues.slot]
      exact h.slots slot task htask
    · exact h.slots x other hother
  · exact h.next
  · rw [hlive]
    exact h.emptied
  · exact h.routers
  · exact h.ofTasks

/-- The router's messages get into the inboxes of running tasks only. -/
theorem Staffed.deliver (h : Staffed s) (msgs : List (UInt16 × RouterToSession)) :
    Staffed { s with inboxes := fun slot => s.inboxes slot ++ s.delivered msgs slot } where
  registered := h.registered
  detached := h.detached
  dropping := h.dropping
  busy := h.busy
  slots := h.slots
  next := h.next
  emptied := by
    intro slot hdead
    have hdead : s.live slot = false := hdead
    simp [h.emptied slot hdead, delivered, hdead]
  routers := h.routers
  ofTasks := h.ofTasks

/-- The registry changes and keeps the entries of the tasks that have not left their loops. -/
theorem Staffed.withRouter (h : Staffed s) {r : Router} (hnext : r.nextSlot = s.router.nextSlot)
    (hregistered : ∀ slot, s.live slot = true → (r.sessions.get slot).isSome = true) :
    Staffed { s with router := r } where
  registered := hregistered
  detached := h.detached
  dropping := h.dropping
  busy := h.busy
  slots := by
    rw [hnext]
    exact h.slots
  next := hnext ▸ h.next
  emptied := h.emptied
  routers := h.routers
  ofTasks := h.ofTasks

/-- A step of the router that spawns no task and keeps the sessions. -/
theorem Staffed.afterRouter (h : Staffed s) {r : Router} {msgs : List (UInt16 × RouterToSession)}
    (hspawned : r.spawned = s.router.spawned) (hnext : r.nextSlot = s.router.nextSlot)
    (hsessions : ∀ slot, (r.sessions.get slot).isSome = (s.router.sessions.get slot).isSome)
    (hmsgs : r.toSessions = s.router.toSessions ++ msgs) : Staffed (s.afterRouter r) := by
  have hrouter : Staffed { s with router := r } :=
    h.withRouter hnext fun slot hlive => (hsessions slot).trans (h.registered slot hlive)
  rw [afterRouter_eq hmsgs (hspawned.trans (List.append_nil _).symm)]
  exact hrouter.deliver msgs

/-- A target that the router did not know gets a slot with a new task. -/
theorem Staffed.created (h : Staffed s) (info : TargetInfo) :
    Staffed (s.afterRouter (s.router.onTargetCreated info)) := by
  cases hknown : s.router.targetIdToSlot.get info.targetId with
  | some slot =>
    rw [Router.onTargetCreated_of_known hknown]
    exact h.afterRouter rfl rfl (fun _ => rfl) (List.append_nil _).symm
  | none =>
    by_cases hslot : s.router.nextSlot = 65535
    · rw [Router.onTargetCreated_of_full hknown hslot]
      exact h.afterRouter rfl rfl (fun _ => rfl) (List.append_nil _).symm
    · obtain ⟨context, toSessions, heq, hmsgs⟩ := Router.onTargetCreated_of_unknown hknown hslot
      rw [afterRouter_eq (by rw [heq]; exact hmsgs) (by rw [heq]), heq]
      refine Staffed.deliver ?_ _
      simp only [spawn, List.foldl_cons, List.foldl_nil]
      -- The slot is fresh: no task has it yet.
      have hfresh : s.tasks.get s.router.nextSlot = none :=
        Option.eq_none_iff_forall_ne_some.2 fun task htask =>
          UInt16.lt_irrefl _ (h.slots _ task htask).2.2
      have hgone : ∀ x, s.gone x → x ≠ s.router.nextSlot := by
        rintro x ⟨task, htask, _⟩ rfl
        rw [hfresh] at htask
        cases htask
      constructor
      · intro slot hlive
        simp only [Table.get_set]
        split
        · rfl
        · rename_i hother
          refine h.registered slot ?_
          simpa only [live, Table.get_set_of_ne _ _ hother] using hlive
      · intro x hx
        have hgone' := h.detached x hx
        obtain ⟨task, htask, hstopped⟩ := hgone'
        exact ⟨task, by rw [← htask]; exact Table.get_set_of_ne _ _ (hgone x (h.detached x hx)), hstopped⟩
      · intro x hx
        obtain ⟨task, htask, hstopped⟩ := h.dropping x hx
        exact ⟨task, by rw [← htask]; exact Table.get_set_of_ne _ _ (hgone x (h.dropping x hx)), hstopped⟩
      · intro slot hother hbusy
        have hlive := h.busy slot hother hbusy
        have hne : slot ≠ s.router.nextSlot := by
          rintro rfl
          simp [live, hfresh] at hlive
        simpa only [live, Table.get_set_of_ne _ _ hne] using hlive
      · intro slot task htask
        simp only [Table.get_set] at htask
        split at htask
        · rename_i hsame
          cases htask
          exact ⟨hsame.symm, hsame ▸ h.next, Router.lt_nextSlot_succ (.inr hsame) hslot⟩
        · obtain ⟨hslotOf, hnonzero, hlt⟩ := h.slots slot task htask
          exact ⟨hslotOf, hnonzero, Router.lt_nextSlot_succ (.inl hlt) hslot⟩
      · intro hzero
        have hlt : s.router.nextSlot < s.router.nextSlot + 1 := Router.lt_nextSlot_succ (.inr rfl) hslot
        have hzero : s.router.nextSlot + 1 = 0 := hzero
        rw [hzero] at hlt
        exact absurd hlt (by simp)
      · intro slot hdead
        refine h.emptied slot ?_
        by_cases hsame : slot = s.router.nextSlot
        · rw [live, hsame, hfresh]
        · simpa only [live, Table.get_set_of_ne _ _ hsame] using hdead
      · exact h.routers
      · exact h.ofTasks

theorem Staffed.event (h : Staffed s) (event : CdpEventMessage) :
    Staffed (s.afterRouter (s.router.onEvent event)) := by
  obtain ⟨slot, msg, heq, _⟩ | ⟨info, _, heq⟩ | ⟨ev, _, heq⟩ | heq := s.router.onEvent_cases event
  · rw [heq, Router.toSlot_eq]
    exact h.afterRouter rfl rfl (fun _ => rfl) rfl
  · rw [heq]
    exact h.created info
  · obtain ⟨sessions, sessionIdToSlot, hattached, howner⟩ := s.router.onAttachedToTarget_same ev
    rw [heq, hattached]
    refine h.afterRouter rfl rfl (fun slot => ?_) (List.append_nil _).symm
    have hsame := congrArg Option.isSome (howner slot)
    simpa [Router.owner] using hsame
  · rw [heq]
    exact h.afterRouter rfl rfl (fun _ => rfl) (List.append_nil _).symm

/-- A task leaves its loop, and its inbox is gone. -/
theorem Staffed.shutdown (h : Staffed s) {slot : UInt16} {task : SessionTask}
    (htask : s.tasks.get slot = some task) (hstopped : task.stopped = false)
    (hdoing : (s.doing slot).isNothing = true) (rest : List RouterToSession) :
    Staffed (s.afterInput slot task .shutdown rest) := by
  obtain ⟨replies, hstep⟩ := task.step_shutdown hstopped
  have hlive : ∀ x, (s.afterInput slot task .shutdown rest).live x =
      if x = slot then false else s.live x := by
    intro x
    have hafter : (s.afterInput slot task .shutdown rest).live x =
      (s.afterTask slot task (task.step .shutdown)).live x := rfl
    rw [hafter, live_afterTask, hstep]
    rfl
  have hgone : ∀ x, s.gone x ∨ x = slot → (s.afterInput slot task .shutdown rest).gone x := by
    intro x hx
    by_cases hsame : x = slot
    · exact ⟨task.step .shutdown, by simp [afterInput, System.afterTask, hsame], by rw [hstep]⟩
    · obtain ⟨other, hother, hdone⟩ := hx.resolve_right hsame
      exact ⟨other, by simp [afterInput, System.afterTask, Table.get_set_of_ne _ _ hsame, hother], hdone⟩
  constructor
  · intro x hx
    rw [hlive] at hx
    split at hx
    · cases hx
    · exact h.registered x hx
  · intro x hx
    refine hgone x ?_
    have hnew : (task.step .shutdown).toRouter.drop task.toRouter.length = [.detached task.slot] := by
      simp [hstep]
    simp only [afterInput, System.afterTask, hnew] at hx
    rcases mem_foldl_trySend hx with hx | hx
    · exact .inl (h.detached x hx)
    · cases List.mem_singleton.1 hx
      exact .inr (h.slots slot task htask).1
  · exact fun x hx => hgone x (.inl (h.dropping x hx))
  · intro x hx hbusy
    rw [hlive, if_neg]
    · exact h.busy x hx hbusy
    · rintro rfl
      have hdoing : (s.doing x).isNothing = false := hbusy
      simp_all
  · intro x other hother
    simp only [afterInput, System.afterTask, Table.get_set] at hother
    split at hother
    · rename_i hsame
      cases hother
      rw [hsame, hstep]
      exact h.slots slot task htask
    · exact h.slots x other hother
  · exact h.next
  · intro x hx
    rw [hlive] at hx
    by_cases hsame : x = slot
    · simp [afterInput, hsame, hstep]
    · rw [if_neg hsame] at hx
      simp only [afterInput, Function.update_of_ne hsame]
      exact h.emptied x hx
  · exact h.routers
  · exact h.ofTasks

theorem Staffed.input (h : Staffed s) {slot : UInt16} {task : SessionTask}
    (htask : s.tasks.get slot = some task) (hstopped : task.stopped = false)
    (hdoing : (s.doing slot).isNothing = true) {input : SessionInput} (hevict : ∀ now, input ≠ .evict now)
    (rest : List RouterToSession) : Staffed (s.afterInput slot task input rest) := by
  by_cases hshutdown : input = .shutdown
  · rw [hshutdown]
    exact h.shutdown htask hstopped hdoing rest
  · have hcontinues := task.continues_step hshutdown hevict
    have hafter := h.afterTask htask hcontinues
    have hlive : s.live slot = true := live_iff.2 ⟨task, htask, hstopped⟩
    exact {
      registered := hafter.registered
      detached := hafter.detached
      dropping := hafter.dropping
      busy := hafter.busy
      slots := hafter.slots
      next := hafter.next
      emptied := by
        intro x hx
        have hx : (s.afterTask slot task (task.step input)).live x = false := hx
        by_cases hsame : x = slot
        · rw [hsame, live_afterTask, if_pos rfl, hcontinues.stopped, hstopped] at hx
          cases hx
        · simp only [afterInput, Function.update_of_ne hsame]
          exact hafter.emptied x hx
      routers := hafter.routers
      ofTasks := hafter.ofTasks }

theorem idleTask_eq_some {slot : UInt16} {task : SessionTask} (h : s.idleTask slot = some task) :
    s.tasks.get slot = some task ∧ task.stopped = false ∧ (s.doing slot).isNothing = true := by
  unfold idleTask at h
  split at h
  · rename_i hidle
    rw [Bool.and_eq_true] at hidle
    obtain ⟨other, hother, hstopped⟩ := live_iff.1 hidle.2
    obtain rfl : other = task := Option.some.inj (hother.symm.trans h)
    exact ⟨h, hstopped, hidle.1⟩
  · cases h

theorem isTasks_evicting (stale : List CallId) : (Doing.evicting stale).isTasks = true := by
  cases stale <;> rfl

/-- What a party submits is what it does. -/
theorem Staffed.submits (h : Staffed s) {party : UInt16} {stage : Switchboard.Stage} {callId : CallId} {work : Work}
    (hdoing : s.doing party = .submits stage callId work) :
    (party = 0 ∧ ∃ call now, work = .call call now) ∨
      ∃ event now task, party ≠ 0 ∧ work = .event event now ∧ event.calls = true ∧
        s.tasks.get party = some task ∧ task.stopped = false := by
  by_cases hparty : party = 0
  · have hrouters := h.routers
    rw [← hparty, hdoing] at hrouters
    cases work with
    | call call now => exact .inl ⟨hparty, call, now, rfl⟩
    | event event now => cases hrouters
  · have htasks := h.ofTasks party hparty
    obtain ⟨task, htask, hstopped⟩ := live_iff.1 (h.busy party hparty (by rw [hdoing]; rfl))
    rw [hdoing] at htasks
    cases work with
    | call call now => cases htasks
    | event event now => exact .inr ⟨event, now, task, hparty, rfl, htasks, htask, hstopped⟩

/-- A party goes on with what it submits. -/
theorem Staffed.proceeds (h : Staffed s) {party : UInt16} {stage stage' : Switchboard.Stage} {callId : CallId}
    {work : Work} (hdoing : s.doing party = .submits stage callId work) :
    Staffed (s.does party (.submits stage' callId work)) := by
  obtain ⟨rfl, call, now, rfl⟩ | ⟨event, now, task, hparty, rfl, hcalls, htask, hstopped⟩ :=
    h.submits hdoing
  · exact h.routerDoes rfl nofun
  · exact h.taskDoes hparty (live_iff.2 ⟨task, htask, hstopped⟩) hcalls

theorem Staffed.finishes (h : Staffed s) {party : UInt16} {stage : Switchboard.Stage} {callId : CallId} {work : Work}
    (hdoing : s.doing party = .submits stage callId work) (accepted : Bool) :
    Staffed (s.finish party accepted callId work) := by
  obtain ⟨rfl, call, now, rfl⟩ | ⟨event, now, task, hparty, rfl, _, htask, hstopped⟩ := h.submits hdoing
  · have hsame := s.router.sameRegistry_enter accepted callId call now
    have hentered : Staffed { s with
        router := s.router.enter accepted callId call now
        entered := if accepted then s.entered ++ [(callId, 0)] else s.entered } :=
      h.of_same hsame.sessions hsame.nextSlot rfl rfl rfl rfl
    exact hentered.routerDoes rfl nofun
  · have hentered : Staffed { s with
        entered := if accepted then s.entered ++ [(callId, party)] else s.entered } :=
      h.of_same rfl rfl rfl rfl rfl rfl
    have hcontinues := task.continues_onTargetEvent accepted callId now event
    have hafter := hentered.afterTask htask hcontinues
    simp only [finish, htask]
    refine hafter.taskDoes hparty ?_ rfl
    rw [live_afterTask, if_pos rfl, hcontinues.stopped, hstopped]
    rfl

/-- A party that does what only tasks do is not the router. -/
theorem Staffed.ne_zero (h : Staffed s) {party : UInt16} (hdoing : (s.doing party).isRouters = false) : party ≠ 0 := by
  rintro rfl
  have hrouters := h.routers
  rw [hdoing] at hrouters
  cases hrouters

/-- The router hears the next of what the tasks told it. -/
theorem Staffed.hears (h : Staffed s) {msg : SessionToRouter} {rest : List SessionToRouter}
    (hlifecycle : s.lifecycle = msg :: rest) : Staffed { s with lifecycle := rest } where
  registered := h.registered
  detached := fun slot hslot => h.detached slot (hlifecycle ▸ List.mem_cons_of_mem _ hslot)
  dropping := h.dropping
  busy := h.busy
  slots := h.slots
  next := h.next
  emptied := h.emptied
  routers := h.routers
  ofTasks := h.ofTasks

/-- The router forgets a task that has left its loop. -/
theorem Staffed.forgets (h : Staffed s) {slot : UInt16} {rest : List SessionToRouter}
    (hlifecycle : s.lifecycle = .detached slot :: rest) :
    Staffed { s with router := s.router.forget slot, lifecycle := rest } := by
  have hslot := not_live_of_gone (h.detached slot (hlifecycle ▸ List.mem_cons_self))
  obtain ⟨sessions, targets, ids, heq, hsessions⟩ := s.router.forget_same slot
  refine (h.hears hlifecycle).withRouter (by rw [heq]) fun other hlive => ?_
  have hne : other ≠ slot := by
    rintro rfl
    have hstays : s.live other = true := hlive
    rw [hslot] at hstays
    cases hstays
  rw [heq]
  dsimp only
  rw [hsessions, if_neg hne]
  exact h.registered other hlive

theorem Staffed.happens (h : Staffed s) (hhappens : Happens s move s') : Staffed s' := by
  cases hhappens with
  | nothing => exact h
  | calls hidle hcall =>
    refine Staffed.routerDoes ?_ rfl (by simp)
    exact h.of_same rfl rfl rfl rfl rfl rfl
  | hears hidle hcall =>
    obtain ⟨hsame, _, htold⟩ := s.router.sameRegistry_onBrowserMessage hcall _
    refine Staffed.afterRouter ?_ hsame.spawned hsame.nextSlot (fun slot => by rw [hsame.sessions])
      (htold.trans (List.append_nil _).symm)
    exact h.of_same rfl rfl rfl rfl rfl rfl
  | reads hidle =>
    refine Staffed.routerDoes ?_ rfl (by simp)
    exact h.of_same rfl rfl rfl rfl rfl rfl
  | handsOn hdoing =>
    refine Staffed.routerDoes ?_ rfl (by simp)
    rw [Router.toSlot_eq]
    exact h.afterRouter rfl rfl (fun _ => rfl) rfl
  | answers hdoing =>
    have hsame := s.router.sameRegistry_handleRouterResponse
    obtain ⟨msgs, hmsgs, _⟩ := s.router.toSessions_handleRouterResponse _ _ _ _
    refine Staffed.routerDoes ?_ rfl (by simp)
    refine Staffed.afterRouter ?_ (hsame _ _ _ _).spawned (hsame _ _ _ _).nextSlot
      (fun slot => by rw [(hsame _ _ _ _).sessions]) hmsgs
    exact h.of_same rfl rfl rfl rfl rfl rfl
  | event hidle => exact h.event _
  | attached hidle hlifecycle =>
    refine (h.hears hlifecycle).withRouter rfl fun slot hlive => ?_
    have hsome := h.registered slot hlive
    simp only [Router.onLifecycle, Table.get_update]
    split
    · rwa [Option.isSome_map]
    · exact hsome
  | @forgets slot entry rest hidle hlifecycle hentry =>
    have hslot : s.gone slot := h.detached slot (hlifecycle ▸ List.mem_cons_self)
    refine (h.forgets hlifecycle).routerDoes rfl fun other hother => ?_
    cases hother
    exact hslot
  | ignores hidle hlifecycle hentry => exact h.hears hlifecycle
  | dropsRoutes hdoing =>
    refine Staffed.routerDoes ?_ rfl (by simp)
    exact h.of_same rfl rfl rfl rfl rfl rfl
  | evicts hidle =>
    obtain ⟨hsame, _, _⟩ := s.router.sameRegistry_evictRouterPending _ s.router.config.requestTimeout
    exact h.of_same hsame.sessions hsame.nextSlot rfl rfl rfl rfl
  | routes hdoing =>
    refine Staffed.proceeds ?_ hdoing
    exact h.of_same rfl rfl rfl rfl rfl rfl
  | writes hdoing =>
    refine Staffed.proceeds ?_ hdoing
    exact h.of_same rfl rfl rfl rfl rfl rfl
  | refuses hdoing => exact h.finishes hdoing false
  | enters hdoing => exact h.finishes hdoing true
  | @fetches slot env now task event hidle hevent hcalls =>
    obtain ⟨htask, hstopped, _⟩ := idleTask_eq_some hidle
    have hadvanced := h.afterTask htask (task.continues_advanced env now)
    have hlive : (s.afterTask slot task (task.advanced env now)).live slot = true := by
      rw [live_afterTask, if_pos rfl]
      simp [SessionTask.advanced, hstopped]
    refine Staffed.taskDoes ?_ (h.slots _ _ htask).2.1 hlive hcalls
    exact hadvanced.of_same rfl rfl rfl rfl rfl rfl
  | @turns slot env now task event hidle hevent hcalls =>
    have hadvanced := h.afterTask (idleTask_eq_some hidle).1 (task.continues_advanced env now)
    exact hadvanced.afterTask (Table.get_set_self _ _ _) (SessionTask.continues_onTargetEvent _ _ _ _ _)
  | rests hidle hevent => exact h.afterTask (idleTask_eq_some hidle).1 (SessionTask.continues_advanced _ _ _)
  | @receives slot env task msg rest hidle hinbox =>
    obtain ⟨htask, hstopped, hdoing⟩ := idleTask_eq_some hidle
    have hevict : ∀ now, msg.toInput env ≠ .evict now := by
      cases msg <;> simp [RouterToSession.toInput]
    exact h.input htask hstopped hdoing hevict rest
  | orphaned hidle hinbox hpanicked =>
    obtain ⟨htask, hstopped, hdoing⟩ := idleTask_eq_some hidle
    exact h.input htask hstopped hdoing (fun now heq => by cases heq) []
  | choosesStale hidle =>
    obtain ⟨htask, hstopped, _⟩ := idleTask_eq_some hidle
    exact h.taskDoes (h.slots _ _ htask).2.1 (live_iff.2 ⟨_, htask, hstopped⟩) (isTasks_evicting _)
  | @takesRoute slot callId rest hdoing =>
    have hslot := h.ne_zero (by rw [hdoing]; rfl)
    have hlive := h.busy slot hslot (by rw [hdoing]; rfl)
    refine Staffed.taskDoes ?_ hslot hlive rfl
    exact h.of_same rfl rfl rfl rfl rfl rfl
  | @timesOut slot callId rest task hdoing htask =>
    have hcontinues := task.continues_timeOut callId
    have hslot := (h.slots slot task htask).2.1
    have hlive := h.busy slot hslot (by rw [hdoing]; rfl)
    refine (h.afterTask htask hcontinues).taskDoes hslot ?_ (isTasks_evicting _)
    rw [live_afterTask, if_pos rfl, hcontinues.stopped]
    simpa [live, htask] using hlive
  | pageMessage htask => exact h.afterTask htask (SessionTask.continues_step _ (by simp) (by simp))
  | drainsPage hidle =>
    exact h.afterTask (idleTask_eq_some hidle).1 (SessionTask.continues_step _ (by simp) (by simp))

theorem staffed_start (config : HandlerConfig) (context : BrowserContext) (bootMethod : MethodId)
    (nextCallId : Nat) (now : Instant) : Staffed (start config context bootMethod nextCallId now) where
  registered := fun slot hlive => by simp [live, start] at hlive
  detached := fun slot hslot => absurd hslot List.not_mem_nil
  dropping := fun slot hslot => by cases hslot
  busy := fun slot _ hbusy => by cases hbusy
  slots := fun slot task htask => by simp [start] at htask
  next := by simp [start, Router.new]
  emptied := fun _ _ => rfl
  routers := rfl
  ofTasks := fun _ _ => rfl

theorem Staffed.step (h : Staffed s) (move : Move) : Staffed (s.step move) :=
  h.happens (s.happens move)

end System

end SpiderChrome
