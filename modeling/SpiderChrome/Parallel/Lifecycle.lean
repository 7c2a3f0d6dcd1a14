import SpiderChrome.Parallel.Moves
import SpiderChrome.Parallel.Targets
import SpiderChrome.Target.Initiator

/-!
# Sessions that come and go

The router finds the task of an event by the session that the event names, and it learns from three sides that a task has a session: the browser says so, the task says so, and the task, when it has left its loop, says that it is gone. As long as no target has a second session and the last message of a task finds room in the channel, the tables of the router follow the tasks.
-/

namespace SpiderChrome

/-! ### The targets of the tasks -/

namespace SessionTask

variable (task : SessionTask)

/-- The session that a response brings. -/
def stores (env : Env) (callId : CallId) (resp : Response) : Option SessionId :=
  match task.pending.get callId with
  | some (.internal, method, _) => storesSessionId env.decoders method resp
  | _ => none

theorem onTargetEvent_same (accepted : Bool) (callId : CallId) (now : Instant) (event : TargetEvent) :
    (∃ nm fm, (task.onTargetEvent accepted callId now event).target = { task.target with
      networkManager := nm
      frameManager := fm }) ∧
      (task.onTargetEvent accepted callId now event).toRouter = task.toRouter := by
  cases event with
  | request req => cases accepted <;> exact ⟨⟨_, _, rfl⟩, rfl⟩
  | command msg =>
    simp only [onTargetEvent]
    split
    · unfold submitNavigationCommand
      dsimp only
      split
      · exact ⟨⟨_, _, rfl⟩, rfl⟩
      · exact ⟨⟨_, _, rfl⟩, rfl⟩
    · cases accepted <;> exact ⟨⟨_, _, rfl⟩, rfl⟩
  | navigationRequest navId req => cases accepted <;> exact ⟨⟨_, _, rfl⟩, rfl⟩
  | navigationResult res =>
    obtain ⟨_, _, heq⟩ := task.onNavigationLifecycleCompleted_same res
    show (∃ nm fm, (task.onNavigationLifecycleCompleted res).target = _) ∧
      (task.onNavigationLifecycleCompleted res).toRouter = _
    rw [heq]
    exact ⟨⟨_, _, rfl⟩, rfl⟩
  | bytesConsumed bytes => exact ⟨⟨_, _, rfl⟩, rfl⟩

/-- What a response does to the target, and what the router is told of it. -/
theorem onResponse_target (env : Env) (callId : CallId) (resp : Response) :
    match task.stores env callId resp with
    | some sessionId =>
      (task.target.setSessionId sessionId).SameInitiators (task.onResponse env callId resp).target ∧
        (task.onResponse env callId resp).target.sessionId = some sessionId ∧
        (task.onResponse env callId resp).toRouter =
          if task.sessionIdReported then task.toRouter
          else task.toRouter ++ [.sessionAttached task.slot sessionId.inner]
    | none =>
      task.target.SameInitiators (task.onResponse env callId resp).target ∧
        (task.onResponse env callId resp).target.sessionId = task.target.sessionId ∧
        (task.onResponse env callId resp).toRouter = task.toRouter := by
  unfold stores onResponse
  cases hpending : task.pending.get callId with
  | none => exact ⟨.refl _, rfl, rfl⟩
  | some entry =>
    obtain ⟨pending, method, since⟩ := entry
    cases pending with
    | internal =>
      simp only [storeSessionId_eq]
      cases storesSessionId env.decoders method resp with
      | some sessionId =>
        exact ⟨Target.sameInitiators_onResponse _ _ _ _, Target.sessionId_onResponse _ _ _ _, rfl⟩
      | none => exact ⟨Target.sameInitiators_onResponse _ _ _ _, Target.sessionId_onResponse _ _ _ _, rfl⟩
    | external tx => exact ⟨.refl _, rfl, rfl⟩
    | navigate navId =>
      obtain ⟨_, _, heq⟩ :=
        { task with pending := task.pending.remove callId }.onNavigationResponse_same navId resp
      dsimp only
      rw [heq]
      exact ⟨.refl _, rfl, rfl⟩

/-- A task that goes on with the session that it has and the senders that its target has got, and tells the router nothing. -/
structure Rests (task task' : SessionTask) : Prop where
  slot : task'.slot = task.slot
  stopped : task'.stopped = task.stopped
  toRouter : task'.toRouter = task.toRouter
  session : task'.target.sessionId = task.target.sessionId
  initiators : task.target.SameInitiators task'.target

variable {task} {task' : SessionTask}

theorem Rests.continues (h : Rests task task') : Continues task task' := .of_eq h.slot h.stopped h.toRouter

theorem rests_advanced (task : SessionTask) (env : Env) (now : Instant) : Rests task (task.advanced env now) where
  slot := rfl
  stopped := rfl
  toRouter := rfl
  session :=
    (Target.steady_sessionId task.target.sessionId).pollWith (fun h => h) rfl List.length env now
  initiators := task.target.sameInitiators_advance env now

theorem rests_onTargetEvent (task : SessionTask) (accepted : Bool) (callId : CallId) (now : Instant)
    (event : TargetEvent) : Rests task (task.onTargetEvent accepted callId now event) := by
  have hcontinues := task.continues_onTargetEvent accepted callId now event
  obtain ⟨⟨nm, fm, htarget⟩, htoRouter⟩ := task.onTargetEvent_same accepted callId now event
  refine ⟨hcontinues.slot, hcontinues.stopped, htoRouter, ?_, ?_⟩
  · rw [htarget]
  · rw [htarget]
    exact .of_eq rfl rfl rfl

theorem rests_timeOut (task : SessionTask) (callId : CallId) : Rests task (task.timeOut callId) := by
  obtain ⟨_, _, heq⟩ := task.timeOut_same callId
  rw [heq]
  exact ⟨rfl, rfl, rfl, rfl, .refl _⟩

theorem rests_event (task : SessionTask) (env : Env) (event : CdpEventMessage) :
    Rests task (task.step (.event env event)) := by
  unfold step
  split
  · exact ⟨rfl, rfl, rfl, rfl, .refl _⟩
  · exact ⟨rfl, rfl, rfl, task.target.sessionId_onEvent env event, task.target.sameInitiators_onEvent env event⟩

theorem rests_pageMessage (task : SessionTask) (msg : TargetMessage) :
    Rests task (task.step (.pageMessage msg)) := by
  unfold step
  split
  · exact ⟨rfl, rfl, rfl, rfl, .refl _⟩
  · exact ⟨rfl, rfl, rfl, rfl, .of_eq rfl rfl rfl⟩

theorem rests_drainPage (task : SessionTask) : Rests task (task.step .drainPage) := by
  unfold step
  split
  · exact ⟨rfl, rfl, rfl, rfl, .refl _⟩
  · simp only [drainPage]
    split
    · rename_i handle _
      refine ⟨rfl, rfl, rfl, ?_, ?_⟩
      · exact Run.foldl_unchanged Target.sessionId_onPageMessage _ _
      · have hemptied : task.target.SameInitiators
            { task.target with page := some { handle with rx := [] } } := .of_eq rfl rfl rfl
        exact hemptied.trans (Run.foldl_rel .refl .trans Target.sameInitiators_onPageMessage _ _)
    · exact ⟨rfl, rfl, rfl, rfl, .refl _⟩

end SessionTask

/-! ### The session of a slot -/

namespace System

variable {s s' : System} {move : Move}

/-- Whether the task in a slot has left its loop, and the session that drives it. -/
def course (s : System) (slot : UInt16) : Option (Bool × Option SessionId) :=
  (s.tasks.get slot).map fun task => (task.stopped, task.target.sessionId)

theorem course_of_task {slot : UInt16} {task : SessionTask} (htask : s.tasks.get slot = some task) :
    s.course slot = some (task.stopped, task.target.sessionId) := by
  rw [course, htask, Option.map_some]

theorem course_afterTask (slot : UInt16) (task task' : SessionTask) (x : UInt16) :
    (s.afterTask slot task task').course x =
      if x = slot then some (task'.stopped, task'.target.sessionId) else s.course x := by
  by_cases hsame : x = slot
  · simp [course, afterTask, hsame]
  · simp [course, afterTask, Table.get_set_of_ne _ _ hsame, hsame]

/-- The session ids that a slot is known by: those that the router has for it, those that it is being told, and the one that drives the task while it runs. -/
def knownSessions (s : System) (slot : UInt16) : List String :=
  ((s.router.sessionIdToSlot.toList.filter fun entry => entry.2 = slot).map Prod.fst ++
    s.lifecycle.filterMap fun
      | .sessionAttached attached sessionId => if attached = slot then some sessionId else none
      | .detached _ => none) ++
    match s.course slot with
    | some (false, some sessionId) => [sessionId.inner]
    | _ => []

theorem mem_knownSessions {slot : UInt16} {sid : String} :
    sid ∈ s.knownSessions slot ↔ s.router.sessionIdToSlot.get sid = some slot ∨
      .sessionAttached slot sid ∈ s.lifecycle ∨ s.course slot = some (false, some ⟨sid⟩) := by
  unfold knownSessions
  rw [List.mem_append, List.mem_append, or_assoc]
  refine or_congr ?_ (or_congr ?_ ?_)
  · rw [List.mem_map]
    constructor
    · rintro ⟨⟨sid, x⟩, hentry, rfl⟩
      rw [List.mem_filter, Table.mem_toList, decide_eq_true_iff] at hentry
      exact hentry.2 ▸ hentry.1
    · intro hget
      exact ⟨(sid, slot), List.mem_filter.2 ⟨(Table.mem_toList _ _ _).2 hget, decide_eq_true rfl⟩, rfl⟩
  · rw [List.mem_filterMap]
    constructor
    · rintro ⟨msg, hmsg, heq⟩
      cases msg with
      | sessionAttached attached sessionId =>
        dsimp only at heq
        split at heq
        · rename_i hslot
          cases heq
          exact hslot ▸ hmsg
        · cases heq
      | detached attached => cases heq
    · intro hmsg
      exact ⟨_, hmsg, if_pos rfl⟩
  · split
    · rename_i sessionId hcourse
      rw [List.mem_singleton, hcourse]
      constructor
      · rintro rfl
        rfl
      · intro heq
        cases heq
        rfl
    · rename_i hother
      exact iff_of_false List.not_mem_nil (hother ⟨sid⟩)

/-- The session that a move attaches to a slot. -/
def attaches (s : System) : Move → Option (UInt16 × String)
  | .event event =>
    match s.idle, event.sessionId, event.params with
    | true, none, .targetAttachedToTarget ev =>
      (s.router.targetIdToSlot.get ev.targetInfo.targetId).map fun slot => (slot, ev.sessionId.inner)
    | _, _, _ => none
  | .receive slot env =>
    match s.idleTask slot, s.inboxes slot with
    | some task, .response callId resp _ :: _ =>
      (task.stores env callId resp).map fun sessionId => (slot, sessionId.inner)
    | _, _ => none
  | _ => none

/-- A task leaves its loop. -/
def exits (s : System) : Move → Bool
  | .receive slot _ =>
    match s.idleTask slot, s.inboxes slot with
    | some _, .shutdown :: _ => true
    | some _, [] => s.router.panicked
    | _, _ => false
  | _ => false

/-- A target is not attached by a second session, and a task that leaves its loop while the router is there finds room for its last message. -/
def Orderly (s : System) (move : Move) : Prop :=
  (∀ entry ∈ (s.attaches move).toList, ∀ other ∈ s.knownSessions entry.1, other = entry.2) ∧
    (s.exits move = true → s.router.panicked = false → s.lifecycle.length < sessionLifecycleCapacity)

instance (s : System) (move : Move) : Decidable (s.Orderly move) :=
  inferInstanceAs (Decidable ((∀ entry ∈ (s.attaches move).toList, ∀ other ∈ s.knownSessions entry.1,
    other = entry.2) ∧ (s.exits move = true → s.router.panicked = false →
    s.lifecycle.length < sessionLifecycleCapacity)))

/-- The tables follow the tasks. A session or a target leads to a slot that is in use, and to no slot that has been removed; a session that is detached shuts down no task that another session drives; and a task that has left its loop is not registered any more, unless the router is still to hear of it. -/
structure Followed (s : System) : Prop where
  targets : ∀ targetId slot, s.router.targetIdToSlot.get targetId = some slot →
    (s.router.sessions.get slot).isSome = true
  sessions : ∀ sid slot, s.router.sessionIdToSlot.get sid = some slot →
    (s.router.sessions.get slot).isSome = true
  removed : ∀ slot, (∀ targetId, (s.router.removeSession slot).targetIdToSlot.get targetId ≠ some slot) ∧
    ∀ sid, (s.router.removeSession slot).sessionIdToSlot.get sid ≠ some slot
  detached : ∀ sessionId : SessionId, ∀ slot ∈ Router.shutDowns s.router
      (s.router.onEvent ⟨.targetDetachedFromTarget sessionId, none⟩),
    ∀ task, s.tasks.get slot = some task → task.stopped = false →
      task.target.sessionId = none ∨ task.target.sessionId = some sessionId
  reported : s.router.panicked = false → ∀ slot task, s.tasks.get slot = some task → task.stopped = true →
    (s.router.sessions.get slot).isSome = true → .detached slot ∈ s.lifecycle

/-- What holds of the tables, the tasks and the messages between them at any time. -/
structure Tracked (s : System) : Prop where
  routed : s.router.Routed
  sessions : ∀ sid slot, s.router.sessionIdToSlot.get sid = some slot →
    ∃ entry, s.router.sessions.get slot = some entry ∧ entry.sessionId = some sid
  attached : ∀ slot sid, .sessionAttached slot sid ∈ s.lifecycle → (s.router.sessions.get slot).isSome = true
  order : s.lifecycle.Pairwise fun earlier later =>
    ∀ slot sid, earlier = .detached slot → later ≠ .sessionAttached slot sid
  single : ∀ slot, ∀ sid ∈ s.knownSessions slot, ∀ other ∈ s.knownSessions slot, sid = other
  reported : s.router.panicked = false → ∀ slot session, s.course slot = some (true, session) →
    (s.router.sessions.get slot).isSome = true → .detached slot ∈ s.lifecycle

/-! ### What follows -/

theorem Tracked.followed (h : Tracked s) : Followed s where
  targets := by
    intro targetId slot hget
    rw [h.routed.slot_iff, Router.owner, Option.map_eq_some_iff] at hget
    obtain ⟨entry, hentry, _⟩ := hget
    rw [hentry]
    rfl
  sessions := by
    intro sid slot hget
    obtain ⟨entry, hentry, _⟩ := h.sessions sid slot hget
    rw [hentry]
    rfl
  removed := by
    intro slot
    constructor
    · intro targetId hget
      rw [(h.routed.removeSession slot).slot_iff, Router.removeSession_owner, if_pos rfl] at hget
      cases hget
    · intro sid hget
      unfold Router.removeSession at hget
      cases hentry : s.router.sessions.get slot with
      | none =>
        rw [hentry] at hget
        obtain ⟨entry, hsome, _⟩ := h.sessions sid slot hget
        rw [hentry] at hsome
        cases hsome
      | some entry =>
        simp only [hentry] at hget
        have hold : s.router.sessionIdToSlot.get sid = some slot := by
          split at hget
          · rw [Table.get_remove] at hget
            split at hget
            · cases hget
            · exact hget
          · exact hget
        -- The session is the one that the entry remembers, and that one is removed.
        obtain ⟨other, hother, hsession⟩ := h.sessions sid slot hold
        rw [hentry] at hother
        cases hother
        rw [hsession] at hget
        simp at hget
  detached := by
    intro sessionId slot hshut task htask hstopped
    have hslot : s.router.sessionIdToSlot.get sessionId.inner = some slot := by
      simp only [Router.onEvent, Router.toSlot_eq] at hshut
      rw [Router.shutDowns_of_append rfl, List.mem_filterMap] at hshut
      obtain ⟨⟨x, msg⟩, hmsg, heq⟩ := hshut
      unfold Router.addressed at hmsg
      split at hmsg
      · rename_i y hget
        split at hmsg
        · cases List.mem_singleton.1 hmsg
          cases heq
          exact hget
        · exact absurd hmsg List.not_mem_nil
      · exact absurd hmsg List.not_mem_nil
    cases hsession : task.target.sessionId with
    | none => exact .inl rfl
    | some own =>
      have hown : own.inner ∈ s.knownSessions slot := by
        refine mem_knownSessions.2 (.inr (.inr ?_))
        rw [course_of_task htask, hstopped, hsession]
      have hsame := h.single slot _ (mem_knownSessions.2 (.inl hslot)) _ hown
      refine .inr (congrArg some ?_)
      cases own
      cases sessionId
      exact congrArg SessionId.mk hsame.symm
  reported := fun hpanicked slot task htask hstopped =>
    h.reported hpanicked slot _ ((course_of_task htask).trans (by rw [hstopped]))

/-! ### What the moves keep -/

/-- Nothing that the tables, the tasks and the messages say of sessions has changed. -/
theorem Tracked.of_same (h : Tracked s) (hrouted : s'.router.Routed)
    (hsessions : s'.router.sessions = s.router.sessions)
    (hids : s'.router.sessionIdToSlot = s.router.sessionIdToSlot)
    (hpanicked : s'.router.panicked = s.router.panicked) (hlifecycle : s'.lifecycle = s.lifecycle)
    (hcourse : s'.course = s.course) : Tracked s' := by
  have hknown : s'.knownSessions = s.knownSessions := by
    funext slot
    rw [knownSessions, hids, hlifecycle, hcourse]
    rfl
  constructor
  · exact hrouted
  · rw [hids, hsessions]
    exact h.sessions
  · rw [hlifecycle, hsessions]
    exact h.attached
  · rw [hlifecycle]
    exact h.order
  · rw [hknown]
    exact h.single
  · rw [hpanicked, hcourse, hsessions, hlifecycle]
    exact h.reported

theorem Tracked.same_registry (h : Tracked s) (hsame : s.router.SameRegistry s'.router)
    (hlifecycle : s'.lifecycle = s.lifecycle) (hcourse : s'.course = s.course) : Tracked s' :=
  h.of_same (h.routed.of_same (Router.sameSlots_of_eq hsame.targetIdToSlot hsame.sessions hsame.nextSlot hsame.panicked))
    hsame.sessions hsame.sessionIdToSlot hsame.panicked hlifecycle hcourse

/-- A task goes on with its session. -/
theorem Tracked.rests (h : Tracked s) {slot : UInt16} {task task' : SessionTask}
    (htask : s.tasks.get slot = some task) (hrests : task.Rests task') :
    Tracked (s.afterTask slot task task') := by
  refine h.of_same h.routed rfl rfl rfl ?_ ?_
  · have hnew : task'.toRouter.drop task.toRouter.length = [] := by simp [hrests.toRouter]
    simp only [afterTask, hnew, List.foldl_nil]
  · funext x
    rw [course_afterTask]
    split
    · rename_i hsame
      rw [hsame, course_of_task htask, hrests.stopped, hrests.session]
    · rfl

/-- The router learns that a slot has a session, and the slot has no other. -/
theorem Tracked.register (h : Tracked s) {slot : UInt16} {sid : String}
    (hentry : (s.router.sessions.get slot).isSome = true) (honly : ∀ other ∈ s.knownSessions slot, other = sid)
    {lifecycle : List SessionToRouter} (hsub : lifecycle.Sublist s.lifecycle)
    (hreported : ∀ x, .detached x ∈ s.lifecycle → .detached x ∈ lifecycle) :
    Tracked { s with
      lifecycle := lifecycle
      router := { s.router with
        sessions := s.router.sessions.update slot fun entry => { entry with sessionId := some sid }
        sessionIdToSlot := s.router.sessionIdToSlot.set sid slot } } := by
  have hsome : ∀ x, ((s.router.sessions.update slot fun entry => { entry with sessionId := some sid }).get x).isSome =
      (s.router.sessions.get x).isSome := by
    intro x
    rw [Table.get_update]
    split
    · exact Option.isSome_map
    · rfl
  have hknown : ∀ x, ∀ other ∈ knownSessions { s with
      lifecycle := lifecycle
      router := { s.router with
        sessions := s.router.sessions.update slot fun entry => { entry with sessionId := some sid }
        sessionIdToSlot := s.router.sessionIdToSlot.set sid slot } } x,
      (x = slot ∧ other = sid) ∨ other ∈ s.knownSessions x := by
    intro x other hother
    rcases mem_knownSessions.1 hother with hget | hmsg | hcourse
    · simp only [Table.get_set] at hget
      split at hget
      · rename_i hsame
        cases hget
        exact .inl ⟨rfl, hsame⟩
      · exact .inr (mem_knownSessions.2 (.inl hget))
    · exact .inr (mem_knownSessions.2 (.inr (.inl (hsub.subset hmsg))))
    · exact .inr (mem_knownSessions.2 (.inr (.inr hcourse)))
  constructor
  · exact h.routed.of_same (s.router.sameSlots_sessionAttached slot sid)
  · intro other x hget
    simp only [Table.get_set] at hget
    simp only [Table.get_update]
    split at hget
    · rename_i hsame
      cases hget
      obtain ⟨entry, hentry⟩ := Option.isSome_iff_exists.1 hentry
      exact ⟨_, by rw [if_pos rfl, hentry, Option.map_some], congrArg some hsame.symm⟩
    · rename_i hother
      have hne : x ≠ slot := by
        rintro rfl
        exact hother (honly other (mem_knownSessions.2 (.inl hget)))
      rw [if_neg hne]
      exact h.sessions other x hget
  · intro x other hmsg
    exact (hsome x).trans (h.attached x other (hsub.subset hmsg))
  · exact h.order.sublist hsub
  · intro x a ha c hc
    rcases hknown x a ha with ⟨rfl, rfl⟩ | ha'
    · rcases hknown x c hc with ⟨_, rfl⟩ | hc'
      · rfl
      · exact (honly c hc').symm
    · rcases hknown x c hc with ⟨rfl, rfl⟩ | hc'
      · exact honly a ha'
      · exact h.single x a ha' c hc'
  · intro hpanicked x session hcourse hregistered
    exact hreported x (h.reported hpanicked x session hcourse ((hsome x).symm.trans hregistered))

/-- A session is removed, with all that leads to it. -/
theorem Tracked.forgets (h : Tracked s) {slot : UInt16} {entry : SessionEntry} {rest : List SessionToRouter}
    (hlifecycle : s.lifecycle = .detached slot :: rest) (hentry : s.router.sessions.get slot = some entry) :
    Tracked { s with lifecycle := rest, router := s.router.forget slot } := by
  have horder := h.order
  rw [hlifecycle, List.pairwise_cons] at horder
  have hsessions : ∀ x, (s.router.forget slot).sessions.get x =
      if x = slot then none else s.router.sessions.get x := by
    intro x
    simp only [Router.forget, Router.removeSession, hentry]
    exact Table.get_remove _ _ _
  have hids : ∀ sid x, (s.router.forget slot).sessionIdToSlot.get sid = some x →
      s.router.sessionIdToSlot.get sid = some x ∧ entry.sessionId ≠ some sid := by
    intro sid x hget
    simp only [Router.forget, Router.removeSession, hentry] at hget
    split at hget
    · rename_i own hown
      rw [Table.get_remove] at hget
      split at hget
      · cases hget
      · rename_i hother
        refine ⟨hget, fun heq => hother ?_⟩
        rw [hown] at heq
        exact (Option.some.inj heq).symm
    · rename_i hnone
      exact ⟨hget, fun heq => by rw [hnone] at heq; cases heq⟩
  constructor
  · have hremoved := h.routed.removeSession slot
    exact ⟨hremoved.slot_iff, hremoved.givenOut⟩
  · intro sid x hget
    obtain ⟨hold, hne⟩ := hids sid x hget
    obtain ⟨other, hother, hsession⟩ := h.sessions sid x hold
    refine ⟨other, ?_, hsession⟩
    show (s.router.forget slot).sessions.get x = some other
    rw [hsessions, if_neg, hother]
    rintro rfl
    rw [hentry] at hother
    cases hother
    exact hne hsession
  · intro x sid hmsg
    show ((s.router.forget slot).sessions.get x).isSome = true
    rw [hsessions, if_neg]
    · exact h.attached x sid (hlifecycle ▸ List.mem_cons_of_mem _ hmsg)
    · rintro rfl
      exact horder.1 _ hmsg x sid rfl rfl
  · exact horder.2
  · have hknown : ∀ x, ∀ sid ∈ knownSessions { s with lifecycle := rest, router := s.router.forget slot } x,
        sid ∈ s.knownSessions x := by
      intro x sid hsid
      rcases mem_knownSessions.1 hsid with hget | hmsg | hcourse
      · exact mem_knownSessions.2 (.inl (hids sid x hget).1)
      · exact mem_knownSessions.2 (.inr (.inl (hlifecycle ▸ List.mem_cons_of_mem _ hmsg)))
      · exact mem_knownSessions.2 (.inr (.inr hcourse))
    exact fun x sid hsid other hother => h.single x sid (hknown x sid hsid) other (hknown x other hother)
  · intro hpanicked x session hcourse hregistered
    have hregistered : ((s.router.forget slot).sessions.get x).isSome = true := hregistered
    rw [hsessions] at hregistered
    split at hregistered
    · cases hregistered
    · rename_i hne
      have hrunning : s.router.panicked = false := by
        rw [← hpanicked]
        simp only [Router.forget, Router.removeSession, hentry]
      have hmsg := h.reported hrunning x session hcourse hregistered
      rw [hlifecycle, List.mem_cons] at hmsg
      rcases hmsg with heq | hmsg
      · cases heq
        exact absurd rfl hne
      · exact hmsg

/-- A message of a task that the router has removed already. -/
theorem Tracked.ignores (h : Tracked s) {slot : UInt16} {rest : List SessionToRouter}
    (hlifecycle : s.lifecycle = .detached slot :: rest) (hentry : s.router.sessions.get slot = none) :
    Tracked { s with lifecycle := rest } := by
  have hsub : rest.Sublist s.lifecycle := by
    rw [hlifecycle]
    exact List.sublist_cons_self _ _
  have hknown : ∀ x, ∀ sid ∈ knownSessions { s with lifecycle := rest } x, sid ∈ s.knownSessions x := by
    intro x sid hsid
    rcases mem_knownSessions.1 hsid with hget | hmsg | hcourse
    · exact mem_knownSessions.2 (.inl hget)
    · exact mem_knownSessions.2 (.inr (.inl (hsub.subset hmsg)))
    · exact mem_knownSessions.2 (.inr (.inr hcourse))
  constructor
  · exact h.routed
  · exact h.sessions
  · exact fun x sid hmsg => h.attached x sid (hsub.subset hmsg)
  · exact h.order.sublist hsub
  · exact fun x sid hsid other hother => h.single x sid (hknown x sid hsid) other (hknown x other hother)
  · intro hpanicked x session hcourse hregistered
    have hmsg := h.reported hpanicked x session hcourse hregistered
    rw [hlifecycle, List.mem_cons] at hmsg
    rcases hmsg with heq | hmsg
    · cases heq
      have hregistered : (s.router.sessions.get slot).isSome = true := hregistered
      rw [hentry] at hregistered
      cases hregistered
    · exact hmsg

/-- A task that takes the answer to its attachment, while its slot is known by no other session. -/
theorem Tracked.stores (h : Tracked s) (hstaffed : s.Staffed) {slot : UInt16} {task task' : SessionTask}
    (htask : s.tasks.get slot = some task) (hstopped : task.stopped = false) {sessionId : SessionId}
    (honly : ∀ other ∈ s.knownSessions slot, other = sessionId.inner) (hstopped' : task'.stopped = false)
    (hsession : task'.target.sessionId = some sessionId)
    (htoRouter : task'.toRouter = if task.sessionIdReported then task.toRouter
      else task.toRouter ++ [.sessionAttached task.slot sessionId.inner]) :
    Tracked (s.afterTask slot task task') := by
  have hlive : s.live slot = true := live_iff.2 ⟨task, htask, hstopped⟩
  have hslot : task.slot = slot := (hstaffed.slots slot task htask).1
  have hlifecycle : (s.afterTask slot task task').lifecycle = s.lifecycle ∨
      (s.afterTask slot task task').lifecycle = s.lifecycle ++ [.sessionAttached slot sessionId.inner] := by
    simp only [afterTask, htoRouter]
    split
    · simp
    · simp only [List.drop_left, List.foldl_cons, List.foldl_nil, trySend, hslot]
      split
      · exact .inr rfl
      · exact .inl rfl
  have hmsgs : ∀ msg ∈ (s.afterTask slot task task').lifecycle,
      msg ∈ s.lifecycle ∨ msg = .sessionAttached slot sessionId.inner := by
    intro msg hmsg
    rcases hlifecycle with heq | heq
    · exact .inl (heq ▸ hmsg)
    · rw [heq, List.mem_append, List.mem_singleton] at hmsg
      exact hmsg
  have hknown : ∀ x, ∀ sid ∈ (s.afterTask slot task task').knownSessions x,
      (x = slot ∧ sid = sessionId.inner) ∨ sid ∈ s.knownSessions x := by
    intro x sid hsid
    rcases mem_knownSessions.1 hsid with hget | hmsg | hcourse
    · exact .inr (mem_knownSessions.2 (.inl hget))
    · rcases hmsgs _ hmsg with hmsg | heq
      · exact .inr (mem_knownSessions.2 (.inr (.inl hmsg)))
      · cases heq
        exact .inl ⟨rfl, rfl⟩
    · rw [course_afterTask] at hcourse
      split at hcourse
      · rename_i hsame
        rw [hstopped', hsession] at hcourse
        cases hcourse
        exact .inl ⟨hsame, rfl⟩
      · exact .inr (mem_knownSessions.2 (.inr (.inr hcourse)))
  constructor
  · exact h.routed
  · exact h.sessions
  · intro x sid hmsg
    rcases hmsgs _ hmsg with hmsg | heq
    · exact h.attached x sid hmsg
    · cases heq
      exact hstaffed.registered slot hlive
  · rcases hlifecycle with heq | heq
    · rw [heq]
      exact h.order
    · rw [heq, List.pairwise_append]
      refine ⟨h.order, List.pairwise_singleton _ _, fun earlier hearlier later hlater x sid hx hother => ?_⟩
      -- The task runs, so it has not said that it is gone.
      rw [List.mem_singleton.1 hlater] at hother
      cases hother
      rw [hx] at hearlier
      rw [not_live_of_gone (hstaffed.detached slot hearlier)] at hlive
      cases hlive
  · intro x a ha c hc
    rcases hknown x a ha with ⟨rfl, rfl⟩ | ha'
    · rcases hknown x c hc with ⟨_, rfl⟩ | hc'
      · rfl
      · exact (honly c hc').symm
    · rcases hknown x c hc with ⟨rfl, rfl⟩ | hc'
      · exact honly a ha'
      · exact h.single x a ha' c hc'
  · intro hpanicked x session hcourse hregistered
    rw [course_afterTask] at hcourse
    split at hcourse
    · rw [hstopped'] at hcourse
      cases hcourse
    · have hmsg := h.reported hpanicked x session hcourse hregistered
      rcases hlifecycle with heq | heq
      · rw [heq]
        exact hmsg
      · rw [heq]
        exact List.mem_append_left _ hmsg

/-- A task leaves its loop, and its last message finds room. -/
theorem Tracked.shutdown (h : Tracked s) (hstaffed : s.Staffed) {slot : UInt16} {task : SessionTask}
    (htask : s.tasks.get slot = some task) (hstopped : task.stopped = false)
    (hroom : s.router.panicked = false → s.lifecycle.length < sessionLifecycleCapacity) :
    Tracked (s.afterTask slot task (task.step .shutdown)) := by
  obtain ⟨replies, hstep⟩ := task.step_shutdown hstopped
  have hslot : task.slot = slot := (hstaffed.slots slot task htask).1
  have hlifecycle : (s.afterTask slot task (task.step .shutdown)).lifecycle =
      trySend s.lifecycle (.detached slot) := by
    simp only [afterTask, hstep, List.drop_left, List.foldl_cons, List.foldl_nil, hslot]
  have hmsgs : ∀ x sid, .sessionAttached x sid ∈ trySend s.lifecycle (.detached slot) →
      .sessionAttached x sid ∈ s.lifecycle := by
    intro x sid hmsg
    unfold trySend at hmsg
    split at hmsg
    · rw [List.mem_append, List.mem_singleton] at hmsg
      exact hmsg.resolve_right (by simp)
    · exact hmsg
  have hknown : ∀ x, ∀ sid ∈ (s.afterTask slot task (task.step .shutdown)).knownSessions x,
      sid ∈ s.knownSessions x := by
    intro x sid hsid
    rcases mem_knownSessions.1 hsid with hget | hmsg | hcourse
    · exact mem_knownSessions.2 (.inl hget)
    · rw [hlifecycle] at hmsg
      exact mem_knownSessions.2 (.inr (.inl (hmsgs x sid hmsg)))
    · rw [course_afterTask] at hcourse
      split at hcourse
      · rw [hstep] at hcourse
        cases hcourse
      · exact mem_knownSessions.2 (.inr (.inr hcourse))
  constructor
  · exact h.routed
  · exact h.sessions
  · intro x sid hmsg
    rw [hlifecycle] at hmsg
    exact h.attached x sid (hmsgs x sid hmsg)
  · rw [hlifecycle]
    unfold trySend
    split
    · rw [List.pairwise_append]
      refine ⟨h.order, List.pairwise_singleton _ _, fun earlier _ later hlater x sid _ hother => ?_⟩
      rw [List.mem_singleton.1 hlater] at hother
      cases hother
    · exact h.order
  · exact fun x sid hsid other hother => h.single x sid (hknown x sid hsid) other (hknown x other hother)
  · intro hpanicked x session hcourse hregistered
    rw [hlifecycle, trySend, if_pos (hroom hpanicked), List.mem_append]
    rw [course_afterTask] at hcourse
    split at hcourse
    · rename_i hsame
      rw [hsame]
      exact .inr (List.mem_singleton_self _)
    · exact .inl (h.reported hpanicked x session hcourse hregistered)

/-- The router does something that leaves its tables and its tasks as they are. -/
theorem Tracked.serves (h : Tracked s) {r : Router} (hsame : s.router.SameRegistry r) :
    Tracked (s.afterRouter r) := by
  refine h.same_registry (by rwa [router_afterRouter]) (lifecycle_afterRouter s r) ?_
  funext x
  rw [course, tasks_afterRouter_of_spawned hsame.spawned, course]

theorem Tracked.does (h : Tracked s) (party : UInt16) (doing : Doing) : Tracked (s.does party doing) :=
  h.of_same h.routed rfl rfl rfl rfl rfl

/-- A target that the router did not know gets a slot that no session is known by. -/
theorem Tracked.created (h : Tracked s) (info : TargetInfo) :
    Tracked (s.afterRouter (s.router.onTargetCreated info)) := by
  have hrouted := h.routed.onTargetCreated info
  cases hknown : s.router.targetIdToSlot.get info.targetId with
  | some slot =>
    rw [Router.onTargetCreated_of_known hknown]
    exact h.serves (.refl _)
  | none =>
    by_cases hslot : s.router.nextSlot = 65535
    · rw [Router.onTargetCreated_of_full hknown hslot] at hrouted ⊢
      have hcourse : (s.afterRouter { s.router with panicked := true }).course = s.course := by
        funext x
        rw [course, @tasks_afterRouter_of_spawned s { s.router with panicked := true } rfl, course]
      have hknows : (s.afterRouter { s.router with panicked := true }).knownSessions = s.knownSessions := by
        funext x
        rw [knownSessions, hcourse, lifecycle_afterRouter, router_afterRouter]
        rfl
      constructor
      · rwa [router_afterRouter]
      · rw [router_afterRouter]
        exact h.sessions
      · rw [router_afterRouter, lifecycle_afterRouter]
        exact h.attached
      · rw [lifecycle_afterRouter]
        exact h.order
      · rw [hknows]
        exact h.single
      · rw [router_afterRouter]
        exact nofun
    · obtain ⟨context, toSessions, heq, _⟩ := Router.onTargetCreated_of_unknown hknown hslot
      rw [heq] at hrouted ⊢
      have hfresh : (s.router.sessions.get s.router.nextSlot).isSome = false := by
        cases hentry : s.router.sessions.get s.router.nextSlot with
        | none => rfl
        | some entry =>
          have howner : s.router.owner s.router.nextSlot = some entry.targetId := by
            rw [Router.owner, hentry, Option.map_some]
          exact absurd (h.routed.givenOut _ _ howner) (UInt16.lt_irrefl _)
      have hnew : ∀ x, (s.router.sessions.get x).isSome = true → x ≠ s.router.nextSlot := by
        rintro x hx rfl
        rw [hfresh] at hx
        cases hx
      have hsessions : ∀ sid x, s.router.sessionIdToSlot.get sid = some x → x ≠ s.router.nextSlot := by
        intro sid x hget
        obtain ⟨entry, hentry, _⟩ := h.sessions sid x hget
        exact hnew x (by rw [hentry]; rfl)
      generalize hr : ({ s.router with
          nextSlot := s.router.nextSlot + 1
          targetIdToSlot := s.router.targetIdToSlot.set info.targetId s.router.nextSlot
          pendingInitiators := s.router.pendingInitiators.remove info.targetId
          pendingInitiatorTs := s.router.pendingInitiatorTs.remove info.targetId
          sessions := s.router.sessions.set s.router.nextSlot ⟨info.targetId, none⟩
          spawned := s.router.spawned ++ [(s.router.nextSlot, info, context)]
          toSessions := toSessions } : Router) = r at hrouted ⊢
      have hcourse : ∀ x, (s.afterRouter r).course x =
          if x = s.router.nextSlot then some (false, none) else s.course x := by
        intro x
        rw [course, tasks_afterRouter, ← hr, List.drop_left]
        simp only [spawn, List.foldl_cons, List.foldl_nil, Table.get_set]
        split
        · rfl
        · rfl
      have hknows : ∀ x, ∀ sid ∈ (s.afterRouter r).knownSessions x, sid ∈ s.knownSessions x := by
        intro x sid hsid
        rcases mem_knownSessions.1 hsid with hget | hmsg | hdriven
        · rw [router_afterRouter, ← hr] at hget
          exact mem_knownSessions.2 (.inl hget)
        · rw [lifecycle_afterRouter] at hmsg
          exact mem_knownSessions.2 (.inr (.inl hmsg))
        · rw [hcourse] at hdriven
          split at hdriven
          · cases hdriven
          · exact mem_knownSessions.2 (.inr (.inr hdriven))
      have hentries : ∀ x, x ≠ s.router.nextSlot → r.sessions.get x = s.router.sessions.get x := by
        intro x hx
        rw [← hr]
        exact Table.get_set_of_ne _ _ hx
      constructor
      · rwa [router_afterRouter]
      · intro sid x hget
        rw [router_afterRouter] at hget ⊢
        rw [← hr] at hget
        rw [hentries x (hsessions sid x hget)]
        exact h.sessions sid x hget
      · intro x sid hmsg
        rw [lifecycle_afterRouter] at hmsg
        have hold := h.attached x sid hmsg
        rw [router_afterRouter, hentries x (hnew x hold)]
        exact hold
      · rw [lifecycle_afterRouter]
        exact h.order
      · exact fun x sid hsid other hother => h.single x sid (hknows x sid hsid) other (hknows x other hother)
      · intro hpanicked x session hdone hregistered
        rw [router_afterRouter] at hpanicked hregistered
        rw [lifecycle_afterRouter]
        rw [hcourse] at hdone
        split at hdone
        · cases hdone
        · rename_i hother
          rw [hentries x hother] at hregistered
          rw [← hr] at hpanicked
          exact h.reported hpanicked x session hdone hregistered

theorem Tracked.attaches (h : Tracked s) {ev : EventAttachedToTarget} (hidle : s.idle = true)
    (horderly : s.Orderly (.event ⟨.targetAttachedToTarget ev, none⟩)) :
    Tracked (s.afterRouter (s.router.onAttachedToTarget ev)) := by
  unfold Router.onAttachedToTarget
  cases hslot : s.router.targetIdToSlot.get ev.targetInfo.targetId with
  | none => exact h.serves (.refl _)
  | some slot =>
    have hentry : (s.router.sessions.get slot).isSome = true := h.followed.targets _ _ hslot
    have hattaches : s.attaches (.event ⟨.targetAttachedToTarget ev, none⟩) = some (slot, ev.sessionId.inner) := by
      simp only [System.attaches, hidle, hslot, Option.map_some]
    have honly := horderly.1
    rw [hattaches] at honly
    have hregistered := h.register hentry (honly _ (List.mem_singleton_self _)) (.refl _) fun _ hmsg => hmsg
    refine hregistered.of_same ?_ ?_ ?_ ?_ ?_ ?_
    · rw [router_afterRouter]
      exact hregistered.routed
    · rw [router_afterRouter]
    · rw [router_afterRouter]
    · rw [router_afterRouter]
    · rw [lifecycle_afterRouter]
    · funext x
      rw [course, tasks_afterRouter, List.drop_length]
      rfl

/-- A task takes what is in its inbox. -/
theorem Tracked.input (h : Tracked s) (hstaffed : s.Staffed) {slot : UInt16} {env : Env} {task : SessionTask}
    {msg : RouterToSession} {rest : List RouterToSession} (hidle : s.idleTask slot = some task)
    (hinbox : s.inboxes slot = msg :: rest) (horderly : s.Orderly (.receive slot env)) :
    Tracked (s.afterTask slot task (task.step (msg.toInput env))) := by
  obtain ⟨htask, hstopped, _⟩ := idleTask_eq_some hidle
  cases msg with
  | response callId resp method =>
    have hstep : task.step (.response env callId resp) = task.onResponse env callId resp := by
      simp only [SessionTask.step, hstopped, Bool.false_eq_true, if_false]
    have hcontinues := task.continues_onResponse env callId resp
    have htarget := task.onResponse_target env callId resp
    rw [RouterToSession.toInput, hstep]
    cases hstores : task.stores env callId resp with
    | none =>
      rw [hstores] at htarget
      obtain ⟨hsame, hsession, htoRouter⟩ := htarget
      exact h.rests htask ⟨hcontinues.slot, hcontinues.stopped, htoRouter, hsession, hsame⟩
    | some sessionId =>
      rw [hstores] at htarget
      obtain ⟨_, hsession, htoRouter⟩ := htarget
      have hattaches : s.attaches (.receive slot env) = some (slot, sessionId.inner) := by
        simp only [System.attaches, hidle, hinbox, hstores, Option.map_some]
      have honly := horderly.1
      rw [hattaches] at honly
      exact h.stores hstaffed htask hstopped (honly _ (List.mem_singleton_self _))
        (hcontinues.stopped.trans hstopped) hsession htoRouter
  | event event => exact h.rests htask (task.rests_event env event)
  | setInitiator tx =>
    refine h.of_same h.routed rfl rfl rfl ?_ ?_
    · simp [afterTask, SessionTask.step, hstopped, RouterToSession.toInput]
    · funext x
      rw [course_afterTask]
      split
      · rename_i hsame
        rw [hsame, course_of_task htask]
        simp only [SessionTask.step, hstopped, RouterToSession.toInput, Bool.false_eq_true, if_false]
        rfl
      · rfl
  | shutdown =>
    refine h.shutdown hstaffed htask hstopped fun hrunning => horderly.2 ?_ hrunning
    simp only [exits, hidle, hinbox]

theorem Tracked.finishes (h : Tracked s) (hstaffed : s.Staffed) {party : UInt16} {stage : Switchboard.Stage}
    {callId : CallId} {work : Work} (hdoing : s.doing party = .submits stage callId work) (accepted : Bool) :
    Tracked (s.finish party accepted callId work) := by
  obtain ⟨rfl, call, now, rfl⟩ | ⟨event, now, task, _, rfl, _, htask, _⟩ := hstaffed.submits hdoing
  · have hentered : Tracked { s with
        router := s.router.enter accepted callId call now
        entered := if accepted then s.entered ++ [(callId, 0)] else s.entered } :=
      h.same_registry (s.router.sameRegistry_enter accepted callId call now) rfl rfl
    exact hentered.does _ _
  · have hentered : Tracked { s with
        entered := if accepted then s.entered ++ [(callId, party)] else s.entered } :=
      h.of_same h.routed rfl rfl rfl rfl rfl
    simp only [finish, htask]
    exact (hentered.rests htask (task.rests_onTargetEvent accepted callId now event)).does _ _

theorem Tracked.happens (h : Tracked s) (hstaffed : s.Staffed) (hhappens : Happens s move s')
    (horderly : s.Orderly move) : Tracked s' := by
  cases hhappens with
  | nothing => exact h
  | calls hidle hcall => exact h.of_same (h.routed.of_same (Router.sameSlots_of_eq rfl rfl rfl rfl)) rfl rfl rfl rfl rfl
  | @hears msg now hidle hcall =>
    have hasked : Tracked { s with asked := s.askedAfter msg } := h.of_same h.routed rfl rfl rfl rfl rfl
    exact hasked.serves (s.router.sameRegistry_onBrowserMessage hcall _).1
  | reads hidle => exact h.of_same (h.routed.of_same (Router.sameSlots_of_eq rfl rfl rfl rfl)) rfl rfl rfl rfl rfl
  | handsOn hdoing => exact (h.serves (s.router.sameRegistry_toSlot _ _)).does _ _
  | @answers decoders now resp hdoing =>
    have hassigned : Tracked { s with
        handed := if (s.router.pending.get resp.id).isSome then s.handed ++ [(resp.id, 0)] else s.handed
        assigned := s.assigned ++ assigns s.router decoders resp } := h.of_same h.routed rfl rfl rfl rfl rfl
    exact (hassigned.serves (s.router.sameRegistry_handleRouterResponse _ _ _ _)).does _ _
  | @event event hidle =>
    obtain ⟨slot, msg, heq, _⟩ | ⟨info, _, heq⟩ | ⟨ev, rfl, heq⟩ | heq := s.router.onEvent_cases event
    · rw [heq]
      exact h.serves (s.router.sameRegistry_toSlot _ _)
    · rw [heq]
      exact h.created info
    · rw [heq]
      exact h.attaches hidle horderly
    · rw [heq]
      exact h.serves (.refl _)
  | @attached slot sid rest hidle hlifecycle =>
    have hmem : .sessionAttached slot sid ∈ s.lifecycle := hlifecycle ▸ List.mem_cons_self
    refine h.register (h.attached slot sid hmem) (fun other hother => ?_) ?_ fun x hx => ?_
    · exact h.single slot other hother sid (mem_knownSessions.2 (.inr (.inl hmem)))
    · rw [hlifecycle]
      exact List.sublist_cons_self _ _
    · rw [hlifecycle, List.mem_cons] at hx
      exact hx.resolve_left nofun
  | forgets hidle hlifecycle hentry => exact (h.forgets hlifecycle hentry).does _ _
  | ignores hidle hlifecycle hentry => exact h.ignores hlifecycle hentry
  | dropsRoutes hdoing =>
    exact h.of_same (h.routed.of_same (Router.sameSlots_of_eq rfl rfl rfl rfl)) rfl rfl rfl rfl rfl
  | evicts hidle =>
    exact h.same_registry (s.router.sameRegistry_evictRouterPending _ s.router.config.requestTimeout).1 rfl rfl
  | routes hdoing =>
    exact h.of_same (h.routed.of_same (Router.sameSlots_of_eq rfl rfl rfl rfl)) rfl rfl rfl rfl rfl
  | writes hdoing => exact h.of_same h.routed rfl rfl rfl rfl rfl
  | refuses hdoing => exact h.finishes hstaffed hdoing false
  | enters hdoing => exact h.finishes hstaffed hdoing true
  | @fetches slot env now task event hidle hevent hcalls =>
    have hadvanced := h.rests (idleTask_eq_some hidle).1 (task.rests_advanced env now)
    exact hadvanced.of_same (hadvanced.routed.of_same (Router.sameSlots_of_eq rfl rfl rfl rfl)) rfl rfl rfl rfl rfl
  | @turns slot env now task event hidle hevent hcalls =>
    have hadvanced := h.rests (idleTask_eq_some hidle).1 (task.rests_advanced env now)
    exact hadvanced.rests (Table.get_set_self _ _ _) (SessionTask.rests_onTargetEvent _ _ _ _ _)
  | @rests slot env now task hidle hevent =>
    exact h.rests (idleTask_eq_some hidle).1 (task.rests_advanced env now)
  | receives hidle hinbox => exact (h.input hstaffed hidle hinbox horderly).of_same h.routed rfl rfl rfl rfl rfl
  | orphaned hidle hinbox hpanicked =>
    obtain ⟨htask, hstopped, _⟩ := idleTask_eq_some hidle
    refine (h.shutdown hstaffed htask hstopped fun hrunning => ?_).of_same h.routed rfl rfl rfl rfl rfl
    rw [hpanicked] at hrunning
    cases hrunning
  | choosesStale hidle => exact h.does _ _
  | takesRoute hdoing =>
    exact h.of_same (h.routed.of_same (Router.sameSlots_of_eq rfl rfl rfl rfl)) rfl rfl rfl rfl rfl
  | timesOut hdoing htask => exact (h.rests htask (SessionTask.rests_timeOut _ _)).does _ _
  | pageMessage htask => exact h.rests htask (SessionTask.rests_pageMessage _ _)
  | drainsPage hidle => exact h.rests (idleTask_eq_some hidle).1 (SessionTask.rests_drainPage _)

/-! ### Runs -/

theorem tracked_start (config : HandlerConfig) (context : BrowserContext) (bootMethod : MethodId)
    (nextCallId : Nat) (now : Instant) : Tracked (start config context bootMethod nextCallId now) where
  routed := Router.routed_new config context ⟨nextCallId - 1⟩ bootMethod nextCallId now
  sessions := nofun
  attached := fun _ _ hmsg => absurd hmsg List.not_mem_nil
  order := List.Pairwise.nil
  single := fun _ _ hsid => absurd hsid List.not_mem_nil
  reported := fun _ _ _ hcourse => by cases hcourse

/-- As long as no target is attached by a second session and the last message of a task finds room, the tables follow the tasks, whatever the parties do and in whatever order. -/
theorem followed_of_run (config : HandlerConfig) (context : BrowserContext) (bootMethod : MethodId)
    (nextCallId : Nat) (now : Instant) {moves : List Move}
    (horderly : Run.Allowed step Orderly (start config context bootMethod nextCallId now) moves) :
    Run.Always step Followed (start config context bootMethod nextCallId now) moves := by
  have hkept := Run.always_of_allowed
    (fun s move (h : s.Staffed ∧ Tracked s) hmove =>
      ⟨h.1.step move, h.2.happens h.1 (s.happens move) hmove⟩)
    ⟨staffed_start config context bootMethod nextCallId now,
      tracked_start config context bootMethod nextCallId now⟩ horderly
  exact hkept.mono fun s h => h.2.followed

/-- A target is announced, attached, detached and removed. -/
def attachedOnce : List Move :=
  [.event ⟨.targetTargetCreated ⟨Handler.plainTarget, "page", none, none⟩, none⟩,
    .event ⟨.targetAttachedToTarget ⟨⟨"session"⟩, ⟨Handler.plainTarget, "page", none, none⟩, false⟩, none⟩,
    .event ⟨.targetDetachedFromTarget ⟨"session"⟩, none⟩,
    .receive 1 Handler.plainEnv, .hear, .dropRoutes]

theorem followed_of_run_attachedOnce :
    let start := start Handler.plainConfig ⟨none⟩ "Target.setDiscoverTargets" 2 0
    (Run.final step start (attachedOnce.take 2)).router.sessionIdToSlot.get "session" = some 1 ∧
      (Run.final step start attachedOnce).router.sessionIdToSlot.get "session" = none ∧
      Run.Always step Followed start attachedOnce := by
  have hattached : (Run.final step (start Handler.plainConfig ⟨none⟩ "Target.setDiscoverTargets" 2 0)
      (attachedOnce.take 2)).router.sessionIdToSlot.get "session" = some 1 := by
    decide +kernel
  have hremoved : (Run.final step (start Handler.plainConfig ⟨none⟩ "Target.setDiscoverTargets" 2 0)
      attachedOnce).router.sessionIdToSlot.get "session" = none := by
    decide +kernel
  exact ⟨hattached, hremoved, followed_of_run Handler.plainConfig ⟨none⟩ "Target.setDiscoverTargets" 2 0
    (by decide +kernel)⟩

/-- A target is announced, attached twice and destroyed. -/
def attachedTwice : List Move :=
  [.event ⟨.targetTargetCreated ⟨Handler.plainTarget, "page", none, none⟩, none⟩,
    .event ⟨.targetAttachedToTarget ⟨⟨"first"⟩, ⟨Handler.plainTarget, "page", none, none⟩, false⟩, none⟩,
    .event ⟨.targetAttachedToTarget ⟨⟨"second"⟩, ⟨Handler.plainTarget, "page", none, none⟩, false⟩, none⟩,
    .event ⟨.targetTargetDestroyed Handler.plainTarget, none⟩,
    .receive 1 Handler.plainEnv, .hear]

/-- The first session of the target still leads to the slot, which is in use no longer. -/
theorem not_followed_attachedTwice :
    ¬ Run.Always step Followed (start Handler.plainConfig ⟨none⟩ "Target.setDiscoverTargets" 2 0)
      attachedTwice := by
  intro halways
  have hleads : (Run.final step (start Handler.plainConfig ⟨none⟩ "Target.setDiscoverTargets" 2 0)
      attachedTwice).router.sessionIdToSlot.get "first" = some 1 := by
    decide +kernel
  have hunused : ((Run.final step (start Handler.plainConfig ⟨none⟩ "Target.setDiscoverTargets" 2 0)
      attachedTwice).router.sessions.get 1).isSome = false := by
    decide +kernel
  have hused := halways.last.sessions "first" 1 hleads
  rw [hunused] at hused
  cases hused

end System

end SpiderChrome
