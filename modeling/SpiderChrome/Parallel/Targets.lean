import SpiderChrome.Handler.Pass
import SpiderChrome.Parallel.Routing

/-!
# The targets of the two handlers

A target that is announced again changes nothing in the router, which has a task for it. So as long as the handler admits every target, and no session is detached, which is the end of a task but not of a target, the handler and the router have the same targets after every sequence of events, once the tasks that were told to shut down have said that they did.
-/

namespace SpiderChrome

namespace Router

/-- The slots of the tasks that were told to shut down in a step. -/
def shutDowns (r r' : Router) : List UInt16 :=
  (r'.toSessions.drop r.toSessions.length).filterMap fun sent =>
    match sent.2 with
    | .shutdown => some sent.1
    | _ => none

/-- The router takes an event, and the tasks that it shuts down say that they are gone. -/
def hear (r : Router) (event : CdpEventMessage) : Router :=
  (shutDowns r (r.step (.event event))).foldl (fun r slot => r.step (.lifecycle (.detached slot)))
    (r.step (.event event))

variable {r r' : Router}

/-! ### What an event does to the targets -/

theorem step_event (hrunning : r.panicked = false) (event : CdpEventMessage) :
    r.step (.event event) = r.onEvent event := by
  simp only [step, hrunning, Bool.false_eq_true, if_false]

theorem step_detached (hrunning : r.panicked = false) (slot : UInt16) :
    r.step (.lifecycle (.detached slot)) = r.removeSession slot := by
  simp only [step, hrunning, Bool.false_eq_true, if_false, onLifecycle]

theorem shutDowns_of_append {msgs : List (UInt16 × RouterToSession)}
    (hsent : r'.toSessions = r.toSessions ++ msgs) :
    shutDowns r r' = msgs.filterMap fun sent =>
      match sent.2 with
      | .shutdown => some sent.1
      | _ => none := by
  rw [shutDowns, hsent, List.drop_left]

/-- An event that shuts no task down is just taken. -/
theorem hear_of_no_shutDown (event : CdpEventMessage)
    (hnone : shutDowns r (r.step (.event event)) = []) : r.hear event = r.step (.event event) := by
  rw [hear, hnone, List.foldl_nil]

theorem toSlot_cases (r : Router) (slot : Option UInt16) (msg : RouterToSession) :
    (r.toSlot slot msg = r ∧ ∀ s, slot = some s → r.owner s = none) ∨
      ∃ s targetId, slot = some s ∧ r.owner s = some targetId ∧ r.toSlot slot msg = r.toSession s msg := by
  cases slot with
  | none => exact .inl ⟨rfl, nofun⟩
  | some s =>
    cases hentry : r.sessions.get s with
    | none =>
      refine .inl ⟨by simp only [toSlot, hentry], fun x hx => ?_⟩
      cases hx
      rw [owner, hentry, Option.map_none]
    | some entry =>
      exact .inr ⟨s, entry.targetId, rfl, by rw [owner, hentry, Option.map_some],
        by simp only [toSlot, hentry]⟩

/-- A message that shuts nothing down. -/
theorem hear_toSlot {event : CdpEventMessage} {slot : Option UInt16} {msg : RouterToSession}
    (hstep : r.step (.event event) = r.toSlot slot msg) (hmsg : msg ≠ .shutdown) :
    SameSlots r (r.hear event) := by
  have hnone : shutDowns r (r.step (.event event)) = [] := by
    rw [hstep]
    obtain ⟨hsame, _⟩ | ⟨s, _, _, _, hsent⟩ := r.toSlot_cases slot msg
    · rw [hsame, shutDowns_of_append (List.append_nil _).symm]
      rfl
    · have hlast : (r.toSession s msg).toSessions = r.toSessions ++ [(s, msg)] := rfl
      rw [hsent, shutDowns_of_append hlast]
      cases msg with
      | shutdown => exact absurd rfl hmsg
      | _ => rfl
  rw [hear_of_no_shutDown event hnone, hstep]
  exact r.sameSlots_toSlot slot msg

/-- A message that shuts down the task in a slot, if there is one. -/
theorem hear_shutdown {event : CdpEventMessage} {slot : Option UInt16} (hrunning : r.panicked = false)
    (hstep : r.step (.event event) = r.toSlot slot .shutdown) :
    (SameSlots r (r.hear event) ∧ ∀ s, slot = some s → r.owner s = none) ∨
      ∃ s targetId, slot = some s ∧ r.owner s = some targetId ∧
        SameSlots (r.removeSession s) (r.hear event) := by
  obtain ⟨hsame, hnone⟩ | ⟨s, targetId, hslot, howner, hsent⟩ := r.toSlot_cases slot .shutdown
  · refine .inl ⟨?_, hnone⟩
    rw [hear_of_no_shutDown event (by rw [hstep, hsame, shutDowns_of_append (List.append_nil _).symm]; rfl),
      hstep, hsame]
    exact .refl r
  · refine .inr ⟨s, targetId, hslot, howner, ?_⟩
    have hlast : (r.toSession s .shutdown).toSessions = r.toSessions ++ [(s, .shutdown)] := rfl
    have hdown : shutDowns r (r.toSession s .shutdown) = [s] := shutDowns_of_append hlast
    rw [hear, hstep, hsent, hdown, List.foldl_cons, List.foldl_nil,
      step_detached (r := r.toSession s .shutdown) hrunning]
    obtain ⟨entry, hentry, _⟩ := Option.map_eq_some_iff.1 howner
    simp only [removeSession, toSession, hentry]
    exact sameSlots_of_eq rfl rfl rfl rfl

theorem Routed.hear (h : Routed r) (event : CdpEventMessage) : Routed (r.hear event) := by
  unfold Router.hear
  exact Run.invariant_of_step Routed (fun _ slot h => h.step (.lifecycle (.detached slot)))
    (h.step (.event event)) _

/-! ### The targets that have a slot -/

/-- After an event the router has a slot for these targets, and is still running. -/
def Knows (r : Router) (known : TargetId → Bool) : Prop :=
  r.panicked = false ∧ ∀ targetId, (r.targetIdToSlot.get targetId).isSome = known targetId

theorem SameSlots.knows (h : SameSlots r r') (hrunning : r.panicked = false) :
    r'.Knows fun targetId => (r.targetIdToSlot.get targetId).isSome :=
  ⟨h.panicked.trans hrunning, fun targetId => by rw [h.targetIdToSlot]⟩

theorem knows_hear_session (hrunning : r.panicked = false) (params : CdpEvent) (sid : String) :
    (r.hear ⟨params, some sid⟩).Knows fun targetId => (r.targetIdToSlot.get targetId).isSome := by
  have hstep : r.step (.event ⟨params, some sid⟩) =
      r.toSlot (r.sessionIdToSlot.get sid) (.event ⟨params, some sid⟩) := by
    rw [step_event hrunning]
    rfl
  exact (hear_toSlot hstep nofun).knows hrunning

/-- An event that sends nothing to any task. -/
theorem knows_hear_silent (hrunning : r.panicked = false) {event : CdpEventMessage}
    (hsame : SameSlots r (r.onEvent event)) (hsilent : (r.onEvent event).toSessions = r.toSessions) :
    (r.hear event).Knows fun targetId => (r.targetIdToSlot.get targetId).isSome := by
  have hstep := step_event hrunning event
  have hnone : shutDowns r (r.onEvent event) = [] := by
    rw [shutDowns_of_append (hsilent.trans (List.append_nil _).symm), List.filterMap_nil]
  rw [hear_of_no_shutDown event (hstep ▸ hnone), hstep]
  exact hsame.knows hrunning

theorem knows_hear_attached (hrunning : r.panicked = false) (ev : EventAttachedToTarget) :
    (r.hear ⟨.targetAttachedToTarget ev, none⟩).Knows fun targetId =>
      (r.targetIdToSlot.get targetId).isSome := by
  refine knows_hear_silent hrunning (r.sameSlots_onAttachedToTarget ev) ?_
  show (r.onAttachedToTarget ev).toSessions = r.toSessions
  unfold onAttachedToTarget
  split
  · rfl
  · rfl

theorem knows_hear_detached (hrunning : r.panicked = false) {sessionId : SessionId}
    (hnone : ∀ slot, r.sessionIdToSlot.get sessionId.inner = some slot → r.owner slot = none) :
    (r.hear ⟨.targetDetachedFromTarget sessionId, none⟩).Knows fun targetId =>
      (r.targetIdToSlot.get targetId).isSome := by
  have hevent : r.onEvent ⟨.targetDetachedFromTarget sessionId, none⟩ = r := by
    show r.toSlot (r.sessionIdToSlot.get sessionId.inner) .shutdown = r
    obtain ⟨hsame, _⟩ | ⟨slot, targetId, hslot, howner, _⟩ :=
      r.toSlot_cases (r.sessionIdToSlot.get sessionId.inner) .shutdown
    · exact hsame
    · rw [hnone slot hslot] at howner
      cases howner
  exact knows_hear_silent hrunning (hevent.symm ▸ .refl r) (congrArg Router.toSessions hevent)

theorem knows_hear_created (hrunning : r.panicked = false) (info : TargetInfo)
    (hslot : r.targetIdToSlot.get info.targetId = none → r.nextSlot ≠ 65535) :
    (r.hear ⟨.targetTargetCreated info, none⟩).Knows fun targetId =>
      decide (targetId = info.targetId) || (r.targetIdToSlot.get targetId).isSome := by
  have hstep : r.step (.event ⟨.targetTargetCreated info, none⟩) = r.onTargetCreated info := by
    rw [step_event hrunning]
    rfl
  cases hknown : r.targetIdToSlot.get info.targetId with
  | some slot =>
    have hnone : shutDowns r (r.onTargetCreated info) = [] := by
      rw [onTargetCreated_of_known hknown, shutDowns_of_append (List.append_nil _).symm]
      rfl
    rw [hear_of_no_shutDown _ (hstep ▸ hnone), hstep, onTargetCreated_of_known hknown]
    refine ⟨hrunning, fun targetId => ?_⟩
    by_cases hsame : targetId = info.targetId
    · simp [hsame, hknown]
    · simp [hsame]
  | none =>
    obtain ⟨context, toSessions, heq, hsent⟩ := onTargetCreated_of_unknown hknown (hslot hknown)
    have hnone : shutDowns r (r.onTargetCreated info) = [] := by
      rw [heq, shutDowns_of_append hsent]
      cases r.pendingInitiators.get info.targetId with
      | none => rfl
      | some tx => rfl
    rw [hear_of_no_shutDown _ (hstep ▸ hnone), hstep, heq]
    refine ⟨hrunning, fun targetId => ?_⟩
    simp only [Table.get_set]
    by_cases hsame : targetId = info.targetId
    · simp [hsame]
    · simp [hsame]

/-- The task of a target that is gone goes, if the router has one. -/
theorem knows_hear_gone (hrouted : Routed r) (hrunning : r.panicked = false) {event : CdpEventMessage}
    {gone : TargetId} (hstep : r.step (.event event) = r.onTargetGone gone) :
    (r.hear event).Knows fun targetId =>
      decide (targetId ≠ gone) && (r.targetIdToSlot.get targetId).isSome := by
  obtain ⟨hsame, hnone⟩ | ⟨slot, owned, hslot, howner, hsame⟩ := hear_shutdown hrunning hstep
  · have hunknown : r.targetIdToSlot.get gone = none := by
      cases hknown : r.targetIdToSlot.get gone with
      | none => rfl
      | some slot =>
        have howner := (hrouted.slot_iff gone slot).1 hknown
        rw [hnone slot hknown] at howner
        cases howner
    obtain ⟨hpanicked, hknows⟩ := hsame.knows hrunning
    refine ⟨hpanicked, fun targetId => ?_⟩
    rw [hknows targetId]
    by_cases hgone : targetId = gone
    · simp [hgone, hunknown]
    · simp [hgone]
  · have hgone := (hrouted.slot_iff gone slot).1 hslot
    obtain rfl : owned = gone := Option.some.inj (howner.symm.trans hgone)
    obtain ⟨hpanicked, hknows⟩ := hsame.knows ((r.removeSession_nextSlot slot).2.trans hrunning)
    refine ⟨hpanicked, fun targetId => ?_⟩
    rw [hknows targetId, removeSession_targetIdToSlot, howner]
    simp only [Table.get_remove]
    by_cases hother : targetId = owned
    · simp [hother]
    · simp [hother]

end Router

/-! ### The handler and the router -/

/-- The handler and the router take the same events. -/
def hearStep (driver : Driver) (state : Handler × Router) (input : Env × CdpEventMessage) :
    Handler × Router :=
  (state.1.step driver (.event input.1 input.2), state.2.hear input.2)

/-- The handler and the router have the same targets. -/
def SameTargets (state : Handler × Router) : Prop :=
  ∀ targetId, (state.1.targets.get targetId).isSome = (state.2.targetIdToSlot.get targetId).isSome

/-- The handler admits the target that an event announces, and the router has a slot for it. No task has the session that is detached. An event that names a session tells the handler of no target that comes or goes. -/
def HeardAlike (state : Handler × Router) (input : Env × CdpEventMessage) : Prop :=
  match input.2.sessionId, input.2.params with
  | none, .targetTargetCreated info =>
    state.1.admits info = true ∧
      (state.2.targetIdToSlot.get info.targetId = none → state.2.nextSlot ≠ 65535)
  | none, .targetDetachedFromTarget sessionId =>
    ∀ slot, state.2.sessionIdToSlot.get sessionId.inner = some slot → state.2.owner slot = none
  | none, _ => True
  | some _, _ =>
    state.1.announced (.event input.1 input.2) = [] ∧ state.1.removed (.event input.1 input.2) = none

/-- What an event tells the handler of targets that come and go it tells the router as well. -/
theorem knows_hear {h : Handler} {r : Router} (hrouted : r.Routed) (hrunning : r.panicked = false)
    (hsame : SameTargets (h, r)) (driver : Driver) {env : Env} {event : CdpEventMessage}
    (halike : HeardAlike (h, r) (env, event)) :
    (r.hear event).Knows fun targetId =>
      ((h.step driver (.event env event)).targets.get targetId).isSome := by
  obtain ⟨params, sessionId⟩ := event
  have hsame : ∀ targetId, (h.targets.get targetId).isSome = (r.targetIdToSlot.get targetId).isSome :=
    hsame
  simp only [Handler.isSome_step, hsame]
  cases sessionId with
  | some sid =>
    obtain ⟨hannounced, hremoved⟩ := halike
    simp only [hannounced, hremoved, List.map_nil, List.not_mem_nil, decide_false, Bool.false_or,
      ne_eq, reduceCtorEq, not_false_eq_true, decide_true, Bool.true_and]
    exact Router.knows_hear_session hrunning params sid
  | none =>
    have hfound : h.eventTarget ⟨params, none⟩ = none := rfl
    simp only [Handler.announced, Handler.removed, hfound]
    cases params with
    | targetTargetCreated info =>
      have hknows := Router.knows_hear_created hrunning info halike.2
      simpa [List.filter_cons_of_pos halike.1] using hknows
    | targetTargetDestroyed gone =>
      have hstep : r.step (.event ⟨.targetTargetDestroyed gone, none⟩) = r.onTargetGone gone :=
        Router.step_event hrunning _
      have hknows := Router.knows_hear_gone hrouted hrunning hstep
      simpa [eq_comm] using hknows
    | targetTargetCrashed ev =>
      have hstep : r.step (.event ⟨.targetTargetCrashed ev, none⟩) = r.onTargetGone ev.targetId :=
        Router.step_event hrunning _
      have hknows := Router.knows_hear_gone hrouted hrunning hstep
      simpa [eq_comm] using hknows
    | targetDetachedFromTarget sessionId =>
      simpa using Router.knows_hear_detached hrunning halike
    | targetAttachedToTarget ev =>
      simpa using Router.knows_hear_attached hrunning ev
    | _ =>
      simp only [List.map_nil, List.not_mem_nil, decide_false, Bool.false_or, ne_eq, reduceCtorEq,
        not_false_eq_true, decide_true, Bool.true_and]
      exact Router.knows_hear_silent hrunning (Router.SameSlots.refl r) rfl

/-- A repeated announcement changes nothing just where it changes nothing in the handler, and changes nothing in the router in any case; and after every sequence of events that the two hear alike they have the same targets. -/
theorem repeated_announcements_iff (driver : Driver) (config : HandlerConfig) (bootCallId : CallId)
    (bootMethod : MethodId) (nextCallId : Nat) (now : Instant) :
    (∀ inputs,
      Run.Allowed (Handler.passStep driver) (Handler.KeepsKnown driver) (.new config) inputs ∧
          Run.Always (Handler.passStep driver) Handler.IdsOnce (.new config) inputs ↔
        Run.Allowed (Handler.passStep driver) Handler.AnnouncesNew (.new config) inputs) ∧
    (∀ (r : Router) info, (r.targetIdToSlot.get info.targetId).isSome → r.onTargetCreated info = r) ∧
    ∀ events,
      let start := (Handler.new config,
        Router.new config (Handler.new config).defaultBrowserContext bootCallId bootMethod nextCallId now)
      Run.Allowed (hearStep driver) HeardAlike start events →
        Run.Always (hearStep driver) SameTargets start events := by
  refine ⟨fun inputs => Handler.announcements_iff driver config inputs, fun r info hknown => ?_,
    fun events => ?_⟩
  · obtain ⟨slot, hslot⟩ := Option.isSome_iff_exists.1 hknown
    exact Router.onTargetCreated_of_known hslot
  · intro start hallowed
    have hkept : Run.Always (hearStep driver) (fun state =>
        SameTargets state ∧ state.2.Routed ∧ state.2.panicked = false) start events := by
      refine Run.always_of_allowed ?_ ⟨fun _ => rfl, Router.routed_new _ _ _ _ _ _, rfl⟩ hallowed
      rintro ⟨h, r⟩ ⟨env, event⟩ ⟨hsame, hrouted, hrunning⟩ halike
      obtain ⟨hpanicked, hknows⟩ := knows_hear hrouted hrunning hsame driver halike
      exact ⟨fun targetId => (hknows targetId).symm, hrouted.hear event, hpanicked⟩
    exact hkept.mono fun _ h => h.1

/-- A target is announced twice and destroyed, and is unknown to both handlers in the end. -/
theorem repeated_announcements_iff_twice :
    let created := (Handler.plainEnv,
      CdpEventMessage.mk (.targetTargetCreated ⟨Handler.plainTarget, "page", none, none⟩) none)
    SameTargets (Run.final (hearStep .run)
      (Handler.new Handler.plainConfig, Router.new Handler.plainConfig ⟨none⟩ ⟨0⟩ "boot" 1 0)
      [created, created, (Handler.plainEnv, ⟨.targetTargetDestroyed Handler.plainTarget, none⟩)]) := by
  intro created
  have halike := (repeated_announcements_iff .run Handler.plainConfig ⟨0⟩ "boot" 1 0).2.2
    [created, created, (Handler.plainEnv, ⟨.targetTargetDestroyed Handler.plainTarget, none⟩)]
  exact (halike ⟨⟨rfl, fun _ => by decide⟩, ⟨rfl, fun _ => by decide⟩, trivial, trivial⟩).last

/-- A page that is announced again loses its session, and the list of ids has it twice. -/
theorem announced_twice_forgets :
    let created : PassInput := .input (.event Handler.plainEnv
      ⟨.targetTargetCreated ⟨Handler.plainTarget, "page", none, none⟩, none⟩)
    let opened := Run.final (Handler.passStep .run) (.new Handler.plainConfig)
      (Handler.openPage.map .input)
    ¬ Handler.KeepsKnown .run opened created ∧ ¬ Handler.IdsOnce (Handler.passStep .run opened created) := by
  intro created opened
  have hsession : (opened.targets.get Handler.plainTarget).map Target.sessionId =
      some (some ⟨"session"⟩) := by decide +kernel
  have hforgot : ((Handler.passStep .run opened created).targets.get Handler.plainTarget).map
      Target.sessionId = some none := by decide +kernel
  have htwice : (Handler.passStep .run opened created).targetIds.count Handler.plainTarget = 2 := by
    decide +kernel
  have htold : (⟨Handler.plainTarget, "page", none, none⟩ : TargetInfo) ∈ opened.told
      (.event Handler.plainEnv
        ⟨.targetTargetCreated ⟨Handler.plainTarget, "page", none, none⟩, none⟩) :=
    List.mem_singleton_self _
  obtain ⟨after, hafter, hnone⟩ := Option.map_eq_some_iff.1 hforgot
  refine ⟨fun hkeeps => ?_, fun honce => ?_⟩
  · obtain ⟨target, htarget, hsome⟩ := Option.map_eq_some_iff.1 hsession
    obtain ⟨target', htarget', _, _, hsame, _⟩ := hkeeps _ htold target htarget
    obtain rfl : after = target' := Option.some.inj (hafter.symm.trans htarget')
    rw [hnone, hsome] at hsame
    cases hsame
  · rw [honce _ after hafter] at htwice
    cases htwice

end SpiderChrome
