import SpiderChrome.Handler.Registry
import SpiderChrome.Target.Keeps

/-!
# Sessions and their targets

Several sessions may be attached to one target, which remembers one of them. When a session goes, the target forgets its session whether or not it is that one; when a target goes, only the session that it remembers goes with it. So a live page can be left without a session, and the table keeps sessions of targets that are gone. `session_table_iff` says exactly which inputs do no such harm.
-/

namespace SpiderChrome

namespace Handler

/-- The targets that are gone after an input: those that were there and were removed, until they are announced again. -/
def goneAfter (h : Handler) (gone : Finset TargetId) (input : HandlerInput) : Finset TargetId :=
  (match h.removed input with
    | some targetId => if (h.targets.get targetId).isSome then insert targetId gone else gone
    | none => gone) \ ((h.announced input).map TargetInfo.targetId).toFinset

/-- A step of a handler, with the targets that are gone. -/
def sessionStep (driver : Driver) (state : Handler × Finset TargetId) (input : HandlerInput) :
    Handler × Finset TargetId :=
  (state.1.step driver input, goneAfter state.1 state.2 input)

/-- A detached session leaves the session of every target that has another one, or none. -/
def DetachLeavesOthers (driver : Driver) (state : Handler × Finset TargetId) : HandlerInput → Prop
  | .event env ⟨.targetDetachedFromTarget sessionId, outer⟩ =>
    ∀ targetId target, state.1.targets.get targetId = some target →
      target.sessionId ≠ some sessionId →
      ((state.1.step driver (.event env ⟨.targetDetachedFromTarget sessionId, outer⟩)).targets.get
        targetId).map Target.sessionId = some target.sessionId
  | _ => True

/-- The table has no session of a target that is gone. -/
def NoSessionOfGone (state : Handler × Finset TargetId) : Prop :=
  ∀ sessionId session, state.1.sessions.get sessionId = some session → session.targetId ∉ state.2

/-! ### What an input has to heed -/

/-- Every session of the target is the one that it remembers. -/
def RemembersAll (h : Handler) (targetId : TargetId) : Prop :=
  ∀ target, h.targets.get targetId = some target → ∀ sessionId session,
    h.sessions.get sessionId = some session → session.targetId = targetId →
      target.sessionId = some sessionId

/-- A session that goes is the one that its target remembers, unless that remembers none; a target that goes remembers all its sessions; and no session is attached to a target that is gone. -/
def InStep (state : Handler × Finset TargetId) : HandlerInput → Prop
  | .event _ event =>
    state.1.eventTarget event = none →
      match event.params with
      | .targetDetachedFromTarget sessionId =>
        ∀ session target, state.1.sessions.get sessionId = some session →
          state.1.targets.get session.targetId = some target →
            target.sessionId = some sessionId ∨ target.sessionId = none
      | .targetTargetDestroyed targetId => RemembersAll state.1 targetId
      | .targetTargetCrashed ev => RemembersAll state.1 ev.targetId
      | .targetAttachedToTarget ev => ev.targetInfo.targetId ∉ state.2
      | _ => True
  | _ => True

/-! ### A session that goes -/

variable {h : Handler} {gone : Finset TargetId} {driver : Driver}

/-- The session of a target that is neither put in place afresh nor removed. -/
theorem sessionId_step {input : HandlerInput} {targetId : TargetId}
    (hannounced : h.announced input = []) (hremoved : h.removed input = none) :
    ((h.step driver input).targets.get targetId).map Target.sessionId =
      (h.targets.get targetId).map fun target =>
        (h.delivered driver targetId input).elim target.sessionId target.sessionAfter := by
  rw [get_step, placed_of_delivered hannounced hremoved rfl, Option.map_map]
  refine congrArg (fun f => (h.targets.get targetId).map f) (funext fun target => ?_)
  rw [Function.comp_apply]
  cases h.delivered driver targetId input with
  | none => rfl
  | some delivered => exact target.sessionId_take delivered

theorem detachLeavesOthers_iff (driver : Driver) (state : Handler × Finset TargetId) (env : Env)
    (sessionId : SessionId) (outer : Option String) :
    DetachLeavesOthers driver state (.event env ⟨.targetDetachedFromTarget sessionId, outer⟩) ↔
      InStep state (.event env ⟨.targetDetachedFromTarget sessionId, outer⟩) := by
  obtain ⟨h, gone⟩ := state
  have hafter : ∀ targetId target, h.targets.get targetId = some target →
      ((h.step driver (.event env ⟨.targetDetachedFromTarget sessionId, outer⟩)).targets.get
        targetId).map Target.sessionId = some ((h.delivered driver targetId
          (.event env ⟨.targetDetachedFromTarget sessionId, outer⟩)).elim target.sessionId
            target.sessionAfter) := by
    intro targetId target htarget
    rw [sessionId_step, htarget, Option.map_some]
    · simp only [announced]
      split
      · rename_i hparams
        cases hparams
      · rfl
    · simp only [removed]
      split
      · rename_i hparams
        cases hparams
      · rename_i hparams
        cases hparams
      · rfl
  simp only [DetachLeavesOthers, InStep]
  cases hfound : h.eventTarget ⟨.targetDetachedFromTarget sessionId, outer⟩ with
  | some found =>
    -- The target whose session the event names takes it, and keeps its session.
    refine ⟨fun _ => (by simp), fun _ targetId target htarget _ => ?_⟩
    rw [hafter targetId target htarget]
    simp only [delivered, hfound]
    split
    · rfl
    · rfl
  | none =>
    have hdelivered : ∀ targetId, h.delivered driver targetId
        (.event env ⟨.targetDetachedFromTarget sessionId, outer⟩) =
          if (h.sessions.get sessionId).map Session.targetId = some targetId then some .detached
          else none := by
      intro targetId
      simp only [delivered, hfound]
    constructor
    · intro hleaves _ session target hsession htarget
      by_cases hown : target.sessionId = some sessionId
      · exact .inl hown
      · have hkept := hleaves session.targetId target htarget hown
        rw [hafter _ _ htarget, hdelivered, hsession, Option.map_some, if_pos rfl] at hkept
        exact .inr (Option.some.inj hkept).symm
    · intro hstep targetId target htarget hother
      rw [hafter _ _ htarget, hdelivered]
      split
      · rename_i hsame
        obtain ⟨session, hsession, rfl⟩ := Option.map_eq_some_iff.1 hsame
        obtain hown | hnone := hstep rfl session target hsession htarget
        · exact absurd hown hother
        · rw [hnone]
          rfl
      · rfl

/-! ### A target that goes -/

theorem sessionsWithout_of_get {targetId : TargetId} {target : Target}
    (htarget : h.targets.get targetId = some target) (x : SessionId) :
    (h.sessionsWithout targetId).get x =
      if target.sessionId = some x then none else h.sessions.get x := by
  simp only [sessionsWithout, htarget]
  cases target.sessionId with
  | none => rfl
  | some session =>
    simp only [Table.get_remove, Option.some.injEq, @eq_comm _ session]

/-- What is left in the table after a target is removed. -/
theorem noSessionOfGone_removed_iff {targetId : TargetId} (hnone : NoSessionOfGone (h, gone)) :
    (∀ sessionId session, (h.sessionsWithout targetId).get sessionId = some session →
      session.targetId ∉ if (h.targets.get targetId).isSome then insert targetId gone else gone) ↔
      RemembersAll h targetId := by
  cases htarget : h.targets.get targetId with
  | none =>
    have hsame : h.sessionsWithout targetId = h.sessions := by simp only [sessionsWithout, htarget]
    rw [hsame]
    constructor
    · intro _ target hget
      rw [htarget] at hget
      cases hget
    · intro _
      exact hnone
  | some target =>
    simp only [Option.isSome_some, if_true, Finset.mem_insert, not_or,
      sessionsWithout_of_get htarget]
    constructor
    · intro hleft target' hget sessionId session hsession hof
      rw [htarget] at hget
      cases hget
      by_contra hother
      exact (hleft sessionId session ((if_neg hother).trans hsession)).1 hof
    · intro hall sessionId session hsession
      split at hsession
      · cases hsession
      · rename_i hother
        exact ⟨fun hof => hother (hall target htarget sessionId session hsession hof),
          hnone sessionId session hsession⟩

/-! ### A step -/

/-- An input that leaves the table alone and removes nothing. -/
theorem noSessionOfGone_of_same {input : HandlerInput} (hnone : NoSessionOfGone (h, gone))
    (hsessions : (h.step driver input).sessions = h.sessions) (hremoved : h.removed input = none) :
    NoSessionOfGone (sessionStep driver (h, gone) input) := by
  intro sessionId session hget
  simp only [sessionStep, goneAfter, hremoved, Finset.mem_sdiff, not_and_or] at hget ⊢
  rw [hsessions] at hget
  exact .inl (hnone sessionId session hget)

/-- The events that the handler takes itself. -/
theorem noSessionOfGone_event_iff (hnone : NoSessionOfGone (h, gone)) (hbytes : h.remainingBytes = none)
    (env : Env) (event : CdpEventMessage) (hfound : h.eventTarget event = none)
    (hdetached : ∀ sessionId, event.params ≠ .targetDetachedFromTarget sessionId) :
    NoSessionOfGone (sessionStep driver (h, gone) (.event env event)) ↔
      InStep (h, gone) (.event env event) := by
  have hsessions : (h.step driver (.event env event)).sessions = h.sessionsAfter (.event env event) :=
    sessions_step hbytes driver (.event env event)
  obtain ⟨params, outer⟩ := event
  simp only [NoSessionOfGone, sessionStep, hsessions, InStep, hfound, forall_const]
  cases params with
  | targetDetachedFromTarget sessionId => exact absurd rfl (hdetached sessionId)
  | targetTargetDestroyed targetId =>
    simp only [sessionsAfter, goneAfter, removed, announced, hfound, List.map_nil, List.toFinset_nil,
      Finset.sdiff_empty]
    exact noSessionOfGone_removed_iff hnone
  | targetTargetCrashed ev =>
    simp only [sessionsAfter, goneAfter, removed, announced, hfound, List.map_nil, List.toFinset_nil,
      Finset.sdiff_empty]
    exact noSessionOfGone_removed_iff hnone
  | targetAttachedToTarget ev =>
    simp only [sessionsAfter, goneAfter, removed, announced, hfound, List.map_nil, List.toFinset_nil,
      Finset.sdiff_empty, Table.get_set]
    constructor
    · intro hleft
      exact hleft ev.sessionId _ (if_pos rfl)
    · intro hthere sessionId session hsession
      split at hsession
      · exact Option.some.inj hsession ▸ hthere
      · exact hnone sessionId session hsession
  | targetTargetCreated targetInfo =>
    simp only [sessionsAfter, goneAfter, removed, hfound, iff_true, Finset.mem_sdiff, not_and_or]
    exact fun sessionId session hsession => .inl (hnone sessionId session hsession)
  | _ =>
    simp only [sessionsAfter, goneAfter, removed, announced, hfound, List.map_nil, List.toFinset_nil,
      Finset.sdiff_empty, iff_true]
    exact hnone

theorem inStep_event_iff (hnone : NoSessionOfGone (h, gone)) (hbytes : h.remainingBytes = none)
    (env : Env) (event : CdpEventMessage) :
    DetachLeavesOthers driver (h, gone) (.event env event) ∧
        NoSessionOfGone (sessionStep driver (h, gone) (.event env event)) ↔
      InStep (h, gone) (.event env event) := by
  obtain ⟨params, outer⟩ := event
  by_cases hdetached : ∃ sessionId, params = .targetDetachedFromTarget sessionId
  · obtain ⟨sessionId, rfl⟩ := hdetached
    rw [detachLeavesOthers_iff, and_iff_left]
    -- A session leaves the table, and no target does.
    intro x session hget
    simp only [sessionStep, goneAfter, removed, sessions_step hbytes, sessionsAfter] at hget ⊢
    cases hfound : h.eventTarget ⟨.targetDetachedFromTarget sessionId, outer⟩ with
    | some found =>
      simp only [hfound, Finset.mem_sdiff, not_and_or] at hget ⊢
      exact .inl (hnone x session hget)
    | none =>
      simp only [hfound, Finset.mem_sdiff, not_and_or] at hget ⊢
      exact .inl (hnone x session (Table.remove_sub _ _ _ _ hget))
  · have hothers : ∀ sessionId, params ≠ .targetDetachedFromTarget sessionId :=
      fun sessionId heq => hdetached ⟨sessionId, heq⟩
    have hleaves : DetachLeavesOthers driver (h, gone) (.event env ⟨params, outer⟩) := by
      cases params with
      | targetDetachedFromTarget sessionId => exact absurd rfl (hothers sessionId)
      | _ => trivial
    rw [and_iff_right hleaves]
    cases hfound : h.eventTarget ⟨params, outer⟩ with
    | none => exact noSessionOfGone_event_iff hnone hbytes env _ hfound hothers
    | some found =>
      have hsame : NoSessionOfGone (sessionStep driver (h, gone) (.event env ⟨params, outer⟩)) :=
        noSessionOfGone_of_same hnone
          ((sessions_step hbytes driver _).trans (by simp only [sessionsAfter, hfound]))
          (by simp only [removed, hfound])
      simp only [hsame, InStep, hfound, reduceCtorEq, false_implies]

/-- An input does no harm to the session table just when it is in step. -/
theorem inStep_iff (hnone : NoSessionOfGone (h, gone)) (hbytes : h.remainingBytes = none)
    (input : HandlerInput) :
    DetachLeavesOthers driver (h, gone) input ∧
        NoSessionOfGone (sessionStep driver (h, gone) input) ↔ InStep (h, gone) input := by
  cases input with
  | event env event => exact inStep_event_iff hnone hbytes env event
  | _ =>
    refine iff_of_true ⟨trivial, noSessionOfGone_of_same hnone ?_ rfl⟩ trivial
    exact sessions_step hbytes driver _

/-! ### A run -/

/-- Over any run, no session that goes takes the session of its target along that is another one, and the table has no session of a target that is gone, just when every input is in step. -/
theorem session_table_iff (driver : Driver) (config : HandlerConfig) (inputs : List HandlerInput) :
    Run.Allowed (sessionStep driver) (DetachLeavesOthers driver) (new config, ∅) inputs ∧
        Run.Always (sessionStep driver) NoSessionOfGone (new config, ∅) inputs ↔
      Run.Allowed (sessionStep driver) InStep (new config, ∅) inputs := by
  refine Run.allowed_and_always_iff_allowed (fun state => state.1.remainingBytes = none) ?_ ?_ rfl ?_
    inputs
  · intro state input hbytes
    exact remainingBytes_step hbytes driver input
  · intro state input hbytes hnone
    exact inStep_iff hnone hbytes input
  · intro sessionId session hsession
    rw [show (new config).sessions = ∅ from rfl, Table.get_empty] at hsession
    cases hsession

/-- An event that names no session. -/
def topEvent (params : CdpEvent) : HandlerInput := .event plainEnv ⟨params, none⟩

/-- A page with two sessions, of which it remembers the second. -/
def twoSessions : List HandlerInput :=
  let info : TargetInfo := ⟨plainTarget, "page", none, none⟩
  [topEvent (.targetTargetCreated info), topEvent (.targetAttachedToTarget ⟨⟨"1"⟩, info, false⟩),
    topEvent (.targetAttachedToTarget ⟨⟨"2"⟩, info, false⟩)]

/-- When the first session goes, the page forgets the second; when the page goes, the first session stays. -/
theorem two_sessions_out_of_step :
    let opened := Run.final (sessionStep .run) (new plainConfig, ∅) twoSessions
    ¬ DetachLeavesOthers .run opened (topEvent (.targetDetachedFromTarget ⟨"1"⟩)) ∧
      ¬ NoSessionOfGone (sessionStep .run opened (topEvent (.targetTargetDestroyed plainTarget))) := by
  intro opened
  have hsession : (opened.1.targets.get plainTarget).map Target.sessionId = some (some ⟨"2"⟩) := by
    decide +kernel
  have hdetached : ((opened.1.step .run (topEvent (.targetDetachedFromTarget ⟨"1"⟩))).targets.get
      plainTarget).map Target.sessionId = some none := by decide +kernel
  have hleft : ((sessionStep .run opened (topEvent (.targetTargetDestroyed plainTarget))).1.sessions.get
      ⟨"1"⟩).map Session.targetId = some plainTarget := by decide +kernel
  have hgone : plainTarget ∈
      (sessionStep .run opened (topEvent (.targetTargetDestroyed plainTarget))).2 := by decide +kernel
  refine ⟨fun hleaves => ?_, fun hnone => ?_⟩
  · obtain ⟨target, htarget, htwo⟩ := Option.map_eq_some_iff.1 hsession
    have hkept := hleaves plainTarget target htarget (by rw [htwo]; decide)
    rw [htwo] at hkept
    have hforgot := hdetached.symm.trans hkept
    cases hforgot
  · obtain ⟨session, hget, hof⟩ := Option.map_eq_some_iff.1 hleft
    exact hnone _ session hget (hof ▸ hgone)

end Handler

end SpiderChrome
