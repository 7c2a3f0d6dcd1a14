import SpiderChrome.Parallel.Router

/-!
# The targets of the router

The router finds the task of a target by its slot. A target that it knows has exactly one slot, whose task is the target's, and a slot is never given out twice. So the table of slots changes in two places only: where a target that has no slot is announced, and where a task tells that it is gone.
-/

namespace SpiderChrome

namespace Router

variable {r r' r'' : Router}

/-- The target of the task in a slot. -/
def owner (r : Router) (slot : UInt16) : Option TargetId :=
  (r.sessions.get slot).map SessionEntry.targetId

/-- A target has a slot just when the task in it is the target's, and the slots in use were given out. -/
structure Routed (r : Router) : Prop where
  slot_iff : ∀ targetId slot, r.targetIdToSlot.get targetId = some slot ↔ r.owner slot = some targetId
  givenOut : ∀ slot targetId, r.owner slot = some targetId → slot < r.nextSlot

/-- Two routers that give every target the same slot. -/
structure SameSlots (r r' : Router) : Prop where
  targetIdToSlot : r'.targetIdToSlot = r.targetIdToSlot
  owner : ∀ slot, r'.owner slot = r.owner slot
  nextSlot : r'.nextSlot = r.nextSlot
  panicked : r'.panicked = r.panicked

theorem SameSlots.refl (r : Router) : SameSlots r r := ⟨rfl, fun _ => rfl, rfl, rfl⟩

theorem SameSlots.trans (h : SameSlots r r') (h' : SameSlots r' r'') : SameSlots r r'' where
  targetIdToSlot := h'.targetIdToSlot.trans h.targetIdToSlot
  owner := fun slot => (h'.owner slot).trans (h.owner slot)
  nextSlot := h'.nextSlot.trans h.nextSlot
  panicked := h'.panicked.trans h.panicked

theorem Routed.of_same (h : Routed r) (hsame : SameSlots r r') : Routed r' where
  slot_iff := by
    intro targetId slot
    rw [hsame.targetIdToSlot, hsame.owner]
    exact h.slot_iff targetId slot
  givenOut := by
    intro slot targetId howner
    rw [hsame.owner] at howner
    rw [hsame.nextSlot]
    exact h.givenOut slot targetId howner

/-! ### What leaves the slots alone -/

theorem sameSlots_of_eq (hslots : r'.targetIdToSlot = r.targetIdToSlot)
    (hsessions : r'.sessions = r.sessions) (hnext : r'.nextSlot = r.nextSlot)
    (hpanicked : r'.panicked = r.panicked) : SameSlots r r' where
  targetIdToSlot := hslots
  owner := fun slot => by rw [owner, owner, hsessions]
  nextSlot := hnext
  panicked := hpanicked

/-- A task that gets another session keeps its target. -/
theorem owner_update_sessionId (r : Router) (changed : UInt16) (sessionId : Option String)
    (slot : UInt16) :
    ((r.sessions.update changed fun entry => { entry with sessionId := sessionId }).get slot).map
      SessionEntry.targetId = r.owner slot := by
  rw [Table.get_update]
  split
  · rw [Option.map_map]
    rfl
  · rfl

theorem sameSlots_toSlot (r : Router) (slot : Option UInt16) (msg : RouterToSession) :
    SameSlots r (r.toSlot slot msg) := by
  unfold toSlot
  split
  · split
    · exact sameSlots_of_eq rfl rfl rfl rfl
    · exact .refl r
  · exact .refl r

theorem sameSlots_handleRouterResponse (r : Router) (decoders : Decoders) (now : Instant)
    (callId : CallId) (resp : Response) :
    SameSlots r (r.handleRouterResponse decoders now callId resp) := by
  simp only [handleRouterResponse]
  split
  · split
    · exact sameSlots_of_eq rfl rfl rfl rfl
    · exact sameSlots_of_eq rfl rfl rfl rfl
    · split
      · split
        · split
          · exact sameSlots_of_eq rfl rfl rfl rfl
          · exact sameSlots_of_eq rfl rfl rfl rfl
        · exact sameSlots_of_eq rfl rfl rfl rfl
      · exact sameSlots_of_eq rfl rfl rfl rfl
  · exact .refl r

theorem sameSlots_onResponse (r : Router) (decoders : Decoders) (now : Instant) (resp : Response) :
    SameSlots r (r.onResponse decoders now resp) := by
  have hroute : SameSlots r { r with ids := (r.ids.takeRoute resp.id).1 } :=
    sameSlots_of_eq rfl rfl rfl rfl
  simp only [onResponse]
  split
  · split
    · exact hroute.trans (sameSlots_of_eq rfl rfl rfl rfl)
    · exact hroute
  · exact hroute.trans (sameSlots_handleRouterResponse _ decoders now resp.id resp)

theorem sameSlots_onAttachedToTarget (r : Router) (event : EventAttachedToTarget) :
    SameSlots r (r.onAttachedToTarget event) := by
  unfold onAttachedToTarget
  split
  · exact ⟨rfl, r.owner_update_sessionId _ _, rfl, rfl⟩
  · exact .refl r

theorem sameSlots_submit (r : Router) (accepted : Bool) (req : Request) (tx : Sender)
    (refusal : Reply) (pending : RouterPending) (now : Instant) :
    SameSlots r (r.submit accepted req tx refusal pending now) := by
  simp only [submit]
  split
  · exact sameSlots_of_eq rfl rfl rfl rfl
  · exact sameSlots_of_eq rfl rfl rfl rfl

theorem sameSlots_onBrowserMessage (r : Router) (accepted : Bool) (msg : HandlerMessage)
    (now : Instant) : SameSlots r (r.onBrowserMessage accepted msg now) := by
  cases msg with
  | createPage params tx =>
    simp only [onBrowserMessage, createPage]
    split
    · exact r.sameSlots_submit _ _ _ _ _ _
    · exact sameSlots_of_eq rfl rfl rfl rfl
  | command cmd => exact r.sameSlots_submit _ _ _ _ _ _
  | _ => exact sameSlots_of_eq rfl rfl rfl rfl

theorem sameSlots_timeOut (r : Router) (callId : CallId) : SameSlots r (r.timeOut callId) := by
  simp only [timeOut]
  split
  · split
    · exact sameSlots_of_eq rfl rfl rfl rfl
    · exact sameSlots_of_eq rfl rfl rfl rfl
    · exact sameSlots_of_eq rfl rfl rfl rfl
  · exact .refl r

theorem sameSlots_timeOutInitiator (r : Router) (targetId : TargetId) :
    SameSlots r (r.timeOutInitiator targetId) := by
  simp only [timeOutInitiator]
  split
  · exact sameSlots_of_eq rfl rfl rfl rfl
  · exact sameSlots_of_eq rfl rfl rfl rfl

theorem sameSlots_evictRouterPending (r : Router) (now : Instant) (requestTimeout : Duration) :
    SameSlots r (r.evictRouterPending now requestTimeout) := by
  simp only [evictRouterPending]
  split
  · exact .refl r
  · exact (Run.foldl_rel .refl .trans sameSlots_timeOut r _).trans
      (Run.foldl_rel .refl .trans sameSlots_timeOutInitiator _ _)

theorem sameSlots_sessionAttached (r : Router) (slot : UInt16) (sessionId : String) :
    SameSlots r (r.onLifecycle (.sessionAttached slot sessionId)) :=
  ⟨rfl, r.owner_update_sessionId _ _, rfl, rfl⟩

/-! ### A target that comes -/

theorem onTargetCreated_of_known {info : TargetInfo} {slot : UInt16}
    (hknown : r.targetIdToSlot.get info.targetId = some slot) : r.onTargetCreated info = r := by
  rw [onTargetCreated, hknown]
  rfl

/-- What the router does with a target that it does not know while it has a slot left. -/
theorem onTargetCreated_of_unknown {info : TargetInfo}
    (hunknown : r.targetIdToSlot.get info.targetId = none) (hslot : r.nextSlot ≠ 65535) :
    ∃ context toSessions, r.onTargetCreated info = { r with
        nextSlot := r.nextSlot + 1
        targetIdToSlot := r.targetIdToSlot.set info.targetId r.nextSlot
        pendingInitiators := r.pendingInitiators.remove info.targetId
        pendingInitiatorTs := r.pendingInitiatorTs.remove info.targetId
        sessions := r.sessions.set r.nextSlot ⟨info.targetId, none⟩
        spawned := r.spawned ++ [(r.nextSlot, info, context)]
        toSessions := toSessions } ∧
      toSessions = r.toSessions ++
        (r.pendingInitiators.get info.targetId).toList.map fun tx => (r.nextSlot, .setInitiator tx) := by
  unfold onTargetCreated
  simp only [hunknown, Option.isSome_none, Bool.false_eq_true, if_false, hslot]
  cases r.pendingInitiators.get info.targetId with
  | none => exact ⟨_, _, rfl, (List.append_nil _).symm⟩
  | some tx => exact ⟨_, _, rfl, rfl⟩

/-- The slot of a new task is its target's, and the other tasks stay where they are. -/
theorem owner_onTargetCreated {info : TargetInfo} (hunknown : r.targetIdToSlot.get info.targetId = none)
    (hslot : r.nextSlot ≠ 65535) (slot : UInt16) :
    (r.onTargetCreated info).owner slot = if slot = r.nextSlot then some info.targetId else r.owner slot := by
  obtain ⟨context, toSessions, heq, _⟩ := onTargetCreated_of_unknown hunknown hslot
  rw [heq]
  simp only [owner, Table.get_set]
  split
  · rfl
  · rfl

theorem onTargetCreated_of_full {info : TargetInfo}
    (hunknown : r.targetIdToSlot.get info.targetId = none) (hslot : r.nextSlot = 65535) :
    r.onTargetCreated info = { r with panicked := true } := by
  unfold onTargetCreated
  simp only [hunknown, Option.isSome_none, Bool.false_eq_true, if_false, hslot, if_true]

theorem lt_nextSlot_succ {slot next : UInt16} (h : slot < next ∨ slot = next) (hnext : next ≠ 65535) :
    slot < next + 1 := by
  have hmax : next.toNat ≠ 65535 := fun heq => hnext (UInt16.toNat_inj.1 heq)
  have hlt := next.toNat_lt
  rw [UInt16.lt_iff_toNat_lt, UInt16.toNat_add]
  have hslot : slot.toNat ≤ next.toNat := by
    obtain hlt | heq := h
    · exact Nat.le_of_lt (UInt16.lt_iff_toNat_lt.1 hlt)
    · rw [heq]
  simp only [UInt16.toNat_one]
  omega

theorem Routed.onTargetCreated (h : Routed r) (info : TargetInfo) : Routed (r.onTargetCreated info) := by
  cases hknown : r.targetIdToSlot.get info.targetId with
  | some slot =>
    rw [onTargetCreated_of_known hknown]
    exact h
  | none =>
    by_cases hslot : r.nextSlot = 65535
    · rw [onTargetCreated_of_full hknown hslot]
      exact ⟨h.slot_iff, h.givenOut⟩
    · obtain ⟨context, toSessions, heq, _⟩ := onTargetCreated_of_unknown hknown hslot
      -- The slot is fresh: no task is in it, so no target has it.
      have hfresh : ∀ targetId, r.owner r.nextSlot ≠ some targetId := fun targetId howner =>
        UInt16.lt_irrefl _ (h.givenOut _ targetId howner)
      have howner := owner_onTargetCreated hknown hslot
      refine ⟨fun targetId slot => ?_, fun slot targetId hget => ?_⟩
      · rw [howner, heq]
        simp only [Table.get_set]
        by_cases htarget : targetId = info.targetId
        · by_cases hsame : slot = r.nextSlot
          · simp [htarget, hsame]
          · have hother : r.owner slot ≠ some info.targetId := fun hown => by
              rw [← h.slot_iff, hknown] at hown
              cases hown
            simp [htarget, hsame, hother, Ne.symm hsame]
        · by_cases hsame : slot = r.nextSlot
          · have hnone : r.targetIdToSlot.get targetId ≠ some r.nextSlot := fun hget =>
              hfresh targetId ((h.slot_iff _ _).1 hget)
            simp [htarget, hsame, hnone, Ne.symm htarget]
          · simp only [htarget, hsame, if_false]
            exact h.slot_iff targetId slot
      · rw [howner] at hget
        rw [heq]
        refine lt_nextSlot_succ ?_ hslot
        split at hget
        · rename_i hsame
          exact .inr hsame
        · exact .inl (h.givenOut slot targetId hget)

/-! ### A task that goes -/

theorem removeSession_targetIdToSlot (r : Router) (slot : UInt16) :
    (r.removeSession slot).targetIdToSlot =
      match r.owner slot with
      | some targetId => r.targetIdToSlot.remove targetId
      | none => r.targetIdToSlot := by
  unfold removeSession owner
  cases r.sessions.get slot with
  | none => rfl
  | some entry => rfl

theorem removeSession_owner (r : Router) (slot x : UInt16) :
    (r.removeSession slot).owner x = if x = slot then none else r.owner x := by
  unfold removeSession
  cases hentry : r.sessions.get slot with
  | none =>
    dsimp only
    split
    · rename_i hsame
      rw [owner, hsame, hentry, Option.map_none]
    · rfl
  | some entry =>
    simp only [owner, Table.get_remove]
    split
    · rfl
    · rfl

theorem removeSession_nextSlot (r : Router) (slot : UInt16) :
    (r.removeSession slot).nextSlot = r.nextSlot ∧ (r.removeSession slot).panicked = r.panicked := by
  unfold removeSession
  cases r.sessions.get slot with
  | none => exact ⟨rfl, rfl⟩
  | some entry => exact ⟨rfl, rfl⟩

theorem Routed.removeSession (h : Routed r) (slot : UInt16) : Routed (r.removeSession slot) := by
  refine ⟨fun targetId x => ?_, fun x targetId howner => ?_⟩
  · rw [removeSession_targetIdToSlot, removeSession_owner]
    cases howner : r.owner slot with
    | none =>
      dsimp only
      rw [h.slot_iff]
      split
      · rename_i hsame
        rw [hsame, howner]
      · rfl
    | some gone =>
      simp only [Table.get_remove]
      by_cases hsame : x = slot
      · rw [if_pos hsame]
        split
        · exact iff_of_false (by simp) (by simp)
        · rename_i hother
          rw [h.slot_iff, hsame, howner]
          simp [Ne.symm hother]
      · rw [if_neg hsame]
        split
        · rename_i htarget
          -- The target has one slot, and it is the one that goes.
          refine iff_of_false (by simp) fun hown => hsame ?_
          rw [htarget, ← h.slot_iff, (h.slot_iff _ _).2 howner] at hown
          exact (Option.some.inj hown).symm
        · exact h.slot_iff targetId x
  · rw [(r.removeSession_nextSlot slot).1]
    rw [removeSession_owner] at howner
    split at howner
    · cases howner
    · exact h.givenOut x targetId howner

/-! ### A step -/

theorem Routed.onEvent (h : Routed r) (event : CdpEventMessage) : Routed (r.onEvent event) := by
  unfold Router.onEvent
  split
  · exact h.of_same (r.sameSlots_toSlot _ _)
  · split
    · exact h.onTargetCreated _
    · exact h.of_same (r.sameSlots_onAttachedToTarget _)
    · exact h.of_same (r.sameSlots_toSlot _ _)
    · exact h.of_same (r.sameSlots_toSlot _ _)
    · exact h.of_same (r.sameSlots_toSlot _ _)
    · exact h

theorem Routed.step (h : Routed r) (input : RouterInput) : Routed (r.step input) := by
  unfold Router.step
  split
  · exact h
  · cases input with
    | response decoders now resp => exact h.of_same (r.sameSlots_onResponse decoders now resp)
    | event event => exact h.onEvent event
    | lifecycle msg =>
      cases msg with
      | sessionAttached slot sessionId => exact h.of_same (r.sameSlots_sessionAttached slot sessionId)
      | detached slot => exact h.removeSession slot
    | browserMessage accepted msg now => exact h.of_same (r.sameSlots_onBrowserMessage accepted msg now)
    | evict now => exact h.of_same (r.sameSlots_evictRouterPending now _)

theorem routed_new (config : HandlerConfig) (context : BrowserContext) (bootCallId : CallId)
    (bootMethod : MethodId) (nextCallId : Nat) (now : Instant) :
    Routed (new config context bootCallId bootMethod nextCallId now) :=
  ⟨fun _ _ => iff_of_false (by simp [new]) (by simp [new, owner]), fun _ _ howner => by
    simp [new, owner] at howner⟩

end Router

end SpiderChrome
