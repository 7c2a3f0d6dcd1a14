import SpiderChrome.Handler.Driver

/-!
# Targets that crash

A crash takes the pending commands that are bound to the target from those that wait, tells the callers of them, and removes the target. It does so in two passes: the call ids are gathered first, and every one of them is looked up again before it is removed. `onTargetCrashed_exact` says that the two passes come to one cut through the map.
-/

namespace SpiderChrome

namespace Handler

/-! ### One command -/

/-- What the caller of a command is told when it is cancelled with an error. Only the command of a caller has one. -/
def cancelAnswer (error : CdpError) : PendingRequest → Option (Sender × Reply)
  | .externalCommand tx _ => some (tx, .response (.error error))
  | _ => none

variable {h : Handler} (debugTargetId : TargetId → String) (event : EventTargetCrashed)

/-- The session that a target has recorded as its own. -/
def ownSession (h : Handler) (targetId : TargetId) : Option SessionId :=
  (h.targets.get targetId).bind Target.sessionId

theorem cancel_of_get {call : CallId} {entry : PendingRequest × MethodId × Instant}
    (hget : h.pendingCommands.get call = some entry) :
    cancel debugTargetId event h call =
      { h with
        pendingCommands := h.pendingCommands.remove call
        replies := h.replies ++ (cancelAnswer (crashError debugTargetId event) entry.1).toList } := by
  obtain ⟨req, method, timestamp⟩ := entry
  rw [cancel, hget]
  cases req with
  | externalCommand tx targetId => rfl
  | _ => simp [cancelAnswer]

/-- The entries of the map that are gathered are still there when their turn comes, so each is cancelled once. -/
theorem foldl_cancel (entries : List (CallId × PendingRequest × MethodId × Instant))
    (hnodup : (entries.map Prod.fst).Nodup)
    (hentries : ∀ entry ∈ entries, h.pendingCommands.get entry.1 = some entry.2) :
    (entries.map Prod.fst).foldl (cancel debugTargetId event) h =
      { h with
        pendingCommands := (entries.map Prod.fst).foldl Table.remove h.pendingCommands
        replies := h.replies ++
          entries.filterMap fun entry => cancelAnswer (crashError debugTargetId event) entry.2.1 } := by
  induction entries generalizing h with
  | nil => simp
  | cons entry rest ih =>
    obtain ⟨hnew, hrest⟩ := List.nodup_cons.mp hnodup
    have hothers : ∀ other ∈ rest, (h.pendingCommands.remove entry.1).get other.1 = some other.2 := by
      intro other hother
      have hne : other.1 ≠ entry.1 := fun heq => hnew (heq ▸ List.mem_map_of_mem hother)
      rw [Table.get_remove_of_ne _ hne]
      exact hentries other (List.mem_cons_of_mem _ hother)
    have hcancelled := cancel_of_get debugTargetId event (hentries entry List.mem_cons_self)
    rw [List.map_cons, List.foldl_cons, hcancelled, ih hrest hothers, List.filterMap_cons, List.foldl_cons]
    cases cancelAnswer (crashError debugTargetId event) entry.2.1 with
    | none => simp
    | some answer => simp

/-! ### The target -/

theorem removeTarget_eq (h : Handler) (targetId : TargetId) :
    h.removeTarget targetId =
      { h with
        attachedTargets := h.attachedTargets.erase targetId
        targets := h.targets.remove targetId
        sessions := (h.ownSession targetId).toList.foldl Table.remove h.sessions } := by
  rw [ownSession, removeTarget]
  cases htarget : h.targets.get targetId with
  | none =>
    rw [Table.remove_of_get_eq_none htarget]
    rfl
  | some target =>
    dsimp only [Option.bind_some]
    cases target.sessionId with
    | none => rfl
    | some session => rfl

/-! ### The crash -/

/-- The entries of the pending commands that are bound to a target. -/
def boundTo (h : Handler) (targetId : TargetId) : List (CallId × PendingRequest × MethodId × Instant) :=
  h.pendingCommands.toList.filter fun entry => PendingRequest.isBoundTo targetId entry.2.1

theorem onTargetCrashed_eq (h : Handler) :
    h.onTargetCrashed debugTargetId event =
      { h with
        pendingCommands := ((h.boundTo event.targetId).map Prod.fst).foldl Table.remove h.pendingCommands
        replies := h.replies ++ (h.boundTo event.targetId).filterMap fun entry =>
          cancelAnswer (crashError debugTargetId event) entry.2.1
        attachedTargets := h.attachedTargets.erase event.targetId
        targets := h.targets.remove event.targetId
        sessions := (h.ownSession event.targetId).toList.foldl Table.remove h.sessions } := by
  have hentries : ∀ entry ∈ h.boundTo event.targetId, h.pendingCommands.get entry.1 = some entry.2 := by
    intro entry hentry
    exact (Table.mem_toList _ _ _).mp (List.mem_of_mem_filter hentry)
  have hnodup : ((h.boundTo event.targetId).map Prod.fst).Nodup :=
    h.pendingCommands.nodup_toList_keys.sublist (List.filter_sublist.map _)
  have hcancelled := foldl_cancel debugTargetId event (h.boundTo event.targetId) hnodup hentries
  rw [onTargetCrashed, ← boundTo, hcancelled, removeTarget_eq]
  rfl

/-- A crash removes from the pending commands those that are bound to the target, and no other. Each caller of one that is removed is answered once, with an error. The target is gone, and with it the session that it had recorded; every other target and session, every navigation, and all the rest of the handler is as before. -/
theorem onTargetCrashed_exact (h : Handler) :
    let h' := h.onTargetCrashed debugTargetId event
    (∀ call, h'.pendingCommands.get call =
        (h.pendingCommands.get call).filter fun entry => !PendingRequest.isBoundTo event.targetId entry.1) ∧
      h'.replies = h.replies ++ (h.boundTo event.targetId).filterMap
        (fun entry => cancelAnswer (crashError debugTargetId event) entry.2.1) ∧
      (∀ targetId, h'.targets.get targetId = if targetId = event.targetId then none else h.targets.get targetId) ∧
      (∀ sessionId, h'.sessions.get sessionId =
        if h.ownSession event.targetId = some sessionId then none else h.sessions.get sessionId) ∧
      h'.attachedTargets = h.attachedTargets.erase event.targetId ∧
      h'.navigations = h.navigations ∧
      h' = { h with
        pendingCommands := h'.pendingCommands
        replies := h'.replies
        targets := h'.targets
        sessions := h'.sessions
        attachedTargets := h'.attachedTargets } := by
  rw [onTargetCrashed_eq]
  refine ⟨?_, rfl, h.targets.get_remove event.targetId, ?_, rfl, rfl, rfl⟩
  · intro call
    have hpicked : call ∈ (h.boundTo event.targetId).map Prod.fst ↔ ∃ entry, h.pendingCommands.get call = some entry ∧
        PendingRequest.isBoundTo event.targetId entry.1 = true := Table.mem_keys_filter _ _ _
    dsimp only
    rw [Table.get_foldl_remove]
    split
    · rename_i hmem
      obtain ⟨entry, hget, hbound⟩ := hpicked.mp hmem
      rw [hget, Option.filter, hbound]
      rfl
    · rename_i hmem
      cases hget : h.pendingCommands.get call with
      | none => rfl
      | some entry =>
        have hbound : PendingRequest.isBoundTo event.targetId entry.1 = false :=
          Bool.eq_false_iff.mpr fun htrue => hmem (hpicked.mpr ⟨entry, hget, htrue⟩)
        rw [Option.filter, hbound]
        rfl
  · intro sessionId
    dsimp only
    rw [Table.get_foldl_remove]
    simp only [Option.mem_toList]

end Handler

end SpiderChrome
