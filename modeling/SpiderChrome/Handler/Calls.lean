import SpiderChrome.Handler.Driver

/-!
# What a call can change

A method of the handler changes a few of its fields and leaves the others alone. It may answer senders, but never takes a reply back. The lemmas say which fields these are, method by method, so that a property that does not look at them is kept.
-/

namespace SpiderChrome

namespace Handler

/-! ### Submitting -/

theorem submit_same (h : Handler) (accepted : Bool) (req : Request) (pending : PendingRequest)
    (now : Instant) :
    ∃ nextCallId pendingCommands submitted, h.submit accepted req pending now = { h with
      nextCallId := nextCallId
      pendingCommands := pendingCommands
      submitted := submitted } := by
  simp only [submit]
  split
  · exact ⟨_, _, _, rfl⟩
  · exact ⟨_, _, _, rfl⟩

theorem createPage_same (h : Handler) (accepted : Bool) (params : CreateTargetParams) (tx : Sender)
    (now : Instant) :
    ∃ nextCallId pendingCommands submitted replies, h.replies <+: replies ∧
      h.createPage accepted params tx now = { h with
        nextCallId := nextCallId
        pendingCommands := pendingCommands
        submitted := submitted
        replies := replies } := by
  obtain ⟨_, _, _, hsubmit⟩ :=
    h.submit_same accepted ⟨"Target.createTarget", none, params.value⟩ (.createTarget tx) now
  simp only [createPage, hsubmit]
  split
  · split
    · exact ⟨_, _, _, _, List.prefix_rfl, rfl⟩
    · exact ⟨_, _, _, _, List.prefix_append _ _, rfl⟩
  · exact ⟨_, _, _, _, List.prefix_append _ _, rfl⟩

/-! ### Navigations -/

theorem onNavigation_same (h : Handler) (driver : Driver) (accepted : Bool) (target : Target)
    (msg : CommandMessage) (now : Instant) :
    ∃ nextCallId nextNavigationId pendingCommands navigations submitted gotos,
      (h.onNavigation driver accepted target msg now).1 = { h with
        nextCallId := nextCallId
        nextNavigationId := nextNavigationId
        pendingCommands := pendingCommands
        navigations := navigations
        submitted := submitted
        gotos := gotos } := by
  cases driver with
  | stream => exact ⟨_, _, _, _, _, _, rfl⟩
  | run =>
    obtain ⟨_, _, _, hsubmit⟩ := submit_same { h with
      nextNavigationId := wrappingSucc h.nextNavigationId
      gotos := h.gotos ++ [Goto.mk ⟨h.nextNavigationId⟩ msg.split.1 target.frameManager.mainFrame] }
      accepted msg.split.1 (.navigate ⟨h.nextNavigationId⟩) now
    simp only [onNavigation, hsubmit]
    exact ⟨_, _, _, _, _, _, rfl⟩

theorem onNavigationResponse_same (h : Handler) (id : NavigationId) (resp : Response) :
    ∃ navigations replies, h.replies <+: replies ∧ h.onNavigationResponse id resp = { h with
      navigations := navigations
      replies := replies } := by
  simp only [onNavigationResponse]
  split
  · split
    · exact ⟨_, _, List.prefix_append _ _, rfl⟩
    · exact ⟨_, _, List.prefix_rfl, rfl⟩
  · exact ⟨_, _, List.prefix_rfl, rfl⟩

theorem onNavigationLifecycleCompleted_same (h : Handler)
    (res : Except NavigationError NavigationOk) :
    ∃ navigations replies, h.replies <+: replies ∧ h.onNavigationLifecycleCompleted res = { h with
      navigations := navigations
      replies := replies } := by
  cases res with
  | ok ok =>
    simp only [onNavigationLifecycleCompleted]
    split
    · split
      · exact ⟨_, _, List.prefix_append _ _, rfl⟩
      · exact ⟨_, _, List.prefix_rfl, rfl⟩
    · exact ⟨_, _, List.prefix_rfl, rfl⟩
  | error err =>
    simp only [onNavigationLifecycleCompleted]
    split
    · exact ⟨_, _, List.prefix_append _ _, rfl⟩
    · exact ⟨_, _, List.prefix_rfl, rfl⟩

/-! ### Commands that end without a response -/

theorem timeOut_same (h : Handler) (call : CallId) :
    ∃ pendingCommands navigations replies, h.replies <+: replies ∧ h.timeOut call = { h with
      pendingCommands := pendingCommands
      navigations := navigations
      replies := replies } := by
  simp only [timeOut]
  split
  · split
    · exact ⟨_, _, _, List.prefix_append _ _, rfl⟩
    · exact ⟨_, _, _, List.prefix_append _ _, rfl⟩
    · split
      · exact ⟨_, _, _, List.prefix_append _ _, rfl⟩
      · exact ⟨_, _, _, List.prefix_rfl, rfl⟩
    · exact ⟨_, _, _, List.prefix_append _ _, rfl⟩
    · exact ⟨_, _, _, List.prefix_rfl, rfl⟩
    · exact ⟨_, _, _, List.prefix_append _ _, rfl⟩
  · exact ⟨_, _, _, List.prefix_rfl, rfl⟩

theorem cancel_same (debugTargetId : TargetId → String) (event : EventTargetCrashed) (h : Handler)
    (call : CallId) :
    ∃ pendingCommands replies, h.replies <+: replies ∧ cancel debugTargetId event h call = { h with
      pendingCommands := pendingCommands
      replies := replies } := by
  simp only [cancel]
  split
  · split
    · exact ⟨_, _, List.prefix_append _ _, rfl⟩
    · exact ⟨_, _, List.prefix_rfl, rfl⟩
  · exact ⟨_, _, List.prefix_rfl, rfl⟩

/-! ### Targets that come and go -/

theorem onTargetCreated_same (h : Handler) (targetInfo : TargetInfo) :
    ∃ targetIds targets, h.onTargetCreated targetInfo = { h with
      targetIds := targetIds
      targets := targets } := by
  simp only [onTargetCreated]
  split
  · exact ⟨_, _, rfl⟩
  · exact ⟨_, _, rfl⟩

theorem removeTarget_same (h : Handler) (targetId : TargetId) :
    ∃ attachedTargets targets sessions, h.removeTarget targetId = { h with
      attachedTargets := attachedTargets
      targets := targets
      sessions := sessions } := by
  simp only [removeTarget]
  split
  · exact ⟨_, _, _, rfl⟩
  · exact ⟨_, _, _, rfl⟩

end Handler

end SpiderChrome
