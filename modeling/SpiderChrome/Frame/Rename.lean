import SpiderChrome.Frame.Navigation

/-!
# Navigations and the main frame's id

A cross-process navigation gives the main frame a new id, and a navigation that names the old one can only end as `FrameNotFound`. `Followed` says that every navigation names the main frame. The active one is carried along by a rename; the queued ones are not. `navigations_follow_main_frame_iff` is the consequence: over a run, every navigation names the main frame in every state exactly when no rename finds a navigation in the queue.
-/

namespace SpiderChrome

namespace FrameManager

/-- Every navigation, the active one and the queued ones, targets the main frame. -/
structure Followed (fm : FrameManager) : Prop where
  active : ∀ watcher deadline, fm.navigation = some (watcher, deadline) →
    fm.mainFrame = some watcher.frameId
  queued : ∀ req watcher, (req, watcher) ∈ fm.pendingNavigations →
    fm.mainFrame = some watcher.frameId

/-- The input does not give the main frame another id while a navigation is queued. -/
def RenamesUnqueued (fm : FrameManager) (input : FrameInput) : Prop :=
  input.newMain fm.mainFrame = fm.mainFrame ∨ fm.pendingNavigations = []

theorem Followed.of_same {fm fm' : FrameManager} (h : Followed fm) (hsame : SameNavigations fm fm') :
    Followed fm' where
  active := by rw [hsame.mainFrame, hsame.navigation]; exact h.active
  queued := by rw [hsame.mainFrame, hsame.pendingNavigations]; exact h.queued

/-! ### One step -/

theorem Followed.goto {fm : FrameManager} (h : Followed fm) (req : FrameRequestedNavigation) :
    Followed (fm.goto req) := by
  unfold FrameManager.goto
  split
  · rename_i main hmain
    refine ⟨h.active, fun req' watcher hmem => ?_⟩
    rcases List.mem_append.1 hmem with hold | hnew
    · exact h.queued req' watcher hold
    · obtain ⟨-, rfl⟩ := Prod.mk.inj (List.mem_singleton.1 hnew)
      exact hmain
  · exact h

theorem Followed.poll {fm : FrameManager} (h : Followed fm) (now clock : Instant) :
    Followed (fm.poll now clock).1 := by
  have hnone : ∀ (watcher : NavigationWatcher) (deadline : Instant),
      none = some (watcher, deadline) → fm.mainFrame = some watcher.frameId := fun _ _ h => by cases h
  have hstep := poll_step fm now clock
  generalize (fm.poll now clock).1 = fm' at hstep ⊢
  generalize (fm.poll now clock).2 = event at hstep
  cases hstep with
  | idle => exact h
  | waiting => exact h
  | issued req watcher rest hnavigation hqueue =>
    refine ⟨fun watcher' deadline heq => ?_, fun req' watcher' hmem => ?_⟩
    · obtain ⟨rfl, -⟩ := Prod.mk.inj (Option.some.inj heq)
      exact h.queued req watcher (hqueue ▸ List.mem_cons_self)
    · exact h.queued req' watcher' (hqueue ▸ List.mem_cons_of_mem _ hmem)
  | capped => exact ⟨hnone, h.queued⟩
  | timedOut => exact ⟨hnone, h.queued⟩
  | lost => exact ⟨hnone, h.queued⟩
  | completed => exact ⟨hnone, h.queued⟩

theorem Followed.onFrameNavigatedWithinDocument {fm : FrameManager} (h : Followed fm)
    (event : EventNavigatedWithinDocument) : Followed (fm.onFrameNavigatedWithinDocument event) := by
  refine ⟨fun watcher deadline heq => ?_, h.queued⟩
  obtain ⟨⟨watcher', deadline'⟩, hnavigation, hmap⟩ := Option.map_eq_some_iff.1 heq
  obtain ⟨rfl, -⟩ := Prod.mk.inj hmap
  have hframe : (watcher'.onFrameNavigatedWithinDocument event).frameId = watcher'.frameId := by
    unfold NavigationWatcher.onFrameNavigatedWithinDocument
    split
    · rfl
    · rfl
  rw [hframe]
  exact h.active watcher' deadline' hnavigation

/-- The active navigation goes with the main frame. -/
theorem followMainFrame_frameId {main : Option FrameId} {newId : FrameId}
    {navigation : Option (NavigationWatcher × Instant)}
    (h : ∀ watcher deadline, navigation = some (watcher, deadline) → main = some watcher.frameId)
    (watcher : NavigationWatcher) (deadline : Instant)
    (heq : followMainFrame main newId navigation = some (watcher, deadline)) :
    watcher.frameId = newId := by
  unfold followMainFrame at heq
  split at heq
  · rename_i hmain
    exact Option.some.inj ((h watcher deadline heq).symm.trans hmain)
  · obtain ⟨⟨watcher', deadline'⟩, hnavigation, hmap⟩ := Option.map_eq_some_iff.1 heq
    dsimp only at hmap
    rw [if_pos (h watcher' deadline' hnavigation)] at hmap
    rw [← (Prod.mk.inj hmap).1]

theorem active_onMainNavigated {fm : FrameManager} (frame : CdpFrame) (worldName : String)
    (h : ∀ watcher deadline, fm.navigation = some (watcher, deadline) →
      fm.mainFrame = some watcher.frameId)
    (watcher : NavigationWatcher) (deadline : Instant)
    (heq : (fm.onMainNavigated frame worldName).navigation = some (watcher, deadline)) :
    (fm.onMainNavigated frame worldName).mainFrame = some watcher.frameId := by
  rw [onMainNavigated_eq] at heq ⊢
  rw [followMainFrame_frameId h watcher deadline heq]

theorem active_onFrameTree {fm : FrameManager} (worldName : FrameId → String) (tree : FrameTree)
    (h : ∀ watcher deadline, fm.navigation = some (watcher, deadline) →
      fm.mainFrame = some watcher.frameId) :
    ∀ watcher deadline, (onFrameTree worldName tree fm).navigation = some (watcher, deadline) →
      (onFrameTree worldName tree fm).mainFrame = some watcher.frameId := by
  rw [onFrameTree_eq]
  induction tree.nodes generalizing fm with
  | nil => exact h
  | cons frame rest ih =>
    refine ih fun watcher deadline heq => ?_
    cases hparent : frame.parentId.isSome with
    | true =>
      have hsame := sameNavigations_onFrameNode worldName fm hparent
      rw [hsame.navigation] at heq
      rw [hsame.mainFrame, h watcher deadline heq]
    | false =>
      rw [onFrameNode_of_main worldName fm hparent] at heq ⊢
      exact active_onMainNavigated frame _ h watcher deadline heq

/-- Where an input leaves the queue alone and carries the active navigation along, the queue decides. -/
theorem followed_iff_of_queue {fm fm' : FrameManager} (h : Followed fm)
    (hqueue : fm'.pendingNavigations = fm.pendingNavigations)
    (hactive : ∀ watcher deadline, fm'.navigation = some (watcher, deadline) →
      fm'.mainFrame = some watcher.frameId) :
    Followed fm' ↔ fm'.mainFrame = fm.mainFrame ∨ fm.pendingNavigations = [] := by
  constructor
  · intro h'
    cases hpending : fm.pendingNavigations with
    | nil => exact Or.inr rfl
    | cons entry rest =>
      have hmem : entry ∈ fm.pendingNavigations := hpending ▸ List.mem_cons_self
      have hbefore := h.queued entry.1 entry.2 hmem
      have hafter := h'.queued entry.1 entry.2 (hqueue ▸ hmem)
      exact Or.inl (hafter.trans hbefore.symm)
  · intro hguard
    refine ⟨hactive, fun req watcher hmem => ?_⟩
    rw [hqueue] at hmem
    rcases hguard with hmain | hempty
    · rw [hmain]
      exact h.queued req watcher hmem
    · rw [hempty] at hmem
      exact absurd hmem List.not_mem_nil

theorem followed_apply_iff {fm : FrameManager} (h : Followed fm) (input : FrameInput) :
    Followed (FrameInput.apply fm input) ↔ RenamesUnqueued fm input := by
  cases hquiet : input.quiet with
  | true =>
    refine ⟨fun _ => Or.inl (FrameInput.newMain_of_quiet hquiet _), fun _ => ?_⟩
    exact h.of_same (FrameInput.apply_of_quiet hquiet fm)
  | false =>
    cases input with
    | goto req => exact ⟨fun _ => Or.inl rfl, fun _ => h.goto req⟩
    | poll now clock => exact ⟨fun _ => Or.inl rfl, fun _ => h.poll now clock⟩
    | navigatedWithinDocument event =>
      exact ⟨fun _ => Or.inl rfl, fun _ => h.onFrameNavigatedWithinDocument event⟩
    | frameTree tree worldName =>
      unfold RenamesUnqueued
      rw [← apply_mainFrame]
      exact followed_iff_of_queue h (onFrameTree_pendingNavigations worldName tree fm)
        (active_onFrameTree worldName tree h.active)
    | frameNavigated frame worldName =>
      have heq : FrameInput.apply fm (.frameNavigated frame worldName) =
          fm.onMainNavigated frame worldName := onFrameNavigated_of_main fm worldName hquiet
      unfold RenamesUnqueued
      rw [← apply_mainFrame, heq]
      refine followed_iff_of_queue h ?_ (active_onMainNavigated frame worldName h.active)
      rw [onMainNavigated_eq]
    | _ => cases hquiet

/-! ### Runs -/

/-- A poll reports a navigation as lost only while there is no main frame. -/
theorem Followed.not_lost {fm : FrameManager} (h : Followed fm) (hmain : fm.mainFrame?.isSome = true)
    (now clock : Instant) (id : NavigationId) (frame : FrameId) :
    (fm.poll now clock).2 ≠ some (.navigationResult (.error (.frameNotFound id frame))) := by
  intro hlost
  have hstep := poll_step fm now clock
  rw [hlost] at hstep
  generalize (fm.poll now clock).1 = fm' at hstep
  cases hstep with
  | lost watcher deadline hnavigation hcap hframe =>
    rw [mainFrame?, h.active watcher deadline hnavigation, Option.bind_some, hframe] at hmain
    cases hmain

theorem followed_started (requestTimeout : Duration) (cap : Option UInt32) :
    Followed (started requestTimeout cap) where
  active := fun _ _ h => by cases h
  queued := fun _ _ h => by cases h

theorem always_followed_iff (requestTimeout : Duration) (cap : Option UInt32)
    (inputs : List FrameInput) :
    Run.Always FrameInput.apply Followed (started requestTimeout cap) inputs ↔
      Run.Allowed FrameInput.apply RenamesUnqueued (started requestTimeout cap) inputs :=
  Run.always_iff_allowed (fun _ _ => True) (fun _ _ _ _ => trivial)
    (fun _ input _ _ h => followed_apply_iff h input) trivial (followed_started requestTimeout cap)

/-- Every navigation of a run names the main frame in every state, exactly when each rename of the main frame finds the queue empty; and then none is lost while there is a main frame. -/
theorem navigations_follow_main_frame_iff (requestTimeout : Duration) (cap : Option UInt32)
    (inputs : List FrameInput) :
    (Run.Always FrameInput.apply Followed (started requestTimeout cap) inputs ↔
      Run.Allowed FrameInput.apply RenamesUnqueued (started requestTimeout cap) inputs) ∧
    (Run.Allowed FrameInput.apply RenamesUnqueued (started requestTimeout cap) inputs →
      let fm := Run.final FrameInput.apply (started requestTimeout cap) inputs
      fm.mainFrame?.isSome = true → ∀ now clock id frame,
        (fm.poll now clock).2 ≠ some (.navigationResult (.error (.frameNotFound id frame)))) := by
  have hiff := always_followed_iff requestTimeout cap inputs
  exact ⟨hiff, fun hallowed => (hiff.2 hallowed).last.not_lost⟩

/-- A navigation that was queued when the main frame went from one id to another is lost as soon as it is taken up. -/
theorem queued_navigation_lost :
    let main (id : String) : CdpFrame := ⟨⟨id⟩, none, none, "about:blank", none⟩
    let fm := Run.final FrameInput.apply (started 30 none)
      [.frameNavigated (main "A") "", .goto ⟨⟨1⟩, ⟨"Page.navigate", none, .object []⟩, 30⟩,
        .frameNavigated (main "B") "", .poll 0 0]
    fm.mainFrame?.isSome = true ∧ ¬Followed fm ∧
      (fm.poll 0 0).2 = some (.navigationResult (.error (.frameNotFound ⟨1⟩ ⟨"A"⟩))) := by
  refine ⟨rfl, fun h => ?_, rfl⟩
  have hmain := h.active _ _ rfl
  revert hmain
  decide

end FrameManager

end SpiderChrome
