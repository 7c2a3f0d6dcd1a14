import SpiderChrome.Frame.Context
import SpiderChrome.Frame.Rename

/-!
# When a navigation counts as completed

A poll takes a navigation for completed once the loader of its frame is another than the one the watcher recorded. The record is made when the `goto` arrives. The request goes out later, when the navigations before it are done, and by then the loader may have changed already. `LoadersCurrent` is the condition that it has not, and that the main frame is not lost under the navigation. `new_document_sound` is what a run of this kind guarantees: a navigation reported as completed has seen a new loader since its request was handed out.
-/

namespace SpiderChrome

namespace FrameManager

/-- A request is handed out only while its watcher names the main frame and has recorded the loader that the main frame has; and the main frame is not detached while it still has a loader that the active watcher recorded. -/
def LoadersCurrent (fm : FrameManager) : FrameInput → Prop
  | .poll _ _ => fm.navigation = none → ∀ req watcher rest,
      fm.pendingNavigations = (req, watcher) :: rest →
      fm.mainFrame = some watcher.frameId ∧ fm.mainLoader = watcher.loaderId
  | .frameDetached id => fm.mainFrame = some id → ∀ watcher deadline,
      fm.navigation = some (watcher, deadline) → fm.mainLoader = watcher.loaderId →
      watcher.loaderId = none
  | _ => True

/-- The main frame is there and gets a loader of its own by the event. -/
def Reloads (fm : FrameManager) (event : EventLifecycleEvent) : Prop :=
  event.name = "init" ∧ fm.mainFrame = some event.frameId ∧
    (fm.frames.get event.frameId).isSome = true

/-- The poll `issue`, made after `before`, handed out the request of the navigation, and no other request was handed out in `after`. -/
structure IssuedAt (start : FrameManager) (before : List FrameInput) (issue : FrameInput)
    (after : List FrameInput) (id : NavigationId) : Prop where
  request : ∃ now clock req, issue = .poll now clock ∧
    ((Run.final FrameInput.apply start before).poll now clock).2 = some (.navigationRequest id req)
  last : ∀ during input rest, after = during ++ input :: rest →
    input.issues (Run.final FrameInput.apply start (before ++ issue :: during)) = false

/-- Among the inputs `after` is a lifecycle event by which the main frame gets a loader other than the given one. -/
def Renewed (start : FrameManager) (before : List FrameInput) (issue : FrameInput)
    (after : List FrameInput) (loader : Option LoaderId) : Prop :=
  ∃ during event rest, after = during ++ .lifecycleEvent event :: rest ∧
    Reloads (Run.final FrameInput.apply start (before ++ issue :: during)) event ∧
    some event.loaderId ≠ loader

theorem IssuedAt.append {start : FrameManager} {before after : List FrameInput}
    {issue input : FrameInput} {id : NavigationId} (h : IssuedAt start before issue after id)
    (hinput : input.issues (Run.final FrameInput.apply start (before ++ issue :: after)) = false) :
    IssuedAt start before issue (after ++ [input]) id where
  request := h.request
  last := fun during input' rest heq => by
    rcases List.append_eq_append_iff.1 heq with ⟨middle, hduring, hrest⟩ | ⟨middle, hafter, hrest⟩
    · rcases List.cons_eq_append_iff.1 hrest with ⟨hmiddle, hcons⟩ | ⟨tail, -, htail⟩
      · obtain ⟨rfl, -⟩ := List.cons.inj hcons
        rw [hduring, hmiddle, List.append_nil]
        exact hinput
      · exact absurd htail (by simp)
    · cases middle with
      | nil =>
        obtain ⟨rfl, -⟩ := List.cons.inj hrest
        rw [List.append_nil] at hafter
        rw [← hafter]
        exact hinput
      | cons first middle =>
        obtain ⟨rfl, -⟩ := List.cons.inj hrest
        exact h.last during input' middle hafter

theorem Renewed.append {start : FrameManager} {before after : List FrameInput}
    {issue : FrameInput} {loader : Option LoaderId} (h : Renewed start before issue after loader)
    (input : FrameInput) : Renewed start before issue (after ++ [input]) loader := by
  obtain ⟨during, event, rest, rfl, hreloads⟩ := h
  exact ⟨during, event, rest ++ [input], by rw [List.append_assoc, List.cons_append], hreloads⟩

/-! ### The active navigation -/

/-- The later navigation is the earlier one, with its id and the loader it recorded. -/
def Continues (navigation navigation' : Option (NavigationWatcher × Instant)) : Prop :=
  ∀ watcher' deadline, navigation' = some (watcher', deadline) →
    ∃ watcher, navigation = some (watcher, deadline) ∧ watcher'.id = watcher.id ∧
      watcher'.loaderId = watcher.loaderId

theorem Continues.refl (navigation : Option (NavigationWatcher × Instant)) :
    Continues navigation navigation := fun watcher _ h => ⟨watcher, h, rfl, rfl⟩

theorem Continues.trans {a b c : Option (NavigationWatcher × Instant)} (h : Continues a b)
    (h' : Continues b c) : Continues a c := by
  intro watcher'' deadline heq
  obtain ⟨watcher', heq', hid', hloader'⟩ := h' watcher'' deadline heq
  obtain ⟨watcher, heq'', hid, hloader⟩ := h watcher' deadline heq'
  exact ⟨watcher, heq'', hid'.trans hid, hloader'.trans hloader⟩

theorem continues_followMainFrame (main : Option FrameId) (newId : FrameId)
    (navigation : Option (NavigationWatcher × Instant)) :
    Continues navigation (followMainFrame main newId navigation) := by
  unfold followMainFrame
  split
  · exact .refl navigation
  · intro watcher' deadline heq
    obtain ⟨⟨watcher, deadline'⟩, hnavigation, hmap⟩ := Option.map_eq_some_iff.1 heq
    dsimp only at hmap
    split at hmap
    · obtain ⟨rfl, rfl⟩ := Prod.mk.inj hmap
      exact ⟨watcher, hnavigation, rfl, rfl⟩
    · obtain ⟨rfl, rfl⟩ := Prod.mk.inj hmap
      exact ⟨watcher, hnavigation, rfl, rfl⟩

theorem continues_onFrameNode (worldName : FrameId → String) (fm : FrameManager)
    (frame : CdpFrame) :
    Continues fm.navigation (onFrameNode worldName fm frame).navigation := by
  cases hparent : frame.parentId.isSome with
  | true =>
    rw [(sameNavigations_onFrameNode worldName fm hparent).navigation]
    exact .refl _
  | false =>
    rw [onFrameNode_of_main worldName fm hparent, onMainNavigated_eq]
    exact continues_followMainFrame _ _ _

theorem continues_onFrameTree (worldName : FrameId → String) (tree : FrameTree)
    (fm : FrameManager) :
    Continues fm.navigation (onFrameTree worldName tree fm).navigation := by
  rw [onFrameTree_eq]
  exact Run.foldl_rel (r := fun fm fm' : FrameManager => Continues fm.navigation fm'.navigation)
    (fun _ => .refl _) .trans (continues_onFrameNode worldName) fm tree.nodes

/-- Without a request being handed out, the active navigation is the one there was, and it still targets the main frame. -/
theorem active_apply {fm : FrameManager} {input : FrameInput} (hissues : input.issues fm = false)
    (h : ∀ watcher deadline, fm.navigation = some (watcher, deadline) →
      fm.mainFrame = some watcher.frameId) :
    Continues fm.navigation (FrameInput.apply fm input).navigation ∧
    ∀ watcher deadline, (FrameInput.apply fm input).navigation = some (watcher, deadline) →
      (FrameInput.apply fm input).mainFrame = some watcher.frameId := by
  cases hquiet : input.quiet with
  | true =>
    have hsame := FrameInput.apply_of_quiet hquiet fm
    rw [hsame.navigation, hsame.mainFrame]
    exact ⟨.refl _, h⟩
  | false =>
    cases input with
    | goto req =>
      have hnavigation : (fm.goto req).navigation = fm.navigation := by
        unfold goto
        split
        · rfl
        · rfl
      change Continues fm.navigation (fm.goto req).navigation ∧
        ∀ watcher deadline, (fm.goto req).navigation = some (watcher, deadline) →
          (fm.goto req).mainFrame = some watcher.frameId
      rw [hnavigation, goto_mainFrame]
      exact ⟨.refl _, h⟩
    | poll now clock =>
      have hstep := poll_step fm now clock
      rw [FrameInput.issues_poll] at hissues
      change Continues fm.navigation (fm.poll now clock).1.navigation ∧
        ∀ watcher deadline, (fm.poll now clock).1.navigation = some (watcher, deadline) →
          (fm.poll now clock).1.mainFrame = some watcher.frameId
      generalize (fm.poll now clock).1 = fm' at hstep ⊢
      generalize (fm.poll now clock).2 = event at hstep hissues
      have hover : Continues fm.navigation none ∧
          ∀ (watcher : NavigationWatcher) (deadline : Instant), none = some (watcher, deadline) →
            fm.mainFrame = some watcher.frameId :=
        ⟨fun _ _ h => (by cases h), fun _ _ h => (by cases h)⟩
      cases hstep with
      | idle => exact ⟨.refl _, h⟩
      | waiting => exact ⟨.refl _, h⟩
      | issued => cases hissues
      | capped => exact hover
      | timedOut => exact hover
      | lost => exact hover
      | completed => exact hover
    | navigatedWithinDocument event =>
      have hmap : ∀ watcher' deadline,
          (fm.onFrameNavigatedWithinDocument event).navigation = some (watcher', deadline) →
          ∃ watcher, fm.navigation = some (watcher, deadline) ∧ watcher'.id = watcher.id ∧
            watcher'.loaderId = watcher.loaderId ∧ watcher'.frameId = watcher.frameId := by
        intro watcher' deadline heq
        obtain ⟨⟨watcher, deadline'⟩, hnavigation, hmap⟩ := Option.map_eq_some_iff.1 heq
        obtain ⟨rfl, rfl⟩ := Prod.mk.inj hmap
        refine ⟨watcher, hnavigation, ?_⟩
        unfold NavigationWatcher.onFrameNavigatedWithinDocument
        split
        · exact ⟨rfl, rfl, rfl⟩
        · exact ⟨rfl, rfl, rfl⟩
      refine ⟨fun watcher' deadline heq => ?_, fun watcher' deadline heq => ?_⟩
      · obtain ⟨watcher, hnavigation, hid, hloader, -⟩ := hmap watcher' deadline heq
        exact ⟨watcher, hnavigation, hid, hloader⟩
      · obtain ⟨watcher, hnavigation, -, -, hframe⟩ := hmap watcher' deadline heq
        rw [hframe]
        exact h watcher deadline hnavigation
    | frameTree tree worldName =>
      exact ⟨continues_onFrameTree worldName tree fm, active_onFrameTree worldName tree h⟩
    | frameNavigated frame worldName =>
      change Continues fm.navigation (fm.onFrameNavigated frame worldName).navigation ∧
        ∀ watcher deadline, (fm.onFrameNavigated frame worldName).navigation =
          some (watcher, deadline) →
          (fm.onFrameNavigated frame worldName).mainFrame = some watcher.frameId
      rw [onFrameNavigated_of_main fm worldName hquiet]
      refine ⟨?_, active_onMainNavigated frame worldName h⟩
      rw [onMainNavigated_eq]
      exact continues_followMainFrame _ _ _
    | _ => cases hquiet

/-! ### The main frame's loader -/

theorem mainLoader_of_eq {fm fm' : FrameManager} (hmain : fm'.mainFrame = fm.mainFrame)
    (hframes : fm'.frames = fm.frames) : fm'.mainLoader = fm.mainLoader := by
  unfold mainLoader mainFrame?
  rw [hmain, hframes]

theorem mainLoader_of_get {fm fm' : FrameManager} (hmain : fm'.mainFrame = fm.mainFrame)
    (h : ∀ k, fm.mainFrame = some k →
      (fm'.frames.get k).bind Frame.loaderId = (fm.frames.get k).bind Frame.loaderId) :
    fm'.mainLoader = fm.mainLoader := by
  unfold mainLoader mainFrame?
  rw [hmain]
  cases hk : fm.mainFrame with
  | none => rfl
  | some k => exact h k hk

theorem mainLoader_of_update {fm fm' : FrameManager} (k : FrameId) (f : Frame → Frame)
    (hmain : fm'.mainFrame = fm.mainFrame) (hframes : fm'.frames = fm.frames.update k f)
    (hloader : fm.mainFrame = some k → ∀ g, fm.frames.get k = some g →
      (f g).loaderId = g.loaderId) : fm'.mainLoader = fm.mainLoader := by
  refine mainLoader_of_get hmain fun x hx => ?_
  rw [hframes, Table.get_update]
  split
  · rename_i hxk
    cases hg : fm.frames.get x with
    | none => rfl
    | some g => exact hloader (hxk ▸ hx) g (hxk ▸ hg)
  · rfl

theorem mainLoader_of_absent {fm : FrameManager} (h : fm.mainFrame? = none) :
    fm.mainLoader = none := by
  rw [mainLoader, h]
  rfl

/-- The loader of the main frame changes by an `init` event for the main frame, or is lost with it. -/
theorem mainLoader_apply {fm : FrameManager} (h : Tree fm) (input : FrameInput) :
    (FrameInput.apply fm input).mainLoader = fm.mainLoader ∨
    (∃ event, input = .lifecycleEvent event ∧ Reloads fm event ∧
      (FrameInput.apply fm input).mainLoader = some event.loaderId) ∨
    ∃ id, input = .frameDetached id ∧ fm.mainFrame = some id ∧
      (FrameInput.apply fm input).mainLoader = none := by
  cases input with
  | goto req => exact Or.inl (mainLoader_of_eq (goto_mainFrame fm req) (goto_frames fm req))
  | poll now clock =>
    exact Or.inl (mainLoader_of_eq (poll_mainFrame fm now clock) (poll_frames fm now clock))
  | frameTree tree worldName => exact Or.inl (mainKept_onFrameTree h worldName tree).mainLoader
  | frameAttached frameId parentFrameId =>
    exact Or.inl (mainKept_onFrameAttached h frameId parentFrameId).mainLoader
  | frameNavigated frame worldName =>
    exact Or.inl (mainKept_onFrameNavigated h frame worldName).mainLoader
  | frameDetached id =>
    by_cases hid : fm.mainFrame = some id
    · refine Or.inr (Or.inr ⟨id, rfl, hid, mainLoader_of_absent ?_⟩)
      change (fm.onFrameDetached id).mainFrame? = none
      have hgone := (h.get_onFrameDetached id id).1 Relation.ReflTransGen.refl
      have hmain : (fm.onFrameDetached id).mainFrame = some id := hid
      rw [mainFrame?, hmain, Option.bind_some, hgone]
    · exact Or.inl (mainKept_onFrameDetached h hid).mainLoader
  | navigatedWithinDocument event =>
    exact Or.inl (mainLoader_of_update event.frameId (Frame.navigatedWithinUrl · event.url) rfl rfl
      fun _ _ _ => rfl)
  | stoppedLoading frameId =>
    exact Or.inl (mainLoader_of_update frameId Frame.onLoadingStopped rfl rfl fun _ _ _ => rfl)
  | startedLoading frameId =>
    exact Or.inl (mainLoader_of_update frameId Frame.onLoadingStarted rfl rfl fun _ _ _ => rfl)
  | lifecycleEvent event =>
    by_cases hreloads : Reloads fm event
    · refine Or.inr (Or.inl ⟨event, rfl, hreloads, ?_⟩)
      obtain ⟨hinit, hmain, hpresent⟩ := hreloads
      obtain ⟨f, hf⟩ := Option.isSome_iff_exists.1 hpresent
      change (fm.onPageLifecycleEvent event).mainLoader = _
      unfold mainLoader mainFrame? onPageLifecycleEvent
      rw [hmain, Option.bind_some, Table.get_update_self, hf]
      simp only [Option.map_some, Option.bind_some, lifecycleUpdate, hinit, if_true]
    · refine Or.inl ?_
      change (fm.onPageLifecycleEvent event).mainLoader = _
      refine mainLoader_of_update event.frameId (lifecycleUpdate event) rfl rfl fun hmain g hg => ?_
      have hinit : event.name ≠ "init" := fun hinit =>
        hreloads ⟨hinit, hmain, by rw [hg]; rfl⟩
      unfold lifecycleUpdate
      rw [if_neg hinit]
  | httpRequestFinished request =>
    refine Or.inl ?_
    change (fm.onHttpRequestFinished request).mainLoader = _
    unfold onHttpRequestFinished
    split
    · rename_i id _
      exact mainLoader_of_update id (Frame.setRequest · request) rfl rfl fun _ _ _ => rfl
    · rfl
  | contextCreated context =>
    refine Or.inl ?_
    have hmain := (sameNavigations_onFrameExecutionContextCreated fm context).mainFrame
    change (fm.onFrameExecutionContextCreated context).mainLoader = _
    rcases contextCreated_cases fm context with ⟨frameId, frame, hget, hframes, -⟩ | ⟨hframes, -⟩
    · rw [← Table.update_of_get hget] at hframes
      exact mainLoader_of_update frameId (adoptContext context) hmain hframes fun _ g _ =>
        adoptContext_loaderId context g
    · exact mainLoader_of_eq hmain hframes
  | contextDestroyed uniqueId =>
    refine Or.inl ?_
    change (fm.onFrameExecutionContextDestroyed uniqueId).mainLoader = _
    cases hid : fm.contextIds.get uniqueId with
    | none => rw [onFrameExecutionContextDestroyed_of_none hid]
    | some id =>
      rw [onFrameExecutionContextDestroyed_of_some hid]
      exact mainLoader_of_update id (Frame.destroyContext · uniqueId) rfl rfl fun _ g _ =>
        destroyContext_loaderId uniqueId g
  | contextsCleared =>
    refine Or.inl (mainLoader_of_get rfl fun k _ => ?_)
    change (fm.onExecutionContextsCleared.frames.get k).bind _ = _
    unfold onExecutionContextsCleared
    rw [get_foldl_clearContexts]
    cases fm.frames.get k with
    | none => rfl
    | some f =>
      rw [Option.map_some]
      split
      · rfl
      · rfl
  | evictStaleContextIds => exact Or.inl rfl

/-! ### Runs -/

/-- Every queued watcher is for the request it is queued with. -/
def QueueNamed (fm : FrameManager) : Prop :=
  ∀ req watcher, (req, watcher) ∈ fm.pendingNavigations → watcher.id = req.id

theorem QueueNamed.apply {fm : FrameManager} (h : QueueNamed fm) (input : FrameInput) :
    QueueNamed (FrameInput.apply fm input) := by
  cases hquiet : input.quiet with
  | true =>
    unfold QueueNamed
    rw [(FrameInput.apply_of_quiet hquiet fm).pendingNavigations]
    exact h
  | false =>
    cases input with
    | goto req =>
      change QueueNamed (fm.goto req)
      unfold goto
      split
      · intro req' watcher hmem
        rcases List.mem_append.1 hmem with hold | hnew
        · exact h req' watcher hold
        · obtain ⟨rfl, rfl⟩ := Prod.mk.inj (List.mem_singleton.1 hnew)
          rfl
      · exact h
    | poll now clock =>
      have hstep := poll_step fm now clock
      change QueueNamed (fm.poll now clock).1
      generalize (fm.poll now clock).1 = fm' at hstep ⊢
      generalize (fm.poll now clock).2 = event at hstep
      cases hstep with
      | issued req watcher rest hnavigation hqueue =>
        exact fun req' watcher' hmem => h req' watcher' (hqueue ▸ List.mem_cons_of_mem _ hmem)
      | _ => exact h
    | navigatedWithinDocument event => exact h
    | frameTree tree worldName =>
      unfold QueueNamed
      rw [show (FrameInput.apply fm (.frameTree tree worldName)).pendingNavigations = _ from
        onFrameTree_pendingNavigations worldName tree fm]
      exact h
    | frameNavigated frame worldName =>
      change QueueNamed (fm.onFrameNavigated frame worldName)
      rw [onFrameNavigated_of_main fm worldName hquiet, onMainNavigated_eq]
      exact h
    | _ => cases hquiet

theorem queueNamed_of_run (requestTimeout : Duration) (cap : Option UInt32)
    (inputs : List FrameInput) :
    QueueNamed (Run.final FrameInput.apply (started requestTimeout cap) inputs) :=
  Run.invariant_of_step QueueNamed (fun _ input h => h.apply input)
    (fun _ _ hmem => absurd hmem List.not_mem_nil) inputs

/-- What is known of the active navigation when `inputs` have been fed to the manager. -/
def Recorded (start : FrameManager) (inputs : List FrameInput) (fm : FrameManager) : Prop :=
  ∀ watcher deadline, fm.navigation = some (watcher, deadline) →
    fm.mainFrame = some watcher.frameId ∧
    ∃ before issue after, inputs = before ++ issue :: after ∧
      IssuedAt start before issue after watcher.id ∧
      (Run.final FrameInput.apply start before).mainLoader = watcher.loaderId ∧
      (fm.mainLoader = watcher.loaderId ∨ Renewed start before issue after watcher.loaderId)

theorem recorded_issue {start : FrameManager} {inputs : List FrameInput} {now clock : Instant}
    (hnamed : QueueNamed (Run.final FrameInput.apply start inputs))
    (hissues : (FrameInput.poll now clock).issues (Run.final FrameInput.apply start inputs) = true)
    (hguard : LoadersCurrent (Run.final FrameInput.apply start inputs) (.poll now clock)) :
    Recorded start (inputs ++ [.poll now clock])
      ((Run.final FrameInput.apply start inputs).poll now clock).1 := by
  generalize hfm : Run.final FrameInput.apply start inputs = fm at hnamed hissues hguard ⊢
  have hstep := poll_step fm now clock
  rw [FrameInput.issues_poll] at hissues
  intro watcher deadline hactive
  have hloader : (fm.poll now clock).1.mainLoader = fm.mainLoader :=
    mainLoader_of_eq (poll_mainFrame fm now clock) (poll_frames fm now clock)
  generalize hpolled : (fm.poll now clock).1 = fm' at hstep hactive hloader ⊢
  generalize hevent : (fm.poll now clock).2 = event at hstep hissues
  cases hstep with
  | issued req watcher' rest hnavigation hqueue =>
    obtain ⟨hmain, hcurrent⟩ := hguard hnavigation req watcher' rest hqueue
    obtain ⟨rfl, -⟩ := Prod.mk.inj (Option.some.inj hactive)
    refine ⟨hmain, inputs, .poll now clock, [], rfl, ⟨⟨now, clock, req.req, rfl, ?_⟩, ?_⟩, ?_, ?_⟩
    · rw [hfm, hevent, hnamed req watcher' (hqueue ▸ List.mem_cons_self)]
    · intro during input rest heq
      exact absurd heq (by simp)
    · rw [hfm, hcurrent]
    · exact Or.inl (hloader.trans hcurrent)
  | _ => cases hissues

/-- An input that hands out nothing adds to the history of the active navigation. -/
theorem Recorded.append {start : FrameManager} {inputs : List FrameInput} {input : FrameInput}
    (h : Recorded start inputs (Run.final FrameInput.apply start inputs))
    (htree : Tree (Run.final FrameInput.apply start inputs))
    (hissues : input.issues (Run.final FrameInput.apply start inputs) = false)
    (hguard : LoadersCurrent (Run.final FrameInput.apply start inputs) input) :
    Recorded start (inputs ++ [input])
      (FrameInput.apply (Run.final FrameInput.apply start inputs) input) := by
  intro watcher' deadline hactive
  obtain ⟨hcontinues, hmain⟩ := active_apply hissues fun watcher deadline heq =>
    (h watcher deadline heq).1
  obtain ⟨watcher, hnavigation, hid, hloader⟩ := hcontinues watcher' deadline hactive
  obtain ⟨-, before, issue, after, hinputs, hissued, hstart, hrenewed⟩ :=
    h watcher deadline hnavigation
  rw [hid, hloader]
  refine ⟨hmain watcher' deadline hactive, before, issue, after ++ [input], ?_, ?_, hstart, ?_⟩
  · rw [hinputs, List.append_assoc, List.cons_append]
  · refine hissued.append ?_
    rw [← hinputs]
    exact hissues
  · rcases hrenewed with hcurrent | hrenewed
    · rcases mainLoader_apply htree input with hsame | ⟨event, rfl, hreloads, hnew⟩ | ⟨id, rfl, hid, hlost⟩
      · exact Or.inl (hsame.trans hcurrent)
      · by_cases heq : some event.loaderId = watcher.loaderId
        · exact Or.inl (hnew.trans heq)
        · refine Or.inr ⟨after, event, [], rfl, ?_, heq⟩
          rw [← hinputs]
          exact hreloads
      · exact Or.inl (hlost.trans (hguard hid watcher deadline hnavigation hcurrent).symm)
    · exact Or.inr (hrenewed.append input)

theorem recorded_of_allowed (requestTimeout : Duration) (cap : Option UInt32)
    {inputs : List FrameInput}
    (hallowed : Run.Allowed FrameInput.apply LoadersCurrent (started requestTimeout cap) inputs) :
    Recorded (started requestTimeout cap) inputs
      (Run.final FrameInput.apply (started requestTimeout cap) inputs) := by
  refine Run.history (Recorded (started requestTimeout cap)) ?_ ?_ hallowed
  · intro watcher deadline hactive
    cases hactive
  · intro before input h hguard
    cases hissues : input.issues (Run.final FrameInput.apply (started requestTimeout cap) before) with
    | false => exact h.append (tree_of_run requestTimeout cap before) hissues hguard
    | true =>
      cases input with
      | poll now clock => exact recorded_issue (queueNamed_of_run requestTimeout cap before) hissues hguard
      | _ => cases hissues

theorem checkLifecycleComplete_new {watcher : NavigationWatcher} {frame : Frame} {id : NavigationId}
    (h : checkLifecycleComplete watcher frame = some (.newDocumentNavigation id)) :
    watcher.id = id ∧ frame.loaderId ≠ watcher.loaderId := by
  unfold checkLifecycleComplete at h
  split at h
  · cases h
  · split at h
    · cases h
    · split at h
      · cases h
      · split at h
        · rename_i hloader
          obtain ⟨rfl⟩ := h
          exact ⟨rfl, hloader⟩
        · cases h

/-- On a run whose requests are handed out with a current loader, a navigation that a poll reports as completed in a new document had its request handed out, and since then the main frame has received a loader other than the one it had at that moment. -/
theorem new_document_sound (requestTimeout : Duration) (cap : Option UInt32)
    (inputs : List FrameInput)
    (hallowed : Run.Allowed FrameInput.apply LoadersCurrent (started requestTimeout cap) inputs)
    (now clock : Instant) (id : NavigationId)
    (hdone : ((Run.final FrameInput.apply (started requestTimeout cap) inputs).poll now clock).2 =
      some (.navigationResult (.ok (.newDocumentNavigation id)))) :
    ∃ before issue after, inputs = before ++ issue :: after ∧
      IssuedAt (started requestTimeout cap) before issue after id ∧
      Renewed (started requestTimeout cap) before issue after
        (Run.final FrameInput.apply (started requestTimeout cap) before).mainLoader := by
  have hrecorded := recorded_of_allowed requestTimeout cap hallowed
  generalize Run.final FrameInput.apply (started requestTimeout cap) inputs = fm at hdone hrecorded
  have hstep := poll_step fm now clock
  rw [hdone] at hstep
  generalize (fm.poll now clock).1 = fm' at hstep
  cases hstep with
  | completed watcher deadline frame nav hnavigation hcap hframe hnav =>
    obtain ⟨rfl, hloader⟩ := checkLifecycleComplete_new hnav
    obtain ⟨hmain, before, issue, after, hinputs, hissued, hstart, hrenewed⟩ :=
      hrecorded watcher deadline hnavigation
    refine ⟨before, issue, after, hinputs, hissued, ?_⟩
    rw [hstart]
    refine hrenewed.resolve_left fun hcurrent => hloader ?_
    rw [← hcurrent, mainLoader, mainFrame?, hmain, Option.bind_some, hframe, Option.bind_some]

/-- A `goto` that finds its loader current ends with the `load` of the document it asked for. -/
theorem new_document_example :
    let main : FrameInput := .frameNavigated ⟨⟨"A"⟩, none, none, "about:blank", none⟩ ""
    let lifecycle (name loader : String) : FrameInput := .lifecycleEvent ⟨⟨"A"⟩, ⟨loader⟩, name⟩
    let goto (id : Nat) : FrameInput := .goto ⟨⟨id⟩, ⟨"Page.navigate", none, .object []⟩, 30⟩
    let inputs := [main, lifecycle "init" "L0", goto 1, .poll 0 0, lifecycle "init" "L1",
      lifecycle "load" "L1"]
    ∃ before issue after, inputs = before ++ issue :: after ∧
      IssuedAt (started 30 none) before issue after ⟨1⟩ ∧
      Renewed (started 30 none) before issue after
        (Run.final FrameInput.apply (started 30 none) before).mainLoader := by
  intro main lifecycle goto inputs
  refine new_document_sound 30 none inputs ?_ 0 0 ⟨1⟩ rfl
  refine ⟨trivial, trivial, trivial, fun _ req watcher rest hqueue => ?_, trivial, trivial, trivial⟩
  obtain ⟨hfirst, -⟩ := List.cons.inj hqueue
  obtain ⟨-, rfl⟩ := Prod.mk.inj hfirst
  exact ⟨rfl, rfl⟩

/-- A `goto` that waited behind another one is reported as completed by the document of the other, before anything has happened since its request was handed out. -/
theorem queued_goto_completed_early :
    let main : FrameInput := .frameNavigated ⟨⟨"A"⟩, none, none, "about:blank", none⟩ ""
    let lifecycle (name loader : String) : FrameInput := .lifecycleEvent ⟨⟨"A"⟩, ⟨loader⟩, name⟩
    let goto (id : Nat) : FrameInput := .goto ⟨⟨id⟩, ⟨"Page.navigate", none, .object []⟩, 30⟩
    let before := [main, lifecycle "init" "L0", goto 1, goto 2, .poll 0 0, lifecycle "init" "L1",
      lifecycle "load" "L1", .poll 0 0]
    ((Run.final FrameInput.apply (started 30 none) (before ++ [.poll 0 0])).poll 0 0).2 =
        some (.navigationResult (.ok (.newDocumentNavigation ⟨2⟩))) ∧
      IssuedAt (started 30 none) before (.poll 0 0) [] ⟨2⟩ ∧
      ¬Renewed (started 30 none) before (.poll 0 0) []
        (Run.final FrameInput.apply (started 30 none) before).mainLoader := by
  intro main lifecycle goto before
  refine ⟨rfl, ⟨⟨0, 0, _, rfl, rfl⟩, fun during input rest heq => ?_⟩, ?_⟩
  · exact absurd heq (by simp)
  · rintro ⟨during, event, rest, heq, -⟩
    exact absurd heq (by simp)

end FrameManager

end SpiderChrome
