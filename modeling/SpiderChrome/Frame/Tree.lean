import SpiderChrome.Frame.Navigation
import SpiderChrome.Frame.Removal

/-!
# The frame tree

Whatever is done to a frame manager, its frames form one tree below the main frame. `Tree` is the invariant, one lemma for each method carries it through, and `frame_tree` reads it at the end of an arbitrary run.
-/

namespace SpiderChrome

namespace FrameManager

open Forest

/-- Every frame is stored under its id, and the frames form one tree below the main frame. -/
structure Tree (fm : FrameManager) : Prop where
  keys : ∀ k f, fm.frames.get k = some f → f.id = k
  rooted : Rooted Frame.childFrames Frame.parentFrame fm.frames fm.mainFrame

theorem tree_new (requestTimeout : Duration) : Tree (new requestTimeout) where
  keys := fun k f h => by cases h
  rooted := Rooted.of_empty fun _ => rfl

/-- A method that leaves the frames alone keeps the tree. -/
theorem Tree.of_eq {fm fm' : FrameManager} (h : Tree fm) (hframes : fm'.frames = fm.frames)
    (hmain : fm'.mainFrame = fm.mainFrame) : Tree fm' where
  keys := by rw [hframes]; exact h.keys
  rooted := by rw [hframes, hmain]; exact h.rooted

/-- A change of one frame that keeps its id and its links keeps the tree. -/
theorem Tree.update {fm fm' : FrameManager} (h : Tree fm) (k : FrameId) (f : Frame → Frame)
    (hid : ∀ g, (f g).id = g.id) (hchildren : ∀ g, (f g).childFrames = g.childFrames)
    (hparent : ∀ g, (f g).parentFrame = g.parentFrame) (hframes : fm'.frames = fm.frames.update k f)
    (hmain : fm'.mainFrame = fm.mainFrame) : Tree fm' where
  keys := by
    intro x g hg
    rw [hframes, Table.get_update] at hg
    split at hg
    · obtain ⟨g', hg', rfl⟩ := Option.map_eq_some_iff.1 hg
      rw [hid, h.keys x g' hg']
    · exact h.keys x g hg
  rooted := by
    rw [hframes, hmain]
    exact h.rooted.update k f hchildren hparent

theorem Tree.linked {fm : FrameManager} (h : Tree fm) (p : FrameId) (f : Frame)
    (hf : fm.frames.get p = some f) (c : FrameId) (hc : c ∈ f.childFrames) (g : Frame)
    (hg : fm.frames.get c = some g) : g.parentFrame = some p := by
  obtain ⟨g', hg', hparent⟩ := (h.rooted.linked p f hf c).1 hc
  rw [Option.some.inj (hg.symm.trans hg'), hparent]

/-! ### Frames come and go -/

theorem Tree.onFrameAttached {fm : FrameManager} (h : Tree fm) (frameId : FrameId)
    (parentFrameId : Option FrameId) : Tree (fm.onFrameAttached frameId parentFrameId) := by
  unfold FrameManager.onFrameAttached
  split
  · exact h
  · rename_i hnone
    rw [Bool.not_eq_true, Option.isSome_eq_false_iff, Option.isNone_iff_eq_none] at hnone
    split
    · rename_i p
      split
      · rename_i parent hp
        constructor
        · intro x g hg
          change ((fm.frames.set p _).set frameId _).get x = some g at hg
          rw [Table.get_set, Table.get_set] at hg
          split at hg
          · rename_i hx
            rw [← Option.some.inj hg, hx]
            rfl
          · split at hg
            · rename_i hx
              rw [← Option.some.inj hg, hx]
              exact h.keys p parent hp
            · exact h.keys x g hg
        · refine h.rooted.attach hnone hp (fun x => List.mem_insert_iff) rfl rfl ?_
          exact congrArg some (h.keys p parent hp)
      · exact h
    · exact h

theorem Tree.onFrameDetached {fm : FrameManager} (h : Tree fm) (id : FrameId) :
    Tree (fm.onFrameDetached id) := by
  cases hget : fm.frames.get id with
  | none => rw [onFrameDetached_of_none hget]; exact h
  | some frame =>
    have hpruned := removeChildren_pruned h.linked hget
    have hid := h.keys id frame hget
    rw [onFrameDetached_of_some hget]
    constructor
    · intro x g hg
      rw [get_unlinkFromParent] at hg
      split at hg
      · obtain ⟨g', hg', rfl⟩ := Option.map_eq_some_iff.1 hg
        exact h.keys x g' (hpruned.kept x g' hg')
      · exact h.keys x g (hpruned.kept x g hg)
    · unfold unlinkFromParent
      split
      · rename_i p hp
        refine h.rooted.prune hpruned hget hp _ (fun m c => ?_) (fun m => rfl)
        rw [hid, List.mem_filter, decide_eq_true_eq]
      · rename_i hp
        exact Rooted.of_empty (h.rooted.prune_root hpruned (h.rooted.root_of_parent hget hp))

/-- A frame with its children gone is put back in its place. -/
theorem Tree.onChildNavigated {fm : FrameManager} (h : Tree fm) (frame : CdpFrame) :
    Tree (fm.onChildNavigated frame) := by
  unfold FrameManager.onChildNavigated
  split
  · rename_i f hget
    have hpruned := removeChildren_pruned h.linked hget
    constructor
    · intro x g hg
      change (Table.set _ _ _).get x = some g at hg
      rw [Table.get_set] at hg
      split at hg
      · rename_i hx
        rw [← Option.some.inj hg, hx]
        exact h.keys frame.id f hget
      · exact h.keys x g (hpruned.kept x g hg)
    · exact h.rooted.collapse hpruned hget rfl rfl
  · exact h

/-- The main frame is taken out with everything below it, so the table is empty. -/
theorem Tree.takeMainFrame {fm : FrameManager} (h : Tree fm) (frame : CdpFrame)
    (worldName : String) : (∀ x, (fm.takeMainFrame frame worldName).1.get x = none) ∧
      (fm.takeMainFrame frame worldName).2.childFrames = [] ∧
      (fm.takeMainFrame frame worldName).2.parentFrame = none ∧
      (fm.takeMainFrame frame worldName).2.id = frame.id := by
  unfold FrameManager.takeMainFrame
  split
  · rename_i main hmain
    split
    · rename_i f hget
      have hpruned := removeChildren_pruned h.linked hget
      refine ⟨h.rooted.prune_root hpruned hmain, rfl, ?_, rfl⟩
      obtain ⟨r, g, hr, hg, hparent, -⟩ := h.rooted.reached main f hget
      rw [Option.some.inj (hmain.symm.trans hr)] at hget
      rw [← hparent, Option.some.inj (hget.symm.trans hg)]
    · rename_i hget
      refine ⟨h.rooted.get_eq_none fun r hr => ?_, rfl, rfl, rfl⟩
      rw [← Option.some.inj (hmain.symm.trans hr), hget]
  · rename_i hmain
    refine ⟨h.rooted.get_eq_none fun r hr => ?_, rfl, rfl, rfl⟩
    rw [hmain] at hr
    cases hr

theorem Tree.onMainNavigated {fm : FrameManager} (h : Tree fm) (frame : CdpFrame)
    (worldName : String) : Tree (fm.onMainNavigated frame worldName) := by
  obtain ⟨hempty, hchildren, hparent, hid⟩ := h.takeMainFrame frame worldName
  rw [onMainNavigated_eq]
  constructor
  · intro x g hg
    rw [Table.get_set, hempty] at hg
    split at hg
    · rename_i hx
      rw [← Option.some.inj hg, hx]
      exact hid
    · cases hg
  · exact Rooted.singleton hempty hchildren hparent

theorem Tree.onFrameNavigated {fm : FrameManager} (h : Tree fm) (frame : CdpFrame)
    (worldName : String) : Tree (fm.onFrameNavigated frame worldName) := by
  unfold FrameManager.onFrameNavigated
  split
  · exact h.onChildNavigated frame
  · exact h.onMainNavigated frame worldName

theorem Tree.onFrameTree {fm : FrameManager} (h : Tree fm) (worldName : FrameId → String)
    (tree : FrameTree) : Tree (onFrameTree worldName tree fm) := by
  rw [onFrameTree_eq]
  induction tree.nodes generalizing fm with
  | nil => exact h
  | cons frame rest ih =>
    exact ih ((h.onFrameAttached frame.id frame.parentId).onFrameNavigated frame _)

/-! ### Runs -/

theorem lifecycleUpdate_links (event : EventLifecycleEvent) (f : Frame) :
    (lifecycleUpdate event f).id = f.id ∧ (lifecycleUpdate event f).childFrames = f.childFrames ∧
      (lifecycleUpdate event f).parentFrame = f.parentFrame := by
  unfold lifecycleUpdate
  split
  · exact ⟨rfl, rfl, rfl⟩
  · exact ⟨rfl, rfl, rfl⟩

theorem adoptContext_links (context : ExecutionContextDescription) (f : Frame) :
    (adoptContext context f).id = f.id ∧ (adoptContext context f).childFrames = f.childFrames ∧
      (adoptContext context f).parentFrame = f.parentFrame := by
  unfold adoptContext
  split
  · exact ⟨rfl, rfl, rfl⟩
  · split
    · exact ⟨rfl, rfl, rfl⟩
    · exact ⟨rfl, rfl, rfl⟩

theorem destroyContext_links (uniqueId : String) (f : Frame) :
    (f.destroyContext uniqueId).id = f.id ∧
      (f.destroyContext uniqueId).childFrames = f.childFrames ∧
      (f.destroyContext uniqueId).parentFrame = f.parentFrame := by
  unfold Frame.destroyContext
  split
  · exact ⟨rfl, rfl, rfl⟩
  · split
    · exact ⟨rfl, rfl, rfl⟩
    · exact ⟨rfl, rfl, rfl⟩

theorem Tree.onHttpRequestFinished {fm : FrameManager} (h : Tree fm) (request : HttpRequest) :
    Tree (fm.onHttpRequestFinished request) := by
  unfold FrameManager.onHttpRequestFinished
  split
  · rename_i id _
    exact h.update id (Frame.setRequest · request) (fun _ => rfl) (fun _ => rfl) (fun _ => rfl) rfl
      rfl
  · exact h

theorem Tree.onFrameExecutionContextCreated {fm : FrameManager} (h : Tree fm)
    (context : ExecutionContextDescription) : Tree (fm.onFrameExecutionContextCreated context) := by
  have hadopt : ∀ (fm' : FrameManager) (frameId : FrameId) (frame : Frame),
      fm.frames.get frameId = some frame → fm'.mainFrame = fm.mainFrame →
      fm'.frames = fm.frames.set frameId (adoptContext context frame) → Tree fm' := by
    intro fm' frameId frame hget hmain hframes
    rw [← Table.update_of_get hget] at hframes
    exact h.update frameId (adoptContext context) (fun g => (adoptContext_links context g).1)
      (fun g => (adoptContext_links context g).2.1) (fun g => (adoptContext_links context g).2.2)
      hframes hmain
  unfold FrameManager.onFrameExecutionContextCreated
  split
  · split
    · rename_i hget
      split
      · exact hadopt _ _ _ hget rfl rfl
      · exact hadopt _ _ _ hget rfl rfl
    · split
      · exact h.of_eq rfl rfl
      · exact h
  · split
    · exact h.of_eq rfl rfl
    · exact h

theorem Tree.onFrameExecutionContextDestroyed {fm : FrameManager} (h : Tree fm)
    (uniqueId : String) : Tree (fm.onFrameExecutionContextDestroyed uniqueId) := by
  unfold FrameManager.onFrameExecutionContextDestroyed
  split
  · rename_i id _
    exact h.update id (Frame.destroyContext · uniqueId) (fun g => (destroyContext_links uniqueId g).1)
      (fun g => (destroyContext_links uniqueId g).2.1)
      (fun g => (destroyContext_links uniqueId g).2.2) rfl rfl
  · exact h

theorem Tree.onExecutionContextsCleared {fm : FrameManager} (h : Tree fm) :
    Tree fm.onExecutionContextsCleared := by
  have hfold : ∀ (ids : List FrameId) (fm : FrameManager), Tree fm → Tree { fm with
      frames := ids.foldl (fun frames id => frames.update id Frame.clearContexts) fm.frames } := by
    intro ids
    induction ids with
    | nil => exact fun fm h => h
    | cons id rest ih =>
      intro fm h
      exact ih { fm with frames := fm.frames.update id Frame.clearContexts }
        (h.update id Frame.clearContexts (fun _ => rfl) (fun _ => rfl) (fun _ => rfl) rfl rfl)
  exact (hfold fm.contextIds.values fm h).of_eq rfl rfl

theorem Tree.apply {fm : FrameManager} (h : Tree fm) (input : FrameInput) :
    Tree (FrameInput.apply fm input) := by
  cases input with
  | goto req => exact h.of_eq (goto_frames fm req) (goto_mainFrame fm req)
  | poll now clock => exact h.of_eq (poll_frames fm now clock) (poll_mainFrame fm now clock)
  | frameTree tree worldName => exact h.onFrameTree worldName tree
  | frameAttached frameId parentFrameId => exact h.onFrameAttached frameId parentFrameId
  | frameDetached frameId => exact h.onFrameDetached frameId
  | frameNavigated frame worldName => exact h.onFrameNavigated frame worldName
  | navigatedWithinDocument event =>
    exact h.update event.frameId (Frame.navigatedWithinUrl · event.url) (fun _ => rfl)
      (fun _ => rfl) (fun _ => rfl) rfl rfl
  | stoppedLoading frameId =>
    exact h.update frameId Frame.onLoadingStopped (fun _ => rfl) (fun _ => rfl) (fun _ => rfl) rfl rfl
  | startedLoading frameId =>
    exact h.update frameId Frame.onLoadingStarted (fun _ => rfl) (fun _ => rfl) (fun _ => rfl) rfl rfl
  | lifecycleEvent event =>
    exact h.update event.frameId (lifecycleUpdate event) (fun g => (lifecycleUpdate_links event g).1)
      (fun g => (lifecycleUpdate_links event g).2.1) (fun g => (lifecycleUpdate_links event g).2.2)
      rfl rfl
  | httpRequestFinished request => exact h.onHttpRequestFinished request
  | contextCreated context => exact h.onFrameExecutionContextCreated context
  | contextDestroyed uniqueId => exact h.onFrameExecutionContextDestroyed uniqueId
  | contextsCleared => exact h.onExecutionContextsCleared
  | evictStaleContextIds => exact h.of_eq rfl rfl

/-- Every reachable manager keeps its frames in one tree. -/
theorem tree_of_run (requestTimeout : Duration) (cap : Option UInt32) (inputs : List FrameInput) :
    Tree (Run.final FrameInput.apply (started requestTimeout cap) inputs) := by
  have hstarted : Tree (started requestTimeout cap) := (tree_new requestTimeout).of_eq rfl rfl
  exact Run.invariant_of_step Tree (fun _ input h => Tree.apply h input) hstarted inputs

/-! ### What a removal takes out -/

private theorem drop_eq_self {id : FrameId} {f : Frame} (h : id ∉ f.childFrames) :
    { f with childFrames := f.childFrames.filter (· ≠ id) } = f := by
  have heq : f.childFrames.filter (· ≠ id) = f.childFrames := by
    rw [List.filter_eq_self]
    exact fun c hc => decide_eq_true fun hcid => h (hcid ▸ hc)
  rw [heq]

/-- Everything below a detached frame is gone. Outside, only its parent changes: it no longer lists the frame. -/
theorem Tree.get_onFrameDetached {fm : FrameManager} (h : Tree fm) (id x : FrameId) :
    (Below Frame.childFrames fm.frames id x → (fm.onFrameDetached id).frames.get x = none) ∧
    (¬Below Frame.childFrames fm.frames id x → (fm.onFrameDetached id).frames.get x =
      (fm.frames.get x).map fun f => { f with childFrames := f.childFrames.filter (· ≠ id) }) := by
  cases hget : fm.frames.get id with
  | none =>
    rw [onFrameDetached_of_none hget]
    refine ⟨fun hbelow => ?_, fun _ => ?_⟩
    · rcases Relation.ReflTransGen.cases_head hbelow with heq | ⟨c, ⟨f, hf, _⟩, _⟩
      · exact heq ▸ hget
      · rw [hget] at hf
        cases hf
    · cases hx : fm.frames.get x with
      | none => rfl
      | some f =>
        have hnot : id ∉ f.childFrames := fun hmem => by
          obtain ⟨g, hg, -⟩ := (h.rooted.linked x f hx id).1 hmem
          rw [hget] at hg
          cases hg
        rw [Option.map_some, drop_eq_self hnot]
  | some frame =>
    have hpruned := removeChildren_pruned h.linked hget
    rw [onFrameDetached_of_some hget]
    change (_ → (unlinkFromParent _ _).get x = none) ∧ (_ → (unlinkFromParent _ _).get x = _)
    rw [get_unlinkFromParent, h.keys id frame hget]
    refine ⟨fun hbelow => ?_, fun hbelow => ?_⟩
    · rw [hpruned.get_eq_none_of_below (List.mem_singleton_self id) hbelow, Option.map_none, ite_self]
    · rw [hpruned.get_of_not_below hbelow]
      split
      · rfl
      · rename_i hp
        cases hx : fm.frames.get x with
        | none => rfl
        | some f =>
          have hnot : id ∉ f.childFrames := fun hmem => hp (h.linked x f hx id hmem frame hget)
          rw [Option.map_some, drop_eq_self hnot]

/-- The parent links have no cycle either. -/
theorem Tree.parent_acyclic {fm : FrameManager} (h : Tree fm) (id : FrameId) :
    ¬Relation.TransGen (fun c p => ∃ f, fm.frames.get c = some f ∧ f.parentFrame = some p) id id := by
  intro hcycle
  refine h.rooted.acyclic id ?_
  rw [← Relation.transGen_swap]
  refine Relation.TransGen.mono (fun c p hparent => ?_) _ _ hcycle
  obtain ⟨f, hf, hp⟩ := hparent
  obtain ⟨g, hg⟩ := h.rooted.parent_mem hf hp
  exact ⟨g, hg, (h.rooted.linked p g hg c).2 ⟨f, hf, hp⟩⟩

/-- After every run the frames are stored under their ids, the two links between them agree and have no cycle, every frame hangs below the main frame, and there is none when the main frame is missing. Removing a frame, or the children of a frame, follows the recursion of the source to its end and takes out exactly what hangs below. -/
theorem frame_tree (requestTimeout : Duration) (cap : Option UInt32) (inputs : List FrameInput) :
    let fm := Run.final FrameInput.apply (started requestTimeout cap) inputs
    (∀ id f, fm.frames.get id = some f → f.id = id) ∧
    (∀ id f, fm.frames.get id = some f → ∀ c,
      c ∈ f.childFrames ↔ ∃ g, fm.frames.get c = some g ∧ g.parentFrame = some id) ∧
    (∀ id, ¬Relation.TransGen
      (fun c p => ∃ f, fm.frames.get c = some f ∧ f.parentFrame = some p) id id) ∧
    (∀ id f, fm.frames.get id = some f →
      ∃ main, fm.mainFrame = some main ∧ Below Frame.childFrames fm.frames main id) ∧
    (fm.mainFrame? = none → ∀ id, fm.frames.get id = none) ∧
    (∀ frames id, removeFramesRecursively frames id =
      match frames.get id with
      | some frame =>
        (unlinkFromParent (frame.childFrames.foldl
            (fun frames child => (removeFramesRecursively frames child).1) (frames.remove id)) frame,
          some { frame with parentFrame := none })
      | none => (frames, none)) ∧
    (∀ id x, (Below Frame.childFrames fm.frames id x →
        (fm.onFrameDetached id).frames.get x = none) ∧
      (¬Below Frame.childFrames fm.frames id x → (fm.onFrameDetached id).frames.get x =
        (fm.frames.get x).map fun f => { f with childFrames := f.childFrames.filter (· ≠ id) })) ∧
    ∀ id f, fm.frames.get id = some f → ∀ x,
      (Below Frame.childFrames fm.frames id x →
        (removeChildren (fm.frames.remove id) f.childFrames).get x = none) ∧
      (¬Below Frame.childFrames fm.frames id x →
        (removeChildren (fm.frames.remove id) f.childFrames).get x = fm.frames.get x) := by
  intro fm
  have htree : Tree fm := tree_of_run requestTimeout cap inputs
  refine ⟨htree.keys, htree.rooted.linked, htree.parent_acyclic, ?_, ?_,
    removeFramesRecursively_eq, htree.get_onFrameDetached, ?_⟩
  · intro id f hf
    obtain ⟨main, _, hmain, _, _, hbelow⟩ := htree.rooted.reached id f hf
    exact ⟨main, hmain, hbelow⟩
  · intro hnone
    refine htree.rooted.get_eq_none fun main hmain => ?_
    rw [mainFrame?, hmain] at hnone
    exact hnone
  · intro id f hf x
    have hpruned := removeChildren_pruned htree.linked hf
    exact ⟨hpruned.get_eq_none_of_below (List.mem_singleton_self id), hpruned.get_of_not_below⟩

end FrameManager

end SpiderChrome
