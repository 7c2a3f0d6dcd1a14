import SpiderChrome.Frame.Main

/-!
# Execution contexts and the main frame's id

The manager finds the frame of an execution context by its unique id, in a table that stores the id the frame had when the context was created. `ContextsTracked` says that the table leads from every context a frame holds to that frame. A main frame takes its contexts along to a new id, and the table is not told: `contexts_tracked_iff` shows that this is all that can break it.
-/

namespace SpiderChrome

namespace DOMWorld

/-- The first world is the second, or holds no context. -/
def Le (world' world : DOMWorld) : Prop :=
  world' = world ∨ world'.executionCtx = none ∧ world'.executionCtxUniqueId = none

/-- The context and its unique id are set and taken together. -/
def Paired (world : DOMWorld) : Prop :=
  world.executionCtxUniqueId = none → world.executionCtx = none

theorem Le.trans {a b c : DOMWorld} (h : a.Le b) (h' : b.Le c) : a.Le c := by
  rcases h with rfl | h
  · exact h'
  · exact Or.inr h

theorem Le.holds {a b : DOMWorld} (h : a.Le b) {u : String} (hu : a.executionCtxUniqueId = some u) :
    b.executionCtxUniqueId = some u := by
  rcases h with rfl | ⟨-, hnone⟩
  · exact hu
  · rw [hnone] at hu
    cases hu

theorem Le.paired {a b : DOMWorld} (h : a.Le b) (hb : b.Paired) : a.Paired := by
  rcases h with rfl | ⟨hnone, -⟩
  · exact hb
  · exact fun _ => hnone

end DOMWorld

namespace Frame

/-- The unique id is that of the main world's context or of the secondary world's. -/
def Holds (f : Frame) (u : String) : Prop :=
  f.mainWorld.executionCtxUniqueId = some u ∨ f.secondaryWorld.executionCtxUniqueId = some u

/-- The first frame holds no context that the second does not hold in the same world. -/
structure Le (f' f : Frame) : Prop where
  main : f'.mainWorld.Le f.mainWorld
  secondary : f'.secondaryWorld.Le f.secondaryWorld

/-- The frame holds no context. -/
structure Empty (f : Frame) : Prop where
  main : f.mainWorld.executionCtx = none ∧ f.mainWorld.executionCtxUniqueId = none
  secondary : f.secondaryWorld.executionCtx = none ∧ f.secondaryWorld.executionCtxUniqueId = none

/-- What a frame keeps to on its own: the two worlds are coherent and never share a context. -/
structure Coherent (f : Frame) : Prop where
  main : f.mainWorld.Paired
  secondary : f.secondaryWorld.Paired
  apart : ∀ u, f.mainWorld.executionCtxUniqueId = some u →
    f.secondaryWorld.executionCtxUniqueId ≠ some u

theorem Le.refl (f : Frame) : f.Le f := ⟨Or.inl rfl, Or.inl rfl⟩

theorem Le.trans {a b c : Frame} (h : a.Le b) (h' : b.Le c) : a.Le c :=
  ⟨h.main.trans h'.main, h.secondary.trans h'.secondary⟩

theorem Le.holds {a b : Frame} (h : a.Le b) {u : String} (hu : a.Holds u) : b.Holds u :=
  hu.imp h.main.holds h.secondary.holds

theorem Le.coherent {a b : Frame} (h : a.Le b) (hb : b.Coherent) : a.Coherent where
  main := h.main.paired hb.main
  secondary := h.secondary.paired hb.secondary
  apart := fun u hu hu' => hb.apart u (h.main.holds hu) (h.secondary.holds hu')

theorem Empty.not_holds {f : Frame} (h : f.Empty) (u : String) : ¬f.Holds u := by
  rintro (hu | hu)
  · rw [h.main.2] at hu
    cases hu
  · rw [h.secondary.2] at hu
    cases hu

theorem Empty.coherent {f : Frame} (h : f.Empty) : f.Coherent where
  main := fun _ => h.main.1
  secondary := fun _ => h.secondary.1
  apart := fun u hu => absurd (Or.inl hu) (h.not_holds u)

theorem Empty.of_le {a b : Frame} (h : a.Le b) (hb : b.Empty) : a.Empty where
  main := by
    rcases h.main with heq | hnone
    · rw [heq]; exact hb.main
    · exact hnone
  secondary := by
    rcases h.secondary with heq | hnone
    · rw [heq]; exact hb.secondary
    · exact hnone

theorem Empty.clearContexts (f : Frame) : f.clearContexts.Empty := ⟨⟨rfl, rfl⟩, ⟨rfl, rfl⟩⟩

theorem Empty.of_worlds {f : Frame} (hmain : f.mainWorld = .default)
    (hsecondary : f.secondaryWorld = .default) : f.Empty := by
  constructor
  · rw [hmain]; exact ⟨rfl, rfl⟩
  · rw [hsecondary]; exact ⟨rfl, rfl⟩

theorem Le.of_worlds {f' f : Frame} (hmain : f'.mainWorld = f.mainWorld)
    (hsecondary : f'.secondaryWorld = f.secondaryWorld) : f'.Le f :=
  ⟨Or.inl hmain, Or.inl hsecondary⟩

theorem Le.destroyContext (f : Frame) (u : String) : (f.destroyContext u).Le f := by
  unfold Frame.destroyContext
  split
  · exact ⟨Or.inr ⟨rfl, rfl⟩, Or.inl rfl⟩
  · split
    · exact ⟨Or.inl rfl, Or.inr ⟨rfl, rfl⟩⟩
    · exact Le.refl f

theorem Coherent.not_holds_destroyContext {f : Frame} (h : f.Coherent) (u : String) :
    ¬(f.destroyContext u).Holds u := by
  unfold Frame.destroyContext
  split
  · rename_i hmain
    rintro (hu | hu)
    · cases hu
    · exact h.apart u hmain hu
  · rename_i hmain
    split
    · rintro (hu | hu)
      · exact hmain hu
      · cases hu
    · rename_i hsecondary
      rintro (hu | hu)
      · exact hmain hu
      · exact hsecondary hu

end Frame

namespace FrameManager

/-- The context table leads from every context that a frame holds to the frame. -/
def ContextsTracked (fm : FrameManager) : Prop :=
  ∀ k f u, fm.frames.get k = some f → f.Holds u → fm.contextIds.get u = some f.id

/-- The input does not give the main frame another id while it holds a context. -/
def RenamesContextFree (fm : FrameManager) (input : FrameInput) : Prop :=
  input.newMain fm.mainFrame = fm.mainFrame ∨ ∀ f u, fm.mainFrame? = some f → ¬f.Holds u

/-! ### Frames that move -/

/-- Every frame afterwards is empty, or was there under the same id, or is the main frame before and after. The context table is the same. -/
structure Moved (fm fm' : FrameManager) : Prop where
  frames : ∀ k f', fm'.frames.get k = some f' → f'.Empty ∨
    (fm'.mainFrame = fm.mainFrame ∧ ∃ f, fm.frames.get k = some f ∧ f'.Le f) ∨
    (fm'.mainFrame = some k ∧ ∃ f, fm.mainFrame? = some f ∧ f'.Le f)
  contextIds : fm'.contextIds = fm.contextIds

theorem Moved.trans {fm fm' fm'' : FrameManager} (h : Moved fm fm') (h' : Moved fm' fm'') :
    Moved fm fm'' := by
  refine ⟨fun k f'' hf'' => ?_, h'.contextIds.trans h.contextIds⟩
  rcases h'.frames k f'' hf'' with hempty | ⟨hmain', f', hf', hle'⟩ | ⟨hmain', f', hf', hle'⟩
  · exact Or.inl hempty
  · rcases h.frames k f' hf' with hempty | ⟨hmain, f, hf, hle⟩ | ⟨hmain, f, hf, hle⟩
    · exact Or.inl (hempty.of_le hle')
    · exact Or.inr (Or.inl ⟨hmain'.trans hmain, f, hf, hle'.trans hle⟩)
    · exact Or.inr (Or.inr ⟨hmain'.trans hmain, f, hf, hle'.trans hle⟩)
  · obtain ⟨main, hfm', hget⟩ := Option.bind_eq_some_iff.1 hf'
    rcases h.frames main f' hget with hempty | ⟨hmain, f, hf, hle⟩ | ⟨hmain, f, hf, hle⟩
    · exact Or.inl (hempty.of_le hle')
    · refine Or.inr (Or.inr ⟨hmain', f, ?_, hle'.trans hle⟩)
      rw [mainFrame?, ← hmain, hfm']
      exact hf
    · exact Or.inr (Or.inr ⟨hmain', f, hf, hle'.trans hle⟩)

/-- Frames that stay where they are, or go, have moved. -/
theorem Moved.of_sub {fm fm' : FrameManager} (hmain : fm'.mainFrame = fm.mainFrame)
    (hcontexts : fm'.contextIds = fm.contextIds)
    (h : ∀ k f', fm'.frames.get k = some f' → f'.Empty ∨ ∃ f, fm.frames.get k = some f ∧ f'.Le f) :
    Moved fm fm' := by
  refine ⟨fun k f' hf' => ?_, hcontexts⟩
  rcases h k f' hf' with hempty | hsame
  · exact Or.inl hempty
  · exact Or.inr (Or.inl ⟨hmain, hsame⟩)

theorem Moved.of_eq {fm fm' : FrameManager} (hmain : fm'.mainFrame = fm.mainFrame)
    (hcontexts : fm'.contextIds = fm.contextIds) (hframes : fm'.frames = fm.frames) :
    Moved fm fm' := by
  refine .of_sub hmain hcontexts fun k f' hf' => Or.inr ⟨f', ?_, .refl f'⟩
  rw [← hframes]
  exact hf'

theorem Moved.of_update {fm fm' : FrameManager} (k : FrameId) (f : Frame → Frame)
    (hle : ∀ g, (f g).Le g) (hmain : fm'.mainFrame = fm.mainFrame)
    (hcontexts : fm'.contextIds = fm.contextIds) (hframes : fm'.frames = fm.frames.update k f) :
    Moved fm fm' := by
  refine .of_sub hmain hcontexts fun x g' hg' => ?_
  rw [hframes, Table.get_update] at hg'
  split at hg'
  · obtain ⟨g, hg, rfl⟩ := Option.map_eq_some_iff.1 hg'
    exact Or.inr ⟨g, hg, hle g⟩
  · exact Or.inr ⟨g', hg', .refl g'⟩

theorem moved_onFrameAttached (fm : FrameManager) (frameId : FrameId)
    (parentFrameId : Option FrameId) : Moved fm (fm.onFrameAttached frameId parentFrameId) := by
  unfold onFrameAttached
  split
  · exact .of_eq rfl rfl rfl
  · split
    · rename_i p
      split
      · rename_i parent hp
        refine .of_sub rfl rfl fun k f' hf' => ?_
        change ((fm.frames.set p _).set frameId _).get k = some f' at hf'
        rw [Table.get_set, Table.get_set] at hf'
        split at hf'
        · rw [← Option.some.inj hf']
          exact Or.inl (.of_worlds rfl rfl)
        · split at hf'
          · rename_i hk
            rw [← Option.some.inj hf']
            exact Or.inr ⟨parent, hk ▸ hp, .of_worlds rfl rfl⟩
          · exact Or.inr ⟨f', hf', .refl f'⟩
      · exact .of_eq rfl rfl rfl
    · exact .of_eq rfl rfl rfl

theorem moved_onFrameDetached {fm : FrameManager} (h : Tree fm) (id : FrameId) :
    Moved fm (fm.onFrameDetached id) := by
  classical
  refine .of_sub rfl rfl fun k f' hf' => ?_
  by_cases hbelow : Forest.Below Frame.childFrames fm.frames id k
  · rw [(h.get_onFrameDetached id k).1 hbelow] at hf'
    cases hf'
  · rw [(h.get_onFrameDetached id k).2 hbelow] at hf'
    obtain ⟨f, hf, rfl⟩ := Option.map_eq_some_iff.1 hf'
    exact Or.inr ⟨f, hf, .of_worlds rfl rfl⟩

theorem moved_onChildNavigated {fm : FrameManager} (h : Tree fm) (frame : CdpFrame) :
    Moved fm (fm.onChildNavigated frame) := by
  unfold onChildNavigated
  split
  · rename_i f hget
    refine .of_sub rfl rfl fun k f' hf' => ?_
    change (Table.set _ _ _).get k = some f' at hf'
    rw [Table.get_set] at hf'
    split at hf'
    · rename_i hk
      rw [← Option.some.inj hf']
      exact Or.inr ⟨f, hk ▸ hget, .of_worlds rfl rfl⟩
    · exact Or.inr ⟨f', (removeChildren_pruned h.linked hget).kept k f' hf', .refl f'⟩
  · exact .of_eq rfl rfl rfl

theorem moved_onMainNavigated {fm : FrameManager} (h : Tree fm) (frame : CdpFrame)
    (worldName : String) : Moved fm (fm.onMainNavigated frame worldName) := by
  rw [onMainNavigated_eq]
  refine ⟨fun k f' hf' => ?_, rfl⟩
  rw [Table.get_set, (h.takeMainFrame frame worldName).1] at hf'
  split at hf'
  · rename_i hk
    rw [← Option.some.inj hf']
    rcases takeMainFrame_cases fm frame worldName with ⟨-, hnew⟩ | ⟨f, hf, htaken⟩
    · rw [hnew]
      exact Or.inl (.of_worlds rfl rfl)
    · rw [htaken]
      exact Or.inr (Or.inr ⟨congrArg some hk.symm, f, hf, .of_worlds rfl rfl⟩)
  · cases hf'

theorem moved_onFrameNavigated {fm : FrameManager} (h : Tree fm) (frame : CdpFrame)
    (worldName : String) : Moved fm (fm.onFrameNavigated frame worldName) := by
  unfold onFrameNavigated
  split
  · exact moved_onChildNavigated h frame
  · exact moved_onMainNavigated h frame worldName

theorem moved_onFrameTree {fm : FrameManager} (h : Tree fm) (worldName : FrameId → String)
    (tree : FrameTree) : Moved fm (onFrameTree worldName tree fm) := by
  rw [onFrameTree_eq]
  induction tree.nodes generalizing fm with
  | nil => exact .of_eq rfl rfl rfl
  | cons frame rest ih =>
    have hattached := h.onFrameAttached frame.id frame.parentId
    have hnavigated := moved_onFrameNavigated hattached frame (worldName frame.id)
    have hrest := ih (hattached.onFrameNavigated frame (worldName frame.id))
    exact ((moved_onFrameAttached fm frame.id frame.parentId).trans hnavigated).trans hrest

/-- Where frames only move, what is tracked afterwards depends on the main frame alone. -/
theorem tracked_of_moved_iff {fm fm' : FrameManager} (hmoved : Moved fm fm')
    (hkept : fm'.mainFrame ≠ fm.mainFrame → MainKept fm fm') (htree : Tree fm) (htree' : Tree fm')
    (h : ContextsTracked fm) :
    ContextsTracked fm' ↔
      fm'.mainFrame = fm.mainFrame ∨ ∀ f u, fm.mainFrame? = some f → ¬f.Holds u := by
  constructor
  · intro h'
    by_cases hmain : fm'.mainFrame = fm.mainFrame
    · exact Or.inl hmain
    · refine Or.inr fun f u hf hu => hmain ?_
      obtain ⟨f', hf', hmainWorld, hsecondaryWorld, -⟩ := (hkept hmain).kept f hf
      obtain ⟨k, hk, hget⟩ := Option.bind_eq_some_iff.1 hf
      obtain ⟨k', hk', hget'⟩ := Option.bind_eq_some_iff.1 hf'
      have hu' : f'.Holds u := by
        unfold Frame.Holds
        rw [hmainWorld, hsecondaryWorld]
        exact hu
      have hid := h k f u hget hu
      have hid' := h' k' f' u hget' hu'
      rw [htree.keys k f hget] at hid
      rw [htree'.keys k' f' hget', hmoved.contextIds, hid] at hid'
      rw [hk, hk', Option.some.inj hid']
  · intro hguard k f' u hget hu
    rw [htree'.keys k f' hget, hmoved.contextIds]
    rcases hmoved.frames k f' hget with hempty | ⟨-, f, hf, hle⟩ | ⟨hmain', f, hf, hle⟩
    · exact absurd hu (hempty.not_holds u)
    · rw [h k f u hf (hle.holds hu), htree.keys k f hf]
    · rcases hguard with hmain | hnone
      · obtain ⟨main, hk, hmainget⟩ := Option.bind_eq_some_iff.1 hf
        rw [h main f u hmainget (hle.holds hu), htree.keys main f hmainget, ← hk, ← hmain, hmain']
      · exact absurd (hle.holds hu) (hnone f u hf)

/-! ### Contexts come and go -/

theorem onFrameExecutionContextDestroyed_of_some {fm : FrameManager} {u : String} {id : FrameId}
    (h : fm.contextIds.get u = some id) :
    fm.onFrameExecutionContextDestroyed u = { fm with
      contextIds := fm.contextIds.remove u
      frames := fm.frames.update id fun frame => frame.destroyContext u } := by
  rw [onFrameExecutionContextDestroyed, h]

theorem onFrameExecutionContextDestroyed_of_none {fm : FrameManager} {u : String}
    (h : fm.contextIds.get u = none) : fm.onFrameExecutionContextDestroyed u = fm := by
  rw [onFrameExecutionContextDestroyed, h]

/-- No frame holds a context that was destroyed. -/
theorem ContextsTracked.not_holds_destroyed {fm : FrameManager} (h : ContextsTracked fm)
    (htree : Tree fm) (hcoherent : ∀ k f, fm.frames.get k = some f → f.Coherent) (u : String)
    (k : FrameId) (f' : Frame)
    (hget : (fm.onFrameExecutionContextDestroyed u).frames.get k = some f') : ¬f'.Holds u := by
  intro hu
  cases hid : fm.contextIds.get u with
  | none =>
    rw [onFrameExecutionContextDestroyed_of_none hid] at hget
    rw [h k f' u hget hu] at hid
    cases hid
  | some id =>
    rw [onFrameExecutionContextDestroyed_of_some hid, Table.get_update] at hget
    split at hget
    · obtain ⟨f, hf, rfl⟩ := Option.map_eq_some_iff.1 hget
      exact (hcoherent k f hf).not_holds_destroyContext u hu
    · rename_i hk
      have hid' := h k f' u hget hu
      rw [hid, htree.keys k f' hget] at hid'
      exact hk (Option.some.inj hid').symm

theorem frames_destroyed_le (fm : FrameManager) (u : String) (k : FrameId) (f' : Frame)
    (hget : (fm.onFrameExecutionContextDestroyed u).frames.get k = some f') :
    ∃ f, fm.frames.get k = some f ∧ f'.Le f := by
  unfold onFrameExecutionContextDestroyed at hget
  split at hget
  · change (Table.update _ _ _).get k = some f' at hget
    rw [Table.get_update] at hget
    split at hget
    · obtain ⟨f, hf, rfl⟩ := Option.map_eq_some_iff.1 hget
      exact ⟨f, hf, .destroyContext f u⟩
    · exact ⟨f', hget, .refl f'⟩
  · exact ⟨f', hget, .refl f'⟩

theorem ContextsTracked.destroyed {fm : FrameManager} (h : ContextsTracked fm) (htree : Tree fm)
    (hcoherent : ∀ k f, fm.frames.get k = some f → f.Coherent) (u : String) :
    ContextsTracked (fm.onFrameExecutionContextDestroyed u) := by
  intro k f' v hget hv
  have hvu : v ≠ u := fun heq =>
    h.not_holds_destroyed htree hcoherent u k f' hget (heq ▸ hv)
  obtain ⟨f, hf, hle⟩ := frames_destroyed_le fm u k f' hget
  have hid := h k f v hf (hle.holds hv)
  rw [(htree.onFrameExecutionContextDestroyed u).keys k f' hget, ← htree.keys k f hf, ← hid]
  cases hu : fm.contextIds.get u with
  | none => rw [onFrameExecutionContextDestroyed_of_none hu]
  | some id =>
    rw [onFrameExecutionContextDestroyed_of_some hu]
    exact Table.get_remove_of_ne _ hvu

theorem get_foldl_clearContexts (ids : List FrameId) (frames : Table FrameId Frame) (k : FrameId) :
    (ids.foldl (fun frames id => frames.update id Frame.clearContexts) frames).get k =
      (frames.get k).map fun f => if k ∈ ids then f.clearContexts else f := by
  induction ids generalizing frames with
  | nil => exact Option.map_id.symm ▸ rfl
  | cons id rest ih =>
    rw [List.foldl_cons, ih, Table.get_update]
    by_cases hid : k = id
    · have htwice : (fun f : Frame => if k ∈ rest then f.clearContexts else f) ∘
          Frame.clearContexts = Frame.clearContexts := by
        funext f
        exact ite_self f.clearContexts
      rw [if_pos hid, Option.map_map, htwice]
      simp only [hid, List.mem_cons, true_or, if_true]
    · rw [if_neg hid]
      simp only [List.mem_cons, hid, false_or]

/-- Once all contexts are cleared, no frame holds one. -/
theorem ContextsTracked.empty_cleared {fm : FrameManager} (h : ContextsTracked fm) (htree : Tree fm)
    (hcoherent : ∀ k f, fm.frames.get k = some f → f.Coherent) (k : FrameId) (f' : Frame)
    (hget : fm.onExecutionContextsCleared.frames.get k = some f') : f'.Empty := by
  unfold onExecutionContextsCleared at hget
  rw [get_foldl_clearContexts] at hget
  obtain ⟨f, hf, rfl⟩ := Option.map_eq_some_iff.1 hget
  split
  · exact .clearContexts f
  · rename_i hk
    have hnone : ∀ u, ¬f.Holds u := fun u hu => hk <| by
      rw [Table.mem_values]
      exact ⟨u, by rw [h k f u hf hu, htree.keys k f hf]⟩
    have hmain : f.mainWorld.executionCtxUniqueId = none :=
      Option.eq_none_iff_forall_ne_some.2 fun u hu => hnone u (Or.inl hu)
    have hsecondary : f.secondaryWorld.executionCtxUniqueId = none :=
      Option.eq_none_iff_forall_ne_some.2 fun u hu => hnone u (Or.inr hu)
    exact ⟨⟨(hcoherent k f hf).main hmain, hmain⟩, ⟨(hcoherent k f hf).secondary hsecondary, hsecondary⟩⟩

theorem contextsTracked_evict {fm : FrameManager} (h : ContextsTracked fm) (htree : Tree fm) :
    ContextsTracked fm.evictStaleContextIds := by
  intro k f u hget hu
  have hid := h k f u hget hu
  unfold evictStaleContextIds
  rw [Table.get_retain, hid, Option.filter_some, if_pos]
  change fm.frames.get k = some f at hget
  rw [htree.keys k f hget, hget]
  rfl

/-- A created context is put into one world of a frame, or into none, under an id that no frame holds yet. -/
theorem adoptContext_holds {context : ExecutionContextDescription} {f : Frame} {u : String}
    (hu : (adoptContext context f).Holds u) : u = context.uniqueId ∨ f.Holds u := by
  unfold adoptContext at hu
  split at hu
  · rcases hu with hu | hu
    · exact Or.inl (Option.some.inj hu).symm
    · exact Or.inr (Or.inr hu)
  · split at hu
    · rcases hu with hu | hu
      · exact Or.inr (Or.inl hu)
      · exact Or.inl (Option.some.inj hu).symm
    · exact Or.inr hu

theorem adoptContext_coherent {context : ExecutionContextDescription} {f : Frame}
    (h : f.Coherent) (hfresh : ¬f.Holds context.uniqueId) : (adoptContext context f).Coherent := by
  unfold adoptContext
  split
  · refine ⟨fun hnone => (by cases hnone), h.secondary, fun u hu hu' => hfresh (Or.inr ?_)⟩
    rw [Option.some.inj hu]
    exact hu'
  · split
    · refine ⟨h.main, fun hnone => (by cases hnone), fun u hu hu' => hfresh (Or.inl ?_)⟩
      rw [Option.some.inj hu']
      exact hu
    · exact h

theorem adoptContext_loaderId (context : ExecutionContextDescription) (f : Frame) :
    (adoptContext context f).loaderId = f.loaderId := by
  unfold adoptContext
  split
  · rfl
  · split
    · rfl
    · rfl

theorem destroyContext_loaderId (u : String) (f : Frame) :
    (f.destroyContext u).loaderId = f.loaderId := by
  unfold Frame.destroyContext
  split
  · rfl
  · split
    · rfl
    · rfl

/-- What a created context does to the frames and to the context table. -/
theorem contextCreated_cases (fm : FrameManager) (context : ExecutionContextDescription) :
    (∃ frameId frame, fm.frames.get frameId = some frame ∧
      (fm.onFrameExecutionContextCreated context).frames =
        fm.frames.set frameId (adoptContext context frame) ∧
      (fm.onFrameExecutionContextCreated context).contextIds =
        fm.contextIds.set context.uniqueId frame.id) ∨
    ((fm.onFrameExecutionContextCreated context).frames = fm.frames ∧
      (fm.onFrameExecutionContextCreated context).contextIds = fm.contextIds) := by
  unfold onFrameExecutionContextCreated
  split
  · rename_i frameId _
    split
    · rename_i frame hget
      refine Or.inl ⟨frameId, frame, hget, ?_⟩
      split
      · exact ⟨rfl, rfl⟩
      · exact ⟨rfl, rfl⟩
    · refine Or.inr ?_
      split
      · exact ⟨rfl, rfl⟩
      · exact ⟨rfl, rfl⟩
  · refine Or.inr ?_
    split
    · exact ⟨rfl, rfl⟩
    · exact ⟨rfl, rfl⟩

theorem contextCreated_get {fm : FrameManager} {context : ExecutionContextDescription} {k : FrameId}
    {f' : Frame} (hget : (fm.onFrameExecutionContextCreated context).frames.get k = some f') :
    ∃ f, fm.frames.get k = some f ∧ (f' = f ∨ f' = adoptContext context f ∧
      (fm.onFrameExecutionContextCreated context).contextIds.get context.uniqueId = some f.id) := by
  rcases contextCreated_cases fm context with ⟨frameId, frame, hframe, hframes, hids⟩ | ⟨hframes, -⟩
  · rw [hframes, Table.get_set] at hget
    split at hget
    · rename_i hk
      refine ⟨frame, hk ▸ hframe, Or.inr ⟨(Option.some.inj hget).symm, ?_⟩⟩
      rw [hids, Table.get_set_self]
    · exact ⟨f', hget, Or.inl rfl⟩
  · rw [hframes] at hget
    exact ⟨f', hget, Or.inl rfl⟩

theorem ContextsTracked.created {fm : FrameManager} (h : ContextsTracked fm) (htree : Tree fm)
    (context : ExecutionContextDescription)
    (hfresh : ∀ k f, fm.frames.get k = some f → ¬f.Holds context.uniqueId) :
    ContextsTracked (fm.onFrameExecutionContextCreated context) := by
  intro k f' u hget hu
  have hid := (htree.onFrameExecutionContextCreated context).keys k f' hget
  obtain ⟨f, hf, hcase⟩ := contextCreated_get hget
  have hold : f.Holds u → (fm.onFrameExecutionContextCreated context).contextIds.get u =
      some f'.id := by
    intro hu'
    have hne : u ≠ context.uniqueId := fun heq => hfresh k f hf (heq ▸ hu')
    rw [hid, ← htree.keys k f hf, ← h k f u hf hu']
    rcases contextCreated_cases fm context with ⟨frameId, frame, -, -, hids⟩ | ⟨-, hids⟩
    · rw [hids, Table.get_set_of_ne _ _ hne]
    · rw [hids]
  rcases hcase with rfl | ⟨rfl, hnew⟩
  · exact hold hu
  · rcases adoptContext_holds hu with rfl | hu'
    · rw [hnew, hid, htree.keys k f hf]
    · exact hold hu'

end FrameManager

/-! ### Runs -/

/-- The unique id of the context that the input creates. -/
def FrameInput.createdContext : FrameInput → Option String
  | contextCreated context => some context.uniqueId
  | _ => none

/-- The input is about execution contexts. -/
def FrameInput.touchesContexts : FrameInput → Bool
  | contextCreated _ | contextDestroyed _ | contextsCleared | evictStaleContextIds => true
  | _ => false

namespace FrameManager

/-- What holds with or without renames, as long as no unique id is created twice: the worlds are coherent, and no context that is still to be created is held already. -/
structure ContextsFresh (fm : FrameManager) (rest : List FrameInput) : Prop where
  tree : Tree fm
  coherent : ∀ k f, fm.frames.get k = some f → f.Coherent
  nodup : (rest.filterMap FrameInput.createdContext).Nodup
  unused : ∀ k f u, fm.frames.get k = some f → f.Holds u →
    u ∉ rest.filterMap FrameInput.createdContext

theorem ContextsFresh.of_le {fm : FrameManager} {input : FrameInput} {rest : List FrameInput}
    (h : ContextsFresh fm (input :: rest))
    (hle : ∀ k f', (FrameInput.apply fm input).frames.get k = some f' → f'.Empty ∨
      ∃ k f, fm.frames.get k = some f ∧ f'.Le f) :
    ContextsFresh (FrameInput.apply fm input) rest where
  tree := h.tree.apply input
  coherent := fun k f' hf' => by
    rcases hle k f' hf' with hempty | ⟨k, f, hf, hle⟩
    · exact hempty.coherent
    · exact hle.coherent (h.coherent k f hf)
  nodup := h.nodup.sublist ((List.sublist_cons_self input rest).filterMap _)
  unused := fun k f' u hf' hu => by
    rcases hle k f' hf' with hempty | ⟨k, f, hf, hle⟩
    · exact absurd hu (hempty.not_holds u)
    · exact fun hmem => h.unused k f u hf (hle.holds hu)
        (((List.sublist_cons_self input rest).filterMap _).subset hmem)

theorem ContextsFresh.of_moved {fm : FrameManager} {input : FrameInput} {rest : List FrameInput}
    (h : ContextsFresh fm (input :: rest)) (hmoved : Moved fm (FrameInput.apply fm input)) :
    ContextsFresh (FrameInput.apply fm input) rest := by
  refine h.of_le fun k f' hf' => ?_
  rcases hmoved.frames k f' hf' with hempty | ⟨-, f, hf, hle⟩ | ⟨-, f, hf, hle⟩
  · exact Or.inl hempty
  · exact Or.inr ⟨k, f, hf, hle⟩
  · obtain ⟨main, -, hget⟩ := Option.bind_eq_some_iff.1 hf
    exact Or.inr ⟨main, f, hget, hle⟩

theorem ContextsFresh.created {fm : FrameManager} {context : ExecutionContextDescription}
    {rest : List FrameInput} (h : ContextsFresh fm (.contextCreated context :: rest)) :
    ContextsFresh (fm.onFrameExecutionContextCreated context) rest where
  tree := h.tree.onFrameExecutionContextCreated context
  coherent := fun k f' hf' => by
    obtain ⟨f, hf, rfl | ⟨rfl, -⟩⟩ := contextCreated_get hf'
    · exact h.coherent k f' hf
    · refine adoptContext_coherent (h.coherent k f hf) fun hu => ?_
      exact h.unused k f context.uniqueId hf hu List.mem_cons_self
  nodup := (List.nodup_cons.1 h.nodup).2
  unused := fun k f' u hf' hu => by
    obtain ⟨f, hf, rfl | ⟨rfl, -⟩⟩ := contextCreated_get hf'
    · exact fun hmem => h.unused k f' u hf hu (List.mem_cons_of_mem _ hmem)
    · rcases adoptContext_holds hu with rfl | hu'
      · exact (List.nodup_cons.1 h.nodup).1
      · exact fun hmem => h.unused k f u hf hu' (List.mem_cons_of_mem _ hmem)

theorem moved_apply {fm : FrameManager} (h : Tree fm) {input : FrameInput}
    (hcontexts : input.touchesContexts = false) : Moved fm (FrameInput.apply fm input) ∧
      ((FrameInput.apply fm input).mainFrame ≠ fm.mainFrame →
        MainKept fm (FrameInput.apply fm input)) := by
  cases input with
  | goto req =>
    have hmain := goto_mainFrame fm req
    refine ⟨.of_eq hmain ?_ (goto_frames fm req), fun hne => absurd hmain hne⟩
    change (fm.goto req).contextIds = _
    unfold goto
    split
    · rfl
    · rfl
  | poll now clock =>
    have hmain := poll_mainFrame fm now clock
    refine ⟨.of_eq hmain ?_ (poll_frames fm now clock), fun hne => absurd hmain hne⟩
    have hstep := poll_step fm now clock
    change (fm.poll now clock).1.contextIds = _
    generalize (fm.poll now clock).1 = fm' at hstep ⊢
    generalize (fm.poll now clock).2 = event at hstep
    cases hstep
    all_goals rfl
  | frameTree tree worldName =>
    exact ⟨moved_onFrameTree h worldName tree, fun _ => mainKept_onFrameTree h worldName tree⟩
  | frameNavigated frame worldName =>
    exact ⟨moved_onFrameNavigated h frame worldName,
      fun _ => mainKept_onFrameNavigated h frame worldName⟩
  | frameAttached frameId parentFrameId =>
    exact ⟨moved_onFrameAttached fm frameId parentFrameId,
      fun _ => mainKept_onFrameAttached h frameId parentFrameId⟩
  | frameDetached frameId => exact ⟨moved_onFrameDetached h frameId, fun hne => absurd rfl hne⟩
  | navigatedWithinDocument event =>
    refine ⟨.of_update event.frameId (Frame.navigatedWithinUrl · event.url) ?_ rfl rfl rfl,
      fun hne => absurd rfl hne⟩
    exact fun g => .of_worlds rfl rfl
  | stoppedLoading frameId =>
    exact ⟨.of_update frameId Frame.onLoadingStopped (fun g => .of_worlds rfl rfl) rfl rfl rfl,
      fun hne => absurd rfl hne⟩
  | startedLoading frameId =>
    exact ⟨.of_update frameId Frame.onLoadingStarted (fun g => .of_worlds rfl rfl) rfl rfl rfl,
      fun hne => absurd rfl hne⟩
  | lifecycleEvent event =>
    refine ⟨.of_update event.frameId (lifecycleUpdate event) (fun g => ?_) rfl rfl rfl,
      fun hne => absurd rfl hne⟩
    unfold lifecycleUpdate
    split
    · exact .of_worlds rfl rfl
    · exact .of_worlds rfl rfl
  | httpRequestFinished request =>
    change Moved fm (fm.onHttpRequestFinished request) ∧ _
    have hmain := (sameNavigations_onHttpRequestFinished fm request).mainFrame
    refine ⟨?_, fun hne => absurd hmain hne⟩
    unfold onHttpRequestFinished
    split
    · rename_i id _
      exact .of_update id (Frame.setRequest · request) (fun g => .of_worlds rfl rfl) rfl rfl rfl
    · exact .of_eq rfl rfl rfl
  | contextCreated context => cases hcontexts
  | contextDestroyed uniqueId => cases hcontexts
  | contextsCleared => cases hcontexts
  | evictStaleContextIds => cases hcontexts

theorem ContextsFresh.apply {fm : FrameManager} {input : FrameInput} {rest : List FrameInput}
    (h : ContextsFresh fm (input :: rest)) : ContextsFresh (FrameInput.apply fm input) rest := by
  cases hcontexts : input.touchesContexts with
  | false => exact h.of_moved (moved_apply h.tree hcontexts).1
  | true =>
    cases input with
    | contextCreated context => exact h.created
    | contextDestroyed uniqueId =>
      refine h.of_le fun k f' hf' => Or.inr ?_
      exact ⟨k, frames_destroyed_le fm uniqueId k f' hf'⟩
    | contextsCleared =>
      refine h.of_le fun k f' hf' => ?_
      change fm.onExecutionContextsCleared.frames.get k = some f' at hf'
      unfold onExecutionContextsCleared at hf'
      rw [get_foldl_clearContexts] at hf'
      obtain ⟨f, hf, rfl⟩ := Option.map_eq_some_iff.1 hf'
      split
      · exact Or.inl (.clearContexts f)
      · exact Or.inr ⟨k, f, hf, .refl f⟩
    | evictStaleContextIds => exact h.of_le fun k f' hf' => Or.inr ⟨k, f', hf', .refl f'⟩
    | _ => cases hcontexts

theorem contextsTracked_apply_iff {fm : FrameManager} {input : FrameInput} {rest : List FrameInput}
    (h : ContextsFresh fm (input :: rest)) (htracked : ContextsTracked fm) :
    ContextsTracked (FrameInput.apply fm input) ↔ RenamesContextFree fm input := by
  cases hcontexts : input.touchesContexts with
  | false =>
    obtain ⟨hmoved, hkept⟩ := moved_apply h.tree hcontexts
    unfold RenamesContextFree
    rw [← apply_mainFrame]
    exact tracked_of_moved_iff hmoved hkept h.tree (h.tree.apply input) htracked
  | true =>
    cases input with
    | contextCreated context =>
      refine ⟨fun _ => Or.inl rfl, fun _ => htracked.created h.tree context fun k f hf hu => ?_⟩
      exact h.unused k f context.uniqueId hf hu List.mem_cons_self
    | contextDestroyed uniqueId =>
      exact ⟨fun _ => Or.inl rfl, fun _ => htracked.destroyed h.tree h.coherent uniqueId⟩
    | contextsCleared =>
      refine ⟨fun _ => Or.inl rfl, fun _ k f u hget hu => ?_⟩
      exact absurd hu ((htracked.empty_cleared h.tree h.coherent k f hget).not_holds u)
    | evictStaleContextIds =>
      exact ⟨fun _ => Or.inl rfl, fun _ => contextsTracked_evict htracked h.tree⟩
    | _ => cases hcontexts

theorem contextsFresh_started (requestTimeout : Duration) (cap : Option UInt32)
    {inputs : List FrameInput} (h : (inputs.filterMap FrameInput.createdContext).Nodup) :
    ContextsFresh (started requestTimeout cap) inputs where
  tree := (tree_new requestTimeout).of_eq rfl rfl
  coherent := fun k f hf => by cases hf
  nodup := h
  unused := fun k f u hf => by cases hf

theorem contextsFresh_final {fm : FrameManager} {inputs : List FrameInput}
    (h : ContextsFresh fm inputs) : ContextsFresh (Run.final FrameInput.apply fm inputs) [] := by
  induction inputs generalizing fm with
  | nil => exact h
  | cons input rest ih => exact ih h.apply

theorem always_tracked_iff (requestTimeout : Duration) (cap : Option UInt32)
    {inputs : List FrameInput} (h : (inputs.filterMap FrameInput.createdContext).Nodup) :
    Run.Always FrameInput.apply ContextsTracked (started requestTimeout cap) inputs ↔
      Run.Allowed FrameInput.apply RenamesContextFree (started requestTimeout cap) inputs :=
  Run.always_iff_allowed ContextsFresh (fun _ _ _ h => h.apply)
    (fun _ _ _ h htracked => contextsTracked_apply_iff h htracked)
    (contextsFresh_started requestTimeout cap h) (fun _ _ _ hf => by cases hf)

/-- As long as no unique id is created twice, the context table leads to the frame of every held context in every state of a run, exactly when the main frame never holds a context at the moment it gets another id. Then a destroyed context is held by no frame, and after a clear no frame has a context. -/
theorem contexts_tracked_iff (requestTimeout : Duration) (cap : Option UInt32)
    (inputs : List FrameInput) (hunique : (inputs.filterMap FrameInput.createdContext).Nodup) :
    (Run.Always FrameInput.apply ContextsTracked (started requestTimeout cap) inputs ↔
      Run.Allowed FrameInput.apply RenamesContextFree (started requestTimeout cap) inputs) ∧
    (Run.Allowed FrameInput.apply RenamesContextFree (started requestTimeout cap) inputs →
      let fm := Run.final FrameInput.apply (started requestTimeout cap) inputs
      (∀ u k f, (fm.onFrameExecutionContextDestroyed u).frames.get k = some f → ¬f.Holds u) ∧
      ∀ k f, fm.onExecutionContextsCleared.frames.get k = some f →
        f.mainWorld.executionCtx = none ∧ f.secondaryWorld.executionCtx = none ∧
          ∀ u, ¬f.Holds u) := by
  have hiff := always_tracked_iff requestTimeout cap hunique
  have hfresh := contextsFresh_final (contextsFresh_started requestTimeout cap hunique)
  refine ⟨hiff, fun hallowed => ⟨fun u k f hget => ?_, fun k f hget => ?_⟩⟩
  · have htracked := (hiff.2 hallowed).last
    exact htracked.not_holds_destroyed hfresh.tree hfresh.coherent u k f hget
  · have hempty := (hiff.2 hallowed).last.empty_cleared hfresh.tree hfresh.coherent k f hget
    exact ⟨hempty.main.1, hempty.secondary.1, hempty.not_holds⟩

/-- A context that is created after the main frame took its present id is tracked throughout. -/
theorem contexts_tracked_example :
    let main (id : String) : FrameInput := .frameNavigated ⟨⟨id⟩, none, none, "about:blank", none⟩ ""
    let created : FrameInput := .contextCreated ⟨⟨1⟩, "", "u",
      some (.object [("isDefault", .bool true), ("frameId", .string "B")])⟩
    Run.Always FrameInput.apply ContextsTracked (started 30 none) [main "A", main "B", created] := by
  intro main created
  refine (contexts_tracked_iff 30 none [main "A", main "B", created] (by decide)).1.2 ?_
  refine ⟨Or.inr fun f u hf => ?_, Or.inr fun f u hf hu => ?_, Or.inl rfl, trivial⟩
  · cases hf
  · rw [← Option.some.inj hf] at hu
    rcases hu with hu | hu
    · cases hu
    · cases hu

/-- A main frame that went from one id to another with a context is not found when the context is destroyed, nor when all contexts are cleared. -/
theorem renamed_context_survives :
    let main (id : String) : FrameInput := .frameNavigated ⟨⟨id⟩, none, none, "about:blank", none⟩ ""
    let created : FrameInput := .contextCreated ⟨⟨1⟩, "", "u",
      some (.object [("isDefault", .bool true), ("frameId", .string "A")])⟩
    let fm := Run.final FrameInput.apply (started 30 none) [main "A", created, main "B"]
    let reported (fm : FrameManager) := (fm.frames.get ⟨"B"⟩).map fun f =>
      (f.mainWorld.executionCtx, f.mainWorld.executionCtxUniqueId)
    ¬ContextsTracked fm ∧ reported (fm.onFrameExecutionContextDestroyed "u") = some (some ⟨1⟩, some "u") ∧
      reported fm.onExecutionContextsCleared = some (some ⟨1⟩, some "u") := by
  refine ⟨fun h => ?_, by decide, by decide⟩
  have hid := h ⟨"B"⟩ _ "u" rfl (Or.inl rfl)
  revert hid
  decide

end FrameManager

end SpiderChrome
