import SpiderChrome.Frame.Tree

/-!
# What becomes of the main frame

A navigation gives the main frame a new address and perhaps a new id. Its execution contexts and its loader are the ones it had. `MainKept` says so, and that a main frame which was not there before comes without a loader.
-/

namespace SpiderChrome

namespace FrameManager

/-- The main frame is still there, with the worlds and the loader it had. A new one has no loader. -/
structure MainKept (fm fm' : FrameManager) : Prop where
  kept : ∀ f, fm.mainFrame? = some f → ∃ f', fm'.mainFrame? = some f' ∧
    f'.mainWorld = f.mainWorld ∧ f'.secondaryWorld = f.secondaryWorld ∧ f'.loaderId = f.loaderId
  fresh : fm.mainFrame? = none → ∀ f', fm'.mainFrame? = some f' → f'.loaderId = none

/-- The loader of the main frame, as far as there is one. -/
def mainLoader (fm : FrameManager) : Option LoaderId := fm.mainFrame?.bind Frame.loaderId

theorem MainKept.refl (fm : FrameManager) : MainKept fm fm where
  kept := fun f hf => ⟨f, hf, rfl, rfl, rfl⟩
  fresh := fun hnone f' hf' => by rw [hnone] at hf'; cases hf'

theorem MainKept.trans {fm fm' fm'' : FrameManager} (h : MainKept fm fm') (h' : MainKept fm' fm'') :
    MainKept fm fm'' := by
  constructor
  · intro f hf
    obtain ⟨f', hf', hmain, hsecondary, hloader⟩ := h.kept f hf
    obtain ⟨f'', hf'', hmain', hsecondary', hloader'⟩ := h'.kept f' hf'
    exact ⟨f'', hf'', hmain'.trans hmain, hsecondary'.trans hsecondary, hloader'.trans hloader⟩
  · intro hnone f'' hf''
    cases hf' : fm'.mainFrame? with
    | none => exact h'.fresh hf' f'' hf''
    | some f' =>
      obtain ⟨g, hg, -, -, hloader⟩ := h'.kept f' hf'
      rw [Option.some.inj (hf''.symm.trans hg), hloader]
      exact h.fresh hnone f' hf'

theorem MainKept.mainLoader {fm fm' : FrameManager} (h : MainKept fm fm') :
    fm'.mainLoader = fm.mainLoader := by
  unfold FrameManager.mainLoader
  cases hf : fm.mainFrame? with
  | some f =>
    obtain ⟨f', hf', -, -, hloader⟩ := h.kept f hf
    rw [hf', Option.bind_some, Option.bind_some, hloader]
  | none =>
    cases hf' : fm'.mainFrame? with
    | none => rfl
    | some f' => exact h.fresh hf f' hf'

/-- A method that keeps the main frame's id, and the frame that is stored under it. -/
theorem MainKept.of_get {fm fm' : FrameManager} (hmain : fm'.mainFrame = fm.mainFrame)
    (hkept : ∀ k f, fm.mainFrame = some k → fm.frames.get k = some f →
      ∃ f', fm'.frames.get k = some f' ∧ f'.mainWorld = f.mainWorld ∧
        f'.secondaryWorld = f.secondaryWorld ∧ f'.loaderId = f.loaderId)
    (hfresh : ∀ k, fm.frames.get k = none → fm.mainFrame = some k → fm'.frames.get k = none) :
    MainKept fm fm' := by
  constructor
  · intro f hf
    obtain ⟨k, hk, hget⟩ := Option.bind_eq_some_iff.1 hf
    obtain ⟨f', hf', hsame⟩ := hkept k f hk hget
    refine ⟨f', ?_, hsame⟩
    rw [mainFrame?, hmain, hk, Option.bind_some, hf']
  · intro hnone f' hf'
    obtain ⟨k, hk, hget'⟩ := Option.bind_eq_some_iff.1 hf'
    rw [hmain] at hk
    rw [mainFrame?, hk, Option.bind_some] at hnone
    rw [hfresh k hnone hk] at hget'
    cases hget'

/-- A table without a main frame is empty, so nothing can be attached to it. -/
theorem mainKept_onFrameAttached {fm : FrameManager} (h : Tree fm) (frameId : FrameId)
    (parentFrameId : Option FrameId) : MainKept fm (fm.onFrameAttached frameId parentFrameId) := by
  unfold onFrameAttached
  split
  · exact .refl fm
  · rename_i hnone
    rw [Bool.not_eq_true, Option.isSome_eq_false_iff, Option.isNone_iff_eq_none] at hnone
    split
    · rename_i p
      split
      · rename_i parent hp
        refine .of_get rfl (fun k f _ hget => ?_) (fun k hget hk => ?_)
        · have hne : k ≠ frameId := fun heq => by rw [heq, hnone] at hget; cases hget
          change ∃ f', ((fm.frames.set p _).set frameId _).get k = some f' ∧ _
          rw [Table.get_set_of_ne _ _ hne, Table.get_set]
          split
          · rename_i hk
            rw [hk, hp] at hget
            rw [← Option.some.inj hget]
            exact ⟨_, rfl, rfl, rfl, rfl⟩
          · exact ⟨f, hget, rfl, rfl, rfl⟩
        · have hempty := h.rooted.get_eq_none (fun r hr => by
            rw [Option.some.inj (hr.symm.trans hk), hget]) p
          rw [hp] at hempty
          cases hempty
      · exact .refl fm
    · exact .refl fm

theorem mainKept_onChildNavigated {fm : FrameManager} (h : Tree fm) (frame : CdpFrame) :
    MainKept fm (fm.onChildNavigated frame) := by
  unfold onChildNavigated
  split
  · rename_i f hget
    have hpruned := removeChildren_pruned h.linked hget
    refine .of_get rfl (fun k g hmain hk => ?_) (fun k hk hmain => ?_)
    · change ∃ f', (Table.set _ _ _).get k = some f' ∧ _
      rw [Table.get_set]
      split
      · rename_i heq
        rw [heq, hget] at hk
        rw [← Option.some.inj hk]
        exact ⟨_, rfl, rfl, rfl, rfl⟩
      · rename_i hne
        refine ⟨g, ?_, rfl, rfl, rfl⟩
        rw [hpruned.get_of_not_below fun hbelow => ?_]
        · exact hk
        · exact hne (h.rooted.eq_of_below_root hmain hk hbelow)
    · change (Table.set _ _ _).get k = none
      have hne : k ≠ frame.id := fun heq => by rw [heq, hget] at hk; cases hk
      rw [Table.get_set_of_ne _ _ hne]
      exact hpruned.kept.get_eq_none hk
  · exact .refl fm

theorem takeMainFrame_cases (fm : FrameManager) (frame : CdpFrame) (worldName : String) :
    (fm.mainFrame? = none ∧
      (fm.takeMainFrame frame worldName).2 = Frame.new frame.id worldName) ∨
    ∃ f, fm.mainFrame? = some f ∧
      (fm.takeMainFrame frame worldName).2 = { f with childFrames := [], id := frame.id } := by
  unfold takeMainFrame mainFrame?
  split
  · rename_i main hmain
    rw [hmain, Option.bind_some]
    split
    · rename_i f hget
      exact Or.inr ⟨f, hget, rfl⟩
    · rename_i hget
      exact Or.inl ⟨hget, rfl⟩
  · rename_i hmain
    rw [hmain]
    exact Or.inl ⟨rfl, rfl⟩

theorem mainKept_onMainNavigated (fm : FrameManager) (frame : CdpFrame) (worldName : String) :
    MainKept fm (fm.onMainNavigated frame worldName) := by
  have hmain : (fm.onMainNavigated frame worldName).mainFrame? =
      some ((fm.takeMainFrame frame worldName).2.navigated frame) := by
    rw [onMainNavigated_eq, mainFrame?, Option.bind_some, Table.get_set_self]
  rcases takeMainFrame_cases fm frame worldName with ⟨hnone, hnew⟩ | ⟨f, hf, htaken⟩
  · rw [hnew] at hmain
    refine ⟨fun f hf => ?_, fun _ f' hf' => ?_⟩
    · rw [hnone] at hf
      cases hf
    · rw [Option.some.inj (hf'.symm.trans hmain)]
      rfl
  · rw [htaken] at hmain
    refine ⟨fun g hg => ⟨_, hmain, ?_⟩, fun hnone => ?_⟩
    · rw [Option.some.inj (hg.symm.trans hf)]
      exact ⟨rfl, rfl, rfl⟩
    · rw [hf] at hnone
      cases hnone

theorem mainKept_onFrameNavigated {fm : FrameManager} (h : Tree fm) (frame : CdpFrame)
    (worldName : String) : MainKept fm (fm.onFrameNavigated frame worldName) := by
  unfold onFrameNavigated
  split
  · exact mainKept_onChildNavigated h frame
  · exact mainKept_onMainNavigated fm frame worldName

theorem mainKept_onFrameTree {fm : FrameManager} (h : Tree fm) (worldName : FrameId → String)
    (tree : FrameTree) : MainKept fm (onFrameTree worldName tree fm) := by
  rw [onFrameTree_eq]
  induction tree.nodes generalizing fm with
  | nil => exact .refl fm
  | cons frame rest ih =>
    have hattached := h.onFrameAttached frame.id frame.parentId
    have hnavigated := mainKept_onFrameNavigated hattached frame (worldName frame.id)
    have hrest := ih (hattached.onFrameNavigated frame (worldName frame.id))
    exact ((mainKept_onFrameAttached h frame.id frame.parentId).trans hnavigated).trans hrest

/-- Detaching another frame than the main frame leaves the main frame where it is. -/
theorem mainKept_onFrameDetached {fm : FrameManager} (h : Tree fm) {id : FrameId}
    (hid : fm.mainFrame ≠ some id) : MainKept fm (fm.onFrameDetached id) := by
  refine .of_get rfl (fun k f hmain hk => ?_) (fun k hk _ => ?_)
  · have hbelow : ¬Forest.Below Frame.childFrames fm.frames id k := fun hbelow =>
      hid (h.rooted.eq_of_below_root hmain hk hbelow ▸ hmain)
    rw [(h.get_onFrameDetached id k).2 hbelow, hk]
    exact ⟨_, rfl, rfl, rfl, rfl⟩
  · classical
    by_cases hbelow : Forest.Below Frame.childFrames fm.frames id k
    · exact (h.get_onFrameDetached id k).1 hbelow
    · rw [(h.get_onFrameDetached id k).2 hbelow, hk]
      rfl

end FrameManager

end SpiderChrome
