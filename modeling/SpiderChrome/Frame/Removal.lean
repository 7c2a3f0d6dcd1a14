import SpiderChrome.Frame.Manager
import SpiderChrome.Library.Forest

/-!
# Removing frames

What the recursive removal of a frame does to the table. `removeFramesRecursively_eq` is the recursion of the source: the bound on the depth is never reached. `removeFramesTo_pruned` says which frames are gone afterwards, for a frame whose parent has left the table before it, which is how every inner call of the recursion finds its frame.
-/

namespace SpiderChrome

namespace FrameManager

open Forest

/-! ### The depth of the recursion -/

theorem removeFramesTo_of_none {frames : Table FrameId Frame} {id : FrameId}
    (h : frames.get id = none) (depth : Nat) : removeFramesTo depth frames id = (frames, none) := by
  cases depth with
  | zero => rfl
  | succ depth =>
    unfold removeFramesTo
    rw [h]

theorem removeFramesTo_of_some {frames : Table FrameId Frame} {id : FrameId} {frame : Frame}
    (h : frames.get id = some frame) (depth : Nat) :
    removeFramesTo (depth + 1) frames id =
      (unlinkFromParent (frame.childFrames.foldl
          (fun frames child => (removeFramesTo depth frames child).1) (frames.remove id)) frame,
        some { frame with parentFrame := none }) := by
  rw [removeFramesTo, h]

@[simp] theorem size_unlinkFromParent (frames : Table FrameId Frame) (frame : Frame) :
    (unlinkFromParent frames frame).size = frames.size := by
  unfold unlinkFromParent
  split
  · exact Table.size_update _ _ _
  · rfl

theorem get_unlinkFromParent (frames : Table FrameId Frame) (frame : Frame) (x : FrameId) :
    (unlinkFromParent frames frame).get x =
      if frame.parentFrame = some x then
        (frames.get x).map fun f =>
          { f with childFrames := f.childFrames.filter (· ≠ frame.id) }
      else frames.get x := by
  unfold unlinkFromParent
  split
  · rename_i p hp
    simp only [Table.get_update, hp, Option.some.injEq, eq_comm]
  · rename_i hp
    simp only [hp, reduceCtorEq, if_false]

theorem size_removeFramesTo_le (depth : Nat) (frames : Table FrameId Frame) (id : FrameId) :
    (removeFramesTo depth frames id).1.size ≤ frames.size := by
  induction depth generalizing frames id with
  | zero => exact Nat.le_refl _
  | succ depth ih =>
    have hfold : ∀ (children : List FrameId) (frames : Table FrameId Frame),
        (children.foldl (fun frames child => (removeFramesTo depth frames child).1) frames).size ≤
          frames.size := by
      intro children
      induction children with
      | nil => exact fun frames => Nat.le_refl _
      | cons child rest ihrest => exact fun frames => (ihrest _).trans (ih frames child)
    cases h : frames.get id with
    | none => rw [removeFramesTo_of_none h]
    | some frame =>
      rw [removeFramesTo_of_some h, size_unlinkFromParent]
      exact (hfold _ _).trans (Nat.le_of_lt (Table.size_remove_lt h))

/-- Any bound that is at least the number of frames is as good as another. -/
theorem removeFramesTo_eq {depth depth' : Nat} {frames : Table FrameId Frame} (id : FrameId)
    (h : frames.size ≤ depth) (h' : frames.size ≤ depth') :
    removeFramesTo depth frames id = removeFramesTo depth' frames id := by
  induction depth generalizing depth' frames id with
  | zero =>
    have hnone := Table.get_eq_none_of_size_eq_zero (Nat.le_zero.1 h) id
    rw [removeFramesTo_of_none hnone, removeFramesTo_of_none hnone]
  | succ depth ih =>
    cases hget : frames.get id with
    | none => rw [removeFramesTo_of_none hget, removeFramesTo_of_none hget]
    | some frame =>
      have hlt := Table.size_remove_lt hget
      obtain ⟨depth'', rfl⟩ : ∃ n, depth' = n + 1 := ⟨depth' - 1, by omega⟩
      have hfold : ∀ (children : List FrameId) (frames : Table FrameId Frame),
          frames.size ≤ depth → frames.size ≤ depth'' →
          children.foldl (fun frames child => (removeFramesTo depth frames child).1) frames =
            children.foldl (fun frames child => (removeFramesTo depth'' frames child).1) frames := by
        intro children
        induction children with
        | nil => exact fun frames _ _ => rfl
        | cons child rest ihrest =>
          intro frames hd hd''
          have hsize := size_removeFramesTo_le depth'' frames child
          rw [List.foldl_cons, List.foldl_cons, ih child hd hd'']
          exact ihrest _ (hsize.trans hd) (hsize.trans hd'')
      rw [removeFramesTo_of_some hget, removeFramesTo_of_some hget,
        hfold _ _ (by omega) (by omega)]

/-- The recursion of the source. -/
theorem removeFramesRecursively_eq (frames : Table FrameId Frame) (id : FrameId) :
    removeFramesRecursively frames id =
      match frames.get id with
      | some frame =>
        (unlinkFromParent (removeChildren (frames.remove id) frame.childFrames) frame,
          some { frame with parentFrame := none })
      | none => (frames, none) := by
  unfold removeFramesRecursively
  split
  · rename_i frame hget
    have hlt := Table.size_remove_lt hget
    obtain ⟨depth, hdepth⟩ : ∃ n, frames.size = n + 1 := ⟨frames.size - 1, by omega⟩
    have hfold : ∀ (children : List FrameId) (frames : Table FrameId Frame), frames.size ≤ depth →
        children.foldl (fun frames child => (removeFramesTo depth frames child).1) frames =
          removeChildren frames children := by
      intro children
      induction children with
      | nil => exact fun frames _ => rfl
      | cons child rest ih =>
        intro frames hle
        have hsize := size_removeFramesTo_le frames.size frames child
        rw [List.foldl_cons, removeFramesTo_eq child hle (Nat.le_refl _)]
        exact ih _ (hsize.trans hle)
    rw [hdepth, removeFramesTo_of_some hget, hfold _ _ (by omega)]
  · rename_i hget
    rw [removeFramesTo_of_none hget]

theorem onFrameDetached_of_none {fm : FrameManager} {id : FrameId} (h : fm.frames.get id = none) :
    fm.onFrameDetached id = fm := by
  rw [onFrameDetached, removeFramesRecursively_eq, h]

theorem onFrameDetached_of_some {fm : FrameManager} {id : FrameId} {frame : Frame}
    (h : fm.frames.get id = some frame) :
    fm.onFrameDetached id = { fm with
      frames := unlinkFromParent (removeChildren (fm.frames.remove id) frame.childFrames) frame } := by
  rw [onFrameDetached, removeFramesRecursively_eq, h]

/-! ### What is removed -/

/-- Every listed child that is there names the lister as its parent, and the frame itself has lost its parent. -/
structure Detached (frames : Table FrameId Frame) (id : FrameId) : Prop where
  linked : ∀ p f, frames.get p = some f → ∀ c ∈ f.childFrames, ∀ g, frames.get c = some g →
    g.parentFrame = some p
  orphan : ∀ f p, frames.get id = some f → f.parentFrame = some p → frames.get p = none

theorem Detached.sub {frames frames' : Table FrameId Frame} {id : FrameId}
    (hsub : frames'.Sub frames) (h : Detached frames id) : Detached frames' id where
  linked := fun p f hf c hc g hg => h.linked p f (hsub p f hf) c hc g (hsub c g hg)
  orphan := fun f p hf hp => hsub.get_eq_none (h.orphan f p (hsub id f hf) hp)

/-- The children of a frame that is taken out are left without a parent. -/
theorem Detached.child {frames : Table FrameId Frame} {id : FrameId} {frame : Frame}
    (hlinked : ∀ p f, frames.get p = some f → ∀ c ∈ f.childFrames, ∀ g, frames.get c = some g →
      g.parentFrame = some p)
    (hget : frames.get id = some frame) {c : FrameId} (hc : c ∈ frame.childFrames) :
    Detached (frames.remove id) c where
  linked := fun p f hf c' hc' g hg => hlinked p f (Table.remove_sub frames id p f hf) c' hc' g
    (Table.remove_sub frames id c' g hg)
  orphan := fun f p hf hp => by
    have hparent := hlinked id frame hget c hc f (Table.remove_sub frames id c f hf)
    rw [Option.some.inj (hp.symm.trans hparent), Table.get_remove_self]

theorem unlinkFromParent_of_orphan {frames : Table FrameId Frame} {frame : Frame}
    (h : ∀ p, frame.parentFrame = some p → frames.get p = none) :
    unlinkFromParent frames frame = frames := by
  unfold unlinkFromParent
  split
  · rename_i p hp
    exact Table.update_of_get_eq_none (h p hp) _
  · rfl

/-- A call on a frame without a parent in the table takes out the frame and everything below it. -/
theorem removeFramesTo_pruned {depth : Nat} {frames : Table FrameId Frame} {id : FrameId}
    (hsize : frames.size ≤ depth) (h : Detached frames id) :
    Pruned Frame.childFrames frames (removeFramesTo depth frames id).1 [id] := by
  induction depth generalizing frames id with
  | zero => exact Pruned.of_absent (Table.get_eq_none_of_size_eq_zero (Nat.le_zero.1 hsize) id)
  | succ depth ih =>
    cases hget : frames.get id with
    | none =>
      rw [removeFramesTo_of_none hget]
      exact Pruned.of_absent hget
    | some frame =>
      have hlt := Table.size_remove_lt hget
      have hchildren : Pruned Frame.childFrames (frames.remove id)
          (frame.childFrames.foldl (fun frames child => (removeFramesTo depth frames child).1)
            (frames.remove id)) frame.childFrames := by
        apply pruned_foldl fun frames k => frames.size ≤ depth ∧ Detached frames k
        · exact fun t t' k hsub hready => ⟨hsub.size_le.trans hready.1, hready.2.sub hsub⟩
        · exact fun t k hready => ih hready.1 hready.2
        · exact fun k hk => ⟨by omega, Detached.child h.linked hget hk⟩
      rw [removeFramesTo_of_some hget, unlinkFromParent_of_orphan]
      · exact Pruned.of_children hget hchildren
      · intro p hp
        refine hchildren.kept.get_eq_none ?_
        exact (Table.remove_sub frames id).get_eq_none (h.orphan frame p hget hp)

/-- Taking a frame out and dropping its children takes out everything below it. -/
theorem removeChildren_pruned {frames : Table FrameId Frame} {id : FrameId} {frame : Frame}
    (hlinked : ∀ p f, frames.get p = some f → ∀ c ∈ f.childFrames, ∀ g, frames.get c = some g →
      g.parentFrame = some p)
    (hget : frames.get id = some frame) :
    Pruned Frame.childFrames frames (removeChildren (frames.remove id) frame.childFrames) [id] := by
  apply Pruned.of_children hget
  apply pruned_foldl Detached
  · exact fun t t' k hsub hready => hready.sub hsub
  · exact fun t k hready => removeFramesTo_pruned (Nat.le_refl _) hready
  · exact fun k hk => Detached.child hlinked hget hk

end FrameManager

end SpiderChrome
