import SpiderChrome.Handler.Registry
import Mathlib.Data.List.Perm.Basic

/-!
# The list of target ids

The drivers visit the targets by the list of their ids: each id is taken out of the list and put back if its target is still there. An announcement appends an id and puts a new target in place, whether or not the id has a target already, so a repeated announcement throws the target away and leaves its id in the list twice. `announcements_iff` says exactly which announcements do no such harm.
-/

namespace SpiderChrome

/-- `Vec::swap_remove`: the last element takes the place of the one that is removed. -/
def swapRemove {α : Type} (xs : List α) (n : Nat) : List α :=
  match xs.getLast? with
  | some last => (xs.set n last).dropLast
  | none => []

theorem swapRemove_concat {A : Type} (front : List A) (last : A) (n : Nat) :
    swapRemove (front ++ [last]) n = ((front ++ [last]).set n last).dropLast := by
  rw [swapRemove, List.getLast?_concat]

/-- To take out an element leaves those before it in place, and the ones behind it in some order. -/
theorem swapRemove_append {A : Type} (front rest : List A) (x : A) :
    ∃ rest', swapRemove (front ++ x :: rest) front.length = front ++ rest' ∧ rest'.Perm rest := by
  have hset : ∀ (behind : List A) (last : A),
      (front ++ x :: behind).set front.length last = front ++ last :: behind := by
    intro behind last
    rw [List.set_append_right _ _ (Nat.le_refl _), Nat.sub_self, List.set_cons_zero]
  obtain rfl | ⟨init, last, rfl⟩ := rest.eq_nil_or_concat'
  · refine ⟨[], ?_, .refl _⟩
    rw [swapRemove_concat, hset, List.dropLast_concat, List.append_nil]
  · refine ⟨last :: init, ?_, (List.perm_append_singleton last init).symm⟩
    have hlast : ∀ y : A, front ++ y :: (init ++ [last]) = (front ++ y :: init) ++ [last] := by
      intro y
      rw [List.append_assoc, List.cons_append]
    rw [hlast, swapRemove_concat, ← hlast, hset, hlast, List.dropLast_concat]

theorem perm_swapRemove {α : Type} {xs : List α} {n : Nat} {x : α} (h : xs[n]? = some x) :
    xs.Perm (x :: swapRemove xs n) := by
  obtain ⟨hn, rfl⟩ := List.getElem?_eq_some_iff.1 h
  have hsplit : xs.take n ++ xs[n] :: xs.drop (n + 1) = xs := by
    rw [← List.drop_eq_getElem_cons hn, List.take_append_drop]
  obtain ⟨behind, hremoved, hbehind⟩ := swapRemove_append (xs.take n) (xs.drop (n + 1)) xs[n]
  rw [hsplit, List.length_take_of_le (Nat.le_of_lt hn)] at hremoved
  calc
    xs.Perm (xs.take n ++ xs[n] :: xs.drop (n + 1)) := .of_eq hsplit.symm
    _ |>.Perm (xs[n] :: (xs.take n ++ xs.drop (n + 1))) := List.perm_middle
    _ |>.Perm (xs[n] :: (xs.take n ++ behind)) := (hbehind.symm.append_left _).cons _
    _ |>.Perm (xs[n] :: swapRemove xs n) := .of_eq (congrArg (List.cons _) hremoved.symm)

/-- What a driver does next, where a visit takes the id in a place of the list. What it does with the target, and what that has to tell, are inputs of their own. -/
inductive PassInput where
  | input (input : HandlerInput)
  | visit (n : Nat)

namespace Handler

/-! ### A visit -/

/-- One turn of the loop over the target ids. -/
def visit (h : Handler) (n : Nat) : Handler :=
  match h.targetIds[n]? with
  | some targetId =>
    let targetIds := swapRemove h.targetIds n
    { h with
      targetIds := if (h.targets.get targetId).isSome then targetIds ++ [targetId] else targetIds }
  | none => h

def passStep (driver : Driver) (h : Handler) : PassInput → Handler
  | .input input => h.step driver input
  | .visit n => h.visit n

theorem visit_eq (h : Handler) (n : Nat) : ∃ targetIds, h.visit n = { h with targetIds := targetIds } := by
  unfold visit
  split
  · exact ⟨_, rfl⟩
  · exact ⟨_, rfl⟩

/-- A visit drops no id that has a target, and adds none. -/
theorem count_visit (h : Handler) (n : Nat) {targetId : TargetId} {target : Target}
    (htarget : h.targets.get targetId = some target) :
    (h.visit n).targetIds.count targetId = h.targetIds.count targetId := by
  unfold visit
  cases hn : h.targetIds[n]? with
  | none => rfl
  | some visited =>
    have hcount := (perm_swapRemove hn).count_eq targetId
    rw [List.count_cons] at hcount
    dsimp only
    split
    · rw [hcount, List.count_append, List.count_singleton]
    · rename_i hgone
      have hother : visited ≠ targetId := by
        rintro rfl
        rw [htarget] at hgone
        exact hgone rfl
      rw [hcount, if_neg (by simpa using hother), Nat.add_zero]

/-! ### Announcements -/

/-- The targets that an input announces, whether or not the handler admits them. -/
def told (h : Handler) : HandlerInput → List TargetInfo
  | .response env resp =>
    match h.pendingCommands.get resp.id with
    | some (.getTargets _, _, _) =>
      match toCommandResponse env.decoders.getTargets resp with
      | .ok targetInfos => targetInfos
      | .error _ => []
    | _ => []
  | .event _ event =>
    match h.eventTarget event, event.params with
    | none, .targetTargetCreated targetInfo => [targetInfo]
    | _, _ => []
  | _ => []

theorem announced_eq (h : Handler) (input : HandlerInput) :
    h.announced input = (h.told input).filter h.admits := by
  cases input with
  | response env resp =>
    cases hpending : h.pendingCommands.get resp.id with
    | none => simp only [announced, told, hpending, List.filter_nil]
    | some pending =>
      obtain ⟨request, method, sentAt⟩ := pending
      cases request with
      | getTargets tx =>
        cases hdecode : toCommandResponse env.decoders.getTargets resp with
        | ok targetInfos => simp only [announced, told, hpending, hdecode]
        | error err => simp only [announced, told, hpending, hdecode, List.filter_nil]
      | _ => simp only [announced, told, hpending, List.filter_nil]
  | event env event =>
    cases hfound : h.eventTarget event with
    | some found => simp only [announced, told, hfound, List.filter_nil]
    | none =>
      obtain ⟨params, sessionId⟩ := event
      cases params with
      | targetTargetCreated info => simp only [announced, told, hfound]
      | _ => simp only [announced, told, hfound, List.filter_nil]
  | _ => rfl

variable {h : Handler} {driver : Driver} {input : HandlerInput}

/-- An input that announces a target does nothing else to the targets. -/
theorem quiet_of_told {info : TargetInfo} (hinfo : info ∈ h.told input) (driver : Driver)
    (targetId : TargetId) :
    h.removed input = none ∧ h.delivered driver targetId input = none := by
  cases input with
  | response env resp =>
    refine ⟨rfl, ?_⟩
    simp only [told] at hinfo
    split at hinfo
    · rename_i hpending
      simp only [delivered, hpending]
    · cases hinfo
  | event env event =>
    obtain ⟨params, sessionId⟩ := event
    simp only [told] at hinfo
    split at hinfo
    · rename_i _ hfound
      simp only [removed, delivered, hfound, and_self]
    · cases hinfo
  | _ => cases hinfo

/-- A target that an input announces but the handler does not put in place anew stays as it is. -/
theorem get_step_of_told {info : TargetInfo} (hinfo : info ∈ h.told input) (driver : Driver)
    {targetId : TargetId} (hother : ∀ created ∈ h.announced input, created.targetId ≠ targetId) :
    (h.step driver input).targets.get targetId = h.targets.get targetId := by
  obtain ⟨hremoved, hdelivered⟩ := quiet_of_told hinfo driver targetId
  rw [get_step, placed_of_none hother, hremoved, hdelivered]
  exact Option.map_id' (x := h.targets.get targetId)

/-! ### What an announcement has to heed -/

/-- A target that is announced again keeps its page, its initiator, its session and its managers. -/
def KeepsKnown (driver : Driver) (h : Handler) : PassInput → Prop
  | .input input =>
    ∀ info ∈ h.told input, ∀ target, h.targets.get info.targetId = some target →
      ∃ target', (h.step driver input).targets.get info.targetId = some target' ∧
        target'.page = target.page ∧ target'.initiator = target.initiator ∧
        target'.sessionId = target.sessionId ∧ target'.frameManager = target.frameManager ∧
        target'.networkManager = target.networkManager
  | .visit _ => True

/-- The list has the id of every target that is there, once. -/
def IdsOnce (h : Handler) : Prop :=
  ∀ targetId target, h.targets.get targetId = some target → h.targetIds.count targetId = 1

/-- What the handler puts in place has ids that are not in the list, each announced once. -/
def AnnouncesNew (h : Handler) : PassInput → Prop
  | .input input =>
    ((h.announced input).map TargetInfo.targetId).Nodup ∧
      ∀ info ∈ h.announced input, info.targetId ∉ h.targetIds
  | .visit _ => True

theorem announcesNew_iff (hbytes : h.remainingBytes = none) (honce : IdsOnce h) (input : HandlerInput) :
    KeepsKnown driver h (.input input) ∧ IdsOnce (h.step driver input) ↔
      AnnouncesNew h (.input input) := by
  have hcount : ∀ targetId, (h.step driver input).targetIds.count targetId =
      h.targetIds.count targetId + ((h.announced input).map TargetInfo.targetId).count targetId := by
    intro targetId
    rw [targetIds_step hbytes, List.count_append]
  constructor
  · rintro ⟨_, hafter⟩
    -- An id that is announced has a target afterwards, so the list has it once.
    have hnew : ∀ targetId ∈ (h.announced input).map TargetInfo.targetId,
        h.targetIds.count targetId = 0 ∧
          ((h.announced input).map TargetInfo.targetId).count targetId = 1 := by
      intro targetId hmem
      have hthere := h.isSome_step driver input targetId
      simp only [hmem, decide_true, Bool.true_or] at hthere
      obtain ⟨target, htarget⟩ := Option.isSome_iff_exists.1 hthere
      have hone := hafter targetId target htarget
      have hpos := List.count_pos_iff.2 hmem
      rw [hcount] at hone
      omega
    refine ⟨List.nodup_iff_count_le_one.2 fun targetId => ?_, fun info hinfo => ?_⟩
    · by_cases hmem : targetId ∈ (h.announced input).map TargetInfo.targetId
      · exact Nat.le_of_eq (hnew targetId hmem).2
      · rw [List.count_eq_zero_of_not_mem hmem]
        exact Nat.zero_le 1
    · exact List.count_eq_zero.1 (hnew info.targetId (List.mem_map_of_mem hinfo)).1
  · rintro ⟨hnodup, hnew⟩
    have hknown : ∀ targetId target, h.targets.get targetId = some target →
        ∀ created ∈ h.announced input, created.targetId ≠ targetId := by
      rintro targetId target htarget created hcreated rfl
      have hone := honce _ target htarget
      exact hnew created hcreated (List.count_pos_iff.1 (by omega))
    refine ⟨fun info hinfo target htarget => ?_, fun targetId target htarget => ?_⟩
    · have hsame := get_step_of_told hinfo driver (hknown _ target htarget)
      exact ⟨target, hsame.trans htarget, rfl, rfl, rfl, rfl, rfl⟩
    · rw [hcount]
      have hthere := h.isSome_step driver input targetId
      rw [htarget] at hthere
      by_cases hmem : targetId ∈ (h.announced input).map TargetInfo.targetId
      · obtain ⟨info, hinfo, rfl⟩ := List.mem_map.1 hmem
        rw [List.count_eq_zero.2 (hnew info hinfo), List.count_eq_one_of_mem hnodup hmem]
      · simp only [hmem, decide_false, Bool.false_or, Option.isSome_some] at hthere
        obtain ⟨before, hbefore⟩ := Option.isSome_iff_exists.1 (Bool.and_eq_true_iff.1 hthere.symm).2
        rw [honce targetId before hbefore, List.count_eq_zero_of_not_mem hmem]

theorem idsOnce_visit (honce : IdsOnce h) (n : Nat) : IdsOnce (h.visit n) := by
  intro targetId target htarget
  obtain ⟨targetIds, heq⟩ := h.visit_eq n
  rw [heq] at htarget
  rw [count_visit h n htarget]
  exact honce targetId target htarget

/-- Over any run, every target that is announced again is kept and every target has its id in the list once, just when every announcement that the handler admits is of an id that is not in the list. -/
theorem announcements_iff (driver : Driver) (config : HandlerConfig) (inputs : List PassInput) :
    Run.Allowed (passStep driver) (KeepsKnown driver) (new config) inputs ∧
        Run.Always (passStep driver) IdsOnce (new config) inputs ↔
      Run.Allowed (passStep driver) AnnouncesNew (new config) inputs := by
  refine Run.allowed_and_always_iff_allowed (fun h => h.remainingBytes = none) ?_ ?_ rfl ?_ inputs
  · intro h input hbytes
    cases input with
    | input input => exact remainingBytes_step hbytes driver input
    | visit n =>
      obtain ⟨targetIds, heq⟩ := h.visit_eq n
      rw [passStep, heq]
      exact hbytes
  · intro h input hbytes honce
    cases input with
    | input input => exact announcesNew_iff hbytes honce input
    | visit n => exact iff_of_true ⟨trivial, idsOnce_visit honce n⟩ trivial
  · intro targetId target htarget
    rw [show (new config).targets = ∅ from rfl, Table.get_empty] at htarget
    cases htarget

end Handler

end SpiderChrome
