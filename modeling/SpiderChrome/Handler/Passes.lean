import SpiderChrome.Handler.Stream
import SpiderChrome.Handler.Visits

/-!
# A pass as a run

A pass does nothing to the handler that the inputs of the drivers do not do: to take a target out of the table and to put it back after its events is to leave it there and to change it with each event. So what holds after every run of inputs holds after every pass, and none of the inputs announces a target or hears the browser. The pass of the stream is also the loop over the targets that `poll_next` has, where the targets stay in the table.
-/

namespace SpiderChrome

/-- The inputs that a pass consists of. -/
def PassInput.isOfPass : PassInput → Bool
  | .visit _ => true
  | .input (.pageMessage _ _) => true
  | .input (.drainPage _) => true
  | .input (.turn _ _ _ _) => true
  | _ => false

namespace Handler

/-- A handler comes from another one by inputs of a pass. -/
def Runs (driver : Driver) (h h' : Handler) : Prop :=
  ∃ steps : List PassInput, (∀ step ∈ steps, step.isOfPass = true) ∧ h' = steps.foldl (passStep driver) h

variable {h h' h'' : Handler} {driver : Driver}

theorem Runs.refl (driver : Driver) (h : Handler) : Runs driver h h :=
  ⟨[], fun _ hstep => absurd hstep List.not_mem_nil, rfl⟩

theorem Runs.trans (h₁ : Runs driver h h') (h₂ : Runs driver h' h'') : Runs driver h h'' := by
  obtain ⟨first, hfirst, rfl⟩ := h₁
  obtain ⟨second, hsecond, rfl⟩ := h₂
  refine ⟨first ++ second, ?_, List.foldl_append.symm⟩
  intro step hstep
  obtain hstep | hstep := List.mem_append.1 hstep
  · exact hfirst step hstep
  · exact hsecond step hstep

theorem Runs.step (driver : Driver) (h : Handler) (input : PassInput) (hinput : input.isOfPass = true) :
    Runs driver h (h.passStep driver input) := by
  refine ⟨[input], ?_, rfl⟩
  intro step hstep
  rw [List.mem_singleton.1 hstep]
  exact hinput

/-! ### A target that stays in the table -/

variable {targets : Table TargetId Target} {targetIds : List TargetId} {targetId : TargetId} {target : Target}

/-- A turn of the loop, where the target is in the table. -/
theorem turn_withTargets (hget : targets.get targetId = some target) (h : Handler) (targetIds : List TargetId)
    (driver : Driver) (accepted : Bool) (env : Env) (now : Instant) :
    (h.withTargets targets targetIds).turn driver accepted targetId env now =
      match (pollTarget driver target env now).event with
      | some event =>
        let (h, target) :=
          h.onTargetEvent driver (driver.accepts accepted) (pollTarget driver target env now).target event now
        h.withTargets (targets.set targetId target) targetIds
      | none => h.withTargets (targets.set targetId (pollTarget driver target env now).target) targetIds := by
  have hthere : (h.withTargets targets targetIds).targets.get targetId = some target := hget
  rw [turn, hthere]
  dsimp only
  cases (pollTarget driver target env now).event with
  | none => rfl
  | some event =>
    dsimp only
    rw [onTargetEvent_withTargets]
    rfl

/-- An input that changes the target in its place. -/
theorem update_runs {input : PassInput} {change : Target → Target} (hinput : input.isOfPass = true)
    (hget : targets.get targetId = some target) (h : Handler) (targetIds : List TargetId)
    (hstep : (h.withTargets targets targetIds).passStep driver input =
      h.withTargets (targets.update targetId change) targetIds) :
    Runs driver (h.withTargets targets targetIds)
      (h.withTargets (targets.set targetId (change target)) targetIds) := by
  have hruns := Runs.step driver (h.withTargets targets targetIds) input hinput
  rw [hstep, Table.update_of_get hget] at hruns
  exact hruns

theorem receiveAll_runs (messages : List TargetMessage) (hget : targets.get targetId = some target)
    (h : Handler) (targetIds : List TargetId) (driver : Driver) :
    ∃ targets', Runs driver (h.withTargets targets targetIds) (h.withTargets targets' targetIds) ∧
      targets'.get targetId = some (receiveAll messages target) ∧
      ∀ other, targets'.set targetId other = targets.set targetId other := by
  induction messages generalizing targets target with
  | nil => exact ⟨targets, .refl driver _, hget, fun _ => rfl⟩
  | cons msg messages ih =>
    obtain ⟨targets', hruns, hget', hset⟩ := ih (targets.get_set_self targetId (target.receive msg))
    have hfirst : Runs driver (h.withTargets targets targetIds)
        (h.withTargets (targets.set targetId (target.receive msg)) targetIds) :=
      @update_runs driver targets targetId target (.input (.pageMessage targetId msg))
        (fun target => target.receive msg) rfl hget h targetIds rfl
    refine ⟨targets', hfirst.trans hruns, hget', ?_⟩
    intro other
    rw [hset, Table.set_set]

/-- What `run` takes out of the channel of the page, it takes there where the target stays. -/
theorem drained_runs (hget : targets.get targetId = some target) (h : Handler) (targetIds : List TargetId)
    (driver : Driver) :
    ∃ targets', Runs driver (h.withTargets targets targetIds) (h.withTargets targets' targetIds) ∧
      targets'.get targetId = some (match driver with | .stream => target | .run => drainPage target) ∧
      ∀ other, targets'.set targetId other = targets.set targetId other := by
  cases driver with
  | stream => exact ⟨targets, .refl .stream _, hget, fun _ => rfl⟩
  | run =>
    refine ⟨targets.set targetId (drainPage target), ?_, targets.get_set_self targetId _, targets.set_set targetId _⟩
    exact @update_runs .run targets targetId target (.input (.drainPage targetId)) drainPage rfl hget h targetIds rfl

theorem serve_runs {inputs : Nat → TurnInput} {now : Instant} {fuel drained : Nat} {target' : Target}
    (hserve : serve driver inputs now fuel drained h target = some (h', target'))
    (hget : targets.get targetId = some target) (targetIds : List TargetId) :
    Runs driver (h.withTargets targets targetIds)
        (h'.withTargets (targets.set targetId target') targetIds) ∧
      h'.targets = h.targets ∧ h'.targetIds = h.targetIds := by
  induction fuel generalizing drained h target targets with
  | zero => cases hserve
  | succ fuel ih =>
    obtain ⟨received, hreceived, hget', hset⟩ :=
      receiveAll_runs (inputs drained).messages hget h targetIds driver
    have hturn := Runs.step driver (h.withTargets received targetIds)
      (.input (.turn (inputs drained).accepted targetId (inputs drained).env now)) rfl
    have hturned := turn_withTargets hget' h targetIds driver (inputs drained).accepted (inputs drained).env now
    rw [passStep, step, hturned] at hturn
    rw [serve] at hserve
    dsimp only [TurnInput.poll] at hserve
    generalize pollTarget driver (receiveAll (inputs drained).messages target) (inputs drained).env now = polled
      at hserve hturn
    cases hevent : polled.event with
    | none =>
      rw [hevent] at hserve hturn
      dsimp only at hturn
      rw [hset] at hturn
      cases hserve
      exact ⟨hreceived.trans hturn, rfl, rfl⟩
    | some event =>
      rw [hevent] at hserve hturn
      dsimp only at hserve hturn
      rw [hset] at hturn
      have htargets := h.onTargetEvent_targets driver (driver.accepts (inputs drained).accepted) polled.target event now
      have hids := h.targetIds_onTargetEvent driver (driver.accepts (inputs drained).accepted) polled.target event now
      split at hserve
      · cases hserve
        exact ⟨hreceived.trans hturn, htargets, hids⟩
      · obtain ⟨hrest, htargets', hids'⟩ := ih hserve (targets.get_set_self targetId _)
        rw [Table.set_set] at hrest
        exact ⟨(hreceived.trans hturn).trans hrest, htargets'.trans htargets, hids'.trans hids⟩

theorem visitTarget_runs {input : VisitInput} {now : Instant} {fuel n : Nat} {visited : Option TargetId}
    (hvisit : h.visitTarget driver input now fuel n = some (h', visited)) : Runs driver h h' := by
  rw [visitTarget] at hvisit
  cases hid : h.targetIds[n]? with
  | none =>
    rw [hid] at hvisit
    cases hvisit
  | some targetId =>
    rw [hid] at hvisit
    dsimp only at hvisit
    cases htarget : h.targets.get targetId with
    | none =>
      have hruns := Runs.step driver h (.visit n) rfl
      rw [passStep, visit, hid] at hruns
      dsimp only at hruns
      rw [htarget] at hvisit hruns
      cases hvisit
      exact hruns
    | some target =>
      rw [htarget] at hvisit
      dsimp only at hvisit
      obtain ⟨received, hreceived, hget, hset⟩ := receiveAll_runs input.messages htarget h h.targetIds driver
      obtain ⟨drained, hdrained, hget', hset'⟩ := drained_runs hget h h.targetIds driver
      split at hvisit
      · rename_i served target' hserve
        cases hvisit
        obtain ⟨hserved, htargets, hids⟩ := serve_runs hserve hget' h.targetIds
        have hback := Runs.step driver (served.withTargets (drained.set targetId target') h.targetIds) (.visit n) rfl
        have hid' : (served.withTargets (drained.set targetId target') h.targetIds).targetIds[n]? = some targetId := hid
        have hthere : (served.withTargets (drained.set targetId target') h.targetIds).targets.get targetId =
            some target' := drained.get_set_self targetId target'
        rw [passStep, visit, hid'] at hback
        dsimp only at hback
        rw [hthere] at hback
        rw [htargets, hids, Table.set_remove, ← hset, ← hset']
        exact ((hreceived.trans hdrained).trans hserved).trans hback
      · cases hvisit

theorem passBefore_runs {inputs : Nat → VisitInput} {now : Instant} {fuel n : Nat} {processed : List TargetId}
    (hpass : passBefore driver inputs now fuel n h = some (h', processed)) : Runs driver h h' := by
  induction n generalizing h processed with
  | zero =>
    cases hpass
    exact .refl driver _
  | succ n ih =>
    rw [passBefore] at hpass
    cases hvisit : h.visitTarget driver (inputs n) now fuel n with
    | none =>
      rw [hvisit] at hpass
      cases hpass
    | some visited =>
      rw [hvisit] at hpass
      dsimp only [bind, Option.bind] at hpass
      cases hrest : passBefore driver inputs now fuel n visited.1 with
      | none =>
        rw [hrest] at hpass
        cases hpass
      | some rest =>
        rw [hrest] at hpass
        cases hpass
        exact (visitTarget_runs hvisit).trans (ih hrest)

theorem pass_runs {inputs : Nat → VisitInput} {now : Instant} {fuel : Nat} {processed : List TargetId}
    (hpass : pass driver inputs now fuel h = some (h', processed)) : Runs driver h h' :=
  passBefore_runs hpass

/-! ### The pass of the stream -/

/-- A turn in which the page sends nothing, and the connection takes what it is given. -/
def quietVisit (env : Nat → Env) : VisitInput := ⟨[], fun turn => ⟨[], true, env turn⟩⟩

theorem drainTarget_of_serve {env : Nat → Env} {now : Instant} {fuel drained : Nat} {target' : Target}
    (hserve : serve .stream (quietVisit env).turns now fuel drained h target = some (h', target'))
    (hdrained : drained < perTargetDrainBudget) (hget : targets.get targetId = some target)
    (targetIds : List TargetId) :
    ((h.withTargets targets targetIds).drainTarget env now targetId (perTargetDrainBudget - drained)).1 =
      h'.withTargets (targets.set targetId target') targetIds := by
  induction fuel generalizing drained h target targets with
  | zero => cases hserve
  | succ fuel ih =>
    obtain ⟨room, hroom⟩ := Nat.exists_eq_add_of_lt hdrained
    have hleft : perTargetDrainBudget - drained = room + 1 := by omega
    have hthis : perTargetDrainBudget - (room + 1) = drained := by omega
    have hthere : (h.withTargets targets targetIds).targets.get targetId = some target := hget
    have hturned := turn_withTargets hget h targetIds .stream true (env drained) now
    rw [serve] at hserve
    dsimp only [TurnInput.poll, quietVisit, receiveAll, List.foldl_nil] at hserve
    rw [hleft, drainTarget, hthis, hthere, hturned, Option.bind_some]
    generalize pollTarget .stream target (env drained) now = polled at hserve
    cases hevent : polled.event with
    | none =>
      rw [hevent] at hserve
      cases hserve
      rfl
    | some event =>
      rw [hevent] at hserve
      dsimp only at hserve ⊢
      split at hserve
      · rename_i hlast
        cases hserve
        have hnone : room = 0 := by omega
        rw [hnone]
        rfl
      · rename_i hmore
        have hnext : drained + 1 < perTargetDrainBudget := Nat.lt_of_not_le fun hle => hmore ⟨rfl, hle⟩
        have hrest := ih hserve hnext (targets.get_set_self targetId _)
        have hroom' : perTargetDrainBudget - (drained + 1) = room := by omega
        rw [hroom', Table.set_set] at hrest
        exact hrest

theorem drainTarget_of_none (htarget : h.targets.get targetId = none) (env : Nat → Env) (now : Instant) (room : Nat) :
    (h.drainTarget env now targetId room).1 = h := by
  cases room with
  | zero => rfl
  | succ room =>
    rw [drainTarget, htarget, turn_of_none htarget]
    rfl

theorem visitTarget_stream {env : Nat → Env} {now : Instant} {fuel n : Nat} {targetId : TargetId}
    {visited : Option TargetId} (hid : h.targetIds[n]? = some targetId)
    (hvisit : h.visitTarget .stream (quietVisit env) now fuel n = some (h', visited)) :
    ((h.visit n).drainTarget env now targetId perTargetDrainBudget).1 = h' := by
  rw [visitTarget, hid] at hvisit
  rw [visit, hid]
  dsimp only at hvisit ⊢
  cases htarget : h.targets.get targetId with
  | none =>
    rw [htarget] at hvisit
    cases hvisit
    have hgone : ({ h with targetIds := swapRemove h.targetIds n } : Handler).targets.get targetId = none := htarget
    exact drainTarget_of_none hgone env now perTargetDrainBudget
  | some target =>
    rw [htarget] at hvisit
    dsimp only at hvisit
    split at hvisit
    · rename_i served target' hserve
      cases hvisit
      have hdrained := drainTarget_of_serve hserve (by decide) htarget (swapRemove h.targetIds n ++ [targetId])
      obtain ⟨-, htargets, hids⟩ := serve_runs hserve htarget h.targetIds
      rw [htargets, hids, Table.set_remove]
      exact hdrained
    · cases hvisit

/-- A turn of the loop over the targets in `drainTargets`. -/
def drainPlace (env : TargetId → Nat → Env) (now : Instant) (state : Handler × Bool) (n : Nat) : Handler × Bool :=
  match state.1.targetIds[n]? with
  | some targetId =>
    let (h, again) := (state.1.visit n).drainTarget (env targetId) now targetId perTargetDrainBudget
    (h, state.2 || again)
  | none => state

theorem drainTargets_eq (h : Handler) (env : TargetId → Nat → Env) (now : Instant) :
    h.drainTargets env now = (List.range h.targetIds.length).reverse.foldl (drainPlace env now) (h, false) :=
  rfl

theorem passBefore_drains {env : TargetId → Nat → Env} {inputs : Nat → VisitInput} {front rest : List TargetId}
    (hids : h.targetIds = front ++ rest)
    (hinputs : ∀ n targetId, front[n]? = some targetId → inputs n = quietVisit (env targetId))
    (now : Instant) (hit : Bool) :
    ∃ processed enough, ∀ fuel, enough < fuel →
      passBefore .stream inputs now fuel front.length h =
        some (((List.range front.length).reverse.foldl (drainPlace env now) (h, hit)).1, processed) := by
  induction front using List.reverseRecOn generalizing h rest hit with
  | nil => exact ⟨[], 0, fun _ _ => rfl⟩
  | append_singleton front targetId ih =>
    rw [List.append_assoc, List.singleton_append] at hids
    have hquiet : inputs front.length = quietVisit (env targetId) :=
      hinputs front.length targetId List.getElem?_concat_length
    have hfront : ∀ n targetId, front[n]? = some targetId → inputs n = quietVisit (env targetId) := by
      intro n other hother
      refine hinputs n other ?_
      rw [List.getElem?_append_left (List.getElem?_eq_some_iff.1 hother).1]
      exact hother
    have hid : h.targetIds[front.length]? = some targetId := by
      rw [hids, List.getElem?_append_right (Nat.le_refl _), Nat.sub_self, List.getElem?_cons_zero]
    obtain ⟨first, behind, enough, hvisit, hfirst, -, -⟩ :=
      visitTarget_returns .stream (inputs front.length) now hids
    have hdrained := hvisit (enough + 1) (Nat.lt_succ_self enough)
    rw [hquiet] at hdrained
    have hplace : (drainPlace env now (h, hit) front.length).1 = first := by
      rw [drainPlace, hid]
      exact visitTarget_stream hid hdrained
    obtain ⟨processed, enough', hpass⟩ := ih hfirst hfront (drainPlace env now (h, hit) front.length).2
    refine ⟨(if h.present targetId then some targetId else none).toList ++ processed, max enough enough',
      fun fuel hfuel => ?_⟩
    have hthis := hvisit fuel (by omega)
    have hrest := hpass fuel (by omega)
    rw [List.length_append, List.length_singleton, passBefore, hthis, List.range_succ, List.reverse_concat,
      List.foldl_cons]
    dsimp only [bind, Option.bind]
    rw [hrest, ← hplace]

/-- Where the pages send nothing while it works, the pass of the stream is the loop of `poll_next` over the targets. -/
theorem pass_drainTargets {env : TargetId → Nat → Env} {inputs : Nat → VisitInput} (h : Handler)
    (hinputs : ∀ n targetId, h.targetIds[n]? = some targetId → inputs n = quietVisit (env targetId))
    (now : Instant) :
    ∃ processed enough, ∀ fuel, enough < fuel →
      pass .stream inputs now fuel h = some ((h.drainTargets env now).1, processed) := by
  rw [drainTargets_eq]
  exact passBefore_drains (List.append_nil h.targetIds).symm hinputs now false

end Handler

end SpiderChrome
