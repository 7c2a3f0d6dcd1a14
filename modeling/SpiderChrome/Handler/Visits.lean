import SpiderChrome.Handler.Pass
import SpiderChrome.Target.Work

/-!
# A pass over the targets

Both drivers go through the ids from the last one to the first: an id is taken out of the list, its target out of the table, and after its events are handled both are put back, the id at the end of the list. The ids before the place that is next are those that are still to come, and the ones behind it are those that have been: so no target is visited twice, and none is left out.
-/

namespace SpiderChrome

namespace Handler

/-- What a turn of the loop over the events of a target meets: what the page has sent by then, whether the writer takes a call, and the environment. -/
structure TurnInput where
  messages : List TargetMessage
  accepted : Bool
  env : Env

/-- What a driver meets when it has a target at hand: what the page has sent since the pass began, and the turns of the loop. -/
structure VisitInput where
  messages : List TargetMessage
  turns : Nat → TurnInput

def receiveAll (messages : List TargetMessage) (target : Target) : Target := messages.foldl Target.receive target

def TurnInput.poll (input : TurnInput) (driver : Driver) (target : Target) (now : Instant) : Target.Polled :=
  pollTarget driver (receiveAll input.messages target) input.env now

/-- The loop over the events of a target, where so many have been handled. The stream stops when it has handled `perTargetDrainBudget` of them, and `run` when there are no more. -/
def serve (driver : Driver) (inputs : Nat → TurnInput) (now : Instant) :
    Nat → Nat → Handler → Target → Option (Handler × Target)
  | 0, _, _, _ => none
  | fuel + 1, drained, h, target =>
    let input := inputs drained
    let polled := input.poll driver target now
    match polled.event with
    | some event =>
      let (h, target) := h.onTargetEvent driver (driver.accepts input.accepted) polled.target event now
      if driver = .stream ∧ perTargetDrainBudget ≤ drained + 1 then some (h, target)
      else serve driver inputs now fuel (drained + 1) h target
    | none => some (h, polled.target)

/-- One turn of the loop over the target ids, with the id whose target it processes. To remove a place that the list does not have panics. -/
def visitTarget (driver : Driver) (input : VisitInput) (now : Instant) (fuel : Nat) (h : Handler) (n : Nat) :
    Option (Handler × Option TargetId) :=
  match h.targetIds[n]? with
  | some targetId =>
    let h := { h with targetIds := swapRemove h.targetIds n }
    match h.targets.get targetId with
    | some target =>
      let h := { h with targets := h.targets.remove targetId }
      let target := receiveAll input.messages target
      let target := match driver with
        | .stream => target
        | .run => drainPage target
      match serve driver input.turns now fuel 0 h target with
      | some (h, target) =>
        some ({ h with targets := h.targets.set targetId target, targetIds := h.targetIds ++ [targetId] },
          some targetId)
      | none => none
    | none => some (h, none)
  | none => none

/-- The turns of the loop for the places before one, with the ids whose targets are processed, in their order. -/
def passBefore (driver : Driver) (inputs : Nat → VisitInput) (now : Instant) (fuel : Nat) :
    Nat → Handler → Option (Handler × List TargetId)
  | 0, h => some (h, [])
  | n + 1, h => do
    let (h, visited) ← h.visitTarget driver (inputs n) now fuel n
    let (h, processed) ← passBefore driver inputs now fuel n h
    some (h, visited.toList ++ processed)

/-- The loop over the target ids. -/
def pass (driver : Driver) (inputs : Nat → VisitInput) (now : Instant) (fuel : Nat) (h : Handler) :
    Option (Handler × List TargetId) :=
  passBefore driver inputs now fuel h.targetIds.length h

variable {h h' : Handler} {driver : Driver} {inputs : Nat → TurnInput} {now : Instant}

/-! ### The events of a target -/

/-- The handler with another table of targets and another list of ids. -/
def withTargets (h : Handler) (targets : Table TargetId Target) (targetIds : List TargetId) : Handler :=
  { h with targets := targets, targetIds := targetIds }

theorem onNavigationLifecycleCompleted_withTargets (h : Handler) (targets : Table TargetId Target)
    (targetIds : List TargetId) (res : Except NavigationError NavigationOk) :
    (h.withTargets targets targetIds).onNavigationLifecycleCompleted res =
      (h.onNavigationLifecycleCompleted res).withTargets targets targetIds := by
  have hnavigations : (h.withTargets targets targetIds).navigations = h.navigations := rfl
  unfold onNavigationLifecycleCompleted
  cases res with
  | ok nav =>
    dsimp only
    rw [hnavigations]
    cases h.navigations.get nav.navigationId with
    | none => rfl
    | some waiting =>
      dsimp only
      cases waiting.response with
      | none => rfl
      | some resp => rfl
  | error err =>
    dsimp only
    rw [hnavigations]
    cases h.navigations.get err.navigationId with
    | none => rfl
    | some waiting => rfl

/-- What a handler does with an event depends neither on the table of targets nor on the list of ids, and leaves both alone. -/
theorem onTargetEvent_withTargets (h : Handler) (targets : Table TargetId Target) (targetIds : List TargetId)
    (driver : Driver) (accepted : Bool) (target : Target) (event : TargetEvent) (now : Instant) :
    (h.withTargets targets targetIds).onTargetEvent driver accepted target event now =
      ((h.onTargetEvent driver accepted target event now).1.withTargets targets targetIds,
        (h.onTargetEvent driver accepted target event now).2) := by
  have hsubmit : ∀ (h : Handler) req pending, (h.withTargets targets targetIds).submit accepted req pending now =
      (h.submit accepted req pending now).withTargets targets targetIds := by
    intro h req pending
    cases accepted with
    | true => rfl
    | false => rfl
  cases event with
  | request req => exact congrArg (·, target) (hsubmit h _ _)
  | navigationRequest id req => exact congrArg (·, target) (hsubmit h _ _)
  | navigationResult res =>
    exact congrArg (·, target) (h.onNavigationLifecycleCompleted_withTargets targets targetIds res)
  | command msg =>
    rw [onTargetEvent, onTargetEvent]
    split
    · cases driver with
      | stream => rfl
      | run =>
        cases accepted with
        | true => rfl
        | false => rfl
    · cases driver with
      | stream => exact congrArg (·, target) (hsubmit h _ _)
      | run => exact congrArg (·, target) (hsubmit h _ _)
  | bytesConsumed bytes =>
    rw [onTargetEvent, onTargetEvent]
    have hsame : (h.withTargets targets targetIds).remainingBytes = h.remainingBytes := rfl
    rw [hsame]
    cases h.remainingBytes with
    | none => rfl
    | some left => rfl

theorem targetIds_onTargetEvent (h : Handler) (driver : Driver) (accepted : Bool) (target : Target)
    (event : TargetEvent) (now : Instant) :
    (h.onTargetEvent driver accepted target event now).1.targetIds = h.targetIds := by
  have hsame := h.onTargetEvent_withTargets h.targets h.targetIds driver accepted target event now
  exact congrArg (fun after => after.1.targetIds) hsame

/-- What a handler does with an event leaves the target less to tell than it had with the event. -/
theorem eventsLeft_onTargetEvent (h : Handler) (driver : Driver) (accepted : Bool) (target : Target)
    (event : TargetEvent) (now : Instant) :
    (h.onTargetEvent driver accepted target event now).2.eventsLeft now < target.eventsLeft now + event.weight := by
  rw [onTargetEvent_target]
  cases event with
  | command msg =>
    rw [afterEvent]
    split
    · exact Nat.lt_succ_of_le (target.eventsLeft_goto _ now)
    · exact Nat.lt_add_of_pos_right (by decide : 0 < 4)
  | _ => exact Nat.lt_succ_self _

/-- Messages that wait in the channel are not told before they are taken out of it. -/
theorem eventsLeft_receiveAll (messages : List TargetMessage) (target : Target) (now : Instant) :
    (receiveAll messages target).eventsLeft now = target.eventsLeft now := by
  induction messages generalizing target with
  | nil => rfl
  | cons msg messages ih => exact ih (target.receive msg)

/-- A bound for the events that a driver still handles. -/
def turnsLeft (driver : Driver) (now : Instant) (drained : Nat) (target : Target) : Nat :=
  match driver with
  | .stream => perTargetDrainBudget - drained
  | .run => target.eventsLeft now

/-- The bound falls with each event that does not end the loop. -/
theorem turnsLeft_lt {input : TurnInput} {drained : Nat} {target : Target} {event : TargetEvent}
    (hevent : (input.poll driver target now).event = some event)
    (hmore : ¬ (driver = .stream ∧ perTargetDrainBudget ≤ drained + 1)) (h : Handler) (accepted : Bool) :
    turnsLeft driver now (drained + 1)
        (h.onTargetEvent driver accepted (input.poll driver target now).target event now).2 <
      turnsLeft driver now drained target := by
  cases driver with
  | stream =>
    have hbudget : drained + 1 < perTargetDrainBudget := Nat.lt_of_not_le fun hle => hmore ⟨rfl, hle⟩
    show perTargetDrainBudget - (drained + 1) < perTargetDrainBudget - drained
    omega
  | run =>
    have hpolled := (receiveAll input.messages target).eventsLeft_advance input.env now
    have hhandled := h.eventsLeft_onTargetEvent .run accepted
      ((receiveAll input.messages target).advance input.env now).target event now
    rw [show ((receiveAll input.messages target).advance input.env now).event = some event from hevent,
      eventsLeft_receiveAll] at hpolled
    exact Nat.lt_of_lt_of_le hhandled hpolled

section Turns

variable {drained : Nat} {target : Target} {event : TargetEvent}

theorem serve_of_none (hevent : ((inputs drained).poll driver target now).event = none) (h : Handler) (fuel : Nat) :
    serve driver inputs now (fuel + 1) drained h target =
      some (h, ((inputs drained).poll driver target now).target) := by
  rw [serve]
  simp only [hevent]

theorem serve_of_event (hevent : ((inputs drained).poll driver target now).event = some event) (h : Handler)
    (fuel : Nat) :
    serve driver inputs now (fuel + 1) drained h target =
      let handled := h.onTargetEvent driver (driver.accepts (inputs drained).accepted)
        ((inputs drained).poll driver target now).target event now
      if driver = .stream ∧ perTargetDrainBudget ≤ drained + 1 then some handled
      else serve driver inputs now fuel (drained + 1) handled.1 handled.2 := by
  rw [serve]
  simp only [hevent]

end Turns

/-- The loop over the events of a target ends, and leaves the table of targets and the list of ids alone. -/
theorem serve_returns (inputs : Nat → TurnInput) (now : Instant) (drained : Nat) (h : Handler) (target : Target) :
    ∃ h' target', (∀ fuel, turnsLeft driver now drained target < fuel →
        serve driver inputs now fuel drained h target = some (h', target')) ∧
      h'.targets = h.targets ∧ h'.targetIds = h.targetIds := by
  induction hleft : turnsLeft driver now drained target using Nat.strongRecOn generalizing drained h target with
  | ind left ih =>
    cases hevent : ((inputs drained).poll driver target now).event with
    | none =>
      refine ⟨h, ((inputs drained).poll driver target now).target, ?_, rfl, rfl⟩
      intro fuel hfuel
      obtain ⟨fuel, rfl⟩ := Nat.exists_eq_add_of_lt hfuel
      exact serve_of_none hevent h _
    | some event =>
      have hturn := serve_of_event hevent h
      have htargets := h.onTargetEvent_targets driver (driver.accepts (inputs drained).accepted)
        ((inputs drained).poll driver target now).target event now
      have hids := h.targetIds_onTargetEvent driver (driver.accepts (inputs drained).accepted)
        ((inputs drained).poll driver target now).target event now
      by_cases hlast : driver = .stream ∧ perTargetDrainBudget ≤ drained + 1
      · refine ⟨_, (h.onTargetEvent driver (driver.accepts (inputs drained).accepted)
          ((inputs drained).poll driver target now).target event now).2, ?_, htargets, hids⟩
        intro fuel hfuel
        obtain ⟨fuel, rfl⟩ := Nat.exists_eq_add_of_lt hfuel
        exact (hturn _).trans (if_pos hlast)
      · have hless := turnsLeft_lt hevent hlast h (driver.accepts (inputs drained).accepted)
        obtain ⟨h', target', hserve, htargets', hids'⟩ := ih _ (hleft ▸ hless) _ _ _ rfl
        refine ⟨h', target', ?_, htargets'.trans htargets, hids'.trans hids⟩
        intro fuel hfuel
        obtain ⟨fuel, rfl⟩ := Nat.exists_eq_add_of_lt hfuel
        exact ((hturn _).trans (if_neg hlast)).trans (hserve _ (by omega))

/-! ### A turn of the loop over the ids -/

/-- The id is a key of the table of targets. -/
def present (h : Handler) (targetId : TargetId) : Bool := (h.targets.get targetId).isSome

theorem visitTarget_returns (driver : Driver) (input : VisitInput) (now : Instant) {front rest : List TargetId}
    {targetId : TargetId} (hids : h.targetIds = front ++ targetId :: rest) :
    ∃ h' rest' enough,
      (∀ fuel, enough < fuel → h.visitTarget driver input now fuel front.length =
        some (h', if h.present targetId then some targetId else none)) ∧
      h'.targetIds = front ++ rest' ∧
      rest'.Perm (rest ++ (if h.present targetId then some targetId else none).toList) ∧ h'.present = h.present := by
  have hget : h.targetIds[front.length]? = some targetId := by
    rw [hids, List.getElem?_append_right (Nat.le_refl _), Nat.sub_self, List.getElem?_cons_zero]
  obtain ⟨behind, hremoved, hbehind⟩ := swapRemove_append front rest targetId
  rw [← hids] at hremoved
  cases htarget : h.targets.get targetId with
  | none =>
    have habsent : h.present targetId = false := by rw [present, htarget]; rfl
    refine ⟨{ h with targetIds := swapRemove h.targetIds front.length }, behind, 0, ?_, hremoved, ?_, rfl⟩
    · intro fuel _
      rw [visitTarget, hget, habsent]
      simp only [htarget]
      rfl
    · rw [habsent]
      exact (List.append_nil rest).symm ▸ hbehind
  | some target =>
    have hpresent : h.present targetId = true := by rw [present, htarget]; rfl
    let taken : Handler :=
      { h with targetIds := swapRemove h.targetIds front.length, targets := h.targets.remove targetId }
    let drained := match driver with
      | .stream => receiveAll input.messages target
      | .run => drainPage (receiveAll input.messages target)
    obtain ⟨served, target', hserve, htargets, htargetIds⟩ := @serve_returns driver input.turns now 0 taken drained
    refine ⟨{ served with
      targets := served.targets.set targetId target', targetIds := served.targetIds ++ [targetId] },
      behind ++ [targetId], turnsLeft driver now 0 drained, ?_, ?_, ?_, ?_⟩
    · intro fuel hfuel
      have hserved := hserve fuel hfuel
      rw [visitTarget, hget, hpresent]
      simp only [htarget]
      rw [hserved]
      rfl
    · dsimp only
      rw [htargetIds, ← List.append_assoc, ← hremoved]
    · rw [hpresent]
      exact hbehind.append_right [targetId]
    · funext other
      rw [present, present]
      dsimp only
      rw [htargets, Table.get_set]
      split
      · rename_i hsame
        rw [hsame, htarget]
        rfl
      · rename_i hother
        rw [Table.get_remove_of_ne _ hother]

/-! ### The loop over the ids -/

/-- The ids before a place are processed from the last one to the first, and put behind the others. -/
theorem passBefore_returns (driver : Driver) (inputs : Nat → VisitInput) (now : Instant)
    {front rest : List TargetId} (hids : h.targetIds = front ++ rest) :
    ∃ h' enough,
      (∀ fuel, enough < fuel →
        passBefore driver inputs now fuel front.length h = some (h', (front.filter h.present).reverse)) ∧
      h'.targetIds.Perm (rest ++ (front.filter h.present).reverse) ∧ h'.present = h.present := by
  induction front using List.reverseRecOn generalizing h rest with
  | nil =>
    refine ⟨h, 0, fun fuel _ => rfl, ?_, rfl⟩
    rw [hids]
    exact .of_eq (List.append_nil rest).symm
  | append_singleton front targetId ih =>
    rw [List.append_assoc, List.singleton_append] at hids
    obtain ⟨first, behind, enough, hvisit, hfirst, hbehind, hpresent⟩ :=
      visitTarget_returns driver (inputs front.length) now hids
    obtain ⟨last, enough', hpass, hlast, hpresent'⟩ := ih hfirst
    rw [hpresent] at hpass hlast hpresent'
    have horder : ((front ++ [targetId]).filter h.present).reverse =
        (if h.present targetId then some targetId else none).toList ++ (front.filter h.present).reverse := by
      rw [List.filter_append, List.reverse_append, List.filter_singleton]
      cases h.present targetId with
      | true => rfl
      | false => rfl
    refine ⟨last, max enough enough', ?_, ?_, hpresent'⟩
    · intro fuel hfuel
      have hfirst := hvisit fuel (by omega)
      have hrest := hpass fuel (by omega)
      rw [List.length_append, List.length_singleton, passBefore, hfirst]
      dsimp only [bind, Option.bind]
      rw [hrest, horder]
    · rw [horder, ← List.append_assoc]
      exact hlast.trans (hbehind.append_right _)

/-- A pass processes the ids that have a target, once each, and leaves those ids in the list and the table with the same keys. -/
structure VisitsOnce (h h' : Handler) (processed : List TargetId) : Prop where
  once : ∀ targetId ∈ h.targetIds, h.present targetId = true → processed.count targetId = 1
  others : ∀ targetId ∈ processed, targetId ∈ h.targetIds ∧ h.present targetId = true
  drops : ∀ targetId ∈ h.targetIds, targetId ∉ h'.targetIds ↔ h.present targetId = false
  perm : h'.targetIds.Perm processed
  nodup : h'.targetIds.Nodup
  keys : ∀ targetId, h'.present targetId = h.present targetId

theorem pass_visits_once (driver : Driver) (inputs : Nat → VisitInput) (now : Instant) (h : Handler)
    (hnodup : h.targetIds.Nodup) :
    ∃ h' processed enough,
      (∀ fuel, enough < fuel → pass driver inputs now fuel h = some (h', processed)) ∧ VisitsOnce h h' processed := by
  obtain ⟨h', enough, hpass, hperm, hpresent⟩ :=
    passBefore_returns driver inputs now (List.append_nil h.targetIds).symm
  rw [List.nil_append] at hperm
  have hmem : ∀ targetId, targetId ∈ (h.targetIds.filter h.present).reverse ↔
      targetId ∈ h.targetIds ∧ h.present targetId = true := by
    intro targetId
    rw [List.mem_reverse, List.mem_filter]
  have honce : (h.targetIds.filter h.present).reverse.Nodup := List.nodup_reverse.2 (hnodup.filter _)
  refine ⟨h', (h.targetIds.filter h.present).reverse, enough, hpass, ?_⟩
  constructor
  case once =>
    intro targetId hid hthere
    exact List.count_eq_one_of_mem honce ((hmem targetId).2 ⟨hid, hthere⟩)
  case others =>
    intro targetId hid
    exact (hmem targetId).1 hid
  case drops =>
    intro targetId hid
    rw [hperm.mem_iff, hmem, Bool.eq_false_iff]
    exact not_congr (and_iff_right hid)
  case perm => exact hperm
  case nodup => exact hperm.nodup_iff.2 honce
  case keys => exact congrFun hpresent

/-- Two ids, of which the last one has lost its target. -/
def halfKnown : Handler :=
  { new plainConfig with
    targetIds := [plainTarget, ⟨"gone"⟩]
    targets := (∅ : Table TargetId Target).set plainTarget
      (Target.new ⟨plainTarget, "page", none, none⟩ plainConfig.targetConfig ⟨none⟩) }

theorem halfKnown_visited_once :
    halfKnown.targetIds.Nodup ∧
      ∃ h' processed enough,
        (∀ fuel, enough < fuel →
          pass .run (fun _ => ⟨[], fun _ => ⟨[], true, plainEnv⟩⟩) 0 fuel halfKnown = some (h', processed)) ∧
        VisitsOnce halfKnown h' processed := by
  have hnodup : halfKnown.targetIds.Nodup := by decide
  exact ⟨hnodup, pass_visits_once .run _ 0 halfKnown hnodup⟩

end Handler

end SpiderChrome
