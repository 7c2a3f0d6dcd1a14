import SpiderChrome.Frame.Navigation

/-!
# The navigation cap

One counter stands for the navigations that the main frame makes during a `goto`, whichever `goto` that is. `navigationsSinceIssue` counts what it is meant to count, the main frame's navigations since the request of the active navigation was handed out. `CountsAlone` lists what keeps the counter true to that: no `goto` resets it while a navigation is active, and no navigation takes over what was counted before it. On every run of this kind `poll` reports `TooManyNavigations` exactly for an active navigation that is over the cap.
-/

namespace SpiderChrome

/-- The number of main frame navigations that the input reports. -/
def FrameInput.mainNavigations : FrameInput → Nat
  | frameTree tree _ => tree.nodes.countP fun frame => !frame.parentId.isSome
  | frameNavigated frame _ => if frame.parentId.isSome then 0 else 1
  | _ => 0

namespace FrameManager

/-- The number of main frame navigations since a request was last handed out, or since the start. -/
def navigationsSinceIssue : FrameManager → Nat → List FrameInput → Nat
  | _, n, [] => n
  | fm, n, input :: rest =>
    navigationsSinceIssue (FrameInput.apply fm input)
      (if input.issues fm then 0 else n + input.mainNavigations) rest

/-- The input neither resets the counter of an active navigation nor hands it to another one, and does not count past the end of a `u32` when the cap is the last `u32`. -/
def CountsAlone (fm : FrameManager) : FrameInput → Prop
  | .goto _ => fm.mainFrame = none ∨ fm.navigation = none ∨ fm.mainFrameNavCount = 0
  | .poll _ _ => fm.navigation = none → fm.pendingNavigations ≠ [] → fm.mainFrameNavCount = 0
  | input => fm.navigation = none ∨ fm.maxMainFrameNavigations ≠ some 4294967295 ∨
      fm.mainFrameNavCount.toNat + input.mainNavigations ≤ 4294967295

/-- The counter of an active navigation shows `n`, as far as a `u32` and the cap can tell. -/
structure Accounted (fm : FrameManager) (n : Nat) : Prop where
  count : fm.navigation ≠ none → fm.mainFrameNavCount.toNat = min n 4294967295
  bound : fm.navigation ≠ none → fm.maxMainFrameNavigations = some 4294967295 → n ≤ 4294967295

theorem navigationsSinceIssue_append (fm : FrameManager) (n : Nat) (before : List FrameInput)
    (input : FrameInput) :
    navigationsSinceIssue fm n (before ++ [input]) =
      if input.issues (Run.final FrameInput.apply fm before) then 0
      else navigationsSinceIssue fm n before + input.mainNavigations := by
  induction before generalizing fm n with
  | nil => rfl
  | cons first rest ih => exact ih _ _

theorem toNat_saturatingAdd_one (a : UInt32) :
    (saturatingAdd a 1).toNat = min (a.toNat + 1) 4294967295 := by
  have hlt : a.toNat < 4294967296 := a.toNat_lt
  have hone : (1 : UInt32).toNat = 1 := rfl
  unfold saturatingAdd
  split
  · rename_i h
    change a.toNat + 1 < 4294967296 at h
    rw [UInt32.toNat_add, hone]
    omega
  · rename_i h
    change ¬a.toNat + 1 < 4294967296 at h
    change 4294967295 = _
    omega

/-! ### One step -/

theorem Accounted.of_inactive {fm : FrameManager} {n : Nat} (h : fm.navigation = none) :
    Accounted fm n where
  count := fun hactive => absurd h hactive
  bound := fun hactive => absurd h hactive

theorem Accounted.of_same {fm fm' : FrameManager} {n : Nat} (h : Accounted fm n)
    (hsame : SameNavigations fm fm') : Accounted fm' n where
  count := by rw [hsame.navigation, hsame.mainFrameNavCount]; exact h.count
  bound := by rw [hsame.navigation, hsame.maxMainFrameNavigations]; exact h.bound

theorem mainNavigations_of_quiet {input : FrameInput} (h : input.quiet = true) :
    input.mainNavigations = 0 := by
  cases input with
  | frameNavigated frame worldName =>
    have hparent : frame.parentId.isSome = true := h
    exact if_pos hparent
  | frameTree tree worldName => cases h
  | _ => rfl

theorem Accounted.goto {fm : FrameManager} {n : Nat} (h : Accounted fm n)
    (req : FrameRequestedNavigation) (hguard : CountsAlone fm (.goto req)) :
    Accounted (fm.goto req) n := by
  unfold FrameManager.goto
  split
  · rename_i main hmain
    rcases hguard with hnone | hinactive | hzero
    · rw [hmain] at hnone
      cases hnone
    · exact .of_inactive hinactive
    · exact ⟨fun hactive => by rw [← h.count hactive, hzero]; rfl, h.bound⟩
  · exact h

theorem Accounted.poll {fm : FrameManager} {n : Nat} (h : Accounted fm n) (now clock : Instant)
    (hguard : CountsAlone fm (.poll now clock)) :
    Accounted (fm.poll now clock).1
      (if (FrameInput.poll now clock).issues fm then 0 else n) := by
  have hstep := poll_step fm now clock
  rw [FrameInput.issues_poll]
  generalize (fm.poll now clock).1 = fm' at hstep ⊢
  generalize (fm.poll now clock).2 = event at hstep ⊢
  cases hstep with
  | idle => exact h
  | waiting => exact h
  | issued req watcher rest hnavigation hqueue =>
    have hzero := hguard hnavigation (by rw [hqueue]; exact List.cons_ne_nil _ _)
    exact ⟨fun _ => by rw [hzero]; rfl, fun _ _ => Nat.zero_le _⟩
  | capped => exact .of_inactive rfl
  | timedOut => exact .of_inactive rfl
  | lost => exact .of_inactive rfl
  | completed => exact .of_inactive rfl

theorem followMainFrame_eq_none {main : Option FrameId} {newId : FrameId}
    {navigation : Option (NavigationWatcher × Instant)} :
    followMainFrame main newId navigation = none ↔ navigation = none := by
  unfold followMainFrame
  split
  · rfl
  · exact Option.map_eq_none_iff

theorem Accounted.onMainNavigated {fm : FrameManager} {n : Nat} (h : Accounted fm n)
    (frame : CdpFrame) (worldName : String)
    (hbound : fm.navigation ≠ none → fm.maxMainFrameNavigations = some 4294967295 →
      n + 1 ≤ 4294967295) :
    Accounted (fm.onMainNavigated frame worldName) (n + 1) := by
  rw [onMainNavigated_eq]
  have hactive : followMainFrame fm.mainFrame frame.id fm.navigation ≠ none →
      fm.navigation ≠ none := mt followMainFrame_eq_none.2
  refine ⟨fun hnavigation => ?_, fun hnavigation => hbound (hactive hnavigation)⟩
  have hcount := h.count (hactive hnavigation)
  change (saturatingAdd fm.mainFrameNavCount 1).toNat = _
  rw [toNat_saturatingAdd_one, hcount]
  omega

theorem Accounted.foldl_onFrameNode (worldName : FrameId → String) (nodes : List CdpFrame)
    {fm : FrameManager} {n : Nat} (h : Accounted fm n)
    (hbound : fm.navigation ≠ none → fm.maxMainFrameNavigations = some 4294967295 →
      n + (nodes.countP fun frame => !frame.parentId.isSome) ≤ 4294967295) :
    Accounted (nodes.foldl (onFrameNode worldName) fm)
      (n + nodes.countP fun frame => !frame.parentId.isSome) := by
  induction nodes generalizing fm n with
  | nil => exact h
  | cons frame rest ih =>
    rw [List.countP_cons] at hbound ⊢
    cases hparent : frame.parentId.isSome with
    | true =>
      have hsame := sameNavigations_onFrameNode worldName fm hparent
      simp only [hparent, Bool.not_true, Bool.false_eq_true, if_false, Nat.add_zero] at hbound ⊢
      refine ih (h.of_same hsame) ?_
      rw [hsame.navigation, hsame.maxMainFrameNavigations]
      exact hbound
    | false =>
      simp only [hparent, Bool.not_false, if_true, ← Nat.add_assoc] at hbound ⊢
      rw [Nat.add_right_comm] at hbound ⊢
      rw [List.foldl_cons, onFrameNode_of_main worldName fm hparent]
      refine ih (h.onMainNavigated frame (worldName frame.id) fun hactive hcap => ?_) ?_
      · exact (Nat.le_add_right _ _).trans (hbound hactive hcap)
      · rw [onMainNavigated_eq]
        exact fun hactive => hbound (mt followMainFrame_eq_none.2 hactive)

theorem Accounted.apply {fm : FrameManager} {n : Nat} (h : Accounted fm n) (input : FrameInput)
    (hguard : CountsAlone fm input) :
    Accounted (FrameInput.apply fm input)
      (if input.issues fm then 0 else n + input.mainNavigations) := by
  cases hquiet : input.quiet with
  | true =>
    rw [FrameInput.issues_of_quiet hquiet, mainNavigations_of_quiet hquiet]
    exact h.of_same (FrameInput.apply_of_quiet hquiet fm)
  | false =>
    have hbound : fm.navigation = none ∨ fm.maxMainFrameNavigations ≠ some 4294967295 ∨
        fm.mainFrameNavCount.toNat + input.mainNavigations ≤ 4294967295 →
        fm.navigation ≠ none → fm.maxMainFrameNavigations = some 4294967295 →
        n + input.mainNavigations ≤ 4294967295 := by
      intro hguard hactive hcap
      have hcount := h.count hactive
      have hn := h.bound hactive hcap
      rcases hguard with hnone | hne | hle
      · exact absurd hnone hactive
      · exact absurd hcap hne
      · omega
    cases input with
    | goto req => exact h.goto req hguard
    | poll now clock => exact h.poll now clock hguard
    | navigatedWithinDocument event =>
      refine ⟨fun hactive => h.count fun hnone => hactive ?_,
        fun hactive => h.bound fun hnone => hactive ?_⟩
      · exact Option.map_eq_none_iff.2 hnone
      · exact Option.map_eq_none_iff.2 hnone
    | frameTree tree worldName =>
      change Accounted (onFrameTree worldName tree fm) _
      rw [onFrameTree_eq]
      exact h.foldl_onFrameNode worldName tree.nodes (hbound hguard)
    | frameNavigated frame worldName =>
      have hparent : frame.parentId.isSome = false := hquiet
      have hone : (FrameInput.frameNavigated frame worldName).mainNavigations = 1 :=
        if_neg (by rw [hparent]; exact Bool.false_ne_true)
      have hbound := hbound hguard
      rw [hone] at hbound ⊢
      change Accounted (fm.onFrameNavigated frame worldName) (n + 1)
      rw [onFrameNavigated_of_main fm worldName hparent]
      exact h.onMainNavigated frame worldName hbound
    | _ => cases hquiet

/-! ### Runs -/

theorem apply_maxMainFrameNavigations (fm : FrameManager) (input : FrameInput) :
    (FrameInput.apply fm input).maxMainFrameNavigations = fm.maxMainFrameNavigations := by
  cases hquiet : input.quiet with
  | true => exact (FrameInput.apply_of_quiet hquiet fm).maxMainFrameNavigations
  | false =>
    cases input with
    | goto req =>
      change (fm.goto req).maxMainFrameNavigations = _
      unfold goto
      split
      · rfl
      · rfl
    | poll now clock =>
      have hstep := poll_step fm now clock
      change (fm.poll now clock).1.maxMainFrameNavigations = _
      generalize (fm.poll now clock).1 = fm' at hstep ⊢
      generalize (fm.poll now clock).2 = event at hstep
      cases hstep
      all_goals rfl
    | navigatedWithinDocument event => rfl
    | frameTree tree worldName =>
      change (onFrameTree worldName tree fm).maxMainFrameNavigations = _
      rw [onFrameTree_eq]
      refine Run.foldl_unchanged (fun fm frame => ?_) fm tree.nodes
      cases hparent : frame.parentId.isSome with
      | true => exact (sameNavigations_onFrameNode worldName fm hparent).maxMainFrameNavigations
      | false => rw [onFrameNode_of_main worldName fm hparent, onMainNavigated_eq]
    | frameNavigated frame worldName =>
      change (fm.onFrameNavigated frame worldName).maxMainFrameNavigations = _
      rw [onFrameNavigated_of_main fm worldName hquiet, onMainNavigated_eq]
    | _ => cases hquiet

theorem accounted_of_allowed (requestTimeout : Duration) (cap : Option UInt32)
    {inputs : List FrameInput}
    (hallowed : Run.Allowed FrameInput.apply CountsAlone (started requestTimeout cap) inputs) :
    Accounted (Run.final FrameInput.apply (started requestTimeout cap) inputs)
      (navigationsSinceIssue (started requestTimeout cap) 0 inputs) := by
  refine Run.history (fun inputs fm =>
    Accounted fm (navigationsSinceIssue (started requestTimeout cap) 0 inputs)) ?_ ?_ hallowed
  · exact .of_inactive rfl
  · intro before input h hguard
    rw [navigationsSinceIssue_append]
    exact h.apply input hguard

theorem maxMainFrameNavigations_final (requestTimeout : Duration) (cap : Option UInt32)
    (inputs : List FrameInput) :
    (Run.final FrameInput.apply (started requestTimeout cap) inputs).maxMainFrameNavigations = cap :=
  Run.invariant_of_step (fun fm => fm.maxMainFrameNavigations = cap)
    (fun fm input h => (apply_maxMainFrameNavigations fm input).trans h) rfl inputs

/-- The guard of `poll` compares the navigations of the active `goto` with the cap. -/
theorem Accounted.exceedsCap_iff {fm : FrameManager} {n : Nat} (h : Accounted fm n) {cap : UInt32}
    (hcap : fm.maxMainFrameNavigations = some cap) (hactive : fm.navigation ≠ none) :
    fm.exceedsCap = true ↔ cap.toNat < n := by
  have hcount := h.count hactive
  have hlt : cap.toNat < 4294967296 := cap.toNat_lt
  have hexceeds : fm.exceedsCap = decide (cap < fm.mainFrameNavCount) := by
    unfold exceedsCap
    rw [hcap]
  rw [hexceeds, decide_eq_true_iff, UInt32.lt_iff_toNat_lt, hcount]
  by_cases hlast : cap = 4294967295
  · have hn := h.bound hactive (hcap.trans (congrArg some hlast))
    have htoNat : cap.toNat = 4294967295 := congrArg UInt32.toNat hlast
    omega
  · have hne : cap.toNat ≠ 4294967295 := fun heq => hlast (UInt32.toNat_inj.1 heq)
    omega

theorem poll_tooManyNavigations_iff (fm : FrameManager) (now clock : Instant) (id : NavigationId) :
    (∃ count, (fm.poll now clock).2 =
      some (.navigationResult (.error (.tooManyNavigations id count)))) ↔
    (∃ watcher deadline, fm.navigation = some (watcher, deadline) ∧ watcher.id = id) ∧
      fm.exceedsCap = true := by
  constructor
  · rintro ⟨count, hevent⟩
    have hstep := poll_step fm now clock
    rw [hevent] at hstep
    generalize (fm.poll now clock).1 = fm' at hstep
    cases hstep with
    | capped watcher deadline hnavigation hcap => exact ⟨⟨watcher, deadline, hnavigation, rfl⟩, hcap⟩
  · rintro ⟨⟨watcher, deadline, hnavigation, rfl⟩, hcap⟩
    refine ⟨fm.mainFrameNavCount, ?_⟩
    unfold poll
    rw [hnavigation]
    simp only [hcap, if_true]

/-- On a run whose steps all leave the counter to the active navigation, a poll reports a navigation for making too many exactly when it is active and over the cap. -/
theorem too_many_navigations_iff (requestTimeout : Duration) (cap : UInt32)
    (inputs : List FrameInput)
    (hallowed : Run.Allowed FrameInput.apply CountsAlone (started requestTimeout (some cap)) inputs)
    (now clock : Instant) (id : NavigationId) :
    let fm := Run.final FrameInput.apply (started requestTimeout (some cap)) inputs
    (∃ count, (fm.poll now clock).2 =
      some (.navigationResult (.error (.tooManyNavigations id count)))) ↔
    (∃ watcher deadline, fm.navigation = some (watcher, deadline) ∧ watcher.id = id) ∧
      cap.toNat < navigationsSinceIssue (started requestTimeout (some cap)) 0 inputs := by
  intro fm
  rw [poll_tooManyNavigations_iff]
  refine and_congr_right fun hactive => ?_
  obtain ⟨watcher, deadline, hnavigation, -⟩ := hactive
  refine (accounted_of_allowed requestTimeout (some cap) hallowed).exceedsCap_iff ?_ ?_
  · exact maxMainFrameNavigations_final requestTimeout (some cap) inputs
  · change fm.navigation ≠ none
    rw [hnavigation]
    exact Option.some_ne_none _

/-- Two navigations of the main frame during a `goto` are over a cap of one. -/
theorem too_many_navigations_example :
    let main : FrameInput := .frameNavigated ⟨⟨"A"⟩, none, none, "about:blank", none⟩ ""
    let goto : FrameInput := .goto ⟨⟨1⟩, ⟨"Page.navigate", none, .object []⟩, 30⟩
    let fm := Run.final FrameInput.apply (started 30 (some 1)) [main, goto, .poll 0 0, main, main]
    ∃ count, (fm.poll 0 0).2 =
      some (.navigationResult (.error (.tooManyNavigations ⟨1⟩ count))) := by
  intro main goto fm
  refine (too_many_navigations_iff 30 1 [main, goto, .poll 0 0, main, main] ?_ 0 0 ⟨1⟩).2
    ⟨⟨_, _, rfl, rfl⟩, by decide⟩
  exact ⟨Or.inl rfl, Or.inr (Or.inl rfl), fun _ _ => rfl, Or.inr (Or.inl (by decide)),
    Or.inr (Or.inl (by decide)), trivial⟩

/-- A second `goto` that is queued behind the first sets the count of the first back to zero, and what the main frame did before a request was handed out is held against that request. -/
theorem count_lost_and_inherited :
    let main : FrameInput := .frameNavigated ⟨⟨"A"⟩, none, none, "about:blank", none⟩ ""
    let goto (id : Nat) : FrameInput := .goto ⟨⟨id⟩, ⟨"Page.navigate", none, .object []⟩, 30⟩
    let lost := [main, goto 1, .poll 0 0, main, main, goto 2]
    let inherited := [main, goto 1, main, main, .poll 0 0]
    let fm := Run.final FrameInput.apply (started 30 (some 1))
    (navigationsSinceIssue (started 30 (some 1)) 0 lost = 2 ∧ ((fm lost).poll 0 0).2 = none) ∧
    navigationsSinceIssue (started 30 (some 1)) 0 inherited = 0 ∧
      ((fm inherited).poll 0 0).2 =
        some (.navigationResult (.error (.tooManyNavigations ⟨1⟩ 2))) := by
  exact ⟨⟨rfl, rfl⟩, rfl, rfl⟩

end FrameManager

end SpiderChrome
