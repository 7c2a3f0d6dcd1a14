import SpiderChrome.Parallel.Routing

/-!
# The slots of the tabs

The router numbers its tasks with 16 bits, and the number of a task that is gone does not come back. A slot that is given out is never 0 and never that of a live session, but there is none left for the 65535th tab that is opened, however few are open.
-/

namespace SpiderChrome

namespace Router

variable {r r' : Router}

/-- The method `alloc_slot`, which panics when the numbers are used up. -/
def allocSlot (r : Router) : Option (UInt16 × Router) :=
  if r.nextSlot = 65535 then none
  else some (r.nextSlot, { r with nextSlot := r.nextSlot + 1 })

/-- The target that an input announces. -/
def announces : RouterInput → Option TargetInfo
  | .event ⟨.targetTargetCreated info, none⟩ => some info
  | _ => none

/-- An input opens a tab if it announces a target that the router has no task for. -/
def opens (r : Router) (input : RouterInput) : Bool :=
  (announces input).any fun info => (r.targetIdToSlot.get info.targetId).isNone

/-- The tabs that were opened so far. -/
def opened (r : Router) : Nat := r.spawned.length

/-- The sessions that are live. -/
def live (r : Router) : Nat := r.sessions.size

/-- A tab that is opened gets a slot of its own, which is neither the router's nor that of a live session. -/
def GetsSlot (r : Router) (input : RouterInput) : Prop :=
  r.opens input = true → ∃ slot rest, r.allocSlot = some (slot, rest) ∧ slot ≠ 0 ∧ r.sessions.get slot = none

/-- A tab is opened when fewer than 65534 were opened before. -/
def HasRoom (r : Router) (input : RouterInput) : Prop := r.opens input = true → r.opened < 65534

/-! ### What opens no tab -/

theorem opened_toSlot (r : Router) (slot : Option UInt16) (msg : RouterToSession) :
    (r.toSlot slot msg).opened = r.opened := by
  unfold toSlot
  split
  · split
    · rfl
    · rfl
  · rfl

theorem opened_handleRouterResponse (r : Router) (decoders : Decoders) (now : Instant) (callId : CallId)
    (resp : Response) : (r.handleRouterResponse decoders now callId resp).opened = r.opened := by
  simp only [handleRouterResponse]
  split
  · split
    · rfl
    · rfl
    · split
      · split
        · split
          · rfl
          · rfl
        · rfl
      · rfl
  · rfl

theorem opened_onResponse (r : Router) (decoders : Decoders) (now : Instant) (resp : Response) :
    (r.onResponse decoders now resp).opened = r.opened := by
  simp only [onResponse]
  split
  · split
    · rfl
    · rfl
  · exact opened_handleRouterResponse _ decoders now resp.id resp

theorem opened_submit (r : Router) (accepted : Bool) (req : Request) (tx : Sender) (refusal : Reply)
    (pending : RouterPending) (now : Instant) :
    (r.submit accepted req tx refusal pending now).opened = r.opened := by
  simp only [submit]
  split
  · rfl
  · rfl

theorem opened_onBrowserMessage (r : Router) (accepted : Bool) (msg : HandlerMessage) (now : Instant) :
    (r.onBrowserMessage accepted msg now).opened = r.opened := by
  cases msg with
  | createPage params tx =>
    simp only [onBrowserMessage, createPage]
    split
    · exact r.opened_submit _ _ _ _ _ _
    · rfl
  | command cmd => exact r.opened_submit _ _ _ _ _ _
  | _ => rfl

theorem opened_timeOut (r : Router) (callId : CallId) : (r.timeOut callId).opened = r.opened := by
  simp only [timeOut]
  split
  · split
    · rfl
    · rfl
    · rfl
  · rfl

theorem opened_timeOutInitiator (r : Router) (targetId : TargetId) :
    (r.timeOutInitiator targetId).opened = r.opened := by
  simp only [timeOutInitiator]
  split
  · rfl
  · rfl

theorem opened_evictRouterPending (r : Router) (now : Instant) (requestTimeout : Duration) :
    (r.evictRouterPending now requestTimeout).opened = r.opened := by
  simp only [evictRouterPending]
  split
  · rfl
  · exact (Run.foldl_unchanged opened_timeOutInitiator _ _).trans (Run.foldl_unchanged opened_timeOut r _)

theorem opened_onLifecycle (r : Router) (msg : SessionToRouter) : (r.onLifecycle msg).opened = r.opened := by
  cases msg with
  | sessionAttached slot sessionId => rfl
  | detached slot =>
    show (r.removeSession slot).opened = r.opened
    unfold removeSession
    split
    · rfl
    · rfl

/-- Two routers that have opened the same number of tabs, and number the next one alike. -/
structure SameTabs (r r' : Router) : Prop where
  nextSlot : r'.nextSlot = r.nextSlot
  opened : r'.opened = r.opened
  panicked : r'.panicked = r.panicked

theorem SameSlots.sameTabs (h : SameSlots r r') (hopened : r'.opened = r.opened) : SameTabs r r' :=
  ⟨h.nextSlot, hopened, h.panicked⟩

theorem sameTabs_onEvent {event : CdpEventMessage} (hquiet : r.opens (.event event) = false) :
    SameTabs r (r.onEvent event) := by
  have htold : ∀ slot msg, SameTabs r (r.toSlot slot msg) := fun slot msg =>
    (r.sameSlots_toSlot slot msg).sameTabs (r.opened_toSlot slot msg)
  obtain ⟨params, sessionId⟩ := event
  unfold onEvent
  dsimp only
  split
  · exact htold _ _
  · split
    · rename_i info
      cases hslot : r.targetIdToSlot.get info.targetId with
      | some slot =>
        rw [onTargetCreated_of_known hslot]
        exact ⟨rfl, rfl, rfl⟩
      | none => simp [opens, announces, hslot] at hquiet
    · rename_i ev
      refine (r.sameSlots_onAttachedToTarget ev).sameTabs ?_
      unfold onAttachedToTarget
      split
      · rfl
      · rfl
    · exact htold _ _
    · exact htold _ _
    · exact htold _ _
    · exact ⟨rfl, rfl, rfl⟩

theorem sameTabs_step {input : RouterInput} (hquiet : r.opens input = false) : SameTabs r (r.step input) := by
  unfold step
  split
  · exact ⟨rfl, rfl, rfl⟩
  · cases input with
    | response decoders now resp =>
      exact (r.sameSlots_onResponse decoders now resp).sameTabs (r.opened_onResponse decoders now resp)
    | event event => exact sameTabs_onEvent hquiet
    | lifecycle msg =>
      cases msg with
      | sessionAttached slot sessionId =>
        exact (r.sameSlots_sessionAttached slot sessionId).sameTabs (r.opened_onLifecycle _)
      | detached slot =>
        obtain ⟨hnext, hpanicked⟩ := r.removeSession_nextSlot slot
        exact ⟨hnext, r.opened_onLifecycle (.detached slot), hpanicked⟩
    | browserMessage accepted msg now =>
      exact (r.sameSlots_onBrowserMessage accepted msg now).sameTabs (r.opened_onBrowserMessage accepted msg now)
    | evict now =>
      exact (r.sameSlots_evictRouterPending now _).sameTabs (r.opened_evictRouterPending now _)

/-! ### What opens a tab -/

/-- The task of a new tab gets the slot that is allocated. -/
theorem step_of_opens (hrunning : r.panicked = false) {input : RouterInput} (hopens : r.opens input = true) :
    match r.allocSlot with
    | some (slot, rest) => ∃ info context, (r.step input).spawned = r.spawned ++ [(slot, info, context)] ∧
        (r.step input).nextSlot = rest.nextSlot ∧ (r.step input).panicked = false
    | none => r.step input = { r with panicked := true } := by
  unfold opens at hopens
  cases hannounces : announces input with
  | none =>
    rw [hannounces] at hopens
    cases hopens
  | some info =>
    have hinput : input = .event ⟨.targetTargetCreated info, none⟩ := by
      unfold announces at hannounces
      split at hannounces
      · rw [Option.some.inj hannounces]
      · cases hannounces
    have hunknown : r.targetIdToSlot.get info.targetId = none := by
      rw [hannounces] at hopens
      exact Option.isNone_iff_eq_none.1 hopens
    have hstep : r.step input = r.onTargetCreated info := by
      rw [hinput, step, hrunning]
      rfl
    rw [hstep]
    by_cases hslot : r.nextSlot = 65535
    · rw [allocSlot, if_pos hslot]
      exact onTargetCreated_of_full hunknown hslot
    · rw [allocSlot, if_neg hslot]
      obtain ⟨context, toSessions, heq, _⟩ := onTargetCreated_of_unknown hunknown hslot
      exact ⟨info, context, by rw [heq], by rw [heq], by rw [heq]; exact hrunning⟩

/-- Each number but 0 was given out once, in order. -/
def Numbered (r : Router) : Prop := r.panicked = false → r.nextSlot.toNat = r.opened + 1

theorem Numbered.step (h : Numbered r) (input : RouterInput) : Numbered (r.step input) := by
  intro hrunning'
  cases hopens : r.opens input with
  | false =>
    have hsame := sameTabs_step hopens
    rw [hsame.nextSlot, hsame.opened]
    exact h (hsame.panicked ▸ hrunning')
  | true =>
    cases hrunning : r.panicked with
    | true =>
      have hstays : r.step input = r := if_pos hrunning
      rw [hstays, hrunning] at hrunning'
      cases hrunning'
    | false =>
      have hstep := step_of_opens hrunning hopens
      have hnumbered := h hrunning
      unfold allocSlot at hstep
      split at hstep
      · rename_i slot rest halloc
        obtain ⟨info, context, hspawned, hnext, _⟩ := hstep
        split at halloc
        · cases halloc
        · rename_i hslot
          obtain ⟨rfl, rfl⟩ := Prod.mk.inj (Option.some.inj halloc)
          have hmax : r.nextSlot.toNat ≠ 65535 := fun heq => hslot (UInt16.toNat_inj.1 heq)
          have hlt := r.nextSlot.toNat_lt
          rw [hnext, opened, hspawned, List.length_append]
          simp only [UInt16.toNat_add, UInt16.toNat_one, List.length_singleton]
          unfold opened at hnumbered
          omega
      · rw [hstep] at hrunning'
        cases hrunning'

/-! ### Runs -/

/-- Every tab that is opened gets a slot of its own, and the router does not panic, just when no tab is opened after 65534 others, whatever the router reads and in whatever order. How many of the tabs are still open plays no part. -/
theorem getsSlot_iff_hasRoom (config : HandlerConfig) (context : BrowserContext) (bootCallId : CallId)
    (bootMethod : MethodId) (nextCallId : Nat) (now : Instant) (inputs : List RouterInput) :
    (Run.Allowed step GetsSlot (new config context bootCallId bootMethod nextCallId now) inputs ∧
      Run.Always step (fun r => r.panicked = false) (new config context bootCallId bootMethod nextCallId now) inputs) ↔
      Run.Allowed step HasRoom (new config context bootCallId bootMethod nextCallId now) inputs := by
  have hstart : (new config context bootCallId bootMethod nextCallId now).panicked = false := rfl
  refine @Run.allowed_and_always_iff_allowed _ _ step HasRoom (fun r => r.panicked = false) GetsSlot
    (fun r => Routed r ∧ Numbered r) (fun r input h => ⟨h.1.step input, h.2.step input⟩)
    (fun r input h hrunning => ?_) _
    ⟨routed_new config context bootCallId bootMethod nextCallId now, fun _ => rfl⟩ hstart inputs
  obtain ⟨hrouted, hnumbered⟩ := h
  have hnumbered := hnumbered hrunning
  have hlt := r.nextSlot.toNat_lt
  have hmax : r.nextSlot = 65535 ↔ r.nextSlot.toNat = 65535 := UInt16.toNat_inj.symm
  constructor
  · rintro ⟨hslot, _⟩ hopens
    obtain ⟨slot, rest, halloc, _, _⟩ := hslot hopens
    have hleft : r.nextSlot ≠ 65535 := fun hfull => by simp [allocSlot, hfull] at halloc
    rw [Ne, hmax] at hleft
    omega
  · intro hroom
    cases hopens : r.opens input with
    | false => exact ⟨fun h => absurd (hopens.symm.trans h) nofun, (sameTabs_step hopens).panicked.trans hrunning⟩
    | true =>
      have hroom := hroom hopens
      have hleft : r.nextSlot ≠ 65535 := by
        rw [Ne, hmax]
        omega
      have halloc : r.allocSlot = some (r.nextSlot, { r with nextSlot := r.nextSlot + 1 }) := if_neg hleft
      have hstep := step_of_opens hrunning hopens
      rw [halloc] at hstep
      obtain ⟨_, _, _, _, hgoes⟩ := hstep
      refine ⟨fun _ => ⟨_, _, halloc, fun hzero => ?_, ?_⟩, hgoes⟩
      · rw [hzero] at hnumbered
        exact absurd hnumbered (Nat.succ_ne_zero _).symm
      · cases hentry : r.sessions.get r.nextSlot with
        | none => rfl
        | some entry =>
          have howner : r.owner r.nextSlot = some entry.targetId := by rw [owner, hentry]; rfl
          exact absurd (hrouted.givenOut _ _ howner) (UInt16.lt_irrefl _)

/-! ### A long crawl -/

/-- A tab is opened and closed, and its task goes. -/
def visit (n : Nat) : List RouterInput :=
  [.event ⟨.targetTargetCreated ⟨⟨toString n⟩, "page", none, none⟩, none⟩,
    .event ⟨.targetTargetDestroyed ⟨toString n⟩, none⟩, .lifecycle (.detached (.ofNat (n + 1)))]

/-- So many tabs, one after another. -/
def crawl : Nat → List RouterInput
  | 0 => []
  | n + 1 => crawl n ++ visit n

theorem crawl_succ (n : Nat) : crawl (n + 1) = crawl n ++ visit n := rfl

/-- No tab is open, and so many were. -/
structure Idle (n : Nat) (r : Router) : Prop where
  routed : Routed r
  running : r.panicked = false
  nextSlot : r.nextSlot = .ofNat (n + 1)
  owner : ∀ slot, r.owner slot = none

theorem get_sessions_of_owner {slot : UInt16} (h : r.owner slot = none) : r.sessions.get slot = none := by
  rw [owner] at h
  exact Option.map_eq_none_iff.1 h

theorem live_of_owner {slot : UInt16} (h : ∀ x, x ≠ slot → r.owner x = none) : r.live < 65535 := by
  have hone := Table.size_le_one_of_get fun x hx => get_sessions_of_owner (h x hx)
  show r.sessions.size < 65535
  omega

theorem Idle.unknown {n : Nat} (h : Idle n r) (targetId : TargetId) : r.targetIdToSlot.get targetId = none := by
  cases hslot : r.targetIdToSlot.get targetId with
  | none => rfl
  | some slot =>
    have howner := (h.routed.slot_iff targetId slot).1 hslot
    rw [h.owner] at howner
    cases howner

theorem Idle.step_created {n : Nat} (h : Idle n r) (info : TargetInfo) :
    r.step (.event ⟨.targetTargetCreated info, none⟩) = r.onTargetCreated info := by
  rw [step, h.running]
  rfl

/-- While there is a number left, a visit ends as it began. -/
theorem Idle.visit {n : Nat} (h : Idle n r) (hn : n < 65534) :
    Idle (n + 1) (Run.final step r (visit n)) ∧ Run.Always step (fun r => r.live < 65535) r (visit n) := by
  have hnumber : r.nextSlot.toNat = n + 1 := by
    rw [h.nextSlot]
    exact UInt16.toNat_ofNat_of_lt' (show n + 1 < 65536 by omega)
  have hslot : r.nextSlot ≠ 65535 := fun heq => by
    rw [heq] at hnumber
    have hnumber : 65535 = n + 1 := hnumber
    omega
  have howner := @owner_onTargetCreated r ⟨⟨toString n⟩, "page", none, none⟩ (h.unknown _) hslot
  obtain ⟨context, toSessions, hcreated, _⟩ :=
    @onTargetCreated_of_unknown r ⟨⟨toString n⟩, "page", none, none⟩ (h.unknown _) hslot
  generalize hopened : r.onTargetCreated ⟨⟨toString n⟩, "page", none, none⟩ = opened at howner hcreated
  have hrouted : Routed opened := hopened ▸ h.routed.onTargetCreated _
  have hrunning : opened.panicked = false := by rw [hcreated]; exact h.running
  have hnext : opened.nextSlot = r.nextSlot + 1 := by rw [hcreated]
  have hothers : ∀ x, x ≠ r.nextSlot → opened.owner x = none := fun x hx => by
    rw [howner, if_neg hx]
    exact h.owner x
  -- The tab is closed, which the task is told, and the task goes.
  have hsame := opened.sameSlots_toSlot (opened.targetIdToSlot.get ⟨toString n⟩) .shutdown
  have hclosed : opened.step (.event ⟨.targetTargetDestroyed ⟨toString n⟩, none⟩) =
      opened.toSlot (opened.targetIdToSlot.get ⟨toString n⟩) .shutdown := by
    rw [step, hrunning]
    rfl
  generalize opened.toSlot (opened.targetIdToSlot.get ⟨toString n⟩) .shutdown = closed at hsame hclosed
  have hgone : closed.step (.lifecycle (.detached (.ofNat (n + 1)))) = closed.removeSession r.nextSlot := by
    rw [step, hsame.panicked, hrunning, ← h.nextSlot]
    rfl
  obtain ⟨hstays, hgoes⟩ := closed.removeSession_nextSlot r.nextSlot
  have hnobody : ∀ x, (closed.removeSession r.nextSlot).owner x = none := by
    intro x
    rw [removeSession_owner, hsame.owner]
    split
    · rfl
    · rename_i hx
      exact hothers x hx
  have hsteps : r.step (.event ⟨.targetTargetCreated ⟨⟨toString n⟩, "page", none, none⟩, none⟩) = opened :=
    (h.step_created _).trans hopened
  refine ⟨?_, ?_⟩
  · rw [Router.visit, Run.final_cons, Run.final_cons, Run.final_cons, Run.final_nil, hsteps, hclosed, hgone]
    refine ⟨(hrouted.of_same hsame).removeSession _, by rw [hgoes, hsame.panicked, hrunning], ?_, hnobody⟩
    rw [hstays, hsame.nextSlot, hnext, h.nextSlot]
    exact (UInt16.ofNat_add (n + 1) 1).symm
  · refine ⟨live_of_owner fun x (_ : x ≠ 0) => h.owner x, ?_⟩
    rw [hsteps]
    refine ⟨live_of_owner hothers, ?_⟩
    rw [hclosed]
    refine ⟨live_of_owner fun x hx => (hsame.owner x).trans (hothers x hx), ?_⟩
    rw [hgone]
    exact live_of_owner fun x (_ : x ≠ 0) => hnobody x

theorem Idle.crawl {start : Router} (hstart : Idle 0 start) {n : Nat} (hn : n ≤ 65534) :
    Idle n (Run.final step start (crawl n)) ∧ Run.Always step (fun r => r.live < 65535) start (crawl n) := by
  induction n with
  | zero => exact ⟨hstart, live_of_owner fun x (_ : x ≠ 0) => hstart.owner x⟩
  | succ n ih =>
    obtain ⟨hidle, hlive⟩ := ih (by omega)
    obtain ⟨hnext, hvisit⟩ := hidle.visit (by omega)
    rw [crawl_succ, Run.final_append]
    exact ⟨hnext, Run.always_append.2 ⟨hlive, hvisit⟩⟩

/-- When the numbers are used up, a visit finds no slot. -/
theorem Idle.exhausted {n : Nat} (h : Idle n r) (hfull : r.nextSlot = 65535) :
    Run.Always step (fun r => r.live < 65535) r (Router.visit n) ∧
      ¬ Run.Always step (fun r => r.panicked = false) r (Router.visit n) := by
  have hpanics := (h.step_created ⟨⟨toString n⟩, "page", none, none⟩).trans
    (onTargetCreated_of_full (h.unknown _) hfull)
  have hlive : r.live < 65535 := live_of_owner fun x (_ : x ≠ 0) => h.owner x
  constructor
  · refine ⟨hlive, ?_⟩
    rw [hpanics]
    exact ⟨hlive, hlive, hlive⟩
  · rintro ⟨_, hruns⟩
    have hruns := hruns.first
    rw [hpanics] at hruns
    cases hruns

theorem crawl_exhausts_of_idle {start : Router} (hstart : Idle 0 start) {n : Nat} (hn : n = 65535) :
    Run.Always step (fun r => r.live < 65535) start (crawl n) ∧
      ¬ Run.Always step (fun r => r.panicked = false) start (crawl n) := by
  obtain ⟨last, hlast⟩ : ∃ last, n = last + 1 := ⟨65534, hn⟩
  obtain ⟨hidle, hlive⟩ := @Idle.crawl start hstart last (by omega)
  have hfull : (Run.final step start (crawl last)).nextSlot = 65535 := by
    rw [hidle.nextSlot, ← hlast, hn]
    rfl
  obtain ⟨hlast', hpanics⟩ := hidle.exhausted hfull
  rw [hlast, crawl_succ]
  exact ⟨Run.always_append.2 ⟨hlive, hlast'⟩, fun hruns => hpanics (Run.always_append.1 hruns).2⟩

/-- One tab is open at a time, and the 65535th finds no slot. -/
theorem crawl_exhausts :
    Run.Always step (fun r => r.live < 65535)
        (new Handler.plainConfig ⟨none⟩ ⟨1⟩ "Target.setDiscoverTargets" 2 0) (crawl 65535) ∧
      ¬ (Run.Allowed step GetsSlot (new Handler.plainConfig ⟨none⟩ ⟨1⟩ "Target.setDiscoverTargets" 2 0)
          (crawl 65535) ∧
        Run.Always step (fun r => r.panicked = false)
          (new Handler.plainConfig ⟨none⟩ ⟨1⟩ "Target.setDiscoverTargets" 2 0) (crawl 65535)) := by
  have hstart : Idle 0 (new Handler.plainConfig ⟨none⟩ ⟨1⟩ "Target.setDiscoverTargets" 2 0) :=
    ⟨routed_new _ _ _ _ _ _, rfl, rfl, fun _ => rfl⟩
  have hcrawl := crawl_exhausts_of_idle hstart (rfl : 65535 = 65535)
  exact And.imp_right (mt And.right) hcrawl

end Router

end SpiderChrome
