import SpiderChrome.Handler.Registry
import SpiderChrome.Target.Keeps

/-!
# The byte budget of a handler

A handler is meant to count the bytes that all its targets report, and to block every target when they reach the budget. It counts down from a number that is never set: `remaining_bytes` starts without one and nothing gives it one, so the budget is never exhausted and the sweep over the targets never blocks any. What is left is the budget of each target for itself. `handler_budget` says when that is enough.
-/

namespace SpiderChrome

open Network

/-! ### What a page asks for -/

/-- What a message of the page makes of the block of its target. -/
def TargetMessage.asked : TargetMessage → Option Bool
  | blockNetwork blocked => some blocked
  | command cmd =>
    if cmd.method = "Network.setBlockedURLs" then
      ((cmd.params.field? "urls").bind Value.asArray).bind fun urls =>
        if "!*" ∈ urls.filterMap Value.asStr then some false
        else if (urls.filterMap Value.asStr).any fun s => s.toList.contains '*' then some true
        else none
    else none
  | _ => none

/-- The block of a target after some messages. -/
def blockAfter (blocked : Bool) (msgs : List TargetMessage) : Bool :=
  msgs.foldl (fun blocked msg => msg.asked.getD blocked) blocked

namespace Target

/-- The target blocks the whole network. -/
def Blocks (t : Target) : Prop := t.networkManager.blockAll = true

variable {t : Target}

theorem blockAll_handlePageMessage (t : Target) (msg : TargetMessage) :
    (t.handlePageMessage msg).networkManager.blockAll =
      msg.asked.getD t.networkManager.blockAll := by
  cases msg with
  | command cmd =>
    simp only [handlePageMessage, pushEvent, TargetMessage.asked]
    split
    · unfold setBlockedUrls
      cases (cmd.params.field? "urls").bind Value.asArray with
      | none => rfl
      | some urls =>
        simp only [Option.bind_some]
        split
        · rfl
        · split
          · rfl
          · rfl
    · rfl
  | waitForNavigation tx | waitForDomContentLoaded tx | waitForLoad tx | waitForNetworkIdle tx
  | waitForNetworkAlmostIdle tx =>
    simp only [handlePageMessage]
    split
    · rfl
    · rfl
  | addEventListener method =>
    simp only [handlePageMessage]
    split
    · rfl
    · rfl
  | authenticate credentials =>
    simp only [handlePageMessage, NetworkManager.authenticate,
      NetworkManager.updateProtocolRequestInterception]
    split
    · rfl
    · split
      · rfl
      · rfl
  | _ => rfl

theorem blockAll_foldl_handlePageMessage (t : Target) (msgs : List TargetMessage) :
    (msgs.foldl handlePageMessage t).networkManager.blockAll =
      blockAfter t.networkManager.blockAll msgs := by
  induction msgs generalizing t with
  | nil => rfl
  | cons msg rest ih =>
    rw [List.foldl_cons, ih, blockAll_handlePageMessage]
    rfl

/-- A target that is closing takes no message, and every other takes them all. -/
theorem foldl_onPageMessage (t : Target) (msgs : List TargetMessage) :
    msgs.foldl onPageMessage t = t ∨ msgs.foldl onPageMessage t = msgs.foldl handlePageMessage t := by
  by_cases hclosing : t.initState = .closing
  · refine .inl ?_
    induction msgs with
    | nil => rfl
    | cons msg rest ih =>
      have hmsg : t.onPageMessage msg = t := by rw [onPageMessage, hclosing]
      rw [List.foldl_cons, hmsg, ih]
  · refine .inr ?_
    induction msgs generalizing t with
    | nil => rfl
    | cons msg rest ih =>
      have hmsg : t.onPageMessage msg = t.handlePageMessage msg := by
        unfold onPageMessage
        split
        · rename_i hstate
          exact absurd hstate hclosing
        · rfl
      rw [List.foldl_cons, List.foldl_cons, hmsg,
        ih _ (by rw [initState_handlePageMessage]; exact hclosing)]

theorem blocks_drainPage (h : t.Blocks)
    (hmsgs : blockAfter true (t.waiting.take Handler.perTargetDrainBudget) = true) :
    (Handler.drainPage t).Blocks := by
  unfold Handler.drainPage
  cases hpage : t.page with
  | none => exact h
  | some handle =>
    have hwaiting : t.waiting = handle.rx := by rw [waiting, hpage]; rfl
    rw [hwaiting] at hmsgs
    dsimp only
    obtain hsame | htaken := foldl_onPageMessage
      { t with page := some { handle with rx := handle.rx.drop Handler.perTargetDrainBudget } }
      (handle.rx.take Handler.perTargetDrainBudget)
    · rw [hsame]
      exact h
    · rw [htaken, Blocks, blockAll_foldl_handlePageMessage]
      exact (congrArg (blockAfter · _) h).trans hmsgs

/-! ### What an input does to the block -/

theorem steady_blocks : Steady Blocks where
  of_same := fun h _ hblock _ => hblock.trans h
  createPage := fun {t} h => by
    unfold createPage
    split
    · exact h
    · exact h

/-- The target blocks, and what waits in the channel leaves it blocking. -/
def BlocksOn (t : Target) : Prop := t.Blocks ∧ blockAfter true t.waiting = true

theorem steady_blocksOn : Steady BlocksOn where
  of_same := fun h _ hblock hpage => by
    refine ⟨hblock.trans h.1, ?_⟩
    rw [waiting, hpage]
    exact h.2
  createPage := fun {t} h => by
    unfold createPage
    split
    · exact ⟨h.1, rfl⟩
    · exact h

theorem blocksOn_receivePageMessages (h : t.BlocksOn) : t.receivePageMessages.BlocksOn := by
  unfold receivePageMessages
  cases hpage : t.page with
  | none => exact h
  | some handle =>
    have hwaiting : t.waiting = handle.rx := by rw [waiting, hpage]; rfl
    refine ⟨?_, ?_⟩
    · rw [Blocks, blockAll_foldl_handlePageMessage]
      exact (congrArg (blockAfter · _) h.1).trans (hwaiting ▸ h.2)
    · rw [waiting, Run.foldl_unchanged page_handlePageMessage]
      rfl

theorem blocks_pollTarget (h : t.Blocks) (driver : Driver)
    (hmsgs : driver = .stream → blockAfter true t.waiting = true) (env : Env) (now : Instant) :
    (Handler.pollTarget driver t env now).target.Blocks := by
  cases driver with
  | stream => exact (steady_blocksOn.pollWith blocksOn_receivePageMessages ⟨h, hmsgs rfl⟩ _ env now).1
  | run => exact steady_blocks.pollWith (fun h => h) h _ env now

theorem blockAll_setPageUrl (nm : NetworkManager) (url : String) :
    (nm.setPageUrl url).blockAll = nm.blockAll := by
  unfold NetworkManager.setPageUrl NetworkManager.emitRequestPolicy
  split
  · rfl
  · rfl

theorem blocks_goto (h : t.Blocks) (req : FrameRequestedNavigation) : (t.goto req).Blocks := by
  unfold goto Blocks
  dsimp only
  split
  · split
    · exact (blockAll_setPageUrl _ _).trans h
    · exact h
  · exact h

/-- Nothing that the network tells a manager unblocks it. -/
theorem blockAll_step {nm : NetworkManager} (h : nm.blockAll = true) (blockers : Blockers)
    (input : NetworkInput) (hswitch : input ≠ .setBlockAll false) :
    (nm.step blockers input).blockAll = true := by
  cases input with
  | responseReceived event =>
    refine (nm.sameBudget_onResponseReceived event).blockAll.trans ?_
    rw [NetworkManager.settle_eq, h]
    rfl
  | setBlockAll blockAll =>
    cases blockAll with
    | true => rfl
    | false => exact absurd rfl hswitch
  | requestWillBeSent now event =>
    exact (nm.sameBudget_step blockers (.requestWillBeSent now event) nofun nofun).blockAll.trans h
  | requestServedFromCache requestId => exact h
  | loadingFinished requestId =>
    exact (nm.sameBudget_step blockers (.loadingFinished requestId) nofun nofun).blockAll.trans h
  | loadingFailed event =>
    exact (nm.sameBudget_step blockers (.loadingFailed event) nofun nofun).blockAll.trans h
  | requestPaused cache now systemNow event =>
    exact (nm.sameBudget_step blockers (.requestPaused cache now systemNow event) nofun
      nofun).blockAll.trans h
  | authRequired requestId =>
    exact (nm.sameBudget_step blockers (.authRequired requestId) nofun nofun).blockAll.trans h
  | evict now => exact h

theorem blocks_onEvent (h : t.Blocks) (env : Env) (event : CdpEventMessage) :
    (t.onEvent env event).Blocks := by
  obtain hsame | ⟨input, hswitch, hstep⟩ := t.networkManager_onEvent env event
  · rw [Blocks, hsame]
    exact h
  · rw [Blocks, hstep]
    exact blockAll_step h env.blockers input (hswitch false)

/-- What has to hold of the waiting messages for a target to keep blocking. -/
def KeepsBlocking (t : Target) : TargetInput → Prop
  | .drained => blockAfter true (t.waiting.take Handler.perTargetDrainBudget) = true
  | .polled .stream _ _ _ _ => blockAfter true t.waiting = true
  | _ => True

theorem blocks_take (h : t.Blocks) (input : TargetInput) (hkeeps : t.KeepsBlocking input) :
    (t.take input).Blocks := by
  cases input with
  | event env event => exact blocks_onEvent h env event
  | response env method resp =>
    have hstored : (maybeStoreAttachSessionId env.decoders t method resp).Blocks := by
      unfold maybeStoreAttachSessionId
      split
      · exact h
      · split
        · exact h
        · exact h
    simp only [take, onResponse]
    split
    · split
      · exact hstored
      · exact hstored
    · exact hstored
  | drained => exact blocks_drainPage h hkeeps
  | paged everyKind =>
    simp only [take]
    split
    · exact steady_blocks.createPage h
    · exact h
  | polled driver env now id timeout =>
    have hpolled := blocks_pollTarget h driver (fun hstream => by
      subst hstream
      exact hkeeps) env now
    simp only [take, navigated]
    split
    · split
      · exact blocks_goto hpolled _
      · exact hpolled
    · exact hpolled
  | blocked => rfl
  | _ => exact h

end Target

namespace Handler

/-! ### The bytes that are reported -/

/-- The bytes that the targets report with an input. -/
def reported (h : Handler) (driver : Driver) : HandlerInput → Nat
  | .turn _ targetId env now =>
    match (h.targets.get targetId).bind fun target => (pollTarget driver target env now).event with
    | some (.bytesConsumed bytes) => bytes.toNat
    | _ => 0
  | _ => 0

/-- A step of a handler, with the bytes reported since the start. -/
def budgetStep (driver : Driver) (state : Handler × Nat) (input : HandlerInput) : Handler × Nat :=
  (state.1.step driver input, state.2 + state.1.reported driver input)

/-- So many bytes use up what the configuration allows. -/
def Reached (config : HandlerConfig) (total : Nat) : Prop :=
  ∃ bytes, config.maxBytesAllowed = some bytes ∧ bytes.toNat ≤ total

/-- Every target that the handler has blocks the whole network. -/
def AllBlock (h : Handler) : Prop :=
  ∀ targetId target, h.targets.get targetId = some target → target.Blocks

/-- Once the budget is used up, every target blocks. -/
def BudgetKept (config : HandlerConfig) (state : Handler × Nat) : Prop :=
  Reached config state.2 → state.1.AllBlock

/-- From the report that uses up the budget on the handler would have to block its targets, and does not. The report has to find all of them blocking, each by its own budget or because its page asked for it; from there on no target may be announced, and no page may unblock its target. -/
def BlocksUnasked (config : HandlerConfig) (driver : Driver) (state : Handler × Nat)
    (input : HandlerInput) : Prop :=
  Reached config (budgetStep driver state input).2 →
    (¬ Reached config state.2 → state.1.AllBlock) ∧ state.1.announced input = [] ∧
    ∀ targetId target delivered, state.1.targets.get targetId = some target →
      state.1.delivered driver targetId input = some delivered → target.KeepsBlocking delivered

/-! ### Deciding -/

instance (t : Target) : Decidable t.Blocks := inferInstanceAs (Decidable (_ = _))

instance (t : Target) (input : TargetInput) : Decidable (t.KeepsBlocking input) :=
  match input with
  | .drained => inferInstanceAs (Decidable (_ = _))
  | .polled .stream _ _ _ _ => inferInstanceAs (Decidable (_ = _))
  | .polled .run _ _ _ _ => .isTrue trivial
  | .event .. | .response .. | .attached _ | .detached | .initiated _ | .message _ | .paged _ | .blocked
  | .evicted _ => .isTrue trivial

instance (config : HandlerConfig) (total : Nat) : Decidable (Reached config total) :=
  decidable_of_iff (∃ bytes ∈ config.maxBytesAllowed, bytes.toNat ≤ total) Iff.rfl

instance (h : Handler) : Decidable h.AllBlock :=
  decidable_of_iff (∀ entry ∈ h.targets.toList, entry.2.Blocks)
    (h.targets.forall_toList fun _ target => target.Blocks)

instance (config : HandlerConfig) (state : Handler × Nat) : Decidable (BudgetKept config state) :=
  inferInstanceAs (Decidable (_ → _))

instance (config : HandlerConfig) (driver : Driver) (state : Handler × Nat) (input : HandlerInput) :
    Decidable (BlocksUnasked config driver state input) :=
  have : Decidable (∀ targetId target delivered, state.1.targets.get targetId = some target →
      state.1.delivered driver targetId input = some delivered → target.KeepsBlocking delivered) :=
    decidable_of_iff (∀ entry ∈ state.1.targets.toList,
        ∀ delivered ∈ state.1.delivered driver entry.1 input, entry.2.KeepsBlocking delivered) <| by
      rw [state.1.targets.forall_toList fun targetId target =>
        ∀ delivered ∈ state.1.delivered driver targetId input, target.KeepsBlocking delivered]
      exact ⟨fun h targetId target delivered hget => h targetId target hget delivered,
        fun h targetId target hget delivered => h targetId target delivered hget⟩
  inferInstanceAs (Decidable (_ → _ ∧ _ ∧ _))

/-! ### A run -/

/-- Targets that block go on blocking where none is announced and no page unblocks its own. -/
theorem allBlock_step {h : Handler} {driver : Driver} {input : HandlerInput} (hall : h.AllBlock)
    (hannounced : h.announced input = [])
    (hkeeps : ∀ targetId target delivered, h.targets.get targetId = some target →
      h.delivered driver targetId input = some delivered → target.KeepsBlocking delivered) :
    (h.step driver input).AllBlock := by
  intro targetId target hget
  rw [get_step, placed_of_none (by simp only [hannounced, List.not_mem_nil, false_implies, implies_true])]
    at hget
  split at hget
  · cases hget
  · obtain ⟨before, hbefore, rfl⟩ := Option.map_eq_some_iff.1 hget
    cases hdelivered : h.delivered driver targetId input with
    | none => exact hall targetId before hbefore
    | some delivered =>
      exact Target.blocks_take (hall targetId before hbefore) delivered
        (hkeeps targetId before delivered hbefore hdelivered)

/-- The budget never has a number, so the handler never blocks its targets. -/
theorem blockExhausted_final (driver : Driver) (config : HandlerConfig) (inputs : List HandlerInput) :
    (Run.final (step driver) (new config) inputs).blockExhausted =
      Run.final (step driver) (new config) inputs := by
  have hstep : ∀ (h : Handler) input, (h.remainingBytes, h.budgetExhausted) = (none, false) →
      ((h.step driver input).remainingBytes, (h.step driver input).budgetExhausted) =
        (none, false) := by
    intro h input hh
    have hregistry := h.registry_step driver input (congrArg Prod.fst hh)
    exact (congrArg (fun registry => registry.2.2) hregistry).trans hh
  have hbudget := Run.invariant_of_step
    (fun h : Handler => (h.remainingBytes, h.budgetExhausted) = (none, false)) hstep
    (show ((new config).remainingBytes, (new config).budgetExhausted) = (none, false) from rfl) inputs
  rw [blockExhausted, (Prod.mk.inj hbudget).2]
  rfl

/-- The handler blocks no target of its own accord, in whatever state a run leaves it; and where every target blocks by itself when the budget is used up, stays so, and none is announced later, the budget is kept all the same. -/
theorem handler_budget (driver : Driver) (config : HandlerConfig) (inputs : List HandlerInput) :
    (Run.final (step driver) (new config) inputs).step driver .blockExhausted =
      Run.final (step driver) (new config) inputs ∧
    (Run.Allowed (budgetStep driver) (BlocksUnasked config driver) (new config, 0) inputs →
      Run.Always (budgetStep driver) (BudgetKept config) (new config, 0) inputs) := by
  refine ⟨blockExhausted_final driver config inputs, Run.always_of_allowed ?_ ?_⟩
  · intro state input hkept hguard hreached
    obtain ⟨hbefore, hannounced, hkeeps⟩ := hguard hreached
    refine allBlock_step ?_ hannounced hkeeps
    by_cases h : Reached config state.2
    · exact hkept h
    · exact hbefore h
  · intro _ targetId target hget
    rw [show (new config).targets = ∅ from rfl, Table.get_empty] at hget
    cases hget

/-- The handler and each of its targets may spend ten bytes. -/
def tenBytes : HandlerConfig := { plainConfig with maxBytesAllowed := some 10 }

/-- A page is opened and spends ten bytes, with some inputs in between. -/
def spendTen (between : List HandlerInput) : List HandlerInput :=
  openPage ++ between ++
    [.event plainEnv ⟨.targetAttachedToTarget
        ⟨⟨"session"⟩, ⟨plainTarget, "page", none, none⟩, false⟩, none⟩,
      .event plainEnv ⟨.networkResponseReceived
        ⟨⟨"1"⟩, ⟨"https://a.example/", 200, .object []⟩, 10⟩, some "session"⟩,
      .turn true plainTarget plainEnv 0, .blockExhausted]

/-- A page that is alone blocks by itself when it has spent its bytes. -/
theorem handler_budget_one_page :
    (Run.final (budgetStep .run) (new tenBytes, 0) (spendTen [])).1.AllBlock := by
  have hallowed : Run.Allowed (budgetStep .run) (BlocksUnasked tenBytes .run) (new tenBytes, 0)
      (spendTen []) := by decide +kernel
  exact ((handler_budget .run tenBytes (spendTen [])).2 hallowed).last (by decide +kernel)

/-- Another target does not block when the page has spent what the handler may spend. -/
theorem other_target_unblocked :
    ¬ BudgetKept tenBytes (Run.final (budgetStep .run) (new tenBytes, 0)
      (spendTen [.event plainEnv ⟨.targetTargetCreated ⟨⟨"other"⟩, "page", none, none⟩, none⟩])) := by
  decide +kernel

end Handler

end SpiderChrome
