import SpiderChrome.Handler.Targets
import SpiderChrome.Library.Ownership

/-!
# Who can still resolve a navigation

Somebody waits for every navigation that the handler keeps. What can still answer it is a call of `Page.navigate` that waits for its response, or a target that has not reported the end of the navigation. `Keeps` says of each input what it takes for no navigation to lose the last of these; an input that meets it is one after which every navigation has an owner.
-/

namespace SpiderChrome

/-- What can resolve a navigation. -/
inductive NavigationOwner where
  | call (id : CallId)
  | target (id : TargetId)

namespace Handler

open Ownership

/-- The navigation that a call in flight is for. -/
def awaited (h : Handler) (call : CallId) : Option NavigationId :=
  (h.pendingCommands.get call).bind fun entry => entry.1.navigationId?

/-- The navigations that a target has not reported the end of. -/
def navigationIds (h : Handler) (targetId : TargetId) : List NavigationId :=
  h.held TargetEvent.resultId? FrameManager.navigationIds targetId

def owns (h : Handler) : NavigationOwner → NavigationId → Prop
  | .call call, id => h.awaited call = some id
  | .target targetId, id => id ∈ h.navigationIds targetId

/-- Somebody waits for the navigation. -/
def InProgress (h : Handler) (id : NavigationId) : Prop := (h.navigations.get id).isSome = true

/-- Every navigation that somebody waits for has an owner. -/
def NoOrphan (h : Handler) : Prop := Owned h.owns h.InProgress

/-! ### What an input has to heed -/

/-- The next call id is not that of a call on which alone a navigation depends, unless the new call is for that navigation as well. -/
def SafeCall (h : Handler) (submittedFor : Option NavigationId) : Prop :=
  ∀ id, h.awaited ⟨h.nextCallId⟩ = some id → h.InProgress id →
    submittedFor = some id ∨ Elsewhere h.owns (· = .call ⟨h.nextCallId⟩) id

/-- The navigations that these targets have not reported the end of do not depend on them. -/
def SafeDrop (h : Handler) (targetIds : List TargetId) : Prop :=
  ∀ targetId ∈ targetIds, ∀ id ∈ h.navigationIds targetId, h.InProgress id →
    Elsewhere h.owns (fun owner => ∃ targetId ∈ targetIds, owner = .target targetId) id

/-- A response to a call of a navigation that has not ended is not the end of its last owner. -/
def SafeResponse (h : Handler) (call : CallId) : Prop :=
  ∀ id nav, h.awaited call = some id → h.navigations.get id = some nav → nav.navigated = false →
    Elsewhere h.owns (· = .call call) id

/-- Whether a message makes the handler submit a call. -/
def HandlerMessage.submits : HandlerMessage → Bool
  | .command _ | .fetchTargets _ | .closeBrowser _ => true
  | .createPage params _ => canCreatePage params.url
  | _ => false

/-- What the event that a target yields has to heed; `polled` is the target after it yielded it. -/
def KeepsEvent (driver : Driver) (accepted : Bool) (h : Handler) (targetId : TargetId)
    (polled : Target) : Option TargetEvent → Prop
  | some (.request _) => accepted = true → h.SafeCall none
  | some (.command msg) =>
    if msg.isNavigation then
      (driver = .run ∧ accepted = true → h.SafeCall (some ⟨h.nextNavigationId⟩)) ∧
        (polled.frameManager.mainFrame.isSome = true ∨ driver = .run ∧ accepted = true ∨
          ∃ owner, h.owns owner ⟨h.nextNavigationId⟩)
    else accepted = true → h.SafeCall none
  | some (.navigationRequest id _) => accepted = true → h.SafeCall (some id)
  | some (.navigationResult (.ok ok)) =>
    ∀ nav, h.navigations.get ok.navigationId = some nav → nav.response = none →
      ok.navigationId ∈ polled.navigationIds ∨
        Elsewhere h.owns (· = .target targetId) ok.navigationId
  | some (.navigationResult (.error _)) => True
  | some (.bytesConsumed _) => True
  | none => True

def Keeps (driver : Driver) (h : Handler) : HandlerInput → Prop
  | .browserMessage accepted msg _ =>
    HandlerMessage.submits msg = true → driver.accepts accepted = true → h.SafeCall none
  | .turn accepted targetId env now =>
    ∀ target, h.targets.get targetId = some target →
      h.KeepsEvent driver (driver.accepts accepted) targetId
        (pollTarget driver target env now).target (pollTarget driver target env now).event
  | .response env resp => h.SafeResponse resp.id ∧ h.SafeDrop (h.dropped (.response env resp))
  | .event env event => h.SafeDrop (h.dropped (.event env event))
  | _ => True

/-! ### Targets that are dropped -/

theorem awaited_of_eq {h h' : Handler} (heq : h'.pendingCommands = h.pendingCommands)
    (call : CallId) : h'.awaited call = h.awaited call := by
  rw [awaited, awaited, heq]

theorem inProgress_of_eq {h h' : Handler} (heq : h'.navigations = h.navigations) :
    h'.InProgress = h.InProgress := by
  funext id
  rw [InProgress, InProgress, heq]

/-- The second handler differs from the first, as far as owners go, in that these targets have nothing to report. -/
structure Dropped (h h' : Handler) (targetIds : List TargetId) : Prop where
  navigations : h'.navigations = h.navigations
  awaited : ∀ call, h'.awaited call = h.awaited call
  navigationIds : ∀ targetId,
    h'.navigationIds targetId = if targetId ∈ targetIds then [] else h.navigationIds targetId

theorem Dropped.noOrphan_iff {h h' : Handler} {targetIds : List TargetId}
    (hdropped : Dropped h h' targetIds) (howned : h.NoOrphan) :
    h'.NoOrphan ↔ h.SafeDrop targetIds := by
  have hsame : ∀ owner id, (¬ ∃ targetId ∈ targetIds, owner = .target targetId) →
      (h'.owns owner id ↔ h.owns owner id) := by
    intro owner id huntouched
    cases owner with
    | call call => rw [owns, owns, hdropped.awaited]
    | target targetId =>
      have hkept : targetId ∉ targetIds := fun hmem => huntouched ⟨targetId, hmem, rfl⟩
      rw [owns, owns, hdropped.navigationIds, if_neg hkept]
  have hlost : ∀ owner id, (∃ targetId ∈ targetIds, owner = .target targetId) →
      ¬ h'.owns owner id := by
    rintro owner id ⟨targetId, hmem, rfl⟩ howner
    rw [owns, hdropped.navigationIds, if_pos hmem] at howner
    cases howner
  rw [NoOrphan, inProgress_of_eq hdropped.navigations, owned_iff_of_lost hsame hlost howned]
  constructor
  · exact fun hkept targetId hmem id hid => hkept (.target targetId) id ⟨targetId, hmem, rfl⟩ hid
  · rintro hsafe owner id ⟨targetId, hmem, rfl⟩ hid
    exact hsafe targetId hmem id hid

theorem safeDrop_nil (h : Handler) : h.SafeDrop [] := fun _ hmem => absurd hmem List.not_mem_nil

/-- A call that leaves the owners alone. -/
theorem Dropped.noOrphan {h h' : Handler} (hdropped : Dropped h h' []) (howned : h.NoOrphan) :
    h'.NoOrphan :=
  (hdropped.noOrphan_iff howned).2 h.safeDrop_nil

theorem dropped_nil {h h' : Handler} (hnavigations : h'.navigations = h.navigations)
    (hpending : h'.pendingCommands = h.pendingCommands)
    (hheld : ∀ targetId, h'.navigationIds targetId = h.navigationIds targetId) :
    Dropped h h' [] where
  navigations := hnavigations
  awaited := awaited_of_eq hpending
  navigationIds := fun targetId => (hheld targetId).trans (if_neg List.not_mem_nil).symm

/-! ### Submitting -/

theorem awaited_set {h h' : Handler} {call : CallId} {entry : PendingRequest × MethodId × Instant}
    (heq : h'.pendingCommands = h.pendingCommands.set call entry) (x : CallId) :
    h'.awaited x = if x = call then entry.1.navigationId? else h.awaited x := by
  rw [awaited, awaited, heq, Table.get_set]
  by_cases hsame : x = call
  · rw [if_pos hsame, if_pos hsame]
    rfl
  · rw [if_neg hsame, if_neg hsame]

theorem awaited_remove {h h' : Handler} {call : CallId}
    (heq : h'.pendingCommands = h.pendingCommands.remove call) (x : CallId) :
    h'.awaited x = if x = call then none else h.awaited x := by
  rw [awaited, awaited, heq, Table.get_remove]
  by_cases hsame : x = call
  · rw [if_pos hsame, if_pos hsame]
    rfl
  · rw [if_neg hsame, if_neg hsame]

/-- A call that is taken puts its navigation in the place of what its id stood for. -/
structure Submitted (h h' : Handler) (submittedFor : Option NavigationId) : Prop where
  navigations : h'.navigations = h.navigations
  awaited : ∀ call, h'.awaited call = if call = ⟨h.nextCallId⟩ then submittedFor else h.awaited call
  navigationIds : ∀ targetId, h'.navigationIds targetId = h.navigationIds targetId

theorem Submitted.noOrphan_iff {h h' : Handler} {submittedFor : Option NavigationId}
    (hsubmitted : Submitted h h' submittedFor) (howned : h.NoOrphan) :
    h'.NoOrphan ↔ h.SafeCall submittedFor := by
  have hsame : ∀ owner id, owner ≠ .call ⟨h.nextCallId⟩ → (h'.owns owner id ↔ h.owns owner id) := by
    intro owner id hne
    cases owner with
    | call call =>
      have hcall : call ≠ ⟨h.nextCallId⟩ := fun heq => hne (congrArg NavigationOwner.call heq)
      rw [owns, owns, hsubmitted.awaited, if_neg hcall]
    | target targetId => rw [owns, owns, hsubmitted.navigationIds]
  have hnew : ∀ id, h'.owns (.call ⟨h.nextCallId⟩) id ↔ submittedFor = some id := by
    intro id
    rw [owns, hsubmitted.awaited, if_pos rfl]
  rw [NoOrphan, inProgress_of_eq hsubmitted.navigations, owned_iff_of_touched hsame howned]
  constructor
  · intro hkept id hawaited hid
    obtain ⟨owner, howner⟩ := hkept id hid (Or.inr ⟨_, rfl, hawaited⟩)
    by_cases howner' : owner = .call ⟨h.nextCallId⟩
    · rw [howner', hnew] at howner
      exact Or.inl howner
    · exact Or.inr ⟨owner, howner', (hsame owner id howner').1 howner⟩
  · rintro hsafe id hid (hold | ⟨owner, rfl, hawaited⟩)
    · exact absurd hid hold
    · obtain hfor | ⟨owner, howner', howner⟩ := hsafe id hawaited hid
      · exact ⟨_, (hnew id).2 hfor⟩
      · exact ⟨owner, (hsame owner id howner').2 howner⟩

/-- Submitting a call that may be refused. -/
theorem submit_noOrphan_iff {h h' : Handler} (howned : h.NoOrphan) (accepted : Bool) (req : Request)
    (pending : PendingRequest) (now : Instant)
    (hnavigations : h'.navigations = h.navigations)
    (hpending : h'.pendingCommands = (h.submit accepted req pending now).pendingCommands)
    (hheld : ∀ targetId, h'.navigationIds targetId = h.navigationIds targetId) :
    h'.NoOrphan ↔ (accepted = true → h.SafeCall pending.navigationId?) := by
  cases accepted with
  | true =>
    have hsubmitted : Submitted h h' pending.navigationId? :=
      ⟨hnavigations, @awaited_set h _ ⟨h.nextCallId⟩ (pending, req.method, now) hpending, hheld⟩
    simp [hsubmitted.noOrphan_iff howned]
  | false => simp [(dropped_nil hnavigations hpending hheld).noOrphan howned]

theorem submit_navigations (h : Handler) (accepted : Bool) (req : Request) (pending : PendingRequest)
    (now : Instant) : (h.submit accepted req pending now).navigations = h.navigations := by
  obtain ⟨_, _, _, heq⟩ := h.submit_same accepted req pending now
  rw [heq]

/-! ### Messages of the browser handle -/

theorem createPage_noOrphan_iff {h : Handler} (howned : h.NoOrphan) (accepted : Bool)
    (params : CreateTargetParams) (tx : Sender) (now : Instant) :
    (h.createPage accepted params tx now).NoOrphan ↔
      (canCreatePage params.url = true → accepted = true → h.SafeCall none) := by
  cases hurl : canCreatePage params.url with
  | false =>
    have hrefused : h.createPage accepted params tx now = h.send tx (.page (.error .notFound)) := by
      simp only [createPage, hurl, Bool.false_eq_true, if_false]
    rw [hrefused]
    exact ⟨fun _ hcan => absurd hcan Bool.false_ne_true, fun _ => howned⟩
  | true =>
    have hsubmit : (h.createPage accepted params tx now).NoOrphan ↔
        (accepted = true → h.SafeCall (PendingRequest.createTarget tx).navigationId?) := by
      simp only [createPage, hurl, if_true]
      cases accepted with
      | true =>
        exact submit_noOrphan_iff howned true ⟨"Target.createTarget", none, params.value⟩
          (.createTarget tx) now rfl rfl fun _ => rfl
      | false =>
        exact submit_noOrphan_iff howned false ⟨"Target.createTarget", none, params.value⟩
          (.createTarget tx) now rfl rfl fun _ => rfl
    exact hsubmit.trans ⟨fun hsafe _ => hsafe, fun hsafe => hsafe rfl⟩

theorem onBrowserMessage_noOrphan_iff {h : Handler} (howned : h.NoOrphan) (accepted : Bool)
    (msg : HandlerMessage) (now : Instant) :
    (h.onBrowserMessage accepted msg now).NoOrphan ↔
      (HandlerMessage.submits msg = true → accepted = true → h.SafeCall none) := by
  have hheld : ∀ targetId, (h.onBrowserMessage accepted msg now).navigationIds targetId =
      h.navigationIds targetId := held_onBrowserMessage h accepted msg now
  have hquiet : HandlerMessage.submits msg = false →
      (h.onBrowserMessage accepted msg now).navigations = h.navigations →
      (h.onBrowserMessage accepted msg now).pendingCommands = h.pendingCommands →
      ((h.onBrowserMessage accepted msg now).NoOrphan ↔
        (HandlerMessage.submits msg = true → accepted = true → h.SafeCall none)) := by
    intro hsubmits hnavigations hpending
    constructor
    · intro _ hsubmits'
      rw [hsubmits] at hsubmits'
      cases hsubmits'
    · exact fun _ => (dropped_nil hnavigations hpending hheld).noOrphan howned
  have hcall : ∀ (req : Request) (pending : PendingRequest), pending.navigationId? = none →
      ((h.submit accepted req pending now).NoOrphan ↔
        (true = true → accepted = true → h.SafeCall none)) := by
    intro req pending hpending
    rw [submit_noOrphan_iff howned accepted req pending now
      (submit_navigations h accepted req pending now) rfl
      (held_of_targets_eq (submit_targets h accepted req pending now)), hpending]
    exact ⟨fun hsafe _ => hsafe, fun hsafe => hsafe rfl⟩
  cases msg with
  | command cmd => exact hcall _ (.externalCommand cmd.sender (h.commandTarget cmd)) rfl
  | fetchTargets tx => exact hcall _ (.getTargets tx) rfl
  | closeBrowser tx => exact hcall _ (.closeBrowser tx) rfl
  | createPage params tx =>
    simp only [onBrowserMessage, HandlerMessage.submits]
    split
    · refine createPage_noOrphan_iff ?_ accepted params tx now
      exact howned
    · exact createPage_noOrphan_iff howned accepted params tx now
  | getPages tx => exact hquiet rfl rfl rfl
  | getPage targetId tx => exact hquiet rfl rfl rfl
  | insertContext ctx => exact hquiet rfl rfl rfl
  | disposeContext ctx => exact hquiet rfl rfl rfl
  | addEventListener method => exact hquiet rfl rfl rfl

/-! ### Responses -/

theorem Dropped.of_resolve (h : Handler) (env : Env) (method : MethodId) (resp : Response)
    {pending : PendingRequest} (hpending : pending.navigationId? = none) :
    Dropped h (h.resolve env method resp pending) (h.replaced env resp pending) := by
  have hfold : ∀ (targetInfos : List TargetInfo) (h : Handler),
      (targetInfos.foldl onTargetCreated h).navigations = h.navigations ∧
        (targetInfos.foldl onTargetCreated h).pendingCommands = h.pendingCommands := by
    intro targetInfos
    induction targetInfos with
    | nil => exact fun _ => ⟨rfl, rfl⟩
    | cons targetInfo rest ih =>
      intro h
      have hcreated : (h.onTargetCreated targetInfo).navigations = h.navigations ∧
          (h.onTargetCreated targetInfo).pendingCommands = h.pendingCommands := by
        simp only [onTargetCreated]
        split
        · exact ⟨rfl, rfl⟩
        · exact ⟨rfl, rfl⟩
      exact ⟨(ih _).1.trans hcreated.1, (ih _).2.trans hcreated.2⟩
  have hheld := held_resolve Target.reports_navigationIds h env method resp pending
  have hkept : (h.resolve env method resp pending).navigations = h.navigations ∧
      (h.resolve env method resp pending).pendingCommands = h.pendingCommands := by
    cases pending with
    | navigate id => cases hpending
    | createTarget tx =>
      simp only [resolve]
      split
      · split
        · exact ⟨rfl, rfl⟩
        · exact ⟨rfl, rfl⟩
      · exact ⟨rfl, rfl⟩
    | getTargets tx =>
      simp only [resolve]
      split
      · exact hfold _ h
      · exact ⟨rfl, rfl⟩
    | externalCommand tx targetId => exact ⟨rfl, rfl⟩
    | internalCommand targetId => exact ⟨rfl, rfl⟩
    | closeBrowser tx => exact ⟨rfl, rfl⟩
  exact ⟨hkept.1, awaited_of_eq hkept.2, hheld⟩

/-- A response to a call of a navigation takes that owner away, and the navigation itself if it has ended. -/
theorem onNavigationResponse_noOrphan_iff {h : Handler} (howned : h.NoOrphan) {call : CallId}
    {id : NavigationId} (hawaited : h.awaited call = some id) {h' : Handler} {resp : Response}
    (hnavigations : h'.navigations = (h.onNavigationResponse id resp).navigations)
    (hpending : h'.pendingCommands = h.pendingCommands.remove call)
    (hheld : ∀ targetId, h'.navigationIds targetId = h.navigationIds targetId) :
    h'.NoOrphan ↔ h.SafeResponse call := by
  have hawaited' : ∀ x, h'.awaited x = if x = call then none else h.awaited x :=
    awaited_remove hpending
  have hsame : ∀ owner key, owner ≠ .call call → (h'.owns owner key ↔ h.owns owner key) := by
    intro owner key hne
    cases owner with
    | call x => rw [owns, owns, hawaited', if_neg fun heq => hne (congrArg NavigationOwner.call heq)]
    | target targetId => rw [owns, owns, hheld]
  have hlost : ∀ owner key, owner = .call call → ¬ h'.owns owner key := by
    rintro owner key rfl howner
    rw [owns, hawaited', if_pos rfl] at howner
    cases howner
  have hkept : h'.InProgress = h.InProgress → (h'.NoOrphan ↔
      (h.InProgress id → Elsewhere h.owns (· = .call call) id)) := by
    intro hinProgress
    rw [NoOrphan, hinProgress, owned_iff_of_lost hsame hlost howned]
    constructor
    · exact fun hkept hid => hkept _ id rfl hawaited hid
    · rintro hsafe owner key rfl howner hkey
      rw [owns, hawaited] at howner
      cases howner
      exact hsafe hkey
  cases hnav : h.navigations.get id with
  | none =>
    have hinProgress : h'.InProgress = h.InProgress := by
      refine inProgress_of_eq (hnavigations.trans ?_)
      simp only [onNavigationResponse, hnav]
    rw [hkept hinProgress]
    constructor
    · intro _ key nav hkey hget
      rw [hawaited] at hkey
      cases hkey
      rw [hnav] at hget
      cases hget
    · intro _ hid
      rw [InProgress, hnav] at hid
      cases hid
  | some nav =>
    cases hnavigated : nav.navigated with
    | true =>
      have hremoved : h'.navigations = h.navigations.remove id := by
        rw [hnavigations]
        simp only [onNavigationResponse, hnav, hnavigated, if_true]
        rfl
      have hne : ∀ key, h'.InProgress key → key ≠ id := by
        rintro key hkey rfl
        rw [InProgress, hremoved, Table.get_remove_self] at hkey
        cases hkey
      constructor
      · intro _ key nav' hkey hget hnot
        rw [hawaited] at hkey
        cases hkey
        rw [hnav] at hget
        cases hget
        rw [hnavigated] at hnot
        cases hnot
      · intro _
        refine Owned.mono howned (fun key hkey => ?_) (fun owner key hkey howner => ?_)
        · have hother := hne key hkey
          rw [InProgress, hremoved, Table.get_remove_of_ne _ hother] at hkey
          exact hkey
        · refine (hsame owner key ?_).2 howner
          rintro rfl
          rw [owns, hawaited] at howner
          exact hne key hkey (Option.some.inj howner).symm
    | false =>
      have hinProgress : h'.InProgress = h.InProgress := by
        funext key
        rw [InProgress, InProgress, hnavigations]
        simp only [onNavigationResponse, hnav, hnavigated, Bool.false_eq_true, if_false,
          Table.get_set, Table.get_remove]
        split
        · rename_i hsame
          rw [hsame, hnav]
          rfl
        · rfl
      rw [hkept hinProgress]
      constructor
      · intro hsafe key nav' hkey hget _
        rw [hawaited] at hkey
        cases hkey
        exact hsafe (by rw [InProgress, hget]; rfl)
      · exact fun hsafe _ => hsafe id nav hawaited hnav hnavigated

theorem onResponse_noOrphan_iff {h : Handler} (howned : h.NoOrphan) (env : Env) (resp : Response) :
    (h.onResponse env resp).NoOrphan ↔
      h.SafeResponse resp.id ∧ h.SafeDrop (h.dropped (.response env resp)) := by
  cases hpending : h.pendingCommands.get resp.id with
  | none =>
    have hdropped : h.dropped (.response env resp) = [] := by simp only [dropped, hpending]
    have hsame : h.onResponse env resp = h := by simp only [onResponse, hpending]
    rw [hdropped, hsame]
    refine ⟨fun _ => ⟨fun id nav hawaited => ?_, safeDrop_nil h⟩, fun _ => howned⟩
    rw [awaited, hpending] at hawaited
    cases hawaited
  | some entry =>
    obtain ⟨pending, method, since⟩ := entry
    have hdropped : h.dropped (.response env resp) = h.replaced env resp pending := by
      simp only [dropped, hpending]
    have hresolved : h.onResponse env resp =
        { h with pendingCommands := h.pendingCommands.remove resp.id }.resolve env method resp
          pending := by simp only [onResponse, hpending]
    have hawaited : h.awaited resp.id = pending.navigationId? := by
      rw [awaited, hpending]
      rfl
    rw [hdropped, hresolved]
    cases hid : pending.navigationId? with
    | none =>
      have hresolve := Dropped.of_resolve { h with pendingCommands := h.pendingCommands.remove resp.id }
        env method resp hid
      have hdrop : Dropped h ({ h with pendingCommands := h.pendingCommands.remove resp.id }.resolve
          env method resp pending) (h.replaced env resp pending) := by
        refine ⟨hresolve.navigations, fun call => (hresolve.awaited call).trans ?_,
          hresolve.navigationIds⟩
        rw [awaited_remove rfl]
        split
        · rename_i hsame
          rw [hsame, hawaited, hid]
        · rfl
      rw [hdrop.noOrphan_iff howned]
      refine ⟨fun hsafe => ⟨fun id nav hid' => ?_, hsafe⟩, fun hsafe => hsafe.2⟩
      rw [hawaited, hid] at hid'
      cases hid'
    | some id =>
      cases pending with
      | navigate navigation =>
        cases hid
        have hkept : ∀ h' : Handler, (h'.onNavigationResponse id resp).pendingCommands =
            h'.pendingCommands := by
          intro h'
          simp only [onNavigationResponse]
          split
          · split
            · rfl
            · rfl
          · rfl
        have hnavigations : ∀ pendingCommands,
            ({ h with pendingCommands := pendingCommands }.onNavigationResponse id resp).navigations =
              (h.onNavigationResponse id resp).navigations := by
          intro pendingCommands
          simp only [onNavigationResponse]
          split
          · split
            · rfl
            · rfl
          · rfl
        have hresponse := onNavigationResponse_noOrphan_iff howned hawaited (hnavigations _)
          (hkept _) (held_of_targets_eq (onNavigationResponse_targets _ id resp))
        exact hresponse.trans ⟨fun hsafe => ⟨hsafe, safeDrop_nil h⟩, fun hsafe => hsafe.1⟩
      | createTarget tx => cases hid
      | getTargets tx => cases hid
      | externalCommand tx targetId => cases hid
      | internalCommand targetId => cases hid
      | closeBrowser tx => cases hid

/-! ### Events -/

theorem navigationId?_of_isBoundTo {targetId : TargetId} {pending : PendingRequest}
    (h : PendingRequest.isBoundTo targetId pending = true) : pending.navigationId? = none := by
  cases pending with
  | navigate id => cases h
  | _ => rfl

theorem cancel_kept (debugTargetId : TargetId → String) (event : EventTargetCrashed) (h : Handler)
    (call : CallId) :
    (cancel debugTargetId event h call).navigations = h.navigations ∧
      (cancel debugTargetId event h call).pendingCommands = h.pendingCommands.remove call := by
  simp only [cancel]
  split
  · split
    · exact ⟨rfl, rfl⟩
    · exact ⟨rfl, rfl⟩
  · rename_i hnone
    exact ⟨rfl, (Table.remove_of_get_eq_none hnone).symm⟩

/-- A crash cancels no call of a navigation. -/
theorem foldl_cancel_kept (debugTargetId : TargetId → String) (event : EventTargetCrashed)
    (calls : List CallId) (h : Handler) (hcalls : ∀ call ∈ calls, h.awaited call = none) :
    (calls.foldl (cancel debugTargetId event) h).navigations = h.navigations ∧
      (calls.foldl (cancel debugTargetId event) h).awaited = h.awaited := by
  induction calls generalizing h with
  | nil => exact ⟨rfl, rfl⟩
  | cons call rest ih =>
    obtain ⟨hnavigations, hpending⟩ := cancel_kept debugTargetId event h call
    have hawaited : (cancel debugTargetId event h call).awaited = h.awaited := by
      funext x
      rw [awaited_remove hpending]
      split
      · rename_i hsame
        rw [hsame, hcalls call List.mem_cons_self]
      · rfl
    have hrest := ih (cancel debugTargetId event h call) fun x hx => by
      rw [hawaited]
      exact hcalls x (List.mem_cons_of_mem _ hx)
    rw [List.foldl_cons]
    exact ⟨hrest.1.trans hnavigations, hrest.2.trans hawaited⟩

theorem removeTarget_kept (h : Handler) (targetId : TargetId) :
    (h.removeTarget targetId).navigations = h.navigations ∧
      (h.removeTarget targetId).pendingCommands = h.pendingCommands := by
  simp only [removeTarget]
  split
  · exact ⟨rfl, rfl⟩
  · exact ⟨rfl, rfl⟩

theorem onTargetCrashed_kept (h : Handler) (debugTargetId : TargetId → String)
    (event : EventTargetCrashed) :
    (h.onTargetCrashed debugTargetId event).navigations = h.navigations ∧
      ∀ call, (h.onTargetCrashed debugTargetId event).awaited call = h.awaited call := by
  have hcalls : ∀ call ∈ (h.pendingCommands.toList.filter fun entry =>
      PendingRequest.isBoundTo event.targetId entry.2.1).map Prod.fst, h.awaited call = none := by
    intro call hcall
    obtain ⟨entry, hentry, rfl⟩ := List.mem_map.1 hcall
    obtain ⟨hmem, hbound⟩ := List.mem_filter.1 hentry
    rw [awaited, (Table.mem_toList _ _ _).1 hmem]
    exact navigationId?_of_isBoundTo hbound
  obtain ⟨hnavigations, hawaited⟩ := foldl_cancel_kept debugTargetId event _ h hcalls
  simp only [onTargetCrashed]
  refine ⟨(removeTarget_kept _ _).1.trans hnavigations, fun call => ?_⟩
  rw [awaited_of_eq (removeTarget_kept _ _).2, hawaited]

theorem onEvent_kept (h : Handler) (env : Env) (event : CdpEventMessage) :
    (h.onEvent env event).navigations = h.navigations ∧
      ∀ call, (h.onEvent env event).awaited call = h.awaited call := by
  have hof : ∀ h' : Handler, h'.navigations = h.navigations ∧
      h'.pendingCommands = h.pendingCommands →
      h'.navigations = h.navigations ∧ ∀ call, h'.awaited call = h.awaited call :=
    fun h' hkept => ⟨hkept.1, awaited_of_eq hkept.2⟩
  simp only [onEvent]
  split
  · exact hof _ ⟨rfl, rfl⟩
  · split
    · refine hof _ ?_
      simp only [onTargetCreated]
      split
      · exact ⟨rfl, rfl⟩
      · exact ⟨rfl, rfl⟩
    · exact hof _ ⟨rfl, rfl⟩
    · exact hof _ (removeTarget_kept h _)
    · exact onTargetCrashed_kept h env.debugTargetId _
    · refine hof _ ?_
      simp only [onDetachedFromTarget]
      split
      · exact ⟨rfl, rfl⟩
      · exact ⟨rfl, rfl⟩
    · exact hof _ ⟨rfl, rfl⟩

theorem onEvent_noOrphan_iff {h : Handler} (howned : h.NoOrphan) (env : Env)
    (event : CdpEventMessage) :
    (h.onEvent env event).NoOrphan ↔ h.SafeDrop (h.dropped (.event env event)) := by
  have hkept := onEvent_kept h env event
  have hdropped : Dropped h (h.onEvent env event) (h.dropped (.event env event)) :=
    ⟨hkept.1, hkept.2, held_onEvent Target.reports_navigationIds h env event⟩
  exact hdropped.noOrphan_iff howned

/-! ### Timeouts -/

/-- A call that times out takes its navigation with it. -/
theorem NoOrphan.timeOut {h : Handler} (howned : h.NoOrphan) (call : CallId) :
    (h.timeOut call).NoOrphan := by
  have hheld : ∀ targetId, (h.timeOut call).navigationIds targetId = h.navigationIds targetId :=
    held_of_targets_eq (timeOut_targets h call)
  cases hpending : h.pendingCommands.get call with
  | none =>
    have hsame : h.timeOut call = h := by simp only [Handler.timeOut, hpending]
    rw [hsame]
    exact howned
  | some entry =>
    obtain ⟨pending, method, since⟩ := entry
    have hremoved : (h.timeOut call).pendingCommands = h.pendingCommands.remove call := by
      simp only [Handler.timeOut, hpending]
      split
      case h_3 => split <;> rfl
      all_goals rfl
    have hawaited : ∀ x, (h.timeOut call).awaited x = if x = call then none else h.awaited x :=
      awaited_remove hremoved
    have hnavigations : (h.timeOut call).navigations =
        pending.navigationId?.elim h.navigations h.navigations.remove := by
      cases pending with
      | navigate id =>
        simp only [Handler.timeOut, hpending, PendingRequest.navigationId?]
        split
        · rfl
        · rename_i hnone
          exact (Table.remove_of_get_eq_none hnone).symm
      | _ => simp only [Handler.timeOut, hpending, PendingRequest.navigationId?, send, Option.elim_none]
    refine Owned.mono howned (fun key hkey => ?_) (fun owner key hkey howner => ?_)
    · rw [InProgress, hnavigations] at hkey
      cases hid : pending.navigationId? with
      | some id =>
        rw [hid, Option.elim_some, Table.get_remove] at hkey
        split at hkey
        · cases hkey
        · exact hkey
      | none =>
        rw [hid] at hkey
        exact hkey
    · cases owner with
      | target targetId => rwa [owns, hheld]
      | call x =>
        have hne : x ≠ call := by
          rintro rfl
          have hid : pending.navigationId? = some key := by
            rw [owns, awaited, hpending] at howner
            exact howner
          rw [InProgress, hnavigations, hid, Option.elim_some, Table.get_remove_self] at hkey
          cases hkey
        rw [owns, hawaited, if_neg hne]
        exact howner

theorem NoOrphan.evict {h : Handler} (howned : h.NoOrphan) (now : Instant) :
    (h.evict now).NoOrphan := by
  have hevicted : (h.evictTimedOutCommands now).NoOrphan := by
    simp only [evictTimedOutCommands]
    split
    · exact howned
    · exact Run.invariant_of_step NoOrphan (fun _ call h => h.timeOut call) howned _
  have hheld : ∀ targetId, (h.evict now).navigationIds targetId =
      (h.evictTimedOutCommands now).navigationIds targetId := by
    intro targetId
    rw [navigationIds, navigationIds, held_evict Target.reports_navigationIds h now,
      held_of_targets_eq (evictTimedOutCommands_targets h now)]
  have hdropped : Dropped (h.evictTimedOutCommands now) (h.evict now) [] := dropped_nil rfl rfl hheld
  exact hdropped.noOrphan hevicted

/-! ### Turns -/

/-- A target that reports the end of a navigation gives it up; nobody waits for it any more. -/
theorem NoOrphan.result {h h' : Handler} (howned : h.NoOrphan) {targetId : TargetId}
    {id : NavigationId} {rest : List NavigationId} (hreported : h.navigationIds targetId = id :: rest)
    (hnavigations : h'.navigations = h.navigations.remove id)
    (hawaited : ∀ call, h'.awaited call = h.awaited call)
    (hheld : ∀ t, h'.navigationIds t = if t = targetId then rest else h.navigationIds t) :
    h'.NoOrphan := by
  have hne : ∀ key, h'.InProgress key → key ≠ id ∧ h.InProgress key := by
    intro key hkey
    rw [InProgress, hnavigations, Table.get_remove] at hkey
    split at hkey
    · cases hkey
    · rename_i hne
      exact ⟨hne, hkey⟩
  refine Owned.mono howned (fun key hkey => (hne key hkey).2) (fun owner key hkey howner => ?_)
  cases owner with
  | call call => rwa [owns, hawaited]
  | target t =>
    rw [owns] at howner ⊢
    rw [hheld]
    split
    · rename_i hsame
      rw [hsame, hreported] at howner
      exact (List.mem_cons.1 howner).resolve_left (hne key hkey).1
    · exact howner

/-- A target that reports the end of a navigation whose response is still to come leaves it to the other owners. -/
theorem navigated_noOrphan_iff {h h' : Handler} (howned : h.NoOrphan) {targetId : TargetId}
    {id : NavigationId} {rest : List NavigationId} (hreported : h.navigationIds targetId = id :: rest)
    (hinProgress : h'.InProgress = h.InProgress)
    (hawaited : ∀ call, h'.awaited call = h.awaited call)
    (hheld : ∀ t, h'.navigationIds t = if t = targetId then rest else h.navigationIds t) :
    h'.NoOrphan ↔
      (h.InProgress id → id ∈ rest ∨ Elsewhere h.owns (· = .target targetId) id) := by
  have hsame : ∀ owner key, owner ≠ .target targetId → (h'.owns owner key ↔ h.owns owner key) := by
    intro owner key hne
    cases owner with
    | call call => rw [owns, owns, hawaited]
    | target t =>
      rw [owns, owns, hheld, if_neg fun heq => hne (congrArg NavigationOwner.target heq)]
  have hrest : ∀ key, h'.owns (.target targetId) key ↔ key ∈ rest := by
    intro key
    rw [owns, hheld, if_pos rfl]
  rw [NoOrphan, hinProgress, owned_iff_of_touched hsame howned]
  constructor
  · intro hkept hid
    have hmem : h.owns (.target targetId) id := by
      rw [owns, hreported]
      exact List.mem_cons_self
    obtain ⟨owner, howner⟩ := hkept id hid (Or.inr ⟨_, rfl, hmem⟩)
    by_cases htouched : owner = .target targetId
    · rw [htouched, hrest] at howner
      exact Or.inl howner
    · exact Or.inr ⟨owner, htouched, (hsame owner id htouched).1 howner⟩
  · rintro hsafe key hkey (hold | ⟨owner, rfl, howner⟩)
    · exact absurd hkey hold
    · rw [owns, hreported] at howner
      obtain rfl | hmem := List.mem_cons.1 howner
      · obtain hmem | ⟨owner, htouched, howner'⟩ := hsafe hkey
        · exact ⟨_, (hrest key).2 hmem⟩
        · exact ⟨owner, (hsame owner key htouched).2 howner'⟩
      · exact ⟨_, (hrest key).2 hmem⟩

theorem onNavigationLifecycleCompleted_pendingCommands (h : Handler)
    (res : Except NavigationError NavigationOk) :
    (h.onNavigationLifecycleCompleted res).pendingCommands = h.pendingCommands := by
  obtain ⟨_, _, _, heq⟩ := h.onNavigationLifecycleCompleted_same res
  rw [heq]

theorem result_noOrphan_iff {h h' : Handler} (howned : h.NoOrphan) {targetId : TargetId}
    {res : Except NavigationError NavigationOk} {rest : List NavigationId}
    (hreported : h.navigationIds targetId =
      (TargetEvent.navigationResult res).resultId?.toList ++ rest)
    (hnavigations : h'.navigations = (h.onNavigationLifecycleCompleted res).navigations)
    (hawaited : ∀ call, h'.awaited call = h.awaited call)
    (hheld : ∀ t, h'.navigationIds t = if t = targetId then rest else h.navigationIds t) :
    h'.NoOrphan ↔ match res with
      | .ok ok => ∀ nav, h.navigations.get ok.navigationId = some nav → nav.response = none →
          ok.navigationId ∈ rest ∨ Elsewhere h.owns (· = .target targetId) ok.navigationId
      | .error _ => True := by
  cases res with
  | error err =>
    have hremoved : h'.navigations = h.navigations.remove err.navigationId := by
      rw [hnavigations]
      simp only [onNavigationLifecycleCompleted]
      split
      · rfl
      · rename_i hnone
        exact (Table.remove_of_get_eq_none hnone).symm
    exact iff_of_true (howned.result hreported hremoved hawaited hheld) trivial
  | ok ok =>
    dsimp only
    cases hnav : h.navigations.get ok.navigationId with
    | none =>
      have hremoved : h'.navigations = h.navigations.remove ok.navigationId := by
        rw [hnavigations, Table.remove_of_get_eq_none hnav]
        simp only [onNavigationLifecycleCompleted, hnav]
      exact iff_of_true (howned.result hreported hremoved hawaited hheld)
        fun nav hget => by cases hget
    | some nav =>
      cases hresponse : nav.response with
      | some resp =>
        have hremoved : h'.navigations = h.navigations.remove ok.navigationId := by
          rw [hnavigations]
          simp only [onNavigationLifecycleCompleted, hnav, hresponse, send]
        refine iff_of_true (howned.result hreported hremoved hawaited hheld) fun nav' hget hnone => ?_
        cases hget
        rw [hresponse] at hnone
        cases hnone
      | none =>
        have hinProgress : h'.InProgress = h.InProgress := by
          funext key
          rw [InProgress, InProgress, hnavigations]
          simp only [onNavigationLifecycleCompleted, hnav, hresponse, Table.get_set,
            Table.get_remove]
          split
          · rename_i hsame
            rw [hsame, hnav]
            rfl
          · rfl
        rw [navigated_noOrphan_iff howned hreported hinProgress hawaited hheld]
        constructor
        · intro hsafe nav' _ _
          exact hsafe (by rw [InProgress, hnav]; rfl)
        · exact fun hsafe _ => hsafe nav rfl hresponse

/-- A navigation that a page asks for is looked after by its target, if that knows its main frame, and by the call that `run` submits, if that is taken. -/
theorem navigation_noOrphan_iff {h h' : Handler} (howned : h.NoOrphan) (targetId : TargetId)
    {id : NavigationId} {known submitted : Prop}
    (hinProgress : ∀ key, h'.InProgress key ↔ key = id ∨ h.InProgress key)
    (hsubmitted : submitted → ∀ call,
      h'.awaited call = if call = ⟨h.nextCallId⟩ then some id else h.awaited call)
    (hrefused : ¬ submitted → ∀ call, h'.awaited call = h.awaited call)
    (hheld : ∀ t key, key ∈ h'.navigationIds t ↔
      key ∈ h.navigationIds t ∨ t = targetId ∧ known ∧ key = id) :
    h'.NoOrphan ↔ (submitted → h.SafeCall (some id)) ∧
      (known ∨ submitted ∨ ∃ owner, h.owns owner id) := by
  have hkept : ∀ owner key, h.owns owner key → (submitted → owner ≠ .call ⟨h.nextCallId⟩) →
      h'.owns owner key := by
    intro owner key howner hne
    cases owner with
    | target t => exact (hheld t key).2 (Or.inl howner)
    | call call =>
      by_cases hsub : submitted
      · have hcall : call ≠ ⟨h.nextCallId⟩ := fun heq => hne hsub (congrArg NavigationOwner.call heq)
        rwa [owns, hsubmitted hsub, if_neg hcall]
      · rwa [owns, hrefused hsub]
  have hnew : ∀ owner key, h'.owns owner key → h.owns owner key ∧
      (submitted → owner ≠ .call ⟨h.nextCallId⟩) ∨ key = id ∧ (known ∨ submitted) := by
    intro owner key howner
    cases owner with
    | target t =>
      obtain hold | ⟨_, hknown, hkey⟩ := (hheld t key).1 howner
      · exact Or.inl ⟨hold, fun _ heq => by cases heq⟩
      · exact Or.inr ⟨hkey, Or.inl hknown⟩
    | call call =>
      by_cases hsub : submitted
      · rw [owns, hsubmitted hsub] at howner
        split at howner
        · exact Or.inr ⟨(Option.some.inj howner).symm, Or.inr hsub⟩
        · rename_i hcall
          exact Or.inl ⟨howner, fun _ heq => hcall (NavigationOwner.call.inj heq)⟩
      · rw [owns, hrefused hsub] at howner
        exact Or.inl ⟨howner, fun hsub' => absurd hsub' hsub⟩
  constructor
  · intro hall
    constructor
    · intro hsub key hawaited hkey
      obtain ⟨owner, howner⟩ := hall key ((hinProgress key).2 (Or.inr hkey))
      obtain ⟨hold, hne⟩ | ⟨hsame, _⟩ := hnew owner key howner
      · exact Or.inr ⟨owner, hne hsub, hold⟩
      · exact Or.inl (congrArg some hsame.symm)
    · obtain ⟨owner, howner⟩ := hall id ((hinProgress id).2 (Or.inl rfl))
      obtain ⟨hold, _⟩ | ⟨_, hnow⟩ := hnew owner id howner
      · exact Or.inr (Or.inr ⟨owner, hold⟩)
      · exact hnow.imp_right Or.inl
  · rintro ⟨hsafe, hstarted⟩ key hkey
    by_cases hsame : key = id
    · subst hsame
      by_cases hsub : submitted
      · exact ⟨.call ⟨h.nextCallId⟩, by rw [owns, hsubmitted hsub, if_pos rfl]⟩
      · obtain hknown | hsub' | ⟨owner, howner⟩ := hstarted
        · exact ⟨.target targetId, (hheld targetId key).2 (Or.inr ⟨rfl, hknown, rfl⟩)⟩
        · exact absurd hsub' hsub
        · exact ⟨owner, hkept owner key howner fun hsub' => absurd hsub' hsub⟩
    · have hold : h.InProgress key := ((hinProgress key).1 hkey).resolve_left hsame
      obtain ⟨owner, howner⟩ := howned key hold
      by_cases htouched : submitted ∧ owner = .call ⟨h.nextCallId⟩
      · obtain ⟨hsub, rfl⟩ := htouched
        obtain hfor | ⟨owner', hne, howner'⟩ := hsafe hsub key howner hold
        · exact absurd (Option.some.inj hfor).symm hsame
        · exact ⟨owner', hkept owner' key howner' fun _ => hne⟩
      · exact ⟨owner, hkept owner key howner fun hsub heq => htouched ⟨hsub, heq⟩⟩

theorem onNavigation_navigations (h : Handler) (driver : Driver) (accepted : Bool) (target : Target)
    (msg : CommandMessage) (now : Instant) :
    (h.onNavigation driver accepted target msg now).1.navigations =
      h.navigations.set ⟨h.nextNavigationId⟩ (.new msg.sender) := by
  cases driver with
  | stream => rfl
  | run => simp only [onNavigation, submit_navigations]

section Turn

variable {h : Handler} {driver : Driver} {targetId : TargetId} {target : Target} {env : Env}
  {now : Instant}

theorem navigationIds_turn (htarget : h.targets.get targetId = some target) (accepted : Bool)
    {event : Option TargetEvent} (hevent : (pollTarget driver target env now).event = event)
    (t : TargetId) : (h.turn driver accepted targetId env now).navigationIds t =
      if t = targetId then
        (h.afterEvent (pollTarget driver target env now).target event).navigationIds
      else h.navigationIds t := by
  subst hevent
  exact held_set (turn_targets htarget driver accepted env now) t

/-- A command of the page that is no navigation. -/
theorem turn_command_noOrphan_iff (howned : h.NoOrphan)
    (htarget : h.targets.get targetId = some target) (accepted : Bool) {msg : CommandMessage}
    (hplain : msg.isNavigation = false)
    (hevent : (pollTarget driver target env now).event = some (.command msg)) :
    (h.turn driver accepted targetId env now).NoOrphan ↔
      (driver.accepts accepted = true → h.SafeCall none) := by
  have hkept : ∀ t, (h.turn driver accepted targetId env now).navigationIds t = h.navigationIds t :=
    held_turn_of_kept Target.reports_navigationIds htarget driver accepted env now
      (by rw [hevent]; rfl) (by rw [hevent, afterEvent_of_plain h _ hplain])
  have hturn := turn_of_event htarget accepted hevent
  simp only [onTargetEvent, hplain, Bool.false_eq_true, if_false] at hturn
  rw [hturn] at hkept ⊢
  cases driver with
  | stream =>
    exact submit_noOrphan_iff howned true msg.split.1
      (.externalCommand msg.sender (h.commandTarget msg)) now rfl rfl hkept
  | run =>
    refine submit_noOrphan_iff howned accepted msg.split.1
      (.externalCommand msg.sender (some (pollTarget .run target env now).target.info.targetId))
      now ?_ rfl hkept
    exact submit_navigations h accepted _ _ now

/-- A navigation of the page: it is in progress from then on, and is owned by its call, by its target, or by an owner that an equal number had before. -/
theorem turn_navigation_noOrphan_iff (howned : h.NoOrphan)
    (htarget : h.targets.get targetId = some target) (accepted : Bool) {msg : CommandMessage}
    (hnavigation : msg.isNavigation = true)
    (hevent : (pollTarget driver target env now).event = some (.command msg)) :
    (h.turn driver accepted targetId env now).NoOrphan ↔
      (driver = .run ∧ driver.accepts accepted = true → h.SafeCall (some ⟨h.nextNavigationId⟩)) ∧
        ((pollTarget driver target env now).target.frameManager.mainFrame.isSome = true ∨
          driver = .run ∧ driver.accepts accepted = true ∨
            ∃ owner, h.owns owner ⟨h.nextNavigationId⟩) := by
  have hturn := turn_of_event htarget accepted hevent
  simp only [onTargetEvent, hnavigation, if_true] at hturn
  refine navigation_noOrphan_iff howned targetId ?_ ?_ ?_ (fun t key => ?_)
  · intro key
    have hset : (h.turn driver accepted targetId env now).navigations =
        h.navigations.set ⟨h.nextNavigationId⟩ (.new msg.sender) := by
      rw [hturn]
      exact onNavigation_navigations h driver _ _ msg now
    rw [InProgress, InProgress, hset, Table.get_set]
    split
    · simp [*]
    · simp [*]
  · rintro ⟨rfl, haccepted⟩
    rw [hturn]
    refine @awaited_set h _ ⟨h.nextCallId⟩ (.navigate ⟨h.nextNavigationId⟩, msg.split.1.method, now) ?_
    simp only [onNavigation, submit, haccepted, if_true]
  · intro hrefused
    refine awaited_of_eq ?_
    rw [hturn]
    cases driver with
    | stream => rfl
    | run =>
      have hnot : accepted = false := by
        cases accepted with
        | true => exact absurd ⟨rfl, rfl⟩ hrefused
        | false => rfl
      rw [hnot]
      rfl
  · have hids : h.navigationIds targetId =
        (pollTarget driver target env now).target.navigationIds := by
      have hreported := held_polled Target.reports_navigationIds htarget driver env now
      rw [hevent] at hreported
      exact hreported
    rw [navigationIds_turn htarget accepted hevent, afterEvent_of_navigation h _ hnavigation,
      Target.navigationIds_goto]
    split
    · rename_i hsame
      rw [hsame, hids]
      split
      · simp [*]
      · simp [*]
    · simp [*]

theorem turn_noOrphan_iff (howned : h.NoOrphan) (driver : Driver) (accepted : Bool)
    (htarget : h.targets.get targetId = some target) (env : Env) (now : Instant) :
    (h.turn driver accepted targetId env now).NoOrphan ↔
      h.KeepsEvent driver (driver.accepts accepted) targetId
        (pollTarget driver target env now).target (pollTarget driver target env now).event := by
  have hkept : (pollTarget driver target env now).event.bind TargetEvent.resultId? = none →
      h.afterEvent (pollTarget driver target env now).target
        (pollTarget driver target env now).event = (pollTarget driver target env now).target →
      ∀ t, (h.turn driver accepted targetId env now).navigationIds t = h.navigationIds t :=
    held_turn_of_kept Target.reports_navigationIds htarget driver accepted env now
  cases hevent : (pollTarget driver target env now).event with
  | none =>
    rw [hevent] at hkept
    have hidle := turn_of_idle htarget accepted hevent
    have hdropped : Dropped h (h.turn driver accepted targetId env now) [] :=
      dropped_nil (by rw [hidle]) (by rw [hidle]) (hkept rfl rfl)
    exact iff_of_true (hdropped.noOrphan howned) trivial
  | some event =>
    rw [hevent] at hkept
    have hturn := turn_of_event htarget accepted hevent
    cases event with
    | request req =>
      refine submit_noOrphan_iff howned (driver.accepts accepted) req
        (.internalCommand (pollTarget driver target env now).target.info.targetId) now ?_ ?_
        (hkept rfl rfl)
      · rw [hturn]
        exact submit_navigations h _ _ _ now
      · rw [hturn]
        rfl
    | navigationRequest id req =>
      refine submit_noOrphan_iff howned (driver.accepts accepted) req (.navigate id) now ?_ ?_
        (hkept rfl rfl)
      · rw [hturn]
        exact submit_navigations h _ _ _ now
      · rw [hturn]
        rfl
    | bytesConsumed bytes =>
      have hdropped : Dropped h (h.turn driver accepted targetId env now) [] := by
        refine dropped_nil ?_ ?_ (hkept rfl rfl)
        · rw [hturn]
          simp only [onTargetEvent]
          split
          · rfl
          · rfl
        · rw [hturn]
          simp only [onTargetEvent]
          split
          · rfl
          · rfl
      exact iff_of_true (hdropped.noOrphan howned) trivial
    | navigationResult res =>
      have hreported := held_polled Target.reports_navigationIds htarget driver env now
      rw [hevent] at hreported
      have hpending : (h.turn driver accepted targetId env now).pendingCommands =
          h.pendingCommands := by
        rw [hturn]
        exact onNavigationLifecycleCompleted_pendingCommands h res
      rw [result_noOrphan_iff howned hreported (by rw [hturn]; rfl) (awaited_of_eq hpending)
        (navigationIds_turn htarget accepted hevent)]
      cases res with
      | ok ok => rfl
      | error err => rfl
    | command msg =>
      cases hnavigation : msg.isNavigation with
      | false =>
        simp only [KeepsEvent, hnavigation, Bool.false_eq_true, if_false]
        exact turn_command_noOrphan_iff howned htarget accepted hnavigation hevent
      | true =>
        simp only [KeepsEvent, hnavigation, if_true]
        exact turn_navigation_noOrphan_iff howned htarget accepted hnavigation hevent

end Turn

/-! ### Runs -/

theorem step_noOrphan_iff {h : Handler} (howned : h.NoOrphan) (driver : Driver)
    (input : HandlerInput) : (h.step driver input).NoOrphan ↔ h.Keeps driver input := by
  have hquiet : ∀ h' : Handler, h'.navigations = h.navigations →
      h'.pendingCommands = h.pendingCommands →
      (∀ targetId, h'.navigationIds targetId = h.navigationIds targetId) →
      (h'.NoOrphan ↔ True) := fun h' hnavigations hpending hheld =>
    iff_of_true ((dropped_nil hnavigations hpending hheld).noOrphan howned) trivial
  have hheld : (∀ accepted targetId env now, input ≠ .turn accepted targetId env now) →
      h.dropped input = [] → ∀ targetId,
        (h.step driver input).navigationIds targetId = h.navigationIds targetId := by
    intro hinput hdropped targetId
    have hstep := held_step Target.reports_navigationIds driver h hinput targetId
    rw [hdropped, if_neg List.not_mem_nil] at hstep
    exact hstep
  cases input with
  | browserMessage accepted msg now =>
    exact onBrowserMessage_noOrphan_iff howned (driver.accepts accepted) msg now
  | pageMessage targetId msg => exact hquiet _ rfl rfl (hheld (fun _ _ _ _ h => by cases h) rfl)
  | drainPage targetId =>
    have hkept := hheld (fun _ _ _ _ h => by cases h) rfl
    cases driver with
    | stream => exact hquiet _ rfl rfl hkept
    | run => exact hquiet _ rfl rfl hkept
  | turn accepted targetId env now =>
    cases htarget : h.targets.get targetId with
    | none =>
      have hsame : h.step driver (.turn accepted targetId env now) = h :=
        turn_of_none htarget driver accepted env now
      rw [hsame]
      refine iff_of_true howned fun target hget => ?_
      rw [htarget] at hget
      cases hget
    | some target =>
      refine (turn_noOrphan_iff howned driver accepted htarget env now).trans ?_
      constructor
      · intro hkeeps target' hget
        rw [htarget] at hget
        cases hget
        exact hkeeps
      · exact fun hkeeps => hkeeps target htarget
  | blockExhausted =>
    have hkept : h.blockExhausted.navigations = h.navigations ∧
        h.blockExhausted.pendingCommands = h.pendingCommands := by
      unfold blockExhausted
      split
      · exact ⟨rfl, rfl⟩
      · exact ⟨rfl, rfl⟩
    exact hquiet _ hkept.1 hkept.2 (hheld (fun _ _ _ _ h => by cases h) rfl)
  | response env resp => exact onResponse_noOrphan_iff howned env resp
  | event env event => exact onEvent_noOrphan_iff howned env event
  | evict now => exact iff_of_true (howned.evict now) trivial

theorem noOrphan_new (config : HandlerConfig) : (new config).NoOrphan := by
  intro id hid
  cases hid

/-- What can still resolve a navigation: a call of `Page.navigate` that waits for its response, the frame manager of a target, or a result that the target has yet to hand over. -/
def Resolvable (h : Handler) (id : NavigationId) : Prop :=
  (∃ call method since, h.pendingCommands.get call = some (.navigate id, method, since)) ∨
    ∃ targetId target, h.targets.get targetId = some target ∧
      (id ∈ target.frameManager.navigationIds ∨
        ∃ event ∈ target.queuedEvents, event.resultId? = some id)

theorem resolvable_iff (h : Handler) (id : NavigationId) :
    h.Resolvable id ↔ ∃ owner, h.owns owner id := by
  have hcall : ∀ call, h.awaited call = some id ↔
      ∃ method since, h.pendingCommands.get call = some (.navigate id, method, since) := by
    intro call
    rw [awaited, Option.bind_eq_some_iff]
    constructor
    · rintro ⟨⟨pending, method, since⟩, hget, hid⟩
      cases pending with
      | navigate id' =>
        cases hid
        exact ⟨method, since, hget⟩
      | _ => cases hid
    · rintro ⟨method, since, hget⟩
      exact ⟨_, hget, rfl⟩
  have htarget : ∀ targetId, id ∈ h.navigationIds targetId ↔
      ∃ target, h.targets.get targetId = some target ∧ (id ∈ target.frameManager.navigationIds ∨
        ∃ event ∈ target.queuedEvents, event.resultId? = some id) := by
    intro targetId
    rw [navigationIds, held]
    cases h.targets.get targetId with
    | none => simp
    | some target => simp [Target.backlog, or_comm]
  constructor
  · rintro (⟨call, hpending⟩ | ⟨targetId, hheld⟩)
    · exact ⟨.call call, (hcall call).2 hpending⟩
    · exact ⟨.target targetId, (htarget targetId).2 hheld⟩
  · rintro ⟨owner, howner⟩
    cases owner with
    | call call => exact Or.inl ⟨call, (hcall call).1 howner⟩
    | target targetId => exact Or.inr ⟨targetId, (htarget targetId).1 howner⟩

/-- Everything that somebody waits for can still be resolved. -/
def NavigationsResolvable (h : Handler) : Prop :=
  ∀ id nav, h.navigations.get id = some nav → h.Resolvable id

theorem navigationsResolvable_iff (h : Handler) : h.NavigationsResolvable ↔ h.NoOrphan := by
  constructor
  · intro hall id hid
    obtain ⟨nav, hget⟩ := Option.isSome_iff_exists.1 hid
    exact (resolvable_iff h id).1 (hall id nav hget)
  · intro howned id nav hget
    exact (resolvable_iff h id).2 (howned id (by rw [InProgress, hget]; rfl))

/-- Every navigation that the handler keeps can be resolved, all through a run, just when each input of the run heeds what it takes. -/
theorem navigations_resolvable_iff (driver : Driver) (config : HandlerConfig)
    (inputs : List HandlerInput) :
    Run.Always (step driver) NavigationsResolvable (new config) inputs ↔
      Run.Allowed (step driver) (Keeps driver) (new config) inputs := by
  have hproperty : NavigationsResolvable = NoOrphan :=
    funext fun h => propext (navigationsResolvable_iff h)
  rw [hproperty]
  exact Run.always_iff_allowed (fun _ _ => True) (fun _ _ _ _ => trivial)
    (fun h input _ _ howned => step_noOrphan_iff howned driver input) trivial (noOrphan_new config)

/-! ### A target that is gone too soon -/

/-- Some owner has the navigation. -/
def hasOwner (h : Handler) (id : NavigationId) : Bool :=
  (h.pendingCommands.values.any fun entry => entry.1.navigationId? = some id) ||
    h.targets.values.any fun target => id ∈ target.navigationIds

theorem hasOwner_iff (h : Handler) (id : NavigationId) :
    h.hasOwner id = true ↔ ∃ owner, h.owns owner id := by
  simp only [hasOwner, Bool.or_eq_true, List.any_eq_true, Table.mem_values, decide_eq_true_eq]
  constructor
  · rintro (⟨entry, ⟨call, hget⟩, hid⟩ | ⟨target, ⟨targetId, hget⟩, hid⟩)
    · exact ⟨.call call, by rw [owns, awaited, hget]; exact hid⟩
    · exact ⟨.target targetId, by rw [owns, navigationIds, held, hget]; exact hid⟩
  · rintro ⟨owner, howner⟩
    cases owner with
    | call call =>
      rw [owns, awaited, Option.bind_eq_some_iff] at howner
      obtain ⟨entry, hget, hid⟩ := howner
      exact Or.inl ⟨entry, ⟨call, hget⟩, hid⟩
    | target targetId =>
      rw [owns, navigationIds, held] at howner
      split at howner
      · rename_i target hget
        exact Or.inr ⟨target, ⟨targetId, hget⟩, howner⟩
      · cases howner

instance (h : Handler) : Decidable h.NavigationsResolvable :=
  decidable_of_iff (∀ id ∈ h.navigations.keys, h.hasOwner id = true) (by
    rw [navigationsResolvable_iff]
    simp only [Table.mem_keys, hasOwner_iff]
    refine forall_congr' fun id => ?_
    rw [InProgress, Option.isSome_iff_exists])

/-- The browser answers `Page.navigate` and destroys the target before the page has loaded. Nothing is left that could answer the caller: not even a timeout of a later tick does. -/
theorem destroyed_target_orphans :
    ¬ Run.Always (step .stream) NavigationsResolvable (new plainConfig)
      (openPage ++ gotoPage ++
        [.response plainEnv (plainResponse 11),
          .event plainEnv ⟨.targetTargetDestroyed plainTarget, none⟩, .evict 1000000000000]) := by
  intro halways
  have hlast := halways.last
  revert hlast
  decide +kernel

end Handler

end SpiderChrome
