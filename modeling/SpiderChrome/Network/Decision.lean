import SpiderChrome.Network.Answer

/-!
# What is blocked

The decision about a paused request sets and clears one flag over some twenty lines. Read as a formula it is short: a request is skipped if it is on a strict blacklist, or if one of the checks finds fault with it and nothing rescues it. `decision_eq` is that formula. The precedence of the user's lists can be read off it.
-/

namespace SpiderChrome

/-- The command answers a paused request without letting it through: it fails it, or fulfils it without a body. -/
def NetworkCommand.blocks (requestId : Fetch.RequestId) : NetworkCommand → Bool
  | failRequest id => id = requestId
  | fulfillRequest id _ none none => id = requestId
  | _ => false

def NetworkEvent.blocks (requestId : Fetch.RequestId) : NetworkEvent → Bool
  | sendCdpRequest command => command.blocks requestId
  | _ => false

namespace NetworkManager

/-- The queue of the second manager continues that of the first, and a command that blocks the request is among what is new. -/
def Blocked (requestId : Fetch.RequestId) (nm nm' : NetworkManager) : Prop :=
  ∃ added, nm'.queuedEvents = nm.queuedEvents ++ added ∧
    ∃ event ∈ added, event.blocks requestId = true

/-! ### The decision as a function of the manager -/

/-- The initiator of the request, as far as it was announced. -/
def pausedInitiator (nm : NetworkManager) (event : EventRequestPaused) : Option InitiatorType :=
  (event.networkId.bind nm.requestsWillBeSent.get).map fun (rwbs, _) => rwbs.initiatorType

/-- The manager that has tracked the document, and the url that stands for the request's own. -/
def tracked (nm : NetworkManager) (event : EventRequestPaused) : NetworkManager × Option String :=
  nm.handleDocumentReplacementAndTracking event (decide (event.resourceType = .document))

/-- The url that the checks look at. -/
def effectiveUrl (nm : NetworkManager) (event : EventRequestPaused) : String :=
  (nm.tracked event).2.getD event.request.url

/-- Whether a paused request is skipped. -/
def decision (nm : NetworkManager) (blockers : Blockers) (event : EventRequestPaused) : Bool :=
  let url := nm.effectiveUrl event
  (nm.tracked event).1.skipRescued event url (nm.pausedInitiator event)
    ((nm.tracked event).1.skipBlocked blockers event url (nm.tracked event).2.isSome
      (nm.skipStatic event))

/-! ### Bookkeeping -/

/-- The second manager is the first but for its books: the queue, the tables of requests and the attempted authentications. -/
def SameSettings (nm nm' : NetworkManager) : Prop :=
  nm' = { nm with
    queuedEvents := nm'.queuedEvents
    requests := nm'.requests
    requestsWillBeSent := nm'.requestsWillBeSent
    requestIdToInterceptionId := nm'.requestIdToInterceptionId
    attemptedAuthentications := nm'.attemptedAuthentications }

variable {nm nm' nm'' : NetworkManager}

theorem SameSettings.refl (nm : NetworkManager) : SameSettings nm nm := rfl

theorem SameSettings.trans (h : SameSettings nm nm')
    (h' : SameSettings nm' nm'') : SameSettings nm nm'' := by
  rw [SameSettings] at h h' ⊢
  rw [h', h]

theorem SameSettings.skipStatic (h : SameSettings nm nm') (event : EventRequestPaused) :
    nm'.skipStatic event = nm.skipStatic event := by
  rw [h]
  rfl

theorem SameSettings.skipBlocked (h : SameSettings nm nm') (blockers : Blockers)
    (event : EventRequestPaused) (url : String) (hadReplacer skip : Bool) :
    nm'.skipBlocked blockers event url hadReplacer skip =
      nm.skipBlocked blockers event url hadReplacer skip := by
  rw [h]
  rfl

theorem SameSettings.skipRescued (h : SameSettings nm nm') (event : EventRequestPaused)
    (url : String) (initiatorType : Option InitiatorType) (skip : Bool) :
    nm'.skipRescued event url initiatorType skip = nm.skipRescued event url initiatorType skip := by
  rw [h]
  rfl

theorem SameSettings.tracked (h : SameSettings nm nm') (event : EventRequestPaused) :
    SameSettings (nm.tracked event).1 (nm'.tracked event).1 ∧
      (nm'.tracked event).2 = (nm.tracked event).2 := by
  rw [h]
  unfold NetworkManager.tracked handleDocumentReplacementAndTracking
  split
  · exact ⟨rfl, rfl⟩
  · exact ⟨rfl, rfl⟩

theorem sameSettings_takeRedirectChain (nm : NetworkManager) (event : EventRequestWillBeSent) :
    SameSettings nm (nm.takeRedirectChain event).1 := by
  unfold takeRedirectChain
  split
  · rfl
  · split
    · rfl
    · rfl

theorem sameSettings_onRequest (nm : NetworkManager) (now : Instant)
    (event : EventRequestWillBeSent) (interceptionId : Option Network.InterceptionId) :
    SameSettings nm (nm.onRequest now event interceptionId) := by
  refine (nm.sameSettings_takeRedirectChain event).trans ?_
  simp only [onRequest]
  split
  · rfl
  · rfl

theorem sameSettings_reconcilePaused (nm : NetworkManager) (now : Instant)
    (event : EventRequestPaused) : SameSettings nm (nm.reconcilePaused now event) := by
  unfold reconcilePaused
  split
  · split
    · exact (show SameSettings nm { nm with requestsWillBeSent := _ } from rfl).trans
        (sameSettings_onRequest _ now _ _)
    · rfl
  · exact .refl nm

/-- A request that the manager has to answer, and does not fail at once, is answered as decided. -/
theorem onFetchRequestPaused_of_open (nm : NetworkManager) (blockers : Blockers)
    (cache : SessionCache) (now systemNow : Instant) (event : EventRequestPaused)
    (huser : (nm.userRequestInterceptionEnabled && nm.protocolRequestInterceptionEnabled) = false)
    (hblock : nm.blockAll = false) :
    nm.onFetchRequestPaused blockers cache now systemNow event =
      ((nm.reconcilePaused now event).tracked event).1.answerPaused cache systemNow event
        (nm.tracked event).2 (nm.decision blockers event) := by
  have hsame := nm.sameSettings_reconcilePaused now event
  obtain ⟨htracked, hreplacer⟩ := hsame.tracked event
  simp only [onFetchRequestPaused, huser, hblock, Bool.false_eq_true, if_false]
  simp only [tracked] at htracked hreplacer
  rw [htracked.skipBlocked, htracked.skipRescued, hsame.skipStatic, hreplacer]
  rfl

/-! ### The decision as a formula -/

/-- The request is the one that the page itself was asked for. -/
def isMainDocumentRequest (nm : NetworkManager) (event : EventRequestPaused) (hadReplacer : Bool) :
    Bool :=
  decide (event.resourceType = .document) &&
    (event.redirectedRequestId.isSome || hadReplacer || decide (nm.documentTargetUrl = "") ||
      decide (event.request.url = nm.documentTargetUrl))

def isStrictlyBlacklisted (nm : NetworkManager) (url : String) : Bool :=
  nm.blacklistStrict && nm.isBlacklisted url

/-- One of the checks after the document was tracked finds fault with the request. -/
def faulty (nm : NetworkManager) (blockers : Blockers) (event : EventRequestPaused) (url : String)
    (hadReplacer : Bool) : Bool :=
  let javascriptResource := decide (event.resourceType = .script)
  let documentResource := decide (event.resourceType = .document)
  let networkResource := !documentResource && isDataResource event.resourceType
  !nm.blacklistStrict && nm.isBlacklisted url ||
    !(nm.xmlDocument && ".xsl".toList.isSuffixOf url.toList) &&
      nm.shouldSkipForVisualsAndBasic event.resourceType ||
    !nm.isMainDocumentRequest event hadReplacer &&
      (blockers.blockAds event.request.url || nm.detectAd blockers event) ||
    nm.blockJavascript && (nm.onlyHtml || nm.ignoreVisuals) &&
      (javascriptResource || documentResource || decide (event.resourceType = .stylesheet) ||
        decide (event.resourceType = .image)) && blockers.ignoreScriptEmbedded url ||
    javascriptResource && nm.shouldBlockScriptBlocklistOnly blockers url ||
    nm.skipXhr blockers false event networkResource ||
    (javascriptResource || networkResource || documentResource) &&
      nm.interceptManager.interceptDetection url nm.ignoreVisuals networkResource ||
    (javascriptResource || networkResource) && blockers.blockWebsite url

/-- A stylesheet that the legacy rule lets through, unless it is known that a script asked for it. -/
def isLegacyStylesheet (nm : NetworkManager) (event : EventRequestPaused)
    (initiatorType : Option InitiatorType) : Bool :=
  nm.allowFirstPartyStylesheets && decide (event.resourceType = .stylesheet) &&
    decide (initiatorType ≠ some .script)

def isFirstPartyAllowed (nm : NetworkManager) (event : EventRequestPaused) (url : String) : Bool :=
  decide (nm.documentTargetDomain ≠ "") &&
    (if event.resourceType = .stylesheet then nm.allowFirstPartyStylesheets
      else if event.resourceType = .script then nm.allowFirstPartyJavascript
      else if event.resourceType.asRef ∈ ignoreVisualResourceMap then nm.allowFirstPartyVisuals
      else false) &&
    nm.isFirstPartyUrl url

/-- One of the rules rescues the request. -/
def rescued (nm : NetworkManager) (event : EventRequestPaused) (url : String)
    (initiatorType : Option InitiatorType) : Bool :=
  decide (event.resourceType = .script) && isMatch jsFrameworkAllow3rdParty url ||
    nm.isWhitelisted url || nm.isFirstPartyAllowed event url ||
    nm.blockStylesheets && nm.isLegacyStylesheet event initiatorType

theorem ite_true_eq (skip found : Bool) : (if found then true else skip) = (skip || found) := by
  cases skip <;> cases found <;> rfl

theorem ite_clear_eq (skip found : Bool) : (if !skip then found else skip) = (skip || found) := by
  cases skip <;> rfl

theorem ite_clear_and_eq (skip looked found : Bool) :
    (if !skip && looked then found else skip) = (skip || looked && found) := by
  cases skip <;> cases looked <;> rfl

theorem ite_rescue_eq (skip rescue : Bool) :
    (if skip && rescue then false else skip) = (skip && !rescue) := by
  cases skip <;> cases rescue <;> rfl

theorem detectAdIfEnabled_eq (nm : NetworkManager) (blockers : Blockers)
    (event : EventRequestPaused) (skip : Bool) :
    nm.detectAdIfEnabled blockers event skip =
      (skip || (blockers.blockAds event.request.url || nm.detectAd blockers event)) := by
  cases skip <;> rfl

theorem skipXhr_eq (nm : NetworkManager) (blockers : Blockers) (skip : Bool)
    (event : EventRequestPaused) (networkEvent : Bool) :
    nm.skipXhr blockers skip event networkEvent =
      (skip || nm.skipXhr blockers false event networkEvent) := by
  cases skip <;> rfl

theorem skipBlocked_eq (nm : NetworkManager) (blockers : Blockers) (event : EventRequestPaused)
    (url : String) (hadReplacer skip : Bool) :
    nm.skipBlocked blockers event url hadReplacer skip =
      (skip || nm.faulty blockers event url hadReplacer) := by
  unfold skipBlocked faulty isMainDocumentRequest
  extract_lets javascriptResource documentResource networkResource skip₁ skip₂ main skip₃ skip₄
    skip₅ skip₆ skip₇
  have h₁ : skip₁ = (skip || !nm.blacklistStrict && nm.isBlacklisted url) := ite_true_eq _ _
  have h₂ : skip₂ = (skip₁ || !(nm.xmlDocument && ".xsl".toList.isSuffixOf url.toList) &&
      nm.shouldSkipForVisualsAndBasic event.resourceType) := by
    refine (ite_clear_eq _ _).trans ?_
    cases nm.xmlDocument && ".xsl".toList.isSuffixOf url.toList with
    | true => rfl
    | false => rfl
  have h₃ : skip₃ = (skip₂ || !main &&
      (blockers.blockAds event.request.url || nm.detectAd blockers event)) := by
    refine (congrArg (fun found => if !main then found else skip₂)
      (nm.detectAdIfEnabled_eq blockers event skip₂)).trans ?_
    cases main with
    | true => exact (Bool.or_false _).symm
    | false => rfl
  have h₄ : skip₄ = (skip₃ || nm.blockJavascript && (nm.onlyHtml || nm.ignoreVisuals) &&
      (javascriptResource || documentResource || decide (event.resourceType = .stylesheet) ||
        decide (event.resourceType = .image)) && blockers.ignoreScriptEmbedded url) := by
    rw [← ite_clear_and_eq]
    simp only [skip₄, Bool.and_assoc]
  have h₅ : skip₅ = (skip₄ || javascriptResource && nm.shouldBlockScriptBlocklistOnly blockers url) :=
    ite_clear_and_eq _ _ _
  have h₆ : skip₆ = (skip₅ || nm.skipXhr blockers false event networkResource) :=
    nm.skipXhr_eq blockers skip₅ event networkResource
  have h₇ : skip₇ = (skip₆ || (javascriptResource || networkResource || documentResource) &&
      nm.interceptManager.interceptDetection url nm.ignoreVisuals networkResource) :=
    ite_clear_and_eq _ _ _
  have h₈ := ite_clear_and_eq skip₇ (javascriptResource || networkResource)
    (blockers.blockWebsite url)
  rw [h₈, h₇, h₆, h₅, h₄, h₃, h₂, h₁]
  simp only [main, Bool.or_assoc, Bool.and_assoc]
  rfl

theorem skipRescued_eq (nm : NetworkManager) (event : EventRequestPaused) (url : String)
    (initiatorType : Option InitiatorType) (skip : Bool) :
    nm.skipRescued event url initiatorType skip =
      (nm.isStrictlyBlacklisted url || skip && !nm.rescued event url initiatorType) := by
  unfold skipRescued rescued isFirstPartyAllowed isLegacyStylesheet
  extract_lets javascriptResource skip₁ skip₂ allow skip₃ skip₄
  have h₁ : skip₁ = (skip && !(javascriptResource && isMatch jsFrameworkAllow3rdParty url)) := by
    rw [← ite_rescue_eq]
    simp only [skip₁, Bool.and_assoc]
  have h₂ : skip₂ = (skip₁ && !nm.isWhitelisted url) := ite_rescue_eq _ _
  have h₃ : skip₃ = (skip₂ && !(decide (nm.documentTargetDomain ≠ "") && allow &&
      nm.isFirstPartyUrl url)) := by
    rw [← ite_rescue_eq]
    simp only [skip₃]
    cases skip₂ with
    | false => rfl
    | true =>
      cases decide (nm.documentTargetDomain ≠ "") with
      | false => rfl
      | true => rfl
  have h₄ : skip₄ = (skip₃ && !(nm.blockStylesheets && (nm.allowFirstPartyStylesheets &&
      decide (event.resourceType = .stylesheet) && decide (initiatorType ≠ some .script)))) := by
    rw [← ite_rescue_eq]
    simp only [skip₄, Bool.and_assoc, Bool.and_left_comm nm.blockStylesheets]
  refine (ite_true_eq skip₄ (nm.isStrictlyBlacklisted url)).trans ?_
  rw [Bool.or_comm, h₄, h₃, h₂, h₁]
  simp only [Bool.not_or, Bool.and_assoc]
  rfl

/-- A request is skipped if it is on the strict blacklist, or if it is found faulty and not rescued. -/
theorem decision_eq (nm : NetworkManager) (blockers : Blockers) (event : EventRequestPaused) :
    nm.decision blockers event =
      ((nm.tracked event).1.isStrictlyBlacklisted (nm.effectiveUrl event) ||
        (nm.skipStatic event || (nm.tracked event).1.faulty blockers event (nm.effectiveUrl event)
          (nm.tracked event).2.isSome) &&
        !(nm.tracked event).1.rescued event (nm.effectiveUrl event) (nm.pausedInitiator event)) := by
  simp only [decision, skipRescued_eq, skipBlocked_eq]

/-! ### The answer that blocks -/

variable {requestId : Fetch.RequestId}

theorem blocked_iff {added : List NetworkEvent}
    (h : nm'.queuedEvents = nm.queuedEvents ++ added) :
    Blocked requestId nm nm' ↔ ∃ event ∈ added, event.blocks requestId = true := by
  constructor
  · rintro ⟨added', hadded', hblocks⟩
    rw [h] at hadded'
    rwa [List.append_cancel_left hadded']
  · exact fun hblocks => ⟨added, h, hblocks⟩

theorem not_blocked_of_queuedEvents_eq (h : nm'.queuedEvents = nm.queuedEvents) :
    ¬ Blocked requestId nm nm' := by
  rw [blocked_iff (h.trans (List.append_nil _).symm)]
  simp

theorem answers_of_blocks {event : NetworkEvent} (h : event.blocks requestId = true) :
    event.answers requestId = true := by
  cases event with
  | sendCdpRequest command =>
    cases command with
    | fulfillRequest id status body headers =>
      cases body with
      | none =>
        cases headers with
        | none => exact h
        | some headers => cases h
      | some body => cases h
    | failRequest id => exact h
    | _ => cases h
  | _ => cases h

/-- Bookkeeping that is followed by one command. -/
theorem blocked_pushCdpRequest_iff (h : Answered requestId 0 nm nm') (command : NetworkCommand) :
    Blocked requestId nm (nm'.pushCdpRequest command) ↔ command.blocks requestId = true := by
  obtain ⟨added, hadded, hcount⟩ := h
  have hpushed : (nm'.pushCdpRequest command).queuedEvents =
      nm.queuedEvents ++ (added ++ [.sendCdpRequest command]) := by
    rw [← List.append_assoc, ← hadded]
    rfl
  rw [blocked_iff hpushed]
  constructor
  · rintro ⟨event, hmem, hblocks⟩
    rcases List.mem_append.1 hmem with hbook | hcommand
    · exact absurd (answers_of_blocks hblocks) (List.countP_eq_zero.1 hcount event hbook)
    · rwa [List.mem_singleton.1 hcommand] at hblocks
  · intro hblocks
    exact ⟨_, List.mem_append_right _ (List.mem_singleton_self _), hblocks⟩

/-- What is skipped is fulfilled without a body, and nothing else is. -/
theorem answerPaused_blocked_iff (event : EventRequestPaused)
    (h : Answered event.requestId 0 nm nm') (cache : SessionCache) (systemNow : Instant)
    (replacer : Option String) (skip : Bool) :
    Blocked event.requestId nm (nm'.answerPaused cache systemNow event replacer skip) ↔
      skip = true := by
  unfold answerPaused
  split
  · rename_i hskip
    refine (blocked_pushCdpRequest_iff h _).trans ?_
    simp [NetworkCommand.blocks, hskip]
  · rename_i hskip
    split
    · refine (blocked_pushCdpRequest_iff h _).trans ?_
      simp [NetworkCommand.blocks, hskip]
    · cases replacer with
      | none =>
        refine (blocked_pushCdpRequest_iff h _).trans ?_
        simp [NetworkCommand.blocks, hskip]
      | some url =>
        refine (blocked_pushCdpRequest_iff h _).trans ?_
        simp [NetworkCommand.blocks, hskip]

/-- A paused request is blocked if it is the manager's to answer, and everything is blocked or the decision is against it. -/
theorem onFetchRequestPaused_blocked_iff (nm : NetworkManager) (blockers : Blockers)
    (cache : SessionCache) (now systemNow : Instant) (event : EventRequestPaused) :
    Blocked event.requestId nm (nm.onFetchRequestPaused blockers cache now systemNow event) ↔
      (nm.userRequestInterceptionEnabled && nm.protocolRequestInterceptionEnabled) = false ∧
        (nm.blockAll = true ∨ nm.decision blockers event = true) := by
  cases huser : nm.userRequestInterceptionEnabled && nm.protocolRequestInterceptionEnabled with
  | true =>
    refine iff_of_false (not_blocked_of_queuedEvents_eq ?_) (by simp)
    simp only [onFetchRequestPaused, huser, if_true]
  | false =>
    cases hblock : nm.blockAll with
    | true =>
      simp only [onFetchRequestPaused, huser, hblock, Bool.false_eq_true, if_false, if_true,
        true_or, and_true, iff_true]
      exact (blocked_pushCdpRequest_iff (answered_of_queuedEvents_eq rfl) _).2
        (by simp [NetworkCommand.blocks])
    | false =>
      rw [nm.onFetchRequestPaused_of_open blockers cache now systemNow event huser hblock]
      have hbooks : Answered event.requestId 0 nm
          ((nm.reconcilePaused now event).tracked event).1 :=
        (nm.reconcilePaused_answered now event).trans (answered_of_queuedEvents_eq
          (handleDocumentReplacementAndTracking_queuedEvents _ _ _))
      simp [answerPaused_blocked_iff event hbooks]

/-! ### Precedence of the lists -/

/-- Tracking a document leaves everything but the document's own fields alone. -/
theorem tracked_eq (nm : NetworkManager) (event : EventRequestPaused) :
    (nm.tracked event).1 = { nm with
      documentReloadTracker := (nm.tracked event).1.documentReloadTracker
      xmlDocument := (nm.tracked event).1.xmlDocument
      documentTargetUrl := (nm.tracked event).1.documentTargetUrl
      documentTargetDomain := (nm.tracked event).1.documentTargetDomain } := by
  unfold tracked handleDocumentReplacementAndTracking
  split
  · rfl
  · rfl

@[simp] theorem tracked_isStrictlyBlacklisted (nm : NetworkManager) (event : EventRequestPaused)
    (url : String) :
    (nm.tracked event).1.isStrictlyBlacklisted url = nm.isStrictlyBlacklisted url := by
  rw [tracked_eq]
  rfl

@[simp] theorem tracked_isWhitelisted (nm : NetworkManager) (event : EventRequestPaused)
    (url : String) : (nm.tracked event).1.isWhitelisted url = nm.isWhitelisted url := by
  rw [tracked_eq]
  rfl

/-- With nothing in the way of the manager's answer, a strict blacklist blocks whatever it matches, and a whitelist lets through whatever it matches otherwise; no flag, other list, cache or rescue rule has a say in it. -/
theorem lists_take_precedence (nm : NetworkManager) (blockers : Blockers) (cache : SessionCache)
    (now systemNow : Instant) (event : EventRequestPaused)
    (huser : nm.userRequestInterceptionEnabled = false) (hblock : nm.blockAll = false) :
    (nm.isStrictlyBlacklisted (nm.effectiveUrl event) = true →
      Blocked event.requestId nm (nm.onFetchRequestPaused blockers cache now systemNow event)) ∧
    (nm.isWhitelisted (nm.effectiveUrl event) = true →
      nm.isStrictlyBlacklisted (nm.effectiveUrl event) = false →
      ¬ Blocked event.requestId nm (nm.onFetchRequestPaused blockers cache now systemNow event)) := by
  rw [onFetchRequestPaused_blocked_iff, huser, hblock, decision_eq, tracked_isStrictlyBlacklisted]
  constructor
  · intro hblack
    simp [hblack]
  · intro hwhite hblack
    have hrescued : (nm.tracked event).1.rescued event (nm.effectiveUrl event)
        (nm.pausedInitiator event) = true := by
      simp [rescued, hwhite]
    simp [hblack, hrescued]

/-- A request that is paused, with nothing announced before. -/
def pausedRequest (url : String) (resourceType : ResourceType) : EventRequestPaused where
  requestId := ⟨"1"⟩
  request := ⟨url, "GET", none⟩
  resourceType := resourceType
  networkId := none
  redirectedRequestId := none

/-- A url on both lists is blocked, and one on the whitelist only is not. -/
theorem lists_take_precedence_example :
    let script := fun url => pausedRequest url .script
    let nm : NetworkManager := { new false 0 with
      whitelistMatcher := some ["example.net"], blacklistMatcher := some ["evil.js"] }
    let paused := fun event => nm.onFetchRequestPaused .none (fun _ _ => none) 0 0 event
    Blocked ⟨"1"⟩ nm (paused (script "https://example.net/evil.js")) ∧
      ¬ Blocked ⟨"1"⟩ nm (paused (script "https://example.net/good.js")) := by
  intro script nm paused
  exact ⟨(lists_take_precedence nm .none (fun _ _ => none) 0 0
      (script "https://example.net/evil.js") rfl rfl).1 (by decide +kernel),
    (lists_take_precedence nm .none (fun _ _ => none) 0 0
      (script "https://example.net/good.js") rfl rfl).2 (by decide +kernel) (by decide +kernel)⟩

end NetworkManager

end SpiderChrome
