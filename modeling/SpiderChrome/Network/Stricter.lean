import SpiderChrome.Network.Decision

/-!
# One more block

Two managers that differ in the flags that block. With more of the flags on, every check that found fault with a request still does, and nothing more is rescued, except by the legacy rule for stylesheets: it only looks at requests while `block_stylesheets` is on, and then also saves what another check has blocked.
-/

namespace SpiderChrome

namespace NetworkManager

variable {nm nm' : NetworkManager}

/-- The second manager has more blocks switched on and is like the first in everything else; of `block_prefetch` nothing is said. -/
structure Stricter (nm nm' : NetworkManager) : Prop where
  rest : nm' = { nm with
    ignoreVisuals := nm'.ignoreVisuals
    blockStylesheets := nm'.blockStylesheets
    blockJavascript := nm'.blockJavascript
    blockAnalytics := nm'.blockAnalytics
    blockPrefetch := nm'.blockPrefetch
    onlyHtml := nm'.onlyHtml }
  ignoreVisuals : nm.ignoreVisuals = true → nm'.ignoreVisuals = true
  blockStylesheets : nm.blockStylesheets = true → nm'.blockStylesheets = true
  blockJavascript : nm.blockJavascript = true → nm'.blockJavascript = true
  blockAnalytics : nm.blockAnalytics = true → nm'.blockAnalytics = true
  onlyHtml : nm.onlyHtml = true → nm'.onlyHtml = true

namespace Stricter

theorem tracked (h : Stricter nm nm') (event : EventRequestPaused) :
    Stricter (nm.tracked event).1 (nm'.tracked event).1 ∧
      (nm'.tracked event).2 = (nm.tracked event).2 := by
  have hrest := h.rest
  obtain ⟨-, hvisuals, hstylesheets, hjavascript, hanalytics, hhtml⟩ := h
  rw [hrest]
  unfold NetworkManager.tracked handleDocumentReplacementAndTracking
  split
  · exact ⟨⟨rfl, hvisuals, hstylesheets, hjavascript, hanalytics, hhtml⟩, rfl⟩
  · exact ⟨⟨rfl, hvisuals, hstylesheets, hjavascript, hanalytics, hhtml⟩, rfl⟩

theorem isStrictlyBlacklisted (h : Stricter nm nm') (url : String) :
    nm'.isStrictlyBlacklisted url = nm.isStrictlyBlacklisted url := by
  rw [h.rest]
  rfl

theorem shouldSkipForVisualsAndBasic (h : Stricter nm nm') (resourceType : ResourceType)
    (hskip : nm.shouldSkipForVisualsAndBasic resourceType = true) :
    nm'.shouldSkipForVisualsAndBasic resourceType = true := by
  simp only [NetworkManager.shouldSkipForVisualsAndBasic, Bool.or_eq_true, Bool.and_eq_true]
    at hskip ⊢
  exact hskip.imp (And.imp_left h.ignoreVisuals) (And.imp_left h.blockStylesheets)

theorem shouldBlockScriptBlocklistOnly (h : Stricter nm nm') (blockers : Blockers) (url : String)
    (hblock : nm.shouldBlockScriptBlocklistOnly blockers url = true) :
    nm'.shouldBlockScriptBlocklistOnly blockers url = true := by
  unfold NetworkManager.shouldBlockScriptBlocklistOnly at hblock ⊢
  simp only [Bool.or_eq_true, Bool.and_eq_true] at hblock ⊢
  refine hblock.imp (Or.imp_left (And.imp_left h.blockAnalytics)) fun hpath => ?_
  split at hpath
  · simp only [Bool.or_eq_true, Bool.and_eq_true] at hpath ⊢
    have hanalytics : ∀ {p : Prop}, nm.blockAnalytics = true ∧ p → nm'.blockAnalytics = true ∧ p :=
      And.imp_left h.blockAnalytics
    exact hpath.imp (Or.imp_left (Or.imp (Or.imp hanalytics hanalytics) hanalytics))
      (And.imp_left h.ignoreVisuals)
  · cases hpath

theorem isBlockedAsset (h : Stricter nm nm') (url : List Char)
    (hblock : nm.isBlockedAsset url = true) : nm'.isBlockedAsset url = true := by
  unfold NetworkManager.isBlockedAsset at hblock ⊢
  split at hblock
  · split at hblock
    · rename_i hlong
      rw [if_pos hlong]
      rw [ite_true_eq] at hblock ⊢
      simp only [Bool.or_eq_true, Bool.and_eq_true] at hblock ⊢
      exact hblock.imp (And.imp_left h.blockStylesheets) (And.imp_left h.ignoreVisuals)
    · cases hblock
  · cases hblock

theorem skipXhr (h : Stricter nm nm') (blockers : Blockers) (event : EventRequestPaused)
    (networkEvent : Bool) (hskip : nm.skipXhr blockers false event networkEvent = true) :
    nm'.skipXhr blockers false event networkEvent = true := by
  unfold NetworkManager.skipXhr at hskip ⊢
  cases networkEvent with
  | false => cases hskip
  | true =>
    simp only [Bool.not_false, Bool.and_true, if_true] at hskip ⊢
    split at hskip
    · rename_i hanalytics
      rw [Bool.and_eq_true] at hanalytics
      rw [h.blockAnalytics hanalytics.1, hanalytics.2]
      rfl
    · split at hskip
      · rename_i hassets
        split
        · rfl
        · simp only [Bool.or_eq_true] at hassets hskip
          have hassets' : (nm'.blockStylesheets || nm'.ignoreVisuals) = true :=
            Bool.or_eq_true_iff.2 (hassets.imp h.blockStylesheets h.ignoreVisuals)
          rw [if_pos hassets', Bool.or_eq_true]
          exact hskip.imp_left (h.isBlockedAsset _)
      · cases hskip

theorem faulty (h : Stricter nm nm') (blockers : Blockers) (event : EventRequestPaused)
    (url : String) (hadReplacer : Bool)
    (hintercept : ∀ url data, nm.interceptManager.interceptDetection url nm'.ignoreVisuals data =
      nm.interceptManager.interceptDetection url nm.ignoreVisuals data)
    (hfaulty : nm.faulty blockers event url hadReplacer = true) :
    nm'.faulty blockers event url hadReplacer = true := by
  have hasset := h.skipXhr blockers event
    (!decide (event.resourceType = .document) && isDataResource event.resourceType)
  have hscript := h.shouldBlockScriptBlocklistOnly blockers url
  have hvisual := h.shouldSkipForVisualsAndBasic event.resourceType
  have hsame : nm'.blacklistStrict = nm.blacklistStrict ∧
      nm'.isBlacklisted url = nm.isBlacklisted url ∧ nm'.xmlDocument = nm.xmlDocument ∧
      nm'.isMainDocumentRequest event hadReplacer = nm.isMainDocumentRequest event hadReplacer ∧
      nm'.detectAd blockers event = nm.detectAd blockers event ∧
      nm'.interceptManager = nm.interceptManager := by
    rw [h.rest]
    exact ⟨rfl, rfl, rfl, rfl, rfl, rfl⟩
  obtain ⟨hstrict, hblack, hxml, hmain, had, hmanager⟩ := hsame
  unfold NetworkManager.faulty at hfaulty ⊢
  rw [hstrict, hblack, hxml, hmain, had, hmanager]
  simp only [Bool.or_eq_true, Bool.and_eq_true] at hfaulty ⊢
  rw [hintercept]
  have hembedded : ∀ {p q : Prop},
      ((nm.blockJavascript = true ∧ (nm.onlyHtml = true ∨ nm.ignoreVisuals = true)) ∧ p) ∧ q →
        ((nm'.blockJavascript = true ∧ (nm'.onlyHtml = true ∨ nm'.ignoreVisuals = true)) ∧ p) ∧ q :=
    And.imp_left (And.imp_left (And.imp h.blockJavascript (Or.imp h.onlyHtml h.ignoreVisuals)))
  exact hfaulty.imp_left (Or.imp_left (Or.imp (Or.imp (Or.imp (Or.imp_left (Or.imp_right
    (And.imp_right hvisual))) hembedded) (And.imp_right hscript)) hasset))

/-- Nothing more is rescued, but for the stylesheets of the legacy rule. -/
theorem rescued (h : Stricter nm nm') (event : EventRequestPaused) (url : String)
    (initiatorType : Option InitiatorType)
    (hlegacy : nm'.blockStylesheets = true → nm.isLegacyStylesheet event initiatorType = true →
      nm.blockStylesheets = true)
    (hrescued : nm'.rescued event url initiatorType = true) :
    nm.rescued event url initiatorType = true := by
  have hsame : nm'.isWhitelisted url = nm.isWhitelisted url ∧
      nm'.isFirstPartyAllowed event url = nm.isFirstPartyAllowed event url ∧
      nm'.isLegacyStylesheet event initiatorType = nm.isLegacyStylesheet event initiatorType := by
    rw [h.rest]
    exact ⟨rfl, rfl, rfl⟩
  obtain ⟨hwhite, hfirst, hstylesheet⟩ := hsame
  unfold NetworkManager.rescued at hrescued ⊢
  rw [hwhite, hfirst, hstylesheet] at hrescued
  simp only [Bool.or_eq_true, Bool.and_eq_true] at hrescued ⊢
  exact hrescued.imp_right fun hrule => ⟨hlegacy hrule.1 hrule.2, hrule.2⟩

theorem skipStatic (h : Stricter nm nm') {event : EventRequestPaused}
    (hprefetch : event.resourceType = .prefetch → nm'.blockPrefetch = nm.blockPrefetch) :
    nm'.skipStatic event = nm.skipStatic event := by
  have hsame : nm'.blockAll = nm.blockAll ∧ nm'.documentReloadTracker = nm.documentReloadTracker := by
    rw [h.rest]
    exact ⟨rfl, rfl⟩
  unfold NetworkManager.skipStatic
  rw [hsame.1, hsame.2]
  by_cases htype : event.resourceType = .prefetch
  · rw [hprefetch htype]
  · simp only [htype, false_and, if_false]

theorem decision (h : Stricter nm nm') (blockers : Blockers) {event : EventRequestPaused}
    (hprefetch : event.resourceType = .prefetch → nm'.blockPrefetch = nm.blockPrefetch)
    (hlegacy : nm'.blockStylesheets = true →
      nm.isLegacyStylesheet event (nm.pausedInitiator event) = true →
      nm.blockStylesheets = true ∨ nm.isStrictlyBlacklisted (nm.effectiveUrl event) = true)
    (hintercept : ∀ url data, nm.interceptManager.interceptDetection url nm'.ignoreVisuals data =
      nm.interceptManager.interceptDetection url nm.ignoreVisuals data)
    (hdecision : nm.decision blockers event = true) : nm'.decision blockers event = true := by
  obtain ⟨htracked, hreplacer⟩ := h.tracked event
  have hurl : nm'.effectiveUrl event = nm.effectiveUrl event := by
    rw [effectiveUrl, effectiveUrl, hreplacer]
  have hinitiator : nm'.pausedInitiator event = nm.pausedInitiator event := by
    rw [h.rest]
    rfl
  have hstylesheets : (nm'.tracked event).1.blockStylesheets = nm'.blockStylesheets ∧
      (nm.tracked event).1.blockStylesheets = nm.blockStylesheets := by
    rw [nm'.tracked_eq, nm.tracked_eq]
    exact ⟨rfl, rfl⟩
  have hdetected : ∀ url data, (nm.tracked event).1.interceptManager.interceptDetection url
      (nm'.tracked event).1.ignoreVisuals data =
        (nm.tracked event).1.interceptManager.interceptDetection url
          (nm.tracked event).1.ignoreVisuals data := by
    rw [nm'.tracked_eq, nm.tracked_eq]
    exact hintercept
  have hlegacy' : (nm.tracked event).1.isLegacyStylesheet event (nm.pausedInitiator event) =
      nm.isLegacyStylesheet event (nm.pausedInitiator event) := by
    rw [nm.tracked_eq]
    rfl
  rw [decision_eq, htracked.isStrictlyBlacklisted, hurl, hreplacer, hinitiator,
    h.skipStatic hprefetch, tracked_isStrictlyBlacklisted]
  rw [decision_eq, tracked_isStrictlyBlacklisted] at hdecision
  cases hstrict : nm.isStrictlyBlacklisted (nm.effectiveUrl event) with
  | true => rfl
  | false =>
    simp only [hstrict, Bool.false_or, Bool.and_eq_true, Bool.or_eq_true, Bool.not_eq_true']
      at hdecision ⊢
    obtain ⟨hfound, hrescued⟩ := hdecision
    refine ⟨hfound.imp_right (htracked.faulty blockers event _ _ hdetected), ?_⟩
    by_contra hrescued'
    rw [Bool.not_eq_false] at hrescued'
    refine Bool.noConfusion (hrescued.symm.trans (htracked.rescued event _ _ ?_ hrescued'))
    rw [hstylesheets.1, hstylesheets.2, hlegacy']
    intro hon hrule
    exact (hlegacy hon hrule).resolve_right (by simp [hstrict])

end Stricter

/-- The flags that block. -/
inductive BlockFlag where
  | ignoreVisuals | blockStylesheets | blockJavascript | blockAnalytics | blockPrefetch | onlyHtml
deriving DecidableEq

def switch (nm : NetworkManager) : BlockFlag → Bool → NetworkManager
  | .ignoreVisuals, on => { nm with ignoreVisuals := on }
  | .blockStylesheets, on => { nm with blockStylesheets := on }
  | .blockJavascript, on => { nm with blockJavascript := on }
  | .blockAnalytics, on => { nm with blockAnalytics := on }
  | .blockPrefetch, on => { nm with blockPrefetch := on }
  | .onlyHtml, on => { nm with onlyHtml := on }

theorem stricter_switch (nm : NetworkManager) (flag : BlockFlag) :
    Stricter (nm.switch flag false) (nm.switch flag true) := by
  cases flag <;> exact ⟨rfl, by simp [switch], by simp [switch], by simp [switch], by simp [switch],
    by simp [switch]⟩

theorem effectiveUrl_switch (nm : NetworkManager) (flag : BlockFlag) (on : Bool)
    (event : EventRequestPaused) :
    (nm.switch flag on).effectiveUrl event = nm.effectiveUrl event := by
  unfold effectiveUrl tracked handleDocumentReplacementAndTracking
  split
  · cases flag <;> rfl
  · rfl

/-- A request that is blocked with a flag off is blocked with the flag on, but for a stylesheet that the legacy rule saves once `block_stylesheets` is on; of prefetches and `block_prefetch` nothing is said. -/
theorem blocked_of_switched_on (nm : NetworkManager) (blockers : Blockers) (cache : SessionCache)
    (now systemNow : Instant) (event : EventRequestPaused) (flag : BlockFlag)
    (hprefetch : flag = .blockPrefetch → event.resourceType ≠ .prefetch)
    (hlegacy : flag = .blockStylesheets →
      nm.isLegacyStylesheet event (nm.pausedInitiator event) = true →
      nm.blockAll = true ∨ nm.isStrictlyBlacklisted (nm.effectiveUrl event) = true)
    (hintercept : ∀ url data,
      nm.interceptManager.interceptDetection url (nm.switch flag true).ignoreVisuals data =
        nm.interceptManager.interceptDetection url (nm.switch flag false).ignoreVisuals data)
    (hblocked : Blocked event.requestId (nm.switch flag false)
      ((nm.switch flag false).onFetchRequestPaused blockers cache now systemNow event)) :
    Blocked event.requestId (nm.switch flag true)
      ((nm.switch flag true).onFetchRequestPaused blockers cache now systemNow event) := by
  rw [onFetchRequestPaused_blocked_iff] at hblocked ⊢
  obtain ⟨huser, hfound⟩ := hblocked
  have hsame : (nm.switch flag true).userRequestInterceptionEnabled =
        (nm.switch flag false).userRequestInterceptionEnabled ∧
      (nm.switch flag true).protocolRequestInterceptionEnabled =
        (nm.switch flag false).protocolRequestInterceptionEnabled ∧
      (nm.switch flag true).blockAll = (nm.switch flag false).blockAll := by
    cases flag <;> exact ⟨rfl, rfl, rfl⟩
  rw [hsame.1, hsame.2.1, hsame.2.2]
  refine ⟨huser, ?_⟩
  cases hall : (nm.switch flag false).blockAll with
  | true => exact .inl rfl
  | false =>
    rw [hall] at hfound
    refine .inr ((nm.stricter_switch flag).decision blockers ?_ ?_ ?_
      (hfound.resolve_left Bool.false_ne_true))
    · intro htype
      cases flag with
      | blockPrefetch => exact absurd htype (hprefetch rfl)
      | _ => rfl
    · cases flag with
      | blockStylesheets =>
        intro _ hrule
        rw [effectiveUrl_switch]
        refine .inr ((hlegacy rfl hrule).resolve_left fun hblock => ?_)
        exact Bool.noConfusion ((show nm.blockAll = false from hall).symm.trans hblock)
      | _ => exact fun hon _ => .inl hon
    · cases flag <;> exact hintercept

/-- A stylesheet on the list of ads is let through once stylesheets are blocked, and a prefetch once prefetches are. -/
theorem let_through_by_switching_on :
    let sheet := pausedRequest "https://ads.example/a.css" .stylesheet
    let prefetch := pausedRequest "https://example.org/next" .prefetch
    let ads : Blockers := { Blockers.none with blockAds := fun url => url = "https://ads.example/a.css" }
    let paused := fun (nm : NetworkManager) blockers event =>
      nm.onFetchRequestPaused blockers (fun _ _ => none) 0 0 event
    (Blocked sheet.requestId ((new false 0).switch .blockStylesheets false)
        (paused ((new false 0).switch .blockStylesheets false) ads sheet) ∧
      ¬ Blocked sheet.requestId ((new false 0).switch .blockStylesheets true)
        (paused ((new false 0).switch .blockStylesheets true) ads sheet)) ∧
    Blocked prefetch.requestId ((new false 0).switch .blockPrefetch false)
        (paused ((new false 0).switch .blockPrefetch false) .none prefetch) ∧
      ¬ Blocked prefetch.requestId ((new false 0).switch .blockPrefetch true)
        (paused ((new false 0).switch .blockPrefetch true) .none prefetch) := by
  intro sheet prefetch ads paused
  simp only [paused, onFetchRequestPaused_blocked_iff]
  decide +kernel

/-- An image, which is blocked with visuals ignored and stays blocked when only html is wanted. -/
theorem blocked_of_switched_on_image :
    let image := pausedRequest "https://cdn.example/a.png" .image
    let nm : NetworkManager := { new false 0 with ignoreVisuals := true }
    Blocked image.requestId (nm.switch .onlyHtml true)
      ((nm.switch .onlyHtml true).onFetchRequestPaused .none (fun _ _ => none) 0 0 image) := by
  intro image nm
  refine blocked_of_switched_on nm .none (fun _ _ => none) 0 0 image .onlyHtml (by decide)
    (by decide) (fun _ _ => rfl) ?_
  rw [onFetchRequestPaused_blocked_iff]
  decide +kernel

end NetworkManager

end SpiderChrome
