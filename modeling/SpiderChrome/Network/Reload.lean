import SpiderChrome.Library.Run
import SpiderChrome.Network.Input

/-!
# The reload guard

A page that keeps requesting its own document is stopped at the third repetition: from then on its documents are blocked, until the page is navigated and the count starts over. The count is a `u8` and goes on while documents are blocked, so a page that does not give up brings it back to zero with its 256th repetition, and has three more documents let through.
-/

namespace SpiderChrome

open Network

/-- What reaches a manager, with the calls that change what is known of the document. -/
inductive ReloadInput where
  | network (input : NetworkInput)
  | clearTargetDomain
  | setPageUrl (pageTargetUrl : String)

/-- A manager with the number of times that the document was requested again since the domain was last cleared. -/
structure Reloads where
  manager : NetworkManager
  count : Nat

namespace Reloads

def step (blockers : Blockers) (s : Reloads) : ReloadInput → Reloads
  | .network input =>
    { manager := s.manager.step blockers input
      count := if s.manager.repeatsDocument input then s.count + 1 else s.count }
  | .clearTargetDomain => ⟨s.manager.clearTargetDomain, 0⟩
  | .setPageUrl pageTargetUrl => ⟨s.manager.setPageUrl pageTargetUrl, s.count⟩

/-- The tracker is the number of reloads: it has not overflowed. -/
def Counts (s : Reloads) : Prop := s.manager.documentReloadTracker.toNat = s.count

/-- After the third reload every document that is paused is blocked, unless its url is on the whitelist. -/
def Guarded (blockers : Blockers) (s : Reloads) : ReloadInput → Prop
  | .network (.requestPaused cache now systemNow event) =>
    3 ≤ s.count → event.resourceType = .document →
      s.manager.isWhitelisted (s.manager.effectiveUrl event) = false →
      NetworkManager.Blocked event.requestId s.manager
        (s.manager.step blockers (.requestPaused cache now systemNow event))
  | _ => True

/-- The document is not requested again with the tracker at its limit. -/
def BelowLimit (s : Reloads) : ReloadInput → Prop
  | .network input => s.manager.repeatsDocument input = true → s.manager.documentReloadTracker ≠ 255
  | _ => True

/-- The user leaves the paused requests to the manager. -/
def Unattended (s : Reloads) : Prop := s.manager.userRequestInterceptionEnabled = false

/-! ### The decision -/

/-- A document is rescued by the whitelist alone. -/
theorem rescued_document {nm : NetworkManager} {event : EventRequestPaused}
    (hdocument : event.resourceType = .document) (url : String)
    (initiatorType : Option InitiatorType) :
    nm.rescued event url initiatorType = nm.isWhitelisted url := by
  simp [NetworkManager.rescued, NetworkManager.isFirstPartyAllowed,
    NetworkManager.isLegacyStylesheet, hdocument, ResourceType.asRef, ignoreVisualResourceMap]

theorem decision_of_reloaded {nm : NetworkManager} (blockers : Blockers) {event : EventRequestPaused}
    (htracker : 3 ≤ nm.documentReloadTracker) (hdocument : event.resourceType = .document)
    (hwhitelist : nm.isWhitelisted (nm.effectiveUrl event) = false) :
    nm.decision blockers event = true := by
  have hstatic : nm.skipStatic event = true := by
    cases hblock : nm.blockAll <;>
      simp [NetworkManager.skipStatic, hdocument, htracker, hblock, ResourceType.asRef,
        ignoreNetworkingResourceMap]
  rw [NetworkManager.decision_eq, rescued_document hdocument, NetworkManager.tracked_isWhitelisted,
    hwhitelist, hstatic]
  simp

/-! ### A step -/

theorem three_le_of_counts {s : Reloads} (hcounts : s.Counts) (h : 3 ≤ s.count) :
    3 ≤ s.manager.documentReloadTracker := by
  rw [UInt8.le_iff_toNat_le, hcounts]
  exact h

theorem guarded_of_counts (blockers : Blockers) {s : Reloads} (hunattended : s.Unattended)
    (hcounts : s.Counts) (input : ReloadInput) : s.Guarded blockers input := by
  cases input with
  | network input =>
    cases input with
    | requestPaused cache now systemNow event =>
      intro hcount hdocument hwhitelist
      refine (NetworkManager.onFetchRequestPaused_blocked_iff _ _ _ _ _ _).2 ⟨?_, .inr ?_⟩
      · rw [show s.manager.userRequestInterceptionEnabled = false from hunattended, Bool.false_and]
      · exact decision_of_reloaded blockers (three_le_of_counts hcounts hcount) hdocument hwhitelist
    | _ => trivial
  | _ => trivial

theorem setPageUrl_same (nm : NetworkManager) (pageTargetUrl : String) :
    (nm.setPageUrl pageTargetUrl).documentReloadTracker = nm.documentReloadTracker ∧
      (nm.setPageUrl pageTargetUrl).userRequestInterceptionEnabled =
        nm.userRequestInterceptionEnabled := by
  unfold NetworkManager.setPageUrl NetworkManager.emitRequestPolicy
  split
  · exact ⟨rfl, rfl⟩
  · exact ⟨rfl, rfl⟩

theorem unattended_step (blockers : Blockers) {s : Reloads} (h : s.Unattended) (input : ReloadInput) :
    (s.step blockers input).Unattended := by
  cases input with
  | network input => exact (s.manager.user_step blockers input).trans h
  | clearTargetDomain => exact h
  | setPageUrl pageTargetUrl => exact (setPageUrl_same s.manager pageTargetUrl).2.trans h

/-- A reload is counted as one, but for the one that finds the tracker at its limit. -/
theorem counts_step_iff (blockers : Blockers) {s : Reloads} (h : s.Counts) (input : ReloadInput) :
    (s.step blockers input).Counts ↔ s.BelowLimit input := by
  rw [Counts] at h
  cases input with
  | network input =>
    rw [Counts, step, NetworkManager.tracker_step, BelowLimit]
    cases s.manager.repeatsDocument input with
    | false => simpa using h
    | true =>
      have hlt := s.manager.documentReloadTracker.toNat_lt
      have hlimit : s.manager.documentReloadTracker = 255 ↔
          s.manager.documentReloadTracker.toNat = 255 := by
        rw [← UInt8.toNat_inj]
        rfl
      simp only [if_true, UInt8.toNat_add, ne_eq, forall_const, hlimit]
      simp only [UInt8.toNat_one]
      omega
  | clearTargetDomain => exact iff_of_true rfl trivial
  | setPageUrl pageTargetUrl =>
    refine iff_of_true ?_ trivial
    rw [Counts, step, (setPageUrl_same s.manager pageTargetUrl).1]
    exact h

/-- The tracker counts the reloads, and the documents after the third are blocked, just when the document is never requested again with the tracker at its limit. -/
theorem reload_guard_iff (blockers : Blockers) (nm : NetworkManager)
    (huser : nm.userRequestInterceptionEnabled = false) (inputs : List ReloadInput) :
    Run.Allowed (step blockers) (Guarded blockers) ⟨nm, nm.documentReloadTracker.toNat⟩ inputs ∧
        Run.Always (step blockers) Counts ⟨nm, nm.documentReloadTracker.toNat⟩ inputs ↔
      Run.Allowed (step blockers) BelowLimit ⟨nm, nm.documentReloadTracker.toNat⟩ inputs := by
  have hcounts : Counts ⟨nm, nm.documentReloadTracker.toNat⟩ := rfl
  refine Run.allowed_and_always_iff_allowed Unattended
    (fun s input h => unattended_step blockers h input) (fun s input hunattended hcounts => ?_)
    (show Unattended ⟨nm, _⟩ from huser) hcounts inputs
  rw [counts_step_iff blockers hcounts]
  exact and_iff_right (guarded_of_counts blockers hunattended hcounts input)

/-! ### 256 reloads -/

def document : EventRequestPaused := NetworkManager.pausedRequest "https://example.com/" .document

/-- The pause of the same document, again and again. -/
def reload : ReloadInput := .network (.requestPaused (fun _ _ => none) 0 0 document)

/-- A new manager after the document was requested once and then 256 times more. -/
def reloaded : Reloads :=
  Run.final (step Blockers.none) ⟨NetworkManager.new false 0, 0⟩ (List.replicate 257 reload)

/-- The tracker is back at zero, and the next reload is let through. -/
theorem reload_guard_disarms :
    reloaded.count = 256 ∧ reloaded.manager.documentReloadTracker = 0 ∧
      ¬reloaded.Counts ∧ ¬reloaded.Guarded Blockers.none reload := by
  have hcount : reloaded.count = 256 := by decide +kernel
  have htracker : reloaded.manager.documentReloadTracker = 0 := by decide +kernel
  have hdecision : reloaded.manager.decision Blockers.none document = false := by decide +kernel
  have hblockAll : reloaded.manager.blockAll = false := by decide +kernel
  have hwhitelist : reloaded.manager.isWhitelisted
      (reloaded.manager.effectiveUrl document) = false := by decide +kernel
  refine ⟨hcount, htracker, ?_, fun hguarded => ?_⟩
  · rw [Counts, hcount, htracker]
    decide
  · have hblocked := hguarded (by rw [hcount]; decide) rfl hwhitelist
    obtain ⟨_, hall | hdecided⟩ :=
      (NetworkManager.onFetchRequestPaused_blocked_iff _ _ _ _ _ _).1 hblocked
    · rw [hblockAll] at hall
      cases hall
    · rw [hdecision] at hdecided
      cases hdecided

theorem reload_guard_iff_three :
    Run.Allowed (step Blockers.none) (Guarded Blockers.none) ⟨NetworkManager.new false 0, 0⟩
          [reload, reload, .clearTargetDomain] ∧
        Run.Always (step Blockers.none) Counts ⟨NetworkManager.new false 0, 0⟩
          [reload, reload, .clearTargetDomain] ↔
      Run.Allowed (step Blockers.none) BelowLimit ⟨NetworkManager.new false 0, 0⟩
        [reload, reload, .clearTargetDomain] :=
  reload_guard_iff Blockers.none (NetworkManager.new false 0) rfl [reload, reload, .clearTargetDomain]

end Reloads

end SpiderChrome
