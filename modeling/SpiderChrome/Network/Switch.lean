import SpiderChrome.Network.Manager
import SpiderChrome.Library.Run

/-!
# The interception switch

Interception should be on just when the user wants it or there are credentials to offer. Three places know about it: the flag that mirrors what the browser was told, the commands that told it, and the two things it depends on. `update_protocol_request_interception` compares with the mirror and does not write it, so after the user has switched interception on the mirror is wrong, and switching it off again sends nothing. Credentials hide this, since `authenticate` sets the mirror itself. `reconciled_iff` is the exact account.
-/

namespace SpiderChrome

/-- The calls that switch interception. -/
inductive SwitchCall where
  | setRequestInterception (enabled : Bool)
  | authenticate (credentials : Credentials)
  | updateProtocolRequestInterception

namespace SwitchCall

def apply (nm : NetworkManager) : SwitchCall → NetworkManager
  | setRequestInterception enabled => nm.setRequestInterception enabled
  | authenticate credentials => nm.authenticate credentials
  | updateProtocolRequestInterception => nm.updateProtocolRequestInterception

/-- The call offers credentials. -/
def authenticates : SwitchCall → Bool
  | authenticate _ => true
  | _ => false

/-- The call switches interception on. -/
def switchesOn : SwitchCall → Bool
  | setRequestInterception enabled => enabled
  | _ => false

end SwitchCall

/-- What an event does to the browser's `Fetch` domain. -/
def NetworkEvent.switchFetch (on : Bool) : NetworkEvent → Bool
  | sendCdpRequest .fetchEnable => true
  | sendCdpRequest .fetchDisable => false
  | _ => on

namespace NetworkManager

/-- Whether the last of the `Fetch.enable` and `Fetch.disable` commands that were queued is `Fetch.enable`. -/
def fetchEnabled (nm : NetworkManager) : Bool :=
  nm.queuedEvents.foldl NetworkEvent.switchFetch false

/-- The browser and the mirror both have what the user and the credentials ask for. -/
def Reconciled (nm : NetworkManager) : Prop :=
  nm.fetchEnabled = (nm.userRequestInterceptionEnabled || nm.credentials.isSome) ∧
    nm.protocolRequestInterceptionEnabled =
      (nm.userRequestInterceptionEnabled || nm.credentials.isSome)

@[simp] theorem fetchEnabled_pushCdpRequest (nm : NetworkManager) (command : NetworkCommand) :
    (nm.pushCdpRequest command).fetchEnabled =
      NetworkEvent.switchFetch nm.fetchEnabled (.sendCdpRequest command) :=
  List.foldl_concat _ _ _ _

/-- What an update does, given what the mirror shows. -/
theorem updateProtocolRequestInterception_cases (nm : NetworkManager) :
    (nm.protocolRequestInterceptionEnabled =
        (nm.userRequestInterceptionEnabled || nm.credentials.isSome) ∧
      nm.updateProtocolRequestInterception = nm) ∨
    (nm.protocolRequestInterceptionEnabled = false ∧
      (nm.userRequestInterceptionEnabled || nm.credentials.isSome) = true ∧
      nm.updateProtocolRequestInterception = nm.pushCdpRequest .fetchEnable) ∨
    (nm.protocolRequestInterceptionEnabled = true ∧
      (nm.userRequestInterceptionEnabled || nm.credentials.isSome) = false ∧
      nm.updateProtocolRequestInterception = nm.pushCdpRequest .fetchDisable) := by
  simp only [updateProtocolRequestInterception]
  cases hwanted : nm.userRequestInterceptionEnabled || nm.credentials.isSome <;>
    cases hmirror : nm.protocolRequestInterceptionEnabled <;> simp

/-- What is known of a manager after the calls: with credentials everything is on and stays on, without them the mirror is off and the browser keeps what it was first switched to. -/
structure Switched (calls : List SwitchCall) (nm : NetworkManager) : Prop where
  credentials : nm.credentials.isSome = calls.any SwitchCall.authenticates
  mirror : nm.protocolRequestInterceptionEnabled = calls.any SwitchCall.authenticates
  fetch : nm.fetchEnabled =
    (calls.any SwitchCall.authenticates || calls.any SwitchCall.switchesOn)
  user : nm.userRequestInterceptionEnabled = true → calls.any SwitchCall.switchesOn = true

variable (ignoreHttpserrors : Bool) (requestTimeout : Duration)

theorem switched_new : Switched [] (new ignoreHttpserrors requestTimeout) where
  credentials := rfl
  mirror := rfl
  fetch := rfl
  user := fun h => by cases h

/-- Where the mirror shows interception only with credentials, an update never sends `Fetch.disable`. -/
theorem updateProtocolRequestInterception_spec (nm : NetworkManager)
    (hmirror : nm.protocolRequestInterceptionEnabled = true → nm.credentials.isSome = true) :
    nm.updateProtocolRequestInterception.credentials = nm.credentials ∧
      nm.updateProtocolRequestInterception.userRequestInterceptionEnabled =
        nm.userRequestInterceptionEnabled ∧
      nm.updateProtocolRequestInterception.protocolRequestInterceptionEnabled =
        nm.protocolRequestInterceptionEnabled ∧
      nm.updateProtocolRequestInterception.fetchEnabled =
        (nm.fetchEnabled || (!nm.protocolRequestInterceptionEnabled &&
          (nm.userRequestInterceptionEnabled || nm.credentials.isSome))) := by
  obtain ⟨hsame, heq⟩ | ⟨hoff, hwanted, heq⟩ | ⟨hon, hunwanted, heq⟩ :=
    nm.updateProtocolRequestInterception_cases
  · rw [heq, ← hsame]
    simp
  · rw [heq]
    refine ⟨rfl, rfl, rfl, ?_⟩
    rw [fetchEnabled_pushCdpRequest, hoff, hwanted]
    simp [NetworkEvent.switchFetch]
  · rw [hmirror hon] at hunwanted
    simp at hunwanted

/-- The same for a whole call; `authenticate` is the one that touches the mirror. -/
theorem switched_step {calls : List SwitchCall} {nm : NetworkManager} (h : Switched calls nm)
    (call : SwitchCall) : Switched (calls ++ [call]) (call.apply nm) := by
  obtain ⟨hcredentials, hmirror, hfetch, huser⟩ := h
  cases call with
  | setRequestInterception enabled =>
    obtain ⟨hc, hu, hm, hf⟩ := updateProtocolRequestInterception_spec
      { nm with userRequestInterceptionEnabled := enabled }
      (fun h => by rw [hcredentials, ← hmirror]; exact h)
    constructor
    · show (nm.setRequestInterception enabled).credentials.isSome = _
      rw [setRequestInterception, hc, hcredentials]
      simp [SwitchCall.authenticates]
    · show (nm.setRequestInterception enabled).protocolRequestInterceptionEnabled = _
      rw [setRequestInterception, hm, hmirror]
      simp [SwitchCall.authenticates]
    · show (nm.setRequestInterception enabled).fetchEnabled = _
      rw [setRequestInterception, hf]
      show (nm.fetchEnabled || (!nm.protocolRequestInterceptionEnabled &&
        (enabled || nm.credentials.isSome))) = _
      rw [hfetch, hmirror, hcredentials]
      simp only [List.any_append, List.any_cons, List.any_nil, SwitchCall.authenticates,
        SwitchCall.switchesOn]
      grind
    · show (nm.setRequestInterception enabled).userRequestInterceptionEnabled = true → _
      rw [setRequestInterception, hu]
      intro hon
      simp only [List.any_append, List.any_cons, List.any_nil, SwitchCall.switchesOn,
        show enabled = true from hon]
      simp
  | authenticate credentials =>
    obtain ⟨hc, hu, hm, hf⟩ := updateProtocolRequestInterception_spec
      { nm with credentials := some credentials } (fun _ => rfl)
    constructor
    · show (nm.authenticate credentials).credentials.isSome = _
      simp [authenticate, hc, SwitchCall.authenticates]
    · simp [SwitchCall.apply, authenticate, SwitchCall.authenticates]
    · show ({ nm with
        credentials := some credentials } : NetworkManager).updateProtocolRequestInterception.fetchEnabled = _
      rw [hf]
      show (nm.fetchEnabled || (!nm.protocolRequestInterceptionEnabled &&
        (nm.userRequestInterceptionEnabled || true))) = _
      rw [hfetch, hmirror]
      simp only [List.any_append, List.any_cons, List.any_nil, SwitchCall.authenticates]
      grind
    · show (nm.authenticate credentials).userRequestInterceptionEnabled = true → _
      simp only [authenticate, hu]
      intro hon
      simp [huser hon]
  | updateProtocolRequestInterception =>
    obtain ⟨hc, hu, hm, hf⟩ := nm.updateProtocolRequestInterception_spec
      (fun h => by rw [hcredentials, ← hmirror]; exact h)
    constructor
    · show nm.updateProtocolRequestInterception.credentials.isSome = _
      rw [hc, hcredentials]
      simp [SwitchCall.authenticates]
    · show nm.updateProtocolRequestInterception.protocolRequestInterceptionEnabled = _
      rw [hm, hmirror]
      simp [SwitchCall.authenticates]
    · show nm.updateProtocolRequestInterception.fetchEnabled = _
      rw [hf, hfetch, hmirror, hcredentials]
      cases huserOn : nm.userRequestInterceptionEnabled with
      | false => simp [SwitchCall.authenticates, SwitchCall.switchesOn]
      | true => simp [SwitchCall.authenticates, SwitchCall.switchesOn, huser huserOn]
    · show nm.updateProtocolRequestInterception.userRequestInterceptionEnabled = true → _
      rw [hu]
      intro hon
      simp [huser hon]

theorem switched_run (calls : List SwitchCall) :
    Switched calls (Run.final SwitchCall.apply (new ignoreHttpserrors requestTimeout) calls) := by
  refine Run.history Switched (switched_new _ _) (fun before call h _ => ?_) (Run.allowed_true _ _)
  exact switched_step h call

/-- After any sequence of calls the browser and the mirror have what was asked for just when credentials were given on the way or the user never switched interception on. -/
theorem reconciled_iff (calls : List SwitchCall) :
    Reconciled (Run.final SwitchCall.apply (new ignoreHttpserrors requestTimeout) calls) ↔
      calls.any SwitchCall.authenticates = true ∨ calls.any SwitchCall.switchesOn = false := by
  obtain ⟨hcredentials, hmirror, hfetch, huser⟩ :=
    switched_run ignoreHttpserrors requestTimeout calls
  rw [Reconciled, hcredentials, hmirror, hfetch]
  cases hauthenticated : calls.any SwitchCall.authenticates with
  | true => simp
  | false =>
    cases hon : calls.any SwitchCall.switchesOn with
    | false =>
      have huser : (Run.final SwitchCall.apply (new ignoreHttpserrors requestTimeout)
          calls).userRequestInterceptionEnabled = false := by
        by_contra h
        rw [huser (by simpa using h)] at hon
        cases hon
      simp [huser]
    | true =>
      -- the browser is on, so the user still wants it, and the mirror is off
      simp only [Bool.or_false, Bool.false_or, Bool.false_eq_true, Bool.true_eq_false, or_self,
        iff_false, not_and]
      intro htrue hfalse
      rw [← htrue] at hfalse
      cases hfalse

/-- Interception switched on and off again stays on in the browser, and while it is on the mirror shows it off. -/
theorem switched_off_stays_on :
    let on := (new true 0).setRequestInterception true
    let off := on.setRequestInterception false
    on.userRequestInterceptionEnabled = true ∧ on.fetchEnabled = true ∧
      on.protocolRequestInterceptionEnabled = false ∧
      off.userRequestInterceptionEnabled = false ∧ off.credentials = none ∧
      off.fetchEnabled = true ∧
      ¬∀ calls, Reconciled (Run.final SwitchCall.apply (new true 0) calls) := by
  refine ⟨rfl, rfl, rfl, rfl, rfl, rfl, fun h => ?_⟩
  have hoff := h [.setRequestInterception true, .setRequestInterception false]
  exact absurd hoff.1 (by decide)

end NetworkManager

end SpiderChrome
