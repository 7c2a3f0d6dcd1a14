import SpiderChrome.Frame.Input
import SpiderChrome.Target.Keeps

/-!
# The turns of an initialisation

The state of a target is matched once in every poll, and once more for each chain of commands that is done by then. `InitTurns` is what this recursion comes to, with a rule for each case, and `turns` says that every poll follows the rules. The pump runs for a target that is initialised, and it leaves the state alone.
-/

namespace SpiderChrome

/-- The chain that an initialising target is in. -/
def TargetInit.chain? : TargetInit → Option CommandChain
  | initializingFrame cmds => some cmds
  | initializingNetwork cmds => some cmds
  | initializingPage cmds => some cmds
  | initializingEmulation cmds => some cmds
  | _ => none

def TargetInit.isInitialized : TargetInit → Bool
  | initialized => true
  | _ => false

def TargetInit.isClosing : TargetInit → Bool
  | closing => true
  | _ => false

namespace Target

/-! ### One turn after the other -/

/-- The chain of the frames does not start before there is a session. -/
def inSession (t : Target) : Bool :=
  match t.initState with
  | .initializingFrame _ => t.sessionId.isSome
  | _ => true

/-- The target when its chain is done. -/
def afterChain (t : Target) (env : Env) : Target :=
  match t.initState with
  | .initializingFrame _ => t.afterFrameChain env
  | .initializingNetwork _ =>
    { t with initState := .initializingPage (pageInitCommands t.config.requestTimeout) }
  | .initializingPage _ =>
    { t with initState := match t.config.viewport with
      | some viewport =>
        .initializingEmulation (emulationInitCommands viewport t.config.requestTimeout)
      | none => .initialized }
  | .initializingEmulation _ => { t with initState := .initialized }
  | _ => t

/-- The first request of all. -/
def attachRequest (info : TargetInfo) : Request :=
  ⟨"Target.attachToTarget", none,
    .object [("targetId", .string info.targetId.inner), ("flatten", .bool true)]⟩

/-- The request of a target that gives up. -/
def closeRequest (info : TargetInfo) (sessionId : Option SessionId) : Request :=
  ⟨"Target.closeTarget", sessionId.map SessionId.inner,
    .object [("targetId", .string info.targetId.inner)]⟩

/-- The chain of a target replaced by another one. -/
def withChain (t : Target) (cmds : CommandChain) : Target :=
  { t with initState := t.initState.mapCommands fun _ => cmds }

/-- What the turn of the initialisation comes to, with a rule for each case. The rule `passes` is the recursion of `poll`. -/
inductive InitTurns (env : Env) (now : Instant) : Target → Target → InitTurn → Prop where
  | attach {t : Target} (hstate : t.initState = .attachToTarget) :
      InitTurns env now t
        { t with initState := .initializingFrame (FrameManager.initCommands t.config.requestTimeout) }
        (.emit (.request (attachRequest t.info)))
  | unattached {t : Target} {cmds : CommandChain} (hstate : t.initState = .initializingFrame cmds)
      (hsession : t.sessionId = none) : InitTurns env now t t .stop
  | pending {t : Target} {cmds : CommandChain} {method : MethodId} {deadline : Instant}
      (hchain : t.initState.chain? = some cmds) (hsession : t.inSession = true)
      (hwaiting : cmds.waiting = some (method, deadline)) (hdeadline : ¬ deadline < now) :
      InitTurns env now t t .stop
  | expired {t : Target} {cmds : CommandChain} {method : MethodId} {deadline : Instant}
      (hchain : t.initState.chain? = some cmds) (hsession : t.inSession = true)
      (hwaiting : cmds.waiting = some (method, deadline)) (hdeadline : deadline < now) :
      InitTurns env now t t.onInitializationFailed.1 (.emit t.onInitializationFailed.2)
  | command {t : Target} {cmds : CommandChain} {method : MethodId} {params : Value}
      {rest : List (MethodId × Value)} (hchain : t.initState.chain? = some cmds)
      (hsession : t.inSession = true) (hwaiting : cmds.waiting = none)
      (hcmds : cmds.cmds = (method, params) :: rest) :
      InitTurns env now t
        (t.withChain { cmds with cmds := rest, waiting := some (method, now + cmds.timeout) })
        (.emit (.request (t.sessionRequest method params)))
  | passes {t t' : Target} {turn : InitTurn} {cmds : CommandChain}
      (hchain : t.initState.chain? = some cmds) (hsession : t.inSession = true)
      (hwaiting : cmds.waiting = none) (hcmds : cmds.cmds = [])
      (hrest : InitTurns env now (t.afterChain env) t' turn) : InitTurns env now t t' turn
  | ready {t : Target} (hstate : t.initState = .initialized) :
      InitTurns env now t t.serveInitiator .proceed
  | closing {t : Target} (hstate : t.initState = .closing) : InitTurns env now t t .stop

variable {env : Env} {now : Instant} {t t' : Target} {turn : InitTurn}

theorem withChain_self {cmds : CommandChain} (hchain : t.initState.chain? = some cmds) :
    t.withChain cmds = t := by
  obtain ⟨_, _, _, _, _, _, _, _, initState, _, _, _, _, _, _, _, _⟩ := t
  cases initState <;> cases hchain <;> rfl

/-- One turn of a target that is in a chain. -/
theorem initTurn_chain {cmds : CommandChain} (hchain : t.initState.chain? = some cmds)
    (hsession : t.inSession = true) (chains : Nat) :
    initTurn env now (chains + 1) t = match cmds.poll now with
      | (_, .done) => initTurn env now chains (t.afterChain env)
      | (polled, next) => (t.withChain polled).chainTurn next := by
  have hdone : ∀ polled, cmds.poll now = (polled, .done) → polled = cmds := by
    intro polled hpoll
    unfold CommandChain.poll at hpoll
    split at hpoll
    · split at hpoll
      · cases hpoll
      · cases hpoll
    · split at hpoll
      · cases hpoll
      · cases hpoll
        rfl
  rw [initTurn, afterChain]
  cases hstate : t.initState with
  | initializingFrame _ =>
    rw [hstate] at hchain
    cases hchain
    have hsome : t.sessionId ≠ none := by
      simp only [inSession, hstate] at hsession
      exact fun hnone => by simp [hnone] at hsession
    have hsame : { t with initState := .initializingFrame cmds } = t := by
      have hself : t.withChain cmds = t := withChain_self (by rw [hstate]; rfl)
      rwa [withChain, hstate] at hself
    simp only [hsome, withChain, hstate, if_false]
    rcases hpoll : cmds.poll now with ⟨polled, _ | _ | _ | _⟩
    case done =>
      obtain rfl := hdone polled hpoll
      exact congrArg (fun t : Target => initTurn env now chains (t.afterFrameChain env)) hsame
    all_goals rfl
  | initializingNetwork _ | initializingPage _ | initializingEmulation _ =>
    rw [hstate] at hchain
    cases hchain
    simp only [withChain, hstate]
    rcases cmds.poll now with ⟨polled, _ | _ | _ | _⟩
    all_goals rfl
  | _ =>
    rw [hstate] at hchain
    cases hchain

/-- The turns that are left before an initialising target stops or waits. -/
def turnsLeft (t : Target) : Nat :=
  match t.initState with
  | .initializingFrame cmds => if cmds.cmds = [] then 5 else 1
  | .initializingNetwork _ => 4
  | .initializingPage _ => 3
  | .initializingEmulation _ => 2
  | _ => 1

/-- The chain that sets up an isolated world has a first command. -/
theorem turnsLeft_afterFrameChain (t : Target) (env : Env) : (t.afterFrameChain env).turnsLeft ≤ 4 := by
  unfold afterFrameChain FrameManager.ensureIsolatedWorld
  split
  · split
    · rename_i heq
      split at heq
      · cases heq
      · cases heq
        simp [turnsLeft, CommandChain.new]
    · exact Nat.le_refl 4
  · exact Nat.le_refl 4

theorem turnsLeft_afterChain {cmds : CommandChain} (hchain : t.initState.chain? = some cmds)
    (hdone : cmds.cmds = []) (env : Env) : (t.afterChain env).turnsLeft < t.turnsLeft := by
  unfold afterChain
  cases hstate : t.initState with
  | initializingFrame _ =>
    rw [hstate] at hchain
    cases hchain
    have hleft : t.turnsLeft = 5 := by simp [turnsLeft, hstate, hdone]
    have hafter := t.turnsLeft_afterFrameChain env
    dsimp only
    omega
  | initializingNetwork _ => simp [turnsLeft, hstate]
  | initializingPage _ =>
    cases hviewport : t.config.viewport with
    | none => simp [turnsLeft, hstate]
    | some viewport => simp [turnsLeft, hstate]
  | initializingEmulation _ => simp [turnsLeft, hstate]
  | _ =>
    rw [hstate] at hchain
    cases hchain

/-- The recursion ends by itself: the bound on it is never met. -/
theorem turns_of_le (t : Target) {chains : Nat} (hle : t.turnsLeft ≤ chains) :
    InitTurns env now t (t.initTurn env now chains).1 (t.initTurn env now chains).2 := by
  induction chains generalizing t with
  | zero =>
    unfold turnsLeft at hle
    split at hle
    · split at hle
      · omega
      · omega
    · omega
    · omega
    · omega
    · omega
  | succ chains ih =>
    have hchained : ∀ cmds, t.initState.chain? = some cmds → t.inSession = true →
        InitTurns env now t (t.initTurn env now (chains + 1)).1 (t.initTurn env now (chains + 1)).2 := by
      intro cmds hchain hsession
      rw [initTurn_chain hchain hsession]
      cases hwaiting : cmds.waiting with
      | some awaited =>
        obtain ⟨method, deadline⟩ := awaited
        by_cases hdeadline : deadline < now
        · simp only [CommandChain.poll, hwaiting, hdeadline, if_true, withChain_self hchain]
          exact .expired hchain hsession hwaiting hdeadline
        · simp only [CommandChain.poll, hwaiting, hdeadline, if_false, withChain_self hchain]
          exact .pending hchain hsession hwaiting hdeadline
      | none =>
        cases hcmds : cmds.cmds with
        | nil =>
          simp only [CommandChain.poll, hwaiting, hcmds]
          have hless := turnsLeft_afterChain hchain hcmds env
          exact .passes hchain hsession hwaiting hcmds (ih _ (by omega))
        | cons command rest =>
          simp only [CommandChain.poll, hwaiting, hcmds]
          exact .command hchain hsession hwaiting hcmds
    cases hstate : t.initState with
    | attachToTarget =>
      simp only [initTurn, hstate]
      exact .attach hstate
    | initializingFrame cmds =>
      by_cases hsession : t.sessionId = none
      · simp only [initTurn, hstate, hsession, if_true]
        exact .unattached hstate hsession
      · refine hchained cmds (by rw [hstate]; rfl) ?_
        simp only [inSession, hstate]
        exact Option.isSome_iff_ne_none.2 hsession
    | initializingNetwork cmds | initializingPage cmds | initializingEmulation cmds =>
      exact hchained cmds (by rw [hstate]; rfl) (by simp [inSession, hstate])
    | initialized =>
      simp only [initTurn, hstate]
      exact .ready hstate
    | closing =>
      simp only [initTurn, hstate]
      exact .closing hstate

theorem turnsLeft_le (t : Target) : t.turnsLeft ≤ 5 := by
  unfold turnsLeft
  split
  · split
    · omega
    · omega
  · omega
  · omega
  · omega
  · omega

theorem turns (env : Env) (now : Instant) (t : Target) :
    InitTurns env now t (t.initTurn env now 6).1 (t.initTurn env now 6).2 :=
  t.turns_of_le (Nat.le_succ_of_le t.turnsLeft_le)

theorem initState_serveInitiator (t : Target) : t.serveInitiator.initState = t.initState := by
  have hcreated : t.createPage.initState = t.initState := by
    unfold createPage
    split
    · rfl
    · rfl
  unfold serveInitiator
  split
  · split
    · split
      · rename_i heq
        rw [← (Prod.mk.inj heq).1]
        exact hcreated
      · rename_i heq
        rw [← (Prod.mk.inj heq).1]
        exact hcreated
    · rfl
  · rfl

theorem isInitialized_of_chain {cmds : CommandChain} (hchain : t.initState.chain? = some cmds) :
    t.initState.isInitialized = false := by
  cases hstate : t.initState with
  | initialized =>
    rw [hstate] at hchain
    cases hchain
  | _ => rfl

theorem chain?_withChain {cmds : CommandChain} (hchain : t.initState.chain? = some cmds)
    (polled : CommandChain) :
    (t.withChain polled).initState.chain? = some polled := by
  unfold withChain
  cases hstate : t.initState with
  | attachToTarget | initialized | closing =>
    rw [hstate] at hchain
    cases hchain
  | _ => rfl

/-- The pump runs for a target that is initialised, and only for one. -/
theorem InitTurns.proceed_iff (h : InitTurns env now t t' turn) :
    turn = .proceed ↔ t'.initState.isInitialized = true := by
  induction h with
  | attach hstate => exact iff_of_false nofun nofun
  | unattached hstate hsession =>
    rw [hstate]
    exact iff_of_false nofun nofun
  | pending hchain hsession hwaiting hdeadline =>
    rw [isInitialized_of_chain hchain]
    exact iff_of_false nofun nofun
  | expired hchain hsession hwaiting hdeadline => exact iff_of_false nofun nofun
  | command hchain hsession hwaiting hcmds =>
    rw [isInitialized_of_chain (chain?_withChain hchain _)]
    exact iff_of_false nofun nofun
  | passes _ _ _ _ _ ih => exact ih
  | ready hstate =>
    rw [initState_serveInitiator, hstate]
    exact iff_of_true rfl rfl
  | closing hstate =>
    rw [hstate]
    exact iff_of_false nofun nofun

/-! ### The pump leaves the state alone -/

theorem initState_receivePageMessages (t : Target) :
    t.receivePageMessages.initState = t.initState := by
  unfold receivePageMessages
  split
  · rw [Run.foldl_unchanged initState_handlePageMessage]
  · rfl

theorem initState_notifyWaiters (t : Target) (budget : List Sender → Nat) :
    (t.notifyWaiters budget).1.initState = t.initState := by
  unfold notifyWaiters
  split
  · rfl
  · rfl

theorem initState_drainNetwork (t : Target) : t.drainNetwork.initState = t.initState := by
  have hevent : ∀ (t : Target) event, (t.handleNetworkEvent event).initState = t.initState := by
    intro t event
    cases event <;> rfl
  unfold drainNetwork
  rw [Run.foldl_unchanged hevent]

theorem initState_drainFramesTo (clock : Nat → Instant) (now : Instant) (turns : Nat) (t : Target) :
    (t.drainFramesTo clock now turns).initState = t.initState := by
  induction turns generalizing t with
  | zero => rfl
  | succ turns ih =>
    unfold drainFramesTo
    split
    · exact ih _
    · rfl

theorem initState_pump {receive : Target → Target}
    (hreceive : ∀ t : Target, (receive t).initState = t.initState) (t : Target)
    (budget : List Sender → Nat) (clock : Nat → Instant) (now : Instant) :
    (t.pump budget receive clock now).target.initState = t.initState := by
  have hnotified := t.initState_notifyWaiters budget
  have hdrained : (((receive (t.notifyWaiters budget).1).drainNetwork).drainFrames clock now).initState =
      t.initState := by
    rw [drainFrames, initState_drainFramesTo, initState_drainNetwork, hreceive, hnotified]
  unfold pump
  dsimp only
  split
  · exact hnotified
  · split
    · exact hdrained
    · exact (initState_notifyWaiters _ budget).trans hdrained

/-- Only pages can be polled. -/
theorem pollTarget_of_not_page (hpage : ¬ t.isPage = true) (driver : Driver) (env : Env) (now : Instant) :
    Handler.pollTarget driver t env now = ⟨t, none, false⟩ := by
  have hpolled : ∀ budget receive, t.pollWith budget receive env now = ⟨t, none, false⟩ := by
    intro budget receive
    rw [pollWith, if_pos (by simpa using hpage)]
  cases driver with
  | stream => exact hpolled _ _
  | run => exact hpolled _ _

/-- What a poll of a page comes to, by the turn of its initialisation. -/
theorem pollTarget_turn (hpage : t.isPage = true) (driver : Driver) (env : Env) (now : Instant) :
    match t.initTurn env now 6 with
    | (t', .emit event) => Handler.pollTarget driver t env now = ⟨t', some event, false⟩
    | (t', .stop) => Handler.pollTarget driver t env now = ⟨t', none, false⟩
    | (t', .proceed) => (Handler.pollTarget driver t env now).target.initState = t'.initState := by
  have hpolled : ∀ (receive : Target → Target) (budget : List Sender → Nat),
      (∀ t : Target, (receive t).initState = t.initState) →
      match t.initTurn env now 6 with
      | (t', .emit event) => t.pollWith budget receive env now = ⟨t', some event, false⟩
      | (t', .stop) => t.pollWith budget receive env now = ⟨t', none, false⟩
      | (t', .proceed) => (t.pollWith budget receive env now).target.initState = t'.initState := by
    intro receive budget hreceive
    unfold pollWith
    rw [hpage]
    rcases t.initTurn env now 6 with ⟨t', _ | _ | _⟩
    · rfl
    · rfl
    · exact initState_pump hreceive (t'.pruneWaiters env.isClosed) budget env.clock now
  cases driver with
  | stream => exact hpolled _ _ initState_receivePageMessages
  | run => exact hpolled _ _ fun _ => rfl

theorem poll_turns (hpage : t.isPage = true) (driver : Driver) (env : Env) (now : Instant) :
    ∃ t' turn, InitTurns env now t t' turn ∧
      match turn with
      | .emit event => Handler.pollTarget driver t env now = ⟨t', some event, false⟩
      | .stop => Handler.pollTarget driver t env now = ⟨t', none, false⟩
      | .proceed => (Handler.pollTarget driver t env now).target.initState = t'.initState := by
  have hpolled := pollTarget_turn hpage driver env now
  refine ⟨_, _, turns env now t, ?_⟩
  rcases hturn : t.initTurn env now 6 with ⟨t', _ | _ | _⟩
  · rwa [hturn] at hpolled
  · rwa [hturn] at hpolled
  · rwa [hturn] at hpolled

/-! ### The states that last -/

theorem initState_eq_of_isClosing {init : TargetInit} (h : init.isClosing = true) :
    init = .closing := by
  cases init with
  | closing => rfl
  | _ => cases h

theorem initState_eq_of_isInitialized {init : TargetInit} (h : init.isInitialized = true) :
    init = .initialized := by
  cases init with
  | initialized => rfl
  | _ => cases h

/-- A target that has given up has nothing more to say. -/
theorem pollTarget_closing {t : Target} (hclosing : t.initState = .closing) (driver : Driver) (env : Env)
    (now : Instant) : Handler.pollTarget driver t env now = ⟨t, none, false⟩ := by
  have hpolled : ∀ budget receive, t.pollWith budget receive env now = ⟨t, none, false⟩ := by
    intro budget receive
    unfold pollWith
    split
    · rfl
    · simp [initTurn, hclosing]
  cases driver with
  | stream => exact hpolled _ _
  | run => exact hpolled _ _

/-- A target stays initialised. -/
theorem pollTarget_initialized {t : Target} (hinit : t.initState = .initialized) (driver : Driver)
    (env : Env) (now : Instant) :
    (Handler.pollTarget driver t env now).target.initState = .initialized := by
  by_cases hpage : t.isPage = true
  · obtain ⟨t', turn, hturns, hpolled⟩ := poll_turns hpage driver env now
    cases hturns with
    | ready hstate =>
      rw [hpolled, initState_serveInitiator, hinit]
    | attach hstate | unattached hstate | closing hstate =>
      rw [hinit] at hstate
      cases hstate
    | pending hchain | expired hchain | command hchain | passes hchain =>
      rw [hinit] at hchain
      cases hchain
  · rw [pollTarget_of_not_page hpage]
    exact hinit

/-- A response changes neither of the two last states. -/
theorem initState_response (t : Target) (env : Env) (method : MethodId) (resp : Response) :
    ((maybeStoreAttachSessionId env.decoders t method resp).onResponse env resp method).initState =
      t.initState.mapCommands fun cmds => cmds.receivedResponse method := by
  have hstored : (maybeStoreAttachSessionId env.decoders t method resp).initState = t.initState := by
    unfold maybeStoreAttachSessionId
    split
    · rfl
    · split
      · rfl
      · rfl
  rw [← hstored]
  unfold onResponse
  dsimp only
  split
  · split
    · rfl
    · rfl
  · rfl

end Target

end SpiderChrome
