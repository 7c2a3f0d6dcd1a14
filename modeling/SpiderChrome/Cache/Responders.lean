import SpiderChrome.Cache.Interceptor
import SpiderChrome.Network.Answer
import SpiderChrome.Target.Keeps
import SpiderChrome.Handler.Driver

/-!
# Who answers a pause

A paused request of a target reaches its network manager and, once the interceptor listens, the interceptor too. The interceptor answers every pause once, whatever it finds. The manager stays silent where the user answers for it, and the listener of the interceptor alone does not tell it so.
-/

namespace SpiderChrome

open Run

/-! ### The answer of the interceptor -/

def FetchEffect.answers (requestId : Fetch.RequestId) : FetchEffect → Bool
  | send command => command.answers requestId
  | _ => false

/-- The answers to a pause among the effects. -/
def answerCount (event : EventRequestPaused) (effects : List FetchEffect) : Nat :=
  effects.countP (FetchEffect.answers event.requestId)

section Interceptor

variable (keys : KeyMaker) (world : FetchWorld) (event : EventRequestPaused) (stage : FetchStage)
  (auth : Option String) (cacheStrategy : Option CacheStrategy) (status : Int) (dedupKey : String)

@[simp] theorem answers_continueRequest : (continueRequest event).answers event.requestId = true :=
  decide_eq_true rfl

@[simp] theorem answers_fulfillRequest (body : List UInt8) (headers : List (String × String)) :
    (fulfillRequest event status body headers).answers event.requestId = true :=
  decide_eq_true rfl

theorem answerCount_append (effects later : List FetchEffect) :
    answerCount event (effects ++ later) = answerCount event effects + answerCount event later :=
  List.countP_append

/-- An effect that sends nothing does not count. -/
theorem answerCount_cons {effect : FetchEffect} (h : effect.answers event.requestId = false)
    (effects : List FetchEffect) : answerCount event (effect :: effects) = answerCount event effects :=
  List.countP_cons_of_neg (by rw [h]; exact Bool.false_ne_true)

theorem answerCount_single {effect : FetchEffect} (h : effect.answers event.requestId = true) :
    answerCount event [effect] = 1 :=
  List.countP_cons_of_pos h

theorem answerCount_cacheAndFulfill (body : List UInt8) :
    answerCount event (cacheAndFulfill keys world event stage auth status dedupKey body) = 1 := by
  have hfulfill := answerCount_single event
    (answers_fulfillRequest event status body (responseHeadersFromEvent world stage))
  rw [cacheAndFulfill]
  split
  · rw [answerCount_cons event rfl]
    exact hfulfill
  · rw [answerCount_cons event rfl, answerCount_cons event rfl]
    exact hfulfill

theorem answerCount_oneshot : answerCount event (fetchResponseBodyOneshot world event dedupKey).1 = 0 := by
  rw [fetchResponseBodyOneshot]
  split
  · split
    · split
      · rfl
      · rfl
    · rfl
  · rfl

theorem answerCount_streamAndFulfill :
    answerCount event (streamAndFulfill keys world event stage auth status) = 1 := by
  rw [streamAndFulfill, answerCount_cons event rfl, answerCount_cons event rfl]
  split
  · exact answerCount_cacheAndFulfill keys world event stage auth status _ _
  · rw [answerCount_append, answerCount_oneshot, Nat.zero_add]
    split
    · exact answerCount_cacheAndFulfill keys world event stage auth status _ _
    · rw [answerCount_cons event rfl]
      exact answerCount_single event (answers_continueRequest event)
  · rw [answerCount_cons event rfl]
    exact answerCount_single event (answers_fulfillRequest event status _ _)

theorem answerCount_handleFetchResponseStage :
    answerCount event (handleFetchResponseStage keys world event stage auth cacheStrategy) = 1 := by
  obtain heq | heq := handleFetchResponseStage_cases keys world event stage auth cacheStrategy
  · rw [heq]
    exact answerCount_single event (answers_continueRequest event)
  · rw [heq]
    exact answerCount_streamAndFulfill keys world event stage auth _

theorem answerCount_handleFetchPaused : answerCount event (handleFetchPaused world event stage cacheStrategy) = 1 := by
  have hcontinue := answerCount_single event (answers_continueRequest event)
  rw [handleFetchPaused]
  split
  · exact hcontinue
  split
  · exact hcontinue
  split
  · exact answerCount_single event (answers_fulfillRequest event 200 _ _)
  · exact hcontinue

/-- At both stages, whatever it finds, the interceptor answers a pause once. -/
theorem answerCount_interceptorEffects :
    answerCount event (interceptorEffects keys world event stage auth cacheStrategy) = 1 := by
  rw [interceptorEffects]
  split
  · exact answerCount_handleFetchResponseStage keys world event stage auth cacheStrategy
  · exact answerCount_handleFetchPaused world event stage cacheStrategy

end Interceptor

/-! ### The target with its interceptor -/

/-- A pause that reached the target, with what its manager queued for it and what the interceptor does about it. -/
structure Pause where
  event : EventRequestPaused
  byManager : List NetworkEvent
  byInterceptor : List FetchEffect

/-- The answers of both. -/
def Pause.answerCount (pause : Pause) : Nat :=
  pause.byManager.countP (NetworkEvent.answers pause.event.requestId) +
    SpiderChrome.answerCount pause.event pause.byInterceptor

/-- What the interceptor was spawned with. -/
structure Interceptor where
  keys : KeyMaker
  auth : Option String
  cacheStrategy : Option CacheStrategy

/-- A target after the interceptor's listener was registered, and the pauses since then. -/
structure InterceptedTarget where
  target : Target
  pauses : List Pause

/-- A message of the page, or an event with what is read outside the handler and by the interceptor. -/
inductive InterceptedInput where
  | pageMessage (msg : TargetMessage)
  | event (env : Env) (world : FetchWorld) (event : CdpEventMessage) (stage : FetchStage)

/-- The event is not one of another session. -/
def Target.hears (t : Target) (event : CdpEventMessage) : Bool :=
  !(event.params.isSessionScoped &&
    (decide (event.sessionId = none) || decide (t.sessionId.map SessionId.inner ≠ event.sessionId)))

namespace InterceptedTarget

/-- The target takes the message that registers the listener. -/
def register (t : Target) : InterceptedTarget where
  target := t.handlePageMessage (.addEventListener "Fetch.requestPaused")
  pauses := []

/-- The pause of an event, if it is one that the target hears. -/
def pauseOf (s : InterceptedTarget) (interceptor : Interceptor) (env : Env) (world : FetchWorld)
    (event : CdpEventMessage) (stage : FetchStage) : Option Pause :=
  match event.params with
  | .fetchRequestPaused ev =>
    if s.target.hears event then
      some {
        event := ev
        byManager := (s.target.onEvent env event).networkManager.queuedEvents.drop
          s.target.networkManager.queuedEvents.length
        byInterceptor := interceptorEffects interceptor.keys world ev stage interceptor.auth interceptor.cacheStrategy }
    else none
  | _ => none

def step (interceptor : Interceptor) (s : InterceptedTarget) : InterceptedInput → InterceptedTarget
  | .pageMessage msg => { s with target := s.target.onPageMessage msg }
  | .event env world event stage =>
    { target := s.target.onEvent env event
      pauses := s.pauses ++ (s.pauseOf interceptor env world event stage).toList }

/-- Every pause is answered by one of the two and not by both. -/
def OneResponder (s : InterceptedTarget) : Prop := ∀ pause ∈ s.pauses, pause.answerCount = 1

/-- When a request of the target is paused, the user has taken over from its manager. -/
def TakenOver (s : InterceptedTarget) : InterceptedInput → Prop
  | .event _ _ ⟨.fetchRequestPaused ev, sessionId⟩ _ =>
    s.target.hears ⟨.fetchRequestPaused ev, sessionId⟩ = true →
      s.target.networkManager.userRequestInterceptionEnabled = true
  | _ => True

/-- The manager knows that somebody listens to pauses. -/
def Listens (s : InterceptedTarget) : Prop := s.target.networkManager.protocolRequestInterceptionEnabled = true

/-! ### The manager goes on knowing -/

theorem listens_register (t : Target) : (register t).Listens := rfl

theorem protocol_setBlockedUrls (nm : NetworkManager) (params : Value) :
    (Target.setBlockedUrls nm params).protocolRequestInterceptionEnabled = nm.protocolRequestInterceptionEnabled := by
  rw [Target.setBlockedUrls]
  split
  · dsimp only
    split
    · rfl
    · split
      · rfl
      · rfl
  · rfl

/-- No message of a page makes the manager forget it. -/
theorem protocol_handlePageMessage {t : Target} (h : t.networkManager.protocolRequestInterceptionEnabled = true)
    (msg : TargetMessage) : (t.handlePageMessage msg).networkManager.protocolRequestInterceptionEnabled = true := by
  cases msg with
  | command cmd =>
    show (if cmd.method = "Network.setBlockedURLs" then Target.setBlockedUrls t.networkManager cmd.params
      else t.networkManager).protocolRequestInterceptionEnabled = true
    split
    · exact (protocol_setBlockedUrls _ _).trans h
    · exact h
  | waitForNavigation _ | waitForDomContentLoaded _ | waitForLoad _ | waitForNetworkIdle _
  | waitForNetworkAlmostIdle _ =>
    simp only [Target.handlePageMessage]
    split
    · exact h
    · exact h
  | addEventListener method =>
    simp only [Target.handlePageMessage]
    split
    · rfl
    · exact h
  | authenticate credentials => rfl
  | _ => exact h

theorem Listens.step {s : InterceptedTarget} (h : s.Listens) (interceptor : Interceptor) (input : InterceptedInput) :
    (s.step interceptor input).Listens := by
  cases input with
  | pageMessage msg =>
    show (s.target.onPageMessage msg).networkManager.protocolRequestInterceptionEnabled = true
    rw [Target.onPageMessage]
    split
    · exact h
    · exact protocol_handlePageMessage h msg
  | event env world event stage =>
    show (s.target.onEvent env event).networkManager.protocolRequestInterceptionEnabled = true
    obtain hsame | ⟨input, -, hstep⟩ := s.target.networkManager_onEvent env event
    · rw [hsame]
      exact h
    · rw [hstep, NetworkManager.protocol_step]
      exact h

/-! ### The answers to one pause -/

/-- What the manager queues for a pause that its target hears has one answer, or none where the user has taken over. -/
theorem countP_byManager {t : Target} (hlistens : t.networkManager.protocolRequestInterceptionEnabled = true)
    (env : Env) (ev : EventRequestPaused) {sessionId : Option String}
    (hhears : t.hears ⟨.fetchRequestPaused ev, sessionId⟩ = true) :
    ((t.onEvent env ⟨.fetchRequestPaused ev, sessionId⟩).networkManager.queuedEvents.drop
        t.networkManager.queuedEvents.length).countP (NetworkEvent.answers ev.requestId) =
      if t.networkManager.userRequestInterceptionEnabled then 0 else 1 := by
  obtain ⟨added, hadded, hcount⟩ := t.networkManager.onFetchRequestPaused_answered env.blockers env.cache (env.clock 0)
    env.systemNow ev
  rw [hlistens, Bool.and_true] at hcount
  have hnetwork : (t.onEvent env ⟨.fetchRequestPaused ev, sessionId⟩).networkManager =
      t.networkManager.onFetchRequestPaused env.blockers env.cache (env.clock 0) env.systemNow ev := by
    rw [Target.onEvent, if_neg]
    rintro ⟨-, hsession⟩
    simp [Target.hears, CdpEvent.isSessionScoped] at hhears
    exact hsession.elim hhears.1 fun hne => hne hhears.2
  rw [hnetwork, hadded, List.drop_left]
  exact hcount

/-- A pause is answered by both exactly where the user has not taken over. -/
theorem answerCount_pauseOf {s : InterceptedTarget} (hlistens : s.Listens) {interceptor : Interceptor} {env : Env}
    {world : FetchWorld} {ev : EventRequestPaused} {sessionId : Option String} {stage : FetchStage} {pause : Pause}
    (hpause : s.pauseOf interceptor env world ⟨.fetchRequestPaused ev, sessionId⟩ stage = some pause) :
    pause.answerCount = if s.target.networkManager.userRequestInterceptionEnabled then 1 else 2 := by
  rw [pauseOf] at hpause
  dsimp only at hpause
  split at hpause
  · rename_i hhears
    rw [← Option.some.inj hpause, Pause.answerCount, answerCount_interceptorEffects]
    dsimp only
    rw [countP_byManager hlistens env ev hhears]
    split
    · rfl
    · rfl
  · exact absurd hpause nofun

/-- A step keeps one responder for every pause just when the user has taken over from the manager. -/
theorem oneResponder_step_iff {s : InterceptedTarget} (hlistens : s.Listens) (h : s.OneResponder)
    (interceptor : Interceptor) (input : InterceptedInput) :
    (s.step interceptor input).OneResponder ↔ s.TakenOver input := by
  cases input with
  | pageMessage msg => exact iff_of_true h trivial
  | event env world event stage =>
    obtain ⟨params, sessionId⟩ := event
    cases params with
    | fetchRequestPaused ev =>
      by_cases hhears : s.target.hears ⟨.fetchRequestPaused ev, sessionId⟩ = true
      · obtain ⟨pause, hpause⟩ :
            ∃ pause, s.pauseOf interceptor env world ⟨.fetchRequestPaused ev, sessionId⟩ stage = some pause :=
          ⟨_, if_pos hhears⟩
        have hpauses : (s.step interceptor (.event env world ⟨.fetchRequestPaused ev, sessionId⟩ stage)).pauses =
            s.pauses ++ [pause] := by
          rw [step, hpause]
          rfl
        have hcount := answerCount_pauseOf hlistens hpause
        rw [OneResponder, hpauses, List.forall_mem_append, List.forall_mem_singleton, hcount]
        constructor
        · intro hone _
          by_contra huser
          rw [if_neg huser] at hone
          exact absurd hone.2 (by decide)
        · intro htaken
          exact ⟨h, if_pos (htaken hhears)⟩
      · have hnone : s.pauseOf interceptor env world ⟨.fetchRequestPaused ev, sessionId⟩ stage = none :=
          if_neg hhears
        refine iff_of_true ?_ fun hheard => absurd hheard hhears
        intro pause hpause
        rw [step, hnone] at hpause
        exact h pause ((List.append_nil s.pauses) ▸ hpause)
    | _ =>
      refine iff_of_true ?_ trivial
      intro pause hpause
      exact h pause ((List.append_nil s.pauses) ▸ hpause)

/-- From the registration of its listener on, the interceptor and the manager share the pauses of a target just when the user has taken over before each of them. -/
theorem one_responder_iff_taken_over (t : Target) (interceptor : Interceptor) (inputs : List InterceptedInput) :
    Always (step interceptor) OneResponder (register t) inputs ↔
      Allowed (step interceptor) TakenOver (register t) inputs := by
  refine always_iff_allowed (fun s _ => s.Listens) (fun s input _ h => h.step interceptor input)
    (fun s input _ hlistens h => oneResponder_step_iff hlistens h interceptor input) (listens_register t) ?_
  exact fun pause hpause => absurd hpause List.not_mem_nil

/-- A target as it is configured by default. -/
def sampleTarget : Target :=
  (Target.new ⟨Handler.plainTarget, "page", none, none⟩ Handler.plainConfig.targetConfig ⟨none⟩).setSessionId
    ⟨"session"⟩

/-- A script is requested, with nothing cached. -/
def sampleRequested : List InterceptedInput :=
  [.event Handler.plainEnv sampleWorld ⟨.fetchRequestPaused (samplePause "interception-1"), some "session"⟩
    ⟨none, none, none, []⟩]

/-- The manager and the interceptor both continue the request. -/
theorem both_answer :
    (final (step ⟨⟨id, some⟩, none, none⟩) (register sampleTarget) sampleRequested).pauses.map Pause.answerCount = [2] ∧
      ¬ ∀ (t : Target) (interceptor : Interceptor) (inputs : List InterceptedInput),
        Always (step interceptor) OneResponder (register t) inputs := by
  have hcount : (final (step ⟨⟨id, some⟩, none, none⟩) (register sampleTarget) sampleRequested).pauses.map
      Pause.answerCount = [2] := by decide +kernel
  refine ⟨hcount, fun hall => ?_⟩
  have hone := (hall sampleTarget ⟨⟨id, some⟩, none, none⟩ sampleRequested).last
  obtain ⟨pause, hpause, htwo⟩ := List.mem_map.1 (hcount ▸ List.mem_singleton_self 2)
  exact absurd ((hone pause hpause).symm.trans htwo) (by decide)

end InterceptedTarget

end SpiderChrome
