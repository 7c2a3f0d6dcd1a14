import SpiderChrome.Handler.Targets
import SpiderChrome.Library.Outbox

/-!
# How often a navigation is sent

A page that asks for a navigation asks for one call of `Page.navigate`, with the frame that is to be navigated among its parameters if the target knows it. The handler seen as an outbox: what was asked for, the calls that were submitted for a navigation, and the requests that the targets have yet to hand out.
-/

namespace SpiderChrome

namespace Goto

/-- What the target hands out for a navigation: the request with its main frame, or nothing if it knows none. -/
def queued (goto : Goto) : List Request :=
  (goto.mainFrame.map fun frameId =>
    (FrameRequestedNavigation.setFrameId ⟨goto.id, goto.req, 0⟩ frameId).req).toList

/-- What a driver submits for a navigation when it takes the command of the page. -/
def direct (driver : Driver) (accepted : Bool) (goto : Goto) : List Request :=
  if driver = .run ∧ accepted = true then [goto.req] else []

/-- The one request that is wanted. -/
def expected (goto : Goto) : Request :=
  match goto.mainFrame with
  | some frameId => (FrameRequestedNavigation.setFrameId ⟨goto.id, goto.req, 0⟩ frameId).req
  | none => goto.req

theorem once_iff (driver : Driver) (accepted : Bool) (goto : Goto) :
    goto.direct driver accepted ++ goto.queued = [goto.expected] ↔
      (driver = .run ∧ accepted = true ↔ goto.mainFrame = none) := by
  unfold direct queued expected
  cases goto.mainFrame with
  | none =>
    by_cases hdirect : driver = .run ∧ accepted = true
    · simp [hdirect]
    · simp [hdirect]
  | some frameId =>
    by_cases hdirect : driver = .run ∧ accepted = true
    · simp [hdirect]
    · simp [hdirect]

end Goto

namespace Handler

/-- The calls that were submitted for a navigation. -/
def navigationCalls (h : Handler) : List (NavigationId × Request) :=
  h.submitted.filterMap fun call => call.2.map fun id => (id, call.1.request)

/-- The requests that a target has yet to hand out. -/
def unsent (h : Handler) (targetId : TargetId) : List (NavigationId × Request) :=
  h.held TargetEvent.sentRequest? FrameManager.unsent targetId

def outbox (h : Handler) : Outbox TargetId NavigationId Request where
  asks := h.gotos.map fun goto => (goto.id, goto.expected)
  sent := h.navigationCalls
  waiting := h.unsent

/-- Every navigation has an id of its own, and one call, which was submitted or is yet to be handed out by one target. -/
def SentOnce (h : Handler) : Prop := h.outbox.Once

/-- What an input does to the outbox. -/
def move (driver : Driver) (h : Handler) : HandlerInput → Outbox.Move TargetId NavigationId Request
  | .turn accepted targetId env now =>
    match h.targets.get targetId with
    | some target =>
      match (pollTarget driver target env now).event with
      | some (.command msg) =>
        let goto : Goto := ⟨⟨h.nextNavigationId⟩, msg.split.1,
          (pollTarget driver target env now).target.frameManager.mainFrame⟩
        if msg.isNavigation then
          .ask targetId goto.id goto.expected (goto.direct driver (driver.accepts accepted))
            goto.queued
        else .drop []
      | some (.navigationRequest _ _) => .handOut targetId (driver.accepts accepted)
      | _ => .drop []
    | none => .drop []
  | input => .drop (h.dropped input)

/-! ### What an input has to heed -/

/-- A navigation has a new id and is submitted at once or by its target, and not both; what a target hands out is taken; and no target is dropped that has something to hand out. -/
def SendsOnce (driver : Driver) (h : Handler) : HandlerInput → Prop
  | .turn accepted targetId env now =>
    ∀ target, h.targets.get targetId = some target →
      match (pollTarget driver target env now).event with
      | some (.command msg) => msg.isNavigation = true →
        (∀ goto ∈ h.gotos, goto.id ≠ ⟨h.nextNavigationId⟩) ∧
          (driver = .run ∧ accepted = true ↔
            (pollTarget driver target env now).target.frameManager.mainFrame = none)
      | some (.navigationRequest _ _) => driver.accepts accepted = true
      | _ => True
  | input => ∀ targetId ∈ h.dropped input, h.unsent targetId = []

/-! ### Calls that leave the records alone -/

/-- What was submitted and asked for. -/
def log (h : Handler) : List (MethodCall × Option NavigationId) × List Goto :=
  (h.submitted, h.gotos)

theorem outbox_of_log (h : Handler) {h' : Handler} (hlog : h'.log = h.log) {places : List TargetId}
    (hheld : ∀ targetId, h'.unsent targetId = if targetId ∈ places then [] else h.unsent targetId) :
    h'.outbox = h.outbox.step (.drop places) := by
  have hsubmitted : h'.submitted = h.submitted := congrArg Prod.fst hlog
  have hgotos : h'.gotos = h.gotos := congrArg Prod.snd hlog
  simp only [outbox, Outbox.step, navigationCalls, hsubmitted, hgotos, Outbox.mk.injEq, true_and]
  exact funext hheld

theorem log_onTargetCreated (h : Handler) (targetInfo : TargetInfo) :
    (h.onTargetCreated targetInfo).log = h.log := by
  obtain ⟨_, _, heq⟩ := h.onTargetCreated_same targetInfo
  rw [heq]
  rfl

theorem log_removeTarget (h : Handler) (targetId : TargetId) :
    (h.removeTarget targetId).log = h.log := by
  obtain ⟨_, _, _, heq⟩ := h.removeTarget_same targetId
  rw [heq]
  rfl

theorem log_cancel (debugTargetId : TargetId → String) (event : EventTargetCrashed) (h : Handler)
    (call : CallId) : (cancel debugTargetId event h call).log = h.log := by
  obtain ⟨_, _, _, heq⟩ := cancel_same debugTargetId event h call
  rw [heq]
  rfl

theorem log_onEvent (h : Handler) (env : Env) (event : CdpEventMessage) :
    (h.onEvent env event).log = h.log := by
  simp only [onEvent]
  split
  · rfl
  · split
    · exact log_onTargetCreated h _
    · rfl
    · exact log_removeTarget h _
    · exact (log_removeTarget _ _).trans (Run.foldl_unchanged (log_cancel _ _) h _)
    · simp only [onDetachedFromTarget]
      split
      · rfl
      · rfl
    · rfl

theorem log_onNavigationResponse (h : Handler) (id : NavigationId) (resp : Response) :
    (h.onNavigationResponse id resp).log = h.log := by
  obtain ⟨_, _, _, heq⟩ := h.onNavigationResponse_same id resp
  rw [heq]
  rfl

theorem log_onNavigationLifecycleCompleted (h : Handler)
    (res : Except NavigationError NavigationOk) :
    (h.onNavigationLifecycleCompleted res).log = h.log := by
  obtain ⟨_, _, _, heq⟩ := h.onNavigationLifecycleCompleted_same res
  rw [heq]
  rfl

theorem log_onResponse (h : Handler) (env : Env) (resp : Response) :
    (h.onResponse env resp).log = h.log := by
  simp only [onResponse]
  split
  · rename_i pending method since _
    cases pending with
    | createTarget tx =>
      simp only [resolve]
      split
      · split
        · rfl
        · rfl
      · rfl
    | getTargets tx =>
      simp only [resolve]
      split
      · exact Run.foldl_unchanged log_onTargetCreated _ _
      · rfl
    | navigate id => exact log_onNavigationResponse _ id resp
    | externalCommand tx targetId => rfl
    | internalCommand targetId => rfl
    | closeBrowser tx => rfl
  · rfl

theorem log_timeOut (h : Handler) (call : CallId) : (h.timeOut call).log = h.log := by
  obtain ⟨_, _, _, _, heq⟩ := h.timeOut_same call
  rw [heq]
  rfl

theorem log_evict (h : Handler) (now : Instant) : (h.evict now).log = h.log := by
  have hevicted : (h.evictTimedOutCommands now).log = h.log := by
    simp only [evictTimedOutCommands]
    split
    · rfl
    · exact Run.foldl_unchanged log_timeOut h _
  exact hevicted

/-! ### Submitting -/

theorem submit_gotos (h : Handler) (accepted : Bool) (req : Request) (pending : PendingRequest)
    (now : Instant) : (h.submit accepted req pending now).gotos = h.gotos := by
  obtain ⟨_, _, _, heq⟩ := h.submit_same accepted req pending now
  rw [heq]

theorem navigationCalls_submit (h : Handler) (accepted : Bool) (req : Request)
    (pending : PendingRequest) (now : Instant) :
    (h.submit accepted req pending now).navigationCalls =
      h.navigationCalls ++
        if accepted then (pending.navigationId?.map fun id => (id, req)).toList else [] := by
  cases accepted with
  | true =>
    simp only [navigationCalls, submit, if_true, List.filterMap_append]
    cases pending.navigationId? with
    | none => rfl
    | some id => rfl
  | false => simp [navigationCalls, submit]

/-- A call that is no navigation's. -/
theorem outbox_submit {h h' : Handler} (accepted : Bool) (req : Request) (pending : PendingRequest)
    (now : Instant) (hpending : pending.navigationId? = none)
    (hlog : h'.log = (h.submit accepted req pending now).log)
    (hheld : ∀ targetId, h'.unsent targetId = h.unsent targetId) :
    h'.outbox = h.outbox.step (.drop []) := by
  have hsubmitted : h'.submitted = (h.submit accepted req pending now).submitted :=
    congrArg Prod.fst hlog
  have hgotos : h'.gotos = h.gotos :=
    (congrArg Prod.snd hlog).trans (submit_gotos h accepted req pending now)
  have hcalls : h'.navigationCalls = h.navigationCalls := by
    have hsubmit := navigationCalls_submit h accepted req pending now
    rw [hpending, Option.map_none, Option.toList_none, ite_self, List.append_nil] at hsubmit
    rw [← hsubmit, navigationCalls, navigationCalls, hsubmitted]
  simp only [outbox, Outbox.step, hcalls, hgotos, Outbox.mk.injEq, true_and, List.not_mem_nil,
    if_false]
  exact funext hheld

theorem outbox_onBrowserMessage (h : Handler) (accepted : Bool) (msg : HandlerMessage)
    (now : Instant) :
    (h.onBrowserMessage accepted msg now).outbox = h.outbox.step (.drop []) := by
  have hheld : ∀ targetId, (h.onBrowserMessage accepted msg now).unsent targetId =
      h.unsent targetId := held_onBrowserMessage h accepted msg now
  have hquiet : (h.onBrowserMessage accepted msg now).log = h.log →
      (h.onBrowserMessage accepted msg now).outbox = h.outbox.step (.drop []) := fun hlog =>
    outbox_of_log h hlog fun targetId => (hheld targetId).trans (if_neg List.not_mem_nil).symm
  cases msg with
  | command cmd =>
    exact outbox_submit accepted cmd.split.1 (.externalCommand cmd.sender (h.commandTarget cmd)) now
      rfl rfl hheld
  | fetchTargets tx =>
    exact outbox_submit accepted ⟨"Target.getTargets", none, .object []⟩ (.getTargets tx) now rfl rfl
      hheld
  | closeBrowser tx =>
    exact outbox_submit accepted ⟨"Browser.close", none, .object []⟩ (.closeBrowser tx) now rfl rfl
      hheld
  | createPage params tx =>
    have hcreated : (h.onBrowserMessage accepted (.createPage params tx) now).log =
        if canCreatePage params.url then
          (h.submit accepted ⟨"Target.createTarget", none, params.value⟩ (.createTarget tx) now).log
        else h.log := by
      have hsubmit : ∀ h' : Handler, h'.log = h.log → (h'.createPage accepted params tx now).log =
          if canCreatePage params.url then
            (h'.submit accepted ⟨"Target.createTarget", none, params.value⟩ (.createTarget tx) now).log
          else h.log := by
        intro h' hlog
        simp only [createPage]
        cases canCreatePage params.url with
        | false => exact hlog
        | true =>
          cases accepted with
          | true => rfl
          | false => rfl
      simp only [onBrowserMessage]
      cases params.browserContextId with
      | none => exact hsubmit h rfl
      | some id =>
        refine (hsubmit { h with browserContexts := insert ⟨some id⟩ h.browserContexts } rfl).trans ?_
        cases accepted with
        | true => rfl
        | false => rfl
    split at hcreated
    · exact outbox_submit accepted ⟨"Target.createTarget", none, params.value⟩ (.createTarget tx) now
        rfl hcreated hheld
    · exact hquiet hcreated
  | getPages tx => exact hquiet rfl
  | getPage targetId tx => exact hquiet rfl
  | insertContext ctx => exact hquiet rfl
  | disposeContext ctx => exact hquiet rfl
  | addEventListener method => exact hquiet rfl

/-! ### Turns -/

theorem onNavigation_gotos (h : Handler) (driver : Driver) (accepted : Bool) (target : Target)
    (msg : CommandMessage) (now : Instant) :
    (h.onNavigation driver accepted target msg now).1.gotos = h.gotos ++
      [⟨⟨h.nextNavigationId⟩, msg.split.1, target.frameManager.mainFrame⟩] := by
  cases driver with
  | stream => rfl
  | run => exact submit_gotos _ accepted _ _ now

theorem onNavigation_navigationCalls (h : Handler) (driver : Driver) (accepted : Bool)
    (target : Target) (msg : CommandMessage) (now : Instant) (mainFrame : Option FrameId) :
    (h.onNavigation driver accepted target msg now).1.navigationCalls = h.navigationCalls ++
      (Goto.direct driver accepted ⟨⟨h.nextNavigationId⟩, msg.split.1, mainFrame⟩).map fun req =>
        (⟨h.nextNavigationId⟩, req) := by
  cases driver with
  | stream => simp [onNavigation, navigationCalls, Goto.direct]
  | run =>
    have hsubmit := navigationCalls_submit { h with
      nextNavigationId := wrappingSucc h.nextNavigationId
      gotos := h.gotos ++ [⟨⟨h.nextNavigationId⟩, msg.split.1, target.frameManager.mainFrame⟩] }
      accepted msg.split.1 (.navigate ⟨h.nextNavigationId⟩) now
    refine hsubmit.trans ?_
    cases accepted with
    | true => rfl
    | false => rfl

section Turn

variable {h : Handler} {driver : Driver} {targetId : TargetId} {target : Target} {env : Env}
  {now : Instant}

/-- The target has one navigation less to hand out. -/
theorem outbox_turn_navigationRequest (htarget : h.targets.get targetId = some target)
    (accepted : Bool) {id : NavigationId} {req : Request}
    (hevent : (pollTarget driver target env now).event = some (.navigationRequest id req)) :
    (h.turn driver accepted targetId env now).outbox =
      h.outbox.step (.handOut targetId (driver.accepts accepted)) := by
  have hturn := turn_of_event htarget accepted hevent
  have hunsent : h.unsent targetId =
      (id, req) :: (pollTarget driver target env now).target.unsent := by
    have hreported := held_polled Target.reports_unsent htarget driver env now
    rw [hevent] at hreported
    exact hreported
  have hcalls : (h.turn driver accepted targetId env now).navigationCalls =
      if driver.accepts accepted then h.navigationCalls ++ (h.unsent targetId).take 1
      else h.navigationCalls := by
    have hsubmit := navigationCalls_submit h (driver.accepts accepted) req (.navigate id) now
    rw [hturn, hunsent]
    refine hsubmit.trans ?_
    cases driver.accepts accepted with
    | true => rfl
    | false => exact List.append_nil _
  have hgotos : (h.turn driver accepted targetId env now).gotos = h.gotos := by
    rw [hturn]
    exact submit_gotos h _ req _ now
  simp only [outbox, Outbox.step, hcalls, hgotos, Outbox.mk.injEq, true_and]
  funext t
  rw [unsent, held_set (turn_targets htarget driver accepted env now), hevent]
  split
  · rename_i hsame
    rw [hsame, hunsent]
    rfl
  · rfl

/-- A command of the page that is no navigation. -/
theorem outbox_turn_command (htarget : h.targets.get targetId = some target) (accepted : Bool)
    {msg : CommandMessage} (hplain : msg.isNavigation = false)
    (hevent : (pollTarget driver target env now).event = some (.command msg)) :
    (h.turn driver accepted targetId env now).outbox = h.outbox.step (.drop []) := by
  have hkept : ∀ t, (h.turn driver accepted targetId env now).unsent t = h.unsent t :=
    held_turn_of_kept Target.reports_unsent htarget driver accepted env now (by rw [hevent]; rfl)
      (by rw [hevent, afterEvent_of_plain h _ hplain])
  have hturn := turn_of_event htarget accepted hevent
  simp only [onTargetEvent, hplain, Bool.false_eq_true, if_false] at hturn
  cases driver with
  | stream =>
    exact outbox_submit true msg.split.1 (.externalCommand msg.sender (h.commandTarget msg)) now rfl
      (by rw [hturn]; rfl) hkept
  | run =>
    exact outbox_submit accepted msg.split.1
      (.externalCommand msg.sender (some (pollTarget .run target env now).target.info.targetId)) now
      rfl (by rw [hturn]; rfl) hkept

/-- A navigation of the page, which is submitted, or given back to the target to queue, or both. -/
theorem outbox_turn_navigation (htarget : h.targets.get targetId = some target) (accepted : Bool)
    {msg : CommandMessage} (hnavigation : msg.isNavigation = true)
    (hevent : (pollTarget driver target env now).event = some (.command msg)) :
    (h.turn driver accepted targetId env now).outbox =
      h.outbox.step (h.move driver (.turn accepted targetId env now)) := by
  have hunsent : h.unsent targetId = (pollTarget driver target env now).target.unsent := by
    have hreported := held_polled Target.reports_unsent htarget driver env now
    rw [hevent] at hreported
    exact hreported
  have hturn := turn_of_event htarget accepted hevent
  simp only [onTargetEvent, hnavigation, if_true] at hturn
  have hgotos : (h.turn driver accepted targetId env now).gotos = h.gotos ++
      [⟨⟨h.nextNavigationId⟩, msg.split.1,
        (pollTarget driver target env now).target.frameManager.mainFrame⟩] := by
    rw [hturn]
    exact onNavigation_gotos h driver _ _ msg now
  have hsubmitted := onNavigation_navigationCalls h driver (driver.accepts accepted)
    (pollTarget driver target env now).target msg now
    (pollTarget driver target env now).target.frameManager.mainFrame
  have hcalls : (h.turn driver accepted targetId env now).navigationCalls = _ :=
    (by rw [hturn]; rfl : _ = _).trans hsubmitted
  simp only [move, htarget, hevent, hnavigation, outbox, Outbox.step, hcalls, hgotos,
    List.map_append, List.map_singleton, if_true, Outbox.mk.injEq, true_and]
  funext t
  rw [unsent, held_set (turn_targets htarget driver accepted env now), hevent,
    afterEvent_of_navigation h _ hnavigation]
  refine (congrArg (fun queue => if t = targetId then queue else h.unsent t)
    (Target.unsent_goto _ _)).trans ?_
  split
  · rename_i hsame
    rw [hsame, hunsent]
    simp only [Goto.queued]
    cases (pollTarget driver target env now).target.frameManager.mainFrame with
    | none => rfl
    | some frameId => rfl
  · rfl

end Turn

theorem outbox_turn (h : Handler) (driver : Driver) (accepted : Bool) (targetId : TargetId)
    (env : Env) (now : Instant) :
    (h.turn driver accepted targetId env now).outbox =
      h.outbox.step (h.move driver (.turn accepted targetId env now)) := by
  cases htarget : h.targets.get targetId with
  | none =>
    rw [turn_of_none htarget]
    simp only [move, htarget, Outbox.step, List.not_mem_nil, if_false]
  | some target =>
    have hkept : (pollTarget driver target env now).event.bind TargetEvent.sentRequest? = none →
        h.afterEvent (pollTarget driver target env now).target
          (pollTarget driver target env now).event = (pollTarget driver target env now).target →
        ∀ t, (h.turn driver accepted targetId env now).unsent t = h.unsent t :=
      held_turn_of_kept Target.reports_unsent htarget driver accepted env now
    have hquiet : (h.turn driver accepted targetId env now).log = h.log →
        (∀ t, (h.turn driver accepted targetId env now).unsent t = h.unsent t) →
        (h.turn driver accepted targetId env now).outbox = h.outbox.step (.drop []) :=
      fun hlog hkept =>
        outbox_of_log h hlog fun t => (hkept t).trans (if_neg List.not_mem_nil).symm
    cases hevent : (pollTarget driver target env now).event with
    | none =>
      rw [hevent] at hkept
      simp only [move, htarget, hevent]
      exact hquiet (by rw [turn_of_idle htarget accepted hevent]; rfl) (hkept rfl rfl)
    | some event =>
      rw [hevent] at hkept
      have hturn := turn_of_event htarget accepted hevent
      cases event with
      | request req =>
        simp only [move, htarget, hevent]
        exact outbox_submit (driver.accepts accepted) req
          (.internalCommand (pollTarget driver target env now).target.info.targetId) now rfl
          (by rw [hturn]; rfl) (hkept rfl rfl)
      | navigationResult res =>
        simp only [move, htarget, hevent]
        refine hquiet ?_ (hkept rfl rfl)
        rw [hturn]
        exact log_onNavigationLifecycleCompleted h res
      | bytesConsumed bytes =>
        simp only [move, htarget, hevent]
        refine hquiet ?_ (hkept rfl rfl)
        rw [hturn]
        simp only [onTargetEvent]
        split
        · rfl
        · rfl
      | navigationRequest id req =>
        simp only [move, htarget, hevent]
        exact outbox_turn_navigationRequest htarget accepted hevent
      | command msg =>
        cases hnavigation : msg.isNavigation with
        | false =>
          simp only [move, htarget, hevent, hnavigation, Bool.false_eq_true, if_false]
          exact outbox_turn_command htarget accepted hnavigation hevent
        | true => exact outbox_turn_navigation htarget accepted hnavigation hevent

/-- Every input does to the outbox what its move does. -/
theorem outbox_step (h : Handler) (driver : Driver) (input : HandlerInput) :
    (h.step driver input).outbox = h.outbox.step (h.move driver input) := by
  have hheld : (∀ accepted targetId env now, input ≠ .turn accepted targetId env now) →
      ∀ targetId, (h.step driver input).unsent targetId =
        if targetId ∈ h.dropped input then [] else h.unsent targetId :=
    fun hinput => held_step Target.reports_unsent driver h hinput
  cases input with
  | browserMessage accepted msg now => exact outbox_onBrowserMessage h (driver.accepts accepted) msg now
  | pageMessage targetId msg =>
    refine outbox_of_log h ?_ (hheld fun _ _ _ _ h => by cases h)
    rfl
  | drainPage targetId =>
    have hkept := hheld fun _ _ _ _ h => by cases h
    refine outbox_of_log h ?_ hkept
    cases driver with
    | stream => rfl
    | run => rfl
  | turn accepted targetId env now => exact outbox_turn h driver accepted targetId env now
  | blockExhausted =>
    refine outbox_of_log h ?_ (hheld fun _ _ _ _ h => by cases h)
    simp only [step, blockExhausted]
    split
    · rfl
    · rfl
  | response env resp =>
    exact outbox_of_log h (log_onResponse h env resp) (hheld fun _ _ _ _ h => by cases h)
  | event env event =>
    exact outbox_of_log h (log_onEvent h env event) (hheld fun _ _ _ _ h => by cases h)
  | evict now => exact outbox_of_log h (log_evict h now) (hheld fun _ _ _ _ h => by cases h)

/-! ### Runs -/

theorem heeds_iff (h : Handler) (driver : Driver) (input : HandlerInput) :
    h.outbox.Heeds (h.move driver input) ↔ h.SendsOnce driver input := by
  have hnone : h.outbox.Heeds (.drop []) := fun _ hmem => absurd hmem List.not_mem_nil
  cases input with
  | turn accepted targetId env now =>
    simp only [move, SendsOnce]
    cases htarget : h.targets.get targetId with
    | none => exact iff_of_true hnone fun target hget => by cases hget
    | some target =>
      have hreported : h.unsent targetId =
          ((pollTarget driver target env now).event.bind TargetEvent.sentRequest?).toList ++
            (pollTarget driver target env now).target.unsent :=
        held_polled Target.reports_unsent htarget driver env now
      simp only [Option.some.injEq, forall_eq']
      cases hevent : (pollTarget driver target env now).event with
      | none => exact iff_of_true hnone trivial
      | some event =>
        rw [hevent] at hreported
        cases event with
        | navigationRequest id req =>
          have hwaiting : h.outbox.waiting targetId ≠ [] := by
            change h.unsent targetId ≠ []
            rw [hreported]
            exact List.cons_ne_nil _ _
          exact or_iff_left hwaiting
        | command msg =>
          cases hnavigation : msg.isNavigation with
          | false =>
            simp only [hnavigation, Bool.false_eq_true, if_false, false_implies]
            exact iff_of_true hnone trivial
          | true =>
            have hfresh : (⟨h.nextNavigationId⟩ : NavigationId) ∉ h.outbox.asks.map Prod.fst ↔
                ∀ goto ∈ h.gotos, goto.id ≠ ⟨h.nextNavigationId⟩ := by
              simp [outbox]
            have hdriver : driver = .run ∧ driver.accepts accepted = true ↔
                driver = .run ∧ accepted = true := by
              cases driver with
              | stream => simp
              | run => rfl
            simp only [hnavigation, if_true, true_implies, Outbox.Heeds, hfresh, Goto.once_iff, hdriver]
        | request req => exact iff_of_true hnone trivial
        | navigationResult res => exact iff_of_true hnone trivial
        | bytesConsumed bytes => exact iff_of_true hnone trivial
  | _ => exact Iff.rfl

/-- All through a run every navigation is sent once, or is about to be, just when each input of the run heeds what it takes. -/
theorem sent_once_iff (driver : Driver) (config : HandlerConfig) (inputs : List HandlerInput) :
    Run.Always (step driver) SentOnce (new config) inputs ↔
      Run.Allowed (step driver) (SendsOnce driver) (new config) inputs := by
  refine Run.always_iff_allowed (fun h _ => h.outbox.Sound) (fun h input _ hsound => ?_)
    (fun h input _ hsound honce => ?_) ?_ ?_
  · rw [outbox_step]
    exact hsound.step _
  · rw [SentOnce, outbox_step, Outbox.once_step_iff hsound honce, heeds_iff]
  · exact ⟨fun _ hmem => absurd hmem List.not_mem_nil, fun _ _ hmem => absurd hmem List.not_mem_nil⟩
  · exact ⟨List.nodup_nil, fun _ hmem => absurd hmem List.not_mem_nil⟩

end Handler

end SpiderChrome
