import SpiderChrome.Handler.Goto
import SpiderChrome.Parallel.Session

/-!
# The drivers compared

A session task seen as an outbox, as the handler is in `Handler/Goto.lean`. It submits the command of a page and what its target hands out, as `run` does, so the two of them and the stream can be held against each other: what it takes for a navigation to be sent once is stated for each, and no navigation meets it under all three unless the calls are refused.
-/

namespace SpiderChrome

namespace SessionTask

/-- The calls that were submitted for a navigation. -/
def navigationCalls (task : SessionTask) : List (NavigationId × Request) :=
  task.submitted.filterMap fun call => call.2.map fun id => (id, call.1.request)

/-- The requests that the target has yet to hand out. -/
def unsent (task : SessionTask) : List (NavigationId × Request) :=
  if task.stopped then [] else task.target.unsent

def outbox (task : SessionTask) : Outbox Unit NavigationId Request where
  asks := task.gotos.map fun goto => (goto.id, goto.expected)
  sent := task.navigationCalls
  waiting := fun _ => task.unsent

/-- Every navigation has an id of its own, and one call, which was submitted or is yet to be handed out. -/
def SentOnce (task : SessionTask) : Prop := task.outbox.Once

/-- The navigation that a command of the page starts, as the task records it. -/
def gotoOf (task : SessionTask) (target : Target) (msg : CommandMessage) : Goto :=
  ⟨⟨task.nextNavId⟩, msg.split.1, target.frameManager.mainFrame⟩

/-- What a turn does to the outbox. -/
def turnMove (task : SessionTask) (accepted : Bool) (polled : Target.Polled) :
    Outbox.Move Unit NavigationId Request :=
  match polled.event with
  | some (.command msg) =>
    let goto := task.gotoOf polled.target msg
    if msg.isNavigation then
      .ask () goto.id goto.expected (goto.direct .run accepted) goto.queued
    else .drop []
  | some (.navigationRequest _ _) => .handOut () accepted
  | _ => .drop []

/-- What an input does to the outbox. -/
def move (task : SessionTask) (input : SessionInput) : Outbox.Move Unit NavigationId Request :=
  if task.stopped then .drop []
  else match input with
    | .shutdown => .drop [()]
    | .turn accepted _ env now => task.turnMove accepted (task.target.advance env now)
    | _ => .drop []

/-- What a turn has to heed: a navigation has a new id and is submitted at once or by its target, and not both, and what the target hands out is taken. -/
def TurnSendsOnce (task : SessionTask) (accepted : Bool) (polled : Target.Polled) : Prop :=
  match polled.event with
  | some (.command msg) => msg.isNavigation = true →
    (∀ goto ∈ task.gotos, goto.id ≠ ⟨task.nextNavId⟩) ∧
      (accepted = true ↔ polled.target.frameManager.mainFrame = none)
  | some (.navigationRequest _ _) => accepted = true
  | _ => True

/-- The turns heed what they have to, and the task does not stop while its target has something to hand out. -/
def SendsOnce (task : SessionTask) (input : SessionInput) : Prop :=
  task.stopped = false →
    match input with
    | .shutdown => task.target.unsent = []
    | .turn accepted _ env now => task.TurnSendsOnce accepted (task.target.advance env now)
    | _ => True

/-! ### Calls that leave the outbox alone -/

/-- The two tasks have the same outbox, and are both stopped or both not. -/
structure Same (task task' : SessionTask) : Prop where
  navigationCalls : task'.navigationCalls = task.navigationCalls
  gotos : task'.gotos = task.gotos
  stopped : task'.stopped = task.stopped
  unsent : task'.target.unsent = task.target.unsent

theorem Same.refl (task : SessionTask) : Same task task := ⟨rfl, rfl, rfl, rfl⟩

theorem Same.trans {task task' task'' : SessionTask} (h : Same task task') (h' : Same task' task'') :
    Same task task'' :=
  ⟨h'.navigationCalls.trans h.navigationCalls, h'.gotos.trans h.gotos, h'.stopped.trans h.stopped,
    h'.unsent.trans h.unsent⟩

theorem Same.outbox {task task' : SessionTask} (h : Same task task') :
    task'.outbox = task.outbox.step (.drop []) := by
  simp only [SessionTask.outbox, SessionTask.unsent, h.navigationCalls, h.gotos, h.stopped,
    h.unsent, Outbox.step, List.not_mem_nil, if_false]

theorem same_onNavigationResponse (task : SessionTask) (navId : NavigationId) (resp : Response) :
    Same task (task.onNavigationResponse navId resp) := by
  simp only [onNavigationResponse]
  split
  · split
    · exact ⟨rfl, rfl, rfl, rfl⟩
    · exact ⟨rfl, rfl, rfl, rfl⟩
  · exact .refl task

theorem same_onNavigationLifecycleCompleted (task : SessionTask)
    (res : Except NavigationError NavigationOk) :
    Same task (task.onNavigationLifecycleCompleted res) := by
  cases res with
  | ok ok =>
    simp only [onNavigationLifecycleCompleted]
    split
    · split
      · exact ⟨rfl, rfl, rfl, rfl⟩
      · exact ⟨rfl, rfl, rfl, rfl⟩
    · exact .refl task
  | error err =>
    simp only [onNavigationLifecycleCompleted]
    split
    · exact ⟨rfl, rfl, rfl, rfl⟩
    · exact .refl task

theorem same_storeSessionId (task : SessionTask) (decoders : Decoders) (method : MethodId)
    (resp : Response) : Same task (task.storeSessionId decoders method resp) := by
  simp only [storeSessionId]
  split
  · exact .refl task
  · split
    · exact ⟨rfl, rfl, rfl, Target.backlog_of_eq rfl rfl⟩
    · exact .refl task

theorem same_onResponse (task : SessionTask) (env : Env) (callId : CallId) (resp : Response) :
    Same task (task.onResponse env callId resp) := by
  have hpending : Same task { task with pending := task.pending.remove callId } :=
    ⟨rfl, rfl, rfl, rfl⟩
  simp only [onResponse]
  split
  · rename_i pending method since _
    cases pending with
    | internal =>
      have hstored := same_storeSessionId { task with pending := task.pending.remove callId }
        env.decoders method resp
      exact ⟨hstored.navigationCalls, hstored.gotos, hstored.stopped,
        (Target.backlog_onResponse Target.reports_unsent.drains _ env resp method).trans hstored.unsent⟩
    | external tx => exact ⟨rfl, rfl, rfl, rfl⟩
    | navigate navId => exact hpending.trans (same_onNavigationResponse _ navId resp)
  · exact .refl task

theorem same_timeOut (task : SessionTask) (callId : CallId) : Same task (task.timeOut callId) := by
  simp only [timeOut]
  split
  · split
    · exact ⟨rfl, rfl, rfl, rfl⟩
    · exact ⟨rfl, rfl, rfl, rfl⟩
    · split
      · exact ⟨rfl, rfl, rfl, rfl⟩
      · exact ⟨rfl, rfl, rfl, rfl⟩
  · exact .refl task

theorem same_evictStale (task : SessionTask) (now : Instant) : Same task (task.evictStale now) := by
  simp only [evictStale]
  split
  · exact .refl task
  · exact Run.foldl_rel .refl .trans same_timeOut task _

theorem same_cancelInFlight (task : SessionTask) : Same task task.cancelInFlight := by
  have hcancel : ∀ (task : SessionTask) (pending : SessionPending),
      Same task (task.cancelPending pending) := by
    intro task pending
    cases pending with
    | internal => exact .refl task
    | external tx => exact ⟨rfl, rfl, rfl, rfl⟩
    | navigate navId =>
      simp only [cancelPending]
      split
      · exact ⟨rfl, rfl, rfl, rfl⟩
      · exact .refl task
  have hpending : Same task { task with pending := ∅ } := ⟨rfl, rfl, rfl, rfl⟩
  have hfold := hpending.trans
    (Run.foldl_rel .refl .trans hcancel { task with pending := ∅ } (task.pending.values.map Prod.fst))
  exact ⟨hfold.navigationCalls, hfold.gotos, hfold.stopped, hfold.unsent⟩

theorem same_drainPage (task : SessionTask) : Same task task.drainPage := by
  simp only [drainPage]
  split
  · rename_i handle _
    have hfold := Run.foldl_unchanged (Target.backlog_onPageMessage Target.reports_unsent)
      { task.target with page := some { handle with rx := [] } }
    exact ⟨rfl, rfl, rfl, (hfold _).trans (Target.backlog_of_eq rfl rfl)⟩
  · exact .refl task

/-! ### Turns -/

theorem navigationCalls_submit (task : SessionTask) (callId : CallId) (req : Request)
    (pending : SessionPending) (now : Instant) :
    (task.submit true callId req pending now).navigationCalls =
      task.navigationCalls ++ (pending.navigationId?.map fun id => (id, req)).toList := by
  simp only [navigationCalls, submit, if_true, List.filterMap_append]
  cases pending.navigationId? with
  | none => rfl
  | some id => rfl

/-- A call that is no navigation's. -/
theorem same_submit (task : SessionTask) (accepted : Bool) (callId : CallId) (req : Request)
    {pending : SessionPending} (hpending : pending.navigationId? = none) (now : Instant) :
    Same task (task.submit accepted callId req pending now) := by
  cases accepted with
  | false => exact .refl task
  | true =>
    have hcalls := navigationCalls_submit task callId req pending now
    rw [hpending, Option.map_none, Option.toList_none, List.append_nil] at hcalls
    exact ⟨hcalls, rfl, rfl, rfl⟩

theorem same_submitExternal (task : SessionTask) (accepted : Bool) (callId : CallId)
    (msg : CommandMessage) (now : Instant) :
    Same task (task.submitExternal accepted callId msg now) := by
  cases accepted with
  | false => exact ⟨rfl, rfl, rfl, rfl⟩
  | true => exact same_submit task true callId msg.split.1 rfl now

theorem outbox_submitNavRequest (task : SessionTask) (accepted : Bool) (callId : CallId)
    (navId : NavigationId) (req : Request) (now : Instant) {target : Target}
    (hstopped : task.stopped = false)
    (hunsent : task.target.unsent = (navId, req) :: target.unsent) :
    ({ task with target := target }.submitNavRequest accepted callId navId req now).outbox =
      task.outbox.step (.handOut () accepted) := by
  cases accepted with
  | false =>
    simp only [submitNavRequest, outbox, navigationCalls, SessionTask.unsent, hstopped, hunsent,
      Outbox.step, Bool.false_eq_true, if_false, if_true, List.drop_one, List.tail_cons]
  | true =>
    have hcalls := navigationCalls_submit { task with target := target } callId req
      (.navigate navId) now
    simp only [submitNavRequest, outbox, hcalls, Outbox.step, if_true, Outbox.mk.injEq]
    simp only [SessionTask.unsent, submit, hstopped, hunsent, Bool.false_eq_true, if_false,
      if_true, List.take_succ_cons, List.take_zero, List.drop_one, List.tail_cons, and_true]
    exact ⟨trivial, rfl⟩

theorem outbox_submitNavigationCommand (task : SessionTask) (accepted : Bool) (callId : CallId)
    (msg : CommandMessage) (now : Instant) {target : Target} (hstopped : task.stopped = false)
    (hunsent : task.target.unsent = target.unsent) :
    ({ task with target := target }.submitNavigationCommand accepted callId msg now).outbox =
      task.outbox.step (.ask () (task.gotoOf target msg).id (task.gotoOf target msg).expected
        ((task.gotoOf target msg).direct .run accepted) (task.gotoOf target msg).queued) := by
  have hqueued : (target.goto ⟨⟨task.nextNavId⟩, msg.split.1, task.requestTimeout⟩).unsent =
      task.target.unsent ++ (task.gotoOf target msg).queued.map fun m => (⟨task.nextNavId⟩, m) := by
    rw [Target.unsent_goto, hunsent]
    simp only [Goto.queued, gotoOf]
    cases target.frameManager.mainFrame with
    | none => rfl
    | some frameId => rfl
  have hcalls :
      ({ task with target := target }.submitNavigationCommand accepted callId msg now).navigationCalls =
        task.navigationCalls ++ ((task.gotoOf target msg).direct .run accepted).map fun m =>
          (⟨task.nextNavId⟩, m) := by
    cases accepted with
    | false => exact (List.append_nil _).symm
    | true =>
      exact navigationCalls_submit { task with
        nextNavId := wrappingSucc task.nextNavId
        gotos := task.gotos ++ [task.gotoOf target msg]
        target := target.goto ⟨⟨task.nextNavId⟩, msg.split.1, task.requestTimeout⟩ } callId
        msg.split.1 (.navigate ⟨task.nextNavId⟩) now
  have hrest :
      ({ task with target := target }.submitNavigationCommand accepted callId msg now).gotos =
        task.gotos ++ [task.gotoOf target msg] ∧
      ({ task with target := target }.submitNavigationCommand accepted callId msg now).unsent =
        task.unsent ++ (task.gotoOf target msg).queued.map fun m => (⟨task.nextNavId⟩, m) := by
    cases accepted with
    | false =>
      refine ⟨rfl, ?_⟩
      simp only [SessionTask.unsent, submitNavigationCommand, send, hstopped, Bool.false_eq_true,
        if_false]
      exact hqueued
    | true =>
      refine ⟨rfl, ?_⟩
      simp only [SessionTask.unsent, submitNavigationCommand, submit, hstopped, Bool.false_eq_true,
        if_false, if_true]
      exact hqueued
  simp only [outbox, hcalls, hrest, Outbox.step, List.map_append, List.map_singleton, if_true]
  rfl

theorem outbox_turn (task : SessionTask) (accepted : Bool) (callId : CallId) (env : Env)
    (now : Instant) (hstopped : task.stopped = false) :
    (task.turn accepted callId env now).outbox =
      task.outbox.step (task.turnMove accepted (task.target.advance env now)) := by
  have hreported : task.target.unsent =
      ((task.target.advance env now).event.bind TargetEvent.sentRequest?).toList ++
        (task.target.advance env now).target.unsent :=
    Target.backlog_advance Target.reports_unsent.drains task.target env now
  simp only [turn, turnMove]
  generalize task.target.advance env now = polled at hreported ⊢
  obtain ⟨target, event, woken⟩ := polled
  dsimp only at hreported ⊢
  have hquiet : event.bind TargetEvent.sentRequest? = none → Same task { task with target := target } := by
    intro hnone
    rw [hnone] at hreported
    exact ⟨rfl, rfl, rfl, hreported.symm⟩
  cases event with
  | none => exact (hquiet rfl).outbox
  | some event =>
    cases event with
    | request req => exact ((hquiet rfl).trans (same_submit _ accepted callId req rfl now)).outbox
    | navigationResult res =>
      exact ((hquiet rfl).trans (same_onNavigationLifecycleCompleted _ res)).outbox
    | bytesConsumed bytes => exact (hquiet rfl).outbox
    | navigationRequest navId req =>
      exact outbox_submitNavRequest task accepted callId navId req now hstopped hreported
    | command msg =>
      cases hnavigation : msg.isNavigation with
      | false =>
        simp only [onTargetEvent, hnavigation, Bool.false_eq_true, if_false]
        exact ((hquiet rfl).trans (same_submitExternal _ accepted callId msg now)).outbox
      | true =>
        simp only [onTargetEvent, hnavigation, if_true]
        exact outbox_submitNavigationCommand task accepted callId msg now hstopped hreported

/-! ### Runs -/

theorem step_of_stopped {task : SessionTask} (hstopped : task.stopped = true)
    (input : SessionInput) : task.step input = task :=
  if_pos hstopped

theorem move_of_stopped {task : SessionTask} (hstopped : task.stopped = true)
    (input : SessionInput) : task.move input = .drop [] :=
  if_pos hstopped

theorem same_onInput (task : SessionTask) {input : SessionInput} (hshutdown : input ≠ .shutdown)
    (hturn : ∀ accepted callId env now, input ≠ .turn accepted callId env now) :
    Same task (task.step input) := by
  simp only [step]
  split
  · exact .refl task
  · cases input with
    | response env callId resp => exact same_onResponse task env callId resp
    | event env event =>
      exact ⟨rfl, rfl, rfl, Target.backlog_onEvent Target.reports_unsent.drains task.target env event⟩
    | setInitiator tx => exact ⟨rfl, rfl, rfl, Target.backlog_of_eq rfl rfl⟩
    | shutdown => exact absurd rfl hshutdown
    | evict now => exact same_evictStale task now
    | pageMessage msg => exact ⟨rfl, rfl, rfl, Target.backlog_of_eq rfl rfl⟩
    | drainPage => exact same_drainPage task
    | turn accepted callId env now => exact absurd rfl (hturn accepted callId env now)

theorem move_of_other (task : SessionTask) {input : SessionInput} (hshutdown : input ≠ .shutdown)
    (hturn : ∀ accepted callId env now, input ≠ .turn accepted callId env now) :
    task.move input = .drop [] := by
  simp only [move]
  split
  · rfl
  · cases input with
    | shutdown => exact absurd rfl hshutdown
    | turn accepted callId env now => exact absurd rfl (hturn accepted callId env now)
    | _ => rfl

theorem outbox_shutdown (task : SessionTask) (hstopped : task.stopped = false) :
    (task.step .shutdown).outbox = task.outbox.step (task.move .shutdown) := by
  have hsame := same_cancelInFlight task
  have hcalls : (task.step .shutdown).navigationCalls = task.navigationCalls := by
    simp only [step, hstopped, Bool.false_eq_true, if_false]
    exact hsame.navigationCalls
  have hgotos : (task.step .shutdown).gotos = task.gotos := by
    simp only [step, hstopped, Bool.false_eq_true, if_false]
    exact hsame.gotos
  have hunsent : (task.step .shutdown).unsent = [] := by
    simp only [SessionTask.unsent, step, hstopped, Bool.false_eq_true, if_false, if_true]
  simp only [outbox, hcalls, hgotos, hunsent, move, hstopped, Bool.false_eq_true, if_false,
    Outbox.step, List.mem_singleton, if_true]

theorem outbox_step (task : SessionTask) (input : SessionInput) :
    (task.step input).outbox = task.outbox.step (task.move input) := by
  cases hstopped : task.stopped with
  | true =>
    rw [step_of_stopped hstopped, move_of_stopped hstopped]
    exact (Same.refl task).outbox
  | false =>
    cases input with
    | shutdown => exact outbox_shutdown task hstopped
    | turn accepted callId env now =>
      simp only [step, move, hstopped, Bool.false_eq_true, if_false]
      exact outbox_turn task accepted callId env now hstopped
    | _ =>
      rw [move_of_other]
      · exact (same_onInput task (by simp) (by simp)).outbox
      · simp
      · simp

theorem heeds_turn_iff (task : SessionTask) (accepted : Bool) (env : Env) (now : Instant)
    (hstopped : task.stopped = false) :
    task.outbox.Heeds (task.turnMove accepted (task.target.advance env now)) ↔
      task.TurnSendsOnce accepted (task.target.advance env now) := by
  have hnone : task.outbox.Heeds (.drop []) := fun _ hmem => absurd hmem List.not_mem_nil
  have hreported : task.target.unsent =
      ((task.target.advance env now).event.bind TargetEvent.sentRequest?).toList ++
        (task.target.advance env now).target.unsent :=
    Target.backlog_advance Target.reports_unsent.drains task.target env now
  simp only [turnMove, TurnSendsOnce]
  cases hevent : (task.target.advance env now).event with
  | none => exact iff_of_true hnone trivial
  | some event =>
    rw [hevent] at hreported
    cases event with
    | navigationRequest navId req =>
      have hwaiting : task.outbox.waiting () ≠ [] := by
        simp only [outbox, SessionTask.unsent, hstopped, Bool.false_eq_true, if_false]
        rw [hreported]
        exact List.cons_ne_nil _ _
      exact or_iff_left hwaiting
    | command msg =>
      cases hnavigation : msg.isNavigation with
      | false =>
        simp only [hnavigation, Bool.false_eq_true, if_false, false_implies]
        exact iff_of_true hnone trivial
      | true =>
        simp only [hnavigation, if_true, true_implies, Outbox.Heeds, Goto.once_iff]
        simp [outbox, gotoOf]
    | request req => exact iff_of_true hnone trivial
    | navigationResult res => exact iff_of_true hnone trivial
    | bytesConsumed bytes => exact iff_of_true hnone trivial

theorem heeds_iff (task : SessionTask) (input : SessionInput) :
    task.outbox.Heeds (task.move input) ↔ task.SendsOnce input := by
  have hnone : task.outbox.Heeds (.drop []) := fun _ hmem => absurd hmem List.not_mem_nil
  cases hstopped : task.stopped with
  | true =>
    simp only [move, SendsOnce, hstopped, if_true]
    exact iff_of_true hnone fun h => by cases h
  | false =>
    simp only [move, SendsOnce, hstopped, Bool.false_eq_true, if_false, true_implies]
    cases input with
    | shutdown => simp [Outbox.Heeds, outbox, SessionTask.unsent, hstopped]
    | turn accepted callId env now => exact heeds_turn_iff task accepted env now hstopped
    | _ => exact iff_of_true hnone trivial

theorem sent_once_iff (slot : UInt16) (config : HandlerConfig) (info : TargetInfo)
    (context : BrowserContext) (inputs : List SessionInput) :
    Run.Always step SentOnce (spawned slot config info context) inputs ↔
      Run.Allowed step SendsOnce (spawned slot config info context) inputs := by
  refine Run.always_iff_allowed (fun task _ => task.outbox.Sound) (fun task input _ hsound => ?_)
    (fun task input _ hsound honce => ?_) ?_ ?_
  · rw [outbox_step]
    exact hsound.step _
  · rw [SentOnce, outbox_step, Outbox.once_step_iff hsound honce, heeds_iff]
  · exact ⟨fun _ hmem => absurd hmem List.not_mem_nil, fun _ _ hmem => absurd hmem List.not_mem_nil⟩
  · exact ⟨List.nodup_nil, fun _ hmem => absurd hmem List.not_mem_nil⟩

end SessionTask

/-! ### The three drivers -/

namespace Goto

/-- The calls that a navigation leads to where everything that its target hands out is taken. A session task takes the command of a page as `run` does. -/
def calls (driver : Driver) (accepted : Bool) (goto : Goto) : List Request :=
  goto.direct driver accepted ++ goto.queued

theorem calls_eq_iff (accepted streamed : Bool) (goto : Goto) :
    goto.calls .stream streamed = goto.calls .run accepted ↔ accepted = false := by
  have hstream : goto.direct .stream streamed = [] := if_neg fun h => by cases h.1
  simp only [calls, hstream, List.nil_append]
  cases accepted with
  | false => exact iff_of_true rfl rfl
  | true =>
    refine iff_of_false (fun heq => ?_) (by decide)
    have hlength := congrArg List.length heq
    simp only [direct, and_self, if_true, List.length_append, List.length_singleton] at hlength
    omega

end Goto

/-- A navigation is sent once in every run of a driver that heeds what the driver needs for it, and in no other; and the drivers send the same for a navigation just when the writer refuses the call that `run` and the session tasks submit at once. -/
theorem goto_sent_once_iff (driver : Driver) (slot : UInt16) (config : HandlerConfig)
    (info : TargetInfo) (context : BrowserContext) (inputs : List HandlerInput)
    (taskInputs : List SessionInput) (goto : Goto) (accepted streamed : Bool) :
    (Run.Always (Handler.step driver) Handler.SentOnce (.new config) inputs ↔
      Run.Allowed (Handler.step driver) (Handler.SendsOnce driver) (.new config) inputs) ∧
    (Run.Always SessionTask.step SessionTask.SentOnce
        (SessionTask.spawned slot config info context) taskInputs ↔
      Run.Allowed SessionTask.step SessionTask.SendsOnce
        (SessionTask.spawned slot config info context) taskInputs) ∧
    (goto.calls .stream streamed = goto.calls .run accepted ↔ accepted = false) :=
  ⟨Handler.sent_once_iff driver config inputs,
    SessionTask.sent_once_iff slot config info context taskInputs,
    goto.calls_eq_iff accepted streamed⟩

/-- A page with one frame is asked to navigate. The stream submits one call for it, `run` and the session task submit two. -/
theorem goto_sent_twice :
    (Run.final (Handler.step .stream) (.new Handler.plainConfig)
      (Handler.openPage ++ Handler.gotoPage)).navigationCalls.map Prod.fst = [⟨0⟩] ∧
    ¬ Run.Always (Handler.step .run) Handler.SentOnce (.new Handler.plainConfig)
      (Handler.openPage ++ Handler.gotoPage) ∧
    ¬ Run.Always SessionTask.step SessionTask.SentOnce
      (SessionTask.spawned 0 Handler.plainConfig ⟨Handler.plainTarget, "page", none, none⟩ ⟨none⟩)
      (SessionTask.openPage ++ SessionTask.gotoPage) := by
  refine ⟨by decide +kernel, fun halways => ?_, fun halways => ?_⟩
  · have hle := halways.last.length_sent_le ⟨0⟩ (by decide +kernel)
    revert hle
    decide +kernel
  · have hle := halways.last.length_sent_le ⟨0⟩ (by decide +kernel)
    revert hle
    decide +kernel

end SpiderChrome
