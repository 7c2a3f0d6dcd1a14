import SpiderChrome.Parallel.Initiators
import SpiderChrome.Target.Commands

/-!
# What a session task owes

A task has senders of oneshot channels in many places: in the commands that wait in the channel of its page and in the queue of its target, in the calls and the navigations that it has under way, with its target as the initiator, and in its inbox. When it leaves its loop it answers the calls and the navigations. As long as no other place holds a sender then, and nothing that holds one is given another before, everybody is answered, and nobody twice.
-/

namespace SpiderChrome

/-! ### The senders of a task -/

def SessionPending.senders : SessionPending → List Sender
  | .external tx => [tx]
  | .internal | .navigate _ => []

namespace SessionTask

/-- The senders that wait under a call id. -/
def waitingUnder (task : SessionTask) (callId : CallId) : List Sender :=
  task.pending.part (fun _ entry => entry.1.senders) callId

/-- The senders that a task holds: those of the commands that its page has sent, of its target's initiator, of the calls that wait and of the navigations. -/
def owed (task : SessionTask) : List Sender :=
  task.target.commandSenders ++ task.target.initiator.toList ++
    task.pending.gather (fun _ entry => entry.1.senders) ++ task.navigations.gather fun _ nav => [nav.tx]

/-- The senders that a task has sent something on: a response or an error, or a page. -/
def resolved (task : SessionTask) : List Sender :=
  task.replies.map Prod.fst ++ pageAnswers task.target.replies

/-- All that a task has got. -/
def got (task : SessionTask) : List Sender := task.owed ++ task.resolved

variable {task task' : SessionTask}

theorem count_got (task : SessionTask) (tx : Sender) :
    task.got.count tx = task.target.commandSenders.count tx + task.target.initiators.count tx +
      (task.pending.gather fun _ entry => entry.1.senders).count tx +
      (task.navigations.gather fun _ nav => [nav.tx]).count tx + (task.replies.map Prod.fst).count tx := by
  simp only [got, owed, resolved, Target.initiators, List.count_append]
  omega

/-- The target answers what it answers. -/
theorem got_of_target {target : Target} (hcommands : target.commandSenders.Perm task.target.commandSenders)
    (hsame : task.target.SameInitiators target) : ({ task with target := target }.got).Perm task.got := by
  refine List.perm_iff_count.2 fun tx => ?_
  have hinitiators := hsame.initiators.count_eq tx
  have hcommands := hcommands.count_eq tx
  rw [count_got, count_got]
  dsimp only
  omega

/-! ### Calls -/

/-- A call is submitted, under an id that no sender waits under. -/
theorem count_submit {callId : CallId} (hfree : task.waitingUnder callId = []) (req : Request)
    (pending : SessionPending) (now : Instant) (tx : Sender) :
    (task.submit true callId req pending now).got.count tx = task.got.count tx + pending.senders.count tx := by
  have hold := (task.pending.gather_perm_part (fun _ entry => entry.1.senders) callId).count_eq tx
  have hnew : ((task.pending.set callId (pending, req.method, now)).gather fun _ entry => entry.1.senders).count tx =
      pending.senders.count tx + ((task.pending.remove callId).gather fun _ entry => entry.1.senders).count tx := by
    rw [Table.gather, Table.toList_set, List.flatMap_cons, List.count_append]
    rfl
  unfold waitingUnder at hfree
  rw [hfree, List.nil_append] at hold
  rw [count_got, count_got]
  simp only [submit, if_true]
  omega

/-- A call does not wait any more, and its sender has its answer. -/
theorem count_retire {callId : CallId} {entry : SessionPending × MethodId × Instant}
    (hentry : task.pending.get callId = some entry) {replies : List (Sender × Reply)}
    (hreplies : replies.map Prod.fst = entry.1.senders) (tx : Sender) :
    ({ task with
      pending := task.pending.remove callId
      replies := task.replies ++ replies }.got).count tx = task.got.count tx := by
  have hpending := (task.pending.gather_perm_part (fun _ entry => entry.1.senders) callId).count_eq tx
  rw [Table.part_of_get hentry, List.count_append, ← hreplies] at hpending
  rw [count_got, count_got]
  simp only [List.map_append, List.count_append]
  omega

/-- The same of a call without a sender. -/
theorem count_retire_quiet {callId : CallId} {entry : SessionPending × MethodId × Instant}
    (hentry : task.pending.get callId = some entry) (hquiet : entry.1.senders = []) (tx : Sender) :
    ({ task with pending := task.pending.remove callId }.got).count tx = task.got.count tx := by
  have hreplies : ([] : List (Sender × Reply)).map Prod.fst = entry.1.senders := hquiet.symm
  have hretired := count_retire hentry hreplies tx
  rwa [List.append_nil] at hretired

/-! ### Navigations -/

/-- A navigation comes to its end, and its sender has its answer. -/
theorem count_ends {navId : NavigationId} {nav : NavigationInProgress} (hnav : task.navigations.get navId = some nav)
    (reply : Reply) (tx : Sender) :
    ({ task with navigations := task.navigations.remove navId }.send nav.tx reply).got.count tx =
      task.got.count tx := by
  have hgone := (task.navigations.gather_perm_part (fun _ nav => [nav.tx]) navId).count_eq tx
  rw [Table.part_of_get hnav, List.count_append] at hgone
  rw [count_got, count_got]
  simp only [send, List.map_append, List.map_cons, List.map_nil, List.count_append]
  omega

/-- A navigation is replaced by one with the same sender. -/
theorem count_stays {navId : NavigationId} {nav nav' : NavigationInProgress}
    (hnav : task.navigations.get navId = some nav) (hsame : nav'.tx = nav.tx) (tx : Sender) :
    ({ task with navigations := (task.navigations.remove navId).set navId nav' }.got).count tx = task.got.count tx := by
  have hothers : ∀ x, x ≠ navId → ((task.navigations.remove navId).set navId nav').get x = task.navigations.get x := by
    intro x hx
    rw [Table.get_set_of_ne _ _ hx, Table.get_remove_of_ne _ hx]
  have hgather := (Table.gather_perm_of_others hothers fun x v _ _ => List.Perm.refl [v.tx]).count_eq tx
  rw [Table.part_of_get hnav, Table.part_of_get (Table.get_set_self _ _ _), hsame] at hgather
  simp only [List.count_append] at hgather
  rw [count_got, count_got]
  dsimp only
  omega

theorem count_onNavigationResponse (task : SessionTask) (navId : NavigationId) (resp : Response) (tx : Sender) :
    (task.onNavigationResponse navId resp).got.count tx = task.got.count tx := by
  unfold onNavigationResponse
  split
  · rename_i nav hnav
    dsimp only
    split
    · exact count_ends hnav _ tx
    · exact count_stays hnav rfl tx
  · rfl

theorem count_onNavigationLifecycleCompleted (task : SessionTask) (res : Except NavigationError NavigationOk)
    (tx : Sender) : (task.onNavigationLifecycleCompleted res).got.count tx = task.got.count tx := by
  unfold onNavigationLifecycleCompleted
  split
  · split
    · rename_i nav hnav
      dsimp only
      split
      · exact count_ends hnav _ tx
      · exact count_stays hnav rfl tx
    · rfl
  · split
    · rename_i nav hnav
      exact count_ends hnav _ tx
    · rfl

/-! ### Timeouts and the end -/

theorem count_timeOut (task : SessionTask) (callId : CallId) (tx : Sender) :
    (task.timeOut callId).got.count tx = task.got.count tx := by
  unfold timeOut
  split
  · rename_i pending method since hentry
    cases pending with
    | internal => exact count_retire_quiet hentry rfl tx
    | external sender => exact count_retire hentry rfl tx
    | navigate navId =>
      have hretired := @count_retire_quiet task callId _ hentry rfl tx
      dsimp only
      split
      · rename_i nav hnav
        have hends := @count_ends { task with pending := task.pending.remove callId } navId nav hnav
          (.response (.error .timeout)) tx
        exact hends.trans hretired
      · exact hretired
  · rfl

theorem count_evictStale (task : SessionTask) (now : Instant) (tx : Sender) :
    (task.evictStale now).got.count tx = task.got.count tx := by
  rw [evictStale_eq]
  exact @Run.foldl_unchanged _ _ timeOut _ (fun task => task.got.count tx)
    (fun task callId => count_timeOut task callId tx) _ _

theorem count_cancelPending (task : SessionTask) (pending : SessionPending) (tx : Sender) :
    (task.cancelPending pending).got.count tx = task.got.count tx + pending.senders.count tx := by
  cases pending with
  | internal => rfl
  | external sender =>
    rw [count_got, count_got]
    simp only [cancelPending, send, List.map_append, List.map_cons, List.map_nil, List.count_append,
      SessionPending.senders]
    omega
  | navigate navId =>
    simp only [cancelPending]
    split
    · rename_i nav hnav
      exact count_ends hnav _ tx
    · rfl

/-- A task that leaves its loop answers the calls that wait and the navigations, each once. -/
theorem count_cancelInFlight (task : SessionTask) (tx : Sender) :
    task.cancelInFlight.got.count tx = task.got.count tx := by
  have hfold : ∀ (calls : List SessionPending) (task : SessionTask),
      (calls.foldl cancelPending task).got.count tx =
        task.got.count tx + (calls.flatMap SessionPending.senders).count tx := by
    intro calls
    induction calls with
    | nil => exact fun _ => rfl
    | cons call rest ih =>
      intro task
      rw [List.foldl_cons, ih, count_cancelPending, List.flatMap_cons, List.count_append]
      omega
  have hcancelled := hfold (task.pending.values.map Prod.fst) { task with pending := ∅ }
  have hcalls : (task.pending.values.map Prod.fst).flatMap SessionPending.senders =
      task.pending.gather fun _ entry => entry.1.senders := by
    rw [Table.values, List.map_map, List.flatMap_map]
    rfl
  have hemptied : ({ task with pending := ∅ }.got).count tx +
      (task.pending.gather fun _ entry => entry.1.senders).count tx = task.got.count tx := by
    have hnone : ((∅ : Table CallId (SessionPending × MethodId × Instant)).gather fun _ entry =>
        entry.1.senders).count tx = 0 := rfl
    rw [count_got, count_got]
    dsimp only
    omega
  have hnavigations : ∀ task : SessionTask, ({ task with
      navigations := ∅
      replies := task.replies ++ task.navigations.values.map fun nav : NavigationInProgress =>
        (nav.tx, targetGone) }.got).count tx = task.got.count tx := by
    intro task
    have hnone : ((∅ : Table NavigationId NavigationInProgress).gather
        fun _ (nav : NavigationInProgress) => [nav.tx]).count tx = 0 := rfl
    have hsent : (task.navigations.values.map fun nav : NavigationInProgress => (nav.tx, targetGone)).map Prod.fst =
        task.navigations.gather fun _ (nav : NavigationInProgress) => [nav.tx] := by
      rw [List.map_map, Table.values, List.map_map, Table.gather, List.map_eq_flatMap]
      rfl
    rw [count_got, count_got]
    simp only [List.map_append, List.count_append, hsent]
    omega
  unfold cancelInFlight
  dsimp only
  rw [hnavigations, hcancelled, hcalls, hemptied]

/-! ### What a task is given -/

/-- What a turn must not meet: a call id or a navigation id that a sender waits under, and a navigation that is refused while its sender waits. -/
def SubmitsSafely (task : SessionTask) (accepted : Bool) (callId : CallId) (event : TargetEvent) : Prop :=
  (event.calls = true → accepted = true → task.waitingUnder callId = []) ∧
    match event with
    | .command msg => msg.isNavigation = true → accepted = true →
        (task.navigations.get ⟨task.nextNavId⟩).isSome = false
    | .navigationRequest navId _ => accepted = false → (task.navigations.get navId).isSome = false
    | _ => True

instance (task : SessionTask) (accepted : Bool) (callId : CallId) (event : TargetEvent) :
    Decidable (task.SubmitsSafely accepted callId event) :=
  match event with
  | .command msg => inferInstanceAs (Decidable (_ ∧ (msg.isNavigation = true → accepted = true →
      (task.navigations.get ⟨task.nextNavId⟩).isSome = false)))
  | .navigationRequest navId _ =>
    inferInstanceAs (Decidable (_ ∧ (accepted = false → (task.navigations.get navId).isSome = false)))
  | .request _ | .navigationResult _ | .bytesConsumed _ => inferInstanceAs (Decidable (_ ∧ True))

theorem count_replied (task : SessionTask) (sender : Sender) (reply : Reply) (tx : Sender) :
    (task.send sender reply).got.count tx = task.got.count tx + [sender].count tx := by
  rw [count_got, count_got]
  simp only [send, List.map_append, List.map_cons, List.map_nil, List.count_append]
  omega

/-- A task takes an event of its target, and the sender of its command. -/
theorem count_onTargetEvent {accepted : Bool} {callId : CallId} {event : TargetEvent}
    (hsafe : task.SubmitsSafely accepted callId event) (now : Instant) (tx : Sender) :
    (task.onTargetEvent accepted callId now event).got.count tx =
      task.got.count tx + event.sender?.toList.count tx := by
  obtain ⟨hfree, hnavigation⟩ := hsafe
  cases event with
  | request req =>
    cases accepted with
    | true => exact count_submit (hfree rfl rfl) req .internal now tx
    | false => rfl
  | command msg =>
    simp only [onTargetEvent]
    split
    · rename_i hnavigates
      -- The frame manager learns of the navigation, which changes none of the senders.
      have hstarts : ∀ navId gotos goto, ({ task with
          nextNavId := navId
          gotos := gotos
          target := task.target.goto goto }.got).count tx = task.got.count tx := fun _ _ _ => rfl
      unfold submitNavigationCommand
      dsimp only
      cases accepted with
      | true =>
        have hnone : task.navigations.get ⟨task.nextNavId⟩ = none :=
          Option.not_isSome_iff_eq_none.1 (by rw [hnavigation hnavigates rfl]; simp)
        have hsubmitted := @count_submit { task with
          nextNavId := wrappingSucc task.nextNavId
          gotos := task.gotos ++ [Goto.mk ⟨task.nextNavId⟩ msg.split.1 task.target.frameManager.mainFrame]
          target := task.target.goto ⟨⟨task.nextNavId⟩, msg.split.1, task.requestTimeout⟩ } callId (hfree rfl rfl)
          msg.split.1 (.navigate ⟨task.nextNavId⟩) now tx
        have hnew : ((task.navigations.set ⟨task.nextNavId⟩ (.new msg.sender)).gather fun _ nav => [nav.tx]).count tx =
            [msg.sender].count tx + (task.navigations.gather fun _ nav => [nav.tx]).count tx := by
          rw [Table.gather, Table.toList_set, Table.remove_of_get_eq_none hnone, List.flatMap_cons, List.count_append]
          rfl
        rw [hstarts] at hsubmitted
        simp only [if_true]
        rw [count_got] at hsubmitted ⊢
        simp only [submit, if_true, CommandMessage.split, SessionPending.senders, List.count_nil] at hsubmitted hnew ⊢
        simp only [TargetEvent.sender?, Option.toList_some]
        omega
      | false => exact count_replied _ msg.sender _ tx
    · unfold submitExternal
      cases accepted with
      | true => exact count_submit (hfree rfl rfl) msg.split.1 (.external msg.sender) now tx
      | false => exact count_replied task msg.sender _ tx
  | navigationRequest navId req =>
    cases accepted with
    | true => exact count_submit (hfree rfl rfl) req (.navigate navId) now tx
    | false =>
      have hnone : task.navigations.get navId = none :=
        Option.not_isSome_iff_eq_none.1 (by rw [hnavigation rfl]; simp)
      simp only [onTargetEvent, submitNavRequest, Bool.false_eq_true, if_false, Table.remove_of_get_eq_none hnone]
      rfl
  | navigationResult res => exact task.count_onNavigationLifecycleCompleted res tx
  | bytesConsumed bytes => rfl

/-- A turn of a task. -/
theorem count_turn {accepted : Bool} {callId : CallId} {env : Env} {now : Instant}
    (hsafe : ∀ event ∈ (task.target.advance env now).event.toList,
      (task.advanced env now).SubmitsSafely accepted callId event) (tx : Sender) :
    (task.turn accepted callId env now).got.count tx = task.got.count tx := by
  have hcommands := task.target.count_commandSenders_advance env now tx
  have hinitiators := (task.target.sameInitiators_advance env now).initiators.count_eq tx
  have hadvanced : (task.advanced env now).got.count tx +
      ((task.target.advance env now).event.bind TargetEvent.sender?).toList.count tx = task.got.count tx := by
    rw [count_got, count_got]
    simp only [advanced]
    omega
  rw [turn_eq]
  split
  · rename_i event hevent
    rw [hevent] at hsafe hadvanced
    rw [count_onTargetEvent (hsafe event (List.mem_singleton_self _)), ← hadvanced]
    rfl
  · rename_i hevent
    rw [hevent] at hadvanced
    exact hadvanced

theorem count_onResponse (task : SessionTask) (env : Env) (callId : CallId) (resp : Response) (tx : Sender) :
    (task.onResponse env callId resp).got.count tx = task.got.count tx := by
  unfold onResponse
  cases hentry : task.pending.get callId with
  | none => rfl
  | some entry =>
    obtain ⟨pending, method, since⟩ := entry
    cases pending with
    | internal =>
      have hretired := @count_retire_quiet task callId _ hentry rfl tx
      refine Eq.trans ?_ hretired
      dsimp only
      rw [storeSessionId_eq]
      split
      · rename_i sessionId _
        exact (got_of_target (.of_eq (Target.commandSenders_onResponse _ env resp method))
          (Target.sameInitiators_onResponse _ env resp method)).count_eq tx
      · exact (got_of_target (.of_eq (Target.commandSenders_onResponse _ env resp method))
          (Target.sameInitiators_onResponse _ env resp method)).count_eq tx
    | external sender => exact count_retire hentry rfl tx
    | navigate navId =>
      have hretired := @count_retire_quiet task callId _ hentry rfl tx
      exact (count_onNavigationResponse _ navId resp tx).trans hretired

/-- The page's channel is emptied into a target that is not closing, or was empty. -/
theorem count_drainPage (hsafe : task.target.initState.isClosing = true →
    task.target.waiting.flatMap TargetMessage.senders = []) (tx : Sender) :
    task.drainPage.got.count tx = task.got.count tx := by
  unfold drainPage
  cases hpage : task.target.page with
  | none => rfl
  | some handle =>
    have hwaiting : task.target.waiting = handle.rx := by
      rw [Target.waiting, hpage]
      rfl
    have hemptied : task.target.SameInitiators { task.target with page := some { handle with rx := [] } } :=
      .of_eq rfl rfl rfl
    refine (got_of_target ?_ (hemptied.trans
      (Run.foldl_rel .refl .trans Target.sameInitiators_onPageMessage _ _))).count_eq tx
    have hnone : (handle.rx.foldl Target.onPageMessage
        { task.target with page := some { handle with rx := [] } }).waiting = [] := by
      rw [Target.waiting, Run.foldl_unchanged Target.page_onPageMessage]
      rfl
    rw [Target.commandSenders, hnone, Target.commandSenders, hwaiting, List.flatMap_nil, List.nil_append]
    cases hclosing : task.target.initState.isClosing with
    | false =>
      rw [@Target.queuedSenders_onPageMessages { task.target with page := some { handle with rx := [] } } _ hclosing]
      exact List.perm_append_comm
    | true =>
      rw [@Target.onPageMessages_of_closing { task.target with page := some { handle with rx := [] } } _ hclosing,
        ← hwaiting, hsafe hclosing]
      exact .refl _

end SessionTask

/-! ### The loop -/

/-- A task with its inbox, and the senders that it has been given. -/
structure SessionLoop where
  task : SessionTask
  inbox : List RouterToSession
  given : List Sender

/-- What happens to a task: the router puts a message in its inbox, or its page one in its channel; it takes a message of the router or learns that the router is gone; it hears its eviction timer, or drives its target. -/
inductive LoopInput where
  | router (msg : RouterToSession)
  | page (msg : TargetMessage)
  | receive (env : Env)
  | closed
  | evict (now : Instant)
  | drainPage
  | turn (accepted : Bool) (callId : CallId) (env : Env) (now : Instant)

namespace SessionLoop

def start (slot : UInt16) (config : HandlerConfig) (info : TargetInfo) (context : BrowserContext) : SessionLoop :=
  ⟨.spawned slot config info context, [], []⟩

/-- The inbox is gone when the task has left its loop. -/
def take (s : SessionLoop) (input : SessionInput) (rest : List RouterToSession) : SessionLoop :=
  { s with task := s.task.step input, inbox := if (s.task.step input).stopped then [] else rest }

def step (s : SessionLoop) (input : LoopInput) : SessionLoop :=
  if s.task.stopped then s
  else match input with
    | .router msg => { s with inbox := s.inbox ++ [msg], given := s.given ++ msg.initiators }
    | .page msg =>
      match s.task.target.page with
      | some _ => { s with task := s.task.step (.pageMessage msg), given := s.given ++ msg.senders }
      | none => s
    | .receive env =>
      match s.inbox with
      | msg :: rest => s.take (msg.toInput env) rest
      | [] => s
    | .closed =>
      match s.inbox with
      | [] => s.take .shutdown []
      | _ => s
    | .evict now => { s with task := s.task.step (.evict now) }
    | .drainPage => { s with task := s.task.step .drainPage }
    | .turn accepted callId env now => { s with task := s.task.step (.turn accepted callId env now) }

/-- The senders that the task holds, or will find in its inbox. A task that has left its loop holds nothing any more. -/
def owed (s : SessionLoop) : List Sender :=
  if s.task.stopped then [] else s.task.owed ++ s.inbox.flatMap RouterToSession.initiators

/-- Each sender that the task has been given is in one place or has been answered once, and when the task has left its loop each has been answered once. -/
structure Answered (s : SessionLoop) : Prop where
  once : s.given.Perm (s.owed ++ s.task.resolved)
  ended : s.task.stopped = true → s.given.Perm s.task.resolved

/-- The task holds no sender but those of the calls and the navigations that it has under way. -/
def Leaves (s : SessionLoop) (rest : List RouterToSession) : Prop :=
  s.task.target.commandSenders = [] ∧ s.task.target.initiator.isSome = false ∧
    rest.flatMap RouterToSession.initiators = []

instance (s : SessionLoop) (rest : List RouterToSession) : Decidable (s.Leaves rest) :=
  inferInstanceAs (Decidable (_ ∧ _ ∧ _))

/-- A task whose target holds a sender is given no other, and one that leaves its loop holds no more than its calls and navigations. -/
def TakesCarefully (s : SessionLoop) : List RouterToSession → Prop
  | .shutdown :: rest => s.Leaves rest
  | .setInitiator _ :: _ => s.task.target.initiator.isSome = false
  | _ => True

instance (s : SessionLoop) (inbox : List RouterToSession) : Decidable (s.TakesCarefully inbox) :=
  match inbox with
  | .shutdown :: rest => inferInstanceAs (Decidable (s.Leaves rest))
  | .setInitiator _ :: _ => inferInstanceAs (Decidable (s.task.target.initiator.isSome = false))
  | [] | .response _ _ _ :: _ | .event _ :: _ => .isTrue trivial

/-- What an input must not meet, so that no sender is lost: the end of a task that holds more than its calls and navigations, a place that holds a sender already, and commands for a target that is closing. -/
def Careful (s : SessionLoop) : LoopInput → Prop
  | .receive _ => s.TakesCarefully s.inbox
  | .closed => s.inbox.isEmpty = true → s.Leaves []
  | .drainPage => s.task.target.initState.isClosing = true →
      s.task.target.waiting.flatMap TargetMessage.senders = []
  | .turn accepted callId env now => ∀ event ∈ (s.task.target.advance env now).event.toList,
      (s.task.advanced env now).SubmitsSafely accepted callId event
  | _ => True

instance (s : SessionLoop) (input : LoopInput) : Decidable (s.Careful input) :=
  match input with
  | .receive _ => inferInstanceAs (Decidable (s.TakesCarefully s.inbox))
  | .closed => inferInstanceAs (Decidable (s.inbox.isEmpty = true → s.Leaves []))
  | .drainPage => inferInstanceAs (Decidable (s.task.target.initState.isClosing = true →
      s.task.target.waiting.flatMap TargetMessage.senders = []))
  | .turn accepted callId env now => inferInstanceAs (Decidable (∀ event ∈
      (s.task.target.advance env now).event.toList, (s.task.advanced env now).SubmitsSafely accepted callId event))
  | .router _ | .page _ | .evict _ => .isTrue trivial

/-- What holds of a task that has not left its loop, and of one that has. -/
structure Balanced (s : SessionLoop) : Prop where
  running : s.task.stopped = false → ∀ tx, s.given.count tx =
    s.task.got.count tx + (s.inbox.flatMap RouterToSession.initiators).count tx
  ended : s.task.stopped = true → ∀ tx, s.given.count tx = s.task.resolved.count tx

variable {s : SessionLoop}

theorem Balanced.answered (h : Balanced s) : Answered s where
  once := by
    refine List.perm_iff_count.2 fun tx => ?_
    cases hstopped : s.task.stopped with
    | true =>
      rw [owed, hstopped, if_pos rfl, List.nil_append]
      exact h.ended hstopped tx
    | false =>
      have hcount := h.running hstopped tx
      rw [SessionTask.got, List.count_append] at hcount
      simp only [owed, hstopped, Bool.false_eq_true, if_false, List.count_append]
      omega
  ended := fun hstopped => List.perm_iff_count.2 (h.ended hstopped)

/-- A task that goes on. -/
theorem Balanced.goes (h : Balanced s) {task : SessionTask} {inbox : List RouterToSession} {given : List Sender}
    (hstopped : s.task.stopped = false) (hcontinues : task.stopped = s.task.stopped)
    (hcount : ∀ tx, given.count tx + s.task.got.count tx + (s.inbox.flatMap RouterToSession.initiators).count tx =
      s.given.count tx + task.got.count tx + (inbox.flatMap RouterToSession.initiators).count tx) :
    Balanced ⟨task, inbox, given⟩ where
  running := by
    intro _ tx
    have hbefore := h.running hstopped tx
    have hcount := hcount tx
    show given.count tx = task.got.count tx + (inbox.flatMap RouterToSession.initiators).count tx
    omega
  ended := by
    intro hended
    have hended : task.stopped = true := hended
    rw [hcontinues, hstopped] at hended
    cases hended

/-- A task that holds no other sender answers its calls and navigations, and leaves its loop. -/
theorem Balanced.leaves (h : Balanced s) (hstopped : s.task.stopped = false) {rest : List RouterToSession}
    (hinbox : s.inbox.flatMap RouterToSession.initiators = []) (hleaves : s.Leaves rest) :
    Balanced (s.take .shutdown rest) where
  running := by
    obtain ⟨replies, hstep⟩ := s.task.step_shutdown hstopped
    intro hrunning
    rw [take, hstep] at hrunning
    cases hrunning
  ended := by
    intro _ tx
    obtain ⟨hcommands, hinitiator, _⟩ := hleaves
    obtain ⟨replies, heq⟩ := s.task.cancelInFlight_same
    have hbefore := h.running hstopped tx
    have hcancelled := s.task.count_cancelInFlight tx
    have hstep : (s.take .shutdown rest).task.resolved = s.task.cancelInFlight.resolved := by
      rw [take, SessionTask.step, hstopped]
      rfl
    have howed : s.task.cancelInFlight.owed = [] := by
      have hnone : s.task.target.initiator = none := Option.not_isSome_iff_eq_none.1 (by rw [hinitiator]; simp)
      rw [heq, SessionTask.owed]
      dsimp only
      rw [hcommands, hnone]
      rfl
    rw [SessionTask.got, howed, List.nil_append] at hcancelled
    rw [hinbox, List.count_nil, Nat.add_zero] at hbefore
    rw [hstep, hcancelled]
    exact hbefore

/-- The task goes on with an input that gives it no sender. -/
theorem Balanced.rests (h : Balanced s) (hstopped : s.task.stopped = false) {task : SessionTask}
    (hcontinues : task.stopped = s.task.stopped) (hgot : ∀ tx, task.got.count tx = s.task.got.count tx) :
    Balanced { s with task := task } :=
  h.goes hstopped hcontinues fun tx => by rw [hgot]

theorem Balanced.receives (h : Balanced s) (hstopped : s.task.stopped = false) {msg : RouterToSession}
    {rest : List RouterToSession} (hinbox : s.inbox = msg :: rest) (env : Env)
    (hsafe : s.TakesCarefully s.inbox) : Balanced (s.take (msg.toInput env) rest) := by
  rw [hinbox] at hsafe
  have hboxed : s.inbox.flatMap RouterToSession.initiators =
      msg.initiators ++ rest.flatMap RouterToSession.initiators := by
    rw [hinbox, List.flatMap_cons]
  have hgoes : ∀ input, (s.task.step input).stopped = s.task.stopped →
      (∀ tx, (s.task.step input).got.count tx = s.task.got.count tx + msg.initiators.count tx) →
      Balanced (s.take input rest) := by
    intro input hcontinues hgot
    rw [take, hcontinues, hstopped]
    refine h.goes hstopped hcontinues fun tx => ?_
    rw [hgot, hboxed, List.count_append]
    simp only [Bool.false_eq_true, if_false]
    omega
  cases msg with
  | response callId resp method =>
    have hstep : s.task.step (.response env callId resp) = s.task.onResponse env callId resp := by
      simp only [SessionTask.step, hstopped, Bool.false_eq_true, if_false]
    have hcontinues := s.task.continues_onResponse env callId resp
    refine hgoes _ (hstep ▸ hcontinues.stopped) fun tx => ?_
    rw [RouterToSession.toInput, hstep]
    exact s.task.count_onResponse env callId resp tx
  | event event =>
    have hstep : s.task.step (.event env event) = { s.task with target := s.task.target.onEvent env event } := by
      simp only [SessionTask.step, hstopped, Bool.false_eq_true, if_false]
    refine hgoes _ (hstep ▸ rfl) fun tx => ?_
    rw [RouterToSession.toInput, hstep]
    exact (SessionTask.got_of_target (.of_eq (s.task.target.commandSenders_onEvent env event))
      (s.task.target.sameInitiators_onEvent env event)).count_eq tx
  | setInitiator tx =>
    have hnone : s.task.target.initiator = none := Option.not_isSome_iff_eq_none.1 (by
      have hfree : s.task.target.initiator.isSome = false := hsafe
      rw [hfree]
      simp)
    have hstep : s.task.step (.setInitiator tx) = { s.task with target := s.task.target.setInitiator tx } := by
      simp only [SessionTask.step, hstopped, Bool.false_eq_true, if_false]
    refine hgoes _ (hstep ▸ rfl) fun other => ?_
    rw [RouterToSession.toInput, hstep, SessionTask.count_got, SessionTask.count_got]
    simp only [Target.initiators, Target.setInitiator, hnone, Option.toList_some, Option.toList_none,
      RouterToSession.initiators, List.count_append, List.count_nil]
    have hcommands : ({ s.task.target with initiator := some tx }.commandSenders) = s.task.target.commandSenders := rfl
    rw [hcommands]
    omega
  | shutdown =>
    have hleaves : s.Leaves rest := hsafe
    exact h.leaves hstopped (by rw [hboxed, hleaves.2.2]; rfl) hleaves

theorem Balanced.step (h : Balanced s) {input : LoopInput} (hsafe : s.Careful input) : Balanced (s.step input) := by
  cases hstopped : s.task.stopped with
  | true =>
    unfold SessionLoop.step
    rw [if_pos hstopped]
    exact h
  | false =>
    unfold SessionLoop.step
    rw [if_neg (by rw [hstopped]; simp)]
    cases input with
    | router msg =>
      refine h.goes hstopped rfl fun tx => ?_
      simp only [List.flatMap_append, List.flatMap_cons, List.flatMap_nil, List.append_nil, List.count_append]
      omega
    | page msg =>
      dsimp only
      split
      · rename_i handle hpage
        have hstep : s.task.step (.pageMessage msg) = { s.task with target := s.task.target.receive msg } := by
          simp only [SessionTask.step, hstopped, Bool.false_eq_true, if_false]
        have hcommands : (s.task.target.receive msg).commandSenders =
            s.task.target.waiting.flatMap TargetMessage.senders ++ msg.senders ++ s.task.target.queuedSenders := by
          rw [Target.commandSenders, Target.receive, Target.waiting, hpage, Target.waiting, hpage]
          simp [Target.queuedSenders]
        refine h.goes hstopped (hstep ▸ rfl) fun tx => ?_
        rw [hstep, SessionTask.count_got, SessionTask.count_got]
        dsimp only
        rw [hcommands]
        simp only [Target.commandSenders, List.count_append]
        have hinitiators : (s.task.target.receive msg).initiators = s.task.target.initiators := rfl
        rw [hinitiators]
        omega
      · exact h
    | receive env =>
      dsimp only
      split
      · rename_i msg rest hinbox
        exact h.receives hstopped hinbox env hsafe
      · exact h
    | closed =>
      dsimp only
      split
      · rename_i hinbox
        exact h.leaves hstopped (by rw [hinbox]; rfl) (hsafe (by rw [hinbox]; rfl))
      · exact h
    | evict now =>
      have hstep : s.task.step (.evict now) = s.task.evictStale now := by
        simp only [SessionTask.step, hstopped, Bool.false_eq_true, if_false]
      dsimp only
      rw [hstep]
      refine h.rests hstopped ?_ fun tx => s.task.count_evictStale now tx
      rw [SessionTask.evictStale_eq]
      exact Run.foldl_unchanged (fun task callId => (task.continues_timeOut callId).stopped) _ _
    | drainPage =>
      have hcontinues : s.task.Continues (s.task.step .drainPage) := s.task.continues_step (by simp) (by simp)
      refine h.rests hstopped hcontinues.stopped fun tx => ?_
      have hstep : s.task.step .drainPage = s.task.drainPage := by
        simp only [SessionTask.step, hstopped, Bool.false_eq_true, if_false]
      rw [hstep]
      exact SessionTask.count_drainPage hsafe tx
    | turn accepted callId env now =>
      have hcontinues : s.task.Continues (s.task.step (.turn accepted callId env now)) :=
        s.task.continues_step (by simp) (by simp)
      refine h.rests hstopped hcontinues.stopped fun tx => ?_
      have hstep : s.task.step (.turn accepted callId env now) = s.task.turn accepted callId env now := by
        simp only [SessionTask.step, hstopped, Bool.false_eq_true, if_false]
      rw [hstep]
      exact SessionTask.count_turn hsafe tx

/-! ### Runs -/

theorem balanced_start (slot : UInt16) (config : HandlerConfig) (info : TargetInfo) (context : BrowserContext) :
    Balanced (start slot config info context) where
  running := fun _ _ => rfl
  ended := nofun

/-- As long as no input meets what would lose a sender, everybody is answered when a task leaves its loop, and nobody twice, whatever happens to the task and in whatever order. -/
theorem answered_of_run (slot : UInt16) (config : HandlerConfig) (info : TargetInfo) (context : BrowserContext)
    {inputs : List LoopInput} (hsafe : Run.Allowed step Careful (start slot config info context) inputs) :
    Run.Always step Answered (start slot config info context) inputs := by
  have hkept := Run.always_of_allowed (fun s input (h : Balanced s) hinput => h.step hinput)
    (balanced_start slot config info context) hsafe
  exact hkept.mono fun s h => h.answered

/-- What a task takes, as its router, its page and its timer bring it. -/
def brought : SessionInput → List LoopInput
  | .response env callId resp => [.router (.response callId resp "Page.enable"), .receive env]
  | .event env event => [.router (.event event), .receive env]
  | .setInitiator tx => [.router (.setInitiator tx), .receive Handler.plainEnv]
  | .shutdown => [.router .shutdown, .receive Handler.plainEnv]
  | .evict now => [.evict now]
  | .pageMessage msg => [.page msg]
  | .drainPage => [.drainPage]
  | .turn accepted callId env now => [.turn accepted callId env now]

/-- A page is opened and asked to navigate, and the task is told to leave. -/
def leavesNavigating : List LoopInput :=
  (SessionTask.openPage ++ SessionTask.gotoPage ++ [SessionInput.shutdown]).flatMap brought

/-- The page went to the one that had asked for it, and its navigation is answered with an error. -/
theorem answered_of_run_leavesNavigating :
    let start := start 1 Handler.plainConfig ⟨Handler.plainTarget, "page", none, none⟩ ⟨none⟩
    (Run.final step start leavesNavigating).task.resolved = [⟨1⟩, ⟨0⟩] ∧
      Run.Always step Answered start leavesNavigating := by
  have hresolved : (Run.final step (start 1 Handler.plainConfig ⟨Handler.plainTarget, "page", none, none⟩ ⟨none⟩)
      leavesNavigating).task.resolved = [⟨1⟩, ⟨0⟩] := by
    decide +kernel
  exact ⟨hresolved, answered_of_run 1 Handler.plainConfig ⟨Handler.plainTarget, "page", none, none⟩ ⟨none⟩
    (by decide +kernel)⟩

/-- Somebody asks for a page, and the task is told to leave before its target is ready. -/
def leavesUnready : List LoopInput := [SessionInput.setInitiator ⟨0⟩, .shutdown].flatMap brought

/-- The one that has asked is never told. -/
theorem not_answered_leavesUnready :
    ¬ Run.Always step Answered
      (start 1 Handler.plainConfig ⟨Handler.plainTarget, "page", none, none⟩ ⟨none⟩) leavesUnready := by
  intro halways
  have hended : (Run.final step (start 1 Handler.plainConfig ⟨Handler.plainTarget, "page", none, none⟩ ⟨none⟩)
      leavesUnready).task.stopped = true := by
    decide +kernel
  have hgiven : (Run.final step (start 1 Handler.plainConfig ⟨Handler.plainTarget, "page", none, none⟩ ⟨none⟩)
      leavesUnready).given = [⟨0⟩] := by
    decide +kernel
  have hresolved : (Run.final step (start 1 Handler.plainConfig ⟨Handler.plainTarget, "page", none, none⟩ ⟨none⟩)
      leavesUnready).task.resolved = [] := by
    decide +kernel
  have hanswered := halways.last.ended hended
  rw [hgiven, hresolved] at hanswered
  exact absurd hanswered.length_eq nofun

end SessionLoop

end SpiderChrome
