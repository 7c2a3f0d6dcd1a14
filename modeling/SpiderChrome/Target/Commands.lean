import SpiderChrome.Target.Keeps
import SpiderChrome.Target.Turns

/-!
# The commands of a page

A command comes to a target through the channel of its page, waits in the queue of the target's events, and is handed out by a poll. Its sender says where it is.
-/

namespace SpiderChrome

def TargetMessage.senders : TargetMessage → List Sender
  | .command cmd => [cmd.sender]
  | _ => []

def TargetEvent.sender? : TargetEvent → Option Sender
  | .command msg => some msg.sender
  | _ => none

namespace Target

variable {t t' : Target}

/-- The senders of the commands in the queue. -/
def queuedSenders (t : Target) : List Sender := t.queuedEvents.filterMap TargetEvent.sender?

/-- The senders of the commands in the channel of the page and in the queue. -/
def commandSenders (t : Target) : List Sender := t.waiting.flatMap TargetMessage.senders ++ t.queuedSenders

theorem drains_sender : Drains TargetEvent.sender? fun _ => ([] : List Sender) where
  poll := by
    intro fm now clock
    cases (fm.poll now clock).2 with
    | none => rfl
    | some event => cases event <;> rfl
  frames := fun _ _ _ => rfl
  worlds := fun _ _ => rfl
  request := fun _ => rfl
  bytesConsumed := fun _ => rfl

theorem queuedSenders_eq_backlog (t : Target) :
    t.queuedSenders = t.backlog TargetEvent.sender? fun _ => ([] : List Sender) :=
  (List.append_nil _).symm

/-- A poll hands out the first command of the queue, or leaves the commands where they are. -/
theorem count_commandSenders_advance (t : Target) (env : Env) (now : Instant) (tx : Sender) :
    t.commandSenders.count tx = (((t.advance env now).event.bind TargetEvent.sender?).toList).count tx +
      (t.advance env now).target.commandSenders.count tx := by
  have hwaiting : (t.advance env now).target.waiting = t.waiting :=
    (steady_waiting t.waiting).pollWith (fun h => h) rfl List.length env now
  have hqueue := backlog_advance drains_sender t env now
  rw [← queuedSenders_eq_backlog, ← queuedSenders_eq_backlog] at hqueue
  rw [commandSenders, commandSenders, hwaiting, hqueue]
  simp only [List.count_append]
  omega

theorem commandSenders_onEvent (t : Target) (env : Env) (event : CdpEventMessage) :
    (t.onEvent env event).commandSenders = t.commandSenders := by
  rw [commandSenders, waiting_of_page_eq (t.page_onEvent env event), queuedSenders_eq_backlog,
    backlog_onEvent drains_sender, ← queuedSenders_eq_backlog, commandSenders]

theorem commandSenders_onResponse (t : Target) (env : Env) (resp : Response) (method : MethodId) :
    (t.onResponse env resp method).commandSenders = t.commandSenders := by
  have hpage : (t.onResponse env resp method).page = t.page := by
    unfold onResponse
    dsimp only
    split
    · split
      · rfl
      · rfl
    · rfl
  rw [commandSenders, waiting_of_page_eq hpage, queuedSenders_eq_backlog, backlog_onResponse drains_sender,
    ← queuedSenders_eq_backlog, commandSenders]

theorem queuedSenders_handlePageMessage (t : Target) (msg : TargetMessage) :
    (t.handlePageMessage msg).queuedSenders = t.queuedSenders ++ msg.senders := by
  cases msg with
  | command cmd => simp [handlePageMessage, queuedSenders, pushEvent, TargetEvent.sender?, TargetMessage.senders]
  | waitForNavigation tx | waitForDomContentLoaded tx | waitForLoad tx | waitForNetworkIdle tx
  | waitForNetworkAlmostIdle tx =>
    simp only [handlePageMessage]
    split
    · exact (List.append_nil _).symm
    · exact (List.append_nil _).symm
  | addEventListener method =>
    simp only [handlePageMessage]
    split
    · exact (List.append_nil _).symm
    · exact (List.append_nil _).symm
  | _ => exact (List.append_nil _).symm

/-- A target that is not closing takes the commands of its page into its queue. -/
theorem queuedSenders_onPageMessages {msgs : List TargetMessage} (hclosing : t.initState.isClosing = false) :
    (msgs.foldl onPageMessage t).queuedSenders = t.queuedSenders ++ msgs.flatMap TargetMessage.senders := by
  induction msgs generalizing t with
  | nil => exact (List.append_nil _).symm
  | cons msg rest ih =>
    have hstep : t.onPageMessage msg = t.handlePageMessage msg := by
      unfold onPageMessage
      split
      · rename_i hstate
        rw [hstate] at hclosing
        cases hclosing
      · rfl
    rw [List.foldl_cons, hstep, ih ((congrArg _ (t.initState_handlePageMessage msg)).trans hclosing),
      queuedSenders_handlePageMessage, List.flatMap_cons, List.append_assoc]

/-- A target that is closing takes no message. -/
theorem onPageMessages_of_closing {msgs : List TargetMessage} (hclosing : t.initState.isClosing = true) :
    msgs.foldl onPageMessage t = t := by
  induction msgs with
  | nil => rfl
  | cons msg rest ih =>
    have hstep : t.onPageMessage msg = t := by
      unfold onPageMessage
      rw [initState_eq_of_isClosing hclosing]
    rw [List.foldl_cons, hstep, ih]

/-! ### What an input does to the queue -/

theorem queuedSenders_onPageMessages_subset (t : Target) (msgs : List TargetMessage) :
    (msgs.foldl onPageMessage t).queuedSenders ⊆ t.queuedSenders ++ msgs.flatMap TargetMessage.senders := by
  cases hclosing : t.initState.isClosing with
  | true =>
    rw [onPageMessages_of_closing hclosing]
    exact List.subset_append_left _ _
  | false =>
    rw [queuedSenders_onPageMessages hclosing]
    exact List.Subset.refl _

/-- The commands that leave the channel of the page. -/
def drainedSenders (t : Target) : List Sender :=
  (t.waiting.take Handler.perTargetDrainBudget).flatMap TargetMessage.senders

theorem queuedSenders_drainPage (t : Target) :
    (Handler.drainPage t).queuedSenders ⊆ t.queuedSenders ++ t.drainedSenders := by
  unfold Handler.drainPage drainedSenders waiting
  cases t.page with
  | none => exact List.subset_append_left _ _
  | some handle =>
    exact queuedSenders_onPageMessages_subset
      { t with page := some { handle with rx := handle.rx.drop Handler.perTargetDrainBudget } } _

/-- A poll takes the command that it hands out from the front of the queue. -/
theorem queuedSenders_advance (t : Target) (env : Env) (now : Instant) :
    t.queuedSenders =
      ((t.advance env now).event.bind TargetEvent.sender?).toList ++ (t.advance env now).target.queuedSenders := by
  have hqueue := backlog_advance drains_sender t env now
  rw [← queuedSenders_eq_backlog, ← queuedSenders_eq_backlog] at hqueue
  exact hqueue

theorem queuedSenders_navigated (polled : Polled) (id : NavigationId) (timeout : Duration) :
    (navigated polled id timeout).queuedSenders = polled.target.queuedSenders := by
  unfold navigated
  split
  · split
    · rfl
    · rfl
  · rfl

/-- The queue gets no command but those that leave the channel of the page. -/
theorem queuedSenders_take (t : Target) (input : TargetInput)
    (hrun : ∀ driver env now id timeout, input = .polled driver env now id timeout → driver = .run) :
    ∀ tx ∈ (t.take input).queuedSenders, tx ∈ t.queuedSenders ∨ input = .drained ∧ tx ∈ t.drainedSenders := by
  intro tx hmem
  cases input with
  | event env event =>
    left
    rw [queuedSenders_eq_backlog, ← backlog_onEvent drains_sender t env event, ← queuedSenders_eq_backlog]
    exact hmem
  | response env method resp =>
    have hstored : (maybeStoreAttachSessionId env.decoders t method resp).queuedSenders = t.queuedSenders := by
      unfold maybeStoreAttachSessionId
      split
      · rfl
      · split
        · rfl
        · rfl
    left
    rw [← hstored, queuedSenders_eq_backlog, ← backlog_onResponse drains_sender _ env resp method,
      ← queuedSenders_eq_backlog]
    exact hmem
  | drained => exact (List.mem_append.mp (queuedSenders_drainPage t hmem)).imp_right fun h => ⟨rfl, h⟩
  | paged everyKind =>
    left
    simp only [take] at hmem
    split at hmem
    · have hpage : t.createPage.queuedSenders = t.queuedSenders := by
        unfold createPage
        split
        · rfl
        · rfl
      exact hpage ▸ hmem
    · exact hmem
  | polled driver env now id timeout =>
    obtain rfl := hrun driver env now id timeout rfl
    left
    rw [queuedSenders_advance t env now]
    exact List.mem_append_right _ (queuedSenders_navigated _ id timeout ▸ hmem)
  | _ => exact .inl hmem

end Target

end SpiderChrome
