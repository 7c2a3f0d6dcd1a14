import SpiderChrome.Parallel.Creation
import SpiderChrome.Parallel.Lifecycle

/-!
# The senders that pages are asked for with

Whoever asks the browser handle for a page leaves a sender behind, which goes from the router's table of calls to the table of those that wait for a target, through the inbox of a task and to its target, where the page or an error is sent. As long as nothing that holds a sender is given another one or comes to its end, each sender is in one of these places or has been answered, and it comes to the task of its own target only.
-/

namespace SpiderChrome

/-! ### Where the senders are -/

def RouterPending.initiators : RouterPending → List Sender
  | .createTarget tx => [tx]
  | .browserCommand _ | .boot => []

def RouterToSession.initiators : RouterToSession → List Sender
  | .setInitiator tx => [tx]
  | _ => []

namespace Doing

/-- The sender of a call that the router submits. -/
def initiators : Doing → List Sender
  | submits _ _ (.call call _) => call.pending.initiators
  | _ => []

/-- A call that the writer does not take is answered with a page's error if a page was asked for. -/
def Settles : Doing → Prop
  | submits _ _ (.call call _) => pageAnswers [(call.tx, call.refusal)] = call.pending.initiators
  | _ => True

theorem initiators_of_isNothing {doing : Doing} (h : doing.isNothing = true) : doing.initiators = [] := by
  cases doing with
  | nothing => rfl
  | _ => cases h

end Doing

namespace Router

/-- The senders of the calls that wait, and those that wait for a target. -/
def initiators (r : Router) : List Sender :=
  r.pending.gather (fun _ entry => entry.1.initiators) ++ r.pendingInitiators.gather fun _ tx => [tx]

/-- The senders that the router has got and not handed on: those in its tables and those that it has answered. -/
def got (r : Router) : List Sender := r.initiators ++ pageAnswers r.replies

/-- Two routers that have got the same senders. Those that wait for a target wait for the same one, and since the same time. -/
structure SameGot (r r' : Router) : Prop where
  got : r'.got.Perm r.got
  parked : r'.pendingInitiators.Sub r.pendingInitiators
  timed : (∀ targetId, (r.pendingInitiators.get targetId).isSome = (r.pendingInitiatorTs.get targetId).isSome) →
    ∀ targetId, (r'.pendingInitiators.get targetId).isSome = (r'.pendingInitiatorTs.get targetId).isSome

variable {r r' r'' : Router}

theorem SameGot.refl (r : Router) : SameGot r r := ⟨.refl _, .refl _, fun h => h⟩

theorem SameGot.trans (h : SameGot r r') (h' : SameGot r' r'') : SameGot r r'' where
  got := h'.got.trans h.got
  parked := h'.parked.trans h.parked
  timed := fun htimed => h'.timed (h.timed htimed)

/-- The senders of the calls are answered or left where they are. -/
theorem SameGot.of_pending (hgot : r'.got.Perm r.got) (hinitiators : r'.pendingInitiators = r.pendingInitiators)
    (hts : r'.pendingInitiatorTs = r.pendingInitiatorTs) : SameGot r r' where
  got := hgot
  parked := hinitiators ▸ .refl _
  timed := by
    rw [hinitiators, hts]
    exact fun h => h

theorem count_got (r : Router) (tx : Sender) :
    r.got.count tx = (r.pending.gather fun _ entry => entry.1.initiators).count tx +
      (r.pendingInitiators.gather fun _ tx => [tx]).count tx + (pageAnswers r.replies).count tx := by
  rw [got, initiators, List.count_append, List.count_append]

/-- A call does not wait any more, and its sender has its answer. -/
theorem sameGot_answer {callId : CallId} {entry : RouterPending × MethodId × Instant}
    (hentry : r.pending.get callId = some entry) {replies : List (Sender × Reply)}
    (hreplies : pageAnswers replies = entry.1.initiators) :
    SameGot r { r with
      pending := r.pending.remove callId
      replies := r.replies ++ replies } := by
  refine .of_pending (List.perm_iff_count.2 fun tx => ?_) rfl rfl
  have hpending := (r.pending.gather_perm_part (fun _ entry => entry.1.initiators) callId).count_eq tx
  rw [Table.part_of_get hentry, List.count_append, ← hreplies] at hpending
  rw [count_got, count_got]
  simp only [pageAnswers_append, List.count_append]
  omega

theorem sameGot_timeOut (r : Router) (callId : CallId) : SameGot r (r.timeOut callId) := by
  unfold timeOut
  split
  · rename_i pending method since hentry
    cases pending with
    | boot =>
      have hanswered : SameGot r { r with
          pending := r.pending.remove callId
          replies := r.replies ++ [] } := sameGot_answer hentry rfl
      rwa [List.append_nil] at hanswered
    | browserCommand tx => exact sameGot_answer hentry rfl
    | createTarget tx => exact sameGot_answer hentry rfl
  · exact .refl r

theorem sameGot_timeOutInitiator (r : Router) (targetId : TargetId) : SameGot r (r.timeOutInitiator targetId) := by
  unfold timeOutInitiator
  dsimp only
  split
  · rename_i tx hparked
    refine ⟨List.perm_iff_count.2 fun other => ?_, r.pendingInitiators.remove_sub targetId, fun htimed x => ?_⟩
    · have hgone := (r.pendingInitiators.gather_perm_part (fun _ tx => [tx]) targetId).count_eq other
      rw [Table.part_of_get hparked, List.count_append] at hgone
      rw [count_got, count_got]
      simp only [send, pageAnswers_append, pageAnswers_page, List.count_append]
      omega
    · simp only [send, Table.get_remove]
      split
      · rfl
      · exact htimed x
  · rename_i hnone
    refine ⟨.refl _, .refl _, fun htimed x => ?_⟩
    by_cases hsame : x = targetId
    · simp [hsame, hnone]
    · rw [Table.get_remove_of_ne _ hsame]
      exact htimed x

theorem sameGot_evictRouterPending (r : Router) (now : Instant) (requestTimeout : Duration) :
    SameGot r (r.evictRouterPending now requestTimeout) := by
  unfold evictRouterPending
  split
  · exact .refl r
  · exact (Run.foldl_rel .refl .trans sameGot_timeOut _ _).trans
      (Run.foldl_rel .refl .trans sameGot_timeOutInitiator _ _)

theorem sameGot_onBrowserMessage (r : Router) {msg : HandlerMessage} (hcall : callOf msg = none) (now : Instant)
    (hpage : ∀ params tx, msg ≠ .createPage params tx) : SameGot r (r.onBrowserMessage true msg now) := by
  have hsent : ∀ tx reply, (∀ result, reply ≠ .page result) → SameGot r (r.send tx reply) := by
    intro tx reply hreply
    refine .of_pending ?_ rfl rfl
    have hother : pageAnswers [(tx, reply)] = [] := by
      refine pageAnswers_eq_nil fun tx' result hmem => ?_
      cases List.mem_singleton.1 hmem
      exact hreply result rfl
    simp only [got, initiators, send, pageAnswers_append, hother, List.append_nil]
    exact .refl _
  cases msg with
  | createPage params tx => exact absurd rfl (hpage params tx)
  | command cmd => cases hcall
  | closeBrowser tx => exact hsent _ _ nofun
  | getPages tx => exact hsent _ _ nofun
  | getPage targetId tx => exact hsent _ _ nofun
  | fetchTargets tx => exact hsent _ _ nofun
  | _ => exact .refl r

/-- A call is entered in the table of those that wait, where no sender waits under its id. -/
theorem count_enter (r : Router) (callId : CallId) (call : RouterCall) (now : Instant)
    (hfree : r.pending.part (fun _ entry => entry.1.initiators) callId = []) (tx : Sender) :
    (r.enter true callId call now).got.count tx = r.got.count tx + call.pending.initiators.count tx := by
  have hold := (r.pending.gather_perm_part (fun _ entry => entry.1.initiators) callId).count_eq tx
  rw [hfree, List.nil_append] at hold
  have hnew : ((r.pending.set callId (call.pending, call.req.method, now)).gather
      fun _ entry => entry.1.initiators).count tx =
      call.pending.initiators.count tx + ((r.pending.remove callId).gather fun _ entry => entry.1.initiators).count tx := by
    rw [Table.gather, Table.toList_set, List.flatMap_cons, List.count_append]
    rfl
  rw [count_got, count_got]
  simp only [enter, if_true]
  omega

theorem count_refused (r : Router) (callId : CallId) (call : RouterCall) (now : Instant) (tx : Sender) :
    (r.enter false callId call now).got.count tx =
      r.got.count tx + (pageAnswers [(call.tx, call.refusal)]).count tx := by
  rw [count_got, count_got]
  simp only [enter, send, pageAnswers_append, List.count_append, Bool.false_eq_true, if_false]
  omega

/-- A response of the router's own answers a sender, or hands it to the task of its target, or lets it wait for that. -/
theorem handleRouterResponse_cases (r : Router) (decoders : Decoders) (now : Instant) (resp : Response) :
    (SameGot r (r.handleRouterResponse decoders now resp.id resp) ∧
      (r.handleRouterResponse decoders now resp.id resp).toSessions = r.toSessions) ∨
    ∃ tx targetId method since, r.pending.get resp.id = some (.createTarget tx, method, since) ∧
      System.assigns r decoders resp = [(tx, targetId)] ∧
      ((∃ slot, r.targetIdToSlot.get targetId = some slot ∧ (r.sessions.get slot).isSome = true ∧
          r.handleRouterResponse decoders now resp.id resp = { r with
            pending := r.pending.remove resp.id
            toSessions := r.toSessions ++ [(slot, .setInitiator tx)] }) ∨
        (r.targetIdToSlot.get targetId = none ∧
          r.handleRouterResponse decoders now resp.id resp = { r with
            pending := r.pending.remove resp.id
            pendingInitiatorTs := r.pendingInitiatorTs.set targetId now
            pendingInitiators := r.pendingInitiators.set targetId tx })) := by
  unfold handleRouterResponse System.assigns
  cases hentry : r.pending.get resp.id with
  | none => exact .inl ⟨.refl r, rfl⟩
  | some entry =>
    obtain ⟨pending, method, since⟩ := entry
    cases pending with
    | boot =>
      have hanswered : SameGot r { r with
          pending := r.pending.remove resp.id
          replies := r.replies ++ [] } := sameGot_answer hentry rfl
      rw [List.append_nil] at hanswered
      exact .inl ⟨hanswered, rfl⟩
    | browserCommand tx => exact .inl ⟨sameGot_answer hentry rfl, rfl⟩
    | createTarget tx =>
      dsimp only
      cases toCommandResponse decoders.createTarget resp with
      | error err => exact .inl ⟨sameGot_answer hentry rfl, rfl⟩
      | ok targetId =>
        dsimp only
        cases hslot : r.targetIdToSlot.get targetId with
        | none => exact .inr ⟨tx, targetId, method, since, rfl, rfl, .inr ⟨hslot, rfl⟩⟩
        | some slot =>
          dsimp only
          cases hsession : r.sessions.get slot with
          | none => exact .inl ⟨sameGot_answer hentry rfl, rfl⟩
          | some entry =>
            exact .inr ⟨tx, targetId, method, since, rfl, rfl, .inl ⟨slot, hslot, by rw [hsession]; rfl, rfl⟩⟩

end Router

namespace System

variable {s s' : System} {move : Move}

/-- The senders that wait in an inbox. -/
def boxed (s : System) (slot : UInt16) : List Sender := (s.inboxes slot).flatMap RouterToSession.initiators

/-- The senders that a task holds, or will find in its inbox. A task that has left its loop holds nothing any more. -/
def heldBy (s : System) (slot : UInt16) (task : SessionTask) : List Sender :=
  s.boxed slot ++ if task.stopped then [] else task.target.initiator.toList

def gotBy (s : System) (slot : UInt16) (task : SessionTask) : List Sender :=
  s.heldBy slot task ++ pageAnswers task.target.replies

/-- The senders that the router holds, which are gone when it has panicked. -/
def routerHeld (s : System) : List Sender :=
  if s.router.panicked then [] else (s.doing 0).initiators ++ s.router.initiators

def held (s : System) : List Sender := s.routerHeld ++ s.tasks.gather s.heldBy

def answered (s : System) : List Sender :=
  pageAnswers s.router.replies ++ s.tasks.gather fun _ task => pageAnswers task.target.replies

/-- Each sender that a page was asked for with is in one place or has been answered once, those that wait for a target have a time since when, and a task has got none but those of its own target. -/
structure Initiated (s : System) : Prop where
  once : s.asked.Perm (s.held ++ s.answered)
  timed : ∀ targetId, (s.router.pendingInitiators.get targetId).isSome =
    (s.router.pendingInitiatorTs.get targetId).isSome
  own : ∀ slot task, s.tasks.get slot = some task → ∀ tx ∈ s.gotBy slot task,
    (tx, task.target.info.targetId) ∈ s.assigned

/-! ### Where a sender can be lost -/

/-- A task that leaves its loop finds no sender in its inbox, and one whose target holds a sender neither leaves its loop nor is given another. -/
def ReceivesSafely (s : System) (slot : UInt16) (env : Env) : Prop :=
  (s.exits (.receive slot env) = true → s.boxed slot = []) ∧
    ∀ task ∈ (s.idleTask slot).toList, task.target.initiator.isSome = true →
      s.exits (.receive slot env) = false ∧
        ((s.inboxes slot).take 1).flatMap RouterToSession.initiators = []

instance (s : System) (slot : UInt16) (env : Env) : Decidable (s.ReceivesSafely slot env) :=
  inferInstanceAs (Decidable ((s.exits (.receive slot env) = true → s.boxed slot = []) ∧
    ∀ task ∈ (s.idleTask slot).toList, task.target.initiator.isSome = true →
      s.exits (.receive slot env) = false ∧
        ((s.inboxes slot).take 1).flatMap RouterToSession.initiators = []))

/-- The senders that the response in the router's hands assigns to a target. -/
def assigning (s : System) : List (Sender × TargetId) :=
  match s.doing 0 with
  | .hands decoders _ resp none => assigns s.router decoders resp
  | _ => []

/-- The task of a target that is registered has not left its loop, and no other sender waits for a target that is not. -/
def HandsSafely (s : System) : Prop :=
  ∀ entry ∈ s.assigning,
    (∀ slot ∈ (s.router.targetIdToSlot.get entry.2).toList, (s.router.sessions.get slot).isSome = true →
      s.live slot = true) ∧
    ((s.router.targetIdToSlot.get entry.2).isSome = false →
      (s.router.pendingInitiators.get entry.2).isSome = false)

instance (s : System) : Decidable s.HandsSafely :=
  -- the slots of the list, not all slots
  have (entry : Sender × TargetId) : Decidable (∀ slot ∈ (s.router.targetIdToSlot.get entry.2).toList,
      (s.router.sessions.get slot).isSome = true → s.live slot = true) := List.decidableBAll _ _
  inferInstanceAs (Decidable (∀ entry ∈ s.assigning,
    (∀ slot ∈ (s.router.targetIdToSlot.get entry.2).toList, (s.router.sessions.get slot).isSome = true →
      s.live slot = true) ∧
    ((s.router.targetIdToSlot.get entry.2).isSome = false →
      (s.router.pendingInitiators.get entry.2).isSome = false)))

/-- The router is told of a target that it does not know, and has no slot left. -/
def exhausts (s : System) : CdpEventMessage → Bool
  | ⟨.targetTargetCreated info, none⟩ =>
    s.idle && (s.router.targetIdToSlot.get info.targetId).isNone && s.router.nextSlot == 65535
  | _ => false

/-- The id of the call that the router is about to wait for. -/
def entering (s : System) : Option CallId :=
  match s.doing 0 with
  | .submits .written callId _ => some callId
  | _ => none

/-- The senders that wait under a call id. -/
def waitingUnder (r : Router) (callId : CallId) : List Sender :=
  r.pending.part (fun _ entry => entry.1.initiators) callId

/-- What a move must not meet, so that no sender is lost: the end of a task or of the router that holds one, a place that holds one already, and a task that has left its loop. -/
def HandsOver (s : System) : Move → Prop
  | .receive slot env => s.ReceivesSafely slot env
  | .hand => s.HandsSafely
  | .event event => s.exhausts event = true → s.routerHeld = []
  | .proceed party _ => party = 0 → ∀ callId ∈ s.entering.toList, waitingUnder s.router callId = []
  | _ => True

instance (s : System) (move : Move) : Decidable (s.HandsOver move) :=
  match move with
  | .receive slot env => inferInstanceAs (Decidable (s.ReceivesSafely slot env))
  | .hand => inferInstanceAs (Decidable s.HandsSafely)
  | .event event => inferInstanceAs (Decidable (s.exhausts event = true → s.routerHeld = []))
  | .proceed party _ =>
    inferInstanceAs (Decidable (party = 0 → ∀ callId ∈ s.entering.toList, waitingUnder s.router callId = []))
  | .browser _ _ | .response _ _ _ | .hear | .dropRoutes | .evict _ | .turn _ _ _ | .evictStale _ _
  | .takeRoute _ | .timeOut _ | .pageMessage _ _ | .drainPage _ => .isTrue trivial

/-! ### The ledger -/

/-- The target of the task in a slot. -/
def name (s : System) (slot : UInt16) : Option TargetId :=
  (s.tasks.get slot).map fun task => task.target.info.targetId

/-- The senders that the task in a slot has got. -/
def got (s : System) (slot : UInt16) : List Sender := s.tasks.part s.gotBy slot

/-- The senders that the router has got and not handed on. -/
def routerGot (s : System) : List Sender := s.routerHeld ++ pageAnswers s.router.replies

/-- What holds of the senders at any time. A registered slot is that of its task's target, and the router does nothing when it has panicked. -/
structure Accounted (s : System) : Prop where
  routed : s.router.Routed
  named : ∀ slot targetId, s.router.owner slot = some targetId → s.name slot = some targetId
  halted : s.router.panicked = true → (s.doing 0).isNothing = true
  settles : (s.doing 0).Settles
  timed : ∀ targetId, (s.router.pendingInitiators.get targetId).isSome =
    (s.router.pendingInitiatorTs.get targetId).isSome
  parked : ∀ targetId tx, s.router.pendingInitiators.get targetId = some tx → (tx, targetId) ∈ s.assigned
  own : ∀ slot targetId, s.name slot = some targetId → ∀ tx ∈ s.got slot, (tx, targetId) ∈ s.assigned
  ledger : s.asked.Perm (s.routerGot ++ s.tasks.gather s.gotBy)

theorem name_of_task {slot : UInt16} {task : SessionTask} (htask : s.tasks.get slot = some task) :
    s.name slot = some task.target.info.targetId := by
  rw [name, htask, Option.map_some]

theorem got_of_task {slot : UInt16} {task : SessionTask} (htask : s.tasks.get slot = some task) :
    s.got slot = s.gotBy slot task :=
  Table.part_of_get htask

theorem count_gotBy (slot : UInt16) (task : SessionTask) (tx : Sender) :
    (s.gotBy slot task).count tx = (s.boxed slot).count tx +
      (if task.stopped then [] else task.target.initiator.toList).count tx +
      (pageAnswers task.target.replies).count tx := by
  rw [gotBy, heldBy, List.count_append, List.count_append]

theorem count_routerGot (hrunning : s.router.panicked = false) (tx : Sender) :
    s.routerGot.count tx = (s.doing 0).initiators.count tx + s.router.got.count tx := by
  simp only [routerGot, routerHeld, Router.got, hrunning, Bool.false_eq_true, if_false, List.count_append]
  omega

theorem Accounted.initiated (h : Accounted s) : Initiated s where
  once := by
    have hsplit := s.tasks.gather_append_perm s.heldBy fun _ task => pageAnswers task.target.replies
    refine List.perm_iff_count.2 fun tx => ?_
    have hledger := h.ledger.count_eq tx
    have hcount : (s.tasks.gather s.gotBy).count tx = _ := hsplit.count_eq tx
    simp only [held, answered, routerGot, List.count_append] at hledger hcount ⊢
    omega
  timed := h.timed
  own := fun slot task htask tx htx =>
    h.own slot _ (name_of_task htask) tx ((got_of_task htask).symm ▸ htx)

/-- The ledger after a change to what the router has got and to one slot. -/
theorem Accounted.trade (h : Accounted s) {slot : UInt16}
    (htasks : ∀ x, x ≠ slot → s'.tasks.get x = s.tasks.get x) (hboxed : ∀ x, x ≠ slot → s'.boxed x = s.boxed x)
    (hcount : ∀ tx, s'.asked.count tx + s.routerGot.count tx + (s.got slot).count tx =
      s.asked.count tx + s'.routerGot.count tx + (s'.got slot).count tx) :
    s'.asked.Perm (s'.routerGot ++ s'.tasks.gather s'.gotBy) := by
  have hgather : (s'.tasks.gather s'.gotBy ++ s.got slot).Perm (s.tasks.gather s.gotBy ++ s'.got slot) := by
    refine Table.gather_perm_of_others htasks fun x task hx _ => ?_
    rw [gotBy, heldBy, hboxed x hx]
    exact .refl _
  refine List.perm_iff_count.2 fun tx => ?_
  have hledger := h.ledger.count_eq tx
  have hslots := hgather.count_eq tx
  have hcount := hcount tx
  simp only [List.count_append] at hledger hslots ⊢
  omega

/-! ### What the moves keep -/

/-- The router does something that reaches no task. -/
theorem Accounted.ofRouter (h : Accounted s) (hrouted : s'.router.Routed)
    (howner : ∀ slot targetId, s'.router.owner slot = some targetId → s.router.owner slot = some targetId)
    (htasks : s'.tasks = s.tasks) (hboxed : s'.boxed = s.boxed)
    (hhalted : s'.router.panicked = true → (s'.doing 0).isNothing = true) (hsettles : (s'.doing 0).Settles)
    (htimed : ∀ targetId, (s'.router.pendingInitiators.get targetId).isSome =
      (s'.router.pendingInitiatorTs.get targetId).isSome)
    (hparked : ∀ targetId tx, s'.router.pendingInitiators.get targetId = some tx → (tx, targetId) ∈ s'.assigned)
    (hassigned : s.assigned ⊆ s'.assigned)
    (hcount : ∀ tx, s'.asked.count tx + s.routerGot.count tx = s.asked.count tx + s'.routerGot.count tx) :
    Accounted s' := by
  have hname : s'.name = s.name := by
    funext slot
    rw [name, htasks, name]
  have hgot : s'.got = s.got := by
    funext slot
    have hgotBy : s'.gotBy = s.gotBy := by
      funext x task
      rw [gotBy, heldBy, hboxed]
      rfl
    rw [got, htasks, hgotBy, got]
  constructor
  · exact hrouted
  · intro slot targetId hslot
    rw [hname]
    exact h.named slot targetId (howner slot targetId hslot)
  · exact hhalted
  · exact hsettles
  · exact htimed
  · exact hparked
  · intro slot targetId hslot tx htx
    rw [hname] at hslot
    rw [hgot] at htx
    exact hassigned (h.own slot targetId hslot tx htx)
  · refine @Accounted.trade s s' h 0 (fun x _ => by rw [htasks]) (fun x _ => by rw [hboxed]) fun tx => ?_
    have hcount := hcount tx
    rw [hgot]
    omega

/-- The router keeps its tables and its senders, and may go on to something else. -/
theorem Accounted.of_same (h : Accounted s) {ids : CallIdAllocator} (hrouter : s'.router = { s.router with ids := ids })
    (htasks : s'.tasks = s.tasks) (hboxed : s'.boxed = s.boxed)
    (hhalted : s.router.panicked = true → (s'.doing 0).isNothing = true) (hsettles : (s'.doing 0).Settles)
    (hheld : (s'.doing 0).initiators = (s.doing 0).initiators) (hasked : s'.asked = s.asked)
    (hassigned : s'.assigned = s.assigned) : Accounted s' := by
  have hgot : s'.routerGot = s.routerGot := by
    simp only [routerGot, routerHeld, hheld, hrouter]
    rfl
  refine h.ofRouter ?_ ?_ htasks hboxed ?_ hsettles ?_ ?_ ?_ fun tx => by rw [hgot, hasked]
  · rw [hrouter]
    exact h.routed.of_same (Router.sameSlots_of_eq rfl rfl rfl rfl)
  · rw [hrouter]
    exact fun _ _ hslot => hslot
  · rw [hrouter]
    exact hhalted
  · rw [hrouter]
    exact h.timed
  · rw [hrouter, hassigned]
    exact h.parked
  · rw [hassigned]
    exact List.Subset.refl _

/-- A task does something that leaves the router alone. -/
theorem Accounted.ofTask (h : Accounted s) {ids : CallIdAllocator} {slot : UInt16} {task task' : SessionTask}
    (hrouter : s'.router = { s.router with ids := ids }) (htask : s.tasks.get slot = some task)
    (htasks : s'.tasks = s.tasks.set slot task') (hboxed : ∀ x, x ≠ slot → s'.boxed x = s.boxed x)
    (hdoing : s'.doing 0 = s.doing 0) (hasked : s'.asked = s.asked) (hassigned : s'.assigned = s.assigned)
    (hinfo : task'.target.info = task.target.info) (hgot : (s'.gotBy slot task').Perm (s.gotBy slot task)) :
    Accounted s' := by
  have hname : s'.name = s.name := by
    funext x
    rw [name, htasks, Table.get_set]
    split
    · rename_i hsame
      rw [hsame, name_of_task htask, Option.map_some, hinfo]
    · rfl
  have htask' : s'.tasks.get slot = some task' := by
    rw [htasks, Table.get_set_self]
  have hothers : ∀ x, x ≠ slot → s'.tasks.get x = s.tasks.get x := by
    intro x hx
    rw [htasks, Table.get_set_of_ne _ _ hx]
  have hgots : ∀ x, (s'.got x).Perm (s.got x) := by
    intro x
    by_cases hsame : x = slot
    · rw [hsame, got_of_task htask', got_of_task htask]
      exact hgot
    · rw [got, Table.part, hothers x hsame, got, Table.part]
      cases s.tasks.get x with
      | none => exact .refl _
      | some other =>
        show (s'.gotBy x other).Perm (s.gotBy x other)
        rw [gotBy, heldBy, hboxed x hsame]
        exact .refl _
  have hrouterGot : s'.routerGot = s.routerGot := by
    simp only [routerGot, routerHeld, hdoing, hrouter]
    rfl
  constructor
  · rw [hrouter]
    exact h.routed.of_same (Router.sameSlots_of_eq rfl rfl rfl rfl)
  · rw [hrouter, hname]
    exact h.named
  · rw [hrouter, hdoing]
    exact h.halted
  · rw [hdoing]
    exact h.settles
  · rw [hrouter]
    exact h.timed
  · rw [hrouter, hassigned]
    exact h.parked
  · intro x targetId hx tx htx
    rw [hname] at hx
    rw [hassigned]
    exact h.own x targetId hx tx ((hgots x).mem_iff.1 htx)
  · refine h.trade hothers hboxed fun tx => ?_
    have hcount := (hgots slot).count_eq tx
    rw [hrouterGot, hasked]
    omega

/-- A running task goes on with the senders that its target has got. -/
theorem Accounted.rests (h : Accounted s) {slot : UInt16} {task task' : SessionTask}
    (htask : s.tasks.get slot = some task) (hstopped : task.stopped = false) (hrests : task.Rests task') :
    Accounted (s.afterTask slot task task') := by
  have hsame : (s.afterTask slot task task').router = { s.router with ids := s.router.ids } := rfl
  refine h.ofTask hsame htask rfl (fun _ _ => rfl) rfl rfl rfl hrests.initiators.info ?_
  have hinitiators := hrests.initiators.initiators
  unfold Target.initiators at hinitiators
  simp only [gotBy, heldBy, hrests.stopped, hstopped, Bool.false_eq_true, if_false, List.append_assoc]
  exact hinitiators.append_left _

theorem boxed_afterRouter {r : Router} {msgs : List (UInt16 × RouterToSession)}
    (hspawned : r.spawned = s.router.spawned) (hmsgs : r.toSessions = s.router.toSessions ++ msgs) (slot : UInt16) :
    (s.afterRouter r).boxed slot = s.boxed slot ++
      if s.live slot then ((msgs.filter fun entry => entry.1 = slot).map Prod.snd).flatMap RouterToSession.initiators
      else [] := by
  rw [afterRouter_eq hmsgs (hspawned.trans (List.append_nil _).symm), boxed, List.flatMap_append]
  refine congrArg (s.boxed slot ++ ·) ?_
  have hlive : live { s with router := r, tasks := spawn r.config s.tasks [] } slot = s.live slot := rfl
  rw [delivered, hlive]
  split
  · rfl
  · rfl

/-- The messages that the router sends bring no sender. -/
theorem boxed_afterRouter_of_quiet {r : Router} {msgs : List (UInt16 × RouterToSession)}
    (hspawned : r.spawned = s.router.spawned) (hmsgs : r.toSessions = s.router.toSessions ++ msgs)
    (hquiet : ∀ entry ∈ msgs, entry.2.initiators = []) : (s.afterRouter r).boxed = s.boxed := by
  funext slot
  rw [boxed_afterRouter hspawned hmsgs]
  split
  · have hnone : ((msgs.filter fun entry => entry.1 = slot).map Prod.snd).flatMap RouterToSession.initiators = [] := by
      rw [List.flatMap_eq_nil_iff]
      intro msg hmsg
      obtain ⟨entry, hentry, rfl⟩ := List.mem_map.1 hmsg
      exact hquiet entry (List.mem_filter.1 hentry).1
    rw [hnone, List.append_nil]
  · exact List.append_nil _

theorem quiet_addressed {r : Router} {slot : Option UInt16} {msg : RouterToSession} (hmsg : msg.initiators = []) :
    ∀ entry ∈ r.addressed slot msg, entry.2.initiators = [] := by
  intro entry hentry
  unfold Router.addressed at hentry
  split at hentry
  · split at hentry
    · rw [List.mem_singleton.1 hentry]
      exact hmsg
    · exact absurd hentry List.not_mem_nil
  · exact absurd hentry List.not_mem_nil

theorem initiators_of_ne {msg : RouterToSession} (h : ∀ tx, msg ≠ .setInitiator tx) : msg.initiators = [] := by
  cases msg with
  | setInitiator tx => exact absurd rfl (h tx)
  | _ => rfl

theorem Accounted.running (h : Accounted s) (hdoing : (s.doing 0).isNothing = false) : s.router.panicked = false := by
  cases hpanicked : s.router.panicked with
  | false => rfl
  | true =>
    rw [h.halted hpanicked] at hdoing
    cases hdoing

/-- The router serves its tables and its tasks, and keeps the senders. -/
theorem Accounted.serves (h : Accounted s) {r : Router} {msgs : List (UInt16 × RouterToSession)}
    (hrunning : s.router.panicked = false) (hrouted : r.Routed) (hpanicked : r.panicked = false)
    (howner : ∀ slot targetId, r.owner slot = some targetId → s.router.owner slot = some targetId)
    (hspawned : r.spawned = s.router.spawned) (hmsgs : r.toSessions = s.router.toSessions ++ msgs)
    (hquiet : ∀ entry ∈ msgs, entry.2.initiators = []) (hsame : s.router.SameGot r) :
    Accounted (s.afterRouter r) := by
  refine h.ofRouter (by rwa [router_afterRouter]) (by rwa [router_afterRouter]) (tasks_afterRouter_of_spawned hspawned)
    (boxed_afterRouter_of_quiet hspawned hmsgs hquiet) ?_ ?_ ?_ ?_ ?_ fun tx => ?_
  · rw [router_afterRouter, hpanicked]
    exact nofun
  · rw [doing_afterRouter]
    exact h.settles
  · rw [router_afterRouter]
    exact hsame.timed h.timed
  · rw [router_afterRouter, assigned_afterRouter]
    exact fun targetId tx hget => h.parked targetId tx (hsame.parked targetId tx hget)
  · rw [assigned_afterRouter]
    exact List.Subset.refl _
  · have hafter : (s.afterRouter r).router.panicked = false := by rwa [router_afterRouter]
    rw [count_routerGot hrunning, count_routerGot hafter, router_afterRouter, doing_afterRouter, asked_afterRouter,
      hsame.got.count_eq tx]

/-- The router goes on to something that holds the same sender. -/
theorem Accounted.routerDoes (h : Accounted s) {doing : Doing} (hrunning : s.router.panicked = false)
    (hsettles : doing.Settles) (hheld : doing.initiators = (s.doing 0).initiators) :
    Accounted (s.does 0 doing) := by
  have hdoing : (s.does 0 doing).doing 0 = doing := by simp [does]
  have hrouter : (s.does 0 doing).router = { s.router with ids := s.router.ids } := rfl
  refine h.of_same hrouter rfl rfl ?_ (by rwa [hdoing]) (by rw [hdoing, hheld]) rfl rfl
  rw [hrunning]
  simp

theorem Accounted.taskDoes (h : Accounted s) {slot : UInt16} (hslot : slot ≠ 0) (doing : Doing) :
    Accounted (s.does slot doing) := by
  have hdoing : (s.does slot doing).doing 0 = s.doing 0 := by
    simp [does, Function.update_of_ne hslot.symm]
  have hrouter : (s.does slot doing).router = { s.router with ids := s.router.ids } := rfl
  exact h.of_same hrouter rfl rfl (hdoing ▸ h.halted) (hdoing ▸ h.settles) (by rw [hdoing]) rfl rfl

/-- The router panics for want of a slot, and holds no sender. -/
theorem Accounted.overflows (h : Accounted s) (hnothing : (s.doing 0).isNothing = true)
    (hempty : s.routerHeld = []) (hrouted : Router.Routed { s.router with panicked := true }) :
    Accounted (s.afterRouter { s.router with panicked := true }) := by
  refine h.ofRouter (by rwa [router_afterRouter]) (by rw [router_afterRouter]; exact fun _ _ hslot => hslot)
    (tasks_afterRouter_of_spawned rfl) (boxed_afterRouter_of_quiet rfl (List.append_nil _).symm
      fun _ hentry => absurd hentry List.not_mem_nil) ?_ ?_ ?_ ?_ ?_ fun tx => ?_
  · rw [doing_afterRouter]
    exact fun _ => hnothing
  · rw [doing_afterRouter]
    exact h.settles
  · rw [router_afterRouter]
    exact h.timed
  · rw [router_afterRouter, assigned_afterRouter]
    exact h.parked
  · rw [assigned_afterRouter]
    exact List.Subset.refl _
  · rw [asked_afterRouter, routerGot, hempty, routerGot, routerHeld, router_afterRouter]
    rfl

/-- A target has got the next slot and a task there, and the task the sender that waited for the target. -/
structure Opened (s s' : System) (info : TargetInfo) : Prop where
  fresh : s.tasks.get s.router.nextSlot = none
  owner : ∀ slot, s'.router.owner slot = if slot = s.router.nextSlot then some info.targetId else s.router.owner slot
  panicked : s'.router.panicked = s.router.panicked
  pending : s'.router.pending = s.router.pending
  pendingInitiators : s'.router.pendingInitiators = s.router.pendingInitiators.remove info.targetId
  pendingInitiatorTs : s'.router.pendingInitiatorTs = s.router.pendingInitiatorTs.remove info.targetId
  replies : s'.router.replies = s.router.replies
  doing : s'.doing = s.doing
  asked : s'.asked = s.asked
  assigned : s'.assigned = s.assigned
  name : s'.name s.router.nextSlot = some info.targetId
  got : s'.got s.router.nextSlot = (s.router.pendingInitiators.get info.targetId).toList
  others : ∀ x, x ≠ s.router.nextSlot → s'.tasks.get x = s.tasks.get x
  boxed : ∀ x, x ≠ s.router.nextSlot → s'.boxed x = s.boxed x

theorem opened_created (hstaffed : s.Staffed) {info : TargetInfo}
    (hknown : s.router.targetIdToSlot.get info.targetId = none) (hslot : s.router.nextSlot ≠ 65535) :
    Opened s (s.afterRouter (s.router.onTargetCreated info)) info := by
  obtain ⟨context, toSessions, heq, hmsgs⟩ := Router.onTargetCreated_of_unknown hknown hslot
  have hafter := @afterRouter_eq s (s.router.onTargetCreated info) _ [(s.router.nextSlot, info, context)]
    (by rw [heq]; exact hmsgs) (by rw [heq])
  have howner := Router.owner_onTargetCreated hknown hslot
  generalize hr : s.router.onTargetCreated info = r at heq hafter howner ⊢
  generalize hs' : s.afterRouter r = s' at hafter ⊢
  have hfresh : s.tasks.get s.router.nextSlot = none :=
    Option.eq_none_iff_forall_ne_some.2 fun task htask =>
      UInt16.lt_irrefl _ (hstaffed.slots _ task htask).2.2
  have hrouter : s'.router = r := by rw [hafter]
  have htasks : s'.tasks = s.tasks.set s.router.nextSlot (.spawned s.router.nextSlot r.config info context) := by
    rw [hafter]
    rfl
  have hnew : s'.tasks.get s.router.nextSlot = some (.spawned s.router.nextSlot r.config info context) := by
    rw [htasks, Table.get_set_self]
  -- The inbox of a slot without a task was empty, so the sender is all that is in it.
  have hinbox : s'.boxed s.router.nextSlot = (s.router.pendingInitiators.get info.targetId).toList := by
    have hlive : live { s with
        router := r
        tasks := spawn r.config s.tasks [(s.router.nextSlot, info, context)] } s.router.nextSlot = true := by
      simp [live, spawn, SessionTask.spawned, SessionTask.new]
    have hempty : s.inboxes s.router.nextSlot = [] := hstaffed.emptied _ (by simp [live, hfresh])
    rw [hafter]
    simp only [System.boxed, delivered, hlive, if_true, hempty, List.nil_append]
    cases s.router.pendingInitiators.get info.targetId with
    | none => rfl
    | some tx => simp [RouterToSession.initiators]
  constructor
  · exact hfresh
  · rw [hrouter]
    exact howner
  · rw [hrouter, heq]
  · rw [hrouter, heq]
  · rw [hrouter, heq]
  · rw [hrouter, heq]
  · rw [hrouter, heq]
  · rw [hafter]
  · rw [hafter]
  · rw [hafter]
  · rw [name_of_task hnew]
    rfl
  · rw [got_of_task hnew, gotBy, heldBy, hinbox]
    exact (List.append_nil _).trans (List.append_nil _)
  · intro x hx
    rw [htasks, Table.get_set_of_ne _ _ hx]
  · intro x hx
    rw [hafter, System.boxed, List.flatMap_append]
    have hnone : delivered { s with router := r, tasks := spawn r.config s.tasks [(s.router.nextSlot, info, context)] }
        ((s.router.pendingInitiators.get info.targetId).toList.map fun tx =>
          (s.router.nextSlot, RouterToSession.setInitiator tx)) x = [] := by
      simp [delivered, Ne.symm hx]
    rw [hnone, List.flatMap_nil, List.append_nil]
    rfl

/-- What the task in another slot has got does not change. -/
theorem Opened.got_of_ne {info : TargetInfo} (hopened : Opened s s' info) {slot : UInt16}
    (hslot : slot ≠ s.router.nextSlot) : s'.got slot = s.got slot := by
  cases htask : s.tasks.get slot with
  | none => rw [System.got, Table.part_of_get_eq_none (by rw [hopened.others slot hslot, htask]), System.got,
      Table.part_of_get_eq_none htask]
  | some task =>
    rw [got_of_task (by rw [hopened.others slot hslot, htask]), got_of_task htask, gotBy, gotBy, heldBy, heldBy,
      hopened.boxed slot hslot]

/-- The sender that waited for the target is counted with the task instead of the router. -/
theorem Accounted.opens (h : Accounted s) {info : TargetInfo} (hopened : Opened s s' info)
    (hnothing : (s.doing 0).isNothing = true) (hrunning : s.router.panicked = false) (hrouted : s'.router.Routed) :
    Accounted s' := by
  constructor
  · exact hrouted
  · intro slot targetId howner
    rw [hopened.owner] at howner
    split at howner
    · rename_i hsame
      cases howner
      rw [hsame]
      exact hopened.name
    · rename_i hother
      rw [name, hopened.others slot hother]
      exact h.named slot targetId howner
  · rw [hopened.doing]
    exact fun _ => hnothing
  · rw [hopened.doing]
    exact h.settles
  · intro targetId
    rw [hopened.pendingInitiators, hopened.pendingInitiatorTs, Table.get_remove, Table.get_remove]
    split
    · rfl
    · exact h.timed targetId
  · intro targetId tx hget
    rw [hopened.pendingInitiators] at hget
    rw [hopened.assigned]
    exact h.parked targetId tx (Table.remove_sub _ _ _ _ hget)
  · intro slot targetId hname tx htx
    rw [hopened.assigned]
    by_cases hsame : slot = s.router.nextSlot
    · rw [hsame, hopened.name] at hname
      cases hname
      rw [hsame, hopened.got, Option.mem_toList] at htx
      exact h.parked _ tx htx
    · rw [name, hopened.others slot hsame] at hname
      rw [hopened.got_of_ne hsame] at htx
      exact h.own slot targetId hname tx htx
  · refine h.trade hopened.others hopened.boxed fun tx => ?_
    have hrunning' : s'.router.panicked = false := hopened.panicked.trans hrunning
    have hnone : s.got s.router.nextSlot = [] := Table.part_of_get_eq_none hopened.fresh
    have hparked := (s.router.pendingInitiators.gather_perm_part (fun _ tx => [tx]) info.targetId).count_eq tx
    have hpart : s.router.pendingInitiators.part (fun _ tx => [tx]) info.targetId =
        (s.router.pendingInitiators.get info.targetId).toList := by
      rw [Table.part]
      cases s.router.pendingInitiators.get info.targetId with
      | none => rfl
      | some tx => rfl
    rw [hpart, List.count_append] at hparked
    rw [hopened.got, hnone, count_routerGot hrunning, count_routerGot hrunning', hopened.doing, Router.count_got,
      Router.count_got, hopened.asked, hopened.pending, hopened.pendingInitiators, hopened.replies]
    simp only [List.count_nil]
    omega

/-- A target that the router did not know gets a slot, and its task the sender that waits for it. -/
theorem Accounted.created (h : Accounted s) (hstaffed : s.Staffed) {info : TargetInfo} (hidle : s.idle = true)
    (hsafe : s.HandsOver (.event ⟨.targetTargetCreated info, none⟩)) :
    Accounted (s.afterRouter (s.router.onTargetCreated info)) := by
  obtain ⟨hnothing, hrunning⟩ := (Bool.and_eq_true _ _).mp hidle
  rw [Bool.not_eq_true'] at hrunning
  have hrouted := h.routed.onTargetCreated info
  cases hknown : s.router.targetIdToSlot.get info.targetId with
  | some slot =>
    rw [Router.onTargetCreated_of_known hknown]
    exact h.serves hrunning h.routed hrunning (fun _ _ hslot => hslot) rfl (List.append_nil _).symm
      (fun _ hentry => absurd hentry List.not_mem_nil) (.refl _)
  | none =>
    by_cases hslot : s.router.nextSlot = 65535
    · rw [Router.onTargetCreated_of_full hknown hslot] at hrouted ⊢
      have hempty : s.routerHeld = [] := hsafe (by simp [exhausts, hidle, hknown, hslot])
      exact h.overflows hnothing hempty hrouted
    · exact h.opens (opened_created hstaffed hknown hslot) hnothing hrunning (by rwa [router_afterRouter])

/-- The sender of a call that is answered with a target goes to the task of that target. -/
theorem Accounted.handsOver (h : Accounted s) {callId : CallId} {tx : Sender} {targetId : TargetId}
    {entry : MethodId × Instant} {slot : UInt16} (hrunning : s.router.panicked = false)
    (hpending : s.router.pending.get callId = some (.createTarget tx, entry))
    (hslot : s.router.targetIdToSlot.get targetId = some slot) (hlive : s.live slot = true) {r : Router}
    (hr : r = { s.router with
      pending := s.router.pending.remove callId
      toSessions := s.router.toSessions ++ [(slot, .setInitiator tx)] }) {handed : List (CallId × UInt16)} :
    Accounted ({ s with
      handed := handed
      assigned := s.assigned ++ [(tx, targetId)] }.afterRouter r) := by
  obtain ⟨task, htask, hstopped⟩ := live_iff.1 hlive
  have htasks : ({ s with handed := handed, assigned := s.assigned ++ [(tx, targetId)] }.afterRouter r).tasks = s.tasks :=
    tasks_afterRouter_of_spawned (by rw [hr])
  have hboxed : ∀ x, ({ s with handed := handed, assigned := s.assigned ++ [(tx, targetId)] }.afterRouter r).boxed x =
      s.boxed x ++ if x = slot then [tx] else [] := by
    intro x
    rw [@boxed_afterRouter _ r [(slot, .setInitiator tx)] (by rw [hr]) (by rw [hr])]
    refine congrArg (s.boxed x ++ ·) ?_
    by_cases hsame : x = slot
    · have hrecorded : live { s with handed := handed, assigned := s.assigned ++ [(tx, targetId)] } slot = true := hlive
      rw [hsame, if_pos hrecorded, if_pos rfl]
      simp [RouterToSession.initiators]
    · simp [hsame, Ne.symm hsame]
  generalize hs' : ({ s with handed := handed, assigned := s.assigned ++ [(tx, targetId)] }.afterRouter r) = s'
    at htasks hboxed ⊢
  have hrouter : s'.router = r := by rw [← hs', router_afterRouter]
  have hdoing : s'.doing = s.doing := by rw [← hs', doing_afterRouter]
  have hasked : s'.asked = s.asked := by rw [← hs', asked_afterRouter]
  have hassigned : s'.assigned = s.assigned ++ [(tx, targetId)] := by rw [← hs', assigned_afterRouter]
  have hrunning' : s'.router.panicked = false := by rw [hrouter, hr, hrunning]
  have hname : s'.name = s.name := by
    funext x
    rw [name, htasks, name]
  have hgot : ∀ x other, (s'.got x).count other = (s.got x).count other + if x = slot then [tx].count other else 0 := by
    intro x other
    cases hx : s.tasks.get x with
    | none =>
      have hne : x ≠ slot := by
        rintro rfl
        rw [htask] at hx
        cases hx
      rw [got, Table.part_of_get_eq_none (by rw [htasks, hx]), got, Table.part_of_get_eq_none hx, if_neg hne, Nat.add_zero]
    | some task =>
      rw [got_of_task (by rw [htasks, hx]), got_of_task hx, count_gotBy, count_gotBy, hboxed, List.count_append]
      split
      · omega
      · simp only [List.count_nil]
        omega
  constructor
  · rw [hrouter, hr]
    exact h.routed.of_same (Router.sameSlots_of_eq rfl rfl rfl rfl)
  · rw [hrouter, hr, hname]
    exact h.named
  · rw [hrunning']
    exact nofun
  · rw [hdoing]
    exact h.settles
  · rw [hrouter, hr]
    exact h.timed
  · rw [hrouter, hr, hassigned]
    exact fun targetId tx hget => List.mem_append_left _ (h.parked targetId tx hget)
  · intro x other hx sent hsent
    rw [hname] at hx
    rw [hassigned]
    have hcount := hgot x sent
    have hpos := List.count_pos_iff.2 hsent
    by_cases hold : 0 < (s.got x).count sent
    · exact List.mem_append_left _ (h.own x other hx sent (List.count_pos_iff.1 hold))
    · -- Only the new sender is new, and only its own target's slot has got it.
      split at hcount
      · rename_i hsame
        have hnew : sent = tx := List.mem_singleton.1 (List.count_pos_iff.1 (by omega))
        have hown : s.name slot = some targetId := h.named slot targetId ((h.routed.slot_iff _ _).1 hslot)
        rw [hsame, hown] at hx
        cases hx
        rw [hnew]
        exact List.mem_append_right _ (List.mem_singleton_self _)
      · omega
  · refine @Accounted.trade s s' h slot (fun x _ => by rw [htasks]) (fun x hx => ?_) fun other => ?_
    · rw [hboxed, if_neg hx, List.append_nil]
    · have hgone := (s.router.pending.gather_perm_part (fun _ entry => entry.1.initiators) callId).count_eq other
      have hpart : s.router.pending.part (fun _ entry => entry.1.initiators) callId = [tx] := Table.part_of_get hpending
      have hslotGot := hgot slot other
      rw [if_pos rfl] at hslotGot
      rw [hpart, List.count_append] at hgone
      rw [hslotGot, count_routerGot hrunning, count_routerGot hrunning', hdoing, hasked, hrouter, Router.count_got,
        Router.count_got, hr]
      dsimp only
      omega

/-- The sender of a call that is answered with a target waits for it, when the router does not know it yet. -/
theorem Accounted.parks (h : Accounted s) {callId : CallId} {tx : Sender} {targetId : TargetId}
    {entry : MethodId × Instant} {now : Instant} (hrunning : s.router.panicked = false)
    (hpending : s.router.pending.get callId = some (.createTarget tx, entry))
    (hfree : (s.router.pendingInitiators.get targetId).isSome = false) {handed : List (CallId × UInt16)} :
    Accounted ({ s with
      handed := handed
      assigned := s.assigned ++ [(tx, targetId)] }.afterRouter { s.router with
        pending := s.router.pending.remove callId
        pendingInitiatorTs := s.router.pendingInitiatorTs.set targetId now
        pendingInitiators := s.router.pendingInitiators.set targetId tx }) := by
  have hquiet : ∀ entry ∈ ([] : List (UInt16 × RouterToSession)), entry.2.initiators = [] :=
    fun _ hentry => absurd hentry List.not_mem_nil
  refine h.ofRouter ?_ ?_ (tasks_afterRouter_of_spawned rfl) (boxed_afterRouter_of_quiet rfl (List.append_nil _).symm hquiet)
    ?_ ?_ ?_ ?_ ?_ fun other => ?_
  · rw [router_afterRouter]
    exact h.routed.of_same (Router.sameSlots_of_eq rfl rfl rfl rfl)
  · rw [router_afterRouter]
    exact fun _ _ howner => howner
  · rw [router_afterRouter, hrunning]
    exact nofun
  · rw [doing_afterRouter]
    exact h.settles
  · intro x
    rw [router_afterRouter]
    simp only [Table.get_set]
    split
    · rfl
    · exact h.timed x
  · intro x other hget
    rw [assigned_afterRouter]
    rw [router_afterRouter, Table.get_set] at hget
    split at hget
    · rename_i hsame
      cases hget
      rw [hsame]
      exact List.mem_append_right _ (List.mem_singleton_self _)
    · exact List.mem_append_left _ (h.parked x other hget)
  · rw [assigned_afterRouter]
    exact List.subset_append_left _ _
  · have hgone := (s.router.pending.gather_perm_part (fun _ entry => entry.1.initiators) callId).count_eq other
    have hpart : s.router.pending.part (fun _ entry => entry.1.initiators) callId = [tx] := Table.part_of_get hpending
    have hset : ((s.router.pendingInitiators.set targetId tx).gather fun _ tx => [tx]).count other =
        [tx].count other + (s.router.pendingInitiators.gather fun _ tx => [tx]).count other := by
      have hnone : s.router.pendingInitiators.get targetId = none := Option.not_isSome_iff_eq_none.1 (by rw [hfree]; exact nofun)
      rw [Table.gather, Table.toList_set, Table.remove_of_get_eq_none hnone, List.flatMap_cons, List.count_append]
      rfl
    rw [hpart, List.count_append] at hgone
    rw [asked_afterRouter, count_routerGot hrunning, count_routerGot (by rw [router_afterRouter]; exact hrunning),
      doing_afterRouter, router_afterRouter, Router.count_got, Router.count_got]
    dsimp only
    omega

theorem Accounted.answers (h : Accounted s) {decoders : Decoders} {now : Instant} {resp : Response}
    (hdoing : s.doing 0 = .hands decoders now resp none) (hsafe : s.HandsSafely) {handed : List (CallId × UInt16)} :
    Accounted (({ s with
      handed := handed
      assigned := s.assigned ++ assigns s.router decoders resp }.afterRouter
      (s.router.handleRouterResponse decoders now resp.id resp)).does 0 .nothing) := by
  have hrunning : s.router.panicked = false := h.running (by rw [hdoing]; rfl)
  have hheld : (s.doing 0).initiators = [] := by rw [hdoing]; rfl
  have hafter : Accounted ({ s with
      handed := handed
      assigned := s.assigned ++ assigns s.router decoders resp }.afterRouter
      (s.router.handleRouterResponse decoders now resp.id resp)) := by
    have hsame := s.router.sameRegistry_handleRouterResponse decoders now resp.id resp
    obtain ⟨hgot, hmsgs⟩ | ⟨tx, targetId, method, since, hpending, hassigns, hcases⟩ :=
      s.router.handleRouterResponse_cases decoders now resp
    · have hrouted := h.routed.of_same
        (Router.sameSlots_of_eq hsame.targetIdToSlot hsame.sessions hsame.nextSlot hsame.panicked)
      have hassigned : Accounted { s with
          handed := handed
          assigned := s.assigned ++ assigns s.router decoders resp } := by
        refine h.ofRouter h.routed (fun _ _ howner => howner) rfl rfl h.halted h.settles h.timed ?_
          (List.subset_append_left _ _) fun _ => rfl
        exact fun targetId tx hget => List.mem_append_left _ (h.parked targetId tx hget)
      refine hassigned.serves hrunning hrouted (hsame.panicked.trans hrunning) ?_ hsame.spawned
        (hmsgs.trans (List.append_nil _).symm) (fun _ hentry => absurd hentry List.not_mem_nil) hgot
      intro slot targetId howner
      rw [Router.owner, hsame.sessions] at howner
      exact howner
    · have hentry : (tx, targetId) ∈ s.assigning := by
        simp only [assigning, hdoing, hassigns, List.mem_singleton]
      obtain ⟨hknown, hunknown⟩ := hsafe _ hentry
      rw [hassigns]
      obtain ⟨slot, hslot, hsession, hr⟩ | ⟨hnone, hr⟩ := hcases
      · exact h.handsOver hrunning hpending hslot (hknown slot (by rw [hslot]; exact List.mem_singleton_self _) hsession) hr
      · rw [hr]
        exact h.parks hrunning hpending (hunknown (by rw [hnone]; rfl))
  refine hafter.routerDoes ?_ trivial ?_
  · rw [router_afterRouter, (s.router.sameRegistry_handleRouterResponse _ _ _ _).panicked, hrunning]
  · rw [doing_afterRouter]
    exact hheld.symm

theorem askedAfter_of_call {msg : HandlerMessage} {call : RouterCall} (hcall : Router.callOf msg = some call) :
    s.askedAfter msg = s.asked ++ call.pending.initiators ∧
      pageAnswers [(call.tx, call.refusal)] = call.pending.initiators := by
  cases msg with
  | createPage params tx =>
    simp only [Router.callOf] at hcall
    split at hcall
    · cases hcall
      exact ⟨rfl, rfl⟩
    · cases hcall
  | command cmd =>
    cases hcall
    exact ⟨(List.append_nil _).symm, rfl⟩
  | _ => cases hcall

/-- The router begins to submit a call. -/
theorem Accounted.calls (h : Accounted s) {msg : HandlerMessage} {call : RouterCall} {now : Instant}
    (hidle : s.idle = true) (hcall : Router.callOf msg = some call) :
    Accounted ({ s with asked := s.askedAfter msg }.fetch 0 (.call call now)) := by
  obtain ⟨hnothing, hrunning⟩ := (Bool.and_eq_true _ _).mp hidle
  rw [Bool.not_eq_true'] at hrunning
  obtain ⟨hasked, hsettles⟩ := @askedAfter_of_call s msg call hcall
  have hheld : (s.doing 0).initiators = [] := Doing.initiators_of_isNothing hnothing
  have hdoing : ({ s with asked := s.askedAfter msg }.fetch 0 (.call call now)).doing 0 =
      .submits .fetched s.router.ids.fetchAdd.2 (.call call now) := by
    simp [fetch, does]
  refine h.ofRouter (h.routed.of_same (Router.sameSlots_of_eq rfl rfl rfl rfl)) (fun _ _ howner => howner) rfl rfl
    ?_ ?_ h.timed h.parked (List.Subset.refl _) fun tx => ?_
  · intro hpanicked
    have hpanicked : s.router.panicked = true := hpanicked
    rw [hrunning] at hpanicked
    cases hpanicked
  · rw [hdoing]
    exact hsettles
  · have hasked' : ({ s with asked := s.askedAfter msg }.fetch 0 (.call call now)).asked = s.askedAfter msg := rfl
    have hrunning' : ({ s with asked := s.askedAfter msg }.fetch 0 (.call call now)).router.panicked = false := hrunning
    have hgot : ({ s with asked := s.askedAfter msg }.fetch 0 (.call call now)).router.got = s.router.got := rfl
    rw [count_routerGot hrunning, count_routerGot hrunning', hheld, hdoing, hasked', hgot, hasked, List.count_append]
    simp only [Doing.initiators, List.count_nil]
    omega

/-- The router answers a message of the browser handle itself. -/
theorem Accounted.hears (h : Accounted s) {msg : HandlerMessage} {now : Instant} (hidle : s.idle = true)
    (hcall : Router.callOf msg = none) :
    Accounted ({ s with asked := s.askedAfter msg }.afterRouter (s.router.onBrowserMessage true msg now)) := by
  have hrunning : s.router.panicked = false := by
    rw [idle, Bool.and_eq_true, Bool.not_eq_true'] at hidle
    exact hidle.2
  obtain ⟨hsame, _, htoSessions⟩ := s.router.sameRegistry_onBrowserMessage hcall now
  have hmsgs := htoSessions.trans (List.append_nil _).symm
  have hquiet : ∀ entry ∈ ([] : List (UInt16 × RouterToSession)), entry.2.initiators = [] :=
    fun _ hentry => absurd hentry List.not_mem_nil
  have hrouted := h.routed.of_same
    (Router.sameSlots_of_eq hsame.targetIdToSlot hsame.sessions hsame.nextSlot hsame.panicked)
  have howner : ∀ slot targetId, (s.router.onBrowserMessage true msg now).owner slot = some targetId →
      s.router.owner slot = some targetId := by
    intro slot targetId howner
    rwa [Router.owner, hsame.sessions] at howner
  by_cases hpage : ∃ params tx, msg = .createPage params tx
  · obtain ⟨params, tx, rfl⟩ := hpage
    -- The url is not one that a page can be created with.
    have hr : s.router.onBrowserMessage true (.createPage params tx) now = s.router.send tx (.page (.error .notFound)) := by
      simp only [Router.callOf] at hcall
      split at hcall
      · cases hcall
      · rename_i hurl
        simp only [Router.onBrowserMessage, Router.createPage, hurl]
        rfl
    have hafter : ({ s with asked := s.askedAfter (.createPage params tx) }.afterRouter
        (s.router.onBrowserMessage true (.createPage params tx) now)).router.panicked = false := by
      rw [router_afterRouter, hsame.panicked, hrunning]
    refine h.ofRouter (by rwa [router_afterRouter]) (by rwa [router_afterRouter])
      (tasks_afterRouter_of_spawned hsame.spawned) (boxed_afterRouter_of_quiet hsame.spawned hmsgs hquiet) ?_ ?_ ?_ ?_ ?_
      fun other => ?_
    · rw [hafter]
      simp
    · rw [doing_afterRouter]
      exact h.settles
    · rw [router_afterRouter, hr]
      exact h.timed
    · rw [router_afterRouter, hr, assigned_afterRouter]
      exact h.parked
    · rw [assigned_afterRouter]
      exact List.Subset.refl _
    · rw [count_routerGot hrunning, count_routerGot hafter, router_afterRouter, doing_afterRouter, asked_afterRouter, hr,
        Router.count_got, Router.count_got]
      simp only [askedAfter, Router.send, pageAnswers_append, pageAnswers_page, List.count_append]
      omega
  · have hother : ∀ params tx, msg ≠ .createPage params tx := fun params tx heq => hpage ⟨params, tx, heq⟩
    have hasked : s.askedAfter msg = s.asked := by
      cases msg with
      | createPage params tx => exact absurd rfl (hother params tx)
      | _ => rfl
    have hsent := s.router.sameGot_onBrowserMessage hcall now hother
    rw [hasked]
    exact h.serves hrunning hrouted (hsame.panicked.trans hrunning) howner hsame.spawned hmsgs hquiet hsent

/-- A call that was submitted waits for its response, or its sender has its answer. -/
theorem Accounted.enters (h : Accounted s) {stage : Switchboard.Stage} {callId : CallId} {call : RouterCall}
    {now : Instant} (hdoing : s.doing 0 = .submits stage callId (.call call now)) (accepted : Bool)
    (hfree : accepted = true → waitingUnder s.router callId = []) :
    Accounted (s.finish 0 accepted callId (.call call now)) := by
  have hrunning : s.router.panicked = false := h.running (by rw [hdoing]; rfl)
  have hsettles := h.settles
  rw [hdoing] at hsettles
  have hsame := s.router.sameRegistry_enter accepted callId call now
  have hafter : (s.finish 0 accepted callId (.call call now)).doing 0 = .nothing := by simp [finish, does]
  have hrouter : (s.finish 0 accepted callId (.call call now)).router = s.router.enter accepted callId call now := rfl
  have hrunning' : (s.finish 0 accepted callId (.call call now)).router.panicked = false := by
    rw [hrouter, hsame.panicked, hrunning]
  have hparked : (s.router.enter accepted callId call now).pendingInitiators = s.router.pendingInitiators ∧
      (s.router.enter accepted callId call now).pendingInitiatorTs = s.router.pendingInitiatorTs := by
    cases accepted with
    | true => exact ⟨rfl, rfl⟩
    | false => exact ⟨rfl, rfl⟩
  have hcount : ∀ tx, (s.router.enter accepted callId call now).got.count tx =
      s.router.got.count tx + call.pending.initiators.count tx := by
    intro tx
    cases accepted with
    | true => exact s.router.count_enter callId call now (hfree rfl) tx
    | false => rw [Router.count_refused, hsettles]
  refine h.ofRouter ?_ ?_ rfl rfl ?_ ?_ ?_ ?_ (List.Subset.refl _) fun tx => ?_
  · exact h.routed.of_same (Router.sameSlots_of_eq hsame.targetIdToSlot hsame.sessions hsame.nextSlot hsame.panicked)
  · intro slot targetId howner
    rw [hrouter, Router.owner, hsame.sessions] at howner
    exact howner
  · rw [hrunning']
    simp
  · rw [hafter]
    trivial
  · rw [hrouter, hparked.1, hparked.2]
    exact h.timed
  · rw [hrouter, hparked.1]
    exact h.parked
  · have hasked : (s.finish 0 accepted callId (.call call now)).asked = s.asked := rfl
    rw [count_routerGot hrunning, count_routerGot hrunning', hafter, hrouter, hcount, hdoing, hasked]
    simp only [Doing.initiators, List.count_nil]
    omega

/-- A task takes an input and leaves the rest of its inbox. -/
theorem Accounted.takes (h : Accounted s) {slot : UInt16} {task : SessionTask} (htask : s.tasks.get slot = some task)
    {input : SessionInput} {rest : List RouterToSession} (hinfo : (task.step input).target.info = task.target.info)
    (hgot : ∀ tx, ((if (task.step input).stopped then [] else rest).flatMap RouterToSession.initiators).count tx +
      (if (task.step input).stopped then [] else (task.step input).target.initiator.toList).count tx +
      (pageAnswers (task.step input).target.replies).count tx = (s.gotBy slot task).count tx) :
    Accounted (s.afterInput slot task input rest) := by
  have hsame : (s.afterInput slot task input rest).router = { s.router with ids := s.router.ids } := rfl
  have hinboxes : (s.afterInput slot task input rest).inboxes =
      Function.update s.inboxes slot (if (task.step input).stopped then [] else rest) := rfl
  refine h.ofTask hsame htask rfl (fun x hx => ?_) rfl rfl rfl hinfo (List.perm_iff_count.2 fun tx => ?_)
  · rw [boxed, hinboxes, Function.update_of_ne hx, boxed]
  · rw [count_gotBy, ← hgot, boxed, hinboxes, Function.update_self]

/-- A task that holds no sender leaves its loop. -/
theorem Accounted.leaves (h : Accounted s) {slot : UInt16} {task : SessionTask} (htask : s.tasks.get slot = some task)
    (hstopped : task.stopped = false) (hempty : s.boxed slot = []) (hnone : ¬ task.target.initiator.isSome = true)
    {rest : List RouterToSession} : Accounted (s.afterInput slot task .shutdown rest) := by
  obtain ⟨replies, hstep⟩ := task.step_shutdown hstopped
  rw [Option.not_isSome_iff_eq_none] at hnone
  refine h.takes htask (by rw [hstep]) fun tx => ?_
  rw [count_gotBy, hempty, hstep, hnone]
  simp [hstopped]

theorem Accounted.receives (h : Accounted s) {slot : UInt16} {env : Env} {task : SessionTask} {msg : RouterToSession}
    {rest : List RouterToSession} (hidle : s.idleTask slot = some task) (hinbox : s.inboxes slot = msg :: rest)
    (hsafe : s.ReceivesSafely slot env) : Accounted (s.afterInput slot task (msg.toInput env) rest) := by
  obtain ⟨htask, hstopped, _⟩ := idleTask_eq_some hidle
  obtain ⟨hempty, hholds⟩ := hsafe
  have hholds := hholds task (by rw [hidle]; exact List.mem_singleton_self _)
  have hboxed : s.boxed slot = msg.initiators ++ rest.flatMap RouterToSession.initiators := by
    rw [boxed, hinbox, List.flatMap_cons]
  -- What a task that goes on does to its target.
  have hgoes : ∀ input, task.Continues (task.step input) → task.target.SameInitiators (task.step input).target →
      msg.initiators = [] → Accounted (s.afterInput slot task input rest) := by
    intro input hcontinues hsame hmsg
    refine h.takes htask hsame.info fun tx => ?_
    have hcount := hsame.initiators.count_eq tx
    rw [Target.initiators, Target.initiators, List.count_append, List.count_append] at hcount
    rw [count_gotBy, hboxed, hmsg, hcontinues.stopped, hstopped]
    simp only [Bool.false_eq_true, if_false, List.nil_append]
    omega
  cases msg with
  | response callId resp method =>
    rw [RouterToSession.toInput]
    refine hgoes _ (task.continues_step (by simp) (by simp)) ?_ rfl
    have hstep : task.step (.response env callId resp) = task.onResponse env callId resp := by
      simp only [SessionTask.step, hstopped, Bool.false_eq_true, if_false]
    rw [hstep]
    have htarget := task.onResponse_target env callId resp
    cases hstores : task.stores env callId resp with
    | none =>
      rw [hstores] at htarget
      exact htarget.1
    | some sessionId =>
      rw [hstores] at htarget
      have hset : task.target.SameInitiators (task.target.setSessionId sessionId) := .of_eq rfl rfl rfl
      exact hset.trans htarget.1
  | event event =>
    rw [RouterToSession.toInput]
    exact hgoes _ (task.continues_step (by simp) (by simp)) (task.rests_event env event).initiators rfl
  | setInitiator tx =>
    have hnone : task.target.initiator = none := by
      cases hinitiator : task.target.initiator with
      | none => rfl
      | some other =>
        have hlost := (hholds (by rw [hinitiator]; rfl)).2
        rw [hinbox] at hlost
        cases hlost
    have hstep : task.step (.setInitiator tx) = { task with target := task.target.setInitiator tx } := by
      simp only [SessionTask.step, hstopped, Bool.false_eq_true, if_false]
    refine h.takes htask (by rw [RouterToSession.toInput, hstep]; rfl) fun other => ?_
    rw [count_gotBy, hboxed, RouterToSession.toInput, hstep, hnone]
    simp only [Target.setInitiator, hstopped, Bool.false_eq_true, if_false, RouterToSession.initiators,
      Option.toList_some, Option.toList_none, List.count_append, List.count_nil]
    omega
  | shutdown =>
    have hexits : s.exits (.receive slot env) = true := by simp only [exits, hidle, hinbox]
    exact h.leaves htask hstopped (hempty hexits) (fun hsome => by rw [(hholds hsome).1] at hexits; cases hexits)

theorem idle_running (hidle : s.idle = true) : s.router.panicked = false := by
  rw [idle, Bool.and_eq_true, Bool.not_eq_true'] at hidle
  exact hidle.2

theorem idle_initiators (hidle : s.idle = true) : (s.doing 0).initiators = [] := by
  rw [idle, Bool.and_eq_true] at hidle
  exact Doing.initiators_of_isNothing hidle.1

/-- The router tells a task something that brings no sender. -/
theorem Accounted.told (h : Accounted s) (hrunning : s.router.panicked = false) (slot : Option UInt16)
    (msg : RouterToSession) (hmsg : msg.initiators = []) : Accounted (s.afterRouter (s.router.toSlot slot msg)) := by
  rw [Router.toSlot_eq]
  exact h.serves hrunning (h.routed.of_same (Router.sameSlots_of_eq rfl rfl rfl rfl)) hrunning
    (fun _ _ howner => howner) rfl rfl (quiet_addressed hmsg) (.of_pending (.refl _) rfl rfl)

/-- A party goes on with what it submits. -/
theorem Accounted.proceeds (h : Accounted s) (hstaffed : s.Staffed) {party : UInt16}
    {stage stage' : Switchboard.Stage} {callId : CallId} {work : Work} {ids : CallIdAllocator}
    (hdoing : s.doing party = .submits stage callId work) (hrouter : s'.router = { s.router with ids := ids })
    (htasks : s'.tasks = s.tasks) (hinboxes : s'.inboxes = s.inboxes)
    (hafter : s'.doing = Function.update s.doing party (.submits stage' callId work)) (hasked : s'.asked = s.asked)
    (hassigned : s'.assigned = s.assigned) : Accounted s' := by
  have hboxed : s'.boxed = s.boxed := by
    funext x
    rw [boxed, hinboxes, boxed]
  obtain ⟨rfl, call, now, rfl⟩ | ⟨_, _, _, hparty, _⟩ := hstaffed.submits hdoing
  · have hrunning : s.router.panicked = false := h.running (by rw [hdoing]; rfl)
    have hsettles := h.settles
    rw [hdoing] at hsettles
    have hgoes : s'.doing 0 = .submits stage' callId (.call call now) := by rw [hafter, Function.update_self]
    refine h.of_same hrouter htasks hboxed ?_ (by rw [hgoes]; exact hsettles) (by rw [hgoes, hdoing]; rfl) hasked hassigned
    rw [hrunning]
    exact nofun
  · have hsame : s'.doing 0 = s.doing 0 := by rw [hafter, Function.update_of_ne hparty.symm]
    exact h.of_same hrouter htasks hboxed (hsame ▸ h.halted) (hsame ▸ h.settles) (by rw [hsame]) hasked hassigned

theorem Accounted.finishes (h : Accounted s) (hstaffed : s.Staffed) {party : UInt16} {stage : Switchboard.Stage}
    {callId : CallId} {work : Work} (hdoing : s.doing party = .submits stage callId work) (accepted : Bool)
    (hfree : party = 0 → accepted = true → waitingUnder s.router callId = []) :
    Accounted (s.finish party accepted callId work) := by
  obtain ⟨rfl, call, now, rfl⟩ | ⟨event, now, task, hparty, rfl, _, htask, hstopped⟩ := hstaffed.submits hdoing
  · exact h.enters hdoing accepted (hfree rfl)
  · have hentered : Accounted { s with
        entered := if accepted then s.entered ++ [(callId, party)] else s.entered } :=
      @of_same s _ h _ rfl rfl rfl h.halted h.settles rfl rfl rfl
    simp only [finish, htask]
    exact (hentered.rests htask hstopped (task.rests_onTargetEvent accepted callId now event)).taskDoes hparty _

/-- The router reads an event. -/
theorem Accounted.event (h : Accounted s) (hstaffed : s.Staffed) {event : CdpEventMessage} (hidle : s.idle = true)
    (hsafe : s.HandsOver (.event event)) : Accounted (s.afterRouter (s.router.onEvent event)) := by
  have hrunning := idle_running hidle
  obtain ⟨slot, msg, heq, _, hmsg⟩ | ⟨info, rfl, heq⟩ | ⟨ev, _, heq⟩ | heq := s.router.onEvent_cases event
  · rw [heq]
    exact h.told hrunning slot msg (initiators_of_ne hmsg)
  · rw [heq]
    exact h.created hstaffed hidle hsafe
  · obtain ⟨sessions, sessionIdToSlot, hattached, howner⟩ := s.router.onAttachedToTarget_same ev
    rw [heq]
    refine h.serves hrunning (h.routed.of_same (s.router.sameSlots_onAttachedToTarget ev)) (by rwa [hattached]) ?_
      (by rw [hattached]) (by rw [hattached]; exact (List.append_nil _).symm)
      (fun _ hentry => absurd hentry List.not_mem_nil) ?_
    · intro slot targetId hslot
      rwa [hattached, Router.owner, howner] at hslot
    · rw [hattached]
      exact .of_pending (.refl _) rfl rfl
  · rw [heq]
    exact h.serves hrunning h.routed hrunning (fun _ _ hslot => hslot) rfl (List.append_nil _).symm
      (fun _ hentry => absurd hentry List.not_mem_nil) (.refl _)

/-- The router hears of the session of a task. -/
theorem Accounted.attached (h : Accounted s) {slot : UInt16} {sessionId : String} {rest : List SessionToRouter} :
    Accounted { s with lifecycle := rest, router := s.router.onLifecycle (.sessionAttached slot sessionId) } := by
  have hsame := s.router.sameSlots_sessionAttached slot sessionId
  refine h.ofRouter (h.routed.of_same hsame) (fun x targetId howner => ?_) rfl rfl h.halted h.settles h.timed h.parked
    (List.Subset.refl _) fun tx => rfl
  rw [← hsame.owner x]
  exact howner

/-- The router forgets a task that has left its loop. -/
theorem Accounted.forgets (h : Accounted s) {slot : UInt16} {rest : List SessionToRouter} (hidle : s.idle = true) :
    Accounted ({ s with lifecycle := rest, router := s.router.forget slot }.does 0 (.drops slot)) := by
  obtain ⟨sessions, targetIdToSlot, sessionIdToSlot, heq, hsessions⟩ := s.router.forget_same slot
  refine Accounted.routerDoes ?_ (by rw [heq]; exact idle_running hidle) trivial (idle_initiators hidle).symm
  have hremoved := h.routed.removeSession slot
  refine h.ofRouter ⟨hremoved.slot_iff, hremoved.givenOut⟩ (fun x targetId howner => ?_) rfl rfl
    (by rw [heq]; exact h.halted) h.settles (by rw [heq]; exact h.timed) (by rw [heq]; exact h.parked)
    (List.Subset.refl _) fun tx => by rw [heq]; rfl
  rw [heq, Router.owner, hsessions] at howner
  split at howner
  · cases howner
  · exact howner

/-- The router gives up the calls of its own that are overdue. -/
theorem Accounted.evicts (h : Accounted s) {now : Instant} {expired : List (CallId × UInt16)} (hidle : s.idle = true) :
    Accounted { s with
      router := s.router.evictRouterPending now s.router.config.requestTimeout
      expired := expired } := by
  have hrunning := idle_running hidle
  have hgot := s.router.sameGot_evictRouterPending now s.router.config.requestTimeout
  have hsame := (s.router.sameRegistry_evictRouterPending now s.router.config.requestTimeout).1
  have hrunning' := hsame.panicked.trans hrunning
  have hslots := Router.sameSlots_of_eq hsame.targetIdToSlot hsame.sessions hsame.nextSlot hsame.panicked
  refine h.ofRouter (h.routed.of_same hslots) ?_ rfl rfl ?_ h.settles (hgot.timed h.timed)
    (fun targetId tx hget => h.parked targetId tx (hgot.parked targetId tx hget)) (List.Subset.refl _) fun tx => ?_
  · intro slot targetId howner
    rwa [Router.owner, hsame.sessions] at howner
  · rw [hrunning']
    simp
  · rw [count_routerGot hrunning, count_routerGot hrunning', hgot.got.count_eq tx]

theorem Accounted.happens (h : Accounted s) (hstaffed : s.Staffed) (hhappens : Happens s move s')
    (hsafe : s.HandsOver move) : Accounted s' := by
  cases hhappens with
  | nothing => exact h
  | calls hidle hcall => exact h.calls hidle hcall
  | hears hidle hcall => exact h.hears hidle hcall
  | reads hidle =>
    refine Accounted.routerDoes ?_ (idle_running hidle) trivial (idle_initiators hidle).symm
    exact @of_same s _ h _ rfl rfl rfl h.halted h.settles rfl rfl rfl
  | @handsOn decoders now resp slot hdoing =>
    have hrunning : s.router.panicked = false := h.running (by rw [hdoing]; rfl)
    have hsame := s.router.sameRegistry_toSlot (some slot) (.response resp.id resp "")
    have hafter := h.told hrunning (some slot) (.response resp.id resp "") rfl
    refine hafter.routerDoes (by rw [router_afterRouter, hsame.panicked, hrunning]) trivial ?_
    rw [doing_afterRouter, hdoing]
    rfl
  | answers hdoing => exact h.answers hdoing hsafe
  | @event event hidle => exact h.event hstaffed hidle hsafe
  | attached hidle hlifecycle => exact h.attached
  | forgets hidle hlifecycle hentry => exact h.forgets hidle
  | ignores hidle hlifecycle hentry => exact @of_same s _ h _ rfl rfl rfl h.halted h.settles rfl rfl rfl
  | dropsRoutes hdoing =>
    have hrunning : s.router.panicked = false := h.running (by rw [hdoing]; rfl)
    refine Accounted.routerDoes ?_ hrunning trivial ?_
    · exact @of_same s _ h _ rfl rfl rfl h.halted h.settles rfl rfl rfl
    · show [] = (s.doing 0).initiators
      rw [hdoing]
      rfl
  | evicts hidle => exact h.evicts hidle
  | @routes party accepted callId work hdoing => exact h.proceeds hstaffed hdoing rfl rfl rfl rfl rfl rfl
  | @writes party callId work hdoing => exact h.proceeds hstaffed hdoing rfl rfl rfl rfl rfl rfl
  | refuses hdoing => exact h.finishes hstaffed hdoing false nofun
  | @enters party accepted callId work hdoing =>
    refine h.finishes hstaffed hdoing true fun hparty _ => ?_
    subst hparty
    exact hsafe rfl callId (by simp [entering, hdoing])
  | @fetches slot env now task event hidle hevent hcalls =>
    obtain ⟨htask, hstopped, _⟩ := idleTask_eq_some hidle
    have hadvanced := h.rests htask hstopped (task.rests_advanced env now)
    refine Accounted.taskDoes ?_ (hstaffed.slots _ _ htask).2.1 _
    exact @of_same _ _ hadvanced _ rfl rfl rfl hadvanced.halted hadvanced.settles rfl rfl rfl
  | @turns slot env now task event hidle hevent hcalls =>
    obtain ⟨htask, hstopped, _⟩ := idleTask_eq_some hidle
    have hadvanced := h.rests htask hstopped (task.rests_advanced env now)
    exact hadvanced.rests (Table.get_set_self _ _ _) hstopped (SessionTask.rests_onTargetEvent _ _ _ _ _)
  | @rests slot env now task hidle hevent =>
    obtain ⟨htask, hstopped, _⟩ := idleTask_eq_some hidle
    exact h.rests htask hstopped (task.rests_advanced env now)
  | receives hidle hinbox => exact h.receives hidle hinbox hsafe
  | @orphaned slot env task hidle hinbox hpanicked =>
    obtain ⟨htask, hstopped, _⟩ := idleTask_eq_some hidle
    have hexits : s.exits (.receive slot env) = true := by simp only [exits, hidle, hinbox, hpanicked]
    refine h.leaves htask hstopped (hsafe.1 hexits) fun hsome => ?_
    have hstays := (hsafe.2 task (by rw [hidle]; exact List.mem_singleton_self _) hsome).1
    rw [hexits] at hstays
    cases hstays
  | choosesStale hidle => exact h.taskDoes (hstaffed.slots _ _ (idleTask_eq_some hidle).1).2.1 _
  | @takesRoute slot callId rest hdoing =>
    refine Accounted.taskDoes ?_ (hstaffed.ne_zero (by rw [hdoing]; rfl)) _
    exact @of_same s _ h _ rfl rfl rfl h.halted h.settles rfl rfl rfl
  | @timesOut slot callId rest task hdoing htask =>
    have hslot := (hstaffed.slots slot task htask).2.1
    obtain ⟨other, hother, hstopped⟩ := live_iff.1 (hstaffed.busy slot hslot (by rw [hdoing]; rfl))
    obtain rfl : other = task := Option.some.inj (hother.symm.trans htask)
    exact (h.rests htask hstopped (SessionTask.rests_timeOut _ _)).taskDoes hslot _
  | @pageMessage slot msg task htask =>
    cases hstopped : task.stopped with
    | false => exact h.rests htask hstopped (SessionTask.rests_pageMessage _ _)
    | true =>
      have hstep : task.step (.pageMessage msg) = task := by simp only [SessionTask.step, hstopped, if_true]
      have hsame : (s.afterTask slot task task).router = { s.router with ids := s.router.ids } := rfl
      rw [hstep]
      exact h.ofTask hsame htask rfl (fun _ _ => rfl) rfl rfl rfl rfl (.refl _)
  | drainsPage hidle =>
    obtain ⟨htask, hstopped, _⟩ := idleTask_eq_some hidle
    exact h.rests htask hstopped (SessionTask.rests_drainPage _)

/-! ### Runs -/

theorem accounted_start (config : HandlerConfig) (context : BrowserContext) (bootMethod : MethodId)
    (nextCallId : Nat) (now : Instant) : Accounted (start config context bootMethod nextCallId now) where
  routed := Router.routed_new config context ⟨nextCallId - 1⟩ bootMethod nextCallId now
  named := nofun
  halted := nofun
  settles := trivial
  timed := fun _ => rfl
  parked := nofun
  own := nofun
  ledger := .refl _

/-- As long as no move meets what would lose a sender, each sender that a page was asked for with is held in one place or has been answered once, and comes to the task of its own target only, whatever the parties do and in whatever order. -/
theorem initiated_of_run (config : HandlerConfig) (context : BrowserContext) (bootMethod : MethodId)
    (nextCallId : Nat) (now : Instant) {moves : List Move}
    (hsafe : Run.Allowed step HandsOver (start config context bootMethod nextCallId now) moves) :
    Run.Always step Initiated (start config context bootMethod nextCallId now) moves := by
  have hkept := Run.always_of_allowed
    (fun s move (h : s.Staffed ∧ Accounted s) hmove =>
      ⟨h.1.step move, h.2.happens h.1 (s.happens move) hmove⟩)
    ⟨staffed_start config context bootMethod nextCallId now,
      accounted_start config context bootMethod nextCallId now⟩ hsafe
  exact hkept.mono fun s h => h.2.initiated

/-- Two pages are asked for, one of them with a url that none can be created with, and the sender of the other comes to the task of its target. -/
def askedTwice : List Move :=
  [.browser (.createPage ⟨"https://example.org", none, .object []⟩ ⟨7⟩) 0, .proceed 0 true, .proceed 0 true,
    .proceed 0 true, .browser (.createPage ⟨"example", none, .object []⟩ ⟨8⟩) 0,
    .response Handler.createdEnv.decoders 0 (Handler.plainResponse 2), .hand,
    .event ⟨.targetTargetCreated ⟨Handler.plainTarget, "page", none, none⟩, none⟩,
    .receive 1 Handler.createdEnv]

theorem initiated_of_run_askedTwice :
    let start := start Handler.plainConfig ⟨none⟩ "Target.setDiscoverTargets" 2 0
    (Run.final step start askedTwice).held = [⟨7⟩] ∧ (Run.final step start askedTwice).answered = [⟨8⟩] ∧
      Run.Always step Initiated start askedTwice := by
  have hheld : (Run.final step (start Handler.plainConfig ⟨none⟩ "Target.setDiscoverTargets" 2 0)
      askedTwice).held = [⟨7⟩] := by
    decide +kernel
  have hanswered : (Run.final step (start Handler.plainConfig ⟨none⟩ "Target.setDiscoverTargets" 2 0)
      askedTwice).answered = [⟨8⟩] := by
    decide +kernel
  exact ⟨hheld, hanswered, initiated_of_run Handler.plainConfig ⟨none⟩ "Target.setDiscoverTargets" 2 0
    (by decide +kernel)⟩

/-- A page is asked for, and its target is destroyed before the page is there. -/
def askedInVain : List Move :=
  [.browser (.createPage ⟨"https://example.org", none, .object []⟩ ⟨7⟩) 0, .proceed 0 true, .proceed 0 true,
    .proceed 0 true, .response Handler.createdEnv.decoders 0 (Handler.plainResponse 2), .hand,
    .event ⟨.targetTargetCreated ⟨Handler.plainTarget, "page", none, none⟩, none⟩,
    .event ⟨.targetTargetDestroyed Handler.plainTarget, none⟩,
    .receive 1 Handler.createdEnv, .receive 1 Handler.createdEnv]

/-- The sender is gone with the task, and has no answer. -/
theorem not_initiated_askedInVain :
    ¬ Run.Always step Initiated (start Handler.plainConfig ⟨none⟩ "Target.setDiscoverTargets" 2 0)
      askedInVain := by
  intro halways
  have hgone : (Run.final step (start Handler.plainConfig ⟨none⟩ "Target.setDiscoverTargets" 2 0)
      askedInVain).held ++ (Run.final step (start Handler.plainConfig ⟨none⟩ "Target.setDiscoverTargets" 2 0)
      askedInVain).answered = [] := by
    decide +kernel
  have hasked : (Run.final step (start Handler.plainConfig ⟨none⟩ "Target.setDiscoverTargets" 2 0)
      askedInVain).asked = [⟨7⟩] := by
    decide +kernel
  have honce := halways.last.once
  rw [hgone, hasked] at honce
  exact absurd honce.eq_nil (List.cons_ne_nil _ _)

end System

end SpiderChrome
