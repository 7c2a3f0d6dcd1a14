import SpiderChrome.Parallel.Moves

/-!
# The calls of the parallel handler

The router and the tasks make their calls over one connection, which the router reads. `board` reads this off as a switchboard: the router is the party at the line, the routes are those of the allocator, the boxes are the inboxes of the tasks, and a call waits while it is in the table of its party. What a party does is then a step of the switchboard or does not touch it, whatever the other parties are in the middle of, and so its law holds of every run.
-/

namespace SpiderChrome

/-! ### The switchboard -/

namespace Doing

def submission : Doing → Option (Switchboard.Stage × CallId)
  | submits stage callId _ => some (stage, callId)
  | _ => none

def givesUp : Doing → Option CallId
  | timesOut callId _ => some callId
  | _ => none

def hand : Doing → Option (CallId × Option UInt16)
  | hands _ _ resp route => some (resp.id, route)
  | _ => none

/-- The calls that are still to be evicted. -/
def stale : Doing → List CallId
  | evicts stale => stale
  | timesOut _ stale => stale
  | _ => []

theorem of_isNothing {doing : Doing} (h : doing.isNothing = true) : doing = nothing := by
  cases doing with
  | nothing => rfl
  | _ => cases h

@[simp] theorem submission_evicting (stale : List CallId) : (evicting stale).submission = none := by
  cases stale <;> rfl

@[simp] theorem givesUp_evicting (stale : List CallId) : (evicting stale).givesUp = none := by
  cases stale <;> rfl

@[simp] theorem hand_evicting (stale : List CallId) : (evicting stale).hand = none := by
  cases stale <;> rfl

@[simp] theorem stale_evicting (stale : List CallId) : (evicting stale).stale = stale := by
  cases stale <;> rfl

end Doing

/-- The call that a message brings the answer to. -/
def RouterToSession.answered : RouterToSession → Option CallId
  | response callId _ _ => some callId
  | _ => none

/-! ### What a task waits for -/

namespace SessionTask

variable (task : SessionTask)

/-- A call waits when the writer has taken it. -/
theorem contains_onTargetEvent (accepted : Bool) (callId : CallId) (now : Instant) (event : TargetEvent) :
    (task.onTargetEvent accepted callId now event).pending.contains =
      if accepted && event.calls then Function.update task.pending.contains callId true
      else task.pending.contains := by
  cases event with
  | request req =>
    cases accepted with
    | true => exact Table.contains_set _ _ _
    | false => rfl
  | command msg =>
    simp only [onTargetEvent]
    cases accepted with
    | true =>
      split
      · exact Table.contains_set _ _ _
      · exact Table.contains_set _ _ _
    | false =>
      split
      · rfl
      · rfl
  | navigationRequest navId req =>
    cases accepted with
    | true => exact Table.contains_set _ _ _
    | false => rfl
  | navigationResult res =>
    obtain ⟨_, _, heq⟩ := task.onNavigationLifecycleCompleted_same res
    simp only [onTargetEvent, heq, TargetEvent.calls, Bool.and_false, Bool.false_eq_true, if_false]
  | bytesConsumed bytes => simp [onTargetEvent, TargetEvent.calls]

theorem pending_onResponse (env : Env) (callId : CallId) (resp : Response) :
    (task.onResponse env callId resp).pending = task.pending.remove callId := by
  obtain ⟨_, _, heq⟩ := task.onResponse_same env callId resp
  rw [heq]
  split
  · simp only [storeSessionId_eq]
    split
    · rfl
    · rfl
  · rfl

theorem pending_timeOut (callId : CallId) : (task.timeOut callId).pending = task.pending.remove callId := by
  obtain ⟨_, _, heq⟩ := task.timeOut_same callId
  rw [heq]

theorem mem_pending_of_stale {now : Instant} {callId : CallId} (h : callId ∈ task.stale now) :
    task.pending.contains callId = true := by
  unfold stale at h
  split at h
  · exact absurd h List.not_mem_nil
  · obtain ⟨entry, hentry, rfl⟩ := List.mem_map.1 h
    rw [Table.contains, (Table.mem_toList _ _ _).1 (List.mem_filter.1 hentry).1]
    rfl

/-- What the target and its page do does not change what the task waits for. -/
theorem pending_step {input : SessionInput}
    (hinput : match input with
      | .event _ _ | .setInitiator _ | .pageMessage _ | .drainPage => True
      | _ => False) : (task.step input).pending = task.pending := by
  unfold step
  split
  · rfl
  · cases input with
    | event env event => rfl
    | setInitiator tx => rfl
    | pageMessage msg => rfl
    | drainPage =>
      simp only [drainPage]
      split
      · rfl
      · rfl
    | _ => exact absurd hinput id

end SessionTask

theorem Router.snd_of_mem_addressed {r : Router} {slot : Option UInt16} {msg : RouterToSession}
    {entry : UInt16 × RouterToSession} (h : entry ∈ r.addressed slot msg) : entry.2 = msg := by
  unfold addressed at h
  split at h
  · split at h
    · rw [List.mem_singleton.1 h]
    · exact absurd h List.not_mem_nil
  · exact absurd h List.not_mem_nil

namespace System

variable {s s' : System} {move : Move} {first : Nat}

def waits (s : System) (party : UInt16) (callId : CallId) : Bool :=
  if party = 0 then s.router.pending.contains callId
  else match s.tasks.get party with
    | some task => task.pending.contains callId
    | none => false

/-- What the handler is as a switchboard. -/
def board (s : System) : Switchboard UInt16 CallId where
  taken := s.taken
  written := s.written
  entered := s.entered
  read := s.read
  handed := s.handed
  expired := s.expired
  submits := Doing.submission ∘ s.doing
  stale := Doing.stale ∘ s.doing
  givesUp := Doing.givesUp ∘ s.doing
  waits := s.waits
  route := s.router.ids.routing.get
  hand := (s.doing 0).hand
  box slot := (s.inboxes slot).filterMap RouterToSession.answered
  alive slot := decide (slot = 0) || s.live slot

/-! ### What the parts of a move are on the switchboard -/

theorem board_does (s : System) (party : UInt16) (doing : Doing) :
    (s.does party doing).board =
      { s.board with
        submits := Function.update s.board.submits party doing.submission
        stale := Function.update s.board.stale party doing.stale
        givesUp := Function.update s.board.givesUp party doing.givesUp
        hand := if party = 0 then doing.hand else s.board.hand } := by
  have hhand : (Function.update s.doing party doing 0).hand =
      if party = 0 then doing.hand else s.board.hand := by
    by_cases hparty : party = 0
    · rw [if_pos hparty, hparty, Function.update_self]
    · rw [if_neg hparty, Function.update_of_ne (Ne.symm hparty)]
      rfl
  unfold board does
  dsimp only
  rw [Function.comp_update, Function.comp_update, Function.comp_update, hhand]
  rfl

theorem update_part {Part : Type} (part : Doing → Part) {party : UInt16} {old doing : Doing}
    (hdoing : s.doing party = old) (hsame : part doing = part old) :
    Function.update (part ∘ s.doing) party (part doing) = part ∘ s.doing :=
  Function.update_eq_self_iff.2 (by rw [Function.comp_apply, hdoing, hsame])

theorem hand_of_same {party : UInt16} {old doing : Doing} (hdoing : s.doing party = old)
    (hhand : doing.hand = old.hand) : (if party = 0 then doing.hand else s.board.hand) = s.board.hand := by
  split
  · rename_i hparty
    subst hparty
    rw [hhand, ← hdoing]
    rfl
  · rfl

/-- A party goes on with a submission. -/
theorem board_does_submits {party : UInt16} (doing : Doing) {old : Doing} (hdoing : s.doing party = old)
    (hstale : doing.stale = old.stale) (hgivesUp : doing.givesUp = old.givesUp)
    (hhand : doing.hand = old.hand) :
    (s.does party doing).board =
      { s.board with submits := Function.update s.board.submits party doing.submission } := by
  have hchosen : Function.update s.board.stale party doing.stale = s.board.stale :=
    update_part Doing.stale hdoing hstale
  have hgives : Function.update s.board.givesUp party doing.givesUp = s.board.givesUp :=
    update_part Doing.givesUp hdoing hgivesUp
  rw [board_does, hchosen, hgives, hand_of_same hdoing hhand]

/-- A party goes on to something that the others do not notice. -/
theorem board_does_of_same {party : UInt16} (doing : Doing) {old : Doing} (hdoing : s.doing party = old)
    (hsubmission : doing.submission = old.submission) (hstale : doing.stale = old.stale)
    (hgivesUp : doing.givesUp = old.givesUp) (hhand : doing.hand = old.hand) :
    (s.does party doing).board = s.board := by
  have hsubmits : Function.update s.board.submits party doing.submission = s.board.submits :=
    update_part Doing.submission hdoing hsubmission
  rw [board_does_submits doing hdoing hstale hgivesUp hhand, hsubmits]

/-- A party goes on with an eviction. -/
theorem board_does_evicts {party : UInt16} (doing : Doing) {old : Doing} (hdoing : s.doing party = old)
    (hsubmission : doing.submission = old.submission) (hhand : doing.hand = old.hand) :
    (s.does party doing).board =
      { s.board with
        stale := Function.update s.board.stale party doing.stale
        givesUp := Function.update s.board.givesUp party doing.givesUp } := by
  have hsubmits : Function.update s.board.submits party doing.submission = s.board.submits :=
    update_part Doing.submission hdoing hsubmission
  rw [board_does, hsubmits, hand_of_same hdoing hhand]

/-- The router takes a response, or has handed it on. -/
theorem board_does_hand (doing : Doing) {old : Doing} (hdoing : s.doing 0 = old)
    (hsubmission : doing.submission = old.submission) (hstale : doing.stale = old.stale)
    (hgivesUp : doing.givesUp = old.givesUp) : (s.does 0 doing).board = { s.board with hand := doing.hand } := by
  have hsubmits : Function.update s.board.submits 0 doing.submission = s.board.submits :=
    update_part Doing.submission hdoing hsubmission
  have hchosen : Function.update s.board.stale 0 doing.stale = s.board.stale :=
    update_part Doing.stale hdoing hstale
  have hgives : Function.update s.board.givesUp 0 doing.givesUp = s.board.givesUp :=
    update_part Doing.givesUp hdoing hgivesUp
  rw [board_does, hsubmits, hchosen, hgives, if_pos rfl]

theorem waits_afterTask {slot : UInt16} (hslot : slot ≠ 0) (task task' : SessionTask) :
    (s.afterTask slot task task').waits = Function.update s.waits slot task'.pending.contains := by
  funext party callId
  by_cases hsame : party = slot
  · subst hsame
    simp [waits, afterTask, hslot]
  · rw [Function.update_of_ne hsame]
    simp [waits, afterTask, Table.get_set_of_ne _ _ hsame]

theorem board_afterTask {slot : UInt16} {task task' : SessionTask} (hslot : slot ≠ 0)
    (htask : s.tasks.get slot = some task) (hstopped : task'.stopped = task.stopped) :
    (s.afterTask slot task task').board =
      { s.board with waits := Function.update s.board.waits slot task'.pending.contains } := by
  have hlive : (s.afterTask slot task task').live = s.live := by
    funext x
    rw [live_afterTask]
    split
    · rename_i hsame
      rw [hsame, live, htask, hstopped]
    · rfl
  unfold board
  rw [waits_afterTask hslot, hlive]
  rfl

theorem waits_of_task {slot : UInt16} {task : SessionTask} (hslot : slot ≠ 0)
    (htask : s.tasks.get slot = some task) : s.board.waits slot = task.pending.contains := by
  funext callId
  simp [board, waits, hslot, htask]

/-- A task that goes on and waits for the same calls. -/
theorem board_afterTask_of_same {slot : UInt16} {task task' : SessionTask} (hslot : slot ≠ 0)
    (htask : s.tasks.get slot = some task) (hstopped : task'.stopped = task.stopped)
    (hpending : task'.pending.contains = task.pending.contains) : (s.afterTask slot task task').board = s.board := by
  have hwaits : Function.update s.board.waits slot task'.pending.contains = s.board.waits := by
    rw [hpending, ← waits_of_task hslot htask]
    exact Function.update_eq_self _ _
  rw [board_afterTask hslot htask hstopped, hwaits]

theorem waits_router (s : System) (r : Router) :
    ({ s with router := r } : System).waits = Function.update s.waits 0 r.pending.contains := by
  funext party callId
  by_cases hparty : party = 0
  · simp [waits, hparty]
  · simp [waits, hparty]

/-- Messages that bring no response. -/
theorem filterMap_delivered {msgs : List (UInt16 × RouterToSession)}
    (hquiet : ∀ entry ∈ msgs, entry.2.answered = none) (slot : UInt16) :
    (s.delivered msgs slot).filterMap RouterToSession.answered = [] := by
  refine List.filterMap_eq_nil_iff.2 fun msg hmsg => ?_
  unfold delivered at hmsg
  split at hmsg
  · obtain ⟨entry, hentry, rfl⟩ := List.mem_map.1 hmsg
    exact hquiet entry (List.mem_filter.1 hentry).1
  · exact absurd hmsg List.not_mem_nil

/-- The router comes to another state, and spawns no task. -/
theorem board_afterRouter {r : Router} {msgs : List (UInt16 × RouterToSession)}
    (hspawned : r.spawned = s.router.spawned) (hmsgs : r.toSessions = s.router.toSessions ++ msgs) :
    (s.afterRouter r).board =
      { s.board with
        waits := Function.update s.board.waits 0 r.pending.contains
        route := r.ids.routing.get
        box := fun slot => s.board.box slot ++ (s.delivered msgs slot).filterMap RouterToSession.answered } := by
  rw [afterRouter_eq hmsgs (hspawned.trans (List.append_nil _).symm)]
  refine Switchboard.ext rfl rfl rfl rfl rfl rfl rfl rfl rfl ?_ rfl rfl ?_ rfl
  · exact s.waits_router r
  · funext slot
    exact List.filterMap_append

/-- A step of the router after which the same calls wait on the same routes, and that brings no task a response. -/
theorem board_afterRouter_of_same {r : Router} {msgs : List (UInt16 × RouterToSession)}
    (hspawned : r.spawned = s.router.spawned) (hids : r.ids = s.router.ids)
    (hpending : r.pending = s.router.pending) (hmsgs : r.toSessions = s.router.toSessions ++ msgs) (hquiet : ∀ entry ∈ msgs, entry.2.answered = none) :
    (s.afterRouter r).board = s.board := by
  have hwaits : Function.update s.board.waits 0 r.pending.contains = s.board.waits := by
    rw [hpending]
    exact Function.update_eq_self 0 s.board.waits
  have hbox : (fun slot => s.board.box slot ++ (s.delivered msgs slot).filterMap RouterToSession.answered) =
      s.board.box := by
    funext slot
    rw [filterMap_delivered hquiet, List.append_nil]
  rw [board_afterRouter hspawned hmsgs, hwaits, hbox, hids]
  rfl

/-! ### Call ids -/

/-- Slots are given out in order, and an id is taken from the allocator or none is. -/
structure Numbers (s s' : System) : Prop where
  nextSlot : s.router.nextSlot ≤ s'.router.nextSlot
  taken : (s'.taken = s.taken ∧ s'.router.ids.next = s.router.ids.next) ∨
    ∃ party, party < s.router.nextSlot ∧ s'.taken = s.taken ++ [(⟨s.router.ids.next⟩, party)] ∧
      s'.router.ids.next = wrappingSucc s.router.ids.next

theorem Numbers.quiet (hslot : s'.router.nextSlot = s.router.nextSlot) (htaken : s'.taken = s.taken)
    (hnext : s'.router.ids.next = s.router.ids.next) : Numbers s s' where
  nextSlot := hslot ▸ UInt16.le_refl _
  taken := .inl ⟨htaken, hnext⟩

theorem Numbers.same {r : Router} (hsame : s.router.SameRegistry r) (hrouter : s'.router = r)
    (htaken : s'.taken = s.taken) : Numbers s s' :=
  .quiet (hrouter ▸ hsame.nextSlot) htaken (by rw [hrouter, hsame.ids])

theorem numbers_finish (s : System) (party : UInt16) (accepted : Bool) (callId : CallId) (work : Work) :
    Numbers s (s.finish party accepted callId work) := by
  cases work with
  | call call now => exact .same (s.router.sameRegistry_enter accepted callId call now) rfl rfl
  | event event now =>
    simp only [finish]
    split
    · exact .quiet rfl rfl rfl
    · exact .quiet rfl rfl rfl

theorem numbers_created (s : System) (info : TargetInfo) :
    Numbers s (s.afterRouter (s.router.onTargetCreated info)) := by
  cases hknown : s.router.targetIdToSlot.get info.targetId with
  | some slot =>
    rw [Router.onTargetCreated_of_known hknown]
    exact .quiet (by simp) (by simp) (by simp)
  | none =>
    by_cases hslot : s.router.nextSlot = 65535
    · rw [Router.onTargetCreated_of_full hknown hslot]
      exact .quiet (by simp) (by simp) (by simp)
    · obtain ⟨context, toSessions, heq, _⟩ := Router.onTargetCreated_of_unknown hknown hslot
      rw [heq]
      refine ⟨?_, .inl ⟨by simp, by simp⟩⟩
      rw [router_afterRouter]
      exact UInt16.le_of_lt (Router.lt_nextSlot_succ (.inr rfl) hslot)

theorem Staffed.numbers (h : Staffed s) (hhappens : Happens s move s') : Numbers s s' := by
  cases hhappens with
  | nothing => exact .quiet rfl rfl rfl
  | calls hidle hcall =>
    exact ⟨UInt16.le_refl _, .inr ⟨0, UInt16.pos_iff_ne_zero.2 h.next, rfl, rfl⟩⟩
  | hears hidle hcall =>
    exact .same (s.router.sameRegistry_onBrowserMessage hcall _).1 (router_afterRouter _ _)
      (taken_afterRouter _ _)
  | reads hidle => exact .quiet rfl rfl rfl
  | handsOn hdoing =>
    exact .same (s.router.sameRegistry_toSlot _ _) (router_afterRouter _ _) (taken_afterRouter _ _)
  | answers hdoing =>
    exact .same (s.router.sameRegistry_handleRouterResponse _ _ _ _) (router_afterRouter _ _)
      (taken_afterRouter _ _)
  | @event event hidle =>
    obtain ⟨slot, msg, heq, _⟩ | ⟨info, _, heq⟩ | ⟨ev, _, heq⟩ | heq := s.router.onEvent_cases event
    · rw [heq]
      exact .same (s.router.sameRegistry_toSlot _ _) (router_afterRouter _ _) (taken_afterRouter _ _)
    · rw [heq]
      exact numbers_created s info
    · obtain ⟨_, _, hattached, _⟩ := s.router.onAttachedToTarget_same ev
      rw [heq, hattached]
      exact .quiet (by simp) (by simp) (by simp)
    · rw [heq]
      exact .quiet (by simp) (by simp) (by simp)
  | attached hidle hlifecycle => exact .quiet rfl rfl rfl
  | @forgets slot entry rest hidle hlifecycle hentry =>
    obtain ⟨_, _, _, heq, _⟩ := s.router.forget_same slot
    rw [heq]
    exact .quiet rfl rfl rfl
  | ignores hidle hlifecycle hentry => exact .quiet rfl rfl rfl
  | dropsRoutes hdoing => exact .quiet rfl rfl rfl
  | evicts hidle =>
    exact .same (s.router.sameRegistry_evictRouterPending _ _).1 rfl rfl
  | routes hdoing => exact .quiet rfl rfl rfl
  | writes hdoing => exact .quiet rfl rfl rfl
  | refuses hdoing => exact numbers_finish s _ false _ _
  | enters hdoing => exact numbers_finish s _ true _ _
  | @fetches slot env now task event hidle hevent hcalls =>
    exact ⟨UInt16.le_refl _, .inr ⟨slot, (h.slots slot task (idleTask_eq_some hidle).1).2.2, rfl, rfl⟩⟩
  | turns hidle hevent hcalls => exact .quiet rfl rfl rfl
  | rests hidle hevent => exact .quiet rfl rfl rfl
  | receives hidle hinbox => exact .quiet rfl rfl rfl
  | orphaned hidle hinbox hpanicked => exact .quiet rfl rfl rfl
  | choosesStale hidle => exact .quiet rfl rfl rfl
  | takesRoute hdoing => exact .quiet rfl rfl rfl
  | timesOut hdoing htask => exact .quiet rfl rfl rfl
  | pageMessage htask => exact .quiet rfl rfl rfl
  | drainsPage hidle => exact .quiet rfl rfl rfl

/-- The ids that were taken are consecutive, and each was taken by the router or by a task whose slot was given out. -/
structure Numbered (s : System) (first : Nat) : Prop where
  next : s.router.ids.next = (first + s.taken.length) % 2 ^ 64
  ids : ∀ i id party, s.taken[i]? = some (id, party) → id.val = (first + i) % 2 ^ 64
  parties : ∀ entry ∈ s.taken, entry.2 < s.router.nextSlot

theorem Numbered.step (h : Numbered s first) (hnumbers : Numbers s s') : Numbered s' first := by
  rcases hnumbers.taken with ⟨htaken, hnext⟩ | ⟨party, hparty, htaken, hnext⟩
  · constructor
    · rw [htaken, hnext]
      exact h.next
    · rw [htaken]
      exact h.ids
    · intro entry hentry
      exact UInt16.lt_of_lt_of_le (h.parties entry (htaken ▸ hentry)) hnumbers.nextSlot
  · constructor
    · rw [htaken, hnext, h.next, wrappingSucc, List.length_append, List.length_singleton]
      omega
    · intro i id other hi
      rw [htaken, List.getElem?_append] at hi
      split at hi
      · exact h.ids i id other hi
      · rename_i hlength
        rw [List.getElem?_singleton] at hi
        split at hi
        · rename_i hzero
          cases hi
          have hi : i = s.taken.length := by omega
          rw [hi]
          exact h.next
        · cases hi
    · intro entry hentry
      rw [htaken, List.mem_append, List.mem_singleton] at hentry
      rcases hentry with hentry | rfl
      · exact UInt16.lt_of_lt_of_le (h.parties entry hentry) hnumbers.nextSlot
      · exact UInt16.lt_of_lt_of_le hparty hnumbers.nextSlot

/-- As long as the counter has not come round, the next id is new. -/
theorem Numbered.fresh (h : Numbered s first) (hroom : s.taken.length < 2 ^ 64) :
    (⟨s.router.ids.next⟩ : CallId) ∉ s.taken.map Prod.fst := by
  intro hmem
  obtain ⟨⟨id, party⟩, hentry, heq⟩ := List.mem_map.1 hmem
  obtain ⟨i, hi, hget⟩ := List.getElem_of_mem hentry
  have hid := h.ids i id party (List.getElem?_eq_some_iff.2 ⟨hi, hget⟩)
  have hnext : id.val = (first + s.taken.length) % 2 ^ 64 := by
    rw [← h.next]
    exact congrArg CallId.val heq
  omega

/-! ### What happens on the switchboard -/

/-- What holds of the handler at any time. -/
structure Wired (s : System) (first : Nat) : Prop where
  staffed : s.Staffed
  numbered : s.Numbered first
  sound : s.board.Sound 0

/-- The browser answers a call only after it has been written. -/
def Answers (s : System) : Move → Prop
  | .response _ _ resp => resp.id ∈ s.written
  | _ => True

instance (s : System) : ∀ move, Decidable (s.Answers move)
  | .response _ _ resp => inferInstanceAs (Decidable (resp.id ∈ s.written))
  | .browser _ _ | .hand | .event _ | .hear | .dropRoutes | .evict _ | .proceed _ _ | .turn _ _ _
  | .receive _ _ | .evictStale _ _ | .takeRoute _ | .timeOut _ | .pageMessage _ _ | .drainPage _ =>
    .isTrue trivial

theorem doing_of_idle (h : s.idle = true) : s.doing 0 = .nothing := by
  rw [idle, Bool.and_eq_true] at h
  exact Doing.of_isNothing h.1

theorem alive_of_task {slot : UInt16} {task : SessionTask} (htask : s.tasks.get slot = some task)
    (hstopped : task.stopped = false) : s.board.alive slot = true := by
  show (decide (slot = 0) || s.live slot) = true
  rw [live_iff.2 ⟨task, htask, hstopped⟩, Bool.or_true]

/-- A party that is in the middle of nothing takes an id. -/
theorem board_fetch (party : UInt16) (work : Work) (hdoing : s.doing party = .nothing) :
    (s.fetch party work).board =
      { s.board with
        taken := s.board.taken ++ [(⟨s.router.ids.next⟩, party)]
        submits := Function.update s.board.submits party (some (.fetched, ⟨s.router.ids.next⟩)) } := by
  exact board_does_submits _ hdoing rfl rfl rfl

theorem Wired.fetch (h : Wired s first) (hboard : s'.board = s.board) (hids : s'.router.ids = s.router.ids)
    {party : UInt16} {work : Work} (hdoing : s'.doing party = .nothing) (halive : s.board.alive party = true)
    (hroom : s.taken.length < 2 ^ 64) : Switchboard.Step 0 s.board (s'.fetch party work).board := by
  have hsubmits : s.board.submits party = none := by
    rw [← hboard]
    exact congrArg Doing.submission hdoing
  rw [board_fetch party work hdoing, hboard, hids]
  refine .fetch hsubmits halive ?_ (h.numbered.fresh hroom)
  rintro rfl
  rw [← hboard]
  exact congrArg Doing.hand hdoing

/-- The router has handed a response on. -/
theorem board_handed {decoders : Decoders} {now : Instant} {resp : Response} {route : Option UInt16}
    {r : Router} {msgs : List (UInt16 × RouterToSession)} (hdoing : s.doing 0 = .hands decoders now resp route)
    (hsame : s.router.SameRegistry r) (hmsgs : r.toSessions = s.router.toSessions ++ msgs) :
    ((s.afterRouter r).does 0 .nothing).board =
      { s.board with
        hand := none
        waits := Function.update s.board.waits 0 r.pending.contains
        box := fun slot => s.board.box slot ++ (s.delivered msgs slot).filterMap RouterToSession.answered } := by
  have hafter : (s.afterRouter r).doing 0 = .hands decoders now resp route := by
    rw [doing_afterRouter]
    exact hdoing
  rw [board_does_hand .nothing hafter rfl rfl rfl, board_afterRouter hsame.spawned hmsgs, hsame.ids]
  rfl

/-- A message for a slot gets into the inbox of the task there, which is registered as long as it runs. -/
theorem Staffed.delivered_addressed (h : Staffed s) (slot : UInt16) (msg : RouterToSession) (x : UInt16) :
    s.delivered (s.router.addressed (some slot) msg) x = if x = slot ∧ s.live slot = true then [msg] else [] := by
  by_cases hsame : x = slot
  · subst hsame
    cases hlive : s.live x with
    | true => simp [delivered, hlive, Router.addressed, h.registered x hlive]
    | false => simp [delivered, hlive]
  · rw [if_neg fun hx => hsame hx.1]
    unfold delivered Router.addressed
    dsimp only
    split
    · split
      · simp [Ne.symm hsame]
      · rfl
    · rfl

/-- The router hands a response to the task that its route names. -/
theorem Wired.handsOn (h : Wired s first) {decoders : Decoders} {now : Instant} {resp : Response}
    {slot : UInt16} (hdoing : s.doing 0 = .hands decoders now resp (some slot)) :
    Switchboard.Step 0 s.board
      ((s.afterRouter (s.router.toSlot (some slot) (.response resp.id resp ""))).does 0 .nothing).board := by
  have hhand : s.board.hand = some (resp.id, some slot) := congrArg Doing.hand hdoing
  have hslot : slot ≠ 0 := (h.sound.hand resp.id (some slot) hhand).2.2 slot rfl |>.2
  have halive : s.board.alive slot = s.live slot := by
    show (decide (slot = 0) || s.live slot) = s.live slot
    rw [decide_eq_false hslot, Bool.false_or]
  have hbox : (fun x => s.board.box x ++ (s.delivered (s.router.addressed (some slot)
      (.response resp.id resp "")) x).filterMap RouterToSession.answered) =
      Function.update s.board.box slot
        (if s.board.alive slot then s.board.box slot ++ [resp.id] else s.board.box slot) := by
    funext x
    rw [h.staffed.delivered_addressed, halive]
    by_cases hsame : x = slot
    · subst hsame
      rw [Function.update_self]
      cases s.live x with
      | true => simp [RouterToSession.answered]
      | false => simp
    · rw [Function.update_of_ne hsame, if_neg fun hx => hsame hx.1]
      simp
  have hsame := s.router.sameRegistry_toSlot (some slot) (.response resp.id resp "")
  have hpending : (s.router.toSlot (some slot) (.response resp.id resp "")).pending = s.router.pending := by
    rw [Router.toSlot_eq]
  have hwaits : Function.update s.board.waits 0 s.router.pending.contains = s.board.waits :=
    Function.update_eq_self 0 s.board.waits
  rw [board_handed hdoing hsame (by rw [Router.toSlot_eq]), hpending, hbox, hwaits]
  exact .carry hhand

/-- The router is given the answer to a call of its own. -/
theorem answers_step {decoders : Decoders} {now : Instant} {resp : Response}
    (hdoing : s.doing 0 = .hands decoders now resp none) :
    Switchboard.Step 0 s.board
      (({ s with
        handed := if (s.router.pending.get resp.id).isSome then s.handed ++ [(resp.id, 0)] else s.handed
        assigned := s.assigned ++ assigns s.router decoders resp }.afterRouter
        (s.router.handleRouterResponse decoders now resp.id resp)).does 0 .nothing).board := by
  have hhand : s.board.hand = some (resp.id, none) := congrArg Doing.hand hdoing
  obtain ⟨msgs, hmsgs, hinitiators⟩ := s.router.toSessions_handleRouterResponse decoders now resp.id resp
  have hquiet : ∀ entry ∈ msgs, entry.2.answered = none := by
    intro entry hentry
    obtain ⟨slot, tx, rfl⟩ := hinitiators entry hentry
    rfl
  have hsame := s.router.sameRegistry_handleRouterResponse decoders now resp.id resp
  have hpending := s.router.pending_handleRouterResponse decoders now resp.id resp
  generalize s.router.handleRouterResponse decoders now resp.id resp = r at *
  have hafter : (({ s with
      handed := if (s.router.pending.get resp.id).isSome then s.handed ++ [(resp.id, 0)] else s.handed
      assigned := s.assigned ++ assigns s.router decoders resp }.afterRouter r).does 0 .nothing).board =
      { s.board.answer 0 resp.id with hand := none } := by
    refine Eq.trans (@board_handed _ decoders now resp none r msgs hdoing hsame hmsgs) ?_
    rw [hpending, Table.contains_remove]
    refine Switchboard.ext rfl rfl rfl rfl rfl rfl rfl rfl rfl rfl rfl rfl ?_ rfl
    funext slot
    show s.board.box slot ++ _ = s.board.box slot
    rw [filterMap_delivered hquiet, List.append_nil]
  rw [hafter]
  exact .keep hhand

theorem steps_of_eq {b b' : Switchboard UInt16 CallId} (h : b' = b) :
    Relation.ReflTransGen (Switchboard.Step 0) b b' :=
  h ▸ .refl

/-- A target that is announced adds a party at most. -/
theorem Wired.created (h : Wired s first) (info : TargetInfo) :
    Relation.ReflTransGen (Switchboard.Step 0) s.board
      (s.afterRouter (s.router.onTargetCreated info)).board := by
  have hnone : ∀ entry ∈ ([] : List (UInt16 × RouterToSession)), entry.2.answered = none :=
    fun entry hentry => absurd hentry List.not_mem_nil
  cases hknown : s.router.targetIdToSlot.get info.targetId with
  | some slot =>
    rw [Router.onTargetCreated_of_known hknown]
    exact steps_of_eq (board_afterRouter_of_same rfl rfl rfl (List.append_nil _).symm hnone)
  | none =>
    by_cases hslot : s.router.nextSlot = 65535
    · rw [Router.onTargetCreated_of_full hknown hslot]
      exact steps_of_eq (board_afterRouter_of_same rfl rfl rfl (List.append_nil _).symm hnone)
    · obtain ⟨context, toSessions, heq, hmsgs⟩ := Router.onTargetCreated_of_unknown hknown hslot
      have hfresh : s.tasks.get s.router.nextSlot = none :=
        Option.eq_none_iff_forall_ne_some.2 fun task htask =>
          UInt16.lt_irrefl _ (h.staffed.slots _ task htask).2.2
      have hquiet : ∀ entry ∈ (s.router.pendingInitiators.get info.targetId).toList.map
          fun tx => (s.router.nextSlot, RouterToSession.setInitiator tx), entry.2.answered = none := by
        intro entry hentry
        obtain ⟨tx, _, rfl⟩ := List.mem_map.1 hentry
        rfl
      have hafter : (s.afterRouter (s.router.onTargetCreated info)).board =
          { s.board with alive := Function.update s.board.alive s.router.nextSlot true } := by
        rw [afterRouter_eq (by rw [heq]; exact hmsgs) (by rw [heq]), heq]
        refine Switchboard.ext rfl rfl rfl rfl rfl rfl rfl rfl rfl ?_ rfl rfl ?_ ?_
        · -- The new task waits for nothing, as nobody did before.
          funext party callId
          by_cases hsame : party = s.router.nextSlot
          · subst hsame
            simp [board, waits, spawn, hfresh, h.staffed.next, SessionTask.spawned, SessionTask.new, Table.contains]
          · simp [board, waits, spawn, Table.get_set_of_ne _ _ hsame]
        · funext slot
          refine List.filterMap_append.trans ?_
          rw [filterMap_delivered hquiet, List.append_nil]
          rfl
        · funext slot
          by_cases hsame : slot = s.router.nextSlot
          · subst hsame
            simp [board, live, spawn, SessionTask.spawned, SessionTask.new]
          · simp [board, live, spawn, Table.get_set_of_ne _ _ hsame, hsame]
      rw [hafter]
      exact .single (.join fun id htaken => UInt16.lt_irrefl _ (h.numbered.parties _ htaken))

theorem Wired.event (h : Wired s first) (event : CdpEventMessage) :
    Relation.ReflTransGen (Switchboard.Step 0) s.board (s.afterRouter (s.router.onEvent event)).board := by
  obtain ⟨slot, msg, heq, hresponse, _⟩ | ⟨info, _, heq⟩ | ⟨ev, _, heq⟩ | heq := s.router.onEvent_cases event
  · rw [heq, Router.toSlot_eq]
    refine steps_of_eq (board_afterRouter_of_same rfl rfl rfl rfl fun entry hentry => ?_)
    rw [Router.snd_of_mem_addressed hentry]
    cases msg with
    | response callId resp method => exact absurd rfl (hresponse callId resp method)
    | _ => rfl
  · rw [heq]
    exact h.created info
  · obtain ⟨_, _, hattached, _⟩ := s.router.onAttachedToTarget_same ev
    rw [heq, hattached]
    exact steps_of_eq (board_afterRouter_of_same rfl rfl rfl (List.append_nil _).symm
      fun _ hentry => absurd hentry List.not_mem_nil)
  · rw [heq]
    exact steps_of_eq (board_afterRouter_of_same rfl rfl rfl (List.append_nil _).symm
      fun _ hentry => absurd hentry List.not_mem_nil)

/-- The end of a submission. -/
theorem Staffed.board_finish (h : Staffed s) {party : UInt16} {stage : Switchboard.Stage} {callId : CallId}
    {work : Work} (hdoing : s.doing party = .submits stage callId work) (accepted : Bool) :
    (s.finish party accepted callId work).board =
      { s.board with
        entered := if accepted then s.board.entered ++ [(callId, party)] else s.board.entered
        submits := Function.update s.board.submits party none
        waits :=
          if accepted then
            Function.update s.board.waits party (Function.update (s.board.waits party) callId true)
          else s.board.waits } := by
  obtain ⟨rfl, call, now, rfl⟩ | ⟨event, now, task, hparty, rfl, hcalls, htask, _⟩ := h.submits hdoing
  · have hids := (s.router.sameRegistry_enter accepted callId call now).ids
    have hwaits : Function.update s.waits 0 (s.router.enter accepted callId call now).pending.contains =
        if accepted then Function.update s.waits 0 (Function.update (s.waits 0) callId true) else s.waits := by
      cases accepted with
      | true => exact congrArg (Function.update s.waits 0) (Table.contains_set _ _ _)
      | false => exact Function.update_eq_self 0 s.waits
    simp only [finish]
    refine Eq.trans (@board_does_submits _ 0 .nothing _ hdoing rfl rfl rfl) ?_
    refine Switchboard.ext rfl rfl rfl rfl rfl rfl rfl rfl rfl ?_ ?_ rfl rfl rfl
    · exact (s.waits_router _).trans hwaits
    · exact congrArg (fun ids => ids.routing.get) hids
  · have hcontinues := task.continues_onTargetEvent accepted callId now event
    have hwaits : Function.update s.board.waits party
        (task.onTargetEvent accepted callId now event).pending.contains =
        if accepted then Function.update s.board.waits party (Function.update (s.board.waits party) callId true)
        else s.board.waits := by
      rw [task.contains_onTargetEvent, hcalls, Bool.and_true, ← waits_of_task hparty htask]
      cases accepted with
      | true => rfl
      | false => exact Function.update_eq_self party s.board.waits
    simp only [finish, htask]
    refine Eq.trans (@board_does_submits _ party .nothing _ hdoing rfl rfl rfl) ?_
    have hafter := @board_afterTask
      { s with entered := if accepted then s.entered ++ [(callId, party)] else s.entered } party task
      (task.onTargetEvent accepted callId now event) hparty htask hcontinues.stopped
    rw [hafter]
    exact Switchboard.ext rfl rfl rfl rfl rfl rfl rfl rfl rfl hwaits rfl rfl rfl rfl

/-- A task takes an input that does not end it. -/
theorem board_afterInput {slot : UInt16} {task : SessionTask} (hslot : slot ≠ 0)
    (htask : s.tasks.get slot = some task) {input : SessionInput} (hcontinues : task.Continues (task.step input))
    (hstopped : task.stopped = false) (rest : List RouterToSession) :
    (s.afterInput slot task input rest).board =
      { s.board with
        waits := Function.update s.board.waits slot (task.step input).pending.contains
        box := Function.update s.board.box slot (rest.filterMap RouterToSession.answered)
        handed := (s.afterInput slot task input rest).handed } := by
  have hbox : (fun x => (Function.update s.inboxes slot
      (if (task.step input).stopped then [] else rest) x).filterMap RouterToSession.answered) =
      Function.update s.board.box slot (rest.filterMap RouterToSession.answered) := by
    rw [hcontinues.stopped, hstopped, if_neg Bool.false_ne_true]
    exact Function.comp_update (List.filterMap RouterToSession.answered) s.inboxes slot rest
  have hafter := board_afterTask hslot htask hcontinues.stopped
  have hwaits := congrArg Switchboard.waits hafter
  have halive := congrArg Switchboard.alive hafter
  exact Switchboard.ext rfl rfl rfl rfl rfl rfl rfl rfl rfl hwaits rfl rfl hbox halive

/-- A task leaves its loop. -/
theorem Wired.shutdown (h : Wired s first) {slot : UInt16} {task : SessionTask}
    (hidle : s.idleTask slot = some task) (rest : List RouterToSession) :
    Switchboard.Step 0 s.board (s.afterInput slot task .shutdown rest).board := by
  obtain ⟨htask, hstopped, hdoing⟩ := idleTask_eq_some hidle
  have hslot : slot ≠ 0 := (h.staffed.slots slot task htask).2.1
  obtain ⟨replies, hstep⟩ := task.step_shutdown hstopped
  have hafter : (s.afterInput slot task .shutdown rest).board =
      { s.board with
        box := Function.update s.board.box slot []
        waits := Function.update s.board.waits slot fun _ => false
        alive := Function.update s.board.alive slot false } := by
    have hwaits : (s.afterTask slot task (task.step .shutdown)).waits =
        Function.update s.board.waits slot fun _ => false := by
      rw [waits_afterTask hslot, hstep]
      rfl
    have hempty : (s.afterInput slot task .shutdown rest).inboxes = Function.update s.inboxes slot [] := by
      simp only [afterInput, hstep, if_true]
    have hbox : (s.afterInput slot task .shutdown rest).board.box = Function.update s.board.box slot [] := by
      show (fun x => ((s.afterInput slot task .shutdown rest).inboxes x).filterMap _) = _
      rw [hempty]
      exact Function.comp_update (List.filterMap RouterToSession.answered) s.inboxes slot []
    have halive : (s.afterInput slot task .shutdown rest).board.alive =
        Function.update s.board.alive slot false := by
      funext x
      have hlive : (s.afterInput slot task .shutdown rest).board.alive x =
        (decide (x = 0) || (s.afterTask slot task (task.step .shutdown)).live x) := rfl
      rw [hlive, live_afterTask, hstep, Function.update_apply]
      split
      · rename_i hsame
        rw [hsame, decide_eq_false hslot]
        rfl
      · rfl
    exact Switchboard.ext rfl rfl rfl rfl rfl rfl rfl rfl rfl hwaits rfl rfl hbox halive
  rw [hafter]
  exact .retire hslot (congrArg Doing.submission (Doing.of_isNothing hdoing))

/-- A task takes a message of the router. -/
theorem Wired.receives (h : Wired s first) {slot : UInt16} {env : Env} {task : SessionTask}
    {msg : RouterToSession} {rest : List RouterToSession} (hidle : s.idleTask slot = some task)
    (hinbox : s.inboxes slot = msg :: rest) :
    Relation.ReflTransGen (Switchboard.Step 0) s.board (s.afterInput slot task (msg.toInput env) rest).board := by
  obtain ⟨htask, hstopped, hdoing⟩ := idleTask_eq_some hidle
  have hslot : slot ≠ 0 := (h.staffed.slots slot task htask).2.1
  have hwaits : Function.update s.board.waits slot task.pending.contains = s.board.waits := by
    rw [← waits_of_task hslot htask]
    exact Function.update_eq_self slot s.board.waits
  have hquiet : msg.answered = none →
      Function.update s.board.box slot (rest.filterMap RouterToSession.answered) = s.board.box := by
    intro hnone
    refine Function.update_eq_self_iff.2 ?_
    show _ = (s.inboxes slot).filterMap RouterToSession.answered
    rw [hinbox, List.filterMap_cons, hnone]
  cases msg with
  | shutdown => exact .single (h.shutdown hidle rest)
  | event message =>
    have hcontinues := @SessionTask.continues_step task (.event env message) nofun nofun
    refine steps_of_eq ((board_afterInput hslot htask hcontinues hstopped rest).trans ?_)
    rw [task.pending_step trivial, hwaits, hquiet rfl]
    rfl
  | setInitiator tx =>
    have hcontinues := @SessionTask.continues_step task (.setInitiator tx) nofun nofun
    refine steps_of_eq ((board_afterInput hslot htask hcontinues hstopped rest).trans ?_)
    rw [task.pending_step trivial, hwaits, hquiet rfl]
    rfl
  | response callId resp method =>
    have hcontinues := @SessionTask.continues_step task (.response env callId resp) nofun nofun
    have hpending : (task.step (.response env callId resp)).pending = task.pending.remove callId := by
      rw [SessionTask.step, hstopped]
      exact task.pending_onResponse env callId resp
    have hbox : s.board.box slot = callId :: rest.filterMap RouterToSession.answered := by
      show (s.inboxes slot).filterMap RouterToSession.answered = _
      rw [hinbox]
      rfl
    have hafter : (s.afterInput slot task (.response env callId resp) rest).board =
        { s.board.answer slot callId with
          box := Function.update s.board.box slot (rest.filterMap RouterToSession.answered) } := by
      refine (board_afterInput hslot htask hcontinues hstopped rest).trans ?_
      rw [hpending, Table.contains_remove, ← waits_of_task hslot htask]
      refine Switchboard.ext rfl rfl rfl rfl ?_ rfl rfl rfl rfl rfl rfl rfl rfl rfl
      show (if task.pending.contains callId then s.handed ++ [(callId, slot)] else s.handed) =
        if s.board.waits slot callId then s.handed ++ [(callId, slot)] else s.handed
      rw [waits_of_task hslot htask]
    show Relation.ReflTransGen (Switchboard.Step 0) s.board
      (s.afterInput slot task (.response env callId resp) rest).board
    rw [hafter]
    exact .single (.opens hbox (congrArg Doing.submission (Doing.of_isNothing hdoing)))

theorem reads_step {decoders : Decoders} {now : Instant} {resp : Response}
    (hidle : s.idle = true) (hwritten : resp.id ∈ s.written) :
    Switchboard.Step 0 s.board
      ({ s with
        router := { s.router with ids := (s.router.ids.takeRoute resp.id).1 }
        read := s.read ++ [resp.id] }.does 0
        (.hands decoders now resp (s.router.ids.takeRoute resp.id).2)).board := by
  have hdoing := doing_of_idle hidle
  have hafter : ({ s with
      router := { s.router with ids := (s.router.ids.takeRoute resp.id).1 }
      read := s.read ++ [resp.id] }.does 0
      (.hands decoders now resp (s.router.ids.takeRoute resp.id).2)).board =
      { s.board with
        read := s.board.read ++ [resp.id]
        hand := some (resp.id, s.board.route resp.id)
        route := Function.update s.board.route resp.id none } := by
    refine Eq.trans (@board_does_hand _ _ .nothing hdoing rfl rfl rfl) ?_
    exact Switchboard.ext rfl rfl rfl rfl rfl rfl rfl rfl rfl rfl (Table.get_remove_eq_update _ _) rfl rfl rfl
  rw [hafter]
  exact .read (congrArg Doing.hand hdoing) (congrArg Doing.submission hdoing) hwritten

theorem Staffed.dropsRoutes (h : Staffed s) {slot : UInt16} (hdoing : s.doing 0 = .drops slot) :
    Switchboard.Step 0 s.board
      ({ s with router := { s.router with ids := s.router.ids.dropSlot slot } }.does 0 .nothing).board := by
  have halive : s.board.alive slot = false := by
    obtain ⟨task, htask, _⟩ := h.dropping slot hdoing
    show (decide (slot = 0) || s.live slot) = false
    rw [decide_eq_false (h.slots slot task htask).2.1, not_live_of_gone (h.dropping slot hdoing)]
    rfl
  have hroute : (s.router.ids.dropSlot slot).routing.get =
      fun id => if s.board.route id = some slot then none else s.board.route id := by
    funext id
    refine (Table.get_retain _ _ _).trans ?_
    show (s.board.route id).filter _ = _
    cases s.board.route id with
    | none => rfl
    | some other => by_cases hsame : other = slot <;> simp [hsame]
  have hafter : ({ s with router := { s.router with ids := s.router.ids.dropSlot slot } }.does 0 .nothing).board =
      { s.board with route := fun id => if s.board.route id = some slot then none else s.board.route id } := by
    refine Eq.trans (@board_does_of_same _ 0 .nothing _ hdoing rfl rfl rfl rfl) ?_
    exact Switchboard.ext rfl rfl rfl rfl rfl rfl rfl rfl rfl rfl hroute rfl rfl rfl
  rw [hafter]
  exact .drop halive

theorem evicts_step (s : System) (now : Instant) (requestTimeout : Duration) :
    Switchboard.Step 0 s.board
      ({ s with
        router := s.router.evictRouterPending now requestTimeout
        expired := s.expired ++ (s.router.lost (s.router.evictRouterPending now requestTimeout)).map fun callId =>
          (callId, 0) } : System).board := by
  obtain ⟨hsame, hsub, _⟩ := s.router.sameRegistry_evictRouterPending now requestTimeout
  generalize s.router.evictRouterPending now requestTimeout = r at *
  have hafter : ({ s with
      router := r
      expired := s.expired ++ (s.router.lost r).map fun callId => (callId, 0) } : System).board =
      { s.board with
        expired := s.board.expired ++ (s.router.lost r).map fun callId => (callId, 0)
        waits := Function.update s.board.waits 0 r.pending.contains } := by
    refine Switchboard.ext rfl rfl rfl rfl rfl rfl rfl rfl rfl (s.waits_router r) ?_ rfl rfl rfl
    exact congrArg (fun ids => ids.routing.get) hsame.ids
  rw [hafter]
  refine .evict (fun id hid => ?_) fun id hold hnew => ?_
  · obtain ⟨entry, hentry⟩ := Option.isSome_iff_exists.1 hid
    exact Option.isSome_iff_exists.2 ⟨entry, hsub id entry hentry⟩
  · obtain ⟨entry, hentry⟩ := Option.isSome_iff_exists.1 hold
    refine List.mem_filter.2 ⟨(Table.mem_keys _ _).2 ⟨entry, hentry⟩, ?_⟩
    rw [Table.contains] at hnew
    simpa using hnew

theorem routes_step {party : UInt16} {callId : CallId} {work : Work}
    (hdoing : s.doing party = .submits .fetched callId work) :
    Switchboard.Step 0 s.board
      ({ s with router := { s.router with ids := s.router.ids.insertRoute callId party } }.does party
        (.submits .routed callId work)).board := by
  have hroute : (s.router.ids.insertRoute callId party).routing.get =
      if party = 0 then s.board.route else Function.update s.board.route callId (some party) := by
    unfold CallIdAllocator.insertRoute
    by_cases hparty : party = 0
    · simp only [hparty, ne_eq, not_true, if_false, if_true]
      rfl
    · simp only [hparty, ne_eq, not_false_eq_true, if_false, if_true]
      exact Table.get_set_eq_update _ _ _
  have hafter : ({ s with router := { s.router with ids := s.router.ids.insertRoute callId party } }.does party
      (.submits .routed callId work)).board =
      { s.board with
        route := if party = 0 then s.board.route else Function.update s.board.route callId (some party)
        submits := Function.update s.board.submits party (some (.routed, callId)) } := by
    refine Eq.trans (@board_does_submits _ party (.submits .routed callId work) _ hdoing rfl rfl rfl) ?_
    exact Switchboard.ext rfl rfl rfl rfl rfl rfl rfl rfl rfl rfl hroute rfl rfl rfl
  rw [hafter]
  exact .record (congrArg Doing.submission hdoing)

/-- A task chooses the calls that have waited for too long. -/
theorem choosesStale_step {slot : UInt16} {task : SessionTask} (hslot : slot ≠ 0)
    (htask : s.tasks.get slot = some task) (hdoing : s.doing slot = .nothing) (now : Instant) :
    Switchboard.Step 0 s.board (s.does slot (.evicting (task.stale now))).board := by
  have hgives : Function.update s.board.givesUp slot none = s.board.givesUp :=
    update_part Doing.givesUp hdoing rfl
  rw [board_does_evicts _ hdoing (Doing.submission_evicting _) (Doing.hand_evicting _),
    Doing.stale_evicting, Doing.givesUp_evicting, hgives]
  refine .choose fun id hid => ?_
  rw [waits_of_task hslot htask]
  exact task.mem_pending_of_stale hid

theorem takesRoute_step {slot : UInt16} {callId : CallId} {rest : List CallId}
    (hdoing : s.doing slot = .evicts (callId :: rest)) :
    Switchboard.Step 0 s.board
      ({ s with
        router := { s.router with ids := (s.router.ids.takeRoute callId).1 }
        expired := s.expired ++ [(callId, slot)] }.does slot (.timesOut callId rest)).board := by
  have hafter : ({ s with
      router := { s.router with ids := (s.router.ids.takeRoute callId).1 }
      expired := s.expired ++ [(callId, slot)] }.does slot (.timesOut callId rest)).board =
      { s.board with
        expired := s.board.expired ++ [(callId, slot)]
        route := Function.update s.board.route callId none
        stale := Function.update s.board.stale slot rest
        givesUp := Function.update s.board.givesUp slot (some callId) } := by
    refine Eq.trans (@board_does_evicts _ slot (.timesOut callId rest) _ hdoing rfl rfl) ?_
    exact Switchboard.ext rfl rfl rfl rfl rfl rfl rfl rfl rfl rfl (Table.get_remove_eq_update _ _) rfl rfl rfl
  rw [hafter]
  exact .expire (congrArg Doing.stale hdoing)

theorem timesOut_step {slot : UInt16} {callId : CallId} {rest : List CallId} {task : SessionTask}
    (hslot : slot ≠ 0) (hdoing : s.doing slot = .timesOut callId rest) (htask : s.tasks.get slot = some task) :
    Switchboard.Step 0 s.board
      ((s.afterTask slot task (task.timeOut callId)).does slot (.evicting rest)).board := by
  have hstale : Function.update s.board.stale slot rest = s.board.stale :=
    Function.update_eq_self_iff.2 (congrArg Doing.stale hdoing).symm
  have hafter : ((s.afterTask slot task (task.timeOut callId)).does slot (.evicting rest)).board =
      { s.board with
        givesUp := Function.update s.board.givesUp slot none
        waits := Function.update s.board.waits slot (Function.update (s.board.waits slot) callId false) } := by
    have hdone : (s.afterTask slot task (task.timeOut callId)).doing slot = .timesOut callId rest := hdoing
    rw [board_does_evicts _ hdone (Doing.submission_evicting _) (Doing.hand_evicting _),
      Doing.stale_evicting, Doing.givesUp_evicting,
      board_afterTask hslot htask (task.continues_timeOut callId).stopped, task.pending_timeOut,
      Table.contains_remove, ← waits_of_task hslot htask]
    exact Switchboard.ext rfl rfl rfl rfl rfl rfl rfl hstale rfl rfl rfl rfl rfl rfl
  rw [hafter]
  exact .giveUp (congrArg Doing.givesUp hdoing)

/-- What happens in the handler is a step of the switchboard, or does not touch it. -/
theorem Wired.happens (h : Wired s first) (hhappens : Happens s move s') (hanswers : s.Answers move)
    (hroom : s.taken.length < 2 ^ 64) : Relation.ReflTransGen (Switchboard.Step 0) s.board s'.board := by
  cases hhappens with
  | nothing => exact .refl
  | calls hidle hcall =>
    refine .single ?_
    exact @Wired.fetch s _ first h rfl rfl 0 _ (doing_of_idle hidle) rfl hroom
  | @hears msg now hidle hcall =>
    obtain ⟨hsame, hpending, htold⟩ := s.router.sameRegistry_onBrowserMessage hcall now
    exact steps_of_eq (@board_afterRouter_of_same { s with asked := s.askedAfter msg } _ [] hsame.spawned
      hsame.ids hpending (htold.trans (List.append_nil _).symm) fun _ hentry => absurd hentry List.not_mem_nil)
  | reads hidle => exact .single (reads_step hidle hanswers)
  | handsOn hdoing => exact .single (h.handsOn hdoing)
  | answers hdoing => exact .single (answers_step hdoing)
  | event hidle => exact h.event _
  | attached hidle hlifecycle => exact .refl
  | @forgets slot entry rest hidle hlifecycle hentry =>
    obtain ⟨_, _, _, heq, _⟩ := s.router.forget_same slot
    rw [heq]
    exact steps_of_eq (@board_does_of_same _ 0 (.drops slot) _ (doing_of_idle hidle) rfl rfl rfl rfl)
  | ignores hidle hlifecycle hentry => exact .refl
  | dropsRoutes hdoing => exact .single (h.staffed.dropsRoutes hdoing)
  | evicts hidle => exact .single (s.evicts_step _ _)
  | routes hdoing => exact .single (routes_step hdoing)
  | @writes party callId work hdoing =>
    have hafter := @board_does_submits { s with written := s.written ++ [callId] } party
      (.submits .written callId work) _ hdoing rfl rfl rfl
    rw [hafter]
    exact .single (.write (congrArg Doing.submission hdoing))
  | refuses hdoing =>
    rw [h.staffed.board_finish hdoing false]
    exact .single (.refuse (congrArg Doing.submission hdoing))
  | enters hdoing =>
    rw [h.staffed.board_finish hdoing true]
    exact .single (.enter (congrArg Doing.submission hdoing))
  | @fetches slot env now task event hidle hevent hcalls =>
    obtain ⟨htask, hstopped, hdoing⟩ := idleTask_eq_some hidle
    have hslot : slot ≠ 0 := (h.staffed.slots slot task htask).2.1
    have hboard : (s.afterTask slot task (task.advanced env now)).board = s.board :=
      board_afterTask_of_same hslot htask rfl rfl
    exact .single (h.fetch hboard rfl (Doing.of_isNothing hdoing) (alive_of_task htask hstopped) hroom)
  | @turns slot env now task event hidle hevent hcalls =>
    obtain ⟨htask, hstopped, hdoing⟩ := idleTask_eq_some hidle
    have hslot : slot ≠ 0 := (h.staffed.slots slot task htask).2.1
    have hcontinues := (task.advanced env now).continues_onTargetEvent true ⟨0⟩ now event
    have hpending := (task.advanced env now).contains_onTargetEvent true ⟨0⟩ now event
    rw [hcalls, Bool.and_false, if_neg Bool.false_ne_true] at hpending
    refine steps_of_eq ((board_afterTask_of_same hslot ?_ hcontinues.stopped hpending).trans
      (board_afterTask_of_same hslot htask rfl rfl))
    exact Table.get_set_self _ _ _
  | @rests slot env now task hidle hevent =>
    have htask := (idleTask_eq_some hidle).1
    exact steps_of_eq (board_afterTask_of_same (h.staffed.slots slot task htask).2.1 htask rfl rfl)
  | receives hidle hinbox => exact h.receives hidle hinbox
  | orphaned hidle hinbox hpanicked => exact .single (h.shutdown hidle [])
  | choosesStale hidle =>
    obtain ⟨htask, _, hdoing⟩ := idleTask_eq_some hidle
    exact .single (choosesStale_step (h.staffed.slots _ _ htask).2.1 htask (Doing.of_isNothing hdoing) _)
  | takesRoute hdoing => exact .single (takesRoute_step hdoing)
  | timesOut hdoing htask =>
    exact .single (timesOut_step (h.staffed.slots _ _ htask).2.1 hdoing htask)
  | @pageMessage slot msg task htask =>
    have hcontinues := @SessionTask.continues_step task (.pageMessage msg) nofun nofun
    exact steps_of_eq (board_afterTask_of_same (h.staffed.slots slot task htask).2.1 htask hcontinues.stopped
      (congrArg Table.contains (task.pending_step trivial)))
  | @drainsPage slot task hidle =>
    have htask := (idleTask_eq_some hidle).1
    have hcontinues := @SessionTask.continues_step task .drainPage nofun nofun
    exact steps_of_eq (board_afterTask_of_same (h.staffed.slots slot task htask).2.1 htask hcontinues.stopped
      (congrArg Table.contains (task.pending_step trivial)))

/-! ### Runs -/

/-- The call that the router waits for when it starts is the only one. -/
theorem waits_start (config : HandlerConfig) (context : BrowserContext) (bootMethod : MethodId)
    (nextCallId : Nat) (now : Instant) (party : UInt16) (callId : CallId) :
    (start config context bootMethod nextCallId now).waits party callId = true ↔
      (callId, party) ∈ [(⟨nextCallId - 1⟩, 0)] := by
  rw [List.mem_singleton, Prod.mk.injEq]
  by_cases hparty : party = 0
  · subst hparty
    show Table.contains (Table.set ∅ _ _) callId = true ↔ _
    rw [Table.contains_set, Function.update_apply]
    simp [Table.contains]
  · simp [waits, start, hparty]

theorem wired_start (config : HandlerConfig) (context : BrowserContext) (bootMethod : MethodId)
    {nextCallId : Nat} (hnext : nextCallId < 2 ^ 64) (now : Instant) :
    Wired (start config context bootMethod nextCallId now) (nextCallId - 1) where
  staffed := staffed_start config context bootMethod nextCallId now
  numbered := {
    next := by
      show max nextCallId 1 = (nextCallId - 1 + 1) % 2 ^ 64
      omega
    ids := by
      intro i id party hi
      rw [start, List.getElem?_singleton] at hi
      split at hi
      · rename_i hzero
        cases hi
        show nextCallId - 1 = (nextCallId - 1 + i) % 2 ^ 64
        omega
      · cases hi
    parties := by
      intro entry hentry
      rw [start, List.mem_singleton] at hentry
      subst hentry
      exact UInt16.lt_iff_toNat_lt.2 Nat.one_pos }
  sound := by
    exact {
      takenOnce := List.nodup_singleton _
      enteredOnce := List.nodup_singleton _
      handedOnce := List.nodup_nil
      entered := fun _ hentry => hentry
      handed := fun _ hentry => absurd hentry List.not_mem_nil
      submits := by
        intro party stage id hsubmits
        cases hsubmits
      written := fun _ hid => .inl hid
      read := fun _ hid => absurd hid List.not_mem_nil
      route := by
        intro id party hroute
        cases hroute
      hand := by
        intro id route hhand
        cases hhand
      boxed := fun _ _ hid => absurd hid List.not_mem_nil
      waits := fun party callId hwaits => ⟨(waits_start _ _ _ _ _ _ _).1 hwaits, List.not_mem_nil⟩
      kept := fun callId party hentry _ _ _ => (waits_start _ _ _ _ _ _ _).2 hentry
      routed := by
        rintro callId party hparty _ (hentry | ⟨_, _, hsubmits⟩) _ _
        · cases List.mem_singleton.1 hentry
          exact absurd rfl hparty
        · cases hsubmits
      stale := fun _ _ hid => absurd hid List.not_mem_nil
      givesUp := by
        intro party id hgivesUp
        cases hgivesUp
      answered := fun _ hid => absurd hid List.not_mem_nil
      root := rfl }

theorem Wired.step (h : Wired s first) (hanswers : s.Answers move) (hroom : s.taken.length < 2 ^ 64) :
    Wired (s.step move) first where
  staffed := h.staffed.step move
  numbered := h.numbered.step (h.staffed.numbers (s.happens move))
  sound := h.sound.steps (h.happens (s.happens move) hanswers hroom)

theorem Numbers.length_le (h : Numbers s s') : s.taken.length ≤ s'.taken.length := by
  rcases h.taken with ⟨htaken, _⟩ | ⟨party, _, htaken, _⟩
  · rw [htaken]
  · rw [htaken, List.length_append]
    exact Nat.le_add_right _ _

/-- As long as the counter of call ids does not come round, no two calls have one id, and the response to a call goes to the party that made it and to no other, and to it at most once. -/
theorem law_of_run (config : HandlerConfig) (context : BrowserContext) (bootMethod : MethodId)
    {nextCallId : Nat} (hnext : nextCallId < 2 ^ 64) (now : Instant) {moves : List Move}
    (hanswers : Run.Allowed step Answers (start config context bootMethod nextCallId now) moves)
    (hroom : (Run.final step (start config context bootMethod nextCallId now) moves).taken.length < 2 ^ 64) :
    (Run.final step (start config context bootMethod nextCallId now) moves).board.Law 0 := by
  have hkept := Run.invariant (fun s => s.Staffed ∧ (s.taken.length < 2 ^ 64 → s.Wired (nextCallId - 1)))
    (fun s move h hmove => ⟨h.1.step move, fun hlength =>
      have hbefore := Nat.lt_of_le_of_lt (h.1.numbers (s.happens move)).length_le hlength
      (h.2 hbefore).step hmove hbefore⟩)
    ⟨staffed_start config context bootMethod nextCallId now,
      fun _ => wired_start config context bootMethod hnext now⟩ hanswers
  exact (hkept.2 hroom).sound.law

/-- The router has the answer to its first call, and a target is announced whose task makes a call and has it answered. -/
def firstCalls : List Move :=
  [.response Handler.plainEnv.decoders 0 (Handler.plainResponse 1), .hand,
    .event ⟨.targetTargetCreated ⟨Handler.plainTarget, "page", none, none⟩, none⟩,
    .turn 1 Handler.plainEnv 0, .proceed 1 true, .proceed 1 true, .proceed 1 true,
    .response Handler.plainEnv.decoders 0 (Handler.plainResponse 2), .hand, .receive 1 Handler.plainEnv]

theorem law_of_run_firstCalls :
    let start := start Handler.plainConfig ⟨none⟩ "Target.setDiscoverTargets" 2 0
    (Run.final step start firstCalls).handed = [(⟨1⟩, 0), (⟨2⟩, 1)] ∧
      (Run.final step start firstCalls).board.Law 0 := by
  have hhanded : (Run.final step (start Handler.plainConfig ⟨none⟩ "Target.setDiscoverTargets" 2 0)
      firstCalls).handed = [(⟨1⟩, 0), (⟨2⟩, 1)] := by
    decide +kernel
  exact ⟨hhanded, law_of_run Handler.plainConfig ⟨none⟩ "Target.setDiscoverTargets" (by decide) 0
    (by decide +kernel) (by decide +kernel)⟩

end System

end SpiderChrome
