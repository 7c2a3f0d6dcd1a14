import SpiderChrome.Handler.Clock
import SpiderChrome.Handler.Crash

/-!
# Commands that time out

An eviction answers what was stamped too long before the reading of its turn. The stamp of a command is a reading as well, the one of the turn in which it was submitted, and the command may have come long after it. `timeouts_on_time_iff` says which ticks answer nobody too early.
-/

namespace SpiderChrome

/-- Who is told what becomes of a request. A navigation has its caller elsewhere. -/
def PendingRequest.sender? : PendingRequest → Option Sender
  | .createTarget tx => some tx
  | .getTargets tx => some tx
  | .navigate _ => none
  | .externalCommand tx _ => some tx
  | .internalCommand _ => none
  | .closeBrowser tx => some tx

namespace Handler

/-- Who waits for a request. -/
def waiter (h : Handler) : PendingRequest → Option Sender
  | .navigate id => (h.navigations.get id).map NavigationInProgress.tx
  | req => req.sender?

/-! ### What waits in the handler -/

/-- The senders that wait are known, and the stamps are of a kind. -/
structure Waits (known : Sender → Prop) (stamped : Instant → Prop) (timeout : Duration) (h : Handler) : Prop where
  stamps : ∀ call entry, h.pendingCommands.get call = some entry → stamped entry.2.2
  senders : ∀ call entry, h.pendingCommands.get call = some entry → ∀ tx ∈ entry.1.sender?, known tx
  navigations : ∀ id nav, h.navigations.get id = some nav → known nav.tx
  timeout : h.config.requestTimeout = timeout

variable {known : Sender → Prop} {stamped : Instant → Prop} {timeout : Duration} {h h' : Handler}

theorem Waits.mono {known' : Sender → Prop} {stamped' : Instant → Prop} (hw : Waits known stamped timeout h)
    (hknown : ∀ tx, known tx → known' tx) (hstamped : ∀ now, stamped now → stamped' now) :
    Waits known' stamped' timeout h where
  stamps := fun call entry hget => hstamped _ (hw.stamps call entry hget)
  senders := fun call entry hget tx htx => hknown _ (hw.senders call entry hget tx htx)
  navigations := fun id nav hget => hknown _ (hw.navigations id nav hget)
  timeout := hw.timeout

theorem Waits.known_of_waiter (hw : Waits known stamped timeout h) {call : CallId}
    {entry : PendingRequest × MethodId × Instant} (hget : h.pendingCommands.get call = some entry) {tx : Sender}
    (hwaits : h.waiter entry.1 = some tx) : known tx := by
  obtain ⟨req, method, stamp⟩ := entry
  cases req with
  | navigate id =>
    obtain ⟨nav, hnav, rfl⟩ := Option.map_eq_some_iff.mp hwaits
    exact hw.navigations id nav hnav
  | internalCommand targetId => cases hwaits
  | _ => exact hw.senders call _ hget tx hwaits

/-- Requests and navigations that go, and what does not touch them. -/
theorem Waits.of_sub (hw : Waits known stamped timeout h) (hpending : h'.pendingCommands.Sub h.pendingCommands)
    (hnavigations : ∀ id nav, h'.navigations.get id = some nav →
      ∃ before, h.navigations.get id = some before ∧ before.tx = nav.tx)
    (hconfig : h'.config.requestTimeout = h.config.requestTimeout) : Waits known stamped timeout h' where
  stamps := fun call entry hget => hw.stamps call entry (hpending call entry hget)
  senders := fun call entry hget => hw.senders call entry (hpending call entry hget)
  navigations := by
    intro id nav hget
    obtain ⟨before, hbefore, htx⟩ := hnavigations id nav hget
    exact htx ▸ hw.navigations id before hbefore
  timeout := hconfig.trans hw.timeout

theorem Waits.of_same (hw : Waits known stamped timeout h) (hpending : h'.pendingCommands = h.pendingCommands)
    (hnavigations : h'.navigations = h.navigations) (hconfig : h'.config.requestTimeout = h.config.requestTimeout) :
    Waits known stamped timeout h' :=
  hw.of_sub (hpending ▸ Table.Sub.refl _) (fun _ nav hget => ⟨nav, hnavigations ▸ hget, rfl⟩) hconfig

theorem Waits.submit (hw : Waits known stamped timeout h) {now : Instant} (hnow : stamped now) (accepted : Bool)
    (req : Request) {pending : PendingRequest} (hpending : ∀ tx ∈ pending.sender?, known tx) :
    Waits known stamped timeout (h.submit accepted req pending now) := by
  cases accepted with
  | false => exact hw.of_same rfl rfl rfl
  | true =>
    have hset : ∀ call entry, (h.pendingCommands.set ⟨h.nextCallId⟩ (pending, req.method, now)).get call = some entry →
        entry = (pending, req.method, now) ∨ h.pendingCommands.get call = some entry := by
      intro call entry hget
      rw [Table.get_set] at hget
      split at hget
      · exact .inl (Option.some.inj hget).symm
      · exact .inr hget
    refine ⟨?_, ?_, hw.navigations, hw.timeout⟩
    · intro call entry hget
      obtain rfl | hold := hset call entry hget
      · exact hnow
      · exact hw.stamps call entry hold
    · intro call entry hget
      obtain rfl | hold := hset call entry hget
      · exact hpending
      · exact hw.senders call entry hold

theorem Waits.removePending (hw : Waits known stamped timeout h) (call : CallId) :
    Waits known stamped timeout { h with pendingCommands := h.pendingCommands.remove call } :=
  hw.of_sub (Table.remove_sub _ _) (fun _ nav hget => ⟨nav, hget, rfl⟩) rfl

theorem Waits.removeNavigation (hw : Waits known stamped timeout h) (id : NavigationId) :
    Waits known stamped timeout { h with navigations := h.navigations.remove id } :=
  hw.of_sub (Table.Sub.refl _) (fun x nav hget => ⟨nav, Table.remove_sub _ _ x nav hget, rfl⟩) rfl

theorem Waits.setNavigation (hw : Waits known stamped timeout h) (id : NavigationId) {nav : NavigationInProgress}
    (hnav : known nav.tx) : Waits known stamped timeout { h with navigations := h.navigations.set id nav } := by
  refine ⟨hw.stamps, hw.senders, ?_, hw.timeout⟩
  intro x nav' hget
  rw [Table.get_set] at hget
  split at hget
  · exact Option.some.inj hget ▸ hnav
  · exact hw.navigations x nav' hget

/-! ### One method at a time -/

theorem Waits.createPage (hw : Waits known stamped timeout h) {now : Instant} (hnow : stamped now) (accepted : Bool)
    (params : CreateTargetParams) {tx : Sender} (htx : known tx) :
    Waits known stamped timeout (h.createPage accepted params tx now) := by
  have hsubmitted : Waits known stamped timeout
      (h.submit accepted ⟨"Target.createTarget", none, params.value⟩ (.createTarget tx) now) :=
    hw.submit hnow accepted _ (by simpa [PendingRequest.sender?] using htx)
  simp only [Handler.createPage]
  split
  · split
    · exact hsubmitted
    · exact hsubmitted.of_same rfl rfl rfl
  · exact hw.of_same rfl rfl rfl

theorem Waits.onBrowserMessage (hw : Waits known stamped timeout h) {now : Instant} (hnow : stamped now)
    (accepted : Bool) (msg : HandlerMessage) (hmsg : ∀ tx ∈ msg.senders, known tx) :
    Waits known stamped timeout (h.onBrowserMessage accepted msg now) := by
  cases msg with
  | command cmd =>
    exact hw.submit hnow accepted cmd.split.1 (by simpa [PendingRequest.sender?, HandlerMessage.senders] using hmsg)
  | fetchTargets tx =>
    exact hw.submit hnow accepted _ (by simpa [PendingRequest.sender?, HandlerMessage.senders] using hmsg)
  | closeBrowser tx =>
    exact hw.submit hnow accepted _ (by simpa [PendingRequest.sender?, HandlerMessage.senders] using hmsg)
  | createPage params tx =>
    have htx : known tx := hmsg tx List.mem_cons_self
    simp only [Handler.onBrowserMessage]
    split
    · refine Waits.createPage ?_ hnow accepted params htx
      exact hw.of_same rfl rfl rfl
    · exact Waits.createPage hw hnow accepted params htx
  | _ => exact hw.of_same rfl rfl rfl

theorem Waits.onNavigationResponse (hw : Waits known stamped timeout h) (id : NavigationId) (resp : Response) :
    Waits known stamped timeout (h.onNavigationResponse id resp) := by
  simp only [Handler.onNavigationResponse]
  split
  · rename_i nav hget
    split
    · exact (hw.removeNavigation id).of_same rfl rfl rfl
    · exact (hw.removeNavigation id).setNavigation id (hw.navigations id nav hget)
  · exact hw

theorem Waits.onNavigationLifecycleCompleted (hw : Waits known stamped timeout h)
    (res : Except NavigationError NavigationOk) :
    Waits known stamped timeout (h.onNavigationLifecycleCompleted res) := by
  cases res with
  | error err =>
    simp only [Handler.onNavigationLifecycleCompleted]
    split
    · exact (hw.removeNavigation err.navigationId).of_same rfl rfl rfl
    · exact hw
  | ok ok =>
    simp only [Handler.onNavigationLifecycleCompleted]
    split
    · rename_i nav hget
      split
      · exact (hw.removeNavigation ok.navigationId).of_same rfl rfl rfl
      · exact (hw.removeNavigation ok.navigationId).setNavigation ok.navigationId
          (hw.navigations ok.navigationId nav hget)
    · exact hw

theorem Waits.onTargetCreated (hw : Waits known stamped timeout h) (targetInfo : TargetInfo) :
    Waits known stamped timeout (h.onTargetCreated targetInfo) := by
  obtain ⟨_, _, heq⟩ := h.onTargetCreated_same targetInfo
  rw [heq]
  exact hw.of_same rfl rfl rfl

theorem Waits.resolve (hw : Waits known stamped timeout h) (env : Env) (method : MethodId) (resp : Response)
    (pending : PendingRequest) : Waits known stamped timeout (h.resolve env method resp pending) := by
  cases pending with
  | createTarget tx =>
    simp only [Handler.resolve]
    split
    · split
      · exact hw.of_same rfl rfl rfl
      · exact hw.of_same rfl rfl rfl
    · exact hw.of_same rfl rfl rfl
  | getTargets tx =>
    simp only [Handler.resolve]
    split
    · rename_i targetInfos _
      have hcreated : Waits known stamped timeout (targetInfos.foldl Handler.onTargetCreated h) :=
        List.foldlRecOn targetInfos Handler.onTargetCreated hw fun _ hw info _ => Waits.onTargetCreated hw info
      exact hcreated.of_same rfl rfl rfl
    · exact hw.of_same rfl rfl rfl
  | navigate id => exact (Waits.onNavigationResponse hw id resp).of_same rfl rfl rfl
  | externalCommand tx targetId => exact hw.of_same rfl rfl rfl
  | internalCommand targetId => exact hw.of_same rfl rfl rfl
  | closeBrowser tx => exact hw.of_same rfl rfl rfl

theorem Waits.onResponse (hw : Waits known stamped timeout h) (env : Env) (resp : Response) :
    Waits known stamped timeout (h.onResponse env resp) := by
  simp only [Handler.onResponse]
  split
  · exact Waits.resolve (hw.removePending resp.id) env _ resp _
  · exact hw

theorem Waits.onTargetCrashed (hw : Waits known stamped timeout h) (debugTargetId : TargetId → String)
    (event : EventTargetCrashed) : Waits known stamped timeout (h.onTargetCrashed debugTargetId event) := by
  rw [onTargetCrashed_eq]
  refine hw.of_sub ?_ (fun _ nav hget => ⟨nav, hget, rfl⟩) rfl
  intro call entry hget
  dsimp only at hget
  rw [Table.get_foldl_remove] at hget
  split at hget
  · cases hget
  · exact hget

theorem Waits.onEvent (hw : Waits known stamped timeout h) (env : Env) (event : CdpEventMessage) :
    Waits known stamped timeout (h.onEvent env event) := by
  simp only [Handler.onEvent]
  split
  · exact hw.of_same rfl rfl rfl
  · split
    · exact Waits.onTargetCreated hw _
    · exact hw.of_same rfl rfl rfl
    · obtain ⟨_, _, _, heq⟩ := h.removeTarget_same _
      rw [onTargetDestroyed, heq]
      exact hw.of_same rfl rfl rfl
    · exact Waits.onTargetCrashed hw env.debugTargetId _
    · simp only [onDetachedFromTarget]
      split
      · exact hw.of_same rfl rfl rfl
      · exact hw
    · exact hw

theorem Waits.timeOut (hw : Waits known stamped timeout h) (call : CallId) :
    Waits known stamped timeout (h.timeOut call) := by
  simp only [Handler.timeOut]
  split
  · have hremoved := hw.removePending call
    split
    · exact hremoved.of_same rfl rfl rfl
    · exact hremoved.of_same rfl rfl rfl
    · split
      · exact (hremoved.removeNavigation _).of_same rfl rfl rfl
      · exact hremoved
    · exact hremoved.of_same rfl rfl rfl
    · exact hremoved
    · exact hremoved.of_same rfl rfl rfl
  · exact hw

theorem Waits.evict (hw : Waits known stamped timeout h) (now : Instant) :
    Waits known stamped timeout (h.evict now) := by
  have hevicted : Waits known stamped timeout (h.evictTimedOutCommands now) := by
    simp only [evictTimedOutCommands]
    split
    · exact hw
    · exact List.foldlRecOn _ Handler.timeOut hw fun _ hw call _ => Waits.timeOut hw call
  exact hevicted.of_same rfl rfl rfl

/-! ### A turn -/

theorem Waits.onNavigation (hw : Waits known stamped timeout h) {now : Instant} (hnow : stamped now) (accepted : Bool)
    (target : Target) {msg : CommandMessage} (hmsg : known msg.sender) :
    Waits known stamped timeout (h.onNavigation .run accepted target msg now).1 := by
  refine Waits.setNavigation ?_ ⟨h.nextNavigationId⟩ hmsg
  refine Waits.submit ?_ hnow accepted msg.split.1 (by simp [PendingRequest.sender?])
  exact hw.of_same rfl rfl rfl

theorem Waits.onTargetEvent (hw : Waits known stamped timeout h) {now : Instant} (hnow : stamped now) (accepted : Bool)
    (target : Target) (event : TargetEvent) (hevent : ∀ tx ∈ event.sender?, known tx) :
    Waits known stamped timeout (h.onTargetEvent .run accepted target event now).1 := by
  cases event with
  | request req => exact hw.submit hnow accepted req (by simp [PendingRequest.sender?])
  | navigationRequest id req => exact hw.submit hnow accepted req (by simp [PendingRequest.sender?])
  | navigationResult res => exact Waits.onNavigationLifecycleCompleted hw res
  | command msg =>
    have hmsg : known msg.sender := hevent msg.sender rfl
    simp only [Handler.onTargetEvent]
    split
    · exact Waits.onNavigation hw hnow accepted target hmsg
    · exact hw.submit hnow accepted msg.split.1 (by simpa [PendingRequest.sender?] using hmsg)
  | bytesConsumed bytes =>
    simp only [Handler.onTargetEvent]
    split
    · exact hw.of_same rfl rfl rfl
    · exact hw

/-- The senders of the commands that wait in the queues of the targets are known. -/
def QueuesKnown (known : Sender → Prop) (h : Handler) : Prop :=
  ∀ targetId target, h.targets.get targetId = some target → ∀ tx ∈ target.queuedSenders, known tx

theorem Waits.turn (hw : Waits known stamped timeout h) (hqueues : QueuesKnown known h) {now : Instant}
    (hnow : stamped now) (accepted : Bool) (targetId : TargetId) (env : Env) :
    Waits known stamped timeout (h.turn .run accepted targetId env now) := by
  cases htarget : h.targets.get targetId with
  | none =>
    rw [turn_of_none htarget]
    exact hw
  | some target =>
    cases hevent : (pollTarget .run target env now).event with
    | none =>
      rw [turn_of_idle htarget accepted hevent]
      exact hw.of_same rfl rfl rfl
    | some event =>
      have hsender : ∀ tx ∈ event.sender?, known tx := by
        intro tx htx
        apply hqueues targetId target htarget tx
        rw [target.queuedSenders_advance env now]
        have hpolled : (target.advance env now).event = some event := hevent
        rw [hpolled, Option.bind_some, htx]
        exact List.mem_cons_self
      rw [turn_of_event htarget accepted hevent]
      exact (Waits.onTargetEvent hw hnow accepted (pollTarget .run target env now).target event hsender).of_same rfl rfl rfl

/-! ### An input of the loop -/

/-- The senders that an input brings from outside, and the reading that it stamps with. -/
structure Brings (known : Sender → Prop) (stamped : Instant → Prop) (h : Handler) (input : HandlerInput) : Prop where
  message : ∀ accepted msg now, input = .browserMessage accepted msg now →
    stamped now ∧ ∀ tx ∈ msg.senders, known tx
  turn : ∀ accepted targetId env now, input = .turn accepted targetId env now → stamped now
  drained : ∀ targetId, input = .drainPage targetId → ∀ target, h.targets.get targetId = some target →
    ∀ tx ∈ target.drainedSenders, known tx

theorem Waits.step (hw : Waits known stamped timeout h) (hqueues : QueuesKnown known h) {input : HandlerInput}
    (hbrings : Brings known stamped h input) : Waits known stamped timeout (h.step .run input) := by
  cases input with
  | browserMessage accepted msg now =>
    obtain ⟨hnow, hmsg⟩ := hbrings.message accepted msg now rfl
    exact Waits.onBrowserMessage hw hnow accepted msg hmsg
  | pageMessage targetId msg => exact hw.of_same rfl rfl rfl
  | drainPage targetId => exact hw.of_same rfl rfl rfl
  | turn accepted targetId env now =>
    exact Waits.turn hw hqueues (hbrings.turn accepted targetId env now rfl) accepted targetId env
  | blockExhausted =>
    simp only [Handler.step, blockExhausted]
    split
    · exact hw.of_same rfl rfl rfl
    · exact hw
  | response env resp => exact Waits.onResponse hw env resp
  | event env event => exact Waits.onEvent hw env event
  | evict now => exact Waits.evict hw now

/-- Only a drain has a target take the messages of its page, and only a turn has it polled. -/
theorem input_of_delivered {targetId : TargetId} {input : HandlerInput} {delivered : TargetInput}
    (hdelivered : h.delivered .run targetId input = some delivered) :
    (delivered = .drained → input = .drainPage targetId) ∧
      ∀ driver env now id timeout, delivered = .polled driver env now id timeout → driver = .run := by
  cases input with
  | browserMessage accepted msg now =>
    cases msg with
    | getPages tx => grind [Handler.delivered]
    | getPage asked tx => grind [Handler.delivered]
    | _ => cases hdelivered
  | pageMessage asked msg => grind [Handler.delivered]
  | drainPage asked => grind [Handler.delivered]
  | turn accepted polled env now => grind [Handler.delivered]
  | blockExhausted => grind [Handler.delivered]
  | response env resp => grind [Handler.delivered]
  | event env event => grind [Handler.delivered]
  | evict now => grind [Handler.delivered]

theorem QueuesKnown.step (hqueues : QueuesKnown known h) {input : HandlerInput}
    (hbrings : Brings known stamped h input) : QueuesKnown known (h.step .run input) := by
  intro targetId target hget tx htx
  rw [get_step, placed] at hget
  split at hget
  · -- A target that is put in place afresh has nothing in its queue.
    rw [← Option.some.inj hget] at htx
    cases htx
  · split at hget
    · cases hget
    · obtain ⟨before, hbefore, rfl⟩ := Option.map_eq_some_iff.mp hget
      cases hdelivered : h.delivered .run targetId input with
      | none =>
        rw [hdelivered] at htx
        exact hqueues targetId before hbefore tx htx
      | some delivered =>
        rw [hdelivered] at htx
        obtain ⟨hdrain, hrun⟩ := input_of_delivered hdelivered
        obtain hold | ⟨hdrained, hnew⟩ := before.queuedSenders_take delivered hrun tx htx
        · exact hqueues targetId before hbefore tx hold
        · exact hbrings.drained targetId (hdrain hdrained) before hbefore tx hnew

/-! ### What an eviction answers -/

/-- Once a command is answered, who waits for another is still there, or was answered with it. -/
theorem waiter_timeOut {call : CallId} {entry : PendingRequest × MethodId × Instant}
    (hget : h.pendingCommands.get call = some entry) (req : PendingRequest) :
    (h.timeOut call).waiter req = h.waiter req ∨
      (h.timeOut call).waiter req = none ∧ h.waiter req = h.waiter entry.1 := by
  obtain ⟨pending, method, stamp⟩ := entry
  rw [timeOut, hget]
  cases pending with
  | navigate id =>
    dsimp only
    cases hnav : h.navigations.get id with
    | none => exact .inl (by cases req <;> rfl)
    | some nav =>
      cases req with
      | navigate other =>
        by_cases hsame : other = id
        · subst hsame
          right
          simp [waiter, send]
        · left
          simp [waiter, send, Table.get_remove_of_ne _ hsame]
      | _ => exact .inl rfl
  | _ => exact .inl (by cases req <;> rfl)

theorem timeOut_answers {call : CallId} {entry : PendingRequest × MethodId × Instant}
    (hget : h.pendingCommands.get call = some entry) :
    ∃ answers, (h.timeOut call).replies = h.replies ++ answers ∧
      answers.map Prod.fst = (h.waiter entry.1).toList := by
  obtain ⟨pending, method, stamp⟩ := entry
  rw [timeOut, hget]
  cases pending with
  | navigate id =>
    dsimp only
    cases hnav : h.navigations.get id with
    | none => exact ⟨[], (List.append_nil _).symm, by simp [waiter, hnav]⟩
    | some nav => exact ⟨_, rfl, by simp [waiter, hnav]⟩
  | internalCommand targetId => exact ⟨[], (List.append_nil _).symm, rfl⟩
  | _ => exact ⟨_, rfl, rfl⟩

theorem pendingCommands_timeOut (h : Handler) (call : CallId) :
    (h.timeOut call).pendingCommands = h.pendingCommands.remove call := by
  simp only [timeOut]
  split
  · split
    · rfl
    · rfl
    · split
      · rfl
      · rfl
    · rfl
    · rfl
    · rfl
  · rename_i hnone
    exact (Table.remove_of_get_eq_none hnone).symm

theorem foldl_timeOut (entries : List (CallId × PendingRequest × MethodId × Instant))
    (hnodup : (entries.map Prod.fst).Nodup)
    (hentries : ∀ entry ∈ entries, h.pendingCommands.get entry.1 = some entry.2) :
    ∃ answers, ((entries.map Prod.fst).foldl timeOut h).replies = h.replies ++ answers ∧
      ∀ tx, tx ∈ answers.map Prod.fst ↔ ∃ entry ∈ entries, h.waiter entry.2.1 = some tx := by
  induction entries generalizing h with
  | nil => exact ⟨[], (List.append_nil _).symm, by simp⟩
  | cons entry rest ih =>
    obtain ⟨hnew, hrest⟩ := List.nodup_cons.mp hnodup
    have hget := hentries entry List.mem_cons_self
    have hothers : ∀ other ∈ rest, (h.timeOut entry.1).pendingCommands.get other.1 = some other.2 := by
      intro other hother
      have hne : other.1 ≠ entry.1 := fun heq => hnew (heq ▸ List.mem_map_of_mem hother)
      rw [pendingCommands_timeOut, Table.get_remove_of_ne _ hne]
      exact hentries other (List.mem_cons_of_mem _ hother)
    obtain ⟨first, hfirst, hsenders⟩ := timeOut_answers hget
    obtain ⟨later, hlater, hwaiters⟩ := ih hrest hothers
    refine ⟨first ++ later, ?_, ?_⟩
    · rw [List.map_cons, List.foldl_cons, hlater, hfirst, List.append_assoc]
    · intro tx
      rw [List.map_append, List.mem_append, hsenders, hwaiters, Option.mem_toList, List.exists_mem_cons_iff]
      constructor
      · intro hanswered
        obtain hfirst | ⟨other, hother, hwaits⟩ := hanswered
        · exact .inl hfirst
        · obtain hsame | ⟨hnone, _⟩ := waiter_timeOut hget other.2.1
          · exact .inr ⟨other, hother, hsame ▸ hwaits⟩
          · rw [hnone] at hwaits
            cases hwaits
      · intro hwaiting
        obtain hfirst | ⟨other, hother, hwaits⟩ := hwaiting
        · exact .inl hfirst
        · obtain hsame | ⟨_, hboth⟩ := waiter_timeOut hget other.2.1
          · exact .inr ⟨other, hother, hsame.trans hwaits⟩
          · exact .inl (hboth.symm.trans hwaits)

/-- An eviction answers whoever waits for a command that was stamped before its deadline, and nobody else. -/
theorem evict_answers (h : Handler) (now : Instant) :
    ∃ answers, (h.evict now).replies = h.replies ++ answers ∧
      ∀ tx, tx ∈ answers.map Prod.fst ↔ ∃ call entry, h.pendingCommands.get call = some entry ∧
        entry.2.2 + h.config.requestTimeout < now ∧ h.waiter entry.1 = some tx := by
  have hsame : (h.evict now).replies = (h.evictTimedOutCommands now).replies := rfl
  rw [hsame, evictTimedOutCommands]
  split
  · rename_i hearly
    refine ⟨[], (List.append_nil _).symm, fun tx => iff_of_false (by simp) ?_⟩
    intro hwaiting
    obtain ⟨call, entry, _, hstamp, _⟩ := hwaiting
    exact Nat.lt_asymm hearly (Nat.lt_of_le_of_lt (Nat.le_add_left _ _) hstamp)
  · have hentries : ∀ entry ∈ h.pendingCommands.toList.filter
        (fun entry => decide (entry.2.2.2 < now - h.config.requestTimeout)),
        h.pendingCommands.get entry.1 = some entry.2 := by
      intro entry hentry
      exact (Table.mem_toList _ _ _).mp (List.mem_of_mem_filter hentry)
    obtain ⟨answers, hreplies, hanswers⟩ := foldl_timeOut _
      (h.pendingCommands.nodup_toList_keys.sublist (List.filter_sublist.map _)) hentries
    refine ⟨answers, hreplies, ?_⟩
    intro tx
    rw [hanswers]
    constructor
    · intro hwaiting
      obtain ⟨entry, hentry, hwaits⟩ := hwaiting
      have hstamp : entry.2.2.2 < now - h.config.requestTimeout := of_decide_eq_true (List.mem_filter.mp hentry).2
      exact ⟨entry.1, entry.2, hentries entry hentry, Nat.lt_sub_iff_add_lt.mp hstamp, hwaits⟩
    · intro hwaiting
      obtain ⟨call, entry, hget, hstamp, hwaits⟩ := hwaiting
      refine ⟨(call, entry), List.mem_filter.mpr ⟨(Table.mem_toList _ _ _).mpr hget, ?_⟩, hwaits⟩
      exact decide_eq_true (Nat.lt_sub_iff_add_lt.mpr hstamp)

end Handler

/-! ### What the loop does to the handler -/

/-- An input of the loop does to the handler what an input of the handler does, or nothing. -/
theorem RunLoop.handler_step (s : RunLoop) (input : RunInput) :
    (s.step input).handler = s.handler ∨ ∃ done, (s.step input).handler = s.handler.step .run done ∧
      (∀ accepted msg now, done = .browserMessage accepted msg now →
        input = .arm (.browserMessage accepted msg now) ∧ s.phase = .select) ∧
      (∀ accepted targetId env now, done = .turn accepted targetId env now →
        input = .turn accepted targetId env now) ∧
      ∀ targetId, done = .drainPage targetId →
        input = .visit targetId ∧ ∃ toVisit, s.phase = .pass toVisit ∧ targetId ∈ toVisit := by
  cases input with
  | push targetId msg =>
    simp only [step]
    split
    · exact .inr ⟨.pageMessage targetId msg, rfl, (by simp), (by simp), (by simp)⟩
    · exact .inl rfl
  | notify send =>
    simp only [step]
    split
    · exact .inl rfl
    · exact .inl rfl
  | visit targetId =>
    simp only [step]
    split
    · rename_i toVisit hphase
      split
      · rename_i hmem
        refine .inr ⟨.drainPage targetId, rfl, (by simp), (by simp), ?_⟩
        intro other hother
        obtain rfl := HandlerInput.drainPage.inj hother
        exact ⟨rfl, toVisit, hphase, hmem⟩
      · exact .inl rfl
    · exact .inl rfl
  | turn accepted targetId env now =>
    simp only [step]
    split
    · refine .inr ⟨.turn accepted targetId env now, rfl, (by simp), ?_, (by simp)⟩
      intro accepted' targetId' env' now' heq
      cases heq
      rfl
    · exact .inl rfl
  | endPass =>
    simp only [step]
    split
    · exact .inr ⟨.blockExhausted, rfl, (by simp), (by simp), (by simp)⟩
    · exact .inl rfl
  | wake =>
    simp only [step]
    split
    · exact .inl rfl
    · exact .inl rfl
  | arm done =>
    simp only [step]
    split
    · rename_i hphase harm
      refine .inr ⟨done, rfl, ?_, ?_, ?_⟩
      · intro accepted msg now heq
        exact ⟨heq ▸ rfl, hphase⟩
      · intro accepted targetId env now heq
        rw [heq] at harm
        cases harm
      · intro targetId heq
        rw [heq] at harm
        cases harm
    · exact .inl rfl
  | leave =>
    simp only [step]
    split
    · exact .inl rfl
    · exact .inl rfl

namespace RunInput

variable {input : RunInput} {now read : Instant}

theorem at_eq_browserMessage {accepted : Bool} {msg : HandlerMessage}
    (h : input.at now = .arm (.browserMessage accepted msg read)) :
    read = now ∧ ∃ unread, input = .arm (.browserMessage accepted msg unread) := by
  cases input with
  | arm done =>
    cases done with
    | browserMessage accepted' msg' unread =>
      cases h
      exact ⟨rfl, unread, rfl⟩
    | _ => cases h
  | _ => cases h

theorem at_eq_turn {accepted : Bool} {targetId : TargetId} {env : Env}
    (h : input.at now = .turn accepted targetId env read) : read = now := by
  cases input with
  | turn accepted' targetId' env' unread =>
    cases h
    rfl
  | arm done =>
    cases done with
    | _ => cases h
  | _ => cases h

theorem at_eq_visit {targetId : TargetId} (h : input.at now = .visit targetId) : input = .visit targetId := by
  cases input with
  | visit other => exact h
  | arm done =>
    cases done with
    | _ => cases h
  | _ => cases h

end RunInput

namespace TimedLoop

variable {nextDue : Instant → Instant → Instant} {s : TimedLoop} {x : TimedInput} {timeout : Duration}

/-! ### Stamps and moments -/

def Taken (s : TimedLoop) (tx : Sender) : Prop := (s.taken tx).isSome = true

/-- A reading of the clock so far: whatever was taken from a channel was taken in a turn that began no earlier, or before the reading. -/
def Stamped (s : TimedLoop) (stamp : Instant) : Prop :=
  stamp ≤ s.now ∧ ∀ tx taking, s.taken tx = some taking → stamp ≤ taking.turn ∨ taking.moment ≤ stamp

/-- Who waits in the handler was taken from a channel, and what was taken in an earlier turn was taken before this one. -/
structure Clocked (timeout : Duration) (s : TimedLoop) : Prop where
  waits : s.loop.handler.Waits s.Taken s.Stamped timeout
  queues : s.loop.handler.QueuesKnown s.Taken
  past : s.now ≤ s.moment
  turns : ∀ tx taking, s.taken tx = some taking → taking.turn ≤ s.now
  moments : ∀ tx taking, s.taken tx = some taking → taking.moment ≤ s.moment
  earlier : ∀ tx taking, s.taken tx = some taking → taking.turn = s.now ∨ taking.moment ≤ s.now

theorem clocked_start (config : HandlerConfig) (made : Instant) (untilRead : Duration) :
    Clocked config.requestTimeout (start config made untilRead) := by
  have hnone : ∀ tx taking, (start config made untilRead).taken tx ≠ some taking := fun _ _ => nofun
  refine ⟨⟨?_, ?_, ?_, rfl⟩, ?_, Nat.le_refl _, ?_, ?_, ?_⟩
  · intro call entry hget
    cases hget
  · intro call entry hget
    cases hget
  · intro id nav hget
    cases hget
  · intro targetId target hget
    cases hget
  · intro tx taking hget
    exact absurd hget (hnone tx taking)
  · intro tx taking hget
    exact absurd hget (hnone tx taking)
  · intro tx taking hget
    exact absurd hget (hnone tx taking)

/-- The times after an input, whether it begins a turn or not. -/
theorem advance_times (s : TimedLoop) (x : TimedInput) :
    (s.advance x).now = s.now ∧ (s.advance x).moment = s.moment + x.wait ∨
      s.moment + x.wait ≤ (s.advance x).now ∧ (s.advance x).moment = (s.advance x).now := by
  simp only [advance]
  split
  · exact .inr ⟨Nat.le_add_right _ _, rfl⟩
  · exact .inl ⟨rfl, rfl⟩

theorem Clocked.now_le_advance (h : Clocked timeout s) (x : TimedInput) : s.now ≤ (s.advance x).now := by
  obtain ⟨hsame, _⟩ | ⟨hlater, _⟩ := s.advance_times x
  · exact Nat.le_of_eq hsame.symm
  · exact Nat.le_trans (Nat.le_trans h.past (Nat.le_add_right _ _)) hlater

theorem taken_advance {tx : Sender} {taking : Taking} (hget : (s.advance x).taken tx = some taking) :
    taking = ⟨s.now, s.moment + x.wait⟩ ∨ s.taken tx = some taking := by
  simp only [advance] at hget
  split at hget
  · exact .inl (Option.some.inj hget).symm
  · exact .inr hget

theorem taken_of_takes {tx : Sender} (h : tx ∈ s.loop.takes x.input) : (s.advance x).Taken tx := by
  simp only [Taken, advance, if_pos h, Option.isSome_some]

theorem Taken.advance {tx : Sender} (h : s.Taken tx) (x : TimedInput) : (s.advance x).Taken tx := by
  simp only [Taken, TimedLoop.advance]
  split
  · rfl
  · exact h

theorem Clocked.stamped_advance (h : Clocked timeout s) {stamp : Instant} (hstamp : s.Stamped stamp) :
    (s.advance x).Stamped stamp := by
  refine ⟨Nat.le_trans hstamp.1 (h.now_le_advance x), ?_⟩
  intro tx taking hget
  obtain rfl | hold := taken_advance hget
  · exact .inl hstamp.1
  · exact hstamp.2 tx taking hold

theorem Clocked.stamped_now (h : Clocked timeout s) : s.Stamped s.now := by
  refine ⟨Nat.le_refl _, ?_⟩
  intro tx taking hget
  obtain hturn | hmoment := h.earlier tx taking hget
  · exact .inl (Nat.le_of_eq hturn.symm)
  · exact .inr hmoment

theorem Clocked.brings (h : Clocked timeout s) {done : HandlerInput}
    (hmessage : ∀ accepted msg now, done = .browserMessage accepted msg now →
      x.input.at s.now = .arm (.browserMessage accepted msg now) ∧ s.loop.phase = .select)
    (hturn : ∀ accepted targetId env now, done = .turn accepted targetId env now →
      x.input.at s.now = .turn accepted targetId env now)
    (hdrained : ∀ targetId, done = .drainPage targetId →
      x.input.at s.now = .visit targetId ∧ ∃ toVisit, s.loop.phase = .pass toVisit ∧ targetId ∈ toVisit) :
    Handler.Brings (s.advance x).Taken (s.advance x).Stamped s.loop.handler done := by
  have hstamped := h.stamped_advance (x := x) h.stamped_now
  refine ⟨?_, ?_, ?_⟩
  · intro accepted msg now hdone
    obtain ⟨hinput, hphase⟩ := hmessage accepted msg now hdone
    obtain ⟨rfl, unread, hunread⟩ := RunInput.at_eq_browserMessage hinput
    refine ⟨hstamped, ?_⟩
    intro tx htx
    apply taken_of_takes
    rw [hunread, RunLoop.takes, hphase]
    exact htx
  · intro accepted targetId env now hdone
    obtain rfl := RunInput.at_eq_turn (hturn accepted targetId env now hdone)
    exact hstamped
  · intro targetId hdone target htarget tx htx
    obtain ⟨hinput, toVisit, hphase, hmem⟩ := hdrained targetId hdone
    apply taken_of_takes
    rw [RunInput.at_eq_visit hinput, RunLoop.takes, hphase]
    dsimp only
    rw [if_pos hmem, Handler.waitingAt, htarget]
    exact htx

theorem Clocked.advance (h : Clocked timeout s) (x : TimedInput) : Clocked timeout (s.advance x) := by
  have hnow := h.now_le_advance x
  have hmoment : s.moment + x.wait ≤ (s.advance x).moment := by
    obtain ⟨_, hsame⟩ | ⟨hlater, hsame⟩ := s.advance_times x
    · exact Nat.le_of_eq hsame.symm
    · exact hsame ▸ hlater
  have hwaits : s.loop.handler.Waits (s.advance x).Taken (s.advance x).Stamped timeout :=
    h.waits.mono (fun tx htx => htx.advance x) fun stamp hstamp => h.stamped_advance hstamp
  have hqueues : s.loop.handler.QueuesKnown (s.advance x).Taken :=
    fun targetId target hget tx htx => (h.queues targetId target hget tx htx).advance x
  have hkept : (s.advance x).loop.handler.Waits (s.advance x).Taken (s.advance x).Stamped timeout ∧
      (s.advance x).loop.handler.QueuesKnown (s.advance x).Taken := by
    obtain hsame | ⟨done, hdone, hmessage, hturn, hdrained⟩ := s.loop.handler_step (x.input.at s.now)
    · have hsame : (s.advance x).loop.handler = s.loop.handler := hsame
      rw [hsame]
      exact ⟨hwaits, hqueues⟩
    · have hdone : (s.advance x).loop.handler = s.loop.handler.step .run done := hdone
      have hbrings := h.brings hmessage hturn hdrained
      rw [hdone]
      exact ⟨hwaits.step hqueues hbrings, hqueues.step hbrings⟩
  refine ⟨hkept.1, hkept.2, ?_, ?_, ?_, ?_⟩
  · obtain ⟨hsame, hpasses⟩ | ⟨_, hsame⟩ := s.advance_times x
    · rw [hsame, hpasses]
      exact Nat.le_trans h.past (Nat.le_add_right _ _)
    · exact Nat.le_of_eq hsame.symm
  · intro tx taking hget
    obtain rfl | hold := taken_advance hget
    · exact hnow
    · exact Nat.le_trans (h.turns tx taking hold) hnow
  · intro tx taking hget
    obtain rfl | hold := taken_advance hget
    · exact hmoment
    · exact Nat.le_trans (h.moments tx taking hold) (Nat.le_trans (Nat.le_add_right _ _) hmoment)
  · intro tx taking hget
    obtain ⟨hsame, _⟩ | ⟨hlater, _⟩ := s.advance_times x
    · rw [hsame]
      obtain rfl | hold := taken_advance hget
      · exact .inl rfl
      · exact h.earlier tx taking hold
    · right
      obtain rfl | hold := taken_advance hget
      · exact hlater
      · exact Nat.le_trans (h.moments tx taking hold) (Nat.le_trans (Nat.le_add_right _ _) hlater)

theorem Clocked.step (h : Clocked timeout s) (x : TimedInput) : Clocked timeout (s.step nextDue x) := by
  have hadvanced := h.advance x
  unfold TimedLoop.step
  split
  · exact ⟨hadvanced.waits, hadvanced.queues, hadvanced.past, hadvanced.turns, hadvanced.moments, hadvanced.earlier⟩
  · split
    · have hlater : s.moment ≤ s.moment + x.wait := Nat.le_add_right _ _
      refine ⟨h.waits, h.queues, Nat.le_trans h.past hlater, h.turns, ?_, h.earlier⟩
      intro tx taking hget
      exact Nat.le_trans (h.moments tx taking hget) hlater
    · exact hadvanced

/-! ### Timeouts on time -/

/-- Everybody whom an eviction has answered had been taken from a channel, at least the timeout before. -/
def OnTime (timeout : Duration) (s : TimedLoop) : Prop :=
  ∀ expiry ∈ s.expired, ∃ taking, expiry.taking = some taking ∧ taking.moment + timeout ≤ expiry.moment

/-- When the timer ticks, a command that still waits and was stamped no later than in the turn in which it was taken from its channel was either taken long enough ago, or that turn and the present one began within the timeout. -/
def Heeds (timeout : Duration) (s : TimedLoop) (x : TimedInput) : Prop :=
  s.ticks x = true → ∀ call entry tx taking, s.loop.handler.pendingCommands.get call = some entry →
    s.loop.handler.waiter entry.1 = some tx → s.taken tx = some taking → entry.2.2 ≤ taking.turn →
      taking.moment + timeout ≤ s.moment + x.wait ∨ s.now ≤ entry.2.2 + timeout

theorem handler_of_ticks (htick : s.ticks x = true) : (s.advance x).loop.handler = s.loop.handler.evict s.now := by
  obtain ⟨wait, input, untilRead⟩ := x
  obtain ⟨htimer, _⟩ := Bool.and_eq_true_iff.mp htick
  obtain ⟨hinput, hselect⟩ := Bool.and_eq_true_iff.mp htimer
  have hphase : s.loop.phase = .select := of_decide_eq_true hselect
  cases input with
  | arm done =>
    cases done with
    | evict unread =>
      show (s.loop.step (.arm (.evict s.now))).handler = s.loop.handler.evict s.now
      simp only [RunLoop.step, hphase, HandlerInput.isArm]
      rfl
    | _ => cases hinput
  | _ => cases hinput

/-- What a tick answers are the commands that were stamped more than the timeout before this turn. -/
theorem mem_expiries (h : Clocked timeout s) (htick : s.ticks x = true) (expiry : Expiry) :
    expiry ∈ s.expiries x ↔ (∃ call entry, s.loop.handler.pendingCommands.get call = some entry ∧
      entry.2.2 + timeout < s.now ∧ s.loop.handler.waiter entry.1 = some expiry.tx) ∧
      expiry = ⟨expiry.tx, s.taken expiry.tx, s.moment + x.wait⟩ := by
  obtain ⟨answers, hreplies, hanswers⟩ := s.loop.handler.evict_answers s.now
  rw [expiries, handler_of_ticks htick, hreplies, List.drop_left, ← h.waits.timeout, ← hanswers, List.mem_map,
    List.mem_map]
  constructor
  · intro hmem
    obtain ⟨reply, hreply, rfl⟩ := hmem
    exact ⟨⟨reply, hreply, rfl⟩, rfl⟩
  · intro hmem
    obtain ⟨⟨reply, hreply, htx⟩, heq⟩ := hmem
    exact ⟨reply, hreply, by rw [htx, ← heq]⟩

/-- A tick answers nobody too early exactly if it is heeded: a command that was stamped in a later turn than the one in which it was taken waits for long enough anyway. -/
theorem onTime_step (h : Clocked timeout s) (honTime : OnTime timeout s) (x : TimedInput) :
    OnTime timeout (s.step nextDue x) ↔ Heeds timeout s x := by
  have hquiet : s.ticks x = false → (OnTime timeout (s.step nextDue x) ↔ Heeds timeout s x) := by
    intro hquiet
    refine iff_of_true ?_ fun htick => absurd (hquiet.symm.trans htick) nofun
    have hexpired : (s.step nextDue x).expired = s.expired := by
      rw [TimedLoop.step, hquiet]
      simp only [Bool.false_eq_true, if_false]
      split
      · rfl
      · rfl
    rw [OnTime, hexpired]
    exact honTime
  cases htick : s.ticks x with
  | false => exact hquiet htick
  | true =>
    have hexpired : (s.step nextDue x).expired = s.expired ++ s.expiries x := by rw [TimedLoop.step, if_pos htick]
    constructor
    · intro hkept _ call entry tx taking hget hwaits htaken _
      by_cases hsoon : s.now ≤ entry.2.2 + timeout
      · exact .inr hsoon
      · left
        have hmem : (⟨tx, s.taken tx, s.moment + x.wait⟩ : Expiry) ∈ s.expiries x :=
          (mem_expiries h htick _).mpr ⟨⟨call, entry, hget, Nat.lt_of_not_le hsoon, hwaits⟩, rfl⟩
        obtain ⟨taking', htaking', hlong⟩ := hkept _ (hexpired ▸ List.mem_append_right _ hmem)
        obtain rfl := Option.some.inj (htaken.symm.trans htaking')
        exact hlong
    · intro hheeds expiry hmem
      rw [hexpired] at hmem
      obtain hold | hnew := List.mem_append.mp hmem
      · exact honTime expiry hold
      · obtain ⟨⟨call, entry, hget, hstamp, hwaits⟩, heq⟩ := (mem_expiries h htick expiry).mp hnew
        obtain ⟨taking, htaking⟩ := Option.isSome_iff_exists.mp (h.waits.known_of_waiter hget hwaits)
        rw [heq]
        refine ⟨taking, htaking, ?_⟩
        obtain hsame | hlater := (h.waits.stamps call entry hget).2 _ taking htaking
        · exact (hheeds htick call entry _ taking hget hwaits htaking hsame).resolve_right (Nat.not_le_of_lt hstamp)
        · -- The stamp is later than the moment, and this turn more than the timeout after the stamp.
          have hturn : taking.moment + timeout ≤ s.now :=
            Nat.le_trans (Nat.add_le_add_right hlater timeout) (Nat.le_of_lt hstamp)
          exact Nat.le_trans hturn (Nat.le_trans h.past (Nat.le_add_right _ _))

/-- In a run of the loop nobody is told of a timeout too early exactly if each tick of the eviction timer, whenever it comes, finds that the commands which wait, and were stamped in the turn in which they were taken from their channels, were taken long enough before it, or else in a turn that began no more than the timeout before the present one. -/
theorem timeouts_on_time_iff (nextDue : Instant → Instant → Instant) (config : HandlerConfig) (made : Instant)
    (untilRead : Duration) (inputs : List TimedInput) :
    Run.Always (step nextDue) (OnTime config.requestTimeout) (start config made untilRead) inputs ↔
      Run.Allowed (step nextDue) (Heeds config.requestTimeout) (start config made untilRead) inputs := by
  refine Run.always_iff_allowed (fun s _ => Clocked config.requestTimeout s) ?_ ?_ ?_ ?_
  · exact fun s input _ h => h.step input
  · exact fun s input _ h honTime => onTime_step h honTime input
  · exact clocked_start config made untilRead
  · exact fun expiry hmem => absurd hmem List.not_mem_nil

/-! ### A command that comes late in a turn -/

/-- The browser handle sends a command when the loop has waited for a little more than the timeout, just before the timer ticks. -/
def lateCommand : List TimedInput :=
  [⟨0, .endPass, 0⟩,
    ⟨30000000001, .arm (.browserMessage true (.command ⟨"Browser.getVersion", none, .object [], ⟨0⟩⟩) 0), 0⟩,
    ⟨0, .endPass, 0⟩, ⟨0, .arm (.evict 0), 0⟩]

/-- The loop after that. The timer is due again the timeout after each tick. -/
def lateLoop : TimedLoop :=
  Run.final (step fun _ ticked => ticked + Handler.plainConfig.requestTimeout) (start Handler.plainConfig 0 0) lateCommand

/-- The command is answered with a timeout at the very moment at which it was taken from its channel. -/
theorem lateCommand_times_out :
    lateLoop.expired = [⟨⟨0⟩, some ⟨0, 30000000001⟩, 30000000001⟩] ∧
      lateLoop.loop.handler.replies = [(⟨0⟩, .response (.error .timeout))] ∧
      ¬OnTime Handler.plainConfig.requestTimeout lateLoop := by
  have hexpired : lateLoop.expired = [⟨⟨0⟩, some ⟨0, 30000000001⟩, 30000000001⟩] := by decide +kernel
  refine ⟨hexpired, rfl, ?_⟩
  intro honTime
  obtain ⟨taking, htaking, hlong⟩ := honTime _ (hexpired ▸ List.mem_cons_self)
  obtain rfl := Option.some.inj htaking
  exact absurd hlong (by decide)

end TimedLoop

end SpiderChrome
