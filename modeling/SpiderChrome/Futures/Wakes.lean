import SpiderChrome.Futures.Delivery

/-!
# No lost wake-ups

A poll that returns with nothing has left its waker with all that could let it get on: the place in line or the answer, and the timer. `Parks` says which wakers these are. As long as none of them has fired a poll would change nothing, so an executor that polls only what was woken loses nothing, and what it was woken for is there when it polls.
-/

namespace SpiderChrome

namespace Futures

variable {T : Type}

/-! ### What a future waits for -/

def Delivery.Parks (f : Delivery) (wakers : List Waker) : Prop :=
  match f.parcel with
  | .message _ => False
  | .sendFut _ queued => queued = true ∧ wakers = [.room f.tx, .timer f.delay]
  | .delivered => wakers = [.timer f.delay, .answer f.tx]

def Sending.Parks (tx : Sender) (wakers : List Waker) : Sending → Prop
  | start _ => False
  | send _ queued deadline => queued = true ∧ wakers = [.room tx, .timer deadline]

def Exchange.Parks (f : Exchange) (wakers : List Waker) : Prop :=
  match f.state with
  | .sending sending => sending.Parks f.tx wakers
  | .receiving deadline => wakers = [.answer f.tx, .timer deadline]

def HttpFuture.Parks (f : HttpFuture T) (wakers : List Waker) : Prop :=
  match f.command with
  | some command => command.delivery.Parks wakers
  | none => f.navigation.delivery.Parks wakers

def Execute.Parks (f : Execute T) (wakers : List Waker) : Prop :=
  match f.exchange with
  | .ok exchange => exchange.Parks wakers
  | .error _ => False

def Future.Parks (wakers : List Waker) : Future T → Prop
  | command f => f.delivery.Parks wakers
  | wait f => f.delivery.Parks wakers
  | http f => f.Parks wakers
  | execute f => f.Parks wakers
  | ask f => f.Parks wakers
  | tell f => f.sending.Parks f.tx wakers

/-- None of them has fired. -/
def Scene.Quiet (s : Scene) (wakers : List Waker) : Prop := ∀ waker ∈ wakers, s.ready waker = false

variable {s : Scene} {mailbox : PageMailbox} {wakers : List Waker} {tx : Sender}

theorem quiet_pair {first second : Waker} :
    s.Quiet [first, second] ↔ s.ready first = false ∧ s.ready second = false := by
  simp [Scene.Quiet]

theorem ready_timer {deadline : Instant} : s.ready (.timer deadline) = false ↔ ¬ deadline ≤ s.now := by
  simp [Scene.ready]

theorem ready_answer : s.ready (.answer tx) = false ↔ s.answers tx = .waiting := by
  rw [Scene.ready]
  split
  · rename_i hanswer
    exact iff_of_true rfl hanswer
  · rename_i hanswer
    exact iff_of_false (by simp) hanswer

namespace Piece

variable {F F' R R' : Type}

/-- The poll returns without a result. -/
def isPending : Piece F R → Bool
  | pending _ _ _ => true
  | _ => false

theorem map_eq_pending {f : F → F'} {r : R → R'} {piece : Piece F R} {next : F'}
    (h : piece.map f r = .pending mailbox next wakers) :
    ∃ future, piece = .pending mailbox future wakers ∧ next = f future := by
  cases piece with
  | goesOn mailbox future => cases h
  | pending mailbox future wakers =>
    cases h
    exact ⟨future, rfl, rfl⟩
  | ready mailbox result => cases h

@[simp] theorem isPending_map (f : F → F') (r : R → R') (piece : Piece F R) :
    (piece.map f r).isPending = piece.isPending := by
  cases piece with
  | goesOn mailbox future => rfl
  | pending mailbox future wakers => rfl
  | ready mailbox result => rfl

end Piece

/-! ### The two ways to wait -/

/-- Whoever has just got in line has not been served. -/
theorem not_served_of_waits {msg : TargetMessage} {queued : Bool}
    (h : s.mailbox.pollSend tx msg queued = .waits mailbox) (hline : tx ∈ s.mailbox.line ↔ queued = true) :
    mailbox.served tx = false := by
  obtain ⟨hopen, ⟨-, hgranted, rfl⟩ | ⟨hqueued, -, rfl⟩⟩ := Mailbox.pollSend_eq_waits h
  · simp [Mailbox.served, hopen, hgranted]
  · have hgranted : tx ∉ s.mailbox.channel.granted := by
      intro hin
      have hqueue := hline.1 (List.mem_append_left _ hin)
      rw [hqueued] at hqueue
      cases hqueue
    simp [Mailbox.served, hopen, Channel.enqueue, hgranted]

/-- Whoever has been served does not wait on. -/
theorem pollSend_of_served {msg : TargetMessage} (h : s.mailbox.served tx = true) :
    s.mailbox.pollSend tx msg true ≠ .waits mailbox := by
  intro hwaits
  obtain ⟨hopen, ⟨-, hgranted, -⟩ | ⟨hfalse, -, -⟩⟩ := Mailbox.pollSend_eq_waits hwaits
  · simp [Mailbox.served, hopen, hgranted] at h
  · cases hfalse

namespace Delivery

variable {f g : Delivery}

theorem parks_of_pending (h : f.poll s = .pending mailbox g wakers)
    (hline : f.tx ∈ s.mailbox.line ↔ f.parcel.isQueued = true) :
    g.Parks wakers ∧ Scene.Quiet { s with mailbox := mailbox } wakers := by
  obtain ⟨tx, parcel, delay⟩ := f
  cases parcel with
  | message msg =>
    simp only [Delivery.poll] at h
    split at h
    · cases h
    · cases h
    · cases h
  | sendFut msg queued =>
    simp only [Delivery.poll] at h
    split at h
    · cases h
    · rename_i hwaits
      split at h
      · cases h
      · rename_i hearly
        cases h
        exact ⟨⟨rfl, rfl⟩, quiet_pair.2 ⟨not_served_of_waits hwaits hline, ready_timer.2 hearly⟩⟩
    · cases h
  | delivered =>
    simp only [Delivery.poll] at h
    split at h
    · cases h
    · rename_i hearly
      split at h
      · cases h
      · cases h
      · rename_i hanswer
        cases h
        exact ⟨rfl, quiet_pair.2 ⟨ready_timer.2 hearly, ready_answer.2 hanswer⟩⟩

theorem poll_of_parks (h : f.Parks wakers) (hquiet : s.Quiet wakers) : f.poll s = .pending s.mailbox f wakers := by
  obtain ⟨tx, parcel, delay⟩ := f
  cases parcel with
  | message msg => cases h
  | sendFut msg queued =>
    obtain ⟨rfl, rfl⟩ : queued = true ∧ wakers = [.room tx, .timer delay] := h
    obtain ⟨hserved, hearly⟩ := quiet_pair.1 hquiet
    simp only [Delivery.poll, Mailbox.pollSend_of_not_served hserved, if_neg (ready_timer.1 hearly)]
  | delivered =>
    obtain rfl : wakers = [.timer delay, .answer tx] := h
    obtain ⟨hearly, hanswer⟩ := quiet_pair.1 hquiet
    simp only [Delivery.poll, ready_answer.1 hanswer, if_neg (ready_timer.1 hearly)]

theorem not_pending_of_parks (h : f.Parks wakers) (hfired : ¬ s.Quiet wakers) : (f.poll s).isPending = false := by
  by_contra hpending
  obtain ⟨tx, parcel, delay⟩ := f
  cases parcel with
  | message msg => cases h
  | sendFut msg queued =>
    obtain ⟨rfl, rfl⟩ : queued = true ∧ wakers = [.room tx, .timer delay] := h
    simp only [Delivery.poll] at hpending
    split at hpending
    · exact hpending rfl
    · rename_i hwaits
      split at hpending
      · exact hpending rfl
      · rename_i hearly
        refine hfired (quiet_pair.2 ⟨?_, ready_timer.2 hearly⟩)
        exact Bool.eq_false_iff.2 fun hserved => pollSend_of_served hserved hwaits
    · exact hpending rfl
  | delivered =>
    obtain rfl : wakers = [.timer delay, .answer tx] := h
    simp only [Delivery.poll] at hpending
    split at hpending
    · exact hpending rfl
    · rename_i hearly
      split at hpending
      · exact hpending rfl
      · exact hpending rfl
      · rename_i hanswer
        exact hfired (quiet_pair.2 ⟨ready_timer.2 hearly, ready_answer.2 hanswer⟩)

end Delivery

namespace Sending

variable {f g : Sending} {requestTimeout : Duration}

theorem parks_of_pending (h : f.poll requestTimeout tx s = .pending mailbox g wakers)
    (hline : tx ∈ s.mailbox.line ↔ f.parcel.isQueued = true) :
    g.Parks tx wakers ∧ Scene.Quiet { s with mailbox := mailbox } wakers := by
  cases f with
  | start msg =>
    simp only [Sending.poll] at h
    split at h
    · cases h
    · cases h
    · cases h
  | send msg queued deadline =>
    simp only [Sending.poll] at h
    split at h
    · cases h
    · rename_i hwaits
      split at h
      · cases h
      · rename_i hearly
        cases h
        exact ⟨⟨rfl, rfl⟩, quiet_pair.2 ⟨not_served_of_waits hwaits hline, ready_timer.2 hearly⟩⟩
    · cases h

theorem poll_of_parks (h : f.Parks tx wakers) (hquiet : s.Quiet wakers) :
    f.poll requestTimeout tx s = .pending s.mailbox f wakers := by
  cases f with
  | start msg => cases h
  | send msg queued deadline =>
    obtain ⟨rfl, rfl⟩ := h
    obtain ⟨hserved, hearly⟩ := quiet_pair.1 hquiet
    simp only [Sending.poll, Mailbox.pollSend_of_not_served hserved, if_neg (ready_timer.1 hearly)]

theorem not_pending_of_parks (h : f.Parks tx wakers) (hfired : ¬ s.Quiet wakers) :
    (f.poll requestTimeout tx s).isPending = false := by
  by_contra hpending
  cases f with
  | start msg => cases h
  | send msg queued deadline =>
    obtain ⟨rfl, rfl⟩ := h
    simp only [Sending.poll] at hpending
    split at hpending
    · exact hpending rfl
    · rename_i hwaits
      split at hpending
      · exact hpending rfl
      · rename_i hearly
        refine hfired (quiet_pair.2 ⟨?_, ready_timer.2 hearly⟩)
        exact Bool.eq_false_iff.2 fun hserved => pollSend_of_served hserved hwaits
    · exact hpending rfl

end Sending

namespace Exchange

variable {f g : Exchange}

theorem parks_of_pending (h : f.poll s = .pending mailbox g wakers)
    (hline : f.tx ∈ s.mailbox.line ↔ f.parcel.isQueued = true) :
    g.Parks wakers ∧ Scene.Quiet { s with mailbox := mailbox } wakers := by
  obtain ⟨tx, requestTimeout, state⟩ := f
  cases state with
  | sending sending =>
    simp only [Exchange.poll] at h
    cases hpiece : sending.poll requestTimeout tx s with
    | goesOn mailbox' next =>
      rw [hpiece] at h
      cases h
    | pending mailbox' next wakers' =>
      rw [hpiece] at h
      cases h
      exact Sending.parks_of_pending hpiece hline
    | ready mailbox' result =>
      rw [hpiece] at h
      cases result with
      | ok value => cases h
      | error err => cases h
  | receiving deadline =>
    simp only [Exchange.poll] at h
    split at h
    · cases h
    · cases h
    · rename_i hanswer
      split at h
      · cases h
      · rename_i hearly
        cases h
        exact ⟨rfl, quiet_pair.2 ⟨ready_answer.2 hanswer, ready_timer.2 hearly⟩⟩

theorem poll_of_parks (h : f.Parks wakers) (hquiet : s.Quiet wakers) : f.poll s = .pending s.mailbox f wakers := by
  obtain ⟨tx, requestTimeout, state⟩ := f
  cases state with
  | sending sending => simp only [Exchange.poll, Sending.poll_of_parks h hquiet]
  | receiving deadline =>
    obtain rfl : wakers = [.answer tx, .timer deadline] := h
    obtain ⟨hanswer, hearly⟩ := quiet_pair.1 hquiet
    simp only [Exchange.poll, ready_answer.1 hanswer, if_neg (ready_timer.1 hearly)]

theorem not_pending_of_parks (h : f.Parks wakers) (hfired : ¬ s.Quiet wakers) : (f.poll s).isPending = false := by
  obtain ⟨tx, requestTimeout, state⟩ := f
  cases state with
  | sending sending =>
    have hsending : (sending.poll requestTimeout tx s).isPending = false := Sending.not_pending_of_parks h hfired
    simp only [Exchange.poll]
    cases hpiece : sending.poll requestTimeout tx s with
    | goesOn mailbox next => rfl
    | pending mailbox next wakers' =>
      rw [hpiece] at hsending
      cases hsending
    | ready mailbox result =>
      cases result with
      | ok value => rfl
      | error err => rfl
  | receiving deadline =>
    obtain rfl : wakers = [.answer tx, .timer deadline] := h
    by_contra hpending
    simp only [Exchange.poll] at hpending
    split at hpending
    · exact hpending rfl
    · exact hpending rfl
    · rename_i hanswer
      split at hpending
      · exact hpending rfl
      · rename_i hearly
        exact hfired (quiet_pair.2 ⟨ready_answer.2 hanswer, ready_timer.2 hearly⟩)

end Exchange

namespace CommandFuture

variable {f g : CommandFuture T}

theorem parks_of_pending (h : f.poll s = .pending mailbox g wakers)
    (hline : f.delivery.tx ∈ s.mailbox.line ↔ f.delivery.parcel.isQueued = true) :
    g.delivery.Parks wakers ∧ Scene.Quiet { s with mailbox := mailbox } wakers := by
  obtain ⟨delivery, hpiece, rfl⟩ := Piece.map_eq_pending h
  exact Delivery.parks_of_pending hpiece hline

theorem poll_of_parks (h : f.delivery.Parks wakers) (hquiet : s.Quiet wakers) :
    f.poll s = .pending s.mailbox f wakers := by
  rw [CommandFuture.poll, Delivery.poll_of_parks h hquiet, Piece.map]

theorem not_pending_of_parks (h : f.delivery.Parks wakers) (hfired : ¬ s.Quiet wakers) :
    (f.poll s).isPending = false := by
  rw [CommandFuture.poll, Piece.isPending_map]
  exact Delivery.not_pending_of_parks h hfired

end CommandFuture

namespace TargetMessageFuture

variable {f g : TargetMessageFuture}

theorem parks_of_pending (h : f.poll s = .pending mailbox g wakers)
    (hline : f.delivery.tx ∈ s.mailbox.line ↔ f.delivery.parcel.isQueued = true) :
    g.delivery.Parks wakers ∧ Scene.Quiet { s with mailbox := mailbox } wakers := by
  obtain ⟨delivery, hpiece, rfl⟩ := Piece.map_eq_pending h
  exact Delivery.parks_of_pending hpiece hline

theorem poll_of_parks (h : f.delivery.Parks wakers) (hquiet : s.Quiet wakers) :
    f.poll s = .pending s.mailbox f wakers := by
  rw [TargetMessageFuture.poll, Delivery.poll_of_parks h hquiet, Piece.map]

theorem not_pending_of_parks (h : f.delivery.Parks wakers) (hfired : ¬ s.Quiet wakers) :
    (f.poll s).isPending = false := by
  rw [TargetMessageFuture.poll, Piece.isPending_map]
  exact Delivery.not_pending_of_parks h hfired

end TargetMessageFuture

/-! ### Any future -/

namespace Future

variable {f g : Future T}

theorem parks_of_pending (h : f.poll s = .pending mailbox g wakers)
    (hline : ∀ send ∈ f.sends, (send.1 ∈ s.mailbox.line ↔ send.2.isQueued = true)) :
    g.Parks wakers ∧ Scene.Quiet { s with mailbox := mailbox } wakers := by
  cases f with
  | command f =>
    obtain ⟨next, hpiece, rfl⟩ := Piece.map_eq_pending h
    exact CommandFuture.parks_of_pending hpiece (hline _ List.mem_cons_self)
  | wait f =>
    obtain ⟨next, hpiece, rfl⟩ := Piece.map_eq_pending h
    exact TargetMessageFuture.parks_of_pending hpiece (hline _ List.mem_cons_self)
  | http f =>
    obtain ⟨next, hpiece, rfl⟩ := Piece.map_eq_pending h
    obtain ⟨command, navigation⟩ := f
    cases command with
    | none =>
      obtain ⟨target, htarget, rfl⟩ := Piece.map_eq_pending hpiece
      exact TargetMessageFuture.parks_of_pending htarget (hline _ List.mem_cons_self)
    | some command =>
      simp only [HttpFuture.poll] at hpiece
      cases hcommand : command.poll s with
      | goesOn mailbox' left =>
        rw [hcommand] at hpiece
        cases hpiece
      | pending mailbox' left wakers' =>
        rw [hcommand] at hpiece
        cases hpiece
        exact CommandFuture.parks_of_pending hcommand (hline _ List.mem_cons_self)
      | ready mailbox' result =>
        rw [hcommand] at hpiece
        cases result with
        | ok value => cases hpiece
        | error err => cases hpiece
  | execute f =>
    obtain ⟨next, hpiece, rfl⟩ := Piece.map_eq_pending h
    obtain ⟨exchange, decode⟩ := f
    cases exchange with
    | error err => cases hpiece
    | ok exchange =>
      obtain ⟨left, hexchange, rfl⟩ := Piece.map_eq_pending hpiece
      exact Exchange.parks_of_pending hexchange (hline _ List.mem_cons_self)
  | ask f =>
    obtain ⟨next, hpiece, rfl⟩ := Piece.map_eq_pending h
    exact Exchange.parks_of_pending hpiece (hline _ List.mem_cons_self)
  | tell f =>
    obtain ⟨next, hpiece, rfl⟩ := Piece.map_eq_pending h
    obtain ⟨sending, hsending, rfl⟩ := Piece.map_eq_pending hpiece
    exact Sending.parks_of_pending hsending (hline _ List.mem_cons_self)

theorem poll_of_parks (h : f.Parks wakers) (hquiet : s.Quiet wakers) : f.poll s = .pending s.mailbox f wakers := by
  cases f with
  | command f => rw [Future.poll, CommandFuture.poll_of_parks h hquiet, Piece.map]
  | wait f => rw [Future.poll, TargetMessageFuture.poll_of_parks h hquiet, Piece.map]
  | http f =>
    obtain ⟨command, navigation⟩ := f
    cases command with
    | none => simp only [Future.poll, HttpFuture.poll, TargetMessageFuture.poll_of_parks h hquiet, Piece.map]
    | some command => simp only [Future.poll, HttpFuture.poll, CommandFuture.poll_of_parks h hquiet, Piece.map]
  | execute f =>
    obtain ⟨exchange, decode⟩ := f
    cases exchange with
    | error err => cases h
    | ok exchange => simp only [Future.poll, Execute.poll, Exchange.poll_of_parks h hquiet, Piece.map]
  | ask f => rw [Future.poll, Exchange.poll_of_parks h hquiet, Piece.map]
  | tell f => rw [Future.poll, Tell.poll, Sending.poll_of_parks h hquiet, Piece.map, Piece.map]

theorem not_pending_of_parks (h : f.Parks wakers) (hfired : ¬ s.Quiet wakers) : (f.poll s).isPending = false := by
  cases f with
  | command f =>
    rw [Future.poll, Piece.isPending_map]
    exact CommandFuture.not_pending_of_parks h hfired
  | wait f =>
    rw [Future.poll, Piece.isPending_map]
    exact TargetMessageFuture.not_pending_of_parks h hfired
  | http f =>
    obtain ⟨command, navigation⟩ := f
    rw [Future.poll, Piece.isPending_map]
    cases command with
    | none =>
      rw [HttpFuture.poll, Piece.isPending_map]
      exact TargetMessageFuture.not_pending_of_parks h hfired
    | some command =>
      have hcommand := CommandFuture.not_pending_of_parks (f := command) h hfired
      simp only [HttpFuture.poll]
      cases hpiece : command.poll s with
      | goesOn mailbox next => rfl
      | pending mailbox next wakers' =>
        rw [hpiece] at hcommand
        cases hcommand
      | ready mailbox result =>
        cases result with
        | ok value => rfl
        | error err => rfl
  | execute f =>
    obtain ⟨exchange, decode⟩ := f
    rw [Future.poll, Piece.isPending_map]
    cases exchange with
    | error err => cases h
    | ok exchange =>
      rw [Execute.poll, Piece.isPending_map]
      exact Exchange.not_pending_of_parks h hfired
  | ask f =>
    rw [Future.poll, Piece.isPending_map]
    exact Exchange.not_pending_of_parks h hfired
  | tell f =>
    rw [Future.poll, Piece.isPending_map, Tell.poll, Piece.isPending_map]
    exact Sending.not_pending_of_parks h hfired

end Future

/-! ### Worlds -/

namespace World

variable {w w' : World T} {requestTimeout : Duration} {input : Input T} {id : Nat} {call : Call T}

/-- Nothing that a parked call waits for is there. -/
def Parked (w : World T) : Prop :=
  ∀ (id : Nat) (call : Call T) (wakers : List Waker), w.calls[id]? = some call → call.status = .parked wakers →
    call.future.Parks wakers ∧ w.Quiet wakers

/-- A call that is parked after an action was parked before, or has just been polled. -/
theorem Acts.parked (hacts : w.Acts requestTimeout input w') (h : w.Sound) (hcall : w'.calls[id]? = some call)
    (hparked : call.status = .parked wakers) :
    w.calls[id]? = some call ∨ call.future.Parks wakers ∧ w'.Quiet wakers := by
  obtain hold | ⟨future, -, rfl, -⟩ | ⟨old, -, hold, hlive, rfl, rfl⟩ | ⟨old, -, -, -, rfl⟩ := hacts.get hcall
  · exact Or.inl hold
  · cases hparked
  · have hline : ∀ send ∈ old.future.sends, (send.1 ∈ w.mailbox.line ↔ send.2.isQueued = true) := by
      intro send hsend
      refine Filed.queued h id send ?_
      rw [holdings_of_live hold hlive]
      exact hsend
    rw [World.pollCall]
    cases hpiece : old.future.poll w.toScene with
    | goesOn mailbox future =>
      rw [hpiece] at hparked
      cases hparked
    | pending mailbox future wakers' =>
      rw [hpiece] at hparked
      cases hparked
      exact Or.inr (Future.parks_of_pending hpiece hline)
    | ready mailbox result =>
      rw [hpiece] at hparked
      cases hparked
  · cases hparked

/-- What is parked once all wakers have fired. -/
theorem parked_wake {before after : Scene} (h : (call.wake before after).status = .parked wakers) :
    call.wake before after = call ∧ call.status = .parked wakers ∧
      ∀ waker ∈ wakers, before.ready waker = true ∨ after.ready waker = false := by
  rw [Call.wake] at h ⊢
  split at h
  · rename_i wakers' hstatus
    split at h
    · cases h
    · rename_i hnone
      rw [hstatus] at h
      cases h
      refine ⟨if_neg hnone, hstatus, fun waker hwaker => ?_⟩
      by_contra hfires
      rw [not_or, Bool.not_eq_true, Bool.not_eq_false] at hfires
      exact hnone (List.any_eq_true.2 ⟨waker, hwaker, by simp [Waker.fires, hfires.1, hfires.2]⟩)
  · rename_i hstatus
    exact absurd h (hstatus wakers)

/-- A parked call that runs afterwards has been woken by something that is there. -/
theorem not_quiet_of_woken {before after : Scene} (hparked : call.status = .parked wakers)
    (hwoken : (call.wake before after).status = .running) : ¬ after.Quiet wakers := by
  intro hquiet
  rw [Call.wake] at hwoken
  split at hwoken
  · rename_i wakers' hstatus
    rw [hstatus] at hparked
    cases hparked
    split at hwoken
    · rename_i hany
      obtain ⟨waker, hwaker, hfires⟩ := List.any_eq_true.1 hany
      rw [Waker.fires, hquiet waker hwaker, Bool.and_false] at hfires
      cases hfires
    · rw [hstatus] at hwoken
      cases hwoken
  · rw [hparked] at hwoken
    cases hwoken

theorem Parked.step (h : w.Parked) (hsound : w.Sound) (requestTimeout : Duration) (input : Input T) :
    (w.step requestTimeout input).Parked := by
  intro id call wakers hcall hstatus
  rw [get_step] at hcall
  obtain ⟨old, hold, rfl⟩ := Option.map_eq_some_iff.1 hcall
  obtain ⟨hsame, hparked, hfires⟩ := parked_wake hstatus
  rw [hsame]
  obtain hbefore | hpolled := (act_acts requestTimeout w input).parked hsound hold hparked
  · obtain ⟨hparks, hquiet⟩ := h id old wakers hbefore hparked
    refine ⟨hparks, fun waker hwaker => ?_⟩
    obtain hready | hready := hfires waker hwaker
    · rw [hquiet waker hwaker] at hready
      cases hready
    · exact hready
  · exact hpolled

theorem parked_start (capacity : Nat) : (start capacity : World T).Parked := by
  intro id call wakers hcall
  cases hcall

theorem parked_final (capacity : Nat) (requestTimeout : Duration) (inputs : List (Input T)) :
    (Run.final (World.step requestTimeout) (start capacity : World T) inputs).Parked := by
  have hboth : (Run.final (World.step requestTimeout) (start capacity : World T) inputs).Sound ∧
      (Run.final (World.step requestTimeout) (start capacity : World T) inputs).Parked :=
    Run.invariant_of_step (fun w : World T => w.Sound ∧ w.Parked)
      (fun w input h => ⟨h.1.step requestTimeout input, h.2.step h.1 requestTimeout input⟩)
      ⟨sound_start capacity, parked_start capacity⟩ inputs
  exact hboth.2

/-- In every state that a run reaches, a poll of a call that nobody has woken since it was parked is pending again and changes nothing; and when a step wakes a parked call, its next poll is not pending. -/
theorem no_lost_wakeup (capacity : Nat) (requestTimeout : Duration) (inputs : List (Input T)) :
    let w := Run.final (World.step requestTimeout) (start capacity : World T) inputs
    ∀ (id : Nat) (call : Call T) (wakers : List Waker), w.calls[id]? = some call → call.status = .parked wakers →
      call.future.poll w.toScene = .pending w.mailbox call.future wakers ∧
      ∀ input, input ≠ .poll id →
        (w.step requestTimeout input).calls[id]? = some { call with status := .running } →
        (call.future.poll (w.step requestTimeout input).toScene).isPending = false := by
  intro w id call wakers hcall hstatus
  obtain ⟨hparks, hquiet⟩ := parked_final capacity requestTimeout inputs id call wakers hcall hstatus
  refine ⟨Future.poll_of_parks hparks hquiet, fun input hinput hwoken => ?_⟩
  refine Future.not_pending_of_parks hparks ?_
  rw [get_step] at hwoken
  obtain ⟨old, hold, hwake⟩ := Option.map_eq_some_iff.1 hwoken
  have hsame : old = call := by
    obtain hbefore | ⟨future, hid, -⟩ | ⟨other, hpoll, -⟩ | ⟨other, -, -, -, rfl⟩ :=
      (act_acts requestTimeout w input).get hold
    · exact Option.some.inj (hbefore.symm.trans hcall)
    · obtain ⟨hlt, -⟩ := List.getElem?_eq_some_iff.1 hcall
      exact absurd hid (Nat.ne_of_lt hlt)
    · exact absurd hpoll hinput
    · cases congrArg Call.status hwake
  subst hsame
  exact not_quiet_of_woken hstatus (congrArg Call.status hwake)

/-- The second message waits for the place that the first one has taken. -/
theorem no_lost_wakeup_full :
    let w := Run.final (World.step 5) (start 1 : World Unit)
      [.tell (.blockNetwork true), .tell (.blockNetwork false), .poll 0, .poll 1, .poll 1]
    ∃ call wakers, w.calls[1]? = some call ∧ call.status = .parked wakers ∧
      call.future.poll w.toScene = .pending w.mailbox call.future wakers ∧
      (w.step 5 .recv).calls[1]? = some { call with status := .running } ∧
        (call.future.poll (w.step 5 .recv).toScene).isPending = false := by
  intro w
  obtain ⟨hquiet, hwoken⟩ := no_lost_wakeup 1 5
    [.tell (.blockNetwork true), .tell (.blockNetwork false), .poll 0, .poll 1, .poll 1] 1 _ _ rfl rfl
  exact ⟨_, _, rfl, rfl, hquiet, rfl, hwoken .recv (by simp) rfl⟩

end World

end Futures

end SpiderChrome
