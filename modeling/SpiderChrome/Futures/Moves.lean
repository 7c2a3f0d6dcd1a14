import SpiderChrome.Futures.State

/-!
# What a piece of a poll does

Whichever future is polled, a piece moves at most one message by at most one place: from its sender into the line of the channel, or into the channel. `Future.Advances` says this once for all kinds of futures, and what follows about messages rests on it alone.
-/

namespace SpiderChrome

namespace Futures

variable {T : Type}

/-! ### The messages of a future -/

def Sending.parcel : Sending → Parcel
  | start msg => .message msg
  | send msg queued _ => .sendFut msg queued

def Exchange.parcel (f : Exchange) : Parcel :=
  match f.state with
  | .sending sending => sending.parcel
  | .receiving _ => .delivered

/-- The messages that a future has sent or will send, under the names of their channels. A command that is terminated has no part in it any more. -/
def Future.sends : Future T → List (Sender × Parcel)
  | command f => [(f.delivery.tx, f.delivery.parcel)]
  | wait f => [(f.delivery.tx, f.delivery.parcel)]
  | http f =>
    (f.command.map fun command => (command.delivery.tx, command.delivery.parcel)).toList ++
      [(f.navigation.delivery.tx, f.navigation.delivery.parcel)]
  | execute f =>
    match f.exchange with
    | .ok exchange => [(exchange.tx, exchange.parcel)]
    | .error _ => []
  | ask f => [(f.tx, f.parcel)]
  | tell f => [(f.tx, f.sending.parcel)]

namespace Piece

variable {F F' R R' : Type}

/-- What is left to be polled. -/
def future? : Piece F R → Option F
  | goesOn _ future | pending _ future _ => some future
  | ready _ _ => none

@[simp] theorem mailbox_map (f : F → F') (r : R → R') (piece : Piece F R) :
    (piece.map f r).mailbox = piece.mailbox := by
  cases piece with
  | goesOn mailbox future => rfl
  | pending mailbox future wakers => rfl
  | ready mailbox result => rfl

@[simp] theorem future?_map (f : F → F') (r : R → R') (piece : Piece F R) :
    (piece.map f r).future? = piece.future?.map f := by
  cases piece with
  | goesOn mailbox future => rfl
  | pending mailbox future wakers => rfl
  | ready mailbox result => rfl

end Piece

/-! ### Moves of one message -/

/-- What may become of a parcel in one piece, with the mailbox after it. -/
inductive Moves (s : Scene) (tx : Sender) : Parcel → Parcel → PageMailbox → Prop where
  | stays (parcel : Parcel) : Moves s tx parcel parcel s.mailbox
  | sentAtOnce {msg : TargetMessage} {mailbox : PageMailbox} (h : s.mailbox.trySend tx msg = .sent mailbox) :
    Moves s tx (.message msg) .delivered mailbox
  | full (msg : TargetMessage) : Moves s tx (.message msg) (.sendFut msg false) s.mailbox
  | sent {msg : TargetMessage} {queued : Bool} {mailbox : PageMailbox}
    (h : s.mailbox.pollSend tx msg queued = .sent mailbox) : Moves s tx (.sendFut msg queued) .delivered mailbox
  | waits {msg : TargetMessage} {queued : Bool} {mailbox : PageMailbox}
    (h : s.mailbox.pollSend tx msg queued = .waits mailbox) :
    Moves s tx (.sendFut msg queued) (.sendFut msg true) mailbox

/-- A future that is ready with an answer has delivered its message before. -/
theorem Delivery.poll_moves (s : Scene) (f : Delivery) :
    ∃ parcel, Moves s f.tx f.parcel parcel (f.poll s).mailbox ∧
      (∀ g ∈ (f.poll s).future?, g = { f with parcel := parcel }) ∧
      ∀ mailbox reply, f.poll s = .ready mailbox (.ok reply) → parcel = .delivered := by
  obtain ⟨tx, parcel, delay⟩ := f
  cases parcel with
  | message msg =>
    simp only [Delivery.poll]
    split
    · rename_i mailbox hsent
      exact ⟨.delivered, .sentAtOnce hsent, fun g hg => (Option.some.inj hg).symm, by simp⟩
    · exact ⟨.sendFut msg false, .full msg, fun g hg => (Option.some.inj hg).symm, by simp⟩
    · exact ⟨_, .stays _, by simp [Piece.future?], by simp⟩
  | sendFut msg queued =>
    simp only [Delivery.poll]
    split
    · rename_i mailbox hsent
      exact ⟨.delivered, .sent hsent, fun g hg => (Option.some.inj hg).symm, by simp⟩
    · rename_i mailbox hwaits
      split
      · exact ⟨_, .waits hwaits, by simp [Piece.future?], by simp⟩
      · exact ⟨_, .waits hwaits, fun g hg => (Option.some.inj hg).symm, by simp⟩
    · exact ⟨_, .stays _, by simp [Piece.future?], by simp⟩
  | delivered =>
    refine ⟨.delivered, ?_⟩
    simp only [Delivery.poll]
    split
    · exact ⟨.stays _, by simp [Piece.future?], fun _ _ _ => trivial⟩
    · split
      · exact ⟨.stays _, by simp [Piece.future?], fun _ _ _ => trivial⟩
      · exact ⟨.stays _, by simp [Piece.future?], fun _ _ _ => trivial⟩
      · exact ⟨.stays _, fun g hg => (Option.some.inj hg).symm, fun _ _ _ => trivial⟩

theorem CommandFuture.poll_moves (s : Scene) (f : CommandFuture T) :
    ∃ parcel, Moves s f.delivery.tx f.delivery.parcel parcel (f.poll s).mailbox ∧
      (∀ g ∈ (f.poll s).future?, g = { f with delivery := { f.delivery with parcel := parcel } }) ∧
      ∀ mailbox value, f.poll s = .ready mailbox (.ok value) → parcel = .delivered := by
  obtain ⟨parcel, hmoves, hfuture, hready⟩ := f.delivery.poll_moves s
  rw [CommandFuture.poll]
  refine ⟨parcel, ?_, fun g hg => ?_, fun mailbox value hpiece => ?_⟩
  · rw [Piece.mailbox_map]
    exact hmoves
  · rw [Piece.future?_map] at hg
    obtain ⟨delivery, hdelivery, rfl⟩ := Option.map_eq_some_iff.1 hg
    rw [hfuture delivery hdelivery]
  · cases hdelivery : f.delivery.poll s with
    | goesOn mailbox' delivery => simp only [hdelivery, Piece.map, reduceCtorEq] at hpiece
    | pending mailbox' delivery wakers => simp only [hdelivery, Piece.map, reduceCtorEq] at hpiece
    | ready mailbox' result =>
      cases result with
      | ok reply => exact hready mailbox' reply hdelivery
      | error err => simp [hdelivery, Piece.map, Except.bind] at hpiece

theorem TargetMessageFuture.poll_moves (s : Scene) (f : TargetMessageFuture) :
    ∃ parcel, Moves s f.delivery.tx f.delivery.parcel parcel (f.poll s).mailbox ∧
      ∀ g ∈ (f.poll s).future?, g = { f with delivery := { f.delivery with parcel := parcel } } := by
  obtain ⟨parcel, hmoves, hfuture, -⟩ := f.delivery.poll_moves s
  rw [TargetMessageFuture.poll]
  refine ⟨parcel, ?_, fun g hg => ?_⟩
  · rw [Piece.mailbox_map]
    exact hmoves
  · rw [Piece.future?_map] at hg
    obtain ⟨delivery, hdelivery, rfl⟩ := Option.map_eq_some_iff.1 hg
    rw [hfuture delivery hdelivery]

/-- A message that is sent without its answer being waited for is gone when the future is ready with success. -/
theorem Sending.poll_moves (requestTimeout : Duration) (tx : Sender) (s : Scene) (f : Sending) :
    ∃ parcel, Moves s tx f.parcel parcel (f.poll requestTimeout tx s).mailbox ∧
      (∀ g ∈ (f.poll requestTimeout tx s).future?, g.parcel = parcel) ∧
      ∀ mailbox, f.poll requestTimeout tx s = .ready mailbox (.ok ()) → parcel = .delivered := by
  cases f with
  | start msg =>
    simp only [Sending.poll]
    split
    · rename_i mailbox hsent
      exact ⟨.delivered, .sentAtOnce hsent, by simp [Piece.future?], fun _ _ => rfl⟩
    · exact ⟨.sendFut msg false, .full msg, fun g hg => Option.some.inj hg ▸ rfl, by simp⟩
    · exact ⟨_, .stays _, by simp [Piece.future?], by simp⟩
  | send msg queued deadline =>
    simp only [Sending.poll]
    split
    · rename_i mailbox hsent
      exact ⟨.delivered, .sent hsent, by simp [Piece.future?], fun _ _ => rfl⟩
    · rename_i mailbox hwaits
      split
      · exact ⟨_, .waits hwaits, by simp [Piece.future?], by simp⟩
      · exact ⟨_, .waits hwaits, fun g hg => Option.some.inj hg ▸ rfl, by simp⟩
    · exact ⟨_, .stays _, by simp [Piece.future?], by simp⟩

theorem Exchange.poll_moves (s : Scene) (f : Exchange) :
    ∃ parcel, Moves s f.tx f.parcel parcel (f.poll s).mailbox ∧
      ∀ g ∈ (f.poll s).future?, g.tx = f.tx ∧ g.parcel = parcel := by
  obtain ⟨tx, requestTimeout, state⟩ := f
  cases state with
  | sending sending =>
    obtain ⟨parcel, hmoves, hfuture, hready⟩ := sending.poll_moves requestTimeout tx s
    refine ⟨parcel, ?_⟩
    simp only [Exchange.poll]
    generalize hpiece : sending.poll requestTimeout tx s = piece at hmoves hfuture hready
    cases piece with
    | goesOn mailbox next => exact ⟨hmoves, fun g hg => Option.some.inj hg ▸ ⟨rfl, hfuture next rfl⟩⟩
    | pending mailbox next wakers => exact ⟨hmoves, fun g hg => Option.some.inj hg ▸ ⟨rfl, hfuture next rfl⟩⟩
    | ready mailbox result =>
      cases result with
      | ok value => exact ⟨hmoves, fun g hg => Option.some.inj hg ▸ ⟨rfl, (hready mailbox rfl).symm⟩⟩
      | error err => exact ⟨hmoves, by simp [Piece.future?]⟩
  | receiving deadline =>
    refine ⟨.delivered, ?_⟩
    simp only [Exchange.poll]
    split
    · exact ⟨.stays _, by simp [Piece.future?]⟩
    · exact ⟨.stays _, by simp [Piece.future?]⟩
    · split
      · exact ⟨.stays _, by simp [Piece.future?]⟩
      · exact ⟨.stays _, fun g hg => Option.some.inj hg ▸ ⟨rfl, rfl⟩⟩

/-! ### Moves of a future -/

/-- A piece moves one message, or none; the future that is left has the others as they were, and may have done with the one that is delivered. -/
inductive Future.Advances {R : Type} (s : Scene) (f : Future T) (piece : Piece (Future T) R) : Prop where
  | quiet (hmailbox : piece.mailbox = s.mailbox) (hfuture : piece.future? = none)
  | moves {tx : Sender} {parcel parcel' : Parcel} {rest : List (Sender × Parcel)}
    (hsends : f.sends = (tx, parcel) :: rest) (hmoves : Moves s tx parcel parcel' piece.mailbox)
    (hfuture : ∀ g ∈ piece.future?, g.sends = (tx, parcel') :: rest ∨ parcel' = .delivered ∧ g.sends = rest)

/-- A piece of a future with one message moves that message. -/
theorem Future.advances_single {R : Type} {s : Scene} {f : Future T} {tx : Sender} {parcel : Parcel}
    {piece : Piece (Future T) R} (parcel' : Parcel) (hsends : f.sends = [(tx, parcel)]) (hmoves : Moves s tx parcel parcel' piece.mailbox)
    (hfuture : ∀ g ∈ piece.future?, g.sends = [(tx, parcel')]) : f.Advances s piece :=
  .moves hsends hmoves fun g hg => Or.inl (hfuture g hg)

theorem HttpFuture.poll_advances (s : Scene) (f : HttpFuture T) :
    (Future.http f).Advances s ((Future.http f).poll s) := by
  obtain ⟨command, navigation⟩ := f
  cases command with
  | none =>
    obtain ⟨parcel, hmoves, hfuture⟩ := navigation.poll_moves s
    refine Future.advances_single parcel rfl ?_ fun g hg => ?_
    · simpa only [Future.poll, HttpFuture.poll, Piece.mailbox_map] using hmoves
    · simp only [Future.poll, HttpFuture.poll, Piece.future?_map] at hg
      obtain ⟨next, hnext, rfl⟩ := Option.map_eq_some_iff.1 hg
      obtain ⟨target, htarget, rfl⟩ := Option.map_eq_some_iff.1 hnext
      rw [hfuture target htarget]
      rfl
  | some command =>
    obtain ⟨parcel, hmoves, hfuture, hready⟩ := command.poll_moves s
    simp only [Future.poll, HttpFuture.poll]
    cases hpiece : command.poll s with
    | goesOn mailbox next =>
      rw [hpiece] at hmoves hfuture
      refine .moves rfl hmoves fun g hg => Or.inl ?_
      cases hg
      rw [hfuture next rfl]
      rfl
    | pending mailbox next wakers =>
      rw [hpiece] at hmoves hfuture
      refine .moves rfl hmoves fun g hg => Or.inl ?_
      cases hg
      rw [hfuture next rfl]
      rfl
    | ready mailbox result =>
      rw [hpiece] at hmoves
      cases result with
      | ok value =>
        refine .moves rfl hmoves fun g hg => Or.inr ⟨hready mailbox value hpiece, ?_⟩
        cases hg
        rfl
      | error err => exact .moves rfl hmoves (by simp [Piece.future?, Piece.map])

theorem Future.poll_advances (s : Scene) (f : Future T) : f.Advances s (f.poll s) := by
  cases f with
  | command f =>
    obtain ⟨parcel, hmoves, hfuture, -⟩ := f.poll_moves s
    refine advances_single parcel rfl ?_ fun g hg => ?_
    · simpa only [Future.poll, Piece.mailbox_map] using hmoves
    · simp only [Future.poll, Piece.future?_map] at hg
      obtain ⟨next, hnext, rfl⟩ := Option.map_eq_some_iff.1 hg
      rw [hfuture next hnext]
      rfl
  | wait f =>
    obtain ⟨parcel, hmoves, hfuture⟩ := f.poll_moves s
    refine advances_single parcel rfl ?_ fun g hg => ?_
    · simpa only [Future.poll, Piece.mailbox_map] using hmoves
    · simp only [Future.poll, Piece.future?_map] at hg
      obtain ⟨next, hnext, rfl⟩ := Option.map_eq_some_iff.1 hg
      rw [hfuture next hnext]
      rfl
  | http f => exact f.poll_advances s
  | execute f =>
    obtain ⟨exchange, decode⟩ := f
    cases exchange with
    | error err => exact .quiet rfl rfl
    | ok exchange =>
      obtain ⟨parcel, hmoves, hfuture⟩ := exchange.poll_moves s
      refine advances_single parcel rfl ?_ fun g hg => ?_
      · simpa only [Future.poll, Execute.poll, Piece.mailbox_map] using hmoves
      · simp only [Future.poll, Execute.poll, Piece.future?_map] at hg
        obtain ⟨next, hnext, rfl⟩ := Option.map_eq_some_iff.1 hg
        obtain ⟨left, hexchange, rfl⟩ := Option.map_eq_some_iff.1 hnext
        obtain ⟨htx, hparcel⟩ := hfuture left hexchange
        simp only [sends, htx, hparcel]
  | ask f =>
    obtain ⟨parcel, hmoves, hfuture⟩ := f.poll_moves s
    refine advances_single parcel rfl ?_ fun g hg => ?_
    · simpa only [Future.poll, Piece.mailbox_map] using hmoves
    · simp only [Future.poll, Piece.future?_map] at hg
      obtain ⟨next, hnext, rfl⟩ := Option.map_eq_some_iff.1 hg
      obtain ⟨htx, hparcel⟩ := hfuture next hnext
      simp only [sends, htx, hparcel]
  | tell f =>
    obtain ⟨parcel, hmoves, hfuture, -⟩ := f.sending.poll_moves f.requestTimeout f.tx s
    refine advances_single parcel rfl ?_ fun g hg => ?_
    · simpa only [Future.poll, Tell.poll, Piece.mailbox_map] using hmoves
    · simp only [Future.poll, Tell.poll, Piece.future?_map] at hg
      obtain ⟨next, hnext, rfl⟩ := Option.map_eq_some_iff.1 hg
      obtain ⟨left, hsending, rfl⟩ := Option.map_eq_some_iff.1 hnext
      simp only [sends, hfuture left hsending]

end Futures

end SpiderChrome
