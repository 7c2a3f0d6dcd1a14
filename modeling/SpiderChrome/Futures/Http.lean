import SpiderChrome.Futures.Answers

/-!
# The command comes before the wait

An `HttpFuture` waits for the navigation that its command starts, and its deadline for that runs from the end of the command. `http_order` says that the wait is never sent before the command has come back with success.
-/

namespace SpiderChrome

namespace Futures

variable {T : Type}

/-! ### What is left of a future -/

/-- What an `HttpFuture` becomes. -/
inductive HttpFuture.Next (s : Scene) (f : HttpFuture T) : HttpFuture T → Prop where
  | command {asked : CommandFuture T} (parcel : Parcel) (hcommand : f.command = some asked) :
    Next s f { f with command := some { asked with delivery := { asked.delivery with parcel := parcel } } }
  | navigates {asked : CommandFuture T} {reply : Reply} {value : T} (hcommand : f.command = some asked)
    (hearly : s.now < asked.delivery.delay) (hanswer : s.answers asked.delivery.tx = .sent reply)
    (hvalue : commandResponse asked.decode reply = .ok value) : Next s f ⟨none, f.navigation.resetDeadline s.now⟩
  | navigation (parcel : Parcel) (hcommand : f.command = none) :
    Next s f { f with navigation := { f.navigation with
      delivery := { f.navigation.delivery with parcel := parcel } } }

variable {s : Scene} {mailbox : PageMailbox}

/-- An answer is taken before the deadline only. -/
theorem Delivery.answered {f : Delivery} {reply : Reply} (h : f.poll s = .ready mailbox (.ok reply)) :
    s.now < f.delay ∧ s.answers f.tx = .sent reply := by
  obtain ⟨tx, parcel, delay⟩ := f
  cases parcel with
  | message msg =>
    simp only [Delivery.poll] at h
    split at h
    · cases h
    · cases h
    · cases h
  | sendFut msg queued =>
    simp only [Delivery.poll] at h
    split at h
    · cases h
    · split at h
      · cases h
      · cases h
    · cases h
  | delivered =>
    simp only [Delivery.poll] at h
    split at h
    · cases h
    · rename_i hearly
      split at h
      · rename_i hanswer
        cases h
        exact ⟨Nat.lt_of_not_le hearly, hanswer⟩
      · cases h
      · cases h

theorem CommandFuture.answered {f : CommandFuture T} {value : T} (h : f.poll s = .ready mailbox (.ok value)) :
    s.now < f.delivery.delay ∧
      ∃ reply, s.answers f.delivery.tx = .sent reply ∧ commandResponse f.decode reply = .ok value := by
  obtain ⟨before, hdelivery, hvalue⟩ := Piece.map_eq_ready h
  cases before with
  | error err => cases hvalue
  | ok reply =>
    obtain ⟨hearly, hanswer⟩ := Delivery.answered hdelivery
    exact ⟨hearly, reply, hanswer, hvalue.symm⟩

theorem HttpFuture.poll_next (s : Scene) (f : HttpFuture T) : ∀ g ∈ (f.poll s).future?, f.Next s g := by
  intro g hg
  obtain ⟨command, navigation⟩ := f
  cases command with
  | none =>
    obtain ⟨parcel, -, hfuture⟩ := navigation.poll_moves s
    rw [HttpFuture.poll, Piece.future?_map] at hg
    obtain ⟨next, hnext, rfl⟩ := Option.map_eq_some_iff.1 hg
    rw [hfuture next hnext]
    exact .navigation parcel rfl
  | some asked =>
    obtain ⟨parcel, -, hfuture, -⟩ := asked.poll_moves s
    simp only [HttpFuture.poll] at hg
    cases hpiece : asked.poll s with
    | goesOn mailbox next =>
      rw [hpiece] at hg hfuture
      cases hg
      rw [hfuture next rfl]
      exact .command parcel rfl
    | pending mailbox next wakers =>
      rw [hpiece] at hg hfuture
      cases hg
      rw [hfuture next rfl]
      exact .command parcel rfl
    | ready mailbox result =>
      rw [hpiece] at hg
      cases result with
      | ok value =>
        cases hg
        obtain ⟨hearly, reply, hanswer, hvalue⟩ := CommandFuture.answered hpiece
        exact .navigates rfl hearly hanswer hvalue
      | error err => cases hg

/-- Nothing but a response with success makes a command succeed. -/
theorem commandResponse_eq_ok {decode : Value → Option T} {reply : Reply} {value : T}
    (h : commandResponse decode reply = .ok value) : ∃ resp, reply = .response (.ok resp) := by
  cases reply with
  | response result =>
    cases result with
    | ok resp => exact ⟨resp, rfl⟩
    | error err => cases h
  | _ => cases h

/-! ### Names -/

/-- The channels of a call are those of its number. -/
def Future.Named (id : Nat) : Future T → Prop
  | command f => f.delivery.tx = commandTx id
  | wait f => f.delivery.tx = commandTx id
  | http f => (∀ asked ∈ f.command, asked.delivery.tx = commandTx id) ∧ f.navigation.delivery.tx = navigationTx id
  | execute f => ∀ exchange, f.exchange = .ok exchange → exchange.tx = commandTx id
  | ask f => f.tx = commandTx id
  | tell f => f.tx = commandTx id

theorem Future.Starts.named {requestTimeout : Duration} {id : Nat} {now : Instant} {future : Future T}
    (h : future.Starts requestTimeout id now) : future.Named id := by
  have hcommand : ∀ {cmd : Command T} {session : Option SessionId} {f : CommandFuture T},
      CommandFuture.new cmd (commandTx id) session requestTimeout now = .ok f → f.delivery.tx = commandTx id := by
    intro cmd session f hnew
    rw [CommandFuture.new] at hnew
    split at hnew
    · cases hnew
    · cases hnew
      rfl
  cases h with
  | command hnew => exact hcommand hnew
  | wait msg => rfl
  | http hnew =>
    refine ⟨fun asked hasked => ?_, rfl⟩
    cases hasked
    exact hcommand hnew
  | execute cmd session =>
    intro exchange hexchange
    rw [Execute.new] at hexchange
    split at hexchange
    · cases hexchange
    · cases hexchange
      rfl
  | ask msg => rfl
  | tell msg => rfl

theorem Future.Named.poll {f : Future T} {id : Nat} (h : f.Named id) (s : Scene) :
    ∀ g ∈ (f.poll s).future?, g.Named id := by
  intro g hg
  cases f with
  | command f =>
    obtain ⟨parcel, -, hfuture, -⟩ := f.poll_moves s
    rw [Future.poll, Piece.future?_map] at hg
    obtain ⟨next, hnext, rfl⟩ := Option.map_eq_some_iff.1 hg
    rw [hfuture next hnext]
    exact h
  | wait f =>
    obtain ⟨parcel, -, hfuture⟩ := f.poll_moves s
    rw [Future.poll, Piece.future?_map] at hg
    obtain ⟨next, hnext, rfl⟩ := Option.map_eq_some_iff.1 hg
    rw [hfuture next hnext]
    exact h
  | http f =>
    rw [Future.poll, Piece.future?_map] at hg
    obtain ⟨next, hnext, rfl⟩ := Option.map_eq_some_iff.1 hg
    obtain ⟨hcommands, hnavigation⟩ := h
    cases f.poll_next s next hnext with
    | command parcel hcommand =>
      refine ⟨fun asked hasked => ?_, hnavigation⟩
      cases hasked
      have hold := hcommands _ hcommand
      exact hold
    | navigates => exact ⟨fun _ hasked => (by cases hasked), hnavigation⟩
    | navigation parcel hcommand => exact ⟨hcommands, hnavigation⟩
  | execute f =>
    obtain ⟨exchange, decode⟩ := f
    rw [Future.poll, Piece.future?_map] at hg
    obtain ⟨next, hnext, rfl⟩ := Option.map_eq_some_iff.1 hg
    cases exchange with
    | error err => cases hnext
    | ok exchange =>
      obtain ⟨parcel, -, hfuture⟩ := exchange.poll_moves s
      rw [Execute.poll, Piece.future?_map] at hnext
      obtain ⟨left, hleft, rfl⟩ := Option.map_eq_some_iff.1 hnext
      intro exchange' hexchange
      cases hexchange
      rw [(hfuture left hleft).1]
      exact h exchange rfl
  | ask f =>
    obtain ⟨parcel, -, hfuture⟩ := f.poll_moves s
    rw [Future.poll, Piece.future?_map] at hg
    obtain ⟨next, hnext, rfl⟩ := Option.map_eq_some_iff.1 hg
    exact (hfuture next hnext).1.trans h
  | tell f =>
    rw [Future.poll, Piece.future?_map] at hg
    obtain ⟨next, hnext, rfl⟩ := Option.map_eq_some_iff.1 hg
    rw [Tell.poll, Piece.future?_map] at hnext
    obtain ⟨sending, -, rfl⟩ := Option.map_eq_some_iff.1 hnext
    exact h

/-! ### Worlds -/

namespace World

variable {w w' : World T} {requestTimeout : Duration} {input : Input T} {id : Nat} {call : Call T}

/-- What holds of the future of every call, if it holds at the start and after every piece. -/
theorem future_step (holds : World T → Nat → Instant → Future T → Prop)
    (hlater : ∀ {w w' : World T} {id : Nat} {started : Instant} {f : Future T}, holds w id started f →
      w.toScene.Later w'.toScene → holds w' id started f)
    (hstarts : ∀ {w : World T} {id : Nat} {f : Future T}, f.Starts requestTimeout id w.now → holds (w.add f) id w.now f)
    (hpoll : ∀ {w : World T} {id : Nat} {started : Instant} {f g : Future T}, holds w id started f →
      g ∈ (f.poll w.toScene).future? → holds w id started g)
    (h : ∀ (id : Nat) (call : Call T), w.calls[id]? = some call → holds w id call.started call.future)
    (input : Input T) : ∀ (id : Nat) (call : Call T), (w.step requestTimeout input).calls[id]? = some call →
      holds (w.step requestTimeout input) id call.started call.future := by
  intro id call hcall
  have hacts := act_acts requestTimeout w input
  rw [get_step] at hcall
  obtain ⟨old, hold, rfl⟩ := Option.map_eq_some_iff.1 hcall
  rw [future_wake, started_wake]
  obtain hbefore | ⟨future, -, rfl, hstart, hact⟩ | ⟨other, -, hother, -, -, rfl⟩ | ⟨other, -, hother, -, rfl⟩ :=
    hacts.get hold
  · exact hlater (h id old hbefore) hacts.later
  · refine hlater (hstarts hstart) ?_
    show (w.add future).toScene.Later (w.act requestTimeout input).toScene
    rw [hact]
    exact .refl _
  · refine hlater ?_ hacts.later
    cases hpiece : other.future.poll w.toScene with
    | goesOn mailbox future => exact hpoll (h id other hother) (by rw [hpiece]; rfl)
    | pending mailbox future wakers => exact hpoll (h id other hother) (by rw [hpiece]; rfl)
    | ready mailbox result => exact h id other hother
  · exact hlater (h id other hother) hacts.later

/-- The command of a call that waits for its navigation has come back with success. -/
def Commanded (w : World T) (id : Nat) (f : Future T) : Prop :=
  f.Named id ∧ ∀ g, f = .http g → g.command = none → ∃ resp, w.answers (commandTx id) = .sent (.response (.ok resp))

theorem commanded_step (h : ∀ (id : Nat) (call : Call T), w.calls[id]? = some call → w.Commanded id call.future)
    (input : Input T) : ∀ (id : Nat) (call : Call T), (w.step requestTimeout input).calls[id]? = some call →
      (w.step requestTimeout input).Commanded id call.future := by
  refine future_step (fun w id _ f => w.Commanded id f) ?_ ?_ ?_ h input
  · rintro w w' id _ f ⟨hnamed, hcommand⟩ hlater
    refine ⟨hnamed, fun g hg hnone => ?_⟩
    obtain ⟨resp, hresp⟩ := hcommand g hg hnone
    exact ⟨resp, (hlater.answers _ (by rw [hresp]; simp)).trans hresp⟩
  · intro w id f hstarts
    refine ⟨hstarts.named, fun g hg hnone => ?_⟩
    subst hg
    cases hstarts with
    | http hnew => cases hnone
  · rintro w id _ f g ⟨hnamed, hcommand⟩ hg
    refine ⟨hnamed.poll w.toScene g hg, fun next heq hnone => ?_⟩
    subst heq
    cases f with
    | http f =>
      rw [Future.poll, Piece.future?_map] at hg
      obtain ⟨other, hother, heq⟩ := Option.map_eq_some_iff.1 hg
      cases heq
      cases f.poll_next w.toScene next hother with
      | command parcel hsome => cases hnone
      | navigates hsome hearly hanswer hvalue =>
        obtain ⟨resp, rfl⟩ := commandResponse_eq_ok hvalue
        rw [hnamed.1 _ hsome] at hanswer
        exact ⟨resp, hanswer⟩
      | navigation parcel hbefore => exact hcommand f rfl hbefore
    | command f =>
      rw [Future.poll, Piece.future?_map] at hg
      obtain ⟨other, -, heq⟩ := Option.map_eq_some_iff.1 hg
      cases heq
    | wait f =>
      rw [Future.poll, Piece.future?_map] at hg
      obtain ⟨other, -, heq⟩ := Option.map_eq_some_iff.1 hg
      cases heq
    | execute f =>
      rw [Future.poll, Piece.future?_map] at hg
      obtain ⟨other, -, heq⟩ := Option.map_eq_some_iff.1 hg
      cases heq
    | ask f =>
      rw [Future.poll, Piece.future?_map] at hg
      obtain ⟨other, -, heq⟩ := Option.map_eq_some_iff.1 hg
      cases heq
    | tell f =>
      rw [Future.poll, Piece.future?_map] at hg
      obtain ⟨other, -, heq⟩ := Option.map_eq_some_iff.1 hg
      cases heq

/-- A wait for a navigation that is first among the messages of a call: the command is done. -/
theorem command_none_of_first {f : Future T} {parcel : Parcel} {rest : List (Sender × Parcel)} {other : Nat}
    (hnamed : f.Named id) (hsends : f.sends = (navigationTx other, parcel) :: rest) :
    ∃ g, f = .http g ∧ g.command = none := by
  have hsingle : ∀ (tx : Sender) (first : Parcel), tx = commandTx id → [(tx, first)] ≠ (navigationTx other, parcel) :: rest := by
    rintro tx first rfl heq
    exact commandTx_ne_navigationTx id other (congrArg Prod.fst (List.cons.inj heq).1)
  cases f with
  | command f => exact absurd hsends (hsingle _ _ hnamed)
  | wait f => exact absurd hsends (hsingle _ _ hnamed)
  | http f =>
    obtain ⟨command, navigation⟩ := f
    cases command with
    | none => exact ⟨_, rfl, rfl⟩
    | some asked =>
      have hfirst : asked.delivery.tx = navigationTx other := congrArg Prod.fst (List.cons.inj hsends).1
      rw [show asked.delivery.tx = commandTx id from hnamed.1 asked rfl] at hfirst
      exact absurd hfirst (commandTx_ne_navigationTx id other)
  | execute f =>
    obtain ⟨exchange, decode⟩ := f
    cases exchange with
    | error err => cases hsends
    | ok exchange => exact absurd hsends (hsingle _ _ (hnamed exchange rfl))
  | ask f => exact absurd hsends (hsingle _ _ hnamed)
  | tell f => exact absurd hsends (hsingle _ _ hnamed)

/-- A channel that is settled is that of a message in the record. -/
theorem Accounted.mem_senders (h : w.Accounted) (hsound : w.Sound) {tx : Sender} (hsettled : w.answers tx ≠ .waiting) :
    tx ∈ w.mailbox.senders := by
  obtain ⟨msg, hmsg, htx⟩ := h.settled tx hsettled
  have hin : msg ∈ w.mailbox.entered.map Prod.snd := by
    rw [(Filed.mailbox hsound).order]
    exact List.mem_append_left _ hmsg
  obtain ⟨⟨who, msg'⟩, hentry, rfl⟩ := List.mem_map.1 hin
  rw [h.entered _ hentry tx htx]
  exact List.mem_map_of_mem hentry

/-- In every run the wait of an `HttpFuture` enters the channel after the command of that future, and only once the browser has answered the command with success; if the command fails or times out, it never enters. -/
theorem http_order (capacity : Nat) (requestTimeout : Duration) (inputs : List (Input T)) (id : Nat) :
    let w := Run.final (World.step requestTimeout) (start capacity : World T) inputs
    navigationTx id ∈ w.mailbox.senders → [commandTx id, navigationTx id].Sublist w.mailbox.senders ∧
      ∃ resp, w.answers (commandTx id) = .sent (.response (.ok resp)) := by
  intro w
  have hkept : w.Sound ∧ w.Accounted ∧
      (∀ (id : Nat) (call : Call T), w.calls[id]? = some call → w.Commanded id call.future) ∧
      ∀ id, navigationTx id ∈ w.mailbox.senders → [commandTx id, navigationTx id].Sublist w.mailbox.senders ∧
        ∃ resp, w.answers (commandTx id) = .sent (.response (.ok resp)) := by
    refine Run.invariant_of_step (fun w : World T => w.Sound ∧ w.Accounted ∧
      (∀ (id : Nat) (call : Call T), w.calls[id]? = some call → w.Commanded id call.future) ∧
      ∀ id, navigationTx id ∈ w.mailbox.senders → [commandTx id, navigationTx id].Sublist w.mailbox.senders ∧
        ∃ resp, w.answers (commandTx id) = .sent (.response (.ok resp))) ?_ ?_ inputs
    · rintro w input ⟨hsound, haccounted, hcommanded, horder⟩
      refine ⟨hsound.step requestTimeout input, haccounted.step requestTimeout input, commanded_step hcommanded input, ?_⟩
      intro id hin
      have hacts := act_acts requestTimeout w input
      have hlater : w.toScene.Later (w.step requestTimeout input).toScene := hacts.later
      have hanswers : ∀ {resp}, w.answers (commandTx id) = .sent (.response (.ok resp)) →
          (w.step requestTimeout input).answers (commandTx id) = .sent (.response (.ok resp)) :=
        fun hresp => (hlater.answers _ (by rw [hresp]; simp)).trans hresp
      obtain hsame | ⟨tx, parcel, rest, call, hcall, hlive, hsends, hmore⟩ := hacts.senders hsound
      · have hsenders : (w.step requestTimeout input).mailbox.senders = w.mailbox.senders := hsame
        rw [hsenders] at hin ⊢
        obtain ⟨hsublist, resp, hresp⟩ := horder id hin
        exact ⟨hsublist, resp, hanswers hresp⟩
      · have hsenders : (w.step requestTimeout input).mailbox.senders = w.mailbox.senders ++ [tx] := hmore
        rw [hsenders] at hin ⊢
        obtain hold | hnew := List.mem_append.1 hin
        · obtain ⟨hsublist, resp, hresp⟩ := horder id hold
          exact ⟨hsublist.trans (List.sublist_append_left _ _), resp, hanswers hresp⟩
        · obtain rfl := List.mem_singleton.1 hnew
          rw [callOf_navigationTx] at hcall
          obtain ⟨hnamed, hcommand⟩ := hcommanded id call hcall
          obtain ⟨g, hg, hnone⟩ := command_none_of_first hnamed hsends
          obtain ⟨resp, hresp⟩ := hcommand g hg hnone
          have hsettled : w.answers (commandTx id) ≠ .waiting := by
            rw [hresp]
            simp
          have hentered := haccounted.mem_senders hsound hsettled
          exact ⟨(List.singleton_sublist.2 hentered).append (List.Sublist.refl _), resp, hanswers hresp⟩
    · exact ⟨sound_start capacity, accounted_start capacity, fun id call hcall => (by cases hcall),
        fun id hin => (by cases hin)⟩
  exact hkept.2.2.2 id

/-- The command is taken and answered, and the next poll sends the wait. -/
theorem http_order_navigates :
    let w := Run.final (World.step 5) (start 1 : World Unit)
      [.httpFuture ⟨"Page.navigate", some .null, fun _ => some ()⟩ none, .poll 0, .recv,
        .respond (commandTx 0) (.response (.ok ⟨⟨0⟩, some .null, none⟩)), .poll 0, .poll 0]
    navigationTx 0 ∈ w.mailbox.senders ∧ [commandTx 0, navigationTx 0].Sublist w.mailbox.senders ∧
      ∃ resp, w.answers (commandTx 0) = .sent (.response (.ok resp)) := by
  have hentered : navigationTx 0 ∈ (Run.final (World.step 5) (start 1 : World Unit)
      [.httpFuture ⟨"Page.navigate", some .null, fun _ => some ()⟩ none, .poll 0, .recv,
        .respond (commandTx 0) (.response (.ok ⟨⟨0⟩, some .null, none⟩)), .poll 0, .poll 0]).mailbox.senders := by
    decide
  exact ⟨hentered, http_order 1 5 _ 0 hentered⟩

end World

end Futures

end SpiderChrome
