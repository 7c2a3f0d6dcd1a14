import SpiderChrome.Futures.Delivery

/-!
# Where results come from

A call that is done got its result from one of few places: the deadline it set itself, the channel that is closed, or the answer that the handler gave to the very message that the call had put into the channel. `Explained` lists them, and every done call of every run is explained.
-/

namespace SpiderChrome

namespace Futures

variable {T : Type}

/-! ### What a future makes of an answer -/

/-- The channel on which a future may receive something as it stands. -/
def Future.awaits : Future T → Option Sender
  | command f => some f.delivery.tx
  | wait f => some f.delivery.tx
  | http ⟨some asked, _⟩ => some asked.delivery.tx
  | http ⟨none, navigation⟩ => some navigation.delivery.tx
  | execute ⟨.ok exchange, _⟩ => some exchange.tx
  | execute ⟨.error _, _⟩ => none
  | ask f => some f.tx
  | tell _ => none

/-- The answer ends the future with this result. -/
def Future.Reads (reply : Reply) (result : Except CallError (Answer T)) : Future T → Prop
  | command f => result = (commandResponse f.decode reply).map .decoded
  | wait _ => result = .ok (.reply reply)
  | http ⟨some asked, _⟩ => ∃ err, commandResponse asked.decode reply = .error err ∧ result = .error err
  | http ⟨none, _⟩ => result = .ok (.reply reply)
  | execute f => result = (commandResponse f.decode reply).map .decoded
  | ask _ => result = .ok (.reply reply)
  | tell _ => False

/-- The deadline of the wait that a future is in has passed. -/
def Delivery.Overdue (s : Scene) (f : Delivery) : Prop := f.delay ≤ s.now

def Sending.Overdue (s : Scene) : Sending → Prop
  | start _ => False
  | send _ _ deadline => deadline ≤ s.now

def Exchange.Overdue (s : Scene) (f : Exchange) : Prop :=
  match f.state with
  | .sending sending => sending.Overdue s
  | .receiving deadline => deadline ≤ s.now

def Future.Overdue (s : Scene) : Future T → Prop
  | command f => f.delivery.Overdue s
  | wait f => f.delivery.Overdue s
  | http ⟨some asked, _⟩ => asked.delivery.Overdue s
  | http ⟨none, navigation⟩ => navigation.delivery.Overdue s
  | execute ⟨.ok exchange, _⟩ => exchange.Overdue s
  | execute ⟨.error _, _⟩ => False
  | ask f => f.Overdue s
  | tell f => f.sending.Overdue s

/-- Where the result of a future comes from. -/
inductive Explained (s : Scene) (f : Future T) : Except CallError (Answer T) → Prop where
  | timeout (h : f.Overdue s) : Explained s f (.error (.cdp .timeout))
  | closed (h : s.mailbox.closed = true) : Explained s f (.error .channelSend)
  | serde {g : Execute T} {err : CallError} (hfuture : f = .execute g) (h : g.exchange = .error err) :
    Explained s f (.error err)
  | canceled {tx : Sender} (htx : f.awaits = some tx) (h : s.answers tx = .dropped) : Explained s f (.error .canceled)
  | answered {tx : Sender} {reply : Reply} {result : Except CallError (Answer T)} (htx : f.awaits = some tx)
    (h : s.answers tx = .sent reply) (hreads : f.Reads reply result) : Explained s f result
  | sent {g : Tell} (hfuture : f = .tell g) (h : g.tx ∈ s.mailbox.senders) : Explained s f (.ok .sent)

/-! ### Results of the parts -/

/-- The result of a future that delivers a message and waits for its answer. -/
inductive Delivered (s : Scene) (tx : Sender) (overdue : Prop) : Except CallError Reply → Prop where
  | timeout (h : overdue) : Delivered s tx overdue (.error (.cdp .timeout))
  | closed (h : s.mailbox.closed = true) : Delivered s tx overdue (.error .channelSend)
  | canceled (h : s.answers tx = .dropped) : Delivered s tx overdue (.error .canceled)
  | answered {reply : Reply} (h : s.answers tx = .sent reply) : Delivered s tx overdue (.ok reply)

variable {s : Scene} {mailbox : PageMailbox} {tx : Sender}

theorem Delivery.delivered {f : Delivery} {result : Except CallError Reply} (h : f.poll s = .ready mailbox result) :
    Delivered { s with mailbox := mailbox } f.tx (f.Overdue s) result := by
  obtain ⟨tx, parcel, delay⟩ := f
  cases parcel with
  | message msg =>
    simp only [Delivery.poll] at h
    split at h
    · cases h
    · cases h
    · rename_i hclosed
      cases h
      exact .closed (Mailbox.trySend_eq_closed hclosed)
  | sendFut msg queued =>
    simp only [Delivery.poll] at h
    split at h
    · cases h
    · split at h
      · rename_i hlate
        cases h
        exact .timeout hlate
      · cases h
    · rename_i hclosed
      cases h
      exact .closed (Mailbox.pollSend_eq_closed hclosed)
  | delivered =>
    simp only [Delivery.poll] at h
    split at h
    · rename_i hlate
      cases h
      exact .timeout hlate
    · split at h
      · rename_i hanswer
        cases h
        exact .answered hanswer
      · rename_i hanswer
        cases h
        exact .canceled hanswer
      · cases h

/-- A message that is sent is in the record. -/
theorem Sending.result {f : Sending} {requestTimeout : Duration} {result : Except CallError Unit}
    (h : f.poll requestTimeout tx s = .ready mailbox result) :
    result = .error (.cdp .timeout) ∧ f.Overdue s ∨ result = .error .channelSend ∧ mailbox.closed = true ∨
      result = .ok () ∧ tx ∈ mailbox.senders := by
  cases f with
  | start msg =>
    simp only [Sending.poll] at h
    split at h
    · rename_i hsent
      cases h
      obtain ⟨-, channel, -, rfl⟩ := Mailbox.trySend_eq_sent hsent
      refine Or.inr (Or.inr ⟨rfl, ?_⟩)
      rw [Mailbox.senders_put]
      exact List.mem_append_right _ (List.mem_singleton_self tx)
    · cases h
    · rename_i hclosed
      cases h
      exact Or.inr (Or.inl ⟨rfl, Mailbox.trySend_eq_closed hclosed⟩)
  | send msg queued deadline =>
    simp only [Sending.poll] at h
    split at h
    · rename_i hsent
      cases h
      obtain ⟨-, channel, rfl, -⟩ := Mailbox.pollSend_eq_sent hsent
      refine Or.inr (Or.inr ⟨rfl, ?_⟩)
      rw [Mailbox.senders_put]
      exact List.mem_append_right _ (List.mem_singleton_self tx)
    · split at h
      · rename_i hlate
        cases h
        exact Or.inl ⟨rfl, hlate⟩
      · cases h
    · rename_i hclosed
      cases h
      exact Or.inr (Or.inl ⟨rfl, Mailbox.pollSend_eq_closed hclosed⟩)

theorem Exchange.delivered {f : Exchange} {result : Except CallError Reply} (h : f.poll s = .ready mailbox result) :
    Delivered { s with mailbox := mailbox } f.tx (f.Overdue s) result := by
  obtain ⟨tx, requestTimeout, state⟩ := f
  cases state with
  | sending sending =>
    simp only [Exchange.poll] at h
    cases hpiece : sending.poll requestTimeout tx s with
    | goesOn mailbox' next =>
      rw [hpiece] at h
      cases h
    | pending mailbox' next wakers =>
      rw [hpiece] at h
      cases h
    | ready mailbox' result' =>
      rw [hpiece] at h
      obtain ⟨rfl, hlate⟩ | ⟨rfl, hclosed⟩ | ⟨rfl, -⟩ := Sending.result hpiece
      · cases h
        exact .timeout hlate
      · cases h
        exact .closed hclosed
      · cases h
  | receiving deadline =>
    simp only [Exchange.poll] at h
    split at h
    · rename_i hanswer
      cases h
      exact .answered hanswer
    · rename_i hanswer
      cases h
      exact .canceled hanswer
    · split at h
      · rename_i hlate
        cases h
        exact .timeout hlate
      · cases h

theorem Piece.map_eq_ready {F F' R R' : Type} {f : F → F'} {r : R → R'} {piece : Piece F R} {result : R'}
    (h : piece.map f r = .ready mailbox result) : ∃ before, piece = .ready mailbox before ∧ result = r before := by
  cases piece with
  | goesOn mailbox future => cases h
  | pending mailbox future wakers => cases h
  | ready mailbox before =>
    cases h
    exact ⟨before, rfl, rfl⟩

/-- The result of a command, from what its delivery came to. -/
theorem Delivered.command {f : Future T} {overdue : Prop} {before : Except CallError Reply} {decode : Value → Option T}
    {result : Except CallError (Answer T)} (h : Delivered s tx overdue before) (htx : f.awaits = some tx)
    (hoverdue : overdue → f.Overdue s)
    (hreads : ∀ reply result, result = (commandResponse decode reply).map Answer.decoded → f.Reads reply result)
    (hresult : result = (before.bind (commandResponse decode)).map .decoded) : Explained s f result := by
  subst hresult
  cases h with
  | timeout hlate => exact .timeout (hoverdue hlate)
  | closed hclosed => exact .closed hclosed
  | canceled hdropped => exact .canceled htx hdropped
  | answered hanswer => exact .answered htx hanswer (hreads _ _ rfl)

/-- The result of a wait, from what its delivery came to. -/
theorem Delivered.reply {f : Future T} {overdue : Prop} {before : Except CallError Reply}
    {result : Except CallError (Answer T)} (h : Delivered s tx overdue before) (htx : f.awaits = some tx)
    (hoverdue : overdue → f.Overdue s) (hreads : ∀ reply, f.Reads reply (.ok (.reply reply)))
    (hresult : result = before.map .reply) : Explained s f result := by
  subst hresult
  cases h with
  | timeout hlate => exact .timeout (hoverdue hlate)
  | closed hclosed => exact .closed hclosed
  | canceled hdropped => exact .canceled htx hdropped
  | answered hanswer => exact .answered htx hanswer (hreads _)

theorem HttpFuture.explained {f : HttpFuture T} {result : Except CallError (Answer T)}
    (h : (Future.http f).poll s = .ready mailbox result) :
    Explained { s with mailbox := mailbox } (.http f) result := by
  obtain ⟨before, hpiece, hresult⟩ := Piece.map_eq_ready h
  obtain ⟨command, navigation⟩ := f
  cases command with
  | none =>
    obtain ⟨target, htarget, rfl⟩ := Piece.map_eq_ready hpiece
    obtain ⟨reply, hreply, rfl⟩ := Piece.map_eq_ready htarget
    exact (Delivery.delivered hreply).reply rfl id (fun _ => rfl) hresult
  | some command =>
    simp only [HttpFuture.poll] at hpiece
    cases hcommand : command.poll s with
    | goesOn mailbox' next =>
      rw [hcommand] at hpiece
      cases hpiece
    | pending mailbox' next wakers =>
      rw [hcommand] at hpiece
      cases hpiece
    | ready mailbox' outcome =>
      rw [hcommand] at hpiece
      obtain ⟨delivery, hdelivery, houtcome⟩ := Piece.map_eq_ready hcommand
      cases outcome with
      | ok value => cases hpiece
      | error err =>
        cases hpiece
        subst hresult
        cases Delivery.delivered hdelivery with
        | timeout hlate =>
          cases houtcome
          exact .timeout hlate
        | closed hclosed =>
          cases houtcome
          exact .closed hclosed
        | canceled hdropped =>
          cases houtcome
          exact .canceled rfl hdropped
        | answered hanswer => exact .answered rfl hanswer ⟨err, houtcome.symm, rfl⟩

/-- A piece that is ready. -/
theorem Future.explained {f : Future T} {result : Except CallError (Answer T)} (h : f.poll s = .ready mailbox result) :
    Explained { s with mailbox := mailbox } f result := by
  cases f with
  | command f =>
    obtain ⟨before, hpiece, hresult⟩ := Piece.map_eq_ready h
    obtain ⟨delivery, hdelivery, rfl⟩ := Piece.map_eq_ready hpiece
    exact (Delivery.delivered hdelivery).command rfl id (fun _ _ heq => heq) hresult
  | wait f =>
    obtain ⟨before, hpiece, hresult⟩ := Piece.map_eq_ready h
    obtain ⟨delivery, hdelivery, rfl⟩ := Piece.map_eq_ready hpiece
    exact (Delivery.delivered hdelivery).reply rfl id (fun _ => rfl) hresult
  | http f => exact HttpFuture.explained h
  | execute f =>
    obtain ⟨before, hpiece, hresult⟩ := Piece.map_eq_ready h
    obtain ⟨exchange, decode⟩ := f
    cases exchange with
    | error err =>
      cases hpiece
      subst hresult
      exact .serde rfl rfl
    | ok exchange =>
      obtain ⟨reply, hreply, rfl⟩ := Piece.map_eq_ready hpiece
      exact (Exchange.delivered hreply).command rfl id (fun _ _ heq => heq) hresult
  | ask f =>
    obtain ⟨before, hpiece, hresult⟩ := Piece.map_eq_ready h
    exact (Exchange.delivered hpiece).reply rfl id (fun _ => rfl) hresult
  | tell f =>
    obtain ⟨before, hpiece, hresult⟩ := Piece.map_eq_ready h
    obtain ⟨outcome, houtcome, rfl⟩ := Piece.map_eq_ready hpiece
    subst hresult
    obtain ⟨rfl, hlate⟩ | ⟨rfl, hclosed⟩ | ⟨rfl, hsent⟩ := Sending.result houtcome
    · exact .timeout hlate
    · exact .closed hclosed
    · exact .sent rfl hsent

/-! ### Later on -/

/-- What an explanation rests on does not go away. -/
structure Scene.Later (s s' : Scene) : Prop where
  now : s.now ≤ s'.now
  closed : s.mailbox.closed = true → s'.mailbox.closed = true
  senders : ∀ tx ∈ s.mailbox.senders, tx ∈ s'.mailbox.senders
  answers : ∀ tx, s.answers tx ≠ .waiting → s'.answers tx = s.answers tx

theorem Scene.Later.refl (s : Scene) : s.Later s := ⟨Nat.le_refl _, id, fun _ h => h, fun _ _ => rfl⟩

theorem Sending.Overdue.later {s' : Scene} {f : Sending} (h : f.Overdue s) (hlater : s.Later s') : f.Overdue s' := by
  cases f with
  | start msg => cases h
  | send msg queued deadline => exact Nat.le_trans h hlater.now

theorem Exchange.Overdue.later {s' : Scene} {f : Exchange} (h : f.Overdue s) (hlater : s.Later s') : f.Overdue s' := by
  obtain ⟨tx, requestTimeout, state⟩ := f
  cases state with
  | sending sending => exact Sending.Overdue.later h hlater
  | receiving deadline => exact Nat.le_trans h hlater.now

theorem Future.Overdue.later {s' : Scene} {f : Future T} (h : f.Overdue s) (hlater : s.Later s') : f.Overdue s' := by
  cases f with
  | command f => exact Nat.le_trans h hlater.now
  | wait f => exact Nat.le_trans h hlater.now
  | http f =>
    obtain ⟨command, navigation⟩ := f
    cases command with
    | none => exact Nat.le_trans h hlater.now
    | some asked => exact Nat.le_trans h hlater.now
  | execute f =>
    obtain ⟨exchange, decode⟩ := f
    cases exchange with
    | error err => cases h
    | ok exchange => exact Exchange.Overdue.later h hlater
  | ask f => exact Exchange.Overdue.later h hlater
  | tell f => exact Sending.Overdue.later h hlater

theorem Explained.later {s' : Scene} {f : Future T} {result : Except CallError (Answer T)} (h : Explained s f result)
    (hlater : s.Later s') : Explained s' f result := by
  cases h with
  | timeout hlate => exact .timeout (hlate.later hlater)
  | closed hclosed => exact .closed (hlater.closed hclosed)
  | serde hfuture herr => exact .serde hfuture herr
  | canceled htx hdropped =>
    refine .canceled htx ?_
    rw [hlater.answers _ (by rw [hdropped]; simp), hdropped]
  | answered htx hanswer hreads =>
    refine .answered htx ?_ hreads
    rw [hlater.answers _ (by rw [hanswer]; simp), hanswer]
  | sent hfuture hsent => exact .sent hfuture (hlater.senders _ hsent)

/-! ### Whose messages they are -/

def Parcel.msg? : Parcel → Option TargetMessage
  | message msg | sendFut msg _ => some msg
  | delivered => none

/-- The message asks for its answer on the channel, or for none. -/
def Carries (tx : Sender) (msg : TargetMessage) : Prop := ∀ other ∈ msg.tx?, other = tx

theorem carries_withSender (tx : Sender) (msg : TargetMessage) : Carries tx (msg.withSender tx) := by
  intro other hother
  cases msg with
  | cacheKey key policy => cases hother
  | addEventListener method => cases hother
  | authenticate credentials => cases hother
  | blockNetwork blocked => cases hother
  | enableInterception enabled => cases hother
  | _ => exact (Option.some.inj hother).symm

theorem Moves.record {parcel parcel' : Parcel} (h : Moves s tx parcel parcel' mailbox) :
    mailbox.closed = s.mailbox.closed ∧ mailbox.taken = s.mailbox.taken ∧ mailbox.lost = s.mailbox.lost ∧
      (∀ msg ∈ parcel'.msg?, msg ∈ parcel.msg?) ∧
      (mailbox.entered = s.mailbox.entered ∨ ∃ msg ∈ parcel.msg?, mailbox.entered = s.mailbox.entered ++ [(tx, msg)]) := by
  cases h with
  | stays => exact ⟨rfl, rfl, rfl, fun _ hmsg => hmsg, Or.inl rfl⟩
  | full msg => exact ⟨rfl, rfl, rfl, fun _ hmsg => hmsg, Or.inl rfl⟩
  | sentAtOnce hsent =>
    obtain ⟨-, channel, -, rfl⟩ := Mailbox.trySend_eq_sent hsent
    exact ⟨rfl, rfl, rfl, (by simp [Parcel.msg?]), Or.inr ⟨_, rfl, rfl⟩⟩
  | sent hsent =>
    obtain ⟨-, channel, rfl, -⟩ := Mailbox.pollSend_eq_sent hsent
    exact ⟨rfl, rfl, rfl, (by simp [Parcel.msg?]), Or.inr ⟨_, rfl, rfl⟩⟩
  | waits hwaits =>
    obtain ⟨-, ⟨-, -, rfl⟩ | ⟨-, -, rfl⟩⟩ := Mailbox.pollSend_eq_waits hwaits
    · exact ⟨rfl, rfl, rfl, fun _ hmsg => hmsg, Or.inl rfl⟩
    · exact ⟨rfl, rfl, rfl, fun _ hmsg => hmsg, Or.inl rfl⟩

/-- The messages of a new future carry its channels. -/
theorem Future.Starts.carries {requestTimeout : Duration} {id : Nat} {now : Instant} {future : Future T}
    (h : future.Starts requestTimeout id now) : ∀ send ∈ future.sends, ∀ msg ∈ send.2.msg?, Carries send.1 msg := by
  have hsingle : ∀ (tx : Sender) (msg : TargetMessage), future.sends = [(tx, .message (msg.withSender tx))] →
      ∀ send ∈ future.sends, ∀ msg ∈ send.2.msg?, Carries send.1 msg := by
    intro tx msg hsends send hsend msg' hmsg
    rw [hsends] at hsend
    rw [List.mem_singleton.1 hsend] at hmsg ⊢
    rw [← Option.some.inj hmsg]
    exact carries_withSender tx msg
  cases h with
  | command hnew =>
    rw [CommandFuture.new] at hnew
    split at hnew
    · cases hnew
    · cases hnew
      exact hsingle _ _ rfl
  | wait msg => exact hsingle _ _ rfl
  | http hnew =>
    rw [CommandFuture.new] at hnew
    split at hnew
    · cases hnew
    · cases hnew
      intro send hsend msg hmsg
      obtain rfl | hsend := List.mem_cons.1 hsend
      · rw [← Option.some.inj hmsg]
        exact carries_withSender _ _
      · rw [List.mem_singleton.1 hsend] at hmsg ⊢
        rw [← Option.some.inj hmsg]
        exact carries_withSender _ _
  | execute cmd session =>
    cases hparams : cmd.params with
    | none =>
      intro send hsend
      simp only [Future.sends, Execute.new, hparams, List.not_mem_nil] at hsend
    | some params =>
      refine hsingle (commandTx id) (.command ⟨cmd.method, session, params, commandTx id⟩) ?_
      simp only [Future.sends, Execute.new, hparams, Exchange.new, Exchange.parcel, Sending.parcel]
  | ask msg => exact hsingle _ _ rfl
  | tell msg => exact hsingle _ _ rfl

/-! ### Worlds -/

namespace World

variable {w w' : World T} {requestTimeout : Duration} {input : Input T} {id : Nat} {call : Call T}

/-- The messages carry the channels they are sent under, and a channel that is settled is that of a message that the handler took, or that was lost. -/
structure Accounted (w : World T) : Prop where
  held : ∀ id, ∀ send ∈ w.holdings id, ∀ msg ∈ send.2.msg?, Carries send.1 msg
  entered : ∀ entry ∈ w.mailbox.entered, Carries entry.1 entry.2
  answered : ∀ tx reply, w.answers tx = .sent reply →
    ∃ msg ∈ w.mailbox.taken, msg.tx? = some tx ∧ msg.accepts reply = true
  settled : ∀ tx, w.answers tx ≠ .waiting → ∃ msg ∈ w.mailbox.taken ++ w.mailbox.lost, msg.tx? = some tx

/-- What has come of the calls that are done. -/
def AllExplained (w : World T) : Prop :=
  ∀ (id : Nat) (call : Call T) (result : Except CallError (Answer T)), w.calls[id]? = some call →
    call.status = .done result → Explained w.toScene call.future result

theorem accounted_start (capacity : Nat) : (start capacity : World T).Accounted where
  held := fun _ _ h => absurd h List.not_mem_nil
  entered := fun _ h => absurd h List.not_mem_nil
  answered := fun _ _ h => by cases h
  settled := fun _ h => absurd rfl h

/-- The mailbox after a piece of a live call. -/
theorem mailbox_pollCall_record (hcall : w.calls[id]? = some call) (hlive : call.live = true) :
    (w.pollCall id call.future).mailbox.closed = w.mailbox.closed ∧
      (w.pollCall id call.future).mailbox.taken = w.mailbox.taken ∧
      (w.pollCall id call.future).mailbox.lost = w.mailbox.lost ∧
      ((w.pollCall id call.future).mailbox.entered = w.mailbox.entered ∨
        ∃ tx parcel, (tx, parcel) ∈ w.holdings id ∧ ∃ msg ∈ parcel.msg?,
          (w.pollCall id call.future).mailbox.entered = w.mailbox.entered ++ [(tx, msg)]) := by
  have hpiece : (call.future.poll w.toScene).mailbox.closed = w.mailbox.closed ∧
      (call.future.poll w.toScene).mailbox.taken = w.mailbox.taken ∧
      (call.future.poll w.toScene).mailbox.lost = w.mailbox.lost ∧
      ((call.future.poll w.toScene).mailbox.entered = w.mailbox.entered ∨
        ∃ tx parcel, (tx, parcel) ∈ w.holdings id ∧ ∃ msg ∈ parcel.msg?,
          (call.future.poll w.toScene).mailbox.entered = w.mailbox.entered ++ [(tx, msg)]) := by
    cases call.future.poll_advances w.toScene with
    | quiet hmailbox _ =>
      rw [hmailbox]
      exact ⟨rfl, rfl, rfl, Or.inl rfl⟩
    | moves hsends hmoves _ =>
      rename_i tx parcel parcel' rest _
      obtain ⟨hclosed, htaken, hlost, -, hentered⟩ := hmoves.record
      refine ⟨hclosed, htaken, hlost, hentered.imp_right fun hmore => ⟨tx, parcel, ?_, hmore⟩⟩
      rw [holdings_of_live hcall hlive, hsends]
      exact List.mem_cons_self
  obtain hmailbox | hmailbox := w.mailbox_pollCall id call.future
  · rw [hmailbox]
    exact hpiece
  · rw [hmailbox]
    exact hpiece

theorem Acts.later (hacts : w.Acts requestTimeout input w') : w.toScene.Later w'.toScene := by
  cases hacts with
  | idle => exact .refl _
  | added => exact .refl _
  | polled hcall hlive =>
    rename_i id call
    obtain ⟨hclosed, -, -, hentered⟩ := mailbox_pollCall_record hcall hlive
    have hscene : (w.pollCall id call.future).now = w.now ∧ (w.pollCall id call.future).answers = w.answers := by
      rw [World.pollCall]
      cases call.future.poll w.toScene with
      | goesOn mailbox future => exact ⟨rfl, rfl⟩
      | pending mailbox future wakers => exact ⟨rfl, rfl⟩
      | ready mailbox result => exact ⟨rfl, rfl⟩
    refine ⟨Nat.le_of_eq hscene.1.symm, fun h => hclosed.trans h, fun tx htx => ?_, fun tx _ => by rw [hscene.2]⟩
    obtain hsame | ⟨other, parcel, -, msg, -, hmore⟩ := hentered
    · rw [Mailbox.senders, hsame]
      exact htx
    · rw [Mailbox.senders, hmore, List.map_append]
      exact List.mem_append_left _ htx
  | dropped => exact ⟨Nat.le_refl _, id, fun _ h => h, fun _ _ => rfl⟩
  | received => exact ⟨Nat.le_refl _, id, fun _ h => h, fun _ _ => rfl⟩
  | settled hheld hwaiting =>
    refine ⟨Nat.le_refl _, id, fun _ h => h, fun other hother => if_neg ?_⟩
    rintro rfl
    exact hother hwaiting
  | closed =>
    refine ⟨Nat.le_refl _, fun _ => rfl, fun _ h => h, fun tx htx => ?_⟩
    cases hanswer : w.answers tx with
    | waiting => exact absurd hanswer htx
    | sent reply => simp only [World.close, hanswer]
    | dropped => simp only [World.close, hanswer]
  | ticked => exact ⟨Nat.le_succ _, id, fun _ h => h, fun _ _ => rfl⟩

theorem exists_of_holds {tx : Sender} {fits : TargetMessage → Bool} (h : w.holds tx fits = true) :
    ∃ msg ∈ w.mailbox.taken, msg.tx? = some tx ∧ fits msg = true := by
  obtain ⟨msg, hmsg, hboth⟩ := List.any_eq_true.1 h
  obtain ⟨htx, hfits⟩ := Bool.and_eq_true_iff.1 hboth
  exact ⟨msg, hmsg, of_decide_eq_true htx, hfits⟩

theorem Acts.accounted (hacts : w.Acts requestTimeout input w') (h : w.Accounted) : w'.Accounted := by
  -- a call whose messages are among those it had
  have hset : ∀ (w' : World T) {id : Nat} {call : Call T} {future : Future T} {status : Status T},
      w'.calls = w.calls → w.calls[id]? = some call → (∀ send ∈ Call.holdings ⟨call.started, future, status⟩, ∀ msg ∈ send.2.msg?, Carries send.1 msg) →
      ∀ id', ∀ send ∈ (w'.setCall id future status).holdings id', ∀ msg ∈ send.2.msg?, Carries send.1 msg := by
    intro w' id call future status hsame hcall hnew id' send hsend
    rw [holdings_setCall (hsame ▸ hcall), Function.update_apply] at hsend
    split at hsend
    · exact hnew send hsend
    · refine h.held id' send ?_
      rw [holdings, ← hsame]
      exact hsend
  cases hacts with
  | idle => exact h
  | added hstarts _ =>
    refine ⟨fun id send hsend => ?_, h.entered, h.answered, h.settled⟩
    rw [holdings_add, Function.update_apply] at hsend
    split at hsend
    · exact hstarts.carries send hsend
    · exact h.held id send hsend
  | polled hcall hlive =>
    rename_i id call
    obtain ⟨-, htaken, hlost, hentered⟩ := mailbox_pollCall_record hcall hlive
    have hanswers : (w.pollCall id call.future).answers = w.answers := by
      rw [World.pollCall]
      cases call.future.poll w.toScene with
      | goesOn mailbox future => rfl
      | pending mailbox future wakers => rfl
      | ready mailbox result => rfl
    have hold : ∀ send ∈ call.future.sends, ∀ msg ∈ send.2.msg?, Carries send.1 msg := by
      intro send hsend
      exact h.held id send (holdings_of_live hcall hlive ▸ hsend)
    refine ⟨?_, ?_, ?_, ?_⟩
    · have hleft : ∀ g ∈ (call.future.poll w.toScene).future?, ∀ send ∈ g.sends, ∀ msg ∈ send.2.msg?, Carries send.1 msg := by
        intro g hg send hsend msg hmsg
        cases call.future.poll_advances w.toScene with
        | quiet _ hnone =>
          rw [hnone] at hg
          cases hg
        | moves hsends hmoves hfuture =>
          obtain ⟨-, -, -, hkept, -⟩ := hmoves.record
          have hin := hfuture g hg
          rw [hsends] at hold
          obtain hgsends | ⟨-, hgsends⟩ := hin
          · rw [hgsends] at hsend
            obtain rfl | hrest := List.mem_cons.1 hsend
            · exact hold _ List.mem_cons_self msg (hkept msg hmsg)
            · exact hold send (List.mem_cons_of_mem _ hrest) msg hmsg
          · rw [hgsends] at hsend
            exact hold send (List.mem_cons_of_mem _ hsend) msg hmsg
      rw [World.pollCall]
      cases hpiece : call.future.poll w.toScene with
      | goesOn mailbox future =>
        rw [hpiece] at hleft
        exact hset { w with mailbox := mailbox } rfl hcall (hleft future rfl)
      | pending mailbox future wakers =>
        rw [hpiece] at hleft
        exact hset { w with mailbox := mailbox } rfl hcall (hleft future rfl)
      | ready mailbox result =>
        have hnone : ∀ send ∈ Call.holdings ⟨call.started, call.future, .done result⟩, ∀ msg ∈ send.2.msg?,
            Carries send.1 msg := fun _ hsend => absurd hsend List.not_mem_nil
        exact hset ({ w with mailbox := mailbox }.leave id) rfl hcall hnone
    · intro entry hentry
      obtain hsame | ⟨tx, parcel, hholds, msg, hmsg, hmore⟩ := hentered
      · exact h.entered entry (hsame ▸ hentry)
      · rw [hmore] at hentry
        obtain hbefore | hnew := List.mem_append.1 hentry
        · exact h.entered entry hbefore
        · rw [List.mem_singleton.1 hnew]
          exact h.held id _ hholds msg hmsg
    · rw [hanswers, htaken]
      exact h.answered
    · rw [hanswers, htaken, hlost]
      exact h.settled
  | dropped hcall _ =>
    rename_i id call _
    have hnone : ∀ send ∈ Call.holdings ⟨call.started, call.future, .dropped⟩, ∀ msg ∈ send.2.msg?,
        Carries send.1 msg := fun _ hsend => absurd hsend List.not_mem_nil
    exact ⟨hset (w.leave id) rfl hcall hnone, h.entered, h.answered, h.settled⟩
  | received =>
    refine ⟨h.held, h.entered, fun tx reply hanswer => ?_, fun tx hanswer => ?_⟩
    · obtain ⟨msg, hmsg, hboth⟩ := h.answered tx reply hanswer
      exact ⟨msg, List.mem_append_left _ hmsg, hboth⟩
    · obtain ⟨msg, hmsg, htx⟩ := h.settled tx hanswer
      refine ⟨msg, ?_, htx⟩
      obtain htaken | hlost := List.mem_append.1 hmsg
      · exact List.mem_append_left _ (List.mem_append_left _ htaken)
      · exact List.mem_append_right _ hlost
  | settled hheld hwaiting hanswer hfits =>
    rename_i tx answer
    refine ⟨h.held, h.entered, fun other reply hother => ?_, fun other hother => ?_⟩
    · simp only at hother
      split at hother
      · rename_i heq
        rw [heq]
        exact exists_of_holds (hfits reply hother)
      · exact h.answered other reply hother
    · simp only at hother
      split at hother
      · rename_i heq
        obtain ⟨msg, hmsg, htx, -⟩ := exists_of_holds hheld
        exact ⟨msg, List.mem_append_left _ hmsg, heq ▸ htx⟩
      · exact h.settled other hother
  | closed =>
    refine ⟨h.held, h.entered, fun tx reply hanswer => ?_, fun tx hanswer => ?_⟩
    · simp only [World.close] at hanswer
      split at hanswer
      · split at hanswer
        · cases hanswer
        · cases hanswer
      · exact h.answered tx reply hanswer
    · simp only [World.close] at hanswer
      split at hanswer
      · split at hanswer
        · rename_i hany
          obtain ⟨msg, hmsg, htx⟩ := List.any_eq_true.1 hany
          refine ⟨msg, List.mem_append_right _ (List.mem_append_right _ hmsg), of_decide_eq_true htx⟩
        · exact absurd rfl hanswer
      · obtain ⟨msg, hmsg, htx⟩ := h.settled tx hanswer
        refine ⟨msg, ?_, htx⟩
        obtain htaken | hlost := List.mem_append.1 hmsg
        · exact List.mem_append_left _ htaken
        · exact List.mem_append_right _ (List.mem_append_left _ hlost)
  | ticked => exact ⟨h.held, h.entered, h.answered, h.settled⟩

theorem Accounted.step (h : w.Accounted) (requestTimeout : Duration) (input : Input T) :
    (w.step requestTimeout input).Accounted := by
  obtain ⟨hheld, hentered, hanswered, hsettled⟩ := (act_acts requestTimeout w input).accounted h
  refine ⟨?_, hentered, hanswered, hsettled⟩
  rw [holdings_step]
  exact hheld

/-- A call that is done after an action was done before, or has just been polled. -/
theorem AllExplained.step (h : w.AllExplained) (requestTimeout : Duration) (input : Input T) :
    (w.step requestTimeout input).AllExplained := by
  intro id call result hcall hdone
  have hacts := act_acts requestTimeout w input
  rw [get_step] at hcall
  obtain ⟨old, hold, rfl⟩ := Option.map_eq_some_iff.1 hcall
  have hstatus : old.status = .done result := by
    rw [Call.wake] at hdone
    split at hdone
    · rename_i hparked
      split at hdone
      · cases hdone
      · exact hdone
    · exact hdone
  rw [future_wake]
  show Explained (w.act requestTimeout input).toScene old.future result
  obtain hbefore | ⟨future, -, rfl, -⟩ | ⟨other, -, hother, -, hact, rfl⟩ | ⟨other, -, -, -, rfl⟩ := hacts.get hold
  · exact (h id old result hbefore hstatus).later hacts.later
  · cases hstatus
  · rw [hact, World.pollCall]
    cases hpiece : other.future.poll w.toScene with
    | goesOn mailbox future =>
      rw [hpiece] at hstatus
      cases hstatus
    | pending mailbox future wakers =>
      rw [hpiece] at hstatus
      cases hstatus
    | ready mailbox result' =>
      rw [hpiece] at hstatus
      cases hstatus
      exact (Future.explained hpiece).later ⟨Nat.le_refl _, fun hclosed => hclosed, fun _ hin => hin, fun _ _ => rfl⟩
  · cases hstatus

theorem explained_final (capacity : Nat) (requestTimeout : Duration) (inputs : List (Input T)) :
    let w := Run.final (World.step requestTimeout) (start capacity : World T) inputs
    w.Sound ∧ w.Accounted ∧ w.AllExplained :=
  Run.invariant_of_step (fun w : World T => w.Sound ∧ w.Accounted ∧ w.AllExplained)
    (fun w input h => ⟨h.1.step requestTimeout input, h.2.1.step requestTimeout input, h.2.2.step requestTimeout input⟩)
    ⟨sound_start capacity, accounted_start capacity, fun id call result hcall => by cases hcall⟩ inputs

/-- In every run, each call that is done got its result from its own deadline, from a channel that is closed or dropped, or from the answer on its channel; and every answer on a channel is one that the handler gave to the message that was sent under the channel's name, and fits it. -/
theorem results_explained (capacity : Nat) (requestTimeout : Duration) (inputs : List (Input T)) :
    let w := Run.final (World.step requestTimeout) (start capacity : World T) inputs
    (∀ (id : Nat) (call : Call T) (result : Except CallError (Answer T)), w.calls[id]? = some call →
      call.status = .done result → Explained w.toScene call.future result) ∧
    ∀ tx reply, w.answers tx = .sent reply →
      ∃ msg ∈ w.mailbox.taken, msg.tx? = some tx ∧ msg.accepts reply = true ∧ (tx, msg) ∈ w.mailbox.entered := by
  intro w
  obtain ⟨hsound, haccounted, hexplained⟩ : w.Sound ∧ w.Accounted ∧ w.AllExplained :=
    explained_final capacity requestTimeout inputs
  refine ⟨hexplained, fun tx reply hanswer => ?_⟩
  obtain ⟨msg, hmsg, htx, haccepts⟩ := haccounted.answered tx reply hanswer
  have hin : msg ∈ w.mailbox.entered.map Prod.snd := by
    rw [(Filed.mailbox hsound).order]
    exact List.mem_append_left _ (List.mem_append_left _ hmsg)
  obtain ⟨⟨who, msg'⟩, hentry, hmsg'⟩ := List.mem_map.1 hin
  obtain rfl : msg' = msg := hmsg'
  have hwho : tx = who := haccounted.entered _ hentry tx htx
  exact ⟨msg', hmsg, htx, haccepts, hwho ▸ hentry⟩

end World

end Futures

end SpiderChrome
