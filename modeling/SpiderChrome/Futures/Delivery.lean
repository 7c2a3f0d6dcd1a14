import SpiderChrome.Futures.Steps

/-!
# No message twice, and none after the end

`Filed` relates the mailbox to the messages that the live futures hold: a message stands in line exactly if its future waits there, and is in the record of the channel as soon as its future is done with it, but not before. Every step of a world keeps it. So the record never holds two messages of one name, the line holds nobody who is gone, and a call that has ended leaves nothing behind that could still enter.
-/

namespace SpiderChrome

namespace Futures

variable {T : Type}

/-! ### Messages and the mailbox -/

def Parcel.isQueued : Parcel → Bool
  | sendFut _ queued => queued
  | _ => false

/-- The call that a channel belongs to. -/
def callOf (tx : Sender) : Nat := tx.id / 2

@[simp] theorem callOf_commandTx (id : Nat) : callOf (commandTx id) = id := by
  show 2 * id / 2 = id
  omega

@[simp] theorem callOf_navigationTx (id : Nat) : callOf (navigationTx id) = id := by
  show (2 * id + 1) / 2 = id
  omega

theorem eq_of_callOf {tx : Sender} {id : Nat} (h : callOf tx = id) : tx = commandTx id ∨ tx = navigationTx id := by
  obtain ⟨n⟩ := tx
  have hsplit : n = 2 * id ∨ n = 2 * id + 1 := by
    simp only [callOf] at h
    omega
  obtain rfl | rfl := hsplit
  · exact Or.inl rfl
  · exact Or.inr rfl

theorem commandTx_ne_navigationTx (id id' : Nat) : commandTx id ≠ navigationTx id' := by
  intro heq
  have hid := congrArg Sender.id heq
  simp only [commandTx, navigationTx] at hid
  omega

/-- What a move does to the line and to the record. -/
theorem Moves.changes {s : Scene} {tx : Sender} {parcel parcel' : Parcel} {mailbox : PageMailbox}
    (h : Moves s tx parcel parcel' mailbox) (hsound : s.mailbox.Sound)
    (hqueued : tx ∈ s.mailbox.line ↔ parcel.isQueued = true) :
    mailbox.Sound ∧ (∀ other, other ≠ tx → (other ∈ mailbox.line ↔ other ∈ s.mailbox.line)) ∧
      (tx ∈ mailbox.line ↔ parcel'.isQueued = true) ∧
      (mailbox.senders = s.mailbox.senders ∧ (parcel' = .delivered ↔ parcel = .delivered) ∨
        parcel ≠ .delivered ∧ parcel' = .delivered ∧ mailbox.senders = s.mailbox.senders ++ [tx]) := by
  cases h with
  | stays => exact ⟨hsound, fun _ _ => Iff.rfl, hqueued, Or.inl ⟨rfl, Iff.rfl⟩⟩
  | full msg => exact ⟨hsound, fun _ _ => Iff.rfl, hqueued, Or.inl ⟨rfl, (by simp)⟩⟩
  | sentAtOnce hsent =>
    have hsound' := hsound.trySend hsent
    obtain ⟨-, channel, htry, rfl⟩ := Mailbox.trySend_eq_sent hsent
    have hline := Mailbox.line_trySend htry
    refine ⟨hsound', fun other _ => by rw [Mailbox.line_put, hline, Mailbox.line], ?_,
      Or.inr ⟨by simp, rfl, Mailbox.senders_put _ _ _ _⟩⟩
    rw [Mailbox.line_put, hline]
    exact hqueued
  | sent hsent =>
    have hsound' := hsound.pollSend hsent
    obtain ⟨-, channel, rfl, ⟨rfl, hpush⟩ | ⟨rfl, htry⟩⟩ := Mailbox.pollSend_eq_sent hsent
    · have hline := Channel.line_push hpush
      refine ⟨hsound', fun other hne => ?_, ?_, Or.inr ⟨by simp, rfl, Mailbox.senders_put _ _ _ _⟩⟩
      · rw [Mailbox.line_put, hline]
        exact List.mem_erase_of_ne hne
      · rw [Mailbox.line_put, hline]
        exact iff_of_false hsound.distinct.not_mem_erase (by simp [Parcel.isQueued])
    · have hline := Mailbox.line_trySend htry
      refine ⟨hsound', fun other _ => by rw [Mailbox.line_put, hline, Mailbox.line], ?_,
        Or.inr ⟨by simp, rfl, Mailbox.senders_put _ _ _ _⟩⟩
      rw [Mailbox.line_put, hline]
      exact hqueued
  | waits hwaits =>
    have hnew := hsound.waits hwaits (fun hfalse => by rw [hqueued, Parcel.isQueued, hfalse]; simp)
    obtain ⟨-, ⟨rfl, -, rfl⟩ | ⟨rfl, -, rfl⟩⟩ := Mailbox.pollSend_eq_waits hwaits
    · exact ⟨hsound, fun _ _ => Iff.rfl, hqueued, Or.inl ⟨rfl, (by simp)⟩⟩
    · have hline : Mailbox.line { s.mailbox with channel := s.mailbox.channel.enqueue tx } = s.mailbox.line ++ [tx] :=
        Channel.line_enqueue _ _
      refine ⟨hnew, fun other hne => ?_, ?_, Or.inl ⟨rfl, (by simp)⟩⟩
      · rw [hline, List.mem_append, List.mem_singleton]
        exact or_iff_left hne
      · rw [hline]
        exact iff_of_true (List.mem_append_right _ (List.mem_singleton_self tx)) rfl

/-- The mailbox, against what the futures hold that are alive. -/
structure Filed (holdings : Nat → List (Sender × Parcel)) (count : Nat) (m : PageMailbox) : Prop where
  mailbox : m.Sound
  once : m.senders.Nodup
  entered : ∀ tx ∈ m.senders, callOf tx < count
  known : ∀ id, count ≤ id → holdings id = []
  distinct : ∀ id, ((holdings id).map Prod.fst).Nodup
  named : ∀ id, ∀ send ∈ holdings id, callOf send.1 = id
  queued : ∀ id, ∀ send ∈ holdings id, (send.1 ∈ m.line ↔ send.2.isQueued = true)
  fresh : ∀ id, ∀ send ∈ holdings id, send.2 ≠ .delivered → send.1 ∉ m.senders
  line : ∀ tx ∈ m.line, ∃ msg, (tx, .sendFut msg true) ∈ holdings (callOf tx)

namespace Filed

variable {holdings : Nat → List (Sender × Parcel)} {count id : Nat} {m : PageMailbox}

theorem start (capacity : Nat) : Filed (fun _ => []) 0 (.empty capacity) where
  mailbox := Mailbox.sound_empty capacity
  once := List.nodup_nil
  entered := fun _ h => absurd h List.not_mem_nil
  known := fun _ _ => rfl
  distinct := fun _ => List.nodup_nil
  named := fun _ _ h => absurd h List.not_mem_nil
  queued := fun _ _ h => absurd h List.not_mem_nil
  fresh := fun _ _ h => absurd h List.not_mem_nil
  line := fun _ h => absurd h List.not_mem_nil

theorem callOf_lt (h : Filed holdings count m) {send : Sender × Parcel} (hsend : send ∈ holdings id) : id < count := by
  by_contra hge
  rw [h.known id (Nat.le_of_not_lt hge)] at hsend
  cases hsend

/-- An operation that neither enters anything nor changes the line. -/
theorem congr (h : Filed holdings count m) {m' : PageMailbox} (hmailbox : m'.Sound) (hsenders : m'.senders = m.senders)
    (hline : m'.line = m.line) : Filed holdings count m' where
  mailbox := hmailbox
  once := hsenders ▸ h.once
  entered := hsenders ▸ h.entered
  known := h.known
  distinct := h.distinct
  named := h.named
  queued := hline ▸ h.queued
  fresh := hsenders ▸ h.fresh
  line := hline ▸ h.line

theorem add (h : Filed holdings count m) {sends : List (Sender × Parcel)} (hdistinct : (sends.map Prod.fst).Nodup)
    (hnamed : ∀ send ∈ sends, callOf send.1 = count) (hqueued : ∀ send ∈ sends, send.2.isQueued = false) :
    Filed (Function.update holdings count sends) (count + 1) m where
  mailbox := h.mailbox
  once := h.once
  entered := fun tx htx => Nat.lt_succ_of_lt (h.entered tx htx)
  known := fun id hid => by
    rw [Function.update_of_ne (by omega)]
    exact h.known id (by omega)
  distinct := fun id => by
    rw [Function.update_apply]
    split
    · exact hdistinct
    · exact h.distinct id
  named := fun id send hsend => by
    rw [Function.update_apply] at hsend
    split at hsend
    · rename_i heq
      rw [hnamed send hsend, heq]
    · exact h.named id send hsend
  queued := fun id send hsend => by
    rw [Function.update_apply] at hsend
    split at hsend
    · refine iff_of_false (fun hline => ?_) (by simp [hqueued send hsend])
      obtain ⟨msg, hmsg⟩ := h.line send.1 hline
      have hlt := h.callOf_lt hmsg
      rw [hnamed send hsend] at hlt
      exact Nat.lt_irrefl _ hlt
    · exact h.queued id send hsend
  fresh := fun id send hsend hparcel => by
    rw [Function.update_apply] at hsend
    split at hsend
    · intro hentered
      have hlt := h.entered send.1 hentered
      rw [hnamed send hsend] at hlt
      exact Nat.lt_irrefl _ hlt
    · exact h.fresh id send hsend hparcel
  line := fun tx htx => by
    obtain ⟨msg, hmsg⟩ := h.line tx htx
    refine ⟨msg, ?_⟩
    rw [Function.update_of_ne (Nat.ne_of_lt (h.callOf_lt hmsg))]
    exact hmsg

/-- A future that moves one of its messages. -/
theorem moves (h : Filed holdings count m) {s : Scene} {tx : Sender} {parcel parcel' : Parcel}
    {rest : List (Sender × Parcel)} {mailbox : PageMailbox} (hs : s.mailbox = m)
    (hholds : holdings id = (tx, parcel) :: rest) (hmoves : Moves s tx parcel parcel' mailbox) :
    Filed (Function.update holdings id ((tx, parcel') :: rest)) count mailbox := by
  subst hs
  have hmem : (tx, parcel) ∈ holdings id := hholds ▸ List.mem_cons_self
  have hnamed : callOf tx = id := h.named id _ hmem
  have hcount := h.callOf_lt hmem
  have hdistinct := h.distinct id
  rw [hholds, List.map_cons, List.nodup_cons] at hdistinct
  have hother : ∀ {id' : Nat} {send : Sender × Parcel}, send ∈ holdings id' → (id' = id → send ∈ rest) → send.1 ≠ tx := by
    intro id' send hsend hrest htx
    have heq : id' = id := (h.named id' send hsend).symm.trans ((congrArg callOf htx).trans hnamed)
    have hfirst : send.1 ∈ rest.map Prod.fst := List.mem_map_of_mem (hrest heq)
    exact hdistinct.1 (htx ▸ hfirst)
  obtain ⟨hsound, hline, htx, hsenders⟩ := hmoves.changes h.mailbox (h.queued id _ hmem)
  -- a message of the future is the one that moves or one of the others
  have hcases : ∀ {id' : Nat} {send : Sender × Parcel},
      send ∈ Function.update holdings id ((tx, parcel') :: rest) id' →
      id' = id ∧ send = (tx, parcel') ∨ send ∈ holdings id' ∧ send.1 ≠ tx := by
    intro id' send hsend
    rw [Function.update_apply] at hsend
    split at hsend
    · rename_i heq
      obtain hsame | hrest := List.mem_cons.1 hsend
      · exact Or.inl ⟨heq, hsame⟩
      · have hold : send ∈ holdings id' := by
          rw [heq, hholds]
          exact List.mem_cons_of_mem _ hrest
        exact Or.inr ⟨hold, hother hold fun _ => hrest⟩
    · rename_i hne
      exact Or.inr ⟨hsend, hother hsend fun heq => absurd heq hne⟩
  have hentered : ∀ other, other ≠ tx → (other ∈ mailbox.senders ↔ other ∈ s.mailbox.senders) := by
    intro other hne
    obtain ⟨hsame, -⟩ | ⟨-, -, hmore⟩ := hsenders
    · rw [hsame]
    · rw [hmore, List.mem_append, List.mem_singleton]
      exact or_iff_left hne
  refine ⟨hsound, ?_, ?_, ?_, ?_, ?_, ?_, ?_, ?_⟩
  · obtain ⟨hsame, -⟩ | ⟨hparcel, -, hmore⟩ := hsenders
    · exact hsame ▸ h.once
    · rw [hmore]
      exact h.once.append (List.nodup_singleton tx) (List.disjoint_singleton.2 (h.fresh id _ hmem hparcel))
  · intro other hin
    by_cases heq : other = tx
    · rw [heq, hnamed]
      exact hcount
    · exact h.entered other ((hentered other heq).1 hin)
  · intro id' hid'
    rw [Function.update_of_ne (by omega)]
    exact h.known id' hid'
  · intro id'
    rw [Function.update_apply]
    split
    · exact List.nodup_cons.2 hdistinct
    · exact h.distinct id'
  · intro id' send hsend
    obtain ⟨rfl, rfl⟩ | ⟨hold, -⟩ := hcases hsend
    · exact hnamed
    · exact h.named id' send hold
  · intro id' send hsend
    obtain ⟨rfl, rfl⟩ | ⟨hold, hne⟩ := hcases hsend
    · exact htx
    · rw [hline send.1 hne]
      exact h.queued id' send hold
  · intro id' send hsend hparcel
    obtain ⟨rfl, rfl⟩ | ⟨hold, hne⟩ := hcases hsend
    · obtain ⟨hsame, hdelivered⟩ | ⟨-, hdelivered, -⟩ := hsenders
      · rw [hsame]
        exact h.fresh id' (tx, parcel) hmem fun heq => hparcel (hdelivered.2 heq)
      · exact absurd hdelivered hparcel
    · rw [hentered send.1 hne]
      exact h.fresh id' send hold hparcel
  · intro other hin
    by_cases heq : other = tx
    · subst heq
      have hqueued := htx.1 hin
      cases parcel' with
      | message msg => cases hqueued
      | delivered => cases hqueued
      | sendFut msg queued =>
        simp only [Parcel.isQueued] at hqueued
        subst hqueued
        refine ⟨msg, ?_⟩
        rw [hnamed, Function.update_self]
        exact List.mem_cons_self
    · obtain ⟨msg, hmsg⟩ := h.line other ((hline other heq).1 hin)
      refine ⟨msg, ?_⟩
      rw [Function.update_apply]
      split
      · rename_i hsame
        rw [hsame, hholds] at hmsg
        obtain hfirst | hrest := List.mem_cons.1 hmsg
        · exact absurd (congrArg Prod.fst hfirst) heq
        · exact List.mem_cons_of_mem _ hrest
      · exact hmsg

/-- A future that has done with a message it has delivered. -/
theorem finish (h : Filed holdings count m) {tx : Sender} {rest : List (Sender × Parcel)}
    (hholds : holdings id = (tx, .delivered) :: rest) : Filed (Function.update holdings id rest) count m := by
  have hsub : ∀ {id' : Nat} {send : Sender × Parcel}, send ∈ Function.update holdings id rest id' → send ∈ holdings id' := by
    intro id' send hsend
    rw [Function.update_apply] at hsend
    split at hsend
    · rename_i heq
      rw [heq, hholds]
      exact List.mem_cons_of_mem _ hsend
    · exact hsend
  refine ⟨h.mailbox, h.once, h.entered, fun id' hid' => ?_, fun id' => ?_, fun id' send hsend => h.named id' send (hsub hsend),
    fun id' send hsend => h.queued id' send (hsub hsend), fun id' send hsend => h.fresh id' send (hsub hsend), ?_⟩
  · refine List.eq_nil_iff_forall_not_mem.2 fun send hsend => ?_
    exact List.not_mem_nil (h.known id' hid' ▸ hsub hsend)
  · rw [Function.update_apply]
    split
    · have hdistinct := h.distinct id
      rw [hholds, List.map_cons, List.nodup_cons] at hdistinct
      exact hdistinct.2
    · exact h.distinct id'
  · intro other hin
    obtain ⟨msg, hmsg⟩ := h.line other hin
    refine ⟨msg, ?_⟩
    rw [Function.update_apply]
    split
    · rename_i heq
      rw [heq, hholds] at hmsg
      obtain hfirst | hrest := List.mem_cons.1 hmsg
      · cases hfirst
      · exact hrest
    · exact hmsg

/-- A future that is gone has left the line. -/
theorem leave (h : Filed holdings count m) (id : Nat) :
    Filed (Function.update holdings id []) count ((m.leave (commandTx id)).leave (navigationTx id)) := by
  have hline : ((m.leave (commandTx id)).leave (navigationTx id)).line =
      (m.line.erase (commandTx id)).erase (navigationTx id) := by
    rw [Mailbox.line_leave, Mailbox.line_leave]
  have hmem : ∀ tx, tx ∈ ((m.leave (commandTx id)).leave (navigationTx id)).line ↔ tx ∈ m.line ∧ callOf tx ≠ id := by
    intro tx
    rw [hline, (h.mailbox.distinct.erase _).mem_erase_iff, h.mailbox.distinct.mem_erase_iff]
    constructor
    · rintro ⟨hnavigation, hcommand, hin⟩
      refine ⟨hin, fun hcall => ?_⟩
      obtain heq | heq := eq_of_callOf hcall
      · exact hcommand heq
      · exact hnavigation heq
    · rintro ⟨hin, hcall⟩
      refine ⟨?_, ?_, hin⟩
      · rintro rfl
        exact hcall (callOf_navigationTx id)
      · rintro rfl
        exact hcall (callOf_commandTx id)
  have hsub : ∀ {id' : Nat} {send : Sender × Parcel}, send ∈ Function.update holdings id [] id' →
      id' ≠ id ∧ send ∈ holdings id' := by
    intro id' send hsend
    rw [Function.update_apply] at hsend
    split at hsend
    · cases hsend
    · rename_i hne
      exact ⟨hne, hsend⟩
  refine ⟨(h.mailbox.leave _).leave _, h.once, h.entered, fun id' hid' => ?_, fun id' => ?_,
    fun id' send hsend => h.named id' send (hsub hsend).2, fun id' send hsend => ?_,
    fun id' send hsend => h.fresh id' send (hsub hsend).2, fun tx htx => ?_⟩
  · rw [Function.update_apply]
    split
    · rfl
    · exact h.known id' hid'
  · rw [Function.update_apply]
    split
    · exact List.nodup_nil
    · exact h.distinct id'
  · obtain ⟨hne, hold⟩ := hsub hsend
    rw [hmem, h.named id' send hold]
    exact (and_iff_left hne).trans (h.queued id' send hold)
  · obtain ⟨hin, hcall⟩ := (hmem tx).1 htx
    obtain ⟨msg, hmsg⟩ := h.line tx hin
    refine ⟨msg, ?_⟩
    rw [Function.update_of_ne hcall]
    exact hmsg

end Filed

/-! ### Steps of a world -/

/-- The messages of a call; a call that has ended has none left. -/
def Call.holdings (call : Call T) : List (Sender × Parcel) := if call.live then call.future.sends else []

/-- The messages of a new future have fresh names, and nobody has tried to send them. -/
theorem Future.Starts.sends {requestTimeout : Duration} {id : Nat} {now : Instant} {future : Future T}
    (h : future.Starts requestTimeout id now) :
    (future.sends.map Prod.fst).Nodup ∧ ∀ send ∈ future.sends, callOf send.1 = id ∧ send.2.isQueued = false := by
  have hsingle : ∀ parcel : Parcel, future.sends = [(commandTx id, parcel)] → parcel.isQueued = false →
      (future.sends.map Prod.fst).Nodup ∧ ∀ send ∈ future.sends, callOf send.1 = id ∧ send.2.isQueued = false := by
    intro parcel hsends hqueued
    rw [hsends]
    refine ⟨List.nodup_singleton _, fun send hsend => ?_⟩
    rw [List.mem_singleton.1 hsend]
    exact ⟨callOf_commandTx id, hqueued⟩
  cases h with
  | command hnew =>
    rw [CommandFuture.new] at hnew
    split at hnew
    · cases hnew
    · cases hnew
      exact hsingle _ rfl rfl
  | wait msg => exact hsingle (.message (msg.withSender _)) rfl rfl
  | http hnew =>
    rw [CommandFuture.new] at hnew
    split at hnew
    · cases hnew
    · cases hnew
      refine ⟨List.nodup_cons.2 ⟨?_, List.nodup_singleton _⟩, fun send hsend => ?_⟩
      · exact fun hin => commandTx_ne_navigationTx _ _ (List.mem_singleton.1 hin)
      · obtain rfl | hsend := List.mem_cons.1 hsend
        · exact ⟨callOf_commandTx id, rfl⟩
        · rw [List.mem_singleton.1 hsend]
          exact ⟨callOf_navigationTx id, rfl⟩
  | execute cmd session =>
    cases hparams : cmd.params with
    | none =>
      have hsends : Future.sends (.execute (.new cmd (commandTx id) session requestTimeout)) = [] := by
        simp only [Future.sends, Execute.new, hparams]
      rw [hsends]
      exact ⟨List.nodup_nil, fun _ hsend => absurd hsend List.not_mem_nil⟩
    | some params =>
      refine hsingle (.message (.command ⟨cmd.method, session, params, commandTx id⟩)) ?_ rfl
      simp only [Future.sends, Execute.new, hparams, Exchange.new, Exchange.parcel, Sending.parcel]
      rfl
  | ask msg => exact hsingle (.message (msg.withSender _)) rfl rfl
  | tell msg => exact hsingle (.message (msg.withSender _)) rfl rfl

namespace World

variable {w w' : World T} {requestTimeout : Duration} {input : Input T} {id : Nat} {call : Call T}

def holdings (w : World T) (id : Nat) : List (Sender × Parcel) := (w.calls[id]?.map Call.holdings).getD []

def Sound (w : World T) : Prop := Filed w.holdings w.calls.length w.mailbox

theorem sound_start (capacity : Nat) : (start capacity : World T).Sound := Filed.start _

theorem holdings_of_get (h : w.calls[id]? = some call) : w.holdings id = call.holdings := by
  rw [holdings, h, Option.map_some, Option.getD_some]

theorem holdings_of_live (h : w.calls[id]? = some call) (hlive : call.live = true) :
    w.holdings id = call.future.sends := by
  rw [holdings_of_get h, Call.holdings, if_pos hlive]

theorem exists_of_mem_holdings {send : Sender × Parcel} (h : send ∈ w.holdings id) :
    ∃ call, w.calls[id]? = some call ∧ call.live = true ∧ send ∈ call.future.sends := by
  cases hcall : w.calls[id]? with
  | none =>
    rw [holdings, hcall] at h
    cases h
  | some call =>
    rw [holdings_of_get hcall, Call.holdings] at h
    split at h
    · rename_i hlive
      exact ⟨call, rfl, hlive, h⟩
    · cases h

theorem holdings_add (w : World T) (future : Future T) :
    (w.add future).holdings = Function.update w.holdings w.calls.length future.sends := by
  funext id
  by_cases heq : id = w.calls.length
  · subst heq
    rw [Function.update_self]
    exact holdings_of_get (get_add_length w future)
  · rw [Function.update_of_ne heq, holdings, get_add_of_ne heq, holdings]

theorem holdings_setCall (h : w.calls[id]? = some call) (future : Future T) (status : Status T) :
    (w.setCall id future status).holdings =
      Function.update w.holdings id (Call.holdings ⟨call.started, future, status⟩) := by
  funext id'
  by_cases heq : id' = id
  · subst heq
    rw [Function.update_self]
    exact holdings_of_get (get_setCall h future status)
  · rw [Function.update_of_ne heq, holdings, get_setCall_of_ne (Ne.symm heq), holdings]

/-- The next piece of a call that is alive. -/
theorem Sound.pollCall (h : w.Sound) (hcall : w.calls[id]? = some call) (hlive : call.live = true) :
    (w.pollCall id call.future).Sound := by
  have hholds := holdings_of_live hcall hlive
  have hadvances := call.future.poll_advances w.toScene
  -- what a piece does to the mailbox and to the messages, whichever way it ends
  have hgoes : ∀ mailbox future status, (Call.holdings ⟨call.started, future, status⟩ = future.sends) →
      (call.future.poll w.toScene).mailbox = mailbox → (call.future.poll w.toScene).future? = some future →
      ({ w with mailbox := mailbox }.setCall id future status).Sound := by
    intro mailbox future status hstatus hmailbox hfuture
    have hnew := holdings_setCall (w := { w with mailbox := mailbox }) hcall future status
    rw [hstatus] at hnew
    rw [Sound, length_setCall, hnew]
    cases hadvances with
    | quiet _ hnone =>
      rw [hfuture] at hnone
      cases hnone
    | moves hsends hmoves hleft =>
      rw [hmailbox] at hmoves
      have hmoved := Filed.moves h rfl (hholds.trans hsends) hmoves
      obtain hsame | ⟨rfl, hrest⟩ := hleft future hfuture
      · rw [hsame]
        exact hmoved
      · rw [hrest]
        have hfinished := hmoved.finish (Function.update_self id _ _)
        rw [Function.update_idem] at hfinished
        exact hfinished
  rw [World.pollCall]
  cases hpiece : call.future.poll w.toScene with
  | goesOn mailbox future =>
    exact hgoes mailbox future .running rfl (by rw [hpiece]; rfl) (by rw [hpiece]; rfl)
  | pending mailbox future wakers =>
    exact hgoes mailbox future (.parked wakers) rfl (by rw [hpiece]; rfl) (by rw [hpiece]; rfl)
  | ready mailbox result =>
    have hnew := holdings_setCall (w := { w with mailbox := mailbox }.leave id) hcall call.future (.done result)
    rw [Sound, length_setCall, hnew]
    rw [hpiece] at hadvances
    cases hadvances with
    | quiet hmailbox _ =>
      have heq : mailbox = w.mailbox := hmailbox
      rw [heq]
      exact Filed.leave h id
    | moves hsends hmoves _ =>
      have hleft := (Filed.moves h rfl (hholds.trans hsends) hmoves).leave id
      rw [Function.update_idem] at hleft
      exact hleft

theorem Acts.sound (hacts : w.Acts requestTimeout input w') (h : w.Sound) : w'.Sound := by
  cases hacts with
  | idle => exact h
  | added hstarts _ =>
    rename_i future _
    obtain ⟨hdistinct, hsends⟩ := hstarts.sends
    have hlength : (w.add future).calls.length = w.calls.length + 1 := by
      rw [World.add, List.length_append, List.length_singleton]
    rw [Sound, hlength, holdings_add]
    exact Filed.add h hdistinct (fun send hsend => (hsends send hsend).1) fun send hsend => (hsends send hsend).2
  | polled hcall hlive => exact h.pollCall hcall hlive
  | dropped hcall hlive =>
    rename_i id call
    have hnew := holdings_setCall (w := w.leave id) hcall call.future .dropped
    rw [Sound, length_setCall, hnew]
    exact Filed.leave h id
  | received => exact Filed.congr h (Filed.mailbox h).recv rfl (Mailbox.line_recv _)
  | settled => exact h
  | closed => exact Filed.congr h (Filed.mailbox h).close rfl rfl
  | ticked => exact h

theorem holdings_step (w : World T) (requestTimeout : Duration) (input : Input T) :
    (w.step requestTimeout input).holdings = (w.act requestTimeout input).holdings := by
  funext id
  rw [holdings, get_step, holdings]
  cases (w.act requestTimeout input).calls[id]? with
  | none => rfl
  | some call => simp only [Option.map_some, Option.getD_some, Call.holdings, live_wake, future_wake]

theorem Sound.step (h : w.Sound) (requestTimeout : Duration) (input : Input T) : (w.step requestTimeout input).Sound := by
  have hact := (act_acts requestTimeout w input).sound h
  rw [Sound, holdings_step, World.step, List.length_map]
  exact hact

theorem sound_final (capacity : Nat) (requestTimeout : Duration) (inputs : List (Input T)) :
    (Run.final (World.step requestTimeout) (start capacity : World T) inputs).Sound :=
  Run.invariant_of_step Sound (fun _ input h => h.step requestTimeout input) (sound_start capacity) inputs

end World

/-! ### Permits -/

theorem Moves.capacity {s : Scene} {tx : Sender} {parcel parcel' : Parcel} {mailbox : PageMailbox}
    (h : Moves s tx parcel parcel' mailbox) : mailbox.channel.capacity = s.mailbox.channel.capacity := by
  cases h with
  | stays => rfl
  | full msg => rfl
  | sentAtOnce hsent =>
    obtain ⟨-, channel, htry, rfl⟩ := Mailbox.trySend_eq_sent hsent
    obtain ⟨-, rfl⟩ := Channel.trySend_eq_some htry
    rfl
  | sent hsent =>
    obtain ⟨-, channel, rfl, ⟨-, hpush⟩ | ⟨-, htry⟩⟩ := Mailbox.pollSend_eq_sent hsent
    · exact Channel.capacity_push hpush
    · obtain ⟨-, rfl⟩ := Channel.trySend_eq_some htry
      rfl
  | waits hwaits =>
    obtain ⟨-, ⟨-, -, rfl⟩ | ⟨-, -, rfl⟩⟩ := Mailbox.pollSend_eq_waits hwaits
    · rfl
    · rfl

theorem Future.capacity_poll (s : Scene) (f : Future T) :
    (f.poll s).mailbox.channel.capacity = s.mailbox.channel.capacity := by
  cases f.poll_advances s with
  | quiet hmailbox _ => rw [hmailbox]
  | moves _ hmoves _ => exact hmoves.capacity

namespace World

variable {w w' : World T} {requestTimeout : Duration} {input : Input T} {id : Nat} {call : Call T}

theorem mailbox_pollCall (w : World T) (id : Nat) (future : Future T) :
    (w.pollCall id future).mailbox = (future.poll w.toScene).mailbox ∨
      (w.pollCall id future).mailbox =
        ((future.poll w.toScene).mailbox.leave (commandTx id)).leave (navigationTx id) := by
  rw [pollCall]
  cases future.poll w.toScene with
  | goesOn mailbox future => exact Or.inl rfl
  | pending mailbox future wakers => exact Or.inl rfl
  | ready mailbox result => exact Or.inr rfl

theorem Acts.capacity (h : w.Acts requestTimeout input w') :
    w'.mailbox.channel.capacity = w.mailbox.channel.capacity := by
  cases h with
  | polled hcall _ =>
    rename_i id call _
    obtain hmailbox | hmailbox := w.mailbox_pollCall id call.future
    · rw [hmailbox, Future.capacity_poll]
    · rw [hmailbox, Mailbox.leave, Mailbox.leave, Channel.capacity_leave, Channel.capacity_leave, Future.capacity_poll]
  | dropped => exact (Channel.capacity_leave _ _).trans (Channel.capacity_leave _ _)
  | received => exact Channel.capacity_recv _
  | _ => rfl

theorem capacity_step (w : World T) (requestTimeout : Duration) (input : Input T) :
    (w.step requestTimeout input).mailbox.channel.capacity = w.mailbox.channel.capacity :=
  (act_acts requestTimeout w input).capacity

/-- What enters in a step is the first message of a live call that is polled. -/
theorem Acts.senders (hacts : w.Acts requestTimeout input w') (h : w.Sound) :
    w'.mailbox.senders = w.mailbox.senders ∨
      ∃ tx parcel rest call, w.calls[callOf tx]? = some call ∧ call.live = true ∧
        call.future.sends = (tx, parcel) :: rest ∧ w'.mailbox.senders = w.mailbox.senders ++ [tx] := by
  cases hacts with
  | polled hcall hlive =>
    rename_i id call
    have hsenders : (w.pollCall id call.future).mailbox.senders = (call.future.poll w.toScene).mailbox.senders := by
      obtain hmailbox | hmailbox := w.mailbox_pollCall id call.future
      · rw [hmailbox]
      · rw [hmailbox]
        rfl
    rw [hsenders]
    cases call.future.poll_advances w.toScene with
    | quiet hmailbox _ => exact Or.inl (by rw [hmailbox])
    | moves hsends hmoves _ =>
      rename_i tx parcel parcel' rest _
      have hholds : (tx, parcel) ∈ w.holdings id := by
        rw [holdings_of_live hcall hlive, hsends]
        exact List.mem_cons_self
      obtain ⟨-, -, -, ⟨hsame, -⟩ | ⟨-, -, hmore⟩⟩ := hmoves.changes (Filed.mailbox h) (Filed.queued h id _ hholds)
      · exact Or.inl hsame
      · have hnamed := Filed.named h id _ hholds
        exact Or.inr ⟨tx, parcel, rest, call, hnamed ▸ hcall, hlive, hsends, hmore⟩
  | _ => exact Or.inl rfl

/-! ### Calls that have ended -/

/-- The call has given its result, or was dropped. -/
def ended (w : World T) (id : Nat) : Bool := (w.calls[id]?.map fun call => !call.live).getD false

theorem ended_iff : w.ended id = true ↔ ∃ call, w.calls[id]? = some call ∧ call.live = false := by
  rw [ended]
  cases w.calls[id]? with
  | none => simp
  | some call => simp

theorem holdings_of_ended (h : w.ended id = true) : w.holdings id = [] := by
  obtain ⟨call, hcall, hlive⟩ := ended_iff.1 h
  rw [holdings_of_get hcall, Call.holdings, hlive, if_neg (by simp)]

/-- A call that has ended stays as it is. -/
theorem get_step_of_ended (h : w.ended id = true) (requestTimeout : Duration) (input : Input T) :
    (w.step requestTimeout input).calls[id]? = w.calls[id]? := by
  obtain ⟨call, hcall, hlive⟩ := ended_iff.1 h
  have hacts := act_acts requestTimeout w input
  obtain ⟨call', hcall'⟩ := hacts.persists hcall
  have hsame : call' = call := by
    obtain hold | ⟨future, hid, -⟩ | ⟨old, -, hold, holdLive, -⟩ | ⟨old, -, hold, holdLive, -⟩ := hacts.get hcall'
    · exact Option.some.inj (hold.symm.trans hcall)
    · obtain ⟨hlt, -⟩ := List.getElem?_eq_some_iff.1 hcall
      exact absurd hid (Nat.ne_of_lt hlt)
    · rw [hcall] at hold
      cases hold
      rw [hlive] at holdLive
      cases holdLive
    · rw [hcall] at hold
      cases hold
      rw [hlive] at holdLive
      cases holdLive
  rw [get_step, hcall', hsame, Option.map_some, wake_of_not_live _ _ hlive, hcall]

theorem ended_step (h : w.ended id = true) (requestTimeout : Duration) (input : Input T) :
    (w.step requestTimeout input).ended id = true := by
  rw [ended, get_step_of_ended h]
  exact h

/-- The messages of a call that are in the record of the channel. -/
def enteredOf (w : World T) (id : Nat) : List Sender := w.mailbox.senders.filter fun tx => callOf tx = id

theorem enteredOf_step (hsound : w.Sound) (h : w.ended id = true) (requestTimeout : Duration) (input : Input T) :
    (w.step requestTimeout input).enteredOf id = w.enteredOf id := by
  show (w.act requestTimeout input).enteredOf id = _
  obtain ⟨call, hcall, hended⟩ := ended_iff.1 h
  obtain hsame | ⟨tx, parcel, rest, other, hother, hlive, -, hmore⟩ := (act_acts requestTimeout w input).senders hsound
  · rw [enteredOf, hsame, enteredOf]
  · have hne : callOf tx ≠ id := by
      rintro rfl
      rw [hcall] at hother
      cases hother
      rw [hended] at hlive
      cases hlive
    rw [enteredOf, hmore, List.filter_append, List.filter_cons_of_neg (by simpa using hne), List.filter_nil,
      List.append_nil, enteredOf]

/-! ### Whole runs -/

/-- In every run each message enters the channel at most once, the handler takes the messages in the order in which they entered, and the permits are all there: each is free, spent on a message, or in the hands of a call that is alive and waits for it. -/
theorem messages_enter_once (capacity : Nat) (requestTimeout : Duration) (inputs : List (Input T)) :
    let w := Run.final (World.step requestTimeout) (start capacity : World T) inputs
    w.mailbox.senders.Nodup ∧
      w.mailbox.entered.map Prod.snd = w.mailbox.taken ++ w.mailbox.lost ++ w.mailbox.channel.items ∧
      (w.mailbox.closed = false →
        w.mailbox.channel.free + w.mailbox.channel.granted.length + w.mailbox.channel.items.length = max capacity 1) ∧
      ∀ tx ∈ w.mailbox.line, ∃ call msg, w.calls[callOf tx]? = some call ∧ call.live = true ∧
        (tx, .sendFut msg true) ∈ call.future.sends := by
  intro w
  have hsound : w.Sound := sound_final capacity requestTimeout inputs
  have hcapacity : w.mailbox.channel.capacity = max capacity 1 :=
    Run.invariant_of_step (fun w : World T => w.mailbox.channel.capacity = max capacity 1)
      (fun w input h => (w.capacity_step requestTimeout input).trans h) rfl inputs
  refine ⟨Filed.once hsound, (Filed.mailbox hsound).order, fun hopen => ?_, fun tx htx => ?_⟩
  · rw [← hcapacity]
    exact ((Filed.mailbox hsound).alive hopen).2.permits
  · obtain ⟨msg, hmsg⟩ := Filed.line hsound tx htx
    obtain ⟨call, hcall, hlive, hsend⟩ := exists_of_mem_holdings hmsg
    exact ⟨call, msg, hcall, hlive, hsend⟩

/-- Once a call has ended, by a result, an error, a timeout or by being dropped, nothing of it stands in line and none of its messages enters the channel any more, whatever happens later. -/
theorem ended_enters_nothing (capacity : Nat) (requestTimeout : Duration) (before later : List (Input T)) (id : Nat)
    (hended : (Run.final (World.step requestTimeout) (start capacity : World T) before).ended id = true) :
    let w := Run.final (World.step requestTimeout) (start capacity : World T) before
    let w' := Run.final (World.step requestTimeout) w later
    w'.calls[id]? = w.calls[id]? ∧ w'.enteredOf id = w.enteredOf id ∧ ∀ tx ∈ w'.mailbox.line, callOf tx ≠ id := by
  intro w w'
  have hkept : w'.Sound ∧ w'.ended id = true ∧ w'.calls[id]? = w.calls[id]? ∧ w'.enteredOf id = w.enteredOf id := by
    refine Run.invariant_of_step (fun w' : World T => w'.Sound ∧ w'.ended id = true ∧ w'.calls[id]? = w.calls[id]? ∧
      w'.enteredOf id = w.enteredOf id) ?_ ⟨sound_final capacity requestTimeout before, hended, rfl, rfl⟩ later
    rintro w' input ⟨hsound, hstill, hcalls, hentered⟩
    exact ⟨hsound.step requestTimeout input, ended_step hstill requestTimeout input,
      (get_step_of_ended hstill requestTimeout input).trans hcalls,
      (enteredOf_step hsound hstill requestTimeout input).trans hentered⟩
  obtain ⟨hsound, hstill, hcalls, hentered⟩ := hkept
  refine ⟨hcalls, hentered, fun tx htx hcall => ?_⟩
  obtain ⟨msg, hmsg⟩ := Filed.line hsound tx htx
  rw [hcall, holdings_of_ended hstill] at hmsg
  cases hmsg

/-- The channel has one place, which another message takes; the wait for the navigation gives up after two units of time, and the place that comes free then is of no use to it. -/
theorem ended_enters_nothing_timeout :
    let before : List (Input Unit) :=
      [.tell (.blockNetwork true), .wait (.waitForNavigation ⟨0⟩), .poll 0, .poll 1, .poll 1, .tick, .tick, .poll 1]
    let w := Run.final (World.step 2) (start 1) before
    let w' := Run.final (World.step 2) w [.recv, .poll 1]
    w.ended 1 = true ∧ w'.calls[1]? = w.calls[1]? ∧ w'.enteredOf 1 = w.enteredOf 1 ∧
      ∀ tx ∈ w'.mailbox.line, callOf tx ≠ 1 :=
  ⟨rfl, ended_enters_nothing 1 2 _ [.recv, .poll 1] 1 rfl⟩

end World

end Futures

end SpiderChrome
