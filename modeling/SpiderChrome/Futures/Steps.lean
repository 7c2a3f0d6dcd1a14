import SpiderChrome.Futures.Moves

/-!
# What a step of a world can do

`Acts` lists once what an input may do to a world, with all that it was checked for, and `Acts.get` what has become of a single call. Nothing that follows looks at `act` again.
-/

namespace SpiderChrome

namespace Futures

variable {T : Type}

/-- The call is still to be polled. -/
def Call.live (call : Call T) : Bool :=
  match call.status with
  | .running | .parked _ => true
  | .done _ | .dropped => false

/-- A call after a piece of its poll. -/
def Call.after (call : Call T) : Piece (Future T) (Except CallError (Answer T)) → Call T
  | .goesOn _ future => ⟨call.started, future, .running⟩
  | .pending _ future wakers => ⟨call.started, future, .parked wakers⟩
  | .ready _ result => ⟨call.started, call.future, .done result⟩

/-- The futures that a call may start with. -/
inductive Future.Starts (requestTimeout : Duration) (id : Nat) (now : Instant) : Future T → Prop where
  | command {cmd : Command T} {session : Option SessionId} {f : CommandFuture T}
    (h : CommandFuture.new cmd (commandTx id) session requestTimeout now = .ok f) :
    Starts requestTimeout id now (.command f)
  | wait (msg : TargetMessage) : Starts requestTimeout id now (.wait (.wait (commandTx id) msg requestTimeout now))
  | http {cmd : Command T} {session : Option SessionId} {f : CommandFuture T}
    (h : CommandFuture.new cmd (commandTx id) session requestTimeout now = .ok f) :
    Starts requestTimeout id now (.http (.new f (navigationTx id) requestTimeout now))
  | execute (cmd : Command T) (session : Option SessionId) :
    Starts requestTimeout id now (.execute (.new cmd (commandTx id) session requestTimeout))
  | ask (msg : TargetMessage) : Starts requestTimeout id now (.ask (.new (commandTx id) msg requestTimeout))
  | tell (msg : TargetMessage) :
    Starts requestTimeout id now (.tell ⟨commandTx id, requestTimeout, .start (msg.withSender (commandTx id))⟩)

namespace World

/-- What an input may do. -/
inductive Acts (requestTimeout : Duration) (w : World T) : Input T → World T → Prop where
  | idle (input : Input T) : Acts requestTimeout w input w
  | added {input : Input T} {future : Future T} (h : future.Starts requestTimeout w.calls.length w.now)
    (hinput : ∀ id, input ≠ .poll id) : Acts requestTimeout w input (w.add future)
  | polled {id : Nat} {call : Call T} (hcall : w.calls[id]? = some call) (hlive : call.live = true) :
    Acts requestTimeout w (.poll id) (w.pollCall id call.future)
  | dropped {id : Nat} {call : Call T} (hcall : w.calls[id]? = some call) (hlive : call.live = true) :
    Acts requestTimeout w (.drop id) ((w.leave id).setCall id call.future .dropped)
  | received : Acts requestTimeout w .recv { w with mailbox := w.mailbox.recv }
  | settled {input : Input T} {tx : Sender} {answer : Oneshot} (hheld : w.holds tx (fun _ => true) = true)
    (hwaiting : w.answers tx = .waiting) (hanswer : answer ≠ .waiting)
    (hfits : ∀ reply, answer = .sent reply → w.holds tx (fun msg => msg.accepts reply) = true) :
    Acts requestTimeout w input { w with answers := fun other => if other = tx then answer else w.answers other }
  | closed : Acts requestTimeout w .close w.close
  | ticked : Acts requestTimeout w .tick { w with now := w.now + 1 }

variable {w w' : World T} {requestTimeout : Duration} {input : Input T} {id : Nat} {call call' : Call T}

theorem holds_of_fits {tx : Sender} {fits : TargetMessage → Bool} (h : w.holds tx fits = true) :
    w.holds tx (fun _ => true) = true := by
  obtain ⟨msg, hmsg, hboth⟩ := List.any_eq_true.1 h
  exact List.any_eq_true.2 ⟨msg, hmsg, by simp [(Bool.and_eq_true_iff.1 hboth).1]⟩

theorem act_acts (requestTimeout : Duration) (w : World T) (input : Input T) :
    w.Acts requestTimeout input (w.act requestTimeout input) := by
  cases input with
  | commandFuture cmd session =>
    rw [act]
    split
    · rename_i hnew
      exact .added (.command hnew) (by simp)
    · exact .idle _
  | wait msg => exact .added (.wait msg) (by simp)
  | httpFuture cmd session =>
    rw [act]
    split
    · rename_i hnew
      exact .added (.http hnew) (by simp)
    · exact .idle _
  | execute cmd session => exact .added (.execute cmd session) (by simp)
  | ask msg => exact .added (.ask msg) (by simp)
  | tell msg => exact .added (.tell msg) (by simp)
  | poll id =>
    rw [act]
    split
    · rename_i hcall
      exact .polled hcall rfl
    · rename_i hcall
      exact .polled hcall rfl
    · exact .idle _
  | drop id =>
    rw [act]
    split
    · rename_i hcall
      exact .dropped hcall rfl
    · rename_i hcall
      exact .dropped hcall rfl
    · exact .idle _
  | recv => exact .received
  | respond tx reply =>
    simp only [act, settle]
    split
    · rename_i hheld
      split
      · rename_i hwaiting
        exact .settled (holds_of_fits hheld) hwaiting (by simp) fun reply' heq => Oneshot.sent.inj heq ▸ hheld
      · exact .idle _
    · exact .idle _
  | forget tx =>
    simp only [act, settle]
    split
    · rename_i hheld
      split
      · rename_i hwaiting
        exact .settled hheld hwaiting (by simp) (by simp)
      · exact .idle _
    · exact .idle _
  | close => exact .closed
  | tick => exact .ticked

/-! ### What becomes of a call -/

theorem get_setCall (h : w.calls[id]? = some call) (future : Future T) (status : Status T) :
    (w.setCall id future status).calls[id]? = some ⟨call.started, future, status⟩ := by
  simp [setCall, h]

theorem get_setCall_of_ne {id' : Nat} (hne : id' ≠ id) (w : World T) (future : Future T) (status : Status T) :
    (w.setCall id' future status).calls[id]? = w.calls[id]? := by
  simp [setCall, hne]

@[simp] theorem length_setCall (w : World T) (id : Nat) (future : Future T) (status : Status T) :
    (w.setCall id future status).calls.length = w.calls.length := List.length_modify _ _ _

theorem get_pollCall (h : w.calls[id]? = some call) :
    (w.pollCall id call.future).calls[id]? = some (call.after (call.future.poll w.toScene)) := by
  rw [pollCall]
  cases call.future.poll w.toScene with
  | goesOn mailbox future => exact get_setCall (w := { w with mailbox := mailbox }) h _ _
  | pending mailbox future wakers => exact get_setCall (w := { w with mailbox := mailbox }) h _ _
  | ready mailbox result => exact get_setCall (w := { w with mailbox := mailbox }.leave id) h _ _

theorem get_pollCall_of_ne {id' : Nat} (hne : id' ≠ id) (w : World T) (future : Future T) :
    (w.pollCall id' future).calls[id]? = w.calls[id]? := by
  rw [pollCall]
  cases future.poll w.toScene with
  | goesOn mailbox next => exact get_setCall_of_ne hne _ _ _
  | pending mailbox next wakers => exact get_setCall_of_ne hne _ _ _
  | ready mailbox result => exact get_setCall_of_ne hne _ _ _

@[simp] theorem length_pollCall (w : World T) (id : Nat) (future : Future T) :
    (w.pollCall id future).calls.length = w.calls.length := by
  rw [pollCall]
  cases future.poll w.toScene with
  | goesOn mailbox next => exact length_setCall _ _ _ _
  | pending mailbox next wakers => exact length_setCall _ _ _ _
  | ready mailbox result => exact length_setCall _ _ _ _

theorem get_add_length (w : World T) (future : Future T) :
    (w.add future).calls[w.calls.length]? = some ⟨w.now, future, .running⟩ := List.getElem?_concat_length

theorem get_add_of_ne (hne : id ≠ w.calls.length) (future : Future T) :
    (w.add future).calls[id]? = w.calls[id]? := by
  rw [add]
  obtain hlt | hge := Nat.lt_or_ge id w.calls.length
  · exact List.getElem?_append_left hlt
  · have hgt : w.calls.length < id := Nat.lt_of_le_of_ne hge (Ne.symm hne)
    rw [List.getElem?_eq_none hge, List.getElem?_eq_none]
    rw [List.length_append, List.length_singleton]
    omega

/-- A call after an action: it is as it was, new, polled, or dropped. -/
theorem Acts.get (h : w.Acts requestTimeout input w') (hcall : w'.calls[id]? = some call') :
    w.calls[id]? = some call' ∨
    (∃ future, id = w.calls.length ∧ call' = ⟨w.now, future, .running⟩ ∧
      future.Starts requestTimeout id w.now ∧ w' = w.add future) ∨
    (∃ call, input = .poll id ∧ w.calls[id]? = some call ∧ call.live = true ∧ w' = w.pollCall id call.future ∧
      call' = call.after (call.future.poll w.toScene)) ∨
    ∃ call, input = .drop id ∧ w.calls[id]? = some call ∧ call.live = true ∧ call' = { call with status := .dropped } := by
  cases h with
  | idle => exact Or.inl hcall
  | added hstarts hinput =>
    rename_i future
    by_cases hid : id = w.calls.length
    · subst hid
      rw [get_add_length] at hcall
      exact Or.inr (Or.inl ⟨future, rfl, (Option.some.inj hcall).symm, hstarts, rfl⟩)
    · rw [get_add_of_ne hid] at hcall
      exact Or.inl hcall
  | polled hold hlive =>
    rename_i id' old
    by_cases hid : id' = id
    · subst hid
      rw [get_pollCall hold] at hcall
      exact Or.inr (Or.inr (Or.inl ⟨old, rfl, hold, hlive, rfl, (Option.some.inj hcall).symm⟩))
    · rw [get_pollCall_of_ne hid] at hcall
      exact Or.inl hcall
  | dropped hold hlive =>
    rename_i id' old
    by_cases hid : id' = id
    · subst hid
      rw [get_setCall (w := w.leave id') hold] at hcall
      exact Or.inr (Or.inr (Or.inr ⟨old, rfl, hold, hlive, (Option.some.inj hcall).symm⟩))
    · rw [get_setCall_of_ne hid] at hcall
      exact Or.inl hcall
  | received => exact Or.inl hcall
  | settled => exact Or.inl hcall
  | closed => exact Or.inl hcall
  | ticked => exact Or.inl hcall

theorem Acts.length_le (h : w.Acts requestTimeout input w') : w.calls.length ≤ w'.calls.length := by
  cases h with
  | added =>
    rw [add, List.length_append]
    exact Nat.le_add_right _ _
  | polled => rw [length_pollCall]
  | dropped => exact Nat.le_of_eq (length_setCall _ _ _ _).symm
  | _ => exact Nat.le_refl _

/-- A call does not go away. -/
theorem Acts.persists (h : w.Acts requestTimeout input w') (hcall : w.calls[id]? = some call) :
    ∃ call', w'.calls[id]? = some call' := by
  obtain ⟨hlt, -⟩ := List.getElem?_eq_some_iff.1 hcall
  exact ⟨_, List.getElem?_eq_getElem (Nat.lt_of_lt_of_le hlt h.length_le)⟩

/-! ### Wakers -/

@[simp] theorem started_wake (before after : Scene) (call : Call T) :
    (call.wake before after).started = call.started := by
  rw [Call.wake]
  split
  · split
    · rfl
    · rfl
  · rfl

@[simp] theorem future_wake (before after : Scene) (call : Call T) : (call.wake before after).future = call.future := by
  rw [Call.wake]
  split
  · split
    · rfl
    · rfl
  · rfl

@[simp] theorem live_wake (before after : Scene) (call : Call T) : (call.wake before after).live = call.live := by
  rw [Call.wake]
  split
  · rename_i hstatus
    split
    · rw [Call.live, Call.live, hstatus]
    · rfl
  · rfl

theorem wake_of_not_live (before after : Scene) (h : call.live = false) : call.wake before after = call := by
  rw [Call.wake]
  split
  · rename_i hstatus
    rw [Call.live, hstatus] at h
    cases h
  · rfl

theorem get_step (w : World T) (requestTimeout : Duration) (input : Input T) (id : Nat) :
    (w.step requestTimeout input).calls[id]? =
      ((w.act requestTimeout input).calls[id]?).map
        (Call.wake w.toScene (w.act requestTimeout input).toScene) := by
  rw [step, List.getElem?_map]

end World

end Futures

end SpiderChrome
