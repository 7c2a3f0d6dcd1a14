import SpiderChrome.Listeners.State
import Mathlib.Logic.Function.Iterate

/-!
# Delivery to the listeners

A listener gets every event of its method from its registration on, once and in order, as long as its receiver is there and nobody removes it: what was sent to its channel and what is queued for it are together the events that match it. A registration has a number of its own, so the records of a channel tell what each listener sent, and a flush moves events from the queue of a listener to the records of that listener and leaves the records of all others alone.
-/

namespace SpiderChrome

open Run

/-! ### Records -/

/-- The events that a registration sent on a channel. -/
def sentBy (channels : Channels) (id : ChannelId) (registration : Nat) : List Event :=
  match channels.get id with
  | some ch => (ch.sent.filter fun record => record.1 = registration).map Prod.snd
  | none => []

def IsOpen (channels : Channels) (id : ChannelId) : Prop := ∃ ch, channels.get id = some ch ∧ ch.dropped = false

/-- What was delivered to a listener, and then what is queued for it. -/
def EventListener.account (sub : EventListener) (channels : Channels) : List Event :=
  sentBy channels sub.listener sub.registration ++ sub.queuedEvents

/-- To be open can be decided from the entry of the channel. -/
theorem isOpen_iff {channels : Channels} {id : ChannelId} :
    IsOpen channels id ↔ (channels.get id).map EventChannel.dropped = some false :=
  Option.map_eq_some_iff.symm

theorem sentBy_of_get {channels : Channels} {id : ChannelId} {ch : EventChannel} (h : channels.get id = some ch)
    (registration : Nat) :
    sentBy channels id registration = (ch.sent.filter fun record => record.1 = registration).map Prod.snd := by
  rw [sentBy, h]

/-- The records depend only on what the channels record as sent. -/
theorem sentBy_congr {channels channels' : Channels} {id : ChannelId}
    (h : ((channels'.get id).map EventChannel.sent).getD [] = ((channels.get id).map EventChannel.sent).getD [])
    (registration : Nat) : sentBy channels' id registration = sentBy channels id registration := by
  have hrecords : ∀ channels : Channels, sentBy channels id registration =
      ((((channels.get id).map EventChannel.sent).getD []).filter fun record => record.1 = registration).map
        Prod.snd := by
    intro channels
    rw [sentBy]
    cases channels.get id with
    | some ch => rfl
    | none => rfl
  rw [hrecords, hrecords, h]

theorem sentBy_update {f : EventChannel → EventChannel} (hf : ∀ ch, (f ch).sent = ch.sent) (channels : Channels)
    (updated id : ChannelId) (registration : Nat) :
    sentBy (channels.update updated f) id registration = sentBy channels id registration := by
  apply sentBy_congr
  rw [Table.get_update]
  split
  · rw [Option.map_map]
    exact congrArg (fun sent => ((channels.get id).map sent).getD []) (funext hf)
  · rfl

section Sending

variable {channels channels' : Channels} {id : ChannelId} {registration : Nat} {event : Event}

theorem sendEvent_cases (h : sendEvent channels id registration event = some channels') :
    ∃ ch, channels.get id = some ch ∧ ch.dropped = false ∧
      channels' =
        channels.set id { ch with queue := ch.queue ++ [event], sent := ch.sent ++ [(registration, event)] } := by
  rw [sendEvent] at h
  split at h
  · rename_i ch hget
    rw [EventChannel.send] at h
    split at h
    · cases h
    · rename_i hdropped
      exact ⟨ch, hget, by simpa using hdropped, (Option.some.inj h).symm⟩
  · cases h

theorem sentBy_sendEvent_self (h : sendEvent channels id registration event = some channels') :
    sentBy channels' id registration = sentBy channels id registration ++ [event] := by
  obtain ⟨ch, hget, -, rfl⟩ := sendEvent_cases h
  rw [sentBy_of_get (Table.get_set_self _ _ _), sentBy_of_get hget]
  simp

theorem sentBy_sendEvent_of_ne (h : sendEvent channels id registration event = some channels')
    {other : Nat} (hne : other ≠ registration) (c : ChannelId) :
    sentBy channels' c other = sentBy channels c other := by
  obtain ⟨ch, hget, -, rfl⟩ := sendEvent_cases h
  by_cases hc : c = id
  · subst hc
    rw [sentBy_of_get (Table.get_set_self _ _ _), sentBy_of_get hget]
    simp [Ne.symm hne]
  · rw [sentBy, sentBy, Table.get_set_of_ne _ _ hc]

theorem isOpen_sendEvent (h : sendEvent channels id registration event = some channels') (c : ChannelId) :
    IsOpen channels' c ↔ IsOpen channels c := by
  obtain ⟨ch, hget, hopen, rfl⟩ := sendEvent_cases h
  by_cases hc : c = id
  · subst hc
    exact ⟨fun _ => ⟨ch, hget, hopen⟩, fun _ => ⟨_, Table.get_set_self _ _ _, hopen⟩⟩
  · rw [IsOpen, IsOpen, Table.get_set_of_ne _ _ hc]

/-- An open channel takes every event. -/
theorem sendEvent_of_isOpen (h : IsOpen channels id) (registration : Nat) (event : Event) :
    ∃ channels', sendEvent channels id registration event = some channels' := by
  obtain ⟨ch, hget, hopen⟩ := h
  rw [sendEvent, hget]
  dsimp only
  rw [EventChannel.send, if_neg (ne_true_of_eq_false hopen)]
  exact ⟨_, rfl⟩

end Sending

/-! ### Flushing -/

/-- What all sends respect, the loop of a flush respects. -/
theorem EventListener.sendAll_rel {r : Channels → Channels → Prop} (hrefl : ∀ channels, r channels channels)
    (htrans : ∀ {c c' c''}, r c c' → r c' c'' → r c c'') (sub : EventListener)
    (hsend : ∀ {channels event channels'}, sub.sendNext channels event = some channels' → r channels channels')
    (events : List Event) (channels : Channels) : r channels (sub.sendAll events channels).1 := by
  induction events generalizing channels with
  | nil => exact hrefl channels
  | cons event rest ih =>
    rw [sendAll]
    cases hnext : sub.sendNext channels event with
    | some next => exact htrans (hsend hnext) (ih next)
    | none => exact hrefl channels

theorem EventListener.flush_channels (sub : EventListener) (channels : Channels) :
    (sub.flush channels).1 = (sub.sendAll sub.queuedEvents channels).1 := by
  rw [EventListener.flush]
  split <;> rename_i heq <;> rw [heq]

theorem flushSubs_cons (sub : EventListener) (rest : List EventListener) (channels : Channels) :
    EventListeners.flushSubs (sub :: rest) channels =
      ((EventListeners.flushSubs rest (sub.flush channels).1).1,
        (sub.flush channels).2.toList ++ (EventListeners.flushSubs rest (sub.flush channels).1).2) := by
  rw [EventListeners.flushSubs]
  split <;> rename_i heq <;> rw [heq] <;> rfl

section Relations

variable {r : Channels → Channels → Prop} (hrefl : ∀ channels, r channels channels)
  (htrans : ∀ {c c' c''}, r c c' → r c' c'' → r c c'')
  (hsend : ∀ {channels id registration event channels'},
    sendEvent channels id registration event = some channels' → r channels channels')

include hrefl htrans hsend

theorem flushSubs_rel (subs : List EventListener) (channels : Channels) :
    r channels (EventListeners.flushSubs subs channels).1 := by
  induction subs generalizing channels with
  | nil => exact hrefl channels
  | cons sub rest ih =>
    rw [flushSubs_cons, EventListener.flush_channels]
    exact htrans (sub.sendAll_rel hrefl htrans hsend _ _) (ih _)

theorem flushMethod_rel (p : EventListeners × Bool) (method : MethodId) :
    r p.1.channels (EventListeners.flushMethod p method).1.channels := by
  obtain ⟨s, anyDisconnected⟩ := p
  rw [EventListeners.flushMethod]
  split
  · exact flushSubs_rel hrefl htrans hsend _ _
  · exact hrefl _

/-- What all sends respect, a flush respects. -/
theorem flush_rel (s : EventListeners) (order : List MethodId) : r s.channels (s.flush order).channels := by
  have hfold := foldl_rel (r := fun p q : EventListeners × Bool => r p.1.channels q.1.channels)
    (fun p => hrefl p.1.channels) htrans (flushMethod_rel hrefl htrans hsend) (s, false) order
  rw [EventListeners.flush]
  dsimp only
  split
  · exact hfold
  · exact hfold

end Relations

section Listener

variable (sub : EventListener) (channels : Channels)

theorem sentBy_sendAll_of_ne {other : Nat} (hne : other ≠ sub.registration) (events : List Event) (id : ChannelId) :
    sentBy (sub.sendAll events channels).1 id other = sentBy channels id other := by
  refine sub.sendAll_rel (r := fun channels channels' => sentBy channels' id other = sentBy channels id other)
    (fun _ => rfl) (fun h h' => h'.trans h) (fun hsend => sentBy_sendEvent_of_ne hsend hne id) events channels

theorem sentBy_flush_of_ne {other : Nat} (hne : other ≠ sub.registration) (id : ChannelId) :
    sentBy (sub.flush channels).1 id other = sentBy channels id other := by
  rw [EventListener.flush_channels, sentBy_sendAll_of_ne sub channels hne]

theorem isOpen_flush (id : ChannelId) : IsOpen (sub.flush channels).1 id ↔ IsOpen channels id := by
  rw [EventListener.flush_channels]
  exact sub.sendAll_rel (r := fun channels channels' => IsOpen channels' id ↔ IsOpen channels id)
    (fun _ => Iff.rfl) (fun h h' => h'.trans h) (fun hsend => isOpen_sendEvent hsend id) _ channels

/-- Where the receiver took all events, they are all recorded. -/
theorem sentBy_sendAll (events : List Event) (h : (sub.sendAll events channels).2 = true) :
    sentBy (sub.sendAll events channels).1 sub.listener sub.registration =
      sentBy channels sub.listener sub.registration ++ events := by
  induction events generalizing channels with
  | nil => exact (List.append_nil _).symm
  | cons event rest ih =>
    rw [EventListener.sendAll] at h ⊢
    cases hnext : sub.sendNext channels event with
    | some next =>
      rw [hnext] at h
      have hsent : sentBy next sub.listener sub.registration =
          sentBy channels sub.listener sub.registration ++ [event] := sentBy_sendEvent_self hnext
      dsimp only at h ⊢
      rw [ih next h, hsent, List.append_assoc, List.singleton_append]
    | none =>
      rw [hnext] at h
      cases h

theorem sendAll_of_isOpen (hopen : IsOpen channels sub.listener) (events : List Event) :
    (sub.sendAll events channels).2 = true := by
  induction events generalizing channels with
  | nil => rfl
  | cons event rest ih =>
    obtain ⟨next, hnext⟩ := sendEvent_of_isOpen hopen sub.registration event
    rw [EventListener.sendAll, EventListener.sendNext, hnext]
    exact ih next ((isOpen_sendEvent hnext _).2 hopen)

/-- A listener that is left after its flush has an empty queue, and its account is as it was. -/
theorem flush_eq_some {left : EventListener} (h : (sub.flush channels).2 = some left) :
    left = { sub with queuedEvents := [] } ∧ left.account (sub.flush channels).1 = sub.account channels := by
  rw [EventListener.flush_channels]
  rw [EventListener.flush] at h
  split at h
  · rename_i channels' heq
    have hleft : left = { sub with queuedEvents := [] } := (Option.some.inj h).symm
    have hsent := sentBy_sendAll sub channels sub.queuedEvents (by rw [heq])
    refine ⟨hleft, ?_⟩
    rw [hleft, EventListener.account, EventListener.account]
    exact (List.append_nil _).trans hsent
  · cases h

theorem flush_of_isOpen (hopen : IsOpen channels sub.listener) :
    (sub.flush channels).2 = some { sub with queuedEvents := [] } := by
  have htook := sendAll_of_isOpen sub channels hopen sub.queuedEvents
  rw [EventListener.flush]
  split
  · rfl
  · rename_i heq
    rw [heq] at htook
    cases htook

end Listener

/-- The numbers of the listeners of a list. -/
def registrations (subs : List EventListener) : List Nat := subs.map EventListener.registration

section Subs

variable (subs : List EventListener) (channels : Channels)

theorem sentBy_flushSubs_of_notMem {other : Nat} (hother : other ∉ registrations subs) (id : ChannelId) :
    sentBy (EventListeners.flushSubs subs channels).1 id other = sentBy channels id other := by
  induction subs generalizing channels with
  | nil => rfl
  | cons sub rest ih =>
    obtain ⟨hsub, hrest⟩ := not_or.1 (mt List.mem_cons.2 hother)
    rw [flushSubs_cons]
    exact (ih (sub.flush channels).1 hrest).trans (sentBy_flush_of_ne sub channels hsub id)

theorem registrations_flushSubs :
    (registrations (EventListeners.flushSubs subs channels).2).Sublist (registrations subs) := by
  induction subs generalizing channels with
  | nil => exact List.Sublist.refl _
  | cons sub rest ih =>
    rw [flushSubs_cons]
    have hrest := ih (sub.flush channels).1
    cases hleft : (sub.flush channels).2 with
    | some left =>
      rw [(flush_eq_some sub channels hleft).1]
      exact hrest.cons_cons sub.registration
    | none => exact hrest.cons sub.registration

/-- Every listener that is left comes from one before, with the account that it had. -/
theorem mem_flushSubs (hnodup : (registrations subs).Nodup) {left : EventListener}
    (hleft : left ∈ (EventListeners.flushSubs subs channels).2) :
    ∃ sub ∈ subs, left = { sub with queuedEvents := [] } ∧
      left.account (EventListeners.flushSubs subs channels).1 = sub.account channels := by
  induction subs generalizing channels with
  | nil => cases hleft
  | cons sub rest ih =>
    obtain ⟨hsub, hrest⟩ := List.nodup_cons.1 hnodup
    rw [flushSubs_cons] at hleft ⊢
    obtain hmine | hlater := List.mem_append.1 hleft
    · obtain ⟨heq, haccount⟩ := flush_eq_some sub channels (Option.mem_toList.1 hmine)
      refine ⟨sub, List.mem_cons_self, heq, ?_⟩
      have hkept := sentBy_flushSubs_of_notMem rest (sub.flush channels).1 hsub sub.listener
      rw [← haccount, heq, EventListener.account, EventListener.account]
      exact congrArg (· ++ []) hkept
    · obtain ⟨source, hmem, heq, haccount⟩ := ih (sub.flush channels).1 hrest hlater
      refine ⟨source, List.mem_cons_of_mem _ hmem, heq, haccount.trans ?_⟩
      have hne : source.registration ≠ sub.registration := by
        intro hsame
        exact hsub (hsame ▸ List.mem_map_of_mem hmem)
      rw [EventListener.account, sentBy_flush_of_ne sub channels hne, EventListener.account]

/-- A listener whose receiver is there is left. -/
theorem flushSubs_of_isOpen {sub : EventListener} (hmem : sub ∈ subs) (hopen : IsOpen channels sub.listener) :
    { sub with queuedEvents := [] } ∈ (EventListeners.flushSubs subs channels).2 := by
  induction subs generalizing channels with
  | nil => cases hmem
  | cons first rest ih =>
    rw [flushSubs_cons]
    apply List.mem_append.2
    obtain rfl | hrest := List.mem_cons.1 hmem
    · exact .inl (Option.mem_toList.2 (flush_of_isOpen sub channels hopen))
    · exact .inr (ih _ hrest ((isOpen_flush first channels _).2 hopen))

end Subs

/-! ### Streams -/

/-- What a poll of a stream gives. -/
def Poll.items {A : Type} : Poll (Option A) → List A
  | .ready (some item) => [item]
  | _ => []

namespace EventChannel

/-- The events of the stream's type. -/
def ofType (ch : EventChannel) (events : List Event) : List Event := events.filter fun event => event.type = ch.type

/-- What the stream has yielded, and then what of its type waits, is what of its type was sent. -/
def Streams (ch : EventChannel) : Prop :=
  ch.yielded ++ ch.ofType ch.queue = ch.ofType (ch.sent.map Prod.snd)

/-- A poll takes from the queue what it yields and events of other types, and at least one event where there are any. -/
theorem pollWith_spec (closed : Bool) (turns : Nat) (ch : EventChannel) :
    ∃ queue yielded, (ch.pollWith closed turns).1 = { ch with queue := queue, yielded := yielded } ∧
      yielded = ch.yielded ++ (ch.pollWith closed turns).2.items ∧
      yielded ++ ch.ofType queue = ch.yielded ++ ch.ofType ch.queue ∧
      queue.length ≤ ch.queue.length - min 1 turns := by
  induction turns generalizing ch with
  | zero => exact ⟨ch.queue, ch.yielded, rfl, (List.append_nil _).symm, rfl, Nat.le_refl _⟩
  | succ turns ih =>
    obtain ⟨type, queue, dropped, sent, yielded⟩ := ch
    rw [pollWith]
    cases queue with
    | cons event rest =>
      dsimp only
      split
      · rename_i htype
        refine ⟨rest, yielded ++ [event], rfl, rfl, ?_, ?_⟩
        · rw [ofType, ofType, List.filter_cons, if_pos (decide_eq_true htype), List.append_assoc,
            List.singleton_append]
        · rw [List.length_cons]
          omega
      · rename_i htype
        obtain ⟨left, yielded', heq, hitems, hyielded, hlength⟩ := ih ⟨type, rest, dropped, sent, yielded⟩
        refine ⟨left, yielded', heq, hitems, hyielded.trans ?_, ?_⟩
        · rw [ofType, ofType, List.filter_cons, if_neg (by simpa using htype)]
        · rw [List.length_cons]
          dsimp only at hlength
          omega
    | nil =>
      refine ⟨[], yielded, rfl, ?_, rfl, Nat.zero_le _⟩
      cases closed with
      | true => exact (List.append_nil _).symm
      | false => exact (List.append_nil _).symm

theorem pollNext_spec (closed : Bool) (ch : EventChannel) :
    ∃ queue yielded, (ch.pollNext closed).1 = { ch with queue := queue, yielded := yielded } ∧
      yielded = ch.yielded ++ (ch.pollNext closed).2.items ∧
      yielded ++ ch.ofType queue = ch.yielded ++ ch.ofType ch.queue ∧ queue.length ≤ ch.queue.length - 1 :=
  pollWith_spec closed maxWrongTypePerPoll ch

theorem pollNext_sent (closed : Bool) (ch : EventChannel) : (ch.pollNext closed).1.sent = ch.sent := by
  obtain ⟨queue, yielded, heq, -⟩ := pollNext_spec closed ch
  rw [heq]

theorem pollNext_yielded (closed : Bool) (ch : EventChannel) :
    (ch.pollNext closed).1.yielded = ch.yielded ++ (ch.pollNext closed).2.items := by
  obtain ⟨queue, yielded, heq, hitems, -⟩ := pollNext_spec closed ch
  rw [heq]
  exact hitems

theorem Streams.pollNext {ch : EventChannel} (h : Streams ch) (closed : Bool) : Streams (ch.pollNext closed).1 := by
  obtain ⟨queue, yielded, heq, -, hyielded, -⟩ := pollNext_spec closed ch
  rw [heq]
  exact hyielded.trans h

/-- As many polls as there are events in the queue yield all events of the stream's type. -/
theorem Streams.drained {ch : EventChannel} (h : Streams ch) (closed : Bool) :
    ((fun ch => (ch.pollNext closed).1)^[ch.queue.length] ch).yielded = ch.ofType (ch.sent.map Prod.snd) := by
  have hpolls : ∀ (n : Nat) (ch : EventChannel), Streams ch → ch.queue.length ≤ n →
      ((fun ch => (ch.pollNext closed).1)^[n] ch).yielded = ch.ofType (ch.sent.map Prod.snd) := by
    intro n
    induction n with
    | zero =>
      intro ch hch hlength
      rw [Streams, List.eq_nil_of_length_eq_zero (Nat.le_zero.1 hlength)] at hch
      exact (List.append_nil _).symm.trans hch
    | succ n ih =>
      intro ch hch hlength
      obtain ⟨queue, yielded, heq, -, -, hshorter⟩ := pollNext_spec closed ch
      have hrest := ih (ch.pollNext closed).1 (hch.pollNext closed) (by rw [heq]; dsimp only; omega)
      rw [Function.iterate_succ_apply, hrest, heq]
      rfl
  exact hpolls _ ch h (Nat.le_refl _)

end EventChannel

/-! ### Steps -/

namespace EventListeners

theorem subs_of_get {s : EventListeners} {method : MethodId} {subs : List EventListener}
    (h : s.listeners.get method = some subs) : s.subs method = subs := by
  rw [EventListeners.subs, h, Option.getD_some]

theorem subs_of_get_eq_none {s : EventListeners} {method : MethodId} (h : s.listeners.get method = none) :
    s.subs method = [] := by
  rw [EventListeners.subs, h, Option.getD_none]

theorem subs_set (s : EventListeners) (method other : MethodId) (listeners : List EventListener) :
    ((s.listeners.set method listeners).get other).getD [] =
      if other = method then listeners else s.subs other := by
  rw [Table.get_set]
  split
  · rfl
  · rfl

/-- The same listener, whatever is queued for it. -/
structure SameListener (sub sub' : EventListener) : Prop where
  id : sub'.id = sub.id
  listener : sub'.listener = sub.listener
  kind : sub'.kind = sub.kind
  registration : sub'.registration = sub.registration

theorem SameListener.refl (sub : EventListener) : SameListener sub sub := ⟨rfl, rfl, rfl, rfl⟩

theorem SameListener.trans {sub sub' sub'' : EventListener} (h : SameListener sub sub') (h' : SameListener sub' sub'') :
    SameListener sub sub'' :=
  ⟨h'.id.trans h.id, h'.listener.trans h.listener, h'.kind.trans h.kind, h'.registration.trans h.registration⟩

/-- Every listener has a registration number of its own, and only the numbers given so far are in the records. -/
structure Wf (s : EventListeners) : Prop where
  bounded : ∀ method, ∀ sub ∈ s.subs method, sub.registration < s.registered
  nodup : ∀ method, (registrations (s.subs method)).Nodup
  one : ∀ {method method' sub sub'}, sub ∈ s.subs method → sub' ∈ s.subs method' →
    sub.registration = sub'.registration → method = method'
  records : ∀ id registration, s.registered ≤ registration → sentBy s.channels id registration = []

/-- No listener is new, and only the listeners that are there have sent something. -/
structure Quiet (s s' : EventListeners) : Prop where
  registered : s'.registered = s.registered
  registrations : ∀ method, (registrations (s'.subs method)).Sublist (registrations (s.subs method))
  records : ∀ id registration, (∀ method, registration ∉ SpiderChrome.registrations (s.subs method)) →
    sentBy s'.channels id registration = sentBy s.channels id registration

theorem Quiet.refl (s : EventListeners) : Quiet s s := ⟨rfl, fun _ => List.Sublist.refl _, fun _ _ _ => rfl⟩

theorem Quiet.trans {s s' s'' : EventListeners} (h : Quiet s s') (h' : Quiet s' s'') : Quiet s s'' where
  registered := h'.registered.trans h.registered
  registrations method := (h'.registrations method).trans (h.registrations method)
  records id registration hgone := by
    rw [h'.records id registration fun method hmem => hgone method ((h.registrations method).subset hmem),
      h.records id registration hgone]

/-- A listener that is left was there before. -/
theorem Quiet.source {s s' : EventListeners} (h : Quiet s s') {method : MethodId} {sub' : EventListener}
    (hmem : sub' ∈ s'.subs method) : ∃ sub ∈ s.subs method, sub.registration = sub'.registration :=
  List.mem_map.1 ((h.registrations method).subset (List.mem_map_of_mem hmem))

theorem Quiet.wf {s s' : EventListeners} (h : Quiet s s') (hwf : Wf s) : Wf s' where
  bounded method sub hmem := by
    obtain ⟨source, hsource, heq⟩ := h.source hmem
    rw [← heq, h.registered]
    exact hwf.bounded method source hsource
  nodup method := (hwf.nodup method).sublist (h.registrations method)
  one hmem hmem' heq := by
    obtain ⟨source, hsource, hsame⟩ := h.source hmem
    obtain ⟨source', hsource', hsame'⟩ := h.source hmem'
    exact hwf.one hsource hsource' (by rw [hsame, hsame', heq])
  records id registration hle := by
    rw [h.registered] at hle
    rw [h.records id registration, hwf.records id registration hle]
    intro method hmem
    obtain ⟨sub, hsub, rfl⟩ := List.mem_map.1 hmem
    have := hwf.bounded method sub hsub
    omega

/-- Every listener that is left comes from one before, and its account has grown by `news`. -/
def Follows (news : MethodId → EventKind → List Event) (s s' : EventListeners) : Prop :=
  ∀ method, ∀ sub' ∈ s'.subs method, ∃ sub ∈ s.subs method, SameListener sub sub' ∧
    sub'.account s'.channels = sub.account s.channels ++ news method sub.kind

/-- What a flush and each of its turns come to: nothing of a listener that is left is lost, and a listener whose receiver is there is left. -/
structure Kept (s s' : EventListeners) : Prop where
  quiet : Quiet s s'
  isOpen : ∀ id, IsOpen s'.channels id ↔ IsOpen s.channels id
  follows : Follows (fun _ _ => []) s s'
  stays : ∀ method, ∀ sub ∈ s.subs method, IsOpen s.channels sub.listener →
    ∃ sub' ∈ s'.subs method, SameListener sub sub'

theorem Kept.refl (s : EventListeners) : Kept s s where
  quiet := Quiet.refl s
  isOpen _ := Iff.rfl
  follows _ sub hmem := ⟨sub, hmem, SameListener.refl sub, (List.append_nil _).symm⟩
  stays _ sub hmem _ := ⟨sub, hmem, SameListener.refl sub⟩

theorem Kept.trans {s s' s'' : EventListeners} (h : Kept s s') (h' : Kept s' s'') : Kept s s'' where
  quiet := h.quiet.trans h'.quiet
  isOpen id := (h'.isOpen id).trans (h.isOpen id)
  follows method sub'' hmem := by
    obtain ⟨sub', hmem', hsame', haccount'⟩ := h'.follows method sub'' hmem
    obtain ⟨sub, hmem, hsame, haccount⟩ := h.follows method sub' hmem'
    refine ⟨sub, hmem, hsame.trans hsame', ?_⟩
    rw [haccount', haccount, List.append_nil]
  stays method sub hmem hopen := by
    obtain ⟨sub', hmem', hsame⟩ := h.stays method sub hmem hopen
    obtain ⟨sub'', hmem'', hsame'⟩ := h'.stays method sub' hmem' (by rw [hsame.listener, h.isOpen]; exact hopen)
    exact ⟨sub'', hmem'', hsame.trans hsame'⟩

/-- A turn of the loop in `flush`. -/
theorem flushMethod_spec {s : EventListeners} (hwf : Wf s) (anyDisconnected : Bool) (method : MethodId) :
    Kept s (flushMethod (s, anyDisconnected) method).1 := by
  have hopen : ∀ id, IsOpen (flushMethod (s, anyDisconnected) method).1.channels id ↔ IsOpen s.channels id := by
    intro id
    exact flushMethod_rel (r := fun channels channels' => IsOpen channels' id ↔ IsOpen channels id)
      (fun _ => Iff.rfl) (fun h h' => h'.trans h) (fun hsend => isOpen_sendEvent hsend id) _ _
  rw [flushMethod] at hopen ⊢
  cases hget : s.listeners.get method with
  | none =>
    exact Kept.refl s
  | some subs =>
    have hsubs : s.subs method = subs := subs_of_get hget
    have hnodup : (registrations subs).Nodup := hsubs ▸ hwf.nodup method
    rw [hget] at hopen
    dsimp only at hopen ⊢
    refine ⟨⟨rfl, fun other => ?_, fun id registration hgone => ?_⟩, hopen, fun other left hleft => ?_,
      fun other sub hmem hreceiver => ?_⟩
    · rw [EventListeners.subs, subs_set]
      split
      · rename_i heq
        rw [heq, hsubs]
        exact registrations_flushSubs subs s.channels
      · exact List.Sublist.refl _
    · exact sentBy_flushSubs_of_notMem subs s.channels (hsubs ▸ hgone method) id
    · rw [EventListeners.subs, subs_set] at hleft
      split at hleft
      · rename_i heq
        obtain ⟨sub, hmem, rfl, haccount⟩ := mem_flushSubs subs s.channels hnodup hleft
        refine ⟨sub, ?_, ⟨rfl, rfl, rfl, rfl⟩, haccount.trans (List.append_nil _).symm⟩
        rw [heq, hsubs]
        exact hmem
      · rename_i hne
        refine ⟨left, hleft, SameListener.refl left, ?_⟩
        have hother : left.registration ∉ registrations subs := by
          intro hmem
          obtain ⟨sub, hsub, hsame⟩ := List.mem_map.1 hmem
          exact hne (hwf.one hleft (hsubs.symm ▸ hsub) hsame.symm)
        rw [EventListener.account, sentBy_flushSubs_of_notMem subs s.channels hother, List.append_nil]
        rfl
    · rw [EventListeners.subs, subs_set]
      split
      · rename_i heq
        rw [heq, hsubs] at hmem
        exact ⟨_, flushSubs_of_isOpen subs s.channels hmem hreceiver, ⟨rfl, rfl, rfl, rfl⟩⟩
      · exact ⟨sub, hmem, SameListener.refl sub⟩

theorem flush_subs (s : EventListeners) (order : List MethodId) :
    (s.flush order).subs = (order.foldl flushMethod (s, false)).1.subs := by
  rw [flush]
  dsimp only
  split
  · funext method
    rw [EventListeners.subs, Table.get_retain, EventListeners.subs]
    cases (order.foldl flushMethod (s, false)).1.listeners.get method with
    | some subs =>
      -- a method without listeners has none, whether it is listed or not
      cases subs with
      | nil => rfl
      | cons sub rest => rfl
    | none => rfl
  · rfl

theorem flush_fields (s : EventListeners) (order : List MethodId) :
    (s.flush order).channels = (order.foldl flushMethod (s, false)).1.channels ∧
      (s.flush order).registered = (order.foldl flushMethod (s, false)).1.registered := by
  rw [flush]
  dsimp only
  split
  · exact ⟨rfl, rfl⟩
  · exact ⟨rfl, rfl⟩

theorem flush_spec {s : EventListeners} (hwf : Wf s) (order : List MethodId) : Kept s (s.flush order) := by
  have hturn : ∀ (p : EventListeners × Bool) (method : MethodId), Wf p.1 →
      Wf (flushMethod p method).1 ∧ Kept p.1 (flushMethod p method).1 := by
    rintro ⟨s, anyDisconnected⟩ method hwf
    have hkept := flushMethod_spec hwf anyDisconnected method
    exact ⟨hkept.quiet.wf hwf, hkept⟩
  have hfold := foldl_rel (r := fun p q : EventListeners × Bool => Wf p.1 → Wf q.1 ∧ Kept p.1 q.1)
    (fun p hp => ⟨hp, Kept.refl p.1⟩)
    (fun h h' hp => ⟨(h' (h hp).1).1, (h hp).2.trans (h' (h hp).1).2⟩) hturn (s, false) order hwf
  obtain ⟨hchannels, hregistered⟩ := flush_fields s order
  obtain ⟨⟨hsame, hregistrations, hrecords⟩, hopen, hfollows, hstays⟩ := hfold.2
  refine ⟨⟨hregistered.trans hsame, ?_, ?_⟩, ?_, ?_, ?_⟩
  · rw [flush_subs]
    exact hregistrations
  · rw [hchannels]
    exact hrecords
  · rw [hchannels]
    exact hopen
  · rw [Follows, flush_subs, hchannels]
    exact hfollows
  · rw [flush_subs]
    exact hstays

/-- The events that an input sends to the listeners of a method and a kind. -/
def news (s : EventListeners) : ListenersInput → MethodId → EventKind → List Event
  | .startSend sent event, method, _ => if sent = method then [event] else []
  | .trySendCustom sent val, method, kind =>
    if sent = method ∧ kind.isCustom = true then ((firstConverter (s.subs method)).bind fun convert => convert val).toList
    else []
  | _, _, _ => []

/-- The events that the inputs send to the listeners of a method and a kind, as the listeners are when they come. -/
def matching (s : EventListeners) (method : MethodId) (kind : EventKind) : List ListenersInput → List Event
  | [] => []
  | input :: rest => s.news input method kind ++ (s.step input).matching method kind rest

/-- The input takes a listener away. -/
def Removes (handle : EventListenerHandle) : ListenersInput → Prop
  | .removeListener removed => removed = handle
  | .removeAllForMethod method => method = handle.method
  | _ => False

/-- Steps that leave the records alone. -/
theorem quiet_of_subs {s s' : EventListeners} (hregistered : s'.registered = s.registered)
    (hregistrations : ∀ method, (registrations (s'.subs method)).Sublist (registrations (s.subs method)))
    (hrecords : ∀ id registration, sentBy s'.channels id registration = sentBy s.channels id registration) :
    Quiet s s' :=
  ⟨hregistered, hregistrations, fun id registration _ => hrecords id registration⟩

theorem removeListener_subs (s : EventListeners) (handle : EventListenerHandle) (method : MethodId) :
    (s.removeListener handle).subs method =
      if method = handle.method then (s.subs method).filter fun sub => sub.id ≠ handle.id else s.subs method := by
  rw [removeListener]
  split
  · rename_i subs hget
    dsimp only
    by_cases hmethod : method = handle.method
    · rw [if_pos hmethod, hmethod, subs_of_get hget]
      split
      · rename_i hempty
        rw [EventListeners.subs, Table.get_remove_self, List.isEmpty_iff.1 hempty, Option.getD_none]
      · rw [EventListeners.subs, Table.get_set_self, Option.getD_some]
    · rw [if_neg hmethod]
      split
      · rw [EventListeners.subs, Table.get_remove_of_ne _ hmethod, EventListeners.subs]
      · rw [EventListeners.subs, Table.get_set_of_ne _ _ hmethod, EventListeners.subs]
  · rename_i hget
    split
    · rename_i hmethod
      rw [hmethod, subs_of_get_eq_none hget, List.filter_nil]
    · rfl

theorem startSend_subs (s : EventListeners) (sent : MethodId) (event : Event) (method : MethodId) :
    (s.startSend sent event).subs method =
      if method = sent then (s.subs method).map fun sub => sub.startSend event else s.subs method := by
  rw [startSend, EventListeners.subs, Table.get_update, EventListeners.subs]
  split
  · cases s.listeners.get method with
    | some subs => rfl
    | none => rfl
  · rfl

/-- What a custom value becomes: the event for the custom listeners, or nothing. -/
theorem trySendCustom_subs (s : EventListeners) (sent : MethodId) (val : Value) (method : MethodId) :
    (s.trySendCustom sent val).subs method =
      match (firstConverter (s.subs sent)).bind fun convert => convert val with
      | some event =>
        if method = sent then
          (s.subs method).map fun sub => if sub.kind.isCustom then sub.startSend event else sub
        else s.subs method
      | none => s.subs method := by
  rw [trySendCustom]
  cases hget : s.listeners.get sent with
  | some subs =>
    rw [subs_of_get hget]
    dsimp only
    cases hconvert : firstConverter subs with
    | some convert =>
      dsimp only [Option.bind_some]
      cases convert val with
      | some event =>
        dsimp only
        rw [EventListeners.subs, subs_set]
        split
        · rename_i hmethod
          rw [hmethod, subs_of_get hget]
        · rfl
      | none => rfl
    | none => rfl
  | none =>
    rw [subs_of_get_eq_none hget]
    rfl

theorem trySendCustom_fields (s : EventListeners) (sent : MethodId) (val : Value) :
    (s.trySendCustom sent val).channels = s.channels ∧ (s.trySendCustom sent val).registered = s.registered := by
  rw [trySendCustom]
  repeat' split
  all_goals exact ⟨rfl, rfl⟩

/-- A listener with an event put in its queue has that event in its account. -/
theorem account_startSend (sub : EventListener) (event : Event) (channels : Channels) :
    (sub.startSend event).account channels = sub.account channels ++ [event] :=
  (List.append_assoc _ _ _).symm

/-- An input that touches neither the listeners nor what was sent. -/
theorem spec_of_same {s s' : EventListeners} (hlisteners : s'.listeners = s.listeners)
    (hregistered : s'.registered = s.registered)
    (hrecords : ∀ id registration, sentBy s'.channels id registration = sentBy s.channels id registration) :
    Quiet s s' ∧ Follows (fun _ _ => []) s s' := by
  have hsubs : s'.subs = s.subs := by
    funext method
    rw [EventListeners.subs, hlisteners, EventListeners.subs]
  refine ⟨quiet_of_subs hregistered (fun method => by rw [hsubs]) hrecords, fun method sub hmem => ?_⟩
  rw [hsubs] at hmem
  refine ⟨sub, hmem, SameListener.refl sub, ?_⟩
  rw [EventListener.account, hrecords, List.append_nil, EventListener.account]

/-- An input that takes listeners away. -/
theorem spec_of_fewer {s s' : EventListeners} (hchannels : s'.channels = s.channels)
    (hregistered : s'.registered = s.registered) (hsubs : ∀ method, (s'.subs method).Sublist (s.subs method)) :
    Quiet s s' ∧ Follows (fun _ _ => []) s s' := by
  refine ⟨quiet_of_subs hregistered (fun method => (hsubs method).map _) (fun _ _ => by rw [hchannels]),
    fun method sub hmem => ⟨sub, (hsubs method).subset hmem, SameListener.refl sub, ?_⟩⟩
  rw [hchannels, List.append_nil]

theorem removeListener_fields (s : EventListeners) (handle : EventListenerHandle) :
    (s.removeListener handle).channels = s.channels ∧ (s.removeListener handle).registered = s.registered := by
  rw [removeListener]
  split
  · exact ⟨rfl, rfl⟩
  · exact ⟨rfl, rfl⟩

/-- An event is news to all listeners of its method. -/
theorem startSend_spec (s : EventListeners) (sent : MethodId) (event : Event) :
    Quiet s (s.step (.startSend sent event)) ∧
      Follows (s.news (.startSend sent event)) s (s.step (.startSend sent event)) := by
  refine ⟨quiet_of_subs rfl (fun method => ?_) fun _ _ => rfl, fun method sub' hmem => ?_⟩
  · rw [step, startSend_subs]
    split
    · rw [registrations, List.map_map]
      exact List.Sublist.refl _
    · exact List.Sublist.refl _
  · rw [step, startSend_subs] at hmem
    split at hmem
    · rename_i hmethod
      obtain ⟨sub, hsub, rfl⟩ := List.mem_map.1 hmem
      refine ⟨sub, hsub, ⟨rfl, rfl, rfl, rfl⟩, ?_⟩
      rw [news, if_pos hmethod.symm]
      exact account_startSend sub event s.channels
    · rename_i hmethod
      refine ⟨sub', hmem, SameListener.refl sub', ?_⟩
      rw [news, if_neg (Ne.symm hmethod), List.append_nil]
      rfl

/-- A custom event that is converted is news to the custom listeners of its method. -/
theorem trySendCustom_spec (s : EventListeners) (sent : MethodId) (val : Value) :
    Quiet s (s.step (.trySendCustom sent val)) ∧
      Follows (s.news (.trySendCustom sent val)) s (s.step (.trySendCustom sent val)) := by
  obtain ⟨hchannels, hregistered⟩ := s.trySendCustom_fields sent val
  have hsubs := s.trySendCustom_subs sent val
  rw [step]
  cases hconvert : (firstConverter (s.subs sent)).bind fun convert => convert val with
  | none =>
    rw [hconvert] at hsubs
    dsimp only at hsubs
    refine ⟨quiet_of_subs hregistered (fun method => by rw [hsubs]) fun _ _ => by rw [hchannels],
      fun method sub hmem => ⟨sub, hsubs method ▸ hmem, SameListener.refl sub, ?_⟩⟩
    rw [hchannels, news]
    split
    · rename_i hmethod
      rw [← hmethod.1, hconvert, Option.toList_none, List.append_nil]
    · rw [List.append_nil]
  | some event =>
    rw [hconvert] at hsubs
    refine ⟨quiet_of_subs hregistered (fun method => ?_) fun _ _ => by rw [hchannels],
      fun method sub' hmem => ?_⟩
    · rw [hsubs]
      dsimp only
      split
      · have hsame : ∀ sub ∈ s.subs method, (EventListener.registration ∘ fun sub =>
            if sub.kind.isCustom then sub.startSend event else sub) sub = sub.registration := by
          intro sub _
          rw [Function.comp_apply]
          split
          · rfl
          · rfl
        rw [registrations, registrations, List.map_map, List.map_congr_left hsame]
      · exact List.Sublist.refl _
    · rw [hsubs] at hmem
      dsimp only at hmem
      split at hmem
      · rename_i hmethod
        obtain ⟨sub, hsub, rfl⟩ := List.mem_map.1 hmem
        refine ⟨sub, hsub, ?_⟩
        rw [hchannels, news]
        split
        · rename_i hcustom
          rw [if_pos ⟨hmethod.symm, hcustom⟩, hmethod, hconvert]
          exact ⟨⟨rfl, rfl, rfl, rfl⟩, account_startSend sub event s.channels⟩
        · rename_i hcustom
          rw [if_neg (fun h => hcustom h.2), List.append_nil]
          exact ⟨SameListener.refl sub, rfl⟩
      · rename_i hmethod
        refine ⟨sub', hmem, SameListener.refl sub', ?_⟩
        rw [hchannels, news, if_neg (fun h => hmethod h.1.symm), List.append_nil]

/-- A step that registers nothing leaves nobody's account short. -/
theorem step_spec {s : EventListeners} (hwf : Wf s) (input : ListenersInput)
    (hinput : ∀ req, input ≠ .addListener req) :
    Quiet s (s.step input) ∧ Follows (s.news input) s (s.step input) := by
  cases input with
  | openChannel id type =>
    rw [step]
    split
    · exact spec_of_same rfl rfl fun _ _ => rfl
    · rename_i habsent
      refine spec_of_same rfl rfl fun other registration => sentBy_congr ?_ registration
      dsimp only
      rw [Table.get_set]
      split
      · rename_i heq
        rw [heq, Option.not_isSome_iff_eq_none.1 habsent]
        rfl
      · rfl
  | takeId => exact spec_of_same rfl rfl fun _ _ => rfl
  | addListener req => exact absurd rfl (hinput req)
  | removeListener handle =>
    obtain ⟨hchannels, hregistered⟩ := s.removeListener_fields handle
    refine spec_of_fewer hchannels hregistered fun method => ?_
    rw [step, removeListener_subs]
    split
    · exact List.filter_sublist
    · exact List.Sublist.refl _
  | removeAllForMethod removed =>
    refine spec_of_fewer rfl rfl fun method => ?_
    rw [step, removeAllForMethod, EventListeners.subs, Table.get_remove]
    split
    · exact List.nil_sublist _
    · exact List.Sublist.refl _
  | startSend sent event => exact s.startSend_spec sent event
  | trySendCustom sent val => exact s.trySendCustom_spec sent val
  | flush order =>
    rw [step]
    split
    · have hkept := flush_spec hwf order
      exact ⟨hkept.quiet, hkept.follows⟩
    · exact spec_of_same rfl rfl fun _ _ => rfl
  | pollStream id closed =>
    exact spec_of_same rfl rfl (sentBy_update (EventChannel.pollNext_sent closed) s.channels id)
  | dropReceiver id =>
    exact spec_of_same rfl rfl (sentBy_update (f := fun ch => { ch with dropped := true }) (fun _ => rfl) s.channels id)

/-- A listener is left by every step that does not remove it, as long as its receiver is there. -/
theorem step_stays {s : EventListeners} (hwf : Wf s) {method : MethodId} {sub : EventListener}
    (hmem : sub ∈ s.subs method) (hopen : IsOpen s.channels sub.listener) {input : ListenersInput}
    (hinput : ¬ Removes ⟨method, sub.id⟩ input) : ∃ sub' ∈ (s.step input).subs method, SameListener sub sub' := by
  have hsame : ∀ {s' : EventListeners}, s'.listeners = s.listeners → ∃ sub' ∈ s'.subs method, SameListener sub sub' := by
    intro s' hlisteners
    refine ⟨sub, ?_, SameListener.refl sub⟩
    rw [EventListeners.subs, hlisteners]
    exact hmem
  cases input with
  | openChannel id type =>
    rw [step]
    split
    · exact hsame rfl
    · exact hsame rfl
  | takeId => exact hsame rfl
  | addListener req =>
    refine ⟨sub, ?_, SameListener.refl sub⟩
    rw [step, addListener, EventListeners.subs, subs_set]
    split
    · rename_i heq
      rw [← heq]
      exact List.mem_append_left _ hmem
    · exact hmem
  | removeListener handle =>
    refine ⟨sub, ?_, SameListener.refl sub⟩
    rw [step, removeListener_subs]
    split
    · rename_i hmethod
      refine List.mem_filter.2 ⟨hmem, decide_eq_true fun hid => hinput ?_⟩
      obtain ⟨handleMethod, handleId⟩ := handle
      exact congr (congrArg EventListenerHandle.mk hmethod.symm) hid.symm
    · exact hmem
  | removeAllForMethod removed =>
    refine ⟨sub, ?_, SameListener.refl sub⟩
    rw [step, removeAllForMethod, EventListeners.subs, Table.get_remove_of_ne _ (Ne.symm hinput)]
    exact hmem
  | startSend sent event =>
    rw [step, startSend_subs]
    split
    · exact ⟨_, List.mem_map_of_mem hmem, ⟨rfl, rfl, rfl, rfl⟩⟩
    · exact ⟨sub, hmem, SameListener.refl sub⟩
  | trySendCustom sent val =>
    rw [step, trySendCustom_subs]
    split
    · split
      · refine ⟨_, List.mem_map_of_mem hmem, ?_⟩
        split
        · exact ⟨rfl, rfl, rfl, rfl⟩
        · exact SameListener.refl sub
      · exact ⟨sub, hmem, SameListener.refl sub⟩
    · exact ⟨sub, hmem, SameListener.refl sub⟩
  | flush order =>
    rw [step]
    split
    · exact (flush_spec hwf order).stays method sub hmem hopen
    · exact hsame rfl
  | pollStream id closed => exact hsame rfl
  | dropReceiver id => exact hsame rfl

/-- A new listener joins those that are there. -/
theorem addListener_subs (s : EventListeners) (req : EventListenerRequest) (method : MethodId) :
    (s.addListener req).1.subs method =
      if method = req.method then
        s.subs method ++ [⟨s.nextListenerId, req.listener, [], req.kind, s.registered⟩]
      else s.subs method := by
  rw [addListener, EventListeners.subs, subs_set]
  split
  · rename_i hmethod
    rw [hmethod]
  · rfl

/-- A listener after a registration is the new one, or it was there before. -/
theorem mem_addListener {s : EventListeners} {req : EventListenerRequest} {method : MethodId} {sub : EventListener}
    (hmem : sub ∈ (s.addListener req).1.subs method) :
    sub ∈ s.subs method ∨
      method = req.method ∧ sub = ⟨s.nextListenerId, req.listener, [], req.kind, s.registered⟩ := by
  rw [addListener_subs] at hmem
  split at hmem
  · rename_i hmethod
    obtain hold | hnew := List.mem_append.1 hmem
    · exact .inl hold
    · exact .inr ⟨hmethod, List.mem_singleton.1 hnew⟩
  · exact .inl hmem

theorem wf_addListener {s : EventListeners} (hwf : Wf s) (req : EventListenerRequest) : Wf (s.addListener req).1 where
  bounded method sub hmem := by
    show sub.registration < s.registered + 1
    obtain hold | ⟨-, rfl⟩ := mem_addListener hmem
    · have := hwf.bounded method sub hold
      omega
    · exact Nat.lt_succ_self _
  nodup method := by
    rw [addListener_subs]
    split
    · rw [registrations, List.map_append]
      refine List.nodup_append.2 ⟨hwf.nodup method, List.nodup_singleton _, ?_⟩
      intro number hnumber other hother heq
      obtain ⟨sub, hsub, rfl⟩ := List.mem_map.1 hnumber
      have hbounded := hwf.bounded method sub hsub
      rw [heq, List.mem_singleton.1 hother] at hbounded
      exact Nat.lt_irrefl _ hbounded
    · exact hwf.nodup method
  one {method method' sub sub'} hmem hmem' heq := by
    obtain hold | ⟨hmethod, rfl⟩ := mem_addListener hmem
    · obtain hold' | ⟨hmethod', rfl⟩ := mem_addListener hmem'
      · exact hwf.one hold hold' heq
      · exact absurd heq (Nat.ne_of_lt (hwf.bounded method sub hold))
    · obtain hold' | ⟨hmethod', rfl⟩ := mem_addListener hmem'
      · exact absurd heq (Nat.ne_of_gt (hwf.bounded method' sub' hold'))
      · rw [hmethod, hmethod']
  records id registration hle := by
    have hlater : s.registered + 1 ≤ registration := hle
    exact hwf.records id registration (by omega)

theorem wf_step {s : EventListeners} (hwf : Wf s) (input : ListenersInput) : Wf (s.step input) := by
  by_cases hinput : ∃ req, input = .addListener req
  · obtain ⟨req, rfl⟩ := hinput
    exact wf_addListener hwf req
  · exact (step_spec hwf input fun req heq => hinput ⟨req, heq⟩).1.wf hwf

theorem wf_final {s : EventListeners} (hwf : Wf s) (inputs : List ListenersInput) : Wf (final step s inputs) :=
  invariant_of_step Wf (fun _ input h => wf_step h input) hwf inputs

theorem wf_empty : Wf empty := ⟨nofun, fun _ => List.nodup_nil, nofun, fun _ _ _ => rfl⟩

/-! ### Runs -/

/-- What sends, new channels and the receivers respect, every step respects. -/
theorem step_rel {r : Channels → Channels → Prop} (hrefl : ∀ channels, r channels channels)
    (htrans : ∀ {c c' c''}, r c c' → r c' c'' → r c c'')
    (hsend : ∀ {channels id registration event channels'},
      sendEvent channels id registration event = some channels' → r channels channels')
    (hopen : ∀ {channels : Channels} {id} type, channels.get id = none → r channels (channels.set id (.new type)))
    (hpoll : ∀ (channels : Channels) id closed, r channels (channels.update id fun ch => (ch.pollNext closed).1))
    (hdrop : ∀ (channels : Channels) id, r channels (channels.update id fun ch => { ch with dropped := true }))
    (s : EventListeners) (input : ListenersInput) : r s.channels (s.step input).channels := by
  cases input with
  | openChannel id type =>
    rw [step]
    split
    · exact hrefl _
    · rename_i habsent
      exact hopen type (Option.not_isSome_iff_eq_none.1 habsent)
  | takeId => exact hrefl _
  | addListener req => exact hrefl _
  | removeListener handle =>
    rw [step, removeListener]
    split
    · exact hrefl _
    · exact hrefl _
  | removeAllForMethod method => exact hrefl _
  | startSend method event => exact hrefl _
  | trySendCustom method val =>
    rw [step, (s.trySendCustom_fields method val).1]
    exact hrefl _
  | flush order =>
    rw [step]
    split
    · exact flush_rel hrefl htrans hsend s order
    · exact hrefl _
  | pollStream id closed => exact hpoll s.channels id closed
  | dropReceiver id => exact hdrop s.channels id

/-- No channel goes away, and no receiver comes back. -/
def Lasts (channels channels' : Channels) : Prop :=
  ∀ id ch, channels.get id = some ch → ∃ ch', channels'.get id = some ch' ∧ (ch.dropped = true → ch'.dropped = true)

theorem Lasts.refl (channels : Channels) : Lasts channels channels := fun _ ch hget => ⟨ch, hget, fun h => h⟩

theorem Lasts.trans {channels channels' channels'' : Channels} (h : Lasts channels channels')
    (h' : Lasts channels' channels'') : Lasts channels channels'' := by
  intro id ch hget
  obtain ⟨ch', hget', hdropped⟩ := h id ch hget
  obtain ⟨ch'', hget'', hdropped'⟩ := h' id ch' hget'
  exact ⟨ch'', hget'', hdropped' ∘ hdropped⟩

/-- A receiver that is there at the end was there before. -/
theorem Lasts.isOpen {channels channels' : Channels} (h : Lasts channels channels') {id : ChannelId} {ch : EventChannel}
    (hget : channels.get id = some ch) (hopen : IsOpen channels' id) : IsOpen channels id := by
  obtain ⟨ch', hget', hdropped⟩ := h id ch hget
  obtain ⟨last, hlast, hreceiver⟩ := hopen
  refine ⟨ch, hget, ?_⟩
  cases hch : ch.dropped with
  | false => rfl
  | true =>
    rw [hget', Option.some.injEq] at hlast
    rw [← hlast, hdropped hch] at hreceiver
    cases hreceiver

theorem lasts_update {f : EventChannel → EventChannel} (hf : ∀ ch, ch.dropped = true → (f ch).dropped = true)
    (channels : Channels) (updated : ChannelId) : Lasts channels (channels.update updated f) := by
  intro id ch hget
  rw [Table.get_update]
  split
  · exact ⟨f ch, by rw [hget, Option.map_some], hf ch⟩
  · exact ⟨ch, hget, fun h => h⟩

theorem lasts_sendEvent {channels channels' : Channels} {id : ChannelId} {registration : Nat} {event : Event}
    (h : sendEvent channels id registration event = some channels') : Lasts channels channels' := by
  obtain ⟨sending, hsending, -, rfl⟩ := sendEvent_cases h
  intro other ch hget
  rw [Table.get_set]
  split
  · rename_i heq
    rw [heq, hsending, Option.some.injEq] at hget
    exact ⟨_, rfl, fun hdropped => hget ▸ hdropped⟩
  · exact ⟨ch, hget, fun h => h⟩

theorem lasts_step (s : EventListeners) (input : ListenersInput) : Lasts s.channels (s.step input).channels := by
  refine step_rel Lasts.refl Lasts.trans lasts_sendEvent (fun {channels id} type habsent other ch hget => ?_)
    (fun channels id closed => lasts_update (fun ch hdropped => ?_) channels id)
    (fun channels id => lasts_update (fun _ _ => rfl) channels id) s input
  · refine ⟨ch, ?_, fun h => h⟩
    have hne : other ≠ id := by
      rintro rfl
      rw [habsent] at hget
      cases hget
    rw [Table.get_set_of_ne _ _ hne, hget]
  · obtain ⟨queue, yielded, heq, -⟩ := EventChannel.pollNext_spec closed ch
    rw [heq]
    exact hdropped

theorem lasts_final (s : EventListeners) (inputs : List ListenersInput) :
    Lasts s.channels (final step s inputs).channels :=
  foldl_rel (r := fun s s' : EventListeners => Lasts s.channels s'.channels) (fun s => Lasts.refl s.channels)
    Lasts.trans lasts_step s inputs

/-- Every stream has yielded what it should. -/
def AllStream (channels : Channels) : Prop := ∀ id ch, channels.get id = some ch → ch.Streams

theorem AllStream.set {channels : Channels} (h : AllStream channels) {ch : EventChannel} (hch : ch.Streams)
    (id : ChannelId) : AllStream (channels.set id ch) := by
  intro other found hget
  rw [Table.get_set] at hget
  split at hget
  · rw [← Option.some.inj hget]
    exact hch
  · exact h other found hget

theorem AllStream.update {channels : Channels} (h : AllStream channels) {f : EventChannel → EventChannel}
    (hf : ∀ ch, ch.Streams → (f ch).Streams) (id : ChannelId) : AllStream (channels.update id f) := by
  cases hget : channels.get id with
  | some ch =>
    rw [Table.update_of_get hget]
    exact h.set (hf ch (h id ch hget)) id
  | none =>
    rw [Table.update_of_get_eq_none hget]
    exact h

/-- An event that is sent waits behind the others. -/
theorem allStream_sendEvent {channels channels' : Channels} {id : ChannelId} {registration : Nat} {event : Event}
    (hsend : sendEvent channels id registration event = some channels') (h : AllStream channels) :
    AllStream channels' := by
  obtain ⟨ch, hget, -, rfl⟩ := sendEvent_cases hsend
  refine h.set ?_ id
  have hch : ch.yielded ++ ch.ofType ch.queue = ch.ofType (ch.sent.map Prod.snd) := h id ch hget
  show ch.yielded ++ ch.ofType (ch.queue ++ [event]) = ch.ofType ((ch.sent ++ [(registration, event)]).map Prod.snd)
  rw [EventChannel.ofType, EventChannel.ofType, List.map_append, List.filter_append, List.filter_append,
    ← List.append_assoc]
  exact congrArg (· ++ _) hch

theorem allStream_step {s : EventListeners} (h : AllStream s.channels) (input : ListenersInput) :
    AllStream (s.step input).channels := by
  refine step_rel (r := fun channels channels' => AllStream channels → AllStream channels') (fun _ h => h)
    (fun h h' => h' ∘ h) allStream_sendEvent (fun {channels id} type _ h => ?_)
    (fun channels id closed h => h.update (fun ch hch => hch.pollNext closed) id)
    (fun channels id h => h.update (f := fun ch => { ch with dropped := true }) (fun _ hch => hch) id) s input h
  exact h.set (show (EventChannel.new type).Streams from rfl) id

theorem registered_le_step (s : EventListeners) (input : ListenersInput) (hwf : Wf s) :
    s.registered ≤ (s.step input).registered := by
  by_cases hinput : ∃ req, input = .addListener req
  · obtain ⟨req, rfl⟩ := hinput
    exact Nat.le_succ _
  · exact Nat.le_of_eq (step_spec hwf input fun req heq => hinput ⟨req, heq⟩).1.registered.symm

theorem registered_le_final {s : EventListeners} (hwf : Wf s) (inputs : List ListenersInput) :
    s.registered ≤ (final step s inputs).registered := by
  induction inputs generalizing s with
  | nil => exact Nat.le_refl _
  | cons input rest ih => exact Nat.le_trans (registered_le_step s input hwf) (ih (wf_step hwf input))

/-- What a step does to the listeners that were there before it. -/
theorem account_step {s : EventListeners} (hwf : Wf s) (input : ListenersInput) {method : MethodId}
    {sub' : EventListener} (hmem : sub' ∈ (s.step input).subs method) (hold : sub'.registration < s.registered) :
    ∃ sub ∈ s.subs method, SameListener sub sub' ∧
      sub'.account (s.step input).channels = sub.account s.channels ++ s.news input method sub.kind := by
  by_cases hinput : ∃ req, input = .addListener req
  · obtain ⟨req, rfl⟩ := hinput
    obtain hbefore | ⟨-, rfl⟩ := mem_addListener hmem
    · exact ⟨sub', hbefore, SameListener.refl sub', (List.append_nil _).symm⟩
    · exact absurd hold (Nat.lt_irrefl _)
  · exact (step_spec hwf input fun req heq => hinput ⟨req, heq⟩).2 method sub' hmem

/-- What a run does to the listeners that were there at its start. -/
theorem account_final {s : EventListeners} (hwf : Wf s) (inputs : List ListenersInput) {method : MethodId}
    {sub' : EventListener} (hmem : sub' ∈ (final step s inputs).subs method)
    (hold : sub'.registration < s.registered) :
    ∃ sub ∈ s.subs method, SameListener sub sub' ∧
      sub'.account (final step s inputs).channels = sub.account s.channels ++ s.matching method sub.kind inputs := by
  induction inputs generalizing s with
  | nil => exact ⟨sub', hmem, SameListener.refl sub', (List.append_nil _).symm⟩
  | cons input rest ih =>
    have hle := registered_le_step s input hwf
    obtain ⟨mid, hmid, hsame, haccount⟩ := ih (wf_step hwf input) hmem (by omega)
    obtain ⟨sub, hsub, hsame', haccount'⟩ := account_step hwf input hmid (by rw [← hsame.registration]; exact hold)
    refine ⟨sub, hsub, hsame'.trans hsame, ?_⟩
    rw [final_cons, haccount, haccount', matching, hsame'.kind, List.append_assoc]

/-- A listener that nobody removes is there as long as its receiver is. -/
theorem stays_final {s : EventListeners} (hwf : Wf s) {inputs : List ListenersInput} {method : MethodId}
    {sub : EventListener} (hmem : sub ∈ s.subs method) (hreceiver : IsOpen s.channels sub.listener)
    (hopen : IsOpen (final step s inputs).channels sub.listener)
    (hinputs : ∀ input ∈ inputs, ¬ Removes ⟨method, sub.id⟩ input) :
    ∃ sub' ∈ (final step s inputs).subs method, SameListener sub sub' := by
  induction inputs generalizing s sub with
  | nil => exact ⟨sub, hmem, SameListener.refl sub⟩
  | cons input rest ih =>
    obtain ⟨mid, hmid, hsame⟩ := step_stays hwf hmem hreceiver (hinputs input List.mem_cons_self)
    obtain ⟨ch, hget, -⟩ := hreceiver
    obtain ⟨ch', hget', -⟩ := lasts_step s input sub.listener ch hget
    have hnext : IsOpen (s.step input).channels sub.listener := (lasts_final (s.step input) rest).isOpen hget' hopen
    obtain ⟨last, hlast, hsame'⟩ := ih (wf_step hwf input) hmid (by rw [hsame.listener]; exact hnext)
      (by rw [hsame.listener]; exact hopen)
      (by rw [hsame.id]; exact fun later hlater => hinputs later (List.mem_cons_of_mem _ hlater))
    exact ⟨last, hlast, hsame.trans hsame'⟩

/-- A registration that no listener has any more stays so, and nothing more is sent under it. -/
theorem gone_final {s : EventListeners} (hwf : Wf s) {registration : Nat} (hold : registration < s.registered)
    (hgone : ∀ method, registration ∉ registrations (s.subs method)) (inputs : List ListenersInput) (id : ChannelId) :
    sentBy (final step s inputs).channels id registration = sentBy s.channels id registration := by
  induction inputs generalizing s with
  | nil => rfl
  | cons input rest ih =>
    have hle := registered_le_step s input hwf
    have hgone' : ∀ method, registration ∉ registrations ((s.step input).subs method) := by
      intro method hmem
      obtain ⟨sub', hsub', rfl⟩ := List.mem_map.1 hmem
      obtain ⟨sub, hsub, hsame, -⟩ := account_step hwf input hsub' hold
      exact hgone method (hsame.registration ▸ List.mem_map_of_mem hsub)
    have hstep : sentBy (s.step input).channels id registration = sentBy s.channels id registration := by
      by_cases hinput : ∃ req, input = .addListener req
      · obtain ⟨req, rfl⟩ := hinput
        rfl
      · exact (step_spec hwf input fun req heq => hinput ⟨req, heq⟩).1.records id registration hgone
    rw [final_cons, ih (wf_step hwf input) (by omega) hgone', hstep]

theorem streams_final (inputs : List ListenersInput) : AllStream (final step empty inputs).channels :=
  invariant_of_step (fun s : EventListeners => AllStream s.channels) (fun _ input h => allStream_step h input)
    (fun _ _ hget => by cases hget) inputs

/-- Whatever happens before and after a registration, its listener has got the events that match it, or has them queued; it is there until it is removed or its receiver is dropped, and gets nothing more from then on; and every stream yields the events of its type that were sent to it. -/
theorem delivers (before after : List ListenersInput) (req : EventListenerRequest) :
    let s := final step empty before
    let s' := s.step (.addListener req)
    let t := final step s' after
    (∀ method, ∀ sub ∈ t.subs method, sub.registration = s.registered →
      method = req.method ∧ sub.listener = req.listener ∧ sub.kind = req.kind ∧
        sentBy t.channels sub.listener sub.registration ++ sub.queuedEvents =
          s'.matching req.method req.kind after) ∧
    (IsOpen s.channels req.listener → IsOpen t.channels req.listener →
      (∀ input ∈ after, ¬ Removes (s.addListener req).2 input) →
      ∃ sub ∈ t.subs req.method, sub.registration = s.registered) ∧
    ((∀ method, ∀ sub ∈ t.subs method, sub.registration ≠ s.registered) → ∀ later,
      sentBy (final step t later).channels req.listener s.registered =
        sentBy t.channels req.listener s.registered) ∧
    ∀ id ch, t.channels.get id = some ch → ∀ closed,
      ch.yielded ++ ch.ofType ch.queue = ch.ofType (ch.sent.map Prod.snd) ∧
        (ch.pollNext closed).1.yielded = ch.yielded ++ (ch.pollNext closed).2.items ∧
        ((fun ch => (ch.pollNext closed).1)^[ch.queue.length] ch).yielded = ch.ofType (ch.sent.map Prod.snd) := by
  intro s s' t
  have hwf : Wf s := wf_final wf_empty before
  have hwf' : Wf s' := wf_step hwf (.addListener req)
  have hnew : s.registered < s'.registered := Nat.lt_succ_self _
  refine ⟨fun method sub hmem hregistration => ?_, fun hreceiver hopen hinputs => ?_, fun hgone later => ?_,
    fun id ch hget closed => ?_⟩
  · obtain ⟨source, hsource, hsame, haccount⟩ := account_final hwf' after hmem (by rw [hregistration]; exact hnew)
    obtain hbefore | ⟨hmethod, rfl⟩ := mem_addListener hsource
    · -- a listener that was there before has another number
      have hlt := hwf.bounded method source hbefore
      rw [← hsame.registration, hregistration] at hlt
      exact absurd hlt (Nat.lt_irrefl _)
    · refine ⟨hmethod, hsame.listener, hsame.kind, haccount.trans ?_⟩
      have hnone : sentBy s'.channels req.listener s.registered = [] := hwf.records _ _ (Nat.le_refl _)
      rw [EventListener.account, hnone, hmethod]
      rfl
  · have hmem : (⟨s.nextListenerId, req.listener, [], req.kind, s.registered⟩ : EventListener) ∈
        s'.subs req.method := by
      show _ ∈ (s.addListener req).1.subs req.method
      rw [addListener_subs, if_pos rfl]
      exact List.mem_append_right _ (List.mem_singleton_self _)
    obtain ⟨sub, hsub, hsame⟩ := stays_final hwf' hmem hreceiver hopen hinputs
    exact ⟨sub, hsub, hsame.registration⟩
  · have hle : s'.registered ≤ t.registered := registered_le_final hwf' after
    refine gone_final (wf_final hwf' after) (Nat.lt_of_lt_of_le hnew hle) (fun method hmem => ?_) later req.listener
    obtain ⟨sub, hsub, hsame⟩ := List.mem_map.1 hmem
    exact hgone method sub hsub hsame
  · have hstreams : ch.Streams := by
      have hall := streams_final (before ++ .addListener req :: after)
      rw [final_append, final_cons] at hall
      exact hall id ch hget
    exact ⟨hstreams, EventChannel.pollNext_yielded closed ch, hstreams.drained closed⟩

/-- A custom listener beside one whose receiver is dropped with an event in the queue. -/
theorem delivers_besideDropped :
    let convert : Value → Option Event := fun val => some ⟨"Custom", val⟩
    let s := final step empty [.openChannel ⟨0⟩ "Other", .addListener ⟨⟨0⟩, "m", .builtIn⟩, .openChannel ⟨1⟩ "Custom"]
    let t := final step (s.step (.addListener ⟨⟨1⟩, "m", .custom convert⟩))
      [.startSend "m" ⟨"Other", .null⟩, .dropReceiver ⟨0⟩, .trySendCustom "m" .null, .flush ["m"],
        .trySendCustom "m" (.bool true), .flush ["m"], .pollStream ⟨1⟩ false]
    ∃ sub ∈ t.subs "m", sentBy t.channels sub.listener sub.registration ++ sub.queuedEvents =
      [⟨"Other", .null⟩, ⟨"Custom", .null⟩, ⟨"Custom", .bool true⟩] := by
  intro convert s t
  obtain ⟨haccount, hstays, -⟩ := delivers
    [.openChannel ⟨0⟩ "Other", .addListener ⟨⟨0⟩, "m", .builtIn⟩, .openChannel ⟨1⟩ "Custom"]
    [.startSend "m" ⟨"Other", .null⟩, .dropReceiver ⟨0⟩, .trySendCustom "m" .null, .flush ["m"],
      .trySendCustom "m" (.bool true), .flush ["m"], .pollStream ⟨1⟩ false] ⟨⟨1⟩, "m", .custom convert⟩
  obtain ⟨sub, hmem, hregistration⟩ := hstays (isOpen_iff.2 (by decide +kernel)) (isOpen_iff.2 (by decide +kernel))
    (by simp [Removes])
  exact ⟨sub, hmem, (haccount "m" sub hmem hregistration).2.2.2⟩

end EventListeners

end SpiderChrome
