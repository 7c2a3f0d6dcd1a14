import SpiderChrome.Listeners.Delivery
import SpiderChrome.Markdown.State

/-!
# The listeners of the exchange

The exchange takes the flush of the listeners apart. Undisturbed by the consumer, an event that arrives and a flush with all its turns do to the two listeners and their channels what `EventListeners` does to them.
-/

namespace SpiderChrome

namespace ContentMarkdown

open Run

def Side.method : Side → MethodId
  | .chunk => "Content.markdownChunk"
  | .done => "Content.markdownDone"

namespace Exchange

variable {C : Type}

def pipe (s : Exchange C) : Side → Pipe
  | .chunk => s.chunks
  | .done => s.done

def setPipe (s : Exchange C) : Side → Pipe → Exchange C
  | .chunk, pipe => { s with chunks := pipe }
  | .done, pipe => { s with done := pipe }

@[simp] theorem pipe_setPipe (s : Exchange C) (side : Side) (pipe : Pipe) : (s.setPipe side pipe).pipe side = pipe := by
  cases side with
  | chunk => rfl
  | done => rfl

theorem pipe_setPipe_of_ne (s : Exchange C) {side other : Side} (h : other ≠ side) (pipe : Pipe) :
    (s.setPipe side pipe).pipe other = s.pipe other := by
  cases side with
  | chunk =>
    cases other with
    | chunk => exact absurd rfl h
    | done => rfl
  | done =>
    cases other with
    | chunk => rfl
    | done => exact absurd rfl h

@[simp] theorem setPipe_consumer (s : Exchange C) (side : Side) (pipe : Pipe) :
    (s.setPipe side pipe).consumer = s.consumer := by
  cases side with
  | chunk => rfl
  | done => rfl

@[simp] theorem setPipe_flushing (s : Exchange C) (side : Side) (pipe : Pipe) :
    (s.setPipe side pipe).flushing = s.flushing := by
  cases side with
  | chunk => rfl
  | done => rfl

@[simp] theorem setPipe_setPipe (s : Exchange C) (side : Side) (pipe pipe' : Pipe) :
    (s.setPipe side pipe).setPipe side pipe' = s.setPipe side pipe' := by
  cases side with
  | chunk => rfl
  | done => rfl

theorem event_eq {s : Exchange C} {side : Side} {val : Value} {rest : List (Side × Value)}
    (h : s.coming = (side, val) :: rest) :
    s.event = { s.setPipe side ((s.pipe side).trySendCustom val) with coming := rest } := by
  rw [event, h]
  cases side with
  | chunk => rfl
  | done => rfl

theorem send_eq {s : Exchange C} {side : Side} {rest : List Side} (h : s.flushing = side :: rest) :
    s.send =
      match (s.pipe side).sendNext with
      | some pipe => s.setPipe side pipe
      | none => { s with flushing := rest } := by
  obtain ⟨coming, chunks, done, flushing, turn, consumer⟩ := s
  obtain rfl : flushing = side :: rest := h
  cases side with
  | chunk => rfl
  | done => rfl

end Exchange

/-- A channel that took some events of a listener. -/
def took (ch : EventChannel) (registration : Nat) (events : List Event) : EventChannel :=
  { ch with queue := ch.queue ++ events, sent := ch.sent ++ events.map fun event => (registration, event) }

theorem took_nil (ch : EventChannel) (registration : Nat) : took ch registration [] = ch := by
  rw [took, List.map_nil, List.append_nil, List.append_nil]

theorem took_took (ch : EventChannel) (registration : Nat) (event : Event) (rest : List Event) :
    took (took ch registration [event]) registration rest = took ch registration (event :: rest) := by
  simp [took]

theorem send_of_open {ch : EventChannel} (hopen : ch.dropped = false) (registration : Nat) (event : Event) :
    ch.send registration event = some (took ch registration [event]) :=
  if_neg (ne_true_of_eq_false hopen)

/-- A pipe after its listener is flushed. -/
def Pipe.drained (pipe : Pipe) : Pipe :=
  ⟨{ pipe.sub with queuedEvents := [] }, took pipe.channel pipe.sub.registration pipe.sub.queuedEvents⟩

section Drain

variable {C : Type} {s : Exchange C} {side : Side} {rest : List Side}

/-- The turns of a flush send what is queued for a listener, and go on to the next. -/
theorem sends_drain (consumer : Consumer C) (hrunning : consumer.ended s.consumer = false)
    (hflushing : s.flushing = side :: rest) (hopen : (s.pipe side).channel.dropped = false) :
    ∃ n, final (Exchange.step consumer) s (List.replicate n .send) =
      { s.setPipe side (s.pipe side).drained with flushing := rest } := by
  have hstep : ∀ s : Exchange C, consumer.ended s.consumer = false → Exchange.step consumer s .send = s.send := by
    intro s hrunning
    rw [Exchange.step.eq_def, hrunning]
    rfl
  generalize hqueued : (s.pipe side).sub.queuedEvents = queued
  induction queued generalizing s with
  | nil =>
    refine ⟨1, ?_⟩
    have hnone : (s.pipe side).sendNext = none := by rw [Pipe.sendNext, hqueued]
    have hsame : (s.pipe side).drained = s.pipe side := by rw [Pipe.drained, hqueued, took_nil, ← hqueued]
    rw [List.replicate_one, final_cons, final_nil, hstep s hrunning, Exchange.send_eq hflushing, hnone, hsame]
    cases side with
    | chunk => rfl
    | done => rfl
  | cons event queued ih =>
    let next : Pipe := ⟨{ (s.pipe side).sub with queuedEvents := queued },
      took (s.pipe side).channel (s.pipe side).sub.registration [event]⟩
    have hnext : (s.pipe side).sendNext = some next := by
      rw [Pipe.sendNext, hqueued]
      dsimp only
      rw [send_of_open hopen]
      rfl
    have hsend := Exchange.send_eq hflushing
    rw [hnext] at hsend
    obtain ⟨n, hn⟩ := @ih s.send (by rw [hsend, Exchange.setPipe_consumer, hrunning])
      (by rw [hsend, Exchange.setPipe_flushing, hflushing]) (by rw [hsend, Exchange.pipe_setPipe]; exact hopen)
      (by rw [hsend, Exchange.pipe_setPipe])
    refine ⟨n + 1, ?_⟩
    have hdrained : next.drained = (s.pipe side).drained := by
      rw [Pipe.drained, Pipe.drained, hqueued, ← took_took]
    rw [List.replicate_succ, final_cons, hstep s hrunning, hn, hsend, Exchange.pipe_setPipe, Exchange.setPipe_setPipe,
      hdrained]

end Drain

/-- An open channel takes all events of its listener. -/
theorem get_sendAll (sub : EventListener) (events : List Event) {channels : Channels} {ch : EventChannel}
    (hget : channels.get sub.listener = some ch) (hopen : ch.dropped = false) (id : ChannelId) :
    (sub.sendAll events channels).1.get id =
      if id = sub.listener then some (took ch sub.registration events) else channels.get id := by
  induction events generalizing channels ch with
  | nil =>
    rw [EventListener.sendAll, took_nil]
    split
    · rename_i hid
      rw [hid, hget]
    · rfl
  | cons event rest ih =>
    have hnext : sub.sendNext channels event = some (channels.set sub.listener (took ch sub.registration [event])) := by
      rw [EventListener.sendNext, sendEvent, hget]
      dsimp only
      rw [send_of_open hopen]
      rfl
    rw [EventListener.sendAll, hnext]
    dsimp only
    rw [ih (Table.get_set_self _ _ _) (show (took ch sub.registration [event]).dropped = false from hopen), took_took]
    split
    · rfl
    · rename_i hne
      rw [Table.get_set_of_ne _ _ hne]

/-! ### The two listeners -/

/-- The exchange has the listeners of its two methods and their channels, whose receivers are there. -/
structure Embeds {C : Type} (s : Exchange C) (l : EventListeners) : Prop where
  subs : ∀ side, l.subs side.method = [(s.pipe side).sub]
  channel : ∀ side, l.channels.get (s.pipe side).sub.listener = some (s.pipe side).channel
  receiver : ∀ side, (s.pipe side).channel.dropped = false
  apart : s.chunks.sub.listener ≠ s.done.sub.listener

theorem method_ne {side other : Side} (h : other ≠ side) : other.method ≠ side.method := by
  cases side with
  | chunk =>
    cases other with
    | chunk => exact absurd rfl h
    | done => decide
  | done =>
    cases other with
    | chunk => decide
    | done => exact absurd rfl h

section Embedding

variable {C : Type} {s : Exchange C} {l : EventListeners}

theorem Embeds.listener_ne (h : Embeds s l) {side other : Side} (hne : other ≠ side) :
    (s.pipe other).sub.listener ≠ (s.pipe side).sub.listener := by
  cases side with
  | chunk =>
    cases other with
    | chunk => exact absurd rfl hne
    | done => exact h.apart.symm
  | done =>
    cases other with
    | chunk => exact h.apart
    | done => exact absurd rfl hne

/-- A step that changes one listener and its channel alike. -/
theorem Embeds.of_side (h : Embeds s l) {s' : Exchange C} {l' : EventListeners} {side : Side}
    (hlistener : (s'.pipe side).sub.listener = (s.pipe side).sub.listener)
    (hsubs : l'.subs side.method = [(s'.pipe side).sub])
    (hchannel : l'.channels.get (s.pipe side).sub.listener = some (s'.pipe side).channel)
    (hopen : (s'.pipe side).channel.dropped = false)
    (hpipes : ∀ other, other ≠ side → s'.pipe other = s.pipe other)
    (hothers : ∀ other, other ≠ side → l'.subs other.method = l.subs other.method)
    (hchannels : ∀ id, id ≠ (s.pipe side).sub.listener → l'.channels.get id = l.channels.get id) : Embeds s' l' := by
  have hsame : ∀ other, (s'.pipe other).sub.listener = (s.pipe other).sub.listener := by
    intro other
    by_cases hother : other = side
    · rw [hother, hlistener]
    · rw [hpipes other hother]
  refine ⟨fun other => ?_, fun other => ?_, fun other => ?_, ?_⟩
  · by_cases hother : other = side
    · rw [hother, hsubs]
    · rw [hothers other hother, hpipes other hother, h.subs]
  · by_cases hother : other = side
    · rw [hother, hlistener, hchannel]
    · rw [hpipes other hother, hchannels _ (h.listener_ne hother), h.channel]
  · by_cases hother : other = side
    · rw [hother, hopen]
    · rw [hpipes other hother, h.receiver]
  · have hapart := h.apart
    rw [← show s'.chunks.sub.listener = s.chunks.sub.listener from hsame .chunk,
      ← show s'.done.sub.listener = s.done.sub.listener from hsame .done] at hapart
    exact hapart

/-- An event that arrives is queued as `try_send_custom` queues it. -/
theorem event_refines (h : Embeds s l) {side : Side} {val : Value} {rest : List (Side × Value)}
    (hcoming : s.coming = (side, val) :: rest) : Embeds s.event (l.trySendCustom side.method val) := by
  have hsubs := l.trySendCustom_subs side.method val
  have hfirst : EventListeners.firstConverter (l.subs side.method) = (s.pipe side).sub.kind.converter := by
    rw [h.subs, EventListeners.firstConverter, List.findSome?_singleton]
  have hpipe : ∀ other, s.event.pipe other = (s.setPipe side ((s.pipe side).trySendCustom val)).pipe other := by
    intro other
    rw [Exchange.event_eq hcoming]
    cases other with
    | chunk => rfl
    | done => rfl
  have hmine : s.event.pipe side = (s.pipe side).trySendCustom val := by rw [hpipe, Exchange.pipe_setPipe]
  rw [hfirst] at hsubs
  have hchannels := (l.trySendCustom_fields side.method val).1
  have hqueued : (s.event.pipe side).sub.listener = (s.pipe side).sub.listener ∧
      (s.event.pipe side).channel = (s.pipe side).channel ∧
      (l.trySendCustom side.method val).subs side.method = [(s.event.pipe side).sub] := by
    rw [hmine, hsubs, Pipe.trySendCustom]
    cases hconvert : (s.pipe side).sub.kind.converter.bind fun convert => convert val with
    | none => exact ⟨rfl, rfl, h.subs side⟩
    | some event =>
      have hcustom : (s.pipe side).sub.kind.isCustom = true := by
        cases hkind : (s.pipe side).sub.kind with
        | custom convert => rfl
        | builtIn =>
          rw [hkind] at hconvert
          cases hconvert
      refine ⟨rfl, rfl, ?_⟩
      dsimp only
      rw [if_pos rfl, h.subs, List.map_singleton, if_pos hcustom]
  refine h.of_side hqueued.1 hqueued.2.2 ?_ ?_ (fun other hother => ?_) (fun other hother => ?_) fun id _ => ?_
  · rw [hchannels, hqueued.2.1, h.channel]
  · rw [hqueued.2.1, h.receiver]
  · rw [hpipe, Exchange.pipe_setPipe_of_ne _ hother]
  · rw [hsubs]
    split
    · rw [if_neg (method_ne hother)]
    · rfl
  · rw [hchannels]

/-- The turns of a flush for one listener do what the loop in `EventListeners::flush` does for its method. -/
theorem sends_refine (h : Embeds s l) (consumer : Consumer C) (hrunning : consumer.ended s.consumer = false) {side : Side}
    {rest : List Side} (hflushing : s.flushing = side :: rest) (anyDisconnected : Bool) :
    ∃ n, let s' := final (Exchange.step consumer) s (List.replicate n .send)
      Embeds s' (EventListeners.flushMethod (l, anyDisconnected) side.method).1 ∧ s'.flushing = rest ∧
        s'.consumer = s.consumer := by
  obtain ⟨n, hn⟩ := sends_drain consumer hrunning hflushing (h.receiver side)
  refine ⟨n, ?_⟩
  dsimp only
  rw [hn]
  refine ⟨?_, rfl, Exchange.setPipe_consumer _ _ _⟩
  have hget : l.listeners.get side.method = some [(s.pipe side).sub] := by
    have hsubs := h.subs side
    rw [EventListeners.subs] at hsubs
    cases hget : l.listeners.get side.method with
    | some subs =>
      rw [hget, Option.getD_some] at hsubs
      rw [hsubs]
    | none =>
      rw [hget] at hsubs
      cases hsubs
  have hopen : IsOpen l.channels (s.pipe side).sub.listener := ⟨_, h.channel side, h.receiver side⟩
  have hpipe : ∀ other, Exchange.pipe { s.setPipe side (s.pipe side).drained with flushing := rest } other =
      (s.setPipe side (s.pipe side).drained).pipe other := by
    intro other
    cases other with
    | chunk => rfl
    | done => rfl
  have hmine := (hpipe side).trans (Exchange.pipe_setPipe s side _)
  have hflushed := flushSubs_cons (s.pipe side).sub [] l.channels
  rw [flush_of_isOpen _ _ hopen, EventListener.flush_channels] at hflushed
  rw [EventListeners.flushMethod, hget]
  dsimp only
  rw [hflushed]
  refine @Embeds.of_side _ _ _ h _ _ side ?_ ?_ ?_ ?_ (fun other hother => ?_) (fun other hother => ?_) fun id hid => ?_
  · rw [hmine]
    rfl
  · rw [hmine]
    exact EventListeners.subs_of_get (Table.get_set_self _ _ _)
  · rw [hmine]
    exact (get_sendAll _ _ (h.channel side) (h.receiver side) _).trans (if_pos rfl)
  · rw [hmine]
    exact h.receiver side
  · rw [hpipe, Exchange.pipe_setPipe_of_ne _ hother]
  · rw [EventListeners.subs, EventListeners.subs_set, if_neg (method_ne hother)]
  · exact (get_sendAll _ _ (h.channel side) (h.receiver side) id).trans (if_neg hid)

/-- The turns of a flush for some listeners. -/
theorem sends_refine_all (consumer : Consumer C) (order : List Side) (p : EventListeners × Bool) (h : Embeds s p.1)
    (hrunning : consumer.ended s.consumer = false) (hflushing : s.flushing = order) :
    ∃ n, let s' := final (Exchange.step consumer) s (List.replicate n .send)
      Embeds s' ((order.map Side.method).foldl EventListeners.flushMethod p).1 ∧ s'.flushing = [] := by
  induction order generalizing s p with
  | nil => exact ⟨0, h, hflushing⟩
  | cons side rest ih =>
    obtain ⟨l, anyDisconnected⟩ := p
    obtain ⟨n, hembeds, hrest, hconsumer⟩ := sends_refine h consumer hrunning hflushing anyDisconnected
    obtain ⟨m, hall, hidle⟩ := ih _ hembeds (by rw [hconsumer, hrunning]) hrest
    refine ⟨n + m, ?_⟩
    rw [List.replicate_add, final_append]
    exact ⟨hall, hidle⟩

/-- A flush that the consumer does not disturb is the flush of `EventListeners`. -/
theorem flush_refines (h : Embeds s l) (consumer : Consumer C) (hrunning : consumer.ended s.consumer = false)
    (hidle : s.flushing = []) {order : List Side} (horder : order.Perm [.chunk, .done]) :
    ∃ n, let s' := final (Exchange.step consumer) s (.flush order :: List.replicate n .send)
      Embeds s' (l.flush (order.map Side.method)) ∧ s'.flushing = [] := by
  have hstart : Exchange.step consumer s (.flush order) = { s with flushing := order } := by
    rw [Exchange.step.eq_def, hrunning]
    show (if s.flushing = [] ∧ order.Perm [.chunk, .done] then _ else s) = _
    rw [if_pos (And.intro hidle horder)]
  have hpipes : ∀ side, Exchange.pipe { s with flushing := order } side = s.pipe side := by
    intro side
    cases side with
    | chunk => rfl
    | done => rfl
  have hbegun : Embeds { s with flushing := order } l :=
    ⟨fun side => hpipes side ▸ h.subs side, fun side => hpipes side ▸ h.channel side,
      fun side => hpipes side ▸ h.receiver side, h.apart⟩
  obtain ⟨n, hembeds, hflushed⟩ := sends_refine_all consumer order (l, false) hbegun hrunning rfl
  refine ⟨n, ?_⟩
  dsimp only
  rw [final_cons, hstart]
  refine ⟨⟨?_, ?_, hembeds.receiver, hembeds.apart⟩, hflushed⟩
  · rw [EventListeners.flush_subs]
    exact hembeds.subs
  · rw [(EventListeners.flush_fields l _).1]
    exact hembeds.channel

end Embedding

end ContentMarkdown

end SpiderChrome
