import SpiderChrome.Library.Run
import SpiderChrome.Markdown.State

/-!
# Chunks that are lost

Chunks and the terminal event travel through two listeners and two channels, and a wait polls the two streams one after the other. The chunks that the consumer took, those that wait in their channel, those in the queue of their listener and those that the engine has still to push are at all times the chunks of the document. The terminal event comes after all chunks, but it may overtake them: a flush may visit its listener first, and it may be sent between the two polls of a wait. Who takes it then ends without the chunks that are under way.
-/

namespace SpiderChrome

namespace ContentMarkdown

open Run

/-! ### Streams of one type -/

section Poll

variable {ch : EventChannel}

theorem pollNext_cons {ev : Event} {rest : List Event} (hqueue : ch.queue = ev :: rest) (htype : ev.type = ch.type)
    (closed : Bool) :
    ch.pollNext closed = ({ ch with queue := rest, yielded := ch.yielded ++ [ev] }, .ready (some ev)) := by
  rw [EventChannel.pollNext, EventChannel.maxWrongTypePerPoll, EventChannel.pollWith, hqueue]
  exact if_pos htype

theorem pollNext_nil (hqueue : ch.queue = []) (closed : Bool) :
    ch.pollNext closed = (ch, if closed then .ready none else .pending) := by
  rw [EventChannel.pollNext, EventChannel.maxWrongTypePerPoll, EventChannel.pollWith, hqueue]

end Poll

/-! ### Pipes -/

/-- Everything in the pipe is of the type of its stream, and the listener has the conversion into this type. -/
structure Pipe.Typed (convert : Value → Option Event) (pipe : Pipe) : Prop where
  kind : pipe.sub.kind = .custom convert
  queued : ∀ ev ∈ pipe.sub.queuedEvents, ev.type = pipe.channel.type
  waiting : ∀ ev ∈ pipe.channel.queue, ev.type = pipe.channel.type

/-- The events that were handed to the listener, in order: those that the stream has yielded, those that wait in the channel, and those in the queue of the listener. -/
def Pipe.events (pipe : Pipe) : List Event :=
  pipe.channel.yielded ++ (pipe.channel.queue ++ pipe.sub.queuedEvents)

/-- The events that the stream has still to yield. -/
def Pipe.underway (pipe : Pipe) : List Event := pipe.channel.queue ++ pipe.sub.queuedEvents

section Pipes

variable {pipe pipe' : Pipe} {convert : Value → Option Event}

theorem Pipe.trySendCustom_of_kind (h : pipe.sub.kind = .custom convert) (val : Value) :
    pipe.trySendCustom val =
      { pipe with sub := { pipe.sub with queuedEvents := pipe.sub.queuedEvents ++ (convert val).toList } } := by
  rw [Pipe.trySendCustom, h]
  cases hconvert : convert val with
  | some event =>
    rw [EventKind.converter, Option.bind_some, hconvert]
    rfl
  | none =>
    rw [EventKind.converter, Option.bind_some, hconvert]
    simp

theorem Pipe.Typed.trySendCustom (h : pipe.Typed convert)
    (hconvert : ∀ {val event}, convert val = some event → event.type = pipe.channel.type) (val : Value) :
    (pipe.trySendCustom val).Typed convert ∧
      (pipe.trySendCustom val).events = pipe.events ++ (convert val).toList ∧
      (pipe.trySendCustom val).channel = pipe.channel := by
  rw [Pipe.trySendCustom_of_kind h.kind]
  refine ⟨⟨h.kind, fun ev hmem => ?_, h.waiting⟩, ?_, rfl⟩
  · obtain hold | hnew := List.mem_append.1 hmem
    · exact h.queued ev hold
    · exact hconvert (Option.mem_toList.1 hnew)
  · simp only [Pipe.events, List.append_assoc]

/-- A turn of a flush moves an event on. -/
theorem Pipe.sendNext_cases (h : pipe.sendNext = some pipe') :
    ∃ event rest, pipe.sub.queuedEvents = event :: rest ∧
      pipe'.sub = { pipe.sub with queuedEvents := rest } ∧ pipe'.channel.queue = pipe.channel.queue ++ [event] ∧
      pipe'.channel.yielded = pipe.channel.yielded ∧ pipe'.channel.type = pipe.channel.type := by
  rw [Pipe.sendNext] at h
  split at h
  · rename_i event rest hqueued
    rw [EventChannel.send] at h
    split at h
    · cases h
    · rw [Option.map_some, Option.some.injEq] at h
      rw [← h]
      exact ⟨event, rest, hqueued, rfl, rfl, rfl, rfl⟩
  · cases h

theorem Pipe.Typed.sendNext (h : pipe.Typed convert) (hsend : pipe.sendNext = some pipe') :
    pipe'.Typed convert ∧ pipe'.events = pipe.events ∧ pipe'.channel.type = pipe.channel.type ∧
      pipe'.underway = pipe.underway := by
  obtain ⟨event, rest, hqueued, hsub, hqueue, hyielded, htype⟩ := Pipe.sendNext_cases hsend
  have hmem : ∀ ev ∈ event :: rest, ev.type = pipe.channel.type := hqueued ▸ h.queued
  refine ⟨⟨?_, fun ev hev => ?_, fun ev hev => ?_⟩, ?_, htype, ?_⟩
  · rw [hsub]
    exact h.kind
  · rw [hsub] at hev
    rw [htype]
    exact hmem ev (List.mem_cons_of_mem _ hev)
  · rw [hqueue] at hev
    rw [htype]
    obtain hold | hnew := List.mem_append.1 hev
    · exact h.waiting ev hold
    · exact hmem ev (List.mem_singleton.1 hnew ▸ List.mem_cons_self)
  · rw [Pipe.events, Pipe.events, hyielded, hqueue, hsub, hqueued, List.append_assoc, List.singleton_append]
  · rw [Pipe.underway, Pipe.underway, hqueue, hsub, hqueued, List.append_assoc, List.singleton_append]

/-- A poll of the stream gives its next event, where one waits. -/
theorem Pipe.Typed.pollNext (h : pipe.Typed convert) (closed : Bool) :
    (∃ ev rest, pipe.channel.queue = ev :: rest ∧ pipe.channel.pollNext closed =
      ({ pipe.channel with queue := rest, yielded := pipe.channel.yielded ++ [ev] }, .ready (some ev))) ∨
      pipe.channel.queue = [] ∧
        pipe.channel.pollNext closed = (pipe.channel, if closed then .ready none else .pending) := by
  cases hqueue : pipe.channel.queue with
  | cons ev rest =>
    have htype : ev.type = pipe.channel.type := h.waiting ev (hqueue ▸ List.mem_cons_self)
    exact .inl ⟨ev, rest, rfl, pollNext_cons hqueue htype closed⟩
  | nil => exact .inr ⟨rfl, pollNext_nil hqueue closed⟩

/-- An event that is yielded was the first of those under way. -/
theorem Pipe.Typed.yield (h : pipe.Typed convert) {ev : Event} {rest : List Event}
    (hqueue : pipe.channel.queue = ev :: rest) :
    let yielded : Pipe :=
      { pipe with channel := { pipe.channel with queue := rest, yielded := pipe.channel.yielded ++ [ev] } }
    yielded.Typed convert ∧ yielded.events = pipe.events := by
  refine ⟨⟨h.kind, h.queued, fun other hother => ?_⟩, ?_⟩
  · exact h.waiting other (hqueue ▸ List.mem_cons_of_mem _ hother)
  · rw [Pipe.events, Pipe.events, hqueue, List.append_assoc, List.singleton_append, List.cons_append]

end Pipes

/-! ### The exchange -/

/-- The chunks among the events that are still to come. -/
def comingChunks (coming : List (Side × Value)) : List Event :=
  coming.filterMap fun entry => if entry.1 = .chunk then markdownChunk entry.2 else none

/-- The chunks of the document and the terminal event are where they can be. -/
structure Flows {C : Type} (chunks : List Event) (s : Exchange C) : Prop where
  chunk : s.chunks.Typed markdownChunk
  done : s.done.Typed markdownDone
  chunkType : s.chunks.channel.type = "EventMarkdownChunk"
  doneType : s.done.channel.type = "EventMarkdownDone"
  flow : s.chunks.events ++ comingChunks s.coming = chunks
  shape : s.coming = [] ∨ ∃ (document : List Value) (done : Value), s.coming =
    document.map (fun val => (.chunk, val)) ++ [(.done, done)]
  late : s.coming ≠ [] → s.done.events = []

theorem type_of_markdownChunk {val : Value} {event : Event} (h : markdownChunk val = some event) :
    event.type = "EventMarkdownChunk" := by
  rw [markdownChunk] at h
  repeat' split at h
  all_goals cases h
  all_goals rfl

theorem type_of_markdownDone {val : Value} {event : Event} (h : markdownDone val = some event) :
    event.type = "EventMarkdownDone" := by
  rw [markdownDone] at h
  split at h
  all_goals cases h
  rfl

section Exchanges

variable {C : Type} {chunks : List Event} {s : Exchange C}

theorem flows_new (consumer : C) (document : List Value) (done : Value) :
    Flows (document.filterMap markdownChunk) (Exchange.new consumer document done) where
  chunk := ⟨rfl, nofun, nofun⟩
  done := ⟨rfl, nofun, nofun⟩
  chunkType := rfl
  doneType := rfl
  flow := by
    rw [Exchange.new, comingChunks, List.filterMap_append, List.filterMap_map]
    exact List.append_nil _
  shape := .inr ⟨document, done, rfl⟩
  late _ := rfl

theorem Flows.event (h : Flows chunks s) : Flows chunks s.event := by
  obtain ⟨hchunk, hdone, hchunkType, hdoneType, hflow, hshape, hlate⟩ := h
  rw [Exchange.event]
  obtain hnil | ⟨document, done, hcoming⟩ := hshape
  · rw [hnil]
    exact ⟨hchunk, hdone, hchunkType, hdoneType, hflow, .inl hnil, hlate⟩
  · have hnone : s.done.events = [] := hlate (by rw [hcoming]; exact List.append_ne_nil_of_right_ne_nil _ nofun)
    cases document with
    | nil =>
      rw [hcoming]
      obtain ⟨htyped, -, hchannel⟩ :=
        hdone.trySendCustom (fun heq => (type_of_markdownDone heq).trans hdoneType.symm) done
      refine ⟨hchunk, htyped, hchunkType, hchannel ▸ hdoneType, ?_, .inl rfl, fun hne => absurd rfl hne⟩
      rw [hcoming] at hflow
      exact hflow
    | cons val rest =>
      rw [hcoming]
      obtain ⟨htyped, hevents, hchannel⟩ :=
        hchunk.trySendCustom (fun heq => (type_of_markdownChunk heq).trans hchunkType.symm) val
      refine ⟨htyped, hdone, hchannel ▸ hchunkType, hdoneType, ?_, .inr ⟨rest, done, rfl⟩, fun _ => hnone⟩
      rw [← hflow, hcoming]
      show (s.chunks.trySendCustom val).events ++ _ = _
      rw [hevents, List.append_assoc]
      refine congrArg (s.chunks.events ++ ·) ?_
      show _ = List.filterMap _ ((Side.chunk, val) :: _)
      rw [List.filterMap_cons]
      cases markdownChunk val with
      | some event => simp [comingChunks]
      | none => simp [comingChunks]

theorem Flows.send (h : Flows chunks s) : Flows chunks s.send := by
  obtain ⟨hchunk, hdone, hchunkType, hdoneType, hflow, hshape, hlate⟩ := h
  rw [Exchange.send]
  split
  · split
    · rename_i pipe hsend
      obtain ⟨htyped, hevents, htype, -⟩ := hchunk.sendNext hsend
      refine ⟨htyped, hdone, htype.trans hchunkType, hdoneType, ?_, hshape, hlate⟩
      show pipe.events ++ _ = _
      rw [hevents, hflow]
    · exact ⟨hchunk, hdone, hchunkType, hdoneType, hflow, hshape, hlate⟩
  · split
    · rename_i pipe hsend
      obtain ⟨htyped, hevents, htype, -⟩ := hdone.sendNext hsend
      exact ⟨hchunk, htyped, hchunkType, htype.trans hdoneType, hflow, hshape, fun hne => hevents.trans (hlate hne)⟩
    · exact ⟨hchunk, hdone, hchunkType, hdoneType, hflow, hshape, hlate⟩
  · exact ⟨hchunk, hdone, hchunkType, hdoneType, hflow, hshape, hlate⟩

/-- What a poll does: it starts a round, or takes what the stream gives, or finds nothing. -/
theorem poll_cases (h : Flows chunks s) (consumer : Consumer C) (closed : Bool) :
    (s.turn = .start ∧ Exchange.poll consumer s closed =
      { s with turn := .chunks, consumer := consumer.start s.consumer }) ∨
    (∃ ev rest, s.turn = .chunks ∧ s.chunks.channel.queue = ev :: rest ∧
      Exchange.poll consumer s closed =
        { s with
          turn := .start
          chunks := { s.chunks with
            channel := { s.chunks.channel with queue := rest, yielded := s.chunks.channel.yielded ++ [ev] } }
          consumer := consumer.take s.consumer (.chunk (chunkOf ev)) }) ∨
    (∃ ev rest, s.turn = .done ∧ s.done.channel.queue = ev :: rest ∧
      Exchange.poll consumer s closed =
        { s with
          turn := .start
          done := { s.done with
            channel := { s.done.channel with queue := rest, yielded := s.done.channel.yielded ++ [ev] } }
          consumer := consumer.take s.consumer .done }) ∨
    (s.turn = .chunks ∧ s.chunks.channel.queue = [] ∧
      Exchange.poll consumer s closed = if closed then s.take consumer .closed else { s with turn := .done }) ∨
    (s.turn = .done ∧ s.done.channel.queue = [] ∧
      Exchange.poll consumer s closed = if closed then s.take consumer .closed else { s with turn := .chunks }) := by
  rw [Exchange.poll]
  cases hturn : s.turn with
  | start => exact .inl ⟨rfl, rfl⟩
  | chunks =>
    obtain ⟨ev, rest, hqueue, hpoll⟩ | ⟨hqueue, hpoll⟩ := h.chunk.pollNext closed
    · refine .inr (.inl ⟨ev, rest, rfl, hqueue, ?_⟩)
      rw [hpoll]
      rfl
    · refine .inr (.inr (.inr (.inl ⟨rfl, hqueue, ?_⟩)))
      rw [hpoll]
      cases closed with
      | true => rfl
      | false => rfl
  | done =>
    obtain ⟨ev, rest, hqueue, hpoll⟩ | ⟨hqueue, hpoll⟩ := h.done.pollNext closed
    · refine .inr (.inr (.inl ⟨ev, rest, rfl, hqueue, ?_⟩))
      rw [hpoll]
      rfl
    · refine .inr (.inr (.inr (.inr ⟨rfl, hqueue, ?_⟩)))
      rw [hpoll]
      cases closed with
      | true => rfl
      | false => rfl

theorem Flows.poll (h : Flows chunks s) (consumer : Consumer C) (closed : Bool) :
    Flows chunks (Exchange.poll consumer s closed) := by
  have hcases := poll_cases h consumer closed
  obtain ⟨hchunk, hdone, hchunkType, hdoneType, hflow, hshape, hlate⟩ := h
  obtain ⟨-, heq⟩ | ⟨ev, rest, -, hqueue, heq⟩ | ⟨ev, rest, -, hqueue, heq⟩ | ⟨-, -, heq⟩ | ⟨-, -, heq⟩ := hcases
  · rw [heq]
    exact ⟨hchunk, hdone, hchunkType, hdoneType, hflow, hshape, hlate⟩
  · obtain ⟨htyped, hevents⟩ := hchunk.yield hqueue
    rw [heq]
    exact ⟨htyped, hdone, hchunkType, hdoneType, (congrArg (· ++ _) hevents).trans hflow, hshape, hlate⟩
  · obtain ⟨htyped, hevents⟩ := hdone.yield hqueue
    rw [heq]
    exact ⟨hchunk, htyped, hchunkType, hdoneType, hflow, hshape, fun hne => hevents.trans (hlate hne)⟩
  · rw [heq]
    split
    · exact ⟨hchunk, hdone, hchunkType, hdoneType, hflow, hshape, hlate⟩
    · exact ⟨hchunk, hdone, hchunkType, hdoneType, hflow, hshape, hlate⟩
  · rw [heq]
    split
    · exact ⟨hchunk, hdone, hchunkType, hdoneType, hflow, hshape, hlate⟩
    · exact ⟨hchunk, hdone, hchunkType, hdoneType, hflow, hshape, hlate⟩

theorem Flows.step (h : Flows chunks s) (consumer : Consumer C) (input : Input) :
    Flows chunks (Exchange.step consumer s input) := by
  have hsame : ∀ s' : Exchange C, s'.coming = s.coming → s'.chunks = s.chunks → s'.done = s.done → Flows chunks s' := by
    rintro ⟨coming, chunks, done, flushing, turn, consumer⟩ rfl rfl rfl
    exact ⟨h.chunk, h.done, h.chunkType, h.doneType, h.flow, h.shape, h.late⟩
  rw [Exchange.step.eq_def]
  split
  · exact h
  · cases input with
    | event =>
      dsimp only
      split
      · exact h.event
      · exact h
    | flush order =>
      dsimp only
      split
      · exact hsame _ rfl rfl rfl
      · exact h
    | send => exact h.send
    | poll closed => exact h.poll consumer closed
    | timeOut =>
      dsimp only
      split
      · exact hsame _ rfl rfl rfl
      · exact h

/-- Once the terminal event waits for the consumer, the chunks that it has not taken are under way. -/
theorem Flows.split (h : Flows chunks s) (hdone : s.done.channel.queue ≠ []) :
    s.chunks.channel.yielded ++ s.chunks.underway = chunks := by
  have hcoming : s.coming = [] := by
    by_contra hne
    have hnone : s.done.channel.yielded ++ (s.done.channel.queue ++ s.done.sub.queuedEvents) = [] := h.late hne
    rw [List.append_eq_nil_iff, List.append_eq_nil_iff] at hnone
    exact hdone hnone.2.1
  have hflow := h.flow
  rw [hcoming] at hflow
  exact (List.append_nil _).symm.trans hflow

/-- What the consumer has taken are the first chunks of the document. -/
theorem Flows.taken_prefix (h : Flows chunks s) : s.chunks.channel.yielded <+: chunks := by
  refine ⟨s.chunks.underway ++ comingChunks s.coming, ?_⟩
  rw [← List.append_assoc]
  exact h.flow

theorem step_of_ended (consumer : Consumer C) (h : consumer.ended s.consumer = true) (input : Input) :
    Exchange.step consumer s input = s := by
  rw [Exchange.step.eq_def, if_pos h]

/-- The steps of the handler leave the consumer and what it has taken alone. -/
theorem step_of_handler (consumer : Consumer C) {input : Input} (hpoll : ∀ closed, input ≠ .poll closed)
    (htime : input ≠ .timeOut) :
    (Exchange.step consumer s input).consumer = s.consumer ∧ (Exchange.step consumer s input).turn = s.turn ∧
      (Flows chunks s →
        (Exchange.step consumer s input).chunks.channel.yielded = s.chunks.channel.yielded) := by
  rw [Exchange.step.eq_def]
  split
  · exact ⟨rfl, rfl, fun _ => rfl⟩
  · cases input with
    | event =>
      dsimp only
      split
      · rw [Exchange.event]
        split
        · refine ⟨rfl, rfl, fun h => ?_⟩
          rw [Pipe.trySendCustom_of_kind h.chunk.kind]
        · exact ⟨rfl, rfl, fun _ => rfl⟩
        · exact ⟨rfl, rfl, fun _ => rfl⟩
      · exact ⟨rfl, rfl, fun _ => rfl⟩
    | flush order =>
      dsimp only
      split
      · exact ⟨rfl, rfl, fun _ => rfl⟩
      · exact ⟨rfl, rfl, fun _ => rfl⟩
    | send =>
      dsimp only
      rw [Exchange.send]
      split
      · split
        · rename_i hsend
          obtain ⟨-, -, -, -, -, hyielded, -⟩ := Pipe.sendNext_cases hsend
          exact ⟨rfl, rfl, fun _ => hyielded⟩
        · exact ⟨rfl, rfl, fun _ => rfl⟩
      · split
        · exact ⟨rfl, rfl, fun _ => rfl⟩
        · exact ⟨rfl, rfl, fun _ => rfl⟩
      · exact ⟨rfl, rfl, fun _ => rfl⟩
    | poll closed => exact absurd rfl (hpoll closed)
    | timeOut => exact absurd rfl htime

/-- How many polls it takes at most until the terminal event is polled, with no chunk before it. -/
def Turn.left : Turn → Nat
  | .start => 3
  | .chunks => 2
  | .done => 1

/-- Where the terminal event waits, a consumer that keeps polling ends after two polls for each chunk that waits and three more. -/
theorem polls_end (consumer : Consumer C) (hends : ∀ c, consumer.ended (consumer.take c .done) = true)
    (h : Flows chunks s) (hdone : s.done.channel.queue ≠ []) :
    consumer.ended (final (Exchange.step consumer) s
      (List.replicate (2 * s.chunks.channel.queue.length + 3) (.poll false))).consumer = true := by
  have hfixed : ∀ {s : Exchange C} (n : Nat), consumer.ended s.consumer = true →
      consumer.ended (final (Exchange.step consumer) s (List.replicate n (.poll false))).consumer = true := by
    intro s n hended
    induction n with
    | zero => exact hended
    | succ n ih => rwa [List.replicate_succ, final_cons, step_of_ended consumer hended]
  -- how many polls it takes, whatever stream is polled first
  have hcount : ∀ (n : Nat) (s : Exchange C), Flows chunks s → s.done.channel.queue ≠ [] →
      2 * s.chunks.channel.queue.length + s.turn.left ≤ n →
      consumer.ended (final (Exchange.step consumer) s (List.replicate n (.poll false))).consumer = true := by
    intro n
    induction n with
    | zero =>
      intro s _ _ hle
      cases hturn : s.turn <;> rw [hturn, Turn.left] at hle <;> omega
    | succ n ih =>
      intro s hflows hdone hle
      cases hended : consumer.ended s.consumer with
      | true => exact hfixed _ hended
      | false =>
        have hstep : Exchange.step consumer s (.poll false) = Exchange.poll consumer s false := by
          rw [Exchange.step.eq_def, hended]
          rfl
        have hnext := hflows.step consumer (.poll false)
        rw [List.replicate_succ, final_cons]
        rw [hstep] at hnext ⊢
        obtain ⟨hturn, heq⟩ | ⟨ev, rest, hturn, hqueue, heq⟩ | ⟨ev, rest, hturn, hqueue, heq⟩ |
          ⟨hturn, hqueue, heq⟩ | ⟨-, hqueue, -⟩ := poll_cases hflows consumer false
        · rw [heq] at hnext ⊢
          refine ih _ hnext hdone ?_
          rw [hturn] at hle
          dsimp only [Turn.left] at hle ⊢
          omega
        · rw [heq] at hnext ⊢
          refine ih _ hnext hdone ?_
          rw [hturn, hqueue, List.length_cons] at hle
          dsimp only [Turn.left] at hle ⊢
          omega
        · rw [heq]
          exact hfixed n (hends _)
        · rw [heq, if_neg Bool.false_ne_true] at hnext ⊢
          refine ih _ hnext hdone ?_
          rw [hturn, hqueue] at hle
          dsimp only [Turn.left] at hle ⊢
          rw [hqueue]
          omega
        · exact absurd hqueue hdone
  refine hcount _ s h hdone ?_
  cases s.turn <;> rw [Turn.left] <;> omega

/-! ### Properties of a consumer -/

/-- A property of a consumer that only its polls can break, with what is known of it and the guard that its polls have to meet. -/
structure Judged (consumer : Consumer C) (chunks : List Event) (tracks complete : Exchange C → Prop)
    (guard : Exchange C → Input → Prop) : Prop where
  quiet : ∀ s input, (∀ closed, input ≠ .poll closed) → guard s input
  tracks_of_same : ∀ {s s' : Exchange C}, s'.consumer = s.consumer → s'.turn = s.turn →
    s'.chunks.channel.yielded = s.chunks.channel.yielded → tracks s → tracks s'
  complete_of_same : ∀ {s s' : Exchange C}, s'.consumer = s.consumer → complete s → complete s'
  ended : ∀ {s}, tracks s → consumer.ended s.consumer = true → ∀ closed, guard s (.poll closed)
  poll : ∀ {s}, Flows chunks s → tracks s → consumer.ended s.consumer = false → ∀ closed,
    tracks (Exchange.poll consumer s closed) ∧ (complete (Exchange.poll consumer s closed) ↔ guard s (.poll closed))

namespace Judged

variable {consumer : Consumer C} {tracks complete : Exchange C → Prop} {guard : Exchange C → Input → Prop}

theorem step (judged : Judged consumer chunks tracks complete guard) (hflows : Flows chunks s) (htracks : tracks s)
    {input : Input} (htime : input ≠ .timeOut) :
    tracks (Exchange.step consumer s input) ∧
      (complete s → (complete (Exchange.step consumer s input) ↔ guard s input)) := by
  by_cases hpoll : ∃ closed, input = .poll closed
  · obtain ⟨closed, rfl⟩ := hpoll
    cases hended : consumer.ended s.consumer with
    | true =>
      rw [step_of_ended consumer hended]
      exact ⟨htracks, fun hcomplete => iff_of_true hcomplete (judged.ended htracks hended closed)⟩
    | false =>
      obtain ⟨htracks', hiff⟩ := judged.poll hflows htracks hended closed
      rw [Exchange.step.eq_def, hended]
      exact ⟨htracks', fun _ => hiff⟩
  · have hnever : ∀ closed, input ≠ .poll closed := fun closed heq => hpoll ⟨closed, heq⟩
    obtain ⟨hconsumer, hturn, hyielded⟩ := @step_of_handler _ chunks s consumer input hnever htime
    refine ⟨judged.tracks_of_same hconsumer hturn (hyielded hflows) htracks, fun hcomplete => ?_⟩
    exact iff_of_true (judged.complete_of_same hconsumer hcomplete) (judged.quiet s input hnever)

/-- A run without a wait that times out keeps the property just when its polls meet the guard. -/
theorem always_iff {document : List Value}
    (judged : Judged consumer (document.filterMap markdownChunk) tracks complete guard) (first : C) (done : Value)
    (htracks : tracks (.new first document done)) (hcomplete : complete (.new first document done))
    {inputs : List Input} (htime : ∀ input ∈ inputs, input ≠ .timeOut) :
    Always (Exchange.step consumer) complete (.new first document done) inputs ↔
      Allowed (Exchange.step consumer) guard (.new first document done) inputs := by
  refine always_iff_allowed
    (fun s inputs => Flows (document.filterMap markdownChunk) s ∧ tracks s ∧ ∀ input ∈ inputs, input ≠ .timeOut)
    ?_ ?_ ⟨flows_new first document done, htracks, htime⟩ hcomplete
  · rintro s input rest ⟨hflows, htracks, hinputs⟩
    exact ⟨hflows.step _ input, (judged.step hflows htracks (hinputs input List.mem_cons_self)).1,
      fun later hlater => hinputs later (List.mem_cons_of_mem _ hlater)⟩
  · rintro s input rest ⟨hflows, htracks, hinputs⟩ hcomplete
    exact (judged.step hflows htracks (hinputs input List.mem_cons_self)).2 hcomplete

end Judged

end Exchanges

def texts (events : List Event) : List String := events.map chunkOf

/-! ### `content_markdown_streaming` -/

namespace Streaming

variable {byteCap : Nat} {chunks : List Event} {s : Exchange Streaming}

/-- What the function returns, if it returns no error, is the concatenation of all chunks. -/
def Complete (chunks : List Event) (s : Exchange Streaming) : Prop :=
  ∀ returned, s.consumer.result = some (.ok returned) → returned = some (String.join (texts chunks))

/-- The terminal event is not taken while a chunk is under way, unless it is an empty one. -/
def Unhurried (s : Exchange Streaming) : Input → Prop
  | .poll _ => s.turn = .done → s.done.channel.queue ≠ [] → String.join (texts s.chunks.underway) = ""
  | _ => True

instance (s : Exchange Streaming) : DecidablePred (Unhurried s)
  | .poll _ => inferInstanceAs (Decidable (_ → _ → _))
  | .event => .isTrue trivial
  | .flush _ => .isTrue trivial
  | .send => .isTrue trivial
  | .timeOut => .isTrue trivial

/-- What the loop has accumulated. -/
structure Tracks (s : Exchange Streaming) : Prop where
  out : s.consumer.result = none → s.consumer.out = String.join (texts s.chunks.channel.yielded)
  turn : s.turn = .done → s.consumer.result = none

theorem complete_of_running (h : s.consumer.result = none) : Complete chunks s := by
  intro returned hreturned
  rw [h] at hreturned
  cases hreturned

/-- A poll, seen from the loop. -/
theorem poll_spec (hflows : Flows chunks s) (htracks : Tracks s) (hrunning : s.consumer.result = none) (closed : Bool) :
    Tracks (Exchange.poll (consumer byteCap) s closed) ∧
      (Complete chunks (Exchange.poll (consumer byteCap) s closed) ↔ Unhurried s (.poll closed)) := by
  have hout := htracks.out hrunning
  obtain ⟨hturn, heq⟩ | ⟨ev, rest, hturn, hqueue, heq⟩ | ⟨ev, rest, hturn, hqueue, heq⟩ |
    ⟨hturn, -, heq⟩ | ⟨-, hqueue, heq⟩ := poll_cases hflows (consumer byteCap) closed
  · have hguard : Unhurried s (.poll closed) := fun hdone => absurd (hturn.symm.trans hdone) nofun
    rw [heq]
    by_cases hrounds : s.consumer.rounds ≥ maxChunks
    · have hstart : (consumer byteCap).start s.consumer =
          { s.consumer with result := some (.error (.chromeMessage "markdown stream exceeded MAX_CHUNKS")) } :=
        if_pos hrounds
      rw [hstart]
      exact ⟨⟨nofun, nofun⟩, iff_of_true nofun hguard⟩
    · have hstart : (consumer byteCap).start s.consumer = { s.consumer with rounds := s.consumer.rounds + 1 } :=
        if_neg hrounds
      rw [hstart]
      exact ⟨⟨fun _ => hout, nofun⟩, iff_of_true (complete_of_running hrunning) hguard⟩
  · have hguard : Unhurried s (.poll closed) := fun hdone => absurd (hturn.symm.trans hdone) nofun
    rw [heq]
    dsimp only [consumer]
    rw [take]
    split
    · exact ⟨⟨nofun, nofun⟩, iff_of_true nofun hguard⟩
    · refine ⟨⟨fun _ => ?_, nofun⟩, iff_of_true (complete_of_running hrunning) hguard⟩
      dsimp only
      rw [hout, texts, texts, List.map_append, String.join_append]
      simp
  · have hdone : s.done.channel.queue ≠ [] := by rw [hqueue]; exact List.cons_ne_nil ev rest
    rw [heq]
    refine ⟨⟨nofun, nofun⟩, ?_⟩
    have hall : String.join (texts chunks) =
        String.join (texts s.chunks.channel.yielded) ++ String.join (texts s.chunks.underway) := by
      rw [← hflows.split hdone, texts, List.map_append, String.join_append]
      rfl
    constructor
    · intro hcomplete _ _
      have hjoin : some s.consumer.out = some (String.join (texts chunks)) := hcomplete _ rfl
      rw [hall, hout, Option.some.injEq, eq_comm, String.append_eq_left_iff] at hjoin
      exact hjoin
    · intro hguard returned hreturned
      have hreturned : some s.consumer.out = returned := by
        injection hreturned with hreturned
        injection hreturned
      rw [← hreturned, hall, hguard hturn hdone, hout, String.append_empty]
  · have hguard : Unhurried s (.poll closed) := fun hdone => absurd (hturn.symm.trans hdone) nofun
    rw [heq]
    split
    · exact ⟨⟨nofun, nofun⟩, iff_of_true nofun hguard⟩
    · exact ⟨⟨fun _ => hout, fun _ => hrunning⟩, iff_of_true (complete_of_running hrunning) hguard⟩
  · have hguard : Unhurried s (.poll closed) := fun _ hne => absurd hqueue hne
    rw [heq]
    split
    · exact ⟨⟨nofun, nofun⟩, iff_of_true nofun hguard⟩
    · exact ⟨⟨fun _ => hout, nofun⟩, iff_of_true (complete_of_running hrunning) hguard⟩

theorem judged (byteCap : Nat) (chunks : List Event) :
    Judged (consumer byteCap) chunks Tracks (Complete chunks) Unhurried where
  quiet s input hnever := by
    cases input with
    | poll closed => exact absurd rfl (hnever closed)
    | _ => trivial
  tracks_of_same hconsumer hturn hyielded htracks := by
    constructor
    · rw [hconsumer, hyielded]
      exact htracks.out
    · rw [hconsumer, hturn]
      exact htracks.turn
  complete_of_same hconsumer hcomplete := by
    rw [Complete, hconsumer]
    exact hcomplete
  ended htracks hended _ hdone := by
    exact absurd hended (Option.not_isSome_iff_eq_none.2 (htracks.turn hdone))
  poll hflows htracks hended closed := by
    have hrunning := Option.not_isSome_iff_eq_none.1 (Bool.eq_false_iff.1 hended)
    exact poll_spec hflows htracks hrunning closed

theorem complete_iff_unhurried (byteCap : Nat) (document : List Value) (done : Value) {inputs : List Input}
    (htime : ∀ input ∈ inputs, input ≠ .timeOut) :
    Always (Exchange.step (consumer byteCap)) (Complete (document.filterMap markdownChunk))
        (Exchange.new new document done) inputs ↔
      Allowed (Exchange.step (consumer byteCap)) Unhurried (Exchange.new new document done) inputs :=
  (judged byteCap _).always_iff new done ⟨fun _ => rfl, nofun⟩ nofun htime

end Streaming

/-! ### `content_markdown_stream` -/

namespace Pumping

variable {chunks : List Event} {s : Exchange Pumping}

/-- The stream ends cleanly only with all chunks yielded. -/
def Complete (chunks : List Event) (s : Exchange Pumping) : Prop :=
  s.consumer.result = some (.ok ()) → s.consumer.yielded = texts chunks

/-- The terminal event is not taken while a chunk is under way, and the rounds are not used up before the chunks of the document. -/
def Unhurried (chunks : List Event) (s : Exchange Pumping) : Input → Prop
  | .poll _ =>
    (s.turn = .done → s.done.channel.queue ≠ [] → s.chunks.underway = []) ∧
      (s.turn = .start → s.consumer.result = none → s.consumer.rounds ≥ maxChunks → chunks.length ≤ maxChunks)
  | _ => True

/-- What the stream has yielded, in as many rounds. -/
structure Tracks (s : Exchange Pumping) : Prop where
  yielded : s.consumer.yielded = texts s.chunks.channel.yielded
  rounds : s.consumer.rounds = s.chunks.channel.yielded.length
  bounded : s.consumer.rounds ≤ maxChunks
  left : s.turn ≠ .start → s.consumer.result = none → s.consumer.rounds < maxChunks
  turn : s.turn = .done → s.consumer.result = none

theorem tracks_new (document : List Value) (done : Value) : Tracks (Exchange.new new document done) :=
  ⟨rfl, rfl, Nat.zero_le _, nofun, nofun⟩

/-- A poll, seen from the stream. -/
theorem poll_spec (hflows : Flows chunks s) (htracks : Tracks s) (hrunning : s.consumer.result = none) (closed : Bool) :
    Tracks (Exchange.poll consumer s closed) ∧
      (Complete chunks (Exchange.poll consumer s closed) ↔ Unhurried chunks s (.poll closed)) := by
  obtain ⟨hyielded, hrounds, hbounded, hopen, hturn'⟩ := htracks
  have hunfinished : ∀ {s' : Exchange Pumping}, s'.consumer.result ≠ some (.ok ()) → Complete chunks s' :=
    fun hne heq => absurd heq hne
  obtain ⟨hturn, heq⟩ | ⟨ev, rest, hturn, hqueue, heq⟩ | ⟨ev, rest, hturn, hqueue, heq⟩ |
    ⟨hturn, -, heq⟩ | ⟨hturn, hqueue, heq⟩ := poll_cases hflows consumer closed
  · rw [heq]
    dsimp only [consumer]
    rw [start]
    split
    · rename_i hused
      refine ⟨⟨hyielded, hrounds, hbounded, fun _ => nofun, nofun⟩, ?_⟩
      -- as many chunks as there were rounds have been yielded
      obtain ⟨later, hlater⟩ := hflows.taken_prefix
      have hlength := congrArg List.length hlater
      rw [List.length_append] at hlength
      constructor
      · intro hcomplete
        refine ⟨fun hdone => absurd (hturn.symm.trans hdone) nofun, fun _ _ _ => ?_⟩
        have hall := congrArg List.length (hyielded.symm.trans (hcomplete rfl))
        rw [texts, texts, List.length_map, List.length_map] at hall
        omega
      · intro hguard _
        have hfew := hguard.2 hturn hrunning hused
        have hnone : later = [] := List.eq_nil_of_length_eq_zero (by omega)
        rw [hnone, List.append_nil] at hlater
        rw [← hlater]
        exact hyielded
    · rename_i hleft
      refine ⟨⟨hyielded, hrounds, hbounded, fun _ _ => Nat.lt_of_not_le hleft, nofun⟩,
        iff_of_true (hunfinished ?_) ⟨fun hdone => absurd (hturn.symm.trans hdone) nofun,
          fun _ _ hused => absurd hused hleft⟩⟩
      rw [hrunning]
      nofun
  · have hlt : s.consumer.rounds < maxChunks := hopen (by rw [hturn]; nofun) hrunning
    rw [heq]
    refine ⟨⟨?_, ?_, hlt, nofun, nofun⟩, iff_of_true (hunfinished ?_) ?_⟩
    · show s.consumer.yielded ++ [chunkOf ev] = texts (s.chunks.channel.yielded ++ [ev])
      rw [hyielded, texts, texts, List.map_append]
      rfl
    · show s.consumer.rounds + 1 = (s.chunks.channel.yielded ++ [ev]).length
      rw [hrounds, List.length_append]
      rfl
    · show s.consumer.result ≠ _
      rw [hrunning]
      nofun
    · exact ⟨fun hdone => absurd (hturn.symm.trans hdone) nofun, fun hstart => absurd (hturn.symm.trans hstart) nofun⟩
  · have hdone : s.done.channel.queue ≠ [] := by rw [hqueue]; exact List.cons_ne_nil ev rest
    rw [heq]
    refine ⟨⟨hyielded, hrounds, hbounded, nofun, nofun⟩, ?_⟩
    have hsplit := hflows.split hdone
    constructor
    · intro hcomplete
      refine ⟨fun _ _ => ?_, fun hstart => absurd (hturn.symm.trans hstart) nofun⟩
      have hall := congrArg List.length (hyielded.symm.trans (hcomplete rfl))
      have hlength := congrArg List.length hsplit
      rw [List.length_append] at hlength
      rw [texts, texts, List.length_map, List.length_map] at hall
      exact List.eq_nil_of_length_eq_zero (by omega)
    · intro hguard _
      rw [hguard.1 hturn hdone, List.append_nil] at hsplit
      rw [← hsplit]
      exact hyielded
  · have hguard : Unhurried chunks s (.poll closed) :=
      ⟨fun hdone => absurd (hturn.symm.trans hdone) nofun, fun hstart => absurd (hturn.symm.trans hstart) nofun⟩
    rw [heq]
    split
    · exact ⟨⟨hyielded, hrounds, hbounded, nofun, nofun⟩, iff_of_true (hunfinished nofun) hguard⟩
    · refine ⟨⟨hyielded, hrounds, hbounded, fun _ => hopen (by rw [hturn]; nofun), fun _ => hrunning⟩,
        iff_of_true (hunfinished ?_) hguard⟩
      rw [hrunning]
      nofun
  · have hguard : Unhurried chunks s (.poll closed) :=
      ⟨fun _ hne => absurd hqueue hne, fun hstart => absurd (hturn.symm.trans hstart) nofun⟩
    rw [heq]
    split
    · exact ⟨⟨hyielded, hrounds, hbounded, nofun, nofun⟩, iff_of_true (hunfinished nofun) hguard⟩
    · refine ⟨⟨hyielded, hrounds, hbounded, fun _ => hopen (by rw [hturn]; nofun), nofun⟩,
        iff_of_true (hunfinished ?_) hguard⟩
      rw [hrunning]
      nofun

theorem judged (chunks : List Event) : Judged consumer chunks Tracks (Complete chunks) (Unhurried chunks) where
  quiet s input hnever := by
    cases input with
    | poll closed => exact absurd rfl (hnever closed)
    | _ => trivial
  tracks_of_same hconsumer hturn hyielded htracks := by
    constructor
    · rw [hconsumer, hyielded]
      exact htracks.yielded
    · rw [hconsumer, hyielded]
      exact htracks.rounds
    · rw [hconsumer]
      exact htracks.bounded
    · rw [hconsumer, hturn]
      exact htracks.left
    · rw [hconsumer, hturn]
      exact htracks.turn
  complete_of_same hconsumer hcomplete := by
    rw [Complete, hconsumer]
    exact hcomplete
  ended htracks hended _ := by
    refine ⟨fun hdone => ?_, fun _ hnone => ?_⟩
    · exact absurd hended (Option.not_isSome_iff_eq_none.2 (htracks.turn hdone))
    · exact absurd hended (Option.not_isSome_iff_eq_none.2 hnone)
  poll hflows htracks hended closed := by
    have hrunning := Option.not_isSome_iff_eq_none.1 (Bool.eq_false_iff.1 hended)
    exact poll_spec hflows htracks hrunning closed

theorem complete_iff_unhurried (document : List Value) (done : Value) {inputs : List Input}
    (htime : ∀ input ∈ inputs, input ≠ .timeOut) :
    Always (Exchange.step consumer) (Complete (document.filterMap markdownChunk)) (Exchange.new new document done)
        inputs ↔
      Allowed (Exchange.step consumer) (Unhurried (document.filterMap markdownChunk))
        (Exchange.new new document done) inputs :=
  (judged _).always_iff new done (tracks_new document done) nofun htime

end Pumping

/-! ### Both consumers -/

theorem flows_final {C : Type} (consumer : Consumer C) (first : C) (document : List Value) (done : Value)
    (inputs : List Input) :
    Flows (document.filterMap markdownChunk)
      (final (Exchange.step consumer) (Exchange.new first document done) inputs) :=
  invariant_of_step _ (fun _ input h => h.step consumer input) (flows_new first document done) inputs

/-- Without a wait that times out, no chunk is lost in exactly those runs in which the terminal event is taken with no chunk under way, and in which the stream has rounds for all chunks. In every run the stream yields the chunks in order, and a consumer that keeps polling ends once the terminal event waits for it. -/
theorem keeps_chunks_iff (byteCap : Nat) (document : List Value) (done : Value) (inputs : List Input)
    (htime : ∀ input ∈ inputs, input ≠ .timeOut) :
    let chunks := document.filterMap markdownChunk
    let accumulated := final (Exchange.step (Streaming.consumer byteCap)) (.new .new document done) inputs
    let pumped := final (Exchange.step Pumping.consumer) (.new .new document done) inputs
    (Always (Exchange.step (Streaming.consumer byteCap)) (Streaming.Complete chunks) (.new .new document done) inputs ↔
      Allowed (Exchange.step (Streaming.consumer byteCap)) Streaming.Unhurried (.new .new document done) inputs) ∧
    (Always (Exchange.step Pumping.consumer) (Pumping.Complete chunks) (.new .new document done) inputs ↔
      Allowed (Exchange.step Pumping.consumer) (Pumping.Unhurried chunks) (.new .new document done) inputs) ∧
    pumped.consumer.yielded <+: texts chunks ∧
    (accumulated.done.channel.queue ≠ [] →
      (final (Exchange.step (Streaming.consumer byteCap)) accumulated (List.replicate
        (2 * accumulated.chunks.channel.queue.length + 3) (.poll false))).consumer.result.isSome = true) ∧
    (pumped.done.channel.queue ≠ [] →
      (final (Exchange.step Pumping.consumer) pumped (List.replicate
        (2 * pumped.chunks.channel.queue.length + 3) (.poll false))).consumer.result.isSome = true) := by
  intro chunks accumulated pumped
  refine ⟨Streaming.complete_iff_unhurried byteCap document done htime,
    Pumping.complete_iff_unhurried document done htime, ?_, fun hdone => ?_, fun hdone => ?_⟩
  · obtain ⟨hflows, htracks⟩ := invariant (fun s => Flows chunks s ∧ Pumping.Tracks s)
      (fun s input h htime => ⟨h.1.step Pumping.consumer input, ((Pumping.judged chunks).step h.1 h.2 htime).1⟩)
      ⟨flows_new _ document done, Pumping.tracks_new document done⟩ (allowed_of_forall _ htime)
    show pumped.consumer.yielded <+: texts chunks
    rw [htracks.yielded]
    exact hflows.taken_prefix.map chunkOf
  · exact polls_end (Streaming.consumer byteCap) (fun _ => rfl) (flows_final _ _ document done inputs) hdone
  · exact polls_end Pumping.consumer (fun _ => rfl) (flows_final _ _ document done inputs) hdone

/-- A document of one chunk, whose listener is flushed first while the consumer sleeps. -/
theorem keeps_chunks_iff_inOrder :
    Always (Exchange.step (Streaming.consumer 4))
      (Streaming.Complete [⟨"EventMarkdownChunk", .object [("chunk", .string "# A")]⟩])
      (.new .new [.object [("chunk", .string "# A")]] (.object []))
      [.event, .event, .flush [.chunk, .done], .poll false, .poll false, .poll false, .send, .send, .send, .poll false,
        .poll false, .poll false, .poll false] := by
  refine (keeps_chunks_iff 4 [.object [("chunk", .string "# A")]] (.object [])
    [.event, .event, .flush [.chunk, .done], .poll false, .poll false, .poll false, .send, .send, .send, .poll false,
      .poll false, .poll false, .poll false] (by simp)).1.2 ?_
  decide +kernel

/-- The terminal event overtakes the only chunk: the flush visits its listener first, and the consumer polls before the flush goes on. -/
theorem chunk_lost :
    (¬ ∀ (byteCap : Nat) (document : List Value) (done : Value) (inputs : List Input),
      (∀ input ∈ inputs, input ≠ .timeOut) →
      Always (Exchange.step (Streaming.consumer byteCap)) (Streaming.Complete (document.filterMap markdownChunk))
        (.new .new document done) inputs) ∧
    ¬ ∀ (document : List Value) (done : Value) (inputs : List Input), (∀ input ∈ inputs, input ≠ .timeOut) →
      Always (Exchange.step Pumping.consumer) (Pumping.Complete (document.filterMap markdownChunk))
        (.new .new document done) inputs := by
  constructor
  · intro hall
    have hlast := (hall 4 [.object [("chunk", .string "# A")]] (.object [])
      [.event, .event, .flush [.done, .chunk], .send, .poll false, .poll false, .poll false] (by simp)).last
    have hreturned : some "" = some "# A" := hlast _ rfl
    exact absurd hreturned (by decide)
  · intro hall
    have hlast := (hall [.object [("chunk", .string "# A")]] (.object [])
      [.event, .event, .flush [.done, .chunk], .send, .poll false, .poll false, .poll false] (by simp)).last
    have hyielded : [] = ["# A"] := hlast rfl
    cases hyielded

end ContentMarkdown

end SpiderChrome
