import SpiderChrome.Listeners.State

/-!
# Streamed Markdown

The two consumers of a streamed `Content.getMarkdown` answer, as `content_markdown.rs` has them, from the acknowledgement on: the engine pushes chunks and then a terminal event, the handler queues each for the listener of its method and flushes the listeners, and the consumer waits on two event streams at once. The handler and the consumer run on threads of their own, so a flush is taken apart into the single events that it sends, and a wait into the polls of the two streams.
-/

namespace SpiderChrome

namespace ContentMarkdown

/-! ### Events -/

/-- The conversion of `EventMarkdownChunk`: an object whose `chunk`, where it has one, is a string. -/
def markdownChunk (val : Value) : Option Event :=
  if val.isObject then
    match val.field? "chunk" with
    | none => some ⟨"EventMarkdownChunk", val⟩
    | some (.string _) => some ⟨"EventMarkdownChunk", val⟩
    | some _ => none
  else none

/-- The conversion of `EventMarkdownDone`. -/
def markdownDone (val : Value) : Option Event := if val.isObject then some ⟨"EventMarkdownDone", val⟩ else none

/-- The `chunk` of an event, which is empty by default. -/
def chunkOf (ev : Event) : String := ((ev.value.field? "chunk").bind Value.asStr).getD ""

/-- What a wait on the two streams ends with. -/
inductive StreamStep where
  | chunk (chunk : String)
  | done
  | closed
  | timedOut

def channelClosed : CdpError :=
  .chromeMessage "markdown stream: event channel closed before Content.markdownDone"

def maxChunks : Nat := 262144

/-! ### Consumers -/

/-- A consumer waits for one step after another. At the start of a round it may give up. -/
structure Consumer (C : Type) where
  start : C → C
  take : C → StreamStep → C
  ended : C → Bool

/-- The variables of `content_markdown_streaming`, with what it has returned. -/
structure Streaming where
  out : String
  gotAny : Bool
  rounds : Nat
  result : Option (Except CdpError (Option String))

namespace Streaming

def new : Streaming := ⟨"", false, 0, none⟩

/-- The start of a turn of the loop. -/
def start (s : Streaming) : Streaming :=
  if s.rounds ≥ maxChunks then
    { s with result := some (.error (.chromeMessage "markdown stream exceeded MAX_CHUNKS")) }
  else { s with rounds := s.rounds + 1 }

/-- `usize::saturating_add`. -/
def saturatingAdd (a b : Nat) : Nat := min (a + b) (2 ^ 64 - 1)

def take (byteCap : Nat) (s : Streaming) : StreamStep → Streaming
  | .chunk chunk =>
    let total := saturatingAdd s.out.utf8ByteSize chunk.utf8ByteSize
    if total > byteCap then
      { s with
        gotAny := true
        result := some (.error (.chromeMessage
          s!"markdown stream: accumulated bytes exceeded cap ({total} > {byteCap})")) }
    else { s with gotAny := true, out := s.out ++ chunk }
  | .done => { s with result := some (.ok (some s.out)) }
  | .closed =>
    { s with result := some (.error channelClosed) }
  | .timedOut => { s with result := some (if s.gotAny then .error .timeout else .ok none) }

def consumer (byteCap : Nat) : Consumer Streaming := ⟨start, take byteCap, fun s => s.result.isSome⟩

end Streaming

/-- The state of the stream of `content_markdown_stream`, with what it has yielded and how it ended. -/
structure Pumping where
  gotAny : Bool
  rounds : Nat
  yielded : List String
  result : Option (Except CdpError Unit)

namespace Pumping

def new : Pumping := ⟨false, 0, [], none⟩

/-- The start of `pump_next`. -/
def start (s : Pumping) : Pumping := if s.rounds ≥ maxChunks then { s with result := some (.ok ()) } else s

/-- The rest of `pump_next`. -/
def take (s : Pumping) : StreamStep → Pumping
  | .chunk chunk => { s with yielded := s.yielded ++ [chunk], gotAny := true, rounds := s.rounds + 1 }
  | .done => { s with result := some (.ok ()) }
  | .closed =>
    { s with result := some (.error channelClosed) }
  | .timedOut =>
    { s with result := some (.error (if s.gotAny then .timeout
        else .chromeMessage ("Content.getMarkdown: no stream events before timeout — the engine " ++
          "likely does not support streamed Markdown; fall back to Page::content " ++
          "and convert locally"))) }

def consumer : Consumer Pumping := ⟨start, take, fun s => s.result.isSome⟩

end Pumping

/-! ### The exchange -/

/-- The two kinds of events. -/
inductive Side where
  | chunk
  | done
deriving DecidableEq

/-- A listener with its channel. -/
structure Pipe where
  sub : EventListener
  channel : EventChannel

namespace Pipe

/-- `try_send_custom` with one listener. -/
def trySendCustom (pipe : Pipe) (val : Value) : Pipe :=
  match pipe.sub.kind.converter.bind fun convert => convert val with
  | some event => { pipe with sub := pipe.sub.startSend event }
  | none => pipe

/-- One turn of the loop in `EventListener::flush`, unless the queue is empty. -/
def sendNext (pipe : Pipe) : Option Pipe :=
  match pipe.sub.queuedEvents with
  | event :: rest =>
    (pipe.channel.send pipe.sub.registration event).map fun channel =>
      { sub := { pipe.sub with queuedEvents := rest }, channel := channel }
  | [] => none

end Pipe

/-- What the consumer does next: start a round, or poll one of the two streams. -/
inductive Turn where
  | start
  | chunks
  | done
deriving DecidableEq

/-- The engine with the events that are still to come, the handler with its two listeners and those of them that a flush under way has still to visit, and the consumer. -/
structure Exchange (C : Type) where
  coming : List (Side × Value)
  chunks : Pipe
  done : Pipe
  flushing : List Side
  turn : Turn
  consumer : C

inductive Input where
  | event
  | flush (order : List Side)
  | send
  | poll (closed : Bool)
  | timeOut

namespace Exchange

variable {C : Type}

/-- The engine has the chunks of a document to push, and then the terminal event; the consumer has registered its listeners. -/
def new (consumer : C) (document : List Value) (done : Value) : Exchange C where
  coming := document.map (fun val => (.chunk, val)) ++ [(.done, done)]
  chunks := ⟨⟨1, ⟨0⟩, [], .custom markdownChunk, 0⟩, .new "EventMarkdownChunk"⟩
  done := ⟨⟨2, ⟨1⟩, [], .custom markdownDone, 1⟩, .new "EventMarkdownDone"⟩
  flushing := []
  turn := .start
  consumer := consumer

/-- The handler gets the next event. -/
def event (s : Exchange C) : Exchange C :=
  match s.coming with
  | (.chunk, val) :: rest => { s with coming := rest, chunks := s.chunks.trySendCustom val }
  | (.done, val) :: rest => { s with coming := rest, done := s.done.trySendCustom val }
  | [] => s

/-- The flush under way sends an event, or goes on to the next listener. -/
def send (s : Exchange C) : Exchange C :=
  match s.flushing with
  | .chunk :: rest =>
    match s.chunks.sendNext with
    | some pipe => { s with chunks := pipe }
    | none => { s with flushing := rest }
  | .done :: rest =>
    match s.done.sendNext with
    | some pipe => { s with done := pipe }
    | none => { s with flushing := rest }
  | [] => s

/-- The wait ends. -/
def take (consumer : Consumer C) (s : Exchange C) (step : StreamStep) : Exchange C :=
  { s with turn := .start, consumer := consumer.take s.consumer step }

/-- The consumer goes on. The chunk side is polled first; when both streams are pending, it sleeps until it polls them again. -/
def poll (consumer : Consumer C) (s : Exchange C) (closed : Bool) : Exchange C :=
  match s.turn with
  | .start => { s with turn := .chunks, consumer := consumer.start s.consumer }
  | .chunks =>
    let (channel, polled) := s.chunks.channel.pollNext closed
    let s := { s with chunks := { s.chunks with channel := channel } }
    match polled with
    | .ready (some ev) => s.take consumer (.chunk (chunkOf ev))
    | .ready none => s.take consumer .closed
    | .pending => { s with turn := .done }
  | .done =>
    let (channel, polled) := s.done.channel.pollNext closed
    let s := { s with done := { s.done with channel := channel } }
    match polled with
    | .ready (some _) => s.take consumer .done
    | .ready none => s.take consumer .closed
    | .pending => { s with turn := .chunks }

/-- Nothing matters once the consumer has ended: it has dropped its streams. The handler takes the next event or starts a flush only when no flush is under way. -/
def step (consumer : Consumer C) (s : Exchange C) (input : Input) : Exchange C :=
  if consumer.ended s.consumer then s
  else
    match input with
    | .event => if s.flushing = [] then s.event else s
    | .flush order => if s.flushing = [] ∧ order.Perm [.chunk, .done] then { s with flushing := order } else s
    | .send => s.send
    | .poll closed => poll consumer s closed
    | .timeOut => if s.turn = .chunks then s.take consumer .timedOut else s

end Exchange

end ContentMarkdown

end SpiderChrome
