import SpiderChrome.Connection.Stream
import SpiderChrome.Library.Pipeline

/-!
# The reader task

The task that reads the websocket once the connection is split, as `ws_read_loop` has it. Small frames are decoded in the loop, large ones on other threads, which finish in any order. The task sends to a bounded channel, whose other half is the handler's; while the channel is full it waits.
-/

namespace SpiderChrome

def maxInFlightDecodes : Nat := 32

/-- 256 KiB, from which on a frame is decoded on another thread. -/
def largeFrameThreshold : Nat := 256 * 1024

def wsReadChannelCapacity : Nat := 1024

/-- Where the task is: in its `select!`, waiting for room for a message, waiting for room for the error of the websocket at its end, or gone. -/
inductive ReaderPhase (M : Type) where
  | selecting
  | emitting (msg : M)
  | failing (err : ConnectionError)
  | ended
  | panicked

instance {M : Type} (phase : ReaderPhase M) : Decidable (phase = .ended) :=
  match phase with
  | .ended => .isTrue rfl
  | .selecting | .emitting _ | .failing _ | .panicked => .isFalse nofun

/-- The task, with what the websocket will still yield, its channel, and what the handler has taken from it. -/
structure Reader (M : Type) where
  items : List WsItem
  inFlight : Pipeline (Except ConnectionError M)
  streamTerminated : Bool
  pendingErr : Option ConnectionError
  phase : ReaderPhase M
  channel : List (Except ConnectionError M)
  received : List (Except ConnectionError M)
  receiverDropped : Bool

/-- What happens to the task: a decode on another thread finishes, it is polled, the handler takes a message, or drops its half of the channel. -/
inductive ReaderInput where
  | finish (place : Nat)
  | poll (available : Bool)
  | receive
  | dropReceiver

namespace Reader

variable {M : Type}

def start (items : List WsItem) : Reader M where
  items := items
  inFlight := .empty
  streamTerminated := false
  pendingErr := none
  phase := .selecting
  channel := []
  received := []
  receiverDropped := false

/-- All that was sent to the channel. -/
def sent (s : Reader M) : List (Except ConnectionError M) := s.received ++ s.channel

section

variable (parse : List UInt8 → Option M)

/-- A decode on another thread, which yields an error if it panics. -/
def decodeBlocking (bytes : List UInt8) : Job (Except ConnectionError M) :=
  match decodeMessage parse bytes none with
  | some res => ⟨res, false⟩
  | none => ⟨.error .join, false⟩

/-- Enqueue the decode of a frame. -/
def enqueue (s : Reader M) (bytes : List UInt8) (length : Nat) (rawTextForLogging : Option String) : Reader M :=
  if length ≥ largeFrameThreshold then { s with inFlight := s.inFlight.submit (decodeBlocking parse bytes) }
  else
    match decodeMessage parse bytes rawTextForLogging with
    | some res => { s with inFlight := s.inFlight.submit ⟨res, true⟩ }
    | none => { s with phase := .panicked }

/-- Take the next item of the websocket. -/
def readItem (s : Reader M) : Reader M :=
  match s.items with
  | .ok (.text text) :: rest => { s with items := rest }.enqueue parse (wireBytes text) text.utf8ByteSize (some text)
  | .ok (.binary buf) :: rest => { s with items := rest }.enqueue parse buf buf.length none
  | .ok .close :: rest => { s with items := rest, streamTerminated := true }
  | .ok (.ping _) :: rest | .ok (.pong _) :: rest => { s with items := rest }
  | .ok .frame :: rest => { s with items := rest }
  | .error err :: rest => { s with items := rest, streamTerminated := true, pendingErr := some (.ws err) }
  | [] => { s with streamTerminated := true }

/-- One turn of the `select!`, which is biased: a result that is ready comes first. -/
def select (s : Reader M) (available : Bool) : Reader M :=
  match s.inFlight.next with
  | some (.ok msg, inFlight) => { s with inFlight := inFlight, phase := .emitting msg }
  | some (.error _, inFlight) => { s with inFlight := inFlight }
  | none =>
    if !s.streamTerminated && decide (s.inFlight.size < maxInFlightDecodes) then
      if available then s.readItem parse else s
    else if s.inFlight.size = 0 then
      match s.pendingErr with
      | some err => { s with phase := .failing err }
      | none => { s with phase := .ended }
    else s

def poll (s : Reader M) (available : Bool) : Reader M :=
  match s.phase with
  | .selecting => s.select parse available
  | .emitting msg =>
    if s.receiverDropped then { s with phase := .ended }
    else if s.channel.length < wsReadChannelCapacity then
      { s with channel := s.channel ++ [.ok msg], phase := .selecting }
    else s
  | .failing err =>
    if s.receiverDropped then { s with phase := .ended }
    else if s.channel.length < wsReadChannelCapacity then
      { s with channel := s.channel ++ [.error err], phase := .ended }
    else s
  | .ended => s
  | .panicked => s

def step (s : Reader M) (input : ReaderInput) : Reader M :=
  match input with
  | .finish place => { s with inFlight := s.inFlight.finish place }
  | .poll available => s.poll parse available
  | .receive =>
    if s.receiverDropped then s
    else match s.channel with
      | res :: rest => { s with channel := rest, received := s.received ++ [res] }
      | [] => s
  | .dropReceiver => { s with receiverDropped := true }

end

end Reader

end SpiderChrome
