import SpiderChrome.Cdp.Command
import SpiderChrome.Library.Run
import SpiderChrome.Library.Table

/-!
# Event listeners

Who listens to the events of the browser, as `listeners.rs` has it. An event is queued for each listener of its method and handed to the listener's channel when the queues are flushed; at the other end of the channel is a stream of one type of events. The channels are a table beside the listeners. What was sent on a channel, and by which registration, and what its stream has yielded are kept in records, which no function reads.
-/

namespace SpiderChrome

/-- An event with the type that it has in the program. -/
structure Event where
  type : String
  value : Value

/-- The kind of a listener; a custom one brings the conversion of JSON values into its events, `none` where it fails. -/
inductive EventKind where
  | builtIn
  | custom (convert : Value → Option Event)

namespace EventKind

def isCustom : EventKind → Bool
  | custom _ => true
  | builtIn => false

def converter : EventKind → Option (Value → Option Event)
  | custom convert => some convert
  | builtIn => none

end EventKind

structure ChannelId where
  val : Nat
deriving DecidableEq

/-! ### Channels -/

/-- A channel of events with the stream at its end, which is of one type. -/
structure EventChannel where
  type : String
  queue : List Event
  dropped : Bool
  sent : List (Nat × Event)
  yielded : List Event

namespace EventChannel

def new (type : String) : EventChannel := ⟨type, [], false, [], []⟩

def maxWrongTypePerPoll : Nat := 32

/-- The loop of `poll_next`, with the turns that it has left. `closed` tells that all senders of the channel are gone. -/
def pollWith (closed : Bool) : Nat → EventChannel → EventChannel × Poll (Option Event)
  | 0, ch => (ch, .pending)
  | turns + 1, ch =>
    match ch.queue with
    | event :: rest =>
      if event.type = ch.type then
        ({ ch with queue := rest, yielded := ch.yielded ++ [event] }, .ready (some event))
      else pollWith closed turns { ch with queue := rest }
    | [] => (ch, if closed then .ready none else .pending)

def pollNext (ch : EventChannel) (closed : Bool) : EventChannel × Poll (Option Event) :=
  ch.pollWith closed maxWrongTypePerPoll

/-- `UnboundedSender::send`, which fails when the receiver is dropped. -/
def send (ch : EventChannel) (registration : Nat) (event : Event) : Option EventChannel :=
  if ch.dropped then none
  else some { ch with queue := ch.queue ++ [event], sent := ch.sent ++ [(registration, event)] }

end EventChannel

/-- The channels of the program. -/
abbrev Channels : Type := Table ChannelId EventChannel

def sendEvent (channels : Channels) (id : ChannelId) (registration : Nat) (event : Event) : Option Channels :=
  match channels.get id with
  | some ch => (ch.send registration event).map (channels.set id)
  | none => none

/-! ### Listeners -/

structure EventListenerRequest where
  listener : ChannelId
  method : MethodId
  kind : EventKind

structure EventListenerHandle where
  method : MethodId
  id : Nat
deriving DecidableEq

/-- A listener. Its registration numbers the listeners, for the records. -/
structure EventListener where
  id : Nat
  listener : ChannelId
  queuedEvents : List Event
  kind : EventKind
  registration : Nat

namespace EventListener

def startSend (sub : EventListener) (event : Event) : EventListener :=
  { sub with queuedEvents := sub.queuedEvents ++ [event] }

/-- One turn of the loop in `flush`, with an event from the queue. -/
def sendNext (sub : EventListener) (channels : Channels) (event : Event) :
    Option Channels :=
  sendEvent channels sub.listener sub.registration event

/-- The loop in `flush`. It tells whether the receiver took all events. -/
def sendAll (sub : EventListener) : List Event → Channels → Channels × Bool
  | [], channels => (channels, true)
  | event :: rest, channels =>
    match sub.sendNext channels event with
    | some channels => sub.sendAll rest channels
    | none => (channels, false)

/-- Send what is queued. A listener whose receiver is dropped is gone. -/
def flush (sub : EventListener) (channels : Channels) :
    Channels × Option EventListener :=
  match sub.sendAll sub.queuedEvents channels with
  | (channels, true) => (channels, some { sub with queuedEvents := [] })
  | (channels, false) => (channels, none)

end EventListener

/-- The listeners of each method, with the counter of their ids, which all the program shares, and the channels. -/
structure EventListeners where
  listeners : Table MethodId (List EventListener)
  nextListenerId : Nat
  channels : Channels
  registered : Nat

namespace EventListeners

def empty : EventListeners := ⟨∅, 1, ∅, 0⟩

/-- The listeners of a method. -/
def subs (s : EventListeners) (method : MethodId) : List EventListener := (s.listeners.get method).getD []

def addListener (s : EventListeners) (req : EventListenerRequest) : EventListeners × EventListenerHandle :=
  let id := s.nextListenerId
  ({ s with
     nextListenerId := wrappingSucc id
     listeners := s.listeners.set req.method (s.subs req.method ++ [⟨id, req.listener, [], req.kind, s.registered⟩])
     registered := s.registered + 1 }, ⟨req.method, id⟩)

def removeListener (s : EventListeners) (handle : EventListenerHandle) : EventListeners :=
  match s.listeners.get handle.method with
  | some subs =>
    let subs := subs.filter fun sub => sub.id ≠ handle.id
    { s with listeners :=
        if subs.isEmpty then s.listeners.remove handle.method else s.listeners.set handle.method subs }
  | none => s

def removeAllForMethod (s : EventListeners) (method : MethodId) : EventListeners :=
  { s with listeners := s.listeners.remove method }

/-- Queue an event for every listener of its method. -/
def startSend (s : EventListeners) (method : MethodId) (event : Event) : EventListeners :=
  { s with listeners := s.listeners.update method fun subs => subs.map fun sub => sub.startSend event }

/-- The conversion of the first custom listener. -/
def firstConverter (subs : List EventListener) : Option (Value → Option Event) :=
  subs.findSome? fun sub => sub.kind.converter

/-- Convert a value once, as the first custom listener has it, and queue it for every custom listener. -/
def trySendCustom (s : EventListeners) (method : MethodId) (val : Value) : EventListeners :=
  match s.listeners.get method with
  | some subs =>
    match firstConverter subs with
    | some convert =>
      match convert val with
      | some event =>
        let subs := subs.map fun sub => if sub.kind.isCustom then sub.startSend event else sub
        { s with listeners := s.listeners.set method subs }
      | none => s
    | none => s
  | none => s

/-- Flush the listeners of a method, one after another, and keep those that are not gone. -/
def flushSubs : List EventListener → Channels → Channels × List EventListener
  | [], channels => (channels, [])
  | sub :: rest, channels =>
    match sub.flush channels with
    | (channels, some sub) =>
      let (channels, subs) := flushSubs rest channels
      (channels, sub :: subs)
    | (channels, none) => flushSubs rest channels

/-- One turn of the loop in `flush`, which also notes whether a listener was gone. -/
def flushMethod : EventListeners × Bool → MethodId → EventListeners × Bool
  | (s, anyDisconnected), method =>
    match s.listeners.get method with
    | some subs =>
      let (channels, left) := flushSubs subs s.channels
      ({ s with listeners := s.listeners.set method left, channels := channels },
        anyDisconnected || left.length != subs.length)
    | none => (s, anyDisconnected)

/-- The methods `poll` and `flush`, which do the same. The order in which the methods come is that of a hash map. -/
def flush (s : EventListeners) (order : List MethodId) : EventListeners :=
  let (flushed, anyDisconnected) := order.foldl flushMethod (s, false)
  if anyDisconnected then { flushed with listeners := flushed.listeners.retain fun _ subs => !subs.isEmpty }
  else flushed

end EventListeners

/-- What happens to the listeners and their channels. A channel is opened with the stream at its end; other parts of the program take ids from the counter; a flush goes through the methods in some order. -/
inductive ListenersInput where
  | openChannel (id : ChannelId) (type : String)
  | takeId
  | addListener (req : EventListenerRequest)
  | removeListener (handle : EventListenerHandle)
  | removeAllForMethod (method : MethodId)
  | startSend (method : MethodId) (event : Event)
  | trySendCustom (method : MethodId) (val : Value)
  | flush (order : List MethodId)
  | pollStream (id : ChannelId) (closed : Bool)
  | dropReceiver (id : ChannelId)

namespace EventListeners

def step (s : EventListeners) : ListenersInput → EventListeners
  | .openChannel id type =>
    if (s.channels.get id).isSome then s else { s with channels := s.channels.set id (.new type) }
  | .takeId => { s with nextListenerId := wrappingSucc s.nextListenerId }
  | .addListener req => (s.addListener req).1
  | .removeListener handle => s.removeListener handle
  | .removeAllForMethod method => s.removeAllForMethod method
  | .startSend method event => s.startSend method event
  | .trySendCustom method val => s.trySendCustom method val
  | .flush order => if order.Perm s.listeners.keys then s.flush order else s
  | .pollStream id closed => { s with channels := s.channels.update id fun ch => (ch.pollNext closed).1 }
  | .dropReceiver id => { s with channels := s.channels.update id fun ch => { ch with dropped := true } }

end EventListeners

end SpiderChrome
