import SpiderChrome.Library.Mailbox
import SpiderChrome.Library.Run
import SpiderChrome.Target.State

/-!
# The futures of a page

Whatever a page asks for is a message in the channel of its target and, mostly, an answer on a oneshot channel, with a deadline on both. `CommandFuture` and `TargetMessageFuture` are written as state machines, `HttpFuture` runs one after the other, and `execute`, `send_msg` and `recv_msg` are async functions whose waits are wrapped in `tokio::time::timeout`. A poll is cut where another thread can come in between: a piece goes on, waits, or is ready. Wherever a piece waits it has left its waker with what it waits for. The budget of cooperative tasks is taken to be enough.
-/

namespace SpiderChrome

/-- The channel on which the answer to a message is sent. -/
def TargetMessage.tx? : TargetMessage → Option Sender
  | command cmd => some cmd.sender
  | mainFrame tx | allFrames tx | url _ tx | name _ tx | parent _ tx | waitForNavigation tx
  | waitForDomContentLoaded tx | waitForLoad tx | waitForNetworkIdle tx | waitForNetworkAlmostIdle tx
  | getExecutionContext _ _ tx => some tx
  | cacheKey _ _ | addEventListener _ | authenticate _ | blockNetwork _ | enableInterception _ => none

/-- The message around another sender, as a closure builds it that is given one. -/
def TargetMessage.withSender (tx : Sender) : TargetMessage → TargetMessage
  | command cmd => command { cmd with sender := tx }
  | mainFrame _ => mainFrame tx
  | allFrames _ => allFrames tx
  | url frameId _ => url frameId tx
  | name frameId _ => name frameId tx
  | parent frameId _ => parent frameId tx
  | waitForNavigation _ => waitForNavigation tx
  | waitForDomContentLoaded _ => waitForDomContentLoaded tx
  | waitForLoad _ => waitForLoad tx
  | waitForNetworkIdle _ => waitForNetworkIdle tx
  | waitForNetworkAlmostIdle _ => waitForNetworkAlmostIdle tx
  | getExecutionContext domWorld frameId _ => getExecutionContext domWorld frameId tx
  | msg => msg

/-- The answers that the channel of a message can carry. -/
def TargetMessage.accepts : TargetMessage → Reply → Bool
  | command _, .response _ => true
  | mainFrame _, .frameId _ | parent _ _, .frameId _ => true
  | allFrames _, .frameIds _ => true
  | url _ _, .text _ | name _ _, .text _ => true
  | waitForNavigation _, .httpRequest _ | waitForDomContentLoaded _, .httpRequest _
  | waitForLoad _, .httpRequest _ | waitForNetworkIdle _, .httpRequest _
  | waitForNetworkAlmostIdle _, .httpRequest _ => true
  | getExecutionContext _ _ _, .executionContext _ => true
  | _, _ => false

namespace Futures

/-- `CdpError`, with the errors of a channel. -/
inductive CallError where
  | cdp (err : CdpError)
  /-- `ChannelError::Send` -/
  | channelSend
  /-- `ChannelError::Canceled` -/
  | canceled

/-- A command, with what it takes to read its answer; `params` is `none` where it cannot be serialized. -/
structure Command (T : Type) where
  method : MethodId
  params : Option Value
  decode : Value → Option T

/-- The receiving half of a oneshot channel. -/
inductive Oneshot where
  | waiting
  | sent (reply : Reply)
  | dropped

abbrev PageMailbox := Mailbox Sender TargetMessage

/-- What a piece of a poll sees. -/
structure Scene where
  now : Instant
  mailbox : PageMailbox
  answers : Sender → Oneshot

/-- Where a future has left its waker. -/
inductive Waker where
  | room (tx : Sender)
  | timer (deadline : Instant)
  | answer (tx : Sender)

/-- What a waker waits for has come. -/
def Scene.ready (s : Scene) : Waker → Bool
  | .room tx => s.mailbox.served tx
  | .timer deadline => deadline ≤ s.now
  | .answer tx =>
    match s.answers tx with
    | .waiting => false
    | _ => true

/-- What a piece of a poll comes to. -/
inductive Piece (F R : Type) where
  | goesOn (mailbox : PageMailbox) (future : F)
  | pending (mailbox : PageMailbox) (future : F) (wakers : List Waker)
  | ready (mailbox : PageMailbox) (result : R)

namespace Piece

variable {F F' R R' : Type}

def map (f : F → F') (r : R → R') : Piece F R → Piece F' R'
  | goesOn mailbox future => goesOn mailbox (f future)
  | pending mailbox future wakers => pending mailbox (f future) wakers
  | ready mailbox result => ready mailbox (r result)

def mailbox : Piece F R → PageMailbox
  | goesOn mailbox _ | pending mailbox _ _ | ready mailbox _ => mailbox

end Piece

/-! ### Delivering a message and waiting for its answer -/

/-- The fields `message` and `send_fut`, of which at most one is set; `queued` says whether the future that sends has been polled. -/
inductive Parcel where
  | message (msg : TargetMessage)
  | sendFut (msg : TargetMessage) (queued : Bool)
  | delivered

/-- What `CommandFuture` and `TargetMessageFuture` have in common. -/
structure Delivery where
  tx : Sender
  parcel : Parcel
  delay : Instant

def Delivery.new (tx : Sender) (msg : TargetMessage) (requestTimeout : Duration) (now : Instant) : Delivery :=
  ⟨tx, .message (msg.withSender tx), now + requestTimeout⟩

def Delivery.poll (s : Scene) (f : Delivery) : Piece Delivery (Except CallError Reply) :=
  match f.parcel with
  | .message msg =>
    match s.mailbox.trySend f.tx msg with
    | .sent mailbox => .goesOn mailbox { f with parcel := .delivered }
    | .full => .goesOn s.mailbox { f with parcel := .sendFut msg false }
    | .closed => .ready s.mailbox (.error .channelSend)
  | .sendFut msg queued =>
    match s.mailbox.pollSend f.tx msg queued with
    | .sent mailbox => .goesOn mailbox { f with parcel := .delivered }
    | .waits mailbox =>
      if f.delay ≤ s.now then .ready mailbox (.error (.cdp .timeout))
      else .pending mailbox { f with parcel := .sendFut msg true } [.room f.tx, .timer f.delay]
    | .closed => .ready s.mailbox (.error .channelSend)
  | .delivered =>
    -- the timer is asked before the answer
    if f.delay ≤ s.now then .ready s.mailbox (.error (.cdp .timeout))
    else match s.answers f.tx with
      | .sent reply => .ready s.mailbox (.ok reply)
      | .dropped => .ready s.mailbox (.error .canceled)
      | .waiting => .pending s.mailbox f [.timer f.delay, .answer f.tx]

/-- `to_command_response`, and the errors before it. Nothing but responses is sent on the channel of a command. -/
def commandResponse {T : Type} (decode : Value → Option T) : Reply → Except CallError T
  | .response (.ok resp) => (toCommandResponse decode resp).mapError .cdp
  | .response (.error err) => .error (.cdp err)
  | _ => .error .canceled

structure CommandFuture (T : Type) where
  delivery : Delivery
  decode : Value → Option T

namespace CommandFuture

variable {T : Type}

def new (cmd : Command T) (tx : Sender) (session : Option SessionId) (requestTimeout : Duration) (now : Instant) :
    Except CallError (CommandFuture T) :=
  match cmd.params with
  | none => .error (.cdp .serde)
  | some params => .ok ⟨.new tx (.command ⟨cmd.method, session, params, tx⟩) requestTimeout now, cmd.decode⟩

def poll (s : Scene) (f : CommandFuture T) : Piece (CommandFuture T) (Except CallError T) :=
  (f.delivery.poll s).map (fun delivery => { f with delivery := delivery })
    fun result => result.bind (commandResponse f.decode)

end CommandFuture

structure TargetMessageFuture where
  delivery : Delivery
  requestTimeout : Duration

namespace TargetMessageFuture

/-- The method `wait`, with the message that the closure builds. -/
def wait (tx : Sender) (msg : TargetMessage) (requestTimeout : Duration) (now : Instant) : TargetMessageFuture :=
  ⟨.new tx msg requestTimeout now, requestTimeout⟩

def waitForNavigation (tx : Sender) : Duration → Instant → TargetMessageFuture := wait tx (.waitForNavigation tx)

def waitForDomContentLoaded (tx : Sender) : Duration → Instant → TargetMessageFuture :=
  wait tx (.waitForDomContentLoaded tx)

def waitForLoad (tx : Sender) : Duration → Instant → TargetMessageFuture := wait tx (.waitForLoad tx)

def waitForNetworkIdle (tx : Sender) : Duration → Instant → TargetMessageFuture := wait tx (.waitForNetworkIdle tx)

def waitForNetworkAlmostIdle (tx : Sender) : Duration → Instant → TargetMessageFuture :=
  wait tx (.waitForNetworkAlmostIdle tx)

def resetDeadline (f : TargetMessageFuture) (now : Instant) : TargetMessageFuture :=
  { f with delivery := { f.delivery with delay := now + f.requestTimeout } }

def poll (s : Scene) (f : TargetMessageFuture) : Piece TargetMessageFuture (Except CallError Reply) :=
  (f.delivery.poll s).map (fun delivery => { f with delivery := delivery }) id

end TargetMessageFuture

/-- The command is `none` once it is terminated. -/
structure HttpFuture (T : Type) where
  command : Option (CommandFuture T)
  navigation : TargetMessageFuture

namespace HttpFuture

variable {T : Type}

def new (command : CommandFuture T) (tx : Sender) (requestTimeout : Duration) (now : Instant) : HttpFuture T :=
  ⟨some command, .waitForNavigation tx requestTimeout now⟩

def poll (s : Scene) (f : HttpFuture T) : Piece (HttpFuture T) (Except CallError Reply) :=
  match f.command with
  | none => (f.navigation.poll s).map (fun navigation => { f with navigation := navigation }) id
  | some command =>
    match command.poll s with
    | .goesOn mailbox command => .goesOn mailbox { f with command := some command }
    | .pending mailbox command wakers => .pending mailbox { f with command := some command } wakers
    | .ready mailbox (.ok _) => .goesOn mailbox ⟨none, f.navigation.resetDeadline s.now⟩
    | .ready mailbox (.error err) => .ready mailbox (.error err)

end HttpFuture

/-! ### The async functions -/

/-- The state of `send_msg` and of `send_command`. -/
inductive Sending where
  | start (msg : TargetMessage)
  | send (msg : TargetMessage) (queued : Bool) (deadline : Instant)

def Sending.poll (requestTimeout : Duration) (tx : Sender) (s : Scene) : Sending → Piece Sending (Except CallError Unit)
  | start msg =>
    match s.mailbox.trySend tx msg with
    | .sent mailbox => .ready mailbox (.ok ())
    | .full => .goesOn s.mailbox (.send msg false (s.now + requestTimeout))
    | .closed => .ready s.mailbox (.error .channelSend)
  | send msg queued deadline =>
    match s.mailbox.pollSend tx msg queued with
    | .sent mailbox => .ready mailbox (.ok ())
    | .waits mailbox =>
      if deadline ≤ s.now then .ready mailbox (.error (.cdp .timeout))
      else .pending mailbox (.send msg true deadline) [.room tx, .timer deadline]
    | .closed => .ready s.mailbox (.error .channelSend)

/-- A message that nothing is expected to come back for. -/
structure Tell where
  tx : Sender
  requestTimeout : Duration
  sending : Sending

def Tell.poll (s : Scene) (f : Tell) : Piece Tell (Except CallError Unit) :=
  (f.sending.poll f.requestTimeout f.tx s).map (fun sending => { f with sending := sending }) id

/-- Sending a message, and then `recv_msg` or the wait of `execute`. -/
inductive ExchangeState where
  | sending (sending : Sending)
  | receiving (deadline : Instant)

structure Exchange where
  tx : Sender
  requestTimeout : Duration
  state : ExchangeState

def Exchange.new (tx : Sender) (msg : TargetMessage) (requestTimeout : Duration) : Exchange :=
  ⟨tx, requestTimeout, .sending (.start (msg.withSender tx))⟩

def Exchange.poll (s : Scene) (f : Exchange) : Piece Exchange (Except CallError Reply) :=
  match f.state with
  | .sending sending =>
    match sending.poll f.requestTimeout f.tx s with
    | .goesOn mailbox sending => .goesOn mailbox { f with state := .sending sending }
    | .pending mailbox sending wakers => .pending mailbox { f with state := .sending sending } wakers
    | .ready mailbox (.ok ()) => .goesOn mailbox { f with state := .receiving (s.now + f.requestTimeout) }
    | .ready mailbox (.error err) => .ready mailbox (.error err)
  | .receiving deadline =>
    -- the answer is asked for before the timer
    match s.answers f.tx with
    | .sent reply => .ready s.mailbox (.ok reply)
    | .dropped => .ready s.mailbox (.error .canceled)
    | .waiting =>
      if deadline ≤ s.now then .ready s.mailbox (.error (.cdp .timeout))
      else .pending s.mailbox f [.answer f.tx, .timer deadline]

/-- A call of `execute`; the error is of the message that could not be built. -/
structure Execute (T : Type) where
  exchange : Except CallError Exchange
  decode : Value → Option T

namespace Execute

variable {T : Type}

def new (cmd : Command T) (tx : Sender) (session : Option SessionId) (requestTimeout : Duration) : Execute T where
  exchange :=
    match cmd.params with
    | none => .error (.cdp .serde)
    | some params => .ok (.new tx (.command ⟨cmd.method, session, params, tx⟩) requestTimeout)
  decode := cmd.decode

def poll (s : Scene) (f : Execute T) : Piece (Execute T) (Except CallError T) :=
  match f.exchange with
  | .error err => .ready s.mailbox (.error err)
  | .ok exchange =>
    (exchange.poll s).map (fun exchange => { f with exchange := .ok exchange })
      fun result => result.bind (commandResponse f.decode)

end Execute

/-! ### Any number of calls -/

inductive Future (T : Type) where
  | command (f : CommandFuture T)
  | wait (f : TargetMessageFuture)
  | http (f : HttpFuture T)
  | execute (f : Execute T)
  /-- `send_msg` and then `recv_msg` -/
  | ask (f : Exchange)
  /-- `send_msg` or `send_command` alone -/
  | tell (f : Tell)

/-- What a call gives back when all goes well. -/
inductive Answer (T : Type) where
  | decoded (value : T)
  | reply (reply : Reply)
  | sent

def Future.poll {T : Type} (s : Scene) : Future T → Piece (Future T) (Except CallError (Answer T))
  | command f => (f.poll s).map .command (Except.map .decoded)
  | wait f => (f.poll s).map .wait (Except.map .reply)
  | http f => (f.poll s).map .http (Except.map .reply)
  | execute f => (f.poll s).map .execute (Except.map .decoded)
  | ask f => (f.poll s).map .ask (Except.map .reply)
  | tell f => (f.poll s).map .tell (Except.map fun _ => .sent)

/-- A call runs while it is polled or is to be polled, and is parked while a poll of it has returned and nobody has woken it. -/
inductive Status (T : Type) where
  | running
  | parked (wakers : List Waker)
  | done (result : Except CallError (Answer T))
  | dropped

structure Call (T : Type) where
  started : Instant
  future : Future T
  status : Status T

/-- The oneshot channels of a call are named by its number: that of its command, or of its only message, and that of its wait for the navigation. -/
def commandTx (id : Nat) : Sender := ⟨2 * id⟩

def navigationTx (id : Nat) : Sender := ⟨2 * id + 1⟩

structure World (T : Type) extends Scene where
  calls : List (Call T)

inductive Input (T : Type) where
  | commandFuture (cmd : Command T) (session : Option SessionId)
  | wait (msg : TargetMessage)
  | httpFuture (cmd : Command T) (session : Option SessionId)
  | execute (cmd : Command T) (session : Option SessionId)
  | ask (msg : TargetMessage)
  | tell (msg : TargetMessage)
  | poll (id : Nat)
  | drop (id : Nat)
  /-- The handler takes a message from the channel. -/
  | recv
  /-- The handler answers a message that it took. -/
  | respond (tx : Sender) (reply : Reply)
  /-- The handler drops the channel of a message that it took. -/
  | forget (tx : Sender)
  /-- The handler drops the receiver of the channel. -/
  | close
  | tick

namespace World

variable {T : Type}

def start (capacity : Nat) : World T where
  now := 0
  mailbox := .empty (max capacity 1)
  answers := fun _ => .waiting
  calls := []

/-- A new call, which nobody has polled. -/
def add (w : World T) (future : Future T) : World T :=
  { w with calls := w.calls ++ [⟨w.now, future, .running⟩] }

def setCall (w : World T) (id : Nat) (future : Future T) (status : Status T) : World T :=
  { w with calls := w.calls.modify id fun call => { call with future := future, status := status } }

/-- What is left of a future is dropped, with its places in line. -/
def leave (w : World T) (id : Nat) : World T :=
  { w with mailbox := (w.mailbox.leave (commandTx id)).leave (navigationTx id) }

/-- The next piece of a poll. A future that is ready is dropped at once, as `await` does. -/
def pollCall (w : World T) (id : Nat) (future : Future T) : World T :=
  match future.poll w.toScene with
  | .goesOn mailbox future => { w with mailbox := mailbox }.setCall id future .running
  | .pending mailbox future wakers => { w with mailbox := mailbox }.setCall id future (.parked wakers)
  | .ready mailbox result => ({ w with mailbox := mailbox }.leave id).setCall id future (.done result)

/-- The handler has taken the message whose answer goes to the channel. -/
def holds (w : World T) (tx : Sender) (fits : TargetMessage → Bool) : Bool :=
  w.mailbox.taken.any fun msg => msg.tx? = some tx && fits msg

def settle (w : World T) (tx : Sender) (answer : Oneshot) : World T :=
  match w.answers tx with
  | .waiting => { w with answers := fun other => if other = tx then answer else w.answers other }
  | _ => w

/-- With the channel go the messages in it, and with these the channels of their answers. -/
def close (w : World T) : World T :=
  { w with
    mailbox := w.mailbox.close
    answers := fun tx =>
      match w.answers tx with
      | .waiting => if w.mailbox.channel.items.any fun msg => msg.tx? = some tx then .dropped else .waiting
      | answer => answer }

def act (requestTimeout : Duration) (w : World T) : Input T → World T
  | .commandFuture cmd session =>
    match CommandFuture.new cmd (commandTx w.calls.length) session requestTimeout w.now with
    | .ok future => w.add (.command future)
    | .error _ => w
  | .wait msg => w.add (.wait (.wait (commandTx w.calls.length) msg requestTimeout w.now))
  | .httpFuture cmd session =>
    match CommandFuture.new cmd (commandTx w.calls.length) session requestTimeout w.now with
    | .ok future => w.add (.http (.new future (navigationTx w.calls.length) requestTimeout w.now))
    | .error _ => w
  | .execute cmd session => w.add (.execute (.new cmd (commandTx w.calls.length) session requestTimeout))
  | .ask msg => w.add (.ask (.new (commandTx w.calls.length) msg requestTimeout))
  | .tell msg =>
    w.add (.tell ⟨commandTx w.calls.length, requestTimeout, .start (msg.withSender (commandTx w.calls.length))⟩)
  | .poll id =>
    match w.calls[id]? with
    | some ⟨_, future, .running⟩ | some ⟨_, future, .parked _⟩ => w.pollCall id future
    | _ => w
  | .drop id =>
    match w.calls[id]? with
    | some ⟨_, future, .running⟩ | some ⟨_, future, .parked _⟩ => (w.leave id).setCall id future .dropped
    | _ => w
  | .recv => { w with mailbox := w.mailbox.recv }
  | .respond tx reply =>
    if w.holds tx fun msg => msg.accepts reply then w.settle tx (.sent reply) else w
  | .forget tx => if w.holds tx fun _ => true then w.settle tx .dropped else w
  | .close => w.close
  | .tick => { w with now := w.now + 1 }

end World

/-- A waker fires when what it waits for comes. -/
def Waker.fires (before after : Scene) (waker : Waker) : Bool := !before.ready waker && after.ready waker

def Call.wake {T : Type} (before after : Scene) (call : Call T) : Call T :=
  match call.status with
  | .parked wakers => if wakers.any (Waker.fires before after) then { call with status := .running } else call
  | _ => call

def World.step {T : Type} (requestTimeout : Duration) (w : World T) (input : Input T) : World T :=
  let after := w.act requestTimeout input
  { after with calls := after.calls.map (Call.wake w.toScene after.toScene) }

end Futures

end SpiderChrome
