import SpiderChrome.Library.Channel
import SpiderChrome.Library.Run

/-!
# Pressing keys

A key is pressed by two commands, which are sent and answered side by side: `try_join!` polls the future of the key that goes down first, and then the two in any order. Each tries to put its command into the channel of the page and waits for a permit when that is full. Whoever else sends to the page, and the handler that drains the channel, may come in between any two of these. The budget of cooperative tasks is taken to be enough, so a future that is polled is polled to the end.
-/

namespace SpiderChrome

namespace Keyboard

/-! ### The events of a key -/

structure KeyDefinition where
  key : String
  keyCode : Int
  code : String
  text : Option String

inductive DispatchKeyEventType where
  | keyDown | keyUp | rawKeyDown | char
deriving DecidableEq

/-- The parameters of `Input.dispatchKeyEvent` that are set for a key. -/
structure DispatchKeyEventParams where
  type : DispatchKeyEventType
  modifiers : Option Int
  text : Option String
  code : String
  key : String
  windowsVirtualKeyCode : Int
  nativeVirtualKeyCode : Int
deriving DecidableEq

def getKeyDefinition (layout : List KeyDefinition) (key : String) : Option KeyDefinition :=
  layout.find? fun definition => definition.key = key

/-- The text of a key and the type of the event when it goes down. -/
def keyText (definition : KeyDefinition) : Option String × DispatchKeyEventType :=
  match definition.text with
  | some text => (some text, .keyDown)
  | none => if definition.key.utf8ByteSize = 1 then (some definition.key, .keyDown) else (none, .rawKeyDown)

def keyEvent (definition : KeyDefinition) (modifiers : Option Int) (type : DispatchKeyEventType) :
    DispatchKeyEventParams where
  type := type
  modifiers := modifiers
  text := (keyText definition).1
  code := definition.code
  key := definition.key
  windowsVirtualKeyCode := definition.keyCode
  nativeVirtualKeyCode := definition.keyCode

/-- Both events have a type, so both builders succeed. -/
def keyDown (definition : KeyDefinition) (modifiers : Option Int) : DispatchKeyEventParams :=
  keyEvent definition modifiers (keyText definition).2

def keyUp (definition : KeyDefinition) (modifiers : Option Int) : DispatchKeyEventParams :=
  keyEvent definition modifiers .keyUp

/-! ### Sending one command -/

/-- The two commands of a key. -/
inductive Half where
  | down | up
deriving DecidableEq

/-- Who waits for a permit: a command of the key, or somebody else. -/
inductive Who where
  | half (half : Half)
  | other (id : Nat)
deriving DecidableEq

inductive Message where
  | key (event : DispatchKeyEventParams)
  | other

abbrev PageChannel := Channel Who Message

/-- How far a command has come: it has found the channel full, waits in line, is in the channel, or is answered. -/
inductive Sending where
  | fresh | full | queued | sent | answered
deriving DecidableEq

namespace Sending

/-- The future has been polled until it had to wait. -/
def isBegun : Sending → Bool
  | fresh | full => false
  | _ => true

def isPlaced : Sending → Bool
  | sent | answered => true
  | _ => false

end Sending

/-- The channel and the command after a step of `send_command`, and whether the command was put into the channel. -/
structure Sent where
  channel : PageChannel
  sending : Sending
  placed : Bool

/-- One step of `send_command`: `try_send`, then the first poll of `send`, then the later ones. -/
def sendCommand (channel : PageChannel) (half : Half) (event : DispatchKeyEventParams) : Sending → Sent
  | .fresh =>
    match channel.trySend (.key event) with
    | some channel => ⟨channel, .sent, true⟩
    | none => ⟨channel, .full, false⟩
  | .full =>
    match channel.trySend (.key event) with
    | some channel => ⟨channel, .sent, true⟩
    | none => ⟨channel.enqueue (.half half), .queued, false⟩
  | .queued =>
    match channel.push (.half half) (.key event) with
    | some channel => ⟨channel, .sent, true⟩
    | none => ⟨channel, .queued, false⟩
  | sending => ⟨channel, sending, false⟩

/-! ### Typing -/

/-- A call of `_press_key` that is under way. -/
structure Press where
  downEvent : DispatchKeyEventParams
  upEvent : DispatchKeyEventParams
  down : Sending
  up : Sending

namespace Press

def event (press : Press) : Half → DispatchKeyEventParams
  | .down => press.downEvent
  | .up => press.upEvent

def sending (press : Press) : Half → Sending
  | .down => press.down
  | .up => press.up

def set (press : Press) (half : Half) (sending : Sending) : Press :=
  match half with
  | .down => { press with down := sending }
  | .up => { press with up := sending }

/-- The first round goes through the futures in order. -/
def mayPoll (press : Press) : Half → Bool
  | .down => !press.down.isBegun || press.up.isBegun
  | .up => press.down.isBegun

end Press

/-- `placed` lists the commands of the keys in the order in which they were put into the channel. -/
structure World where
  channel : PageChannel
  press : Option Press
  /-- The keys after the one that is pressed. -/
  rest : List String
  placed : List DispatchKeyEventParams

inductive Input where
  | poll (half : Half)
  | answer (half : Half)
  /-- The press fails, by a timeout or an error, or is dropped. -/
  | stop
  | recv
  | otherTry
  | otherStart (id : Nat)
  | otherPush (id : Nat)
  | otherLeave (id : Nat)

/-- The press of the first key, and the keys after it. A key that is not found ends the typing. -/
def nextKey (layout : List KeyDefinition) (modifiers : Option Int) : List String → Option Press × List String
  | [] => (none, [])
  | key :: rest =>
    match getKeyDefinition layout key with
    | some definition =>
      (some ⟨keyDown definition modifiers, keyUp definition modifiers, .fresh, .fresh⟩, rest)
    | none => (none, [])

/-- The keys that `type_str` presses. -/
def keysOf (input : String) : List String := input.toList.map String.singleton

namespace World

def start (layout : List KeyDefinition) (modifiers : Option Int) (capacity : Nat) (keys : List String) : World where
  channel := .empty (max capacity 1)
  press := (nextKey layout modifiers keys).1
  rest := (nextKey layout modifiers keys).2
  placed := []

/-- The future of a command is polled. -/
def poll (w : World) (press : Press) (half : Half) : World :=
  let sent := sendCommand w.channel half (press.event half) (press.sending half)
  { w with
    channel := sent.channel
    press := some (press.set half sent.sending)
    placed := if sent.placed then w.placed ++ [press.event half] else w.placed }

/-- A command is answered. The next key is pressed when both are. -/
def answer (layout : List KeyDefinition) (modifiers : Option Int) (w : World) (press : Press) (half : Half) : World :=
  let press := press.set half .answered
  if press.down = .answered ∧ press.up = .answered then
    { w with
      press := (nextKey layout modifiers w.rest).1
      rest := (nextKey layout modifiers w.rest).2 }
  else { w with press := some press }

/-- Somebody else tries to send, and does not wait. -/
def otherTry (w : World) : World :=
  match w.channel.trySend .other with
  | some channel => { w with channel := channel }
  | none => w

/-- Somebody else sends, and waits if need be. -/
def otherStart (w : World) (id : Nat) : World :=
  if Who.other id ∈ w.channel.line then w
  else match w.channel.trySend .other with
    | some channel => { w with channel := channel }
    | none => { w with channel := w.channel.enqueue (.other id) }

def otherPush (w : World) (id : Nat) : World :=
  match w.channel.push (.other id) .other with
  | some channel => { w with channel := channel }
  | none => w

def step (layout : List KeyDefinition) (modifiers : Option Int) (w : World) : Input → World
  | .poll half =>
    match w.press with
    | some press => if press.mayPoll half then w.poll press half else w
    | none => w
  | .answer half =>
    match w.press with
    | some press => if press.sending half = .sent then w.answer layout modifiers press half else w
    | none => w
  | .stop =>
    { w with
      channel := (w.channel.leave (.half .down)).leave (.half .up)
      press := none
      rest := [] }
  | .recv => { w with channel := w.channel.recv }
  | .otherTry => w.otherTry
  | .otherStart id => w.otherStart id
  | .otherPush id => w.otherPush id
  | .otherLeave id => { w with channel := w.channel.leave (.other id) }

end World

/-! ### What is to be typed -/

/-- The commands of the keys in order: each goes down and then up. -/
def script (layout : List KeyDefinition) (modifiers : Option Int) : List String → List DispatchKeyEventParams
  | [] => []
  | key :: rest =>
    match getKeyDefinition layout key with
    | some definition => keyDown definition modifiers :: keyUp definition modifiers :: script layout modifiers rest
    | none => []

/-- What has been put into the channel is the beginning of that. -/
def World.Typed (layout : List KeyDefinition) (modifiers : Option Int) (keys : List String) (w : World) : Prop :=
  w.placed <+: script layout modifiers keys

instance (layout : List KeyDefinition) (modifiers : Option Int) (keys : List String) (w : World) :
    Decidable (w.Typed layout modifiers keys) :=
  inferInstanceAs (Decidable (w.placed <+: script layout modifiers keys))

/-- The channel has room when a key that goes down is tried, or it has a single place. -/
def World.Guard (w : World) : Input → Prop
  | .poll .down => ∀ press ∈ w.press, press.down = .fresh → 0 < w.channel.free ∨ w.channel.capacity ≤ 1
  | _ => True

instance (w : World) : ∀ input, Decidable (w.Guard input)
  | .poll .down =>
    inferInstanceAs (Decidable (∀ press ∈ w.press, press.down = .fresh → 0 < w.channel.free ∨ w.channel.capacity ≤ 1))
  | .poll .up | .answer _ | .stop | .recv | .otherTry | .otherStart _ | .otherPush _ | .otherLeave _ => .isTrue trivial

end Keyboard

end SpiderChrome
