import SpiderChrome.Cdp.Command
import SpiderChrome.Library.Run

/-!
# The connection

The websocket to the browser, as `conn.rs` has it before it is split: what a frame comes to, how commands are written, and the stream that skips what is not a message. The messages are of any type, and what reads one from the bytes of a frame is a parameter.
-/

namespace SpiderChrome

/-! ### Frames -/

inductive WsMessage where
  | text (text : String)
  | binary (buf : List UInt8)
  | ping (payload : List UInt8)
  | pong (payload : List UInt8)
  | close
  | frame
deriving DecidableEq

inductive ProtocolError where
  | resetWithoutClosingHandshake
  | other (detail : String)
deriving DecidableEq

/-- The errors of the websocket. -/
inductive WsError where
  | connectionClosed
  | alreadyClosed
  | protocol (detail : ProtocolError)
  | other (detail : String)
deriving DecidableEq

/-- What the websocket yields before its end. -/
abbrev WsItem := Except WsError WsMessage

/-- The errors of the connection: those of the websocket, of reading or writing JSON, and of a decode whose task did not come to its end. -/
inductive ConnectionError where
  | ws (err : WsError)
  | serde
  | join
deriving DecidableEq

def wireBytes (text : String) : List UInt8 := text.toUTF8.data.toList

/-- Whether a byte position is one between two characters, or at an end. -/
def isCharBoundary : List Char → Nat → Bool
  | _, 0 => true
  | [], _ + 1 => false
  | c :: rest, n + 1 => if c.utf8Size ≤ n + 1 then isCharBoundary rest (n + 1 - c.utf8Size) else false

/-- The preview of a text that is not a message, of 512 bytes at most; `none` where it would end within a character. -/
def preview (text : String) : Option Nat :=
  let length := min text.utf8ByteSize 512
  if isCharBoundary text.toList length then some length else none

section

variable {M : Type} (parse : List UInt8 → Option M)

/-- The function `decode_message`; `none` where it panics. -/
def decodeMessage (bytes : List UInt8) (rawTextForLogging : Option String) : Option (Except ConnectionError M) :=
  match parse bytes with
  | some msg => some (.ok msg)
  | none =>
    match rawTextForLogging with
    | some text =>
      match preview text with
      | some _ => some (.error .serde)
      | none => none
    | none => some (.error .serde)

end

/-! ### Commands -/

/-- What the websocket's sink does while a connection is polled: with the flush that was left, with the commands that it is ready for, one after another, and with the flush of these. -/
structure SinkEnv where
  leftFlush : Poll (Except WsError Unit)
  sends : List (Except ConnectionError Unit)
  flush : Poll (Except WsError Unit)

/-- The connection, with what the websocket will still yield and a record of the commands that the sink took. -/
structure Connection where
  pendingCommands : List MethodCall
  items : List WsItem
  nextId : Nat
  needsFlush : Bool
  fed : List MethodCall

namespace Connection

def new (items : List WsItem) : Connection where
  pendingCommands := []
  items := items
  nextId := 0
  needsFlush := false
  fed := []

def submitCommand (c : Connection) (req : Request) : Connection × CallId :=
  ({ c with
     nextId := wrappingSucc c.nextId
     pendingCommands := c.pendingCommands ++ [⟨⟨c.nextId⟩, req.method, req.sessionId, req.params⟩] }, ⟨c.nextId⟩)

/-- Buffer as many commands as the sink accepts. The flag says whether it accepted any. -/
def feed (c : Connection) (sentAny : Bool) : List (Except ConnectionError Unit) → Connection × Except ConnectionError Bool
  | [] => (c, .ok sentAny)
  | sent :: rest =>
    match c.pendingCommands with
    | [] => (c, .ok sentAny)
    | cmd :: commands =>
      match sent with
      | .ok () => feed { c with pendingCommands := commands, fed := c.fed ++ [cmd] } true rest
      | .error err => ({ c with pendingCommands := commands }, .error err)

/-- Buffer the commands and flush them once. -/
def feedAndFlush (c : Connection) (env : SinkEnv) : Connection × Option ConnectionError :=
  match c.feed false env.sends with
  | (c, .error err) => (c, some err)
  | (c, .ok false) => (c, none)
  | (c, .ok true) =>
    match env.flush with
    | .ready (.ok ()) => (c, none)
    | .ready (.error err) => (c, some (.ws err))
    | .pending => ({ c with needsFlush := true }, none)

def startSendNext (c : Connection) (env : SinkEnv) : Connection × Option ConnectionError :=
  if c.needsFlush then
    match env.leftFlush with
    | .ready (.ok ()) => { c with needsFlush := false }.feedAndFlush env
    | .ready (.error err) => (c, some (.ws err))
    | .pending => (c, none)
  else c.feedAndFlush env

/-! ### The stream -/

/-- What a poll of the stream comes to. -/
inductive Polled (M : Type) where
  | item (res : Except ConnectionError M)
  | done
  | pending
  | panicked

/-- What a frame comes to: a message, the end of the stream, or nothing. -/
inductive Received (M : Type) where
  | message (msg : M)
  | closed
  | skipped
  | panicked

section

variable {M : Type} (parse : List UInt8 → Option M)

def receive : WsMessage → Received M
  | .text text =>
    match decodeMessage parse (wireBytes text) (some text) with
    | some (.ok msg) => .message msg
    | some (.error _) => .skipped
    | none => .panicked
  | .binary buf =>
    match decodeMessage parse buf none with
    | some (.ok msg) => .message msg
    | some (.error _) => .skipped
    | none => .panicked
  | .close => .closed
  | .ping _ | .pong _ => .skipped
  | .frame => .skipped

def maxSkipsPerPoll : Nat := 16

/-- Read the websocket until a frame is a message, while as many items are there. -/
def readSkipping (available skips : Nat) : List WsItem → List WsItem × Polled M
  | [] => ([], if available = 0 then .pending else .done)
  | item :: rest =>
    match available with
    | 0 => (item :: rest, .pending)
    | available + 1 =>
      match item with
      | .error err => (rest, .item (.error (.ws err)))
      | .ok msg =>
        match receive parse msg with
        | .message msg => (rest, .item (.ok msg))
        | .closed => (rest, .done)
        | .panicked => (rest, .panicked)
        | .skipped => if skips + 1 ≥ maxSkipsPerPoll then (rest, .pending) else readSkipping available (skips + 1) rest

def pollNext (c : Connection) (env : SinkEnv) (available : Nat) : Connection × Polled M :=
  match c.startSendNext env with
  | (c, some err) => (c, .item (.error err))
  | (c, none) =>
    let (items, polled) := readSkipping parse available 0 c.items
    ({ c with items := items }, polled)

end

end Connection

end SpiderChrome
