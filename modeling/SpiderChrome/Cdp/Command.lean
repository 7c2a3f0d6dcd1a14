import SpiderChrome.Cdp.Page
import Mathlib.Algebra.GroupWithZero.Nat

/-!
# Commands and responses

What a command is on its way to the browser, what comes back, and the chains of commands that a target is initialised with. A oneshot channel is the name of its sending half: to send on it is to record the name with what was sent.
-/

namespace SpiderChrome

/-- What a poll of a future comes to. -/
inductive Poll (A : Type) where
  | ready (a : A)
  | pending

/-- `u64::wrapping_add` and its like on a counter of 64 bits. -/
def wrappingSucc (n : Nat) : Nat := (n + 1) % 2 ^ 64

structure CallId where
  val : Nat
deriving DecidableEq, Repr

structure SessionId where
  inner : String
deriving DecidableEq, Repr

structure TargetId where
  inner : String
deriving DecidableEq, Repr

structure BrowserContextId where
  inner : String
deriving DecidableEq, Repr

/-- The `Target.TargetInfo` record, with the fields that the handler reads. -/
structure TargetInfo where
  targetId : TargetId
  type : String
  openerId : Option TargetId
  browserContextId : Option BrowserContextId

/-- A request that was given a call id. -/
structure MethodCall where
  id : CallId
  method : MethodId
  sessionId : Option String
  params : Value

def MethodCall.request (call : MethodCall) : Request := ⟨call.method, call.sessionId, call.params⟩

structure ResponseError where
  code : Int
  message : String

structure Response where
  id : CallId
  result : Option Value
  error : Option ResponseError

/-- The errors that the handler hands to its callers. -/
inductive CdpError where
  | serde
  | chrome (error : ResponseError)
  | noResponse
  | timeout
  | tooManyNavigations (count : UInt32)
  | frameNotFound (frame : FrameId)
  | chromeMessage (message : String)
  | notFound

/-- The answers of the browser in the types that are generated from the protocol; `none` where a value is not of the type. -/
structure Decoders where
  createTarget : Value → Option TargetId
  attachToTarget : Value → Option SessionId
  getTargets : Value → Option (List TargetInfo)
  getFrameTree : Value → Option FrameTree

/-- `to_command_response`, with the decoder of the command's answer. -/
def toCommandResponse {T : Type} (decode : Value → Option T) (resp : Response) : Except CdpError T :=
  match resp.result, resp.error with
  | some result, _ =>
    match decode result with
    | some answer => .ok answer
    | none => .error .serde
  | none, some error => .error (.chrome error)
  | none, none => .error .noResponse

/-- The sending half of a oneshot channel. -/
structure Sender where
  id : Nat
deriving DecidableEq, Repr

/-- A command that a page or the browser handle sends, with the channel for its answer. -/
structure CommandMessage where
  method : MethodId
  sessionId : Option SessionId
  params : Value
  sender : Sender

namespace CommandMessage

def isNavigation (msg : CommandMessage) : Bool := msg.method = "Page.navigate"

def split (msg : CommandMessage) : Request × Sender :=
  (⟨msg.method, msg.sessionId.map SessionId.inner, msg.params⟩, msg.sender)

end CommandMessage

/-! ### Chains -/

structure CommandChain where
  cmds : List (MethodId × Value)
  waiting : Option (MethodId × Instant)
  timeout : Duration

/-- What a chain answers to a poll. -/
inductive NextCommand where
  | pending
  | done
  | command (method : MethodId) (params : Value)
  | deadlineExceeded (now deadline : Instant)

namespace CommandChain

def new (cmds : List (MethodId × Value)) (timeout : Duration) : CommandChain where
  cmds := cmds
  waiting := none
  timeout := timeout

def receivedResponse (chain : CommandChain) (identifier : MethodId) : CommandChain :=
  if chain.waiting.map Prod.fst = some identifier then { chain with waiting := none } else chain

def poll (chain : CommandChain) (now : Instant) : CommandChain × NextCommand :=
  match chain.waiting with
  | some (_, deadline) =>
    if deadline < now then (chain, .deadlineExceeded now deadline) else (chain, .pending)
  | none =>
    match chain.cmds with
    | (method, params) :: rest =>
      ({ chain with cmds := rest, waiting := some (method, now + chain.timeout) },
        .command method params)
    | [] => (chain, .done)

end CommandChain

end SpiderChrome
