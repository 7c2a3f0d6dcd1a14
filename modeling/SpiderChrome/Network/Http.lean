import SpiderChrome.Cdp.Page

/-!
# Tracked requests

The record the network manager keeps for a request, and the parts of the `Network` domain it is built from.
-/

namespace SpiderChrome

namespace Network

structure RequestId where
  inner : String
deriving DecidableEq, Repr

structure InterceptionId where
  inner : String
deriving DecidableEq, Repr

/-- The `Network.Response` record; the headers are the JSON object of the protocol. -/
structure Response where
  url : String
  status : Int
  headers : Value

end Network

open Network

structure HttpRequest where
  requestId : RequestId
  fromMemoryCache : Bool
  failureText : Option String
  interceptionId : Option InterceptionId
  response : Option Network.Response
  frame : Option FrameId
  allowInterception : Bool
  method : Option String
  url : Option String
  redirectChain : List HttpRequest
  createdAt : Instant

namespace HttpRequest

/-- `createdAt` is the reading of the clock at the call. -/
def new (requestId : RequestId) (frame : Option FrameId) (interceptionId : Option InterceptionId)
    (allowInterception : Bool) (redirectChain : List HttpRequest) (now : Instant) :
    HttpRequest where
  requestId := requestId
  fromMemoryCache := false
  failureText := none
  interceptionId := interceptionId
  response := none
  frame := frame
  allowInterception := allowInterception
  method := none
  url := none
  redirectChain := redirectChain
  createdAt := now

def setResponse (request : HttpRequest) (response : Network.Response) : HttpRequest :=
  { request with response := some response }

end HttpRequest

end SpiderChrome
