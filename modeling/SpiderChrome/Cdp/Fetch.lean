import SpiderChrome.Network.Http

/-!
# Fetch and network messages

The events of the `Fetch` and `Network` domains that the network manager handles, and the commands it queues in return.
-/

namespace SpiderChrome

inductive ResourceType where
  | document | stylesheet | image | media | font | script | textTrack | xhr | fetch | prefetch
  | eventSource | webSocket | manifest | signedExchange | ping | cspViolationReport | preflight
  | fedCm | other
deriving DecidableEq

/-- The name of the resource type in the protocol. -/
def ResourceType.asRef : ResourceType → String
  | document => "Document"
  | stylesheet => "Stylesheet"
  | image => "Image"
  | media => "Media"
  | font => "Font"
  | script => "Script"
  | textTrack => "TextTrack"
  | xhr => "XHR"
  | fetch => "Fetch"
  | prefetch => "Prefetch"
  | eventSource => "EventSource"
  | webSocket => "WebSocket"
  | manifest => "Manifest"
  | signedExchange => "SignedExchange"
  | ping => "Ping"
  | cspViolationReport => "CSPViolationReport"
  | preflight => "Preflight"
  | fedCm => "FedCM"
  | other => "Other"

inductive InitiatorType where
  | parser | script | preload | signedExchange | preflight | fedCm | other
deriving DecidableEq

namespace Network

structure Request where
  url : String
  method : String
  isSameSite : Option Bool

end Network

namespace Fetch

structure RequestId where
  inner : String
deriving DecidableEq, Repr

/-- The id under which the network domain knows a paused request. -/
def RequestId.toInterceptionId (id : RequestId) : Network.InterceptionId := ⟨id.inner⟩

end Fetch

structure EventRequestPaused where
  requestId : Fetch.RequestId
  request : Network.Request
  resourceType : ResourceType
  networkId : Option Network.RequestId
  redirectedRequestId : Option Fetch.RequestId

structure EventRequestWillBeSent where
  requestId : Network.RequestId
  request : Network.Request
  frameId : Option FrameId
  redirectResponse : Option Network.Response
  type : Option ResourceType
  initiatorType : InitiatorType

/-- `encodedDataLength` is after its cast to a `u64`. -/
structure EventResponseReceived where
  requestId : Network.RequestId
  response : Network.Response
  encodedDataLength : UInt64

structure EventLoadingFailed where
  requestId : Network.RequestId
  errorText : String

structure Credentials where
  username : String
  password : String

/-- How an authentication challenge is answered. -/
inductive AuthChallengeResponseResponse where
  | default | cancelAuth | provideCredentials
deriving DecidableEq

/-- The commands that the network manager queues. `failRequest` gives the reason `BlockedByClient`, the body of `fulfillRequest` is the one before the base64 encoding, and `fetchEnable` is `ENABLE_FETCH`. -/
inductive NetworkCommand where
  | fetchEnable
  | fetchDisable
  | failRequest (requestId : Fetch.RequestId)
  | fulfillRequest (requestId : Fetch.RequestId) (responseCode : Int) (body : Option (List UInt8))
      (responseHeaders : Option (List (String × String)))
  | continueRequest (requestId : Fetch.RequestId) (url : Option String)
      (interceptResponse : Option Bool)
  | continueWithAuth (requestId : Fetch.RequestId) (response : AuthChallengeResponseResponse)
      (credentials : Option Credentials)
  | stopLoading
  | setCacheDisabled (cacheDisabled : Bool)
  | setBypassServiceWorker (bypass : Bool)
  | setExtraHttpHeaders (headers : List (String × String))
  | setPolicy (params : Value)

inductive NetworkEvent where
  | sendCdpRequest (command : NetworkCommand)
  | request (id : Network.RequestId)
  | response (id : Network.RequestId)
  | requestFailed (request : HttpRequest)
  | requestFinished (request : HttpRequest)
  | bytesConsumed (bytes : UInt64)

end SpiderChrome
