import Mathlib.Data.List.Basic

/-!
# The data model of the network behaviour

The identifiers, the wire-level RPC types of `rpc/mod.rs`, the actions a `NetworkBehaviour`
returns to the swarm, the tagged envelopes of the composite handler, the events of the
gossipsub, identify and peer-manager collaborators, and the public `BehaviourEvent` of
`behaviour/mod.rs`.

Peers, connections and substreams are opaque identifiers compared for equality, so they are
`ℕ`; byte payloads (`Vec<u8>`) are `List UInt8`. The codec types whose declarations are not in
the repository (`RPCRequest`, `RPCResponse`, `RequestId`, ...) are modelled from the spec with
the constructors the code matches on.
-/

namespace Mothra

/-- A `Vec<u8>` payload. -/
abbrev Bytes := List UInt8

abbrev PeerId := ℕ
abbrev ConnectionId := ℕ
abbrev SubstreamId := ℕ
abbrev Multiaddr := String
abbrev MessageId := String
abbrev TopicHash := String

/-- An ENR record; the core only passes it on. -/
abbrev Enr := Bytes

/-- `PeerRequestId = (ConnectionId, SubstreamId)`: where the response to an inbound request
goes. -/
abbrev PeerRequestId := ConnectionId × SubstreamId

/-! ## RPC protocol types -/

/-- Modelled from the spec: `RequestId` (declared in the absent `rpc/methods.rs`) is an
application-chosen id, plus the sentinel `Behaviour` for requests the core sends itself. -/
inductive RequestId
  | application (id : ℕ)
  | behaviour
  deriving DecidableEq, Repr

/-- Modelled from the spec: the requests of the absent `rpc/protocol.rs`, with the
constructors `on_rpc_event` classifies. -/
inductive RPCRequest
  | status (msg : Bytes)
  | goodbye (reason : Bytes)
  | ping (data : Bytes)
  | metaData
  deriving DecidableEq, Repr

/-- Modelled from the spec: the responses of the absent `rpc/methods.rs`. -/
inductive RPCResponse
  | status (msg : Bytes)
  | pong (data : Bytes)
  | metaData (data : Bytes)
  deriving DecidableEq, Repr

/-- Modelled from the spec: the response code of an error response, a byte on the wire. -/
structure RPCResponseErrorCode where
  code : UInt8
  deriving DecidableEq, Repr

/-- Modelled from the spec: a response chunk, a success or an error with its code and reason. -/
inductive RPCCodedResponse
  | success (response : RPCResponse)
  | error (code : RPCResponseErrorCode) (reason : String)
  deriving DecidableEq, Repr

/-- `RPCCodedResponse::from_error_code`. -/
def RPCCodedResponse.fromErrorCode (code : RPCResponseErrorCode) (reason : String) :
    RPCCodedResponse :=
  .error code reason

/-- Modelled from the spec: the error kinds of a stream; the core tells only
`HandlerRejected` apart. -/
inductive RPCError
  | handlerRejected
  | streamTimeout
  | other (reason : String)
  deriving DecidableEq, Repr

/-- Modelled from the spec: the protocol a stream speaks. -/
inductive Protocol
  | status
  | goodbye
  | ping
  | metaData
  deriving DecidableEq, Repr

/-- Modelled from the spec: `HandlerErr`, a failed inbound or outbound stream. -/
inductive HandlerErr
  | inbound (id : SubstreamId) (proto : Protocol) (error : RPCError)
  | outbound (id : RequestId) (proto : Protocol) (error : RPCError)
  deriving DecidableEq, Repr

/-- `RPCSend`: what the behaviour asks a connection handler to send. -/
inductive RPCSend
  | request (id : RequestId) (request : RPCRequest)
  | response (id : SubstreamId) (response : RPCCodedResponse)
  deriving DecidableEq, Repr

/-- `RPCReceived`: what a connection handler received. -/
inductive RPCReceived
  | request (id : SubstreamId) (request : RPCRequest)
  | response (id : RequestId) (response : RPCResponse)
  deriving DecidableEq, Repr

instance decEqExcept {ε α : Type} [DecidableEq ε] [DecidableEq α] : DecidableEq (Except ε α)
  | .error a, .error b => decidable_of_iff (a = b) ⟨congrArg _, Except.error.inj⟩
  | .ok a, .ok b => decidable_of_iff (a = b) ⟨congrArg _, Except.ok.inj⟩
  | .error _, .ok _ => isFalse Except.noConfusion
  | .ok _, .error _ => isFalse Except.noConfusion

/-- The out-event of the RPC handler, `Result<RPCReceived, HandlerErr>`. -/
abbrev RPCHandlerOut := Except HandlerErr RPCReceived

/-- `RPCMessage`: a handler's outcome, with the peer and connection it came from. -/
structure RPCMessage where
  peerId : PeerId
  connId : ConnectionId
  event : RPCHandlerOut
  deriving DecidableEq

/-! ## Swarm actions -/

/-- `NotifyHandler`: which connections of a peer an event goes to. -/
inductive NotifyHandler
  | one (connId : ConnectionId)
  | any
  | all
  deriving DecidableEq, Repr

inductive DialPeerCondition
  | disconnected
  | notDialing
  | always
  deriving DecidableEq, Repr

/-- `NetworkBehaviourAction`: what a behaviour's `poll` hands to the swarm. -/
inductive NBAction (InEvent OutEvent : Type)
  | generateEvent (event : OutEvent)
  | dialAddress (address : Multiaddr)
  | dialPeer (peerId : PeerId) (condition : DialPeerCondition)
  | notifyHandler (peerId : PeerId) (handler : NotifyHandler) (event : InEvent)
  | reportObservedAddr (address : Multiaddr)
  deriving DecidableEq

/-- `std::task::Poll`. -/
inductive Poll (α : Type)
  | ready (value : α)
  | pending
  deriving DecidableEq

/-! ## Gossipsub and identify -/

/-- The gossipsub handler's messages; the core never looks inside them. -/
structure GossipsubRpc where
  payload : Bytes
  deriving DecidableEq, Repr

/-- A received gossipsub message, with the fields the core reads. -/
structure GossipsubMessage where
  data : Bytes
  topics : List TopicHash
  deriving DecidableEq, Repr

inductive GossipsubEvent
  | message (propagationSource : PeerId) (id : MessageId) (gsMsg : GossipsubMessage)
  | subscribed (peerId : PeerId) (topic : TopicHash)
  | unsubscribed (peerId : PeerId) (topic : TopicHash)
  deriving DecidableEq, Repr

/-- What a peer told us about itself over identify. -/
structure IdentifyInfo where
  protocolVersion : String
  agentVersion : String
  listenAddrs : List Multiaddr
  protocols : List String
  deriving DecidableEq, Repr

inductive IdentifyEvent
  | received (peerId : PeerId) (info : IdentifyInfo) (observedAddr : Multiaddr)
  | sent (peerId : PeerId)
  | error (peerId : PeerId) (error : String)
  deriving DecidableEq, Repr

/-- The identify handler's in- and out-events; the core never looks inside them. -/
structure IdentifyHandlerEvent where
  payload : Bytes
  deriving DecidableEq, Repr

/-! ## The composite handler's envelopes -/

/-- Modelled from the spec: `DelegateIn` of the absent `behaviour/handler.rs`, an event for one
sub-handler, tagged with the sub-handler. -/
inductive DelegateIn
  | gossipsub (event : GossipsubRpc)
  | rpc (event : RPCSend)
  | identify (event : IdentifyHandlerEvent)
  deriving DecidableEq, Repr

/-- Modelled from the spec: `DelegateOut` of the absent `behaviour/handler.rs`, an event from
one sub-handler, tagged with the sub-handler. -/
inductive DelegateOut
  | gossipsub (event : GossipsubRpc)
  | rpc (event : RPCHandlerOut)
  | identify (event : IdentifyHandlerEvent)
  deriving DecidableEq

/-- Modelled from the spec: `BehaviourHandlerIn` of the absent `behaviour/handler.rs`, a
delegated event, or a shutdown with an optional last request. -/
inductive BehaviourHandlerIn
  | delegate (event : DelegateIn)
  | shutdown (last : Option (RequestId × RPCRequest))
  deriving DecidableEq, Repr

/-- Modelled from the spec: `BehaviourHandlerOut` of the absent `behaviour/handler.rs`, a
delegated event, or a custom event of the handler itself. -/
inductive BehaviourHandlerOut
  | delegate (event : DelegateOut)
  | custom
  deriving DecidableEq

/-! ## The peer manager -/

/-- `PeerManagerEvent`: the commands the peer manager's stream yields. -/
inductive PeerManagerEvent
  | dial (peerId : PeerId)
  | socketUpdated (address : Multiaddr)
  | status (peerId : PeerId)
  | ping (peerId : PeerId)
  | metaData (peerId : PeerId)
  | disconnectPeer (peerId : PeerId)
  deriving DecidableEq, Repr

/-- The calls the core makes on the peer manager, the last two on its discovery. -/
inductive PeerManagerCall
  | handleRpcError (peerId : PeerId) (proto : Protocol) (error : RPCError)
  | disconnectingPeer (peerId : PeerId)
  | peerStatusd (peerId : PeerId)
  | identify (peerId : PeerId) (info : IdentifyInfo)
  | addressesOfPeer (peerId : PeerId)
  | tableEntriesEnr
  | addEnr (enr : Enr)
  deriving DecidableEq, Repr

/-! ## The public API types -/

/-- `Request`: the requests that cross the core's boundary. -/
inductive Request
  | status (msg : Bytes)
  | goodbye (reason : Bytes)
  deriving DecidableEq, Repr

/-- `Response`: the responses that cross the core's boundary. -/
inductive Response
  | status (msg : Bytes)
  deriving DecidableEq, Repr

/-- `impl From<Request> for RPCRequest`. -/
def Request.toRPCRequest : Request → RPCRequest
  | .goodbye r => .goodbye r
  | .status s => .status s

/-- `impl From<Response> for RPCCodedResponse`. -/
def Response.toRPCCodedResponse : Response → RPCCodedResponse
  | .status s => .success (.status s)

/-- `BehaviourEvent`: what the composite hands to the embedder. -/
inductive BehaviourEvent
  | rpcFailed (id : RequestId) (peerId : PeerId) (error : RPCError)
  | requestReceived (peerId : PeerId) (id : PeerRequestId) (request : Request)
  | responseReceived (peerId : PeerId) (id : RequestId) (response : Response)
  | pubsubMessage (id : MessageId) (source : PeerId) (topics : List TopicHash) (message : Bytes)
  | peerSubscribed (peerId : PeerId) (topic : TopicHash)
  | statusPeer (peerId : PeerId)
  deriving DecidableEq, Repr

/-- The actions the composite returns to the swarm. -/
abbrev Action := NBAction BehaviourHandlerIn BehaviourEvent

end Mothra
