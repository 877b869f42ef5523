import Mothra.Rpc

/-!
# The composite behaviour

`Behaviour` of `behaviour/mod.rs`: the gossipsub, RPC and identify sub-behaviours, the peer
manager, the public event queue `events`, the pending-disconnect queue `peers_to_dc`, and the
node's metadata and ping payload, copied from the shared `NetworkGlobals` when the behaviour is
built.

The RPC behaviour is the one of `Mothra.Rpc`. Gossipsub, identify and the peer manager are
collaborators whose code is outside the core: each is the sequence of outputs its `poll` yields
next, and the peer manager also keeps the calls the core made on it. What a collaborator does
with what it is told is left to the environment, which sets the collaborators' next outputs
between polls only (`Call.gossipsubYields`, `Call.identifyYields`, `Call.peerManagerYields` of
`Mothra.Run`). So within one poll the peer manager does not react to the `handle_rpc_error`,
`_disconnecting_peer`, `peer_statusd` and `identify` calls made in that poll, and gossipsub and
identify yield what they had queued when the poll began.

The core's other calls on the peer manager, `addresses_of_peer` and the `table_entries_enr` and
`add_enr` of its discovery, are kept the same way; the addresses and records they answer are the
collaborator's, handed back unchanged, and are left out.
-/

namespace Mothra

/-- The largest identify address list handed to the peer manager. -/
def maxIdentifyAddresses : ℕ := 10

/-! ## Collaborators -/

abbrev GossipsubAction := NBAction GossipsubRpc GossipsubEvent
abbrev IdentifyAction := NBAction IdentifyHandlerEvent IdentifyEvent

/-- The gossipsub engine: the actions its `poll` yields next. -/
structure Gossipsub where
  pending : List GossipsubAction

/-- The identify behaviour: the actions its `poll` yields next. -/
structure Identify where
  pending : List IdentifyAction

/-- The peer manager: the events its stream yields next, and the calls the core made on it. -/
structure PeerManager where
  pending : List PeerManagerEvent
  calls : List PeerManagerCall

namespace PeerManager

/-- `poll_next_unpin`: the next command, or `Pending`. -/
def pollNextUnpin (pm : PeerManager) : Poll (Option PeerManagerEvent) × PeerManager :=
  match pm.pending with
  | [] => (.pending, pm)
  | e :: rest => (.ready (some e), { pm with pending := rest })

/-- A call of the core on the peer manager. -/
def notify (pm : PeerManager) (c : PeerManagerCall) : PeerManager :=
  { pm with calls := pm.calls ++ [c] }

def handleRpcError (pm : PeerManager) (peerId : PeerId) (proto : Protocol) (error : RPCError) :
    PeerManager :=
  pm.notify (.handleRpcError peerId proto error)

def disconnectingPeer (pm : PeerManager) (peerId : PeerId) : PeerManager :=
  pm.notify (.disconnectingPeer peerId)

def peerStatusd (pm : PeerManager) (peerId : PeerId) : PeerManager :=
  pm.notify (.peerStatusd peerId)

def identify (pm : PeerManager) (peerId : PeerId) (info : IdentifyInfo) : PeerManager :=
  pm.notify (.identify peerId info)

def addressesOfPeer (pm : PeerManager) (peerId : PeerId) : PeerManager :=
  pm.notify (.addressesOfPeer peerId)

/-- `discovery_mut().table_entries_enr()`. -/
def tableEntriesEnr (pm : PeerManager) : PeerManager :=
  pm.notify .tableEntriesEnr

/-- `discovery_mut().add_enr(enr)`. -/
def addEnr (pm : PeerManager) (enr : Enr) : PeerManager :=
  pm.notify (.addEnr enr)

@[simp] theorem notify_pending (pm : PeerManager) (c : PeerManagerCall) :
    (pm.notify c).pending = pm.pending := rfl

@[simp] theorem notify_calls (pm : PeerManager) (c : PeerManagerCall) :
    (pm.notify c).calls = pm.calls ++ [c] := rfl

end PeerManager

/-- The fields of `NetworkGlobals` the core reads. -/
structure NetworkGlobals where
  metaData : Bytes
  pingData : Bytes
  deriving DecidableEq

/-! ## The behaviour -/

/-- `Behaviour`. -/
@[ext] structure Behaviour where
  gossipsub : Gossipsub
  mothraRpc : RPC
  identify : Identify
  peerManager : PeerManager
  /-- The events generated by this behaviour to be consumed in the swarm poll. -/
  events : List BehaviourEvent
  /-- Queue of peers to disconnect. -/
  peersToDc : List PeerId
  metaData : Bytes
  pingData : Bytes
  networkGlobals : NetworkGlobals

namespace Behaviour

/-- `Behaviour::new`: fresh sub-behaviours and queues, metadata and ping payload read once from
the globals. -/
def new (networkGlobals : NetworkGlobals) : Behaviour where
  gossipsub := ⟨[]⟩
  mothraRpc := RPC.new
  identify := ⟨[]⟩
  peerManager := ⟨[], []⟩
  events := []
  peersToDc := []
  metaData := networkGlobals.metaData
  pingData := networkGlobals.pingData
  networkGlobals := networkGlobals

variable (b : Behaviour)

/-- `inject_connected`; gossipsub and identify are told too, and react as the environment says. -/
def injectConnected (peerId : PeerId) : Behaviour :=
  { b with mothraRpc := b.mothraRpc.injectConnected peerId }

/-- `inject_event`: route a handler event by its tag. -/
def injectEvent (peerId : PeerId) (connId : ConnectionId) : BehaviourHandlerOut → Behaviour
  | .delegate (.gossipsub _) => b
  | .delegate (.rpc ev) => { b with mothraRpc := b.mothraRpc.injectEvent peerId connId ev }
  | .delegate (.identify _) => b
  | .custom => b

/-! ### Calls passed to the peer manager -/

/-- `addresses_of_peer`: asked of the peer manager. -/
def addressesOfPeer (peerId : PeerId) : Behaviour :=
  { b with peerManager := b.peerManager.addressesOfPeer peerId }

/-- `enr_entries`: asked of the peer manager's discovery. -/
def enrEntries : Behaviour := { b with peerManager := b.peerManager.tableEntriesEnr }

/-- `add_enr`: handed to the peer manager's discovery. -/
def addEnr (enr : Enr) : Behaviour := { b with peerManager := b.peerManager.addEnr enr }

/-! ### RPC sends -/

/-- `send_request`. -/
def sendRequest (peerId : PeerId) (requestId : RequestId) (request : Request) : Behaviour :=
  { b with mothraRpc := b.mothraRpc.sendRequest peerId requestId request.toRPCRequest }

/-- `send_successful_response`. -/
def sendSuccessfulResponse (peerId : PeerId) (id : PeerRequestId) (response : Response) :
    Behaviour :=
  { b with mothraRpc := b.mothraRpc.sendResponse peerId id response.toRPCCodedResponse }

/-- `_send_error_reponse`. -/
def sendErrorReponse (peerId : PeerId) (id : PeerRequestId) (error : RPCResponseErrorCode)
    (reason : String) : Behaviour :=
  { b with mothraRpc := b.mothraRpc.sendResponse peerId id (.fromErrorCode error reason) }

/-- `ping`: a Ping request carrying the behaviour's ping payload. -/
def ping (id : RequestId) (peerId : PeerId) : Behaviour :=
  { b with mothraRpc := b.mothraRpc.sendRequest peerId id (.ping b.pingData) }

/-- `pong`: a Pong response carrying the behaviour's ping payload. -/
def pong (id : PeerRequestId) (peerId : PeerId) : Behaviour :=
  { b with mothraRpc := b.mothraRpc.sendResponse peerId id (.success (.pong b.pingData)) }

/-- `send_meta_data_request`. -/
def sendMetaDataRequest (peerId : PeerId) : Behaviour :=
  { b with mothraRpc := b.mothraRpc.sendRequest peerId .behaviour .metaData }

/-- `send_meta_data_response`: the behaviour's metadata. -/
def sendMetaDataResponse (id : PeerRequestId) (peerId : PeerId) : Behaviour :=
  { b with mothraRpc := b.mothraRpc.sendResponse peerId id (.success (.metaData b.metaData)) }

/-! ### Handlers of the sub-behaviours' events -/

/-- `on_gossip_event`: every message is surfaced; there is no de-duplication here. -/
def onGossipEvent : GossipsubEvent → Behaviour
  | .message propagationSource id gsMsg =>
    { b with events := b.events ++ [.pubsubMessage id propagationSource gsMsg.topics gsMsg.data] }
  | .subscribed peerId topic => { b with events := b.events ++ [.peerSubscribed peerId topic] }
  | .unsubscribed _ _ => b

/-- `propagate_response`: surface a response unless the behaviour asked for it. -/
def propagateResponse (id : RequestId) (peerId : PeerId) (response : Response) : Behaviour :=
  if id = .behaviour then b
  else { b with events := b.events ++ [.responseReceived peerId id response] }

/-- `propagate_request`. -/
def propagateRequest (id : PeerRequestId) (peerId : PeerId) (request : Request) : Behaviour :=
  { b with events := b.events ++ [.requestReceived peerId id request] }

/-- `on_rpc_event`: Ping and MetaData are answered here, a Goodbye queues the peer for
disconnection, Status is surfaced; responses to the behaviour's own requests stay here. -/
def onRpcEvent (message : RPCMessage) : Behaviour :=
  let peerId := message.peerId
  let handlerId := message.connId
  match message.event with
  | .error (.inbound _ proto error) =>
    -- a `HandlerRejected` error cancels the peer's request; there is nothing to cancel yet
    { b with peerManager := b.peerManager.handleRpcError peerId proto error }
  | .error (.outbound id proto error) =>
    let b := { b with peerManager := b.peerManager.handleRpcError peerId proto error }
    if id = .behaviour then b
    else { b with events := b.events ++ [.rpcFailed id peerId error] }
  | .ok (.request id request) =>
    let peerRequestId := (handlerId, id)
    match request with
    | .ping _ => b.pong peerRequestId peerId
    | .metaData => b.sendMetaDataResponse (handlerId, id) peerId
    | .goodbye _ =>
      { b with peerManager := b.peerManager.disconnectingPeer peerId
               peersToDc := b.peersToDc ++ [peerId] }
    | .status msg =>
      let b := { b with peerManager := b.peerManager.peerStatusd peerId }
      b.propagateRequest peerRequestId peerId (.status msg)
  | .ok (.response id resp) =>
    match resp with
    | .pong _ => b
    | .metaData _ => b
    | .status msg =>
      let b := { b with peerManager := b.peerManager.peerStatusd peerId }
      b.propagateResponse id peerId (.status msg)

/-- `on_identify_event`: hand at most `maxIdentifyAddresses` listen addresses to the peer
manager. -/
def onIdentifyEvent : IdentifyEvent → Behaviour
  | .received peerId info _ =>
    let info := if info.listenAddrs.length > maxIdentifyAddresses
      then { info with listenAddrs := info.listenAddrs.take maxIdentifyAddresses } else info
    { b with peerManager := b.peerManager.identify peerId info }
  | .sent _ => b
  | .error _ _ => b

end Behaviour

end Mothra
