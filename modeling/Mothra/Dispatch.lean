import Mothra.Behaviour

/-!
# What the handlers of sub-behaviour events do

`on_rpc_event` touches four parts of the state: the RPC queue (local replies), the public
event queue, the pending-disconnect queue and the peer manager (its calls). Each is appended
to, by a list that depends only on the message and, for the replies, on the behaviour's
metadata and ping payload:

* `rpcReplies`: a Pong for a Ping request, the metadata for a MetaData request, both to the
  connection and substream of the request;
* `rpcEvents`: `RequestReceived` for a Status request, `ResponseReceived` for a Status
  response and `RPCFailed` for an outbound error, the last two unless the id is the sentinel;
* `rpcDisconnects`: the peer of a Goodbye request;
* `rpcCalls`: `handle_rpc_error` for every error, `_disconnecting_peer` for a Goodbye,
  `peer_statusd` for a Status request or response.

`onRpcEvent_exact` says that this is all `on_rpc_event` does. The gossip and identify
handlers are described the same way.
-/

namespace Mothra

/-! ## The effects, message by message -/

/-- The local replies queued for a message. -/
def rpcReplies (pingData metaData : Bytes) (m : RPCMessage) : List RPCAction :=
  match m.event with
  | .ok (.request id (.ping _)) =>
    [.notifyHandler m.peerId (.one m.connId) (.response id (.success (.pong pingData)))]
  | .ok (.request id .metaData) =>
    [.notifyHandler m.peerId (.one m.connId) (.response id (.success (.metaData metaData)))]
  | _ => []

/-- The public events appended for a message. -/
def rpcEvents (m : RPCMessage) : List BehaviourEvent :=
  match m.event with
  | .error (.outbound id _ error) => if id = .behaviour then [] else [.rpcFailed id m.peerId error]
  | .ok (.request id (.status msg)) => [.requestReceived m.peerId (m.connId, id) (.status msg)]
  | .ok (.response id (.status msg)) =>
    if id = .behaviour then [] else [.responseReceived m.peerId id (.status msg)]
  | _ => []

/-- The peers queued for disconnection for a message. -/
def rpcDisconnects (m : RPCMessage) : List PeerId :=
  match m.event with
  | .ok (.request _ (.goodbye _)) => [m.peerId]
  | _ => []

/-- The calls made on the peer manager for a message. -/
def rpcCalls (m : RPCMessage) : List PeerManagerCall :=
  match m.event with
  | .error (.inbound _ proto error) => [.handleRpcError m.peerId proto error]
  | .error (.outbound _ proto error) => [.handleRpcError m.peerId proto error]
  | .ok (.request _ (.goodbye _)) => [.disconnectingPeer m.peerId]
  | .ok (.request _ (.status _)) => [.peerStatusd m.peerId]
  | .ok (.response _ (.status _)) => [.peerStatusd m.peerId]
  | _ => []

@[simp] theorem generated_rpcReplies (pingData metaData : Bytes) (m : RPCMessage) :
    generated (rpcReplies pingData metaData m) = [] := by
  unfold rpcReplies; split <;> rfl

namespace Behaviour

variable (b : Behaviour) (m : RPCMessage)

/-! ## `on_rpc_event` -/

/-- What `on_rpc_event` does to each part of the state: it appends `rpcReplies`, `rpcEvents`,
`rpcDisconnects` and `rpcCalls` to the RPC queue, the public events, the pending disconnections
and the peer manager's calls, and leaves the other parts alone. -/
theorem onRpcEvent_fields :
    (b.onRpcEvent m).mothraRpc = ⟨b.mothraRpc.events ++ rpcReplies b.pingData b.metaData m⟩ ∧
      (b.onRpcEvent m).events = b.events ++ rpcEvents m ∧
      (b.onRpcEvent m).peersToDc = b.peersToDc ++ rpcDisconnects m ∧
      (b.onRpcEvent m).peerManager =
        { b.peerManager with calls := b.peerManager.calls ++ rpcCalls m } ∧
      (b.onRpcEvent m).gossipsub = b.gossipsub ∧ (b.onRpcEvent m).identify = b.identify ∧
      (b.onRpcEvent m).pingData = b.pingData ∧ (b.onRpcEvent m).metaData = b.metaData ∧
      (b.onRpcEvent m).networkGlobals = b.networkGlobals := by
  obtain ⟨p, c, (⟨_, _, _⟩ | ⟨i, _, _⟩) | ⟨_, (_ | _ | _ | _)⟩ | ⟨i, (_ | _ | _)⟩⟩ := m
    <;>
    (try cases i) <;>
    simp [onRpcEvent, rpcReplies, rpcEvents, rpcDisconnects, rpcCalls, propagateResponse,
      propagateRequest, pong, sendMetaDataResponse, RPC.sendResponse, PeerManager.handleRpcError,
      PeerManager.disconnectingPeer, PeerManager.peerStatusd, PeerManager.notify]

@[simp] theorem onRpcEvent_mothraRpc :
    (b.onRpcEvent m).mothraRpc = ⟨b.mothraRpc.events ++ rpcReplies b.pingData b.metaData m⟩ := by
  simp only [onRpcEvent_fields]

@[simp] theorem onRpcEvent_events : (b.onRpcEvent m).events = b.events ++ rpcEvents m := by
  simp only [onRpcEvent_fields]

@[simp] theorem onRpcEvent_peersToDc :
    (b.onRpcEvent m).peersToDc = b.peersToDc ++ rpcDisconnects m := by
  simp only [onRpcEvent_fields]

@[simp] theorem onRpcEvent_peerManager : (b.onRpcEvent m).peerManager =
    { b.peerManager with calls := b.peerManager.calls ++ rpcCalls m } := by
  simp only [onRpcEvent_fields]

@[simp] theorem onRpcEvent_gossipsub : (b.onRpcEvent m).gossipsub = b.gossipsub := by
  simp only [onRpcEvent_fields]

@[simp] theorem onRpcEvent_identify : (b.onRpcEvent m).identify = b.identify := by
  simp only [onRpcEvent_fields]

@[simp] theorem onRpcEvent_pingData : (b.onRpcEvent m).pingData = b.pingData := by
  simp only [onRpcEvent_fields]

@[simp] theorem onRpcEvent_metaData : (b.onRpcEvent m).metaData = b.metaData := by
  simp only [onRpcEvent_fields]

@[simp] theorem onRpcEvent_networkGlobals :
    (b.onRpcEvent m).networkGlobals = b.networkGlobals := by
  simp only [onRpcEvent_fields]

/-- The whole effect of `on_rpc_event`: it appends `rpcReplies`, `rpcEvents`, `rpcDisconnects`
and `rpcCalls` to the RPC queue, the public events, the pending disconnections and the peer
manager's calls, and does nothing else. -/
theorem onRpcEvent_exact : b.onRpcEvent m =
    { b with
      mothraRpc := ⟨b.mothraRpc.events ++ rpcReplies b.pingData b.metaData m⟩
      events := b.events ++ rpcEvents m
      peersToDc := b.peersToDc ++ rpcDisconnects m
      peerManager := { b.peerManager with calls := b.peerManager.calls ++ rpcCalls m } } := by
  ext <;> simp

/-- Pong and MetaData responses, to any request id, leave the whole state as it was: no queue
grows and the peer manager is not told. -/
theorem onRpcEvent_pong_metaData_response_unobserved (p : PeerId) (c : ConnectionId)
    (i : RequestId) (d : Bytes) :
    b.onRpcEvent ⟨p, c, .ok (.response i (.pong d))⟩ = b ∧
      b.onRpcEvent ⟨p, c, .ok (.response i (.metaData d))⟩ = b :=
  ⟨rfl, rfl⟩

/-! ## `inject_event` -/

/-- The RPC actions `inject_event` queues: the RPC handler's outcome, with its peer and
connection. -/
def injected (peerId : PeerId) (connId : ConnectionId) : BehaviourHandlerOut → List RPCAction
  | .delegate (.rpc ev) => [.generateEvent ⟨peerId, connId, ev⟩]
  | _ => []

theorem injectEvent_eq (peerId : PeerId) (connId : ConnectionId) (e : BehaviourHandlerOut) :
    b.injectEvent peerId connId e =
      { b with mothraRpc := ⟨b.mothraRpc.events ++ injected peerId connId e⟩ } := by
  rcases e with ((_ | _ | _) | _) <;> simp [injectEvent, injected, RPC.injectEvent]

/-! ## The gossipsub and identify handlers -/

/-- The public events appended for a gossipsub event. -/
def gossipEvents : GossipsubEvent → List BehaviourEvent
  | .message propagationSource id gsMsg =>
    [.pubsubMessage id propagationSource gsMsg.topics gsMsg.data]
  | .subscribed peerId topic => [.peerSubscribed peerId topic]
  | .unsubscribed _ _ => []

/-- The calls made on the peer manager for an identify event. -/
def identifyCalls : IdentifyEvent → List PeerManagerCall
  | .received peerId info _ =>
    [.identify peerId { info with listenAddrs := info.listenAddrs.take maxIdentifyAddresses }]
  | _ => []

theorem onGossipEvent_eq (e : GossipsubEvent) :
    b.onGossipEvent e = { b with events := b.events ++ gossipEvents e } := by
  cases e <;> simp [onGossipEvent, gossipEvents]

theorem onIdentifyEvent_eq (e : IdentifyEvent) : b.onIdentifyEvent e =
    { b with
      peerManager := { b.peerManager with calls := b.peerManager.calls ++ identifyCalls e } } := by
  cases e with
  | received peerId info _ =>
    by_cases h : info.listenAddrs.length > maxIdentifyAddresses
    · simp [onIdentifyEvent, identifyCalls, h, PeerManager.identify, PeerManager.notify]
    · simp [onIdentifyEvent, identifyCalls, h, PeerManager.identify, PeerManager.notify,
        List.take_of_length_le (Nat.le_of_not_gt h)]
  | sent => simp [onIdentifyEvent, identifyCalls]
  | error => simp [onIdentifyEvent, identifyCalls]

end Behaviour

end Mothra
