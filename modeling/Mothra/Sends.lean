import Mothra.Steps

/-!
# The RPC queue along a run

The RPC queue carries two kinds of entries, and each is a first-in first-out channel:

* `GenerateEvent(message)`, queued by `inject_event` for a `Delegate(RPC(..))` outcome of a
  handler and handed, in order, to `on_rpc_event` by the RPC loop of `poll` (`msgFlow_step`);
* `NotifyHandler(peer, handler, send)`, queued by `inject_connected`, the embedder's sends,
  `pong`, `send_meta_data_response` and the peer manager's Ping and MetaData commands, and
  returned, in order, as `NotifyHandler(peer, handler, Delegate(RPC(send)))`
  (`sendFlow_step`).

The queue keeps the connection and substream of an inbound request: the message reaches
`on_rpc_event` as it was injected, and a reply goes to `One(connection)` with the substream.
-/

namespace Mothra

open Behaviour

/-! ## Messages to `on_rpc_event` -/

/-- The RPC message an event delivers: an RPC outcome of a handler, given to `inject_event`. -/
def Ev.rpcDelivered : Ev → List RPCMessage
  | .call (.injectEvent peerId connId (.delegate (.rpc event))) => [⟨peerId, connId, event⟩]
  | _ => []

/-- The RPC message an event hands to `on_rpc_event`. -/
def Ev.rpcHandled : Ev → List RPCMessage
  | .handled (.rpc m) => [m]
  | _ => []

@[simp] theorem Ev.rpcHandled_returned (r : Option Action) : Ev.rpcHandled (.returned r) = [] :=
  rfl

@[simp] theorem Ev.rpcDelivered_handled (h : Handled) : Ev.rpcDelivered (.handled h) = [] := rfl

@[simp] theorem Ev.rpcDelivered_returned (r : Option Action) :
    Ev.rpcDelivered (.returned r) = [] := rfl

/-- The messages waiting in the RPC queue. -/
def msgFlow : Flow RPCMessage where
  F b := generated b.mothraRpc.events
  In _ := Ev.rpcDelivered
  Out := Ev.rpcHandled

@[simp] theorem generated_call_mothraRpc (b : Behaviour) (c : Call) :
    generated (b.call c).mothraRpc.events =
      generated b.mothraRpc.events ++ Ev.rpcDelivered (.call c) := by
  rcases c with ⟨_, _, ((_ | _ | _) | _)⟩ | _ | _ | _ | _ | _ | _ | _ | _ <;>
    simp [call, injectEvent_eq, injected, Ev.rpcDelivered, injectConnected, sendRequest,
      sendSuccessfulResponse, sendErrorReponse, addressesOfPeer, enrEntries, addEnr]

theorem msgFlow_step {b b' : Behaviour} {t : List Ev} (h : Step b t b') :
    msgFlow.Conserved b t b' := by
  cases h <;> simp_all [Flow.Conserved, msgFlow, Ev.rpcHandled, onGossipEvent_eq,
    onIdentifyEvent_eq, ping, sendMetaDataRequest]

/-! ## Sends to the connection handlers -/

/-- The RPC sends an event queues, given the ping payload and metadata of the local replies. -/
def Ev.rpcQueued (payloads : Bytes × Bytes) : Ev → List (PeerId × NotifyHandler × RPCSend)
  | .call (.injectConnected peerId) => [(peerId, .any, .request .behaviour .metaData)]
  | .call (.sendRequest peerId requestId request) =>
    [(peerId, .any, .request requestId request.toRPCRequest)]
  | .call (.sendSuccessfulResponse peerId id response) =>
    [(peerId, .one id.1, .response id.2 response.toRPCCodedResponse)]
  | .call (.sendErrorReponse peerId id error reason) =>
    [(peerId, .one id.1, .response id.2 (.fromErrorCode error reason))]
  | .handled (.rpc m) => sends (rpcReplies payloads.1 payloads.2 m)
  | .handled (.peerManager (.ping peerId)) =>
    [(peerId, .any, .request .behaviour (.ping payloads.1))]
  | .handled (.peerManager (.metaData peerId)) => [(peerId, .any, .request .behaviour .metaData)]
  | _ => []

/-- The RPC send an event hands to the swarm. -/
def Ev.rpcSent : Ev → List (PeerId × NotifyHandler × RPCSend)
  | .returned (some (.notifyHandler peerId handler (.delegate (.rpc event)))) =>
    [(peerId, handler, event)]
  | _ => []

@[simp] theorem Ev.rpcSent_call (c : Call) : Ev.rpcSent (.call c) = [] := rfl

@[simp] theorem Ev.rpcSent_handled (h : Handled) : Ev.rpcSent (.handled h) = [] := rfl

@[simp] theorem Ev.rpcQueued_returned (payloads : Bytes × Bytes) (r : Option Action) :
    Ev.rpcQueued payloads (.returned r) = [] := rfl

/-- The sends waiting in the RPC queue. -/
def sendFlow : Flow (PeerId × NotifyHandler × RPCSend) where
  F b := sends b.mothraRpc.events
  In := Ev.rpcQueued
  Out := Ev.rpcSent

@[simp] theorem sends_call_mothraRpc (b : Behaviour) (c : Call) :
    sends (b.call c).mothraRpc.events =
      sends b.mothraRpc.events ++ Ev.rpcQueued b.payloads (.call c) := by
  rcases c with ⟨_, _, ((_ | _ | _) | _)⟩ | _ | _ | _ | _ | _ | _ | _ | _ <;>
    simp [call, injectEvent_eq, injected, Ev.rpcQueued, injectConnected, sendRequest,
      sendSuccessfulResponse, sendErrorReponse, RPC.sendResponse, addressesOfPeer, enrEntries,
      addEnr]

/-- A sub-behaviour other than RPC returns no RPC send. -/
theorem rpcSent_lift_of_wrap {α ε : Type} (s : SubBehaviour α ε)
    (hs : ∀ x y, s.wrap x ≠ .rpc y) (a : NBAction α ε) : Ev.rpcSent (.returned (s.lift a)) = [] := by
  cases a with
  | notifyHandler _ _ x =>
    simp only [SubBehaviour.lift, Ev.rpcSent]
    split
    · next heq => simp at heq; exact absurd heq.2.2 (hs x _)
    · rfl
  | _ => rfl

theorem sendFlow_step {b b' : Behaviour} {t : List Ev} (h : Step b t b') :
    sendFlow.Conserved b t b' := by
  cases h with
  | @rpcReturn a _ _ _ ha =>
    cases a <;> simp_all [Flow.Conserved, sendFlow, SubBehaviour.lift, rpcBehaviour, Ev.rpcSent,
      NBAction.notified?]
  | gossipsubReturn =>
    simp [Flow.Conserved, sendFlow,
      rpcSent_lift_of_wrap gossipsubBehaviour (by simp [gossipsubBehaviour])]
  | identifyReturn =>
    simp [Flow.Conserved, sendFlow,
      rpcSent_lift_of_wrap identifyBehaviour (by simp [identifyBehaviour])]
  | _ => simp_all [Flow.Conserved, sendFlow, onGossipEvent_eq, onIdentifyEvent_eq, ping,
    sendMetaDataRequest, Ev.rpcQueued, Ev.rpcSent, payloads]

/-! ## Connections and substreams end to end -/

theorem rpcEvents_request {p : PeerId} {c : ConnectionId} {s : SubstreamId} {req : RPCRequest}
    {e : BehaviourEvent} (he : e ∈ rpcEvents ⟨p, c, .ok (.request s req)⟩) :
    ∃ msg, req = .status msg ∧ e = .requestReceived p (c, s) (.status msg) := by
  cases req <;> simp_all [rpcEvents]

theorem sends_rpcReplies_request (pd md : Bytes) (p : PeerId) (c : ConnectionId) (s : SubstreamId)
    (req : RPCRequest) :
    sends (rpcReplies pd md ⟨p, c, .ok (.request s req)⟩) =
      (match req with
        | .ping _ => [RPCCodedResponse.success (.pong pd)]
        | .metaData => [.success (.metaData md)]
        | _ => []).map fun r => (p, .one c, .response s r) := by
  cases req <;> rfl

/-- Along every run, from any state: the messages handed to `on_rpc_event` are those delivered
by `inject_event`, each once and in order; from any state, `on_rpc_event` surfaces a Status
request only as `RequestReceived` for its peer and `(connection, substream)`, queues one reply for
a Ping or MetaData request, and sends every reply to the peer, on `One(connection)`, for the
substream; the RPC sends returned are those queued, each once and in order. -/
theorem run_rpc_fifo (b : Behaviour) (ops : List Op) :
    generated b.mothraRpc.events ++ (b.run ops).1.flatMap Ev.rpcDelivered =
      (b.run ops).1.flatMap Ev.rpcHandled ++ generated (b.run ops).2.mothraRpc.events ∧
    (∀ (b : Behaviour) p c s req, ∃ l,
      (b.onRpcEvent ⟨p, c, .ok (.request s req)⟩).events = b.events ++ l ∧
        ∀ e ∈ l, ∃ msg, req = .status msg ∧ e = .requestReceived p (c, s) (.status msg)) ∧
    (∀ (b : Behaviour) p c s req, (req = .metaData ∨ ∃ d, req = .ping d) →
      ∃ r, sends (b.onRpcEvent ⟨p, c, .ok (.request s req)⟩).mothraRpc.events =
        sends b.mothraRpc.events ++ [(p, .one c, .response s r)]) ∧
    (∀ (b : Behaviour) p c s req, ∃ l,
      sends (b.onRpcEvent ⟨p, c, .ok (.request s req)⟩).mothraRpc.events =
        sends b.mothraRpc.events ++ l ∧ ∀ x ∈ l, ∃ r, x = (p, .one c, .response s r)) ∧
    sends b.mothraRpc.events ++ (b.run ops).1.flatMap (Ev.rpcQueued b.payloads) =
      (b.run ops).1.flatMap Ev.rpcSent ++ sends (b.run ops).2.mothraRpc.events := by
  refine ⟨msgFlow.steps msgFlow_step (run_steps b ops),
    fun b _ _ _ _ => ⟨_, onRpcEvent_events b _, fun _ => rpcEvents_request⟩, ?_,
    fun b p c s req => ⟨sends (rpcReplies b.pingData b.metaData ⟨p, c, .ok (.request s req)⟩),
      by simp, fun x hx => ?_⟩, sendFlow.steps sendFlow_step (run_steps b ops)⟩
  · rintro b p c s req (rfl | ⟨d, rfl⟩) <;> simp [sends_rpcReplies_request]
  · rw [sends_rpcReplies_request, List.mem_map] at hx
    obtain ⟨r, -, rfl⟩ := hx
    exact ⟨r, rfl⟩

end Mothra

/-!
## The payloads of the local replies

`Behaviour::new` reads `network_globals.meta_data` and `network_globals.ping_data` once and
keeps copies; `pong`, `send_meta_data_response` and `ping` read the copies, and
`update_metadata`, which would refresh them, has an empty body. A collaborator's later write to
the globals therefore never reaches a reply: along every run from `Behaviour::new`, every RPC
send is queued with the payloads the globals held at construction (`run_new_payloads`), and a
MetaData response, a Pong and a peer-manager Ping queued after a write carry the old values
(`repliesAfterWrite_stale`).
-/

namespace Mothra

open Behaviour

/-- Along every run from `Behaviour::new g`, whatever is written to the globals: the copies the
replies read stay those of `g`, and the RPC sends returned, then those still waiting, are the
sends queued with `g`'s ping payload and metadata, in order. -/
theorem run_new_payloads (g : NetworkGlobals) (ops : List Op) :
    ((Behaviour.new g).run ops).2.payloads = (g.pingData, g.metaData) ∧
    ((Behaviour.new g).run ops).1.flatMap (Ev.rpcQueued (g.pingData, g.metaData)) =
      ((Behaviour.new g).run ops).1.flatMap Ev.rpcSent ++
        sends ((Behaviour.new g).run ops).2.mothraRpc.events :=
  ⟨(run_steps _ ops).payloads,
    by simpa [Flow.Conserved, sendFlow, new, RPC.new, payloads] using
      sendFlow.steps sendFlow_step (run_steps (new g) ops)⟩

/-- New globals are written; a peer asks for the metadata and pings; the peer manager asks for a
Ping of the same peer; the composite is then polled four times. -/
def repliesAfterWrite : List Op :=
  [.call (.writeGlobals ⟨[1], [2]⟩),
   .call (.injectEvent 3 4 (.delegate (.rpc (.ok (.request 5 .metaData))))),
   .call (.injectEvent 3 4 (.delegate (.rpc (.ok (.request 6 (.ping [0])))))),
   .call (.peerManagerYields [.ping 3]),
   .poll, .poll, .poll, .poll]

theorem repliesAfterWrite_stale :
    ((Behaviour.new ⟨[], []⟩).run repliesAfterWrite).2.networkGlobals = ⟨[1], [2]⟩ ∧
    ((Behaviour.new ⟨[], []⟩).run repliesAfterWrite).1.flatMap Ev.rpcSent =
      [(3, .one 4, .response 5 (.success (.metaData []))),
       (3, .one 4, .response 6 (.success (.pong []))),
       (3, .any, .request .behaviour (.ping []))] := by
  simp [repliesAfterWrite, run, exec, call, new, RPC.new, poll, Polled.orElse, Polled.trace,
    SubBehaviour.pollBehaviour, gossipsubBehaviour, rpcBehaviour, identifyBehaviour, customPoll,
    pollPeerManager, PeerManager.pollNextUnpin, Behaviour.ping, RPC.sendRequest, injectEvent,
    RPC.injectEvent, onRpcEvent, pong, sendMetaDataResponse, RPC.sendResponse, Ev.rpcSent,
    SubBehaviour.lift]

end Mothra
