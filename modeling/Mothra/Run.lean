import Mothra.Poll

/-!
# Runs of the composite

A run interleaves polls with calls: the swarm's `inject_event`, `inject_connected` and
`addresses_of_peer`, the embedder's sends, `enr_entries` and `add_enr`, new output of a collaborator (what the gossipsub engine, identify and the
peer manager will yield next), and writes of the shared globals by their other holders. A run
shows, in order, each call, and for each poll the events its loops handed on and what it
returned.
-/

namespace Mothra

/-- What can happen to the composite between two polls. -/
inductive Call
  | injectEvent (peerId : PeerId) (connId : ConnectionId) (event : BehaviourHandlerOut)
  | injectConnected (peerId : PeerId)
  | sendRequest (peerId : PeerId) (requestId : RequestId) (request : Request)
  | sendSuccessfulResponse (peerId : PeerId) (id : PeerRequestId) (response : Response)
  | sendErrorReponse (peerId : PeerId) (id : PeerRequestId) (error : RPCResponseErrorCode)
      (reason : String)
  | addressesOfPeer (peerId : PeerId)
  | enrEntries
  | addEnr (enr : Enr)
  | gossipsubYields (pending : List GossipsubAction)
  | identifyYields (pending : List IdentifyAction)
  | peerManagerYields (pending : List PeerManagerEvent)
  | writeGlobals (networkGlobals : NetworkGlobals)
  deriving DecidableEq

inductive Op
  | call (c : Call)
  | poll
  deriving DecidableEq

/-- What a run shows. -/
inductive Ev
  | call (c : Call)
  | handled (h : Handled)
  | returned (result : Option Action)
  deriving DecidableEq

/-- What a part of `poll` showed: the events it handed on, then the action it returned. -/
def Polled.shown (o : Polled) : List Ev :=
  o.handled.map .handled ++ o.result.toList.map (.returned ∘ some)

/-- What a whole `poll` shows: the events it handed on, then its `Poll`. -/
def Polled.trace (o : Polled) : List Ev := o.handled.map .handled ++ [.returned o.result]

namespace Behaviour

/-- The state after a call. -/
def call (b : Behaviour) : Call → Behaviour
  | .injectEvent peerId connId event => b.injectEvent peerId connId event
  | .injectConnected peerId => b.injectConnected peerId
  | .sendRequest peerId requestId request => b.sendRequest peerId requestId request
  | .sendSuccessfulResponse peerId id response => b.sendSuccessfulResponse peerId id response
  | .sendErrorReponse peerId id error reason => b.sendErrorReponse peerId id error reason
  | .addressesOfPeer peerId => b.addressesOfPeer peerId
  | .enrEntries => b.enrEntries
  | .addEnr enr => b.addEnr enr
  | .gossipsubYields pending => { b with gossipsub := ⟨pending⟩ }
  | .identifyYields pending => { b with identify := ⟨pending⟩ }
  | .peerManagerYields pending => { b with peerManager := { b.peerManager with pending } }
  | .writeGlobals networkGlobals => { b with networkGlobals }

section Frame

variable (b : Behaviour) (c : Call)

/-- A call touches neither the pending disconnections, the public events nor the data that
Ping and MetaData answer with. -/
theorem call_frame : (b.call c).peersToDc = b.peersToDc ∧ (b.call c).events = b.events ∧
    (b.call c).pingData = b.pingData ∧ (b.call c).metaData = b.metaData := by
  cases c <;> simp [call, injectEvent_eq, injectConnected, sendRequest, sendSuccessfulResponse,
    sendErrorReponse, addressesOfPeer, enrEntries, addEnr]

@[simp] theorem call_peersToDc : (b.call c).peersToDc = b.peersToDc := by
  simp only [call_frame]

@[simp] theorem call_events : (b.call c).events = b.events := by
  simp only [call_frame]

@[simp] theorem call_pingData : (b.call c).pingData = b.pingData := by
  simp only [call_frame]

@[simp] theorem call_metaData : (b.call c).metaData = b.metaData := by
  simp only [call_frame]

end Frame

def exec (b : Behaviour) : Op → List Ev × Behaviour
  | .call c => ([.call c], b.call c)
  | .poll => (b.poll.trace, b.poll.state)

def run (b : Behaviour) : List Op → List Ev × Behaviour
  | [] => ([], b)
  | op :: ops =>
    let r := b.exec op
    let r' := r.2.run ops
    (r.1 ++ r'.1, r'.2)

end Behaviour

end Mothra
