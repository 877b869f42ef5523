import Mothra.Types

/-!
# The RPC behaviour

`RPC` of `rpc/mod.rs` is a queue of swarm actions drained one per `poll`: `send_response` and
`send_request` push a `NotifyHandler` for a connection handler, `inject_event` pushes a
`GenerateEvent` carrying the handler's outcome with its peer and connection, and
`inject_connected` pushes the behaviour's own metadata request.

`messages` and `sends` split a queue into the two kinds of entry; every lemma about the
composite's use of the queue is stated through them.
-/

namespace Mothra

/-- `Poll::Ready(queue.remove(0))` on a non-empty queue, `Poll::Pending` on an empty one. -/
def pollQueue {α : Type} : List α → Poll α × List α
  | [] => (.pending, [])
  | a :: rest => (.ready a, rest)

@[simp] theorem pollQueue_nil {α : Type} : pollQueue ([] : List α) = (.pending, []) := rfl

@[simp] theorem pollQueue_cons {α : Type} (a : α) (rest : List α) :
    pollQueue (a :: rest) = (.ready a, rest) := rfl

/-! ## Generated events and handler notifications in a queue -/

namespace NBAction

variable {α ε : Type}

/-- The event of a `GenerateEvent`. -/
def generated? : NBAction α ε → Option ε
  | .generateEvent e => some e
  | _ => none

/-- The peer, target and event of a `NotifyHandler`. -/
def notified? : NBAction α ε → Option (PeerId × NotifyHandler × α)
  | .notifyHandler peerId handler event => some (peerId, handler, event)
  | _ => none

@[simp] theorem generated?_generateEvent (e : ε) :
    (generateEvent e : NBAction α ε).generated? = some e := rfl

@[simp] theorem generated?_notifyHandler (p : PeerId) (h : NotifyHandler) (a : α) :
    (notifyHandler p h a : NBAction α ε).generated? = none := rfl

@[simp] theorem notified?_generateEvent (e : ε) :
    (generateEvent e : NBAction α ε).notified? = none := rfl

@[simp] theorem notified?_notifyHandler (p : PeerId) (h : NotifyHandler) (a : α) :
    (notifyHandler p h a : NBAction α ε).notified? = some (p, h, a) := rfl

end NBAction

/-- The events of the `GenerateEvent` entries of a queue, in order. -/
def generated {α ε : Type} (q : List (NBAction α ε)) : List ε :=
  q.filterMap NBAction.generated?

/-- The `NotifyHandler` entries of a queue, in order. -/
def sends {α ε : Type} (q : List (NBAction α ε)) : List (PeerId × NotifyHandler × α) :=
  q.filterMap NBAction.notified?

section Queue

variable {α ε : Type}

@[simp] theorem generated_nil : generated ([] : List (NBAction α ε)) = [] := rfl

@[simp] theorem generated_cons (a : NBAction α ε) (q : List (NBAction α ε)) :
    generated (a :: q) = a.generated?.toList ++ generated q := by
  cases h : a.generated? <;> simp [generated, List.filterMap_cons, h]

@[simp] theorem generated_append (p q : List (NBAction α ε)) :
    generated (p ++ q) = generated p ++ generated q := List.filterMap_append _ _ _

@[simp] theorem sends_nil : sends ([] : List (NBAction α ε)) = [] := rfl

@[simp] theorem sends_cons (a : NBAction α ε) (q : List (NBAction α ε)) :
    sends (a :: q) = a.notified?.toList ++ sends q := by
  cases h : a.notified? <;> simp [sends, List.filterMap_cons, h]

@[simp] theorem sends_append (p q : List (NBAction α ε)) :
    sends (p ++ q) = sends p ++ sends q := List.filterMap_append _ _ _

end Queue

/-! ## The behaviour -/

/-- An action of the RPC behaviour. -/
abbrev RPCAction := NBAction RPCSend RPCMessage

/-- `RPC`: the queue of actions to hand to the swarm. -/
structure RPC where
  events : List RPCAction

namespace RPC

/-- `RPC::new`. -/
def new : RPC := ⟨[]⟩

/-- `RPC::send_response`: the response goes to the connection and substream of `id`. -/
def sendResponse (rpc : RPC) (peerId : PeerId) (id : ConnectionId × SubstreamId)
    (event : RPCCodedResponse) : RPC :=
  ⟨rpc.events ++ [.notifyHandler peerId (.one id.1) (.response id.2 event)]⟩

/-- `RPC::send_request`: a request goes to any connection of the peer. -/
def sendRequest (rpc : RPC) (peerId : PeerId) (requestId : RequestId) (event : RPCRequest) :
    RPC :=
  ⟨rpc.events ++ [.notifyHandler peerId .any (.request requestId event)]⟩

/-- `RPC::inject_connected`: ask every new peer for its metadata. -/
def injectConnected (rpc : RPC) (peerId : PeerId) : RPC :=
  ⟨rpc.events ++ [.notifyHandler peerId .any (.request .behaviour .metaData)]⟩

/-- `RPC::inject_event`: hand the handler's outcome to the user. -/
def injectEvent (rpc : RPC) (peerId : PeerId) (connId : ConnectionId) (event : RPCHandlerOut) :
    RPC :=
  ⟨rpc.events ++ [.generateEvent ⟨peerId, connId, event⟩]⟩

/-- `RPC::poll`; it ignores its context. -/
def poll (rpc : RPC) : Poll RPCAction × RPC :=
  let (r, rest) := pollQueue rpc.events
  (r, ⟨rest⟩)

@[simp] theorem sendResponse_events (rpc : RPC) (peerId : PeerId) (id : ConnectionId × SubstreamId)
    (event : RPCCodedResponse) :
    (rpc.sendResponse peerId id event).events =
      rpc.events ++ [.notifyHandler peerId (.one id.1) (.response id.2 event)] := rfl

@[simp] theorem sendRequest_events (rpc : RPC) (peerId : PeerId) (requestId : RequestId)
    (event : RPCRequest) :
    (rpc.sendRequest peerId requestId event).events =
      rpc.events ++ [.notifyHandler peerId .any (.request requestId event)] := rfl

@[simp] theorem injectConnected_events (rpc : RPC) (peerId : PeerId) :
    (rpc.injectConnected peerId).events =
      rpc.events ++ [.notifyHandler peerId .any (.request .behaviour .metaData)] := rfl

@[simp] theorem injectEvent_events (rpc : RPC) (peerId : PeerId) (connId : ConnectionId)
    (event : RPCHandlerOut) :
    (rpc.injectEvent peerId connId event).events =
      rpc.events ++ [.generateEvent ⟨peerId, connId, event⟩] := rfl

end RPC

end Mothra
