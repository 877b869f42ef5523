import Mothra.Disconnect

/-!
# The public event queue

`Behaviour.events` is fed by `on_gossip_event` (a `PubsubMessage` for every gossip message, a
`PeerSubscribed` for every subscription) and by `on_rpc_event` (`rpcEvents`), and drained as
`GenerateEvent`s by `custom_poll` once the peer manager is `Pending`. The one other
`GenerateEvent` the composite returns is the `StatusPeer(p)` of a peer-manager `Status(p)`,
returned at once, past the queue.

* `eventFlow_step`: the queue is a first-in first-out channel from the two handlers to the
  returned events; nothing is lost, duplicated or reordered, and no gossip message is dropped
  for a repeated id.
* `Surfaced`: the events that may reach the swarm. The queue only ever holds such events, so
  nothing derived from Ping, MetaData or Goodbye traffic, nor the response to or the failure of
  a request of the behaviour itself, is surfaced.
-/

namespace Mothra

open Behaviour

/-! ## What the handlers append -/

/-- `StatusPeer`, the event returned past the queue. -/
def BehaviourEvent.isStatusPeer : BehaviourEvent → Bool
  | .statusPeer _ => true
  | _ => false

@[simp] theorem BehaviourEvent.isStatusPeer_statusPeer (p : PeerId) :
    (BehaviourEvent.statusPeer p).isStatusPeer = true := rfl

/-- The events an event appends to `Behaviour.events`. -/
def Ev.appended : Ev → List BehaviourEvent
  | .handled (.gossipsub e) => gossipEvents e
  | .handled (.rpc m) => rpcEvents m
  | _ => []

/-- The public event an event returns, `StatusPeer` aside. -/
def Ev.surfaced : Ev → List BehaviourEvent
  | .returned (some (.generateEvent e)) => if e.isStatusPeer then [] else [e]
  | _ => []

@[simp] theorem Ev.surfaced_lift {α ε : Type} (s : SubBehaviour α ε) (a : NBAction α ε) :
    Ev.surfaced (.returned (s.lift a)) = [] := by
  cases a <;> rfl

/-- The public events that may reach the swarm: an RPC failure, a request or a response only of
the embedder's Status traffic, never for a request of the behaviour itself. -/
def BehaviourEvent.Surfaced : BehaviourEvent → Prop
  | .rpcFailed id _ _ => id ≠ .behaviour
  | .requestReceived _ _ (.status _) => True
  | .requestReceived _ _ (.goodbye _) => False
  | .responseReceived _ id (.status _) => id ≠ .behaviour
  | .pubsubMessage .. | .peerSubscribed .. | .statusPeer _ => True

@[simp] theorem BehaviourEvent.surfaced_statusPeer (p : PeerId) :
    (BehaviourEvent.statusPeer p).Surfaced := trivial

instance : DecidablePred BehaviourEvent.Surfaced
  | .rpcFailed id _ _ => inferInstanceAs (Decidable (id ≠ .behaviour))
  | .requestReceived _ _ (.status _) => isTrue trivial
  | .requestReceived _ _ (.goodbye _) => isFalse id
  | .responseReceived _ id (.status _) => inferInstanceAs (Decidable (id ≠ .behaviour))
  | .pubsubMessage .. | .peerSubscribed .. | .statusPeer _ => isTrue trivial

/-- Every event a handler appends may be surfaced, and none is a `StatusPeer`. -/
theorem surfaced_of_mem_appended {x : BehaviourEvent} {e : Ev} (hx : x ∈ e.appended) :
    x.Surfaced ∧ x.isStatusPeer = false := by
  rcases e with _ | (g | ⟨p, c, ev⟩ | _ | _) | _
  all_goals simp only [Ev.appended, List.not_mem_nil] at hx
  · cases g <;> simp_all [gossipEvents, BehaviourEvent.Surfaced, BehaviourEvent.isStatusPeer]
  · rcases ev with (_ | ⟨i, _, _⟩) | ⟨_, (_ | _ | _ | _)⟩ | ⟨i, (_ | _ | _)⟩ <;>
      simp only [rpcEvents] at hx <;> (try split at hx) <;>
      simp_all [BehaviourEvent.Surfaced, BehaviourEvent.isStatusPeer]

/-! ## The queue as a channel -/

theorem filter_appended (e : Ev) : e.appended.filter (!·.isStatusPeer) = e.appended :=
  List.filter_eq_self.2 fun _ hx => by simp [(surfaced_of_mem_appended hx).2]

@[simp] theorem filter_gossipEvents (e : GossipsubEvent) :
    (gossipEvents e).filter (!·.isStatusPeer) = gossipEvents e :=
  filter_appended (.handled (.gossipsub e))

@[simp] theorem filter_rpcEvents (m : RPCMessage) :
    (rpcEvents m).filter (!·.isStatusPeer) = rpcEvents m :=
  filter_appended (.handled (.rpc m))

/-- The public events waiting in the queue, `StatusPeer` aside. -/
def eventFlow : Flow BehaviourEvent where
  F b := b.events.filter (!·.isStatusPeer)
  In _ := Ev.appended
  Out := Ev.surfaced

theorem eventFlow_step {b b' : Behaviour} {t : List Ev} (h : Step b t b') :
    eventFlow.Conserved b t b' := by
  cases h with
  | @event e _ _ _ _ _ h =>
    cases he : e.isStatusPeer <;> simp [Flow.Conserved, eventFlow, Ev.appended, Ev.surfaced, h, he]
  | gossipsubReturn | rpcReturn | identifyReturn => simp [Flow.Conserved, eventFlow, Ev.appended]
  | _ => simp [Flow.Conserved, eventFlow, Ev.appended, Ev.surfaced, onGossipEvent_eq,
    onIdentifyEvent_eq, ping, sendMetaDataRequest]

/-- Along every run: the public events returned, `StatusPeer` aside, are the events appended by
`on_gossip_event` and `on_rpc_event`, each once and in order; `on_gossip_event` appends one
`PubsubMessage` for every gossip message, whatever the messages before it; and a peer-manager
`Status(p)` is answered at once, in its poll, by `StatusPeer(p)`. -/
theorem run_events_fifo (b : Behaviour) (ops : List Op) :
    b.events.filter (!·.isStatusPeer) ++ (b.run ops).1.flatMap Ev.appended =
      (b.run ops).1.flatMap Ev.surfaced ++ (b.run ops).2.events.filter (!·.isStatusPeer) ∧
    (∀ (b : Behaviour) source id m, (b.onGossipEvent (.message source id m)).events =
      b.events ++ [.pubsubMessage id source m.topics m.data]) ∧
    (∀ p, Answered (.handled (.peerManager (.status p)))
      (.returned (some (.generateEvent (.statusPeer p)))) (b.run ops).1) := by
  refine ⟨eventFlow.steps eventFlow_step (run_steps b ops),
    fun b source id m => by simp [onGossipEvent_eq, gossipEvents],
    fun p => (run_steps b ops).answered_of_step (by simp) fun s hm => by cases s <;> simp_all⟩

/-! ## What is surfaced -/

theorem SubBehaviour.lift_ne_generateEvent {α ε : Type} (s : SubBehaviour α ε)
    (a : NBAction α ε) (e : BehaviourEvent) : s.lift a ≠ some (.generateEvent e) := by
  cases a <;> simp [SubBehaviour.lift]

/-- Every step keeps the queue surfaceable and surfaces only what may be. -/
theorem Step.surfaced {b b' : Behaviour} {t : List Ev} (h : Step b t b')
    (hb : ∀ e ∈ b.events, e.Surfaced) :
    (∀ e ∈ b'.events, e.Surfaced) ∧
      ∀ x ∈ t, ∀ e, x = .returned (some (.generateEvent e)) → e.Surfaced := by
  cases h with
  | gossipsubEvent =>
    refine ⟨fun x hx => ?_, by simp⟩
    simp only [onGossipEvent_eq, List.mem_append] at hx
    exact hx.elim (hb x) fun hx => (surfaced_of_mem_appended (e := .handled (.gossipsub _)) hx).1
  | rpcMessage =>
    refine ⟨fun x hx => ?_, by simp⟩
    simp only [onRpcEvent_events, List.mem_append] at hx
    exact hx.elim (hb x) fun hx => (surfaced_of_mem_appended (e := .handled (.rpc _)) hx).1
  | @event _ _ _ _ _ _ h =>
    rw [h] at hb
    exact ⟨fun e he => hb e (.tail _ he), by simpa using hb _ (.head _)⟩
  | _ => simp_all [onIdentifyEvent_eq, Behaviour.ping, sendMetaDataRequest,
    SubBehaviour.lift_ne_generateEvent]

/-- Along every run from `Behaviour::new`, every public event returned may be surfaced, and so
may every event in the queue. -/
theorem run_new_surfaced (g : NetworkGlobals) (ops : List Op) :
    (∀ e, .returned (some (.generateEvent e)) ∈ ((Behaviour.new g).run ops).1 → e.Surfaced) ∧
      ∀ e ∈ ((Behaviour.new g).run ops).2.events, e.Surfaced := by
  obtain ⟨h₁, h₂⟩ := (run_steps (Behaviour.new g) ops).invariant (fun s => s.surfaced)
    (by simp [Behaviour.new])
  exact ⟨fun e he => h₂ _ he e rfl, h₁⟩

end Mothra

/-!
## What the peer manager is told

The core calls the peer manager for RPC errors, Goodbye requests and Status messages
(`on_rpc_event`, `rpcCalls`), for identify results (`on_identify_event`, `identifyCalls`), and
when the swarm asks for a peer's addresses or the embedder for the discovery's records or adds
one (`addresses_of_peer`, `enr_entries`, `add_enr`), and for nothing else; besides, it polls the
peer manager's stream of commands. Along a run the log of its calls only grows, by exactly those
calls in the order the events and calls came (`run_peerManager_calls`), and an identify result
reaches it with at most `MAX_IDENTIFY_ADDRESSES` listen addresses.
-/

namespace Mothra

open Behaviour

/-- The calls an event makes on the peer manager. -/
def Ev.pmCalls : Ev → List PeerManagerCall
  | .call (.addressesOfPeer peerId) => [.addressesOfPeer peerId]
  | .call .enrEntries => [.tableEntriesEnr]
  | .call (.addEnr enr) => [.addEnr enr]
  | .handled (.rpc m) => rpcCalls m
  | .handled (.identify e) => identifyCalls e
  | _ => []

/-- The calls made on the peer manager: a log nothing takes from. -/
def callsFlow : Flow PeerManagerCall where
  F b := b.peerManager.calls
  In _ := Ev.pmCalls
  Out _ := []

theorem callsFlow_step {b b' : Behaviour} {t : List Ev} (h : Step b t b') :
    callsFlow.Conserved b t b' := by
  cases h <;> simp [Flow.Conserved, callsFlow, Ev.pmCalls, onGossipEvent_eq, onIdentifyEvent_eq,
    Behaviour.ping, sendMetaDataRequest, call]
  case call c =>
    cases c <;> simp [call, injectEvent_eq, injectConnected, sendRequest, sendSuccessfulResponse,
      sendErrorReponse, addressesOfPeer, enrEntries, addEnr, PeerManager.addressesOfPeer,
      PeerManager.tableEntriesEnr, PeerManager.addEnr]

/-- An identify result reaches the peer manager with at most `MAX_IDENTIFY_ADDRESSES` listen
addresses. -/
theorem listenAddrs_le_of_mem_pmCalls {e : Ev} {p : PeerId} {info : IdentifyInfo}
    (h : .identify p info ∈ e.pmCalls) : info.listenAddrs.length ≤ maxIdentifyAddresses := by
  rcases e with c | (_ | ⟨_, _, ev⟩ | (_ | _ | _) | _) | _
  · cases c <;> simp [Ev.pmCalls] at h
  all_goals simp only [Ev.pmCalls, identifyCalls, List.not_mem_nil] at h
  · rcases ev with (_ | ⟨_, _, _⟩) | ⟨_, (_ | _ | _ | _)⟩ | ⟨_, (_ | _ | _)⟩ <;>
      simp [rpcCalls] at h
  · rw [(PeerManagerCall.identify.inj (List.mem_singleton.1 h)).2]
    exact List.length_take_le _ _

/-- Along every run, the calls on the peer manager are those it had, followed by the calls of
each RPC message and identify event handled, in order; and no identify result carries more than
`MAX_IDENTIFY_ADDRESSES` listen addresses. -/
theorem run_peerManager_calls (b : Behaviour) (ops : List Op) :
    (b.run ops).2.peerManager.calls = b.peerManager.calls ++ (b.run ops).1.flatMap Ev.pmCalls ∧
      ∀ p info, .identify p info ∈ (b.run ops).1.flatMap Ev.pmCalls →
        info.listenAddrs.length ≤ maxIdentifyAddresses := by
  have hc := callsFlow.steps callsFlow_step (run_steps b ops)
  rw [Flow.Conserved, (List.flatMap_eq_nil_iff (f := callsFlow.Out)).2 fun _ _ => rfl] at hc
  refine ⟨hc.symm, fun p info h => ?_⟩
  obtain ⟨e, -, he⟩ := List.mem_flatMap.1 h
  exact listenAddrs_le_of_mem_pmCalls he

end Mothra
