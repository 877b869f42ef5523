import Mothra.Dispatch

/-!
# `Behaviour::poll`

`poll` runs the `poll_behaviour!` loop on gossipsub, then on RPC, then on identify, and then
`custom_poll`, returning at the first action:

1. `poll_behaviour!` polls its sub-behaviour until `Pending`. A `GenerateEvent` goes to the
   sub-behaviour's handler (`on_gossip_event`, `on_rpc_event`, `on_identify_event`) and the loop
   goes on; any other action is returned, a `NotifyHandler` wrapped in `Delegate` with the
   sub-behaviour's tag. A handler never puts a `GenerateEvent` in the queue being drained
   (`SubBehaviour.generated_onEvent`), so the loop ends.
2. `custom_poll` returns the head of `peers_to_dc` as a `Shutdown(None)` for all connections,
   else polls the peer manager (Ping and MetaData are sent and the loop goes on, every other
   command is returned), else returns the head of `events`, else `Pending`.

Each part reports the events it handed on (`Handled`), so that runs can be stated about.
-/

namespace Mothra

/-- An event a loop of `poll` handed on: to a handler of `Behaviour`, or from the peer manager
to `custom_poll`. -/
inductive Handled
  | gossipsub (event : GossipsubEvent)
  | rpc (message : RPCMessage)
  | identify (event : IdentifyEvent)
  | peerManager (event : PeerManagerEvent)
  deriving DecidableEq

/-- What a part of `poll` did: the events it handed on, the state it left, and the action it
returned; `none` when it fell through (for `poll` and `custom_poll`, `Poll::Pending`). -/
structure Polled where
  handled : List Handled
  state : Behaviour
  result : Option Action

/-- Run `k` when the first part fell through. -/
def Polled.orElse (o : Polled) (k : Behaviour → Polled) : Polled :=
  match o.result with
  | some _ => o
  | none => let o' := k o.state; { o' with handled := o.handled ++ o'.handled }

/-- A sub-behaviour as `poll_behaviour!` drives it: its queue of actions inside the composite,
the handler of the events it generates, and the tag of its handler events. -/
structure SubBehaviour (α ε : Type) where
  queue : Behaviour → List (NBAction α ε)
  setQueue : Behaviour → List (NBAction α ε) → Behaviour
  /-- `$on_event_fn` -/
  onEvent : Behaviour → ε → Behaviour
  /-- `$notify_handler_event_closure` -/
  wrap : α → DelegateIn
  handled : ε → Handled
  queue_setQueue : ∀ b q, queue (setQueue b q) = q
  /-- The handler adds no event for itself to the queue. -/
  generated_onEvent : ∀ b e, generated (queue (onEvent b e)) = generated (queue b)

theorem pollQueue_eq_ready {α : Type} {q rest : List α} {a : α} :
    pollQueue q = (.ready a, rest) ↔ q = a :: rest := by
  cases q <;> simp [pollQueue]

namespace SubBehaviour

variable {α ε : Type} (s : SubBehaviour α ε)

/-- The `poll_behaviour!` macro. -/
def pollBehaviour (b : Behaviour) : Polled :=
  match _h : pollQueue (s.queue b) with
  | (.pending, _) => ⟨[], b, none⟩
  | (.ready action, rest) =>
    let b := s.setQueue b rest
    match action with
    | .generateEvent event =>
      let o := pollBehaviour (s.onEvent b event)
      { o with handled := s.handled event :: o.handled }
    | .dialAddress address => ⟨[], b, some (.dialAddress address)⟩
    | .dialPeer peerId condition => ⟨[], b, some (.dialPeer peerId condition)⟩
    | .notifyHandler peerId handler event =>
      ⟨[], b, some (.notifyHandler peerId handler (.delegate (s.wrap event)))⟩
    | .reportObservedAddr address => ⟨[], b, some (.reportObservedAddr address)⟩
termination_by (generated (s.queue b)).length
decreasing_by
  rw [s.generated_onEvent, s.queue_setQueue, (pollQueue_eq_ready.1 _h)]
  simp

/-- What `poll_behaviour!` returns for an action other than `GenerateEvent`. -/
def lift : NBAction α ε → Option Action
  | .generateEvent _ => none
  | .dialAddress address => some (.dialAddress address)
  | .dialPeer peerId condition => some (.dialPeer peerId condition)
  | .notifyHandler peerId handler event =>
    some (.notifyHandler peerId handler (.delegate (s.wrap event)))
  | .reportObservedAddr address => some (.reportObservedAddr address)

theorem lift_ne_none {a : NBAction α ε} (ha : a.generated? = none) : s.lift a ≠ none := by
  cases a <;> simp_all [lift]

variable {s} {b : Behaviour}

theorem pollBehaviour_nil (h : s.queue b = []) : s.pollBehaviour b = ⟨[], b, none⟩ := by
  rw [pollBehaviour]
  split
  · rfl
  · next heq => simp [h] at heq

theorem pollBehaviour_cons {a : NBAction α ε} {rest : List (NBAction α ε)}
    (h : s.queue b = a :: rest) :
    s.pollBehaviour b = match a with
      | .generateEvent e =>
        let o := s.pollBehaviour (s.onEvent (s.setQueue b rest) e)
        { o with handled := s.handled e :: o.handled }
      | a => ⟨[], s.setQueue b rest, s.lift a⟩ := by
  rw [pollBehaviour]
  split
  · next heq => simp [h] at heq
  · next heq =>
    simp only [h, pollQueue_cons, Prod.mk.injEq, Poll.ready.injEq] at heq
    obtain ⟨rfl, rfl⟩ := heq
    cases a <;> rfl

/-- An action other than `GenerateEvent` at the head of the queue is returned at once. -/
theorem pollBehaviour_cons_of_generated {a : NBAction α ε} {rest : List (NBAction α ε)}
    (h : s.queue b = a :: rest) (ha : a.generated? = none) :
    s.pollBehaviour b = ⟨[], s.setQueue b rest, s.lift a⟩ := by
  rw [pollBehaviour_cons h]
  cases a <;> simp_all

end SubBehaviour

theorem PeerManager.pending_of_pollNextUnpin {pm pm' : PeerManager} {e : PeerManagerEvent}
    (h : pm.pollNextUnpin = (.ready (some e), pm')) : pm.pending = e :: pm'.pending := by
  unfold PeerManager.pollNextUnpin at h
  split at h <;> cases h
  assumption

namespace Behaviour

/-- Gossipsub, with `on_gossip_event`. -/
def gossipsubBehaviour : SubBehaviour GossipsubRpc GossipsubEvent where
  queue b := b.gossipsub.pending
  setQueue b q := { b with gossipsub := ⟨q⟩ }
  onEvent := onGossipEvent
  wrap := .gossipsub
  handled := .gossipsub
  queue_setQueue _ _ := rfl
  generated_onEvent b e := by rw [onGossipEvent_eq]

/-- RPC, with `on_rpc_event`. -/
def rpcBehaviour : SubBehaviour RPCSend RPCMessage where
  queue b := b.mothraRpc.events
  setQueue b q := { b with mothraRpc := ⟨q⟩ }
  onEvent := onRpcEvent
  wrap := .rpc
  handled := .rpc
  queue_setQueue _ _ := rfl
  generated_onEvent b e := by simp

/-- Identify, with `on_identify_event`. -/
def identifyBehaviour : SubBehaviour IdentifyHandlerEvent IdentifyEvent where
  queue b := b.identify.pending
  setQueue b q := { b with identify := ⟨q⟩ }
  onEvent := onIdentifyEvent
  wrap := .identify
  handled := .identify
  queue_setQueue _ _ := rfl
  generated_onEvent b e := by rw [onIdentifyEvent_eq]

/-- The peer-manager loop of `custom_poll`. -/
def pollPeerManager (b : Behaviour) : Polled :=
  match _h : b.peerManager.pollNextUnpin with
  | (.ready (some event), peerManager) =>
    let b := { b with peerManager }
    match event with
    | .dial peerId => ⟨[.peerManager event], b, some (.dialPeer peerId .disconnected)⟩
    | .socketUpdated address => ⟨[.peerManager event], b, some (.reportObservedAddr address)⟩
    | .status peerId => ⟨[.peerManager event], b, some (.generateEvent (.statusPeer peerId))⟩
    | .ping peerId =>
      let o := pollPeerManager (b.ping .behaviour peerId)
      { o with handled := .peerManager event :: o.handled }
    | .metaData peerId =>
      let o := pollPeerManager (b.sendMetaDataRequest peerId)
      { o with handled := .peerManager event :: o.handled }
    | .disconnectPeer peerId =>
      ⟨[.peerManager event], { b with peersToDc := b.peersToDc ++ [peerId] },
        some (.notifyHandler peerId .any (.shutdown (some (.behaviour, .goodbye []))))⟩
  | (.ready none, peerManager) => ⟨[], { b with peerManager }, none⟩
  | (.pending, peerManager) => ⟨[], { b with peerManager }, none⟩
termination_by b.peerManager.pending.length
decreasing_by
  all_goals simp [ping, sendMetaDataRequest, PeerManager.pending_of_pollNextUnpin _h]

variable {b : Behaviour}

theorem pollPeerManager_nil (h : b.peerManager.pending = []) :
    pollPeerManager b = ⟨[], b, none⟩ := by
  rw [pollPeerManager]
  split
  · next heq => simp [PeerManager.pollNextUnpin, h] at heq
  · next heq => simp [PeerManager.pollNextUnpin, h] at heq
  · next heq =>
    simp only [PeerManager.pollNextUnpin, h, Prod.mk.injEq] at heq
    rw [← heq.2]

theorem pollPeerManager_cons {e : PeerManagerEvent} {rest : List PeerManagerEvent}
    (h : b.peerManager.pending = e :: rest) :
    pollPeerManager b =
      let b := { b with peerManager := { b.peerManager with pending := rest } }
      match e with
      | .dial peerId => ⟨[.peerManager e], b, some (.dialPeer peerId .disconnected)⟩
      | .socketUpdated address => ⟨[.peerManager e], b, some (.reportObservedAddr address)⟩
      | .status peerId => ⟨[.peerManager e], b, some (.generateEvent (.statusPeer peerId))⟩
      | .ping peerId =>
        let o := pollPeerManager (b.ping .behaviour peerId)
        { o with handled := .peerManager e :: o.handled }
      | .metaData peerId =>
        let o := pollPeerManager (b.sendMetaDataRequest peerId)
        { o with handled := .peerManager e :: o.handled }
      | .disconnectPeer peerId =>
        ⟨[.peerManager e], { b with peersToDc := b.peersToDc ++ [peerId] },
          some (.notifyHandler peerId .any (.shutdown (some (.behaviour, .goodbye []))))⟩ := by
  rw [pollPeerManager]
  split
  · next heq =>
    simp only [PeerManager.pollNextUnpin, h, Prod.mk.injEq, Poll.ready.injEq,
      Option.some.injEq] at heq
    obtain ⟨rfl, rfl⟩ := heq
    cases e <;> rfl
  · next heq => simp [PeerManager.pollNextUnpin, h] at heq
  · next heq => simp [PeerManager.pollNextUnpin, h] at heq

/-- `custom_poll`. -/
def customPoll (b : Behaviour) : Polled :=
  match b.peersToDc with
  | peerId :: rest =>
    ⟨[], { b with peersToDc := rest }, some (.notifyHandler peerId .all (.shutdown none))⟩
  | [] =>
    (pollPeerManager b).orElse fun b =>
      match b.events with
      | event :: rest => ⟨[], { b with events := rest }, some (.generateEvent event)⟩
      | [] => ⟨[], b, none⟩

/-- `poll`. -/
def poll (b : Behaviour) : Polled :=
  (gossipsubBehaviour.pollBehaviour b).orElse fun b =>
    (rpcBehaviour.pollBehaviour b).orElse fun b =>
      (identifyBehaviour.pollBehaviour b).orElse customPoll

end Behaviour

end Mothra
