import Mothra.Sends

/-!
# The pending-disconnect queue

`peers_to_dc` is fed from two places: a Goodbye request handled by `on_rpc_event` queues its
peer (and no goodbye is sent back), and a `DisconnectPeer(p)` command of the peer manager queues
`p` while the same poll returns the goodbye `Shutdown(Some((Behaviour, Goodbye([]))))` to any
one connection of `p`. `custom_poll` takes the head of the queue first, as a `Shutdown(None)`
to all connections.

* `dcFlow_step`: the queue is a first-in first-out channel from those two sources to the
  `Shutdown(None)` actions; nothing is lost, duplicated or reordered.
* The queue is a plain vector: a peer that sends two Goodbyes before its shutdown is queued
  twice.
* The peer manager is polled only with the queue empty, so a peer queued by `DisconnectPeer`
  is at the head of the queue until its shutdown is returned, and every later command of the
  peer manager comes after that shutdown.
-/

namespace Mothra

open Behaviour

/-- The peers an event puts in `peers_to_dc`. -/
def Ev.enqueued : Ev → List PeerId
  | .handled (.rpc m) => rpcDisconnects m
  | .handled (.peerManager (.disconnectPeer p)) => [p]
  | _ => []

/-- The peer of a `Shutdown(None)` to all its connections. -/
def Ev.shutdown : Ev → List PeerId
  | .returned (some (.notifyHandler p .all (.shutdown none))) => [p]
  | _ => []

@[simp] theorem Ev.shutdown_call (c : Call) : Ev.shutdown (.call c) = [] := rfl

@[simp] theorem Ev.shutdown_handled (h : Handled) : Ev.shutdown (.handled h) = [] := rfl

/-- `peers_to_dc`, with what puts peers in and takes them out. -/
def dcFlow : Flow PeerId where
  F b := b.peersToDc
  In _ := Ev.enqueued
  Out := Ev.shutdown

@[simp] theorem shutdown_lift {α ε : Type} (s : SubBehaviour α ε) (a : NBAction α ε) :
    Ev.shutdown (.returned (s.lift a)) = [] := by
  cases a with
  | notifyHandler _ handler _ => cases handler <;> rfl
  | _ => rfl

theorem dcFlow_step {b b' : Behaviour} {t : List Ev} (h : Step b t b') :
    dcFlow.Conserved b t b' := by
  cases h <;> simp_all [Flow.Conserved, dcFlow, Ev.enqueued, onGossipEvent_eq, onIdentifyEvent_eq,
    ping, sendMetaDataRequest] <;> rfl

/-- Along every run, the peers returned in `Shutdown(None)` so far, followed by the queue, are
the queue at the start followed by every peer queued, in order. -/
theorem run_peersToDc (b : Behaviour) (ops : List Op) :
    b.peersToDc ++ (b.run ops).1.flatMap Ev.enqueued =
      (b.run ops).1.flatMap Ev.shutdown ++ (b.run ops).2.peersToDc :=
  dcFlow.steps dcFlow_step (run_steps b ops)

theorem SubBehaviour.lift_ne_shutdown {α ε : Type} (s : SubBehaviour α ε) (a : NBAction α ε)
    (p : PeerId) (h : NotifyHandler) (o : Option (RequestId × RPCRequest)) :
    s.lift a ≠ some (.notifyHandler p h (.shutdown o)) := by
  cases a <;> simp [SubBehaviour.lift]

/-- `Shutdown(None)` is only ever sent to all connections. -/
theorem run_shutdown_none_all (b : Behaviour) (ops : List Op) (p : PeerId) (h : NotifyHandler)
    (hm : .returned (some (.notifyHandler p h (.shutdown none))) ∈ (b.run ops).1) : h = .all := by
  refine (run_steps b ops).forall_mem (Q := fun e => ∀ p h,
    e = .returned (some (.notifyHandler p h (.shutdown none))) → h = .all) ?_ _ hm p h rfl
  intro b t b' hs
  cases hs <;> simp [SubBehaviour.lift_ne_shutdown]

/-- The goodbye answering `DisconnectPeer(p)`, to any one connection of `p`. -/
def goodbye (p : PeerId) : Action :=
  .notifyHandler p .any (.shutdown (some (.behaviour, .goodbye [])))

/-- Every `DisconnectPeer(p)` the peer manager yields is answered by the same poll with the
goodbye. -/
theorem run_disconnectPeer_answered (b : Behaviour) (ops : List Op) (p : PeerId) :
    Answered (.handled (.peerManager (.disconnectPeer p))) (.returned (some (goodbye p)))
      (b.run ops).1 :=
  (run_steps b ops).answered_of_step (by simp) fun s _ => by cases s <;> simp_all [goodbye]

/-- `peers_to_dc` along a run: a `DisconnectPeer(p)` is answered in its poll by the goodbye and
queues `p`; a Goodbye request queues its peer and sends nothing; the peers of the
`Shutdown(None)` actions returned so far, followed by the queue, are the queue at the start
followed by the peers queued, in order; and `Shutdown(None)` goes to all connections only. -/
theorem run_disconnects_fifo (b : Behaviour) (ops : List Op) :
    (∀ p, Answered (.handled (.peerManager (.disconnectPeer p))) (.returned (some (goodbye p)))
      (b.run ops).1) ∧
    (∀ (b : Behaviour) p c s r,
      (b.onRpcEvent ⟨p, c, .ok (.request s (.goodbye r))⟩).peersToDc = b.peersToDc ++ [p] ∧
        (b.onRpcEvent ⟨p, c, .ok (.request s (.goodbye r))⟩).mothraRpc = b.mothraRpc) ∧
    b.peersToDc ++ (b.run ops).1.flatMap Ev.enqueued =
      (b.run ops).1.flatMap Ev.shutdown ++ (b.run ops).2.peersToDc ∧
    (∀ p h, .returned (some (.notifyHandler p h (.shutdown none))) ∈ (b.run ops).1 → h = .all) :=
  ⟨run_disconnectPeer_answered b ops,
    fun b p c s r => by simp [rpcDisconnects, rpcReplies],
    run_peersToDc b ops, run_shutdown_none_all b ops⟩

/-! ## Duplicates -/

/-- Two Goodbye requests from peer `1` reach the RPC queue, then an application request; the poll
handles both Goodbyes and returns the request. -/
def goodbyeTwice : List Op :=
  [.call (.injectEvent 1 0 (.delegate (.rpc (.ok (.request 0 (.goodbye [])))))),
   .call (.injectEvent 1 0 (.delegate (.rpc (.ok (.request 1 (.goodbye [])))))),
   .call (.sendRequest 2 (.application 0) (.status [])),
   .poll]

theorem goodbyeTwice_queues_peer_twice :
    ((Behaviour.new ⟨[], []⟩).run goodbyeTwice).2.peersToDc.count 1 = 2 := by
  simp [goodbyeTwice, run, exec, call, new, injectEvent_eq, injected, sendRequest,
    Request.toRPCRequest, RPC.new, RPC.sendRequest, poll, Polled.orElse,
    SubBehaviour.pollBehaviour, gossipsubBehaviour, rpcBehaviour, onRpcEvent,
    PeerManager.disconnectingPeer, PeerManager.notify]

/-- The copies of a peer in `peers_to_dc` are those queued, less those shut down. -/
theorem run_peersToDc_count (b : Behaviour) (ops : List Op) (p : PeerId) :
    (b.run ops).2.peersToDc.count p + ((b.run ops).1.flatMap Ev.shutdown).count p =
      b.peersToDc.count p + ((b.run ops).1.flatMap Ev.enqueued).count p := by
  have h := congrArg (List.count p) (run_peersToDc b ops)
  simp only [List.count_append] at h
  omega

/-! ## The peer manager waits for the queue -/

/-- Where a peer-manager command shows in a step, it shows first. -/
theorem Step.peerManager_first {b b' : Behaviour} {t : List Ev} (h : Step b t b')
    (e : PeerManagerEvent)
    (A B : List Ev) (ht : t = A ++ .handled (.peerManager e) :: B) : A = [] := by
  cases h <;> rcases A with _ | ⟨_, _ | ⟨_, _⟩⟩ <;> simp_all

/-- A step that consumes a peer-manager command starts with `peers_to_dc` empty. -/
theorem Step.peersToDc_of_peerManager {b b' : Behaviour} {e : PeerManagerEvent} {t : List Ev}
    (h : Step b (.handled (.peerManager e) :: t) b') : b.peersToDc = [] := by
  cases h <;> assumption

/-- A step either returns the shutdown of the head of the queue or returns no shutdown. -/
theorem Step.shutdown_or_none {b b' : Behaviour} {t : List Ev} (h : Step b t b') :
    (∃ p rest, b.peersToDc = p :: rest ∧
      t = [.returned (some (.notifyHandler p .all (.shutdown none)))]) ∨
      t.flatMap Ev.shutdown = [] := by
  cases h <;> first | exact .inl ⟨_, _, ‹_›, rfl⟩ | exact .inr rfl | exact .inr (by simp)

/-- From a state whose queue starts with `p`, a step either returns the shutdown of `p` or
consumes no peer-manager command and leaves `p` at the head. -/
theorem Step.peersToDc_head {b b' : Behaviour} {t : List Ev} (h : Step b t b') {p : PeerId}
    {rest : List PeerId} (hd : b.peersToDc = p :: rest) :
    t = [.returned (some (.notifyHandler p .all (.shutdown none)))] ∨
      (∀ e, .handled (.peerManager e) ∉ t) ∧ ∃ rest', b'.peersToDc = p :: rest' := by
  rcases h.shutdown_or_none with ⟨p', rest', hd', rfl⟩ | hn
  · rw [hd, List.cons.injEq] at hd'
    exact .inl (by rw [hd'.1])
  · refine .inr ⟨fun e he => ?_, ?_⟩
    · obtain ⟨A, B, rfl⟩ := List.append_of_mem he
      obtain rfl := h.peerManager_first e A B rfl
      simp [h.peersToDc_of_peerManager] at hd
    · have hc : b.peersToDc ++ t.flatMap Ev.enqueued = t.flatMap Ev.shutdown ++ b'.peersToDc :=
        dcFlow_step h
      rw [hn, List.nil_append, hd] at hc
      exact ⟨_, hc.symm⟩

/-- From a state whose queue starts with `p`, the shutdown of `p` is returned before the peer
manager is polled again. -/
theorem Steps.shutdown_before_peerManager {b b' : Behaviour} {t : List Ev} (h : Steps b t b')
    {p : PeerId} {rest : List PeerId} (hd : b.peersToDc = p :: rest) {e : PeerManagerEvent}
    {A B : List Ev} (ht : t = A ++ .handled (.peerManager e) :: B) :
    .returned (some (.notifyHandler p .all (.shutdown none))) ∈ A := by
  induction h generalizing rest A with
  | refl => simp at ht
  | step s _ ih =>
    rcases s.peersToDc_head hd with rfl | ⟨hn, rest', hd'⟩
    · rcases A with _ | ⟨a, A⟩ <;> simp_all
    · rcases List.append_eq_append_iff.1 ht with ⟨A', rfl, rfl⟩ | ⟨C, rfl, hC⟩
      · exact List.mem_append_right _ (ih hd' rfl)
      · cases C with
        | nil => exact absurd (ih hd' (A := []) (by simpa using hC.symm)) (List.not_mem_nil _)
        | cons z C =>
          obtain ⟨rfl, -⟩ := List.cons.inj hC
          exact absurd (List.mem_append_right _ (List.mem_cons_self _ _)) (hn e)

/-- What `custom_poll` returns for a command of the peer manager; Ping and MetaData are sent on
the RPC queue instead. -/
def PeerManagerEvent.action : PeerManagerEvent → Option Action
  | .dial peerId => some (.dialPeer peerId .disconnected)
  | .socketUpdated address => some (.reportObservedAddr address)
  | .status peerId => some (.generateEvent (.statusPeer peerId))
  | .disconnectPeer peerId => some (goodbye peerId)
  | .ping _ | .metaData _ => none

/-- A step that consumes a Ping or MetaData command of the peer manager shows nothing else and
puts the command's request at the back of the RPC queue. -/
theorem Step.request_of_peerManager {b b' : Behaviour} {c : PeerManagerEvent} {t : List Ev}
    (h : Step b (.handled (.peerManager c) :: t) b') (hc : c.action = none) :
    t = [] ∧ ∃ p req, b'.mothraRpc.events =
        b.mothraRpc.events ++ [.notifyHandler p .any (.request .behaviour req)] ∧
      (c = .ping p ∧ req = .ping b.pingData ∨ c = .metaData p ∧ req = .metaData) := by
  cases h with
  | ping => exact ⟨rfl, _, _, by simp [Behaviour.ping], .inl ⟨rfl, rfl⟩⟩
  | metaData => exact ⟨rfl, _, _, by simp [sendMetaDataRequest], .inr ⟨rfl, rfl⟩⟩
  | _ => simp [PeerManagerEvent.action] at hc

namespace Steps

variable {b b' : Behaviour} {t : List Ev} (h : Steps b t b')
include h

/-- The peer manager is polled only from states with `peers_to_dc` empty. -/
theorem peersToDc_at_peerManager {pre post : List Ev} {e : PeerManagerEvent}
    (ht : t = pre ++ .handled (.peerManager e) :: post) :
    ∃ s, Steps b pre s ∧ s.peersToDc = [] := by
  obtain ⟨s, _, _, _, h₁, h₂, -⟩ := (ht ▸ h).split_before (Step.peerManager_first · e)
  exact ⟨s, h₁, h₂.peersToDc_of_peerManager⟩

/-- Between a `DisconnectPeer(p)` and the next command of the peer manager come, first, the
goodbye to `p`, and then the shutdown of `p`. -/
theorem shutdown_after_disconnectPeer {p : PeerId} {c : PeerManagerEvent} {pre mid post : List Ev}
    (ht : t = pre ++ .handled (.peerManager (.disconnectPeer p)) ::
      (mid ++ .handled (.peerManager c) :: post)) :
    mid.head? = some (.returned (some (goodbye p))) ∧
      .returned (some (.notifyHandler p .all (.shutdown none))) ∈ mid := by
  obtain ⟨s, t, s', B', -, h₂, h₃, hB⟩ :=
    (ht ▸ h).split_before (Step.peerManager_first · (.disconnectPeer p))
  cases h₂
  cases mid with
  | nil => simp at hB
  | cons m mid =>
    obtain ⟨rfl, rfl⟩ := List.cons.inj hB
    exact ⟨rfl, List.mem_cons_of_mem _ (h₃.shutdown_before_peerManager rfl rfl)⟩

/-- A command realised by a returned action is answered by it at once. -/
theorem action_answered {c : PeerManagerEvent} {a : Action} (hc : c.action = some a) :
    Answered (.handled (.peerManager c)) (.returned (some a)) t :=
  h.answered_of_step (by simp) fun s _ => by
    cases s <;> cases c <;> simp_all [PeerManagerEvent.action, goodbye]

/-- A Ping or MetaData command of the peer manager is handled by a step of its own, between the
steps before it and those after it, that puts its request at the back of the RPC queue. -/
theorem request_at_peerManager {c : PeerManagerEvent} {pre post : List Ev} (hc : c.action = none)
    (ht : t = pre ++ .handled (.peerManager c) :: post) :
    ∃ s s', Steps b pre s ∧ Step s [.handled (.peerManager c)] s' ∧ Steps s' post b' ∧
      ∃ p req, s'.mothraRpc.events =
          s.mothraRpc.events ++ [.notifyHandler p .any (.request .behaviour req)] ∧
        (c = .ping p ∧ req = .ping b.pingData ∨ c = .metaData p ∧ req = .metaData) := by
  obtain ⟨s, t, s', B', h₁, h₂, h₃, rfl⟩ := (ht ▸ h).split_before (Step.peerManager_first · c)
  have hp : s.pingData = b.pingData := congrArg Prod.fst h₁.payloads
  obtain ⟨rfl, p, req, hq, hreq⟩ := h₂.request_of_peerManager hc
  exact ⟨s, s', h₁, h₂, h₃, p, req, hq, hp ▸ hreq⟩

end Steps

/-- Along every run: the peer manager is polled only with `peers_to_dc` empty; between a
`DisconnectPeer(p)` and any later command of the peer manager, the goodbye to `p` comes first
and the `Shutdown(None)` of `p` is returned too; a command realised by a returned action is
answered by it at once; and a Ping or MetaData command is handled by a step of its own that
puts one request, for the command's peer, at the back of the RPC queue, so the request is
returned after every send queued before it and after the goodbye and shutdown of an earlier
`DisconnectPeer`. -/
theorem run_peerManager_after_disconnect (b : Behaviour) (ops : List Op) :
    (∀ pre e post, (b.run ops).1 = pre ++ .handled (.peerManager e) :: post →
      ∃ s, Steps b pre s ∧ s.peersToDc = []) ∧
    (∀ p c pre mid post, (b.run ops).1 =
        pre ++ .handled (.peerManager (.disconnectPeer p)) :: (mid ++ .handled (.peerManager c) :: post) →
      mid.head? = some (.returned (some (goodbye p))) ∧
        .returned (some (.notifyHandler p .all (.shutdown none))) ∈ mid) ∧
    (∀ c a, c.action = some a →
      Answered (.handled (.peerManager c)) (.returned (some a)) (b.run ops).1) ∧
    (∀ c pre post, c.action = none → (b.run ops).1 = pre ++ .handled (.peerManager c) :: post →
      ∃ s s', Steps b pre s ∧ Step s [.handled (.peerManager c)] s' ∧ Steps s' post (b.run ops).2 ∧
        ∃ p req, s'.mothraRpc.events =
            s.mothraRpc.events ++ [.notifyHandler p .any (.request .behaviour req)] ∧
          (c = .ping p ∧ req = .ping b.pingData ∨ c = .metaData p ∧ req = .metaData)) :=
  have hs := run_steps b ops
  ⟨fun _ _ _ => hs.peersToDc_at_peerManager, fun _ _ _ _ _ => hs.shutdown_after_disconnectPeer,
    fun _ _ => hs.action_answered, fun _ _ _ hc ht => hs.request_at_peerManager hc ht⟩

end Mothra
