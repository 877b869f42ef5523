import Mothra.Steps

/-!
# The work of one poll

`poll` runs the gossipsub loop, then the RPC loop, then the identify loop, then the peer-manager
loop of `custom_poll`, each only when the ones before it fell through. None of the handlers puts
a `GenerateEvent` in a queue, and none gives the peer manager a command, so one poll hands on only
what was queued when it started: a prefix of the gossipsub events, then the RPC messages, then
the identify events, then the peer-manager commands (`Behaviour.queued`), in that order, each at
most once; and all of them when it returns `Pending` (`poll_handled_queued`).

1. `SubBehaviour.pollBehaviour_handsOn`: a `poll_behaviour!` loop hands on a prefix of its
   queue's events, all of them when it falls through.
2. `SubBehaviour.pollBehaviour_frame`: a loop leaves alone what its handler leaves alone.
3. `Polled.HandsOn.orElse`: running a part only when the one before fell through hands on a
   prefix of what the first may, then what the second may.
-/

namespace Mothra

/-- What the loops of `poll` may hand on, in the order they run: the events of gossipsub's
`GenerateEvent`s, the messages of RPC's, the events of identify's, then the peer manager's
pending commands. -/
def Behaviour.queued (b : Behaviour) : List Handled :=
  (generated b.gossipsub.pending).map .gossipsub ++ (generated b.mothraRpc.events).map .rpc ++
    (generated b.identify.pending).map .identify ++ b.peerManager.pending.map .peerManager

/-- A part of `poll` hands on a prefix of `X`, and all of `X` when it falls through. -/
def Polled.HandsOn (o : Polled) (X : List Handled) : Prop :=
  o.handled <+: X ∧ (o.result = none → o.handled = X)

theorem Polled.HandsOn.orElse {o : Polled} {k : Behaviour → Polled} {X Y : List Handled}
    (ho : o.HandsOn X) (hk : o.result = none → (k o.state).HandsOn Y) :
    (o.orElse k).HandsOn (X ++ Y) := by
  unfold Polled.orElse
  cases hr : o.result with
  | some a => exact ⟨ho.1.trans (List.prefix_append X Y), fun h => by simp [hr] at h⟩
  | none =>
    obtain ⟨hk₁, hk₂⟩ := hk hr
    dsimp only
    rw [ho.2 hr]
    exact ⟨(List.prefix_append_right_inj X).2 hk₁, fun h => by rw [hk₂ h]⟩

/-- Handing on `x` before a part hands on `x` before what it may. -/
theorem Polled.HandsOn.cons {o : Polled} {X : List Handled} (h : o.HandsOn X) (x : Handled) :
    ({ o with handled := x :: o.handled } : Polled).HandsOn (x :: X) :=
  ⟨List.cons_prefix_cons.2 ⟨rfl, h.1⟩, fun hn => congrArg (x :: ·) (h.2 hn)⟩

/-- A composition that falls through: both parts fell through, and it is the second run from the
first's state, after what the first handed on. -/
theorem Polled.orElse_result_none {o : Polled} {k : Behaviour → Polled}
    (h : (o.orElse k).result = none) :
    o.result = none ∧ (k o.state).result = none ∧
      o.orElse k = { k o.state with handled := o.handled ++ (k o.state).handled } := by
  unfold Polled.orElse at h ⊢
  cases ho : o.result <;> simp_all

theorem Polled.handsOn_of_handled_nil {o : Polled} (h : o.handled = []) (hr : o.result ≠ none)
    (X : List Handled) : o.HandsOn X :=
  ⟨h ▸ List.nil_prefix, fun hn => absurd hn hr⟩

namespace SubBehaviour

variable {α ε : Type} (s : SubBehaviour α ε)

/-- A loop hands on a prefix of the events of its queue's `GenerateEvent`s, all of them when it
falls through. -/
theorem pollBehaviour_handsOn (b : Behaviour) :
    (s.pollBehaviour b).HandsOn ((generated (s.queue b)).map s.handled) := by
  rcases hq : s.queue b with _ | ⟨a, rest⟩
  · rw [pollBehaviour_nil hq]
    exact ⟨List.prefix_refl _, fun _ => rfl⟩
  · rw [pollBehaviour_cons hq]
    cases a with
    | generateEvent e =>
      have ih := pollBehaviour_handsOn (s.onEvent (s.setQueue b rest) e)
      rw [s.generated_onEvent, s.queue_setQueue] at ih
      exact ih.cons _
    | _ => exact Polled.handsOn_of_handled_nil rfl (by simp [lift]) _
termination_by (generated (s.queue b)).length
decreasing_by rw [s.generated_onEvent, s.queue_setQueue, hq]; simp

/-- A loop leaves alone what neither its queue update nor its handler touches. -/
theorem pollBehaviour_frame {β : Type} (f : Behaviour → β) (hq : ∀ b q, f (s.setQueue b q) = f b)
    (he : ∀ b e, f (s.onEvent b e) = f b) (b : Behaviour) : f (s.pollBehaviour b).state = f b := by
  rcases hb : s.queue b with _ | ⟨a, rest⟩
  · rw [pollBehaviour_nil hb]
  · rw [pollBehaviour_cons hb]
    cases a with
    | generateEvent e =>
      simpa [he, hq] using pollBehaviour_frame f hq he (s.onEvent (s.setQueue b rest) e)
    | _ => exact hq b rest
termination_by (generated (s.queue b)).length
decreasing_by rw [s.generated_onEvent, s.queue_setQueue, hb]; simp

/-- A loop falls through only on its emptied queue. -/
theorem queue_of_result_none (b : Behaviour) (h : (s.pollBehaviour b).result = none) :
    s.queue (s.pollBehaviour b).state = [] := by
  rcases hb : s.queue b with _ | ⟨a, rest⟩
  · rwa [pollBehaviour_nil hb]
  · rw [pollBehaviour_cons hb] at h ⊢
    cases a with
    | generateEvent e => exact queue_of_result_none (s.onEvent (s.setQueue b rest) e) h
    | _ => simp [lift] at h
termination_by (generated (s.queue b)).length
decreasing_by rw [s.generated_onEvent, s.queue_setQueue, hb]; simp

/-- What a loop hands on are events of its own kind, so a function that ignores them sees
nothing. -/
theorem flatMap_handled_eq_nil {β : Type} {f : Handled → List β} (hf : ∀ e, f (s.handled e) = [])
    (b : Behaviour) : (s.pollBehaviour b).handled.flatMap f = [] :=
  List.flatMap_eq_nil_iff.2 fun _ hx => by
    obtain ⟨e, -, rfl⟩ := List.mem_map.1 ((s.pollBehaviour_handsOn b).1.subset hx)
    exact hf e

end SubBehaviour

namespace Behaviour

theorem pollPeerManager_handsOn (b : Behaviour) :
    (pollPeerManager b).HandsOn (b.peerManager.pending.map .peerManager) := by
  rcases h : b.peerManager.pending with _ | ⟨e, rest⟩
  · rw [pollPeerManager_nil h]
    exact ⟨List.prefix_refl _, fun _ => rfl⟩
  · rw [pollPeerManager_cons h]
    cases e with
    | ping p | metaData p => exact (pollPeerManager_handsOn _).cons _
    | _ => exact ⟨List.cons_prefix_cons.2 ⟨rfl, List.nil_prefix⟩, fun hn => by simp at hn⟩
termination_by b.peerManager.pending.length
decreasing_by all_goals simp [h, Behaviour.ping, sendMetaDataRequest]

theorem customPoll_handsOn (b : Behaviour) :
    (customPoll b).HandsOn (b.peerManager.pending.map .peerManager) := by
  unfold customPoll
  split
  · exact Polled.handsOn_of_handled_nil rfl (by simp) _
  · rw [← List.append_nil (b.peerManager.pending.map _)]
    refine (pollPeerManager_handsOn b).orElse fun _ => ?_
    split
    · exact Polled.handsOn_of_handled_nil rfl (by simp) _
    · exact ⟨List.prefix_refl _, fun _ => rfl⟩

theorem poll_handsOn (b : Behaviour) : b.poll.HandsOn b.queued := by
  have hg := gossipsubBehaviour.pollBehaviour_frame
    (fun b => (b.mothraRpc, b.identify, b.peerManager.pending)) (fun _ _ => rfl)
    (fun b e => by simp [gossipsubBehaviour, onGossipEvent_eq]) b
  simp only [Prod.mk.injEq] at hg
  unfold poll
  rw [queued, List.append_assoc, List.append_assoc]
  refine (gossipsubBehaviour.pollBehaviour_handsOn b).orElse fun _ => ?_
  set b₁ := (gossipsubBehaviour.pollBehaviour b).state
  have hr := rpcBehaviour.pollBehaviour_frame (fun b => (b.identify, b.peerManager.pending))
    (fun _ _ => rfl) (fun b e => by simp [rpcBehaviour]) b₁
  simp only [Prod.mk.injEq] at hr
  rw [← hg.1, ← hg.2.1, ← hg.2.2]
  refine (rpcBehaviour.pollBehaviour_handsOn b₁).orElse fun _ => ?_
  set b₂ := (rpcBehaviour.pollBehaviour b₁).state
  have hi := identifyBehaviour.pollBehaviour_frame (fun b => b.peerManager.pending)
    (fun _ _ => rfl) (fun b e => by simp [identifyBehaviour, onIdentifyEvent_eq]) b₂
  rw [← hr.1, ← hr.2, ← hi]
  exact (identifyBehaviour.pollBehaviour_handsOn b₂).orElse fun _ => customPoll_handsOn _

/-- One poll, from any state, hands on in order a prefix of the gossipsub events, then the RPC
messages, then the identify events, then the peer-manager commands queued when it started, each
at most once, and all of them when it returns `Pending`: no more events than were queued. -/
theorem poll_handled_queued (b : Behaviour) :
    b.poll.handled <+: b.queued ∧ (b.poll.result = none → b.poll.handled = b.queued) ∧
      b.poll.handled.length ≤ (generated b.gossipsub.pending).length +
        (generated b.mothraRpc.events).length + (generated b.identify.pending).length +
        b.peerManager.pending.length := by
  obtain ⟨h₁, h₂⟩ := poll_handsOn b
  refine ⟨h₁, h₂, h₁.length_le.trans ?_⟩
  simp [queued, Nat.add_assoc]

end Behaviour

end Mothra

/-!
## What `Pending` leaves behind

`poll` returns `Pending` from the last step of `custom_poll` only, when gossipsub and identify
are `Pending`, `peers_to_dc` is empty, the peer manager is `Pending` and the event queue is
empty. The RPC queue is drained before `custom_poll` runs, and the peer manager's Ping and
MetaData commands then queue requests on it in the same call: a `Pending` poll leaves on it
just those requests, in order (`poll_pending`). They stay behind the `Pending`, and `RPC::poll`
ignores its context, so no waker is registered for them (`pingThenPoll_pending_with_request`).
-/

namespace Mothra

open Behaviour

/-- Only the last step of `custom_poll` shows `Pending`; it changes nothing, and it is taken
with every queue but the RPC queue empty. -/
theorem Step.of_returned_none {b b' : Behaviour} {t : List Ev} (h : Step b t b')
    (ht : .returned none ∈ t) :
    t = [.returned none] ∧ b' = b ∧ b.gossipsub.pending = [] ∧ b.identify.pending = [] ∧
      b.peersToDc = [] ∧ b.peerManager.pending = [] ∧ b.events = [] := by
  cases h with
  | gossipsubReturn _ ha | rpcReturn _ _ ha | identifyReturn _ _ _ ha =>
    simp only [List.mem_singleton, Ev.returned.injEq] at ht
    exact absurd ht.symm (SubBehaviour.lift_ne_none _ ha)
  | _ => simp_all

/-- The RPC requests `custom_poll` queues for what it hands on: a Ping request for a Ping
command (`ping`), a MetaData request for a MetaData command (`send_meta_data_request`). -/
def Handled.rpcRequests (pingData : Bytes) : Handled → List RPCAction
  | .peerManager (.ping peerId) => [.notifyHandler peerId .any (.request .behaviour (.ping pingData))]
  | .peerManager (.metaData peerId) => [.notifyHandler peerId .any (.request .behaviour .metaData)]
  | _ => []

/-- A peer-manager loop that falls through has queued the requests of the commands it handed
on. -/
theorem Behaviour.pollPeerManager_rpc_of_result_none (b : Behaviour)
    (h : (pollPeerManager b).result = none) :
    (pollPeerManager b).state.mothraRpc.events =
      b.mothraRpc.events ++ (pollPeerManager b).handled.flatMap (Handled.rpcRequests b.pingData) := by
  rcases hp : b.peerManager.pending with _ | ⟨e, rest⟩
  · simp [pollPeerManager_nil hp]
  · rw [pollPeerManager_cons hp] at h ⊢
    cases e with
    | ping p | metaData p =>
      dsimp only at h ⊢
      rw [pollPeerManager_rpc_of_result_none _ h]
      simp [Handled.rpcRequests, Behaviour.ping, sendMetaDataRequest]
    | _ => simp at h
termination_by b.peerManager.pending.length
decreasing_by all_goals simp [hp, Behaviour.ping, sendMetaDataRequest]

theorem Behaviour.customPoll_rpc_of_result_none {b : Behaviour} (h : (customPoll b).result = none) :
    (customPoll b).state.mothraRpc.events =
      b.mothraRpc.events ++ (customPoll b).handled.flatMap (Handled.rpcRequests b.pingData) := by
  unfold customPoll at h ⊢
  rcases hd : b.peersToDc with _ | ⟨p, rest⟩
  · simp only [hd] at h ⊢
    obtain ⟨hp, h, e⟩ := Polled.orElse_result_none h
    rw [e]
    rcases he : (pollPeerManager b).state.events with _ | ⟨x, rest⟩
    · simp [he, pollPeerManager_rpc_of_result_none b hp]
    · simp [he] at h
  · simp [hd] at h

/-- A poll that returns `Pending` leaves on the RPC queue just the requests of the Ping and
MetaData commands it handed on. -/
theorem Behaviour.poll_rpc_of_result_none {b : Behaviour} (h : b.poll.result = none) :
    b.poll.state.mothraRpc.events = b.poll.handled.flatMap (Handled.rpcRequests b.pingData) := by
  unfold poll at h ⊢
  obtain ⟨-, h, e⟩ := Polled.orElse_result_none h
  rw [e]
  obtain ⟨hr, h, e⟩ := Polled.orElse_result_none h
  rw [e]
  obtain ⟨-, h, e⟩ := Polled.orElse_result_none h
  rw [e]
  set s₁ := (gossipsubBehaviour.pollBehaviour b).state
  set s₂ := (rpcBehaviour.pollBehaviour s₁).state
  have hq : s₂.mothraRpc.events = [] := rpcBehaviour.queue_of_result_none s₁ hr
  have h₁ : s₁.pingData = b.pingData := gossipsubBehaviour.pollBehaviour_frame (·.pingData)
    (fun _ _ => rfl) (fun b e => by simp [gossipsubBehaviour, onGossipEvent_eq]) b
  have h₂ : s₂.pingData = s₁.pingData := rpcBehaviour.pollBehaviour_frame (·.pingData)
    (fun _ _ => rfl) (fun b e => by simp [rpcBehaviour]) s₁
  have h₃ := identifyBehaviour.pollBehaviour_frame (fun b => (b.mothraRpc, b.pingData))
    (fun _ _ => rfl) (fun b e => by simp [identifyBehaviour, onIdentifyEvent_eq]) s₂
  simp only [Prod.mk.injEq] at h₃
  rw [customPoll_rpc_of_result_none h, h₃.1, h₃.2, hq, h₂, h₁]
  -- the sub-behaviours hand on no peer-manager command
  simp [gossipsubBehaviour.flatMap_handled_eq_nil (f := Handled.rpcRequests b.pingData) fun _ => rfl,
    rpcBehaviour.flatMap_handled_eq_nil (f := Handled.rpcRequests b.pingData) fun _ => rfl,
    identifyBehaviour.flatMap_handled_eq_nil (f := Handled.rpcRequests b.pingData) fun _ => rfl]

/-- When `poll` returns `Pending`, gossipsub, identify and the peer manager are `Pending`,
`peers_to_dc` and the event queue are empty, and the RPC queue holds just the requests that the
peer manager's Ping and MetaData commands handed on in this poll queued, in order. -/
theorem poll_pending (b : Behaviour) (h : b.poll.result = none) :
    b.poll.state.gossipsub.pending = [] ∧ b.poll.state.identify.pending = [] ∧
      b.poll.state.peersToDc = [] ∧ b.poll.state.peerManager.pending = [] ∧
      b.poll.state.events = [] ∧
      b.poll.state.mothraRpc.events = b.poll.handled.flatMap (Handled.rpcRequests b.pingData) := by
  have hs := poll_steps b
  rw [Polled.trace, h] at hs
  obtain ⟨s, t, s', B', -, h₂, h₃, hB⟩ := hs.split_before (B := []) fun h A B ht => by
    obtain ⟨rfl, -⟩ := h.of_returned_none (by simp [ht])
    rcases A with _ | ⟨_, _ | _⟩ <;> simp_all
  obtain ⟨rfl, rfl⟩ := List.append_eq_nil.1 hB.symm
  obtain ⟨-, rfl, hg, hi, hd, hp, he⟩ := h₂.of_returned_none (.head _)
  rw [h₃.eq_of_nil]
  exact ⟨hg, hi, hd, hp, he, h₃.eq_of_nil ▸ poll_rpc_of_result_none h⟩

/-- Gossipsub yields an `Unsubscribed` event, identify a `Sent` event, and the peer manager a
Ping for peer `7` and a MetaData request for peer `8`: work for each loop of `poll`, none of which
returns an action. -/
def quietWork : List Op :=
  [.call (.gossipsubYields [.generateEvent (.unsubscribed 1 "t")]),
   .call (.identifyYields [.generateEvent (.sent 2)]),
   .call (.peerManagerYields [.ping 7, .metaData 8])]

theorem poll_pending_quietWork :
    ((Behaviour.new ⟨[], []⟩).run quietWork).2.poll.result = none ∧
      (((Behaviour.new ⟨[], []⟩).run quietWork).2.poll.state.gossipsub.pending = [] ∧
        ((Behaviour.new ⟨[], []⟩).run quietWork).2.poll.state.identify.pending = [] ∧
        ((Behaviour.new ⟨[], []⟩).run quietWork).2.poll.state.peersToDc = [] ∧
        ((Behaviour.new ⟨[], []⟩).run quietWork).2.poll.state.peerManager.pending = [] ∧
        ((Behaviour.new ⟨[], []⟩).run quietWork).2.poll.state.events = [] ∧
        ((Behaviour.new ⟨[], []⟩).run quietWork).2.poll.state.mothraRpc.events =
          ((Behaviour.new ⟨[], []⟩).run quietWork).2.poll.handled.flatMap
            (Handled.rpcRequests ((Behaviour.new ⟨[], []⟩).run quietWork).2.pingData)) :=
  have h : ((Behaviour.new ⟨[], []⟩).run quietWork).2.poll.result = none := by
    simp [quietWork, run, exec, call, new, RPC.new, poll, Polled.orElse, SubBehaviour.pollBehaviour,
      gossipsubBehaviour, rpcBehaviour, identifyBehaviour, customPoll, pollPeerManager,
      PeerManager.pollNextUnpin, onGossipEvent, onIdentifyEvent, Behaviour.ping,
      sendMetaDataRequest, RPC.sendRequest, SubBehaviour.lift]
  ⟨h, poll_pending _ h⟩

/-- The peer manager yields a Ping for peer `7`; the composite is then polled. -/
def pingThenPoll : List Op := [.call (.peerManagerYields [.ping 7]), .poll]

theorem pingThenPoll_pending_with_request (g : NetworkGlobals) :
    ((Behaviour.new g).run pingThenPoll).1.getLast? = some (.returned none) ∧
      ((Behaviour.new g).run pingThenPoll).2.mothraRpc.events =
        [.notifyHandler 7 .any (.request .behaviour (.ping g.pingData))] := by
  simp [pingThenPoll, run, exec, call, new, RPC.new, poll, Polled.orElse, Polled.trace,
    SubBehaviour.pollBehaviour, gossipsubBehaviour, rpcBehaviour, identifyBehaviour, customPoll,
    pollPeerManager, PeerManager.pollNextUnpin, Behaviour.ping, RPC.sendRequest]

end Mothra
