import Mothra.Events
import Mothra.Work

/-!
# Polls with no new input

The swarm polls the composite until it returns `Pending`; between polls the calls of a run bring
new input. With none, polling must come to rest.

Across polls, a handler adds at most one entry to the queues for the event it takes off, and a
peer-manager command at most one besides what it returns, so every step with no new input
lowers the backlog (`Behaviour.backlog`, the peer manager's commands counted twice) by the
actions it returns (`Step.backlog`). However often the composite is polled with no new input, it
returns at most its backlog of actions, and so returns `Pending` within one poll more
(`run_polls_backlog`).

Weighing a `GenerateEvent` twice and any other queued action once (`Behaviour.pendingWork`), every
step with no new input lowers the work left (`Step.pendingWork_lt`), but the `Pending` of a poll
that found every queue empty (`Behaviour.idle_of_poll`), which changes nothing
(`Behaviour.poll_of_idle`). So every poll with work left lowers it, and polling drains the
composite within as many polls as it has work left (`run_polls_drain`).

With everything drained, the first-in first-out conservation of the queues (`Mothra.Flow`)
becomes delivery: within as many polls as there is work left, every RPC send queued or produced
is returned, every RPC message queued is handed to `on_rpc_event`, every public event is
returned and every peer to disconnect is shut down, each once and in order
(`run_polls_delivered`).
-/

namespace Mothra

/-! ## Actions returned -/

/-- What the queues hold, a peer-manager command counted twice: it may queue a request, or
return an action and queue a peer to disconnect. -/
def Behaviour.backlog (b : Behaviour) : ℕ :=
  b.gossipsub.pending.length + b.mothraRpc.events.length + b.identify.pending.length +
    2 * b.peerManager.pending.length + b.peersToDc.length + b.events.length

/-- An action returned to the swarm. -/
def Ev.isAction : Ev → Bool
  | .returned (some _) => true
  | _ => false

/-- The answer of a poll, an action or `Pending`. -/
def Ev.isReturned : Ev → Bool
  | .returned _ => true
  | _ => false

theorem length_gossipEvents_le (e : GossipsubEvent) : (Behaviour.gossipEvents e).length ≤ 1 := by
  cases e <;> simp [Behaviour.gossipEvents]

/-- `on_rpc_event` queues at most one reply, public event or peer to disconnect. -/
theorem length_rpcOutputs_le (pd md : Bytes) (m : RPCMessage) :
    (rpcReplies pd md m).length + (rpcEvents m).length + (rpcDisconnects m).length ≤ 1 := by
  obtain ⟨p, c, (⟨_, _, _⟩ | ⟨i, _, _⟩) | ⟨_, (_ | _ | _ | _)⟩ | ⟨i, (_ | _ | _)⟩⟩ := m <;>
    simp only [rpcReplies, rpcEvents, rpcDisconnects] <;> (try split_ifs) <;> simp

theorem isAction_lift {α ε : Type} (s : SubBehaviour α ε) {a : NBAction α ε}
    (ha : a.generated? = none) : Ev.isAction (.returned (s.lift a)) = true := by
  cases a <;> simp_all [SubBehaviour.lift, Ev.isAction]

/-- A step with no new input lowers the backlog by the actions it returns. -/
theorem Step.backlog {b b' : Behaviour} {t : List Ev} (h : Step b t b') (hc : ∀ c, .call c ∉ t) :
    (t.filter Ev.isAction).length + b'.backlog ≤ b.backlog := by
  cases h with
  | call c => exact absurd (List.mem_singleton_self _) (hc c)
  | @gossipsubEvent e _ h =>
    have := length_gossipEvents_le e
    simp [Behaviour.backlog, h, Behaviour.onGossipEvent_eq, Ev.isAction]
    omega
  | @rpcMessage m _ _ h =>
    have := length_rpcOutputs_le b.pingData b.metaData m
    simp [Behaviour.backlog, h, Ev.isAction]
    omega
  | gossipsubReturn h ha | rpcReturn _ h ha | identifyReturn _ _ h ha =>
    simp [Behaviour.backlog, h, isAction_lift _ ha]
    omega
  | _ => simp_all [Behaviour.backlog, Ev.isAction, Behaviour.onIdentifyEvent_eq, Behaviour.ping,
      Behaviour.sendMetaDataRequest] <;> omega

theorem Steps.backlog {b b' : Behaviour} {t : List Ev} (h : Steps b t b')
    (hc : ∀ c, .call c ∉ t) : (t.filter Ev.isAction).length + b'.backlog ≤ b.backlog := by
  induction h with
  | refl => simp
  | step s _ ih =>
    have h₁ := s.backlog fun c hm => hc c (List.mem_append_left _ hm)
    have h₂ := ih fun c hm => hc c (List.mem_append_right _ hm)
    rw [List.filter_append, List.length_append]
    omega

theorem run_polls_trace (n : ℕ) : ∀ b : Behaviour,
    (∀ c, .call c ∉ (b.run (List.replicate n .poll)).1) ∧
      ((b.run (List.replicate n .poll)).1.filter Ev.isReturned).length = n := by
  induction n with
  | zero => simp [Behaviour.run]
  | succ n ih =>
    intro b
    obtain ⟨ih₁, ih₂⟩ := ih b.poll.state
    simp only [List.replicate_succ, Behaviour.run, Behaviour.exec, Polled.trace, List.mem_append,
      List.filter_append, List.length_append, ih₂]
    exact ⟨fun c => by simpa using ih₁ c,
      by simp [Ev.isReturned, List.filter_map, Function.comp_def, Nat.add_comm]⟩

/-- With no `Pending` among them, the answers of polls are actions. -/
theorem filter_isReturned_eq_isAction {t : List Ev} (h : .returned none ∉ t) :
    t.filter Ev.isReturned = t.filter Ev.isAction :=
  List.filter_congr fun e he => by
    rcases e with _ | _ | (_ | _) <;> simp_all [Ev.isReturned, Ev.isAction]

/-- However often the composite is polled from a state with no new input in between, it returns
at most its backlog of actions; so among more polls than its backlog, one returns `Pending`. -/
theorem run_polls_backlog (b : Behaviour) (n : ℕ) :
    ((b.run (List.replicate n .poll)).1.filter Ev.isAction).length ≤ b.backlog ∧
      (b.backlog < n → .returned none ∈ (b.run (List.replicate n .poll)).1) := by
  obtain ⟨hc, hn⟩ := run_polls_trace n b
  have hb := (Behaviour.run_steps b (List.replicate n .poll)).backlog hc
  refine ⟨by omega, fun hlt => ?_⟩
  by_contra hnone
  rw [filter_isReturned_eq_isAction hnone] at hn
  omega

/-! ## Polling drains the composite -/

/-- A queued action counts once, a `GenerateEvent` twice: handing it on may leave one entry
behind. -/
def NBAction.weight {α ε : Type} : NBAction α ε → ℕ
  | .generateEvent _ => 2
  | _ => 1

theorem NBAction.weight_of_generated_none {α ε : Type} {a : NBAction α ε}
    (ha : a.generated? = none) : a.weight = 1 := by
  cases a <;> simp_all [weight, generated?]

/-- The weight of a queue. -/
def queueWeight {α ε : Type} : List (NBAction α ε) → ℕ
  | [] => 0
  | a :: q => a.weight + queueWeight q

section QueueWeight

variable {α ε : Type}

@[simp] theorem queueWeight_nil : queueWeight ([] : List (NBAction α ε)) = 0 := rfl

@[simp] theorem queueWeight_cons (a : NBAction α ε) (q : List (NBAction α ε)) :
    queueWeight (a :: q) = a.weight + queueWeight q := rfl

@[simp] theorem queueWeight_append (q q' : List (NBAction α ε)) :
    queueWeight (q ++ q') = queueWeight q + queueWeight q' := by
  induction q with
  | nil => simp
  | cons a q ih => simp [ih, Nat.add_assoc]

@[simp] theorem queueWeight_eq_zero_iff {q : List (NBAction α ε)} :
    queueWeight q = 0 ↔ q = [] := by
  cases q with
  | nil => simp
  | cons a q => cases a <;> simp [NBAction.weight]

/-- A queue with no `GenerateEvent` weighs its length. -/
theorem queueWeight_eq_length {q : List (NBAction α ε)} (h : generated q = []) :
    queueWeight q = q.length := by
  induction q with
  | nil => rfl
  | cons a q ih =>
    cases a <;> simp_all [NBAction.weight, Nat.add_comm]

end QueueWeight

/-- The work left in the composite: the weights of the three sub-behaviours' queues, each
peer-manager command twice (a Ping or MetaData command queues a request), the peers to
disconnect and the public events. -/
def Behaviour.pendingWork (b : Behaviour) : ℕ :=
  queueWeight b.gossipsub.pending + queueWeight b.mothraRpc.events +
    queueWeight b.identify.pending + 2 * b.peerManager.pending.length + b.peersToDc.length +
    b.events.length

/-- Every queue of the composite is empty. -/
def Behaviour.Idle (b : Behaviour) : Prop :=
  b.gossipsub.pending = [] ∧ b.mothraRpc.events = [] ∧ b.identify.pending = [] ∧
    b.peerManager.pending = [] ∧ b.peersToDc = [] ∧ b.events = []

theorem Behaviour.pendingWork_eq_zero_iff {b : Behaviour} : b.pendingWork = 0 ↔ b.Idle := by
  simp [pendingWork, Idle, Nat.mul_eq_zero, and_assoc]

/-- A step with no new input, other than the `Pending` of an idle poll, lowers the work left. -/
theorem Step.pendingWork_lt {b b' : Behaviour} {t : List Ev} (h : Step b t b')
    (hc : ∀ c, .call c ∉ t) (hp : t ≠ [.returned none]) : b'.pendingWork < b.pendingWork := by
  cases h with
  | call c => exact absurd (List.mem_singleton_self _) (hc c)
  | @gossipsubEvent e _ h =>
    have := length_gossipEvents_le e
    simp [Behaviour.pendingWork, h, Behaviour.onGossipEvent_eq, NBAction.weight]
    omega
  | @rpcMessage m _ _ h =>
    have := length_rpcOutputs_le b.pingData b.metaData m
    simp [Behaviour.pendingWork, h, NBAction.weight, queueWeight_eq_length]
    omega
  | gossipsubReturn h ha | rpcReturn _ h ha | identifyReturn _ _ h ha =>
    simp [Behaviour.pendingWork, h, NBAction.weight_of_generated_none ha]
  | pending => exact absurd rfl hp
  | _ => simp_all [Behaviour.pendingWork, NBAction.weight, Behaviour.onIdentifyEvent_eq,
      Behaviour.ping, Behaviour.sendMetaDataRequest] <;> omega

/-- Along steps with no new input, the work left goes down unless every step was the `Pending`
of an idle poll. -/
theorem Steps.pendingWork_lt {b b' : Behaviour} {t : List Ev} (h : Steps b t b')
    (hc : ∀ c, .call c ∉ t) :
    (b' = b ∧ ∀ e ∈ t, e = .returned none) ∨ b'.pendingWork < b.pendingWork := by
  induction h with
  | refl => exact .inl ⟨rfl, fun _ h => nomatch h⟩
  | @step b₀ b₁ b₂ t₁ t₂ s _ ih =>
    have ih := ih fun c hm => hc c (List.mem_append_right _ hm)
    have hc₁ : ∀ c, .call c ∉ t₁ := fun c hm => hc c (List.mem_append_left _ hm)
    by_cases hp : t₁ = [.returned none]
    · obtain ⟨-, rfl, -⟩ := s.of_returned_none (by simp [hp])
      refine ih.imp (fun ⟨h₂, ht⟩ => ⟨h₂, fun e he => ?_⟩) id
      rcases List.mem_append.1 he with he | he
      · simpa [hp] using he
      · exact ht e he
    · have := s.pendingWork_lt hc₁ hp
      exact .inr (ih.elim (fun ⟨h₂, _⟩ => h₂ ▸ this) (·.trans this))

/-! ### An idle poll -/

theorem Polled.orElse_idle {o : Polled} {k : Behaviour → Polled}
    (hh : (o.orElse k).handled = []) (hr : (o.orElse k).result = none) :
    o.handled = [] ∧ o.result = none ∧ (k o.state).handled = [] ∧ (k o.state).result = none := by
  unfold Polled.orElse at hh hr
  cases ho : o.result <;> simp_all

/-- A loop that hands nothing on and falls through found its queue empty. -/
theorem SubBehaviour.queue_eq_nil_of_idle {α ε : Type} {s : SubBehaviour α ε} {b : Behaviour}
    (hh : (s.pollBehaviour b).handled = []) (hr : (s.pollBehaviour b).result = none) :
    s.queue b = [] := by
  rcases hq : s.queue b with _ | ⟨a, rest⟩
  · rfl
  · cases a with
    | generateEvent e => simp [pollBehaviour_cons hq] at hh
    | _ => simp [pollBehaviour_cons_of_generated hq rfl, lift] at hr

theorem Behaviour.pollPeerManager_idle {b : Behaviour} (hh : (pollPeerManager b).handled = [])
    (hr : (pollPeerManager b).result = none) : b.peerManager.pending = [] := by
  rcases hp : b.peerManager.pending with _ | ⟨e, rest⟩
  · rfl
  · rw [pollPeerManager_cons hp] at hh hr
    cases e <;> simp_all

@[simp] theorem Polled.orElse_pending (b : Behaviour) (k : Behaviour → Polled) :
    (⟨[], b, none⟩ : Polled).orElse k = k b := by
  simp [Polled.orElse]

/-- A loop followed by the rest of the poll, handing nothing on and falling through: the loop
found its queue empty and the rest ran from the same state. -/
theorem SubBehaviour.orElse_idle {α ε : Type} {s : SubBehaviour α ε} {b : Behaviour}
    {k : Behaviour → Polled} (hh : ((s.pollBehaviour b).orElse k).handled = [])
    (hr : ((s.pollBehaviour b).orElse k).result = none) :
    s.queue b = [] ∧ (k b).handled = [] ∧ (k b).result = none := by
  obtain ⟨h₁, h₂, hh, hr⟩ := Polled.orElse_idle hh hr
  have hq := s.queue_eq_nil_of_idle h₁ h₂
  rw [pollBehaviour_nil hq] at hh hr
  exact ⟨hq, hh, hr⟩

/-- A poll that hands nothing on and returns `Pending` found every queue empty. -/
theorem Behaviour.idle_of_poll {b : Behaviour} (hh : b.poll.handled = [])
    (hr : b.poll.result = none) : b.Idle := by
  obtain ⟨hg, hh, hr⟩ := gossipsubBehaviour.orElse_idle hh hr
  obtain ⟨hq, hh, hr⟩ := rpcBehaviour.orElse_idle hh hr
  obtain ⟨hi, hh, hr⟩ := identifyBehaviour.orElse_idle hh hr
  unfold customPoll at hh hr
  rcases hd : b.peersToDc with _ | ⟨p, rest⟩
  · simp only [hd] at hh hr
    obtain ⟨hp₁, hp₂, hh, hr⟩ := Polled.orElse_idle hh hr
    have hp := pollPeerManager_idle hp₁ hp₂
    rw [pollPeerManager_nil hp] at hr
    rcases he : b.events with _ | ⟨e, rest⟩
    · exact ⟨hg, hq, hi, hp, hd, he⟩
    · simp [he] at hr
  · simp [hd] at hr

/-- A poll of an idle composite hands nothing on, returns `Pending` and changes nothing. -/
theorem Behaviour.poll_of_idle {b : Behaviour} (h : b.Idle) : b.poll = ⟨[], b, none⟩ := by
  obtain ⟨hg, hq, hi, hp, hd, he⟩ := h
  simp only [poll, SubBehaviour.pollBehaviour_nil (s := gossipsubBehaviour) hg,
    Polled.orElse_pending, SubBehaviour.pollBehaviour_nil (s := rpcBehaviour) hq,
    SubBehaviour.pollBehaviour_nil (s := identifyBehaviour) hi, customPoll, hd,
    pollPeerManager_nil hp, he]

/-- Every poll of a composite with work left lowers it. -/
theorem Behaviour.poll_pendingWork_lt {b : Behaviour} (h : 0 < b.pendingWork) :
    b.poll.state.pendingWork < b.pendingWork := by
  rcases (poll_steps b).pendingWork_lt (by simp [Polled.trace]) with ⟨-, ht⟩ | hlt
  · refine absurd (pendingWork_eq_zero_iff.2 (idle_of_poll ?_ ?_)) h.ne'
    · cases hh : b.poll.handled with
      | nil => rfl
      | cons x _ => simpa [hh] using ht (.handled x) (by simp [Polled.trace, hh])
    · simpa using ht (.returned b.poll.result) (by simp [Polled.trace])
  · exact hlt

/-- Polls with no new input take the work left down by one at least, until none is left. -/
theorem run_polls_pendingWork (n : ℕ) : ∀ b : Behaviour,
    (b.run (List.replicate n .poll)).2.pendingWork ≤ b.pendingWork - n := by
  induction n with
  | zero => simp [Behaviour.run]
  | succ n ih =>
    intro b
    have ih := ih b.poll.state
    simp only [List.replicate_succ, Behaviour.run, Behaviour.exec] at ih ⊢
    rcases Nat.eq_zero_or_pos b.pendingWork with h | h
    · simp only [Behaviour.poll_of_idle (Behaviour.pendingWork_eq_zero_iff.1 h)] at ih ⊢
      omega
    · have := Behaviour.poll_pendingWork_lt h
      omega

/-- After as many polls as it has work left, the composite is idle. -/
theorem run_polls_idle (b : Behaviour) {n : ℕ} (hn : b.pendingWork ≤ n) :
    (b.run (List.replicate n .poll)).2.Idle :=
  Behaviour.pendingWork_eq_zero_iff.1 (by
    have := run_polls_pendingWork n b
    omega)

/-- From every state, polling with no new input drains the composite: after as many polls as
it has work left, every queue is empty, and every further poll hands nothing on, returns
`Pending` and changes nothing. -/
theorem run_polls_drain (b : Behaviour) (n : ℕ) (hn : b.pendingWork ≤ n) :
    (b.run (List.replicate n .poll)).2.Idle ∧
      (b.run (List.replicate n .poll)).2.poll =
        ⟨[], (b.run (List.replicate n .poll)).2, none⟩ :=
  ⟨run_polls_idle b hn, Behaviour.poll_of_idle (run_polls_idle b hn)⟩

theorem run_polls_drain_ping :
    ((Behaviour.new ⟨[], []⟩).call (.peerManagerYields [.ping 7])).pendingWork ≤ 2 ∧
      ((((Behaviour.new ⟨[], []⟩).call (.peerManagerYields [.ping 7])).run
          (List.replicate 2 .poll)).2.Idle ∧
        (((Behaviour.new ⟨[], []⟩).call (.peerManagerYields [.ping 7])).run
          (List.replicate 2 .poll)).2.poll =
          ⟨[], (((Behaviour.new ⟨[], []⟩).call (.peerManagerYields [.ping 7])).run
            (List.replicate 2 .poll)).2, none⟩) :=
  have h : ((Behaviour.new ⟨[], []⟩).call (.peerManagerYields [.ping 7])).pendingWork ≤ 2 := by
    decide
  ⟨h, run_polls_drain _ 2 h⟩

/-! ## What a drained run delivered -/

/-- Polls bring no RPC message in. -/
theorem flatMap_rpcDelivered_eq_nil {t : List Ev} (hc : ∀ c, .call c ∉ t) :
    t.flatMap Ev.rpcDelivered = [] :=
  List.flatMap_eq_nil_iff.2 fun e he => by
    cases e with
    | call c => exact absurd he (hc c)
    | _ => rfl

/-- From every state, polling with no new input delivers everything, each once and in order,
within as many polls as there is work left: the RPC sends returned are those queued, then those
the polls queued (the replies to Ping and MetaData requests, the peer manager's Ping and
MetaData requests); the messages handed to `on_rpc_event` are those of the RPC queue; the public
events returned, `StatusPeer` aside, are those queued, then those the handlers appended; the
peers shut down are those of `peers_to_dc`, then those the polls queued. -/
theorem run_polls_delivered (b : Behaviour) (n : ℕ) (hn : b.pendingWork ≤ n) :
    let t := (b.run (List.replicate n .poll)).1
    t.flatMap Ev.rpcSent = sends b.mothraRpc.events ++ t.flatMap (Ev.rpcQueued b.payloads) ∧
      t.flatMap Ev.rpcHandled = generated b.mothraRpc.events ∧
      t.flatMap Ev.surfaced = b.events.filter (!·.isStatusPeer) ++ t.flatMap Ev.appended ∧
      t.flatMap Ev.shutdown = b.peersToDc ++ t.flatMap Ev.enqueued := by
  intro t
  obtain ⟨-, hq, -, -, hd, he⟩ := run_polls_idle b hn
  have hs := Behaviour.run_steps b (List.replicate n .poll)
  have hc := flatMap_rpcDelivered_eq_nil (run_polls_trace n b).1
  refine ⟨?_, ?_, ?_, ?_⟩
  · simpa [Flow.Conserved, sendFlow, hq] using (sendFlow.steps sendFlow_step hs).symm
  · simpa [Flow.Conserved, msgFlow, hq, hc] using (msgFlow.steps msgFlow_step hs).symm
  · simpa [Flow.Conserved, eventFlow, he] using (eventFlow.steps eventFlow_step hs).symm
  · simpa [Flow.Conserved, dcFlow, hd] using (dcFlow.steps dcFlow_step hs).symm

theorem run_polls_delivered_ping :
    ((Behaviour.new ⟨[], []⟩).call (.peerManagerYields [.ping 7])).pendingWork ≤ 2 ∧
      let b := (Behaviour.new ⟨[], []⟩).call (.peerManagerYields [.ping 7])
      let t := (b.run (List.replicate 2 .poll)).1
      t.flatMap Ev.rpcSent = sends b.mothraRpc.events ++ t.flatMap (Ev.rpcQueued b.payloads) ∧
        t.flatMap Ev.rpcHandled = generated b.mothraRpc.events ∧
        t.flatMap Ev.surfaced = b.events.filter (!·.isStatusPeer) ++ t.flatMap Ev.appended ∧
        t.flatMap Ev.shutdown = b.peersToDc ++ t.flatMap Ev.enqueued :=
  have h : ((Behaviour.new ⟨[], []⟩).call (.peerManagerYields [.ping 7])).pendingWork ≤ 2 := by
    decide
  ⟨h, run_polls_delivered _ 2 h⟩

end Mothra
