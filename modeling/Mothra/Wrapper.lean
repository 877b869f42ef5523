import Mothra.Types
import Mothra.Lru

/-!
# The libp2p wrapper's behaviour

`core/src/libp2p-wrapper/src/behaviour.rs` is a second composite behaviour: gossipsub, RPC,
identify and discovery hand their events to `inject_event`, which appends public
`BehaviourEvent`s to a queue, and `poll` hands the queue to the swarm one event at a time, the
oldest first. Gossip messages are de-duplicated there by `seen_gossip_messages`, an `LruCache` of
the 100 000 most recently seen message ids: a message is surfaced when `put` of its id returns
`None`. Identify results are only logged and discovery has no events, so neither changes the
state. A run interleaves the sub-behaviours' events with polls in any order.

1. `exec_appended`: one step appends what the history of ids seen says, and the cache stays the
   `100 000` most recently seen ids of that history (`LruCache.Refines`).
2. `run_appended`: along every run, the events returned and then those still queued are the
   events the handlers append, in order; a gossip message among them exactly when its id is not
   among the `100 000` most recently seen distinct ids before it.
3. `run_new_gossip_once`: from `Behaviour::new`, with at most `100 000` distinct message ids, the
   ids surfaced are the ids received, each once, in the order of their first arrival.

The wrapper's `RPCEvent` is declared in an RPC module that is not in the repository and is passed
through untouched, so it is a type parameter `R`.
-/

namespace Mothra.Wrapper

/-- The wrapper's `RPCMessage`: what its RPC behaviour generates. -/
inductive RPCMessage (R : Type)
  | peerDialed (peerId : PeerId)
  | peerDisconnected (peerId : PeerId)
  | rpc (peerId : PeerId) (rpcEvent : R)
  deriving DecidableEq

/-- The wrapper's `BehaviourEvent`. -/
inductive BehaviourEvent (R : Type)
  | rpc (peerId : PeerId) (rpcEvent : R)
  | peerDialed (peerId : PeerId)
  | peerDisconnected (peerId : PeerId)
  | gossipMessage (id : MessageId) (source : PeerId) (topics : List TopicHash) (message : Bytes)
  | peerSubscribed (peerId : PeerId) (topic : TopicHash)
  deriving DecidableEq

/-- What the wrapper keeps besides its sub-behaviours and the subscription state
(`Subscriptions`). -/
structure Behaviour (R : Type) where
  events : List (BehaviourEvent R)
  seenGossipMessages : LruCache MessageId Unit

variable {R : Type}

/-- `Behaviour::new`: no events, and an empty cache of `100 000` ids. -/
def Behaviour.new : Behaviour R := ⟨[], LruCache.new 100000 (by decide)⟩

namespace Behaviour

variable (b : Behaviour R)

/-- `inject_event` for a gossipsub event: a message is surfaced unless its id is cached; its id
is put in the cache either way. -/
def injectGossipsubEvent : GossipsubEvent → Behaviour R
  | .message propagationSource id gsMsg =>
    let r := b.seenGossipMessages.put id ()
    if r.1.isNone then
      ⟨b.events ++ [.gossipMessage id propagationSource gsMsg.topics gsMsg.data], r.2⟩
    else ⟨b.events, r.2⟩
  | .subscribed peerId topic => { b with events := b.events ++ [.peerSubscribed peerId topic] }
  | .unsubscribed _ _ => b

/-- The event `inject_event` appends for an RPC message. -/
def RPCMessage.event : RPCMessage R → BehaviourEvent R
  | .peerDialed peerId => .peerDialed peerId
  | .peerDisconnected peerId => .peerDisconnected peerId
  | .rpc peerId rpcEvent => .rpc peerId rpcEvent

/-- `inject_event` for an RPC message. -/
def injectRPCMessage (m : RPCMessage R) : Behaviour R :=
  { b with events := b.events ++ [RPCMessage.event m] }

/-- `poll`: the oldest event, if any. -/
def poll : Option (BehaviourEvent R) × Behaviour R :=
  match b.events with
  | [] => (none, b)
  | e :: rest => (some e, { b with events := rest })

end Behaviour

/-- What can happen to the wrapper: an event of gossipsub or RPC, or a poll. -/
inductive Op (R : Type)
  | gossipsub (event : GossipsubEvent)
  | rpc (message : RPCMessage R)
  | poll

/-- The events a step returns, and the state after it. -/
def Behaviour.exec (b : Behaviour R) : Op R → List (BehaviourEvent R) × Behaviour R
  | .gossipsub e => ([], b.injectGossipsubEvent e)
  | .rpc m => ([], b.injectRPCMessage m)
  | .poll => (b.poll.1.toList, b.poll.2)

/-- The events a run returns, and the state after it. -/
def Behaviour.run (b : Behaviour R) : List (Op R) → List (BehaviourEvent R) × Behaviour R
  | [] => ([], b)
  | op :: ops =>
    let r := b.exec op
    let r' := r.2.run ops
    (r.1 ++ r'.1, r'.2)

/-! ## What the history of ids says -/

/-- The message id an event puts in the cache. -/
def Op.messageIds : Op R → List MessageId
  | .gossipsub (.message _ id _) => [id]
  | _ => []

/-- What the handlers should append for an event, given the message ids seen before it: a gossip
message is new when its id is not among the `cap` most recently seen. -/
def Op.appended (cap : ℕ) (seen : List MessageId) : Op R → List (BehaviourEvent R)
  | .gossipsub (.message source id m) =>
    if id ∈ (recent seen).take cap then [] else [.gossipMessage id source m.topics m.data]
  | .gossipsub (.subscribed peerId topic) => [.peerSubscribed peerId topic]
  | .gossipsub (.unsubscribed _ _) => []
  | .rpc m => [Behaviour.RPCMessage.event m]
  | .poll => []

/-- What the handlers should append along a run, from the message ids seen before it. -/
def appendedAll (cap : ℕ) (seen : List MessageId) : List (Op R) → List (BehaviourEvent R)
  | [] => []
  | op :: ops => op.appended cap seen ++ appendedAll cap (seen ++ op.messageIds) ops

/-! ## Steps and runs -/

/-- One step: what it returns followed by the queue after it is the queue before it followed by
what the history says it appends; the cache keeps the `cap` most recent ids, this step's
included. -/
theorem exec_appended {b : Behaviour R} {seen : List MessageId}
    (hb : b.seenGossipMessages.Refines seen) (op : Op R) :
    (b.exec op).1 ++ (b.exec op).2.events = b.events ++ op.appended b.seenGossipMessages.cap seen ∧
      (b.exec op).2.seenGossipMessages.cap = b.seenGossipMessages.cap ∧
      (b.exec op).2.seenGossipMessages.Refines (seen ++ op.messageIds) := by
  rcases op with (⟨source, id, m⟩ | ⟨p, t⟩ | ⟨p, t⟩) | m | _
  · have hput := hb.put_fst_eq_none id ()
    cases hp : (b.seenGossipMessages.put id ()).1 with
    | none =>
      simp only [Behaviour.exec, Behaviour.injectGossipsubEvent, hp, Option.isNone_none, if_true,
        Op.appended, if_neg (hput.1 hp), Op.messageIds, List.nil_append]
      exact ⟨trivial, rfl, hb.put id ()⟩
    | some u =>
      have hid : id ∈ (recent seen).take b.seenGossipMessages.cap :=
        not_not.1 fun h => by simp [hput.2 h] at hp
      simp only [Behaviour.exec, Behaviour.injectGossipsubEvent, hp, Option.isNone_some,
        Bool.false_eq_true, if_false, Op.appended, if_pos hid, Op.messageIds, List.nil_append,
        List.append_nil]
      exact ⟨trivial, rfl, hb.put id ()⟩
  · exact ⟨rfl, rfl, by simpa [Op.messageIds] using hb⟩
  · exact ⟨by simp [Behaviour.exec, Behaviour.injectGossipsubEvent, Op.appended], rfl,
      by simpa [Op.messageIds] using hb⟩
  · exact ⟨rfl, rfl, by simpa [Op.messageIds] using hb⟩
  · simp only [Behaviour.exec, Behaviour.poll, Op.appended, Op.messageIds, List.append_nil]
    split <;> simp_all

/-- Along every run, from a state whose cache holds the `cap` most recently seen of the ids
`seen`: the events returned, then those still queued, are the events queued before, then what
the handlers append, a gossip message exactly when its id is not among the `cap` most recently
seen distinct ids before it; the cache keeps the `cap` most recently seen ids. -/
theorem run_appended (ops : List (Op R)) :
    ∀ (b : Behaviour R) (seen : List MessageId), b.seenGossipMessages.Refines seen →
      (b.run ops).1 ++ (b.run ops).2.events =
        b.events ++ appendedAll b.seenGossipMessages.cap seen ops ∧
      (b.run ops).2.seenGossipMessages.Refines (seen ++ ops.flatMap Op.messageIds) := by
  induction ops with
  | nil => exact fun b seen hb => ⟨by simp [Behaviour.run, appendedAll], by simpa using hb⟩
  | cons op ops ih =>
    intro b seen hb
    obtain ⟨h₁, hcap, h₂⟩ := exec_appended hb op
    obtain ⟨ih₁, ih₂⟩ := ih _ _ h₂
    refine ⟨?_, by simpa [Behaviour.run, List.append_assoc] using ih₂⟩
    simp only [Behaviour.run, appendedAll, List.append_assoc, ih₁, hcap]
    rw [← List.append_assoc, h₁, List.append_assoc]

/-- A run that receives one message twice, from two peers, and polls. -/
def repeatedGossip : List (Op Unit) :=
  [.gossipsub (.message 1 "a" ⟨[], []⟩), .gossipsub (.message 2 "a" ⟨[], []⟩), .poll]

theorem run_appended_new :
    (Behaviour.new : Behaviour Unit).seenGossipMessages.Refines [] ∧
      ((Behaviour.new.run repeatedGossip).1 ++ (Behaviour.new.run repeatedGossip).2.events =
          (Behaviour.new : Behaviour Unit).events ++
            appendedAll (Behaviour.new : Behaviour Unit).seenGossipMessages.cap [] repeatedGossip ∧
        (Behaviour.new.run repeatedGossip).2.seenGossipMessages.Refines
          ([] ++ repeatedGossip.flatMap Op.messageIds)) :=
  ⟨LruCache.refines_new _ _, run_appended repeatedGossip _ _ (LruCache.refines_new _ _)⟩

/-! ## Each message once -/

/-- The id of a surfaced gossip message. -/
def BehaviourEvent.gossipId? : BehaviourEvent R → Option MessageId
  | .gossipMessage id .. => some id
  | _ => none

/-- The ids the history filter lets through: those not among the `cap` most recently seen. -/
def freshIds (cap : ℕ) (seen : List MessageId) : List MessageId → List MessageId
  | [] => []
  | id :: ids =>
    (if id ∈ (recent seen).take cap then [] else [id]) ++ freshIds cap (seen ++ [id]) ids

theorem filterMap_appendedAll (cap : ℕ) (ops : List (Op R)) :
    ∀ seen, (appendedAll cap seen ops).filterMap BehaviourEvent.gossipId? =
      freshIds cap seen (ops.flatMap Op.messageIds) := by
  induction ops with
  | nil => exact fun _ => rfl
  | cons op ops ih =>
    intro seen
    rcases op with (⟨source, id, m⟩ | ⟨p, t⟩ | ⟨p, t⟩) | (p | p | ⟨p, e⟩) | _ <;>
      simp only [appendedAll, Op.appended, Op.messageIds, List.flatMap_cons, List.filterMap_append,
        ih, List.nil_append, freshIds, List.singleton_append, List.append_nil, List.filterMap_cons,
        BehaviourEvent.gossipId?, Behaviour.RPCMessage.event]
    split_ifs <;> rfl

/-- With all ids seen among at most `cap` distinct ones, the filter lets each id through once,
at its first arrival. -/
theorem freshIds_of_length_le {cap : ℕ} {S : List MessageId} (hS : S.length ≤ cap) :
    ∀ (ids seen : List MessageId), (∀ x ∈ seen ++ ids, x ∈ S) →
      (freshIds cap seen ids).Nodup ∧
        ∀ x, x ∈ freshIds cap seen ids ↔ x ∈ ids ∧ x ∉ seen
  | [], _, _ => by simp [freshIds]
  | id :: ids, seen, hcover => by
    have hshort : (recent seen).length ≤ cap :=
      le_trans (List.subperm_of_subset (nodup_recent seen) fun x hx =>
        hcover x (List.mem_append_left _ (mem_recent.1 hx))).length_le hS
    obtain ⟨ih₁, ih₂⟩ := freshIds_of_length_le hS ids (seen ++ [id]) (by simpa using hcover)
    rw [freshIds, List.take_of_length_le hshort]
    by_cases hid : id ∈ seen
    · simp only [mem_recent, hid, if_true, List.nil_append]
      refine ⟨ih₁, fun x => ?_⟩
      rw [ih₂]
      by_cases hx : x = id <;> simp_all
    · simp only [mem_recent, hid, if_false, List.singleton_append, List.nodup_cons]
      refine ⟨⟨fun h => by simpa using (ih₂ id).1 h, ih₁⟩, fun x => ?_⟩
      rw [List.mem_cons, ih₂]
      by_cases hx : x = id <;> simp_all

/-- Along every run from `Behaviour::new` whose gossip messages carry at most `100 000` distinct
ids: the ids of the gossip messages surfaced, returned or still queued, are the ids received, each
once, in the order of their first arrival. -/
theorem run_new_gossip_once (ops : List (Op R)) (S : List MessageId) (hS : S.length ≤ 100000)
    (hcover : ∀ x ∈ ops.flatMap Op.messageIds, x ∈ S) :
    ((Behaviour.new.run ops).1 ++ (Behaviour.new.run ops).2.events).filterMap
        BehaviourEvent.gossipId? = freshIds 100000 [] (ops.flatMap Op.messageIds) ∧
      (freshIds 100000 [] (ops.flatMap Op.messageIds)).Nodup ∧
      ∀ x, x ∈ freshIds 100000 [] (ops.flatMap Op.messageIds) ↔ x ∈ ops.flatMap Op.messageIds := by
  have hrun := (run_appended ops Behaviour.new [] (LruCache.refines_new _ _)).1
  obtain ⟨h₁, h₂⟩ := freshIds_of_length_le hS _ [] (by rw [List.nil_append]; exact hcover)
  exact ⟨by rw [hrun]; exact filterMap_appendedAll _ ops [], h₁, fun x => by simpa using h₂ x⟩

theorem run_new_gossip_once_repeated :
    (["a"] : List MessageId).length ≤ 100000 ∧
      (∀ x ∈ repeatedGossip.flatMap Op.messageIds, x ∈ ["a"]) ∧
      ((Behaviour.new.run repeatedGossip).1 ++ (Behaviour.new.run repeatedGossip).2.events).filterMap
          BehaviourEvent.gossipId? = freshIds 100000 [] (repeatedGossip.flatMap Op.messageIds) ∧
      (freshIds 100000 [] (repeatedGossip.flatMap Op.messageIds)).Nodup ∧
      ∀ x, x ∈ freshIds 100000 [] (repeatedGossip.flatMap Op.messageIds) ↔
        x ∈ repeatedGossip.flatMap Op.messageIds :=
  have hS : (["a"] : List MessageId).length ≤ 100000 := by decide
  have hc : ∀ x ∈ repeatedGossip.flatMap Op.messageIds, x ∈ ["a"] := by
    simp [repeatedGossip, Op.messageIds]
  ⟨hS, hc, run_new_gossip_once repeatedGossip ["a"] hS hc⟩

end Mothra.Wrapper
