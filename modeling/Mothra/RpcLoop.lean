import Mothra.Steps

/-!
# The RPC loop of `poll`

`poll_behaviour!(mothra_rpc, on_rpc_event, DelegateIn::RPC)` drains the RPC queue: a
`GenerateEvent` goes to `on_rpc_event` and the loop goes on; any other action is returned. The
loop ends because `on_rpc_event` only appends `NotifyHandler` replies (`rpcReplies`) and never a
`GenerateEvent`, so an iteration that does not return takes one `GenerateEvent` off the queue for
good; that count is the measure of `SubBehaviour.pollBehaviour`.

What the loop does is then exact (`pollBehaviour_rpc`): it hands on the leading
`GenerateEvent`s of the queue, in order, and returns the first entry after them or, when there is
none, the first reply they produced; it breaks, `Pending`, on the emptied queue only. The RPC
queue only ever holds `GenerateEvent`s and `NotifyHandler`s (`run_new_rpcQueue`), so what the
loop returns is a `NotifyHandler` (`rpc_pollBehaviour_terminates`).
-/

namespace Mothra

open Behaviour

/-! ## Leading events -/

section Leading

variable {α ε : Type}

/-- A queue cut after its leading `GenerateEvent`s: their events, and the rest. -/
def leadingEvents : List (NBAction α ε) → List ε × List (NBAction α ε)
  | .generateEvent e :: q => let r := leadingEvents q; (e :: r.1, r.2)
  | q => ([], q)

/-- A queue is its leading events, then a rest that does not start with one. -/
theorem leadingEvents_spec (q : List (NBAction α ε)) :
    q = (leadingEvents q).1.map .generateEvent ++ (leadingEvents q).2 ∧
      ∀ a ∈ (leadingEvents q).2.head?, a.generated? = none := by
  induction q with
  | nil => exact ⟨rfl, fun _ h => nomatch h⟩
  | cons a q ih =>
    cases a with
    | generateEvent e => exact ⟨congrArg _ ih.1, ih.2⟩
    | _ => exact ⟨rfl, fun _ h => Option.some.inj h ▸ rfl⟩

@[simp] theorem generated_map_generateEvent (es : List ε) :
    generated (es.map .generateEvent : List (NBAction α ε)) = es := by
  induction es <;> simp_all

end Leading

/-! ## One iteration -/

theorem mem_rpcReplies {pd md : Bytes} {m : RPCMessage} {a : RPCAction}
    (h : a ∈ rpcReplies pd md m) : ∃ p h x, a = .notifyHandler p h x := by
  unfold rpcReplies at h
  split at h <;> simp_all

theorem NBAction.eq_notifyHandler {α ε : Type} {a : NBAction α ε} (hg : a.generated? = none)
    (hn : a.generated?.isSome ∨ a.notified?.isSome) : ∃ p h x, a = .notifyHandler p h x := by
  cases a <;> simp_all [NBAction.notified?]

/-- The `GenerateEvent`s left after an iteration that handles one: one fewer. -/
theorem generated_onRpcEvent_lt {b : Behaviour} {m : RPCMessage} {rest : List RPCAction}
    (h : b.mothraRpc.events = .generateEvent m :: rest) :
    (generated ({ b with mothraRpc := ⟨rest⟩ }.onRpcEvent m).mothraRpc.events).length <
      (generated b.mothraRpc.events).length := by
  simp [h]

/-! ## The whole loop -/

/-- The RPC loop on a queue of leading events `ms`, then a `rest` that does not start with one:
it hands `ms` on, and returns the first entry of `rest` or, when `rest` is empty, the first reply
`ms` produced; it falls through only on the emptied queue. -/
theorem pollBehaviour_rpc {ms : List RPCMessage} {rest : List RPCAction}
    (hrest : ∀ a ∈ rest.head?, a.generated? = none) {b : Behaviour}
    (hb : b.mothraRpc.events = ms.map .generateEvent ++ rest) :
    (rpcBehaviour.pollBehaviour b).handled = ms.map .rpc ∧
    (rpcBehaviour.pollBehaviour b).result =
      (rest ++ ms.flatMap (rpcReplies b.pingData b.metaData)).head?.bind rpcBehaviour.lift ∧
    ((rpcBehaviour.pollBehaviour b).result = none →
      (rpcBehaviour.pollBehaviour b).state.mothraRpc.events = []) := by
  induction ms generalizing b rest with
  | nil =>
    cases rest with
    | nil =>
      rw [SubBehaviour.pollBehaviour_nil hb]
      exact ⟨rfl, rfl, fun _ => hb⟩
    | cons a r =>
      have ha := hrest a rfl
      rw [SubBehaviour.pollBehaviour_cons_of_generated hb ha]
      exact ⟨rfl, by simp, fun h => absurd h (rpcBehaviour.lift_ne_none ha)⟩
  | cons m ms ih =>
    have hrest' : ∀ a ∈ (rest ++ rpcReplies b.pingData b.metaData m).head?,
        a.generated? = none := by
      cases rest with
      | nil =>
        exact fun a ha => List.filterMap_eq_nil_iff.1 (generated_rpcReplies _ _ m) a
          (List.mem_of_mem_head? ha)
      | cons a r => exact hrest
    obtain ⟨h₁, h₂, h₃⟩ := ih hrest'
      (b := { b with mothraRpc := ⟨ms.map NBAction.generateEvent ++ rest⟩ }.onRpcEvent m) (by simp)
    rw [SubBehaviour.pollBehaviour_cons hb]
    exact ⟨congrArg (.rpc m :: ·) h₁, h₂.trans (by simp), h₃⟩

/-- The RPC step of `poll` ends, from every queue and every state: `on_rpc_event` only appends
`NotifyHandler`s to the queue, so an iteration that does not return lowers the number of
`GenerateEvent`s in it; the loop hands on the leading `GenerateEvent`s, no more iterations than
the queue has `GenerateEvent`s, then returns the first entry after them (or, if none, the first
reply they produced), which is a `NotifyHandler` whenever the queue holds only `GenerateEvent`s
and `NotifyHandler`s; it breaks only on an empty queue. -/
theorem rpc_pollBehaviour_terminates (b : Behaviour) :
    (∀ m, ∃ l, (b.onRpcEvent m).mothraRpc.events = b.mothraRpc.events ++ l ∧
      ∀ a ∈ l, ∃ p h x, a = .notifyHandler p h x) ∧
    (∀ m rest, b.mothraRpc.events = .generateEvent m :: rest →
      (generated ({ b with mothraRpc := ⟨rest⟩ }.onRpcEvent m).mothraRpc.events).length <
        (generated b.mothraRpc.events).length) ∧
    (rpcBehaviour.pollBehaviour b).handled = (leadingEvents b.mothraRpc.events).1.map .rpc ∧
    (rpcBehaviour.pollBehaviour b).handled.length ≤ (generated b.mothraRpc.events).length ∧
    (rpcBehaviour.pollBehaviour b).result =
      ((leadingEvents b.mothraRpc.events).2 ++
        (leadingEvents b.mothraRpc.events).1.flatMap (rpcReplies b.pingData b.metaData)).head?.bind
        rpcBehaviour.lift ∧
    ((rpcBehaviour.pollBehaviour b).result = none →
      (rpcBehaviour.pollBehaviour b).state.mothraRpc.events = []) ∧
    ((∀ a ∈ b.mothraRpc.events, a.generated?.isSome ∨ a.notified?.isSome) →
      ∀ r ∈ (rpcBehaviour.pollBehaviour b).result,
        ∃ p h x, r = .notifyHandler p h (.delegate (.rpc x))) := by
  obtain ⟨hq, hrest⟩ := leadingEvents_spec b.mothraRpc.events
  generalize leadingEvents b.mothraRpc.events = lr at hq hrest ⊢
  obtain ⟨ms, rest⟩ := lr
  obtain ⟨h₁, h₂, h₃⟩ := pollBehaviour_rpc hrest hq
  refine ⟨fun m => ⟨rpcReplies b.pingData b.metaData m, by simp, fun _ => mem_rpcReplies⟩,
    fun _ _ => generated_onRpcEvent_lt, h₁, ?_, h₂, h₃, fun hn r hr => ?_⟩
  · rw [h₁, List.length_map, hq, generated_append, generated_map_generateEvent,
      List.length_append]
    exact Nat.le_add_right _ _
  · rw [h₂, Option.mem_bind_iff] at hr
    obtain ⟨a, ha, hr⟩ := hr
    obtain ⟨p, h, x, rfl⟩ : ∃ p h x, a = .notifyHandler p h x := by
      cases rest with
      | nil =>
        obtain ⟨m, -, hm⟩ := List.mem_flatMap.1 (List.mem_of_mem_head? ha)
        exact mem_rpcReplies hm
      | cons a' r =>
        obtain rfl : a' = a := Option.some.inj ha
        exact NBAction.eq_notifyHandler (hrest a' rfl) (hn a' (by simp [hq]))
    exact ⟨p, h, x, (Option.some.inj hr).symm⟩

/-! ## What the RPC queue holds -/

/-- Every step keeps every entry of the RPC queue a `GenerateEvent` or a `NotifyHandler`. -/
theorem Step.rpcQueue {b b' : Behaviour} {t : List Ev} (h : Step b t b')
    (hb : ∀ a ∈ b.mothraRpc.events, a.generated?.isSome ∨ a.notified?.isSome) :
    ∀ a ∈ b'.mothraRpc.events, a.generated?.isSome ∨ a.notified?.isSome := by
  cases h with
  | call c =>
    rcases c with ⟨_, _, ((_ | _ | _) | _)⟩ | _ | _ | _ | _ | _ | _ | _ | _ <;>
      simp_all [Behaviour.call, injectEvent_eq, injected, injectConnected, sendRequest,
        sendSuccessfulResponse, sendErrorReponse, addressesOfPeer, enrEntries, addEnr, or_imp,
        forall_and]
  | rpcMessage _ h =>
    simp only [onRpcEvent_mothraRpc, List.mem_append]
    rintro a (ha | ha)
    · exact hb a (by simp [h, ha])
    · obtain ⟨p, h, x, rfl⟩ := mem_rpcReplies ha
      simp
  | rpcReturn _ h => simp_all
  | _ => simp_all [onGossipEvent_eq, onIdentifyEvent_eq, Behaviour.ping, sendMetaDataRequest,
    or_imp, forall_and]

/-- Along every run from `Behaviour::new`, the RPC queue holds only `GenerateEvent`s and
`NotifyHandler`s: RPC never queues a dial or an address report. -/
theorem run_new_rpcQueue (g : NetworkGlobals) (ops : List Op) :
    ∀ a ∈ ((Behaviour.new g).run ops).2.mothraRpc.events,
      a.generated?.isSome ∨ a.notified?.isSome :=
  ((run_steps _ ops).invariant (Q := fun _ => True) (fun s hb => ⟨s.rpcQueue hb, fun _ _ => trivial⟩)
    (by simp [new, RPC.new])).1

theorem run_new_rpcQueue_injectConnected :
    NBAction.notifyHandler 1 .any (.request .behaviour .metaData) ∈
        ((Behaviour.new ⟨[], []⟩).run [.call (.injectConnected 1)]).2.mothraRpc.events ∧
      ((NBAction.notifyHandler 1 .any (.request .behaviour .metaData) : RPCAction).generated?.isSome ∨
        (NBAction.notifyHandler 1 .any (.request .behaviour .metaData) : RPCAction).notified?.isSome) :=
  have h : _ ∈ _ := by simp [run, exec, Behaviour.call, new, RPC.new, injectConnected]
  ⟨h, run_new_rpcQueue _ _ _ h⟩

end Mothra
