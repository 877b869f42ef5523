import Mothra.Run

/-!
# The atomic steps of the composite

`Step b t b'` is one atomic step from `b` to `b'` showing `t`: a call, or one iteration of one
loop of `poll`. The guards say which loops have already run dry when the iteration happens:
the RPC loop starts once gossipsub is `Pending`, identify once RPC is too, `custom_poll` once
all three are; inside `custom_poll` the peer manager is polled only with `peers_to_dc` empty
and the event queue only with the peer manager `Pending`. The RPC queue is not among the guards
of `custom_poll`'s steps after the first: the peer-manager loop sends Ping and MetaData
requests on it.

`poll_steps` and `run_steps` say that every poll, and every run, is a sequence of such steps
showing what `exec` shows. Every property of runs below is proved one step at a time.
-/

namespace Mothra

open Behaviour

/-- One atomic step of the composite. -/
inductive Step : Behaviour → List Ev → Behaviour → Prop
  | call (b : Behaviour) (c : Call) : Step b [.call c] (b.call c)
  | gossipsubEvent {b : Behaviour} {e : GossipsubEvent} {rest : List GossipsubAction}
      (h : b.gossipsub.pending = .generateEvent e :: rest) :
      Step b [.handled (.gossipsub e)] ({ b with gossipsub := ⟨rest⟩ }.onGossipEvent e)
  | gossipsubReturn {b : Behaviour} {a : GossipsubAction} {rest : List GossipsubAction}
      (h : b.gossipsub.pending = a :: rest) (ha : a.generated? = none) :
      Step b [.returned (gossipsubBehaviour.lift a)] { b with gossipsub := ⟨rest⟩ }
  | rpcMessage {b : Behaviour} {m : RPCMessage} {rest : List RPCAction}
      (hg : b.gossipsub.pending = []) (h : b.mothraRpc.events = .generateEvent m :: rest) :
      Step b [.handled (.rpc m)] ({ b with mothraRpc := ⟨rest⟩ }.onRpcEvent m)
  | rpcReturn {b : Behaviour} {a : RPCAction} {rest : List RPCAction}
      (hg : b.gossipsub.pending = []) (h : b.mothraRpc.events = a :: rest)
      (ha : a.generated? = none) :
      Step b [.returned (rpcBehaviour.lift a)] { b with mothraRpc := ⟨rest⟩ }
  | identifyEvent {b : Behaviour} {e : IdentifyEvent} {rest : List IdentifyAction}
      (hg : b.gossipsub.pending = []) (hr : b.mothraRpc.events = [])
      (h : b.identify.pending = .generateEvent e :: rest) :
      Step b [.handled (.identify e)] ({ b with identify := ⟨rest⟩ }.onIdentifyEvent e)
  | identifyReturn {b : Behaviour} {a : IdentifyAction} {rest : List IdentifyAction}
      (hg : b.gossipsub.pending = []) (hr : b.mothraRpc.events = [])
      (h : b.identify.pending = a :: rest) (ha : a.generated? = none) :
      Step b [.returned (identifyBehaviour.lift a)] { b with identify := ⟨rest⟩ }
  | shutdown {b : Behaviour} {p : PeerId} {rest : List PeerId}
      (hg : b.gossipsub.pending = []) (hr : b.mothraRpc.events = [])
      (hi : b.identify.pending = []) (h : b.peersToDc = p :: rest) :
      Step b [.returned (some (.notifyHandler p .all (.shutdown none)))]
        { b with peersToDc := rest }
  | ping {b : Behaviour} {p : PeerId} {rest : List PeerManagerEvent}
      (hg : b.gossipsub.pending = []) (hi : b.identify.pending = []) (hd : b.peersToDc = [])
      (h : b.peerManager.pending = .ping p :: rest) :
      Step b [.handled (.peerManager (.ping p))]
        ({ b with peerManager := { b.peerManager with pending := rest } }.ping .behaviour p)
  | metaData {b : Behaviour} {p : PeerId} {rest : List PeerManagerEvent}
      (hg : b.gossipsub.pending = []) (hi : b.identify.pending = []) (hd : b.peersToDc = [])
      (h : b.peerManager.pending = .metaData p :: rest) :
      Step b [.handled (.peerManager (.metaData p))]
        ({ b with peerManager := { b.peerManager with pending := rest } }.sendMetaDataRequest p)
  | dial {b : Behaviour} {p : PeerId} {rest : List PeerManagerEvent}
      (hg : b.gossipsub.pending = []) (hi : b.identify.pending = []) (hd : b.peersToDc = [])
      (h : b.peerManager.pending = .dial p :: rest) :
      Step b [.handled (.peerManager (.dial p)), .returned (some (.dialPeer p .disconnected))]
        { b with peerManager := { b.peerManager with pending := rest } }
  | socketUpdated {b : Behaviour} {a : Multiaddr} {rest : List PeerManagerEvent}
      (hg : b.gossipsub.pending = []) (hi : b.identify.pending = []) (hd : b.peersToDc = [])
      (h : b.peerManager.pending = .socketUpdated a :: rest) :
      Step b [.handled (.peerManager (.socketUpdated a)), .returned (some (.reportObservedAddr a))]
        { b with peerManager := { b.peerManager with pending := rest } }
  | status {b : Behaviour} {p : PeerId} {rest : List PeerManagerEvent}
      (hg : b.gossipsub.pending = []) (hi : b.identify.pending = []) (hd : b.peersToDc = [])
      (h : b.peerManager.pending = .status p :: rest) :
      Step b [.handled (.peerManager (.status p)),
          .returned (some (.generateEvent (.statusPeer p)))]
        { b with peerManager := { b.peerManager with pending := rest } }
  | disconnectPeer {b : Behaviour} {p : PeerId} {rest : List PeerManagerEvent}
      (hg : b.gossipsub.pending = []) (hi : b.identify.pending = []) (hd : b.peersToDc = [])
      (h : b.peerManager.pending = .disconnectPeer p :: rest) :
      Step b [.handled (.peerManager (.disconnectPeer p)),
          .returned (some (.notifyHandler p .any (.shutdown (some (.behaviour, .goodbye [])))))]
        { b with peerManager := { b.peerManager with pending := rest }, peersToDc := [p] }
  | event {b : Behaviour} {e : BehaviourEvent} {rest : List BehaviourEvent}
      (hg : b.gossipsub.pending = []) (hi : b.identify.pending = []) (hd : b.peersToDc = [])
      (hp : b.peerManager.pending = []) (h : b.events = e :: rest) :
      Step b [.returned (some (.generateEvent e))] { b with events := rest }
  | pending {b : Behaviour}
      (hg : b.gossipsub.pending = []) (hi : b.identify.pending = []) (hd : b.peersToDc = [])
      (hp : b.peerManager.pending = []) (he : b.events = []) :
      Step b [.returned none] b

/-- Every step shows something. -/
theorem Step.ne_nil {b b' : Behaviour} {t : List Ev} (h : Step b t b') : t ≠ [] := by
  cases h <;> simp

/-- A sequence of steps. -/
inductive Steps : Behaviour → List Ev → Behaviour → Prop
  | refl (b : Behaviour) : Steps b [] b
  | step {b b' b'' : Behaviour} {t t' : List Ev} :
      Step b t b' → Steps b' t' b'' → Steps b (t ++ t') b''

namespace Steps

theorem single {b b' : Behaviour} {t : List Ev} (h : Step b t b') : Steps b t b' := by
  simpa using step h (refl b')

theorem append {b b' b'' : Behaviour} {t t' : List Ev} (h : Steps b t b') (h' : Steps b' t' b'') :
    Steps b (t ++ t') b'' := by
  induction h with
  | refl => simpa
  | step s _ ih => simpa using step s (ih h')

variable {b b' : Behaviour} {t : List Ev}

/-- A sequence that shows nothing takes no step. -/
theorem eq_of_nil (h : Steps b [] b') : b' = b := by
  generalize ht : [] = t at h
  cases h with
  | refl => rfl
  | step s _ => exact absurd (List.append_eq_nil.1 ht.symm).1 s.ne_nil

/-- A property of states that every step keeps, with a property of what every step shows from
a state that has it, holds along sequences. -/
theorem invariant {I : Behaviour → Prop} {Q : Ev → Prop}
    (hI : ∀ {b t b'}, Step b t b' → I b → I b' ∧ ∀ e ∈ t, Q e)
    (h : Steps b t b') (hb : I b) : I b' ∧ ∀ e ∈ t, Q e := by
  induction h with
  | refl => simpa using hb
  | step s _ ih =>
    obtain ⟨h₁, h₂⟩ := hI s hb
    obtain ⟨h₃, h₄⟩ := ih h₁
    exact ⟨h₃, fun e he => (List.mem_append.1 he).elim (h₂ e) (h₄ e)⟩

/-- What holds of everything a single step shows holds of everything a sequence shows. -/
theorem forall_mem {Q : Ev → Prop} (hQ : ∀ {b t b'}, Step b t b' → ∀ e ∈ t, Q e)
    (h : Steps b t b') : ∀ e ∈ t, Q e :=
  (h.invariant (I := fun _ => True) (fun s _ => ⟨trivial, hQ s⟩) trivial).2

/-- Where every step that shows `x` starts with it, a sequence can be cut just before `x`, at
the step that shows it. -/
theorem split_before {x : Ev}
    (hx : ∀ {b t b'}, Step b t b' → ∀ A B, t = A ++ x :: B → A = [])
    {A B : List Ev} (h : Steps b (A ++ x :: B) b') :
    ∃ s t s' B', Steps b A s ∧ Step s (x :: t) s' ∧ Steps s' B' b' ∧ B = t ++ B' := by
  generalize ht : A ++ x :: B = t at h
  induction h generalizing A with
  | refl => simp at ht
  | @step b b₁ _ t₁ t₂ s h ih =>
    rcases List.append_eq_append_iff.1 ht with ⟨C, rfl, hC⟩ | ⟨A', rfl, rfl⟩
    · cases C with
      | nil =>
        obtain ⟨s', t, s'', B', h₁, h₂, h₃, rfl⟩ := ih (A := []) (by simpa using hC)
        exact ⟨s', t, s'', B', by simpa using step s h₁, h₂, h₃, rfl⟩
      | cons z C =>
        obtain ⟨rfl, rfl⟩ := List.cons.inj hC
        obtain rfl := hx s A C rfl
        exact ⟨b, C, b₁, t₂, refl b, s, h, rfl⟩
    · obtain ⟨s', t, s'', B', h₁, h₂, h₃, rfl⟩ := ih rfl
      exact ⟨s', t, s'', B', step s h₁, h₂, h₃, rfl⟩

end Steps

/-- In `t`, every `x` is immediately followed by `y`. -/
def Answered (x y : Ev) (t : List Ev) : Prop :=
  ∀ pre post, t = pre ++ x :: post → post.head? = some y

namespace Answered

variable {x y : Ev}

theorem of_not_mem {t : List Ev} (h : x ∉ t) : Answered x y t := by
  rintro pre post rfl
  simp at h

theorem pair (h : y ≠ x) : Answered x y [x, y] := by
  intro pre post ht
  rcases pre with _ | ⟨_, _ | ⟨_, _⟩⟩
  · obtain ⟨-, rfl⟩ := List.cons.inj ht
    rfl
  · simp_all
  · simp at ht

theorem append {t t' : List Ev} (h : Answered x y t) (h' : Answered x y t')
    (hl : t.getLast? ≠ some x) : Answered x y (t ++ t') := by
  intro pre post ht
  rcases List.append_eq_append_iff.1 ht with ⟨A, rfl, rfl⟩ | ⟨C, rfl, hC⟩
  · exact h' A post rfl
  · cases C with
    | nil => exact h' [] post (by simpa using hC.symm)
    | cons z C =>
      obtain ⟨rfl, rfl⟩ := List.cons.inj hC
      cases C with
      | nil => simp at hl
      | cons w C => simpa using h pre (w :: C) rfl

end Answered

/-- Where every single step answers `x` with `y`, so does every sequence. -/
theorem Steps.answered {x y : Ev}
    (hx : ∀ {b t b'}, Step b t b' → Answered x y t ∧ t.getLast? ≠ some x)
    {b b' : Behaviour} {t : List Ev} (h : Steps b t b') : Answered x y t := by
  induction h with
  | refl => intro pre post ht; simp at ht
  | step s _ ih => exact (hx s).1.append ih (hx s).2

/-- Where every step that shows `x` shows `x` and then `y`, every sequence answers `x` with
`y`. -/
theorem Steps.answered_of_step {x y : Ev} (hxy : y ≠ x)
    (hx : ∀ {b t b'}, Step b t b' → x ∈ t → t = [x, y]) {b b' : Behaviour} {t : List Ev}
    (h : Steps b t b') : Answered x y t := by
  refine h.answered fun {_ t _} s => ?_
  by_cases hm : x ∈ t
  · rw [hx s hm]
    exact ⟨.pair hxy, by simpa using hxy⟩
  · exact ⟨.of_not_mem hm, fun hl => hm (List.mem_of_getLast?_eq_some hl)⟩

/-! ## Every poll is a sequence of steps -/

namespace Polled

theorem orElse_steps {b : Behaviour} {o : Polled} {k : Behaviour → Polled}
    (h : Steps b o.shown o.state)
    (hk : o.result = none → Steps o.state (k o.state).trace (k o.state).state) :
    Steps b (o.orElse k).trace (o.orElse k).state := by
  unfold orElse
  cases hr : o.result with
  | some a => simpa [trace, shown, hr] using h
  | none => simpa [trace, shown, hr] using h.append (hk hr)

end Polled

namespace SubBehaviour

variable {α ε : Type} (s : SubBehaviour α ε) (G : Behaviour → Prop)

/-- `poll_behaviour!` is a sequence of steps, given the steps of one iteration under a guard
`G` the handler keeps. When it falls through, the sub-behaviour is `Pending` and `G` holds. -/
theorem pollBehaviour_steps
    (hev : ∀ {b e rest}, G b → s.queue b = .generateEvent e :: rest →
      Step b [.handled (s.handled e)] (s.onEvent (s.setQueue b rest) e) ∧
        G (s.onEvent (s.setQueue b rest) e))
    (hret : ∀ {b a rest}, G b → s.queue b = a :: rest → a.generated? = none →
      Step b [.returned (s.lift a)] (s.setQueue b rest))
    (b : Behaviour) (hb : G b) :
    Steps b (s.pollBehaviour b).shown (s.pollBehaviour b).state ∧
      ((s.pollBehaviour b).result = none →
        s.queue (s.pollBehaviour b).state = [] ∧ G (s.pollBehaviour b).state) := by
  rcases hq : s.queue b with _ | ⟨a, rest⟩
  · rw [pollBehaviour_nil hq]
    exact ⟨.refl b, fun _ => ⟨hq, hb⟩⟩
  · rw [pollBehaviour_cons hq]
    cases a with
    | generateEvent e =>
      obtain ⟨hs, hG⟩ := hev hb hq
      obtain ⟨ih, ih'⟩ := pollBehaviour_steps hev hret _ hG
      exact ⟨by simpa [Polled.shown] using Steps.step hs ih, ih'⟩
    | _ =>
      exact ⟨by simpa [Polled.shown, lift] using Steps.single (hret hb hq rfl), by simp [lift]⟩
termination_by (generated (s.queue b)).length
decreasing_by rw [s.generated_onEvent, s.queue_setQueue, hq]; simp

end SubBehaviour

namespace Behaviour

theorem pollPeerManager_steps (b : Behaviour) (hg : b.gossipsub.pending = [])
    (hi : b.identify.pending = []) (hd : b.peersToDc = []) :
    Steps b (pollPeerManager b).shown (pollPeerManager b).state ∧
      ((pollPeerManager b).result = none →
        (pollPeerManager b).state.gossipsub.pending = [] ∧
          (pollPeerManager b).state.identify.pending = [] ∧
          (pollPeerManager b).state.peersToDc = [] ∧
          (pollPeerManager b).state.peerManager.pending = []) := by
  rcases hq : b.peerManager.pending with _ | ⟨e, rest⟩
  · rw [pollPeerManager_nil hq]
    exact ⟨.refl b, fun _ => ⟨hg, hi, hd, hq⟩⟩
  · rw [pollPeerManager_cons hq]
    set b' := { b with peerManager := { b.peerManager with pending := rest } }
    cases e with
    | ping p =>
      obtain ⟨ih, ih'⟩ := pollPeerManager_steps (b'.ping .behaviour p) hg hi hd
      exact ⟨by simpa [Polled.shown] using Steps.step (.ping hg hi hd hq) ih, ih'⟩
    | metaData p =>
      obtain ⟨ih, ih'⟩ := pollPeerManager_steps (b'.sendMetaDataRequest p) hg hi hd
      exact ⟨by simpa [Polled.shown] using Steps.step (.metaData hg hi hd hq) ih, ih'⟩
    | dial p => exact ⟨by simpa [Polled.shown] using Steps.single (.dial hg hi hd hq), by simp⟩
    | socketUpdated a =>
      exact ⟨by simpa [Polled.shown] using Steps.single (.socketUpdated hg hi hd hq), by simp⟩
    | status p =>
      exact ⟨by simpa [Polled.shown] using Steps.single (.status hg hi hd hq), by simp⟩
    | disconnectPeer p =>
      exact ⟨by simpa [Polled.shown, hd] using Steps.single (.disconnectPeer hg hi hd hq),
        by simp⟩
termination_by b.peerManager.pending.length
decreasing_by all_goals simp [hq, ping, sendMetaDataRequest]

theorem customPoll_steps (b : Behaviour) (hg : b.gossipsub.pending = [])
    (hr : b.mothraRpc.events = []) (hi : b.identify.pending = []) :
    Steps b (customPoll b).trace (customPoll b).state := by
  unfold customPoll
  rcases hd : b.peersToDc with _ | ⟨p, rest⟩
  · obtain ⟨h, h'⟩ := pollPeerManager_steps b hg hi hd
    refine Polled.orElse_steps h fun hn => ?_
    obtain ⟨hg', hi', hd', hp'⟩ := h' hn
    split
    · next e rest he => simpa [Polled.trace] using Steps.single (.event hg' hi' hd' hp' he)
    · next he => simpa [Polled.trace] using Steps.single (.pending hg' hi' hd' hp' he)
  · simpa [Polled.trace] using Steps.single (.shutdown hg hr hi hd)

/-- Every poll is a sequence of steps showing its trace. -/
theorem poll_steps (b : Behaviour) : Steps b b.poll.trace b.poll.state := by
  obtain ⟨hg, hg'⟩ := gossipsubBehaviour.pollBehaviour_steps (fun _ => True)
    (fun _ h => ⟨.gossipsubEvent h, trivial⟩) (fun _ h ha => .gossipsubReturn h ha) b trivial
  refine Polled.orElse_steps hg fun hn => ?_
  obtain ⟨hr, hr'⟩ := rpcBehaviour.pollBehaviour_steps (fun b => b.gossipsub.pending = [])
    (fun hb h => ⟨.rpcMessage hb h, by simpa [rpcBehaviour] using hb⟩)
    (fun hb h ha => .rpcReturn hb h ha) _ (hg' hn).1
  refine Polled.orElse_steps hr fun hn => ?_
  obtain ⟨hi, hi'⟩ := identifyBehaviour.pollBehaviour_steps
    (fun b => b.gossipsub.pending = [] ∧ b.mothraRpc.events = [])
    (fun hb h =>
      ⟨.identifyEvent hb.1 hb.2 h, by simpa [identifyBehaviour, onIdentifyEvent_eq] using hb⟩)
    (fun hb h ha => .identifyReturn hb.1 hb.2 h ha) _ ⟨(hr' hn).2, (hr' hn).1⟩
  refine Polled.orElse_steps hi fun hn => ?_
  obtain ⟨hq, hg, hr⟩ := hi' hn
  exact customPoll_steps _ hg hr hq

theorem exec_steps (b : Behaviour) (op : Op) : Steps b (b.exec op).1 (b.exec op).2 := by
  cases op with
  | call c => exact .single (.call b c)
  | poll => exact poll_steps b

/-- Every run is a sequence of steps showing its trace. -/
theorem run_steps (b : Behaviour) (ops : List Op) : Steps b (b.run ops).1 (b.run ops).2 := by
  induction ops generalizing b with
  | nil => exact .refl b
  | cons op ops ih => exact (exec_steps b op).append (ih _)

end Behaviour

end Mothra

/-!
## Queues along a run

The composite's queues are first-in first-out: entries are pushed at the back and taken from
the front. A `Flow` names such a queue-like quantity `F` of the state, what each shown event
puts into it (`In`, which may read the ping and metadata payloads the replies carry) and what
each shown event takes out of it (`Out`). It is conserved along `t` from `b` to `b'` when

  `F b ++ (what t put in) = (what t took out) ++ F b'`,

that is, nothing is lost, duplicated or reordered. `Flow.steps` lifts conservation from single
steps to sequences of steps, hence (`run_steps`) to runs.
-/

namespace Mothra

/-- The ping payload and metadata the local replies carry. -/
def Behaviour.payloads (b : Behaviour) : Bytes × Bytes := (b.pingData, b.metaData)

/-- A queue-like quantity of the state, with what shown events put in and take out. -/
structure Flow (X : Type) where
  F : Behaviour → List X
  In : Bytes × Bytes → Ev → List X
  Out : Ev → List X

namespace Flow

variable {X : Type} (φ : Flow X)

/-- `φ` is conserved along `t` from `b` to `b'`. -/
def Conserved (b : Behaviour) (t : List Ev) (b' : Behaviour) : Prop :=
  φ.F b ++ t.flatMap (φ.In b.payloads) = t.flatMap φ.Out ++ φ.F b'

end Flow

theorem Step.payloads {b b' : Behaviour} {t : List Ev} (h : Step b t b') :
    b'.payloads = b.payloads := by
  cases h with
  | call c => simp [Behaviour.payloads]
  | gossipsubEvent => simp [Behaviour.payloads, Behaviour.onGossipEvent_eq]
  | identifyEvent => simp [Behaviour.payloads, Behaviour.onIdentifyEvent_eq]
  | rpcMessage => simp [Behaviour.payloads]
  | _ => rfl

theorem Steps.payloads {b b' : Behaviour} {t : List Ev} (h : Steps b t b') :
    b'.payloads = b.payloads := by
  induction h with
  | refl => rfl
  | step s _ ih => rw [ih, s.payloads]

/-- Conservation in every step gives conservation along every sequence of steps. -/
theorem Flow.steps {X : Type} (φ : Flow X)
    (hφ : ∀ {b t b'}, Step b t b' → φ.Conserved b t b') {b b' : Behaviour} {t : List Ev}
    (h : Steps b t b') : φ.Conserved b t b' := by
  induction h with
  | refl => simp [Flow.Conserved]
  | step s _ ih =>
    unfold Flow.Conserved at *
    rw [s.payloads] at ih
    rw [List.flatMap_append, List.flatMap_append, ← List.append_assoc, hφ s, List.append_assoc,
      ih,
      List.append_assoc]

end Mothra
