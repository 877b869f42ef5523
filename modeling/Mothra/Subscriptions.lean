import Mathlib.Data.Finset.Basic

/-!
# Subscriptions

`subscribe(topic)` and `unsubscribe(topic)`, in the core behaviour and in the libp2p wrapper
alike, first update the shared set `network_globals.gossipsub_subscriptions` and then call the
gossip engine with the topic converted to a gossipsub `Topic`, returning the engine's answer.
`subscribe_kind` and `unsubscribe_kind` build the topic of a kind first. The wrapper's
`update_fork_version` unsubscribes from every topic of the set and subscribes to each again.

`GossipTopic`, its kinds, the conversion to `Topic` and `EnrForkId` are not in the sources and
are parameters here; the gossip engine is libp2p's.

The set and the engine agree when the engine's subscriptions are the image of the set under
the conversion (`Agree`). Subscribing keeps agreement for any conversion, unsubscribing for an
injective one (`run_agree`). With a conversion that maps two topics of the set to one `Topic`,
as two `GossipTopic`s with one string form would be, unsubscribing from one of them unsubscribes
the engine from the other too (`unsubscribe_drifts`), so agreement is lost along a run from the
empty state (`run_agree_fails_of_const`).

Both are sets, so `subscribe(t)` then `unsubscribe(t)` is `unsubscribe(t)` alone: it gives back
the state it started from exactly when `t` was not subscribed (`subscribe_then_unsubscribe`).
-/

namespace Mothra

/-- A `HashSet`: its elements in iteration order, none twice. -/
@[ext] structure TopicSet (α : Type) where
  elems : List α
  nodup : elems.Nodup

namespace TopicSet

variable {α : Type} [DecidableEq α]

def empty : TopicSet α := ⟨[], List.nodup_nil⟩

/-- `HashSet::insert`. -/
def insert (s : TopicSet α) (a : α) : TopicSet α := ⟨s.elems.insert a, s.nodup.insert⟩

/-- `HashSet::remove`. -/
def remove (s : TopicSet α) (a : α) : TopicSet α := ⟨s.elems.erase a, s.nodup.erase a⟩

@[simp] theorem mem_insert (s : TopicSet α) (a b : α) :
    b ∈ (s.insert a).elems ↔ b = a ∨ b ∈ s.elems := List.mem_insert_iff

@[simp] theorem mem_remove (s : TopicSet α) (a b : α) :
    b ∈ (s.remove a).elems ↔ b ≠ a ∧ b ∈ s.elems := s.nodup.mem_erase_iff

theorem remove_insert (s : TopicSet α) (a : α) : (s.insert a).remove a = s.remove a := by
  ext1
  by_cases h : a ∈ s.elems
  · simp only [insert, remove, List.insert_of_mem h]
  · simp only [insert, remove, List.insert_of_not_mem h, List.erase_cons_head,
      List.erase_of_not_mem h]

theorem remove_eq_self_iff (s : TopicSet α) (a : α) : s.remove a = s ↔ a ∉ s.elems :=
  ⟨fun h ha => ((s.mem_remove a a).1 (by rwa [h])).1 rfl,
    fun h => TopicSet.ext (List.erase_of_not_mem h)⟩

end TopicSet

/-- The gossip engine's subscriptions: the topics of its mesh. -/
structure GossipsubMesh (H : Type) where
  subscriptions : TopicSet H

namespace GossipsubMesh

variable {H : Type} [DecidableEq H]

/-- libp2p's `Gossipsub::subscribe`: `false`, and no change, when already subscribed. -/
def subscribe (g : GossipsubMesh H) (topic : H) : Bool × GossipsubMesh H :=
  if topic ∈ g.subscriptions.elems then (false, g) else (true, ⟨g.subscriptions.insert topic⟩)

/-- libp2p's `Gossipsub::unsubscribe`: `false`, and no change, when not subscribed. -/
def unsubscribe (g : GossipsubMesh H) (topic : H) : Bool × GossipsubMesh H :=
  if topic ∈ g.subscriptions.elems then (true, ⟨g.subscriptions.remove topic⟩) else (false, g)

@[simp] theorem mem_subscribe (g : GossipsubMesh H) (topic h : H) :
    h ∈ (g.subscribe topic).2.subscriptions.elems ↔
      h = topic ∨ h ∈ g.subscriptions.elems := by
  unfold subscribe
  split <;> simp_all [or_iff_right_of_imp]

@[simp] theorem mem_unsubscribe (g : GossipsubMesh H) (topic h : H) :
    h ∈ (g.unsubscribe topic).2.subscriptions.elems ↔
      h ≠ topic ∧ h ∈ g.subscriptions.elems := by
  unfold unsubscribe
  split
  · simp
  · next hn => exact ⟨fun hh => ⟨fun e => hn (e ▸ hh), hh⟩, And.right⟩

theorem unsubscribe_eq_self_iff (g : GossipsubMesh H) (topic : H) :
    (g.unsubscribe topic).2 = g ↔ topic ∉ g.subscriptions.elems :=
  ⟨fun h ht => ((g.mem_unsubscribe topic topic).1 (by rwa [h])).1 rfl,
    fun h => by simp [unsubscribe, h]⟩

theorem unsubscribe_subscribe (g : GossipsubMesh H) (topic : H) :
    ((g.subscribe topic).2.unsubscribe topic).2 = (g.unsubscribe topic).2 := by
  by_cases h : topic ∈ g.subscriptions.elems
  · simp [subscribe, h]
  · simp [subscribe, unsubscribe, h, TopicSet.remove_insert, (TopicSet.remove_eq_self_iff _ _).2 h]

end GossipsubMesh

/-- What the subscription calls touch: the shared set, the gossip engine, and the wrapper's
`enr_fork_id`. -/
@[ext] structure Subscriptions (T H F : Type) where
  gossipsubSubscriptions : TopicSet T
  gossipsub : GossipsubMesh H
  enrForkId : F

/-- A subscription call, on the core behaviour or on the wrapper. -/
inductive SubscriptionCall (T K F : Type)
  | subscribe (topic : T)
  | unsubscribe (topic : T)
  | subscribeKind (kind : K)
  | unsubscribeKind (kind : K)
  | updateForkVersion (enrForkId : F)

namespace Subscriptions

section

variable {T H F K : Type} [DecidableEq T] [DecidableEq H] (toTopic : T → H) (newTopic : K → T)

/-- `subscribe`: the shared set first, then the engine, whose answer is returned. -/
def subscribe (s : Subscriptions T H F) (topic : T) : Bool × Subscriptions T H F :=
  let s := { s with gossipsubSubscriptions := s.gossipsubSubscriptions.insert topic }
  let (ok, gossipsub) := s.gossipsub.subscribe (toTopic topic)
  (ok, { s with gossipsub })

/-- `unsubscribe`: the shared set first, then the engine, whose answer is returned. -/
def unsubscribe (s : Subscriptions T H F) (topic : T) : Bool × Subscriptions T H F :=
  let s := { s with gossipsubSubscriptions := s.gossipsubSubscriptions.remove topic }
  let (ok, gossipsub) := s.gossipsub.unsubscribe (toTopic topic)
  (ok, { s with gossipsub })

/-- `subscribe_kind`. -/
def subscribeKind (s : Subscriptions T H F) (kind : K) : Bool × Subscriptions T H F :=
  s.subscribe toTopic (newTopic kind)

/-- `unsubscribe_kind`. -/
def unsubscribeKind (s : Subscriptions T H F) (kind : K) : Bool × Subscriptions T H F :=
  s.unsubscribe toTopic (newTopic kind)

/-- The wrapper's `update_fork_version`, the update of the discovery ENR aside: unsubscribe from
every topic of a snapshot of the set, subscribe to each again, and record the fork id. -/
def updateForkVersion (s : Subscriptions T H F) (enrForkId : F) : Subscriptions T H F :=
  let subscribedTopics := s.gossipsubSubscriptions.elems
  let s := subscribedTopics.foldl (fun s topic => (s.unsubscribe toTopic topic).2) s
  let s := subscribedTopics.foldl (fun s topic => (s.subscribe toTopic topic).2) s
  { s with enrForkId }

/-- The state after a call. -/
def exec (s : Subscriptions T H F) : SubscriptionCall T K F → Subscriptions T H F
  | .subscribe topic => (s.subscribe toTopic topic).2
  | .unsubscribe topic => (s.unsubscribe toTopic topic).2
  | .subscribeKind kind => (s.subscribeKind toTopic newTopic kind).2
  | .unsubscribeKind kind => (s.unsubscribeKind toTopic newTopic kind).2
  | .updateForkVersion enrForkId => s.updateForkVersion toTopic enrForkId

/-- The state after a sequence of calls. -/
def run (s : Subscriptions T H F) (calls : List (SubscriptionCall T K F)) : Subscriptions T H F :=
  calls.foldl (exec toTopic newTopic) s

/-- The engine's subscriptions are the image of the shared set under the conversion. -/
def Agree (s : Subscriptions T H F) : Prop :=
  (s.gossipsubSubscriptions.elems.map toTopic).toFinset = s.gossipsub.subscriptions.elems.toFinset

instance (s : Subscriptions T H F) : Decidable (s.Agree toTopic) :=
  inferInstanceAs (Decidable (_ = _))

variable {toTopic}

omit [DecidableEq T] in
theorem agree_iff {s : Subscriptions T H F} :
    s.Agree toTopic ↔
      ∀ h, h ∈ s.gossipsub.subscriptions.elems ↔
        ∃ t ∈ s.gossipsubSubscriptions.elems, toTopic t = h := by
  simp only [Agree, Finset.ext_iff, List.mem_toFinset, List.mem_map]
  exact forall_congr' fun _ => Iff.comm

@[simp] theorem subscribe_gossipsubSubscriptions (s : Subscriptions T H F) (topic : T) :
    (s.subscribe toTopic topic).2.gossipsubSubscriptions = s.gossipsubSubscriptions.insert topic :=
  rfl

@[simp] theorem subscribe_gossipsub (s : Subscriptions T H F) (topic : T) :
    (s.subscribe toTopic topic).2.gossipsub = (s.gossipsub.subscribe (toTopic topic)).2 := rfl

@[simp] theorem unsubscribe_gossipsubSubscriptions (s : Subscriptions T H F) (topic : T) :
    (s.unsubscribe toTopic topic).2.gossipsubSubscriptions =
      s.gossipsubSubscriptions.remove topic :=
  rfl

@[simp] theorem unsubscribe_gossipsub (s : Subscriptions T H F) (topic : T) :
    (s.unsubscribe toTopic topic).2.gossipsub = (s.gossipsub.unsubscribe (toTopic topic)).2 := rfl

/-- Subscribing keeps agreement, whatever the conversion. -/
theorem Agree.subscribe {s : Subscriptions T H F} (hs : s.Agree toTopic) (topic : T) :
    (s.subscribe toTopic topic).2.Agree toTopic := by
  rw [agree_iff] at hs ⊢
  intro h
  simp only [subscribe_gossipsub, GossipsubMesh.mem_subscribe, hs, subscribe_gossipsubSubscriptions,
    TopicSet.mem_insert, exists_eq_or_imp]
  exact ⟨fun h' => h'.elim (.inl ∘ Eq.symm) .inr, fun h' => h'.elim (.inl ∘ Eq.symm) .inr⟩

/-- Unsubscribing keeps agreement when the conversion is injective. -/
theorem Agree.unsubscribe (hinj : Function.Injective toTopic) {s : Subscriptions T H F}
    (hs : s.Agree toTopic) (topic : T) : (s.unsubscribe toTopic topic).2.Agree toTopic := by
  rw [agree_iff] at hs ⊢
  intro h
  simp only [unsubscribe_gossipsub, GossipsubMesh.mem_unsubscribe, hs,
    unsubscribe_gossipsubSubscriptions,
    TopicSet.mem_remove]
  constructor
  · rintro ⟨hne, t, ht, rfl⟩
    exact ⟨t, ⟨fun h => hne (congrArg toTopic h), ht⟩, rfl⟩
  · rintro ⟨t, ⟨hne, ht⟩, rfl⟩
    exact ⟨fun h => hne (hinj h), t, ht, rfl⟩

omit [DecidableEq T] in
theorem Agree.foldl {β : Type} {s : Subscriptions T H F}
    {f : Subscriptions T H F → β → Subscriptions T H F}
    (hf : ∀ s x, s.Agree toTopic → (f s x).Agree toTopic) (l : List β) (hs : s.Agree toTopic) :
    (l.foldl f s).Agree toTopic := by
  induction l generalizing s with
  | nil => exact hs
  | cons x l ih => exact ih (hf s x hs)

theorem Agree.exec (hinj : Function.Injective toTopic) {s : Subscriptions T H F}
    (hs : s.Agree toTopic) (c : SubscriptionCall T K F) :
    (s.exec toTopic newTopic c).Agree toTopic := by
  cases c with
  | subscribe topic => exact hs.subscribe topic
  | unsubscribe topic => exact hs.unsubscribe hinj topic
  | subscribeKind kind => exact hs.subscribe (newTopic kind)
  | unsubscribeKind kind => exact hs.unsubscribe hinj (newTopic kind)
  | updateForkVersion enrForkId =>
    exact (hs.foldl (fun _ t h => h.unsubscribe hinj t) _).foldl (fun _ t h => h.subscribe t) _

/-- With an injective conversion, a sequence of subscription calls from a state where the shared
set and the engine agree leaves them agreeing. -/
theorem run_agree (hinj : Function.Injective toTopic) (s : Subscriptions T H F)
    (hs : s.Agree toTopic) (calls : List (SubscriptionCall T K F)) :
    (s.run toTopic newTopic calls).Agree toTopic :=
  hs.foldl (fun _ c h => h.exec newTopic hinj c) calls

theorem run_agree_of_id :
    Function.Injective (id : ℕ → ℕ) ∧
      (⟨.empty, ⟨.empty⟩, 0⟩ : Subscriptions ℕ ℕ ℕ).Agree id ∧
      ((⟨.empty, ⟨.empty⟩, 0⟩ : Subscriptions ℕ ℕ ℕ).run id id
        [.subscribe 1, .subscribeKind 2, .unsubscribe 1, .updateForkVersion 3]).Agree id :=
  ⟨Function.injective_id, by decide, run_agree id Function.injective_id _ (by decide) _⟩

/-- Under a conversion that maps every topic to one `Topic`, subscribing to `1` and `2` from the
empty state and then unsubscribing from `1` leaves `2` in the shared set and no topic in the
engine: the two no longer agree. -/
theorem run_agree_fails_of_const :
    (⟨.empty, ⟨.empty⟩, 0⟩ : Subscriptions ℕ ℕ ℕ).Agree (fun _ => 0) ∧
      ((⟨.empty, ⟨.empty⟩, 0⟩ : Subscriptions ℕ ℕ ℕ).run (fun _ => 0) id
        [.subscribe 1, .subscribe 2, .unsubscribe 1]).gossipsubSubscriptions.elems = [2] ∧
      ((⟨.empty, ⟨.empty⟩, 0⟩ : Subscriptions ℕ ℕ ℕ).run (fun _ => 0) id
        [.subscribe 1, .subscribe 2, .unsubscribe 1]).gossipsub.subscriptions.elems = [] ∧
      ¬ ((⟨.empty, ⟨.empty⟩, 0⟩ : Subscriptions ℕ ℕ ℕ).run (fun _ => 0) id
        [.subscribe 1, .subscribe 2, .unsubscribe 1]).Agree (fun _ => 0) := by
  decide

/-- Unsubscribing from one of two topics of the set with one image unsubscribes the engine from
the other. -/
theorem unsubscribe_drifts {s : Subscriptions T H F} {t u : T}
    (hne : t ≠ u) (hf : toTopic t = toTopic u) (ht : u ∈ s.gossipsubSubscriptions.elems) :
    ¬ (s.unsubscribe toTopic t).2.Agree toTopic := by
  rw [agree_iff]
  intro h
  have := (h (toTopic u)).2 ⟨u, by simpa [TopicSet.mem_remove] using ⟨hne.symm, ht⟩, rfl⟩
  simp [hf] at this

theorem unsubscribe_subscribe (s : Subscriptions T H F) (topic : T) :
    ((s.subscribe toTopic topic).2.unsubscribe toTopic topic).2 = (s.unsubscribe toTopic topic).2 :=
  Subscriptions.ext (TopicSet.remove_insert _ _) (GossipsubMesh.unsubscribe_subscribe _ _) rfl

theorem unsubscribe_eq_self_iff (s : Subscriptions T H F) (topic : T) :
    (s.unsubscribe toTopic topic).2 = s ↔
      topic ∉ s.gossipsubSubscriptions.elems ∧ toTopic topic ∉ s.gossipsub.subscriptions.elems := by
  rw [Subscriptions.ext_iff, unsubscribe_gossipsubSubscriptions, unsubscribe_gossipsub,
    TopicSet.remove_eq_self_iff, GossipsubMesh.unsubscribe_eq_self_iff]
  exact ⟨fun h => ⟨h.1, h.2.1⟩, fun h => ⟨h.1, h.2, rfl⟩⟩

/-- `subscribe(t)` then `unsubscribe(t)`, and `subscribe_kind(k)` then `unsubscribe_kind(k)`,
leave the shared set and the engine as the unsubscribe alone would; the pair gives back the state
it started from exactly when neither the set holds `t` nor the engine its `Topic`. -/
theorem subscribe_then_unsubscribe (s : Subscriptions T H F) (t : T) (k : K) :
    ((s.subscribe toTopic t).2.unsubscribe toTopic t).2 = (s.unsubscribe toTopic t).2 ∧
    ((s.subscribeKind toTopic newTopic k).2.unsubscribeKind toTopic newTopic k).2 =
      (s.unsubscribeKind toTopic newTopic k).2 ∧
    (((s.subscribe toTopic t).2.unsubscribe toTopic t).2 = s ↔
      t ∉ s.gossipsubSubscriptions.elems ∧ toTopic t ∉ s.gossipsub.subscriptions.elems) := by
  rw [← unsubscribe_eq_self_iff, unsubscribe_subscribe]
  exact ⟨rfl, unsubscribe_subscribe s (newTopic k), Iff.rfl⟩

/-- The state `subscribe(1)` reaches from empty sets, topics being their own `Topic`s. -/
def subscribedToOne : Subscriptions ℕ ℕ ℕ :=
  (⟨.empty, ⟨.empty⟩, 0⟩ : Subscriptions ℕ ℕ ℕ).run id id [.subscribe 1]

theorem subscribe_then_unsubscribe_of_subscribed :
    subscribedToOne.gossipsubSubscriptions.elems = [1] ∧
      subscribedToOne.gossipsub.subscriptions.elems = [1] ∧
      ((subscribedToOne.subscribe id 1).2.unsubscribe id 1).2.gossipsubSubscriptions.elems = [] ∧
      ((subscribedToOne.subscribe id 1).2.unsubscribe id 1).2.gossipsub.subscriptions.elems = [] ∧
      ((subscribedToOne.subscribeKind id id 1).2.unsubscribeKind id id
        1).2.gossipsubSubscriptions.elems = [] ∧
      ((subscribedToOne.subscribeKind id id 1).2.unsubscribeKind id id
        1).2.gossipsub.subscriptions.elems = [] := by
  decide

theorem unsubscribe_drifts_of_const :
    (1 : ℕ) ≠ 2 ∧ (fun _ => 0 : ℕ → ℕ) 1 = (fun _ => 0 : ℕ → ℕ) 2 ∧
      2 ∈ (⟨⟨[1, 2], by decide⟩, ⟨⟨[0], by decide⟩⟩, 0⟩ : Subscriptions ℕ ℕ ℕ).gossipsubSubscriptions.elems ∧
      ¬ ((⟨⟨[1, 2], by decide⟩, ⟨⟨[0], by decide⟩⟩, 0⟩ : Subscriptions ℕ ℕ ℕ).unsubscribe
        (fun _ => 0) 1).2.Agree (fun _ => 0) :=
  ⟨by decide, rfl, by decide, unsubscribe_drifts (u := 2) (by decide) rfl (by decide)⟩

/-! ## `update_fork_version` -/

theorem mem_foldl_unsubscribe (l : List T) :
    ∀ (s : Subscriptions T H F),
      (∀ t, t ∈ (l.foldl (fun s topic => (s.unsubscribe toTopic topic).2) s).gossipsubSubscriptions.elems ↔
        t ∈ s.gossipsubSubscriptions.elems ∧ t ∉ l) ∧
      (∀ h, h ∈ (l.foldl (fun s topic => (s.unsubscribe toTopic topic).2) s).gossipsub.subscriptions.elems ↔
        h ∈ s.gossipsub.subscriptions.elems ∧ h ∉ l.map toTopic) := by
  induction l with
  | nil => simp
  | cons topic l ih =>
    intro s
    obtain ⟨ih₁, ih₂⟩ := ih (s.unsubscribe toTopic topic).2
    refine ⟨fun t => ?_, fun h => ?_⟩
    · rw [List.foldl_cons, ih₁, unsubscribe_gossipsubSubscriptions, TopicSet.mem_remove]
      simp only [List.mem_cons, not_or]
      tauto
    · rw [List.foldl_cons, ih₂, unsubscribe_gossipsub, GossipsubMesh.mem_unsubscribe]
      simp only [List.map_cons, List.mem_cons, not_or]
      tauto

theorem mem_foldl_subscribe (l : List T) :
    ∀ (s : Subscriptions T H F),
      (∀ t, t ∈ (l.foldl (fun s topic => (s.subscribe toTopic topic).2) s).gossipsubSubscriptions.elems ↔
        t ∈ s.gossipsubSubscriptions.elems ∨ t ∈ l) ∧
      (∀ h, h ∈ (l.foldl (fun s topic => (s.subscribe toTopic topic).2) s).gossipsub.subscriptions.elems ↔
        h ∈ s.gossipsub.subscriptions.elems ∨ h ∈ l.map toTopic) := by
  induction l with
  | nil => simp
  | cons topic l ih =>
    intro s
    obtain ⟨ih₁, ih₂⟩ := ih (s.subscribe toTopic topic).2
    refine ⟨fun t => ?_, fun h => ?_⟩
    · rw [List.foldl_cons, ih₁, subscribe_gossipsubSubscriptions, TopicSet.mem_insert]
      simp only [List.mem_cons]
      tauto
    · rw [List.foldl_cons, ih₂, subscribe_gossipsub, GossipsubMesh.mem_subscribe]
      simp only [List.map_cons, List.mem_cons]
      tauto

/-- `update_fork_version`, whose re-subscription to the new fork's topics is left to a `TODO`,
changes no subscription: the shared set keeps its topics, and the engine keeps its topics and
gains those of the set it lacked, so it is left as it was when the two agree; only the recorded
fork id is new. -/
theorem updateForkVersion_keeps_topics (s : Subscriptions T H F) (e : F) :
    (∀ t, t ∈ (s.updateForkVersion toTopic e).gossipsubSubscriptions.elems ↔
      t ∈ s.gossipsubSubscriptions.elems) ∧
    (∀ h, h ∈ (s.updateForkVersion toTopic e).gossipsub.subscriptions.elems ↔
      h ∈ s.gossipsub.subscriptions.elems ∨ h ∈ s.gossipsubSubscriptions.elems.map toTopic) ∧
    (s.Agree toTopic → ∀ h, h ∈ (s.updateForkVersion toTopic e).gossipsub.subscriptions.elems ↔
      h ∈ s.gossipsub.subscriptions.elems) ∧
    (s.updateForkVersion toTopic e).enrForkId = e := by
  obtain ⟨hu₁, hu₂⟩ := mem_foldl_unsubscribe s.gossipsubSubscriptions.elems s
  obtain ⟨hs₁, hs₂⟩ := mem_foldl_subscribe s.gossipsubSubscriptions.elems
    (s.gossipsubSubscriptions.elems.foldl (fun s topic => (s.unsubscribe toTopic topic).2) s)
  have hG : ∀ h, h ∈ (s.updateForkVersion toTopic e).gossipsub.subscriptions.elems ↔
      h ∈ s.gossipsub.subscriptions.elems ∨ h ∈ s.gossipsubSubscriptions.elems.map toTopic :=
    fun h => (hs₂ h).trans (by rw [hu₂]; tauto)
  refine ⟨fun t => (hs₁ t).trans (by rw [hu₁]; tauto), hG, fun ha h => ?_, rfl⟩
  rw [hG, agree_iff.1 ha h, List.mem_map]
  tauto

end

end Subscriptions

end Mothra
