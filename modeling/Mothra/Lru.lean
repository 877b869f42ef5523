import Mathlib.Data.List.Nodup

/-!
# `LruCache`

The libp2p wrapper keeps the ids of the gossip messages it has seen in an `LruCache` of the `lru`
crate, which is not in the repository; it is modelled from the crate's documented behaviour. The
entries are kept from the most to the least recently used, each key once and at most `cap` of
them. `put` of a cached key replaces its value, moves it to the front and returns the old value;
`put` of a new key evicts the least recently used entry when the cache is full, puts the key in
front and returns `None`.

What the cache holds is then a function of the keys put, whatever the values: the `cap` most
recently put distinct keys, from the most recent (`recent`, `Refines.put`). So `put` returns
`None` exactly for a key that is not among the `cap` most recently put ones
(`Refines.put_fst_eq_none`).
-/

namespace Mothra

section Recent

variable {K : Type} [DecidableEq K]

/-- The keys of a history of puts, the oldest first: each key once, from the most to the least
recently put. -/
def recent (h : List K) : List K :=
  h.foldl (fun r k => k :: r.erase k) []

@[simp] theorem recent_nil : recent ([] : List K) = [] := rfl

@[simp] theorem recent_append_singleton (h : List K) (k : K) :
    recent (h ++ [k]) = k :: (recent h).erase k := by
  simp [recent]

theorem nodup_recent (h : List K) : (recent h).Nodup := by
  induction h using List.reverseRecOn with
  | nil => exact List.nodup_nil
  | append_singleton h k ih =>
    rw [recent_append_singleton]
    exact List.nodup_cons.2 ⟨ih.not_mem_erase, ih.erase k⟩

@[simp] theorem mem_recent {h : List K} {k : K} : k ∈ recent h ↔ k ∈ h := by
  induction h using List.reverseRecOn with
  | nil => simp
  | append_singleton h a ih =>
    rw [recent_append_singleton, List.mem_cons, (nodup_recent h).mem_erase_iff, ih]
    by_cases hk : k = a <;> simp [hk]

/-- Erasing a key from among the first `n` leaves the first `n - 1` of the others. -/
theorem take_erase_of_mem {k : K} :
    ∀ {R : List K} {n : ℕ}, k ∈ R.take n → (R.erase k).take (n - 1) = (R.take n).erase k
  | [], _, hk | _ :: _, 0, hk => absurd hk (by simp)
  | a :: R, n + 1, hk => by
    by_cases ha : a = k
    · subst ha
      simp
    · have hk' : k ∈ R.take n := by simpa [Ne.symm ha] using hk
      cases n with
      | zero => simp at hk'
      | succ n =>
        have ih := take_erase_of_mem hk'
        rw [Nat.add_sub_cancel] at ih ⊢
        rw [List.erase_cons_tail (by simpa using ha), List.take_succ_cons, List.take_succ_cons,
          List.erase_cons_tail (by simpa using ha), ih]

/-- Erasing a key that is not among the first `n` leaves the first `n`. -/
theorem take_erase_of_not_mem {k : K} :
    ∀ {R : List K} {n : ℕ}, k ∉ R.take n → (R.erase k).take n = R.take n
  | [], _, _ => by simp
  | _ :: _, 0, _ => rfl
  | a :: R, n + 1, hk => by
    have ha : a ≠ k := fun h => hk (by simp [h])
    rw [List.erase_cons_tail (by simpa using ha), List.take_succ_cons, List.take_succ_cons,
      take_erase_of_not_mem fun h => hk (by simp [h])]

end Recent

/-- An `LruCache`: its entries from the most to the least recently used, each key once, and no
more than its capacity of them. -/
structure LruCache (K V : Type) where
  cap : ℕ
  entries : List (K × V)
  cap_pos : 0 < cap
  nodup : (entries.map Prod.fst).Nodup
  length_le : entries.length ≤ cap

namespace LruCache

variable {K V : Type} [DecidableEq K]

/-- The cached keys, from the most to the least recently used. -/
def keys (c : LruCache K V) : List K := c.entries.map Prod.fst

/-- `LruCache::new(cap)`. -/
def new (cap : ℕ) (h : 0 < cap) : LruCache K V := ⟨cap, [], h, List.nodup_nil, Nat.zero_le _⟩

/-- The entries after `put k v`: a cached `k` is moved to the front with its new value; a new `k`
goes in front, after the least recently used entry is dropped when `cap` entries are cached. -/
def putEntries (cap : ℕ) (entries : List (K × V)) (k : K) (v : V) : List (K × V) :=
  (k, v) :: if k ∈ entries.map Prod.fst then entries.filter (·.1 != k)
    else if entries.length = cap then entries.dropLast else entries

theorem map_fst_putEntries (cap : ℕ) {es : List (K × V)} (hes : (es.map Prod.fst).Nodup) (k : K)
    (v : V) :
    (putEntries cap es k v).map Prod.fst = k ::
      if k ∈ es.map Prod.fst then (es.map Prod.fst).erase k
      else if es.length = cap then (es.map Prod.fst).dropLast else es.map Prod.fst := by
  unfold putEntries
  split_ifs <;> simp [hes.erase_eq_filter, List.filter_map, Function.comp_def]

theorem nodup_putEntries (c : LruCache K V) (k : K) (v : V) :
    ((putEntries c.cap c.entries k v).map Prod.fst).Nodup := by
  rw [map_fst_putEntries _ c.nodup, List.nodup_cons]
  split_ifs with hk
  · exact ⟨c.nodup.not_mem_erase, c.nodup.erase k⟩
  · exact ⟨fun h => hk (List.dropLast_subset _ h), c.nodup.sublist (List.dropLast_sublist _)⟩
  · exact ⟨hk, c.nodup⟩

theorem length_putEntries_le (c : LruCache K V) (k : K) (v : V) :
    (putEntries c.cap c.entries k v).length ≤ c.cap := by
  have h := congrArg List.length (map_fst_putEntries c.cap c.nodup k v)
  have hle := c.length_le
  have hpos := c.cap_pos
  simp only [List.length_map] at h
  rw [h]
  split_ifs with hk hfull
  · rw [List.length_cons, List.length_erase_of_mem hk, List.length_map]
    have := List.length_pos_of_mem hk
    simp only [List.length_map] at this
    omega
  · simp only [List.length_cons, List.length_dropLast, List.length_map]
    omega
  · simp only [List.length_cons, List.length_map]
    omega

/-- `LruCache::put`: the value `k` had, if it was cached, and the cache after. -/
def put (c : LruCache K V) (k : K) (v : V) : Option V × LruCache K V :=
  (c.entries.lookup k,
    ⟨c.cap, putEntries c.cap c.entries k v, c.cap_pos, c.nodup_putEntries k v,
      c.length_putEntries_le k v⟩)

@[simp] theorem put_cap (c : LruCache K V) (k : K) (v : V) : (c.put k v).2.cap = c.cap := rfl

theorem put_fst_eq_none_iff (c : LruCache K V) (k : K) (v : V) :
    (c.put k v).1 = none ↔ k ∉ c.keys := by
  simp only [put, keys, List.lookup_eq_none_iff, List.mem_map, not_exists, not_and, bne_iff_ne]
  exact ⟨fun h e he hk => h e he hk.symm, fun h e he hk => h e he hk.symm⟩

/-- The keys of a cache are the `cap` most recently put keys of a history. -/
def Refines (c : LruCache K V) (h : List K) : Prop := c.keys = (recent h).take c.cap

theorem refines_new (cap : ℕ) (h : 0 < cap) : (new cap h : LruCache K V).Refines [] := by
  simp [Refines, keys, new]

/-- `put k` keeps a cache the `cap` most recently put keys of the history, with `k` put last. -/
theorem Refines.put {c : LruCache K V} {h : List K} (hc : c.Refines h) (k : K) (v : V) :
    (c.put k v).2.Refines (h ++ [k]) := by
  obtain ⟨m, hm⟩ : ∃ m, c.cap = m + 1 := Nat.exists_eq_add_one.2 c.cap_pos
  have hc' : c.entries.map Prod.fst = (recent h).take (m + 1) := hm ▸ hc
  have hlen : c.entries.length = ((recent h).take (m + 1)).length := by
    rw [← hc', List.length_map]
  have hle := c.length_le
  show (putEntries c.cap c.entries k v).map Prod.fst = (recent (h ++ [k])).take c.cap
  rw [map_fst_putEntries _ c.nodup, hc', recent_append_singleton, hm, List.take_succ_cons]
  congr 1
  split_ifs with hin hfull
  · simpa using (take_erase_of_mem hin).symm
  · rw [List.dropLast_eq_take, show ((recent h).take (m + 1)).length - 1 = m by omega,
      ← take_erase_of_not_mem hin, List.take_take, min_eq_left (Nat.le_succ m)]
  · have hshort : (recent h).length ≤ m := by
      rw [List.length_take] at hlen
      omega
    rw [List.take_of_length_le (by omega)] at hin ⊢
    rw [List.erase_of_not_mem hin, List.take_of_length_le hshort]

/-- With a cache that refines a history, `put k` returns `None` exactly when `k` is not among the
`cap` most recently put keys. -/
theorem Refines.put_fst_eq_none {c : LruCache K V} {h : List K} (hc : c.Refines h) (k : K)
    (v : V) : (c.put k v).1 = none ↔ k ∉ (recent h).take c.cap := by
  rw [put_fst_eq_none_iff, hc]

end LruCache

end Mothra
