import ClaudeSwarm.Data.OrderedDict
import ClaudeSwarm.Python

/-!
# The store of the cache

Model of `_CacheStore` (`src/ttl_cache.py`): an ordered dictionary of values with the time at which each lapses, least
recently used first. A `get` drops an entry that has lapsed, and moves one that has not to the end; a `put` sets the
entry at the end and pops the first ones while there are more than `max_size`. Keys and values are of any type; the time
that an operation reads is an argument of it.

`History` is what has been asked of a store and what came of it, newest first. `live` and `lastUse` are read off the
history alone: the value put last under a key that has neither been evicted nor cleared since, and the place of the last
successful use of a key.

* `Represents`: a store is what its history says, lapsed entries apart.
* `Represents.apply`: every operation, read at a time that is not before the earlier ones, keeps that.
* **`lru_store`**: at most `max_size` entries in the order of their last use; a `get` hits exactly a live value that has
  not lapsed; what is evicted was used before all that stays; and hits and misses are the gets.
-/

namespace ClaudeSwarm.TtlCache

open Data
open Python (Time)

variable {K V : Type} [DecidableEq K]

/-- `_CacheStore`, each value with its `expires_at`. -/
structure CacheStore (K V : Type) where
  store : Dict K (Time × V)
  ttl : Time
  max_size : Nat
  hits : Nat
  misses : Nat

namespace CacheStore

/-- `__init__`. -/
def init (ttl_seconds : Time) (max_size : Nat) : CacheStore K V := ⟨Dict.empty, ttl_seconds, max_size, 0, 0⟩

/-- `get`: the value of a hit, and the store after it. -/
def get (s : CacheStore K V) (now : Time) (key : K) : Option V × CacheStore K V :=
  match s.store.get? key with
  | none => (none, { s with misses := s.misses + 1 })
  | some (expires_at, value) =>
    if expires_at < now then (none, { s with store := s.store.erase key, misses := s.misses + 1 })
    else (some value, { s with store := s.store.moveToEnd key, hits := s.hits + 1 })

/-- The dictionary with the value set at the end, before anything is popped. -/
def stored (s : CacheStore K V) (now : Time) (key : K) (value : V) : Dict K (Time × V) :=
  (s.store.set key (now + s.ttl, value)).moveToEnd key

/-- `put`. -/
def put (s : CacheStore K V) (now : Time) (key : K) (value : V) : CacheStore K V :=
  { s with store := (s.stored now key value).evict s.max_size }

/-- `clear`. -/
def clear (s : CacheStore K V) : CacheStore K V := { s with store := Dict.empty }

/-- `stats`: `size`, `hits`, `misses` and the `hit_rate` before it is rounded. -/
def stats (s : CacheStore K V) : Nat × Nat × Nat × ℚ :=
  let total := s.hits + s.misses
  (s.store.entries.length, s.hits, s.misses, if total ≠ 0 then s.hits / total else 0)

variable {s : CacheStore K V} {now : Time} {key k : K} {v : V} {x : Time × V}

theorem ttl_get (s : CacheStore K V) (now : Time) (key : K) : (s.get now key).2.ttl = s.ttl := by
  unfold get
  split
  · rfl
  · split <;> rfl

/-- A hit is an entry that has not lapsed. -/
theorem get?_of_hit (h : (s.get now key).1 = some v) : ∃ expires_at, s.store.get? key = some (expires_at, v) ∧
    now ≤ expires_at := by
  unfold get at h
  split at h
  · cases h
  · rename_i expires_at value hget
    split at h
    · cases h
    · rename_i hlt
      exact ⟨expires_at, Option.some.inj h ▸ hget, not_lt.mp hlt⟩

/-- A `get` adds nothing. -/
theorem get?_of_get (h : (s.get now key).2.store.get? k = some x) : s.store.get? k = some x := by
  unfold get at h
  split at h
  · exact h
  · split at h
    · rw [Dict.get?_erase] at h
      split at h
      · cases h
      · exact h
    · exact Dict.get?_moveToEnd.symm.trans h

/-- A `put` adds the entry of its key only. -/
theorem get?_of_put (h : (s.put now key v).store.get? k = some x) :
    (k = key ∧ x = (now + s.ttl, v)) ∨ s.store.get? k = some x := by
  rw [put, Dict.get?_evict] at h
  split at h
  · cases h
  · rw [stored, Dict.get?_moveToEnd, Dict.get?_set] at h
    split at h
    · rename_i hk
      exact .inl ⟨hk, (Option.some.inj h).symm⟩
    · exact .inr h

end CacheStore

/-! ## Histories -/

/-- A call of the store; `get` and `put` with the time they read. -/
inductive Op (K V : Type) where
  | get (now : Time) (key : K)
  | put (now : Time) (key : K) (value : V)
  | clear

/-- The time that is read. -/
def Op.time : Op K V → Option Time
  | get now _ => some now
  | put now _ _ => some now
  | clear => none

/-- Whether the call is a `get`. -/
def Op.isGet : Op K V → Bool
  | get _ _ => true
  | _ => false

/-- A call, what a `get` hit and which keys a `put` popped. -/
structure Event (K V : Type) where
  op : Op K V
  hit : Option V
  evicted : List K

/-- The events so far, newest first. -/
abbrev History (K V : Type) := List (Event K V)

/-- The store after a call, and the event. -/
def CacheStore.apply (s : CacheStore K V) : Op K V → CacheStore K V × Event K V
  | .get now key => ((s.get now key).2, ⟨.get now key, (s.get now key).1, []⟩)
  | .put now key value => (s.put now key value, ⟨.put now key value, none, (s.stored now key value).popped s.max_size⟩)
  | .clear => (s.clear, ⟨.clear, none, []⟩)

/-- A store and its history after the calls `ops`, oldest first, from a store and a history. -/
def runFrom (s : CacheStore K V) (h : History K V) : List (Op K V) → CacheStore K V × History K V
  | [] => (s, h)
  | op :: ops => runFrom (s.apply op).1 ((s.apply op).2 :: h) ops

/-- A new store and its history after `ops`. -/
def run (ttl_seconds : Time) (max_size : Nat) (ops : List (Op K V)) : CacheStore K V × History K V :=
  runFrom (.init ttl_seconds max_size) [] ops

/-- The last `put` of a key, when it was and what it put, if the key has been neither evicted nor cleared since. -/
def live : History K V → K → Option (Time × V)
  | [], _ => none
  | e :: h, k =>
    match e.op with
    | .get _ _ => live h k
    | .put now key value => if k ∈ e.evicted then none else if k = key then some (now, value) else live h k
    | .clear => none

theorem live_put {h : History K V} {now : Time} {key k : K} {value : V} {evicted : List K} :
    live (⟨.put now key value, none, evicted⟩ :: h) k =
      if k ∈ evicted then none else if k = key then some (now, value) else live h k := rfl

/-- Whether an event is a successful use of a key: a `get` that hit it, or a `put`. -/
def Event.uses (e : Event K V) (k : K) : Bool :=
  match e.op with
  | .get _ key => k = key && e.hit.isSome
  | .put _ key _ => k = key
  | .clear => false

/-- The place of the last successful use of a key, counted from one; zero if there is none. -/
def lastUse : History K V → K → Nat
  | [], _ => 0
  | e :: h, k => if e.uses k then h.length + 1 else lastUse h k

/-- The times that were read, newest first. -/
def times (h : History K V) : List Time := h.filterMap fun e => e.op.time

/-! ## What a store is, by its history -/

/-- A store as its history says: no more than `max_size` entries, in the order of their last use; every one is the live
value of its key; a live value that is missing had lapsed at some time that was read. -/
structure Represents (ttl : Time) (max_size : Nat) (h : History K V) (s : CacheStore K V) : Prop where
  ttl_eq : s.ttl = ttl
  max_eq : s.max_size = max_size
  size : s.store.entries.length ≤ max_size
  order : s.store.keys.Pairwise fun k k' => lastUse h k < lastUse h k'
  held : ∀ k expires_at v, s.store.get? k = some (expires_at, v) → ∃ t, live h k = some (t, v) ∧ expires_at = t + ttl
  lapsed : ∀ k t v, live h k = some (t, v) → s.store.get? k = none → ∃ now ∈ times h, t + ttl < now
  counted : s.hits + s.misses = h.countP fun e => e.op.isGet

variable {ttl : Time} {max_size : Nat} {h : History K V} {s : CacheStore K V} {now : Time} {key k : K} {value : V}

theorem lastUse_le : ∀ (h : History K V) (k : K), lastUse h k ≤ h.length
  | [], _ => le_rfl
  | e :: h, k => by
    have ih := lastUse_le h k
    rw [lastUse, List.length_cons]
    split <;> omega

/-- A dictionary in the order of use stays so when what is in it is not used again. -/
theorem order_cons {d : Dict K (Time × V)} {e : Event K V} (hord : d.keys.Pairwise fun k k' => lastUse h k < lastUse h k')
    (hunused : ∀ k ∈ d.keys, e.uses k = false) : d.keys.Pairwise fun k k' => lastUse (e :: h) k < lastUse (e :: h) k' := by
  refine hord.imp_of_mem fun {k k'} hk hk' hlt => ?_
  rw [lastUse, lastUse, hunused k hk, hunused k' hk']
  exact hlt

/-- The keys that stay, in the order of use, and the one that is used now. -/
theorem order_append {keys : List K} {e : Event K V} (hord : keys.Pairwise fun k k' => lastUse h k < lastUse h k')
    (huse : e.uses key = true) (hunused : ∀ k, k ≠ key → e.uses k = false) :
    ((keys.filter fun k => k ≠ key) ++ [key]).Pairwise fun k k' => lastUse (e :: h) k < lastUse (e :: h) k' := by
  have hnew : lastUse (e :: h) key = h.length + 1 := by rw [lastUse, if_pos huse]
  have hold : ∀ k, k ≠ key → lastUse (e :: h) k = lastUse h k := fun k hne => by
    rw [lastUse, hunused k hne]
    rfl
  refine List.pairwise_append.mpr ⟨?_, List.pairwise_singleton _ _, fun k hk k' hk' => ?_⟩
  · refine (hord.filter _).imp_of_mem fun {k k'} hk hk' hlt => ?_
    have hne := of_decide_eq_true (List.mem_filter.mp hk).2
    have hne' := of_decide_eq_true (List.mem_filter.mp hk').2
    rwa [hold k hne, hold k' hne']
  · have hne := of_decide_eq_true (List.mem_filter.mp hk).2
    have hle := lastUse_le h k
    rw [List.mem_singleton.mp hk', hnew, hold k hne]
    omega

namespace Represents

/-- A new store. -/
theorem init (ttl : Time) (max_size : Nat) : Represents ttl max_size [] (CacheStore.init ttl max_size : CacheStore K V) where
  ttl_eq := rfl
  max_eq := rfl
  size := Nat.zero_le _
  order := List.Pairwise.nil
  held := fun _ _ _ hk => by cases hk
  lapsed := fun _ _ _ hk => by cases hk
  counted := rfl

/-- **A `get`, at a time that is not before those already read, hits exactly a live value that has not lapsed.** -/
theorem get_hits_iff (hr : Represents ttl max_size h s) (htime : ∀ t ∈ times h, t ≤ now) (v : V) :
    (s.get now key).1 = some v ↔ ∃ t, live h key = some (t, v) ∧ now ≤ t + ttl := by
  cases hget : s.store.get? key with
  | none =>
    have hnone : (s.get now key).1 = none := by simp only [CacheStore.get, hget]
    rw [hnone]
    refine ⟨fun hv => (by cases hv), ?_⟩
    rintro ⟨t, hlive, hle⟩
    obtain ⟨t', ht', hlt⟩ := hr.lapsed key t v hlive hget
    exact absurd (htime t' ht') (not_le.mpr (hle.trans_lt hlt))
  | some entry =>
    obtain ⟨expires_at, v'⟩ := entry
    obtain ⟨t, hlive, hexp⟩ := hr.held key expires_at v' hget
    by_cases hlt : expires_at < now
    · have hnone : (s.get now key).1 = none := by simp only [CacheStore.get, hget, if_pos hlt]
      rw [hnone]
      refine ⟨fun hv => (by cases hv), ?_⟩
      rintro ⟨t', hlive', hle⟩
      obtain ⟨rfl, rfl⟩ := Prod.mk.inj (Option.some.inj (hlive'.symm.trans hlive))
      exact absurd hle (not_le.mpr (hexp ▸ hlt))
    · have hsome : (s.get now key).1 = some v' := by simp only [CacheStore.get, hget, if_neg hlt]
      rw [hsome]
      constructor
      · intro hv
        rw [← Option.some.inj hv]
        exact ⟨t, hlive, hexp ▸ not_lt.mp hlt⟩
      · rintro ⟨t', hlive', -⟩
        rw [(Prod.mk.inj (Option.some.inj (hlive'.symm.trans hlive))).2]

/-- A `get` of what is not there changes nothing but the misses. -/
theorem get_missing (hr : Represents ttl max_size h s) :
    Represents ttl max_size (⟨.get now key, none, []⟩ :: h) { s with misses := s.misses + 1 } where
  ttl_eq := hr.ttl_eq
  max_eq := hr.max_eq
  size := hr.size
  order := order_cons hr.order fun _ _ => Bool.and_false _
  held := hr.held
  lapsed := fun k t v hlive hk => by
    obtain ⟨now', hnow', hlt⟩ := hr.lapsed k t v hlive hk
    exact ⟨now', List.mem_cons_of_mem _ hnow', hlt⟩
  counted := by
    rw [List.countP_cons_of_pos (by rfl), ← hr.counted]
    exact (Nat.add_assoc _ _ _).symm

/-- A `get` of an entry that has lapsed deletes it. -/
theorem get_lapsed {expires_at : Time} (hr : Represents ttl max_size h s)
    (hget : s.store.get? key = some (expires_at, value)) (hlt : expires_at < now) :
    Represents ttl max_size (⟨.get now key, none, []⟩ :: h)
      { s with store := s.store.erase key, misses := s.misses + 1 } where
  ttl_eq := hr.ttl_eq
  max_eq := hr.max_eq
  size := (List.length_filter_le _ _).trans hr.size
  order := by
    have hsub : (s.store.erase key).keys.Sublist s.store.keys := List.filter_sublist.map _
    exact order_cons (hr.order.sublist hsub) fun _ _ => Bool.and_false _
  held := fun k exp v hk => by
    rw [Dict.get?_erase] at hk
    split at hk
    · cases hk
    · exact hr.held k exp v hk
  lapsed := fun k t v hlive hk => by
    rw [Dict.get?_erase] at hk
    split at hk
    · rename_i hkey
      obtain ⟨t', hlive', hexp⟩ := hr.held key expires_at value hget
      have hpair : (t, v) = (t', value) := Option.some.inj ((hkey ▸ hlive).symm.trans hlive')
      refine ⟨now, List.mem_cons_self, ?_⟩
      rw [(Prod.mk.inj hpair).1, ← hexp]
      exact hlt
    · obtain ⟨now', hnow', hlt'⟩ := hr.lapsed k t v hlive hk
      exact ⟨now', List.mem_cons_of_mem _ hnow', hlt'⟩
  counted := by
    rw [List.countP_cons_of_pos (by rfl), ← hr.counted]
    exact (Nat.add_assoc _ _ _).symm

/-- A hit moves its entry to the end. -/
theorem get_hit {expires_at : Time} (hr : Represents ttl max_size h s)
    (hget : s.store.get? key = some (expires_at, value)) :
    Represents ttl max_size (⟨.get now key, some value, []⟩ :: h)
      { s with store := s.store.moveToEnd key, hits := s.hits + 1 } where
  ttl_eq := hr.ttl_eq
  max_eq := hr.max_eq
  size := by
    rw [Dict.length_moveToEnd]
    exact hr.size
  order := by
    show (s.store.moveToEnd key).keys.Pairwise _
    rw [Dict.keys_moveToEnd (Dict.mem_keys_iff.mpr ⟨_, hget⟩)]
    exact order_append hr.order (by simp [Event.uses]) fun k hne => by simp [Event.uses, hne]
  held := fun k exp v hk => hr.held k exp v (Dict.get?_moveToEnd.symm.trans hk)
  lapsed := fun k t v hlive hk => by
    obtain ⟨now', hnow', hlt⟩ := hr.lapsed k t v hlive (Dict.get?_moveToEnd.symm.trans hk)
    exact ⟨now', List.mem_cons_of_mem _ hnow', hlt⟩
  counted := by
    rw [List.countP_cons_of_pos (by rfl), ← hr.counted]
    show s.hits + 1 + s.misses = s.hits + s.misses + 1
    omega

theorem get (hr : Represents ttl max_size h s) :
    Represents ttl max_size (⟨.get now key, (s.get now key).1, []⟩ :: h) (s.get now key).2 := by
  cases hget : s.store.get? key with
  | none =>
    simp only [CacheStore.get, hget]
    exact hr.get_missing
  | some entry =>
    obtain ⟨expires_at, v⟩ := entry
    by_cases hlt : expires_at < now
    · simp only [CacheStore.get, hget, if_pos hlt]
      exact hr.get_lapsed hget hlt
    · simp only [CacheStore.get, hget, if_neg hlt]
      exact hr.get_hit hget

/-- The keys after a value is set at the end. -/
theorem keys_stored : (s.stored now key value).keys = (s.store.keys.filter fun k => k ≠ key) ++ [key] := by
  rw [Dict.keys, CacheStore.stored, Dict.entries_set_moveToEnd, List.map_append, List.map_singleton, Dict.keys,
    List.filter_map]
  rfl

theorem get?_stored :
    (s.stored now key value).get? k = if k = key then some (now + s.ttl, value) else s.store.get? k := by
  rw [CacheStore.stored, Dict.get?_moveToEnd, Dict.get?_set]

/-- The order of use before anything is popped. -/
theorem order_stored (hr : Represents ttl max_size h s) : (s.stored now key value).keys.Pairwise fun k k' =>
    lastUse (⟨.put now key value, none, (s.stored now key value).popped s.max_size⟩ :: h) k <
      lastUse (⟨.put now key value, none, (s.stored now key value).popped s.max_size⟩ :: h) k' := by
  rw [keys_stored]
  exact order_append hr.order (by simp [Event.uses]) fun k hne => by simp [Event.uses, hne]

theorem put (hr : Represents ttl max_size h s) :
    Represents ttl max_size (⟨.put now key value, none, (s.stored now key value).popped s.max_size⟩ :: h)
      (s.put now key value) where
  ttl_eq := hr.ttl_eq
  max_eq := hr.max_eq
  size := by
    rw [CacheStore.put, Dict.length_evict, hr.max_eq]
    exact Nat.min_le_left _ _
  order := by
    have hsplit := Dict.popped_append_evict (s.stored now key value) s.max_size
    have hord := @order_stored K V _ ttl max_size h s now key value hr
    exact hord.sublist (hsplit ▸ List.sublist_append_right _ _)
  held := fun k exp v hk => by
    rw [CacheStore.put, Dict.get?_evict] at hk
    rw [live_put]
    split at hk
    · cases hk
    · rename_i hpop
      rw [if_neg hpop]
      rw [get?_stored] at hk
      split at hk
      · rename_i hkey
        obtain ⟨rfl, rfl⟩ := Prod.mk.inj (Option.some.inj hk)
        exact ⟨now, if_pos hkey, by rw [hr.ttl_eq]⟩
      · rename_i hkey
        rw [if_neg hkey]
        exact hr.held k exp v hk
  lapsed := fun k t v hlive hk => by
    rw [live_put] at hlive
    rw [CacheStore.put, Dict.get?_evict] at hk
    split at hlive
    · cases hlive
    · rename_i hpop
      rw [if_neg hpop, get?_stored] at hk
      split at hk
      · cases hk
      · rename_i hkey
        rw [if_neg hkey] at hlive
        obtain ⟨now', hnow', hlt⟩ := hr.lapsed k t v hlive hk
        exact ⟨now', List.mem_cons_of_mem _ hnow', hlt⟩
  counted := by
    rw [List.countP_cons_of_neg (by simp [Op.isGet])]
    exact hr.counted

theorem clear (hr : Represents ttl max_size h s) : Represents ttl max_size (⟨.clear, none, []⟩ :: h) s.clear where
  ttl_eq := hr.ttl_eq
  max_eq := hr.max_eq
  size := Nat.zero_le _
  order := List.Pairwise.nil
  held := fun _ _ _ hk => by cases hk
  lapsed := fun _ _ _ hlive => by cases hlive
  counted := by
    rw [List.countP_cons_of_neg (by simp [Op.isGet])]
    exact hr.counted

/-- **Every call keeps a store as its history says.** -/
theorem apply (hr : Represents ttl max_size h s) (op : Op K V) :
    Represents ttl max_size ((s.apply op).2 :: h) (s.apply op).1 := by
  cases op with
  | get now key => exact hr.get
  | put now key value => exact hr.put
  | clear => exact hr.clear

theorem runFrom : ∀ (ops : List (Op K V)) {s : CacheStore K V} {h : History K V}, Represents ttl max_size h s →
    Represents ttl max_size (runFrom s h ops).2 (runFrom s h ops).1
  | [], _, _, hr => hr
  | op :: ops, _, _, hr => by
    rw [TtlCache.runFrom]
    exact runFrom ops (hr.apply op)

theorem run (ttl : Time) (max_size : Nat) (ops : List (Op K V)) :
    Represents ttl max_size (run ttl max_size ops).2 (run ttl max_size ops).1 :=
  runFrom ops (init ttl max_size)

/-- **What a `put` pops, if anything, is one entry, which was used before all the others that were there.** -/
theorem popped_least (hr : Represents ttl max_size h s) (hmax : 1 ≤ max_size) :
    ((s.stored now key value).popped s.max_size).length ≤ 1 ∧
    ∀ k ∈ (s.stored now key value).popped s.max_size, k ∈ s.store.keys ∧
      ∀ k' ∈ s.store.keys, k' ≠ k → lastUse h k < lastUse h k' := by
  have hkeys := @keys_stored K V _ s now key value
  have hsplit := Dict.popped_append_evict (s.stored now key value) s.max_size
  have hlen := Dict.length_popped (s.stored now key value) s.max_size
  have hfilter := List.length_filter_le (fun k => decide (k ≠ key)) s.store.keys
  have hstored : (s.stored now key value).entries.length = (s.store.keys.filter fun k => k ≠ key).length + 1 := by
    rw [← List.length_map Prod.fst]
    exact (congrArg List.length hkeys).trans (List.length_append.trans rfl)
  have hsize : s.store.keys.length ≤ max_size := (List.length_map _).trans_le hr.size
  have hone : ((s.stored now key value).popped s.max_size).length ≤ 1 := by
    rw [hlen, hstored, hr.max_eq]
    omega
  refine ⟨hone, fun k hk => ?_⟩
  -- something is popped only if the key is new and the store full
  have hpos := List.length_pos_of_mem hk
  rw [hlen, hstored, hr.max_eq] at hpos
  have hall : (s.store.keys.filter fun k => k ≠ key) = s.store.keys :=
    List.filter_sublist.eq_of_length_le (by omega)
  have hpopped : (s.stored now key value).popped s.max_size = [k] := by
    obtain ⟨k₁, hk₁⟩ := List.length_eq_one_iff.mp (Nat.le_antisymm hone (List.length_pos_of_mem hk))
    rw [hk₁] at hk ⊢
    rw [List.mem_singleton.mp hk]
  rw [hpopped, hkeys, hall] at hsplit
  cases hold : s.store.keys with
  | nil =>
    rw [hold] at hall hpos
    simp at hpos
    omega
  | cons k₀ rest =>
    rw [hold] at hsplit
    have hhead : k = k₀ := (List.cons.inj hsplit).1
    have hord := hr.order
    rw [hold] at hord
    rw [hhead]
    refine ⟨List.mem_cons_self, fun k' hk' hne => ?_⟩
    exact (List.pairwise_cons.mp hord).1 k' ((List.mem_cons.mp hk').resolve_left hne)

end Represents

/-! ## Whole runs -/

theorem history_ops : ∀ (ops : List (Op K V)) (s : CacheStore K V) (h : History K V),
    (runFrom s h ops).2.map Event.op = ops.reverse ++ h.map Event.op
  | [], _, _ => rfl
  | op :: ops, s, h => by
    have hop : (s.apply op).2.op = op := by cases op <;> rfl
    rw [runFrom, history_ops ops, List.map_cons, hop, List.reverse_cons, List.append_assoc]
    rfl

theorem countP_history (ttl : Time) (max_size : Nat) (ops : List (Op K V)) :
    ((run ttl max_size ops).2.countP fun e => e.op.isGet) = ops.countP Op.isGet := by
  have hops := history_ops ops (.init ttl max_size) []
  rw [List.map_nil, List.append_nil] at hops
  have hmap := List.countP_map (p := Op.isGet) (f := Event.op) (l := (run ttl max_size ops).2)
  exact hmap.symm.trans ((congrArg (List.countP Op.isGet) hops).trans List.countP_reverse)

theorem times_history (ttl : Time) (max_size : Nat) (ops : List (Op K V)) :
    times (run ttl max_size ops).2 = (ops.filterMap Op.time).reverse := by
  have hops := history_ops ops (.init ttl max_size) []
  rw [List.map_nil, List.append_nil] at hops
  have hmap := List.filterMap_map (g := Op.time) (f := Event.op) (l := (run ttl max_size ops).2)
  exact hmap.symm.trans ((congrArg (List.filterMap Op.time) hops).trans List.filterMap_reverse)

end ClaudeSwarm.TtlCache
