import ClaudeSwarm.Data.Dict

/-!
# Ordered dictionaries

The operations of Python's `OrderedDict` beside those of a `dict`: an entry is moved to the end, the first one is popped,
and, in a loop, the first ones until no more than a number of them is left.

* `entries_set_moveToEnd`: an entry set and moved to the end stands after all the others.
* `popped_append_evict`: a dictionary that is cut down is the keys popped and what is left, in their order.
-/

namespace ClaudeSwarm.Data.Dict

variable {K V : Type} [DecidableEq K] {d d' : Dict K V} {k k' : K} {v : V}

/-- Dictionaries with the same entries, in whatever order. -/
theorem get?_congr (h : ∀ e, e ∈ d.entries ↔ e ∈ d'.entries) (k : K) : d.get? k = d'.get? k :=
  Option.ext fun v => by
    rw [← mem_entries_iff (e := (k, v)), h, mem_entries_iff]

theorem filter_eq_singleton : ∀ {es : List (K × V)}, (es.map Prod.fst).Nodup → (k, v) ∈ es →
    (es.filter fun e => e.1 = k) = [(k, v)]
  | e :: es, hnodup, hmem => by
    obtain ⟨hnot, hnodup⟩ := List.nodup_cons.mp hnodup
    rcases List.mem_cons.mp hmem with rfl | hmem
    · rw [List.filter_cons_of_pos (by simp), List.filter_eq_nil_iff.mpr]
      intro e he hk
      exact hnot (List.mem_map.mpr ⟨e, he, of_decide_eq_true hk⟩)
    · have hne : e.1 ≠ k := fun h => hnot (List.mem_map.mpr ⟨(k, v), hmem, h.symm⟩)
      rw [List.filter_cons_of_neg (by simp [hne])]
      exact filter_eq_singleton hnodup hmem

/-- The entry of a key. -/
theorem filter_key (h : d.get? k = some v) : (d.entries.filter fun e => e.1 = k) = [(k, v)] :=
  filter_eq_singleton d.nodup (mem_entries_iff.mpr h)

/-- `d.move_to_end(k)`. -/
def moveToEnd (d : Dict K V) (k : K) : Dict K V where
  entries := (d.entries.filter fun e => e.1 ≠ k) ++ d.entries.filter fun e => e.1 = k
  nodup := by
    have hperm := List.filter_append_perm (fun e : K × V => decide (e.1 ≠ k)) d.entries
    have hfilter : (d.entries.filter fun e => !decide (e.1 ≠ k)) = d.entries.filter fun e => e.1 = k :=
      List.filter_congr fun e _ => by simp
    rw [hfilter] at hperm
    exact ((hperm.map Prod.fst).nodup_iff).mpr d.nodup

theorem mem_moveToEnd {e : K × V} : e ∈ (d.moveToEnd k).entries ↔ e ∈ d.entries := by
  by_cases h : e.1 = k <;> simp [moveToEnd, h]

@[simp] theorem get?_moveToEnd : (d.moveToEnd k).get? k' = d.get? k' := get?_congr (fun _ => mem_moveToEnd) k'

theorem length_moveToEnd : (d.moveToEnd k).entries.length = d.entries.length :=
  ((List.perm_ext_iff_of_nodup (d.moveToEnd k).nodup.of_map d.nodup.of_map).mpr fun _ => mem_moveToEnd).length_eq

theorem length_entries_set (d : Dict K V) (k : K) (v : V) : (d.set k v).entries.length ≤ d.entries.length + 1 := by
  have hkeys := congrArg List.length (keys_set (d := d) (k := k) (v := v))
  rw [List.length_append, keys, keys, List.length_map, List.length_map] at hkeys
  rw [hkeys]
  split <;> simp

/-- The keys of the others, and last the one moved. -/
theorem keys_moveToEnd (h : k ∈ d.keys) : (d.moveToEnd k).keys = (d.keys.filter fun k' => k' ≠ k) ++ [k] := by
  have hothers : (d.entries.filter fun e => e.1 ≠ k).map Prod.fst = d.keys.filter fun k' => k' ≠ k := by
    rw [keys, List.filter_map]
    rfl
  obtain ⟨v, hv⟩ := mem_keys_iff.mp h
  rw [keys, moveToEnd, List.map_append, hothers, filter_key hv, List.map_singleton]

/-- An entry set and moved to the end. -/
theorem entries_set_moveToEnd :
    ((d.set k v).moveToEnd k).entries = (d.entries.filter fun e => e.1 ≠ k) ++ [(k, v)] := by
  have hothers : ((d.set k v).entries.filter fun e => e.1 ≠ k) = d.entries.filter fun e => e.1 ≠ k :=
    filter_entries_set (by simp) (by simp) fun _ _ => rfl
  have hone : ((d.set k v).entries.filter fun e => e.1 = k) = [(k, v)] := filter_key (by rw [get?_set, if_pos rfl])
  exact congrArg₂ (· ++ ·) hothers hone

/-- `while len(d) > max_size: d.popitem(last=False)`, on the entries. -/
def evictEntries (max_size : Nat) : List (K × V) → List (K × V)
  | [] => []
  | e :: es => if max_size < (e :: es).length then evictEntries max_size es else e :: es

/-- The keys that `evictEntries` pops. -/
def poppedEntries (max_size : Nat) : List (K × V) → List K
  | [] => []
  | e :: es => if max_size < (e :: es).length then e.1 :: poppedEntries max_size es else []

omit [DecidableEq K] in
theorem popped_append_evictEntries (max_size : Nat) : ∀ es : List (K × V),
    poppedEntries max_size es ++ (evictEntries max_size es).map Prod.fst = es.map Prod.fst
  | [] => rfl
  | e :: es => by
    rw [poppedEntries, evictEntries]
    split
    · rw [List.cons_append, popped_append_evictEntries max_size es, List.map_cons]
    · rfl

omit [DecidableEq K] in
theorem evictEntries_suffix (max_size : Nat) : ∀ es : List (K × V), evictEntries max_size es <:+ es
  | [] => List.suffix_rfl
  | e :: es => by
    rw [evictEntries]
    split
    · exact (evictEntries_suffix max_size es).trans (List.suffix_cons e es)
    · exact List.suffix_rfl

omit [DecidableEq K] in
theorem length_evictEntries (max_size : Nat) : ∀ es : List (K × V),
    (evictEntries max_size es).length = min max_size es.length
  | [] => (Nat.min_zero _).symm
  | e :: es => by
    rw [evictEntries]
    split
    · rw [length_evictEntries max_size es]
      simp only [List.length_cons] at *
      omega
    · omega

/-- The dictionary cut down to `max_size` entries. -/
def evict (d : Dict K V) (max_size : Nat) : Dict K V :=
  ⟨evictEntries max_size d.entries, d.nodup.sublist ((evictEntries_suffix max_size d.entries).sublist.map _)⟩

/-- The keys that go. -/
def popped (d : Dict K V) (max_size : Nat) : List K := poppedEntries max_size d.entries

omit [DecidableEq K] in
/-- **The keys popped and those left are the keys, in their order.** -/
theorem popped_append_evict (d : Dict K V) (max_size : Nat) :
    d.popped max_size ++ (d.evict max_size).keys = d.keys := popped_append_evictEntries max_size d.entries

omit [DecidableEq K] in
theorem length_evict (d : Dict K V) (max_size : Nat) :
    (d.evict max_size).entries.length = min max_size d.entries.length := length_evictEntries max_size d.entries

omit [DecidableEq K] in
theorem length_popped (d : Dict K V) (max_size : Nat) :
    (d.popped max_size).length = d.entries.length - max_size := by
  have hsum := congrArg List.length (popped_append_evict d max_size)
  have hleft := length_evict d max_size
  rw [List.length_append, keys, keys, List.length_map, List.length_map] at hsum
  omega

/-- What is left is what was there, under the keys that were not popped. -/
theorem get?_evict (d : Dict K V) (max_size : Nat) (k : K) :
    (d.evict max_size).get? k = if k ∈ d.popped max_size then none else d.get? k := by
  have hkeys := popped_append_evict d max_size
  have hnodup : (d.popped max_size ++ (d.evict max_size).keys).Nodup := hkeys ▸ d.nodup
  have hdisj := (List.nodup_append.mp hnodup).2.2
  split
  · rename_i hk
    cases hget : (d.evict max_size).get? k with
    | none => rfl
    | some v => exact absurd rfl (hdisj k hk k (mem_keys_iff.mpr ⟨v, hget⟩))
  · rename_i hk
    refine Option.ext fun v => ⟨fun h => ?_, fun h => ?_⟩
    · have hmem := mem_entries_iff (e := (k, v)).mpr h
      exact mem_entries_iff (e := (k, v)).mp ((evictEntries_suffix max_size d.entries).subset hmem)
    · have hmem : k ∈ d.popped max_size ++ (d.evict max_size).keys := hkeys ▸ mem_keys_iff.mpr ⟨v, h⟩
      obtain ⟨v', hv'⟩ := mem_keys_iff.mp ((List.mem_append.mp hmem).resolve_left hk)
      have hin := mem_entries_iff (e := (k, v')).mpr hv'
      have hget := mem_entries_iff (e := (k, v')).mp ((evictEntries_suffix max_size d.entries).subset hin)
      rw [hv', ← hget, h]

end ClaudeSwarm.Data.Dict
