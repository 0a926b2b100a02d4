import Mathlib.Data.List.Nodup

/-!
# Keyed tables

A table with a primary key: a list of rows, in insertion order, no two with the same key. Inserting
a key that is present is refused; `put` replaces instead; an update changes rows in place and keeps
their keys. `find?` is the lookup by key, and every operation is described by what it does to
lookups.
-/

namespace ClaudeSwarm.Data

variable {α K : Type} [DecidableEq K]

/-- Rows in insertion order, with pairwise distinct keys. -/
structure Table (key : α → K) where
  rows : List α
  nodup : (rows.map key).Nodup

namespace Table

variable {key : α → K}

/-- The table without rows. -/
def empty : Table key := ⟨[], List.nodup_nil⟩

/-- The row with key `k`. -/
def find? (t : Table key) (k : K) : Option α := t.rows.find? fun r => key r == k

/-- Append a row; `none` when its key is taken. -/
def insert (t : Table key) (r : α) : Option (Table key) :=
  if h : key r ∈ t.rows.map key then none
  else some ⟨t.rows ++ [r], by
    rw [List.map_append, List.map_singleton, List.nodup_append]
    refine ⟨t.nodup, List.nodup_singleton _, fun a ha b hb => ?_⟩
    rw [List.mem_singleton.mp hb]
    exact fun e => h (e ▸ ha)⟩

/-- Rewrite the rows selected by `p` with `f`, which keeps keys. -/
def update (t : Table key) (p : α → Bool) (f : α → α) (hf : ∀ r, key (f r) = key r) : Table key :=
  ⟨t.rows.map fun r => if p r then f r else r, by
    rw [List.map_map]
    have : (key ∘ fun r => if p r then f r else r) = key := by
      funext r
      by_cases h : p r <;> simp [h, hf]
    rw [this]
    exact t.nodup⟩

/-- Remove the row with key `k`. -/
def erase (t : Table key) (k : K) : Table key :=
  ⟨t.rows.filter fun r => key r ≠ k, t.nodup.sublist (List.filter_sublist.map key)⟩

/-- Put a row in, in place of the one with its key if there is one. -/
def put (t : Table key) (r : α) : Table key :=
  ⟨(t.erase (key r)).rows ++ [r], by
    rw [List.map_append, List.map_singleton, List.nodup_append]
    refine ⟨(t.erase (key r)).nodup, List.nodup_singleton _, fun a ha b hb => ?_⟩
    obtain ⟨r', hr', rfl⟩ := List.mem_map.mp ha
    rw [List.mem_singleton.mp hb]
    simpa using (List.mem_filter.mp hr').2⟩

/-- How many rows `p` selects. -/
def count (t : Table key) (p : α → Bool) : Nat := t.rows.countP p

theorem find?_key {t : Table key} {k : K} {r : α} (h : t.find? k = some r) : key r = k := by
  have := List.find?_some h
  simpa using this

theorem find?_mem {t : Table key} {k : K} {r : α} (h : t.find? k = some r) : r ∈ t.rows :=
  List.mem_of_find?_eq_some h

theorem find?_of_mem {t : Table key} {r : α} (h : r ∈ t.rows) : t.find? (key r) = some r := by
  cases hf : t.find? (key r) with
  | none => exact absurd (List.find?_eq_none.mp hf r h) (by simp)
  | some r' =>
    have : r' = r := List.inj_on_of_nodup_map t.nodup (find?_mem hf) h (find?_key hf)
    rw [this]

theorem mem_erase {t : Table key} {k : K} {r : α} :
    r ∈ (t.erase k).rows ↔ r ∈ t.rows ∧ key r ≠ k := by
  simp [erase]

theorem mem_put {t : Table key} {r r' : α} :
    r' ∈ (t.put r).rows ↔ (r' ∈ t.rows ∧ key r' ≠ key r) ∨ r' = r := by
  simp [put, mem_erase]

/-- The row with key `k` after an update. -/
theorem find?_update (t : Table key) (p : α → Bool) (f : α → α) (hf : ∀ r, key (f r) = key r)
    (k : K) : (t.update p f hf).find? k = (t.find? k).map fun r => if p r then f r else r := by
  unfold update find?
  rw [List.find?_map]
  have : ((fun r => key r == k) ∘ fun r => if p r then f r else r) = fun r => key r == k := by
    funext r
    by_cases h : p r <;> simp [h, hf]
  rw [this]

@[simp] theorem find?_empty (k : K) : (empty : Table key).find? k = none := rfl

/-- The row with key `k` after a removal. -/
theorem find?_erase (t : Table key) (k k' : K) :
    (t.erase k').find? k = if k = k' then none else t.find? k := by
  unfold erase find?
  rw [List.find?_filter]
  by_cases h : k = k'
  · subst h
    simp
  · rw [if_neg h]
    congr 1
    funext r
    by_cases hk : key r = k
    · simp [hk, h]
    · simp [hk]

/-- Removing what is not there. -/
theorem erase_of_none {t : Table key} {k : K} (h : t.find? k = none) : t.erase k = t := by
  have hrows : t.rows.filter (fun r => key r ≠ k) = t.rows := by
    refine List.filter_eq_self.mpr fun r hr => ?_
    simpa using List.find?_eq_none.mp h r hr
  cases t
  simpa [erase] using hrows

theorem erase_erase (t : Table key) (k : K) : (t.erase k).erase k = t.erase k := by
  refine erase_of_none ?_
  rw [find?_erase, if_pos rfl]

/-- The row with key `k` after the removal of several. -/
theorem find?_eraseAll {k : K} : ∀ (ks : List K) (t : Table key),
    (ks.foldl erase t).find? k = if k ∈ ks then none else t.find? k
  | [], t => by simp
  | first :: ks, t => by
    rw [List.foldl_cons, find?_eraseAll ks, find?_erase]
    by_cases h : k = first <;> simp [h]

/-- A row put in twice. -/
theorem put_put {t : Table key} {r r' : α} (h : key r = key r') :
    (t.put r).put r' = t.put r' := by
  simp [put, erase, List.filter_append, h]

/-- The row with key `k` after a row was put in. -/
theorem find?_put (t : Table key) (r : α) (k : K) :
    (t.put r).find? k = if k = key r then some r else t.find? k := by
  have he := find?_erase t k (key r)
  unfold put find? at *
  rw [List.find?_append, he]
  by_cases h : k = key r
  · simp [h]
  · simp [h, List.find?_cons_of_neg, Ne.symm h]

theorem rows_insert {t t' : Table key} {r : α} (h : t.insert r = some t') :
    t'.rows = t.rows ++ [r] := by
  unfold insert at h
  split at h
  · cases h
  · cases h
    rfl

/-- The row with key `k` after an insertion: old rows keep their place. -/
theorem find?_insert {t t' : Table key} {r : α} (h : t.insert r = some t') (k : K) :
    t'.find? k = (t.find? k).or (if key r = k then some r else none) := by
  unfold insert at h
  split at h
  · cases h
  · obtain rfl := Option.some.inj h
    unfold find?
    rw [List.find?_append]
    by_cases hk : key r = k
    · simp [hk]
    · simp [List.find?_cons_of_neg, hk]

/-- A row survives an insertion. -/
theorem find?_insert_of_some {t t' : Table key} {r r' : α} {k : K} (h : t.insert r = some t')
    (hk : t.find? k = some r') : t'.find? k = some r' := by
  rw [find?_insert h, hk, Option.some_or]

/-- An update selecting nothing with key `k` leaves that row alone. -/
theorem find?_update_of_not {t : Table key} {p : α → Bool} {f : α → α}
    {hf : ∀ r, key (f r) = key r} {k : K} (h : ∀ r, key r = k → p r = false) :
    (t.update p f hf).find? k = t.find? k := by
  rw [find?_update]
  cases hk : t.find? k with
  | none => rfl
  | some r => simp [h r (find?_key hk)]

end Table

end ClaudeSwarm.Data
