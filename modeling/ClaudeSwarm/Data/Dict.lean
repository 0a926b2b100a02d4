import Mathlib.Data.List.Nodup

/-!
# Dictionaries

A Python `dict`: entries with distinct keys in the order in which the keys were first set. Setting a key that
is there keeps its place. `get?` is `.get`, `ofList` a dictionary display or comprehension, in which a later
entry replaces an earlier one with its key.

* `get?_set`, `keys_set`, `mem_keys_set`: what setting a key does.
* `ofList_of_nodup`: entries with distinct keys stay as they are.
-/

namespace ClaudeSwarm.Data

variable {K V : Type} [DecidableEq K]

/-- Entries in the order of their keys' first setting. -/
structure Dict (K V : Type) where
  entries : List (K × V)
  nodup : (entries.map Prod.fst).Nodup
  deriving DecidableEq

namespace Dict

/-- The entry replaced where its key is, or else appended. -/
def setEntry (k : K) (v : V) : List (K × V) → List (K × V)
  | [] => [(k, v)]
  | e :: es => if e.1 = k then (k, v) :: es else e :: setEntry k v es

theorem keys_setEntry (k : K) (v : V) : ∀ es : List (K × V),
    (setEntry k v es).map Prod.fst = es.map Prod.fst ++ if k ∈ es.map Prod.fst then [] else [k]
  | [] => rfl
  | e :: es => by
    rw [setEntry]
    by_cases h : e.1 = k
    · rw [if_pos h]
      simp [h]
    · have hiff : k ∈ (e :: es).map Prod.fst ↔ k ∈ es.map Prod.fst := by
        rw [List.map_cons, List.mem_cons, or_iff_right (Ne.symm h)]
      rw [if_neg h, List.map_cons, keys_setEntry k v es, List.map_cons, List.cons_append]
      simp only [← List.map_cons, hiff]

/-- `{}`. -/
def empty : Dict K V := ⟨[], List.nodup_nil⟩

/-- `d[k] = v`. -/
def set (d : Dict K V) (k : K) (v : V) : Dict K V := ⟨setEntry k v d.entries, by
  rw [keys_setEntry]
  split
  · rw [List.append_nil]
    exact d.nodup
  · rename_i h
    rw [List.nodup_append]
    refine ⟨d.nodup, List.nodup_singleton _, fun a ha b hb => ?_⟩
    rw [List.mem_singleton.mp hb]
    exact fun he => h (he ▸ ha)⟩

/-- `d.get(k)`. -/
def get? (d : Dict K V) (k : K) : Option V := (d.entries.find? fun e => e.1 == k).map Prod.snd

/-- `d.pop(k, None)`. -/
def erase (d : Dict K V) (k : K) : Dict K V :=
  ⟨d.entries.filter fun e => e.1 ≠ k, d.nodup.sublist (List.filter_sublist.map Prod.fst)⟩

/-- `d.keys()`. -/
def keys (d : Dict K V) : List K := d.entries.map Prod.fst

/-- `{k: v for …}`. -/
def ofList (l : List (K × V)) : Dict K V := l.foldl (fun d e => d.set e.1 e.2) empty

/-- `d.update(d')`. -/
def update (d d' : Dict K V) : Dict K V := d'.entries.foldl (fun d e => d.set e.1 e.2) d

variable {d : Dict K V} {k k' : K} {v : V}

@[simp] theorem get?_empty : (empty : Dict K V).get? k = none := rfl

omit [DecidableEq K] in
@[simp] theorem keys_empty : (empty : Dict K V).keys = [] := rfl

theorem keys_set : (d.set k v).keys = d.keys ++ if k ∈ d.keys then [] else [k] :=
  keys_setEntry k v d.entries

theorem mem_keys_set : k' ∈ (d.set k v).keys ↔ k' ∈ d.keys ∨ k' = k := by
  rw [keys_set]
  by_cases h : k ∈ d.keys
  · rw [if_pos h, List.append_nil]
    exact ⟨Or.inl, fun h' => h'.elim id fun he => he ▸ h⟩
  · rw [if_neg h, List.mem_append, List.mem_singleton]

theorem find?_setEntry (k k' : K) (v : V) : ∀ es : List (K × V),
    (setEntry k v es).find? (fun e => e.1 == k') =
      if k' = k then some (k, v) else es.find? fun e => e.1 == k'
  | [] => by
    by_cases h : k' = k
    · simp [setEntry, h]
    · simp [setEntry, h, Ne.symm h]
  | e :: es => by
    rw [setEntry]
    by_cases he : e.1 = k
    · rw [if_pos he]
      by_cases h : k' = k
      · simp [h]
      · simp [h, Ne.symm h, he]
    · rw [if_neg he]
      by_cases hk : e.1 = k'
      · have hne : ¬ k' = k := fun h => he (hk.trans h)
        simp [hk, hne]
      · rw [List.find?_cons_of_neg (by simpa using hk), find?_setEntry k k' v es,
          List.find?_cons_of_neg (by simpa using hk)]

theorem filter_setEntry {p q : K × V → Bool} (hset : p (k, v) = false) (hkey : ∀ v', q (k, v') = false)
    (hsame : ∀ e : K × V, e.1 ≠ k → p e = q e) : ∀ {es : List (K × V)}, (es.map Prod.fst).Nodup →
      (setEntry k v es).filter p = es.filter q
  | [], _ => by rw [setEntry, List.filter_cons_of_neg (by simp [hset]), List.filter_nil, List.filter_nil]
  | e :: es, h => by
    obtain ⟨hnot, hnodup⟩ := List.nodup_cons.mp h
    rw [setEntry]
    by_cases he : e.1 = k
    · have hq : q e = false := by
        obtain ⟨k', v'⟩ := e
        obtain rfl : k' = k := he
        exact hkey v'
      rw [if_pos he, List.filter_cons_of_neg (by simp [hset]), List.filter_cons_of_neg (by simp [hq])]
      refine List.filter_congr fun e' he' => hsame e' fun hk => hnot ?_
      rw [he, ← hk]
      exact List.mem_map_of_mem he'
    · rw [if_neg he, List.filter_cons, List.filter_cons, hsame e he, filter_setEntry hset hkey hsame hnodup]

/-- The entries of a kind after a key was set to something that is not of it. -/
theorem filter_entries_set {p q : K × V → Bool} (hset : p (k, v) = false) (hkey : ∀ v', q (k, v') = false)
    (hsame : ∀ e : K × V, e.1 ≠ k → p e = q e) : (d.set k v).entries.filter p = d.entries.filter q :=
  filter_setEntry hset hkey hsame d.nodup

/-- What is there after a key was set. -/
theorem get?_set : (d.set k v).get? k' = if k' = k then some v else d.get? k' := by
  unfold get? set
  rw [find?_setEntry]
  split <;> rfl

theorem get?_erase : (d.erase k).get? k' = if k' = k then none else d.get? k' := by
  unfold get? erase
  rw [List.find?_filter]
  by_cases h : k' = k
  · subst h
    simp
  · rw [if_neg h]
    congr 2
    funext e
    by_cases he : e.1 = k' <;> simp [he, h]

theorem mem_entries_iff {e : K × V} : e ∈ d.entries ↔ d.get? e.1 = some e.2 := by
  unfold get?
  constructor
  · intro h
    cases hf : d.entries.find? fun e' => e'.1 == e.1 with
    | none => exact absurd (List.find?_eq_none.mp hf e h) (by simp)
    | some e' =>
      have hkey : e'.1 = e.1 := by simpa using List.find?_some hf
      have he : e' = e := List.inj_on_of_nodup_map d.nodup (List.mem_of_find?_eq_some hf) h hkey
      rw [he]
      rfl
  · intro h
    obtain ⟨e', he', hv⟩ := Option.map_eq_some_iff.mp h
    have hkey : e'.1 = e.1 := by simpa using List.find?_some he'
    have he : e' = e := Prod.ext hkey hv
    exact he ▸ List.mem_of_find?_eq_some he'

theorem mem_keys_iff : k ∈ d.keys ↔ ∃ v, d.get? k = some v := by
  constructor
  · intro h
    obtain ⟨e, he, rfl⟩ := List.mem_map.mp h
    exact ⟨e.2, mem_entries_iff.mp he⟩
  · rintro ⟨v, h⟩
    exact List.mem_map.mpr ⟨(k, v), mem_entries_iff.mpr h, rfl⟩

theorem setEntry_of_not_mem : ∀ {es : List (K × V)}, k ∉ es.map Prod.fst → setEntry k v es = es ++ [(k, v)]
  | [], _ => rfl
  | e :: es, h => by
    rw [List.map_cons, List.mem_cons, not_or] at h
    rw [setEntry, if_neg (Ne.symm h.1), setEntry_of_not_mem h.2, List.cons_append]

theorem entries_foldl : ∀ (l : List (K × V)) (d : Dict K V), ((d.entries ++ l).map Prod.fst).Nodup →
    (l.foldl (fun d e => d.set e.1 e.2) d).entries = d.entries ++ l
  | [], d, _ => (List.append_nil _).symm
  | e :: l, d, h => by
    have hsplit : d.entries ++ e :: l = (d.entries ++ [e]) ++ l := by simp
    have hnot : e.1 ∉ d.entries.map Prod.fst := by
      rw [List.map_append, List.nodup_append] at h
      exact fun hmem => h.2.2 e.1 hmem e.1 (by simp) rfl
    have hset : (d.set e.1 e.2).entries = d.entries ++ [e] := setEntry_of_not_mem hnot
    rw [List.foldl_cons, entries_foldl l (d.set e.1 e.2) (by rwa [hset, ← hsplit]), hset, ← hsplit]

/-- Entries with distinct keys stay as they are. -/
theorem ofList_of_nodup {l : List (K × V)} (h : (l.map Prod.fst).Nodup) : (ofList l).entries = l :=
  entries_foldl l empty h

theorem keys_foldl {l : List (K × V)} : ∀ {d : Dict K V},
    k ∈ (l.foldl (fun d e => d.set e.1 e.2) d).keys ↔ k ∈ d.keys ∨ k ∈ l.map Prod.fst := by
  induction l with
  | nil => simp
  | cons e l ih =>
    intro d
    rw [List.foldl_cons, ih, mem_keys_set, List.map_cons, List.mem_cons, or_assoc]

theorem mem_keys_ofList {l : List (K × V)} : k ∈ (ofList l).keys ↔ k ∈ l.map Prod.fst := by
  rw [ofList, keys_foldl, keys_empty]
  simp

theorem get?_foldl {l : List (K × V)} : ∀ {d : Dict K V},
    (l.foldl (fun d e => d.set e.1 e.2) d).get? k = some v → (k, v) ∈ l ∨ d.get? k = some v := by
  induction l with
  | nil => exact fun h => Or.inr h
  | cons e l ih =>
    intro d h
    rcases ih h with h | h
    · exact Or.inl (List.mem_cons_of_mem _ h)
    · rw [get?_set] at h
      split at h
      · rename_i he
        refine Or.inl ?_
        rw [he, ← Option.some.inj h]
        exact List.mem_cons_self
      · exact Or.inr h

/-- What is in a dictionary was given. -/
theorem mem_of_get?_ofList {l : List (K × V)} (h : (ofList l).get? k = some v) : (k, v) ∈ l :=
  (get?_foldl h).resolve_right (by simp)

/-- Two dictionaries whose values correspond. -/
theorem get?_foldl_map {W : Type} (f : V → W) : ∀ (l : List (K × V)) {d : Dict K V} {d' : Dict K W},
    (∀ k, d'.get? k = (d.get? k).map f) → ∀ k,
      ((l.map fun e => (e.1, f e.2)).foldl (fun d e => d.set e.1 e.2) d').get? k =
        ((l.foldl (fun d e => d.set e.1 e.2) d).get? k).map f
  | [], _, _, h => h
  | e :: l, d, d', h => by
    rw [List.map_cons, List.foldl_cons, List.foldl_cons]
    refine get?_foldl_map f l fun k => ?_
    rw [get?_set, get?_set]
    split
    · rfl
    · exact h k

theorem get?_ofList_map {W : Type} (f : V → W) (l : List (K × V)) (k : K) :
    (ofList (l.map fun e => (e.1, f e.2))).get? k = ((ofList l).get? k).map f :=
  get?_foldl_map f l (fun _ => rfl) k

theorem get?_foldl_of_nodup : ∀ {l : List (K × V)} {d : Dict K V}, (l.map Prod.fst).Nodup →
    (l.foldl (fun d e => d.set e.1 e.2) d).get? k = ((l.find? fun e => e.1 == k).map Prod.snd).or (d.get? k)
  | [], _, _ => rfl
  | e :: l, d, h => by
    rw [List.map_cons, List.nodup_cons] at h
    rw [List.foldl_cons, get?_foldl_of_nodup h.2, get?_set]
    by_cases hk : k = e.1
    · have hnone : (l.find? fun e' => e'.1 == k) = none := by
        refine List.find?_eq_none.mpr fun e' he' he => h.1 ?_
        rw [← hk, ← of_decide_eq_true he]
        exact List.mem_map_of_mem he'
      rw [hnone, if_pos hk, List.find?_cons_of_pos (by simpa using hk.symm)]
      rfl
    · rw [if_neg hk, List.find?_cons_of_neg (by simpa using Ne.symm hk)]

/-- What is there after an update. -/
theorem get?_update {d' : Dict K V} : (d.update d').get? k = (d'.get? k).or (d.get? k) := get?_foldl_of_nodup d'.nodup

end Dict

end ClaudeSwarm.Data
