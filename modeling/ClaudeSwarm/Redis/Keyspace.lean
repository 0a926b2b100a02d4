import ClaudeSwarm.Data.Table
import ClaudeSwarm.Python
import Mathlib.Data.List.Sort
import Mathlib.Data.String.Basic

/-!
# A Redis database

The keys of a database with their values of any type, and the moments at which they expire. A hash, list, set or sorted
set that would have no elements has no key. A key that has expired is not seen by any command. `none` is a `WRONGTYPE`
error, or a write command without arguments. The scores are of any type that is linearly ordered.

`SameEntry` compares what two databases have under a key: the order in which a hash, a set or a sorted set was filled
does not count.

* `writes_hset`, `writes_zadd`: what a command writes.
* `hset_fresh`, `rpush_fresh`, `sadd_fresh`, `zadd_fresh`: the value of a key that was not there.
* `sort_perm`: what is sorted does not depend on that order.
-/

namespace ClaudeSwarm.Redis.Keyspace

open Data
open Python (Time)

variable {Score : Type}

/-! ## Tables that are filled -/

section

variable {α K : Type} [DecidableEq K] {key : α → K}

/-- Rows put into a table, one after the other. -/
def putAll (t : Table key) (rows : List α) : Table key := rows.foldl Table.put t

/-- Rows with new keys are appended. -/
theorem rows_putAll {rows : List α} : ∀ {t : Table key}, (rows.map key).Nodup →
    (∀ r ∈ rows, t.find? (key r) = none) → (putAll t rows).rows = t.rows ++ rows := by
  induction rows with
  | nil =>
    intro t _ _
    rw [List.append_nil]
    rfl
  | cons r rows ih =>
    intro t hnodup hnew
    obtain ⟨hr, hnodup⟩ := List.nodup_cons.mp hnodup
    have hput : (t.put r).rows = t.rows ++ [r] := by
      have herase := Table.erase_of_none (hnew r List.mem_cons_self)
      exact congrArg (fun t : Table key => t.rows ++ [r]) herase
    have hrest : ∀ r' ∈ rows, (t.put r).find? (key r') = none := fun r' hr' => by
      have hne : key r' ≠ key r := fun he => hr (he ▸ List.mem_map_of_mem hr')
      rw [Table.find?_put, if_neg hne]
      exact hnew r' (List.mem_cons_of_mem _ hr')
    have htail := ih hnodup hrest
    rw [putAll, List.foldl_cons, ← putAll, htail, hput, List.append_assoc]
    rfl

/-- A table that is filled with the rows of another, in any order. -/
theorem rows_putAll_empty {rows : List α} {t : Table key} (h : rows.Perm t.rows) :
    (putAll (.empty : Table key) rows).rows = rows := by
  rw [rows_putAll ((h.map key).nodup_iff.mpr t.nodup) fun _ _ => rfl]
  rfl

theorem putAll_empty_ne_nil {rows : List α} {t : Table key} (h : rows.Perm t.rows) (hne : t.rows ≠ []) :
    (putAll (.empty : Table key) rows).rows ≠ [] := by
  rw [rows_putAll_empty h]
  exact fun he => hne (by rw [he] at h; exact h.nil_eq.symm)

end

/-! ## Values -/

/-- The fields of a hash, the members of a set, and those of a sorted set with their scores. -/
abbrev Fields := Table (Prod.fst : String × String → String)
abbrev Members := Table (id : String → String)
abbrev Ranked (Score : Type) := Table (Prod.fst : String × Score → String)

/-- A value. -/
inductive Value (Score : Type) where
  | string (s : String)
  | hash (fields : Fields) (h : fields.rows ≠ [])
  | list (items : List String) (h : items ≠ [])
  | set (members : Members) (h : members.rows ≠ [])
  | zset (members : Ranked Score) (h : members.rows ≠ [])
  | stream (entries : List (String × List (String × String)))

namespace Value

/-- The hash with these fields, if there are any. -/
def hash? (fields : Fields) : Option (Value Score) := if h : fields.rows ≠ [] then some (.hash fields h) else none

/-- The list of these items, if there are any. -/
def list? (items : List String) : Option (Value Score) := if h : items ≠ [] then some (.list items h) else none

/-- The set of these members, if there are any. -/
def set? (members : Members) : Option (Value Score) := if h : members.rows ≠ [] then some (.set members h) else none

/-- The sorted set of these members, if there are any. -/
def zset? (members : Ranked Score) : Option (Value Score) :=
  if h : members.rows ≠ [] then some (.zset members h) else none

/-- It is a stream. -/
def IsStream : Value Score → Prop
  | .stream _ => True
  | _ => False

instance : DecidablePred (@IsStream Score)
  | .stream _ => .isTrue trivial
  | .string _ | .hash _ _ | .list _ _ | .set _ _ | .zset _ _ => .isFalse id

/-- The same value, however it was filled. -/
inductive Same : Value Score → Value Score → Prop
  | string (s : String) : Same (.string s) (.string s)
  | hash {f f' : Fields} {h : f.rows ≠ []} {h' : f'.rows ≠ []} (hperm : f.rows.Perm f'.rows) :
      Same (.hash f h) (.hash f' h')
  | list {l : List String} {h h' : l ≠ []} : Same (.list l h) (.list l h')
  | set {m m' : Members} {h : m.rows ≠ []} {h' : m'.rows ≠ []} (hperm : m.rows.Perm m'.rows) :
      Same (.set m h) (.set m' h')
  | zset {z z' : Ranked Score} {h : z.rows ≠ []} {h' : z'.rows ≠ []} (hperm : z.rows.Perm z'.rows) :
      Same (.zset z h) (.zset z' h')
  | stream (entries : List (String × List (String × String))) : Same (.stream entries) (.stream entries)

theorem Same.refl (v : Value Score) : v.Same v := by
  cases v with
  | string s => exact .string s
  | hash f h => exact .hash (.refl _)
  | list l h => exact .list
  | set m h => exact .set (.refl _)
  | zset z h => exact .zset (.refl _)
  | stream entries => exact .stream entries

theorem Same.symm {v w : Value Score} (h : v.Same w) : w.Same v := by
  cases h with
  | string s => exact .string s
  | hash hperm => exact .hash hperm.symm
  | list => exact .list
  | set hperm => exact .set hperm.symm
  | zset hperm => exact .zset hperm.symm
  | stream entries => exact .stream entries

theorem Same.trans {v w x : Value Score} (h : v.Same w) (h' : w.Same x) : v.Same x := by
  cases h with
  | string s => exact h'
  | hash hperm =>
    cases h' with
    | hash hperm' => exact .hash (hperm.trans hperm')
  | list => exact h'
  | set hperm =>
    cases h' with
    | set hperm' => exact .set (hperm.trans hperm')
  | zset hperm =>
    cases h' with
    | zset hperm' => exact .zset (hperm.trans hperm')
  | stream entries => exact h'

end Value

/-! ## Databases -/

/-- A key, its value, and the last moment at which it is there. -/
structure Entry (Score : Type) where
  key : String
  value : Value Score
  expiry : Option Time

/-- A database. -/
abbrev Db (Score : Type) := Table (Entry.key : Entry Score → String)

variable (now : Time) (db : Db Score) (key : String)

/-- The entry has not expired. -/
def Entry.isLive (e : Entry Score) : Bool := e.expiry.all fun t => now ≤ t

/-- What is under a key. -/
def get : Option (Entry Score) := (db.find? key).filter (Entry.isLive now)

/-- The keys. -/
def keys : List String := (db.rows.filter (Entry.isLive now)).map Entry.key

/-- A new value for a key, which keeps its expiry. -/
def put (v : Value Score) : Db Score := db.put ⟨key, v, (get now db key).bind Entry.expiry⟩

/-- `SET`. -/
def set (s : String) : Db Score := db.put ⟨key, .string s, none⟩

/-- `HSET` with a mapping. -/
def hset (mapping : List (String × String)) : Option (Db Score) :=
  match (get now db key).map Entry.value with
  | none => (Value.hash? (putAll .empty mapping)).map (put now db key)
  | some (.hash fields _) => (Value.hash? (putAll fields mapping)).map (put now db key)
  | some _ => none

/-- `RPUSH`. -/
def rpush (items : List String) : Option (Db Score) :=
  match (get now db key).map Entry.value with
  | none => (Value.list? items).map (put now db key)
  | some (.list old _) => (Value.list? (old ++ items)).map (put now db key)
  | some _ => none

/-- `SADD`. -/
def sadd (members : List String) : Option (Db Score) :=
  match (get now db key).map Entry.value with
  | none => (Value.set? (putAll .empty members)).map (put now db key)
  | some (.set old _) => (Value.set? (putAll old members)).map (put now db key)
  | some _ => none

/-- `ZADD`. -/
def zadd (members : List (String × Score)) : Option (Db Score) :=
  match (get now db key).map Entry.value with
  | none => (Value.zset? (putAll .empty members)).map (put now db key)
  | some (.zset old _) => (Value.zset? (putAll old members)).map (put now db key)
  | some _ => none

/-- `EXPIRE`. -/
def expire (seconds : Time) : Db Score :=
  (get now db key).elim db fun e => db.put ⟨e.key, e.value, some (now + seconds)⟩

/-- The same entries. -/
def SameEntry : Option (Entry Score) → Option (Entry Score) → Prop
  | none, none => True
  | some e, some e' => e.key = e'.key ∧ e.value.Same e'.value ∧ e.expiry = e'.expiry
  | _, _ => False

variable {now db key}

theorem SameEntry.refl : ∀ e : Option (Entry Score), SameEntry e e
  | none => trivial
  | some _ => ⟨rfl, .refl _, rfl⟩

/-! ## Keys -/

theorem get_eq_some_iff {e : Entry Score} : get now db key = some e ↔ db.find? key = some e ∧ e.isLive now = true := by
  unfold get
  rw [Option.filter_eq_some_iff]

theorem key_of_get {e : Entry Score} (h : get now db key = some e) : e.key = key :=
  Table.find?_key (get_eq_some_iff.mp h).1

theorem mem_keys_iff : key ∈ keys now db ↔ ∃ e, get now db key = some e := by
  unfold keys
  rw [List.mem_map]
  constructor
  · rintro ⟨e, he, rfl⟩
    obtain ⟨hmem, hlive⟩ := List.mem_filter.mp he
    exact ⟨e, get_eq_some_iff.mpr ⟨Table.find?_of_mem hmem, hlive⟩⟩
  · rintro ⟨e, he⟩
    obtain ⟨hfind, hlive⟩ := get_eq_some_iff.mp he
    exact ⟨e, List.mem_filter.mpr ⟨Table.find?_mem hfind, hlive⟩, Table.find?_key hfind⟩

theorem nodup_keys : (keys now db).Nodup := db.nodup.sublist (List.filter_sublist.map _)

/-- What has expired stays so. -/
theorem isLive_of_le {e : Entry Score} {later : Time} (h : e.isLive later = true) (hle : now ≤ later) :
    e.isLive now = true := by
  unfold Entry.isLive at h ⊢
  cases hexpiry : e.expiry with
  | none => rfl
  | some t =>
    rw [hexpiry] at h
    exact decide_eq_true (hle.trans (of_decide_eq_true h))

theorem get_of_le {e : Entry Score} {later : Time} (h : get later db key = some e) (hle : now ≤ later) :
    get now db key = some e := by
  obtain ⟨hfind, hlive⟩ := get_eq_some_iff.mp h
  exact get_eq_some_iff.mpr ⟨hfind, isLive_of_le hlive hle⟩

theorem get_congr {db' : Db Score} (h : db'.find? key = db.find? key) : get now db' key = get now db key := by
  rw [get, get, h]

theorem get_erase_self : get now (db.erase key) key = none := by
  rw [get, Table.find?_erase, if_pos rfl]
  rfl

/-! ## Writes -/

theorem find?_putValue {v : Value Score} {key' : String} : (put now db key v).find? key' =
    if key' = key then some ⟨key, v, (get now db key).bind Entry.expiry⟩ else db.find? key' := Table.find?_put _ _ _

/-- A write command writes its own key, and one of another type does not write. -/
structure Writes (now : Time) (key : String) (IsType : Value Score → Prop) (db db' : Db Score) : Prop where
  other : ∀ key', key' ≠ key → db'.find? key' = db.find? key'
  typed : ∀ e, get now db key = some e → IsType e.value
  written : ∃ v, IsType v ∧ db'.find? key = some ⟨key, v, (get now db key).bind Entry.expiry⟩

theorem writes_put {IsType : Value Score → Prop} {v : Value Score} (hv : IsType v)
    (htyped : ∀ e, get now db key = some e → IsType e.value) : Writes now key IsType db (put now db key v) where
  other key' hne := by rw [find?_putValue, if_neg hne]
  typed := htyped
  written := ⟨v, hv, by rw [find?_putValue, if_pos rfl]⟩

/-- It is a hash. -/
def IsHash (v : Value Score) : Prop := ∃ f h, v = .hash f h

/-- It is a sorted set. -/
def IsZset (v : Value Score) : Prop := ∃ z h, v = .zset z h

theorem IsHash.not_stream {v : Value Score} (h : IsHash v) : ¬ v.IsStream := by
  obtain ⟨f, hne, rfl⟩ := h
  exact id

theorem IsZset.not_stream {v : Value Score} (h : IsZset v) : ¬ v.IsStream := by
  obtain ⟨z, hne, rfl⟩ := h
  exact id

/-- A value of one kind that is made, if it can be. -/
theorem writes_made {P : Value Score → Prop} {v : Option (Value Score)} {db' : Db Score}
    (h : v.map (put now db key) = some db') (hv : ∀ value ∈ v, P value)
    (htyped : ∀ value, (get now db key).map Entry.value = some value → P value) : Writes now key P db db' := by
  obtain ⟨value, hvalue, rfl⟩ := Option.map_eq_some_iff.mp h
  exact writes_put (hv value hvalue) fun e he => htyped e.value (by rw [he]; rfl)

theorem isHash_of_hash? {fields : Fields} : ∀ v ∈ (Value.hash? fields : Option (Value Score)), IsHash v := by
  intro v hv
  unfold Value.hash? at hv
  split at hv
  · cases hv
    exact ⟨_, _, rfl⟩
  · cases hv

theorem isZset_of_zset? {ranked : Ranked Score} : ∀ v ∈ Value.zset? ranked, IsZset v := by
  intro v hv
  unfold Value.zset? at hv
  split at hv
  · cases hv
    exact ⟨_, _, rfl⟩
  · cases hv

theorem writes_hset {mapping : List (String × String)} {db' : Db Score} (h : hset now db key mapping = some db') :
    Writes now key IsHash db db' := by
  unfold hset at h
  split at h
  · rename_i hnone
    refine writes_made h isHash_of_hash? fun value hvalue => ?_
    cases hnone.symm.trans hvalue
  · rename_i fields hne hsome
    refine writes_made h isHash_of_hash? fun value hvalue => ?_
    exact ⟨fields, hne, Option.some.inj (hvalue.symm.trans hsome)⟩
  · cases h

theorem writes_zadd {members : List (String × Score)} {db' : Db Score} (h : zadd now db key members = some db') :
    Writes now key IsZset db db' := by
  unfold zadd at h
  split at h
  · rename_i hnone
    refine writes_made h isZset_of_zset? fun value hvalue => ?_
    cases hnone.symm.trans hvalue
  · rename_i ranked hne hsome
    refine writes_made h isZset_of_zset? fun value hvalue => ?_
    exact ⟨ranked, hne, Option.some.inj (hvalue.symm.trans hsome)⟩
  · cases h

/-! ## Keys that were not there -/

theorem put_fresh (h : get now db key = none) (v : Value Score) : put now db key v = db.put ⟨key, v, none⟩ := by
  rw [put, h]
  rfl

theorem hset_fresh (h : get now db key = none) {mapping : List (String × String)} {fields : Fields}
    (hperm : mapping.Perm fields.rows) (hne : fields.rows ≠ []) :
    ∃ v, v.Same (.hash fields hne) ∧ hset now db key mapping = some (db.put ⟨key, v, none⟩) := by
  have hne' := putAll_empty_ne_nil hperm hne
  refine ⟨.hash _ hne', .hash (by rwa [rows_putAll_empty hperm]), ?_⟩
  unfold hset
  simp only [h, Option.map_none]
  rw [Value.hash?, dif_pos hne', Option.map_some, put_fresh h]

theorem rpush_fresh (h : get now db key = none) {items : List String} (hne : items ≠ []) :
    rpush now db key items = some (db.put ⟨key, .list items hne, none⟩) := by
  unfold rpush
  simp only [h, Option.map_none]
  rw [Value.list?, dif_pos hne, Option.map_some, put_fresh h]

theorem sadd_fresh (h : get now db key = none) {items : List String} {members : Members}
    (hperm : items.Perm members.rows) (hne : members.rows ≠ []) :
    ∃ v, v.Same (.set members hne) ∧ sadd now db key items = some (db.put ⟨key, v, none⟩) := by
  have hne' := putAll_empty_ne_nil hperm hne
  refine ⟨.set _ hne', .set (by rwa [rows_putAll_empty hperm]), ?_⟩
  unfold sadd
  simp only [h, Option.map_none]
  rw [Value.set?, dif_pos hne', Option.map_some, put_fresh h]

theorem zadd_fresh (h : get now db key = none) {items : List (String × Score)} {members : Ranked Score}
    (hperm : items.Perm members.rows) (hne : members.rows ≠ []) :
    ∃ v, v.Same (.zset members hne) ∧ zadd now db key items = some (db.put ⟨key, v, none⟩) := by
  have hne' := putAll_empty_ne_nil hperm hne
  refine ⟨.zset _ hne', .zset (by rwa [rows_putAll_empty hperm]), ?_⟩
  unfold zadd
  simp only [h, Option.map_none]
  rw [Value.zset?, dif_pos hne', Option.map_some, put_fresh h]

/-! ## Sorting -/

/-- What is sorted does not depend on the order it came in. -/
theorem sort_perm {α : Type} {r : α → α → Prop} [DecidableRel r] [Std.Total r] [IsTrans α r] {l l' : List α}
    (h : l.Perm l') (hanti : ∀ a ∈ l, ∀ b ∈ l, r a b → r b a → a = b) : l.insertionSort r = l'.insertionSort r := by
  have hperm := (List.perm_insertionSort r l).trans (h.trans (List.perm_insertionSort r l').symm)
  refine List.Perm.eq_of_pairwise (fun a b ha hb => ?_) (List.pairwise_insertionSort r l)
    (List.pairwise_insertionSort r l') hperm
  exact hanti a ((List.mem_insertionSort r).mp ha) b (h.mem_iff.mpr ((List.mem_insertionSort r).mp hb))

end ClaudeSwarm.Redis.Keyspace
