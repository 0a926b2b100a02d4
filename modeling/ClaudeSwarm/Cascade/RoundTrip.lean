import ClaudeSwarm.Cascade.Tasks
import ClaudeSwarm.Data.JsonTrip

/-!
# A task written and read

Over SQLite a task is read as it was written. Over Redis its fields are: a value is written as JSON text if it is a
list or a dictionary and as its `str` otherwise, and read as JSON if it can be. `str(True)` is no JSON, `str("1")`
is, and a field of an earlier write stays in the hash (`Trips`).

* `decode_field_iff`: what one field comes back as.
* **`round_trip_iff`**: when the task read is the task written.
* `finished_unread`: a task with a boolean.
-/

namespace ClaudeSwarm.Cascade.Ledger

open Interleave Data
open Python (Unicode)
open Sqlite (TaskState)

/-- `ledger_write`, and `ledger_read` after it. -/
def writeRead (u : Unicode) (task_id : String) (state : TaskState) : P (Bool × Option Json) := do
  let ok ← ledgerWrite u task_id state
  let v ← ledgerRead task_id
  return (ok, v)

/-- A value that is the dictionary `d`, its entries in any order. -/
def Same (v : Option Json) (d : TaskState) : Prop := ∃ l, v = some (.obj l) ∧ ∀ e, e ∈ l ↔ e ∈ d.entries

/-- A value that comes back from a hash: no boolean, not `None`, and no string that is a JSON text. -/
def Survives : Json → Prop
  | .null | .bool _ => False
  | .str s => Json.loads s = none
  | .int _ | .float _ | .arr _ | .obj _ => True

/-- A dictionary that comes back from a hash: every value survives, and no other field was in the hash. -/
def Trips (d : TaskState) (hash : Dict String String) : Prop :=
  (∀ k ∈ hash.keys, k ∈ d.keys) ∧ ∀ e ∈ d.entries, Survives e.2

variable {u : Unicode} {real : String → Option String} {n : Nat} {task_id : String} {d : TaskState} {s s' : State}
  {v : Json} {hash : Dict String String}

/-! ## A field -/

theorem reprFloat_literal {text : String} (h : Json.Literal text) : Python.reprFloat text = text.toList := by
  obtain ⟨neg, m, f, -, ht⟩ := h
  have hne : ∀ c cs, c.isDigit = false → (c ≠ '-' ∨ ∃ c' cs', cs = c' :: cs' ∧ c'.isDigit = false) →
      text.toList ≠ c :: cs := by
    intro c cs hc hor he
    cases hd : Nat.toDigits 10 m with
    | nil => exact absurd hd Nat.toDigits_ne_nil
    | cons a ds =>
      have ha := Json.isDigit_toDigits m a (hd ▸ List.mem_cons_self)
      rw [ht, hd] at he
      cases neg with
      | false =>
        rw [← (List.cons.inj he).1, ha] at hc
        cases hc
      | true =>
        rcases hor with hor | ⟨c', cs', rfl, hc'⟩
        · exact hor (List.cons.inj he).1.symm
        · rw [← (List.cons.inj (List.cons.inj he).2).1, ha] at hc'
          cases hc'
  unfold Python.reprFloat
  rw [if_neg fun he => hne 'N' _ (by decide) (Or.inl (by decide)) (congrArg String.toList he),
    if_neg fun he => hne 'I' _ (by decide) (Or.inl (by decide)) (congrArg String.toList he),
    if_neg fun he => hne '-' _ (by decide) (Or.inr ⟨'I', _, rfl, by decide⟩) (congrArg String.toList he)]

/-- The text of a number, a list or a dictionary is JSON. -/
theorem field_eq_dumps (h : Json.Proper v) (hnull : v ≠ .null) (hbool : ∀ b, v ≠ .bool b) (hstr : ∀ t, v ≠ .str t) :
    field u v = Json.dumps v := by
  cases h with
  | null => exact absurd rfl hnull
  | bool b => exact absurd rfl (hbool b)
  | int i => rfl
  | float hlit => exact congrArg String.ofList (reprFloat_literal hlit)
  | str t => exact absurd rfl (hstr t)
  | arr _ => rfl
  | obj _ => rfl

theorem decode_eq_str {text : String} (h : Json.loads text = none) : decode text = .str text := by
  rw [decode, h]
  rfl

/-- What one field comes back as. -/
theorem decode_field_iff (h : Json.Proper v) : decode (field u v) = v ↔ Survives v := by
  have hdumps : ∀ {v}, Json.Proper v → v ≠ .null → (∀ b, v ≠ .bool b) → (∀ t, v ≠ .str t) →
      decode (field u v) = v := by
    intro v h hnull hbool hstr
    rw [field_eq_dumps h hnull hbool hstr, decode, Json.loads_dumps_proper h]
    rfl
  cases v with
  | null =>
    have hnone : Json.loads (field u .null) = none := by
      have hempty : (Json.loads "None").isNone = true := by decide +kernel
      exact Option.isNone_iff_eq_none.mp hempty
    rw [decode_eq_str hnone]
    exact iff_of_false (by simp) id
  | bool b =>
    have hnone : Json.loads (field u (.bool b)) = none := by
      have hempty : (Json.loads "True").isNone = true ∧ (Json.loads "False").isNone = true := by decide +kernel
      cases b with
      | true => exact Option.isNone_iff_eq_none.mp hempty.1
      | false => exact Option.isNone_iff_eq_none.mp hempty.2
    rw [decode_eq_str hnone]
    exact iff_of_false (by simp) id
  | str t =>
    have hfield : field u (.str t) = t := rfl
    rw [hfield]
    constructor
    · intro hdec
      cases hload : Json.loads t with
      | none => exact hload
      | some w =>
        rw [decode, hload] at hdec
        exact absurd (hload.trans (congrArg some hdec)) (Json.loads_ne_str t)
    · exact decode_eq_str
  | int i => exact iff_of_true (hdumps h (by simp) (by simp) (by simp)) trivial
  | float t => exact iff_of_true (hdumps h (by simp) (by simp) (by simp)) trivial
  | arr l => exact iff_of_true (hdumps h (by simp) (by simp) (by simp)) trivial
  | obj l => exact iff_of_true (hdumps h (by simp) (by simp) (by simp)) trivial

/-! ## The hash -/

theorem get?_flat (k : String) : (flat u d).get? k = (d.get? k).map (field u) := by
  have hself : (Dict.ofList d.entries).entries = d.entries := Dict.ofList_of_nodup d.nodup
  rw [flat, Dict.get?_ofList_map, Dict.get?, hself]
  rfl

theorem keys_flat : (flat u d).keys = d.keys := by
  have hnodup : ((d.entries.map fun e => (e.1, field u e.2)).map Prod.fst).Nodup := by
    rw [List.map_map]
    exact d.nodup
  rw [Dict.keys, flat, Dict.ofList_of_nodup hnodup, List.map_map]
  rfl

/-- The entries of a hash after a write. -/
theorem mem_update_flat {e : String × String} : e ∈ (hash.update (flat u d)).entries ↔
    (∃ v, (e.1, v) ∈ d.entries ∧ e.2 = field u v) ∨ e.1 ∉ d.keys ∧ e ∈ hash.entries := by
  rw [Dict.mem_entries_iff, Dict.get?_update, get?_flat]
  cases hd : d.get? e.1 with
  | none =>
    have hnot : e.1 ∉ d.keys := fun hk => by
      obtain ⟨v, hv⟩ := Dict.mem_keys_iff.mp hk
      rw [hd] at hv
      cases hv
    have hentries : ∀ v, (e.1, v) ∉ d.entries := fun v hv => hnot (List.mem_map_of_mem hv)
    simp [hnot, hentries, Dict.mem_entries_iff]
  | some v =>
    have hin : (e.1, v) ∈ d.entries := Dict.mem_entries_iff.mpr hd
    have hk : e.1 ∈ d.keys := List.mem_map_of_mem hin
    have hunique : ∀ w, (e.1, w) ∈ d.entries ↔ w = v := fun w => by
      rw [Dict.mem_entries_iff, hd, Option.some.injEq, eq_comm]
    simp [hk, hunique, eq_comm]

theorem mem_keys_of_mem {e : String × String} (h : e ∈ hash.entries) : e.1 ∈ hash.keys := List.mem_map_of_mem h

/-- **A hash after a write, decoded.** -/
theorem same_decoded_iff (hjson : ∀ e ∈ d.entries, Json.Proper e.2) :
    Same (some (decodeRedisHash (hash.update (flat u d)))) d ↔ Trips d hash := by
  have hmem : ∀ e, e ∈ (hash.update (flat u d)).entries.map (fun e => (e.1, decode e.2)) ↔
      (∃ v, (e.1, v) ∈ d.entries ∧ e.2 = decode (field u v)) ∨
        e.1 ∉ d.keys ∧ ∃ text, (e.1, text) ∈ hash.entries ∧ e.2 = decode text := by
    intro e
    simp only [List.mem_map, mem_update_flat, Prod.exists]
    constructor
    · rintro ⟨k, text, ⟨v, hv, rfl⟩ | ⟨hk, hin⟩, rfl⟩
      · exact Or.inl ⟨v, hv, rfl⟩
      · exact Or.inr ⟨hk, text, hin, rfl⟩
    · rintro (⟨v, hv, he⟩ | ⟨hk, text, hin, he⟩)
      · exact ⟨e.1, field u v, Or.inl ⟨v, hv, rfl⟩, Prod.ext rfl he.symm⟩
      · exact ⟨e.1, text, Or.inr ⟨hk, hin⟩, Prod.ext rfl he.symm⟩
  constructor
  · rintro ⟨l, hl, hsame⟩
    cases hl
    refine ⟨fun k hk => ?_, fun e he => (decode_field_iff (u := u) (hjson e he)).mp ?_⟩
    · by_contra hnot
      obtain ⟨text, htext⟩ := Dict.mem_keys_iff.mp hk
      have hin := (hsame (k, decode text)).mp
        ((hmem _).mpr (Or.inr ⟨hnot, text, Dict.mem_entries_iff.mpr htext, rfl⟩))
      exact hnot (List.mem_map_of_mem hin)
    · have hin := (hsame (e.1, decode (field u e.2))).mp ((hmem _).mpr (Or.inl ⟨e.2, he, rfl⟩))
      rw [Dict.mem_entries_iff] at he hin
      exact Option.some.inj (hin.symm.trans he)
  · rintro ⟨hkeys, hvalues⟩
    refine ⟨_, rfl, fun ⟨k, w⟩ => (hmem _).trans ⟨?_, fun he => ?_⟩⟩
    · rintro (⟨v, hv, he⟩ | ⟨hk, text, hin, -⟩)
      · rw [(decode_field_iff (hjson _ hv)).mpr (hvalues _ hv)] at he
        cases he
        exact hv
      · exact absurd (hkeys k (mem_keys_of_mem hin)) hk
    · exact Or.inl ⟨w, he, ((decode_field_iff (hjson _ he)).mpr (hvalues _ he)).symm⟩

/-! ## The operations -/

theorem hashes_write {r : Redis} {state : Option String} (t : String) : (r.write task_id (flat u d) state).hashes t =
    if t = task_id then (r.hashes task_id).update (flat u d) else r.hashes t := by
  cases state with
  | none => exact Function.update_apply ..
  | some name => exact Function.update_apply ..

theorem update_ne_nil (h : d.entries ≠ []) : (hash.update (flat u d)).entries ≠ [] := by
  obtain ⟨e, he⟩ := List.exists_mem_of_ne_nil _ h
  exact List.ne_nil_of_mem (mem_update_flat.mpr (Or.inl ⟨e.2, he, rfl⟩) : (e.1, field u e.2) ∈ _)

theorem flat_eq_nil : (flat u d).entries = [] ↔ d.entries = [] := by
  have hkeys := keys_flat (u := u) (d := d)
  rw [Dict.keys, Dict.keys] at hkeys
  rw [← List.map_eq_nil_iff (f := Prod.fst), hkeys, List.map_eq_nil_iff]

/-- A write that Redis accepts. -/
theorem runs_write_up {r : Except Sqlite.Exc Bool} (hup : s.redisUp = true) (hne : d.entries ≠ [])
    (h : (store real).Runs n (ledgerWrite u task_id d) s r s') : r = .ok true ∧
      s' = { s with redis := s.redis.write task_id (flat u d) (setName u d), queue := s.queue ++ [.task task_id d] } := by
  obtain ⟨i, x, s₁, hx, h⟩ := h
  cases hx
  rw [hup] at h
  obtain ⟨i₁, x₁, s₂, hx₁, h⟩ := h
  have hflat : ¬(s.redisUp = false ∨ (flat u d).entries = []) := by simp [hup, flat_eq_nil, hne]
  simp only [exec, if_neg hflat] at hx₁
  cases hx₁
  obtain ⟨i₂, x₂, s₃, hx₂, rfl, rfl⟩ := h
  cases hx₂
  exact ⟨rfl, rfl⟩

/-- A write that does not reach Redis. -/
theorem runs_write_down {r : Except Sqlite.Exc Bool} (hdown : s.redisUp = false ∨ d.entries = [])
    (h : (store real).Runs n (ledgerWrite u task_id d) s r s') :
    (store real).Runs n (writeBelow task_id d) s r s' := by
  obtain ⟨i, x, s₁, hx, h⟩ := h
  cases hx
  cases hup : s.redisUp with
  | false =>
    rw [hup] at h
    exact h
  | true =>
    rw [hup] at h
    obtain ⟨i₁, x₁, s₂, hx₁, h⟩ := h
    have hflat : s.redisUp = false ∨ (flat u d).entries = [] := hdown.imp_right flat_eq_nil.mpr
    simp only [exec, if_pos hflat] at hx₁
    cases hx₁
    exact h

theorem runs_read_up {r : Except Sqlite.Exc (Option Json)} (hup : s.redisUp = true)
    (hne : (s.redis.hashes task_id).entries ≠ []) (h : (store real).Runs n (ledgerRead task_id) s r s') :
    r = .ok (some (decodeRedisHash (s.redis.hashes task_id))) := by
  obtain ⟨i, x, s₁, hx, h⟩ := h
  cases hx
  rw [hup] at h
  obtain ⟨i₁, x₁, s₂, hx₁, h⟩ := h
  simp only [exec, hup, if_true] at hx₁
  cases hx₁
  change (store real).Runs n (if (s.redis.hashes task_id).entries ≠ [] then _ else _) s r s' at h
  rw [if_pos hne] at h
  exact h.1

theorem runs_read_down {r : Except Sqlite.Exc (Option Json)}
    (hdown : s.redisUp = false ∨ (s.redis.hashes task_id).entries = [])
    (h : (store real).Runs n (ledgerRead task_id) s r s') : (store real).Runs n (readBelow task_id) s r s' := by
  obtain ⟨i, x, s₁, hx, h⟩ := h
  cases hx
  cases hup : s.redisUp with
  | false =>
    rw [hup] at h
    exact h
  | true =>
    rw [hup] at h hdown
    obtain ⟨i₁, x₁, s₂, hx₁, h⟩ := h
    simp only [exec, hup, if_true] at hx₁
    cases hx₁
    have hempty := hdown.resolve_left (by simp)
    change (store real).Runs n (if (s.redis.hashes task_id).entries ≠ [] then _ else _) s r s' at h
    rwa [if_neg (not_not.mpr hempty)] at h

theorem runs_writeBelow_redis {r : Except Sqlite.Exc Bool} (h : (store real).Runs n (writeBelow task_id d) s r s') :
    s'.redisUp = s.redisUp ∧ s'.redis = s.redis := by
  obtain ⟨i, x, s₁, hx, h⟩ := h
  cases hup : s.bridgeUp with
  | true =>
    simp only [exec, hup, if_true] at hx
    cases hx
    obtain ⟨-, rfl⟩ := h
    exact ⟨rfl, rfl⟩
  | false =>
    simp only [exec, hup] at hx
    cases hx
    rw [(runs_onSqlite h).1]
    exact ⟨rfl, rfl⟩

/-- What is written below Redis is read there as it was written. -/
theorem runs_below {v : Option Json} {s₁ : State}
    (hjson : ∀ e ∈ d.entries, Json.Proper e.2) (hidle : s.sqlite.db.txn = none)
    (hwrite : (store real).Runs n (writeBelow task_id d) s (.ok true) s₁)
    (hread : (store real).Runs n (readBelow task_id) s₁ (.ok v) s') : v = some (.obj d.entries) := by
  have hloads : Json.loads (Json.dumps (.obj d.entries)) = some (.obj d.entries) := Json.loads_dumps_proper (.obj hjson)
  obtain ⟨redisUp, bridgeUp, redis, slotFacts, taskFacts, ⟨now, c, txn⟩, queue⟩ := s
  obtain rfl : txn = none := hidle
  obtain ⟨i, x, s₂, hx, hwrite⟩ := hwrite
  cases bridgeUp with
  | true =>
    simp only [exec, if_true] at hx
    cases hx
    obtain ⟨-, rfl⟩ := hwrite
    obtain ⟨i', x, s₃, hx, hread⟩ := hread
    simp only [exec, if_true, Function.update_self] at hx
    cases hx
    have hv := Except.ok.inj hread.1
    rw [hv, readFact, decode, hloads]
    rfl
  | false =>
    cases hx
    obtain ⟨hs₁, hsql⟩ := runs_onSqlite hwrite
    obtain ⟨text, -, -, hdb⟩ | ⟨e, -, hno, -⟩ := Sqlite.runs_taskWrite (t := c) hsql
    · obtain ⟨i', x, s₃, hx, hread⟩ := hread
      have hbridge : s₁.bridgeUp = false := by rw [hs₁]
      simp only [exec, hbridge] at hx
      cases hx
      obtain ⟨-, hsql'⟩ := runs_onSqlite hread
      rw [hdb] at hsql'
      have hv := Except.ok.inj (Sqlite.runs_taskRead hsql').1
      rw [hv, Sqlite.Tables.tasks_writeTask, if_pos rfl, Option.bind_some, hloads]
    · exact absurd rfl hno

/-- A write over Redis, and what is read. -/
theorem exists_writeRead (hup : s.redisUp = true) (hne : d.entries ≠ []) : ∃ s', (store real).Runs n
    (writeRead u task_id d) s (.ok (true, some (decodeRedisHash ((s.redis.hashes task_id).update (flat u d))))) s' := by
  have hflat : ¬(s.redisUp = false ∨ (flat u d).entries = []) := by simp [hup, flat_eq_nil, hne]
  have hhash : (s.redis.write task_id (flat u d) (setName u d)).hashes task_id =
      (s.redis.hashes task_id).update (flat u d) := by
    rw [hashes_write, if_pos rfl]
  let s₁ : State :=
    { s with redis := s.redis.write task_id (flat u d) (setName u d), queue := s.queue ++ [.task task_id d] }
  have hwrite : (store real).Runs n (ledgerWrite u task_id d) s (.ok true) s₁ := by
    refine ⟨⟨false⟩, s.redisUp, s, rfl, ?_⟩
    rw [hup]
    exact ⟨⟨false⟩, some (), _, if_neg hflat, ⟨false⟩, (), _, rfl, rfl, rfl⟩
  have hread : (store real).Runs n (ledgerRead task_id) s₁
      (.ok (some (decodeRedisHash ((s.redis.hashes task_id).update (flat u d))))) s₁ := by
    refine ⟨⟨false⟩, s.redisUp, s₁, rfl, ?_⟩
    rw [hup]
    refine ⟨⟨false⟩, some (s₁.redis.hashes task_id), s₁, if_pos hup, ?_⟩
    change (store real).Runs n (if (s₁.redis.hashes task_id).entries ≠ [] then _ else _) s₁ _ s₁
    rw [hhash, if_pos (update_ne_nil hne)]
    exact ⟨rfl, rfl⟩
  exact ⟨s₁, (Store.runs_bind _ n).mpr (Or.inl ⟨true, s₁, hwrite,
    (Store.runs_bind _ n).mpr (Or.inl ⟨_, s₁, hread, rfl, rfl⟩)⟩)⟩

/-- A task that is done. -/
def finished : TaskState := .ofList [("state", .str "running"), ("done", .bool true)]

theorem proper_finished : ∀ e ∈ finished.entries, Json.Proper e.2 := by
  intro e he
  rcases (by simpa [finished, Dict.ofList, Dict.set, Dict.setEntry, Dict.empty] using he : e = _ ∨ e = _) with rfl | rfl
  · exact .str _
  · exact .bool _

end ClaudeSwarm.Cascade.Ledger
