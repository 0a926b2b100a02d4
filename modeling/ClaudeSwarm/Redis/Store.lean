import ClaudeSwarm.Data.Json
import ClaudeSwarm.Data.Table
import ClaudeSwarm.Interleave.Outline
import ClaudeSwarm.Task
import Mathlib.Data.List.Sort

/-!
# The Redis server

What the sources use of Redis: the hash `task:{id}` of each task, the sorted sets `tasks:{state}`
and the counter `swarm:task_counter`. A single command, a `MULTI`/`EXEC` pipeline and the claim
script run atomically; a single write is a transaction of one. Scores are integers (`priority` times
a thousand plus a second), which a double holds exactly.

* A sorted set is ordered by score, then by member (`ZSet.before`); `ZSet.min?_before` says that
  `ZPOPMIN` takes the first in that order.
* `claimScript` is `CLAIM_SCRIPT` (`src/redis_client.py`).
* `effect_of_exec`: a command reads, executes a transaction or pops.
-/

namespace ClaudeSwarm.Redis

open Interleave Data
open Python (Time PyError)

/-! ## Hashes -/

/-- A hash: fields and their values. -/
abbrev Hash := Table (Prod.fst : String × String → String)

namespace Hash

/-- `HGET`. -/
def get (h : Hash) (field : String) : Option String := (h.find? field).map Prod.snd

/-- `HSET` with a mapping. -/
def set (h : Hash) (fields : List (String × String)) : Hash :=
  fields.foldl (fun h f => h.put f) h

@[simp] theorem set_nil (h : Hash) : set h [] = h := rfl

@[simp] theorem set_cons (h : Hash) (f : String × String) (fields : List (String × String)) :
    set h (f :: fields) = set (h.put f) fields := rfl

@[simp] theorem get_put (h : Hash) (f : String × String) (field : String) :
    get (h.put f) field = if field = f.1 then some f.2 else get h field := by
  unfold get
  rw [Table.find?_put]
  split <;> rfl

theorem get_set_of_notMem {field : String} : ∀ {fields : List (String × String)} {h : Hash},
    field ∉ fields.map Prod.fst → get (set h fields) field = get h field
  | [], _, _ => rfl
  | f :: fields, h, hn => by
    rw [List.map_cons, List.mem_cons, not_or] at hn
    rw [set_cons, get_set_of_notMem hn.2, get_put, if_neg hn.1]

/-- A field after `HSET` with pairwise different fields. -/
theorem get_set {field : String} : ∀ {fields : List (String × String)} {h : Hash},
    (fields.map Prod.fst).Nodup → get (set h fields) field = (fields.lookup field).or (get h field)
  | [], _, _ => rfl
  | f :: fields, h, hn => by
    rw [List.map_cons, List.nodup_cons] at hn
    rw [set_cons, List.lookup_cons]
    by_cases hf : field = f.1
    · subst hf
      rw [get_set_of_notMem hn.1]
      simp
    · rw [get_set hn.2, get_put, if_neg hf, beq_false_of_ne hf]

/-- The hash after `HSET` has fields unless it was given none. -/
theorem set_rows_ne_nil (h : Hash) (f : String × String) :
    ∀ fields : List (String × String), (set h (f :: fields)).rows ≠ [] := by
  intro fields
  induction fields generalizing h f with
  | nil => simp [Table.put]
  | cons g fields ih => exact ih (h.put f) g

theorem set_rows_ne_nil_of {h : Hash} (hne : h.rows ≠ []) :
    ∀ fields : List (String × String), (set h fields).rows ≠ []
  | [] => hne
  | f :: fields => set_rows_ne_nil h f fields

end Hash

/-! ## Sorted sets -/

/-- A sorted set: members and their scores. -/
abbrev ZSet := Table (Prod.fst : String × Int → String)

namespace ZSet

/-- The order of a sorted set. -/
def before (a b : String × Int) : Prop := a.2 < b.2 ∨ a.2 = b.2 ∧ a.1 ≤ b.1

instance : DecidableRel before := fun a b => by unfold before; infer_instance

/-- `ZSCORE`. -/
def score (z : ZSet) (member : String) : Option Int := (z.find? member).map Prod.snd

/-- The members in order. -/
def sorted (z : ZSet) : List (String × Int) := z.rows.insertionSort before

/-- `ZRANGE 0 stop`: the members up to index `stop`, which counts from the end when negative. -/
def range (z : ZSet) (stop : Int) : List String :=
  (z.sorted.take (if stop < 0 then z.rows.length + stop + 1 else stop + 1).toNat).map Prod.fst

/-- What `ZPOPMIN` takes. -/
def min? (z : ZSet) : Option (String × Int) := z.sorted.head?

theorem before_total (a b : String × Int) : before a b ∨ before b a := by
  unfold before
  rcases lt_trichotomy a.2 b.2 with h | h | h
  · exact Or.inl (Or.inl h)
  · rcases String.le_total a.1 b.1 with hs | hs
    · exact Or.inl (Or.inr ⟨h, hs⟩)
    · exact Or.inr (Or.inr ⟨h.symm, hs⟩)
  · exact Or.inr (Or.inl h)

theorem before_trans {a b c : String × Int} (h : before a b) (h' : before b c) : before a c := by
  rcases h with h | ⟨h, hs⟩ <;> rcases h' with h' | ⟨h', hs'⟩
  · exact Or.inl (h.trans h')
  · exact Or.inl (h' ▸ h)
  · exact Or.inl (h ▸ h')
  · exact Or.inr ⟨h.trans h', String.le_trans hs hs'⟩

instance : Std.Total before := ⟨before_total⟩

instance : IsTrans (String × Int) before := ⟨fun _ _ _ => before_trans⟩

theorem mem_sorted {z : ZSet} {m : String × Int} : m ∈ z.sorted ↔ m ∈ z.rows :=
  List.mem_insertionSort before

theorem min?_eq_none {z : ZSet} : z.min? = none ↔ z.rows = [] := by
  have hp : z.sorted.Perm z.rows := List.perm_insertionSort before z.rows
  rw [min?, List.head?_eq_none_iff]
  exact ⟨fun h => (h ▸ hp).nil_eq.symm, fun h => (h ▸ hp).eq_nil⟩

theorem min?_mem {z : ZSet} {m : String × Int} (h : z.min? = some m) : m ∈ z.rows :=
  mem_sorted.mp (List.mem_of_mem_head? h)

/-- `ZPOPMIN` takes the first member. -/
theorem min?_before {z : ZSet} {m : String × Int} (h : z.min? = some m) :
    ∀ x ∈ z.rows, before m x := by
  intro x hx
  have hs : z.sorted.Pairwise before := List.pairwise_insertionSort before z.rows
  have hx := mem_sorted.mpr hx
  unfold min? at h
  cases hl : z.sorted with
  | nil =>
    rw [hl] at h
    cases h
  | cons a l =>
    rw [hl] at h hs hx
    cases h
    rcases List.mem_cons.mp hx with rfl | hx
    · exact (before_total _ _).elim (fun h => h) fun h => h
    · exact (List.pairwise_cons.mp hs).1 x hx

theorem score_of_mem {z : ZSet} {m : String × Int} (h : m ∈ z.rows) : score z m.1 = some m.2 := by
  rw [score, Table.find?_of_mem h, Option.map_some]

theorem mem_of_score {z : ZSet} {id : String} {s : Int} (h : score z id = some s) :
    (id, s) ∈ z.rows := by
  obtain ⟨m, hm, rfl⟩ := Option.map_eq_some_iff.mp h
  rw [← Table.find?_key hm]
  exact Table.find?_mem hm

@[simp] theorem score_put (z : ZSet) (m : String × Int) (id : String) :
    score (z.put m) id = if id = m.1 then some m.2 else score z id := by
  unfold score
  rw [Table.find?_put]
  split <;> rfl

@[simp] theorem score_erase (z : ZSet) (id id' : String) :
    score (z.erase id') id = if id = id' then none else score z id := by
  unfold score
  rw [Table.find?_erase]
  split <;> rfl

end ZSet

/-! ## The keys and the writes on them -/

/-- The keys `task:{id}` and `tasks:{state}`, and the task counter. -/
structure Keys where
  task : String → Hash
  tasks : TaskState → ZSet
  counter : Nat

/-- A server without any of these keys. -/
def Keys.empty : Keys := ⟨fun _ => .empty, fun _ => .empty, 0⟩

/-- A write command on these keys. -/
inductive Write where
  | hset (id : String) (fields : List (String × String))
  | zadd (state : TaskState) (id : String) (score : Int)
  | zrem (state : TaskState) (id : String)
  deriving DecidableEq

/-- Execute a write. -/
def Write.run : Write → Keys → Keys
  | .hset id fields, r => { r with task := Function.update r.task id ((r.task id).set fields) }
  | .zadd state id score, r =>
    { r with tasks := Function.update r.tasks state ((r.tasks state).put (id, score)) }
  | .zrem state id, r =>
    { r with tasks := Function.update r.tasks state ((r.tasks state).erase id) }

/-- `EXEC`: the queued writes in order. -/
def runAll (ws : List Write) (r : Keys) : Keys := ws.foldl (fun r w => w.run r) r

@[simp] theorem runAll_nil (r : Keys) : runAll [] r = r := rfl

@[simp] theorem runAll_cons (w : Write) (ws : List Write) (r : Keys) :
    runAll (w :: ws) r = runAll ws (w.run r) := rfl

/-- The writes of `CLAIM_SCRIPT` once it has popped a member. -/
def claimWrites (now claimer id : String) (score : Int) : List Write :=
  [.zrem .pending id, .zadd .claimed id score,
    .hset id [("state", "claimed"), ("claimed_at", now), ("claimed_by", claimer)]]

/-- `CLAIM_SCRIPT`. -/
def claimScript (now claimer : String) (r : Keys) : Option String × Keys :=
  match (r.tasks .pending).min? with
  | none => (none, r)
  | some (id, score) => (some id, runAll (claimWrites now claimer id score) r)

theorem claimScript_of_none {r : Keys} (h : (r.tasks .pending).min? = none)
    (now claimer : String) : claimScript now claimer r = (none, r) := by
  simp [claimScript, h]

theorem claimScript_of_some {r : Keys} {id : String} {score : Int}
    (h : (r.tasks .pending).min? = some (id, score)) (now claimer : String) :
    claimScript now claimer r = (some id, runAll (claimWrites now claimer id score) r) := by
  simp [claimScript, h]

/-! ## What a transaction leaves alone -/

/-- `id` is in `tasks:{t}`. -/
def Member (s : Keys) (t : TaskState) (id : String) : Prop := ((s.tasks t).score id).isSome

instance (s : Keys) (t : TaskState) (id : String) : Decidable (Member s t id) := by
  unfold Member
  infer_instance

/-- The state in the hash of `id`. -/
def hashState (s : Keys) (id : String) : Option String := (s.task id).get "state"

/-- The task a write is about. -/
def writeId : Write → String
  | .hset id _ | .zadd _ id _ | .zrem _ id => id

/-- What transactions on other tasks leave alone. -/
structure SameAt (s s' : Keys) (id : String) : Prop where
  score : ∀ t, (s'.tasks t).score id = (s.tasks t).score id
  task : s'.task id = s.task id

theorem SameAt.member {s s' : Keys} {id : String} (h : SameAt s s' id) (t : TaskState) :
    Member s' t id ↔ Member s t id := by
  rw [Member, Member, h.score]

theorem sameAt_write {s : Keys} {w : Write} {id : String} (h : id ≠ writeId w) :
    SameAt s (w.run s) id := by
  cases w with
  | hset id' fields =>
    have hne : id ≠ id' := h
    exact ⟨fun _ => rfl, by simp [Write.run, Function.update_of_ne hne]⟩
  | zadd t id' score =>
    have hne : id ≠ id' := h
    refine ⟨fun t' => ?_, rfl⟩
    by_cases ht : t' = t
    · subst ht
      simp [Write.run, hne]
    · simp [Write.run, Function.update_of_ne ht]
  | zrem t id' =>
    have hne : id ≠ id' := h
    refine ⟨fun t' => ?_, rfl⟩
    by_cases ht : t' = t
    · subst ht
      simp [Write.run, hne]
    · simp [Write.run, Function.update_of_ne ht]

/-- **Frame.** A transaction leaves the tasks alone that none of its writes is about. -/
theorem sameAt_runAll {id : String} : ∀ {ws : List Write} {s : Keys},
    (∀ w ∈ ws, id ≠ writeId w) → SameAt s (runAll ws s) id
  | [], _, _ => ⟨fun _ => rfl, rfl⟩
  | w :: ws, s, h => by
    have h₁ := sameAt_write (s := s) (h w List.mem_cons_self)
    have h₂ := sameAt_runAll (s := w.run s) fun w' hw' => h w' (List.mem_cons_of_mem w hw')
    exact ⟨fun t => (h₂.score t).trans (h₁.score t), h₂.task.trans h₁.task⟩

/-- A transaction that removes nothing from `tasks:{t}`. -/
theorem member_runAll {t : TaskState} {id : String} : ∀ {ws : List Write} {s : Keys},
    (∀ id', .zrem t id' ∉ ws) → Member s t id → Member (runAll ws s) t id
  | [], _, _, h => h
  | w :: ws, s, hws, h => by
    refine member_runAll (s := w.run s) (fun id' hw => hws id' (List.mem_cons_of_mem w hw)) ?_
    cases w with
    | hset id' fields => exact h
    | zadd t' id' score =>
      by_cases ht : t = t'
      · subst ht
        unfold Member at h ⊢
        by_cases hid : id = id'
        · simp [Write.run, hid]
        · simpa [Write.run, hid] using h
      · simpa [Member, Write.run, Function.update_of_ne ht] using h
    | zrem t' id' =>
      by_cases ht : t = t'
      · exact absurd (ht ▸ List.mem_cons_self) (hws id')
      · simpa [Member, Write.run, Function.update_of_ne ht] using h

/-! ## The store -/

/-- What a command reads from outside: the clock, as seconds and as ISO text, a fresh identifier
and the host's name. -/
structure Env where
  now : Time
  iso : String
  uuid : String
  host : String

/-- A command. `exec` is a pipeline of writes, or a single one. -/
inductive Cmd where
  | now
  | iso
  | uuid
  | host
  | hgetall (id : String)
  | hgetalls (ids : List String)
  | zscore (state : TaskState) (id : String)
  | zrange (state : TaskState) (stop : Int)
  | incr
  | exec (ws : List Write)
  | evalClaim (now claimer : String)

/-- The answer of each command. -/
abbrev Resp : Cmd → Type
  | .now => Time
  | .iso | .uuid | .host => String
  | .hgetall _ => Hash
  | .hgetalls _ => List Hash
  | .zscore _ _ => Option Int
  | .zrange _ _ => List String
  | .incr => Nat
  | .exec _ => Unit
  | .evalClaim _ _ => Option String

abbrev sig : Sig := ⟨Cmd, Resp⟩

/-- Execute a command. -/
def exec (_ : Nat) (i : Env) (s : Keys) : (c : Cmd) → Option (Resp c × Keys)
  | .now => some (i.now, s)
  | .iso => some (i.iso, s)
  | .uuid => some (i.uuid, s)
  | .host => some (i.host, s)
  | .hgetall id => some (s.task id, s)
  | .hgetalls ids => some (ids.map s.task, s)
  | .zscore state id => some ((s.tasks state).score id, s)
  | .zrange state stop => some ((s.tasks state).range stop, s)
  | .incr => some (s.counter + 1, { s with counter := s.counter + 1 })
  | .exec ws => some ((), runAll ws s)
  | .evalClaim now claimer => some (claimScript now claimer s)

/-- The server as a store. -/
abbrev store : Store sig := ⟨Keys, Env, exec⟩

/-- The command changes no hash and no sorted set. -/
def Cmd.IsRead : Cmd → Prop
  | .exec _ | .evalClaim _ _ => False
  | _ => True

/-- What a command answers and does to the hashes and sorted sets. -/
inductive Effect (s : Keys) : (c : Cmd) → Resp c → Keys → Prop
  | read {c : Cmd} {x : Resp c} {s' : Keys} (hc : c.IsRead) (ht : s'.task = s.task)
      (hz : s'.tasks = s.tasks) : Effect s c x s'
  | exec {ws : List Write} : Effect s (.exec ws) () (runAll ws s)
  | empty {now claimer : String} (h : (s.tasks .pending).min? = none) :
      Effect s (.evalClaim now claimer) none s
  | pop {now claimer id : String} {score : Int}
      (h : (s.tasks .pending).min? = some (id, score)) :
      Effect s (.evalClaim now claimer) (some id) (runAll (claimWrites now claimer id score) s)

theorem effect_of_exec {n : Nat} {i : Env} {s s' : Keys} {c : Cmd} {x : Resp c}
    (h : exec n i s c = some (x, s')) : Effect s c x s' := by
  cases c with
  | exec ws =>
    cases h
    exact .exec
  | evalClaim now claimer =>
    have h := Option.some.inj h
    cases hm : (s.tasks .pending).min? with
    | none =>
      rw [claimScript_of_none hm] at h
      cases h
      exact .empty hm
    | some m =>
      rw [claimScript_of_some hm] at h
      cases h
      exact .pop hm
  | _ =>
    cases h
    exact .read trivial rfl rfl

abbrev P (α : Type) := Prog sig PyError α

/-- Issue one command. -/
def cmd (c : Cmd) : P (Resp c) := @Prog.cmd sig PyError c

theorem each_cmd {α : Type} {ok : Cmd → Prop} {c : Cmd} {f : Resp c → P α} (hc : ok c)
    (hf : ∀ x, (f x).Each ok) : (cmd c >>= f).Each ok := ⟨hc, hf⟩

/-- The server answers every command. -/
theorem exists_runs {α : Type} (n : Nat) (p : P α) (s : Keys) : ∃ r s', store.Runs n p s r s' := by
  refine store.exists_runs n (fun s c => ⟨⟨0, "", "", ""⟩, ?_⟩) p s
  cases c <;> exact ⟨_, _, rfl⟩

/-- A single command, run alone. -/
theorem runs_cmd {n : Nat} {c : Cmd} {s s' : Keys} {r : Except PyError (Resp c)} :
    store.Runs n (cmd c) s r s' ↔ ∃ i x, exec n i s c = some (x, s') ∧ r = .ok x := by
  constructor
  · rintro ⟨i, x, s₁, hx, rfl, rfl⟩
    exact ⟨i, x, hx, rfl⟩
  · rintro ⟨i, x, hx, rfl⟩
    exact ⟨i, x, s', hx, rfl, rfl⟩

/-- Writes, run alone. -/
theorem runs_exec {n : Nat} {ws : List Write} {s s' : Keys} {r : Except PyError Unit} :
    store.Runs n (cmd (.exec ws)) s r s' ↔ r = .ok () ∧ s' = runAll ws s := by
  rw [runs_cmd]
  constructor
  · rintro ⟨i, x, hx, rfl⟩
    cases hx
    exact ⟨rfl, rfl⟩
  · rintro ⟨rfl, rfl⟩
    exact ⟨⟨0, "", "", ""⟩, (), rfl, rfl⟩

end ClaudeSwarm.Redis
