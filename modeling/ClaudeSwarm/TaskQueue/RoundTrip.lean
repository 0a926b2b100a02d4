import ClaudeSwarm.TaskQueue.Redis

/-!
# Tasks through their Redis hash

`_redis_create` and `_redis_save` flatten a task to text; `_redis_get` parses `requires` and leaves
every other field to `Task.from_dict`. A priority comes back as a string of digits, which
`_normalize_priority` does not know: it becomes the default tier.

* `fromDict_hashFields`: what a task reads back as.
* **`roundTrip_iff`**: a task survives the trip exactly when its priority is that default;
  `urgent_not_roundTrips` is one that does not.
-/

namespace ClaudeSwarm.TaskQueue.Redis

open Interleave Data ClaudeSwarm.Redis
open Python (Time PyError FloatFmt)

variable {F : FloatFmt} {t : Task}

/-- The times of `t` survive `float(str(·))`. -/
structure TimesSurvive (F : FloatFmt) (t : Task) : Prop where
  createdAt : F.float (F.str t.createdAt) = some t.createdAt
  claimedAt : F.float (F.str t.claimedAt) = some t.claimedAt
  completedAt : F.float (F.str t.completedAt) = some t.completedAt

theorem fst_hashFields : (hashFields F t).map Prod.fst = t.toDict.map Prod.fst := by
  simp [hashFields]

theorem nodup_hashFields : ((hashFields F t).map Prod.fst).Nodup := by
  rw [fst_hashFields]
  simp [Task.toDict]

theorem lookup_hashFields (key : String) :
    (hashFields F t).lookup key = (t.toDict.lookup key).map (text F) := by
  unfold hashFields
  induction t.toDict with
  | nil => rfl
  | cons p l ih =>
    rw [List.map_cons, List.lookup_cons, List.lookup_cons, ih]
    cases key == p.1 <;> rfl

theorem parseRequires_text (l : List String) :
    parseRequires (text F (.list l)) = .list l := by
  have hl : Json.loads (text F (.list l)) = some (.arr (l.map .str)) := Json.loads_dumps_strings l
  rw [parseRequires, hl]
  simp only [Json.strings_map, Option.elim_some]

/-- The dictionary of a stored task: the texts of its own, `requires` parsed. -/
theorem dictOf_hashFields (h : Hash) (key : String) :
    dictOf (h.set (hashFields F t)) key =
      ((t.toDict.lookup key).map fun v =>
        if key = "requires" then parseRequires (text F v) else .str (text F v)).or
        (dictOf h key) := by
  have hget : (h.set (hashFields F t)).get key =
      ((t.toDict.lookup key).map (text F)).or (h.get key) := by
    rw [← lookup_hashFields]
    exact Hash.get_set nodup_hashFields
  unfold dictOf
  rw [hget]
  split <;> cases t.toDict.lookup key <;> rfl

/-- A stored task reads back with every field, except for the priority. -/
theorem fromDict_hashFields (h : Hash) (uuid : String) (hp : 0 ≤ t.priority ∧ t.priority ≤ 5)
    (hF : TimesSurvive F t) :
    Task.fromDict F uuid (dictOf (h.set (hashFields F t))) = .ok { t with priority := 3 } := by
  have hfloat : ∀ x : Time, F.float (F.str x) = some x →
      floatOf F (.str (text F (.float x))) = .ok x := fun x hx => by simp [floatOf, text, hx]
  have hint : intOf (.str (text F (.int t.estimatedMinutes))) = .ok t.estimatedMinutes := by
    simp only [intOf, text, Python.int_str, Option.elim_some]
  have hprio : normalizePriority (.str (text F (.int t.priority))) = 3 := normalizePriority_digits hp
  have hstr : ∀ x : String, text F (.str x) = x := fun _ => rfl
  simp [Task.fromDict, dictOf_hashFields, Task.toDict, List.lookup_cons, parseRequires_text,
    hfloat _ hF.createdAt, hfloat _ hF.claimedAt, hfloat _ hF.completedAt, hint, hprio, hstr, strOf, requiresOf,
    TaskState.ofStr_str, bind, Except.bind, pure, Except.pure]

/-- What `_redis_get` returns for a stored task. -/
theorem redisGet_stored {n : Nat} {s s' : Keys} {r : Except PyError (Option Task)} {h : Hash}
    (hs : s.task t.id = h.set (hashFields F t)) (hp : 0 ≤ t.priority ∧ t.priority ≤ 5)
    (hF : TimesSurvive F t) (hr : store.Runs n (redisGet F t.id) s r s') :
    r = .ok (some { t with priority := 3 }) := by
  have hne : (h.set (hashFields F t)).rows ≠ [] := Hash.set_rows_ne_nil _ _ _
  rcases (Store.runs_bind store n).mp hr with ⟨data, s₁, hget, hr⟩ | ⟨e, hget, -⟩
  · obtain ⟨hdata, rfl⟩ := Client.runs_getTask hget
    rw [hs, if_neg hne] at hdata
    cases hdata
    rcases (Store.runs_bind store n).mp hr with ⟨task, s₂, hfrom, hr⟩ | ⟨e, hfrom, -⟩
    · obtain ⟨uuid, htask, rfl⟩ := runs_fromHash hfrom
      rw [fromDict_hashFields h uuid hp hF] at htask
      cases htask
      exact hr.1
    · obtain ⟨uuid, htask, -⟩ := runs_fromHash hfrom
      rw [fromDict_hashFields h uuid hp hF] at htask
      cases htask
  · obtain ⟨hdata, -⟩ := Client.runs_getTask hget
    cases hdata

/-- `_redis_get` gives back what `p` stored, alone on the server. -/
def RoundTrips (F : FloatFmt) (t : Task) (p : P Unit) : Prop :=
  ∀ n s s₁ s₂ r, store.Runs n p s (.ok ()) s₁ → store.Runs n (redisGet F t.id) s₁ r s₂ →
    r = .ok (some t)

/-- A transaction that leaves the fields of `t` in its hash round-trips at priority `3` only. -/
theorem roundTrips_iff {ws : List Write} (hp : 0 ≤ t.priority ∧ t.priority ≤ 5)
    (hF : TimesSurvive F t)
    (hstored : ∀ s, (runAll ws s).task t.id = (s.task t.id).set (hashFields F t)) :
    RoundTrips F t (cmd (.exec ws)) ↔ t.priority = 3 := by
  constructor
  · intro h
    obtain ⟨r, s₂, hr⟩ := exists_runs 0 (redisGet F t.id) (runAll ws .empty)
    have hget := redisGet_stored (hstored _) hp hF hr
    rw [h 0 .empty _ _ _ (runs_exec.mpr ⟨rfl, rfl⟩) hr] at hget
    exact congrArg Task.priority (Option.some.inj (Except.ok.inj hget))
  · intro h3 n s s₁ s₂ r h₁ h₂
    obtain ⟨-, rfl⟩ := runs_exec.mp h₁
    rw [redisGet_stored (hstored s) hp hF h₂, ← h3]

/-- **Round trip.** For a priority among the six tiers, both ways of storing a task give it back
unchanged exactly when its priority is `3`. -/
theorem roundTrip_iff (hp : 0 ≤ t.priority ∧ t.priority ≤ 5) (hF : TimesSurvive F t) :
    (RoundTrips F t (redisCreate F t) ↔ t.priority = 3) ∧
      (RoundTrips F t (redisSave F t) ↔ t.priority = 3) :=
  ⟨roundTrips_iff hp hF fun s => by simp [Write.run],
    roundTrips_iff hp hF fun s => by simp [Write.run]⟩

/-- A production task. -/
def urgent : Task := { id := "task-1", title := "t", priority := 0 }

theorem urgent_times : TimesSurvive Python.wholeSeconds urgent :=
  ⟨by decide +kernel, by decide +kernel, by decide +kernel⟩

theorem roundTrip_iff_urgent :
    (RoundTrips Python.wholeSeconds urgent (redisCreate Python.wholeSeconds urgent) ↔ (0 : Int) = 3) ∧
      (RoundTrips Python.wholeSeconds urgent (redisSave Python.wholeSeconds urgent) ↔ (0 : Int) = 3) :=
  roundTrip_iff (by decide) urgent_times

/-- A production task does not survive the trip. -/
theorem urgent_not_roundTrips :
    ¬ RoundTrips Python.wholeSeconds urgent (redisCreate Python.wholeSeconds urgent) ∧
      ¬ RoundTrips Python.wholeSeconds urgent (redisSave Python.wholeSeconds urgent) := by
  constructor
  · exact fun h => absurd ((roundTrips_iff (by decide) urgent_times
      fun s => by simp [Write.run]).mp h) (by decide)
  · exact fun h => absurd ((roundTrips_iff (by decide) urgent_times
      fun s => by simp [Write.run]).mp h) (by decide)

end ClaudeSwarm.TaskQueue.Redis
