import ClaudeSwarm.Data.JsonTrip
import ClaudeSwarm.SwarmRedis.Text
import ClaudeSwarm.TaskQueue.Redis

/-!
# One hash, two readers

`swarm_redis` and `TaskQueue` keep their tasks under the same keys. `swarm_redis.create_task` stores a
task's fields inside the JSON text `data` and `list_tasks` reads them there; `TaskQueue` reads fields
of the hash, which has no `title` and no `requires`. The claim script writes `claimed_at` in seconds,
`swarm_redis.claim_task` as ISO text, which `Task.from_dict` cannot read; neither writes
`claimed_by` into `data`.

* `OneMeaning`: `TaskQueue` gets and lists every task, and reports what `list_tasks` reports. A field
  that `list_tasks` does not report counts as empty.
* `Alike`: a hash that both read alike. `Alike.fromDict` and `Alike.taskData` are the two readers.
* **`one_meaning`**: the meaning is one along every run that creates tasks without title and
  requirements, completes tasks that exist and claims none, but for a claim script under an empty host
  name.
* `claimed_unreadable`: a task claimed by its id is one that `TaskQueue` cannot get.
-/

namespace ClaudeSwarm.SwarmRedis

open Interleave Data Redis
open Python (Time PyError FloatFmt)
open TaskQueue.Redis (redisGet listByState dictOf fromHashes)

/-! ## `list_tasks` -/

/-- The loop of `list_tasks` over the hashes of one stage. -/
def readTasks (s : TaskState) : List Hash → P (List Json)
  | [] => return []
  | t :: tasks => do
    let data ← taskData t [("state", .str ((t.get "state").getD s.str))]
    let results ← readTasks s tasks
    return data :: results

/-- The loop of `list_tasks` over the stages. -/
def readStages : List TaskState → P (List Json)
  | [] => return []
  | s :: stages => do
    let tasks ← Client.listTasks s 50
    let results ← readTasks s tasks
    let rest ← readStages stages
    return results ++ rest

/-- `list_tasks`; an empty `stage` counts as none. -/
def listTasks : Option TaskState → P (List Json)
  | none => readStages [.pending, .claimed, .completed]
  | some stage =>
    readStages (if stage.str = "" then [.pending, .claimed, .completed] else [stage])

/-! ## What both report -/

/-- `t` and the dictionary `d` agree on the fields that say which task this is and who has it. -/
structure SameTask (t : Task) (d : Json) : Prop where
  id : d.get? "id" = some (.str t.id)
  title : d.get? "title" = some (.str t.title)
  requires : d.get? "requires" = some (.ofStrings t.requires)
  claimed_by : (d.get? "claimed_by").getD (.str "") = .str t.claimedBy

variable (F : FloatFmt)

/-- `TaskQueue.get(id)` returns `t`. -/
def Gets (s : Keys) (id : String) (t : Task) : Prop :=
  ∀ n r s', store.Runs n (redisGet F id) s r s' → r = .ok (some t)

/-- The hashes mean the same tasks to both modules. -/
structure OneMeaning (s : Keys) : Prop where
  get : ∀ n id r s', store.Runs n (redisGet F id) s r s' → ∃ t, r = .ok t
  list : ∀ n state limit r s', store.Runs n (listByState F state limit) s r s' →
    ∃ tasks, r = .ok tasks ∧ ∀ t ∈ tasks, Gets F s t.id t
  same : ∀ n stage r s', store.Runs n (listTasks stage) s r s' →
    ∃ results, r = .ok results ∧ ∀ d ∈ results, ∃ t, Gets F s t.id t ∧ SameTask t d

/-! ## Hashes that both read alike -/

/-- The dictionary `create_task` stores as `data`. -/
def createdData (id title description project priority : String) (requires : List String)
    (created_by created_at : String) (estimated_minutes : Int) : List (String × Json) :=
  [("id", .str id), ("title", .str title), ("description", .str description),
    ("project", .str project), ("priority", .str priority), ("requires", .ofStrings requires),
    ("created_by", .str created_by), ("created_at", .str created_at),
    ("estimated_minutes", .int estimated_minutes)]

/-- The text of a task without title and requirements. -/
def Untitled (id text : String) : Prop :=
  ∃ description project priority created_by created_at estimated_minutes,
    text = Json.dumps (.obj (createdData id "" description project priority [] created_by created_at
      estimated_minutes))

/-- The fields of a task's times. -/
def timeFields : List String := ["created_at", "claimed_at", "completed_at"]

/-- The fields `TaskQueue` reads and `create_task` does not write. -/
def bareFields : List String := ["title", "requires", "estimated_minutes"]

/-- A hash without these fields and without a claimer, whose times `float` reads. -/
structure Clean (h : Hash) : Prop where
  bare : ∀ key ∈ bareFields, h.get key = none
  claimed_by : (h.get "claimed_by").getD "" = ""
  times : ∀ key ∈ timeFields, ∀ x, h.get key = some x → (F.float x).isSome

/-- A hash that both modules read as task `task_id`. -/
structure Alike (task_id : String) (h : Hash) : Prop extends Clean F h where
  id : h.get "id" = some task_id
  data : ∃ text, h.get "data" = some text ∧ Untitled task_id text

variable {F} {s : Keys} {id : String} {h : Hash}

theorem whole_createdData {id title description project priority : String}
    {requires : List String} {created_by created_at : String} {estimated : Int} :
    (Json.obj (createdData id title description project priority requires created_by created_at
      estimated)).Whole := by
  refine .obj fun m hm => ?_
  simp only [createdData, List.mem_cons, List.not_mem_nil, or_false] at hm
  rcases hm with rfl | rfl | rfl | rfl | rfl | rfl | rfl | rfl | rfl
  case inr.inr.inr.inr.inr.inl => exact Json.whole_ofStrings requires
  case inr.inr.inr.inr.inr.inr.inr.inr => exact .int _
  all_goals exact .str _

/-- What `list_tasks` reads in such a hash. -/
theorem Alike.taskData (ha : Alike F id h) (state : String) :
    ∃ d : Json, taskData h [("state", .str state)] = .ret d ∧ d.get? "id" = some (.str id) ∧
      d.get? "title" = some (.str "") ∧ d.get? "requires" = some (.ofStrings []) ∧
      d.get? "claimed_by" = none := by
  obtain ⟨text, htext, description, project, priority, created_by, created_at, estimated, rfl⟩ :=
    ha.data
  refine ⟨.obj (Json.setKey (createdData id "" description project priority [] created_by created_at
    estimated) ("state", .str state)), ?_, ?_⟩
  · unfold SwarmRedis.taskData
    rw [htext]
    simp only [Json.loads_dumps whole_createdData]
    rfl
  · simp [Json.get?, Json.setKey, createdData, List.lookup_cons]

theorem strOf_dictOf {key d : String} (hkey : key ≠ "requires") :
    strOf ((dictOf h key).getD (.str d)) = .ok ((h.get key).getD d) := by
  rw [dictOf, if_neg hkey]
  cases h.get key <;> rfl

theorem Alike.floatOf (ha : Alike F id h) {key : String}
    (hkey : key ∈ timeFields) :
    ∃ t, floatOf F ((dictOf h key).getD (.int 0)) = .ok t := by
  have hne : key ≠ "requires" := by
    rintro rfl
    revert hkey
    decide
  rw [dictOf, if_neg hne]
  cases hx : h.get key with
  | none => exact ⟨_, rfl⟩
  | some x =>
    obtain ⟨t, ht⟩ := Option.isSome_iff_exists.mp (ha.times key hkey x hx)
    exact ⟨t, by simp [ClaudeSwarm.floatOf, ht]⟩

/-- What `Task.from_dict` reads in such a hash. -/
theorem Alike.fromDict (ha : Alike F id h) :
    ∃ t : Task, (∀ uuid, Task.fromDict F uuid (dictOf h) = .ok t) ∧ t.id = id ∧ t.title = "" ∧
      t.requires = [] ∧ t.claimedBy = "" := by
  obtain ⟨created, hcreated⟩ := @Alike.floatOf _ _ _ ha "created_at" (by decide)
  obtain ⟨claimed, hclaimed⟩ := @Alike.floatOf _ _ _ ha "claimed_at" (by decide)
  obtain ⟨completed, hcompleted⟩ := @Alike.floatOf _ _ _ ha "completed_at" (by decide)
  have hrequires : dictOf h "requires" = none := by
    rw [dictOf, if_pos rfl, ha.bare "requires" (by decide)]
    rfl
  have htitle : h.get "title" = none := ha.bare "title" (by decide)
  have hestimated : dictOf h "estimated_minutes" = none := by
    rw [dictOf, if_neg (by decide), ha.bare "estimated_minutes" (by decide)]
    rfl
  refine ⟨{ id, title := "", description := (h.get "description").getD ""
            project := (h.get "project").getD ""
            priority := normalizePriority ((dictOf h "priority").getD (.int 3))
            state := .ofStr ((h.get "state").getD "pending")
            createdBy := (h.get "created_by").getD "", createdAt := created
            claimedAt := claimed, completedAt := completed, result := (h.get "result").getD ""
            error := (h.get "error").getD "" }, fun uuid => ?_, rfl, rfl, rfl, rfl⟩
  simp [Task.fromDict, strOf_dictOf, hcreated, hclaimed, hcompleted, hrequires, hestimated,
    htitle, ha.id, ha.claimed_by, requiresOf, intOf, bind, Except.bind, pure, Except.pure]

/-! ## From the hashes to the two listings -/

variable (F) in
/-- Every hash is one that both read alike, and what is pending has a hash. -/
structure Plain (s : Keys) : Prop where
  alike : ∀ id, (s.task id).rows ≠ [] → Alike F id (s.task id)
  pending : ∀ id, Member s .pending id → (s.task id).rows ≠ []

variable {n : Nat} {s' : Keys}

/-- `_redis_get`, run alone: nothing, or what `Task.from_dict` makes of the hash. -/
theorem runs_redisGet {r : Except PyError (Option Task)} (hr : store.Runs n (redisGet F id) s r s') :
    ((s.task id).rows = [] ∧ r = .ok none) ∨
      (s.task id).rows ≠ [] ∧ ∃ uuid, r = (Task.fromDict F uuid (dictOf (s.task id))).map some := by
  rcases (Store.runs_bind store n).mp hr with ⟨data, s₁, hget, hr⟩ | ⟨e, hget, -⟩
  · obtain ⟨hdata, hs₁⟩ := Client.runs_getTask hget
    rw [hs₁] at hr
    cases hdata
    by_cases hne : (s.task id).rows = []
    · rw [if_pos hne] at hr
      exact Or.inl ⟨hne, hr.1⟩
    · rw [if_neg hne] at hr
      refine Or.inr ⟨hne, ?_⟩
      rcases (Store.runs_bind store n).mp hr with ⟨task, s₂, hfrom, hr⟩ | ⟨e, hfrom, he⟩
      · obtain ⟨uuid, htask, -⟩ := TaskQueue.Redis.runs_fromHash hfrom
        refine ⟨uuid, hr.1.trans ?_⟩
        rw [← htask]
        rfl
      · obtain ⟨uuid, htask, -⟩ := TaskQueue.Redis.runs_fromHash hfrom
        refine ⟨uuid, he.trans ?_⟩
        rw [← htask]
        rfl
  · cases (Client.runs_getTask hget).1

/-- A hash that both read alike is a task that `TaskQueue` gets. -/
theorem Alike.gets (ha : Alike F id (s.task id)) {t : Task}
    (ht : ∀ uuid, Task.fromDict F uuid (dictOf (s.task id)) = .ok t) : Gets F s id t := by
  intro n r s' hr
  rcases runs_redisGet hr with ⟨hnil, -⟩ | ⟨-, uuid, rfl⟩
  · have hid := ha.id
    rw [Hash.get, Table.find?, hnil] at hid
    cases hid
  · rw [ht]
    rfl

/-- `redis_client.list_tasks`, run alone: hashes of tasks. -/
theorem runs_listTasks {state : TaskState} {limit : Int} {r : Except PyError (List Hash)}
    (hr : store.Runs n (Client.listTasks state limit) s r s') :
    s' = s ∧ ∃ hashes, r = .ok hashes ∧
      ∀ h ∈ hashes, ∃ id, h = s.task id ∧ (s.task id).rows ≠ [] := by
  obtain ⟨i, ids, s₁, hx, hr⟩ := hr
  cases hx
  simp only [Prog.bind] at hr
  split at hr
  · obtain ⟨rfl, rfl⟩ := hr
    exact ⟨rfl, [], rfl, fun h hh => absurd hh List.not_mem_nil⟩
  · obtain ⟨i, hashes, s₂, hx, hr⟩ := hr
    cases hx
    obtain ⟨rfl, rfl⟩ := hr
    refine ⟨rfl, _, rfl, fun h hh => ?_⟩
    obtain ⟨hh, hne⟩ := List.mem_filter.mp hh
    obtain ⟨id, -, rfl⟩ := List.mem_map.mp hh
    exact ⟨id, rfl, by simpa using hne⟩

/-- Rebuilding tasks whose hashes both read alike. -/
theorem runs_fromHashes (hs : Plain F s) {hashes : List Hash}
    (hh : ∀ h ∈ hashes, ∃ id, h = s.task id ∧ (s.task id).rows ≠ []) {r : Except PyError (List Task)}
    (hr : store.Runs n (fromHashes F hashes) s r s') :
    ∃ tasks, r = .ok tasks ∧ ∀ t ∈ tasks, Gets F s t.id t := by
  induction hashes generalizing r s' with
  | nil => exact ⟨[], hr.1, fun t ht => absurd ht List.not_mem_nil⟩
  | cons h hashes ih =>
    obtain ⟨id, rfl, hne⟩ := hh h List.mem_cons_self
    obtain ⟨t, ht, hid, -⟩ := (hs.alike id hne).fromDict
    have hgets := (hs.alike id hne).gets ht
    rcases (Store.runs_bind store n).mp hr with ⟨t', s₁, hfrom, hr⟩ | ⟨e, hfrom, -⟩
    · obtain ⟨uuid, ht', rfl⟩ := TaskQueue.Redis.runs_fromHash hfrom
      rw [ht uuid] at ht'
      cases ht'
      rcases (Store.runs_bind store n).mp hr with ⟨tasks, s₂, hrest, hr⟩ | ⟨e, hrest, -⟩
      · obtain ⟨tasks', htasks, hall⟩ :=
          ih (fun h hh' => hh h (List.mem_cons_of_mem _ hh')) hrest
        cases htasks
        refine ⟨t :: tasks, hr.1, fun t' ht' => ?_⟩
        rcases List.mem_cons.mp ht' with rfl | ht'
        · exact hid ▸ hgets
        · exact hall t' ht'
      · obtain ⟨tasks', htasks, -⟩ := ih (fun h hh' => hh h (List.mem_cons_of_mem _ hh')) hrest
        cases htasks
    · obtain ⟨uuid, ht', -⟩ := TaskQueue.Redis.runs_fromHash hfrom
      rw [ht uuid] at ht'
      cases ht'

/-- Reading the `data` of tasks whose hashes both read alike. -/
theorem exists_readTasks (hs : Plain F s) {hashes : List Hash} (state : TaskState)
    (hh : ∀ h ∈ hashes, ∃ id, h = s.task id ∧ (s.task id).rows ≠ []) :
    ∃ results, readTasks state hashes = .ret results ∧
      ∀ d ∈ results, ∃ t, Gets F s t.id t ∧ SameTask t d := by
  induction hashes with
  | nil => exact ⟨[], rfl, fun d hd => absurd hd List.not_mem_nil⟩
  | cons h hashes ih =>
    obtain ⟨id, rfl, hne⟩ := hh h List.mem_cons_self
    obtain ⟨results, hresults, hall⟩ := ih fun h hh' => hh h (List.mem_cons_of_mem _ hh')
    have ha := hs.alike id hne
    obtain ⟨t, ht, hid, htitle, hrequires, hclaimed⟩ := ha.fromDict
    obtain ⟨d, hd, hid', htitle', hrequires', hclaimed'⟩ :=
      ha.taskData (((s.task id).get "state").getD state.str)
    refine ⟨d :: results, ?_, fun d' hd' => ?_⟩
    · rw [readTasks, hd, Prog.ret_bind, hresults]
      rfl
    · rcases List.mem_cons.mp hd' with rfl | hd'
      · refine ⟨t, hid ▸ ha.gets ht, hid ▸ hid', htitle ▸ htitle', hrequires ▸ hrequires', ?_⟩
        rw [hclaimed', hclaimed]
        rfl
      · exact hall d' hd'

theorem runs_readStages (hs : Plain F s) {stages : List TaskState} {r : Except PyError (List Json)}
    (hr : store.Runs n (readStages stages) s r s') :
    ∃ results, r = .ok results ∧ ∀ d ∈ results, ∃ t, Gets F s t.id t ∧ SameTask t d := by
  induction stages generalizing r s' with
  | nil => exact ⟨[], hr.1, fun d hd => absurd hd List.not_mem_nil⟩
  | cons stage stages ih =>
    rcases (Store.runs_bind store n).mp hr with ⟨tasks, s₁, hlist, hrest⟩ | ⟨e, hlist, -⟩
    · obtain ⟨hs₁, hashes, hok, hh⟩ := runs_listTasks hlist
      cases hok
      obtain ⟨results, hread, hall⟩ := exists_readTasks hs stage hh
      rw [hread, Prog.ret_bind, hs₁] at hrest
      rcases (Store.runs_bind store n).mp hrest with ⟨rest, s₂, hrest, hr⟩ | ⟨e, hrest, -⟩
      · obtain ⟨rest', hok, hall'⟩ := ih hrest
        cases hok
        refine ⟨results ++ rest, hr.1, fun d hd => ?_⟩
        exact (List.mem_append.mp hd).elim (hall d) (hall' d)
      · obtain ⟨rest', hok, -⟩ := ih hrest
        cases hok
    · obtain ⟨-, hashes, hok, -⟩ := runs_listTasks hlist
      cases hok

/-- **Hashes that both read alike mean the same tasks to both modules.** -/
theorem Plain.oneMeaning (hs : Plain F s) : OneMeaning F s where
  get n id r s' hr := by
    rcases runs_redisGet hr with ⟨-, rfl⟩ | ⟨hne, uuid, rfl⟩
    · exact ⟨none, rfl⟩
    · obtain ⟨t, ht, -⟩ := (hs.alike id hne).fromDict
      rw [ht]
      exact ⟨some t, rfl⟩
  list n state limit r s' hr := by
    rcases (Store.runs_bind store n).mp hr with ⟨hashes, s₁, hlist, hread⟩ | ⟨e, hlist, -⟩
    · obtain ⟨hs₁, hashes', hok, hh⟩ := runs_listTasks hlist
      cases hok
      exact runs_fromHashes hs hh (hs₁ ▸ hread)
    · obtain ⟨-, hashes', hok, -⟩ := runs_listTasks hlist
      cases hok
  same n stage r s' hr := by
    cases stage with
    | none => exact runs_readStages hs hr
    | some stage => exact runs_readStages hs hr

/-! ## The writes of the four operations -/

variable (F) in
/-- A field that leaves a hash clean. -/
def Harmless (f : String × String) : Prop :=
  f.1 ∉ bareFields ∧ (f.1 = "claimed_by" → f.2 = "") ∧ (f.1 ∈ timeFields → (F.float f.2).isSome)

theorem get_of_rows_nil (hnil : h.rows = []) (key : String) : h.get key = none := by
  rw [Hash.get, Table.find?, hnil]
  rfl

theorem clean_of_rows_nil (hnil : h.rows = []) : Clean F h where
  bare _ _ := get_of_rows_nil hnil _
  claimed_by := by rw [get_of_rows_nil hnil]; rfl
  times _ _ x hx := by rw [get_of_rows_nil hnil] at hx; cases hx

theorem Clean.put {f : String × String} (hc : Clean F h) (hf : Harmless F f) :
    Clean F (h.put f) where
  bare key hkey := by
    have hne : key ≠ f.1 := fun he => hf.1 (he ▸ hkey)
    rw [Hash.get_put, if_neg hne]
    exact hc.bare key hkey
  claimed_by := by
    rw [Hash.get_put]
    split
    · rename_i he
      exact hf.2.1 he.symm
    · exact hc.claimed_by
  times key hkey x hx := by
    rw [Hash.get_put] at hx
    split at hx
    · rename_i he
      cases hx
      exact hf.2.2 (he ▸ hkey)
    · exact hc.times key hkey x hx

theorem Clean.set : ∀ {fields : List (String × String)} {h : Hash}, Clean F h →
    (∀ f ∈ fields, Harmless F f) → Clean F (h.set fields)
  | [], _, hc, _ => hc
  | _ :: _, _, hc, hf => (hc.put (hf _ List.mem_cons_self)).set fun f hm =>
    hf f (List.mem_cons_of_mem _ hm)

/-- `HSET` with harmless fields other than `id` and `data`. -/
theorem Alike.set {fields : List (String × String)} (ha : Alike F id h)
    (hf : ∀ f ∈ fields, Harmless F f) (hid : "id" ∉ fields.map Prod.fst)
    (hdata : "data" ∉ fields.map Prod.fst) : Alike F id (h.set fields) where
  toClean := ha.toClean.set hf
  id := by rw [Hash.get_set_of_notMem hid, ha.id]
  data := by rw [Hash.get_set_of_notMem hdata]; exact ha.data

theorem Alike.rows_ne_nil (ha : Alike F id h) : h.rows ≠ [] := fun hnil => by
  have hid := ha.id
  rw [get_of_rows_nil hnil] at hid
  cases hid

/-- A step that concerns one task and leaves it with a hash that both read alike. -/
theorem Plain.update (hs : Plain F s) (hsame : ∀ id', id' ≠ id → SameAt s s' id')
    (ha : Alike F id (s'.task id)) : Plain F s' where
  alike id' hne := by
    by_cases hid : id' = id
    · exact hid ▸ ha
    · rw [(hsame id' hid).task] at hne ⊢
      exact hs.alike id' hne
  pending id' hm := by
    by_cases hid : id' = id
    · exact hid ▸ ha.rows_ne_nil
    · rw [(hsame id' hid).task]
      exact hs.pending id' (((hsame id' hid).member _).mp hm)

/-- `create_task` of a task without title and requirements. -/
theorem Plain.create (hF : F.RoundTrips) (hs : Plain F s)
    {description project priority created_by created_at : String} {estimated score : Int}
    {now created : Time} :
    Plain F (runAll (Client.createWrites F id (.obj (createdData id "" description project priority []
      created_by created_at estimated)) score now created) s) := by
  refine @Plain.update _ _ id _ hs (fun id' hid => sameAt_runAll (by simp [Client.createWrites, writeId, hid]))
    ?_
  have hc : Clean F (s.task id) := by
    by_cases hnil : (s.task id).rows = []
    · exact clean_of_rows_nil hnil
    · exact (hs.alike id hnil).toClean
  simp only [Client.createWrites, runAll_cons, runAll_nil, Write.run, Function.update_self]
  refine ⟨hc.set fun f hf => ?_, ?_, _, ?_, description, project, priority, created_by, created_at,
    estimated, rfl⟩
  · simp only [List.mem_cons, List.not_mem_nil, or_false] at hf
    rcases hf with rfl | rfl | rfl | rfl | rfl
    case inr.inr.inr.inl =>
      exact ⟨by simp [bareFields], by simp, fun _ => by rw [hF created]; rfl⟩
    all_goals exact ⟨by simp [bareFields], by simp, by simp [timeFields]⟩
  · simp
  · simp

/-- `complete_task` of a task that exists. -/
theorem Plain.complete (hF : F.RoundTrips) (hs : Plain F s) {result_data : Option Json}
    {now completed_at : Time} (hne : (s.task id).rows ≠ []) :
    Plain F (runAll (Client.completeWrites F id result_data now completed_at) s) := by
  refine @Plain.update _ _ id _ hs
    (fun id' hid => sameAt_runAll (by simp [Client.completeWrites, writeId, hid])) ?_
  simp only [Client.completeWrites, runAll_cons, runAll_nil, Write.run, Function.update_self]
  refine (hs.alike id hne).set (fun f hf => ?_) ?_ ?_
  · rcases List.mem_append.mp hf with hf | hf
    · simp only [List.mem_cons, List.not_mem_nil, or_false] at hf
      rcases hf with rfl | rfl
      · exact ⟨by simp [bareFields], by simp, by simp [timeFields]⟩
      · exact ⟨by simp [bareFields], by simp, fun _ => by rw [hF completed_at]; rfl⟩
    · obtain ⟨v, -, rfl⟩ := by simpa using hf
      exact ⟨by simp [bareFields], by simp, by simp [timeFields]⟩
  · cases result_data <;> simp
  · cases result_data <;> simp

/-- The claim script under an empty host name. -/
theorem Plain.pop (hF : F.RoundTrips) (hs : Plain F s) {now : Time} {score : Int}
    (hm : (s.tasks .pending).min? = some (id, score)) :
    Plain F (runAll (Redis.claimWrites (F.str now) "" id score) s) := by
  have hmember : Member s .pending id :=
    Option.isSome_iff_exists.mpr ⟨score, ZSet.score_of_mem (ZSet.min?_mem hm)⟩
  refine @Plain.update _ _ id _ hs
    (fun id' hid => sameAt_runAll (by simp [Redis.claimWrites, writeId, hid])) ?_
  simp only [Redis.claimWrites, runAll_cons, runAll_nil, Write.run, Function.update_self]
  refine (hs.alike id (hs.pending id hmember)).set (fun f hf => ?_) (by simp) (by simp)
  simp only [List.mem_cons, List.not_mem_nil, or_false] at hf
  rcases hf with rfl | rfl | rfl
  · exact ⟨by simp [bareFields], by simp, by simp [timeFields]⟩
  · exact ⟨by simp [bareFields], by simp, fun _ => by rw [hF now]; rfl⟩
  · exact ⟨by simp [bareFields], by simp, by simp [timeFields]⟩

/-! ## Along a run -/

variable (F)

/-- What `create_task` and `claim_next_task` say, beyond `Writes`: the data a task is created with,
and the clock the claim script is given. -/
def Says : Op → Cmd → Prop
  | .create title description project priority requires estimated, .exec ws =>
    ∃ n created_by created_at now created, ws = Client.createWrites F (taskName n)
      (.obj (createdData (taskName n) title description project priority requires created_by
        created_at estimated)) (priorityScore priority) now created
  | .claimNext, .evalClaim now _ => ∃ t, now = F.str t
  | _, _ => True

theorem prog_saying (o : Op) : (prog F o).Each (Says F o) := by
  cases o with
  | create title description project priority requires estimated =>
    refine each_cmd trivial fun n => each_cmd trivial fun created_by =>
      each_cmd trivial fun created_at => ?_
    refine Prog.each_bind (fun _ => ?_) (each_createTask trivial fun now created =>
      ⟨n, created_by, created_at, now, created, rfl⟩)
    trivial
  | claimNext =>
    refine each_cmd trivial fun host => Prog.each_bind (fun id => ?_)
      (each_cmd trivial fun now => ⟨⟨now, rfl⟩, fun _ => trivial⟩)
    cases id with
    | none => trivial
    | some id =>
      refine Prog.each_bind (fun task => ?_) (each_getTask trivial)
      cases task with
      | none => trivial
      | some task =>
        refine Prog.each_bind (fun _ => ?_) (each_claimedData trivial)
        trivial
  | _ => exact Prog.each_mono (fun c _ => trivial) (Prog.each_true _)

/-- The four operations, where a created task has neither title nor requirements, a completed one
exists, and none is claimed but by the script under an empty host name. Only `claim_next_task` runs
the script. -/
def agreeing (s : Keys) : Op → Cmd → Bool
  | .create title _ _ _ requires _, .exec _ => title = "" ∧ requires = []
  | .claim _, .exec _ => false
  | .claimNext, .evalClaim _ host => host = "" ∨ (s.tasks .pending).min? = none
  | .complete task_id _, .exec _ => (s.task task_id).rows ≠ []
  | _, .evalClaim .. => false
  | .create .., _ | .claim _, _ | .claimNext, _ | .complete .., _ => true
  | _, _ => false

/-- `agreeing`, before each command. -/
abbrev Agreeing : Guard (system F) := fun w _ o c => agreeing w.state o c = true

/-- An agreeing command of the programs. -/
abbrev Spoken : Guard (system F) := fun w n o c =>
  (Agreeing F w n o c ∧ Text F o c) ∧ Says F o c

variable {F}

theorem Plain.of_same (hs : Plain F s) (ht : s'.task = s.task) (hz : s'.tasks = s.tasks) :
    Plain F s' where
  alike id := by rw [ht]; exact hs.alike id
  pending id hm := by
    rw [ht]
    rw [Member, hz] at hm
    exact hs.pending id hm

/-- The programs' commands keep the hashes alike. -/
theorem plain_preserved (hF : F.RoundTrips) :
    Preserved (Spoken F) fun w => Plain F w.state := by
  rintro w ⟨n, o, c, x⟩ ⟨s', tr⟩ hs ⟨⟨hagree, htext⟩, hsays⟩ hf
  obtain ⟨i, hx⟩ := hf.1
  simp only at hs hx hagree htext hsays ⊢
  cases effect_of_exec hx with
  | read hc ht hz => exact hs.of_same ht hz
  | @exec ws =>
    cases o with
    | create title description project priority requires estimated =>
      obtain ⟨rfl, rfl⟩ := of_decide_eq_true hagree
      obtain ⟨n, created_by, created_at, now, created, rfl⟩ := hsays
      exact hs.create hF
    | complete id artifact =>
      obtain ⟨_, _, _, rfl⟩ := htext ws rfl
      exact hs.complete hF (of_decide_eq_true hagree)
    | claimNext => exact (htext ws rfl).elim
    | _ => cases hagree
  | empty hm => exact hs
  | @pop now claimer id score hm =>
    cases o with
    | claimNext =>
      obtain ⟨t, rfl⟩ := hsays
      rcases of_decide_eq_true hagree with rfl | hnone
      · exact hs.pop hF hm
      · rw [hm] at hnone
        cases hnone
    | _ => cases hagree

/-- **One meaning** along every run whose steps all agree, from a server without tasks. -/
theorem one_meaning (hF : F.RoundTrips) {s : Keys} (hs : ∀ id, (s.task id).rows = [])
    (hz : (s.tasks .pending).rows = []) {c : Config (system F)} (h : Run (Agreeing F) (.init s) c) :
    OneMeaning F c.world.state := by
  have hinit : Plain F s := by
    refine ⟨fun id hne => absurd (hs id) hne, fun id hm => ?_⟩
    rw [Member, ZSet.score, Table.find?, hz] at hm
    cases hm
  have hrun := @run_each (system F) _ (Says F) (prog_saying F) s c (run_text h)
  have hplain : Plain F c.world.state :=
    run_inv (G := Spoken F) (I := fun w => Plain F w.state) (plain_preserved hF) hinit hrun
  exact hplain.oneMeaning

/-! ## A task claimed by its id -/

/-- **A task whose `claimed_at` is ISO text** is one that `TaskQueue` cannot get. -/
theorem claimed_unreadable {x : String} (hx : (s.task id).get "claimed_at" = some x)
    (hfloat : F.float x = none) : ¬ OneMeaning F s := by
  intro hone
  obtain ⟨r, s', hr⟩ := exists_runs 0 (redisGet F id) s
  obtain ⟨t, ht⟩ := hone.get 0 id r s' hr
  rcases runs_redisGet hr with ⟨hnil, -⟩ | ⟨-, uuid, hread⟩
  · rw [get_of_rows_nil hnil] at hx
    cases hx
  · rw [ht] at hread
    cases htask : Task.fromDict F uuid (dictOf (s.task id)) with
    | error e =>
      rw [htask] at hread
      cases hread
    | ok task =>
      obtain ⟨y, hy⟩ := @Task.fromDict_times _ _ _ _ htask "claimed_at" (by decide)
      rw [dictOf, if_neg (by decide), hx] at hy
      simp [floatOf, hfloat] at hy

/-- What a call on host `a` reads from outside on the first day of a year. -/
def newYear : Env := ⟨0, "2026-01-01T00:00:00Z", "", "a"⟩

/-- A task without title is created and completed. -/
def completesUntitled : List (Act (system Python.exact)) :=
  solo (system _) 0 (.create "" "" "" "medium" [] 0) 6 newYear ++
    solo (system _) 1 (.complete "task-0001" "") 5 newYear

theorem completesUntitled_plays :
    (play (Agreeing Python.exact) (.init Keys.empty) completesUntitled).isSome := by
  decide +kernel

theorem one_meaning_completesUntitled : OneMeaning Python.exact
    (played (Agreeing Python.exact) _ completesUntitled completesUntitled_plays).world.state :=
  one_meaning Python.float_str_exact (fun _ => rfl) rfl (run_played completesUntitled_plays)

/-- A task is created and claimed by its id. -/
def claimsById : List (Act (system Python.exact)) :=
  solo (system _) 0 (.create "build" "" "" "medium" [] 0) 6 newYear ++
    solo (system _) 1 (.claim "task-0001") 6 newYear

/-- Once a task is claimed by its id, `TaskQueue` cannot read it. -/
theorem claim_two_meanings : ∃ c : Config (system Python.exact),
    Run Free (.init Keys.empty) c ∧ ¬ OneMeaning Python.exact c.world.state := by
  have hplay : (play Free (.init Keys.empty) claimsById).any (fun c =>
      decide ((c.world.state.task "task-0001").get "claimed_at" = some newYear.iso)) = true := by
    decide +kernel
  obtain ⟨c, hrun, hc⟩ := exists_run_of_play hplay
  exact ⟨c, hrun, claimed_unreadable (of_decide_eq_true hc) (by decide +kernel)⟩

end ClaudeSwarm.SwarmRedis
