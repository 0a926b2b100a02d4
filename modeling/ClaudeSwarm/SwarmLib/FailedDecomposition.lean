import ClaudeSwarm.SwarmLib.Alone
import ClaudeSwarm.SwarmLib.Names
import ClaudeSwarm.SwarmLib.TaskIndex

/-!
# Decompositions that fail

Model of `decompose_task` (`src/swarm_lib.py`), run alone, with everything that makes it raise an exception: an entry
that is no dictionary, a value that cannot be dumped, a file name that cannot be encoded, and an `OSError` of any of its
steps (`Step`). The subtasks' files are written one after the other before the parent is moved, and none is taken back.
The letter of subtask `i` is `chr(97 + i)`, which is a surrogate from the 55200th subtask on.

* `createSubtasks_state`: the loop leaves the files of the subtasks before the first that raises (`prepared`).
* **`atomic_iff`**: a call that raises leaves every task file as it was, and one that returns has added a task of its
  own for each subtask, if and only if `Spared`.
* `second_entry_raises`: the second entry is no dictionary, and the first is a pending task.
-/

namespace ClaudeSwarm.FailedDecomposition

open Data
open SwarmLib (Doc setKeys subtaskId letter)
open TaskIndex (isTaskFile filePath scanned Listing)

/-! ## Task files -/

/-- A value of a dictionary: one that `yaml.safe_load` reads back, one that `yaml.dump` writes with a tag of Python's,
which `yaml.safe_load` refuses, or one that it cannot write. -/
inductive Value where
  | plain (j : Json)
  | tagged (text : String)
  | unwritable
  deriving DecidableEq

/-- A dictionary as it is dumped. -/
abbrev Fields := List (String × Value)

/-- The value as it is read back. -/
def Value.json? : Value → Option Json
  | .plain j => some j
  | _ => none

/-- What a task file holds: a dictionary, or something that cannot be read as one. -/
inductive Content where
  | dict (fields : Fields)
  | other (text : String)
  deriving DecidableEq

/-- The dictionary `yaml.safe_load` reads in a file. -/
def Content.reads : Content → Option Doc
  | .dict fields => fields.mapM fun f => f.2.json?.map (f.1, ·)
  | .other _ => none

/-- The task files of `pending/` and `decomposed/`, by name. -/
structure Dirs where
  pending : Dict String Content
  decomposed : Dict String Content

/-- `f"{task_id}.yaml"`. -/
def fileName (task_id : String) : String := task_id ++ ".yaml"

/-- A task is written to `pending/`. -/
def Dirs.put (s : Dirs) (f : String × Fields) : Dirs := { s with pending := s.pending.set (fileName f.1) (.dict f.2) }

/-! ## The code -/

/-- An entry of `subtasks`. -/
inductive Entry where
  | dict (fields : Dict String Value)
  | other

/-- The steps an `OSError` may come from: finding, locking and reading the parent, the host's name and the writing of a
subtask, the writing of the parent, its removal, and what is left of the lock. -/
inductive Step where
  | start
  | subtask (i : Nat)
  | parent
  | remove
  | unlock
  deriving DecidableEq

inductive Raised where
  | FileNotFoundError | OSError | YAMLError | AttributeError | UnicodeEncodeError | RepresenterError
  deriving DecidableEq

/-- What a call meets: the host's name, the time at each subtask and after the last, and the steps that fail. -/
structure Env where
  host : String
  iso : Nat → String
  fault : Step → Bool

variable (env : Env) (task_id : String) (parent : Doc)

/-- `sub.get(key, default)`. -/
def getValue (sub : Dict String Value) (key : String) (default : Json) : Value :=
  (sub.get? key).getD (.plain default)

/-- `subtask_data`. -/
def subtaskData (i : Nat) (sub : Dict String Value) : Fields :=
  [("id", .plain (.str (subtaskId task_id i))), ("parent_id", .plain (.str task_id)),
    ("title", getValue sub "title" (.str ("Subtask " ++ toString (i + 1)))),
    ("description", getValue sub "description" (.str "")),
    ("project", getValue sub "project" ((parent.lookup "project").getD (.str ""))),
    ("priority", getValue sub "priority" ((parent.lookup "priority").getD (.str "medium"))),
    ("requires", getValue sub "requires" (.arr [])), ("created_by", .plain (.str env.host)),
    ("created_at", .plain (.str (env.iso i))), ("estimated_minutes", getValue sub "estimated_minutes" (.int 0))]

/-- The id and the dictionary of a subtask, up to the renaming of its file. -/
def subtaskFile (i : Nat) : Entry → Except Raised (String × Fields)
  | .other => .error .AttributeError
  | .dict sub =>
    -- the name of a file cannot hold the surrogate that comes first
    if ¬ (97 + i).isValidChar then .error .UnicodeEncodeError
    else if .unwritable ∈ (subtaskData env task_id parent i sub).map Prod.snd then .error .RepresenterError
    else if env.fault (.subtask i) then .error .OSError
    else .ok (subtaskId task_id i, subtaskData env task_id parent i sub)

/-- The loop over the subtasks, from index `i`. -/
def createSubtasks : Nat → List Entry → Dirs → Except Raised (List String) × Dirs
  | _, [], s => (.ok [], s)
  | i, sub :: subtasks, s =>
    match subtaskFile env task_id parent i sub with
    | .error e => (.error e, s)
    | .ok f =>
      let rest := createSubtasks (i + 1) subtasks (s.put f)
      (rest.1.map (f.1 :: ·), rest.2)

/-- The parent as it is written to `decomposed/`. -/
def decomposedDoc (subtasks : Nat) (subtask_ids : List String) : Doc :=
  setKeys parent [("state", .str "decomposed"), ("subtasks", .ofStrings subtask_ids),
    ("decomposed_at", .str (env.iso subtasks)), ("decomposed_by", .str env.host)]

/-- A dictionary that was read, or made of what was, as it is dumped. -/
def dumped (doc : Doc) : Content := .dict (doc.map fun f => (f.1, .plain f.2))

/-- The parent is written to `decomposed/` and removed from `pending/`. -/
def moveParent (moved : Doc) (s : Dirs) : Except Raised Doc × Dirs :=
  if env.fault .parent then (.error .OSError, s)
  else
    let s := { s with decomposed := s.decomposed.set (fileName task_id) (dumped moved) }
    if env.fault .remove then (.error .OSError, s)
    else
      let s := { s with pending := s.pending.erase (fileName task_id) }
      if env.fault .unlock then (.error .OSError, s) else (.ok moved, s)

/-- `decompose_task`. -/
def decomposeTask (subtasks : List Entry) (s : Dirs) : Except Raised Doc × Dirs :=
  if env.fault .start then (.error .OSError, s)
  else
    match s.pending.get? (fileName task_id) with
    | none => (.error .FileNotFoundError, s)
    | some content =>
      match content.reads with
      | none => (.error .YAMLError, s)
      | some parent =>
        match createSubtasks env task_id parent 0 subtasks s with
        | (.error e, s) => (.error e, s)
        | (.ok subtask_ids, s) =>
          moveParent env task_id (decomposedDoc env parent subtasks.length subtask_ids) s

/-! ## What is said of a call -/

/-- The two directories hold the same task files. -/
def Unchanged (s s' : Dirs) : Prop :=
  ∀ name, s'.pending.get? name = s.pending.get? name ∧ s'.decomposed.get? name = s.decomposed.get? name

/-- The files of a directory, as they are read. -/
def listing (d : Dict String Content) : Listing :=
  ⟨d.entries.map fun e => (e.1, e.2.reads), by simpa [Function.comp_def] using d.nodup⟩

/-- `list_tasks` reports a pending task with this id, from its own file. -/
def Reported (s : Dirs) (root sub_id : String) : Prop :=
  ∃ task ∈ scanned root "pending" (listing s.pending), task.lookup "id" = some (.str sub_id) ∧
    task.lookup "_file" = some (.str (filePath root "pending" (fileName sub_id)))

/-- There are exactly `n` new pending tasks, with distinct ids, each reported, and the file of none was there before. -/
def Created (root : String) (n : Nat) (s s' : Dirs) : Prop :=
  ∃ ids : List String, ids.length = n ∧ ids.Nodup ∧
    (∀ sub_id ∈ ids, s.pending.get? (fileName sub_id) = none ∧ Reported s' root sub_id) ∧
    ∀ name, name ∉ ids.map fileName → name ≠ fileName task_id → s'.pending.get? name = s.pending.get? name

/-- A call that raises changes nothing, and one that returns has created the tasks. -/
structure Atomic (root : String) (subtasks : List Entry) (s : Dirs) : Prop where
  failed : ∀ e, (decomposeTask env task_id subtasks s).1 = .error e →
    Unchanged s (decomposeTask env task_id subtasks s).2
  created : ∀ moved, (decomposeTask env task_id subtasks s).1 = .ok moved →
    Created task_id root subtasks.length s (decomposeTask env task_id subtasks s).2

/-! ## When it holds -/

/-- The files of the subtasks before the first that raises, from index `i`, and whether one raises. -/
def prepared : Nat → List Entry → List (String × Fields) × Bool
  | _, [] => ([], false)
  | i, sub :: subtasks =>
    match subtaskFile env task_id parent i sub with
    | .error _ => ([], true)
    | .ok f => (f :: (prepared (i + 1) subtasks).1, (prepared (i + 1) subtasks).2)

/-- The files were there with this very content. -/
def Held (d : Dict String Content) (files : List (String × Fields)) : Prop :=
  ∀ f ∈ files, d.get? (fileName f.1) = some (.dict f.2)

/-- The files were not there, and `list_tasks` finds and reads such files. -/
def New (d : Dict String Content) (files : List (String × Fields)) : Prop :=
  ∀ f ∈ files, d.get? (fileName f.1) = none ∧ isTaskFile (fileName f.1) = true ∧ (Content.dict f.2).reads.isSome = true

/-- With the parent read: what was written before something raises was there already, and if nothing raises, what is
written is new. -/
def SparedFrom (subtasks : List Entry) (s : Dirs) : Prop :=
  let files := (prepared env task_id parent 0 subtasks).1
  if (prepared env task_id parent 0 subtasks).2 = true ∨ env.fault .parent = true then Held s.pending files
  else if env.fault .remove then
    Held s.pending files ∧ s.decomposed.get? (fileName task_id) =
      some (dumped (decomposedDoc env parent subtasks.length (files.map Prod.fst)))
  else if env.fault .unlock then False
  else New s.pending files

/-- Nothing is written because the parent is not read, or `SparedFrom`. -/
def Spared (subtasks : List Entry) (s : Dirs) : Prop :=
  env.fault .start = true ∨ ∀ content parent, s.pending.get? (fileName task_id) = some content →
    content.reads = some parent → SparedFrom env task_id parent subtasks s

/-! ## Files and listings -/

section

variable {root : String} {s s' : Dirs} {files : List (String × Fields)} {f : String × Fields} {name : String}

theorem fileName_injective : Function.Injective fileName := by
  intro id id' h
  have hlist := congrArg String.toList h
  simp only [fileName, String.toList_append] at hlist
  exact String.toList_injective (List.append_cancel_right hlist)

theorem get?_listing (d : Dict String Content) (name : String) :
    (listing d).get? name = (d.get? name).map Content.reads := by
  unfold listing Dict.get?
  rw [List.find?_map, Option.map_map, Option.map_map]
  rfl

theorem filePath_injective {root stage name name' : String} (h : filePath root stage name = filePath root stage name') :
    name = name' := by
  have hlist := congrArg String.toList h
  simp only [filePath, String.toList_append] at hlist
  exact String.toList_injective (List.append_cancel_left hlist)

/-- What `list_tasks` puts into a task it reports. -/
theorem lookup_file (data : Doc) (stage file : Json) :
    (setKeys data [("_stage", stage), ("_file", file)]).lookup "_file" = some file :=
  @SwarmLib.lookup_setKey_self (Json.setKey data ("_stage", stage)) ("_file", file)

theorem lookup_id (data : Doc) (stage file : Json) :
    (setKeys data [("_stage", stage), ("_file", file)]).lookup "id" = data.lookup "id" := by
  rw [setKeys, List.foldl_cons, List.foldl_cons, List.foldl_nil, SwarmLib.lookup_setKey (by simp),
    SwarmLib.lookup_setKey (by simp)]

/-- A task that is reported has a file that is found and read. -/
theorem Reported.file {sub_id : String} (h : Reported s root sub_id) : isTaskFile (fileName sub_id) = true ∧
    ∃ content doc, s.pending.get? (fileName sub_id) = some content ∧ content.reads = some doc := by
  obtain ⟨task, htask, -, hfile⟩ := h
  obtain ⟨name, data, hname, hdata, rfl⟩ := TaskIndex.mem_scanned.mp htask
  rw [lookup_file] at hfile
  obtain rfl : name = fileName sub_id := filePath_injective (Json.str.inj (Option.some.inj hfile))
  rw [get?_listing] at hdata
  obtain ⟨content, hcontent, hreads⟩ := Option.map_eq_some_iff.mp hdata
  exact ⟨hname, content, data, hcontent, hreads⟩

theorem reported_of_file {sub_id : String} {content : Content} {doc : Doc} (hname : isTaskFile (fileName sub_id) = true)
    (hfile : s.pending.get? (fileName sub_id) = some content) (hreads : content.reads = some doc)
    (hid : doc.lookup "id" = some (.str sub_id)) : Reported s root sub_id := by
  refine ⟨_, TaskIndex.mem_scanned.mpr ⟨fileName sub_id, doc, hname, ?_, rfl⟩, ?_, lookup_file _ _ _⟩
  · rw [get?_listing, hfile, Option.map_some, hreads]
  · rw [lookup_id, hid]

/-- The files are written, one after the other. -/
def putAll (s : Dirs) (files : List (String × Fields)) : Dirs := files.foldl Dirs.put s

@[simp] theorem decomposed_putAll : ∀ (files : List (String × Fields)) (s : Dirs),
    (putAll s files).decomposed = s.decomposed
  | [], _ => rfl
  | _ :: files, _ => decomposed_putAll files _

theorem get?_put : (s.put f).pending.get? name = if name = fileName f.1 then some (.dict f.2) else s.pending.get? name :=
  Dict.get?_set

/-- Other files stay as they are. -/
theorem get?_putAll_of_ne : ∀ {files : List (String × Fields)} {s : Dirs}, (∀ f ∈ files, name ≠ fileName f.1) →
    (putAll s files).pending.get? name = s.pending.get? name
  | [], _, _ => rfl
  | f :: files, s, h => by
    have hrest := @get?_putAll_of_ne files (s.put f) fun g hg => h g (List.mem_cons_of_mem f hg)
    refine hrest.trans ?_
    rw [get?_put, if_neg (h f List.mem_cons_self)]

/-- Each file is there. -/
theorem get?_putAll : ∀ {files : List (String × Fields)} {s : Dirs}, (files.map Prod.fst).Nodup → f ∈ files →
    (putAll s files).pending.get? (fileName f.1) = some (.dict f.2)
  | g :: files, s, hnodup, hf => by
    rw [List.map_cons, List.nodup_cons] at hnodup
    rcases List.mem_cons.mp hf with rfl | hf
    · have hother : ∀ g ∈ files, fileName f.1 ≠ fileName g.1 := by
        intro g hg he
        exact hnodup.1 (fileName_injective he ▸ List.mem_map_of_mem hg)
      refine (@get?_putAll_of_ne _ files (s.put f) hother).trans ?_
      rw [get?_put, if_pos rfl]
    · exact @get?_putAll files (s.put g) hnodup.2 hf

end

/-! ## The loop -/

section

variable {env task_id parent} {s s' : Dirs} {f : String × Fields} {i : Nat} {sub : Entry}

/-- A subtask that is written has the name of its index. -/
theorem name_of_subtaskFile (h : subtaskFile env task_id parent i sub = .ok f) :
    (97 + i).isValidChar ∧ f.1 = subtaskId task_id i ∧ ∃ fields, f.2 = subtaskData env task_id parent i fields := by
  unfold subtaskFile at h
  split at h
  · cases h
  · rename_i fields
    split at h
    · cases h
    · rename_i hvalid
      split at h
      · cases h
      · split at h
        · cases h
        · cases h
          exact ⟨not_not.mp hvalid, rfl, fields, rfl⟩

theorem toNat_letter (h : (97 + i).isValidChar) : (letter i).toNat = 97 + i := by
  rw [letter, Char.ofNat, dif_pos h]
  rfl

/-- Subtasks of different indices have different names. -/
theorem subtaskId_injective {j : Nat} (hi : (97 + i).isValidChar) (hj : (97 + j).isValidChar)
    (h : subtaskId task_id i = subtaskId task_id j) : i = j := by
  have hlist := congrArg String.toList h
  rw [SwarmLib.toList_subtaskId, SwarmLib.toList_subtaskId] at hlist
  have hletter : letter i = letter j := by simpa using hlist
  have hnat := congrArg Char.toNat hletter
  rw [toNat_letter hi, toNat_letter hj] at hnat
  omega

theorem task_id_ne_subtaskId (task_id : String) (i : Nat) : task_id ≠ subtaskId task_id i := by
  intro h
  have hlength := congrArg (fun t => t.toList.length) h
  simp only [SwarmLib.toList_subtaskId, List.length_append, List.length_cons, List.length_nil] at hlength
  omega

theorem prepared_of_error {e : Raised} {subtasks : List Entry} (h : subtaskFile env task_id parent i sub = .error e) :
    prepared env task_id parent i (sub :: subtasks) = ([], true) := by
  rw [prepared, h]

theorem prepared_of_ok {subtasks : List Entry} (h : subtaskFile env task_id parent i sub = .ok f) :
    prepared env task_id parent i (sub :: subtasks) =
      (f :: (prepared env task_id parent (i + 1) subtasks).1, (prepared env task_id parent (i + 1) subtasks).2) := by
  rw [prepared, h]

/-- Each file belongs to a subtask from index `i` on. -/
theorem mem_prepared : ∀ {subtasks : List Entry} {i : Nat}, f ∈ (prepared env task_id parent i subtasks).1 →
    ∃ j ≥ i, (97 + j).isValidChar ∧ f.1 = subtaskId task_id j ∧ ∃ fields, f.2 = subtaskData env task_id parent j fields
  | sub :: subtasks, i, h => by
    cases hsub : subtaskFile env task_id parent i sub with
    | error e =>
      rw [prepared_of_error hsub] at h
      cases h
    | ok g =>
      rw [prepared_of_ok hsub] at h
      rcases List.mem_cons.mp h with rfl | h
      · exact ⟨i, le_rfl, name_of_subtaskFile hsub⟩
      · obtain ⟨j, hj, hname⟩ := mem_prepared h
        exact ⟨j, by omega, hname⟩

theorem nodup_prepared : ∀ (subtasks : List Entry) (i : Nat),
    ((prepared env task_id parent i subtasks).1.map Prod.fst).Nodup
  | [], _ => List.nodup_nil
  | sub :: subtasks, i => by
    cases hsub : subtaskFile env task_id parent i sub with
    | error e =>
      rw [prepared_of_error hsub]
      exact List.nodup_nil
    | ok g =>
      rw [prepared_of_ok hsub, List.map_cons, List.nodup_cons]
      refine ⟨fun hmem => ?_, nodup_prepared subtasks (i + 1)⟩
      obtain ⟨f, hf, hname⟩ := List.mem_map.mp hmem
      obtain ⟨j, hj, hvalid, hfj, -⟩ := mem_prepared hf
      obtain ⟨hvalid', hgi, -⟩ := name_of_subtaskFile hsub
      have hij := subtaskId_injective hvalid hvalid' (hfj.symm.trans (hname.trans hgi))
      omega

/-- **The loop.** It leaves the files of the subtasks before the first that raises. -/
theorem createSubtasks_state : ∀ (subtasks : List Entry) (i : Nat) (s : Dirs),
    (createSubtasks env task_id parent i subtasks s).2 = putAll s (prepared env task_id parent i subtasks).1
  | [], _, _ => rfl
  | sub :: subtasks, i, s => by
    cases hsub : subtaskFile env task_id parent i sub with
    | error e =>
      rw [createSubtasks, hsub, prepared_of_error hsub]
      rfl
    | ok f =>
      rw [createSubtasks, hsub, prepared_of_ok hsub]
      exact createSubtasks_state subtasks (i + 1) (s.put f)

/-- It raises if a subtask does, and returns the ids otherwise. -/
theorem createSubtasks_outcome : ∀ (subtasks : List Entry) (i : Nat) (s : Dirs),
    ((prepared env task_id parent i subtasks).2 = true ∧
      ∃ e, (createSubtasks env task_id parent i subtasks s).1 = .error e) ∨
    ((prepared env task_id parent i subtasks).2 = false ∧
      (prepared env task_id parent i subtasks).1.length = subtasks.length ∧
      (createSubtasks env task_id parent i subtasks s).1 =
        .ok ((prepared env task_id parent i subtasks).1.map Prod.fst))
  | [], _, _ => .inr ⟨rfl, rfl, rfl⟩
  | sub :: subtasks, i, s => by
    cases hsub : subtaskFile env task_id parent i sub with
    | error e =>
      rw [createSubtasks, hsub, prepared_of_error hsub]
      exact .inl ⟨rfl, e, rfl⟩
    | ok f =>
      rw [createSubtasks, hsub, prepared_of_ok hsub]
      dsimp only
      rcases createSubtasks_outcome subtasks (i + 1) (s.put f) with ⟨hraises, e, he⟩ | ⟨hfine, hlength, hids⟩
      · rw [he]
        exact .inl ⟨hraises, e, rfl⟩
      · rw [hids]
        exact .inr ⟨hfine, by rw [List.length_cons, List.length_cons, hlength], rfl⟩

end

/-! ## What a call leaves -/

section

variable {env task_id parent} {root name : String} {s s' : Dirs} {files : List (String × Fields)} {content : Content}

/-- Files that are written over leave the directory as it was if they were there already. -/
theorem unchanged_putAll (hnodup : (files.map Prod.fst).Nodup) :
    Unchanged s (putAll s files) ↔ Held s.pending files := by
  constructor
  · intro h f hf
    rw [← (h (fileName f.1)).1]
    exact get?_putAll hnodup hf
  · intro h name
    refine ⟨?_, by rw [decomposed_putAll]⟩
    by_cases hname : ∃ f ∈ files, name = fileName f.1
    · obtain ⟨f, hf, rfl⟩ := hname
      rw [get?_putAll hnodup hf, h f hf]
    · exact get?_putAll_of_ne fun f hf he => hname ⟨f, hf, he⟩

theorem unchanged_set (hdecomposed : s'.decomposed = s.decomposed) :
    Unchanged s { s' with decomposed := s'.decomposed.set name content } ↔
      Unchanged s s' ∧ s.decomposed.get? name = some content := by
  constructor
  · intro h
    refine ⟨fun name' => ⟨(h name').1, by rw [hdecomposed]⟩, ?_⟩
    rw [← (h name).2]
    exact Dict.get?_set.trans (if_pos rfl)
  · rintro ⟨h, hthere⟩ name'
    refine ⟨(h name').1, ?_⟩
    dsimp only
    rw [Dict.get?_set, hdecomposed]
    split
    · rename_i he
      rw [he, hthere]
    · rfl

/-- The id of a subtask, as it is read back. -/
theorem id_of_reads {i : Nat} {sub : Dict String Value} {doc : Doc}
    (h : (Content.dict (subtaskData env task_id parent i sub)).reads = some doc) :
    doc.lookup "id" = some (.str (subtaskId task_id i)) := by
  unfold Content.reads subtaskData at h
  dsimp only at h
  rw [List.mapM_cons] at h
  obtain ⟨f, hf, hrest⟩ := Option.bind_eq_some_iff.mp h
  obtain ⟨fields, -, hdoc⟩ := Option.bind_eq_some_iff.mp hrest
  cases hf
  cases hdoc
  rfl

/-- Of a subtask's file it is known which. -/
def Subtask (env : Env) (task_id : String) (parent : Doc) (f : String × Fields) : Prop :=
  ∃ i fields, f.1 = subtaskId task_id i ∧ f.2 = subtaskData env task_id parent i fields

theorem subtask_of_prepared {subtasks : List Entry} {i : Nat} {f : String × Fields}
    (h : f ∈ (prepared env task_id parent i subtasks).1) : Subtask env task_id parent f := by
  obtain ⟨j, -, -, hname, fields, hfields⟩ := mem_prepared h
  exact ⟨j, fields, hname, hfields⟩

variable (hnodup : (files.map Prod.fst).Nodup) (hsub : ∀ f ∈ files, Subtask env task_id parent f)
  (hpending : s'.pending = (putAll s files).pending.erase (fileName task_id))

include hnodup hsub hpending

/-- The files of the subtasks, after the parent's was removed. -/
theorem get?_subtask {f : String × Fields} (hf : f ∈ files) :
    s'.pending.get? (fileName f.1) = some (.dict f.2) := by
  obtain ⟨i, fields, hname, -⟩ := hsub f hf
  have hne : ¬ fileName f.1 = fileName task_id := by
    intro he
    exact task_id_ne_subtaskId task_id i ((fileName_injective he).symm.trans hname)
  rw [hpending, Dict.get?_erase, if_neg hne, get?_putAll hnodup hf]

/-- The tasks that a call which returns has added. -/
theorem created_iff : Created task_id root files.length s s' ↔ New s.pending files := by
  constructor
  · rintro ⟨ids, hlength, hids, hall, -⟩
    have hsubset : ids ⊆ files.map Prod.fst := by
      intro sub_id hmem
      by_contra hnot
      obtain ⟨-, content, -, hcontent, -⟩ := (hall sub_id hmem).2.file
      have hsame : (putAll s files).pending.get? (fileName sub_id) = s.pending.get? (fileName sub_id) :=
        get?_putAll_of_ne fun f hf he => hnot (fileName_injective he ▸ List.mem_map_of_mem hf)
      rw [hpending, Dict.get?_erase, hsame, (hall sub_id hmem).1] at hcontent
      split at hcontent <;> cases hcontent
    -- as many distinct ids as there are files: they are the ids of the files
    have hperm : ids.Perm (files.map Prod.fst) :=
      (List.subperm_of_subset hids hsubset).perm_of_length_le (by rw [List.length_map, hlength])
    intro f hf
    obtain ⟨hnew, hreported⟩ := hall f.1 (hperm.mem_iff.mpr (List.mem_map_of_mem hf))
    obtain ⟨hname, content, doc, hcontent, hreads⟩ := hreported.file
    rw [get?_subtask hnodup hsub hpending hf] at hcontent
    cases hcontent
    exact ⟨hnew, hname, by rw [hreads]; rfl⟩
  · intro h
    refine ⟨files.map Prod.fst, List.length_map _, hnodup, fun sub_id hmem => ?_, fun name hname hne => ?_⟩
    · obtain ⟨f, hf, rfl⟩ := List.mem_map.mp hmem
      obtain ⟨hnew, hname, hreads⟩ := h f hf
      obtain ⟨doc, hdoc⟩ := Option.isSome_iff_exists.mp hreads
      obtain ⟨i, fields, hid, hfields⟩ := hsub f hf
      refine ⟨hnew, reported_of_file hname (get?_subtask hnodup hsub hpending hf) hdoc ?_⟩
      rw [hfields] at hdoc
      rw [hid, id_of_reads hdoc]
    · rw [hpending, Dict.get?_erase, if_neg hne]
      refine get?_putAll_of_ne fun f hf he => hname ?_
      rw [he, List.map_map]
      exact List.mem_map_of_mem hf

end

/-! ## All or nothing -/

section

variable {env task_id parent} {root : String} {s : Dirs} {subtasks : List Entry} {content : Content}

theorem pair_eq {α β : Type} {p : α × β} {a : α} {b : β} (ha : p.1 = a) (hb : p.2 = b) : p = (a, b) :=
  Prod.ext ha hb

/-- The call, once the parent is read. -/
theorem decomposeTask_eq (hstart : ¬ env.fault .start = true) (hcontent : s.pending.get? (fileName task_id) = some content)
    (hreads : content.reads = some parent) :
    ((prepared env task_id parent 0 subtasks).2 = true ∧ ∃ e, decomposeTask env task_id subtasks s =
      (.error e, putAll s (prepared env task_id parent 0 subtasks).1)) ∨
    ((prepared env task_id parent 0 subtasks).2 = false ∧
      (prepared env task_id parent 0 subtasks).1.length = subtasks.length ∧
      decomposeTask env task_id subtasks s = moveParent env task_id
        (decomposedDoc env parent subtasks.length ((prepared env task_id parent 0 subtasks).1.map Prod.fst))
        (putAll s (prepared env task_id parent 0 subtasks).1)) := by
  have hstate := @createSubtasks_state env task_id parent subtasks 0 s
  unfold decomposeTask
  rw [if_neg hstart, hcontent]
  dsimp only
  rw [hreads]
  dsimp only
  rcases createSubtasks_outcome subtasks 0 s with ⟨hraises, e, he⟩ | ⟨hfine, hlength, hids⟩
  · rw [pair_eq he hstate]
    exact .inl ⟨hraises, e, rfl⟩
  · rw [pair_eq hids hstate]
    exact .inr ⟨hfine, hlength, rfl⟩

/-- A call that raises is as claimed if and only if it leaves the files as they were. -/
theorem atomic_of_error {e : Raised} {s' : Dirs} (h : decomposeTask env task_id subtasks s = (.error e, s')) :
    Atomic env task_id root subtasks s ↔ Unchanged s s' := by
  constructor
  · intro ha
    have hunchanged := ha.failed e (by rw [h])
    rwa [h] at hunchanged
  · intro hu
    refine ⟨fun e _ => by rw [h]; exact hu, fun moved hmoved => ?_⟩
    rw [h] at hmoved
    cases hmoved

theorem atomic_of_ok {moved : Doc} {s' : Dirs} (h : decomposeTask env task_id subtasks s = (.ok moved, s')) :
    Atomic env task_id root subtasks s ↔ Created task_id root subtasks.length s s' := by
  constructor
  · intro ha
    have hcreated := ha.created moved (by rw [h])
    rwa [h] at hcreated
  · intro hc
    refine ⟨fun e he => ?_, fun moved _ => by rw [h]; exact hc⟩
    rw [h] at he
    cases he

theorem atomic_of_parent (hstart : ¬ env.fault .start = true)
    (hcontent : s.pending.get? (fileName task_id) = some content) (hreads : content.reads = some parent) :
    Atomic env task_id root subtasks s ↔ SparedFrom env task_id parent subtasks s := by
  have hnodup := @nodup_prepared env task_id parent subtasks 0
  unfold SparedFrom
  dsimp only
  rcases @decomposeTask_eq env task_id parent s subtasks content hstart hcontent hreads with
    ⟨hraises, e, hcall⟩ | ⟨hfine, hlength, hcall⟩
  · rw [if_pos (.inl hraises), atomic_of_error hcall, unchanged_putAll hnodup]
  · have hno : ¬ (prepared env task_id parent 0 subtasks).2 = true := by rw [hfine]; exact Bool.false_ne_true
    unfold moveParent at hcall
    by_cases hparent : env.fault .parent = true
    · rw [if_pos hparent] at hcall
      rw [if_pos (.inr hparent), atomic_of_error hcall, unchanged_putAll hnodup]
    · rw [if_neg hparent] at hcall
      rw [if_neg (not_or.mpr ⟨hno, hparent⟩)]
      by_cases hremove : env.fault .remove = true
      · rw [if_pos hremove] at hcall
        rw [if_pos hremove, atomic_of_error hcall, unchanged_set (decomposed_putAll _ s), unchanged_putAll hnodup]
      · rw [if_neg hremove] at hcall
        rw [if_neg hremove]
        dsimp only at hcall
        by_cases hunlock : env.fault .unlock = true
        · -- the parent's file is gone
          rw [if_pos hunlock] at hcall
          rw [if_pos hunlock, atomic_of_error hcall, iff_false]
          intro hunchanged
          have hgone := (hunchanged (fileName task_id)).1
          rw [hcontent] at hgone
          dsimp only at hgone
          rw [Dict.get?_erase, if_pos rfl] at hgone
          cases hgone
        · rw [if_neg hunlock] at hcall
          rw [if_neg hunlock, atomic_of_ok hcall, ← hlength]
          exact created_iff hnodup (fun f hf => subtask_of_prepared hf) rfl

/-- A call that does not get as far as reading its parent. -/
theorem atomic_of_unread (h : ∃ e, decomposeTask env task_id subtasks s = (.error e, s)) :
    Atomic env task_id root subtasks s := by
  obtain ⟨e, he⟩ := h
  exact (atomic_of_error he).mpr fun _ => ⟨rfl, rfl⟩

end

/-- **All or nothing.** A call that raises leaves every task file as it was, and one that returns has created a task for
each subtask, if and only if what it wrote before it raised was there already, or what it wrote is new and can be
listed. -/
theorem atomic_iff (root : String) (subtasks : List Entry) (s : Dirs) :
    Atomic env task_id root subtasks s ↔ Spared env task_id subtasks s := by
  unfold Spared
  by_cases hstart : env.fault .start = true
  · refine iff_of_true (atomic_of_unread ⟨.OSError, ?_⟩) (.inl hstart)
    rw [decomposeTask, if_pos hstart]
  · rw [or_iff_right hstart]
    cases hcontent : s.pending.get? (fileName task_id) with
    | none =>
      refine iff_of_true (atomic_of_unread ⟨.FileNotFoundError, ?_⟩) fun content parent h => ?_
      · rw [decomposeTask, if_neg hstart, hcontent]
      · cases h
    | some content =>
      cases hreads : content.reads with
      | none =>
        refine iff_of_true (atomic_of_unread ⟨.YAMLError, ?_⟩) fun content' parent h h' => ?_
        · rw [decomposeTask, if_neg hstart, hcontent]
          dsimp only
          rw [hreads]
        · cases h
          rw [hreads] at h'
          cases h'
      | some parent =>
        rw [atomic_of_parent hstart hcontent hreads]
        constructor
        · intro h content' parent' hc hr
          cases hc
          rw [hreads] at hr
          cases hr
          exact h
        · exact fun h => h content parent rfl hreads

/-- One pending task, of which nothing else is there. -/
def onePending : Dirs :=
  ⟨.ofList [(fileName "task-001", dumped [("id", .str "task-001"), ("title", .str "all sections")])], .empty⟩

/-- Nothing fails. -/
def calm : Env := ⟨"node-a", fun _ => "2026-01-01T00:00:00Z", fun _ => false⟩

/-- **The second entry is no dictionary**: an `AttributeError`, and the first subtask is pending beside its parent. -/
theorem second_entry_raises :
    ¬ Atomic calm "task-001" "/opt/swarm" [.dict (.ofList [("title", .plain (.str "first"))]), .other] onePending := by
  intro h
  have hcall : (decomposeTask calm "task-001"
      [.dict (.ofList [("title", .plain (.str "first"))]), .other] onePending).1 = .error .AttributeError := by
    decide +kernel
  have hpending : ¬ (decomposeTask calm "task-001"
      [.dict (.ofList [("title", .plain (.str "first"))]), .other] onePending).2.pending.get? "task-001-a.yaml" =
      onePending.pending.get? "task-001-a.yaml" := by
    decide +kernel
  exact hpending (h.failed _ hcall "task-001-a.yaml").1

end ClaudeSwarm.FailedDecomposition
