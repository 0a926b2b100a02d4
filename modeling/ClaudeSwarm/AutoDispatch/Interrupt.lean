import ClaudeSwarm.AutoDispatch.Priorities
import ClaudeSwarm.Interleave.Reading
import ClaudeSwarm.Interleave.Trace
import ClaudeSwarm.SwarmLib.Stage

/-!
# Two rules of preemption

`interrupt_for_priority` (`src/auto_dispatch.py`) moves tasks out of `claimed/`; `find_preemptable`
(`src/task_queue.py`) names tasks that could be. Both look only for a new task of one of the first three tiers, and
for tasks two tiers below it; the second also wants them to be of one of the last two, and looks at no more tasks
than `list_claimed` shows.

* `Spelled.read`: on the spellings of a tier the parsers of the two modules agree.
* `moved_iff`: what `interrupt_for_priority`, run alone, moves; `mem_found_iff`: what `find_preemptable` returns.
* **`preempted_iff`**: when they are the same tasks.
* `standard_moved`: a task of the middle tier, moved but not named.
-/

namespace ClaudeSwarm.AutoDispatch

open Interleave Data
open Python (PyError)
open SwarmLib (Doc Stage content getStr ListedAs)

/-! ## Spellings -/

/-- The spellings of a tier: a number from 0 to 5, a code or a name. -/
inductive Spelled : Json → Int → Prop
  | number {v : Int} (h : 0 ≤ v ∧ v ≤ 5) : Spelled (.int v) v
  | code {p : String} {v : Int} (h : priorityOrder p = some v) : Spelled (.str p) v
  | name {p : String} {v : Int} (h : priorityTiers p = some v) : Spelled (.str p) v

/-- The name of a tier is in lower case, is no tier code and is listed by `PRIORITY_MAP`. -/
theorem name_of_priorityTiers {p : String} {v : Int} (h : priorityTiers p = some v) :
    Python.strip p.toList = p.toList ∧ Python.lower p.toList = p.toList ∧ p ∉ tierCodes ∧
      priorityMap.lookup p = some v := by
  unfold priorityTiers at h
  split at h
  all_goals first | cases h; exact ⟨by decide, by decide, by decide, by decide⟩ | cases h

/-- **The parsers agree** on every spelling. -/
theorem Spelled.read {p : Json} {v : Int} (h : Spelled p v) (D : Digits) :
    normalizePriority D p = .ok v ∧ priorityValue p = v := by
  cases h with
  | number h =>
    have hclamp : max 0 (min 5 v) = v := by omega
    exact ⟨congrArg Except.ok hclamp, hclamp⟩
  | @code p v h =>
    have hp : p ∈ tierCodes := by
      by_contra hp
      rw [priorityOrder_eq_none hp] at h
      cases h
    have hrank : rerankTier (.str p) = v := by
      simp only [rerankTier, clamped, h, Option.getD_some]
    obtain ⟨hqueue, hvalue⟩ := oneTier_code (D := D) hp
    rw [hrank] at hqueue hvalue
    exact ⟨hqueue, hvalue⟩
  | @name p v h =>
    obtain ⟨hstrip, hlower, hcode, hlookup⟩ := name_of_priorityTiers h
    have hlength := length_of_priorityTiers h
    refine ⟨?_, ?_⟩
    · rw [normalizePriority_name fun c hs => ?_, hlower, hstrip, String.ofList_toList, hlookup, Option.getD_some]
      rw [hlower, hstrip] at hs
      rw [hs] at hlength
      simp at hlength
    · rw [priorityValue_name, hlower, hstrip, String.ofList_toList, h, Option.getD_some]
      rw [hstrip, String.ofList_toList]
      exact priorityOrder_eq_none hcode

/-! ## The tasks -/

/-- A task file carries its own name, which begins as that of every task. -/
def Carries (s : State) : Prop :=
  ∀ st id data, content s.tree.files st id = some data →
    getStr data "id" = some id ∧ id.startsWith "task-" = true

/-- The priority of a file is spelled in one of the three ways, and stands for the tier. -/
def HasTier (data : Doc) (v : Int) : Prop := ∃ p, data.lookup "priority" = some p ∧ Spelled p v

/-- The file of the first stage that has one of this name, in the order of `list_tasks`. -/
def firstFile (s : State) (id : String) : Option Doc :=
  (((content s.tree.files .pending id).or (content s.tree.files .claimed id)).or
    (content s.tree.files .completed id)).or (content s.tree.files .decomposed id)

/-- The task is claimed, and its tier is `w`. -/
def Claimed (s : State) (id : String) (w : Int) : Prop :=
  ∃ data, content s.tree.files .claimed id = some data ∧ HasTier data w

/-- What the queue shows are claimed tasks, each with what `_normalize_priority` makes of its priority. -/
def Shows (D : Digits) (s : State) (shown : List Task) : Prop :=
  ∀ task ∈ shown, ∃ data p, content s.tree.files .claimed task.id = some data ∧
    data.lookup "priority" = some p ∧ normalizePriority D p = .ok task.priority

/-- A new task of tier `v` is of one of the first three tiers and two tiers above one of tier `w`. -/
def Outranks (v w : Int) : Prop := v ≤ 2 ∧ v + 2 ≤ w

instance (v w : Int) : Decidable (Outranks v w) := inferInstanceAs (Decidable (_ ∧ _))

/-- The task has left `claimed/`. -/
def Moved (s s' : State) (id : String) : Prop := s.tree.File .claimed id ∧ ¬ s'.tree.File .claimed id

/-- A list of the tasks of a stage. -/
structure Lists (s : State) (st : Stage) (tasks : List Doc) : Prop where
  each : ∀ task ∈ tasks, ∃ id data, content s.tree.files st id = some data ∧ ListedAs data task
  every : ∀ id data, content s.tree.files st id = some data → ∃ task ∈ tasks, ListedAs data task

variable {n : Nat} {s s' : State} {st : Stage} {id : String} {tasks : List Doc}

theorem id_of_listed {data task : Doc} (h : ListedAs data task) : getStr task "id" = getStr data "id" := by
  unfold getStr
  rw [h "id" (by decide) (by decide)]

theorem HasTier.unique {D : Digits} {data : Doc} {v w : Int} {p : Json} (h : HasTier data v)
    (hp : data.lookup "priority" = some p) (hw : normalizePriority D p = .ok w) : v = w := by
  obtain ⟨p', hp', hspelled⟩ := h
  obtain rfl := Option.some.inj (hp'.symm.trans hp)
  exact Except.ok.inj ((hspelled.read D).1.symm.trans hw)

theorem HasTier.value {data task : Doc} {v : Int} (h : HasTier data v) (htask : ListedAs data task) :
    valueOf task = v := by
  obtain ⟨p, hp, hspelled⟩ := h
  rw [valueOf, htask "priority" (by decide) (by decide), hp, Option.getD_some]
  exact (hspelled.read .asciiOnly).2

/-! ## Listing -/

theorem runs_listStage (hcarries : Carries s) {r : Except PyError (List Doc)}
    (hr : store.Runs n (onTree.on (SwarmLib.listStage st)) s r s') :
    s'.tree.files = s.tree.files ∧ ∃ tasks, r = .ok tasks ∧ Lists s st tasks := by
  obtain ⟨tasks, rfl, hsame, ids, hperm, htasks⟩ := SwarmLib.listStage_total.runs (onTree.runs_on hr).2
  refine ⟨hsame, tasks, rfl, fun task htask => ?_, fun id data hdata => ?_⟩
  · obtain ⟨id, -, data, hdata, hlisted⟩ := SwarmLib.exists_of_forall₂ htasks.flip htask
    exact ⟨id, data, hdata, hlisted⟩
  · have hstem : id ∈ SwarmLib.stems s.tree.files st := SwarmLib.mem_stems.mpr (by rw [hdata]; rfl)
    have hmem : id ∈ ids := hperm.mem_iff.mpr (List.mem_filter.mpr ⟨hstem, (hcarries st id data hdata).2⟩)
    obtain ⟨task, htask, data', hdata', hlisted⟩ := SwarmLib.exists_of_forall₂ htasks hmem
    obtain rfl := Option.some.inj (hdata.symm.trans hdata')
    exact ⟨task, htask, hlisted⟩

/-- The first task of that name in the list is that of the file. -/
theorem Lists.find (h : Lists s st tasks) (hcarries : Carries s) :
    Option.Rel ListedAs (content s.tree.files st id) (tasks.find? fun t => getStr t "id" == some id) := by
  have hown : ∀ task ∈ tasks, getStr task "id" = some id →
      ∃ data, content s.tree.files st id = some data ∧ ListedAs data task := by
    intro task htask hid
    obtain ⟨id', data, hdata, hlisted⟩ := h.each task htask
    rw [id_of_listed hlisted, (hcarries st id' data hdata).1] at hid
    obtain rfl := Option.some.inj hid
    exact ⟨data, hdata, hlisted⟩
  cases hfound : tasks.find? fun t => getStr t "id" == some id with
  | some task =>
    obtain ⟨data, hdata, hlisted⟩ := hown task (List.mem_of_find?_eq_some hfound) (by simpa using List.find?_some hfound)
    rw [hdata]
    exact .some hlisted
  | none =>
    cases hdata : content s.tree.files st id with
    | none => exact .none
    | some data =>
      obtain ⟨task, htask, hlisted⟩ := h.every id data hdata
      have hnot := List.find?_eq_none.mp hfound task htask
      rw [id_of_listed hlisted, (hcarries st id data hdata).1] at hnot
      exact absurd (by simp) hnot

theorem rel_or {α β : Type} {R : α → β → Prop} {a a' : Option α} {b b' : Option β} (h : Option.Rel R a b)
    (h' : Option.Rel R a' b') : Option.Rel R (a.or a') (b.or b') := by
  cases h with
  | some h => exact .some h
  | none => exact h'

/-- `list_tasks` finds the file of the first stage. -/
theorem runs_listTasks (id : String) (hcarries : Carries s) {r : Except PyError (List Doc)}
    (hr : store.Runs n (listTasks none) s r s') : s'.tree.files = s.tree.files ∧ ∃ tasks, r = .ok tasks ∧
      Option.Rel ListedAs (firstFile s id) (tasks.find? fun t => getStr t "id" == some id) := by
  have hstage : ∀ {α : Type} {st : Stage} {f : List Doc → P α} {s₁ s₂ : State} {r : Except PyError α},
      s₁.tree.files = s.tree.files → store.Runs n (onTree.on (SwarmLib.listStage st) >>= f) s₁ r s₂ →
        ∃ tasks s₃, s₃.tree.files = s.tree.files ∧ store.Runs n (f tasks) s₃ r s₂ ∧
          Option.Rel ListedAs (content s.tree.files st id) (tasks.find? fun t => getStr t "id" == some id) := by
    intro α st f s₁ s₂ r hsame hr
    have hcarries₁ : Carries s₁ := by
      unfold Carries
      rw [hsame]
      exact hcarries
    rcases (store.runs_bind n).mp hr with ⟨tasks, s₃, hlist, hf⟩ | ⟨e, hlist, -⟩
    · obtain ⟨hsame₁, tasks', hok, hlists⟩ := runs_listStage hcarries₁ hlist
      cases hok
      refine ⟨tasks, s₃, hsame₁.trans hsame, hf, ?_⟩
      rw [← hsame]
      exact hlists.find hcarries₁
    · obtain ⟨-, tasks', hok, -⟩ := runs_listStage hcarries₁ hlist
      cases hok
  obtain ⟨pending, s₁, hs₁, hr₁, hpending⟩ := hstage rfl hr
  obtain ⟨claimed, s₂, hs₂, hr₂, hclaimed⟩ := hstage hs₁ hr₁
  obtain ⟨completed, s₃, hs₃, hr₃, hcompleted⟩ := hstage hs₂ hr₂
  obtain ⟨decomposed, s₄, hs₄, ⟨rfl, rfl⟩, hdecomposed⟩ := hstage hs₃ hr₃
  refine ⟨hs₄, _, rfl, ?_⟩
  rw [List.find?_append, List.find?_append, List.find?_append]
  exact rel_or (rel_or (rel_or hpending hclaimed) hcompleted) hdecomposed

/-! ## Moving -/

/-- The claimed tasks. -/
def claimedIds (s : State) : Set String := {id | s.tree.File .claimed id}

/-- `_preempt_task` takes the task out of `claimed/`, or it is not there. -/
theorem runs_preemptTask {r : Except PyError Unit} (hr : store.Runs n (preemptTask id) s r s') :
    r = .ok () ∧ claimedIds s' = claimedIds s \ {id} := by
  rcases (store.runs_bind n).mp hr with ⟨there, s₁, hp, hf⟩ | ⟨e, hp, -⟩
  swap
  · obtain ⟨i, x, s₂, hx, he, -⟩ := (onTree.runs_on hp).2
    cases he
  obtain ⟨i, x, t, hx, he, hs⟩ := (onTree.runs_on hp).2
  obtain ⟨hthere, rfl⟩ := Prod.mk.inj (Option.some.inj hx)
  cases he
  have htree : s₁.tree = s.tree := hs
  have hsame : claimedIds s₁ = claimedIds s := by
    unfold claimedIds
    rw [htree]
  rw [← hsame]
  cases there with
  | false =>
    obtain ⟨rfl, rfl⟩ := hf
    refine ⟨rfl, (Set.sdiff_singleton_eq_self fun hmem => ?_).symm⟩
    have hfile : s.tree.File .claimed id := by
      rw [← htree]
      exact hmem
    exact of_decide_eq_false hthere hfile
  | true =>
    have hfile : s₁.tree.File .claimed id := by
      rw [htree]
      exact of_decide_eq_true hthere
    obtain ⟨file, hfind⟩ := Option.isSome_iff_exists.mp hfile
    obtain ⟨i, moved, s₂, hx, hf⟩ := hf
    simp only [exec] at hx
    split at hx
    swap
    · cases hx
    simp only [perform, hfind] at hx
    cases hx
    obtain ⟨rfl, rfl⟩ := hf
    refine ⟨rfl, Set.ext fun id' => ?_⟩
    exact (SwarmLib.file_erase rfl .claimed id').trans (and_congr_right' (by simp))

/-- The loop takes out the tasks two tiers below. -/
theorem runs_preemptTasks {v : Int} : ∀ {tasks : List Doc} {s s' : State} {r : Except PyError Bool},
    (∀ task ∈ tasks, (getStr task "id").isSome) → store.Runs n (preemptTasks v tasks) s r s' → ∀ id,
      id ∈ claimedIds s' ↔ id ∈ claimedIds s ∧ ¬ ∃ task ∈ tasks, getStr task "id" = some id ∧ v + 2 ≤ valueOf task
  | [], s, s', r, _, hr, id => by
    obtain ⟨-, rfl⟩ := hr
    simp
  | task :: rest, s, s', r, hids, hr, id => by
    have hrest : ∀ {s₁ s₂ : State} {r : Except PyError Bool}, store.Runs n (preemptTasks v rest) s₁ r s₂ →
        (id ∈ claimedIds s₂ ↔ id ∈ claimedIds s₁ ∧
          ¬ ∃ task ∈ rest, getStr task "id" = some id ∧ v + 2 ≤ valueOf task) := fun hr =>
      runs_preemptTasks (fun t ht => hids t (List.mem_cons_of_mem _ ht)) hr id
    obtain ⟨own, hown⟩ := Option.isSome_iff_exists.mp (hids task List.mem_cons_self)
    unfold preemptTasks at hr
    split at hr
    · rename_i hgap
      have hid : taskId task = .ret own := by
        unfold taskId
        rw [hown]
        rfl
      rw [hid] at hr
      have hruns : store.Runs n (preemptTask own >>= fun _ => preemptTasks v rest >>= fun _ => .ret true) s r s' := hr
      rcases (store.runs_bind n).mp hruns with ⟨_, s₁, hp, hr₁⟩ | ⟨e, hp, -⟩
      swap
      · cases (runs_preemptTask hp).1
      have hout := (runs_preemptTask hp).2
      have hleft : id ∈ claimedIds s' ↔ id ∈ claimedIds s₁ ∧
          ¬ ∃ task ∈ rest, getStr task "id" = some id ∧ v + 2 ≤ valueOf task := by
        rcases (store.runs_bind n).mp hr₁ with ⟨_, s₂, hp₁, -, rfl⟩ | ⟨e, hp₁, -⟩
        · exact hrest hp₁
        · exact hrest hp₁
      rw [hleft, hout]
      constructor
      · rintro ⟨⟨hmem, hne⟩, hnot⟩
        refine ⟨hmem, ?_⟩
        rintro ⟨t, ht, hname, hge⟩
        rcases List.mem_cons.mp ht with rfl | ht
        · exact hne (Option.some.inj (hname.symm.trans hown))
        · exact hnot ⟨t, ht, hname, hge⟩
      · rintro ⟨hmem, hnot⟩
        refine ⟨⟨hmem, fun he => hnot ⟨task, List.mem_cons_self, ?_, by omega⟩⟩, ?_⟩
        · rw [hown, Set.mem_singleton_iff.mp he]
        · rintro ⟨t, ht, hid, hge⟩
          exact hnot ⟨t, List.mem_cons_of_mem _ ht, hid, hge⟩
    · rename_i hgap
      rw [hrest hr]
      refine and_congr_right fun _ => not_congr ⟨?_, ?_⟩
      · rintro ⟨t, ht, hid, hge⟩
        exact ⟨t, List.mem_cons_of_mem _ ht, hid, hge⟩
      · rintro ⟨t, ht, hid, hge⟩
        rcases List.mem_cons.mp ht with rfl | ht
        · omega
        · exact ⟨t, ht, hid, hge⟩

/-- **What `interrupt_for_priority` moves.** -/
theorem moved_iff {task_id : String} {new : Doc} {v : Int} {r : Except PyError Bool} (hcarries : Carries s)
    (hclaimed : ∀ id data, content s.tree.files .claimed id = some data → ∃ w, HasTier data w)
    (hnew : firstFile s task_id = some new) (hv : HasTier new v)
    (hr : store.Runs n (interruptForPriority task_id) s r s') :
    Moved s s' id ↔ ∃ w, Claimed s id w ∧ Outranks v w := by
  have hstill : ∀ {s₁ : State}, s₁.tree.files = s.tree.files → claimedIds s₁ = claimedIds s := by
    intro s₁ hsame
    unfold claimedIds SwarmLib.Tree.File
    rw [hsame]
  have hnone : claimedIds s' = claimedIds s → ¬ Moved s s' id := fun hsame hmoved =>
    hmoved.2 (hsame.ge hmoved.1)
  rcases (store.runs_bind n).mp hr with ⟨all_tasks, s₁, hlist, hf⟩ | ⟨e, hlist, -⟩
  swap
  · obtain ⟨-, tasks, hok, -⟩ := runs_listTasks task_id hcarries hlist
    cases hok
  obtain ⟨hsame₁, tasks, hok, hrel⟩ := runs_listTasks task_id hcarries hlist
  cases hok
  rw [hnew] at hrel
  cases hfound : all_tasks.find? fun t => getStr t "id" == some task_id with
  | none =>
    rw [hfound] at hrel
    cases hrel
  | some new_task =>
    rw [hfound] at hrel hf
    have hvalue : valueOf new_task = v := by
      cases hrel with
      | some hlisted => exact hv.value hlisted
    dsimp only at hf
    rw [hvalue] at hf
    split at hf
    · rename_i hlow
      obtain ⟨-, rfl⟩ := hf
      refine iff_of_false (hnone (hstill hsame₁)) ?_
      rintro ⟨w, -, hle, -⟩
      omega
    · rename_i hhigh
      have hcarries₁ : Carries s₁ := by
        unfold Carries
        rw [hsame₁]
        exact hcarries
      rcases (store.runs_bind n).mp hf with ⟨claimed, s₂, hlist₂, hf₂⟩ | ⟨e, hlist₂, -⟩
      swap
      · obtain ⟨-, tasks, hok, -⟩ := runs_listStage hcarries₁ hlist₂
        cases hok
      obtain ⟨hsame₂, tasks, hok, hlists⟩ := runs_listStage hcarries₁ hlist₂
      cases hok
      have hown : ∀ task ∈ claimed, ∃ id data, content s.tree.files .claimed id = some data ∧ ListedAs data task ∧
          getStr task "id" = some id := by
        intro task htask
        obtain ⟨id, data, hdata, hlisted⟩ := hlists.each task htask
        rw [hsame₁] at hdata
        exact ⟨id, data, hdata, hlisted, (id_of_listed hlisted).trans (hcarries _ id data hdata).1⟩
      have hout := runs_preemptTasks (fun task htask => by
        obtain ⟨id, -, -, -, hid⟩ := hown task htask
        rw [hid]
        rfl) hf₂ id
      rw [hstill (hsame₂.trans hsame₁)] at hout
      constructor
      · rintro ⟨hfile, hgone⟩
        have htask := not_and_not_right.mp (mt hout.mpr hgone) hfile
        obtain ⟨task, htask, hid, hge⟩ := htask
        obtain ⟨id', data, hdata, hlisted, hid'⟩ := hown task htask
        obtain rfl := Option.some.inj (hid'.symm.trans hid)
        obtain ⟨w, hw⟩ := hclaimed id' data hdata
        rw [hw.value hlisted] at hge
        exact ⟨w, ⟨data, hdata, hw⟩, by omega, hge⟩
      · rintro ⟨w, ⟨data, hdata, hw⟩, -, hge⟩
        have hfile : s.tree.File .claimed id := SwarmLib.file_iff_content.mpr (by rw [hdata]; rfl)
        refine ⟨hfile, fun hstays => (hout.mp hstays).2 ?_⟩
        obtain ⟨task, htask, hlisted⟩ := hlists.every id data (by rw [hsame₁]; exact hdata)
        refine ⟨task, htask, (id_of_listed hlisted).trans (hcarries _ id data hdata).1, ?_⟩
        rw [hw.value hlisted]
        exact hge

/-- **What `find_preemptable` returns.** -/
theorem mem_found_iff {S : Sig} {T : Store S} {B : TaskQueue.Backend S} {m : Nat} {t t' : T.State} {v : Int}
    {shown found : List Task} (hlist : T.Yields m B.listClaimed t (.ok shown))
    (hfound : T.Runs m (B.findPreemptable v) t (.ok found) t') {task : Task} :
    task ∈ found ↔ task ∈ shown ∧ Outranks v task.priority ∧ 4 ≤ task.priority := by
  unfold TaskQueue.Backend.findPreemptable at hfound
  split at hfound
  · rename_i hlow
    obtain ⟨he, -⟩ := hfound
    cases he
    refine iff_of_false List.not_mem_nil ?_
    rintro ⟨-, ⟨hle, -⟩, -⟩
    exact absurd hle (not_le.mpr hlow)
  · rename_i hhigh
    obtain ⟨he, -⟩ := (T.runs_bind_of m hlist).mp hfound
    cases he
    have hle : v ≤ 2 := not_lt.mp hhigh
    rw [List.mem_filter, decide_eq_true_iff, TaskQueue.preemptTargetMin, TaskQueue.preemptGap, Outranks]
    constructor
    · rintro ⟨hmem, htarget, hgap⟩
      exact ⟨hmem, ⟨hle, by omega⟩, htarget⟩
    · rintro ⟨hmem, ⟨-, hgap⟩, htarget⟩
      exact ⟨hmem, htarget, by omega⟩

theorem exists_found {S : Sig} {T : Store S} {B : TaskQueue.Backend S} {m : Nat} {t : T.State} {shown : List Task}
    (hlist : T.Yields m B.listClaimed t (.ok shown)) (v : Int) :
    ∃ found, T.Runs m (B.findPreemptable v) t (.ok found) t := by
  unfold TaskQueue.Backend.findPreemptable
  split
  · exact ⟨[], rfl, rfl⟩
  · exact ⟨_, (T.runs_bind_of m hlist).mpr ⟨rfl, rfl⟩⟩

/-- The tasks moved are those found. -/
def SameTasks (s s' : State) (found : List Task) : Prop := ∀ id, Moved s s' id ↔ ∃ task ∈ found, task.id = id

/-- **Two rules.** -/
theorem preempted_iff {S : Sig} {T : Store S} (B : TaskQueue.Backend S) (D : Digits) (n m : Nat) (s s' : State)
    (t t' : T.State) (task_id : String) (new : Doc) (v : Int) (shown found : List Task) (r : Except PyError Bool)
    (hcarries : Carries s)
    (hclaimed : ∀ id data, content s.tree.files .claimed id = some data → ∃ w, HasTier data w)
    (hnew : firstFile s task_id = some new) (hv : HasTier new v) (hshown : Shows D s shown)
    (hlist : T.Yields m B.listClaimed t (.ok shown)) (hr : store.Runs n (interruptForPriority task_id) s r s')
    (hfound : T.Runs m (B.findPreemptable v) t (.ok found) t') :
    (∀ id, Moved s s' id ↔ ∃ w, Claimed s id w ∧ Outranks v w) ∧
      (∀ task, task ∈ found ↔ task ∈ shown ∧ Outranks v task.priority ∧ 4 ≤ task.priority) ∧
      (SameTasks s s' found ↔
        ∀ id w, Claimed s id w → Outranks v w → 4 ≤ w ∧ ∃ task ∈ shown, task.id = id) := by
  have hmoved : ∀ id, Moved s s' id ↔ ∃ w, Claimed s id w ∧ Outranks v w := fun id =>
    moved_iff hcarries hclaimed hnew hv hr
  have hmem : ∀ task, task ∈ found ↔ task ∈ shown ∧ Outranks v task.priority ∧ 4 ≤ task.priority := fun task =>
    mem_found_iff hlist hfound
  -- what the queue shows of a claimed task is its tier
  have htier : ∀ {task w}, task ∈ shown → Claimed s task.id w → task.priority = w := by
    rintro task w htask ⟨data, hdata, hw⟩
    obtain ⟨data', p, hdata', hp, hpriority⟩ := hshown task htask
    obtain rfl := Option.some.inj (hdata.symm.trans hdata')
    exact (hw.unique hp hpriority).symm
  refine ⟨hmoved, hmem, fun hsame id w hw hout => ?_, fun h id => ?_⟩
  · obtain ⟨task, htask, rfl⟩ := (hsame id).mp ((hmoved id).mpr ⟨w, hw, hout⟩)
    obtain ⟨hshow, -, htarget⟩ := (hmem task).mp htask
    rw [htier hshow hw] at htarget
    exact ⟨htarget, task, hshow, rfl⟩
  · rw [hmoved id]
    constructor
    · rintro ⟨w, hw, hout⟩
      obtain ⟨htarget, task, hshow, rfl⟩ := h id w hw hout
      refine ⟨task, (hmem task).mpr ⟨hshow, ?_⟩, rfl⟩
      rw [htier hshow hw]
      exact ⟨hout, htarget⟩
    · rintro ⟨task, htask, rfl⟩
      obtain ⟨hshow, hout, -⟩ := (hmem task).mp htask
      obtain ⟨data, -, hdata, -⟩ := hshown task hshow
      obtain ⟨w, hw⟩ := hclaimed task.id data hdata
      have hclaim : Claimed s task.id w := ⟨data, hdata, hw⟩
      rw [htier hshow hclaim] at hout
      exact ⟨w, hclaim, hout⟩

/-! ## Two tasks -/

/-- A task of the first tier is pending; one of the given priority is claimed. -/
def twoTasks (priority : String) : State where
  now := 0
  tree := .ofFiles fun
    | .pending => Table.empty.put ("task-002", [("id", .str "task-002"), ("priority", .str "P0")])
    | .claimed => Table.empty.put ("task-001", [("id", .str "task-001"), ("priority", .str priority)])
    | _ => .empty
  preempted := .empty
  failures _ := none
  quarantineUntil _ := none
  log := []

/-- The claimed one, in the queue. -/
def queued (priority : Int) : Task := { id := "task-001", title := "t", priority, state := .claimed }

def board (priority : Int) : TaskQueue.Board := Table.empty.put (queued priority)

theorem files_twoTasks {priority : String} {st : Stage} {id : String} {data : Doc}
    (h : content (twoTasks priority).tree.files st id = some data) :
    st = .pending ∧ id = "task-002" ∧ data = [("id", .str "task-002"), ("priority", .str "P0")] ∨
      st = .claimed ∧ id = "task-001" ∧ data = [("id", .str "task-001"), ("priority", .str priority)] := by
  obtain ⟨row, hrow, rfl⟩ := Option.map_eq_some_iff.mp h
  have hkey := Table.find?_key hrow
  have hmem := Table.find?_mem hrow
  cases st with
  | pending =>
    rw [List.mem_singleton.mp hmem] at hkey ⊢
    exact Or.inl ⟨rfl, hkey.symm, rfl⟩
  | claimed =>
    rw [List.mem_singleton.mp hmem] at hkey ⊢
    exact Or.inr ⟨rfl, hkey.symm, rfl⟩
  | completed => cases hmem
  | decomposed => cases hmem

theorem carries_twoTasks {priority : String} : Carries (twoTasks priority) := by
  intro st id data h
  rcases files_twoTasks h with ⟨-, rfl, rfl⟩ | ⟨-, rfl, rfl⟩
  · exact ⟨rfl, by decide +kernel⟩
  · exact ⟨rfl, by decide +kernel⟩

/-- A run of the call for the task that is pending. -/
theorem exists_interrupt (priority : String)
    (hplay : (store.play 0 (interruptForPriority "task-002") (List.replicate 40
      ⟨0, ⟨"a", "2026-01-01T00:00:00Z", []⟩, true, none, .ok ⟨"", ""⟩⟩) (twoTasks priority)).isSome = true) :
    ∃ r s', store.Runs 0 (interruptForPriority "task-002") (twoTasks priority) r s' := by
  obtain ⟨⟨l, r, s'⟩, hq⟩ := Option.isSome_iff_exists.mp hplay
  obtain ⟨hg, hl⟩ := store.goes_of_play 0 hq
  exact ⟨r, s', (store.runs_iff 0).mpr ⟨l, hg, hl⟩⟩

section

variable {priority : String} {w : Int} (hw : Spelled (.str priority) w)
include hw

theorem hasTier_twoTasks {id : String} {data : Doc}
    (h : content (twoTasks priority).tree.files .claimed id = some data) : HasTier data w := by
  rcases files_twoTasks h with ⟨hst, -, -⟩ | ⟨-, -, rfl⟩
  · cases hst
  · exact ⟨_, rfl, hw⟩

theorem claimed_twoTasks : Claimed (twoTasks priority) "task-001" w := ⟨_, rfl, _, rfl, hw⟩

theorem Spelled.tier : 0 ≤ w ∧ w ≤ 5 := by
  cases hw with
  | code h =>
    obtain ⟨c, -, -, -, rfl, hle⟩ := lower_of_priorityOrder h
    exact ⟨Int.natCast_nonneg _, hle⟩
  | name h =>
    unfold priorityTiers at h
    split at h
    all_goals first | cases h; decide | cases h

theorem shows_twoTasks {D : Digits} : Shows D (twoTasks priority) [queued w] := by
  intro task htask
  rw [List.mem_singleton.mp htask]
  exact ⟨_, _, rfl, rfl, (hw.read D).1⟩

theorem yields_listClaimed {F : Python.FloatFmt} : TaskQueue.Filesystem.store.Yields 0
    (TaskQueue.Filesystem.backend F).listClaimed (TaskQueue.Filesystem.treeOf (board w)) (.ok [queued w]) := by
  have hrow : ∀ task ∈ (board w).rows, task = queued w := fun task htask => List.mem_singleton.mp htask
  have hholds : TaskQueue.Filesystem.Holds (TaskQueue.Filesystem.treeOf (board w)) (board w) := by
    refine TaskQueue.Filesystem.holds_treeOf (fun task htask => ?_) fun task htask => ?_
    · rw [hrow task htask]
      exact List.mem_cons_of_mem _ List.mem_cons_self
    · rw [hrow task htask]
      exact hw.tier
  exact fun r s' => (TaskQueue.Filesystem.serves_backend F).list hholds (by decide)

end

/-- `preempted_iff` of a task of the tier `batch`. -/
theorem preempted_batch : ∃ r s' found,
    store.Runs 0 (interruptForPriority "task-002") (twoTasks "batch") r s' ∧
      TaskQueue.Filesystem.store.Runs 0 ((TaskQueue.Filesystem.backend Python.wholeSeconds).findPreemptable 0)
        (TaskQueue.Filesystem.treeOf (board 4)) (.ok found) (TaskQueue.Filesystem.treeOf (board 4)) ∧
      SameTasks (twoTasks "batch") s' found ∧ Moved (twoTasks "batch") s' "task-001" := by
  have hw : Spelled (.str "batch") 4 := .name rfl
  obtain ⟨r, s', hr⟩ := exists_interrupt "batch" (by decide +kernel)
  obtain ⟨found, hfound⟩ := exists_found (yields_listClaimed hw (F := Python.wholeSeconds)) 0
  obtain ⟨hmoved, -, hsame⟩ := preempted_iff (TaskQueue.Filesystem.backend Python.wholeSeconds) .asciiOnly 0 0
    (twoTasks "batch") s' _ _ "task-002" _ 0 _ found r carries_twoTasks
    (fun id data h => ⟨4, hasTier_twoTasks hw h⟩) rfl ⟨_, rfl, .code rfl⟩ (shows_twoTasks hw) (yields_listClaimed hw) hr
    hfound
  refine ⟨r, s', found, hr, hfound, hsame.mpr fun id w hclaimed _ => ?_,
    (hmoved "task-001").mpr ⟨4, claimed_twoTasks hw, by decide⟩⟩
  obtain ⟨data, hdata, p, hp, hspelled⟩ := hclaimed
  rcases files_twoTasks hdata with ⟨hst, -, -⟩ | ⟨-, rfl, rfl⟩
  · cases hst
  · cases hp
    obtain rfl : w = 4 := Except.ok.inj ((hspelled.read .asciiOnly).1.symm.trans (hw.read .asciiOnly).1)
    exact ⟨le_rfl, _, List.mem_singleton_self _, rfl⟩

/-- **A task of the middle tier** is moved, and not named. -/
theorem standard_moved : ¬ ∀ {S : Sig} {T : Store S} (B : TaskQueue.Backend S) (D : Digits) (n m : Nat) (s s' : State)
    (t t' : T.State) (task_id : String) (new : Doc) (v : Int) (shown found : List Task) (r : Except PyError Bool),
    Carries s → (∀ id data, content s.tree.files .claimed id = some data → ∃ w, HasTier data w) →
      firstFile s task_id = some new → HasTier new v → Shows D s shown → T.Yields m B.listClaimed t (.ok shown) →
        store.Runs n (interruptForPriority task_id) s r s' → T.Runs m (B.findPreemptable v) t (.ok found) t' →
          SameTasks s s' found := by
  intro h
  have hw : Spelled (.str "standard") 3 := .name rfl
  have hclaimed : ∀ id data, content (twoTasks "standard").tree.files .claimed id = some data → ∃ w, HasTier data w :=
    fun id data h => ⟨3, hasTier_twoTasks hw h⟩
  have hv : HasTier [("id", .str "task-002"), ("priority", .str "P0")] 0 := ⟨_, rfl, .code rfl⟩
  obtain ⟨r, s', hr⟩ := exists_interrupt "standard" (by decide +kernel)
  obtain ⟨found, hfound⟩ := exists_found (yields_listClaimed hw (F := Python.wholeSeconds)) 0
  have hsame := h (TaskQueue.Filesystem.backend Python.wholeSeconds) .asciiOnly 0 0 (twoTasks "standard") s' _ _
    "task-002" _ 0 _ found r carries_twoTasks hclaimed rfl hv (shows_twoTasks hw) (yields_listClaimed hw) hr hfound
  have hmoved : Moved (twoTasks "standard") s' "task-001" :=
    (moved_iff carries_twoTasks hclaimed rfl hv hr).mpr ⟨3, claimed_twoTasks hw, by decide⟩
  obtain ⟨task, htask, -⟩ := (hsame "task-001").mp hmoved
  obtain ⟨hshow, -, htarget⟩ := (mem_found_iff (yields_listClaimed hw) hfound).mp htask
  rw [List.mem_singleton.mp hshow] at htarget
  exact absurd htarget (by decide)

end ClaudeSwarm.AutoDispatch
