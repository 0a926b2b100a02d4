import ClaudeSwarm.SwarmLib.Alone

/-!
# What the operations do

What `claim_task`, `complete_task` and `decompose_task`, run alone, have done to the task files when they
return: `claimTask_from`, `completeTask_from`, `decomposeTask_from`. `From n fs p R` is the triple of a
program that starts from the directories `fs`.
-/

namespace ClaudeSwarm.SwarmLib

open Data
open Python (PyError)

/-- What `p` returns when it is run alone from the directories `fs` satisfies `R`. -/
abbrev From {α : Type} (n : Nat) (fs : Files) (p : P α) (R : α → Files → Prop) : Prop :=
  Hoare n (fun _ => True) (fun fs' => fs' = fs) p R

section

variable {n : Nat} {fs : Files} {α β : Type} {R : α → Files → Prop} {R' : β → Files → Prop}
  {st : Stage} {id : String} {data : Doc}

theorem from_ret {a : α} (h : R a fs) : From n fs (.ret a) R := hoare_ret fun _ he => he ▸ h

theorem from_bind {p : P α} {f : α → P β} (hp : From n fs p R)
    (hf : ∀ a fs', R a fs' → From n fs' (f a) R') : From n fs (p >>= f) R' := by
  refine hoare_bind hp fun a s _ hs => ?_
  exact hf a s.files hs s trivial rfl

theorem from_exists {f : Bool → P β} (hf : From n fs (f (content fs st id).isSome) R') :
    From n fs (cmd (.pathExists st id) >>= f) R' := by
  refine hoare_exists fun x s _ ⟨hs, hx⟩ => ?_
  obtain rfl := hx
  simp only [hs]
  exact hf s trivial hs

theorem from_read {f : Doc → P β} (hf : ∀ data, content fs st id = some data → From n fs (f data) R') :
    From n fs (readYaml st id >>= f) R' := by
  refine hoare_read fun data s _ ⟨hs, hd⟩ => ?_
  rw [hs] at hd
  exact hf data hd s trivial hs

theorem from_still {c : Cmd} {f : Resp c → P β} (hc : c.IsStill)
    (hf : ∀ x, From n fs (f x) R') : From n fs (cmd c >>= f) R' := hoare_still hc hf

theorem from_write : From n fs (atomicWriteYaml st id data) fun _ fs' => fs' = put fs st id data := by
  refine hoare_post (fun _ fs' h => ?_) (hoare_write fun _ _ _ => trivial)
  obtain ⟨fs₁, rfl, hput⟩ := h
  exact hput

theorem from_lockedWrite :
    From n fs (lockedWriteYaml st id data) fun _ fs' => fs' = put fs st id data :=
  hoare_withLock from_write

theorem from_remove : From n fs (removeYaml st id) fun _ fs' => fs' = drop fs st id := by
  refine hoare_post (fun _ fs' h => ?_) (hoare_removeYaml fun _ _ _ => trivial)
  obtain ⟨fs₁, rfl, hdrop⟩ := h
  exact hdrop

/-- A task is written to one stage, locked or not, and removed from another. -/
theorem from_move {st' : Stage} {write : P Unit} {f : P β}
    (hwrite : From n fs write fun _ fs' => fs' = put fs st' id data)
    (hf : From n (drop (put fs st' id data) st id) f R') :
    From n fs (write >>= fun _ => removeYaml st id >>= fun _ => f) R' := by
  refine from_bind hwrite fun _ fs' hfs' => ?_
  subst hfs'
  refine from_bind from_remove fun _ fs' hfs' => ?_
  subst hfs'
  exact hf

end

variable {n : Nat} {fs : Files} {id : String}

/-! ## Moving a task -/

/-- The file of a pending task is read under its lock, when it is there. -/
theorem from_taken {body : Doc → P Doc} {missing taken : PyError} {R : Doc → Files → Prop}
    (hbody : ∀ task, content fs .pending id = some task → From n fs (body task) R) :
    From n fs (do
      if !(← cmd (.pathExists .pending id)) then
        .raise missing
      else do
        let task ← withLock .pending id do
          if !(← cmd (.pathExists .pending id)) then
            .raise taken
          else do
            let task ← readYaml .pending id
            body task
        cmd (.unlink .pending id)
        return task) R := by
  refine from_exists ?_
  cases (content fs .pending id).isSome with
  | false => exact hoare_raise
  | true =>
    refine from_bind (hoare_withLock (from_exists ?_)) fun task fs' hfs' =>
      from_still (c := .unlink .pending id) trivial fun _ => from_ret hfs'
    cases (content fs .pending id).isSome with
    | false => exact hoare_raise
    | true => exact from_read hbody

theorem claimTask_from : From n fs (claimTask id) fun _ fs' =>
    ∃ data data', content fs .pending id = some data ∧ SameContent data data' ∧
      fs' = drop (put fs .claimed id data') .pending id := by
  refine from_taken fun task htask => ?_
  refine from_still (c := .host) trivial fun hostname =>
    from_still (c := .iso) trivial fun claimed_at => ?_
  refine from_move from_write (from_ret ⟨task, _, htask, ?_, rfl⟩)
  exact sameContent_setKeys (by simp [bookkeeping])

theorem originalCompleteTask_from {artifact : String} :
    From n fs (originalCompleteTask id artifact) fun task fs' =>
      ∃ data, content fs .claimed id = some data ∧ SameContent data task ∧
        fs' = drop (put fs .completed id task) .claimed id := by
  refine from_exists ?_
  cases (content fs .claimed id).isSome with
  | false => exact hoare_raise
  | true =>
    refine from_read fun task htask => ?_
    refine from_still (c := .host) trivial fun hostname =>
      from_still (c := .iso) trivial fun completed_at => ?_
    refine from_move from_lockedWrite (from_ret ⟨task, htask, ?_, rfl⟩)
    refine sameContent_setKeys ?_
    by_cases ha : artifact = "" <;> simp [ha, bookkeeping]

theorem allCompleted_from : ∀ sub_ids, From n fs (allCompleted sub_ids) fun (all : Bool) fs' =>
    fs' = fs ∧ (all = true ↔ ∀ c ∈ sub_ids, (content fs .completed c).isSome)
  | [] => from_ret ⟨rfl, by simp⟩
  | sub_id :: sub_ids => by
    refine from_exists ?_
    cases hsub : (content fs .completed sub_id).isSome with
    | false => exact from_ret ⟨rfl, by simp [hsub]⟩
    | true =>
      refine hoare_post (fun all fs' h => ?_) (allCompleted_from sub_ids)
      refine ⟨h.1, h.2.trans ?_⟩
      simp [hsub]

/-- `check_parent_completion` will move the task. -/
def Completable (fs : Files) (id : String) : Prop :=
  ∃ data, content fs .decomposed id = some data ∧ getStrings data "subtasks" ≠ [] ∧
    ∀ c ∈ getStrings data "subtasks", (content fs .completed c).isSome

theorem checkParentCompletion_from : From n fs (checkParentCompletion id) fun _ fs' =>
    (Completable fs id ∧ ∃ data, fs' = drop (put fs .completed id data) .decomposed id) ∨
      ¬ Completable fs id ∧ fs' = fs := by
  refine from_exists ?_
  cases hthere : (content fs .decomposed id).isSome with
  | false =>
    refine from_ret (Or.inr ⟨fun ⟨data, hdata, _⟩ => ?_, rfl⟩)
    rw [hdata] at hthere
    cases hthere
  | true =>
    refine from_read fun parent hparent => ?_
    have hready : Completable fs id ↔ getStrings parent "subtasks" ≠ [] ∧
        ∀ c ∈ getStrings parent "subtasks", (content fs .completed c).isSome := by
      constructor
      · rintro ⟨data, hdata, h⟩
        cases hparent.symm.trans hdata
        exact h
      · exact fun h => ⟨parent, hparent, h⟩
    simp only
    split
    · rename_i hnil
      exact from_ret (Or.inr ⟨fun h => (hready.mp h).1 hnil, rfl⟩)
    · rename_i hnil
      refine from_bind (allCompleted_from _) fun all fs' hall => ?_
      obtain ⟨rfl, hall⟩ := hall
      cases all with
      | false => exact from_ret (Or.inr ⟨fun h => Bool.false_ne_true (hall.mpr (hready.mp h).2), rfl⟩)
      | true =>
        refine from_still (c := .iso) trivial fun completed_at => ?_
        refine from_move from_lockedWrite (from_ret (Or.inl ⟨?_, _, rfl⟩))
        exact hready.mpr ⟨hnil, hall.mp rfl⟩

/-- The parent named in a task's file. -/
def parentOf (data : Doc) : Option String := (getStr data "parent_id").filter (· ≠ "")

theorem SameContent.parentOf {data data' : Doc} (h : SameContent data data') :
    parentOf data' = SwarmLib.parentOf data := by
  unfold SwarmLib.parentOf getStr
  rw [h "parent_id" (by simp [bookkeeping])]

theorem completeTask_from {artifact : String} : From n fs (completeTask id artifact) fun _ fs' =>
    ∃ data task fs₁, content fs .claimed id = some data ∧ SameContent data task ∧
      fs₁ = drop (put fs .completed id task) .claimed id ∧
      ((∃ p data', parentOf data = some p ∧ Completable fs₁ p ∧
          fs' = drop (put fs₁ .completed p data') .decomposed p) ∨
        (∀ p, parentOf data = some p → ¬ Completable fs₁ p) ∧ fs' = fs₁) := by
  refine from_bind originalCompleteTask_from fun task fs₁ h => ?_
  obtain ⟨data, hdata, hsame, hfs₁⟩ := h
  have hparent : parentOf task = parentOf data := hsame.parentOf
  split
  · rename_i hnone
    refine from_ret ⟨data, task, fs₁, hdata, hsame, hfs₁, Or.inr ⟨fun p hp => ?_, rfl⟩⟩
    rw [← hparent, parentOf, hnone] at hp
    cases hp
  · rename_i p hp
    have hpd : parentOf data = some p := hparent ▸ hp
    refine from_bind checkParentCompletion_from fun _ fs' hfs' => from_ret ?_
    refine ⟨data, task, fs₁, hdata, hsame, hfs₁, ?_⟩
    rcases hfs' with ⟨hready, data', hfs'⟩ | ⟨hno, hfs'⟩
    · exact Or.inl ⟨p, data', hpd, hready, hfs'⟩
    · refine Or.inr ⟨fun p' hp' => ?_, hfs'⟩
      cases hpd.symm.trans hp'
      exact hno

/-! ## Decomposing a task -/

/-- The names `decompose_task` gives to subtasks, from index `i`. -/
def subtaskIds (task_id : String) (i k : Nat) : List String :=
  (List.range' i k).map (subtaskId task_id)

/-- The directories after these subtasks of a task were created. -/
def Created (fs : Files) (task_id : String) (ids : List String) (fs' : Files) : Prop :=
  ∀ st id, if st = .pending ∧ id ∈ ids then
    ∃ data, content fs' st id = some data ∧ getStr data "parent_id" = some task_id
  else content fs' st id = content fs st id

theorem createSubtasks_from {parent : Doc} : ∀ (subtasks : List Subtask) (i : Nat) (fs : Files),
    From n fs (createSubtasks id parent i subtasks) fun ids fs' =>
      ids = subtaskIds id i subtasks.length ∧ Created fs id ids fs'
  | [], i, fs => by
    refine from_ret ⟨rfl, fun st id' => ?_⟩
    rw [if_neg (by simp)]
  | sub :: subtasks, i, fs => by
    refine from_still (c := .host) trivial fun created_by =>
      from_still (c := .iso) trivial fun created_at => ?_
    refine from_bind from_write fun _ fs₁ hfs₁ => ?_
    refine from_bind (createSubtasks_from subtasks (i + 1) fs₁) fun ids fs' h => from_ret ?_
    obtain ⟨hids, hcreated⟩ := h
    refine ⟨by rw [hids]; rfl, fun st id' => ?_⟩
    have hrest := hcreated st id'
    by_cases hmem : st = .pending ∧ id' ∈ ids
    · rw [if_pos hmem] at hrest
      rw [if_pos ⟨hmem.1, List.mem_cons_of_mem _ hmem.2⟩]
      exact hrest
    · rw [if_neg hmem, hfs₁, content_put] at hrest
      by_cases hnew : st = .pending ∧ id' = subtaskId id i
      · rw [if_pos ⟨hnew.1, hnew.2 ▸ List.mem_cons_self⟩]
        rw [if_pos hnew] at hrest
        exact ⟨_, hrest, rfl⟩
      · rw [if_neg hnew] at hrest
        rw [if_neg fun h => ?_]
        · exact hrest
        · rcases List.mem_cons.mp h.2 with he | hin
          · exact hnew ⟨h.1, he⟩
          · exact hmem ⟨h.1, hin⟩

theorem decomposeTask_from {subtasks : List Subtask} :
    From n fs (decomposeTask id subtasks) fun _ fs' => ∃ data parent fs₁,
      content fs .pending id = some data ∧
      Created fs id (subtaskIds id 0 subtasks.length) fs₁ ∧
      getStrings parent "subtasks" = subtaskIds id 0 subtasks.length ∧
      fs' = drop (put fs₁ .decomposed id parent) .pending id := by
  refine from_taken fun data hdata => ?_
  refine from_bind (createSubtasks_from subtasks 0 fs) fun ids fs₁ h => ?_
  obtain ⟨rfl, hcreated⟩ := h
  refine from_still (c := .iso) trivial fun decomposed_at =>
    from_still (c := .host) trivial fun decomposed_by => ?_
  refine from_move from_write (from_ret ⟨data, _, fs₁, hdata, hcreated, ?_, rfl⟩)
  have hne : ∀ key : String, "subtasks" ≠ key → ∀ (d : Doc) (v : Json),
      (Json.setKey d (key, v)).lookup "subtasks" = d.lookup "subtasks" :=
    fun key hkey d v => lookup_setKey hkey
  simp only [getStrings, setKeys, List.foldl_cons, List.foldl_nil]
  rw [hne _ (by decide), hne _ (by decide), lookup_setKey_self (f := ("subtasks", _))]
  simp [Json.ofStrings, Json.strings_map]

end ClaudeSwarm.SwarmLib
