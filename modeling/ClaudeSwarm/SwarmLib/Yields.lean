import ClaudeSwarm.SwarmLib.Effects

/-!
# However an operation ends

`From` says what an operation that returns has done. `Yields` also says what one that raises an exception has
left: the directories as they are when it ends, with either outcome.

* `claimTask_yields`: `claim_task`, run alone, moves the task or leaves every file as it was.
-/

namespace ClaudeSwarm.SwarmLib

open Interleave Data
open Python (PyError)

/-- When `p`, run alone from the directories `fs`, has ended, `Q` holds of its outcome and what it left. -/
def Yields {α : Type} (n : Nat) (fs : Files) (p : P α) (Q : Except PyError α → Files → Prop) : Prop :=
  store.Ends n (fun _ => True) (fun s => s.files = fs) p fun r s => Q r s.files

section

variable {n : Nat} {fs : Files} {α β : Type} {Q : Except PyError α → Files → Prop}
  {Q' : Except PyError β → Files → Prop} {st : Stage} {id : String} {data : Doc}

theorem Yields.runs {p : P α} (h : Yields n fs p Q) {s s' : Tree} (hs : s.files = fs) {r : Except PyError α}
    (hr : store.Runs n p s r s') : Q r s'.files := Store.Ends.runs (T := store) h trivial hs hr

theorem yields_ret {a : α} (h : Q (.ok a) fs) : Yields n fs (.ret a) Q := by
  rintro s - rfl
  exact ⟨trivial, h⟩

theorem yields_raise {e : PyError} (h : Q (.error e) fs) : Yields n fs (.raise e) Q := by
  rintro s - rfl
  exact ⟨trivial, h⟩

theorem yields_bind {p : P α} {f : α → P β} (hp : Yields n fs p Q)
    (hok : ∀ a fs', Q (.ok a) fs' → Yields n fs' (f a) Q')
    (herr : ∀ e fs', Q (.error e) fs' → Q' (.error e) fs') : Yields n fs (p >>= f) Q' := by
  intro s _ hs
  refine Store.safe_bind (T := store) (Store.safe_mono (T := store) (fun r s' _ hr => ?_) (hp s trivial hs))
  cases r with
  | ok a => exact hok a s'.files hr s' trivial rfl
  | error e => exact herr e s'.files hr

/-- A command that moves no file. -/
theorem yields_still {c : Cmd} {f : Resp c → P β} (hc : c.IsStill) (hf : ∀ x, Yields n fs (f x) Q') :
    Yields n fs (cmd c >>= f) Q' :=
  fun _ _ hs => ⟨trivial, fun _ x s₁ hx => hf x s₁ trivial ((files_of_still hc hx).trans hs)⟩

theorem yields_exists {f : Bool → P β} (hf : Yields n fs (f (content fs st id).isSome) Q') :
    Yields n fs (cmd (.pathExists st id) >>= f) Q' := by
  intro s _ hs
  refine ⟨trivial, fun i x s₁ hx => ?_⟩
  obtain ⟨rfl, rfl⟩ := Prod.mk.inj (Option.some.inj hx)
  have hthere : decide (s.File st id) = (content fs st id).isSome := by
    rw [Bool.eq_iff_iff, decide_eq_true_iff, ← hs]
    exact file_iff_content
  rw [hthere]
  exact hf s trivial hs

theorem yields_read {f : Doc → P β} (hnone : content fs st id = none → ∀ e, Q' (.error e) fs)
    (hsome : ∀ data, content fs st id = some data → Yields n fs (f data) Q') :
    Yields n fs (readYaml st id >>= f) Q' := by
  rintro s - rfl
  refine ⟨trivial, fun i x s₁ hx => ?_⟩
  obtain ⟨hdata, rfl⟩ := Prod.mk.inj (Option.some.inj hx)
  have hcontent : content s.files st id = x := hdata
  cases x with
  | none => exact ⟨trivial, hnone hcontent _⟩
  | some data => exact hsome data hcontent s trivial rfl

theorem yields_write : Yields n fs (atomicWriteYaml st id data)
    fun r fs' => r = .ok () ∧ fs' = put fs st id data := by
  intro s _ hs
  refine ⟨trivial, fun i x s₁ hx => ?_⟩
  cases hx
  refine ⟨trivial, fun i x s₂ hx => ?_⟩
  simp only [exec, Function.update_self, Table.find?_put, if_true] at hx
  cases hx
  exact ⟨trivial, rfl, by rw [← hs]; rfl⟩

theorem yields_remove {f : Bool → P β} (hthere : (content fs st id).isSome → Yields n (drop fs st id) (f true) Q')
    (hgone : content fs st id = none → Yields n fs (f false) Q') : Yields n fs (cmd (.remove st id) >>= f) Q' := by
  intro s _ hs
  refine ⟨trivial, fun i x s₁ hx => ?_⟩
  simp only [exec] at hx
  split at hx
  · rename_i hfile
    cases hx
    exact hthere (hs ▸ file_iff_content.mp hfile) _ trivial (by rw [← hs]; rfl)
  · rename_i hfile
    cases hx
    refine hgone ?_ s trivial hs
    rw [← Option.not_isSome_iff_eq_none, ← hs]
    exact fun h => hfile (file_iff_content.mpr h)

theorem yields_finally {p : P α} {q : P Unit} (hq : ∀ r fs', Q r fs' → Yields n fs' q fun r' fs'' =>
    r' = .ok () ∧ Q r fs'') (hp : Yields n fs p Q) : Yields n fs (p.finally_ q) Q := by
  intro s _ hs
  refine Store.safe_finally (T := store) (fun r s' _ hr => ?_) (hp s trivial hs)
  refine Store.safe_mono (T := store) (fun r' s'' _ h => ?_) (hq r s'.files hr s' trivial rfl)
  obtain ⟨rfl, h⟩ := h
  exact h

theorem yields_catch {p : P α} {f : PyError → P α} {R : Except PyError α → Files → Prop} (hp : Yields n fs p R)
    (hok : ∀ a fs', R (.ok a) fs' → Q (.ok a) fs') (hf : ∀ e fs', R (.error e) fs' → Yields n fs' (f e) Q) :
    Yields n fs (p.catch_ f) Q := by
  intro s _ hs
  refine Store.safe_catch (T := store) (Store.safe_mono (T := store) (fun r s' _ hr => ?_) (hp s trivial hs))
  cases r with
  | ok a => exact hok a s'.files hr
  | error e => exact hf e s'.files hr s' trivial rfl

/-- What runs under a lock. -/
theorem yields_withLock {body : P α} (h : Yields n fs body Q) : Yields n fs (withLock st id body) Q := by
  have hclean : ∀ c : Cmd, c.IsStill → (hresp : Resp c = Unit) → ∀ r fs', Q r fs' →
      Yields n fs' (cmd c >>= fun _ => .ret ()) fun r' fs'' => r' = .ok () ∧ Q r fs'' :=
    fun c hc _ r fs' hr => yields_still hc fun _ => yields_ret ⟨rfl, hr⟩
  exact yields_still (c := .touch st id) trivial fun _ =>
    yields_still (c := .openLock st id) trivial fun _ =>
      yields_finally (fun r fs' hr => hclean .close trivial rfl r fs' hr)
        (yields_still (c := .flock) trivial fun _ =>
          yields_finally (fun r fs' hr => hclean .unlock trivial rfl r fs' hr) h)

end

variable {n : Nat} {fs : Files} {id : String}

/-- A task is written to one stage and removed from another; neither fails. -/
theorem yields_move {α : Type} {st st' : Stage} {data : Doc} {write : P Unit} {f : P α}
    {Q : Except PyError α → Files → Prop} (hne : st ≠ st')
    (hwrite : Yields n fs write fun r fs' => r = .ok () ∧ fs' = put fs st' id data)
    (hthere : (content fs st id).isSome) (hf : Yields n (drop (put fs st' id data) st id) f Q) :
    Yields n fs (write >>= fun _ => removeYaml st id >>= fun _ => f) Q := by
  refine yields_bind hwrite (fun _ fs' h => ?_) fun e fs' h => by cases h.1
  obtain ⟨-, rfl⟩ := h
  refine yields_bind (Q := fun r fs' => r = .ok () ∧ fs' = drop (put fs st' id data) st id) ?_
    (fun _ fs' h => ?_) fun e fs' h => by cases h.1
  · refine yields_remove (fun _ => yields_ret ⟨rfl, rfl⟩) fun hgone => ?_
    rw [content_put, if_neg fun h => hne h.1] at hgone
    rw [hgone] at hthere
    cases hthere
  · obtain ⟨-, rfl⟩ := h
    exact hf

/-- What `claim_task` writes. -/
def claimedDoc (task : Doc) (hostname claimed_at : String) : Doc :=
  setKeys task [("claimed_by", .str hostname), ("claimed_at", .str claimed_at)]

theorem lookup_claimedDoc {task : Doc} {hostname claimed_at key : String} (hb : key ≠ "claimed_by")
    (ha : key ≠ "claimed_at") : (claimedDoc task hostname claimed_at).lookup key = task.lookup key := by
  rw [claimedDoc, setKeys, List.foldl_cons, List.foldl_cons, List.foldl_nil, lookup_setKey ha, lookup_setKey hb]

/-- The task is moved to `claimed/`; or it is not there, and nothing is. -/
def Claims (fs : Files) (id : String) (r : Except PyError Doc) (fs' : Files) : Prop :=
  (∃ task hostname claimed_at, content fs .pending id = some task ∧
    r = .ok (claimedDoc task hostname claimed_at) ∧
      fs' = drop (put fs .claimed id (claimedDoc task hostname claimed_at)) .pending id) ∨
    content fs .pending id = none ∧ (∃ msg, r = .error (.fileNotFound msg)) ∧ fs' = fs

theorem claimTask_yields : Yields n fs (claimTask id) (Claims fs id) := by
  refine yields_exists ?_
  cases hthere : content fs .pending id with
  | none => exact yields_raise (Or.inr ⟨hthere, ⟨_, rfl⟩, rfl⟩)
  | some task =>
    refine yields_bind (Q := Claims fs id) (yields_withLock (yields_exists ?_)) (fun task' fs' h => ?_) fun e fs' h => h
    · rw [hthere]
      refine yields_read (fun hnone _ => by rw [hthere] at hnone; cases hnone) fun data hdata => ?_
      refine yields_still (c := .host) trivial fun hostname =>
        yields_still (c := .iso) trivial fun claimed_at => ?_
      have hmoved : (content fs .pending id).isSome := by rw [hthere]; rfl
      exact yields_move (by decide) yields_write hmoved
        (yields_ret (Or.inl ⟨data, hostname, claimed_at, hdata, rfl, rfl⟩))
    · exact yields_still (c := .unlink .pending id) trivial fun _ => yields_ret h

/-! ## Counting the tasks of a stage -/

/-- How many tasks `list_tasks` lists of a stage. -/
def countListed (fs : Files) (st : Stage) : Nat := ((stems fs st).filter (·.startsWith "task-")).length

variable {st st' : Stage} {data : Doc}

theorem countListed_put : countListed (put fs st id data) st' ≤ countListed fs st' + 1 := by
  by_cases hst : st' = st
  · subst hst
    have hstems : stems (put fs st' id data) st' = (stems fs st').filter (· ≠ id) ++ [id] := by
      rw [stems, put, Function.update_self, Table.put, List.map_append, List.map_singleton, stems,
        List.filter_map]
      rfl
    have hsub : (((stems fs st').filter (· ≠ id)).filter (·.startsWith "task-")).length ≤ countListed fs st' :=
      (List.filter_sublist.filter _).length_le
    have hlast : ([id].filter (·.startsWith "task-")).length ≤ 1 := List.length_filter_le _ _
    rw [countListed, hstems, List.filter_append, List.length_append]
    omega
  · rw [countListed, stems, put, Function.update_of_ne hst]
    exact Nat.le_succ _

theorem countListed_drop : countListed (drop fs st id) st' ≤ countListed fs st' := by
  by_cases hst : st' = st
  · subst hst
    rw [countListed, stems, drop, Function.update_self]
    exact ((List.filter_sublist.map _).filter _).length_le
  · rw [countListed, stems, drop, Function.update_of_ne hst]
    exact le_rfl

/-- `claim_task` moves one task at most. -/
theorem Claims.count {r : Except PyError Doc} {fs' : Files} (h : Claims fs id r fs') :
    countListed fs' .claimed ≤ countListed fs .claimed + 1 := by
  rcases h with ⟨task, hostname, claimed_at, -, -, rfl⟩ | ⟨-, -, rfl⟩
  · exact countListed_drop.trans countListed_put
  · exact Nat.le_succ _

end ClaudeSwarm.SwarmLib
