import ClaudeSwarm.Interleave.Alone
import ClaudeSwarm.SwarmLib.Tasks

/-!
# Operations run alone

The rules of the program logic for the tree: assertions are about the task files only, so a command
that moves no file keeps them all (`hoare_still`), a write puts one file in (`hoare_write`) and a removal
takes one out (`hoare_remove`). What runs under a lock runs as it would without (`hoare_withLock`).
`SameContent` compares dictionaries but for the fields that moving a task changes.
-/

namespace ClaudeSwarm.SwarmLib

open Interleave Data
open Python (PyError)

/-! ## Dictionaries -/

/-- The fields of a task that moving it changes. -/
def bookkeeping : List String :=
  ["claimed_by", "claimed_at", "completed_by", "completed_at", "result_artifact", "state", "_retries"]

/-- The two dictionaries differ in `bookkeeping` at most. -/
def SameContent (data data' : Doc) : Prop :=
  ∀ key, key ∉ bookkeeping → data'.lookup key = data.lookup key

theorem SameContent.refl (data : Doc) : SameContent data data := fun _ _ => rfl

theorem SameContent.trans {a b c : Doc} (h : SameContent a b) (h' : SameContent b c) :
    SameContent a c := fun key hkey => (h' key hkey).trans (h key hkey)

/-- A field set does not change the others. -/
theorem lookup_setKey {data : Doc} {f : String × Json} {key : String} (h : key ≠ f.1) :
    (Json.setKey data f).lookup key = data.lookup key := by
  have hmap : ∀ l : Doc, (l.map fun g => if g.1 = f.1 then f else g).lookup key = l.lookup key := by
    intro l
    induction l with
    | nil => rfl
    | cons g l ih =>
      obtain ⟨k, v⟩ := g
      rw [List.map_cons, List.lookup_cons]
      by_cases hk : k = f.1
      · have hne : (key == f.1) = false := beq_false_of_ne h
        rw [if_pos hk, hk, List.lookup_cons, hne]
        exact ih
      · rw [if_neg hk]
        simp only [List.lookup_cons, ih]
  have happend : ∀ l : Doc, (l ++ [f]).lookup key = l.lookup key := by
    intro l
    induction l with
    | nil =>
      have hne : (key == f.1) = false := beq_false_of_ne h
      rw [List.nil_append, List.lookup_cons, hne]
    | cons g l ih =>
      rw [List.cons_append, List.lookup_cons, List.lookup_cons, ih]
  unfold Json.setKey
  split
  · exact hmap data
  · exact happend data

/-- The field that was set. -/
theorem lookup_setKey_self {data : Doc} {f : String × Json} :
    (Json.setKey data f).lookup f.1 = some f.2 := by
  have hmap : ∀ l : Doc, (l.any fun g => g.1 == f.1) = true →
      (l.map fun g => if g.1 = f.1 then f else g).lookup f.1 = some f.2 := by
    intro l hl
    induction l with
    | nil => cases hl
    | cons g l ih =>
      rw [List.map_cons]
      by_cases hk : g.1 = f.1
      · rw [if_pos hk, List.lookup_cons]
        simp
      · have hne : (f.1 == g.1) = false := beq_false_of_ne (Ne.symm hk)
        rw [if_neg hk, List.lookup_cons, hne]
        refine ih ?_
        rwa [List.any_cons, beq_false_of_ne hk, Bool.false_or] at hl
  have happend : ∀ l : Doc, (l.any fun g => g.1 == f.1) = false →
      (l ++ [f]).lookup f.1 = some f.2 := by
    intro l hl
    induction l with
    | nil =>
      rw [List.nil_append, List.lookup_cons]
      simp
    | cons g l ih =>
      rw [List.any_cons, Bool.or_eq_false_iff] at hl
      have hne : (f.1 == g.1) = false := beq_false_of_ne (Ne.symm (ne_of_beq_false hl.1))
      rw [List.cons_append, List.lookup_cons, hne]
      exact ih hl.2
  unfold Json.setKey
  split
  · rename_i h
    exact hmap data h
  · rename_i h
    exact happend data (Bool.eq_false_iff.mpr h)

theorem sameContent_setKeys : ∀ {fields data : Doc}, (∀ f ∈ fields, f.1 ∈ bookkeeping) →
    SameContent data (setKeys data fields)
  | [], data, _ => SameContent.refl data
  | f :: fields, data, h => by
    have hf : SameContent data (Json.setKey data f) := by
      intro key hkey
      exact lookup_setKey fun he => hkey (he ▸ h f List.mem_cons_self)
    exact hf.trans (sameContent_setKeys fun g hg => h g (List.mem_cons_of_mem f hg))

/-- A field popped is gone, and the others stay. -/
theorem lookup_popKey (data : Doc) (k key : String) :
    (popKey data k).lookup key = if key = k then none else data.lookup key := by
  induction data with
  | nil =>
    split <;> rfl
  | cons g data ih =>
    unfold popKey at ih ⊢
    rw [List.filter_cons]
    by_cases hg : g.1 = k
    · rw [if_neg (by simpa using hg), ih]
      by_cases hk : key = k
      · rw [if_pos hk, if_pos hk]
      · have hbeq : (key == g.1) = false := beq_false_of_ne fun he => hk (he.trans hg)
        rw [if_neg hk, if_neg hk, List.lookup_cons, hbeq]
    · rw [if_pos (by simpa using hg), List.lookup_cons, List.lookup_cons, ih]
      by_cases hk : key = g.1
      · have hne : key ≠ k := fun he => hg (hk.symm.trans he)
        rw [beq_iff_eq.mpr hk, if_neg hne, if_neg hne]
      · rw [beq_false_of_ne hk]

theorem sameContent_popKey {data : Doc} {key : String} (h : key ∈ bookkeeping) :
    SameContent data (popKey data key) := by
  intro key' hkey'
  have hne : key' ≠ key := fun he => hkey' (he ▸ h)
  rw [lookup_popKey, if_neg hne]

/-! ## The task files -/

/-- The stage directories. -/
abbrev Files := Stage → Dir

/-- The dictionary in a task's file in a stage. -/
def content (fs : Files) (st : Stage) (id : String) : Option Doc := ((fs st).find? id).map Prod.snd

/-- The files of a stage, by name. -/
def stems (fs : Files) (st : Stage) : List String := (fs st).rows.map Prod.fst

/-- The directories after a file was written. -/
def put (fs : Files) (st : Stage) (id : String) (data : Doc) : Files :=
  Function.update fs st ((fs st).put (id, data))

/-- The directories after a file was removed. -/
def drop (fs : Files) (st : Stage) (id : String) : Files :=
  Function.update fs st ((fs st).erase id)

theorem content_put (fs : Files) (st st' : Stage) (id id' : String) (data : Doc) :
    content (put fs st id data) st' id' =
      if st' = st ∧ id' = id then some data else content fs st' id' := by
  unfold content put
  by_cases hst : st' = st
  · subst hst
    rw [Function.update_self, Table.find?_put]
    by_cases hid : id' = id
    · simp [hid]
    · simp [hid]
  · simp [hst]

theorem content_drop (fs : Files) (st st' : Stage) (id id' : String) :
    content (drop fs st id) st' id' = if st' = st ∧ id' = id then none else content fs st' id' := by
  unfold content drop
  by_cases hst : st' = st
  · subst hst
    rw [Function.update_self, Table.find?_erase]
    by_cases hid : id' = id
    · simp [hid]
    · simp [hid]
  · simp [hst]

theorem mem_stems {fs : Files} {st : Stage} {stem : String} : stem ∈ stems fs st ↔ (content fs st stem).isSome := by
  rw [stems, content, Option.isSome_map]
  constructor
  · rintro h
    obtain ⟨row, hrow, rfl⟩ := List.mem_map.mp h
    rw [Table.find?_of_mem hrow]
    rfl
  · intro h
    obtain ⟨row, hrow⟩ := Option.isSome_iff_exists.mp h
    exact List.mem_map.mpr ⟨row, Table.find?_mem hrow, Table.find?_key hrow⟩

theorem file_iff_content {s : Tree} {st : Stage} {id : String} :
    s.File st id ↔ (content s.files st id).isSome := by
  rw [content, Option.isSome_map, Tree.File]

/-! ## Rules -/

section

variable {n : Nat} {α β : Type} {I A A' : Files → Prop} {R : α → Files → Prop}
  {R' : β → Files → Prop} {st : Stage} {id : String} {data : Doc}

/-- A triple about the task files. -/
def Hoare (n : Nat) (I A : Files → Prop) (p : P α) (R : α → Files → Prop) : Prop :=
  store.Triple n (fun s => I s.files) (fun s => A s.files) p fun a s => R a s.files

theorem hoare_ret {a : α} (h : ∀ fs, A fs → R a fs) : Hoare n I A (.ret a) R :=
  Store.triple_ret fun s _ hA => h s.files hA

theorem hoare_raise {e : PyError} : Hoare n I A (.raise e : P α) R := Store.triple_raise

theorem hoare_pre {p : P α} (hA : ∀ fs, I fs → A' fs → A fs) (h : Hoare n I A p R) :
    Hoare n I A' p R :=
  Store.triple_mono (fun s => hA s.files) (fun _ _ _ h => h) h

theorem hoare_post {R' : α → Files → Prop} {p : P α} (hR : ∀ a fs, R a fs → R' a fs)
    (h : Hoare n I A p R) : Hoare n I A p R' :=
  Store.triple_mono (fun _ _ h => h) (fun a s _ => hR a s.files) h

theorem hoare_bind {p : P α} {f : α → P β} (hp : Hoare n I A p R)
    (hf : ∀ a, Hoare n I (R a) (f a) R') : Hoare n I A (p >>= f) R' := Store.triple_bind hp hf

/-- A command that moves no file. -/
theorem files_of_still {c : Cmd} {i : Env} {s s' : Tree} {x : Resp c} (hc : c.IsStill)
    (hx : exec n i s c = some (x, s')) : s'.files = s.files := by
  cases filesEffect_of_exec hx with
  | still _ hf => exact hf
  | _ => exact hc.elim

theorem hoare_still {c : Cmd} {f : Resp c → P β} (hc : c.IsStill)
    (hf : ∀ x, Hoare n I A (f x) R') : Hoare n I A (cmd c >>= f) R' := by
  refine Store.triple_cmd (fun _ s => A s.files) (fun i s x s' hI hA hx => ?_) hf
  rw [files_of_still hc hx]
  exact ⟨hI, hA⟩

theorem hoare_each {p : P α} (hp : p.Each Cmd.IsStill) : Hoare n I A p fun _ => A := by
  refine Store.triple_each (fun c hc i s x s' hI hA hx => ?_) hp
  rw [files_of_still hc hx]
  exact ⟨hI, hA⟩

/-- Asking whether a task is in a stage. -/
theorem hoare_exists {f : Bool → P β}
    (hf : ∀ x : Bool, Hoare n I (fun fs => A fs ∧ (content fs st id).isSome = x) (f x) R') :
    Hoare n I A (cmd (.pathExists st id) >>= f) R' := by
  refine Store.triple_cmd (fun (x : Bool) s => A s.files ∧ (content s.files st id).isSome = x)
    (fun i s x s' hI hA hx => ?_) hf
  obtain ⟨rfl, rfl⟩ := Prod.mk.inj (Option.some.inj hx)
  refine ⟨hI, hA, ?_⟩
  rw [Bool.eq_iff_iff, decide_eq_true_iff]
  exact file_iff_content.symm

/-- Reading a task file. -/
theorem hoare_read {f : Doc → P β}
    (hf : ∀ data, Hoare n I (fun fs => A fs ∧ content fs st id = some data) (f data) R') :
    Hoare n I A (readYaml st id >>= f) R' := by
  refine hoare_bind (R := fun data fs => A fs ∧ content fs st id = some data) ?_ hf
  refine Store.triple_cmd (T := store) (c := Cmd.read st id)
    (fun (x : Option Doc) s => A s.files ∧ content s.files st id = x)
    (fun i s x s' hI hA hx => ?_) fun x => ?_
  · obtain ⟨rfl, rfl⟩ := Prod.mk.inj (Option.some.inj hx)
    exact ⟨hI, hA, rfl⟩
  · cases x with
    | none => exact Store.triple_raise
    | some data => exact Store.triple_ret fun _ _ h => h

/-- Writing a task file. -/
theorem hoare_write (hI : ∀ fs, I fs → A fs → I (put fs st id data)) :
    Hoare n I A (atomicWriteYaml st id data)
      fun _ fs' => ∃ fs, A fs ∧ fs' = put fs st id data := by
  intro s hs hA
  refine ⟨hs, fun i x s₁ hx => ?_⟩
  cases hx
  refine ⟨hs, fun i x s₂ hx => ?_⟩
  simp only [exec, Function.update_self, Table.find?_put, if_true] at hx
  cases hx
  exact ⟨hI s.files hs hA, s.files, hA, rfl⟩

/-- Removing a file, which may be gone. -/
theorem hoare_remove {f : Bool → P β} (hI : ∀ fs, I fs → A fs → I (drop fs st id))
    (htrue : Hoare n I (fun fs' => ∃ fs, A fs ∧ fs' = drop fs st id) (f true) R')
    (hfalse : Hoare n I A (f false) R') : Hoare n I A (cmd (.remove st id) >>= f) R' := by
  intro s hs hA
  refine ⟨hs, fun i x s₁ hx => ?_⟩
  simp only [exec] at hx
  split at hx
  · cases hx
    exact htrue _ (hI s.files hs hA) ⟨s.files, hA, rfl⟩
  · cases hx
    exact hfalse s hs hA

/-- Removing a file that must be there. -/
theorem hoare_removeYaml (hI : ∀ fs, I fs → A fs → I (drop fs st id)) :
    Hoare n I A (removeYaml st id) fun _ fs' => ∃ fs, A fs ∧ fs' = drop fs st id :=
  hoare_remove hI (hoare_ret fun _ h => h) hoare_raise

/-- A clean-up that moves no file. -/
theorem hoare_finally {p : P α} {q : P Unit} (hq : q.Each Cmd.IsStill) (hp : Hoare n I A p R) :
    Hoare n I A (p.finally_ q) R := by
  refine Store.triple_finally (fun P hP => ?_) hp
  rcases hP with ⟨a, rfl⟩ | rfl
  · exact hoare_each (A := R a) hq
  · exact hoare_each (A := fun _ => True) hq

/-- What runs under a lock. -/
theorem hoare_withLock {body : P α} (h : Hoare n I A body R) :
    Hoare n I A (withLock st id body) R :=
  hoare_still (c := .touch st id) trivial fun _ =>
    hoare_still (c := .openLock st id) trivial fun _ =>
      hoare_finally (q := cmd .close) ⟨trivial, fun _ => trivial⟩
        (hoare_still (c := .flock) trivial fun _ =>
          hoare_finally (q := cmd .unlock) ⟨trivial, fun _ => trivial⟩ h)

end

end ClaudeSwarm.SwarmLib
