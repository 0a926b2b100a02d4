import ClaudeSwarm.Interleave.Alone
import ClaudeSwarm.Outage.Placement

/-!
# Taking the files back

`_reconcile_local_tasks`, run alone on a healthy share, copies each file of the host's tree to the same
stage on the share unless the share has one there, and removes it from the host's tree.

* `reconcileLocalTasks_moves`: it takes a task that is in one place to that stage of the share.
* **`one_stage_after_reconcile`**: after careful runs every task is then in exactly one stage of the
  share, and in `completed/` if `complete_task` returned for it.
* `forked_claim`: a removal that fails while the share is down, and the error swallowed, leaves the task
  both pending and claimed.
-/

namespace ClaudeSwarm.Outage

open Interleave Data Store
open Python (PyError)
open SwarmLib (Stage Doc Tree Env)

/-- The share is healthy. -/
abbrev Up (s : State) : Prop := s.health.up = true

/-- The task is in the places of `S`. -/
abbrev InPlaces (host id : String) (S : Finset Place) (s : State) : Prop := placesOf host s id = S

variable {host id : String} {n : Nat} {i : Env} {s s' : State} {st : Stage} {root : Root}
  {S : Finset Place} {α : Type}

/-! ## Single commands -/

/-- A command on a tree does not change the weather. -/
theorem health_of_exec {c : SwarmLib.Cmd} {x : Option (SwarmLib.Resp c)}
    (h : exec n i s (.on root c) = some (x, s')) : s'.health = s.health := by
  simp only [exec] at h
  split at h
  · cases h
    rfl
  · obtain ⟨y, -, he⟩ := Option.map_eq_some_iff.mp h
    cases he
    rfl

/-- On a healthy share a command answers. -/
theorem exec_of_up {c : SwarmLib.Cmd} {x : Option (SwarmLib.Resp c)} (hup : Up s)
    (h : exec n i s (.on root c) = some (x, s')) :
    ∃ y t, SwarmLib.exec n i (s.trees root) c = some (y, t) ∧ x = some y ∧
      s' = { s with trees := Function.update s.trees root t } := by
  simp only [exec] at h
  split at h
  · rename_i hfails
    exact absurd (hfails.2.1.symm.trans hup) Bool.false_ne_true
  · obtain ⟨⟨y, t⟩, hy, he⟩ := Option.map_eq_some_iff.mp h
    cases he
    exact ⟨y, t, hy, rfl, rfl⟩

/-- A command seen as an event of a call of its own. -/
theorem fires_of_exec {c : Cmd} {x : Resp c} (o : Op) (h : exec n i s c = some (x, s')) :
    Fires (M := system) ⟨s, []⟩ ⟨n, o, c, x⟩ ⟨s', [⟨n, o, c, x⟩]⟩ :=
  ⟨⟨i, h⟩, rfl⟩

/-- The command moves no file of the task, and is not the weather. -/
structure Avoids (id : String) (c : Cmd) : Prop where
  puts : ∀ p, c.puts ≠ some (p, id)
  takes : ∀ p, c.takes ≠ some (p, id)
  calm : ∀ h, c ≠ .weather h

theorem health_of_avoids {c : Cmd} {x : Resp c} (hc : Avoids id c) (h : exec n i s c = some (x, s')) :
    s'.health = s.health := by
  cases c with
  | on root c => exact health_of_exec h
  | weather health => exact absurd rfl (hc.calm health)
  | _ =>
    cases h
    rfl

theorem placesOf_of_avoids {c : Cmd} {x : Resp c} (hc : Avoids id c)
    (h : exec n i s c = some (x, s')) : placesOf host s' id = placesOf host s id :=
  placesOf_same (fires_of_exec (.reconcile host) h) (fun p hp => hc.puts p hp.1)
    fun p hp => hc.takes p hp.1

/-- A program that does not touch the task. -/
theorem triple_avoids {p : P α} (hp : p.Each (Avoids id)) :
    store.Triple n Up (InPlaces host id S) p fun _ => InPlaces host id S := by
  refine triple_each (fun c hc i s x s' hup hs h => ?_) hp
  rw [Up, health_of_avoids hc h, InPlaces, placesOf_of_avoids hc h]
  exact ⟨hup, hs⟩

/-! ## One file -/

theorem avoids_of {c : Cmd} (hp : c.puts = none) (ht : c.takes = none) (hw : ∀ h, c ≠ .weather h) :
    Avoids id c :=
  ⟨fun _ h => Option.some_ne_none _ (h.symm.trans hp),
    fun _ h => Option.some_ne_none _ (h.symm.trans ht), hw⟩

theorem avoids_rename {id' : String} (hne : id' ≠ id) : Avoids id (.on root (.rename st id')) :=
  ⟨fun _ h => hne (Prod.mk.inj (Option.some.inj h)).2, fun _ h => Option.some_ne_none _ h.symm,
    fun _ h => Cmd.noConfusion h⟩

theorem avoids_remove {id' : String} (hne : id' ≠ id) : Avoids id (.on root (.remove st id')) :=
  ⟨fun _ h => Option.some_ne_none _ h.symm, fun _ h => hne (Prod.mk.inj (Option.some.inj h)).2,
    fun _ h => Cmd.noConfusion h⟩

/-- Taking another file back does not touch the task. -/
theorem each_reconcileFile {id' : String} (hne : id' ≠ id) :
    (reconcileFile host st id').Each (Avoids id) := by
  have hlook : ∀ root c, Cmd.puts (.on root c) = none → Cmd.takes (.on root c) = none →
      Avoids id (.on root c) :=
    fun root c hp ht => avoids_of hp ht fun _ h => Cmd.noConfusion h
  have hremove : (removeYaml ⟨.home host, st⟩ id' >>= fun _ =>
      (pure [id'] : P (List String))).Each (Avoids id) := by
    refine Prog.each_bind (fun _ => Prog.each_ret _)
      (each_on_bind (c := .remove st id') (avoids_remove hne) fun x => ?_)
    cases x <;> trivial
  refine each_exceptOSError ?_ fun _ => Prog.each_ret _
  refine each_on_bind (c := .pathExists st id') (hlook _ _ rfl rfl) fun found => ?_
  cases found with
  | true => exact hremove
  | false =>
    refine Prog.each_bind (fun data => Prog.each_bind (fun _ => hremove) ?_) ?_
    · refine each_on_bind (c := .writeTmp st id' data) (hlook _ _ rfl rfl) fun _ =>
        each_on_bind (c := .rename st id') (avoids_rename hne) fun x => ?_
      cases x <;> trivial
    · refine each_on_bind (c := .read st id') (hlook _ _ rfl rfl) fun data => ?_
      cases data <;> trivial

section Safe

variable {Q : Except PyError α → State → Prop}

/-- A command on a healthy share, and what follows. -/
theorem safe_on {c : SwarmLib.Cmd} {f : SwarmLib.Resp c → P α} (hup : Up s)
    (h : ∀ i y s₁, exec n i s (.on root c) = some (some y, s₁) → Up s₁ →
      store.Safe n Up Q (f y) s₁) : store.Safe n Up Q (on root c >>= f) s := by
  rw [on_bind]
  refine ⟨hup, fun i x s₁ hx => ?_⟩
  obtain ⟨y, t, -, rfl, -⟩ := exec_of_up hup hx
  exact h i y s₁ hx ((congrArg Health.up (health_of_exec hx)).trans hup)

/-- A test whether a file is there. -/
theorem safe_exists {f : Bool → P α} (hup : Up s)
    (h : store.Safe n Up Q (f (decide (s.File ⟨root, st⟩ id))) s) :
    store.Safe n Up Q (on root (.pathExists st id) >>= f) s := by
  refine safe_on hup fun i y s₁ hx _ => ?_
  obtain ⟨y', t, hy, he, rfl⟩ := exec_of_up hup hx
  cases he
  cases hy
  simp only [Function.update_eq_self]
  exact h

/-- A file that is there is read. -/
theorem safe_read {p : Place} {f : Doc → P α} (hup : Up s) (hp : s.File p id)
    (h : ∀ data, store.Safe n Up Q (f data) s) :
    store.Safe n Up Q (readYaml p id >>= f) s := by
  rw [readYaml, Prog.bind_assoc]
  refine safe_on hup fun i y s₁ hx _ => ?_
  obtain ⟨y', t, hy, he, rfl⟩ := exec_of_up hup hx
  cases he
  cases hy
  obtain ⟨row, hrow⟩ := Option.isSome_iff_exists.mp hp
  simp only [hrow, Function.update_eq_self]
  exact h row.2

/-- A file is written. -/
theorem safe_write {p : Place} {data : Doc} {f : Unit → P α} (hup : Up s) (hp : p ∈ places host)
    (h : ∀ s₁, Up s₁ → placesOf host s₁ id = insert p (placesOf host s id) →
      store.Safe n Up Q (f ()) s₁) :
    store.Safe n Up Q (atomicWriteYaml p id data >>= f) s := by
  rw [atomicWriteYaml, Prog.bind_assoc]
  refine safe_on hup fun i _ s₁ hx hup₁ => ?_
  have hsame : placesOf host s₁ id = placesOf host s id :=
    placesOf_of_avoids (avoids_of rfl rfl fun _ h => Cmd.noConfusion h) hx
  obtain ⟨_, t, hy, -, hs₁⟩ := exec_of_up hup hx
  cases hy
  rw [Prog.bind_assoc]
  refine safe_on hup₁ fun i y s₂ hx₂ hup₂ => ?_
  obtain ⟨y', t₂, hy₂, he, -⟩ := exec_of_up hup₁ hx₂
  cases he
  obtain rfl : y = true := by
    subst hs₁
    simp only [SwarmLib.exec, Function.update_self, Table.find?_put, if_true] at hy₂
    exact (Prod.mk.inj (Option.some.inj hy₂)).1.symm
  refine h s₂ hup₂ ?_
  rw [← hsame]
  exact placesOf_write (p := p) (fires_of_exec (.reconcile host) hx₂) hp ⟨rfl, rfl⟩

/-- After a removal the file is gone, whether it was there or not. -/
theorem safe_removeYaml {p : Place} (hup : Up s) (hS : (placesOf host s id).erase p = S) :
    store.Safe n Up (fun _ => InPlaces host id S) (removeYaml p id) s := by
  refine safe_on hup fun i y s₁ hx hup₁ => ?_
  have hfires := fires_of_exec (.reconcile host) hx
  have hy : some y = some (decide (s.File p id)) := by
    rcases exec_remove hx with ⟨-, he⟩ | he
    · cases he
    · exact he
  obtain rfl := Option.some.inj hy
  by_cases hfile : s.File p id
  · have hgone : placesOf host s₁ id = (placesOf host s id).erase p :=
      placesOf_remove (p := p) hfires ⟨rfl, by simp [succeeded, hfile]⟩
    simp only [hfile, decide_true, if_true]
    exact ⟨hup₁, hgone.trans hS⟩
  · have hsame : placesOf host s₁ id = placesOf host s id := by
      refine placesOf_same hfires (fun q h => Option.some_ne_none _ h.1.symm) fun q h => hfile ?_
      simpa [succeeded] using h.2
    simp only [hfile, decide_false, Bool.false_eq_true, if_false]
    refine ⟨hup₁, hsame.trans ?_⟩
    rwa [Finset.erase_eq_of_notMem fun h => hfile (mem_placesOf.mp h).2] at hS

/-- `try … except OSError` around what ends with `A` in any case. -/
theorem safe_exceptOSError {A : State → Prop} {p : P α} {a : α}
    (h : store.Safe n Up (fun _ => A) p s) :
    store.Safe n Up (fun _ => A) (exceptOSError p fun _ => (.ret a : P α)) s := by
  refine safe_catch (safe_mono (fun r s hup hA => ?_) h)
  cases r with
  | ok _ => exact hA
  | error e =>
    simp only
    split <;> exact ⟨hup, hA⟩

/-- What is removed from the host's tree, whatever follows. -/
theorem safe_removed {p : Place} {b : α} (hup : Up s) (hS : (placesOf host s id).erase p = S) :
    store.Safe n Up (fun _ => InPlaces host id S)
      (removeYaml p id >>= fun _ => (.ret b : P α)) s := by
  refine safe_bind (safe_mono (fun r s hup hA => ?_) (safe_removeYaml hup hS))
  cases r with
  | ok _ => exact ⟨hup, hA⟩
  | error _ => exact hA

end Safe

theorem mem_places_share (host : String) (st : Stage) : (⟨.share, st⟩ : Place) ∈ places host := by
  cases st <;> simp [places]

theorem triple_of_safe {A B : State → Prop} {p : P α}
    (h : ∀ s, Up s → A s → store.Safe n Up (fun _ => B) p s) : store.Triple n Up A p fun _ => B :=
  fun s hup hA => safe_mono (fun r _ _ hB => by cases r with | ok _ => exact hB | error _ => trivial)
    (h s hup hA)

/-- A file of the host's tree is taken to the same stage of the share. -/
theorem reconcileFile_home :
    store.Triple n Up (InPlaces host id {⟨.home host, st⟩}) (reconcileFile host st id)
      fun _ => InPlaces host id {⟨.share, st⟩} := by
  refine triple_of_safe fun s hup hS => safe_exceptOSError (safe_exists hup ?_)
  have hshare : ¬ s.File ⟨.share, st⟩ id := fun h => by
    have hmem := mem_placesOf.mpr ⟨mem_places_share host st, h⟩
    rw [show placesOf host s id = _ from hS] at hmem
    simp at hmem
  have hhome : s.File ⟨.home host, st⟩ id := by
    have hmem : (⟨.home host, st⟩ : Place) ∈ placesOf host s id :=
      (show placesOf host s id = _ from hS) ▸ Finset.mem_singleton_self _
    exact (mem_placesOf.mp hmem).2
  simp only [hshare, decide_false, Bool.not_false, if_true]
  refine safe_read hup hhome fun data => safe_write hup (mem_places_share host st) fun s₁ hup₁ hs₁ => ?_
  refine safe_removed hup₁ ?_
  rw [hs₁, show placesOf host s id = _ from hS]
  ext q
  simp only [Finset.mem_erase, Finset.mem_insert, Finset.mem_singleton]
  constructor
  · rintro ⟨hne, rfl | rfl⟩
    · rfl
    · exact absurd rfl hne
  · rintro rfl
    exact ⟨by simp, Or.inl rfl⟩

/-- A file that is on the share stays there. -/
theorem reconcileFile_share :
    store.Triple n Up (InPlaces host id {⟨.share, st⟩}) (reconcileFile host st id)
      fun _ => InPlaces host id {⟨.share, st⟩} := by
  refine triple_of_safe fun s hup hS => safe_exceptOSError (safe_exists hup ?_)
  have hshare : s.File ⟨.share, st⟩ id := by
    have hmem : (⟨.share, st⟩ : Place) ∈ placesOf host s id :=
      (show placesOf host s id = _ from hS) ▸ Finset.mem_singleton_self _
    exact (mem_placesOf.mp hmem).2
  simp only [hshare, decide_true, Bool.not_true, Bool.false_eq_true, if_false]
  refine safe_removed hup ?_
  rw [show placesOf host s id = _ from hS]
  exact Finset.erase_eq_of_notMem (by simp)

/-! ## All files -/

theorem reconcileFiles_other : ∀ {ids : List String}, id ∉ ids →
    store.Triple n Up (InPlaces host id S) (reconcileFiles host st ids) fun _ => InPlaces host id S
  | [], _ => triple_ret fun _ _ h => h
  | id' :: ids, hid => by
    rw [List.mem_cons, not_or] at hid
    exact triple_bind (triple_avoids (each_reconcileFile (Ne.symm hid.1))) fun _ =>
      triple_bind (reconcileFiles_other hid.2) fun _ => triple_ret fun _ _ h => h

theorem reconcileFiles_share : ∀ ids : List String,
    store.Triple n Up (InPlaces host id {⟨.share, st⟩}) (reconcileFiles host st ids)
      fun _ => InPlaces host id {⟨.share, st⟩}
  | [] => triple_ret fun _ _ h => h
  | id' :: ids => by
    have hfile : store.Triple n Up (InPlaces host id {⟨.share, st⟩}) (reconcileFile host st id')
        fun _ => InPlaces host id {⟨.share, st⟩} := by
      by_cases hid : id' = id
      · exact hid ▸ reconcileFile_share
      · exact triple_avoids (each_reconcileFile hid)
    exact triple_bind hfile fun _ => triple_bind (reconcileFiles_share ids) fun _ =>
      triple_ret fun _ _ h => h

theorem reconcileFiles_home : ∀ {ids : List String}, id ∈ ids →
    store.Triple n Up (InPlaces host id {⟨.home host, st⟩}) (reconcileFiles host st ids)
      fun _ => InPlaces host id {⟨.share, st⟩}
  | [], hid => absurd hid List.not_mem_nil
  | id' :: ids, hid => by
    by_cases hne : id' = id
    · subst hne
      exact triple_bind reconcileFile_home fun _ => triple_bind (reconcileFiles_share ids) fun _ =>
        triple_ret fun _ _ h => h
    · have hrest : id ∈ ids := (List.mem_cons.mp hid).resolve_left (Ne.symm hne)
      exact triple_bind (triple_avoids (each_reconcileFile hne)) fun _ =>
        triple_bind (reconcileFiles_home hrest) fun _ => triple_ret fun _ _ h => h

/-- The files of the task that `glob` finds in the host's tree. -/
theorem mem_homeGlob (n : Nat) (i : Env) {ids : List String}
    (h : exec n i s (.homeGlob host st) = some (ids, s')) :
    s' = s ∧ (id ∈ ids ↔ s.File ⟨.home host, st⟩ id) := by
  cases h
  refine ⟨rfl, ?_⟩
  rw [State.File, Tree.File, List.mem_map]
  constructor
  · rintro ⟨row, hrow, rfl⟩
    rw [Table.find?_of_mem hrow]
    rfl
  · intro hfile
    obtain ⟨row, hrow⟩ := Option.isSome_iff_exists.mp hfile
    exact ⟨row, Table.find?_mem hrow, Table.find?_key hrow⟩

/-- One directory of the host's tree, and what follows. -/
theorem reconcileStage {p : Place} {f : List String → P α} {R : α → State → Prop}
    (hhome : (⟨.home host, st⟩ : Place) ∈ places host)
    (hf : ∀ a, store.Triple n Up
      (InPlaces host id {if p = ⟨.home host, st⟩ then ⟨.share, st⟩ else p}) (f a) R) :
    store.Triple n Up (InPlaces host id {p}) (do
      let ids ← cmd (.homeGlob host st)
      let moved ← reconcileFiles host st ids
      f moved) R := by
  refine triple_cmd (T := store) (c := Cmd.homeGlob host st)
    (fun (ids : List String) s => InPlaces host id {p} s ∧ (id ∈ ids ↔ p = ⟨.home host, st⟩))
    (fun i s ids s' hup hS hx => ?_) fun ids => ?_
  · obtain ⟨rfl, hmem⟩ := mem_homeGlob n i hx
    refine ⟨hup, hS, hmem.trans ?_⟩
    have hplaces : (⟨.home host, st⟩ : Place) ∈ placesOf host s' id ↔ _ := mem_placesOf
    rw [show placesOf host s' id = _ from hS, Finset.mem_singleton, and_iff_right hhome] at hplaces
    exact hplaces.symm.trans eq_comm
  · refine triple_assume fun hids => ?_
    split at hf
    · rename_i hp
      subst hp
      exact triple_bind (reconcileFiles_home (hids.mpr rfl)) hf
    · rename_i hp
      exact triple_bind (reconcileFiles_other fun h => hp (hids.mp h)) hf

/-- **A task goes to its stage on the share.** -/
theorem reconcileLocalTasks_moves {p : Place} (hp : p ∈ places host) :
    store.Triple n Up (InPlaces host id {p}) (reconcileLocalTasks host)
      fun _ => InPlaces host id {⟨.share, p.stage⟩} := by
  refine triple_cmd (T := store) (c := Cmd.healthy) (fun (up : Bool) s => InPlaces host id {p} s ∧ up = true)
    (fun i s up s' hup hS hx => ?_) fun up => triple_assume fun hup => ?_
  · cases hx
    exact ⟨hup, hS, hup⟩
  subst hup
  refine reconcileStage (by simp [places]) fun moved => reconcileStage (by simp [places]) fun rest => ?_
  refine triple_ret fun s _ hS => hS.trans ?_
  simp only [places, Finset.mem_insert, Finset.mem_singleton] at hp
  rcases hp with rfl | rfl | rfl | rfl | rfl | rfl <;> simp

/-! ## After careful runs -/

/-- **One stage for each task.** In every careful run of one host, from a state with each task in one
place at most, once no call is in progress and the share is healthy, a reconcile leaves every task that
was there or has been created in exactly one stage of the share, and there completed if `complete_task`
returned for it. -/
theorem one_stage_after_reconcile {host : String} {s s' : State} {c : Config system} {n : Nat}
    {moved : List String} {id : String} (hs : ∀ id, (placesOf host s id).card ≤ 1)
    (h : Run (Careful host) (.init s) c) (hq : c.Quiescent) (hup : Up c.world.state)
    (hr : store.Runs n (reconcileLocalTasks host) c.world.state (.ok moved) s')
    (hk : Known host s id c.world) :
    ∃ st, st ≠ .decomposed ∧ (∀ st', s'.File ⟨.share, st'⟩ id ↔ st' = st) ∧
      ∀ m artifact task, c.Returned m (.complete host id artifact) task → st = .completed := by
  have hnone : ∀ id st, ¬ Landed st id ⟨s, []⟩ := fun id st ⟨_, he, _⟩ => absurd he List.not_mem_nil
  have hinit : (moving host s).Inv ⟨s, []⟩ := fun id =>
    ⟨fun _ => hs id, fun _ h => h.elim, fun _ _ h => h.elim,
      fun hk => hk.elim (fun h => h) fun ⟨st, hl⟩ => absurd hl (hnone id st),
      fun _ hl => absurd hl (hnone id _)⟩
  have hsound := run_sound (D := moving host s) (Q := Ends host) prog_ends hinit h
  have hstill : ∀ n, ¬ Moving n id c.world := by
    intro n hn
    cases hproc : c.proc n with
    | none => exact openIn_of_untouched (S := ∅) (untouched_of_run h hproc) id hn
    | some call =>
      obtain ⟨r, hr⟩ := hq.ended hproc
      exact (idle_of_ends (hsound.ended hr)) id hn
  have hplaced := hsound.inv id
  obtain ⟨p, hp, hforward⟩ := hplaced.kept hk
  have hS : placesOf host c.world.state id = {p} :=
    Finset.eq_singleton_iff_unique_mem.mpr
      ⟨hp, fun q hq => Finset.card_le_one.mp (hplaced.still hstill) q hq p hp⟩
  have hafter : placesOf host s' id = {⟨.share, p.stage⟩} :=
    (reconcileLocalTasks_moves (mem_placesOf.mp hp).1).runs hup hS hr
  refine ⟨p.stage, hforward, fun st' => ?_, fun m artifact task hret => ?_⟩
  · have hmem : (⟨.share, st'⟩ : Place) ∈ placesOf host s' id ↔ _ := mem_placesOf
    rw [hafter, Finset.mem_singleton, and_iff_right (mem_places_share host st')] at hmem
    rw [← hmem]
    simp
  · have hend := hsound.returned hret
    rw [Ends, if_pos rfl] at hend
    exact hplaced.completed hstill hend.2 p hp

/-! ## An outage -/

/-- No tasks, and a healthy share. -/
def noTasks : State := ⟨fun _ => .ofFiles fun _ => .empty, ⟨true, fun _ => false⟩⟩

theorem noTasks_places (id : String) : (placesOf "a" noTasks id).card ≤ 1 := by
  have hnone : placesOf "a" noTasks id = ∅ := Finset.filter_false_of_mem fun p _ => Bool.false_ne_true
  simp [hnone]

/-- What every command reads. -/
def outside : Env := ⟨"a", "1970-01-01T00:00:00Z", []⟩

/-- A task is created, and claimed while the share fails as `raises` says. -/
def claimInOutage (raises : SwarmLib.Cmd → Bool) : List (Act system) :=
  solo system 0 (.create "a" "t" "" "" "medium" [] 0) 12 outside ++
    solo system 1 (.weather ⟨false, raises⟩) 1 outside ++
    solo system 2 (.claim "a" "task-001") 17 outside ++
    solo system 3 (.weather ⟨true, raises⟩) 1 outside

/-- Nothing can be written or removed. -/
def readOnly : SwarmLib.Cmd → Bool
  | .rename _ _ | .remove _ _ => true
  | _ => false

/-- Nothing can be written. -/
def full : SwarmLib.Cmd → Bool
  | .rename _ _ => true
  | _ => false

/-- Only the one host is at work. -/
def OneHost (host : String) : Guard system := fun _ _ o _ => o.OnHost host

instance (host : String) (w : World system) (n : Nat) (o : Op) (c : Cmd) :
    Decidable (OneHost host w n o c) :=
  inferInstanceAs (Decidable (o.OnHost host))

/-- The host takes its files back, and then `t` holds. -/
def takesBack (t : State → Bool) (s : State) : Bool :=
  match store.runWith 4 (reconcileLocalTasks "a") (List.replicate 9 outside) s with
  | some (.ok _, s') => t s'
  | _ => false

theorem runs_of_takesBack {t : State → Bool} (h : takesBack t s = true) :
    ∃ moved s', store.Runs 4 (reconcileLocalTasks "a") s (.ok moved) s' ∧ t s' = true := by
  rw [takesBack] at h
  split at h
  · rename_i moved s' hrun
    exact ⟨moved, s', runs_of_runWith _ _ hrun, h⟩
  · cases h

/-- Whether the event created the task. -/
def created (e : Event system) : Bool :=
  e.cmd.puts = some (⟨.share, .pending⟩, "task-001") && succeeded e.cmd e.resp

theorem known_of_created {s₀ : State} {c : Config system} (h : c.world.trace.any created = true) :
    Known host s₀ "task-001" c.world := by
  obtain ⟨e, he, hc⟩ := List.any_eq_true.mp h
  rw [created, Bool.and_eq_true, decide_eq_true_eq] at hc
  exact Or.inr ⟨.pending, e, he, .share, hc⟩

/-- The task is claimed while nothing can be written or removed on the share: after the reconcile it is
both pending and claimed. -/
theorem forked_claim : ∃ (s s' : State) (c : Config system) (n : Nat) (moved : List String),
    (∀ id, (placesOf "a" s id).card ≤ 1) ∧ Run (OneHost "a") (.init s) c ∧ c.Quiescent ∧
      Up c.world.state ∧ store.Runs n (reconcileLocalTasks "a") c.world.state (.ok moved) s' ∧
      Known "a" s "task-001" c.world ∧
      s'.File ⟨.share, .pending⟩ "task-001" ∧ s'.File ⟨.share, .claimed⟩ "task-001" := by
  have hplay : (play (OneHost "a") (.init noTasks) (claimInOutage readOnly)).any (fun c =>
      (starts (claimInOutage readOnly)).all c.atRest && (c.world.state.health.up &&
        c.world.trace.any created && takesBack (fun s' =>
          decide (s'.File ⟨.share, .pending⟩ "task-001" ∧ s'.File ⟨.share, .claimed⟩ "task-001"))
          c.world.state)) = true := by
    decide +kernel
  obtain ⟨c, hrun, hq, hc⟩ := exists_quiescent_of_play hplay
  rw [Bool.and_eq_true, Bool.and_eq_true] at hc
  obtain ⟨moved, s', hruns, hs'⟩ := runs_of_takesBack hc.2
  exact ⟨noTasks, s', c, 4, moved, noTasks_places, hrun, hq, hc.1.1, hruns, known_of_created hc.1.2,
    of_decide_eq_true hs'⟩

/-- Claimed while nothing can be written, the task is in one stage. -/
theorem one_stage_after_reconcile_full : ∃ (c : Config system) (s' : State),
    Run (Careful "a") (.init noTasks) c ∧ c.Quiescent ∧
      (∃ moved, store.Runs 4 (reconcileLocalTasks "a") c.world.state (.ok moved) s') ∧
      ∃ st, st ≠ .decomposed ∧ (∀ st', s'.File ⟨.share, st'⟩ "task-001" ↔ st' = st) ∧
        ∀ m artifact task, c.Returned m (.complete "a" "task-001" artifact) task →
          st = .completed := by
  have hplay : (play (Careful "a") (.init noTasks) (claimInOutage full)).any (fun c =>
      (starts (claimInOutage full)).all c.atRest && (c.world.state.health.up &&
        c.world.trace.any created && takesBack (fun _ => true) c.world.state)) = true := by
    decide +kernel
  obtain ⟨c, hrun, hq, hc⟩ := exists_quiescent_of_play hplay
  rw [Bool.and_eq_true, Bool.and_eq_true] at hc
  obtain ⟨moved, s', hruns, -⟩ := runs_of_takesBack hc.2
  exact ⟨c, s', hrun, hq, ⟨moved, hruns⟩,
    one_stage_after_reconcile noTasks_places hrun hq hc.1.1 hruns (known_of_created hc.1.2)⟩

end ClaudeSwarm.Outage
