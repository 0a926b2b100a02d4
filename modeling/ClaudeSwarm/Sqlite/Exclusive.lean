import ClaudeSwarm.Interleave.History
import ClaudeSwarm.Sqlite.Protocol

/-!
# No task is booked twice

`Entry.Takes` and `Entry.Frees` read the log of committed statements as a history of each task: a
claim that changed its row takes it, a requeue that changed its row gives it back. The invariant
(`Booked`) ties that history to the table: the claims of a task alternate with its releases, and a
task that is held has a row which is not pending. It holds of the committed log and table, and of
the open transaction on top of them (`Exclusive`).

* `Booked.run`: an allowed statement keeps it.
* `exclusive_effect`: so does every command.
* **`claims_separated`**: between two claims of a task there is a requeue of it.
-/

namespace ClaudeSwarm.Sqlite

open Interleave Data

/-- `e` claimed `id`. -/
def Entry.Takes (e : Entry) (id : String) : Prop :=
  (∃ claimer now, e.stmt = .claim claimer now id) ∧ 0 < e.rows

/-- `e` put `id` back, by `requeue` or `requeue_stale`. -/
def Entry.Frees (e : Entry) (id : String) : Prop :=
  (e.stmt = .requeue id ∨ e.stmt = .requeueStale id) ∧ 0 < e.rows

/-- A table in which the history `log` of `id` shows. -/
structure Booked (id : String) (log : List Entry) (t : Tasks) : Prop where
  alternating : Alternating Entry.Takes Entry.Frees id log
  held : Held Entry.Takes Entry.Frees id log → ∃ r, t.find? id = some r ∧ r.state ≠ .pending

variable {id : String} {log : List Entry} {t t' : Tasks} {n k : Nat}

/-- An update that is about other rows, or leaves this one with a state other than `pending`. -/
theorem Booked.update {st : Stmt} (h : Booked id log t)
    (ht : ¬ (⟨n, st, k⟩ : Entry).Takes id) (hf : ¬ (⟨n, st, k⟩ : Entry).Frees id)
    (hs : ∀ r, t.find? id = some r → st.selects r = true → (st.assign r).state ≠ .pending) :
    Booked id (⟨n, st, k⟩ :: log) (t.update st.selects st.assign st.assign_id) := by
  refine ⟨⟨h.alternating, fun h' => absurd h' ht⟩, fun hh => ?_⟩
  obtain ⟨r, hr, hne⟩ := h.held ((held_cons_iff ht hf).mp hh)
  rw [Table.find?_update, hr, Option.map_some]
  refine ⟨_, rfl, ?_⟩
  split
  · exact hs r hr ‹_›
  · exact hne

/-- A statement that changed no row selects none. -/
theorem not_selected_of_count {p : Row → Bool} {r : Row} (h : t.count p = 0)
    (hr : t.find? id = some r) : p r = false := by
  simpa using List.countP_eq_zero.mp h r (Table.find?_mem hr)

/-- A statement that puts its row back to `pending`. -/
theorem Booked.requeue {st : Stmt} (h : Booked id log t) (id' : String)
    (hst : ∀ id, (st = .requeue id ∨ st = .requeueStale id) ↔ id = id')
    (hsel : ∀ r, st.selects r = true → r.id = id')
    (ht : ¬ (⟨n, st, t.count st.selects⟩ : Entry).Takes id) :
    Booked id (⟨n, st, t.count st.selects⟩ :: log) (t.update st.selects st.assign st.assign_id) := by
  by_cases hf : (⟨n, st, t.count st.selects⟩ : Entry).Frees id
  · exact ⟨⟨h.alternating, fun h' => absurd h' ht⟩, fun hh => absurd hf (hh.resolve_left ht).2⟩
  · refine h.update ht hf fun r hr hsr => absurd ⟨?_, ?_⟩ hf
    · exact (hst id).mpr (by rw [← hsel r hsr, Table.find?_key hr])
    · refine Nat.pos_of_ne_zero fun h0 => ?_
      rw [not_selected_of_count h0 hr] at hsr
      cases hsr

/-- **Statements.** An allowed statement keeps the history and the table in step. -/
theorem Booked.run {st : Stmt} (h : Booked id log t) (ha : st.Allowed t)
    (hr : st.run t = some (k, t')) : Booked id (⟨n, st, k⟩ :: log) t' := by
  cases st with
  | insert r =>
    obtain ⟨t₁, hi, hk⟩ := Option.map_eq_some_iff.mp hr
    cases hk
    have ht : ¬ (⟨n, .insert r, 1⟩ : Entry).Takes id := by
      rintro ⟨⟨_, _, h⟩, -⟩
      cases h
    have hf : ¬ (⟨n, .insert r, 1⟩ : Entry).Frees id := by
      rintro ⟨h | h, -⟩ <;> cases h
    refine ⟨⟨h.alternating, fun h' => absurd h' ht⟩, fun hh => ?_⟩
    obtain ⟨r', hr', hne⟩ := h.held ((held_cons_iff ht hf).mp hh)
    exact ⟨r', Table.find?_insert_of_some hi hr', hne⟩
  | claim claimer now id' =>
    cases hr
    obtain ⟨r, hfind, hp⟩ := ha
    by_cases hid : id' = id
    · subst hid
      refine ⟨⟨h.alternating, fun _ hh => ?_⟩, fun _ => ?_⟩
      · obtain ⟨r', hr', hne⟩ := h.held hh
        obtain rfl := Option.some.inj (hfind.symm.trans hr')
        exact hne hp
      · rw [Table.find?_update, hfind, Option.map_some]
        refine ⟨_, rfl, ?_⟩
        simp [Stmt.selects, Stmt.assign, Table.find?_key hfind]
    · refine h.update ?_ ?_ fun r _ _ => by simp [Stmt.assign]
      · rintro ⟨⟨_, _, h⟩, -⟩
        cases h
        exact hid rfl
      · rintro ⟨h | h, -⟩ <;> cases h
  | requeue id' =>
    cases hr
    refine h.requeue id' (fun id => ⟨?_, fun h => Or.inl (h ▸ rfl)⟩) (fun r hs => ?_) ?_
    · rintro (h | h) <;> cases h
      rfl
    · simp only [Stmt.selects, Bool.and_eq_true, beq_iff_eq] at hs
      exact hs.1
    · rintro ⟨⟨_, _, h⟩, -⟩
      cases h
  | requeueStale id' =>
    cases hr
    refine h.requeue id' (fun id => ⟨?_, fun h => Or.inr (h ▸ rfl)⟩) (fun r hs => ?_) ?_
    · rintro (h | h) <;> cases h
      rfl
    · simpa only [Stmt.selects, beq_iff_eq] using hs
    · rintro ⟨⟨_, _, h⟩, -⟩
      cases h
  | transition id' newState validFrom set =>
    cases hr
    refine h.update ?_ ?_ fun r _ _ => ?_
    · rintro ⟨⟨_, _, h⟩, -⟩
      cases h
    · rintro ⟨h | h, -⟩ <;> cases h
    · rw [Stmt.assign, (foldl_assign set _).2.1]
      exact ha.1

/-- The history of `id` shows in the committed table, and in the open transaction. -/
structure Exclusive (id : String) (s : Db) : Prop where
  committed : Booked id s.log s.table
  open_ : ∀ t, s.txn = some t → Booked id (t.done ++ s.log) t.view

/-- **Commands.** -/
theorem exclusive_effect {s s' : Db} {c : Cmd} (h : Exclusive id s)
    (ha : ∀ st, c = .execute st → st.Allowed (s.view n)) (he : Effect n s c s') :
    Exclusive id s' := by
  cases he with
  | same => exact h
  | begin_ ht =>
    refine ⟨h.committed, fun t ht' => ?_⟩
    cases ht'
    exact h.committed
  | @write st t k view ht hr =>
    refine ⟨h.committed, fun t' ht' => ?_⟩
    cases ht'
    have hb : Booked id (t.done ++ s.log) t.view := by
      rcases ht with ⟨ht, -⟩ | ⟨-, rfl⟩
      · exact h.open_ t ht
      · exact h.committed
    exact hb.run (Db.view_of_open ht ▸ ha st rfl) hr
  | commit ht ho =>
    exact ⟨by simpa [Db.log] using h.open_ _ ht, fun t h => by cases h⟩
  | abandon => exact ⟨h.committed, fun t h => by cases h⟩

/-- The invariant of every run. -/
theorem run_exclusive {c : Config system} (h : Run Free (opened t) c) :
    Exclusive id c.world.state := by
  refine run_inv (I := fun w => Exclusive id w.state) (fun w e w' hi hg hf => ?_) ?_ (run_allowed h)
  · obtain ⟨i, hx⟩ := hf.1
    refine exclusive_effect hi (fun st hst => ?_) (effect_of_exec hx)
    have ha := hg.2
    unfold Allowed at ha
    rw [hst] at ha
    exact ha
  · exact ⟨⟨trivial, False.elim⟩, fun t h => by cases h⟩

/-- **No double booking.** Whatever the clients and the interleaving, between two claims of a task
in the log of committed statements (newest first) there is a requeue of that task. -/
theorem claims_separated {c : Config system} {a b d : List Entry} {e₁ e₂ : Entry}
    (h : Run Free (opened t) c) (hlog : c.world.state.log = a ++ e₂ :: (b ++ e₁ :: d))
    (h₁ : e₁.Takes id) (h₂ : e₂.Takes id) : ∃ e ∈ b, e.Frees id :=
  separated (hlog ▸ (run_exclusive h).committed.alternating) h₁ h₂

/-- One client claims `a`, `a` is requeued, another client claims it. -/
def reclaim : List (Act system) :=
  solo system 0 (.claim "x" none) 7 ⟨2, "u", "h", false⟩ ++
    solo system 1 (.requeue "a") 4 ⟨3, "u", "h", false⟩ ++
    solo system 2 (.claim "y" (some "a")) 7 ⟨4, "u", "h", false⟩

theorem reclaim_plays :
    (play Free (opened ⟨[{ id := "a", title := "t" }], by decide⟩) reclaim).isSome := by
  decide +kernel

theorem claims_separated_reclaim :
    ∃ e ∈ [(⟨1, .requeue "a", 1⟩ : Entry)], e.Frees "a" := by
  have hlog : (played Free _ reclaim reclaim_plays).world.state.log =
      [] ++ ⟨2, .claim "y" 4 "a", 1⟩ :: ([⟨1, .requeue "a", 1⟩] ++ ⟨0, .claim "x" 2 "a", 1⟩ :: []) := by
    decide +kernel
  exact claims_separated (run_played reclaim_plays) hlog ⟨⟨"x", 2, rfl⟩, by decide⟩
    ⟨⟨"y", 4, rfl⟩, by decide⟩

end ClaudeSwarm.Sqlite
