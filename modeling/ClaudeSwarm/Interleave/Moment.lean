import ClaudeSwarm.Interleave.Outline

/-!
# The moments of a call

A part `l` of the history, from some event back to the first, is a moment: the world as it was when that was all that
had happened. `Since n l w` says that call `n` had begun by then, `During n l w` that it also went on after it.

* `Since.own`: a moment since the call began is one during the call once the call does something more.
* **`exists_config_of_during`**: a moment during a call is a configuration the run went through in which the call was in
  progress.
-/

namespace ClaudeSwarm.Interleave

variable {M : System} {n : Nat} {l l' : List (Event M)} {w w' : World M} {e : Event M}

/-- A moment at which call `n` had begun. -/
structure Since (n : Nat) (l : List (Event M)) (w : World M) : Prop where
  past : l <:+ w.trace
  begun : ∃ e ∈ l, e.call = n

/-- A moment at which call `n` had begun and had something left to do. -/
structure During (n : Nat) (l : List (Event M)) (w : World M) : Prop extends Since n l w where
  later : ∃ e l', e.call = n ∧ l <:+ l' ∧ e :: l' <:+ w.trace

theorem suffix_of_fires (hf : Fires w e w') : w.trace <:+ w'.trace := hf.2 ▸ List.suffix_cons e w.trace

theorem lasting_suffix : Lasting fun w : World M => l <:+ w.trace :=
  fun _ _ _ hf h => h.trans (suffix_of_fires hf)

theorem lasting_since : Lasting fun w : World M => Since n l w :=
  fun w e w' hf h => ⟨lasting_suffix w e w' hf h.past, h.begun⟩

theorem lasting_during : Lasting fun w : World M => During n l w := by
  rintro w e w' hf ⟨hsince, e', l', hcall, hl, hlater⟩
  exact ⟨lasting_since w e w' hf hsince, e', l', hcall, hl, lasting_suffix w e w' hf hlater⟩

/-- The moment right after a command of the call. -/
theorem since_now (hf : Fires w e w') (hn : e.call = n) : Since n w'.trace w' :=
  ⟨List.suffix_rfl, e, hf.2 ▸ List.mem_cons_self, hn⟩

/-- A later moment. -/
theorem Since.mono (h : Since n l w) (hl : l <:+ l') (hw : l' <:+ w.trace) : Since n l' w := by
  obtain ⟨e, he, hn⟩ := h.begun
  exact ⟨hw, e, hl.subset he, hn⟩

/-- The call did something more. -/
theorem Since.own (h : Since n l w) (hf : Fires w e w') (hn : e.call = n) : During n l w' :=
  ⟨lasting_since w e w' hf h, e, w.trace, hn, h.past, hf.2 ▸ List.suffix_rfl⟩

/-- Every part of a run's history was once the whole of it. -/
theorem exists_config_of_suffix {G : Guard M} {a c : Config M} (h : Run G a c) (hl : l <:+ c.world.trace)
    (ha : a.world.trace <:+ l) : ∃ c₁, Run G a c₁ ∧ Run G c₁ c ∧ c₁.world.trace = l := by
  induction h with
  | refl => exact ⟨a, .refl, .refl, ha.eq_of_length_le hl.length_le⟩
  | start o _ hn ih =>
    obtain ⟨c₁, hbefore, hafter, htrace⟩ := ih hl
    exact ⟨c₁, hbefore, hafter.start o hn, htrace⟩
  | step h hn hg hf ih =>
    rw [hf.2, List.suffix_cons_iff] at hl
    rcases hl with rfl | hl
    · exact ⟨_, h.step hn hg hf, .refl, hf.2⟩
    · obtain ⟨c₁, hbefore, hafter, htrace⟩ := ih hl
      exact ⟨c₁, hbefore, hafter.step hn hg hf, htrace⟩

/-- A call that ended does nothing more. -/
theorem mine_of_ended {G : Guard M} {a c : Config M} (h : Run G a c) {o : M.Op} {r : Except M.Err (M.Ret o)}
    (hr : a.Ended n o r) : c.Ended n o r ∧ mine n c.world = mine n a.world := by
  induction h with
  | refl => exact ⟨hr, rfl⟩
  | @start c m o' _ hm ih =>
    have hne : n ≠ m := by
      rintro rfl
      rw [ih.1] at hm
      cases hm
    refine ⟨?_, ih.2⟩
    have hproc : (c.start m o').proc n = c.proc n := by simp [Config.start, Function.update_of_ne hne]
    exact hproc.trans ih.1
  | @step c m o' cmd k x w' _ hm _ hf ih =>
    have hne : n ≠ m := by
      rintro rfl
      rw [ih.1] at hm
      cases r <;> cases hm
    refine ⟨?_, (mine_other hf hne.symm).trans ih.2⟩
    exact (Function.update_of_ne hne _ _).trans ih.1

theorem mine_length_lt (h : e :: l <:+ w.trace) (hn : e.call = n) :
    (l.filter fun e => e.call == n).length < (mine n w).length := by
  have hsub : ((e :: l).filter fun e => e.call == n).Sublist (mine n w) := h.sublist.filter _
  have hlength := hsub.length_le
  rw [List.filter_cons_of_pos (by simpa using hn), List.length_cons] at hlength
  omega

/-- **Moments.** A moment during a call was reached with the call in progress. -/
theorem exists_config_of_during {G : Guard M} {s : M.store.State} {c : Config M} (h : Run G (.init s) c)
    (hl : During n l c.world) : ∃ c₁, Run G (.init s) c₁ ∧ Run G c₁ c ∧ c₁.world.trace = l ∧
      ∃ o cmd k, c₁.proc n = some ⟨o, .op cmd k⟩ := by
  obtain ⟨⟨hpast, e, he, hn⟩, e', l', hn', hl', hlater⟩ := hl
  obtain ⟨c₁, hbefore, hafter, rfl⟩ := exists_config_of_suffix h hpast List.nil_suffix
  refine ⟨c₁, hbefore, hafter, rfl, ?_⟩
  obtain ⟨p, hp⟩ := run_event hbefore e he
  rw [hn] at hp
  have hlength : (mine n c₁.world).length < (mine n c.world).length := by
    have hsub : (mine n c₁.world).Sublist (l'.filter fun e => e.call == n) := hl'.sublist.filter _
    exact Nat.lt_of_le_of_lt hsub.length_le (mine_length_lt hlater hn')
  cases p with
  | ret a =>
    have hsame := (mine_of_ended hafter (r := .ok a) hp).2
    rw [hsame] at hlength
    exact absurd hlength (Nat.lt_irrefl _)
  | raise x =>
    have hsame := (mine_of_ended hafter (r := .error x) hp).2
    rw [hsame] at hlength
    exact absurd hlength (Nat.lt_irrefl _)
  | op cmd k => exact ⟨_, cmd, k, hp⟩

end ClaudeSwarm.Interleave
