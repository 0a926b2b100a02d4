import ClaudeSwarm.Hydra.Dispatch

/-!
# What a running session uses

A background dispatch gives its GPUs back and merges its worktree when it has started its process, not when
the process has ended (`released_while_running`).

* `Backed`: the GPUs of a process are allocated by the dispatch that started it, nobody else is granted them,
  and its worktree is there and not merged.
* `Waits`: no call gives anything back while a background process it has started is running.
* `Has`: the rows and the worktree a dispatch has are its own, whatever the other calls do.
* `schedule_outline`, `dispatch_outline`: what the scheduler grants is the call's own, and a dispatch gives back
  only that.
* **`follows_of_waits`**: where dispatches wait, what a running session uses stays with it.
-/

namespace ClaudeSwarm.Hydra.Dispatch

open Interleave Data
open Gpu (ScheduleResult Scheduler)

variable {S : Setup}

/-! ## What is promised -/

/-- The row an event has inserted. -/
def insertedRow : Event (system S) → Option Nat
  | ⟨_, _, .gpu c, x⟩ => Gpu.Atomic.insertedBy c x
  | _ => none

/-- Call `n` has inserted the row. -/
def Inserted (n id : Nat) (w : World (system S)) : Prop := ∃ e ∈ w.trace, e.call = n ∧ insertedRow e = some id

/-- The GPU is allocated once, by call `n` for the task. -/
def OwnGpu (n : Nat) (task : String) (slot : Gpu.Slot) (w : World (system S)) : Prop :=
  ∃ a, w.state.gpu.allocations.active slot = [a] ∧ a.taskId = task ∧ Inserted n a.id w

/-- The worktree is there, and was made for call `n`. -/
def OwnTree (n : Nat) (key : String × String) (merged : Bool) (w : World (system S)) : Prop :=
  ∃ t, w.state.worktrees.find? key = some t ∧ t.call = n ∧ t.merged = merged

/-- The process of a background dispatch has not ended, and the record says that it is running. -/
def State.Uses (s : State) (sess : Session) : Prop :=
  sess ∈ s.sessions.rows ∧ sess.background = true ∧ sess.ended = false ∧
    s.records sess.dispatchId = some "running"

/-- What a process has been given is its own. -/
structure Backed (w : World (system S)) (sess : Session) : Prop where
  allocated : ∀ slot ∈ sess.gpus, OwnGpu sess.call sess.dispatchId slot w
  refused : ∀ slot ∈ sess.gpus, ∀ n i task model vram x s',
    Gpu.Atomic.exec S.text n i w.state.gpu (.allocateGpu slot task model vram) = some (x, s') → x = none
  unmerged : ∀ key ∈ sess.worktree, OwnTree sess.call key false w

/-- Resources follow the running sessions. -/
def Follows (S : Setup) (G : Guard (system S)) : Prop :=
  ∀ s c, s.sessions = .empty → Run G (.init s) c → ∀ sess, c.world.state.Uses sess → Backed c.world sess

/-- A command of the clean-up. -/
def Cmd.CleansUp : Cmd → Prop
  | .gpu (.releaseGpu _) | .merge _ | .cleanup _ => True
  | _ => False

/-- A background process that call `n` has started has ended. -/
def State.Idle (s : State) (n : Nat) : Prop :=
  ∀ sess ∈ s.sessions.find? n, sess.background = true → sess.ended = true

/-- The runs in which no call gives anything back while a background process it has started is running. -/
def Waits (S : Setup) : Guard (system S) := fun w n _ c => c.CleansUp → w.state.Idle n

/-! ## What a command does -/

section

variable {w w' : World (system S)} {e : Event (system S)}

/-- **GPUs.** The allocations stay as they are, a GPU that was free is allocated, or one is released. -/
theorem gpu_cases (hf : Fires w e w') :
    (w'.state.gpu.allocations = w.state.gpu.allocations ∧ insertedRow e = none ∧
      ∀ slot, e.cmd ≠ .gpu (.releaseGpu slot)) ∨
    (∃ r : Gpu.Allocations.Request, w.state.gpu.Free r.slot ∧ w'.state.gpu = w.state.gpu.insert r ∧
      e.cmd = .gpu (.allocateGpu r.slot r.taskId r.modelName r.vramRequiredMb) ∧
      insertedRow e = some (w.state.gpu.allocations.sequence + 1)) ∨
    ∃ slot time, e.cmd = .gpu (.releaseGpu slot) ∧ w'.state.gpu = w.state.gpu.release slot time ∧
      insertedRow e = none := by
  obtain ⟨n, o, c, x⟩ := e
  obtain ⟨⟨i, hx⟩, -⟩ := hf
  simp only at hx
  generalize w'.state = s' at hx
  cases c with
  | gpu c =>
    obtain ⟨⟨y, t'⟩, hy, he⟩ := Option.map_eq_some_iff.mp hx
    cases he
    rcases Gpu.Atomic.exec_cases (n := n) hy with ⟨hs, hi, hne⟩ | ⟨r, hfree, hs, hc, hi⟩ | ⟨slot, time, hc, hs, hi⟩
    · exact Or.inl ⟨hs, hi, fun slot hc => hne slot (Cmd.gpu.inj hc)⟩
    · exact Or.inr (Or.inl ⟨r, hfree, hs, congrArg Cmd.gpu hc, hi⟩)
    · exact Or.inr (Or.inr ⟨slot, time, congrArg Cmd.gpu hc, hs, hi⟩)
  | warmHost | isdir | record | popen | exit =>
    cases hx
    exact Or.inl ⟨rfl, rfl, by simp⟩
  | cleanup key =>
    cases hx
    refine Or.inl ⟨?_, rfl, by simp⟩
    split <;> rfl
  | addWorktree | merge =>
    simp only [exec] at hx
    split at hx <;> cases hx <;> exact Or.inl ⟨rfl, rfl, by simp⟩
  | wait =>
    simp only [exec] at hx
    split at hx
    · split at hx <;> cases hx <;> exact Or.inl ⟨rfl, rfl, by simp⟩
    · cases hx

/-- **Worktrees.** One that is there stays as it is until it is merged or removed. -/
theorem find?_of_fires {key : String × String} {t : Worktree} (hf : Fires w e w')
    (ht : w.state.worktrees.find? key = some t) (hmerge : e.cmd ≠ .merge key) (hclean : e.cmd ≠ .cleanup key) :
    w'.state.worktrees.find? key = some t := by
  obtain ⟨n, o, c, x⟩ := e
  obtain ⟨⟨i, hx⟩, -⟩ := hf
  simp only at hx hmerge hclean
  generalize w'.state = s' at hx
  cases c with
  | gpu c =>
    obtain ⟨⟨y, t'⟩, -, he⟩ := Option.map_eq_some_iff.mp hx
    cases he
    exact ht
  | warmHost | isdir | record | popen | exit =>
    cases hx
    exact ht
  | cleanup key' =>
    cases hx
    split
    · rw [Table.find?_erase, if_neg (show key ≠ key' from fun he => hclean (he ▸ rfl))]
      exact ht
    · exact ht
  | addWorktree host path repo branch =>
    simp only [exec] at hx
    split at hx <;> cases hx
    · rename_i hnone
      rw [Table.find?_put, if_neg]
      · exact ht
      · intro he
        rw [he, hnone.2] at ht
        cases ht
    · exact ht
  | merge key' =>
    simp only [exec] at hx
    split at hx <;> cases hx
    · rw [Table.find?_update_of_not fun r hr => ?_]
      · exact ht
      · rw [show r.key = key from hr]
        simpa using fun he : key = key' => hmerge (he ▸ rfl)
    · exact ht
  | wait =>
    simp only [exec] at hx
    split at hx
    · split at hx <;> cases hx <;> exact ht
    · cases hx

/-- **Sessions.** A process that has not ended was there, or has just been started. -/
theorem session_of_fires {sess : Session} (hf : Fires w e w') (hs : sess ∈ w'.state.sessions.rows)
    (hend : sess.ended = false) : sess ∈ w.state.sessions.rows ∨
      sess.call = e.call ∧ e.cmd = .popen sess.dispatchId sess.background sess.gpus sess.worktree := by
  have hfinish : ∀ {s : State} {n : Nat}, sess ∈ (s.finish n).sessions.rows → sess ∈ s.sessions.rows := by
    intro s n h
    obtain ⟨sess', hmem, he⟩ := List.mem_map.mp h
    split at he
    · rw [← he] at hend
      cases hend
    · rwa [← he]
  obtain ⟨n, o, c, x⟩ := e
  obtain ⟨⟨i, hx⟩, -⟩ := hf
  simp only at hx
  generalize w'.state = s' at hx hs
  cases c with
  | gpu c =>
    obtain ⟨⟨y, t'⟩, -, he⟩ := Option.map_eq_some_iff.mp hx
    cases he
    exact Or.inl hs
  | warmHost | isdir | record =>
    cases hx
    exact Or.inl hs
  | exit =>
    cases hx
    exact Or.inl (hfinish hs)
  | popen id background gpus worktree =>
    cases hx
    rcases Table.mem_put.mp hs with ⟨hmem, -⟩ | rfl
    · exact Or.inl hmem
    · exact Or.inr ⟨rfl, rfl⟩
  | cleanup key =>
    cases hx
    split at hs <;> exact Or.inl hs
  | addWorktree | merge =>
    simp only [exec] at hx
    split at hx <;> cases hx <;> exact Or.inl hs
  | wait =>
    simp only [exec] at hx
    split at hx
    · split at hx <;> cases hx
      · exact Or.inl hs
      · exact Or.inl (hfinish hs)
    · cases hx

end

/-! ## What is a call's own -/

/-- The GPUs and the worktree are call `n`'s own. -/
structure Has (n : Nat) (task : String) (slots : List Gpu.Slot) (tree : Option (String × String))
    (w : World (system S)) : Prop where
  nodup : slots.Nodup
  gpus : ∀ slot ∈ slots, OwnGpu n task slot w
  worktree : ∀ key ∈ tree, OwnTree n key false w

/-- A call gives back, and gives to its process, only what is its own. -/
structure Owned (w : World (system S)) (e : Event (system S)) : Prop where
  gpu : ∀ slot, e.cmd = .gpu (.releaseGpu slot) → ∀ a ∈ w.state.gpu.allocations.active slot, Inserted e.call a.id w
  worktree : ∀ key, e.cmd = .merge key ∨ e.cmd = .cleanup key → ∃ merged, OwnTree e.call key merged w
  begun : ∀ id background slots tree, e.cmd = .popen id background slots tree → Has e.call id slots tree w

/-- The rows have been numbered, each was inserted by one call, and what the background processes have been given
is their own. -/
structure Inv (w : World (system S)) : Prop where
  numbered : ∀ n id, Inserted n id w → id ≤ w.state.gpu.allocations.sequence
  unique : ∀ n m id, Inserted n id w → Inserted m id w → n = m
  backed : ∀ sess ∈ w.state.sessions.rows, sess.background = true → sess.ended = false →
    Has sess.call sess.dispatchId sess.gpus sess.worktree w

/-- Calls clean up when they may, and what they clean up is their own. -/
def waiting (S : Setup) : Discipline (system S) := ⟨Waits S, Inv, Owned⟩

section

variable {w w' : World (system S)} {e : Event (system S)} {n : Nat} {task : String} {slot : Gpu.Slot}
  {slots : List Gpu.Slot} {key : String × String} {tree : Option (String × String)}

theorem inserted_cons (hf : Fires w e w') {id : Nat} :
    Inserted n id w' ↔ (e.call = n ∧ insertedRow e = some id) ∨ Inserted n id w := by
  unfold Inserted
  rw [hf.2]
  simp

/-- A GPU stays a call's own until the call releases it. -/
theorem OwnGpu.step (h : OwnGpu n task slot w) (hi : Inv w) (hr : Owned w e) (hf : Fires w e w')
    (hne : e.call = n → e.cmd ≠ .gpu (.releaseGpu slot)) : OwnGpu n task slot w' := by
  obtain ⟨a, ha, htask, hins⟩ := h
  refine ⟨a, ?_, htask, (inserted_cons hf).mpr (Or.inr hins)⟩
  rcases gpu_cases hf with ⟨hs, -⟩ | ⟨r, hfree, hs, -⟩ | ⟨slot', time, hc, hs, -⟩
  · rw [hs, ha]
  · have hslot : r.slot ≠ slot := by
      intro he
      rw [he, Gpu.Tables.Free, ha] at hfree
      cases hfree
    rw [hs, Gpu.Tables.insert, Gpu.Allocations.active_insert, if_neg hslot, List.append_nil, ha]
  · have hslot : slot' ≠ slot := by
      rintro rfl
      have hown := hr.gpu slot' hc a (by rw [ha]; exact List.mem_singleton_self a)
      exact hne (hi.unique _ _ _ hown hins) hc
    rw [hs, Gpu.Tables.release, Gpu.Allocations.active_release, if_neg hslot, ha]

/-- A worktree stays a call's own until the call merges or removes it. -/
theorem OwnTree.step {merged : Bool} (h : OwnTree n key merged w) (hr : Owned w e) (hf : Fires w e w')
    (hne : e.call = n → e.cmd ≠ .merge key ∧ e.cmd ≠ .cleanup key) : OwnTree n key merged w' := by
  obtain ⟨t, ht, hcall, hm⟩ := h
  have hother : ∀ c, c = .merge key ∨ c = .cleanup key → e.cmd ≠ c := by
    intro c hc he
    obtain ⟨merged', t', ht', hcall', -⟩ := hr.worktree key (he ▸ hc)
    rw [ht] at ht'
    cases ht'
    have hn := hne (hcall'.symm.trans hcall)
    rcases hc with rfl | rfl
    · exact hn.1 he
    · exact hn.2 he
  exact ⟨t, find?_of_fires hf ht (hother _ (Or.inl rfl)) (hother _ (Or.inr rfl)), hcall, hm⟩

/-- What a call has it has until it gives something back. -/
theorem Has.step (h : Has n task slots tree w) (hi : Inv w) (hr : Owned w e) (hf : Fires w e w')
    (hne : e.call = n → ¬ e.cmd.CleansUp) : Has n task slots tree w' := by
  refine ⟨h.nodup, fun slot hs => ?_, fun key hk => ?_⟩
  · exact (h.gpus slot hs).step hi hr hf fun hc he => hne hc (he ▸ trivial)
  · exact (h.worktree key hk).step hr hf fun hc => ⟨fun he => hne hc (he ▸ trivial), fun he => hne hc (he ▸ trivial)⟩

/-- **Steps.** What the running processes have been given stays theirs. -/
theorem inv_step (hi : Inv w) (hr : Owned w e) (hg : Waits S w e.call e.op e.cmd) (hf : Fires w e w') : Inv w' := by
  have hseq : w.state.gpu.allocations.sequence ≤ w'.state.gpu.allocations.sequence ∧
      ∀ id ∈ insertedRow e, id = w.state.gpu.allocations.sequence + 1 ∧ id ≤ w'.state.gpu.allocations.sequence := by
    rcases gpu_cases hf with ⟨hs, hn, -⟩ | ⟨r, -, hs, -, hn⟩ | ⟨slot, time, -, hs, hn⟩
    · simp [hs, hn]
    · rw [hs, hn]
      refine ⟨Nat.le_succ _, fun id hid => ?_⟩
      rw [← Option.some.inj hid]
      exact ⟨rfl, Nat.le_refl _⟩
    · rw [hs, hn]
      exact ⟨Nat.le_refl _, by simp⟩
  refine ⟨fun n id hid => ?_, fun n m id hn hm => ?_, fun sess hs hb hend => ?_⟩
  · rcases (inserted_cons hf).mp hid with ⟨-, hid⟩ | hid
    · exact (hseq.2 id hid).2
    · exact Nat.le_trans (hi.numbered n id hid) hseq.1
  · rcases (inserted_cons hf).mp hn with ⟨hn, hid⟩ | hn <;> rcases (inserted_cons hf).mp hm with ⟨hm, hid'⟩ | hm
    · exact hn.symm.trans hm
    · have := hi.numbered m id hm
      have := (hseq.2 id hid).1
      omega
    · have := hi.numbered n id hn
      have := (hseq.2 id hid').1
      omega
    · exact hi.unique n m id hn hm
  · rcases session_of_fires hf hs hend with hmem | ⟨hcall, hc⟩
    · refine (hi.backed sess hmem hb hend).step hi hr hf fun he hclean => ?_
      have hfind := Table.find?_of_mem hmem
      rw [show sess.call = e.call from he.symm] at hfind
      rw [hg hclean sess hfind hb] at hend
      cases hend
    · rw [hcall]
      exact (hr.begun _ _ _ _ hc).step hi hr hf fun _ hclean => by simp [hc, Cmd.CleansUp] at hclean

theorem stable_has : Stable (waiting S) n (Has n task slots tree) :=
  fun _ _ _ hn hi _ hr hf _ h => h.step hi hr hf fun he => absurd he hn

/-- A command that is neither of the clean-up nor starts a process gives nothing away. -/
theorem Owned.quiet (hclean : ¬ e.cmd.CleansUp) (hpopen : ∀ id b slots tree, e.cmd ≠ .popen id b slots tree) :
    Owned w e where
  gpu slot he := absurd (he ▸ trivial : e.cmd.CleansUp) hclean
  worktree key he := by
    rcases he with he | he
    · exact absurd (he ▸ trivial : e.cmd.CleansUp) hclean
    · exact absurd (he ▸ trivial : e.cmd.CleansUp) hclean
  begun id b slots tree he := absurd he (hpopen id b slots tree)

end

/-! ## The scheduler -/

section

variable {n : Nat} {o : Op} {task : String} {slots : List Gpu.Slot} {tree : Option (String × String)}
  {self : Scheduler} {q : Gpu.Request}

/-- A command that neither cleans up nor starts a process. -/
def Cmd.Quiet (c : Cmd) : Prop := ¬ c.CleansUp ∧ ∀ id background gpus tree, c ≠ .popen id background gpus tree

theorem Cmd.Quiet.establishes {c : Cmd} (hc : c.Quiet) :
    Establishes (waiting S) n o (Has n task slots tree) c fun _ => Has n task slots tree := by
  intro w x w' hi h hg hf
  have hr : Owned w ⟨n, o, c, x⟩ := .quiet hc.1 hc.2
  exact ⟨hr, inv_step hi hr hg hf, h.step hi hr hf fun _ => hc.1⟩

/-- A program that raises nothing and gives nothing away. -/
def Keeps (S : Setup) (n : Nat) (o : Op) (task : String) (slots : List Gpu.Slot) (tree : Option (String × String))
    (α : Type) (p : P α) : Prop :=
  Outline (waiting S) n o (Outcome (fun _ => Has n task slots tree) fun _ _ => False) p (Has n task slots tree)

theorem keeps_compositional : Prog.Compositional (Keeps S n o task slots tree) where
  ret _ := outline_ret fun _ _ h => h
  bind hp hf := outline_bind hf hp

theorem Cmd.Quiet.keeps {c : Cmd} (hc : c.Quiet) : Keeps S n o task slots tree (Resp c) (cmd c) :=
  outline_cmd (M := system S) (fun _ => Has n task slots tree) (fun _ => stable_has) hc.establishes
    fun _ => outline_ret fun _ _ h => h

theorem quiet_gpu {c : Gpu.Atomic.Cmd} (h : ∀ slot, c ≠ .releaseGpu slot) : (Cmd.gpu c).Quiet := by
  refine ⟨fun hc => ?_, by simp⟩
  cases c with
  | releaseGpu slot => exact h slot rfl
  | _ => exact hc

/-- A GPU that is allocated is the call's own. -/
theorem allocateGpu_outline {host model : String} {gpu_index vram : Int} :
    Outline (waiting S) n o
      (Outcome (fun ok => Has n task (slots ++ if ok then [⟨host, gpu_index⟩] else []) tree) fun _ _ => False)
      (api.allocateGpu host gpu_index task model vram) (Has n task slots tree) := by
  have hquiet := quiet_gpu (c := .allocateGpu ⟨host, gpu_index⟩ task model vram) (by simp)
  refine outline_cmd (M := system S) (c := .gpu (.allocateGpu ⟨host, gpu_index⟩ task model vram))
    (fun (x : Option Nat) => Has n task (slots ++ if x.isSome then [Gpu.Slot.mk host gpu_index] else []) tree)
    (fun x => stable_has) ?_ fun x => outline_ret fun _ _ h => h
  intro w x w' hi h hg hf
  obtain ⟨hr, hi', h'⟩ := hquiet.establishes w x w' hi h hg hf
  refine ⟨hr, hi', ?_⟩
  rcases gpu_cases hf with ⟨-, hn, -⟩ | ⟨⟨slot', task', model', vram', now⟩, hfree, hs, hc, hn⟩ | ⟨slot, time, hc, -⟩
  · obtain rfl : x = none := hn
    simpa using h'
  · simp only at hfree hc
    cases hc
    obtain rfl : x = some (w.state.gpu.allocations.sequence + 1) := hn
    have hnot : (⟨host, gpu_index⟩ : Gpu.Slot) ∉ slots := by
      intro hmem
      obtain ⟨a, ha, -⟩ := h.gpus _ hmem
      rw [Gpu.Tables.Free, ha] at hfree
      cases hfree
    refine ⟨?_, fun slot hslot => ?_, h'.worktree⟩
    · simpa [List.nodup_append] using ⟨h.nodup, fun s hs he => hnot (he ▸ hs)⟩
    · rcases List.mem_append.mp hslot with hslot | hslot
      · exact h'.gpus slot hslot
      · obtain rfl : slot = ⟨host, gpu_index⟩ := by simpa using hslot
        refine ⟨Gpu.Allocations.Request.row ⟨⟨host, gpu_index⟩, task, model, vram, now⟩
          (w.state.gpu.allocations.sequence + 1), ?_, rfl, (inserted_cons hf).mpr (Or.inl ⟨rfl, rfl⟩)⟩
        rw [hs, Gpu.Tables.insert, Gpu.Allocations.active_insert, if_pos rfl,
          show w.state.gpu.allocations.active ⟨host, gpu_index⟩ = [] from hfree]
        rfl
  · cases hc

/-- Some of the GPUs of a host. -/
theorem allocateEach_outline {host : String} {share : Int} : ∀ {gpus : List Gpu.GpuInfo} {slots : List Gpu.Slot},
    Outline (waiting S) n o
      (Outcome (fun indices => Has n q.taskId (slots ++ indices.map (Gpu.Slot.mk host)) tree) fun _ _ => False)
      (Gpu.allocateEach api q host share gpus) (Has n q.taskId slots tree)
  | [], slots => outline_ret fun w _ h => by
    simpa [Outcome] using h
  | gpu :: gpus, slots => by
    refine outline_bind (fun ok => ?_) allocateGpu_outline
    refine outline_bind (fun indices => ?_) allocateEach_outline
    refine outline_ret fun w _ h => ?_
    cases ok with
    | false => simpa [Outcome] using h
    | true => simpa [Outcome] using h

/-- **Release.** A call that has GPUs releases them, and no others. -/
theorem releaseEach_outline {host : String} : ∀ {indices : List Int},
    Outline (waiting S) n o (Outcome (fun _ => Has n task [] tree) fun _ _ => False)
      (Gpu.releaseEach api host indices) (Has n task (indices.map (Gpu.Slot.mk host)) tree)
  | [] => outline_ret fun _ _ h => h
  | idx :: indices => by
    refine outline_cmd (M := system S) (c := .gpu (.releaseGpu ⟨host, idx⟩))
      (fun _ => Has n task (indices.map (Gpu.Slot.mk host)) tree) (fun _ => stable_has) ?_
      fun _ => releaseEach_outline
    intro w x w' hi h hg hf
    have hr : Owned w ⟨n, o, .gpu (.releaseGpu ⟨host, idx⟩), x⟩ := by
      refine ⟨fun slot he a ha => ?_, fun key he => ?_, fun id b gpus tree he => ?_⟩
      · cases he
        obtain ⟨a', ha', -, hins⟩ := h.gpus ⟨host, idx⟩ List.mem_cons_self
        rw [ha', List.mem_singleton] at ha
        exact ha ▸ hins
      · rcases he with he | he <;> cases he
      · cases he
    have hnodup := List.nodup_cons.mp h.nodup
    refine ⟨hr, inv_step hi hr hg hf, hnodup.2, fun slot hs => ?_, fun key hk => ?_⟩
    · refine (h.gpus slot (List.mem_cons_of_mem _ hs)).step hi hr hf fun _ he => ?_
      cases he
      exact hnodup.1 hs
    · exact (h.worktree key hk).step hr hf fun _ => ⟨by simp, by simp⟩

theorem gpusOf_failure {result : ScheduleResult} (h : result.success = false) : gpusOf (some result) = [] := by
  simp [gpusOf, granted, Option.filter, h]

theorem tryHosts_outline : ∀ {hosts : List (String × List Gpu.GpuInfo)},
    Outline (waiting S) n o (Outcome (fun r => Has n q.taskId (gpusOf (some r)) tree) fun _ _ => False)
      (Gpu.tryHosts api q hosts) (Has n q.taskId [] tree)
  | [] => outline_ret fun _ _ h => h
  | (host, gpus) :: hosts => by
    unfold Gpu.tryHosts
    split
    · refine outline_bind (fun indices => ?_) allocateEach_outline
      split
      · exact outline_ret fun _ _ h => h
      · exact outline_bind (fun _ => tryHosts_outline) releaseEach_outline
    · exact tryHosts_outline

theorem allocateOne_outline {gpu : Gpu.GpuInfo} {reason : String} :
    Outline (waiting S) n o (Outcome (fun r => Has n q.taskId (gpusOf r) tree) fun _ _ => False)
      (Gpu.allocateOne api q gpu reason) (Has n q.taskId [] tree) := by
  refine outline_bind (fun ok => ?_) allocateGpu_outline
  cases ok with
  | false => exact outline_ret fun _ _ h => h
  | true => exact outline_ret fun _ _ h => h

theorem tryPreferred_outline :
    Outline (waiting S) n o (Outcome (fun r => Has n q.taskId (gpusOf r) tree) fun _ _ => False)
      (Gpu.tryPreferred api S.text self q) (Has n q.taskId [] tree) := by
  unfold Gpu.tryPreferred
  split
  · refine outline_bind (fun gpus => ?_) (quiet_gpu (by simp)).keeps
    dsimp only
    split
    · exact outline_ret fun _ _ h => h
    · exact allocateOne_outline
  · exact outline_ret fun _ _ h => h

theorem tryBestFit_outline :
    Outline (waiting S) n o (Outcome (fun r => Has n q.taskId (gpusOf r) tree) fun _ _ => False)
      (Gpu.tryBestFit api self q) (Has n q.taskId [] tree) := by
  refine outline_bind (fun gpus => ?_) (quiet_gpu (by simp)).keeps
  split
  · exact outline_ret fun _ _ h => h
  · exact allocateOne_outline

theorem lastResort_outline :
    Outline (waiting S) n o (Outcome (fun r => Has n q.taskId (gpusOf (some r)) tree) fun _ _ => False)
      (Gpu.lastResort api S.text self q) (Has n q.taskId [] tree) := by
  unfold Gpu.lastResort
  split
  · have hmulti : Outline (waiting S) n o
        (Outcome (fun r => Has n q.taskId (gpusOf (some r)) tree) fun _ _ => False)
        (Gpu.tryMultiGpu api self q) (Has n q.taskId [] tree) :=
      outline_bind (fun gpus => tryHosts_outline) (quiet_gpu (by simp)).keeps
    refine outline_bind (fun result => ?_) hmulti
    split
    · exact outline_ret fun _ _ h => h
    · rename_i hs
      refine outline_ret fun w _ h => ?_
      rw [gpusOf_failure (by simpa using hs)] at h
      exact h
  · exact outline_ret fun _ _ h => h

/-- **Scheduling.** The GPUs of a grant are the call's own; without one it has none. -/
theorem schedule_outline :
    Outline (waiting S) n o (Outcome (fun r => Has n q.taskId (gpusOf (some r)) tree) fun _ _ => False)
      (Gpu.schedule api S.text self q) (Has n q.taskId [] tree) := by
  have hrefresh : Keeps S n o q.taskId [] tree Unit (Gpu.refreshInventory api S.text self) :=
    Gpu.refreshInventory_all keeps_compositional S.text self (quiet_gpu (by simp)).keeps
      (fun _ => (quiet_gpu (by simp)).keeps) fun _ => (quiet_gpu (by simp)).keeps
  refine outline_bind (fun _ => ?_) hrefresh
  refine outline_bind (fun preferred => ?_) tryPreferred_outline
  cases preferred with
  | some result => exact outline_ret fun _ _ h => h
  | none =>
    refine outline_bind (fun best => ?_) tryBestFit_outline
    cases best with
    | some result => exact outline_ret fun _ _ h => h
    | none => exact lastResort_outline

end

/-! ## A dispatch -/

section

variable {n : Nat} {o : Op} {task : String} {slots : List Gpu.Slot} {tree : Option (String × String)}

theorem allocate_outline {dispatch_id host model prompt : String} :
    Outline (waiting S) n o (Outcome (fun r => Has n dispatch_id (gpusOf r) tree) fun _ _ => False)
      (S.allocate dispatch_id host model prompt) (Has n dispatch_id [] tree) := by
  unfold Setup.allocate
  split
  · refine outline_catch (E := fun _ _ => False) (fun _ => outline_false) ?_
    refine outline_bind (fun warm => ?_) (Cmd.Quiet.keeps ⟨id, by simp⟩)
    refine outline_bind (fun result => outline_ret fun _ _ h => h) (schedule_outline (q := ⟨dispatch_id, _, _, _⟩))
  · exact outline_ret fun _ _ h => h

/-- The worktree that is made is the call's own. -/
theorem isolate_outline {dispatch_id host : String} {project_dir : Option String} :
    Outline (waiting S) n o (Outcome (fun key => Has n task slots key) fun _ _ => False)
      (S.isolate dispatch_id host project_dir) (Has n task slots none) := by
  unfold Setup.isolate
  split
  · exact outline_ret fun _ _ h => h
  · rename_i repo_path _
    have hnone : ∀ {key w}, Has (S := S) n task slots key w → Has n task slots none w :=
      fun h => ⟨h.nodup, h.gpus, by simp⟩
    have hquiet : (Cmd.addWorktree host ("/tmp/swarm-worktrees/" ++ safeId dispatch_id) repo_path
        ("swarm/" ++ safeId dispatch_id)).Quiet := ⟨id, by simp⟩
    refine outline_cmd (M := system S) (fun (made : Bool) => Has n task slots
      (if made then some (host, "/tmp/swarm-worktrees/" ++ safeId dispatch_id) else none))
      (fun _ => stable_has) ?_ fun made => ?_
    · intro w made w' hi h hg hf
      obtain ⟨hr, hi', h'⟩ := hquiet.establishes w made w' hi h hg hf
      refine ⟨hr, hi', h'.nodup, h'.gpus, fun key hkey => ?_⟩
      obtain ⟨⟨i, hx⟩, -⟩ := hf
      simp only [exec] at hx
      generalize hs : w'.state = s' at hx
      split at hx <;> cases hx
      · obtain rfl : key = _ := by simpa using hkey.symm
        rw [OwnTree, hs, Table.find?_put, if_pos rfl]
        exact ⟨_, rfl, rfl, rfl⟩
      · simp at hkey
    · cases made with
      | false => exact outline_ret fun _ _ h => h
      | true =>
        simp only [if_true]
        split
        · refine outline_bind (fun there => ?_) (Cmd.Quiet.keeps ⟨id, by simp⟩)
          split
          · exact outline_ret fun _ _ h => h
          · exact outline_ret fun _ _ h => hnone h
        · exact outline_ret fun _ _ h => h

/-- The process is given what is the call's own. -/
theorem popen_outline {background : Bool} :
    Keeps S n o task slots tree Unit (cmd (.popen task background slots tree)) := by
  refine outline_cmd (M := system S) (fun _ => Has n task slots tree) (fun _ => stable_has) ?_
    fun _ => outline_ret fun _ _ h => h
  intro w x w' hi h hg hf
  have hr : Owned w ⟨n, o, .popen task background slots tree, x⟩ := by
    refine ⟨fun slot he => ?_, fun key he => ?_, fun id b gpus tree' he => ?_⟩
    · cases he
    · rcases he with he | he <;> cases he
    · cases he
      exact h
  exact ⟨hr, inv_step hi hr hg hf, h.step hi hr hf fun _ => id⟩

/-- A dispatch releases the GPUs it has. -/
theorem releaseGpus_outline {gpu_allocation : Option ScheduleResult} :
    Outline (waiting S) n o (Outcome (fun _ => Has n task [] tree) fun _ _ => False)
      (releaseGpus gpu_allocation) (Has n task (gpusOf gpu_allocation) tree) := by
  unfold releaseGpus gpusOf
  split
  · rename_i result hg
    rw [hg]
    exact outline_catch (E := fun _ _ => False) (fun _ => outline_false) releaseEach_outline
  · rename_i hg
    rw [hg]
    exact outline_ret fun _ _ h => h

/-- A dispatch merges and removes the worktree it has. -/
theorem mergeWorktree_outline :
    Outline (waiting S) n o (Outcome (fun _ => Has n task slots none) fun _ _ => False)
      (mergeWorktree tree) (Has n task slots tree) := by
  unfold mergeWorktree
  split
  · rename_i key
    have hown : ∀ {c : Cmd} {x w}, (c = .merge key ∨ c = .cleanup key) → (∃ merged, OwnTree n key merged w) →
        Owned (S := S) w ⟨n, o, c, x⟩ := by
      intro c x w hc h
      refine ⟨fun slot he => ?_, fun key' he => ?_, fun id b gpus tree' he => ?_⟩
      · rcases hc with rfl | rfl <;> cases he
      · rcases hc with rfl | rfl <;> rcases he with he | he <;> cases he <;> exact h
      · rcases hc with rfl | rfl <;> cases he
    have hnone : ∀ {e : Event (system S)} {w w' : World (system S)},
        Has n task slots (some key) w ∨ Has n task slots none w →
        Inv w → Owned w e → Fires w e w' → (∀ slot, e.cmd ≠ .gpu (.releaseGpu slot)) → Has n task slots none w' := by
      intro e w w' h hi hr hf hne
      have hgpus : slots.Nodup ∧ ∀ slot ∈ slots, OwnGpu n task slot w := by
        rcases h with h | h <;> exact ⟨h.nodup, h.gpus⟩
      exact ⟨hgpus.1, fun slot hs => (hgpus.2 slot hs).step hi hr hf fun _ => hne slot, by simp⟩
    refine outline_cmd (M := system S)
      (fun _ w => Has n task slots none w ∧ ∃ merged, OwnTree n key merged w)
      (fun _ => stable_and stable_has ?_) ?_ fun merged => ?_
    · intro w e w' hn _ _ hr hf _ ⟨merged, h⟩
      exact ⟨merged, h.step hr hf fun he => absurd he hn⟩
    · intro w x w' hi h hg hf
      have hr := hown (x := x) (Or.inl rfl) ⟨false, h.worktree key rfl⟩
      refine ⟨hr, inv_step hi hr hg hf, hnone (Or.inl h) hi hr hf (by simp), ?_⟩
      obtain ⟨t, ht, hcall, hm⟩ := h.worktree key rfl
      obtain ⟨⟨i, hx⟩, -⟩ := hf
      simp only [exec] at hx
      generalize hs : w'.state = s' at hx
      unfold OwnTree
      rw [hs]
      split at hx <;> cases hx
      · rw [Table.find?_update, ht]
        refine ⟨true, _, rfl, ?_⟩
        simp [hcall, Table.find?_key ht]
      · exact ⟨false, t, ht, hcall, hm⟩
    · split
      · refine outline_cmd (M := system S) (fun _ => Has n task slots none) (fun _ => stable_has) ?_
          fun _ => outline_ret fun _ _ h => h
        intro w x w' hi h hg hf
        have hr := hown (x := x) (Or.inr rfl) h.2
        exact ⟨hr, inv_step hi hr hg hf, hnone (Or.inr h.1) hi hr hf (by simp)⟩
      · exact outline_ret fun _ _ h => h.1
  · exact outline_ret fun _ _ h => h

/-- What comes after a part that raises nothing. -/
theorem outline_then {α β : Type} {R : α → World (system S) → Prop} {pre : World (system S) → Prop} {p : P α}
    {f : α → P β} (hp : Outline (waiting S) n o (Outcome R fun _ _ => False) p pre)
    (hf : ∀ a, Outline (waiting S) n o (fun _ _ => True) (f a) (R a)) :
    Outline (waiting S) n o (fun _ _ => True) (p >>= f) pre := by
  refine outline_bind hf (outline_mono (fun _ _ h => h) (fun r _ _ h => ?_) hp)
  cases r with
  | ok _ => exact h
  | error _ => trivial

/-- **A dispatch.** What it gives to its process, and what it gives back, is its own. -/
theorem dispatch_outline {host prompt : String} {model project_dir : Option String} {background : Bool} :
    Outline (waiting S) n o (fun _ _ => True) (S.dispatch host prompt model project_dir background)
      fun _ => True := by
  have hstart : ∀ {task : String} {w : World (system S)}, Has n task [] none w :=
    ⟨List.nodup_nil, by simp, by simp⟩
  unfold Setup.dispatch
  split
  · exact outline_raise fun _ _ _ => trivial
  · rename_i canonical _
    refine outline_pre (fun _ _ _ => @hstart "" _) (outline_then (quiet_gpu (by simp)).keeps fun now => ?_)
    dsimp only
    refine outline_pre (fun _ _ _ => hstart) (outline_then allocate_outline fun gpu_allocation => ?_)
    refine outline_then isolate_outline fun worktree_info => ?_
    refine outline_then (Cmd.Quiet.keeps ⟨id, by simp⟩) fun _ => ?_
    refine outline_then popen_outline fun _ => ?_
    refine outline_then (R := fun _ => Has n (dispatchId ⟨.dispatch, Python.truncate now, canonical⟩)
      (gpusOf gpu_allocation) worktree_info) ?_ fun status => ?_
    · split
      · exact outline_ret fun _ _ h => h
      · refine outline_bind (fun code => ?_) (Cmd.Quiet.keeps (c := .wait) ⟨id, by simp⟩)
        cases code with
        | some code => exact outline_ret fun _ _ h => h
        | none => exact outline_ret fun _ _ h => h
    refine outline_then releaseGpus_outline fun _ => ?_
    refine outline_then mergeWorktree_outline fun _ => ?_
    refine outline_then (Cmd.Quiet.keeps ⟨id, by simp⟩) fun _ => ?_
    exact outline_ret fun _ _ _ => trivial

theorem prog_outline (n : Nat) (o : Op) :
    Outline (waiting S) n o (fun _ _ => True) (prog S o) (Untouched n) := by
  refine outline_pre (fun _ _ _ => trivial) (?_ : Outline _ _ _ _ _ fun _ => True)
  cases o with
  | dispatch host prompt model project_dir background => exact dispatch_outline
  | schedule self q =>
    refine outline_pre (fun _ _ _ => ⟨List.nodup_nil, by simp, by simp⟩)
      (outline_mono (fun _ _ h => h) (fun _ _ _ _ => trivial) (@schedule_outline _ _ _ none _ _))
  | exit call =>
    refine outline_pre (P := Has n "" [] none) (fun _ _ _ => ⟨List.nodup_nil, by simp, by simp⟩)
      (outline_mono (fun _ _ h => h) (fun _ _ _ _ => trivial) (Cmd.Quiet.keeps (c := .exit call) ⟨id, by simp⟩))

end

/-! ## Resources follow the sessions -/

/-- What is a call's own nobody else is granted. -/
theorem OwnGpu.refused {w : World (system S)} {n m : Nat} {task task' model : String} {slot : Gpu.Slot} {vram : Int}
    {i : Gpu.Env} {x : Option Nat} {s' : Gpu.Tables} (h : OwnGpu n task slot w)
    (hx : Gpu.Atomic.exec S.text m i w.state.gpu (.allocateGpu slot task' model vram) = some (x, s')) : x = none := by
  obtain ⟨a, ha, -⟩ := h
  simp only [Gpu.Atomic.exec] at hx
  split at hx <;> cases hx
  · rename_i hfree
    rw [Gpu.Tables.Free, ha] at hfree
    cases hfree
  · rfl

/-- **Resources follow the running sessions** where no call gives anything back while a background process it has
started is running. -/
theorem follows_of_waits (S : Setup) : Follows S (Waits S) := by
  rintro s c hs h sess ⟨hmem, hb, hend, -⟩
  have hinv : Inv (S := S) ⟨s, []⟩ := by
    refine ⟨fun n id hid => ?_, fun n m id hid => ?_, fun sess hs' => ?_⟩
    · obtain ⟨e, he, -⟩ := hid
      cases he
    · obtain ⟨e, he, -⟩ := hid
      cases he
    · rw [hs] at hs'
      cases hs'
  have hsound := run_sound (D := waiting S) prog_outline hinv h
  have hhas := hsound.inv.backed sess hmem hb hend
  exact ⟨hhas.gpus, fun slot hslot _ _ _ _ _ _ _ hx => (hhas.gpus slot hslot).refused hx, hhas.worktree⟩

/-! ## A background dispatch -/

/-- One host, of which one GPU is known. -/
def oneHost : Setup where
  fleet := ⟨["h"], ["h"], id⟩
  isLocalhost _ := false
  text := ⟨id, fun _ => ""⟩
  excludeHosts := []
  assemble task _ := task
  route _ := ""

/-- The GPU is free, and nothing has been dispatched. -/
def oneGpu : State :=
  ⟨⟨⟨[⟨"h", 0, "", 24000, 24000, 0, 0, 0⟩], by decide⟩, Gpu.Allocations.empty⟩, .empty, fun _ => none, .empty⟩

/-- The first second; git succeeds, and the process goes on. -/
def atFirst : Input := ⟨⟨1, ⟨"h", [], true, none⟩, false⟩, true, true, none, none⟩

/-- A call that runs a model in the background. -/
def inBackground : Op := .dispatch "h" "infer" (some "qwen3:8b") none true

/-- The process is running and its GPU is free. -/
def lost (c : Config (system oneHost)) : Bool :=
  c.world.state.sessions.rows.any fun sess =>
    sess.background && !sess.ended && c.world.state.records sess.dispatchId == some "running" &&
      sess.gpus.any fun slot => (c.world.state.gpu.allocations.active slot).isEmpty

theorem released_while_running : ¬ Follows oneHost Free := by
  intro hfollows
  obtain ⟨c, hrun, hlost⟩ : ∃ c, Run Free (.init oneGpu) c ∧ lost c = true :=
    @exists_run_of_play _ _ _ _ (solo (system oneHost) 0 inBackground 9 atFirst) _ (by decide +kernel)
  obtain ⟨sess, hmem, htest⟩ := List.any_eq_true.mp hlost
  simp only [Bool.and_eq_true, Bool.not_eq_true', beq_iff_eq] at htest
  obtain ⟨⟨⟨hb, hend⟩, hrec⟩, hgpu⟩ := htest
  obtain ⟨slot, hslot, hempty⟩ := List.any_eq_true.mp hgpu
  obtain ⟨a, ha, -⟩ := (hfollows oneGpu c rfl hrun sess ⟨hmem, hb, hend, hrec⟩).allocated slot hslot
  rw [ha] at hempty
  cases hempty

end ClaudeSwarm.Hydra.Dispatch
