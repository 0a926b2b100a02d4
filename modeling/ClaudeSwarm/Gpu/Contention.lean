import ClaudeSwarm.Gpu.Atomic
import ClaudeSwarm.Gpu.Grants

/-!
# Scheduling under contention

One call of `schedule` among other clients that allocate and release GPUs. Where it takes several GPUs
of a host it allocates them one at a time and keeps what it got if that is two or more, whatever VRAM
they have (`short_of_vram`); if it got one it releases that GPU by host and index, whoever has
allocated it by then.

* `Ours`: a GPU the call has allocated is its own, unless another client has allocated it since.
* `allocateEach_outline`, `tryHosts_outline`: the multi-GPU path, allocation by allocation.
* **`all_or_nothing`**: where what the call gets of a host is less than two GPUs or enough, and nobody
  allocates a GPU between its allocation by the call and its rollback, a failed call leaves nothing
  allocated, a successful one has the VRAM it was asked for, and it releases rows of its own only.
-/

namespace ClaudeSwarm.Gpu.Atomic

open Interleave Data
open Python (PyError)

variable {T : Text}

/-! ## What a call has done -/

/-- The GPU an event allocated. -/
def taken : Event (system T) → Option Slot
  | ⟨_, _, .allocateGpu slot _ _ _, x⟩ => Option.map (fun _ => slot) x
  | _ => none

/-- The row an event inserted. -/
def inserted : Event (system T) → Option Nat
  | ⟨_, _, .allocateGpu _ _ _ _, x⟩ => x
  | _ => none

/-- The list an event has read of all GPUs that are available. -/
def readAll : Event (system T) → Option (List GpuInfo)
  | ⟨_, _, .getAvailableGpus min _, x⟩ => if min = 0 then some x else none
  | _ => none

/-- The rows call `n` has inserted. -/
def owned (n : Nat) (w : World (system T)) : List Nat := (mine n w).filterMap inserted

/-- What call `n` has last read of all GPUs that are available. -/
def lastAll (n : Nat) (w : World (system T)) : Option (List GpuInfo) :=
  (mine n w).findSome? readAll

/-- The GPUs call `n` has allocated with its last `k` commands, newest first. -/
def recent (n k : Nat) (w : World (system T)) : List Slot := ((mine n w).take k).filterMap taken

/-- Another client has allocated the GPU since call `n` did. -/
def Retaken (n : Nat) (slot : Slot) (w : World (system T)) : Prop :=
  ∃ e ∈ w.trace.takeWhile (fun e => ¬ (e.call = n ∧ taken e = some slot)), taken e = some slot

instance (n : Nat) (slot : Slot) (w : World (system T)) : Decidable (Retaken n slot w) :=
  inferInstanceAs (Decidable (∃ e ∈ _, _))

/-- The GPUs of a list on the host of `slot`. -/
def onHost (all : List GpuInfo) (host : String) : List GpuInfo := all.filter fun g => g.host = host

/-- Of the GPUs `gpus` of a host, those call `n` has once it has come to the last one, `slot`. -/
def obtained (n : Nat) (gpus : List GpuInfo) (slot : Slot) (w : World (system T)) :
    List GpuInfo :=
  gpus.filter fun g =>
    g.slot ∈ recent n (gpus.length - 1) w ∨ (g.slot = slot ∧ w.state.Free slot)

/-- Less than two GPUs, or enough VRAM. -/
def Enough (v : Int) (gpus : List GpuInfo) : Prop := gpus.length < 2 ∨ v ≤ freeSum gpus

instance (v : Int) (gpus : List GpuInfo) : Decidable (Enough v gpus) :=
  inferInstanceAs (Decidable (_ ∨ _))

/-- If `slot` is the last GPU of its host in what call `n` has read, what it gets is enough. -/
def LastIsEnough (n : Nat) (v : Int) (slot : Slot) (w : World (system T)) : Prop :=
  ∀ all ∈ lastAll n w, (onHost all slot.host).getLast?.map GpuInfo.slot = some slot →
    Enough v (obtained n (onHost all slot.host) slot w)

instance (n : Nat) (v : Int) (slot : Slot) (w : World (system T)) :
    Decidable (LastIsEnough n v slot w) :=
  inferInstanceAs (Decidable (∀ all ∈ lastAll n w, _))

/-- The runs in which only call `n` refreshes the inventory, what it gets of a host is less than two
GPUs or enough, and nobody allocates a GPU between its allocation by the call and its rollback. -/
def Uncontended (n : Nat) : Guard (system T) := fun w m o c =>
  match o, c with
  | .schedule _ q, .allocateGpu slot _ _ _ => m = n → LastIsEnough n q.vram slot w
  | .schedule _ _, .releaseGpu slot => m = n → ¬ Retaken n slot w
  | _, .saveInventory _ => m = n
  | _, _ => True

instance (n : Nat) (w : World (system T)) (m : Nat) (o : Op) (c : Cmd) :
    Decidable (Uncontended n w m o c) :=
  match o, c with
  | .schedule _ q, .allocateGpu slot _ _ _ =>
    inferInstanceAs (Decidable (m = n → LastIsEnough n q.vram slot w))
  | .schedule _ _, .releaseGpu slot => inferInstanceAs (Decidable (m = n → ¬ Retaken n slot w))
  | .schedule _ _, .saveInventory _ | .allocate .., .saveInventory _
  | .release .., .saveInventory _ => inferInstanceAs (Decidable (m = n))
  | .allocate .., .allocateGpu .. | .release .., .allocateGpu .. => .isTrue trivial
  | .allocate .., .releaseGpu _ | .release .., .releaseGpu _ => .isTrue trivial
  | .schedule _ _, .time | .allocate .., .time | .release .., .time => .isTrue trivial
  | .schedule _ _, .probeHost _ | .allocate .., .probeHost _
  | .release .., .probeHost _ => .isTrue trivial
  | .schedule _ _, .getAvailableGpus _ _ | .allocate .., .getAvailableGpus _ _
  | .release .., .getAvailableGpus _ _ => .isTrue trivial

/-! ## What an event does -/

/-- **Commands.** The allocations stay as they are, a GPU that was free is allocated, or one is
released. -/
theorem step_cases {w w' : World (system T)} {e : Event (system T)} (hf : Fires w e w') :
    (w'.state.allocations = w.state.allocations ∧ inserted e = none ∧ taken e = none ∧
      ∀ slot, e.cmd ≠ .releaseGpu slot) ∨
    (∃ r, w.state.Free r.slot ∧ w'.state = w.state.insert r ∧ taken e = some r.slot ∧
      inserted e = some (w.state.allocations.sequence + 1)) ∨
    (∃ slot time, e.cmd = .releaseGpu slot ∧ w'.state = w.state.release slot time ∧
      inserted e = none ∧ taken e = none) := by
  obtain ⟨n, o, c, x⟩ := e
  obtain ⟨⟨i, hx⟩, -⟩ := hf
  rcases exec_cases (n := n) hx with ⟨hs, hi, hne⟩ | ⟨r, hfree, hs, hc, hi⟩ | ⟨slot, time, hc, hs, hi⟩
  · refine Or.inl ⟨hs, ?_, ?_, hne⟩
    · cases c <;> exact hi
    · cases c with
      | allocateGpu => exact Option.map_eq_none_iff.mpr hi
      | _ => rfl
  · simp only at hc
    subst hc
    exact Or.inr (Or.inl ⟨r, hfree, hs, congrArg (Option.map fun _ => r.slot) hi, hi⟩)
  · simp only at hc
    subst hc
    exact Or.inr (Or.inr ⟨slot, time, rfl, hs, rfl, rfl⟩)

/-- Only `save_inventory` changes the inventory. -/
theorem inventory_of_fires {w w' : World (system T)} {e : Event (system T)} (hf : Fires w e w')
    (h : ∀ invs, e.cmd ≠ .saveInventory invs) : w'.state.inventory = w.state.inventory := by
  obtain ⟨n, o, c, x⟩ := e
  obtain ⟨⟨i, hx⟩, -⟩ := hf
  simp only at hx h
  generalize w'.state = t' at hx ⊢
  cases c with
  | saveInventory invs => exact absurd rfl (h invs)
  | allocateGpu slot task model vram =>
    simp only [exec] at hx
    split at hx <;> cases hx <;> rfl
  | _ =>
    cases hx
    rfl

/-- An allocation is granted exactly when the GPU is free. -/
theorem isSome_iff_free {w w' : World (system T)} {n : Nat} {o : Op} {slot : Slot}
    {task model : String} {vram : Int} {x : Option Nat}
    (hf : Fires w ⟨n, o, .allocateGpu slot task model vram, x⟩ w') :
    x.isSome ↔ w.state.Free slot := by
  obtain ⟨⟨i, hx⟩, -⟩ := hf
  simp only [exec] at hx
  generalize w'.state = t' at hx
  split at hx <;> cases hx
  · rename_i hfree
    simp [hfree]
  · rename_i hfree
    simp [hfree]

theorem owned_own {w w' : World (system T)} {e : Event (system T)} (hf : Fires w e w') :
    owned e.call w' = (inserted e).toList ++ owned e.call w := by
  rw [owned, mine_own hf rfl, List.filterMap_cons]
  cases inserted e <;> rfl

theorem owned_other {w w' : World (system T)} {e : Event (system T)} {n : Nat} (hf : Fires w e w')
    (hn : e.call ≠ n) : owned n w' = owned n w := by
  rw [owned, mine_other hf hn]
  rfl

/-- What a call has inserted stays inserted. -/
theorem mem_owned_of_fires {w w' : World (system T)} {e : Event (system T)} {n id : Nat}
    (hf : Fires w e w') (h : id ∈ owned n w) : id ∈ owned n w' := by
  by_cases hn : e.call = n
  · subst hn
    rw [owned_own hf]
    exact List.mem_append_right _ h
  · rwa [owned_other hf hn]

/-- The rows that calls have inserted have been numbered. -/
def Numbered (w : World (system T)) : Prop :=
  ∀ n, ∀ id ∈ owned n w, id ≤ w.state.allocations.sequence

theorem numbered_of_fires {w w' : World (system T)} {e : Event (system T)} (h : Numbered w)
    (hf : Fires w e w') : Numbered w' := by
  have hseq : w.state.allocations.sequence ≤ w'.state.allocations.sequence ∧
      ∀ id ∈ inserted e, id ≤ w'.state.allocations.sequence := by
    rcases step_cases hf with ⟨hs, hi, -⟩ | ⟨r, -, hs, -, hi⟩ | ⟨slot, time, -, hs, hi, -⟩
    · simp [hs, hi]
    · rw [hs, hi]
      refine ⟨Nat.le_succ _, fun id hid => ?_⟩
      rw [← Option.some.inj hid]
      exact Nat.le_refl _
    · rw [hs, hi]
      exact ⟨Nat.le_refl _, by simp⟩
  intro n id hid
  by_cases hn : e.call = n
  · subst hn
    rw [owned_own hf, List.mem_append] at hid
    rcases hid with hid | hid
    · exact hseq.2 id (Option.mem_toList.mp hid)
    · exact Nat.le_trans (h _ id hid) hseq.1
  · rw [owned_other hf hn] at hid
    exact Nat.le_trans (h n id hid) hseq.1

/-! ## Whose a GPU is -/

/-- The rows of call `n` that are active are on GPUs in `held`. -/
def Holds (n : Nat) (held : List Slot) (w : World (system T)) : Prop :=
  ∀ slot, ∀ a ∈ w.state.allocations.active slot, a.id ∈ owned n w → slot ∈ held

/-- The active rows of the GPU are call `n`'s, unless another client has allocated it since. -/
def Ours (n : Nat) (slot : Slot) (w : World (system T)) : Prop :=
  Retaken n slot w ∨ ∀ a ∈ w.state.allocations.active slot, a.id ∈ owned n w

section

variable {w w' : World (system T)} {e : Event (system T)} {n : Nat} {held : List Slot} {slot : Slot}

/-- An event with which call `n` allocates nothing gives it nothing. -/
theorem Holds.keep (h : Holds n held w) (hnum : Numbered w) (hf : Fires w e w')
    (hn : e.call = n → taken e = none) : Holds n held w' := by
  have howned : ∀ id, id ∈ owned n w' → id ∈ owned n w := by
    intro id hid
    by_cases hc : e.call = n
    · subst hc
      rw [owned_own hf, List.mem_append] at hid
      refine hid.resolve_left fun hid => ?_
      rcases step_cases hf with ⟨-, hi, -⟩ | ⟨r, -, -, ht, -⟩ | ⟨-, -, -, -, hi, -⟩
      · simp [hi] at hid
      · rw [hn rfl] at ht
        cases ht
      · simp [hi] at hid
    · rwa [owned_other hf hc] at hid
  intro s a ha hid
  rcases step_cases hf with ⟨hs, -⟩ | ⟨r, -, hs, -, -⟩ | ⟨s', time, -, hs, -, -⟩
  · rw [hs] at ha
    exact h s a ha (howned _ hid)
  · rw [hs, Tables.insert, Allocations.active_insert, List.mem_append] at ha
    rcases ha with ha | ha
    · exact h s a ha (howned _ hid)
    · split at ha
      · rw [List.mem_singleton] at ha
        have hle := hnum n a.id (howned _ hid)
        rw [ha] at hle
        exact absurd hle (by simp [Allocations.Request.row])
      · exact absurd ha List.not_mem_nil
  · rw [hs, Tables.release, Allocations.active_release] at ha
    split at ha
    · exact absurd ha List.not_mem_nil
    · exact h s a ha (howned _ hid)

/-- Call `n` allocates a GPU. -/
theorem Holds.take (h : Holds e.call held w) (hf : Fires w e w')
    (ht : taken e = some slot) : Holds e.call (held ++ [slot]) w' := by
  rcases step_cases hf with ⟨-, -, hn, -⟩ | ⟨r, -, hs, hr, hi⟩ | ⟨-, -, -, -, -, hn⟩
  · rw [hn] at ht
    cases ht
  · rw [hr] at ht
    obtain rfl := Option.some.inj ht
    intro s a ha hid
    rw [hs, Tables.insert, Allocations.active_insert, List.mem_append] at ha
    rcases ha with ha | ha
    · rw [owned_own hf, hi, List.mem_append] at hid
      rcases hid with hid | hid
      · have hle := w.state.allocations.given a (Allocations.mem_active.mp ha).1
        have heq : a.id = w.state.allocations.sequence + 1 := by simpa using hid
        omega
      · exact List.mem_append_left _ (h s a ha hid)
    · split at ha
      · rename_i hslot
        exact List.mem_append_right _ (List.mem_singleton.mpr hslot.symm)
      · exact absurd ha List.not_mem_nil
  · rw [hn] at ht
    cases ht

/-- A GPU is released. -/
theorem Holds.release (h : Holds n (slot :: held) w) (hnum : Numbered w) (hf : Fires w e w')
    (hc : e.cmd = .releaseGpu slot) : Holds n held w' := by
  rcases step_cases hf with ⟨-, -, -, hne⟩ | ⟨r, -, -, ht, -⟩ | ⟨s', time, hc', hs, -, htaken⟩
  · exact absurd hc (hne slot)
  · obtain ⟨m, o, c, x⟩ := e
    simp only at hc
    subst hc
    cases ht
  · have hslot : s' = slot := by
      rw [hc'] at hc
      cases hc
      rfl
    subst hslot
    have hkept := h.keep hnum hf fun _ => htaken
    intro s a ha hid
    rcases List.mem_cons.mp (hkept s a ha hid) with rfl | hmem
    · rw [hs, Tables.release, Allocations.active_release, if_pos rfl] at ha
      exact absurd ha List.not_mem_nil
    · exact hmem

/-- A GPU the call has just allocated is its own. -/
theorem ours_of_taken (hf : Fires w e w') (ht : taken e = some slot) : Ours e.call slot w' := by
  rcases step_cases hf with ⟨-, -, hnone, -⟩ | ⟨r, hfree, hs, hr, hi⟩ | ⟨-, -, -, -, -, hnone⟩
  · rw [hnone] at ht
    cases ht
  · rw [hr] at ht
    obtain rfl := Option.some.inj ht
    refine Or.inr fun a ha => ?_
    rw [hs, Tables.insert, Allocations.active_insert, if_pos rfl,
      show w.state.allocations.active r.slot = [] from hfree] at ha
    rw [owned_own hf, hi, List.mem_singleton.mp ha]
    exact List.mem_append_left _ (List.mem_singleton.mpr rfl)
  · rw [hnone] at ht
    cases ht

/-- Once a GPU is the call's, only another client's allocation makes it another's. -/
theorem lasting_ours : Lasting fun w : World (system T) => Ours n slot w := by
  intro w e w' hf h
  by_cases ht : taken e = some slot
  · by_cases hn : e.call = n
    · subst hn
      exact ours_of_taken hf ht
    · refine Or.inl ⟨e, ?_, ht⟩
      rw [hf.2, List.takeWhile_cons_of_pos (by simp [hn])]
      exact List.mem_cons_self
  · have htw : w'.trace.takeWhile (fun e => ¬ (e.call = n ∧ taken e = some slot)) =
        e :: w.trace.takeWhile fun e => ¬ (e.call = n ∧ taken e = some slot) := by
      rw [hf.2, List.takeWhile_cons_of_pos (by simp [ht])]
    rcases h with ⟨e', he', ht'⟩ | h
    · exact Or.inl ⟨e', htw ▸ List.mem_cons_of_mem e he', ht'⟩
    refine Or.inr fun a ha => mem_owned_of_fires hf (h a ?_)
    rcases step_cases hf with ⟨hs, -⟩ | ⟨r, -, hs, hr, -⟩ | ⟨s', time, -, hs, -, -⟩
    · rwa [hs] at ha
    · have hne : r.slot ≠ slot := fun he => ht (he ▸ hr)
      rwa [hs, Tables.insert, Allocations.active_insert, if_neg hne, List.append_nil] at ha
    · rw [hs, Tables.release, Allocations.active_release] at ha
      split at ha
      · exact absurd ha List.not_mem_nil
      · exact ha

end

/-! ## The multi-GPU path -/

/-- Call `n` releases only GPUs whose active rows are its own. -/
def contending (T : Text) (n : Nat) : Discipline (system T) where
  Guard := Uncontended n
  Inv := Numbered
  Guar w e := e.call = n → ∀ self q slot, e.op = .schedule self q → e.cmd = .releaseGpu slot →
    ∀ a ∈ w.state.allocations.active slot, a.id ∈ owned n w

/-- Call `n` has read `all`, and has the GPUs in `held`. -/
structure Mid (n : Nat) (all : List GpuInfo) (held : List Slot) (w : World (system T)) : Prop where
  read : lastAll n w = some all
  known : ∀ g ∈ all, g ∈ w.state.inventory.rows
  holds : Holds n held w
  ours : ∀ slot ∈ held, Ours n slot w

section

variable {n : Nat} {self : Scheduler} {q : Request} {all : List GpuInfo} {held : List Slot}

/-- Only call `n` changes the inventory. -/
theorem inventory_of_other {w w' : World (system T)} {e : Event (system T)} (hn : e.call ≠ n)
    (hg : Uncontended n w e.call e.op e.cmd) (hf : Fires w e w') :
    w'.state.inventory = w.state.inventory := by
  refine inventory_of_fires hf fun invs hc => hn ?_
  obtain ⟨m, o, c, x⟩ := e
  simp only at hc hg ⊢
  subst hc
  cases o <;> exact hg

theorem stable_known {gpus : List GpuInfo} :
    Stable (contending T n) n fun w => ∀ g ∈ gpus, g ∈ w.state.inventory.rows := by
  intro w e w' hn _ hg _ hf _ h g hmem
  rw [inventory_of_other hn hg hf]
  exact h g hmem

theorem stable_holds : Stable (contending T n) n (Holds n held) := by
  intro w e w' hn hi _ _ hf _ h
  exact h.keep hi hf fun hc => absurd hc hn

theorem stable_mid : Stable (contending T n) n (Mid n all held) := by
  intro w e w' hn hi hg hr hf hi' h
  refine ⟨?_, ?_, ?_, fun slot hs => lasting_ours w e w' hf (h.ours slot hs)⟩
  · rw [lastAll, mine_other hf hn]
    exact h.read
  · exact stable_known w e w' hn hi hg hr hf hi' h.known
  · exact stable_holds w e w' hn hi hg hr hf hi' h.holds

/-- A command of call `n` other than a release or a reading of all GPUs. -/
theorem Mid.own {w w' : World (system T)} {e : Event (system T)} (h : Mid e.call all held w)
    (hf : Fires w e w') (hread : readAll e = none) (hsave : ∀ invs, e.cmd ≠ .saveInventory invs)
    {held' : List Slot} (hholds : Holds e.call held' w') (hours : ∀ slot ∈ held', Ours e.call slot w') :
    Mid e.call all held' w' := by
  refine ⟨?_, fun g hg => ?_, hholds, hours⟩
  · rw [lastAll, mine_own hf rfl, List.findSome?_cons, hread]
    exact h.read
  · rw [inventory_of_fires hf hsave]
    exact h.known g hg

/-- Call `n` has gone through the first `k` GPUs of a host and has got `gotten` of them. -/
structure Taking (n : Nat) (all gotten : List GpuInfo) (k : Nat) (w : World (system T)) :
    Prop where
  mid : Mid n all (gotten.map GpuInfo.slot) w
  recent : recent n k w = (gotten.map GpuInfo.slot).reverse

theorem stable_taking {gotten : List GpuInfo} {k : Nat} :
    Stable (contending T n) n (Taking n all gotten k) := by
  intro w e w' hn hi hg hr hf hi' h
  refine ⟨stable_mid w e w' hn hi hg hr hf hi' h.mid, ?_⟩
  rw [Atomic.recent, mine_other hf hn]
  exact h.recent

/-- The next GPU is allocated, or not. -/
theorem Taking.step {gotten : List GpuInfo} {k : Nat} {w w' : World (system T)} {o : Op}
    {gpu : GpuInfo} {task model : String} {vram : Int} {x : Option Nat} (h : Taking n all gotten k w)
    (hi : Numbered w) (hf : Fires w ⟨n, o, .allocateGpu gpu.slot task model vram, x⟩ w') :
    Taking n all (gotten ++ if x.isSome then [gpu] else []) (k + 1) w' := by
  have hmine := mine_own hf rfl
  cases x with
  | none =>
    rw [if_neg (by simp), List.append_nil]
    refine ⟨h.mid.own hf rfl (by simp) (h.mid.holds.keep hi hf fun _ => rfl) fun slot hs => ?_, ?_⟩
    · exact lasting_ours _ _ _ hf (h.mid.ours slot hs)
    · rw [Atomic.recent, hmine, List.take_succ_cons, List.filterMap_cons]
      exact h.recent
  | some id =>
    rw [if_pos (by simp)]
    have ht : taken (T := T) ⟨n, o, .allocateGpu gpu.slot task model vram, some id⟩ =
        some gpu.slot := rfl
    refine ⟨h.mid.own hf rfl (by simp) ?_ fun slot hs => ?_, ?_⟩
    · rw [List.map_append]
      exact h.mid.holds.take hf ht
    · rw [List.map_append, List.mem_append] at hs
      rcases hs with hs | hs
      · exact lasting_ours _ _ _ hf (h.mid.ours slot hs)
      · rw [List.map_singleton, List.mem_singleton] at hs
        subst hs
        exact ours_of_taken hf ht
    · rw [Atomic.recent, hmine, List.take_succ_cons, List.filterMap_cons, ht, List.map_append,
        List.reverse_append]
      exact congrArg (gpu.slot :: ·) h.recent

/-- Part of a list without repetitions is what it has in common with the list. -/
theorem filter_mem_of_sublist {α β : Type} [DecidableEq β] {f : α → β} {l' l : List α}
    (h : l'.Sublist l) (hnodup : (l.map f).Nodup) :
    l.filter (fun a => f a ∈ l'.map f) = l' := by
  induction h with
  | slnil => rfl
  | @cons l₁ l₂ a h ih =>
    rw [List.map_cons, List.nodup_cons] at hnodup
    have hnot : f a ∉ l₁.map f := fun ha => hnodup.1 ((h.map f).subset ha)
    rw [List.filter_cons_of_neg (by simpa using hnot), ih hnodup.2]
  | @cons_cons l₁ l₂ a h ih =>
    rw [List.map_cons, List.nodup_cons] at hnodup
    have hrest : l₂.filter (fun b => f b ∈ (a :: l₁).map f) = l₂.filter fun b => f b ∈ l₁.map f := by
      refine List.filter_congr fun b hb => ?_
      have hne : f b ≠ f a := fun he => hnodup.1 (he ▸ List.mem_map_of_mem hb)
      simp [hne]
    rw [List.filter_cons_of_pos (by simp), hrest, ih hnodup.2]

/-- At the last GPU of a host, what the call gets is what it has and that GPU, if it is free. -/
theorem obtained_eq {pre gotten : List GpuInfo} {gpu : GpuInfo} {w : World (system T)}
    (hnodup : ((pre ++ [gpu]).map GpuInfo.slot).Nodup) (hsub : gotten.Sublist pre)
    (hrecent : recent n pre.length w = (gotten.map GpuInfo.slot).reverse) :
    obtained n (pre ++ [gpu]) gpu.slot w =
      gotten ++ if w.state.Free gpu.slot then [gpu] else [] := by
  rw [List.map_append, List.map_singleton, List.nodup_append] at hnodup
  obtain ⟨hpre, -, hdisj⟩ := hnodup
  have hlen : (pre ++ [gpu]).length - 1 = pre.length := by simp
  unfold obtained
  rw [hlen, hrecent, List.filter_append]
  congr 1
  · refine Eq.trans (List.filter_congr fun g hg => ?_) (filter_mem_of_sublist hsub hpre)
    have hne : g.slot ≠ gpu.slot := by
      exact hdisj g.slot (List.mem_map_of_mem hg) gpu.slot (List.mem_singleton.mpr rfl)
    simp [hne]
  · have hnot : gpu.slot ∉ gotten.map GpuInfo.slot := by
      intro hmem
      have hin := (hsub.map GpuInfo.slot).subset hmem
      exact hdisj gpu.slot hin gpu.slot (List.mem_singleton.mpr rfl) rfl
    by_cases hfree : w.state.Free gpu.slot
    · rw [if_pos hfree, List.filter_cons_of_pos (by simp [hfree]), List.filter_nil]
    · rw [if_neg hfree, List.filter_cons_of_neg (by simpa [hfree] using hnot), List.filter_nil]

/-- What is known after the GPUs of a host have been gone through. -/
def Took (n : Nat) (q : Request) (all gpus gotten : List GpuInfo) (indices : List Int)
    (w : World (system T)) : Prop :=
  ∃ more, indices = more.map GpuInfo.gpuIndex ∧ (gotten ++ more).Sublist gpus ∧
    Enough q.vram (gotten ++ more) ∧ Mid n all ((gotten ++ more).map GpuInfo.slot) w

/-- **Allocation by allocation.** -/
theorem allocateEach_outline {host : String} {share : Int} {gpus : List GpuInfo}
    (hgpus : gpus = onHost all host) (hnodup : (gpus.map GpuInfo.slot).Nodup) :
    ∀ {rest pre gotten : List GpuInfo}, gpus = pre ++ rest → gotten.Sublist pre →
      Outline (contending T n) n (.schedule self q)
        (Outcome (Took n q all gpus gotten) fun _ _ => True)
        (allocateEach api q host share rest)
        fun w => Taking n all gotten pre.length w ∧ (rest = [] → Enough q.vram gotten)
  | [], pre, gotten, hsplit, hsub => by
    refine outline_ret fun w _ ⟨htaking, henough⟩ => ⟨[], rfl, ?_, ?_, ?_⟩
    · rw [List.append_nil, hsplit, List.append_nil]
      exact hsub
    · rw [List.append_nil]
      exact henough rfl
    · rw [List.append_nil]
      exact htaking.mid
  | gpu :: rest, pre, gotten, hsplit, hsub => by
    have hslot : (⟨host, gpu.gpuIndex⟩ : Slot) = gpu.slot := by
      have hmem : gpu ∈ onHost all host := hgpus ▸ hsplit ▸ by simp
      have hhost : gpu.host = host := by simpa [onHost] using (List.mem_filter.mp hmem).2
      rw [← hhost]
      rfl
    have hpre : gpus = (pre ++ [gpu]) ++ rest := by rw [hsplit, List.append_assoc]; rfl
    refine outline_op (c := Cmd.allocateGpu ⟨host, gpu.gpuIndex⟩ q.taskId q.modelName share)
      (fun x w => Taking n all (gotten ++ if Option.isSome x then [gpu] else []) (pre.length + 1) w ∧
        (rest = [] → Enough q.vram (gotten ++ if Option.isSome x then [gpu] else [])))
      (fun x => stable_and stable_taking stable_pure) ?_ fun x => ?_
    · rintro w x w' hi ⟨htaking, -⟩ hg hf
      rw [hslot] at hf hg
      refine ⟨fun _ _ _ _ _ hc => ?_, numbered_of_fires hi hf, htaking.step hi hf, fun hnil => ?_⟩
      · cases hc
      subst hnil
      have hlast : (onHost all gpu.slot.host).getLast?.map GpuInfo.slot = some gpu.slot := by
        rw [← hslot, ← hgpus, hsplit, hslot]
        simp
      have henough := hg rfl all htaking.mid.read hlast
      rw [← hslot, ← hgpus, hsplit, hslot,
        obtained_eq (hsplit ▸ hnodup) hsub htaking.recent] at henough
      have hsome := isSome_iff_free hf
      by_cases hfree : w.state.Free gpu.slot
      · rw [if_pos hfree] at henough
        rw [if_pos (hsome.mpr hfree)]
        exact henough
      · rw [if_neg hfree] at henough
        rw [if_neg fun hx => hfree (hsome.mp hx)]
        exact henough
    · have hsub' : (gotten ++ if Option.isSome x then [gpu] else []).Sublist (pre ++ [gpu]) := by
        refine hsub.append ?_
        split
        · exact List.Sublist.refl _
        · exact List.nil_sublist _
      have hlen : (pre ++ [gpu]).length = pre.length + 1 := by simp
      have hrest : Outline (contending T n) n (.schedule self q) _
          (allocateEach api q host share rest) _ := allocateEach_outline hgpus hnodup hpre hsub'
      rw [hlen] at hrest
      refine outline_bind (f := fun indices => Prog.ret
        (if Option.isSome x then gpu.gpuIndex :: indices else indices)) (fun indices => ?_) hrest
      refine outline_ret fun w _ ⟨more, hind, hsub, henough, hmid⟩ => ?_
      rw [List.append_assoc] at hsub henough hmid
      refine ⟨(if Option.isSome x then [gpu] else []) ++ more, ?_, hsub, henough, hmid⟩
      rw [hind]
      split <;> rfl

/-- **Rollback.** Each release is of a GPU that is the call's own. -/
theorem releaseEach_outline {host : String} : ∀ indices : List Int,
    Outline (contending T n) n (.schedule self q) (Outcome (fun _ => Mid n all []) fun _ _ => True)
      (releaseEach api host indices) (Mid n all (indices.map (Slot.mk host)))
  | [] => outline_ret fun _ _ h => h
  | idx :: indices => by
    refine outline_cmd (c := Cmd.releaseGpu ⟨host, idx⟩)
      (fun _ => Mid n all (indices.map (Slot.mk host))) (fun _ => stable_mid) ?_
      fun _ => releaseEach_outline indices
    intro w x w' hi hmid hg hf
    have hours := hmid.ours ⟨host, idx⟩ List.mem_cons_self
    refine ⟨fun _ self q slot _ hc => ?_, numbered_of_fires hi hf, ?_⟩
    · cases hc
      exact hours.resolve_left (hg rfl)
    · refine hmid.own hf rfl (by simp) (hmid.holds.release hi hf rfl) fun slot hs => ?_
      exact lasting_ours _ _ _ hf (hmid.ours slot (List.mem_cons_of_mem _ hs))

/-- The free VRAM of a GPU. -/
def freeOf (t : Tables) (slot : Slot) : Int :=
  ((t.inventory.find? slot).map GpuInfo.vramFreeMb).getD 0

/-- The GPUs a result names have the VRAM of the request. -/
def Backed (q : Request) (result : ScheduleResult) (t : Tables) : Prop :=
  ∃ host, result.host = some host ∧ result.gpuIndices.Nodup ∧
    q.vram ≤ (result.gpuIndices.map fun idx => freeOf t ⟨host, idx⟩).sum

/-- What a call promises with its result. -/
structure Kept (n : Nat) (q : Request) (result : ScheduleResult) (w : World (system T)) : Prop where
  failure : result.success = false → Holds n [] w
  success : result.success = true → Backed q result w.state

theorem backed_of_gpus {t : Tables} {result : ScheduleResult} {host : String}
    {gpus : List GpuInfo} (hhost : result.host = some host)
    (hind : result.gpuIndices = gpus.map GpuInfo.gpuIndex)
    (hgpus : ∀ g ∈ gpus, g.host = host ∧ g ∈ t.inventory.rows)
    (hnodup : (gpus.map GpuInfo.slot).Nodup) (hv : q.vram ≤ freeSum gpus) : Backed q result t := by
  have hslot : ∀ g ∈ gpus, (⟨host, g.gpuIndex⟩ : Slot) = g.slot := by
    intro g hg
    rw [← (hgpus g hg).1]
    rfl
  refine ⟨host, hhost, ?_, ?_⟩
  · have hslots : gpus.map GpuInfo.slot = (gpus.map GpuInfo.gpuIndex).map (Slot.mk host) := by
      rw [List.map_map]
      exact List.map_congr_left fun g hg => (hslot g hg).symm
    rw [hind]
    exact (hslots ▸ hnodup).of_map _
  · have hfree : (result.gpuIndices.map fun idx => freeOf t ⟨host, idx⟩) =
        gpus.map GpuInfo.vramFreeMb := by
      rw [hind, List.map_map]
      refine List.map_congr_left fun g hg => ?_
      rw [Function.comp_apply, hslot g hg, freeOf, Table.find?_of_mem (hgpus g hg).2]
      rfl
    rw [hfree]
    exact hv

theorem stable_kept {result : ScheduleResult} : Stable (contending T n) n (Kept n q result) := by
  intro w e w' hn hi hg hr hf hi' h
  refine ⟨fun hs => stable_holds w e w' hn hi hg hr hf hi' (h.failure hs), fun hs => ?_⟩
  obtain ⟨host, hhost, hnodup, hv⟩ := h.success hs
  refine ⟨host, hhost, hnodup, ?_⟩
  unfold freeOf
  rw [inventory_of_other hn hg hf]
  exact hv

/-- **Host by host.** -/
theorem tryHosts_outline (hnodup : (all.map GpuInfo.slot).Nodup) :
    ∀ {hosts : List (String × List GpuInfo)}, (∀ p ∈ hosts, p.2 = onHost all p.1) →
      Outline (contending T n) n (.schedule self q) (Outcome (Kept n q) fun _ _ => True)
        (tryHosts api q hosts) (Mid n all [])
  | [], _ => outline_ret fun w _ hmid => ⟨fun _ => hmid.holds, fun hs => by cases hs⟩
  | (host, gpus) :: hosts, hhosts => by
    have hgpus : gpus = onHost all host := hhosts (host, gpus) List.mem_cons_self
    have hrest := tryHosts_outline hnodup fun p hp => hhosts p (List.mem_cons_of_mem _ hp)
    unfold tryHosts
    split
    · rename_i hfits
      have hnd : (gpus.map GpuInfo.slot).Nodup := by
        rw [hgpus]
        exact hnodup.sublist (List.filter_sublist.map _)
      have hslot : ∀ g ∈ gpus, g.host = host ∧ g ∈ all := by
        intro g hg
        rw [hgpus] at hg
        exact ⟨by simpa using (List.mem_filter.mp hg).2, (List.mem_filter.mp hg).1⟩
      refine outline_bind (R := Took n q all gpus []) (fun indices => ?_) (outline_pre ?_
        (allocateEach_outline hgpus hnd (List.nil_append gpus).symm (List.Sublist.refl [])))
      · split
        · -- two GPUs or more: they have enough
          rename_i hlen
          refine outline_ret fun w _ htook => ?_
          obtain ⟨more, hind, hsub, henough, hmid⟩ := htook
          refine ⟨?_, fun _ => ?_⟩
          · intro hs
            cases hs
          · rw [List.nil_append] at hsub henough
            have hv : q.vram ≤ freeSum more := by
              refine henough.resolve_left fun hlt => ?_
              rw [hind, List.length_map] at hlen
              omega
            refine backed_of_gpus rfl hind (fun g hg => ?_) (hnd.sublist (hsub.map _)) hv
            obtain ⟨hhost, hall⟩ := hslot g (hsub.subset hg)
            exact ⟨hhost, hmid.known g hall⟩
        · -- less: they are released, and the next host is tried
          refine outline_bind (R := fun _ => Mid n all []) (fun _ => hrest) (outline_pre ?_
            (releaseEach_outline indices))
          rintro w _ ⟨more, rfl, hsub, -, hmid⟩
          rw [List.nil_append] at hsub hmid
          have hslots : (more.map GpuInfo.gpuIndex).map (Slot.mk host) = more.map GpuInfo.slot := by
            rw [List.map_map]
            refine List.map_congr_left fun g hg => ?_
            rw [Function.comp_apply, ← (hslot g (hsub.subset hg)).1]
            rfl
          rw [hslots]
          exact hmid
      · refine fun w _ hmid => ⟨⟨hmid, rfl⟩, fun hnil => ?_⟩
        rw [hnil] at hfits
        exact absurd hfits.2 (by decide)
    · exact hrest

/-! ## The other paths -/

/-- Call `n` has allocated nothing and not read all GPUs. -/
structure Fresh (n : Nat) (w : World (system T)) : Prop where
  read : lastAll n w = none
  owned : owned n w = []

theorem stable_fresh : Stable (contending T n) n (Fresh n) := by
  intro w e w' hn _ _ _ hf _ h
  constructor
  · rw [lastAll, mine_other hf hn]
    exact h.read
  · rw [owned_other hf hn]
    exact h.owned

/-- A command that allocates nothing and does not read all GPUs. -/
theorem Fresh.own {w w' : World (system T)} {e : Event (system T)} (h : Fresh e.call w)
    (hf : Fires w e w') (hread : readAll e = none) (hins : inserted e = none) :
    Fresh e.call w' := by
  constructor
  · rw [lastAll, mine_own hf rfl, List.findSome?_cons, hread]
    exact h.read
  · rw [owned_own hf, hins]
    exact h.owned

theorem Fresh.holds {w : World (system T)} (h : Fresh n w) : Holds n [] w := by
  intro slot a _ hid
  rw [h.owned] at hid
  exact absurd hid List.not_mem_nil

/-- A path has given a result, or nothing. -/
def Placed (n : Nat) (q : Request) : Option ScheduleResult → World (system T) → Prop
  | some result => Kept n q result
  | none => Fresh n

theorem stable_placed : ∀ r : Option ScheduleResult, Stable (contending T n) n (Placed n q r)
  | some _ => stable_kept
  | none => stable_fresh

/-- A GPU that has the VRAM of the request. -/
def Roomy (q : Request) (gpu : GpuInfo) (t : Tables) : Prop :=
  gpu ∈ t.inventory.rows ∧ q.vram ≤ gpu.vramFreeMb

theorem allocateOne_outline {gpu : GpuInfo} {reason : String} :
    Outline (contending T n) n (.schedule self q) (Outcome (Placed n q) fun _ _ => True)
      (allocateOne api q gpu reason) fun w => Fresh n w ∧ Roomy q gpu w.state := by
  refine outline_op
    (c := Cmd.allocateGpu ⟨gpu.host, gpu.gpuIndex⟩ q.taskId q.modelName q.vram)
    (fun x => Placed n q (if Option.isSome x then some {
      success := true, host := some gpu.host, gpuIndices := [gpu.gpuIndex]
      modelName := some q.modelName, vramAllocatedMb := q.vram, reason } else none))
    (fun x => stable_placed _) ?_ fun x => ?_
  · rintro w x w' hi ⟨hfresh, hmem, hv⟩ _ hf
    refine ⟨fun _ _ _ _ _ hc => ?_, numbered_of_fires hi hf, ?_⟩
    · cases hc
    cases x with
    | none => exact hfresh.own hf rfl rfl
    | some id =>
      refine ⟨fun hs => ?_, fun _ => ?_⟩
      · cases hs
      have hind : [gpu.gpuIndex] = [gpu].map GpuInfo.gpuIndex := rfl
      refine backed_of_gpus rfl hind (fun g hg => ?_) (List.nodup_singleton _) ?_
      · rw [List.mem_singleton.mp hg, inventory_of_fires hf (by simp)]
        exact ⟨rfl, hmem⟩
      · simpa [freeSum] using hv
  · cases x with
    | none => exact outline_ret fun _ _ h => h
    | some id => exact outline_ret fun _ _ h => h

/-- Reading the GPUs that have the VRAM of the request. -/
theorem getAvailable_outline {α : Type} {exclude : List String} {f : List GpuInfo → P α}
    {Q : Except PyError α → World (system T) → Prop}
    (hf : ∀ gpus, Outline (contending T n) n (.schedule self q) Q (f gpus)
      fun w => Fresh n w ∧ ∀ g ∈ gpus, Roomy q g w.state) :
    Outline (contending T n) n (.schedule self q) Q
      (api.getAvailableGpus q.vram exclude >>= f) (Fresh n) := by
  refine outline_op (c := Cmd.getAvailableGpus q.vram exclude)
    (fun gpus w => Fresh n w ∧ ∀ g ∈ (gpus : List GpuInfo), Roomy q g w.state) (fun gpus => ?_) ?_ hf
  · intro w e w' hn hi hg hr hf hi' ⟨hfresh, hgpus⟩
    refine ⟨stable_fresh w e w' hn hi hg hr hf hi' hfresh, fun g hmem => ?_⟩
    rw [Roomy, inventory_of_other hn hg hf]
    exact hgpus g hmem
  · intro w gpus w' hi hfresh _ hf
    have hv := q.vram_pos
    refine ⟨fun _ _ _ _ _ hc => ?_, numbered_of_fires hi hf, ?_, fun g hg => ?_⟩
    · cases hc
    · refine hfresh.own hf ?_ rfl
      rw [readAll, if_neg (by omega)]
    · obtain ⟨⟨i, hx⟩, -⟩ := hf
      obtain ⟨rfl, hs⟩ := Prod.mk.inj (Option.some.inj hx)
      have hav := Tables.mem_available.mp (mem_admitted.mp hg).1
      rw [← hs]
      exact ⟨hav.1, hav.2.2⟩

theorem tryPreferred_outline :
    Outline (contending T n) n (.schedule self q) (Outcome (Placed n q) fun _ _ => True)
      (tryPreferred api T self q) (Fresh n) := by
  unfold tryPreferred
  split
  · refine getAvailable_outline fun gpus => ?_
    simp only
    split
    · exact outline_ret fun _ _ h => h.1
    · rename_i gpu rest hpreferred
      have hmem : gpu ∈ gpus := List.mem_of_mem_filter (hpreferred ▸ List.mem_cons_self)
      exact outline_pre (fun w _ h => ⟨h.1, h.2 gpu hmem⟩) allocateOne_outline
  · exact outline_ret fun _ _ h => h

theorem tryBestFit_outline :
    Outline (contending T n) n (.schedule self q) (Outcome (Placed n q) fun _ _ => True)
      (tryBestFit api self q) (Fresh n) := by
  refine getAvailable_outline fun gpus => ?_
  split
  · exact outline_ret fun _ _ h => h.1
  · rename_i gpu rest hcons
    have hmem : gpu ∈ gpus := by
      have hperm : (tightest gpus).Perm gpus := List.perm_insertionSort _ _
      exact hperm.mem_iff.mp (hcons ▸ List.mem_cons_self)
    exact outline_pre (fun w _ h => ⟨h.1, h.2 gpu hmem⟩) allocateOne_outline

theorem lastResort_outline :
    Outline (contending T n) n (.schedule self q) (Outcome (Kept n q) fun _ _ => True)
      (lastResort api T self q) (Fresh n) := by
  have hrefuse : ∀ w : World (system T), Holds n [] w → Kept n q (refusal T self q) w :=
    fun w h => ⟨fun _ => h, fun hs => by cases hs⟩
  unfold lastResort
  split
  · refine outline_bind (R := Kept n q) (fun result => ?_) ?_
    · split
      · exact outline_ret fun _ _ h => h
      · rename_i hs
        exact outline_ret fun w _ h => hrefuse w (h.failure (by simpa using hs))
    · refine outline_op (c := Cmd.getAvailableGpus 0 self.excludeHosts)
        (fun all w => Mid n all [] w ∧ (List.map GpuInfo.slot all).Nodup)
        (fun all => stable_and stable_mid (stable_pure (p := (List.map GpuInfo.slot all).Nodup))) ?_
        fun all => ?_
      · intro w all w' hi hfresh _ hf
        have hmine := mine_own hf rfl
        have hholds := hfresh.holds.keep hi hf fun _ => rfl
        refine ⟨fun _ _ _ _ _ hc => ?_, numbered_of_fires hi hf, ⟨?_, ?_, hholds, ?_⟩, ?_⟩
        · cases hc
        · rw [lastAll, hmine]
          rfl
        · obtain ⟨⟨i, hx⟩, -⟩ := hf
          obtain ⟨rfl, hs⟩ := Prod.mk.inj (Option.some.inj hx)
          intro g hg
          rw [← hs]
          exact (Tables.mem_available.mp (mem_admitted.mp hg).1).1
        · exact fun slot hs => absurd hs List.not_mem_nil
        · obtain ⟨⟨i, hx⟩, -⟩ := hf
          obtain ⟨rfl, -⟩ := Prod.mk.inj (Option.some.inj hx)
          exact (w.state.nodup_available 0).sublist (List.filter_sublist.map _)
      · by_cases hnodup : (List.map GpuInfo.slot all).Nodup
        · refine outline_pre (fun w _ h => h.1) (tryHosts_outline hnodup fun p hp => ?_)
          exact (byHost_spec all).1 p hp
        · exact outline_pre (P := fun _ => False) (fun w _ h => hnodup h.2) outline_false
  · exact outline_ret fun w _ h => hrefuse w h.holds

/-- A command of `refresh_inventory`. -/
def Cmd.Refreshes : Cmd → Prop
  | .time | .probeHost _ | .saveInventory _ => True
  | _ => False

theorem refresh_outline :
    Outline (contending T n) n (.schedule self q) (Outcome (fun _ => Fresh n) fun _ _ => True)
      (refreshInventory api T self) (Fresh n) := by
  have heach : (refreshInventory api T self).Each Cmd.Refreshes :=
    refreshInventory_all Prog.each_compositional T self ⟨trivial, fun _ => trivial⟩
      (fun _ => ⟨trivial, fun _ => trivial⟩) fun _ => ⟨trivial, fun _ => trivial⟩
  refine outline_mono (fun _ _ h => h) (fun r w _ h => ?_)
    (outline_of_each stable_fresh (fun c hc w x w' hi hfresh _ hf => ?_) heach)
  · cases r with
    | ok _ => exact h
    | error _ => trivial
  · refine ⟨fun _ _ _ slot _ he => ?_, numbered_of_fires hi hf, ?_⟩
    · simp only at he
      subst he
      exact hc.elim
    · cases c with
      | time | probeHost | saveInventory => exact hfresh.own hf rfl rfl
      | _ => exact hc.elim

theorem schedule_outline :
    Outline (contending T n) n (.schedule self q) (Outcome (Kept n q) fun _ _ => True)
      (schedule api T self q) (Untouched n) := by
  refine outline_bind (R := fun _ => Fresh n) (fun _ => ?_) (outline_pre ?_ refresh_outline)
  · refine outline_bind (R := Placed n q) (fun preferred => ?_) tryPreferred_outline
    cases preferred with
    | some result => exact outline_ret fun _ _ h => h
    | none =>
      refine outline_bind (R := Placed n q) (fun best => ?_) tryBestFit_outline
      cases best with
      | some result => exact outline_ret fun _ _ h => h
      | none => exact lastResort_outline
  · intro w _ h
    have hmine : mine n w = [] := h
    exact ⟨by rw [lastAll, hmine]; rfl, by rw [owned, hmine]; rfl⟩

end

/-! ## All or nothing -/

/-- What the calls of the system promise; only call `n` is of interest. -/
def Promise (n m : Nat) : (o : Op) → Except PyError (Ret o) → World (system T) → Prop
  | .schedule _ q, .ok result, w => m = n → Kept n q result w
  | _, _, _ => True

/-- A call that is not of interest. -/
theorem outline_bystander {n m : Nat} {o : Op} {α : Type} {p : P α}
    (h : m = n → ∀ self q, o ≠ .schedule self q) :
    Outline (contending T n) m o (fun _ _ => True) p fun _ => True := by
  refine outline_of_each stable_true (fun c _ w x w' hi _ _ hf => ?_) (Prog.each_true p)
  exact ⟨fun hm self q _ ho => absurd ho (h hm self q), numbered_of_fires hi hf, trivial⟩

theorem prog_outline (n m : Nat) (o : Op) :
    Outline (contending T n) m o (Promise n m o) (prog T o) (Untouched m) := by
  have htrivial : ∀ {o : Op}, (∀ self q, o ≠ .schedule self q) →
      Outline (contending T n) m o (fun _ _ => True) (prog T o) (Untouched m) :=
    fun ho => outline_pre (fun _ _ _ => trivial) (outline_bystander fun _ => ho)
  cases o with
  | allocate host gpu_index task_id model_name vram =>
    refine outline_mono (fun _ _ h => h) (fun r _ _ _ => ?_) (htrivial (by simp))
    cases r <;> trivial
  | release host gpu_index =>
    refine outline_mono (fun _ _ h => h) (fun r _ _ _ => ?_) (htrivial (by simp))
    cases r <;> trivial
  | schedule self q =>
    by_cases hm : m = n
    · subst hm
      refine outline_mono (fun _ _ h => h) (fun r w _ h => ?_) schedule_outline
      cases r with
      | ok result => exact fun _ => h
      | error e => trivial
    · refine outline_pre (fun _ _ _ => trivial) (outline_mono (fun _ _ h => h) (fun r _ _ _ => ?_)
        (outline_bystander fun h => absurd h hm))
      cases r with
      | ok result => exact fun h => absurd h hm
      | error e => trivial

/-- Call `n`, a `schedule`, has kept what it promises: a failed call has no active row; a successful
one reports GPUs with the VRAM of the request; and where it is about to release a GPU, as `G` allows
it, the active rows of that GPU are its own. -/
structure AllOrNothing (G : Guard (system T)) (n : Nat) (c : Config (system T)) : Prop where
  kept : ∀ self q result, c.Returned n (.schedule self q) result → Kept n q result c.world
  release : ∀ self q slot k, c.proc n = some ⟨.schedule self q, .op (.releaseGpu slot) k⟩ →
    G c.world n (.schedule self q) (.releaseGpu slot) →
      ∀ a ∈ c.world.state.allocations.active slot, a.id ∈ owned n c.world

/-- **All or nothing**, where what the call gets of a host is less than two GPUs or enough, and
nobody allocates a GPU between its allocation by the call and its rollback. -/
theorem all_or_nothing {n : Nat} {t : Tables} {c : Config (system T)}
    (h : Run (Uncontended n) (.init t) c) : AllOrNothing (Uncontended n) n c := by
  have hsound := run_sound (D := contending T n) (prog_outline n)
    (fun m id hid => absurd hid List.not_mem_nil) h
  constructor
  · exact fun self q result hr => hsound.returned hr rfl
  · intro self q slot k hn hg
    have hf : Fires c.world ⟨n, .schedule self q, .releaseGpu slot, ()⟩
        ⟨c.world.state.release slot 0, _ :: c.world.trace⟩ :=
      ⟨⟨⟨0, ⟨"", [], true, none⟩, false⟩, rfl⟩, rfl⟩
    exact hsound.next hn hg hf rfl self q slot rfl rfl

/-! ## A grant that is short of VRAM -/

/-- The result call `n` has returned from `schedule`, and the call. -/
def scheduled (c : Config (system T)) (n : Nat) : Option (Scheduler × Request × ScheduleResult) :=
  match c.proc n with
  | some ⟨.schedule self q, .ret result⟩ => some (self, q, result)
  | _ => none

theorem returned_of_scheduled {c : Config (system T)} {n : Nat} {self : Scheduler} {q : Request}
    {result : ScheduleResult} (h : scheduled c n = some (self, q, result)) :
    c.Returned n (.schedule self q) result := by
  unfold scheduled at h
  split at h
  · rename_i hn
    cases h
    exact hn
  · cases h

/-- Three GPUs of one host. -/
def threeGpus : Tables :=
  ⟨⟨[gpuWith 0 8000, gpuWith 1 8000, gpuWith 2 8000], by decide⟩, Allocations.empty⟩

/-- A task that requires all three. -/
abbrev wide : Op := .schedule fresh (taskOf 24000)

/-- The call has allocated the first GPU, another client takes the second. -/
def takenBetween : List (Act (system ascii)) :=
  solo (system ascii) 0 wide 4 second ++
    solo (system ascii) 1 (.allocate "h" 1 "other" "" 0) 1 second ++
    List.replicate 2 (.step 0 second)

theorem takenBetween_plays : (play Free (.init threeGpus) takenBetween).isSome := by
  decide +kernel

theorem short_of_vram : ∃ c : Config (system ascii), Run Free (.init threeGpus) c ∧
    ¬ AllOrNothing Free 0 c := by
  refine ⟨played Free _ _ takenBetween_plays, run_played takenBetween_plays, fun h => ?_⟩
  have hr : scheduled (played Free _ _ takenBetween_plays) 0 = some (fresh, taskOf 24000, {
      success := true, host := some "h", gpuIndices := [0, 2], modelName := some ""
      vramAllocatedMb := 24000, reason := "Multi-GPU on h: 2 GPUs, 24000MB combined" }) := by
    decide +kernel
  obtain ⟨host, hhost, -, hv⟩ := (h.kept _ _ _ (returned_of_scheduled hr)).success rfl
  cases hhost
  have hfree : ([0, 2].map fun idx => freeOf (played Free _ _ takenBetween_plays).world.state
      ⟨"h", idx⟩).sum = 16000 := by
    decide +kernel
  rw [hfree] at hv
  exact absurd hv (by decide)

/-- The call gets all three GPUs, and another client none. -/
def allThree : List (Act (system ascii)) :=
  solo (system ascii) 0 wide 4 second ++
    solo (system ascii) 1 (.allocate "h" 0 "other" "" 0) 1 second ++
    List.replicate 2 (.step 0 second)

theorem allThree_plays : (play (Uncontended 0) (.init threeGpus) allThree).isSome := by
  decide +kernel

theorem all_or_nothing_allThree : AllOrNothing (Uncontended 0) 0
    (played (Uncontended 0) (.init threeGpus) allThree allThree_plays) :=
  all_or_nothing (run_played allThree_plays)

end ClaudeSwarm.Gpu.Atomic
