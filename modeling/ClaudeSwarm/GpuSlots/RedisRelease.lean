import ClaudeSwarm.GpuSlots.Redis

/-!
# Who releases a slot on Redis

`release_gpu_slot` reads the key, compares, and deletes it in a round trip of its own. If the key
expires after the `GET` and another process claims the slot before the `DELETE`, that process loses
its claim (`release_deletes_other`).

* `get_of_fires`: what a command does to the value of a slot.
* `prog_checks`: between the `GET` and the `DELETE` the value is the caller's, gone, or that of a
  claim that came in between.
* **`release_own`**: when none came in between, a `DELETE` removes the caller's own key or none.
-/

namespace ClaudeSwarm.GpuSlots.Redis

open Interleave
open Python (Time)

/-- The holder the event claims the slot for. -/
def claimed (slot : Int) : Event system → Option String
  | ⟨_, _, .setNxEx slot' holder _, x⟩ => if slot' = slot ∧ x = true then some holder else none
  | _ => none

/-- What a command leaves in a slot: what was there, nothing, or the holder of a new claim. -/
theorem get_of_fires {w w' : World system} {e : Event system} (hf : Fires w e w') (slot : Int) :
    w'.state.get slot = w.state.get slot ∨ w'.state.get slot = none ∨
      w'.state.get slot = claimed slot e := by
  obtain ⟨n, o, c, x⟩ := e
  obtain ⟨⟨i, hx⟩, -⟩ := hf
  simp only at hx
  generalize w'.state = s' at hx ⊢
  cases c with
  | time | get =>
    cases hx
    exact Or.inl rfl
  | elapse ms =>
    cases hx
    rcases w.state.get_elapse slot ms with h | h
    · exact Or.inl h
    · exact Or.inr (Or.inl h)
  | delete slot' =>
    cases hx
    by_cases hslot : slot = slot'
    · rw [hslot, Server.get_put_self]
      exact Or.inr (Or.inl rfl)
    · exact Or.inl (Server.get_put_of_ne hslot)
  | setNxEx slot' holder ttl =>
    simp only [exec] at hx
    split at hx <;> cases hx
    · by_cases hslot : slot = slot'
      · rw [hslot, Server.get_put_self]
        by_cases httl : 0 < ttl
        · exact Or.inr (Or.inr (by simp [claimed, Option.filter, httl]))
        · exact Or.inr (Or.inl (by simp [Option.filter, httl]))
      · exact Or.inl (Server.get_put_of_ne hslot)
    · exact Or.inl rfl

/-- Since call `n`'s last command the slot has been claimed for another holder. -/
def Overtaken (n : Nat) (slot : Int) (holder : String) (w : World system) : Prop :=
  ∃ e ∈ others n w, ∃ holder' ∈ claimed slot e, holder' ≠ holder

instance (n : Nat) (slot : Int) (holder : String) (w : World system) :
    Decidable (Overtaken n slot holder w) := by
  unfold Overtaken
  infer_instance

/-- Nobody else claims a slot between the `GET` and the `DELETE` of its release. -/
def Prompt : Guard system := fun w n o c =>
  match o, c with
  | .release p _, .delete slot => ¬ Overtaken n slot p.holder w
  | _, _ => True

instance (w : World system) (n : Nat) (o : Op) (c : Cmd) : Decidable (Prompt w n o c) :=
  match o, c with
  | .release p _, .delete slot => inferInstanceAs (Decidable (¬ Overtaken n slot p.holder w))
  | .release _ _, .time | .release _ _, .setNxEx _ _ _ => .isTrue trivial
  | .release _ _, .get _ | .release _ _, .elapse _ => .isTrue trivial
  | .claim .., _ | .setupOllama, _ | .elapse _, _ => .isTrue trivial

/-- The slot is the caller's, or nobody's, unless someone has overtaken it. -/
def Checked (n : Nat) (p : Proc) (slot : Int) (w : World system) : Prop :=
  Overtaken n slot p.holder w ∨ ∀ holder ∈ w.state.get slot, holder = p.holder

/-- A `DELETE` is that of a release, which has checked the slot. -/
def releasing : Discipline system where
  Guard := Prompt
  Inv _ := True
  Guar w e := ∀ slot, e.cmd = .delete slot →
    ∃ p, e.op = .release p slot ∧ ∀ holder ∈ w.state.get slot, holder = p.holder

theorem stable_checked {n : Nat} {p : Proc} {slot : Int} :
    Stable releasing n (Checked n p slot) := by
  intro w e w' hn _ _ _ hf _ h
  have hothers := others_other hf hn
  by_cases hclaimed : ∃ holder ∈ claimed slot e, holder ≠ p.holder
  · obtain ⟨holder, hc, hne⟩ := hclaimed
    exact Or.inl ⟨e, by simp [hothers], holder, hc, hne⟩
  rcases h with ⟨e', he', h⟩ | h
  · exact Or.inl ⟨e', by simp [hothers, he'], h⟩
  refine Or.inr fun holder hh => ?_
  rcases get_of_fires hf slot with heq | heq | heq
  · exact h holder (heq ▸ hh)
  · rw [heq] at hh
    cases hh
  · by_contra hne
    exact hclaimed ⟨holder, heq ▸ hh, hne⟩

/-- The command deletes no slot. -/
def Cmd.Keeps : Cmd → Prop
  | .delete _ => False
  | _ => True

/-- A program without a `DELETE`. -/
theorem outline_keeps {n : Nat} {o : Op} {α : Type} {p : P α} (h : p.Each Cmd.Keeps) :
    Outline releasing n o (fun _ _ => True) p fun _ => True := by
  refine outline_of_each stable_true (fun c hc w x w' _ _ _ _ => ?_) h
  refine ⟨fun slot he => ?_, trivial, trivial⟩
  simp only at he
  subst he
  exact hc.elim

theorem each_claimGpuSlot {slot : Int} {holder : String} :
    (claimGpuSlot slot holder).Each Cmd.Keeps := ⟨trivial, fun _ => trivial⟩

theorem each_claimUntil {deadline : Time} {gpu_id : Int} {holder : String} : ∀ rounds,
    (claimUntil deadline gpu_id holder rounds).Each Cmd.Keeps
  | 0 => trivial
  | rounds + 1 => by
    refine ⟨trivial, fun time => ?_⟩
    show (if time < deadline then _ else _ : P Bool).Each Cmd.Keeps
    split
    · refine Prog.each_bind (fun claimed => ?_) each_claimGpuSlot
      split
      · trivial
      · exact each_claimUntil rounds
    · trivial

theorem each_claimSlot {p : Proc} {gpu_id timeout_seconds : Int} {rounds : Nat} :
    (claimSlot p gpu_id timeout_seconds rounds).Each Cmd.Keeps := by
  unfold claimSlot
  split
  · exact each_claimGpuSlot
  · exact ⟨trivial, fun time => each_claimUntil rounds⟩

theorem prog_checks (n : Nat) (o : Op) :
    Outline releasing n o (fun _ _ => True) (prog o) (Untouched n) := by
  refine outline_pre (P := fun _ => True) (fun _ _ _ => trivial) ?_
  cases o with
  | claim p gpu_id timeout rounds => exact outline_keeps each_claimSlot
  | setupOllama => exact outline_keeps each_claimGpuSlot
  | elapse ms => exact outline_keeps ⟨trivial, fun _ => trivial⟩
  | release p slot =>
    -- what the `GET` has read is still so, or someone has overtaken the call
    refine outline_cmd (c := Cmd.get slot)
      (fun current w => current = some p.holder → Checked n p slot w) (fun current => ?_) ?_
      fun current => ?_
    · intro w e w' hn hi hg hr hf hi' h hc
      exact stable_checked w e w' hn hi hg hr hf hi' (h hc)
    · intro w current w' _ _ _ hf
      refine ⟨fun slot' he => (by cases he), trivial, fun hc => Or.inr ?_⟩
      obtain ⟨⟨i, hx⟩, -⟩ := hf
      obtain ⟨hget, hs⟩ := Prod.mk.inj (Option.some.inj hx)
      rw [← hs, hget, hc]
      simp
    · show Outline releasing n (.release p slot) _ (if current = some p.holder then
        cmd (.delete slot) >>= fun deleted => .ret (deleted != 0) else .ret false : P Bool) _
      split
      · rename_i hc
        refine outline_cmd (fun _ _ => True) (fun _ => stable_true) ?_ fun _ => ?_
        · intro w x w' _ hw hg hf
          refine ⟨fun slot' he => ?_, trivial, trivial⟩
          cases he
          exact ⟨p, rfl, (hw hc).resolve_left hg⟩
        · exact outline_ret fun _ _ _ => trivial
      · exact outline_ret fun _ _ _ => trivial

/-- No call is about to delete, as `G` allows it, a slot that another process holds. -/
def DeletesOwn (G : Guard system) (c : Config system) : Prop :=
  ∀ n o slot k, c.proc n = some ⟨o, .op (.delete slot) k⟩ → G c.world n o (.delete slot) →
    ∃ p, o = .release p slot ∧ ∀ holder ∈ c.world.state.get slot, holder = p.holder ∧
      ∀ q : Proc, q.holder = holder → q = p

/-- **A release deletes the caller's own key or none**, when nobody else claims the slot between its
`GET` and its `DELETE`. -/
theorem release_own {s : Server} {c : Config system} (h : Run Prompt (.init s) c) :
    DeletesOwn Prompt c := by
  intro n o slot k hn hg
  have hsound := run_sound (D := releasing) (Q := fun _ _ _ _ => True) prog_checks trivial h
  have hf : Fires c.world ⟨n, o, .delete slot, if (c.world.state.get slot).isSome then 1 else 0⟩
      ⟨c.world.state.put slot none, _ :: c.world.trace⟩ := ⟨⟨0, rfl⟩, rfl⟩
  obtain ⟨p, ho, hp⟩ := hsound.next hn hg hf slot rfl
  refine ⟨p, ho, fun holder hh => ⟨hp holder hh, fun q hq => ?_⟩⟩
  exact Proc.holder_injective (hq.trans (hp holder hh))

/-! ## A claim that is deleted by another process -/

/-- Two processes. -/
def a : Proc := ⟨"a", 1⟩

def b : Proc := ⟨"b", 2⟩

/-- `a` claims the slot and begins to release it, its key expires, `b` claims the slot. -/
def releaseTooLate : List (Act system) :=
  solo system 0 (.claim a 1 0 0) 1 0 ++ solo system 1 (.release a 1) 1 0 ++
    solo system 2 (.elapse 300000) 1 0 ++ solo system 3 (.claim b 1 0 0) 1 0

theorem releaseTooLate_plays : (play Free (.init Server.empty) releaseTooLate).isSome := by
  decide +kernel

/-- A release is about to delete the key of another process. -/
theorem release_deletes_other : ∃ c : Config system, Run Free (.init Server.empty) c ∧
    ¬ DeletesOwn Free c := by
  refine ⟨played Free _ _ releaseTooLate_plays, run_played releaseTooLate_plays, fun h => ?_⟩
  obtain ⟨p, hp, hown⟩ := h 1 (.release a 1) 1 (fun deleted => .ret (deleted != 0)) rfl trivial
  have hb : b.holder ∈ (played Free _ _ releaseTooLate_plays).world.state.get 1 := by
    decide +kernel
  cases hp
  exact absurd (hown _ hb).1 (by decide)

/-- `a` claims the slot and begins to release it. -/
def claimAndRelease : List (Act system) :=
  solo system 0 (.claim a 1 0 0) 1 0 ++ solo system 1 (.release a 1) 1 0

theorem claimAndRelease_plays : (play Prompt (.init Server.empty) claimAndRelease).isSome := by
  decide +kernel

theorem release_own_claimAndRelease :
    DeletesOwn Prompt (played Prompt (.init Server.empty) claimAndRelease claimAndRelease_plays) :=
  release_own (run_played claimAndRelease_plays)

end ClaudeSwarm.GpuSlots.Redis
