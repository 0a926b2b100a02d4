import ClaudeSwarm.GpuSlots.Lockfile
import ClaudeSwarm.Interleave.Reading

/-!
# The holder that a slot file records

`claim_slot` and `claim_slot_with_deadline` ask whether the process that a slot's file records is
alive. They split the text of the file at the colons and take the second part for its pid; the lines
that the module writes have a bar right after the pid, so that part is no number, and the slot counts
as held whether the process lives or not.

* `LastWritten`: the last change of a slot's file was the writing of a line of a process.
* **`recovers_iff_alive`**: after such a change a later claim on the same host does what it should just
  if the process is alive.
* `dead_holder_kept`: the slot of a process that has ended is not given away.
-/

namespace ClaudeSwarm.GpuSlots.Lockfile

open Interleave

/-! ## The last change of a file -/

/-- The command changes the text of the slot's file. -/
def Cmd.changes (gpu_id : Int) : Cmd → Bool
  | .openWrite gpu | .write gpu _ => gpu == gpu_id
  | _ => false

/-- A call of `claim_slot`, `claim_slot_with_deadline` (also through `setup_ollama_slot`) or
`heartbeat_slot`. -/
def Op.writer : Op → Option Proc
  | .claim p _ | .claimWithDeadline p _ _ | .setupOllama p | .heartbeat p _ => some p
  | _ => none

/-- The text is a line of `h`. -/
def IsLine (h : Proc) (text : String) : Prop :=
  ∃ claimed_at heartbeat deadline_ts, text = h.line claimed_at heartbeat deadline_ts

/-- The slot's file was last changed by one of the writers, which wrote a line of `h`. -/
def LastWritten (gpu_id : Int) (h : Proc) (w : World system) : Prop :=
  ∃ e, w.trace.find? (fun e => e.cmd.changes gpu_id) = some e ∧ e.op.writer ≠ none ∧
    ∃ text, e.cmd = .write gpu_id text ∧ IsLine h text

/-- What was last written to the slot's file is at its start. -/
def AtStart (gpu_id : Int) (w : World system) : Prop :=
  ∀ e text, w.trace.find? (fun e => e.cmd.changes gpu_id) = some e → e.cmd = .write gpu_id text →
    text.toList <+: (w.state.text gpu_id).toList

/-- A command that is no change leaves the text. -/
theorem text_of_not_changes {n : Nat} {i : List Int} {s s' : Swarm} {c : Cmd} {x : Resp c} {gpu_id : Int}
    (hx : exec n i s c = some (x, s')) (hc : c.changes gpu_id = false) : s'.text gpu_id = s.text gpu_id := by
  cases c with
  | now | monotonic | kill | «exists» | read | loadQueue =>
    cases hx
    rfl
  | glob =>
    simp only [exec] at hx
    split at hx <;> cases hx
    rfl
  | openWrite gpu | write gpu text =>
    cases hx
    have hne : gpu_id ≠ gpu := fun he => by simp [Cmd.changes, he] at hc
    exact (Swarm.text_setText ..).trans (if_neg hne)
  | flock gpu p =>
    simp only [exec] at hx
    split at hx <;> cases hx
    · exact Swarm.text_setLock ..
    · rfl
  | close gpu | leave gpu =>
    cases hx
    exact Swarm.text_close ..
  | saveQueue gpu queue =>
    cases hx
    rfl
  | elapse micros =>
    simp only [exec] at hx
    split at hx <;> cases hx
    rfl
  | exit p =>
    cases hx
    exact Swarm.text_exit ..
  | never => cases hx

theorem atStart_fires {gpu_id : Int} {w w' : World system} {e : Event system} (h : AtStart gpu_id w)
    (hf : Fires w e w') : AtStart gpu_id w' := by
  obtain ⟨⟨i, hx⟩, htrace⟩ := hf
  intro e' text he' hcmd
  rw [htrace, List.find?_cons] at he'
  cases hc : e.cmd.changes gpu_id with
  | false =>
    rw [hc] at he'
    rw [text_of_not_changes hx hc]
    exact h e' text he' hcmd
  | true =>
    rw [hc] at he'
    cases he'
    obtain ⟨n, o, c, x⟩ := e
    subst hcmd
    generalize w'.state = s' at hx ⊢
    cases hx
    rw [Swarm.text_setText, if_pos rfl, overlay, String.toList_append]
    exact List.prefix_append _ _

/-- **Along every run.** -/
theorem run_atStart {G : Guard system} {s : Swarm} {c : Config system} (hc : Run G (.init s) c)
    (gpu_id : Int) : AtStart gpu_id c.world :=
  run_inv (I := AtStart gpu_id) (fun _ _ _ h _ hf => atStart_fires h hf) (fun _ _ he => by cases he)
    hc

/-- What the file of a slot last written for `h` begins with. -/
theorem LastWritten.names {G : Guard system} {s : Swarm} {c : Config system} {gpu_id : Int} {h : Proc}
    (hlast : LastWritten gpu_id h c.world) (hc : Run G (.init s) c) :
    Names h (c.world.state.text gpu_id) := by
  obtain ⟨e, hfind, -, text, hcmd, claimed_at, heartbeat, deadline_ts, rfl⟩ := hlast
  exact names_line.trans (run_atStart hc gpu_id e _ hfind hcmd)

/-! ## A later claim -/

/-- A claim of `gpu_id` finds the slot held while `h` lives, and takes it when `h` does not, provided
that the `flock` is free. -/
def Recovers (h : Proc) (gpu_id : Int) (s : Swarm) (n : Nat) (claim : P Bool) : Prop :=
  s.lock gpu_id = none → (∃ s', store.Runs n claim s (.ok (!s.alive h)) s') ∧
    ∀ r s', store.Runs n claim s r s' → r = .ok (!s.alive h)

variable {h : Proc} {gpu_id : Int} {s : Swarm} {n : Nat}

/-- A text is the text of a file. -/
theorem exists_of_names (hnames : Names h (s.text gpu_id)) : (s.files.find? gpu_id).isSome = true := by
  cases hfind : s.files.find? gpu_id with
  | some f => rfl
  | none =>
    have hempty : s.text gpu_id = "" := by
      rw [Swarm.text, hfind]
      rfl
    rw [hempty, Names, Proc.tag, String.toList_empty, List.prefix_nil] at hnames
    simp at hnames

/-- **A claim of a slot whose file begins as a line is refused.** -/
theorem yields_claim (hcolon : ':' ∉ h.host.toList) (hnames : Names h (s.text gpu_id)) (q : Proc)
    (deadline_seconds : Int) :
    store.Yields n (claimSlotWithDeadline q gpu_id deadline_seconds) s (.ok false) := by
  have hthere : store.exec n [] s (.exists gpu_id) = some (true, s) := by
    show some ((s.files.find? gpu_id).isSome, s) = _
    rw [exists_of_names hnames]
  have hheld : store.Yields n (isHeld q gpu_id) s (.ok true) := by
    refine Store.yields_op (x := true) ⟨[], hthere⟩ (fun i x s' hx => ?_) ?_
    · exact (Prod.mk.inj (Option.some.inj (hx.symm.trans hthere)))
    · refine Store.yields_op (x := s.text gpu_id) ⟨[], rfl⟩ (fun i x s' hx => ?_) ?_
      · obtain ⟨rfl, rfl⟩ := Prod.mk.inj (Option.some.inj hx)
        exact ⟨rfl, rfl⟩
      · have hret {β : Type} (f : String → P β) :
            Prog.bind (.ret (s.text gpu_id)) f = f (s.text gpu_id) := rfl
        rw [hret, check_of_names hcolon hnames]
        exact Store.yields_ret
  exact Store.yields_bind hheld Store.yields_ret

theorem recovers_iff {claim : P Bool} (hclaim : store.Yields n claim s (.ok false))
    (hlock : s.lock gpu_id = none) :
    Recovers h gpu_id s n claim ↔ s.alive h = true := by
  constructor
  · intro hrec
    have hr := (hrec hlock).2 (.ok false) s ((hclaim _ _).mpr ⟨rfl, rfl⟩)
    simpa using (Except.ok.inj hr).symm
  · intro halive _
    rw [halive]
    exact ⟨⟨s, (hclaim _ _).mpr ⟨rfl, rfl⟩⟩, fun r s' hr => ((hclaim _ _).mp hr).1⟩

/-- **The claims recover the holder just while it lives**: in every run, at a slot whose file was last
written for `h`, a claim by a process of the same host answers as it should if and only if `h` is
alive. -/
theorem recovers_iff_alive {G : Guard system} {a : Swarm} {c : Config system} (hc : Run G (.init a) c) {h : Proc}
    (hcolon : ':' ∉ h.host.toList) {gpu_id : Int} (hlast : LastWritten gpu_id h c.world)
    (hlock : c.world.state.lock gpu_id = none) (n pid : Nat) :
    (Recovers h gpu_id c.world.state n (claimSlot ⟨h.host, pid⟩ gpu_id) ↔
      c.world.state.alive h = true) ∧
    ∀ deadline_seconds,
      Recovers h gpu_id c.world.state n (claimSlotWithDeadline ⟨h.host, pid⟩ gpu_id deadline_seconds) ↔
        c.world.state.alive h = true :=
  ⟨recovers_iff (yields_claim hcolon (hlast.names hc) _ _) hlock,
    fun _ => recovers_iff (yields_claim hcolon (hlast.names hc) _ _) hlock⟩

/-! ## Runs -/

/-- A process that claims slot 1. -/
def first : Proc := ⟨"a", 1⟩

/-- No slot has been claimed yet. -/
def unclaimed : Swarm := ⟨⟨0, Clock.epoch_inRange⟩, fun _ => true, .empty, fun _ => []⟩

/-- `first` claims slot 1. -/
def claimOne : List (Act system) := solo system 0 (.claim first 1) 7 []

/-- The slot's file was last written for `first`, whose life is `alive`, and is not locked. -/
def recorded (alive : Bool) (c : Config system) : Bool :=
  decide (c.world.state.alive first = alive) && (decide (c.world.state.lock 1 = none) &&
    (c.world.trace.find? fun e => e.cmd.changes 1).any fun e => decide (e.op.writer ≠ none) &&
      decide (e.cmd = .write 1 (first.line "1970-01-01T00:00:00Z" "1970-01-01T00:00:00Z" 3600)))

theorem of_recorded {alive : Bool} {c : Config system} (h : recorded alive c = true) :
    c.world.state.alive first = alive ∧ c.world.state.lock 1 = none ∧ LastWritten 1 first c.world := by
  simp only [recorded, Bool.and_eq_true, decide_eq_true_iff, Option.any_eq_true] at h
  obtain ⟨halive, hlock, e, hfind, hwriter, hcmd⟩ := h
  exact ⟨halive, hlock, e, hfind, hwriter, _, hcmd, _, _, _, rfl⟩

/-- A holder that has ended is not recovered from. -/
theorem dead_holder_kept : ¬ ∀ (a : Swarm) (c : Config system) (h : Proc) (gpu_id : Int) (n pid : Nat),
    Run Acts (.init a) c → ':' ∉ h.host.toList → '|' ∉ h.host.toList → 0 < h.pid → LastWritten gpu_id h c.world →
      c.world.state.lock gpu_id = none →
        Recovers h gpu_id c.world.state n (claimSlot ⟨h.host, pid⟩ gpu_id) ∧
        ∀ deadline_seconds, Recovers h gpu_id c.world.state n
          (claimSlotWithDeadline ⟨h.host, pid⟩ gpu_id deadline_seconds) := by
  intro hall
  have hplay : (play Acts (.init unclaimed) (claimOne ++ solo system 1 (.exit first) 1 [])).any
      (recorded false) = true := by
    decide +kernel
  obtain ⟨c, hc, ht⟩ := exists_run_of_play hplay
  obtain ⟨halive, hlock, hlast⟩ := of_recorded ht
  have hcolon : ':' ∉ first.host.toList := by decide
  have hrec := (hall unclaimed c first 1 2 2 hc hcolon (by decide) (by decide) hlast hlock).2 60
  rw [recovers_iff (yields_claim hcolon (hlast.names hc) _ _) hlock, halive] at hrec
  cases hrec

/-- A holder that lives is. -/
theorem recovers_iff_alive_first : ∃ c, Run Acts (.init unclaimed) c ∧ LastWritten 1 first c.world ∧
    Recovers first 1 c.world.state 1 (claimSlot ⟨first.host, 2⟩ 1) ∧
      Recovers first 1 c.world.state 1 (claimSlotWithDeadline ⟨first.host, 2⟩ 1 60) := by
  have hplay : (play Acts (.init unclaimed) claimOne).any (recorded true) = true := by
    decide +kernel
  obtain ⟨c, hc, ht⟩ := exists_run_of_play hplay
  obtain ⟨halive, hlock, hlast⟩ := of_recorded ht
  have hcolon : ':' ∉ first.host.toList := by decide
  have hiff := recovers_iff_alive hc hcolon hlast hlock 1 2
  exact ⟨c, hc, hlast, hiff.1.mpr halive, (hiff.2 60).mpr halive⟩

end ClaudeSwarm.GpuSlots.Lockfile
