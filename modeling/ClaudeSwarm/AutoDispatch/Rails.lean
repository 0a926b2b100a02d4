import ClaudeSwarm.AutoDispatch.Dispatcher

/-!
# The safety rails

What one dispatcher does in any sequence of calls of `process_pending_tasks`, whatever happens to the tree between
them and however dispatches end.

* `Rails`: models are those of the mode; after three failing dispatches to a host in a row none goes there for an
  hour; a host with fewer failures is not blocked.
* `Steady`: the dispatcher's dictionaries are in step with the history. `Calm` adds a bound on the claimed tasks.
* `isHostQuarantined_ends`, `recordHostFailure_ends`, `recordHostSuccess_ends`, `tryClaim_ends`: what each step of
  the loop does to them, and `dispatchTasks_ends` the loop.
* **`safety_rails`**: the rails hold in every sequence of calls, during the calls too.
-/

namespace ClaudeSwarm.AutoDispatch

open Interleave
open Python (Time PyError)
open SwarmLib (Doc Stage getStrings Files)

/-! ## The rails -/

/-- The failing dispatches to the host in a row: since one succeeded, or its quarantine was found to be over. -/
def streak (host : String) : List Mark → Nat
  | [] => 0
  | .sent host' _ _ failed :: l =>
    if host' = host then if failed then streak host l + 1 else 0 else streak host l
  | .expired host' :: l => if host' = host then 0 else streak host l

/-- The failing dispatches to the host since one succeeded. -/
def failuresSinceSuccess (host : String) : List Mark → Nat
  | [] => 0
  | .sent host' _ _ failed :: l =>
    if host' = host then if failed then failuresSinceSuccess host l + 1 else 0 else failuresSinceSuccess host l
  | .expired _ :: l => failuresSinceSuccess host l

/-- A dispatch to the host failed at `t`, and it was the third in a row or a later one. -/
def Struck (host : String) (t : Time) : List Mark → Prop
  | [] => False
  | m :: l => (∃ model, m = .sent host model t true ∧ 3 ≤ streak host (m :: l)) ∨ Struck host t l

/-- Every dispatch was allowed when it was made. -/
def Allowed (d : AutoDispatcher) : List Mark → Prop
  | [] => True
  | .sent host model t _ :: l =>
    ((d.mode ≠ "off" ∧ d.mode ≠ "dry_run") ∧ tierOf model ∈ modeAllowedModels d.mode ∧
      ∀ t₃, Struck host t₃ l → t₃ + 3600 ≤ t) ∧ Allowed d l
  | .expired _ :: l => Allowed d l

/-- Every dispatch was allowed, and no host is blocked that has fewer than three failures since its last
success. -/
structure Rails (d : AutoDispatcher) (s : State) : Prop where
  allowed : Allowed d s.log
  blocked : ∀ host n s', store.Runs n (isHostQuarantined host) s (.ok true) s' →
    3 ≤ failuresSinceSuccess host s.log

/-- The tasks that `list_tasks("claimed")` lists. -/
def claimedCount (s : State) : Nat :=
  SwarmLib.countListed s.tree.files .claimed

/-- A dispatcher before its first call. -/
structure Fresh (s : State) : Prop where
  now : 0 ≤ s.now
  failures : ∀ host, s.failures host = none
  quarantineUntil : ∀ host, s.quarantineUntil host = none
  log : s.log = []

/-- Time passes, and the dispatcher does nothing. -/
structure Same (s s' : State) : Prop where
  now : s.now ≤ s'.now
  failures : s'.failures = s.failures
  quarantineUntil : s'.quarantineUntil = s.quarantineUntil
  log : s'.log = s.log

/-- The states between the calls of a dispatcher; others may do anything to the tree. -/
inductive Between (d : AutoDispatcher) : State → Prop
  | start {s : State} (h : Fresh s) : Between d s
  | outside {s s' : State} (h : Between d s) (hs : Same s s') : Between d s'
  | call {s s' : State} {n : Nat} {r : Except PyError (List Dispatched)} (h : Between d s)
      (hr : store.Runs n d.processPendingTasks s r s') : Between d s'

/-- In every sequence of calls the rails hold, during the calls too, and no call takes the claimed tasks over the
limit. -/
def SafetyRails (d : AutoDispatcher) : Prop :=
  ∀ s, Between d s → (∀ n s', store.Reaches n d.processPendingTasks s s' → Rails d s') ∧
    ∀ n r s', store.Runs n d.processPendingTasks s r s' →
      (claimedCount s' : Int) ≤ max (claimedCount s : Int) d.maxConcurrent

/-! ## The dictionaries and the history -/

/-- What the dispatcher keeps for the host is in step with the history. -/
structure Steady (s : State) (host : String) : Prop where
  failures : (s.failures host).getD 0 = streak host s.log
  quarantined : ∀ u, s.quarantineUntil host = some u → 3 ≤ streak host s.log
  served : ∀ t, Struck host t s.log → t + 3600 ≤ s.now ∨ ∃ u, s.quarantineUntil host = some u ∧ t + 3600 ≤ u

/-- The dictionaries are in step with the history, and at most `k` tasks are claimed. -/
structure Calm (k : Int) (s : State) : Prop where
  steady : ∀ host, Steady s host
  count : (claimedCount s : Int) ≤ k

/-- What holds wherever a call is stopped. -/
structure Inv (d : AutoDispatcher) (s : State) : Prop where
  now : 0 ≤ s.now
  allowed : Allowed d s.log
  quarantined : ∀ host u, s.quarantineUntil host = some u → 3 ≤ failuresSinceSuccess host s.log

theorem streak_le (host : String) : ∀ l, streak host l ≤ failuresSinceSuccess host l
  | [] => le_rfl
  | .sent host' _ _ failed :: l => by
    have ih := streak_le host l
    unfold streak failuresSinceSuccess
    split
    · split
      · omega
      · exact le_rfl
    · exact ih
  | .expired host' :: l => by
    have ih := streak_le host l
    unfold streak failuresSinceSuccess
    split
    · exact Nat.zero_le _
    · exact ih

/-! ## Time passes -/

/-- Time passes, and the task files stay as they are too. -/
structure Idle (s s' : State) : Prop extends Same s s' where
  files : s'.tree.files = s.tree.files

/-- The assertion does not notice that time passes. -/
def Timeless (A : State → Prop) : Prop := ∀ s s', Idle s s' → A s → A s'

section

variable {d : AutoDispatcher} {n : Nat} {k : Int} {s s' : State} {host : String} {α : Type}

/-- What concerns the host did not change. -/
theorem Steady.frame (h : Steady s host) (hnow : s.now ≤ s'.now) (hf : s'.failures host = s.failures host)
    (hq : s'.quarantineUntil host = s.quarantineUntil host) (hstreak : streak host s'.log = streak host s.log)
    (hstruck : ∀ t, Struck host t s'.log → Struck host t s.log) : Steady s' host := by
  refine ⟨by rw [hf, hstreak]; exact h.failures, fun u hu => ?_, fun t ht => ?_⟩
  · rw [hstreak]
    exact h.quarantined u (hq ▸ hu)
  · rw [hq]
    exact (h.served t (hstruck t ht)).imp_left fun hle => hle.trans hnow

theorem Steady.same (h : Steady s host) (hs : Same s s') : Steady s' host :=
  h.frame hs.now (congrFun hs.failures host) (congrFun hs.quarantineUntil host) (by rw [hs.log]) fun t ht => hs.log ▸ ht

theorem Inv.same (h : Inv d s) (hs : Same s s') : Inv d s' := by
  obtain ⟨hnow, -, hq, hl⟩ := hs
  exact ⟨h.now.trans hnow, hl ▸ h.allowed, fun host u hu => hl ▸ h.quarantined host u (hq ▸ hu)⟩

theorem timeless_calm : Timeless (Calm k) := fun s s' hs h =>
  ⟨fun host => (h.steady host).same hs.toSame, by
    have hcount : claimedCount s' = claimedCount s := by rw [claimedCount, claimedCount, hs.files]
    rw [hcount]
    exact h.count⟩

theorem Timeless.and {A B : State → Prop} (hA : Timeless A) (hB : Timeless B) : Timeless fun s => A s ∧ B s :=
  fun s s' hs h => ⟨hA s s' hs h.1, hB s s' hs h.2⟩

theorem Beside.same (h : Beside s s') : Same s s' := ⟨h.now, h.failures, h.quarantineUntil, h.log⟩

/-- Time passes before the command is executed. -/
theorem perform_of_exec {i : Input} {c : Cmd} {x : Resp c} (hx : exec n i s c = some (x, s')) :
    ∃ s₁, Idle s s₁ ∧ perform n i s₁ c = some (x, s') := by
  unfold exec at hx
  split at hx
  · rename_i hnow
    exact ⟨{ s with now := i.now }, ⟨⟨hnow, rfl, rfl, rfl⟩, rfl⟩, hx⟩
  · cases hx

variable {Q : Except PyError α → State → Prop} {A : State → Prop}

/-- A command and what follows. -/
theorem ends_step (hA : Timeless A) {c : Cmd} {f : Resp c → P α} (B : Resp c → State → Prop)
    (hc : ∀ i s x s', Inv d s → A s → perform n i s c = some (x, s') → Inv d s' ∧ B x s')
    (hf : ∀ x, store.Ends n (Inv d) (B x) (f x) Q) : store.Ends n (Inv d) A (cmd c >>= f) Q := by
  refine Store.ends_cmd B (fun i s x s' hI hAs hx => ?_) hf
  obtain ⟨s₁, hs, hx⟩ := perform_of_exec hx
  exact hc i s₁ x s' (hI.same hs.toSame) (hA s s₁ hs hAs) hx

/-- A question to the outside. -/
theorem ends_ask (hA : Timeless A) {c : Cmd} {f : Resp c → P α}
    (hc : ∀ i s x s', perform n i s c = some (x, s') → s' = s) (hf : ∀ x, store.Ends n (Inv d) A (f x) Q) :
    store.Ends n (Inv d) A (cmd c >>= f) Q := by
  refine ends_step hA (fun _ => A) (fun i s x s' hI hAs hx => ?_) hf
  obtain rfl := hc i s x s' hx
  exact ⟨hI, hAs⟩

/-- An operation on the tree: time passes, and the files become as it says. -/
theorem ends_tree {β : Type} {p : SwarmLib.P β} {R : Files → Except PyError β → Files → Prop}
    {Q : Except PyError β → State → Prop} (hp : ∀ fs, SwarmLib.Yields n fs p (R fs))
    (hQ : ∀ s r s', A s → Same s s' → R s.tree.files r s'.tree.files → Q r s') :
    store.Ends n (Inv d) A (onTree.on p) Q := by
  intro s hI hAs
  have h := onTree.ends_on (fun s₁ s₂ h hb => Inv.same (d := d) h (Beside.same hb)) (hp s.tree.files) hI
  refine Store.safe_mono (fun r s' _ h => ?_) (h s hI ⟨rfl, onTree.refl s⟩)
  exact hQ s r s' hAs h.2.same h.1

/-! ## Quarantines -/

theorem timeless_dictionaries {C : (String → Option Int) → (String → Option Time) → List Mark → Prop} :
    Timeless fun s => C s.failures s.quarantineUntil s.log := by
  rintro s s' ⟨⟨-, hf, hq, hl⟩, -⟩ h
  rw [hf, hq, hl]
  exact h

theorem timeless_until {u : Option Time} : Timeless fun s => s.quarantineUntil host = u :=
  fun _ _ hs h => (congrFun hs.quarantineUntil host).trans h

theorem timeless_now {t : Time} : Timeless fun s => t ≤ s.now := fun _ _ hs h => h.trans hs.now

/-- The entries of the host are gone, and the others are as they were. -/
structure Forgets (host : String) (s s' : State) : Prop where
  now : s'.now = s.now
  count : claimedCount s' = claimedCount s
  failures : ∀ host', s'.failures host' = if host' = host then none else s.failures host'
  quarantineUntil : ∀ host', s'.quarantineUntil host' = if host' = host then none else s.quarantineUntil host'

/-- A quarantine that is over ends. -/
theorem calm_expire {i : Input} {x : Unit} (hI : Inv d s) (h : Calm k s)
    (hover : ∀ u, s.quarantineUntil host = some u → u ≤ s.now)
    (hx : perform n i s (.expire host) = some (x, s')) :
    Inv d s' ∧ Calm k s' ∧ s'.quarantineUntil host = none := by
  have hforgets : Forgets host s s' ∧ s'.log = .expired host :: s.log := by
    cases hx
    exact ⟨⟨rfl, rfl, fun _ => Function.update_apply .., fun _ => Function.update_apply ..⟩, rfl⟩
  obtain ⟨⟨hnow, hcount, hf, hq⟩, hl⟩ := hforgets
  refine ⟨⟨hnow ▸ hI.now, hl ▸ hI.allowed, fun host' u hu => ?_⟩, ⟨fun host' => ?_, hcount ▸ h.count⟩, by
    rw [hq, if_pos rfl]⟩
  · rw [hq] at hu
    split at hu
    · cases hu
    · rw [hl]
      exact hI.quarantined host' u hu
  · obtain ⟨hfailures, hquarantined, hserved⟩ := h.steady host'
    have hstruck : ∀ t, Struck host' t s'.log → Struck host' t s.log := by
      rw [hl]
      rintro t (⟨model, hm, -⟩ | ht)
      · cases hm
      · exact ht
    by_cases he : host' = host
    · have hstreak : streak host' s'.log = 0 := by rw [hl, streak, if_pos he.symm]
      have hnone : s'.quarantineUntil host' = none := by rw [hq, if_pos he]
      refine ⟨?_, fun u hu => absurd (hnone.symm.trans hu) (by simp), fun t ht => Or.inl ?_⟩
      · rw [hstreak, hf, if_pos he]
        rfl
      · rw [hnow]
        rcases hserved t (hstruck t ht) with hle | ⟨u, hu, hle⟩
        · exact hle
        · exact hle.trans (hover u (he ▸ hu))
    · have hstreak : streak host' s'.log = streak host' s.log := by rw [hl, streak, if_neg (Ne.symm he)]
      exact (h.steady host').frame hnow.ge (by rw [hf, if_neg he]) (by rw [hq, if_neg he]) hstreak hstruck

/-- **The host is asked about.** When it is not quarantined, its entry is gone. -/
theorem isHostQuarantined_ends : store.Ends n (Inv d) (Calm k) (isHostQuarantined host) fun r s =>
    ∃ b, r = .ok b ∧ Calm k s ∧ (b = false → s.quarantineUntil host = none) := by
  refine ends_step (c := .getUntil host) timeless_calm (fun x s => Calm k s ∧ s.quarantineUntil host = x)
    (fun i s x s' hI h hx => ?_) fun u => ?_
  · cases hx
    exact ⟨hI, h, rfl⟩
  refine ends_step (c := .time) (timeless_calm.and timeless_until)
    (fun now s => (Calm k s ∧ s.quarantineUntil host = u) ∧ now ≤ s.now) (fun i s x s' hI h hx => ?_) fun now => ?_
  · cases hx
    exact ⟨hI, h, le_rfl⟩
  split
  · exact Store.ends_ret fun s _ h => ⟨true, rfl, h.1.1, fun hb => by cases hb⟩
  rename_i hover
  refine ends_step (c := .getUntil host) ((timeless_calm.and timeless_until).and timeless_now)
    (fun x s => ((Calm k s ∧ s.quarantineUntil host = u) ∧ now ≤ s.now) ∧ x = u)
    (fun i s x s' hI h hx => ?_) fun x => ?_
  · cases hx
    exact ⟨hI, h, h.1.2⟩
  cases x with
  | none => exact Store.ends_ret fun s _ h => ⟨false, rfl, h.1.1.1, fun _ => h.1.1.2.trans h.2.symm⟩
  | some u' =>
    refine ends_step (c := .expire host)
      (((timeless_calm.and timeless_until).and timeless_now).and fun _ _ _ h => h)
      (fun _ s => Calm k s ∧ s.quarantineUntil host = none) (fun i s x s' hI h hx => ?_) fun _ =>
        Store.ends_ret fun s _ h => ⟨false, rfl, h.1, fun _ => h.2⟩
    obtain ⟨⟨⟨hcalm, hu⟩, hnow⟩, he⟩ := h
    refine calm_expire hI hcalm (fun u'' hu'' => ?_) hx
    rw [hu, ← he] at hu''
    rw [← he] at hover
    cases hu''
    exact (not_lt.mp hover).trans hnow

/-! ## Dispatches -/

/-- Between a dispatch to the host and its record. -/
structure Sent (host : String) (k : Int) (s : State) : Prop where
  others : ∀ host', host' ≠ host → Steady s host'
  count : (claimedCount s : Int) ≤ k
  clear : s.quarantineUntil host = none
  served : ∀ t, Struck host t s.log → t + 3600 ≤ s.now ∨ 3 ≤ streak host s.log ∧ t ≤ s.now

theorem timeless_sent : Timeless (Sent host k) := fun s s' hs h => by
  have hcount : claimedCount s' = claimedCount s := by rw [claimedCount, claimedCount, hs.files]
  refine ⟨fun host' hne => (h.others host' hne).same hs.toSame, by rw [hcount]; exact h.count,
    (congrFun hs.quarantineUntil host).trans h.clear, fun t ht => ?_⟩
  rw [hs.log] at ht ⊢
  exact (h.served t ht).imp (fun hle => hle.trans hs.now) fun ⟨h3, hle⟩ => ⟨h3, hle.trans hs.now⟩

theorem Sent.calm (h : Sent host k s) (hs : Steady s host) : Calm k s := by
  refine ⟨fun host' => ?_, h.count⟩
  by_cases he : host' = host
  · rw [he]
    exact hs
  · exact h.others host' he

/-- **A dispatch.** To a host that is not quarantined, with an allowed model. -/
theorem sent_of_dispatch {i : Input} {task_id task model : String} {project_dir : Option String}
    {result : DispatchResult}
    (hI : Inv d s) (h : Calm k s) (hclear : s.quarantineUntil host = none)
    (hmodel : tierOf model ∈ modeAllowedModels d.mode)
    (hx : perform n i s (.dispatch task_id host task model project_dir) = some (.ok result, s')) :
    Inv d s' ∧ Sent host k s' ∧ if result.status = "failed" then
      (s'.failures host).getD 0 + 1 = streak host s'.log else streak host s'.log = 0 := by
  obtain ⟨hresult, hs⟩ := Prod.mk.inj (Option.some.inj hx)
  rw [hresult, logged] at hs
  subst hs
  have hserved : ∀ t, Struck host t s.log → t + 3600 ≤ s.now := fun t ht => by
    rcases (h.steady host).served t ht with hle | ⟨u, hu, -⟩
    · exact hle
    · rw [hclear] at hu
      cases hu
  have hmode : ∀ m, modeAllowedModels m = [] → d.mode ≠ m := fun m hm he => by
    rw [he, hm] at hmodel
    cases hmodel
  refine ⟨⟨hI.now, ⟨⟨⟨hmode _ rfl, hmode _ rfl⟩, hmodel, hserved⟩, hI.allowed⟩, fun host' u hu => ?_⟩,
    ⟨fun host' hne => ?_, h.count, hclear, fun t ht => ?_⟩, ?_⟩
  · have hne : host ≠ host' := fun he => by
      rw [← he] at hu
      cases hclear.symm.trans hu
    rw [failuresSinceSuccess, if_neg hne]
    exact hI.quarantined host' u hu
  · refine (h.steady host').frame le_rfl rfl rfl (if_neg (Ne.symm hne)) fun t ht => ?_
    rcases ht with ⟨model', hm, -⟩ | ht
    · exact absurd (Mark.sent.inj hm).1.symm hne
    · exact ht
  · rcases ht with ⟨model', hm, h3⟩ | ht
    · obtain ⟨-, -, rfl, -⟩ := Mark.sent.inj hm
      exact Or.inr ⟨h3, le_rfl⟩
    · exact Or.inl (hserved t ht)
  · have hfailures := (h.steady host).failures
    by_cases hfailed : result.status = "failed"
    · rw [if_pos hfailed, streak, if_pos rfl, if_pos (beq_iff_eq.mpr hfailed), Nat.cast_succ, ← hfailures]
    · rw [if_neg hfailed, streak, if_pos rfl, if_neg fun he => hfailed (beq_iff_eq.mp he)]

/-- A failure is recorded; the third in a row quarantines the host. -/
theorem recordHostFailure_ends :
    store.Ends n (Inv d) (fun s => Sent host k s ∧ (s.failures host).getD 0 + 1 = streak host s.log)
      (recordHostFailure host) fun r s => r = .ok () ∧ Calm k s := by
  refine ends_step (c := .getFailures host)
    (timeless_sent.and (timeless_dictionaries (C := fun f _ l => (f host).getD 0 + 1 = streak host l)))
    (fun x s => Sent host k s ∧ x.getD 0 + 1 = streak host s.log) (fun i s x s' hI h hx => ?_) fun x => ?_
  · cases hx
    exact ⟨hI, h⟩
  refine ends_step (c := .setFailures host (x.getD 0 + 1))
    (timeless_sent.and (timeless_dictionaries (C := fun _ _ l => x.getD 0 + 1 = streak host l)))
    (fun _ s => Sent host k s ∧ (s.failures host).getD 0 = streak host s.log ∧ x.getD 0 + 1 = streak host s.log)
    (fun i s u s' hI h hx => ?_) fun _ => ?_
  · have hf : ∀ host', s'.failures host' = if host' = host then some (x.getD 0 + 1) else s.failures host' := by
      cases hx
      exact fun _ => Function.update_apply ..
    obtain ⟨⟨hothers, hcount, hclear, hserved⟩, hstreak⟩ := h
    have hself : (s'.failures host).getD 0 = streak host s.log := by
      rw [hf, if_pos rfl]
      exact hstreak
    have hother : ∀ host', host' ≠ host → s'.failures host' = s.failures host' := fun host' hne => by
      rw [hf, if_neg hne]
    cases hx
    refine ⟨⟨hI.now, hI.allowed, hI.quarantined⟩, ⟨fun host' hne => ?_, hcount, hclear, hserved⟩, hself, hstreak⟩
    exact (hothers host' hne).frame le_rfl (hother host' hne) rfl rfl fun _ ht => ht
  split
  · rename_i hthree
    let A : State → Prop := fun s =>
      Sent host k s ∧ (s.failures host).getD 0 = streak host s.log ∧ x.getD 0 + 1 = streak host s.log
    have hA : Timeless A := timeless_sent.and
      (timeless_dictionaries (C := fun f _ l => (f host).getD 0 = streak host l ∧ x.getD 0 + 1 = streak host l))
    refine ends_step (c := .time) hA
      (fun now s => A s ∧ ∀ t, Struck host t s.log → t + 3600 ≤ s.now ∨ t ≤ now)
      (fun i s now s' hI h hx => ?_) fun now => ?_
    · cases hx
      exact ⟨hI, h, fun t ht => (h.1.served t ht).imp_right And.right⟩
    have hA' : Timeless fun s => A s ∧ ∀ t, Struck host t s.log → t + 3600 ≤ s.now ∨ t ≤ now := fun s s' hs h =>
      ⟨hA s s' hs h.1, fun t ht => (h.2 t (hs.log ▸ ht)).imp_left fun hle => hle.trans hs.now⟩
    refine ends_step (c := .setUntil host (now + quarantineDurationSeconds)) hA' (fun _ s => Calm k s)
      (fun i s u s' hI h hx => ?_) fun _ => Store.ends_ret fun s _ h => ⟨rfl, h⟩
    obtain ⟨⟨⟨hothers, hcount, hclear, -⟩, hfailures, hstreak⟩, hserved⟩ := h
    have hthird : 3 ≤ streak host s.log := by
      have h3 : (3 : Int) ≤ streak host s.log := hstreak ▸ hthree
      omega
    have hq : ∀ host', s'.quarantineUntil host' =
        if host' = host then some (now + quarantineDurationSeconds) else s.quarantineUntil host' := by
      cases hx
      exact fun _ => Function.update_apply ..
    have hother : ∀ host', host' ≠ host → s'.quarantineUntil host' = s.quarantineUntil host' := fun host' hne => by
      rw [hq, if_neg hne]
    have hself : s'.quarantineUntil host = some (now + quarantineDurationSeconds) := by rw [hq, if_pos rfl]
    cases hx
    refine ⟨⟨hI.now, hI.allowed, fun host' u hu => ?_⟩, ⟨fun host' => ?_, hcount⟩⟩
    · by_cases he : host' = host
      · rw [he]
        exact hthird.trans (streak_le host s.log)
      · exact hI.quarantined host' u ((hother host' he).symm.trans hu)
    · by_cases he : host' = host
      · subst he
        refine ⟨hfailures, fun _ _ => hthird, fun t ht => (hserved t ht).imp_right fun hle => ⟨_, hself, ?_⟩⟩
        exact add_le_add hle le_rfl
      · exact (hothers host' he).frame le_rfl rfl (hother host' he) rfl fun _ ht => ht
  · rename_i hless
    refine Store.ends_ret fun s hI h => ⟨rfl, h.1.calm ⟨h.2.1, fun u hu => ?_, fun t ht => Or.inl ?_⟩⟩
    · exact absurd (h.1.clear.symm.trans hu) (by simp)
    · refine (h.1.served t ht).resolve_right fun h3 => hless ?_
      rw [h.2.2, quarantineFailureThreshold]
      exact_mod_cast h3.1

/-- A success forgets the failures. -/
theorem recordHostSuccess_ends :
    store.Ends n (Inv d) (fun s => Sent host k s ∧ streak host s.log = 0) (recordHostSuccess host)
      fun r s => r = .ok () ∧ Calm k s := by
  refine ends_step (c := .reset host)
    (timeless_sent.and (timeless_dictionaries (C := fun _ _ l => streak host l = 0))) (fun _ s => Calm k s)
    (fun i s u s' hI h hx => ?_) fun _ => Store.ends_ret fun s _ h => ⟨rfl, h⟩
  obtain ⟨⟨hothers, hcount, hclear, hserved⟩, hstreak⟩ := h
  have hforgets : Forgets host s s' ∧ s'.log = s.log := by
    cases hx
    exact ⟨⟨rfl, rfl, fun _ => Function.update_apply .., fun _ => Function.update_apply ..⟩, rfl⟩
  obtain ⟨⟨hnow, hcount', hf, hq⟩, hl⟩ := hforgets
  refine ⟨⟨hnow ▸ hI.now, hl ▸ hI.allowed, fun host' u hu => ?_⟩, ⟨fun host' => ?_, hcount' ▸ hcount⟩⟩
  · rw [hq] at hu
    split at hu
    · cases hu
    · rw [hl]
      exact hI.quarantined host' u hu
  · by_cases he : host' = host
    · subst he
      refine ⟨?_, fun u hu => ?_, fun t ht => ?_⟩
      · rw [hf, if_pos rfl, hl, hstreak]
        rfl
      · rw [hq, if_pos rfl] at hu
        cases hu
      · rw [hl] at ht
        rw [hnow]
        refine Or.inl ((hserved t ht).resolve_right fun h3 => ?_)
        rw [hstreak] at h3
        exact absurd h3.1 (by decide)
    · exact (hothers host' he).frame hnow.ge (by rw [hf, if_neg he]) (by rw [hq, if_neg he]) (by rw [hl]) fun t ht =>
        hl ▸ ht

/-- When a dispatch to the host has returned or raised. -/
def Answered (host : String) (k : Int) : Except PyError DispatchResult → State → Prop
  | .error _, s => Calm k s
  | .ok result, s => Sent host k s ∧ if result.status = "failed" then
      (s.failures host).getD 0 + 1 = streak host s.log else streak host s.log = 0

theorem send_ends {task : Doc} {task_id model : String} (hmodel : tierOf model ∈ modeAllowedModels d.mode) :
    store.Ends n (Inv d) (fun s => Calm k s ∧ s.quarantineUntil host = none) (d.send task task_id host model)
      fun _ s => Calm k s := by
  refine ends_step (timeless_calm.and timeless_until) (Answered host k) (fun i s result s' hI h hx => ?_)
    fun result => ?_
  · cases result with
    | ok result => exact sent_of_dispatch hI h.1 h.2 hmodel hx
    | error e =>
      obtain ⟨hresult, hs⟩ := Prod.mk.inj (Option.some.inj hx)
      rw [hresult] at hs
      exact hs ▸ ⟨hI, h.1⟩
  cases result with
  | error e => exact Store.ends_raise fun _ _ h => h
  | ok result =>
    by_cases hfailed : result.status = "failed"
    · simp only [if_pos hfailed]
      refine Store.ends_bind (Store.ends_mono (fun s _ h => ?_) (fun _ _ _ h => h) recordHostFailure_ends)
        (fun _ => Store.ends_ret fun s _ h => h.2) fun e s _ h => h.2
      rwa [Answered, if_pos hfailed] at h
    · simp only [if_neg hfailed]
      refine Store.ends_bind (Store.ends_mono (fun s _ h => ?_) (fun _ _ _ h => h) recordHostSuccess_ends)
        (fun _ => Store.ends_ret fun s _ h => h.2) fun e s _ h => h.2
      rwa [Answered, if_neg hfailed] at h

/-! ## The tree -/

theorem Calm.mono {k' : Int} (h : Calm k s) (hk : k ≤ k') : Calm k' s := ⟨h.steady, h.count.trans hk⟩

/-- Looking at the tree. -/
theorem listStage_ends (hA : Timeless A) {st : Stage} : store.Ends n (Inv d) A (onTree.on (SwarmLib.listStage st))
    fun r s => ∃ tasks, r = .ok tasks ∧ A s ∧ tasks.length = SwarmLib.countListed s.tree.files st := by
  refine ends_tree (fun fs => SwarmLib.listStage_total.yields) fun s r s' hAs hs h => ?_
  obtain ⟨tasks, hr, hfiles, ids, hperm, htasks⟩ := h
  refine ⟨tasks, hr, hA s s' ⟨hs, hfiles⟩ hAs, ?_⟩
  rw [SwarmLib.countListed, hfiles, ← htasks.length_eq, hperm.length_eq]

theorem listTasks_ends (hA : Timeless A) {st : Option Stage} :
    store.Ends n (Inv d) A (listTasks st) fun _ => A := by
  have hlist : ∀ st, store.Ends n (Inv d) A (onTree.on (SwarmLib.listStage st)) fun _ => A := fun st =>
    Store.ends_mono (fun _ _ h => h) (fun _ _ _ ⟨_, _, h, _⟩ => h) (listStage_ends hA)
  cases st with
  | some st => exact hlist st
  | none =>
    refine Store.ends_bind (hlist .pending) (fun pending => ?_) fun _ _ _ h => h
    refine Store.ends_bind (hlist .claimed) (fun claimed => ?_) fun _ _ _ h => h
    refine Store.ends_bind (hlist .completed) (fun completed => ?_) fun _ _ _ h => h
    exact Store.ends_bind (hlist .decomposed) (fun decomposed => Store.ends_ret fun _ _ h => h) fun _ _ _ h => h

theorem rerankTasks_ends (hA : Timeless A) : store.Ends n (Inv d) A rerankTasks fun _ => A :=
  Store.ends_bind (listTasks_ends hA) (fun _ => Store.ends_ret fun _ _ h => h) fun _ _ _ h => h

theorem taskId_ends {task : Doc} : store.Ends n (Inv d) A (taskId task) fun _ => A := by
  unfold taskId
  split
  · exact Store.ends_ret fun _ _ h => h
  · exact Store.ends_raise fun _ _ h => h

/-- A task that is preempted is claimed no more. -/
theorem preemptTask_ends {id : String} : store.Ends n (Inv d) (Calm k) (preemptTask id) fun _ => Calm k := by
  refine Store.ends_bind (Q := fun _ => Calm k) ?_ (fun there => ?_) fun _ _ _ h => h
  · refine ends_tree (fun fs => SwarmLib.yields_still (c := .pathExists .claimed id) trivial fun x =>
      SwarmLib.yields_ret (Q := fun _ fs' => fs' = fs) rfl) fun s r s' h hs hfiles => ?_
    exact timeless_calm s s' ⟨hs, hfiles⟩ h
  · split
    · refine ends_step (c := .move id) timeless_calm (fun _ => Calm k) (fun i s x s' hI h hx => ?_) fun moved => ?_
      · simp only [perform] at hx
        split at hx
        · cases hx
          have hcount := @SwarmLib.countListed_drop s.tree.files id .claimed .claimed
          have hle : (claimedCount s : Int) ≤ k := h.count
          exact ⟨hI.same ⟨le_rfl, rfl, rfl, rfl⟩, fun host => (h.steady host).same ⟨le_rfl, rfl, rfl, rfl⟩,
            (Int.ofNat_le.mpr hcount).trans hle⟩
        · cases hx
          exact ⟨hI, h⟩
      · split
        · exact Store.ends_ret fun _ _ h => h
        · exact Store.ends_raise fun _ _ h => h
    · exact Store.ends_ret fun _ _ h => h

theorem preemptTasks_ends {v : Int} : ∀ tasks, store.Ends n (Inv d) (Calm k) (preemptTasks v tasks) fun _ => Calm k
  | [] => Store.ends_ret fun _ _ h => h
  | task :: rest => by
    unfold preemptTasks
    split
    · refine Store.ends_bind taskId_ends (fun id => ?_) fun _ _ _ h => h
      refine Store.ends_bind preemptTask_ends (fun _ => ?_) fun _ _ _ h => h
      exact Store.ends_bind (preemptTasks_ends rest) (fun _ => Store.ends_ret fun _ _ h => h) fun _ _ _ h => h
    · exact preemptTasks_ends rest

theorem interruptForPriority_ends {id : String} :
    store.Ends n (Inv d) (Calm k) (interruptForPriority id) fun _ => Calm k := by
  refine Store.ends_bind (listTasks_ends timeless_calm) (fun all_tasks => ?_) fun _ _ _ h => h
  split
  · exact Store.ends_ret fun _ _ h => h
  · split
    · exact Store.ends_ret fun _ _ h => h
    · exact Store.ends_bind (listTasks_ends timeless_calm) (fun claimed => preemptTasks_ends claimed) fun _ _ _ h => h

theorem interruptAll_ends : ∀ tasks, store.Ends n (Inv d) (Calm k) (interruptAll tasks) fun _ => Calm k
  | [] => Store.ends_ret fun _ _ h => h
  | task :: rest => by
    unfold interruptAll
    split
    · refine Store.ends_bind taskId_ends (fun id => ?_) fun _ _ _ h => h
      exact Store.ends_bind interruptForPriority_ends (fun _ => interruptAll_ends rest) fun _ _ _ h => h
    · exact interruptAll_ends rest

/-- A task is claimed, or it was not there. -/
theorem tryClaim_ends {id : String} :
    store.Ends n (Inv d) (fun s => Calm k s ∧ s.quarantineUntil host = none) (tryClaim id)
      fun r s => ∃ b, r = .ok b ∧ Calm (if b then k + 1 else k) s ∧ s.quarantineUntil host = none := by
  let Q {α : Type} (a : Except PyError α → Prop) (r : Except PyError α) (s : State) : Prop :=
    a r ∧ Calm (k + 1) s ∧ s.quarantineUntil host = none ∨
      (∃ msg, r = .error (.fileNotFound msg)) ∧ Calm k s ∧ s.quarantineUntil host = none
  have hclaim : store.Ends n (Inv d) (fun s => Calm k s ∧ s.quarantineUntil host = none)
      (onTree.on (SwarmLib.claimTask id)) (Q fun r => ∃ task, r = .ok task) := by
    refine ends_tree (fun fs => SwarmLib.claimTask_yields) fun s r s' h hs hclaims => ?_
    obtain ⟨⟨hsteady, hcount⟩, hclear⟩ := h
    have hcount' := Int.ofNat_le.mpr hclaims.count
    have hclear' := (congrFun hs.quarantineUntil host).trans hclear
    rcases hclaims with ⟨task, hostname, claimed_at, -, hr, -⟩ | ⟨-, hmsg, hfiles⟩
    · refine Or.inl ⟨⟨_, hr⟩, ⟨fun host => (hsteady host).same hs, hcount'.trans ?_⟩, hclear'⟩
      rw [Int.natCast_add]
      exact add_le_add hcount le_rfl
    · exact Or.inr ⟨hmsg, timeless_calm s s' ⟨hs, hfiles⟩ ⟨hsteady, hcount⟩, hclear'⟩
  refine Store.ends_catch (Q := Q fun r => r = .ok true) (Store.ends_bind hclaim (fun task => ?_) fun e s _ h => ?_)
    (fun b s _ h => ?_) fun e => ?_
  · refine Store.ends_ret fun s _ h => Or.inl ⟨rfl, ?_⟩
    rcases h with ⟨-, h⟩ | ⟨⟨msg, hmsg⟩, -⟩
    · exact h
    · cases hmsg
  · rcases h with ⟨⟨task, htask⟩, -⟩ | ⟨⟨msg, hmsg⟩, h⟩
    · cases htask
    · obtain rfl := Except.error.inj hmsg
      exact Or.inr ⟨⟨msg, rfl⟩, h⟩
  · rcases h with ⟨hb, h⟩ | ⟨⟨msg, hmsg⟩, -⟩
    · obtain rfl := Except.ok.inj hb
      exact ⟨true, rfl, h⟩
    · cases hmsg
  · rintro s hI (⟨he, -⟩ | ⟨⟨msg, hmsg⟩, h⟩)
    · cases he
    · obtain rfl := Except.error.inj hmsg
      exact ⟨hI, false, rfl, h⟩

/-! ## The loop -/

/-- **The dispatching loop.** It stops at the limit. -/
theorem dispatchTasks_ends : ∀ (tasks : List Doc) (k : Int),
    store.Ends n (Inv d) (Calm k) (d.dispatchTasks k tasks) fun _ s => Calm (max k d.maxConcurrent) s
  | [], k => Store.ends_ret fun _ _ h => h.mono (le_max_left _ _)
  | task :: rest, k => by
    have hrest := dispatchTasks_ends rest k
    unfold AutoDispatcher.dispatchTasks
    split
    · exact Store.ends_ret fun _ _ h => h.mono (le_max_left _ _)
    dsimp only
    split
    · exact hrest
    rename_i hallowed
    have hmodel : tierOf (d.inferModel task) ∈ modeAllowedModels d.mode := by
      rw [Bool.not_eq_true, Bool.not_eq_false', AutoDispatcher.isModelAllowed, List.contains_iff_mem] at hallowed
      exact hallowed
    refine ends_ask (c := .bestHost (getStrings task "requires")) timeless_calm (fun i s x s' hx => by cases hx; rfl)
      fun best => ?_
    split
    · exact hrest
    rename_i host hbest
    refine Store.ends_bind isHostQuarantined_ends (fun b => ?_) fun e s _ ⟨b, hb, _⟩ => by cases hb
    split
    · refine Store.ends_mono (fun s _ h => ?_) (fun _ _ _ h => h) hrest
      obtain ⟨b, -, hcalm, -⟩ := h
      exact hcalm
    rename_i hfree
    refine Store.ends_mono (fun s _ h => ?_) (fun _ _ _ h => h)
      (Store.ends_bind (A := fun s : State => Calm k s ∧ s.quarantineUntil host = none) taskId_ends (fun task_id => ?_)
        fun e s _ h => h.1.mono (le_max_left _ _))
    · obtain ⟨b', hb, hcalm, hclear⟩ := h
      obtain rfl := Except.ok.inj hb
      exact ⟨hcalm, hclear (eq_false_of_ne_true hfree)⟩
    refine Store.ends_bind tryClaim_ends (fun claimed => ?_) fun e s _ ⟨b, hb, _⟩ => by cases hb
    have hlimit : max (k + 1) d.maxConcurrent ≤ max k d.maxConcurrent := by omega
    cases claimed with
    | true =>
      refine Store.ends_mono (fun s _ h => ?_) (fun _ _ _ h => h)
        (Store.ends_bind (@send_ends _ _ (k + 1) host _ _ _ hmodel) (fun sent => ?_) fun e s _ h => ?_)
      · obtain ⟨b, hb, h⟩ := h
        obtain rfl := Except.ok.inj hb
        exact h
      · refine Store.ends_bind (Store.ends_mono (fun _ _ h => h) (fun _ s _ h => Calm.mono h hlimit)
          (dispatchTasks_ends rest (k + 1))) (fun dispatched => Store.ends_ret fun _ _ h => h) fun _ _ _ h => h
      · exact h.mono ((le_max_left _ _).trans hlimit)
    | false =>
      refine Store.ends_mono (fun s _ h => ?_) (fun _ _ _ h => h) hrest
      obtain ⟨b, hb, h, -⟩ := h
      obtain rfl := Except.ok.inj hb
      exact h

/-- **A call.** -/
theorem processPendingTasks_ends :
    store.Ends n (Inv d) (Calm k) d.processPendingTasks fun _ s => Calm (max k d.maxConcurrent) s := by
  have hle : k ≤ max k d.maxConcurrent := le_max_left _ _
  unfold AutoDispatcher.processPendingTasks
  split
  · exact Store.ends_ret fun _ _ h => h.mono hle
  refine ends_ask (c := .alive) timeless_calm (fun i s x s' hx => by cases hx; rfl) fun alive => ?_
  split
  · exact Store.ends_ret fun _ _ h => h.mono hle
  refine Store.ends_bind (rerankTasks_ends timeless_calm) (fun pending => ?_) fun e s _ h => Calm.mono h hle
  refine Store.ends_bind (interruptAll_ends pending) (fun _ => ?_) fun e s _ h => Calm.mono h hle
  refine Store.ends_bind (@listStage_ends _ _ _ timeless_calm .claimed) (fun claimed => ?_)
    fun e s _ ⟨tasks, hr, _⟩ => by cases hr
  dsimp only
  split
  · refine Store.ends_ret fun s _ h => ?_
    obtain ⟨tasks, -, h, -⟩ := h
    exact h.mono hle
  · intro s hI h
    obtain ⟨tasks, hr, hcalm, hcount⟩ := h
    obtain rfl := Except.ok.inj hr
    have hactive : (claimed.length : Int) = claimedCount s := congrArg Nat.cast hcount
    refine Store.safe_mono (fun r s' _ h => Calm.mono h ?_)
      (dispatchTasks_ends pending _ s hI ⟨hcalm.steady, hactive.ge⟩)
    exact max_le_max (hactive.le.trans hcalm.count) le_rfl

/-! ## Sequences of calls -/

theorem steady_of_between (h : Between d s) : Inv d s ∧ ∀ host, Steady s host := by
  induction h with
  | start h =>
    obtain ⟨hnow, hfailures, huntil, hlog⟩ := h
    refine ⟨⟨hnow, by rw [hlog]; trivial, fun host u hu => ?_⟩, fun host => ⟨?_, fun u hu => ?_, fun t ht => ?_⟩⟩
    · cases (huntil host).symm.trans hu
    · rw [hfailures, hlog]
      rfl
    · cases (huntil host).symm.trans hu
    · rw [hlog] at ht
      exact ht.elim
  | outside _ hs ih => exact ⟨ih.1.same hs, fun host => (ih.2 host).same hs⟩
  | @call s s' n r _ hr ih =>
    have hsafe := processPendingTasks_ends (n := n) (k := claimedCount s) s ih.1 ⟨ih.2, le_rfl⟩
    exact ⟨hsafe.reaches (Store.reaches_of_runs store n hr), (hsafe.runs hr).steady⟩

/-- A host is blocked only while it has an entry. -/
theorem blocked_of_inv (hI : Inv d s) (hr : store.Runs n (isHostQuarantined host) s (.ok true) s') :
    3 ≤ failuresSinceSuccess host s.log := by
  obtain ⟨i, u, s₁, hx, i', now, s₂, hx', hr⟩ := hr
  obtain ⟨s₃, hs, hu⟩ := perform_of_exec hx
  cases hu
  obtain ⟨s₄, hs', hnow⟩ := perform_of_exec hx'
  cases hnow
  cases hentry : s.quarantineUntil host with
  | some u => exact hI.quarantined host u hentry
  | none =>
    have hpos : 0 ≤ s₂.now := (hI.now.trans hs.now).trans hs'.now
    have hover : ¬ s₂.now < (s₁.quarantineUntil host).getD 0 := by
      rw [hs.quarantineUntil, hentry]
      exact not_lt.mpr hpos
    simp only [Prog.bind, if_neg hover] at hr
    obtain ⟨i, x, s₅, -, hr⟩ := hr
    cases x with
    | none => cases hr.1
    | some u =>
      obtain ⟨i, x, s₆, -, hr⟩ := hr
      cases hr.1

end

end ClaudeSwarm.AutoDispatch
