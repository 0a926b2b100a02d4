import ClaudeSwarm.Cascade.Store

/-!
# What a release clears

`release_slot` clears one level: Redis, or else the fact, or else the row. `slot_holder` and `claim_slot`
read the levels in the same order, but an asserted `{}` counts as no answer, so that they go on to what is
left in the levels below: rows that mirror writes of Redis claims left, or will leave.

The calls here run alone, one after the other (`Ran`, `Later`); what they do is computed (`eval`).

* `Vacant`: nothing of a slot is in force at the levels that are read, and what is left in SQLite a mirror
  write is about to remove. Nothing but a claim of the slot ends it (`vacant_of_later`).
* `effective_of_vacant`: a vacant slot has no holder and can be claimed.
* **`takesEffect_iff`**: a release takes effect exactly when it leaves the slot vacant.
* `released_slot_held`: after a failover, a slot that was released has a holder.
-/

namespace ClaudeSwarm.Cascade

open Interleave
open Python (truncate)

/-! ## Calls run alone -/

/-- What a program run alone returns, and the state it leaves. -/
def eval {α : Type} : P α → State → Option (α × State)
  | .ret a, s => some (a, s)
  | .raise e, _ => e.elim
  | .op c k, s => (exec 0 () s c).bind fun p => eval (k p.1) p.2

/-- The call `o`, run alone from `s`, returned `r` and left `s'`. -/
def Ran (o : Op) (s : State) (r : o.Ret) (s' : State) : Prop :=
  store.Runs 0 (prog o) s (.ok r) s'

theorem runs_iff_eval {α : Type} : ∀ {p : P α} {s s' : State} {a : α},
    store.Runs 0 p s (.ok a) s' ↔ eval p s = some (a, s')
  | .ret a, s, s', b => by simp [eval, eq_comm]
  | .raise e, _, _, _ => e.elim
  | .op c k, s, s', a => by
    rw [Store.runs_op]
    simp only [eval, Option.bind_eq_some_iff]
    constructor
    · rintro ⟨i, x, s₁, hx, hr⟩
      exact ⟨(x, s₁), hx, runs_iff_eval.mp hr⟩
    · rintro ⟨⟨x, s₁⟩, hx, hr⟩
      exact ⟨(), x, s₁, hx, runs_iff_eval.mpr hr⟩

theorem ran_iff {o : Op} {s s' : State} {r : o.Ret} :
    Ran o s r s' ↔ eval (prog o) s = some (r, s') := runs_iff_eval

section Eval

variable {α β : Type} {s : State}

@[simp] theorem eval_cmd (c : Cmd) (f : Resp c → P α) :
    eval (cmd c >>= f) s = (exec 0 () s c).bind fun p => eval (f p.1) p.2 := rfl

end Eval

/-! ## What the calls do -/

section Calls

variable (s : State) (k h : String)

/-- The row of the slot is in force, for another holder. -/
def State.refuses : Bool :=
  (s.rows k).any fun row => decide (truncate s.now < row.ttlExpires ∧ row.holder ≠ h)

/-- The state with row `row` of slot `k`. -/
def State.setRow (row : Option Row) : State := { s with rows := Function.update s.rows k row }

/-- The state with fact `fact` of slot `k`. -/
def State.setFact (fact : Fact) : State := { s with facts := Function.update s.facts k (some fact) }

theorem eval_slotClaim (ttl_s : Int) : eval (slotClaim k h ttl_s) s =
    if s.refuses k h then some (false, s)
    else some (true, s.setRow k (some ⟨h, truncate s.now + ttl_s⟩)) := by
  unfold slotClaim State.refuses
  simp only [eval_cmd, exec, Option.bind_some]
  cases s.rows k with
  | none => rfl
  | some row =>
    simp only [eval_cmd, exec, Option.bind_some, gt_iff_lt, Option.any_some, decide_eq_true_eq]
    split <;> rfl

theorem eval_slotRelease : eval (slotRelease k h) s =
    if (s.rows k).map Row.holder = some h then some (true, s.setRow k none) else some (false, s) := by
  unfold slotRelease
  simp only [eval_cmd, exec, Option.bind_some]
  cases s.rows k with
  | none => rfl
  | some row =>
    simp only [Option.map_some, Option.some.injEq]
    split <;> rfl

/-- What `slot_holder` reads of a row. -/
def State.rowHolder : Option String :=
  (s.rows k).bind fun row => if row.ttlExpires ≤ truncate s.now then none else some row.holder

theorem eval_sqliteHolder : ∃ s', eval (sqliteHolder k) s = some (s.rowHolder k, s') := by
  unfold sqliteHolder State.rowHolder
  simp only [eval_cmd, exec, Option.bind_some]
  cases s.rows k with
  | none => exact ⟨_, rfl⟩
  | some row =>
    simp only [eval_cmd, exec, Option.bind_some]
    split
    · exact ⟨_, rfl⟩
    · exact ⟨_, rfl⟩

/-- What the Context Bridge says of the slot: nothing when it is down, or when the object is empty. -/
def State.fact : Option (String × Int) :=
  if s.bridgeUp then
    match s.facts k with
    | some (.claim h ttl_expires) => some (h, ttl_expires)
    | _ => none
  else none

theorem eval_claimBridge (ttl_s : Int) (obj : Fact) : eval (claimBridge k h ttl_s obj) s =
    if s.bridgeUp then some (true, s.setFact k obj) else eval (slotClaim k h ttl_s) s := by
  unfold claimBridge
  simp only [eval_cmd, exec]
  by_cases hb : s.bridgeUp = true
  · rw [if_pos hb, if_pos hb]
    rfl
  · rw [if_neg hb, if_neg hb]
    rfl

theorem eval_claimBelow (ttl_s : Int) : eval (claimBelow k h ttl_s) s =
    if (s.fact k).any fun p => decide (truncate s.now < p.2 ∧ p.1 ≠ h) then some (false, s)
    else eval (claimBridge k h ttl_s (.claim h (truncate s.now + ttl_s))) s := by
  unfold claimBelow State.fact
  simp only [eval_cmd, exec, Option.bind_some]
  cases s.bridgeUp with
  | false => rfl
  | true =>
    simp only [if_true, Option.bind_some]
    cases s.facts k with
    | none => rfl
    | some fact =>
      cases fact with
      | empty => rfl
      | claim h' e =>
        simp only [eval_cmd, exec, Option.bind_some, gt_iff_lt, Option.any_some, decide_eq_true_eq]
        split <;> rfl

theorem eval_releaseBelow : eval (releaseBelow k h) s =
    if (s.fact k).map Prod.fst = some h then some (true, s.setFact k .empty)
    else eval (slotRelease k h) s := by
  unfold releaseBelow State.fact
  simp only [eval_cmd, exec]
  cases hb : s.bridgeUp with
  | false => rfl
  | true =>
    simp only [if_true, Option.bind_some]
    cases s.facts k with
    | none => rfl
    | some fact =>
      cases fact with
      | empty => rfl
      | claim h' e =>
        simp only [Option.map_some, Option.some.injEq]
        split
        · rw [eval_cmd, exec, if_pos hb]
          rfl
        · rfl

theorem eval_holderBelow : ∃ s', eval (holderBelow k) s =
    some (match s.fact k with
      | some (holder, ttl_expires) => if truncate s.now < ttl_expires then some holder else none
      | none => s.rowHolder k, s') := by
  unfold holderBelow State.fact
  simp only [eval_cmd, exec]
  cases s.bridgeUp with
  | false => exact eval_sqliteHolder s k
  | true =>
    simp only [if_true, Option.bind_some]
    cases s.facts k with
    | none => exact eval_sqliteHolder s k
    | some fact =>
      cases fact with
      | empty => exact eval_sqliteHolder s k
      | claim h' e =>
        simp only [eval_cmd, exec, Option.bind_some, gt_iff_lt]
        split <;> exact ⟨_, rfl⟩

theorem eval_claimSlot {ttl_s : Int} (ht : 0 < ttl_s) : ∃ s', eval (claimSlot k h ttl_s) s =
    if s.redisUp then some ((s.value k).isNone, s') else eval (claimBelow k h ttl_s) s := by
  unfold claimSlot
  simp only [eval_cmd, exec, Option.bind_some]
  cases hr : s.redisUp with
  | false => exact ⟨s, rfl⟩
  | true =>
    simp only [eval_cmd, exec, if_true]
    rw [if_neg (by rw [hr]; simp; omega)]
    cases s.value k <;> exact ⟨_, rfl⟩

/-- What a release in Redis leaves. -/
def State.deleted : State :=
  { s with redis := Function.update s.redis k none, pending := s.pending ++ [.release k h] }

theorem eval_releaseSlot : eval (releaseSlot k h) s =
    if s.redisUp then
      if s.value k = some h then some (true, s.deleted k h) else some (false, s)
    else eval (releaseBelow k h) s := by
  unfold releaseSlot
  simp only [eval_cmd, exec, Option.bind_some]
  by_cases hr : s.redisUp = true
  · simp only [hr, eval_cmd, exec, if_true, Option.bind_some]
    by_cases hv : s.value k = some h
    · simp only [hv, if_true, eval_cmd, exec, hr, Option.bind_some, Option.isSome_some, State.deleted]
      rfl
    · simp only [hv, if_false]
      rfl
  · rw [Bool.not_eq_true] at hr
    simp only [hr]
    rfl

theorem eval_slotHolder : ∃ s', eval (slotHolder k) s =
    if s.redisUp then some (s.value k, s') else eval (holderBelow k) s := by
  unfold slotHolder
  simp only [eval_cmd, exec, Option.bind_some]
  cases hr : s.redisUp with
  | false => exact ⟨s, rfl⟩
  | true =>
    simp only [eval_cmd, exec, hr, if_true, Option.bind_some]
    exact ⟨_, rfl⟩

end Calls

/-! ## A vacant slot -/

/-- The mirror write will put a row of slot `k` in force. -/
def Write.Grants (k : String) : Write → Prop
  | .claim slot_key _ ttl_s => slot_key = k ∧ 0 < ttl_s
  | .release _ _ => False

/-- The mirror write will end the row of slot `k` that `h` has. -/
def Write.Clears (k h : String) : Write → Prop
  | .claim slot_key holder ttl_s => slot_key = k ∧ holder = h ∧ ttl_s ≤ 0
  | .release slot_key holder => slot_key = k ∧ holder = h

/-- What SQLite has of slot `k` is not in force, or a mirror write is about to end it, and none will put
another row in its place. -/
structure State.Cleared (s : State) (k : String) : Prop where
  pending : ∀ w ∈ s.pending, ¬ w.Grants k
  row : ∀ row, s.rows k = some row → truncate s.now < row.ttlExpires →
    ∃ w ∈ s.pending, w.Clears k row.holder

/-- Nothing of slot `k` is in force at the levels that are read. -/
structure State.Vacant (s : State) (k : String) : Prop where
  redis : s.redisUp = true → s.value k = none
  fact : s.redisUp = false → ∀ h ttl_expires, s.fact k = some (h, ttl_expires) →
    ttl_expires ≤ truncate s.now
  row : s.redisUp = false → s.Cleared k

/-- No claim of slot `k`, and no change of what is up. -/
def Op.Quiet (k : String) : Op → Prop
  | .claim slot_key _ _ => slot_key ≠ k
  | .setRedis _ | .setBridge _ => False
  | .release _ _ | .holder _ | .mirror _ | .advance _ => True

/-- Later states without a claim of slot `k`, with the same backends up. -/
def Later (k : String) : State → State → Prop :=
  Relation.ReflTransGen fun s s' => ∃ o r, Op.Quiet k o ∧ Ran o s r s'

/-- In state `s` slot `k` has no holder and can be claimed by others than `h`. -/
structure Effective (k h : String) (s : State) : Prop where
  unheld : ∀ r s', Ran (.holder k) s r s' → r = none
  claimable : ∀ h' ttl_s r s', h' ≠ h → 0 < ttl_s → Ran (.claim k h' ttl_s) s r s' → r = true

/-- If `h` releases slot `k` in state `s`, then in every later state in which the mirror writes of the slot
are done the slot has no holder and can be claimed by others. -/
def TakesEffect (s : State) (k h : String) : Prop :=
  ∀ s₁ s₂, Ran (.release k h) s true s₁ → Later k s₁ s₂ → (∀ w ∈ s₂.pending, w.key ≠ k) →
    Effective k h s₂

/-- **A vacant slot.** -/
theorem effective_of_vacant {s : State} {k : String} (hv : s.Vacant k)
    (hdone : ∀ w ∈ s.pending, w.key ≠ k) (h : String) : Effective k h s := by
  have hrow : s.redisUp = false → ∀ row, s.rows k = some row → row.ttlExpires ≤ truncate s.now := by
    intro hr row hk
    by_contra hlt
    obtain ⟨w, hw, hc⟩ := (hv.row hr).row row hk (not_le.mp hlt)
    refine hdone w hw ?_
    cases w <;> exact hc.1
  constructor
  · intro (r : Option String) s' hran
    have he : eval (slotHolder k) s = some (r, s') := ran_iff.mp hran
    obtain ⟨s₁, hs₁⟩ := eval_slotHolder s k
    rw [hs₁] at he
    cases hr : s.redisUp with
    | true =>
      rw [hr, if_pos rfl, hv.redis hr] at he
      cases he
      rfl
    | false =>
      obtain ⟨s₂, hs₂⟩ := eval_holderBelow s k
      rw [hr, if_neg (by simp), hs₂] at he
      cases he
      split
      · rename_i h' e hf
        rw [if_neg (not_lt.mpr (hv.fact hr h' e hf))]
      · unfold State.rowHolder
        cases hk : s.rows k with
        | none => rfl
        | some row => rw [Option.bind_some, if_pos (hrow hr row hk)]
  · intro h' ttl_s (r : Bool) s' _ ht hran
    have he : eval (claimSlot k h' ttl_s) s = some (r, s') := ran_iff.mp hran
    obtain ⟨s₁, hs₁⟩ := eval_claimSlot s k h' ht
    rw [hs₁] at he
    cases hr : s.redisUp with
    | true =>
      rw [hr, if_pos rfl, hv.redis hr] at he
      cases he
      rfl
    | false =>
      have hfact : (s.fact k).any (fun p => decide (truncate s.now < p.2 ∧ p.1 ≠ h')) = false := by
        cases hf : s.fact k with
        | none => rfl
        | some p =>
          have hexp := hv.fact hr p.1 p.2 hf
          simp [not_lt.mpr hexp]
      have hrefuse : s.refuses k h' = false := by
        unfold State.refuses
        cases hk : s.rows k with
        | none => rfl
        | some row => simp [not_lt.mpr (hrow hr row hk)]
      rw [hr, eval_claimBelow, eval_claimBridge, eval_slotClaim] at he
      simp only [hfact, hrefuse, Bool.false_eq_true, if_false] at he
      split at he <;> cases he <;> rfl

/-! ## What keeps a slot vacant -/

section Keep

variable {k : String} {s s' : State}

/-- `s'` has nothing of slot `k` that `s` has not, and no mirror write less. -/
structure Calmer (k : String) (s s' : State) : Prop where
  redisUp : s'.redisUp = s.redisUp
  now : s.now ≤ s'.now
  value : s.value k = none → s'.value k = none
  fact : ∀ p, s'.fact k = some p → s.fact k = some p
  row : ∀ row, s'.rows k = some row → s.rows k = some row
  kept : ∀ w ∈ s.pending, w ∈ s'.pending
  added : ∀ w ∈ s'.pending, w.Grants k → w ∈ s.pending

theorem Calmer.refl (k : String) (s : State) : Calmer k s s :=
  ⟨rfl, le_rfl, fun h => h, fun _ h => h, fun _ h => h, fun _ h => h, fun _ h _ => h⟩

theorem Calmer.vacant (h : Calmer k s s') (hv : s.Vacant k) : s'.Vacant k := by
  have hnow := Python.truncate_mono h.now
  refine ⟨fun hr => h.value (hv.redis (h.redisUp ▸ hr)), fun hr holder e hf => ?_, fun hr => ⟨?_, ?_⟩⟩
  · exact (hv.fact (h.redisUp ▸ hr) holder e (h.fact _ hf)).trans hnow
  · exact fun w hw hg => (hv.row (h.redisUp ▸ hr)).pending w (h.added w hw hg) hg
  · intro row hrow hlt
    obtain ⟨w, hw, hc⟩ := (hv.row (h.redisUp ▸ hr)).row row (h.row row hrow) (hnow.trans_lt hlt)
    exact ⟨w, h.kept w hw, hc⟩

/-- Commands that put nothing of slot `k` in force. -/
def Cmd.Quiet (k : String) : Cmd → Prop
  | .set key _ _ => key ≠ k
  | .assert subject obj => subject = k → obj = .empty
  | .insert key _ => key ≠ k
  | .submit w => ¬ w.Grants k
  | .take _ | .setRedis _ | .setBridge _ => False
  | _ => True

theorem calmer_of_exec {n : Nat} {c : Cmd} {x : Resp c} (hc : c.Quiet k)
    (h : exec n () s c = some (x, s')) : Calmer k s s' := by
  cases c with
  | time | health | select =>
    cases h
    exact Calmer.refl k s
  | get key =>
    rw [exec] at h
    split at h <;> cases h <;> exact Calmer.refl k s
  | query subject =>
    rw [exec] at h
    split at h <;> cases h <;> exact Calmer.refl k s
  | set key value ex =>
    rw [exec] at h
    split at h
    · cases h
      exact Calmer.refl k s
    · split at h <;> cases h
      · exact Calmer.refl k s
      · refine { Calmer.refl k s with value := fun hv => ?_ }
        simpa [State.value, Function.update_of_ne (Ne.symm hc)] using hv
  | delete key =>
    rw [exec] at h
    split at h <;> cases h
    · refine { Calmer.refl k s with value := fun hv => ?_ }
      by_cases hk : k = key
      · simp [State.value, hk]
      · simpa [State.value, Function.update_of_ne hk] using hv
    · exact Calmer.refl k s
  | assert subject obj =>
    rw [exec] at h
    split at h <;> cases h
    · refine { Calmer.refl k s with fact := fun p hp => ?_ }
      by_cases hk : k = subject
      · simp [State.fact, hc hk.symm, hk] at hp
      · simpa [State.fact, Function.update_of_ne hk] using hp
    · exact Calmer.refl k s
  | insert key row =>
    cases h
    refine { Calmer.refl k s with row := fun row' hrow => ?_ }
    simpa [Function.update_of_ne (Ne.symm hc)] using hrow
  | deleteRow key =>
    cases h
    refine { Calmer.refl k s with row := fun row' hrow => ?_ }
    by_cases hk : k = key
    · simp [hk] at hrow
    · simpa [Function.update_of_ne hk] using hrow
  | submit w =>
    cases h
    refine { Calmer.refl k s with
      kept := fun w' hw' => List.mem_append_left _ hw'
      added := fun w' hw' hg => ?_ }
    rcases List.mem_append.mp hw' with hw' | hw'
    · exact hw'
    · rw [List.mem_singleton] at hw'
      exact absurd (hw' ▸ hg) hc
  | advance t =>
    rw [exec] at h
    split at h <;> cases h
    rename_i ht
    refine { Calmer.refl k s with now := ht, value := fun hv => ?_ }
    simp only [State.value, Option.bind_eq_none_iff] at hv ⊢
    intro p hp
    have hno := hv p hp
    split at hno
    · cases hno
    · rename_i hlt
      exact if_neg fun hlt' => hlt (lt_of_le_of_lt ht hlt')
  | take | setRedis | setBridge => exact hc.elim

/-- Programs of such commands. -/
theorem vacant_of_each {α : Type} : ∀ {p : P α} {s s' : State} {r : α}, p.Each (Cmd.Quiet k) →
    s.Vacant k → eval p s = some (r, s') → s'.Vacant k
  | .ret _, _, _, _, _, hv, h => by
    cases h
    exact hv
  | .raise e, _, _, _, _, _, _ => e.elim
  | .op c f, s, s', r, hp, hv, h => by
    obtain ⟨⟨x, s₁⟩, hx, hr⟩ := Option.bind_eq_some_iff.mp h
    exact vacant_of_each (p := f x) (hp.2 x) ((calmer_of_exec (n := 0) hp.1 hx).vacant hv) hr

/-! ## What the calls keep -/

/-- A claim of another slot. -/
theorem quiet_slotClaim {key : String} (hk : key ≠ k) (h : String) (ttl_s : Int) :
    (slotClaim key h ttl_s).Each (Cmd.Quiet k) := by
  refine each_cmd trivial fun t => each_cmd trivial fun row => ?_
  cases row with
  | none => exact each_cmd hk fun _ => trivial
  | some row =>
    refine each_cmd trivial fun t' => ?_
    split
    · trivial
    · exact each_cmd hk fun _ => trivial

theorem quiet_slotRelease (key h : String) : (slotRelease key h).Each (Cmd.Quiet k) := by
  refine each_cmd trivial fun row => ?_
  cases row with
  | none => trivial
  | some row =>
    simp only
    split
    · exact ⟨trivial, fun _ => trivial⟩
    · trivial

theorem quiet_claimBridge {key : String} (hk : key ≠ k) (h : String) (ttl_s : Int) (obj : Fact) :
    (claimBridge key h ttl_s obj).Each (Cmd.Quiet k) := by
  refine each_cmd (fun h => absurd h hk) fun asserted => ?_
  cases asserted with
  | true => trivial
  | false => exact quiet_slotClaim hk h ttl_s

theorem quiet_claimBelow {key : String} (hk : key ≠ k) (h : String) (ttl_s : Int) :
    (claimBelow key h ttl_s).Each (Cmd.Quiet k) := by
  refine each_cmd trivial fun t => each_cmd trivial fun fact => ?_
  cases fact with
  | none => exact quiet_claimBridge hk h ttl_s _
  | some fact =>
    cases fact with
    | empty => exact quiet_claimBridge hk h ttl_s _
    | claim h' e =>
      refine each_cmd trivial fun t' => ?_
      split
      · trivial
      · exact quiet_claimBridge hk h ttl_s _

theorem quiet_claimSlot {key : String} (hk : key ≠ k) (h : String) (ttl_s : Int) :
    (claimSlot key h ttl_s).Each (Cmd.Quiet k) := by
  refine each_cmd trivial fun up => ?_
  cases up with
  | false => exact quiet_claimBelow hk h ttl_s
  | true =>
    refine each_cmd hk fun ok => ?_
    rcases ok with - | - | -
    · exact quiet_claimBelow hk h ttl_s
    · trivial
    · exact each_cmd (fun hg => hk hg.1) fun _ => trivial

theorem quiet_releaseBelow (key h : String) : (releaseBelow key h).Each (Cmd.Quiet k) := by
  refine each_cmd trivial fun fact => ?_
  rcases fact with - | - | ⟨h', e⟩
  · exact quiet_slotRelease key h
  · exact quiet_slotRelease key h
  · simp only
    split
    · refine each_cmd (fun _ => rfl) fun asserted => ?_
      cases asserted with
      | true => trivial
      | false => exact quiet_slotRelease key h
    · exact quiet_slotRelease key h

theorem quiet_releaseSlot (key h : String) : (releaseSlot key h).Each (Cmd.Quiet k) := by
  refine each_cmd trivial fun up => ?_
  cases up with
  | false => exact quiet_releaseBelow key h
  | true =>
    refine each_cmd trivial fun current => ?_
    cases current with
    | none => exact quiet_releaseBelow key h
    | some current =>
      simp only
      split
      · refine each_cmd (c := .delete key) trivial fun ok => ?_
        rcases ok with - | - | -
        · exact quiet_releaseBelow key h
        · trivial
        · exact each_cmd not_false fun _ => trivial
      · trivial

theorem quiet_sqliteHolder (key : String) : (sqliteHolder key).Each (Cmd.Quiet k) := by
  refine each_cmd trivial fun row => ?_
  cases row with
  | none => trivial
  | some row =>
    refine each_cmd trivial fun t => ?_
    split
    · exact ⟨trivial, fun _ => trivial⟩
    · trivial

theorem quiet_slotHolder (key : String) : (slotHolder key).Each (Cmd.Quiet k) := by
  have hbelow : (holderBelow key).Each (Cmd.Quiet k) := by
    refine each_cmd trivial fun fact => ?_
    rcases fact with - | - | ⟨h', e⟩
    · exact quiet_sqliteHolder key
    · exact quiet_sqliteHolder key
    · refine each_cmd trivial fun t => ?_
      split <;> trivial
  refine each_cmd trivial fun up => ?_
  cases up with
  | false => exact hbelow
  | true =>
    refine each_cmd trivial fun holder => ?_
    cases holder with
    | none => exact hbelow
    | some holder => trivial

/-! ## Mirror writes -/

/-- The state without the `i`-th mirror write. -/
def State.taken (s : State) (i : Nat) : State := { s with pending := s.pending.eraseIdx i }

theorem eval_mirror (s : State) (i : Nat) : eval (mirror i) s =
    match s.pending[i]? with
    | some w => eval w.run (s.taken i)
    | none => some (false, s.taken i) := by
  unfold mirror
  simp only [eval_cmd, exec, Option.bind_some]
  cases s.pending[i]? <;> rfl

/-- What a mirror write leaves. -/
theorem eval_run (w : Write) (s : State) : ∃ r s', eval w.run s = some (r, s') ∧
    (s' = s ∨ ∃ row, s' = s.setRow w.key row) := by
  cases w with
  | claim key h ttl_s =>
    rw [Write.run, eval_slotClaim]
    split
    · exact ⟨_, _, rfl, Or.inl rfl⟩
    · exact ⟨_, _, rfl, Or.inr ⟨_, rfl⟩⟩
  | release key h =>
    rw [Write.run, eval_slotRelease]
    split
    · exact ⟨_, _, rfl, Or.inr ⟨_, rfl⟩⟩
    · exact ⟨_, _, rfl, Or.inl rfl⟩

/-- **A mirror write that clears the slot, or does not touch it.** -/
theorem cleared_of_run {w : Write} {i : Nat} {r : Bool} (hw : s.pending[i]? = some w) (hc : s.Cleared k)
    (h : eval w.run (s.taken i) = some (r, s')) : s'.Cleared k := by
  obtain ⟨hi, hget⟩ := List.getElem?_eq_some_iff.mp hw
  have hperm := List.getElem_cons_eraseIdx_perm hi
  rw [hget] at hperm
  have hno : ¬ w.Grants k := hc.pending w (hperm.mem_iff.mp List.mem_cons_self)
  -- what `w` does not clear another mirror write does
  have hrest : ∀ row, s.rows k = some row → truncate s.now < row.ttlExpires →
      ¬ w.Clears k row.holder → ∃ w' ∈ (s.taken i).pending, w'.Clears k row.holder := by
    intro row hrow hlt hnot
    obtain ⟨w', hw', hclears⟩ := hc.row row hrow hlt
    rcases List.mem_cons.mp (hperm.mem_iff.mpr hw') with rfl | hw'
    · exact absurd hclears hnot
    · exact ⟨w', hw', hclears⟩
  have hpending : s'.pending = (s.taken i).pending := by
    obtain ⟨r', s₁, he, rfl | ⟨row, rfl⟩⟩ := eval_run w (s.taken i) <;> rw [h] at he <;> cases he <;> rfl
  refine ⟨fun w' hw' => hc.pending w' (hperm.mem_iff.mp
      (List.mem_cons_of_mem w (show w' ∈ (s.taken i).pending from hpending ▸ hw'))),
    fun row hrow hlt => ?_⟩
  rw [hpending]
  cases w with
  | release key h' =>
    rw [Write.run, eval_slotRelease] at h
    split at h <;> cases h
    · by_cases hk : k = key
      · simp [State.setRow, hk] at hrow
      · refine hrest row (by simpa [State.setRow, State.taken, Function.update_of_ne hk] using hrow) hlt ?_
        exact fun hclears => hk hclears.1.symm
    · rename_i hholder
      refine hrest row hrow hlt fun hclears => hholder ?_
      have hrow' : (s.taken i).rows key = some row := hclears.1 ▸ hrow
      rw [hrow', Option.map_some, ← hclears.2]
  | claim key h' ttl_s =>
    rw [Write.run, eval_slotClaim] at h
    split at h <;> cases h
    · rename_i hrefuses
      refine hrest row hrow hlt fun hclears => ?_
      have hrow' : (s.taken i).rows key = some row := hclears.1 ▸ hrow
      simp [State.refuses, hrow', hclears.2.1] at hrefuses
    · by_cases hk : k = key
      · have hnew : row = ⟨h', truncate s.now + ttl_s⟩ := by
          simpa [State.setRow, State.taken, hk, eq_comm] using hrow
        have hpos : 0 < ttl_s := by
          rw [hnew] at hlt
          have : truncate s.now < truncate s.now + ttl_s := hlt
          omega
        exact absurd ⟨hk.symm, hpos⟩ hno
      · refine hrest row (by simpa [State.setRow, State.taken, Function.update_of_ne hk] using hrow) hlt ?_
        exact fun hclears => hk hclears.1.symm

theorem vacant_of_mirror {i : Nat} {r : Bool} (hv : s.Vacant k)
    (h : eval (mirror i) s = some (r, s')) : s'.Vacant k := by
  rw [eval_mirror] at h
  split at h
  · rename_i w hw
    have hframe : s'.redisUp = s.redisUp ∧ s'.value k = s.value k ∧ s'.fact k = s.fact k ∧
        s'.now = s.now := by
      obtain ⟨r', s₁, he, rfl | ⟨row, rfl⟩⟩ := eval_run w (s.taken i) <;> rw [h] at he <;> cases he <;>
        exact ⟨rfl, rfl, rfl, rfl⟩
    obtain ⟨hup, hvalue, hfact, hnow⟩ := hframe
    refine ⟨fun hr => hvalue.trans (hv.redis (hup ▸ hr)), fun hr holder e hf => ?_, fun hr => ?_⟩
    · rw [hnow]
      exact hv.fact (hup ▸ hr) holder e (hfact ▸ hf)
    · exact cleared_of_run hw (hv.row (hup ▸ hr)) h
  · rename_i hnone
    cases h
    have hsame : s.taken i = s := by
      rw [State.taken, List.eraseIdx_of_length_le (List.getElem?_eq_none_iff.mp hnone)]
    rwa [hsame]

/-- **One call.** -/
theorem vacant_of_ran {o : Op} {r : o.Ret} (ho : o.Quiet k) (hv : s.Vacant k) (h : Ran o s r s') :
    s'.Vacant k := by
  have he := ran_iff.mp h
  cases o with
  | claim key h' ttl_s => exact vacant_of_each (quiet_claimSlot ho h' ttl_s) hv he
  | release key h' => exact vacant_of_each (quiet_releaseSlot key h') hv he
  | holder key => exact vacant_of_each (quiet_slotHolder key) hv he
  | mirror i => exact vacant_of_mirror hv he
  | advance t => exact vacant_of_each (p := cmd (.advance t)) ⟨trivial, fun _ => trivial⟩ hv he
  | setRedis | setBridge => exact ho.elim

/-- **Any number of calls.** -/
theorem vacant_of_later (hv : s.Vacant k) (h : Later k s s') : s'.Vacant k := by
  induction h with
  | refl => exact hv
  | tail _ hstep ih =>
    obtain ⟨o, r, ho, hran⟩ := hstep
    exact vacant_of_ran ho ih hran

end Keep

/-! ## What a release leaves -/

/-- Where a release that returns `True` leaves the slot vacant. Without Redis: no mirror write is about to
put a row in force, and if the release asserts the empty fact, a row in force is about to be cleared; if it
deletes the row, the Context Bridge knows of no other holder. -/
structure State.Leaves (s : State) (k h : String) : Prop where
  granted : ∀ w ∈ s.pending, ¬ w.Grants k
  row : (s.fact k).map Prod.fst = some h → s.Cleared k
  fact : (s.fact k).map Prod.fst ≠ some h →
    ∀ holder ttl_expires, s.fact k = some (holder, ttl_expires) → ttl_expires ≤ truncate s.now

/-- The release succeeds without Redis. -/
def State.Releases (s : State) (k h : String) : Prop :=
  (s.fact k).map Prod.fst = some h ∨ (s.rows k).map Row.holder = some h

/-- A release that leaves nothing. -/
theorem vacant_of_release {s s₁ : State} {k h : String} (h₁ : Ran (.release k h) s true s₁)
    (hl : s.redisUp = false → s.Leaves k h) : s₁.Vacant k := by
  have he : eval (releaseSlot k h) s = some (true, s₁) := ran_iff.mp h₁
  rw [eval_releaseSlot] at he
  cases hr : s.redisUp with
  | true =>
    rw [hr, if_pos rfl] at he
    split at he <;> cases he
    refine ⟨fun _ => by simp [State.value, State.deleted], fun hr' => ?_, fun hr' => ?_⟩
    · rw [State.deleted, hr] at hr'
      cases hr'
    · rw [State.deleted, hr] at hr'
      cases hr'
  | false =>
    have hleaves := hl hr
    rw [hr, if_neg (by simp), eval_releaseBelow] at he
    split at he
    · rename_i hfact
      cases he
      have hempty : (s.setFact k .empty).fact k = none := by
        simp [State.fact, State.setFact]
      refine ⟨fun hr' => ?_, fun _ holder e hf => ?_, fun _ => ⟨hleaves.granted, (hleaves.row hfact).row⟩⟩
      · rw [State.setFact, hr] at hr'
        cases hr'
      · rw [hempty] at hf
        cases hf
    · rename_i hfact
      rw [eval_slotRelease] at he
      split at he <;> cases he
      refine ⟨fun hr' => ?_, fun _ holder e hf => hleaves.fact hfact holder e hf,
        fun _ => ⟨hleaves.granted, fun row hrow => ?_⟩⟩
      · rw [State.setRow, hr] at hr'
        cases hr'
      · simp [State.setRow] at hrow

/-! ## What is left -/

section Left

variable {k h : String} {s : State}

/-- `s'` differs from `s` in rows and mirror writes only. -/
structure Beside (s s' : State) : Prop where
  now : s'.now = s.now
  redisUp : s'.redisUp = s.redisUp
  fact : s'.fact k = s.fact k

theorem ran_mirror {i : Nat} {w : Write} (hw : s.pending[i]? = some w) :
    ∃ r s', eval w.run (s.taken i) = some (r, s') ∧ Ran (.mirror i) s r s' ∧ Beside (k := k) s s' ∧
      s'.pending = s.pending.eraseIdx i := by
  obtain ⟨r, s', he, hs'⟩ := eval_run w (s.taken i)
  refine ⟨r, s', he, ran_iff.mpr ?_, ?_, ?_⟩
  · exact (eval_mirror s i).trans (by rw [hw]; exact he)
  · rcases hs' with rfl | ⟨row, rfl⟩ <;> exact ⟨rfl, rfl, rfl⟩
  · rcases hs' with rfl | ⟨row, rfl⟩ <;> rfl

/-- The row of the slot is in force. -/
def State.InForce (s : State) (k : String) : Prop :=
  ∃ row, s.rows k = some row ∧ truncate s.now < row.ttlExpires

/-- A mirror write that neither puts a row of the slot in force nor clears the one that is. -/
theorem row_of_run {w : Write} {s s' : State} {r : Bool} {row : Row} (hrow : s.rows k = some row)
    (hlt : truncate s.now < row.ttlExpires) (hg : ¬ w.Grants k) (hc : ¬ w.Clears k row.holder)
    (h : eval w.run s = some (r, s')) : s'.rows k = some row := by
  cases w with
  | release key h' =>
    rw [Write.run, eval_slotRelease] at h
    split at h <;> cases h
    · rename_i hholder
      have hk : k ≠ key := by
        rintro rfl
        rw [hrow, Option.map_some, Option.some.injEq] at hholder
        exact hc ⟨rfl, hholder.symm⟩
      simpa [State.setRow, Function.update_of_ne hk] using hrow
    · exact hrow
  | claim key h' ttl_s =>
    rw [Write.run, eval_slotClaim] at h
    split at h <;> cases h
    · exact hrow
    · rename_i hrefuses
      have hk : k ≠ key := by
        rintro rfl
        have hother : row.holder ≠ h' := fun he => hc ⟨rfl, he.symm, Int.not_lt.mp fun hp => hg ⟨rfl, hp⟩⟩
        simp [State.refuses, hrow, hlt, hother] at hrefuses
      simpa [State.setRow, Function.update_of_ne hk] using hrow

/-- The mirror writes are done. -/
theorem exists_drained : ∀ {n : Nat} {s : State}, s.pending.length = n →
    ∃ s', Later k s s' ∧ Beside (k := k) s s' ∧ s'.pending = [] ∧
      ∀ row, s.rows k = some row → truncate s.now < row.ttlExpires →
        (∀ w ∈ s.pending, ¬ w.Grants k ∧ ¬ w.Clears k row.holder) → s'.rows k = some row
  | 0, s, hn =>
    ⟨s, .refl, ⟨rfl, rfl, rfl⟩, List.length_eq_zero_iff.mp hn, fun _ hrow _ _ => hrow⟩
  | n + 1, s, hn => by
    obtain ⟨w, ws, hs⟩ := List.exists_cons_of_length_eq_add_one hn
    obtain ⟨r, s₁, he, hran, hb, hp⟩ := ran_mirror (k := k) (i := 0) (w := w) (by rw [hs]; rfl)
    rw [hs, List.eraseIdx_zero, List.tail_cons] at hp
    have hlen : s₁.pending.length = n := by
      rw [hs, List.length_cons] at hn
      rw [hp]
      omega
    obtain ⟨s', hl, hb', hp', hrows⟩ := exists_drained hlen
    refine ⟨s', .head ⟨.mirror 0, r, trivial, hran⟩ hl, ⟨hb'.now.trans hb.now, hb'.redisUp.trans hb.redisUp,
      hb'.fact.trans hb.fact⟩, hp', fun row hrow hlt hws => ?_⟩
    obtain ⟨hg, hc⟩ := hws w (hs ▸ List.mem_cons_self)
    refine hrows row (row_of_run (s := s.taken 0) hrow hlt hg hc he) (hb.now ▸ hlt) fun w' hw' => hws w' ?_
    rw [hs]
    exact List.mem_cons_of_mem w (hp ▸ hw')

/-- A mirror write of a claim leaves a row in force, its own or the one that refuses it. -/
theorem inForce_of_run {w : Write} {s s' : State} {r : Bool} (hg : w.Grants k)
    (h : eval w.run s = some (r, s')) : s'.InForce k := by
  cases w with
  | release key h' => exact hg.elim
  | claim key h' ttl_s =>
    obtain ⟨rfl, hpos⟩ := hg
    rw [Write.run, eval_slotClaim] at h
    split at h <;> cases h
    · rename_i hrefuses
      obtain ⟨row, hrow, hdec⟩ := (Option.any_eq_true _ _).mp hrefuses
      exact ⟨row, hrow, (of_decide_eq_true hdec).1⟩
    · exact ⟨_, Function.update_self .., Int.lt_add_of_pos_right _ hpos⟩

/-- Another mirror write than `w`, when there is one. -/
theorem exists_other {w : Write} {l : List Write} (hw : w ∈ l) (hl : 2 ≤ l.length) :
    ∃ i w', l[i]? = some w' ∧ w ∈ l.eraseIdx i := by
  match l, hl with
  | w₀ :: w₁ :: ws, _ =>
    rcases List.mem_cons.mp hw with rfl | hw
    · exact ⟨1, w₁, rfl, List.mem_cons_self⟩
    · exact ⟨0, w₀, rfl, hw⟩

/-- The mirror writes are done, one that puts a row in force last. -/
theorem exists_granted : ∀ {n : Nat} {s : State} {w : Write}, s.pending.length = n → w ∈ s.pending →
    w.Grants k → ∃ s', Later k s s' ∧ Beside (k := k) s s' ∧ s'.pending = [] ∧ s'.InForce k
  | 0, s, w, hn, hw, _ => by
    rw [List.length_eq_zero_iff.mp hn] at hw
    cases hw
  | n + 1, s, w, hn, hw, hg => by
    cases n with
    | zero =>
      obtain ⟨w₀, hs⟩ := List.length_eq_one_iff.mp hn
      rw [hs, List.mem_singleton] at hw
      subst hw
      obtain ⟨r, s₁, he, hran, hb, hp⟩ := ran_mirror (k := k) (i := 0) (w := w) (by rw [hs]; rfl)
      rw [hs] at hp
      exact ⟨s₁, .single ⟨.mirror 0, r, trivial, hran⟩, hb, hp, inForce_of_run hg he⟩
    | succ n =>
      obtain ⟨i, w', hi, hrest⟩ := exists_other hw (by omega)
      obtain ⟨r, s₁, he, hran, hb, hp⟩ := ran_mirror (k := k) hi
      have hlen : s₁.pending.length = n + 1 := by
        rw [hp, List.length_eraseIdx_of_lt (List.getElem?_eq_some_iff.mp hi).1]
        omega
      obtain ⟨s', hl, hb', hp', hrow⟩ := exists_granted hlen (hp ▸ hrest) hg
      exact ⟨s', .head ⟨.mirror i, r, trivial, hran⟩ hl, ⟨hb'.now.trans hb.now,
        hb'.redisUp.trans hb.redisUp, hb'.fact.trans hb.fact⟩, hp', hrow⟩

/-- A row in force is the holder, when the Context Bridge says nothing. -/
theorem not_effective_of_row (hr : s.redisUp = false) (hf : s.fact k = none) (hrow : s.InForce k) :
    ¬ Effective k h s := by
  intro heff
  obtain ⟨row, hk, hlt⟩ := hrow
  obtain ⟨s₁, hs₁⟩ := eval_slotHolder s k
  obtain ⟨s₂, hs₂⟩ := eval_holderBelow s k
  rw [hr, if_neg (by simp), hs₂, hf] at hs₁
  have hnone := heff.unheld _ _ (ran_iff.mpr hs₁)
  simp [State.rowHolder, hk, not_le.mpr hlt] at hnone

/-- A fact in force is the holder. -/
theorem not_effective_of_fact {holder : String} {e : Int} (hr : s.redisUp = false)
    (hf : s.fact k = some (holder, e)) (hlt : truncate s.now < e) : ¬ Effective k h s := by
  intro heff
  obtain ⟨s₁, hs₁⟩ := eval_slotHolder s k
  obtain ⟨s₂, hs₂⟩ := eval_holderBelow s k
  rw [hr, if_neg (by simp), hs₂, hf] at hs₁
  have hnone := heff.unheld _ _ (ran_iff.mpr hs₁)
  simp [hlt] at hnone

theorem ran_release_of_fact (hr : s.redisUp = false) (hfact : (s.fact k).map Prod.fst = some h) :
    Ran (.release k h) s true (s.setFact k .empty) := by
  have he : eval (releaseSlot k h) s = some (true, s.setFact k .empty) := by
    rw [eval_releaseSlot, hr, if_neg (by simp), eval_releaseBelow, if_pos hfact]
  exact ran_iff.mpr he

theorem ran_release_of_row (hr : s.redisUp = false) (hfact : (s.fact k).map Prod.fst ≠ some h)
    (hrow : (s.rows k).map Row.holder = some h) : Ran (.release k h) s true (s.setRow k none) := by
  have he : eval (releaseSlot k h) s = some (true, s.setRow k none) := by
    rw [eval_releaseSlot, hr, if_neg (by simp), eval_releaseBelow, if_neg hfact, eval_slotRelease,
      if_pos hrow]
  exact ran_iff.mpr he

/-- After a release that asserted the empty fact. -/
theorem leaves_of_fact (h₀ : TakesEffect s k h) (hr : s.redisUp = false)
    (hfact : (s.fact k).map Prod.fst = some h) : s.Leaves k h := by
  have hran := ran_release_of_fact hr hfact
  have hempty : (s.setFact k .empty).fact k = none := by
    simp [State.fact, State.setFact]
  have hgranted : ∀ w ∈ s.pending, ¬ w.Grants k := by
    intro w hw hg
    obtain ⟨s₂, hl, hb, hp, hrow⟩ := exists_granted (s := s.setFact k .empty) rfl hw hg
    refine not_effective_of_row (hb.redisUp.trans hr) (hb.fact.trans hempty) hrow (h₀ _ s₂ hran hl ?_)
    rw [hp]
    exact fun w hw => absurd hw List.not_mem_nil
  refine ⟨hgranted, fun _ => ⟨hgranted, fun row hrow hlt => ?_⟩, fun hne => absurd hfact hne⟩
  by_contra hno
  obtain ⟨s₂, hl, hb, hp, hrows⟩ := exists_drained (k := k) (s := s.setFact k .empty) rfl
  have hkept := hrows row hrow hlt fun w hw => ⟨hgranted w hw, fun hc => hno ⟨w, hw, hc⟩⟩
  refine not_effective_of_row (hb.redisUp.trans hr) (hb.fact.trans hempty)
    ⟨row, hkept, by rw [hb.now]; exact hlt⟩ (h₀ _ s₂ hran hl ?_)
  rw [hp]
  exact fun w hw => absurd hw List.not_mem_nil

/-- After a release that deleted the row. -/
theorem leaves_of_row (h₀ : TakesEffect s k h) (hr : s.redisUp = false)
    (hfact : (s.fact k).map Prod.fst ≠ some h) (hrow : (s.rows k).map Row.holder = some h) :
    s.Leaves k h := by
  have hran := ran_release_of_row hr hfact hrow
  refine ⟨fun w hw hg => ?_, fun he => absurd he hfact, fun _ holder e hf => ?_⟩
  · -- first the fact of another holder, if there is one, is released too
    obtain ⟨s₁, hl₁, hr₁, hf₁, hp₁⟩ : ∃ s₁, Later k (s.setRow k none) s₁ ∧ s₁.redisUp = false ∧
        s₁.fact k = none ∧ s₁.pending = s.pending := by
      cases hf : s.fact k with
      | none => exact ⟨_, .refl, hr, hf, rfl⟩
      | some p =>
        have hran' := ran_release_of_fact (s := s.setRow k none) (h := p.1) hr (congrArg _ hf)
        exact ⟨_, .single ⟨.release k p.1, true, trivial, hran'⟩, hr,
          by simp [State.fact, State.setFact], rfl⟩
    obtain ⟨s₂, hl, hb, hp, hforce⟩ := exists_granted (s := s₁) rfl (hp₁ ▸ hw) hg
    refine not_effective_of_row (hb.redisUp.trans hr₁) (hb.fact.trans hf₁) hforce
      (h₀ _ s₂ hran (hl₁.trans hl) ?_)
    rw [hp]
    exact fun w hw => absurd hw List.not_mem_nil
  · by_contra hlt
    obtain ⟨s₂, hl, hb, hp, -⟩ := exists_drained (k := k) (s := s.setRow k none) rfl
    refine not_effective_of_fact (hb.redisUp.trans hr) (hb.fact.trans hf)
      (by rw [hb.now]; exact not_le.mp hlt) (h₀ _ s₂ hran hl ?_)
    rw [hp]
    exact fun w hw => absurd hw List.not_mem_nil

end Left

/-- **A release takes effect** exactly when Redis is up, or it finds nothing to release, or it leaves nothing
in force. -/
theorem takesEffect_iff (s : State) (k h : String) :
    TakesEffect s k h ↔ (s.redisUp = false → s.Releases k h → s.Leaves k h) := by
  constructor
  · intro h₀ hr hrel
    by_cases hfact : (s.fact k).map Prod.fst = some h
    · exact leaves_of_fact h₀ hr hfact
    · exact leaves_of_row h₀ hr hfact (hrel.resolve_left hfact)
  · intro hleaves s₁ s₂ hran hl hdone
    refine effective_of_vacant (vacant_of_later (vacant_of_release hran fun hr => hleaves hr ?_) hl) hdone h
    have he : eval (releaseSlot k h) s = some (true, s₁) := ran_iff.mp hran
    rw [eval_releaseSlot, hr, if_neg (by simp), eval_releaseBelow] at he
    split at he
    · exact Or.inl ‹_›
    · rw [eval_slotRelease] at he
      split at he
      · exact Or.inr ‹_›
      · cases he

/-- The states reached from there by complete calls. -/
def Reached : State → Prop := Relation.ReflTransGen (fun s s' => ∃ o r, Ran o s r s') State.fresh

/-- The state after a complete call. -/
def State.after (s : State) (o : Op) : State := ((eval (prog o) s).map Prod.snd).getD s

theorem reached_after {s : State} (h : Reached s) (o : Op) : Reached (s.after o) := by
  unfold State.after
  cases he : eval (prog o) s with
  | none => exact h
  | some p => exact h.tail ⟨o, p.1, ran_iff.mpr he⟩

theorem reached_foldl : ∀ (os : List Op) {s : State}, Reached s → Reached (os.foldl State.after s)
  | [], _, h => h
  | o :: os, _, h => reached_foldl os (reached_after h o)

/-- A slot claimed in Redis and mirrored to SQLite, then Redis goes down and the holder claims it again. -/
def failedOver : State :=
  [.claim "k" "a" 3600, .mirror 0, .setRedis false, .claim "k" "a" 3600].foldl State.after State.fresh

/-- The holder releases the slot, and still has it. -/
theorem released_slot_held : ¬ ∀ s, Reached s → ∀ k h, TakesEffect s k h := by
  intro h
  have hreached : Reached failedOver := reached_foldl _ .refl
  have hreleased : (eval (releaseSlot "k" "a") failedOver).map Prod.fst = some true := by
    decide +kernel
  obtain ⟨⟨r, s₁⟩, he, hr⟩ := Option.map_eq_some_iff.mp hreleased
  have hs₁ : failedOver.after (.release "k" "a") = s₁ := by
    have he' : eval (prog (.release "k" "a")) failedOver = some (r, s₁) := he
    rw [State.after, he']
    rfl
  have hdone : (failedOver.after (.release "k" "a")).pending = [] := by
    decide +kernel
  have hheld : (eval (slotHolder "k") (failedOver.after (.release "k" "a"))).map Prod.fst =
      some (some "a") := by
    decide +kernel
  rw [hs₁] at hdone hheld
  obtain ⟨⟨holder, s₂⟩, he₂, hholder⟩ := Option.map_eq_some_iff.mp hheld
  have hran : Ran (.release "k" "a") failedOver true s₁ := by
    rw [show r = true from hr] at he
    exact ran_iff.mpr he
  have heff := h failedOver hreached "k" "a" s₁ s₁ hran .refl (by simp [hdone])
  have hnone : holder = none := heff.unheld holder s₂ (ran_iff.mpr he₂)
  rw [show holder = some "a" from hholder] at hnone
  cases hnone

end ClaudeSwarm.Cascade
