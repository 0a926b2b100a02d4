import ClaudeSwarm.Cascade.Steady

/-!
# One holder, across failovers

Runs of the cascade in which calls, mirror writes, outages and the clock interleave command by command.

* `op_outline`: what a call has read when it decides a claim, or releases one, and that a claim that returns
  `True` has decided one.
* **`exclusive_of_steady`**: in runs of steady commands no two holders have claims of one slot that stand.
* `two_holders`: other runs have them. After a failover the new level knows nothing of the old.
-/

namespace ClaudeSwarm.Cascade

open Interleave
open Python (Time truncate)

/-! ## The outlines -/

/-- Call `n` has decided a claim of `k` by `h`. -/
def Granted (t₀ : Time) (n : Nat) (k h : String) : List (Event system) → Prop
  | [] => False
  | e :: l => (e.call = n ∧ ∃ L u, Grants t₀ l k h L u e) ∨ Granted t₀ n k h l

/-- The clock does not go back. -/
theorem now_le_of_fires {w w' : World system} {e : Event system} (hf : Fires w e w') :
    w.state.now ≤ w'.state.now := by
  obtain ⟨n, o, c, x⟩ := e
  obtain ⟨⟨i, hx⟩, -⟩ := hf
  simp only at hx
  generalize w'.state = s' at hx
  cases c <;> simp only [system, store, exec] at hx
  case advance t =>
    split at hx <;> cases hx
    assumption
  case set key value ex =>
    split at hx
    · cases hx
      rfl
    · split at hx <;> cases hx <;> rfl
  case get | delete | query | assert => split at hx <;> cases hx <;> rfl
  all_goals
    cases hx
    rfl

/-- Call `n` has first looked at the clock at `x` at the latest. -/
def BegunBy (n : Nat) (x : Time) (w : World system) : Prop := ∃ t, began n w.trace = some t ∧ t ≤ x

/-- What call `n` has first read of the clock is past. -/
def Paced (n : Nat) (w : World system) : Prop := ∀ t, began n w.trace = some t → t ≤ w.state.now

theorem began_other {n : Nat} {w w' : World system} {e : Event system} (hf : Fires w e w')
    (hn : e.call ≠ n) : began n w'.trace = began n w.trace := by
  simp [began, hf.2, hn]

theorem began_own {n : Nat} {w w' : World system} {e : Event system} (hf : Fires w e w')
    (hn : e.call = n) : began n w'.trace = (began n w.trace).or (readTime e) := by
  simp only [began, hf.2, List.filter_cons, hn, beq_self_eq_true, if_true, List.reverse_cons,
    List.findSome?_append, List.findSome?_cons, List.findSome?_nil]
  cases readTime e <;> rfl

/-- A call begins once. -/
theorem lasting_begunBy {n : Nat} {x : Time} : Lasting (BegunBy n x) := by
  rintro w e w' hf ⟨t, hbegan, hle⟩
  refine ⟨t, ?_, hle⟩
  by_cases hn : e.call = n
  · rw [began_own hf hn, hbegan, Option.some_or]
  · rw [began_other hf hn, hbegan]

/-- What a command reads of the clock is the time. -/
theorem readTime_of_fires {w w' : World system} {e : Event system} (hf : Fires w e w') {t : Time}
    (ht : readTime e = some t) : t = w.state.now := by
  obtain ⟨n, o, c, x⟩ := e
  cases c with
  | time =>
    obtain ⟨⟨i, hx⟩, -⟩ := hf
    cases ht
    simp only [system, store, exec] at hx
    generalize w'.state = s' at hx
    cases hx
    rfl
  | _ => cases ht

theorem lasting_paced {n : Nat} : Lasting (Paced n) := by
  intro w e w' hf hpaced t ht
  refine le_trans ?_ (now_le_of_fires hf)
  by_cases hn : e.call = n
  · rw [began_own hf hn] at ht
    cases hbegan : began n w.trace with
    | none =>
      rw [hbegan, Option.none_or] at ht
      exact (readTime_of_fires hf ht).le
    | some t' =>
      rw [hbegan, Option.some_or] at ht
      cases ht
      exact hpaced t hbegan
  · rw [began_other hf hn] at ht
    exact hpaced t ht

/-- Looking at the clock, a call has begun. -/
theorem begunBy_of_time {n : Nat} {o : Op} {w w' : World system} {x : Time} (hpaced : Paced n w)
    (hf : Fires w ⟨n, o, .time, x⟩ w') : BegunBy n x w' ∧ x ≤ w'.state.now := by
  have hx : x = w.state.now := readTime_of_fires hf rfl
  refine ⟨?_, hx ▸ now_le_of_fires hf⟩
  rw [BegunBy, began_own hf rfl]
  cases hbegan : began n w.trace with
  | none => exact ⟨x, rfl, le_rfl⟩
  | some t => exact ⟨t, rfl, hx ▸ hpaced t hbegan⟩

theorem lasting_now {x : Time} : Lasting fun w : World system => x ≤ w.state.now :=
  fun _ _ _ hf hx => hx.trans (now_le_of_fires hf)

/-- The discipline of what the code says. -/
def saying (G : Guard system) : Discipline system := ⟨G, fun _ => True, fun w e => Obeys w e.call e.op e.cmd⟩

section Outlines

variable {G : Guard system} {n : Nat} {o : Op} {α : Type}

theorem establishes_of {P : World system → Prop} {c : Cmd} {P' : Resp c → World system → Prop}
    (hobeys : ∀ w, P w → Obeys w n o c) (hP : ∀ w x w', P w → Fires w ⟨n, o, c, x⟩ w' → P' x w') :
    Establishes (saying G) n o P c P' :=
  fun w x w' _ hw _ hf => ⟨hobeys w hw, trivial, hP w x w' hw hf⟩

theorem stable_lastRead {β : Type} {read : Event system → Option β} {x : Option β} :
    Stable (saying G) n fun w => lastRead read n w = x :=
  stable_mine (p := fun l => l.findSome? read = x)

theorem lastRead_own {β : Type} {read : Event system → Option β} {w w' : World system} {e : Event system}
    (hf : Fires w e w') (hn : e.call = n) : lastRead read n w' = (read e).or (lastRead read n w) := by
  rw [lastRead, mine_own hf hn, List.findSome?_cons]
  cases read e <;> rfl

theorem lastRead_now {β : Type} {read : Event system → Option β} {w w' : World system} {e : Event system} {x : β}
    (hf : Fires w e w') (hr : read e = some x) : lastRead read e.call w' = some x := by
  rw [lastRead_own hf rfl, hr, Option.some_or]

theorem obeys_time {w : World system} : Obeys w n o .time := by cases o <;> trivial

theorem obeys_select {w : World system} {key : String} : Obeys w n o (.select key) := by
  cases o <;> trivial

/-- A program whose commands need nothing to have been read. -/
theorem outline_plain {Q : Except Empty α → World system → Prop} {A : World system → Prop} {p : P α}
    (hp : p.Each fun c => ∀ w, Obeys w n o c) (hQ : ∀ r w, Q r w) : Outline (saying G) n o Q p A :=
  outline_mono (fun _ _ _ => trivial) (fun r w _ _ => hQ r w)
    (outline_of_each stable_true (fun _ hc => establishes_of (fun w _ => hc w) fun _ _ _ _ _ => trivial) hp)

/-- `_SQLiteStore.slot_claim`: `A` is what holds once the row has been written. -/
theorem outline_slotClaim {A : World system → Prop} (hA : Lasting A) {key holder : String} {ttl_s : Int}
    (hobeys : ∀ w row, row.holder = holder → Counts n ttl_s w row.ttlExpires → RowPassed n key holder w →
      Obeys w n o (.insert key row))
    (hwrites : ∀ w row w', Counts n ttl_s w row.ttlExpires → Fires w ⟨n, o, .insert key row, ()⟩ w' → A w') :
    Outline (saying G) n o (fun r w => r = .ok true → A w) (slotClaim key holder ttl_s) (Paced n) := by
  -- the insertion, once the row has been looked at
  have hinsert : ∀ t : Time, Outline (saying G) n o (fun r w => r = .ok true → A w)
      (cmd (.insert key ⟨holder, truncate t + ttl_s⟩) >>= fun _ => .ret true)
      fun w => BegunBy n t w ∧ RowPassed n key holder w := by
    intro t
    have hcounts : ∀ w, BegunBy n t w → Counts n ttl_s w (truncate t + ttl_s) := by
      rintro w ⟨t', ht', hle⟩
      exact ⟨t', ht', Int.add_le_add_right (Python.truncate_mono hle) ttl_s⟩
    refine outline_cmd (fun _ => A) (fun _ => hA.stable) (establishes_of (fun w hw => ?_) ?_) fun _ => ?_
    · exact hobeys w _ rfl (hcounts w hw.1) hw.2
    · intro w x w' hw hf
      exact hwrites w _ w' (hcounts w hw.1) hf
    · exact outline_ret fun w _ hw _ => hw
  refine outline_cmd (M := system) (c := Cmd.time) (fun (t : Time) => BegunBy n t) (fun _ => lasting_begunBy.stable)
    (establishes_of (fun _ _ => obeys_time) fun w x w' hw hf => (begunBy_of_time hw hf).1) fun t => ?_
  refine outline_cmd (M := system) (c := Cmd.select key)
    (fun (x : Option Row) w => BegunBy n t w ∧ lastRead (readRow key) n w = some x)
    (fun _ => stable_and lasting_begunBy.stable stable_lastRead)
    (establishes_of (fun _ _ => obeys_select) fun w x w' hw hf => ?_) fun x => ?_
  · exact ⟨lasting_begunBy _ _ _ hf hw, lastRead_now hf (if_pos rfl)⟩
  cases x with
  | none =>
    refine outline_pre (fun w _ hw => ⟨hw.1, none, hw.2, fun r hr => ?_⟩) (hinsert t)
    cases hr
  | some existing =>
    refine outline_cmd (M := system) (c := Cmd.time)
      (fun (now : Time) w => (BegunBy n t w ∧ now ≤ w.state.now) ∧ lastRead (readRow key) n w = some (some existing))
      (fun _ => stable_and (lasting_begunBy.and lasting_now).stable stable_lastRead)
      (establishes_of (fun _ _ => obeys_time) fun w now w' hw hf => ?_) fun now => ?_
    · have hnow : now = w.state.now := readTime_of_fires hf rfl
      refine ⟨⟨lasting_begunBy _ _ _ hf hw.1, hnow ▸ now_le_of_fires hf⟩, ?_⟩
      rw [lastRead_own hf rfl]
      exact hw.2
    · simp only
      split
      · exact outline_ret fun w _ _ hr => by cases hr
      · rename_i hpass
        refine outline_pre (fun w _ hw => ⟨hw.1.1, some existing, hw.2, fun r hr => ?_⟩) (hinsert t)
        cases hr
        rw [gt_iff_lt, ne_eq, not_and_or, not_lt, not_not] at hpass
        exact hpass.symm.imp_right fun hle => hle.trans (Python.truncate_mono hw.1.2)

/-- `_SQLiteStore.slot_release`. -/
theorem outline_slotRelease {key holder : String} {P : World system → Prop}
    (hobeys : ∀ w r, lastRead (readRow key) n w = some (some r) → r.holder = holder →
      Obeys w n o (.deleteRow key)) :
    Outline (saying G) n o (fun _ _ => True) (slotRelease key holder) P := by
  refine outline_cmd (M := system) (c := Cmd.select key) (fun (x : Option Row) w => lastRead (readRow key) n w = some x)
    (fun _ => stable_lastRead) (establishes_of (fun _ _ => obeys_select)
      fun w x w' _ hf => lastRead_now hf (if_pos rfl)) fun x => ?_
  cases x with
  | none => exact outline_ret fun _ _ _ => trivial
  | some row =>
    simp only
    split
    · rename_i hholder
      refine outline_cmd (fun _ _ => True) (fun _ => stable_true)
        (establishes_of (fun w hw => hobeys w row hw hholder) fun _ _ _ _ _ => trivial) fun _ => ?_
      exact outline_ret fun _ _ _ => trivial
    · exact outline_ret fun _ _ _ => trivial

/-- `_SQLiteStore.slot_holder`. -/
theorem outline_holder {k : String} {A : World system → Prop} :
    Outline (saying G) n (.holder k) (fun _ _ => True) (slotHolder k) A := by
  have hsqlite : (sqliteHolder k).Each fun c => ∀ w, Obeys w n (.holder k) c := by
    refine each_cmd (c := .select k) (fun _ => trivial) fun x => ?_
    cases x with
    | none => trivial
    | some row =>
      refine each_cmd (c := .time) (fun _ => trivial) fun now => ?_
      simp only
      split
      · exact ⟨fun _ => trivial, fun _ => trivial⟩
      · trivial
  have hbelow : (holderBelow k).Each fun c => ∀ w, Obeys w n (.holder k) c := by
    refine each_cmd (c := .query k) (fun _ => trivial) fun x => ?_
    match x with
    | some (.claim h e) =>
      refine each_cmd (c := .time) (fun _ => trivial) fun now => ?_
      simp only
      split <;> trivial
    | some .empty => exact hsqlite
    | none => exact hsqlite
  refine outline_plain (each_cmd (c := .health) (fun _ => trivial) fun up => ?_) fun _ _ => trivial
  cases up with
  | false => exact hbelow
  | true =>
    refine each_cmd (c := .get k) (fun _ => trivial) fun x => ?_
    cases x with
    | none => exact hbelow
    | some holder => trivial

/-- A mirror write. -/
theorem outline_mirror {i : Nat} :
    Outline (saying G) n (.mirror i) (fun _ _ => True) (mirror i) (Paced n) := by
  refine outline_cmd (M := system) (c := Cmd.take i) (fun _ => Paced n) (fun _ => lasting_paced.stable)
    (establishes_of (fun _ _ => trivial) fun w x w' hw hf => lasting_paced _ _ _ hf hw) fun x => ?_
  match x with
  | none => exact outline_ret fun _ _ _ => trivial
  | some (.claim key holder ttl_s) =>
    refine outline_mono (fun _ _ h => h) (fun _ _ _ _ => trivial)
      (outline_slotClaim (A := fun _ => True) lasting_pure (fun w row hholder _ hpass => ?_) fun _ _ _ _ _ => trivial)
    subst hholder
    exact hpass
  | some (.release key holder) => exact outline_slotRelease fun _ _ _ _ => trivial

/-- `release_slot`. -/
theorem outline_release {k h : String} {A : World system → Prop} :
    Outline (saying G) n (.release k h) (fun _ _ => True) (releaseSlot k h) A := by
  have hsqlite : ∀ A : World system → Prop,
      Outline (saying G) n (.release k h) (fun _ _ => True) (slotRelease k h) A :=
    fun _ => outline_slotRelease fun _ r hread hholder => ⟨rfl, r, hread, hholder⟩
  have hbelow : ∀ A : World system → Prop,
      Outline (saying G) n (.release k h) (fun _ _ => True) (releaseBelow k h) A := by
    intro A
    refine outline_cmd (M := system) (c := Cmd.query k)
      (fun (x : Option Fact) w => lastRead (readFact k) n w = some x)
      (fun _ => stable_lastRead) (establishes_of (fun _ _ => trivial)
        fun w x w' _ hf => lastRead_now hf (if_pos rfl)) fun x => ?_
    match x with
    | none => exact hsqlite _
    | some .empty => exact hsqlite _
    | some (.claim h' e) =>
      simp only
      split
      · rename_i hh
        refine outline_cmd (M := system) (c := Cmd.assert k .empty) (fun _ _ => True) (fun _ => stable_true)
          (establishes_of (fun w hw => ⟨rfl, rfl, e, hh ▸ hw⟩) fun _ _ _ _ _ => trivial) fun x => ?_
        match x with
        | true => exact outline_ret fun _ _ _ => trivial
        | false => exact hsqlite _
      · exact hsqlite _
  refine outline_cmd (M := system) (c := Cmd.health) (fun _ _ => True) (fun _ => stable_true)
    (establishes_of (fun _ _ => trivial) fun _ _ _ _ _ => trivial) fun x => ?_
  match x with
  | false => exact hbelow _
  | true =>
    refine outline_cmd (M := system) (c := Cmd.get k)
      (fun (x : Option (Option String)) w => lastRead (readValue k) n w = some x)
      (fun _ => stable_lastRead) (establishes_of (fun _ _ => trivial)
        fun w x w' _ hf => lastRead_now hf (if_pos rfl)) fun x => ?_
    match x with
    | none => exact hbelow _
    | some current =>
      simp only
      split
      · rename_i hcurrent
        refine outline_cmd (M := system) (c := Cmd.delete k) (fun _ _ => True) (fun _ => stable_true)
          (establishes_of (fun w hw => ⟨rfl, hcurrent ▸ hw⟩) fun _ _ _ _ _ => trivial) fun x => ?_
        match x with
        | none => exact hbelow _
        | some false => exact outline_ret fun _ _ _ => trivial
        | some true =>
          exact outline_plain ⟨fun _ => trivial, fun _ => trivial⟩ fun _ _ => trivial
      · exact outline_ret fun _ _ _ => trivial

/-- What a claim that returns `True` has done. -/
def Decided (t₀ : Time) (n : Nat) (k h : String) (r : Except Empty Bool) (w : World system) : Prop :=
  r = .ok true → Granted t₀ n k h w.trace

theorem lasting_granted {t₀ : Time} {k h : String} :
    Lasting fun w : World system => Granted t₀ n k h w.trace := by
  intro w e w' hf hg
  rw [hf.2]
  exact Or.inr hg

/-- What decides a claim grants it. -/
theorem granted_now {t₀ : Time} {k h : String} {ttl_s : Int} {c : Cmd} {x : Resp c} {w w' : World system}
    (hf : Fires w ⟨n, .claim k h ttl_s, c, x⟩ w')
    (hdec : decided (clock t₀ w.trace) (began n w.trace) ttl_s c x ≠ none) : Granted t₀ n k h w'.trace := by
  obtain ⟨⟨L, u⟩, hu⟩ := Option.ne_none_iff_exists'.mp hdec
  rw [hf.2]
  exact Or.inl ⟨rfl, L, u, ttl_s, rfl, hu⟩

/-- `claim_slot` after its query. -/
theorem outline_claimBridge {t₀ t : Time} {k h : String} {ttl_s : Int} :
    Outline (saying G) n (.claim k h ttl_s) (Decided t₀ n k h)
      (claimBridge k h ttl_s (.claim h (truncate t + ttl_s)))
      fun w => (BegunBy n t w ∧ Paced n w) ∧ FactPassed n k h w := by
  refine outline_cmd (M := system) (c := Cmd.assert k (.claim h (truncate t + ttl_s)))
    (fun (x : Bool) w => Paced n w ∧ (x = true → Granted t₀ n k h w.trace))
    (fun x => ?_) (establishes_of (fun w hw => ?_) fun w x w' hw hf => ?_) fun x => ?_
  · refine (lasting_paced.and ?_).stable
    exact fun w e w' hf hg hx => lasting_granted _ _ _ hf (hg hx)
  · obtain ⟨⟨⟨t', ht', hle⟩, -⟩, hpass⟩ := hw
    exact ⟨rfl, ⟨_, rfl, t', ht', Int.add_le_add_right (Python.truncate_mono hle) ttl_s⟩, hpass⟩
  · obtain ⟨⟨⟨t', ht', -⟩, hpaced⟩, -⟩ := hw
    refine ⟨lasting_paced _ _ _ hf hpaced, fun hx => granted_now hf ?_⟩
    subst hx
    simp [decided, ht']
  cases x with
  | true => exact outline_ret fun w _ hw _ => hw.2 rfl
  | false =>
    refine outline_pre (fun w _ hw => hw.1)
      (outline_slotClaim (A := fun w => Granted t₀ n k h w.trace) lasting_granted ?_ ?_)
    · intro w row hholder hcounts hpass
      exact ⟨rfl, hholder, hcounts, hpass⟩
    · rintro w row w' ⟨t', ht', -⟩ hf
      exact granted_now hf (by simp [decided, ht'])

/-- `claim_slot` without Redis. -/
theorem outline_claimBelow {t₀ : Time} {k h : String} {ttl_s : Int} :
    Outline (saying G) n (.claim k h ttl_s) (Decided t₀ n k h) (claimBelow k h ttl_s) (Paced n) := by
  refine outline_cmd (M := system) (c := Cmd.time) (fun (t : Time) w => BegunBy n t w ∧ Paced n w)
    (fun _ => (lasting_begunBy.and lasting_paced).stable)
    (establishes_of (fun _ _ => trivial)
      fun w t w' hw hf => ⟨(begunBy_of_time hw hf).1, lasting_paced _ _ _ hf hw⟩) fun t => ?_
  refine outline_cmd (M := system) (c := Cmd.query k)
    (fun (x : Option Fact) w => (BegunBy n t w ∧ Paced n w) ∧ lastRead (readFact k) n w = some x)
    (fun _ => stable_and (lasting_begunBy.and lasting_paced).stable stable_lastRead)
    (establishes_of (fun _ _ => trivial) fun w x w' hw hf =>
      ⟨(lasting_begunBy.and lasting_paced) _ _ _ hf hw, lastRead_now hf (if_pos rfl)⟩) fun x => ?_
  match x with
  | none =>
    refine outline_pre (fun w _ hw => ⟨hw.1, _, hw.2, fun h' e' he => ?_⟩) outline_claimBridge
    cases he
  | some .empty =>
    refine outline_pre (fun w _ hw => ⟨hw.1, _, hw.2, fun h' e' he => ?_⟩) outline_claimBridge
    cases he
  | some (.claim h' e) =>
    refine outline_cmd (M := system) (c := Cmd.time)
      (fun (now : Time) w => ((BegunBy n t w ∧ Paced n w) ∧ now ≤ w.state.now) ∧
        lastRead (readFact k) n w = some (some (.claim h' e)))
      (fun _ => stable_and ((lasting_begunBy.and lasting_paced).and lasting_now).stable stable_lastRead)
      (establishes_of (fun _ _ => trivial) fun w now w' hw hf => ?_) fun now => ?_
    · have hnow : now = w.state.now := readTime_of_fires hf rfl
      refine ⟨⟨(lasting_begunBy.and lasting_paced) _ _ _ hf hw.1, hnow ▸ now_le_of_fires hf⟩, ?_⟩
      rw [lastRead_own hf rfl]
      exact hw.2
    · split
      · exact outline_ret fun w _ _ hr => by cases hr
      · rename_i hpass
        refine outline_pre (fun w _ hw => ⟨hw.1.1, _, hw.2, fun h'' e' he => ?_⟩) outline_claimBridge
        cases he
        rw [gt_iff_lt, ne_eq, not_and_or, not_lt, not_not] at hpass
        exact hpass.symm.imp_right fun hle => hle.trans (Python.truncate_mono hw.1.2)

/-- `claim_slot`. -/
theorem outline_claim {t₀ : Time} {k h : String} {ttl_s : Int} :
    Outline (saying G) n (.claim k h ttl_s) (Decided t₀ n k h) (claimSlot k h ttl_s) (Paced n) := by
  refine outline_cmd (M := system) (c := Cmd.health) (fun _ => Paced n) (fun _ => lasting_paced.stable)
    (establishes_of (fun _ _ => trivial) fun w x w' hw hf => lasting_paced _ _ _ hf hw) fun x => ?_
  cases x with
  | false => exact outline_claimBelow
  | true =>
    refine outline_cmd (M := system) (c := Cmd.set k h ttl_s)
      (fun (x : Option Bool) w => Paced n w ∧ (x = some true → Granted t₀ n k h w.trace))
      (fun x => ?_) (establishes_of (fun w _ => ⟨rfl, rfl, rfl⟩) fun w x w' hw hf => ?_) fun x => ?_
    · refine (lasting_paced.and ?_).stable
      exact fun w e w' hf hg hx => lasting_granted _ _ _ hf (hg hx)
    · refine ⟨lasting_paced _ _ _ hf hw, fun hx => granted_now hf ?_⟩
      subst hx
      simp [decided]
    cases x with
    | none => exact outline_pre (fun w _ hw => hw.1) outline_claimBelow
    | some claimed =>
      cases claimed with
      | false => exact outline_ret fun w _ _ hr => by cases hr
      | true =>
        refine outline_cmd (fun _ w => Granted t₀ n k h w.trace) (fun _ => lasting_granted.stable)
          (establishes_of (fun _ _ => trivial) fun w x w' hw hf => lasting_granted _ _ _ hf (hw.2 rfl)) fun _ => ?_
        exact outline_ret fun w _ hw _ => hw

end Outlines

/-- What a call has done that returned. -/
def Post (t₀ : Time) (n : Nat) : (o : Op) → Except Empty o.Ret → World system → Prop
  | .claim k h _ => Decided t₀ n k h
  | _ => fun _ _ => True

theorem paced_of_untouched {n : Nat} {w : World system} (h : Untouched n w) : Paced n w := by
  intro t ht
  have hmine : (w.trace.filter fun e => e.call == n) = [] := h
  rw [began, hmine] at ht
  cases ht

/-- **What the operations read before they write.** -/
theorem op_outline {G : Guard system} {t₀ : Time} (n : Nat) :
    (o : Op) → Outline (saying G) n o (Post t₀ n o) (prog o) (Untouched n)
  | .claim _ _ _ => outline_pre (fun _ _ h => paced_of_untouched h) outline_claim
  | .release _ _ => outline_release
  | .holder _ => outline_holder
  | .mirror _ => outline_pre (fun _ _ h => paced_of_untouched h) outline_mirror
  | .advance _ | .setRedis _ | .setBridge _ => outline_plain ⟨fun _ => trivial, fun _ => trivial⟩ fun _ _ => trivial

/-! ## Runs -/

/-- Call `n` has returned `True` from a claim of `k` by `h` that is not released, and its time is not up. -/
def Holds (t₀ : Time) (c : Config system) (n : Nat) (k h : String) : Prop :=
  (∃ ttl_s, c.Returned n (.claim k h ttl_s) true) ∧
    ∃ L u, Standing t₀ n k h L u c.world.trace ∧ c.world.state.now < u

/-- What returned `True` was granted, and no slot has two holders. -/
structure Sole (t₀ : Time) (c : Config system) : Prop where
  granted : ∀ n k h ttl_s, c.Returned n (.claim k h ttl_s) true → Granted t₀ n k h c.world.trace
  sole : ∀ n n' k h h', Holds t₀ c n k h → Holds t₀ c n' k h' → h = h'

/-- In the runs from `s` whose commands meet the guard no slot ever has two holders. -/
def Exclusive (G : Time → Guard system) (s : State) : Prop :=
  ∀ c, Run (G s.now) (.init s) c → Sole s.now c

/-- **Steady runs.** -/
theorem exclusive_of_steady (s : State) : Exclusive Steady s := by
  intro c hrun
  have hinv : Inv s.now c.world := by
    have hsaid := run_obeys (D := saying (Steady s.now)) (K := Obeys) (fun _ _ h => h)
      (@op_outline _ s.now) trivial hrun
    refine run_inv (fun w e w' hi hg hf => inv_of_fires hi hg.2 hg.1 hf) ?_ hsaid
    exact ⟨rfl, fun _ _ _ _ _ hs _ => hs.elim, fun _ _ _ _ _ ⟨_, _, hs, _⟩ => hs.elim⟩
  refine ⟨fun n k h ttl_s hret => ?_, fun n n' k h h' hn hn' => ?_⟩
  · exact (run_sound (D := saying (Steady s.now)) (@op_outline _ s.now) trivial hrun).returned hret rfl
  · obtain ⟨-, L, u, hs, hlt⟩ := hn
    obtain ⟨-, L', u', hs', hlt'⟩ := hn'
    exact hinv.holder k h h' L L' ⟨n, u, hs, hlt⟩ ⟨n', u', hs', hlt'⟩

/-! ## A failover -/

section Failover

instance decidableGrants (t₀ : Time) (l : List (Event system)) (k h : String) (L : Level) (u : Time) :
    (e : Event system) → Decidable (Grants t₀ l k h L u e)
  | ⟨n, .claim k' h' ttl_s, c, x⟩ =>
    decidable_of_iff ((k' = k ∧ h' = h) ∧ decided (clock t₀ l) (began n l) ttl_s c x = some (L, u)) <| by
      constructor
      · rintro ⟨⟨rfl, rfl⟩, hdec⟩
        exact ⟨ttl_s, rfl, hdec⟩
      · rintro ⟨ttl_s', hop, hdec⟩
        cases hop
        exact ⟨⟨rfl, rfl⟩, hdec⟩
  | ⟨_, .release _ _, _, _⟩ | ⟨_, .holder _, _, _⟩ | ⟨_, .mirror _, _, _⟩ | ⟨_, .advance _, _, _⟩
  | ⟨_, .setRedis _, _, _⟩ | ⟨_, .setBridge _, _, _⟩ => isFalse fun ⟨_, hop, _⟩ => by cases hop

instance (k h : String) (e : Event system) : Decidable (Frees k h e) :=
  inferInstanceAs (Decidable (e.op = .release k h ∧ undoes e.cmd e.resp = true))

instance decidableStanding (t₀ : Time) (n : Nat) (k h : String) (L : Level) (u : Time) :
    (l : List (Event system)) → Decidable (Standing t₀ n k h L u l)
  | [] => isFalse id
  | e :: l =>
    have := decidableStanding t₀ n k h L u l
    inferInstanceAs (Decidable (e.call = n ∧ Grants t₀ l k h L u e ∨ Standing t₀ n k h L u l ∧ ¬ Frees k h e))

/-- Call `n` has returned `True` from the claim. -/
def returnedTrue (c : Config system) (n : Nat) (k h : String) (ttl_s : Int) : Bool :=
  match c.proc n with
  | some ⟨.claim k' h' ttl_s', .ret (claimed : Bool)⟩ =>
    claimed && decide (k' = k) && decide (h' = h) && decide (ttl_s' = ttl_s)
  | _ => false

theorem returned_of_returnedTrue {c : Config system} {n : Nat} {k h : String} {ttl_s : Int}
    (hr : returnedTrue c n k h ttl_s = true) : c.Returned n (.claim k h ttl_s) true := by
  unfold returnedTrue at hr
  split at hr
  · rename_i claimed hp
    simp only [Bool.and_eq_true, decide_eq_true_eq] at hr
    obtain ⟨⟨⟨rfl, rfl⟩, rfl⟩, rfl⟩ := hr
    exact hp
  · cases hr

/-- `a` claims the slot in Redis; Redis goes down; `b` claims the slot in the Context Bridge. -/
def failover : List (Act system) :=
  solo system 0 (.claim "k" "a" 3600) 3 () ++ solo system 1 (.setRedis false) 1 () ++
    solo system 2 (.claim "k" "b" 3600) 4 ()

/-- Both hold it. -/
theorem two_holders : ¬ ∀ s, Exclusive (fun _ => Free) s := by
  intro hall
  have hplay : (play Free (.init State.fresh) failover).any (fun c =>
      (returnedTrue c 0 "k" "a" 3600 && returnedTrue c 2 "k" "b" 3600) &&
        (decide (Standing 0 0 "k" "a" .redis 3600 c.world.trace) &&
          decide (Standing 0 2 "k" "b" .bridge 3600 c.world.trace) &&
          decide (c.world.state.now < 3600))) = true := by
    decide +kernel
  obtain ⟨c, hrun, hc⟩ := exists_run_of_play hplay
  simp only [Bool.and_eq_true, decide_eq_true_eq] at hc
  obtain ⟨⟨ha, hb⟩, ⟨hstanda, hstandb⟩, hnow⟩ := hc
  have hsame := (hall State.fresh c hrun).sole 0 2 "k" "a" "b"
    ⟨⟨3600, returned_of_returnedTrue ha⟩, .redis, 3600, hstanda, hnow⟩
    ⟨⟨3600, returned_of_returnedTrue hb⟩, .bridge, 3600, hstandb, hnow⟩
  exact absurd hsame (by decide)

end Failover

end ClaudeSwarm.Cascade
