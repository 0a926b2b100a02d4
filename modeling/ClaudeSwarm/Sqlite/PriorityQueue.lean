import ClaudeSwarm.Data.First
import ClaudeSwarm.Sqlite.Protocol
import ClaudeSwarm.Sqlite.Solo

/-!
# An atomic priority queue

A claim that names no task selects and updates under the write lock that `BEGIN IMMEDIATE` took, so
the table it selected from is the committed one until it commits. `Next p t row` says which row it
has to take: a pending one that meets `p`, before all of these by priority and age.

* `Sees`: what such a claim finds when it selects and when it commits; `run_sees` says that it finds
  it in every run.
* **`atomic_queue`**: whoever else is active, what a claim returned was next when it committed, and a
  claim that returned nothing held the write lock on a table without a row for it.
-/

namespace ClaudeSwarm.Sqlite

open Interleave Data
open Python (Time PyError)

/-! ## What comes next -/

theorem Row.before_total (a b : Row) : a.before b ∨ b.before a := by
  unfold Row.before
  rcases lt_trichotomy a.priority b.priority with h | h | h
  · exact Or.inl (Or.inl h)
  · rcases le_total a.createdAt b.createdAt with ht | ht
    · exact Or.inl (Or.inr ⟨h, ht⟩)
    · exact Or.inr (Or.inr ⟨h.symm, ht⟩)
  · exact Or.inr (Or.inl h)

theorem Row.before_trans {a b c : Row} (h : a.before b) (h' : b.before c) : a.before c := by
  rcases h with h | ⟨h, ht⟩ <;> rcases h' with h' | ⟨h', ht'⟩
  · exact Or.inl (h.trans h')
  · exact Or.inl (h' ▸ h)
  · exact Or.inl (h ▸ h')
  · exact Or.inr ⟨h.trans h', ht.trans ht'⟩

instance : Std.Total Row.before := ⟨Row.before_total⟩

instance : IsTrans Row Row.before := ⟨fun _ _ _ => Row.before_trans⟩

theorem Row.before_refl (a : Row) : a.before a := (a.before_total a).elim (fun h => h) fun h => h

/-- `row` is pending in `t` and meets `p`, and comes before all such rows by priority and age. -/
abbrev Next (p : Row → Prop) (t : Tasks) : Row → Prop :=
  First Row.before (fun r => r.state = .pending ∧ p r) t.rows

/-- No row of `t` is pending and meets `p`. -/
def Nothing (p : Row → Prop) (t : Tasks) : Prop := ∀ r ∈ t.rows, r.state = .pending → ¬ p r

variable {p : Row → Prop} {t : Tasks} {row : Row}

theorem pairwise_inState (t : Tasks) (s : TaskState) : (inState t s).Pairwise Row.before :=
  List.pairwise_insertionSort Row.before _

/-- The first match in the order of the `SELECT`. -/
theorem next_of_inState {a b : List Row} (h : inState t .pending = a ++ row :: b)
    (ha : ∀ r ∈ a, ¬ p r) (hp : p row) : Next p t row := by
  have hs : (a ++ row :: b).Pairwise Row.before := h ▸ pairwise_inState t .pending
  have hfirst := First.of_append hs row.before_refl ha hp
  rw [← h] at hfirst
  obtain ⟨hmem, hst⟩ := mem_inState.mp hfirst.mem
  exact ⟨hmem, ⟨hst, hp⟩, fun r hr hpr => hfirst.le r (mem_inState.mpr ⟨hr, hpr.1⟩) hpr.2⟩

theorem nothing_of_inState (h : ∀ r ∈ inState t .pending, ¬ p r) : Nothing p t :=
  fun r hr hst => h r (mem_inState.mpr ⟨hr, hst⟩)

/-! ## Claims that name no task -/

/-- The call claims whatever comes next. -/
def Op.Unnamed : Op → Prop
  | .claim _ task_id => task_id.filter (· ≠ "") = none
  | .claimMatching _ _ => True
  | _ => False

/-- The rows the call may take. -/
def Op.Fits : Op → Row → Prop
  | .claimMatching capabilities _, r => ∀ req ∈ r.requires, req ∈ capabilities
  | _, _ => True

/-- The text of a row's requirements is not empty, and parses. -/
theorem loads_requiresText (r : Row) : r.requiresText ≠ "" ∧
    Json.loads r.requiresText = some (.arr (r.requires.map .str)) := by
  have hl : Json.loads r.requiresText = some (.arr (r.requires.map .str)) :=
    Json.loads_dumps_strings r.requires
  refine ⟨fun h => ?_, hl⟩
  have hempty : Json.loads "" = none := by decide
  rw [h, hempty] at hl
  cases hl

theorem requires_of_requiresText {r r' : Row} (h : r.requiresText = r'.requiresText) :
    r.requires = r'.requires := by
  have hl := (loads_requiresText r).2
  rw [h, (loads_requiresText r').2] at hl
  have hm : r'.requires.map Json.str = r.requires.map Json.str := by injection Option.some.inj hl
  exact (List.map_injective_iff.mpr (fun a b he => by cases he; rfl) hm).symm

/-- What `claim_matching` selects of a row. -/
def selected (r : Row) : String × String := (r.id, r.requiresText)

/-- The loop of `claim_matching` at a row of the table. -/
theorem claimFirst_selected (caps : List String) (claimer : String) (r : Row) (rows : List Row) :
    claimFirst caps claimer ((r :: rows).map selected) =
      if ∀ req ∈ r.requires, req ∈ caps then claimRow claimer r.id
      else claimFirst caps claimer (rows.map selected) := by
  obtain ⟨hne, hl⟩ := loads_requiresText r
  rw [List.map_cons, selected, claimFirst, if_neg hne, hl]
  simp only [List.all_map, List.all_eq_true, Function.comp_apply, List.contains_iff_mem]

/-! ## Under the write lock -/

/-- Connection `n` has the write transaction `t`, and `q` holds of the committed table and `t`. -/
def Holding (n : Nat) (q : Tasks → Txn → Prop) (w : World system) : Prop :=
  ∃ t, w.state.txn = some t ∧ t.owner = n ∧ q w.state.table t

/-- Connection `n` has the write lock and has written nothing. -/
def Begun (n : Nat) (q : Tasks → Prop) : World system → Prop :=
  Holding n fun table t => t.view = table ∧ t.done = [] ∧ q table

/-- The transaction of connection `n` that claims `id`, on top of `table`. -/
def claimTxn (n : Nat) (claimer : String) (now : Time) (id : String) (k : Nat) (table : Tasks) :
    Txn :=
  ⟨n, (Stmt.claim claimer now id).update table, [⟨n, .claim claimer now id, k⟩]⟩

/-- What a claim of the rows with `p` finds when connection `n` executes a command of it. -/
def Sees (p : Row → Prop) (n : Nat) (s : Db) : Cmd → Prop
  | .selectNextPending | .selectPendingRequires => s.txn = some ⟨n, s.table, []⟩
  | .commit => ∃ row claimer now k, Next p s.table row ∧
      s.txn = some (claimTxn n claimer now row.id k s.table)
  | _ => True

/-- The open transaction has every task of the committed table. -/
def Grown (s : Db) : Prop :=
  ∀ t, s.txn = some t → ∀ id, (s.table.find? id).isSome → (t.view.find? id).isSome

/-- The discipline: no task disappears, and a claim sees what it should. -/
def queueing : Discipline system where
  Guard := Free
  Inv w := Grown w.state
  Guar w e := e.op.Unnamed → Sees e.op.Fits e.call w.state e.cmd

/-- A statement removes no row. -/
theorem Stmt.run_isSome {st : Stmt} {t t' : Tasks} {k : Nat} (h : st.run t = some (k, t'))
    {id : String} (hid : (t.find? id).isSome) : (t'.find? id).isSome := by
  obtain ⟨r, hr⟩ := Option.isSome_iff_exists.mp hid
  cases st with
  | insert r' =>
    obtain ⟨t₁, hi, hk⟩ := Option.map_eq_some_iff.mp h
    cases hk
    rw [Table.find?_insert_of_some hi hr]
    rfl
  | _ =>
    cases h
    rw [Table.find?_update, hr]
    rfl

theorem grown_effect {n : Nat} {s s' : Db} {c : Cmd} (h : Grown s) (he : Effect n s c s') :
    Grown s' := by
  cases he with
  | same => exact h
  | begin_ ht =>
    intro t ht' id hid
    cases ht'
    exact hid
  | @write st t k view ht hr =>
    intro t' ht' id hid
    cases ht'
    refine Stmt.run_isSome hr ?_
    rcases ht with ⟨ht, -⟩ | ⟨-, rfl⟩
    · exact h t ht id hid
    · exact hid
  | commit ht ho => exact fun t ht' => by cases ht'
  | abandon => exact fun t ht' => by cases ht'

theorem grown_fires {w w' : World system} {e : Event system} (h : Grown w.state)
    (hf : Fires w e w') : Grown w'.state := by
  obtain ⟨i, hx⟩ := hf.1
  exact grown_effect h (effect_of_exec hx)

/-- What is committed stays in the log. -/
theorem mem_commits_effect {n : Nat} {s s' : Db} {c : Cmd} {cm : Commit} (h : cm ∈ s.commits)
    (he : Effect n s c s') : cm ∈ s'.commits := by
  cases he with
  | commit ht ho => exact List.mem_cons_of_mem _ h
  | _ => exact h

theorem lasting_committed {cm : Commit} : Lasting fun w : World system => cm ∈ w.state.commits := by
  intro w e w' hf h
  obtain ⟨i, hx⟩ := hf.1
  exact mem_commits_effect h (effect_of_exec hx)

/-- What another connection does to the database while `n` has the write lock: nothing. -/
theorem exec_holding {m : Nat} {i : Env} {s s' : Db} {c : Cmd} {x : Resp c} {t : Txn}
    (h : exec m i s c = some (x, s')) (ht : s.txn = some t) (ho : t.owner ≠ m) :
    s'.txn = some t ∧ s'.table = s.table := by
  have htxn := exec_txn_other h ht ho
  refine ⟨htxn, ?_⟩
  cases effect_of_exec h with
  | commit ht' ho' =>
    rw [ht] at ht'
    exact absurd (Option.some.inj ht' ▸ ho') ho
  | _ => rfl

theorem stable_holding {n : Nat} {q : Tasks → Txn → Prop} : Stable queueing n (Holding n q) := by
  intro w e w' hn _ _ _ hf _ ⟨t, ht, ho, hq⟩
  obtain ⟨i, hx⟩ := hf.1
  obtain ⟨ht', htable⟩ := exec_holding hx ht (ho ▸ hn.symm)
  exact ⟨t, ht', ho, htable ▸ hq⟩

theorem Begun.txn {n : Nat} {q : Tasks → Prop} {w : World system} (h : Begun n q w) :
    w.state.txn = some ⟨n, w.state.table, []⟩ ∧ q w.state.table := by
  obtain ⟨⟨owner, view, done⟩, ht, rfl, rfl, rfl, hq⟩ := h
  exact ⟨ht, hq⟩

theorem begun_of_txn {n : Nat} {q : Tasks → Prop} {w : World system}
    (h : w.state.txn = some ⟨n, w.state.table, []⟩) (hq : q w.state.table) : Begun n q w :=
  ⟨_, h, rfl, rfl, rfl, hq⟩

theorem Begun.view {n : Nat} {q : Tasks → Prop} {w : World system} (h : Begun n q w) :
    w.state.view n = w.state.table := by
  rw [Db.view, h.txn.1]
  exact if_pos rfl

/-! ## Outlines -/

section Outlines

variable {n : Nat} {o : Op} {A : World system → Prop}

/-- Call `n` committed a claim of `row`. -/
def Committed (n : Nat) (id : String) (w : World system) : Prop :=
  ∃ claimer now k t, (⟨n, [⟨n, .claim claimer now id, k⟩], t⟩ : Commit) ∈ w.state.commits

/-- Call `n` selected no row it may take. -/
def Selected (n : Nat) (o : Op) (w : World system) : Prop :=
  (⟨n, o, .selectNextPending, none⟩ : Event system) ∈ w.trace ∨
    ∃ rows : List Row, (∀ r ∈ rows, ¬ o.Fits r) ∧
      (⟨n, o, .selectPendingRequires, rows.map selected⟩ : Event system) ∈ w.trace

/-- What the answer of a claim goes back to. -/
def Answer (n : Nat) (o : Op) : Option Row → World system → Prop
  | some row => Committed n row.id
  | none => Selected n o

theorem lasting_answer (r : Option Row) : Lasting (Answer n o r) := by
  intro w e w' hf h
  cases r with
  | some row =>
    obtain ⟨claimer, now, k, t, hm⟩ := h
    exact ⟨claimer, now, k, t, lasting_committed _ _ _ hf hm⟩
  | none =>
    have hmem : ∀ e' : Event system, e' ∈ w.trace → e' ∈ w'.trace :=
      fun e' he => hf.2 ▸ List.mem_cons_of_mem e he
    rcases h with h | ⟨rows, hrows, h⟩
    · exact Or.inl (hmem _ h)
    · exact Or.inr ⟨rows, hrows, hmem _ h⟩

/-- A command of which only what lasts matters. -/
theorem establishes_lasting {P : World system → Prop} {c : Cmd} (hP : Lasting P)
    (hc : ∀ s, Sees o.Fits n s c) : Establishes queueing n o P c fun _ => P :=
  fun w _ _ hi hw _ hf => ⟨fun _ => hc w.state, grown_fires hi hf, hP _ _ _ hf hw⟩

/-- Commands that any call may execute at any time, so far as claims are concerned. -/
def Blind : Cmd → Prop
  | .selectNextPending | .selectPendingRequires | .commit => False
  | _ => True

theorem Blind.sees {c : Cmd} {s : Db} (h : Blind c) : Sees p n s c := by
  cases c <;> trivial

/-- A program without a claim's commands keeps what lasts. -/
theorem outline_blind {α : Type} {q : P α} {L : World system → Prop} (hL : Lasting L)
    (h : q.Each Blind) : Outline queueing n o (fun _ => L) q L :=
  outline_of_each hL.stable (fun _ hc => establishes_lasting hL fun _ => Blind.sees hc) h

/-- `close` keeps the answer. -/
theorem outline_closing_answer {q : P (Option Row)}
    (h : Outline queueing n o (Outcome (Answer n o) fun _ _ => True) q A) :
    Outline queueing n o (Outcome (Answer n o) fun _ _ => True) (closing q) A := by
  refine outline_finally (fun r => ?_) h
  have hclose : (cmd .close).Each Blind := ⟨trivial, fun _ => trivial⟩
  cases r with
  | ok r =>
    exact outline_mono (fun _ _ h => h) (fun x _ _ h => by cases x <;> first | exact h | trivial)
      (outline_blind (lasting_answer r) hclose)
  | error e =>
    exact outline_mono (fun _ _ h => h) (fun x _ _ _ => by cases x <;> trivial)
      (outline_blind (L := fun _ => True) lasting_pure hclose)

/-- A read under the write lock. -/
theorem establishes_begun {q : Tasks → Prop} {c : Cmd} {q' : Resp c → Tasks → Prop}
    (hc : ∀ i s, s.view n = s.table → q s.table →
      ∃ x, exec n i s c = some (x, s) ∧ q' x s.table)
    (hsees : ∀ s : Db, s.txn = some ⟨n, s.table, []⟩ → Sees o.Fits n s c) :
    Establishes queueing n o (Begun n q) c fun x => Begun n (q' x) := by
  intro w x w' hi hw _ hf
  obtain ⟨ht, hq⟩ := hw.txn
  refine ⟨fun _ => hsees _ ht, grown_fires hi hf, ?_⟩
  obtain ⟨i, hx⟩ := hf.1
  obtain ⟨y, hy, hq'⟩ := hc i w.state hw.view hq
  obtain ⟨rfl, hs⟩ := Prod.mk.inj (Option.some.inj (hx.symm.trans hy))
  rw [← hs] at ht hq'
  exact begun_of_txn ht hq'

/-- What the claiming `UPDATE` leaves. -/
theorem establishes_claim {q : Tasks → Prop} {claimer id : String} {now : Time} :
    Establishes queueing n o (Begun n q) (.execute (.claim claimer now id)) fun x w =>
      ∃ k, x = .ok k ∧ Holding n (fun table t => q table ∧ t = claimTxn n claimer now id k table) w := by
  intro w x w' hi hw _ hf
  refine ⟨fun _ => trivial, grown_fires hi hf, ?_⟩
  obtain ⟨ht, hq⟩ := hw.txn
  obtain ⟨i, hx⟩ := hf.1
  simp only [exec, ht, if_true, Option.some.injEq, Prod.mk.injEq] at hx
  obtain ⟨hx, hs⟩ := hx
  exact ⟨_, hx.symm, _, by rw [← hs], rfl, by rw [← hs]; exact hq, by rw [← hs]; rfl⟩

/-- Task `id` is in the committed table. -/
def Known (id : String) (w : World system) : Prop := (w.state.table.find? id).isSome

theorem known_effect {m : Nat} {s s' : Db} {c : Cmd} {id : String} (hg : Grown s)
    (h : (s.table.find? id).isSome) (he : Effect m s c s') : (s'.table.find? id).isSome := by
  cases he with
  | commit ht ho => exact hg _ ht id h
  | _ => exact h

theorem stable_known {id : String} : Stable queueing n (Known id) := by
  intro w e w' _ hi _ _ hf _ h
  obtain ⟨i, hx⟩ := hf.1
  exact known_effect hi h (effect_of_exec hx)

theorem Known.view {id : String} {w : World system} (h : Known id w) (hg : Grown w.state) :
    ((w.state.view n).find? id).isSome := by
  unfold Db.view
  split
  · rename_i t ht
    split
    · exact hg t ht id h
    · exact h
  · exact h

/-- The commit of a claim of the next row. -/
theorem establishes_commit {claimer id : String} {now : Time} {k : Nat} :
    Establishes queueing n o
      (Holding n fun table t => (∃ row, Next o.Fits table row ∧ row.id = id) ∧
        t = claimTxn n claimer now id k table) .commit
      fun _ w => Committed n id w ∧ Known id w := by
  intro w x w' hi ⟨t, ht, ho, ⟨row, hnext, hid⟩, htxn⟩ _ hf
  subst hid htxn
  refine ⟨fun _ => ⟨row, claimer, now, k, hnext, ht⟩, grown_fires hi hf, ?_⟩
  have hknown := hi _ ht row.id
  obtain ⟨i, hx⟩ := hf.1
  simp only [exec, ht, claimTxn, if_true, Option.some.injEq, Prod.mk.injEq] at hx
  obtain ⟨-, hs⟩ := hx
  refine ⟨⟨claimer, now, k, (Stmt.claim claimer now row.id).update w.state.table, ?_⟩, ?_⟩
  · rw [← hs]
    exact List.mem_cons_self
  · rw [Known, ← hs]
    refine hknown ?_
    rw [Table.find?_of_mem hnext.mem]
    rfl

/-- The common end of both claims. -/
theorem claimRow_answer {claimer id : String} :
    Outline queueing n o (Outcome (Answer n o) fun _ _ => True) (claimRow claimer id)
      (Begun n fun t => ∃ row, Next o.Fits t row ∧ row.id = id) := by
  refine outline_cmd (fun _ => Begun n fun t => ∃ row, Next o.Fits t row ∧ row.id = id)
    (fun _ => stable_holding)
    (establishes_begun (c := .now) (fun i s _ hq => ⟨i.now, rfl, hq⟩) fun _ _ => trivial)
    fun now => ?_
  refine outline_cmd _ (fun x => ?_) establishes_claim fun x => ?_
  · intro w e w' hn hi hg hr hf hi' ⟨k, hx, h⟩
    exact ⟨k, hx, stable_holding w e w' hn hi hg hr hf hi' h⟩
  cases x with
  | error e =>
    refine outline_pre (P := fun _ => False) (fun w _ hw => ?_) outline_false
    obtain ⟨k, hk, -⟩ := hw
    cases hk
  | ok k =>
    have hcommit : Outline queueing n o (Outcome (Answer n o) fun _ _ => True)
        (cmd .commit >>= fun _ => get id)
        (Holding n fun table t => (∃ row, Next o.Fits table row ∧ row.id = id) ∧
          t = claimTxn n claimer now id k table) := by
      refine outline_cmd _ (fun _ => stable_and ?_ stable_known) establishes_commit fun _ => ?_
      · intro w e w' _ _ _ _ hf _ h
        obtain ⟨claimer, now, k, t, hm⟩ := h
        exact ⟨claimer, now, k, t, lasting_committed _ _ _ hf hm⟩
      refine outline_op (Answer n o) (fun x => (lasting_answer x).stable) ?_ fun x w _ h => h
      intro w x w' hi ⟨hc, hk⟩ _ hf
      refine ⟨fun _ => trivial, grown_fires hi hf, ?_⟩
      have hsome := hk.view (n := n) hi
      obtain ⟨i, hx⟩ := hf.1
      obtain ⟨hx, hs⟩ := Prod.mk.inj (Option.some.inj hx)
      obtain ⟨row, hrow⟩ := Option.isSome_iff_exists.mp hsome
      have hxrow : x = some row := hx.symm.trans hrow
      have hid : row.id = id := Table.find?_key hrow
      subst hxrow
      obtain ⟨claimer, now, k, t, hm⟩ := hc
      exact ⟨claimer, now, k, t, by rw [← hs, hid]; exact hm⟩
    refine outline_pre (fun w _ hw => ?_) hcommit
    obtain ⟨k', hk, h⟩ := hw
    cases hk
    exact h

/-- The start of both claims. -/
theorem establishes_begin_immediate :
    Establishes queueing n o A .beginImmediate fun x w => x = true → Begun n (fun _ => True) w := by
  intro w x w' hi _ _ hf
  refine ⟨fun _ => trivial, grown_fires hi hf, fun hlock => ?_⟩
  obtain ⟨i, hx⟩ := hf.1
  simp only [exec] at hx
  split at hx
  · obtain ⟨-, hs⟩ := Prod.mk.inj (Option.some.inj hx)
    exact begun_of_txn (by rw [← hs]) trivial
  · split at hx
    · obtain ⟨hr, -⟩ := Prod.mk.inj (Option.some.inj hx)
      exact absurd (hr.trans hlock) Bool.false_ne_true
    · cases hx

theorem stable_begun {q : Tasks → Prop} {b : Bool} :
    Stable queueing n fun w => b = true → Begun n q w :=
  fun w e w' hn hi hg hr hf hi' h hb => stable_holding w e w' hn hi hg hr hf hi' (h hb)

theorem rollbackRaise_answer {e : PyError} :
    Outline queueing n o (Outcome (Answer n o) fun _ _ => True) (rollbackRaise e) A :=
  outline_mono (fun _ _ _ => trivial) (fun _ _ _ h => h)
    (outline_op (Q := Outcome (Answer n o) fun _ _ => True) (P := fun _ => True)
      (fun _ _ => True) (fun _ => stable_true)
      (establishes_lasting lasting_pure fun _ => trivial) fun _ _ _ _ => trivial)

/-- `claim` without an id. -/
theorem claim_answer {claimer : String} {task_id : Option String}
    (hid : task_id.filter (· ≠ "") = none) :
    Outline queueing n (.claim claimer task_id)
      (Outcome (Answer n (.claim claimer task_id)) fun _ _ => True) (claim claimer task_id) A := by
  refine outline_closing_answer
    (outline_cmd _ (fun _ => stable_begun) establishes_begin_immediate fun x => ?_)
  cases x with
  | false => exact rollbackRaise_answer
  | true =>
    refine outline_pre (fun w _ h => h rfl) ?_
    rw [selectClaimable, hid]
    refine outline_cmd (M := system) (c := Cmd.selectNextPending) (fun (x : Option String) w =>
      x.elim (Selected n (.claim claimer task_id) w) fun id => Begun n (fun t => ∃ row,
        Next (Op.claim claimer task_id).Fits t row ∧ row.id = id) w) (fun x => ?_) ?_ fun x => ?_
    · cases x with
      | none => exact (lasting_answer none).stable
      | some id =>
        simp only [Option.elim_some]
        exact stable_holding
    · intro w x w' hi hw _ hf
      obtain ⟨ht, -⟩ := hw.txn
      refine ⟨fun _ => ht, grown_fires hi hf, ?_⟩
      have hview := hw.view
      obtain ⟨i, hx⟩ := hf.1
      obtain ⟨hx, hs⟩ := Prod.mk.inj (Option.some.inj hx)
      cases x with
      | none => exact Or.inl (hf.2 ▸ List.mem_cons_self)
      | some id =>
        rw [hview] at hx
        obtain ⟨row, hrow, hid⟩ := Option.map_eq_some_iff.mp hx
        obtain ⟨rows, hrows⟩ := List.head?_eq_some_iff.mp hrow
        have hnext : Next (Op.claim claimer task_id).Fits w.state.table row :=
          next_of_inState (a := []) hrows (fun r hr => absurd hr List.not_mem_nil) trivial
        rw [hs] at ht hnext
        exact begun_of_txn ht ⟨row, hnext, hid⟩
    · cases x with
      | none =>
        exact outline_op (fun _ => Selected n (.claim claimer task_id))
          (fun _ => (lasting_answer none).stable)
          (establishes_lasting (lasting_answer none) fun _ => trivial) fun _ _ _ h => h
      | some id => exact claimRow_answer

/-- The loop of `claim_matching` over the rows that are left, none of the rows `a` before them
matching. -/
theorem claimFirst_answer {caps : List String} {claimer : String} :
    ∀ (rows a : List Row), (∀ r ∈ a, ¬ (Op.claimMatching caps claimer).Fits r) →
      Outline queueing n (.claimMatching caps claimer)
        (Outcome (Answer n (.claimMatching caps claimer)) fun _ _ => True)
        (claimFirst caps claimer (rows.map selected))
        (fun w => Begun n (fun t => inState t .pending = a ++ rows) w ∧
          (⟨n, .claimMatching caps claimer, .selectPendingRequires, (a ++ rows).map selected⟩ :
            Event system) ∈ w.trace)
  | [], a, ha => by
    have hsel : Lasting (Selected n (.claimMatching caps claimer)) := lasting_answer none
    refine outline_pre (P := Selected n (.claimMatching caps claimer)) (fun w _ hw => ?_)
      (outline_op (fun _ => Selected n (.claimMatching caps claimer)) (fun _ => hsel.stable)
        (establishes_lasting hsel fun _ => trivial) fun _ _ _ h => h)
    rw [List.append_nil] at hw
    exact Or.inr ⟨a, ha, hw.2⟩
  | r :: rows, a, ha => by
    rw [claimFirst_selected]
    by_cases hr : ∀ req ∈ r.requires, req ∈ caps
    · rw [if_pos hr]
      refine outline_pre (fun w _ hw => ?_) claimRow_answer
      obtain ⟨ht, hrows⟩ := hw.1.txn
      exact begun_of_txn ht ⟨r, next_of_inState hrows ha hr, rfl⟩
    · rw [if_neg hr]
      have ha' : ∀ r' ∈ a ++ [r], ¬ (Op.claimMatching caps claimer).Fits r' := by
        intro r' hr'
        rcases List.mem_append.mp hr' with hr' | hr'
        · exact ha r' hr'
        · rw [List.mem_singleton.mp hr']
          exact hr
      have ih := claimFirst_answer rows (a ++ [r]) ha'
      rwa [List.append_assoc, List.singleton_append] at ih

/-- `claim_matching`. -/
theorem claimMatching_answer {caps : List String} {claimer : String} :
    Outline queueing n (.claimMatching caps claimer)
      (Outcome (Answer n (.claimMatching caps claimer)) fun _ _ => True)
      (claimMatching caps claimer) A := by
  refine outline_closing_answer
    (outline_cmd _ (fun _ => stable_begun) establishes_begin_immediate fun x => ?_)
  cases x with
  | false => exact rollbackRaise_answer
  | true =>
    refine outline_pre (fun w _ h => h rfl) ?_
    refine outline_cmd (M := system) (c := Cmd.selectPendingRequires) (fun (x : List (String × String)) w =>
      ∃ rows : List Row, Begun n (fun t => x = rows.map selected ∧ inState t .pending = rows) w ∧
        (⟨n, .claimMatching caps claimer, .selectPendingRequires, x⟩ : Event system) ∈ w.trace)
      (fun x => ?_) ?_ fun x => ?_
    · intro w e w' hn hi hg hr hf hi' ⟨rows, h, hmem⟩
      exact ⟨rows, stable_holding w e w' hn hi hg hr hf hi' h, hf.2 ▸ List.mem_cons_of_mem e hmem⟩
    · intro w x w' hi hw _ hf
      obtain ⟨ht, -⟩ := hw.txn
      refine ⟨fun _ => ht, grown_fires hi hf, inState w.state.table .pending, ?_,
        hf.2 ▸ List.mem_cons_self⟩
      have hview := hw.view
      obtain ⟨i, hx⟩ := hf.1
      obtain ⟨hx, hs⟩ := Prod.mk.inj (Option.some.inj hx)
      rw [hview] at hx
      refine begun_of_txn (by rw [← hs]; exact ht) ⟨hx.symm, by rw [← hs]⟩
    · refine outline_exists fun rows => ?_
      by_cases hx : x = rows.map selected
      · subst hx
        refine outline_pre (fun w _ hw => ?_) (claimFirst_answer rows [] (by simp))
        obtain ⟨ht, -, hrows⟩ := hw.1.txn
        exact ⟨begun_of_txn ht hrows, hw.2⟩
      · exact outline_pre (P := fun _ => False) (fun w _ hw => hx hw.1.txn.2.1) outline_false

end Outlines

/-! ## Runs -/

/-- What an ended call answers for: a claim that names no task for its answer. -/
def Post (n : Nat) : (o : Op) → Except PyError (Ret o) → World system → Prop
  | .claim claimer task_id, r => fun w => task_id.filter (· ≠ "") = none →
    Outcome (Answer n (.claim claimer task_id)) (fun _ _ => True) r w
  | .claimMatching caps claimer, r =>
    Outcome (Answer n (.claimMatching caps claimer)) (fun _ _ => True) r
  | _, _ => fun _ => True

/-- Calls that do not claim what comes next have nothing to answer for. -/
theorem outline_named {n : Nat} {o : Op} {A : World system → Prop} (ho : ¬ o.Unnamed) :
    Outline queueing n o (fun _ _ => True) (prog o) A :=
  outline_pre (fun _ _ _ => trivial) (outline_of_each stable_true
    (fun _ _ _ _ _ hi _ _ hf => ⟨fun h => absurd h ho, grown_fires hi hf, trivial⟩)
    (Prog.each_true (prog o)))

theorem prog_answer (n : Nat) (o : Op) {A : World system → Prop} :
    Outline queueing n o (Post n o) (prog o) A := by
  cases o with
  | claim claimer task_id =>
    by_cases hid : task_id.filter (· ≠ "") = none
    · exact outline_mono (fun _ _ h => h) (fun _ _ _ h _ => h) (claim_answer hid)
    · exact outline_mono (fun _ _ h => h) (fun _ _ _ _ h => absurd h hid)
        (outline_named (o := .claim claimer task_id) hid)
  | claimMatching caps claimer => exact claimMatching_answer
  | _ => exact outline_mono (fun _ _ h => h) (fun _ _ _ _ => trivial) (outline_named fun h => h)

variable {c : Config system}

/-- A claim finds what it should see. -/
def Seeing : Guard system := fun w n o cmd => o.Unnamed → Sees o.Fits n w.state cmd

/-- **A claim sees the committed table**, in every run. -/
theorem run_sees (h : Run Free (opened t) c) :
    Run (fun w n o cmd => Free (M := system) w n o cmd ∧ Seeing w n o cmd) (opened t) c :=
  run_obeys (M := system) (D := queueing) (K := Seeing)
    (fun _ _ h => h) (fun n o => prog_answer n o) (fun _ h => by cases h) h

/-- What the answer of call `n`, running `o`, says about the way from `opened t` to `c`. If it is a
row, the call came to commit the claim of a task that was next in the table it committed to; if it is
`none`, the call came to hold the write lock on a table without a row for it. -/
def Justified (t : Tasks) (c : Config system) (n : Nat) (o : Op) : Option Row → Prop
  | some r => ∃ c₁ code row claimer now k, Run Free (opened t) c₁ ∧ Run Free c₁ c ∧
      c₁.proc n = some ⟨o, .op Cmd.commit code⟩ ∧ row.id = r.id ∧
      Next o.Fits c₁.world.state.table row ∧
      c₁.world.state.txn = some (claimTxn n claimer now row.id k c₁.world.state.table)
  | none => ∃ c₁ cmd code, Run Free (opened t) c₁ ∧ Run Free c₁ c ∧
      c₁.proc n = some ⟨o, .op cmd code⟩ ∧
      c₁.world.state.txn = some ⟨n, c₁.world.state.table, []⟩ ∧
      Nothing o.Fits c₁.world.state.table

/-- The commit that put a claim into the log. -/
theorem justified_of_committed {n : Nat} {o : Op} {r : Row} {p : P (Ret o)}
    (h : Run Free (opened t) c) (ho : o.Unnamed) (hn : c.proc n = some ⟨o, p⟩)
    (hr : Committed n r.id c.world) : Justified t c n o (some r) := by
  obtain ⟨claimer, now, k, t', hm⟩ := hr
  obtain ⟨c₁, ⟨m, o', cmd, x⟩, hturn⟩ := exists_turn (M := system)
    (R := fun w => (⟨n, [⟨n, .claim claimer now r.id, k⟩], t'⟩ : Commit) ∈ w.state.commits)
    (run_sees h) List.not_mem_nil hm
  obtain ⟨w', hf, hno, hyes⟩ := hturn.turns
  obtain ⟨code, hcode⟩ := hturn.ready
  obtain ⟨i, hx⟩ := hf.1
  have hsees := hturn.guard.2
  have he := effect_of_exec hx
  generalize w'.state = s' at he hyes
  simp only at hcode hsees he
  cases he with
  | @commit tx ht htx =>
    have hcm := (List.mem_cons.mp hyes).resolve_right hno
    obtain ⟨rfl, hdone, -⟩ := Commit.mk.inj hcm
    obtain ⟨p', hp'⟩ := hturn.after.op_of_proc hcode
    rw [hn] at hp'
    cases hp'
    obtain ⟨row, claimer', now', k', hnext, htx'⟩ := hsees ho
    have hrow : row.id = r.id := by
      rw [ht] at htx'
      rw [Option.some.inj htx'] at hdone
      have hst := (Entry.mk.inj (List.cons.inj hdone).1).2.1
      exact (Stmt.claim.inj hst).2.2.symm
    exact ⟨c₁, code, row, claimer', now', k', hturn.before.mono fun _ _ _ _ h => h.1,
      hturn.after.mono fun _ _ _ _ h => h.1, hcode, hrow, hnext, htx'⟩
  | _ => exact absurd hyes hno

/-- The `SELECT` that found nothing. -/
theorem justified_of_selected {n : Nat} {o : Op} (h : Run Free (opened t) c) (ho : o.Unnamed)
    (hr : Selected n o c.world) : Justified t c n o none := by
  rcases hr with hr | ⟨rows, hrows, hr⟩
  · obtain ⟨c₁, hturn⟩ := exists_turn_of_mem (M := system) (run_sees h) hr
    obtain ⟨w', hf, -⟩ := hturn.turns
    obtain ⟨code, hcode⟩ := hturn.ready
    obtain ⟨i, hx⟩ := hf.1
    have ht := hturn.guard.2 ho
    refine ⟨c₁, _, code, hturn.before.mono fun _ _ _ _ h => h.1,
      hturn.after.mono fun _ _ _ _ h => h.1, hcode, ht, nothing_of_inState fun r hmem => ?_⟩
    obtain ⟨hx, -⟩ := Prod.mk.inj (Option.some.inj hx)
    have hview : c₁.world.state.view n = c₁.world.state.table := Db.view_of_txn ht
    rw [hview, Option.map_eq_none_iff, List.head?_eq_none_iff] at hx
    rw [hx] at hmem
    exact absurd hmem List.not_mem_nil
  · obtain ⟨c₁, hturn⟩ := exists_turn_of_mem (M := system) (run_sees h) hr
    obtain ⟨w', hf, -⟩ := hturn.turns
    obtain ⟨code, hcode⟩ := hturn.ready
    obtain ⟨i, hx⟩ := hf.1
    have ht := hturn.guard.2 ho
    refine ⟨c₁, _, code, hturn.before.mono fun _ _ _ _ h => h.1,
      hturn.after.mono fun _ _ _ _ h => h.1, hcode, ht, nothing_of_inState fun r hmem hfits => ?_⟩
    obtain ⟨hx, -⟩ := Prod.mk.inj (Option.some.inj hx)
    have hview : c₁.world.state.view n = c₁.world.state.table := Db.view_of_txn ht
    rw [hview] at hx
    have hsel : selected r ∈ rows.map selected := by
      rw [← show _ = rows.map selected from hx]
      exact List.mem_map_of_mem hmem
    obtain ⟨r', hr', he⟩ := List.mem_map.mp hsel
    have hreq := requires_of_requiresText (Prod.mk.inj he).2
    refine hrows r' hr' ?_
    cases o with
    | claimMatching caps claimer => exact fun req hq => hfits req (hreq ▸ hq)
    | _ => trivial

/-- **An atomic priority queue.** In every run, whatever a claim that names no task returned is
justified. -/
theorem atomic_queue (h : Run Free (opened t) c) :
    (∀ n claimer task_id r, task_id.filter (· ≠ "") = none →
      c.Returned n (.claim claimer task_id) r → Justified t c n (.claim claimer task_id) r) ∧
    ∀ n caps claimer r, c.Returned n (.claimMatching caps claimer) r →
      Justified t c n (.claimMatching caps claimer) r := by
  have hs := run_sound (M := system) (D := queueing) (fun n o => prog_answer n o)
    (fun _ h => by cases h) h
  refine ⟨fun n claimer task_id r hid hr => ?_, fun n caps claimer r hr => ?_⟩
  · have ha : Answer n (.claim claimer task_id) r c.world := hs.returned hr hid
    cases r with
    | some row => exact justified_of_committed h hid hr ha
    | none => exact justified_of_selected h hid ha
  · have ha : Answer n (.claimMatching caps claimer) r c.world := hs.returned hr
    cases r with
    | some row => exact justified_of_committed h trivial hr ha
    | none => exact justified_of_selected h trivial ha

/-- A GPU task, and a later one of a lower priority that needs nothing. -/
def twoTasks : Tasks :=
  ⟨[{ id := "a", title := "a", priority := 0, requires := ["gpu"] },
    { id := "b", title := "b", priority := 5, createdAt := 1 }], by decide⟩

/-- `x` takes what it can while `y` claims `a` by its id; then `z` finds nothing left. -/
def threeClaims : List (Act system) :=
  [.start 0 (.claimMatching ["cpu"] "x"), .start 1 (.claim "y" (some "a"))] ++
    List.replicate 7 (.step 0 ⟨2, "u", "h", false⟩) ++
    List.replicate 7 (.step 1 ⟨3, "u", "h", false⟩) ++
    solo system 2 (.claim "z" none) 4 ⟨4, "u", "h", false⟩

/-- `x` was given `b`, and `z` nothing. -/
def xGotB (c : Config system) : Bool :=
  match c.proc 0, c.proc 2 with
  | some ⟨.claimMatching caps _, .ret (some r)⟩, some ⟨.claim _ task_id, .ret none⟩ =>
    caps = ["cpu"] ∧ r.id = "b" ∧ task_id = none
  | _, _ => false

theorem atomic_queue_threeClaims : ∃ c claimer claimer' r, Run Free (opened twoTasks) c ∧
    r.id = "b" ∧ Justified twoTasks c 0 (.claimMatching ["cpu"] claimer) (some r) ∧
    Justified twoTasks c 2 (.claim claimer' none) none := by
  have hplay : (play Free (opened twoTasks) threeClaims).any xGotB = true := by decide +kernel
  obtain ⟨c, hrun, hc⟩ := exists_run_of_play hplay
  unfold xGotB at hc
  split at hc
  · rename_i h₀ h₂
    obtain ⟨rfl, hr, rfl⟩ := of_decide_eq_true hc
    obtain ⟨hclaim, hmatching⟩ := atomic_queue hrun
    exact ⟨c, _, _, _, hrun, hr, hmatching _ _ _ _ h₀, hclaim _ _ _ _ rfl h₂⟩
  · cases hc

end ClaudeSwarm.Sqlite
