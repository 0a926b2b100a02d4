import ClaudeSwarm.Cascade.Sqlite
import ClaudeSwarm.Interleave.History
import ClaudeSwarm.Interleave.Outline

/-!
# Slots claimed over SQLite

Any number of connections claim, release and look up slots, statement by statement. Each operation decides on the
row its `SELECT` read, in autocommit, and writes blindly; between the two another connection may have committed.

The history of the database is the list of the writes that were committed (`committed`). A claim is `InForce` from
its commit until its time is up, unless its holder releases the slot or cuts the claim short by another one.

* `outline_slotProg`: an operation writes once, as it has decided on what it read (`Obeys`).
* `tied_of_fires`: if that is still the row (`Current`), what waits to be committed is `Justified` by the table.
* `rows_of_fires`: a claim in the history whose time is not up is in the table.
* **`one_holder_of_current`**: then no two holders have the slot.
* `both_claimed`: otherwise they may, when both find it free.
-/

namespace ClaudeSwarm.Cascade.Sqlite

open Interleave Data
open Python (Time truncate)

/-- A call on the slots, or the passing of time. -/
inductive SlotOp where
  | claim (key holder : String) (ttl_s : Int)
  | release (key holder : String)
  | holder (key : String)
  | advance (t : Time)
  deriving DecidableEq

/-- What a call returns. -/
abbrev SlotOp.Ret : SlotOp → Type
  | .claim .. | .release .. => Bool
  | .holder _ => Option String
  | .advance _ => Unit

/-- The program of a call. -/
def slotProg : (o : SlotOp) → P o.Ret
  | .claim key holder ttl_s => slotClaim key holder ttl_s
  | .release key holder => slotRelease key holder
  | .holder key => slotHolder key
  | .advance t => cmd (.advance t)

/-- Any number of connections to one database. -/
abbrev slots (real : String → Option String) : System := ⟨sig, store real, Exc, SlotOp, SlotOp.Ret, slotProg⟩

variable {real : String → Option String}

/-! ## The history -/

/-- A write of a slot that was not refused. -/
def wrote : Event (slots real) → Bool
  | ⟨_, _, .insertSlot .., .ok _⟩ | ⟨_, _, .deleteSlot _, .ok _⟩ => true
  | _ => false

/-- The end of a transaction. -/
def ends : Cmd → Bool
  | .commit | .rollback => true
  | _ => false

/-- What a connection with these events has written and not committed. -/
def uncommitted : List (Event (slots real)) → Option (Event (slots real))
  | [] => none
  | e :: l => if ends e.cmd then none else if wrote e then some e else uncommitted l

/-- What call `n` has written and not committed. -/
def pending (n : Nat) (l : List (Event (slots real))) : Option (Event (slots real)) :=
  uncommitted (l.filter fun e => e.call == n)

/-- A commit. -/
def commits : Cmd → Bool
  | .commit => true
  | _ => false

/-- The writes that were committed, the last one first. -/
def committed : List (Event (slots real)) → List (Event (slots real))
  | [] => []
  | e :: l => if commits e.cmd then (pending e.call l).toList ++ committed l else committed l

/-- Call `n` claims the slot `k.1` with the row `k.2`. -/
def Claims (n : Nat) (e : Event (slots real)) (k : String × Slot) : Prop := e.call = n ∧ e.cmd = .insertSlot k.1 k.2

/-- The holder of the claim releases the slot, or cuts the claim short. -/
def Undoes (e : Event (slots real)) (k : String × Slot) : Prop :=
  e.op = .release k.1 k.2.holder ∧ e.cmd = .deleteSlot k.1 ∨
    ∃ slot, e.cmd = .insertSlot k.1 slot ∧ slot.holder = k.2.holder ∧ slot.ttlExpires < k.2.ttlExpires

/-- The claim of call `n` is committed, its time is not up, and its holder has not undone it. -/
def InForce (n : Nat) (key : String) (slot : Slot) (w : World (slots real)) : Prop :=
  Held (Claims n) Undoes (key, slot) (committed w.trace) ∧ truncate w.state.now < slot.ttlExpires

/-- What call `n` last read of its slot. -/
def lastRead (n : Nat) (l : List (Event (slots real))) : Option (Option Slot) :=
  (l.filter fun e => e.call == n).findSome? fun e => match e with
    | ⟨_, _, .selectSlot _, r⟩ => some r
    | _ => none

/-- A write that gets the lock finds the row that its call has read. -/
def Current : Guard (slots real) := fun w n _ c =>
  match c with
  | .insertSlot key _ | .deleteSlot key =>
    w.state.db.txn = none → lastRead n w.trace = some (w.state.db.committed.slots key)
  | _ => True

/-- A call decides to write a slot on which it has read `read`. -/
def Decides (now : Time) (read : Option Slot) : SlotOp → Cmd → Prop
  | o, .insertSlot key slot => (∃ ttl_s, o = .claim key slot.holder ttl_s) ∧
      ∀ row, read = some row → row.ttlExpires ≤ truncate now ∨ row.holder = slot.holder
  | o, .deleteSlot key => ∃ row, read = some row ∧
      (o = .release key row.holder ∨ o = .holder key ∧ row.ttlExpires ≤ truncate now)
  | _, _ => False

/-- The slot a command writes. -/
def Cmd.slot : Cmd → Option String
  | .insertSlot key _ | .deleteSlot key => some key
  | _ => none

/-- What the programs guarantee: a write is the first of its call, which has decided it on what it read. -/
def Obeys : Guard (slots real) := fun w n o c =>
  match c with
  | .insertSlot .. | .deleteSlot _ => pending n w.trace = none ∧
      ∃ read, lastRead n w.trace = some read ∧ Decides w.state.now read o c
  | .deleteByState .. | .insertTask .. | .insertByState .. => False
  | _ => True

/-- What the property says: a claim that returned `True` was committed; and what is about to be committed takes no
slot from a claim in force, `slot_holder` deleting only what has expired. -/
structure Exclusive (c : Config (slots real)) : Prop where
  granted : ∀ n key holder ttl_s, c.Returned n (.claim key holder ttl_s) true → ∃ t slot,
    t ≤ c.world.state.now ∧ slot = ⟨holder, truncate t + ttl_s⟩ ∧ ∃ e ∈ committed c.world.trace, Claims n e (key, slot)
  one : ∀ n n' key slot slot', InForce n key slot c.world → InForce n' key slot' c.world → slot.holder = slot'.holder
  claims : ∀ m e n key slot slot', pending m c.world.trace = some e → e.cmd = .insertSlot key slot' →
    InForce n key slot c.world → slot.holder = slot'.holder
  releases : ∀ m e n key slot holder, pending m c.world.trace = some e → e.op = .release key holder →
    InForce n key slot c.world → slot.holder = holder
  drops : ∀ m e key row, pending m c.world.trace = some e → e.op = .holder key →
    c.world.state.db.committed.slots key = some row → row.ttlExpires ≤ truncate c.world.state.now

/-! ## Lists of events -/

variable {w w' : World (slots real)} {e : Event (slots real)} {l : List (Event (slots real))} {n m : Nat}
  {key : String} {slot : Slot}

theorem pending_own : pending e.call (e :: l) =
    if ends e.cmd then none else if wrote e then some e else pending e.call l := by
  rw [pending, List.filter_cons_of_pos (by simp)]
  rfl

theorem pending_other (h : e.call ≠ n) : pending n (e :: l) = pending n l := by
  rw [pending, List.filter_cons_of_neg (by simpa using h)]
  rfl

/-- An event that writes nothing and ends nothing. -/
theorem pending_same (hends : ends e.cmd = false) (hwrote : wrote e = false) : pending n (e :: l) = pending n l := by
  by_cases h : e.call = n
  · subst h
    rw [pending_own, hends, hwrote]
    rfl
  · exact pending_other h

theorem committed_of_ne (h : commits e.cmd = false) : committed (e :: l) = committed l := by
  rw [committed, h]
  rfl

theorem committed_of_commit (h : commits e.cmd = true) :
    committed (e :: l) = (pending e.call l).toList ++ committed l := by
  rw [committed, if_pos h]

theorem mem_committed_cons {e' : Event (slots real)} (h : e' ∈ committed l) : e' ∈ committed (e :: l) := by
  rw [committed]
  split
  · exact List.mem_append_right _ h
  · exact h

/-! ## What the calls decide -/

theorem Decides.mono {now now' : Time} {read : Option Slot} {o : SlotOp} {c : Cmd} (h : Decides now read o c)
    (hle : now ≤ now') : Decides now' read o c := by
  have htruncate := Python.truncate_mono hle
  cases c with
  | insertSlot key slot => exact ⟨h.1, fun row hrow => (h.2 row hrow).imp_left fun hrow => hrow.trans htruncate⟩
  | deleteSlot key =>
    obtain ⟨row, hread, h⟩ := h
    exact ⟨row, hread, h.imp_right fun h => ⟨h.1, h.2.trans htruncate⟩⟩
  | _ => exact h

/-- A release deletes the row of its holder. -/
theorem decides_release {now : Time} {read : Option Slot} {k holder : String} {c : Cmd}
    (h : Decides now read (.release key holder) c) (hslot : c.slot = some k) :
    k = key ∧ ∃ row, read = some row ∧ row.holder = holder := by
  cases c with
  | insertSlot k' slot =>
    obtain ⟨⟨_, hop⟩, -⟩ := h
    cases hop
  | deleteSlot k' =>
    cases hslot
    obtain ⟨row, hread, hop | ⟨hop, -⟩⟩ := h <;> cases hop
    exact ⟨rfl, row, hread, rfl⟩
  | _ => cases hslot

/-- A look at the holder deletes what has expired. -/
theorem decides_holder {now : Time} {read : Option Slot} {k : String} {c : Cmd}
    (h : Decides now read (.holder key) c) (hslot : c.slot = some k) :
    k = key ∧ ∃ row, read = some row ∧ row.ttlExpires ≤ truncate now := by
  cases c with
  | insertSlot k' slot =>
    obtain ⟨⟨_, hop⟩, -⟩ := h
    cases hop
  | deleteSlot k' =>
    cases hslot
    obtain ⟨row, hread, hop | ⟨hop, hexpired⟩⟩ := h <;> cases hop
    exact ⟨rfl, row, hread, hexpired⟩
  | _ => cases hslot

/-- The clock does not go back. -/
theorem now_le_of_fires (hf : Fires w e w') : w.state.now ≤ w'.state.now := by
  obtain ⟨n, o, c, x⟩ := e
  obtain ⟨⟨i, hx⟩, -⟩ := hf
  simp only at hx
  generalize w'.state = s' at hx
  cases c <;> simp only [slots, store, exec, change] at hx
  case advance t =>
    split at hx <;> cases hx
    assumption
  case insertSlot key slot =>
    split at hx
    · split at hx
      · cases hx
        rfl
      · split at hx <;> cases hx
        rfl
    · cases hx
      rfl
  case deleteSlot | deleteByState =>
    split at hx
    · cases hx
      rfl
    · split at hx <;> cases hx
      rfl
  case insertTask | insertByState =>
    split at hx
    · split at hx
      · cases hx
        rfl
      · split at hx <;> cases hx
        rfl
    · cases hx
      rfl
  all_goals
    cases hx
    rfl

theorem lasting_now {t : Time} : Lasting fun w : World (slots real) => t ≤ w.state.now :=
  fun _ _ _ hf ht => ht.trans (now_le_of_fires hf)

/-- What was committed stays in the history. -/
theorem lasting_committed {p : Event (slots real) → Prop} :
    Lasting fun w : World (slots real) => ∃ e ∈ committed w.trace, p e := by
  rintro w e w' hf ⟨e', he', hp⟩
  exact ⟨e', hf.2 ▸ mem_committed_cons he', hp⟩

/-- The discipline of what the programs say. -/
def deciding (G : Guard (slots real)) : Discipline (slots real) :=
  ⟨G, fun _ => True, fun w e => Obeys w e.call e.op e.cmd⟩

section Outlines

variable {G : Guard (slots real)} {o : SlotOp} {α : Type}

theorem establishes_of {A : World (slots real) → Prop} {c : Cmd} {B : Resp c → World (slots real) → Prop}
    (hobeys : ∀ w, A w → Obeys w n o c) (hB : ∀ w x w', A w → Fires w ⟨n, o, c, x⟩ w' → B x w') :
    Establishes (deciding G) n o A c B :=
  fun w x w' _ hw _ hf => ⟨hobeys w hw, trivial, hB w x w' hw hf⟩

/-- Call `n` has written nothing. -/
def Clean (n : Nat) (w : World (slots real)) : Prop := pending n w.trace = none

/-- Call `n` has read `read`, on which it may decide `c`. -/
def Ready (n : Nat) (o : SlotOp) (c : Cmd) (w : World (slots real)) : Prop :=
  Clean n w ∧ ∃ read, lastRead n w.trace = some read ∧ Decides w.state.now read o c

theorem stable_clean : Stable (deciding G) n (Clean n) := stable_mine (p := fun l => uncommitted l = none)

theorem stable_lastRead {read : Option (Option Slot)} :
    Stable (deciding G) n fun w => lastRead n w.trace = read := by
  rintro w e w' hn - - - hf - h
  rw [lastRead, hf.2, List.filter_cons_of_neg (by simpa using hn)]
  exact h

theorem clean_untouched (h : Untouched n w) : Clean n w := by
  have hmine : w.trace.filter (fun e => e.call == n) = [] := h
  rw [Clean, pending, hmine]
  rfl

/-- A command that writes nothing. -/
theorem clean_next {c : Cmd} {x : Resp c} (hf : Fires w ⟨n, o, c, x⟩ w') (hslot : c.slot = none)
    (h : Clean n w) : Clean n w' := by
  rw [Clean, hf.2]
  cases c with
  | commit | rollback => exact pending_own
  | insertSlot | deleteSlot => cases hslot
  | _ => exact (pending_same rfl rfl).trans h

theorem time_of_fires {t : Time} (hf : Fires w ⟨n, o, .time, t⟩ w') : t = w.state.now := by
  obtain ⟨⟨i, hx⟩, -⟩ := hf
  simp only at hx
  generalize w'.state = s' at hx
  cases hx
  rfl

/-- A look at the clock. -/
theorem outline_time {Q : Except Exc α → World (slots real) → Prop} {A : World (slots real) → Prop}
    {read : Option (Option Slot)} {f : Time → P α}
    (hf : ∀ now, Outline (deciding G) n o Q (f now) fun w =>
      (A w ∧ Clean n w ∧ lastRead n w.trace = read) ∧ now ≤ w.state.now) (hA : Lasting A) :
    Outline (deciding G) n o Q (cmd .time >>= f) fun w => A w ∧ Clean n w ∧ lastRead n w.trace = read := by
  refine outline_cmd (M := slots real) (c := Cmd.time)
    (fun (now : Time) w => (A w ∧ Clean n w ∧ lastRead n w.trace = read) ∧ now ≤ w.state.now)
    (fun _ => stable_and (stable_and hA.stable (stable_and stable_clean stable_lastRead)) lasting_now.stable)
    (establishes_of (fun _ _ => trivial) fun w now w' hw hfire => ?_) hf
  obtain rfl : now = w.state.now := time_of_fires hfire
  refine ⟨⟨hA _ _ _ hfire hw.1, clean_next hfire rfl hw.2.1, ?_⟩, now_le_of_fires hfire⟩
  rw [lastRead, hfire.2, List.filter_cons_of_pos (by simp)]
  exact hw.2.2

theorem outline_if {Q : Except Exc α → World (slots real) → Prop} {A : World (slots real) → Prop} {c : Prop}
    [Decidable c]
    {p q : P α} (hp : c → Outline (deciding G) n o Q p A) (hq : ¬ c → Outline (deciding G) n o Q q A) :
    Outline (deciding G) n o Q (if c then p else q) A := by
  split
  · exact hp ‹_›
  · exact hq ‹_›

/-- A `SELECT` of the slot. -/
theorem outline_select {Q : Except Exc α → World (slots real) → Prop} {A : World (slots real) → Prop}
    (hA : Lasting A) {f : Option Slot → P α}
    (hf : ∀ read, Outline (deciding G) n o Q (f read) fun w => A w ∧ Clean n w ∧ lastRead n w.trace = some read) :
    Outline (deciding G) n o Q (cmd (.selectSlot key) >>= f) fun w => A w ∧ Clean n w := by
  refine outline_cmd (M := slots real) (c := Cmd.selectSlot key)
    (fun (read : Option Slot) w => A w ∧ Clean n w ∧ lastRead n w.trace = some read)
    (fun _ => stable_and hA.stable (stable_and stable_clean stable_lastRead))
    (establishes_of (fun _ _ => trivial) fun w read w' hw hfire => ?_) hf
  refine ⟨hA _ _ _ hfire hw.1, clean_next hfire rfl hw.2, ?_⟩
  rw [lastRead, hfire.2, List.filter_cons_of_pos (by simp)]
  rfl

/-- The write that a call has decided. -/
theorem outline_write {Q : Except Exc α → World (slots real) → Prop} {A : World (slots real) → Prop}
    (hA : Lasting A) {c : Cmd} {f : Resp c → P α} (hc : c.slot ≠ none)
    (hf : ∀ x, Outline (deciding G) n o Q (f x) fun w => A w ∧
      (wrote (⟨n, o, c, x⟩ : Event (slots real)) = true → pending n w.trace = some ⟨n, o, c, x⟩)) :
    Outline (deciding G) n o Q (cmd c >>= f) fun w => A w ∧ Ready n o c w := by
  refine outline_cmd (M := slots real) (c := c)
    (fun (x : Resp c) w => A w ∧
      (wrote (⟨n, o, c, x⟩ : Event (slots real)) = true → pending n w.trace = some ⟨n, o, c, x⟩))
    (fun x => stable_and hA.stable (stable_mine (p := fun l => _ → uncommitted l = some ⟨n, o, c, x⟩)))
    (establishes_of (fun w hw => ?_) fun w x w' hw hfire => ⟨hA _ _ _ hfire hw.1, fun hwrote => ?_⟩) hf
  · cases c with
    | insertSlot | deleteSlot => exact hw.2
    | _ => exact absurd rfl hc
  · rw [hfire.2, pending_own (e := (⟨n, o, c, x⟩ : Event (slots real))), hwrote]
    cases c with
    | insertSlot | deleteSlot => rfl
    | _ => exact absurd rfl hc

/-- `with conn:`, where `A` is what the block leaves. -/
theorem outline_withConn {Q : Except Exc α → World (slots real) → Prop} {A : α → World (slots real) → Prop}
    {B : World (slots real) → Prop} {p : P α} (herror : ∀ e w, Q (.error e) w) (hlasting : ∀ a, Lasting (Q (.ok a)))
    (hcommit : ∀ a w w', A a w → Fires w ⟨n, o, .commit, ()⟩ w' → Q (.ok a) w')
    (hp : Outline (deciding G) n o (Outcome A fun _ _ => True) p B) :
    Outline (deciding G) n o Q (withConn p) B := by
  refine outline_bind (M := slots real) (R := A) (fun a => ?_) ?_
  · exact outline_cmd (M := slots real) (c := Cmd.commit) (fun _ => Q (.ok a)) (fun _ => (hlasting a).stable)
      (establishes_of (fun _ _ => trivial) fun w _ w' hw hf => hcommit a w w' hw hf) fun _ =>
        outline_ret fun _ _ hw => hw
  · refine outline_catch (M := slots real) (E := fun _ _ => True) (fun e => ?_) hp
    exact outline_cmd (M := slots real) (c := Cmd.rollback) (fun _ _ => True) (fun _ => stable_true)
      (establishes_of (fun _ _ => trivial) fun _ _ _ _ _ => trivial) fun _ => outline_raise fun w _ _ => herror e w

/-- `except sqlite3.Error:`. -/
theorem outline_orElse {Q : Except Exc α → World (slots real) → Prop} {B : World (slots real) → Prop} {p : P α} {a : α}
    (herror : ∀ e w, Q (.error e) w) (ha : ∀ w, Q (.ok a) w) (hp : Outline (deciding G) n o Q p B) :
    Outline (deciding G) n o Q (orElse p a) B := by
  refine outline_catch (M := slots real) (E := fun _ _ => True) (fun e => ?_)
    (outline_mono (fun _ _ h => h) (fun r w _ hr => ?_) hp)
  · cases e with
    | sqlite msg => exact outline_ret fun w _ _ => ha w
    | overflow => exact outline_raise fun w _ _ => herror _ w
  · cases r with
    | ok a => exact hr
    | error e => exact trivial

/-! ### The three operations -/

/-- The claim of call `n` by `holder`, which has returned `True`. -/
def Granted (n : Nat) (key holder : String) (ttl_s : Int) (w : World (slots real)) : Prop :=
  ∃ t slot, t ≤ w.state.now ∧ slot = ⟨holder, truncate t + ttl_s⟩ ∧ ∃ e ∈ committed w.trace, Claims n e (key, slot)

theorem lasting_granted {holder : String} {ttl_s : Int} :
    Lasting fun w : World (slots real) => Granted n key holder ttl_s w := by
  rintro w e w' hf ⟨t, slot, ht, hslot, he⟩
  exact ⟨t, slot, lasting_now _ _ _ hf ht, hslot, lasting_committed _ _ _ hf he⟩

/-- The claim that the block of `slot_claim` leaves to be committed. -/
def Written (n : Nat) (t : Time) (key : String) (slot : Slot) (w : World (slots real)) : Prop :=
  t ≤ w.state.now ∧ ∃ e, pending n w.trace = some e ∧ Claims n e (key, slot)

theorem granted_of_commit {holder : String} {ttl_s : Int} {t : Time}
    (h : Written n t key ⟨holder, truncate t + ttl_s⟩ w)
    (hf : Fires w ⟨n, o, .commit, ()⟩ w') : Granted n key holder ttl_s w' := by
  obtain ⟨ht, e, hpending, hclaims⟩ := h
  refine ⟨t, _, lasting_now _ _ _ hf ht, rfl, e, ?_, hclaims⟩
  rw [hf.2, committed_of_commit rfl, hpending]
  exact List.mem_cons_self

theorem outline_replaceSlot {t : Time} :
    Outline (deciding G) n o (Outcome (fun a w => a = true → Written n t key slot w) fun _ _ => True)
      (replaceSlot key slot) fun w => t ≤ w.state.now ∧ Ready n o (.insertSlot key slot) w := by
  refine outline_write (c := Cmd.insertSlot key slot) lasting_now (by simp [Cmd.slot]) fun x => ?_
  cases x with
  | error e => exact outline_raise fun _ _ _ => trivial
  | ok _ => exact outline_ret fun w _ hw _ => ⟨hw.1, _, hw.2 rfl, rfl, rfl⟩

theorem outline_slotClaim {holder : String} {ttl_s : Int} :
    Outline (deciding G) n (.claim key holder ttl_s) (fun r w => r = .ok true → Granted n key holder ttl_s w)
      (slotClaim key holder ttl_s) (Untouched n) := by
  refine outline_cmd (M := slots real) (c := Cmd.time) (fun (t : Time) w => t ≤ w.state.now ∧ Clean n w)
    (fun _ => stable_and lasting_now.stable stable_clean)
    (establishes_of (fun _ _ => trivial) fun w t w' hw hf => ?_) fun t => ?_
  · obtain rfl : t = w.state.now := time_of_fires hf
    exact ⟨now_le_of_fires hf, clean_next hf rfl (clean_untouched hw)⟩
  refine outline_orElse (fun _ _ h => by cases h) (fun _ h => by cases h) ?_
  refine outline_withConn (A := fun a w => a = true → Written n t key ⟨holder, truncate t + ttl_s⟩ w)
    (fun _ _ h => by cases h) (fun a w e w' hf h ha => lasting_granted _ _ _ hf (h ha)) ?_ ?_
  · intro a w w' hw hf ha
    cases ha
    exact granted_of_commit (hw rfl) hf
  refine outline_select lasting_now fun read => ?_
  cases read with
  | none =>
    refine outline_pre (fun w _ hw => ⟨hw.1, hw.2.1, none, hw.2.2, ⟨ttl_s, rfl⟩, fun row hrow => ?_⟩)
      outline_replaceSlot
    cases hrow
  | some existing =>
    refine outline_time (fun now => ?_) lasting_now
    split
    · exact outline_ret fun _ _ _ h => by cases h
    · rename_i hfree
      refine outline_pre (fun w _ hw => ⟨hw.1.1, hw.1.2.1, some existing, hw.1.2.2, ⟨ttl_s, rfl⟩, fun row hrow => ?_⟩)
        outline_replaceSlot
      cases hrow
      rw [not_and_or, not_not] at hfree
      exact hfree.imp_left fun hle => (not_lt.mp hle).trans (Python.truncate_mono hw.2)

/-- A block that begins with a `SELECT` of the slot, of whose answer nothing is said. -/
theorem outline_attempt {f : Option Slot → P α} {a : α}
    (hf : ∀ read, Outline (deciding G) n o (Outcome (fun _ _ => True) fun _ _ => True) (f read) fun w =>
      True ∧ Clean n w ∧ lastRead n w.trace = some read) :
    Outline (deciding G) n o (fun _ _ => True) (orElse (withConn (cmd (.selectSlot key) >>= f)) a) (Untouched n) := by
  refine outline_orElse (fun _ _ => trivial) (fun _ => trivial) ?_
  refine outline_withConn (A := fun _ _ => True) (fun _ _ => trivial) (fun _ _ _ _ _ _ => trivial)
    (fun _ _ _ _ _ => trivial) ?_
  exact outline_pre (fun w _ hw => ⟨trivial, clean_untouched hw⟩) (outline_select lasting_pure hf)

/-- The `DELETE` of the slot that ends such a block. -/
theorem outline_deleteSlot {a : α} {A : World (slots real) → Prop} (h : ∀ w, A w → Ready n o (.deleteSlot key) w) :
    Outline (deciding G) n o (Outcome (fun _ _ => True) fun _ _ => True)
      (do
        Prog.ofExcept (← cmd (.deleteSlot key))
        return a) A := by
  refine outline_pre (fun w _ hw => ⟨trivial, h w hw⟩)
    (outline_write (c := Cmd.deleteSlot key) lasting_pure (by simp [Cmd.slot]) fun x => ?_)
  cases x with
  | error e => exact outline_raise fun _ _ _ => trivial
  | ok _ => exact outline_ret fun _ _ _ => trivial

theorem outline_slotRelease {holder : String} :
    Outline (deciding G) n (.release key holder) (fun _ _ => True) (slotRelease key holder) (Untouched n) := by
  refine outline_attempt fun read => ?_
  cases read with
  | none => exact outline_ret fun _ _ _ => trivial
  | some row =>
    refine outline_if (fun hholder => ?_) fun _ => outline_ret fun _ _ _ => trivial
    exact outline_deleteSlot fun w hw => ⟨hw.2.1, some row, hw.2.2, row, rfl, Or.inl (by rw [hholder])⟩

theorem outline_slotHolder :
    Outline (deciding G) n (.holder key) (fun _ _ => True) (slotHolder key) (Untouched n) := by
  refine outline_attempt fun read => ?_
  cases read with
  | none => exact outline_ret fun _ _ _ => trivial
  | some row =>
    refine outline_time (fun now => ?_) lasting_pure
    refine outline_if (fun hexpired => ?_) fun _ => outline_ret fun _ _ _ => trivial
    refine outline_deleteSlot fun w hw => ⟨hw.1.2.1, some row, hw.1.2.2, row, rfl, Or.inr ⟨rfl, ?_⟩⟩
    exact hexpired.trans (Python.truncate_mono hw.2)

/-- What holds of the end of every call. -/
def Ends (n : Nat) : (o : SlotOp) → Except Exc o.Ret → World (slots real) → Prop
  | .claim key holder ttl_s => fun r w => r = .ok true → Granted n key holder ttl_s w
  | _ => fun _ _ => True

theorem outline_slotProg : Outline (deciding G) n o (Ends n o) (slotProg o) (Untouched n) := by
  cases o with
  | claim key holder ttl_s => exact outline_slotClaim
  | release key holder => exact outline_slotRelease
  | holder key => exact outline_slotHolder
  | advance t =>
    exact outline_op (M := slots real) (c := Cmd.advance t) (fun _ _ => True) (fun _ => stable_true)
      (establishes_of (fun _ _ => trivial) fun _ _ _ _ _ => trivial) fun _ _ _ _ => trivial

end Outlines

/-! ## The history and the tables -/

/-- What a command writes. -/
def Cmd.write : Cmd → Tables → Tables
  | .insertSlot key slot => fun t => t.insertSlot key slot
  | .deleteSlot key => fun t => t.deleteSlot key
  | _ => id

/-- The write `e` waits to be committed, decided on the row that is committed. -/
structure Justified (s : State) (e : Event (slots real)) (t : Tables) : Prop where
  written : t = e.cmd.write s.db.committed
  decided : ∃ key, e.cmd.slot = some key ∧ Decides s.now (s.db.committed.slots key) e.op e.cmd

/-- Nobody has written anything, or one call has. -/
def Tied (w : World (slots real)) : Prop :=
  match w.state.db.txn with
  | none => ∀ n, Clean n w
  | some (n, t) => (∃ e, pending n w.trace = some e ∧ e.call = n ∧ Justified w.state e t) ∧ ∀ m, m ≠ n → Clean m w

/-- A claim whose time is not up and that its holder has not undone is in the table. -/
def Rows (w : World (slots real)) : Prop :=
  ∀ n key slot, Held (Claims n) Undoes (key, slot) (committed w.trace) → slot.ttlExpires ≤ truncate w.state.now ∨
    ∃ row, w.state.db.committed.slots key = some row ∧ row.holder = slot.holder ∧ slot.ttlExpires ≤ row.ttlExpires

/-- What a command does to the clock and the database. -/
inductive Effect (s : State) (e : Event (slots real)) : State → Prop
  | quiet {now : Time} (hends : ends e.cmd = false) (hwrote : wrote e = false) (hnow : s.now ≤ now) :
      Effect s e { s with now := now }
  | write {key : String} {db : Database Tables} (hslot : e.cmd.slot = some key) (hwrote : wrote e = true)
      (hdb : s.db.write e.call e.cmd.write = some db) : Effect s e { s with db := db }
  | commit (hcommits : commits e.cmd = true) : Effect s e { s with db := s.db.commit e.call }
  | rollback (hends : ends e.cmd = true) (hcommits : commits e.cmd = false) :
      Effect s e { s with db := s.db.rollback e.call }

theorem effect_of_fires (hobeys : Obeys w e.call e.op e.cmd) (hf : Fires w e w') : Effect w.state e w'.state := by
  obtain ⟨n, o, c, x⟩ := e
  obtain ⟨⟨i, hx⟩, -⟩ := hf
  simp only at hx
  generalize w'.state = s' at hx
  cases c <;> simp only [slots, store, exec, change] at hx
  case advance t =>
    split at hx <;> cases hx
    exact .quiet rfl rfl ‹_›
  case insertSlot key slot =>
    split at hx
    · split at hx
      · rename_i db hdb
        cases hx
        exact @Effect.write _ _ _ key _ rfl rfl hdb
      · split at hx <;> cases hx
        exact .quiet rfl rfl le_rfl
    · cases hx
      exact .quiet rfl rfl le_rfl
  case deleteSlot key =>
    split at hx
    · rename_i db hdb
      cases hx
      exact @Effect.write _ _ _ key _ rfl rfl hdb
    · split at hx <;> cases hx
      exact .quiet rfl rfl le_rfl
  case deleteByState | insertTask | insertByState => exact hobeys.elim
  case commit =>
    cases hx
    exact .commit rfl
  case rollback =>
    cases hx
    exact .rollback rfl rfl
  all_goals
    cases hx
    exact .quiet rfl rfl le_rfl

theorem pending_ends (h : ends e.cmd = true) : pending e.call (e :: l) = none := by
  rw [pending_own, if_pos h]

theorem pending_wrote (hslot : e.cmd.slot = some key) (hwrote : wrote e = true) : pending e.call (e :: l) = some e := by
  rw [pending_own, hwrote]
  obtain ⟨n, o, c, x⟩ := e
  cases c with
  | insertSlot | deleteSlot => rfl
  | _ => cases hslot

theorem commits_of_slot {c : Cmd} (hslot : c.slot = some key) : commits c = false := by
  cases c with
  | insertSlot | deleteSlot => rfl
  | _ => cases hslot

theorem commits_of_ends {c : Cmd} (h : ends c = false) : commits c = false := by
  cases c with
  | commit => cases h
  | _ => rfl

theorem ends_of_commits {c : Cmd} (h : commits c = true) : ends c = true := by
  cases c with
  | commit => rfl
  | _ => cases h

theorem Justified.later {s s' : State} {t : Tables} (h : Justified s e t) (hdb : s'.db.committed = s.db.committed)
    (hnow : s.now ≤ s'.now) : Justified s' e t := by
  obtain ⟨key, hslot, hdecides⟩ := h.decided
  exact ⟨hdb ▸ h.written, key, hslot, hdb ▸ hdecides.mono hnow⟩

theorem tied_none (h : Tied w) (htxn : w.state.db.txn = none) (n : Nat) : Clean n w := by
  rw [Tied, htxn] at h
  exact h n

theorem tied_some {t : Tables} (h : Tied w) (htxn : w.state.db.txn = some (n, t)) :
    (∃ e, pending n w.trace = some e ∧ e.call = n ∧ Justified w.state e t) ∧ ∀ m, m ≠ n → Clean m w := by
  rw [Tied, htxn] at h
  exact h

/-- The one write that waits to be committed. -/
theorem Tied.justified (h : Tied w) (hpending : pending m w.trace = some e) :
    ∃ t, w.state.db.txn = some (m, t) ∧ e.call = m ∧ Justified w.state e t := by
  cases htxn : w.state.db.txn with
  | none => exact absurd (hpending.symm.trans (tied_none h htxn m)) (by simp)
  | some p =>
    obtain ⟨n, t⟩ := p
    obtain ⟨⟨e', hpending', hcall, hjustified⟩, hothers⟩ := tied_some h htxn
    by_cases hm : m = n
    · subst hm
      cases hpending.symm.trans hpending'
      exact ⟨t, rfl, hcall, hjustified⟩
    · exact absurd (hpending.symm.trans (hothers m hm)) (by simp)

theorem current_of_slot {n : Nat} {o : SlotOp} {c : Cmd} {read : Option Slot} (h : Current w n o c)
    (hslot : c.slot = some key) (htxn : w.state.db.txn = none) (hread : lastRead n w.trace = some read) :
    w.state.db.committed.slots key = read := by
  cases c with
  | insertSlot | deleteSlot =>
    cases hslot
    exact Option.some.inj ((h htxn).symm.trans hread)
  | _ => cases hslot

theorem obeys_of_slot {n : Nat} {o : SlotOp} {c : Cmd} (h : Obeys w n o c) (hslot : c.slot = some key) :
    pending n w.trace = none ∧ ∃ read, lastRead n w.trace = some read ∧ Decides w.state.now read o c := by
  cases c with
  | insertSlot | deleteSlot => exact h
  | _ => cases hslot

/-- A write that gets the lock is justified, and the only one. -/
theorem tied_of_write {db : Database Tables} (h : Tied w) (hcurrent : Current w e.call e.op e.cmd)
    (hobeys : Obeys w e.call e.op e.cmd) (hslot : e.cmd.slot = some key) (hwrote : wrote e = true)
    (hdb : w.state.db.write e.call e.cmd.write = some db) : Tied ⟨{ w.state with db := db }, e :: w.trace⟩ := by
  obtain ⟨hclean, read, hread, hdecides⟩ := obeys_of_slot hobeys hslot
  have htxn : w.state.db.txn = none := by
    cases htxn : w.state.db.txn with
    | none => rfl
    | some p =>
      obtain ⟨n, t⟩ := p
      by_cases hn : n = e.call
      · obtain ⟨⟨e', he', -⟩, -⟩ := tied_some h htxn
        rw [hn, hclean] at he'
        cases he'
      · rw [Database.write, htxn] at hdb
        simp [hn] at hdb
  have hview : w.state.db.view e.call = w.state.db.committed := by rw [Database.view, htxn]
  obtain rfl : db = ⟨w.state.db.committed, some (e.call, e.cmd.write w.state.db.committed)⟩ :=
    hview ▸ Database.write_eq hdb
  have hcommitted := current_of_slot hcurrent hslot htxn hread
  refine ⟨⟨e, pending_wrote hslot hwrote, rfl, rfl, key, hslot, ?_⟩, fun m hm => ?_⟩
  · rw [hcommitted]
    exact hdecides
  · exact (pending_other (Ne.symm hm)).trans (tied_none h htxn m)

/-- The end of a transaction leaves nothing written. -/
theorem tied_of_ends {db : Database Tables} (h : Tied w) (hends : ends e.cmd = true)
    (hdb : w.state.db.txn = none ∧ db = w.state.db ∨
      ∃ n t, w.state.db.txn = some (n, t) ∧ (n = e.call ∧ db.txn = none ∨ n ≠ e.call ∧ db = w.state.db)) :
    Tied ⟨{ w.state with db := db }, e :: w.trace⟩ := by
  have hclean : ∀ m, (m ≠ e.call → Clean m w) → pending m (e :: w.trace) = none := by
    intro m hm
    by_cases he : e.call = m
    · exact he ▸ pending_ends hends
    · exact (pending_other he).trans (hm (Ne.symm he))
  rcases hdb with ⟨htxn, rfl⟩ | ⟨n, t, htxn, ⟨rfl, hnone⟩ | ⟨hn, rfl⟩⟩
  · rw [Tied, htxn]
    exact fun m => hclean m fun _ => tied_none h htxn m
  · rw [Tied, hnone]
    exact fun m => hclean m fun hm => (tied_some h htxn).2 m hm
  · obtain ⟨⟨e', he', hcall, hjustified⟩, hothers⟩ := tied_some h htxn
    rw [Tied, htxn]
    refine ⟨⟨e', (pending_other hn.symm).trans he', hcall, hjustified.later rfl le_rfl⟩, fun m hm => ?_⟩
    exact hclean m fun _ => hothers m hm

theorem tied_of_fires (h : Tied w) (hcurrent : Current w e.call e.op e.cmd) (hobeys : Obeys w e.call e.op e.cmd)
    (hf : Fires w e w') : Tied w' := by
  have heffect := effect_of_fires hobeys hf
  obtain ⟨s', l⟩ := w'
  obtain rfl : l = e :: w.trace := hf.2
  cases heffect with
  | quiet hends hwrote hnow =>
    have hsame : ∀ n, pending n (e :: w.trace) = pending n w.trace := fun n => pending_same hends hwrote
    cases htxn : w.state.db.txn with
    | none =>
      rw [Tied, htxn]
      exact fun n => (hsame n).trans (tied_none h htxn n)
    | some p =>
      obtain ⟨n, t⟩ := p
      obtain ⟨⟨e', he', hcall, hjustified⟩, hothers⟩ := tied_some h htxn
      rw [Tied, htxn]
      exact ⟨⟨e', (hsame n).trans he', hcall, hjustified.later rfl hnow⟩, fun m hm => (hsame m).trans (hothers m hm)⟩
  | write hslot hwrote hdb => exact tied_of_write h hcurrent hobeys hslot hwrote hdb
  | commit hcommits =>
    refine tied_of_ends h (ends_of_commits hcommits) ?_
    unfold Database.commit
    split
    · rename_i owner t htxn
      refine Or.inr ⟨owner, t, htxn, ?_⟩
      split
      · exact Or.inl ⟨‹_›, rfl⟩
      · exact Or.inr ⟨‹_›, rfl⟩
    · exact Or.inl ⟨‹_›, rfl⟩
  | rollback hends _ =>
    refine tied_of_ends h hends ?_
    unfold Database.rollback
    split
    · rename_i owner t htxn
      refine Or.inr ⟨owner, t, htxn, ?_⟩
      split
      · exact Or.inl ⟨‹_›, rfl⟩
      · exact Or.inr ⟨‹_›, rfl⟩
    · exact Or.inl ⟨‹_›, rfl⟩

/-! ## Claims in force -/

theorem Rows.later {db : Database Tables} {now : Time} (h : Rows w) (hdb : db.committed = w.state.db.committed)
    (hnow : w.state.now ≤ now) (hcommitted : committed (e :: w.trace) = committed w.trace) :
    Rows ⟨⟨now, db⟩, e :: w.trace⟩ := by
  intro n key slot hheld
  change Held _ _ _ (committed (e :: w.trace)) at hheld
  rw [hcommitted] at hheld
  refine (h n key slot hheld).imp (fun hle => hle.trans (Python.truncate_mono hnow)) fun hrow => ?_
  change ∃ row, db.committed.slots key = some row ∧ _
  rwa [hdb]

/-- What a commit adds to the history. -/
theorem rows_of_commit {t : Tables} (h : Rows w) (hjustified : Justified w.state e t) {l : List (Event (slots real))}
    (hl : committed l = e :: committed w.trace) : Rows ⟨{ w.state with db := .at_ t }, l⟩ := by
  obtain ⟨key, hslot, hdecides⟩ := hjustified.decided
  intro n k slot hheld
  change Held _ _ _ (committed l) at hheld
  rw [hl] at hheld
  change _ ∨ ∃ row, t.slots k = some row ∧ _
  rw [hjustified.written]
  obtain ⟨call, o, c, x⟩ := e
  cases c with
  | insertSlot key' slot' =>
    cases hslot
    rcases hheld with ⟨-, hclaim⟩ | ⟨hheld, hundoes⟩
    · cases hclaim
      exact Or.inr ⟨slot, Function.update_self .., rfl, le_rfl⟩
    obtain hexpired | ⟨row, hrow, hholder, hle⟩ := h n k slot hheld
    · exact Or.inl hexpired
    by_cases hk : k = key
    · subst hk
      obtain hexpired | hsame := hdecides.2 row hrow
      · exact Or.inl (hle.trans hexpired)
      -- the holder's own claim, which does not cut this one short
      · refine Or.inr ⟨slot', Function.update_self .., hsame.symm.trans hholder, not_lt.mp fun hlt => hundoes ?_⟩
        exact Or.inr ⟨slot', rfl, hsame.symm.trans hholder, hlt⟩
    · exact Or.inr ⟨row, (Function.update_of_ne hk ..).trans hrow, hholder, hle⟩
  | deleteSlot key' =>
    cases hslot
    rcases hheld with ⟨-, hclaim⟩ | ⟨hheld, hundoes⟩
    · cases hclaim
    obtain hexpired | ⟨row, hrow, hholder, hle⟩ := h n k slot hheld
    · exact Or.inl hexpired
    by_cases hk : k = key
    · subst hk
      obtain ⟨row', hrow', hdecides⟩ := hdecides
      cases hrow.symm.trans hrow'
      rcases hdecides with hrelease | ⟨-, hexpired⟩
      · exact absurd (Or.inl ⟨hholder ▸ hrelease, rfl⟩) hundoes
      · exact Or.inl (hle.trans hexpired)
    · exact Or.inr ⟨row, (Function.update_of_ne hk ..).trans hrow, hholder, hle⟩
  | _ => cases hslot

theorem rows_of_fires (h : Rows w) (htied : Tied w) (hobeys : Obeys w e.call e.op e.cmd) (hf : Fires w e w') :
    Rows w' := by
  have heffect := effect_of_fires hobeys hf
  obtain ⟨s', l⟩ := w'
  obtain rfl : l = e :: w.trace := hf.2
  cases heffect with
  | quiet hends _ hnow => exact h.later rfl hnow (committed_of_ne (commits_of_ends hends))
  | write hslot _ hdb =>
    refine h.later ?_ le_rfl (committed_of_ne (commits_of_slot hslot))
    rw [Database.write_eq hdb]
  | rollback _ hcommits =>
    refine h.later ?_ le_rfl (committed_of_ne hcommits)
    unfold Database.rollback
    split
    · split <;> rfl
    · rfl
  | commit hcommits =>
    have hcommitted : committed (e :: w.trace) = (pending e.call w.trace).toList ++ committed w.trace :=
      committed_of_commit hcommits
    cases hpending : pending e.call w.trace with
    | none =>
      rw [hpending] at hcommitted
      refine h.later ?_ le_rfl hcommitted
      unfold Database.commit
      split
      · rename_i owner t htxn
        split
        · rename_i howner
          subst howner
          obtain ⟨⟨e', he', -⟩, -⟩ := tied_some htied htxn
          cases hpending.symm.trans he'
        · rfl
      · rfl
    | some e' =>
      rw [hpending] at hcommitted
      obtain ⟨t, htxn, -, hjustified⟩ := htied.justified hpending
      have hdb : w.state.db.commit e.call = .at_ t := by simp only [Database.commit, htxn, if_true]
      rw [hdb]
      exact rows_of_commit h hjustified hcommitted

/-- What the commands of such a run keep. -/
theorem run_tied {t₀ : Time} {t : Tables} {c : Config (slots real)} (h : Run Current (.init ⟨t₀, .at_ t⟩) c) :
    Tied c.world ∧ Rows c.world := by
  refine run_inv (I := fun w => Tied w ∧ Rows w) (fun w e w' hi hg hf => ?_) ⟨?_, ?_⟩
    (run_obeys (M := slots real) (D := deciding Current) (K := Obeys) (Q := fun n o => Ends n o) (fun _ _ h => h)
      (fun n o => outline_slotProg) trivial h)
  · exact ⟨tied_of_fires hi.1 hg.1 hg.2 hf, rows_of_fires hi.2 hi.1 hg.2 hf⟩
  · exact fun _ => rfl
  · exact fun n key slot hheld => hheld.elim

theorem InForce.row (h : Rows w) (hforce : InForce n key slot w) :
    ∃ row, w.state.db.committed.slots key = some row ∧ row.holder = slot.holder ∧ slot.ttlExpires ≤ row.ttlExpires :=
  (h n key slot hforce.1).resolve_left (not_le.mpr hforce.2)

/-- **One holder.** If every write finds the row that its call has read, no two holders have claims of one slot in
force, nothing that waits to be committed takes it from the holder, and `slot_holder` deletes what has expired. -/
theorem one_holder_of_current {t₀ : Time} {t : Tables} {c : Config (slots real)}
    (h : Run Current (.init ⟨t₀, .at_ t⟩) c) : Exclusive c := by
  obtain ⟨htied, hrows⟩ := run_tied h
  constructor
  case granted =>
    intro n key holder ttl_s hreturned
    exact (run_sound (M := slots real) (D := deciding Current) (Q := fun n o => Ends n o) (fun n o => outline_slotProg)
      trivial h).returned hreturned rfl
  case one =>
    intro n n' key slot slot' hforce hforce'
    obtain ⟨row, hrow, hholder, -⟩ := hforce.row hrows
    obtain ⟨row', hrow', hholder', -⟩ := hforce'.row hrows
    cases hrow.symm.trans hrow'
    exact hholder.symm.trans hholder'
  case claims =>
    intro m e n key slot slot' hpending hcmd hforce
    obtain ⟨t, -, -, hjustified⟩ := htied.justified hpending
    obtain ⟨key', hslot, hdecides⟩ := hjustified.decided
    rw [hcmd] at hslot hdecides
    cases hslot
    obtain ⟨row, hrow, hholder, hle⟩ := hforce.row hrows
    rcases hdecides.2 row hrow with hexpired | hsame
    · exact absurd (hle.trans hexpired) (not_le.mpr hforce.2)
    · exact hholder.symm.trans hsame
  case releases =>
    intro m e n key slot holder hpending hop hforce
    obtain ⟨t, -, -, hjustified⟩ := htied.justified hpending
    obtain ⟨key', hslot, hdecides⟩ := hjustified.decided
    obtain ⟨rfl, row', hrow', rfl⟩ := decides_release (hop ▸ hdecides) hslot
    obtain ⟨row, hrow, hholder, -⟩ := hforce.row hrows
    cases hrow.symm.trans hrow'
    exact hholder.symm
  case drops =>
    intro m e key row hpending hop hrow
    obtain ⟨t, -, -, hjustified⟩ := htied.justified hpending
    obtain ⟨key', hslot, hdecides⟩ := hjustified.decided
    obtain ⟨rfl, row', hrow', hexpired⟩ := decides_holder (hop ▸ hdecides) hslot
    cases hrow.symm.trans hrow'
    exact hexpired

/-! ## Two claims -/

/-- The row a command inserts. -/
def Cmd.inserted : Cmd → Option (String × Slot)
  | .insertSlot key slot => some (key, slot)
  | _ => none

theorem inserted_eq {c : Cmd} {k : String × Slot} (h : c.inserted = some k) : c = .insertSlot k.1 k.2 := by
  cases c with
  | insertSlot => cases h; rfl
  | _ => cases h

instance decidableCurrent (w : World (slots real)) (n : Nat) (o : SlotOp) : (c : Cmd) → Decidable (Current w n o c)
  | .insertSlot key _ | .deleteSlot key =>
    inferInstanceAs (Decidable (w.state.db.txn = none → lastRead n w.trace = some (w.state.db.committed.slots key)))
  | .time | .selectSlot _ | .selectState _ | .deleteByState .. | .insertTask .. | .insertByState .. | .selectData _
  | .selectByState _ | .commit | .rollback | .advance _ => isTrue trivial

/-- Call `n` has returned `True` from the claim. -/
def returnedTrue (c : Config (slots real)) (n : Nat) (key holder : String) (ttl_s : Int) : Bool :=
  match c.proc n with
  | some ⟨.claim k h t, .ret (claimed : Bool)⟩ =>
    claimed && decide (k = key) && decide (h = holder) && decide (t = ttl_s)
  | _ => false

theorem returned_of_returnedTrue {c : Config (slots real)} {holder : String} {ttl_s : Int}
    (h : returnedTrue c n key holder ttl_s = true) : c.Returned n (.claim key holder ttl_s) true := by
  unfold returnedTrue at h
  split at h
  · rename_i claimed hp
    simp only [Bool.and_eq_true, decide_eq_true_eq] at h
    obtain ⟨⟨⟨rfl, rfl⟩, rfl⟩, rfl⟩ := h
    exact hp
  · cases h

/-- `x` claims the slot for 10 seconds, and `y` when they are over. -/
def succession : List (Act (slots some)) :=
  solo (slots some) 0 (.claim "k" "x" 10) 4 ⟨false⟩ ++ solo (slots some) 1 (.advance 20) 1 ⟨false⟩ ++
    solo (slots some) 2 (.claim "k" "y" 10) 5 ⟨false⟩

theorem succession_plays : (play Current (.init ⟨0, .at_ .empty⟩) succession).isSome := by decide +kernel

theorem exclusive_succession : Exclusive (played Current (.init ⟨0, .at_ .empty⟩) succession succession_plays) :=
  one_holder_of_current (run_played succession_plays)

/-- `x` and `y` both find no row, and claim the slot one after the other. -/
def race : List (Act (slots some)) :=
  solo (slots some) 0 (.claim "k" "x" 10) 2 ⟨false⟩ ++ solo (slots some) 1 (.claim "k" "y" 10) 4 ⟨false⟩ ++
    [.step 0 ⟨false⟩, .step 0 ⟨false⟩]

/-- Both were told that they have it. -/
theorem both_claimed : ∃ c : Config (slots some), Run Free (.init (⟨0, .at_ .empty⟩ : State)) c ∧
    c.Returned 0 (.claim "k" "x" 10) true ∧ c.Returned 1 (.claim "k" "y" 10) true ∧
    InForce 0 "k" ⟨"x", 10⟩ c.world ∧ InForce 1 "k" ⟨"y", 10⟩ c.world ∧ ¬ Exclusive c := by
  have hplay : (play (Free : Guard (slots some)) (.init ⟨0, .at_ .empty⟩) race).any (fun c =>
      (returnedTrue c 0 "k" "x" 10 && returnedTrue c 1 "k" "y" 10) && decide (c.world.state.now = 0) &&
        decide ((committed c.world.trace).map (fun e => (e.call, e.cmd.inserted)) =
          [(0, some ("k", ⟨"x", 10⟩)), (1, some ("k", ⟨"y", 10⟩))])) = true := by
    decide +kernel
  obtain ⟨c, hrun, hc⟩ := exists_run_of_play hplay
  simp only [Bool.and_eq_true, decide_eq_true_eq] at hc
  obtain ⟨⟨⟨hx, hy⟩, hnow⟩, hcommitted⟩ := hc
  obtain ⟨e, l, hl, he, hrest⟩ := List.map_eq_cons_iff.mp hcommitted
  obtain ⟨e', l', rfl, he', hnil⟩ := List.map_eq_cons_iff.mp hrest
  obtain rfl := List.map_eq_nil_iff.mp hnil
  obtain ⟨hcall, hinserted⟩ := Prod.mk.inj he
  obtain ⟨hcall', hinserted'⟩ := Prod.mk.inj he'
  have hlt : truncate c.world.state.now < 10 := by
    rw [hnow]
    decide
  -- the claim of `x` does not undo the one of `y`
  have hundoes : ¬ Undoes e ("k", ⟨"y", 10⟩) := by
    rintro (⟨-, hcmd⟩ | ⟨slot, hcmd, hholder, -⟩)
    · cases (inserted_eq hinserted).symm.trans hcmd
    · cases (inserted_eq hinserted).symm.trans hcmd
      exact absurd hholder (by decide)
  have hforce : InForce 0 "k" ⟨"x", 10⟩ c.world := ⟨hl ▸ Or.inl ⟨hcall, inserted_eq hinserted⟩, hlt⟩
  have hforce' : InForce 1 "k" ⟨"y", 10⟩ c.world :=
    ⟨hl ▸ Or.inr ⟨Or.inl ⟨hcall', inserted_eq hinserted'⟩, hundoes⟩, hlt⟩
  refine ⟨c, hrun, returned_of_returnedTrue hx, returned_of_returnedTrue hy, hforce, hforce', fun hexclusive => ?_⟩
  exact absurd (hexclusive.one 0 1 "k" _ _ hforce hforce') (by decide)

end ClaudeSwarm.Cascade.Sqlite
