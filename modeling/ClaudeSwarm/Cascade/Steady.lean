import ClaudeSwarm.Cascade.Store
import ClaudeSwarm.Interleave.Outline

/-!
# Standing claims

A claim stands from the command that decides it (`SET NX`, the assertion, the `INSERT`) until its `ttl_s`
seconds are over or a release of its holder takes effect. Redis counts the seconds from the command. The
Context Bridge and SQLite are given the whole second of their end, `int(time.time()) + ttl_s`, which a call
works out before it looks whether the slot is free: there they count from the call's first look at the clock.

`Obeys` says what a call has read when it executes a command that writes. `Steady` lists what else has to
hold then for claims that stand to stay recorded where they were decided, and to be seen there.

* `inv_of_grant`, `inv_of_no_grant`: the history of a command that decides a claim, and of one that does not.
* **`inv_of_fires`**: a command that obeys and is steady keeps `Inv`: claims that stand are recorded, and no
  slot has claims of two holders.
-/

namespace ClaudeSwarm.Cascade

open Interleave
open Python (Time truncate)

/-- Where a claim is decided. -/
inductive Level where
  | redis
  | bridge
  | sqlite
  deriving DecidableEq

/-! ## What a call has read -/

/-- What the event reads of the clock. -/
def readTime : Event system → Option Time
  | ⟨_, _, .time, t⟩ => some t
  | _ => none

/-- What the event reads of the fact of slot `k`. -/
def readFact (k : String) : Event system → Option (Option Fact)
  | ⟨_, _, .query subject, x⟩ => if subject = k then some x else none
  | _ => none

/-- What the event reads of the row of slot `k`. -/
def readRow (k : String) : Event system → Option (Option Row)
  | ⟨_, _, .select key, x⟩ => if key = k then some x else none
  | _ => none

/-- What the event reads of slot `k` in Redis. -/
def readValue (k : String) : Event system → Option (Option (Option String))
  | ⟨_, _, .get key, x⟩ => if key = k then some x else none
  | _ => none

/-- What call `n` has last read of a fact, a row or a key. -/
def lastRead {α : Type} (read : Event system → Option α) (n : Nat) (w : World system) : Option α :=
  (mine n w).findSome? read

/-- The time call `n` first read in a history. -/
def began (n : Nat) (l : List (Event system)) : Option Time :=
  (l.filter fun e => e.call == n).reverse.findSome? readTime

/-- The clock after a history that began at `t₀`. -/
def clock (t₀ : Time) : List (Event system) → Time
  | [] => t₀
  | ⟨_, _, .advance t, _⟩ :: _ => t
  | _ :: l => clock t₀ l

/-! ## Standing claims -/

/-- The command decides a claim of `ttl_s` seconds: the level, and until when the claim stands. Redis counts
from `now`, the others from when the call first looked at the clock. -/
def decided (now : Time) (began : Option Time) (ttl_s : Int) : (c : Cmd) → Resp c → Option (Level × Time)
  | .set _ _ _, (ok : Option Bool) => if ok = some true then some (.redis, now + ttl_s) else none
  | .assert _ (.claim _ _), (asserted : Bool) =>
    if asserted then began.map fun t => (.bridge, t + ttl_s) else none
  | .insert _ _, _ => began.map fun t => (.sqlite, t + ttl_s)
  | _, _ => none

/-- The command of a release takes effect. -/
def undoes : (c : Cmd) → Resp c → Bool
  | .delete _, (ok : Option Bool) => ok == some true
  | .assert _ .empty, (asserted : Bool) => asserted
  | .deleteRow _, _ => true
  | _, _ => false

/-- After the history `l` the event decides a claim of `k` by `h`. -/
def Grants (t₀ : Time) (l : List (Event system)) (k h : String) (L : Level) (u : Time) (e : Event system) : Prop :=
  ∃ ttl_s, e.op = .claim k h ttl_s ∧
    decided (clock t₀ l) (began e.call l) ttl_s e.cmd e.resp = some (L, u)

/-- The event is a release of `k` by `h` taking effect. -/
def Frees (k h : String) (e : Event system) : Prop :=
  e.op = .release k h ∧ undoes e.cmd e.resp = true

/-- The claim of `k` by `h` that call `n` decided at `L`, and that counts until `u`, has not been released. -/
def Standing (t₀ : Time) (n : Nat) (k h : String) (L : Level) (u : Time) : List (Event system) → Prop
  | [] => False
  | e :: l => e.call = n ∧ Grants t₀ l k h L u e ∨ Standing t₀ n k h L u l ∧ ¬ Frees k h e

/-- A claim of `k` by `h` that was decided at `L` stands. -/
def InForce (t₀ : Time) (k h : String) (L : Level) (w : World system) : Prop :=
  ∃ n u, Standing t₀ n k h L u w.trace ∧ w.state.now < u

/-- The seconds recorded by call `n` for a claim of `ttl_s`. -/
def Counts (n : Nat) (ttl_s : Int) (w : World system) (ttl_expires : Int) : Prop :=
  ∃ t, began n w.trace = some t ∧ truncate t + ttl_s ≤ ttl_expires

/-- The fact call `n` has read of slot `k` lets `h` claim it. -/
def FactPassed (n : Nat) (k h : String) (w : World system) : Prop :=
  ∃ x, lastRead (readFact k) n w = some x ∧
    ∀ h' e', x = some (.claim h' e') → h' = h ∨ e' ≤ truncate w.state.now

/-- The row call `n` has read of slot `k` lets `h` claim it. -/
def RowPassed (n : Nat) (k h : String) (w : World system) : Prop :=
  ∃ x, lastRead (readRow k) n w = some x ∧
    ∀ r, x = some r → r.holder = h ∨ r.ttlExpires ≤ truncate w.state.now

/-- What the code says when a command that writes is executed: of which slot it is, and what the call has
read before. -/
def Obeys : Guard system := fun w n o c =>
  match o, c with
  | .claim k h ttl_s, .set key value ex => key = k ∧ value = h ∧ ex = ttl_s
  | .claim k h ttl_s, .assert subject obj => subject = k ∧
    (∃ e, obj = .claim h e ∧ Counts n ttl_s w e) ∧ FactPassed n k h w
  | .claim k h ttl_s, .insert key row => key = k ∧ row.holder = h ∧
    Counts n ttl_s w row.ttlExpires ∧ RowPassed n k h w
  | .mirror _, .insert key row => RowPassed n key row.holder w
  | .release k h, .delete key => key = k ∧ lastRead (readValue k) n w = some (some (some h))
  | .release k h, .assert subject obj => subject = k ∧ obj = .empty ∧
    ∃ e, lastRead (readFact k) n w = some (some (.claim h e))
  | .release k h, .deleteRow key => key = k ∧
    ∃ r, lastRead (readRow k) n w = some (some r) ∧ r.holder = h
  | .mirror _, .deleteRow _ | .holder _, .deleteRow _ | .advance _, .advance _ => True
  | _, .set _ _ _ | _, .assert _ _ | _, .insert _ _ | _, .delete _ | _, .deleteRow _ => False
  | _, .advance _ => False
  | _, _ => True

/-! ## Steady runs -/

/-- Every claim of `k` that stands for another holder than `h` was decided at `L`. -/
def SameLevel (t₀ : Time) (w : World system) (k h : String) (L : Level) : Prop :=
  ∀ h' L', h' ≠ h → InForce t₀ k h' L' w → L' = L

/-- A row is written over one of a claim that stands only if the call has read it as it is, and either its
seconds are not up or it is the holder's own and ends no later. -/
def Overwrites (t₀ : Time) (w : World system) (n : Nat) (k : String) (row : Row) : Prop :=
  (∀ h, h ≠ row.holder → InForce t₀ k h .sqlite w → lastRead (readRow k) n w = some (w.state.rows k) ∧
    ∀ r, w.state.rows k = some r → truncate w.state.now < r.ttlExpires) ∧
  (InForce t₀ k row.holder .sqlite w →
    ∀ r, w.state.rows k = some r → r.ttlExpires ≤ row.ttlExpires)

/-- When a command writes at a level, the claims of the slot that stand allow it: those of other holders
were decided at that level, the call has read their record as it is, and the seconds of the record are not
up; one of the same holder is not recorded to end later; and a mirror write or `slot_holder` deletes no row
of a claim that stands. -/
def Steady (t₀ : Time) : Guard system := fun w n o c =>
  match o, c with
  | .claim k h _, .set _ _ ex => w.state.redisUp = true → 0 < ex → w.state.value k = none →
    SameLevel t₀ w k h .redis
  | .claim k h _, .assert _ (.claim _ e) => w.state.bridgeUp = true → SameLevel t₀ w k h .bridge ∧
    (∀ h', h' ≠ h → InForce t₀ k h' .bridge w → lastRead (readFact k) n w = some (w.state.facts k) ∧
      ∀ h'' e', w.state.facts k = some (.claim h'' e') → truncate w.state.now < e') ∧
    (InForce t₀ k h .bridge w → ∀ h' e', w.state.facts k = some (.claim h' e') → e' ≤ e)
  | .claim k h _, .insert _ row => SameLevel t₀ w k h .sqlite ∧ Overwrites t₀ w n k row
  | .mirror _, .insert k row => Overwrites t₀ w n k row
  | .release k h, .delete _ => ∀ h', h' ≠ h → InForce t₀ k h' .redis w →
    lastRead (readValue k) n w = some (some (w.state.value k))
  | .release k h, .assert _ _ => ∀ h', h' ≠ h → InForce t₀ k h' .bridge w →
    lastRead (readFact k) n w = some (w.state.facts k)
  | .release k h, .deleteRow _ => ∀ h', h' ≠ h → InForce t₀ k h' .sqlite w →
    lastRead (readRow k) n w = some (w.state.rows k)
  | .mirror _, .deleteRow k | .holder _, .deleteRow k => ∀ h, ¬ InForce t₀ k h .sqlite w
  | _, _ => True

/-! ## The invariant -/

/-- The claim is recorded at its level. -/
def Recorded (s : State) (k h : String) (u : Time) : Level → Prop
  | .redis => ∃ e, s.redis k = some (h, e) ∧ u ≤ e
  | .bridge => ∃ e : Int, s.facts k = some (.claim h e) ∧ u ≤ e + 1
  | .sqlite => ∃ row, s.rows k = some row ∧ row.holder = h ∧ u ≤ row.ttlExpires + 1

/-- Claims that stand are recorded, and are all of one holder. -/
structure Inv (t₀ : Time) (w : World system) : Prop where
  now : w.state.now = clock t₀ w.trace
  recorded : ∀ n k h L u, Standing t₀ n k h L u w.trace → w.state.now < u → Recorded w.state k h u L
  holder : ∀ k h h' L L', InForce t₀ k h L w → InForce t₀ k h' L' w → h = h'

section Steps

variable {t₀ : Time} {w w' : World system} {e : Event system}

/-- A command that decides no claim. -/
theorem inv_of_no_grant (hi : Inv t₀ w) (hf : Fires w e w') (hnow : w'.state.now = clock t₀ (e :: w.trace))
    (hle : w.state.now ≤ w'.state.now)
    (hno : ∀ k h L u, ¬ Grants t₀ w.trace k h L u e)
    (hrec : ∀ k h L u, InForce t₀ k h L w → ¬ Frees k h e → w.state.now < u →
      Recorded w.state k h u L → Recorded w'.state k h u L) : Inv t₀ w' := by
  have hstanding : ∀ n k h L u, Standing t₀ n k h L u w'.trace →
      Standing t₀ n k h L u w.trace ∧ ¬ Frees k h e := by
    intro n k h L u hs
    rw [hf.2] at hs
    exact hs.resolve_left fun hg => hno k h L u hg.2
  refine ⟨hf.2 ▸ hnow, fun n k h L u hs hlt => ?_, fun k h h' L L' => ?_⟩
  · obtain ⟨hs, hfree⟩ := hstanding n k h L u hs
    have hlt' := lt_of_le_of_lt hle hlt
    exact hrec k h L u ⟨n, u, hs, hlt'⟩ hfree hlt' (hi.recorded n k h L u hs hlt')
  · rintro ⟨n, u, hs, hlt⟩ ⟨n', u', hs', hlt'⟩
    exact hi.holder k h h' L L' ⟨n, u, (hstanding n k h L u hs).1, lt_of_le_of_lt hle hlt⟩
      ⟨n', u', (hstanding n' k h' L' u' hs').1, lt_of_le_of_lt hle hlt'⟩

/-- A command that decides a claim of `k` by `h`, where no other holder has one. -/
theorem inv_of_grant {k h : String} {L : Level} {u : Time} (hi : Inv t₀ w) (hf : Fires w e w')
    (hnow : w'.state.now = w.state.now) (hclock : clock t₀ (e :: w.trace) = clock t₀ w.trace)
    (hgrant : Grants t₀ w.trace k h L u e)
    (hother : ∀ h' L', InForce t₀ k h' L' w → h' = h) (hnew : Recorded w'.state k h u L)
    (hrec : ∀ k' h' L' u', InForce t₀ k' h' L' w → w.state.now < u' →
      Recorded w.state k' h' u' L' → Recorded w'.state k' h' u' L') : Inv t₀ w' := by
  obtain ⟨ttl_s, hop, hdec⟩ := hgrant
  have hstanding : ∀ n' k' h' L' u', Standing t₀ n' k' h' L' u' w'.trace →
      (k' = k ∧ h' = h ∧ L' = L ∧ u' = u) ∨ Standing t₀ n' k' h' L' u' w.trace := by
    intro n' k' h' L' u' hs
    rw [hf.2] at hs
    rcases hs with ⟨-, ttl_s', hop', hdec'⟩ | ⟨hs, -⟩
    · rw [hop, Op.claim.injEq] at hop'
      obtain ⟨rfl, rfl, rfl⟩ := hop'
      rw [hdec, Option.some.injEq, Prod.mk.injEq] at hdec'
      exact Or.inl ⟨rfl, rfl, hdec'.1.symm, hdec'.2.symm⟩
    · exact Or.inr hs
  refine ⟨?_, fun n' k' h' L' u' hs hlt => ?_, fun k' h₁ h₂ L₁ L₂ => ?_⟩
  · rw [hnow, hi.now, hf.2, hclock]
  · rcases hstanding n' k' h' L' u' hs with ⟨rfl, rfl, rfl, rfl⟩ | hs
    · exact hnew
    · rw [hnow] at hlt
      exact hrec k' h' L' u' ⟨n', u', hs, hlt⟩ hlt (hi.recorded n' k' h' L' u' hs hlt)
  · rintro ⟨n₁, u₁, hs₁, hlt₁⟩ ⟨n₂, u₂, hs₂, hlt₂⟩
    rw [hnow] at hlt₁ hlt₂
    rcases hstanding n₁ k' h₁ L₁ u₁ hs₁ with ⟨rfl, rfl, rfl, rfl⟩ | hs₁
    · rcases hstanding n₂ k' h₂ L₂ u₂ hs₂ with ⟨-, rfl, -, -⟩ | hs₂
      · rfl
      · exact (hother h₂ L₂ ⟨n₂, u₂, hs₂, hlt₂⟩).symm
    · rcases hstanding n₂ k' h₂ L₂ u₂ hs₂ with ⟨rfl, rfl, -, -⟩ | hs₂
      · exact hother h₁ L₁ ⟨n₁, u₁, hs₁, hlt₁⟩
      · exact hi.holder k' h₁ h₂ L₁ L₂ ⟨n₁, u₁, hs₁, hlt₁⟩ ⟨n₂, u₂, hs₂, hlt₂⟩

/-- A command that changes no record. -/
theorem inv_of_same (hi : Inv t₀ w) (hf : Fires w e w') (hclock : clock t₀ (e :: w.trace) = clock t₀ w.trace)
    (hdec : ∀ b ttl_s, decided (clock t₀ w.trace) b ttl_s e.cmd e.resp = none) (hnow : w'.state.now = w.state.now)
    (hredis : w'.state.redis = w.state.redis) (hfacts : w'.state.facts = w.state.facts)
    (hrows : w'.state.rows = w.state.rows) : Inv t₀ w' := by
  refine inv_of_no_grant hi hf (by rw [hnow, hi.now, hclock]) hnow.ge (fun k h L u hg => ?_)
    fun k h L u _ _ _ hr => ?_
  · obtain ⟨ttl_s, -, hg⟩ := hg
    rw [hdec] at hg
    cases hg
  · cases L with
    | redis =>
      rw [Recorded, hredis]
      exact hr
    | bridge =>
      rw [Recorded, hfacts]
      exact hr
    | sqlite =>
      rw [Recorded, hrows]
      exact hr

/-- What Redis has of a claim that stands is there. -/
theorem value_of_recorded {s : State} {k h : String} {u : Time} (hr : Recorded s k h u .redis)
    (hlt : s.now < u) : s.value k = some h := by
  obtain ⟨e, he, hle⟩ := hr
  rw [State.value, he, Option.bind_some, if_pos (hlt.trans_le hle)]

/-- **`SET NX`.** -/
theorem inv_of_set {n : Nat} {o : Op} {key value : String} {ex : Int} {x : Option Bool} (hi : Inv t₀ w)
    (hobeys : Obeys w n o (.set key value ex)) (hsteady : Steady t₀ w n o (.set key value ex))
    (hf : Fires w ⟨n, o, .set key value ex, x⟩ w') : Inv t₀ w' := by
  obtain ⟨⟨i, hx⟩, -⟩ := id hf
  simp only [exec] at hx
  generalize hs' : w'.state = s' at hx
  split at hx
  · cases hx
    exact inv_of_same hi hf rfl (fun _ _ => rfl) (by rw [hs']) (by rw [hs']) (by rw [hs']) (by rw [hs'])
  rename_i hup
  rw [not_or, Bool.not_eq_false, not_le] at hup
  split at hx <;> cases hx
  · exact inv_of_same hi hf rfl (fun _ _ => rfl) (by rw [hs']) (by rw [hs']) (by rw [hs']) (by rw [hs'])
  rename_i hvalue
  have hnone : w.state.value key = none := by simpa using hvalue
  cases o with
  | claim k h ttl_s =>
    obtain ⟨rfl, rfl, rfl⟩ := hobeys
    have hlevel := hsteady hup.1 hup.2 hnone
    have hno : ∀ h', ¬ InForce t₀ key h' .redis w := by
      rintro h' ⟨n', u, hs, hlt⟩
      rw [value_of_recorded (hi.recorded n' key h' .redis u hs hlt) hlt] at hnone
      cases hnone
    refine inv_of_grant hi hf (by rw [hs']) rfl ⟨_, rfl, rfl⟩ (fun h' L' hforce => ?_) ?_
      fun k' h' L' u' hforce hlt hr => ?_
    · by_contra hne
      exact hno h' (hlevel h' L' hne hforce ▸ hforce)
    · rw [hs', ← hi.now]
      exact ⟨_, Function.update_self .., le_rfl⟩
    · cases L' with
      | redis =>
        have hk : k' ≠ key := by
          rintro rfl
          exact hno h' hforce
        rw [hs']
        simpa [Recorded, Function.update_of_ne hk] using hr
      | bridge | sqlite =>
        rw [hs']
        exact hr
  | release | holder | mirror | advance | setRedis | setBridge => exact hobeys.elim

/-- **Deleting a key.** -/
theorem inv_of_delete {n : Nat} {o : Op} {key : String} {x : Option Bool} (hi : Inv t₀ w)
    (hobeys : Obeys w n o (.delete key)) (hsteady : Steady t₀ w n o (.delete key))
    (hf : Fires w ⟨n, o, .delete key, x⟩ w') : Inv t₀ w' := by
  obtain ⟨⟨i, hx⟩, -⟩ := id hf
  simp only [exec] at hx
  generalize hs' : w'.state = s' at hx
  split at hx <;> cases hx
  · cases o with
    | release k h =>
      obtain ⟨rfl, hread⟩ := hobeys
      refine inv_of_no_grant hi hf (by rw [hs']; exact hi.now) (by rw [hs'])
        (fun k' h' L u ⟨_, _, hg⟩ => by cases hg) fun k' h' L u hforce hfree hlt hr => ?_
      cases L with
      | bridge | sqlite =>
        rw [hs']
        exact hr
      | redis =>
        by_cases hk : k' = key
        · subst hk
          exfalso
          have hvalue := value_of_recorded hr hlt
          have hne : h' ≠ h := by
            rintro rfl
            exact hfree ⟨rfl, by simp [undoes, hvalue]⟩
          have hcurrent := hsteady h' hne hforce
          rw [hread, hvalue] at hcurrent
          exact hne (Option.some.inj (Option.some.inj (Option.some.inj hcurrent))).symm
        · rw [hs']
          simpa [Recorded, Function.update_of_ne hk] using hr
    | claim | holder | mirror | advance | setRedis | setBridge => exact hobeys.elim
  · exact inv_of_same hi hf rfl (fun _ _ => rfl) (by rw [hs']) (by rw [hs']) (by rw [hs']) (by rw [hs'])

/-- A claim of whole seconds ends within the second after the one recorded. -/
theorem le_of_counts {t : Time} {ttl_s e : Int} (h : truncate t + ttl_s ≤ e) : t + ttl_s ≤ (e : Time) + 1 := by
  have hcast : (truncate t : Time) + ttl_s ≤ e := by exact_mod_cast h
  linarith [Python.le_truncate_add_one t]

/-- **An assertion.** -/
theorem inv_of_assert {n : Nat} {o : Op} {subject : String} {obj : Fact} {x : Bool} (hi : Inv t₀ w)
    (hobeys : Obeys w n o (.assert subject obj)) (hsteady : Steady t₀ w n o (.assert subject obj))
    (hf : Fires w ⟨n, o, .assert subject obj, x⟩ w') : Inv t₀ w' := by
  obtain ⟨⟨i, hx⟩, -⟩ := id hf
  simp only [exec] at hx
  generalize hs' : w'.state = s' at hx
  split at hx <;> cases hx
  rotate_left
  · refine inv_of_same hi hf rfl (fun _ _ => ?_) (by rw [hs']) (by rw [hs']) (by rw [hs']) (by rw [hs'])
    cases obj <;> rfl
  rename_i hup
  cases o with
  | claim k h ttl_s =>
    obtain ⟨rfl, ⟨e, rfl, t, hbegan, hcounts⟩, x, hread, hpass⟩ := hobeys
    obtain ⟨hlevel, hother, hown⟩ := hsteady hup
    have hsole : ∀ h' L', InForce t₀ subject h' L' w → h' = h := by
      intro h' L' hforce
      by_contra hne
      obtain rfl := hlevel h' L' hne hforce
      obtain ⟨hcurrent, hseconds⟩ := hother h' hne hforce
      obtain ⟨n', u, hs, hlt⟩ := hforce
      obtain ⟨e', hfact, -⟩ := hi.recorded n' subject h' .bridge u hs hlt
      rw [hread, Option.some_inj] at hcurrent
      rcases hpass h' e' (hcurrent.trans hfact) with he | he
      · exact hne he
      · exact absurd (hseconds h' e' hfact) (not_lt.mpr he)
    have hgrant : Grants t₀ w.trace subject h .bridge (t + ttl_s) ⟨n, _, .assert subject (.claim h e), true⟩ :=
      ⟨ttl_s, rfl, by simp [decided, hbegan]⟩
    refine inv_of_grant hi hf (by rw [hs']) rfl hgrant hsole ?_ fun k' h' L' u' hforce hlt hr => ?_
    · rw [hs']
      exact ⟨e, Function.update_self .., le_of_counts hcounts⟩
    · cases L' with
      | redis | sqlite =>
        rw [hs']
        exact hr
      | bridge =>
        rw [hs']
        by_cases hk : k' = subject
        · subst hk
          obtain rfl := hsole h' .bridge hforce
          obtain ⟨e', hfact, hle⟩ := hr
          have hlater : (e' : Time) ≤ e := by exact_mod_cast hown hforce h' e' hfact
          refine ⟨e, Function.update_self .., hle.trans ?_⟩
          linarith
        · simpa [Recorded, Function.update_of_ne hk] using hr
  | release k h =>
    obtain ⟨rfl, rfl, e, hread⟩ := hobeys
    refine inv_of_no_grant hi hf (by rw [hs']; exact hi.now) (by rw [hs'])
      (fun k' h' L u ⟨_, _, hg⟩ => by cases hg) fun k' h' L u hforce hfree hlt hr => ?_
    cases L with
    | redis | sqlite =>
      rw [hs']
      exact hr
    | bridge =>
      by_cases hk : k' = subject
      · subst hk
        exfalso
        have hne : h' ≠ h := by
          rintro rfl
          exact hfree ⟨rfl, rfl⟩
        obtain ⟨e', hfact, -⟩ := hr
        have hcurrent := hsteady h' hne hforce
        rw [hread, hfact, Option.some_inj, Option.some_inj, Fact.claim.injEq] at hcurrent
        exact hne hcurrent.1.symm
      · rw [hs']
        simpa [Recorded, Function.update_of_ne hk] using hr
  | holder | mirror | advance | setRedis | setBridge => exact hobeys.elim

/-- A row written over that of a claim that stands records that it does. -/
theorem recorded_of_insert {n : Nat} {k h : String} {row : Row} {u : Time}
    (hover : Overwrites t₀ w n k row) {x : Option Row} (hread : lastRead (readRow k) n w = some x)
    (hpass : ∀ r, x = some r → r.holder = row.holder ∨ r.ttlExpires ≤ truncate w.state.now)
    (hforce : InForce t₀ k h .sqlite w) (hr : Recorded w.state k h u .sqlite) :
    h = row.holder ∧ u ≤ row.ttlExpires + 1 := by
  obtain ⟨r, hrow, rfl, hle⟩ := hr
  have hsame : r.holder = row.holder := by
    by_contra hne
    obtain ⟨hcurrent, hseconds⟩ := hover.1 r.holder hne hforce
    rw [hread, Option.some_inj] at hcurrent
    rcases hpass r (hcurrent.trans hrow) with he | he
    · exact hne he
    · exact absurd (hseconds r hrow) (not_lt.mpr he)
  have hlater : (r.ttlExpires : Time) ≤ row.ttlExpires := by
    exact_mod_cast hover.2 (hsame ▸ hforce) r hrow
  exact ⟨hsame, hle.trans (by linarith)⟩

/-- **An insertion.** -/
theorem inv_of_insert {n : Nat} {o : Op} {key : String} {row : Row} {x : Unit} (hi : Inv t₀ w)
    (hobeys : Obeys w n o (.insert key row)) (hsteady : Steady t₀ w n o (.insert key row))
    (hf : Fires w ⟨n, o, .insert key row, x⟩ w') : Inv t₀ w' := by
  obtain ⟨⟨i, hx⟩, -⟩ := id hf
  simp only [exec] at hx
  generalize hs' : w'.state = s' at hx
  cases hx
  have hkeep : Overwrites t₀ w n key row → ∀ {y : Option Row}, lastRead (readRow key) n w = some y →
      (∀ r, y = some r → r.holder = row.holder ∨ r.ttlExpires ≤ truncate w.state.now) →
      ∀ k' h' L u, InForce t₀ k' h' L w → Recorded w.state k' h' u L → Recorded w'.state k' h' u L := by
    intro hover y hread hpass k' h' L u hforce hr
    cases L with
    | redis | bridge =>
      rw [hs']
      exact hr
    | sqlite =>
      rw [hs']
      by_cases hk : k' = key
      · subst hk
        obtain ⟨rfl, hle⟩ := recorded_of_insert hover hread hpass hforce hr
        exact ⟨row, Function.update_self .., rfl, hle⟩
      · simpa [Recorded, Function.update_of_ne hk] using hr
  cases o with
  | claim k h ttl_s =>
    obtain ⟨rfl, rfl, ⟨t, hbegan, hcounts⟩, y, hread, hpass⟩ := hobeys
    obtain ⟨hlevel, hover⟩ := hsteady
    have hgrant : Grants t₀ w.trace key row.holder .sqlite (t + ttl_s) ⟨n, _, .insert key row, ()⟩ :=
      ⟨ttl_s, rfl, by simp [decided, hbegan]⟩
    refine inv_of_grant hi hf (by rw [hs']) rfl hgrant (fun h' L' hforce => ?_) ?_
      fun k' h' L' u' hforce _ => hkeep hover hread hpass k' h' L' u' hforce
    · by_contra hne
      obtain rfl := hlevel h' L' hne hforce
      obtain ⟨n', u, hs, hlt⟩ := id hforce
      exact hne (recorded_of_insert hover hread hpass hforce (hi.recorded n' key h' .sqlite u hs hlt)).1
    · rw [hs']
      exact ⟨row, Function.update_self .., rfl, le_of_counts hcounts⟩
  | mirror i =>
    obtain ⟨y, hread, hpass⟩ := hobeys
    refine inv_of_no_grant hi hf (by rw [hs']; exact hi.now) (by rw [hs'])
      (fun k' h' L u hg => ?_) fun k' h' L u hforce _ _ => hkeep hsteady hread hpass k' h' L u hforce
    obtain ⟨ttl_s, hop, -⟩ := hg
    cases hop
  | release | holder | advance | setRedis | setBridge => exact hobeys.elim

/-- **Deleting a row.** -/
theorem inv_of_deleteRow {n : Nat} {o : Op} {key : String} {x : Unit} (hi : Inv t₀ w)
    (hobeys : Obeys w n o (.deleteRow key)) (hsteady : Steady t₀ w n o (.deleteRow key))
    (hf : Fires w ⟨n, o, .deleteRow key, x⟩ w') : Inv t₀ w' := by
  obtain ⟨⟨i, hx⟩, -⟩ := id hf
  simp only [exec] at hx
  generalize hs' : w'.state = s' at hx
  cases hx
  -- no claim that stands is recorded in the row
  have hno : ∀ h' u, InForce t₀ key h' .sqlite w → ¬ Frees key h' ⟨n, o, .deleteRow key, ()⟩ →
      Recorded w.state key h' u .sqlite → False := by
    intro h' u hforce hfree hr
    cases o with
    | release k h =>
      obtain ⟨rfl, r, hread, rfl⟩ := hobeys
      have hne : h' ≠ r.holder := by
        rintro rfl
        exact hfree ⟨rfl, rfl⟩
      obtain ⟨r', hrow, rfl, -⟩ := hr
      have hcurrent := hsteady r'.holder hne hforce
      rw [hread, hrow, Option.some_inj, Option.some_inj] at hcurrent
      exact hne (hcurrent ▸ rfl)
    | mirror i => exact hsteady h' hforce
    | holder k => exact hsteady h' hforce
    | claim | advance | setRedis | setBridge => exact hobeys.elim
  refine inv_of_no_grant hi hf (by rw [hs']; exact hi.now) (by rw [hs'])
    (fun k' h' L u ⟨_, _, hg⟩ => by cases hg) fun k' h' L u hforce hfree hlt hr => ?_
  cases L with
  | redis | bridge =>
    rw [hs']
    exact hr
  | sqlite =>
    by_cases hk : k' = key
    · subst hk
      exact (hno h' u hforce hfree hr).elim
    · rw [hs']
      simpa [Recorded, Function.update_of_ne hk] using hr

/-- **One command.** -/
theorem inv_of_fires (hi : Inv t₀ w) (hobeys : Obeys w e.call e.op e.cmd)
    (hsteady : Steady t₀ w e.call e.op e.cmd) (hf : Fires w e w') : Inv t₀ w' := by
  obtain ⟨n, o, c, x⟩ := e
  cases c with
  | set key value ex => exact inv_of_set hi hobeys hsteady hf
  | delete key => exact inv_of_delete hi hobeys hsteady hf
  | assert subject obj => exact inv_of_assert hi hobeys hsteady hf
  | insert key row => exact inv_of_insert hi hobeys hsteady hf
  | deleteRow key => exact inv_of_deleteRow hi hobeys hsteady hf
  | advance t =>
    obtain ⟨⟨i, hx⟩, -⟩ := id hf
    simp only [exec] at hx
    generalize hs' : w'.state = s' at hx
    split at hx <;> cases hx
    rename_i ht
    refine inv_of_no_grant hi hf (by rw [hs']; rfl) (by rw [hs']; exact ht)
      (fun k' h' L u ⟨_, _, hg⟩ => by cases hg) fun k' h' L u _ _ _ hr => ?_
    rw [hs']
    cases L <;> exact hr
  | get key =>
    obtain ⟨⟨i, hx⟩, -⟩ := id hf
    simp only [exec] at hx
    generalize hs' : w'.state = s' at hx
    split at hx <;> cases hx <;>
      exact inv_of_same hi hf rfl (fun _ _ => rfl) (by rw [hs']) (by rw [hs']) (by rw [hs']) (by rw [hs'])
  | query subject =>
    obtain ⟨⟨i, hx⟩, -⟩ := id hf
    simp only [exec] at hx
    generalize hs' : w'.state = s' at hx
    split at hx <;> cases hx <;>
      exact inv_of_same hi hf rfl (fun _ _ => rfl) (by rw [hs']) (by rw [hs']) (by rw [hs']) (by rw [hs'])
  | time | health | select | submit | take | setRedis | setBridge =>
    obtain ⟨⟨i, hx⟩, -⟩ := id hf
    simp only [exec] at hx
    generalize hs' : w'.state = s' at hx
    cases hx
    exact inv_of_same hi hf rfl (fun _ _ => rfl) (by rw [hs']) (by rw [hs']) (by rw [hs']) (by rw [hs'])

end Steps

end ClaudeSwarm.Cascade
