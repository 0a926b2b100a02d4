import ClaudeSwarm.Interleave.History
import ClaudeSwarm.TaskQueue.Claims
import ClaudeSwarm.TaskQueue.RoundTrip

/-!
# Claims of the queue on Redis

A task is taken by the pop of `claim_task`, or by the `HSET` with which `_claim_specific` saves it as
claimed; the `HSET` of `requeue` gives it back. The save moves the member between the sorted sets in
commands of their own, so that a task whose hash says `claimed` can still be popped, and
`_claim_specific` writes a hash that may have changed since it was read.

* `Good`: a task that is taken is not pending by its hash. Every command keeps it when whoever takes
  a task finds its hash pending (`StillPending`).
* `rules`: the backend meets `Rules`.
-/

namespace ClaudeSwarm.TaskQueue.Redis

open Interleave ClaudeSwarm.Redis
open Python (PyError FloatFmt)

variable {F : FloatFmt}

/-! ## Takes and releases -/

/-- The event takes task `id`: it pops it, or saves it as claimed. -/
def take : Event (system F) → String → Prop
  | ⟨_, _, .evalClaim _ _, x⟩, id => x = some id
  | ⟨_, o, .exec [.hset id' _], _⟩, id => o.Specific ∧ id = id'
  | _, _ => False

/-- The event gives task `id` back: a `requeue` writes its hash. -/
def release : Event (system F) → String → Prop
  | ⟨_, .requeue _, .exec [.hset id' _], _⟩, id => id = id'
  | _, _ => False

/-- The hash of a task that is taken says `pending`. -/
def StillPending : Guard (system F) := fun w _ o c =>
  match c with
  | .evalClaim _ _ => ∀ m ∈ (w.state.tasks .pending).min?, hashState w.state m.1 = some "pending"
  | .exec [.hset id _] => o.Specific → hashState w.state id = some "pending"
  | _ => True

instance (w : World (system F)) (n : Nat) (o : Op) (c : Cmd) : Decidable (StillPending w n o c) :=
  match c with
  | .evalClaim _ _ => inferInstanceAs (Decidable (∀ m ∈ (w.state.tasks .pending).min?, _))
  | .exec [.hset _ _] => inferInstanceAs (Decidable (o.Specific → _))
  | .exec [] | .exec [.zadd _ _ _] | .exec [.zrem _ _] => .isTrue trivial
  | .exec (.hset _ _ :: _ :: _) | .exec (.zadd _ _ _ :: _ :: _) => .isTrue trivial
  | .exec (.zrem _ _ :: _ :: _) => .isTrue trivial
  | .now | .iso | .uuid | .host | .hgetall _ | .hgetalls _ => .isTrue trivial
  | .zscore _ _ | .zrange _ _ | .incr => .isTrue trivial

/-! ## The invariant -/

/-- A hash carries the id of its key, and the tasks of the sorted sets have hashes. -/
structure WellFormed (s : Keys) : Prop where
  known : ∀ id, (s.task id).rows ≠ [] → (s.task id).get "id" = some id
  listed : ∀ t id, Member s t id → (s.task id).rows ≠ []

/-- The store is well formed, and a task that is taken is not pending. -/
structure Good (w : World (system F)) : Prop extends WellFormed w.state where
  exclusive : ∀ id, Alternating take release id w.trace
  gone : ∀ id, Held take release id w.trace → hashState w.state id ≠ some "pending"

/-- What the hash of `t` says after `t` was written. -/
theorem hashState_hset {s : Keys} {t : Task} (id : String) :
    hashState ((Write.hset t.id (hashFields F t)).run s) id =
      if id = t.id then some t.state.str else hashState s id := by
  unfold hashState
  by_cases hid : id = t.id
  · subst hid
    rw [if_pos rfl]
    simp only [Write.run, Function.update_self]
    rw [Hash.get_set nodup_hashFields, lookup_hashFields]
    rfl
  · rw [if_neg hid]
    simp [Write.run, Function.update_of_ne hid]

theorem wellFormed_hset {s : Keys} {t : Task} (h : WellFormed s) :
    WellFormed ((Write.hset t.id (hashFields F t)).run s) := by
  refine ⟨fun id hne => ?_, fun st id hl => ?_⟩
  · by_cases hid : id = t.id
    · subst hid
      simp only [Write.run, Function.update_self]
      rw [Hash.get_set nodup_hashFields, lookup_hashFields]
      rfl
    · simp only [Write.run, Function.update_of_ne hid] at hne ⊢
      exact h.known id hne
  · by_cases hid : id = t.id
    · subst hid
      simp only [Write.run, Function.update_self]
      exact Hash.set_rows_ne_nil _ _ _
    · simpa only [Write.run, Function.update_of_ne hid] using h.listed st id hl

/-- Only a task with a hash is put into a sorted set. -/
theorem wellFormed_zadd {s : Keys} {st : TaskState} {id : String} {score : Int} (h : WellFormed s)
    (hne : (s.task id).rows ≠ []) : WellFormed ((Write.zadd st id score).run s) := by
  refine ⟨h.known, fun st' id' hl => ?_⟩
  by_cases hid : id' = id
  · exact hid ▸ hne
  · exact h.listed st' id' (((sameAt_write (w := .zadd st id score) hid).member st').mp hl)

/-- `create` keeps the store well formed. -/
theorem wellFormed_create {s : Keys} {t : Task} (h : WellFormed s) :
    WellFormed (runAll [.hset t.id (hashFields F t), .zadd .pending t.id (scoreOf t)] s) := by
  refine wellFormed_zadd (wellFormed_hset h) ?_
  simp only [Write.run, Function.update_self]
  exact Hash.set_rows_ne_nil _ _ _

theorem wellFormed_zrem {s : Keys} {st : TaskState} {id : String} (h : WellFormed s) :
    WellFormed ((Write.zrem st id).run s) := by
  refine ⟨h.known, fun st' id' hl => h.listed st' id' ?_⟩
  by_cases hst : st' = st
  · subst hst
    by_cases hid : id' = id
    · simp [Member, Write.run, hid] at hl
    · simpa [Member, Write.run, hid] using hl
  · simpa [Member, Write.run, Function.update_of_ne hst] using hl

/-- A command that touches no hash, and neither takes nor releases. -/
theorem Good.quiet {w w' : World (system F)} {e : Event (system F)} (h : Good w)
    (htrace : w'.trace = e :: w.trace) (ht : ∀ id, ¬ take e id) (hr : ∀ id, ¬ release e id)
    (htask : w'.state.task = w.state.task) (hw : WellFormed w'.state) : Good w' := by
  refine ⟨hw, fun id => ?_, fun id hheld => ?_⟩
  · rw [htrace]
    exact alternating_cons (h.exclusive id) fun htake => absurd htake (ht id)
  · rw [htrace, held_cons_iff (ht id) (hr id)] at hheld
    rw [hashState, htask]
    exact h.gone id hheld

/-- Writing the hash of a task that is pending before it is taken, and only after a release. -/
theorem Good.write {w w' : World (system F)} {e : Event (system F)} {t : Task} (h : Good w)
    (htrace : w'.trace = e :: w.trace)
    (hs : (Write.hset t.id (hashFields F t)).run w.state = w'.state)
    (ht : ∀ id, take e id → id = t.id ∧ hashState w.state id = some "pending" ∧ ¬ release e id)
    (hr : ¬ release e t.id → t.state ≠ .pending) : Good w' := by
  refine ⟨hs ▸ wellFormed_hset h.toWellFormed, fun id => ?_, fun id hheld => ?_⟩
  · rw [htrace]
    exact alternating_cons (h.exclusive id) fun htake hheld => h.gone id hheld (ht id htake).2.1
  · rw [htrace] at hheld
    rw [← hs, hashState_hset]
    have hnr : ¬ release e id := hheld.elim (fun htake => (ht id htake).2.2) And.right
    by_cases hid : id = t.id
    · subst hid
      rw [if_pos rfl]
      exact fun hst => hr hnr (TaskState.str_injective (Option.some.inj hst))
    · rw [if_neg hid]
      exact h.gone id (hheld.elim (fun htake => absurd (ht id htake).1 hid) And.left)

/-- Popping a task that is pending. -/
theorem Good.pop {w w' : World (system F)} {n : Nat} {o : Op} {now claimer id : String} {score : Int}
    (h : Good w)
    (htrace : w'.trace = ⟨n, o, Cmd.evalClaim now claimer, some id⟩ :: w.trace)
    (hm : (w.state.tasks .pending).min? = some (id, score))
    (hp : hashState w.state id = some "pending")
    (hs : runAll (claimWrites now claimer id score) w.state = w'.state) : Good w' := by
  have hne : (w.state.task id).rows ≠ [] :=
    h.listed .pending id (Option.isSome_iff_exists.mpr ⟨score, ZSet.score_of_mem (ZSet.min?_mem hm)⟩)
  have htask : w'.state.task = Function.update w.state.task id ((w.state.task id).set
      [("state", "claimed"), ("claimed_at", now), ("claimed_by", claimer)]) := by
    rw [← hs]
    rfl
  have hrows : ∀ id', (w'.state.task id').rows ≠ [] ↔ (w.state.task id').rows ≠ [] := by
    intro id'
    rw [htask]
    by_cases hid : id' = id
    · subst hid
      rw [Function.update_self]
      exact iff_of_true (Hash.set_rows_ne_nil _ _ _) hne
    · rw [Function.update_of_ne hid]
  refine ⟨⟨fun id' hn => ?_, fun st id' hl => ?_⟩, fun id' => ?_, fun id' hheld => ?_⟩
  · have hknown := h.known id' ((hrows id').mp hn)
    rw [htask]
    by_cases hid : id' = id
    · subst hid
      rw [Function.update_self, Hash.get_set_of_notMem (by simp)]
      exact hknown
    · rwa [Function.update_of_ne hid]
  · rw [hrows]
    by_cases hid : id' = id
    · exact hid ▸ hne
    · have hsame : SameAt w.state (runAll (claimWrites now claimer id score) w.state) id' :=
        sameAt_runAll (by simp [claimWrites, writeId, hid])
      exact h.listed st id' ((hsame.member st).mp (hs ▸ hl))
  · rw [htrace]
    refine alternating_cons (h.exclusive id') fun htake hheld => h.gone id' hheld ?_
    cases htake
    exact hp
  · rw [htrace] at hheld
    rw [hashState, htask]
    by_cases hid : id' = id
    · subst hid
      simp
    · rw [Function.update_of_ne hid]
      refine h.gone id' (hheld.elim (fun htake => ?_) And.left)
      cases htake
      exact absurd rfl hid

/-! ## The rules -/

/-- Whoever takes a task finds it pending. -/
abbrev queueing (F : FloatFmt) : Discipline (system F) := ⟨StillPending, Good, fun _ _ => True⟩

/-- Call `n` executed the command that takes `id`. -/
def Took (n : Nat) (id : String) (w : World (system F)) : Prop :=
  ∃ e ∈ w.trace, e.call = n ∧ take e id

theorem lasting_took {n : Nat} {id : String} : Lasting (M := system F) (Took n id) :=
  lasting_executed

/-- A hash does not go away. -/
theorem lasting_hash {id : String} :
    Lasting (M := system F) fun w => (w.state.task id).rows ≠ [] := by
  rintro w ⟨n, o, c, x⟩ ⟨s', tr⟩ ⟨⟨i, hx⟩, -⟩ h
  simp only at hx
  have hrun : ∀ ws s, (s.task id).rows ≠ [] → ((runAll ws s).task id).rows ≠ [] := by
    intro ws
    induction ws with
    | nil => exact fun _ h => h
    | cons w ws ih =>
      intro s h
      refine ih _ ?_
      cases w with
      | hset id' fields =>
        by_cases hid : id = id'
        · subst hid
          simp only [Write.run, Function.update_self]
          exact Hash.set_rows_ne_nil_of h fields
        · simpa [Write.run, Function.update_of_ne hid] using h
      | _ => exact h
  cases effect_of_exec hx with
  | read _ ht _ => exact ht ▸ h
  | exec => exact hrun _ _ h
  | empty => exact h
  | pop => exact hrun _ _ h

variable {n : Nat} {o : Op} {A : World (system F) → Prop}

theorem not_take_of_read {c : Cmd} (hc : c.IsRead) {x : Resp c} {id : String} :
    ¬ take (F := F) ⟨n, o, c, x⟩ id := by
  cases c <;> first | exact hc.elim | exact not_false

theorem not_release_of_read {c : Cmd} (hc : c.IsRead) {x : Resp c} {id : String} :
    ¬ release (F := F) ⟨n, o, c, x⟩ id := by
  cases c <;> first | exact hc.elim | (cases o <;> exact not_false)

theorem establishes_read {c : Cmd} (hc : c.IsRead) (hA : Lasting A) :
    Establishes (queueing F) n o A c fun _ => A := by
  rintro w x ⟨s', tr⟩ hi hw - hf
  refine ⟨trivial, ?_, hA _ _ _ hf hw⟩
  obtain ⟨⟨i, hx⟩, htrace⟩ := hf
  simp only at hx htrace
  cases effect_of_exec hx with
  | read _ ht hz =>
    refine hi.quiet htrace (fun _ => not_take_of_read hc) (fun _ => not_release_of_read hc) ht ?_
    refine ⟨fun id => ?_, fun st id => ?_⟩
    · simpa only [ht] using hi.known id
    · simpa only [ht, Member, hz] using hi.listed st id
  | _ => exact hc.elim

/-- Taking a member out of a sorted set. -/
theorem establishes_zrem {st : TaskState} {id : String} (hA : Lasting A) :
    Establishes (queueing F) n o A (.exec [.zrem st id]) fun _ => A := by
  rintro w x ⟨s', tr⟩ hi hw - hf
  refine ⟨trivial, ?_, hA _ _ _ hf hw⟩
  obtain ⟨⟨i, hx⟩, htrace⟩ := hf
  cases hx
  exact hi.quiet htrace (fun _ => not_false) (fun _ => by cases o <;> exact not_false) rfl
    (wellFormed_zrem hi.toWellFormed)

/-- Putting a task with a hash into a sorted set. -/
theorem establishes_zadd {st : TaskState} {id : String} {score : Int} (hA : Lasting A)
    (hne : ∀ w, A w → (w.state.task id).rows ≠ []) :
    Establishes (queueing F) n o A (.exec [.zadd st id score]) fun _ => A := by
  rintro w x ⟨s', tr⟩ hi hw - hf
  refine ⟨trivial, ?_, hA _ _ _ hf hw⟩
  obtain ⟨⟨i, hx⟩, htrace⟩ := hf
  cases hx
  exact hi.quiet htrace (fun _ => not_false) (fun _ => by cases o <;> exact not_false) rfl
    (wellFormed_zadd hi.toWellFormed (hne w hw))

/-- Saving the hash of a task: only `requeue` saves one as pending. -/
theorem establishes_hset {t : Task} (hA : Lasting A)
    (ht : t.state = .pending → ∃ id, o = .requeue id) :
    Establishes (queueing F) n o A (.exec [.hset t.id (hashFields F t)]) fun _ w =>
      A w ∧ (w.state.task t.id).rows ≠ [] ∧ (o.Specific → Took n t.id w) := by
  rintro w x ⟨s', tr⟩ hi hw hg hf
  have htook : o.Specific → Took n t.id ⟨s', tr⟩ :=
    fun ho => executed_now hf ⟨rfl, ho, rfl⟩
  refine ⟨trivial, ?_, hA _ _ _ hf hw, ?_, htook⟩
  · obtain ⟨⟨i, hx⟩, htrace⟩ := hf
    cases hx
    refine hi.write htrace rfl (fun id htake => ?_) fun hr hst => ?_
    · obtain ⟨ho, rfl⟩ := htake
      exact ⟨rfl, hg ho, by cases o <;> first | exact ho.elim | exact not_false⟩
    · obtain ⟨id', rfl⟩ := ht hst
      exact hr rfl
  · obtain ⟨⟨i, hx⟩, -⟩ := hf
    cases hx
    simp only [Function.update_self]
    exact Hash.set_rows_ne_nil _ _ _

theorem lasting_saved {t : Task} (hA : Lasting A) :
    Lasting fun w => A w ∧ (w.state.task t.id).rows ≠ [] ∧ (o.Specific → Took n t.id w) :=
  hA.and (lasting_hash.and fun w e w' hf h ho => lasting_took w e w' hf (h ho))

/-- The pop. -/
theorem establishes_pop {now claimer : String} (hA : Lasting A) :
    Establishes (queueing F) n o A (.evalClaim now claimer) fun x w =>
      A w ∧ ∀ id, x = some id → Took n id w ∧ (w.state.task id).rows ≠ [] := by
  rintro w x ⟨s', tr⟩ hi hw hg hf
  have htook : ∀ id, x = some id → Took n id ⟨s', tr⟩ := fun id hx => executed_now hf ⟨rfl, hx⟩
  have hA' := hA _ _ _ hf hw
  obtain ⟨⟨i, hx⟩, htrace⟩ := hf
  simp only at hx htrace
  cases effect_of_exec hx with
  | read hc => exact hc.elim
  | empty =>
    refine ⟨trivial, hi.quiet htrace (fun _ => nofun) (fun _ => ?_) rfl hi.toWellFormed, hA', nofun⟩
    cases o <;> exact not_false
  | @pop now claimer id score hm =>
    refine ⟨trivial, hi.pop htrace hm (hg (id, score) hm) rfl, hA', fun id' hid => ?_⟩
    refine ⟨htook id' hid, ?_⟩
    cases hid
    simp only [claimWrites, runAll_cons, runAll_nil, Write.run, Function.update_self]
    exact Hash.set_rows_ne_nil _ _ _

/-- `_save`: the hash is written, then the member moved. -/
theorem save_outline {t : Task} (hA : Lasting A)
    (ht : t.state = .pending → ∃ id, o = .requeue id) :
    Outline (queueing F) n o
      (Outcome (fun _ w => A w ∧ (o.Specific → Took n t.id w)) fun _ _ => True) (save F t) A := by
  have hP := lasting_saved (n := n) (o := o) (t := t) hA
  refine outline_cmd (c := Cmd.exec [.hset t.id (hashFields F t)]) (fun _ => _) (fun _ => hP.stable)
    (establishes_hset hA ht) fun _ => ?_
  refine outline_cmd (fun _ => _) (fun _ => hP.stable) (establishes_zrem hP) fun _ => ?_
  refine outline_cmd (fun _ => _) (fun _ => hP.stable) (establishes_zrem hP) fun _ => ?_
  refine outline_cmd (fun _ => _) (fun _ => hP.stable) (establishes_zrem hP) fun _ => ?_
  simp only
  split
  · refine outline_op (fun _ => _) (fun _ => hP.stable) (establishes_zadd hP fun w h => h.2.1)
      fun _ => outline_ret fun w _ h => ⟨h.1, h.2.2⟩
  · exact outline_ret fun w _ h => ⟨h.1, h.2.2⟩

theorem each_fromHash {ok : Cmd → Prop} (huuid : ok .uuid) (h : Hash) : (fromHash F h).Each ok :=
  ⟨huuid, fun _ => Prog.each_ofExcept _⟩

theorem each_redisGet {id : String} : (redisGet F id).Each Cmd.IsRead := by
  refine Prog.each_bind (fun data => ?_) (p := Client.getTask id) ⟨trivial, fun _ => trivial⟩
  cases data with
  | none => trivial
  | some data =>
    refine Prog.each_bind (fun _ => ?_) (each_fromHash trivial data)
    trivial

theorem each_fromHashes : ∀ hs : List Hash, (fromHashes F hs).Each Cmd.IsRead
  | [] => trivial
  | h :: hs => by
    refine Prog.each_bind (fun _ => ?_) (each_fromHash trivial h)
    refine Prog.each_bind (fun _ => ?_) (each_fromHashes hs)
    trivial

theorem each_listByState {state : TaskState} {limit : Nat} :
    (listByState F state limit).Each Cmd.IsRead := by
  refine Prog.each_bind (fun raw => each_fromHashes raw) ?_
  refine each_cmd (c := .zrange state (limit - 1)) trivial fun ids => ?_
  split
  · trivial
  · exact each_cmd (c := .hgetalls ids) trivial fun _ => trivial

theorem plain_of_reads {α : Type} {p : P α} (h : p.Each Cmd.IsRead) : Plain (queueing F) p :=
  fun _ _ => outline_of_each stable_true (fun _ hc => establishes_read hc lasting_pure) h

/-- A read and what follows, when its answer does not matter. -/
theorem read_then {α : Type} {Q : Except PyError α → World (system F) → Prop} {c : Cmd}
    {f : Resp c → P α} (hc : c.IsRead) (hA : Lasting A)
    (hf : ∀ x, Outline (queueing F) n o Q (f x) A) :
    Outline (queueing F) n o Q (cmd c >>= f) A :=
  outline_cmd (fun _ => A) (fun _ => hA.stable) (establishes_read hc hA) hf

/-- A task that is read carries the id of its key. -/
theorem redisGet_outline {id : String} (hA : Lasting A) :
    Outline (queueing F) n o
      (Outcome (fun task w => A w ∧ ∀ t, task = some t → t.id = id) fun _ _ => True)
      (redisGet F id) A := by
  refine outline_cmd (c := Cmd.hgetall id)
    (fun (x : Hash) w => A w ∧ (x.rows ≠ [] → x.get "id" = some id))
    (fun _ => (hA.and lasting_pure).stable) (fun w x w' hi hw hg hf => ?_) fun x => ?_
  · obtain ⟨-, hi', hw'⟩ := establishes_read (c := .hgetall id) trivial hA w x w' hi hw hg hf
    obtain ⟨⟨i, hx⟩, -⟩ := hf
    have hx : w.state.task id = x := (Prod.mk.inj (Option.some.inj hx)).1
    refine ⟨trivial, hi', hw', ?_⟩
    rw [← hx]
    exact hi.known id
  · dsimp only
    by_cases hx : x.rows = []
    · rw [if_pos hx]
      exact outline_ret fun w _ h => ⟨h.1, fun _ he => absurd he (by simp)⟩
    · rw [if_neg hx]
      refine read_then (c := .uuid) trivial (hA.and lasting_pure) fun uuid => ?_
      show Outline (queueing F) n o _ ((Prog.ofExcept (Task.fromDict F uuid (dictOf x)) : P Task) >>= _) _
      cases ht : Task.fromDict F uuid (dictOf x) with
      | error e => exact outline_raise fun _ _ _ => trivial
      | ok t =>
        refine outline_ret fun w _ h => ⟨h.1, fun t' he => ?_⟩
        cases he
        exact Task.fromDict_id (by simp [dictOf, h.2 hx]) ht

/-- `_redis_claim`: pop, read, mark. -/
theorem redisClaim_outline {claimer : String} :
    Outline (queueing F) n o (TookIt Took n) (redisClaim F claimer) fun _ => True := by
  refine read_then (c := .now) trivial lasting_pure fun now => ?_
  refine outline_cmd (c := Cmd.evalClaim (F.str now) claimer)
    (fun x w => ∀ id, x = some id → Took n id w) (fun x => Lasting.stable ?_)
    (fun w x w' hi hw hg hf => ?_) fun x => ?_
  · exact fun w e w' hf h id hx => lasting_took w e w' hf (h id hx)
  · obtain ⟨hr, hi', -, hx⟩ := establishes_pop (A := fun _ => True) lasting_pure w x w' hi hw hg hf
    exact ⟨hr, hi', fun id h => (hx id h).1⟩
  cases x with
  | none => exact outline_ret fun _ _ _ => trivial
  | some id =>
    simp only
    split
    · exact outline_ret fun _ _ _ => trivial
    refine outline_pre (P := Took n id) (fun w _ h => h id rfl) ?_
    refine outline_bind (R := fun task w => Took n id w ∧ ∀ t, task = some t → t.id = id)
      (fun task => ?_) (outline_mono (fun _ _ h => h)
        (fun r _ _ h => by cases r with | ok _ => exact h | error _ => trivial)
        (redisGet_outline lasting_took))
    cases task with
    | none => exact outline_ret fun _ _ _ => trivial
    | some t =>
      refine outline_pre (P := fun w => Took n t.id w) (fun w _ h => (h.2 t rfl).symm ▸ h.1) ?_
      refine read_then (c := .now) trivial lasting_took fun now => ?_
      exact outline_cmd (fun _ => _) (fun _ => (lasting_saved lasting_took).stable)
        (establishes_hset (t := { t with state := .claimed, claimedBy := claimer, claimedAt := now })
          lasting_took nofun)
        fun _ => outline_ret fun _ _ h => h.1

/-- **Redis meets the rules.** -/
theorem rules : Rules (queueing F) Took where
  get _ := plain_of_reads each_redisGet
  list _ _ := plain_of_reads each_listByState
  now := plain_of_reads ⟨trivial, fun _ => trivial⟩
  saveClaimed n o t ho ht :=
    outline_mono (fun _ _ h => h)
      (fun r _ _ h => by cases r with | ok _ => exact h.2 ho | error _ => trivial)
      (save_outline lasting_pure fun hp => nomatch hp.symm.trans ht)
  saveMoved n o t ht := by
    exact outline_mono (fun _ _ h => h) (fun _ _ _ _ => trivial)
      (save_outline lasting_pure fun hp => requeue_of_moves ht hp)
  next _ _ _ _ := redisClaim_outline

/-- What holds of every run in which whoever takes a task finds it pending. -/
theorem run_queueing {s : Keys} {c : Config (system F)} (hs : WellFormed s)
    (h : Run StillPending (.init s) c) : Sound (queueing F) (ClaimOutcome Took) c :=
  run_sound (D := queueing F)
    (fun n o => outline_pre (fun _ _ _ => trivial) (prog_outline rules n o))
    ⟨hs, fun _ => trivial, fun _ h => h.elim⟩ h

end ClaudeSwarm.TaskQueue.Redis
