import ClaudeSwarm.SwarmRedis.Text
import Mathlib.Data.List.Pairwise

/-!
# Claims on Redis

`redis_client.claim_task` pops and marks a task in one script. `claim_task(task_id)` first asks for
the score of the task and then, in a second round trip, moves it: whoever popped or moved the task in
between has claimed it too (`claim_races_pop`).

* `Once` keeps what was claimed out of `tasks:pending`; every command of a claim preserves it
  (`once_preserved`) when the move finds its task pending (`StillPending`).
* **`claims_once`**: in every such run at most one call claims a task, and every other one raises
  `FileNotFoundError`, claims another task or finds none.
-/

namespace ClaudeSwarm.SwarmRedis

open Interleave Data Redis
open Python (PyError FloatFmt)

variable {F : FloatFmt}

/-! ## What a command claims -/

/-- The task an event claims: the one it moves, or the one it pops. -/
def taken : Event (system F) → Option String
  | ⟨_, o, .exec _, _⟩ => match o with
    | .claim task_id => some task_id
    | _ => none
  | ⟨_, _, .evalClaim _ _, x⟩ => x
  | _ => none

/-- Only the three claims run, and `claim_task` moves a task that is still pending. -/
def StillPending : Guard (system F) := fun w _ o c =>
  match o with
  | .claim task_id =>
    match c with
    | .exec _ => ((w.state.tasks .pending).score task_id).isSome
    | _ => True
  | .claimNext | .clientClaim _ => True
  | _ => False

instance (w : World (system F)) (n : Nat) (o : Op) (c : Cmd) : Decidable (StillPending w n o c) := by
  unfold StillPending
  split
  · split <;> infer_instance
  all_goals infer_instance

/-- The guard, and what the programs say. -/
abbrev Claiming (F : FloatFmt) : Guard (system F) := fun w n o c => StillPending w n o c ∧ Text F o c

/-- The `data` of a hash, if any, is the text of an object. -/
def DataOk (h : Hash) : Prop := ∀ text, h.get "data" = some text → ∃ d, Json.loads text = some (.obj d)

/-- No task was claimed twice, and none that was claimed is pending. -/
structure Once (w : World (system F)) : Prop where
  once : w.trace.Pairwise fun e e' => ∀ id, taken e = some id → taken e' ≠ some id
  gone : ∀ id, (∃ e ∈ w.trace, taken e = some id) → (w.state.tasks .pending).score id = none
  data : ∀ id, DataOk (w.state.task id)

/-- An event that claims nothing and leaves the sorted set alone. -/
theorem Once.keep {w w' : World (system F)} {e : Event (system F)} (h : Once w)
    (htrace : w'.trace = e :: w.trace) (ht : taken e = none)
    (hz : w'.state.tasks .pending = w.state.tasks .pending)
    (hdata : ∀ id, DataOk (w'.state.task id)) : Once w' := by
  refine ⟨?_, fun id ⟨e', he', hid⟩ => ?_, hdata⟩
  · rw [htrace, List.pairwise_cons]
    exact ⟨fun e' _ id hid => by simp [ht] at hid, h.once⟩
  · rw [htrace, List.mem_cons] at he'
    rcases he' with rfl | he'
    · simp [ht] at hid
    · rw [hz]
      exact h.gone id ⟨e', he', hid⟩

/-- An event that claims a pending task and takes it out of the sorted set. -/
theorem Once.take {w w' : World (system F)} {e : Event (system F)} {id : String} (h : Once w)
    (htrace : w'.trace = e :: w.trace) (ht : taken e = some id)
    (hp : ((w.state.tasks .pending).score id).isSome)
    (hz : w'.state.tasks .pending = (w.state.tasks .pending).erase id)
    (hdata : ∀ id, DataOk (w'.state.task id)) : Once w' := by
  refine ⟨?_, fun id' ⟨e', he', hid⟩ => ?_, hdata⟩
  · rw [htrace, List.pairwise_cons]
    refine ⟨fun e' he' id' hid hid' => ?_, h.once⟩
    rw [ht] at hid
    cases hid
    rw [h.gone id ⟨e', he', hid'⟩] at hp
    cases hp
  · rw [hz, ZSet.score_erase]
    rw [htrace, List.mem_cons] at he'
    rcases he' with rfl | he'
    · rw [ht] at hid
      cases hid
      exact if_pos rfl
    · rw [h.gone id' ⟨e', he', hid⟩, ite_self]

/-- A claim's marks leave the `data` of every hash alone. -/
theorem dataOk_hset {s : Keys} {id : String} {fields : List (String × String)}
    (hf : "data" ∉ fields.map Prod.fst) (h : ∀ id, DataOk (s.task id)) :
    ∀ id', DataOk (((Write.hset id fields).run s).task id') := by
  intro id'
  by_cases hid : id' = id
  · subst hid
    intro text ht
    simp only [Write.run, Function.update_self, Hash.get_set_of_notMem hf] at ht
    exact h id' text ht
  · simpa [Write.run, Function.update_of_ne hid] using h id'

theorem once_preserved : Preserved (Claiming F) Once := by
  rintro w ⟨n, o, c, x⟩ ⟨s', tr⟩ h ⟨hg, htext⟩ ⟨⟨i, hx⟩, htrace⟩
  simp only at htrace hx
  cases effect_of_exec hx with
  | read hc ht hz =>
    refine h.keep htrace ?_ (congrFun hz _) (fun id => congrFun ht id ▸ h.data id)
    cases c <;> first | rfl | exact hc.elim
  | exec =>
    cases o with
    | claim id =>
      obtain ⟨score, host, at_, rfl⟩ := htext _ rfl
      refine h.take htrace rfl hg ?_ ?_
      · simp [claimWrites, Write.run]
      · exact dataOk_hset (by simp) h.data
    | claimNext => exact (htext _ rfl).elim
    | clientClaim => exact (htext _ rfl).elim
    | _ => exact hg.elim
  | empty hm => exact h.keep htrace rfl rfl h.data
  | @pop now claimer id score hm =>
    refine h.take htrace rfl ?_ ?_ ?_
    · exact Option.isSome_iff_exists.mpr ⟨score, ZSet.score_of_mem (ZSet.min?_mem hm)⟩
    · simp [Redis.claimWrites, Write.run]
    · exact dataOk_hset (by simp) h.data

/-! ## What a claim ends with -/

/-- Call `n` executed a command that claims `id`. -/
def Took (n : Nat) (id : String) (w : World (system F)) : Prop :=
  ∃ e ∈ w.trace, e.call = n ∧ taken e = some id

/-- The `FileNotFoundError` of `claim_task`. -/
def notFound (task_id : String) : PyError :=
  .fileNotFound ("Task " ++ task_id ++ " not found in pending")

/-- The outcome of a claim. -/
def ClaimOutcome (n : Nat) : (o : Op) → Except PyError (Ret o) → World (system F) → Prop
  | .claim id, .ok _, w => Took n id w
  | .claim id, .error e, _ => e = notFound id
  | .claimNext, .ok (some _), w => ∃ id, Took n id w
  | .clientClaim _, .ok (some id), w => Took n id w
  | .claimNext, .error _, _ | .clientClaim _, .error _, _ => False
  | _, _, _ => True

variable {n : Nat} {o : Op}

/-- The discipline of the claims. -/
abbrev claiming (F : FloatFmt) : Discipline (system F) := keeping (Claiming F) Once

theorem lasting_took {id : String} : Lasting (M := system F) (Took n id) := lasting_executed

section Reading

variable {α : Type} {Q : Except PyError α → World (system F) → Prop} {A : World (system F) → Prop}

/-- A read whose answer does not matter. -/
theorem read_outline {c : Cmd} {f : Resp c → P α} (hA : Lasting A)
    (hf : ∀ x, Outline (claiming F) n o Q (f x) A) :
    Outline (claiming F) n o Q (cmd c >>= f) A :=
  once_preserved.outline_cmd hA (fun _ => True) (fun _ _ _ _ _ => trivial) fun x _ => hf x

/-- `get_task` answers a hash whose `data` is the text of an object. -/
theorem getTask_outline {id : String} {f : Option Hash → P α} (hA : Lasting A)
    (hnone : Outline (claiming F) n o Q (f none) A)
    (hsome : ∀ task, DataOk task → Outline (claiming F) n o Q (f (some task)) A) :
    Outline (claiming F) n o Q (Client.getTask id >>= f) A := by
  refine once_preserved.outline_cmd (c := .hgetall id) hA DataOk (fun w x w' hi hf => ?_)
    fun x hx => ?_
  · obtain ⟨⟨i, hx⟩, -⟩ := hf
    obtain ⟨hx, -⟩ := Prod.mk.inj (Option.some.inj hx)
    simp only at hx
    exact hx ▸ hi.data id
  · show Outline _ _ _ _ (f (if x.rows = [] then none else some x)) A
    split
    · exact hnone
    · exact hsome x hx

/-- With good data the claims return what they read. -/
theorem claimedData_outline {task : Hash} {host : String} {f : Json → P α} (hA : Lasting A)
    (hd : DataOk task) (hf : ∀ j, Outline (claiming F) n o Q (f j) A) :
    Outline (claiming F) n o Q (claimedData task host >>= f) A := by
  unfold claimedData
  cases hdata : task.get "data" with
  | none =>
    rw [if_pos rfl]
    exact hf _
  | some text =>
    rw [if_neg (by simp)]
    obtain ⟨d, hload⟩ := hd text hdata
    refine read_outline (c := .iso) hA fun now => ?_
    simp only [taskData, hdata, hload]
    exact hf _

end Reading

theorem claim_outline {id : String} {A : World (system F) → Prop} :
    Outline (claiming F) n (.claim id) (ClaimOutcome n (.claim id)) (claimTask id) A := by
  refine outline_pre (P := fun _ => True) (fun _ _ _ => trivial) ?_
  refine read_outline (c := .host) lasting_pure fun host =>
    read_outline (c := .zscore .pending id) lasting_pure fun score => ?_
  cases score with
  | none => exact outline_raise fun _ _ _ => rfl
  | some score =>
    refine read_outline (c := .iso) lasting_pure fun at_ => ?_
    refine outline_cmd (fun _ => Took n id) (fun _ => lasting_took.stable)
      (once_preserved.establishes fun w x w' _ _ _ hf => executed_now hf ⟨rfl, rfl⟩) fun _ => ?_
    refine getTask_outline lasting_took (outline_ret fun _ _ h => h) fun task hd => ?_
    show Outline (claiming F) _ _ _ (claimedData task host) _
    rw [← Prog.bind_ret (claimedData task host)]
    exact claimedData_outline lasting_took hd fun j => outline_ret fun _ _ h => h

/-- A pop, and what follows it. -/
theorem pop_outline {α : Type} {Q : Except PyError α → World (system F) → Prop} {claimer : String}
    {f : Option String → P α} (hnone : Outline (claiming F) n o Q (f none) fun _ => True)
    (hsome : ∀ id, Outline (claiming F) n o Q (f (some id)) (Took n id)) :
    Outline (claiming F) n o Q (Client.claimTask F claimer >>= f) fun _ => True := by
  refine read_outline (c := .now) lasting_pure fun now => ?_
  refine outline_cmd (M := system F) (c := Cmd.evalClaim (F.str now) claimer)
    (fun x w => ∀ id, x = some id → Took n id w)
    (fun x => Lasting.stable fun w e w' hf h id hx => lasting_took w e w' hf (h id hx))
    (once_preserved.establishes fun w x w' _ _ _ hf id hx => executed_now hf ⟨rfl, hx⟩) fun x => ?_
  cases x with
  | none => exact outline_pre (fun _ _ _ => trivial) hnone
  | some id => exact outline_pre (fun w _ h => h id rfl) (hsome id)

theorem prog_outline (n : Nat) (o : Op) (A : World (system F) → Prop) :
    Outline (claiming F) n o (ClaimOutcome n o) (prog F o) A := by
  refine outline_pre (P := fun _ => True) (fun _ _ _ => trivial) ?_
  have hplain : Outline (claiming F) n o (fun _ _ => True) (prog F o) fun _ => True :=
    outline_of_each stable_true
      (fun c _ => once_preserved.establishes fun _ _ _ _ _ _ _ => trivial)
      (Prog.each_true (prog F o))
  cases o with
  | claim id => exact claim_outline
  | claimNext =>
    refine read_outline (c := .host) lasting_pure fun host => ?_
    refine pop_outline (outline_ret fun _ _ _ => trivial) fun id => ?_
    refine getTask_outline lasting_took (outline_ret fun _ _ _ => trivial) fun task hd => ?_
    exact claimedData_outline lasting_took hd fun j => outline_ret fun _ _ h => ⟨id, h⟩
  | clientClaim claimer =>
    show Outline (claiming F) _ _ _ (Client.claimTask F claimer) _
    rw [← Prog.bind_ret (Client.claimTask F claimer)]
    exact pop_outline (outline_ret fun _ _ _ => trivial) fun id => outline_ret fun _ _ h => h
  | _ => exact outline_mono (fun _ _ h => h) (fun r _ _ _ => by cases r <;> trivial) hplain

/-! ## Exclusion -/

/-- The three claims. -/
def Op.IsClaim : Op → Prop
  | .claim _ | .claimNext | .clientClaim _ => True
  | _ => False

/-- Call `n` returned task `id` as claimed. What `claim_next_task` returns is the task it popped. -/
inductive Claims (c : Config (system F)) (n : Nat) (id : String) : Prop
  | specific {j : Json} (h : c.Returned n (.claim id) j)
  | next {j : Json} (h : c.Returned n .claimNext (some j)) (ht : Took n id c.world)
  | client {claimer : String} (h : c.Returned n (.clientClaim claimer) (some id))

/-- A claim that ended without a task: it raised `FileNotFoundError`, or nothing was pending. -/
def Misses : (o : Op) → Except PyError (Ret o) → Prop
  | .claim id, .error e => e = notFound id
  | .claimNext, .ok none | .clientClaim _, .ok none => True
  | _, _ => False

theorem run_claims {s : Keys} {c : Config (system F)} (hs : ∀ id, DataOk (s.task id))
    (h : Run StillPending (.init s) c) : Sound (claiming F) ClaimOutcome c := by
  refine run_sound (D := claiming F) (fun n o => prog_outline n o _) ?_ (run_text h)
  exact ⟨List.Pairwise.nil, fun _ ⟨_, he, _⟩ => absurd he List.not_mem_nil, hs⟩

theorem Claims.took {c : Config (system F)} (h : Sound (claiming F) ClaimOutcome c) {n : Nat}
    {id : String} (hc : Claims c n id) : Took n id c.world := by
  cases hc with
  | specific hr => exact h.returned hr
  | next _ ht => exact ht
  | client hr => exact h.returned hr

/-- **Claims are exclusive** in every run of claims in which `claim_task` moves only tasks that are
still pending: a task is claimed by at most one call, and a call that ended claimed a task or found
none. -/
theorem claims_once {s : Keys} {c : Config (system F)} (hs : ∀ id, DataOk (s.task id))
    (h : Run StillPending (.init s) c) :
    (∀ id n m, Claims c n id → Claims c m id → n = m) ∧
      ∀ n o r, o.IsClaim → c.Ended n o r → (∃ id, Claims c n id) ∨ Misses o r := by
  have hsound := run_claims hs h
  refine ⟨fun id n m hn hm => ?_, fun n o r ho hr => ?_⟩
  · obtain ⟨e, he, rfl, ht⟩ := hn.took hsound
    obtain ⟨e', he', rfl, ht'⟩ := hm.took hsound
    by_contra hne
    have hsymm : Std.Symm fun e e' : Event (system F) =>
        ∀ id, taken e = some id → taken e' ≠ some id := ⟨fun _ _ h id h₁ h₂ => h id h₂ h₁⟩
    exact hsound.inv.once.forall he he' (fun h => hne (congrArg Event.call h)) id ht ht'
  · have hq := hsound.ended hr
    cases o with
    | claim id =>
      cases r with
      | ok j => exact Or.inl ⟨id, .specific hr⟩
      | error e => exact Or.inr hq
    | claimNext =>
      match r, hr, hq with
      | .ok none, _, _ => exact Or.inr trivial
      | .ok (some j), hr, ⟨id, ht⟩ => exact Or.inl ⟨id, .next hr ht⟩
    | clientClaim claimer =>
      match r, hr, hq with
      | .ok none, _, _ => exact Or.inr trivial
      | .ok (some id), hr, _ => exact Or.inl ⟨id, .client hr⟩
    | _ => exact ho.elim

/-! ## The race -/

/-- One pending task. -/
def onePending : Keys :=
  runAll (Client.createWrites Python.wholeSeconds "task-0001" (.obj []) 5 0 0) .empty

theorem onePending_data : ∀ id, DataOk (onePending.task id) := by
  intro id text ht
  by_cases hid : id = "task-0001"
  · subst hid
    have hdata : (onePending.task "task-0001").get "data" = some "{}" := by decide +kernel
    cases hdata.symm.trans ht
    exact ⟨[], rfl⟩
  · simp only [onePending, Client.createWrites, runAll_cons, runAll_nil, Write.run,
      Function.update_of_ne hid] at ht
    cases ht

/-- A host, at the epoch. -/
def host (name : String) : Env := ⟨0, "1970-01-01T00:00:00Z", "u", name⟩

/-- `a` asks for the score of the task, `b` pops it and returns, `a` goes on and returns it too. -/
def askThenPop : List (Act (system Python.wholeSeconds)) :=
  solo (system _) 0 (.claim "task-0001") 2 (host "a") ++
    solo (system _) 1 (.clientClaim "b") 2 (host "b") ++ List.replicate 4 (.step 0 (host "a"))

/-- Calls `0` and `1` both returned the task. -/
def bothClaimed (c : Config (system F)) : Bool :=
  match c.proc 0, c.proc 1 with
  | some ⟨.claim id, .ret _⟩, some ⟨.clientClaim _, .ret (some id')⟩ =>
    id = "task-0001" ∧ id' = "task-0001"
  | _, _ => false

theorem claims_of_bothClaimed {c : Config (system F)} (h : bothClaimed c = true) :
    Claims c 0 "task-0001" ∧ Claims c 1 "task-0001" := by
  unfold bothClaimed at h
  split at h
  · rename_i h₀ h₁
    obtain ⟨rfl, rfl⟩ := of_decide_eq_true h
    exact ⟨.specific h₀, .client h₁⟩
  · cases h

/-- Two calls claim one task. -/
theorem claim_races_pop : ∃ (s : Keys) (c : Config (system Python.wholeSeconds)),
    (∀ id, DataOk (s.task id)) ∧ Run Free (.init s) c ∧
      ∃ id n m, n ≠ m ∧ Claims c n id ∧ Claims c m id := by
  have hplay : (play Free (.init onePending) askThenPop).any bothClaimed = true := by
    decide +kernel
  obtain ⟨c, hrun, hc⟩ := exists_run_of_play hplay
  obtain ⟨h₀, h₁⟩ := claims_of_bothClaimed hc
  exact ⟨onePending, c, onePending_data, hrun, _, 0, 1, by decide, h₀, h₁⟩

/-- `a` moves the task, then `b` finds nothing to pop. -/
def moveThenPop : List (Act (system Python.wholeSeconds)) :=
  solo (system _) 0 (.claim "task-0001") 6 (host "a") ++
    solo (system _) 1 (.clientClaim "b") 2 (host "b")

theorem moveThenPop_plays :
    (play (M := system Python.wholeSeconds) StillPending (.init onePending) moveThenPop).isSome := by
  decide +kernel

theorem claims_once_moveThenPop :
    (∀ id n m, Claims (played StillPending _ moveThenPop moveThenPop_plays) n id →
        Claims (played StillPending _ moveThenPop moveThenPop_plays) m id → n = m) ∧
      ∀ n o r, o.IsClaim → (played StillPending _ moveThenPop moveThenPop_plays).Ended n o r →
        (∃ id, Claims (played StillPending _ moveThenPop moveThenPop_plays) n id) ∨ Misses o r :=
  claims_once onePending_data (run_played moveThenPop_plays)

end ClaudeSwarm.SwarmRedis
