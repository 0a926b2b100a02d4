import Mathlib.Data.List.TakeWhile
import ClaudeSwarm.Pipeline.Realize

/-!
# The iterations of a loop

A stage with a `loop_to` that keeps failing is to run `max(1, max_iterations)` times. The loop is in the branch of
`execute` for a batch of one stage; a stage that is ready together with others runs once. A stage that loops to
itself runs twice in an iteration, and one to which an earlier stage loops has run before its own batch.

* `endings_own`: a stage in its own batch.
* **`budget_iff`**: in every run the stage keeps to its iterations exactly when none of this is so (`RetriesAlone`).
* `exists_spent`, `exists_early`: the runs that leave the budget otherwise.
* `batched_once`: a stage in a batch of two.
-/

namespace ClaudeSwarm.Pipeline

open Interleave.Prog Python

/-- The outcomes of the executions of a stage. -/
def endings (stage : Stage) (es : List Event) : List Bool :=
  es.filterMap fun e => match e with
    | .ended s b => if s = stage then some b else none
    | _ => none

/-- A stage that is reached and keeps failing runs `max(1, max_iterations)` times, and the pipeline fails; once it
has completed the pipeline fails through another stage only. -/
def WithinBudget (p : Pipeline) (stage : Stage) (es : List Event) (status : Status) : Prop :=
  endings stage es ≠ [] →
    (true ∉ endings stage es → ((endings stage es).length : Int) = max 1 stage.maxIterations ∧ status = .failed) ∧
    (true ∈ endings stage es → status = .failed →
      ∃ s ∈ p.stages, s ≠ stage ∧ (endings s es).getLast? = some false)

/-- The batches before the stage's own: all of them if it has none. -/
def earlier (p : Pipeline) (stage : Stage) : List (List Stage) :=
  p.topologicalOrder.takeWhile fun batch => stage ∉ batch

/-- No earlier stage alone in its batch loops to the stage, and if it has iterations it is alone in its batch and
loops to another stage. -/
def RetriesAlone (p : Pipeline) (stage : Stage) : Prop :=
  (∀ s, [s] ∈ earlier p stage → loopTarget p s = some stage → s.maxIterations ≤ 1) ∧
  (stage ∈ p.topologicalOrder.flatten →
    stage.maxIterations ≤ 1 ∨ [stage] ∈ p.topologicalOrder ∧ loopTarget p stage ≠ some stage)

variable {p : Pipeline} {s stage target : Stage} {es es' : List Event} {batch : List Stage}
  {batches : List (List Stage)} {ok : Bool}

@[simp] theorem endings_nil : endings s [] = [] := rfl

@[simp] theorem endings_append : endings s (es ++ es') = endings s es ++ endings s es' := List.filterMap_append

@[simp] theorem endings_began : endings s (.began stage :: es) = endings s es := rfl

@[simp] theorem endings_looped : endings s (.looped stage target :: es) = endings s es := rfl

@[simp] theorem endings_ended_self {b : Bool} : endings s (.ended s b :: es) = b :: endings s es := by
  simp [endings]

theorem endings_ended {b : Bool} (h : stage ≠ s) : endings s (.ended stage b :: es) = endings s es := by
  simp [endings, h]

theorem endings_eq_nil (h : ∀ e ∈ es, e.stage ≠ s) : endings s es = [] := by
  refine List.filterMap_eq_nil_iff.mpr fun e he => ?_
  cases e with
  | ended stage b =>
    have hne : stage ≠ s := h _ he
    simp [hne]
  | began stage => rfl
  | looped stage target => rfl

theorem endings_part : endings s (part Event.stage s es) = endings s es := by
  induction es with
  | nil => rfl
  | cons e es ih =>
    by_cases he : e.stage = s
    · rw [part, List.filter_cons_of_pos (by simpa using he), ← part]
      cases e with
      | ended stage b =>
        obtain rfl : stage = s := he
        rw [endings_ended_self, endings_ended_self, ih]
      | began stage => exact ih
      | looped stage target => exact ih
    · rw [part, List.filter_cons_of_neg (by simpa using he), ← part, ih]
      cases e with
      | ended stage b => exact (endings_ended he).symm
      | began stage => rfl
      | looped stage target => rfl

/-! ## One batch -/

theorem stage_of_reruns {n : Nat} (h : Reruns stage target n es ok) :
    ∀ e ∈ es, e.stage = stage ∨ e.stage = target := by
  have hround : ∀ {a b : Bool}, ∀ e ∈ [Event.looped stage target, .began target, .ended target a, .began stage,
      .ended stage b], e.stage = stage ∨ e.stage = target := by
    intro a b e he
    rcases (by simpa using he : e = _ ∨ e = _ ∨ e = _ ∨ e = _ ∨ e = _) with rfl | rfl | rfl | rfl | rfl
    · exact Or.inl rfl
    · exact Or.inr rfl
    · exact Or.inr rfl
    · exact Or.inl rfl
    · exact Or.inl rfl
  induction h with
  | spent => simp
  | passed a => exact hround
  | again a h ih => exact fun e he => (List.mem_append.mp he).elim (hround e) (ih e)

/-- The executions of a looping stage in its loop. -/
theorem endings_reruns {n : Nat} (h : Reruns stage target n es ok) (hne : target ≠ stage) :
    ok = false ∧ endings stage es = List.replicate n false ∨
      ok = true ∧ true ∈ endings stage es := by
  induction h with
  | spent => exact Or.inl ⟨rfl, rfl⟩
  | passed a => exact Or.inr ⟨rfl, by simp [endings_ended hne]⟩
  | again a h ih =>
    rcases ih with ⟨hok, he⟩ | ⟨hok, he⟩
    · exact Or.inl ⟨hok, by simp [endings_ended hne, he, List.replicate_succ]⟩
    · exact Or.inr ⟨hok, by simp [endings_ended hne, he]⟩

/-- A loop that fails ends with its stage failing. -/
theorem last_reruns {n : Nat} (h : Reruns stage target n es ok) (hok : ok = false) :
    (endings stage es).getLast?.getD false = false := by
  induction h with
  | spent => rfl
  | passed a => cases hok
  | @again n es ok a h ih =>
    have hlast := ih hok
    rw [endings_append, List.getLast?_append]
    cases hes : (endings stage es).getLast? with
    | some b =>
      rw [hes] at hlast
      exact hlast
    | none => 
      by_cases hne : target = stage
      · subst hne
        simp
      · simp [endings_ended hne]

/-- A batch and a stage that is not in it. -/
theorem endings_other (h : BatchRun p batch es ok) (hs : s ∉ batch)
    (hloop : ∀ v, batch = [v] → loopTarget p v = some s → v.maxIterations ≤ 1) : endings s es = [] := by
  rcases batchRun_cases h with ⟨stage, rfl, halone⟩ | ⟨-, htogether⟩
  · have hne : stage ≠ s := fun he => hs (he ▸ List.mem_singleton_self _)
    cases halone with
    | passed => simp [endings_ended hne]
    | failed _ => simp [endings_ended hne]
    | @looped target es ok htarget hes =>
      by_cases htargets : target = s
      · have hmax := hloop stage rfl (htargets ▸ htarget)
        have hzero : (stage.maxIterations - 1).toNat = 0 := by omega
        rw [hzero] at hes
        cases hes
        simp [endings_ended hne]
      · have hes' : endings s es = [] := endings_eq_nil fun e he =>
          (stage_of_reruns hes e he).elim (fun h => h ▸ hne) fun h => h ▸ htargets
        simp [endings_ended hne, hes']
  · exact endings_eq_nil fun e he hes => hs (hes ▸ htogether.only e he)

/-- A stage of a batch in threads runs once. -/
theorem endings_together (h : TogetherRun batch es ok) (hs : s ∈ batch) :
    ∃ b, endings s es = [b] ∧ (ok = true → b = true) := by
  obtain ⟨b, hpart, hb⟩ := h.once s hs
  refine ⟨b, ?_, hb⟩
  rw [← endings_part, hpart]
  simp

theorem aloneRun_failed (h : AloneRun p stage es ok) (hok : ok = false) :
    (endings stage es).getLast? = some false := by
  cases h with
  | passed => cases hok
  | failed _ => simp
  | looped htarget hes =>
    have hlast := last_reruns hes hok
    rw [endings_append, List.getLast?_append]
    cases he : (endings stage _).getLast? with
    | some b =>
      rw [he, Option.getD_some] at hlast
      rw [hlast]
      rfl
    | none => simp

/-- A batch that fails has a stage that failed last. -/
theorem batch_failed (h : BatchRun p batch es false) : ∃ s ∈ batch, (endings s es).getLast? = some false := by
  rcases batchRun_cases h with ⟨stage, rfl, halone⟩ | ⟨-, htogether⟩
  · exact ⟨stage, List.mem_singleton_self _, aloneRun_failed halone rfl⟩
  · obtain ⟨s, hs, hmem⟩ := htogether.failed rfl
    obtain ⟨b, hb, -⟩ := endings_together htogether hs
    have hin : false ∈ endings s es := List.mem_filterMap.mpr ⟨_, hmem, by simp⟩
    rw [hb, List.mem_singleton] at hin
    exact ⟨s, hs, by rw [hb, ← hin]; rfl⟩

theorem run_failed (h : Run p batches es ok) (hok : ok = false) :
    ∃ s ∈ batches.flatten, (endings s es).getLast? = some false := by
  induction h with
  | done => cases hok
  | stopped h =>
    obtain ⟨s, hs, hlast⟩ := batch_failed h
    exact ⟨s, List.mem_append_left _ hs, hlast⟩
  | next h _ ih =>
    obtain ⟨s, hs, hlast⟩ := ih hok
    refine ⟨s, List.mem_append_right _ hs, ?_⟩
    rw [endings_append, List.getLast?_append, hlast]
    rfl

/-! ## The own batch -/

/-- A stage in its own batch: its executions, and what a failure of the batch comes from. -/
structure OwnBatch (s : Stage) (batch : List Stage) (es : List Event) (ok : Bool) : Prop where
  reached : endings s es ≠ []
  completed : ok = true → true ∈ endings s es
  spent : true ∉ endings s es → ((endings s es).length : Int) = max 1 s.maxIterations
  other : true ∈ endings s es → ok = false → ∃ t ∈ batch, t ≠ s ∧ (endings t es).getLast? = some false

theorem ownBatch_alone (h : AloneRun p s es ok) (htarget : loopTarget p s = some target)
    (honce : s.maxIterations ≤ 1 ∨ target ≠ s) : OwnBatch s batch es ok := by
  cases h with
  | passed => exact ⟨by simp, fun _ => by simp, fun hno => absurd (by simp) hno, fun _ h => nomatch h⟩
  | failed hnone =>
    rw [htarget] at hnone
    cases hnone
  | @looped target' es ok htarget' hes =>
    obtain rfl := Option.some.inj (htarget.symm.trans htarget')
    have hall : endings s ([.began s, .ended s false] ++ es) = false :: endings s es := by simp
    have hspent : ok = false ∧ endings s es = List.replicate (s.maxIterations - 1).toNat false ∨
        ok = true ∧ true ∈ endings s es := by
      rcases honce with hmax | hne
      · have hzero : (s.maxIterations - 1).toNat = 0 := by omega
        rw [hzero] at hes ⊢
        cases hes
        exact Or.inl ⟨rfl, rfl⟩
      · exact endings_reruns hes hne
    rcases hspent with ⟨rfl, he⟩ | ⟨rfl, he⟩
    · refine ⟨by rw [hall]; simp, (fun h => nomatch h), fun _ => ?_, fun hin _ => ?_⟩
      · rw [hall, he, List.length_cons, List.length_replicate]
        omega
      · rw [hall, he] at hin
        simp [List.mem_replicate] at hin
    · have hin : true ∈ endings s ([.began s, .ended s false] ++ es) := by
        rw [hall]
        exact List.mem_cons_of_mem _ he
      exact ⟨by rw [hall]; simp, fun _ => hin, fun hno => absurd hin hno, fun _ h => nomatch h⟩

theorem ownBatch_together (h : TogetherRun batch es ok) (hs : s ∈ batch) (hmax : s.maxIterations ≤ 1) :
    OwnBatch s batch es ok := by
  obtain ⟨b, hb, hok⟩ := endings_together h hs
  refine ⟨by simp [hb], fun h => by simp [hb, hok h], fun _ => ?_, fun hmem hfail => ?_⟩
  · rw [hb, List.length_singleton]
    omega
  · obtain ⟨t, ht, hended⟩ := h.failed hfail
    obtain ⟨b', hb', -⟩ := endings_together h ht
    have hin : false ∈ endings t es := List.mem_filterMap.mpr ⟨_, hended, by simp⟩
    rw [hb', List.mem_singleton] at hin
    subst hin
    refine ⟨t, ht, fun he => ?_, by rw [hb']; rfl⟩
    rw [← he, hb'] at hmem
    simp at hmem

theorem endings_own (h : BatchRun p batch es ok) (hs : s ∈ batch) (htarget : loopTarget p s = some target)
    (honce : s.maxIterations ≤ 1 ∨ batch = [s] ∧ target ≠ s) : OwnBatch s batch es ok := by
  rcases batchRun_cases h with ⟨stage, rfl, halone⟩ | ⟨hmany, htogether⟩
  · obtain rfl := List.mem_singleton.mp hs
    exact ownBatch_alone halone htarget (honce.imp_right And.right)
  · exact ownBatch_together htogether hs (honce.resolve_right fun h => hmany s h.1)

/-! ## All batches -/

/-- The batches before the stage's own. -/
theorem endings_before (h : Run p batches es ok) (hs : s ∉ batches.flatten)
    (hloop : ∀ v, [v] ∈ batches → loopTarget p v = some s → v.maxIterations ≤ 1) : endings s es = [] := by
  have hbatch : ∀ {batch batches : List (List Stage)} {b es ok}, BatchRun p b es ok → s ∉ (b :: batches).flatten →
      (∀ v, [v] ∈ b :: batches → loopTarget p v = some s → v.maxIterations ≤ 1) → endings s es = [] := by
    intro _ batches b es ok h hs hloop
    exact endings_other h (fun hb => hs (List.mem_append_left _ hb)) fun v hv =>
      hloop v (by rw [hv]; exact List.mem_cons_self)
  induction h with
  | done => rfl
  | stopped h => exact @hbatch [] _ _ _ _ h hs hloop
  | next h _ ih =>
    rw [endings_append, @hbatch [] _ _ _ _ h hs hloop, ih (fun hb => hs (List.mem_append_right _ hb))
      fun v hv => hloop v (List.mem_cons_of_mem _ hv)]
    rfl

/-- The run up to a batch, of it and after it, unless it stops before. -/
theorem run_reach {before after : List (List Stage)} (h : Run p (before ++ batch :: after) es ok) :
    (ok = false ∧ Run p before es false) ∨ ∃ es₁ e es₂ b, es = es₁ ++ (e ++ es₂) ∧ Run p before es₁ true ∧
      BatchRun p batch e b ∧ (b = false ∧ es₂ = [] ∧ ok = false ∨ b = true ∧ Run p after es₂ ok) := by
  induction before generalizing es with
  | nil =>
    cases h with
    | stopped h => exact Or.inr ⟨[], _, [], false, by simp, .done, h, Or.inl ⟨rfl, rfl, rfl⟩⟩
    | next h hnext => exact Or.inr ⟨[], _, _, true, rfl, .done, h, Or.inr ⟨rfl, hnext⟩⟩
  | cons b before ih =>
    cases h with
    | stopped h => exact Or.inl ⟨rfl, .stopped h⟩
    | next h hnext =>
      rcases ih hnext with ⟨rfl, hstop⟩ | ⟨es₁, e, es₂, b', rfl, h₁, h₂, h₃⟩
      · exact Or.inl ⟨rfl, .next h hstop⟩
      · exact Or.inr ⟨_, e, es₂, b', (List.append_assoc ..).symm, .next h h₁, h₂, h₃⟩

theorem earlier_split (h : s ∈ p.topologicalOrder.flatten) :
    ∃ batch after, p.topologicalOrder = earlier p s ++ batch :: after ∧ s ∈ batch := by
  have hall := List.takeWhile_append_dropWhile (p := fun batch => decide (s ∉ batch)) (l := p.topologicalOrder)
  cases hrest : p.topologicalOrder.dropWhile fun batch => s ∉ batch with
  | nil =>
    obtain ⟨batch, hbatch, hs⟩ := List.mem_flatten.mp h
    exact absurd hs (of_decide_eq_true (List.dropWhile_eq_nil_iff.mp hrest batch hbatch))
  | cons batch after =>
    have hhead := List.head_dropWhile_not (fun batch => decide (s ∉ batch)) (l := p.topologicalOrder)
      (by rw [hrest]; exact List.cons_ne_nil _ _)
    simp only [hrest, List.head_cons] at hhead
    exact ⟨batch, after, by rw [earlier, ← hrest, hall], by simpa using hhead⟩

theorem earlier_eq (h : s ∉ p.topologicalOrder.flatten) : earlier p s = p.topologicalOrder :=
  List.takeWhile_eq_self_iff.mpr fun _ hbatch =>
    decide_eq_true fun hs => h (List.mem_flatten_of_mem hbatch hs)

/-- A stage that retries alone keeps to its iterations. -/
theorem withinBudget_of_retriesAlone (htarget : loopTarget p s = some target) (hretries : RetriesAlone p s)
    (h : Run p p.topologicalOrder es ok) : WithinBudget p s es (statusOf ok) := by
  obtain ⟨hearlier, hown⟩ := hretries
  intro hreached
  by_cases hin : s ∈ p.topologicalOrder.flatten
  · obtain ⟨batch, after, hsplit, hmem⟩ := earlier_split hin
    obtain ⟨hnotbefore, hnotafter⟩ := not_mem_of_split hsplit hmem
    have honce : s.maxIterations ≤ 1 ∨ batch = [s] ∧ target ≠ s := by
      refine (hown hin).imp_right fun ⟨halone, hne⟩ => ⟨?_, fun he => hne (he ▸ htarget)⟩
      rw [hsplit] at halone
      rcases List.mem_append.mp halone with halone | halone
      · exact absurd (List.mem_flatten_of_mem halone (List.mem_singleton_self s)) hnotbefore
      · rcases List.mem_cons.mp halone with halone | halone
        · exact halone.symm
        · exact absurd (List.mem_flatten_of_mem halone (List.mem_singleton_self s)) hnotafter
    rw [hsplit] at h
    rcases run_reach h with ⟨-, hstop⟩ | ⟨es₁, e, es₂, b, rfl, h₁, h₂, h₃⟩
    · exact absurd (endings_before hstop hnotbefore hearlier) hreached
    · have hbatch := endings_own h₂ hmem htarget honce
      rw [endings_append, endings_before h₁ hnotbefore hearlier, List.nil_append, endings_append]
      rcases h₃ with ⟨rfl, rfl, rfl⟩ | ⟨rfl, hrest⟩
      · rw [endings_nil, List.append_nil]
        refine ⟨fun hno => ⟨hbatch.spent hno, rfl⟩, fun hin _ => ?_⟩
        obtain ⟨t, ht, hne, hlast⟩ := hbatch.other hin rfl
        refine ⟨t, mem_stages (by rw [hsplit]; simp [ht]), hne, ?_⟩
        rw [endings_append, List.append_nil, List.getLast?_append, hlast]
        rfl
      · refine ⟨fun hno => absurd (List.mem_append_left _ (hbatch.completed rfl)) hno, fun _ hstatus => ?_⟩
        have hok : ok = false := by
          cases ok with
          | false => rfl
          | true => cases hstatus
        obtain ⟨t, ht, hlast⟩ := run_failed hrest hok
        refine ⟨t, mem_stages (by rw [hsplit]; simp [ht]), fun he => hnotafter (he ▸ ht), ?_⟩
        rw [endings_append, endings_append, List.getLast?_append, List.getLast?_append, hlast]
        rfl
  · exact absurd (endings_before h hin (earlier_eq hin ▸ hearlier)) hreached

/-! ## Runs that leave the budget -/

/-- Iterations of a loop in which everything fails. -/
def failing (stage target : Stage) : Nat → List Event
  | 0 => []
  | n + 1 => iteration stage target false false ++ failing stage target n

theorem reruns_failing (stage target : Stage) : ∀ n, Reruns stage target n (failing stage target n) false
  | 0 => .spent
  | n + 1 => .again false (reruns_failing stage target n)

theorem endings_passes (h : s ∉ batches.flatten) : endings s (passes batches) = [] := by
  refine endings_eq_nil fun e he => ?_
  obtain ⟨batch, hbatch, he⟩ := List.mem_flatMap.mp he
  obtain ⟨t, ht, he⟩ := List.mem_flatMap.mp he
  have hne : t ≠ s := fun heq => h (heq ▸ List.mem_flatten_of_mem hbatch ht)
  rcases (by simpa [once] using he : e = _ ∨ e = _) with rfl | rfl <;> exact hne

theorem endings_inTurn {f : Stage → Bool} (hnodup : batch.Nodup) (hs : s ∈ batch) :
    endings s (inTurn f batch) = [f s] := by
  induction batch with
  | nil => cases hs
  | cons t batch ih =>
    rw [List.nodup_cons] at hnodup
    rw [inTurn, List.flatMap_cons, endings_append, ← inTurn]
    rcases List.mem_cons.mp hs with rfl | hs
    · have hrest : endings s (inTurn f batch) = [] := endings_eq_nil fun e he => by
        obtain ⟨t, ht, he⟩ := List.mem_flatMap.mp he
        have hne : t ≠ s := fun heq => hnodup.1 (heq ▸ ht)
        rcases (by simpa [once] using he : e = _ ∨ e = _) with rfl | rfl <;> exact hne
      rw [hrest]
      simp [once]
    · have hne : t ≠ s := fun heq => hnodup.1 (heq ▸ hs)
      rw [ih hnodup.2 hs]
      simp [once, endings_ended hne]

/-- The batch of a stage that fails whenever it runs, the others completing: how often the stage runs in it. -/
theorem exists_failing (hnodup : batch.Nodup) (hs : s ∈ batch) (htarget : loopTarget p s = some target)
    (after : List (List Stage)) : ∃ es, Turn p (batch :: after) es false ∧ true ∉ endings s es ∧
      (endings s es).length = if batch = [s] then
        (if target = s then 1 + 2 * (s.maxIterations - 1).toNat else 1 + (s.maxIterations - 1).toNat) else 1 := by
  by_cases hone : batch = [s]
  · subst hone
    have hall : ∀ n, true ∉ endings s (failing s target n) ∧
        (endings s (failing s target n)).length = if target = s then 2 * n else n := by
      intro n
      induction n with
      | zero => simp [failing]
      | succ n ih =>
        rw [failing, endings_append, List.length_append, ih.2]
        by_cases hself : target = s
        · subst hself
          simp [iteration, ih.1]
          omega
        · simp [iteration, endings_ended hself, hself, ih.1]
          omega
    refine ⟨_, .aloneStopped (.looped htarget (reruns_failing s target _)), ?_, ?_⟩
    · simp [hall _]
    · rw [if_pos rfl, endings_append, List.length_append, (hall _).2]
      split <;> simp
  · have hmany : ∀ t, batch ≠ [t] := by
      rintro t rfl
      rw [List.mem_singleton.mp hs] at hone
      exact hone rfl
    have hfail : batch.all (fun t => decide (t ≠ s)) = false := by
      rw [List.all_eq_false]
      exact ⟨s, hs, by simp⟩
    refine ⟨_, .batchStopped hmany hfail, ?_, ?_⟩
    · rw [endings_inTurn hnodup hs]
      simp
    · rw [endings_inTurn hnodup hs, if_neg hone]
      rfl

/-! ## The budget -/

/-- The stage keeps to its iterations in every run. -/
def AlwaysWithinBudget (u : Unicode) (p : Pipeline) (input_data : Input) (stage : Stage) : Prop :=
  ∀ l pr s, (execute u p input_data).Goes l (.ok pr) → store.Plays 0 .empty l s →
    WithinBudget p stage (events l) pr.status

variable {u : Unicode} {input_data : Input}

theorem within_turn (hvalid : p.validate = []) (h : AlwaysWithinBudget u p input_data s)
    (hturn : Turn p p.topologicalOrder es ok) : WithinBudget p s es (statusOf ok) := by
  obtain ⟨pr, l, s', hgoes, hplays, hevents, hstatus⟩ :=
    (@can_execute u _ input_data _ _ hvalid hturn) .empty
  have hwithin := h l pr s' hgoes hplays
  rwa [hevents, hstatus] at hwithin

/-- A stage that keeps failing within its budget. -/
theorem WithinBudget.length (h : WithinBudget p s es (statusOf false)) (hfails : true ∉ endings s es)
    (hpos : endings s es ≠ []) : ((endings s es).length : Int) = max 1 s.maxIterations :=
  ((h hpos).1 hfails).1

/-- The loop of an earlier stage makes a failing stage run once more. -/
theorem exists_early {before after : List (List Stage)} {v : Stage} (hsplit : p.topologicalOrder = before ++ after)
    (hnotbefore : s ∉ before.flatten) (hv : [v] ∈ before) (htarget : loopTarget p v = some s)
    (hmax : 2 ≤ v.maxIterations) (hturn : Turn p after es ok) :
    ∃ es', Turn p p.topologicalOrder es' ok ∧ endings s es' = false :: endings s es := by
  obtain ⟨b₁, mid, rfl⟩ := List.append_of_mem hv
  have hne : v ≠ s := fun he => hnotbefore (he ▸ List.mem_flatten_of_mem hv (List.mem_singleton_self v))
  have hfirst : s ∉ b₁.flatten := fun hin => hnotbefore (by simp [hin])
  have hmid : s ∉ mid.flatten := fun hin => hnotbefore (by simp [hin])
  obtain ⟨n, hn⟩ : ∃ n, (v.maxIterations - 1).toNat = n + 1 := ⟨(v.maxIterations - 2).toNat, by omega⟩
  have halone : AloneRun p v ([.began v, .ended v false] ++ iteration v s false true) true :=
    .looped htarget (by rw [hn]; exact .passed false)
  refine ⟨passes b₁ ++ (([.began v, .ended v false] ++ iteration v s false true) ++ (passes mid ++ es)), ?_, ?_⟩
  · rw [hsplit, List.append_assoc, List.cons_append]
    exact turn_passes (.alone halone (turn_passes hturn))
  · simp only [endings_append, endings_passes hfirst, endings_passes hmid, List.nil_append]
    simp [iteration, endings_ended hne]

/-- A run in which a stage fails whenever it runs and what is before it completes at once. -/
theorem exists_spent (hvalid : p.validate = []) (htarget : loopTarget p s = some target)
    (h : AlwaysWithinBudget u p input_data s) {after : List (List Stage)}
    (hsplit : p.topologicalOrder = earlier p s ++ batch :: after) (hmem : s ∈ batch) :
    ∃ es, Turn p (batch :: after) es false ∧ true ∉ endings s es ∧
      ((endings s es).length : Int) = max 1 s.maxIterations ∧
      (endings s es).length = if batch = [s] then
        (if target = s then 1 + 2 * (s.maxIterations - 1).toNat else 1 + (s.maxIterations - 1).toNat) else 1 := by
  have hbatch : batch ∈ p.topologicalOrder := by
    rw [hsplit]
    simp
  obtain ⟨es, hturn, hfails, hlength⟩ := exists_failing (nodup_batch hbatch) hmem htarget after
  have hpos : endings s es ≠ [] := by
    rw [← List.length_pos_iff, hlength]
    split
    · split <;> omega
    · exact Nat.one_pos
  refine ⟨es, hturn, hfails, ?_, hlength⟩
  have hall : endings s (passes (earlier p s) ++ es) = endings s es := by
    rw [endings_append, endings_passes (not_mem_of_split hsplit hmem).1, List.nil_append]
  have hwithin := within_turn hvalid h (hsplit ▸ turn_passes hturn)
  rw [← hall] at hfails hpos ⊢
  exact hwithin.length hfails hpos

/-- A stage that keeps to its iterations in every run retries alone. -/
theorem retriesAlone_of_always (hvalid : p.validate = []) (htarget : loopTarget p s = some target)
    (h : AlwaysWithinBudget u p input_data s) : RetriesAlone p s := by
  refine ⟨fun v hv hloop => ?_, fun hin => ?_⟩
  · by_contra hmax
    by_cases hin : s ∈ p.topologicalOrder.flatten
    · obtain ⟨batch, after, hsplit, hmem⟩ := earlier_split hin
      obtain ⟨es, hturn, hfails, hlength, -⟩ := exists_spent hvalid htarget h hsplit hmem
      obtain ⟨es', hturn', hmore⟩ :=
        exists_early hsplit (not_mem_of_split hsplit hmem).1 hv hloop (by omega) hturn
      have hwithin := (within_turn hvalid h hturn').length (by simp [hmore, hfails]) (by simp [hmore])
      rw [hmore, List.length_cons] at hwithin
      omega
    · -- the stage runs in the loop only, and the pipeline completes
      obtain ⟨es', hturn', hmore⟩ :=
        @exists_early _ _ _ _ _ [] _ (by rw [earlier_eq hin, List.append_nil]) (by rwa [earlier_eq hin]) hv hloop
          (by omega) .done
      have hfailed := ((within_turn hvalid h hturn' (by simp [hmore])).1 (by simp [hmore])).2
      cases hfailed
  · by_contra hnot
    obtain ⟨hmax, hbatched⟩ := not_or.mp hnot
    obtain ⟨batch, after, hsplit, hmem⟩ := earlier_split hin
    obtain ⟨es, -, -, hlength, hcases⟩ := exists_spent hvalid htarget h hsplit hmem
    by_cases hone : batch = [s]
    · have hself : target = s := by
        by_contra hne
        refine hbatched ⟨?_, fun he => hne (Option.some.inj (htarget.symm.trans he))⟩
        rw [hsplit, hone]
        simp
      rw [if_pos hone, if_pos hself] at hcases
      omega
    · rw [if_neg hone] at hcases
      omega

/-- **Budget.** A stage keeps to its iterations in every run exactly when it retries alone. -/
theorem budget_iff (hvalid : p.validate = []) (htarget : loopTarget p stage = some target) :
    AlwaysWithinBudget u p input_data stage ↔ RetriesAlone p stage := by
  refine ⟨retriesAlone_of_always hvalid htarget, fun hretries l pr s hgoes _ => ?_⟩
  obtain ⟨-, ok, hrun, hstatus⟩ := run_of_goes hgoes
  rw [hstatus]
  exact withinBudget_of_retriesAlone htarget hretries hrun

theorem budget_genVerify : AlwaysWithinBudget .ascii genVerify .empty verify := by
  have hvalid : genVerify.validate = [] := by decide +kernel
  have htarget : loopTarget genVerify verify = some generate := by decide +kernel
  have hearlier : earlier genVerify verify = [[generate]] := by decide +kernel
  have halone : [verify] ∈ genVerify.topologicalOrder ∧ loopTarget genVerify verify ≠ some verify := by
    decide +kernel
  refine (budget_iff hvalid htarget).mpr ⟨fun s hs hloop => ?_, fun _ => Or.inr halone⟩
  rw [hearlier, List.mem_singleton] at hs
  obtain rfl : s = generate := by simpa using hs
  cases hloop

/-! ## A stage in a batch of two -/

def lint : Stage := { name := "lint", model := "haiku", promptTemplate := "", dependsOn := ["generate"] }

/-- The gen-verify loop with another stage beside its verifier. -/
def genVerifyLint : Pipeline := ⟨"gen_verify_lint", [generate, verify, lint]⟩

/-- **A stage that is ready with another runs once.** -/
theorem batched_once : ¬ ∀ (u : Unicode) (p : Pipeline) (input_data : Input) (stage target : Stage), p.validate = [] →
    loopTarget p stage = some target → AlwaysWithinBudget u p input_data stage := by
  intro h
  have hvalid : genVerifyLint.validate = [] := by decide +kernel
  have htarget : loopTarget genVerifyLint verify = some generate := by decide +kernel
  have horder : genVerifyLint.topologicalOrder = [[generate], [verify, lint]] := by decide +kernel
  have hturn : Turn genVerifyLint genVerifyLint.topologicalOrder
      (once generate true ++ inTurn (fun s => decide (s ≠ verify)) [verify, lint]) false := by
    rw [horder]
    exact .alone .passed (.batchStopped (by simp) (by decide))
  have hends :
      endings verify (once generate true ++ inTurn (fun s => decide (s ≠ verify)) [verify, lint]) = [false] := by
    decide
  have hlength := (within_turn hvalid (h .ascii _ .empty _ _ hvalid htarget) hturn).length (by rw [hends]; decide)
    (by rw [hends]; decide)
  rw [hends] at hlength
  exact absurd hlength (by decide)

end ClaudeSwarm.Pipeline
