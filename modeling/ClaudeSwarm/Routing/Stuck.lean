import ClaudeSwarm.Routing.Heartbeat

/-!
# Stuck workers

Model of `is_stuck`, `_progress_stale`, `update_progress` and the loop of `HeartbeatThread` in `src/heartbeat.py`, for
one worker and with Redis up throughout. The thread pings while the worker's `update_progress` reads the record, writes
it back and then notes the time under a key of its own, each a step; what an earlier worker of the task has left in
the stores is there at the start.

Whether a worker makes progress is read off that key, which is there only after a first `update_progress` and for ten
minutes, and how long it has run off its last ping.

* `head_ping`: when there was no progress for long enough, the last thing that happened is a ping.
* **`isStuck_iff`**: such a worker is found stuck exactly while the key is there, and once a ping is old enough.
* **`never_stuck`**: a worker that never makes progress.
-/

namespace ClaudeSwarm.Routing

open Python (Time)

/-- `HEARTBEAT_INTERVAL_S`. -/
def heartbeatInterval : Time := 30

/-- `STUCK_WORKER_TIMEOUT_S`. -/
def stuckWorkerTimeout : Time := 300

/-- `_progress_stale`. -/
def progressStale (up answered : Bool) (now : Time) (s : Stores) : Bool :=
  if up && answered then
    match live s.progress now with
    | some last => stuckWorkerTimeout < now - last
    | none => false
  else false

/-- `is_stuck`. -/
def isStuck (up answered : Bool) (now : Time) (s : Stores) : Bool :=
  match readHeartbeat up answered now s with
  | none => false
  | some hb =>
    if !isAlive up answered now s then false
    else decide (stuckWorkerTimeout < hb.last_ping - hb.started_at) && progressStale up answered now s

/-! ## A worker -/

/-- A worker, and what it finds in the stores of its task: the progress noted there is not later than its start. -/
structure Worker where
  task_id : String
  worker_id : String
  started_at : Time
  found : Stores
  earlier : ∀ last expires, found.progress = some (last, expires) → last ≤ started_at

/-- What happens, and when. -/
inductive Step where
  /-- The body of the loop of `HeartbeatThread.run`. -/
  | ping (now : Time) (state_hash : String)
  /-- `update_progress` reads the record and the clock. -/
  | read (now : Time) (new_state_hash : String)
  /-- It writes the record. -/
  | store (now : Time)
  /-- It notes the time. -/
  | note (now : Time)

/-- The time of a step. -/
def Step.time : Step → Time
  | .ping now _ => now
  | .read now _ => now
  | .store now => now
  | .note now => now

/-- The step is one of `update_progress`. -/
def Step.Progress : Step → Prop
  | .ping _ _ => False
  | _ => True

instance : DecidablePred Step.Progress
  | .ping _ _ => .isFalse id
  | .read _ _ | .store _ | .note _ => .isTrue trivial

/-- The stores, and the record that `update_progress` has read. -/
structure State where
  stores : Stores
  pending : Option Heartbeat

/-- Redis is up. -/
def reachable : Link := ⟨true, .done, true⟩

variable (w : Worker)

/-- One step. -/
def Step.run (s : State) : Step → State
  | .ping now state_hash =>
    { s with
      stores := (writeHeartbeat reachable now ⟨w.task_id, w.worker_id, now, state_hash, w.started_at⟩ s.stores).1 }
  | .read now new_state_hash =>
    { s with pending := (readHeartbeat true true now s.stores).map fun hb =>
        { hb with state_hash := new_state_hash, last_ping := now } }
  | .store now =>
    match s.pending with
    | some hb => { s with stores := (writeHeartbeat reachable now hb s.stores).1 }
    | none => s
  | .note now =>
    match s.pending with
    | some hb => ⟨{ s.stores with progress := some (hb.last_ping, now + stuckWorkerTimeout * 2) }, none⟩
    | none => s

/-- After a history, the last step first. -/
def after : List Step → State
  | [] => ⟨w.found, none⟩
  | step :: older => step.run w (after older)

/-- The steps are in order, and none is later than `now`. -/
def Ordered (now : Time) (history : List Step) : Prop :=
  history.Pairwise (fun later earlier => earlier.time ≤ later.time) ∧ ∀ step ∈ history, step.time ≤ now

/-- From the start to `now` the thread pings at least every `HEARTBEAT_INTERVAL_S`. -/
def KeepsPinging (now : Time) (history : List Step) : Prop :=
  ∀ u, w.started_at + heartbeatInterval ≤ u → u ≤ now →
    ∃ t state_hash, Step.ping t state_hash ∈ history ∧ u - heartbeatInterval ≤ t ∧ t ≤ u

/-- `now` is later than the start, and than every step of an `update_progress`, by more than the timeout. -/
def NoProgress (now : Time) (history : List Step) : Prop :=
  w.started_at + stuckWorkerTimeout < now ∧ ∀ step ∈ history, step.Progress → step.time + stuckWorkerTimeout < now

/-- The time of the last ping. -/
def lastPing : List Step → Option Time
  | [] => none
  | .ping t _ :: _ => some t
  | _ :: older => lastPing older

variable {w} {now : Time} {history : List Step}

/-! ## The last step -/

/-- The last step is a ping: those of `update_progress` are too long ago. -/
theorem head_ping (hordered : Ordered now history) (hpings : KeepsPinging w now history)
    (hquiet : NoProgress w now history) :
    ∃ t state_hash older, history = .ping t state_hash :: older ∧ now - heartbeatInterval ≤ t := by
  have hlate : w.started_at + heartbeatInterval ≤ now := by
    have := hquiet.1
    unfold heartbeatInterval
    unfold stuckWorkerTimeout at this
    linarith
  obtain ⟨t, state_hash, hmem, hrecent, -⟩ := hpings now hlate le_rfl
  cases history with
  | nil => cases hmem
  | cons step older =>
    have hstep : t ≤ step.time := by
      rcases List.mem_cons.mp hmem with rfl | hmem
      · exact le_rfl
      · exact (List.pairwise_cons.mp hordered.1).1 _ hmem
    have hnot : ¬ step.Progress := fun hp => by
      have := hquiet.2 step List.mem_cons_self hp
      unfold heartbeatInterval at hrecent
      unfold stuckWorkerTimeout at this
      linarith
    cases step with
    | ping t' hash => exact ⟨t', hash, older, rfl, hrecent.trans hstep⟩
    | read _ _ => exact absurd trivial hnot
    | store _ => exact absurd trivial hnot
    | note _ => exact absurd trivial hnot

/-- The time is the start's or an earlier one, or that of a step of `update_progress`. -/
def Noted (w : Worker) (history : List Step) (last : Time) : Prop :=
  last ≤ w.started_at ∨ ∃ step ∈ history, step.Progress ∧ step.time = last

theorem Noted.cons {last : Time} (h : Noted w history last) (step : Step) : Noted w (step :: history) last := by
  rcases h with h | ⟨step', hin, h⟩
  · exact Or.inl h
  · exact Or.inr ⟨step', List.mem_cons_of_mem _ hin, h⟩

theorem progress_write {link : Link} {hb : Heartbeat} {s : Stores} :
    (writeHeartbeat link now hb s).1.progress = s.progress := by
  obtain ⟨_ | _, _ | _ | _, fileOk⟩ := link <;> simp [writeHeartbeat, writeFile_fst]

/-- What is noted, or will be, is such a time. -/
theorem noted_after : ∀ {history : List Step},
    (∀ last expires, (after w history).stores.progress = some (last, expires) → Noted w history last) ∧
      ∀ hb, (after w history).pending = some hb → Noted w history hb.last_ping
  | [] => ⟨fun last expires h => Or.inl (w.earlier last expires h), fun _ h => by cases h⟩
  | step :: older => by
    obtain ⟨hprogress, hpending⟩ := @noted_after older
    cases step with
    | ping now state_hash =>
      refine ⟨fun last expires h => (hprogress last expires ?_).cons _, fun hb h => (hpending hb h).cons _⟩
      rwa [after, Step.run, progress_write] at h
    | read now hash =>
      refine ⟨fun last expires h => (hprogress last expires h).cons _, fun hb h => ?_⟩
      obtain ⟨hb', -, rfl⟩ := Option.map_eq_some_iff.mp h
      exact Or.inr ⟨_, List.mem_cons_self, trivial, rfl⟩
    | store now =>
      cases hp : (after w older).pending with
      | none =>
        have hsame : after w (.store now :: older) = after w older := by rw [after, Step.run, hp]
        rw [hsame]
        exact ⟨fun last expires h => (hprogress last expires h).cons _, fun hb h => (hpending hb h).cons _⟩
      | some hb' =>
        have hstored : after w (.store now :: older) =
            ⟨(writeHeartbeat reachable now hb' (after w older).stores).1, some hb'⟩ := by
          rw [after, Step.run, hp]
        rw [hstored]
        refine ⟨fun last expires h => (hprogress last expires ?_).cons _, fun hb h => ?_⟩
        · rwa [progress_write] at h
        · cases h
          exact (hpending hb' hp).cons _
    | note now =>
      cases hp : (after w older).pending with
      | none =>
        have hsame : after w (.note now :: older) = after w older := by rw [after, Step.run, hp]
        rw [hsame]
        exact ⟨fun last expires h => (hprogress last expires h).cons _, fun hb h => (hpending hb h).cons _⟩
      | some hb' =>
        have hnoted : after w (.note now :: older) =
            ⟨{ (after w older).stores with progress := some (hb'.last_ping, now + stuckWorkerTimeout * 2) }, none⟩ := by
          rw [after, Step.run, hp]
        rw [hnoted]
        refine ⟨fun last expires h => ?_, fun hb h => by cases h⟩
        cases h
        exact (hpending hb' hp).cons _

/-! ## What is found -/

/-- **Which workers are found stuck**, of those that have pinged all the time and made no progress for long enough. -/
theorem isStuck_iff (hordered : Ordered now history) (hpings : KeepsPinging w now history)
    (hquiet : NoProgress w now history) : isStuck true true now (after w history).stores = true ↔
      (live (after w history).stores.progress now).isSome ∧
        ∃ t, lastPing history = some t ∧ w.started_at + stuckWorkerTimeout < t := by
  obtain ⟨t, state_hash, older, rfl, hrecent⟩ := head_ping hordered hpings hquiet
  have hread : readHeartbeat true true now (after w (.ping t state_hash :: older)).stores =
      some ⟨w.task_id, w.worker_id, t, state_hash, w.started_at⟩ := by
    have hlive : now < t + heartbeatTimeout * 2 := by
      unfold heartbeatInterval at hrecent
      unfold heartbeatTimeout
      linarith
    rw [readHeartbeat, after, Step.run, live_write, if_pos (by decide), if_pos (by decide), if_pos hlive]
  have halive : isAlive true true now (after w (.ping t state_hash :: older)).stores = true := by
    refine isAlive_of_read hread ?_
    unfold heartbeatInterval at hrecent
    unfold heartbeatTimeout
    linarith
  have hstale : progressStale true true now (after w (.ping t state_hash :: older)).stores = true ↔
      (live (after w (.ping t state_hash :: older)).stores.progress now).isSome := by
    unfold progressStale
    rw [if_pos (by decide)]
    cases hkey : live (after w (.ping t state_hash :: older)).stores.progress now with
    | none => exact iff_of_false Bool.false_ne_true Bool.false_ne_true
    | some last =>
      refine iff_of_true (decide_eq_true ?_) rfl
      have hnoted : Noted w (.ping t state_hash :: older) last := by
        unfold live at hkey
        split at hkey
        · rename_i v expires hprogress
          split at hkey
          · cases hkey
            exact noted_after.1 _ _ hprogress
          · cases hkey
        · cases hkey
      rcases hnoted with hearly | ⟨step, hin, hp, rfl⟩
      · have := hquiet.1
        linarith
      · have := hquiet.2 step hin hp
        linarith
  unfold isStuck
  rw [hread, halive]
  dsimp only
  rw [if_neg (by decide), Bool.and_eq_true, hstale, decide_eq_true_eq, lt_sub_iff_add_lt', and_comm]
  refine and_congr_right fun _ => ⟨fun h => ⟨t, rfl, h⟩, ?_⟩
  rintro ⟨t', ht', h⟩
  cases ht'
  exact h

/-! ## Workers that ping all the time -/

/-- A worker that starts at 0. -/
def fresh : Worker := ⟨"task-001", "w", 0, .empty, fun _ _ h => by cases h⟩

/-- A ping every thirty seconds, after what was at the start. -/
def pinging (start : List Step) : Nat → List Step
  | 0 => start
  | n + 1 => .ping (30 * (n + 1 : Nat)) "init" :: pinging start n

theorem mem_pinging {start : List Step} {step : Step} : ∀ {n : Nat}, step ∈ pinging start n ↔
    step ∈ start ∨ ∃ i, 0 < i ∧ i ≤ n ∧ step = .ping (30 * (i : Nat)) "init"
  | 0 => by
    rw [pinging]
    exact ⟨Or.inl, fun h => h.resolve_right fun ⟨i, hpos, hle, _⟩ => by omega⟩
  | n + 1 => by
    rw [pinging, List.mem_cons, mem_pinging]
    constructor
    · rintro (rfl | h | ⟨i, hpos, hle, rfl⟩)
      · exact Or.inr ⟨n + 1, Nat.succ_pos n, le_rfl, rfl⟩
      · exact Or.inl h
      · exact Or.inr ⟨i, hpos, hle.trans (Nat.le_succ n), rfl⟩
    · rintro (h | ⟨i, hpos, hle, rfl⟩)
      · exact Or.inr (Or.inl h)
      · rcases Nat.le_succ_iff.mp hle with hle | rfl
        · exact Or.inr (Or.inr ⟨i, hpos, hle, rfl⟩)
        · exact Or.inl rfl

theorem ordered_pinging {start : List Step} (hstart : start.Pairwise fun later earlier => earlier.time ≤ later.time)
    (hearly : ∀ step ∈ start, step.time ≤ 30) :
    ∀ {n : Nat}, 0 < n → Ordered (30 * (n : Nat)) (pinging start n) := by
  intro n hn
  have hle : ∀ {n : Nat}, 0 < n → ∀ step ∈ pinging start n, step.time ≤ 30 * (n : Nat) := by
    intro n hn step hstep
    have hone : (1 : Time) ≤ n := by exact_mod_cast hn
    rcases mem_pinging.mp hstep with h | ⟨i, -, hle, rfl⟩
    · have := hearly step h
      linarith
    · have : (i : Time) ≤ n := by exact_mod_cast hle
      exact mul_le_mul_of_nonneg_left this (by norm_num)
  refine ⟨?_, hle hn⟩
  clear hn
  induction n with
  | zero => exact hstart
  | succ n ih =>
    refine List.pairwise_cons.mpr ⟨fun step hstep => ?_, ih⟩
    have hlast := hle (Nat.succ_pos n) step (List.mem_cons_of_mem _ hstep)
    exact hlast

theorem keepsPinging_pinging {start : List Step} {n : Nat} {now : Time} (hnow : now < 30 * (n : Nat) + 30) :
    KeepsPinging fresh now (pinging start n) := by
  intro u hstart hu
  have hthirty : (30 : Time) ≤ u := by
    unfold heartbeatInterval at hstart
    exact (zero_add (30 : Time)).symm ▸ hstart
  have hpos : 0 ≤ u / 30 := by linarith
  have hfloor := Nat.floor_le hpos
  have hceil := Nat.lt_floor_add_one (u / 30)
  have hle : ⌊u / 30⌋₊ ≤ n := by
    have : (⌊u / 30⌋₊ : Time) < n + 1 := by linarith
    exact Nat.lt_succ_iff.mp (by exact_mod_cast this)
  have hone : 0 < ⌊u / 30⌋₊ := Nat.floor_pos.mpr (by linarith)
  refine ⟨30 * (⌊u / 30⌋₊ : Nat), "init", mem_pinging.mpr (Or.inr ⟨_, hone, hle, rfl⟩), ?_, by linarith⟩
  unfold heartbeatInterval
  linarith

/-- It has made progress once, at the start. -/
def onceAtStart : List Step := [.note 5, .store 5, .read 5 "step-1", .ping 0 "init"]

/-- `isStuck_iff` of such a worker. -/
theorem isStuck_iff_onceAtStart :
    isStuck true true (30 * (13 : Nat)) (after fresh (pinging onceAtStart 13)).stores = true := by
  have hordered : Ordered (30 * (13 : Nat)) (pinging onceAtStart 13) :=
    ordered_pinging (by decide +kernel) (by decide +kernel) (by decide)
  exact (isStuck_iff hordered (keepsPinging_pinging (by norm_num)) ⟨by decide +kernel, by decide +kernel⟩).mpr
    ⟨by decide +kernel, 30 * (13 : Nat), rfl, by decide +kernel⟩

/-- **A worker that never makes progress** is never found stuck, though it pings for ten minutes. -/
theorem never_stuck : ¬ ∀ (w : Worker) (now : Time) (history : List Step), Ordered now history →
    KeepsPinging w now history → NoProgress w now history → isStuck true true now (after w history).stores = true := by
  intro h
  have hstuck := h fresh (30 * (20 : Nat)) (pinging [.ping 0 "init"] 20)
    (ordered_pinging (by decide +kernel) (by decide +kernel) (by decide)) (keepsPinging_pinging (by norm_num))
    ⟨by decide +kernel, by decide +kernel⟩
  exact absurd hstuck (by decide +kernel)

end ClaudeSwarm.Routing
