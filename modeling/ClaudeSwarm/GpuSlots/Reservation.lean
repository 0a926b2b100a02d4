import ClaudeSwarm.GpuSlots.Lockfile
import ClaudeSwarm.GpuSlots.RedisRelease
import ClaudeSwarm.Interleave.Alone

/-!
# The reservation for Ollama

`setup_ollama_slot` claims GPU 0 "permanently". On the lock files it writes a line with a deadline in
30 days, but with a heartbeat that nobody renews: `release_stale_slots` takes the slot away as soon as
the line is older than the threshold it is called with. On Redis the key expires after
`GPU_SLOT_TTL` seconds, like that of any other claim.

* `Lockfile.LeftAlone`, `Redis.LeftAlone`: the runs in which nobody gives the slot up.
* `Lockfile.Fresh`, `Redis.Fresh`: what has to hold of the time besides.
* **`refused_while_fresh`**: in such runs every claim of slot 0 returns `False`.
* `reservation_lost`: in others another process gets the slot.
-/

namespace ClaudeSwarm.GpuSlots

open Interleave
open Python (PyError strip)

namespace Lockfile

/-! ## Runs after the reservation -/

namespace Op

/-- The slot whose line the call takes away or rewrites. -/
def rewrites : Op → Option Int
  | .release _ gpu_id | .heartbeat _ gpu_id => some gpu_id
  | _ => none

/-- The age from which the call takes lines away. -/
def threshold : Op → Option Int
  | .releaseStale _ stale_threshold => some stale_threshold
  | _ => none

/-- The process that ends. -/
def ends : Op → Option Proc
  | .exit p => some p
  | _ => none

end Op

/-- The holder `p` lives, nobody releases or renews slot 0, and the time that has passed since `t` and
the thresholds are below 30 days. -/
def LeftAlone (p : Holder) (t : Clock) : Guard system := fun w _ o _ =>
  o.ends ≠ some p.toProc ∧ o.rewrites ≠ some 0 ∧ (∀ age ∈ o.threshold, age < 30 * 86400) ∧
    w.state.clock.micros < t.micros + 30 * 86400 * 1000000

instance (p : Holder) (t : Clock) (w : World system) (n : Nat) (o : Op) (c : Cmd) :
    Decidable (LeftAlone p t w n o c) :=
  inferInstanceAs (Decidable (_ ∧ _))

/-- The command looks for a process. -/
def Cmd.isKill : Cmd → Bool
  | .kill _ => true
  | _ => false

/-- The commands of call `n` on the files, and its readings of the clock, newest first. -/
def looked (n : Nat) (w : World system) : List Cmd :=
  ((mine n w).map Event.cmd).filter fun c => !c.isKill

/-- When `release_stale_slots` reads the clock after a look at slot 0, the deadline of a line of `t`
has not passed; and after the look of `is_slot_stale`, which follows on that of the loop itself, the
heartbeat of such a line is not older than the threshold. -/
def Fresh (t : Clock) : Guard system := fun w n o c =>
  ∀ age ∈ o.threshold, c = .now → (looked n w).head? = some (.read 0) →
    w.state.clock.micros ≤ (t.seconds + 30 * 86400) * 1000000 ∧
      ((looked n w)[2]? = some (.read 0) → w.state.clock.micros ≤ (t.seconds + age) * 1000000)

instance (t : Clock) (w : World system) (n : Nat) (o : Op) (c : Cmd) : Decidable (Fresh t w n o c) :=
  inferInstanceAs (Decidable (∀ age ∈ o.threshold, _))

/-- The slot is left alone, and its line fresh. -/
def InForce (p : Holder) (t : Clock) : Guard system := fun w n o c => LeftAlone p t w n o c ∧ Fresh t w n o c

instance (p : Holder) (t : Clock) (w : World system) (n : Nat) (o : Op) (c : Cmd) :
    Decidable (InForce p t w n o c) :=
  inferInstanceAs (Decidable (_ ∧ _))

/-- Every claim of slot 0 that has ended has returned `False`. -/
def Refuses (c : Config system) : Prop := ∀ n q r, c.Ended n (.claim q 0) r → r = .ok false

/-! ## The line -/

/-- The line that `setup_ollama_slot` writes at `t`. -/
def reservation (p : Holder) (t : Clock) : String :=
  p.line t.nowIso t.nowIso ((t.seconds : Int) + 30 * 86400)

/-- Slot 0 is Ollama's, since `t`. -/
structure Reserved (p : Holder) (t : Clock) (s : Swarm) : Prop where
  text : s.text 0 = reservation p t
  alive : s.alive p.toProc = true

variable {p : Holder} {t : Clock}

theorem check_reservation (hostname : String) : check hostname (reservation p t) = .held :=
  check_of_names p.colon names_line hostname

/-- What the line is read as. -/
def reservedInfo (p : Holder) (t : Clock) : SlotInfo :=
  ⟨p.host, p.pid, t.nowIso, t.nowIso, t.seconds + 30 * 86400⟩

theorem parseSlotInfo_reservation : parseSlotInfo (reservation p t) = some (reservedInfo p t) := by
  have hdeadline : ((t.seconds : Int) + 30 * 86400).toNat = t.seconds + 30 * 86400 := by omega
  rw [reservation, parseSlotInfo_line (nowIso_bar t) (nowIso_bar t), hdeadline]
  rfl

theorem not_stale {now : Clock} {age : Int} (h : now.micros ≤ (t.seconds + age) * 1000000) :
    staleHeartbeat (reservedInfo p t) age now = false := by
  rw [Bool.eq_false_iff]
  intro hstale
  have := (staleHeartbeat_iff (t := t) rfl age).mp hstale
  omega

theorem not_past {now : Clock} (h : now.micros ≤ (t.seconds + 30 * 86400) * 1000000) :
    pastDeadline (reservedInfo p t) now = false := by
  rw [pastDeadline, Bool.and_eq_false_iff, decide_eq_false_iff_not, not_lt]
  exact .inr h

namespace Reserved

variable {s s' : Swarm}

theorem exists_file (h : Reserved p t s) : (s.files.find? 0).isSome = true := by
  have htext := h.text
  cases hfind : s.files.find? 0 with
  | some f => rfl
  | none =>
    have hempty : reservation p t = "" := by
      rw [← htext, Swarm.text, hfind]
      rfl
    have hheld := check_reservation (p := p) (t := t) p.host
    rw [hempty] at hheld
    cases hheld

end Reserved

/-! ## What keeps the line -/

/-- The command leaves the line of slot 0 and the holder `p` alone. -/
def Cmd.Spares (p : Holder) : Cmd → Prop
  | .openWrite gpu_id | .write gpu_id _ => 0 ≠ gpu_id
  | .exit q => p.toProc ≠ q
  | _ => True

/-- **A command**: the slot stays Ollama's. -/
theorem Reserved.fires {w w' : World system} {e : Event system} (h : Reserved p t w.state)
    (hspares : e.cmd.Spares p) (hf : Fires w e w') : Reserved p t w'.state := by
  obtain ⟨n, o, c, x⟩ := e
  obtain ⟨⟨i, hx⟩, -⟩ := hf
  simp only at hx hspares
  generalize w'.state = s' at hx ⊢
  cases c with
  | now | monotonic | kill | «exists» | read | loadQueue =>
    cases hx
    exact h
  | glob =>
    simp only [exec] at hx
    split at hx <;> cases hx
    exact h
  | openWrite gpu_id =>
    cases hx
    exact ⟨((Swarm.text_setText ..).trans (if_neg hspares)).trans h.text, h.alive⟩
  | write gpu_id text =>
    cases hx
    exact ⟨((Swarm.text_setText ..).trans (if_neg hspares)).trans h.text, h.alive⟩
  | flock gpu_id q =>
    simp only [exec] at hx
    split at hx <;> cases hx
    · exact ⟨(Swarm.text_setLock ..).trans h.text, h.alive⟩
    · exact h
  | close gpu_id | leave gpu_id =>
    cases hx
    exact ⟨(Swarm.text_close ..).trans h.text, by rw [Swarm.alive_close]; exact h.alive⟩
  | saveQueue gpu_id queue =>
    cases hx
    exact ⟨h.text, h.alive⟩
  | elapse micros =>
    simp only [exec] at hx
    split at hx <;> cases hx
    exact ⟨h.text, h.alive⟩
  | exit q =>
    cases hx
    exact ⟨(Swarm.text_exit ..).trans h.text, (Function.update_of_ne hspares ..).trans h.alive⟩
  | never => cases hx

/-- The discipline of the runs in which the reservation stays in force. -/
def reserving (p : Holder) (t : Clock) : Discipline system :=
  keeping (InForce p t) fun w => Reserved p t w.state

variable {n : Nat} {o : Op} {α : Type}

theorem establishes_of_spares {c : Cmd} {P : World system → Prop} {P' : Resp c → World system → Prop}
    (hc : c.Spares p) (hP : ∀ w x w', Reserved p t w.state → P w → InForce p t w n o c →
      Fires w ⟨n, o, c, x⟩ w' → P' x w') : Establishes (reserving p t) n o P c P' :=
  fun w x w' hi hw hg hf => ⟨trivial, hi.fires hc hf, hP w x w' hi hw hg hf⟩

theorem outline_spares {q : P α} (h : q.Each (Cmd.Spares p)) :
    Outline (reserving p t) n o (fun _ _ => True) q fun _ => True :=
  outline_of_each stable_true (fun _ hc => establishes_of_spares hc fun _ _ _ _ _ _ _ => trivial) h

theorem stable_looked {A : List Cmd → Prop} : Stable (reserving p t) n fun w => A (looked n w) :=
  stable_mine (M := system) (p := fun l => A ((l.map Event.cmd).filter fun c => !c.isKill))

theorem looked_own {w w' : World system} {c : Cmd} {x : Resp c} (hf : Fires w ⟨n, o, c, x⟩ w') :
    looked n w' = if c.isKill then looked n w else c :: looked n w := by
  rw [looked, mine_own hf rfl, List.map_cons, List.filter_cons]
  cases c.isKill <;> simp [looked]

/-- A command that spares the slot: `φ` is what is known of its answer, and `A` becomes `B` as it joins
what the call has looked at. -/
theorem outline_next {Q : Except PyError α → World system → Prop} {c : Cmd} {f : Resp c → P α}
    {A B : List Cmd → Prop} (hc : c.Spares p) (hA : ∀ l, A l → B (if c.isKill then l else c :: l))
    (φ : Resp c → Prop) (hφ : ∀ w x w', Reserved p t w.state → A (looked n w) → InForce p t w n o c →
      Fires w ⟨n, o, c, x⟩ w' → φ x)
    (hf : ∀ x, φ x → Outline (reserving p t) n o Q (f x) fun w => B (looked n w)) :
    Outline (reserving p t) n o Q (cmd c >>= f) fun w => A (looked n w) := by
  refine outline_cmd (fun x w => B (looked n w) ∧ φ x) (fun x => stable_and stable_looked stable_pure)
    (establishes_of_spares hc fun w x w' hi hw hg hf => ⟨?_, hφ w x w' hi hw hg hf⟩) fun x => ?_
  · rw [looked_own hf]
    exact hA _ hw
  · by_cases hx : φ x
    · exact outline_pre (fun _ _ h => h.1) (hf x hx)
    · exact outline_pre (P := fun _ => False) (fun _ _ h => hx h.2) outline_false

/-! ## Claims -/

theorem spares_claim {q : Proc} {gpu_id deadline_seconds : Int} (h : 0 ≠ gpu_id) :
    (claimSlotWithDeadline q gpu_id deadline_seconds).Each (Cmd.Spares p) :=
  each_claim (each_isHeld trivial trivial fun _ => trivial) h trivial trivial (fun _ _ _ => h) trivial trivial

theorem isHeld_outline (q : Proc) {E : PyError → World system → Prop} :
    Outline (reserving p t) n o (Outcome (fun held _ => held = true) E) (isHeld q 0) fun _ => True := by
  refine outline_next (A := fun _ => True) (B := fun _ => True) trivial (fun _ _ => trivial)
    (fun there => there = true) (fun w x w' h _ _ hf => ?_) fun there hthere => ?_
  · obtain ⟨⟨i, hx⟩, -⟩ := hf
    obtain ⟨rfl, -⟩ := Prod.mk.inj (Option.some.inj hx)
    exact h.exists_file
  rw [hthere, if_pos rfl]
  refine outline_next (A := fun _ => True) (B := fun _ => True) trivial (fun _ _ => trivial)
    (fun text => text = reservation p t) (fun w x w' h _ _ hf => ?_) fun text htext => ?_
  · obtain ⟨⟨i, hx⟩, -⟩ := hf
    obtain ⟨rfl, -⟩ := Prod.mk.inj (Option.some.inj hx)
    exact h.text
  rw [htext, check_reservation]
  exact outline_ret fun _ _ _ => rfl

/-- **A claim of the slot is refused**, whoever makes it. -/
theorem claim_refused (q : Proc) (deadline_seconds : Int) :
    Outline (reserving p t) n o (fun r _ => r = .ok false) (claimSlotWithDeadline q 0 deadline_seconds)
      fun _ => True := by
  refine outline_bind (R := fun held _ => held = true) (fun held => ?_) (isHeld_outline q)
  cases held with
  | false => exact outline_pre (P := fun _ => False) (fun _ _ h => by cases h) outline_false
  | true => exact outline_ret fun _ _ _ => rfl

/-! ## Looking for stale slots -/

section Stale

variable {q : Proc} {age gpu_id : Int} {E : PyError → World system → Prop}

/-- What the guard says of a reading of the clock. -/
theorem fresh_of_inForce {w : World system} (hg : InForce p t w n (.releaseStale q age) .now) {l : List Cmd}
    (hl : looked n w = .read 0 :: l) : w.state.clock.micros ≤ (t.seconds + 30 * 86400) * 1000000 ∧
      ((looked n w)[2]? = some (.read 0) → w.state.clock.micros ≤ (t.seconds + age) * 1000000) :=
  hg.2 age rfl rfl (by rw [hl]; rfl)

theorem isStale_eq (info : SlotInfo) : isStale q info age =
    (if info.hostname = q.host ∧ 0 < info.pid then cmd (.kill ⟨info.hostname, info.pid⟩) else .ret true) >>=
      fun alive => if alive then
        (if info.heartbeat = "" then .ret false
          else cmd .now >>= fun now => .ret (staleHeartbeat info age now))
        else .ret true := by
  unfold isStale
  by_cases h : info.hostname = q.host ∧ 0 < info.pid <;> simp only [h] <;> rfl

theorem isStale_outline {info : SlotInfo} (hinfo : gpu_id = 0 → info = reservedInfo p t) :
    Outline (reserving p t) n (.releaseStale q age) (Outcome (fun stale _ => gpu_id = 0 → stale = false) E)
      (isStale q info age) fun w => ∃ l, looked n w = .read gpu_id :: .exists gpu_id :: .read gpu_id :: l := by
  let Looking (l : List Cmd) : Prop := ∃ l', l = .read gpu_id :: .exists gpu_id :: .read gpu_id :: l'
  rw [isStale_eq]
  refine outline_bind (R := fun alive w => (gpu_id = 0 → alive = true) ∧ Looking (looked n w)) (fun alive => ?_) ?_
  · cases alive with
    | false => exact outline_ret fun _ _ h hgpu => absurd (h.1 hgpu) (by decide)
    | true =>
      rw [if_pos rfl]
      split
      · exact outline_ret fun _ _ _ _ => rfl
      · refine outline_pre (fun _ _ h => h.2) (outline_next (A := Looking) (B := fun _ => True) trivial
          (fun _ _ => trivial) (fun now => gpu_id = 0 → staleHeartbeat info age now = false)
          (fun w x w' _ hlooking hg hf hgpu => ?_) fun now hnow => outline_ret fun _ _ _ => hnow)
        obtain ⟨⟨i, hx⟩, -⟩ := hf
        obtain ⟨rfl, -⟩ := Prod.mk.inj (Option.some.inj hx)
        obtain ⟨l, hl⟩ := hlooking
        rw [hgpu] at hl
        rw [hinfo hgpu]
        exact not_stale ((fresh_of_inForce hg hl).2 (by rw [hl]; rfl))
  · split
    · refine outline_next (A := Looking) (B := Looking) (f := .ret) trivial (fun _ h => h)
        (fun alive => gpu_id = 0 → alive = true) (fun w x w' h _ _ hf hgpu => ?_) fun alive halive =>
          outline_ret fun _ _ h => ⟨halive, h⟩
      obtain ⟨⟨i, hx⟩, -⟩ := hf
      obtain ⟨rfl, -⟩ := Prod.mk.inj (Option.some.inj hx)
      rw [hinfo hgpu]
      exact h.alive
    · exact outline_ret fun _ _ h => ⟨fun _ => rfl, h⟩

/-- A look at the slot's file, after which the file's text is known. -/
theorem outline_look {Q : Except PyError α → World system → Prop} {f : Option SlotInfo → P α} {r : α}
    {A : List Cmd → Prop} (hr : ∀ w, Q (.ok r) w)
    (hf : ∀ info, (gpu_id = 0 → info = some (reservedInfo p t)) →
      Outline (reserving p t) n o Q (f info) fun w => ∃ l, A l ∧ looked n w = .read gpu_id :: .exists gpu_id :: l) :
    Outline (reserving p t) n o Q (cmd (.exists gpu_id) >>= fun there => if there then
      cmd (.read gpu_id) >>= fun text => f (parseSlotInfo text) else .ret r) fun w => A (looked n w) := by
  refine outline_next (A := A) (B := fun l => ∃ l', A l' ∧ l = .exists gpu_id :: l') trivial
    (fun l hl => ⟨l, hl, rfl⟩) (fun _ => True) (fun _ _ _ _ _ _ _ => trivial) fun there _ => ?_
  split
  · refine outline_next (A := fun l => ∃ l', A l' ∧ l = .exists gpu_id :: l')
      (B := fun l => ∃ l', A l' ∧ l = .read gpu_id :: .exists gpu_id :: l') trivial ?_
      (fun text => gpu_id = 0 → text = reservation p t) (fun w x w' h _ _ hf hgpu => ?_) fun text htext => ?_
    · rintro l ⟨l', hl', rfl⟩
      exact ⟨l', hl', rfl⟩
    · obtain ⟨⟨i, hx⟩, -⟩ := hf
      obtain ⟨rfl, -⟩ := Prod.mk.inj (Option.some.inj hx)
      rw [hgpu]
      exact h.text
    · refine hf _ fun hgpu => ?_
      rw [htext hgpu, parseSlotInfo_reservation]
  · exact outline_ret fun w _ _ => hr w

theorem isSlotStale_eq : isSlotStale q gpu_id age = (cmd (.exists gpu_id) >>= fun there => if there then
    cmd (.read gpu_id) >>= fun text => (parseSlotInfo text).elim (.ret false) fun info => isStale q info age
    else .ret false) := by
  unfold isSlotStale
  refine congrArg (cmd (.exists gpu_id) >>= ·) (funext fun there => ?_)
  split
  · refine congrArg (cmd (.read gpu_id) >>= ·) (funext fun text => ?_)
    cases parseSlotInfo text <;> rfl
  · rfl

theorem isSlotExpired_eq : isSlotExpired gpu_id = (cmd (.exists gpu_id) >>= fun there => if there then
    cmd (.read gpu_id) >>= fun text => (parseSlotInfo text).elim (.ret false) fun info =>
      if info.deadline_ts = 0 then .ret false else cmd .now >>= fun now => .ret (pastDeadline info now)
    else .ret false) := by
  unfold isSlotExpired
  refine congrArg (cmd (.exists gpu_id) >>= ·) (funext fun there => ?_)
  split
  · refine congrArg (cmd (.read gpu_id) >>= ·) (funext fun text => ?_)
    cases parseSlotInfo text <;> rfl
  · rfl

theorem isSlotStale_outline : Outline (reserving p t) n (.releaseStale q age)
    (Outcome (fun stale _ => gpu_id = 0 → stale = false) E) (isSlotStale q gpu_id age)
      fun w => ∃ l, looked n w = .read gpu_id :: l := by
  rw [isSlotStale_eq]
  refine outline_look (A := fun l => ∃ l', l = .read gpu_id :: l')
    (f := fun info => info.elim (.ret false) fun info => isStale q info age) (fun _ _ => rfl) fun info hinfo => ?_
  cases info with
  | none => exact outline_ret fun _ _ _ _ => rfl
  | some info =>
    refine outline_pre ?_ (isStale_outline fun hgpu => Option.some.inj (hinfo hgpu))
    rintro w - ⟨_, ⟨l, rfl⟩, hl⟩
    exact ⟨l, hl⟩

theorem isSlotExpired_outline : Outline (reserving p t) n (.releaseStale q age)
    (Outcome (fun expired _ => gpu_id = 0 → expired = false) E) (isSlotExpired gpu_id) fun _ => True := by
  rw [isSlotExpired_eq]
  refine outline_look (A := fun _ => True)
    (f := fun info => info.elim (.ret false) fun info => if info.deadline_ts = 0 then .ret false
      else cmd .now >>= fun now => .ret (pastDeadline info now)) (fun _ _ => rfl) fun info hinfo => ?_
  cases info with
  | none => exact outline_ret fun _ _ _ _ => rfl
  | some info =>
    show Outline _ _ _ _ (if info.deadline_ts = 0 then _ else _) _
    split
    · exact outline_ret fun _ _ _ _ => rfl
    · refine outline_next (A := fun l => ∃ l', True ∧ l = .read gpu_id :: .exists gpu_id :: l')
        (B := fun _ => True) trivial (fun _ _ => trivial) (fun now => gpu_id = 0 → pastDeadline info now = false)
        (fun w x w' _ hlooking hg hf hgpu => ?_) fun now hnow => outline_ret fun _ _ _ => hnow
      obtain ⟨⟨i, hx⟩, -⟩ := hf
      obtain ⟨rfl, -⟩ := Prod.mk.inj (Option.some.inj hx)
      obtain ⟨l, -, hl⟩ := hlooking
      rw [hgpu] at hl
      rw [Option.some.inj (hinfo hgpu)]
      exact not_past (fresh_of_inForce hg hl).1

theorem releaseEach_cons (ids : List Int) : releaseEach q age (gpu_id :: ids) =
    (cmd (.read gpu_id) >>= fun text => if strip text.toList = [] then releaseEach q age ids
      else isSlotStale q gpu_id age >>= fun stale =>
        (if stale then .ret true else isSlotExpired gpu_id) >>= fun should_release =>
          if should_release then
            cmd (.openWrite gpu_id) >>= fun _ => releaseEach q age ids >>= fun released => .ret (gpu_id :: released)
          else releaseEach q age ids) := by
  rw [releaseEach]
  refine congrArg (cmd (.read gpu_id) >>= ·) (funext fun text => ?_)
  split
  · rfl
  · refine congrArg (isSlotStale q gpu_id age >>= ·) (funext fun stale => ?_)
    cases stale <;> rfl

/-- **The loop** passes the slot by. -/
theorem releaseEach_outline : ∀ ids : List Int, Outline (reserving p t) n (.releaseStale q age)
    (fun _ _ => True) (releaseEach q age ids) fun _ => True
  | [] => outline_ret fun _ _ _ => trivial
  | gpu_id :: ids => by
    rw [releaseEach_cons]
    refine outline_next (A := fun _ => True) (B := fun l => ∃ l', l = .read gpu_id :: l') trivial
      (fun l _ => ⟨l, rfl⟩) (fun _ => True) (fun _ _ _ _ _ _ _ => trivial) fun text _ => ?_
    split
    · exact outline_pre (fun _ _ _ => trivial) (releaseEach_outline ids)
    refine outline_bind (R := fun stale _ => gpu_id = 0 → stale = false) (fun stale => ?_) isSlotStale_outline
    refine outline_bind (R := fun released _ => gpu_id = 0 → released = false) (fun released => ?_) ?_
    · cases released with
      | false => exact outline_pre (fun _ _ _ => trivial) (releaseEach_outline ids)
      | true =>
        rw [if_pos rfl]
        by_cases hgpu : 0 = gpu_id
        · exact outline_pre (P := fun _ => False) (fun _ _ h => by cases h hgpu.symm) outline_false
        · refine outline_cmd (fun _ _ => True) (fun _ => stable_true)
            (establishes_of_spares hgpu fun _ _ _ _ _ _ _ => trivial) fun _ => ?_
          refine outline_bind (R := fun _ _ => True) (fun _ => outline_ret fun _ _ _ => trivial) ?_
          exact outline_mono (fun _ _ h => h) (fun r _ _ _ => by cases r <;> trivial) (releaseEach_outline ids)
    · cases stale with
      | true => exact outline_ret fun _ _ h => h
      | false => exact outline_pre (fun _ _ _ => trivial) isSlotExpired_outline

end Stale

/-! ## Any run -/

/-- What the outcome of a call says of the slot. -/
def Refused : (o : Op) → Except PyError (Ret o) → Prop
  | .claim _ gpu_id, r => gpu_id = 0 → r = .ok false
  | _, _ => True

theorem prog_outline (n : Nat) (o : Op) :
    Outline (reserving p t) n o (fun r _ => Refused o r) (prog o) (Untouched n) := by
  refine outline_pre (P := fun _ => True) (fun _ _ _ => trivial) ?_
  cases o with
  | claim q gpu_id =>
    by_cases hgpu : 0 = gpu_id
    · obtain rfl := hgpu
      exact outline_mono (fun _ _ h => h) (fun _ _ _ h _ => h) (claim_refused q _)
    · exact outline_mono (fun _ _ h => h) (fun _ _ _ _ h => absurd h.symm hgpu) (outline_spares (spares_claim hgpu))
  | claimWithDeadline q gpu_id deadline_seconds =>
    by_cases hgpu : 0 = gpu_id
    · obtain rfl := hgpu
      exact outline_mono (fun _ _ h => h) (fun _ _ _ _ => trivial) (claim_refused q _)
    · exact outline_spares (spares_claim hgpu)
  | setupOllama q => exact outline_mono (fun _ _ h => h) (fun _ _ _ _ => trivial) (claim_refused q _)
  | release q gpu_id =>
    by_cases hgpu : 0 = gpu_id
    · have hnot (w : World system) (c : Cmd) : ¬ InForce p t w n (.release q gpu_id) c := fun hg =>
        hg.1.2.1 (congrArg some hgpu.symm)
      exact outline_unguarded hnot (fun _ _ _ _ => trivial) _
    · exact outline_spares (each_release trivial trivial hgpu)
  | heartbeat q gpu_id =>
    by_cases hgpu : 0 = gpu_id
    · have hnot (w : World system) (c : Cmd) : ¬ InForce p t w n (.heartbeat q gpu_id) c := fun hg =>
        hg.1.2.1 (congrArg some hgpu.symm)
      exact outline_unguarded hnot (fun _ _ _ _ => trivial) _
    · exact outline_spares (each_heartbeat trivial trivial trivial hgpu fun _ _ _ _ _ => hgpu)
  | releaseStale q age =>
    refine outline_cmd (fun _ _ => True) (fun _ => stable_true)
      (establishes_of_spares trivial fun _ _ _ _ _ _ _ => trivial) fun ids => releaseEach_outline ids
  | elapse micros => exact outline_spares ⟨trivial, fun _ => trivial⟩
  | exit q =>
    by_cases hq : p.toProc = q
    · have hnot (w : World system) (c : Cmd) : ¬ InForce p t w n (.exit q) c := fun hg =>
        hg.1.1 (congrArg some hq.symm)
      exact outline_unguarded hnot (fun _ _ _ _ => trivial) _
    · exact outline_spares ⟨hq, fun _ => trivial⟩

/-- **The lock files**: a run from a state in which the slot is Ollama's. -/
theorem refuses_of_reserved {s : Swarm} {c : Config system} (h : Reserved p t s)
    (hrun : Run (InForce p t) (.init s) c) : Refuses c := by
  intro n q r hended
  exact (run_sound (D := reserving p t) prog_outline h hrun).ended hended rfl

/-! ## The reservation -/

theorem runs_isHeld {q : Proc} {gpu_id : Int} {s s' : Swarm} {held : Bool}
    (h : store.Runs n (isHeld q gpu_id) s (.ok held) s') : s' = s := by
  let Reads (c : Cmd) : Prop := ∀ i s₁ x s₂, exec n i s₁ c = some (x, s₂) → s₂ = s₁
  have heach : (isHeld q gpu_id).Each Reads := by
    refine each_isHeld ?_ ?_ fun _ => ?_ <;> intro i s₁ x s₂ hx <;> cases hx <;> rfl
  have htriple : store.Triple n (fun _ => True) (fun s₁ => s₁ = s) (isHeld q gpu_id) fun _ s₁ => s₁ = s :=
    Store.triple_each (fun c hc i s₁ x s₂ _ hs hx => ⟨trivial, (hc i s₁ x s₂ hx).trans hs⟩) heach
  exact htriple.runs trivial rfl h

/-- **`setup_ollama_slot`**: when it returns `True` the slot is Ollama's. -/
theorem reserved_of_setup {s s' : Swarm} (halive : s.alive p.toProc = true)
    (h : store.Runs n (setupOllamaSlot p) s (.ok true) s') : Reserved p s.clock s' := by
  rcases (store.runs_bind n).mp h with ⟨held, s₁, hheld, h⟩ | ⟨e, -, he⟩
  · obtain rfl := runs_isHeld hheld
    cases held with
    | true => cases h.1
    | false =>
      obtain ⟨_, _, s₂, hopen, _, locked, s₃, hlock, h⟩ := h
      cases hopen
      cases locked with
      | false =>
        obtain ⟨_, _, _, _, hr, -⟩ := h
        cases hr
      | true =>
        simp only [exec] at hlock
        split at hlock <;> cases hlock
        obtain ⟨_, _, _, hstamp, _, _, _, htime, _, _, _, hwrite, _, _, _, hleave, -, rfl⟩ := h
        cases hstamp
        cases htime
        cases hwrite
        cases hleave
        refine ⟨?_, by simpa using halive⟩
        rw [Swarm.text_close, Swarm.text_setText, if_pos rfl, Swarm.text_setLock, Swarm.text_setText, if_pos rfl,
          overlay_empty]
        rfl
  · cases he

end Lockfile

namespace Redis

/-! ## The key -/

/-- The slot a `DELETE` is for. -/
def Cmd.deletes : Cmd → Option Int
  | .delete slot => some slot
  | _ => none

/-- The slot a `SET NX` is for. -/
def Cmd.sets : Cmd → Option Int
  | .setNxEx slot _ _ => some slot
  | _ => none

/-- The slot the call releases. -/
def Op.releases : Op → Option Int
  | .release _ gpu_id => some gpu_id
  | _ => none

/-- Nobody releases slot 0, and less than 30 days have passed since `t`. -/
def LeftAlone (t : Nat) : Guard system := fun w _ o _ =>
  o.releases ≠ some 0 ∧ w.state.now < t + 30 * 86400 * 1000

instance (t : Nat) (w : World system) (n : Nat) (o : Op) (c : Cmd) : Decidable (LeftAlone t w n o c) :=
  inferInstanceAs (Decidable (_ ∧ _))

/-- When someone tries to set it, the key of slot 0 set at `t` has not expired. -/
def Fresh (t : Nat) : Guard system := fun w _ _ c => c.sets = some 0 → w.state.now < t + 1000 * gpuSlotTtl

instance (t : Nat) (w : World system) (n : Nat) (o : Op) (c : Cmd) : Decidable (Fresh t w n o c) :=
  inferInstanceAs (Decidable (_ → _))

/-- The slot is left alone, and its key has not expired. -/
def InForce (t : Nat) : Guard system := fun w n o c => LeftAlone t w n o c ∧ Fresh t w n o c

instance (t : Nat) (w : World system) (n : Nat) (o : Op) (c : Cmd) : Decidable (InForce t w n o c) :=
  inferInstanceAs (Decidable (_ ∧ _))

/-- Every claim of slot 0 that has ended has returned `False`. -/
def Refuses (c : Config system) : Prop :=
  ∀ n q timeout_seconds rounds r, c.Ended n (.claim q 0 timeout_seconds rounds) r → r = .ok false

/-- Slot 0 is Ollama's, since `t`. -/
def Reserved (t : Nat) (s : Server) : Prop := s.slots 0 = some ⟨"ollama-permanent", t + 1000 * gpuSlotTtl⟩

variable {t n : Nat} {o : Op}

theorem Reserved.isSome {s : Server} (h : Reserved t s) (hnow : s.now < t + 1000 * gpuSlotTtl) :
    (s.get 0).isNone = false := by
  rw [Server.get, h]
  simp [Option.filter, hnow]

/-- **A command**: the key stays. -/
theorem Reserved.fires {w w' : World system} {e : Event system} (h : Reserved t w.state)
    (hfresh : Fresh t w e.call e.op e.cmd) (hspares : e.cmd.deletes ≠ some 0) (hf : Fires w e w') :
    Reserved t w'.state := by
  obtain ⟨n, o, c, x⟩ := e
  obtain ⟨⟨i, hx⟩, -⟩ := hf
  simp only at hx hspares
  generalize w'.state = s' at hx ⊢
  cases c with
  | time | get | elapse =>
    cases hx
    exact h
  | delete slot =>
    cases hx
    exact (Function.update_of_ne (fun he => hspares (congrArg some he.symm)) ..).trans h
  | setNxEx slot holder ttl =>
    by_cases hslot : slot = 0
    · subst hslot
      simp only [exec, h.isSome (hfresh rfl)] at hx
      cases hx
      exact h
    · simp only [exec] at hx
      split at hx <;> cases hx
      · exact (Function.update_of_ne (fun he => hslot he.symm) ..).trans h
      · exact h

/-- The discipline of the runs in which the reservation stays in force. -/
def reserving (t : Nat) : Discipline system := keeping (InForce t) fun w => Reserved t w.state

theorem establishes_of_spares {c : Cmd} {P : World system → Prop} {P' : Resp c → World system → Prop}
    (hc : c.deletes ≠ some 0) (hP : ∀ w x w', Reserved t w.state → P w → InForce t w n o c →
      Fires w ⟨n, o, c, x⟩ w' → P' x w') : Establishes (reserving t) n o P c P' :=
  fun w x w' hi hw hg hf => ⟨trivial, hi.fires hg.2 hc hf, hP w x w' hi hw hg hf⟩

theorem outline_spares {α : Type} {q : P α} (h : q.Each fun c : Cmd => c.deletes ≠ some 0) :
    Outline (reserving t) n o (fun _ _ => True) q fun _ => True :=
  outline_of_each stable_true (fun _ hc => establishes_of_spares hc fun _ _ _ _ _ _ _ => trivial) h

theorem deletes_of_keeps {c : Cmd} (h : c.Keeps) : c.deletes ≠ some 0 := by
  cases c with
  | delete => exact h.elim
  | _ => exact fun he => by cases he

/-- **A claim of the slot is refused.** -/
theorem claimGpuSlot_refused (holder : String) {Q : Except PyError Bool → World system → Prop}
    (hQ : ∀ w, Q (.ok false) w) : Outline (reserving t) n o Q (claimGpuSlot 0 holder) fun _ => True := by
  refine outline_cmd (f := .ret) (fun claimed _ => claimed = false) (fun _ => stable_pure)
    (establishes_of_spares (by simp [Cmd.deletes]) fun w x w' h _ hg hf => ?_) fun claimed => ?_
  · obtain ⟨⟨i, hx⟩, -⟩ := hf
    simp only [exec, h.isSome (hg.2 rfl)] at hx
    exact (Prod.mk.inj (Option.some.inj hx)).1.symm
  · exact outline_ret fun w _ h => h ▸ hQ w

theorem claimUntil_refused (deadline : Python.Time) (holder : String) : ∀ rounds : Nat,
    Outline (reserving t) n o (fun r _ => r = .ok false) (claimUntil deadline 0 holder rounds) fun _ => True
  | 0 => outline_ret fun _ _ _ => rfl
  | rounds + 1 => by
    refine outline_cmd (fun _ _ => True) (fun _ => stable_true)
      (establishes_of_spares (by decide) fun _ _ _ _ _ _ _ => trivial) fun time => ?_
    split
    · refine outline_bind (R := fun claimed _ => claimed = false) (fun claimed => ?_)
        (claimGpuSlot_refused holder fun _ => rfl)
      cases claimed with
      | false => exact outline_pre (fun _ _ _ => trivial) (claimUntil_refused deadline holder rounds)
      | true => exact outline_pre (P := fun _ => False) (fun _ _ h => by cases h) outline_false
    · exact outline_ret fun _ _ _ => rfl

theorem claimSlot_refused (q : Proc) (timeout_seconds : Int) (rounds : Nat) :
    Outline (reserving t) n o (fun r _ => r = .ok false) (claimSlot q 0 timeout_seconds rounds) fun _ => True := by
  unfold claimSlot
  split
  · exact claimGpuSlot_refused _ fun _ => rfl
  · exact outline_cmd (fun _ _ => True) (fun _ => stable_true)
      (establishes_of_spares (by decide) fun _ _ _ _ _ _ _ => trivial) fun _ => claimUntil_refused _ _ _

/-- What the outcome of a call says of the slot. -/
def Refused : (o : Op) → Except PyError (Ret o) → Prop
  | .claim _ gpu_id _ _, r => gpu_id = 0 → r = .ok false
  | _, _ => True

theorem prog_outline (n : Nat) (o : Op) :
    Outline (reserving t) n o (fun r _ => Refused o r) (prog o) (Untouched n) := by
  refine outline_pre (P := fun _ => True) (fun _ _ _ => trivial) ?_
  cases o with
  | claim q gpu_id timeout_seconds rounds =>
    by_cases hgpu : gpu_id = 0
    · subst hgpu
      exact outline_mono (fun _ _ h => h) (fun _ _ _ h _ => h) (claimSlot_refused q _ _)
    · refine outline_mono (fun _ _ h => h) (fun _ _ _ _ h => absurd h hgpu) (outline_spares ?_)
      exact Prog.each_mono (fun c hc => deletes_of_keeps hc) each_claimSlot
  | release q gpu_id =>
    by_cases hgpu : gpu_id = 0
    · have hnot (w : World system) (c : Cmd) : ¬ InForce t w n (.release q gpu_id) c := fun hg =>
        hg.1.1 (congrArg some hgpu)
      exact outline_unguarded hnot (fun _ _ _ _ => trivial) _
    · refine outline_spares (Prog.each_cmd_bind (by simp [Cmd.deletes]) fun current => ?_)
      split
      · exact ⟨fun h => hgpu (Option.some.inj h), fun _ => trivial⟩
      · trivial
  | setupOllama =>
    exact outline_mono (fun _ _ h => h) (fun _ _ _ _ => trivial)
      (claimGpuSlot_refused _ (Q := fun r _ => r = .ok false) fun _ => rfl)
  | elapse ms => exact outline_spares ⟨by simp [Cmd.deletes], fun _ => trivial⟩

/-- **Redis**: a run from a state in which the slot is Ollama's. -/
theorem refuses_of_reserved {s : Server} {c : Config system} (h : Reserved t s) (hrun : Run (InForce t) (.init s) c) :
    Refuses c := by
  intro n q timeout_seconds rounds r hended
  exact (run_sound (D := reserving t) prog_outline h hrun).ended hended rfl

/-- **`setup_ollama_slot`**: when it returns `True` the slot is Ollama's. -/
theorem reserved_of_setup {s s' : Server} (h : store.Runs n setupOllamaSlot s (.ok true) s') :
    Reserved s.now s' := by
  obtain ⟨i, x, s₁, hx, hr, rfl⟩ := h
  cases hr
  simp only [exec] at hx
  split at hx <;> cases hx
  simp [Reserved, Server.put]

end Redis

/-! ## The reservation -/

/-- **The reservation holds while it is fresh**: after a `setup_ollama_slot` that returned `True`, on either
backend, every claim of slot 0 returns `False`. -/
theorem refused_while_fresh {p : Holder} {s s' : Lockfile.Swarm} {c : Config Lockfile.system} {v v' : Redis.Server}
    {d : Config Redis.system} (halive : s.alive p.toProc = true)
    (hfiles : Lockfile.store.Runs 0 (Lockfile.setupOllamaSlot p) s (.ok true) s')
    (hc : Run (Lockfile.InForce p s.clock) (.init s') c)
    (hredis : Redis.store.Runs 0 Redis.setupOllamaSlot v (.ok true) v') (hd : Run (Redis.InForce v.now) (.init v') d) :
    Lockfile.Refuses c ∧ Redis.Refuses d :=
  ⟨Lockfile.refuses_of_reserved (Lockfile.reserved_of_setup halive hfiles) hc,
    Redis.refuses_of_reserved (Redis.reserved_of_setup hredis) hd⟩

/-! ## Runs -/

/-- `True` was returned. -/
def succeeded : Except PyError Bool → Bool
  | .ok won => won
  | .error _ => false

theorem eq_of_succeeded {r : Except PyError Bool} (h : succeeded r = true) : r = .ok true := by
  cases r with
  | ok won => exact congrArg Except.ok h
  | error e => cases h

namespace Lockfile

/-- What call `n` has returned, a claim of slot 0. -/
def answer (c : Config system) (n : Nat) : Option Bool :=
  match c.proc n with
  | some ⟨.claim _ gpu_id, .ret (won : Bool)⟩ => if gpu_id = 0 then some won else none
  | _ => none

theorem returned_of_answer {c : Config system} {n : Nat} {won : Bool} (h : answer c n = some won) :
    ∃ q, c.Returned n (.claim q 0) won := by
  unfold answer at h
  split at h
  · rename_i q gpu_id r hproc
    split at h <;> cases h
    subst gpu_id
    exact ⟨q, hproc⟩
  · cases h

/-- The process that makes the reservation. -/
def ollama : Holder := ⟨⟨"a", 1⟩, by decide, by decide, by decide, by decide⟩

/-- A process on another host. -/
def other : Holder := ⟨⟨"b", 2⟩, by decide, by decide, by decide, by decide⟩

/-- No slot has been claimed yet. -/
def bare : Swarm := ⟨⟨0, Clock.epoch_inRange⟩, fun _ => true, .empty, fun _ => []⟩

/-- The reservation, made with no file there. -/
def setUp : Option (Except PyError Bool × Swarm) :=
  store.runWith 0 (setupOllamaSlot ollama) (List.replicate 7 []) bare

/-- After `seconds` the other process looks for stale slots, in `k` steps, and claims slot 0, in `l`. -/
def lookAndClaim (seconds k l : Nat) : List (Act system) :=
  solo system 0 (.elapse (seconds * 1000000)) 1 [] ++ solo system 1 (.releaseStale other 300) k [0] ++
    solo system 2 (.claim other 0) l []

/-- The other process gets the slot after 301 seconds. -/
theorem slot_taken : ∃ s' c, store.Runs 0 (setupOllamaSlot ollama) bare (.ok true) s' ∧
    Run (LeftAlone ollama bare.clock) (.init s') c ∧ ¬ Refuses c := by
  have hplay : setUp.any (fun q => succeeded q.1 && (play (LeftAlone ollama bare.clock) (.init q.2)
      (lookAndClaim 301 6 8)).any fun c => answer c 2 = some true) = true := by
    decide +kernel
  obtain ⟨⟨r, s'⟩, hsetup, hrest⟩ := (Option.any_eq_true _ _).mp hplay
  rw [Bool.and_eq_true] at hrest
  obtain ⟨c, hrun, hanswer⟩ := exists_run_of_play hrest.2
  obtain ⟨q, hreturned⟩ := returned_of_answer (of_decide_eq_true hanswer)
  obtain rfl := eq_of_succeeded hrest.1
  refine ⟨s', c, store.runs_of_runWith 0 hsetup, hrun, fun h => ?_⟩
  cases h 2 q (.ok true) hreturned

end Lockfile

namespace Redis

/-- What call `n` has returned, a claim of slot 0. -/
def answer (c : Config system) (n : Nat) : Option Bool :=
  match c.proc n with
  | some ⟨.claim _ gpu_id _ _, .ret (won : Bool)⟩ => if gpu_id = 0 then some won else none
  | _ => none

theorem returned_of_answer {c : Config system} {n : Nat} {won : Bool} (h : answer c n = some won) :
    ∃ q timeout_seconds rounds, c.Returned n (.claim q 0 timeout_seconds rounds) won := by
  unfold answer at h
  split at h
  · rename_i q gpu_id timeout_seconds rounds r hproc
    split at h <;> cases h
    subst gpu_id
    exact ⟨q, timeout_seconds, rounds, hproc⟩
  · cases h

/-- The reservation, made on an empty server. -/
def setUp : Option (Except PyError Bool × Server) := store.runWith 0 setupOllamaSlot [0] .empty

/-- Another process claims slot 0 after `ms`. -/
def claimAfter (ms : Nat) : List (Act system) :=
  solo system 0 (.elapse ms) 1 0 ++ solo system 1 (.claim b 0 0 0) 1 0

/-- Another process gets the slot after 300 seconds. -/
theorem slot_taken : ∃ s' c, store.Runs 0 setupOllamaSlot .empty (.ok true) s' ∧
    Run (LeftAlone Server.empty.now) (.init s') c ∧ ¬ Refuses c := by
  have hplay : setUp.any (fun q => succeeded q.1 && (play (LeftAlone Server.empty.now) (.init q.2)
      (claimAfter 300000)).any fun c => answer c 1 = some true) = true := by
    decide +kernel
  obtain ⟨⟨r, s'⟩, hsetup, hrest⟩ := (Option.any_eq_true _ _).mp hplay
  rw [Bool.and_eq_true] at hrest
  obtain ⟨c, hrun, hanswer⟩ := exists_run_of_play hrest.2
  obtain ⟨q, timeout_seconds, rounds, hreturned⟩ := returned_of_answer (of_decide_eq_true hanswer)
  obtain rfl := eq_of_succeeded hrest.1
  refine ⟨s', c, store.runs_of_runWith 0 hsetup, hrun, fun h => ?_⟩
  cases h 1 q timeout_seconds rounds (.ok true) hreturned

end Redis

/-- The reservation is not permanent, on neither backend. -/
theorem reservation_lost :
    (¬ ∀ (p : Holder) (s s' : Lockfile.Swarm) (c : Config Lockfile.system), s.alive p.toProc = true →
      Lockfile.store.Runs 0 (Lockfile.setupOllamaSlot p) s (.ok true) s' →
        Run (Lockfile.LeftAlone p s.clock) (.init s') c → Lockfile.Refuses c) ∧
    ¬ ∀ (s s' : Redis.Server) (c : Config Redis.system), Redis.store.Runs 0 Redis.setupOllamaSlot s (.ok true) s' →
      Run (Redis.LeftAlone s.now) (.init s') c → Redis.Refuses c := by
  constructor
  · intro h
    obtain ⟨s', c, hsetup, hrun, hnot⟩ := Lockfile.slot_taken
    exact hnot (h Lockfile.ollama Lockfile.bare s' c rfl hsetup hrun)
  · intro h
    obtain ⟨s', c, hsetup, hrun, hnot⟩ := Redis.slot_taken
    exact hnot (h .empty s' c hsetup hrun)

/-- After 299 seconds the slot is still Ollama's. -/
theorem refused_while_fresh_299 : ∃ s' c v' d,
    Lockfile.store.Runs 0 (Lockfile.setupOllamaSlot Lockfile.ollama) Lockfile.bare (.ok true) s' ∧
      Run (Lockfile.InForce Lockfile.ollama Lockfile.bare.clock) (.init s') c ∧ Lockfile.answer c 2 = some false ∧
    Redis.store.Runs 0 Redis.setupOllamaSlot .empty (.ok true) v' ∧
      Run (Redis.InForce Redis.Server.empty.now) (.init v') d ∧ Redis.answer d 1 = some false ∧
    Lockfile.Refuses c ∧ Redis.Refuses d := by
  have hfiles : Lockfile.setUp.any (fun q => succeeded q.1 && (play (Lockfile.InForce Lockfile.ollama
      Lockfile.bare.clock) (.init q.2) (Lockfile.lookAndClaim 299 8 2)).any fun c =>
        Lockfile.answer c 2 = some false) = true := by
    decide +kernel
  have hredis : Redis.setUp.any (fun q => succeeded q.1 && (play (Redis.InForce Redis.Server.empty.now) (.init q.2)
      (Redis.claimAfter 299000)).any fun c => Redis.answer c 1 = some false) = true := by
    decide +kernel
  obtain ⟨⟨r, s'⟩, hsetup, hrest⟩ := (Option.any_eq_true _ _).mp hfiles
  rw [Bool.and_eq_true] at hrest
  obtain ⟨c, hc, hanswer⟩ := exists_run_of_play hrest.2
  obtain rfl := eq_of_succeeded hrest.1
  obtain ⟨⟨r, v'⟩, hsetup', hrest'⟩ := (Option.any_eq_true _ _).mp hredis
  rw [Bool.and_eq_true] at hrest'
  obtain ⟨d, hd, hanswer'⟩ := exists_run_of_play hrest'.2
  obtain rfl := eq_of_succeeded hrest'.1
  have hruns := Lockfile.store.runs_of_runWith 0 hsetup
  have hruns' := Redis.store.runs_of_runWith 0 hsetup'
  exact ⟨s', c, v', d, hruns, hc, of_decide_eq_true hanswer, hruns', hd, of_decide_eq_true hanswer',
    refused_while_fresh rfl hruns hc hruns' hd⟩

end ClaudeSwarm.GpuSlots
