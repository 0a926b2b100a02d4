import ClaudeSwarm.Ipc.Direct

/-!
# Sweeping an inbox

`sweep_pending` of `src/ipc/dlq.py`, called again and again with nothing else happening, on an inbox whose pending
entries need not be in the stream any more: the list of a consumer group keeps an entry when `XADD MAXLEN` drops its
message. A sweep looks at the first 50 pending entries and acknowledges those whose messages it finds, so an entry
without a message stays, and 50 of them at the front keep all others from being looked at. The DLQ drops old entries
beyond 5000.

* `runs_sweepEach`: what the loop takes from the pending entries, and what it adds to the DLQ.
* `sweeps_live`: where every message is there, each sweep takes the first 50.
* **`progress_iff`**: sweeps make progress if and only if every pending entry has its message and there are at most 5000.
* `trimmed_stays`: one pending entry without a message.
-/

namespace ClaudeSwarm.Ipc.Sweep

open Interleave Data Redis
open Direct (Cmd Resp Fields Row Server Exc sig sweepEach sweepPending)

/-! ## The server -/

/-- An inbox: what is in the stream, and what is pending, with the time of its delivery in milliseconds; beside it the
DLQ, its mirror and the time. -/
structure State where
  log : Log Fields
  pending : List (StreamId × Nat)
  ascending : (pending.map Prod.fst).Pairwise (· < ·)
  dlq : Log Fields
  rows : Table Row.stream_id
  now : Nat

/-- `XADD ipc:dlq MAXLEN ~ 5000`. -/
def addDlq (S : Server) (dlq : Log Fields) (now : Nat) (fields : Fields) : Log Fields :=
  let dlq := dlq.add now fields
  dlq.trim (min (S.dropped dlq) (dlq.entries.length - 5000))

namespace State

/-- The message of a pending entry is in the stream. -/
def live (s : State) (p : StreamId × Nat) : Bool := (s.log.entry? p.1).isSome

/-- `XPENDING key group - + count`. -/
def pendingRange (s : State) (count : Nat) : List (StreamId × Nat) :=
  (s.pending.take count).map fun p => (p.1, s.now - p.2)

/-- `XACK`. -/
def ack (s : State) (ids : List StreamId) : State :=
  { s with
    pending := s.pending.filter fun p => !ids.contains p.1
    ascending := s.ascending.sublist (List.filter_sublist.map Prod.fst) }

/-- `INSERT OR IGNORE INTO dlq_entries`. -/
def persist (s : State) (stream_id : StreamId) (reason : String) (fields : Fields) : State :=
  { s with rows := (s.rows.insert ⟨stream_id, reason, fields, s.now, none, none⟩).getD s.rows }

/-- Every pending entry has been idle for more than 60 seconds. -/
def Idle (s : State) : Prop := ∀ p ∈ s.pending, p.2 + 60000 < s.now

end State

/-- A command of a sweep; nobody issues others. -/
def execAt (S : Server) (s : State) : (c : Cmd) → Option (Resp c × State)
  | .xpending _ count => some (s.pendingRange count, s)
  | .xrangeInbox _ id => some (s.log.entry? id, s)
  | .xaddDlq fields => some (s.dlq.next s.now, { s with dlq := addDlq S s.dlq s.now fields })
  | .persist stream_id reason fields => some ((), s.persist stream_id reason fields)
  | .xack _ ids => some ((), s.ack ids)
  | _ => none

/-- Time goes on, or stands still, until a command. -/
def exec (S : Server) (now : Nat) (s : State) (c : Cmd) : Option (Resp c × State) :=
  if now < s.now then none else execAt S { s with now } c

abbrev store (S : Server) : Store sig := ⟨State, Nat, fun _ => exec S⟩

/-- One call of `sweep_pending`, from `s` to `s'`. -/
def Call (S : Server) (agent_id : String) (s s' : State) : Prop :=
  ∃ moved, (store S).Runs 0 (sweepPending agent_id) s (.ok moved) s'

/-- A number of calls, one after the other. -/
def Calls (S : Server) (agent_id : String) : Nat → State → State → Prop
  | 0, s, s' => s' = s
  | k + 1, s, s' => ∃ s₁, Call S agent_id s s₁ ∧ Calls S agent_id k s₁ s'

/-! ## What is said of the calls -/

/-- The fields of the message with a reason of the DLQ's. -/
def Copied (log : Log Fields) (id : StreamId) (f : Fields) : Prop :=
  ∃ fields reason, log.entry? id = some fields ∧ f = { fields with reason := some reason }

/-- The DLQ ends with one copy of each message that was pending and in the stream, after some of what it held before. -/
def DeadLettered (s s' : State) : Prop :=
  ∃ old added, s'.dlq.entries.map Prod.snd = old ++ added ∧ old <:+ s.dlq.entries.map Prod.snd ∧
    List.Forall₂ (Copied s.log) ((s.pending.filter s.live).map Prod.fst) added

/-- Every call takes at least 50 entries from the pending ones, or all, and as many calls as that takes leave none, with
each message in the DLQ once. -/
def Progress (agent_id : String) (s : State) : Prop :=
  ∀ S k s₁, Calls S agent_id k s s₁ →
    (∀ s₂, Call S agent_id s₁ s₂ → s₂.pending.length + min s₁.pending.length 50 ≤ s₁.pending.length) ∧
    (k = (s.pending.length + 49) / 50 → s₁.pending = [] ∧ DeadLettered s s₁)

/-! ## The DLQ -/

/-- Entries are added at some times. -/
def addAll (S : Server) (dlq : Log Fields) (adds : List (Nat × Fields)) : Log Fields :=
  adds.foldl (fun dlq a => addDlq S dlq a.1 a.2) dlq

section

variable {S : Server} {dlq : Log Fields} {adds : List (Nat × Fields)}

theorem addDlq_entries (S : Server) (dlq : Log Fields) (now : Nat) (fields : Fields) :
    ∃ k, k ≤ dlq.entries.length + 1 - 5000 ∧ (addDlq S dlq now fields).entries.map Prod.snd =
      (dlq.entries.map Prod.snd ++ [fields]).drop k := by
  refine ⟨min (S.dropped (dlq.add now fields)) ((dlq.add now fields).entries.length - 5000), ?_, ?_⟩
  · refine (Nat.min_le_right _ _).trans ?_
    simp [Log.add]
  · simp [addDlq, Log.trim, Log.add, List.map_drop]

/-- What was added is at the end, and what is dropped is beyond 5000. -/
theorem addAll_entries : ∀ (adds : List (Nat × Fields)) (dlq : Log Fields),
    ∃ k, k ≤ dlq.entries.length + adds.length - 5000 ∧
      (addAll S dlq adds).entries.map Prod.snd = (dlq.entries.map Prod.snd ++ adds.map Prod.snd).drop k
  | [], dlq => ⟨0, Nat.zero_le _, by simp [addAll]⟩
  | a :: adds, dlq => by
    obtain ⟨k₁, hk₁, h₁⟩ := addDlq_entries S dlq a.1 a.2
    obtain ⟨k₂, hk₂, h₂⟩ := addAll_entries adds (addDlq S dlq a.1 a.2)
    have hlength : (addDlq S dlq a.1 a.2).entries.length = dlq.entries.length + 1 - k₁ := by
      have := congrArg List.length h₁
      simpa using this
    have hwithin : k₁ ≤ (dlq.entries.map Prod.snd ++ [a.2]).length := by
      rw [List.length_append, List.length_map, List.length_singleton]
      omega
    refine ⟨k₁ + k₂, ?_, ?_⟩
    · rw [List.length_cons]
      omega
    · refine h₂.trans ?_
      rw [h₁, ← List.drop_append_of_le_length hwithin, List.drop_drop, List.map_cons]
      simp

end

/-! ## A sweep -/

/-- The messages `ids` went from the pending entries to the DLQ. -/
structure Swept (S : Server) (s : State) (ids : List StreamId) (s' : State) : Prop where
  log : s'.log = s.log
  now : s.now ≤ s'.now
  pending : s'.pending = s.pending.filter fun p => !ids.contains p.1
  dlq : ∃ adds : List (Nat × Fields), s'.dlq = addAll S s.dlq adds ∧
    List.Forall₂ (Copied s.log) ids (adds.map Prod.snd)

/-- The ids of the entries that have a message. -/
def found (s : State) (ps : List (StreamId × Nat)) : List StreamId := (ps.filter s.live).map Prod.fst

section

variable {S : Server} {agent_id : String} {n : Nat} {s s₁ s' : State} {ids ids' : List StreamId}
  {p : StreamId × Nat} {ps : List (StreamId × Nat)}

theorem Swept.refl (hnow : s.now ≤ s'.now) (hlog : s'.log = s.log) (hpending : s'.pending = s.pending)
    (hdlq : s'.dlq = s.dlq) : Swept S s [] s' :=
  ⟨hlog, hnow, by simp [hpending], [], hdlq, .nil⟩

theorem Swept.trans (h : Swept S s ids s₁) (h' : Swept S s₁ ids' s') : Swept S s (ids ++ ids') s' := by
  obtain ⟨adds, hdlq, hadds⟩ := h.dlq
  obtain ⟨adds', hdlq', hadds'⟩ := h'.dlq
  refine ⟨h'.log.trans h.log, h.now.trans h'.now, ?_, adds ++ adds', ?_, ?_⟩
  · rw [h'.pending, h.pending, List.filter_filter]
    refine List.filter_congr fun p _ => ?_
    rw [List.contains_append, Bool.not_or, Bool.and_comm]
  · rw [hdlq', hdlq, addAll, addAll, addAll, List.foldl_append]
  · rw [List.map_append]
    rw [h.log] at hadds'
    exact List.rel_append hadds hadds'

theorem found_congr (h : s'.log = s.log) (ps : List (StreamId × Nat)) : found s' ps = found s ps := by
  unfold found State.live
  rw [h]

theorem found_cons (s : State) (p : StreamId × Nat) (ps : List (StreamId × Nat)) :
    found s (p :: ps) = (if s.live p then [p.1] else []) ++ found s ps := by
  unfold found
  by_cases h : s.live p = true
  · rw [if_pos h, List.filter_cons_of_pos h]
    rfl
  · rw [if_neg h, List.filter_cons_of_neg h]
    rfl

/-- A command is answered at a time that has come. -/
theorem exec_eq {now : Nat} {c : Cmd} {x : Resp c} (h : exec S now s c = some (x, s')) :
    s.now ≤ now ∧ execAt S { s with now } c = some (x, s') := by
  unfold exec at h
  split at h
  · cases h
  · rename_i hnow
    exact ⟨Nat.le_of_not_lt hnow, h⟩

/-- The commands for one message: a copy to the DLQ, its row, and the acknowledgement. -/
theorem swept_one {fields : Fields} {reason : String} {mid : StreamId} {t₁ t₂ t₃ : Nat} {id : StreamId}
    {s₁ s₂ s₃ : State} (hread : s.log.entry? mid = some fields)
    (hadd : exec S t₁ s (.xaddDlq { fields with reason := some reason }) = some (id, s₁))
    (hpersist : exec S t₂ s₁ (.persist id reason { fields with reason := some reason }) = some ((), s₂))
    (hack : exec S t₃ s₂ (.xack agent_id [mid]) = some ((), s₃)) : Swept S s [mid] s₃ := by
  obtain ⟨ht₁, hadd⟩ := exec_eq hadd
  obtain ⟨ht₂, hpersist⟩ := exec_eq hpersist
  obtain ⟨ht₃, hack⟩ := exec_eq hack
  cases hadd
  cases hpersist
  cases hack
  exact ⟨rfl, ht₁.trans (ht₂.trans ht₃), rfl, [(t₁, _)], rfl, .cons ⟨fields, reason, hread, rfl⟩ .nil⟩

/-- Nothing is swept by looking. -/
theorem swept_look {now : Nat} (h : s.now ≤ now) : Swept S s [] { s with now } := .refl h rfl rfl rfl

/-- **The loop.** The messages it finds go to the DLQ; an entry it finds none for is passed over. -/
theorem runs_sweepEach : ∀ (ps : List (StreamId × Nat)) {s s' : State} {r : Except Exc Nat},
    (store S).Runs n (sweepEach agent_id ps) s r s' → Swept S s (found s ps) s'
  | [], s, s', r, h => by
    obtain ⟨-, rfl⟩ := h
    exact .refl le_rfl rfl rfl rfl
  | (mid, idle_ms) :: ps, s, s', r, h => by
    obtain ⟨t, x, s₁, hread, hrest⟩ := h
    obtain ⟨ht, hread⟩ := exec_eq hread
    obtain ⟨hx, hs₁⟩ := Prod.mk.inj (Option.some.inj hread)
    have hlooked : Swept S s [] s₁ := hs₁ ▸ swept_look ht
    have hentry : s₁.log.entry? mid = x := by
      rw [hlooked.log]
      exact hx
    have hlive : s.live (mid, idle_ms) = x.isSome := by
      unfold State.live
      rw [← hlooked.log, hentry]
    rw [found_cons, hlive, ← found_congr hlooked.log ps]
    cases x with
    | none => exact hlooked.trans (runs_sweepEach ps hrest)
    | some fields =>
      obtain ⟨t₁, id, s₂, hadd, t₂, _, s₃, hpersist, t₃, _, s₄, hack, hrest⟩ := hrest
      have hone : Swept S s₁ [mid] s₄ := swept_one hentry hadd hpersist hack
      have hrest : (store S).Runs n (sweepEach agent_id ps >>= fun moved => .ret (moved + 1)) s₄ r s' := hrest
      have hloop : Swept S s₄ (found s₄ ps) s' := by
        rcases ((store S).runs_bind n).mp hrest with ⟨moved, s₅, hloop, -, rfl⟩ | ⟨e, hloop, -⟩
        · exact runs_sweepEach ps hloop
        · exact runs_sweepEach ps hloop
      rw [found_congr hone.log] at hloop
      exact hlooked.trans (hone.trans hloop)

/-- The entries a sweep looks at: all of the first 50, if they are idle. -/
theorem filter_pendingRange (h : s.Idle) :
    (s.pendingRange 50).filter (fun entry => 60000 ≤ entry.2) = s.pendingRange 50 := by
  refine List.filter_eq_self.mpr fun entry hentry => ?_
  obtain ⟨p, hp, rfl⟩ := List.mem_map.mp hentry
  have hidle : p.2 + 60000 < s.now := h p (List.mem_of_mem_take hp)
  have hle : 60000 ≤ s.now - p.2 := by omega
  exact decide_eq_true hle

theorem found_pendingRange (s : State) : found s (s.pendingRange 50) = found s (s.pending.take 50) := by
  unfold found State.pendingRange
  rw [List.filter_map, List.map_map]
  rfl

/-- **A sweep.** The messages of the first 50 pending entries go to the DLQ. -/
theorem swept_of_call (hagent : agent_id ≠ "") (hidle : s.Idle) (h : Call S agent_id s s') :
    Swept S s (found s (s.pending.take 50)) s' := by
  obtain ⟨moved, hrun⟩ := h
  unfold sweepPending at hrun
  rw [if_neg hagent] at hrun
  obtain ⟨t, x, s₁, hread, hrest⟩ := hrun
  obtain ⟨ht, hread⟩ := exec_eq hread
  obtain ⟨rfl, rfl⟩ := Prod.mk.inj (Option.some.inj hread)
  have hidle₁ : State.Idle { s with now := t } := fun p hp => Nat.lt_of_lt_of_le (hidle p hp) ht
  have hloop := (swept_look (S := S) ht).trans (runs_sweepEach _ hrest)
  rwa [List.nil_append, filter_pendingRange hidle₁, found_pendingRange] at hloop

theorem Swept.idle (h : Swept S s ids s') (hidle : s.Idle) : s'.Idle := by
  intro p hp
  rw [h.pending] at hp
  exact Nat.lt_of_lt_of_le (hidle p (List.mem_of_mem_filter hp)) h.now

theorem not_mem_found (hdead : s.live p = false) : p.1 ∉ found s ps := by
  intro hmem
  obtain ⟨q, hq, hid⟩ := List.mem_map.mp hmem
  have hlive : s.live q = true := (List.mem_filter.mp hq).2
  unfold State.live at hlive hdead
  rw [hid, hdead] at hlive
  cases hlive

/-- An entry without a message stays. -/
theorem dead_stays (hagent : agent_id ≠ "") : ∀ {k : Nat} {s s' : State}, s.Idle → s.live p = false →
    p ∈ s.pending → Calls S agent_id k s s' → p ∈ s'.pending
  | 0, s, s', _, _, hp, h => h ▸ hp
  | k + 1, s, s', hidle, hdead, hp, ⟨s₁, hcall, hrest⟩ => by
    have hswept := swept_of_call hagent hidle hcall
    refine dead_stays hagent (hswept.idle hidle) ?_ ?_ hrest
    · unfold State.live at hdead ⊢
      rw [hswept.log]
      exact hdead
    · rw [hswept.pending]
      exact List.mem_filter.mpr ⟨hp, by simpa using not_mem_found hdead⟩

/-- Every pending entry has its message. -/
def AllLive (s : State) : Prop := ∀ p ∈ s.pending, s.live p = true

theorem found_of_live (h : ∀ p ∈ ps, s.live p = true) : found s ps = ps.map Prod.fst := by
  unfold found
  rw [List.filter_eq_self.mpr h]

/-- What a sweep leaves where every message is there. -/
theorem pending_of_live (hlive : AllLive s) (h : Swept S s (found s (s.pending.take 50)) s') :
    s'.pending = s.pending.drop 50 := by
  rw [h.pending, found_of_live fun p hp => hlive p (List.mem_of_mem_take hp)]
  exact filter_take (s.ascending.imp Nat.ne_of_lt)

theorem Swept.allLive (h : Swept S s ids s') (hlive : AllLive s) : AllLive s' := by
  intro p hp
  rw [h.pending] at hp
  have hbefore := hlive p (List.mem_of_mem_filter hp)
  unfold State.live at hbefore ⊢
  rw [h.log]
  exact hbefore

/-- **The sweeps.** Where every message is there, each call takes the first 50 entries. -/
theorem sweeps_live (hagent : agent_id ≠ "") : ∀ {k : Nat} {s s' : State}, s.Idle → AllLive s →
    Calls S agent_id k s s' → s'.Idle ∧ AllLive s' ∧ s'.pending = s.pending.drop (50 * k) ∧
      Swept S s ((s.pending.take (50 * k)).map Prod.fst) s'
  | 0, s, s', hidle, hlive, h => by
    obtain rfl : s' = s := h
    exact ⟨hidle, hlive, rfl, .refl le_rfl rfl rfl rfl⟩
  | k + 1, s, s', hidle, hlive, ⟨s₁, hcall, hrest⟩ => by
    have hswept := swept_of_call hagent hidle hcall
    have hpending := pending_of_live hlive hswept
    obtain ⟨hidle', hlive', hdrop, hthen⟩ := sweeps_live hagent (hswept.idle hidle) (hswept.allLive hlive) hrest
    refine ⟨hidle', hlive', ?_, ?_⟩
    · rw [hdrop, hpending, List.drop_drop, Nat.mul_add, Nat.mul_one, Nat.add_comm]
    · rw [found_of_live fun p hp => hlive p (List.mem_of_mem_take hp)] at hswept
      have hall := hswept.trans hthen
      rw [hpending, ← List.map_append, ← List.take_add] at hall
      rwa [Nat.mul_add, Nat.mul_one, Nat.add_comm]

theorem exec_now {now : Nat} (S : Server) (s : State) (c : Cmd) (h : now = s.now) :
    exec S now s c = execAt S s c := by
  subst h
  exact if_neg (Nat.lt_irrefl _)

theorem exists_sweepEach (S : Server) (agent_id : String) : ∀ (ps : List (StreamId × Nat)) (s : State),
    ∃ moved s', (store S).Runs 0 (sweepEach agent_id ps) s (.ok moved) s'
  | [], s => ⟨0, s, rfl, rfl⟩
  | (mid, idle_ms) :: ps, s => by
    have hread : exec S s.now s (.xrangeInbox agent_id mid) = some (s.log.entry? mid, s) := exec_now S s _ rfl
    cases hentry : s.log.entry? mid with
    | none =>
      rw [hentry] at hread
      obtain ⟨moved, s', hloop⟩ := exists_sweepEach S agent_id ps s
      exact ⟨moved, s', s.now, none, s, hread, hloop⟩
    | some fields =>
      rw [hentry] at hread
      let reason := "pending_timeout_" ++ toString idle_ms ++ "ms"
      let fields := { fields with reason := some reason }
      let added : State := { s with dlq := addDlq S s.dlq s.now fields }
      let mirrored : State := added.persist (s.dlq.next s.now) reason fields
      obtain ⟨moved, s', hloop⟩ := exists_sweepEach S agent_id ps (mirrored.ack [mid])
      have hrest : (store S).Runs 0 (sweepEach agent_id ps >>= fun moved => .ret (moved + 1)) (mirrored.ack [mid])
          (.ok (moved + 1)) s' := ((store S).runs_bind 0).mpr (.inl ⟨moved, s', hloop, rfl, rfl⟩)
      exact ⟨moved + 1, s', s.now, _, s, hread, s.now, s.dlq.next s.now, added, exec_now S s _ rfl, s.now, (), mirrored,
        exec_now S added _ rfl, s.now, (), mirrored.ack [mid], exec_now S mirrored _ rfl, hrest⟩

/-- A call always returns. -/
theorem exists_call (S : Server) (agent_id : String) (s : State) : ∃ s', Call S agent_id s s' := by
  unfold Call sweepPending
  by_cases hagent : agent_id = ""
  · rw [if_pos hagent]
    exact ⟨s, 0, rfl, rfl⟩
  · rw [if_neg hagent]
    obtain ⟨moved, s', hloop⟩ := exists_sweepEach S agent_id
      ((s.pendingRange 50).filter fun entry => 60000 ≤ entry.2) s
    exact ⟨s', moved, s.now, s.pendingRange 50, s, exec_now S s _ rfl, hloop⟩

theorem exists_calls (S : Server) (agent_id : String) : ∀ (k : Nat) (s : State), ∃ s', Calls S agent_id k s s'
  | 0, s => ⟨s, rfl⟩
  | k + 1, s => by
    obtain ⟨s₁, hcall⟩ := exists_call S agent_id s
    obtain ⟨s', hcalls⟩ := exists_calls S agent_id k s₁
    exact ⟨s', s₁, hcall, hcalls⟩

/-! ## Progress -/

/-- At most 5000 messages are in the DLQ when they have been added. -/
theorem deadLettered_of_swept (hlive : AllLive s) (hcount : s.pending.length ≤ 5000)
    (h : Swept S s (s.pending.map Prod.fst) s') : DeadLettered s s' := by
  obtain ⟨adds, hdlq, hadds⟩ := h.dlq
  obtain ⟨k, hk, hentries⟩ := addAll_entries (S := S) adds s.dlq
  have hlength : adds.length = s.pending.length := by
    have := hadds.length_eq
    rw [List.length_map, List.length_map] at this
    exact this.symm
  have hwithin : k ≤ (s.dlq.entries.map Prod.snd).length := by
    rw [List.length_map]
    omega
  refine ⟨(s.dlq.entries.map Prod.snd).drop k, adds.map Prod.snd, ?_, List.drop_suffix k _, ?_⟩
  · rw [hdlq, hentries, List.drop_append_of_le_length hwithin]
  · rwa [List.filter_eq_self.mpr hlive]

/-- A server that drops all it may. -/
def dropping : Server := ⟨fun dlq => dlq.entries.length, fun _ _ => 0, true⟩

theorem length_addDlq (dlq : Log Fields) (now : Nat) (fields : Fields) :
    (addDlq dropping dlq now fields).entries.length ≤ 5000 := by
  simp only [addDlq, dropping, Log.trim, List.length_drop]
  omega

theorem length_addAll : ∀ (adds : List (Nat × Fields)) (dlq : Log Fields), adds ≠ [] →
    (addAll dropping dlq adds).entries.length ≤ 5000
  | [a], dlq, _ => length_addDlq dlq a.1 a.2
  | a :: b :: adds, dlq, _ => length_addAll (b :: adds) (addDlq dropping dlq a.1 a.2) (List.cons_ne_nil _ _)

end

variable {agent_id : String} {s : State}

/-- **Progress.** Every sweep takes 50 of the idle pending entries, or all, and they end with each message in the DLQ
once, if and only if every pending entry has its message and there are at most 5000. -/
theorem progress_iff (hagent : agent_id ≠ "") (hidle : s.Idle) :
    Progress agent_id s ↔ AllLive s ∧ s.pending.length ≤ 5000 := by
  constructor
  · intro h
    have hlive : AllLive s := by
      intro p hp
      by_contra hdead
      rw [Bool.not_eq_true] at hdead
      obtain ⟨s₁, hcalls⟩ := exists_calls dropping agent_id ((s.pending.length + 49) / 50) s
      have hempty := ((h dropping _ s₁ hcalls).2 rfl).1
      have hstays := dead_stays hagent hidle hdead hp hcalls
      rw [hempty] at hstays
      cases hstays
    refine ⟨hlive, Nat.le_of_not_lt fun hmany => ?_⟩
    obtain ⟨s₁, hcalls⟩ := exists_calls dropping agent_id ((s.pending.length + 49) / 50) s
    obtain ⟨old, added, hentries, -, hcopies⟩ := ((h dropping _ s₁ hcalls).2 rfl).2
    rw [List.filter_eq_self.mpr hlive] at hcopies
    have hadded : added.length = s.pending.length := by
      rw [← hcopies.length_eq, List.length_map]
    obtain ⟨-, -, -, hswept⟩ := sweeps_live hagent hidle hlive hcalls
    obtain ⟨adds, hdlq, hadds⟩ := hswept.dlq
    have hne : adds ≠ [] := by
      rintro rfl
      have hnone := hadds.length_eq
      rw [List.map_nil, List.length_nil, List.length_map, List.length_take] at hnone
      omega
    have hlength := length_addAll adds s.dlq hne
    rw [← hdlq] at hlength
    have hboth := congrArg List.length hentries
    rw [List.length_map, List.length_append, hadded] at hboth
    omega
  · rintro ⟨hlive, hcount⟩ S k s₁ hcalls
    obtain ⟨hidle₁, hlive₁, hdrop, hswept⟩ := sweeps_live hagent hidle hlive hcalls
    refine ⟨fun s₂ hcall => ?_, ?_⟩
    · rw [pending_of_live hlive₁ (swept_of_call hagent hidle₁ hcall), List.length_drop]
      omega
    · rintro rfl
      have hall : s.pending.length ≤ 50 * ((s.pending.length + 49) / 50) := by omega
      rw [List.take_of_length_le hall] at hswept
      exact ⟨by rw [hdrop, List.drop_of_length_le hall], deadLettered_of_swept hlive hcount hswept⟩

/-- An inbox with one idle entry, of id `1`: its message is in the stream, or was dropped from it. -/
def onePending (log : Log Fields) : State := ⟨log, [(1, 0)], List.pairwise_singleton _ _, .empty, .empty, 60001⟩

theorem idle_onePending (log : Log Fields) : (onePending log).Idle := by
  intro p hp
  rw [List.mem_singleton.mp hp]
  exact Nat.lt_succ_self 60000

theorem progress_onePending :
    Progress "a" (onePending ⟨[(1, ⟨none, none⟩)], 1, List.pairwise_singleton _ _, by simp⟩) := by
  refine (progress_iff (by decide) (idle_onePending _)).mpr ⟨fun p hp => ?_, by decide⟩
  rw [List.mem_singleton.mp hp]
  decide

/-- **The message was dropped**: the entry stays, however often it is swept. -/
theorem trimmed_stays : ¬ Progress "a" (onePending ⟨[], 1, .nil, by simp⟩) := by
  intro h
  obtain ⟨s₁, hcalls⟩ := exists_calls dropping "a" 1 (onePending ⟨[], 1, .nil, by simp⟩)
  have hempty := ((h dropping 1 s₁ hcalls).2 (by decide)).1
  have hmem : (1, 0) ∈ (onePending ⟨[], 1, .nil, by simp⟩).pending := List.mem_singleton_self _
  have hstays := dead_stays (by decide) (idle_onePending _) (by decide) hmem hcalls
  rw [hempty] at hstays
  cases hstays

end ClaudeSwarm.Ipc.Sweep
