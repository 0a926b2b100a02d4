import ClaudeSwarm.Ipc.Conserved

/-!
# The mirror of the dead-letter queue

The DLQ and its mirror, under any calls of `send`, `recv`, `sweep_pending`, `requeue`, `purge` and
`prune_old_messages`, in any number of processes: an entry and its row are written in two commands, and so are the
removal of an entry and the resolution of its row.

* `status_exec`, `dlq_exec`: what each command does to a row, and to the DLQ.
* `mirror_fires`: what is known of the two between the commands (`Mirror`). `outline_owes`: a call that has ended has
  written a row for what it added, and resolved what it removed.
* **`tracks_of_matched`**: when no call is in progress, the unresolved rows are those of the DLQ, and each requeued and
  each expired entry is counted once, where every entry has been added by a sweep that drops no other, a call removes
  what has a row that no other kind of call is about to resolve, and `XTRIM` removes what `XRANGE` has found
  (`Matched`).
* `unmirrored`: a message for nobody has no row.
-/

namespace ClaudeSwarm.Ipc.Direct

open Data Interleave
open Python (Time truncate)
open Redis (StreamId Log)

variable {R : Operators} {S : Server} {n : Nat} {s s' : Keys} {c : Cmd} {x : Resp c} {o : Op} {d : StreamId}
  {w w' : World (system R S)} {e : Event (system R S)} {res : Resolution} {ids : List StreamId}

/-! ## What should hold -/

/-- The ids that a command adds to the DLQ. -/
def enters (c : Cmd) (x : Resp c) : List StreamId := (dlqAdds c x).map Prod.fst

/-- The ids that it removes from it, if they are there. -/
def takes : (c : Cmd) → Resp c → List StreamId
  | .xdelDlq ids, _ => ids
  | .xtrimDlq _, some removed => removed
  | _, _ => []

/-- The ids below the cutoff that it finds there. -/
def snapshots : (c : Cmd) → Resp c → List StreamId
  | .dlqBelow _, ids => ids
  | _, _ => []

/-- The id that it writes a row for. -/
def persists : Cmd → List StreamId
  | .persist stream_id _ _ => [stream_id]
  | _ => []

/-- The ids whose rows it resolves. -/
def marks : Cmd → List StreamId
  | .markResolved ids _ => ids
  | _ => []

/-- How an operation resolves what it removes. -/
def resolves : Op → Option Resolution
  | .requeue _ _ => some .requeued
  | .purge _ => some .purged
  | .pruneOldMessages _ => some .expired
  | _ => none

/-- The first to remove the entry is an operation that resolves it so. -/
def Withdrawn (res : Resolution) (d : StreamId) : List (Event (system R S)) → Prop
  | [] => False
  | e :: l => Withdrawn res d l ∨ d ∈ takes e.cmd e.resp ∧ resolves e.op = some res ∧ ∀ e' ∈ l, d ∉ takes e'.cmd e'.resp

namespace Keys

/-- The entry has a row; whether that is resolved, and how. -/
def status (s : Keys) (d : StreamId) : Option (Option Resolution) := (s.rows.find? d).map Row.resolution

/-- The row was resolved at the cutoff or later. -/
def Since (s : Keys) (cutoff_ms : Int) (d : StreamId) : Prop :=
  ∃ r ∈ s.rows.rows, r.stream_id = d ∧ ∃ t ∈ r.resolved_at_ms, cutoff_ms ≤ t

/-- What `XTRIM` removes. -/
def trimmedIds (S : Server) (s : Keys) (cutoff : StreamId) : List StreamId := (s.below cutoff).take (s.trimmed S cutoff)

end Keys

/-- What `false_positive_rate` answers, of so many entries. -/
def rate (requeued expired : Nat) : Time × Nat × Nat :=
  if requeued + expired = 0 then (0, 0, 0) else
    ((requeued : Time) / (requeued + expired : Nat), requeued, requeued + expired)

/-- **The mirror tracks the DLQ.** -/
structure Tracks (w : World (system R S)) : Prop where
  unresolved : ∀ d, (∃ r ∈ w.state.rows.rows, r.stream_id = d ∧ r.resolution = none) ↔ d ∈ w.state.dlq.ids
  depth : w.state.depthPersisted = w.state.dlqDepth
  once : ∀ res d, res ≠ .purged → Withdrawn res d w.trace →
    ∃ r ∈ w.state.rows.rows, r.stream_id = d ∧ r.resolution = some res ∧ r.resolved_at_ms.isSome
  counted : ∀ (window_seconds : Time) (requeued expired : List StreamId), requeued.Nodup → expired.Nodup →
    (∀ d, d ∈ requeued ↔ Withdrawn .requeued d w.trace ∧
      w.state.Since (truncate ((w.state.clock - window_seconds) * 1000)) d) →
    (∀ d, d ∈ expired ↔ Withdrawn .expired d w.trace ∧
      w.state.Since (truncate ((w.state.clock - window_seconds) * 1000)) d) →
    w.state.falsePositiveRate window_seconds = rate requeued.length expired.length

/-- The id is of those that call `n` has found below its cutoff. -/
def Snapshot (n : Nat) (d : StreamId) (w : World (system R S)) : Prop := ∃ e ∈ mine n w, d ∈ snapshots e.cmd e.resp

/-- The entry has a row, and while that is unresolved only such operations have removed the entry. -/
def Resolvable (w : World (system R S)) (o : Op) (d : StreamId) : Prop :=
  w.state.status d ≠ none ∧
    (w.state.status d = some none → ∀ e ∈ w.trace, d ∈ takes e.cmd e.resp → resolves e.op = resolves o)

/-- **The condition of a command**: what is sent has a recipient, a full DLQ drops nothing, what is removed can be
resolved, and `XTRIM` removes what the call has found. -/
def Matched : Guard (system R S) := fun w n o c =>
  match c with
  | .sendAtomic _ recipient => recipient ∈ w.state.index
  | .xaddDlq fields => ∀ now, (w.state.addDlq S now fields).dlq = w.state.dlq.add now fields
  | .xdelDlq ids => ∀ d ∈ ids, Resolvable w o d
  | .xtrimDlq cutoff => S.minid = true →
      (∀ d ∈ w.state.dlq.ids, d ∈ w.state.trimmedIds S cutoff ↔ Snapshot n d w) ∧
        ∀ d, Snapshot n d w → Resolvable w o d
  | _ => True

/-! ## What a command does to a row -/

/-- The row of an entry, after a command. -/
def statusAfter (d : StreamId) : Cmd → Option (Option Resolution) → Option (Option Resolution)
  | .persist stream_id _ _, none => if d = stream_id then some none else none
  | .markResolved ids res, some none => if d ∈ ids then some (some res) else some none
  | _, st => st

theorem status_eq_none : s.status d = none ↔ ∀ r ∈ s.rows.rows, r.stream_id ≠ d := by
  unfold Keys.status
  rw [Option.map_eq_none_iff]
  simp [Table.find?]

theorem status_eq_some {st : Option Resolution} :
    s.status d = some st ↔ ∃ r ∈ s.rows.rows, r.stream_id = d ∧ r.resolution = st := by
  unfold Keys.status
  rw [Option.map_eq_some_iff]
  constructor
  · rintro ⟨r, hr, hst⟩
    exact ⟨r, Table.find?_mem hr, Table.find?_key hr, hst⟩
  · rintro ⟨r, hr, rfl, hst⟩
    exact ⟨r, Table.find?_of_mem hr, hst⟩

theorem status_persist (s : Keys) (id : StreamId) (reason : String) (fields : Fields) (d : StreamId) :
    (s.persist id reason fields).status d = statusAfter d (.persist id reason fields) (s.status d) := by
  unfold Keys.persist Keys.status
  dsimp only
  cases hinsert : s.rows.insert ⟨id, reason, fields, s.nowMs, none, none⟩ with
  | none =>
    -- The row is there already.
    rw [Option.getD_none]
    cases hfind : s.rows.find? d with
    | some r => rfl
    | none =>
      have hne : d ≠ id := by
        rintro rfl
        unfold Table.insert at hinsert
        split at hinsert
        · rename_i hmem
          obtain ⟨r, hr, hrd⟩ := List.mem_map.mp hmem
          have hrd : r.stream_id = d := hrd
          have hsome := Table.find?_of_mem hr
          rw [hrd, hfind] at hsome
          cases hsome
        · cases hinsert
      simp [statusAfter, hne]
  | some t =>
    rw [Option.getD_some, Table.find?_insert hinsert]
    cases hfind : s.rows.find? d with
    | some r => rfl
    | none =>
      by_cases hd : d = id
      · simp [statusAfter, hd]
      · simp [statusAfter, hd, Ne.symm hd]

theorem status_markResolved (s : Keys) (ids : List StreamId) (res : Resolution) (d : StreamId) :
    (s.markResolved ids res).status d = statusAfter d (.markResolved ids res) (s.status d) := by
  unfold Keys.markResolved Keys.status
  dsimp only
  rw [Table.find?_update]
  cases hfind : s.rows.find? d with
  | none => rfl
  | some r =>
    have hrd : r.stream_id = d := Table.find?_key hfind
    cases hres : r.resolution with
    | none => by_cases hd : d ∈ ids <;> simp [statusAfter, hrd, hres, hd]
    | some res' => simp [statusAfter, hres]

/-- The rows, after a command. -/
def rowsAfter (s : Keys) : Cmd → Table Row.stream_id
  | .persist id reason fields => (s.persist id reason fields).rows
  | .markResolved ids res => (s.markResolved ids res).rows
  | _ => s.rows

theorem rows_exec {now : Nat} (h : (store R S).exec n now s c = some (x, s')) : s'.rows = rowsAfter s c := by
  cases c with
  | sendAtomic envelope recipient =>
    rcases exec_sendAtomic h with ⟨-, -, rfl⟩ | ⟨-, -, rfl⟩
    · rfl
    · rfl
  | xreadgroup agent_id pending count =>
    rcases exec_xreadgroup h with ⟨-, -, rfl⟩ | ⟨-, ⟨-, -, rfl⟩ | ⟨-, -, rfl⟩⟩
    · rfl
    · rfl
    · rfl
  | xtrimDlq cutoff =>
    rcases exec_xtrimDlq h with ⟨-, -, rfl⟩ | ⟨-, rfl⟩
    · rfl
    · rfl
  | _ =>
    cases h
    rfl

/-- **What each command does to the row of an entry.** -/
theorem status_exec {now : Nat} (h : (store R S).exec n now s c = some (x, s')) (d : StreamId) :
    s'.status d = statusAfter d c (s.status d) := by
  have hrows : s'.status d = ((rowsAfter s c).find? d).map Row.resolution := by
    unfold Keys.status
    rw [rows_exec h]
  rw [hrows]
  cases c with
  | persist id reason fields => exact status_persist s id reason fields d
  | markResolved ids res => exact status_markResolved s ids res d
  | _ => rfl

theorem statusAfter_ne_none {st : Option (Option Resolution)} (h : st ≠ none) : statusAfter d c st ≠ none := by
  cases st with
  | none => exact absurd rfl h
  | some st =>
    cases c with
    | markResolved ids res =>
      cases st with
      | none =>
        have hsome : (if d ∈ ids then some (some res) else some none) ≠ none := by
          split
          · exact Option.some_ne_none _
          · exact h
        exact hsome
      | some _ => exact h
    | _ => exact h

/-- What is resolved stays so. -/
theorem statusAfter_resolved : statusAfter d c (some (some res)) = some (some res) := by
  cases c <;> rfl

/-- A row that is unresolved was so, or is new. -/
theorem statusAfter_none {st : Option (Option Resolution)} (h : statusAfter d c st = some none) :
    st = some none ∨ st = none ∧ d ∈ persists c := by
  cases st with
  | some st =>
    cases st with
    | none => exact .inl rfl
    | some res =>
      rw [statusAfter_resolved] at h
      cases h
  | none =>
    cases c with
    | persist id reason fields =>
      have h : (if d = id then some none else none) = some none := h
      split at h
      · rename_i hd
        exact .inr ⟨rfl, hd ▸ List.mem_singleton_self _⟩
      · cases h
    | _ => cases h

/-! ## What a command does to the DLQ -/

/-- The small elements of a list that ascends come first. -/
theorem take_filter_lt {c : StreamId} : ∀ {l : List StreamId} {k : Nat}, l.Pairwise (· < ·) →
    k ≤ (l.filter (· < c)).length → (l.filter (· < c)).take k = l.take k
  | [], _, _, _ => rfl
  | a :: l, 0, _, _ => rfl
  | a :: l, k + 1, hl, hk => by
    obtain ⟨ha, hl⟩ := List.pairwise_cons.mp hl
    by_cases hc : a < c
    · rw [List.filter_cons_of_pos (by simpa using hc)] at hk ⊢
      rw [List.take_succ_cons, List.take_succ_cons, take_filter_lt hl (Nat.le_of_succ_le_succ hk)]
    · have hnone : (a :: l).filter (· < c) = [] := by
        refine List.filter_eq_nil_iff.mpr fun b hb => ?_
        rcases List.mem_cons.mp hb with rfl | hb
        · simpa using hc
        · simpa using Nat.le_trans (Nat.le_of_not_lt hc) (Nat.le_of_lt (ha b hb))
      rw [hnone] at hk
      exact absurd hk (by simp)

theorem trimmedIds_eq (S : Server) (s : Keys) (cutoff : StreamId) :
    s.trimmedIds S cutoff = s.dlq.ids.take (s.trimmed S cutoff) :=
  take_filter_lt s.dlq.ascending (Nat.sub_le _ _)

/-- The DLQ, after a command. -/
structure DlqAfter (l : Log Fields) (c : Cmd) (x : Resp c) (l' : Log Fields) : Prop where
  mem : ∀ d, d ∈ l'.ids ↔ d ∈ l.ids ∧ d ∉ takes c x ∨ d ∈ enters c x
  new : ∀ d ∈ enters c x, l.last < d ∧ d ≤ l'.last ∧ d ∉ takes c x
  last_le : l.last ≤ l'.last

theorem dlqAfter_same {l : Log Fields} (henters : enters c x = []) (htakes : takes c x = []) : DlqAfter l c x l := by
  refine ⟨fun d => ?_, fun d hd => absurd (henters ▸ hd) List.not_mem_nil, Nat.le_refl _⟩
  rw [henters, htakes]
  simp

theorem dlqAfter_remove {l l' : Log Fields} (henters : enters c x = [])
    (hmem : ∀ d, d ∈ l'.ids ↔ d ∈ l.ids ∧ d ∉ takes c x) (hlast : l'.last = l.last) : DlqAfter l c x l' := by
  refine ⟨fun d => ?_, fun d hd => absurd (henters ▸ hd) List.not_mem_nil, Nat.le_of_eq hlast.symm⟩
  rw [hmem, henters]
  simp

/-- **What each command does to the DLQ.** -/
theorem dlq_exec {now : Nat} (hg : Matched (R := R) (S := S) w n o c)
    (h : (store R S).exec n now w.state c = some (x, s')) : DlqAfter w.state.dlq c x s'.dlq := by
  cases c with
  | sendAtomic envelope recipient =>
    rcases exec_sendAtomic h with ⟨-, rfl, rfl⟩ | ⟨hunknown, -, -⟩
    · exact dlqAfter_same rfl rfl
    · exact absurd hg hunknown
  | xaddDlq fields =>
    cases h
    have hadd : (w.state.addDlq S now fields).dlq = w.state.dlq.add now fields := hg now
    rw [hadd]
    have hids : (w.state.dlq.add now fields).ids = w.state.dlq.ids ++ [w.state.dlq.next now] := by
      simp [Log.ids, Log.add]
    refine ⟨fun d => ?_, fun d hd => ?_, Nat.le_of_lt (w.state.dlq.last_lt_next now)⟩
    · rw [hids, List.mem_append]
      simp [takes, enters, dlqAdds]
    · obtain rfl : d = w.state.dlq.next now := List.mem_singleton.mp hd
      exact ⟨w.state.dlq.last_lt_next now, Nat.le_refl _, List.not_mem_nil⟩
  | xdelDlq ids =>
    cases h
    refine dlqAfter_remove rfl (fun d => ?_) rfl
    have hids : (w.state.dlq.del ids).ids = w.state.dlq.ids.filter fun d => !ids.contains d := by
      unfold Log.ids Log.del Log.keep
      rw [List.filter_map]
      rfl
    have hdel : d ∈ (w.state.dlq.del ids).ids ↔ d ∈ w.state.dlq.ids ∧ d ∉ ids := by
      rw [hids, List.mem_filter]
      simp
    exact hdel
  | xtrimDlq cutoff =>
    rcases exec_xtrimDlq h with ⟨-, rfl, rfl⟩ | ⟨rfl, rfl⟩
    · refine dlqAfter_remove rfl (fun d => ?_) rfl
      have hids : (w.state.dlq.trim (w.state.trimmed S cutoff)).ids = w.state.dlq.ids.drop (w.state.trimmed S cutoff) :=
        List.map_drop
      have htakes : takes (.xtrimDlq cutoff) (some ((w.state.below cutoff).take (w.state.trimmed S cutoff))) =
          w.state.dlq.ids.take (w.state.trimmed S cutoff) := trimmedIds_eq S w.state cutoff
      rw [hids, htakes]
      have hnodup := w.state.dlq.nodup_ids
      rw [← List.take_append_drop (w.state.trimmed S cutoff) w.state.dlq.ids] at hnodup
      refine ⟨fun hd => ⟨List.mem_of_mem_drop hd, fun htake => ?_⟩, fun hd => ?_⟩
      · exact List.disjoint_of_nodup_append hnodup htake hd
      · have hmem := hd.1
        rw [← List.take_append_drop (w.state.trimmed S cutoff) w.state.dlq.ids] at hmem
        exact (List.mem_append.mp hmem).resolve_left hd.2
    · exact dlqAfter_same rfl rfl
  | xreadgroup agent_id pending count =>
    rcases exec_xreadgroup h with ⟨-, rfl, rfl⟩ | ⟨-, ⟨-, rfl, rfl⟩ | ⟨-, rfl, rfl⟩⟩
    · exact dlqAfter_same rfl rfl
    · exact dlqAfter_same rfl rfl
    · exact dlqAfter_same rfl rfl
  | _ =>
    cases h
    exact dlqAfter_same rfl rfl

/-! ## What is known between the commands -/

/-- The entry has been added to the DLQ. -/
def Entered (d : StreamId) (w : World (system R S)) : Prop := ∃ e ∈ w.trace, d ∈ enters e.cmd e.resp

/-- It has been removed. -/
def Removed (d : StreamId) (w : World (system R S)) : Prop := ∃ e ∈ w.trace, d ∈ takes e.cmd e.resp

/-- A row has been written for it. -/
def Persisted (d : StreamId) (w : World (system R S)) : Prop := ∃ e ∈ w.trace, d ∈ persists e.cmd

/-- Its row has been resolved. -/
def Marked (d : StreamId) (w : World (system R S)) : Prop := ∃ e ∈ w.trace, d ∈ marks e.cmd

/-- The rows can be resolved so. -/
def Ready (res : Resolution) (ids : List StreamId) (w : World (system R S)) : Prop :=
  ∀ d ∈ ids, w.state.status d ≠ none ∧ (w.state.status d = some none → Withdrawn res d w.trace)

/-- What is known of the DLQ and its mirror. -/
structure Mirror (w : World (system R S)) : Prop where
  le_last : ∀ d, Entered d w → d ≤ w.state.dlq.last
  entered : ∀ d, w.state.status d ≠ none → Entered d w
  ids : ∀ d, d ∈ w.state.dlq.ids ↔ Entered d w ∧ ¬ Removed d w
  gone : ∀ d, Removed d w → w.state.status d ≠ none
  resolved : ∀ d res, w.state.status d = some (some res) → Withdrawn res d w.trace
  marked : ∀ d, Marked d w → ∃ res, w.state.status d = some (some res)
  persisted : ∀ d, Persisted d w → w.state.status d ≠ none

theorem executed_fires {q : Event (system R S) → Prop} (hf : Fires w e w') :
    (∃ e' ∈ w'.trace, q e') ↔ q e ∨ ∃ e' ∈ w.trace, q e' := by
  simp [hf.2]

theorem Withdrawn.gone : ∀ {l : List (Event (system R S))}, Withdrawn res d l → ∃ e ∈ l, d ∈ takes e.cmd e.resp
  | e :: l, h => by
    rcases h with h | ⟨htakes, -, -⟩
    · obtain ⟨e', he', htakes⟩ := h.gone
      exact ⟨e', List.mem_cons_of_mem e he', htakes⟩
    · exact ⟨e, List.mem_cons_self, htakes⟩

/-- The first to remove an entry resolves it in one way. -/
theorem Withdrawn.unique {res' : Resolution} : ∀ {l : List (Event (system R S))}, Withdrawn res d l →
    Withdrawn res' d l → res = res'
  | e :: l, h, h' => by
    rcases h with h | ⟨-, hres, hfirst⟩
    · rcases h' with h' | ⟨-, -, hfirst⟩
      · exact h.unique h'
      · obtain ⟨e', he', htakes⟩ := h.gone
        exact absurd htakes (hfirst e' he')
    · rcases h' with h' | ⟨-, hres', -⟩
      · obtain ⟨e', he', htakes⟩ := h'.gone
        exact absurd htakes (hfirst e' he')
      · exact Option.some.inj (hres.symm.trans hres')

/-- An entry that only such operations have removed. -/
theorem withdrawn_of_gone : ∀ {l : List (Event (system R S))}, (∃ e ∈ l, d ∈ takes e.cmd e.resp) →
    (∀ e ∈ l, d ∈ takes e.cmd e.resp → resolves e.op = some res) → Withdrawn res d l
  | [], h, _ => by
    obtain ⟨e, he, -⟩ := h
    exact absurd he List.not_mem_nil
  | e :: l, h, hall => by
    by_cases hbefore : ∃ e' ∈ l, d ∈ takes e'.cmd e'.resp
    · exact .inl (withdrawn_of_gone hbefore fun e' he' => hall e' (List.mem_cons_of_mem e he'))
    · have hnow : d ∈ takes e.cmd e.resp := by
        obtain ⟨e', he', htakes⟩ := h
        rcases List.mem_cons.mp he' with rfl | he'
        · exact htakes
        · exact absurd ⟨e', he', htakes⟩ hbefore
      exact .inr ⟨hnow, hall e List.mem_cons_self hnow, fun e' he' htakes => hbefore ⟨e', he', htakes⟩⟩

theorem lasting_withdrawn : Lasting fun w : World (system R S) => Withdrawn res d w.trace := fun w e w' hf h => by
  show Withdrawn res d w'.trace
  rw [hf.2]
  exact .inl h

theorem status_fires (hf : Fires w e w') (d : StreamId) :
    w'.state.status d = statusAfter d e.cmd (w.state.status d) := by
  obtain ⟨now, hx⟩ := hf.1
  exact status_exec hx d

theorem lasting_ready : Lasting (Ready (R := R) (S := S) res ids) := fun w e w' hf h d hd => by
  obtain ⟨hrow, hopen⟩ := h d hd
  rw [status_fires hf]
  refine ⟨statusAfter_ne_none hrow, fun hnone => ?_⟩
  rcases statusAfter_none hnone with hnone | ⟨hnone, -⟩
  · exact lasting_withdrawn w e w' hf (hopen hnone)
  · exact absurd hnone hrow

/-- A row that is resolved. -/
theorem statusAfter_marked {st : Option (Option Resolution)} (hst : st ≠ none) (hd : d ∈ marks c) :
    ∃ res, statusAfter d c st = some (some res) := by
  cases c with
  | markResolved ids res =>
    cases st with
    | none => exact absurd rfl hst
    | some st =>
      cases st with
      | none => exact ⟨res, if_pos hd⟩
      | some res' => exact ⟨res', rfl⟩
  | _ => exact absurd hd List.not_mem_nil

/-- How a row has been resolved. -/
theorem statusAfter_some {st : Option (Option Resolution)} (h : statusAfter d c st = some (some res)) :
    st = some (some res) ∨ st = some none ∧ ∃ ids, c = .markResolved ids res ∧ d ∈ ids := by
  cases st with
  | some st =>
    cases st with
    | some res' =>
      rw [statusAfter_resolved] at h
      exact .inl h
    | none =>
      cases c with
      | markResolved ids res' =>
        have h : (if d ∈ ids then some (some res') else some none) = some (some res) := h
        split at h
        · rename_i hd
          cases h
          exact .inr ⟨rfl, ids, rfl, hd⟩
        · cases h
      | _ => cases h
  | none =>
    cases c with
    | persist id reason fields =>
      have h : (if d = id then some none else none) = some (some res) := h
      split at h <;> cases h
    | _ => cases h

theorem cmd_of_marks (hd : d ∈ marks c) : ∃ ids res, c = .markResolved ids res ∧ d ∈ ids := by
  cases c with
  | markResolved ids res => exact ⟨ids, res, rfl, hd⟩
  | _ => exact absurd hd List.not_mem_nil

theorem statusAfter_persisted {st : Option (Option Resolution)} (hd : d ∈ persists c) : statusAfter d c st ≠ none := by
  cases c with
  | persist id reason fields =>
    obtain rfl := List.mem_singleton.mp hd
    cases st with
    | none =>
      have hnew : statusAfter d (.persist d reason fields) none = some none := if_pos rfl
      exact hnew ▸ Option.some_ne_none _
    | some st => exact Option.some_ne_none _
  | _ => exact absurd hd List.not_mem_nil

/-- What a command removes has a row. -/
theorem row_of_takes (hg : Matched w e.call e.op e.cmd) (hf : Fires w e w') (hd : d ∈ takes e.cmd e.resp) :
    w.state.status d ≠ none := by
  obtain ⟨now, hx⟩ := hf.1
  obtain ⟨call, op, c, x⟩ := e
  cases c with
  | xdelDlq ids => exact (hg d hd).1
  | xtrimDlq cutoff =>
    rcases exec_xtrimDlq hx with ⟨hminid, rfl, -⟩ | ⟨rfl, -⟩
    · obtain ⟨hall, hrow⟩ := hg hminid
      have hthere : d ∈ w.state.dlq.ids := List.mem_of_mem_filter (List.mem_of_mem_take hd)
      exact (hrow d ((hall d hthere).mp hd)).1
    · exact absurd hd List.not_mem_nil
  | _ => exact absurd hd List.not_mem_nil

/-- **A command keeps this**, when it writes a row for what was added, and resolves what can be resolved. -/
theorem mirror_fires (h : Mirror w) (hg : Matched w e.call e.op e.cmd) (hpersist : ∀ d ∈ persists e.cmd, Entered d w)
    (hmark : ∀ ids res, e.cmd = .markResolved ids res → Ready res ids w) (hf : Fires w e w') : Mirror w' := by
  have hdlq : DlqAfter w.state.dlq e.cmd e.resp w'.state.dlq := by
    obtain ⟨now, hx⟩ := hf.1
    exact dlq_exec hg hx
  have hstatus := status_fires hf
  have hbefore : ∀ {d}, Entered d w → Entered d w' := fun h => lasting_executed w e w' hf h
  have hgone : ∀ {d}, Removed d w → Entered d w := fun h' => h.entered _ (h.gone _ h')
  refine ⟨fun d hd => ?_, fun d hd => ?_, fun d => ?_, fun d hd => ?_, fun d res hd => ?_, fun d hd => ?_,
    fun d hd => ?_⟩
  · rcases (executed_fires hf).mp hd with hd | hd
    · exact (hdlq.new d hd).2.1
    · exact Nat.le_trans (h.le_last d hd) hdlq.last_le
  · by_cases hrow : w.state.status d = none
    · rw [hstatus, hrow] at hd
      refine hbefore (hpersist d ?_)
      by_contra hnot
      cases hsome : statusAfter d e.cmd none with
      | none => exact hd hsome
      | some st =>
        cases st with
        | none => exact (statusAfter_none hsome).elim (fun h => by cases h) fun h => hnot h.2
        | some res => exact (statusAfter_some hsome).elim (fun h => by cases h) fun h => by cases h.1
    · exact hbefore (h.entered d hrow)
  · rw [hdlq.mem, h.ids]
    unfold Entered Removed
    rw [executed_fires hf, executed_fires hf]
    constructor
    · rintro (⟨⟨hin, hnot⟩, htakes⟩ | hnew)
      · exact ⟨.inr hin, fun hg => hg.elim htakes hnot⟩
      · obtain ⟨hlt, -, htakes⟩ := hdlq.new d hnew
        exact ⟨.inl hnew, fun hg => hg.elim htakes fun hg => absurd (h.le_last d (hgone hg)) (Nat.not_le_of_lt hlt)⟩
    · rintro ⟨hnew | hin, hnot⟩
      · exact .inr hnew
      · exact .inl ⟨⟨hin, fun hg => hnot (.inr hg)⟩, fun htakes => hnot (.inl htakes)⟩
  · rw [hstatus]
    rcases (executed_fires hf).mp hd with hd | hd
    · exact statusAfter_ne_none (row_of_takes hg hf hd)
    · exact statusAfter_ne_none (h.gone d hd)
  · rw [hstatus] at hd
    rcases statusAfter_some hd with hd | ⟨hnone, ids, hc, hmem⟩
    · exact lasting_withdrawn w e w' hf (h.resolved d res hd)
    · exact lasting_withdrawn w e w' hf ((hmark ids res hc d hmem).2 hnone)
  · rw [hstatus]
    rcases (executed_fires hf).mp hd with hd | hd
    · obtain ⟨ids, res, hc, hmem⟩ := cmd_of_marks hd
      exact statusAfter_marked (hmark ids res hc d hmem).1 hd
    · obtain ⟨res, hres⟩ := h.marked d hd
      rw [hres]
      exact ⟨res, statusAfter_resolved⟩
  · rw [hstatus]
    rcases (executed_fires hf).mp hd with hd | hd
    · exact statusAfter_persisted hd
    · exact statusAfter_ne_none (h.persisted d hd)

/-! ## The calls, among each other -/

/-- The discipline of such calls: a row is written for what was added, and what can be resolved is. -/
def mirroring : Discipline (system R S) :=
  ⟨Matched, Mirror, fun w e => (∀ d ∈ persists e.cmd, Entered d w) ∧
    ∀ ids res, e.cmd = .markResolved ids res → Ready res ids w⟩

/-- What call `n` has added has a row, but for some, and what it has removed is resolved, but for some. -/
def Owes (added removed : List StreamId) (n : Nat) (w : World (system R S)) : Prop :=
  ∀ e ∈ mine n w, ∀ d, (d ∈ enters e.cmd e.resp → d ∈ added ∨ Persisted d w) ∧
    (d ∈ takes e.cmd e.resp → d ∈ removed ∨ Marked d w)

variable {added added' removed removed' : List StreamId} {α : Type}

theorem lasting_persisted : Lasting (Persisted (R := R) (S := S) d) := lasting_executed

theorem lasting_marked : Lasting (Marked (R := R) (S := S) d) := lasting_executed

theorem stable_owes : Stable (mirroring (R := R) (S := S)) n (Owes added removed n) := by
  intro w e w' hn _ _ _ hf _ h e' he' d
  rw [mine_other hf hn] at he'
  obtain ⟨hadded, hremoved⟩ := h e' he' d
  exact ⟨fun hd => (hadded hd).imp_right (lasting_persisted w e w' hf),
    fun hd => (hremoved hd).imp_right (lasting_marked w e w' hf)⟩

/-- What it owes after one more command. -/
theorem owes_next (h : Owes added removed n w) (hf : Fires w ⟨n, o, c, x⟩ w')
    (hadded : ∀ d, d ∈ added ∨ d ∈ enters c x → d ∈ added' ∨ d ∈ persists c)
    (hremoved : ∀ d, d ∈ removed ∨ d ∈ takes c x → d ∈ removed' ∨ d ∈ marks c) : Owes added' removed' n w' := by
  intro e he d
  have hpersists : d ∈ persists c → Persisted d w' := fun hd => executed_now hf hd
  have hmarks : d ∈ marks c → Marked d w' := fun hd => executed_now hf hd
  rw [mine_own hf rfl, List.mem_cons] at he
  rcases he with rfl | he
  · exact ⟨fun hd => (hadded d (.inr hd)).imp_right hpersists, fun hd => (hremoved d (.inr hd)).imp_right hmarks⟩
  · refine ⟨fun hd => ?_, fun hd => ?_⟩
    · rcases (h e he d).1 hd with hd | hd
      · exact (hadded d (.inl hd)).imp_right hpersists
      · exact .inr (lasting_persisted _ _ _ hf hd)
    · rcases (h e he d).2 hd with hd | hd
      · exact (hremoved d (.inl hd)).imp_right hmarks
      · exact .inr (lasting_marked _ _ _ hf hd)

/-- A command of a call. -/
theorem outline_mirroring {Q : Except Exc α → World (system R S) → Prop} {f : Resp c → P α}
    {A : World (system R S) → Prop} (A' : Resp c → World (system R S) → Prop)
    (hs : ∀ x, Stable mirroring n (A' x)) (hpersist : ∀ w, A w → ∀ d ∈ persists c, Entered d w)
    (hmark : ∀ w, A w → ∀ ids res, c = .markResolved ids res → Ready res ids w)
    (hA : ∀ w x w', Mirror w → A w → Matched w n o c → Fires w ⟨n, o, c, x⟩ w' → A' x w')
    (hf : ∀ x, Outline mirroring n o Q (f x) (A' x)) : Outline mirroring n o Q (Prog.cmd c >>= f) A := by
  refine outline_cmd A' hs (fun w x w' hmirror hw hg hfire => ?_) hf
  have hguar : mirroring.Guar w ⟨n, o, c, x⟩ := ⟨hpersist w hw, hmark w hw⟩
  exact ⟨hguar, mirror_fires (e := ⟨n, o, c, x⟩) hmirror hg hguar.1 hguar.2 hfire, hA w x w' hmirror hw hg hfire⟩

/-- A command that neither adds to the DLQ nor removes from it, and leaves the rows. -/
def Quiet : Cmd → Prop
  | .xaddDlq _ | .xdelDlq _ | .xtrimDlq _ | .persist .. | .markResolved .. => False
  | _ => True

theorem quiet_marks (h : Quiet c) : persists c = [] ∧ marks c = [] := by
  cases c with
  | persist id reason fields => exact h.elim
  | markResolved ids res => exact h.elim
  | _ => exact ⟨rfl, rfl⟩

theorem quiet_fires (h : Quiet c) (hg : Matched w n o c) (hf : Fires w ⟨n, o, c, x⟩ w') :
    enters c x = [] ∧ takes c x = [] := by
  obtain ⟨now, hx⟩ := hf.1
  cases c with
  | sendAtomic envelope recipient =>
    rcases exec_sendAtomic hx with ⟨-, rfl, -⟩ | ⟨hunknown, -, -⟩
    · exact ⟨rfl, rfl⟩
    · exact absurd hg hunknown
  | xaddDlq fields => exact h.elim
  | xdelDlq ids => exact h.elim
  | xtrimDlq cutoff => exact h.elim
  | _ => exact ⟨rfl, rfl⟩

/-- After such a command a call owes what it owed. -/
theorem owes_quiet (hq : Quiet c) (h : Owes added removed n w) (hg : Matched w n o c)
    (hf : Fires w ⟨n, o, c, x⟩ w') : Owes added removed n w' := by
  obtain ⟨henters, htakes⟩ := quiet_fires hq hg hf
  refine owes_next h hf (fun d hd => .inl (hd.resolve_right fun hd => ?_))
    fun d hd => .inl (hd.resolve_right fun hd => ?_)
  · exact absurd (henters ▸ hd) List.not_mem_nil
  · exact absurd (htakes ▸ hd) List.not_mem_nil

theorem outline_quiet {Q : Except Exc α → World (system R S) → Prop} {f : Resp c → P α} (hq : Quiet c)
    (hf : ∀ x, Outline mirroring n o Q (f x) (Owes added removed n)) :
    Outline mirroring n o Q (Prog.cmd c >>= f) (Owes added removed n) := by
  obtain ⟨hpersists, hmarks⟩ := quiet_marks hq
  refine outline_mirroring (fun _ => Owes added removed n) (fun _ => stable_owes)
    (fun _ _ d hd => absurd (hpersists ▸ hd) List.not_mem_nil) (fun _ _ ids res hc => ?_)
    (fun w x w' _ h hg hfire => owes_quiet hq h hg hfire) hf
  subst hc
  exact hq.elim

/-- Whatever the outcome. -/
theorem outline_outcome {A B : World (system R S) → Prop} {D : Discipline (system R S)} {p : P α}
    (h : Outline D n o (fun _ => B) p A) : Outline D n o (Outcome (fun _ => B) fun _ => B) p A :=
  outline_mono (fun _ _ h => h) (fun r _ _ hr => by cases r <;> exact hr) h

/-- A command that resolves the rows of what the call has removed. -/
theorem outline_mark {Q : Except Exc α → World (system R S) → Prop} {f : Unit → P α}
    (hf : ∀ x, Outline mirroring n o Q (f x) (Owes [] [] n)) :
    Outline mirroring n o Q (cmd (.markResolved ids res) >>= f) fun w => Owes [] ids n w ∧ Ready res ids w := by
  refine outline_mirroring (fun _ => Owes [] [] n) (fun _ => stable_owes) (fun _ _ _ hd => absurd hd List.not_mem_nil)
    (fun w h ids' res' hc => ?_) (fun w x w' _ h _ hfire => ?_) hf
  · cases hc
    exact h.2
  · refine owes_next h.1 hfire (fun d hd => ?_) fun d hd => ?_
    · exact hd.elim (fun hd => .inl hd) fun hd => absurd hd List.not_mem_nil
    · exact hd.elim (fun hd => .inr hd) fun hd => absurd hd List.not_mem_nil

/-- `mark_resolved_bulk`. -/
theorem markResolvedBulk_outline : Outline mirroring n o (fun _ => Owes (R := R) (S := S) [] [] n)
    (markResolvedBulk ids res) fun w => Owes [] ids n w ∧ Ready res ids w := by
  unfold markResolvedBulk
  split
  · rename_i hids
    subst hids
    exact outline_ret fun _ _ h => h.1
  · exact outline_mark (f := fun _ => .ret ()) fun _ => outline_ret fun _ _ h => h

/-- What is removed can be resolved, when it could be before. -/
theorem ready_of_resolvable (h : Mirror w) (hf : Fires w e w') (hres : resolves e.op = some res)
    (hids : ∀ d ∈ ids, Resolvable w e.op d ∧ (d ∈ w.state.dlq.ids → d ∈ takes e.cmd e.resp)) : Ready res ids w' := by
  intro d hd
  obtain ⟨⟨hrow, hkind⟩, htakes⟩ := hids d hd
  rw [status_fires hf]
  refine ⟨statusAfter_ne_none hrow, fun hnone => ?_⟩
  have hopen : w.state.status d = some none := (statusAfter_none hnone).resolve_right fun h => hrow h.1
  by_cases hremoved : Removed d w
  · refine lasting_withdrawn w e w' hf (withdrawn_of_gone hremoved fun e' he' hd' => ?_)
    exact (hkind hopen e' he' hd').trans hres
  · have hnow := htakes ((h.ids d).mpr ⟨h.entered d hrow, hremoved⟩)
    rw [hf.2]
    exact .inr ⟨hnow, hres, fun e' he' hd' => hremoved ⟨e', he', hd'⟩⟩

/-- `XDEL`. -/
theorem outline_xdel {Q : Except Exc α → World (system R S) → Prop} {f : Unit → P α} (hres : resolves o = some res)
    (hf : ∀ x, Outline mirroring n o Q (f x) fun w => Owes [] (removed ++ ids) n w ∧ Ready res (removed ++ ids) w) :
    Outline mirroring n o Q (cmd (.xdelDlq ids) >>= f) fun w => Owes [] removed n w ∧ Ready res removed w := by
  refine outline_mirroring (fun _ w => Owes [] (removed ++ ids) n w ∧ Ready res (removed ++ ids) w)
    (fun _ => stable_and stable_owes lasting_ready.stable) (fun _ _ _ hd => absurd hd List.not_mem_nil)
    (fun _ _ _ _ hc => by cases hc) (fun w x w' hmirror h hg hfire => ⟨?_, fun d hd => ?_⟩) hf
  · refine owes_next h.1 hfire (fun d hd => .inl (hd.resolve_right List.not_mem_nil)) fun d hd => ?_
    exact .inl (List.mem_append.mpr hd)
  · rcases List.mem_append.mp hd with hd | hd
    · exact lasting_ready _ _ _ hfire h.2 d hd
    · exact ready_of_resolvable (e := ⟨n, o, .xdelDlq ids, x⟩) hmirror hfire hres
        (fun d hd => ⟨hg d hd, fun _ => hd⟩) d hd

/-- `XDEL`, chunk by chunk. -/
theorem deleteEach_outline (hres : resolves o = some res) : ∀ (chunks : List (List StreamId)) (removed : List StreamId),
    Outline mirroring n o (Outcome (fun _ w => Owes (R := R) (S := S) [] (removed ++ chunks.flatten) n w ∧
      Ready res (removed ++ chunks.flatten) w) fun _ _ => False) (deleteEach chunks)
      fun w => Owes [] removed n w ∧ Ready res removed w
  | [], removed => outline_ret fun w _ h => by
    have hnil : removed ++ ([] : List (List StreamId)).flatten = removed := List.append_nil _
    unfold Outcome
    rwa [hnil]
  | ids :: chunks, removed => by
    refine outline_xdel hres fun _ => ?_
    have ih := deleteEach_outline hres chunks (removed ++ ids)
    rw [List.append_assoc, ← List.flatten_cons] at ih
    exact ih

theorem hundreds_flatten : ∀ (fuel : Nat) (ids : List StreamId), ids.length ≤ fuel → (hundreds fuel ids).flatten = ids
  | 0, ids, h => by
    rw [List.length_eq_zero_iff.mp (Nat.le_zero.mp h)]
    rfl
  | fuel + 1, ids, h => by
    unfold hundreds
    split
    · rename_i hids
      rw [hids]
      rfl
    · rename_i hids
      have hpos : 0 < ids.length := List.length_pos_iff.mpr hids
      rw [List.flatten_cons, hundreds_flatten fuel (ids.drop 100) (by rw [List.length_drop]; omega),
        List.take_append_drop]

/-- A call that has executed nothing owes nothing. -/
theorem owes_of_untouched (h : Untouched n w) : Owes added removed n w := by
  intro e he
  have hnone : mine n w = [] := h
  exact absurd (hnone ▸ he) List.not_mem_nil

theorem ready_nil : Ready (R := R) (S := S) res [] w := fun _ hd => absurd hd List.not_mem_nil

/-- An operation whose commands are quiet. -/
theorem quiet_outline (ho : ∀ c, Issues o c → Quiet c) :
    Outline mirroring n o (fun _ => Owes (R := R) (S := S) [] [] n) (prog R o) (Owes [] [] n) := by
  refine outline_of_each stable_owes (fun c hissues w x w' hmirror hw hg hf => ?_) (each_prog o)
  obtain ⟨hpersists, hmarks⟩ := quiet_marks (ho c hissues)
  have hguar : mirroring.Guar w ⟨n, o, c, x⟩ := by
    refine ⟨fun d hd => absurd (hpersists ▸ hd) List.not_mem_nil, fun ids res hc => ?_⟩
    obtain rfl : c = .markResolved ids res := hc
    exact (ho _ hissues).elim
  exact ⟨hguar, mirror_fires (e := ⟨n, o, c, x⟩) hmirror hg hguar.1 hguar.2 hf, owes_quiet (ho c hissues) hw hg hf⟩

/-- **The loop of `sweep_pending`** writes a row for each entry that it has added. -/
theorem sweepEach_mirrored {a : String} : ∀ pending : List (StreamId × Nat),
    Outline mirroring n (.sweepPending a) (fun _ => Owes (R := R) (S := S) [] [] n) (sweepEach a pending) (Owes [] [] n)
  | [] => outline_ret fun _ _ h => h
  | (mid, idle_ms) :: pending => by
    refine outline_quiet (c := .xrangeInbox a mid) trivial fun x => ?_
    cases x with
    | none => exact sweepEach_mirrored pending
    | some fields =>
      refine outline_mirroring (fun id w => Owes [id] [] n w ∧ Entered id w)
        (fun _ => stable_and stable_owes lasting_executed.stable) (fun _ _ _ hd => absurd hd List.not_mem_nil)
        (fun _ _ _ _ hc => by cases hc)
        (fun w id w' _ h _ hfire => ⟨?_, executed_now hfire (List.mem_singleton_self _)⟩) fun id => ?_
      · exact owes_next h hfire (fun d hd => .inl (hd.resolve_left List.not_mem_nil))
          fun d hd => .inl (hd.resolve_right List.not_mem_nil)
      · refine outline_mirroring (fun _ => Owes [] [] n) (fun _ => stable_owes) (fun w h d hd => ?_)
          (fun _ _ _ _ hc => by cases hc) (fun w x w' _ h _ hfire => ?_) fun _ => ?_
        · exact List.mem_singleton.mp hd ▸ h.2
        · exact owes_next h.1 hfire (fun d hd => .inr (hd.resolve_right List.not_mem_nil))
            fun d hd => .inl (hd.resolve_right List.not_mem_nil)
        · refine outline_quiet (c := .xack a [mid]) trivial fun _ => ?_
          exact outline_bind (R := fun _ => Owes [] [] n) (fun _ => outline_ret fun _ _ h => h)
            (outline_outcome (sweepEach_mirrored pending))

theorem sweepPending_mirrored {a : String} : Outline mirroring n (.sweepPending a)
    (fun _ => Owes (R := R) (S := S) [] [] n) (sweepPending a) (Owes [] [] n) := by
  unfold sweepPending
  split
  · exact outline_ret fun _ _ h => h
  · exact outline_quiet (c := .xpending a 50) trivial fun raw => sweepEach_mirrored _

/-- **A call of `requeue`** resolves the row of the entry that it has removed. -/
theorem requeue_mirrored {r : Option String} : Outline mirroring n (.requeue d r)
    (fun _ => Owes (R := R) (S := S) [] [] n) (requeue R d r) (Owes [] [] n) := by
  refine outline_quiet (c := .xrangeDlq d) trivial fun x => ?_
  cases x.bind (readEnvelope R) with
  | none => exact outline_ret fun _ _ h => h
  | some p =>
    obtain ⟨raw_env, env⟩ := p
    refine outline_quiet (c := .ensureGroup _) trivial fun _ => ?_
    refine outline_quiet (c := .xaddInbox _ _) trivial fun id => ?_
    refine outline_pre (P := fun w => Owes [] [] n w ∧ Ready .requeued [] w) (fun w _ h => ⟨h, ready_nil⟩)
      (outline_xdel rfl fun _ => ?_)
    exact outline_mark fun _ => outline_ret fun _ _ h => h

/-- **A call of `purge`** resolves the rows of the entries that it has removed. -/
theorem purge_mirrored {t : Time} : Outline mirroring n (.purge t)
    (fun _ => Owes (R := R) (S := S) [] [] n) (purge t) (Owes [] [] n) := by
  refine outline_quiet (c := .time) trivial fun now => outline_quiet (c := .dlqIds) trivial fun raw => ?_
  dsimp only
  split
  · exact outline_ret fun _ _ h => h
  · refine outline_pre (P := fun w => Owes [] [] n w ∧ Ready .purged [] w) (fun w _ h => ⟨h, ready_nil⟩)
      (outline_xdel rfl fun _ => ?_)
    exact outline_bind (R := fun _ => Owes [] [] n) (fun _ => outline_ret fun _ _ h => h)
      (outline_outcome markResolvedBulk_outline)

/-- The call has found these below its cutoff, and no others. -/
def Snapshots (n : Nat) (ids : List StreamId) (w : World (system R S)) : Prop := ∀ d, Snapshot n d w ↔ d ∈ ids

theorem stable_snapshots : Stable (mirroring (R := R) (S := S)) n (Snapshots n ids) := by
  intro w e w' hn _ _ _ hf _ h d
  unfold Snapshot
  rw [mine_other hf hn]
  exact h d

theorem snapshots_next (h : Snapshots n ids w) (hf : Fires w ⟨n, o, c, x⟩ w') :
    Snapshots n (snapshots c x ++ ids) w' := by
  intro d
  unfold Snapshot
  rw [mine_own hf rfl, List.mem_append, ← h d]
  simp [Snapshot]

/-- A quiet command of a call of `prune_old_messages`. -/
theorem outline_snapshot {Q : Except Exc α → World (system R S) → Prop} {f : Resp c → P α} (hq : Quiet c)
    (hf : ∀ x, Outline mirroring n o Q (f x) fun w => Owes [] [] n w ∧ Snapshots n (snapshots c x ++ ids) w) :
    Outline mirroring n o Q (Prog.cmd c >>= f) fun w => Owes [] [] n w ∧ Snapshots n ids w := by
  obtain ⟨hpersists, -⟩ := quiet_marks hq
  refine outline_mirroring (fun x w => Owes [] [] n w ∧ Snapshots n (snapshots c x ++ ids) w)
    (fun _ => stable_and stable_owes stable_snapshots) (fun _ _ d hd => absurd (hpersists ▸ hd) List.not_mem_nil)
    (fun _ _ ids res hc => ?_)
    (fun w x w' _ h hg hfire => ⟨owes_quiet hq h.1 hg hfire, snapshots_next h.2 hfire⟩) hf
  subst hc
  exact hq.elim

/-- `XTRIM` removes what the call has found. -/
theorem outline_xtrim {Q : Except Exc α → World (system R S) → Prop} {cutoff : StreamId}
    {f : Option (List StreamId) → P α} (hres : resolves o = some res)
    (hsome : ∀ removed, Outline mirroring n o Q (f (some removed)) fun w => Owes [] ids n w ∧ Ready res ids w)
    (hnone : Outline mirroring n o Q (f none) (Owes [] [] n)) :
    Outline mirroring n o Q (cmd (.xtrimDlq cutoff) >>= f) fun w => Owes [] [] n w ∧ Snapshots n ids w := by
  refine outline_mirroring (c := .xtrimDlq cutoff)
    (fun x w => if x.isSome then Owes [] ids n w ∧ Ready res ids w else Owes [] [] n w) (fun x => ?_)
    (fun _ _ _ hd => absurd hd List.not_mem_nil) (fun _ _ _ _ hc => by cases hc)
    (fun w x w' hmirror h hg hfire => ?_) fun x => ?_
  · cases x with
    | none => exact stable_owes
    | some removed => exact stable_and stable_owes lasting_ready.stable
  · obtain ⟨now, hx⟩ := hfire.1
    rcases exec_xtrimDlq hx with ⟨hminid, rfl, -⟩ | ⟨rfl, -⟩
    · obtain ⟨hall, hrow⟩ := hg hminid
      have hthere : ∀ d ∈ w.state.trimmedIds S cutoff, d ∈ ids := fun d hd =>
        (h.2 d).mp ((hall d (List.mem_of_mem_filter (List.mem_of_mem_take hd))).mp hd)
      refine ⟨owes_next h.1 hfire (fun d hd => .inl (hd.resolve_right List.not_mem_nil)) fun d hd => ?_, ?_⟩
      · exact .inl (hthere d (hd.resolve_left List.not_mem_nil))
      · refine ready_of_resolvable (e := ⟨n, o, .xtrimDlq cutoff, _⟩) hmirror hfire hres fun d hd => ?_
        have hfound := (h.2 d).mpr hd
        exact ⟨hrow d hfound, fun hin => (hall d hin).mpr hfound⟩
    · exact owes_next h.1 hfire (fun d hd => .inl (hd.resolve_right List.not_mem_nil))
        fun d hd => .inl (hd.resolve_right List.not_mem_nil)
  · cases x with
    | none => exact hnone
    | some removed => exact hsome removed

/-- **A call of `prune_old_messages`** resolves the rows of the entries that it has removed. -/
theorem pruneOldMessages_mirrored {t : Time} : Outline mirroring n (.pruneOldMessages t)
    (fun _ => Owes (R := R) (S := S) [] [] n) (pruneOldMessages t) (Untouched n) := by
  have hstart : ∀ w : World (system R S), mirroring.Inv w → Untouched n w → Owes [] [] n w ∧ Snapshots n [] w := by
    intro w _ h
    have hnone : mine n w = [] := h
    refine ⟨owes_of_untouched h, fun d => ?_⟩
    unfold Snapshot
    rw [hnone]
    simp
  have hres : resolves (.pruneOldMessages t) = some .expired := rfl
  refine outline_pre hstart (outline_snapshot (c := .time) trivial fun now => ?_)
  dsimp only
  split
  · exact outline_raise fun _ _ h => h.1
  · refine outline_snapshot (c := .dlqBelow _) trivial fun expired_ids => ?_
    refine outline_xtrim hres (fun removed => ?_) ?_
    · have hids : snapshots (.dlqBelow (.ofMs (truncate ((now - t * 3600) * 1000)).toNat)) expired_ids ++
          (snapshots .time now ++ []) = expired_ids := List.append_nil _
      rw [hids]
      exact outline_bind (R := fun _ => Owes [] [] n) (fun _ => outline_ret fun _ _ h => h)
        (outline_outcome markResolvedBulk_outline)
    · refine outline_quiet (c := .dlqBelow _) trivial fun ids => ?_
      have hdelete := deleteEach_outline (R := R) (S := S) (n := n) hres (hundreds ids.length ids) []
      rw [List.nil_append, hundreds_flatten ids.length ids (Nat.le_refl _)] at hdelete
      refine outline_bind (R := fun _ w => Owes [] ids n w ∧ Ready .expired ids w) (fun _ => ?_)
        (outline_pre (P := fun w => Owes [] [] n w ∧ Ready .expired [] w) (fun w _ h => ⟨h, ready_nil⟩) ?_)
      · exact outline_bind (R := fun _ => Owes [] [] n) (fun _ => outline_ret fun _ _ h => h)
          (outline_outcome markResolvedBulk_outline)
      · exact outline_mono (fun _ _ h => h) (fun r _ _ h => by cases r with
          | ok _ => exact h
          | error _ => exact h.elim) hdelete

theorem outline_owes (n : Nat) : ∀ o : Op,
    Outline mirroring n o (fun _ => Owes (R := R) (S := S) [] [] n) (prog R o) (Untouched n)
  | .requeue _ _ => outline_pre (fun _ _ h => owes_of_untouched h) requeue_mirrored
  | .purge _ => outline_pre (fun _ _ h => owes_of_untouched h) purge_mirrored
  | .pruneOldMessages _ => pruneOldMessages_mirrored
  | .sweepPending _ => outline_pre (fun _ _ h => owes_of_untouched h) sweepPending_mirrored
  | .send _ _ _ _ _ => outline_pre (fun _ _ h => owes_of_untouched h) (quiet_outline fun c hissues => by
      cases hissues <;> trivial)
  | .recv _ _ _ => outline_pre (fun _ _ h => owes_of_untouched h) (quiet_outline fun c hissues => by
      cases hissues <;> trivial)
  | .tick _ => outline_pre (fun _ _ h => owes_of_untouched h) (quiet_outline fun c hissues => by cases hissues; trivial)
  | .setIndex _ => outline_pre (fun _ _ h => owes_of_untouched h) (quiet_outline fun c hissues => by
      cases hissues; trivial)

/-! ## Every run -/

/-- The DLQ and the mirror are empty. -/
def Keys.Unlogged (s : Keys) : Prop := s.dlq.entries = [] ∧ s.rows.rows = []

variable {cfg : Config (system R S)}

theorem mirror_init (h : s.Unlogged) : Mirror (R := R) (S := S) ⟨s, []⟩ := by
  have hrow : ∀ d, s.status d = none := fun d => status_eq_none.mpr fun r hr => absurd (h.2 ▸ hr) List.not_mem_nil
  have hnone : ∀ {q : Event (system R S) → Prop}, ¬ ∃ e ∈ (⟨s, []⟩ : World (system R S)).trace, q e := by
    rintro q ⟨e, he, -⟩
    exact List.not_mem_nil he
  have hids : s.dlq.ids = [] := by
    unfold Log.ids
    rw [h.1]
    rfl
  refine ⟨fun d hd => absurd hd hnone, fun d hd => absurd (hrow d) hd, fun d => ?_, fun d hd => absurd hd hnone,
    fun d res hd => ?_, fun d hd => absurd hd hnone, fun d hd => absurd hd hnone⟩
  · exact iff_of_false (fun hd => absurd (hids ▸ hd) List.not_mem_nil) fun hd => hnone hd.1
  · exact absurd ((hrow d).symm.trans hd) (by simp)

/-- A row that has been resolved has a time. -/
def Keys.Dated (s : Keys) : Prop := ∀ r ∈ s.rows.rows, r.resolution.isSome → r.resolved_at_ms.isSome

theorem dated_fires (h : w.state.Dated) (hf : Fires w e w') : w'.state.Dated := by
  have hrows : w'.state.rows = rowsAfter w.state e.cmd := by
    obtain ⟨now, hx⟩ := hf.1
    exact rows_exec hx
  intro r hr hres
  rw [hrows] at hr
  generalize e.cmd = c at hr
  cases c with
  | persist id reason fields =>
    have hr : r ∈ ((w.state.rows.insert ⟨id, reason, fields, w.state.nowMs, none, none⟩).getD w.state.rows).rows := hr
    cases hinsert : w.state.rows.insert ⟨id, reason, fields, w.state.nowMs, none, none⟩ with
    | none =>
      rw [hinsert] at hr
      exact h r hr hres
    | some t =>
      rw [hinsert, Option.getD_some, Table.rows_insert hinsert, List.mem_append, List.mem_singleton] at hr
      rcases hr with hr | rfl
      · exact h r hr hres
      · cases hres
  | markResolved ids res =>
    obtain ⟨r₀, hr₀, heq⟩ := List.mem_map.mp hr
    by_cases hp : (ids.contains r₀.stream_id && r₀.resolution.isNone) = true
    · rw [if_pos hp] at heq
      exact heq ▸ rfl
    · rw [if_neg hp] at heq
      exact heq ▸ h r₀ hr₀ (heq ▸ hres)
  | _ => exact h r hr hres

/-- What is known in every state that such calls reach. -/
theorem run_mirror (h0 : s.Unlogged) (h : Run Matched (.init s) cfg) : Mirror cfg.world ∧ cfg.world.state.Dated := by
  have hdated : s.Dated := fun r hr => absurd (h0.2 ▸ hr) List.not_mem_nil
  refine ⟨(run_sound (D := mirroring) outline_owes (mirror_init h0) h).inv, ?_⟩
  exact run_inv (I := fun w : World (system R S) => w.state.Dated) (fun _ _ _ hdated _ hf => dated_fires hdated hf)
    hdated h

/-- When no call is in progress nothing is owed. -/
theorem owes_of_quiescent (h0 : s.Unlogged) (h : Run Matched (.init s) cfg) (hq : cfg.Quiescent)
    (he : e ∈ cfg.world.trace) : (d ∈ enters e.cmd e.resp → Persisted d cfg.world) ∧
      (d ∈ takes e.cmd e.resp → Marked d cfg.world) := by
  have hsound := run_sound (D := mirroring) outline_owes (mirror_init h0) h
  obtain ⟨call, hcall⟩ := Option.ne_none_iff_exists'.mp (run_traced h e he)
  obtain ⟨r, hr⟩ := hq.ended hcall
  obtain ⟨hadded, hremoved⟩ := hsound.ended hr e (List.mem_filter.mpr ⟨he, by simp⟩) d
  exact ⟨fun hd => (hadded hd).resolve_left List.not_mem_nil, fun hd => (hremoved hd).resolve_left List.not_mem_nil⟩

/-- Rows that are those of a list of entries. -/
theorem count_eq_length {t : Table Row.stream_id} {q : Row → Bool} {l : List StreamId} (hl : l.Nodup)
    (h : ∀ d, d ∈ l ↔ ∃ r ∈ t.rows, r.stream_id = d ∧ q r = true) : t.count q = l.length := by
  have hperm : ((t.rows.filter q).map Row.stream_id).Perm l := by
    refine (List.perm_ext_iff_of_nodup (t.nodup.sublist (List.filter_sublist.map _)) hl).mpr fun d => ?_
    rw [h, List.mem_map]
    constructor
    · rintro ⟨r, hr, hd⟩
      obtain ⟨hmem, hq⟩ := List.mem_filter.mp hr
      exact ⟨r, hmem, hd, hq⟩
    · rintro ⟨r, hmem, hd, hq⟩
      exact ⟨r, List.mem_filter.mpr ⟨hmem, hq⟩, hd⟩
  rw [Table.count, List.countP_eq_length_filter, ← List.length_map Row.stream_id, hperm.length_eq]

/-- **The mirror tracks the DLQ**, when no call is in progress, where the commands of the calls meet the condition. -/
theorem tracks_of_matched (h0 : s.Unlogged) (h : Run Matched (.init s) cfg) (hq : cfg.Quiescent) :
    Tracks cfg.world := by
  obtain ⟨hmirror, hdated⟩ := run_mirror h0 h
  have howes := fun {e} {d} (he : e ∈ cfg.world.trace) => owes_of_quiescent (d := d) h0 h hq he
  -- What has been removed is resolved.
  have hresolved : ∀ {d}, Removed d cfg.world → ∃ res, cfg.world.state.status d = some (some res) := by
    rintro d ⟨e, he, htakes⟩
    exact hmirror.marked d ((howes he).2 htakes)
  have hunresolved : ∀ d, (∃ r ∈ cfg.world.state.rows.rows, r.stream_id = d ∧ r.resolution = none) ↔
      d ∈ cfg.world.state.dlq.ids := by
    intro d
    rw [← status_eq_some, hmirror.ids]
    constructor
    · refine fun hnone => ⟨hmirror.entered d (by rw [hnone]; exact Option.some_ne_none _), fun hremoved => ?_⟩
      obtain ⟨res, hres⟩ := hresolved hremoved
      cases hnone.symm.trans hres
    · rintro ⟨⟨e, he, henters⟩, hnot⟩
      cases hst : cfg.world.state.status d with
      | none => exact absurd hst (hmirror.persisted d ((howes he).1 henters))
      | some st =>
        cases st with
        | none => rfl
        | some res => exact absurd (hmirror.resolved d res hst).gone hnot
  have honce : ∀ {res d}, Withdrawn res d cfg.world.trace → cfg.world.state.status d = some (some res) := by
    intro res d hw
    obtain ⟨res', hres'⟩ := hresolved hw.gone
    rw [hres', (hmirror.resolved d res' hres').unique hw]
  have hcount : ∀ {res : Resolution} {cutoff_ms : Int} {l : List StreamId}, l.Nodup →
      (∀ d, d ∈ l ↔ Withdrawn res d cfg.world.trace ∧ cfg.world.state.Since cutoff_ms d) →
        cfg.world.state.resolvedSince cutoff_ms res = l.length := by
    intro res cutoff_ms l hl hmem
    refine count_eq_length hl fun d => ?_
    rw [hmem]
    constructor
    · rintro ⟨hw, r, hr, hd, ht⟩
      obtain ⟨r', hr', hd', hres⟩ := status_eq_some.mp (honce hw)
      obtain rfl : r' = r := List.inj_on_of_nodup_map cfg.world.state.rows.nodup hr' hr (hd'.trans hd.symm)
      exact ⟨r', hr, hd, decide_eq_true ⟨hres, ht⟩⟩
    · rintro ⟨r, hr, hd, hq⟩
      obtain ⟨hres, ht⟩ := of_decide_eq_true hq
      exact ⟨hmirror.resolved d res (status_eq_some.mpr ⟨r, hr, hd, hres⟩), r, hr, hd, ht⟩
  refine ⟨hunresolved, ?_, fun res d _ hw => ?_, fun window_seconds requeued expired hnr hne hr he => ?_⟩
  · have hlength : cfg.world.state.dlqDepth = cfg.world.state.dlq.ids.length := (List.length_map _).symm
    rw [hlength]
    refine count_eq_length cfg.world.state.dlq.nodup_ids fun d => ?_
    rw [← hunresolved]
    simp
  · obtain ⟨r, hr, hd, hres⟩ := status_eq_some.mp (honce hw)
    exact ⟨r, hr, hd, hres, hdated r hr (hres ▸ rfl)⟩
  · unfold Keys.falsePositiveRate
    dsimp only
    rw [hcount hnr hr, hcount hne he]
    rfl

/-! ## Two runs -/

/-- Whether a command meets the condition: what is removed has a row, and nothing has removed it before. -/
def matching (w : World plain) : Cmd → Bool
  | .sendAtomic _ recipient => recipient ∈ w.state.index
  | .xdelDlq ids => ids.all fun d =>
    (w.state.status d).isSome && w.trace.all fun e => !(takes e.cmd e.resp).contains d
  | .xtrimDlq _ => false
  | _ => true

theorem matching_sound {w : World plain} (h : matching w c = true) : Matched w n o c := by
  cases c with
  | sendAtomic envelope recipient =>
    have hknown : recipient ∈ w.state.index := of_decide_eq_true h
    exact hknown
  | xaddDlq fields => exact fun now => addDlq_eq (fun _ => rfl) w.state now fields
  | xdelDlq ids =>
    intro d hd
    have hall := List.all_eq_true.mp h d hd
    rw [Bool.and_eq_true] at hall
    refine ⟨Option.isSome_iff_ne_none.mp hall.1, fun _ e he htakes => ?_⟩
    exact absurd htakes (by simpa using List.all_eq_true.mp hall.2 e he)
  | xtrimDlq cutoff => cases h
  | _ => trivial

/-- A message is sent, read and not acknowledged, swept into the DLQ after a minute, and requeued. -/
def sweptOnce : List (Act plain) :=
  solo plain 0 (.send "b" (.str "hello") 3 0 "a") 3 0 ++ solo plain 1 (.recv "b" 1 false) 3 0 ++
    solo plain 2 (.sweepPending "b") 5 60000 ++ solo plain 3 (.requeue (.ofMs 60000) none) 5 0

theorem tracks_of_matched_one :
    ∃ cfg : Config plain, Run Matched (.init (Keys.registered ["b"])) cfg ∧ cfg.Quiescent ∧
      cfg.world.state.resolvedSince 0 .requeued = 1 ∧ Tracks cfg.world := by
  have hplay : (play (fun w _ _ c => matching w c = true) (.init (M := plain) (Keys.registered ["b"])) sweptOnce).any
      (fun cfg => (starts sweptOnce).all cfg.atRest && cfg.world.state.resolvedSince 0 .requeued == 1) = true := by
    decide +kernel
  obtain ⟨cfg, hcfg, hquiet, ht⟩ := exists_quiescent_of_play hplay
  have hrun : Run Matched (.init (Keys.registered ["b"])) cfg := hcfg.mono fun _ _ _ _ hg => matching_sound hg
  exact ⟨cfg, hrun, hquiet, eq_of_beq ht, tracks_of_matched ⟨rfl, rfl⟩ hrun hquiet⟩

/-- The operations that the mirror is there for. -/
def Handles : Op → Prop
  | .recv _ _ _ | .tick _ | .setIndex _ => False
  | _ => True

instance (o : Op) : Decidable (Handles o) :=
  match o with
  | .recv _ _ _ | .tick _ | .setIndex _ => isFalse id
  | .send _ _ _ _ _ | .sweepPending _ | .requeue _ _ | .purge _ | .pruneOldMessages _ => isTrue trivial

/-- A message for nobody. -/
def sentToNobody : List (Act plain) := solo plain 0 (.send "b" (.str "hello") 3 0 "a") 3 0

/-- **The script of `send` adds an entry without a row.** -/
theorem unmirrored : ∃ cfg : Config plain, Run (fun _ _ o _ => Handles o) (.init (Keys.registered [])) cfg ∧
    cfg.Quiescent ∧ ¬ Tracks cfg.world := by
  have hplay : (play (fun _ _ o _ => Handles o) (.init (M := plain) (Keys.registered [])) sentToNobody).any
      (fun cfg => (starts sentToNobody).all cfg.atRest &&
        decide (cfg.world.state.depthPersisted ≠ cfg.world.state.dlqDepth)) = true := by decide +kernel
  obtain ⟨cfg, hcfg, hquiet, ht⟩ := exists_quiescent_of_play hplay
  exact ⟨cfg, hcfg, hquiet, fun h => of_decide_eq_true ht h.depth⟩

end ClaudeSwarm.Ipc.Direct
