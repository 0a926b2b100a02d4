import ClaudeSwarm.Redis.Streams

/-!
# Streams read by one consumer

A stream with the consumer group that reads it (`Queue`), from which nothing is trimmed. An entry waits until it is
delivered, and is pending from then on until it is acknowledged; `unsettled` are the entries that do one of the two.
What is pending may be read again, in the order of the ids.

* `unsettled_add`, `unsettled_deliver`, `unsettled_redeliver`, `unsettled_ack`: what each operation leaves unsettled.
* **`unsettled_drain`**: a consumer that reads what is pending and then what is new, and acknowledges all of it, takes
  the first of the unsettled entries.
-/

namespace ClaudeSwarm.Redis

/-! ## Filters of a sorted list -/

section Filters

variable {α : Type} {l : List (StreamId × α)}

/-- What is selected below a bound comes before what is selected above it. -/
theorem filter_below_or_above {p q : StreamId × α → Bool} {t : StreamId} (hl : (l.map Prod.fst).Pairwise (· < ·))
    (hp : ∀ e ∈ l, p e = true → e.1 ≤ t) (hq : ∀ e ∈ l, q e = true → t < e.1) :
    l.filter (fun e => p e || q e) = l.filter p ++ l.filter q := by
  induction l with
  | nil => rfl
  | cons e l ih =>
    rw [List.map_cons, List.pairwise_cons] at hl
    have hrest := ih hl.2 (fun x hx => hp x (List.mem_cons_of_mem e hx)) fun x hx => hq x (List.mem_cons_of_mem e hx)
    by_cases habove : q e = true
    · have hlt : t < e.1 := hq e List.mem_cons_self habove
      have hnone : ∀ x ∈ e :: l, ¬ p x = true := by
        intro x hx hpx
        have hle : x.1 ≤ t := hp x hx hpx
        rcases List.mem_cons.mp hx with rfl | hx
        · exact Nat.not_lt.mpr hle hlt
        · exact Nat.not_lt.mpr hle (hlt.trans (hl.1 x.1 (List.mem_map_of_mem hx)))
      have hp' : (e :: l).filter p = [] := List.filter_eq_nil_iff.mpr hnone
      rw [hp', List.nil_append]
      refine List.filter_congr fun x hx => ?_
      rw [Bool.eq_false_iff.mpr (hnone x hx), Bool.false_or]
    · rw [Bool.not_eq_true] at habove
      by_cases hbelow : p e = true
      · simp [hbelow, habove, hrest]
      · simp [hbelow, habove, hrest]

/-- The entries whose ids are those of a sublist are the sublist. -/
theorem filter_of_sublist {sub : List (StreamId × α)} (hl : (l.map Prod.fst).Nodup) (h : sub.Sublist l) :
    l.filter (fun e => (sub.map Prod.fst).contains e.1) = sub := by
  induction h with
  | slnil => rfl
  | @cons sub l e h ih =>
    rw [List.map_cons, List.nodup_cons] at hl
    have hnot : e.1 ∉ sub.map Prod.fst := fun hmem => hl.1 ((h.map Prod.fst).subset hmem)
    rw [List.filter_cons_of_neg (by simpa using hnot)]
    exact ih hl.2
  | @cons_cons sub l e h ih =>
    rw [List.map_cons, List.nodup_cons] at hl
    rw [List.filter_cons_of_pos (by simp)]
    congr 1
    refine (List.filter_congr fun x hx => ?_).trans (ih hl.2)
    have hne : x.1 ≠ e.1 := fun he => hl.1 (he ▸ List.mem_map_of_mem hx)
    simp [hne]

/-- The entries after the first have other ids. -/
theorem not_mem_take {k : Nat} {e : StreamId × α} (hl : (l.map Prod.fst).Nodup) (he : e ∈ l.drop k) :
    e.1 ∉ (l.take k).map Prod.fst := by
  rw [← List.take_append_drop k l, List.map_append, List.nodup_append] at hl
  exact fun hmem => hl.2.2 e.1 hmem e.1 (List.mem_map_of_mem he) rfl

/-- What is left when the first entries are taken out by their ids. -/
theorem filter_take {k : Nat} (hl : (l.map Prod.fst).Nodup) :
    l.filter (fun e => !((l.take k).map Prod.fst).contains e.1) = l.drop k := by
  have hboth : l.filter (fun e => !((l.take k).map Prod.fst).contains e.1) =
      ((l.take k) ++ (l.drop k)).filter (fun e => !((l.take k).map Prod.fst).contains e.1) := by
    rw [List.take_append_drop]
  rw [hboth, List.filter_append]
  have hnone : (l.take k).filter (fun e => !((l.take k).map Prod.fst).contains e.1) = [] :=
    List.filter_eq_nil_iff.mpr fun e he => by
      have hmem : e.1 ∈ (l.take k).map Prod.fst := List.mem_map_of_mem he
      simpa using hmem
  have hall : (l.drop k).filter (fun e => !((l.take k).map Prod.fst).contains e.1) = l.drop k :=
    List.filter_eq_self.mpr fun e he => by simpa using not_mem_take hl he
  rw [hnone, hall, List.nil_append]

end Filters

/-- A stream, and the group that reads it, if there is one. -/
structure Queue (α : Type) where
  log : Log α
  group : Option Group
  pos : ∀ e ∈ log.entries, 0 < e.1
  delivered_le : ∀ g ∈ group, g.delivered ≤ log.last
  pending_le : ∀ g ∈ group, ∀ p ∈ g.pending, p.1 ≤ g.delivered

namespace Queue

variable {α : Type}

/-- No stream. -/
def empty : Queue α :=
  ⟨.empty, none, fun _ he => absurd he List.not_mem_nil, fun _ hg => absurd hg (by simp), fun _ hg => absurd hg (by simp)⟩

/-- `XADD`. -/
def add (q : Queue α) (now : Nat) (a : α) : Queue α where
  log := q.log.add now a
  group := q.group
  pos e he := by
    rcases Log.mem_add.mp he with he | rfl
    · exact q.pos e he
    · exact Nat.lt_of_le_of_lt (Nat.zero_le _) (q.log.last_lt_next now)
  delivered_le g hg := Nat.le_of_lt (Nat.lt_of_le_of_lt (q.delivered_le g hg) (q.log.last_lt_next now))
  pending_le := q.pending_le

/-- `XGROUP CREATE key group 0 MKSTREAM`, which leaves a group that is there. -/
def ensure (q : Queue α) : Queue α where
  log := q.log
  group := some (q.group.getD .start)
  pos := q.pos
  delivered_le g hg := by
    cases hgroup : q.group with
    | none =>
      rw [hgroup] at hg
      cases hg
      exact Nat.zero_le _
    | some g' =>
      rw [hgroup] at hg
      cases hg
      exact q.delivered_le g' hgroup
  pending_le g hg p hp := by
    cases hgroup : q.group with
    | none =>
      rw [hgroup] at hg
      cases hg
      exact absurd hp List.not_mem_nil
    | some g' =>
      rw [hgroup] at hg
      cases hg
      exact q.pending_le g' hgroup p hp

/-- The entries that have not been delivered to a group. -/
def waitingFor (group : Option Group) (l : List (StreamId × α)) : List (StreamId × α) :=
  l.filter fun e => group.all fun g => g.delivered < e.1

/-- The entries that have been delivered to it, and not acknowledged. -/
def pendingFor (group : Option Group) (l : List (StreamId × α)) : List (StreamId × α) :=
  l.filter fun e => group.any fun g => g.pending.any fun p => p.1 == e.1

def waiting (q : Queue α) : List (StreamId × α) := waitingFor q.group q.log.entries

def pending (q : Queue α) : List (StreamId × α) := pendingFor q.group q.log.entries

/-- The entries that wait or are pending. -/
def unsettled (q : Queue α) : List (StreamId × α) := q.pending ++ q.waiting

variable {q : Queue α} {e : StreamId × α} {now count : Nat}

theorem mem_waiting : e ∈ q.waiting ↔ e ∈ q.log.entries ∧ ∀ g ∈ q.group, g.delivered < e.1 := by
  simp [waiting, waitingFor, Option.all_eq_true]

theorem mem_pending : e ∈ q.pending ↔ e ∈ q.log.entries ∧ ∃ g ∈ q.group, g.Pends e.1 := by
  simp only [pending, pendingFor, Group.Pends, List.mem_filter, Option.any_eq_true, List.any_eq_true, beq_iff_eq, List.mem_map,
    Option.mem_def]

theorem pending_sublist (q : Queue α) : q.pending.Sublist q.log.entries := List.filter_sublist

theorem waiting_sublist (q : Queue α) : q.waiting.Sublist q.log.entries := List.filter_sublist

theorem mem_entries_of_unsettled (h : e ∈ q.unsettled) : e ∈ q.log.entries := by
  rcases List.mem_append.mp h with h | h
  · exact q.pending_sublist.subset h
  · exact q.waiting_sublist.subset h

/-- What is pending comes before what waits. -/
theorem lt_of_pending {e' : StreamId × α} (he : e ∈ q.pending) (he' : e' ∈ q.waiting) : e.1 < e'.1 := by
  obtain ⟨-, g, hg, hpends⟩ := mem_pending.mp he
  obtain ⟨p, hp, hid⟩ := List.mem_map.mp hpends
  have hle : e.1 ≤ g.delivered := hid ▸ q.pending_le g hg p hp
  exact Nat.lt_of_le_of_lt hle ((mem_waiting.mp he').2 g hg)

/-- `XREADGROUP >`, where there is a group: the first entries that wait are delivered. -/
def deliver (q : Queue α) (now count : Nat) : Queue α where
  log := q.log
  group := q.group.map fun g => g.deliver now (q.waiting.take count)
  pos := q.pos
  delivered_le g hg := by
    obtain ⟨g', hg', rfl⟩ := Option.map_eq_some_iff.mp hg
    unfold Group.deliver
    cases hlast : (q.waiting.take count).getLast? with
    | none => exact q.delivered_le g' hg'
    | some e =>
      have hmem : e ∈ q.waiting := List.mem_of_mem_take (List.mem_of_getLast? hlast)
      exact q.log.le_last e (q.waiting_sublist.subset hmem)
  pending_le g hg p hp := by
    obtain ⟨g', hg', rfl⟩ := Option.map_eq_some_iff.mp hg
    unfold Group.deliver at hp ⊢
    have hsorted : ((q.waiting.take count).map Prod.fst).Pairwise (· < ·) :=
      q.log.ascending.sublist (((List.take_sublist _ _).trans q.waiting_sublist).map Prod.fst)
    rcases List.mem_append.mp hp with hp | hp
    · have hle : p.1 ≤ g'.delivered := q.pending_le g' hg' p hp
      cases hlast : (q.waiting.take count).getLast? with
      | none => exact hle
      | some e =>
        have hmem : e ∈ q.waiting := List.mem_of_mem_take (List.mem_of_getLast? hlast)
        exact Nat.le_of_lt (Nat.lt_of_le_of_lt hle ((mem_waiting.mp hmem).2 g' hg'))
    · obtain ⟨e, he, rfl⟩ := List.mem_map.mp hp
      obtain ⟨front, last, hfront⟩ : ∃ front last, q.waiting.take count = front ++ [last] :=
        ⟨_, _, (List.dropLast_concat_getLast (List.ne_nil_of_mem he)).symm⟩
      rw [hfront] at he hsorted ⊢
      rw [List.getLast?_append_of_ne_nil _ (List.cons_ne_nil _ _)]
      rw [List.map_append, List.pairwise_append] at hsorted
      rcases List.mem_append.mp he with he | he
      · exact Nat.le_of_lt (hsorted.2.2 e.1 (List.mem_map_of_mem he) last.1 (by simp))
      · rw [List.mem_singleton.mp he]
        exact Nat.le_refl _

/-- `XREADGROUP 0`, where there is a group: the first pending entries are given again. -/
def redeliver (q : Queue α) (now count : Nat) : Queue α where
  log := q.log
  group := q.group.map fun g =>
    { g with pending := g.pending.map fun p => (p.1, if ((q.pending.take count).map Prod.fst).contains p.1 then now else p.2) }
  pos := q.pos
  delivered_le g hg := by
    obtain ⟨g', hg', rfl⟩ := Option.map_eq_some_iff.mp hg
    exact q.delivered_le g' hg'
  pending_le g hg p hp := by
    obtain ⟨g', hg', rfl⟩ := Option.map_eq_some_iff.mp hg
    obtain ⟨p', hp', rfl⟩ := List.mem_map.mp hp
    exact q.pending_le g' hg' p' hp'

/-- `XACK`. -/
def ack (q : Queue α) (ids : List StreamId) : Queue α where
  log := q.log
  group := q.group.map (Group.ack · ids)
  pos := q.pos
  delivered_le g hg := by
    obtain ⟨g', hg', rfl⟩ := Option.map_eq_some_iff.mp hg
    exact q.delivered_le g' hg'
  pending_le g hg p hp := by
    obtain ⟨g', hg', rfl⟩ := Option.map_eq_some_iff.mp hg
    exact q.pending_le g' hg' p (List.mem_of_mem_filter hp)

/-- `XPENDING key group - + count`: the first pending ids, each with the time since its delivery. -/
def pendingRange (q : Queue α) (now count : Nat) : List (StreamId × Nat) :=
  (q.pending.take count).filterMap fun e =>
    ((q.group.elim [] Group.pending).find? fun p => p.1 == e.1).map fun p => (p.1, now - p.2)

/-! ## What is unsettled -/

theorem ascending_pending (q : Queue α) : (q.pending.map Prod.fst).Pairwise (· < ·) :=
  q.log.ascending.sublist (q.pending_sublist.map Prod.fst)

theorem ascending_waiting (q : Queue α) : (q.waiting.map Prod.fst).Pairwise (· < ·) :=
  q.log.ascending.sublist (q.waiting_sublist.map Prod.fst)

theorem ascending_unsettled (q : Queue α) : (q.unsettled.map Prod.fst).Pairwise (· < ·) := by
  rw [unsettled, List.map_append, List.pairwise_append]
  refine ⟨q.ascending_pending, q.ascending_waiting, fun id hid id' hid' => ?_⟩
  obtain ⟨e, he, rfl⟩ := List.mem_map.mp hid
  obtain ⟨e', he', rfl⟩ := List.mem_map.mp hid'
  exact lt_of_pending he he'

theorem nodup_unsettled (q : Queue α) : (q.unsettled.map Prod.fst).Nodup := q.ascending_unsettled.imp Nat.ne_of_lt

/-- A new entry is not pending. -/
theorem pending_add (now : Nat) (a : α) : (q.add now a).pending = q.pending := by
  have hnone : pendingFor q.group [(q.log.next now, a)] = [] := by
    refine List.filter_eq_nil_iff.mpr fun e he => ?_
    rw [List.mem_singleton.mp he]
    simp only [Option.any_eq_true, List.any_eq_true, beq_iff_eq, not_exists, not_and]
    rintro g hg p hp hid
    have hle : q.log.next now ≤ q.log.last := hid ▸ (q.pending_le g hg p hp).trans (q.delivered_le g hg)
    exact Nat.not_lt.mpr hle (q.log.last_lt_next now)
  have happend : (q.add now a).pending = q.pending ++ pendingFor q.group [(q.log.next now, a)] :=
    List.filter_append ..
  rw [happend, hnone, List.append_nil]

/-- It waits. -/
theorem waiting_add (now : Nat) (a : α) : (q.add now a).waiting = q.waiting ++ [(q.log.next now, a)] := by
  have hone : waitingFor q.group [(q.log.next now, a)] = [(q.log.next now, a)] := by
    refine List.filter_eq_self.mpr fun e he => ?_
    rw [List.mem_singleton.mp he]
    have hlt : ∀ g ∈ q.group, g.delivered < q.log.next now := fun g hg =>
      Nat.lt_of_le_of_lt (q.delivered_le g hg) (q.log.last_lt_next now)
    simpa [Option.all_eq_true] using hlt
  have happend : (q.add now a).waiting = q.waiting ++ waitingFor q.group [(q.log.next now, a)] :=
    List.filter_append ..
  rw [happend, hone]

theorem unsettled_add (now : Nat) (a : α) : (q.add now a).unsettled = q.unsettled ++ [(q.log.next now, a)] := by
  rw [unsettled, pending_add, waiting_add, ← List.append_assoc]
  rfl

/-- A new group has nothing pending. -/
theorem pending_ensure : q.ensure.pending = q.pending := by
  have hensure : q.ensure.pending = pendingFor (some (q.group.getD .start)) q.log.entries := rfl
  rw [hensure, pending]
  cases q.group with
  | none => simp [pendingFor, Group.start]
  | some g => rfl

/-- It has everything to read. -/
theorem waiting_ensure : q.ensure.waiting = q.waiting := by
  have hensure : q.ensure.waiting = waitingFor (some (q.group.getD .start)) q.log.entries := rfl
  rw [hensure, waiting]
  cases q.group with
  | none =>
    have hall : q.log.entries.filter (fun e => (0 : Nat) < e.1) = q.log.entries :=
      List.filter_eq_self.mpr fun e he => by simpa using q.pos e he
    simpa [waitingFor, Group.start] using hall
  | some g => rfl

theorem unsettled_ensure : q.ensure.unsettled = q.unsettled := by
  rw [unsettled, pending_ensure, waiting_ensure]
  rfl

/-- What is pending stays so when it is read again. -/
theorem pending_redeliver : (q.redeliver now count).pending = q.pending := by
  unfold pending pendingFor
  refine List.filter_congr fun e _ => ?_
  unfold redeliver
  dsimp only
  rw [Option.any_map]
  simp [List.any_map, Function.comp_def]

theorem waiting_redeliver : (q.redeliver now count).waiting = q.waiting := by
  unfold waiting waitingFor
  refine List.filter_congr fun e _ => ?_
  unfold redeliver
  dsimp only
  rw [Option.all_map]

theorem unsettled_redeliver : (q.redeliver now count).unsettled = q.unsettled := by
  rw [unsettled, pending_redeliver, waiting_redeliver]
  rfl

/-- What is delivered is pending from then on. -/
theorem pending_deliver (h : q.group.isSome) :
    (q.deliver now count).pending = q.pending ++ q.waiting.take count := by
  obtain ⟨g, hg⟩ := Option.isSome_iff_exists.mp h
  have hsub : (q.waiting.take count).Sublist q.log.entries := (List.take_sublist _ _).trans q.waiting_sublist
  have hbatch := filter_of_sublist q.log.nodup_ids hsub
  have hsplit := filter_below_or_above (p := fun e => g.pending.any fun p => p.1 == e.1)
    (q := fun e => ((q.waiting.take count).map Prod.fst).contains e.1) (t := g.delivered) q.log.ascending
    (fun e _ hp => by
      obtain ⟨p, hp, hid⟩ := List.any_eq_true.mp hp
      exact (beq_iff_eq.mp hid) ▸ q.pending_le g hg p hp)
    (fun e _ hq => by
      obtain ⟨e', he', hid⟩ := List.mem_map.mp (List.contains_iff_mem.mp hq)
      exact hid ▸ (mem_waiting.mp (List.mem_of_mem_take he')).2 g hg)
  have hpending : q.pending = q.log.entries.filter fun e => g.pending.any fun p => p.1 == e.1 := by
    unfold pending
    rw [hg]
    rfl
  have hdeliver : (q.deliver now count).pending =
      pendingFor (some (g.deliver now (q.waiting.take count))) q.log.entries := by
    unfold pending deliver
    dsimp only
    rw [hg]
    rfl
  rw [hbatch, ← hpending] at hsplit
  rw [hdeliver, ← hsplit]
  refine List.filter_congr fun e _ => ?_
  simp only [Option.any_some, Group.deliver, List.any_append, List.any_map, List.contains_eq_any_beq,
    Function.comp_def, BEq.comm]

theorem waiting_deliver (h : q.group.isSome) : (q.deliver now count).waiting = q.waiting.drop count := by
  obtain ⟨g, hg⟩ := Option.isSome_iff_exists.mp h
  have hwaiting : q.waiting = q.log.after g.delivered := by
    unfold waiting
    rw [hg]
    rfl
  have hdeliver : (q.deliver now count).waiting =
      waitingFor (q.group.map fun g => g.deliver now (q.waiting.take count)) q.log.entries := rfl
  rw [hdeliver, hwaiting, hg]
  exact g.after_deliver q.log now count

theorem unsettled_deliver (h : q.group.isSome) : (q.deliver now count).unsettled = q.unsettled := by
  rw [unsettled, pending_deliver h, waiting_deliver h, List.append_assoc, List.take_append_drop]
  rfl

theorem pending_ack (ids : List StreamId) : (q.ack ids).pending = q.pending.filter fun e => !ids.contains e.1 := by
  have hack : (q.ack ids).pending = pendingFor (q.group.map (Group.ack · ids)) q.log.entries := rfl
  rw [hack, pending, pendingFor, pendingFor, List.filter_filter]
  refine List.filter_congr fun e _ => ?_
  cases q.group with
  | none => simp
  | some g =>
    rw [Bool.eq_iff_iff]
    simp only [Option.map_some, Option.any_some, List.any_eq_true, Group.ack, List.mem_filter, beq_iff_eq,
      Bool.and_eq_true, Bool.not_eq_true', List.contains_eq_mem, decide_eq_false_iff_not]
    constructor
    · rintro ⟨p, ⟨hp, hids⟩, hid⟩
      exact ⟨hid ▸ hids, p, hp, hid⟩
    · rintro ⟨hids, p, hp, hid⟩
      exact ⟨p, ⟨hp, hid ▸ hids⟩, hid⟩

theorem waiting_ack (ids : List StreamId) : (q.ack ids).waiting = q.waiting := by
  have hack : (q.ack ids).waiting = waitingFor (q.group.map (Group.ack · ids)) q.log.entries := rfl
  rw [hack, waiting]
  cases q.group with
  | none => rfl
  | some g => rfl

/-- An acknowledgement settles what is pending of the ids. -/
theorem mem_unsettled_ack {ids : List StreamId} :
    e ∈ (q.ack ids).unsettled ↔ e ∈ q.waiting ∨ e ∈ q.pending ∧ e.1 ∉ ids := by
  rw [unsettled, pending_ack, waiting_ack, List.mem_append, List.mem_filter, or_comm]
  simp

/-! ## A consumer on its own -/

/-- The queue when the first `count` pending entries and then new ones have been read, `count` in all, and been
acknowledged. -/
def drain (q : Queue α) (now₁ now₂ count : Nat) : Queue α :=
  ((q.redeliver now₁ count).deliver now₂ (count - (q.pending.take count).length)).ack
    ((q.unsettled.take count).map Prod.fst)

/-- What is read: the first of what is pending, and then of what waits. -/
theorem take_unsettled (q : Queue α) (count : Nat) :
    q.unsettled.take count = q.pending.take count ++ q.waiting.take (count - (q.pending.take count).length) := by
  rw [unsettled, List.take_append, List.length_take]
  congr 2
  omega

/-- **The first of the unsettled entries are taken.** -/
theorem unsettled_drain {now₁ now₂ : Nat} (h : q.group.isSome) :
    (q.drain now₁ now₂ count).unsettled = q.unsettled.drop count := by
  have hsome : (q.redeliver now₁ count).group.isSome := by
    unfold redeliver
    rwa [Option.isSome_map]
  have hpending : (q.drain now₁ now₂ count).pending =
      (q.pending ++ q.waiting.take (count - (q.pending.take count).length)).filter
        fun e => !((q.unsettled.take count).map Prod.fst).contains e.1 := by
    unfold drain
    rw [pending_ack, pending_deliver hsome, pending_redeliver, waiting_redeliver]
  have hwaiting : (q.drain now₁ now₂ count).waiting = q.waiting.drop (count - (q.pending.take count).length) := by
    unfold drain
    rw [waiting_ack, waiting_deliver hsome, waiting_redeliver]
  have hlater : (q.waiting.drop (count - (q.pending.take count).length)).filter
      (fun e => !((q.unsettled.take count).map Prod.fst).contains e.1) =
        q.waiting.drop (count - (q.pending.take count).length) := by
    refine List.filter_eq_self.mpr fun e he => ?_
    have hdrop : e ∈ q.unsettled.drop count := by
      have hk : count - (q.pending.take count).length = count - q.pending.length := by
        rw [List.length_take]
        omega
      rw [unsettled, List.drop_append, ← hk]
      exact List.mem_append_right _ he
    simpa using not_mem_take q.nodup_unsettled hdrop
  rw [unsettled, hpending, hwaiting, ← hlater, ← List.filter_append, List.append_assoc, List.take_append_drop]
  exact filter_take q.nodup_unsettled

end Queue

end ClaudeSwarm.Redis
