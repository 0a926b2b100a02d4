import Mathlib.Algebra.Group.Nat.Defs
import Mathlib.Data.List.Nodup
import Mathlib.Order.Lattice

/-!
# Streams and consumer groups

A stream of a Redis server (`Log`) and a consumer group of it with one consumer (`Group`). The id of
an entry, `ms-seq` on the wire, is the number `ms * 2 ^ 64 + seq`: ids are compared, and carried
over, as such numbers. Entries come in the order of their ids, and an id is given out once.

* `mem_add`, `mem_keep`: the entries after `XADD` and after a deletion or a trim.
* `after_add`, `after_of_append`: what is after an id, when an entry is added and when some are read.
* `after_deliver`: what is still to be delivered to a group.
-/

namespace ClaudeSwarm.Redis

/-- The id of an entry. -/
abbrev StreamId := Nat

namespace StreamId

/-- The milliseconds of an id. -/
def ms (id : StreamId) : Nat := id / 2 ^ 64

/-- The first id of a millisecond. -/
def ofMs (ms : Nat) : StreamId := ms * 2 ^ 64

/-- `ms-seq`. -/
def text (id : StreamId) : String := toString id.ms ++ "-" ++ toString (id % 2 ^ 64)

end StreamId

/-- A stream: its entries, and the last id that was given out. -/
structure Log (α : Type) where
  entries : List (StreamId × α)
  last : StreamId
  ascending : (entries.map Prod.fst).Pairwise (· < ·)
  le_last : ∀ e ∈ entries, e.1 ≤ last

namespace Log

variable {α : Type}

/-- No entry yet. -/
def empty : Log α := ⟨[], 0, .nil, fun _ he => absurd he List.not_mem_nil⟩

/-- The id that `*` stands for at a time, in milliseconds. -/
def next (l : Log α) (now : Nat) : StreamId := max (StreamId.ofMs now) (l.last + 1)

theorem last_lt_next (l : Log α) (now : Nat) : l.last < l.next now :=
  Nat.lt_of_lt_of_le (Nat.lt_succ_self _) (Nat.le_max_right _ _)

/-- `XADD key *`. -/
def add (l : Log α) (now : Nat) (a : α) : Log α where
  entries := l.entries ++ [(l.next now, a)]
  last := l.next now
  ascending := by
    rw [List.map_append, List.pairwise_append]
    refine ⟨l.ascending, List.pairwise_singleton _ _, fun id hid id' hid' => ?_⟩
    obtain ⟨e, he, rfl⟩ := List.mem_map.mp hid
    rw [List.map_cons, List.map_nil, List.mem_singleton] at hid'
    exact hid' ▸ Nat.lt_of_le_of_lt (l.le_last e he) (l.last_lt_next now)
  le_last := by
    intro e he
    rw [List.mem_append, List.mem_singleton] at he
    rcases he with he | rfl
    · exact Nat.le_of_lt (Nat.lt_of_le_of_lt (l.le_last e he) (l.last_lt_next now))
    · exact Nat.le_refl _

/-- Only some entries are left. -/
def keep (l : Log α) (p : StreamId × α → Bool) : Log α where
  entries := l.entries.filter p
  last := l.last
  ascending := l.ascending.sublist (List.filter_sublist.map Prod.fst)
  le_last e he := l.le_last e (List.mem_of_mem_filter he)

/-- `XDEL`. -/
def del (l : Log α) (ids : List StreamId) : Log α := l.keep fun e => !ids.contains e.1

/-- The oldest entries are trimmed. -/
def trim (l : Log α) (k : Nat) : Log α where
  entries := l.entries.drop k
  last := l.last
  ascending := l.ascending.sublist ((List.drop_sublist k l.entries).map Prod.fst)
  le_last e he := l.le_last e (List.mem_of_mem_drop he)

/-- The entries after an id. -/
def after (l : Log α) (id : StreamId) : List (StreamId × α) := l.entries.filter fun e => id < e.1

/-- `XRANGE key id id`. -/
def entry? (l : Log α) (id : StreamId) : Option α := (l.entries.find? fun e => e.1 == id).map Prod.snd

/-- The ids in the stream. -/
def ids (l : Log α) : List StreamId := l.entries.map Prod.fst

variable {l : Log α} {now : Nat} {a : α} {id : StreamId} {e : StreamId × α}

theorem mem_add : e ∈ (l.add now a).entries ↔ e ∈ l.entries ∨ e = (l.next now, a) := by
  simp [add]

theorem mem_keep {p : StreamId × α → Bool} : e ∈ (l.keep p).entries ↔ e ∈ l.entries ∧ p e = true :=
  List.mem_filter

theorem nodup_ids (l : Log α) : l.ids.Nodup := l.ascending.imp Nat.ne_of_lt

/-- An id has one entry. -/
theorem eq_of_fst {e' : StreamId × α} (he : e ∈ l.entries) (he' : e' ∈ l.entries) (h : e.1 = e'.1) :
    e = e' := List.inj_on_of_nodup_map l.nodup_ids he he' h

theorem entry?_eq_some : l.entry? id = some a ↔ (id, a) ∈ l.entries := by
  unfold entry?
  constructor
  · intro h
    obtain ⟨e, he, rfl⟩ := Option.map_eq_some_iff.mp h
    have hid : (e.1 == id) = true := List.find?_some (p := fun e : StreamId × α => e.1 == id) he
    obtain rfl : e.1 = id := eq_of_beq hid
    exact List.mem_of_find?_eq_some he
  · intro h
    have hsome : (l.entries.find? fun e => e.1 == id).isSome = true :=
      List.find?_isSome.mpr ⟨(id, a), h, beq_self_eq_true id⟩
    obtain ⟨e, he⟩ := Option.isSome_iff_exists.mp hsome
    have hid : (e.1 == id) = true := List.find?_some (p := fun e : StreamId × α => e.1 == id) he
    rw [he, eq_of_fst (List.mem_of_find?_eq_some he) h (eq_of_beq hid)]
    rfl

/-- Nothing is after the last id. -/
theorem after_last : l.after l.last = [] :=
  List.filter_eq_nil_iff.mpr fun e he => by simpa using l.le_last e he

/-- What is after an id given out already, when an entry has been added. -/
theorem after_add (h : id ≤ l.last) : (l.add now a).after id = l.after id ++ [(l.next now, a)] := by
  have hlt : id < l.next now := Nat.lt_of_le_of_lt h (l.last_lt_next now)
  simp [after, add, hlt]

/-- What is after an id, when the first of it have been read. -/
theorem after_of_append {batch rest : List (StreamId × α)} (h : l.after id = batch ++ e :: rest) :
    l.after e.1 = rest := by
  have hsorted : ((l.after id).map Prod.fst).Pairwise (· < ·) :=
    l.ascending.sublist (List.filter_sublist.map Prod.fst)
  rw [h, List.map_append, List.map_cons, List.pairwise_append, List.pairwise_cons] at hsorted
  obtain ⟨-, ⟨hrest, -⟩, hbatch⟩ := hsorted
  have hid : id < e.1 := by
    have hmem : e ∈ l.after id := h ▸ List.mem_append_right _ List.mem_cons_self
    simpa using (List.mem_filter.mp hmem).2
  have hafter : l.after e.1 = (l.after id).filter fun x => e.1 < x.1 := by
    unfold after
    rw [List.filter_filter]
    refine List.filter_congr fun x _ => ?_
    rw [← Bool.decide_and, decide_eq_decide]
    exact ⟨fun hx => ⟨hx, hid.trans hx⟩, And.left⟩
  have hnone : batch.filter (fun x => e.1 < x.1) = [] :=
    List.filter_eq_nil_iff.mpr fun x hx => by
      simpa using Nat.le_of_lt (hbatch x.1 (List.mem_map_of_mem hx) e.1 List.mem_cons_self)
  have hall : rest.filter (fun x => e.1 < x.1) = rest :=
    List.filter_eq_self.mpr fun x hx => by simpa using hrest x.1 (List.mem_map_of_mem hx)
  rw [hafter, h, List.filter_append, hnone, List.filter_cons, hall]
  simp

end Log

/-- A consumer group: the last id it was given, and the entries it was given and has not acknowledged,
each with the time of its delivery. -/
structure Group where
  delivered : StreamId
  pending : List (StreamId × Nat)
  deriving DecidableEq

namespace Group

variable {α : Type}

/-- `XGROUP CREATE key group 0`. -/
def start : Group := ⟨0, []⟩

/-- The entries that `XREADGROUP >` delivers. -/
def fresh (g : Group) (l : Log α) (count : Nat) : List (StreamId × α) := (l.after g.delivered).take count

/-- The group when they are delivered. -/
def deliver (g : Group) (now : Nat) (batch : List (StreamId × α)) : Group :=
  ⟨(batch.getLast?.map Prod.fst).getD g.delivered, g.pending ++ batch.map fun e => (e.1, now)⟩

/-- `XACK`. -/
def ack (g : Group) (ids : List StreamId) : Group :=
  { g with pending := g.pending.filter fun p => !ids.contains p.1 }

/-- The entry is pending. -/
def Pends (g : Group) (id : StreamId) : Prop := id ∈ g.pending.map Prod.fst

/-- What is still to be delivered, when some of it has been. -/
theorem after_deliver (g : Group) (l : Log α) (now count : Nat) :
    l.after (g.deliver now (g.fresh l count)).delivered = (l.after g.delivered).drop count := by
  have hall := List.take_append_drop count (l.after g.delivered)
  rw [deliver, fresh]
  cases hlast : ((l.after g.delivered).take count).getLast? with
  | none =>
    rw [List.getLast?_eq_none_iff] at hlast
    rw [hlast, List.nil_append] at hall
    exact hall.symm
  | some e =>
    obtain ⟨front, hfront⟩ := List.getLast?_eq_some_iff.mp hlast
    refine @Log.after_of_append _ l g.delivered e front _ ?_
    rw [← List.singleton_append, ← List.append_assoc, ← hfront, hall]

theorem pends_ack {g : Group} {ids : List StreamId} {id : StreamId} :
    (g.ack ids).Pends id ↔ g.Pends id ∧ id ∉ ids := by
  simp only [Pends, ack, List.mem_map, List.mem_filter]
  constructor
  · rintro ⟨p, ⟨hp, hids⟩, rfl⟩
    exact ⟨⟨p, hp, rfl⟩, by simpa using hids⟩
  · rintro ⟨⟨p, hp, rfl⟩, hids⟩
    exact ⟨p, ⟨hp, by simpa using hids⟩, rfl⟩

end Group

end ClaudeSwarm.Redis
