import Mathlib.Data.List.Sort

/-!
# The first element of a kind

`First before p l x` says that `x` is an element of `l` with `p`, and `before` all of these. It does
not depend on the order of `l` (`First.congr`).

* `First.of_find?`: the first match in a list sorted by `before` is first in that sense, and
  `first_insertionSort` for a list that is sorted first.
* `pairwise_insertionSort_stable`: sorting by one relation what is sorted by another one sorts it
  lexicographically.
* `filter_insertionSort`: to leave elements out before sorting is to leave them out after it.
-/

namespace ClaudeSwarm.Data

variable {α : Type} {before : α → α → Prop} {p : α → Prop} {l : List α} {x : α}

/-- `x` is an element of `l` with `p`, and `before` all of these. -/
structure First (before : α → α → Prop) (p : α → Prop) (l : List α) (x : α) : Prop where
  mem : x ∈ l
  holds : p x
  le : ∀ y ∈ l, p y → before x y

theorem First.congr {l' : List α} (hl : ∀ y, y ∈ l ↔ y ∈ l') (h : First before p l x) :
    First before p l' x :=
  ⟨(hl x).mp h.mem, h.holds, fun y hy => h.le y ((hl y).mpr hy)⟩

/-- What is first in a list sorted so far, and after elements without `p`. -/
theorem First.of_append {a b : List α} (hs : (a ++ x :: b).Pairwise before)
    (hrefl : before x x) (ha : ∀ y ∈ a, ¬ p y) (hx : p x) : First before p (a ++ x :: b) x := by
  refine ⟨List.mem_append_right a List.mem_cons_self, hx, fun y hy hpy => ?_⟩
  rcases List.mem_append.mp hy with hy | hy
  · exact absurd hpy (ha y hy)
  · rcases List.mem_cons.mp hy with rfl | hy
    · exact hrefl
    · exact (List.pairwise_cons.mp (List.pairwise_append.mp hs).2.1).1 y hy

/-- The first match in a sorted list. -/
theorem First.of_find? {p : α → Bool} (hs : l.Pairwise before) (hrefl : ∀ x, before x x)
    (h : l.find? p = some x) : First before (fun x => p x = true) l x := by
  obtain ⟨hx, a, b, rfl, ha⟩ := List.find?_eq_some_iff_append.mp h
  refine First.of_append hs (hrefl x) (fun y hy => ?_) hx
  simpa using ha y hy

section Sorting

variable {r : α → α → Prop} [DecidableRel r] [Std.Total r] [IsTrans α r]

/-- The first match in a list that was sorted. -/
theorem first_insertionSort {p : α → Bool} (h : (l.insertionSort r).find? p = some x) :
    First r (fun x => p x = true) l x := by
  have hs : (l.insertionSort r).Pairwise r := List.pairwise_insertionSort r l
  have hrefl : ∀ x : α, r x x := fun x => (Std.Total.total x x).elim (fun h => h) fun h => h
  exact (First.of_find? hs hrefl h).congr fun y => List.mem_insertionSort r

/-- Inserting an element into a sorted list of elements it precedes by `s`. -/
theorem pairwise_orderedInsert_stable {s : α → α → Prop} {a : α} : ∀ {l : List α},
    (∀ b ∈ l, s a b) → l.Pairwise (fun a b => r a b ∧ (r b a → s a b)) →
      (l.orderedInsert r a).Pairwise fun a b => r a b ∧ (r b a → s a b)
  | [], _, _ => List.pairwise_singleton _ a
  | b :: l, ha, hl => by
    obtain ⟨hb, hl'⟩ := List.pairwise_cons.mp hl
    by_cases hab : r a b
    · rw [List.orderedInsert_cons_of_le r l hab]
      refine List.pairwise_cons.mpr ⟨fun c hc => ⟨?_, fun _ => ha c hc⟩, hl⟩
      rcases List.mem_cons.mp hc with rfl | hc
      · exact hab
      · exact IsTrans.trans _ _ _ hab (hb c hc).1
    · rw [List.orderedInsert_of_not_le r l hab]
      have hba : r b a := (Std.Total.total a b).resolve_left hab
      refine List.pairwise_cons.mpr ⟨fun c hc => ?_,
        pairwise_orderedInsert_stable (fun c hc => ha c (List.mem_cons_of_mem b hc)) hl'⟩
      rcases (List.mem_orderedInsert r).mp hc with rfl | hc
      · exact ⟨hba, fun h => absurd h hab⟩
      · exact hb c hc

/-- **Stability.** What is sorted by `s` and then by `r` is sorted by `r`, and among equals by `s`. -/
theorem pairwise_insertionSort_stable {s : α → α → Prop} : ∀ {l : List α}, l.Pairwise s →
    (l.insertionSort r).Pairwise fun a b => r a b ∧ (r b a → s a b)
  | [], _ => List.Pairwise.nil
  | a :: l, h => by
    obtain ⟨ha, hl⟩ := List.pairwise_cons.mp h
    rw [List.insertionSort_cons]
    exact pairwise_orderedInsert_stable (fun b hb => ha b ((List.mem_insertionSort r).mp hb))
      (pairwise_insertionSort_stable hl)

omit [Std.Total r] in
theorem filter_orderedInsert {p : α → Bool} {a : α} : ∀ {l : List α}, l.Pairwise r →
    (l.orderedInsert r a).filter p = if p a then (l.filter p).orderedInsert r a else l.filter p
  | [], _ => by
    by_cases ha : p a <;> simp [ha]
  | b :: l, h => by
    obtain ⟨hb, hl⟩ := List.pairwise_cons.mp h
    by_cases hab : r a b
    · rw [List.orderedInsert_cons_of_le r l hab, List.filter_cons]
      split
      · -- `a` is before all that is left
        cases hleft : (b :: l).filter p with
        | nil => rfl
        | cons c rest =>
          have hc : c ∈ b :: l := List.mem_of_mem_filter (hleft ▸ List.mem_cons_self)
          have hac : r a c := by
            rcases List.mem_cons.mp hc with rfl | hc
            · exact hab
            · exact IsTrans.trans _ _ _ hab (hb c hc)
          rw [List.orderedInsert_cons_of_le r rest hac]
      · rfl
    · rw [List.orderedInsert_of_not_le r l hab]
      by_cases hpb : p b
      · rw [List.filter_cons_of_pos hpb, List.filter_cons_of_pos hpb, filter_orderedInsert hl]
        split
        · rw [List.orderedInsert_of_not_le r _ hab]
        · rfl
      · rw [List.filter_cons_of_neg hpb, List.filter_cons_of_neg hpb, filter_orderedInsert hl]

/-- Sorting what is left of a list. -/
theorem filter_insertionSort {p : α → Bool} : ∀ l : List α,
    (l.insertionSort r).filter p = (l.filter p).insertionSort r
  | [] => rfl
  | a :: l => by
    rw [List.insertionSort_cons, filter_orderedInsert (List.pairwise_insertionSort r l), filter_insertionSort l,
      List.filter_cons]
    split
    · rw [List.insertionSort_cons]
    · rfl

end Sorting

end ClaudeSwarm.Data
