import ClaudeSwarm.Python
import ClaudeSwarm.Redis.Streams

/-!
# The pages of a stream

Model of the loop in `_serialise_key` (`scripts/phase1_drain_restore.py`) that reads a stream page by page: each
`XRANGE` starts at the id of the last entry read, its sequence number raised by one. An id is passed as the text
`ms-seq`; the server reads it as two numbers, the second of 64 bits, and compares by them. The stream does not change
while it is read.

* `parseBound_text`, `nextStart_text`: the text of the bound and what the server reads.
* `turn_of_split`: what one page does where the entries before the bound have been read.
* **`pages_eq`**: the loop returns what one `XRANGE` without a count does, after at most one page for each entry and one
  more.
-/

namespace ClaudeSwarm.DrainRestore

open Redis

variable {α : Type}

/-! ## The server -/

/-- `s.split("-")`. -/
def splitDash (s : String) : List String := (s.toList.splitOn '-').map String.ofList

/-- The least id that a start of `XRANGE` admits; `none` is an invalid id. -/
def parseBound (start : String) : Option StreamId :=
  if start = "-" then some 0
  else
    match splitDash start with
    | [ms, seq] =>
      (Python.digits ms.toList).bind fun ms => (Python.digits seq.toList).bind fun seq =>
        if seq < 2 ^ 64 then some (ms * 2 ^ 64 + seq) else none
    | _ => none

/-- `XRANGE key start + [COUNT count]`. -/
def xrange (l : Log α) (start : String) (count : Option Nat) : Option (List (String × α)) :=
  (parseBound start).map fun id =>
    let entries := l.entries.filter fun e => id ≤ e.1
    (count.elim entries entries.take).map fun e => (StreamId.text e.1, e.2)

/-! ## The loop -/

/-- `ms, seq = last_id.split("-")` and `f"{ms}-{int(seq) + 1}"`; `none` is a `ValueError`. -/
def nextStart (last_id : String) : Option String :=
  match splitDash last_id with
  | [ms, seq] => (Python.int seq).map fun seq => ms ++ "-" ++ toString (seq + 1)
  | _ => none

/-- One pass of the loop: the entries so far, and the next start unless the loop breaks; `none` is an exception. -/
def turn (l : Log α) (page : Nat) (start : String) (entries : List (String × α)) :
    Option (List (String × α) × Option String) :=
  (xrange l start (some page)).bind fun batch =>
    match batch.getLast? with
    | none => some (entries, none)
    | some last =>
      if batch.length < page then some (entries ++ batch, none)
      else (nextStart last.1).map fun start => (entries ++ batch, some start)

/-- The loop, for a number of passes; `none` if it has not come to its end, or raised. -/
def pages (l : Log α) (page : Nat) : Nat → String → List (String × α) → Option (List (String × α))
  | 0, _, _ => none
  | fuel + 1, start, entries =>
    (turn l page start entries).bind fun r =>
      match r.2 with
      | none => some r.1
      | some start => pages l page fuel start r.1

/-! ## Ids as texts -/

theorem dash_not_mem (n : Nat) : '-' ∉ Nat.toDigits 10 n := fun h =>
  absurd (Nat.isDigit_of_mem_toDigits (by decide) (by decide) h) (by decide)

theorem splitDash_numbers (ms seq : Nat) :
    splitDash (toString ms ++ "-" ++ toString seq) = [toString ms, toString seq] := by
  have htext : (toString ms ++ "-" ++ toString seq).toList = Nat.toDigits 10 ms ++ '-' :: Nat.toDigits 10 seq := by
    rw [String.toList_append, String.toList_append, List.append_assoc]
    exact congrArg₂ (· ++ ·) Nat.toList_repr (congrArg ('-' :: ·) Nat.toList_repr)
  have hms : String.ofList (Nat.toDigits 10 ms) = toString ms := Nat.repr_eq_ofList_toDigits.symm
  have hseq : String.ofList (Nat.toDigits 10 seq) = toString seq := Nat.repr_eq_ofList_toDigits.symm
  rw [splitDash, htext, List.splitOn_append_cons_self_of_not_mem (dash_not_mem ms),
    List.splitOn_eq_singleton (dash_not_mem seq), List.map_cons, List.map_singleton, hms, hseq]

theorem digits_toString (n : Nat) : Python.digits (toString n).toList = some n :=
  (congrArg Python.digits Nat.toList_repr).trans (Python.digits_toDigits n)

/-- The server reads the two numbers. -/
theorem parseBound_numbers (ms : Nat) {seq : Nat} (h : seq < 2 ^ 64) :
    parseBound (toString ms ++ "-" ++ toString seq) = some (ms * 2 ^ 64 + seq) := by
  have hne : toString ms ++ "-" ++ toString seq ≠ "-" := by
    intro heq
    have hsplit := splitDash_numbers ms seq
    have hempty : splitDash "-" = ["", ""] := by decide
    rw [heq, hempty] at hsplit
    have hdigits := digits_toString ms
    rw [← (List.cons.inj hsplit).1] at hdigits
    have hnone : Python.digits "".toList = none := by decide
    exact absurd (hnone.symm.trans hdigits) (by simp)
  rw [parseBound, if_neg hne, splitDash_numbers]
  dsimp only
  rw [digits_toString, Option.bind_some, digits_toString, Option.bind_some, if_pos h]

theorem int_toString (n : Nat) : Python.int (toString n) = some (n : Int) := Python.int_str (Int.ofNat n)

theorem nextStart_numbers (ms seq : Nat) :
    nextStart (toString ms ++ "-" ++ toString seq) = some (toString ms ++ "-" ++ toString (seq + 1)) := by
  rw [nextStart, splitDash_numbers]
  dsimp only
  rw [int_toString]
  rfl

/-- The next start after the id of an entry is the next id. -/
theorem nextStart_text {id : Nat} (h : id % 2 ^ 64 < 2 ^ 64 - 1) :
    ∃ start, nextStart (StreamId.text id) = some start ∧ parseBound start = some (id + 1) := by
  have hnext : id / 2 ^ 64 * 2 ^ 64 + (id % 2 ^ 64 + 1) = id + 1 := by omega
  refine ⟨_, nextStart_numbers (StreamId.ms id) (id % 2 ^ 64), ?_⟩
  rw [parseBound_numbers _ (by omega), StreamId.ms]
  exact congrArg some hnext

/-! ## The pages -/

variable {l : Log α} {pre rest : List (StreamId × α)} {start : String} {bound : StreamId} {page : Nat}

/-- An entry as it is read. -/
def asRead (e : StreamId × α) : String × α := (e.1.text, e.2)

/-- What an `XRANGE` reads where the entries before the bound are known. -/
theorem xrange_of_split (hsplit : l.entries = pre ++ rest) (hbound : parseBound start = some bound)
    (hpre : ∀ e ∈ pre, e.1 < bound) (hrest : ∀ e ∈ rest, bound ≤ e.1) (count : Option Nat) :
    xrange l start count = some ((count.elim rest rest.take).map asRead) := by
  have hfilter : (l.entries.filter fun e => bound ≤ e.1) = rest := by
    have hnone : (pre.filter fun e => bound ≤ e.1) = [] :=
      List.filter_eq_nil_iff.mpr fun e he => by simpa using hpre e he
    have hall : (rest.filter fun e => bound ≤ e.1) = rest :=
      List.filter_eq_self.mpr fun e he => by simpa using hrest e he
    rw [hsplit, List.filter_append, hnone, hall, List.nil_append]
  rw [xrange, hbound, Option.map_some]
  dsimp only
  rw [hfilter]
  rfl

/-- **One pass, where the entries before the bound have been read:** it reads the rest and the loop breaks, or it reads
some more entries and goes on after the last of them. -/
theorem turn_of_split (hsplit : l.entries = pre ++ rest) (hbound : parseBound start = some bound)
    (hpre : ∀ e ∈ pre, e.1 < bound) (hrest : ∀ e ∈ rest, bound ≤ e.1)
    (hseq : ∀ id ∈ l.ids, id % 2 ^ 64 < 2 ^ 64 - 1) (hpage : 1 ≤ page) :
    turn l page start (pre.map asRead) = some (l.entries.map asRead, none) ∨
    ∃ batch rest' next next_bound, rest = batch ++ rest' ∧ batch ≠ [] ∧
      turn l page start (pre.map asRead) = some ((pre ++ batch).map asRead, some next) ∧
      parseBound next = some next_bound ∧ (∀ e ∈ pre ++ batch, e.1 < next_bound) ∧ ∀ e ∈ rest', next_bound ≤ e.1 := by
  have hread := xrange_of_split hsplit hbound hpre hrest (some page)
  by_cases hshort : rest.length < page
  · -- the page is not full: it holds all that is left
    left
    have htake : rest.take page = rest := List.take_of_length_le hshort.le
    rw [turn, hread, Option.bind_some, Option.elim_some, htake, hsplit, List.map_append]
    rcases List.eq_nil_or_concat' rest with rfl | ⟨init, last, rfl⟩
    · simp
    · have hlen : (List.map asRead (init ++ [last])).length < page := by rwa [List.length_map]
      rw [List.map_append, List.map_singleton, List.getLast?_concat]
      dsimp only
      rw [List.map_append, List.map_singleton] at hlen
      rw [if_pos hlen]
  · right
    have hlen : (rest.take page).length = page := by rw [List.length_take]; omega
    have hrest' : rest = rest.take page ++ rest.drop page := (List.take_append_drop page rest).symm
    obtain ⟨init, last, hbatch⟩ : ∃ init last, rest.take page = init ++ [last] := by
      rcases List.eq_nil_or_concat' (rest.take page) with hnil | ⟨init, last, h⟩
      · rw [hnil, List.length_nil] at hlen
        omega
      · exact ⟨init, last, h⟩
    have hentries : l.entries = (pre ++ init) ++ last :: rest.drop page := by
      rw [hsplit, List.append_assoc, ← List.singleton_append, ← List.append_assoc init, ← hbatch, List.take_append_drop]
    have hlast : last ∈ l.entries := hentries ▸ List.mem_append_right _ List.mem_cons_self
    have hasc := List.pairwise_map.mp l.ascending
    rw [hentries, List.pairwise_append, List.pairwise_cons] at hasc
    obtain ⟨-, ⟨hafter, -⟩, hbefore⟩ := hasc
    obtain ⟨next, hnext, hparse⟩ := nextStart_text (hseq last.1 (List.mem_map_of_mem hlast))
    refine ⟨rest.take page, rest.drop page, next, last.1 + 1, hrest', ?_, ?_, hparse, ?_, ?_⟩
    · rw [hbatch]
      simp
    · have hmap : ((rest.take page).map asRead).length = page := by rw [List.length_map, hlen]
      have hget : ((rest.take page).map asRead).getLast? = some (asRead last) := by
        rw [hbatch, List.map_append, List.map_singleton, List.getLast?_concat]
      rw [turn, hread, Option.bind_some, Option.elim_some, hget]
      dsimp only
      rw [hmap, if_neg (lt_irrefl page), asRead, hnext, Option.map_some, List.map_append]
    · intro e he
      rw [hbatch, ← List.append_assoc] at he
      rcases List.mem_append.mp he with he | he
      · exact Nat.lt_succ_of_lt (hbefore e he last List.mem_cons_self)
      · rw [List.mem_singleton.mp he]
        exact Nat.lt_succ_self _
    · exact fun e he => hafter e he

theorem pages_of_split (hseq : ∀ id ∈ l.ids, id % 2 ^ 64 < 2 ^ 64 - 1) (hpage : 1 ≤ page) :
    ∀ (fuel : Nat) {pre rest : List (StreamId × α)} {start : String} {bound : StreamId}, l.entries = pre ++ rest →
      parseBound start = some bound → (∀ e ∈ pre, e.1 < bound) → (∀ e ∈ rest, bound ≤ e.1) → rest.length < fuel →
      pages l page fuel start (pre.map asRead) = some (l.entries.map asRead)
  | fuel + 1, pre, rest, start, bound, hsplit, hbound, hpre, hrest, hfuel => by
    rw [pages]
    rcases turn_of_split hsplit hbound hpre hrest hseq hpage with
      hturn | ⟨batch, rest', next, next_bound, rfl, hne, hturn, hparse, hbefore, hafter⟩
    · rw [hturn]
      rfl
    · have hpos := List.length_pos_iff.mpr hne
      rw [List.length_append] at hfuel
      rw [hturn, Option.bind_some]
      exact pages_of_split hseq hpage fuel (by rw [hsplit, List.append_assoc]) hparse hbefore hafter (by omega)

/-- **The loop returns every entry once, in order, as one `XRANGE` without a count does.** -/
theorem pages_eq (l : Log α) (hseq : ∀ id ∈ l.ids, id % 2 ^ 64 < 2 ^ 64 - 1) {page : Nat} (hpage : 1 ≤ page) :
    xrange l "-" none = some (l.entries.map asRead) ∧
    ∀ fuel, l.entries.length < fuel → pages l page fuel "-" [] = some (l.entries.map asRead) := by
  have hbound : parseBound "-" = some 0 := if_pos rfl
  have hsplit : l.entries = [] ++ l.entries := rfl
  refine ⟨xrange_of_split hsplit hbound (by simp) (fun _ _ => Nat.zero_le _) none, fun fuel hfuel => ?_⟩
  exact pages_of_split hseq hpage fuel hsplit hbound (by simp) (fun _ _ => Nat.zero_le _) hfuel

/-- Three entries, two of them of one millisecond. -/
def threeEntries : Log String := ((Log.empty.add 5 "a").add 5 "b").add 6 "c"

/-- A page of one entry, so that every page is full. -/
theorem pages_of_three : pages threeEntries 1 4 "-" [] = some [("5-0", "a"), ("5-1", "b"), ("6-0", "c")] := by
  have hpages := pages_eq threeEntries (by decide) (le_refl 1)
  rw [hpages.2 4 (by decide)]
  decide

end ClaudeSwarm.DrainRestore
