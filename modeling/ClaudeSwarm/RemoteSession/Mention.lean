import Mathlib.Data.List.Basic
import Mathlib.Data.List.TakeWhile

/-!
# Task ids in a text

`re.search(r"(task-\d+)", text)`: the first place at which the pattern matches, and all the digits there. `\d` is any
decimal digit of Unicode, not only those of ASCII.

* **`searchTask_eq_some_iff`**: what the search finds is the first id of that form (`Mentions`).
-/

namespace ClaudeSwarm.RemoteSession

/-- The zeros of the decimal digits of Unicode; the other nine follow each. -/
def decimalZeros : List Nat :=
  [0x30, 0x660, 0x6F0, 0x7C0, 0x966, 0x9E6, 0xA66, 0xAE6, 0xB66, 0xBE6, 0xC66, 0xCE6, 0xD66, 0xDE6, 0xE50, 0xED0,
    0xF20, 0x1040, 0x1090, 0x17E0, 0x1810, 0x1946, 0x19D0, 0x1A80, 0x1A90, 0x1B50, 0x1BB0, 0x1C40, 0x1C50, 0xA620,
    0xA8D0, 0xA900, 0xA9D0, 0xA9F0, 0xAA50, 0xABF0, 0xFF10, 0x104A0, 0x10D30, 0x11066, 0x110F0, 0x11136, 0x111D0,
    0x112F0, 0x11450, 0x114D0, 0x11650, 0x116C0, 0x11730, 0x118E0, 0x11950, 0x11C50, 0x11D50, 0x11DA0, 0x11F50,
    0x16A60, 0x16AC0, 0x16B50, 0x1D7CE, 0x1D7D8, 0x1D7E2, 0x1D7EC, 0x1D7F6, 0x1E140, 0x1E2F0, 0x1E4F0, 0x1E950,
    0x1FBF0]

/-- `\d`. -/
def isDecimal (c : Char) : Bool := decimalZeros.any fun first => first ≤ c.toNat && c.toNat < first + 10

/-- `task-`. -/
def taskDash : List Char := ['t', 'a', 's', 'k', '-']

/-- The match of the pattern at the start of the text. -/
def matchTask (text : List Char) : Option (List Char) :=
  match taskDash.isPrefixOf? text with
  | none => none
  | some rest => if rest.takeWhile isDecimal = [] then none else some (taskDash ++ rest.takeWhile isDecimal)

/-- `re.search`, and the group. -/
def searchTask : List Char → Option (List Char)
  | [] => none
  | c :: text => (matchTask (c :: text)).or (searchTask text)

/-! ## The first id -/

/-- `task-` and digits. -/
def IsTaskId (id : List Char) : Prop := ∃ ds, ds ≠ [] ∧ (∀ c ∈ ds, isDecimal c = true) ∧ id = taskDash ++ ds

/-- At the start of the text there is the id, with all its digits. -/
def StartsWith (text id : List Char) : Prop :=
  IsTaskId id ∧ ∃ rest, text = id ++ rest ∧ ∀ c ∈ rest.head?, isDecimal c = false

/-- It is the first id in the text. -/
def Mentions (text id : List Char) : Prop :=
  ∃ before rest, text = before ++ rest ∧ StartsWith rest id ∧
    ∀ before' rest' id', text = before' ++ rest' → StartsWith rest' id' → before.length ≤ before'.length

variable {text id : List Char}

theorem matchTask_eq_some_iff : matchTask text = some id ↔ StartsWith text id := by
  unfold matchTask
  constructor
  · intro h
    cases hrest : taskDash.isPrefixOf? text with
    | none =>
      rw [hrest] at h
      cases h
    | some rest =>
      rw [hrest] at h
      dsimp only at h
      split at h
      · cases h
      · rename_i hne
        cases h
        refine ⟨⟨_, hne, fun c hc => List.mem_takeWhile_imp hc, rfl⟩, rest.dropWhile isDecimal, ?_, fun c hc => ?_⟩
        · rw [List.append_assoc, List.takeWhile_append_dropWhile, List.isPrefixOf?_eq_some_iff_append_eq.mp hrest]
        · have hnot := List.head?_dropWhile_not isDecimal rest
          rw [Option.mem_def.mp hc] at hnot
          exact hnot
  · rintro ⟨⟨ds, hne, hds, rfl⟩, rest, rfl, hrest⟩
    have htake : (ds ++ rest).takeWhile isDecimal = ds := by
      rw [List.takeWhile_append_of_pos hds]
      cases rest with
      | nil => simp
      | cons c rest => simp [hrest c rfl]
    rw [List.append_assoc, List.isPrefixOf?_eq_some_iff_append_eq.mpr rfl]
    dsimp only
    rw [htake, if_neg hne]

theorem startsWith_nonempty (h : StartsWith text id) : text ≠ [] := by
  obtain ⟨⟨ds, -, -, rfl⟩, rest, rfl, -⟩ := h
  simp [taskDash]

theorem startsWith_unique {id' : List Char} (h : StartsWith text id) (h' : StartsWith text id') : id = id' := by
  rw [← matchTask_eq_some_iff] at h h'
  rw [h] at h'
  exact Option.some.inj h'

/-- The search tries one place after the other. -/
theorem searchTask_eq_some_iff : searchTask text = some id ↔ Mentions text id := by
  induction text with
  | nil =>
    constructor
    · intro h
      cases h
    · rintro ⟨before, rest, hsplit, hstart, -⟩
      exact absurd (List.append_eq_nil_iff.mp hsplit.symm).2 (startsWith_nonempty hstart)
  | cons c text ih =>
    rw [searchTask]
    cases hmatch : matchTask (c :: text) with
    | some found =>
      have hfound := matchTask_eq_some_iff.mp hmatch
      rw [Option.some_or, Option.some_inj]
      constructor
      · rintro rfl
        exact ⟨[], c :: text, rfl, hfound, fun _ _ _ _ _ => Nat.zero_le _⟩
      · rintro ⟨before, rest, hsplit, hstart, hfirst⟩
        have hnil : before = [] := List.eq_nil_of_length_eq_zero (Nat.le_zero.mp (hfirst [] _ found rfl hfound))
        subst hnil
        rw [List.nil_append] at hsplit
        exact startsWith_unique hfound (hsplit ▸ hstart)
    | none =>
      have hnot : ∀ id', ¬ StartsWith (c :: text) id' := fun id' h => by
        rw [matchTask_eq_some_iff.mpr h] at hmatch
        cases hmatch
      rw [Option.none_or, ih]
      -- no match starts at `c`, so what comes before one begins with it
      constructor
      · rintro ⟨before, rest, rfl, hstart, hfirst⟩
        refine ⟨c :: before, rest, rfl, hstart, fun before' rest' id' hsplit hstart' => ?_⟩
        cases before' with
        | nil => exact absurd (hsplit ▸ hstart') (hnot id')
        | cons c' before' =>
          obtain ⟨-, hsplit⟩ := List.cons.inj hsplit
          exact Nat.succ_le_succ (hfirst before' rest' id' hsplit hstart')
      · rintro ⟨before, rest, hsplit, hstart, hfirst⟩
        cases before with
        | nil => exact absurd (hsplit ▸ hstart) (hnot id)
        | cons c' before =>
          obtain ⟨rfl, rfl⟩ := List.cons.inj hsplit
          refine ⟨before, rest, rfl, hstart, fun before' rest' id' hsplit' hstart' => ?_⟩
          exact Nat.le_of_succ_le_succ (hfirst (c :: before') rest' id' (by rw [hsplit']; rfl) hstart')

end ClaudeSwarm.RemoteSession
