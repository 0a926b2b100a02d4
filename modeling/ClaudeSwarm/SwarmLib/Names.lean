import ClaudeSwarm.SwarmLib.Tasks

/-!
# Task ids

The ids `create_task` and `decompose_task` give, and the number `_next_task_id` reads in an id.

* `idNumber_taskName`: the number in `task-<n>` is `n`.
* `idNumber_subtaskId`: a subtask has its parent's number, or none.
* `taskName_ne_subtaskId`: no id is given by both.
* `le_maxNumber`: the scan finds the greatest number.
-/

namespace ClaudeSwarm.SwarmLib

/-- The digits of `task-<n>`. -/
def taskDigits (n : Nat) : List Char :=
  List.replicate (3 - (toString n).length) '0' ++ Nat.toDigits 10 n

theorem isDigit_taskDigits {n : Nat} {c : Char} (h : c ∈ taskDigits n) : c.isDigit = true := by
  rw [taskDigits, List.mem_append] at h
  rcases h with h | h
  · rw [List.eq_of_mem_replicate h]
    decide
  · exact Nat.isDigit_of_mem_toDigits (by decide) (by decide) h

theorem taskDigits_ne_nil (n : Nat) : taskDigits n ≠ [] := by
  intro h
  have hn : Nat.toDigits 10 n = [] := (List.append_eq_nil_iff.mp h).2
  have hrepr : n.repr = "" := by rw [Nat.repr_eq_ofList_toDigits, hn]
  exact Nat.repr_ne_empty hrepr

theorem toList_taskName (n : Nat) : (taskName n).toList = "task".toList ++ '-' :: taskDigits n := by
  have hn : (toString n).toList = Nat.toDigits 10 n := Nat.toList_repr
  rw [taskName, String.toList_append, String.toList_append, String.toList_ofList, hn, taskDigits]
  simp

theorem digits_taskDigits (n : Nat) : Python.digits (taskDigits n) = some n := by
  have hall : (taskDigits n).all Char.isDigit = true :=
    List.all_eq_true.mpr fun c hc => isDigit_taskDigits hc
  rw [Python.digits, if_pos ⟨taskDigits_ne_nil n, hall⟩, taskDigits, Nat.ofDigitChars_append,
    Nat.ofDigitChars_replicate_zero, Nat.mul_zero, Nat.ofDigitChars_ten_toDigits]

/-- `int` of digits. -/
theorem int_of_digits {ds : List Char} (h : ∀ c ∈ ds, c.isDigit = true) :
    Python.int (.ofList ds) = (Python.digits ds).map fun n : Nat => (n : Int) := by
  unfold Python.int
  rw [String.toList_ofList, Python.strip_eq_self fun c hc => Python.isSpace_of_isDigit (h c hc)]
  split
  · rename_i rest
    exact absurd (h '-' List.mem_cons_self) (by decide)
  · rename_i rest
    exact absurd (h '+' List.mem_cons_self) (by decide)
  · rfl

/-- **The number in a task name.** -/
theorem idNumber_taskName (n : Nat) : idNumber (taskName n) = some n := by
  have hdash : '-' ∉ taskDigits n := fun h => absurd (isDigit_taskDigits h) (by decide)
  rw [idNumber, toList_taskName, List.splitOn_append_cons_self, List.splitOn_eq_singleton hdash,
    List.splitOn_eq_singleton (by decide)]
  simp only [List.singleton_append, List.getElem?_cons_succ, List.getElem?_cons_zero,
    Option.bind_some]
  rw [int_of_digits fun c hc => isDigit_taskDigits hc, digits_taskDigits]
  rfl

/-! ## Subtasks -/

/-- The letter of subtask `i`. -/
def letter (i : Nat) : Char := .ofNat (97 + i)

theorem toList_subtaskId (t : String) (i : Nat) :
    (subtaskId t i).toList = t.toList ++ '-' :: [letter i] := by
  rw [subtaskId, String.toList_append, String.toList_append]
  simp [letter]

theorem letter_toNat (i : Nat) : (letter i).toNat = 97 + i ∨ (letter i).toNat = 0 := by
  by_cases hvalid : (97 + i).isValidChar
  · left
    rw [letter, Char.ofNat, dif_pos hvalid]
    rfl
  · right
    rw [letter, Char.ofNat, dif_neg hvalid]
    rfl

theorem isDigit_letter (i : Nat) : (letter i).isDigit = false := by
  have h := letter_toNat i
  have hdigit : (letter i).isDigit = true → 48 ≤ (letter i).toNat ∧ (letter i).toNat ≤ 57 := by
    intro hd
    simpa [Char.isDigit, UInt32.le_iff_toNat_le] using hd
  by_contra hne
  have := hdigit (by simpa using hne)
  omega

/-- No id is given both to a task and to a subtask. -/
theorem taskName_ne_subtaskId (n : Nat) (t : String) (i : Nat) : taskName n ≠ subtaskId t i := by
  intro h
  have hlist := congrArg String.toList h
  rw [toList_taskName, toList_subtaskId] at hlist
  have hdigits : (taskDigits n).getLast? = some (letter i) := by
    have hlast := congrArg List.getLast? hlist
    rwa [List.append_cons "task".toList '-' (taskDigits n), List.append_cons t.toList '-' [letter i],
      List.getLast?_append_of_ne_nil _ (taskDigits_ne_nil n),
      List.getLast?_append_of_ne_nil _ (List.cons_ne_nil _ _)] at hlast
  have hmem : letter i ∈ taskDigits n := List.mem_of_getLast? hdigits
  exact Bool.false_ne_true ((isDigit_letter i).symm.trans (isDigit_taskDigits hmem))

theorem strip_subset (s : List Char) : Python.strip s ⊆ s := by
  intro c hc
  have h₁ : c ∈ (s.dropWhile Python.isSpace).reverse :=
    (List.dropWhile_sublist _).subset (List.mem_reverse.mp hc)
  exact (List.dropWhile_sublist _).subset (List.mem_reverse.mp h₁)

/-- `int` of a letter. -/
theorem int_letter (i : Nat) : Python.int (.ofList [letter i]) = none := by
  have hletter : ∀ c ∈ Python.strip [letter i], c = letter i :=
    fun c hc => List.mem_singleton.mp (strip_subset _ hc)
  have hne : ∀ c : Char, c.toNat = 43 ∨ c.toNat = 45 → c ≠ letter i := by
    rintro c hc rfl
    have := letter_toNat i
    omega
  have hdigits : ∀ ds, (∀ c ∈ ds, c = letter i) → Python.digits ds = none := by
    intro ds hds
    rw [Python.digits, if_neg]
    rintro ⟨hnil, hall⟩
    obtain ⟨c, rest, rfl⟩ := List.exists_cons_of_ne_nil hnil
    have hc := List.all_eq_true.mp hall c List.mem_cons_self
    rw [hds c List.mem_cons_self] at hc
    exact Bool.false_ne_true ((isDigit_letter i).symm.trans hc)
  unfold Python.int
  rw [String.toList_ofList]
  split
  · rename_i ds hs
    exact absurd (hletter '-' (hs ▸ List.mem_cons_self)) (hne _ (Or.inr rfl))
  · rename_i ds hs
    exact absurd (hletter '+' (hs ▸ List.mem_cons_self)) (hne _ (Or.inl rfl))
  · rw [hdigits _ hletter]
    rfl

/-- **A subtask has its parent's number, or none.** -/
theorem idNumber_subtaskId (t : String) (i : Nat) :
    idNumber (subtaskId t i) = idNumber t ∨ idNumber (subtaskId t i) = none := by
  have hdash : '-' ∉ [letter i] := by
    rw [List.mem_singleton]
    intro h
    have := letter_toNat i
    rw [← h] at this
    simp at this
    omega
  unfold idNumber
  rw [toList_subtaskId, List.splitOn_append_cons_self, List.splitOn_eq_singleton hdash]
  by_cases hlen : 1 < (t.toList.splitOn '-').length
  · exact Or.inl (by rw [List.getElem?_append_left hlen])
  · right
    have hone : (t.toList.splitOn '-').length = 1 := by
      have := List.length_pos_iff.mpr (List.splitOn_ne_nil '-' t.toList)
      omega
    rw [List.getElem?_append_right (by omega), hone]
    exact int_letter i

/-! ## The greatest number -/

/-- `_next_task_id` keeps the greatest number it has seen. -/
theorem le_maxNumber {k : Int} : ∀ {ids : List String} {m : Int},
    (k ≤ m ∨ ∃ id ∈ ids, idNumber id = some k) → k ≤ maxNumber m ids
  | [], _, h => h.elim (fun h => h) fun ⟨_, hid, _⟩ => absurd hid List.not_mem_nil
  | id :: ids, m, h => by
    have hstep : k ≤ (idNumber id).elim m (max m) ∨ ∃ id ∈ ids, idNumber id = some k := by
      rcases h with h | ⟨id', hid, hk⟩
      · left
        cases idNumber id with
        | none => exact h
        | some j => exact h.trans (le_max_left m j)
      · rcases List.mem_cons.mp hid with rfl | hid
        · left
          rw [hk]
          exact le_max_right m k
        · exact Or.inr ⟨id', hid, hk⟩
    show k ≤ maxNumber ((idNumber id).elim m (max m)) ids
    exact le_maxNumber hstep

end ClaudeSwarm.SwarmLib
