import ClaudeSwarm.AutoDispatch.Dispatcher

/-!
# Three readers of one priority

The `priority` of a task file is read by `rerank_tasks` and `_priority_value` (`src/auto_dispatch.py`) and by
`_normalize_priority` (`src/task_queue.py`). `lower` changes ASCII letters only: what Python makes of any other
character is in none of the names. Which characters are digits, and which of them `int` reads, is Python's table
(`Digits`).

* `oneTier_iff`: the priorities on which all three agree.
* **`one_order_iff`**: where they do, the order of `rerank_tasks` is that of the queue.
* `critical_last`: what the queue serves first the dispatcher ranks last.
-/

namespace ClaudeSwarm.AutoDispatch

open Data
open Python (PyError)
open SwarmLib (Doc getStr)

/-- For each character: not a digit, a digit that `int` refuses, or the digit it is. -/
structure Digits where
  value : Char → Option (Option Nat)
  ascii : ∀ c : Char, c.toNat < 128 → value c = if c.isDigit then some (some (c.toNat - 48)) else none

/-- The table that knows ASCII only. -/
def Digits.asciiOnly : Digits where
  value c := if c.isDigit then some (some (c.toNat - 48)) else none
  ascii _ _ := rfl

/-- `_normalize_priority`. -/
def normalizePriority (D : Digits) (priority : Json) : Except PyError Int :=
  match clamped priority, priority with
  | some tier, _ => .ok tier
  | none, .str p =>
    let s := Python.strip (Python.lower p.toList)
    match s with
    | ['p', c] =>
      match D.value c with
      | some (some n) => .ok (clampPriority n)
      | some none =>
        .error (.valueError ("invalid literal for int() with base 10: '" ++ .ofList [c] ++ "'"))
      | none => .ok ((priorityMap.lookup (.ofList s)).getD 3)
    | _ => .ok ((priorityMap.lookup (.ofList s)).getD 3)
  | none, _ => .ok 3

/-- The tier in the key of `rerank_tasks`. -/
def rerankTier (priority : Json) : Int :=
  match clamped priority, priority with
  | some tier, _ => tier
  | none, .str p => (priorityOrder p).getD 5
  | none, _ => 5

/-- `task.get("priority", "P5")`. -/
def priorityOf (task : Doc) : Json := (task.lookup "priority").getD (.str "P5")

theorem sortKey_eq (task : Doc) :
    sortKey task = (rerankTier (priorityOf task), (getStr task "created_at").getD "") := rfl

/-- The three readers agree. -/
structure OneTier (D : Digits) (priority : Json) : Prop where
  queue : normalizePriority D priority = .ok (rerankTier priority)
  value : priorityValue priority = rerankTier priority

/-- `P0` to `P5`. -/
def tierCodes : List String := ["P0", "P1", "P2", "P3", "P4", "P5"]

/-- The priorities on which the readers agree: an integer; `P0` to `P5`, written so; or, in any case and between
spaces, `sandbox` or `p` and a digit from 5 on. -/
def Plain (D : Digits) : Json → Prop
  | .str p => p ∈ tierCodes ∨ Python.strip (Python.lower p.toList) = "sandbox".toList ∨
      ∃ c n, Python.strip (Python.lower p.toList) = ['p', c] ∧ D.value c = some (some n) ∧ 5 ≤ n
  | _ => True

/-- An integer or a string. -/
def Carried : Json → Prop
  | .int _ | .str _ => True
  | _ => False

/-! ## Texts -/

theorem isSpace_toLower (c : Char) : Python.isSpace c.toLower = Python.isSpace c := by
  by_cases h : c.toNat < 128
  · have hall : ∀ n < 128, Python.isSpace (Char.ofNat n).toLower = Python.isSpace (Char.ofNat n) := by decide
    have hc := hall c.toNat h
    rwa [Char.ofNat_toNat] at hc
  · have hnot : ¬ (c.val ≥ 'A'.val ∧ c.val ≤ 'Z'.val) := by
      rintro ⟨-, hz⟩
      have hz' : c.toNat ≤ 90 := UInt32.le_iff_toNat_le.mp hz
      omega
    have hlower : c.toLower = c := dif_neg hnot
    rw [hlower]

theorem strip_lower (s : List Char) : Python.strip (Python.lower s) = Python.lower (Python.strip s) := by
  have hspace : Python.isSpace ∘ Char.toLower = Python.isSpace := funext isSpace_toLower
  unfold Python.strip Python.lower
  rw [List.dropWhile_map, hspace, ← List.map_reverse, List.dropWhile_map, hspace, List.map_reverse]

theorem priorityOrder_eq_none {p : String} (h : p ∉ tierCodes) : priorityOrder p = none := by
  unfold priorityOrder
  split
  all_goals first | rfl | exact absurd (by simp [tierCodes]) h

/-- A tier code in lower case is a `p` and a digit. -/
theorem lower_of_priorityOrder {p : String} {v : Int} (h : priorityOrder p = some v) :
    ∃ c : Char, Python.lower p.toList = ['p', c] ∧ c.toNat < 128 ∧ c.isDigit = true ∧ v = (c.toNat - 48 : Nat) ∧
      v ≤ 5 := by
  unfold priorityOrder at h
  split at h
  · exact ⟨'0', by cases h; decide⟩
  · exact ⟨'1', by cases h; decide⟩
  · exact ⟨'2', by cases h; decide⟩
  · exact ⟨'3', by cases h; decide⟩
  · exact ⟨'4', by cases h; decide⟩
  · exact ⟨'5', by cases h; decide⟩
  · cases h

/-- The name of a tier is longer. -/
theorem length_of_priorityTiers {p : String} {v : Int} (h : priorityTiers p = some v) : 2 < p.toList.length := by
  unfold priorityTiers at h
  split at h
  all_goals first | cases h; decide | cases h

theorem sandbox_of_lookup {p : String} (h : (priorityMap.lookup p).getD 3 = 5) : p = "sandbox" := by
  simp only [priorityMap, List.lookup_cons, List.lookup_nil] at h
  repeat' split at h
  all_goals first | exact eq_of_beq ‹_› | cases h

/-! ## The readers -/

variable {D : Digits} {p : String}

theorem normalizePriority_digit {c : Char} {n : Nat} (hs : Python.strip (Python.lower p.toList) = ['p', c])
    (hc : D.value c = some (some n)) : normalizePriority D (.str p) = .ok (clampPriority n) := by
  simp only [normalizePriority, clamped, hs, hc]

theorem normalizePriority_refused {c : Char} (hs : Python.strip (Python.lower p.toList) = ['p', c])
    (hc : D.value c = some none) : ∀ v, normalizePriority D (.str p) ≠ .ok v := by
  intro v h
  simp only [normalizePriority, clamped, hs, hc] at h
  cases h

theorem normalizePriority_name (h : ∀ c, Python.strip (Python.lower p.toList) = ['p', c] → D.value c = none) :
    normalizePriority D (.str p) =
      .ok ((priorityMap.lookup (.ofList (Python.strip (Python.lower p.toList)))).getD 3) := by
  simp only [normalizePriority, clamped]
  split
  · rename_i c hs
    rw [h c hs]
  · rfl

/-- `_priority_value` of what is not a tier code: the tier named, or the last. -/
theorem priorityValue_name (h : priorityOrder (.ofList (Python.strip p.toList)) = none) :
    priorityValue (.str p) = (priorityTiers (.ofList (Python.strip (Python.lower p.toList)))).getD 5 := by
  simp only [priorityValue, clamped, h, Option.none_or, strip_lower]

/-- A string that is no tier code is ranked last; the other two rank it so exactly if it is plain. -/
theorem oneTier_str_iff (hp : p ∉ tierCodes) : OneTier D (.str p) ↔ Plain D (.str p) := by
  have hrank : rerankTier (.str p) = 5 := by simp [rerankTier, clamped, priorityOrder_eq_none hp]
  -- a tier code between spaces reads as its digit
  have hcode : ∀ {v}, priorityOrder (.ofList (Python.strip p.toList)) = some v → ∃ c : Char,
      Python.strip (Python.lower p.toList) = ['p', c] ∧ D.value c = some (some v.toNat) ∧ v ≤ 5 ∧ 0 ≤ v := by
    intro v hv
    obtain ⟨c, hlow, hascii, hdigit, rfl, hle⟩ := lower_of_priorityOrder hv
    rw [String.toList_ofList, ← strip_lower] at hlow
    refine ⟨c, hlow, ?_, hle, Int.natCast_nonneg _⟩
    rw [D.ascii c hascii, if_pos hdigit, Int.toNat_natCast]
  constructor
  · rintro ⟨hqueue, -⟩
    rw [hrank] at hqueue
    refine Or.inr ?_
    by_cases hdigit : ∃ c, Python.strip (Python.lower p.toList) = ['p', c] ∧ D.value c ≠ none
    · obtain ⟨c, hs, hc⟩ := hdigit
      cases hvalue : D.value c with
      | none => exact absurd hvalue hc
      | some digit =>
        cases digit with
        | none => exact absurd hqueue (normalizePriority_refused hs hvalue 5)
        | some n =>
          rw [normalizePriority_digit hs hvalue] at hqueue
          have hclamp : clampPriority n = 5 := Except.ok.inj hqueue
          unfold clampPriority at hclamp
          exact Or.inr ⟨c, n, hs, hvalue, by omega⟩
    · rw [normalizePriority_name fun c hs => by_contra fun hc => hdigit ⟨c, hs, hc⟩] at hqueue
      have hname := sandbox_of_lookup (Except.ok.inj hqueue)
      exact Or.inl (by rw [← hname, String.toList_ofList])
  · rintro (hmem | hsandbox | ⟨c, n, hs, hc, hn⟩)
    · exact absurd hmem hp
    · have hcode' : priorityOrder (.ofList (Python.strip p.toList)) = none := by
        cases hv : priorityOrder (.ofList (Python.strip p.toList)) with
        | none => rfl
        | some v =>
          obtain ⟨c, hs, -⟩ := hcode hv
          rw [hsandbox] at hs
          exact absurd hs (by simp)
      refine ⟨?_, ?_⟩
      · rw [normalizePriority_name (by rw [hsandbox]; simp), hsandbox, hrank]
        rfl
      · rw [priorityValue_name hcode', hsandbox, hrank]
        rfl
    · refine ⟨?_, ?_⟩
      · rw [normalizePriority_digit hs hc, hrank]
        unfold clampPriority
        congr 1
        omega
      · rw [hrank]
        cases hv : priorityOrder (.ofList (Python.strip p.toList)) with
        | some v =>
          obtain ⟨c', hs', hc', hle, hpos⟩ := hcode hv
          rw [hs] at hs'
          cases hs'
          have hn' : n = v.toNat := Option.some.inj (Option.some.inj (hc.symm.trans hc'))
          simp only [priorityValue, clamped, hv, Option.some_or, Option.getD_some]
          omega
        | none =>
          rw [priorityValue_name hv, hs]
          cases htier : priorityTiers (.ofList ['p', c]) with
          | none => rfl
          | some v =>
            have hlength := length_of_priorityTiers htier
            simp at hlength

theorem oneTier_code (hp : p ∈ tierCodes) : OneTier D (.str p) := by
  have hdigit : ∀ c : Char, c.toNat < 128 → c.isDigit = true → D.value c = some (some (c.toNat - 48)) :=
    fun c hascii hdigit => by rw [D.ascii c hascii, if_pos hdigit]
  simp only [tierCodes, List.mem_cons, List.not_mem_nil, or_false] at hp
  rcases hp with rfl | rfl | rfl | rfl | rfl | rfl
  · exact ⟨normalizePriority_digit (by decide) (hdigit '0' (by decide) (by decide)), by decide⟩
  · exact ⟨normalizePriority_digit (by decide) (hdigit '1' (by decide) (by decide)), by decide⟩
  · exact ⟨normalizePriority_digit (by decide) (hdigit '2' (by decide) (by decide)), by decide⟩
  · exact ⟨normalizePriority_digit (by decide) (hdigit '3' (by decide) (by decide)), by decide⟩
  · exact ⟨normalizePriority_digit (by decide) (hdigit '4' (by decide) (by decide)), by decide⟩
  · exact ⟨normalizePriority_digit (by decide) (hdigit '5' (by decide) (by decide)), by decide⟩

/-- **The readers agree** exactly on the plain priorities. -/
theorem oneTier_iff {v : Json} (hv : Carried v) : OneTier D v ↔ Plain D v := by
  cases v with
  | int i => exact ⟨fun _ => trivial, fun _ => ⟨rfl, rfl⟩⟩
  | str p =>
    by_cases hp : p ∈ tierCodes
    · exact ⟨fun _ => Or.inl hp, fun _ => oneTier_code hp⟩
    · exact oneTier_str_iff hp
  | _ => exact hv.elim

/-! ## The order -/

/-- The key of the queue: the normalised tier, then `created_at`. -/
def queueKey (D : Digits) (task : Doc) : Int × String :=
  ((normalizePriority D (priorityOf task)).toOption.getD 3, (getStr task "created_at").getD "")

/-- The order of the queue. -/
def queuedBefore (D : Digits) (a b : Doc) : Prop :=
  (queueKey D a).1 < (queueKey D b).1 ∨
    (queueKey D a).1 = (queueKey D b).1 ∧ ¬ (queueKey D b).2 < (queueKey D a).2

instance (a b : Doc) : Decidable (queuedBefore D a b) := inferInstanceAs (Decidable (_ ∨ _ ∧ ¬ _))

theorem OneTier.queueKey_eq {task : Doc} (h : OneTier D (priorityOf task)) : queueKey D task = sortKey task := by
  rw [queueKey, h.queue, sortKey_eq]
  rfl

/-- **One order.** -/
theorem one_order_iff (D : Digits) (tasks : List Doc)
    (hcarried : ∀ task ∈ tasks, ∃ v, task.lookup "priority" = some v ∧ Carried v) :
    ((∀ task ∈ tasks, OneTier D (priorityOf task)) ∧
        tasks.insertionSort before = tasks.insertionSort (queuedBefore D)) ↔
      ∀ task ∈ tasks, Plain D (priorityOf task) := by
  have hiff : ∀ task ∈ tasks, OneTier D (priorityOf task) ↔ Plain D (priorityOf task) := by
    intro task htask
    obtain ⟨v, hv, hcarried⟩ := hcarried task htask
    rw [priorityOf, hv]
    exact oneTier_iff hcarried
  constructor
  · exact fun h task htask => (hiff task htask).mp (h.1 task htask)
  · intro h
    have hone := fun task htask => (hiff task htask).mpr (h task htask)
    refine ⟨hone, ?_⟩
    have hsort := List.map_insertionSort (r := before) (s := queuedBefore D) id tasks fun a ha b hb => by
      rw [before, queuedBefore, id, id, (hone a ha).queueKey_eq, (hone b hb).queueKey_eq]
    simpa using hsort

/-- A task of the lowest tier, one that needs no hurry and one with the tier as a number. -/
def plainTasks : List Doc :=
  [[("id", .str "task-001"), ("priority", .str "Sandbox")], [("id", .str "task-002"), ("priority", .str "P3")],
    [("id", .str "task-003"), ("priority", .int 1)]]

theorem one_order_plainTasks : plainTasks.insertionSort before = plainTasks.insertionSort (queuedBefore .asciiOnly) := by
  refine ((one_order_iff .asciiOnly plainTasks fun task htask => ?_).mpr fun task htask => ?_).2
  · simp only [plainTasks, List.mem_cons, List.not_mem_nil, or_false] at htask
    rcases htask with rfl | rfl | rfl <;> exact ⟨_, rfl, trivial⟩
  · simp only [plainTasks, List.mem_cons, List.not_mem_nil, or_false] at htask
    rcases htask with rfl | rfl | rfl
    · exact Or.inr (Or.inl (by decide))
    · exact Or.inl (by decide)
    · exact trivial

/-- **A critical task is ranked last.** -/
theorem critical_last : ¬ ∀ (D : Digits) (tasks : List Doc),
    (∀ task ∈ tasks, ∃ v, task.lookup "priority" = some v ∧ Carried v) →
      (∀ task ∈ tasks, OneTier D (priorityOf task)) ∧
        tasks.insertionSort before = tasks.insertionSort (queuedBefore D) := by
  intro h
  have hone := (h .asciiOnly [[("id", .str "task-001"), ("priority", .str "critical")]] fun task htask => by
    rw [List.mem_singleton.mp htask]
    exact ⟨_, rfl, trivial⟩).1 _ List.mem_cons_self
  have hqueue : normalizePriority .asciiOnly (.str "critical") = .ok 5 := hone.queue
  exact absurd hqueue (by decide)

end ClaudeSwarm.AutoDispatch
