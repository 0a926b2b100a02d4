import Mathlib.Data.List.Induction
import Mathlib.Data.List.Lex
import Mathlib.Tactic.Linarith
import Mathlib.Tactic.Ring

/-!
# Numbers of a fixed number of digits

A natural number as the list of its last `w` digits to a base, the most significant first: the bytes of `int.to_bytes`
and of `struct.pack(">Q", …)` to the base 256, the text of `%032x` to the base 16. Lists of digits are ordered as texts
are, so that of two numbers written with the same number of digits the smaller has the smaller text.

* `ofDigits_digits`, `ofDigits_append`: what the digits are worth.
* `drop_digits`: the last digits.
* **`digits_lt`**: a smaller number has a smaller list of digits.
* `map_lt`: digits written as characters that are ordered as they are.
* `separate_lt`: separators at fixed places decide nothing.
-/

namespace ClaudeSwarm.Data.BigEndian

/-- The last `w` digits of a number to the base `b`. -/
def digits (b : Nat) : Nat → Nat → List Nat
  | 0, _ => []
  | w + 1, n => digits b w (n / b) ++ [n % b]

/-- The number that digits are worth. -/
def ofDigits (b : Nat) (l : List Nat) : Nat := l.foldl (fun n d => n * b + d) 0

variable {b w n m : Nat}

@[simp] theorem length_digits (b : Nat) : ∀ w n : Nat, (digits b w n).length = w
  | 0, _ => rfl
  | w + 1, n => by rw [digits, List.length_append, length_digits b w, List.length_singleton]

theorem lt_of_mem_digits (hb : 0 < b) : ∀ {w n d : Nat}, d ∈ digits b w n → d < b
  | w + 1, n, d, hd => by
    rcases List.mem_append.mp hd with hd | hd
    · exact lt_of_mem_digits hb hd
    · rw [List.mem_singleton.mp hd]
      exact Nat.mod_lt n hb

theorem foldl_digits (b : Nat) : ∀ (l : List Nat) (n : Nat),
    l.foldl (fun n d => n * b + d) n = n * b ^ l.length + l.foldl (fun n d => n * b + d) 0
  | [], n => by simp
  | d :: l, n => by
    rw [List.foldl_cons, List.foldl_cons, foldl_digits b l (n * b + d), foldl_digits b l (0 * b + d), List.length_cons,
      pow_succ']
    ring

@[simp] theorem ofDigits_nil (b : Nat) : ofDigits b [] = 0 := rfl

theorem ofDigits_append (b : Nat) (l l' : List Nat) :
    ofDigits b (l ++ l') = ofDigits b l * b ^ l'.length + ofDigits b l' := by
  rw [ofDigits, List.foldl_append]
  exact foldl_digits b l' _

theorem ofDigits_singleton (b d : Nat) : ofDigits b [d] = d := by simp [ofDigits]

/-- **The last digits of a number are worth its remainder.** -/
theorem ofDigits_digits (b : Nat) : ∀ w n : Nat, ofDigits b (digits b w n) = n % b ^ w
  | 0, n => by rw [digits, ofDigits_nil, pow_zero, Nat.mod_one]
  | w + 1, n => by
    rw [digits, ofDigits_append, ofDigits_digits b w, ofDigits_singleton, List.length_singleton, pow_one, pow_succ',
      Nat.mod_mul]
    ring

theorem ofDigits_lt {l : List Nat} (h : ∀ d ∈ l, d < b) : ofDigits b l < b ^ l.length := by
  induction l using List.reverseRecOn with
  | nil => simp
  | append_singleton l d ih =>
    have hd : d < b := h d (by simp)
    have hl := ih fun d' hd' => h d' (List.mem_append_left _ hd')
    rw [ofDigits_append, ofDigits_singleton, List.length_append, List.length_singleton, pow_one, pow_succ]
    calc ofDigits b l * b + d < (ofDigits b l + 1) * b := by linarith
      _ ≤ b ^ l.length * b := Nat.mul_le_mul_right b hl

theorem digits_add (b : Nat) (v : Nat) : ∀ w n : Nat, digits b (v + w) n = digits b v (n / b ^ w) ++ digits b w n
  | 0, n => by rw [digits, List.append_nil, pow_zero, Nat.div_one, Nat.add_zero]
  | w + 1, n => by
    rw [← Nat.add_assoc, digits, digits_add b v w, digits, Nat.div_div_eq_div_mul, ← pow_succ', List.append_assoc]

/-- The digits of a number after the first ones. -/
theorem drop_digits (b v w n : Nat) : (digits b (v + w) n).drop v = digits b w n := by
  rw [digits_add, List.drop_left' (length_digits b v _)]

/-! ## The order of texts -/

section Order

variable {α β : Type} [LinearOrder α] [LinearOrder β] {l l' x y : List α}

/-- Of texts whose beginnings are equally long, the beginnings decide, or what follows equal ones. -/
theorem append_lt_append (hlen : l.length = l'.length) (h : l < l' ∨ l = l' ∧ x < y) : l ++ x < l' ++ y := by
  induction l generalizing l' with
  | nil =>
    obtain rfl := List.length_eq_zero_iff.mp hlen.symm
    rcases h with h | ⟨-, h⟩
    · exact absurd h (lt_irrefl _)
    · exact h
  | cons a l ih =>
    cases l' with
    | nil => exact absurd hlen (Nat.succ_ne_zero _)
    | cons a' l' =>
      have hlen' := Nat.succ.inj hlen
      rw [List.cons_append, List.cons_append, List.cons_lt_cons_iff]
      rcases h with h | ⟨heq, h⟩
      · rcases List.cons_lt_cons_iff.mp h with hlt | ⟨ha, hlt⟩
        · exact .inl hlt
        · exact .inr ⟨ha, ih hlen' (.inl hlt)⟩
      · obtain ⟨ha, hl⟩ := List.cons.inj heq
        exact .inr ⟨ha, ih hlen' (.inr ⟨hl, h⟩)⟩

/-- The first characters of a smaller text decide, or they are the same and the others do. -/
theorem take_lt_or (hlen : l.length = l'.length) (h : l < l') (i : Nat) :
    l.take i < l'.take i ∨ l.take i = l'.take i ∧ l.drop i < l'.drop i := by
  have htake : (l.take i).length = (l'.take i).length := by rw [List.length_take, List.length_take, hlen]
  have hdrop : (l.drop i).length = (l'.drop i).length := by rw [List.length_drop, List.length_drop, hlen]
  by_contra hnot
  rw [not_or, not_lt] at hnot
  rcases hnot.1.lt_or_eq with hlt | heq
  · have := append_lt_append (x := l'.drop i) (y := l.drop i) htake.symm (.inl hlt)
    rw [List.take_append_drop, List.take_append_drop] at this
    exact lt_asymm h this
  · have hle : l'.drop i ≤ l.drop i := not_lt.mp fun hd => hnot.2 ⟨heq.symm, hd⟩
    rcases hle.lt_or_eq with hlt | hsame
    · have := append_lt_append htake.symm (.inr ⟨heq, hlt⟩)
      rw [List.take_append_drop, List.take_append_drop] at this
      exact lt_asymm h this
    · rw [← List.take_append_drop i l, ← List.take_append_drop i l', heq, hsame] at h
      exact lt_irrefl _ h

/-- Characters that are ordered as the digits they stand for. -/
theorem map_lt {f : α → β} (hf : ∀ a ∈ l, ∀ a' ∈ l', a < a' → f a < f a') (hlen : l.length = l'.length) (h : l < l') :
    l.map f < l'.map f := by
  induction l generalizing l' with
  | nil =>
    obtain rfl := List.length_eq_zero_iff.mp hlen.symm
    exact absurd h (lt_irrefl _)
  | cons a l ih =>
    cases l' with
    | nil => exact absurd hlen (Nat.succ_ne_zero _)
    | cons a' l' =>
      rw [List.map_cons, List.map_cons, List.cons_lt_cons_iff]
      rcases List.cons_lt_cons_iff.mp h with hlt | ⟨rfl, hlt⟩
      · exact .inl (hf a List.mem_cons_self a' List.mem_cons_self hlt)
      · exact .inr ⟨rfl, ih (fun a ha a' ha' => hf a (List.mem_cons_of_mem _ ha) a' (List.mem_cons_of_mem _ ha'))
          (Nat.succ.inj hlen) hlt⟩

/-- A text with separators after its first groups of characters, of the given lengths. -/
def separate (c : α) : List Nat → List α → List α
  | [], l => l
  | w :: ws, l => l.take w ++ c :: separate c ws (l.drop w)

/-- **Separators at fixed places decide nothing.** -/
theorem separate_lt (c : α) : ∀ (ws : List Nat) {l l' : List α}, l.length = l'.length → l < l' →
    separate c ws l < separate c ws l'
  | [], _, _, _, h => h
  | w :: ws, l, l', hlen, h => by
    have htake : (l.take w).length = (l'.take w).length := by rw [List.length_take, List.length_take, hlen]
    have hdrop : (l.drop w).length = (l'.drop w).length := by rw [List.length_drop, List.length_drop, hlen]
    refine append_lt_append htake ?_
    rcases take_lt_or hlen h w with hlt | ⟨heq, hlt⟩
    · exact .inl hlt
    · exact .inr ⟨heq, List.cons_lt_cons_iff.mpr (.inr ⟨rfl, separate_lt c ws hdrop hlt⟩)⟩

omit [LinearOrder α] in
/-- Without the separators it is the text. -/
theorem filter_separate [DecidableEq α] {c : α} : ∀ (ws : List Nat) {l : List α}, c ∉ l →
    (separate c ws l).filter (fun a => a ≠ c) = l
  | [], l, h => List.filter_eq_self.mpr fun a ha => decide_eq_true fun he => h (he ▸ ha)
  | w :: ws, l, h => by
    have htake : (l.take w).filter (fun a => a ≠ c) = l.take w :=
      List.filter_eq_self.mpr fun a ha => decide_eq_true fun he => h (he ▸ List.mem_of_mem_take ha)
    have hdrop : c ∉ l.drop w := fun hc => h (List.mem_of_mem_drop hc)
    rw [separate, List.filter_append, List.filter_cons_of_neg (by simp), filter_separate ws hdrop, htake,
      List.take_append_drop]

end Order

/-- **A smaller number has a smaller list of digits.** -/
theorem digits_lt (h : m < n) (hn : n < b ^ w) : digits b w m < digits b w n := by
  induction w generalizing m n with
  | zero =>
    rw [pow_zero] at hn
    omega
  | succ w ih =>
    have hb : 0 < b := Nat.pos_of_ne_zero fun h0 => by simp [h0] at hn
    have hdiv : n / b < b ^ w := Nat.div_lt_of_lt_mul (by rwa [← pow_succ'])
    have hlen : (digits b w (m / b)).length = (digits b w (n / b)).length := by simp
    refine append_lt_append hlen ?_
    rcases (Nat.div_le_div_right h.le : m / b ≤ n / b).lt_or_eq with hlt | heq
    · exact .inl (ih hlt hdiv)
    · have hm := Nat.div_add_mod m b
      have hn' := Nat.div_add_mod n b
      rw [heq] at hm
      exact .inr ⟨by rw [heq], List.cons_lt_cons_iff.mpr (.inl (by omega))⟩

end ClaudeSwarm.Data.BigEndian
