import ClaudeSwarm.Interleave.Trace
import Mathlib.Data.List.Perm.Basic
import Mathlib.Tactic.Ring

/-!
# Threads that are joined

A pool of named threads started together and joined as they end. `Prog.par` runs them: before each command a
`pick` says which thread goes on, and a thread that has returned is handed to `deliver`. Commands of different
threads interleave freely. `fuel` bounds the picks; `Fits` says that it is enough (`Within` bounds the commands of
one thread).

`obs` is what is observed of a command, `key` the thread an observation is of.

* **`goes_par`**: every thread is delivered once, with an outcome it has alone under the same replies, and what is
  observed of it is what it does alone.
* **`can_par`**: the threads may go one after the other.
-/

namespace ClaudeSwarm.Interleave

namespace Prog

variable {S : Sig} {ε α β κ : Type}

/-- The threads `ts` run together from `b`. -/
def par (pick : Prog S ε Nat) (deliver : β → κ → α → Prog S ε β) : Nat → List (κ × Prog S ε α) → β → Prog S ε β
  | 0, _, b => .ret b
  | _ + 1, [], b => .ret b
  | fuel + 1, t :: ts, b => do
    let i ← pick
    let j := i % (ts.length + 1)
    match (t :: ts)[j]? with
    | some (κ, .ret a) => do
      let b ← deliver b κ a
      par pick deliver fuel ((t :: ts).eraseIdx j) b
    | some (κ, .op c k) => .op c fun x => par pick deliver fuel ((t :: ts).set j (κ, k x)) b
    | some (_, .raise e) => .raise e
    | none => .ret b

/-- The program returns after at most `n` commands. -/
def Within : Nat → Prog S ε α → Prop
  | _, .ret _ => True
  | _, .raise _ => False
  | 0, .op _ _ => False
  | n + 1, .op _ k => ∀ x, Within n (k x)

theorem Within.mono {p : Prog S ε α} : ∀ {m n : Nat}, p.Within m → m ≤ n → p.Within n := by
  induction p with
  | ret a =>
    intro m n _ _
    cases n <;> exact trivial
  | raise e =>
    intro m n h _
    cases m <;> exact h.elim
  | op c k ih =>
    intro m n h hle
    cases m with
    | zero => exact h.elim
    | succ m =>
      obtain ⟨n, rfl⟩ : ∃ n', n = n' + 1 := ⟨n - 1, by omega⟩
      exact fun x => ih x (h x) (by omega)

theorem within_ret {a : α} {n : Nat} : (.ret a : Prog S ε α).Within n := by
  cases n <;> exact trivial

theorem within_bind {m n : Nat} {p : Prog S ε α} {f : α → Prog S ε β} (hp : p.Within m) (hf : ∀ a, (f a).Within n) :
    (p >>= f).Within (m + n) := by
  induction p generalizing m with
  | ret a => exact (hf a).mono (Nat.le_add_left _ _)
  | raise e => cases m <;> exact hp.elim
  | op c k ih =>
    cases m with
    | zero => exact hp.elim
    | succ m =>
      rw [Nat.add_right_comm]
      exact fun x => ih x (hp x)

theorem within_cmd {n : Nat} {c : S.Cmd} {f : S.Resp c → Prog S ε α} (hf : ∀ x, (f x).Within n) :
    (cmd c >>= f).Within (n + 1) := hf

/-- `fuel` is enough for the commands of the threads and the delivery of each. -/
inductive Fits : Nat → List (κ × Prog S ε α) → Prop
  | nil (fuel : Nat) : Fits fuel []
  | cons {m fuel : Nat} {t : κ × Prog S ε α} {ts : List (κ × Prog S ε α)} (ht : t.2.Within m) (hts : Fits fuel ts) :
    Fits (m + 1 + fuel) (t :: ts)

theorem fits_of_forall {m : Nat} : ∀ {ts : List (κ × Prog S ε α)}, (∀ t ∈ ts, t.2.Within m) →
    Fits ((m + 1) * ts.length) ts
  | [], _ => .nil _
  | t :: ts, h => by
    have hrest := fits_of_forall fun t' ht' => h t' (List.mem_cons_of_mem _ ht')
    have hsum : (m + 1) * (t :: ts).length = m + 1 + (m + 1) * ts.length := by
      rw [List.length_cons]
      ring
    rw [hsum]
    exact .cons (h t List.mem_cons_self) hrest

theorem Fits.mono {fuel : Nat} {ts : List (κ × Prog S ε α)} (h : Fits fuel ts) :
    ∀ {fuel' : Nat}, fuel ≤ fuel' → Fits fuel' ts := by
  induction h with
  | nil _ => exact fun _ => .nil _
  | @cons m fuel t ts ht _ ih =>
    intro fuel' hle
    obtain ⟨d, rfl⟩ := Nat.exists_eq_add_of_le hle
    rw [Nat.add_assoc]
    exact .cons ht (ih (Nat.le_add_right _ _))

/-- The thread in the middle may come first. -/
theorem fits_middle {t : κ × Prog S ε α} {post : List (κ × Prog S ε α)} :
    ∀ {pre : List (κ × Prog S ε α)} {fuel : Nat}, Fits fuel (pre ++ t :: post) ↔ Fits fuel (t :: (pre ++ post))
  | [], _ => Iff.rfl
  | u :: pre, fuel => by
    constructor
    · intro h
      cases h with
      | cons hu hrest =>
        cases fits_middle.mp hrest with
        | cons ht hrest =>
          rw [Nat.add_left_comm]
          exact .cons ht (.cons hu hrest)
    · intro h
      cases h with
      | cons ht hrest =>
        cases hrest with
        | cons hu hrest =>
          rw [Nat.add_left_comm]
          exact .cons hu (fits_middle.mpr (.cons ht hrest))

/-- The threads before and after the one that is picked. -/
theorem exists_split {ts : List (κ × Prog S ε α)} {j : Nat} {t : κ × Prog S ε α} (h : ts[j]? = some t) :
    ∃ pre post, ts = pre ++ t :: post ∧ ts.eraseIdx j = pre ++ post ∧ ∀ u, ts.set j u = pre ++ u :: post := by
  obtain ⟨hlt, rfl⟩ := List.getElem?_eq_some_iff.mp h
  refine ⟨ts.take j, ts.drop (j + 1), ?_, List.eraseIdx_eq_take_drop_succ .., fun u => ?_⟩
  · rw [List.getElem_cons_drop, List.take_append_drop]
  · rw [List.set_eq_take_append_cons_drop, if_pos hlt]

theorem mem_middle {A : Type} {a b : A} {pre post : List A} : a ∈ pre ++ b :: post ↔ a = b ∨ a ∈ pre ++ post := by
  rw [List.perm_middle.mem_iff, List.mem_cons]

theorem fits_erase {fuel : Nat} {pre post : List (κ × Prog S ε α)} {t : κ × Prog S ε α}
    (h : Fits (fuel + 1) (pre ++ t :: post)) : Fits fuel (pre ++ post) := by
  generalize hf : fuel + 1 = fuel' at h
  cases fits_middle.mp h with
  | cons ht hrest => exact hrest.mono (by omega)

theorem fits_set {fuel : Nat} {pre post : List (κ × Prog S ε α)} {name : κ} {c : S.Cmd} {k : S.Resp c → Prog S ε α}
    (h : Fits (fuel + 1) (pre ++ (name, .op c k) :: post)) (x : S.Resp c) :
    Fits fuel (pre ++ (name, k x) :: post) := by
  generalize hf : fuel + 1 = fuel' at h
  cases fits_middle.mp h with
  | @cons m rest _ _ ht hrest =>
    cases m with
    | zero => exact ht.elim
    | succ m =>
      have hle : fuel = m + 1 + rest := by omega
      rw [hle]
      exact fits_middle.mpr (.cons (ht x) hrest)

theorem fits_zero {ts : List (κ × Prog S ε α)} (h : Fits 0 ts) : ts = [] := by
  generalize hf : 0 = fuel at h
  cases h with
  | nil => rfl
  | cons _ _ => omega

/-! ## What the threads do together -/

section Observed

variable {O : Type} (obs : Entry S → Option O) (key : O → κ)

/-- Nothing of it is observed. -/
def Unseen (p : Prog S ε α) : Prop := p.Each fun c => ∀ x, obs ⟨c, x⟩ = none

/-- What is observed of it is of the thread `name`. -/
def Of (name : κ) (p : Prog S ε α) : Prop := p.Each fun c => ∀ x o, obs ⟨c, x⟩ = some o → key o = name

variable {obs key} {p : Prog S ε α} {l : List (Entry S)} {r : Except ε α} {name : κ}

theorem Unseen.goes (hp : Unseen obs p) (h : p.Goes l r) : l.filterMap obs = [] :=
  List.filterMap_eq_nil_iff.mpr fun e he => Each.goes hp h e he e.2

/-- What was observed of the thread `name`. -/
def part [DecidableEq κ] (key : O → κ) (name : κ) (os : List O) : List O := os.filter fun o => key o = name

theorem part_eq_nil [DecidableEq κ] {os : List O} (h : ∀ o ∈ os, key o ≠ name) : part key name os = [] :=
  List.filter_eq_nil_iff.mpr fun o ho => by simpa using h o ho

/-- One pick: the thread that goes on, and what it does. -/
theorem goes_par_cons {pick : Prog S ε Nat} {deliver : β → κ → α → Prog S ε β} {fuel : Nat}
    {t : κ × Prog S ε α} {ts : List (κ × Prog S ε α)} {b b' : β}
    (h : (par pick deliver (fuel + 1) (t :: ts) b).Goes l (.ok b')) :
    ∃ i l₀ l₁ pre name p post, l = l₀ ++ l₁ ∧ pick.Goes l₀ (.ok i) ∧ t :: ts = pre ++ (name, p) :: post ∧
      ((∃ a b₁ l₂ l₃, p = .ret a ∧ l₁ = l₂ ++ l₃ ∧ (deliver b name a).Goes l₂ (.ok b₁) ∧
          (par pick deliver fuel (pre ++ post) b₁).Goes l₃ (.ok b')) ∨
        ∃ c k x l₂, p = .op c k ∧ l₁ = ⟨c, x⟩ :: l₂ ∧
          (par pick deliver fuel (pre ++ (name, k x) :: post) b).Goes l₂ (.ok b')) := by
  rw [par] at h
  obtain ⟨i, l₀, l₁, rfl, hi, hj⟩ | ⟨e, -, he⟩ := goes_bind.mp h
  · clear h
    dsimp only at hj
    cases hget : (t :: ts)[i % (ts.length + 1)]? with
    | none =>
      have hlt : i % (ts.length + 1) < (t :: ts).length := Nat.mod_lt _ (Nat.succ_pos _)
      rw [List.getElem?_eq_getElem hlt] at hget
      cases hget
    | some t' =>
      obtain ⟨name, p⟩ := t'
      obtain ⟨pre, post, hsplit, herase, hset⟩ := exists_split hget
      rw [hget, herase] at hj
      simp only [hset] at hj
      refine ⟨i, l₀, l₁, pre, name, p, post, rfl, hi, hsplit, ?_⟩
      cases p with
      | raise e => cases hj.2
      | ret a =>
        obtain ⟨b₁, l₂, l₃, rfl, hd, hrest⟩ | ⟨e, -, he⟩ := goes_bind.mp hj
        · exact Or.inl ⟨a, b₁, l₂, l₃, rfl, rfl, hd, hrest⟩
        · cases he
      | op c k =>
        obtain ⟨x, l₂, hl, hrest⟩ := hj
        exact Or.inr ⟨c, k, x, l₂, rfl, hl, hrest⟩
  · cases he

theorem nodup_names {pre post : List (κ × Prog S ε α)} {p : Prog S ε α}
    (h : ((pre ++ (name, p) :: post).map Prod.fst).Nodup) :
    name ∉ (pre ++ post).map Prod.fst ∧ ((pre ++ post).map Prod.fst).Nodup := by
  have hperm : ((pre ++ (name, p) :: post).map Prod.fst).Perm (name :: (pre ++ post).map Prod.fst) :=
    List.perm_middle.map Prod.fst
  exact List.nodup_cons.mp (hperm.nodup_iff.mp h)

/-- **Threads.** Each thread is delivered, with an outcome and observations that it may have alone. -/
theorem goes_par [DecidableEq κ] {pick : Prog S ε Nat} {deliver : β → κ → α → Prog S ε β}
    {J : List (κ × α) → β → Prop} (hpick : Unseen obs pick) (hdeliver : ∀ b name a, Unseen obs (deliver b name a))
    (hJ : ∀ {done b name a l b'}, J done b → (deliver b name a).Goes l (.ok b') → J (done ++ [(name, a)]) b') :
    ∀ {fuel : Nat} {ts : List (κ × Prog S ε α)} {done : List (κ × α)} {b b' : β} {l : List (Entry S)},
      (ts.map Prod.fst).Nodup → Fits fuel ts → (∀ t ∈ ts, Of obs key t.1 t.2) → J done b →
      (par pick deliver fuel ts b).Goes l (.ok b') →
      ∃ more, J (done ++ more) b' ∧ (more.map Prod.fst).Perm (ts.map Prod.fst) ∧
        (∀ o ∈ l.filterMap obs, key o ∈ ts.map Prod.fst) ∧
        ∀ t ∈ ts, ∃ a lt, (t.1, a) ∈ more ∧ t.2.Goes lt (.ok a) ∧
          part key t.1 (l.filterMap obs) = lt.filterMap obs := by
  intro fuel
  induction fuel with
  | zero =>
    intro ts done b b' l _ hfits _ hb h
    obtain rfl := fits_zero hfits
    obtain ⟨rfl, hb'⟩ := h
    cases hb'
    exact ⟨[], by simpa using hb, .nil, by simp, by simp⟩
  | succ fuel ih =>
    intro ts done b b' l hnodup hfits hof hb h
    cases ts with
    | nil =>
      obtain ⟨rfl, hb'⟩ := h
      cases hb'
      exact ⟨[], by simpa using hb, .nil, by simp, by simp⟩
    | cons t₀ ts₀ =>
      obtain ⟨i, l₀, l₁, pre, name, p, post, hl, hi, hsplit, hnext⟩ := goes_par_cons h
      clear h
      subst hl
      rw [hsplit] at hnodup hfits hof ⊢
      rw [List.filterMap_append, hpick.goes hi, List.nil_append]
      obtain ⟨hname, hrest⟩ := nodup_names hnodup
      have hofrest : ∀ t ∈ pre ++ post, Of obs key t.1 t.2 := fun t ht => hof t (mem_middle.mpr (Or.inr ht))
      have hofp : Of obs key name p := hof (name, p) (mem_middle.mpr (Or.inl rfl))
      rcases hnext with ⟨a, b₁, l₂, l₃, rfl, rfl, hd, h⟩ | ⟨c, k, x, l₂, rfl, rfl, h⟩
      · -- the thread has returned and is delivered
        obtain ⟨more, hJ', hmore, hkeys, hparts⟩ := ih hrest (fits_erase hfits) hofrest (hJ hb hd) h
        have hperm : (name :: (pre ++ post).map Prod.fst).Perm
            ((pre ++ (name, (.ret a : Prog S ε α)) :: post).map Prod.fst) := by
          rw [List.map_append, List.map_append, List.map_cons]
          exact List.perm_middle.symm
        rw [List.append_assoc] at hJ'
        rw [List.filterMap_append, (hdeliver _ _ _).goes hd, List.nil_append]
        refine ⟨(name, a) :: more, hJ', (hmore.cons name).trans hperm,
          fun o ho => hperm.mem_iff.mp (List.mem_cons_of_mem _ (hkeys o ho)), fun t ht => ?_⟩
        rcases mem_middle.mp ht with rfl | ht
        · exact ⟨a, [], List.mem_cons_self, ⟨rfl, rfl⟩, part_eq_nil fun o ho he => hname (he ▸ hkeys o ho :)⟩
        · obtain ⟨a', lt, hin, hgo, hpart⟩ := hparts t ht
          exact ⟨a', lt, List.mem_cons_of_mem _ hin, hgo, hpart⟩
      · -- the thread issues one command
        have hnames : ∀ q : Prog S ε α, (pre ++ (name, q) :: post).map Prod.fst =
            pre.map Prod.fst ++ name :: post.map Prod.fst := fun q => by
          rw [List.map_append, List.map_cons]
        have hofk : ∀ t ∈ pre ++ (name, k x) :: post, Of obs key t.1 t.2 := fun t ht =>
          (mem_middle.mp ht).elim (fun he => he ▸ hofp.2 x) (hofrest t)
        obtain ⟨more, hJ', hmore, hkeys, hparts⟩ :=
          ih (by rwa [hnames] at hnodup ⊢) (fits_set hfits x) hofk hb h
        rw [hnames] at hmore hkeys ⊢
        refine ⟨more, hJ', hmore, fun o ho => ?_, fun t ht => ?_⟩
        · rw [List.filterMap_cons] at ho
          cases hobs : obs ⟨c, x⟩ with
          | none => exact hkeys o (by rwa [hobs] at ho)
          | some o' =>
            rw [hobs] at ho
            rcases List.mem_cons.mp ho with rfl | ho
            · rw [hofp.1 x o hobs]
              exact List.mem_append_right _ List.mem_cons_self
            · exact hkeys o ho
        · rw [List.filterMap_cons]
          rcases mem_middle.mp ht with rfl | ht
          · obtain ⟨a, lt, hin, hgo, hpart⟩ := hparts (name, k x) (mem_middle.mpr (Or.inl rfl))
            refine ⟨a, ⟨c, x⟩ :: lt, hin, ⟨x, lt, rfl, hgo⟩, ?_⟩
            rw [List.filterMap_cons]
            cases hobs : obs ⟨c, x⟩ with
            | none => exact hpart
            | some o => exact (List.filter_cons_of_pos (by simpa using hofp.1 x o hobs)).trans (congrArg _ hpart)
          · obtain ⟨a, lt, hin, hgo, hpart⟩ := hparts t (mem_middle.mpr (Or.inr ht))
            refine ⟨a, lt, hin, hgo, ?_⟩
            cases hobs : obs ⟨c, x⟩ with
            | none => exact hpart
            | some o =>
              have hne : name ≠ t.1 := fun he => hname (he ▸ List.mem_map_of_mem ht)
              exact (List.filter_cons_of_neg (by simpa [hofp.1 x o hobs] using hne)).trans hpart

end Observed

/-! ## One after the other -/

section Turns

open Store

variable {O : Type} {obs : Entry S → Option O} {T : Store S} {n : Nat}

/-- The threads of these names in turn: `Q` of each, `D` of its delivery. -/
def InTurn (Q : κ → α → List O → Prop) (D : β → κ → α → β → Prop) : List κ → β → β → List O → Prop
  | [], b, b', os => b' = b ∧ os = []
  | name :: names, b, b', os =>
    ∃ a b₁ os₁ os₂, Q name a os₁ ∧ D b name a b₁ ∧ InTurn Q D names b₁ b' os₂ ∧ os = os₁ ++ os₂

variable {pick : Prog S ε Nat} {deliver : β → κ → α → Prog S ε β} {fuel : Nat} {name : κ} {a : α} {b b' : β}
  {ts : List (κ × Prog S ε α)} {l₀ l : List (Entry S)}

theorem goes_first_ret (hpick : pick.Goes l₀ (.ok 0))
    (h : (deliver b name a >>= fun b => par pick deliver fuel ts b).Goes l (.ok b')) :
    (par pick deliver (fuel + 1) ((name, .ret a) :: ts) b).Goes (l₀ ++ l) (.ok b') := by
  rw [par]
  refine goes_bind.mpr (Or.inl ⟨0, l₀, l, rfl, hpick, ?_⟩)
  simpa using h

theorem goes_first_op {c : S.Cmd} {k : S.Resp c → Prog S ε α} {x : S.Resp c} (hpick : pick.Goes l₀ (.ok 0))
    (h : (par pick deliver fuel ((name, k x) :: ts) b).Goes l (.ok b')) :
    (par pick deliver (fuel + 1) ((name, .op c k) :: ts) b).Goes (l₀ ++ ⟨c, x⟩ :: l) (.ok b') := by
  rw [par]
  refine goes_bind.mpr (Or.inl ⟨0, l₀, ⟨c, x⟩ :: l, rfl, hpick, ?_⟩)
  exact ⟨x, l, rfl, by simpa using h⟩

/-- The first thread goes on to its end. -/
theorem can_first {R : β → List O → Prop}
    (hpick : ∀ s, ∃ l, pick.Goes l (.ok 0) ∧ T.Plays n s l s ∧ l.filterMap obs = []) :
    ∀ {p : Prog S ε α} {lt : List (Entry S)} {fuel : Nat} {s s₁ : T.State}, p.Goes lt (.ok a) → T.Plays n s lt s₁ →
      Fits fuel ((name, p) :: ts) →
      (∀ fuel, Fits fuel ts → ∃ b' l s', (deliver b name a >>= fun b => par pick deliver fuel ts b).Goes l (.ok b') ∧
        T.Plays n s₁ l s' ∧ R b' (lt.filterMap obs ++ l.filterMap obs)) →
      ∃ b' l s', (par pick deliver fuel ((name, p) :: ts) b).Goes l (.ok b') ∧ T.Plays n s l s' ∧
        R b' (l.filterMap obs) := by
  intro p
  induction p generalizing R with
  | raise e => exact fun hg => nomatch hg.2
  | ret a' =>
    rintro lt fuel s s₁ ⟨rfl, ha⟩ rfl hfits hrest
    cases ha
    obtain ⟨l₀, hg₀, hp₀, ho₀⟩ := hpick s₁
    cases hfits with
    | @cons m fuel _ _ _ hts =>
      obtain ⟨b', l, s', hg, hp, hr⟩ := hrest (m + fuel) (hts.mono (Nat.le_add_left _ _))
      refine ⟨b', l₀ ++ l, s', ?_, (T.plays_append n).mpr ⟨s₁, hp₀, hp⟩, ?_⟩
      · rw [Nat.add_right_comm]
        exact goes_first_ret hg₀ hg
      · rw [List.filterMap_append, ho₀]
        exact hr
  | op c k ih =>
    rintro lt fuel s s₁ ⟨x, lt, rfl, hg⟩ ⟨i, s₂, hx, hp⟩ hfits hrest
    obtain ⟨l₀, hg₀, hp₀, ho₀⟩ := hpick s
    cases hfits with
    | @cons m fuel _ _ ht hts =>
      cases m with
      | zero => exact ht.elim
      | succ m =>
        obtain ⟨b', l, s', hg', hp', hr⟩ := ih x (R := fun b' os => R b' ([⟨c, x⟩].filterMap obs ++ os)) hg hp
          (.cons (ht x) hts) fun fuel hfits => by
            obtain ⟨b', l, s', hg, hp, hr⟩ := hrest fuel hfits
            rw [← List.singleton_append, List.filterMap_append, List.append_assoc] at hr
            exact ⟨b', l, s', hg, hp, hr⟩
        refine ⟨b', l₀ ++ ⟨c, x⟩ :: l, s', ?_, (T.plays_append n).mpr ⟨s, hp₀, i, s₂, hx, hp'⟩, ?_⟩
        · rw [show m + 1 + 1 + fuel = m + 1 + fuel + 1 by omega]
          exact goes_first_op hg₀ hg'
        · rw [List.filterMap_append, ho₀, List.nil_append, ← List.singleton_append, List.filterMap_append]
          exact hr

/-- **In turn.** The threads may go one after the other. -/
theorem can_par {Q : κ → α → List O → Prop} {D : β → κ → α → β → Prop}
    (hpick : ∀ s, ∃ l, pick.Goes l (.ok 0) ∧ T.Plays n s l s ∧ l.filterMap obs = [])
    (hdeliver : ∀ b name a, T.Can n (deliver b name a) fun b' l => D b name a b' ∧ l.filterMap obs = []) :
    ∀ {ts : List (κ × Prog S ε α)} {fuel : Nat} {b : β}, Fits fuel ts →
      (∀ t ∈ ts, T.Can n t.2 fun a l => Q t.1 a (l.filterMap obs)) →
      T.Can n (par pick deliver fuel ts b) fun b' l => InTurn Q D (ts.map Prod.fst) b b' (l.filterMap obs)
  | [], fuel, b, _, _ => by
    cases fuel <;> exact can_ret ⟨rfl, rfl⟩
  | (name, p) :: ts, fuel, b, hfits, hcan => by
    intro s
    obtain ⟨a, lt, s₁, hg, hp, hQ⟩ := hcan (name, p) List.mem_cons_self s
    refine can_first hpick hg hp hfits fun fuel hfits => ?_
    have hrest : T.Can n (deliver b name a >>= fun b => par pick deliver fuel ts b) fun b' l =>
        ∃ b₁, D b name a b₁ ∧ InTurn Q D (ts.map Prod.fst) b₁ b' (l.filterMap obs) := by
      refine can_bind (hdeliver b name a) fun b₁ l₁ hD => ?_
      refine can_mono (can_par hpick hdeliver hfits fun t ht => hcan t (List.mem_cons_of_mem _ ht)) fun b' l hl => ?_
      rw [List.filterMap_append, hD.2, List.nil_append]
      exact ⟨b₁, hD.1, hl⟩
    obtain ⟨b', l, s', hg', hp', b₁, hD, hturn⟩ := hrest s₁
    exact ⟨b', l, s', hg', hp', a, b₁, _, _, hQ, hD, hturn, rfl⟩

end Turns

end Prog

end ClaudeSwarm.Interleave
