import Mathlib.Data.Set.Basic
import Mathlib.Tactic.Common

/-!
# Forests whose nodes are split and finished

Nodes of any type under a relation `Sub c t`, "`c` is a child of `t`". A node is `active`, `split` into
children or `done`. An active node can be split, which makes its children active, or finished; with it
its parent is done when all the children of that are (`Step`). What is done does not finish the parent
of its own parent, so a split node can be left with nothing active below it (`Stuck`), and then stays
split.

* `Cond`: no node is split into nothing, and an active node is finished only if every split node above it
  is its parent or has another active node below.
* **`done_iff`**: in a tree with no active node left, the root is done and no node split if and only if
  every step has met `Cond`.
-/

namespace ClaudeSwarm.Data.Forest

/-- What is known of a node. -/
inductive Status where
  | active
  | done
  | split
  deriving DecidableEq

/-- A step. -/
inductive Label (K : Type) where
  | stay
  | split (t : K) (children : Set K)
  | finish (c : K)

variable {K : Type} (Sub : K → K → Prop)

/-- Node `c` is below node `t`. -/
abbrev Below : K → K → Prop := Relation.TransGen Sub

/-- The node is the root or below it. -/
abbrev InTree (root t : K) : Prop := Relation.ReflTransGen Sub t root

/-- A node has one parent at most, and is not below itself. -/
structure Naming : Prop where
  parent : ∀ {c t t'}, Sub c t → Sub c t' → t = t'
  acyclic : ∀ t, ¬ Below Sub t t

/-- The status of each node that is there. -/
abbrev State (K : Type) := K → Option Status

/-- The children of `t` that are there are done, with `c`. -/
def AllDone (σ : State K) (c t : K) : Prop := ∀ u, Sub u t → σ u ≠ none → u = c ∨ σ u = some .done

/-- When `c` is finished, so is its parent `t`. -/
def Finishes (σ : State K) (c t : K) : Prop := Sub c t ∧ σ t = some .split ∧ AllDone Sub σ c t

/-- What a step does. -/
inductive Step (σ : State K) : Label K → State K → Prop
  | stay {σ' : State K} (h : ∀ k, σ' k = σ k) : Step σ .stay σ'
  | split {t : K} {cs : Set K} {σ' : State K} (ht : σ t = some .active) (hcs : ∀ c ∈ cs, Sub c t)
      (hsplit : σ' t = some .split) (hnew : ∀ c ∈ cs, σ' c = some .active)
      (hold : ∀ k, k ≠ t → k ∉ cs → σ' k = σ k) : Step σ (.split t cs) σ'
  | finish {c : K} {σ' : State K} (hc : σ c = some .active) (hdone : σ' c = some .done)
      (hparent : ∀ t, Finishes Sub σ c t → σ' t = some .done)
      (hold : ∀ k, k ≠ c → ¬ Finishes Sub σ c k → σ' k = σ k) : Step σ (.finish c) σ'

/-- A run, with the state before each step. -/
inductive Trace : State K → List (State K × Label K) → State K → Prop
  | nil {σ : State K} : Trace σ [] σ
  | cons {σ σ₁ σ' : State K} {l : Label K} {steps : List (State K × Label K)}
      (h : Step Sub σ l σ₁) (hs : Trace σ₁ steps σ') : Trace σ ((σ, l) :: steps) σ'

/-- No node is split into nothing, and no node above `c` but its parent has `c` as the only active node
below it when `c` is finished. -/
def Cond (root : K) (σ : State K) : Label K → Prop
  | .stay => True
  | .split _ cs => cs.Nonempty
  | .finish c => ∀ t, InTree Sub root t → Below Sub c t →
      Sub c t ∨ ∃ c', c' ≠ c ∧ Below Sub c' t ∧ σ c' = some .active

/-- The state of a tree: the root is there, a node with children is split or done, and the children of
what is done are done. -/
structure WF (root : K) (σ : State K) : Prop where
  there : σ root ≠ none
  parents : ∀ c t, InTree Sub root t → Sub c t → σ c ≠ none → σ t = some .split ∨ σ t = some .done
  closed : ∀ c t, InTree Sub root t → Sub c t → σ t = some .done → σ c ≠ none → σ c = some .done

/-- Every split node has an active one below it. -/
def Busy (root : K) (σ : State K) : Prop :=
  ∀ t, InTree Sub root t → σ t = some .split → ∃ c, Below Sub c t ∧ σ c = some .active

/-- A split node with no active one below it. -/
def Stuck (t : K) (σ : State K) : Prop :=
  σ t = some .split ∧ ∀ c, Below Sub c t → σ c ≠ some .active

variable {Sub} {root t c : K} {σ σ' : State K} {l : Label K}

/-! ## Names -/

theorem Naming.irrefl (hN : Naming Sub) {u : K} : ¬ Sub u u := fun h => hN.acyclic u (.single h)

/-- What a child is below, its parent is or is below. -/
theorem Naming.below (hN : Naming Sub) {p : K} (hp : Sub c p) (h : Below Sub c t) :
    p = t ∨ Below Sub p t := by
  obtain ⟨p', hp', hb⟩ := Relation.TransGen.head'_iff.mp h
  obtain rfl := hN.parent hp hp'
  exact (Relation.reflTransGen_iff_eq_or_transGen.mp hb).imp Eq.symm id

theorem Naming.ne_of_below (hN : Naming Sub) (h : Below Sub c t) : c ≠ t :=
  fun he => hN.acyclic t (he ▸ h)

theorem inTree_of_below (hr : InTree Sub root t) (h : Below Sub c t) : InTree Sub root c :=
  h.to_reflTransGen.trans hr

/-! ## The state of a tree -/

/-- An active node has no children. -/
theorem WF.none_of_active (h : WF Sub root σ) (hr : InTree Sub root t) (ht : σ t = some .active)
    (hc : Sub c t) : σ c = none := by
  by_contra hne
  rcases h.parents c t hr hc hne with h' | h' <;> rw [ht] at h' <;> cases h'

/-- What is above a node that is not done is split. -/
theorem WF.split_of_below (h : WF Sub root σ) (hr : InTree Sub root t) (hb : Below Sub c t)
    (hc : σ c ≠ none) (hd : σ c ≠ some .done) : σ t = some .split := by
  induction hb with
  | single hs =>
    refine (h.parents _ _ hr hs hc).resolve_right fun hdone => ?_
    exact hd (h.closed _ _ hr hs hdone hc)
  | @tail u t _ hs ih =>
    have hu : σ u = some .split := ih (.head hs hr)
    refine (h.parents u t hr hs (by rw [hu]; simp)).resolve_right fun hdone => ?_
    have := h.closed u t hr hs hdone (by rw [hu]; simp)
    rw [hu] at this
    cases this

/-- Some nodes are done that were not. -/
theorem WF.done (h : WF Sub root σ) (hkeep : ∀ k, σ' k = σ k ∨ σ k ≠ none ∧ σ' k = some .done)
    (hnew : ∀ c t, InTree Sub root t → Sub c t → σ' t = some .done → σ t ≠ some .done → σ c ≠ none →
      σ' c = some .done) : WF Sub root σ' := by
  have hthere : ∀ k, σ' k ≠ none ↔ σ k ≠ none := by
    intro k
    rcases hkeep k with he | ⟨hne, hd⟩
    · rw [he]
    · simp [hd, hne]
  have hmono : ∀ k, σ k = some .done → σ' k = some .done := by
    intro k hk
    rcases hkeep k with he | ⟨-, hd⟩
    · rw [he, hk]
    · exact hd
  refine ⟨(hthere root).mpr h.there, fun c t hr hc hne => ?_, fun c t hr hc ht hne => ?_⟩
  · rcases h.parents c t hr hc ((hthere c).mp hne) with hs | hd
    · exact (hkeep t).imp (fun he => he.trans hs) And.right
    · exact Or.inr (hmono t hd)
  · by_cases hd : σ t = some .done
    · exact hmono c (h.closed c t hr hc hd ((hthere c).mp hne))
    · exact hnew c t hr hc ht hd ((hthere c).mp hne)

/-- A node is split. -/
theorem WF.split (hN : Naming Sub) (h : WF Sub root σ) (hr : InTree Sub root t) {cs : Set K}
    (ht : σ t = some .active) (hcs : ∀ c ∈ cs, Sub c t) (hsplit : σ' t = some .split)
    (hold : ∀ k, k ≠ t → k ∉ cs → σ' k = σ k) : WF Sub root σ' := by
  have hnone : ∀ c ∈ cs, σ c = none := fun c hc => h.none_of_active hr ht (hcs c hc)
  -- a new node has no children yet
  have hdeep : ∀ u c, c ∈ cs → Sub u c → σ' u = none := by
    intro u c hc hu
    have hut : u ≠ t := fun he => hN.acyclic t (.tail (.single (he ▸ hu)) (hcs c hc))
    have hucs : u ∉ cs := by
      intro hmem
      have hct : c = t := hN.parent hu (hcs u hmem)
      have hsub := hcs c hc
      rw [hct] at hsub
      exact hN.irrefl hsub
    rw [hold u hut hucs]
    by_contra hne
    rcases h.parents u c (.head (hcs c hc) hr) hu hne with h' | h' <;> rw [hnone c hc] at h' <;>
      cases h'
  have hthere : ∀ k, k ∉ cs → σ' k ≠ none → σ k ≠ none := by
    intro k hk hne
    by_cases hkt : k = t
    · rw [hkt, ht]
      simp
    · rwa [hold k hkt hk] at hne
  refine ⟨?_, fun c t' hr' hc hne => ?_, fun c t' hr' hc hdone hne => ?_⟩
  · by_cases hrt : root = t
    · rw [hrt, hsplit]
      simp
    · rw [hold root hrt fun hmem => h.there (hnone root hmem)]
      exact h.there
  · by_cases ht' : t' = t
    · exact Or.inl (ht' ▸ hsplit)
    · have hmem : t' ∉ cs := fun hmem => hne (hdeep c t' hmem hc)
      have hcmem : c ∉ cs := fun hcmem => ht' (hN.parent hc (hcs c hcmem))
      rw [hold t' ht' hmem]
      exact h.parents c t' hr' hc (hthere c hcmem hne)
  · have ht' : t' ≠ t := by
      rintro rfl
      rw [hsplit] at hdone
      cases hdone
    have hmem : t' ∉ cs := fun hmem => hne (hdeep c t' hmem hc)
    have hcmem : c ∉ cs := fun hcmem => ht' (hN.parent hc (hcs c hcmem))
    rw [hold t' ht' hmem] at hdone
    have hcd : σ c = some .done := h.closed c t' hr' hc hdone (hthere c hcmem hne)
    rw [hold c (fun he => ?_) hcmem]
    · exact hcd
    · rw [he, ht] at hcd
      cases hcd

/-- The node a step is about. -/
def Label.At : Label K → K → Prop
  | .stay, _ => False
  | .split t _, k => k = t
  | .finish c, k => k = c

theorem WF.step (hN : Naming Sub) (h : WF Sub root σ) (hl : ∀ k, l.At k → InTree Sub root k)
    (hs : Step Sub σ l σ') : WF Sub root σ' := by
  cases hs with
  | stay hsame =>
    obtain rfl : σ' = σ := funext hsame
    exact h
  | @split t cs _ ht hcs hsplit _ hold => exact h.split hN (hl t rfl) ht hcs hsplit hold
  | @finish c _ hc hdone hparent hold =>
    refine h.done (fun k => ?_) fun u t hr hu htd hnd hne => ?_
    · by_cases hkc : k = c
      · rw [hkc, hc]
        exact Or.inr ⟨by simp, hdone⟩
      · by_cases hf : Finishes Sub σ c k
        · exact Or.inr ⟨by simp [hf.2.1], hparent k hf⟩
        · exact Or.inl (hold k hkc hf)
    · by_cases htc : t = c
      · exact absurd (h.none_of_active (hl c rfl) hc (htc ▸ hu)) hne
      · by_cases hf : Finishes Sub σ c t
        · rcases hf.2.2 u hu hne with rfl | hud
          · exact hdone
          · by_cases hfu : Finishes Sub σ c u
            · exact hparent u hfu
            · by_cases huc : u = c
              · exact huc ▸ hdone
              · rw [hold u huc hfu, hud]
        · rw [hold t htc hf] at htd
          exact absurd htd hnd

/-! ## Along a run -/

/-- A stuck node stays stuck. -/
theorem Stuck.step (hN : Naming Sub) (h : WF Sub root σ) (hl : ∀ k, l.At k → InTree Sub root k)
    (hst : Stuck Sub t σ) (hs : Step Sub σ l σ') : Stuck Sub t σ' := by
  obtain ⟨hsplit, hno⟩ := hst
  cases hs with
  | stay hsame =>
    obtain rfl : σ' = σ := funext hsame
    exact ⟨hsplit, hno⟩
  | @split u cs _ hu hcs husplit hnew hold =>
    have hnone : ∀ c ∈ cs, σ c = none := fun c hc => h.none_of_active (hl u rfl) hu (hcs c hc)
    have htu : t ≠ u := by
      rintro rfl
      rw [hsplit] at hu
      cases hu
    refine ⟨?_, fun c hb hc => ?_⟩
    · rw [hold t htu fun hmem => ?_]
      · exact hsplit
      · rw [hnone t hmem] at hsplit
        cases hsplit
    · by_cases hcu : c = u
      · exact hno c hb (hcu ▸ hu)
      · by_cases hmem : c ∈ cs
        · rcases hN.below (hcs c hmem) hb with he | hbu
          · exact htu he.symm
          · exact hno u hbu hu
        · rw [hold c hcu hmem] at hc
          exact hno c hb hc
  | @finish c _ hc hdone hparent hold =>
    have htc : t ≠ c := by
      rintro rfl
      rw [hsplit] at hc
      cases hc
    refine ⟨?_, fun u hb hu => ?_⟩
    · rw [hold t htc fun hf => hno c (.single hf.1) hc]
      exact hsplit
    · by_cases huc : u = c
      · rw [huc, hdone] at hu
        cases hu
      · by_cases hf : Finishes Sub σ c u
        · rw [hparent u hf] at hu
          cases hu
        · rw [hold u huc hf] at hu
          exact hno u hb hu

/-- A step that does not meet `Cond` leaves a node stuck. -/
theorem exists_stuck (hN : Naming Sub) (h : WF Sub root σ) (hl : ∀ k, l.At k → InTree Sub root k)
    (hs : Step Sub σ l σ') (hno : ¬ Cond Sub root σ l) : ∃ t, InTree Sub root t ∧ Stuck Sub t σ' := by
  cases hs with
  | stay => exact absurd trivial hno
  | @split t cs _ ht hcs hsplit hnew hold =>
    obtain rfl : cs = ∅ := Set.not_nonempty_iff_eq_empty.mp hno
    refine ⟨t, hl t rfl, hsplit, fun c hb hc => ?_⟩
    rw [hold c (hN.ne_of_below hb) (Set.notMem_empty c)] at hc
    have hts := h.split_of_below (hl t rfl) hb (by rw [hc]; simp) (by rw [hc]; simp)
    rw [ht] at hts
    cases hts
  | @finish c _ hc hdone hparent hold =>
    simp only [Cond, not_forall, not_or, not_exists, not_and] at hno
    obtain ⟨t, hr, hb, hns, hno⟩ := hno
    have hts : σ t = some .split := h.split_of_below hr hb (by rw [hc]; simp) (by rw [hc]; simp)
    refine ⟨t, hr, ?_, fun u hbu hu => ?_⟩
    · rw [hold t (hN.ne_of_below hb).symm fun hf => hns hf.1]
      exact hts
    · by_cases huc : u = c
      · rw [huc, hdone] at hu
        cases hu
      · by_cases hf : Finishes Sub σ c u
        · rw [hparent u hf] at hu
          cases hu
        · rw [hold u huc hf] at hu
          exact hno u huc hbu hu

/-- When no other active node is below the parent of `c`, its other children are done. -/
theorem allDone_of_last (hN : Naming Sub) (hb : Busy Sub root σ) (hr : InTree Sub root t) (hc : Sub c t)
    (hlast : ∀ c', c' ≠ c → Below Sub c' t → σ c' ≠ some .active) : AllDone Sub σ c t := by
  intro u hu hne
  by_cases huc : u = c
  · exact Or.inl huc
  · refine Or.inr ?_
    match hσ : σ u with
    | none => exact absurd hσ hne
    | some .done => rfl
    | some .active => exact absurd hσ (hlast u huc (.single hu))
    | some .split =>
      obtain ⟨c', hb', hc'⟩ := hb u (.head hu hr) hσ
      have hcc : c' = c := by
        by_contra hcc
        exact hlast c' hcc (.tail hb' hu) hc'
      rcases hN.below hc (hcc ▸ hb') with he | htu
      · exact absurd (he ▸ hu) hN.irrefl
      · exact absurd (.tail htu hu) (hN.acyclic t)

/-- Under `Cond` every split node keeps an active one below. -/
theorem Busy.step (hN : Naming Sub) (h : WF Sub root σ) (hb : Busy Sub root σ)
    (hl : ∀ k, l.At k → InTree Sub root k) (hcond : Cond Sub root σ l) (hs : Step Sub σ l σ') :
    Busy Sub root σ' := by
  intro t hr ht
  cases hs with
  | stay hsame =>
    obtain rfl : σ' = σ := funext hsame
    exact hb t hr ht
  | @split u cs _ hu hcs husplit hnew hold =>
    obtain ⟨c₁, hc₁⟩ := hcond
    by_cases htu : t = u
    · exact ⟨c₁, .single (htu ▸ hcs c₁ hc₁), hnew c₁ hc₁⟩
    · have hmem : t ∉ cs := by
        intro hmem
        rw [hnew t hmem] at ht
        cases ht
      rw [hold t htu hmem] at ht
      obtain ⟨c, hbc, hc⟩ := hb t hr ht
      by_cases hcu : c = u
      · exact ⟨c₁, .head (hcs c₁ hc₁) (hcu ▸ hbc), hnew c₁ hc₁⟩
      · have hcmem : c ∉ cs := by
          intro hcmem
          rw [h.none_of_active (hl u rfl) hu (hcs c hcmem)] at hc
          cases hc
        exact ⟨c, hbc, (hold c hcu hcmem).trans hc⟩
  | @finish c _ hc hdone hparent hold =>
    have htc : t ≠ c := by
      rintro rfl
      rw [hdone] at ht
      cases ht
    have hnf : ¬ Finishes Sub σ c t := by
      intro hf
      rw [hparent t hf] at ht
      cases ht
    rw [hold t htc hnf] at ht
    have hkeep : ∀ c', c' ≠ c → σ c' = some .active → σ' c' = some .active := by
      intro c' hne hc'
      rw [hold c' hne fun hf => ?_]
      · exact hc'
      · rw [hf.2.1] at hc'
        cases hc'
    by_contra hno
    have hlast : ∀ c', c' ≠ c → Below Sub c' t → σ c' ≠ some .active :=
      fun c' hne hbc hc' => hno ⟨c', hbc, hkeep c' hne hc'⟩
    obtain ⟨c', hbc, hc'⟩ := hb t hr ht
    obtain rfl : c' = c := by
      by_contra hne
      exact hlast c' hne hbc hc'
    rcases hcond t hr hbc with hsub | ⟨c'', hne, hb'', hc''⟩
    · exact hnf ⟨hsub, ht, allDone_of_last hN hb hr hsub hlast⟩
    · exact hlast c'' hne hb'' hc''

/-- The steps of a run are in the tree. -/
def Inside (root : K) (steps : List (State K × Label K)) : Prop :=
  ∀ x ∈ steps, ∀ k, x.2.At k → InTree Sub root k

theorem Stuck.trace (hN : Naming Sub) :
    ∀ {steps : List (State K × Label K)} {σ : State K}, WF Sub root σ → @Inside _ Sub root steps →
      Stuck Sub t σ → Trace Sub σ steps σ' → Stuck Sub t σ'
  | [], _, _, _, hst, .nil => hst
  | (_, l) :: steps, σ, h, hin, hst, .cons hs ht => by
    have hl := hin (σ, l) List.mem_cons_self
    exact Stuck.trace hN (h.step hN hl hs) (fun x hx => hin x (List.mem_cons_of_mem _ hx))
      (hst.step hN h hl hs) ht

/-- **When the tree finishes.** With no active node left, the root is done and no node split if and only
if every step has met `Cond`. -/
theorem done_iff (hN : Naming Sub) {steps : List (State K × Label K)} :
    ∀ {σ : State K}, WF Sub root σ → Busy Sub root σ → @Inside _ Sub root steps →
      Trace Sub σ steps σ' → (∀ c, InTree Sub root c → σ' c ≠ some .active) →
      ((σ' root = some .done ∧ ∀ t, InTree Sub root t → σ' t ≠ some .split) ↔
        ∀ x ∈ steps, Cond Sub root x.1 x.2) := by
  induction steps with
  | nil =>
    intro σ h hb _ ht hleaf
    cases ht
    refine ⟨fun _ x hx => absurd hx List.not_mem_nil, fun _ => ?_⟩
    have hsplit : ∀ t, InTree Sub root t → σ' t ≠ some .split := by
      intro t hr hs
      obtain ⟨c, hbc, hc⟩ := hb t hr hs
      exact hleaf c (inTree_of_below hr hbc) hc
    refine ⟨?_, hsplit⟩
    match hσ : σ' root with
    | none => exact absurd hσ h.there
    | some .done => rfl
    | some .active => exact absurd hσ (hleaf root .refl)
    | some .split => exact absurd hσ (hsplit root .refl)
  | cons x steps ih =>
    intro σ h hb hin ht hleaf
    cases ht with
    | @cons _ σ₁ _ l _ hs ht =>
      have hl := hin (σ, l) List.mem_cons_self
      have hrest : @Inside _ Sub root steps := fun x hx => hin x (List.mem_cons_of_mem _ hx)
      have h₁ : WF Sub root σ₁ := h.step hN hl hs
      rw [List.forall_mem_cons]
      by_cases hcond : Cond Sub root σ l
      · rw [ih h₁ (hb.step hN h hl hcond hs) hrest ht hleaf]
        exact (and_iff_right hcond).symm
      · obtain ⟨t, hr, hst⟩ := exists_stuck hN h hl hs hcond
        have hend : Stuck Sub t σ' := hst.trace hN h₁ hrest ht
        exact ⟨fun hd => absurd hend.1 (hd.2 t hr), fun hd => absurd hd.1 hcond⟩

end ClaudeSwarm.Data.Forest
