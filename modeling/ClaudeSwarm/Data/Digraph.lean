import Mathlib.Data.List.Nodup
import Mathlib.Data.List.Lattice
import Mathlib.Logic.Relation

/-!
# Dependencies: cycles and layers

A relation given by the list of what each key depends on. `hasCycle` searches for a cycle depth first, with a
set of the keys being visited and a set of those that are done. `layers` takes, again and again, the keys all
of whose dependencies have been taken.

* `Postorder`: a list in which each key comes with all its dependencies after it. The keys a search without a
  cycle is done with are such a list (`hasCycle_spec`, `firstCycle_spec`).
* `hasCycle_stable`: with the depth for all keys, more of it changes nothing.
* `search_eq`, `searchFirst_eq`: the search is never nested deeper than that.
* **`firstCycle_eq_none_iff`**: it finds no cycle exactly where there is none.
* `deps_of_layers`: a key's dependencies are in the layers before its own.
* **`mem_layers`**: keys in postorder are all in some layer.
-/

namespace ClaudeSwarm.Data.Digraph

variable {K : Type} [DecidableEq K] (deps : K → List K)

/-! ## Searching for a cycle -/

/-- The sets of a search. -/
structure Search (K : Type) where
  visiting : List K
  visited : List K

/-- The loop over the dependencies of a key. -/
def anyCycle (f : K → Search K → Bool × Search K) : List K → Search K → Bool × Search K
  | [], s => (false, s)
  | d :: ds, s =>
    match f d s with
    | (true, s) => (true, s)
    | (false, s) => anyCycle f ds s

/-- A key that is being visited closes a cycle, one that is done does not; any other is entered. -/
def check (k : K) (s : Search K) (entered : Bool × Search K) : Bool × Search K :=
  if k ∈ s.visiting then (true, s)
  else if k ∈ s.visited then (false, s)
  else entered

/-- Whether the search comes back to a key it is visiting; `depth` bounds the nesting. -/
def hasCycle : (depth : Nat) → K → Search K → Bool × Search K
  | 0, k, s => check k s (true, s)
  | depth + 1, k, s =>
    check k s
      (match anyCycle (hasCycle depth) (deps k) ⟨k :: s.visiting, s.visited⟩ with
        | (true, s) => (true, s)
        | (false, s) => (false, ⟨s.visiting.erase k, k :: s.visited⟩))

/-- The first of some keys from which a cycle is found. -/
def firstCycle (depth : Nat) : List K → Search K → Option K
  | [], _ => none
  | k :: ks, s =>
    match hasCycle deps depth k s with
    | (true, _) => some k
    | (false, s) => firstCycle depth ks s

/-- Each key comes with its dependencies after it. -/
def Postorder : List K → Prop
  | [] => True
  | k :: ks => (∀ d ∈ deps k, d ∈ ks) ∧ Postorder ks

variable {deps}

/-- What a search that found no cycle has done. -/
structure Done (deps : K → List K) (s s' : Search K) (k : K) : Prop where
  postorder : Postorder deps s.visited → Postorder deps s'.visited
  mono : s.visited ⊆ s'.visited
  visiting : s'.visiting = s.visiting
  mem : k ∈ s'.visited

omit [DecidableEq K] in
theorem anyCycle_spec {f : K → Search K → Bool × Search K} {ks : List K}
    (hf : ∀ k ∈ ks, ∀ s s', f k s = (false, s') → Done deps s s' k) :
    ∀ {s s' : Search K}, anyCycle f ks s = (false, s') →
      (Postorder deps s.visited → Postorder deps s'.visited) ∧ s.visited ⊆ s'.visited ∧
        s'.visiting = s.visiting ∧ ∀ k ∈ ks, k ∈ s'.visited := by
  induction ks with
  | nil =>
    intro s s' h
    cases h
    exact ⟨id, List.Subset.refl _, rfl, by simp⟩
  | cons k ks ih =>
    intro s s' h
    rw [anyCycle] at h
    split at h
    · cases h
    · rename_i s₁ h₁
      have hdone := hf k List.mem_cons_self s s₁ h₁
      obtain ⟨hpost, hmono, hvis, hall⟩ := ih (fun k hk => hf k (List.mem_cons_of_mem _ hk)) h
      refine ⟨hpost ∘ hdone.postorder, List.Subset.trans hdone.mono hmono, hvis.trans hdone.visiting, fun k' hk' => ?_⟩
      rcases List.mem_cons.mp hk' with rfl | hk'
      · exact hmono hdone.mem
      · exact hall k' hk'

theorem check_eq_false {k : K} {s s' : Search K} {entered : Bool × Search K}
    (h : check k s entered = (false, s')) : (k ∈ s.visited ∧ s' = s) ∨ entered = (false, s') := by
  unfold check at h
  split at h
  · cases h
  · split at h
    · cases h
      exact Or.inl ⟨‹_›, rfl⟩
    · exact Or.inr h

/-- **Search.** Without a cycle the key and what it depends on are done, each after its dependencies. -/
theorem hasCycle_spec : ∀ {depth : Nat} {k : K} {s s' : Search K}, hasCycle deps depth k s = (false, s') →
    Done deps s s' k
  | 0, k, s, s', h => by
    rcases check_eq_false h with ⟨hmem, rfl⟩ | h
    · exact ⟨id, List.Subset.refl _, rfl, hmem⟩
    · cases h
  | depth + 1, k, s, s', h => by
    rcases check_eq_false h with ⟨hmem, rfl⟩ | h
    · exact ⟨id, List.Subset.refl _, rfl, hmem⟩
    · split at h
      · cases h
      · rename_i s₁ h₁
        cases h
        obtain ⟨hpost, hmono, hvis, hall⟩ :=
          anyCycle_spec (fun k _ s s' => @hasCycle_spec depth k s s') h₁
        refine ⟨fun hp => ⟨hall, hpost hp⟩, fun a ha => List.mem_cons_of_mem _ (hmono ha), ?_, List.mem_cons_self⟩
        rw [hvis, List.erase_cons_head]

/-- Searches from one key after the other. -/
theorem firstCycle_spec {depth : Nat} : ∀ {ks : List K} {s : Search K}, firstCycle deps depth ks s = none →
    Postorder deps s.visited → ∃ order, Postorder deps order ∧ s.visited ⊆ order ∧ ∀ k ∈ ks, k ∈ order
  | [], s, _, hp => ⟨s.visited, hp, List.Subset.refl _, by simp⟩
  | k :: ks, s, h, hp => by
    rw [firstCycle] at h
    split at h
    · cases h
    · rename_i s₁ h₁
      have hdone := hasCycle_spec h₁
      obtain ⟨order, hpost, hsub, hall⟩ := firstCycle_spec h (hdone.postorder hp)
      refine ⟨order, hpost, List.Subset.trans hdone.mono hsub, fun k' hk' => ?_⟩
      rcases List.mem_cons.mp hk' with rfl | hk'
      · exact hsub hdone.mem
      · exact hall k' hk'

/-- How many of the keys that have dependencies are not being visited. -/
def unvisited (keys visiting : List K) : Nat := (keys.filter fun k => k ∉ visiting).length

omit [DecidableEq K] in
theorem anyCycle_congr {f g : K → Search K → Bool × Search K} {P : Search K → Prop}
    (hfg : ∀ k s, P s → f k s = g k s) (hP : ∀ k s s', P s → g k s = (false, s') → P s') :
    ∀ (ks : List K) {s : Search K}, P s → anyCycle f ks s = anyCycle g ks s
  | [], _, _ => rfl
  | k :: ks, s, hs => by
    rw [anyCycle, anyCycle, hfg k s hs]
    split
    · rfl
    · rename_i s₁ h₁
      exact anyCycle_congr hfg hP ks (hP k s s₁ hs h₁)

/-- Visiting one more of the keys. -/
theorem unvisited_cons {keys visiting : List K} {k : K} (hk : k ∈ keys) (hnot : k ∉ visiting) :
    unvisited keys (k :: visiting) < unvisited keys visiting := by
  have hfilter : (keys.filter fun a => a ∉ k :: visiting) =
      (keys.filter fun a => a ∉ visiting).filter fun a => a ≠ k := by
    rw [List.filter_filter]
    exact List.filter_congr fun a _ => by simp [not_or]
  unfold unvisited
  rw [hfilter]
  exact List.length_filter_lt_length_iff_exists.mpr ⟨k, List.mem_filter.mpr ⟨hk, by simpa using hnot⟩, by simp⟩

/-- **Depth.** The depth of all keys is enough. -/
theorem hasCycle_stable {keys : List K} (hkeys : ∀ k, deps k ≠ [] → k ∈ keys) :
    ∀ {depth : Nat} {k : K} {s : Search K}, unvisited keys s.visiting < depth →
      hasCycle deps (depth + 1) k s = hasCycle deps depth k s
  | 0, _, _, h => absurd h (Nat.not_lt_zero _)
  | depth + 1, k, s, h => by
    rw [hasCycle, hasCycle]
    by_cases hk : k ∈ s.visiting
    · rw [check, check, if_pos hk, if_pos hk]
    · have hany : anyCycle (hasCycle deps (depth + 1)) (deps k) ⟨k :: s.visiting, s.visited⟩ =
          anyCycle (hasCycle deps depth) (deps k) ⟨k :: s.visiting, s.visited⟩ := by
        by_cases hd : deps k = []
        · rw [hd]
          rfl
        · have hlt := unvisited_cons (hkeys k hd) hk
          refine anyCycle_congr (P := fun s' => unvisited keys s'.visiting < depth) (fun k' s' hs' => ?_)
            (fun k' s' s'' hs' hf => ?_) _ (by dsimp only; omega)
          · exact hasCycle_stable hkeys hs'
          · rw [(hasCycle_spec hf).visiting]
            exact hs'
      rw [hany]

/-! ## The nesting -/

variable (deps)

/-- The loop over the dependencies of a key, as far as the searches end. -/
def searchAny (f : K → Search K → Option (Bool × Search K)) : List K → Search K → Option (Bool × Search K)
  | [], s => some (false, s)
  | d :: ds, s =>
    match f d s with
    | none => none
    | some (true, s) => some (true, s)
    | some (false, s) => searchAny f ds s

/-- `hasCycle`, or `none` where it is nested deeper than `depth`. -/
def search : (depth : Nat) → K → Search K → Option (Bool × Search K)
  | 0, _, _ => none
  | depth + 1, k, s =>
    if k ∈ s.visiting then some (true, s)
    else if k ∈ s.visited then some (false, s)
    else
      match searchAny (search depth) (deps k) ⟨k :: s.visiting, s.visited⟩ with
      | none => none
      | some (true, s) => some (true, s)
      | some (false, s) => some (false, ⟨s.visiting.erase k, k :: s.visited⟩)

/-- `firstCycle`, or `none` where a search is nested deeper than `depth`. -/
def searchFirst (depth : Nat) : List K → Search K → Option (Option K)
  | [], _ => some none
  | k :: ks, s =>
    match search deps depth k s with
    | none => none
    | some (true, _) => some (some k)
    | some (false, s) => searchFirst depth ks s

variable {deps}

omit [DecidableEq K] in
theorem searchAny_eq {f : K → Search K → Option (Bool × Search K)} {g : K → Search K → Bool × Search K}
    {P : Search K → Prop} (hfg : ∀ k s, P s → f k s = some (g k s))
    (hP : ∀ k s s', P s → g k s = (false, s') → P s') :
    ∀ (ks : List K) {s : Search K}, P s → searchAny f ks s = some (anyCycle g ks s)
  | [], _, _ => rfl
  | k :: ks, s, hs => by
    rw [searchAny, anyCycle, hfg k s hs]
    rcases hg : g k s with ⟨b, s₁⟩
    cases b with
    | true => rfl
    | false => exact searchAny_eq hfg hP ks (hP k s s₁ hs hg)

/-- **Nesting.** A search is not nested deeper than there are keys to visit. -/
theorem search_eq {keys : List K} (hkeys : ∀ k, deps k ≠ [] → k ∈ keys) :
    ∀ {depth : Nat} {k : K} {s : Search K}, unvisited keys s.visiting < depth →
      search deps depth k s = some (hasCycle deps depth k s)
  | 0, _, _, h => absurd h (Nat.not_lt_zero _)
  | depth + 1, k, s, h => by
    rw [search, hasCycle, check]
    by_cases hk : k ∈ s.visiting
    · rw [if_pos hk, if_pos hk]
    rw [if_neg hk, if_neg hk]
    by_cases hv : k ∈ s.visited
    · rw [if_pos hv, if_pos hv]
    rw [if_neg hv, if_neg hv]
    have hany : searchAny (search deps depth) (deps k) ⟨k :: s.visiting, s.visited⟩ =
        some (anyCycle (hasCycle deps depth) (deps k) ⟨k :: s.visiting, s.visited⟩) := by
      by_cases hd : deps k = []
      · rw [hd]
        rfl
      · have hlt := unvisited_cons (hkeys k hd) hk
        refine searchAny_eq (P := fun s' => unvisited keys s'.visiting < depth) (fun k' s' hs' => ?_)
          (fun k' s' s'' hs' hf => ?_) _ (by dsimp only; omega)
        · exact search_eq hkeys hs'
        · rw [(hasCycle_spec hf).visiting]
          exact hs'
    rw [hany]
    rcases anyCycle (hasCycle deps depth) (deps k) ⟨k :: s.visiting, s.visited⟩ with ⟨b, s₁⟩
    cases b <;> rfl

theorem searchFirst_eq {keys : List K} (hkeys : ∀ k, deps k ≠ [] → k ∈ keys) {depth : Nat} :
    ∀ {ks : List K} {s : Search K}, unvisited keys s.visiting < depth →
      searchFirst deps depth ks s = some (firstCycle deps depth ks s)
  | [], _, _ => rfl
  | k :: ks, s, h => by
    rw [searchFirst, firstCycle, search_eq hkeys h]
    rcases hs : hasCycle deps depth k s with ⟨b, s₁⟩
    cases b with
    | true => rfl
    | false => exact searchFirst_eq hkeys ((hasCycle_spec hs).visiting ▸ h)

theorem firstCycle_succ {keys : List K} (hkeys : ∀ k, deps k ≠ [] → k ∈ keys) {depth : Nat} :
    ∀ {ks : List K} {s : Search K}, unvisited keys s.visiting < depth →
      firstCycle deps (depth + 1) ks s = firstCycle deps depth ks s
  | [], _, _ => rfl
  | k :: ks, s, h => by
    rw [firstCycle, firstCycle, hasCycle_stable hkeys h]
    rcases hs : hasCycle deps depth k s with ⟨b, s₁⟩
    cases b with
    | true => rfl
    | false => exact firstCycle_succ hkeys ((hasCycle_spec hs).visiting ▸ h)

theorem firstCycle_stable {keys : List K} (hkeys : ∀ k, deps k ≠ [] → k ∈ keys) {ks : List K} {s : Search K}
    {depth depth' : Nat} (h : unvisited keys s.visiting < depth) (hle : depth ≤ depth') :
    firstCycle deps depth' ks s = firstCycle deps depth ks s := by
  induction hle with
  | refl => rfl
  | step hle ih => rw [firstCycle_succ hkeys (Nat.lt_of_lt_of_le h hle), ih]

/-! ## Cycles -/

/-- `a` depends on `b`. -/
def Edge (deps : K → List K) (a b : K) : Prop := b ∈ deps a

omit [DecidableEq K] in
/-- What is reached from a list in postorder is in it. -/
theorem Postorder.mem_of_reached {a b : K} (hreached : Relation.ReflTransGen (Edge deps) a b) :
    ∀ {order : List K}, Postorder deps order → a ∈ order → b ∈ order := by
  have hdep : ∀ {order : List K}, Postorder deps order → ∀ k ∈ order, ∀ d ∈ deps k, d ∈ order := by
    intro order
    induction order with
    | nil => simp
    | cons k ks ih =>
      intro hpost k' hk' d hd
      rcases List.mem_cons.mp hk' with rfl | hk'
      · exact List.mem_cons_of_mem _ (hpost.1 d hd)
      · exact List.mem_cons_of_mem _ (ih hpost.2 k' hk' d hd)
  induction hreached with
  | refl => exact fun _ ha => ha
  | tail _ hedge ih => exact fun hpost ha => hdep hpost _ (ih hpost ha) _ hedge

omit [DecidableEq K] in
/-- **Soundness of postorder.** No key in it reaches itself. -/
theorem Postorder.acyclic : ∀ {order : List K}, Postorder deps order → ∀ k ∈ order,
    ¬ Relation.TransGen (Edge deps) k k
  | [], _, _, h => absurd h List.not_mem_nil
  | k :: ks, ⟨hdeps, hpost⟩, k', hk' => by
    by_cases hmem : k' ∈ ks
    · exact hpost.acyclic k' hmem
    · obtain rfl : k' = k := (List.mem_cons.mp hk').resolve_right hmem
      intro hcycle
      obtain ⟨d, hedge, hreached⟩ := Relation.TransGen.head'_iff.mp hcycle
      exact hmem (hpost.mem_of_reached hreached (hdeps d hedge))

omit [DecidableEq K] in
/-- The loop ends at the first dependency from which a cycle is found. -/
theorem exists_of_anyCycle {f : K → Search K → Bool × Search K} {P : Search K → Prop}
    (hP : ∀ k s s', P s → f k s = (false, s') → P s') : ∀ {ks : List K} {s s' : Search K}, P s →
      anyCycle f ks s = (true, s') → ∃ k ∈ ks, ∃ s₁, P s₁ ∧ f k s₁ = (true, s')
  | [], _, _, _, h => by cases (Prod.mk.inj h).1
  | k :: ks, s, s', hs, h => by
    rw [anyCycle] at h
    rcases hf : f k s with ⟨b, s₁⟩
    rw [hf] at h
    cases b with
    | true =>
      cases h
      exact ⟨k, List.mem_cons_self, s, hs, hf⟩
    | false =>
      obtain ⟨k', hk', hfound⟩ := exists_of_anyCycle hP (hP k s s₁ hs hf) h
      exact ⟨k', List.mem_cons_of_mem _ hk', hfound⟩

/-- **A cycle that is found is one**: the keys being visited are on the way to the next one. -/
theorem hasCycle_sound {keys : List K} (hkeys : ∀ k, deps k ≠ [] → k ∈ keys) :
    ∀ {depth : Nat} {k : K} {s s' : Search K}, unvisited keys s.visiting < depth →
      (∀ v ∈ s.visiting, Relation.TransGen (Edge deps) v k) → hasCycle deps depth k s = (true, s') →
      ∃ a, Relation.TransGen (Edge deps) a a
  | 0, _, _, _, h, _, _ => absurd h (Nat.not_lt_zero _)
  | depth + 1, k, s, s', h, hpath, hfound => by
    rw [hasCycle, check] at hfound
    by_cases hk : k ∈ s.visiting
    · exact ⟨k, hpath k hk⟩
    rw [if_neg hk] at hfound
    by_cases hv : k ∈ s.visited
    · rw [if_pos hv] at hfound
      cases (Prod.mk.inj hfound).1
    rw [if_neg hv] at hfound
    rcases hany : anyCycle (hasCycle deps depth) (deps k) ⟨k :: s.visiting, s.visited⟩ with ⟨b, s₁⟩
    rw [hany] at hfound
    cases b with
    | false => cases (Prod.mk.inj hfound).1
    | true =>
      obtain ⟨d, hd, s₂, hvisiting, hf⟩ := exists_of_anyCycle (P := fun s₁ => s₁.visiting = k :: s.visiting)
        (fun _ _ _ hs₁ hf => (hasCycle_spec hf).visiting.trans hs₁) rfl hany
      have hlt := unvisited_cons (hkeys k (List.ne_nil_of_mem hd)) hk
      refine hasCycle_sound hkeys (by rw [hvisiting]; omega) (fun v hmem => ?_) hf
      rw [hvisiting] at hmem
      rcases List.mem_cons.mp hmem with rfl | hmem
      · exact Relation.TransGen.single hd
      · exact (hpath v hmem).tail hd

theorem firstCycle_sound {keys : List K} (hkeys : ∀ k, deps k ≠ [] → k ∈ keys) {depth : Nat} {k : K} :
    ∀ {ks : List K} {s : Search K}, unvisited keys s.visiting < depth → s.visiting = [] →
      firstCycle deps depth ks s = some k → ∃ a, Relation.TransGen (Edge deps) a a
  | [], _, _, _, h => by cases h
  | k' :: ks, s, hlt, hnil, h => by
    rw [firstCycle] at h
    rcases hs : hasCycle deps depth k' s with ⟨b, s₁⟩
    rw [hs] at h
    cases b with
    | true => exact hasCycle_sound hkeys hlt (by simp [hnil]) hs
    | false =>
      have hvisiting := (hasCycle_spec hs).visiting
      exact firstCycle_sound hkeys (hvisiting ▸ hlt) (hvisiting.trans hnil) h

omit [DecidableEq K] in
theorem unvisited_lt [DecidableEq K] {keys visiting : List K} {depth : Nat} (h : keys.length < depth) :
    unvisited keys visiting < depth :=
  Nat.lt_of_le_of_lt (List.length_filter_le _ _) h

/-- **Exactness.** Among keys with all that have dependencies no cycle is found exactly where there is none. -/
theorem firstCycle_eq_none_iff {keys : List K} (hkeys : ∀ k, deps k ≠ [] → k ∈ keys) {depth : Nat}
    (hdepth : keys.length < depth) : firstCycle deps depth keys ⟨[], []⟩ = none ↔
      ∀ k, ¬ Relation.TransGen (Edge deps) k k := by
  constructor
  · intro h k hcycle
    obtain ⟨order, hpost, -, horder⟩ := firstCycle_spec h trivial
    obtain ⟨d, hedge, -⟩ := Relation.TransGen.head'_iff.mp hcycle
    exact hpost.acyclic k (horder k (hkeys k (List.ne_nil_of_mem hedge))) hcycle
  · intro h
    cases hfirst : firstCycle deps depth keys ⟨[], []⟩ with
    | none => rfl
    | some k =>
      obtain ⟨a, hcycle⟩ := firstCycle_sound hkeys (unvisited_lt hdepth) rfl hfirst
      exact absurd hcycle (h a)

/-! ## Layers -/

variable (deps)

/-- The keys that have not been taken and whose dependencies have. -/
def ready (keys completed : List K) : List K :=
  keys.filter fun k => k ∉ completed ∧ ∀ d ∈ deps k, d ∈ completed

/-- One layer of ready keys after the other, until `size` keys are taken or none is ready. -/
def layers (keys : List K) (size : Nat) : (rounds : Nat) → (completed : List K) → List (List K)
  | 0, _ => []
  | rounds + 1, completed =>
    if completed.length < size then
      match ready deps keys completed with
      | [] => []
      | layer => layer :: layers keys size rounds (completed ++ layer)
    else []

variable {deps}

theorem mem_ready {keys completed : List K} {k : K} :
    k ∈ ready deps keys completed ↔ k ∈ keys ∧ k ∉ completed ∧ ∀ d ∈ deps k, d ∈ completed := by
  simp [ready]

theorem layers_cons {keys : List K} {size rounds : Nat} {completed layer : List K} {rest : List (List K)}
    (h : layers deps keys size (rounds + 1) completed = layer :: rest) :
    layer = ready deps keys completed ∧ layer ≠ [] ∧ rest = layers deps keys size rounds (completed ++ layer) := by
  rw [layers] at h
  split at h
  · split at h
    · cases h
    · rename_i hne
      cases h
      exact ⟨rfl, fun he => hne (by rw [he]), rfl⟩
  · cases h

/-- A round takes a key, so more rounds than there are keys to take change nothing. -/
theorem layers_stable {keys : List K} {size : Nat} : ∀ {rounds : Nat} {completed : List K},
    size ≤ completed.length + rounds → layers deps keys size (rounds + 1) completed = layers deps keys size rounds completed
  | 0, completed, h => by rw [layers, layers, if_neg (by omega)]
  | rounds + 1, completed, h => by
    rw [layers, layers]
    split
    · split
      · rfl
      · rename_i hne
        have hpos : 0 < (ready deps keys completed).length := List.length_pos_iff.mpr hne
        rw [layers_stable (by rw [List.length_append]; omega)]
    · rfl

/-- **Order.** A key in a layer was not in one before it, and its dependencies were. -/
theorem deps_of_layers {keys : List K} {size : Nat} : ∀ {rounds : Nat} {completed : List K}
    {before after : List (List K)} {layer : List K},
    layers deps keys size rounds completed = before ++ layer :: after → ∀ k ∈ layer,
      k ∈ keys ∧ k ∉ completed ++ before.flatten ∧ ∀ d ∈ deps k, d ∈ completed ++ before.flatten
  | 0, _, before, _, _, h => by
    rw [layers] at h
    exact absurd h.symm (by simp)
  | rounds + 1, completed, [], after, layer, h => by
    obtain ⟨rfl, -, -⟩ := layers_cons h
    intro k hk
    simpa using mem_ready.mp hk
  | rounds + 1, completed, first :: before, after, layer, h => by
    obtain ⟨-, -, hrest⟩ := layers_cons h
    have ih := deps_of_layers hrest.symm
    simpa [List.append_assoc] using ih

/-- The layers have no key twice. -/
theorem nodup_layers {keys : List K} {size : Nat} (hkeys : keys.Nodup) :
    ∀ {rounds : Nat} {completed : List K}, (layers deps keys size rounds completed).flatten.Nodup
  | 0, _ => by
    rw [layers]
    exact List.nodup_nil
  | rounds + 1, completed => by
    cases hl : layers deps keys size (rounds + 1) completed with
    | nil => exact List.nodup_nil
    | cons first rest =>
      obtain ⟨hfirst, -, hrest⟩ := layers_cons hl
      rw [List.flatten_cons, List.nodup_append]
      refine ⟨hfirst ▸ hkeys.filter _, hrest ▸ nodup_layers hkeys, fun a ha b hb he => ?_⟩
      subst he
      obtain ⟨layer, hlayer, hmem⟩ := List.mem_flatten.mp hb
      obtain ⟨before, after, hsplit⟩ := List.append_of_mem hlayer
      have hnot := (deps_of_layers (hrest ▸ hsplit) a hmem).2.1
      exact hnot (List.mem_append_left _ (List.mem_append_right _ ha))

/-- Of the keys that are left one is ready. -/
theorem exists_ready {keys completed : List K} (hdeps : ∀ k ∈ keys, ∀ d ∈ deps k, d ∈ keys) :
    ∀ {order : List K}, Postorder deps order → (∃ k ∈ order, k ∈ keys ∧ k ∉ completed) →
      ready deps keys completed ≠ []
  | [], _, h => by simp at h
  | k :: order, ⟨hk, hpost⟩, h => by
    by_cases hrest : ∃ k ∈ order, k ∈ keys ∧ k ∉ completed
    · exact exists_ready hdeps hpost hrest
    · obtain ⟨k', hk', hkeys, hnot⟩ := h
      have he : k' = k := (List.mem_cons.mp hk').resolve_right fun h' => hrest ⟨k', h', hkeys, hnot⟩
      subst he
      refine List.ne_nil_of_mem (mem_ready.mpr ⟨hkeys, hnot, fun d hd => ?_⟩)
      by_contra hd'
      exact hrest ⟨d, hk d hd, hdeps k' hkeys d hd, hd'⟩

/-- **Every key is taken**, if the keys are in postorder. -/
theorem mem_layers {keys order : List K} {size : Nat} (hkeys : keys.Nodup) (hsize : keys.length ≤ size)
    (hdeps : ∀ k ∈ keys, ∀ d ∈ deps k, d ∈ keys) (hpost : Postorder deps order) (horder : keys ⊆ order) :
    ∀ {rounds : Nat} {completed : List K}, completed.Nodup → completed ⊆ keys →
      unvisited keys completed ≤ rounds → ∀ k ∈ keys,
        k ∈ completed ++ (layers deps keys size rounds completed).flatten := by
  intro rounds
  induction rounds with
  | zero =>
    intro completed _ _ hzero k hk
    refine List.mem_append_left _ ?_
    by_contra hnot
    have hpos : 0 < unvisited keys completed :=
      List.length_pos_of_mem (List.mem_filter.mpr ⟨hk, by simpa using hnot⟩)
    omega
  | succ rounds ih =>
    intro completed hnodup hsub hrounds k hk
    by_cases hall : ∀ k ∈ keys, k ∈ completed
    · exact List.mem_append_left _ (hall k hk)
    · push Not at hall
      obtain ⟨k', hk', hnot⟩ := hall
      have hless : completed.length < size := by
        have hlt : completed.length < (k' :: completed).length := Nat.lt_succ_self _
        have hle : (k' :: completed).length ≤ keys.length := by
          refine (List.nodup_cons.mpr ⟨hnot, hnodup⟩).length_le_of_subset ?_
          exact List.cons_subset.mpr ⟨hk', hsub⟩
        omega
      have hready := exists_ready hdeps hpost ⟨k', horder hk', hk', hnot⟩
      rw [layers, if_pos hless]
      split
      · exact absurd ‹_› hready
      · rw [List.flatten_cons, ← List.append_assoc]
        refine ih ?_ ?_ ?_ k hk
        · rw [List.nodup_append]
          refine ⟨hnodup, hkeys.filter _, fun a ha b hb he => ?_⟩
          exact (mem_ready.mp hb).2.1 (he ▸ ha)
        · exact List.append_subset.mpr ⟨hsub, List.filter_subset_self _⟩
        · obtain ⟨r, hr⟩ := List.exists_mem_of_ne_nil _ hready
          obtain ⟨hrk, hrc, -⟩ := mem_ready.mp hr
          have hlt := unvisited_cons hrk hrc
          have hle : unvisited keys (completed ++ ready deps keys completed) ≤ unvisited keys (r :: completed) := by
            refine List.Sublist.length_le (List.monotone_filter_right keys fun a ha => ?_)
            simp only [decide_eq_true_eq, List.mem_append, List.mem_cons, not_or] at ha ⊢
            refine ⟨?_, ha.1⟩
            rintro rfl
            exact ha.2 hr
          omega

end ClaudeSwarm.Data.Digraph
