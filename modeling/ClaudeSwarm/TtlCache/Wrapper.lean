import ClaudeSwarm.TtlCache.Store
import Mathlib.Data.List.Sort

/-!
# The cached function

Model of the wrapper that `ttl_cache` (`src/ttl_cache.py`) puts around a function. The key of a call is its positional
arguments followed by its keyword arguments, in the order of their names, as pairs of name and value; a call that cannot
be hashed goes to the function. Keys are compared as Python compares values: numbers by what they are worth, whatever
their type (`Hashed`). Floats are exact, neither infinite nor NaN. What the function returns or raises may be different
at each call.

Nothing in a key says where the positional arguments end: `f(a=1)` and `f(("a", 1))` have one key, and the second call is
served what the first one computed.

* `key_cases`: calls with one key pass the same arguments, or one of them passes keyword arguments of the other as pairs
  at the end of its positional ones (`Shifted`).
* **`transparent_iff`**: a sequence of calls is served what the function returned for the same arguments, at most
  `ttl_seconds` ago, whatever the function and the times, if and only if no two of them are shifted.
* `not_transparent`: `f(a=1)` and then `f(("a", 1))`.
-/

namespace ClaudeSwarm.TtlCache

open Data
open Python (Time)

/-! ## Values and keys -/

/-- A value that is passed: `object` is hashed by its identity, `mutable` (a list, a dictionary) not at all. -/
inductive Value where
  | none
  | bool (b : Bool)
  | int (i : Int)
  | float (q : ℚ)
  | str (s : String)
  | object (id : Nat)
  | tuple (vs : List Value)
  | mutable (id : Nat)

/-- What `==` and `hash` see of a hashable value. -/
inductive Hashed where
  | none
  | num (q : ℚ)
  | str (s : String)
  | object (id : Nat)
  | tuple (vs : List Hashed)

mutual

/-- Whether two hashed values are the same. -/
def Hashed.same : Hashed → Hashed → Bool
  | .none, .none => true
  | .num q, .num r => q == r
  | .str s, .str t => s == t
  | .object i, .object j => i == j
  | .tuple vs, .tuple ws => Hashed.sameAll vs ws
  | _, _ => false

def Hashed.sameAll : List Hashed → List Hashed → Bool
  | [], [] => true
  | v :: vs, w :: ws => Hashed.same v w && Hashed.sameAll vs ws
  | _, _ => false

end

mutual

theorem Hashed.same_iff : ∀ {v w : Hashed}, v.same w = true ↔ v = w
  | .tuple vs, .tuple ws => by simp [Hashed.same, @Hashed.sameAll_iff vs ws]
  | .none, w => by cases w <;> simp [Hashed.same]
  | .num q, w => by cases w <;> simp [Hashed.same]
  | .str s, w => by cases w <;> simp [Hashed.same]
  | .object i, w => by cases w <;> simp [Hashed.same]
  | .tuple vs, .none | .tuple vs, .num _ | .tuple vs, .str _ | .tuple vs, .object _ => by simp [Hashed.same]

theorem Hashed.sameAll_iff : ∀ {vs ws : List Hashed}, Hashed.sameAll vs ws = true ↔ vs = ws
  | [], [] => by simp [Hashed.sameAll]
  | [], _ :: _ => by simp [Hashed.sameAll]
  | _ :: _, [] => by simp [Hashed.sameAll]
  | v :: vs, w :: ws => by
    simp [Hashed.sameAll, Hashed.same_iff (v := v) (w := w), @Hashed.sameAll_iff vs ws]

end

instance : DecidableEq Hashed := fun _ _ => decidable_of_iff _ Hashed.same_iff

mutual

/-- What `hash` and `==` see of a value; `none` is a `TypeError`. -/
def Value.hashed : Value → Option Hashed
  | .none => some .none
  | .bool b => some (.num (if b then 1 else 0))
  | .int i => some (.num i)
  | .float q => some (.num q)
  | .str s => some (.str s)
  | .object id => some (.object id)
  | .tuple vs => (Value.hashedAll vs).map .tuple
  | .mutable _ => Option.none

def Value.hashedAll : List Value → Option (List Hashed)
  | [] => some []
  | v :: vs => v.hashed.bind fun h => (Value.hashedAll vs).map (h :: ·)

end

/-- The arguments of a call. -/
structure Call where
  args : List Value
  kwargs : Dict String Value

/-- `sorted(kwargs.items())`: names are distinct, so values are not compared. -/
def Call.items (c : Call) : List (String × Value) := c.kwargs.entries.insertionSort fun e e' => e.1 ≤ e'.1

/-- An item as a tuple. -/
def itemTuple (e : String × Value) : Value := .tuple [.str e.1, e.2]

/-- `args + tuple(sorted(kwargs.items()))`, if it can be hashed. -/
def Call.key (c : Call) : Option (List Hashed) := Value.hashedAll (c.args ++ c.items.map itemTuple)

/-! ## The wrapper -/

variable {ε β : Type}

/-- A call of the wrapper: the arguments, when the store is asked, when a result is put, and what the function returns or
raises at this moment. -/
structure Request (ε β : Type) where
  call : Call
  now : Time
  done : Time
  fn : Call → Except ε β

/-- A request, whether the function was called for it, and what came of it. -/
structure Served (ε β : Type) where
  request : Request ε β
  invoked : Bool
  result : Except ε β

/-- `wrapper`. -/
def wrapper (s : CacheStore (List Hashed) β) (r : Request ε β) : CacheStore (List Hashed) β × Served ε β :=
  match r.call.key with
  | none => (s, ⟨r, true, r.fn r.call⟩)
  | some key =>
    match s.get r.now key with
    | (some value, s) => (s, ⟨r, false, .ok value⟩)
    | (none, s) =>
      match r.fn r.call with
      | .ok result => (s.put r.done key result, ⟨r, true, .ok result⟩)
      | .error e => (s, ⟨r, true, .error e⟩)

/-- Requests one after another, oldest first; what was served is collected newest first. -/
def serveFrom (s : CacheStore (List Hashed) β) (h : List (Served ε β)) :
    List (Request ε β) → CacheStore (List Hashed) β × List (Served ε β)
  | [] => (s, h)
  | r :: rs => serveFrom (wrapper s r).1 ((wrapper s r).2 :: h) rs

/-- Requests to a function that has just been decorated. -/
def serve (ttl_seconds : Time) (max_size : Nat) (rs : List (Request ε β)) :
    CacheStore (List Hashed) β × List (Served ε β) := serveFrom (.init ttl_seconds max_size) [] rs

/-! ## Calls with one key -/

/-- Calls whose positional tuples are equal, and whose keyword mappings are. -/
def Same (c c' : Call) : Prop :=
  Value.hashedAll c.args = Value.hashedAll c'.args ∧
  ∀ n, (c.kwargs.get? n).map Value.hashed = (c'.kwargs.get? n).map Value.hashed

/-- A call whose positional arguments are those of another and then, as pairs, keyword arguments `m` of the other, the
first by name; the rest of the other's keyword arguments are its own. -/
def Shifted (c c' : Call) : Prop :=
  ∃ as m is : List Hashed, m ≠ [] ∧ Value.hashedAll c'.args = some as ∧
    Value.hashedAll c.args = some (as ++ m) ∧ Value.hashedAll (c.items.map itemTuple) = some is ∧
    Value.hashedAll (c'.items.map itemTuple) = some (m ++ is)

theorem hashedAll_append (vs ws : List Value) : Value.hashedAll (vs ++ ws) =
    (Value.hashedAll vs).bind fun as => (Value.hashedAll ws).map (as ++ ·) := by
  induction vs with
  | nil =>
    rw [List.nil_append, Value.hashedAll]
    cases Value.hashedAll ws <;> rfl
  | cons v vs ih =>
    rw [List.cons_append, Value.hashedAll, Value.hashedAll, ih]
    cases v.hashed with
    | none => rfl
    | some a =>
      cases Value.hashedAll vs with
      | none => rfl
      | some as => cases Value.hashedAll ws <;> rfl

/-- The two parts of a key. -/
theorem key_eq_some {c : Call} {key : List Hashed} (h : c.key = some key) :
    ∃ as is, Value.hashedAll c.args = some as ∧ Value.hashedAll (c.items.map itemTuple) = some is ∧ key = as ++ is := by
  rw [Call.key, hashedAll_append] at h
  obtain ⟨as, has, h⟩ := Option.bind_eq_some_iff.mp h
  obtain ⟨is, his, h⟩ := Option.map_eq_some_iff.mp h
  exact ⟨as, is, has, his, h.symm⟩

theorem mem_items {c : Call} {n : String} {v : Value} : (n, v) ∈ c.items ↔ c.kwargs.get? n = some v := by
  rw [Call.items, List.mem_insertionSort]
  exact Dict.mem_entries_iff (e := (n, v))

theorem hashed_itemTuple (e : String × Value) :
    (itemTuple e).hashed = e.2.hashed.map fun h => .tuple [.str e.1, h] := by
  rw [itemTuple, Value.hashed, Value.hashedAll, Value.hashedAll, Value.hashedAll, Value.hashed]
  cases e.2.hashed <;> rfl

/-- An item of one of two calls whose items hash alike is one of the other, with a value that hashes alike. -/
theorem exists_item_of_hashedAll : ∀ {es es' : List (String × Value)} {is : List Hashed},
    Value.hashedAll (es.map itemTuple) = some is → Value.hashedAll (es'.map itemTuple) = some is →
    ∀ {n : String} {v : Value}, (n, v) ∈ es → ∃ v', (n, v') ∈ es' ∧ v.hashed = v'.hashed
  | e :: es, [], is, h, h', n, v, _ => by
    rw [List.map_nil, Value.hashedAll] at h'
    obtain rfl := Option.some.inj h'
    rw [List.map_cons, Value.hashedAll] at h
    obtain ⟨a, -, h⟩ := Option.bind_eq_some_iff.mp h
    obtain ⟨as, -, h⟩ := Option.map_eq_some_iff.mp h
    exact absurd h (by simp)
  | e :: es, e' :: es', is, h, h', n, v, hmem => by
    rw [List.map_cons, Value.hashedAll] at h h'
    obtain ⟨a, ha, h⟩ := Option.bind_eq_some_iff.mp h
    obtain ⟨as, has, rfl⟩ := Option.map_eq_some_iff.mp h
    obtain ⟨a', ha', h'⟩ := Option.bind_eq_some_iff.mp h'
    obtain ⟨as', has', h'⟩ := Option.map_eq_some_iff.mp h'
    obtain ⟨rfl, rfl⟩ := List.cons.inj h'
    rcases List.mem_cons.mp hmem with rfl | hmem
    · rw [hashed_itemTuple] at ha ha'
      obtain ⟨x, hx, rfl⟩ := Option.map_eq_some_iff.mp ha
      obtain ⟨x', hx', htuple⟩ := Option.map_eq_some_iff.mp ha'
      injection htuple with hlist
      obtain ⟨hname, hrest⟩ := List.cons.inj hlist
      injection hname with hname
      obtain ⟨rfl, -⟩ := List.cons.inj hrest
      exact ⟨e'.2, List.mem_cons.mpr (.inl (Prod.ext hname.symm rfl)), hx.trans hx'.symm⟩
    · obtain ⟨v', hv', heq⟩ := exists_item_of_hashedAll has has' hmem
      exact ⟨v', List.mem_cons_of_mem _ hv', heq⟩

/-- Calls that hash alike in both parts. -/
theorem same_of_hashedAll {c c' : Call} {as is : List Hashed} (hargs : Value.hashedAll c.args = some as)
    (hargs' : Value.hashedAll c'.args = some as) (his : Value.hashedAll (c.items.map itemTuple) = some is)
    (his' : Value.hashedAll (c'.items.map itemTuple) = some is) : Same c c' := by
  refine ⟨hargs.trans hargs'.symm, fun n => Option.ext fun h => ⟨fun hv => ?_, fun hv => ?_⟩⟩
  · obtain ⟨v, hget, rfl⟩ := Option.map_eq_some_iff.mp hv
    obtain ⟨v', hmem, heq⟩ := exists_item_of_hashedAll his his' (mem_items.mpr hget)
    exact Option.map_eq_some_iff.mpr ⟨v', mem_items.mp hmem, heq.symm⟩
  · obtain ⟨v, hget, rfl⟩ := Option.map_eq_some_iff.mp hv
    obtain ⟨v', hmem, heq⟩ := exists_item_of_hashedAll his' his (mem_items.mpr hget)
    exact Option.map_eq_some_iff.mpr ⟨v', mem_items.mp hmem, heq.symm⟩

/-- **Calls with one key pass the same arguments, or one of them is shifted.** -/
theorem key_cases {c c' : Call} {key : List Hashed} (h : c.key = some key) (h' : c'.key = some key) :
    Same c c' ∨ Shifted c c' ∨ Shifted c' c := by
  obtain ⟨as, is, has, his, hkey⟩ := key_eq_some h
  obtain ⟨as', is', has', his', hkey'⟩ := key_eq_some h'
  rcases List.append_eq_append_iff.mp (hkey.symm.trans hkey') with ⟨m, rfl, rfl⟩ | ⟨m, rfl, rfl⟩
  · by_cases hm : m = []
    · subst hm
      rw [List.append_nil] at has'
      exact .inl (same_of_hashedAll has has' his his')
    · exact .inr (.inr ⟨as, m, is', hm, has, has', his', his⟩)
  · by_cases hm : m = []
    · subst hm
      rw [List.append_nil] at has
      exact .inl (same_of_hashedAll has has' his his')
    · exact .inr (.inl ⟨as', m, is, hm, has', has, his, his'⟩)

/-- Shifted calls have one key, and do not pass the same arguments. -/
theorem Shifted.collide {c c' : Call} (h : Shifted c c') : (∃ key, c.key = some key ∧ c'.key = some key) ∧ ¬ Same c c' := by
  obtain ⟨as, m, is, hm, hargs', hargs, his, his'⟩ := h
  refine ⟨⟨as ++ m ++ is, ?_, ?_⟩, fun hsame => ?_⟩
  · rw [Call.key, hashedAll_append, hargs, his]
    rfl
  · rw [Call.key, hashedAll_append, hargs', his', List.append_assoc]
    rfl
  · have heq := Option.some.inj (hargs.symm.trans (hsame.1.trans hargs'))
    exact hm (List.append_right_eq_self.mp heq)

theorem Same.refl (c : Call) : Same c c := ⟨rfl, fun _ => rfl⟩

theorem Same.symm {c c' : Call} (h : Same c c') : Same c' c := ⟨h.1.symm, fun n => (h.2 n).symm⟩

theorem Same.trans {c c' c'' : Call} (h : Same c c') (h' : Same c' c'') : Same c c'' :=
  ⟨h.1.trans h'.1, fun n => (h.2 n).trans (h'.2 n)⟩

/-! ## What is served -/

/-- A request served as if there were no cache: with what the function returned or raised for it, or with a value that
the function returned for the same arguments at most `ttl` before. -/
def Served.Transparent (ttl : Time) (earlier : List (Served ε β)) (e : Served ε β) : Prop :=
  (e.invoked = true ∧ e.result = e.request.fn e.request.call) ∨
  ∃ e' ∈ earlier, e'.invoked = true ∧ Same e'.request.call e.request.call ∧
    ∃ v, e'.request.fn e'.request.call = .ok v ∧ e.result = .ok v ∧ e.request.now ≤ e'.request.done + ttl

/-- A cache that is not to be seen: every request is served as if there were none; what the function raised is what
comes of the request; and what is stored is a value that the function returned. -/
structure Transparent (ttl : Time) (s : CacheStore (List Hashed) β) (h : List (Served ε β)) : Prop where
  served : ∀ later e earlier, h = later ++ e :: earlier → e.Transparent ttl earlier
  raised : ∀ e ∈ h, e.invoked = true → e.result = e.request.fn e.request.call
  stored : ∀ key expires_at v, s.store.get? key = some (expires_at, v) →
    ∃ e ∈ h, e.invoked = true ∧ e.request.fn e.request.call = .ok v ∧ e.request.call.key = some key

/-- Where the entries of a store come from: calls of the function with their keys, `ttl` before they lapse. -/
def Sourced (ttl : Time) (s : CacheStore (List Hashed) β) (h : List (Served ε β)) : Prop :=
  ∀ key expires_at v, s.store.get? key = some (expires_at, v) →
    ∃ e ∈ h, e.invoked = true ∧ e.request.fn e.request.call = .ok v ∧ e.request.call.key = some key ∧
      expires_at = e.request.done + ttl

variable {ttl : Time} {s : CacheStore (List Hashed) β} {h : List (Served ε β)} {r : Request ε β}

/-- What a call of the wrapper does: the function is called and nothing is stored, as the call cannot be hashed or the
function raises; or what it returns is put; or an entry that has not lapsed is served. -/
theorem wrapper_cases (s : CacheStore (List Hashed) β) (r : Request ε β) :
    (wrapper s r).2.request = r ∧ (wrapper s r).1.ttl = s.ttl ∧
    (((wrapper s r).2.invoked = true ∧ (wrapper s r).2.result = r.fn r.call ∧
        ∀ k x, (wrapper s r).1.store.get? k = some x → s.store.get? k = some x) ∨
      (∃ key v, r.call.key = some key ∧ r.fn r.call = .ok v ∧ (wrapper s r).2.invoked = true ∧
        (wrapper s r).2.result = .ok v ∧ ∀ k x, (wrapper s r).1.store.get? k = some x →
          (k = key ∧ x = (r.done + s.ttl, v)) ∨ s.store.get? k = some x) ∨
      ∃ key expires_at v, r.call.key = some key ∧ s.store.get? key = some (expires_at, v) ∧ r.now ≤ expires_at ∧
        (wrapper s r).2.invoked = false ∧ (wrapper s r).2.result = .ok v ∧
        ∀ k x, (wrapper s r).1.store.get? k = some x → s.store.get? k = some x) := by
  have hkept : ∀ {key : List Hashed} (k x), (s.get r.now key).2.store.get? k = some x → s.store.get? k = some x :=
    fun _ _ hx => CacheStore.get?_of_get hx
  unfold wrapper
  cases hkey : r.call.key with
  | none => exact ⟨rfl, rfl, .inl ⟨rfl, rfl, fun _ _ hx => hx⟩⟩
  | some key =>
    dsimp only
    have hget : ∀ {v : β}, (s.get r.now key).1 = some v → ∃ expires_at, s.store.get? key = some (expires_at, v) ∧
        r.now ≤ expires_at := fun hv => CacheStore.get?_of_hit hv
    have httl := s.ttl_get r.now key
    revert hget httl
    have hleft := @hkept key
    revert hleft
    cases s.get r.now key with
    | mk hit s' =>
      intro hleft hget httl
      cases hit with
      | some v =>
        obtain ⟨expires_at, hentry, hle⟩ := hget rfl
        exact ⟨rfl, httl, .inr (.inr ⟨key, expires_at, v, rfl, hentry, hle, rfl, rfl, hleft⟩)⟩
      | none =>
        cases hfn : r.fn r.call with
        | error e => exact ⟨rfl, httl, .inl ⟨rfl, rfl, hleft⟩⟩
        | ok v =>
          refine ⟨rfl, httl, .inr (.inl ⟨key, v, rfl, rfl, rfl, rfl, fun k x hx => ?_⟩)⟩
          rcases CacheStore.get?_of_put hx with ⟨hk, hx⟩ | hx
          · exact .inl ⟨hk, httl ▸ hx⟩
          · exact .inr (hleft k x hx)

/-- **A call of the wrapper keeps the sources of the entries.** -/
theorem Sourced.wrapper (httl : s.ttl = ttl) (hs : Sourced ttl s h) :
    Sourced ttl (wrapper s r).1 ((wrapper s r).2 :: h) := by
  obtain ⟨hreq, -, hcases⟩ := wrapper_cases s r
  have hold : ∀ key expires_at v, s.store.get? key = some (expires_at, v) → ∃ e ∈ (TtlCache.wrapper s r).2 :: h,
      e.invoked = true ∧ e.request.fn e.request.call = .ok v ∧ e.request.call.key = some key ∧
        expires_at = e.request.done + ttl := fun key expires_at v hget => by
    obtain ⟨e, he, hrest⟩ := hs key expires_at v hget
    exact ⟨e, List.mem_cons_of_mem _ he, hrest⟩
  intro k exp v hget
  rcases hcases with ⟨-, -, hleft⟩ | ⟨key, w, hkey, hfn, hinv, -, hleft⟩ | ⟨key, x, w, -, -, -, -, -, hleft⟩
  · exact hold k exp v (hleft k _ hget)
  · rcases hleft k _ hget with ⟨rfl, hx⟩ | hget
    · obtain ⟨rfl, rfl⟩ := Prod.mk.inj hx
      exact ⟨_, List.mem_cons_self, hinv, by rw [hreq]; exact hfn, by rw [hreq]; exact hkey, by rw [hreq, httl]⟩
    · exact hold k exp v hget
  · exact hold k exp v (hleft k _ hget)

/-- **A request whose call is not shifted against an earlier one is served as if there were no cache.** -/
theorem Sourced.served (hs : Sourced ttl s h)
    (hclean : ∀ e ∈ h, ¬ Shifted e.request.call r.call ∧ ¬ Shifted r.call e.request.call) :
    (TtlCache.wrapper s r).2.Transparent ttl h ∧
      ((TtlCache.wrapper s r).2.invoked = true → (TtlCache.wrapper s r).2.result = r.fn r.call) := by
  obtain ⟨hreq, -, hcases⟩ := wrapper_cases s r
  rcases hcases with ⟨hinv, hres, -⟩ | ⟨key, v, hkey, hfn, hinv, hres, -⟩ | ⟨key, x, v, hkey, hget, hle, hinv, hres, -⟩
  · exact ⟨.inl ⟨hinv, by rw [hreq]; exact hres⟩, fun _ => hres⟩
  · exact ⟨.inl ⟨hinv, by rw [hreq, hfn]; exact hres⟩, fun _ => hres.trans hfn.symm⟩
  · refine ⟨.inr ?_, fun h' => absurd (hinv.symm.trans h') Bool.false_ne_true⟩
    obtain ⟨e, he, heinv, hefn, hekey, hexp⟩ := hs key x v hget
    have hsame : Same e.request.call r.call := by
      obtain ⟨hne, hne'⟩ := hclean e he
      rcases key_cases hekey hkey with hsame | hsh | hsh
      · exact hsame
      · exact absurd hsh hne
      · exact absurd hsh hne'
    exact ⟨e, he, heinv, by rw [hreq]; exact hsame, v, hefn, hres, by rw [hreq, ← hexp]; exact hle⟩

/-- What a run keeps. -/
structure Kept (ttl : Time) (s : CacheStore (List Hashed) β) (h : List (Served ε β)) : Prop where
  ttl_eq : s.ttl = ttl
  sourced : Sourced ttl s h
  served : ∀ later e earlier, h = later ++ e :: earlier → e.Transparent ttl earlier
  raised : ∀ e ∈ h, e.invoked = true → e.result = e.request.fn e.request.call

theorem Kept.init (ttl : Time) (max_size : Nat) : Kept ttl (.init ttl max_size) ([] : List (Served ε β)) where
  ttl_eq := rfl
  sourced := fun _ _ _ hget => by cases hget
  served := fun later e earlier heq => absurd heq (by simp)
  raised := fun _ he => by cases he

theorem Kept.wrapper (hk : Kept ttl s h)
    (hclean : ∀ e ∈ h, ¬ Shifted e.request.call r.call ∧ ¬ Shifted r.call e.request.call) :
    Kept ttl (TtlCache.wrapper s r).1 ((TtlCache.wrapper s r).2 :: h) := by
  obtain ⟨hreq, httl, -⟩ := wrapper_cases s r
  obtain ⟨hserved, hraised⟩ := hk.sourced.served hclean
  refine ⟨httl.trans hk.ttl_eq, hk.sourced.wrapper hk.ttl_eq, fun later e earlier heq => ?_, fun e he hinv => ?_⟩
  · cases later with
    | nil =>
      obtain ⟨rfl, rfl⟩ := List.cons.inj heq
      exact hserved
    | cons e' later => exact hk.served later e earlier (List.cons.inj heq).2
  · rcases List.mem_cons.mp he with rfl | he
    · rw [hreq]
      exact hraised hinv
    · exact hk.raised e he hinv

theorem Kept.serveFrom {calls : List Call} (hclean : ∀ c ∈ calls, ∀ c' ∈ calls, ¬ Shifted c c') :
    ∀ (rs : List (Request ε β)) {s : CacheStore (List Hashed) β} {h : List (Served ε β)},
    (∀ e ∈ h, e.request.call ∈ calls) → (∀ r ∈ rs, r.call ∈ calls) → Kept ttl s h →
      Kept ttl (serveFrom s h rs).1 (serveFrom s h rs).2
  | [], _, _, _, _, hk => hk
  | r :: rs, s, h, hh, hrs, hk => by
    have hr := hrs r List.mem_cons_self
    have hnext := hk.wrapper (r := r) fun e he => ⟨hclean _ (hh e he) _ hr, hclean _ hr _ (hh e he)⟩
    have hcalls : ∀ e ∈ (TtlCache.wrapper s r).2 :: h, e.request.call ∈ calls := fun e he => by
      rcases List.mem_cons.mp he with rfl | he
      · rw [(wrapper_cases s r).1]
        exact hr
      · exact hh e he
    rw [TtlCache.serveFrom]
    exact Kept.serveFrom hclean rs hcalls (fun r' hr' => hrs r' (List.mem_cons_of_mem _ hr')) hnext

/-- Requests none of which is shifted against another. -/
theorem transparent_of_unshifted {rs : List (Request ε β)}
    (hclean : ∀ c ∈ rs.map Request.call, ∀ c' ∈ rs.map Request.call, ¬ Shifted c c') (ttl : Time) (max_size : Nat) :
    Transparent ttl (serve ttl max_size rs).1 (serve ttl max_size rs).2 := by
  have hk := Kept.serveFrom hclean rs (h := []) (by simp) (fun r hr => List.mem_map_of_mem hr) (.init ttl max_size)
  refine ⟨hk.served, hk.raised, fun key expires_at v hget => ?_⟩
  obtain ⟨e, he, hinv, hfn, hkey, -⟩ := hk.sourced key expires_at v hget
  exact ⟨e, he, hinv, hfn, hkey⟩

/-! ## Shifted calls -/

/-- A call at time zero of a function that returns what it is called with. -/
def echo (c : Call) : Request Unit Call := ⟨c, 0, 0, .ok⟩

theorem serveFrom_append : ∀ (rs rs' : List (Request ε β)) (s : CacheStore (List Hashed) β) (h : List (Served ε β)),
    serveFrom s h (rs ++ rs') = serveFrom (serveFrom s h rs).1 (serveFrom s h rs).2 rs'
  | [], _, _, _ => rfl
  | r :: rs, rs', s, h => by
    rw [List.cons_append, serveFrom, serveFrom, serveFrom_append rs rs']

/-- What was served stays at the end of the history. -/
theorem serveFrom_suffix : ∀ (rs : List (Request ε β)) (s : CacheStore (List Hashed) β) (h : List (Served ε β)),
    ∃ later, (serveFrom s h rs).2 = later ++ h
  | [], _, h => ⟨[], rfl⟩
  | r :: rs, s, h => by
    obtain ⟨later, hlater⟩ := serveFrom_suffix rs (wrapper s r).1 ((wrapper s r).2 :: h)
    refine ⟨later ++ [(wrapper s r).2], ?_⟩
    rw [serveFrom, hlater, List.append_assoc]
    rfl

theorem requests_serveFrom : ∀ (rs : List (Request ε β)) (s : CacheStore (List Hashed) β) (h : List (Served ε β)),
    (serveFrom s h rs).2.map Served.request = rs.reverse ++ h.map Served.request
  | [], _, _ => rfl
  | r :: rs, s, h => by
    rw [serveFrom, requests_serveFrom rs, List.map_cons, (wrapper_cases s r).1, List.reverse_cons, List.append_assoc]
    rfl

/-- A store that has room for all the calls holds, under each key, the first call with it. -/
structure Firsts (max_size : Nat) (calls : List Call) (s : CacheStore (List Hashed) Call) : Prop where
  ttl_eq : s.ttl = 0
  max_eq : s.max_size = max_size
  size : s.store.entries.length ≤ calls.length
  first : ∀ key, s.store.get? key = (calls.find? fun c => c.key == some key).map fun c => (0, c)

variable {max_size : Nat} {calls : List Call} {s : CacheStore (List Hashed) Call} {c : Call} {key : List Hashed}

theorem Firsts.init (max_size : Nat) : Firsts max_size [] (.init 0 max_size) := ⟨rfl, rfl, le_rfl, fun _ => rfl⟩

/-- The first call with a key, of some calls and one more. -/
theorem find?_snoc : ((calls ++ [c]).find? fun c => c.key == some key) =
    (calls.find? fun c => c.key == some key).or (if c.key = some key then some c else none) := by
  rw [List.find?_append]
  by_cases hc : c.key = some key <;> simp [hc]

/-- A call whose key is not new is served the first call with it. -/
theorem Firsts.hit {c₀ : Call} (hf : Firsts max_size calls s) (hkey : c.key = some key)
    (hfirst : (calls.find? fun c => c.key == some key) = some c₀) :
    (wrapper s (echo c)).2 = ⟨echo c, false, .ok c₀⟩ ∧ (wrapper s (echo c)).1 = { s with store := s.store.moveToEnd key, hits := s.hits + 1 } := by
  have hget : s.store.get? key = some (0, c₀) := by rw [hf.first, hfirst, Option.map_some]
  have hlt : ¬ (0 : Time) < 0 := lt_irrefl _
  have hstore : s.get (echo c).now key = (some c₀, { s with store := s.store.moveToEnd key, hits := s.hits + 1 }) := by
    simp only [CacheStore.get, echo, hget]
    exact if_neg hlt
  have hcall : (echo c).call.key = some key := hkey
  unfold wrapper
  rw [hcall]
  dsimp only
  rw [hstore]
  exact ⟨rfl, rfl⟩

/-- A call whose key is new is put under it. -/
theorem Firsts.miss (hf : Firsts max_size calls s) (hkey : c.key = some key)
    (hnone : (calls.find? fun c => c.key == some key) = none) :
    (wrapper s (echo c)).1 = ({ s with misses := s.misses + 1 } : CacheStore (List Hashed) Call).put 0 key c := by
  have hget : s.store.get? key = none := by rw [hf.first, hnone, Option.map_none]
  have hstore : s.get (echo c).now key = (none, { s with misses := s.misses + 1 }) := by
    simp only [CacheStore.get, hget]
  have hcall : (echo c).call.key = some key := hkey
  unfold wrapper
  rw [hcall]
  dsimp only
  rw [hstore]
  rfl

theorem Firsts.wrapper (hf : Firsts max_size calls s) (hroom : calls.length < max_size) (c : Call) :
    Firsts max_size (calls ++ [c]) (TtlCache.wrapper s (echo c)).1 := by
  have hlen : (calls ++ [c]).length = calls.length + 1 := by simp
  cases hkey : c.key with
  | none =>
    have hstore : (TtlCache.wrapper s (echo c)).1 = s := by
      have hcall : (echo c).call.key = none := hkey
      unfold TtlCache.wrapper
      rw [hcall]
    rw [hstore]
    refine ⟨hf.ttl_eq, hf.max_eq, by rw [hlen]; exact Nat.le_succ_of_le hf.size, fun key => ?_⟩
    rw [find?_snoc, hkey, if_neg (by simp), Option.or_none, hf.first]
  | some key =>
    cases hfind : calls.find? fun c => c.key == some key with
    | some c₀ =>
      rw [(hf.hit hkey hfind).2]
      refine ⟨hf.ttl_eq, hf.max_eq, ?_, fun k => ?_⟩
      · rw [hlen, Dict.length_moveToEnd]
        exact Nat.le_succ_of_le hf.size
      · rw [Dict.get?_moveToEnd, hf.first, find?_snoc, hkey]
        by_cases hk : key = k
        · rw [← hk, hfind]
          rfl
        · rw [if_neg (by simpa using hk), Option.or_none]
    | none =>
      rw [hf.miss hkey hfind]
      have hlength := Dict.length_entries_set s.store key ((0 : Time) + s.ttl, c)
      have hstored : (({ s with misses := s.misses + 1 } : CacheStore (List Hashed) Call).stored 0 key c).entries.length ≤
          calls.length + 1 := by
        rw [CacheStore.stored, Dict.length_moveToEnd]
        exact hlength.trans (Nat.succ_le_succ hf.size)
      have hpopped : (({ s with misses := s.misses + 1 } : CacheStore (List Hashed) Call).stored 0 key c).popped
          s.max_size = [] := by
        have hmax := hf.max_eq
        rw [← List.length_eq_zero_iff, Dict.length_popped]
        omega
      refine ⟨hf.ttl_eq, hf.max_eq, ?_, fun k => ?_⟩
      · rw [CacheStore.put, Dict.length_evict, hlen]
        exact (Nat.min_le_right _ _).trans hstored
      · rw [CacheStore.put, Dict.get?_evict, hpopped, if_neg List.not_mem_nil, Represents.get?_stored, hf.first,
          find?_snoc, hkey]
        by_cases hk : k = key
        · rw [if_pos hk, hk, hfind, if_pos rfl, hf.ttl_eq, add_zero]
          rfl
        · rw [if_neg hk, if_neg (by simpa using Ne.symm hk), Option.or_none]

theorem Firsts.serveFrom : ∀ {rest calls : List Call} {s : CacheStore (List Hashed) Call} {h : List (Served Unit Call)},
    Firsts max_size calls s → (calls ++ rest).length ≤ max_size →
      Firsts max_size (calls ++ rest) (serveFrom s h (rest.map echo)).1
  | [], calls, s, h, hf, _ => by
    rw [List.append_nil]
    exact hf
  | c :: rest, calls, s, h, hf, hroom => by
    have hsplit : calls ++ c :: rest = calls ++ [c] ++ rest := by simp
    have hlt : calls.length < max_size := by
      rw [List.length_append, List.length_cons] at hroom
      omega
    rw [List.map_cons, TtlCache.serveFrom, hsplit]
    exact Firsts.serveFrom (hf.wrapper hlt c) (hsplit ▸ hroom)

/-- A call that comes after another with its key is served that one's result. -/
theorem not_same_of_transparent {pre post : List Call} {x c₀ : Call} (hkey : x.key = some key)
    (hfirst : (pre.find? fun c => c.key == some key) = some c₀)
    (ht : Transparent 0 (serve 0 (pre ++ x :: post).length ((pre ++ x :: post).map echo)).1
      (serve 0 (pre ++ x :: post).length ((pre ++ x :: post).map echo)).2) : Same c₀ x := by
  have hf : Firsts (pre ++ x :: post).length pre
      (serve 0 (pre ++ x :: post).length (pre.map echo) : _ × List (Served Unit Call)).1 := by
    have hrun := @Firsts.serveFrom _ pre _ _ [] (Firsts.init (pre ++ x :: post).length) (by simp)
    exact hrun
  have hserve : serve 0 (pre ++ x :: post).length ((pre ++ x :: post).map echo) =
      serveFrom (wrapper (serve 0 (pre ++ x :: post).length (pre.map echo)).1 (echo x)).1
        ((wrapper (serve 0 (pre ++ x :: post).length (pre.map echo)).1 (echo x)).2 ::
          (serve 0 (pre ++ x :: post).length (pre.map echo)).2) (post.map echo) := by
    rw [serve, List.map_append, serveFrom_append, List.map_cons, serveFrom]
    rfl
  obtain ⟨later, hlater⟩ := serveFrom_suffix (post.map echo)
    (wrapper (serve 0 (pre ++ x :: post).length (pre.map echo)).1 (echo x)).1
    ((wrapper (serve 0 (pre ++ x :: post).length (pre.map echo)).1 (echo x)).2 ::
      (serve 0 (pre ++ x :: post).length (pre.map echo)).2)
  rw [← hserve] at hlater
  have hx := ht.served later _ _ hlater
  rw [(hf.hit hkey hfirst).1] at hx
  rcases hx with ⟨hinv, -⟩ | ⟨e', he', -, hsame, v, hfn, hres, -⟩
  · cases hinv
  · have hreq : e'.request ∈ (pre.map echo).reverse ++ [] :=
      requests_serveFrom (pre.map echo) (.init 0 (pre ++ x :: post).length) [] ▸ List.mem_map_of_mem he'
    rw [List.append_nil, List.mem_reverse] at hreq
    obtain ⟨c, -, hc⟩ := List.mem_map.mp hreq
    rw [← hc] at hsame hfn
    have hv : c = v := Except.ok.inj hfn
    have hv₀ : c₀ = v := Except.ok.inj hres
    rw [hv₀, ← hv]
    exact hsame

/-- Calls with one key that do not pass the same arguments are not both served transparently. -/
theorem exists_not_transparent {c c' : Call} (hc : c ∈ calls) (hc' : c' ∈ calls) (hkey : c.key = some key)
    (hkey' : c'.key = some key) (hne : ¬ Same c c') :
    ¬ Transparent 0 (serve 0 calls.length (calls.map echo)).1 (serve 0 calls.length (calls.map echo)).2 := by
  intro ht
  have hall : ∀ x ∈ calls, x.key = some key → ∀ c₀, (calls.find? fun c => c.key == some key) = some c₀ → Same c₀ x := by
    intro x hx hxkey c₀ hfind
    obtain ⟨pre, post, rfl⟩ := List.append_of_mem hx
    rw [List.find?_append] at hfind
    cases hpre : pre.find? fun c => c.key == some key with
    | some c₁ =>
      rw [hpre, Option.some_or] at hfind
      obtain rfl := Option.some.inj hfind
      exact not_same_of_transparent hxkey hpre ht
    | none =>
      rw [hpre, Option.none_or, List.find?_cons_of_pos (by simp [hxkey])] at hfind
      rw [← Option.some.inj hfind]
      exact Same.refl _
  obtain ⟨c₀, hfind⟩ := Option.isSome_iff_exists.mp (List.find?_isSome (p := fun c => c.key == some key)|>.mpr
    ⟨c, hc, by simp [hkey]⟩)
  exact hne ((hall c hc hkey c₀ hfind).symm.trans (hall c' hc' hkey' c₀ hfind))

/-- **A sequence of calls is served transparently, whatever the function, the times, `ttl_seconds` and `max_size`, if and
only if none of them is shifted against another.** -/
theorem transparent_iff (calls : List Call) :
    (∀ (ε β : Type) (rs : List (Request ε β)), rs.map Request.call = calls → ∀ (ttl_seconds : Time) (max_size : Nat),
      Transparent ttl_seconds (serve ttl_seconds max_size rs).1 (serve ttl_seconds max_size rs).2) ↔
    ∀ c ∈ calls, ∀ c' ∈ calls, ¬ Shifted c c' := by
  constructor
  · intro h c hc c' hc' hsh
    obtain ⟨⟨key, hkey, hkey'⟩, hne⟩ := hsh.collide
    have hecho : (calls.map echo).map Request.call = calls := by
      rw [List.map_map]
      exact List.map_id' calls
    exact exists_not_transparent hc hc' hkey hkey' hne (h Unit Call _ hecho 0 calls.length)
  · rintro hclean ε β rs rfl ttl_seconds max_size
    exact transparent_of_unshifted hclean ttl_seconds max_size

/-- `f(a=1)`. -/
def byKeyword : Call := ⟨[], ⟨[("a", .int 1)], by simp⟩⟩

/-- `f(("a", 1))`. -/
def byPosition : Call := ⟨[.tuple [.str "a", .int 1]], ⟨[], by simp⟩⟩

/-- The requests: `f` returns one thing for the number and another for the pair. -/
def mixed : List (Request Unit String) := [⟨byKeyword, 0, 0, fun _ => .ok "one"⟩, ⟨byPosition, 1, 1, fun _ => .ok "pair"⟩]

/-- **`f(("a", 1))` is served what `f(a=1)` returned.** -/
theorem not_transparent : (serve 5 256 mixed).2.map Served.result = [.ok "one", .ok "one"] ∧
    ¬ Transparent 5 (serve 5 256 mixed).1 (serve 5 256 mixed).2 := by
  have hresults : (serve 5 256 mixed).2.map (fun e => (e.invoked, e.result)) =
      [(false, .ok "one"), (true, .ok "one")] := by decide +kernel
  have hrequests : (serve 5 256 mixed).2.map Served.request = mixed.reverse ++ [] := requests_serveFrom _ _ _
  refine ⟨by decide +kernel, fun ht => ?_⟩
  obtain ⟨e, rest, hserve, he, hrest⟩ := List.map_eq_cons_iff.mp hresults
  rw [hserve] at hrequests
  obtain ⟨hsecond, hfirst⟩ := List.cons.inj hrequests
  rcases ht.served [] e rest hserve with ⟨hinv, -⟩ | ⟨e', he', -, hsame, -⟩
  · rw [(Prod.mk.inj he).1] at hinv
    cases hinv
  · have hreq := hfirst ▸ List.mem_map_of_mem (f := Served.request) he'
    rw [List.mem_singleton.mp hreq, hsecond] at hsame
    have hargs : (some [] : Option (List Hashed)) = some [.tuple [.str "a", .num 1]] := hsame.1
    cases hargs

end ClaudeSwarm.TtlCache
