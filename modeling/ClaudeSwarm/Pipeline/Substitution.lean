import ClaudeSwarm.Pipeline.Context
import Mathlib.Data.List.TakeWhile

/-!
# Substitution in a prompt

`render_prompt` (`src/pipeline.py`) replaces the tokens of one kind after the other, each in what the replacements
before it have left. What it should do is to replace the tokens of the template at once: `simultaneous`. The template
is a list of `Piece`s, its own tokens and the characters between them; `flat` is the text in which some of the tokens
are replaced.

* `replace_own`: to replace a token where all its occurrences are the template's own.
* `findall_own`: the names that `re.findall` finds where all occurrences are.
* **`rendered_of_plain`**: where each replacement meets only the template's own tokens, and these name words, the
  prompt is what it should be. `plain_of_braceless`: that is so where no `{` is inserted.
* `output_interpreted`: a token in the output of a stage is replaced.
-/

namespace ClaudeSwarm.Pipeline

open Data Python

/-! ## Tokens -/

/-- The tokens of a template. -/
inductive Token where
  | context
  | field (name : String)
  | input
  | previous (stage : String)
  deriving DecidableEq

/-- How a token is written. -/
def Token.text : Token → String
  | .context => "\x7bcontext\x7d"
  | .field name => token "input" name
  | .input => "\x7binput\x7d"
  | .previous stage => token "previous_output" stage

/-- What it stands for. -/
def Token.value (u : Unicode) (input_data : Input) (outputs : Outputs) : Token → String
  | .context => "\n\n".intercalate (outputs.entries.map fun e => "=== " ++ e.1 ++ " ===\n" ++ e.2)
  | .field name => ((input_data.get? name).map Value.text).getD ("<input." ++ name ++ " not found>")
  | .input => ((input_data.get? "task").map Value.text).getD (strInput u input_data)
  | .previous stage => (outputs.get? stage).getD ("<output of \x27" ++ stage ++ "\x27 not available>")

/-- A character of a template, or a token. -/
inductive Piece where
  | char (c : Char)
  | token (t : Token)
  deriving DecidableEq

/-- The token at the front. A stage that has an output may have any name; where the names of two of them fit, it is
that of the first. -/
def tokenOf (u : Unicode) (stages : List String) (s : List Char) : Option Token :=
  if Token.context.text.toList.isPrefixOf s then some .context
  else if Token.input.text.toList.isPrefixOf s then some .input
  else ((tokenAt u ("\x7b" ++ "input" ++ ".").toList s).map Token.field).or
    (((stages.find? fun stage => (Token.previous stage).text.toList.isPrefixOf s).or
      (tokenAt u ("\x7b" ++ "previous_output" ++ ".").toList s)).map Token.previous)

/-- The pieces of a text; the characters still to skip belong to the token found last. -/
def piecesFrom (u : Unicode) (stages : List String) : (skip : Nat) → List Char → List Piece
  | _, [] => []
  | skip + 1, _ :: s => piecesFrom u stages skip s
  | 0, c :: s =>
    match tokenOf u stages (c :: s) with
    | some t => .token t :: piecesFrom u stages (t.text.toList.length - 1) s
    | none => .char c :: piecesFrom u stages 0 s

/-- The pieces of a template. -/
def pieces (u : Unicode) (outputs : Outputs) (template : String) : List Piece :=
  piecesFrom u outputs.keys 0 template.toList

/-- A piece, replaced if it is a token. -/
def Piece.replaced (value : Token → String) : Piece → List Char
  | .char c => [c]
  | .token t => (value t).toList

/-- **What `render_prompt` should return**: the tokens of the template replaced at once. -/
def simultaneous (u : Unicode) (input_data : Input) (outputs : Outputs) (template : String) : String :=
  .ofList ((pieces u outputs template).flatMap (Piece.replaced (Token.value u input_data outputs)))

/-- A name that a token of the code may have. -/
def Word (u : Unicode) (name : String) : Prop := name.toList ≠ [] ∧ ∀ c ∈ name.toList, u.isWord c = true

/-! ## Texts of which some tokens are replaced -/

section

variable (value : Token → String)

/-- The characters of a piece when the tokens `D` are replaced. -/
def Piece.chars (D : List Token) : Piece → List Char
  | .char c => [c]
  | .token t => if t ∈ D then (value t).toList else t.text.toList

/-- The text when the tokens `D` are replaced. -/
def flat (D : List Token) (ps : List Piece) : List Char := ps.flatMap (Piece.chars value D)

/-- Every occurrence of the token is one of the template's own, and not replaced yet. -/
def Own (ps : List Piece) (D : List Token) (t : Token) : Prop :=
  ∀ a b, flat value D ps = a ++ (t.text.toList ++ b) →
    t ∉ D ∧ ∃ P Q, ps = P ++ .token t :: Q ∧ flat value D P = a

/-- When they are replaced one after the other, each of the tokens `ts` is such a one. -/
def InTurn (ps : List Piece) : (D : List Token) → (ts : List Token) → Prop
  | _, [] => True
  | D, t :: ts => Own value ps D t ∧ InTurn ps (t :: D) ts

end

/-- The name in a token of the kind `mk`. -/
def named (mk : String → Token) : Piece → Option String
  | .token (.field name) => if mk name = .field name then some name else none
  | .token (.previous stage) => if mk stage = .previous stage then some stage else none
  | _ => none

/-- The fields that the template names. -/
def fieldNames (ps : List Piece) : List String := ps.filterMap (named Token.field)

/-- The stages that the template names. -/
def stageNames (ps : List Piece) : List String := ps.filterMap (named Token.previous)

/-- The tokens that are replaced before `{input}`. -/
def early (ps : List Piece) : List Token := ((fieldNames ps).map Token.field).reverse ++ [.context]

/-- The stages that the template names are words; and what the code looks for it finds in the template's own tokens
only, when it looks for the tokens of a kind and each time it replaces one. -/
structure Plain (u : Unicode) (value : Token → String) (ps : List Piece) : Prop where
  words : ∀ stage, .token (.previous stage) ∈ ps → Word u stage
  context : Own value ps [] .context
  fields : ∀ name, Word u name → Own value ps [.context] (.field name)
  fieldsInTurn : InTurn value ps [.context] ((fieldNames ps).map Token.field)
  input : Own value ps (early ps) .input
  stages : ∀ stage, Word u stage → Own value ps (.input :: early ps) (.previous stage)
  stagesInTurn : InTurn value ps (.input :: early ps) ((stageNames ps).map Token.previous)

/-! ## The pieces of a template -/

theorem text_context : Token.context.text = "\x7bcontext\x7d" := rfl

theorem text_input : Token.input.text = "\x7binput\x7d" := rfl

theorem text_field (name : String) : (Token.field name).text = token "input" name := rfl

theorem text_previous (stage : String) : (Token.previous stage).text = token "previous_output" stage := rfl

section

variable {u : Unicode} {stages : List String} {s : List Char} {t : Token}

theorem toList_token (pre name : String) :
    (token pre name).toList = ("\x7b" ++ pre ++ ".").toList ++ (name.toList ++ ['\x7d']) := by
  simp [token]

theorem isWord_brace : u.isWord '\x7d' = false := by
  rw [u.word_ascii _ (by decide)]
  decide

/-- The token of a word, at the front. -/
theorem tokenAt_eq_some {pre : String} {name : String} :
    tokenAt u ("\x7b" ++ pre ++ ".").toList s = some name ↔ Word u name ∧ (token pre name).toList <+: s := by
  rw [toList_token]
  unfold tokenAt
  constructor
  · intro h
    split at h
    · rename_i hpre
      obtain ⟨rest, rfl⟩ := List.isPrefixOf_iff_prefix.mp hpre
      rw [List.drop_left] at h
      dsimp only at h
      split at h
      · rename_i hrest
        cases h
        rw [Word, String.toList_ofList]
        refine ⟨⟨hrest.1, fun c hc => List.mem_takeWhile_imp hc⟩, ?_⟩
        obtain ⟨after, hafter⟩ : ∃ after, rest.dropWhile u.isWord = '\x7d' :: after := by
          cases hd : rest.dropWhile u.isWord with
          | nil =>
            rw [hd] at hrest
            cases hrest.2
          | cons c after =>
            rw [hd] at hrest
            exact ⟨after, by rw [Option.some.inj hrest.2]⟩
        refine (List.prefix_append_right_inj _).mpr ⟨after, ?_⟩
        rw [List.append_assoc, List.singleton_append, ← hafter, List.takeWhile_append_dropWhile]
      · cases h
    · cases h
  · rintro ⟨⟨hne, hword⟩, rest, rfl⟩
    rw [List.append_assoc, if_pos (List.isPrefixOf_iff_prefix.mpr (List.prefix_append _ _)), List.drop_left]
    dsimp only
    rw [List.append_assoc, List.singleton_append, List.takeWhile_append_of_pos hword, List.dropWhile_append_of_pos hword,
      List.takeWhile_cons_of_neg (by simp [isWord_brace]), List.dropWhile_cons_of_neg (by simp [isWord_brace]),
      List.append_nil, if_pos ⟨hne, rfl⟩, String.ofList_toList]

theorem text_cons (t : Token) : ∃ body, t.text.toList = '\x7b' :: body := by
  cases t with
  | context => exact ⟨_, rfl⟩
  | field name => exact ⟨_, by simp [Token.text, token]; rfl⟩
  | input => exact ⟨_, rfl⟩
  | previous stage => exact ⟨_, by simp [Token.text, token]; rfl⟩

theorem prefix_of_tokenOf (h : tokenOf u stages s = some t) : t.text.toList <+: s ∧
    (∀ name, t = .field name → Word u name) := by
  unfold tokenOf at h
  split at h
  · rename_i hpre
    cases h
    exact ⟨List.isPrefixOf_iff_prefix.mp hpre, fun _ he => by cases he⟩
  split at h
  · rename_i hpre
    cases h
    exact ⟨List.isPrefixOf_iff_prefix.mp hpre, fun _ he => by cases he⟩
  rcases Option.or_eq_some_iff.mp h with h | ⟨-, h⟩
  · obtain ⟨name, hname, rfl⟩ := Option.map_eq_some_iff.mp h
    obtain ⟨hword, hpre⟩ := tokenAt_eq_some.mp hname
    exact ⟨hpre, fun _ he => by cases he; exact hword⟩
  · obtain ⟨stage, hstage, rfl⟩ := Option.map_eq_some_iff.mp h
    refine ⟨?_, fun _ he => by cases he⟩
    rcases Option.or_eq_some_iff.mp hstage with hfind | ⟨-, hat⟩
    · have hpre : (Token.previous stage).text.toList.isPrefixOf s = true :=
        (List.find?_eq_some_iff_append.mp hfind).1
      exact List.isPrefixOf_iff_prefix.mp hpre
    · exact (tokenAt_eq_some.mp hat).2

/-- The fields that are named are words. -/
theorem word_of_mem : ∀ {s : List Char} {skip : Nat} {name : String},
    .token (.field name) ∈ piecesFrom u stages skip s → Word u name
  | [], skip, name, h => by
    rw [piecesFrom] at h
    exact absurd h List.not_mem_nil
  | _ :: s, skip + 1, name, h => by
    have hrest : .token (.field name) ∈ piecesFrom u stages skip s := h
    exact word_of_mem hrest
  | c :: s, 0, name, h => by
    rw [piecesFrom] at h
    split at h
    · rename_i t ht
      rcases List.mem_cons.mp h with he | h
      · cases he
        exact (prefix_of_tokenOf ht).2 name rfl
      · exact word_of_mem h
    · rcases List.mem_cons.mp h with he | h
      · cases he
      · exact word_of_mem h

variable {value : Token → String}

theorem flat_cons (D : List Token) (p : Piece) (ps : List Piece) :
    flat value D (p :: ps) = p.chars value D ++ flat value D ps := rfl

/-- With no token replaced, the pieces are the text. -/
theorem flat_pieces : ∀ (s : List Char) (skip : Nat), flat value [] (piecesFrom u stages skip s) = s.drop skip
  | [], skip => by
    rw [piecesFrom, List.drop_nil]
    rfl
  | _ :: s, skip + 1 => by
    rw [piecesFrom, List.drop_succ_cons]
    exact flat_pieces s skip
  | c :: s, 0 => by
    rw [piecesFrom]
    split
    · rename_i t ht
      obtain ⟨rest, hrest⟩ := (prefix_of_tokenOf ht).1
      obtain ⟨body, hbody⟩ := text_cons t
      have htail : s = body ++ rest := by
        rw [hbody, List.cons_append] at hrest
        exact (List.cons.inj hrest).2.symm
      rw [flat_cons, flat_pieces s, Piece.chars, if_neg List.not_mem_nil, hbody, List.length_cons,
        Nat.add_sub_cancel, htail, List.drop_left, ← htail, List.drop_zero, ← hrest, hbody]
    · rw [flat_cons, flat_pieces s]
      rfl

/-- Where all that occurs is replaced. -/
theorem flat_of_all {D : List Token} : ∀ {ps : List Piece}, (∀ t, .token t ∈ ps → t ∈ D) →
    flat value D ps = ps.flatMap (Piece.replaced value)
  | [], _ => rfl
  | .char c :: ps, h => by
    rw [flat_cons, flat_of_all fun t ht => h t (List.mem_cons_of_mem _ ht)]
    rfl
  | .token t :: ps, h => by
    rw [flat_cons, flat_of_all fun t ht => h t (List.mem_cons_of_mem _ ht), Piece.chars, if_pos (h t List.mem_cons_self)]
    rfl

/-! ## Replacing a token -/

variable {D : List Token} {p : Piece} {ps : List Piece}

theorem Own.tail (h : Own value (p :: ps) D t) : Own value ps D t := by
  intro a b hab
  obtain ⟨hD, P, Q, hps, hP⟩ := h (p.chars value D ++ a) b (by rw [flat_cons, hab, List.append_assoc])
  refine ⟨hD, ?_⟩
  cases P with
  | nil =>
    -- the token itself has characters
    obtain ⟨rfl, -⟩ := List.cons.inj hps
    obtain ⟨body, hbody⟩ := text_cons t
    rw [Piece.chars, if_neg hD, hbody] at hP
    cases hP
  | cons p' P =>
    obtain ⟨rfl, htail⟩ := List.cons.inj hps
    exact ⟨P, Q, htail, List.append_cancel_left hP⟩

/-- Within a piece no occurrence begins, except at the front of the token itself. -/
theorem Own.inside (h : Own value (p :: ps) D t) {x y : List Char} (hxy : p.chars value D = x ++ y) (hy : y ≠ [])
    (hne : p ≠ .token t ∨ x ≠ [] ∨ t ∈ D) : ¬ t.text.toList <+: y ++ flat value D ps := by
  rintro ⟨b, hb⟩
  obtain ⟨hD, P, Q, hps, hP⟩ := h x b (by rw [flat_cons, hxy, List.append_assoc, hb])
  cases P with
  | nil =>
    obtain ⟨rfl, -⟩ := List.cons.inj hps
    rcases hne with hne | hne | hmem
    · exact hne rfl
    · exact hne hP.symm
    · exact hD hmem
  | cons p' P =>
    obtain ⟨rfl, -⟩ := List.cons.inj hps
    rw [flat_cons, hxy, List.append_assoc] at hP
    have hlength := congrArg List.length hP
    rw [List.length_append, List.length_append] at hlength
    have hpos := List.length_pos_iff.mpr hy
    omega

end

/-! ### `str.replace` -/

section

variable {old new : List Char}

/-- It passes over what no occurrence begins in. -/
theorem replaceFrom_pass : ∀ {w s : List Char}, (∀ x y, w = x ++ y → y ≠ [] → ¬ old <+: y ++ s) →
    replaceFrom old new 0 (w ++ s) = w ++ replaceFrom old new 0 s
  | [], _, _ => rfl
  | c :: w, s, h => by
    have hnot : ¬ old.isPrefixOf (c :: (w ++ s)) := fun hpre =>
      h [] (c :: w) rfl (List.cons_ne_nil c w) (List.isPrefixOf_iff_prefix.mp hpre)
    rw [List.cons_append, replaceFrom, if_neg hnot, replaceFrom_pass fun x y hxy => h (c :: x) y (by rw [hxy]; rfl)]
    rfl

theorem replaceFrom_skip : ∀ (w s : List Char), replaceFrom old new w.length (w ++ s) = replaceFrom old new 0 s
  | [], _ => rfl
  | _ :: w, s => replaceFrom_skip w s

/-- It replaces an occurrence. -/
theorem replaceFrom_hit {c : Char} {body s : List Char} (hold : old = c :: body) :
    replaceFrom old new 0 (old ++ s) = new ++ replaceFrom old new 0 s := by
  have hpre : old.isPrefixOf (c :: (body ++ s)) := List.isPrefixOf_iff_prefix.mpr ⟨s, by rw [hold]; rfl⟩
  have hlength : old.length - 1 = body.length := by rw [hold, List.length_cons, Nat.add_sub_cancel]
  rw [show old ++ s = c :: (body ++ s) by rw [hold]; rfl, replaceFrom, if_pos hpre, hlength, replaceFrom_skip]

variable {value : Token → String} {D : List Token} {t : Token}

/-- **To replace a token** all of whose occurrences are the template's own. -/
theorem replace_own : ∀ {ps : List Piece}, Own value ps D t →
    replaceFrom t.text.toList (value t).toList 0 (flat value D ps) = flat value (t :: D) ps
  | [], _ => rfl
  | p :: ps, h => by
    obtain ⟨body, hbody⟩ := text_cons t
    rw [flat_cons, flat_cons]
    by_cases hp : p = .token t ∧ t ∉ D
    · obtain ⟨rfl, hD⟩ := hp
      rw [Piece.chars, if_neg hD, replaceFrom_hit hbody, replace_own h.tail, Piece.chars, if_pos List.mem_cons_self]
    · have hne : p ≠ .token t ∨ t ∈ D := by
        by_contra hboth
        rw [not_or, not_not] at hboth
        exact hp hboth
      have hsame : p.chars value (t :: D) = p.chars value D := by
        cases p with
        | char c => rfl
        | token t' =>
          rw [Piece.chars, Piece.chars]
          by_cases ht : t' = t
          · have hD : t ∈ D := hne.resolve_left fun hne => hne (by rw [ht])
            rw [ht, if_pos List.mem_cons_self, if_pos hD]
          · simp only [List.mem_cons, ht, false_or]
      rw [hsame, replaceFrom_pass fun x y hxy hy => h.inside hxy hy (hne.imp_right Or.inr), replace_own h.tail]

/-- To replace tokens one after the other. -/
theorem replace_inTurn {ps : List Piece} : ∀ {ts D : List Token}, InTurn value ps D ts →
    ts.foldl (fun s t => replace s t.text (value t)) (.ofList (flat value D ps)) =
      .ofList (flat value (ts.reverse ++ D) ps)
  | [], _, _ => rfl
  | t :: ts, D, h => by
    have hfirst : replace (.ofList (flat value D ps)) t.text (value t) = .ofList (flat value (t :: D) ps) := by
      rw [replace, String.toList_ofList, replace_own h.1]
    rw [List.foldl_cons, hfirst, replace_inTurn h.2, List.reverse_cons, List.append_assoc, List.singleton_append]

end

/-! ### `re.findall` -/

section

variable {u : Unicode} {value : Token → String} {D : List Token} {pre : String} {mk : String → Token}

/-- It passes over what no match begins in. -/
theorem tails_pass {α : Type} {g : List Char → Option α} : ∀ {w s : List Char},
    (∀ x y, w = x ++ y → y ≠ [] → g (y ++ s) = none) → (w ++ s).tails.filterMap g = s.tails.filterMap g
  | [], _, _ => rfl
  | c :: w, s, h => by
    have hnone : g (c :: (w ++ s)) = none := h [] (c :: w) rfl (List.cons_ne_nil c w)
    rw [List.cons_append, List.tails, List.filterMap_cons_none hnone,
      tails_pass fun x y hxy => h (c :: x) y (by rw [hxy]; rfl)]

/-- **The names that are found** are those of the template's own tokens. -/
theorem findall_own (hmk : ∀ name, (mk name).text = token pre name)
    (hnamed : ∀ p name, named mk p = some name ↔ p = .token (mk name)) (hD : ∀ name, mk name ∉ D) :
    ∀ {ps : List Piece}, (∀ name, .token (mk name) ∈ ps → Word u name) →
      (∀ name, Word u name → Own value ps D (mk name)) →
        (flat value D ps).tails.filterMap (tokenAt u ("\x7b" ++ pre ++ ".").toList) = ps.filterMap (named mk)
  | [], _, _ => by
    have hnil : tokenAt u ("\x7b" ++ pre ++ ".").toList [] = none := by
      cases h : tokenAt u ("\x7b" ++ pre ++ ".").toList [] with
      | none => rfl
      | some name =>
        have htoken := (tokenAt_eq_some.mp h).2
        rw [← hmk] at htoken
        obtain ⟨body, hbody⟩ := text_cons (mk name)
        rw [hbody] at htoken
        exact absurd (List.prefix_nil.mp htoken) (List.cons_ne_nil _ _)
    show [[]].filterMap _ = _
    rw [List.filterMap_cons_none hnil]
    rfl
  | p :: ps, hword, hown => by
    have hrest := findall_own hmk hnamed hD (fun name h => hword name (List.mem_cons_of_mem _ h))
      fun name h => (hown name h).tail
    -- no match begins within the piece, except at the front of a token
    have hpass : ∀ {x y : List Char}, p.chars value D = x ++ y → y ≠ [] → (named mk p = none ∨ x ≠ []) →
        tokenAt u ("\x7b" ++ pre ++ ".").toList (y ++ flat value D ps) = none := by
      intro x y hxy hy hne
      cases h : tokenAt u ("\x7b" ++ pre ++ ".").toList (y ++ flat value D ps) with
      | none => rfl
      | some name =>
        obtain ⟨hname, htoken⟩ := tokenAt_eq_some.mp h
        rw [← hmk] at htoken
        refine absurd htoken ((hown name hname).inside hxy hy (hne.imp (fun hnone he => ?_) Or.inl))
        rw [(hnamed p name).mpr he] at hnone
        cases hnone
    rw [flat_cons]
    cases hname : named mk p with
    | none =>
      rw [List.filterMap_cons_none hname, ← hrest]
      exact tails_pass fun x y hxy hy => hpass hxy hy (.inl hname)
    | some name =>
      obtain rfl := (hnamed p name).mp hname
      have hchars : (Piece.token (mk name)).chars value D = (token pre name).toList := by
        rw [Piece.chars, if_neg (hD name), hmk]
      obtain ⟨body, hbody⟩ := text_cons (mk name)
      rw [hmk] at hbody
      have hat : tokenAt u ("\x7b" ++ pre ++ ".").toList ((token pre name).toList ++ flat value D ps) = some name :=
        tokenAt_eq_some.mpr ⟨hword name List.mem_cons_self, List.prefix_append _ _⟩
      rw [List.filterMap_cons_some hname, hchars, hbody, List.cons_append, List.tails]
      rw [hbody, List.cons_append] at hat
      rw [List.filterMap_cons_some hat, ← hrest]
      refine congrArg (name :: ·) (tails_pass fun x y hxy hy => hpass (x := '\x7b' :: x) ?_ hy (.inr ?_))
      · rw [hchars, hbody, hxy]
        rfl
      · exact List.cons_ne_nil _ _

theorem named_field (p : Piece) (name : String) : named Token.field p = some name ↔ p = .token (.field name) := by
  unfold named
  split
  · simp
  · simp
  · rename_i hfield _
    exact iff_of_false (fun h => by cases h) fun h => hfield name h

theorem named_previous (p : Piece) (stage : String) :
    named Token.previous p = some stage ↔ p = .token (.previous stage) := by
  unfold named
  split
  · simp
  · simp
  · rename_i _ hprevious
    exact iff_of_false (fun h => by cases h) fun h => hprevious stage h

end

/-! ## The prompt -/

section

variable (u : Unicode) (input_data : Input) (outputs : Outputs) (template : String)

theorem renderPrompt_eq : renderPrompt u input_data outputs template =
    let value := Token.value u input_data outputs
    let result := replace template Token.context.text (value .context)
    let result := (findall u "input" result).foldl
      (fun result m => replace result (Token.field m).text (value (.field m))) result
    let result := replace result Token.input.text (value .input)
    (findall u "previous_output" result).foldl
      (fun result m => replace result (Token.previous m).text (value (.previous m))) result := rfl

/-- **Plain substitution.** -/
theorem rendered_of_plain (h : Plain u (Token.value u input_data outputs) (pieces u outputs template)) :
    renderPrompt u input_data outputs template = simultaneous u input_data outputs template := by
  rw [renderPrompt_eq]
  generalize hvalue : Token.value u input_data outputs = value at h ⊢
  generalize hps : pieces u outputs template = ps at h
  have htemplate : template = .ofList (flat value [] ps) := by
    rw [← hps, pieces, flat_pieces, List.drop_zero, String.ofList_toList]
  have hfields : ∀ name, .token (.field name) ∈ ps → Word u name := fun name hmem => by
    rw [← hps, pieces] at hmem
    exact word_of_mem hmem
  have hcontext : replace template Token.context.text (value .context) = .ofList (flat value [.context] ps) := by
    rw [htemplate]
    exact replace_inTurn (show InTurn value ps [] [.context] from ⟨h.context, trivial⟩)
  have hinput : replace (.ofList (flat value (early ps) ps)) Token.input.text (value .input) =
      .ofList (flat value (.input :: early ps) ps) :=
    replace_inTurn (show InTurn value ps (early ps) [.input] from ⟨h.input, trivial⟩)
  have hfound : findall u "input" (.ofList (flat value [.context] ps)) = fieldNames ps := by
    rw [findall, String.toList_ofList]
    exact findall_own (fun name => text_field name) named_field (by simp) hfields h.fields
  have hfound' : findall u "previous_output" (.ofList (flat value (.input :: early ps) ps)) = stageNames ps := by
    rw [findall, String.toList_ofList]
    exact findall_own (fun stage => text_previous stage) named_previous (by simp [early]) h.words h.stages
  have hfold := replace_inTurn h.fieldsInTurn
  have hfold' := replace_inTurn h.stagesInTurn
  rw [List.foldl_map] at hfold hfold'
  dsimp only
  rw [hcontext, hfound, hfold, ← early, hinput, hfound', hfold', simultaneous, hps, hvalue, flat_of_all]
  intro t ht
  cases t with
  | context => simp [early]
  | input => simp
  | field name =>
    have hmem : name ∈ fieldNames ps := List.mem_filterMap.mpr ⟨_, ht, (named_field _ _).mpr rfl⟩
    simp [early, hmem]
  | previous stage =>
    have hmem : stage ∈ stageNames ps := List.mem_filterMap.mpr ⟨_, ht, (named_previous _ _).mpr rfl⟩
    simp [hmem]

end

/-! ## Texts without braces -/

/-- What stands between the braces of a token. -/
def Token.inner : Token → List Char
  | .context => "context".toList
  | .field name => "input.".toList ++ name.toList
  | .input => "input".toList
  | .previous stage => "previous_output.".toList ++ stage.toList

/-- A token that the code looks for: its name is a word. -/
def Token.IsWord (u : Unicode) : Token → Prop
  | .context | .input => True
  | .field name | .previous name => Word u name

/-- The piece brings in no `{`, but that of a token the code looks for. -/
def Piece.Braceless (u : Unicode) (value : Token → String) : Piece → Prop
  | .char c => c ≠ '\x7b'
  | .token t => '\x7b' ∉ (value t).toList ∧ t.IsWord u

instance (u : Unicode) (name : String) : Decidable (Word u name) :=
  @instDecidableAnd _ _ inferInstance (List.decidableBAll (u.isWord · = true) name.toList)

instance (u : Unicode) : (t : Token) → Decidable (t.IsWord u)
  | .context | .input => .isTrue trivial
  | .field name | .previous name => inferInstanceAs (Decidable (Word u name))

instance (u : Unicode) (value : Token → String) : (p : Piece) → Decidable (p.Braceless u value)
  | .char c => inferInstanceAs (Decidable (c ≠ '\x7b'))
  | .token t => inferInstanceAs (Decidable ('\x7b' ∉ (value t).toList ∧ t.IsWord u))

section

variable {u : Unicode} {value : Token → String} {t t' : Token} {D : List Token}

theorem inner_input : Token.input.inner = "input".toList := rfl

theorem inner_context : Token.context.inner = "context".toList := rfl

theorem inner_field (name : String) : (Token.field name).inner = "input.".toList ++ name.toList := rfl

theorem inner_previous (stage : String) :
    (Token.previous stage).inner = "previous_output.".toList ++ stage.toList := rfl

theorem text_inner (t : Token) : t.text.toList = '\x7b' :: (t.inner ++ ['\x7d']) := by
  cases t with
  | context =>
    rw [inner_context, text_context]
    decide
  | field name =>
    rw [inner_field, text_field, toList_token]
    simp
  | input =>
    rw [inner_input, text_input]
    decide
  | previous stage =>
    rw [inner_previous, text_previous, toList_token]
    simp

/-- A word has no braces. -/
theorem not_mem_inner (h : t.IsWord u) : '\x7b' ∉ t.inner ∧ '\x7d' ∉ t.inner := by
  have hbrace : u.isWord '\x7b' = false := by
    rw [u.word_ascii _ (by decide)]
    decide
  have hname : ∀ {name : String}, Word u name → '\x7b' ∉ name.toList ∧ '\x7d' ∉ name.toList := fun hword =>
    ⟨fun hmem => absurd (hword.2 _ hmem) (by simp [hbrace]),
      fun hmem => absurd (hword.2 _ hmem) (by simp [isWord_brace])⟩
  cases t with
  | context =>
    rw [inner_context]
    exact ⟨by decide, by decide⟩
  | input =>
    rw [inner_input]
    exact ⟨by decide, by decide⟩
  | field name =>
    rw [inner_field]
    exact ⟨by simp [(hname h).1], by simp [(hname h).2]⟩
  | previous stage =>
    rw [inner_previous]
    exact ⟨by simp [(hname h).1], by simp [(hname h).2]⟩

theorem inner_inj (h : t.inner = t'.inner) : t = t' := by
  cases t with
  | context =>
    cases t' with
    | context => rfl
    | input => simp [inner_context, inner_input] at h
    | field name => simp [inner_context, inner_field] at h
    | previous stage => simp [inner_context, inner_previous] at h
  | field name =>
    cases t' with
    | field name' => rw [String.toList_inj.mp (List.append_cancel_left h)]
    | context => simp [inner_context, inner_field] at h
    | input => simp [inner_input, inner_field] at h
    | previous stage => simp [inner_field, inner_previous] at h
  | input =>
    cases t' with
    | input => rfl
    | context => simp [inner_context, inner_input] at h
    | field name => simp [inner_input, inner_field] at h
    | previous stage => simp [inner_input, inner_previous] at h
  | previous stage =>
    cases t' with
    | previous stage' => rw [String.toList_inj.mp (List.append_cancel_left h)]
    | context => simp [inner_context, inner_previous] at h
    | input => simp [inner_input, inner_previous] at h
    | field name => simp [inner_field, inner_previous] at h

/-- Of two tokens of words that stand at one place, each is the other. -/
theorem eq_of_text {x y : List Char} (h : t.IsWord u) (h' : t'.IsWord u)
    (he : t.text.toList ++ x = t'.text.toList ++ y) : t = t' := by
  have hbefore : ∀ {t : Token} {x : List Char}, t.IsWord u →
      (t.text.toList ++ x).takeWhile (· ≠ '\x7d') = '\x7b' :: t.inner := by
    intro t x ht
    rw [text_inner, List.cons_append, List.takeWhile_cons_of_pos (by decide), List.append_assoc,
      List.takeWhile_append_of_pos fun c hc => decide_eq_true (ne_of_mem_of_not_mem hc (not_mem_inner ht).2)]
    simp
  have hboth := congrArg (List.takeWhile (· ≠ '\x7d')) he
  rw [hbefore h, hbefore h'] at hboth
  exact inner_inj (List.cons.inj hboth).2

/-- A `{` in the text is that of a token. -/
theorem exists_token_of_brace : ∀ {ps : List Piece} {a r : List Char}, (∀ p ∈ ps, p.Braceless u value) →
    flat value D ps = a ++ '\x7b' :: r → ∃ P t Q, ps = P ++ .token t :: Q ∧ t ∉ D ∧ t.IsWord u ∧ flat value D P = a
  | [], a, r, _, h => by
    have hmem : '\x7b' ∈ flat value D [] := by
      rw [h]
      simp
    exact absurd hmem List.not_mem_nil
  | p :: ps, a, r, hbraceless, h => by
    have hp := hbraceless p List.mem_cons_self
    rw [flat_cons] at h
    have hlater : ∀ {a' : List Char}, a = p.chars value D ++ a' → flat value D ps = a' ++ '\x7b' :: r →
        ∃ P t Q, p :: ps = P ++ .token t :: Q ∧ t ∉ D ∧ t.IsWord u ∧ flat value D P = a := by
      intro a' ha h
      obtain ⟨P, t, Q, rfl, hD, ht, hP⟩ :=
        exists_token_of_brace (fun p hp => hbraceless p (List.mem_cons_of_mem _ hp)) h
      exact ⟨p :: P, t, Q, rfl, hD, ht, by rw [flat_cons, hP, ha]⟩
    rcases List.append_eq_append_iff.mp h with ⟨a', ha, hrest⟩ | ⟨c, hchars, hrest⟩
    · exact hlater ha hrest
    cases c with
    | nil =>
      rw [List.append_nil] at hchars
      rw [List.nil_append] at hrest
      have ha : a = p.chars value D ++ [] := by rw [hchars, List.append_nil]
      exact hlater ha hrest.symm
    | cons x c =>
      obtain ⟨rfl, -⟩ := List.cons.inj hrest
      cases p with
      | char y =>
        have hmem : '\x7b' ∈ [y] := by
          rw [show [y] = (Piece.char y).chars value D from rfl, hchars]
          simp
        exact absurd (List.mem_singleton.mp hmem).symm hp
      | token t =>
        by_cases hD : t ∈ D
        · have hmem : '\x7b' ∈ (value t).toList := by
            rw [Piece.chars, if_pos hD] at hchars
            rw [hchars]
            simp
          exact absurd hmem hp.1
        · rw [Piece.chars, if_neg hD, text_inner] at hchars
          cases a with
          | nil => exact ⟨[], t, ps, rfl, hD, hp.2, rfl⟩
          | cons y a =>
            have hinner := (List.cons.inj hchars).2
            have hmem : '\x7b' ∈ t.inner ++ ['\x7d'] := by
              rw [hinner]
              simp
            rcases List.mem_append.mp hmem with hmem | hmem
            · exact absurd hmem (not_mem_inner hp.2).1
            · exact absurd (List.mem_singleton.mp hmem) (by decide)

theorem own_of_braceless {ps : List Piece} (hps : ∀ p ∈ ps, p.Braceless u value) (ht : t.IsWord u) :
    Own value ps D t := by
  intro a b h
  have hbrace := h
  rw [text_inner, List.cons_append] at hbrace
  obtain ⟨P, t', Q, rfl, hD, ht', hP⟩ := exists_token_of_brace hps hbrace
  have hsplit : flat value D (P ++ .token t' :: Q) = a ++ (t'.text.toList ++ flat value D Q) := by
    rw [flat, List.flatMap_append, ← flat, hP]
    rw [List.flatMap_cons, Piece.chars, if_neg hD, ← flat]
  rw [hsplit] at h
  obtain rfl := eq_of_text ht' ht (List.append_cancel_left h)
  exact ⟨hD, P, Q, rfl, hP⟩

theorem inTurn_of_braceless {ps : List Piece} (hps : ∀ p ∈ ps, p.Braceless u value) : ∀ {ts D : List Token},
    (∀ t ∈ ts, t.IsWord u) → InTurn value ps D ts
  | [], _, _ => trivial
  | t :: _, _, h => ⟨own_of_braceless hps (h t List.mem_cons_self),
      inTurn_of_braceless hps fun t ht => h t (List.mem_cons_of_mem _ ht)⟩

/-- **Where no `{` is inserted** and none stands between the tokens. -/
theorem plain_of_braceless {ps : List Piece} (hps : ∀ p ∈ ps, p.Braceless u value) : Plain u value ps where
  words stage h := (hps _ h).2
  context := own_of_braceless hps trivial
  fields _ h := own_of_braceless hps h
  fieldsInTurn := inTurn_of_braceless hps fun t ht => by
    obtain ⟨name, hname, rfl⟩ := List.mem_map.mp ht
    obtain ⟨p, hp, hnamed⟩ := List.mem_filterMap.mp hname
    obtain rfl := (named_field p name).mp hnamed
    exact (hps _ hp).2
  input := own_of_braceless hps trivial
  stages _ h := own_of_braceless hps h
  stagesInTurn := inTurn_of_braceless hps fun t ht => by
    obtain ⟨stage, hstage, rfl⟩ := List.mem_map.mp ht
    obtain ⟨p, hp, hnamed⟩ := List.mem_filterMap.mp hstage
    obtain rfl := (named_previous p stage).mp hnamed
    exact (hps _ hp).2

end

/-! ## A review -/

/-- A task, and the output of a stage that has come before. -/
def shipIt : Input := Dict.ofList [("task", .str "ship it")]

def planned (output : String) : Outputs := Dict.ofList [("plan", output)]

def reviewTemplate : String := "Review \x7bprevious_output.plan\x7d for \x7binput\x7d"

theorem rendered_of_plain_review : renderPrompt .ascii shipIt (planned "1. test") reviewTemplate =
    simultaneous .ascii shipIt (planned "1. test") reviewTemplate :=
  rendered_of_plain .ascii shipIt (planned "1. test") reviewTemplate (plain_of_braceless (by decide +kernel))

/-- **A token in an output** is taken for one of the template. -/
theorem output_interpreted : ¬ ∀ (u : Unicode) (input_data : Input) (outputs : Outputs) (template : String),
    renderPrompt u input_data outputs template = simultaneous u input_data outputs template := by
  intro h
  have hsame := h .ascii shipIt (planned "see \x7binput\x7d") "\x7bcontext\x7d"
  revert hsame
  decide +kernel

end ClaudeSwarm.Pipeline
