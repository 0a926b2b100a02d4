import ClaudeSwarm.Pipeline.Definition
import ClaudeSwarm.Python.Repr

/-!
# The prompts of a pipeline

Model of `PipelineContext.render_prompt` (`src/pipeline.py`). `input_data` is a dictionary of values of which only
the texts are used. `\w` and the printable characters are Python's (`Unicode`).
-/

namespace ClaudeSwarm.Pipeline

open Data Python

/-- A value of `input_data`: a string, or any other value, whose `str` is its `repr`. -/
inductive Value where
  | str (s : String)
  | other (text : String)
  deriving DecidableEq

/-- `str(value)`. -/
def Value.text : Value → String
  | .str s => s
  | .other text => text

/-- `repr(value)`. -/
def Value.repr (u : Unicode) : Value → String
  | .str s => .ofList (Python.repr u s.toList)
  | .other text => text

/-- `input_data`. -/
abbrev Input := Dict String Value

/-- `str(input_data)`. -/
def strInput (u : Unicode) (d : Input) : String :=
  "\x7b" ++ ", ".intercalate (d.entries.map fun e => .ofList (Python.repr u e.1.toList) ++ ": " ++ e.2.repr u) ++ "\x7d"

/-- `outputs`: the text each stage has put out. -/
abbrev Outputs := Dict String String

/-- `str.replace`; the characters still to skip belong to the occurrence replaced last. -/
def replaceFrom (old new : List Char) : (skip : Nat) → List Char → List Char
  | _, [] => []
  | skip + 1, _ :: s => replaceFrom old new skip s
  | 0, c :: s =>
    if old.isPrefixOf (c :: s) then new ++ replaceFrom old new (old.length - 1) s
    else c :: replaceFrom old new 0 s

/-- `s.replace(old, new)`. -/
def replace (s old new : String) : String := .ofList (replaceFrom old.toList new.toList 0 s.toList)

/-- A token `{pre.name}` at the front: its name. -/
def tokenAt (u : Unicode) (pre s : List Char) : Option String :=
  if pre.isPrefixOf s then
    let rest := s.drop pre.length
    if rest.takeWhile u.isWord ≠ [] ∧ (rest.dropWhile u.isWord).head? = some '\x7d' then
      some (.ofList (rest.takeWhile u.isWord))
    else none
  else none

/-- `re.findall` of `\{pre\.(\w+)\}`. -/
def findall (u : Unicode) (pre s : String) : List String :=
  s.toList.tails.filterMap (tokenAt u ("\x7b" ++ pre ++ ".").toList)

/-- The token of a field. -/
def token (pre name : String) : String := "\x7b" ++ pre ++ "." ++ name ++ "\x7d"

/-- `render_prompt`. -/
def renderPrompt (u : Unicode) (input_data : Input) (outputs : Outputs) (template : String) : String :=
  let ctx_text := "\n\n".intercalate (outputs.entries.map fun e => "=== " ++ e.1 ++ " ===\n" ++ e.2)
  let result := replace template "\x7bcontext\x7d" ctx_text
  let result := (findall u "input" result).foldl (fun result m =>
    let val := ((input_data.get? m).map Value.text).getD ("<input." ++ m ++ " not found>")
    replace result (token "input" m) val) result
  let result := replace result "\x7binput\x7d" (((input_data.get? "task").map Value.text).getD (strInput u input_data))
  (findall u "previous_output" result).foldl (fun result m =>
    let val := (outputs.get? m).getD ("<output of \x27" ++ m ++ "\x27 not available>")
    replace result (token "previous_output" m) val) result

end ClaudeSwarm.Pipeline
