import ClaudeSwarm.Data.Json

/-!
# `repr` and the classes of characters

`repr` of a string, as the sources use it inside a list, a dictionary or a format string: quoted with `'`, or with
`"` where the text has a `'` and no `"`; backslashes, the quote and what is not printable are escaped. Which
characters outside ASCII are printable, and which are word characters for `re`, is a table of Python's (`Unicode`).
-/

namespace ClaudeSwarm.Python

open Data

/-- Python's tables of printable characters and of word characters, fixed on ASCII. -/
structure Unicode where
  isPrintable : Char → Bool
  isWord : Char → Bool
  printable_ascii : ∀ c : Char, c.toNat < 128 → isPrintable c = (32 ≤ c.toNat && c.toNat < 127)
  word_ascii : ∀ c : Char, c.toNat < 128 → isWord c = (c.isAlphanum || c == '_')

/-- The tables that know ASCII only. -/
def Unicode.ascii : Unicode where
  isPrintable c := 32 ≤ c.toNat && c.toNat < 127
  isWord c := c.isAlphanum || c == '_'
  printable_ascii _ _ := rfl
  word_ascii _ _ := rfl

/-- The lowest `n` hexadecimal digits. -/
def hexDigits (n value : Nat) : List Char :=
  (List.range n).reverse.map fun i => Json.hexDigit (value / 16 ^ i % 16)

/-- One character of a `repr`. -/
def reprChar (u : Unicode) (quote c : Char) : List Char :=
  if c = quote ∨ c = '\\' then ['\\', c]
  else if c = '\t' then ['\\', 't']
  else if c = '\n' then ['\\', 'n']
  else if c = '\r' then ['\\', 'r']
  else if u.isPrintable c then [c]
  else if c.toNat < 0x100 then ['\\', 'x'] ++ hexDigits 2 c.toNat
  else if c.toNat < 0x10000 then ['\\', 'u'] ++ hexDigits 4 c.toNat
  else ['\\', 'U'] ++ hexDigits 8 c.toNat

/-- The quotes of a `repr`. -/
def reprQuote (s : List Char) : Char := if '\x27' ∈ s ∧ '"' ∉ s then '"' else '\x27'

/-- `repr(s)`. -/
def repr (u : Unicode) (s : List Char) : List Char :=
  reprQuote s :: (s.flatMap (reprChar u (reprQuote s)) ++ [reprQuote s])

/-- `str` of a list of strings. -/
def reprList (u : Unicode) (l : List String) : String :=
  "[" ++ ", ".intercalate (l.map fun s => .ofList (repr u s.toList)) ++ "]"

/-- `repr` of a string. -/
def reprStr (u : Unicode) (s : String) : List Char := repr u s.toList

/-- `repr` of a float, whose JSON text differs where it is not finite. -/
def reprFloat (text : String) : List Char :=
  if text = "NaN" then "nan".toList
  else if text = "Infinity" then "inf".toList
  else if text = "-Infinity" then "-inf".toList
  else text.toList

mutual

/-- `repr` of a JSON value. -/
def reprJson (u : Unicode) : Json → List Char
  | .null => "None".toList
  | .bool b => if b then "True".toList else "False".toList
  | .int i => (toString i).toList
  | .float text => reprFloat text
  | .str s => reprStr u s
  | .arr [] => ['[', ']']
  | .arr (v :: l) => '[' :: (reprJson u v ++ reprElems u l)
  | .obj [] => ['{', '}']
  | .obj ((k, v) :: l) => '{' :: (reprStr u k ++ [':', ' '] ++ reprJson u v ++ reprMembers u l)

/-- The rest of a list after its first element. -/
def reprElems (u : Unicode) : List Json → List Char
  | [] => [']']
  | v :: l => [',', ' '] ++ reprJson u v ++ reprElems u l

/-- The rest of a dictionary after its first member. -/
def reprMembers (u : Unicode) : List (String × Json) → List Char
  | [] => ['}']
  | (k, v) :: l => [',', ' '] ++ reprStr u k ++ [':', ' '] ++ reprJson u v ++ reprMembers u l

end

/-- `str` of a JSON value. -/
def strJson (u : Unicode) : Json → String
  | .str s => s
  | v => .ofList (reprJson u v)

end ClaudeSwarm.Python
