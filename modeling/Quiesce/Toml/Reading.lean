set_option autoImplicit false

namespace Quiesce.Toml

abbrev Reader (α : Type) := List Char → Option (α × List Char)

namespace Reader

variable {α : Type}

/-- One or more items. `next` reads what stands between two of them, and its refusal ends the list.
The rest has to become shorter from item to item. -/
def separated (item : Reader α) (next : List Char → Option (List Char)) (s : List Char) :
    Option (List α × List Char) := do
  let (x, rest) ← item s
  match next rest with
  | none => some ([x], rest)
  | some following =>
    if following.length < s.length then
      let (xs, rest) ← separated item next following
      some (x :: xs, rest)
    else none
termination_by s.length

end Reader

def isSpace (c : Char) : Bool := c = ' ' || c = '\t'

def isText (c : Char) : Bool := c = '\t' || (0x20 ≤ c.toNat && c.toNat ≠ 0x7f)

def skipSpaces (s : List Char) : List Char := s.dropWhile isSpace

def isLineEnd (c : Char) (rest : List Char) : Bool :=
  c = '\n' || (c = '\r' && rest.head? = some '\n')

def skipBlankFrom (inComment : Bool) : List Char → List Char
  | [] => []
  | c :: rest =>
    if inComment && isText c then skipBlankFrom true rest
    else if isSpace c || isLineEnd c rest then skipBlankFrom false rest
    else if c = '#' then skipBlankFrom true rest
    else c :: rest

def skipBlank (s : List Char) : List Char := skipBlankFrom false s

def endsLine (s : List Char) : Bool :=
  match skipSpaces s with
  | [] => true
  | c :: rest => c = '#' || isLineEnd c rest

def prepend (c : Char) : Option (List Char × List Char) → Option (List Char × List Char) :=
  Option.map fun r => (c :: r.1, r.2)

def hexDigit? (c : Char) : Option Nat :=
  if '0' ≤ c ∧ c ≤ '9' then some (c.toNat - '0'.toNat)
  else if 'a' ≤ c ∧ c ≤ 'f' then some (c.toNat - 'a'.toNat + 10)
  else if 'A' ≤ c ∧ c ≤ 'F' then some (c.toNat - 'A'.toNat + 10)
  else none

def escaped? : Char → Option Char
  | 'b' => some '\x08'
  | 't' => some '\t'
  | 'n' => some '\n'
  | 'f' => some '\x0c'
  | 'r' => some '\r'
  | 'e' => some '\x1b'
  | '"' => some '"'
  | '\\' => some '\\'
  | _ => none

def codeLength? : Char → Option Nat
  | 'x' => some 2
  | 'u' => some 4
  | 'U' => some 8
  | _ => none

def scalarValue? (n : Nat) : Option Char :=
  if n.isValidChar then some (Char.ofNat n) else none

/-- Three quotes have been read: up to two more belong to the string. -/
def closing (quote : Char) (rest : List Char) : List Char × List Char :=
  let extra := (rest.take 2).takeWhile (· = quote)
  (extra, rest.drop extra.length)

def trimFirstLine : List Char → List Char
  | '\n' :: rest => rest
  | '\r' :: '\n' :: rest => rest
  | s => s

namespace Basic

inductive State where
  | plain
  | escape
  | code (left value : Nat)
  | lastOfLine
  | folded
deriving DecidableEq, Repr

def codeStep (left value : Nat) (c : Char) : Option (State ⊕ Char) := do
  let d ← hexDigit? c
  let value := 16 * value + d
  if left ≤ 1 then (scalarValue? value).map .inr else some (.inl (.code (left - 1) value))

def escapeStep (c : Char) : Option (State ⊕ Char) :=
  match escaped? c with
  | some d => some (.inr d)
  | none => (codeLength? c).map fun n => .inl (.code n 0)

def line : State → Reader (List Char)
  | _, [] => none
  | .escape, c :: rest => do
    match ← escapeStep c with
    | .inl state => line state rest
    | .inr d => prepend d (line .plain rest)
  | .code left value, c :: rest => do
    match ← codeStep left value c with
    | .inl state => line state rest
    | .inr d => prepend d (line .plain rest)
  | _, c :: rest =>
    if c = '"' then some ([], rest)
    else if c = '\\' then line .escape rest
    else if isText c then prepend c (line .plain rest)
    else none

def lines : State → Reader (List Char)
  | _, [] => none
  | .escape, c :: rest => do
    if isSpace c then lines .lastOfLine rest
    else if isLineEnd c rest then lines .folded rest
    else match ← escapeStep c with
      | .inl state => lines state rest
      | .inr d => prepend d (lines .plain rest)
  | .code left value, c :: rest => do
    match ← codeStep left value c with
    | .inl state => lines state rest
    | .inr d => prepend d (lines .plain rest)
  | .lastOfLine, c :: rest =>
    if isSpace c then lines .lastOfLine rest
    else if isLineEnd c rest then lines .folded rest
    else none
  | state, c :: rest =>
    if state = .folded && (isSpace c || isLineEnd c rest) then lines .folded rest
    else if ['"', '"', '"'].isPrefixOf (c :: rest) then some (closing '"' (rest.drop 2))
    else if c = '\\' then lines .escape rest
    else if isText c || isLineEnd c rest then prepend c (lines .plain rest)
    else none

end Basic

namespace Literal

def line : Reader (List Char)
  | [] => none
  | c :: rest =>
    if c = '\'' then some ([], rest)
    else if isText c then prepend c (line rest)
    else none

def lines : Reader (List Char)
  | [] => none
  | c :: rest =>
    if ['\'', '\'', '\''].isPrefixOf (c :: rest) then some (closing '\'' (rest.drop 2))
    else if isText c || isLineEnd c rest then prepend c (lines rest)
    else none

end Literal

def quotedLine : Reader String
  | '"' :: rest => (Basic.line .plain rest).map fun r => (String.ofList r.1, r.2)
  | '\'' :: rest => (Literal.line rest).map fun r => (String.ofList r.1, r.2)
  | _ => none

def quoted : Reader String
  | '"' :: '"' :: '"' :: rest =>
    (Basic.lines .plain (trimFirstLine rest)).map fun r => (String.ofList r.1, r.2)
  | '\'' :: '\'' :: '\'' :: rest =>
    (Literal.lines (trimFirstLine rest)).map fun r => (String.ofList r.1, r.2)
  | s => quotedLine s

end Quiesce.Toml
