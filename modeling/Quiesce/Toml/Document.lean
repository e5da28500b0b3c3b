import Quiesce.Toml.Value

set_option autoImplicit false

/-! Headers and dotted keys open tables on their way. How a table came to be decides who may still
add to it. -/

namespace Quiesce.Toml

structure Path where
  tables : List String
  key : String
deriving DecidableEq, Repr

inductive Written where
  | scalar (s : Scalar)
  | array (items : List Written)
  | table (entries : List (Path × Written))

def isBare (c : Char) : Bool :=
  ('a' ≤ c && c ≤ 'z') || ('A' ≤ c && c ≤ 'Z') || isDigit c || c = '_' || c = '-'

def bareKey : Reader String := fun s =>
  let key := s.takeWhile isBare
  if key.isEmpty then none else some (String.ofList key, s.dropWhile isBare)

def simpleKey : Reader String := fun s =>
  match s with
  | '"' :: _ => quotedLine s
  | '\'' :: _ => quotedLine s
  | _ => bareKey s

def Path.ofKeys? (keys : List String) : Option Path :=
  keys.getLast?.map fun key => ⟨keys.dropLast, key⟩

def maxKeys : Nat := 80

def keyPoint (s : List Char) : Option (List Char) :=
  match skipSpaces s with
  | '.' :: rest => some (skipSpaces rest)
  | _ => none

def path : Reader Path := fun s => do
  let (keys, rest) ← Reader.separated simpleKey keyPoint s
  let p ← Path.ofKeys? keys
  if keys.length ≤ maxKeys then some (p, rest) else none

def endsWord (c : Char) : Bool := isSpace c || "\r\n=,[]#\x7b\x7d".toList.contains c

def wordFollows (s : List Char) : Bool :=
  (skipSpaces s).head?.any fun c => !endsWord c && c ≠ '"' && c ≠ '\''

/-- Words without quotes are one text with the spaces between them, as in a date and its time. -/
def atom : List Char → List Char × List Char
  | [] => ([], [])
  | c :: rest =>
    if !endsWord c || (isSpace c && wordFollows rest) then
      let (text, rest) := atom rest
      (c :: text, rest)
    else ([], c :: rest)

def scalarOf? (s : List Char) : Option Scalar :=
  if s = "true".toList then some (.boolean true)
  else if s = "false".toList then some (.boolean false)
  else match integer? s with
    | some n => some (.integer n)
    | none => match float? s with
      | some x => some (.float x)
      | none =>
        if isMoment s then some .moment
        else if hasIntegerOutline s then some .noNumber
        else none

def scalar : Reader Scalar := fun s =>
  match s with
  | '"' :: _ => (quoted s).map fun r => (.text r.1, r.2)
  | '\'' :: _ => (quoted s).map fun r => (.text r.1, r.2)
  | _ =>
    let (text, rest) := atom s
    (scalarOf? text).map fun x => (x, rest)

def comma (close : Char) (s : List Char) : Option (List Char) :=
  match skipBlank s with
  | ',' :: rest =>
    let rest := skipBlank rest
    if rest.head? = some close then none else some rest
  | _ => none

def closeAfter (close : Char) (s : List Char) : Option (List Char) :=
  match skipBlank s with
  | ',' :: rest => closed (skipBlank rest)
  | rest => closed rest
where
  closed : List Char → Option (List Char)
    | c :: rest => if c = close then some rest else none
    | [] => none

def bracketed {α : Type} (item : Reader α) (close : Char) : Reader (List α) := fun s => do
  match skipBlank s with
  | [] => none
  | c :: rest =>
    if c = close then some ([], rest)
    else
      let (items, rest) ← Reader.separated item (comma close) (c :: rest)
      some (items, ← closeAfter close rest)

/-- A path and its value; `skip` takes away what may stand around the sign between them. -/
def entry {α : Type} (skip : List Char → List Char) (value : Reader α) : Reader (Path × α) :=
  fun s => do
    let (p, rest) ← path s
    match skip rest with
    | '=' :: rest =>
      let (x, rest) ← value (skip rest)
      some ((p, x), rest)
    | _ => none

def maxDepth : Nat := 80

/-- A value with at most `depth` brackets around any of its parts. -/
def written : Nat → Reader Written
  | 0 => fun s => (scalar s).map fun r => (.scalar r.1, r.2)
  | depth + 1 => fun s =>
    match s with
    | '[' :: rest => (bracketed (written depth) ']' rest).map fun r => (.array r.1, r.2)
    | '\x7b' :: rest =>
      (bracketed (entry skipBlank (written depth)) '\x7d' rest).map fun r => (.table r.1, r.2)
    | _ => (scalar s).map fun r => (.scalar r.1, r.2)

inductive Statement where
  | entry (path : Path) (value : Written)
  | header (path : Path)
  | arrayHeader (path : Path)

def headerPath (closing : List Char) (s : List Char) : Option (Path × List Char) := do
  let (p, rest) ← path (skipSpaces s)
  let rest := skipSpaces rest
  if closing.isPrefixOf rest then some (p, rest.drop closing.length) else none

def statement : Reader Statement := fun s =>
  match s with
  | '[' :: '[' :: rest => (headerPath [']', ']'] rest).map fun r => (.arrayHeader r.1, r.2)
  | '[' :: rest => (headerPath [']'] rest).map fun r => (.header r.1, r.2)
  | _ => (entry skipSpaces (written maxDepth) s).map fun r => (.entry r.1.1 r.1.2, r.2)

def statements (s : List Char) : Option (List Statement) :=
  match skipBlank s with
  | [] => some []
  | c :: start => do
    let (x, rest) ← statement (c :: start)
    if endsLine rest && rest.length < s.length then (x :: ·) <$> statements rest else none
termination_by s.length
decreasing_by simp_all

def byteOrderMark : Char := Char.ofNat 0xfeff

def skipMark : List Char → List Char
  | c :: rest => if c = byteOrderMark then rest else c :: rest
  | [] => []

inductive Made where
  | passing
  | dotted
  | declared
deriving DecidableEq, Repr

inductive Node where
  | value (v : Value)
  | table (made : Made) (entries : List (String × Node))
  | tables (done : List Value) (last : List (String × Node))

abbrev Entries := List (String × Node)

namespace Entries

def set (key : String) (node : Node) : Entries → Entries
  | [] => [(key, node)]
  | (k, n) :: rest => if k = key then (key, node) :: rest else (k, n) :: set key node rest

/-- A change of the table at the end of a way through tables, made as the way needs them. -/
def within (dotted : Bool) (change : Made → Entries → Option (Made × Entries)) :
    List String → Made → Entries → Option (Made × Entries)
  | [], made, entries => change made entries
  | key :: way, made, entries => do
    match entries.lookup key with
    | none =>
      let (m, inner) ← within dotted change way (if dotted then .dotted else .passing) []
      some (made, set key (.table m inner) entries)
    | some (.value _) => none
    | some (.tables done last) =>
      let (_, inner) ← within dotted change way .declared last
      some (made, set key (.tables done inner) entries)
    | some (.table m inner) =>
      if dotted && m = .declared then none
      else
        let (m, inner) ← within dotted change way (if dotted then .dotted else m) inner
        some (made, set key (.table m inner) entries)

/-- Sets a new key. A dotted key may pass the last table of an array, but not end in it. -/
def put (path : Path) (node : Node) (made : Made) (entries : Entries) : Option (Made × Entries) :=
  within true (fun m inner =>
    if (m = .dotted ↔ path.tables ≠ []) ∧ (inner.lookup path.key).isNone then
      some (m, set path.key node inner)
    else none) path.tables made entries

end Entries

mutual

def Node.finish : Node → Value
  | .value v => v
  | .table _ entries => .table (finishEntries entries)
  | .tables done last => .array (done ++ [.table (finishEntries last)])

def finishEntries : List (String × Node) → List (String × Value)
  | [] => []
  | (key, node) :: rest => (key, node.finish) :: finishEntries rest

end

mutual

def Written.value? : Written → Option Value
  | .scalar s => some (.scalar s)
  | .array items => do some (.array (← values? items))
  | .table entries => do some (.table (finishEntries (← inlineEntries? [] entries)))

def values? : List Written → Option (List Value)
  | [] => some []
  | w :: rest => do
    let v ← w.value?
    some (v :: (← values? rest))

def inlineEntries? (made : Entries) : List (Path × Written) → Option Entries
  | [] => some made
  | (path, w) :: rest => do
    let v ← w.value?
    let (_, made) ← Entries.put path (.value v) .declared made
    inlineEntries? made rest

end

/-- Opens the table of a header, which only headers below it may have made before. -/
def openTable (key : String) (made : Made) (entries : Entries) : Option (Made × Entries) :=
  match entries.lookup key with
  | none => some (made, entries.set key (.table .declared []))
  | some (.table .passing inner) => some (made, entries.set key (.table .declared inner))
  | some _ => none

def openNext (key : String) (made : Made) (entries : Entries) : Option (Made × Entries) :=
  match entries.lookup key with
  | none => some (made, entries.set key (.tables [] []))
  | some (.tables done last) =>
    some (made, entries.set key (.tables (done ++ [.table (finishEntries last)]) []))
  | some _ => none

structure Draft where
  current : List String
  tree : Entries

namespace Draft

def empty : Draft := ⟨[], []⟩

def change (d : Draft) (way : List String) (f : Made → Entries → Option (Made × Entries)) :
    Option Entries :=
  (Entries.within false f way .declared d.tree).map (·.2)

def take (d : Draft) : Statement → Option Draft
  | .entry path w => do
    let v ← w.value?
    let tree ← d.change d.current (Entries.put path (.value v))
    some { d with tree }
  | .header path => do
    some ⟨path.tables ++ [path.key], ← d.change path.tables (openTable path.key)⟩
  | .arrayHeader path => do
    some ⟨path.tables ++ [path.key], ← d.change path.tables (openNext path.key)⟩

end Draft

structure Document where
  entries : List (String × Value)

def Document.ofStatements? (xs : List Statement) : Option Document := do
  let d ← xs.foldlM Draft.take Draft.empty
  some ⟨finishEntries d.tree⟩

def Document.read? (text : String) : Option Document := do
  Document.ofStatements? (← statements (skipMark text.toList))

end Quiesce.Toml
