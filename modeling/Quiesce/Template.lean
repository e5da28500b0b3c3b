import Quiesce.Basic
import Quiesce.Text.Basic

set_option autoImplicit false

namespace Quiesce

structure Bindings where
  entries : List (Option String × Option String)
deriving DecidableEq, Repr

namespace Bindings

def empty : Bindings := ⟨[]⟩

/-- Sets the value of a name, in its place if it has one and at the end if not. -/
def putIn (key : String) (value : Option String) :
    List (Option String × Option String) → List (Option String × Option String)
  | [] => [(some key, value)]
  | (some k, v) :: rest =>
    if k = key then (some k, value) :: rest else (some k, v) :: putIn key value rest
  | (none, v) :: rest => (none, v) :: putIn key value rest

def put (b : Bindings) (key value : Option String) : Bindings :=
  match key with
  | some k => ⟨putIn k value b.entries⟩
  | none => ⟨b.entries ++ [(none, value)]⟩

def insert (b : Bindings) (key value : String) : Bindings := b.put (some key) (some value)

def get? (b : Bindings) (key : String) : Option String :=
  (b.entries.find? fun e => e.1 == some key).bind (·.2)

def completePair : Option String × Option String → Option (String × String)
  | (some k, some v) => some (k, v)
  | _ => none

def pairs (b : Bindings) : List (String × String) := b.entries.filterMap completePair

def size (b : Bindings) : Nat := b.entries.length

def isEmpty (b : Bindings) : Bool := b.entries.isEmpty

def ofPuts (puts : List (Option String × Option String)) : Bindings :=
  puts.foldl (fun b e => b.put e.1 e.2) empty

def ofPairs (pairs : List (String × String)) : Bindings :=
  pairs.foldl (fun b e => b.insert e.1 e.2) empty

def putAscending (key value : String) : List (String × String) → List (String × String)
  | [] => [(key, value)]
  | (k, v) :: rest =>
    if key < k then (key, value) :: (k, v) :: rest
    else if k = key then (k, value) :: rest
    else (k, v) :: putAscending key value rest

/-- The pairs with ascending names that hold the last value of each name. -/
def ascending (pairs : List (String × String)) : List (String × String) :=
  pairs.foldl (fun m e => putAscending e.1 e.2 m) []

def ofSorted (pairs : List (String × String)) : Bindings := ofPairs (ascending pairs)

/-- What a map without an order holds for each name once the pairs have been put into it. -/
def table (pairs : List (String × String)) : String → Option String :=
  pairs.foldl (fun m e key => if key = e.1 then some e.2 else m key) fun _ => none

structure Listing (m : String → Option String) (pairs : List (String × String)) : Prop where
  nodup : pairs.Nodup
  mem_iff : ∀ key value, (key, value) ∈ pairs ↔ m key = some value

/-- Bindings made from a map without an order, in whichever order its pairs come. -/
def MadeUnsorted (pairs : List (String × String)) (b : Bindings) : Prop :=
  ∃ listing, Listing (table pairs) listing ∧ b = ofPairs listing

end Bindings

end Quiesce

namespace Quiesce.Template

inductive Form where
  | quoted
  | single
  | double
deriving DecidableEq, Repr

def Form.all : List Form := [quoted, single, double]

def Form.pattern (key : List Char) : Form → List Char
  | quoted => "\"$\x7b\x7b".toList ++ key ++ "\x7d\x7d\"".toList
  | single => "$\x7b".toList ++ key ++ "\x7d".toList
  | double => "$\x7b\x7b".toList ++ key ++ "\x7d\x7d".toList

inductive Notice where
  | expanding (key pattern : String)
deriving DecidableEq, Repr

instance : Loggable Notice where
  entry
    | .expanding key pattern =>
      ⟨.trace, "Expanding placeholder", [("key", key), ("pattern", pattern)]⟩

structure Expansion where
  text : List Char
  notices : List Notice
deriving DecidableEq, Repr

namespace Expansion

def start (template : List Char) : Expansion := ⟨template, []⟩

/-- Replaces one form of one key, with a notice if it occurs. -/
def form (key value : String) (e : Expansion) (f : Form) : Expansion :=
  let pattern := f.pattern key.toList
  if Text.Replace.occurs pattern e.text then
    ⟨Text.Replace.all pattern value.toList e.text,
      e.notices ++ [.expanding key (String.ofList pattern)]⟩
  else e

def pair (e : Expansion) (p : String × String) : Expansion :=
  Form.all.foldl (form p.1 p.2) e

def pairs (e : Expansion) (ps : List (String × String)) : Expansion := ps.foldl pair e

end Expansion

def expand (template : String) (bindings : Option Bindings) : Expansion :=
  match bindings with
  | none => .start template.toList
  | some b => (Expansion.start template.toList).pairs b.pairs

def interpolate (template : String) (bindings : Option Bindings) : String :=
  String.ofList (expand template bindings).text

end Quiesce.Template
