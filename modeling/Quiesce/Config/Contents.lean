import Quiesce.Binary64
import Quiesce.Config.Basic
import Quiesce.Text.Quoted
import Quiesce.Toml.Document
import Quiesce.Toml.Value

set_option autoImplicit false

namespace Quiesce.Config

inductive Found where
  | text (s : String)
  | boolean (b : Bool)
  | integer (n : Int)
  | float (x : Toml.Float)
  | sequence
  | map
deriving DecidableEq, Repr

inductive Fault where
  | unknownField (name : String) (known : List String)
  | wrongKind (found : Found) (expected : String)
  | negative (n : Int) (expected : String)
  | tooShort (length : Nat) (expected : String) (fields : Nat)
  | integerOverflow
  | floatOverflow
deriving DecidableEq, Repr

def ticked (s : String) : String := "`" ++ s ++ "`"

def integerText (n : Int) : String :=
  let digits := "integer " ++ ticked (toString n)
  if -(Nat.pow 2 63 : Int) ≤ n ∧ n < Nat.pow 2 64 then digits
  else if n < Nat.pow 2 127 then digits ++ " as i128"
  else digits ++ " as u128"

/-- The number that a float reads as; zero stands in for one beyond the greatest. -/
def floatText : Toml.Float → String
  | .nan => "NaN"
  | .infinity negative => if negative then "-inf" else "inf"
  | .decimal negative digits exponent =>
    let b := (Binary64.nearest? digits exponent).getD .zero
    (if negative then "-" else "") ++ String.ofList b.text

namespace Found

def describe : Found → String
  | text s => "string " ++ Text.quoted s
  | boolean b => "boolean " ++ ticked (toString b)
  | integer n => integerText n
  | float x => "floating point " ++ ticked (floatText x)
  | sequence => "sequence"
  | map => "map"

end Found

namespace Fault

def alternatives : List String → String
  | [] => "there are no fields"
  | [a] => "expected " ++ ticked a
  | [a, b] => "expected " ++ ticked a ++ " or " ++ ticked b
  | names => "expected one of " ++ ", ".intercalate (names.map ticked)

def message : Fault → String
  | unknownField name known => "unknown field " ++ ticked name ++ ", " ++ alternatives known
  | wrongKind found expected => "invalid type: " ++ found.describe ++ ", expected " ++ expected
  | negative n expected => "invalid value: " ++ integerText n ++ ", expected " ++ expected
  | tooShort length expected fields =>
    "invalid length " ++ toString length ++ ", expected " ++ expected ++ " with " ++
      toString fields ++ " elements"
  | integerOverflow => "integer number overflowed"
  | floatOverflow => "floating-point number overflowed"

end Fault

open Toml (Value Scalar)

def isReadable (n : Int) : Bool := -(Nat.pow 2 127 : Int) ≤ n && n < Nat.pow 2 128

def isFinite : Toml.Float → Bool
  | .decimal _ digits exponent => (Binary64.nearest? digits exponent).isSome
  | _ => true

/-- The fault of finding this value where it cannot be. -/
def misfit (v : Value) (expected : String) : Fault :=
  match v with
  | .scalar (.text s) => .wrongKind (.text s) expected
  | .scalar (.boolean b) => .wrongKind (.boolean b) expected
  | .scalar (.integer n) =>
    if isReadable n then .wrongKind (.integer n) expected else .integerOverflow
  | .scalar .noNumber => .integerOverflow
  | .scalar (.float x) => if isFinite x then .wrongKind (.float x) expected else .floatOverflow
  | .scalar .moment => .wrongKind .map expected
  | .array _ => .wrongKind .sequence expected
  | .table _ => .wrongKind .map expected

def size (expected : String) (v : Value) : Except Fault Nat :=
  match v with
  | .scalar (.integer n) =>
    if 0 ≤ n ∧ n < Nat.pow 2 64 then .ok n.toNat
    else if -(Nat.pow 2 63 : Int) ≤ n ∧ n < 0 then .error (.negative n expected)
    else .error (misfit v expected)
  | _ => .error (misfit v expected)

def name (v : Value) : Except Fault String :=
  match v with
  | .scalar (.text s) => .ok s
  | _ => .error (misfit v "a string")

/-- A named part of `σ`, and how a value becomes this part. -/
structure Field (σ : Type) where
  name : String
  store : σ → Value → Except Fault σ

variable {σ : Type}

def byName (entries : List (String × Value)) : List (String × Value) :=
  entries.mergeSort fun a b => decide (a.1 ≤ b.1)

def visit (fields : List (Field σ)) (x : σ) (entry : String × Value) : Except Fault σ :=
  match fields.find? fun f => f.name == entry.1 with
  | some f => f.store x entry.2
  | none => .error (.unknownField entry.1 (fields.map Field.name))

def ofEntries (fields : List (Field σ)) (start : σ) (entries : List (String × Value)) :
    Except Fault σ :=
  (byName entries).foldlM (visit fields) start

def ofElements (short : Fault) : List (Field σ) → σ → List Value → Except Fault σ
  | [], x, _ => .ok x
  | _ :: _, _, [] => .error short
  | f :: fields, x, v :: rest => do
    let x ← f.store x v
    ofElements short fields x rest

structure Section (σ : Type) where
  title : String
  fields : List (Field σ)

/-- The only name that a date or a time has when it is visited like a table. -/
def momentName : String := "$__toml_private_datetime"

namespace Section

def read (s : Section σ) (start : σ) (v : Value) : Except Fault σ :=
  match v with
  | .table entries => ofEntries s.fields start entries
  | .array items =>
    ofElements (.tooShort items.length s.title s.fields.length) s.fields start items
  | .scalar .moment => visit s.fields start (momentName, v)
  | _ => .error (misfit v s.title)

end Section

def drainSection : Section StatedDrain where
  title := "struct RawDrain"
  fields := [
    ⟨"grace_timeout_ms", fun d v => do return { d with grace := some (← size "u64" v) }⟩,
    ⟨"force_timeout_ms", fun d v => do return { d with force := some (← size "u64" v) }⟩]

def poolSection : Section StatedPool where
  title := "struct RawPool"
  fields := [
    ⟨"workers", fun p v => do return { p with workers := some (← size "usize" v) }⟩,
    ⟨"queue_capacity", fun p v => do return { p with queueCapacity := some (← size "usize" v) }⟩,
    ⟨"thread_name", fun p v => do return { p with threadName := some (← name v) }⟩]

def sections : List (Field Stated) := [
  ⟨"drain", fun s v => do return { s with drain := ← drainSection.read s.drain v }⟩,
  ⟨"pool", fun s v => do return { s with pool := ← poolSection.read s.pool v }⟩]

def Stated.ofDocument (d : Toml.Document) : Except Fault Stated :=
  ofEntries sections .nothing d.entries

end Quiesce.Config
