import Quiesce.Text.Quoted

set_option autoImplicit false

namespace Quiesce

inductive Level where
  | trace
  | debug
  | warn
deriving DecidableEq, Repr

def Level.name : Level → String
  | .trace => "trace"
  | .debug => "debug"
  | .warn => "warn"

structure LogEntry where
  level : Level
  message : String
  fields : List (String × String)
deriving DecidableEq, Repr

class Loggable (ν : Type) where
  entry : ν → LogEntry

inductive StopMode where
  | graceful
  | forced
deriving DecidableEq, Repr

namespace StopMode

def isForced : StopMode → Bool
  | graceful => false
  | forced => true

def name : StopMode → String
  | graceful => "Graceful"
  | forced => "Forced"

end StopMode

structure Runs {σ α : Type} (step : σ → α → Option σ) (run : σ → List α → Option σ) : Prop where
  nil : ∀ s, run s [] = some s
  cons : ∀ s x rest, run s (x :: rest) = (step s x).bind fun t => run t rest

namespace Runs

variable {σ α : Type} {step : σ → α → Option σ} {run : σ → List α → Option σ} {s t : σ}

theorem cons_eq_some (h : Runs step run) {x : α} {rest : List α} :
    run s (x :: rest) = some t ↔ ∃ u, step s x = some u ∧ run u rest = some t := by
  rw [h.cons, Option.bind_eq_some_iff]

theorem one (h : Runs step run) {x : α} (hx : step s x = some t) : run s [x] = some t := by
  rw [h.cons, hx, Option.bind_some, h.nil]

theorem append (h : Runs step run) (s : σ) (xs ys : List α) :
    run s (xs ++ ys) = (run s xs).bind fun t => run t ys := by
  induction xs generalizing s with
  | nil => rw [h.nil, List.nil_append, Option.bind_some]
  | cons x xs ih =>
    rw [List.cons_append, h.cons, h.cons, Option.bind_assoc]
    exact congrArg _ (funext ih)

theorem append_eq_some (h : Runs step run) {u : σ} {xs ys : List α} (hx : run s xs = some t)
    (hy : run t ys = some u) : run s (xs ++ ys) = some u := by
  rw [h.append, hx, Option.bind_some, hy]

/-- What every allowed move keeps, a run of allowed moves keeps. -/
theorem keeps (h : Runs step run) {P : σ → Prop} (allowed : α → Prop)
    (kept : ∀ {s t x}, step s x = some t → allowed x → P s → P t) {moves : List α}
    (hr : run s moves = some t) (ha : ∀ x ∈ moves, allowed x) (hs : P s) : P t := by
  induction moves generalizing s with
  | nil =>
    rw [h.nil] at hr
    obtain rfl := Option.some.inj hr
    exact hs
  | cons x rest ih =>
    obtain ⟨u, hu, hr⟩ := h.cons_eq_some.mp hr
    exact ih hr (fun y hy => ha y (.tail _ hy)) (kept hu (ha x (.head _)) hs)

theorem keeps_all (h : Runs step run) {P : σ → Prop}
    (kept : ∀ {s t x}, step s x = some t → P s → P t) {moves : List α}
    (hr : run s moves = some t) (hs : P s) : P t :=
  h.keeps (fun _ => True) (fun hx _ => kept hx) hr (fun _ _ => trivial) hs

end Runs

structure Fault where
  text : String
  causes : List String
deriving DecidableEq, Repr

def Fault.chain (f : Fault) : List String := f.text :: f.causes

def Fault.behind (f : Fault) (text : String) : Fault := ⟨text, f.chain⟩

theorem Fault.chain_behind (f : Fault) (text : String) :
    (f.behind text).chain = text :: f.chain := rfl

inductive Signal where
  | ready (isReady : Bool)
  | failed (fault : Fault)
deriving DecidableEq, Repr

namespace Signal

/-- A task that returned is ready whatever it returned. -/
def ofResult {α : Type} : Except Fault α → Signal
  | .ok _ => .ready true
  | .error f => .failed f

def isFailure : Signal → Bool
  | ready _ => false
  | failed _ => true

def line : Signal → String
  | ready b => "Ready(" ++ toString b ++ ")"
  | failed f => "Failed(" ++ Text.quoted f.text ++ ")"

def block : Signal → String
  | ready b => "Ready(\n    " ++ toString b ++ ",\n)"
  | failed f => "Failed(\n    " ++ Text.quoted f.text ++ ",\n)"

end Signal

structure Duration where
  nanos : Nat
deriving DecidableEq, Repr

namespace Duration

def nanosPerSecond : Nat := 1000000000

def zero : Duration := ⟨0⟩

def ofMillis (n : Nat) : Duration := ⟨n * 1000000⟩

def ofSeconds (n : Nat) : Duration := ⟨n * nanosPerSecond⟩

def seconds (d : Duration) : Nat := d.nanos / nanosPerSecond

def subsecond (d : Duration) : Nat := d.nanos % nanosPerSecond

def max : Duration := ⟨Nat.pow 2 64 * nanosPerSecond - 1⟩

def toMillis (d : Duration) : Nat := d.nanos / 1000000

theorem subsecond_lt (d : Duration) : d.subsecond < nanosPerSecond :=
  Nat.mod_lt _ (by decide)

end Duration

abbrev Instant := Nat

namespace Instant

/-- The first instant past the clock's range: seconds are counted in 63 bits. -/
def horizon : Nat := Nat.pow 2 63 * Duration.nanosPerSecond

end Instant

abbrev Deadline := Option Instant

namespace Deadline

def after (now : Instant) (timeout : Duration) : Deadline :=
  if now + timeout.nanos < Instant.horizon then some (now + timeout.nanos) else none

/-- How long until the deadline; nothing once it has been reached. -/
def remaining (deadline now : Instant) : Nat := deadline - now

theorem after_eq_some_iff {now : Instant} {timeout : Duration} {d : Instant} :
    after now timeout = some d ↔
      now + timeout.nanos < Instant.horizon ∧ d = now + timeout.nanos := by
  unfold after
  by_cases h : now + timeout.nanos < Instant.horizon
  · simp [h, eq_comm]
  · simp [h]

def earlier : Deadline → Deadline → Deadline
  | none, e => e
  | some d, none => some d
  | some d, some e => some (min d e)

end Deadline

end Quiesce

namespace Quiesce.Duration

def padded (width n : Nat) : List Char :=
  let digits := Nat.toDigits 10 n
  List.replicate (width - digits.length) '0' ++ digits

def dropTrailingZeros (digits : List Char) : List Char :=
  (digits.reverse.dropWhile (· == '0')).reverse

def fraction (width part : Nat) : List Char :=
  match dropTrailingZeros (padded width part) with
  | [] => []
  | digits => '.' :: digits

def inUnit (nanos width : Nat) (unit : String) : String :=
  let size := Nat.pow 10 width
  toString (nanos / size) ++ String.ofList (fraction width (nanos % size)) ++ unit

def text (d : Duration) : String :=
  if nanosPerSecond ≤ d.nanos then inUnit d.nanos 9 "s"
  else if 1000000 ≤ d.nanos then inUnit d.nanos 6 "ms"
  else if 1000 ≤ d.nanos then inUnit d.nanos 3 "µs"
  else inUnit d.nanos 0 "ns"

def decimalSeconds (d : Duration) : String :=
  toString d.seconds ++ "." ++ String.ofList (padded 9 d.subsecond)

end Quiesce.Duration
