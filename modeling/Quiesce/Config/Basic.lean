import Quiesce.Drain
import Quiesce.Pool.Machine
import Quiesce.Text.Quoted

set_option autoImplicit false

namespace Quiesce

namespace Config

@[ext]
structure StatedDrain where
  grace : Option Nat
  force : Option Nat
deriving DecidableEq, Repr

@[ext]
structure StatedPool where
  workers : Option Nat
  queueCapacity : Option Nat
  threadName : Option String
deriving DecidableEq, Repr

@[ext]
structure Stated where
  drain : StatedDrain
  pool : StatedPool
deriving DecidableEq, Repr

namespace Stated

def nothing : Stated := ⟨⟨none, none⟩, ⟨none, none, none⟩⟩

end Stated

inductive Violation where
  | noWorkers
  | noQueue
  | blankThreadName
deriving DecidableEq, Repr

namespace Violation

def rule : Violation → String
  | noWorkers => "pool.workers must be at least 1"
  | noQueue => "pool.queue_capacity must be at least 1"
  | blankThreadName => "pool.thread_name must not be empty"

end Violation

end Config

structure Config where
  drain : Drain.Budget
  pool : Pool.Settings
deriving DecidableEq, Repr

namespace Config

def default : Config := ⟨.default, .default⟩

namespace StatedDrain

def budget (d : StatedDrain) : Drain.Budget :=
  ⟨(d.grace.map Duration.ofMillis).getD Drain.Budget.default.grace,
    (d.force.map Duration.ofMillis).getD Drain.Budget.default.force⟩

end StatedDrain

namespace StatedPool

def settings (p : StatedPool) : Pool.Settings :=
  ⟨p.workers.getD Pool.Settings.default.workers,
    p.queueCapacity.getD Pool.Settings.default.queueCapacity,
    p.threadName.getD Pool.Settings.default.threadName⟩

end StatedPool

/-- The first rule that the settings violate, if any. -/
def violation? (s : Pool.Settings) : Option Violation :=
  if s.workers = 0 then some .noWorkers
  else if s.queueCapacity = 0 then some .noQueue
  else if Text.isBlank s.threadName.toList then some .blankThreadName
  else none

theorem violation?_eq_none_iff {s : Pool.Settings} :
    violation? s = none ↔
      0 < s.workers ∧ 0 < s.queueCapacity ∧ Text.isBlank s.threadName.toList = false := by
  unfold violation?
  by_cases w : s.workers = 0
  · simp [w]
  · by_cases q : s.queueCapacity = 0
    · simp [w, q]
    · cases Text.isBlank s.threadName.toList
      · simp [w, q, Nat.pos_of_ne_zero]
      · simp [w, q]

def ofStated (s : Stated) : Except Violation Config :=
  match violation? s.pool.settings with
  | some v => .error v
  | none => .ok ⟨s.drain.budget, s.pool.settings⟩

theorem violation?_of_ofStated {s : Stated} {c : Config} (h : ofStated s = .ok c) :
    violation? c.pool = none := by
  unfold ofStated at h
  split at h
  · exact nomatch h
  · rename_i hv
    obtain rfl := Except.ok.inj h
    exact hv

def line (name : String) (parts : List (String × String)) : String :=
  name ++ " \x7b " ++ ", ".intercalate (parts.map fun p => p.1 ++ ": " ++ p.2) ++ " \x7d"

def drainLine (b : Drain.Budget) : String :=
  line "DrainConfig" [("grace_timeout", b.grace.text), ("force_timeout", b.force.text)]

def poolLine (s : Pool.Settings) : String :=
  line "PoolConfig" [("workers", toString s.workers),
    ("queue_capacity", toString s.queueCapacity), ("thread_name", Text.quoted s.threadName)]

def text (c : Config) : String :=
  line "RuntimeConfig" [("drain", drainLine c.drain), ("pool", poolLine c.pool)]

end Config

end Quiesce
