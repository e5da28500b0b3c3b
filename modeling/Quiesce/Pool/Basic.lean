import Quiesce.Basic

set_option autoImplicit false

namespace Quiesce.Pool

inductive Refusal where
  | stopped
  | queueFull (capacity : Nat)
deriving DecidableEq, Repr

inductive Interrupted where
  | interrupted
deriving DecidableEq, Repr

inductive Error where
  | refused (why : Refusal)
  | spawn (thread : String) (fault : Fault)
  | interrupted

namespace Error

def message : Error → String
  | refused .stopped => "pool is stopped and no longer accepts tasks"
  | refused (.queueFull n) => "task queue is full (" ++ toString n ++ " pending)"
  | spawn thread fault => "failed to spawn worker thread " ++ thread ++ ": " ++ fault.text
  | interrupted => "wait was interrupted"

def fault : Error → Fault
  | e@(refused _) => ⟨e.message, []⟩
  | e@(spawn _ f) => f.behind e.message
  | e@interrupted => ⟨e.message, []⟩

end Error

structure Shared (τ : Type) where
  queue : List τ
  stopped : Bool
  live : Nat
  running : Nat
deriving Repr

inductive Find (τ : Type) where
  | task (t : τ) (after : Shared τ)
  | leave
  | nothing

namespace Shared

variable {τ : Type}

def empty : Shared τ := ⟨[], false, 0, 0⟩

def isTerminated (s : Shared τ) : Bool := s.stopped && s.live == 0

/-- A stop that has taken effect is reported before a full queue. -/
def submit (s : Shared τ) (capacity : Nat) (t : τ) : Except Refusal (Shared τ) :=
  if s.stopped then .error .stopped
  else if capacity ≤ s.queue.length then .error (.queueFull capacity)
  else .ok { s with queue := s.queue ++ [t] }

def discarded (s : Shared τ) : StopMode → List τ
  | .graceful => []
  | .forced => s.queue

def stop (s : Shared τ) : StopMode → Shared τ
  | .graceful => { s with stopped := true }
  | .forced => { s with stopped := true, queue := [] }

/-- A queued task comes before a stop, so nothing is left behind by a worker that leaves. -/
def find (s : Shared τ) : Find τ :=
  match s.queue with
  | t :: rest => .task t { s with queue := rest, running := s.running + 1 }
  | [] => if s.stopped then .leave else .nothing

def recordEnd (s : Shared τ) : Shared τ := { s with running := s.running - 1 }

def recordStart (s : Shared τ) : Shared τ := { s with live := s.live + 1 }

def recordExit (s : Shared τ) : Shared τ := { s with live := s.live - 1 }

theorem stopped_stop (s : Shared τ) (mode : StopMode) : (s.stop mode).stopped = true := by
  cases mode <;> rfl

theorem submit_eq_ok {s t : Shared τ} {capacity : Nat} {x : τ} :
    s.submit capacity x = .ok t ↔
      s.stopped = false ∧ s.queue.length < capacity ∧ t = { s with queue := s.queue ++ [x] } := by
  unfold submit
  by_cases h : s.stopped = true
  · simp [h]
  · by_cases full : capacity ≤ s.queue.length
    · simp [h, full, Nat.not_lt.mpr full]
    · simp [h, full, Nat.lt_of_not_le full, eq_comm]

end Shared

structure Vigil where
  deadline : Deadline
  interrupt : Nat
deriving DecidableEq, Repr

structure Sight where
  now : Instant
  terminated : Bool
  interrupted : Bool

inductive Verdict where
  | answer (result : Except Interrupted Bool)
  | park (slice : Duration)

namespace Vigil

def pollInterval : Duration := .ofMillis 10

def start (now : Instant) (timeout : Duration) (interrupt : Nat) : Vigil :=
  ⟨.after now timeout, interrupt⟩

def judge (v : Vigil) (s : Sight) : Verdict :=
  if s.terminated then .answer (.ok true)
  else if s.interrupted then .answer (.error .interrupted)
  else match v.deadline with
    | none => .park pollInterval
    | some d =>
      if d ≤ s.now then .answer (.ok false)
      else .park ⟨min (Deadline.remaining d s.now) pollInterval.nanos⟩

/-- The first turn that decides; `none` if no turn does. -/
def answer (v : Vigil) : List Sight → Option (Except Interrupted Bool)
  | [] => none
  | s :: rest =>
    match v.judge s with
    | .answer r => some r
    | .park _ => v.answer rest

end Vigil

end Quiesce.Pool
