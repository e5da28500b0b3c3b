import Quiesce.Basic
import Quiesce.Pool.Basic
import Quiesce.Pool.Machine

set_option autoImplicit false

/-! A drain is written as a dialogue: a plan of calls that goes on by what the pool answers. The pool
may be the concurrent one, a script, or absent. -/

namespace Quiesce.Drain

open Pool (Actor Interrupted Machine Move)

inductive Outcome where
  | completedCleanly
  | forcedTermination
  | forcedAfterTimeout (abandoned : Nat)
  | interrupted
  | noPool
deriving DecidableEq, Repr

namespace Outcome

def isTerminated : Outcome → Bool
  | completedCleanly => true
  | forcedTermination => true
  | _ => false

def label : Outcome → String
  | completedCleanly => "completed_cleanly"
  | forcedTermination => "forced_termination"
  | forcedAfterTimeout _ => "forced_after_timeout"
  | interrupted => "interrupted"
  | noPool => "no_pool"

def abandoned? : Outcome → Option Nat
  | forcedAfterTimeout n => some n
  | _ => none

def line : Outcome → String
  | completedCleanly => "CompletedCleanly"
  | forcedTermination => "ForcedTermination"
  | forcedAfterTimeout n => "ForcedAfterTimeout \x7b abandoned: " ++ toString n ++ " \x7d"
  | interrupted => "Interrupted"
  | noPool => "NoPool"

end Outcome

inductive Call (ι : Type) where
  | isStopped
  | isTerminated
  | requestStop (mode : StopMode)
  | awaitTermination (timeout : Duration) (interrupt : ι)
deriving DecidableEq, Repr

abbrev Call.Answer {ι : Type} : Call ι → Type
  | isStopped => Bool
  | isTerminated => Bool
  | requestStop _ => Nat
  | awaitTermination _ _ => Except Interrupted Bool

/-- A plan of calls that ends with an `α`, putting notices of kind `ν` into the log. -/
inductive Dialogue (ι ν α : Type) where
  | done (a : α)
  | note (n : ν) (rest : Dialogue ι ν α)
  | ask (c : Call ι) (next : c.Answer → Dialogue ι ν α)

structure Exchange (ι : Type) where
  call : Call ι
  answer : call.Answer

/-- Anything that answers calls; `σ` is what it remembers. -/
abbrev Respondent (ι σ : Type) := (c : Call ι) → σ → c.Answer × σ

structure Transcript (ι ν σ α : Type) where
  result : α
  exchanges : List (Exchange ι)
  notices : List ν
  state : σ

namespace Dialogue

variable {ι ν σ α β : Type}

def map (f : α → β) : Dialogue ι ν α → Dialogue ι ν β
  | done a => done (f a)
  | note n rest => note n (rest.map f)
  | ask c next => ask c fun x => (next x).map f

def run (pool : Respondent ι σ) : Dialogue ι ν α → σ → Transcript ι ν σ α
  | done a, s => ⟨a, [], [], s⟩
  | note n rest, s =>
    let t := rest.run pool s
    { t with notices := n :: t.notices }
  | ask c next, s =>
    let (x, s) := pool c s
    let t := (next x).run pool s
    { t with exchanges := ⟨c, x⟩ :: t.exchanges }

theorem run_map (f : α → β) (pool : Respondent ι σ) (d : Dialogue ι ν α) (s : σ) :
    (d.map f).run pool s =
      let t := d.run pool s
      ⟨f t.result, t.exchanges, t.notices, t.state⟩ := by
  induction d generalizing s with
  | done a => rfl
  | note n rest ih => simp [map, run, ih]
  | ask c next ih => simp [map, run, ih]

end Dialogue

structure Budget where
  grace : Duration
  force : Duration
deriving DecidableEq, Repr

namespace Budget

def default : Budget := ⟨.ofSeconds 5, .ofSeconds 5⟩

end Budget

inductive Notice where
  | drained
  | escalating (grace : Duration)
  | notCleanlyShutDown (abandoned : Nat) (grace force : Duration)
  | interrupted (abandoned : Nat)
deriving DecidableEq, Repr

instance : Loggable Notice where
  entry
    | .drained => ⟨.debug, "Pool drained within grace period", []⟩
    | .escalating grace =>
      ⟨.warn, "Pool did not drain within grace period; forcing cancellation",
        [("grace", grace.text)]⟩
    | .notCleanlyShutDown abandoned grace force =>
      ⟨.debug, "Pool was not cleanly shut down",
        [("abandoned", toString abandoned), ("grace", grace.text), ("force", force.text)]⟩
    | .interrupted abandoned =>
      ⟨.debug, "Drain interrupted; forced cancellation requested",
        [("abandoned", toString abandoned)]⟩

variable {ι : Type}

abbrev Plan (ι α : Type) := Dialogue ι Notice α

def breakOff : Plan ι Outcome :=
  .ask (.requestStop .forced) fun abandoned =>
  .note (.interrupted abandoned) (.done .interrupted)

def awaitForced (budget : Budget) (interrupt : ι) : Plan ι Outcome :=
  .ask (.awaitTermination budget.force interrupt) fun
    | .ok true => .done .forcedTermination
    | .ok false =>
      .ask (.requestStop .forced) fun abandoned =>
      .note (.notCleanlyShutDown abandoned budget.grace budget.force)
        (.done (.forcedAfterTimeout abandoned))
    | .error .interrupted => breakOff

def escalate (budget : Budget) (interrupt : ι) : Plan ι Outcome :=
  .ask .isTerminated fun
    | true => awaitForced budget interrupt
    | false =>
      .note (.escalating budget.grace)
        (.ask (.requestStop .forced) fun _ => awaitForced budget interrupt)

def awaitGraceful (budget : Budget) (interrupt : ι) : Plan ι Outcome :=
  .ask (.awaitTermination budget.grace interrupt) fun
    | .ok true => .note .drained (.done .completedCleanly)
    | .ok false => escalate budget interrupt
    | .error .interrupted => breakOff

/-- Drains a pool and tells how the sequence ended. -/
def sequence (budget : Budget) (interrupt : ι) : Plan ι Outcome :=
  .ask .isStopped fun
    | true => awaitGraceful budget interrupt
    | false => .ask (.requestStop .graceful) fun _ => awaitGraceful budget interrupt

def drain (budget : Budget) (interrupt : ι) : Plan ι Bool :=
  (sequence budget interrupt).map Outcome.isTerminated

def shutdown (own : ι) : Plan ι Bool := drain .default own

/-- A drain of a pool that may be absent. Without a pool nothing is called and nothing logged. -/
def hold {σ α : Type} (pool : Option (Respondent ι σ)) (absent : α) (plan : Plan ι α) (s : σ) :
    Transcript ι Notice σ α :=
  match pool with
  | some p => plan.run p s
  | none => ⟨absent, [], [], s⟩

structure Script where
  answers : List (Except Interrupted Bool)
  queued : Nat
  stopped : Bool
  terminated : Bool
  keepsQueue : Bool
  terminatedAfter : Option Nat
  waits : Nat

namespace Script

def request (s : Script) : StopMode → Nat × Script
  | .graceful => (0, { s with stopped := true })
  | .forced =>
    (s.queued, { s with stopped := true, queued := if s.keepsQueue then s.queued else 0 })

def isTrue : Except Interrupted Bool → Bool
  | .ok b => b
  | .error _ => false

def wait (s : Script) : Except Interrupted Bool × Script :=
  let answer := s.answers.headD (.ok false)
  let waits := s.waits + 1
  (answer, { s with
    answers := s.answers.tail
    waits := waits
    terminated := s.terminated || isTrue answer ||
      s.terminatedAfter.any fun n => n ≤ waits })

def respond : Respondent Bool Script
  | .isStopped, s => (s.stopped, s)
  | .isTerminated, s => (s.terminated, s)
  | .requestStop mode, s => s.request mode
  | .awaitTermination _ _, s => s.wait

end Script

variable {τ α : Type}

def Call.opening (a : Actor) : Call Nat → Move τ
  | isStopped => .ask a .isStopped
  | isTerminated => .ask a .isTerminated
  | requestStop mode => .requestStop a mode
  | awaitTermination timeout interrupt => .await a timeout interrupt

/-- The answer of a call as the dialogue understands it. -/
def Call.read : (c : Call Nat) → Pool.Answer → Option c.Answer
  | isStopped, .flag b => some b
  | isTerminated, .flag b => some b
  | requestStop _, .discarded n => some n
  | awaitTermination _ _, .termination r => some r
  | _, _ => none

structure Seat (τ α : Type) where
  pool : Machine τ
  actor : Actor
  plan : Plan Nat α
  pending : Option Nat
  exchanges : List (Exchange Nat)
  notices : List Notice

inductive SeatMove (τ : Type) where
  | pool (m : Move τ)
  | open
  | proceed
  | note

namespace Seat

def take (p : Machine τ) (a : Actor) (plan : Plan Nat α) : Seat τ α := ⟨p, a, plan, none, [], []⟩

def step? (s : Seat τ α) : SeatMove τ → Option (Seat τ α)
  | .pool m => (s.pool.step? m).map fun p => { s with pool := p }
  | .open =>
    match s.plan, s.pending with
    | .ask c _, none => (s.pool.step? (c.opening s.actor)).map fun p =>
      { s with pool := p, pending := some s.pool.calls.length }
    | _, _ => none
  | .proceed =>
    match s.plan, s.pending with
    | .ask c next, some id =>
      match ((s.pool.calls[id]?).bind fun k => k.stage.answer?).bind c.read with
      | some x => some { s with
        plan := next x
        pending := none
        exchanges := s.exchanges ++ [⟨c, x⟩] }
      | none => none
    | _, _ => none
  | .note =>
    match s.plan with
    | .note n rest => some { s with plan := rest, notices := s.notices ++ [n] }
    | _ => none

def run? : Seat τ α → List (SeatMove τ) → Option (Seat τ α)
  | s, [] => some s
  | s, m :: rest => (s.step? m).bind fun t => t.run? rest

end Seat

end Quiesce.Drain
