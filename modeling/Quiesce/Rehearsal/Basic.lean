import Quiesce.Drain
import Quiesce.Handoff
import Quiesce.Pool.Machine

set_option autoImplicit false

/-! One course of a pool and its callers among the many that `Pool.Machine` allows, told from the
side of one caller: whenever that caller looks, the workers have come as far as they can. -/

namespace Quiesce.Rehearsal

open Pool (Machine Move Refusal)

inductive Body where
  | quick
  | panic
  | gated (gate : String)
  | cooperative (gate : String)
  | spawn (count : Nat)
  | stop (mode : StopMode)
  | deposit (s : Signal)
deriving DecidableEq, Repr

structure Task where
  id : String
  body : Body
  channels : Nat
deriving DecidableEq, Repr

namespace Task

def weight (t : Task) : Nat :=
  match t.body with
  | .spawn n => n + 1
  | _ => 1

def child (t : Task) (i : Nat) : Task := ⟨t.id ++ "." ++ toString i, .quick, t.channels⟩

end Task

inductive Report where
  | cancelled (seen : Bool)
  | panicked
  | spawned (refusals : List (Option Refusal))
  | stopped (discarded : Option Nat) (cancelled : Bool)
  | deposited (error : Option Handoff.DepositError)
deriving DecidableEq, Repr

inductive Happening where
  | release (gate : String)
  | fire (interrupt : Nat)
deriving DecidableEq, Repr

structure World where
  threadName : String
  pool : Machine Task
  held : Bool
  gates : List String
  channel : Option Handoff.Channel
  channels : Nat
  reports : List (String × Report)
  agenda : List (Instant × Happening)
  tokens : Nat

namespace World

def caller : Pool.Actor := .caller 0

def push (r : World) (m : Move Task) : World :=
  { r with pool := (r.pool.step? m).getD r.pool }

def report (r : World) (t : Task) (x : Report) : World :=
  { r with reports := r.reports ++ [(t.id, x)] }

def isOpen (r : World) (gate : String) : Bool := r.gates.contains gate

def stage? (r : World) (c : Nat) : Option Pool.Stage := (r.pool.calls[c]?).map (·.stage)

def answer? (r : World) (c : Nat) : Option Pool.Answer :=
  (r.stage? c).bind Pool.Stage.answer?

def firstParked (r : World) : List Nat :=
  (r.pool.workers.findIdx? Pool.Phase.isParked).toList

/-- The only move that takes a call further, unless it is answered or parked. -/
def nextMove? (r : World) (c : Nat) : Option (Move Task) :=
  match r.stage? c with
  | some .nudging => some (.nudge c r.firstParked)
  | some (.cancelling _ _) => some (.cancelTasks c)
  | some (.rousing _ _ _) => some (.rouse c)
  | some .releasing => some (.stopReleased c)
  | some (.watching _) => some (.watch c)
  | some (.dozing _) => none
  | some (.answered _) => none
  | none => none

def carry (r : World) (c : Nat) : World :=
  match r.nextMove? c with
  | some m => r.push m
  | none => r

def call (r : World) (m : Move Task) : World × Option Pool.Answer :=
  let c := r.pool.calls.length
  let r := ((r.push m).carry c).carry c
  (r, r.answer? c)

def submit (r : World) (a : Pool.Actor) (t : Task) : World × Option Refusal :=
  match r.call (.submit a t) with
  | (r, some (.refused why)) => (r, some why)
  | (r, _) => (r, none)

def stop (r : World) (a : Pool.Actor) (mode : StopMode) : World × Nat :=
  match r.call (.requestStop a mode) with
  | (r, some (.discarded n)) => (r, n)
  | (r, _) => (r, 0)

def submitAll (r : World) (a : Pool.Actor) : List Task → World × List (Option Refusal)
  | [] => (r, [])
  | t :: rest =>
    let (r, x) := r.submit a t
    let (r, xs) := submitAll r a rest
    (r, x :: xs)

def openChannel (r : World) (capacity : Nat) : World :=
  { r with channel := some (.make capacity), channels := r.channels + 1 }

/-- A deposit finds nobody listening where there was no channel for the task, or where another has
taken the place of that channel. -/
def deposit (r : World) (t : Task) (s : Signal) : World × Option Handoff.DepositError :=
  match r.channel with
  | none => (r, some (.closed s))
  | some c =>
    if t.channels ≠ r.channels then (r, some (.closed s))
    else match c.deposit s with
      | .ok d => ({ r with channel := some d }, none)
      | .error e => (r, some e)

end World

end Quiesce.Rehearsal

namespace Quiesce.Rehearsal.World

open Pool (Phase Actor)

def runBody? (r : World) (w : Nat) (t : Task) : Option World :=
  let seen := Report.cancelled r.pool.cancelled
  let finish (r : World) (x : Report) := (r.report t x).push (.finish w .returned)
  match t.body with
  | .quick => some (finish r seen)
  | .panic => some ((r.report t .panicked).push (.finish w .panicked))
  | .gated g => if r.isOpen g then some (finish r seen) else none
  | .cooperative g => if r.isOpen g || r.pool.cancelled then some (finish r seen) else none
  | .spawn n =>
    if r.held then
      let (r, xs) := r.submitAll (.worker w) ((List.range n).map t.child)
      some (finish r (.spawned xs))
    else some (finish r (.spawned []))
  | .stop mode =>
    if r.held then
      let (r, n) := r.stop (.worker w) mode
      some (finish r (.stopped (some n) r.pool.cancelled))
    else some (finish r (.stopped none r.pool.cancelled))
  | .deposit s =>
    let (r, e) := r.deposit t s
    some (finish r (.deposited e))

def turnOf? (r : World) (w : Nat) : Option World :=
  match r.pool.workers[w]? with
  | some (.looking _) => some (r.push (.look w))
  | some (.busy t) => r.runBody? w t
  | some (.ended _) => some (r.push (.recordEnd w))
  | some .leaving => some (r.push (.recordExit w))
  | some .parked => none
  | some .gone => none
  | none => none

def turn? (r : World) : Option World :=
  (List.range r.pool.workers.length).findSome? r.turnOf?

def settleWithin : Nat → World → World
  | 0, r => r
  | n + 1, r => match r.turn? with
    | some s => settleWithin n s
    | none => r

def heldTask? : Phase Task → Option Task
  | .busy t => some t
  | .ended t => some t
  | _ => none

/-- More turns than the workers can take: every task costs a few, its own and those of the
workers that are woken for it, and every stop wakes all workers. -/
def effort (r : World) : Nat :=
  let tasks := r.pool.workers.filterMap heldTask? ++ r.pool.shared.queue
  (r.pool.workers.length + 4) * ((tasks.map Task.weight).foldl (· + ·) 0 + 4)

def settle (r : World) : World := settleWithin r.effort r

def happen (r : World) : Happening → World
  | .release gate => { r with gates := gate :: r.gates }
  | .fire i => r.push (.fire i)

def passTo (r : World) (t : Instant) : World :=
  let due := r.agenda.takeWhile (·.1 ≤ t)
  let r := { r with agenda := r.agenda.dropWhile (·.1 ≤ t) }
  (due.foldl (fun r e => r.happen e.2) r).push (.elapse (t - r.pool.now))

def concludeAgenda (r : World) : World :=
  match r.agenda.getLast? with
  | some (t, _) => (r.passTo t).settle
  | none => r.settle

def nextEvent (r : World) (v : Pool.Vigil) : Deadline :=
  .earlier v.deadline (r.agenda.head?.map (·.1))

/-- Takes a call to its answer. Before a waiting caller looks, the workers settle; while it is
parked, the clock moves to the next event. A call that waits for nothing stays unanswered. -/
def attend (c : Nat) : Nat → World → World
  | 0, r => r
  | n + 1, r =>
    match r.stage? c with
    | some (.watching _) => attend c n (r.settle.push (.watch c))
    | some (.dozing v) =>
      match r.nextEvent v with
      | some t => attend c n ((r.passTo t).push (.stir c))
      | none => r
    | some (.answered _) => r
    | some _ => attend c n (r.carry c)
    | none => r

def patience (r : World) : Nat := 2 * r.agenda.length + 8

def callOut (r : World) (m : Pool.Move Task) : World × Option Pool.Answer :=
  let c := r.pool.calls.length
  let r := r.push m
  let r := attend c r.patience r
  (r, r.answer? c)

def converse {α : Type} : Drain.Plan Nat α → World → World × Option α
  | .done a, r => (r, some a)
  | .note _ rest, r => converse rest r
  | .ask c next, r =>
    let (r, x) := r.callOut (c.opening caller)
    match x.bind c.read with
    | some y => converse (next y) r
    | none => (r, none)

end Quiesce.Rehearsal.World
