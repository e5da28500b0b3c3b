import Quiesce.Rehearsal.Basic

set_option autoImplicit false

namespace Quiesce.Rehearsal

structure Meanwhile where
  after : Duration
  gate : Option String

inductive DrainKind where
  | plain
  | shutdown
  | withOutcome
deriving DecidableEq, Repr

inductive Command where
  | submit (id : String) (body : Body)
  | stop (mode : StopMode)
  | release (gate : String)
  | await (timeout : Duration) (cancelled : Bool) (meanwhile : Option Meanwhile)
  | drain (kind : DrainKind) (budget : Drain.Budget) (cancelled : Bool)
      (meanwhile : Option Meanwhile)
  | threads
  | channel (capacity : Nat)
  | wait (site : String) (timeout : Duration)
  | drop

inductive Reply where
  | started
  | done
  | submitted (refusal : Option Pool.Refusal)
  | stopped (discarded : Nat)
  | awaited (result : Option (Except Pool.Interrupted Bool)) (cancelled : Bool)
  | drained (terminated : Option Bool) (cancelled : Bool)
  | drainedTo (outcome : Option Drain.Outcome) (cancelled : Bool)
  | threads (names : List String)
  | readiness (result : Option (Except Handoff.Failure Bool))

structure Counters where
  queued : Nat
  running : Nat
  stopped : Bool
  terminated : Bool
deriving DecidableEq, Repr

structure Entry where
  reply : Reply
  counters : Option Counters
  blocked : List String
  finished : List (String × Report)
  discarded : List String
  log : List LogEntry
  workerLog : List LogEntry

def sorted (xs : List String) : List String := xs.mergeSort fun a b => decide (a ≤ b)

namespace World

def start? (s : Pool.Settings) : Option World :=
  match s.start (fun _ => none) (fun _ m => m) with
  | .ok m => some (World.settle ⟨s.threadName, m, true, [], none, 0, [], [], 0⟩)
  | .error _ => none

def withToken (r : World) (cancelled : Bool) (meanwhile : Option Meanwhile) : World × Nat :=
  let i := r.tokens
  let r := { r with tokens := i + 1 }
  let r := if cancelled then r.push (.fire i) else r
  match meanwhile with
  | none => (r, i)
  | some e =>
    let what := match e.gate with
      | some g => Happening.release g
      | none => .fire i
    ({ r with agenda := r.agenda ++ [(r.pool.now + e.after.nanos, what)] }, i)

def isFired (r : World) (i : Nat) : Bool := r.pool.fired.contains i

/-- Holds a dialogue with the pool, if there is still one, and then lets pass what is still to
happen. -/
def drainWith {α : Type} (r : World) (absent : α) (plan : Drain.Plan Nat α) : World × Option α :=
  if r.held then
    let (r, x) := converse plan r
    (r.concludeAgenda, x)
  else (r.concludeAgenda, some absent)

def blockedThreads (r : World) : List String :=
  (List.range r.pool.workers.length).filterMap fun w =>
    ((r.pool.workers[w]?).bind heldTask?).map fun _ => Pool.workerName r.threadName w

def awaitTermination (r : World) (timeout : Duration) (i : Nat) :
    World × Option (Except Pool.Interrupted Bool) :=
  match r.callOut (.await caller timeout i) with
  | (r, some (.termination x)) => (r.concludeAgenda, some x)
  | (r, _) => (r.concludeAgenda, none)

def perform (r : World) : Command → World × Reply × List LogEntry
  | .submit id body =>
    let (r, x) := r.submit caller ⟨id, body, r.channels⟩
    (r, .submitted x, [])
  | .stop mode =>
    let (r, n) := r.stop caller mode
    (r, .stopped n, [])
  | .release gate => (r.happen (.release gate), .done, [])
  | .await timeout cancelled meanwhile =>
    let (r, i) := r.withToken cancelled meanwhile
    let (r, x) := r.awaitTermination timeout i
    (r, .awaited x (r.isFired i), [])
  | .drain kind budget cancelled meanwhile =>
    let (r, i) := r.withToken cancelled meanwhile
    match kind with
    | .plain =>
      let (r, x) := r.drainWith false (Drain.drain budget i)
      (r, .drained x (r.isFired i), [])
    | .shutdown =>
      let (r, own) := r.withToken false none
      let (r, x) := r.drainWith false (Drain.shutdown own)
      (r, .drained x (r.isFired i), [])
    | .withOutcome =>
      let (r, x) := r.drainWith .noPool (Drain.sequence budget i)
      (r, .drainedTo x (r.isFired i), [])
  | .threads => (r, .threads (sorted r.blockedThreads), [])
  | .channel capacity => (r.openChannel capacity, .done, [])
  | .wait site timeout =>
    match r.channel with
    | none => (r, .readiness none, [])
    | some c =>
      let w := c.receive (.after r.pool.now timeout) []
      let notices := (w.receipt.map Handoff.Receipt.notices).getD []
      ({ r with channel := some w.channel },
        .readiness (w.receipt.map (Handoff.Receipt.readiness site)),
        notices.map Loggable.entry)
  | .drop =>
    let (r, _) := r.call (.release caller)
    ({ r with held := false }, .done, [])

def isCaller : Pool.Actor → Bool
  | .caller _ => true
  | .worker _ => false

def counters (r : World) : Option Counters :=
  if r.held then some ⟨r.pool.shared.queue.length, r.pool.shared.running,
    r.pool.shared.stopped, r.pool.shared.isTerminated⟩
  else none

def entry (r before : World) (reply : Reply) (notes : List LogEntry) : Entry :=
  let news := r.pool.notices.drop before.pool.notices.length
  let log (p : Pool.Actor → Bool) :=
    (news.filter fun n => p n.1).map fun n => n.2.entry r.threadName
  { reply := reply
    counters := r.counters
    blocked := sorted (r.pool.workers.filterMap fun p => (heldTask? p).map Task.id)
    finished := r.reports.drop before.reports.length
    discarded := (r.pool.history.discarded.drop before.pool.history.discarded.length).map Task.id
    log := log isCaller ++ notes
    workerLog := log fun a => !isCaller a }

def execute (r : World) (c : Command) : World × Entry :=
  let (s, reply, notes) := r.perform c
  let s := s.settle
  (s, s.entry r reply notes)

def executeAll (r : World) : List Command → List Entry
  | [] => []
  | c :: rest =>
    let (s, e) := r.execute c
    e :: executeAll s rest

end World

/-- The entries of a rehearsal, the first for the start itself. Nothing if the pool cannot be
built. -/
def play? (s : Pool.Settings) (commands : List Command) : Option (List Entry) :=
  (World.start? s).map fun r =>
    let bare : World := { r with
      pool := { r.pool with notices := [] } }
    r.entry bare .started [] :: r.executeAll commands

end Quiesce.Rehearsal
