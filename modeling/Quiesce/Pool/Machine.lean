import Quiesce.Basic
import Quiesce.Pool.Basic

set_option autoImplicit false

/-! Any number of threads move in any order, one step of one thread at a time; a step under the lock
is a function of `Pool.Basic`. What a thread does after it has let go of the lock, such as to notify
or to cancel, is a step of its own, so that others can come between. -/

namespace Quiesce.Pool

/-- Whose move it is: a worker whose task calls the pool, or a thread outside it. -/
inductive Actor where
  | worker (w : Nat)
  | caller (n : Nat)
deriving DecidableEq, Repr

inductive TaskEnd where
  | returned
  | panicked
deriving DecidableEq, Repr

inductive Notice where
  | started (workers capacity : Nat)
  | stopRequested (mode : StopMode) (abandoned running : Nat)
  | taskPanicked (w : Nat)
  | terminated
deriving DecidableEq, Repr

def workerName (thread : String) (w : Nat) : String := thread ++ "-" ++ toString w

def Notice.entry (thread : String) : Notice → LogEntry
  | started workers capacity =>
    ⟨.debug, "Worker pool started",
      [("workers", toString workers), ("queue_capacity", toString capacity)]⟩
  | stopRequested mode abandoned running =>
    ⟨.debug, "Worker pool stop requested",
      [("mode", mode.name), ("abandoned", toString abandoned), ("running", toString running)]⟩
  | taskPanicked w =>
    ⟨.warn, "Task panicked; worker continues", [("worker", workerName thread w)]⟩
  | terminated => ⟨.debug, "Worker pool terminated", []⟩

inductive Phase (τ : Type) where
  /-- About to look at the queue: roused if just started or woken, otherwise done with a task. -/
  | looking (roused : Bool)
  | parked
  | busy (t : τ)
  | ended (t : τ)
  | leaving
  | gone
deriving Repr

namespace Phase

variable {τ : Type}

def wake : Phase τ → Phase τ
  | parked => looking true
  | p => p

def isParked : Phase τ → Bool
  | parked => true
  | _ => false

def holdsTask : Phase τ → Bool
  | busy _ => true
  | ended _ => true
  | _ => false

def isGone : Phase τ → Bool
  | gone => true
  | _ => false

end Phase

inductive Question where
  | isStopped
  | isTerminated
  | queued
  | running
deriving DecidableEq, Repr

inductive Answer where
  | accepted
  | refused (why : Refusal)
  | discarded (count : Nat)
  | termination (result : Except Interrupted Bool)
  | flag (value : Bool)
  | count (value : Nat)
  | released

inductive Stage where
  | nudging
  /-- A forced stop has taken the queue; the tasks' token is still to be cancelled. -/
  | cancelling (abandoned running : Nat)
  | rousing (mode : StopMode) (abandoned running : Nat)
  | releasing
  | watching (v : Vigil)
  | dozing (v : Vigil)
  | answered (a : Answer)

namespace Stage

def stir : Stage → Stage
  | dozing v => watching v
  | s => s

def answer? : Stage → Option Answer
  | answered a => some a
  | _ => none

end Stage

structure Call where
  actor : Actor
  stage : Stage

/-- What has become of the tasks so far, each list in order of time. -/
structure History (τ : Type) where
  accepted : List τ
  started : List τ
  ended : List (τ × TaskEnd)
  discarded : List τ
deriving Repr

structure Machine (τ : Type) where
  capacity : Nat
  shared : Shared τ
  unstarted : Nat
  pendingStart : Bool
  isOpen : Bool
  cancelled : Bool
  workers : List (Phase τ)
  calls : List Call
  fired : List Nat
  now : Instant
  history : History τ
  notices : List (Actor × Notice)

/-- One step of one thread. Workers and calls go by their index. -/
inductive Move (τ : Type) where
  | countWorker
  | startWorker
  | openPool
  | look (w : Nat)
  | wake (w : Nat)
  | finish (w : Nat) (how : TaskEnd)
  | recordEnd (w : Nat)
  | recordExit (w : Nat)
  | submit (a : Actor) (t : τ)
  | nudge (c : Nat) (woken : List Nat)
  | requestStop (a : Actor) (mode : StopMode)
  | cancelTasks (c : Nat)
  | rouse (c : Nat)
  | release (a : Actor)
  | stopReleased (c : Nat)
  | await (a : Actor) (timeout : Duration) (interrupt : Nat)
  | watch (c : Nat)
  | stir (c : Nat)
  | ask (a : Actor) (q : Question)
  | fire (interrupt : Nat)
  | elapse (nanos : Nat)

namespace Machine

variable {τ : Type}

/-- A pool under construction. It has at least one worker and room for at least one task. -/
def initial (workers capacity : Nat) : Machine τ where
  capacity := max capacity 1
  shared := .empty
  unstarted := max workers 1
  pendingStart := false
  isOpen := false
  cancelled := false
  workers := []
  calls := []
  fired := []
  now := 0
  history := ⟨[], [], [], []⟩
  notices := []

def countWorker (m : Machine τ) : Option (Machine τ) :=
  match m.pendingStart, m.unstarted with
  | false, n + 1 =>
    some { m with unstarted := n, pendingStart := true, shared := m.shared.recordStart }
  | _, _ => none

def startWorker (m : Machine τ) : Option (Machine τ) :=
  if m.pendingStart then
    some { m with pendingStart := false, workers := m.workers ++ [.looking true] }
  else none

def openPool (m : Machine τ) : Option (Machine τ) :=
  if m.isOpen || m.pendingStart || m.unstarted != 0 then none
  else some { m with
    isOpen := true
    notices := m.notices ++ [(.caller 0, .started m.workers.length m.capacity)] }

def look (m : Machine τ) (w : Nat) : Option (Machine τ) :=
  match m.workers[w]? with
  | some (.looking _) =>
    match m.shared.find with
    | .task t after => some { m with
        shared := after
        workers := m.workers.set w (.busy t)
        history := { m.history with started := m.history.started ++ [t] } }
    | .leave => some { m with workers := m.workers.set w .leaving }
    | .nothing => some { m with workers := m.workers.set w .parked }
  | _ => none

def wake (m : Machine τ) (w : Nat) : Option (Machine τ) :=
  match m.workers[w]? with
  | some .parked => some { m with workers := m.workers.set w (.looking true) }
  | _ => none

def finish (m : Machine τ) (w : Nat) (how : TaskEnd) : Option (Machine τ) :=
  match m.workers[w]? with
  | some (.busy t) => some { m with
      workers := m.workers.set w (.ended t)
      history := { m.history with ended := m.history.ended ++ [(t, how)] }
      notices := match how with
        | .returned => m.notices
        | .panicked => m.notices ++ [(.worker w, .taskPanicked w)] }
  | _ => none

def recordEnd (m : Machine τ) (w : Nat) : Option (Machine τ) :=
  match m.workers[w]? with
  | some (.ended _) => some { m with
      shared := m.shared.recordEnd
      workers := m.workers.set w (.looking false) }
  | _ => none

/-- The worker whose exit terminates the pool says so and notifies all that wait for it, in the
same section. -/
def recordExit (m : Machine τ) (w : Nat) : Option (Machine τ) :=
  match m.workers[w]? with
  | some .leaving =>
    let shared := m.shared.recordExit
    let out := { m with shared := shared, workers := m.workers.set w .gone }
    if shared.isTerminated then some { out with
      calls := m.calls.map fun c => { c with stage := c.stage.stir }
      notices := m.notices ++ [(.worker w, .terminated)] }
    else some out
  | _ => none

def begin (m : Machine τ) (a : Actor) (s : Stage) : Machine τ :=
  { m with calls := m.calls ++ [⟨a, s⟩] }

def advance (m : Machine τ) (c : Nat) (a : Actor) (s : Stage) : Machine τ :=
  { m with calls := m.calls.set c ⟨a, s⟩ }

def submit (m : Machine τ) (a : Actor) (t : τ) : Machine τ :=
  match m.shared.submit m.capacity t with
  | .error why => m.begin a (.answered (.refused why))
  | .ok shared => { m.begin a .nudging with
      shared := shared
      history := { m.history with accepted := m.history.accepted ++ [t] } }

/-- A notification reaches at least one parked worker, if there is one. -/
def reaches (m : Machine τ) (woken : List Nat) : Bool :=
  m.workers.all (fun p => !p.isParked) ||
    woken.any fun w => (m.workers[w]?.map Phase.isParked).getD false

def wakeAmong (woken : List Nat) (workers : List (Phase τ)) : List (Phase τ) :=
  workers.mapIdx fun w p => if woken.contains w then p.wake else p

def nudge (m : Machine τ) (c : Nat) (woken : List Nat) : Option (Machine τ) :=
  match m.calls[c]? with
  | some ⟨a, .nudging⟩ =>
    if m.reaches woken then
      some { m.advance c a (.answered .accepted) with workers := wakeAmong woken m.workers }
    else none
  | _ => none

/-- What a stop request does before it lets go of the lock. -/
def stopWith (m : Machine τ) (mode : StopMode) : Machine τ :=
  { m with
    shared := m.shared.stop mode
    history := { m.history with
      discarded := m.history.discarded ++ m.shared.discarded mode } }

def requestStop (m : Machine τ) (a : Actor) (mode : StopMode) : Machine τ :=
  let abandoned := (m.shared.discarded mode).length
  (m.stopWith mode).begin a <|
    if mode.isForced then .cancelling abandoned m.shared.running
    else .rousing mode abandoned m.shared.running

def cancelTasks (m : Machine τ) (c : Nat) : Option (Machine τ) :=
  match m.calls[c]? with
  | some ⟨a, .cancelling abandoned running⟩ =>
    some { m.advance c a (.rousing .forced abandoned running) with cancelled := true }
  | _ => none

def rouse (m : Machine τ) (c : Nat) : Option (Machine τ) :=
  match m.calls[c]? with
  | some ⟨a, .rousing mode abandoned running⟩ =>
    some { m.advance c a (.answered (.discarded abandoned)) with
      workers := m.workers.map Phase.wake
      notices := m.notices ++ [(a, .stopRequested mode abandoned running)] }
  | _ => none

def release (m : Machine τ) (a : Actor) : Machine τ :=
  m.begin a (if m.shared.stopped then .answered .released else .releasing)

def stopReleased (m : Machine τ) (c : Nat) : Option (Machine τ) :=
  match m.calls[c]? with
  | some ⟨a, .releasing⟩ =>
    some ((m.stopWith .graceful).advance c a (.rousing .graceful 0 m.shared.running))
  | _ => none

def await (m : Machine τ) (a : Actor) (timeout : Duration) (interrupt : Nat) : Machine τ :=
  m.begin a (.watching (.start m.now timeout interrupt))

def sight (m : Machine τ) (v : Vigil) : Sight :=
  ⟨m.now, m.shared.isTerminated, m.fired.contains v.interrupt⟩

/-- A turn sees the clock, whether the pool has terminated, and whether the token is cancelled. -/
theorem sight_eq_iff {m : Machine τ} {v : Vigil} {s : Sight} :
    m.sight v = s ↔ s.now = m.now ∧ s.terminated = m.shared.isTerminated ∧
      (s.interrupted = true ↔ v.interrupt ∈ m.fired) := by
  rw [← List.contains_iff_mem, ← Bool.eq_iff_iff]
  constructor
  · rintro rfl
    exact ⟨rfl, rfl, rfl⟩
  · obtain ⟨now, terminated, interrupted⟩ := s
    rintro ⟨rfl, rfl, rfl⟩
    rfl

def watch (m : Machine τ) (c : Nat) : Option (Machine τ) :=
  match m.calls[c]? with
  | some ⟨a, .watching v⟩ =>
    match v.judge (m.sight v) with
    | .answer r => some (m.advance c a (.answered (.termination r)))
    | .park _ => some (m.advance c a (.dozing v))
  | _ => none

def stir (m : Machine τ) (c : Nat) : Option (Machine τ) :=
  match m.calls[c]? with
  | some ⟨a, .dozing v⟩ => some (m.advance c a (.watching v))
  | _ => none

def reply (m : Machine τ) : Question → Answer
  | .isStopped => .flag m.shared.stopped
  | .isTerminated => .flag m.shared.isTerminated
  | .queued => .count m.shared.queue.length
  | .running => .count m.shared.running

def ask (m : Machine τ) (a : Actor) (q : Question) : Machine τ :=
  m.begin a (.answered (m.reply q))

def onceOpen (m : Machine τ) (next : Machine τ) : Option (Machine τ) :=
  if m.isOpen then some next else none

def step? (m : Machine τ) : Move τ → Option (Machine τ)
  | .countWorker => m.countWorker
  | .startWorker => m.startWorker
  | .openPool => m.openPool
  | .look w => m.look w
  | .wake w => m.wake w
  | .finish w how => m.finish w how
  | .recordEnd w => m.recordEnd w
  | .recordExit w => m.recordExit w
  | .submit a t => m.onceOpen (m.submit a t)
  | .nudge c woken => m.nudge c woken
  | .requestStop a mode => m.onceOpen (m.requestStop a mode)
  | .cancelTasks c => m.cancelTasks c
  | .rouse c => m.rouse c
  | .release a => m.onceOpen (m.release a)
  | .stopReleased c => m.stopReleased c
  | .await a timeout interrupt => m.onceOpen (m.await a timeout interrupt)
  | .watch c => m.watch c
  | .stir c => m.stir c
  | .ask a q => m.onceOpen (m.ask a q)
  | .fire i => some { m with fired := i :: m.fired }
  | .elapse n => some { m with now := m.now + n }

def run? : Machine τ → List (Move τ) → Option (Machine τ)
  | m, [] => some m
  | m, x :: rest => (m.step? x).bind fun n => n.run? rest

def Reaches (m n : Machine τ) : Prop := ∃ moves, m.run? moves = some n

theorem runs : Runs (step? (τ := τ)) run? := ⟨fun _ => rfl, fun _ _ _ => rfl⟩

theorem run?_append (m : Machine τ) (xs ys : List (Move τ)) :
    m.run? (xs ++ ys) = (m.run? xs).bind fun n => n.run? ys := runs.append m xs ys

theorem Reaches.refl (m : Machine τ) : m.Reaches m := ⟨[], rfl⟩

theorem Reaches.trans {m n o : Machine τ} (h : m.Reaches n) (k : n.Reaches o) :
    m.Reaches o := by
  obtain ⟨xs, hx⟩ := h
  obtain ⟨ys, hy⟩ := k
  exact ⟨xs ++ ys, runs.append_eq_some hx hy⟩

theorem Reaches.step {m n o : Machine τ} (h : m.Reaches n) {x : Move τ}
    (k : n.step? x = some o) : m.Reaches o :=
  h.trans ⟨[x], by simp [run?, k]⟩

end Machine

structure Settings where
  workers : Nat
  queueCapacity : Nat
  threadName : String
deriving DecidableEq, Repr

inductive Setback where
  | panicked
  | failed (why : Error)

def isThreadName (name : String) : Bool := !name.toList.contains '\x00'

namespace Settings

variable {τ : Type}

def default : Settings := ⟨4, 64, "klient-worker"⟩

def remaining (k : Nat) : List (Move τ) :=
  (List.replicate k [Move.countWorker, Move.startWorker]).flatten ++ [.openPool]

/-- One move of the thread that builds a pool. `refusal` holds the fault for which the system
refuses to start the thread of a worker, if it does. -/
def build (s : Settings) (refusal : Nat → Option Fault) (m : Machine τ) (x : Move τ) :
    Except Setback (Machine τ) :=
  match x with
  | .startWorker =>
    let name := workerName s.threadName m.workers.length
    if isThreadName name then
      match refusal m.workers.length with
      | some fault => .error (.failed (.spawn name fault))
      | none => .ok ((m.step? .startWorker).getD m)
    else .error .panicked
  | x => .ok ((m.step? x).getD m)

/-- All moves of the thread that builds a pool. After each of them the pool goes its way: `others`
takes how many moves are still to come, and the state. -/
def buildAll (s : Settings) (refusal : Nat → Option Fault) (others : Nat → Machine τ → Machine τ)
    (m : Machine τ) : List (Move τ) → Except Setback (Machine τ)
  | [] => .ok m
  | x :: rest => do
    let n ← s.build refusal m x
    s.buildAll refusal others (others rest.length n) rest

/-- A refused thread, or a name that no thread can have, ends the start; the pool that is given up
then is not followed any further. -/
def start (s : Settings) (refusal : Nat → Option Fault) (others : Nat → Machine τ → Machine τ) :
    Except Setback (Machine τ) :=
  s.buildAll refusal others (.initial s.workers s.queueCapacity) (remaining (max s.workers 1))

end Settings

end Quiesce.Pool
