import Quiesce.Basic

set_option autoImplicit false

/-! Tokens cloned from one another share a flag, and any number of threads may wait for it, each
until a deadline of its own. To look and to park is one step, so nobody parks beside a set flag. -/

namespace Quiesce.Cancel

structure Tokens where
  families : List Nat
  flags : List Bool
deriving Repr

namespace Tokens

def empty : Tokens := ⟨[], []⟩

def fresh (ts : Tokens) : Tokens :=
  ⟨ts.families ++ [ts.flags.length], ts.flags ++ [false]⟩

def family? (ts : Tokens) (t : Nat) : Option Nat := ts.families[t]?

/-- Nothing happens where there is no token `t`. -/
def clone (ts : Tokens) (t : Nat) : Tokens :=
  match ts.family? t with
  | some f => { ts with families := ts.families ++ [f] }
  | none => ts

def cancel (ts : Tokens) (t : Nat) : Tokens :=
  match ts.family? t with
  | some f => { ts with flags := ts.flags.set f true }
  | none => ts

def isCancelled (ts : Tokens) (t : Nat) : Bool :=
  ((ts.family? t).bind fun f => ts.flags[f]?).getD false

def related (ts : Tokens) (s t : Nat) : Bool := ts.family? s == ts.family? t

def states (ts : Tokens) : List Bool :=
  (List.range ts.families.length).map ts.isCancelled

end Tokens

inductive Stage where
  | watching (deadline : Deadline)
  | parked (deadline : Deadline)
  | answered (cancelled : Bool)
deriving DecidableEq, Repr

namespace Stage

def stir : Stage → Stage
  | parked d => watching d
  | s => s

def answer? : Stage → Option Bool
  | answered b => some b
  | _ => none

def look (cancelled : Bool) (now : Instant) (deadline : Deadline) : Stage :=
  if cancelled then answered true
  else match deadline with
    | none => parked none
    | some d => if d ≤ now then answered false else parked (some d)

end Stage

structure Flag where
  cancelled : Bool
  waiters : List Stage
  now : Instant
deriving Repr

inductive Move where
  | cancel
  | wait (timeout : Duration)
  | look (w : Nat)
  | stir (w : Nat)
  | elapse (nanos : Nat)
deriving DecidableEq, Repr

namespace Flag

def initial (cancelled : Bool) : Flag := ⟨cancelled, [], 0⟩

def cancel (f : Flag) : Flag :=
  if f.cancelled then f
  else { f with cancelled := true, waiters := f.waiters.map Stage.stir }

def step? (f : Flag) : Move → Option Flag
  | .cancel => some f.cancel
  | .wait timeout => some { f with waiters := f.waiters ++ [.watching (.after f.now timeout)] }
  | .look w =>
    match f.waiters[w]? with
    | some (.watching d) => some { f with waiters := f.waiters.set w (.look f.cancelled f.now d) }
    | _ => none
  | .stir w =>
    match f.waiters[w]? with
    | some (.parked d) => some { f with waiters := f.waiters.set w (.watching d) }
    | _ => none
  | .elapse n => some { f with now := f.now + n }

def run? : Flag → List Move → Option Flag
  | f, [] => some f
  | f, m :: rest => (f.step? m).bind fun g => g.run? rest

def push (f : Flag) (m : Move) : Flag := (f.step? m).getD f

def lookAll (f : Flag) : Flag :=
  (List.range f.waiters.length).foldl (fun g w => g.push (.look w)) f

def stirAll (f : Flag) : Flag :=
  (List.range f.waiters.length).foldl (fun g w => g.push (.stir w)) f

def passTo (f : Flag) (t : Instant) : Flag := f.push (.elapse (t - f.now))

/-- `count` threads wait under the same timeout while the flag is cancelled at `cancelAt`, if ever.
The clock moves from one event to the next, and everybody who waits looks at each. -/
def rehearse (f : Flag) (count : Nat) (timeout : Duration) (cancelAt : Option Instant) : Flag :=
  let begun := ((List.range count).foldl (fun g _ => g.push (.wait timeout)) f).lookAll
  let deadline := Deadline.after f.now timeout
  let atCancel (g : Flag) : Flag := match cancelAt with
    | some t => ((g.passTo t).push .cancel).lookAll
    | none => g
  let atDeadline (g : Flag) : Flag := match deadline with
    | some d => (g.passTo d).stirAll.lookAll
    | none => g
  match cancelAt, deadline with
  | some t, some d => if d < t then atCancel (atDeadline begun) else atDeadline (atCancel begun)
  | _, _ => atDeadline (atCancel begun)

def answers (f : Flag) : List (Option Bool) := f.waiters.map Stage.answer?

end Flag

/-- `count` threads wait on token `t` while, perhaps, another thread cancels a token after some
time. The cancellation has always happened when all is over; it reaches the waiting threads only
if it is one of their family. -/
def Tokens.waitFor (ts : Tokens) (t count : Nat) (timeout : Duration)
    (cancellation : Option (Nat × Duration)) : Tokens × Flag :=
  let felt := (cancellation.filter fun c => ts.related t c.1).map fun c => c.2.nanos
  let flag := (Flag.initial (ts.isCancelled t)).rehearse count timeout felt
  match cancellation with
  | some c => (ts.cancel c.1, flag)
  | none => (ts, flag)

structure Crowd where
  families : List Nat
  flags : List Flag
deriving Repr

namespace Crowd

inductive Move where
  | fresh
  | clone (t : Nat)
  | through (t : Nat) (x : Cancel.Move)
deriving DecidableEq, Repr

def empty : Crowd := ⟨[], []⟩

def flag? (c : Crowd) (t : Nat) : Option Flag := (c.families[t]?).bind fun f => c.flags[f]?

def tokens (c : Crowd) : Tokens := ⟨c.families, c.flags.map Flag.cancelled⟩

def step? (c : Crowd) : Move → Option Crowd
  | .fresh => some ⟨c.families ++ [c.flags.length], c.flags ++ [.initial false]⟩
  | .clone t => (c.families[t]?).map fun f => { c with families := c.families ++ [f] }
  | .through t x => do
    let f ← c.families[t]?
    let g ← c.flags[f]?
    let h ← g.step? x
    some { c with flags := c.flags.set f h }

def run? : Crowd → List Move → Option Crowd
  | c, [] => some c
  | c, x :: rest => (c.step? x).bind fun d => d.run? rest

end Crowd

end Quiesce.Cancel
