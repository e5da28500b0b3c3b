import Quiesce.Basic

set_option autoImplicit false

/-! A bounded channel of signals. A wait goes through the events to come in order of time; the last
sender to be dropped ends it, unless a signal is pending. -/

namespace Quiesce.Handoff

structure Channel where
  capacity : Nat
  pending : List Signal
  senders : Nat
  listening : Bool
deriving Repr

inductive DepositError where
  | full (s : Signal)
  | closed (s : Signal)
deriving DecidableEq, Repr

namespace DepositError

def signal : DepositError → Signal
  | full s => s
  | closed s => s

def message : DepositError → String
  | full _ => "handoff channel is full"
  | closed _ => "handoff receiver was dropped"

def name : DepositError → String
  | full _ => "Full"
  | closed _ => "Closed"

def line (e : DepositError) : String := e.name ++ "(" ++ e.signal.line ++ ")"

end DepositError

inductive Notice where
  | producerGone
deriving DecidableEq, Repr

instance : Loggable Notice where
  entry
    | .producerGone =>
      ⟨.debug, "Handoff producer dropped without depositing a signal", []⟩

inductive Find where
  | signal (s : Signal) (after : Channel)
  | senderless
  | nothing

inductive Receipt where
  | signal (s : Signal)
  | timedOut
  | senderless
deriving DecidableEq, Repr

inductive Act where
  | deposit (s : Signal)
  | dropSender

abbrev Agenda := List (Instant × Act)

structure Wait where
  receipt : Option Receipt
  channel : Channel
  later : Agenda

namespace Channel

/-- A channel with one sender. It has room for at least one signal. -/
def make (capacity : Nat) : Channel := ⟨max capacity 1, [], 1, true⟩

def deposit (c : Channel) (s : Signal) : Except DepositError Channel :=
  if !c.listening then .error (.closed s)
  else if c.capacity ≤ c.pending.length then .error (.full s)
  else .ok { c with pending := c.pending ++ [s] }

def addSender (c : Channel) : Channel := { c with senders := c.senders + 1 }

def dropSender (c : Channel) : Channel := { c with senders := c.senders - 1 }

def dropReceiver (c : Channel) : Channel := { c with listening := false, pending := [] }

/-- What is pending comes before the loss of the senders. -/
def find (c : Channel) : Find :=
  match c.pending with
  | s :: rest => .signal s { c with pending := rest }
  | [] => if c.senders = 0 then .senderless else .nothing

def act (c : Channel) : Act → Channel
  | .deposit s => match c.deposit s with
    | .ok d => d
    | .error _ => c
  | .dropSender => c.dropSender

def afterAll (c : Channel) (agenda : Agenda) : Channel :=
  agenda.foldl (fun d e => d.act e.2) c

def receive (deadline : Deadline) : Agenda → Channel → Wait
  | agenda, c =>
    match c.find with
    | .signal s after => ⟨some (.signal s), after, agenda⟩
    | .senderless => ⟨some .senderless, c, agenda⟩
    | .nothing =>
      match agenda, deadline with
      | [], none => ⟨none, c, []⟩
      | [], some _ => ⟨some .timedOut, c, []⟩
      | (_, a) :: rest, none => receive deadline rest (c.act a)
      | (t, a) :: rest, some d =>
        if d < t then ⟨some .timedOut, c, (t, a) :: rest⟩
        else receive deadline rest (c.act a)

end Channel

structure Failure where
  site : String
  source : Fault
deriving DecidableEq, Repr

namespace Failure

def message (f : Failure) : String :=
  "background task failed (waiting at " ++ f.site ++ ")"

def fault (f : Failure) : Fault := f.source.behind f.message

end Failure

namespace Receipt

def signal? : Receipt → Option Signal
  | signal s => some s
  | timedOut => none
  | senderless => none

def notices : Receipt → List Notice
  | senderless => [.producerGone]
  | signal _ => []
  | timedOut => []

/-- The answer of a caller that waits at `site` until something is ready. Only a deposited signal
can make it true. -/
def readiness (site : String) : Receipt → Except Failure Bool
  | signal (.ready b) => .ok b
  | signal (.failed f) => .error ⟨site, f⟩
  | timedOut => .ok false
  | senderless => .ok false

end Receipt

/-- What a wait is for: a signal as it is, or readiness at a site. -/
inductive Ask where
  | signal
  | readiness (site : String)
deriving DecidableEq, Repr

inductive Reply where
  | signal (s : Option Signal)
  | readiness (result : Except Failure Bool)

def Ask.reply : Ask → Receipt → Reply
  | signal, r => .signal r.signal?
  | readiness site, r => .readiness (r.readiness site)

structure Passage where
  channel : Channel
  now : Instant
  waiting : Option (Ask × Deadline)
  deposits : List (Signal × Option DepositError)
  receipts : List (Ask × Receipt)

/-- Readiness and faults are deposited as the two kinds of signal. -/
inductive Move where
  | deposit (s : Signal)
  | addSender
  | dropSender
  | dropReceiver
  | await (ask : Ask) (timeout : Duration)
  | look
  | elapse (nanos : Nat)
deriving DecidableEq

namespace Passage

def start (capacity : Nat) : Passage := ⟨.make capacity, 0, none, [], []⟩

def pending (p : Passage) : List Signal := p.channel.pending

def deposited (p : Passage) : List Signal :=
  p.deposits.filterMap fun d => if d.2.isNone then some d.1 else none

def delivered (p : Passage) : List Signal := p.receipts.filterMap fun r => r.2.signal?

def replies (p : Passage) : List Reply := p.receipts.map fun r => r.1.reply r.2

def deposit (p : Passage) (s : Signal) : Passage :=
  match p.channel.deposit s with
  | .ok c => { p with channel := c, deposits := p.deposits ++ [(s, none)] }
  | .error e => { p with deposits := p.deposits ++ [(s, some e)] }

def conclude (p : Passage) (ask : Ask) (r : Receipt) (c : Channel) : Passage :=
  { p with channel := c, waiting := none, receipts := p.receipts ++ [(ask, r)] }

def look (p : Passage) : Option Passage :=
  match p.waiting with
  | none => none
  | some (ask, deadline) =>
    match p.channel.find with
    | .signal s after => some (p.conclude ask (.signal s) after)
    | .senderless => some (p.conclude ask .senderless p.channel)
    | .nothing =>
      if deadline.any (· ≤ p.now) then some (p.conclude ask .timedOut p.channel) else none

def bySender (p next : Passage) : Option Passage :=
  if 0 < p.channel.senders then some next else none

def byReceiver (p next : Passage) : Option Passage :=
  if p.channel.listening && p.waiting.isNone then some next else none

def step? (p : Passage) : Move → Option Passage
  | .deposit s => p.bySender (p.deposit s)
  | .addSender => p.bySender { p with channel := p.channel.addSender }
  | .dropSender => p.bySender { p with channel := p.channel.dropSender }
  | .dropReceiver => p.byReceiver { p with channel := p.channel.dropReceiver }
  | .await ask timeout => p.byReceiver { p with waiting := some (ask, .after p.now timeout) }
  | .look => p.look
  | .elapse n => some { p with now := p.now + n }

def run? : Passage → List Move → Option Passage
  | p, [] => some p
  | p, x :: rest => (p.step? x).bind fun n => n.run? rest

end Passage

end Quiesce.Handoff
