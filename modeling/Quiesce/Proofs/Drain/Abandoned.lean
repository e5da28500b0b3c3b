import Quiesce.Proofs.Drain.Guarantees
import Quiesce.Proofs.Drain.Served
import Quiesce.Proofs.Pool.Admission

set_option autoImplicit false

/-! A run of a seat is cut at its calls. The first forced stop takes what is queued, so the second
one, whose answer is reported, finds nothing. -/

namespace Quiesce.Pool.Machine

variable {τ : Type} {m n : Machine τ} {x : Move τ}

theorem discarded_step (h : Step m x n) (hx : x.forces = false) :
    n.history.discarded = m.history.discarded := by
  cases h with
  | @requestStop a mode _ =>
    cases mode with
    | graceful => exact List.append_nil _
    | forced => simp [Move.forces] at hx
  | stopReleased => exact List.append_nil _
  | _ => rfl

theorem Among.discarded {allowed : Move τ → Prop} (h : Among allowed m n)
    (ha : ∀ x, allowed x → x.forces = false) : n.history.discarded = m.history.discarded := by
  obtain ⟨moves, hm, hr⟩ := h
  exact run?_keeps (P := fun o => o.history.discarded = m.history.discarded)
    (fun x => x.forces = false) (fun hs hx ho => (discarded_step hs hx).trans ho) hr
    (fun x hx => ha x (hm x hx)) rfl

end Quiesce.Pool.Machine

namespace Quiesce.Drain

open Pool (Actor Machine Move)
open Pool.Machine (Among Crewed Emptied Reaches)

variable {τ : Type} {allowed : Move τ → Prop} {a : Actor} {p q r : Machine τ} {size : Nat}

theorem forces_opening {c : Call Nat} (hc : c ≠ .requestStop .forced) :
    (c.opening a : Move τ).forces = false := by
  cases c with
  | requestStop mode =>
    cases mode with
    | graceful => rfl
    | forced => exact absurd rfl hc
  | _ => rfl

namespace Served

variable {es : List (Exchange Nat)} {k : Nat}

theorem discarded (h : Served allowed a p es q) (ha : ∀ x, allowed x → x.forces = false)
    (hn : ∀ e ∈ es, e.call ≠ .requestStop .forced) :
    q.history.discarded = p.history.discarded := by
  induction h with
  | nil hpq => exact hpq.discarded ha
  | @cons p m n q r c b x es hpm hs hnq _ _ _ ih =>
    have hc : (c.opening a : Move τ).forces = false := forces_opening (hn ⟨c, x⟩ (.head _))
    calc
      r.history.discarded = q.history.discarded := ih fun e he => hn e (.tail _ he)
      _ = n.history.discarded := hnq.discarded ha
      _ = m.history.discarded := Machine.discarded_step (Machine.step_of_step? hs) hc
      _ = p.history.discarded := hpm.discarded ha

theorem forced (h : Served allowed a p (⟨.requestStop .forced, k⟩ :: es) r) :
    ∃ m q, Among allowed p m ∧ k = m.shared.queue.length ∧ Emptied q ∧
      q.history.discarded = m.history.discarded ++ m.shared.queue ∧ Served allowed a q es r := by
  cases h with
  | @cons _ m n q _ _ b _ _ hpm hs hnq hb hx hr =>
    obtain ⟨ho, rfl⟩ := Machine.onceOpen_eq_some.mp hs
    obtain rfl := (Machine.replies_requestStop ho a .forced).answer_eq hs hnq.reaches hb
    have he : Emptied (m.requestStop a .forced) := ⟨rfl, rfl⟩
    exact ⟨m, q, hpm, (Option.some.inj hx).symm, he.of_reaches hnq.reaches,
      congrArg Pool.Ledger.discarded (he.ledger_eq hnq.reaches), hr⟩

theorem forced_eq_zero (h : Served allowed a p es r) (he : Emptied p)
    (hk : ⟨.requestStop .forced, k⟩ ∈ es) : k = 0 := by
  obtain ⟨before, after, rfl⟩ := List.append_of_mem hk
  obtain ⟨q, hp, hq⟩ := h.split
  obtain ⟨m, -, hqm, rfl, -⟩ := hq.forced
  rw [(he.of_reaches (hp.reaches.trans hqm.reaches)).2, List.length_nil]

/-- If nobody else forces anything, the first forced stop takes all that is ever thrown away. -/
theorem first_forced {before after : List (Exchange Nat)}
    (h : Served allowed a p (before ++ ⟨.requestStop .forced, k⟩ :: after) r)
    (ha : ∀ x, allowed x → x.forces = false)
    (hn : ∀ e ∈ before, e.call ≠ .requestStop .forced) :
    ∃ lost, r.history.discarded = p.history.discarded ++ lost ∧ lost.length = k := by
  obtain ⟨q, hp, hq⟩ := h.split
  obtain ⟨m, n, hqm, rfl, hempty, hd, hr⟩ := hq.forced
  refine ⟨m.shared.queue, ?_, rfl⟩
  calc
    r.history.discarded = n.history.discarded :=
      congrArg Pool.Ledger.discarded (hempty.ledger_eq hr.reaches)
    _ = m.history.discarded ++ m.shared.queue := hd
    _ = p.history.discarded ++ m.shared.queue := by rw [hqm.discarded ha, hp.discarded ha hn]

theorem not_timedOut (hc : Crewed size p) {timeout : Duration} {i : Nat}
    (h : Served allowed a p
      (⟨.isTerminated, true⟩ :: ⟨.awaitTermination timeout i, .ok false⟩ :: es) r) : False := by
  cases h with
  | @cons _ m n q _ _ b _ _ hpm hs hnq hb hx hr =>
    have ho := (Machine.onceOpen_eq_some.mp hs).1
    obtain rfl := (Machine.replies_ask ho a .isTerminated).answer_eq hs hnq.reaches hb
    have ht : m.shared.isTerminated = true := Option.some.inj hx
    cases hr with
    | @cons _ m' n' q' _ _ b' _ _ hqm hs' hnq' hb' hx' _ =>
      -- the wait was opened after that, so its answer was settled at once
      have hreach : m.Reaches m' := ((Reaches.refl m).step hs).trans (hnq.reaches.trans hqm.reaches)
      have hcm : Crewed size m := Reaches.keeps Crewed.step hpm.reaches hc
      have hcm' : Crewed size m' := Reaches.keeps Crewed.step hreach hcm
      have ht' := hcm.terminated_of_reaches hreach ht
      obtain rfl := (Machine.replies_await hcm' ht' a timeout i).answer_eq hs' hnq'.reaches hb'
      simp [Call.read] at hx'

end Served

def SeatMove.stops : SeatMove τ → Bool
  | pool x => x.stops
  | _ => false

variable {budget : Budget} {i : Nat} {es : List (Exchange Nat)} {ns : List Notice}

theorem Course.gaveUp {k : Nat} (h : Course budget i es ns (.forcedAfterTimeout k)) :
    ∃ before, (∀ e ∈ before, e.call ≠ .requestStop .forced) ∧
      (es = before ++ [⟨.isTerminated, true⟩, ⟨.awaitTermination budget.force i, .ok false⟩,
          ⟨.requestStop .forced, k⟩] ∨
        ∃ n, es = before ++ [⟨.requestStop .forced, n⟩,
            ⟨.awaitTermination budget.force i, .ok false⟩, ⟨.requestStop .forced, k⟩] ∧
          ns = [.escalating budget.grace,
            .notCleanlyShutDown k budget.grace budget.force]) := by
  cases h with
  | @mk opening _ _ _ ho hf =>
    have hn : ∀ e ∈ opening, e.call ≠ .requestStop .forced := by
      cases ho <;> simp
    cases hf with
    | overtaken hl =>
      cases hl with
      | timedOut =>
        refine ⟨opening ++ [⟨.awaitTermination budget.grace i, .ok false⟩], ?_, .inl ?_⟩
        · exact List.forall_mem_append.mpr ⟨hn, by simp⟩
        · exact List.append_cons _ _ _
    | escalated n hl =>
      cases hl with
      | timedOut =>
        refine ⟨opening ++ [⟨.awaitTermination budget.grace i, .ok false⟩,
          ⟨.isTerminated, false⟩], ?_, .inr ⟨n, ?_, rfl⟩⟩
        · exact List.forall_mem_append.mpr ⟨hn, by simp⟩
        · simp

/-- The pool has lost these tasks since `p`, and the drain that gave up on it was told so when it
forced the pool for the first time, reports what it was told the second time, and logs that. -/
structure GivenUp (budget : Budget) (i abandoned : Nat) (p : Machine τ) (s : Seat τ Outcome)
    (lost : List τ) : Prop where
  discarded : s.pool.history.discarded = p.history.discarded ++ lost
  exchanges : ∃ before, (∀ e ∈ before, e.call ≠ .requestStop .forced) ∧
    s.exchanges = before ++ [⟨.requestStop .forced, lost.length⟩,
      ⟨.awaitTermination budget.force i, .ok false⟩, ⟨.requestStop .forced, abandoned⟩]
  notices : s.notices = [.escalating budget.grace,
    .notCleanlyShutDown abandoned budget.grace budget.force]

/-- A drain that gives up reports no task as abandoned, whoever else stops the pool. If nobody else
forces it, the report is right only where the drain has lost none. -/
theorem abandoned_reported {workers capacity i : Nat} {before : List (Move τ)} {p : Machine τ}
    (hp : (Machine.initial workers capacity).run? before = some p) {a : Actor} {budget : Budget}
    {during : List (SeatMove τ)} {s : Seat τ Outcome}
    (hs : (Seat.take p a (sequence budget i)).run? during = some s) {abandoned : Nat}
    (ho : s.plan = .done (.forcedAfterTimeout abandoned)) :
    abandoned = 0 ∧ ((∀ x ∈ during, x.forces = false) →
      ∃ lost, GivenUp budget i abandoned p s lost ∧ (abandoned = lost.length ↔ lost = [])) := by
  have hcrew : Crewed (max workers 1) p := Machine.crewed_of_run hp
  have hsound : Seat.Sound (sequence budget i) (max workers 1) s := Seat.sound_of_run hcrew hs
  have hcourse : Course budget i s.exchanges s.notices (.forcedAfterTimeout abandoned) :=
    course_of_leads (ho ▸ hsound.path)
  have hserved : Served (fun _ => True) s.actor p s.exchanges s.pool :=
    Seat.served_of_run hs (fun _ _ => trivial) ho
  obtain ⟨first, hn, he | ⟨n, he, hnotices⟩⟩ := hcourse.gaveUp
  · rw [he] at hserved
    obtain ⟨q, hq, hr⟩ := hserved.split
    have hcq : Crewed (max workers 1) q := Reaches.keeps Crewed.step hq.reaches hcrew
    exact (hr.not_timedOut hcq).elim
  · rw [he] at hserved
    obtain ⟨q, -, hr⟩ := hserved.split
    obtain ⟨m, q', -, -, hempty, -, hrest⟩ := hr.forced
    have hzero : abandoned = 0 := hrest.forced_eq_zero hempty (by simp)
    refine ⟨hzero, fun hduring => ?_⟩
    have halone : Served (fun x => x.forces = false) s.actor p s.exchanges s.pool :=
      Seat.served_of_run hs (fun y hy => hduring _ hy) ho
    rw [he] at halone
    obtain ⟨lost, hlost, hl⟩ := halone.first_forced (fun _ hx => hx) hn
    refine ⟨lost, ⟨hlost, ⟨first, hn, hl ▸ he⟩, hnotices⟩, ?_⟩
    rw [hzero, eq_comm, List.length_eq_zero_iff]

def backlogged : List (Move Nat) :=
  [.countWorker, .startWorker, .openPool, .submit (.caller 0) 10, .look 0, .nudge 0 [],
    .submit (.caller 0) 20, .nudge 1 [], .submit (.caller 0) 30, .nudge 2 [],
    .submit (.caller 0) 40, .nudge 3 []]

def givingUp : List (SeatMove Nat) :=
  [.open, .proceed, .open, .pool (.rouse 5), .proceed, .open, .pool (.elapse 8), .pool (.watch 6),
    .proceed, .open, .proceed, .note, .open, .pool (.cancelTasks 8), .pool (.rouse 8), .proceed,
    .open, .pool (.elapse 8), .pool (.watch 9), .proceed, .open, .pool (.cancelTasks 10),
    .pool (.rouse 10), .proceed, .note]

theorem backlogged_run : ∃ p s, (Machine.initial 1 16).run? backlogged = some p ∧
    (Seat.take p (.caller 1) (sequence ⟨⟨8⟩, ⟨8⟩⟩ 7)).run? givingUp = some s ∧
    s.plan = .done (.forcedAfterTimeout 0) ∧ p.history.discarded = [] ∧
    s.pool.history.discarded = [20, 30, 40] := by
  have hv : ((Machine.initial 1 16).run? backlogged).bind (fun p =>
      ((Seat.take p (.caller 1) (sequence ⟨⟨8⟩, ⟨8⟩⟩ 7)).run? givingUp).map fun s =>
        (s.plan.result?, p.history.discarded, s.pool.history.discarded)) =
          some (some (.forcedAfterTimeout 0), [], [20, 30, 40]) := rfl
  obtain ⟨p, hp, hrest⟩ := Option.bind_eq_some_iff.mp hv
  obtain ⟨s, hs, he⟩ := Option.map_eq_some_iff.mp hrest
  obtain ⟨hresult, hd⟩ := Prod.mk.inj he
  exact ⟨p, s, hp, hs, Dialogue.result?_eq_some hresult, (Prod.mk.inj hd).1, (Prod.mk.inj hd).2⟩

/-- Although nobody else stops the pool, the report is not what the drain has thrown away. -/
theorem report_ne_lost : ¬ ∀ (workers capacity i : Nat) (before : List (Move Nat))
    (p : Machine Nat) (a : Actor) (budget : Budget) (during : List (SeatMove Nat))
    (s : Seat Nat Outcome) (abandoned : Nat),
    (Machine.initial workers capacity).run? before = some p →
    (Seat.take p a (sequence budget i)).run? during = some s →
    (∀ x ∈ during, x.stops = false) → s.plan = .done (.forcedAfterTimeout abandoned) →
    s.pool.history.discarded.length = p.history.discarded.length + abandoned := by
  intro hright
  obtain ⟨p, s, hp, hs, ho, hbefore, hafter⟩ := backlogged_run
  have hlength :=
    hright 1 16 7 backlogged p (.caller 1) ⟨⟨8⟩, ⟨8⟩⟩ givingUp s 0 hp hs (by decide) ho
  rw [hbefore, hafter] at hlength
  exact absurd hlength (by decide)

theorem backlog_unreported : ∃ p s, (Machine.initial 1 16).run? backlogged = some p ∧
    (Seat.take p (.caller 1) (sequence ⟨⟨8⟩, ⟨8⟩⟩ 7)).run? givingUp = some s ∧
    s.plan = .done (.forcedAfterTimeout 0) ∧
    GivenUp ⟨⟨8⟩, ⟨8⟩⟩ 7 0 p s [20, 30, 40] := by
  obtain ⟨p, s, hp, hs, ho, hbefore, hafter⟩ := backlogged_run
  obtain ⟨-, hreport⟩ := abandoned_reported hp hs ho
  obtain ⟨lost, hgiven, -⟩ := hreport (by decide)
  have hlost : [20, 30, 40] = lost := by
    have hd := hgiven.discarded
    rwa [hbefore, hafter, List.nil_append] at hd
  exact ⟨p, s, hp, hs, ho, hlost ▸ hgiven⟩

end Quiesce.Drain
