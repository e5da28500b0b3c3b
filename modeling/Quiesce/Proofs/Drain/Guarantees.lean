import Quiesce.Proofs.Drain.Seat
import Quiesce.Proofs.Pool.Conservation

set_option autoImplicit false

namespace Quiesce.Drain

open Pool (Actor Machine Move)
open Pool.Machine (Crewed Reaches Unforced)

variable {τ α : Type}

def SeatMove.forces : SeatMove τ → Bool
  | pool x => x.forces
  | _ => false

namespace Seat

variable {s t : Seat τ α} {x : SeatMove τ} {plan : Plan Nat α} {size : Nat}

def HasAsked (mode : StopMode) (s : Seat τ α) : Prop :=
  (∃ n, ⟨.requestStop mode, n⟩ ∈ s.exchanges) ∨
    ∃ next id, s.plan = .ask (.requestStop mode) next ∧ s.pending = some id

/-- The opening step is done: the pool said that it is stopped, or the graceful request has taken
effect. -/
def HasOpened (s : Seat τ α) : Prop := ⟨.isStopped, true⟩ ∈ s.exchanges ∨ s.HasAsked .graceful

theorem HasAsked.step {mode : StopMode} (h : Step s x t) (ha : s.HasAsked mode) :
    t.HasAsked mode := by
  cases h with
  | pool _ => exact ha
  | opens hplan hpending _ =>
    rcases ha with he | ⟨next, id, -, hid⟩
    · exact .inl he
    · exact nomatch hid.symm.trans hpending
  | @proceeds c _ _ _ _ y hplan _ _ _ _ =>
    rcases ha with ⟨n, he⟩ | ⟨next, id, hask, -⟩
    · exact .inl ⟨n, List.mem_append_left _ he⟩
    · cases hplan.symm.trans hask
      exact .inl ⟨y, List.mem_append_right _ (.head _)⟩
  | notes hplan =>
    rcases ha with he | ⟨next, id, hask, -⟩
    · exact .inl he
    · exact nomatch hplan.symm.trans hask

theorem Sound.stopped_of_asked (hs : Sound plan size s) {mode : StopMode}
    (ha : s.HasAsked mode) : s.pool.shared.stopped = true := by
  rcases ha with ⟨n, he⟩ | ⟨next, id, hask, hid⟩
  · exact (hs.promised _ he).1
  · obtain ⟨c, next', k, hplan, -, hstand⟩ := hs.pending id hid
    cases hask.symm.trans hplan
    exact hstand.stopped

theorem Sound.stopped_of_opened (hs : Sound plan size s) (ho : s.HasOpened) :
    s.pool.shared.stopped = true := by
  rcases ho with he | ha
  · exact hs.promised _ he rfl
  · exact hs.stopped_of_asked ha

/-- As long as nobody else asks for a forced stop, either the seat does or there is none. -/
theorem unforced_or_asked {moves : List (SeatMove τ)} (h : s.run? moves = some t)
    (hx : ∀ x ∈ moves, x.forces = false) (hu : Unforced s.pool) :
    Unforced t.pool ∨ t.HasAsked .forced := by
  refine run?_keeps (P := fun u => Unforced u.pool ∨ u.HasAsked .forced)
    (fun x => x.forces = false) (fun {u v y} hstep hy hu => ?_) h hx (.inl hu)
  rcases hu with hu | ha
  · cases hstep with
    | pool hp => exact .inl (hu.step (Machine.step_of_step? hp) hy)
    | @opens c next p hplan _ hp =>
      by_cases hc : c = .requestStop .forced
      · subst hc
        exact .inr (.inr ⟨next, _, hplan, rfl⟩)
      · refine .inl (hu.step (Machine.step_of_step? hp) ?_)
        cases c with
        | requestStop mode =>
          cases mode with
          | graceful => rfl
          | forced => exact absurd rfl hc
        | _ => rfl
    | proceeds | notes => exact .inl hu
  · exact .inr (ha.step hstep)

theorem fired_of_run {moves : List (SeatMove τ)} (h : s.run? moves = some t) {i : Nat}
    (hi : i ∈ t.pool.fired) : i ∈ s.pool.fired ∨ SeatMove.pool (.fire i) ∈ moves := by
  induction moves generalizing s with
  | nil =>
    obtain rfl := Option.some.inj h
    exact .inl hi
  | cons x rest ih =>
    obtain ⟨u, hu, hr⟩ := Option.bind_eq_some_iff.mp h
    rcases ih hr with hu' | hm
    · cases step_of_step? hu with
      | pool hp =>
        rcases Machine.fired_of_step (Machine.step_of_step? hp) hu' with hs | rfl
        · exact .inl hs
        · exact .inr (.head _)
      | @opens c _ _ _ _ hp =>
        refine .inl ((Machine.fired_of_step (Machine.step_of_step? hp) hu').resolve_right ?_)
        cases c <;> exact nofun
      | proceeds | notes => exact .inl hu'
    · exact .inr (.tail _ hm)

end Seat

/-- What is guaranteed at any moment of a drain under the token `i`, and after its end, if the pool
came by the moves `before` to where the drain took it up, and the moves `during` have followed. -/
structure Guaranteed (i : Nat) (p : Machine τ) (before : List (Move τ))
    (during : List (SeatMove τ)) (s : Seat τ Outcome) : Prop where
  closed : s.HasOpened → ∀ q, s.pool.Reaches q →
    q.shared.stopped = true ∧ q.history.accepted = s.pool.history.accepted
  terminated : ∀ o, s.plan = .done o → o.isTerminated = true → ∀ q, s.pool.Reaches q →
    q.shared.isTerminated = true
  clean : s.plan = .done .completedCleanly →
    (∀ e ∈ s.exchanges, e.call ≠ .requestStop .forced) ∧
    ((∀ x ∈ before, x.forces = false) → (∀ x ∈ during, x.forces = false) →
      s.pool.history.accepted.Perm (s.pool.history.ended.map Prod.fst) ∧
      s.pool.cancelled = false)
  halted : ∀ o, s.plan = .done o → o.isTerminated = false → ∀ q, s.pool.Reaches q →
    q.shared.stopped = true ∧ q.shared.queue = [] ∧ q.cancelled = true ∧
    q.history.started = s.pool.history.started
  interrupted : s.plan = .done .interrupted →
    (∀ q, s.pool.Reaches q → i ∈ q.fired) ∧ (i ∈ p.fired ∨ .pool (.fire i) ∈ during)

theorem drain_guarantees {workers capacity i : Nat} {before : List (Move τ)} {p : Machine τ}
    (hp : (Machine.initial workers capacity).run? before = some p) {a : Actor} {budget : Budget}
    {during : List (SeatMove τ)} {s : Seat τ Outcome}
    (hs : (Seat.take p a (sequence budget i)).run? during = some s) :
    Guaranteed i p before during s := by
  have hcrew : Crewed (max workers 1) p := Machine.crewed_of_run hp
  have hsound : Seat.Sound (sequence budget i) (max workers 1) s := Seat.sound_of_run hcrew hs
  have hcourse : ∀ o, s.plan = .done o → Course budget i s.exchanges s.notices o := fun o ho =>
    course_of_leads (ho ▸ hsound.path)
  obtain ⟨moves, hrun⟩ : ∃ moves, (Machine.initial workers capacity).run? moves = some s.pool :=
    Reaches.trans ⟨before, hp⟩ (Seat.reaches_of_run hs)
  have hterminated : ∀ o, s.plan = .done o → o.isTerminated = true →
      s.pool.shared.isTerminated = true := by
    intro o ho ht
    obtain ⟨timeout, he⟩ := (hcourse o ho).terminated ht
    exact (hsound.promised _ he).1 rfl
  refine ⟨?_, ?_, ?_, ?_, ?_⟩
  · exact fun ho q hq => Machine.closedAt_of_reaches hq (hsound.stopped_of_opened ho)
  · exact fun o ho ht q hq => hsound.crewed.terminated_of_reaches hq (hterminated o ho ht)
  · intro ho
    have hclean := (hcourse _ ho).clean
    refine ⟨hclean, fun hbefore hduring => ?_⟩
    have hunforced : Unforced s.pool := by
      have hu := Seat.unforced_or_asked hs hduring (Machine.unforced_of_run hp hbefore)
      refine hu.resolve_right ?_
      rintro (⟨n, he⟩ | ⟨next, id, hask, -⟩)
      · exact hclean _ he rfl
      · exact nomatch ho.symm.trans hask
    have hended := Machine.accepted_of_terminated hrun (hterminated _ ho rfl)
    rw [hunforced.discarded, List.append_nil] at hended
    exact ⟨hended, hunforced.cancelled⟩
  · intro o ho ht q hq
    obtain ⟨n, he⟩ := (hcourse o ho).halted ht
    obtain ⟨hstop, hforced⟩ := hsound.promised _ he
    obtain ⟨hempty, hcancelled⟩ := hforced rfl
    have hl := Machine.ledger_of_reaches hq hstop hempty
    exact ⟨(congrArg Pool.Ledger.stopped hl).trans hstop,
      (congrArg Pool.Ledger.queue hl).trans hempty, Machine.cancelled_of_reaches hq hcancelled,
      congrArg Pool.Ledger.started hl⟩
  · intro ho
    obtain ⟨timeout, he⟩ := (hcourse _ ho).interrupted
    have hi : i ∈ s.pool.fired := (hsound.promised _ he).2 rfl
    exact ⟨fun q hq => Machine.fired_of_reaches hq hi, Seat.fired_of_run hs hi⟩

def occupied : List (Move Nat) :=
  [.countWorker, .startWorker, .openPool, .submit (.caller 0) 10, .look 0, .nudge 0 [],
    .submit (.caller 0) 20, .nudge 1 []]

def cutShort : List (SeatMove Nat) :=
  [.open, .proceed, .open, .pool (.rouse 3), .proceed, .open, .pool (.watch 4), .pool (.fire 7),
    .pool (.stir 4), .pool (.watch 4), .proceed, .open, .pool (.cancelTasks 5), .pool (.rouse 5),
    .proceed, .note]

def Dialogue.result? {ι ν : Type} : Dialogue ι ν α → Option α
  | done a => some a
  | _ => none

theorem Dialogue.result?_eq_some {ι ν : Type} {d : Dialogue ι ν α} {a : α}
    (h : d.result? = some a) : d = .done a := by
  cases d with
  | done b => exact congrArg _ (Option.some.inj h)
  | note | ask => exact nomatch h

theorem cutShort_guaranteed : ∃ p s, (Machine.initial 1 1).run? occupied = some p ∧
    (Seat.take p (.caller 1) (sequence .default 7)).run? cutShort = some s ∧
    s.plan = .done .interrupted ∧ s.pool.history.discarded = [20] ∧
    Guaranteed 7 p occupied cutShort s := by
  have hv : ((Machine.initial 1 1).run? occupied).bind (fun p =>
      ((Seat.take p (.caller 1) (sequence .default 7)).run? cutShort).map fun s =>
        (s.plan.result?, s.pool.history.discarded)) = some (some .interrupted, [20]) := rfl
  obtain ⟨p, hp, hrest⟩ := Option.bind_eq_some_iff.mp hv
  obtain ⟨s, hs, he⟩ := Option.map_eq_some_iff.mp hrest
  obtain ⟨hresult, hd⟩ := Prod.mk.inj he
  exact ⟨p, s, hp, hs, Dialogue.result?_eq_some hresult, hd, drain_guarantees hp hs⟩

end Quiesce.Drain
