import Quiesce.Drain
import Quiesce.Proofs.Drain.Courses
import Quiesce.Proofs.Pool.Calls

set_option autoImplicit false

/-! A drain in its seat and the machine move together. `Sound` ties them: the calls answered are
those of the plan, and what an answer says of the pool holds from then on. -/

namespace Quiesce.Pool

namespace Vigil

variable {v : Vigil} {sight : Sight}

theorem terminated_of_judge (h : v.judge sight = .answer (.ok true)) :
    sight.terminated = true := by
  unfold judge at h
  split at h
  · assumption
  · split at h
    · exact nomatch h
    · split at h
      · exact nomatch h
      · split at h <;> exact nomatch h

theorem interrupted_of_judge (h : v.judge sight = .answer (.error .interrupted)) :
    sight.interrupted = true := by
  unfold judge at h
  split at h
  · exact nomatch h
  · split at h
    · assumption
    · split at h
      · exact nomatch h
      · split at h <;> exact nomatch h

end Vigil

end Quiesce.Pool

namespace Quiesce.Drain

open Pool (Actor Machine Move Stage)
open Pool.Machine (Crewed Reaches)

variable {τ α : Type}

def Halted (mode : StopMode) (p : Machine τ) : Prop :=
  p.shared.stopped = true ∧ (mode = .forced → p.shared.queue = [] ∧ p.cancelled = true)

/-- What an answer says of the pool from then on. -/
def Call.Promises : (c : Call Nat) → c.Answer → Machine τ → Prop
  | isStopped, b, p => b = true → p.shared.stopped = true
  | isTerminated, b, p => b = true → p.shared.isTerminated = true
  | requestStop mode, _, p => Halted mode p
  | awaitTermination _ i, r, p =>
    (r = .ok true → p.shared.isTerminated = true) ∧ (r = .error .interrupted → i ∈ p.fired)

variable {p q : Machine τ} {size : Nat} {c : Call Nat}

theorem Halted.of_reaches {mode : StopMode} (h : Halted mode p) (hr : p.Reaches q) :
    Halted mode q := by
  refine ⟨(Machine.closedAt_of_reaches hr h.1).1, fun hm => ?_⟩
  obtain ⟨hq, hc⟩ := h.2 hm
  have hl := congrArg Pool.Ledger.queue (Machine.ledger_of_reaches hr h.1 hq)
  exact ⟨hl.trans hq, Machine.cancelled_of_reaches hr hc⟩

theorem Call.Promises.of_reaches {x : c.Answer} (h : c.Promises x p) (hc : Crewed size p)
    (hr : p.Reaches q) : c.Promises x q := by
  cases c with
  | isStopped => exact fun hx => (Machine.closedAt_of_reaches hr (h hx)).1
  | isTerminated => exact fun hx => hc.terminated_of_reaches hr (h hx)
  | requestStop mode => exact Halted.of_reaches h hr
  | awaitTermination timeout i =>
    exact ⟨fun hx => hc.terminated_of_reaches hr (h.1 hx),
      fun hx => Machine.fired_of_reaches hr (h.2 hx)⟩

/-- How far the pool's call has come that answers `c`, and what holds of the pool meanwhile. -/
inductive Standing (p : Machine τ) : Call Nat → Stage → Prop where
  | answered {c : Call Nat} {a : Pool.Answer} {x : c.Answer} : c.read a = some x →
      c.Promises x p → Standing p c (.answered a)
  | cancelling {abandoned running : Nat} : p.shared.stopped = true → p.shared.queue = [] →
      Standing p (.requestStop .forced) (.cancelling abandoned running)
  | rousing {mode : StopMode} {abandoned running : Nat} : Halted mode p →
      Standing p (.requestStop mode) (.rousing mode abandoned running)
  | watching {timeout : Duration} {v : Pool.Vigil} :
      Standing p (.awaitTermination timeout v.interrupt) (.watching v)
  | dozing {timeout : Duration} {v : Pool.Vigil} :
      Standing p (.awaitTermination timeout v.interrupt) (.dozing v)

theorem Standing.goesOn {s s' : Stage} (h : Standing p c s) (hc : Crewed size p)
    (hr : p.Reaches q) (hn : s.Next p q s') : Standing q c s' := by
  cases h with
  | answered hread hp =>
    cases hn
    exact .answered hread (hp.of_reaches hc hr)
  | cancelling hs hq =>
    have hs' := (Machine.closedAt_of_reaches hr hs).1
    have hq' := (congrArg Pool.Ledger.queue (Machine.ledger_of_reaches hr hs hq)).trans hq
    cases hn with
    | same => exact .cancelling hs' hq'
    | cancelled _ _ hcancelled => exact .rousing ⟨hs', fun _ => ⟨hq', hcancelled⟩⟩
  | rousing hh =>
    cases hn with
    | same => exact .rousing (hh.of_reaches hr)
    | roused => exact .answered rfl (hh.of_reaches hr)
  | @watching timeout v =>
    cases hn with
    | same => exact .watching
    | dozed => exact .dozing
    | decided _ r hj =>
      refine .answered (x := r) rfl ⟨?_, ?_⟩
      · rintro rfl
        exact hc.terminated_of_reaches hr (Pool.Vigil.terminated_of_judge hj)
      · rintro rfl
        have hi := Pool.Vigil.interrupted_of_judge hj
        exact Machine.fired_of_reaches hr (List.contains_iff_mem.mp hi)
  | dozing =>
    cases hn with
    | same => exact .dozing
    | stirred => exact .watching

theorem Standing.promises {s : Stage} (h : Standing p c s) {a : Pool.Answer} {x : c.Answer}
    (ha : s.answer? = some a) (hx : c.read a = some x) : c.Promises x p := by
  cases h with
  | answered hread hp =>
    obtain rfl := Option.some.inj ha
    obtain rfl := Option.some.inj (hread.symm.trans hx)
    exact hp
  | cancelling | rousing | watching | dozing => exact nomatch ha

theorem Standing.stopped {mode : StopMode} {s : Stage} (h : Standing p (.requestStop mode) s) :
    p.shared.stopped = true := by
  cases h with
  | answered _ hp => exact hp.1
  | cancelling hs _ => exact hs
  | rousing hh => exact hh.1

theorem standing_of_opening {a : Actor} (h : p.step? (c.opening a) = some q) :
    ∃ k, q.calls[p.calls.length]? = some k ∧ Standing q c k.stage := by
  cases c with
  | isStopped =>
    obtain ⟨-, rfl⟩ := Machine.onceOpen_eq_some.mp h
    exact ⟨_, List.getElem?_concat_length, .answered rfl id⟩
  | isTerminated =>
    obtain ⟨-, rfl⟩ := Machine.onceOpen_eq_some.mp h
    exact ⟨_, List.getElem?_concat_length, .answered rfl id⟩
  | requestStop mode =>
    obtain ⟨-, rfl⟩ := Machine.onceOpen_eq_some.mp h
    refine ⟨_, List.getElem?_concat_length, ?_⟩
    cases mode with
    | graceful => exact .rousing ⟨rfl, nofun⟩
    | forced => exact .cancelling rfl rfl
  | awaitTermination timeout i =>
    obtain ⟨-, rfl⟩ := Machine.onceOpen_eq_some.mp h
    exact ⟨_, List.getElem?_concat_length, .watching (v := .start p.now timeout i)⟩

namespace Seat

inductive Step (s : Seat τ α) : SeatMove τ → Seat τ α → Prop where
  | pool {x : Move τ} {p : Machine τ} : s.pool.step? x = some p →
      Step s (.pool x) { s with pool := p }
  | opens {c : Call Nat} {next : c.Answer → Plan Nat α} {p : Machine τ} :
      s.plan = .ask c next → s.pending = none → s.pool.step? (c.opening s.actor) = some p →
      Step s .open { s with pool := p, pending := some s.pool.calls.length }
  | proceeds {c : Call Nat} {next : c.Answer → Plan Nat α} {id : Nat} {k : Pool.Call}
      {a : Pool.Answer} {x : c.Answer} : s.plan = .ask c next → s.pending = some id →
      s.pool.calls[id]? = some k → k.stage.answer? = some a → c.read a = some x →
      Step s .proceed { s with
        plan := next x, pending := none, exchanges := s.exchanges ++ [⟨c, x⟩] }
  | notes {n : Notice} {rest : Plan Nat α} : s.plan = .note n rest →
      Step s .note { s with plan := rest, notices := s.notices ++ [n] }

variable {s t : Seat τ α} {x : SeatMove τ}

theorem step_of_step? (h : s.step? x = some t) : Step s x t := by
  cases x with
  | pool m =>
    obtain ⟨p, hp, rfl⟩ := Option.map_eq_some_iff.mp h
    exact .pool hp
  | «open» =>
    simp only [step?] at h
    split at h
    · rename_i c next hplan hpending
      obtain ⟨p, hp, rfl⟩ := Option.map_eq_some_iff.mp h
      exact .opens hplan hpending hp
    · exact nomatch h
  | proceed =>
    simp only [step?] at h
    split at h
    · rename_i c next id hplan hpending
      split at h
      · rename_i y hy
        obtain rfl := Option.some.inj h
        obtain ⟨a, ha, hread⟩ := Option.bind_eq_some_iff.mp hy
        obtain ⟨k, hk, hanswer⟩ := Option.bind_eq_some_iff.mp ha
        exact .proceeds hplan hpending hk hanswer hread
      · exact nomatch h
    · exact nomatch h
  | note =>
    simp only [step?] at h
    split at h
    · rename_i n rest hplan
      obtain rfl := Option.some.inj h
      exact .notes hplan
    · exact nomatch h

theorem runs : Runs (step? (τ := τ) (α := α)) run? := ⟨fun _ => rfl, fun _ _ _ => rfl⟩

theorem run?_keeps {P : Seat τ α → Prop} (allowed : SeatMove τ → Prop)
    (keeps : ∀ {s t x}, Step s x t → allowed x → P s → P t) {moves : List (SeatMove τ)}
    (h : s.run? moves = some t) (ha : ∀ x ∈ moves, allowed x) (hs : P s) : P t :=
  runs.keeps allowed (fun hx => keeps (step_of_step? hx)) h ha hs

theorem Step.reaches (h : Step s x t) : s.pool.Reaches t.pool := by
  cases h with
  | pool hp | opens _ _ hp => exact (Reaches.refl _).step hp
  | proceeds | notes => exact .refl _

/-- The seat has come along its plan, the pool keeps what it has answered, and the call in hand
stands as its question asks. -/
structure Sound (plan : Plan Nat α) (size : Nat) (s : Seat τ α) : Prop where
  crewed : Crewed size s.pool
  path : plan.Leads s.exchanges s.notices s.plan
  promised : ∀ e ∈ s.exchanges, e.call.Promises e.answer s.pool
  pending : ∀ id, s.pending = some id → ∃ c next k, s.plan = .ask c next ∧
    s.pool.calls[id]? = some k ∧ Standing s.pool c k.stage

variable {plan : Plan Nat α}

theorem Sound.taken {a : Actor} (hc : Crewed size p) : Sound plan size (take p a plan) :=
  ⟨hc, .refl plan, nofun, nofun⟩

theorem Sound.step (h : Step s x t) (hs : Sound plan size s) : Sound plan size t := by
  have hreach := h.reaches
  have hkept : ∀ e ∈ s.exchanges, e.call.Promises e.answer t.pool := fun e he =>
    (hs.promised e he).of_reaches hs.crewed hreach
  cases h with
  | pool hp =>
    have hstep := Machine.step_of_step? hp
    refine ⟨hs.crewed.step hstep, hs.path, hkept, fun id hid => ?_⟩
    obtain ⟨c, next, k, hplan, hk, hstand⟩ := hs.pending id hid
    -- whoever has moved, the call in hand stays where it is or goes on by one stage
    obtain ⟨k', hk', -, hnext⟩ := Machine.step_call hstep hk
    exact ⟨c, next, k', hplan, hk', hstand.goesOn hs.crewed hreach hnext⟩
  | @opens c next p hplan _ hp =>
    refine ⟨hs.crewed.step (Machine.step_of_step? hp), hs.path, hkept, fun id hid => ?_⟩
    obtain rfl := Option.some.inj hid
    obtain ⟨k, hk, hstand⟩ := standing_of_opening hp
    exact ⟨c, next, k, hplan, hk, hstand⟩
  | @proceeds c next id k a y hplan hpending hk hanswer hread =>
    refine ⟨hs.crewed, (hplan ▸ hs.path).asked y, ?_, nofun⟩
    rw [List.forall_mem_append]
    refine ⟨hs.promised, List.forall_mem_singleton.mpr ?_⟩
    obtain ⟨c', next', k', hplan', hk', hstand⟩ := hs.pending id hpending
    obtain rfl := Option.some.inj (hk.symm.trans hk')
    cases hplan.symm.trans hplan'
    exact hstand.promises hanswer hread
  | notes hplan =>
    refine ⟨hs.crewed, (hplan ▸ hs.path).noted, hs.promised, fun id hid => ?_⟩
    obtain ⟨c, next, k, hplan', -⟩ := hs.pending id hid
    exact nomatch hplan.symm.trans hplan'

theorem sound_of_run {a : Actor} {moves : List (SeatMove τ)} (hc : Crewed size p)
    (h : (take p a plan).run? moves = some s) : Sound plan size s :=
  run?_keeps (fun _ => True) (fun hx _ hs => hs.step hx) h (fun _ _ => trivial) (.taken hc)

theorem reaches_of_run {moves : List (SeatMove τ)} (h : s.run? moves = some t) :
    s.pool.Reaches t.pool :=
  run?_keeps (P := fun u => s.pool.Reaches u.pool) (fun _ => True)
    (fun hx _ hs => hs.trans hx.reaches) h (fun _ _ => trivial) (.refl _)

end Seat

end Quiesce.Drain
