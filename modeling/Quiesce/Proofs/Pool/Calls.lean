import Mathlib.Algebra.GroupWithZero.Nat
import Quiesce.Proofs.Pool.Crew
import Quiesce.Proofs.Pool.Ledger

set_option autoImplicit false

namespace Quiesce.Pool

variable {τ : Type}

/-- How the stage of a call goes on in a move from `m` to `n`. -/
inductive Stage.Next (m n : Machine τ) : Stage → Stage → Prop where
  | same (s : Stage) : Next m n s s
  | nudged : Next m n .nudging (.answered .accepted)
  | cancelled (abandoned running : Nat) : n.cancelled = true →
      Next m n (.cancelling abandoned running) (.rousing .forced abandoned running)
  | roused (mode : StopMode) (abandoned running : Nat) :
      Next m n (.rousing mode abandoned running) (.answered (.discarded abandoned))
  | released (running : Nat) : n.shared.stopped = true →
      Next m n .releasing (.rousing .graceful 0 running)
  | decided (v : Vigil) (r : Except Interrupted Bool) : v.judge (m.sight v) = .answer r →
      Next m n (.watching v) (.answered (.termination r))
  | dozed (v : Vigil) : Next m n (.watching v) (.dozing v)
  | stirred (v : Vigil) : Next m n (.dozing v) (.watching v)

theorem Stage.next_stir (m n : Machine τ) (s : Stage) : s.Next m n s.stir := by
  cases s with
  | dozing v => exact .stirred v
  | _ => exact .same _

namespace Machine

variable {m n : Machine τ} {x : Move τ} {c : Nat} {k : Call}

def GoesOn (m n : Machine τ) (c : Nat) (k : Call) : Prop :=
  ∃ k', n.calls[c]? = some k' ∧ k'.actor = k.actor ∧ k.stage.Next m n k'.stage

theorem goesOn_same (hk : m.calls[c]? = some k) (h : n.calls = m.calls) : GoesOn m n c k :=
  ⟨k, h ▸ hk, rfl, .same _⟩

theorem goesOn_begin (hk : m.calls[c]? = some k) {k' : Call} (h : n.calls = m.calls ++ [k']) :
    GoesOn m n c k := by
  refine ⟨k, ?_, rfl, .same _⟩
  obtain ⟨hc, -⟩ := List.getElem?_eq_some_iff.mp hk
  rw [h, List.getElem?_append_left hc]
  exact hk

theorem goesOn_advance (hk : m.calls[c]? = some k) {d : Nat} {a : Actor} {s s' : Stage}
    (hd : m.calls[d]? = some ⟨a, s⟩) (h : n.calls = m.calls.set d ⟨a, s'⟩)
    (hs : s.Next m n s') : GoesOn m n c k := by
  by_cases he : d = c
  · subst he
    obtain rfl := Option.some.inj (hd.symm.trans hk)
    obtain ⟨hc, -⟩ := List.getElem?_eq_some_iff.mp hk
    exact ⟨⟨a, s'⟩, by rw [h, List.getElem?_set_self hc], rfl, hs⟩
  · refine ⟨k, ?_, rfl, .same _⟩
    rw [h, List.getElem?_set_ne he]
    exact hk

theorem step_call (h : Step m x n) (hk : m.calls[c]? = some k) : GoesOn m n c k := by
  cases h with
  | lastExit _ _ =>
    refine ⟨{ k with stage := k.stage.stir }, ?_, rfl, Stage.next_stir _ _ _⟩
    simp only [List.getElem?_map, hk, Option.map_some]
  | accept | refuse | requestStop | release | await | ask => exact goesOn_begin hk rfl
  | nudge hc _ => exact goesOn_advance hk hc rfl .nudged
  | cancelTasks hc => exact goesOn_advance hk hc rfl (.cancelled _ _ rfl)
  | rouse hc => exact goesOn_advance hk hc rfl (.roused _ _ _)
  | stopReleased hc => exact goesOn_advance hk hc rfl (.released _ rfl)
  | decide hc hr => exact goesOn_advance hk hc rfl (.decided _ _ hr)
  | doze hc _ => exact goesOn_advance hk hc rfl (.dozed _)
  | stir hc => exact goesOn_advance hk hc rfl (.stirred _)
  | _ => exact goesOn_same hk rfl

end Machine

namespace Stage

def taken? : Stage → Option Nat
  | cancelling abandoned _ => some abandoned
  | rousing _ abandoned _ => some abandoned
  | answered (.discarded abandoned) => some abandoned
  | _ => none

def returned? : Stage → Option Nat
  | answered (.discarded abandoned) => some abandoned
  | _ => none

def isStopping : Stage → Bool
  | cancelling _ _ => true
  | rousing _ _ _ => true
  | _ => false

theorem taken?_of_returned? {s : Stage} {number : Nat} (h : s.returned? = some number) :
    s.taken? = some number := by
  cases s with
  | answered a => cases a <;> exact h
  | _ => exact nomatch h

theorem returned?_eq_taken? {s : Stage} (h : s.isStopping = false) : s.returned? = s.taken? := by
  cases s with
  | answered a => cases a <;> rfl
  | cancelling | rousing => exact nomatch h
  | _ => rfl

@[simp] theorem taken?_stir (s : Stage) : s.stir.taken? = s.taken? := by cases s <;> rfl

end Stage

namespace Machine

variable {m n : Machine τ} {x : Move τ}

def taken (m : Machine τ) : List Nat := m.calls.filterMap fun k => k.stage.taken?

def returned (m : Machine τ) : List Nat := m.calls.filterMap fun k => k.stage.returned?

theorem returned_sublist_taken (m : Machine τ) : m.returned.Sublist m.taken := by
  unfold returned taken
  induction m.calls with
  | nil => exact .slnil
  | cons k rest ih =>
    simp only [List.filterMap_cons]
    cases hr : k.stage.returned? with
    | some number =>
      rw [Stage.taken?_of_returned? hr]
      exact ih.cons_cons number
    | none =>
      cases k.stage.taken? with
      | none => exact ih
      | some number => exact ih.cons number

theorem returned_eq_taken (h : ∀ k ∈ m.calls, k.stage.isStopping = false) :
    m.returned = m.taken :=
  List.filterMap_congr fun k hk => Stage.returned?_eq_taken? (h k hk)

theorem taken_of_append {a : Actor} {s : Stage} (h : n.calls = m.calls ++ [⟨a, s⟩]) :
    n.taken = m.taken ++ s.taken?.toList := by
  unfold taken
  rw [h, List.filterMap_append]
  cases hs : s.taken? <;> simp [hs]

theorem taken_of_append_none {a : Actor} {s : Stage} (h : n.calls = m.calls ++ [⟨a, s⟩])
    (hs : s.taken? = none) : n.taken = m.taken := by
  rw [taken_of_append h, hs]
  exact List.append_nil _

theorem taken_of_set {c : Nat} {a : Actor} {s s' : Stage} (hc : m.calls[c]? = some ⟨a, s⟩)
    (h : n.calls = m.calls.set c ⟨a, s'⟩) :
    (s.taken?.toList ++ n.taken).Perm (s'.taken?.toList ++ m.taken) := by
  unfold taken
  rw [h]
  exact filterMap_set_perm hc ⟨a, s'⟩ fun k => k.stage.taken?

theorem taken_of_set_same {c : Nat} {a : Actor} {s s' : Stage} (hc : m.calls[c]? = some ⟨a, s⟩)
    (h : n.calls = m.calls.set c ⟨a, s'⟩) (hs : s.taken? = s'.taken?) : n.taken.Perm m.taken := by
  unfold taken
  rw [h]
  exact filterMap_set_perm_of_eq hc hs

theorem step_taken (h : Step m x n) :
    n.taken.Perm m.taken ∧ n.history.discarded = m.history.discarded ∨
      ∃ mode, n.taken.Perm ((m.shared.discarded mode).length :: m.taken) ∧
        n.history.discarded = m.history.discarded ++ m.shared.discarded mode := by
  cases h with
  | lastExit => exact .inl ⟨by simp [taken, List.filterMap_map], rfl⟩
  | accept | refuse | await => exact .inl ⟨.of_eq (taken_of_append_none rfl rfl), rfl⟩
  | @release a _ =>
    refine .inl ⟨.of_eq (taken_of_append_none rfl ?_), rfl⟩
    cases m.shared.stopped <;> rfl
  | @ask a q _ =>
    refine .inl ⟨.of_eq (taken_of_append_none rfl ?_), rfl⟩
    cases q <;> rfl
  | @requestStop a mode _ =>
    refine .inr ⟨mode, ?_, rfl⟩
    have hs : (m.requestStop a mode).taken = m.taken ++ [(m.shared.discarded mode).length] := by
      rw [taken_of_append (rfl : (m.requestStop a mode).calls = _)]
      cases mode <;> rfl
    rw [hs]
    exact List.perm_append_singleton _ _
  | @stopReleased c a hc =>
    refine .inr ⟨.graceful, ?_, rfl⟩
    exact taken_of_set hc
      (show _ = m.calls.set c ⟨a, .rousing .graceful 0 m.shared.running⟩ from rfl)
  | nudge hc _ | doze hc _ | stir hc | decide hc _ | cancelTasks hc | rouse hc =>
    exact .inl ⟨taken_of_set_same hc rfl rfl, rfl⟩
  | _ => exact .inl ⟨.refl _, rfl⟩

/-- What the stop requests have taken is what has been thrown away, and one of them at most has
found anything to take. -/
structure Reported (m : Machine τ) : Prop where
  sum : m.taken.sum = m.history.discarded.length
  once : m.taken.countP (0 < ·) ≤ 1

theorem Reported.step (h : Step m x n) (hb : m.ledger.Balanced) (hr : Reported m) :
    Reported n := by
  rcases step_taken h with ⟨hp, hd⟩ | ⟨mode, hp, hd⟩
  · exact ⟨by rw [hp.sum_nat, hd, hr.sum], by rw [hp.countP_eq]; exact hr.once⟩
  · refine ⟨?_, ?_⟩
    · rw [hp.sum_nat, hd, List.sum_cons, hr.sum, List.length_append, Nat.add_comm]
    · rw [hp.countP_eq, List.countP_cons]
      split
      · -- a queue that is not empty has not been thrown away before, so the others took nothing
        rename_i hpos
        have hne : m.shared.queue ≠ [] := by
          rintro he
          cases mode <;> simp [Shared.discarded, he] at hpos
        have hd : m.history.discarded = [] := hb.apart.resolve_right hne
        have hz : m.taken.sum = 0 := by rw [hr.sum, hd, List.length_nil]
        have hc : m.taken.countP (0 < ·) = 0 := by
          rw [List.countP_eq_zero]
          intro number hn
          simp [List.sum_eq_zero_iff_forall_eq_nat.mp hz number hn]
        omega
      · exact hr.once

theorem reported_of_run {workers capacity : Nat} {moves : List (Move τ)}
    (h : (initial workers capacity).run? moves = some m) : Reported m := by
  have hboth : m.ledger.Balanced ∧ Reported m :=
    Reaches.keeps (P := fun o => o.ledger.Balanced ∧ Reported o)
      (fun hs ho => ⟨balanced_step hs ho.1, ho.2.step hs ho.1⟩) ⟨moves, h⟩
      ⟨balanced_initial _ _, rfl, Nat.zero_le _⟩
  exact hboth.2

end Machine

def Move.forces : Move τ → Bool
  | requestStop _ .forced => true
  | _ => false

def Stage.isCancelling : Stage → Bool
  | cancelling _ _ => true
  | _ => false

namespace Machine

variable {m n : Machine τ} {x : Move τ}

theorem noCall_append {q : Stage → Bool} (h : ∀ k ∈ m.calls, q k.stage = false) {a : Actor}
    {s : Stage} (hs : q s = false) : ∀ k ∈ m.calls ++ [⟨a, s⟩], q k.stage = false := by
  rw [List.forall_mem_append]
  exact ⟨h, List.forall_mem_singleton.mpr hs⟩

theorem noCall_set {q : Stage → Bool} (h : ∀ k ∈ m.calls, q k.stage = false) {c : Nat} {a : Actor}
    {s : Stage} (hs : q s = false) : ∀ k ∈ m.calls.set c ⟨a, s⟩, q k.stage = false := by
  intro k hk
  rcases List.mem_or_eq_of_mem_set hk with hm | rfl
  · exact h k hm
  · exact hs

structure Unforced (m : Machine τ) : Prop where
  discarded : m.history.discarded = []
  cancelled : m.cancelled = false
  calls : ∀ k ∈ m.calls, k.stage.isCancelling = false

theorem Unforced.step (h : Step m x n) (hx : x.forces = false) (hu : Unforced m) :
    Unforced n := by
  obtain ⟨hd, hc, hk⟩ := id hu
  cases h with
  | @requestStop a mode _ =>
    cases mode with
    | forced => simp [Move.forces] at hx
    | graceful =>
      exact ⟨by simp [Machine.requestStop, Machine.begin, stopWith, Shared.discarded, hd], hc,
        noCall_append hk rfl⟩
  | cancelTasks hs =>
    have hnot := hk _ (List.mem_of_getElem? hs)
    simp [Stage.isCancelling] at hnot
  | stopReleased _ =>
    exact ⟨by simp [Machine.advance, stopWith, Shared.discarded, hd], hc, noCall_set hk rfl⟩
  | lastExit _ _ =>
    refine ⟨hd, hc, ?_⟩
    rw [List.forall_mem_map]
    intro k hm
    have := hk k hm
    cases hs : k.stage <;> simp_all [Stage.stir, Stage.isCancelling]
  | accept | refuse | await => exact ⟨hd, hc, noCall_append hk rfl⟩
  | release =>
    refine ⟨hd, hc, noCall_append hk ?_⟩
    cases m.shared.stopped <;> rfl
  | @ask a q _ => exact ⟨hd, hc, noCall_append hk (by cases q <;> rfl)⟩
  | nudge | rouse | decide | doze | stir => exact ⟨hd, hc, noCall_set hk rfl⟩
  | _ => exact ⟨hd, hc, hk⟩

theorem unforced_of_run {workers capacity : Nat} {moves : List (Move τ)}
    (h : (initial workers capacity).run? moves = some m)
    (hx : ∀ x ∈ moves, x.forces = false) : Unforced m :=
  run?_keeps (fun x => x.forces = false) (fun hs hx hu => hu.step hs hx) h hx ⟨rfl, rfl, nofun⟩

end Machine

end Quiesce.Pool
