import Quiesce.Proofs.Pool.Answers

set_option autoImplicit false

namespace Quiesce.Pool

variable {τ : Type}

def Move.stops : Move τ → Bool
  | requestStop _ _ => true
  | stopReleased _ => true
  | _ => false

namespace Shared

variable {s : Shared τ} {capacity : Nat} {t : τ}

theorem submit_eq_stopped : s.submit capacity t = .error .stopped ↔ s.stopped = true := by
  unfold submit
  by_cases hs : s.stopped = true
  · simp [hs]
  · by_cases hfull : capacity ≤ s.queue.length <;> simp [hs, hfull]

theorem submit_eq_queueFull {k : Nat} : s.submit capacity t = .error (.queueFull k) ↔
    s.stopped = false ∧ capacity ≤ s.queue.length ∧ k = capacity := by
  unfold submit
  by_cases hs : s.stopped = true
  · simp [hs]
  · by_cases hfull : capacity ≤ s.queue.length <;> simp [hs, hfull, eq_comm]

end Shared

namespace Phase

theorem isHere_of_holdsTask {p : Phase τ} (h : p.holdsTask = true) : p.isHere = true := by
  cases p with
  | gone => exact h
  | _ => rfl

end Phase

namespace Machine

variable {m n : Machine τ} {x : Move τ} {size : Nat}

theorem capacity_step (h : Step m x n) : n.capacity = m.capacity := by
  cases h <;> rfl

def Roomy (m : Machine τ) : Prop := m.shared.queue.length ≤ m.capacity

theorem Roomy.step (h : Step m x n) (hr : Roomy m) : Roomy n := by
  unfold Roomy at *
  rw [capacity_step h]
  cases h with
  | take _ hq =>
    rw [hq, List.length_cons] at hr
    exact Nat.le_of_succ_le hr
  | accept _ _ hl =>
    rw [List.length_append, List.length_singleton]
    exact hl
  | requestStop => exact Nat.le_trans (length_queue_stop_le _ _) hr
  | _ => exact hr

theorem roomy_of_run {workers capacity : Nat} {moves : List (Move τ)}
    (h : (initial workers capacity).run? moves = some m) :
    m.capacity = max capacity 1 ∧ Roomy m :=
  Reaches.keeps (P := fun o => o.capacity = max capacity 1 ∧ Roomy o)
    (fun hs ho => ⟨(capacity_step hs).trans ho.1, ho.2.step hs⟩) ⟨moves, h⟩
    ⟨rfl, Nat.zero_le _⟩

theorem stopped_step (h : Step m x n) :
    n.shared.stopped = (m.shared.stopped || x.stops) := by
  cases h with
  | @requestStop a mode _ =>
    rw [Move.stops, Bool.or_true]
    exact Shared.stopped_stop _ _
  | stopReleased => exact (Bool.or_true _).symm
  | _ => exact (Bool.or_false _).symm

theorem stopped_run {moves : List (Move τ)} (h : m.run? moves = some n) :
    n.shared.stopped = (m.shared.stopped || moves.any Move.stops) := by
  induction moves generalizing m with
  | nil =>
    obtain rfl := Option.some.inj h
    exact (Bool.or_false _).symm
  | cons x rest ih =>
    obtain ⟨o, hs, -, hr⟩ := run?_cons.mp h
    rw [ih hr, stopped_step hs, List.any_cons, Bool.or_assoc]

theorem Crewed.running_le_live (hi : Crewed size m) : m.shared.running ≤ m.shared.live := by
  have hle : m.workers.countP Phase.holdsTask ≤ m.workers.countP Phase.isHere :=
    List.countP_mono_left fun p _ => Phase.isHere_of_holdsTask
  rw [hi.running, hi.live]
  exact Nat.le_trans hle (Nat.le_add_right _ _)

theorem Crewed.live_le (hi : Crewed size m) : m.shared.live ≤ size := by
  have hle : m.workers.countP Phase.isHere ≤ m.workers.length := List.countP_le_length
  have hs := hi.size
  rw [hi.live]
  omega

theorem Crewed.recordEnd (hi : Crewed size m) {w : Nat} (h : m.step? (.recordEnd w) = some n) :
    n.shared.running + 1 = m.shared.running := by
  cases step_of_step? h with
  | recordEnd hw => exact Nat.sub_add_cancel (hi.running_pos hw rfl)

theorem Crewed.recordExit (hi : Crewed size m) {w : Nat}
    (h : m.step? (.recordExit w) = some n) : n.shared.live + 1 = m.shared.live := by
  cases step_of_step? h with
  | exit hw | lastExit hw => exact Nat.sub_add_cancel (hi.live_pos hw rfl)

theorem replies_accepted_iff (ho : m.isOpen = true) {a : Actor} {t : τ} :
    m.Replies (.submit a t) .accepted ↔
      m.shared.stopped = false ∧ m.shared.queue.length < m.capacity := by
  cases hs : m.shared.submit m.capacity t with
  | ok s =>
    obtain ⟨hstop, hroom, -⟩ := Shared.submit_eq_ok.mp hs
    exact iff_of_true (replies_accepted ho hs a) ⟨hstop, hroom⟩
  | error why =>
    refine iff_of_false (fun hr => ?_) fun hr => ?_
    · exact nomatch (replies_refused ho hs a).unique hr
    · have hok := Shared.submit_eq_ok (x := t).mpr ⟨hr.1, hr.2, rfl⟩
      exact nomatch hs.symm.trans hok

theorem replies_refused_iff (ho : m.isOpen = true) {a : Actor} {t : τ} {why : Refusal} :
    m.Replies (.submit a t) (.refused why) ↔ m.shared.submit m.capacity t = .error why := by
  refine ⟨fun hr => ?_, fun hs => replies_refused ho hs a⟩
  cases hs : m.shared.submit m.capacity t with
  | ok s => exact nomatch (replies_accepted ho hs a).unique hr
  | error why' =>
    obtain rfl := Answer.refused.inj ((replies_refused ho hs a).unique hr)
    rfl

/-- A submission that will be refused has changed nothing but that it is among the calls. -/
theorem refused_submit (ho : m.isOpen = true) {a : Actor} {t : τ} {why : Refusal}
    (h : m.step? (.submit a t) = some n) (hr : m.Replies (.submit a t) (.refused why)) :
    n = { m with calls := m.calls ++ [⟨a, .answered (.refused why)⟩] } := by
  obtain ⟨-, rfl⟩ := onceOpen_eq_some.mp h
  rw [submit, (replies_refused_iff ho).mp hr]
  rfl

/-- The counters of a pool that these moves have led to, and what it does with a submission. -/
structure Regulated (workers capacity : Nat) (moves : List (Move τ)) (m : Machine τ) : Prop where
  queue : m.shared.queue.length ≤ max capacity 1
  running : m.shared.running = m.workers.countP Phase.holdsTask
  live : m.shared.live = m.workers.countP Phase.isHere + m.pendingStart.toNat
  running_le : m.shared.running ≤ m.shared.live
  live_le : m.shared.live ≤ max workers 1
  ends : ∀ (w : Nat) (n : Machine τ), m.step? (.recordEnd w) = some n →
    n.shared.running + 1 = m.shared.running
  exits : ∀ (w : Nat) (n : Machine τ), m.step? (.recordExit w) = some n →
    n.shared.live + 1 = m.shared.live
  accepts : m.isOpen = true → ∀ (a : Actor) (t : τ), m.Replies (.submit a t) .accepted ↔
    (∀ x ∈ moves, x.stops = false) ∧ m.shared.queue.length < max capacity 1
  stopped : m.isOpen = true → ∀ (a : Actor) (t : τ),
    m.Replies (.submit a t) (.refused .stopped) ↔ ∃ x ∈ moves, x.stops = true
  full : m.isOpen = true → ∀ (a : Actor) (t : τ) (k : Nat),
    m.Replies (.submit a t) (.refused (.queueFull k)) ↔
      (∀ x ∈ moves, x.stops = false) ∧ max capacity 1 ≤ m.shared.queue.length ∧ k = max capacity 1
  refused : m.isOpen = true → ∀ (a : Actor) (t : τ) (why : Refusal) (n : Machine τ),
    m.step? (.submit a t) = some n → m.Replies (.submit a t) (.refused why) →
      n = { m with calls := m.calls ++ [⟨a, .answered (.refused why)⟩] }

theorem regulated_of_run {workers capacity : Nat} {moves : List (Move τ)}
    (h : (initial workers capacity).run? moves = some m) : Regulated workers capacity moves m := by
  have hi := crewed_of_run h
  obtain ⟨hcap, hroom⟩ := roomy_of_run h
  have hstop : m.shared.stopped = moves.any Move.stops := stopped_run h
  have hnone : m.shared.stopped = false ↔ ∀ x ∈ moves, x.stops = false := by
    rw [hstop, List.any_eq_false]
    simp only [Bool.not_eq_true]
  exact
    { queue := hcap ▸ hroom
      running := hi.running
      live := hi.live
      running_le := hi.running_le_live
      live_le := hi.live_le
      ends := fun _ _ => hi.recordEnd
      exits := fun _ _ => hi.recordExit
      accepts := fun ho a t => by rw [replies_accepted_iff ho, hnone, hcap]
      stopped := fun ho a t => by
        rw [replies_refused_iff ho, Shared.submit_eq_stopped, hstop, List.any_eq_true]
      full := fun ho a t k => by
        rw [replies_refused_iff ho, Shared.submit_eq_queueFull, hnone, hcap]
      refused := fun ho _ _ _ _ => refused_submit ho }

def cramped : List (Move Nat) :=
  [.countWorker, .startWorker, .openPool, .submit (.caller 0) 10, .look 0, .finish 0 .panicked,
    .submit (.caller 0) 20]

def crammed : Machine Nat := ((initial 0 0).run? cramped).getD (initial 0 0)

def crammedStopped : Machine Nat := crammed.requestStop (.caller 1) .graceful

theorem run_cramped : (initial 0 0).run? cramped = some crammed := rfl

theorem run_crampedStopped :
    (initial 0 0).run? (cramped ++ [.requestStop (.caller 1) .graceful]) = some crammedStopped :=
  rfl

theorem crammed_regulated :
    crammed.Replies (.submit (.caller 0) 30) (.refused (.queueFull 1)) ∧
    crammedStopped.shared.queue.length = 1 ∧
    crammedStopped.Replies (.submit (.caller 0) 30) (.refused .stopped) ∧
    ∃ n, crammed.step? (.recordEnd 0) = some n ∧ n.shared.running + 1 = crammed.shared.running := by
  have hm := regulated_of_run run_cramped
  have hn := regulated_of_run run_crampedStopped
  refine ⟨?_, rfl, ?_, ⟨_, rfl, hm.ends 0 _ rfl⟩⟩
  · exact (hm.full rfl (.caller 0) 30 1).mpr ⟨by decide, Nat.le_refl 1, rfl⟩
  · exact (hn.stopped rfl (.caller 0) 30).mpr
      ⟨.requestStop (.caller 1) .graceful, List.mem_concat_self, rfl⟩

end Machine

end Quiesce.Pool
