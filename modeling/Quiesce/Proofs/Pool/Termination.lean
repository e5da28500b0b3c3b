import Quiesce.Proofs.Pool.Answers

set_option autoImplicit false

namespace Quiesce.Pool

variable {τ : Type}

theorem Vigil.judge_of_terminated (v : Vigil) {s : Sight} (h : s.terminated = true) :
    v.judge s = .answer (.ok true) := by
  simp [judge, h]

namespace Stage

inductive Expects : Stage → Prop where
  | watching (v : Vigil) : Expects (.watching v)
  | dozing (v : Vigil) : Expects (.dozing v)
  | seen : Expects (.answered (.termination (.ok true)))

theorem Expects.next {m n : Machine τ} {s s' : Stage} (h : s.Expects)
    (ht : m.shared.isTerminated = true) (hn : s.Next m n s') : s'.Expects := by
  cases hn with
  | same => exact h
  | dozed v => exact .dozing v
  | stirred v => exact .watching v
  | decided v r hj =>
    obtain rfl := Verdict.answer.inj ((v.judge_of_terminated ht).symm.trans hj)
    exact .seen
  | _ => cases h

end Stage

namespace Machine

variable {m n : Machine τ} {x : Move τ} {c size : Nat}

theorem watch_answers {actor : Actor} {v : Vigil} (hk : m.calls[c]? = some ⟨actor, .watching v⟩)
    (ht : m.shared.isTerminated = true) :
    ∃ n, m.step? (.watch c) = some n ∧ n.answer? c = some (.termination (.ok true)) := by
  have hj : v.judge (m.sight v) = .answer (.ok true) := v.judge_of_terminated ht
  refine ⟨m.advance c actor (.answered (.termination (.ok true))), ?_, answer?_advance hk _ _⟩
  simp only [step?, watch, hk, hj]

theorem watch_own {actor : Actor} {v : Vigil} (hk : m.calls[c]? = some ⟨actor, .watching v⟩)
    (ht : m.shared.isTerminated = true) :
    m.CanReturn c (.termination (.ok true)) := by
  obtain ⟨n, hn, ha⟩ := watch_answers hk ht
  exact .prepend (.answered ha) rfl hn

theorem stir_own {actor : Actor} {v : Vigil} (hk : m.calls[c]? = some ⟨actor, .dozing v⟩)
    (ht : m.shared.isTerminated = true) : m.CanReturn c (.termination (.ok true)) := by
  have hs : m.step? (.stir c) = some (m.advance c actor (.watching v)) := by
    simp only [step?, stir, hk]
  have hr : (m.advance c actor (.watching v)).CanReturn c (.termination (.ok true)) :=
    watch_own (advance_get hk actor (.watching v)) ht
  exact hr.prepend rfl hs

structure Expected (size c : Nat) (m : Machine τ) : Prop where
  crewed : Crewed size m
  terminated : m.shared.isTerminated = true
  call : ∃ k, m.calls[c]? = some k ∧ k.stage.Expects

theorem Expected.step (h : Step m x n) (he : Expected size c m) : Expected size c n := by
  obtain ⟨hc, ht, k, hk, hs⟩ := he
  obtain ⟨k', hk', -, hn⟩ := step_call h hk
  exact ⟨hc.step h, hc.terminated_step h ht, k', hk', hs.next ht hn⟩

theorem Expected.canReturn (he : Expected size c m) :
    m.CanReturn c (.termination (.ok true)) := by
  obtain ⟨-, ht, ⟨actor, s⟩, hk, hs⟩ := he
  cases hs with
  | watching v => exact watch_own hk ht
  | dozing v => exact stir_own hk ht
  | seen => exact .answered (answer?_eq hk)

theorem Expected.returns (he : Expected size c m) : m.Returns c (.termination (.ok true)) :=
  .intro Expected.step Expected.canReturn he

/-- A stopped pool of this many workers that have all gone, and that gives the same answers to
everybody: to those who call it now, and to those who have been waiting. -/
structure Spent (size : Nat) (m : Machine τ) : Prop where
  terminated : m.shared.isTerminated = true
  stopped : m.shared.stopped = true
  queue : m.shared.queue = []
  running : m.shared.running = 0
  workers : m.workers = List.replicate size .gone
  submits : ∀ (a : Actor) (t : τ), m.Replies (.submit a t) (.refused .stopped)
  stops : ∀ (a : Actor) (mode : StopMode), m.Replies (.requestStop a mode) (.discarded 0)
  awaits : ∀ (a : Actor) (timeout : Duration) (interrupt : Nat),
    m.Replies (.await a timeout interrupt) (.termination (.ok true))
  waits : ∀ (c : Nat) (a : Actor) (v : Vigil),
    m.calls[c]? = some ⟨a, .watching v⟩ ∨ m.calls[c]? = some ⟨a, .dozing v⟩ →
      m.Returns c (.termination (.ok true))
  asks : ∀ (a : Actor), m.Replies (.ask a .isStopped) (.flag true) ∧
    m.Replies (.ask a .isTerminated) (.flag true)

theorem Crewed.running_of_terminated (hi : Crewed size m) (ht : m.shared.isTerminated = true) :
    m.shared.running = 0 := by
  rw [hi.running, List.countP_eq_zero]
  intro p hp
  rw [hi.all_gone ht p hp]
  exact Bool.false_ne_true

theorem Crewed.workers_of_terminated (hi : Crewed size m) (ht : m.shared.isTerminated = true) :
    m.workers = List.replicate size .gone := by
  obtain ⟨hp, hu⟩ := hi.built (hi.begun (isTerminated_iff.mp ht).1)
  have hs := hi.size
  rw [hp, hu, Bool.toNat_false] at hs
  exact List.eq_replicate_iff.mpr ⟨hs, hi.all_gone ht⟩

theorem replies_await (hi : Crewed size m) (ht : m.shared.isTerminated = true) (a : Actor)
    (timeout : Duration) (interrupt : Nat) :
    m.Replies (.await a timeout interrupt) (.termination (.ok true)) := by
  have hs : m.step? (.await a timeout interrupt) = some (m.await a timeout interrupt) :=
    onceOpen_eq_some.mpr ⟨hi.begun (isTerminated_iff.mp ht).1, rfl⟩
  have hstep := step_of_step? hs
  have he : Expected size m.calls.length (m.await a timeout interrupt) :=
    ⟨hi.step hstep, ht, _, List.getElem?_concat_length, .watching _⟩
  exact ⟨_, hs, he.returns⟩

theorem Crewed.spent (hi : Crewed size m) (hpos : 0 < size)
    (ht : m.shared.isTerminated = true) : Spent size m where
  terminated := ht
  stopped := (isTerminated_iff.mp ht).1
  queue := hi.queue_of_terminated hpos ht
  running := hi.running_of_terminated ht
  workers := hi.workers_of_terminated ht
  submits a t := by
    have hs := (isTerminated_iff.mp ht).1
    exact replies_refused (hi.begun hs) (by simp [Shared.submit, hs]) a
  stops a mode := by
    have hr := replies_requestStop (hi.begun (isTerminated_iff.mp ht).1) a mode
    have hd : m.shared.discarded mode = [] := by
      cases mode with
      | graceful => rfl
      | forced => exact hi.queue_of_terminated hpos ht
    rwa [hd] at hr
  awaits := replies_await hi ht
  waits c a v hk := by
    rcases hk with hk | hk
    · exact Expected.returns ⟨hi, ht, _, hk, .watching v⟩
    · exact Expected.returns ⟨hi, ht, _, hk, .dozing v⟩
  asks a := by
    have hs := (isTerminated_iff.mp ht).1
    have h₁ := replies_ask (hi.begun hs) a .isStopped
    have h₂ := replies_ask (hi.begun hs) a .isTerminated
    rw [reply, hs] at h₁
    rw [reply, ht] at h₂
    exact ⟨h₁, h₂⟩

/-- A pool that has terminated has been worked off and stays as it is, whatever is done with it
afterwards; no worker is on its way out or gone while a task is queued; and termination is not to
be seen before the pool can be called. -/
theorem terminated_for_good {workers capacity : Nat}
    (h : (initial workers capacity).Reaches m) :
    (m.shared.isTerminated = true → ∀ n, m.Reaches n →
      Spent (max workers 1) n ∧ n.history.started = m.history.started) ∧
    (∀ p ∈ m.workers, p.hasLeft = true → m.shared.queue = []) ∧
    (m.isOpen = false → m.shared.isTerminated = false) := by
  obtain ⟨moves, hrun⟩ := h
  have hi := crewed_of_run hrun
  have hpos : 0 < max workers 1 := by omega
  refine ⟨?_, ?_, ?_⟩
  · intro ht n hr
    have hin : Crewed (max workers 1) n := Reaches.keeps Crewed.step hr hi
    have hl := ledger_of_reaches hr (isTerminated_iff.mp ht).1 (hi.queue_of_terminated hpos ht)
    exact ⟨hin.spent hpos (hi.terminated_of_reaches hr ht), congrArg Ledger.started hl⟩
  · intro p hp hleft
    exact (hi.left (List.countP_pos_iff.mpr ⟨p, hp, hleft⟩)).2
  · intro hclosed
    refine Bool.eq_false_iff.mpr fun ht => ?_
    have ho := hi.begun (isTerminated_iff.mp ht).1
    simp [ho] at hclosed

def departure : List (Move Nat) :=
  [.countWorker, .startWorker, .countWorker, .startWorker, .openPool, .submit (.caller 0) 10,
    .look 0, .requestStop (.caller 0) .graceful, .await (.caller 1) ⟨0⟩ 0, .finish 0 .panicked,
    .recordEnd 0, .look 0, .recordExit 0, .look 1]

def departing : Machine Nat := ((initial 2 0).run? departure).getD (initial 2 0)

def departed : Machine Nat := (departing.run? [.recordExit 1]).getD departing

theorem reaches_departing : (initial 2 0).Reaches departing := ⟨departure, rfl⟩

theorem reaches_departed : (initial 2 0).Reaches departed :=
  reaches_departing.trans ⟨[.recordExit 1], rfl⟩

theorem departed_for_good :
    (departing.shared.isTerminated = false ∧ departing.shared.queue = []) ∧
    (initial 2 0 : Machine Nat).shared.isTerminated = false ∧
    departed.shared.isTerminated = true ∧
    ∀ n, departed.Reaches n → Spent 2 n ∧ n.history.started = [10] := by
  have hleft : Phase.leaving ∈ departing.workers := .tail _ (.head _)
  have hq := (terminated_for_good reaches_departing).2.1 .leaving hleft rfl
  have hnew := (terminated_for_good (.refl (initial 2 0 : Machine Nat))).2.2 rfl
  exact ⟨⟨rfl, hq⟩, hnew, rfl, (terminated_for_good reaches_departed).1 rfl⟩

end Machine

end Quiesce.Pool
