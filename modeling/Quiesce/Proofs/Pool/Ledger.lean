import Quiesce.Proofs.Pool.Step

set_option autoImplicit false

namespace Quiesce.Pool

variable {τ : Type}

/-- What has become of the tasks, what is queued, and whether more can come. -/
structure Ledger (τ : Type) where
  accepted : List τ
  started : List τ
  discarded : List τ
  queue : List τ
  stopped : Bool

namespace Ledger

inductive Step (l : Ledger τ) : Ledger τ → Prop where
  | accept (t : τ) : l.stopped = false →
      Step l { l with accepted := l.accepted ++ [t], queue := l.queue ++ [t] }
  | start (t : τ) (rest : List τ) : l.queue = t :: rest →
      Step l { l with started := l.started ++ [t], queue := rest }
  | stop : Step l { l with stopped := true }
  | discard : Step l { l with
      stopped := true, discarded := l.discarded ++ l.queue, queue := [] }

structure Balanced (l : Ledger τ) : Prop where
  accepted : l.accepted = l.started ++ l.discarded ++ l.queue
  apart : l.discarded = [] ∨ l.queue = []
  kept : l.stopped = false → l.discarded = []

theorem Balanced.step {l k : Ledger τ} (hl : l.Balanced) (h : l.Step k) : k.Balanced := by
  obtain ⟨acc, apart, kept⟩ := hl
  cases h with
  | accept t hs =>
    have hd := kept hs
    exact ⟨by simp [acc, hd], .inl hd, kept⟩
  | start t rest hq =>
    have hd : l.discarded = [] := apart.resolve_right (by simp [hq])
    exact ⟨by simp [acc, hd, hq], .inl hd, kept⟩
  | stop => exact ⟨acc, apart, nofun⟩
  | discard => exact ⟨by simp [acc], .inr rfl, nofun⟩

theorem Step.stopped {l k : Ledger τ} (h : l.Step k) (hs : l.stopped = true) :
    k.stopped = true ∧ k.accepted = l.accepted := by
  cases h with
  | accept t ho => simp [hs] at ho
  | start => exact ⟨hs, rfl⟩
  | stop => exact ⟨rfl, rfl⟩
  | discard => exact ⟨rfl, rfl⟩

/-- Once a stopped pool has nothing queued, nothing happens to any task any more. -/
theorem Step.idle {l k : Ledger τ} (h : l.Step k) (hs : l.stopped = true) (hq : l.queue = []) :
    k = l := by
  obtain ⟨accepted, started, discarded, queue, stopped⟩ := l
  dsimp only at hs hq
  subst hs hq
  cases h with
  | accept t ho => exact nomatch ho
  | start t rest hq => exact nomatch hq
  | stop => rfl
  | discard => simp

end Ledger

namespace Machine

variable {m n : Machine τ} {x : Move τ}

def ledger (m : Machine τ) : Ledger τ where
  accepted := m.history.accepted
  started := m.history.started
  discarded := m.history.discarded
  queue := m.shared.queue
  stopped := m.shared.stopped

theorem ledger_stopWith (m : Machine τ) (mode : StopMode) :
    m.ledger.Step (m.stopWith mode).ledger := by
  cases mode with
  | graceful =>
    have h : (m.stopWith .graceful).ledger = { m.ledger with stopped := true } := by
      simp [ledger, stopWith, Shared.stop, Shared.discarded]
    exact h ▸ .stop
  | forced => exact .discard

theorem step_ledger (h : Step m x n) : n.ledger = m.ledger ∨ m.ledger.Step n.ledger := by
  cases h with
  | take _ hq => exact .inr (.start _ _ hq)
  | accept _ hs _ => exact .inr (.accept _ hs)
  | requestStop _ => exact .inr (ledger_stopWith m _)
  | stopReleased _ => exact .inr (ledger_stopWith m _)
  | _ => exact .inl rfl

theorem balanced_step (h : Step m x n) (hb : m.ledger.Balanced) : n.ledger.Balanced := by
  rcases step_ledger h with he | hl
  · rwa [he]
  · exact hb.step hl

theorem balanced_initial (workers capacity : Nat) :
    (initial workers capacity : Machine τ).ledger.Balanced :=
  ⟨rfl, .inl rfl, fun _ => rfl⟩

theorem balanced_of_run {workers capacity : Nat} {moves : List (Move τ)}
    (h : (initial workers capacity).run? moves = some m) : m.ledger.Balanced :=
  Reaches.keeps (P := fun o => o.ledger.Balanced) balanced_step ⟨moves, h⟩ (balanced_initial _ _)

def ClosedAt (accepted : List τ) (m : Machine τ) : Prop :=
  m.shared.stopped = true ∧ m.history.accepted = accepted

theorem closedAt_of_reaches (h : m.Reaches n) (hs : m.shared.stopped = true) :
    ClosedAt m.history.accepted n := by
  apply Reaches.keeps (P := ClosedAt m.history.accepted) _ h ⟨hs, rfl⟩
  intro o p y hy ho
  rcases step_ledger hy with he | hl
  · have h₁ := congrArg Ledger.stopped he
    have h₂ := congrArg Ledger.accepted he
    exact ⟨h₁.trans ho.1, h₂.trans ho.2⟩
  · obtain ⟨h₁, h₂⟩ := hl.stopped ho.1
    exact ⟨h₁, h₂.trans ho.2⟩

theorem ledger_of_reaches (h : m.Reaches n) (hs : m.shared.stopped = true)
    (hq : m.shared.queue = []) : n.ledger = m.ledger := by
  apply Reaches.keeps (P := fun o => o.ledger = m.ledger) _ h rfl
  intro o p y hy ho
  rcases step_ledger hy with he | hl
  · exact he.trans ho
  · rw [ho] at hl
    exact hl.idle hs hq

def Emptied (m : Machine τ) : Prop := m.shared.stopped = true ∧ m.shared.queue = []

theorem Emptied.step (h : Step m x n) (he : Emptied m) : Emptied n := by
  have hl : n.ledger = m.ledger := by
    rcases step_ledger h with hl | hl
    · exact hl
    · exact hl.idle he.1 he.2
  exact ⟨(congrArg Ledger.stopped hl).trans he.1, (congrArg Ledger.queue hl).trans he.2⟩

theorem Emptied.ledger_eq (h : Emptied m) (hr : m.Reaches n) : n.ledger = m.ledger :=
  ledger_of_reaches hr h.1 h.2

theorem Emptied.of_reaches (h : Emptied m) (hr : m.Reaches n) : Emptied n :=
  ⟨(congrArg Ledger.stopped (h.ledger_eq hr)).trans h.1,
    (congrArg Ledger.queue (h.ledger_eq hr)).trans h.2⟩

theorem cancelled_step (h : Step m x n) (hc : m.cancelled = true) : n.cancelled = true := by
  cases h with
  | cancelTasks _ => rfl
  | _ => exact hc

theorem cancelled_of_reaches (h : m.Reaches n) (hc : m.cancelled = true) : n.cancelled = true :=
  Reaches.keeps (P := fun o => o.cancelled = true) cancelled_step h hc

theorem fired_of_step (h : Step m x n) {i : Nat} (hi : i ∈ n.fired) :
    i ∈ m.fired ∨ x = .fire i := by
  cases h with
  | fire =>
    rcases List.mem_cons.mp hi with rfl | hm
    · exact .inr rfl
    · exact .inl hm
  | _ => exact .inl hi

theorem fired_of_reaches (h : m.Reaches n) {i : Nat} (hi : i ∈ m.fired) : i ∈ n.fired := by
  apply Reaches.keeps (P := fun o => i ∈ o.fired) _ h hi
  intro o p y hy ho
  cases hy with
  | fire => exact .tail _ ho
  | _ => exact ho

end Machine

end Quiesce.Pool
