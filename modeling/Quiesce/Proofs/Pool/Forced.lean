import Quiesce.Proofs.Pool.Stops

set_option autoImplicit false

namespace Quiesce.Pool

variable {τ : Type}

theorem Move.forces_iff {x : Move τ} :
    x.forces = true ↔ ∃ a : Actor, x = .requestStop a .forced := by
  constructor
  · intro hx
    cases x with
    | requestStop a mode =>
      cases mode with
      | graceful => exact absurd hx Bool.false_ne_true
      | forced => exact ⟨a, rfl⟩
    | _ => exact absurd hx Bool.false_ne_true
  · rintro ⟨a, rfl⟩
    rfl

namespace Machine

variable {m n o : Machine τ} {x : Move τ} {a : Actor} {b : Answer} {c : Nat}

theorem emptied_of_forces (h : Step m x n) (hx : x.forces = true) : Emptied n := by
  obtain ⟨a, rfl⟩ := Move.forces_iff.mp hx
  cases h with
  | requestStop _ => exact ⟨rfl, rfl⟩

theorem unforced_or_emptied (h : Step m x n) (hm : Unforced m ∨ Emptied m) :
    Unforced n ∨ Emptied n := by
  rcases hm with hu | he
  · cases hx : x.forces with
    | false => exact .inl (hu.step h hx)
    | true => exact .inr (emptied_of_forces h hx)
  · exact .inr (he.step h)

theorem emptied_of_cancelled {workers capacity : Nat}
    (h : (initial workers capacity).Reaches m) (hc : m.cancelled = true) : Emptied m := by
  have hm : Unforced m ∨ Emptied m :=
    Reaches.keeps unforced_or_emptied h (.inl ⟨rfl, rfl, nofun⟩)
  refine hm.resolve_left fun hu => ?_
  exact Bool.false_ne_true (hu.cancelled.symm.trans hc)

def Cancels (m : Machine τ) (c : Nat) : Prop :=
  m.cancelled = true ∨ ∃ k, m.calls[c]? = some k ∧ k.stage.isCancelling = true

theorem Cancels.step (h : Step m x n) (hm : Cancels m c) : Cancels n c := by
  rcases hm with hc | ⟨⟨actor, s⟩, hk, hs⟩
  · exact .inl (cancelled_step h hc)
  · obtain ⟨k', hk', -, hn⟩ := step_call h hk
    cases s with
    | cancelling abandoned running =>
      generalize hs' : k'.stage = s' at hn
      cases hn with
      | same => exact .inr ⟨k', hk', by rw [hs']; rfl⟩
      | cancelled _ _ hc => exact .inl hc
    | _ => exact absurd hs Bool.false_ne_true

theorem Cancels.cancelled (hm : Cancels m c) (hb : m.answer? c = some b) : m.cancelled = true := by
  refine hm.resolve_right ?_
  rintro ⟨k, hk, hs⟩
  rw [answer?_eq hk] at hb
  rw [Stage.eq_answered hb] at hs
  exact Bool.false_ne_true hs

theorem cancels_requestStop (h : m.step? (.requestStop a .forced) = some n) :
    Cancels n m.calls.length := by
  obtain ⟨-, rfl⟩ := onceOpen_eq_some.mp h
  exact .inr ⟨_, List.getElem?_concat_length, rfl⟩

/-- What forced stops mean for a pool that these moves have led to. -/
structure ForcedForGood (moves : List (Move τ)) (m : Machine τ) : Prop where
  requested : m.cancelled = true → ∃ a, .requestStop a .forced ∈ moves
  emptied : m.cancelled = true → m.shared.stopped = true ∧ m.shared.queue = []
  started : m.cancelled = true → ∀ n, m.Reaches n → n.history.started = m.history.started
  returned : ∀ (a : Actor) (q n : Machine τ) (b : Answer),
    m.step? (.requestStop a .forced) = some q → q.Reaches n →
      n.answer? m.calls.length = some b → ∀ o, n.Reaches o → o.cancelled = true
  /-- Of stops with nothing between them it matters only whether there are any, and a forced one. -/
  stops : ∀ (modes : List StopMode) (n : Machine τ), StoppedBy modes m n →
    n.upTo m.calls.length =
      (m.afterStops (!modes.isEmpty) (modes.any StopMode.isForced)).upTo m.calls.length
  served : m.isOpen = true → ∀ modes : List StopMode, ∃ n, StoppedBy modes m n

theorem forced_for_good {workers capacity : Nat} {moves : List (Move τ)}
    (h : (initial workers capacity).run? moves = some m) : ForcedForGood moves m where
  requested hc := by
    cases hany : moves.any Move.forces with
    | true =>
      obtain ⟨x, hm, hf⟩ := List.any_eq_true.mp hany
      obtain ⟨a, rfl⟩ := Move.forces_iff.mp hf
      exact ⟨a, hm⟩
    | false =>
      have hu : Unforced m := unforced_of_run h (by simpa using hany)
      exact absurd (hu.cancelled.symm.trans hc) Bool.false_ne_true
  emptied hc := emptied_of_cancelled ⟨moves, h⟩ hc
  started hc n hr := by
    have he : Emptied m := emptied_of_cancelled ⟨moves, h⟩ hc
    exact congrArg Ledger.started (he.ledger_eq hr)
  returned a q n b hq hr hb o ho := by
    have hn : Cancels n m.calls.length := Reaches.keeps Cancels.step hr (cancels_requestStop hq)
    exact cancelled_of_reaches ho (hn.cancelled hb)
  stops _ _ hn := hn.upTo_eq
  served ho modes := exists_stoppedBy ho (.caller 0) modes

def engagement : List (Move Nat) :=
  [.countWorker, .startWorker, .openPool, .submit (.caller 0) 10, .look 0,
    .submit (.caller 0) 20]

def engaged : Machine Nat := ((initial 1 1).run? engagement).getD (initial 1 1)

def overlapping : List (Move Nat) :=
  [.requestStop (.caller 1) .forced, .requestStop (.caller 2) .graceful, .rouse 3, .cancelTasks 2,
    .rouse 2]

def seized : Machine Nat := (engaged.run? overlapping).getD engaged

theorem run_engagement : (initial 1 1).run? engagement = some engaged := rfl

theorem run_overlapping : engaged.run? overlapping = some seized := rfl

theorem seized_for_good :
    (engaged.cancelled = false ∧ engaged.shared.queue = [20] ∧ seized.cancelled = true) ∧
    (seized.shared.stopped = true ∧ seized.shared.queue = []) ∧
    (∀ n, seized.Reaches n → n.history.started = [10] ∧ n.cancelled = true) ∧
    seized.upTo 2 = (engaged.afterStops true true).upTo 2 := by
  have hrun : (initial 1 1).run? (engagement ++ overlapping) = some seized := by
    rw [run?_append, run_engagement]
    exact run_overlapping
  have he := forced_for_good run_engagement
  have hs := forced_for_good hrun
  have hstops : StoppedBy [.forced, .graceful] engaged seized := by
    refine ⟨⟨overlapping, run_overlapping, rfl, by decide⟩, fun c hc hlt => ?_⟩
    have hc' : c = 2 ∨ c = 3 := by
      have h₁ : engaged.calls.length = 2 := rfl
      have h₂ : seized.calls.length = 4 := rfl
      omega
    rcases hc' with rfl | rfl <;> exact ⟨_, rfl⟩
  have hreach : (engaged.requestStop (.caller 1) .forced).Reaches seized := ⟨overlapping.tail, rfl⟩
  refine ⟨⟨rfl, rfl, rfl⟩, hs.emptied rfl, fun n hn => ⟨hs.started rfl n hn, ?_⟩,
    he.stops _ _ hstops⟩
  exact he.returned (.caller 1) _ _ _ rfl hreach rfl n hn

end Machine

end Quiesce.Pool
