import Quiesce.Pool.Machine

set_option autoImplicit false

namespace Quiesce.Pool.Machine

variable {τ : Type}

inductive Step (m : Machine τ) : Move τ → Machine τ → Prop where
  | countWorker {k : Nat} : m.pendingStart = false → m.unstarted = k + 1 →
      Step m .countWorker
        { m with unstarted := k, pendingStart := true, shared := m.shared.recordStart }
  | startWorker : m.pendingStart = true →
      Step m .startWorker
        { m with pendingStart := false, workers := m.workers ++ [.looking true] }
  | openPool : m.isOpen = false → m.pendingStart = false → m.unstarted = 0 →
      Step m .openPool { m with
        isOpen := true
        notices := m.notices ++ [(.caller 0, .started m.workers.length m.capacity)] }
  | take {w : Nat} {roused : Bool} {t : τ} {rest : List τ} :
      m.workers[w]? = some (.looking roused) → m.shared.queue = t :: rest →
      Step m (.look w) { m with
        shared := { m.shared with queue := rest, running := m.shared.running + 1 }
        workers := m.workers.set w (.busy t)
        history := { m.history with started := m.history.started ++ [t] } }
  | leave {w : Nat} {roused : Bool} :
      m.workers[w]? = some (.looking roused) → m.shared.queue = [] → m.shared.stopped = true →
      Step m (.look w) { m with workers := m.workers.set w .leaving }
  | park {w : Nat} {roused : Bool} :
      m.workers[w]? = some (.looking roused) → m.shared.queue = [] → m.shared.stopped = false →
      Step m (.look w) { m with workers := m.workers.set w .parked }
  | wake {w : Nat} : m.workers[w]? = some .parked →
      Step m (.wake w) { m with workers := m.workers.set w (.looking true) }
  | finish {w : Nat} {t : τ} {how : TaskEnd} : m.workers[w]? = some (.busy t) →
      Step m (.finish w how) { m with
        workers := m.workers.set w (.ended t)
        history := { m.history with ended := m.history.ended ++ [(t, how)] }
        notices := match how with
          | .returned => m.notices
          | .panicked => m.notices ++ [(.worker w, .taskPanicked w)] }
  | recordEnd {w : Nat} {t : τ} : m.workers[w]? = some (.ended t) →
      Step m (.recordEnd w) { m with
        shared := m.shared.recordEnd, workers := m.workers.set w (.looking false) }
  | exit {w : Nat} : m.workers[w]? = some .leaving → m.shared.recordExit.isTerminated = false →
      Step m (.recordExit w) { m with
        shared := m.shared.recordExit, workers := m.workers.set w .gone }
  | lastExit {w : Nat} : m.workers[w]? = some .leaving → m.shared.recordExit.isTerminated = true →
      Step m (.recordExit w) { m with
        shared := m.shared.recordExit, workers := m.workers.set w .gone
        calls := m.calls.map fun c => { c with stage := c.stage.stir }
        notices := m.notices ++ [(.worker w, .terminated)] }
  | accept {a : Actor} {t : τ} : m.isOpen = true → m.shared.stopped = false →
      m.shared.queue.length < m.capacity →
      Step m (.submit a t) { m.begin a .nudging with
        shared := { m.shared with queue := m.shared.queue ++ [t] }
        history := { m.history with accepted := m.history.accepted ++ [t] } }
  | refuse {a : Actor} {t : τ} {why : Refusal} : m.isOpen = true →
      m.shared.submit m.capacity t = .error why →
      Step m (.submit a t) (m.begin a (.answered (.refused why)))
  | nudge {c : Nat} {a : Actor} {woken : List Nat} :
      m.calls[c]? = some ⟨a, .nudging⟩ → m.reaches woken = true →
      Step m (.nudge c woken)
        { m.advance c a (.answered .accepted) with workers := wakeAmong woken m.workers }
  | requestStop {a : Actor} {mode : StopMode} : m.isOpen = true →
      Step m (.requestStop a mode) (m.requestStop a mode)
  | cancelTasks {c : Nat} {a : Actor} {abandoned running : Nat} :
      m.calls[c]? = some ⟨a, .cancelling abandoned running⟩ →
      Step m (.cancelTasks c)
        { m.advance c a (.rousing .forced abandoned running) with cancelled := true }
  | rouse {c : Nat} {a : Actor} {mode : StopMode} {abandoned running : Nat} :
      m.calls[c]? = some ⟨a, .rousing mode abandoned running⟩ →
      Step m (.rouse c) { m.advance c a (.answered (.discarded abandoned)) with
        workers := m.workers.map Phase.wake
        notices := m.notices ++ [(a, .stopRequested mode abandoned running)] }
  | release {a : Actor} : m.isOpen = true → Step m (.release a) (m.release a)
  | stopReleased {c : Nat} {a : Actor} : m.calls[c]? = some ⟨a, .releasing⟩ →
      Step m (.stopReleased c)
        ((m.stopWith .graceful).advance c a (.rousing .graceful 0 m.shared.running))
  | await {a : Actor} {timeout : Duration} {interrupt : Nat} : m.isOpen = true →
      Step m (.await a timeout interrupt) (m.await a timeout interrupt)
  | decide {c : Nat} {a : Actor} {v : Vigil} {r : Except Interrupted Bool} :
      m.calls[c]? = some ⟨a, .watching v⟩ → v.judge (m.sight v) = .answer r →
      Step m (.watch c) (m.advance c a (.answered (.termination r)))
  | doze {c : Nat} {a : Actor} {v : Vigil} {slice : Duration} :
      m.calls[c]? = some ⟨a, .watching v⟩ → v.judge (m.sight v) = .park slice →
      Step m (.watch c) (m.advance c a (.dozing v))
  | stir {c : Nat} {a : Actor} {v : Vigil} : m.calls[c]? = some ⟨a, .dozing v⟩ →
      Step m (.stir c) (m.advance c a (.watching v))
  | ask {a : Actor} {q : Question} : m.isOpen = true → Step m (.ask a q) (m.ask a q)
  | fire {i : Nat} : Step m (.fire i) { m with fired := i :: m.fired }
  | elapse {k : Nat} : Step m (.elapse k) { m with now := m.now + k }

variable {m n : Machine τ} {x : Move τ}

theorem onceOpen_eq_some {next : Machine τ} :
    m.onceOpen next = some n ↔ m.isOpen = true ∧ next = n := by
  unfold onceOpen
  by_cases h : m.isOpen = true <;> simp [h]

theorem step_of_look {w : Nat} (h : m.look w = some n) : Step m (.look w) n := by
  unfold look at h
  split at h
  · rename_i roused hw
    unfold Shared.find at h
    cases hq : m.shared.queue with
    | cons t rest =>
      simp only [hq, Option.some.injEq] at h
      subst h
      exact .take hw hq
    | nil =>
      cases hs : m.shared.stopped with
      | true =>
        simp only [hq, hs, ↓reduceIte, Option.some.injEq] at h
        subst h
        exact .leave hw hq hs
      | false =>
        simp only [hq, hs, Bool.false_eq_true, ↓reduceIte, Option.some.injEq] at h
        subst h
        exact .park hw hq hs
  · exact nomatch h

theorem step_of_recordExit {w : Nat} (h : m.recordExit w = some n) :
    Step m (.recordExit w) n := by
  unfold recordExit at h
  split at h
  · rename_i hw
    dsimp only at h
    split at h
    · rename_i ht
      obtain rfl := Option.some.inj h
      exact .lastExit hw ht
    · rename_i ht
      obtain rfl := Option.some.inj h
      exact .exit hw (Bool.not_eq_true _ ▸ ht)
  · exact nomatch h

theorem step_of_submit {a : Actor} {t : τ} (ho : m.isOpen = true) :
    Step m (.submit a t) (m.submit a t) := by
  unfold submit
  cases hs : m.shared.submit m.capacity t with
  | error why => exact .refuse ho hs
  | ok s =>
    obtain ⟨hr, hl, rfl⟩ := Shared.submit_eq_ok.mp hs
    exact .accept ho hr hl

theorem step_of_watch {c : Nat} (h : m.watch c = some n) : Step m (.watch c) n := by
  unfold watch at h
  split at h
  · rename_i a v hc
    split at h
    · rename_i r hr
      obtain rfl := Option.some.inj h
      exact .decide hc hr
    · rename_i slice hs
      obtain rfl := Option.some.inj h
      exact .doze hc hs
  · exact nomatch h

theorem step_of_construction (h : m.step? x = some n)
    (hx : x = .countWorker ∨ x = .startWorker ∨ x = .openPool) : Step m x n := by
  rcases hx with rfl | rfl | rfl
  · simp only [step?, countWorker] at h
    split at h
    · rename_i k hp hu
      obtain rfl := Option.some.inj h
      exact .countWorker hp hu
    · exact nomatch h
  · simp only [step?, startWorker] at h
    split at h
    · rename_i hp
      obtain rfl := Option.some.inj h
      exact .startWorker hp
    · exact nomatch h
  · simp only [step?, openPool] at h
    split at h
    · exact nomatch h
    · rename_i hn
      obtain rfl := Option.some.inj h
      simp only [Bool.or_eq_true, bne_iff_ne, ne_eq, not_or, Bool.not_eq_true] at hn
      exact .openPool hn.1.1 hn.1.2 (Decidable.not_not.mp hn.2)

theorem step_of_step? (h : m.step? x = some n) : Step m x n := by
  cases x with
  | countWorker => exact step_of_construction h (.inl rfl)
  | startWorker => exact step_of_construction h (.inr (.inl rfl))
  | openPool => exact step_of_construction h (.inr (.inr rfl))
  | look w => exact step_of_look h
  | recordExit w => exact step_of_recordExit h
  | watch c => exact step_of_watch h
  | submit a t =>
    obtain ⟨ho, rfl⟩ := onceOpen_eq_some.mp h
    exact step_of_submit ho
  | requestStop a mode =>
    obtain ⟨ho, rfl⟩ := onceOpen_eq_some.mp h
    exact .requestStop ho
  | release a =>
    obtain ⟨ho, rfl⟩ := onceOpen_eq_some.mp h
    exact .release ho
  | await a timeout interrupt =>
    obtain ⟨ho, rfl⟩ := onceOpen_eq_some.mp h
    exact .await ho
  | ask a q =>
    obtain ⟨ho, rfl⟩ := onceOpen_eq_some.mp h
    exact .ask ho
  | fire i =>
    obtain rfl := Option.some.inj h
    exact .fire
  | elapse k =>
    obtain rfl := Option.some.inj h
    exact .elapse
  | wake w =>
    simp only [step?, Machine.wake] at h
    split at h
    · rename_i hw
      obtain rfl := Option.some.inj h
      exact .wake hw
    · exact nomatch h
  | finish w how =>
    simp only [step?, Machine.finish] at h
    split at h
    · rename_i t hw
      obtain rfl := Option.some.inj h
      exact .finish hw
    · exact nomatch h
  | recordEnd w =>
    simp only [step?, Machine.recordEnd] at h
    split at h
    · rename_i t hw
      obtain rfl := Option.some.inj h
      exact .recordEnd hw
    · exact nomatch h
  | nudge c woken =>
    simp only [step?, Machine.nudge] at h
    split at h
    · rename_i a hc
      split at h
      · rename_i hr
        obtain rfl := Option.some.inj h
        exact .nudge hc hr
      · exact nomatch h
    · exact nomatch h
  | cancelTasks c =>
    simp only [step?, Machine.cancelTasks] at h
    split at h
    · rename_i a abandoned running hc
      obtain rfl := Option.some.inj h
      exact .cancelTasks hc
    · exact nomatch h
  | rouse c =>
    simp only [step?, Machine.rouse] at h
    split at h
    · rename_i a mode abandoned running hc
      obtain rfl := Option.some.inj h
      exact .rouse hc
    · exact nomatch h
  | stopReleased c =>
    simp only [step?, Machine.stopReleased] at h
    split at h
    · rename_i a hc
      obtain rfl := Option.some.inj h
      exact .stopReleased hc
    · exact nomatch h
  | stir c =>
    simp only [step?, Machine.stir] at h
    split at h
    · rename_i a v hc
      obtain rfl := Option.some.inj h
      exact .stir hc
    · exact nomatch h

theorem run?_cons {rest : List (Move τ)} :
    m.run? (x :: rest) = some n ↔ ∃ o, Step m x o ∧ m.step? x = some o ∧ o.run? rest = some n := by
  rw [runs.cons_eq_some]
  constructor
  · rintro ⟨o, ho, hr⟩
    exact ⟨o, step_of_step? ho, ho, hr⟩
  · rintro ⟨o, -, ho, hr⟩
    exact ⟨o, ho, hr⟩

theorem run?_keeps {P : Machine τ → Prop} (allowed : Move τ → Prop)
    (keeps : ∀ {m n x}, Step m x n → allowed x → P m → P n) {moves : List (Move τ)}
    (h : m.run? moves = some n) (ha : ∀ x ∈ moves, allowed x) (hm : P m) : P n :=
  runs.keeps allowed (fun hs => keeps (step_of_step? hs)) h ha hm

theorem Reaches.keeps {P : Machine τ → Prop} (keeps : ∀ {m n x}, Step m x n → P m → P n)
    (h : m.Reaches n) (hm : P m) : P n := by
  obtain ⟨moves, hr⟩ := h
  exact runs.keeps_all (fun hs => keeps (step_of_step? hs)) hr hm

end Quiesce.Pool.Machine
