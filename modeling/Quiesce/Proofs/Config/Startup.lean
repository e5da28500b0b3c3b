import Mathlib.Control.Monad.Basic
import Quiesce.Config.Load
import Quiesce.Proofs.Pool.Admission

set_option autoImplicit false

namespace Quiesce.Pool

variable {τ : Type}

theorem isThreadName_workerName (thread : String) (w : Nat) :
    isThreadName (workerName thread w) = true ↔ '\x00' ∉ thread.toList := by
  have digits : '\x00' ∉ Nat.toDigits 10 w := by
    intro hc
    exact absurd (Nat.isDigit_of_mem_toDigits (by omega) (by omega) hc) (by decide)
  simp [isThreadName, workerName, digits]

def Move.builds : Move τ → Bool
  | .countWorker => true
  | .startWorker => true
  | .openPool => true
  | _ => false

namespace Machine

variable {m n : Machine τ} {x : Move τ} {pending : Bool} {k : Nat}

/-- A pool under construction with so many workers not counted yet; `pending` says that one more
is counted and not started. -/
structure Building (pending : Bool) (k : Nat) (m : Machine τ) : Prop where
  pending : m.pendingStart = pending
  unstarted : m.unstarted = k
  closed : m.isOpen = false

theorem building_initial (workers capacity : Nat) :
    Building false (max workers 1) (initial workers capacity : Machine τ) :=
  ⟨rfl, rfl, rfl⟩

theorem Building.count (hm : Building false (k + 1) m) :
    ∃ n, m.step? .countWorker = some n ∧ Building true k n ∧
      n.workers.length = m.workers.length := by
  refine ⟨{ m with unstarted := k, pendingStart := true, shared := m.shared.recordStart }, ?_,
    ⟨rfl, rfl, hm.closed⟩, rfl⟩
  simp only [step?, countWorker, hm.pending, hm.unstarted]

theorem Building.start (hm : Building true k m) :
    ∃ n, m.step? .startWorker = some n ∧ Building false k n ∧
      n.workers.length = m.workers.length + 1 := by
  refine ⟨{ m with pendingStart := false, workers := m.workers ++ [.looking true] }, ?_,
    ⟨rfl, hm.unstarted, hm.closed⟩, List.length_append⟩
  simp only [step?, startWorker, hm.pending, ↓reduceIte]

theorem Building.finish (hm : Building false 0 m) :
    ∃ n, m.step? .openPool = some n ∧ n.isOpen = true := by
  refine ⟨{ m with
    isOpen := true
    notices := m.notices ++ [(.caller 0, .started m.workers.length m.capacity)] }, ?_, rfl⟩
  simp [step?, openPool, hm.pending, hm.unstarted, hm.closed]

structure SameSite (m n : Machine τ) : Prop where
  pending : n.pendingStart = m.pendingStart
  unstarted : n.unstarted = m.unstarted
  isOpen : n.isOpen = m.isOpen
  workers : n.workers.length = m.workers.length

theorem SameSite.refl (m : Machine τ) : SameSite m m := ⟨rfl, rfl, rfl, rfl⟩

theorem SameSite.trans {o : Machine τ} (h : SameSite m n) (k : SameSite n o) : SameSite m o :=
  ⟨k.pending.trans h.pending, k.unstarted.trans h.unstarted, k.isOpen.trans h.isOpen,
    k.workers.trans h.workers⟩

theorem SameSite.step (h : Step m x n) (hx : x.builds = false) : SameSite m n := by
  cases h with
  | countWorker | startWorker | openPool => exact absurd hx (by simp [Move.builds])
  | nudge | rouse => exact ⟨rfl, rfl, rfl, by simp [wakeAmong]⟩
  | take | leave | park | wake | finish | recordEnd | exit | lastExit =>
    exact ⟨rfl, rfl, rfl, by simp⟩
  | _ => exact ⟨rfl, rfl, rfl, rfl⟩

theorem SameSite.building (h : SameSite m n) (hm : Building pending k m) : Building pending k n :=
  ⟨h.pending.trans hm.pending, h.unstarted.trans hm.unstarted, h.isOpen.trans hm.closed⟩

/-- The pool goes from one state to the other while the thread that builds it stands still. -/
def ByOthers (m n : Machine τ) : Prop :=
  ∃ moves : List (Move τ), (∀ x ∈ moves, x.builds = false) ∧ m.run? moves = some n

theorem ByOthers.reaches (h : ByOthers m n) : m.Reaches n := by
  obtain ⟨moves, -, hr⟩ := h
  exact ⟨moves, hr⟩

theorem ByOthers.sameSite (h : ByOthers m n) : SameSite m n := by
  obtain ⟨moves, hm, hr⟩ := h
  exact run?_keeps (P := SameSite m) (fun x => x.builds = false)
    (fun hs hx hm => hm.trans (.step hs hx)) hr hm (.refl m)

theorem byOthers_step (m : Machine τ) (hx : x.builds = false) :
    ByOthers m ((m.step? x).getD m) := by
  cases hs : m.step? x with
  | none => exact ⟨[], by simp, rfl⟩
  | some n => exact ⟨[x], by simpa using hx, by simp [run?, hs]⟩

end Machine

namespace Settings

open Machine

variable {s : Settings} {refusal : Nat → Option Fault} {others : Nat → Machine τ → Machine τ}
  {m : Machine τ} {w k : Nat} {fault : Fault}

theorem remaining_succ (k : Nat) :
    (remaining (k + 1) : List (Move τ)) = .countWorker :: .startWorker :: remaining k := by
  simp [remaining, List.replicate_succ]

theorem build_startWorker (hn : '\x00' ∉ s.threadName.toList) (m : Machine τ) :
    s.build refusal m .startWorker =
      match refusal m.workers.length with
      | some fault => .error (.failed (.spawn (workerName s.threadName m.workers.length) fault))
      | none => .ok ((m.step? .startWorker).getD m) :=
  if_pos ((isThreadName_workerName _ _).mpr hn)

section Interleaved

variable (ho : ∀ i m, ByOthers m (others i m))
include ho

theorem buildAll_count (hm : Building false (k + 1) m) :
    ∃ n, Building true k n ∧ n.workers.length = m.workers.length ∧ m.Reaches n ∧
      s.buildAll refusal others m (remaining (k + 1)) =
        s.buildAll refusal others n (.startWorker :: remaining k) := by
  obtain ⟨n, hn, hb, hl⟩ := hm.count
  have hs := (ho (Move.startWorker :: remaining k : List (Move τ)).length n).sameSite
  refine ⟨_, hs.building hb, hs.workers.trans hl,
    ((Reaches.refl m).step hn).trans (ho _ n).reaches, ?_⟩
  rw [remaining_succ, buildAll]
  simp only [build, hn, Option.getD_some]
  rfl

theorem buildAll_round (hn : '\x00' ∉ s.threadName.toList) (hm : Building false (k + 1) m)
    (hr : refusal m.workers.length = none) :
    ∃ n, Building false k n ∧ n.workers.length = m.workers.length + 1 ∧ m.Reaches n ∧
      s.buildAll refusal others m (remaining (k + 1)) =
        s.buildAll refusal others n (remaining k) := by
  obtain ⟨c, hc, hl, hmc, hall⟩ := buildAll_count ho hm
  obtain ⟨n, hcn, hb, hw⟩ := hc.start
  have hs := (ho (remaining k : List (Move τ)).length n).sameSite
  refine ⟨_, hs.building hb, by rw [hs.workers, hw, hl],
    (hmc.step hcn).trans (ho _ n).reaches, ?_⟩
  rw [hall, buildAll, build_startWorker hn, hl, hr, hcn]
  rfl

theorem buildAll_refused (hn : '\x00' ∉ s.threadName.toList) (hm : Building false (k + 1) m)
    (hr : refusal m.workers.length = some fault) :
    s.buildAll refusal others m (remaining (k + 1)) =
      .error (.failed (.spawn (workerName s.threadName m.workers.length) fault)) := by
  obtain ⟨c, -, hl, -, hall⟩ := buildAll_count ho hm
  rw [hall, buildAll, build_startWorker hn, hl, hr]
  rfl

theorem buildAll_unnameable (hn : '\x00' ∈ s.threadName.toList)
    (hm : Building false (k + 1) m) :
    s.buildAll refusal others m (remaining (k + 1)) = .error .panicked := by
  obtain ⟨c, -, -, -, hall⟩ := buildAll_count ho hm
  have hname : isThreadName (workerName s.threadName c.workers.length) = false := by
    rw [← Bool.not_eq_true, isThreadName_workerName]
    exact not_not_intro hn
  rw [hall, buildAll]
  simp only [build, hname, Bool.false_eq_true, ↓reduceIte]
  rfl

theorem buildAll_failed (hn : '\x00' ∉ s.threadName.toList) (hm : Building false k m)
    (hw : m.workers.length ≤ w) (hk : w < m.workers.length + k)
    (before : ∀ v, m.workers.length ≤ v → v < w → refusal v = none)
    (hr : refusal w = some fault) :
    s.buildAll refusal others m (remaining k) =
      .error (.failed (.spawn (workerName s.threadName w) fault)) := by
  induction k generalizing m with
  | zero => omega
  | succ k ih =>
    -- The worker refused is the next one, or the next one starts and fewer are left.
    by_cases hfirst : w = m.workers.length
    · subst hfirst
      exact buildAll_refused ho hn hm hr
    · obtain ⟨n, hb, hl, -, hall⟩ :=
        buildAll_round ho hn hm (before _ (Nat.le_refl _) (by omega))
      rw [hall]
      exact ih hb (by omega) (by omega) (fun v hv => before v (by omega))

theorem buildAll_opened (hn : '\x00' ∉ s.threadName.toList) (hm : Building false k m)
    (hr : ∀ v, m.workers.length ≤ v → v < m.workers.length + k → refusal v = none) :
    ∃ n, s.buildAll refusal others m (remaining k) = .ok n ∧ m.Reaches n ∧ n.isOpen = true := by
  induction k generalizing m with
  | zero =>
    obtain ⟨n, hs, hopen⟩ := hm.finish
    refine ⟨others 0 n, ?_, ((Reaches.refl m).step hs).trans (ho 0 n).reaches, ?_⟩
    · change s.buildAll refusal others m [.openPool] = _
      rw [buildAll]
      simp only [build, hs, Option.getD_some]
      rfl
    · rw [(ho 0 n).sameSite.isOpen, hopen]
  | succ k ih =>
    obtain ⟨c, hb, hl, hmc, hall⟩ := buildAll_round ho hn hm (hr _ (Nat.le_refl _) (by omega))
    obtain ⟨n, hok, hcn, hopen⟩ := ih hb (fun v hv hk => hr v (by omega) (by omega))
    exact ⟨n, hall.trans hok, hmc.trans hcn, hopen⟩

end Interleaved

end Settings

namespace Machine

theorem isOpen_step {m n : Machine τ} {x : Move τ} (h : Step m x n) (ho : m.isOpen = true) :
    n.isOpen = true := by
  cases h with
  | openPool => rfl
  | _ => exact ho

theorem sizes_of_reaches {workers capacity : Nat} {m : Machine τ}
    (h : (initial workers capacity).Reaches m) (ho : m.isOpen = true) :
    m.workers.length = max workers 1 ∧ m.capacity = max capacity 1 := by
  obtain ⟨moves, hr⟩ := h
  have hc := crewed_of_run hr
  obtain ⟨hp, hu⟩ := hc.built ho
  have hsize := hc.size
  rw [hp, hu, Bool.toNat_false] at hsize
  exact ⟨hsize, (roomy_of_run hr).1⟩

end Machine

end Quiesce.Pool

namespace Quiesce.Config

open Pool Pool.Machine

theorem violation?_of_ofDocument {path : Option String} {d : Toml.Document} {c : Config}
    (h : ofDocument path d = .ok c) : violation? c.pool = none := by
  cases hd : Stated.ofDocument d with
  | error fault =>
    rw [ofDocument_of_error hd] at h
    exact nomatch h
  | ok stated =>
    rw [ofDocument_of_ok hd] at h
    cases hs : ofStated stated with
    | error v => rw [hs] at h; exact absurd h (by simp [Except.mapError])
    | ok checked =>
      rw [hs] at h
      obtain rfl := Except.ok.inj h
      exact violation?_of_ofStated hs

theorem violation?_of_ofText {text : String} {c : Config} (h : ofText text = .ok c) :
    violation? c.pool = none := by
  cases hd : Toml.Document.read? text with
  | none =>
    rw [ofText_of_unread hd] at h
    exact absurd h (by simp)
  | some d =>
    rw [ofText_of_read hd] at h
    exact violation?_of_ofDocument h

section Start

variable {τ : Type} {others : Nat → Machine τ → Machine τ}

/-- What comes of a start with a configuration that has been accepted, whatever the system does
and however the workers that have started go on: a panic exactly under a name that holds U+0000,
and otherwise the pool asked for, unless the system refuses a thread. -/
theorem accepted_starts {text : String} {c : Config} (h : ofText text = .ok c)
    (ho : ∀ i m, ByOthers m (others i m)) (refusal : Nat → Option Quiesce.Fault) :
    ('\x00' ∈ c.pool.threadName.toList →
      c.pool.start refusal others = .error .panicked) ∧
    ('\x00' ∉ c.pool.threadName.toList →
      (∀ w fault, w < c.pool.workers → (∀ v < w, refusal v = none) → refusal w = some fault →
        c.pool.start refusal others =
          .error (.failed (.spawn (workerName c.pool.threadName w) fault))) ∧
      ((∀ w < c.pool.workers, refusal w = none) →
        ∃ m, c.pool.start refusal others = .ok m ∧ m.isOpen = true ∧
          ∀ n, m.Reaches n →
            n.workers.length = c.pool.workers ∧ n.capacity = c.pool.queueCapacity)) := by
  obtain ⟨hw, hq, -⟩ := violation?_eq_none_iff.mp (violation?_of_ofText h)
  have hworkers : max c.pool.workers 1 = c.pool.workers := Nat.max_eq_left hw
  have hcapacity : max c.pool.queueCapacity 1 = c.pool.queueCapacity := Nat.max_eq_left hq
  have hm := building_initial (τ := τ) c.pool.workers c.pool.queueCapacity
  rw [hworkers] at hm
  rw [Settings.start, hworkers]
  refine ⟨fun hn => ?_, fun hn => ⟨fun w fault hlt before hr => ?_, fun hr => ?_⟩⟩
  · obtain ⟨k, hk⟩ := Nat.exists_eq_add_of_lt hw
    rw [hk, Nat.zero_add] at hm ⊢
    exact Settings.buildAll_unnameable ho hn hm
  · exact Settings.buildAll_failed ho hn hm (Nat.zero_le _) (by simpa [initial] using hlt)
      (fun v _ => before v) hr
  · obtain ⟨m, hok, hreach, hopen⟩ :=
      Settings.buildAll_opened ho hn hm (fun v _ hv => hr v (by simpa [initial] using hv))
    refine ⟨m, hok, hopen, fun n hn => ?_⟩
    have hsizes := sizes_of_reaches (hreach.trans hn) (hn.keeps isOpen_step hopen)
    rwa [hworkers, hcapacity] at hsizes

end Start

def crewText : String := "[pool]\nthread_name = \"crew\""

def nulText : String := "[pool]\nthread_name = \"\\u0000\""

theorem ofText_crewText : ofText crewText = .ok ⟨.default, ⟨4, 64, "crew"⟩⟩ := by decide +kernel

theorem ofText_nulText : ofText nulText = .ok ⟨.default, ⟨4, 64, "\x00"⟩⟩ := by decide +kernel

theorem crew_starts :
    (∃ m : Machine Nat,
      Settings.start ⟨4, 64, "crew"⟩ (fun _ => none) (fun _ m => (m.step? (.look 0)).getD m) =
        .ok m ∧ m.workers.length = 4 ∧ m.capacity = 64) ∧
    Settings.start ⟨4, 64, "crew"⟩ (fun w => if w = 2 then some ⟨"full", []⟩ else none)
        (fun _ (m : Machine Nat) => (m.step? (.look 0)).getD m) =
      .error (.failed (.spawn "crew-2" ⟨"full", []⟩)) ∧
    Settings.start ⟨4, 64, "\x00"⟩ (fun _ => none)
      (fun _ (m : Machine Nat) => (m.step? (.look 0)).getD m) = .error .panicked := by
  have ho (_ : Nat) (m : Machine Nat) : ByOthers m ((m.step? (.look 0)).getD m) :=
    byOthers_step m rfl
  have hcrew : '\x00' ∉ "crew".toList := by decide
  refine ⟨?_, ?_, ?_⟩
  · obtain ⟨-, hnamed⟩ := accepted_starts ofText_crewText ho (fun _ => none)
    obtain ⟨m, hm, -, hsizes⟩ := (hnamed hcrew).2 (fun _ _ => rfl)
    exact ⟨m, hm, hsizes m (.refl m)⟩
  · obtain ⟨-, hnamed⟩ :=
      accepted_starts ofText_crewText ho (fun w => if w = 2 then some ⟨"full", []⟩ else none)
    exact (hnamed hcrew).1 2 ⟨"full", []⟩ (by decide) (by decide) rfl
  · exact (accepted_starts ofText_nulText ho (fun _ => none)).1 (by decide)

/-- An accepted configuration may be one that no pool can be started with. -/
theorem accepted_unstartable :
    ¬ ∀ (text : String) (c : Config), ofText text = .ok c →
      c.pool.start (fun _ => none) (fun _ (m : Machine Nat) => m) ≠ .error .panicked :=
  fun h => h nulText _ ofText_nulText rfl

end Quiesce.Config
