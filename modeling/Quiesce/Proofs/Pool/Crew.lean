import Mathlib.Data.List.Perm.Basic
import Quiesce.Proofs.Pool.Step

set_option autoImplicit false

/-! Every counter is tied to the positions of the workers, so termination, which looks at one
counter and the stop flag, can be read off it. -/

namespace Quiesce.Pool

section Replaced

variable {α β : Type} {l : List α} {i : Nat} {x : α}

theorem perm_of_set (h : l[i]? = some x) (y : α) : (x :: l.set i y).Perm (y :: l) := by
  obtain ⟨hi, rfl⟩ := List.getElem?_eq_some_iff.mp h
  calc
    (l[i] :: l.set i y).Perm (l[i] :: y :: l.eraseIdx i) :=
      (List.set_perm_cons_eraseIdx hi y).cons _
    List.Perm _ (y :: l[i] :: l.eraseIdx i) := .swap _ _ _
    List.Perm _ (y :: l) := (List.getElem_cons_eraseIdx_perm hi).cons _

theorem countP_set_add (h : l[i]? = some x) (y : α) (p : α → Bool) :
    (l.set i y).countP p + (p x).toNat = l.countP p + (p y).toNat := by
  have hc := (perm_of_set h y).countP_eq p
  simp only [List.countP_cons] at hc
  cases hx : p x <;> cases hy : p y <;> simp_all

theorem filterMap_set_perm (h : l[i]? = some x) (y : α) (f : α → Option β) :
    ((f x).toList ++ (l.set i y).filterMap f).Perm ((f y).toList ++ l.filterMap f) := by
  have hp := (perm_of_set h y).filterMap f
  cases hx : f x <;> cases hy : f y <;> simpa [List.filterMap_cons, hx, hy] using hp

theorem filterMap_set_perm_of_eq (h : l[i]? = some x) {y : α} {f : α → Option β}
    (hf : f x = f y) : ((l.set i y).filterMap f).Perm (l.filterMap f) := by
  have hp := filterMap_set_perm h y f
  rw [hf] at hp
  exact (List.perm_append_left_iff _).mp hp

end Replaced

namespace Phase

variable {τ : Type}

def hasLeft : Phase τ → Bool
  | leaving => true
  | gone => true
  | _ => false

def isHere (p : Phase τ) : Bool := !p.isGone

@[simp] theorem isHere_wake (p : Phase τ) : p.wake.isHere = p.isHere := by cases p <;> rfl

@[simp] theorem holdsTask_wake (p : Phase τ) : p.wake.holdsTask = p.holdsTask := by
  cases p <;> rfl

@[simp] theorem hasLeft_wake (p : Phase τ) : p.wake.hasLeft = p.hasLeft := by cases p <;> rfl

end Phase

namespace Machine

variable {τ β : Type} {m n : Machine τ} {x : Move τ} {size : Nat}

theorem map_wakeAmong (woken : List Nat) (l : List (Phase τ)) (f : Phase τ → β)
    (hf : ∀ p, f p.wake = f p) : (wakeAmong woken l).map f = l.map f := by
  apply List.ext_getElem?
  intro i
  simp only [wakeAmong, List.getElem?_map, List.getElem?_mapIdx, Option.map_map]
  congr 1
  funext p
  by_cases hc : i ∈ woken <;> simp [hf, hc]

theorem countP_wakeAmong (woken : List Nat) (l : List (Phase τ)) (q : Phase τ → Bool)
    (hq : ∀ p, q p.wake = q p) : (wakeAmong woken l).countP q = l.countP q := by
  have h := congrArg (List.countP id) (map_wakeAmong woken l q hq)
  simpa only [List.countP_map, Function.id_comp] using h

theorem countP_map_wake (l : List (Phase τ)) (q : Phase τ → Bool) (hq : ∀ p, q p.wake = q p) :
    (l.map Phase.wake).countP q = l.countP q := by
  rw [List.countP_map]
  exact congrArg (fun r => l.countP r) (funext hq)

/-- The counters, the size of the crew, and when a worker may leave. -/
structure Crewed (size : Nat) (m : Machine τ) : Prop where
  size : m.workers.length + m.pendingStart.toNat + m.unstarted = size
  live : m.shared.live = m.workers.countP Phase.isHere + m.pendingStart.toNat
  running : m.shared.running = m.workers.countP Phase.holdsTask
  built : m.isOpen = true → m.pendingStart = false ∧ m.unstarted = 0
  begun : m.shared.stopped = true → m.isOpen = true
  called : m.calls ≠ [] → m.isOpen = true
  queued : m.shared.queue ≠ [] → m.isOpen = true
  left : 0 < m.workers.countP Phase.hasLeft → m.shared.stopped = true ∧ m.shared.queue = []

theorem crewed_initial (workers capacity : Nat) :
    Crewed (max workers 1) (initial workers capacity : Machine τ) where
  size := by simp [initial]
  live := rfl
  running := rfl
  built := nofun
  begun := nofun
  called := nofun
  queued hq := absurd rfl hq
  left := nofun

theorem Crewed.congr (hi : Crewed size m) (workers : n.workers = m.workers)
    (shared : n.shared = m.shared) (pending : n.pendingStart = m.pendingStart)
    (unstarted : n.unstarted = m.unstarted) (opened : n.isOpen = m.isOpen)
    (called : n.calls ≠ [] → m.isOpen = true) : Crewed size n where
  size := by rw [workers, pending, unstarted]; exact hi.size
  live := by rw [shared, workers, pending]; exact hi.live
  running := by rw [shared, workers]; exact hi.running
  built := by rw [opened, pending, unstarted]; exact hi.built
  begun := by rw [shared, opened]; exact hi.begun
  called := by rw [opened]; exact called
  queued := by rw [shared, opened]; exact hi.queued
  left := by rw [shared, workers]; exact hi.left

theorem Crewed.live_pos (hi : Crewed size m) {w : Nat} {p : Phase τ}
    (hw : m.workers[w]? = some p) (hp : p.isHere = true) : 0 < m.shared.live := by
  have hc : 0 < m.workers.countP Phase.isHere :=
    List.countP_pos_iff.mpr ⟨p, List.mem_of_getElem? hw, hp⟩
  have hl := hi.live
  omega

theorem Crewed.running_pos (hi : Crewed size m) {w : Nat} {p : Phase τ}
    (hw : m.workers[w]? = some p) (hp : p.holdsTask = true) : 0 < m.shared.running := by
  rw [hi.running]
  exact List.countP_pos_iff.mpr ⟨p, List.mem_of_getElem? hw, hp⟩

theorem Crewed.shift (hi : Crewed size m) {w : Nat} {p : Phase τ} (hw : m.workers[w]? = some p)
    (q : Phase τ) (s : Shared τ)
    (live : s.live + p.isHere.toNat = m.shared.live + q.isHere.toNat)
    (running : s.running + p.holdsTask.toNat = m.shared.running + q.holdsTask.toNat)
    (stopped : s.stopped = m.shared.stopped) (queue : m.shared.queue = [] → s.queue = [])
    (left : q.hasLeft = true → m.shared.stopped = true ∧ m.shared.queue = []) :
    Crewed size { m with shared := s, workers := m.workers.set w q } where
  size := by simpa using hi.size
  live := by
    have hc := countP_set_add hw q Phase.isHere
    have hl := hi.live
    dsimp only
    omega
  running := by
    have hc := countP_set_add hw q Phase.holdsTask
    have hr := hi.running
    dsimp only
    omega
  built := hi.built
  begun := by rw [stopped]; exact hi.begun
  called := hi.called
  queued hq := hi.queued (mt queue hq)
  left := by
    intro hpos
    have hm : m.shared.stopped = true ∧ m.shared.queue = [] := by
      cases hq : q.hasLeft with
      | true => exact left hq
      | false =>
        have hc := countP_set_add hw q Phase.hasLeft
        rw [hq, Bool.toNat_false] at hc
        apply hi.left
        dsimp only at hpos
        omega
    exact ⟨stopped.trans hm.1, queue hm.2⟩

theorem Crewed.stop (hi : Crewed size m) (mode : StopMode) (ho : m.isOpen = true) :
    Crewed size (m.stopWith mode) where
  size := hi.size
  live := by cases mode <;> exact hi.live
  running := by cases mode <;> exact hi.running
  built := hi.built
  begun _ := ho
  called := hi.called
  queued _ := ho
  left hpos := by
    have hq := (hi.left hpos).2
    cases mode with
    | graceful => exact ⟨rfl, hq⟩
    | forced => exact ⟨rfl, rfl⟩

theorem Crewed.rearrange (hi : Crewed size m) {l : List (Phase τ)}
    (hl : l.length = m.workers.length)
    (hc : ∀ q : Phase τ → Bool, (∀ p, q p.wake = q p) → l.countP q = m.workers.countP q) :
    Crewed size { m with workers := l } where
  size := by rw [← hi.size, ← hl]
  live := by rw [hi.live, ← hc _ Phase.isHere_wake]
  running := by rw [hi.running, ← hc _ Phase.holdsTask_wake]
  built := hi.built
  begun := hi.begun
  called := hi.called
  queued := hi.queued
  left := by
    dsimp only
    rw [hc _ Phase.hasLeft_wake]
    exact hi.left

theorem Crewed.opened (hi : Crewed size m) {c : Nat} {k : Call} (hc : m.calls[c]? = some k) :
    m.isOpen = true :=
  hi.called (List.ne_nil_of_mem (List.mem_of_getElem? hc))

theorem Crewed.step (h : Step m x n) (hi : Crewed size m) : Crewed size n := by
  cases h with
  | countWorker hp hu =>
    have hn : ¬ m.isOpen = true := fun ho => by have := (hi.built ho).2; omega
    have hs := hi.size
    have hl := hi.live
    rw [hp, Bool.toNat_false] at hs hl
    refine ⟨?_, ?_, hi.running, fun ho => absurd ho hn, hi.begun, hi.called, hi.queued,
      hi.left⟩
    · dsimp only [Bool.toNat_true]
      omega
    · change m.shared.live + 1 = _
      rw [hl]
      rfl
  | startWorker hp =>
    have hn : ¬ m.isOpen = true := fun ho => by simpa [hp] using (hi.built ho).1
    have hs := hi.size
    have hl := hi.live
    rw [hp, Bool.toNat_true] at hs hl
    refine ⟨?_, ?_, ?_, fun ho => absurd ho hn, hi.begun, hi.called, hi.queued, ?_⟩
    · simp only [List.length_append, List.length_singleton, Bool.toNat_false]
      omega
    · simpa [List.countP_append, Phase.isHere, Phase.isGone] using hl
    · simpa [List.countP_append, Phase.holdsTask] using hi.running
    · simpa [List.countP_append, Phase.hasLeft] using hi.left
  | openPool ho hp hu =>
    exact ⟨hi.size, hi.live, hi.running, fun _ => ⟨hp, hu⟩, fun _ => rfl, fun _ => rfl,
      fun _ => rfl, hi.left⟩
  | take hw hq =>
    exact (hi.shift hw (.busy _) { m.shared with queue := _, running := m.shared.running + 1 }
      rfl rfl rfl (by simp [hq]) nofun).congr rfl rfl rfl rfl rfl hi.called
  | leave hw hq hs => exact hi.shift hw .leaving m.shared rfl rfl rfl id fun _ => ⟨hs, hq⟩
  | park hw _ _ => exact hi.shift hw .parked m.shared rfl rfl rfl id nofun
  | wake hw => exact hi.shift hw (.looking true) m.shared rfl rfl rfl id nofun
  | finish hw =>
    exact (hi.shift hw (.ended _) m.shared rfl rfl rfl id nofun).congr rfl rfl rfl rfl rfl hi.called
  | recordEnd hw =>
    exact hi.shift hw (.looking false) m.shared.recordEnd rfl
      (Nat.sub_add_cancel (hi.running_pos hw rfl)) rfl id nofun
  | exit hw _ =>
    have hs := hi.left (List.countP_pos_iff.mpr ⟨_, List.mem_of_getElem? hw, rfl⟩)
    exact hi.shift hw .gone m.shared.recordExit
      (Nat.sub_add_cancel (hi.live_pos hw rfl)) rfl rfl id
      fun _ => hs
  | lastExit hw _ =>
    have hs := hi.left (List.countP_pos_iff.mpr ⟨_, List.mem_of_getElem? hw, rfl⟩)
    exact (hi.shift hw .gone m.shared.recordExit
      (Nat.sub_add_cancel (hi.live_pos hw rfl)) rfl rfl id
      fun _ => hs).congr rfl rfl rfl rfl rfl (fun _ => hi.begun hs.1)
  | accept ho hs _ =>
    have hn : ¬ 0 < m.workers.countP Phase.hasLeft := fun hp => by simp [(hi.left hp).1] at hs
    exact ⟨hi.size, hi.live, hi.running, hi.built, fun _ => ho, fun _ => ho, fun _ => ho,
      fun hp => absurd hp hn⟩
  | nudge hc _ =>
    exact (hi.rearrange (by simp [wakeAmong]) (countP_wakeAmong _ _)).congr rfl rfl rfl rfl rfl
      fun _ => hi.opened hc
  | rouse hc =>
    exact (hi.rearrange (by simp) (countP_map_wake _)).congr rfl rfl rfl rfl rfl
      fun _ => hi.opened hc
  | requestStop ho => exact (hi.stop _ ho).congr rfl rfl rfl rfl rfl fun _ => ho
  | stopReleased hc =>
    exact (hi.stop .graceful (hi.opened hc)).congr rfl rfl rfl rfl rfl fun _ => hi.opened hc
  | refuse ho | release ho | await ho | ask ho =>
    exact hi.congr rfl rfl rfl rfl rfl fun _ => ho
  | cancelTasks hc | decide hc | doze hc | stir hc =>
    exact hi.congr rfl rfl rfl rfl rfl fun _ => hi.opened hc
  | fire | elapse => exact hi.congr rfl rfl rfl rfl rfl hi.called

theorem crewed_of_run {workers capacity : Nat} {moves : List (Move τ)}
    (h : (initial workers capacity).run? moves = some m) : Crewed (max workers 1) m :=
  Reaches.keeps Crewed.step ⟨moves, h⟩ (crewed_initial workers capacity)

theorem isTerminated_iff {s : Shared τ} :
    s.isTerminated = true ↔ s.stopped = true ∧ s.live = 0 := by
  simp [Shared.isTerminated]

theorem Crewed.all_gone (hi : Crewed size m) (ht : m.shared.isTerminated = true) :
    ∀ p ∈ m.workers, p = .gone := by
  obtain ⟨-, hl⟩ := isTerminated_iff.mp ht
  have hc : m.workers.countP Phase.isHere = 0 := by
    have := hi.live
    omega
  intro p hp
  have hn := List.countP_eq_zero.mp hc p hp
  cases p <;> simp_all [Phase.isHere, Phase.isGone]

theorem Crewed.queue_of_terminated (hi : Crewed size m) (hs : 0 < size)
    (ht : m.shared.isTerminated = true) : m.shared.queue = [] := by
  obtain ⟨hp, hu⟩ := hi.built (hi.begun (isTerminated_iff.mp ht).1)
  have hw : 0 < m.workers.length := by
    have := hi.size
    rw [hp, hu, Bool.toNat_false] at this
    omega
  obtain ⟨p, hm⟩ := List.exists_mem_of_length_pos hw
  refine (hi.left (List.countP_pos_iff.mpr ⟨p, hm, ?_⟩)).2
  rw [hi.all_gone ht p hm]
  rfl

theorem Crewed.terminated_step (h : Step m x n) (hi : Crewed size m)
    (ht : m.shared.isTerminated = true) : n.shared.isTerminated = true := by
  obtain ⟨hs, hl⟩ := isTerminated_iff.mp ht
  cases h with
  | countWorker hp hu =>
    have := (hi.built (hi.begun hs)).2
    omega
  | exit | lastExit =>
    refine isTerminated_iff.mpr ⟨hs, ?_⟩
    simp only [Shared.recordExit, hl]
  | @requestStop a mode _ => cases mode <;> exact isTerminated_iff.mpr ⟨rfl, hl⟩
  | stopReleased _ => exact isTerminated_iff.mpr ⟨rfl, hl⟩
  | _ => exact ht

theorem Crewed.terminated_of_reaches (hi : Crewed size m) (h : m.Reaches n)
    (ht : m.shared.isTerminated = true) : n.shared.isTerminated = true := by
  have hboth : Crewed size n ∧ n.shared.isTerminated = true :=
    Reaches.keeps (P := fun o => Crewed size o ∧ o.shared.isTerminated = true)
      (fun hs ho => ⟨ho.1.step hs, ho.1.terminated_step hs ho.2⟩) h ⟨hi, ht⟩
  exact hboth.2

end Machine

end Quiesce.Pool
