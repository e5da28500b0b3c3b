import Quiesce.Proofs.Pool.Conservation

set_option autoImplicit false

/-! No notification is lost although it comes after the lock has been let go. Queued tasks are
counted against the notifications still to come and the workers already roused: `Covered` is the
invariant. -/

namespace Quiesce.Pool

variable {τ : Type}

namespace Phase

def isRoused : Phase τ → Bool
  | looking roused => roused
  | _ => false

end Phase

namespace Stage

def isNudging : Stage → Bool
  | nudging => true
  | _ => false

def isUnfinished : Stage → Bool
  | nudging => true
  | cancelling _ _ => true
  | rousing _ _ _ => true
  | releasing => true
  | _ => false

@[simp] theorem isNudging_stir (s : Stage) : s.stir.isNudging = s.isNudging := by cases s <;> rfl

@[simp] theorem isStopping_stir (s : Stage) : s.stir.isStopping = s.isStopping := by
  cases s <;> rfl

end Stage

namespace Machine

variable {m n : Machine τ} {x : Move τ}

def parked (m : Machine τ) : Nat := m.workers.countP Phase.isParked

def roused (m : Machine τ) : Nat := m.workers.countP Phase.isRoused

def countAt (m : Machine τ) (q : Stage → Bool) : Nat := m.calls.countP fun k => q k.stage

def nudging (m : Machine τ) : Nat := m.countAt Stage.isNudging

def stopping (m : Machine τ) : Nat := m.countAt Stage.isStopping

theorem wakeAmong_eq (woken : List Nat) (l : List (Phase τ)) : wakeAmong woken l =
    l.zipIdx.map fun p => if woken.contains p.2 then p.1.wake else p.1 :=
  List.mapIdx_eq_zipIdx_map

theorem countP_zipIdx (l : List (Phase τ)) (q : Phase τ → Bool) :
    l.zipIdx.countP (fun p => q p.1) = l.countP q := by
  rw [← List.zipIdx_map_fst 0 l, List.countP_map, List.zipIdx_map_fst]
  rfl

theorem parked_wakeAmong_le (woken : List Nat) (l : List (Phase τ)) :
    (wakeAmong woken l).countP Phase.isParked ≤ l.countP Phase.isParked := by
  rw [wakeAmong_eq, List.countP_map, ← countP_zipIdx l]
  apply List.countP_mono_left
  rintro ⟨p, w⟩ -
  dsimp only [Function.comp_apply]
  split
  · cases p <;> simp [Phase.wake, Phase.isParked]
  · exact id

theorem roused_le_wakeAmong (woken : List Nat) (l : List (Phase τ)) :
    l.countP Phase.isRoused ≤ (wakeAmong woken l).countP Phase.isRoused := by
  rw [wakeAmong_eq, List.countP_map, ← countP_zipIdx l]
  apply List.countP_mono_left
  rintro ⟨p, w⟩ -
  dsimp only [Function.comp_apply]
  split
  · cases p <;> simp [Phase.wake, Phase.isRoused]
  · exact id

theorem parked_map_wake (l : List (Phase τ)) :
    (l.map Phase.wake).countP Phase.isParked = 0 := by
  rw [List.countP_map, List.countP_eq_zero]
  intro p _
  cases p <;> simp [Phase.wake, Phase.isParked]

theorem wakeAmong_set {woken : List Nat} {l : List (Phase τ)} {w : Nat}
    (hw : l[w]? = some .parked) (hm : w ∈ woken) :
    wakeAmong woken (l.set w (.looking true)) = wakeAmong woken l := by
  apply List.ext_getElem?
  intro i
  simp only [wakeAmong, List.getElem?_mapIdx]
  by_cases hi : w = i
  · subst hi
    obtain ⟨hl, -⟩ := List.getElem?_eq_some_iff.mp hw
    rw [List.getElem?_set_self hl, hw]
    simp [hm, Phase.wake]
  · rw [List.getElem?_set_ne hi]

theorem roused_lt_wakeAmong {woken : List Nat} {l : List (Phase τ)} {w : Nat}
    (hw : l[w]? = some .parked) (hm : w ∈ woken) :
    l.countP Phase.isRoused < (wakeAmong woken l).countP Phase.isRoused := by
  have hc : (l.set w (.looking true)).countP Phase.isRoused = l.countP Phase.isRoused + 1 :=
    countP_set_add hw (.looking true) Phase.isRoused
  have hle := roused_le_wakeAmong woken (l.set w (.looking true))
  rw [wakeAmong_set hw hm] at hle
  omega

theorem reaches_iff {woken : List Nat} : m.reaches woken = true ↔
    m.parked = 0 ∨ ∃ w ∈ woken, m.workers[w]? = some .parked := by
  have hp (p : Phase τ) : p.isParked = true ↔ p = .parked := by
    cases p <;> simp [Phase.isParked]
  simp only [reaches, parked, Bool.or_eq_true, List.all_eq_true, List.any_eq_true,
    List.countP_eq_zero, Bool.not_eq_true', Bool.not_eq_true]
  apply or_congr_right
  apply exists_congr
  intro w
  apply and_congr_right
  intro _
  cases hw : m.workers[w]? with
  | none => simp
  | some p => simp [hp]

section CountAt

variable {q : Stage → Bool}

theorem countAt_le_of_append {k : Call} (h : n.calls = m.calls ++ [k]) :
    m.countAt q ≤ n.countAt q := by
  simp only [countAt, h, List.countP_append]
  omega

theorem countAt_le_of_set {c : Nat} {a : Actor} {s s' : Stage} (hc : m.calls[c]? = some ⟨a, s⟩)
    (h : n.calls = m.calls.set c ⟨a, s'⟩) (hs : q s = true → q s' = true) :
    m.countAt q ≤ n.countAt q := by
  have hk := countP_set_add hc ⟨a, s'⟩ fun k => q k.stage
  simp only [countAt, h]
  cases hb : q s with
  | true =>
    simp only [hb, hs hb] at hk
    omega
  | false =>
    simp only [hb, Bool.toNat_false] at hk
    omega

theorem countAt_stir (hq : ∀ s, q s.stir = q s) :
    (m.calls.map fun c => { c with stage := c.stage.stir }).countP (fun k => q k.stage) =
      m.countAt q := by
  simp [countAt, List.countP_map, Function.comp_def, hq]

end CountAt

/-- While a worker is parked, no more tasks are queued than notifications are still to come and
roused workers still to look. -/
def Covered (m : Machine τ) : Prop :=
  0 < m.parked → m.shared.queue.length ≤ m.nudging + m.roused

theorem Covered.mono (hc : Covered m) (hp : n.parked ≤ m.parked)
    (hq : n.shared.queue.length + (m.nudging + m.roused) ≤
      m.shared.queue.length + (n.nudging + n.roused)) : Covered n := by
  intro hpos
  have := hc (by omega)
  omega

theorem Covered.of_set (hc : Covered m) {w : Nat} {p q : Phase τ} (hw : m.workers[w]? = some p)
    (hn : n.workers = m.workers.set w q) (hs : n.shared.queue = m.shared.queue)
    (hk : n.nudging = m.nudging) (hp : p.isParked = q.isParked) (hr : p.isRoused = q.isRoused) :
    Covered n := by
  have h₁ := countP_set_add hw q Phase.isParked
  have h₂ := countP_set_add hw q Phase.isRoused
  rw [← hn, hp] at h₁
  rw [← hn, hr] at h₂
  apply hc.mono
  · simp only [parked]
    omega
  · simp only [hs, hk, roused]
    omega

theorem Covered.of_calls (hc : Covered m) (hw : n.workers = m.workers)
    (hq : n.shared.queue.length ≤ m.shared.queue.length) (hk : m.nudging ≤ n.nudging) :
    Covered n := by
  apply hc.mono
  · simp [parked, hw]
  · simp only [roused, hw]
    omega

theorem length_queue_stop_le (s : Shared τ) (mode : StopMode) :
    (s.stop mode).queue.length ≤ s.queue.length := by
  cases mode <;> simp [Shared.stop]

theorem Covered.nudge (hc : Covered m) {c : Nat} {a : Actor} {woken : List Nat}
    (hk : m.calls[c]? = some ⟨a, .nudging⟩) (hr : m.reaches woken = true) :
    Covered { m.advance c a (.answered .accepted) with workers := wakeAmong woken m.workers } := by
  have h₁ := countP_set_add hk ⟨a, .answered .accepted⟩ fun k => k.stage.isNudging
  have h₂ := parked_wakeAmong_le woken m.workers
  simp only [Stage.isNudging, Bool.toNat_false, Bool.toNat_true] at h₁
  rcases reaches_iff.mp hr with hz | ⟨w, hm, hw⟩
  · intro hpos
    simp only [parked] at hpos hz
    omega
  · have h₃ := roused_lt_wakeAmong hw hm
    apply hc.mono
    · exact h₂
    · simp only [advance, nudging, countAt, roused, Stage.isNudging]
      omega

theorem Covered.step (h : Step m x n) (hc : Covered m) : Covered n := by
  cases h with
  | startWorker =>
    apply hc.mono
    · simp [parked, Phase.isParked]
    · simp only [roused, List.countP_append, nudging, countAt]
      omega
  | @take w roused t rest hw hq =>
    have h₁ := countP_set_add hw (.busy t) Phase.isParked
    have h₂ := countP_set_add hw (.busy t) Phase.isRoused
    have h₃ := Bool.toNat_le roused
    simp only [Phase.isParked, Phase.isRoused, Bool.toNat_false] at h₁ h₂
    apply hc.mono
    · simp only [parked]
      omega
    · simp only [Machine.roused, nudging, countAt, hq, List.length_cons]
      omega
  | leave _ hq _ | park _ hq _ =>
    intro _
    simp only [hq, List.length_nil]
    exact Nat.zero_le _
  | wake hw =>
    have h₁ := countP_set_add hw (.looking true) Phase.isParked
    have h₂ := countP_set_add hw (.looking true) Phase.isRoused
    simp only [Phase.isParked, Phase.isRoused, Bool.toNat_false, Bool.toNat_true] at h₁ h₂
    apply hc.mono
    · simp only [parked]
      omega
    · simp only [roused, nudging, countAt]
      omega
  | finish hw | recordEnd hw | exit hw => exact hc.of_set hw rfl rfl rfl rfl rfl
  | lastExit hw =>
    exact hc.of_set hw rfl rfl (countAt_stir Stage.isNudging_stir) rfl rfl
  | accept =>
    refine hc.mono (Nat.le_refl _) ?_
    simp only [nudging, countAt, roused, begin, List.countP_append, List.length_append,
      List.length_singleton, List.countP_singleton, Stage.isNudging, if_true]
    omega
  | nudge hk hr => exact hc.nudge hk hr
  | rouse =>
    intro hpos
    simp only [parked, parked_map_wake] at hpos
    omega
  | requestStop =>
    exact hc.of_calls rfl (length_queue_stop_le _ _) (countAt_le_of_append rfl)
  | stopReleased hk => exact hc.of_calls rfl (Nat.le_refl _) (countAt_le_of_set hk rfl id)
  | refuse | release | await | ask =>
    exact hc.of_calls rfl (Nat.le_refl _) (countAt_le_of_append rfl)
  | cancelTasks hk | decide hk _ | doze hk _ | stir hk =>
    exact hc.of_calls rfl (Nat.le_refl _) (countAt_le_of_set hk rfl id)
  | _ => exact hc

/-- While a worker is parked in a stopped pool, a stop has still to notify it. -/
def Announced (m : Machine τ) : Prop :=
  m.shared.stopped = true → 0 < m.parked → 0 < m.stopping

theorem Announced.mono (ha : Announced m) (hs : n.shared.stopped = m.shared.stopped)
    (hp : n.parked ≤ m.parked) (hk : m.stopping ≤ n.stopping) : Announced n := by
  intro hstop hpos
  have := ha (hs ▸ hstop) (by omega)
  omega

theorem Announced.of_set (ha : Announced m) {w : Nat} {p q : Phase τ}
    (hw : m.workers[w]? = some p) (hn : n.workers = m.workers.set w q)
    (hs : n.shared.stopped = m.shared.stopped) (hk : m.stopping ≤ n.stopping)
    (hq : q.isParked = false) : Announced n := by
  have hc := countP_set_add hw q Phase.isParked
  rw [← hn, hq, Bool.toNat_false] at hc
  apply ha.mono hs _ hk
  simp only [parked]
  omega

theorem Announced.step (h : Step m x n) (ha : Announced m) : Announced n := by
  cases h with
  | startWorker => exact ha.mono rfl (by simp [parked, Phase.isParked]) (Nat.le_refl _)
  | park _ _ hs => exact fun hstop => absurd (hstop.symm.trans hs) (by decide)
  | take hw _ | leave hw _ _ | wake hw | finish hw | recordEnd hw | exit hw _ =>
    exact ha.of_set hw rfl rfl (Nat.le_refl _) rfl
  | lastExit hw =>
    exact ha.of_set hw rfl rfl (Nat.le_of_eq (countAt_stir Stage.isStopping_stir).symm) rfl
  | nudge hk _ => exact ha.mono rfl (parked_wakeAmong_le _ _) (countAt_le_of_set hk rfl nofun)
  | rouse =>
    intro _ hpos
    simp only [parked, parked_map_wake] at hpos
    omega
  | @requestStop a mode _ =>
    intro _ _
    refine List.countP_pos_iff.mpr ⟨_, List.mem_append_right _ (List.mem_singleton_self _), ?_⟩
    cases mode <;> rfl
  | stopReleased hk =>
    intro _ _
    obtain ⟨hl, -⟩ := List.getElem?_eq_some_iff.mp hk
    exact List.countP_pos_iff.mpr ⟨_, List.mem_set hl _, rfl⟩
  | accept | refuse | release | await | ask =>
    exact ha.mono rfl (Nat.le_refl _) (countAt_le_of_append rfl)
  | cancelTasks hk | decide hk _ | doze hk _ | stir hk =>
    exact ha.mono rfl (Nat.le_refl _) (countAt_le_of_set hk rfl id)
  | _ => exact ha

/-- No submission, stop or release is under way, every started task has ended, and no worker has a
move that is not a spurious wake-up. -/
structure AtRest (m : Machine τ) : Prop where
  calls : ∀ k ∈ m.calls, k.stage.isUnfinished = false
  ended : m.history.started.length = m.history.ended.length
  looks : ∀ w, m.step? (.look w) = none
  records : ∀ w, m.step? (.recordEnd w) = none
  exits : ∀ w, m.step? (.recordExit w) = none

structure Idle (m : Machine τ) : Prop where
  stopped : m.shared.stopped = false
  queue : m.shared.queue = []
  workers : ∀ p ∈ m.workers, p = .parked

structure Terminated (m : Machine τ) : Prop where
  stopped : m.shared.stopped = true
  queue : m.shared.queue = []
  workers : ∀ p ∈ m.workers, p = .gone
  terminated : m.shared.isTerminated = true

theorem AtRest.countAt_eq_zero (hr : AtRest m) {q : Stage → Bool}
    (hq : ∀ s : Stage, s.isUnfinished = false → q s = false) : m.countAt q = 0 := by
  rw [countAt, List.countP_eq_zero]
  intro k hk
  simp [hq _ (hr.calls k hk)]

theorem AtRest.no_body (hr : AtRest m) (ha : Accounted m) :
    m.workers.filterMap Phase.body? = [] := by
  have hl := ha.length_eq
  rw [List.length_append, List.length_map, hr.ended] at hl
  apply List.eq_nil_of_length_eq_zero
  omega

theorem AtRest.parked_or_gone (hr : AtRest m) (ha : Accounted m) {p : Phase τ}
    (hp : p ∈ m.workers) : p = .parked ∨ p = .gone := by
  obtain ⟨w, hw⟩ := List.mem_iff_getElem?.mp hp
  cases p with
  | parked => exact .inl rfl
  | gone => exact .inr rfl
  | looking roused =>
    have hlook := hr.looks w
    simp only [step?, look, hw] at hlook
    split at hlook <;> simp at hlook
  | busy t =>
    have hmem : t ∈ m.workers.filterMap Phase.body? :=
      List.mem_filterMap.mpr ⟨.busy t, hp, rfl⟩
    rw [hr.no_body ha] at hmem
    exact absurd hmem List.not_mem_nil
  | ended t =>
    have hrec := hr.records w
    simp [step?, Machine.recordEnd, hw] at hrec
  | leaving =>
    have hexit := hr.exits w
    simp only [step?, Machine.recordExit, hw] at hexit
    split at hexit <;> simp at hexit

theorem parked_pos {p : Phase τ} (hp : p ∈ m.workers) (he : p = .parked) : 0 < m.parked :=
  List.countP_pos_iff.mpr ⟨p, hp, by rw [he]; rfl⟩

theorem Crewed.workers_ne_nil {size : Nat} (hi : Crewed size m) (hs : 0 < size)
    (ho : m.isOpen = true) : m.workers ≠ [] := by
  obtain ⟨hp, hu⟩ := hi.built ho
  have hz := hi.size
  rintro hn
  simp [hp, hu, hn] at hz
  omega

theorem terminated_of_atRest {size : Nat} (hr : AtRest m) (ha : Accounted m) (hi : Crewed size m)
    (hs : 0 < size) (hann : Announced m) (hstop : m.shared.stopped = true) : Terminated m := by
  have hgone : ∀ p ∈ m.workers, p = .gone := by
    intro p hp
    refine (hr.parked_or_gone ha hp).resolve_left ?_
    intro he
    have hpos := hann hstop (parked_pos hp he)
    have hzero : m.stopping = 0 :=
      hr.countAt_eq_zero fun s h => by cases s <;> first | rfl | exact nomatch h
    omega
  have ho := hi.begun hstop
  have hlive : m.shared.live = 0 := by
    have hl := hi.live
    rw [(hi.built ho).1, Bool.toNat_false] at hl
    rw [hl, Nat.add_zero, List.countP_eq_zero]
    intro p hp
    rw [hgone p hp]
    exact Bool.false_ne_true
  have ht := isTerminated_iff.mpr ⟨hstop, hlive⟩
  exact ⟨hstop, hi.queue_of_terminated hs ht, hgone, ht⟩

theorem idle_of_atRest {size : Nat} (hr : AtRest m) (ha : Accounted m) (hi : Crewed size m)
    (hs : 0 < size) (hc : Covered m) (hstop : m.shared.stopped = false) : Idle m := by
  have hparked : ∀ p ∈ m.workers, p = .parked := by
    intro p hp
    refine (hr.parked_or_gone ha hp).resolve_right ?_
    rintro rfl
    have hleft := (hi.left (List.countP_pos_iff.mpr ⟨.gone, hp, rfl⟩)).1
    exact nomatch hleft.symm.trans hstop
  refine ⟨hstop, ?_, hparked⟩
  refine Decidable.byContradiction fun hq => ?_
  obtain ⟨p, hp⟩ := List.exists_mem_of_ne_nil _ (hi.workers_ne_nil hs (hi.queued hq))
  have hcov := hc (parked_pos hp (hparked p hp))
  have hnudge : m.nudging = 0 :=
    hr.countAt_eq_zero fun s h => by cases s <;> first | rfl | exact nomatch h
  have hroused : m.roused = 0 := by
    rw [roused, List.countP_eq_zero]
    intro r hm
    rw [hparked r hm]
    exact Bool.false_ne_true
  have := List.length_pos_iff.mpr hq
  omega

/-- In every state that a pool reaches, queued tasks and stops are answered for as long as a worker
is parked; and where nobody has a move left, the pool is idle or has terminated. -/
theorem no_wakeup_lost {workers capacity : Nat} (h : (initial workers capacity).Reaches m) :
    (0 < m.parked → m.shared.queue.length ≤ m.nudging + m.roused) ∧
      (m.shared.stopped = true → 0 < m.parked → 0 < m.stopping) ∧
      (AtRest m → Idle m ∨ Terminated m) := by
  obtain ⟨moves, hrun⟩ := h
  have hc : Covered m := Reaches.keeps Covered.step ⟨moves, hrun⟩ fun _ => Nat.zero_le _
  have hann : Announced m := Reaches.keeps Announced.step ⟨moves, hrun⟩ nofun
  refine ⟨hc, hann, ?_⟩
  intro hr
  have ha := accounted_of_run hrun
  have hi := crewed_of_run hrun
  have hs : 0 < max workers 1 := by omega
  cases hstop : m.shared.stopped with
  | true => exact .inr (terminated_of_atRest hr ha hi hs hann hstop)
  | false => exact .inl (idle_of_atRest hr ha hi hs hc hstop)

def napping : Machine Nat :=
  ((initial 1 1).run? [.countWorker, .startWorker, .openPool, .look 0]).getD (initial 1 1)

def interposed : Machine Nat :=
  (napping.run? [.submit (.caller 0) 10, .requestStop (.caller 1) .graceful]).getD napping

theorem reaches_napping : (initial 1 1).Reaches napping :=
  ⟨[.countWorker, .startWorker, .openPool, .look 0], rfl⟩

theorem interposed_answered_for :
    (0 < interposed.parked ∧ interposed.shared.queue = [10] ∧ interposed.shared.stopped = true ∧
      interposed.shared.queue.length ≤ interposed.nudging + interposed.roused ∧
      0 < interposed.stopping) ∧
    AtRest napping ∧ (Idle napping ∨ Terminated napping) := by
  have hreach : (initial 1 1).Reaches interposed :=
    reaches_napping.trans ⟨[.submit (.caller 0) 10, .requestStop (.caller 1) .graceful], rfl⟩
  obtain ⟨hcov, hann, -⟩ := no_wakeup_lost hreach
  have hpos : 0 < interposed.parked := by decide
  have hrest : AtRest napping :=
    ⟨nofun, rfl, fun w => by cases w <;> rfl, fun w => by cases w <;> rfl,
      fun w => by cases w <;> rfl⟩
  exact ⟨⟨hpos, rfl, rfl, hcov hpos, hann rfl hpos⟩, hrest,
    (no_wakeup_lost reaches_napping).2.2 hrest⟩

end Machine

end Quiesce.Pool
