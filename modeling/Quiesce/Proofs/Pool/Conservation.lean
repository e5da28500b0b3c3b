import Mathlib.Data.List.Nodup
import Quiesce.Proofs.Pool.Calls

set_option autoImplicit false

namespace Quiesce.Pool

variable {τ : Type}

def Phase.body? : Phase τ → Option τ
  | busy t => some t
  | _ => none

@[simp] theorem Phase.body?_wake (p : Phase τ) : p.wake.body? = p.body? := by cases p <;> rfl

/-- A submission whose task is in the queue or was: it has returned so, or is about to. -/
def Stage.admits : Stage → Bool
  | nudging => true
  | answered .accepted => true
  | _ => false

def Stage.refuses : Stage → Bool
  | answered (.refused _) => true
  | _ => false

def Move.task? : Move τ → Option τ
  | submit _ t => some t
  | _ => none

namespace Machine

variable {m n o : Machine τ} {x : Move τ}

def isAdmitted (m : Machine τ) (c : Nat) : Bool := (m.calls[c]?).any fun k => k.stage.admits

def isRefused (m : Machine τ) (c : Nat) : Bool := (m.calls[c]?).any fun k => k.stage.refuses

def submissions (m : Machine τ) : List (Move τ) → List (Nat × τ)
  | [] => []
  | x :: rest =>
    match m.step? x with
    | some n => (x.task?.map fun t => (m.calls.length, t)).toList ++ n.submissions rest
    | none => []

/-- What is said of the tasks of a run that ends in `m` and makes these submissions. -/
structure Conserved (submitted : List (Nat × τ)) (m : Machine τ) : Prop where
  accepted : m.history.accepted = (submitted.filter fun s => m.isAdmitted s.1).map Prod.snd
  fifo : m.history.accepted = m.history.started ++ m.history.discarded ++ m.shared.queue
  apart : m.history.discarded = [] ∨ m.shared.queue = []
  once : (submitted.map Prod.snd).Nodup → (m.history.started ++ m.history.discarded).Nodup ∧
    ∀ s ∈ submitted, m.isRefused s.1 = true →
      s.2 ∉ m.history.started ∧ s.2 ∉ m.history.discarded
  reported : m.returned.countP (0 < ·) ≤ 1
  total : (∀ k ∈ m.calls, k.stage.isStopping = false) →
    m.returned.sum = m.history.discarded.length
  finished : m.shared.isTerminated = true →
    m.history.accepted.Perm (m.history.ended.map Prod.fst ++ m.history.discarded)

theorem admits_next {s t : Stage} (h : s.Next m n t) : t.admits = s.admits := by
  cases h <;> rfl

theorem isAdmitted_step (h : Step m x n) {c : Nat} (hc : c < m.calls.length) :
    n.isAdmitted c = m.isAdmitted c := by
  obtain ⟨k', hk', -, hn⟩ := step_call h (List.getElem?_eq_getElem hc)
  simp only [isAdmitted, hk', List.getElem?_eq_getElem hc, Option.any_some]
  exact admits_next hn

theorem length_calls_step (h : Step m x n) : m.calls.length ≤ n.calls.length := by
  cases hc : m.calls.getLast? with
  | none =>
    rw [List.getLast?_eq_none_iff.mp hc]
    exact Nat.zero_le _
  | some k =>
    rw [List.getLast?_eq_getElem?] at hc
    obtain ⟨k', hk', -, -⟩ := step_call h hc
    obtain ⟨hl, -⟩ := List.getElem?_eq_some_iff.mp hk'
    omega

theorem isAdmitted_run {moves : List (Move τ)} (h : m.run? moves = some n) {c : Nat}
    (hc : c < m.calls.length) : n.isAdmitted c = m.isAdmitted c := by
  induction moves generalizing m with
  | nil =>
    obtain rfl := Option.some.inj h
    rfl
  | cons x rest ih =>
    obtain ⟨o, hs, -, hr⟩ := run?_cons.mp h
    rw [ih hr (Nat.lt_of_lt_of_le hc (length_calls_step hs)), isAdmitted_step hs hc]

theorem accepted_step (h : Step m x n) : n.history.accepted = m.history.accepted ++
    ((x.task?.map fun t => (m.calls.length, t)).toList.filter fun s => n.isAdmitted s.1).map
      Prod.snd := by
  cases h with
  | accept => simp [Move.task?, isAdmitted, begin, Stage.admits]
  | refuse => simp [Move.task?, isAdmitted, begin, Stage.admits]
  | _ => exact (List.append_nil _).symm

theorem length_calls_of_task? (h : Step m x n) {t : τ} (hx : x.task? = some t) :
    n.calls.length = m.calls.length + 1 := by
  cases h with
  | accept | refuse => simp [begin]
  | _ => simp [Move.task?] at hx

theorem accepted_run {moves : List (Move τ)} (h : m.run? moves = some n) :
    n.history.accepted = m.history.accepted ++
      ((m.submissions moves).filter fun s => n.isAdmitted s.1).map Prod.snd := by
  induction moves generalizing m with
  | nil =>
    obtain rfl := Option.some.inj h
    exact (List.append_nil _).symm
  | cons x rest ih =>
    obtain ⟨o, hs, ho, hr⟩ := run?_cons.mp h
    -- the fate of the first submission is settled in its own move
    have hfirst : ((x.task?.map fun t => (m.calls.length, t)).toList.filter
          fun s => n.isAdmitted s.1) =
        (x.task?.map fun t => (m.calls.length, t)).toList.filter fun s => o.isAdmitted s.1 := by
      cases hx : x.task? with
      | none => rfl
      | some t =>
        have hl : m.calls.length < o.calls.length := by
          have := length_calls_of_task? hs hx
          omega
        rw [Option.map_some, Option.toList_some]
        apply List.filter_congr
        intro s hm
        rw [List.mem_singleton.mp hm]
        exact isAdmitted_run hr hl
    rw [ih hr, accepted_step hs, submissions, ho]
    dsimp only
    rw [List.filter_append, List.map_append, hfirst, List.append_assoc]

theorem body?_wakeAmong (woken : List Nat) (l : List (Phase τ)) :
    (wakeAmong woken l).filterMap Phase.body? = l.filterMap Phase.body? := by
  have h := congrArg (List.filterMap id) (map_wakeAmong woken l Phase.body? Phase.body?_wake)
  simpa only [List.filterMap_map, Function.id_comp] using h

def Accounted (m : Machine τ) : Prop :=
  m.history.started.Perm (m.history.ended.map Prod.fst ++ m.workers.filterMap Phase.body?)

theorem Accounted.of_set (ha : Accounted m) {w : Nat} {p q : Phase τ}
    (hw : m.workers[w]? = some p) (hn : n.workers = m.workers.set w q)
    (hh : n.history = m.history) (hq : p.body? = q.body?) : Accounted n := by
  unfold Accounted
  rw [hn, hh]
  exact ha.trans ((filterMap_set_perm_of_eq hw hq).symm.append_left _)

theorem Accounted.step (h : Step m x n) (ha : Accounted m) : Accounted n := by
  cases h with
  | startWorker =>
    have hb : (m.workers ++ [Phase.looking true]).filterMap Phase.body? =
        m.workers.filterMap Phase.body? := by
      rw [List.filterMap_append]
      exact List.append_nil _
    unfold Accounted
    dsimp only
    rw [hb]
    exact ha
  | @take w roused t rest hw _ =>
    have hp : ((m.workers.set w (.busy t)).filterMap Phase.body?).Perm
        (t :: m.workers.filterMap Phase.body?) := filterMap_set_perm hw (.busy t) Phase.body?
    calc
      (m.history.started ++ [t]).Perm (t :: m.history.started) := List.perm_append_singleton _ _
      List.Perm _ (t :: (m.history.ended.map Prod.fst ++ m.workers.filterMap Phase.body?)) :=
        ha.cons t
      List.Perm _ (m.history.ended.map Prod.fst ++ t :: m.workers.filterMap Phase.body?) :=
        List.perm_middle.symm
      List.Perm _ (m.history.ended.map Prod.fst ++ _) := hp.symm.append_left _
  | @finish w t how hw =>
    have hp : (t :: (m.workers.set w (.ended t)).filterMap Phase.body?).Perm
        (m.workers.filterMap Phase.body?) := filterMap_set_perm hw (.ended t) Phase.body?
    unfold Accounted
    dsimp only
    rw [List.map_append, List.append_assoc]
    exact ha.trans (hp.symm.append_left _)
  | leave hw | park hw | wake hw | recordEnd hw | exit hw | lastExit hw =>
    exact ha.of_set hw rfl rfl rfl
  | nudge =>
    unfold Accounted
    dsimp only [advance]
    rw [body?_wakeAmong]
    exact ha
  | rouse =>
    have hb : (m.workers.map Phase.wake).filterMap Phase.body? =
        m.workers.filterMap Phase.body? := by simp [List.filterMap_map]
    unfold Accounted
    dsimp only [advance]
    rw [hb]
    exact ha
  | _ => exact ha

theorem accounted_of_run {workers capacity : Nat} {moves : List (Move τ)}
    (h : (initial workers capacity).run? moves = some m) : Accounted m :=
  Reaches.keeps Accounted.step ⟨moves, h⟩ (.refl _)

theorem Accounted.ended (ha : Accounted m) {size : Nat} (hc : Crewed size m)
    (ht : m.shared.isTerminated = true) :
    m.history.started.Perm (m.history.ended.map Prod.fst) := by
  have hb : m.workers.filterMap Phase.body? = [] := by
    rw [List.filterMap_eq_nil_iff]
    intro p hp
    rw [hc.all_gone ht p hp]
    rfl
  unfold Accounted at ha
  rwa [hb, List.append_nil] at ha

theorem accepted_of_terminated {workers capacity : Nat} {moves : List (Move τ)}
    (h : (initial workers capacity).run? moves = some m) (ht : m.shared.isTerminated = true) :
    m.history.accepted.Perm (m.history.ended.map Prod.fst ++ m.history.discarded) := by
  have hc : Crewed (max workers 1) m := crewed_of_run h
  have hfifo : m.history.accepted =
      m.history.started ++ m.history.discarded ++ m.shared.queue := (balanced_of_run h).accepted
  rw [hfifo, hc.queue_of_terminated (by omega) ht, List.append_nil]
  exact ((accounted_of_run h).ended hc ht).append_right _

theorem admits_of_refuses {s : Stage} (h : s.refuses = true) : s.admits = false := by
  cases s with
  | answered a => cases a <;> first | rfl | exact nomatch h
  | _ => exact nomatch h

theorem not_admitted_of_refused {c : Nat} (h : m.isRefused c = true) : m.isAdmitted c = false := by
  unfold isRefused at h
  unfold isAdmitted
  cases hk : m.calls[c]? with
  | none => rfl
  | some k =>
    rw [hk, Option.any_some] at h
    exact admits_of_refuses h

theorem refused_not_accepted {submitted : List (Nat × τ)}
    (hd : (submitted.map Prod.snd).Nodup) {s : Nat × τ} (hs : s ∈ submitted)
    (hr : m.isRefused s.1 = true) :
    s.2 ∉ (submitted.filter fun s => m.isAdmitted s.1).map Prod.snd := by
  intro hm
  obtain ⟨r, hmem, he⟩ := List.mem_map.mp hm
  obtain ⟨hrs, ha⟩ := List.mem_filter.mp hmem
  have heq : r = s := List.inj_on_of_nodup_map hd hrs hs he
  rw [heq, not_admitted_of_refused hr] at ha
  exact nomatch ha

/-- In every state that a pool reaches, by any moves in any order, its tasks are conserved; and if
nobody asked for a forced stop, nothing is discarded, so that a pool that has terminated has
finished each accepted task once. -/
theorem tasks_conserved {workers capacity : Nat} {moves : List (Move τ)}
    (h : (initial workers capacity).run? moves = some m) :
    Conserved ((initial workers capacity).submissions moves) m ∧
      ((∀ x ∈ moves, x.forces = false) → m.history.discarded = [] ∧
        (m.shared.isTerminated = true →
          m.history.accepted.Perm (m.history.ended.map Prod.fst))) := by
  have hb : m.ledger.Balanced := balanced_of_run h
  have hr : Reported m := reported_of_run h
  have hacc : m.history.accepted =
      (((initial workers capacity).submissions moves).filter
        fun s => m.isAdmitted s.1).map Prod.snd := accepted_run h
  have hfifo : m.history.accepted =
      m.history.started ++ m.history.discarded ++ m.shared.queue := hb.accepted
  have hend : m.shared.isTerminated = true →
      m.history.accepted.Perm (m.history.ended.map Prod.fst ++ m.history.discarded) :=
    accepted_of_terminated h
  refine ⟨⟨hacc, hfifo, hb.apart, ?_, ?_, ?_, hend⟩, ?_⟩
  · intro hd
    have hn : m.history.accepted.Nodup := by
      rw [hacc]
      exact hd.sublist (List.filter_sublist.map _)
    rw [hfifo] at hn
    refine ⟨(List.nodup_append.mp hn).1, ?_⟩
    intro s hs href
    have hnot := refused_not_accepted hd hs href
    rw [← hacc, hfifo] at hnot
    simp only [List.mem_append, not_or] at hnot
    exact hnot.1
  · exact Nat.le_trans (m.returned_sublist_taken.countP_le) hr.once
  · intro hs
    rw [returned_eq_taken hs]
    exact hr.sum
  · intro hx
    have hd := (unforced_of_run h hx).discarded
    refine ⟨hd, ?_⟩
    intro ht
    have hp := hend ht
    rwa [hd, List.append_nil] at hp

/-- One worker and room for one task: while the first task runs, the second waits, the third finds
the queue full, a forced stop takes the second, and the fourth finds the pool stopped. -/
def crowdedRun : List (Move Nat) :=
  [.countWorker, .startWorker, .openPool,
    .submit (.caller 0) 10, .look 0, .nudge 0 [], .submit (.caller 0) 20, .submit (.caller 1) 30,
    .requestStop (.caller 1) .forced, .nudge 1 [], .submit (.caller 0) 40, .cancelTasks 3, .rouse 3,
    .finish 0 .panicked, .recordEnd 0, .look 0, .recordExit 0]

theorem crowdedRun_conserved : ∃ m, (initial 1 0).run? crowdedRun = some m ∧
    (m.history.started, m.history.discarded, m.returned) = ([10], [20], [1]) ∧
    m.shared.isTerminated = true ∧
    Conserved ((initial 1 0).submissions crowdedRun) m := by
  have hv : ((initial 1 0).run? crowdedRun).map (fun m =>
      ((m.history.started, m.history.discarded, m.returned), m.shared.isTerminated)) =
        some (([10], [20], [1]), true) := rfl
  obtain ⟨m, hm, he⟩ := Option.map_eq_some_iff.mp hv
  obtain ⟨hh, ht⟩ := Prod.mk.inj he
  exact ⟨m, hm, hh, ht, (tasks_conserved hm).1⟩

end Machine

end Quiesce.Pool
