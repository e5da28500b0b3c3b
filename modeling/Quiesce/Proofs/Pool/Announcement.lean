import Quiesce.Proofs.Pool.Termination

set_option autoImplicit false

namespace Quiesce.Pool

variable {τ : Type}

def Notice.isTerminated : Notice → Bool
  | terminated => true
  | _ => false

namespace Stage

def isDozing : Stage → Bool
  | dozing _ => true
  | _ => false

theorem isDozing_stir (s : Stage) : s.stir.isDozing = false := by cases s <;> rfl

end Stage

namespace Machine

variable {m n : Machine τ} {x : Move τ} {size : Nat}

def announcements (m : Machine τ) : List (Actor × Notice) :=
  m.notices.filter fun e => e.2.isTerminated

structure Announces (w : Nat) (m n : Machine τ) : Prop where
  before : m.shared.isTerminated = false
  after : n.shared.isTerminated = true
  notices : n.notices = m.notices ++ [(.worker w, .terminated)]
  awake : ∀ k ∈ n.calls, k.stage.isDozing = false

theorem Announces.announcements {w : Nat} (h : Announces w m n) :
    n.announcements = m.announcements ++ [(.worker w, .terminated)] := by
  rw [Machine.announcements, h.notices, List.filter_append]
  rfl

theorem Crewed.stopped_of_deserted (hi : Crewed size m) (hpos : 0 < size) (ho : m.isOpen = true)
    (hl : m.shared.live = 0) : m.shared.stopped = true := by
  obtain ⟨p, hp⟩ := List.exists_mem_of_ne_nil _ (hi.workers_ne_nil hpos ho)
  have hc : m.workers.countP Phase.isHere = 0 := by
    have := hi.live
    omega
  have hleft : p.hasLeft = true := by
    have hn := List.countP_eq_zero.mp hc p hp
    cases p <;> simp_all [Phase.isHere, Phase.isGone, Phase.hasLeft]
  exact (hi.left (List.countP_pos_iff.mpr ⟨p, hp, hleft⟩)).1

theorem Crewed.isTerminated_stop (hi : Crewed size m) (hpos : 0 < size) (ho : m.isOpen = true)
    (mode : StopMode) : (m.shared.stop mode).isTerminated = m.shared.isTerminated := by
  have hlive : (m.shared.stop mode).live = m.shared.live := by cases mode <;> rfl
  rw [Shared.isTerminated, Shared.isTerminated, Shared.stopped_stop, hlive]
  by_cases hl : m.shared.live = 0
  · rw [hi.stopped_of_deserted hpos ho hl]
  · rw [beq_false_of_ne hl, Bool.and_false, Bool.and_false]

theorem Crewed.not_terminated_of_leaving (hi : Crewed size m) {w : Nat}
    (hw : m.workers[w]? = some .leaving) : m.shared.isTerminated = false := by
  have hl := hi.live_pos hw rfl
  refine Bool.eq_false_iff.mpr fun ht => ?_
  have := (isTerminated_iff.mp ht).2
  omega

theorem announces_lastExit (hi : Crewed size m) {w : Nat} (hw : m.workers[w]? = some .leaving)
    (ht : m.shared.recordExit.isTerminated = true) :
    Announces w m { m with
      shared := m.shared.recordExit, workers := m.workers.set w .gone
      calls := m.calls.map fun c => { c with stage := c.stage.stir }
      notices := m.notices ++ [(.worker w, .terminated)] } where
  before := hi.not_terminated_of_leaving hw
  after := ht
  notices := rfl
  awake := by
    rw [List.forall_mem_map]
    exact fun k _ => Stage.isDozing_stir k.stage

theorem announcements_append {a : Actor} {e : Notice} (h : n.notices = m.notices ++ [(a, e)])
    (he : e.isTerminated = false) : n.announcements = m.announcements := by
  simp [announcements, h, he]

/-- A move leaves termination and its announcements alone, or is the last exit. -/
theorem step_announcement (h : Step m x n) (hi : Crewed size m) (hpos : 0 < size) :
    n.shared.isTerminated = m.shared.isTerminated ∧ n.announcements = m.announcements ∨
      ∃ w, x = .recordExit w ∧ Announces w m n := by
  cases h with
  | countWorker hp hu =>
    have hs : m.shared.stopped = false := by
      refine Bool.eq_false_iff.mpr fun hs => ?_
      have := (hi.built (hi.begun hs)).2
      omega
    refine .inl ⟨?_, rfl⟩
    simp [Shared.isTerminated, Shared.recordStart, hs]
  | openPool => exact .inl ⟨rfl, announcements_append rfl rfl⟩
  | @finish w t how _ =>
    refine .inl ⟨rfl, ?_⟩
    cases how with
    | returned => rfl
    | panicked => exact announcements_append rfl rfl
  | exit hw ht => exact .inl ⟨ht.trans (hi.not_terminated_of_leaving hw).symm, rfl⟩
  | lastExit hw ht => exact .inr ⟨_, rfl, announces_lastExit hi hw ht⟩
  | rouse => exact .inl ⟨rfl, announcements_append rfl rfl⟩
  | requestStop ho => exact .inl ⟨hi.isTerminated_stop hpos ho _, rfl⟩
  | stopReleased hk => exact .inl ⟨hi.isTerminated_stop hpos (hi.opened hk) _, rfl⟩
  | _ => exact .inl ⟨rfl, rfl⟩

theorem announcements_of_terminated (hi : Crewed size m) (hpos : 0 < size) (h : m.Reaches n)
    (ht : m.shared.isTerminated = true) : n.announcements = m.announcements := by
  have hboth : Crewed size n ∧ n.shared.isTerminated = true ∧
      n.announcements = m.announcements := by
    refine Reaches.keeps (P := fun o => Crewed size o ∧ o.shared.isTerminated = true ∧
      o.announcements = m.announcements) ?_ h ⟨hi, ht, rfl⟩
    rintro o p x hs ⟨hc, hto, ha⟩
    rcases step_announcement hs hc hpos with ⟨htp, hap⟩ | ⟨w, -, hw⟩
    · exact ⟨hc.step hs, htp.trans hto, hap.trans ha⟩
    · exact absurd (hto.symm.trans hw.before) (by decide)
  exact hboth.2.2

def ExitsLast (m : Machine τ) (moves : List (Move τ)) (w : Nat) : Prop :=
  ∃ before after n o, moves = before ++ .recordExit w :: after ∧ m.run? before = some n ∧
    n.step? (.recordExit w) = some o ∧ Announces w n o

theorem announced_run (hi : Crewed size m) (hpos : 0 < size) {moves : List (Move τ)}
    (h : m.run? moves = some n) (ht : m.shared.isTerminated = false) :
    n.shared.isTerminated = false ∧ n.announcements = m.announcements ∨
      n.shared.isTerminated = true ∧ ∃ w, m.ExitsLast moves w ∧
        n.announcements = m.announcements ++ [(.worker w, .terminated)] := by
  induction moves generalizing m with
  | nil =>
    obtain rfl := Option.some.inj h
    exact .inl ⟨ht, rfl⟩
  | cons x rest ih =>
    obtain ⟨o, hs, hx, hr⟩ := run?_cons.mp h
    have ho := hi.step hs
    rcases step_announcement hs hi hpos with ⟨hto, hao⟩ | ⟨w, rfl, hw⟩
    · rw [← hao]
      refine (ih ho hr (hto.trans ht)).imp_right ?_
      rintro ⟨htn, w, ⟨before, after, p, q, rfl, hp, hq, hw⟩, hn⟩
      refine ⟨htn, w, ⟨x :: before, after, p, q, rfl, ?_, hq, hw⟩, hn⟩
      rw [run?, hx]
      exact hp
    · have hlast := announcements_of_terminated ho hpos ⟨rest, hr⟩ hw.after
      exact .inr ⟨ho.terminated_of_reaches ⟨rest, hr⟩ hw.after, w,
        ⟨[], rest, m, o, rfl, rfl, hx, hw⟩, hlast.trans hw.announcements⟩

/-- Nobody is parked in a terminated pool. -/
def Attentive (m : Machine τ) : Prop :=
  m.shared.isTerminated = true → ∀ k ∈ m.calls, k.stage.isDozing = false

theorem awake_step (h : Step m x n) (ht : m.shared.isTerminated = true)
    (ha : ∀ k ∈ m.calls, k.stage.isDozing = false) : ∀ k ∈ n.calls, k.stage.isDozing = false := by
  cases h with
  | lastExit =>
    rw [List.forall_mem_map]
    exact fun k _ => Stage.isDozing_stir k.stage
  | @requestStop a mode _ =>
    refine noCall_append (m := m) ha ?_
    cases mode <;> rfl
  | @release a _ =>
    refine noCall_append ha ?_
    cases m.shared.stopped <;> rfl
  | accept | refuse | await | ask => exact noCall_append ha rfl
  | @doze c a v slice _ hj =>
    -- whoever looks finds the pool terminated and does not park
    have hv : v.judge (m.sight v) = .answer (.ok true) := v.judge_of_terminated ht
    exact nomatch hv.symm.trans hj
  | nudge | cancelTasks | rouse | decide | stir => exact noCall_set ha rfl
  | stopReleased => exact noCall_set (m := m) ha rfl
  | _ => exact ha

theorem Attentive.step (h : Step m x n) (hi : Crewed size m) (hpos : 0 < size)
    (ha : Attentive m) : Attentive n := by
  intro ht
  rcases step_announcement h hi hpos with ⟨htn, -⟩ | ⟨w, -, hw⟩
  · have htm := htn.symm.trans ht
    exact awake_step h htm (ha htm)
  · exact hw.awake

theorem attentive_of_run {workers capacity : Nat} {moves : List (Move τ)}
    (h : (initial workers capacity).run? moves = some m) : Attentive m := by
  have hpos : 0 < max workers 1 := by omega
  have hboth : Crewed (max workers 1) m ∧ Attentive m :=
    Reaches.keeps (P := fun o => Crewed (max workers 1) o ∧ Attentive o)
      (fun hs ho => ⟨ho.1.step hs, ho.2.step hs ho.1 hpos⟩) ⟨moves, h⟩
      ⟨crewed_initial workers capacity, nofun⟩
  exact hboth.2

/-- A run that reaches termination says so once, in the move of the worker whose exit brings it, and
other runs never do. Nobody is parked in a terminated pool, so whoever still waits for termination
sees it at the next look, whatever the clock says. -/
theorem termination_announced {workers capacity : Nat} {moves : List (Move τ)}
    (h : (initial workers capacity).run? moves = some m) :
    (m.shared.isTerminated = false → m.announcements = []) ∧
    (m.shared.isTerminated = true →
      (∃ w, (initial workers capacity).ExitsLast moves w ∧
        m.announcements = [(.worker w, .terminated)]) ∧
      (∀ (c : Nat) (a : Actor) (v : Vigil), m.calls[c]? ≠ some ⟨a, .dozing v⟩) ∧
      ∀ (c : Nat) (a : Actor) (v : Vigil), m.calls[c]? = some ⟨a, .watching v⟩ →
        ∃ n, m.step? (.watch c) = some n ∧ n.answer? c = some (.termination (.ok true))) := by
  have hpos : 0 < max workers 1 := by omega
  have hrun := announced_run (crewed_initial workers capacity) hpos h rfl
  constructor
  · intro ht
    rcases hrun with ⟨-, ha⟩ | ⟨htm, -⟩
    · exact ha
    · exact absurd (htm.symm.trans ht) (by decide)
  · intro ht
    refine ⟨?_, ?_, fun c a v hk => watch_answers hk ht⟩
    · rcases hrun with ⟨htm, -⟩ | ⟨-, w, hw, ha⟩
      · exact absurd (htm.symm.trans ht) (by decide)
      · exact ⟨w, hw, ha⟩
    · intro c a v hk
      exact absurd (attentive_of_run h ht _ (List.mem_of_getElem? hk)) (by simp [Stage.isDozing])

def farewell : List (Move Nat) :=
  [.countWorker, .startWorker, .openPool, .await (.caller 1) .max 0, .watch 0,
    .requestStop (.caller 0) .graceful, .look 0]

def deserted : Machine Nat := ((initial 1 1).run? farewell).getD (initial 1 1)

def announced : Machine Nat := (deserted.run? [.recordExit 0]).getD deserted

theorem farewell_announced :
    (deserted.shared.isTerminated = false ∧ deserted.announcements = [] ∧
      deserted.calls[0]?.map Call.stage = some (.dozing ⟨none, 0⟩)) ∧
    announced.shared.isTerminated = true ∧
    (∃ w, (initial 1 1).ExitsLast (farewell ++ [.recordExit 0]) w ∧
      announced.announcements = [(.worker w, .terminated)]) ∧
    ∃ n, announced.step? (.watch 0) = some n ∧
      n.answer? 0 = some (.termination (.ok true)) := by
  have hdeserted : (initial 1 1).run? farewell = some deserted := rfl
  have hannounced : (initial 1 1).run? (farewell ++ [.recordExit 0]) = some announced := rfl
  have hlast := (termination_announced hannounced).2 rfl
  exact ⟨⟨rfl, (termination_announced hdeserted).1 rfl, rfl⟩, rfl, hlast.1,
    hlast.2.2 0 (.caller 1) ⟨none, 0⟩ rfl⟩

end Machine

end Quiesce.Pool
