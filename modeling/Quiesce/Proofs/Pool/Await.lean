import Quiesce.Proofs.Pool.Announcement

set_option autoImplicit false

namespace Quiesce.Pool

namespace Sight

def verdict (s : Sight) : Except Interrupted Bool :=
  if s.terminated then .ok true else if s.interrupted then .error .interrupted else .ok false

def Late (start : Instant) (timeout : Duration) (s : Sight) : Prop :=
  start + timeout.nanos < Instant.horizon ∧ start + timeout.nanos ≤ s.now

def Decisive (start : Instant) (timeout : Duration) (s : Sight) : Prop :=
  s.terminated = true ∨ s.interrupted = true ∨ s.Late start timeout

instance (start : Instant) (timeout : Duration) (s : Sight) :
    Decidable (s.Decisive start timeout) :=
  inferInstanceAs (Decidable (_ ∨ _ ∨ _ ∧ _))

theorem verdict_eq_timedOut {s : Sight} :
    s.verdict = .ok false ↔ s.terminated = false ∧ s.interrupted = false := by
  obtain ⟨now, terminated, interrupted⟩ := s
  cases terminated <;> cases interrupted <;> simp [verdict]

end Sight

namespace Vigil

variable {start : Instant} {timeout : Duration} {interrupt : Nat} {s : Sight} {sights : List Sight}

structure Slice (start : Instant) (timeout : Duration) (now : Instant) (slice : Duration) :
    Prop where
  positive : 0 < slice.nanos
  poll : slice.nanos ≤ pollInterval.nanos
  limited : start + timeout.nanos < Instant.horizon →
    slice.nanos = min (Deadline.remaining (start + timeout.nanos) now) pollInterval.nanos ∧
      now + Deadline.remaining (start + timeout.nanos) now = start + timeout.nanos ∧
      Deadline.remaining (start + timeout.nanos) now ≤ Duration.max.nanos

theorem deadline_start (h : start + timeout.nanos < Instant.horizon) :
    (Vigil.start start timeout interrupt).deadline = some (start + timeout.nanos) :=
  Deadline.after_eq_some_iff.mpr ⟨h, rfl⟩

theorem judge_of_decisive (h : s.Decisive start timeout) :
    (Vigil.start start timeout interrupt).judge s = .answer s.verdict := by
  unfold judge Sight.verdict
  by_cases ht : s.terminated = true
  · rw [if_pos ht, if_pos ht]
  · by_cases hi : s.interrupted = true
    · rw [if_neg ht, if_neg ht, if_pos hi, if_pos hi]
    · obtain ⟨hlt, hle⟩ := (h.resolve_left ht).resolve_left hi
      rw [if_neg ht, if_neg ht, if_neg hi, if_neg hi, deadline_start hlt]
      exact if_pos hle

theorem slice_of_early (hlt : start + timeout.nanos < Instant.horizon)
    (hnow : s.now < start + timeout.nanos) :
    Slice start timeout s.now
      ⟨min (Deadline.remaining (start + timeout.nanos) s.now) pollInterval.nanos⟩ := by
  have hmax : Instant.horizon ≤ Duration.max.nanos := by decide
  have hpoll : 0 < pollInterval.nanos := by decide
  have hpos : 0 < Deadline.remaining (start + timeout.nanos) s.now := Nat.sub_pos_of_lt hnow
  have hle : Deadline.remaining (start + timeout.nanos) s.now ≤ start + timeout.nanos :=
    Nat.sub_le _ _
  exact {
    positive := Nat.lt_min.mpr ⟨hpos, hpoll⟩
    poll := Nat.min_le_right _ _
    limited := fun _ => ⟨rfl, Nat.add_sub_of_le (Nat.le_of_lt hnow),
      Nat.le_trans hle (Nat.le_trans (Nat.le_of_lt hlt) hmax)⟩ }

theorem judge_of_not_decisive (interrupt : Nat) (h : ¬ s.Decisive start timeout) :
    ∃ slice, (Vigil.start start timeout interrupt).judge s = .park slice ∧
      Slice start timeout s.now slice := by
  have ht : ¬ s.terminated = true := fun ht => h (.inl ht)
  have hi : ¬ s.interrupted = true := fun hi => h (.inr (.inl hi))
  unfold judge
  rw [if_neg ht, if_neg hi]
  by_cases hlt : start + timeout.nanos < Instant.horizon
  · have hnow : s.now < start + timeout.nanos :=
      Nat.lt_of_not_le fun hle => h (.inr (.inr ⟨hlt, hle⟩))
    rw [deadline_start hlt]
    exact ⟨_, if_neg (Nat.not_le_of_lt hnow), slice_of_early hlt hnow⟩
  · have hd : (Vigil.start start timeout interrupt).deadline = none := if_neg hlt
    rw [hd]
    exact ⟨pollInterval, rfl, by decide, Nat.le_refl _, fun h => absurd h hlt⟩

theorem answer_eq_find? (sights : List Sight) :
    (Vigil.start start timeout interrupt).answer sights =
      (sights.find? fun s => decide (s.Decisive start timeout)).map Sight.verdict := by
  induction sights with
  | nil => rfl
  | cons s rest ih =>
    rw [answer, List.find?_cons]
    by_cases h : s.Decisive start timeout
    · rw [judge_of_decisive h, decide_eq_true h]
      rfl
    · obtain ⟨slice, hj, -⟩ := judge_of_not_decisive interrupt h
      rw [hj, decide_eq_false h]
      exact ih

def DecidedBy (start : Instant) (timeout : Duration) (sights : List Sight) (s : Sight) : Prop :=
  s.Decisive start timeout ∧ ∃ before after, sights = before ++ s :: after ∧
    ∀ e ∈ before, ¬ e.Decisive start timeout

theorem decidedBy_iff :
    DecidedBy start timeout sights s ↔
      (sights.find? fun s => decide (s.Decisive start timeout)) = some s := by
  rw [List.find?_eq_some_iff_append]
  simp [DecidedBy]

theorem answer_eq_some_iff {r : Except Interrupted Bool} :
    (Vigil.start start timeout interrupt).answer sights = some r ↔
      ∃ s, DecidedBy start timeout sights s ∧ s.verdict = r := by
  rw [answer_eq_find?, Option.map_eq_some_iff]
  simp only [decidedBy_iff]

theorem answer_eq_none_iff :
    (Vigil.start start timeout interrupt).answer sights = none ↔
      ∀ s ∈ sights, ¬ s.Decisive start timeout := by
  rw [answer_eq_find?, Option.map_eq_none_iff, List.find?_eq_none]
  simp

theorem answer_append {before : List Sight} {r : Except Interrupted Bool}
    (h : (Vigil.start start timeout interrupt).answer before = some r) (after : List Sight) :
    (Vigil.start start timeout interrupt).answer (before ++ after) = some r := by
  rw [answer_eq_find?] at h ⊢
  obtain ⟨s, hs, hr⟩ := Option.map_eq_some_iff.mp h
  rw [List.find?_append, hs]
  exact congrArg some hr

/-- How a wait that begins at `start` goes when its turns see `sights`. -/
structure Judged (start : Instant) (timeout : Duration) (interrupt : Nat) (sights : List Sight) :
    Prop where
  decides : ∀ r : Except Interrupted Bool,
    (Vigil.start start timeout interrupt).answer sights = some r ↔
      ∃ s, DecidedBy start timeout sights s ∧ s.verdict = r
  undecided : (Vigil.start start timeout interrupt).answer sights = none ↔
    ∀ s ∈ sights, ¬ s.Decisive start timeout
  timedOut : (Vigil.start start timeout interrupt).answer sights = some (.ok false) →
    ∃ s, DecidedBy start timeout sights s ∧ s.terminated = false ∧ s.interrupted = false ∧
      start + timeout.nanos < Instant.horizon ∧ start + timeout.nanos ≤ s.now
  byDeadline : ∀ (before : List Sight) (s : Sight) (after : List Sight),
    sights = before ++ s :: after → s.Late start timeout →
    ∃ r, (Vigil.start start timeout interrupt).answer (before ++ [s]) = some r ∧
      (Vigil.start start timeout interrupt).answer sights = some r
  parks : ∀ s ∈ sights, ¬ s.Decisive start timeout →
    ∃ slice, (Vigil.start start timeout interrupt).judge s = .park slice ∧
      Slice start timeout s.now slice

theorem answer_of_late (interrupt : Nat) (before : List Sight) (h : s.Late start timeout) :
    ∃ r, (Vigil.start start timeout interrupt).answer (before ++ [s]) = some r := by
  refine Option.ne_none_iff_exists'.mp fun hn => ?_
  have hnot := answer_eq_none_iff.mp hn s (List.mem_append_right _ (.head _))
  exact hnot (.inr (.inr h))

theorem judged (start : Instant) (timeout : Duration) (interrupt : Nat) (sights : List Sight) :
    Judged start timeout interrupt sights where
  decides _ := answer_eq_some_iff
  undecided := answer_eq_none_iff
  timedOut h := by
    obtain ⟨s, hs, hv⟩ := answer_eq_some_iff.mp h
    obtain ⟨ht, hi⟩ := Sight.verdict_eq_timedOut.mp hv
    have hlate : s.Late start timeout := by simpa [Sight.Decisive, ht, hi] using hs.1
    exact ⟨s, hs, ht, hi, hlate⟩
  byDeadline before s after he hlate := by
    obtain ⟨r, hr⟩ := answer_of_late interrupt before hlate
    refine ⟨r, hr, ?_⟩
    have happ := answer_append hr after
    rw [List.append_assoc] at happ
    rw [he]
    exact happ
  parks _ _ h := judge_of_not_decisive interrupt h

end Vigil

variable {τ : Type}

def Move.looks (c : Nat) : Move τ → Bool
  | watch d => d == c
  | _ => false

namespace Stage

inductive Awaits (v : Vigil) : Stage → Prop where
  | watching : Awaits v (.watching v)
  | dozing : Awaits v (.dozing v)

theorem Awaits.stir {v : Vigil} {s : Stage} (h : s.Awaits v) : s.stir.Awaits v := by
  cases h <;> exact .watching

theorem Awaits.answer? {v : Vigil} {s : Stage} (h : s.Awaits v) : s.answer? = none := by
  cases h <;> rfl

end Stage

namespace Machine

variable {m n : Machine τ} {x : Move τ} {c : Nat} {v : Vigil}

def sights (c : Nat) (v : Vigil) : Machine τ → List (Move τ) → List Sight
  | _, [] => []
  | m, x :: rest =>
    (if x.looks c then [m.sight v] else []) ++
      match m.step? x with
      | some n => n.sights c v rest
      | none => []

theorem sights_cons (rest : List (Move τ)) : m.sights c v (x :: rest) =
    (if x.looks c then [m.sight v] else []) ++
      (m.step? x).elim [] fun n => n.sights c v rest := by
  rw [sights]
  cases m.step? x <;> rfl

theorem looks_eq_true {x : Move τ} : x.looks c = true ↔ x = .watch c := by
  cases x with
  | watch d => exact beq_iff_eq.trans (by rw [Move.watch.injEq])
  | _ => exact ⟨nofun, nofun⟩

/-- The `j`th sight of the call `c` is `s`: it has looked `j` times when it looks at a pool that
shows `s`. -/
def Shows (c : Nat) (v : Vigil) (m : Machine τ) (moves : List (Move τ)) (j : Nat) (s : Sight) :
    Prop :=
  ∃ before after o, moves = before ++ .watch c :: after ∧ before.countP (Move.looks c) = j ∧
    m.run? before = some o ∧ s.now = o.now ∧ s.terminated = o.shared.isTerminated ∧
    (s.interrupted = true ↔ v.interrupt ∈ o.fired)

theorem shows_cons {rest : List (Move τ)} {j : Nat} {s : Sight} :
    Shows c v m (x :: rest) j s ↔
      (x = .watch c ∧ j = 0 ∧ m.sight v = s) ∨
      ∃ n i, m.step? x = some n ∧ Shows c v n rest i s ∧ j = i + if x.looks c then 1 else 0 := by
  constructor
  · rintro ⟨_ | ⟨y, before⟩, after, o, he, hj, hr, hs⟩
    · obtain ⟨rfl, -⟩ := List.cons.inj he
      obtain rfl := Option.some.inj hr
      exact .inl ⟨rfl, hj.symm, sight_eq_iff.mpr hs⟩
    · obtain ⟨rfl, rfl⟩ := List.cons.inj he
      obtain ⟨n, hn, hr⟩ := Option.bind_eq_some_iff.mp hr
      exact .inr ⟨n, _, hn, ⟨before, after, o, rfl, rfl, hr, hs⟩, hj ▸ List.countP_cons⟩
  · rintro (⟨rfl, rfl, hs⟩ | ⟨n, i, hn, ⟨before, after, o, rfl, rfl, hr, hs⟩, rfl⟩)
    · exact ⟨[], rest, m, rfl, rfl, rfl, sight_eq_iff.mp hs⟩
    · exact ⟨x :: before, after, o, rfl, List.countP_cons, runs.cons_eq_some.mpr ⟨n, hn, hr⟩, hs⟩

theorem getElem?_sights {moves : List (Move τ)} {j : Nat} {s : Sight} :
    (m.sights c v moves)[j]? = some s ↔ Shows c v m moves j s := by
  induction moves generalizing m j with
  | nil => simp [sights, Shows]
  | cons x rest ih =>
    have later (i : Nat) : ((m.step? x).elim [] fun n => n.sights c v rest)[i]? = some s ↔
        ∃ n, m.step? x = some n ∧ Shows c v n rest i s := by
      cases m.step? x with
      | none => simp
      | some n => simp [ih]
    rw [shows_cons, sights_cons, ← looks_eq_true]
    by_cases hl : x.looks c = true
    · cases j with
      | zero => simp [hl]
      | succ i => simp [hl, later]
    · simp [hl, later]

def Awaiting (m : Machine τ) (c : Nat) (v : Vigil) : Prop :=
  ∃ k, m.calls[c]? = some k ∧ k.stage.Awaits v

theorem Awaiting.answer? (h : m.Awaiting c v) : m.answer? c = none := by
  obtain ⟨k, hk, hs⟩ := h
  rw [answer?_eq hk]
  exact hs.answer?

inductive Turn (m : Machine τ) (c : Nat) (v : Vigil) : Move τ → Stage → Prop where
  | decided {r : Except Interrupted Bool} : v.judge (m.sight v) = .answer r →
      Turn m c v (.watch c) (.answered (.termination r))
  | parked {slice : Duration} : v.judge (m.sight v) = .park slice →
      Turn m c v (.watch c) (.dozing v)
  | stirred : Turn m c v (.stir c) (.watching v)

theorem Awaiting.turn (ha : m.Awaiting c v) (h : Step m x n) (hx : x.call? = some c) :
    ∃ a s, n = m.advance c a s ∧ m.Turn c v x s := by
  obtain ⟨k, hk, hs⟩ := ha
  cases h with
  | @decide d a w r hd hj =>
    obtain rfl := Option.some.inj hx
    obtain rfl := Option.some.inj (hk.symm.trans hd)
    cases hs
    exact ⟨a, _, rfl, .decided hj⟩
  | @doze d a w slice hd hj =>
    obtain rfl := Option.some.inj hx
    obtain rfl := Option.some.inj (hk.symm.trans hd)
    cases hs
    exact ⟨a, _, rfl, .parked hj⟩
  | @stir d a w hd =>
    obtain rfl := Option.some.inj hx
    obtain rfl := Option.some.inj (hk.symm.trans hd)
    cases hs
    exact ⟨a, _, rfl, .stirred⟩
  | nudge hd _ | cancelTasks hd | rouse hd | stopReleased hd =>
    obtain rfl := Option.some.inj hx
    obtain rfl := Option.some.inj (hk.symm.trans hd)
    exact nomatch hs
  | _ => exact nomatch hx

theorem unanswered_of_own (h : Step m x n) (hx : x.call? = some c) : m.answer? c = none := by
  cases h with
  | nudge hk _ | cancelTasks hk | rouse hk | stopReleased hk | decide hk _ | doze hk _ | stir hk =>
    obtain rfl := Option.some.inj hx
    rw [answer?_eq hk]
    rfl
  | _ => exact nomatch hx

theorem Awaiting.other (ha : m.Awaiting c v) (h : Step m x n) (hx : x.call? ≠ some c) :
    n.Awaiting c v := by
  obtain ⟨k, hk, hs⟩ := ha
  cases h with
  | lastExit =>
    refine ⟨{ k with stage := k.stage.stir }, ?_, hs.stir⟩
    simp only [List.getElem?_map, hk, Option.map_some]
  | accept | refuse | requestStop | release | await | ask =>
    refine ⟨k, ?_, hs⟩
    exact (List.getElem?_append_left (List.getElem?_eq_some_iff.mp hk).1).trans hk
  | nudge | cancelTasks | rouse | stopReleased | decide | doze | stir =>
    refine ⟨k, ?_, hs⟩
    exact (List.getElem?_set_ne fun he => hx (congrArg some he)).trans hk
  | _ => exact ⟨k, hk, hs⟩

theorem Awaiting.advance (ha : m.Awaiting c v) {a : Actor} {s : Stage} (hs : s.Awaits v) :
    (m.advance c a s).Awaiting c v := by
  obtain ⟨k, hk, -⟩ := ha
  exact ⟨⟨a, s⟩, advance_get hk a s, hs⟩

/-- A wait goes on through a move unless the move is its own look at something decisive. -/
theorem Awaiting.step (ha : m.Awaiting c v) (h : Step m x n) :
    n.Awaiting c v ∧ (x.looks c = true → ∃ slice, v.judge (m.sight v) = .park slice) ∨
      x.looks c = true ∧ ∃ r, v.judge (m.sight v) = .answer r ∧
        n.answer? c = some (.termination r) := by
  by_cases hown : x.call? = some c
  · obtain ⟨a, s, rfl, ht⟩ := ha.turn h hown
    cases ht with
    | decided hj =>
      obtain ⟨k, hk, -⟩ := ha
      exact .inr ⟨beq_self_eq_true c, _, hj, answer?_advance hk a _⟩
    | parked hj => exact .inl ⟨ha.advance .dozing, fun _ => ⟨_, hj⟩⟩
    | stirred => exact .inl ⟨ha.advance .watching, nofun⟩
  · refine .inl ⟨ha.other h hown, fun hl => absurd ?_ hown⟩
    cases x with
    | watch d => exact congrArg some (eq_of_beq hl)
    | _ => exact nomatch hl

theorem Awaiting.answer_of_run (ha : m.Awaiting c v) {moves : List (Move τ)}
    (h : m.run? moves = some n) :
    n.answer? c = (v.answer (m.sights c v moves)).map Answer.termination := by
  induction moves generalizing m with
  | nil =>
    obtain rfl := Option.some.inj h
    exact ha.answer?
  | cons x rest ih =>
    obtain ⟨o, hs, hx, hr⟩ := run?_cons.mp h
    rw [sights_cons, hx, Option.elim_some]
    rcases ha.step hs with ⟨ho, hpark⟩ | ⟨hl, r, hj, hb⟩
    · rw [ih ho hr]
      by_cases hl : x.looks c = true
      · obtain ⟨slice, hj⟩ := hpark hl
        simp [hl, Vigil.answer, hj]
      · simp [hl]
    · -- the answer stays, and what the rest would see no longer counts
      rw [answer?_of_reaches ⟨rest, hr⟩ hb]
      simp [hl, Vigil.answer, hj]

theorem awaiting_or_answered (ha : m.Awaiting c v) (h : m.Reaches n) :
    n.Awaiting c v ∨ ∃ b, n.answer? c = some b := by
  refine Reaches.keeps (P := fun o => o.Awaiting c v ∨ ∃ b, o.answer? c = some b) ?_ h (.inl ha)
  rintro o p x hs (hw | ⟨b, hb⟩)
  · rcases hw.step hs with ⟨hp, -⟩ | ⟨-, r, -, hb⟩
    · exact .inl hp
    · exact .inr ⟨_, hb⟩
  · exact .inr ⟨b, answer?_step hs hb⟩

def CanLook (m : Machine τ) (c : Nat) : Prop :=
  ∃ n o, (n = m ∨ m.step? (.stir c) = some n) ∧ n.step? (.watch c) = some o

theorem watch_possible {a : Actor} (hk : m.calls[c]? = some ⟨a, .watching v⟩) :
    ∃ n, m.step? (.watch c) = some n := by
  simp only [step?, watch, hk]
  cases v.judge (m.sight v) with
  | answer r => exact ⟨_, rfl⟩
  | park slice => exact ⟨_, rfl⟩

theorem Awaiting.canLook (ha : m.Awaiting c v) : m.CanLook c := by
  obtain ⟨⟨a, s⟩, hk, hs⟩ := ha
  cases hs with
  | watching =>
    obtain ⟨n, hn⟩ := watch_possible hk
    exact ⟨m, n, .inl rfl, hn⟩
  | dozing =>
    obtain ⟨n, hn⟩ := watch_possible (m := m.advance c a (.watching v)) (advance_get hk a _)
    refine ⟨_, n, .inr ?_, hn⟩
    simp only [step?, stir, hk]

/-- The wait is answered by what its turns have seen, which is what the pool showed then, and can
take another until it is. No move of its own, then or later, changes anything but how far the call
has come. -/
structure Faithful (m : Machine τ) (c : Nat) (v : Vigil) (moves : List (Move τ))
    (n : Machine τ) : Prop where
  seen : ∀ j s, (m.sights c v moves)[j]? = some s ↔ Shows c v m moves j s
  answer : n.answer? c = (v.answer (m.sights c v moves)).map Answer.termination
  goesOn : n.answer? c = none → n.CanLook c
  quiet : ∀ (o p : Machine τ) (x : Move τ), m.Reaches o → x.call? = some c →
    o.step? x = some p → ∃ a s, p = o.advance c a s

theorem Awaiting.faithful (ha : m.Awaiting c v) {moves : List (Move τ)}
    (h : m.run? moves = some n) : Faithful m c v moves n where
  seen _ _ := getElem?_sights
  answer := ha.answer_of_run h
  goesOn hnone := by
    rcases awaiting_or_answered ha ⟨moves, h⟩ with hw | ⟨b, hb⟩
    · exact hw.canLook
    · exact nomatch hb.symm.trans hnone
  quiet o p x ho hown hp := by
    have hs := step_of_step? hp
    rcases awaiting_or_answered ha ho with hw | ⟨b, hb⟩
    · obtain ⟨a, s, he, -⟩ := hw.turn hs hown
      exact ⟨a, s, he⟩
    · exact nomatch hb.symm.trans (unanswered_of_own hs hown)

theorem awaiting_await (a : Actor) (timeout : Duration) (interrupt : Nat) :
    (m.await a timeout interrupt).Awaiting m.calls.length (.start m.now timeout interrupt) :=
  ⟨_, List.getElem?_concat_length, .watching⟩

/-- The answer of a wait for termination, for everything that its turns may see and for every call
on a pool. The call opens in one move, which changes nothing else either. -/
theorem termination_awaited (timeout : Duration) (interrupt : Nat) :
    (∀ (start : Instant) (sights : List Sight),
      Vigil.Judged start timeout interrupt sights) ∧
    ∀ (m n o : Machine τ) (a : Actor) (moves : List (Move τ)),
      m.step? (.await a timeout interrupt) = some n → n.run? moves = some o →
      n = m.begin a (.watching (.start m.now timeout interrupt)) ∧
      Faithful n m.calls.length (.start m.now timeout interrupt) moves o := by
  refine ⟨fun start sights => Vigil.judged start timeout interrupt sights, ?_⟩
  intro m n o a moves hstep hrun
  obtain ⟨-, rfl⟩ := onceOpen_eq_some.mp hstep
  exact ⟨rfl, (awaiting_await a timeout interrupt).faithful hrun⟩

def vigilance : List (Move Nat) :=
  [.watch 0, .stir 0, .elapse 5, .watch 0, .fire 7, .elapse 30000000, .stir 0, .watch 0]

def unoccupied : Machine Nat :=
  ((initial 1 1).run? [.countWorker, .startWorker, .openPool]).getD (initial 1 1)

def waiting : Machine Nat := unoccupied.await (.caller 1) (.ofMillis 20) 7

def disturbed : Machine Nat := (waiting.run? vigilance).getD waiting

theorem vigilance_awaited :
    (∃ s, Vigil.DecidedBy 3 .zero [⟨3, false, false⟩] s ∧ s.terminated = false ∧
      s.interrupted = false ∧ 3 < Instant.horizon ∧ 3 ≤ s.now) ∧
    (Vigil.start 3 .max 7).answer [⟨Instant.horizon, false, false⟩] = none ∧
    unoccupied.step? (.await (.caller 1) (.ofMillis 20) 7) = some waiting ∧
    waiting.run? vigilance = some disturbed ∧
    Faithful waiting 0 (.start 0 (.ofMillis 20) 7) vigilance disturbed ∧
    disturbed.answer? 0 = some (.termination (.error .interrupted)) := by
  have hstep : unoccupied.step? (.await (.caller 1) (.ofMillis 20) 7) = some waiting := rfl
  have hrun : waiting.run? vigilance = some disturbed := rfl
  have hzero := (termination_awaited (τ := Nat) .zero 7).1 3 [⟨3, false, false⟩]
  have hmax := (termination_awaited (τ := Nat) .max 7).1 3 [⟨Instant.horizon, false, false⟩]
  have hseen := (termination_awaited (.ofMillis 20) 7).2 _ _ _ _ _ hstep hrun
  refine ⟨hzero.timedOut rfl, hmax.undecided.mpr ?_, hstep, hrun, hseen.2, rfl⟩
  decide

end Machine

end Quiesce.Pool
