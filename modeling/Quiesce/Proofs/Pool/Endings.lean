import Quiesce.Proofs.Pool.Conservation

set_option autoImplicit false

/-! Two runs with the same moves but for how tasks end are compared through `blur`, which takes
every panic for a return. -/

namespace Quiesce.Pool

variable {τ : Type}

def Notice.isPanic : Notice → Bool
  | taskPanicked _ => true
  | _ => false

def Move.blur : Move τ → Move τ
  | finish w _ => finish w .returned
  | x => x

namespace Machine

variable {m n : Machine τ} {x : Move τ}

def blur (m : Machine τ) : Machine τ :=
  { m with
    history := { m.history with ended := m.history.ended.map fun e => (e.1, .returned) }
    notices := m.notices.filter fun e => !e.2.isPanic }

@[simp] theorem shared_blur (m : Machine τ) : m.blur.shared = m.shared := rfl

@[simp] theorem capacity_blur (m : Machine τ) : m.blur.capacity = m.capacity := rfl

@[simp] theorem workers_blur (m : Machine τ) : m.blur.workers = m.workers := rfl

@[simp] theorem calls_blur (m : Machine τ) : m.blur.calls = m.calls := rfl

theorem filter_noted (es : List (Actor × Notice)) (e : Actor × Notice) (he : e.2.isPanic = false) :
    (es ++ [e]).filter (fun e => !e.2.isPanic) = es.filter (fun e => !e.2.isPanic) ++ [e] := by
  rw [List.filter_append, List.filter_cons_of_pos (by rw [he]; rfl), List.filter_nil]

theorem onceOpen_blur (m n : Machine τ) : m.blur.onceOpen n.blur = (m.onceOpen n).map blur :=
  (apply_ite (Option.map blur) (m.isOpen = true) (some n) none).symm

theorem openPool_blur (m : Machine τ) : m.blur.openPool = m.openPool.map blur := by
  unfold openPool
  rw [apply_ite (Option.map blur), Option.map_some]
  simp only [blur, filter_noted m.notices (.caller 0, .started m.workers.length m.capacity) rfl]
  rfl

theorem look_blur (m : Machine τ) (w : Nat) : m.blur.look w = (m.look w).map blur := by
  unfold look
  rw [workers_blur, shared_blur]
  split
  · cases m.shared.find <;> rfl
  · rfl

theorem finish_blur (m : Machine τ) (w : Nat) (how : TaskEnd) :
    m.blur.finish w .returned = (m.finish w how).map blur := by
  unfold finish
  rw [workers_blur]
  split
  · cases how <;> simp [blur, Notice.isPanic]
  · rfl

theorem recordExit_blur (m : Machine τ) (w : Nat) :
    m.blur.recordExit w = (m.recordExit w).map blur := by
  unfold recordExit
  rw [workers_blur]
  split
  · rw [apply_ite (Option.map blur)]
    simp only [Option.map_some, blur, filter_noted m.notices (.worker w, .terminated) rfl]
    rfl
  · rfl

theorem submit_blur (m : Machine τ) (a : Actor) (t : τ) :
    m.blur.submit a t = (m.submit a t).blur := by
  unfold submit
  rw [shared_blur, capacity_blur]
  cases m.shared.submit m.capacity t <;> rfl

theorem nudge_blur (m : Machine τ) (c : Nat) (woken : List Nat) :
    m.blur.nudge c woken = (m.nudge c woken).map blur := by
  unfold nudge
  rw [calls_blur]
  split
  · rw [apply_ite (Option.map blur)]
    rfl
  · rfl

theorem rouse_blur (m : Machine τ) (c : Nat) : m.blur.rouse c = (m.rouse c).map blur := by
  unfold rouse
  rw [calls_blur]
  split
  · rename_i a mode abandoned running _
    simp only [Option.map_some, blur, advance,
      filter_noted m.notices (a, .stopRequested mode abandoned running) rfl]
  · rfl

theorem watch_blur (m : Machine τ) (c : Nat) : m.blur.watch c = (m.watch c).map blur := by
  unfold watch
  rw [calls_blur]
  split
  · rename_i a v _
    have hv : v.judge (m.blur.sight v) = v.judge (m.sight v) := rfl
    rw [hv]
    cases v.judge (m.sight v) <;> rfl
  · rfl

theorem step?_blur (m : Machine τ) (x : Move τ) : m.blur.step? x.blur = (m.step? x).map blur := by
  cases x with
  | countWorker =>
    have hp : m.blur.pendingStart = m.pendingStart := rfl
    have hu : m.blur.unstarted = m.unstarted := rfl
    simp only [step?, Move.blur, countWorker, hp, hu]
    split <;> rfl
  | startWorker =>
    simp only [step?, Move.blur, startWorker]
    rw [apply_ite (Option.map blur)]
    rfl
  | openPool => exact m.openPool_blur
  | look w => exact m.look_blur w
  | finish w how => exact m.finish_blur w how
  | recordExit w => exact m.recordExit_blur w
  | wake w | recordEnd w =>
    simp only [step?, Move.blur, Machine.wake, Machine.recordEnd, workers_blur]
    split <;> rfl
  | submit a t =>
    simp only [step?, Move.blur, submit_blur]
    exact m.onceOpen_blur (m.submit a t)
  | requestStop a mode => exact m.onceOpen_blur (m.requestStop a mode)
  | release a => exact m.onceOpen_blur (m.release a)
  | await a timeout interrupt => exact m.onceOpen_blur (m.await a timeout interrupt)
  | ask a q =>
    have hr : m.blur.reply q = m.reply q := by cases q <;> rfl
    simp only [step?, Move.blur, ask, hr]
    exact m.onceOpen_blur (m.ask a q)
  | nudge c woken => exact m.nudge_blur c woken
  | rouse c => exact m.rouse_blur c
  | watch c => exact m.watch_blur c
  | cancelTasks c | stopReleased c | stir c =>
    simp only [step?, Move.blur, Machine.cancelTasks, Machine.stopReleased, Machine.stir,
      calls_blur]
    split <;> rfl
  | fire i => rfl
  | elapse k => rfl

theorem run?_blur (m : Machine τ) (moves : List (Move τ)) :
    m.blur.run? (moves.map Move.blur) = (m.run? moves).map blur := by
  induction moves generalizing m with
  | nil => rfl
  | cons x rest ih =>
    rw [List.map_cons, run?, run?, step?_blur]
    cases m.step? x with
    | none => rfl
    | some n => exact ih n

/-- Two states with nothing between them but how tasks have ended. -/
structure SameButEnds (m n : Machine τ) : Prop where
  shared : n.shared = m.shared
  cancelled : n.cancelled = m.cancelled
  workers : n.workers = m.workers
  calls : n.calls = m.calls
  ledger : n.ledger = m.ledger
  ended : n.history.ended.map Prod.fst = m.history.ended.map Prod.fst
  notices : n.notices.filter (fun e => !e.2.isPanic) = m.notices.filter fun e => !e.2.isPanic
  rest : n.blur = m.blur

theorem sameButEnds_of_blur (h : n.blur = m.blur) : SameButEnds m n where
  shared := (congrArg Machine.shared h :)
  cancelled := (congrArg Machine.cancelled h :)
  workers := (congrArg Machine.workers h :)
  calls := (congrArg Machine.calls h :)
  ledger := (congrArg Machine.ledger h :)
  ended := by
    have he := congrArg (fun o => o.history.ended.map Prod.fst) h
    simp only [blur, List.map_map] at he
    exact he
  notices := (congrArg Machine.notices h :)
  rest := h

theorem run?_of_blur {moves others : List (Move τ)} (h : m.run? moves = some n)
    (hs : others.map Move.blur = moves.map Move.blur) :
    ∃ o, m.run? others = some o ∧ SameButEnds n o := by
  have hb := m.run?_blur others
  rw [hs, run?_blur, h, Option.map_some] at hb
  obtain ⟨o, ho, he⟩ := Option.map_eq_some_iff.mp hb.symm
  exact ⟨o, ho, sameButEnds_of_blur he⟩

/-- What `f` finds in the moves of a run, each in the state in which it is made. -/
def along {α : Type} (f : Machine τ → Move τ → Option α) (m : Machine τ) : List (Move τ) → List α
  | [] => []
  | x :: rest => (f m x).toList ++ match m.step? x with
    | some n => n.along f rest
    | none => []

def bodyAmong (workers : List (Phase τ)) (w : Nat) : Option τ := (workers.map Phase.body?)[w]?.join

def body? (m : Machine τ) (w : Nat) : Option τ := bodyAmong m.workers w

def start? (m : Machine τ) : Move τ → Option (Nat × τ)
  | .look w =>
    match m.workers[w]?, m.shared.queue with
    | some (.looking _), t :: _ => some (w, t)
    | _, _ => none
  | _ => none

def finish? (m : Machine τ) : Move τ → Option (Nat × τ × TaskEnd)
  | .finish w how => (m.body? w).map fun t => (w, t, how)
  | _ => none

def starts (m : Machine τ) (moves : List (Move τ)) : List (Nat × τ) := m.along start? moves

def ends (m : Machine τ) (moves : List (Move τ)) : List (Nat × τ × TaskEnd) := m.along finish? moves

def panics (ends : List (Nat × τ × TaskEnd)) : List (Actor × Notice) :=
  (ends.filter fun e => e.2.2 = .panicked).map fun e => (.worker e.1, .taskPanicked e.1)

theorem along_blur {α : Type} {f : Machine τ → Move τ → Option α}
    (hf : ∀ (m : Machine τ) (x : Move τ), f m.blur x.blur = f m x) (m : Machine τ)
    (moves : List (Move τ)) : m.blur.along f (moves.map Move.blur) = m.along f moves := by
  induction moves generalizing m with
  | nil => rfl
  | cons x rest ih =>
    rw [List.map_cons, along, along, step?_blur, hf]
    cases m.step? x with
    | none => rfl
    | some n => exact congrArg ((f m x).toList ++ ·) (ih n)

theorem start?_blur (m : Machine τ) (x : Move τ) : m.blur.start? x.blur = m.start? x := by
  cases x <;> rfl

theorem starts_of_blur {moves others : List (Move τ)}
    (hs : others.map Move.blur = moves.map Move.blur) (m : Machine τ) :
    m.starts others = m.starts moves := by
  rw [starts, starts, ← along_blur start?_blur, hs, along_blur start?_blur]

theorem eq_append_along {α β : Type} {f : Machine τ → Move τ → Option α}
    {told : Machine τ → List β} {say : List α → List β} (nil : say [] = [])
    (append : ∀ xs ys, say (xs ++ ys) = say xs ++ say ys)
    (hs : ∀ {m n x}, Step m x n → told n = told m ++ say (f m x).toList) {moves : List (Move τ)}
    (h : m.run? moves = some n) : told n = told m ++ say (m.along f moves) := by
  induction moves generalizing m with
  | nil =>
    obtain rfl := Option.some.inj h
    rw [along, nil, List.append_nil]
  | cons x rest ih =>
    obtain ⟨o, hx, ho, hr⟩ := run?_cons.mp h
    rw [ih hr, hs hx, along, ho, append, List.append_assoc]

theorem bodyAmong_eq {workers : List (Phase τ)} {w : Nat} {p : Phase τ}
    (hw : workers[w]? = some p) : bodyAmong workers w = p.body? := by
  rw [bodyAmong, List.getElem?_map, hw]
  rfl

theorem start?_of_take {w : Nat} {roused : Bool} {t : τ} {rest : List τ}
    (hw : m.workers[w]? = some (.looking roused)) (hq : m.shared.queue = t :: rest) :
    m.start? (.look w) = some (w, t) := by
  simp only [start?, hw, hq]

theorem start?_of_empty (hq : m.shared.queue = []) (w : Nat) : m.start? (.look w) = none := by
  simp only [start?, hq]
  cases m.workers[w]? with
  | none => rfl
  | some p => cases p <;> rfl

theorem started_step (h : Step m x n) :
    n.history.started = m.history.started ++ (m.start? x).toList.map Prod.snd := by
  cases h with
  | take hw hq =>
    rw [start?_of_take hw hq]
    rfl
  | leave hw hq | park hw hq =>
    rw [start?_of_empty hq]
    exact (List.append_nil _).symm
  | _ => exact (List.append_nil _).symm

theorem ended_step (h : Step m x n) :
    n.history.ended = m.history.ended ++ (m.finish? x).toList.map Prod.snd := by
  cases h with
  | finish hw =>
    rw [finish?, body?, bodyAmong_eq hw]
    rfl
  | _ => exact (List.append_nil _).symm

theorem panics_step (h : Step m x n) :
    n.notices.filter (fun e => e.2.isPanic) =
      m.notices.filter (fun e => e.2.isPanic) ++ panics (m.finish? x).toList := by
  cases h with
  | @finish w t how hw =>
    rw [finish?, body?, bodyAmong_eq hw]
    cases how <;> simp [panics, Phase.body?, Notice.isPanic]
  | openPool | lastExit | rouse => simp [panics, finish?, Notice.isPanic]
  | _ => exact (List.append_nil _).symm

def tasksOf (w : Nat) (deeds : List (Nat × τ)) : List τ :=
  (deeds.filter fun e => e.1 = w).map Prod.snd

theorem bodyAmong_set {workers : List (Phase τ)} {i : Nat} {p : Phase τ} (hi : workers[i]? = some p)
    (q : Phase τ) (w : Nat) :
    bodyAmong (workers.set i q) w = if i = w then q.body? else bodyAmong workers w := by
  obtain ⟨hlt, -⟩ := List.getElem?_eq_some_iff.mp hi
  rw [bodyAmong, List.map_set, List.getElem?_set, List.length_map, if_pos hlt,
    apply_ite Option.join]
  rfl

theorem bodyAmong_set_idle {workers : List (Phase τ)} {i : Nat} {p q : Phase τ}
    (hi : workers[i]? = some p) (hp : p.body? = none) (hq : q.body? = none) (w : Nat) :
    bodyAmong (workers.set i q) w = bodyAmong workers w := by
  rw [bodyAmong_set hi, hq]
  split
  · rename_i hw
    rw [← hw, bodyAmong_eq hi, hp]
  · rfl

theorem bodyAmong_of_map {workers others : List (Phase τ)}
    (h : others.map Phase.body? = workers.map Phase.body?) (w : Nat) :
    bodyAmong others w = bodyAmong workers w := by
  rw [bodyAmong, bodyAmong, h]

theorem bodyAmong_append_looking (workers : List (Phase τ)) (roused : Bool) (w : Nat) :
    bodyAmong (workers ++ [.looking roused]) w = bodyAmong workers w := by
  rw [bodyAmong, bodyAmong, List.map_append, List.getElem?_append]
  split
  · rfl
  · have hnone : (workers.map Phase.body?)[w]? = none := List.getElem?_eq_none (by omega)
    rw [hnone]
    cases w - (workers.map Phase.body?).length <;> rfl

theorem ran_step (h : Step m x n) (w : Nat) :
    (m.body? w).toList ++ tasksOf w (m.start? x).toList =
      tasksOf w ((m.finish? x).toList.map fun e => (e.1, e.2.1)) ++ (n.body? w).toList := by
  have still : m.start? x = none → m.finish? x = none →
      bodyAmong n.workers w = bodyAmong m.workers w →
      (m.body? w).toList ++ tasksOf w (m.start? x).toList =
        tasksOf w ((m.finish? x).toList.map fun e => (e.1, e.2.1)) ++ (n.body? w).toList := by
    intro hs he hb
    rw [hs, he, body?, body?, hb]
    exact List.append_nil _
  cases h with
  | @take i roused t rest hi hq =>
    have he : m.finish? (.look i) = none := rfl
    rw [start?_of_take hi hq, he, body?, body?, bodyAmong_set hi]
    by_cases hw : i = w
    · subst hw
      simp [bodyAmong_eq hi, tasksOf, Phase.body?]
    · simp [tasksOf, hw]
  | @finish i t how hi =>
    have hs : m.start? (.finish i how) = none := rfl
    rw [hs, finish?, body?, body?, body?, bodyAmong_eq hi, bodyAmong_set hi]
    by_cases hw : i = w
    · subst hw
      simp [bodyAmong_eq hi, tasksOf, Phase.body?]
    · simp [tasksOf, hw, Phase.body?]
  | leave hi hq | park hi hq =>
    exact still (start?_of_empty hq _) rfl (bodyAmong_set_idle hi rfl rfl w)
  | wake hi | recordEnd hi | exit hi | lastExit hi =>
    exact still rfl rfl (bodyAmong_set_idle hi rfl rfl w)
  | startWorker => exact still rfl rfl (bodyAmong_append_looking m.workers true w)
  | nudge => exact still rfl rfl (bodyAmong_of_map (map_wakeAmong _ _ _ Phase.body?_wake) w)
  | rouse =>
    refine still rfl rfl (bodyAmong_of_map ?_ w)
    rw [List.map_map]
    exact congrArg (m.workers.map ·) (funext Phase.body?_wake)
  | _ => exact still rfl rfl rfl

theorem tasksOf_append (w : Nat) (xs ys : List (Nat × τ)) :
    tasksOf w (xs ++ ys) = tasksOf w xs ++ tasksOf w ys := by
  simp only [tasksOf, List.filter_append, List.map_append]

theorem ran_run {moves : List (Move τ)} (h : m.run? moves = some n) (w : Nat) :
    (m.body? w).toList ++ tasksOf w (m.starts moves) =
      tasksOf w ((m.ends moves).map fun e => (e.1, e.2.1)) ++ (n.body? w).toList := by
  induction moves generalizing m with
  | nil =>
    obtain rfl := Option.some.inj h
    exact List.append_nil _
  | cons x rest ih =>
    obtain ⟨o, hs, ho, hr⟩ := run?_cons.mp h
    have hstarts : m.starts (x :: rest) = (m.start? x).toList ++ o.starts rest := by
      rw [starts, along, ho]
      rfl
    have hends : m.ends (x :: rest) = (m.finish? x).toList ++ o.ends rest := by
      rw [ends, along, ho]
      rfl
    rw [hstarts, hends, List.map_append, tasksOf_append, tasksOf_append, List.append_assoc, ← ih hr,
      ← List.append_assoc, ran_step hs w, List.append_assoc]

/-- What a run that leads to `n` says of the tasks that have ended. -/
structure Told (moves : List (Move τ)) (m n : Machine τ) : Prop where
  started : n.history.started = m.history.started ++ (m.starts moves).map Prod.snd
  ended : n.history.ended = m.history.ended ++ (m.ends moves).map Prod.snd
  panics : n.notices.filter (fun e => e.2.isPanic) =
    m.notices.filter (fun e => e.2.isPanic) ++ panics (m.ends moves)
  ran : ∀ w, (m.body? w).toList ++ tasksOf w (m.starts moves) =
    tasksOf w ((m.ends moves).map fun e => (e.1, e.2.1)) ++ (n.body? w).toList

theorem told_of_run {moves : List (Move τ)} (h : m.run? moves = some n) : Told moves m n where
  started := eq_append_along rfl (fun _ _ => List.map_append) started_step h
  ended := eq_append_along rfl (fun _ _ => List.map_append) ended_step h
  panics := by
    refine eq_append_along rfl (fun xs ys => ?_) panics_step h
    rw [Machine.panics, List.filter_append, List.map_append]
    rfl
  ran := ran_run h

/-- Let the tasks of a run end otherwise than they did, each as it may. The run is possible all the
same. It goes through the same states but for how tasks have ended, and each worker starts the same
tasks in the same order. What is noted differs in the panics alone, and either run notes its own. -/
theorem ends_indistinct {workers capacity : Nat} {moves others : List (Move τ)}
    (h : (initial workers capacity).run? moves = some m)
    (hs : others.map Move.blur = moves.map Move.blur) :
    Told moves (initial workers capacity) m ∧
    (∃ n, (initial workers capacity).run? others = some n ∧
      Told others (initial workers capacity) n ∧ SameButEnds m n) ∧
    (initial workers capacity : Machine τ).starts others =
      (initial workers capacity).starts moves ∧
    ∀ k, ∃ n o, (initial workers capacity).run? (moves.take k) = some n ∧
      (initial workers capacity).run? (others.take k) = some o ∧ SameButEnds n o := by
  obtain ⟨n, hn, hsame⟩ := run?_of_blur h hs
  refine ⟨told_of_run h, ⟨n, hn, told_of_run hn, hsame⟩, starts_of_blur hs _, ?_⟩
  intro k
  have hsplit := run?_append (initial workers capacity) (moves.take k) (moves.drop k)
  rw [List.take_append_drop, h] at hsplit
  obtain ⟨o, ho, -⟩ := Option.bind_eq_some_iff.mp hsplit.symm
  have htake : (others.take k).map Move.blur = (moves.take k).map Move.blur := by
    rw [List.map_take, List.map_take, hs]
  obtain ⟨p, hp, hop⟩ := run?_of_blur ho htake
  exact ⟨o, p, ho, hp, hop⟩

def unrest (first second : TaskEnd) : List (Move Nat) :=
  [.countWorker, .startWorker, .countWorker, .startWorker, .openPool,
    .submit (.caller 0) 10, .look 1, .nudge 0 [], .submit (.caller 0) 20, .look 0, .nudge 1 [],
    .submit (.caller 0) 30, .nudge 2 [], .requestStop (.caller 1) .forced, .finish 0 first,
    .submit (.worker 1) 40, .finish 1 second, .cancelTasks 3, .recordEnd 1, .rouse 3, .recordEnd 0,
    .look 0, .look 1, .recordExit 1, .recordExit 0]

theorem unrest_indistinct : ∃ m n, (initial 2 8).run? (unrest .returned .panicked) = some m ∧
    (initial 2 8).run? (unrest .panicked .panicked) = some n ∧
    m.notices = [(.caller 0, .started 2 8), (.worker 1, .taskPanicked 1),
      (.caller 1, .stopRequested .forced 1 2), (.worker 0, .terminated)] ∧
    n.notices.filter (fun e => e.2.isPanic) =
      [(.worker 0, .taskPanicked 0), (.worker 1, .taskPanicked 1)] ∧
    n.calls = m.calls ∧ n.history.started = [10, 20] ∧
    SameButEnds m n := by
  have hv : ((initial 2 8).run? (unrest .returned .panicked)).map Machine.notices =
      some [(.caller 0, .started 2 8), (.worker 1, .taskPanicked 1),
        (.caller 1, .stopRequested .forced 1 2), (.worker 0, .terminated)] := rfl
  have hblur : (unrest .panicked .panicked).map Move.blur =
      (unrest .returned .panicked).map Move.blur := rfl
  obtain ⟨m, hm, hnotices⟩ := Option.map_eq_some_iff.mp hv
  obtain ⟨-, ⟨n, hn, htold, hsame⟩, hstarts, -⟩ := ends_indistinct hm hblur
  refine ⟨m, n, hm, hn, hnotices, ?_, hsame.calls, ?_, hsame⟩
  · rw [htold.panics]
    rfl
  · rw [htold.started, hstarts]
    rfl

end Machine

end Quiesce.Pool
