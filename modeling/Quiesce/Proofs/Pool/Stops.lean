import Quiesce.Proofs.Pool.Answers

set_option autoImplicit false

/-! Stop requests at the same time come to the same as one after the other: the first to take the
lock takes the queue, and the rest finds nothing to take. -/

namespace Quiesce

namespace StopMode

def join : StopMode → StopMode → StopMode
  | graceful, mode => mode
  | forced, _ => forced

def strongest (modes : List StopMode) : StopMode :=
  if modes.any isForced then forced else graceful

theorem strongest_cons (mode : StopMode) (modes : List StopMode) :
    strongest (mode :: modes) = mode.join (strongest modes) := by
  cases mode <;> simp [strongest, join, isForced]

theorem any_isForced {modes : List StopMode} : modes.any isForced = true ↔ forced ∈ modes := by
  rw [List.any_eq_true]
  constructor
  · rintro ⟨mode, hm, hf⟩
    cases mode with
    | graceful => exact absurd hf Bool.false_ne_true
    | forced => exact hm
  · exact fun hm => ⟨forced, hm, rfl⟩

end StopMode

namespace Pool

variable {τ : Type}

def Move.mode? : Move τ → Option StopMode
  | requestStop _ mode => some mode
  | _ => none

def Move.stopsAfter (older : Nat) : Move τ → Bool
  | requestStop _ _ => true
  | cancelTasks c => older ≤ c
  | rouse c => older ≤ c
  | _ => false

/-- How far a stop request in this mode has come, if it has taken effect and has done what it says
of the token and of the workers. -/
inductive Stage.Stops (cancelled woken : Prop) : StopMode → Stage → Prop where
  | cancelling (abandoned running : Nat) :
      Stops cancelled woken .forced (.cancelling abandoned running)
  | rousing {mode : StopMode} (abandoned running : Nat) : (mode = .forced → cancelled) →
      Stops cancelled woken mode (.rousing mode abandoned running)
  | answered {mode : StopMode} (a : Answer) : (mode = .forced → cancelled) → woken →
      Stops cancelled woken mode (.answered a)

theorem Stage.Stops.mono {cancelled cancelled' woken woken' : Prop} {mode : StopMode} {s : Stage}
    (h : s.Stops cancelled woken mode) (hc : cancelled → cancelled') (hw : woken → woken') :
    s.Stops cancelled' woken' mode := by
  cases h with
  | cancelling abandoned running => exact .cancelling abandoned running
  | rousing abandoned running hf => exact .rousing abandoned running fun he => hc (hf he)
  | answered a hf hr => exact .answered a (fun he => hc (hf he)) (hw hr)

@[simp] theorem Phase.wake_wake (p : Phase τ) : p.wake.wake = p.wake := by cases p <;> rfl

namespace Machine

variable {m n o : Machine τ} {x : Move τ} {mode : StopMode} {modes : List StopMode} {a : Actor}
  {c older : Nat}

def stopWithAll (m : Machine τ) (modes : List StopMode) : Machine τ := modes.foldl stopWith m

theorem stopWith_stopWith (m : Machine τ) (mode mode' : StopMode) :
    (m.stopWith mode).stopWith mode' = m.stopWith (mode.join mode') := by
  cases mode <;> cases mode' <;> simp [stopWith, Shared.stop, Shared.discarded, StopMode.join]

theorem stopWithAll_eq (m : Machine τ) (hne : modes ≠ []) :
    m.stopWithAll modes = m.stopWith (.strongest modes) := by
  induction modes generalizing m with
  | nil => exact absurd rfl hne
  | cons mode rest ih =>
    rw [StopMode.strongest_cons]
    cases rest with
    | nil => cases mode <;> rfl
    | cons mode' rest =>
      calc
        m.stopWithAll (mode :: mode' :: rest) = (m.stopWith mode).stopWithAll (mode' :: rest) := rfl
        _ = (m.stopWith mode).stopWith (.strongest (mode' :: rest)) := ih _ (List.cons_ne_nil _ _)
        _ = m.stopWith (mode.join (.strongest (mode' :: rest))) := stopWith_stopWith _ _ _

def upTo (older : Nat) (m : Machine τ) : Machine τ :=
  { m with calls := m.calls.take older, notices := [] }

def core (older : Nat) (m : Machine τ) : Machine τ :=
  { m.upTo older with cancelled := false, workers := [] }

theorem upTo_eq_of_core (h : n.core older = m.core older) (hc : n.cancelled = m.cancelled)
    (hw : n.workers = m.workers) : n.upTo older = m.upTo older := by
  obtain ⟨_, _, _, _, _, _, _, _, _, _, _, _⟩ := n
  obtain ⟨_, _, _, _, _, _, _, _, _, _, _, _⟩ := m
  simp_all [core, upTo]

/-- Since `m`, stop requests in these modes have been made and have come to `o`, with no other
move. -/
structure Stopping (m : Machine τ) (modes : List StopMode) (o : Machine τ) : Prop where
  core : o.core m.calls.length = (m.stopWithAll modes).core m.calls.length
  length : o.calls.length = m.calls.length + modes.length
  kept : m.cancelled = true → o.cancelled = true
  cancelled : o.cancelled = true → m.cancelled = true ∨ .forced ∈ modes
  workers : o.workers = m.workers ∨ modes ≠ [] ∧ o.workers = m.workers.map Phase.wake
  calls : ∀ (i : Nat) (mode : StopMode), modes[i]? = some mode →
    ∃ k, o.calls[m.calls.length + i]? = some k ∧
      k.stage.Stops (o.cancelled = true) (o.workers = m.workers.map Phase.wake) mode

theorem Stopping.refl (m : Machine τ) : Stopping m [] m :=
  ⟨rfl, rfl, id, .inl, .inl rfl, nofun⟩

theorem Stopping.call (h : Stopping m modes o) {k : Call} (hk : o.calls[c]? = some k)
    (hc : m.calls.length ≤ c) : ∃ i mode, c = m.calls.length + i ∧ modes[i]? = some mode ∧
      k.stage.Stops (o.cancelled = true) (o.workers = m.workers.map Phase.wake) mode := by
  obtain ⟨hlt, -⟩ := List.getElem?_eq_some_iff.mp hk
  rw [h.length] at hlt
  have hi : c - m.calls.length < modes.length := by omega
  have hmode := List.getElem?_eq_getElem hi
  obtain ⟨k', hk', hs⟩ := h.calls _ _ hmode
  rw [Nat.add_sub_cancel' hc] at hk'
  obtain rfl := Option.some.inj (hk.symm.trans hk')
  exact ⟨_, _, (Nat.add_sub_cancel' hc).symm, hmode, hs⟩

theorem Stopping.request (h : Stopping m modes o) (a : Actor) (mode : StopMode) :
    Stopping m (modes ++ [mode]) (o.requestStop a mode) := by
  have hle : m.calls.length ≤ o.calls.length := by
    rw [h.length]
    exact Nat.le_add_right _ _
  refine ⟨?_, ?_, h.kept, ?_, ?_, ?_⟩
  · calc
      (o.requestStop a mode).core m.calls.length = (o.stopWith mode).core m.calls.length := by
        simp only [Machine.core, upTo, requestStop, begin, stopWith,
          List.take_append_of_le_length hle]
      _ = (o.core m.calls.length).stopWith mode := rfl
      _ = ((m.stopWithAll modes).core m.calls.length).stopWith mode := by rw [h.core]
      _ = (m.stopWithAll (modes ++ [mode])).core m.calls.length := by
        rw [stopWithAll, stopWithAll, List.foldl_append]
        rfl
  · rw [requestStop, begin, stopWith, List.length_append, List.length_append, h.length,
      Nat.add_assoc]
    rfl
  · exact fun hc => (h.cancelled hc).imp_right (List.mem_append_left _)
  · exact h.workers.imp_right fun hw => ⟨List.concat_ne_nil _ _, hw.2⟩
  · intro i mode' hi
    rcases Nat.lt_or_ge i modes.length with hlt | hge
    · -- an earlier request is where it was
      rw [List.getElem?_append_left hlt] at hi
      obtain ⟨k, hk, hs⟩ := h.calls i mode' hi
      obtain ⟨hl, -⟩ := List.getElem?_eq_some_iff.mp hk
      exact ⟨k, (List.getElem?_append_left hl).trans hk, hs⟩
    · obtain ⟨hl, -⟩ := List.getElem?_eq_some_iff.mp hi
      rw [List.length_append, List.length_singleton] at hl
      obtain rfl : i = modes.length := by omega
      obtain rfl := Option.some.inj (List.getElem?_concat_length.symm.trans hi)
      refine ⟨_, by rw [← h.length]; exact List.getElem?_concat_length, ?_⟩
      cases mode with
      | graceful => exact .rousing _ _ fun h => absurd h (by decide)
      | forced => exact .cancelling _ _

theorem Stopping.goOn (h : Stopping m modes o) {s s' : Stage} {cancelled : Bool}
    {workers : List (Phase τ)} {notices : List (Actor × Notice)}
    (hk : o.calls[c]? = some ⟨a, s⟩) (hc : m.calls.length ≤ c)
    (hkept : o.cancelled = true → cancelled = true)
    (hnew : cancelled = true → o.cancelled = true ∨ .forced ∈ modes)
    (hw : workers = o.workers ∨ workers = m.workers.map Phase.wake)
    (hs : ∀ mode, s.Stops (o.cancelled = true) (o.workers = m.workers.map Phase.wake) mode →
      s'.Stops (cancelled = true) (workers = m.workers.map Phase.wake) mode) :
    Stopping m modes { o.advance c a s' with
      cancelled := cancelled, workers := workers, notices := notices } := by
  have hwoken : o.workers = m.workers.map Phase.wake → workers = m.workers.map Phase.wake :=
    fun he => hw.elim (fun hw => hw.trans he) id
  obtain ⟨j, mode, rfl, hj, -⟩ := h.call hk hc
  refine ⟨?_, ?_, fun hm => hkept (h.kept hm), ?_, ?_, ?_⟩
  · rw [← h.core]
    simp only [Machine.core, upTo, advance, List.take_set_of_le hc]
  · exact (List.length_set ..).trans h.length
  · intro hn
    rcases hnew hn with ho | hf
    · exact h.cancelled ho
    · exact .inr hf
  · have hne : modes ≠ [] := List.ne_nil_of_mem (List.mem_of_getElem? hj)
    rcases hw with rfl | rfl
    · exact h.workers
    · exact .inr ⟨hne, rfl⟩
  · intro i mode' hi
    obtain ⟨k, hk', hstops⟩ := h.calls i mode' hi
    by_cases he : j = i
    · subst he
      obtain rfl := Option.some.inj (hk.symm.trans hk')
      obtain ⟨hl, -⟩ := List.getElem?_eq_some_iff.mp hk
      exact ⟨⟨a, s'⟩, List.getElem?_set_self hl, hs mode' hstops⟩
    · have hne : m.calls.length + j ≠ m.calls.length + i := by omega
      exact ⟨k, (List.getElem?_set_ne hne).trans hk', hstops.mono hkept hwoken⟩

theorem Stopping.step (h : Stopping m modes o) (hs : Step o x n)
    (hx : x.stopsAfter m.calls.length = true) : Stopping m (modes ++ x.mode?.toList) n := by
  cases hs with
  | requestStop _ => exact h.request _ _
  | @cancelTasks c a abandoned running hk =>
    have hc : m.calls.length ≤ c := of_decide_eq_true hx
    obtain ⟨j, mode, -, hj, hstage⟩ := h.call hk hc
    have hforced : .forced ∈ modes := by
      cases hstage
      exact List.mem_of_getElem? hj
    change Stopping m (modes ++ []) _
    rw [List.append_nil]
    refine h.goOn hk hc (fun _ => rfl) (fun _ => .inr hforced) (.inl rfl) ?_
    intro mode hmode
    cases hmode with
    | cancelling => exact .rousing _ _ fun _ => rfl
  | @rouse c a mode abandoned running hk =>
    have hc : m.calls.length ≤ c := of_decide_eq_true hx
    have hw : o.workers.map Phase.wake = m.workers.map Phase.wake := by
      rcases h.workers with hw | ⟨-, hw⟩
      · rw [hw]
      · simp [hw]
    change Stopping m (modes ++ []) _
    rw [List.append_nil]
    refine h.goOn hk hc id .inl (.inr hw) ?_
    intro mode' hmode
    cases hmode with
    | rousing _ _ hf => exact .answered _ hf hw
  | _ => exact absurd hx Bool.false_ne_true

theorem Stopping.run {moves : List (Move τ)} (h : Stopping m modes o)
    (hr : o.run? moves = some n) (hx : ∀ x ∈ moves, x.stopsAfter m.calls.length = true) :
    Stopping m (modes ++ moves.filterMap Move.mode?) n := by
  induction moves generalizing modes o with
  | nil =>
    obtain rfl := Option.some.inj hr
    rwa [List.filterMap_nil, List.append_nil]
  | cons x rest ih =>
    obtain ⟨p, hs, -, hp⟩ := run?_cons.mp hr
    obtain ⟨hx, hrest⟩ := List.forall_mem_cons.mp hx
    have hn := ih (h.step hs hx) hp hrest
    rw [List.append_assoc] at hn
    cases hmode : x.mode? <;> simpa [List.filterMap_cons, hmode] using hn

/-- Stop requests in these modes lead from `m` to `n`, one after the other or at the same time, with
no move of anybody else between theirs, and all of them have returned. -/
structure StoppedBy (modes : List StopMode) (m n : Machine τ) : Prop where
  moves : ∃ moves : List (Move τ), m.run? moves = some n ∧ moves.filterMap Move.mode? = modes ∧
    ∀ x ∈ moves, x.stopsAfter m.calls.length = true
  returned : ∀ c, m.calls.length ≤ c → c < n.calls.length → ∃ b, n.answer? c = some b

def afterStops (m : Machine τ) (any forced : Bool) : Machine τ :=
  if any then { m.stopWith (if forced then .forced else .graceful) with
    cancelled := m.cancelled || forced
    workers := m.workers.map Phase.wake }
  else m

theorem StoppedBy.stopping (hr : StoppedBy modes m n) : Stopping m modes n := by
  obtain ⟨moves, hrun, rfl, hx⟩ := hr.moves
  exact (Stopping.refl m).run hrun hx

theorem Stopping.returned (h : Stopping m modes n) (hr : StoppedBy modes m n) {i : Nat}
    {mode : StopMode} (hi : modes[i]? = some mode) :
    (mode = .forced → n.cancelled = true) ∧ n.workers = m.workers.map Phase.wake := by
  obtain ⟨k, hk, hs⟩ := h.calls i mode hi
  obtain ⟨hlt, -⟩ := List.getElem?_eq_some_iff.mp hk
  obtain ⟨b, hb⟩ := hr.returned _ (Nat.le_add_right _ i) hlt
  rw [answer?_eq hk] at hb
  rw [Stage.eq_answered hb] at hs
  cases hs with
  | answered _ hf hw => exact ⟨hf, hw⟩

theorem StoppedBy.upTo_eq (hr : StoppedBy modes m n) : n.upTo m.calls.length =
    (m.afterStops (!modes.isEmpty) (modes.any StopMode.isForced)).upTo m.calls.length := by
  have h := hr.stopping
  cases modes with
  | nil =>
    have hw : n.workers = m.workers := h.workers.resolve_right fun hw => hw.1 rfl
    have hc : n.cancelled = m.cancelled := by
      refine Bool.eq_iff_iff.mpr ⟨fun hn => ?_, h.kept⟩
      exact (h.cancelled hn).resolve_right List.not_mem_nil
    exact upTo_eq_of_core h.core hc hw
  | cons mode rest =>
    have hw : n.workers = m.workers.map Phase.wake := (h.returned hr (i := 0) rfl).2
    have hc : n.cancelled = (m.cancelled || (mode :: rest).any StopMode.isForced) := by
      refine Bool.eq_iff_iff.mpr ?_
      rw [Bool.or_eq_true, StopMode.any_isForced]
      refine ⟨h.cancelled, fun hor => hor.elim h.kept fun hf => ?_⟩
      obtain ⟨i, hi⟩ := List.mem_iff_getElem?.mp hf
      exact (h.returned hr hi).1 rfl
    have hcore := h.core
    rw [stopWithAll_eq m (List.cons_ne_nil _ _)] at hcore
    exact upTo_eq_of_core hcore hc hw

theorem StoppedBy.trans {modes' : List StopMode} (h : StoppedBy modes m n)
    (k : StoppedBy modes' n o) : StoppedBy (modes ++ modes') m o := by
  have hle : m.calls.length ≤ n.calls.length := by
    rw [h.stopping.length]
    exact Nat.le_add_right _ _
  obtain ⟨xs, hxs, rfl, hx⟩ := h.moves
  obtain ⟨ys, hys, rfl, hy⟩ := k.moves
  refine ⟨⟨xs ++ ys, ?_, List.filterMap_append, ?_⟩, ?_⟩
  · rw [run?_append, hxs]
    exact hys
  · refine List.forall_mem_append.mpr ⟨hx, fun y hm => ?_⟩
    have hn := hy y hm
    cases y with
    | requestStop => rfl
    | cancelTasks c | rouse c => exact decide_eq_true (Nat.le_trans hle (of_decide_eq_true hn))
    | _ => exact absurd hn Bool.false_ne_true
  · intro c hc hlt
    rcases Nat.lt_or_ge c n.calls.length with hold | hnew
    · obtain ⟨b, hb⟩ := h.returned c hc hold
      exact ⟨b, answer?_of_reaches ⟨ys, hys⟩ hb⟩
    · exact k.returned c hnew hlt

def stopMoves (m : Machine τ) (a : Actor) : StopMode → List (Move τ)
  | .graceful => [.requestStop a .graceful, .rouse m.calls.length]
  | .forced => [.requestStop a .forced, .cancelTasks m.calls.length, .rouse m.calls.length]

theorem run_stopMoves (ho : m.isOpen = true) (a : Actor) (mode : StopMode) :
    ∃ n b, m.run? (m.stopMoves a mode) = some n ∧ n.answer? m.calls.length = some b := by
  have hs : m.step? (.requestStop a mode) = some (m.requestStop a mode) :=
    onceOpen_eq_some.mpr ⟨ho, rfl⟩
  cases mode with
  | graceful =>
    obtain ⟨n, hn, hk⟩ := rouse_own (m := m.requestStop a .graceful) (c := m.calls.length)
      List.getElem?_concat_length
    exact ⟨n, _, by simp [stopMoves, run?, hs, hn], answer?_eq hk⟩
  | forced =>
    obtain ⟨o, ho, hk⟩ := cancelTasks_own (m := m.requestStop a .forced) (c := m.calls.length)
      List.getElem?_concat_length
    obtain ⟨n, hn, hk⟩ := rouse_own hk
    exact ⟨n, _, by simp [stopMoves, run?, hs, ho, hn], answer?_eq hk⟩

theorem exists_stoppedBy_one (ho : m.isOpen = true) (a : Actor) (mode : StopMode) :
    ∃ n, StoppedBy [mode] m n ∧ n.isOpen = true := by
  obtain ⟨n, b, hn, hb⟩ := run_stopMoves ho a mode
  have hx : ∀ x ∈ m.stopMoves a mode, x.stopsAfter m.calls.length = true := by
    cases mode <;> simp [stopMoves, Move.stopsAfter]
  have hmode : (m.stopMoves a mode).filterMap Move.mode? = [mode] := by
    cases mode <;> rfl
  have h : Stopping m [mode] n := hmode ▸ (Stopping.refl m).run hn hx
  refine ⟨n, ⟨⟨_, hn, hmode, hx⟩, fun c hc hlt => ⟨b, ?_⟩⟩, ?_⟩
  · rw [h.length, List.length_singleton] at hlt
    obtain rfl : c = m.calls.length := by omega
    exact hb
  · exact (congrArg isOpen h.core).trans ho

theorem exists_stoppedBy (ho : m.isOpen = true) (a : Actor) (modes : List StopMode) :
    ∃ n, StoppedBy modes m n := by
  induction modes generalizing m with
  | nil => exact ⟨m, ⟨[], rfl, rfl, nofun⟩, fun c hc hlt => absurd hlt (Nat.not_lt.mpr hc)⟩
  | cons mode rest ih =>
    obtain ⟨n, hn, hopen⟩ := exists_stoppedBy_one ho a mode
    obtain ⟨o, ho⟩ := ih hopen
    exact ⟨o, hn.trans ho⟩

end Machine

end Pool

end Quiesce
