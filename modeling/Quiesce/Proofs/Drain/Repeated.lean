import Quiesce.Drain
import Quiesce.Proofs.Drain.Protocol
import Quiesce.Proofs.Drain.Spent

set_option autoImplicit false

namespace Quiesce.Drain

open Pool (Actor Machine)

variable {ι σ : Type}

section Respondents

variable {pool : Respondent ι σ} {s t : σ} {es fs : List (Exchange ι)}

def SaysStopped (pool : Respondent ι σ) (s : σ) : Prop := (pool .isStopped s).1 = true

/-- The pool says that it is stopped after every request to stop, and goes on saying so. -/
structure Steadfast (pool : Respondent ι σ) : Prop where
  requested : ∀ mode s, SaysStopped pool (pool (.requestStop mode) s).2
  kept : ∀ c s, SaysStopped pool s → SaysStopped pool (pool c s).2

/-- The pool has terminated: from now on every wait tells so, under whichever token and however
short. -/
def Ended (pool : Respondent ι σ) (s : σ) : Prop :=
  ∀ es t, Answered pool s es t → ∀ timeout i, (pool (.awaitTermination timeout i) t).1 = .ok true

theorem Answered.append (h : Answered pool s es t) {u : σ} (k : Answered pool t fs u) :
    Answered pool s (es ++ fs) u := by
  induction h with
  | nil => exact k
  | cons c _ ih => exact .cons c (ih k)

theorem Steadfast.answered (hp : Steadfast pool) (h : Answered pool s es t)
    (hs : SaysStopped pool s) : SaysStopped pool t := by
  induction h with
  | nil => exact hs
  | cons c _ ih => exact ih (hp.kept c _ hs)

theorem Ended.answered (h : Ended pool s) (ha : Answered pool s es t) : Ended pool t :=
  fun _ _ hb => h _ _ (ha.append hb)

variable (budget : Budget) (i : ι)

def Call.requests (mode : StopMode) : Call ι → Bool
  | requestStop m => m = mode
  | _ => false

theorem Call.requests_of_ne {c : Call ι} {mode : StopMode} (h : c ≠ .requestStop mode) :
    c.requests mode = false := by
  cases c with
  | requestStop m => exact decide_eq_false fun he => h (congrArg _ he)
  | _ => rfl

def Ungraceful (es : List (Exchange ι)) : Prop := ∀ e ∈ es, e.call.requests .graceful = false

theorem ungraceful_cons {e : Exchange ι} :
    Ungraceful (e :: es) ↔ e.call.requests .graceful = false ∧ Ungraceful es :=
  List.forall_mem_cons

theorem ungraceful_append : Ungraceful (es ++ fs) ↔ Ungraceful es ∧ Ungraceful fs :=
  List.forall_mem_append

theorem ungraceful_awaitGraceful (pool : Respondent ι σ) (s : σ) :
    Ungraceful ((awaitGraceful budget i).run pool s).exchanges := by
  obtain ⟨w, he, -⟩ := way_of_awaitGraceful budget i pool s
  rw [← Dialogue.calls_events, he]
  exact fun e hm => Call.requests_of_ne (ungraceful_way budget i w e hm)

theorem run_of_stopped (hs : SaysStopped pool s) : (sequence budget i).run pool s =
    let t := (awaitGraceful budget i).run pool (pool .isStopped s).2
    { t with exchanges := ⟨.isStopped, true⟩ :: t.exchanges } := by
  unfold SaysStopped at hs
  simp only [sequence, Dialogue.run]
  rw [hs]

theorem run_of_unstopped (hs : ¬ SaysStopped pool s) : (sequence budget i).run pool s =
    let u := pool (.requestStop .graceful) (pool .isStopped s).2
    let t := (awaitGraceful budget i).run pool u.2
    { t with
      exchanges := ⟨.isStopped, false⟩ :: ⟨.requestStop .graceful, u.1⟩ :: t.exchanges } := by
  unfold SaysStopped at hs
  rw [Bool.not_eq_true] at hs
  simp only [sequence, Dialogue.run]
  rw [hs]
  rfl

theorem stopped_after (hp : Steadfast pool) (s : σ) :
    SaysStopped pool ((sequence budget i).run pool s).state := by
  by_cases hs : SaysStopped pool s
  · exact hp.answered (Dialogue.answered_run _ pool s) hs
  · rw [run_of_unstopped budget i hs]
    exact hp.answered (Dialogue.answered_run _ pool _) (hp.requested _ _)

theorem run_of_ended (hs : SaysStopped pool s) (h : Ended pool s) : (sequence budget i).run pool s =
    ⟨.completedCleanly, [⟨.isStopped, true⟩, ⟨.awaitTermination budget.grace i, .ok true⟩],
      [.drained], (pool (.awaitTermination budget.grace i) (pool .isStopped s).2).2⟩ := by
  have hasked : Answered pool s [⟨.isStopped, (pool .isStopped s).1⟩] (pool .isStopped s).2 :=
    .cons .isStopped (.nil _)
  have hwait := h _ _ hasked budget.grace i
  rw [run_of_stopped budget i hs]
  simp only [awaitGraceful, Dialogue.run]
  rw [hwait]
  rfl

theorem run_of_ended_unstopped (hs : ¬ SaysStopped pool s) (h : Ended pool s) :
    ((sequence budget i).run pool s).result = .completedCleanly ∧
    ((sequence budget i).run pool s).exchanges =
      [⟨.isStopped, false⟩, ⟨.requestStop .graceful, (pool (.requestStop .graceful)
        (pool .isStopped s).2).1⟩, ⟨.awaitTermination budget.grace i, .ok true⟩] := by
  have hasked : Answered pool s
      [⟨.isStopped, (pool .isStopped s).1⟩, ⟨.requestStop .graceful, _⟩]
      (pool (.requestStop .graceful) (pool .isStopped s).2).2 :=
    .cons .isStopped (.cons (.requestStop .graceful) (.nil _))
  have hwait := h _ _ hasked budget.grace i
  rw [run_of_unstopped budget i hs]
  simp only [awaitGraceful, Dialogue.run]
  rw [hwait]
  exact ⟨rfl, rfl⟩

def series (pool : Respondent ι σ) : List (Budget × ι) → σ → List (Transcript ι Notice σ Outcome)
  | [], _ => []
  | (budget, i) :: rest, s =>
    let t := (sequence budget i).run pool s
    t :: series pool rest t.state

def leaves (pool : Respondent ι σ) (drains : List (Budget × ι)) (s : σ) : σ :=
  drains.foldl (fun u d => ((sequence d.1 d.2).run pool u).state) s

def callsOf (pool : Respondent ι σ) (drains : List (Budget × ι)) (s : σ) : List (Exchange ι) :=
  (series pool drains s).flatMap fun t => t.exchanges

variable (drains : List (Budget × ι))

theorem getElem?_series (s : σ) (j : Nat) : (series pool drains s)[j]? =
    drains[j]?.map fun d => (sequence d.1 d.2).run pool (leaves pool (drains.take j) s) := by
  induction drains generalizing s j with
  | nil => rfl
  | cons d rest ih =>
    cases j with
    | zero => rfl
    | succ j => exact ih _ j

theorem answered_leaves (pool : Respondent ι σ) (s : σ) :
    ∃ es, Answered pool s es (leaves pool drains s) := by
  induction drains generalizing s with
  | nil => exact ⟨[], .nil s⟩
  | cons d rest ih =>
    obtain ⟨es, h⟩ := ih ((sequence d.1 d.2).run pool s).state
    exact ⟨_, (Dialogue.answered_run _ pool s).append h⟩

theorem stopped_leaves (hp : Steadfast pool) (h : drains ≠ [] ∨ SaysStopped pool s) :
    SaysStopped pool (leaves pool drains s) := by
  cases drains with
  | nil => exact h.resolve_left fun hn => hn rfl
  | cons d rest =>
    obtain ⟨es, hes⟩ := answered_leaves rest pool ((sequence d.1 d.2).run pool s).state
    exact hp.answered hes (stopped_after d.1 d.2 hp s)

theorem Ended.later {j k : Nat} (hjk : k ≤ j) (h : Ended pool (leaves pool (drains.take k) s)) :
    Ended pool (leaves pool (drains.take j) s) := by
  have hsplit : drains.take j = drains.take k ++ (drains.drop k).take (j - k) := by
    rw [← List.take_add, Nat.add_sub_cancel' hjk]
  rw [hsplit, leaves, List.foldl_append]
  obtain ⟨es, hes⟩ := answered_leaves ((drains.drop k).take (j - k)) pool
    (leaves pool (drains.take k) s)
  exact h.answered hes

theorem callsOf_cons (d : Budget × ι) : callsOf pool (d :: drains) s =
    ((sequence d.1 d.2).run pool s).exchanges ++
      callsOf pool drains ((sequence d.1 d.2).run pool s).state := rfl

theorem ungraceful_of_stopped (hp : Steadfast pool) (hs : SaysStopped pool s) :
    Ungraceful (callsOf pool drains s) := by
  induction drains generalizing s with
  | nil => exact nofun
  | cons d rest ih =>
    have hrun := congrArg Transcript.exchanges (run_of_stopped d.1 d.2 hs)
    rw [callsOf_cons, hrun, ungraceful_append, ungraceful_cons]
    exact ⟨⟨rfl, ungraceful_awaitGraceful d.1 d.2 pool _⟩, ih (stopped_after d.1 d.2 hp s)⟩

theorem calls_of_unstopped (hp : Steadfast pool) (hs : ¬ SaysStopped pool s) (d : Budget × ι) :
    ∃ n rest, callsOf pool (d :: drains) s =
      ⟨.isStopped, false⟩ :: ⟨.requestStop .graceful, n⟩ :: rest ∧ Ungraceful rest := by
  have hrun := congrArg Transcript.exchanges (run_of_unstopped d.1 d.2 hs)
  rw [callsOf_cons, hrun]
  refine ⟨_, _, rfl, ungraceful_append.mpr ⟨ungraceful_awaitGraceful d.1 d.2 pool _, ?_⟩⟩
  exact ungraceful_of_stopped drains hp (stopped_after d.1 d.2 hp s)

/-- Graceful stops among the calls of a series that found the pool as `s`. -/
structure Patient (pool : Respondent ι σ) (s : σ) (es : List (Exchange ι)) : Prop where
  once : es.countP (fun e => e.call.requests .graceful) ≤ 1
  spared : SaysStopped pool s → Ungraceful es
  first : ∀ before e after, es = before ++ e :: after → e.call.requests .graceful = true →
    ∀ f ∈ before, f.call.requests .forced = false

theorem Ungraceful.countP_eq_zero (h : Ungraceful es) :
    es.countP (fun e => e.call.requests .graceful) = 0 :=
  List.countP_eq_zero.mpr fun e he => Bool.eq_false_iff.mp (h e he)

theorem Ungraceful.not_mem (h : Ungraceful es) {e : Exchange ι}
    (he : e.call.requests .graceful = true) : e ∉ es :=
  fun hm => Bool.false_ne_true ((h e hm).symm.trans he)

theorem Ungraceful.patient (h : Ungraceful es) : Patient pool s es where
  once := h.countP_eq_zero ▸ Nat.zero_le 1
  spared _ := h
  first before _ after hes he := absurd (hes ▸ List.mem_append_right before (.head after))
    (h.not_mem he)

theorem patient_of_unstopped (hs : ¬ SaysStopped pool s) {n : Nat} (h : Ungraceful es) :
    Patient pool s (⟨.isStopped, false⟩ :: ⟨.requestStop .graceful, n⟩ :: es) where
  once := by
    rw [List.countP_cons, List.countP_cons, h.countP_eq_zero]
    exact Nat.le_refl 1
  spared hsaid := absurd hsaid hs
  first before e after hes he := by
    match before with
    | [] => exact nofun
    | [f] =>
      obtain ⟨rfl, -⟩ := List.cons.inj hes
      exact List.forall_mem_singleton.mpr rfl
    | f :: g :: more =>
      obtain ⟨-, hes⟩ := List.cons.inj hes
      obtain ⟨-, hes⟩ := List.cons.inj hes
      exact absurd (hes ▸ List.mem_append_right more (.head after)) (h.not_mem he)

theorem patient_series (hp : Steadfast pool) (s : σ) : Patient pool s (callsOf pool drains s) := by
  by_cases hs : SaysStopped pool s
  · exact (ungraceful_of_stopped drains hp hs).patient
  · cases drains with
    | nil => exact Ungraceful.patient nofun
    | cons d rest =>
      obtain ⟨n, es, he, hes⟩ := calls_of_unstopped rest hp hs d
      rw [he]
      exact patient_of_unstopped hs hes

/-- A drain that has found the pool as `s` and has nothing to do. -/
structure Passes (pool : Respondent ι σ) (budget : Budget) (i : ι) (s : σ)
    (t : Transcript ι Notice σ Outcome) : Prop where
  outcome : t.result = .completedCleanly
  calls : t.exchanges = [⟨.isStopped, true⟩, ⟨.awaitTermination budget.grace i, .ok true⟩]
  state : t.state = (pool (.awaitTermination budget.grace i) (pool .isStopped s).2).2
  unchanged : (pool .isStopped s).2 = s → (pool (.awaitTermination budget.grace i) s).2 = s →
    t.state = s

theorem Ended.passes (hs : SaysStopped pool s) (h : Ended pool s) :
    Passes pool budget i s ((sequence budget i).run pool s) := by
  rw [run_of_ended budget i hs h]
  refine ⟨rfl, rfl, rfl, fun hasked hwaited => ?_⟩
  change (pool _ (pool .isStopped s).2).2 = s
  rw [hasked]
  exact hwaited

end Respondents

/-- Drains may be repeated. Over a whole series of them at most one graceful stop is requested, and
that at the beginning; once the pool has terminated all further drains pass, the first one of all
only if the pool was stopped then: otherwise it asks for that stop and still completes cleanly. With
the concurrent pool each drain passes once it has terminated, whoever else moves meanwhile. -/
theorem drains_repeatable {pool : Respondent ι σ} (hp : Steadfast pool)
    (drains : List (Budget × ι)) (s : σ) :
    Patient pool s (callsOf pool drains s) ∧
    (∀ k, Ended pool (leaves pool (drains.take k) s) → ∀ j budget i, k ≤ j →
      0 < j ∨ SaysStopped pool s → drains[j]? = some (budget, i) →
      ∃ t, (series pool drains s)[j]? = some t ∧
        Passes pool budget i (leaves pool (drains.take j) s) t) ∧
    (Ended pool s → ¬ SaysStopped pool s → ∀ budget i, drains[0]? = some (budget, i) →
      ∃ t n, (series pool drains s)[0]? = some t ∧ t.result = .completedCleanly ∧
        t.exchanges = [⟨.isStopped, false⟩, ⟨.requestStop .graceful, n⟩,
          ⟨.awaitTermination budget.grace i, .ok true⟩]) ∧
    ∀ {τ : Type} {workers capacity : Nat} {p : Machine τ},
      (Machine.initial workers capacity).Reaches p → p.shared.isTerminated = true →
      ∀ q, p.Reaches q → ∀ (a : Actor) (budget : Budget) (i : Nat) (during : List (SeatMove τ))
        (u : Seat τ Outcome), (Seat.take q a (sequence budget i)).run? during = some u →
        Passing budget i q u := by
  refine ⟨patient_series drains hp s, ?_, ?_, ?_⟩
  · intro k hk j budget i hkj hstopped hj
    have htake : drains.take j ≠ [] ∨ SaysStopped pool s := by
      refine hstopped.imp_left fun hpos => List.ne_nil_of_length_pos ?_
      obtain ⟨hlen, -⟩ := List.getElem?_eq_some_iff.mp hj
      rw [List.length_take]
      omega
    refine ⟨_, ?_, (hk.later drains hkj).passes budget i (stopped_leaves _ hp htake)⟩
    rw [getElem?_series, hj]
    rfl
  · intro hended hs budget i hfirst
    obtain ⟨hresult, hcalls⟩ := run_of_ended_unstopped budget i hs hended
    refine ⟨_, _, ?_, hresult, hcalls⟩
    rw [getElem?_series, hfirst]
    rfl
  · intro τ workers capacity p hr ht q hq a budget i during u hu
    have hcrew : Pool.Machine.Crewed (max workers 1) p := Machine.Reaches.keeps
      Machine.Crewed.step hr (Machine.crewed_initial workers capacity)
    have hover : Over (max workers 1) p := ⟨Nat.lt_of_lt_of_le Nat.one_pos (Nat.le_max_right ..),
      hcrew, ht⟩
    exact (hover.of_reaches hq).passing hu

/-- A scripted pool that tells in every wait that it has terminated once it has told so in one. -/
def lasting : Respondent Bool Script
  | .awaitTermination _ _, s => if s.terminated then (.ok true, s) else s.wait
  | c, s => Script.respond c s

theorem lasting_await {s : Script} (h : s.terminated = true) (timeout : Duration) (i : Bool) :
    lasting (.awaitTermination timeout i) s = (.ok true, s) := if_pos h

theorem stopped_lasting (c : Call Bool) {s : Script} (h : s.stopped = true) :
    (lasting c s).2.stopped = true := by
  cases c with
  | requestStop mode => cases mode <;> rfl
  | awaitTermination timeout i =>
    by_cases ht : s.terminated = true
    · rwa [lasting_await ht]
    · rwa [lasting, if_neg ht, Script.wait]
  | isStopped | isTerminated => exact h

theorem steadfast_lasting : Steadfast lasting where
  requested mode _ := by cases mode <;> rfl
  kept c _ := stopped_lasting c

theorem terminated_lasting {s t : Script} {es : List (Exchange Bool)}
    (h : Answered lasting s es t) (hs : s.terminated = true) : t.terminated = true := by
  induction h with
  | nil => exact hs
  | cons c _ ih =>
    apply ih
    cases c with
    | requestStop mode => cases mode <;> exact hs
    | awaitTermination timeout i => rwa [lasting_await hs]
    | isStopped | isTerminated => exact hs

theorem ended_lasting {s : Script} (hs : s.terminated = true) : Ended lasting s := by
  intro es t h timeout i
  rw [lasting_await (terminated_lasting h hs)]

def slow : Script where
  answers := [.error .interrupted, .ok false, .ok false, .ok true]
  queued := 2
  stopped := false
  terminated := false
  keepsQueue := true
  terminatedAfter := none
  waits := 0

def fourDrains : List (Budget × Bool) :=
  [(.default, false), (.default, false), (.default, false), (⟨⟨0⟩, ⟨0⟩⟩, true)]

def belated : List (SeatMove Nat) :=
  [.open, .proceed, .open, .pool (.fire 7), .pool (.watch 4), .proceed, .note]

theorem fourDrains_slow :
    (series lasting fourDrains slow).map (fun t => t.result) =
      [.interrupted, .forcedAfterTimeout 2, .completedCleanly, .completedCleanly] ∧
    Patient lasting slow (callsOf lasting fourDrains slow) ∧
    (∃ t, (series lasting fourDrains slow)[3]? = some t ∧
      Passes lasting ⟨⟨0⟩, ⟨0⟩⟩ true (leaves lasting (fourDrains.take 3) slow) t) ∧
    ∃ u, (Seat.take Machine.departed (.caller 3) (sequence .default 7)).run? belated = some u ∧
      u.plan = .done .completedCleanly ∧ Passing .default 7 Machine.departed u := by
  obtain ⟨hpatient, hpasses, -, hmachine⟩ := drains_repeatable steadfast_lasting fourDrains slow
  refine ⟨rfl, hpatient, ?_, _, rfl, rfl, ?_⟩
  · exact hpasses 3 (ended_lasting rfl) 3 ⟨⟨0⟩, ⟨0⟩⟩ true (Nat.le_refl 3) (.inl (by decide)) rfl
  · exact hmachine Machine.reaches_departed rfl _ (.refl _) (.caller 3) .default 7 belated _ rfl

def unasked : Script where
  answers := []
  queued := 0
  stopped := false
  terminated := true
  keepsQueue := false
  terminatedAfter := none
  waits := 0

/-- Having terminated is not enough for the first drain to pass. -/
theorem unasked_not_passed :
    Steadfast lasting ∧ Ended lasting unasked ∧ (lasting .isTerminated unasked).1 = true ∧
    callsOf lasting [(.default, false)] unasked = [⟨.isStopped, false⟩, ⟨.requestStop .graceful, 0⟩,
      ⟨.awaitTermination Budget.default.grace false, .ok true⟩] ∧
    ¬ ∃ t, (series lasting [(.default, false)] unasked)[0]? = some t ∧
      Passes lasting .default false unasked t := by
  refine ⟨steadfast_lasting, ended_lasting rfl, rfl, rfl, ?_⟩
  rintro ⟨t, ht, hpasses⟩
  obtain rfl := Option.some.inj ht
  have hlength := congrArg List.length hpasses.calls
  exact absurd hlength (by decide)

end Quiesce.Drain
