import Quiesce.Drain

set_option autoImplicit false

namespace Quiesce.Drain

open Pool (Interrupted)

variable {ι ν σ α : Type}

/-- A pool in the state `s` answered these calls, one after the other, and came to `t`. -/
inductive Answered (pool : Respondent ι σ) : σ → List (Exchange ι) → σ → Prop where
  | nil (s : σ) : Answered pool s [] s
  | cons (c : Call ι) {s t : σ} {es : List (Exchange ι)} : Answered pool (pool c s).2 es t →
      Answered pool s (⟨c, (pool c s).1⟩ :: es) t

inductive Event (ι ν : Type) where
  | call (e : Exchange ι)
  | note (n : ν)

namespace Event

def call? : Event ι ν → Option (Exchange ι)
  | call e => some e
  | note _ => none

def note? : Event ι ν → Option ν
  | call _ => none
  | note n => some n

end Event

def calls (es : List (Event ι ν)) : List (Exchange ι) := es.filterMap Event.call?

def notes (es : List (Event ι ν)) : List ν := es.filterMap Event.note?

section Events

variable (es : List (Event ι ν))

@[simp] theorem calls_nil : calls ([] : List (Event ι ν)) = [] := rfl

@[simp] theorem calls_call (e : Exchange ι) : calls (.call e :: es) = e :: calls es := rfl

@[simp] theorem calls_note (n : ν) : calls (.note n :: es) = calls es := rfl

@[simp] theorem notes_nil : notes ([] : List (Event ι ν)) = [] := rfl

@[simp] theorem notes_call (e : Exchange ι) : notes (.call e :: es) = notes es := rfl

@[simp] theorem notes_note (n : ν) : notes (.note n :: es) = n :: notes es := rfl

end Events

namespace Dialogue

def events (pool : Respondent ι σ) : Dialogue ι ν α → σ → List (Event ι ν)
  | done _, _ => []
  | note n rest, s => .note n :: rest.events pool s
  | ask c next, s => .call ⟨c, (pool c s).1⟩ :: (next (pool c s).1).events pool (pool c s).2

variable (d : Dialogue ι ν α) (pool : Respondent ι σ) (s : σ)

theorem answered_run : Answered pool s (d.run pool s).exchanges (d.run pool s).state := by
  induction d generalizing s with
  | done a => exact .nil s
  | note n rest ih => exact ih s
  | ask c next ih => exact .cons c (ih _ _)

theorem calls_events : calls (d.events pool s) = (d.run pool s).exchanges := by
  induction d generalizing s with
  | done a => rfl
  | note n rest ih => exact ih s
  | ask c next ih => exact congrArg (_ :: ·) (ih _ _)

theorem notes_events : notes (d.events pool s) = (d.run pool s).notices := by
  induction d generalizing s with
  | done a => rfl
  | note n rest ih => exact congrArg (n :: ·) (ih s)
  | ask c next ih => exact ih _ _

end Dialogue

structure Wait (ι : Type) where
  timeout : Duration
  interrupt : ι
  result : Except Interrupted Bool

def Exchange.wait? : Exchange ι → Option (Wait ι)
  | ⟨.awaitTermination timeout i, r⟩ => some ⟨timeout, i, r⟩
  | _ => none

def Exchange.Concludes (e : Exchange ι) : Prop := ∃ w, e.wait? = some w ∧ w.result = .ok true

def Event.wait? (e : Event ι ν) : Option (Wait ι) := e.call?.bind Exchange.wait?

def waits (es : List (Event ι ν)) : List (Wait ι) := es.filterMap Event.wait?

def opening (es : List (Event ι ν)) : List (Event ι ν) := es.takeWhile fun e => e.wait?.isNone

def between (es : List (Event ι ν)) : List (Event ι ν) :=
  (es.dropWhile fun e => e.wait?.isNone).tail.takeWhile fun e => e.wait?.isNone

def ending (es : List (Event ι ν)) : List (Event ι ν) :=
  (es.reverse.takeWhile fun e => e.wait?.isNone).reverse

def warnings (es : List (Event ι Notice)) : Nat :=
  (notes es).countP fun n => (Loggable.entry n).level = .warn

inductive Parting (budget : Budget) : Outcome → List (Event ι Notice) → Prop where
  | cleanly : Parting budget .completedCleanly [.note .drained]
  | forcedly : Parting budget .forcedTermination []
  | gaveUp (n : Nat) : Parting budget (.forcedAfterTimeout n)
      [.call ⟨.requestStop .forced, n⟩, .note (.notCleanlyShutDown n budget.grace budget.force)]
  | brokenOff (n : Nat) : Parting budget .interrupted
      [.call ⟨.requestStop .forced, n⟩, .note (.interrupted n)]

/-- What has happened in a drain under the token `i`, and what it came to. -/
structure Protocol (budget : Budget) (i : ι) (es : List (Event ι Notice)) (o : Outcome) : Prop where
  opening : opening es = [.call ⟨.isStopped, true⟩] ∨
    ∃ n, opening es = [.call ⟨.isStopped, false⟩, .call ⟨.requestStop .graceful, n⟩]
  graceful : ∀ k, (∃ n, (calls es)[k]? = some ⟨.requestStop .graceful, n⟩) ↔
    k = 1 ∧ (calls es)[0]? = some ⟨.isStopped, false⟩
  waits : (∃ r, r ≠ .ok false ∧ waits es = [⟨budget.grace, i, r⟩]) ∨
    ∃ r, waits es = [⟨budget.grace, i, .ok false⟩, ⟨budget.force, i, r⟩]
  last : ∀ e ∈ (calls es).dropLast, ¬ e.Concludes
  terminated : o.isTerminated = true ↔
    ∃ w, (Drain.waits es).getLast? = some w ∧ w.result = .ok true
  cleanly : o = .completedCleanly ↔ Drain.waits es = [⟨budget.grace, i, .ok true⟩]
  forcedly : o = .forcedTermination ↔
    Drain.waits es = [⟨budget.grace, i, .ok false⟩, ⟨budget.force, i, .ok true⟩]
  unforced : o = .completedCleanly → ∀ e ∈ calls es, e.call ≠ .requestStop .forced
  between : (Drain.waits es).length = 2 → between es = [.call ⟨.isTerminated, true⟩] ∨
    ∃ n, between es = [.call ⟨.isTerminated, false⟩, .note (.escalating budget.grace),
      .call ⟨.requestStop .forced, n⟩]
  warned : warnings es ≤ 1 ∧ (warnings es = 1 ↔ ⟨.isTerminated, false⟩ ∈ calls es)
  /-- A late termination for which nothing was forced is one that the pool told of by itself. -/
  spared : o = .forcedTermination →
    ((∀ e ∈ calls es, e.call ≠ .requestStop .forced) ↔ ⟨.isTerminated, true⟩ ∈ calls es)
  ending : Parting budget o (ending es)

inductive Late where
  | terminated
  | timedOut (n : Nat)
  | interrupted (n : Nat)

/-- How the first wait went, and the rest of the drain after it. -/
inductive Way where
  | terminated
  | interrupted (n : Nat)
  | overtaken (rest : Late)
  | escalated (n : Nat) (rest : Late)

section Ways

variable (budget : Budget) (i : ι)

def brokenOff (n : Nat) : List (Event ι Notice) :=
  [.call ⟨.requestStop .forced, n⟩, .note (.interrupted n)]

def Late.outcome : Late → Outcome
  | terminated => .forcedTermination
  | timedOut n => .forcedAfterTimeout n
  | interrupted _ => .interrupted

def Late.events : Late → List (Event ι Notice)
  | terminated => [.call ⟨.awaitTermination budget.force i, .ok true⟩]
  | timedOut n => [.call ⟨.awaitTermination budget.force i, .ok false⟩,
      .call ⟨.requestStop .forced, n⟩, .note (.notCleanlyShutDown n budget.grace budget.force)]
  | interrupted n => .call ⟨.awaitTermination budget.force i, .error .interrupted⟩ :: brokenOff n

def Way.outcome : Way → Outcome
  | terminated => .completedCleanly
  | interrupted _ => .interrupted
  | overtaken rest => rest.outcome
  | escalated _ rest => rest.outcome

def Way.events : Way → List (Event ι Notice)
  | terminated => [.call ⟨.awaitTermination budget.grace i, .ok true⟩, .note .drained]
  | interrupted n => .call ⟨.awaitTermination budget.grace i, .error .interrupted⟩ :: brokenOff n
  | overtaken rest => .call ⟨.awaitTermination budget.grace i, .ok false⟩ ::
      .call ⟨.isTerminated, true⟩ :: rest.events budget i
  | escalated n rest => .call ⟨.awaitTermination budget.grace i, .ok false⟩ ::
      .call ⟨.isTerminated, false⟩ :: .note (.escalating budget.grace) ::
      .call ⟨.requestStop .forced, n⟩ :: rest.events budget i

def beginning : Option Nat → List (Event ι Notice)
  | none => [.call ⟨.isStopped, true⟩]
  | some n => [.call ⟨.isStopped, false⟩, .call ⟨.requestStop .graceful, n⟩]

variable (pool : Respondent ι σ) (s : σ)

theorem late_of_awaitForced : ∃ w : Late,
    (awaitForced budget i).events pool s = w.events budget i ∧
    ((awaitForced budget i).run pool s).result = w.outcome := by
  simp only [awaitForced, Dialogue.events, Dialogue.run]
  obtain ⟨r, s⟩ := pool (.awaitTermination budget.force i) s
  rcases r with ⟨⟨⟩⟩ | _ | _
  · exact ⟨.interrupted _, rfl, rfl⟩
  · exact ⟨.timedOut _, rfl, rfl⟩
  · exact ⟨.terminated, rfl, rfl⟩

theorem way_of_awaitGraceful : ∃ w : Way,
    (awaitGraceful budget i).events pool s = w.events budget i ∧
    ((awaitGraceful budget i).run pool s).result = w.outcome := by
  simp only [awaitGraceful, Dialogue.events, Dialogue.run]
  obtain ⟨r, s⟩ := pool (.awaitTermination budget.grace i) s
  rcases r with ⟨⟨⟩⟩ | _ | _
  · exact ⟨.interrupted _, rfl, rfl⟩
  · simp only [escalate, Dialogue.events, Dialogue.run]
    obtain ⟨b, s⟩ := pool .isTerminated s
    cases b with
    | true =>
      obtain ⟨w, he, ho⟩ := late_of_awaitForced budget i pool s
      exact ⟨.overtaken w, congrArg (_ :: _ :: ·) he, ho⟩
    | false =>
      simp only [Dialogue.events, Dialogue.run]
      obtain ⟨n, s⟩ := pool (.requestStop .forced) s
      obtain ⟨w, he, ho⟩ := late_of_awaitForced budget i pool s
      exact ⟨.escalated n w, congrArg (_ :: _ :: _ :: _ :: ·) he, ho⟩
  · exact ⟨.terminated, rfl, rfl⟩

theorem way_of_sequence : ∃ (first : Option Nat) (w : Way),
    (sequence budget i).events pool s = beginning first ++ w.events budget i ∧
    ((sequence budget i).run pool s).result = w.outcome := by
  simp only [sequence, Dialogue.events, Dialogue.run]
  obtain ⟨b, s⟩ := pool .isStopped s
  cases b with
  | true =>
    obtain ⟨w, he, ho⟩ := way_of_awaitGraceful budget i pool s
    exact ⟨none, w, congrArg (_ :: ·) he, ho⟩
  | false =>
    simp only [Dialogue.events, Dialogue.run]
    obtain ⟨n, s⟩ := pool (.requestStop .graceful) s
    obtain ⟨w, he, ho⟩ := way_of_awaitGraceful budget i pool s
    exact ⟨some n, w, congrArg (_ :: _ :: ·) he, ho⟩

def Late.result : Late → Except Interrupted Bool
  | terminated => .ok true
  | timedOut _ => .ok false
  | interrupted _ => .error .interrupted

def Way.waits : Way → List (Wait ι)
  | terminated => [⟨budget.grace, i, .ok true⟩]
  | interrupted _ => [⟨budget.grace, i, .error .interrupted⟩]
  | overtaken rest => [⟨budget.grace, i, .ok false⟩, ⟨budget.force, i, rest.result⟩]
  | escalated _ rest => [⟨budget.grace, i, .ok false⟩, ⟨budget.force, i, rest.result⟩]

variable (first : Option Nat) (w : Way)

theorem opening_way : opening (beginning first ++ w.events budget i) = beginning first := by
  cases first <;> cases w <;> rfl

theorem waits_way : waits (beginning first ++ w.events budget i) = w.waits budget i := by
  cases first <;> cases w with
  | terminated | interrupted => rfl
  | overtaken rest | escalated n rest => cases rest <;> rfl

theorem parting_way : Parting budget w.outcome (ending (beginning first ++ w.events budget i)) := by
  cases first <;> cases w with
  | terminated => exact .cleanly
  | interrupted n => exact .brokenOff n
  | overtaken rest | escalated n rest =>
    cases rest with
    | terminated => exact .forcedly
    | timedOut n => exact .gaveUp n
    | interrupted n => exact .brokenOff n

theorem ungraceful_way : ∀ e ∈ calls (w.events budget i), e.call ≠ .requestStop .graceful := by
  cases w with
  | terminated | interrupted => simp [Way.events, brokenOff]
  | overtaken rest | escalated n rest =>
    cases rest <;> simp [Way.events, Late.events, brokenOff]

theorem graceful_way (k : Nat) :
    (∃ n, (calls (beginning first ++ w.events budget i))[k]? = some ⟨.requestStop .graceful, n⟩) ↔
      k = 1 ∧ (calls (beginning first ++ w.events budget i))[0]? = some ⟨.isStopped, false⟩ := by
  have hnot := ungraceful_way budget i w
  cases first with
  | none =>
    constructor
    · rintro ⟨n, hn⟩
      have hm := List.mem_of_getElem? hn
      simp only [beginning, List.cons_append, List.nil_append, calls_call, List.mem_cons,
        Exchange.mk.injEq, reduceCtorEq, false_and, false_or] at hm
      exact absurd rfl (hnot _ hm)
    · rintro ⟨-, h0⟩
      simp [beginning] at h0
  | some m =>
    match k with
    | 0 | 1 => simp [beginning]
    | k + 2 =>
      constructor
      · rintro ⟨n, hn⟩
        exact absurd rfl (hnot _ (List.mem_of_getElem? hn))
      · rintro ⟨hk, -⟩
        omega

theorem Protocol.of_way : Protocol budget i (beginning first ++ w.events budget i) w.outcome where
  opening := by
    rw [opening_way]
    cases first with
    | none => exact .inl rfl
    | some n => exact .inr ⟨n, rfl⟩
  graceful := graceful_way budget i first w
  waits := by
    rw [waits_way]
    cases w with
    | terminated => exact .inl ⟨.ok true, nofun, rfl⟩
    | interrupted => exact .inl ⟨.error .interrupted, nofun, rfl⟩
    | overtaken rest | escalated n rest => exact .inr ⟨rest.result, rfl⟩
  last := by
    cases first <;> cases w with
    | terminated | interrupted =>
      simp [beginning, Way.events, brokenOff, Exchange.Concludes, Exchange.wait?]
    | overtaken rest | escalated n rest =>
      cases rest <;>
        simp [beginning, Way.events, Late.events, brokenOff, Exchange.Concludes, Exchange.wait?]
  terminated := by
    rw [waits_way]
    cases w with
    | terminated | interrupted => simp [Way.outcome, Way.waits, Outcome.isTerminated]
    | overtaken rest | escalated n rest =>
      cases rest <;> simp [Way.outcome, Way.waits, Late.outcome, Late.result, Outcome.isTerminated]
  cleanly := by
    rw [waits_way]
    cases w with
    | terminated | interrupted => simp [Way.outcome, Way.waits]
    | overtaken rest | escalated n rest =>
      cases rest <;> simp [Way.outcome, Way.waits, Late.outcome]
  forcedly := by
    rw [waits_way]
    cases w with
    | terminated | interrupted => simp [Way.outcome, Way.waits]
    | overtaken rest | escalated n rest =>
      cases rest <;> simp [Way.outcome, Way.waits, Late.outcome, Late.result]
  unforced := by
    cases first <;> cases w with
    | terminated | interrupted => simp [beginning, Way.events, Way.outcome]
    | overtaken rest | escalated n rest => cases rest <;> simp [Way.outcome, Late.outcome]
  between := by
    intro hw
    cases first <;> cases w with
    | terminated | interrupted => simp [waits_way, Way.waits] at hw
    | overtaken rest =>
      refine .inl ?_
      cases rest <;> rfl
    | escalated n rest =>
      refine .inr ⟨n, ?_⟩
      cases rest <;> rfl
  warned := by
    cases first <;> cases w with
    | terminated | interrupted =>
      simp [beginning, Way.events, brokenOff, warnings, Loggable.entry]
    | overtaken rest | escalated n rest =>
      cases rest <;>
        simp [beginning, Way.events, Late.events, brokenOff, warnings, Loggable.entry]
  spared := by
    cases first <;> cases w with
    | terminated | interrupted => simp [Way.outcome]
    | overtaken rest | escalated n rest =>
      cases rest <;> simp [beginning, Way.events, Late.events, Way.outcome, Late.outcome]
  ending := parting_way budget i first w

end Ways

/-- Whatever a pool answers and however it changes, a drain keeps the protocol; and one that tells
only whether the pool has terminated makes the same calls. -/
theorem sequence_protocol (pool : Respondent ι σ) (budget : Budget) (i : ι) (s : σ) :
    let es := (sequence budget i).events pool s
    let t := (sequence budget i).run pool s
    Protocol budget i es t.result ∧
      calls es = t.exchanges ∧ notes es = t.notices ∧ Answered pool s t.exchanges t.state ∧
      (drain budget i).run pool s = ⟨t.result.isTerminated, t.exchanges, t.notices, t.state⟩ := by
  dsimp only
  refine ⟨?_, Dialogue.calls_events _ pool s, Dialogue.notes_events _ pool s,
    Dialogue.answered_run _ pool s, Dialogue.run_map Outcome.isTerminated pool _ s⟩
  obtain ⟨first, w, he, ho⟩ := way_of_sequence budget i pool s
  rw [he, ho]
  exact .of_way budget i first w

end Quiesce.Drain
