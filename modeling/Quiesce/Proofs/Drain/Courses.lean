import Quiesce.Drain

set_option autoImplicit false

namespace Quiesce.Drain

variable {ι ν α : Type}

namespace Dialogue

inductive Leads : Dialogue ι ν α → List (Exchange ι) → List ν → Dialogue ι ν α → Prop where
  | refl (d : Dialogue ι ν α) : Leads d [] [] d
  | note {n : ν} {rest e : Dialogue ι ν α} {es : List (Exchange ι)} {ns : List ν} :
      Leads rest es ns e → Leads (.note n rest) es (n :: ns) e
  | ask {c : Call ι} {next : c.Answer → Dialogue ι ν α} {e : Dialogue ι ν α} (x : c.Answer)
      {es : List (Exchange ι)} {ns : List ν} :
      Leads (next x) es ns e → Leads (.ask c next) (⟨c, x⟩ :: es) ns e

variable {d e f : Dialogue ι ν α} {es es' : List (Exchange ι)} {ns ns' : List ν}

theorem Leads.trans (h : d.Leads es ns e) (k : e.Leads es' ns' f) :
    d.Leads (es ++ es') (ns ++ ns') f := by
  induction h with
  | refl d => exact k
  | note _ ih => exact .note (ih k)
  | ask x _ ih => exact .ask x (ih k)

theorem Leads.noted {n : ν} {rest : Dialogue ι ν α} (h : d.Leads es ns (.note n rest)) :
    d.Leads es (ns ++ [n]) rest := by
  have hn := h.trans (.note (.refl rest))
  rwa [List.append_nil] at hn

theorem Leads.asked {c : Call ι} {next : c.Answer → Dialogue ι ν α}
    (h : d.Leads es ns (.ask c next)) (x : c.Answer) :
    d.Leads (es ++ [⟨c, x⟩]) ns (next x) := by
  have hx := h.trans (.ask x (.refl (next x)))
  rwa [List.append_nil] at hx

theorem leads_done {a b : α} (h : (done a).Leads es ns (.done b)) :
    es = [] ∧ ns = [] ∧ b = a := by
  cases h
  exact ⟨rfl, rfl, rfl⟩

theorem leads_note {n : ν} {rest : Dialogue ι ν α} {b : α}
    (h : (note n rest).Leads es ns (.done b)) :
    ∃ ns', ns = n :: ns' ∧ rest.Leads es ns' (.done b) := by
  cases h with
  | note h => exact ⟨_, rfl, h⟩

theorem leads_ask {c : Call ι} {next : c.Answer → Dialogue ι ν α} {b : α}
    (h : (ask c next).Leads es ns (.done b)) :
    ∃ x es', es = ⟨c, x⟩ :: es' ∧ (next x).Leads es' ns (.done b) := by
  cases h with
  | ask x h => exact ⟨x, _, rfl, h⟩

end Dialogue

inductive Opening : List (Exchange ι) → Prop where
  | already : Opening [⟨.isStopped, true⟩]
  | requested (n : Nat) : Opening [⟨.isStopped, false⟩, ⟨.requestStop .graceful, n⟩]

inductive Breaking : List (Exchange ι) → List Notice → Prop where
  | forced (n : Nat) : Breaking [⟨.requestStop .forced, n⟩] [.interrupted n]

inductive LastWait (budget : Budget) (i : ι) :
    List (Exchange ι) → List Notice → Outcome → Prop where
  | terminated : LastWait budget i [⟨.awaitTermination budget.force i, .ok true⟩] []
      .forcedTermination
  | timedOut (n : Nat) : LastWait budget i
      [⟨.awaitTermination budget.force i, .ok false⟩, ⟨.requestStop .forced, n⟩]
      [.notCleanlyShutDown n budget.grace budget.force] (.forcedAfterTimeout n)
  | interrupted {es : List (Exchange ι)} {ns : List Notice} : Breaking es ns →
      LastWait budget i (⟨.awaitTermination budget.force i, .error .interrupted⟩ :: es) ns
        .interrupted

inductive FirstWait (budget : Budget) (i : ι) :
    List (Exchange ι) → List Notice → Outcome → Prop where
  | terminated : FirstWait budget i [⟨.awaitTermination budget.grace i, .ok true⟩] [.drained]
      .completedCleanly
  | interrupted {es : List (Exchange ι)} {ns : List Notice} : Breaking es ns →
      FirstWait budget i (⟨.awaitTermination budget.grace i, .error .interrupted⟩ :: es) ns
        .interrupted
  | overtaken {es : List (Exchange ι)} {ns : List Notice} {o : Outcome} :
      LastWait budget i es ns o →
      FirstWait budget i (⟨.awaitTermination budget.grace i, .ok false⟩ ::
        ⟨.isTerminated, true⟩ :: es) ns o
  | escalated (n : Nat) {es : List (Exchange ι)} {ns : List Notice} {o : Outcome} :
      LastWait budget i es ns o →
      FirstWait budget i (⟨.awaitTermination budget.grace i, .ok false⟩ ::
        ⟨.isTerminated, false⟩ :: ⟨.requestStop .forced, n⟩ :: es)
        (.escalating budget.grace :: ns) o

inductive Course (budget : Budget) (i : ι) :
    List (Exchange ι) → List Notice → Outcome → Prop where
  | mk {before es : List (Exchange ι)} {ns : List Notice} {o : Outcome} :
      Opening before → FirstWait budget i es ns o → Course budget i (before ++ es) ns o

section Inversion

open Dialogue

variable {budget : Budget} {i : ι} {es : List (Exchange ι)} {ns : List Notice} {o : Outcome}

theorem breaking_of_leads (h : (breakOff : Plan ι Outcome).Leads es ns (.done o)) :
    Breaking es ns ∧ o = .interrupted := by
  obtain ⟨n, _, rfl, hn⟩ := leads_ask h
  obtain ⟨_, rfl, hd⟩ := leads_note hn
  obtain ⟨rfl, rfl, rfl⟩ := leads_done hd
  exact ⟨.forced n, rfl⟩

theorem lastWait_of_leads (h : (awaitForced budget i).Leads es ns (.done o)) :
    LastWait budget i es ns o := by
  obtain ⟨r, _, rfl, hr⟩ := leads_ask h
  match r with
  | .ok true =>
    obtain ⟨rfl, rfl, rfl⟩ := leads_done hr
    exact .terminated
  | .ok false =>
    obtain ⟨n, _, rfl, hn⟩ := leads_ask hr
    obtain ⟨_, rfl, hd⟩ := leads_note hn
    obtain ⟨rfl, rfl, rfl⟩ := leads_done hd
    exact .timedOut n
  | .error .interrupted =>
    obtain ⟨hb, rfl⟩ := breaking_of_leads hr
    exact .interrupted hb

theorem firstWait_of_leads (h : (awaitGraceful budget i).Leads es ns (.done o)) :
    FirstWait budget i es ns o := by
  obtain ⟨r, _, rfl, hr⟩ := leads_ask h
  match r with
  | .ok true =>
    obtain ⟨_, rfl, hd⟩ := leads_note hr
    obtain ⟨rfl, rfl, rfl⟩ := leads_done hd
    exact .terminated
  | .ok false =>
    obtain ⟨b, _, rfl, hb⟩ := leads_ask hr
    match b with
    | true => exact .overtaken (lastWait_of_leads hb)
    | false =>
      obtain ⟨_, rfl, hn⟩ := leads_note hb
      obtain ⟨n, _, rfl, hf⟩ := leads_ask hn
      exact .escalated n (lastWait_of_leads hf)
  | .error .interrupted =>
    obtain ⟨hb, rfl⟩ := breaking_of_leads hr
    exact .interrupted hb

/-- A sequence that has come to its end took one of the courses. -/
theorem course_of_leads (h : (sequence budget i).Leads es ns (.done o)) :
    Course budget i es ns o := by
  obtain ⟨b, _, rfl, hb⟩ := leads_ask h
  match b with
  | true => exact .mk .already (firstWait_of_leads hb)
  | false =>
    obtain ⟨n, _, rfl, hn⟩ := leads_ask hb
    exact .mk (.requested n) (firstWait_of_leads hn)

end Inversion

section Course

variable {budget : Budget} {i : ι} {es : List (Exchange ι)} {ns : List Notice} {o : Outcome}

theorem Course.terminated (h : Course budget i es ns o) (ho : o.isTerminated = true) :
    ∃ timeout, ⟨.awaitTermination timeout i, .ok true⟩ ∈ es := by
  obtain ⟨-, hf⟩ := h
  cases hf with
  | terminated => exact ⟨_, List.mem_append_right _ (.head _)⟩
  | interrupted => exact nomatch ho
  | overtaken hl | escalated _ hl =>
    cases hl with
    | terminated => exact ⟨budget.force, by simp⟩
    | timedOut | interrupted => exact nomatch ho

theorem Course.halted (h : Course budget i es ns o) (ho : o.isTerminated = false) :
    ∃ n, ⟨.requestStop .forced, n⟩ ∈ es := by
  obtain ⟨-, hf⟩ := h
  cases hf with
  | terminated => exact nomatch ho
  | interrupted hb =>
    obtain ⟨n⟩ := hb
    exact ⟨n, by simp⟩
  | overtaken hl | escalated _ hl =>
    cases hl with
    | terminated => exact nomatch ho
    | timedOut n => exact ⟨n, by simp⟩
    | interrupted hb =>
      obtain ⟨n⟩ := hb
      exact ⟨n, by simp⟩

theorem Course.interrupted (h : Course budget i es ns .interrupted) :
    ∃ timeout, ⟨.awaitTermination timeout i, .error .interrupted⟩ ∈ es := by
  obtain ⟨-, hf⟩ := h
  cases hf with
  | interrupted => exact ⟨_, List.mem_append_right _ (.head _)⟩
  | overtaken hl | escalated _ hl =>
    cases hl with
    | interrupted => exact ⟨budget.force, by simp⟩

theorem Course.clean (h : Course budget i es ns .completedCleanly) :
    ∀ e ∈ es, e.call ≠ .requestStop .forced := by
  obtain ⟨ho, hf⟩ := h
  cases hf with
  | terminated => cases ho <;> simp
  | overtaken hl | escalated _ hl => cases hl

end Course

end Quiesce.Drain
