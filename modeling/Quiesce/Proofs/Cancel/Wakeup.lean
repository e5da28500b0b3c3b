import Quiesce.Basic
import Quiesce.Cancel

set_option autoImplicit false

namespace Quiesce.Cancel

namespace Stage

def isParked : Stage → Bool
  | parked _ => true
  | _ => false

inductive Within (d : Deadline) : Stage → Prop where
  | watching : Within d (.watching d)
  | parked : Within d (.parked d)
  | answered (b : Bool) : Within d (.answered b)

inductive Next (f : Flag) (x : Move) (w : Nat) : Stage → Stage → Prop where
  | same (s : Stage) : Next f x w s s
  | stirred (d : Deadline) : Next f x w (.parked d) (.watching d)
  | looked (d : Deadline) : x = .look w → Next f x w (.watching d) (.look f.cancelled f.now d)

theorem look_eq_true {cancelled : Bool} {now : Instant} {d : Deadline} :
    look cancelled now d = .answered true ↔ cancelled = true := by
  cases cancelled with
  | true => simp [look]
  | false =>
    cases d with
    | none => simp [look]
    | some t => by_cases ht : t ≤ now <;> simp [look, ht]

theorem look_eq_false {cancelled : Bool} {now : Instant} {d : Deadline} :
    look cancelled now d = .answered false ↔ cancelled = false ∧ ∃ t, d = some t ∧ t ≤ now := by
  cases cancelled with
  | true => simp [look]
  | false =>
    cases d with
    | none => simp [look]
    | some t => by_cases ht : t ≤ now <;> simp [look, ht]

theorem within_look (cancelled : Bool) (now : Instant) (d : Deadline) :
    (look cancelled now d).Within d := by
  unfold look
  split
  · exact .answered true
  · split
    · exact .parked
    · split
      · exact .answered false
      · exact .parked

theorem next_stir (f : Flag) (x : Move) (w : Nat) (s : Stage) : s.Next f x w s.stir := by
  cases s with
  | parked d => exact .stirred d
  | _ => exact .same _

theorem Next.within {f : Flag} {x : Move} {w : Nat} {s s' : Stage} {d : Deadline}
    (h : s.Next f x w s') (hd : s.Within d) : s'.Within d := by
  cases h with
  | same => exact hd
  | stirred => cases hd; exact .watching
  | looked => cases hd; exact within_look _ _ _

end Stage

namespace Flag

variable {f g o : Flag} {x : Move} {moves : List Move} {w : Nat} {s : Stage} {b : Bool}

inductive Step (f : Flag) : Move → Flag → Prop where
  | cancel : f.cancelled = false →
      Step f .cancel { f with cancelled := true, waiters := f.waiters.map Stage.stir }
  | cancelAgain : f.cancelled = true → Step f .cancel f
  | wait {timeout : Duration} : Step f (.wait timeout)
      { f with waiters := f.waiters ++ [.watching (.after f.now timeout)] }
  | look {w : Nat} {d : Deadline} : f.waiters[w]? = some (.watching d) →
      Step f (.look w) { f with waiters := f.waiters.set w (.look f.cancelled f.now d) }
  | stir {w : Nat} {d : Deadline} : f.waiters[w]? = some (.parked d) →
      Step f (.stir w) { f with waiters := f.waiters.set w (.watching d) }
  | elapse {n : Nat} : Step f (.elapse n) { f with now := f.now + n }

theorem step_of_step? (h : f.step? x = some g) : Step f x g := by
  cases x with
  | cancel =>
    obtain rfl := Option.some.inj h
    unfold Flag.cancel
    split
    · rename_i hc
      exact .cancelAgain hc
    · rename_i hc
      exact .cancel (Bool.not_eq_true _ ▸ hc)
  | wait timeout =>
    obtain rfl := Option.some.inj h
    exact .wait
  | look w =>
    simp only [step?] at h
    split at h
    · rename_i d hw
      obtain rfl := Option.some.inj h
      exact .look hw
    · exact nomatch h
  | stir w =>
    simp only [step?] at h
    split at h
    · rename_i d hw
      obtain rfl := Option.some.inj h
      exact .stir hw
    · exact nomatch h
  | elapse n =>
    obtain rfl := Option.some.inj h
    exact .elapse

theorem set_goesOn (hw : f.waiters[w]? = some s) {v : Nat} {s' s'' : Stage}
    (hv : f.waiters[v]? = some s') (hn : v = w → s'.Next f x w s'') :
    ∃ r, (f.waiters.set v s'')[w]? = some r ∧ s.Next f x w r := by
  by_cases he : v = w
  · subst he
    obtain rfl := Option.some.inj (hv.symm.trans hw)
    obtain ⟨hl, -⟩ := List.getElem?_eq_some_iff.mp hw
    exact ⟨s'', List.getElem?_set_self hl, hn rfl⟩
  · exact ⟨s, by rw [List.getElem?_set_ne he]; exact hw, .same s⟩

theorem step_waiter (h : Step f x g) (hw : f.waiters[w]? = some s) :
    ∃ s', g.waiters[w]? = some s' ∧ s.Next f x w s' := by
  cases h with
  | cancel => exact ⟨s.stir, by simp [hw], s.next_stir f _ w⟩
  | wait =>
    obtain ⟨hl, -⟩ := List.getElem?_eq_some_iff.mp hw
    exact ⟨s, by rw [List.getElem?_append_left hl]; exact hw, .same s⟩
  | @look v d hv =>
    refine set_goesOn hw hv ?_
    rintro rfl
    exact .looked d rfl
  | stir hv => exact set_goesOn hw hv fun _ => .stirred _
  | cancelAgain | elapse => exact ⟨s, hw, .same s⟩

def Reaches (f g : Flag) : Prop := ∃ moves, f.run? moves = some g

theorem runs : Runs step? run? := ⟨fun _ => rfl, fun _ _ _ => rfl⟩

theorem run?_cons {rest : List Move} :
    f.run? (x :: rest) = some g ↔ ∃ o, f.step? x = some o ∧ o.run? rest = some g :=
  runs.cons_eq_some

theorem Reaches.keeps {P : Flag → Prop} (keeps : ∀ {f g x}, Step f x g → P f → P g)
    (h : f.Reaches g) (hf : P f) : P g := by
  obtain ⟨moves, hr⟩ := h
  exact runs.keeps_all (fun hs => keeps (step_of_step? hs)) hr hf

theorem Reaches.refl (f : Flag) : f.Reaches f := ⟨[], rfl⟩

theorem Reaches.head (hx : f.step? x = some o) (h : o.Reaches g) : f.Reaches g := by
  obtain ⟨moves, hr⟩ := h
  exact ⟨x :: moves, run?_cons.mpr ⟨o, hx, hr⟩⟩

theorem Reaches.trans (h : f.Reaches g) (k : g.Reaches o) : f.Reaches o := by
  obtain ⟨xs, hx⟩ := h
  obtain ⟨ys, hy⟩ := k
  exact ⟨xs ++ ys, runs.append_eq_some hx hy⟩

theorem cancelled_step (h : Step f x g) (hc : f.cancelled = true) : g.cancelled = true := by
  cases h with
  | cancel => rfl
  | _ => exact hc

def Alert (f : Flag) : Prop := f.cancelled = true → ∀ s ∈ f.waiters, s.isParked = false

theorem alert_initial (cancelled : Bool) : Alert (initial cancelled) := fun _ => nofun

theorem Alert.step (h : Step f x g) (ha : Alert f) : Alert g := by
  intro hc s hs
  cases h with
  | cancel =>
    obtain ⟨r, -, rfl⟩ := List.mem_map.mp hs
    cases r <;> rfl
  | wait =>
    rcases List.mem_append.mp hs with hm | hm
    · exact ha hc s hm
    · rw [List.mem_singleton.mp hm]
      rfl
  | look =>
    rcases List.mem_or_eq_of_mem_set hs with hm | rfl
    · exact ha hc s hm
    · rw [Stage.look_eq_true.mpr hc]
      rfl
  | stir =>
    rcases List.mem_or_eq_of_mem_set hs with hm | rfl
    · exact ha hc s hm
    · rfl
  | cancelAgain | elapse => exact ha hc s hs

structure Summoned (w : Nat) (f : Flag) : Prop where
  cancelled : f.cancelled = true
  alert : Alert f
  waiter : ∃ s, f.waiters[w]? = some s ∧ s ≠ .answered false

theorem Summoned.step (h : Step f x g) (hs : Summoned w f) : Summoned w g := by
  obtain ⟨hc, ha, s, hw, hn⟩ := hs
  obtain ⟨s', hw', hnext⟩ := step_waiter h hw
  refine ⟨cancelled_step h hc, ha.step h, s', hw', ?_⟩
  cases hnext with
  | same => exact hn
  | stirred => exact nofun
  | looked =>
    rw [Stage.look_eq_true.mpr hc]
    exact nofun

/-- The thread `w` has answered `true`, or is about to look and will then. -/
def Hears (f : Flag) (w : Nat) : Prop :=
  f.waiters[w]? = some (.answered true) ∨
    ∃ d g, f.waiters[w]? = some (.watching d) ∧ f.step? (.look w) = some g ∧
      g.waiters[w]? = some (.answered true)

theorem Summoned.hears (hs : Summoned w f) : f.Hears w := by
  obtain ⟨hc, ha, s, hw, hn⟩ := hs
  cases s with
  | parked d => exact absurd (ha hc _ (List.mem_of_getElem? hw)) (by simp [Stage.isParked])
  | answered b =>
    cases b with
    | false => exact absurd rfl hn
    | true => exact .inl hw
  | watching d =>
    obtain ⟨hl, -⟩ := List.getElem?_eq_some_iff.mp hw
    refine .inr ⟨d, { f with waiters := f.waiters.set w (.answered true) }, hw, ?_, ?_⟩
    · simp only [step?, hw, Stage.look_eq_true.mpr hc]
    · exact List.getElem?_set_self hl

theorem Summoned.hears_of_reaches (hs : Summoned w f) (h : f.Reaches g) : g.Hears w :=
  (Reaches.keeps Summoned.step h hs).hears

theorem summoned_cancel (ha : Alert f) (hw : f.waiters[w]? = some s) (hn : s ≠ .answered false) :
    Summoned w f.cancel := by
  have hstep : Step f .cancel f.cancel := step_of_step? rfl
  have hc : f.cancel.cancelled = true := by
    unfold Flag.cancel
    split <;> simp_all
  obtain ⟨s', hw', hnext⟩ := step_waiter hstep hw
  refine ⟨hc, ha.step hstep, s', hw', ?_⟩
  cases hnext with
  | same => exact hn
  | stirred => exact nofun
  | looked _ he => exact nomatch he

theorem answered_of_reaches (h : f.Reaches g) (hw : f.waiters[w]? = some (.answered b)) :
    g.waiters[w]? = some (.answered b) := by
  refine Reaches.keeps (P := fun o => o.waiters[w]? = some (.answered b)) ?_ h hw
  intro f g x hs hw
  obtain ⟨s', hw', hnext⟩ := step_waiter hs hw
  cases hnext
  exact hw'

/-- On the way along the moves from `f` the thread `w`, under the deadline `d`, looks in `g`. -/
def Looks (f : Flag) (moves : List Move) (w : Nat) (d : Deadline) (g : Flag) : Prop :=
  ∃ before after, moves = before ++ .look w :: after ∧ f.run? before = some g ∧
    g.waiters[w]? = some (.watching d)

theorem Looks.prepend {d : Deadline} (h : o.Looks moves w d g) (hx : f.step? x = some o) :
    f.Looks (x :: moves) w d g := by
  obtain ⟨before, after, rfl, hr, hw⟩ := h
  exact ⟨x :: before, after, rfl, run?_cons.mpr ⟨o, hx, hr⟩, hw⟩

theorem settled_run {d : Deadline} (h : f.run? moves = some g) (hs : f.waiters[w]? = some s)
    (hd : s.Within d) (hn : s.answer? = none) (ha : g.waiters[w]? = some (.answered b)) :
    ∃ o, f.Looks moves w d o ∧ Stage.look o.cancelled o.now d = .answered b := by
  induction moves generalizing f s with
  | nil =>
    obtain rfl := Option.some.inj h
    obtain rfl := Option.some.inj (hs.symm.trans ha)
    exact nomatch hn
  | cons x rest ih =>
    obtain ⟨p, hp, hr⟩ := run?_cons.mp h
    obtain ⟨s', hs', hnext⟩ := step_waiter (step_of_step? hp) hs
    have hd' := hnext.within hd
    cases hb : s'.answer? with
    | none =>
      obtain ⟨o, hl, ho⟩ := ih hr hs' hd' hb
      exact ⟨o, hl.prepend hp, ho⟩
    | some b' =>
      -- only the thread's own look can have brought the answer
      cases hnext with
      | same => exact absurd (hb.symm.trans hn) (Option.some_ne_none b')
      | stirred => exact nomatch hb
      | looked d' he =>
        cases hd
        subst he
        have hlook : Stage.look f.cancelled f.now d = .answered b' := by
          cases hl : Stage.look f.cancelled f.now d <;> simp_all [Stage.answer?]
        rw [hlook] at hs'
        have hlast := (answered_of_reaches ⟨rest, hr⟩ hs').symm.trans ha
        obtain rfl : b' = b := by simpa using hlast
        exact ⟨f, ⟨[], rest, rfl, rfl, hs⟩, hlook⟩

/-- What the thread that has begun a wait in `f` can rely on, after these moves. -/
structure Reliable (f : Flag) (timeout : Duration) (moves : List Move) (g : Flag) : Prop where
  ofTrue : g.waiters[f.waiters.length]? = some (.answered true) →
    g.cancelled = true ∧ ∃ d o, f.Looks moves f.waiters.length d o ∧ o.cancelled = true
  ofFalse : g.waiters[f.waiters.length]? = some (.answered false) →
    f.now + timeout.nanos < Instant.horizon ∧
      ∃ d o, f.Looks moves f.waiters.length d o ∧ o.cancelled = false ∧
        f.now + timeout.nanos ≤ o.now
  unlimited : Instant.horizon ≤ f.now + timeout.nanos →
    g.waiters[f.waiters.length]? ≠ some (.answered false)
  atOnce : f.cancelled = true → g.Hears f.waiters.length

theorem wait_get {timeout : Duration} (h : f.step? (.wait timeout) = some o) :
    o.waiters[f.waiters.length]? = some (.watching (.after f.now timeout)) := by
  obtain rfl := Option.some.inj h
  exact List.getElem?_concat_length

theorem wait_settled {timeout : Duration} (h : f.run? (.wait timeout :: moves) = some g)
    (ha : g.waiters[f.waiters.length]? = some (.answered b)) :
    ∃ o, f.Looks (.wait timeout :: moves) f.waiters.length (.after f.now timeout) o ∧
      Stage.look o.cancelled o.now (.after f.now timeout) = .answered b := by
  obtain ⟨p, hp, hr⟩ := run?_cons.mp h
  obtain ⟨o, hl, ho⟩ := settled_run hr (wait_get hp) .watching rfl ha
  exact ⟨o, hl.prepend hp, ho⟩

theorem Looks.reaches {d : Deadline} (hl : f.Looks moves w d o) (h : f.run? moves = some g) :
    o.Reaches g := by
  obtain ⟨before, after, rfl, hr, -⟩ := hl
  rw [runs.append, hr] at h
  exact ⟨_, h⟩

theorem reliable_of_run {timeout : Duration} (hf : Alert f)
    (h : f.run? (.wait timeout :: moves) = some g) :
    Reliable f timeout (.wait timeout :: moves) g := by
  have hfalse : g.waiters[f.waiters.length]? = some (.answered false) →
      f.now + timeout.nanos < Instant.horizon ∧
        ∃ d o, f.Looks (.wait timeout :: moves) f.waiters.length d o ∧ o.cancelled = false ∧
          f.now + timeout.nanos ≤ o.now := by
    intro ha
    obtain ⟨o, hl, ho⟩ := wait_settled h ha
    obtain ⟨hc, t, ht, hle⟩ := Stage.look_eq_false.mp ho
    obtain ⟨hlt, rfl⟩ := Deadline.after_eq_some_iff.mp ht
    exact ⟨hlt, _, o, hl, hc, hle⟩
  refine ⟨?_, hfalse, ?_, ?_⟩
  · intro ha
    obtain ⟨o, hl, ho⟩ := wait_settled h ha
    have hc := Stage.look_eq_true.mp ho
    exact ⟨Reaches.keeps cancelled_step (hl.reaches h) hc, _, o, hl, hc⟩
  · intro hover ha
    exact absurd (hfalse ha).1 (Nat.not_lt.mpr hover)
  · intro hc
    obtain ⟨p, hp, hr⟩ := run?_cons.mp h
    have hstep := step_of_step? hp
    have hs : Summoned f.waiters.length p :=
      ⟨cancelled_step hstep hc, hf.step hstep, _, wait_get hp, nofun⟩
    exact hs.hears_of_reaches ⟨moves, hr⟩

/-- What anybody can rely on who cancels, asks or waits. -/
structure Dependable (f : Flag) : Prop where
  sticky : f.cancelled = true → ∀ g, f.Reaches g → g.cancelled = true
  unparked : f.cancelled = true → ∀ (w : Nat) (d : Deadline), f.waiters[w]? ≠ some (.parked d)
  woken : ∀ (w : Nat) (s : Stage), f.waiters[w]? = some s → s ≠ .answered false →
    ∀ g, f.cancel.Reaches g → g.Hears w
  reliable : ∀ timeout moves g, f.run? (.wait timeout :: moves) = some g →
    Reliable f timeout (.wait timeout :: moves) g

theorem dependable_of_reaches {cancelled : Bool} (h : (initial cancelled).Reaches f) :
    Dependable f := by
  have ha : Alert f := Reaches.keeps Alert.step h (alert_initial cancelled)
  refine ⟨fun hc g hg => Reaches.keeps cancelled_step hg hc, ?_, ?_, ?_⟩
  · intro hc w d hw
    exact absurd (ha hc _ (List.mem_of_getElem? hw)) (by simp [Stage.isParked])
  · intro w s hw hn g hg
    exact (summoned_cancel ha hw hn).hears_of_reaches hg
  · intro timeout moves g hr
    exact reliable_of_run ha hr

end Flag

namespace Crowd

variable {c d : Crowd} {x : Move} {t : Nat} {f : Flag}

theorem runs : Runs step? run? := ⟨fun _ => rfl, fun _ _ _ => rfl⟩

def Reaches (c d : Crowd) : Prop := ∃ moves, c.run? moves = some d

theorem Reaches.keeps {P : Crowd → Prop} (keeps : ∀ {c d x}, c.step? x = some d → P c → P d)
    (h : c.Reaches d) (hc : P c) : P d := by
  obtain ⟨moves, hr⟩ := h
  exact runs.keeps_all keeps hr hc

theorem through_eq_some {y : Cancel.Move} : c.step? (.through t y) = some d ↔
    ∃ k g h, c.families[t]? = some k ∧ c.flags[k]? = some g ∧ g.step? y = some h ∧
      d = { c with flags := c.flags.set k h } := by
  simp only [step?, Option.bind_eq_bind, Option.bind_eq_some_iff, Option.some.injEq]
  constructor
  · rintro ⟨k, hk, g, hg, h, hh, rfl⟩
    exact ⟨k, g, h, hk, hg, hh, rfl⟩
  · rintro ⟨k, g, h, hk, hg, hh, rfl⟩
    exact ⟨k, hk, g, hg, h, hh, rfl⟩

theorem step_flag (h : c.step? x = some d) {k : Nat} (hk : c.families[t]? = some k)
    (hf : c.flags[k]? = some f) :
    d.families[t]? = some k ∧ ∃ g, d.flags[k]? = some g ∧ f.Reaches g := by
  obtain ⟨ht, -⟩ := List.getElem?_eq_some_iff.mp hk
  obtain ⟨hl, -⟩ := List.getElem?_eq_some_iff.mp hf
  cases x with
  | fresh =>
    obtain rfl := Option.some.inj h
    refine ⟨?_, f, ?_, .refl f⟩
    · rw [List.getElem?_append_left ht]
      exact hk
    · rw [List.getElem?_append_left hl]
      exact hf
  | clone s =>
    obtain ⟨j, -, rfl⟩ := Option.map_eq_some_iff.mp h
    refine ⟨?_, f, hf, .refl f⟩
    rw [List.getElem?_append_left ht]
    exact hk
  | through s y =>
    obtain ⟨j, g, o, -, hg, ho, rfl⟩ := through_eq_some.mp h
    refine ⟨hk, ?_⟩
    by_cases he : j = k
    · subst he
      obtain rfl := Option.some.inj (hg.symm.trans hf)
      exact ⟨o, List.getElem?_set_self hl, .head ho (.refl o)⟩
    · exact ⟨f, by rw [List.getElem?_set_ne he]; exact hf, .refl f⟩

theorem flag_of_reaches (h : c.Reaches d) {k : Nat} (hk : c.families[t]? = some k)
    (hf : c.flags[k]? = some f) :
    d.families[t]? = some k ∧ ∃ g, d.flags[k]? = some g ∧ f.Reaches g := by
  refine Reaches.keeps (P := fun d => d.families[t]? = some k ∧
    ∃ g, d.flags[k]? = some g ∧ f.Reaches g) ?_ h ⟨hk, f, hf, .refl f⟩
  rintro c d x hx ⟨hk, g, hg, hr⟩
  obtain ⟨hk', o, ho, hr'⟩ := step_flag hx hk hg
  exact ⟨hk', o, ho, hr.trans hr'⟩

theorem flags_begun (h : empty.Reaches c) : ∀ f ∈ c.flags, (Flag.initial false).Reaches f := by
  refine Reaches.keeps (P := fun c => ∀ f ∈ c.flags, (Flag.initial false).Reaches f) ?_ h nofun
  intro c d x hx hc f hf
  cases x with
  | fresh =>
    obtain rfl := Option.some.inj hx
    rcases List.mem_append.mp hf with hm | hm
    · exact hc f hm
    · rw [List.mem_singleton.mp hm]
      exact .refl _
  | clone s =>
    obtain ⟨j, -, rfl⟩ := Option.map_eq_some_iff.mp hx
    exact hc f hf
  | through s y =>
    obtain ⟨j, g, o, -, hg, ho, rfl⟩ := through_eq_some.mp hx
    rcases List.mem_or_eq_of_mem_set hf with hm | rfl
    · exact hc f hm
    · exact (hc g (List.mem_of_getElem? hg)).trans (.head ho (.refl _))

theorem isCancelled_tokens (hf : c.flag? t = some f) : c.tokens.isCancelled t = f.cancelled := by
  obtain ⟨k, hk, hg⟩ := Option.bind_eq_some_iff.mp hf
  simp [tokens, Tokens.isCancelled, Tokens.family?, hk, hg]

theorem flag?_of_related {s : Nat} (h : c.tokens.related s t = true) : c.flag? s = c.flag? t := by
  have hk : c.families[s]? = c.families[t]? := eq_of_beq h
  rw [flag?, hk, flag?]

end Crowd

/-- Whatever any number of threads do with any number of tokens and their clones, a token is
dependable: it and its clones have one flag for good, and that flag goes through its own moves. -/
theorem no_cancellation_missed {c : Crowd} (h : Crowd.empty.Reaches c) {t : Nat} {f : Flag}
    (ht : c.flag? t = some f) :
    c.tokens.isCancelled t = f.cancelled ∧ f.Dependable ∧
    ∀ d, c.Reaches d → ∃ g, f.Reaches g ∧ d.tokens.isCancelled t = g.cancelled ∧
      ∀ s, d.tokens.related s t = true → d.flag? s = some g := by
  obtain ⟨k, hk, hf⟩ := Option.bind_eq_some_iff.mp ht
  have hbegun := Crowd.flags_begun h f (List.mem_of_getElem? hf)
  refine ⟨Crowd.isCancelled_tokens ht, Flag.dependable_of_reaches hbegun, ?_⟩
  intro d hd
  obtain ⟨hk', g, hg, hr⟩ := Crowd.flag_of_reaches hd hk hf
  have htg : d.flag? t = some g := Option.bind_eq_some_iff.mpr ⟨k, hk', hg⟩
  refine ⟨g, hr, Crowd.isCancelled_tokens htg, ?_⟩
  intro s hs
  rw [Crowd.flag?_of_related hs, htg]

def gathering : List Crowd.Move :=
  [.fresh, .fresh, .clone 0, .through 0 (.wait ⟨5⟩), .through 2 (.wait .max), .through 2 (.look 1),
    .through 0 (.look 0), .through 2 (.elapse 7), .through 0 (.stir 0), .through 0 (.look 0)]

def gathered : Crowd := (Crowd.empty.run? gathering).getD .empty

def divided : Flag := ⟨false, [.answered false, .parked none], 7⟩

def summoned : Crowd := (gathered.run? [.clone 2, .through 3 .cancel]).getD gathered

theorem gathered_dependable :
    (gathered.flag? 0 = some divided ∧ gathered.tokens.isCancelled 0 = false ∧
      divided.Dependable ∧ divided.cancel.Hears 1) ∧
    (∃ g, divided.Reaches g ∧ summoned.tokens.isCancelled 0 = g.cancelled ∧ g.cancelled = true ∧
      summoned.flag? 2 = some g) ∧
    ∃ d o, (Flag.initial false).Looks [.wait ⟨5⟩, .look 0, .elapse 7, .stir 0, .look 0] 0 d o ∧
      o.cancelled = false ∧ 5 ≤ o.now := by
  have hfirst : Crowd.empty.Reaches ⟨[0], [.initial false]⟩ := ⟨[.fresh], rfl⟩
  have hreach : Crowd.empty.Reaches gathered := ⟨gathering, rfl⟩
  obtain ⟨hcancelled, hdep, hlater⟩ := no_cancellation_missed hreach (t := 0) (f := divided) rfl
  obtain ⟨g, hg, hset, hclones⟩ := hlater summoned ⟨[.clone 2, .through 3 .cancel], rfl⟩
  refine ⟨⟨rfl, hcancelled, hdep, ?_⟩, ⟨g, hg, hset, hset.symm, hclones 2 rfl⟩, ?_⟩
  · exact hdep.woken 1 (.parked none) rfl nofun _ (.refl _)
  · have hwait := (no_cancellation_missed hfirst (t := 0) (f := .initial false) rfl).2.1.reliable ⟨5⟩
      [.look 0, .elapse 7, .stir 0, .look 0] ⟨false, [.answered false], 7⟩ rfl
    obtain ⟨-, d, o, hlook, hunset, hclock⟩ := hwait.ofFalse rfl
    exact ⟨d, o, hlook, hunset, hclock⟩

end Quiesce.Cancel
