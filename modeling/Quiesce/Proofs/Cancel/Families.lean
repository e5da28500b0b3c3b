import Mathlib.Data.List.Induction
import Mathlib.Logic.Relation
import Quiesce.Cancel
import Quiesce.Proofs.Cancel.Wakeup

set_option autoImplicit false

namespace Quiesce.Cancel

inductive Operation where
  | fresh
  | clone (t : Nat)
  | cancel (t : Nat)
deriving DecidableEq, Repr

namespace Tokens

def size (ts : Tokens) : Nat := ts.families.length

def apply (ts : Tokens) : Operation → Tokens
  | .fresh => ts.fresh
  | .clone t => ts.clone t
  | .cancel t => ts.cancel t

def after (ops : List Operation) : Tokens := ops.foldl apply empty

/-- At some time of this history there was the token `s` and it was cancelled. -/
def Cancelled (ops : List Operation) (s : Nat) : Prop :=
  ∃ before, before ++ [.cancel s] <+: ops ∧ s < (after before).size

/-- At some time of this history the token `t` was made as a clone of the token `s`. -/
def Cloned (ops : List Operation) (s t : Nat) : Prop :=
  ∃ before, before ++ [.clone s] <+: ops ∧ s < (after before).size ∧ t = (after before).size

def Linked (ops : List Operation) : Nat → Nat → Prop := Relation.EqvGen (Cloned ops)

variable {ts ts' : Tokens} {ops past future : List Operation} {o : Operation} {s t f : Nat}

/-- An operation that makes a token puts it into a family of its own or into that of an earlier one.
Nothing happens where there is no such token. -/
inductive Step (ts : Tokens) : Operation → Tokens → Prop where
  | fresh : Step ts .fresh ⟨ts.families ++ [ts.flags.length], ts.flags ++ [false]⟩
  | clone {s f : Nat} : ts.family? s = some f →
      Step ts (.clone s) { ts with families := ts.families ++ [f] }
  | cancel {s f : Nat} : ts.family? s = some f →
      Step ts (.cancel s) { ts with flags := ts.flags.set f true }
  | cloneNone {s : Nat} : ts.size ≤ s → Step ts (.clone s) ts
  | cancelNone {s : Nat} : ts.size ≤ s → Step ts (.cancel s) ts

theorem step_apply (ts : Tokens) (o : Operation) : ts.Step o (ts.apply o) := by
  cases o with
  | fresh => exact .fresh
  | clone s =>
    rw [apply, clone]
    split
    · rename_i f hf
      exact .clone hf
    · rename_i hn
      exact .cloneNone (List.getElem?_eq_none_iff.mp hn)
  | cancel s =>
    rw [apply, cancel]
    split
    · rename_i f hf
      exact .cancel hf
    · rename_i hn
      exact .cancelNone (List.getElem?_eq_none_iff.mp hn)

theorem Step.families_extend (h : ts.Step o ts') : ts.families <+: ts'.families := by
  cases h with
  | fresh | clone => exact List.prefix_append _ _
  | cancel | cloneNone | cancelNone => exact List.prefix_rfl

def Flagged (ts : Tokens) : Prop := ∀ f ∈ ts.families, f < ts.flags.length

theorem Flagged.step (h : ts.Step o ts') (ht : ts.Flagged) : ts'.Flagged := by
  cases h with
  | fresh =>
    intro f hf
    rw [List.length_append, List.length_singleton]
    rcases List.mem_append.mp hf with hm | hm
    · exact Nat.lt_succ_of_lt (ht f hm)
    · exact List.mem_singleton.mp hm ▸ Nat.lt_succ_self _
  | @clone s g hs =>
    have hg : g ∈ ts.families := List.mem_of_getElem? hs
    intro f hf
    rcases List.mem_append.mp hf with hm | hm
    · exact ht f hm
    · exact List.mem_singleton.mp hm ▸ ht g hg
  | cancel hs =>
    intro f hf
    rw [List.length_set]
    exact ht f hf
  | cloneNone | cancelNone => exact ht

theorem after_concat (ops : List Operation) (o : Operation) :
    after (ops ++ [o]) = (after ops).apply o := by
  rw [after, List.foldl_append]
  rfl

theorem step_after (ops : List Operation) (o : Operation) :
    (after ops).Step o (after (ops ++ [o])) :=
  after_concat ops o ▸ step_apply _ o

theorem flagged_after (ops : List Operation) : (after ops).Flagged := by
  induction ops using List.reverseRecOn with
  | nil => exact nofun
  | append_singleton ops o ih => exact ih.step (step_after ops o)

theorem families_extend (past future : List Operation) :
    (after past).families <+: (after (past ++ future)).families := by
  induction future using List.reverseRecOn with
  | nil => exact (List.append_nil past).symm ▸ List.prefix_rfl
  | append_singleton future o ih =>
    rw [← List.append_assoc]
    exact ih.trans (step_after (past ++ future) o).families_extend

theorem size_mono (h : past <+: ops) : (after past).size ≤ (after ops).size := by
  obtain ⟨future, rfl⟩ := h
  exact (families_extend past future).length_le

theorem family?_stays (h : past <+: ops) (ht : t < (after past).size) :
    (after ops).family? t = (after past).family? t := by
  obtain ⟨future, rfl⟩ := h
  obtain ⟨later, h⟩ := families_extend past future
  rw [family?, family?, ← h, List.getElem?_append_left ht]

theorem lt_size (h : ts.family? t = some f) : t < ts.size :=
  (List.getElem?_eq_some_iff.mp h).1

theorem exists_family (h : t < ts.size) : ∃ f, ts.family? t = some f :=
  ⟨_, List.getElem?_eq_getElem h⟩

theorem Cancelled.lt_size (h : Cancelled ops s) : s < (after ops).size := by
  obtain ⟨before, hpre, hs⟩ := h
  exact Nat.lt_of_lt_of_le hs (size_mono ((List.prefix_append before _).trans hpre))

theorem cancelled_concat :
    Cancelled (ops ++ [o]) s ↔ Cancelled ops s ∨ (o = .cancel s ∧ s < (after ops).size) := by
  simp only [Cancelled, List.prefix_concat_iff]
  constructor
  · rintro ⟨before, heq | hpre, hs⟩
    · obtain ⟨rfl, ho⟩ := List.append_inj' heq rfl
      exact .inr ⟨(List.singleton_inj.mp ho).symm, hs⟩
    · exact .inl ⟨before, hpre, hs⟩
  · rintro (⟨before, hpre, hs⟩ | ⟨rfl, hs⟩)
    · exact ⟨before, .inr hpre, hs⟩
    · exact ⟨ops, .inl rfl, hs⟩

theorem Linked.append (h : Linked past s t) (future : List Operation) :
    Linked (past ++ future) s t := by
  refine Relation.EqvGen.mono ?_ s t h
  rintro u v ⟨before, hpre, hrest⟩
  exact ⟨before, hpre.trans (List.prefix_append past future), hrest⟩

theorem Linked.symm (h : Linked ops s t) : Linked ops t s := Relation.EqvGen.symm s t h

theorem Cloned.family?_eq (h : Cloned ops s t) : (after ops).family? s = (after ops).family? t := by
  obtain ⟨before, hpre, hs, rfl⟩ := h
  obtain ⟨f, hf⟩ := exists_family hs
  have hmade : (after (before ++ [.clone s])).family? (after before).size = some f := by
    have hstep := step_after before (.clone s)
    generalize after (before ++ [.clone s]) = ts at hstep
    cases hstep with
    | clone hs' =>
      obtain rfl := Option.some.inj (hf.symm.trans hs')
      exact List.getElem?_concat_length
    | cloneNone hn => exact absurd hs (Nat.not_lt.mpr hn)
  rw [family?_stays hpre (lt_size hmade), hmade,
    family?_stays ((List.prefix_append before _).trans hpre) hs, hf]

theorem Linked.family?_eq (h : Linked ops s t) : (after ops).family? s = (after ops).family? t := by
  induction h with
  | rel u v huv => exact huv.family?_eq
  | refl u => rfl
  | symm u v _ ih => exact ih.symm
  | trans u v w _ _ ihu ihv => exact ihu.trans ihv

theorem Step.family? (h : ts.Step o ts') (ht : ts'.family? t = some f) :
    ts.family? t = some f ∨ (t = ts.size ∧
      ((o = .fresh ∧ f = ts.flags.length) ∨ ∃ s, o = .clone s ∧ ts.family? s = some f)) := by
  have hmade : ∀ g, (ts.families ++ [g])[t]? = some f →
      ts.family? t = some f ∨ (t = ts.size ∧ f = g) := by
    intro g hg
    rcases Nat.lt_or_ge t ts.families.length with hlt | hge
    · exact .inl (by rwa [List.getElem?_append_left hlt] at hg)
    · rw [List.getElem?_append_right hge, List.getElem?_singleton] at hg
      split at hg
      · rename_i hz
        exact .inr ⟨Nat.le_antisymm (Nat.le_of_sub_eq_zero hz) hge, (Option.some.inj hg).symm⟩
      · exact nomatch hg
  cases h with
  | fresh => exact (hmade _ ht).imp_right fun ⟨he, hf⟩ => ⟨he, .inl ⟨rfl, hf⟩⟩
  | @clone s g hs =>
    refine (hmade _ ht).imp_right ?_
    rintro ⟨he, rfl⟩
    exact ⟨he, .inr ⟨s, rfl, hs⟩⟩
  | cancel | cloneNone | cancelNone => exact .inl ht

/-- Tokens of one family are linked. -/
theorem linked_of_family (hs : (after ops).family? s = some f)
    (ht : (after ops).family? t = some f) : Linked ops s t := by
  induction ops using List.reverseRecOn generalizing s t f with
  | nil => exact nomatch hs
  | append_singleton ops o ih =>
    -- A token joins others only as a clone of one of them: a fresh one has a flag of its own.
    have hmade : ∀ {u v}, (after ops).family? u = some f → v = (after ops).size →
        ((o = .fresh ∧ f = (after ops).flags.length) ∨
          ∃ w, o = .clone w ∧ (after ops).family? w = some f) → Linked (ops ++ [o]) u v := by
      rintro u v hu rfl (⟨-, rfl⟩ | ⟨w, rfl, hw⟩)
      · exact absurd (flagged_after ops _ (List.mem_of_getElem? hu)) (Nat.lt_irrefl _)
      · have hcloned : Cloned (ops ++ [.clone w]) w (after ops).size :=
          ⟨ops, List.prefix_rfl, lt_size hw, rfl⟩
        exact .trans _ _ _ ((ih hu hw).append _) (.rel _ _ hcloned)
    rcases (step_after ops o).family? hs with hs | ⟨he, hs⟩
    · rcases (step_after ops o).family? ht with ht | ⟨he, ht⟩
      · exact (ih hs ht).append [o]
      · exact hmade hs he ht
    · rcases (step_after ops o).family? ht with ht | ⟨rfl, -⟩
      · exact (hmade ht he hs).symm
      · exact he ▸ .refl _

theorem Step.flag_iff (h : ts.Step o ts') (ht : ts.Flagged) : ts'.flags[f]? = some true ↔
    ts.flags[f]? = some true ∨ ∃ s, o = .cancel s ∧ ts.family? s = some f := by
  cases h with
  | fresh =>
    simp only [reduceCtorEq, false_and, exists_false, or_false]
    rcases Nat.lt_or_ge f ts.flags.length with hf | hf
    · rw [List.getElem?_append_left hf]
    · rw [List.getElem?_append_right hf, List.getElem?_eq_none_iff.mpr hf, List.getElem?_singleton]
      split <;> simp
  | clone | cloneNone => simp only [reduceCtorEq, false_and, exists_false, or_false]
  | @cancel s g hs =>
    have hg : g < ts.flags.length := ht g (List.mem_of_getElem? hs)
    simp only [Operation.cancel.injEq, exists_eq_left', hs, Option.some.injEq]
    by_cases he : g = f
    · subst he
      simp [List.getElem?_set_self hg]
    · simp [List.getElem?_set_ne he, he]
  | @cancelNone s hs =>
    have hn : ts.family? s = none := List.getElem?_eq_none_iff.mpr hs
    simp [hn]

theorem flag_iff : (after ops).flags[f]? = some true ↔
    ∃ s, Cancelled ops s ∧ (after ops).family? s = some f := by
  induction ops using List.reverseRecOn with
  | nil =>
    refine iff_of_false nofun ?_
    rintro ⟨s, -, hs⟩
    exact nomatch hs
  | append_singleton ops o ih =>
    have hstays : ∀ {s}, s < (after ops).size →
        (after (ops ++ [o])).family? s = (after ops).family? s :=
      fun hs => family?_stays (List.prefix_append ops [o]) hs
    rw [(step_after ops o).flag_iff (flagged_after ops), ih]
    simp only [cancelled_concat]
    constructor
    · rintro (⟨s, hc, hs⟩ | ⟨s, rfl, hs⟩)
      · exact ⟨s, .inl hc, (hstays hc.lt_size).trans hs⟩
      · exact ⟨s, .inr ⟨rfl, lt_size hs⟩, (hstays (lt_size hs)).trans hs⟩
    · rintro ⟨s, hc | ⟨rfl, hlt⟩, hs⟩
      · exact .inl ⟨s, hc, (hstays hc.lt_size).symm.trans hs⟩
      · exact .inr ⟨s, rfl, (hstays hlt).symm.trans hs⟩

theorem isCancelled_iff : ts.isCancelled t = true ↔
    ∃ f, ts.family? t = some f ∧ ts.flags[f]? = some true := by
  rw [isCancelled, Option.getD_eq_iff]
  simp [Option.bind_eq_some_iff]

theorem isCancelled_after_iff (ht : t < (after ops).size) : (after ops).isCancelled t = true ↔
    ∃ s, Cancelled ops s ∧ (after ops).family? s = (after ops).family? t := by
  obtain ⟨f, hf⟩ := exists_family ht
  simp only [isCancelled_iff, flag_iff, hf, Option.some.injEq, exists_eq_left']

theorem linked_append_iff (hs : s < (after past).size) (ht : t < (after past).size) :
    Linked (past ++ future) s t ↔ (after past).family? s = (after past).family? t := by
  have hpre := List.prefix_append past future
  constructor
  · intro h
    have hsame := h.family?_eq
    rwa [family?_stays hpre hs, family?_stays hpre ht] at hsame
  · intro h
    obtain ⟨f, hf⟩ := exists_family ht
    exact (linked_of_family (h.trans hf) hf).append future

theorem isCancelled_concat (ht : t < (after past).size) (o : Operation) :
    (after (past ++ [o])).isCancelled t = true ↔ (after past).isCancelled t = true ∨
      ∃ s, o = .cancel s ∧ (after past).family? s = (after past).family? t := by
  have hsame := family?_stays (List.prefix_append past [o]) ht
  obtain ⟨f, hf⟩ := exists_family ht
  simp only [isCancelled_iff, hsame, hf, Option.some.injEq, exists_eq_left',
    (step_after past o).flag_iff (flagged_after past)]

theorem cancel_again (h : (after ops).isCancelled t = true) :
    (after ops).cancel t = after ops := by
  obtain ⟨f, ht, hf⟩ := isCancelled_iff.mp h
  simp only [cancel, ht]
  obtain ⟨hl, he⟩ := List.getElem?_eq_some_iff.mp hf
  rw [← he, List.set_getElem_self]

/-- After any history a token is cancelled exactly if a token linked to it has been cancelled before,
however the history goes on. A further cancellation changes nothing, and an operation changes the
state of a token only by cancelling one that is linked to it. -/
theorem cancellation_spreads (past future : List Operation) (t : Nat)
    (ht : t < (after past).size) :
    ((after past).isCancelled t = true ↔
      ∃ s, Cancelled past s ∧ Linked (past ++ future) s t) ∧
    ((after past).isCancelled t = true → after (past ++ [.cancel t]) = after past) ∧
    ∀ o, (after (past ++ [o])).isCancelled t ≠ (after past).isCancelled t →
      ∃ s, o = .cancel s ∧ Linked past s t := by
  refine ⟨?_, ?_, ?_⟩
  · rw [isCancelled_after_iff ht]
    exact exists_congr fun s => and_congr_right fun hs => (linked_append_iff hs.lt_size ht).symm
  · intro h
    rw [after_concat]
    exact cancel_again h
  · intro o hne
    have hlater := isCancelled_concat ht o
    by_cases h : ∃ s, o = .cancel s ∧ (after past).family? s = (after past).family? t
    · obtain ⟨s, rfl, hs⟩ := h
      obtain ⟨f, hf⟩ := exists_family ht
      exact ⟨s, rfl, linked_of_family (hs.trans hf) hf⟩
    · rw [or_iff_left h] at hlater
      exact absurd (Bool.eq_iff_iff.mpr hlater) hne

def lineage : List Operation :=
  [.fresh, .fresh, .clone 0, .clone 2, .cancel 3, .clone 2]

theorem lineage_spread :
    (after lineage).states = [true, false, true, true, true] ∧
    (∃ s, Cancelled lineage s ∧ Linked lineage s 0) ∧
    (∃ s, Cancelled lineage s ∧ Linked lineage s 4) ∧
    (∀ future s, Cancelled lineage s → ¬ Linked (lineage ++ future) s 1) ∧
    after (lineage ++ [.cancel 4]) = after lineage ∧
    ∃ s, Operation.cancel 1 = .cancel s ∧ Linked lineage s 1 := by
  have hlast := cancellation_spreads lineage [] 4 (by decide)
  refine ⟨by decide, (cancellation_spreads lineage [] 0 (by decide)).1.mp (by decide),
    hlast.1.mp (by decide), ?_, hlast.2.1 (by decide), ?_⟩
  · intro future s hs hl
    exact absurd ((cancellation_spreads lineage future 1 (by decide)).1.mpr ⟨s, hs, hl⟩) (by decide)
  · exact (cancellation_spreads lineage [] 1 (by decide)).2.2 (.cancel 1) (by decide)

end Tokens

namespace Crowd

variable {c d : Crowd} {x : Move} {moves : List Move}

def Move.operation? : Move → Option Operation
  | .fresh => some .fresh
  | .clone t => some (.clone t)
  | .through t .cancel => some (.cancel t)
  | .through _ _ => none

theorem cancelled_eq {f g : Flag} {y : Cancel.Move} (h : f.step? y = some g) (hy : y ≠ .cancel) :
    g.cancelled = f.cancelled := by
  cases Flag.step_of_step? h with
  | cancel | cancelAgain => exact absurd rfl hy
  | wait | look | stir | elapse => rfl

theorem tokens_step (h : c.step? x = some d) :
    d.tokens = (Move.operation? x).toList.foldl Tokens.apply c.tokens := by
  cases x with
  | fresh =>
    obtain rfl := Option.some.inj h
    simp [tokens, Move.operation?, Tokens.apply, Tokens.fresh, Flag.initial]
  | clone t =>
    obtain ⟨k, hk, rfl⟩ := Option.map_eq_some_iff.mp h
    simp [tokens, Move.operation?, Tokens.apply, Tokens.clone, Tokens.family?, hk]
  | through t y =>
    obtain ⟨k, f, g, hk, hf, hg, rfl⟩ := through_eq_some.mp h
    obtain ⟨hl, rfl⟩ := List.getElem?_eq_some_iff.mp hf
    by_cases hy : y = .cancel
    · subst hy
      have hset : g.cancelled = true := by
        cases Flag.step_of_step? hg with
        | cancel => rfl
        | cancelAgain hc => exact hc
      simp [tokens, Move.operation?, Tokens.apply, Tokens.cancel, Tokens.family?, hk, List.map_set,
        hset]
    · have hnone : Move.operation? (.through t y) = none := by
        cases y with
        | cancel => exact absurd rfl hy
        | wait | look | stir | elapse => rfl
      have hsame : (c.flags.set k g).map Flag.cancelled = c.flags.map Flag.cancelled := by
        rw [List.map_set, cancelled_eq hg hy, ← List.map_set, List.set_getElem_self]
      rw [hnone, tokens, hsame]
      rfl

/-- Whatever goes on among the threads, the tokens are those of the operations among their moves. -/
theorem tokens_of_run (h : empty.run? moves = some c) :
    c.tokens = Tokens.after (moves.filterMap Move.operation?) := by
  suffices hrun : ∀ b : Crowd, b.run? moves = some c →
      c.tokens = (moves.filterMap Move.operation?).foldl Tokens.apply b.tokens from hrun empty h
  clear h
  induction moves with
  | nil =>
    intro b h
    obtain rfl := Option.some.inj h
    rfl
  | cons x rest ih =>
    intro b h
    obtain ⟨d, hd, hr⟩ := runs.cons_eq_some.mp h
    rw [ih d hr, tokens_step hd]
    cases hx : Move.operation? x with
    | none => rw [List.filterMap_cons_none hx]; rfl
    | some o => rw [List.filterMap_cons_some hx]; rfl

end Crowd

end Quiesce.Cancel
