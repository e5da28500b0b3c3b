import Quiesce.Text.Basic

set_option autoImplicit false

namespace Quiesce.Text.Replace

variable {α : Type} [DecidableEq α] {p : List α}

theorem scan_of_prefix (hp : p ≠ []) (r s : List α) :
    scan p r 0 (p ++ s) = r ++ scan p r 0 s := by
  cases p with
  | nil => exact absurd rfl hp
  | cons c rest =>
    have hpre : (c :: rest).isPrefixOf (c :: (rest ++ s)) = true :=
      List.isPrefixOf_iff_prefix.mpr ⟨s, rfl⟩
    rw [List.cons_append, scan, if_pos hpre, scan_drop]
    simp only [List.length_cons, Nat.add_sub_cancel, List.drop_left]

theorem scan_cons {c : α} {s : List α} (h : ¬ p <+: c :: s) (r : List α) :
    scan p r 0 (c :: s) = c :: scan p r 0 s := by
  have hpre : p.isPrefixOf (c :: s) ≠ true := mt List.isPrefixOf_iff_prefix.mp h
  rw [scan, if_neg hpre]

theorem occurs_iff {s : List α} : occurs p s = true ↔ p <:+: s := by
  induction s with
  | nil => rw [occurs, List.isEmpty_iff, List.infix_nil]
  | cons c rest ih =>
    rw [occurs, Bool.or_eq_true, ih, List.isPrefixOf_iff_prefix, List.infix_cons_iff]

theorem scan_of_not_infix {s : List α} (h : ¬ p <:+: s) (r : List α) : scan p r 0 s = s := by
  induction s with
  | nil => rfl
  | cons c rest ih =>
    rw [List.infix_cons_iff, not_or] at h
    rw [scan_cons h.1, ih h.2]

theorem all_of_not_occurs {s : List α} (h : ¬ occurs p s = true) (r : List α) :
    all p r s = s := by
  unfold all
  split
  · rfl
  · exact scan_of_not_infix (mt occurs_iff.mpr h) r

theorem all_eq_scan (hp : p ≠ []) (r s : List α) : all p r s = scan p r 0 s :=
  if_neg (mt List.isEmpty_iff.mp hp)

/-- A pass goes by the occurrence or by the element with which the text begins. -/
theorem scan_induct (hp : p ≠ []) {motive : List α → Prop} (nil : motive [])
    (cons : ∀ c s, ¬ p <+: c :: s → motive s → motive (c :: s))
    (found : ∀ s, motive s → motive (p ++ s)) (s : List α) : motive s := by
  induction hn : s.length using Nat.strongRecOn generalizing s with
  | _ n ih =>
    cases s with
    | nil => exact nil
    | cons c rest =>
      by_cases hpre : p <+: c :: rest
      · obtain ⟨t, ht⟩ := hpre
        have hlen : t.length < n := by
          have hpos := List.length_pos_iff.mpr hp
          rw [← hn, ← ht, List.length_append]
          omega
        rw [← ht]
        exact found t (ih t.length hlen t rfl)
      · exact cons c rest hpre (ih rest.length (by simp [← hn]) rest rfl)

section Foreign

variable {q r s : List α}

theorem infix_of_infix_append {β : Type} {q r s : List β} (hq : q ≠ []) (hr : ∀ c ∈ r, c ∉ q)
    (h : q <:+: r ++ s) : q <:+: s := by
  rcases List.infix_append_iff.mp h with hin | hin | ⟨q₁, q₂, rfl, h₁, h₂⟩
  · obtain ⟨c, hc⟩ := List.exists_mem_of_ne_nil q hq
    exact absurd hc (hr c (hin.subset hc))
  · exact hin
  · cases q₁ with
    | nil => exact h₂.isInfix
    | cons c rest =>
      have hc : c ∈ c :: rest := List.mem_cons_self ..
      exact absurd (List.mem_append_left q₂ hc) (hr c (h₁.subset hc))

theorem prefix_of_prefix_scan (hp : p ≠ []) (hne : r ≠ []) (hr : ∀ c ∈ r, c ∉ q)
    (h : q <+: scan p r 0 s) : q <+: s := by
  induction s using scan_induct hp generalizing q with
  | nil => exact h
  | cons c s hn ih =>
    rw [scan_cons hn] at h
    cases q with
    | nil => exact List.nil_prefix
    | cons d q =>
      obtain ⟨rfl, hrest⟩ := List.cons_prefix_cons.mp h
      refine List.cons_prefix_cons.mpr ⟨rfl, ih ?_ hrest⟩
      intro e he hm
      exact hr e he (List.mem_cons_of_mem d hm)
  | found s _ =>
    have hscan := scan_of_prefix hp r s
    rw [hscan] at h
    cases q with
    | nil => exact List.nil_prefix
    | cons d q =>
      obtain ⟨e, r, rfl⟩ := List.exists_cons_of_ne_nil hne
      rw [List.cons_append] at h
      obtain ⟨rfl, -⟩ := List.cons_prefix_cons.mp h
      exact absurd (List.mem_cons_self ..) (hr d (List.mem_cons_self ..))

/-- What a pass puts in joins nothing to an occurrence that was not there. -/
theorem infix_of_infix_scan (hp : p ≠ []) (hq : q ≠ []) (hne : r ≠ []) (hr : ∀ c ∈ r, c ∉ q)
    (h : q <:+: scan p r 0 s) : q <:+: s := by
  induction s using scan_induct hp with
  | nil => exact h
  | cons c s hn ih =>
    have hscan := scan_cons hn r
    rw [hscan] at h
    rcases List.infix_cons_iff.mp h with hpre | hin
    · rw [← hscan] at hpre
      exact (prefix_of_prefix_scan hp hne hr hpre).isInfix
    · exact List.infix_cons (ih hin)
  | found s ih =>
    have hscan := scan_of_prefix hp r s
    rw [hscan] at h
    exact (ih (infix_of_infix_append hq hr h)).trans (List.suffix_append p s).isInfix

theorem not_infix_scan (hp : p ≠ []) (hne : r ≠ []) (hr : ∀ c ∈ r, c ∉ p) (s : List α) :
    ¬ p <:+: scan p r 0 s := by
  induction s using scan_induct hp with
  | nil => exact fun h => hp (List.infix_nil.mp h)
  | cons c s hn ih =>
    intro h
    have hscan := scan_cons hn r
    rw [hscan] at h
    rcases List.infix_cons_iff.mp h with hpre | hin
    · rw [← hscan] at hpre
      exact hn (prefix_of_prefix_scan hp hne hr hpre)
    · exact ih hin
  | found s ih =>
    intro h
    have hscan := scan_of_prefix hp r s
    rw [hscan] at h
    exact ih (infix_of_infix_append hp hr h)

end Foreign

end Quiesce.Text.Replace
