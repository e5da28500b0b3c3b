import Quiesce.Proofs.Template.Substitution

set_option autoImplicit false

namespace Quiesce.Template

open Text

def delimiters : List Char := ['$', '\x7b', '\x7d', '"']

theorem Form.mem_pattern {f : Form} {key : List Char} {c : Char} (h : c ∈ f.pattern key) :
    c ∈ delimiters ∨ c ∈ key := by
  have hopening : f.opening ⊆ delimiters := by cases f <;> decide
  have hending : f.ending ⊆ delimiters := by cases f <;> decide
  rw [pattern_eq, List.mem_append, List.mem_append, List.mem_cons] at h
  rcases h with h | h | rfl | h
  · exact .inl (hopening h)
  · exact .inr h
  · exact .inl (by decide)
  · exact .inl (hending h)

structure Inert (pairs : List (String × String)) : Prop where
  nonempty : ∀ p ∈ pairs, p.2 ≠ ""
  noDelimiter : ∀ p ∈ pairs, ∀ c ∈ p.2.toList, c ∉ delimiters
  noKey : ∀ p ∈ pairs, ∀ q ∈ pairs, ∀ c ∈ p.2.toList, c ∉ q.1.toList

def isInert (pairs : List (String × String)) : Bool :=
  pairs.all fun p => p.2 != "" && p.2.toList.all fun c =>
    !delimiters.contains c && pairs.all fun q => !q.1.toList.contains c

theorem isInert_iff {pairs : List (String × String)} : isInert pairs = true ↔ Inert pairs := by
  simp only [isInert, List.all_eq_true, Bool.and_eq_true, bne_iff_ne, Bool.not_eq_true',
    List.contains_eq_mem, decide_eq_false_iff_not]
  constructor
  · intro h
    exact ⟨fun p hp => (h p hp).1, fun p hp c hc => ((h p hp).2 c hc).1,
      fun p hp q hq c hc => ((h p hp).2 c hc).2 q hq⟩
  · intro h p hp
    exact ⟨h.nonempty p hp, fun c hc => ⟨h.noDelimiter p hp c hc,
      fun q hq => h.noKey p hp q hq c hc⟩⟩

instance (pairs : List (String × String)) : Decidable (Inert pairs) :=
  decidable_of_iff _ isInert_iff

/-- The value can be no part of a placeholder of the key. -/
structure Apart (value key : String) : Prop where
  nonempty : value.toList ≠ []
  foreign : ∀ (f : Form), ∀ c ∈ value.toList, c ∉ f.pattern key.toList

def Lacks (t : List Char) (key : String) (f : Form) : Prop := ¬ f.pattern key.toList <:+: t

section Passes

variable {p q : String × String} {ps : List (String × String)} {e : Expansion} {f : Form}
  {key value other : String}

theorem Inert.apart (h : Inert ps) (hp : p ∈ ps) (hq : q ∈ ps) : Apart p.2 q.1 := by
  refine ⟨fun he => h.nonempty p hp (String.toList_eq_nil_iff.mp he), ?_⟩
  intro f c hc hm
  rcases Form.mem_pattern hm with hd | hk
  · exact h.noDelimiter p hp c hc hd
  · exact h.noKey p hp q hq c hc hk

theorem form_lacks_own (h : Apart value key) (e : Expansion) (f : Form) :
    Lacks (e.form key value f).text key f := by
  rw [form_text, Replace.all_eq_scan (f.pattern_ne_nil _)]
  exact Replace.not_infix_scan (f.pattern_ne_nil _) h.nonempty (h.foreign f) e.text

theorem form_lacks (h : Apart value other) (hl : Lacks e.text other f) (g : Form) :
    Lacks (e.form key value g).text other f := by
  rw [form_text, Replace.all_eq_scan (g.pattern_ne_nil _)]
  intro hin
  exact hl (Replace.infix_of_infix_scan (g.pattern_ne_nil _) (f.pattern_ne_nil _) h.nonempty
    (h.foreign f) hin)

theorem pair_lacks (h : Apart p.2 other) (hl : Lacks e.text other f) :
    Lacks (e.pair p).text other f :=
  form_lacks h (form_lacks h (form_lacks h hl .quoted) .single) .double

theorem pair_lacks_own (h : Apart p.2 p.1) (e : Expansion) (f : Form) :
    Lacks (e.pair p).text p.1 f := by
  cases f with
  | quoted => exact form_lacks h (form_lacks h (form_lacks_own h e .quoted) .single) .double
  | single => exact form_lacks h (form_lacks_own h _ .single) .double
  | double => exact form_lacks_own h _ .double

theorem pairs_lacks (h : ∀ p ∈ ps, Apart p.2 other) (hl : Lacks e.text other f) :
    Lacks (e.pairs ps).text other f := by
  induction ps generalizing e with
  | nil => exact hl
  | cons p rest ih =>
    have hfirst := pair_lacks (h p (List.mem_cons_self ..)) hl
    exact ih (fun q hq => h q (List.mem_cons_of_mem p hq)) hfirst

theorem pairs_lacks_own (h : Inert ps) (hp : p ∈ ps) (e : Expansion) (f : Form) :
    Lacks (e.pairs ps).text p.1 f := by
  obtain ⟨before, after, hs⟩ := List.append_of_mem hp
  have hsplit : e.pairs ps = ((e.pairs before).pair p).pairs after := by
    rw [hs, Expansion.pairs, List.foldl_append, List.foldl_cons]
    rfl
  rw [hsplit]
  refine pairs_lacks ?_ (pair_lacks_own (h.apart hp hp) (e.pairs before) f)
  intro q hq
  exact h.apart (hs ▸ List.mem_append_right before (List.mem_cons_of_mem p hq)) hp

theorem form_of_lacks (h : Lacks e.text key f) (value : String) : e.form key value f = e :=
  if_neg (mt Replace.occurs_iff.mp h)

theorem pairs_of_lacks (h : ∀ p ∈ ps, ∀ f, Lacks e.text p.1 f) : e.pairs ps = e := by
  induction ps with
  | nil => rfl
  | cons p rest ih =>
    have hp := h p (List.mem_cons_self ..)
    have hpair : e.pair p = e := by
      simp only [Expansion.pair, Form.all, List.foldl_cons, List.foldl_nil, form_of_lacks (hp _)]
    change (e.pair p).pairs rest = e
    rw [hpair]
    exact ih fun q hq => h q (List.mem_cons_of_mem p hq)

end Passes

/-- With inert values nothing that interpolation leaves is a placeholder of a binding, and
interpolating it once more changes nothing and notes nothing. -/
theorem interpolate_settles (b : Bindings) (template : String) (h : Inert b.pairs) :
    (∀ p ∈ b.pairs, ∀ f : Form,
      ¬ f.pattern p.1.toList <:+: (interpolate template (some b)).toList) ∧
    interpolate (interpolate template (some b)) (some b) = interpolate template (some b) ∧
    (expand (interpolate template (some b)) (some b)).notices = [] := by
  have hgone : ∀ p ∈ b.pairs, ∀ f : Form,
      Lacks (interpolate template (some b)).toList p.1 f := by
    intro p hp f
    rw [interpolate, String.toList_ofList]
    exact pairs_lacks_own h hp (.start template.toList) f
  have hagain : expand (interpolate template (some b)) (some b) =
      .start (interpolate template (some b)).toList := pairs_of_lacks hgone
  refine ⟨hgone, ?_, ?_⟩
  · rw [interpolate, hagain]
    exact String.ofList_toList
  · rw [hagain]
    rfl

def hostile : Bindings := .ofPuts
  [(some "\x7b", some "1"), (none, some "$"), (some "", some "22"), (some "A\x7d", some "v"),
    (some "$\x7b\"", some "w"), (some "B", none)]

def nested : String :=
  "$\x7b\x7b$\x7b\x7b\x7d\x7d\x7d\x7d \"$\x7b\x7b\x7b\x7d\x7d\" $\x7bA\x7d\x7d $\x7b\x7bB\x7d\x7d"

theorem nested_settles :
    Inert hostile.pairs ∧
    interpolate nested (some hostile) = "$\x7b\x7b1\x7d\x7d\x7d 1 v $\x7b\x7bB\x7d\x7d" ∧
    (∀ p ∈ hostile.pairs, ∀ f : Form,
      ¬ f.pattern p.1.toList <:+: (interpolate nested (some hostile)).toList) ∧
    interpolate (interpolate nested (some hostile)) (some hostile) =
      interpolate nested (some hostile) := by
  have hinert : Inert hostile.pairs := by decide +kernel
  obtain ⟨hgone, hagain, -⟩ := interpolate_settles hostile nested hinert
  exact ⟨hinert, by decide +kernel, hgone, hagain⟩

end Quiesce.Template
