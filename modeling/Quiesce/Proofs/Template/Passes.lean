import Quiesce.Proofs.Bindings.OrderedMap
import Quiesce.Proofs.Template.Substitution

set_option autoImplicit false

namespace Quiesce.Bindings

theorem pairs_append (es fs : List Put) : pairs ⟨es ++ fs⟩ = pairs ⟨es⟩ ++ pairs ⟨fs⟩ :=
  List.filterMap_append

theorem pairs_of_incomplete {e : Put} (h : e.1 = none ∨ e.2 = none) : pairs ⟨[e]⟩ = [] := by
  obtain ⟨_ | k, _ | v⟩ := e
  · rfl
  · rfl
  · rfl
  · simp at h

def followedBy (b c : Bindings) : Bindings := ofPuts (b.entries ++ c.entries)

theorem followedBy_of_disjoint {b c : Bindings} (hb : b.KeysUnique) (hc : c.KeysUnique)
    (h : (namesOf b.entries).Disjoint (namesOf c.entries)) :
    b.followedBy c = ⟨b.entries ++ c.entries⟩ := by
  refine ofPuts_of_nodup ?_
  rw [namesOf_append]
  exact List.Nodup.append hb hc h

end Quiesce.Bindings

namespace Quiesce.Template

open Text

structure Pass where
  key : String
  value : String
  pattern : String
deriving DecidableEq, Repr

namespace Pass

def apply (text : String) (x : Pass) : String := replaceAll text x.pattern x.value

def Finds (text : String) (x : Pass) : Prop := x.pattern.toList <:+: text.toList

instance (text : String) (x : Pass) : Decidable (x.Finds text) :=
  inferInstanceAs (Decidable (x.pattern.toList <:+: text.toList))

def notice (x : Pass) : Notice := .expanding x.key x.pattern

def ofPair (p : String × String) : List Pass :=
  [⟨p.1, p.2, "\"$\x7b\x7b" ++ p.1 ++ "\x7d\x7d\""⟩, ⟨p.1, p.2, "$\x7b" ++ p.1 ++ "\x7d"⟩,
    ⟨p.1, p.2, "$\x7b\x7b" ++ p.1 ++ "\x7d\x7d"⟩]

end Pass

def passes (pairs : List (String × String)) : List Pass := pairs.flatMap Pass.ofPair

/-- What passes make of a text when each of them is made, whether it finds anything or not. -/
def rewrite (template : String) (xs : List Pass) : String := xs.foldl Pass.apply template

def noted (template : String) (xs : List Pass) : List Notice :=
  xs.zipIdx.filterMap fun p =>
    if p.1.Finds (rewrite template (xs.take p.2)) then some p.1.notice else none

section Rows

variable {template : String} {xs : List Pass} {x : Pass}

theorem rewrite_append (template : String) (xs ys : List Pass) :
    rewrite template (xs ++ ys) = rewrite (rewrite template xs) ys := List.foldl_append

theorem noted_append (template : String) (xs ys : List Pass) :
    noted template (xs ++ ys) = noted template xs ++ noted (rewrite template xs) ys := by
  unfold noted
  rw [List.zipIdx_append, List.filterMap_append]
  congr 1
  · refine List.filterMap_congr fun p hp => ?_
    have hi := (List.mem_zipIdx hp).2.1
    rw [List.take_append_of_le_length (by omega)]
  · rw [Nat.zero_add, List.zipIdx_eq_map_add, List.filterMap_map]
    refine List.filterMap_congr fun p _ => ?_
    simp only [Function.comp, List.take_length_add_append, rewrite_append]

theorem apply_of_not_finds (h : ¬ x.Finds template) : x.apply template = template := by
  have hoccurs := Replace.all_of_not_occurs (mt Replace.occurs_iff.mp h) x.value.toList
  rw [Pass.apply, replaceAll, hoccurs, String.ofList_toList]

def Expansion.pass (e : Expansion) (x : Pass) : Expansion where
  text := (x.apply (String.ofList e.text)).toList
  notices := e.notices ++ noted (String.ofList e.text) [x]

theorem noted_singleton (template : String) (x : Pass) :
    noted template [x] = if x.Finds template then [x.notice] else [] := by
  by_cases h : x.Finds template <;> simp [noted, rewrite, h]

theorem form_eq_pass (key value : String) (e : Expansion) (f : Form) :
    e.form key value f = e.pass ⟨key, value, String.ofList (f.pattern key.toList)⟩ := by
  have hfinds : Replace.occurs (f.pattern key.toList) e.text = true ↔
      Pass.Finds (String.ofList e.text) ⟨key, value, String.ofList (f.pattern key.toList)⟩ := by
    rw [Replace.occurs_iff, Pass.Finds, String.toList_ofList, String.toList_ofList]
  have htext : (e.form key value f).text =
      (e.pass ⟨key, value, String.ofList (f.pattern key.toList)⟩).text := by
    rw [form_text, Expansion.pass, Pass.apply, replaceAll, String.toList_ofList,
      String.toList_ofList, String.toList_ofList]
  have hnotices : (e.form key value f).notices =
      (e.pass ⟨key, value, String.ofList (f.pattern key.toList)⟩).notices := by
    rw [Expansion.pass, noted_singleton, Expansion.form]
    by_cases h : Replace.occurs (f.pattern key.toList) e.text = true
    · rw [if_pos h, if_pos (hfinds.mp h)]
      rfl
    · rw [if_neg h, if_neg (mt hfinds.mpr h), List.append_nil]
  exact congrArg₂ Expansion.mk htext hnotices

theorem ofPair_eq (p : String × String) :
    Pass.ofPair p = Form.all.map fun f => ⟨p.1, p.2, String.ofList (f.pattern p.1.toList)⟩ := by
  simp only [Form.all, List.map_cons, List.map_nil, Form.pattern, String.ofList_append,
    String.ofList_toList]
  rfl

theorem pair_eq_passes (e : Expansion) (p : String × String) :
    e.pair p = (Pass.ofPair p).foldl Expansion.pass e := by
  rw [ofPair_eq, List.foldl_map, Expansion.pair]
  refine congrArg (List.foldl · e Form.all) ?_
  funext e f
  exact form_eq_pass p.1 p.2 e f

theorem foldl_pass (e : Expansion) (xs : List Pass) :
    xs.foldl Expansion.pass e = ⟨(rewrite (String.ofList e.text) xs).toList,
      e.notices ++ noted (String.ofList e.text) xs⟩ := by
  induction xs using List.reverseRecOn with
  | nil => simp [rewrite, noted]
  | append_singleton xs x ih =>
    rw [List.foldl_concat, ih, rewrite_append, noted_append, Expansion.pass]
    simp only [String.ofList_toList, List.append_assoc]
    rfl

theorem pairs_eq_passes (e : Expansion) (ps : List (String × String)) :
    e.pairs ps = ⟨(rewrite (String.ofList e.text) (passes ps)).toList,
      e.notices ++ noted (String.ofList e.text) (passes ps)⟩ := by
  rw [← foldl_pass, passes, List.foldl_flatMap, Expansion.pairs]
  refine congrArg (List.foldl · e ps) ?_
  funext e p
  exact pair_eq_passes e p

theorem expand_eq_passes (template : String) (b : Bindings) :
    expand template (some b) =
      ⟨(rewrite template (passes b.pairs)).toList, noted template (passes b.pairs)⟩ := by
  rw [expand, pairs_eq_passes, Expansion.start, String.ofList_toList, List.nil_append]

theorem noted_cons (template : String) (x : Pass) (xs : List Pass) :
    noted template (x :: xs) = noted template [x] ++ noted (x.apply template) xs :=
  noted_append template [x] xs

theorem idle_of_none_finds (h : ∀ x ∈ xs, ¬ x.Finds template) :
    rewrite template xs = template ∧ noted template xs = [] := by
  induction xs with
  | nil => exact ⟨rfl, rfl⟩
  | cons x rest ih =>
    have hx := h x (List.mem_cons_self ..)
    obtain ⟨htext, hnotices⟩ := ih fun y hy => h y (List.mem_cons_of_mem x hy)
    constructor
    · change rewrite (x.apply template) rest = template
      rw [apply_of_not_finds hx, htext]
    · rw [noted_cons, apply_of_not_finds hx, hnotices, noted_singleton, if_neg hx, List.append_nil]

theorem expand_of_none_finds {b : Bindings} (h : ∀ x ∈ passes b.pairs, ¬ x.Finds template) :
    expand template (some b) = expand template none := by
  obtain ⟨htext, hnotices⟩ := idle_of_none_finds h
  rw [expand_eq_passes, htext, hnotices]
  rfl

theorem opening_infix_pattern {ps : List (String × String)} (hx : x ∈ passes ps) :
    "$\x7b".toList <:+: x.pattern.toList := by
  obtain ⟨p, -, hp⟩ := List.mem_flatMap.mp hx
  rw [ofPair_eq] at hp
  obtain ⟨f, -, rfl⟩ := List.mem_map.mp hp
  rw [String.toList_ofList]
  cases f with
  | quoted => exact ⟨['"'], '\x7b' :: (p.1.toList ++ "\x7d\x7d\"".toList), by simp [Form.pattern]⟩
  | single => exact ⟨[], p.1.toList ++ "\x7d".toList, by simp [Form.pattern]⟩
  | double => exact ⟨[], '\x7b' :: (p.1.toList ++ "\x7d\x7d".toList), by simp [Form.pattern]⟩

end Rows

/-- Bindings that are applied together come to the same as one after the other. -/
structure Composes (template : String) (b c : Bindings) : Prop where
  entries : (b.followedBy c).entries = b.entries ++ c.entries
  text : interpolate template (some (b.followedBy c)) =
    interpolate (interpolate template (some b)) (some c)
  notices : (expand template (some (b.followedBy c))).notices =
    (expand template (some b)).notices ++
      (expand (interpolate template (some b)) (some c)).notices

theorem interpolate_eq_rewrite (template : String) (b : Bindings) :
    interpolate template (some b) = rewrite template (passes b.pairs) := by
  rw [interpolate, expand_eq_passes, String.ofList_toList]

theorem composes_of_disjoint {b c : Bindings} (hb : b.KeysUnique) (hc : c.KeysUnique)
    (h : (Bindings.namesOf b.entries).Disjoint (Bindings.namesOf c.entries)) (template : String) :
    Composes template b c := by
  have hentries := Bindings.followedBy_of_disjoint hb hc h
  have hpasses : passes (b.followedBy c).pairs = passes b.pairs ++ passes c.pairs := by
    rw [hentries, Bindings.pairs_append, passes, List.flatMap_append]
    rfl
  refine ⟨by rw [hentries], ?_, ?_⟩
  · simp only [interpolate_eq_rewrite, hpasses, rewrite_append]
  · simp only [interpolate_eq_rewrite, expand_eq_passes, hpasses, noted_append]

theorem expand_of_incomplete {e : Bindings.Put} (h : e.1 = none ∨ e.2 = none) (template : String)
    (es fs : List Bindings.Put) :
    expand template (some ⟨es ++ e :: fs⟩) = expand template (some ⟨es ++ fs⟩) := by
  have hpairs : Bindings.pairs ⟨es ++ e :: fs⟩ = Bindings.pairs ⟨es ++ fs⟩ := by
    rw [List.append_cons, Bindings.pairs_append, Bindings.pairs_append, Bindings.pairs_append,
      Bindings.pairs_of_incomplete h, List.append_nil]
  rw [expand, expand, hpairs]

/-- What comes of bindings, and what is noted, goes by their passes alone. -/
structure ByPasses (template : String) (b : Bindings) : Prop where
  text : interpolate template (some b) = rewrite template (passes b.pairs)
  notices : (expand template (some b)).notices = noted template (passes b.pairs)
  incomplete : ∀ es fs e, b.entries = es ++ e :: fs → e.1 = none ∨ e.2 = none →
    expand template (some ⟨es ++ fs⟩) = expand template (some b)
  idle : (∀ x ∈ passes b.pairs, ¬ x.Finds template) →
    expand template (some b) = expand template none

/-- Interpolation makes all passes of the complete pairs in their order, notes those that find
something, and does nothing if none finds anything in the template, as in every template without a
placeholder. Two bindings without a common key may as well be applied one after the other. -/
theorem expand_by_passes (template : String) :
    (∀ b, ByPasses template b) ∧
    expand template none = ⟨template.toList, []⟩ ∧
    (¬ "$\x7b".toList <:+: template.toList → ∀ b,
      expand template (some b) = expand template none) ∧
    ∀ puts others,
      (Bindings.namesOf (Bindings.ofPuts puts).entries).Disjoint
        (Bindings.namesOf (Bindings.ofPuts others).entries) →
      Composes template (.ofPuts puts) (.ofPuts others) := by
  refine ⟨fun b => ?_, rfl, fun h b => ?_, fun puts others h => ?_⟩
  · refine ⟨interpolate_eq_rewrite template b, by rw [expand_eq_passes], fun es fs e he hnone => ?_,
      expand_of_none_finds⟩
    obtain ⟨entries⟩ := b
    subst he
    exact (expand_of_incomplete hnone template es fs).symm
  · apply expand_of_none_finds
    intro x hx hfinds
    exact h ((opening_infix_pattern hx).trans hfinds)
  · have hb := Bindings.keysUnique_ofPuts puts
    have hc := Bindings.keysUnique_ofPuts others
    exact composes_of_disjoint hb hc h template

def pointer : Bindings := .ofPuts [(some "A", some "$\x7bB\x7d"), (none, some "$")]

def pointee : Bindings := .ofPuts [(some "C", none), (some "B", some "x")]

def indirect : String := "$\x7bA\x7d-\"$\x7b\x7bB\x7d\x7d\"-$\x7bC\x7d"

theorem indirect_by_passes :
    interpolate indirect (some (pointer.followedBy pointee)) = "x-x-$\x7bC\x7d" ∧
    interpolate indirect (some (pointee.followedBy pointer)) = "$\x7bB\x7d-x-$\x7bC\x7d" ∧
    noted indirect (passes (pointer.followedBy pointee).pairs) =
      [.expanding "A" "$\x7bA\x7d", .expanding "B" "\"$\x7b\x7bB\x7d\x7d\"",
        .expanding "B" "$\x7bB\x7d"] ∧
    expand "$ \x7bA\x7d" (some pointer) = ⟨"$ \x7bA\x7d".toList, []⟩ := by
  obtain ⟨hb, -, -, hboth⟩ := expand_by_passes indirect
  have hapart : ∀ k ∈ Bindings.namesOf pointer.entries, k ∉ Bindings.namesOf pointee.entries := by
    decide +kernel
  have hforth : Composes indirect pointer pointee := hboth _ _ fun k hk => hapart k hk
  have hback : Composes indirect pointee pointer := hboth _ _ fun k hk hm => hapart k hm hk
  refine ⟨?_, ?_, ?_, ?_⟩
  · rw [hforth.text]
    decide +kernel
  · rw [hback.text]
    decide +kernel
  · rw [← (hb _).notices]
    decide +kernel
  · obtain ⟨-, hnone, hplain, -⟩ := expand_by_passes "$ \x7bA\x7d"
    exact (hplain (by decide) pointer).trans hnone

end Quiesce.Template
