import Mathlib.Data.List.Basic
import Quiesce.Text.Basic
import Quiesce.Proofs.Text.Cuts
import Quiesce.Proofs.Text.Utf8

set_option autoImplicit false

/-! Replacement works on bytes. That it never cuts a character follows from how characters are
written: no byte inside a character can begin one. -/

namespace Quiesce.Text

section Search

variable {α : Type} [DecidableEq α] {p t : List α} {k : Nat}

omit [DecidableEq α] in
theorem prefix_drop_length (before p after : List α) :
    p <+: (before ++ p ++ after).drop before.length := by
  rw [List.append_assoc, List.drop_left]
  exact List.prefix_append p after

theorem offset?_eq_zero (h : p <+: t) : offset? p t = some 0 := by
  cases t with
  | nil => rw [offset?, if_pos (List.isEmpty_iff.mpr (List.prefix_nil.mp h))]
  | cons c rest => rw [offset?, if_pos (List.isPrefixOf_iff_prefix.mpr h)]

theorem offset?_cons {c : α} {rest : List α} (h : ¬ p <+: c :: rest) :
    offset? p (c :: rest) = (offset? p rest).map (· + 1) := by
  rw [offset?, if_neg (mt List.isPrefixOf_iff_prefix.mp h)]

theorem offset?_eq_some_iff : offset? p t = some k ↔
    p <+: t.drop k ∧ ∀ j < k, ¬ p <+: t.drop j := by
  have hzero : ∀ {t : List α} {k : Nat}, p <+: t → (offset? p t = some k ↔
      p <+: t.drop k ∧ ∀ j < k, ¬ p <+: t.drop j) := by
    intro t k hpre
    rw [offset?_eq_zero hpre, Option.some.injEq]
    refine ⟨fun h => h ▸ ⟨hpre, nofun⟩, fun ⟨_, hleast⟩ => ?_⟩
    by_contra hk
    exact hleast 0 (Nat.pos_of_ne_zero (Ne.symm hk)) hpre
  induction t generalizing k with
  | nil =>
    by_cases hpre : p <+: []
    · exact hzero hpre
    · rw [offset?, if_neg (mt List.isEmpty_iff.mp (mt List.prefix_nil.mpr hpre)), List.drop_nil]
      exact iff_of_false nofun fun h => hpre h.1
  | cons c rest ih =>
    by_cases hpre : p <+: c :: rest
    · exact hzero hpre
    · rw [offset?_cons hpre, Option.map_eq_some_iff]
      cases k with
      | zero => exact iff_of_false (by rintro ⟨m, -, hm⟩; exact nomatch hm) fun h => hpre h.1
      | succ k =>
        simp only [Nat.add_right_cancel_iff, exists_eq_right, ih, List.drop_succ_cons]
        refine and_congr_right fun _ => ⟨fun h j hj => ?_, fun h j hj => h (j + 1) (by omega)⟩
        cases j with
        | zero => exact hpre
        | succ j => exact h j (by omega)

theorem offset?_eq_none_iff : offset? p t = none ↔ ¬ p <:+: t := by
  induction t with
  | nil =>
    rw [offset?, List.infix_nil]
    by_cases hp : p = [] <;> simp [hp]
  | cons c rest ih =>
    rw [List.infix_cons_iff, not_or]
    by_cases hpre : p <+: c :: rest
    · rw [offset?_eq_zero hpre]
      exact iff_of_false nofun fun h => h.1 hpre
    · rw [offset?_cons hpre, Option.map_eq_none_iff, ih]
      exact (and_iff_right hpre).symm

theorem exists_split (h : offset? p t = some k) :
    ∃ before after, t = before ++ p ++ after ∧ k = before.length := by
  obtain ⟨⟨after, ha⟩, hleast⟩ := offset?_eq_some_iff.mp h
  have hk : k ≤ t.length := by
    by_contra hk
    rw [List.drop_eq_nil_of_le (Nat.le_of_not_le hk)] at ha
    have hp := (List.append_eq_nil_iff.mp ha).1
    exact hleast 0 (Nat.zero_lt_of_lt (Nat.lt_of_not_le hk)) (hp ▸ List.nil_prefix)
  refine ⟨t.take k, after, ?_, (List.length_take_of_le hk).symm⟩
  rw [List.append_assoc, ha, List.take_append_drop]

theorem onlyAtEnd_of_offset? {before after : List α}
    (h : offset? p (before ++ p ++ after) = some before.length) : Replace.OnlyAtEnd p before := by
  obtain ⟨-, hleast⟩ := offset?_eq_some_iff.mp h
  intro b a hb
  by_contra hlt
  refine hleast b.length (Nat.lt_of_not_ge hlt) ?_
  rw [hb, List.append_assoc _ a after]
  exact prefix_drop_length b p (a ++ after)

end Search

section Cuts

variable {o s t before after : List Char} {i : Nat}

theorem isBoundary_iff : isBoundary (utf8 s) i = true ↔
    ∃ before after, s = before ++ after ∧ i = (utf8 before).length := by
  have hbyte : ((utf8 s)[i]?.any fun b => decide b.IsUTF8FirstByte) = true ↔
      ∃ before after, after ≠ [] ∧ s = before ++ after ∧ i = (utf8 before).length := by
    rw [← firstByte_iff, Option.any_eq_true]
    simp only [decide_eq_true_eq]
  rw [isBoundary, Bool.or_eq_true, Bool.or_eq_true, beq_iff_eq, beq_iff_eq, hbyte]
  constructor
  · rintro ((rfl | rfl) | ⟨before, after, -, h⟩)
    · exact ⟨[], s, rfl, rfl⟩
    · exact ⟨s, [], (List.append_nil s).symm, rfl⟩
    · exact ⟨before, after, h⟩
  · rintro ⟨before, after, rfl, rfl⟩
    by_cases hne : after = []
    · subst hne
      exact .inl (.inr (by rw [List.append_nil]))
    · exact .inr ⟨before, after, hne, rfl, rfl⟩

theorem upTo?_utf8 (before after : List Char) :
    upTo? (utf8 (before ++ after)) (utf8 before).length = some (utf8 before) := by
  rw [upTo?, if_pos (isBoundary_iff.mpr ⟨before, after, rfl, rfl⟩), utf8_append, List.take_left]

theorem onwards?_utf8 (before after : List Char) :
    onwards? (utf8 (before ++ after)) (utf8 before).length = some (utf8 after) := by
  rw [onwards?, if_pos (isBoundary_iff.mpr ⟨before, after, rfl, rfl⟩), utf8_append, List.drop_left]

end Cuts

theorem offset?_utf8 {p : List Char} (hp : p ≠ []) (t : List Char) :
    offset? (utf8 p) (utf8 t) = (offset? p t).map fun k => (utf8 (t.take k)).length := by
  cases hk : offset? p t with
  | none =>
    rw [Option.map_none, offset?_eq_none_iff]
    rintro ⟨a, b, h⟩
    have hpre : utf8 p <+: (utf8 t).drop a.length := h ▸ prefix_drop_length a (utf8 p) b
    obtain ⟨before, after, rfl, -⟩ := (utf8_prefix_drop_iff hp).mp hpre
    exact offset?_eq_none_iff.mp hk ⟨before, after, rfl⟩
  | some k =>
    obtain ⟨before, after, rfl, rfl⟩ := exists_split hk
    obtain ⟨-, hleast⟩ := offset?_eq_some_iff.mp hk
    rw [Option.map_some, offset?_eq_some_iff, List.append_assoc, List.take_left]
    refine ⟨(utf8_prefix_drop_iff hp).mpr ⟨before, after, (List.append_assoc ..).symm, rfl⟩, ?_⟩
    -- An earlier occurrence among the bytes would be an earlier one among the characters.
    intro j hj h
    obtain ⟨b, a, hb, rfl⟩ := (utf8_prefix_drop_iff hp).mp h
    have hlt : b.length < before.length := by
      by_contra hge
      have hpre : before <+: b := List.prefix_of_prefix_length_le ⟨_, rfl⟩
        ⟨p ++ a, (List.append_assoc b p a).symm.trans hb.symm⟩ (Nat.le_of_not_lt hge)
      exact absurd hj (Nat.not_lt.mpr (utf8_prefix_iff.mpr hpre).length_le)
    refine hleast b.length hlt ?_
    rw [List.append_assoc, hb]
    exact prefix_drop_length b p a

namespace Sweep

inductive Reaches (pattern replacement : List UInt8) : Sweep → Sweep → Prop where
  | refl (w : Sweep) : Reaches pattern replacement w w
  | next {w v u : Sweep} : w.turn pattern replacement = .goesOn v →
      Reaches pattern replacement v u → Reaches pattern replacement w u

def ofChars (out rest : List Char) : Sweep := ⟨utf8 out, utf8 rest⟩

variable {p r o t before after : List Char}

theorem turn_of_none (hp : p ≠ []) (r o : List Char) (h : offset? p t = none) :
    (ofChars o t).turn (utf8 p) (utf8 r) = .done (utf8 (o ++ t)) := by
  have hbytes := offset?_utf8 hp t
  rw [h, Option.map_none] at hbytes
  rw [turn, ofChars, hbytes, utf8_append]

theorem turn_of_some (hp : p ≠ []) (r o : List Char)
    (h : offset? p (before ++ p ++ after) = some before.length) :
    (ofChars o (before ++ p ++ after)).turn (utf8 p) (utf8 r) =
      .goesOn (ofChars (o ++ before ++ r) after) := by
  have hbytes := offset?_utf8 hp (before ++ p ++ after)
  have hbefore := upTo?_utf8 before (p ++ after)
  have hafter := onwards?_utf8 (before ++ p) after
  rw [h, Option.map_some, List.append_assoc, List.take_left, ← List.append_assoc] at hbytes
  rw [← List.append_assoc] at hbefore
  rw [utf8_append before p, List.length_append] at hafter
  simp only [turn, ofChars, hbytes, hbefore, hafter]
  rw [utf8_append, utf8_append]

/-- The characters behind the bytes: what is out and what is left come to the whole result. -/
structure Stands (text p r : List Char) (w : Sweep) (o t : List Char) : Prop where
  bytes : w = ofChars o t
  suffix : t <:+ text
  result : o ++ Replace.all p r t = Replace.all p r text

section

variable {text : List Char} {w v : Sweep}

theorem stands_start (text p r : List Char) : Stands text p r (start (utf8 text)) [] text :=
  ⟨rfl, List.suffix_rfl, rfl⟩

theorem Stands.turn (hp : p ≠ []) (h : Stands text p r w o t) :
    w.turn (utf8 p) (utf8 r) = .done (utf8 (Replace.all p r text)) ∨
    ∃ before after v, t = before ++ p ++ after ∧ w.turn (utf8 p) (utf8 r) = .goesOn v ∧
      Stands text p r v (o ++ before ++ r) after := by
  have hresult := h.result
  rw [h.bytes]
  cases hk : offset? p t with
  | none =>
    rw [Replace.all_eq_scan hp r t, Replace.scan_of_not_infix (offset?_eq_none_iff.mp hk)] at hresult
    exact .inl (hresult ▸ turn_of_none hp r o hk)
  | some k =>
    obtain ⟨before, after, rfl, rfl⟩ := exists_split hk
    refine .inr ⟨before, after, _, rfl, turn_of_some hp r o hk, rfl,
      (List.suffix_append _ after).trans h.suffix, ?_⟩
    rw [Replace.all_eq_scan hp r (before ++ p ++ after),
      Replace.scan_of_onlyAtEnd hp (onlyAtEnd_of_offset? hk), ← Replace.all_eq_scan hp] at hresult
    simpa only [List.append_assoc] using hresult

theorem Stands.reaches (hp : p ≠ []) (h : Stands text p r w o t)
    (hr : Reaches (utf8 p) (utf8 r) w v) : ∃ o t, Stands text p r v o t := by
  induction hr generalizing o t with
  | refl => exact ⟨o, t, h⟩
  | next hturn _ ih =>
    rcases h.turn hp with hdone | ⟨before, after, v, -, hnext, hv⟩
    · exact nomatch hturn.symm.trans hdone
    · obtain rfl := Turn.goesOn.inj (hturn.symm.trans hnext)
      exact ih hv

theorem Stands.ends (hp : p ≠ []) (h : Stands text p r w o t) : ∃ v,
    Reaches (utf8 p) (utf8 r) w v ∧
      v.turn (utf8 p) (utf8 r) = .done (utf8 (Replace.all p r text)) := by
  induction hn : t.length using Nat.strongRecOn generalizing w o t with
  | _ n ih =>
    rcases h.turn hp with hdone | ⟨before, after, v, rfl, hnext, hv⟩
    · exact ⟨w, .refl w, hdone⟩
    · have hlt : after.length < n := by
        have hpos := List.length_pos_iff.mpr hp
        rw [← hn, List.length_append, List.length_append]
        omega
      obtain ⟨u, hu, hdone⟩ := ih after.length hlt hv rfl
      exact ⟨u, .next hnext hu, hdone⟩

theorem cuts_of_offset? (hp : p ≠ []) {i : Nat} (h : offset? (utf8 p) (utf8 t) = some i) :
    i + (utf8 p).length ≤ (utf8 t).length ∧ isBoundary (utf8 t) i = true ∧
      isBoundary (utf8 t) (i + (utf8 p).length) = true := by
  obtain ⟨before, after, rfl, rfl⟩ := (utf8_prefix_drop_iff hp).mp (offset?_eq_some_iff.mp h).1
  refine ⟨?_, ?_, ?_⟩
  · simp only [utf8_append, List.length_append]
    omega
  · exact isBoundary_iff.mpr ⟨before, p ++ after, List.append_assoc .., rfl⟩
  · rw [← List.length_append, ← utf8_append]
    exact isBoundary_iff.mpr ⟨before ++ p, after, rfl, rfl⟩

/-- What can be said whenever a turn begins. -/
structure AtTurn (text p r : List Char) (w : Sweep) : Prop where
  chars : ∃ out rest, Stands text p r w out rest ∧
    offset? (utf8 p) w.rest = (offset? p rest).map fun k => (utf8 (rest.take k)).length
  cuts : ∀ i, offset? (utf8 p) w.rest = some i → i + (utf8 p).length ≤ w.rest.length ∧
    isBoundary w.rest i = true ∧ isBoundary w.rest (i + (utf8 p).length) = true
  accepted : w.turn (utf8 p) (utf8 r) ≠ .refused

theorem Stands.atTurn (hp : p ≠ []) (h : Stands text p r w o t) : AtTurn text p r w := by
  have hrest : w.rest = utf8 t := congrArg Sweep.rest h.bytes
  refine ⟨⟨o, t, h, hrest ▸ offset?_utf8 hp t⟩, fun i hi => ?_, ?_⟩
  · rw [hrest] at hi ⊢
    exact cuts_of_offset? hp hi
  · rcases h.turn hp with hdone | ⟨before, after, v, -, hnext, -⟩
    · exact hdone ▸ nofun
    · exact hnext ▸ nofun

end

end Sweep

open Sweep

/-- Whatever the texts, no turn cuts a character: what it puts out and what it leaves are texts, and
the search by bytes finds what a search by characters would find. The turns come to an end, and then
the bytes put out are those of the text in which the characters have been replaced. -/
theorem replaceAll_by_bytes (text pattern replacement : String) (hp : pattern ≠ "") :
    (∀ w, Reaches (utf8 pattern.toList) (utf8 replacement.toList) (start (utf8 text.toList)) w →
      AtTurn text.toList pattern.toList replacement.toList w) ∧
    ∃ w, Reaches (utf8 pattern.toList) (utf8 replacement.toList) (start (utf8 text.toList)) w ∧
      w.turn (utf8 pattern.toList) (utf8 replacement.toList) =
        .done (utf8 (replaceAll text pattern replacement).toList) := by
  have hne := toList_ne_nil hp
  have hstart := stands_start text.toList pattern.toList replacement.toList
  refine ⟨fun w hw => ?_, ?_⟩
  · obtain ⟨out, rest, h⟩ := hstart.reaches hne hw
    exact h.atTurn hne
  · rw [replaceAll, String.toList_ofList]
    exact hstart.ends hne

theorem sizes_by_bytes : "¬" ≠ "" ∧
    AtTurn "€¬a😀¬".toList "¬".toList "é".toList ⟨utf8 "€é".toList, utf8 "a😀¬".toList⟩ ∧
    ∃ w, Reaches (utf8 "¬".toList) (utf8 "é".toList) (start (utf8 "€¬a😀¬".toList)) w ∧
      w.turn (utf8 "¬".toList) (utf8 "é".toList) = .done (utf8 "€éa😀é".toList) := by
  have hpattern : "¬" ≠ "" := by decide
  have hresult : replaceAll "€¬a😀¬" "¬" "é" = "€éa😀é" := by decide
  obtain ⟨hturns, hend⟩ := replaceAll_by_bytes "€¬a😀¬" "¬" "é" hpattern
  rw [hresult] at hend
  exact ⟨hpattern, hturns _ (.next (by decide) (.refl _)), hend⟩

end Quiesce.Text
