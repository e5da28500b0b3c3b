import Mathlib.Tactic.Linarith
import Mathlib.Tactic.Ring
import Quiesce.Proofs.Text.Replace

set_option autoImplicit false

namespace Quiesce.Text.Replace

/-- In a piece with the pattern behind it, the pattern occurs no earlier than that. -/
def OnlyAtEnd {α : Type} (p s : List α) : Prop :=
  ∀ before after, s ++ p = before ++ p ++ after → s.length ≤ before.length

/-- The text is these pieces with the pattern between them, which occurs nowhere before that. -/
structure Cuts {α : Type} (p text : List α) (pieces : List (List α)) : Prop where
  nonempty : pieces ≠ []
  joined : p.intercalate pieces = text
  inner : ∀ s ∈ pieces.dropLast, OnlyAtEnd p s
  last : ∀ s, pieces.getLast? = some s → ¬ p <:+: s

section Pieces

variable {α : Type} {p s t text rest : List α} {pieces : List (List α)}

theorem onlyAtEnd_nil : OnlyAtEnd p [] := fun _ _ _ => Nat.zero_le _

theorem onlyAtEnd_cons {c : α} :
    OnlyAtEnd p (c :: s) ↔ ¬ p <+: c :: (s ++ p) ∧ OnlyAtEnd p s := by
  constructor
  · refine fun h => ⟨fun ⟨after, ha⟩ => ?_, fun before after hs => ?_⟩
    · exact absurd (h [] after ha.symm) (by simp)
    · exact Nat.le_of_succ_le_succ (h (c :: before) after (congrArg (c :: ·) hs))
  · rintro ⟨hn, hs⟩ before after h
    cases before with
    | nil => exact absurd ⟨after, h.symm⟩ hn
    | cons d before =>
      obtain ⟨-, hrest⟩ := List.cons.inj h
      exact Nat.succ_le_succ (hs before after hrest)

theorem OnlyAtEnd.unique {s' rest' : List α} (hs : OnlyAtEnd p s) (hs' : OnlyAtEnd p s')
    (h : s ++ p ++ rest = s' ++ p ++ rest') : s = s' := by
  have hle : ∀ {s s' rest rest' : List α}, OnlyAtEnd p s' → s ++ p ++ rest = s' ++ p ++ rest' →
      s.length ≤ s'.length → s'.length ≤ s.length := by
    intro s s' rest rest' hs' h hlen
    have hpre : s ++ p <+: s' ++ p ++ rest' := ⟨rest, h⟩
    obtain ⟨after, ha⟩ := List.prefix_of_prefix_length_le hpre (List.prefix_append (s' ++ p) rest')
      (by simpa using hlen)
    exact hs' s after ha.symm
  have hlen : s.length = s'.length := by
    rcases Nat.le_total s.length s'.length with hl | hl
    · exact Nat.le_antisymm hl (hle hs' h hl)
    · exact Nat.le_antisymm (hle hs h.symm hl) hl
  rw [List.append_assoc, List.append_assoc] at h
  exact (List.append_inj h hlen).1

theorem cuts_singleton : Cuts p text [s] ↔ s = text ∧ ¬ p <:+: s := by
  constructor
  · exact fun h => ⟨by simpa using h.joined, h.last s rfl⟩
  · rintro ⟨rfl, hn⟩
    exact ⟨by simp, by simp, by simp, by simpa using hn⟩

theorem cuts_cons_cons : Cuts p text (s :: t :: pieces) ↔
    OnlyAtEnd p s ∧ ∃ rest, s ++ p ++ rest = text ∧ Cuts p rest (t :: pieces) := by
  constructor
  · intro h
    refine ⟨h.inner s (by simp), p.intercalate (t :: pieces), ?_, by simp, rfl, ?_, ?_⟩
    · rw [← h.joined, List.intercalate_cons_cons]
    · exact fun u hu => h.inner u (List.mem_cons_of_mem s hu)
    · exact fun u hu => h.last u (by simpa using hu)
  · rintro ⟨hs, rest, rfl, h⟩
    refine ⟨by simp, ?_, ?_, ?_⟩
    · rw [List.intercalate_cons_cons, h.joined]
    · exact List.forall_mem_cons.mpr ⟨hs, h.inner⟩
    · exact fun u hu => h.last u (by simpa using hu)

theorem cuts_found (h : Cuts p text pieces) : Cuts p (p ++ text) ([] :: pieces) := by
  obtain ⟨t, rest, rfl⟩ := List.exists_cons_of_ne_nil h.nonempty
  exact cuts_cons_cons.mpr ⟨onlyAtEnd_nil, text, rfl, h⟩

theorem cuts_cons {c : α} (hn : ¬ p <+: c :: text) (h : Cuts p text (s :: pieces)) :
    Cuts p (c :: text) ((c :: s) :: pieces) := by
  cases pieces with
  | nil =>
    obtain ⟨rfl, hin⟩ := cuts_singleton.mp h
    exact cuts_singleton.mpr ⟨rfl, fun hi => (List.infix_cons_iff.mp hi).elim hn hin⟩
  | cons t pieces =>
    obtain ⟨hs, rest, rfl, hrest⟩ := cuts_cons_cons.mp h
    refine cuts_cons_cons.mpr ⟨onlyAtEnd_cons.mpr ⟨fun hpre => hn ?_, hs⟩, rest, rfl, hrest⟩
    exact hpre.trans (List.prefix_append (c :: (s ++ p)) rest)

theorem Cuts.unique {others : List (List α)} (h : Cuts p text pieces) (k : Cuts p text others) :
    others = pieces := by
  induction pieces generalizing text others with
  | nil => exact absurd rfl h.nonempty
  | cons s pieces ih =>
    match pieces, others with
    | _, [] => exact absurd rfl k.nonempty
    | [], [t] =>
      obtain ⟨rfl, -⟩ := cuts_singleton.mp h
      obtain ⟨rfl, -⟩ := cuts_singleton.mp k
      rfl
    | [], t :: u :: others =>
      obtain ⟨rfl, hn⟩ := cuts_singleton.mp h
      obtain ⟨-, rest, hr, -⟩ := cuts_cons_cons.mp k
      exact absurd ⟨t, rest, hr⟩ hn
    | t :: pieces, [u] =>
      obtain ⟨-, rest, hr, -⟩ := cuts_cons_cons.mp h
      obtain ⟨rfl, hn⟩ := cuts_singleton.mp k
      exact absurd ⟨s, rest, hr⟩ hn
    | t :: pieces, u :: w :: others =>
      obtain ⟨hs, rest, hr, h⟩ := cuts_cons_cons.mp h
      obtain ⟨hu, rest', hr', k⟩ := cuts_cons_cons.mp k
      obtain rfl := hs.unique hu (hr.trans hr'.symm)
      obtain rfl := List.append_cancel_left (hr.trans hr'.symm)
      rw [ih h k]

end Pieces

section Scan

variable {α : Type} [DecidableEq α] {p s text rest : List α} {pieces : List (List α)}

theorem scan_of_onlyAtEnd (hp : p ≠ []) (hs : OnlyAtEnd p s) (r rest : List α) :
    scan p r 0 (s ++ p ++ rest) = s ++ r ++ scan p r 0 rest := by
  induction s with
  | nil => exact scan_of_prefix hp r rest
  | cons c s ih =>
    obtain ⟨hn, hs⟩ := onlyAtEnd_cons.mp hs
    have hno : ¬ p <+: c :: (s ++ p ++ rest) := fun h =>
      hn (List.prefix_of_prefix_length_le h (List.prefix_append (c :: (s ++ p)) rest)
        (by simp only [List.length_cons, List.length_append]; omega))
    exact (scan_cons hno r).trans (congrArg (c :: ·) (ih hs))

theorem Cuts.scan_eq (hp : p ≠ []) (h : Cuts p text pieces) (r : List α) :
    scan p r 0 text = r.intercalate pieces := by
  induction pieces generalizing text with
  | nil => exact absurd rfl h.nonempty
  | cons s pieces ih =>
    cases pieces with
    | nil =>
      obtain ⟨rfl, hn⟩ := cuts_singleton.mp h
      rw [List.intercalate_singleton, scan_of_not_infix hn]
    | cons t pieces =>
      obtain ⟨hs, rest, rfl, hrest⟩ := cuts_cons_cons.mp h
      rw [scan_of_onlyAtEnd hp hs, ih hrest, List.intercalate_cons_cons]

theorem exists_cuts (hp : p ≠ []) (text : List α) : ∃ pieces, Cuts p text pieces := by
  induction text using scan_induct hp with
  | nil => exact ⟨[[]], cuts_singleton.mpr ⟨rfl, fun h => hp (List.infix_nil.mp h)⟩⟩
  | cons c s hn ih =>
    obtain ⟨pieces, h⟩ := ih
    obtain ⟨t, rest, rfl⟩ := List.exists_cons_of_ne_nil h.nonempty
    exact ⟨_, cuts_cons hn h⟩
  | found s ih =>
    obtain ⟨pieces, h⟩ := ih
    exact ⟨_, cuts_found h⟩

end Scan

end Replace

open Replace

theorem size_intercalate (sep : String) {pieces : List String} (h : pieces ≠ []) :
    ((sep.intercalate pieces).utf8ByteSize : Int) =
      (pieces.map String.utf8ByteSize).sum + ((pieces.length : Int) - 1) * sep.utf8ByteSize := by
  induction pieces with
  | nil => exact absurd rfl h
  | cons s pieces ih =>
    cases pieces with
    | nil => simp
    | cons t pieces =>
      rw [String.intercalate_cons_cons, String.utf8ByteSize_append, String.utf8ByteSize_append]
      have hrest := ih (List.cons_ne_nil t pieces)
      push_cast at hrest ⊢
      rw [hrest]
      simp
      ring

def IsCut (pattern text : String) (pieces : List String) : Prop :=
  Cuts pattern.toList text.toList (pieces.map String.toList)

section Strings

variable {pattern text : String} {pieces others : List String}

theorem toList_ne_nil (hp : pattern ≠ "") : pattern.toList ≠ [] :=
  fun hn => hp (String.toList_eq_nil_iff.mp hn)

theorem exists_isCut (hp : pattern ≠ "") (text : String) : ∃ pieces, IsCut pattern text pieces := by
  obtain ⟨pieces, h⟩ := exists_cuts (toList_ne_nil hp) text.toList
  refine ⟨pieces.map String.ofList, ?_⟩
  have hid : String.toList ∘ String.ofList = id := funext fun _ => String.toList_ofList
  rw [IsCut, List.map_map, hid, List.map_id]
  exact h

theorem IsCut.nonempty (h : IsCut pattern text pieces) : pieces ≠ [] :=
  fun hn => Cuts.nonempty h (congrArg (List.map String.toList) hn)

theorem IsCut.joined (h : IsCut pattern text pieces) : pattern.intercalate pieces = text :=
  String.toList_injective (String.toList_intercalate.trans (Cuts.joined h))

theorem IsCut.unique (h : IsCut pattern text pieces) (k : IsCut pattern text others) :
    others = pieces :=
  (List.map_inj_right fun _ _ hs => String.toList_injective hs).mp (Cuts.unique h k)

theorem IsCut.replaceAll_eq (hp : pattern ≠ "") (h : IsCut pattern text pieces)
    (replacement : String) :
    replaceAll text pattern replacement = replacement.intercalate pieces := by
  have hne := toList_ne_nil hp
  apply String.toList_injective
  rw [replaceAll, String.toList_ofList, all_eq_scan hne, Cuts.scan_eq hne h,
    String.toList_intercalate]

theorem IsCut.size_eq (hp : pattern ≠ "") (h : IsCut pattern text pieces) (replacement : String) :
    ((replaceAll text pattern replacement).utf8ByteSize : Int) = text.utf8ByteSize +
      ((pieces.length : Int) - 1) * (replacement.utf8ByteSize - pattern.utf8ByteSize) := by
  have htext := size_intercalate pattern h.nonempty
  rw [h.joined] at htext
  rw [h.replaceAll_eq hp, size_intercalate replacement h.nonempty, htext]
  ring

theorem IsCut.length_le (hp : pattern ≠ "") (h : IsCut pattern text pieces) :
    ((pieces.length : Int) - 1) * pattern.utf8ByteSize ≤ text.utf8ByteSize := by
  have hgone := h.size_eq hp ""
  rw [String.utf8ByteSize_empty, Nat.cast_zero, zero_sub, mul_neg] at hgone
  have hrest : ((replaceAll text pattern "").utf8ByteSize : Int) ≥ 0 := Int.natCast_nonneg _
  rw [hgone] at hrest
  linarith

theorem replaceAll_unchanged {replacement : String}
    (h : pattern = "" ∨ ¬ pattern.toList <:+: text.toList ∨ pattern = replacement) :
    replaceAll text pattern replacement = text := by
  by_cases hp : pattern = ""
  · subst hp
    simp [replaceAll, all]
  · rcases h.resolve_left hp with hn | rfl
    · rw [replaceAll, all_of_not_occurs (mt occurs_iff.mp hn), String.ofList_toList]
    · obtain ⟨pieces, hcut⟩ := exists_isCut hp text
      rw [hcut.replaceAll_eq hp, hcut.joined]

end Strings

/-- For any pattern that is not empty the text is cut in one way and no other, and any replacement
joins the pieces of this cut: what is put in is never searched, and there is one turn for a cut. -/
theorem replaceAll_joins_cut (text pattern : String) :
    (pattern ≠ "" → ∃ pieces, IsCut pattern text pieces ∧
      (∀ others, IsCut pattern text others → others = pieces) ∧
      ((pieces.length : Int) - 1) * pattern.utf8ByteSize ≤ text.utf8ByteSize ∧
      ∀ replacement, replaceAll text pattern replacement = replacement.intercalate pieces ∧
        ((replaceAll text pattern replacement).utf8ByteSize : Int) = text.utf8ByteSize +
          ((pieces.length : Int) - 1) * (replacement.utf8ByteSize - pattern.utf8ByteSize)) ∧
    ∀ replacement, pattern = "" ∨ ¬ pattern.toList <:+: text.toList ∨ pattern = replacement →
      replaceAll text pattern replacement = text := by
  refine ⟨fun hp => ?_, fun _ => replaceAll_unchanged⟩
  obtain ⟨pieces, h⟩ := exists_isCut hp text
  exact ⟨pieces, h, fun _ => h.unique, h.length_le hp, fun replacement =>
    ⟨h.replaceAll_eq hp replacement, h.size_eq hp replacement⟩⟩

theorem overlapping_joined : "aa" ≠ "" ∧ IsCut "aa" "aaaébaaaa" ["", "aéb", "", ""] ∧
    replaceAll "aaaébaaaa" "aa" "aaa" = "aaaaébaaaaaa" ∧
    replaceAll "aaaébaaaa" "aa" "aa" = "aaaébaaaa" := by
  have hpiece : OnlyAtEnd ['a', 'a'] ['a', 'é', 'b'] := onlyAtEnd_cons.mpr ⟨by decide,
    onlyAtEnd_cons.mpr ⟨by decide, onlyAtEnd_cons.mpr ⟨by decide, onlyAtEnd_nil⟩⟩⟩
  have hcut : IsCut "aa" "aaaébaaaa" ["", "aéb", "", ""] :=
    cuts_cons_cons.mpr ⟨onlyAtEnd_nil, _, rfl, cuts_cons_cons.mpr ⟨hpiece, _, rfl,
      cuts_cons_cons.mpr ⟨onlyAtEnd_nil, _, rfl, cuts_singleton.mpr ⟨rfl, by decide⟩⟩⟩⟩
  obtain ⟨hjoin, hsame⟩ := replaceAll_joins_cut "aaaébaaaa" "aa"
  obtain ⟨pieces, -, hunique, -, hreplace⟩ := hjoin (by decide)
  obtain rfl := hunique _ hcut
  exact ⟨by decide, hcut, (hreplace "aaa").1.trans (by decide), hsame "aa" (.inr (.inr rfl))⟩

end Quiesce.Text
