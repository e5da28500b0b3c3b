import Mathlib.Algebra.GroupWithZero.Nat
import Mathlib.Data.List.Basic
import Quiesce.Text.Basic

set_option autoImplicit false

namespace Quiesce.Text

namespace Join

variable {sep : Char} {x y s : List Char} {xs ys : List (List Char)}

theorem chars_cons (hxs : xs ≠ []) : chars sep (x :: xs) = x ++ sep :: chars sep xs := by
  obtain ⟨y, rest, rfl⟩ := List.exists_cons_of_ne_nil hxs
  rw [chars]

theorem chars_eq_intercalate (sep : Char) (xs : List (List Char)) :
    chars sep xs = [sep].intercalate xs := by
  induction xs with
  | nil => rfl
  | cons x xs ih =>
    cases xs with
    | nil => simp [chars]
    | cons y rest =>
      rw [chars_cons (List.cons_ne_nil y rest), ih, List.intercalate_cons_cons,
        List.append_assoc, List.singleton_append]

theorem chars_append (hxs : xs ≠ []) (hys : ys ≠ []) :
    chars sep (xs ++ ys) = chars sep xs ++ sep :: chars sep ys := by
  induction xs with
  | nil => exact absurd rfl hxs
  | cons x xs ih =>
    cases xs with
    | nil => exact chars_cons hys
    | cons y rest =>
      have hrest := ih (List.cons_ne_nil y rest)
      rw [List.cons_append, chars_cons (by simp), hrest, chars_cons (List.cons_ne_nil y rest),
        List.append_assoc, List.cons_append]

theorem count_chars (hxs : xs ≠ []) :
    (chars sep xs).count sep = (xs.length - 1) + (xs.map (List.count sep)).sum := by
  induction xs with
  | nil => exact absurd rfl hxs
  | cons x xs ih =>
    cases xs with
    | nil => simp [chars]
    | cons y rest =>
      rw [chars_cons (List.cons_ne_nil y rest), List.count_append, List.count_cons_self,
        ih (List.cons_ne_nil y rest)]
      simp only [List.length_cons, List.map_cons, List.sum_cons]
      omega

theorem split_eq_splitOn (sep : Char) (s : List Char) : split sep s = s.splitOn sep := by
  induction s with
  | nil => rfl
  | cons c rest ih =>
    rw [split, ih, List.splitOn_cons_eq_if_modifyHead]
    by_cases hc : c = sep
    · simp [hc]
    · obtain ⟨piece, pieces, hp⟩ := List.exists_cons_of_ne_nil (List.splitOn_ne_nil sep rest)
      simp [hc, hp]

theorem split_chars (hxs : xs ≠ []) (hsep : ∀ x ∈ xs, sep ∉ x) : split sep (chars sep xs) = xs := by
  rw [split_eq_splitOn, chars_eq_intercalate]
  exact List.splitOn_intercalate sep hsep hxs

end Join

def texts (items : List (Option String)) : List String := items.map fun i => i.getD ""

def pieces (s : String) (sep : Char) : List String := (s.split sep).toList.map String.Slice.copy

section

variable {items xs ys : List (Option String)} {sep : Char}

theorem pieces_eq (s : String) (sep : Char) :
    pieces s sep = (Join.split sep s.toList).map String.ofList := by
  rw [pieces, String.toList_split_char, Join.split_eq_splitOn]

theorem toList_join (items : List (Option String)) (sep : Char) :
    (join items sep).toList = Join.chars sep ((texts items).map String.toList) := by
  rw [join, String.toList_ofList, texts, List.map_map]
  rfl

theorem texts_ne_nil (h : items ≠ []) : (texts items).map String.toList ≠ [] :=
  fun hn => h (List.map_eq_nil_iff.mp (List.map_eq_nil_iff.mp hn))

theorem not_mem_texts (h : ∀ s, some s ∈ items → sep ∉ s.toList) :
    ∀ s ∈ (texts items).map String.toList, sep ∉ s := by
  simp only [texts, List.mem_map, forall_exists_index, and_imp]
  rintro _ _ (_ | s) hi rfl rfl
  · exact List.not_mem_nil
  · exact h s hi

theorem pieces_join (hne : items ≠ []) (h : ∀ s, some s ∈ items → sep ∉ s.toList) :
    pieces (join items sep) sep = texts items := by
  rw [pieces_eq, toList_join, Join.split_chars (texts_ne_nil hne) (not_mem_texts h), List.map_map]
  exact List.map_id'' (fun s => String.ofList_toList) _

theorem count_join (hne : items ≠ []) : (join items sep).toList.count sep =
    (items.length - 1) + ((texts items).map fun s => s.toList.count sep).sum := by
  rw [toList_join, Join.count_chars (texts_ne_nil hne), List.map_map, List.length_map, texts,
    List.length_map]
  rfl

theorem join_append (hxs : xs ≠ []) (hys : ys ≠ []) :
    join (xs ++ ys) sep = join xs sep ++ String.singleton sep ++ join ys sep := by
  apply String.toList_injective
  have htexts : texts (xs ++ ys) = texts xs ++ texts ys := List.map_append
  rw [toList_join, htexts, List.map_append,
    Join.chars_append (texts_ne_nil hxs) (texts_ne_nil hys), String.toList_append,
    String.toList_append, String.toList_singleton, toList_join, toList_join, List.append_assoc,
    List.singleton_append]

end

/-- Cutting a joined text at every separator undoes the joining, if no item holds one. In any case a
separator stands between two items and nowhere else. -/
theorem join_undone (sep : Char) :
    (∀ items, items ≠ [] → (∀ s, some s ∈ items → sep ∉ s.toList) →
      pieces (join items sep) sep = texts items) ∧
    (∀ items, items ≠ [] → (join items sep).toList.count sep =
      (items.length - 1) + ((texts items).map fun s => s.toList.count sep).sum) ∧
    (∀ xs ys, xs ≠ [] → ys ≠ [] →
      join (xs ++ ys) sep = join xs sep ++ String.singleton sep ++ join ys sep) ∧
    join [] sep = "" :=
  ⟨fun _ => pieces_join, fun _ => count_join, fun _ _ => join_append, rfl⟩

theorem gaps_undone : join [none, some "", some "a;b", none] ',' = ",,a;b," ∧
    pieces ",,a;b," ',' = ["", "", "a;b", ""] ∧
    ",,a;b,".toList.count ',' = 3 ∧
    join [none, some "", some "a;b", none] ';' = ";;a;b;" ∧ ";;a;b;".toList.count ';' = 4 ∧
    ",,a;b," = join [none, some ""] ',' ++ "," ++ join [some "a;b", none] ',' := by
  have hcomma : join [none, some "", some "a;b", none] ',' = ",,a;b," := by decide
  have hsemi : join [none, some "", some "a;b", none] ';' = ";;a;b;" := by decide
  obtain ⟨hcut, hcount, hparts, -⟩ := join_undone ','
  have hpieces := hcut [none, some "", some "a;b", none] (by decide) (by simp)
  have hcommas := hcount [none, some "", some "a;b", none] (by decide)
  have hsemis := (join_undone ';').2.1 [none, some "", some "a;b", none] (by decide)
  rw [hcomma] at hpieces hcommas
  rw [hsemi] at hsemis
  exact ⟨hcomma, hpieces, hcommas.trans (by decide), hsemi, hsemis.trans (by decide),
    hcomma.symm.trans (hparts [none, some ""] [some "a;b", none] (by decide) (by decide))⟩

end Quiesce.Text
