import Mathlib.Data.Char
import Mathlib.Data.List.Basic
import Mathlib.Data.List.Lex
import Quiesce.Text.Basic

set_option autoImplicit false

namespace Quiesce.Text

variable {c d : Char} {p s t : List Char} {i : Nat} {b : UInt8}

theorem utf8_nil : utf8 [] = [] := rfl

theorem utf8_cons (c : Char) (s : List Char) : utf8 (c :: s) = String.utf8EncodeChar c ++ utf8 s :=
  List.flatMap_cons

theorem utf8_append (s t : List Char) : utf8 (s ++ t) = utf8 s ++ utf8 t := List.flatMap_append

theorem toUTF8_eq (s : String) : s.toUTF8 = (utf8 s.toList).toByteArray :=
  String.utf8Encode_toList.symm

theorem utf8_injective : Function.Injective utf8 := by
  intro s t h
  have hbytes : (String.ofList s).toByteArray = (String.ofList t).toByteArray := by
    rw [← String.utf8Encode_toList, ← String.utf8Encode_toList, String.toList_ofList,
      String.toList_ofList]
    exact congrArg List.toByteArray h
  rw [String.toByteArray_inj] at hbytes
  exact String.ofList_injective hbytes

theorem utf8_eq_nil_iff : utf8 s = [] ↔ s = [] :=
  ⟨fun h => utf8_injective h, fun h => h ▸ rfl⟩

theorem char_eq_of_append {x y : List UInt8}
    (h : String.utf8EncodeChar c ++ x = String.utf8EncodeChar d ++ y) : c = d := by
  have hbytes := congrArg (fun l : List UInt8 => l.toByteArray.utf8DecodeChar? 0) h
  simp only [List.toByteArray_append, ByteArray.utf8DecodeChar?_utf8EncodeChar_append] at hbytes
  exact Option.some.inj hbytes

theorem utf8_prefix_iff : utf8 p <+: utf8 s ↔ p <+: s := by
  constructor
  · intro h
    induction p generalizing s with
    | nil => exact List.nil_prefix
    | cons c p ih =>
      obtain ⟨rest, hrest⟩ := h
      rw [utf8_cons, List.append_assoc] at hrest
      cases s with
      | nil =>
        have hnil := (List.append_eq_nil_iff.mp hrest).1
        exact absurd hnil String.utf8EncodeChar_ne_nil
      | cons d s =>
        rw [utf8_cons] at hrest
        obtain rfl := char_eq_of_append hrest
        exact List.cons_prefix_cons.mpr ⟨rfl, ih ⟨rest, List.append_cancel_left hrest⟩⟩
  · rintro ⟨rest, rfl⟩
    exact ⟨utf8 rest, (utf8_append p rest).symm⟩

theorem firstByte_of_lt (hi : i < (String.utf8EncodeChar c).length) :
    (∃ b, (String.utf8EncodeChar c)[i]? = some b ∧ b.IsUTF8FirstByte) ↔ i = 0 := by
  rw [List.getElem?_eq_getElem hi]
  simp only [Option.some.injEq, exists_eq_left']
  exact UInt8.isUTF8FirstByte_getElem_utf8EncodeChar

/-- A byte with which a character can begin stands where a character begins, and nowhere else. -/
theorem firstByte_iff : (∃ b, (utf8 s)[i]? = some b ∧ b.IsUTF8FirstByte) ↔
    ∃ before after, after ≠ [] ∧ s = before ++ after ∧ i = (utf8 before).length := by
  induction s generalizing i with
  | nil =>
    refine iff_of_false (fun ⟨b, hb, _⟩ => nomatch hb) ?_
    rintro ⟨before, after, hne, hs, -⟩
    exact hne (List.append_eq_nil_iff.mp hs.symm).2
  | cons c s ih =>
    rw [utf8_cons]
    constructor
    · rintro ⟨b, hb, hfirst⟩
      rcases Nat.lt_or_ge i (String.utf8EncodeChar c).length with hi | hi
      · rw [List.getElem?_append_left hi] at hb
        obtain rfl := (firstByte_of_lt hi).mp ⟨b, hb, hfirst⟩
        exact ⟨[], c :: s, List.cons_ne_nil c s, rfl, rfl⟩
      · rw [List.getElem?_append_right hi] at hb
        obtain ⟨before, after, hne, rfl, hlen⟩ := ih.mp ⟨b, hb, hfirst⟩
        refine ⟨c :: before, after, hne, rfl, ?_⟩
        rw [utf8_cons, List.length_append, ← hlen]
        exact (Nat.add_sub_of_le hi).symm
    · rintro ⟨before, after, hne, hs, rfl⟩
      cases before with
      | nil =>
        have hpos := List.length_pos_iff.mpr (String.utf8EncodeChar_ne_nil (c := c))
        rw [utf8_nil, List.length_nil, List.getElem?_append_left hpos]
        exact (firstByte_of_lt hpos).mpr rfl
      | cons d before =>
        obtain ⟨rfl, rfl⟩ := List.cons.inj hs
        rw [utf8_cons, List.length_append, List.getElem?_append_right (Nat.le_add_right _ _),
          Nat.add_sub_cancel_left]
        exact ih.mpr ⟨before, after, hne, rfl, rfl⟩

theorem utf8_prefix_drop_iff (hp : p ≠ []) : utf8 p <+: (utf8 s).drop i ↔
    ∃ before after, s = before ++ p ++ after ∧ i = (utf8 before).length := by
  constructor
  · intro h
    obtain ⟨b, hb⟩ : ∃ b, (utf8 p)[0]? = some b ∧ b.IsUTF8FirstByte :=
      firstByte_iff.mpr ⟨[], p, hp, rfl, rfl⟩
    have hthere : (utf8 s)[i]? = some b := by
      obtain ⟨rest, hrest⟩ := h
      rw [← Nat.add_zero i, ← List.getElem?_drop, ← hrest]
      exact List.getElem?_append_left (List.length_pos_iff.mpr (mt utf8_eq_nil_iff.mp hp)) ▸ hb.1
    obtain ⟨before, after, -, rfl, rfl⟩ := firstByte_iff.mp ⟨b, hthere, hb.2⟩
    rw [utf8_append, List.drop_left, utf8_prefix_iff] at h
    obtain ⟨rest, rfl⟩ := h
    exact ⟨before, rest, (List.append_assoc _ _ _).symm, rfl⟩
  · rintro ⟨before, after, rfl, rfl⟩
    rw [utf8_append, utf8_append, List.append_assoc, List.drop_left]
    exact List.prefix_append _ _

variable {c d : Char} {s t : List Char}

theorem byte_cons_lt_iff {m n : Nat} {x y : List UInt8} (hm : m < 256) (hn : n < 256) :
    UInt8.ofNat m :: x < UInt8.ofNat n :: y ↔ m < n ∨ m = n ∧ x < y := by
  have heq : UInt8.ofNat m = UInt8.ofNat n ↔ m = n := by
    rw [← UInt8.toNat_inj, UInt8.toNat_ofNat_of_lt' hm, UInt8.toNat_ofNat_of_lt' hn]
  rw [List.cons_lt_cons_iff, UInt8.ofNat_lt_iff_lt hm hn, heq]

theorem encodeChar_lt (h : c < d) : String.utf8EncodeChar c < String.utf8EncodeChar d := by
  have hlt : c.val.toNat < d.val.toNat := h
  have hmax : d.val.toNat < 0x110000 := by
    have hvalid := d.valid
    unfold UInt32.isValidChar Nat.isValidChar at hvalid
    omega
  simp only [String.utf8EncodeChar]
  -- Of two lengths the greater one has the greater first byte. Where the lengths are the same, the
  -- bytes are the digits of the two numbers to the base 64.
  split_ifs <;> simp (disch := omega) only [byte_cons_lt_iff, Nat.mod_eq_of_lt] <;> omega

theorem not_prefix_encodeChar (h : c ≠ d) :
    ¬ String.utf8EncodeChar c <+: String.utf8EncodeChar d := by
  rintro ⟨rest, hrest⟩
  exact h (char_eq_of_append (hrest.trans (List.append_nil _).symm))

theorem append_lt_append {x y : List UInt8} (h : x < y) (hp : ¬ x <+: y) (u v : List UInt8) :
    x ++ u < y ++ v := by
  induction h with
  | nil => exact absurd List.nil_prefix hp
  | rel hab => exact .rel hab
  | cons _ ih => exact .cons (ih fun hxy => hp (List.cons_prefix_cons.mpr ⟨rfl, hxy⟩))

theorem utf8_lt (h : s < t) : utf8 s < utf8 t := by
  induction h with
  | @nil c t =>
    have hne : utf8 (c :: t) ≠ [] := mt utf8_eq_nil_iff.mp (List.cons_ne_nil c t)
    obtain ⟨b, rest, hb⟩ := List.exists_cons_of_ne_nil hne
    rw [hb]
    exact List.nil_lt_cons b rest
  | rel hcd =>
    rw [utf8_cons, utf8_cons]
    exact append_lt_append (encodeChar_lt hcd) (not_prefix_encodeChar (ne_of_lt hcd)) _ _
  | cons _ ih =>
    rw [utf8_cons, utf8_cons]
    exact List.append_left_lt ih

/-- What keeps the order of texts also shows it, since any two texts are in some order. -/
theorem lt_iff_of_keeps {β : Type} [LT β] [Std.Asymm fun a b : β => a < b]
    {f : List Char → List β} (hf : ∀ s t, s < t → f s < f t) : f s < f t ↔ s < t := by
  constructor
  · intro h
    rcases lt_trichotomy s t with hst | rfl | hts
    · exact hst
    · exact absurd h (List.lt_asymm h)
    · exact absurd (hf t s hts) (List.lt_asymm h)
  · exact hf s t

theorem utf8_lt_iff : utf8 s < utf8 t ↔ s < t := lt_iff_of_keeps fun _ _ => utf8_lt

theorem toNat_lt_iff : s.map Char.toNat < t.map Char.toNat ↔ s < t :=
  lt_iff_of_keeps fun _ _ => List.map_lt fun _ _ hcd => hcd

end Quiesce.Text
