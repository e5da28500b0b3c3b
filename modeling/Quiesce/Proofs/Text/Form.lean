import Mathlib.Data.List.Basic
import Quiesce.Proofs.Text.Utf8

set_option autoImplicit false

namespace Quiesce.Text

namespace Form

def IsKept (c : Char) : Prop :=
  ('A' ≤ c ∧ c ≤ 'Z') ∨ ('a' ≤ c ∧ c ≤ 'z') ∨ ('0' ≤ c ∧ c ≤ '9') ∨ c ∈ ['*', '-', '.', '_']

instance (c : Char) : Decidable (IsKept c) := inferInstanceAs (Decidable (_ ∨ _))

def upperDigits : List Char :=
  ['0', '1', '2', '3', '4', '5', '6', '7', '8', '9', 'A', 'B', 'C', 'D', 'E', 'F']

inductive Group (b : UInt8) : List Char → Prop where
  | kept : IsKept (Char.ofNat b.toNat) → Group b [Char.ofNat b.toNat]
  | space : b = 0x20 → Group b ['+']
  | escaped {h l : Char} : ¬ IsKept (Char.ofNat b.toNat) → b ≠ 0x20 →
      upperDigits[b.toNat / 16]? = some h → upperDigits[b.toNat % 16]? = some l →
      Group b ['%', h, l]

inductive Groups : List UInt8 → List Char → Prop where
  | nil : Groups [] []
  | cons {b : UInt8} {bytes : List UInt8} {group text : List Char} :
      Group b group → Groups bytes text → Groups (b :: bytes) (group ++ text)

def hexValue? (c : Char) : Option Nat :=
  if '0' ≤ c ∧ c ≤ '9' then some (c.toNat - 0x30)
  else if 'A' ≤ c ∧ c ≤ 'F' then some (c.toNat - 0x41 + 10)
  else if 'a' ≤ c ∧ c ≤ 'f' then some (c.toNat - 0x61 + 10)
  else none

/-- A percent sign without two digits behind it stands for itself, as all other characters do. -/
def decode : List Char → List UInt8
  | [] => []
  | '%' :: h :: l :: rest =>
    match hexValue? h, hexValue? l with
    | some x, some y => UInt8.ofNat (16 * x + y) :: decode rest
    | _, _ => 0x25 :: decode (h :: l :: rest)
  | c :: rest => (if c = '+' then [0x20] else String.utf8EncodeChar c) ++ decode rest

theorem forall_byte {P : UInt8 → Prop} (h : ∀ n < 256, P (UInt8.ofNat n)) (b : UInt8) : P b := by
  have hb := h b.toNat b.toNat_lt_size
  rwa [UInt8.ofNat_toNat] at hb

theorem isKept_iff (b : UInt8) : isKept b = true ↔ IsKept (Char.ofNat b.toNat) :=
  forall_byte (P := fun b => isKept b = true ↔ IsKept (Char.ofNat b.toNat)) (by decide +kernel) b

theorem upperDigits_eq : ∀ n < 16, upperDigits[n]? = some (hexDigit n) := by decide

theorem encodeByte_kept {b : UInt8} (h : isKept b = true) :
    encodeByte b = [Char.ofNat b.toNat] := if_pos h

theorem encodeByte_space : encodeByte 0x20 = ['+'] := by decide

theorem encodeByte_escaped {b : UInt8} (h : ¬ isKept b = true) (hs : b ≠ 0x20) :
    encodeByte b = ['%', hexDigit (b.toNat / 16), hexDigit (b.toNat % 16)] := by
  rw [encodeByte, if_neg h, if_neg (mt eq_of_beq hs)]

theorem high_lt (b : UInt8) : b.toNat / 16 < 16 := by
  have hb : b.toNat < 256 := b.toNat_lt_size
  omega

theorem low_lt (b : UInt8) : b.toNat % 16 < 16 := Nat.mod_lt _ (by decide)

theorem group_iff {b : UInt8} {group : List Char} : Group b group ↔ group = encodeByte b := by
  constructor
  · intro h
    cases h with
    | kept h => exact (encodeByte_kept ((isKept_iff b).mpr h)).symm
    | space h => exact h ▸ encodeByte_space.symm
    | escaped hk hs hh hl =>
      rw [upperDigits_eq _ (high_lt b)] at hh
      rw [upperDigits_eq _ (low_lt b)] at hl
      rw [encodeByte_escaped (mt (isKept_iff b).mp hk) hs, Option.some.inj hh, Option.some.inj hl]
  · rintro rfl
    by_cases hk : isKept b = true
    · rw [encodeByte_kept hk]
      exact .kept ((isKept_iff b).mp hk)
    · by_cases hs : b = 0x20
      · rw [hs, encodeByte_space]
        exact .space rfl
      · rw [encodeByte_escaped hk hs]
        exact .escaped (mt (isKept_iff b).mpr hk) hs (upperDigits_eq _ (high_lt b))
          (upperDigits_eq _ (low_lt b))

theorem hexValue?_hexDigit : ∀ n < 16, hexValue? (hexDigit n) = some n := by decide

theorem decode_of_ne {c : Char} (h : c ≠ '%') (rest : List Char) :
    decode (c :: rest) = (if c = '+' then [0x20] else String.utf8EncodeChar c) ++ decode rest := by
  rw [decode]
  intro x y more hc
  exact absurd hc h

theorem decode_escape {x y : Nat} (hx : x < 16) (hy : y < 16) (rest : List Char) :
    decode ('%' :: hexDigit x :: hexDigit y :: rest) = UInt8.ofNat (16 * x + y) :: decode rest := by
  rw [decode, hexValue?_hexDigit x hx, hexValue?_hexDigit y hy]

theorem kept_plain (b : UInt8) (h : isKept b = true) : Char.ofNat b.toNat ≠ '%' ∧
    Char.ofNat b.toNat ≠ '+' ∧ String.utf8EncodeChar (Char.ofNat b.toNat) = [b] :=
  forall_byte (P := fun b => isKept b = true → Char.ofNat b.toNat ≠ '%' ∧
    Char.ofNat b.toNat ≠ '+' ∧ String.utf8EncodeChar (Char.ofNat b.toNat) = [b])
    (by decide +kernel) b h

theorem decode_encodeByte (b : UInt8) (rest : List Char) :
    decode (encodeByte b ++ rest) = b :: decode rest := by
  by_cases hk : isKept b = true
  · obtain ⟨hpercent, hplus, hbyte⟩ := kept_plain b hk
    rw [encodeByte_kept hk, List.singleton_append, decode_of_ne hpercent, if_neg hplus, hbyte]
    rfl
  · by_cases hs : b = 0x20
    · subst hs
      rw [encodeByte_space, List.singleton_append, decode_of_ne (by decide), if_pos rfl]
      rfl
    · have hvalue : UInt8.ofNat (16 * (b.toNat / 16) + b.toNat % 16) = b := by
        rw [Nat.div_add_mod, UInt8.ofNat_toNat]
      rw [encodeByte_escaped hk hs]
      exact (decode_escape (high_lt b) (low_lt b) rest).trans (by rw [hvalue])

theorem groups_iff {bytes : List UInt8} {text : List Char} :
    Groups bytes text ↔ text = encode bytes := by
  constructor
  · intro h
    induction h with
    | nil => rfl
    | cons hg _ ih => rw [encode, List.flatMap_cons, group_iff.mp hg, ih, encode]
  · rintro rfl
    induction bytes with
    | nil => exact .nil
    | cons b bytes ih => exact .cons (group_iff.mpr rfl) ih

theorem decode_encode_append (bytes : List UInt8) (rest : List Char) :
    decode (encode bytes ++ rest) = bytes ++ decode rest := by
  induction bytes with
  | nil => rfl
  | cons b bytes ih =>
    rw [encode, List.flatMap_cons, List.append_assoc, decode_encodeByte, List.cons_append]
    exact congrArg (b :: ·) ih

theorem decode_encode (bytes : List UInt8) : decode (encode bytes) = bytes := by
  have h := decode_encode_append bytes []
  rwa [List.append_nil, decode, List.append_nil] at h

def delimiters : List Char := ['&', '=', ';', '#', '?', '/', ' ']

theorem IsKept.toNat_lt {c : Char} (h : IsKept c) : c.toNat < 0x80 := by
  have hle : ∀ {d : Char}, c ≤ d → d.toNat < 0x80 → c.toNat < 0x80 :=
    fun h => Nat.lt_of_le_of_lt (UInt32.le_iff_toNat_le.mp h)
  rcases h with ⟨-, h⟩ | ⟨-, h⟩ | ⟨-, h⟩ | h
  · exact hle h (by decide)
  · exact hle h (by decide)
  · exact hle h (by decide)
  · simp only [List.mem_cons, List.not_mem_nil, or_false] at h
    rcases h with rfl | rfl | rfl | rfl <;> decide

theorem isKept_hexDigit : ∀ n < 16, IsKept (hexDigit n) := by decide

theorem Group.mem {b : UInt8} {group : List Char} {c : Char} (h : Group b group) (hc : c ∈ group) :
    IsKept c ∨ c = '+' ∨ c = '%' := by
  cases h with
  | kept hk => exact .inl (List.mem_singleton.mp hc ▸ hk)
  | space => exact .inr (.inl (List.mem_singleton.mp hc))
  | escaped _ _ hh hl =>
    rw [upperDigits_eq _ (high_lt b), Option.some.injEq] at hh
    rw [upperDigits_eq _ (low_lt b), Option.some.injEq] at hl
    simp only [List.mem_cons, List.not_mem_nil, or_false] at hc
    rcases hc with rfl | rfl | rfl
    · exact .inr (.inr rfl)
    · exact .inl (hh ▸ isKept_hexDigit _ (high_lt b))
    · exact .inl (hl ▸ isKept_hexDigit _ (low_lt b))

theorem mem_encode {bytes : List UInt8} {c : Char} (h : c ∈ encode bytes) :
    c.toNat < 0x80 ∧ c ∉ delimiters := by
  obtain ⟨b, -, hc⟩ := List.mem_flatMap.mp h
  rcases (group_iff.mpr rfl : Group b (encodeByte b)).mem hc with hk | rfl | rfl
  · refine ⟨hk.toNat_lt, fun hd => ?_⟩
    simp only [delimiters, List.mem_cons, List.not_mem_nil, or_false] at hd
    rcases hd with rfl | rfl | rfl | rfl | rfl | rfl | rfl <;> exact absurd hk (by decide)
  · decide
  · decide

end Form

theorem toList_formEncode (s : String) : (formEncode s).toList = Form.encode (utf8 s.toList) :=
  String.toList_ofList

theorem formEncode_append (s t : String) : formEncode (s ++ t) = formEncode s ++ formEncode t := by
  apply String.toList_injective
  rw [String.toList_append, toList_formEncode, toList_formEncode, toList_formEncode,
    String.toList_append, utf8_append, Form.encode_append]

theorem decode_formEncode (s : String) :
    (Form.decode (formEncode s).toList).toByteArray = s.toUTF8 := by
  rw [toList_formEncode, Form.decode_encode, toUTF8_eq]

theorem formEncode_inj {s t : String} : formEncode s = formEncode t ↔ s = t := by
  refine ⟨fun h => ?_, fun h => h ▸ rfl⟩
  have hbytes := decode_formEncode s
  rw [h, decode_formEncode] at hbytes
  exact String.toByteArray_inj.mp hbytes.symm

/-- A text is written by the rule of the format, byte for byte, and can be read back: the bytes that
the reader finds are those of the text. So different texts are written differently, a text is
written as its parts are, and nothing is left that could be taken for a delimiter. -/
theorem formEncode_lossless (s : String) :
    (∀ text, Form.Groups (utf8 s.toList) text ↔ text = (formEncode s).toList) ∧
    (Form.decode (formEncode s).toList).toByteArray = s.toUTF8 ∧
    (∀ t, formEncode s = formEncode t ↔ s = t) ∧
    (∀ t, formEncode (s ++ t) = formEncode s ++ formEncode t) ∧
    ∀ c ∈ (formEncode s).toList, c.toNat < 0x80 ∧ c ∉ Form.delimiters := by
  refine ⟨fun text => ?_, decode_formEncode s, fun t => formEncode_inj, formEncode_append s, ?_⟩
  · rw [toList_formEncode]
    exact Form.groups_iff
  · rw [toList_formEncode]
    exact fun c => Form.mem_encode

theorem mixed_lossless : formEncode "a b+%41=é😀" = "a+b%2B%2541%3D%C3%A9%F0%9F%98%80" ∧
    (Form.decode "a+b%2B%2541%3D%C3%A9%F0%9F%98%80".toList).toByteArray = "a b+%41=é😀".toUTF8 ∧
    'A' ∉ Form.delimiters := by
  have hwritten : formEncode "a b+%41=é😀" = "a+b%2B%2541%3D%C3%A9%F0%9F%98%80" := by decide
  obtain ⟨-, hread, -, -, hsigns⟩ := formEncode_lossless "a b+%41=é😀"
  rw [hwritten] at hread hsigns
  exact ⟨hwritten, hread, (hsigns 'A' (by decide)).2⟩

end Quiesce.Text
