import Mathlib.Data.List.Induction
import Mathlib.Data.List.Nodup
import Mathlib.Logic.Function.Basic
import Quiesce.Template

set_option autoImplicit false

namespace Quiesce.Bindings

def namesOf (es : List (Option String × Option String)) : List String := es.filterMap (·.1)

def KeysUnique (b : Bindings) : Prop := (namesOf b.entries).Nodup

theorem namesOf_putIn (key : String) (value : Option String)
    (es : List (Option String × Option String)) :
    namesOf (putIn key value es) =
      if key ∈ namesOf es then namesOf es else namesOf es ++ [key] := by
  induction es with
  | nil => simp [putIn, namesOf]
  | cons e rest ih =>
    obtain ⟨_ | k, v⟩ := e
    · exact ih
    · by_cases hk : k = key
      · subst hk
        simp [putIn, namesOf]
      · have hcons : ∀ v' : Option String,
            ∀ l, namesOf ((some k, v') :: l) = k :: namesOf l := fun _ _ => rfl
        have hne : ¬ key = k := fun h => hk h.symm
        rw [putIn, if_neg hk, hcons, hcons, ih]
        by_cases hm : key ∈ namesOf rest <;> simp [hm, hne]

theorem KeysUnique.put {b : Bindings} (h : b.KeysUnique) (key value : Option String) :
    (b.put key value).KeysUnique := by
  unfold KeysUnique at *
  cases key with
  | none => simpa [Bindings.put, namesOf] using h
  | some k =>
    rw [Bindings.put, namesOf_putIn]
    split
    · exact h
    · rename_i hk
      exact List.nodup_append.mpr ⟨h, by simp, by grind⟩

theorem keysUnique_ofPuts (puts : List (Option String × Option String)) :
    (ofPuts puts).KeysUnique := by
  have hfold : ∀ (b : Bindings), b.KeysUnique →
      (puts.foldl (fun b e => b.put e.1 e.2) b).KeysUnique := by
    induction puts with
    | nil => exact fun b h => h
    | cons e rest ih => exact fun b h => ih _ (h.put e.1 e.2)
  exact hfold empty List.nodup_nil

theorem get?_cons (e : Option String × Option String)
    (es : List (Option String × Option String)) (key : String) :
    get? ⟨e :: es⟩ key = if e.1 = some key then e.2 else get? ⟨es⟩ key := by
  by_cases he : e.1 = some key <;> simp [get?, he]

theorem key_mem_namesOf {es : List (Option String × Option String)} {e : String × String}
    (h : e ∈ pairs ⟨es⟩) : e.1 ∈ namesOf es := by
  obtain ⟨⟨_ | k, _ | v⟩, hm, hp⟩ := List.mem_filterMap.mp h
  all_goals cases hp
  exact List.mem_filterMap.mpr ⟨_, hm, rfl⟩

/-- A name is bound to a value exactly if the two are one of the pairs. -/
theorem get?_eq_some_iff {b : Bindings} (h : b.KeysUnique) {key value : String} :
    b.get? key = some value ↔ (key, value) ∈ b.pairs := by
  obtain ⟨es⟩ := b
  induction es with
  | nil => simp [get?, pairs]
  | cons e rest ih =>
    obtain ⟨_ | k, v⟩ := e
    · rw [get?_cons, if_neg (by simp)]
      exact ih h
    · obtain ⟨hk, hrest⟩ := List.nodup_cons.mp (show (k :: namesOf rest).Nodup from h)
      have hnot : (k, value) ∉ pairs ⟨rest⟩ := fun hm => hk (key_mem_namesOf hm)
      have hcons : (key, value) ∈ pairs ⟨(some k, v) :: rest⟩ ↔
          k = key ∧ v = some value ∨ (key, value) ∈ pairs ⟨rest⟩ := by
        cases v <;> simp [pairs, completePair, eq_comm]
      rw [get?_cons, hcons]
      by_cases hkey : k = key
      · subst hkey
        simp [hnot]
      · simpa [hkey] using ih hrest

theorem get?_eq_of_pairs {b b' : Bindings} (h : b.KeysUnique) (h' : b'.KeysUnique)
    (hp : ∀ e, e ∈ b.pairs ↔ e ∈ b'.pairs) (key : String) : b.get? key = b'.get? key :=
  Option.ext fun value => by rw [get?_eq_some_iff h, get?_eq_some_iff h', hp]

theorem mem_of_lookup {key value : String} {ps : List (String × String)}
    (h : ps.lookup key = some value) : (key, value) ∈ ps := by
  obtain ⟨before, after, hs, -⟩ := List.lookup_eq_some_iff.mp h
  rw [hs]
  exact List.mem_append_right before (List.mem_cons_self ..)

theorem lookup_pairs {b : Bindings} (h : b.KeysUnique) (key : String) :
    b.pairs.lookup key = b.get? key := by
  cases hl : b.pairs.lookup key with
  | some value => exact ((get?_eq_some_iff h).mpr (mem_of_lookup hl)).symm
  | none =>
    refine (Option.eq_none_iff_forall_ne_some.mpr fun value hv => ?_).symm
    have hne := List.lookup_eq_none_iff.mp hl _ ((get?_eq_some_iff h).mp hv)
    exact absurd rfl (bne_iff_ne.mp hne)

variable {ps qs : List (String × String)} {m : String → Option String} {key value : String}

def lastOf (pairs : List (String × String)) (key : String) : Option String :=
  (pairs.filter fun p => p.1 = key).getLast?.map Prod.snd

theorem table_concat (ps : List (String × String)) (p : String × String) :
    table (ps ++ [p]) = Function.update (table ps) p.1 (some p.2) := by
  funext key
  rw [table, List.foldl_concat, ← table, Function.update_apply]

theorem ascending_concat (ps : List (String × String)) (p : String × String) :
    ascending (ps ++ [p]) = putAscending p.1 p.2 (ascending ps) := List.foldl_concat ..

theorem lastOf_concat (ps : List (String × String)) (p : String × String) :
    lastOf (ps ++ [p]) = Function.update (lastOf ps) p.1 (some p.2) := by
  funext key
  by_cases hk : p.1 = key
  · subst hk
    simp [lastOf]
  · simp [lastOf, hk, Ne.symm hk]

theorem table_eq_lastOf (ps : List (String × String)) : table ps = lastOf ps := by
  induction ps using List.reverseRecOn with
  | nil => rfl
  | append_singleton ps p ih => rw [table_concat, lastOf_concat, ih]

theorem Listing.perm_iff (h : Listing m ps) : Listing m qs ↔ qs.Perm ps := by
  constructor
  · intro h'
    refine (List.perm_ext_iff_of_nodup h'.nodup h.nodup).mpr fun p => ?_
    rw [h'.mem_iff, h.mem_iff]
  · intro hp
    exact ⟨hp.nodup_iff.mpr h.nodup, fun key value => hp.mem_iff.trans (h.mem_iff key value)⟩

theorem Listing.nodup_names (h : Listing m ps) : (ps.map Prod.fst).Nodup := by
  refine List.Nodup.map_on (fun p hp q hq hk => ?_) h.nodup
  have hv : some p.2 = some q.2 := by
    rw [← (h.mem_iff p.1 p.2).mp hp, ← (h.mem_iff q.1 q.2).mp hq, hk]
  exact Prod.ext hk (Option.some.inj hv)

/-- Each name is greater than those before it. -/
def Ascends (ps : List (String × String)) : Prop := ps.Pairwise fun p q => p.1 < q.1

theorem Ascends.above {p q : String × String} (h : Ascends (p :: ps)) (hk : key < p.1)
    (hq : q ∈ p :: ps) : key < q.1 := by
  rcases List.mem_cons.mp hq with rfl | hq
  · exact hk
  · exact String.lt_trans hk ((List.pairwise_cons.mp h).1 q hq)

theorem ne_of_above {p : String × String} (h : key < p.1) : p.1 ≠ key :=
  fun hk => String.lt_irrefl key (hk ▸ h)

theorem Ascends.nodup (h : Ascends ps) : ps.Nodup :=
  h.imp fun {p q} hlt (hpq : p = q) => ne_of_above hlt (congrArg Prod.fst hpq.symm)

theorem mem_putAscending (h : Ascends ps) {p : String × String} :
    p ∈ putAscending key value ps ↔ p = (key, value) ∨ p.1 ≠ key ∧ p ∈ ps := by
  induction ps with
  | nil => simp [putAscending]
  | cons e rest ih =>
    obtain ⟨k, v⟩ := e
    obtain ⟨hfirst, hrest⟩ := List.pairwise_cons.mp h
    rw [putAscending]
    by_cases hlt : key < k
    · rw [if_pos hlt, List.mem_cons]
      exact or_congr_right ⟨fun hp => ⟨ne_of_above (h.above hlt hp), hp⟩, And.right⟩
    · rw [if_neg hlt]
      by_cases hk : k = key
      · subst hk
        -- What stands behind the replaced pair has greater names, so none of it is lost.
        have hne : p ∈ rest → p.1 ≠ k := fun hp => ne_of_above (hfirst p hp)
        rw [if_pos rfl, List.mem_cons, List.mem_cons]
        constructor
        · exact Or.imp_right fun hp => ⟨hne hp, Or.inr hp⟩
        · exact Or.imp_right fun ⟨hp, hmem⟩ => hmem.resolve_left fun he => hp (he ▸ rfl)
      · rw [if_neg hk, List.mem_cons, List.mem_cons, ih hrest]
        constructor
        · rintro (rfl | rfl | ⟨hne, hp⟩)
          · exact Or.inr ⟨hk, Or.inl rfl⟩
          · exact Or.inl rfl
          · exact Or.inr ⟨hne, Or.inr hp⟩
        · rintro (rfl | ⟨hne, rfl | hp⟩)
          · exact Or.inr (Or.inl rfl)
          · exact Or.inl rfl
          · exact Or.inr (Or.inr ⟨hne, hp⟩)

theorem Ascends.put (h : Ascends ps) : Ascends (putAscending key value ps) := by
  induction ps with
  | nil => exact List.pairwise_singleton ..
  | cons e rest ih =>
    obtain ⟨k, v⟩ := e
    obtain ⟨hfirst, hrest⟩ := List.pairwise_cons.mp h
    rw [putAscending]
    by_cases hlt : key < k
    · rw [if_pos hlt]
      exact List.pairwise_cons.mpr ⟨fun q hq => h.above hlt hq, h⟩
    · rw [if_neg hlt]
      by_cases hk : k = key
      · rw [if_pos hk]
        exact List.pairwise_cons.mpr ⟨hfirst, hrest⟩
      · rw [if_neg hk]
        refine List.pairwise_cons.mpr ⟨fun q hq => ?_, ih hrest⟩
        rcases (mem_putAscending hrest).mp hq with rfl | ⟨-, hq⟩
        · exact Std.lt_of_le_of_ne (String.not_lt.mp hlt) hk
        · exact hfirst q hq

theorem ascends_ascending (ps : List (String × String)) : Ascends (ascending ps) := by
  induction ps using List.reverseRecOn with
  | nil => exact .nil
  | append_singleton ps p ih => exact ascending_concat ps p ▸ ih.put

theorem listing_ascending (ps : List (String × String)) :
    Listing (table ps) (ascending ps) where
  nodup := (ascends_ascending ps).nodup
  mem_iff key value := by
    induction ps using List.reverseRecOn with
    | nil => exact iff_of_false List.not_mem_nil nofun
    | append_singleton ps p ih =>
      obtain ⟨k, v⟩ := p
      rw [ascending_concat, mem_putAscending (ascends_ascending ps), table_concat]
      by_cases hk : key = k
      · subst hk
        simp [eq_comm]
      · rw [Function.update_of_ne hk, ← ih]
        simp [hk]

theorem ascending_eq_iff : ascending ps = ascending qs ↔ table ps = table qs := by
  constructor
  · intro h
    funext key
    refine Option.ext fun value => ?_
    rw [← (listing_ascending ps).mem_iff, ← (listing_ascending qs).mem_iff, h]
  · intro h
    have hperm : (ascending ps).Perm (ascending qs) :=
      (listing_ascending qs).perm_iff.mp (h ▸ listing_ascending ps)
    refine hperm.eq_of_pairwise (fun p q _ _ hpq hqp => ?_) (ascends_ascending ps)
      (ascends_ascending qs)
    exact absurd (String.lt_trans hpq hqp) (String.lt_irrefl _)

end Quiesce.Bindings
