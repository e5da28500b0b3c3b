import Quiesce.Template
import Quiesce.Proofs.Bindings
import Quiesce.Proofs.Bindings.OrderedMap
import Quiesce.Proofs.Text.Utf8

set_option autoImplicit false

namespace Quiesce.Bindings

variable {ps qs : List (String × String)} {key : String}

def named (p : String × String) : Put := (some p.1, some p.2)

theorem ofPairs_concat (ps : List (String × String)) (p : String × String) :
    ofPairs (ps ++ [p]) = (ofPairs ps).insert p.1 p.2 := List.foldl_concat ..

theorem keysUnique_ofPairs (ps : List (String × String)) : (ofPairs ps).KeysUnique :=
  ofPairs_eq ps ▸ keysUnique_ofPuts _

theorem get?_putIn_self (es : List Put) (value : Option String) :
    get? ⟨putIn key value es⟩ key = value := by
  have hfirst : ∀ rest, get? ⟨(some key, value) :: rest⟩ key = value := fun rest =>
    (get?_cons _ rest key).trans (if_pos rfl)
  induction es with
  | nil => exact hfirst []
  | cons e rest ih =>
    obtain ⟨_ | k, v⟩ := e
    · rw [putIn, get?_cons, if_neg (by simp), ih]
    · by_cases hk : k = key
      · subst hk
        rw [putIn, if_pos rfl, hfirst]
      · rw [putIn, if_neg hk, get?_cons, if_neg (fun h => hk (Option.some.inj h)), ih]

theorem get?_ofPairs (ps : List (String × String)) : (ofPairs ps).get? = table ps := by
  induction ps using List.reverseRecOn with
  | nil => rfl
  | append_singleton ps p ih =>
    funext key
    rw [ofPairs_concat, table_concat, ← ih]
    by_cases hk : key = p.1
    · subst hk
      rw [Function.update_self]
      exact get?_putIn_self (ofPairs ps).entries (some p.2)
    · rw [Function.update_of_ne hk]
      exact get?_put (ofPairs ps) (some p.2) fun h => hk (Option.some.inj h).symm

theorem pairs_named (ps : List (String × String)) : pairs ⟨ps.map named⟩ = ps := by
  rw [pairs, List.filterMap_map]
  exact List.filterMap_some

theorem namesOf_named (ps : List (String × String)) : namesOf (ps.map named) = ps.map Prod.fst := by
  rw [namesOf, List.filterMap_map, ← List.filterMap_eq_map]
  rfl

theorem exists_named {e : Put} (he : e ∈ (ofPairs ps).entries) : ∃ p, named p = e := by
  induction ps using List.reverseRecOn generalizing e with
  | nil => exact absurd he List.not_mem_nil
  | append_singleton ps p ih =>
    rw [ofPairs_concat, insert, entries_put (keysUnique_ofPairs ps)] at he
    rcases List.mem_append.mp he with hold | hnew
    · obtain ⟨old, hmem, rfl⟩ := List.mem_map.mp hold
      unfold rebind
      split
      · exact ⟨p, rfl⟩
      · exact ih hmem
    · split at hnew
      · exact absurd hnew List.not_mem_nil
      · exact ⟨p, (List.mem_singleton.mp hnew).symm⟩

theorem entries_ofPairs (ps : List (String × String)) :
    (ofPairs ps).entries = (ofPairs ps).pairs.map named := by
  calc (ofPairs ps).entries
      = (ofPairs ps).entries.filterMap some := List.filterMap_some.symm
    _ = (ofPairs ps).entries.filterMap fun e => (completePair e).map named := by
      refine List.filterMap_congr fun e he => ?_
      obtain ⟨p, rfl⟩ := exists_named he
      rfl
    _ = (ofPairs ps).pairs.map named := List.map_filterMap.symm

theorem names_ofPairs (ps : List (String × String)) :
    (ofPairs ps).pairs.map Prod.fst = namesOf (ofPairs ps).entries := by
  rw [entries_ofPairs, namesOf_named]

theorem mem_namesOf_ofPairs : key ∈ namesOf (ofPairs ps).entries ↔ key ∈ ps.map Prod.fst := by
  rw [← namesOf_named ps, ofPairs_eq]
  exact mem_namesOf_ofPuts

theorem names_by_first_place (ps : List (String × String)) :
    ((ofPairs ps).pairs.map Prod.fst).Pairwise fun a b =>
      (ps.map Prod.fst).idxOf a < (ps.map Prod.fst).idxOf b := by
  rw [names_ofPairs]
  induction ps using List.reverseRecOn with
  | nil => exact .nil
  | append_singleton ps p ih =>
    -- One pair more leaves the first places of the names before it, and its own, if it is new, comes
    -- after all of these.
    have hplace : ∀ a ∈ namesOf (ofPairs ps).entries,
        ((ps ++ [p]).map Prod.fst).idxOf a = (ps.map Prod.fst).idxOf a := by
      intro a ha
      rw [List.map_append, List.idxOf_append_of_mem (mem_namesOf_ofPairs.mp ha)]
    have hold : (namesOf (ofPairs ps).entries).Pairwise fun a b =>
        ((ps ++ [p]).map Prod.fst).idxOf a < ((ps ++ [p]).map Prod.fst).idxOf b := by
      refine ih.imp_of_mem fun ha hb hab => ?_
      rwa [hplace _ ha, hplace _ hb]
    rw [ofPairs_concat, insert, put, namesOf_putIn]
    split
    · exact hold
    · rename_i hnew
      refine List.pairwise_append.mpr ⟨hold, List.pairwise_singleton .., fun a ha b hb => ?_⟩
      obtain rfl := List.mem_singleton.mp hb
      have hlast : p.1 ∉ ps.map Prod.fst := mt mem_namesOf_ofPairs.mpr hnew
      have hlt := List.idxOf_lt_length_iff.mpr (mem_namesOf_ofPairs.mp ha)
      rw [hplace a ha, List.map_append, List.idxOf_append_of_notMem hlast]
      omega

theorem pairs_of_nodup (h : (ps.map Prod.fst).Nodup) : (ofPairs ps).pairs = ps := by
  have hputs : ofPairs ps = ⟨ps.map named⟩ :=
    (ofPairs_eq ps).trans (ofPuts_of_nodup (namesOf_named ps ▸ h))
  rw [hputs, pairs_named]

theorem listing_pairs (ps : List (String × String)) : Listing (table ps) (ofPairs ps).pairs where
  nodup := .of_map _ ((names_pairs _).nodup (keysUnique_ofPairs ps))
  mem_iff key value := by rw [← get?_ofPairs, get?_eq_some_iff (keysUnique_ofPairs ps)]

theorem pairs_ofSorted (ps : List (String × String)) : (ofSorted ps).pairs = ascending ps :=
  pairs_of_nodup (listing_ascending ps).nodup_names

theorem ofSorted_eq_iff : ofSorted ps = ofSorted qs ↔ ∀ key, lastOf ps key = lastOf qs key := by
  rw [← funext_iff, ← table_eq_lastOf, ← table_eq_lastOf, ← ascending_eq_iff]
  constructor
  · intro h
    rw [← pairs_ofSorted, h, pairs_ofSorted]
  · exact congrArg ofPairs

/-- Bindings that hold the same, perhaps in another order. -/
structure Alike (b b' : Bindings) : Prop where
  size : b.size = b'.size
  get : ∀ key, b.get? key = b'.get? key
  entries : b.entries.Perm b'.entries
  pairs : b.pairs.Perm b'.pairs

theorem Alike.of_pairs (h : (ofPairs ps).pairs.Perm (ofPairs qs).pairs) :
    Alike (ofPairs ps) (ofPairs qs) := by
  have hentries : (ofPairs ps).entries.Perm (ofPairs qs).entries := by
    rw [entries_ofPairs, entries_ofPairs]
    exact h.map named
  exact {
    size := hentries.length_eq
    get := get?_eq_of_pairs (keysUnique_ofPairs ps) (keysUnique_ofPairs qs) fun _ => h.mem_iff
    entries := hentries
    pairs := h }

theorem Listing.alike (h : Listing (table ps) qs) : Alike (ofPairs ps) (ofPairs qs) :=
  .of_pairs ((pairs_of_nodup h.nodup_names).symm ▸ h.perm_iff.mp (listing_pairs ps))

/-- What the bindings made from pairs hold in whichever way they are made, and in which order. -/
structure MadeFrom (ps : List (String × String)) : Prop where
  last : ∀ key, (ofPairs ps).get? key = lastOf ps key
  sorted : Alike (ofPairs ps) (ofSorted ps)
  unsorted : ∀ b, MadeUnsorted ps b → Alike (ofPairs ps) b
  possible : MadeUnsorted ps (ofSorted ps)
  first : (ofPairs ps).pairs.Pairwise fun p q =>
    (ps.map Prod.fst).idxOf p.1 < (ps.map Prod.fst).idxOf q.1
  bytes : (ofSorted ps).pairs.Pairwise fun p q => Text.utf8 p.1.toList < Text.utf8 q.1.toList

/-- The pairs of each name come in the same order, whatever comes between them. -/
def Rearranged (ps qs : List (String × String)) : Prop :=
  ∀ key, (ps.filter fun p => p.1 = key) = qs.filter fun p => p.1 = key

theorem rearranged_iff : Rearranged ps qs ↔ ∀ key ∈ (ps ++ qs).map Prod.fst,
    (ps.filter fun p => p.1 = key) = qs.filter fun p => p.1 = key := by
  constructor
  · exact fun h key _ => h key
  · intro h key
    by_cases hk : key ∈ (ps ++ qs).map Prod.fst
    · exact h key hk
    · have hnone : ∀ p ∈ ps ++ qs, ¬ decide (p.1 = key) = true := fun p hp he =>
        hk (List.mem_map.mpr ⟨p, hp, of_decide_eq_true he⟩)
      rw [List.filter_eq_nil_iff.mpr fun p hp => hnone p (List.mem_append_left qs hp),
        List.filter_eq_nil_iff.mpr fun p hp => hnone p (List.mem_append_right ps hp)]

instance : Decidable (Rearranged ps qs) := decidable_of_iff _ rearranged_iff.symm

theorem Rearranged.lastOf_eq (h : Rearranged ps qs) (key : String) :
    lastOf ps key = lastOf qs key := by
  rw [lastOf, lastOf, h key]

theorem madeFrom (ps : List (String × String)) : MadeFrom ps where
  last := congrFun ((get?_ofPairs ps).trans (table_eq_lastOf ps))
  sorted := (listing_ascending ps).alike
  unsorted := by
    rintro b ⟨listing, h, rfl⟩
    exact h.alike
  possible := ⟨ascending ps, listing_ascending ps, rfl⟩
  first := (List.pairwise_map (f := Prod.fst)).mp (names_by_first_place ps)
  bytes := by
    rw [pairs_ofSorted]
    exact (ascends_ascending ps).imp fun h => Text.utf8_lt_iff.mpr h

/-- Whichever way pairs are bound, the bindings hold the last value of each name and differ in their
order alone. In ascending order, which is that of the bytes as well as that of the characters, they
are the same for all pairs that give each name the same value last; so the order in which different
names come cannot be seen in what a template expands to. -/
theorem sources_agree (ps qs : List (String × String)) :
    MadeFrom ps ∧
      (∀ a b : String, Text.utf8 a.toList < Text.utf8 b.toList ↔
        a.toList.map Char.toNat < b.toList.map Char.toNat) ∧
      (ofSorted ps = ofSorted qs ↔ ∀ key, lastOf ps key = lastOf qs key) ∧
      (Rearranged ps qs → ∀ template, Template.expand template (some (ofSorted ps)) =
        Template.expand template (some (ofSorted qs))) := by
  refine ⟨madeFrom ps, fun a b => ?_, ofSorted_eq_iff, fun h template => ?_⟩
  · rw [Text.utf8_lt_iff, Text.toNat_lt_iff]
  · rw [ofSorted_eq_iff.mpr h.lastOf_eq]

/-- Names with characters of one to four bytes, two of them given twice. Ordered by 16-bit units, the
name of four bytes would stand before that of three. -/
def mixedNames : List (String × String) :=
  [("é", "1"), ("𝄞", "2"), ("z", "3"), ("é", "4"), ("～", "5"), ("z", "6")]

def mixedOtherwise : List (String × String) :=
  [("～", "5"), ("z", "3"), ("z", "6"), ("𝄞", "2"), ("é", "1"), ("é", "4")]

def mixedUnsorted : Bindings := ofPairs [("𝄞", "2"), ("é", "4"), ("～", "5"), ("z", "6")]

theorem mixed_unsorted : MadeUnsorted mixedNames mixedUnsorted :=
  ⟨_, (listing_ascending mixedNames).perm_iff.mpr (by decide), rfl⟩

theorem mixed_agree :
    (ofSorted mixedNames).pairs = [("z", "6"), ("é", "4"), ("～", "5"), ("𝄞", "2")] ∧
      (ofPairs mixedNames).pairs = [("é", "4"), ("𝄞", "2"), ("z", "6"), ("～", "5")] ∧
      MadeUnsorted mixedNames mixedUnsorted ∧ Alike (ofPairs mixedNames) mixedUnsorted ∧
      Rearranged mixedNames mixedOtherwise ∧ ∀ template,
        Template.expand template (some (ofSorted mixedNames)) =
          Template.expand template (some (ofSorted mixedOtherwise)) := by
  have hre : Rearranged mixedNames mixedOtherwise := by decide
  obtain ⟨hmade, -, -, htemplate⟩ := sources_agree mixedNames mixedOtherwise
  exact ⟨by decide, by decide, mixed_unsorted, hmade.unsorted _ mixed_unsorted, hre, htemplate hre⟩

example :
    let naming := ("a", "$\x7bb\x7d")
    let named := ("b", "1")
    Template.interpolate "$\x7ba\x7d" (some (ofPairs [naming, named])) = "1" ∧
      Template.interpolate "$\x7ba\x7d" (some (ofPairs [named, naming])) = "$\x7bb\x7d" := by
  decide

end Quiesce.Bindings
