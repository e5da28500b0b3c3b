import Mathlib.Data.Finset.Card
import Quiesce.Proofs.Bindings

set_option autoImplicit false

namespace Quiesce.Bindings

abbrev Put := Option String × Option String

def lastValue (puts : List Put) (key : String) : Option String :=
  (puts.filter fun e => e.1 = some key).getLast?.bind fun e => e.2

/-- The entries that puts open: each put without a name does, and the first put of each name. A
named entry holds what `value` says of its name. -/
def opened (value : String → Option String) (puts : List Put) : List Put :=
  puts.zipIdx.filterMap fun (e, i) => match e.1 with
    | none => some e
    | some k => if k ∈ namesOf (puts.take i) then none else some (some k, value k)

def settled (puts : List Put) : List Put := opened (lastValue puts) puts

variable {puts es : List Put} {b : Bindings} {key : String} {v value : Option String}

theorem namesOf_append (es fs : List Put) : namesOf (es ++ fs) = namesOf es ++ namesOf fs :=
  List.filterMap_append

theorem ofPuts_concat (puts : List Put) (e : Put) :
    ofPuts (puts ++ [e]) = (ofPuts puts).put e.1 e.2 := List.foldl_concat ..

def rebind (key : String) (value : Option String) (e : Put) : Put :=
  if e.1 = some key then (some key, value) else e

theorem rebind_of_ne {e : Put} (h : e.1 ≠ some key) : rebind key value e = e := if_neg h

theorem map_rebind_of_not_mem (h : key ∉ namesOf es) : es.map (rebind key value) = es := by
  have hne : ∀ e ∈ es, rebind key value e = e := fun e he =>
    rebind_of_ne fun hk => h (List.mem_filterMap.mpr ⟨e, he, hk⟩)
  rw [List.map_congr_left hne, List.map_id']

/-- Of entries without a name twice, a put rebinds the one with its name or adds one. -/
theorem putIn_eq (h : (namesOf es).Nodup) :
    putIn key value es = es.map (rebind key value) ++
      if key ∈ namesOf es then [] else [(some key, value)] := by
  induction es with
  | nil => rfl
  | cons e rest ih =>
    obtain ⟨_ | k, v⟩ := e
    · exact congrArg ((none, v) :: ·) (ih h)
    · have hnames : namesOf ((some k, v) :: rest) = k :: namesOf rest := rfl
      obtain ⟨hk, hrest⟩ := List.nodup_cons.mp (hnames ▸ h)
      rw [hnames, putIn, List.map_cons]
      by_cases he : k = key
      · subst he
        rw [if_pos rfl, if_pos (List.mem_cons_self ..), map_rebind_of_not_mem hk, rebind,
          if_pos rfl, List.append_nil]
      · have hsame : rebind key value (some k, v) = (some k, v) :=
          if_neg fun hs => he (Option.some.inj hs)
        have hmem : key ∈ k :: namesOf rest ↔ key ∈ namesOf rest :=
          ⟨fun hm => (List.mem_cons.mp hm).resolve_left (Ne.symm he), List.mem_cons_of_mem k⟩
        rw [if_neg he, hsame, ih hrest, List.cons_append]
        simp only [hmem]

theorem entries_put (h : b.KeysUnique) (name value : Option String) :
    (b.put name value).entries = match name with
      | none => b.entries ++ [(none, value)]
      | some k => b.entries.map (rebind k value) ++
          if k ∈ namesOf b.entries then [] else [(some k, value)] := by
  cases name with
  | none => rfl
  | some k => exact putIn_eq h

theorem getElem?_put (h : b.KeysUnique) (name value : Option String) {i : Nat} {e : Put}
    (he : b.entries[i]? = some e) :
    (b.put name value).entries[i]? =
      some (if name.isSome ∧ e.1 = name then (name, value) else e) := by
  obtain ⟨hi, -⟩ := List.getElem?_eq_some_iff.mp he
  rw [entries_put h]
  cases name with
  | none =>
    rw [List.getElem?_append_left hi, he]
    simp
  | some k =>
    rw [List.getElem?_append_left (by simpa using hi), List.getElem?_map, he]
    simp [rebind]

theorem get?_append_nameless (es : List Put) (value : Option String) (key : String) :
    get? ⟨es ++ [(none, value)]⟩ key = get? ⟨es⟩ key := by
  simp [get?, List.find?_append]

theorem get?_putIn {name : String} (h : name ≠ key) (es : List Put) (value : Option String) :
    get? ⟨putIn name value es⟩ key = get? ⟨es⟩ key := by
  have hother : ∀ v : Option String, ∀ rest, get? ⟨(some name, v) :: rest⟩ key = get? ⟨rest⟩ key :=
    fun v rest => (get?_cons _ rest key).trans (if_neg fun hs => h (Option.some.inj hs))
  induction es with
  | nil => exact hother value []
  | cons e rest ih =>
    obtain ⟨_ | k, v⟩ := e
    · rw [putIn, get?_cons, get?_cons, ih]
    · by_cases hk : k = name
      · subst hk
        rw [putIn, if_pos rfl, hother, hother]
      · rw [putIn, if_neg hk, get?_cons, get?_cons, ih]

theorem get?_put (b : Bindings) {name : Option String} (value : Option String) {key : String}
    (h : name ≠ some key) : (b.put name value).get? key = b.get? key := by
  cases name with
  | none => exact get?_append_nameless b.entries value key
  | some k => exact get?_putIn (fun hk => h (congrArg some hk)) b.entries value

theorem opened_concat (value : String → Option String) (puts : List Put) (e : Put) :
    opened value (puts ++ [e]) = opened value puts ++ match e.1 with
      | none => [e]
      | some k => if k ∈ namesOf puts then [] else [(some k, value k)] := by
  have hbefore : ∀ p ∈ puts.zipIdx, namesOf ((puts ++ [e]).take p.2) = namesOf (puts.take p.2) := by
    intro p hp
    have hi := (List.mem_zipIdx hp).2.1
    rw [List.take_append_of_le_length (by omega)]
  unfold opened
  rw [List.zipIdx_append, List.filterMap_append]
  congr 1
  · refine List.filterMap_congr fun p hp => ?_
    simp only [hbefore p hp]
  · obtain ⟨_ | k, v⟩ := e
    · rfl
    · by_cases hk : k ∈ namesOf puts <;> simp [hk]

theorem map_rebind_opened (value : String → Option String) (key : String) (v : Option String) :
    (opened value puts).map (rebind key v) = opened (Function.update value key v) puts := by
  unfold opened
  rw [List.map_filterMap]
  refine List.filterMap_congr fun ⟨⟨name, w⟩, i⟩ _ => ?_
  cases name with
  | none => simp [rebind]
  | some k =>
    by_cases hk : k = key
    · subst hk
      simp [rebind, apply_ite]
    · simp [rebind, hk, apply_ite]

theorem lastValue_concat (puts : List Put) (key : String) (v : Option String) :
    lastValue (puts ++ [(some key, v)]) = Function.update (lastValue puts) key v := by
  funext k
  by_cases hk : k = key
  · subst hk
    simp [lastValue]
  · simp [lastValue, hk, Ne.symm hk]

theorem mem_namesOf_ofPuts : key ∈ namesOf (ofPuts puts).entries ↔ key ∈ namesOf puts := by
  induction puts using List.reverseRecOn with
  | nil => rfl
  | append_singleton puts e ih =>
    rw [ofPuts_concat, namesOf_append, List.mem_append, ← ih]
    obtain ⟨_ | k, v⟩ := e
    · simp [put, namesOf_append]
    · have hlast : namesOf [(some k, v)] = [k] := rfl
      rw [put, namesOf_putIn, hlast, List.mem_singleton]
      by_cases hk : k ∈ namesOf (ofPuts puts).entries
      · rw [if_pos hk]
        exact ⟨Or.inl, fun h => h.elim id fun he => he ▸ hk⟩
      · rw [if_neg hk, List.mem_append, List.mem_singleton]

theorem entries_ofPuts (puts : List Put) : (ofPuts puts).entries = settled puts := by
  induction puts using List.reverseRecOn with
  | nil => rfl
  | append_singleton puts e ih =>
    have hu := keysUnique_ofPuts puts
    rw [ofPuts_concat, entries_put hu, settled, opened_concat]
    obtain ⟨_ | k, v⟩ := e
    · have hl : lastValue (puts ++ [(none, v)]) = lastValue puts := by
        funext k
        simp [lastValue]
      rw [hl, ih, settled]
    · rw [lastValue_concat, ← map_rebind_opened, ← settled, ← ih]
      simp only [mem_namesOf_ofPuts, Function.update_self]

theorem countP_nameless_opened (value : String → Option String) (puts : List Put) :
    (opened value puts).countP (fun e => e.1.isNone) = puts.countP fun e => e.1.isNone := by
  induction puts using List.reverseRecOn with
  | nil => rfl
  | append_singleton puts e ih =>
    rw [opened_concat, List.countP_append, List.countP_append, ih]
    obtain ⟨_ | k, v⟩ := e
    · rfl
    · by_cases hk : k ∈ namesOf puts <;> simp [hk]

theorem length_eq (es : List Put) :
    es.length = es.countP (fun e => e.1.isNone) + (namesOf es).length := by
  rw [namesOf, List.length_filterMap_eq_countP,
    List.length_eq_countP_add_countP fun e : Put => e.1.isNone]
  refine congrArg _ (List.countP_congr fun e _ => ?_)
  cases e.1 <;> simp

theorem size_ofPuts (puts : List Put) :
    (ofPuts puts).size = puts.countP (fun e => e.1.isNone) + (namesOf puts).toFinset.card := by
  have hnames : (namesOf puts).toFinset = (namesOf (ofPuts puts).entries).toFinset :=
    Finset.ext fun key => by rw [List.mem_toFinset, List.mem_toFinset, mem_namesOf_ofPuts]
  rw [hnames, List.toFinset_card_of_nodup (keysUnique_ofPuts puts), size, length_eq]
  rw [entries_ofPuts, settled, countP_nameless_opened]

theorem names_pairs (es : List Put) : ((pairs ⟨es⟩).map Prod.fst).Sublist (namesOf es) := by
  induction es with
  | nil => exact .slnil
  | cons e rest ih =>
    obtain ⟨_ | k, _ | v⟩ := e
    · exact ih
    · exact ih
    · exact ih.cons k
    · exact ih.cons_cons k

theorem filter_pairs (h : b.KeysUnique) {value : String} (hm : (key, value) ∈ b.pairs) :
    b.pairs.filter (fun p => p.1 = key) = [(key, value)] := by
  obtain ⟨before, after, hs⟩ := List.append_of_mem hm
  have hnodup : (b.pairs.map Prod.fst).Nodup := (names_pairs b.entries).nodup h
  rw [hs, List.map_append, List.map_cons] at hnodup
  obtain ⟨-, hafter, hbefore⟩ := List.nodup_append.mp hnodup
  have hb : ∀ p ∈ before, p.1 ≠ key := fun p hp =>
    hbefore _ (List.mem_map_of_mem hp) _ (List.mem_cons_self ..)
  have ha : ∀ p ∈ after, p.1 ≠ key := fun p hp he =>
    (List.nodup_cons.mp hafter).1 (List.mem_map.mpr ⟨p, hp, he⟩)
  rw [hs, List.filter_append, List.filter_eq_nil_iff.mpr (by simpa using hb), List.nil_append,
    List.filter_cons_of_pos (by simp), List.filter_eq_nil_iff.mpr (by simpa using ha)]

theorem ofPuts_of_nodup (h : (namesOf es).Nodup) : ofPuts es = ⟨es⟩ := by
  induction es using List.reverseRecOn with
  | nil => rfl
  | append_singleton es e ih =>
    rw [namesOf_append] at h
    obtain ⟨hes, -, hapart⟩ := List.nodup_append.mp h
    rw [ofPuts_concat, ih hes]
    obtain ⟨_ | k, v⟩ := e
    · rfl
    · have hk : k ∉ namesOf es := fun hm => hapart k hm k (List.mem_singleton.mpr rfl) rfl
      rw [put, putIn_eq hes, map_rebind_of_not_mem hk, if_neg hk]

theorem ofPairs_eq (pairs : List (String × String)) :
    ofPairs pairs = ofPuts (pairs.map fun p => (some p.1, some p.2)) := by
  rw [ofPuts, List.foldl_map]
  rfl

/-- The bindings are the ordered map that the puts make. -/
structure IsMapOf (puts : List Put) (b : Bindings) : Prop where
  entries : b.entries = settled puts
  unique : b.KeysUnique
  size : b.size = puts.countP (fun e => e.1.isNone) + (namesOf puts).toFinset.card
  get : ∀ key value, b.get? key = some value ↔ (key, value) ∈ b.pairs
  only : ∀ key value, (key, value) ∈ b.pairs →
    b.pairs.filter (fun p => p.1 = key) = [(key, value)]
  places : ∀ (name value : Option String) (i : Nat) (e : Put), b.entries[i]? = some e →
    (b.put name value).entries[i]? =
      some (if name.isSome ∧ e.1 = name then (name, value) else e)
  others : ∀ (name value : Option String) (key : String), name ≠ some key →
    (b.put name value).get? key = b.get? key
  rebuilt : ofPuts b.entries = b

/-- Whatever is put, in whichever order, the puts make an ordered map. To insert is to put once
more, and so is each of the pairs that bindings are made of. -/
theorem isMapOf_ofPuts (puts : List Put) (pairs : List (String × String)) :
    IsMapOf puts (ofPuts puts) ∧
      (∀ key value, (ofPuts puts).insert key value = ofPuts (puts ++ [(some key, some value)])) ∧
      ofPairs pairs = ofPuts (pairs.map fun p => (some p.1, some p.2)) := by
  have hu : (ofPuts puts).KeysUnique := keysUnique_ofPuts puts
  refine ⟨?_, fun key value => (ofPuts_concat puts (some key, some value)).symm, ofPairs_eq pairs⟩
  exact {
    entries := entries_ofPuts puts
    unique := hu
    size := size_ofPuts puts
    get := fun _ _ => get?_eq_some_iff hu
    only := fun _ _ => filter_pairs hu
    places := fun name value _ _ => getElem?_put hu name value
    others := fun _ value _ => get?_put _ value
    rebuilt := ofPuts_of_nodup hu }

example : settled [(some "a", none), (none, some "1"), (some "b", some "2"), (none, some "1"),
    (some "a", some "3"), (some "b", none)] =
      [(some "a", some "3"), (none, some "1"), (some "b", none), (none, some "1")] := by
  decide

end Quiesce.Bindings
