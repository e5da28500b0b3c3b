import Quiesce.Config.Load
import Quiesce.Proofs.Config.Visits
import Quiesce.Proofs.Toml.Keys

set_option autoImplicit false

namespace Quiesce.Config

open Toml (Value Document)

def Under {α : Type} (P : Value → α → Prop) (absent : α) : Option Value → α → Prop
  | none, a => a = absent
  | some v, a => P v a

def StatesDrain : Value → StatedDrain → Prop
  | .table entries, d =>
    (∀ e ∈ entries, e.1 ∈ ["grace_timeout_ms", "force_timeout_ms"]) ∧
      Under IsSize none (entries.lookup "grace_timeout_ms") d.grace ∧
      Under IsSize none (entries.lookup "force_timeout_ms") d.force
  | .array (grace :: force :: _), d => IsSize grace d.grace ∧ IsSize force d.force
  | _, _ => False

def StatesPool : Value → StatedPool → Prop
  | .table entries, p =>
    (∀ e ∈ entries, e.1 ∈ ["workers", "queue_capacity", "thread_name"]) ∧
      Under IsSize none (entries.lookup "workers") p.workers ∧
      Under IsSize none (entries.lookup "queue_capacity") p.queueCapacity ∧
      Under IsText none (entries.lookup "thread_name") p.threadName
  | .array (workers :: queueCapacity :: threadName :: _), p =>
    IsSize workers p.workers ∧ IsSize queueCapacity p.queueCapacity ∧
      IsText threadName p.threadName
  | _, _ => False

/-- The document fits the schema and states this. -/
structure States (d : Document) (s : Stated) : Prop where
  keys : ∀ e ∈ d.entries, e.1 ∈ ["drain", "pool"]
  drain : Under StatesDrain Stated.nothing.drain (d.entries.lookup "drain") s.drain
  pool : Under StatesPool Stated.nothing.pool (d.entries.lookup "pool") s.pool

section

variable {α : Type} {entries sorted : List (String × α)} {k : String} {v : α}

theorem lookup_of_not_mem (h : k ∉ entries.map Prod.fst) : entries.lookup k = none := by
  refine List.lookup_eq_none_iff.mpr fun e he => ?_
  have hne : k ≠ e.1 := fun hk => h (hk ▸ List.mem_map_of_mem he)
  simpa using hne

theorem lookup_eq_some_iff_mem (h : (entries.map Prod.fst).Nodup) :
    entries.lookup k = some v ↔ (k, v) ∈ entries := by
  induction entries with
  | nil => simp
  | cons e rest ih =>
    obtain ⟨key, value⟩ := e
    obtain ⟨hn, hrest⟩ := List.nodup_cons.mp h
    rw [List.lookup_cons]
    by_cases hk : k = key
    · subst hk
      have hnot : (k, v) ∉ rest := fun hm => hn (List.mem_map.mpr ⟨(k, v), hm, rfl⟩)
      simp [hnot, eq_comm]
    · have hne : (k == key) = false := beq_eq_false_iff_ne.mpr hk
      simp [hne, hk, ih hrest]

theorem lookup_perm (h : (entries.map Prod.fst).Nodup) (hp : sorted.Perm entries) :
    sorted.lookup k = entries.lookup k := by
  have hs : (sorted.map Prod.fst).Nodup := (hp.map Prod.fst).nodup_iff.mpr h
  apply Option.ext
  intro v
  rw [lookup_eq_some_iff_mem hs, lookup_eq_some_iff_mem h, hp.mem_iff]

end

section

variable {entries : List (String × Value)}

theorem byName_perm (entries : List (String × Value)) : (byName entries).Perm entries :=
  List.mergeSort_perm _ _

theorem nodup_byName (h : (entries.map Prod.fst).Nodup) :
    ((byName entries).map Prod.fst).Nodup :=
  ((byName_perm entries).map Prod.fst).nodup_iff.mpr h

theorem byName_ascending (h : (entries.map Prod.fst).Nodup) :
    (byName entries).Pairwise fun a b => a.1 < b.1 := by
  have hle : (byName entries).Pairwise fun a b => decide (a.1 ≤ b.1) = true := by
    apply List.pairwise_mergeSort
    · intro a b c hab hbc
      exact decide_eq_true (String.le_trans (of_decide_eq_true hab) (of_decide_eq_true hbc))
    · intro a b
      simpa using String.le_total a.1 b.1
  have hne : (byName entries).Pairwise fun a b => a.1 ≠ b.1 :=
    List.pairwise_map.mp (nodup_byName h)
  exact (hle.and hne).imp fun {a b} hab => Std.lt_of_le_of_ne (of_decide_eq_true hab.1) hab.2

end

section

variable {σ β : Type} {columns : List (Column σ)} {c : Column σ}
  {entries : List (String × Value)}

theorem find_column (hcols : (columns.map (·.name)).Nodup) (hc : c ∈ columns) :
    columns.find? (fun x => x.name == c.name) = some c := by
  induction columns with
  | nil => exact nomatch hc
  | cons b columns ih =>
    obtain ⟨hb, hrest⟩ := List.nodup_cons.mp hcols
    rcases List.mem_cons.mp hc with rfl | hm
    · simp
    · have hne : b.name ≠ c.name := fun he => hb (List.mem_map.mpr ⟨c, hm, he.symm⟩)
      simpa [hne] using ih hrest hm

/-- What the entries of a table leave in the part that one column stores and no other touches. -/
theorem get_foldl (hcols : (columns.map (·.name)).Nodup) (hc : c ∈ columns) (get : σ → β)
    (g : β → Value → β) (hself : ∀ x v, get (c.set x v) = g (get x) v)
    (hother : ∀ b ∈ columns, b.name ≠ c.name → ∀ x v, get (b.set x v) = get x)
    (h : (entries.map Prod.fst).Nodup) (x : σ) :
    get (entries.foldl (entrySet columns) x) =
      ((entries.lookup c.name).map (g (get x))).getD (get x) := by
  induction entries generalizing x with
  | nil => rfl
  | cons e rest ih =>
    obtain ⟨k, v⟩ := e
    obtain ⟨hn, hrest⟩ := List.nodup_cons.mp h
    rw [List.foldl_cons, ih hrest, List.lookup_cons]
    by_cases hk : c.name = k
    · subst hk
      have hset : entrySet columns x (c.name, v) = c.set x v := by
        rw [entrySet, find_column hcols hc]
      simp [lookup_of_not_mem hn, hset, hself]
    · have hne : (c.name == k) = false := beq_eq_false_iff_ne.mpr hk
      have hget : get (entrySet columns x (k, v)) = get x := by
        unfold entrySet
        cases hb : columns.find? fun x => x.name == k with
        | none => rfl
        | some b =>
          have hname : b.name = k := by simpa using List.find?_some hb
          exact hother b (List.mem_of_find?_eq_some hb) (hname ▸ Ne.symm hk) x v
      rw [hget, hne]

theorem get_byName (hcols : (columns.map (·.name)).Nodup) (hc : c ∈ columns) (get : σ → β)
    (g : β → Value → β) (hself : ∀ x v, get (c.set x v) = g (get x) v)
    (hother : ∀ b ∈ columns, b.name ≠ c.name → ∀ x v, get (b.set x v) = get x)
    (h : (entries.map Prod.fst).Nodup) (x : σ) :
    get ((byName entries).foldl (entrySet columns) x) =
      ((entries.lookup c.name).map (g (get x))).getD (get x) := by
  rw [get_foldl hcols hc get g hself hother (nodup_byName h), lookup_perm h (byName_perm entries)]

theorem fits_entries_iff (hcols : (columns.map (·.name)).Nodup)
    (h : (entries.map Prod.fst).Nodup) :
    (∀ y ∈ (byName entries).flatMap (entryVisits columns), y.Fits) ↔
      (∀ e ∈ entries, e.1 ∈ columns.map (·.name)) ∧
        ∀ c ∈ columns, ∀ v, entries.lookup c.name = some v → ∀ y ∈ c.visits v, y.Fits := by
  constructor
  · intro hfits
    have hentry (e : String × Value) (he : e ∈ entries) : ∀ y ∈ entryVisits columns e, y.Fits :=
      fun y hy => hfits y (List.mem_flatMap.mpr ⟨e, (byName_perm entries).mem_iff.mpr he, hy⟩)
    refine ⟨fun e he => hentry e he _ (List.mem_cons_self ..), fun c hc v hv y hy => ?_⟩
    have he : (c.name, v) ∈ entries := (lookup_eq_some_iff_mem h).mp hv
    refine hentry _ he y (List.mem_cons_of_mem _ ?_)
    rw [find_column hcols hc]
    exact hy
  · rintro ⟨hkeys, hvalues⟩ y hy
    obtain ⟨e, he, hye⟩ := List.mem_flatMap.mp hy
    have hmem : e ∈ entries := (byName_perm entries).mem_iff.mp he
    obtain ⟨c, hc, hname⟩ := List.mem_map.mp (hkeys e hmem)
    rcases List.mem_cons.mp hye with rfl | hvisit
    · exact hkeys e hmem
    · have hfind : columns.find? (fun x => x.name == e.1) = some c :=
        hname ▸ find_column hcols hc
      rw [hfind] at hvisit
      exact hvalues c hc e.2 ((lookup_eq_some_iff_mem h).mpr (hname ▸ hmem)) y hvisit

end

theorem under_iff {α : Type} {P : Value → α → Prop} {fits : Value → Prop} {g : Value → α}
    {o : Option Value} (h : ∀ v a, o = some v → (P v a ↔ fits v ∧ g v = a)) (absent a : α) :
    Under P absent o a ↔ (∀ v, o = some v → fits v) ∧ (o.map g).getD absent = a := by
  cases o with
  | none => simp [Under, eq_comm]
  | some v => simp [Under, h v a rfl]

theorem underSize_iff (o : Option Value) (a : Option Nat) :
    Under IsSize none o a ↔
      (∀ v, o = some v → ∃ a, IsSize v a) ∧ (o.map fun v => some (statedSize v)).getD none = a :=
  under_iff (fun v a _ => @isSize_iff v a) none a

theorem underText_iff (o : Option Value) (a : Option String) :
    Under IsText none o a ↔
      (∀ v, o = some v → ∃ a, IsText v a) ∧ (o.map fun v => some (statedText v)).getD none = a :=
  under_iff (fun v a _ => @isText_iff v a) none a

theorem not_forall_fits {vs : List Visit} {y : Visit} (h : y ∈ vs) (hy : ¬ y.Fits) :
    ¬ ∀ y ∈ vs, y.Fits :=
  fun hall => hy (hall y h)

theorem not_fits_scalar {σ : Type} {columns : List (Column σ)}
    (hm : momentName ∉ columns.map (·.name)) (title : String) (s : Toml.Scalar) :
    ¬ ∀ y ∈ sectionVisits columns title (.scalar s), y.Fits := by
  cases s with
  | moment => exact not_forall_fits (List.mem_cons_self ..) hm
  | text | boolean | integer | noNumber | float =>
    exact not_forall_fits (List.mem_singleton.mpr rfl) id

theorem mem_elementVisits {σ : Type} {short : Visit} {columns : List (Column σ)}
    {items : List Value} (h : items.length < columns.length) :
    short ∈ elementVisits short columns items := by
  induction columns generalizing items with
  | nil => exact nomatch h
  | cons c columns ih =>
    cases items with
    | nil => exact List.mem_singleton.mpr rfl
    | cons v rest => exact List.mem_append_right _ (ih (Nat.lt_of_succ_lt_succ h))

theorem not_fits_short {σ : Type} {columns : List (Column σ)} {items : List Value}
    (h : items.length < columns.length) (title : String) :
    ¬ ∀ y ∈ sectionVisits columns title (.array items), y.Fits :=
  not_forall_fits (mem_elementVisits h) id

section Drain

theorem drainColumns_names : (drainColumns.map (·.name)).Nodup := by decide

theorem fits_drain (entries : List (String × Value)) :
    (∀ c ∈ drainColumns, ∀ v, entries.lookup c.name = some v → ∀ y ∈ c.visits v, y.Fits) ↔
      (∀ v, entries.lookup "grace_timeout_ms" = some v → ∃ a, IsSize v a) ∧
        ∀ v, entries.lookup "force_timeout_ms" = some v → ∃ a, IsSize v a := by
  simp [drainColumns, sizeColumn, Visit.Fits]

theorem statesDrain_table {entries : List (String × Value)} {d : StatedDrain}
    (h : (entries.map Prod.fst).Nodup) :
    StatesDrain (.table entries) d ↔
      (∀ y ∈ (byName entries).flatMap (entryVisits drainColumns), y.Fits) ∧
        (byName entries).foldl (entrySet drainColumns) Stated.nothing.drain = d := by
  have hgrace : ((byName entries).foldl (entrySet drainColumns) Stated.nothing.drain).grace =
      ((entries.lookup "grace_timeout_ms").map fun v => some (statedSize v)).getD none :=
    get_byName drainColumns_names (c := drainColumns[0]) (by simp [drainColumns])
      StatedDrain.grace (fun _ v => some (statedSize v)) (fun _ _ => rfl)
      (by simp [drainColumns, sizeColumn]) h _
  have hforce : ((byName entries).foldl (entrySet drainColumns) Stated.nothing.drain).force =
      ((entries.lookup "force_timeout_ms").map fun v => some (statedSize v)).getD none :=
    get_byName drainColumns_names (c := drainColumns[1]) (by simp [drainColumns])
      StatedDrain.force (fun _ v => some (statedSize v)) (fun _ _ => rfl)
      (by simp [drainColumns, sizeColumn]) h _
  rw [fits_entries_iff drainColumns_names h, fits_drain, StatedDrain.ext_iff, hgrace, hforce,
    StatesDrain, underSize_iff, underSize_iff]
  constructor
  · rintro ⟨hk, ⟨hg, eg⟩, hf, ef⟩
    exact ⟨⟨hk, hg, hf⟩, eg, ef⟩
  · rintro ⟨⟨hk, hg, hf⟩, eg, ef⟩
    exact ⟨hk, ⟨hg, eg⟩, hf, ef⟩

theorem statesDrain_iff {v : Value} (hv : v.Distinct) (d : StatedDrain) :
    StatesDrain v d ↔
      (∀ y ∈ sectionVisits drainColumns drainSection.title v, y.Fits) ∧
        sectionSet drainColumns Stated.nothing.drain v = d := by
  cases hv with
  | scalar s =>
    exact ⟨False.elim, fun h => absurd h.1 (not_fits_scalar (by decide) _ s)⟩
  | table keys _ => exact statesDrain_table keys
  | @array items _ =>
    have hshort {l : List Value} (h : l.length < 2) :
        ¬ ∀ y ∈ sectionVisits drainColumns drainSection.title (.array l), y.Fits :=
      not_fits_short h _
    match items with
    | [] | [_] => exact ⟨False.elim, fun h => absurd h.1 (hshort (by simp))⟩
    | grace :: force :: rest =>
      rw [StatesDrain, isSize_iff, isSize_iff (v := force)]
      simp [sectionVisits, sectionSet, elementVisits, elementsSet, drainColumns, sizeColumn,
        Visit.Fits, StatedDrain.ext_iff, and_assoc, and_left_comm]

end Drain

section Pool

theorem poolColumns_names : (poolColumns.map (·.name)).Nodup := by decide

theorem fits_pool (entries : List (String × Value)) :
    (∀ c ∈ poolColumns, ∀ v, entries.lookup c.name = some v → ∀ y ∈ c.visits v, y.Fits) ↔
      (∀ v, entries.lookup "workers" = some v → ∃ a, IsSize v a) ∧
        (∀ v, entries.lookup "queue_capacity" = some v → ∃ a, IsSize v a) ∧
          ∀ v, entries.lookup "thread_name" = some v → ∃ a, IsText v a := by
  simp [poolColumns, sizeColumn, textColumn, Visit.Fits]

theorem statesPool_table {entries : List (String × Value)} {p : StatedPool}
    (h : (entries.map Prod.fst).Nodup) :
    StatesPool (.table entries) p ↔
      (∀ y ∈ (byName entries).flatMap (entryVisits poolColumns), y.Fits) ∧
        (byName entries).foldl (entrySet poolColumns) Stated.nothing.pool = p := by
  have hworkers : ((byName entries).foldl (entrySet poolColumns) Stated.nothing.pool).workers =
      ((entries.lookup "workers").map fun v => some (statedSize v)).getD none :=
    get_byName poolColumns_names (c := poolColumns[0]) (by simp [poolColumns])
      StatedPool.workers (fun _ v => some (statedSize v)) (fun _ _ => rfl)
      (by simp [poolColumns, sizeColumn, textColumn]) h _
  have hqueue :
      ((byName entries).foldl (entrySet poolColumns) Stated.nothing.pool).queueCapacity =
        ((entries.lookup "queue_capacity").map fun v => some (statedSize v)).getD none :=
    get_byName poolColumns_names (c := poolColumns[1]) (by simp [poolColumns])
      StatedPool.queueCapacity (fun _ v => some (statedSize v)) (fun _ _ => rfl)
      (by simp [poolColumns, sizeColumn, textColumn]) h _
  have hname : ((byName entries).foldl (entrySet poolColumns) Stated.nothing.pool).threadName =
      ((entries.lookup "thread_name").map fun v => some (statedText v)).getD none :=
    get_byName poolColumns_names (c := poolColumns[2]) (by simp [poolColumns])
      StatedPool.threadName (fun _ v => some (statedText v)) (fun _ _ => rfl)
      (by simp [poolColumns, sizeColumn, textColumn]) h _
  rw [fits_entries_iff poolColumns_names h, fits_pool, StatedPool.ext_iff, hworkers, hqueue,
    hname, StatesPool, underSize_iff, underSize_iff, underText_iff]
  constructor
  · rintro ⟨hk, ⟨hw, ew⟩, ⟨hq, eq⟩, hn, en⟩
    exact ⟨⟨hk, hw, hq, hn⟩, ew, eq, en⟩
  · rintro ⟨⟨hk, hw, hq, hn⟩, ew, eq, en⟩
    exact ⟨hk, ⟨hw, ew⟩, ⟨hq, eq⟩, hn, en⟩

theorem statesPool_iff {v : Value} (hv : v.Distinct) (p : StatedPool) :
    StatesPool v p ↔
      (∀ y ∈ sectionVisits poolColumns poolSection.title v, y.Fits) ∧
        sectionSet poolColumns Stated.nothing.pool v = p := by
  cases hv with
  | scalar s =>
    exact ⟨False.elim, fun h => absurd h.1 (not_fits_scalar (by decide) _ s)⟩
  | table keys _ => exact statesPool_table keys
  | @array items _ =>
    have hshort {l : List Value} (h : l.length < 3) :
        ¬ ∀ y ∈ sectionVisits poolColumns poolSection.title (.array l), y.Fits :=
      not_fits_short h _
    match items with
    | [] | [_] | [_, _] => exact ⟨False.elim, fun h => absurd h.1 (hshort (by simp))⟩
    | workers :: queueCapacity :: threadName :: rest =>
      rw [StatesPool, isSize_iff, isSize_iff (v := queueCapacity), isText_iff]
      simp [sectionVisits, sectionSet, elementVisits, elementsSet, poolColumns, sizeColumn,
        textColumn, Visit.Fits, StatedPool.ext_iff, and_assoc, and_left_comm]

end Pool

section Root

theorem rootColumns_names : (rootColumns.map (·.name)).Nodup := by decide

variable {d : Document}

theorem nodup_entries (hd : d.Distinct) : (d.entries.map Prod.fst).Nodup := by
  cases hd with
  | table keys _ => exact keys

theorem distinct_of_lookup (hd : d.Distinct) {k : String} {v : Value}
    (h : d.entries.lookup k = some v) : v.Distinct := by
  cases hd with
  | table keys values => exact values (k, v) ((lookup_eq_some_iff_mem keys).mp h)

theorem fits_root (entries : List (String × Value)) :
    (∀ c ∈ rootColumns, ∀ v, entries.lookup c.name = some v → ∀ y ∈ c.visits v, y.Fits) ↔
      (∀ v, entries.lookup "drain" = some v →
        ∀ y ∈ sectionVisits drainColumns drainSection.title v, y.Fits) ∧
        ∀ v, entries.lookup "pool" = some v →
          ∀ y ∈ sectionVisits poolColumns poolSection.title v, y.Fits := by
  simp [rootColumns, sectionColumn]

theorem states_iff (hd : d.Distinct) (s : Stated) :
    States d s ↔ (∀ y ∈ documentVisits d, y.Fits) ∧ documentStated d = s := by
  have keys := nodup_entries hd
  have hdrain : (documentStated d).drain = ((d.entries.lookup "drain").map
      (sectionSet drainColumns Stated.nothing.drain)).getD Stated.nothing.drain :=
    get_byName rootColumns_names (c := rootColumns[0]) (by simp [rootColumns])
      Stated.drain (sectionSet drainColumns) (fun _ _ => rfl)
      (by simp [rootColumns, sectionColumn]) keys _
  have hpool : (documentStated d).pool = ((d.entries.lookup "pool").map
      (sectionSet poolColumns Stated.nothing.pool)).getD Stated.nothing.pool :=
    get_byName rootColumns_names (c := rootColumns[1]) (by simp [rootColumns])
      Stated.pool (sectionSet poolColumns) (fun _ _ => rfl)
      (by simp [rootColumns, sectionColumn]) keys _
  have udrain := under_iff (o := d.entries.lookup "drain")
    (fun v a hv => statesDrain_iff (distinct_of_lookup hd hv) a) Stated.nothing.drain s.drain
  have upool := under_iff (o := d.entries.lookup "pool")
    (fun v a hv => statesPool_iff (distinct_of_lookup hd hv) a) Stated.nothing.pool s.pool
  -- What is left are the keys of the document and the two sections, each on its own.
  unfold documentVisits
  rw [fits_entries_iff rootColumns_names keys, fits_root, Stated.ext_iff, hdrain, hpool]
  constructor
  · rintro ⟨hk, h, k⟩
    obtain ⟨hf, ef⟩ := udrain.mp h
    obtain ⟨kf, kef⟩ := upool.mp k
    exact ⟨⟨hk, hf, kf⟩, ef, kef⟩
  · rintro ⟨⟨hk, hf, kf⟩, ef, kef⟩
    exact ⟨hk, udrain.mpr ⟨hf, ef⟩, upool.mpr ⟨kf, kef⟩⟩

end Root

/-- The result of reading a document, as the schema has it. -/
structure BySchema (path : Option String) (d : Document) (r : Except Error Config) : Prop where
  parsed : (∃ s, States d s) ↔ ∀ why, r ≠ .error (.parse path why)
  unique : ∀ s t, States d s → States d t → s = t
  accepted : ∀ s, States d s → violation? s.pool.settings = none →
    r = .ok ⟨s.drain.budget, s.pool.settings⟩
  rejected : ∀ s, States d s → ∀ why, violation? s.pool.settings = some why →
    r = .error (.invalid why)
  unfit : (¬ ∃ s, States d s) → ∃ y, FirstMisfit (documentVisits d) y ∧
    r = .error (.parse path (.unfit y.fault))

theorem ofStated_of_valid {s : Stated} (h : violation? s.pool.settings = none) :
    ofStated s = .ok ⟨s.drain.budget, s.pool.settings⟩ := by
  rw [ofStated, h]

theorem ofStated_of_violation {s : Stated} {why : Violation}
    (h : violation? s.pool.settings = some why) : ofStated s = .error why := by
  rw [ofStated, h]

theorem mapError_ne_parse (r : Except Violation Config) (path : Option String) (why : Malformed) :
    r.mapError Error.invalid ≠ .error (.parse path why) := by
  intro h
  cases r with
  | ok c => injection h
  | error v => injection Except.error.inj h

theorem ofDocument_bySchema {d : Document} (hd : d.Distinct) (path : Option String) :
    BySchema path d (ofDocument path d) := by
  have ho := outcome_ofDocument d
  generalize hr : Stated.ofDocument d = result at ho
  cases ho with
  | passed hfits =>
    have hstated (s : Stated) (hs : States d s) :
        ofDocument path d = (ofStated s).mapError .invalid := by
      rw [ofDocument_of_ok hr, ((states_iff hd s).mp hs).2]
    have hstates : States d (documentStated d) := (states_iff hd _).mpr ⟨hfits, rfl⟩
    refine ⟨⟨fun _ why => ?_, fun _ => ⟨_, hstates⟩⟩, fun s t hs ht => ?_, fun s hs hv => ?_,
      fun s hs why hv => ?_, fun hn => absurd ⟨_, hstates⟩ hn⟩
    · rw [hstated _ hstates]
      exact mapError_ne_parse _ _ _
    · rw [← ((states_iff hd s).mp hs).2, ← ((states_iff hd t).mp ht).2]
    · rw [hstated s hs, ofStated_of_valid hv]
      rfl
    · rw [hstated s hs, ofStated_of_violation hv]
      rfl
  | @failed y hy =>
    have hparse : ofDocument path d = .error (.parse path (.unfit y.fault)) :=
      ofDocument_of_error hr
    have hnone (s : Stated) : ¬ States d s := by
      intro hs
      obtain ⟨before, after, hvisits, -, hmisfit⟩ := hy
      have hmem : y ∈ documentVisits d := by simp [hvisits]
      exact hmisfit (((states_iff hd s).mp hs).1 y hmem)
    exact ⟨⟨fun ⟨s, hs⟩ => absurd hs (hnone s), fun h => absurd hparse (h _)⟩,
      fun s _ hs => absurd hs (hnone s), fun s hs => absurd hs (hnone s),
      fun s hs => absurd hs (hnone s), fun _ => ⟨y, hy, hparse⟩⟩

/-- Every document whose tables have each key once is read as the schema has it, the visits of a
table being in ascending order of its keys; and so is every text that writes a document. -/
theorem read_by_schema :
    (∀ (path : Option String) (d : Document), d.Distinct →
      BySchema path d (ofDocument path d)) ∧
    (∀ entries : List (String × Value), (entries.map Prod.fst).Nodup →
      (byName entries).Perm entries ∧ (byName entries).Pairwise fun a b => a.1 < b.1) ∧
    ∀ (text : String) (d : Document), Document.read? text = some d →
      BySchema none d (ofText text) := by
  refine ⟨fun path d hd => ofDocument_bySchema hd path,
    fun entries h => ⟨byName_perm entries, byName_ascending h⟩, fun text d h => ?_⟩
  rw [ofText_of_read h]
  exact ofDocument_bySchema (Toml.Document.distinct_of_read? h) none

def sparseDocument : Document := ⟨[
  ("pool", .table [("workers", .scalar (.integer 2)), ("thread_name", .scalar (.text "job"))]),
  ("drain", .array [.scalar (.integer 1000), .scalar (.integer 0), .scalar (.boolean true)])]⟩

def faultyDocument : Document := ⟨[
  ("pool", .table [("workers", .scalar (.integer (Nat.pow 2 64)))]),
  ("extra", .scalar .moment)]⟩

theorem sparse_by_schema :
    ofDocument none sparseDocument =
      .ok ⟨⟨.ofMillis 1000, .ofMillis 0⟩, ⟨2, 64, "job"⟩⟩ ∧
    ∃ y, FirstMisfit (documentVisits faultyDocument) y ∧
      ofDocument none faultyDocument = .error (.parse none (.unfit y.fault)) := by
  obtain ⟨hdocument, -, -⟩ := read_by_schema
  constructor
  · have hd : sparseDocument.Distinct := by
      refine .table (by decide) ?_
      simp only [sparseDocument, List.forall_mem_cons]
      exact ⟨.table (by decide) (by simp [Value.Distinct.scalar]),
        .array (by simp [Value.Distinct.scalar]), nofun⟩
    have hs : States sparseDocument
        ⟨⟨some 1000, some 0⟩, ⟨some 2, none, some "job"⟩⟩ := by
      refine ⟨by decide, ?_, ?_⟩
      · exact ⟨⟨1000, by decide, rfl, rfl⟩, ⟨0, by decide, rfl, rfl⟩⟩
      · exact ⟨by decide, ⟨2, by decide, rfl, rfl⟩, rfl, ⟨"job", rfl, rfl⟩⟩
    exact (hdocument none _ hd).accepted _ hs rfl
  · have hd : faultyDocument.Distinct := by
      refine .table (by decide) ?_
      simp only [faultyDocument, List.forall_mem_cons]
      exact ⟨.table (by decide) (by simp [Value.Distinct.scalar]), .scalar _, nofun⟩
    refine (hdocument none _ hd).unfit ?_
    rintro ⟨s, hs⟩
    exact absurd (hs.keys ("extra", .scalar .moment) (by simp [faultyDocument])) (by decide)

end Quiesce.Config
