import Quiesce.Config.Contents

set_option autoImplicit false

/-! Reading a document is a walk through keys and values that ends at the first one that does not
fit. The visits are stated as a list, and each reader is shown to go through its own. -/

namespace Quiesce.Config

open Toml (Value Scalar)

/-- One key or value that reading looks at. -/
inductive Visit where
  | key (known : List String) (k : String)
  | size (expected : String) (v : Value)
  | text (v : Value)
  | other (title : String) (v : Value)
  | tooShort (length : Nat) (title : String) (fields : Nat)

def IsSize (v : Value) (o : Option Nat) : Prop :=
  ∃ n : Nat, n < Nat.pow 2 64 ∧ v = .scalar (.integer n) ∧ o = some n

def IsText (v : Value) (o : Option String) : Prop :=
  ∃ s, v = .scalar (.text s) ∧ o = some s

namespace Visit

def Fits : Visit → Prop
  | key known k => k ∈ known
  | size _ v => ∃ o, IsSize v o
  | text v => ∃ o, IsText v o
  | other _ _ => False
  | tooShort _ _ _ => False

/-- An integer below zero that has 64 bits is of the right kind, all the same. -/
def sizeFault (expected : String) : Value → Fault
  | .scalar (.integer n) =>
    if -(Nat.pow 2 63 : Int) ≤ n ∧ n < 0 then .negative n expected
    else misfit (.scalar (.integer n)) expected
  | v => misfit v expected

def fault : Visit → Fault
  | key known k => .unknownField k known
  | size expected v => sizeFault expected v
  | text v => misfit v "a string"
  | other title v => misfit v title
  | tooShort length title fields => .tooShort length title fields

end Visit

def FirstMisfit (vs : List Visit) (y : Visit) : Prop :=
  ∃ before after, vs = before ++ y :: after ∧ (∀ z ∈ before, z.Fits) ∧ ¬ y.Fits

/-- The result of a walk through visits that ends with `x` if all of them fit. -/
inductive Outcome {σ : Type} (vs : List Visit) (x : σ) : Except Fault σ → Prop where
  | passed : (∀ y ∈ vs, y.Fits) → Outcome vs x (.ok x)
  | failed {y : Visit} : FirstMisfit vs y → Outcome vs x (.error y.fault)

namespace Outcome

variable {σ ρ : Type} {vs ws : List Visit} {x : σ} {z : ρ} {r : Except Fault σ} {y : Visit}

theorem nil (x : σ) : Outcome [] x (.ok x) := .passed nofun

theorem misfit (h : ¬ y.Fits) : Outcome (y :: vs) x (.error y.fault) :=
  .failed ⟨[], vs, rfl, nofun, h⟩

theorem bind {f : σ → Except Fault ρ} (h : Outcome vs x r) (hf : Outcome ws z (f x)) :
    Outcome (vs ++ ws) z (r >>= f) := by
  cases h with
  | failed hy =>
    obtain ⟨before, after, rfl, hb, hy⟩ := hy
    exact .failed ⟨before, after ++ ws, List.append_assoc .., hb, hy⟩
  | passed hv =>
    change Outcome (vs ++ ws) z (f x)
    generalize f x = result at hf
    cases hf with
    | passed hw => exact .passed fun y hm => (List.mem_append.mp hm).elim (hv y) (hw y)
    | failed hy =>
      obtain ⟨before, after, rfl, hb, hy⟩ := hy
      exact .failed ⟨vs ++ before, after, (List.append_assoc ..).symm,
        fun y hm => (List.mem_append.mp hm).elim (hv y) (hb y), hy⟩

theorem cons (hy : y.Fits) (h : Outcome vs x r) : Outcome (y :: vs) x r := by
  cases h with
  | passed hv => exact .passed (List.forall_mem_cons.mpr ⟨hy, hv⟩)
  | failed hy' =>
    obtain ⟨before, after, rfl, hb, hn⟩ := hy'
    exact .failed ⟨y :: before, after, rfl, List.forall_mem_cons.mpr ⟨hy, hb⟩, hn⟩

theorem map (f : σ → ρ) (h : Outcome vs x r) :
    Outcome vs (f x) (r >>= fun x => .ok (f x)) := by
  have hb := h.bind (f := fun x => .ok (f x)) (nil (f x))
  rwa [List.append_nil] at hb

end Outcome

def statedSize : Value → Nat
  | .scalar (.integer n) => n.toNat
  | _ => 0

def statedText : Value → String
  | .scalar (.text s) => s
  | _ => ""

theorem isSize_iff {v : Value} {o : Option Nat} :
    IsSize v o ↔ (∃ o, IsSize v o) ∧ some (statedSize v) = o := by
  constructor
  · rintro ⟨n, hn, rfl, rfl⟩
    exact ⟨⟨some n, n, hn, rfl, rfl⟩, rfl⟩
  · rintro ⟨⟨_, n, hn, rfl, -⟩, rfl⟩
    exact ⟨n, hn, rfl, rfl⟩

theorem isText_iff {v : Value} {o : Option String} :
    IsText v o ↔ (∃ o, IsText v o) ∧ some (statedText v) = o := by
  constructor
  · rintro ⟨s, rfl, rfl⟩
    exact ⟨⟨some s, s, rfl, rfl⟩, rfl⟩
  · rintro ⟨⟨_, s, rfl, -⟩, rfl⟩
    exact ⟨s, rfl, rfl⟩

theorem not_isSize_of_range {n : Int} (h : ¬ (0 ≤ n ∧ n < (Nat.pow 2 64 : Nat))) :
    ¬ ∃ o, IsSize (.scalar (.integer n)) o := by
  rintro ⟨_, k, hk, hv, -⟩
  obtain rfl : n = k := by simpa using hv
  exact h ⟨Int.natCast_nonneg k, Int.ofNat_lt.mpr hk⟩

theorem outcome_size (expected : String) (v : Value) :
    Outcome [.size expected v] (statedSize v) (size expected v) := by
  -- A value that is no integer is no size, and is reported as what it is.
  have other (h : ∀ n, v ≠ .scalar (.integer n)) (hr : size expected v = .error (misfit v expected))
      (hf : Visit.sizeFault expected v = misfit v expected) :
      Outcome [.size expected v] (statedSize v) (size expected v) := by
    rw [hr, ← hf]
    exact .misfit (y := .size expected v) fun ⟨_, n, _, hv, _⟩ => h n hv
  cases v with
  | array | table => exact other nofun rfl rfl
  | scalar x =>
    cases x with
    | text | boolean | noNumber | float | moment => exact other nofun rfl rfl
    | integer n =>
      by_cases hn : 0 ≤ n ∧ n < (Nat.pow 2 64 : Nat)
      · rw [size, if_pos hn]
        refine .passed (List.forall_mem_singleton.mpr ⟨some n.toNat, n.toNat, ?_, ?_, rfl⟩)
        · exact (Int.toNat_lt hn.1).mpr hn.2
        · rw [Int.toNat_of_nonneg hn.1]
      · have hf : size expected (.scalar (.integer n)) =
            .error (Visit.sizeFault expected (.scalar (.integer n))) := by
          rw [size, if_neg hn, Visit.sizeFault]
          split <;> rfl
        rw [hf]
        exact .misfit (y := .size expected _) (not_isSize_of_range hn)

theorem outcome_name (v : Value) : Outcome [.text v] (statedText v) (name v) := by
  have other (h : ∀ s, v ≠ .scalar (.text s)) (hr : name v = .error (misfit v "a string")) :
      Outcome [.text v] (statedText v) (name v) := by
    rw [hr]
    exact .misfit (y := .text v) fun ⟨_, s, hv, _⟩ => h s hv
  cases v with
  | array | table => exact other nofun rfl
  | scalar x =>
    cases x with
    | boolean | integer | noNumber | float | moment => exact other nofun rfl
    | text s => exact .passed (List.forall_mem_singleton.mpr ⟨some s, s, rfl, rfl⟩)

/-- A field with what storing a value visits, and what it stores if all of that fits. -/
structure Column (σ : Type) extends Field σ where
  visits : Value → List Visit
  set : σ → Value → σ
  reads : ∀ x v, Outcome (visits v) (set x v) (store x v)

section

variable {σ ρ : Type} (columns : List (Column σ))

def entryVisits (entry : String × Value) : List Visit :=
  .key (columns.map (·.name)) entry.1 ::
    match columns.find? fun c => c.name == entry.1 with
    | some c => c.visits entry.2
    | none => []

def entrySet (x : σ) (entry : String × Value) : σ :=
  match columns.find? fun c => c.name == entry.1 with
  | some c => c.set x entry.2
  | none => x

def elementVisits (short : Visit) : List (Column σ) → List Value → List Visit
  | [], _ => []
  | _ :: _, [] => [short]
  | c :: columns, v :: rest => c.visits v ++ elementVisits short columns rest

def elementsSet : List (Column σ) → σ → List Value → σ
  | [], x, _ => x
  | _ :: _, x, [] => x
  | c :: columns, x, v :: rest => elementsSet columns (c.set x v) rest

def sectionVisits (title : String) : Value → List Visit
  | .table entries => (byName entries).flatMap (entryVisits columns)
  | .array items => elementVisits (.tooShort items.length title columns.length) columns items
  | .scalar .moment => entryVisits columns (momentName, .scalar .moment)
  | .scalar s => [.other title (.scalar s)]

def sectionSet (x : σ) : Value → σ
  | .table entries => (byName entries).foldl (entrySet columns) x
  | .array items => elementsSet columns x items
  | .scalar .moment => entrySet columns x (momentName, .scalar .moment)
  | .scalar _ => x

end

section

variable {σ ρ : Type} {columns : List (Column σ)}

theorem outcome_visit (x : σ) (entry : String × Value) :
    Outcome (entryVisits columns entry) (entrySet columns x entry)
      (visit (columns.map Column.toField) x entry) := by
  have hfind : (columns.map Column.toField).find? (fun f => f.name == entry.1) =
      (columns.find? fun c => c.name == entry.1).map Column.toField := List.find?_map
  unfold entryVisits entrySet visit
  rw [hfind]
  cases hc : columns.find? fun c => c.name == entry.1 with
  | none =>
    have hk : entry.1 ∉ columns.map (·.name) := by
      rw [List.find?_eq_none] at hc
      simpa using hc
    rw [List.map_map]
    exact .misfit (y := .key _ _) hk
  | some c =>
    have hname : c.name = entry.1 := by simpa using List.find?_some hc
    have hk : entry.1 ∈ columns.map (·.name) :=
      hname ▸ List.mem_map_of_mem (List.mem_of_find?_eq_some hc)
    exact .cons (y := .key _ _) hk (c.reads x entry.2)

theorem outcome_entries (x : σ) (entries : List (String × Value)) :
    Outcome (entries.flatMap (entryVisits columns)) (entries.foldl (entrySet columns) x)
      (entries.foldlM (visit (columns.map Column.toField)) x) := by
  induction entries generalizing x with
  | nil => exact .nil x
  | cons entry entries ih => exact (outcome_visit x entry).bind (ih _)

theorem outcome_elements (short : Visit) (hs : ¬ short.Fits) (columns : List (Column σ)) (x : σ)
    (items : List Value) :
    Outcome (elementVisits short columns items) (elementsSet columns x items)
      (ofElements short.fault (columns.map Column.toField) x items) := by
  induction columns generalizing x items with
  | nil => exact .nil x
  | cons c columns ih =>
    cases items with
    | nil => exact .misfit hs
    | cons v rest => exact (c.reads x v).bind (ih _ _)

theorem outcome_read (part : Section σ) (h : part.fields = columns.map Column.toField) (x : σ)
    (v : Value) :
    Outcome (sectionVisits columns part.title v) (sectionSet columns x v) (part.read x v) := by
  cases v with
  | table entries =>
    rw [Section.read, h]
    exact outcome_entries x (byName entries)
  | array items =>
    rw [Section.read, h, List.length_map]
    exact outcome_elements (.tooShort _ _ _) id columns x items
  | scalar s =>
    cases s with
    | moment =>
      rw [Section.read, h]
      exact outcome_visit x _
    | text | boolean | integer | noNumber | float =>
      exact .misfit (y := .other part.title _) id

end

section

variable {σ ρ : Type}

def sizeColumn (name expected : String) (put : σ → Nat → σ) : Column σ where
  name := name
  store x v := do return put x (← size expected v)
  visits v := [.size expected v]
  set x v := put x (statedSize v)
  reads x v := (outcome_size expected v).map (put x)

def textColumn (title : String) (put : σ → String → σ) : Column σ where
  name := title
  store x v := do return put x (← name v)
  visits v := [.text v]
  set x v := put x (statedText v)
  reads x v := (outcome_name v).map (put x)

def sectionColumn (name : String) (part : Section ρ) (columns : List (Column ρ))
    (h : part.fields = columns.map Column.toField) (get : σ → ρ) (put : σ → ρ → σ) :
    Column σ where
  name := name
  store x v := do return put x (← part.read (get x) v)
  visits v := sectionVisits columns part.title v
  set x v := put x (sectionSet columns (get x) v)
  reads x v := (outcome_read part h (get x) v).map (put x)

end

def drainColumns : List (Column StatedDrain) := [
  sizeColumn "grace_timeout_ms" "u64" fun d n => { d with grace := some n },
  sizeColumn "force_timeout_ms" "u64" fun d n => { d with force := some n }]

def poolColumns : List (Column StatedPool) := [
  sizeColumn "workers" "usize" fun p n => { p with workers := some n },
  sizeColumn "queue_capacity" "usize" fun p n => { p with queueCapacity := some n },
  textColumn "thread_name" fun p s => { p with threadName := some s }]

def rootColumns : List (Column Stated) := [
  sectionColumn "drain" drainSection drainColumns rfl Stated.drain fun s d => { s with drain := d },
  sectionColumn "pool" poolSection poolColumns rfl Stated.pool fun s p => { s with pool := p }]

theorem sections_eq : sections = rootColumns.map Column.toField := rfl

def documentVisits (d : Toml.Document) : List Visit :=
  (byName d.entries).flatMap (entryVisits rootColumns)

def documentStated (d : Toml.Document) : Stated :=
  (byName d.entries).foldl (entrySet rootColumns) .nothing

theorem outcome_ofDocument (d : Toml.Document) :
    Outcome (documentVisits d) (documentStated d) (Stated.ofDocument d) := by
  unfold Stated.ofDocument ofEntries
  rw [sections_eq]
  exact outcome_entries _ _

end Quiesce.Config
