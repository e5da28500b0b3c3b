import Quiesce.Toml.Document

set_option autoImplicit false

namespace Quiesce.Toml

inductive Value.Distinct : Value → Prop where
  | scalar (s : Scalar) : Distinct (.scalar s)
  | array {items : List Value} : (∀ v ∈ items, v.Distinct) → Distinct (.array items)
  | table {entries : List (String × Value)} : (entries.map Prod.fst).Nodup →
      (∀ e ∈ entries, e.2.Distinct) → Distinct (.table entries)

def Document.Distinct (d : Document) : Prop := Value.Distinct (.table d.entries)

inductive Node.Distinct : Node → Prop where
  | value {v : Value} : v.Distinct → Distinct (.value v)
  | table {made : Made} {entries : Entries} : (entries.map Prod.fst).Nodup →
      (∀ e ∈ entries, Node.Distinct e.2) → Distinct (.table made entries)
  | tables {done : List Value} {last : Entries} : (∀ v ∈ done, v.Distinct) →
      (last.map Prod.fst).Nodup → (∀ e ∈ last, Node.Distinct e.2) → Distinct (.tables done last)

namespace Entries

structure Distinct (entries : Entries) : Prop where
  keys : (entries.map Prod.fst).Nodup
  nodes : ∀ e ∈ entries, e.2.Distinct

variable {entries : Entries} {key : String} {node : Node}

theorem distinct_nil : Distinct [] := ⟨List.nodup_nil, nofun⟩

theorem Distinct.lookup (h : entries.Distinct) (hn : entries.lookup key = some node) :
    node.Distinct := by
  obtain ⟨before, after, rfl, -⟩ := List.lookup_eq_some_iff.mp hn
  exact h.nodes (key, node) (by simp)

theorem mem_set {e : String × Node} (h : e ∈ set key node entries) :
    e = (key, node) ∨ e ∈ entries := by
  induction entries with
  | nil => exact .inl (List.mem_singleton.mp h)
  | cons x rest ih =>
    rw [set] at h
    by_cases hk : x.1 = key
    · rw [if_pos hk] at h
      exact (List.mem_cons.mp h).imp_right (List.mem_cons_of_mem x)
    · rw [if_neg hk] at h
      rcases List.mem_cons.mp h with rfl | hm
      · exact .inr (List.mem_cons_self ..)
      · exact (ih hm).imp_right (List.mem_cons_of_mem x)

theorem Distinct.set (h : entries.Distinct) (hn : node.Distinct) :
    (set key node entries).Distinct := by
  refine ⟨?_, fun e he => ?_⟩
  · have hkeys := h.keys
    clear h
    induction entries with
    | nil => simp [Entries.set]
    | cons x rest ih =>
      obtain ⟨hx, hrest⟩ := List.nodup_cons.mp hkeys
      rw [Entries.set]
      by_cases hk : x.1 = key
      · rw [if_pos hk]
        exact List.nodup_cons.mpr ⟨hk ▸ hx, hrest⟩
      · rw [if_neg hk]
        refine List.nodup_cons.mpr ⟨fun hm => ?_, ih hrest⟩
        obtain ⟨e, he, heq⟩ := List.mem_map.mp hm
        rcases mem_set he with rfl | hmem
        · exact hk heq.symm
        · exact hx (List.mem_map.mpr ⟨e, hmem, heq⟩)
  · rcases mem_set he with rfl | hmem
    · exact hn
    · exact h.nodes e hmem

def Keeps (change : Made → Entries → Option (Made × Entries)) : Prop :=
  ∀ {m : Made} {es : Entries} {out : Made × Entries},
    es.Distinct → change m es = some out → out.2.Distinct

theorem within_keeps (dotted : Bool) {change : Made → Entries → Option (Made × Entries)}
    (hc : Keeps change) (way : List String) : Keeps (within dotted change way) := by
  induction way with
  | nil => exact hc
  | cons key way ih =>
    intro m es out hd h
    rw [within] at h
    split at h
    · obtain ⟨⟨m', inner⟩, hi, ho⟩ := Option.bind_eq_some_iff.mp h
      obtain rfl := Option.some.inj ho
      have hinner := ih distinct_nil hi
      exact hd.set (.table hinner.keys hinner.nodes)
    · exact nomatch h
    · rename_i done last hl
      obtain ⟨⟨m', inner⟩, hi, ho⟩ := Option.bind_eq_some_iff.mp h
      obtain rfl := Option.some.inj ho
      cases hd.lookup hl with
      | tables hdone hkeys hnodes =>
        have hinner := ih ⟨hkeys, hnodes⟩ hi
        exact hd.set (.tables hdone hinner.keys hinner.nodes)
    · rename_i made old hl
      split at h
      · exact nomatch h
      · obtain ⟨⟨m', inner⟩, hi, ho⟩ := Option.bind_eq_some_iff.mp h
        obtain rfl := Option.some.inj ho
        cases hd.lookup hl with
        | table hkeys hnodes =>
          have hinner := ih ⟨hkeys, hnodes⟩ hi
          exact hd.set (.table hinner.keys hinner.nodes)

theorem put_keeps (path : Path) (hn : node.Distinct) : Keeps (put path node) := by
  refine within_keeps true (fun {m es out} hd h => ?_) path.tables
  split at h
  · obtain rfl := Option.some.inj h
    exact hd.set hn
  · exact nomatch h

end Entries

theorem finishEntries_eq (entries : Entries) :
    finishEntries entries = entries.map fun e => (e.1, e.2.finish) := by
  induction entries with
  | nil => simp [finishEntries]
  | cons e rest ih =>
    obtain ⟨key, node⟩ := e
    simp [finishEntries, ih]

theorem distinct_finishEntries {entries : Entries} (keys : (entries.map Prod.fst).Nodup)
    (nodes : ∀ e ∈ entries, e.2.finish.Distinct) :
    Value.Distinct (.table (finishEntries entries)) := by
  rw [finishEntries_eq]
  refine .table ?_ fun e he => ?_
  · rw [List.map_map]
    exact keys
  · obtain ⟨x, hx, rfl⟩ := List.mem_map.mp he
    exact nodes x hx

theorem Node.Distinct.finish {node : Node} (h : node.Distinct) : node.finish.Distinct := by
  induction h with
  | value hv => exact hv
  | table keys _ ih => exact distinct_finishEntries keys ih
  | tables done keys _ ih =>
    refine .array fun v hv => ?_
    rcases List.mem_append.mp hv with hdone | hlast
    · exact done v hdone
    · obtain rfl := List.mem_singleton.mp hlast
      exact distinct_finishEntries keys ih

theorem Entries.Distinct.finish {entries : Entries} (h : entries.Distinct) :
    Value.Distinct (.table (finishEntries entries)) :=
  distinct_finishEntries h.keys fun e he => (h.nodes e he).finish

mutual

theorem distinct_of_value? : ∀ (w : Written) {v : Value}, w.value? = some v → v.Distinct
  | .scalar s, v, h => by
    rw [Written.value?] at h
    obtain rfl := Option.some.inj h
    exact .scalar s
  | .array items, v, h => by
    rw [Written.value?] at h
    obtain ⟨vs, hvs, ho⟩ := Option.bind_eq_some_iff.mp h
    obtain rfl := Option.some.inj ho
    exact .array (distinct_of_values? items hvs)
  | .table entries, v, h => by
    rw [Written.value?] at h
    obtain ⟨made, hm, ho⟩ := Option.bind_eq_some_iff.mp h
    obtain rfl := Option.some.inj ho
    exact (distinct_of_inlineEntries? entries Entries.distinct_nil hm).finish

theorem distinct_of_values? : ∀ (ws : List Written) {vs : List Value}, values? ws = some vs →
    ∀ v ∈ vs, v.Distinct
  | [], vs, h => by
    rw [values?] at h
    obtain rfl := Option.some.inj h
    exact nofun
  | w :: rest, vs, h => by
    rw [values?] at h
    obtain ⟨v, hv, hr⟩ := Option.bind_eq_some_iff.mp h
    obtain ⟨us, hus, ho⟩ := Option.bind_eq_some_iff.mp hr
    obtain rfl := Option.some.inj ho
    exact List.forall_mem_cons.mpr ⟨distinct_of_value? w hv, distinct_of_values? rest hus⟩

theorem distinct_of_inlineEntries? : ∀ (es : List (Path × Written)) {made out : Entries},
    made.Distinct → inlineEntries? made es = some out → out.Distinct
  | [], made, out, hd, h => by
    rw [inlineEntries?] at h
    obtain rfl := Option.some.inj h
    exact hd
  | (path, w) :: rest, made, out, hd, h => by
    rw [inlineEntries?] at h
    obtain ⟨v, hv, hr⟩ := Option.bind_eq_some_iff.mp h
    obtain ⟨⟨m, next⟩, hp, ho⟩ := Option.bind_eq_some_iff.mp hr
    have hnext := Entries.put_keeps path (.value (distinct_of_value? w hv)) hd hp
    exact distinct_of_inlineEntries? rest hnext ho

end

theorem openTable_keeps (key : String) : Entries.Keeps (openTable key) := by
  intro m es out hd h
  unfold openTable at h
  split at h
  · obtain rfl := Option.some.inj h
    exact hd.set (.table List.nodup_nil nofun)
  · rename_i inner hl
    obtain rfl := Option.some.inj h
    cases hd.lookup hl with
    | table hkeys hnodes => exact hd.set (.table hkeys hnodes)
  · exact nomatch h

theorem openNext_keeps (key : String) : Entries.Keeps (openNext key) := by
  intro m es out hd h
  unfold openNext at h
  split at h
  · obtain rfl := Option.some.inj h
    exact hd.set (.tables nofun List.nodup_nil nofun)
  · rename_i done last hl
    obtain rfl := Option.some.inj h
    cases hd.lookup hl with
    | tables hdone hkeys hnodes =>
      have hlast : Value.Distinct (.table (finishEntries last)) :=
        Entries.Distinct.finish ⟨hkeys, hnodes⟩
      refine hd.set (.tables (fun v hv => ?_) List.nodup_nil nofun)
      rcases List.mem_append.mp hv with hdone' | hnew
      · exact hdone v hdone'
      · obtain rfl := List.mem_singleton.mp hnew
        exact hlast
  · exact nomatch h

namespace Draft

variable {d n : Draft}

theorem distinct_change {way : List String} {f : Made → Entries → Option (Made × Entries)}
    {tree : Entries} (hf : Entries.Keeps f) (hd : d.tree.Distinct)
    (h : d.change way f = some tree) : tree.Distinct := by
  obtain ⟨out, ho, rfl⟩ := Option.map_eq_some_iff.mp h
  exact Entries.within_keeps false hf way hd ho

theorem distinct_take {x : Statement} (hd : d.tree.Distinct) (h : d.take x = some n) :
    n.tree.Distinct := by
  cases x with
  | entry path w =>
    obtain ⟨v, hv, hr⟩ := Option.bind_eq_some_iff.mp h
    obtain ⟨tree, ht, ho⟩ := Option.bind_eq_some_iff.mp hr
    obtain rfl := Option.some.inj ho
    exact distinct_change (Entries.put_keeps path (.value (distinct_of_value? w hv))) hd ht
  | header path =>
    obtain ⟨tree, ht, ho⟩ := Option.bind_eq_some_iff.mp h
    obtain rfl := Option.some.inj ho
    exact distinct_change (openTable_keeps path.key) hd ht
  | arrayHeader path =>
    obtain ⟨tree, ht, ho⟩ := Option.bind_eq_some_iff.mp h
    obtain rfl := Option.some.inj ho
    exact distinct_change (openNext_keeps path.key) hd ht

theorem distinct_takeAll {xs : List Statement} (hd : d.tree.Distinct)
    (h : xs.foldlM take d = some n) : n.tree.Distinct := by
  induction xs generalizing d with
  | nil =>
    obtain rfl := Option.some.inj h
    exact hd
  | cons x xs ih =>
    rw [List.foldlM_cons] at h
    obtain ⟨o, ho, hr⟩ := Option.bind_eq_some_iff.mp h
    exact ih (distinct_take hd ho) hr

end Draft

/-- The tree of a document that has been read has every key once. -/
theorem Document.distinct_of_read? {text : String} {d : Document} (h : read? text = some d) :
    d.Distinct := by
  obtain ⟨xs, -, hr⟩ := Option.bind_eq_some_iff.mp h
  obtain ⟨draft, hd, ho⟩ := Option.bind_eq_some_iff.mp hr
  obtain rfl := Option.some.inj ho
  exact (Draft.distinct_takeAll (d := .empty) Entries.distinct_nil hd).finish

end Quiesce.Toml
