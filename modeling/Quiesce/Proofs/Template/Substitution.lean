import Quiesce.Proofs.Bindings
import Quiesce.Proofs.Template.Pieces
import Quiesce.Proofs.Text.Replace

set_option autoImplicit false

/-! Interpolation makes pass after pass over a text that the passes before have changed. It comes to
the same as filling all placeholders at once, if what is put in begins and completes none. -/

namespace Quiesce.Template

open Text

def Piece.fill (value? : Form → List Char → Option (List Char)) : Piece → List Piece
  | char c => [char c]
  | hole f key =>
    match value? f key with
    | some value => value.map char
    | none => [hole f key]

def fill (value? : Form → List Char → Option (List Char)) (ps : List Piece) : List Piece :=
  ps.flatMap (Piece.fill value?)

section Fill

variable {value? : Form → List Char → Option (List Char)} {f : Form} {key : List Char}

@[simp] theorem fill_char (c : Char) (ps : List Piece) :
    fill value? (.char c :: ps) = .char c :: fill value? ps := rfl

theorem fill_hole_some {value : List Char} (h : value? f key = some value) (ps : List Piece) :
    fill value? (.hole f key :: ps) = value.map .char ++ fill value? ps := by
  simp only [fill, List.flatMap_cons, Piece.fill, h]

theorem fill_hole_none (h : value? f key = none) (ps : List Piece) :
    fill value? (.hole f key :: ps) = .hole f key :: fill value? ps := by
  simp only [fill, List.flatMap_cons, Piece.fill, h, List.singleton_append]

theorem fill_append (ps qs : List Piece) :
    fill value? (ps ++ qs) = fill value? ps ++ fill value? qs := List.flatMap_append

theorem fill_chars (s : List Char) : fill value? (s.map .char) = s.map .char := by
  induction s with
  | nil => rfl
  | cons c rest ih => rw [List.map_cons, fill_char, ih]

theorem fill_none (ps : List Piece) : fill (fun _ _ => none) ps = ps := by
  induction ps with
  | nil => rfl
  | cons p rest ih =>
    cases p with
    | char c => rw [fill_char, ih]
    | hole f key => rw [fill_hole_none rfl, ih]

theorem fill_fill (later : Form → List Char → Option (List Char)) (ps : List Piece) :
    fill later (fill value? ps) = fill (fun f key => (value? f key).or (later f key)) ps := by
  induction ps with
  | nil => rfl
  | cons p rest ih =>
    cases p with
    | char c => rw [fill_char, fill_char, fill_char, ih]
    | hole f key =>
      cases hv : value? f key with
      | some value =>
        have hor : (value? f key).or (later f key) = some value := by rw [hv]; rfl
        rw [fill_hole_some hv, fill_append, fill_chars, ih, fill_hole_some hor]
      | none =>
        have hor : (value? f key).or (later f key) = later f key := by rw [hv]; rfl
        rw [fill_hole_none hv]
        cases hl : later f key with
        | some value => rw [fill_hole_some hl, fill_hole_some (hor.trans hl), ih]
        | none => rw [fill_hole_none hl, fill_hole_none (hor.trans hl), ih]

theorem not_mem_fill (h : value? f key ≠ none) (ps : List Piece) :
    .hole f key ∉ fill value? ps := by
  intro hm
  obtain ⟨p, -, hp⟩ := List.mem_flatMap.mp hm
  cases p with
  | char c => simp [Piece.fill] at hp
  | hole g k =>
    cases hv : value? g k with
    | some value => simp [Piece.fill, hv] at hp
    | none =>
      simp only [Piece.fill, hv, List.mem_singleton, Piece.hole.injEq] at hp
      exact h (by rw [hp.1, hp.2, hv])

end Fill

/-- A value that makes no hole and no quote, and does not bring two quotes together. -/
structure Fit (value : List Char) : Prop where
  nonempty : value ≠ []
  noDollar : '$' ∉ value
  noQuote : '"' ∉ value

theorem WellRead.chars_append {value : List Char} {ps : List Piece} (hd : '$' ∉ value)
    (hq : '"' ∉ value) (h : WellRead false ps) {quoted : Bool} (hn : value = [] → quoted = false) :
    WellRead quoted (value.map .char ++ ps) := by
  induction value generalizing quoted with
  | nil => exact hn rfl ▸ h
  | cons c rest ih =>
    rw [List.mem_cons, not_or] at hd hq
    have hc : (c == '"') = false := beq_false_of_ne (Ne.symm hq.1)
    exact .char (Ne.symm hd.1) (ih hd.2 hq.2 fun _ => hc)

section Filling

variable {value? : Form → List Char → Option (List Char)}

theorem head?_fill (hv : ∀ f key value, value? f key = some value → Fit value) {ps : List Piece}
    (h : (render ps).head? ≠ some '"') : (render (fill value? ps)).head? ≠ some '"' := by
  cases ps with
  | nil => exact h
  | cons p rest =>
    cases p with
    | char c => exact h
    | hole f key =>
      have hhead : ∀ s, (f.pattern key ++ s).head? = f.opening.head? := by
        cases f <;> exact fun _ => rfl
      cases hf : value? f key with
      | none =>
        rw [fill_hole_none hf, render_cons, Piece.text, hhead]
        rwa [render_cons, Piece.text, hhead] at h
      | some value =>
        have hfit := hv f key value hf
        obtain ⟨c, s, rfl⟩ := List.exists_cons_of_ne_nil hfit.nonempty
        rw [fill_hole_some hf, render_append, render_chars]
        rintro hc
        exact hfit.noQuote (by simp_all)

theorem WellRead.fill (hv : ∀ f key value, value? f key = some value → Fit value) {quoted : Bool}
    {ps : List Piece} (h : WellRead quoted ps) : WellRead quoted (fill value? ps) := by
  induction h with
  | nil => exact .nil
  | char hc _ ih => exact .char hc ih
  | @hole quoted f key ps hk hq _ ih =>
    cases hf : value? f key with
    | none =>
      rw [fill_hole_none hf]
      exact .hole hk (fun hd hquoted => head?_fill hv (hq hd hquoted)) ih
    | some value =>
      rw [fill_hole_some hf]
      obtain ⟨hne, hd, hn⟩ := hv f key value hf
      refine .chars_append hd hn ?_ fun he => absurd he hne
      cases hform : f == .quoted with
      | true => exact (hform ▸ ih).loosen
      | false => exact hform ▸ ih

end Filling

def only (f : Form) (key value : List Char) : Form → List Char → Option (List Char) :=
  fun f' key' => if f' = f ∧ key' = key then some value else none

section Pass

variable {f : Form} {key value : List Char}

theorem scan_quiet {t : List Char} (hd : '$' ∉ t) (hq : t.getLast? ≠ some '"') (s : List Char) :
    Replace.scan (f.pattern key) value 0 (t ++ s) =
      t ++ Replace.scan (f.pattern key) value 0 s := by
  induction t with
  | nil => rfl
  | cons c rest ih =>
    rw [List.mem_cons, not_or] at hd
    have hrest : rest.getLast? ≠ some '"' := by
      cases rest with
      | nil => simp
      | cons d l => rwa [List.getLast?_cons_cons] at hq
    have hnot : ¬ f.pattern key <+: c :: (rest ++ s) := by
      rintro hp
      cases f with
      | single | double => exact hd.1 (List.cons_prefix_cons.mp hp).1
      | quoted =>
        -- the quote would have to be the last character, or a dollar sign to follow it
        rw [Form.quoted_pattern, List.cons_prefix_cons] at hp
        cases rest with
        | nil => exact hq (by rw [← hp.1]; rfl)
        | cons d l =>
          have hdollar : '$' = d := (List.cons_prefix_cons.mp hp.2).1
          exact hd.2 (hdollar ▸ List.mem_cons_self ..)
    rw [List.cons_append, Replace.scan_cons hnot, ih hd.2 hrest, List.cons_append]

theorem scan_bare (hk : Plain key) {g : Form} (hg : g ≠ .quoted) {key' : List Char}
    (hk' : Plain key') (hne : ¬ (g = f ∧ key' = key)) (s : List Char) :
    Replace.scan (f.pattern key) value 0 (g.pattern key' ++ s) =
      g.pattern key' ++ Replace.scan (f.pattern key) value 0 s := by
  have hnot : ¬ f.pattern key <+: g.pattern key' ++ s := fun hp =>
    hne ((Form.pattern_inj hk hk' hp).imp Eq.symm Eq.symm)
  have hdollar : '$' ∉ key' := fun hm => by simpa [isPlain] using hk' '$' hm
  obtain ⟨t, ht, hd, hq⟩ :
      ∃ t, g.pattern key' = '$' :: t ∧ '$' ∉ t ∧ t.getLast? ≠ some '"' := by
    cases g with
    | quoted => exact absurd rfl hg
    | single =>
      refine ⟨('\x7b' :: key') ++ ['\x7d'], rfl, by simp [hdollar], ?_⟩
      rw [List.getLast?_concat]
      decide
    | double =>
      refine ⟨('\x7b' :: '\x7b' :: key' ++ ['\x7d']) ++ ['\x7d'],
        by simp [Form.pattern_eq, Form.opening, Form.ending], by simp [hdollar], ?_⟩
      rw [List.getLast?_concat]
      decide
  rw [ht, List.cons_append] at hnot ⊢
  rw [Replace.scan_cons hnot, scan_quiet hd hq, List.cons_append]

/-- A pass goes over a hole of another form or key. In double braces between quotes the bare form
would be found too, so a pass for it needs the quoted holes of its key gone. -/
theorem scan_other (hk : Plain key) {g : Form} {key' : List Char} (hk' : Plain key')
    (hne : ¬ (g = f ∧ key' = key)) (hq : f = .double → ¬ (g = .quoted ∧ key' = key))
    {ps : List Piece} (h : WellRead (g == .quoted) ps) :
    Replace.scan (f.pattern key) value 0 (g.pattern key' ++ render ps) =
      g.pattern key' ++ Replace.scan (f.pattern key) value 0 (render ps) := by
  cases g with
  | single | double => exact scan_bare hk (by decide) hk' hne (render ps)
  | quoted =>
    have hfirst : ¬ f.pattern key <+: Form.quoted.pattern key' ++ render ps := fun hp =>
      hne ((Form.pattern_inj hk hk' hp).imp Eq.symm Eq.symm)
    have hbare : ¬ (Form.double = f ∧ key' = key) := fun he => hq he.1.symm ⟨rfl, he.2⟩
    have hlast : ¬ f.pattern key <+: '"' :: render ps := not_prefix_char hk (by decide) h
    rw [Form.quoted_pattern, List.cons_append, List.append_assoc] at hfirst ⊢
    rw [Replace.scan_cons hfirst, scan_bare hk (by decide) hk' hbare, List.singleton_append,
      Replace.scan_cons hlast, List.cons_append, List.append_assoc, List.singleton_append]

theorem pass_render (hk : Plain key) {quoted : Bool} {ps : List Piece} (h : WellRead quoted ps)
    (hq : f = .double → .hole .quoted key ∉ ps) :
    Replace.all (f.pattern key) value (render ps) = render (fill (only f key value) ps) := by
  rw [Replace.all_eq_scan (f.pattern_ne_nil key)]
  induction h with
  | nil => rfl
  | @char _ c ps hc hps ih =>
    rw [fill_char, render_cons, render_cons, ← ih fun hf hm => hq hf (List.mem_cons_of_mem _ hm)]
    exact Replace.scan_cons (not_prefix_char hk hc hps) value
  | @hole _ g key' ps hk' _ hps ih =>
    replace ih := ih fun hf hm => hq hf (List.mem_cons_of_mem _ hm)
    by_cases heq : g = f ∧ key' = key
    · obtain ⟨rfl, rfl⟩ := heq
      rw [fill_hole_some (if_pos ⟨rfl, rfl⟩), render_append, render_chars, ← ih]
      exact Replace.scan_of_prefix (g.pattern_ne_nil key') value (render ps)
    · have hnone : ¬ (f = .double ∧ g = .quoted ∧ key' = key) := by
        rintro ⟨hf, rfl, rfl⟩
        exact hq hf (List.mem_cons_self ..)
      rw [fill_hole_none (if_neg heq), render_cons, render_cons, ← ih]
      exact scan_other hk hk' heq (fun hf he => hnone ⟨hf, he⟩) hps

end Pass

theorem form_text (key value : String) (e : Expansion) (f : Form) :
    (e.form key value f).text = Replace.all (f.pattern key.toList) value.toList e.text := by
  simp only [Expansion.form]
  split
  · rfl
  · rename_i h
    exact (Replace.all_of_not_occurs h value.toList).symm

def ofKey (key value : List Char) : Form → List Char → Option (List Char) :=
  fun _ key' => if key' = key then some value else none

def valuesOf (value? : String → Option String) : Form → List Char → Option (List Char) :=
  fun _ key => (value? (String.ofList key)).map String.toList

/-- A binding whose passes keep apart from those of the others. -/
structure Substitutable (p : String × String) : Prop where
  key : Plain p.1.toList
  value : Fit p.2.toList

theorem WellRead.fill_only {value : List Char} (hv : Fit value) (f : Form) (key : List Char)
    {quoted : Bool} {ps : List Piece} (h : WellRead quoted ps) :
    WellRead quoted (Template.fill (only f key value) ps) := by
  refine h.fill fun g key' value' hg => ?_
  unfold only at hg
  split at hg
  · exact Option.some.inj hg ▸ hv
  · cases hg

theorem fill_forms (key value : List Char) (ps : List Piece) :
    fill (only .double key value) (fill (only .single key value)
      (fill (only .quoted key value) ps)) = fill (ofKey key value) ps := by
  rw [fill_fill, fill_fill]
  refine congrArg (fill · ps) (funext fun f => funext fun key' => ?_)
  cases f <;> by_cases hk : key' = key <;> simp [only, ofKey, hk]

theorem pair_render {p : String × String} (hp : Substitutable p) {quoted : Bool}
    {ps : List Piece} (h : WellRead quoted ps) {e : Expansion} (he : e.text = render ps) :
    (e.pair p).text = render (fill (ofKey p.1.toList p.2.toList) ps) := by
  obtain ⟨key, value⟩ := p
  have h₁ := h.fill_only hp.value .quoted key.toList
  have h₂ := h₁.fill_only hp.value .single key.toList
  -- by the turn of the bare double form its quoted holes are gone
  have hgone : Piece.hole .quoted key.toList ∉ fill (only .single key.toList value.toList)
      (fill (only .quoted key.toList value.toList) ps) := by
    rw [fill_fill]
    exact not_mem_fill (by simp [only]) ps
  rw [← fill_forms, ← pass_render hp.key h₂ fun _ => hgone, ← pass_render hp.key h₁ (by simp),
    ← pass_render hp.key h (by simp), ← he]
  simp only [Expansion.pair, Form.all, List.foldl_cons, List.foldl_nil, form_text]

theorem valuesOf_cons (p : String × String) (pairs : List (String × String)) :
    valuesOf (fun key => (p :: pairs).lookup key) = fun f key =>
      (ofKey p.1.toList p.2.toList f key).or (valuesOf (fun key => pairs.lookup key) f key) := by
  obtain ⟨bound, value⟩ := p
  funext f key
  by_cases hk : key = bound.toList
  · simp [valuesOf, ofKey, hk]
  · have hne : (String.ofList key == bound) = false := by
      refine beq_false_of_ne fun he => hk ?_
      rw [← he, String.toList_ofList]
    simp [valuesOf, ofKey, hk, List.lookup_cons, hne]

theorem pairs_render {pairs : List (String × String)} (hp : ∀ p ∈ pairs, Substitutable p)
    {quoted : Bool} {ps : List Piece} (h : WellRead quoted ps) {e : Expansion}
    (he : e.text = render ps) :
    (e.pairs pairs).text = render (fill (valuesOf fun key => pairs.lookup key) ps) := by
  induction pairs generalizing ps e with
  | nil =>
    rw [show valuesOf (fun key => ([] : List (String × String)).lookup key) =
      fun _ _ => none from rfl, fill_none]
    exact he
  | cons p rest ih =>
    have hfirst := hp p (List.mem_cons_self ..)
    have hfilled : WellRead quoted (fill (ofKey p.1.toList p.2.toList) ps) := by
      refine h.fill fun f key value hv => ?_
      unfold ofKey at hv
      split at hv
      · exact Option.some.inj hv ▸ hfirst.value
      · cases hv
    rw [valuesOf_cons, ← fill_fill]
    exact ih (fun q hq => hp q (List.mem_cons_of_mem p hq)) hfilled (pair_render hfirst h he)

/-- The template with every hole whose key is bound filled at once, the quotes of the quoted holes
going with them, and everything else as it is. -/
def substitute (value? : String → Option String) (template : String) : String :=
  String.ofList (render (fill (valuesOf value?) (read template.toList)))

theorem interpolate_ofPuts {puts : List (Option String × Option String)} {template : String}
    (hb : ∀ p ∈ (Bindings.ofPuts puts).pairs, Substitutable p)
    (hr : WellRead false (read template.toList)) :
    interpolate template (some (Bindings.ofPuts puts)) =
      substitute (Bindings.ofPuts puts).get? template := by
  have htext := pairs_render hb hr (e := Expansion.start template.toList) (render_read _).symm
  have hget : (fun key => (Bindings.ofPuts puts).pairs.lookup key) = (Bindings.ofPuts puts).get? :=
    funext (Bindings.lookup_pairs (Bindings.keysUnique_ofPuts puts))
  rw [hget] at htext
  exact congrArg String.ofList htext

/-- Let the keys of the bindings be plain and their values fit, let every dollar sign of the
template begin a placeholder, and let no two quoted placeholders share a quote. Then the reading of
the template is the only good one, its interpolation is the substitution of all bindings at once,
and other bindings with the same pairs, in whatever order, give the same text. -/
theorem interpolate_eq_substitute (puts : List (Option String × Option String)) (template : String)
    (hb : ∀ p ∈ (Bindings.ofPuts puts).pairs, Substitutable p) (hf : Formed template.toList)
    (hs : ¬ sharedQuote <:+: template.toList) :
    (∀ ps, WellRead false ps ∧ render ps = template.toList ↔ ps = read template.toList) ∧
    interpolate template (some (Bindings.ofPuts puts)) =
      substitute (Bindings.ofPuts puts).get? template ∧
    ∀ others, (∀ p, p ∈ (Bindings.ofPuts others).pairs ↔ p ∈ (Bindings.ofPuts puts).pairs) →
      interpolate template (some (Bindings.ofPuts others)) =
        interpolate template (some (Bindings.ofPuts puts)) := by
  have hr : WellRead false (read template.toList) := wellRead_read hf hs (by simp)
  refine ⟨fun ps => ⟨?_, ?_⟩, interpolate_ofPuts hb hr, fun others hsame => ?_⟩
  · rintro ⟨hps, htext⟩
    rw [← htext, read_render hps]
  · rintro rfl
    exact ⟨hr, render_read _⟩
  · have hget : (Bindings.ofPuts others).get? = (Bindings.ofPuts puts).get? := funext fun key =>
      Bindings.get?_eq_of_pairs (Bindings.keysUnique_ofPuts others)
        (Bindings.keysUnique_ofPuts puts) hsame key
    rw [interpolate_ofPuts (fun p hp => hb p ((hsame p).mp hp)) hr, interpolate_ofPuts hb hr, hget]

def deployment : List (Option String × Option String) :=
  [(some "N", some "3"), (some "U", none), (none, some "x"), (some "I", some "\x7bnginx\x7d")]

def manifest : String :=
  "n: \"$\x7b\x7bN\x7d\x7d\", i: \"$\x7bI\x7d$\x7b\x7bI\x7d\x7d\", u: \"$\x7b\x7bU\x7d\x7d\""

theorem manifest_substituted :
    (∀ p ∈ (Bindings.ofPuts deployment).pairs, Substitutable p) ∧ Formed manifest.toList ∧
    ¬ sharedQuote <:+: manifest.toList ∧
    interpolate manifest (some (Bindings.ofPuts deployment)) =
      substitute (Bindings.ofPuts deployment).get? manifest ∧
    interpolate manifest (some (Bindings.ofPuts deployment)) =
      "n: 3, i: \"\x7bnginx\x7d\x7bnginx\x7d\", u: \"$\x7b\x7bU\x7d\x7d\"" := by
  have hb : ∀ p ∈ (Bindings.ofPuts deployment).pairs, Substitutable p := by
    have hpairs : (Bindings.ofPuts deployment).pairs =
        [("N", "3"), ("I", "\x7bnginx\x7d")] := by decide
    rw [hpairs]
    simp only [List.forall_mem_cons]
    exact ⟨⟨by decide, by decide, by decide, by decide⟩,
      ⟨by decide, by decide, by decide, by decide⟩, by simp⟩
  have hf : Formed manifest.toList := by decide +kernel
  have hs : ¬ sharedQuote <:+: manifest.toList := mt Replace.occurs_iff.mpr (by decide)
  have hall := interpolate_eq_substitute deployment manifest hb hf hs
  exact ⟨hb, hf, hs, hall.2.1, by decide +kernel⟩

end Quiesce.Template
