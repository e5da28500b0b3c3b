import Quiesce.Template

set_option autoImplicit false

namespace Quiesce.Template

def isPlain (c : Char) : Bool := c != '$' && c != '\x7b' && c != '\x7d'

def Plain (key : List Char) : Prop := ∀ c ∈ key, isPlain c = true

instance (key : List Char) : Decidable (Plain key) :=
  decidable_of_iff (key.all isPlain = true) List.all_eq_true

namespace Form

variable {key key' t s : List Char}

def opening : Form → List Char
  | quoted => ['"', '$', '\x7b', '\x7b']
  | single => ['$', '\x7b']
  | double => ['$', '\x7b', '\x7b']

def ending : Form → List Char
  | quoted => ['\x7d', '"']
  | single => []
  | double => ['\x7d']

theorem pattern_eq (f : Form) (key : List Char) :
    f.pattern key = f.opening ++ (key ++ '\x7d' :: f.ending) := by
  cases f <;> rfl

theorem quoted_pattern (key : List Char) :
    quoted.pattern key = '"' :: (double.pattern key ++ ['"']) := by
  simp only [pattern_eq, opening, ending, List.cons_append, List.nil_append, List.append_assoc]

theorem pattern_ne_nil (f : Form) (key : List Char) : f.pattern key ≠ [] := by
  cases f <;> simp [pattern_eq, opening]

def key? (f : Form) (t : List Char) : Option (List Char) :=
  let key := (t.drop f.opening.length).takeWhile isPlain
  if (f.pattern key).isPrefixOf t then some key else none

theorem key?_append (f : Form) (hk : Plain key) (s : List Char) :
    f.key? (f.pattern key ++ s) = some key := by
  have hkey : ((f.pattern key ++ s).drop f.opening.length).takeWhile isPlain = key := by
    rw [pattern_eq, List.append_assoc, List.drop_left, List.append_assoc,
      List.takeWhile_append_of_pos hk]
    simp [isPlain]
  simp only [key?, hkey]
  exact if_pos (List.isPrefixOf_iff_prefix.mpr (List.prefix_append ..))

theorem key?_eq_some_iff {f : Form} : f.key? t = some key ↔ Plain key ∧ f.pattern key <+: t := by
  constructor
  · intro h
    simp only [key?, Option.ite_none_right_eq_some, Option.some.injEq] at h
    obtain ⟨hp, rfl⟩ := h
    exact ⟨List.all_eq_true.mp List.all_takeWhile, List.isPrefixOf_iff_prefix.mp hp⟩
  · rintro ⟨hk, s, rfl⟩
    exact key?_append f hk s

def marks (t : List Char) : Bool × Bool := (t.head? == some '"', (t.drop 2).head? == some '\x7b')

theorem marks_pattern (f : Form) (hk : Plain key) (s : List Char) :
    marks (f.pattern key ++ s) = (f == quoted, f != single) := by
  cases f with
  | quoted | double => rfl
  | single =>
    cases key with
    | nil => rfl
    | cons c rest =>
      have hc : c ≠ '\x7b' := by
        rintro rfl
        exact nomatch hk '\x7b' (.head _)
      exact congrArg _ (beq_false_of_ne fun h => hc (Option.some.inj h))

theorem pattern_inj {f g : Form} (hk : Plain key) (hk' : Plain key')
    (h : f.pattern key <+: g.pattern key' ++ s) : f = g ∧ key = key' := by
  have hform : f = g := by
    obtain ⟨u, hu⟩ := h
    have hm := congrArg marks hu
    rw [marks_pattern f hk, marks_pattern g hk'] at hm
    cases f <;> cases g <;> first | rfl | exact nomatch hm
  subst hform
  have hsome := key?_eq_some_iff.mpr ⟨hk, h⟩
  rw [key?_append f hk'] at hsome
  exact ⟨rfl, (Option.some.inj hsome).symm⟩

end Form

inductive Piece where
  | char (c : Char)
  | hole (form : Form) (key : List Char)
deriving DecidableEq, Repr

def Piece.text : Piece → List Char
  | char c => [c]
  | hole f key => f.pattern key

def render (ps : List Piece) : List Char := ps.flatMap Piece.text

@[simp] theorem render_cons (p : Piece) (ps : List Piece) :
    render (p :: ps) = p.text ++ render ps := rfl

@[simp] theorem render_append (ps qs : List Piece) :
    render (ps ++ qs) = render ps ++ render qs := List.flatMap_append

@[simp] theorem render_chars (s : List Char) : render (s.map .char) = s := by
  induction s with
  | nil => rfl
  | cons c rest ih => simp [ih, Piece.text]

/-- The placeholder with which the text begins, the quoted form before the bare ones. -/
def hole? (t : List Char) : Option (Form × List Char) :=
  Form.all.findSome? fun f => (f.key? t).map (f, ·)

def readFrom (left : Nat) : List Char → List Piece
  | [] => []
  | c :: rest =>
    match left with
    | n + 1 => readFrom n rest
    | 0 =>
      match hole? (c :: rest) with
      | some (f, key) => .hole f key :: readFrom ((f.pattern key).length - 1) rest
      | none => .char c :: readFrom 0 rest

def read (t : List Char) : List Piece := readFrom 0 t

theorem readFrom_drop (left : Nat) (t : List Char) : readFrom left t = read (t.drop left) := by
  induction t generalizing left with
  | nil => simp [readFrom, read]
  | cons c rest ih =>
    cases left with
    | zero => rfl
    | succ n =>
      rw [readFrom, List.drop_succ_cons]
      exact ih n

theorem hole?_spec {t : List Char} {f : Form} {key : List Char} (h : hole? t = some (f, key)) :
    Plain key ∧ f.pattern key <+: t := by
  obtain ⟨g, -, hg⟩ := List.exists_of_findSome?_eq_some h
  obtain ⟨k, hk, he⟩ := Option.map_eq_some_iff.mp hg
  cases he
  exact Form.key?_eq_some_iff.mp hk

theorem not_prefix_of_hole?_none {t key : List Char} (h : hole? t = none) (f : Form)
    (hk : Plain key) : ¬ f.pattern key <+: t := by
  intro hp
  have hf : f ∈ Form.all := by cases f <;> decide
  have hnone := List.findSome?_eq_none_iff.mp h f hf
  rw [Form.key?_eq_some_iff.mpr ⟨hk, hp⟩] at hnone
  exact Option.some_ne_none _ hnone

theorem hole?_append {key : List Char} (hk : Plain key) (f : Form) (s : List Char) :
    hole? (f.pattern key ++ s) = some (f, key) := by
  cases h : hole? (f.pattern key ++ s) with
  | none => exact absurd (List.prefix_append ..) (not_prefix_of_hole?_none h f hk)
  | some r =>
    obtain ⟨g, key'⟩ := r
    obtain ⟨hk', hp⟩ := hole?_spec h
    obtain ⟨rfl, rfl⟩ := Form.pattern_inj hk' hk hp
    rfl

theorem read_of_hole {f : Form} {key s : List Char}
    (h : hole? (f.pattern key ++ s) = some (f, key)) :
    read (f.pattern key ++ s) = .hole f key :: read s := by
  obtain ⟨c, rest, hp⟩ := List.exists_cons_of_ne_nil (f.pattern_ne_nil key)
  rw [hp, List.cons_append] at h ⊢
  rw [read, readFrom, h]
  simp only [readFrom_drop, hp, List.length_cons, Nat.add_sub_cancel, List.drop_left]

theorem read_of_char {c : Char} {rest : List Char} (h : hole? (c :: rest) = none) :
    read (c :: rest) = .char c :: read rest := by
  rw [read, readFrom, h]
  rfl

/-- Reading goes by the placeholder or the character with which the text begins. -/
theorem read_induct {motive : List Char → Prop} (nil : motive [])
    (char : ∀ c rest, hole? (c :: rest) = none → motive rest → motive (c :: rest))
    (hole : ∀ f key s, hole? (f.pattern key ++ s) = some (f, key) → motive s →
      motive (f.pattern key ++ s)) (t : List Char) : motive t := by
  induction hn : t.length using Nat.strongRecOn generalizing t with
  | _ n ih =>
    cases t with
    | nil => exact nil
    | cons c rest =>
      cases hh : hole? (c :: rest) with
      | none => exact char c rest hh (ih rest.length (by simp [← hn]) rest rfl)
      | some r =>
        obtain ⟨f, key⟩ := r
        obtain ⟨-, s, hs⟩ := hole?_spec hh
        have hlen : s.length < n := by
          have := List.length_pos_iff.mpr (f.pattern_ne_nil key)
          rw [← hn, ← hs, List.length_append]
          omega
        rw [← hs] at hh ⊢
        exact hole f key s hh (ih s.length hlen s rfl)

theorem render_read (t : List Char) : render (read t) = t := by
  induction t using read_induct with
  | nil => rfl
  | char c rest hh ih => rw [read_of_char hh, render_cons, ih]; rfl
  | hole f key s hh ih => rw [read_of_hole hh, render_cons, ih]; rfl

/-- No dollar sign stands alone, and no bare hole in double braces stands between two quotes, where
the quoted form would have taken it. `quoted` tells whether a quote stands directly before. -/
inductive WellRead : Bool → List Piece → Prop where
  | nil {quoted : Bool} : WellRead quoted []
  | char {quoted : Bool} {c : Char} {ps : List Piece} : c ≠ '$' → WellRead (c == '"') ps →
      WellRead quoted (.char c :: ps)
  | hole {quoted : Bool} {f : Form} {key : List Char} {ps : List Piece} : Plain key →
      (f = .double → quoted = true → (render ps).head? ≠ some '"') →
      WellRead (f == .quoted) ps → WellRead quoted (.hole f key :: ps)

theorem WellRead.loosen {quoted : Bool} {ps : List Piece} (h : WellRead true ps) :
    WellRead quoted ps := by
  cases h with
  | nil => exact .nil
  | char hc hps => exact .char hc hps
  | hole hk hq hps => exact .hole hk (fun hf _ => hq hf rfl) hps

theorem not_enclosed {key : List Char} {ps : List Piece} (hk : Plain key) (h : WellRead true ps) :
    ¬ Form.double.pattern key ++ ['"'] <+: render ps := by
  intro hp
  cases h with
  | nil => exact nomatch (List.append_eq_nil_iff.mp (List.prefix_nil.mp hp)).2
  | @char _ c ps hc _ =>
    rw [render_cons] at hp
    exact hc (List.cons_prefix_cons.mp hp).1.symm
  | @hole _ g key' ps hk' hq _ =>
    rw [render_cons, Piece.text] at hp
    obtain ⟨rfl, rfl⟩ := Form.pattern_inj hk hk' ((List.prefix_append ..).trans hp)
    obtain ⟨rest, hrest⟩ := (List.prefix_append_right_inj _).mp hp
    exact hq rfl rfl (by rw [← hrest]; rfl)

theorem not_prefix_char {f : Form} {key : List Char} (hk : Plain key) {c : Char} (hc : c ≠ '$')
    {ps : List Piece} (h : WellRead (c == '"') ps) : ¬ f.pattern key <+: c :: render ps := by
  intro hp
  cases f with
  | single | double => exact hc (List.cons_prefix_cons.mp hp).1.symm
  | quoted =>
    rw [Form.quoted_pattern, List.cons_prefix_cons] at hp
    obtain ⟨rfl, hp⟩ := hp
    exact not_enclosed hk h hp

theorem read_render {quoted : Bool} {ps : List Piece} (h : WellRead quoted ps) :
    read (render ps) = ps := by
  induction h with
  | nil => rfl
  | @char _ c ps hc hps ih =>
    have hnone : hole? (c :: render ps) = none := by
      refine Option.eq_none_iff_forall_ne_some.mpr fun r hr => ?_
      obtain ⟨hk, hp⟩ := hole?_spec hr
      exact not_prefix_char hk hc hps hp
    exact (read_of_char hnone).trans (congrArg _ ih)
  | @hole _ f key ps hk _ _ ih =>
    exact (read_of_hole (hole?_append hk f (render ps))).trans (congrArg _ ih)

/-- Every dollar sign begins a placeholder, be its key bound or not. -/
def Formed (t : List Char) : Prop :=
  ∀ n, t[n]? = some '$' → ∃ key, Plain key ∧
    (Form.single.pattern key <+: t.drop n ∨ Form.double.pattern key <+: t.drop n)

def beginsBare (t : List Char) : Bool :=
  (Form.single.key? t).isSome || (Form.double.key? t).isSome

theorem beginsBare_iff {t : List Char} : beginsBare t = true ↔ ∃ key, Plain key ∧
    (Form.single.pattern key <+: t ∨ Form.double.pattern key <+: t) := by
  simp only [beginsBare, Bool.or_eq_true, Option.isSome_iff_exists, Form.key?_eq_some_iff,
    ← exists_or, ← and_or_left]

def isFormed : List Char → Bool
  | [] => true
  | c :: rest => (c != '$' || beginsBare (c :: rest)) && isFormed rest

theorem isFormed_iff {t : List Char} : isFormed t = true ↔ Formed t := by
  induction t with
  | nil => exact ⟨fun _ => nofun, fun _ => rfl⟩
  | cons c rest ih =>
    have hhead : (c != '$' || beginsBare (c :: rest)) = true ↔
        (c = '$' → beginsBare (c :: rest) = true) := by
      by_cases hc : c = '$' <;> simp [hc]
    rw [isFormed, Bool.and_eq_true, hhead, ih]
    constructor
    · rintro ⟨hfirst, hrest⟩ n hn
      cases n with
      | zero => exact beginsBare_iff.mp (hfirst (Option.some.inj hn))
      | succ n => exact hrest n hn
    · intro h
      exact ⟨fun hc => beginsBare_iff.mpr (h 0 (congrArg some hc)), fun n hn => h (n + 1) hn⟩

instance (t : List Char) : Decidable (Formed t) := decidable_of_iff _ isFormed_iff

theorem Formed.drop {t : List Char} (h : Formed t) (m : Nat) : Formed (t.drop m) := by
  intro n hc
  rw [List.getElem?_drop] at hc
  rw [List.drop_drop]
  exact h (m + n) hc

def sharedQuote : List Char := "\x7d\x7d\"$\x7b\x7b".toList

theorem wellRead_read {t : List Char} (hf : Formed t) (hs : ¬ sharedQuote <:+: t) {quoted : Bool}
    (hq : quoted = true → ∀ key, Plain key → ¬ Form.double.pattern key ++ ['"'] <+: t) :
    WellRead quoted (read t) := by
  induction t using read_induct generalizing quoted with
  | nil => exact .nil
  | char c rest hh ih =>
    rw [read_of_char hh]
    refine .char ?_ (ih (hf.drop 1) (fun hi => hs (List.infix_cons hi)) ?_)
    · rintro rfl
      obtain ⟨key, hk, hp | hp⟩ := hf 0 rfl
      · exact not_prefix_of_hole?_none hh .single hk hp
      · exact not_prefix_of_hole?_none hh .double hk hp
    · intro hc key hk hp
      refine not_prefix_of_hole?_none hh .quoted hk ?_
      rw [Form.quoted_pattern, eq_of_beq hc]
      exact List.cons_prefix_cons.mpr ⟨rfl, hp⟩
  | hole f key s hh ih =>
    rw [read_of_hole hh]
    have hfs : Formed s := by
      have hd := hf.drop (f.pattern key).length
      rwa [List.drop_left] at hd
    have hss : ¬ sharedQuote <:+: s := fun hi =>
      hs (hi.trans (List.suffix_append ..).isInfix)
    refine .hole (hole?_spec hh).1 ?_ (ih hfs hss ?_)
    · rintro rfl hquoted hhead
      rw [render_read] at hhead
      obtain ⟨rest, rfl⟩ := List.head?_eq_some_iff.mp hhead
      exact hq hquoted key (hole?_spec hh).1 ⟨rest, by simp⟩
    · rintro hquoted key' - ⟨rest, rfl⟩
      -- the quote that ends this hole would be the one that begins the next
      obtain rfl := eq_of_beq hquoted
      refine hs ⟨Form.quoted.opening ++ key, key' ++ '\x7d' :: (Form.quoted.ending ++ rest), ?_⟩
      rw [show sharedQuote = ['\x7d', '\x7d', '"', '$', '\x7b', '\x7b'] from rfl]
      simp [Form.pattern_eq, Form.opening, Form.ending]

end Quiesce.Template
