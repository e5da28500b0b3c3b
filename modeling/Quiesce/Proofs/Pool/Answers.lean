import Quiesce.Proofs.Pool.Wakeup

set_option autoImplicit false

namespace Quiesce.Pool

variable {τ : Type}

def Move.call? : Move τ → Option Nat
  | nudge c _ => some c
  | cancelTasks c => some c
  | rouse c => some c
  | stopReleased c => some c
  | watch c => some c
  | stir c => some c
  | _ => none

namespace Stage

/-- The call has taken effect and will answer `a`. -/
inductive Owes : Answer → Stage → Prop where
  | answered (a : Answer) : Owes a (.answered a)
  | nudging : Owes .accepted .nudging
  | cancelling (abandoned running : Nat) :
      Owes (.discarded abandoned) (.cancelling abandoned running)
  | rousing (mode : StopMode) (abandoned running : Nat) :
      Owes (.discarded abandoned) (.rousing mode abandoned running)

theorem Owes.next {m n : Machine τ} {s s' : Stage} {a : Answer} (h : s.Owes a)
    (hn : s.Next m n s') : s'.Owes a := by
  cases h with
  | answered a =>
    cases hn
    exact .answered a
  | nudging =>
    cases hn with
    | same => exact .nudging
    | nudged => exact .answered _
  | cancelling abandoned running =>
    cases hn with
    | same => exact .cancelling _ _
    | cancelled => exact .rousing _ _ _
  | rousing mode abandoned running =>
    cases hn with
    | same => exact .rousing _ _ _
    | roused => exact .answered _

theorem eq_answered {s : Stage} {a : Answer} (h : s.answer? = some a) : s = .answered a := by
  cases s with
  | answered b => exact congrArg _ (Option.some.inj h)
  | _ => simp [answer?] at h

end Stage

namespace Machine

variable {m n o : Machine τ} {x : Move τ} {c : Nat} {k : Call} {a b : Answer}

def answer? (m : Machine τ) (c : Nat) : Option Answer := (m.calls[c]?).bind fun k => k.stage.answer?

def CanReturn (m : Machine τ) (c : Nat) (a : Answer) : Prop :=
  ∃ moves o, (∀ x ∈ moves, x.call? = some c) ∧ m.run? moves = some o ∧ o.answer? c = some a

/-- Whatever happens meanwhile, the call `c` can come to the answer `a` by moves of its own. -/
def Returns (m : Machine τ) (c : Nat) (a : Answer) : Prop := ∀ n, m.Reaches n → n.CanReturn c a

def Replies (m : Machine τ) (x : Move τ) (a : Answer) : Prop :=
  ∃ n, m.step? x = some n ∧ n.Returns m.calls.length a

theorem answer?_eq (hk : m.calls[c]? = some k) : m.answer? c = k.stage.answer? := by
  simp only [answer?, hk, Option.bind_some]

theorem answer?_step (h : Step m x n) (ha : m.answer? c = some a) : n.answer? c = some a := by
  obtain ⟨k, hk, hs⟩ := Option.bind_eq_some_iff.mp ha
  obtain ⟨⟨actor, s⟩, hk', -, hn⟩ := step_call h hk
  rw [Stage.eq_answered hs] at hn
  rw [answer?_eq hk']
  cases hn
  rfl

theorem answer?_of_reaches (h : m.Reaches n) (ha : m.answer? c = some a) :
    n.answer? c = some a :=
  Reaches.keeps (P := fun o => o.answer? c = some a) answer?_step h ha

theorem Returns.answer_eq (h : m.Returns c a) (hr : m.Reaches n) (hb : n.answer? c = some b) :
    b = a := by
  obtain ⟨moves, o, -, ho, ha⟩ := h n hr
  exact Option.some.inj ((answer?_of_reaches ⟨moves, ho⟩ hb).symm.trans ha)

theorem Returns.unique (h : m.Returns c a) (k : m.Returns c b) : b = a := by
  obtain ⟨moves, o, -, ho, hb⟩ := k m (.refl m)
  exact h.answer_eq ⟨moves, ho⟩ hb

theorem Replies.unique (h : m.Replies x a) (k : m.Replies x b) : b = a := by
  obtain ⟨n, hn, ha⟩ := h
  obtain ⟨o, ho, hb⟩ := k
  obtain rfl := Option.some.inj (hn.symm.trans ho)
  exact ha.unique hb

theorem Replies.answer_eq (h : m.Replies x a) (hx : m.step? x = some n) (hr : n.Reaches o)
    (hb : o.answer? m.calls.length = some b) : b = a := by
  obtain ⟨n', hn', ha⟩ := h
  obtain rfl := Option.some.inj (hn'.symm.trans hx)
  exact ha.answer_eq hr hb

/-- What every move keeps, and from where the call can come to its answer, makes it sure. -/
theorem Returns.intro {P : Machine τ → Prop} (keeps : ∀ {m n x}, Step m x n → P m → P n)
    (ends : ∀ {m}, P m → m.CanReturn c a) (hm : P m) : m.Returns c a :=
  fun _ hr => ends (Reaches.keeps keeps hr hm)

theorem CanReturn.answered (h : m.answer? c = some a) : m.CanReturn c a := ⟨[], m, nofun, rfl, h⟩

theorem CanReturn.prepend (h : n.CanReturn c a) (hx : x.call? = some c) (hs : m.step? x = some n) :
    m.CanReturn c a := by
  obtain ⟨moves, o, hown, ho, ha⟩ := h
  refine ⟨x :: moves, o, List.forall_mem_cons.mpr ⟨hx, hown⟩, ?_, ha⟩
  rw [run?, hs]
  exact ho

theorem advance_get (hk : m.calls[c]? = some k) (actor : Actor) (s : Stage) :
    (m.calls.set c ⟨actor, s⟩)[c]? = some ⟨actor, s⟩ := by
  obtain ⟨hc, -⟩ := List.getElem?_eq_some_iff.mp hk
  exact List.getElem?_set_self hc

theorem answer?_advance (hk : m.calls[c]? = some k) (actor : Actor) (a : Answer) :
    (m.advance c actor (.answered a)).answer? c = some a := by
  rw [answer?_eq (m := m.advance c actor (.answered a)) (advance_get hk actor (.answered a))]
  rfl

theorem reaches_range : m.reaches (List.range m.workers.length) = true := by
  rw [reaches_iff]
  rcases Nat.eq_zero_or_pos m.parked with hz | hpos
  · exact .inl hz
  · obtain ⟨p, hp, hparked⟩ := List.countP_pos_iff.mp hpos
    obtain ⟨w, hw, he⟩ := List.mem_iff_getElem.mp hp
    refine .inr ⟨w, List.mem_range.mpr hw, ?_⟩
    rw [List.getElem?_eq_getElem hw, he]
    cases p <;> first | rfl | exact nomatch hparked

theorem nudge_own {actor : Actor} (hk : m.calls[c]? = some ⟨actor, .nudging⟩) :
    ∃ n, m.step? (.nudge c (List.range m.workers.length)) = some n ∧
      n.calls[c]? = some ⟨actor, .answered .accepted⟩ := by
  simp [step?, nudge, hk, reaches_range, advance, advance_get hk]

theorem rouse_own {actor : Actor} {mode : StopMode} {abandoned running : Nat}
    (hk : m.calls[c]? = some ⟨actor, .rousing mode abandoned running⟩) :
    ∃ n, m.step? (.rouse c) = some n ∧
      n.calls[c]? = some ⟨actor, .answered (.discarded abandoned)⟩ := by
  simp [step?, rouse, hk, advance, advance_get hk]

theorem cancelTasks_own {actor : Actor} {abandoned running : Nat}
    (hk : m.calls[c]? = some ⟨actor, .cancelling abandoned running⟩) :
    ∃ n, m.step? (.cancelTasks c) = some n ∧
      n.calls[c]? = some ⟨actor, .rousing .forced abandoned running⟩ := by
  simp [step?, cancelTasks, hk, advance, advance_get hk]

def Owing (m : Machine τ) (c : Nat) (a : Answer) : Prop :=
  ∃ k, m.calls[c]? = some k ∧ k.stage.Owes a

theorem Owing.step (h : Step m x n) (ho : m.Owing c a) : n.Owing c a := by
  obtain ⟨k, hk, hs⟩ := ho
  obtain ⟨k', hk', -, hn⟩ := step_call h hk
  exact ⟨k', hk', hs.next hn⟩

theorem Owing.canReturn (ho : m.Owing c a) : m.CanReturn c a := by
  obtain ⟨⟨actor, s⟩, hk, hs⟩ := ho
  cases hs with
  | answered => exact .answered (answer?_eq hk)
  | nudging =>
    obtain ⟨n, hn, ha⟩ := nudge_own hk
    exact .prepend (.answered (answer?_eq ha)) rfl hn
  | rousing mode abandoned running =>
    obtain ⟨n, hn, ha⟩ := rouse_own hk
    exact .prepend (.answered (answer?_eq ha)) rfl hn
  | cancelling abandoned running =>
    obtain ⟨n, hn, hr⟩ := cancelTasks_own hk
    obtain ⟨o, ho, ha⟩ := rouse_own hr
    exact .prepend (.prepend (.answered (answer?_eq ha)) rfl ho) rfl hn

theorem Owing.returns (ho : m.Owing c a) : m.Returns c a := .intro Owing.step Owing.canReturn ho

theorem owing_begin {actor : Actor} {s : Stage} (hs : s.Owes a) :
    (m.begin actor s).Owing m.calls.length a :=
  ⟨⟨actor, s⟩, List.getElem?_concat_length, hs⟩

theorem replies_requestStop (ho : m.isOpen = true) (actor : Actor) (mode : StopMode) :
    m.Replies (.requestStop actor mode) (.discarded (m.shared.discarded mode).length) := by
  refine ⟨m.requestStop actor mode, onceOpen_eq_some.mpr ⟨ho, rfl⟩, Owing.returns ?_⟩
  cases mode with
  | graceful => exact owing_begin (m := m.stopWith .graceful) (.rousing _ _ _)
  | forced => exact owing_begin (m := m.stopWith .forced) (.cancelling _ _)

theorem replies_ask (ho : m.isOpen = true) (actor : Actor) (q : Question) :
    m.Replies (.ask actor q) (m.reply q) :=
  ⟨m.ask actor q, onceOpen_eq_some.mpr ⟨ho, rfl⟩, (owing_begin (.answered _)).returns⟩

theorem replies_refused (ho : m.isOpen = true) {t : τ} {why : Refusal}
    (hs : m.shared.submit m.capacity t = .error why) (actor : Actor) :
    m.Replies (.submit actor t) (.refused why) := by
  refine ⟨m.begin actor (.answered (.refused why)), ?_, (owing_begin (.answered _)).returns⟩
  simp [step?, onceOpen, ho, submit, hs]

theorem replies_accepted (ho : m.isOpen = true) {t : τ} {s : Shared τ}
    (hs : m.shared.submit m.capacity t = .ok s) (actor : Actor) :
    m.Replies (.submit actor t) .accepted := by
  refine ⟨m.submit actor t, onceOpen_eq_some.mpr ⟨ho, rfl⟩, Owing.returns ?_⟩
  refine ⟨⟨actor, .nudging⟩, ?_, .nudging⟩
  simp [submit, hs, begin]

end Machine

end Quiesce.Pool
