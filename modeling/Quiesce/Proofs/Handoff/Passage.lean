import Quiesce.Basic
import Quiesce.Handoff

set_option autoImplicit false

namespace Quiesce.Handoff

namespace Channel

variable {c : Channel} {s : Signal} {rest : List Signal}

theorem deposit_of_deaf (h : c.listening = false) : c.deposit s = .error (.closed s) := by
  simp [deposit, h]

theorem deposit_of_full (h : c.listening = true) (hf : c.capacity ≤ c.pending.length) :
    c.deposit s = .error (.full s) := by
  simp [deposit, h, hf]

theorem deposit_of_room (h : c.listening = true) (hr : c.pending.length < c.capacity) :
    c.deposit s = .ok { c with pending := c.pending ++ [s] } := by
  simp [deposit, h, Nat.not_le.mpr hr]

theorem find_of_pending (h : c.pending = s :: rest) :
    c.find = .signal s { c with pending := rest } := by
  simp only [find, h]

theorem find_of_senderless (h : c.pending = []) (hs : c.senders = 0) : c.find = .senderless := by
  simp only [find, h, hs, ↓reduceIte]

theorem find_of_silence (h : c.pending = []) (hs : 0 < c.senders) : c.find = .nothing := by
  simp only [find, h, Nat.ne_of_gt hs, ↓reduceIte]

end Channel

namespace Passage

variable {p n : Passage} {x : Move} {s : Signal} {ask : Ask} {room : Nat}

inductive Step (p : Passage) : Move → Passage → Prop where
  | accept {s : Signal} : 0 < p.channel.senders → p.channel.listening = true →
      p.pending.length < p.channel.capacity →
      Step p (.deposit s) { p with
        channel := { p.channel with pending := p.pending ++ [s] }
        deposits := p.deposits ++ [(s, none)] }
  | full {s : Signal} : 0 < p.channel.senders → p.channel.listening = true →
      p.channel.capacity ≤ p.pending.length →
      Step p (.deposit s) { p with deposits := p.deposits ++ [(s, some (.full s))] }
  | closed {s : Signal} : 0 < p.channel.senders → p.channel.listening = false →
      Step p (.deposit s) { p with deposits := p.deposits ++ [(s, some (.closed s))] }
  | addSender : 0 < p.channel.senders →
      Step p .addSender { p with channel := p.channel.addSender }
  | dropSender : 0 < p.channel.senders →
      Step p .dropSender { p with channel := p.channel.dropSender }
  | dropReceiver : p.channel.listening = true → p.waiting = none →
      Step p .dropReceiver { p with channel := p.channel.dropReceiver }
  | await {ask : Ask} {timeout : Duration} : p.channel.listening = true → p.waiting = none →
      Step p (.await ask timeout) { p with waiting := some (ask, .after p.now timeout) }
  | receive {ask : Ask} {deadline : Deadline} {s : Signal} {rest : List Signal} :
      p.waiting = some (ask, deadline) → p.pending = s :: rest →
      Step p .look (p.conclude ask (.signal s) { p.channel with pending := rest })
  | senderless {ask : Ask} {deadline : Deadline} :
      p.waiting = some (ask, deadline) → p.pending = [] → p.channel.senders = 0 →
      Step p .look (p.conclude ask .senderless p.channel)
  | timeOut {ask : Ask} {d : Instant} :
      p.waiting = some (ask, some d) → p.pending = [] → 0 < p.channel.senders → d ≤ p.now →
      Step p .look (p.conclude ask .timedOut p.channel)
  | elapse {k : Nat} : Step p (.elapse k) { p with now := p.now + k }

theorem bySender_eq_some {next : Passage} :
    p.bySender next = some n ↔ 0 < p.channel.senders ∧ next = n := by
  unfold bySender
  by_cases h : 0 < p.channel.senders <;> simp [h]

theorem byReceiver_eq_some {next : Passage} :
    p.byReceiver next = some n ↔
      p.channel.listening = true ∧ p.waiting = none ∧ next = n := by
  unfold byReceiver
  cases p.channel.listening <;> cases p.waiting <;> simp

theorem step_of_deposit (hs : 0 < p.channel.senders) (s : Signal) :
    Step p (.deposit s) (p.deposit s) := by
  cases hl : p.channel.listening with
  | false =>
    rw [deposit, Channel.deposit_of_deaf hl]
    exact .closed hs hl
  | true =>
    by_cases hf : p.channel.capacity ≤ p.pending.length
    · rw [deposit, Channel.deposit_of_full hl hf]
      exact .full hs hl hf
    · have hr : p.pending.length < p.channel.capacity := Nat.lt_of_not_le hf
      rw [deposit, Channel.deposit_of_room hl hr]
      exact .accept hs hl hr

theorem step_of_look (h : p.look = some n) : Step p .look n := by
  unfold look at h
  cases hw : p.waiting with
  | none => simp [hw] at h
  | some w =>
    obtain ⟨ask, deadline⟩ := w
    cases hq : p.pending with
    | cons s rest =>
      simp only [hw, Channel.find_of_pending hq, Option.some.injEq] at h
      subst h
      exact .receive hw hq
    | nil =>
      by_cases hs : p.channel.senders = 0
      · simp only [hw, Channel.find_of_senderless hq hs, Option.some.injEq] at h
        subst h
        exact .senderless hw hq hs
      · have hpos : 0 < p.channel.senders := Nat.pos_of_ne_zero hs
        simp only [hw, Channel.find_of_silence hq hpos] at h
        cases deadline with
        | none => simp at h
        | some d =>
          by_cases hd : d ≤ p.now
          · simp only [Option.any_some, hd, decide_true, ↓reduceIte, Option.some.injEq] at h
            subst h
            exact .timeOut hw hq hpos hd
          · simp [hd] at h

theorem step_of_step? (h : p.step? x = some n) : Step p x n := by
  cases x with
  | deposit s =>
    obtain ⟨hs, rfl⟩ := bySender_eq_some.mp h
    exact step_of_deposit hs s
  | addSender =>
    obtain ⟨hs, rfl⟩ := bySender_eq_some.mp h
    exact .addSender hs
  | dropSender =>
    obtain ⟨hs, rfl⟩ := bySender_eq_some.mp h
    exact .dropSender hs
  | dropReceiver =>
    obtain ⟨hl, hw, rfl⟩ := byReceiver_eq_some.mp h
    exact .dropReceiver hl hw
  | await ask timeout =>
    obtain ⟨hl, hw, rfl⟩ := byReceiver_eq_some.mp h
    exact .await hl hw
  | look => exact step_of_look h
  | elapse k =>
    obtain rfl := Option.some.inj h
    exact .elapse

structure Kept (room : Nat) (p : Passage) : Prop where
  capacity : p.channel.capacity = room
  bounded : p.pending.length ≤ room
  inOrder : p.channel.listening = true → p.deposited = p.delivered ++ p.pending
  delivered : p.delivered <+: p.deposited
  emptied : p.channel.listening = false → p.pending = []

theorem kept_start (capacity : Nat) : Kept (max capacity 1) (start capacity) where
  capacity := rfl
  bounded := Nat.zero_le _
  inOrder _ := rfl
  delivered := List.nil_prefix
  emptied _ := rfl

theorem deposited_append (e : Option DepositError) :
    (p.deposits ++ [(s, e)]).filterMap (fun d => if d.2.isNone then some d.1 else none) =
      p.deposited ++ if e.isNone then [s] else [] := by
  cases e <;> simp [deposited]

theorem delivered_conclude (ask : Ask) (r : Receipt) (c : Channel) :
    (p.conclude ask r c).delivered = p.delivered ++ r.signal?.toList := by
  cases r <;> simp [delivered, conclude, Receipt.signal?]

theorem Kept.conclude (hk : Kept room p) (ask : Ask) {r : Receipt} (hr : r.signal? = none) :
    Kept room (p.conclude ask r p.channel) := by
  have hd : (p.conclude ask r p.channel).delivered = p.delivered := by
    rw [delivered_conclude, hr]
    exact List.append_nil _
  exact ⟨hk.capacity, hk.bounded, by rw [hd]; exact hk.inOrder, by rw [hd]; exact hk.delivered,
    hk.emptied⟩

theorem Kept.refuse (hk : Kept room p) (s : Signal) (e : DepositError) :
    Kept room { p with deposits := p.deposits ++ [(s, some e)] } := by
  have hd : ({ p with deposits := p.deposits ++ [(s, some e)] } : Passage).deposited =
      p.deposited := (deposited_append _).trans (List.append_nil _)
  exact ⟨hk.capacity, hk.bounded, by rw [hd]; exact hk.inOrder, by rw [hd]; exact hk.delivered,
    hk.emptied⟩

theorem Kept.step (h : Step p x n) (hk : Kept room p) : Kept room n := by
  cases h with
  | @accept s _ hl hr =>
    have hd : ({ p with
        channel := { p.channel with pending := p.pending ++ [s] }
        deposits := p.deposits ++ [(s, none)] } : Passage).deposited = p.deposited ++ [s] :=
      deposited_append none
    refine ⟨hk.capacity, ?_, fun _ => ?_, ?_, fun hn => nomatch hl.symm.trans hn⟩
    · rw [hk.capacity] at hr
      change (p.pending ++ [s]).length ≤ room
      rw [List.length_append]
      exact hr
    · rw [hd, hk.inOrder hl, List.append_assoc]
      rfl
    · rw [hd]
      exact hk.delivered.trans (List.prefix_append _ _)
  | full => exact hk.refuse _ _
  | closed => exact hk.refuse _ _
  | addSender | dropSender | await | elapse =>
    exact ⟨hk.capacity, hk.bounded, hk.inOrder, hk.delivered, hk.emptied⟩
  | dropReceiver =>
    exact ⟨hk.capacity, Nat.zero_le _, fun hl => (nomatch hl), hk.delivered, fun _ => rfl⟩
  | @receive ask _ s rest _ hq =>
    -- Once the receiver is gone nothing is pending, so somebody listens here.
    have hl : p.channel.listening = true := by
      cases hl : p.channel.listening with
      | true => rfl
      | false =>
        rw [hk.emptied hl] at hq
        exact nomatch hq
    have hb := hk.bounded
    have hall := hk.inOrder hl
    rw [hq] at hb hall
    have hd : p.deposited = (p.delivered ++ [s]) ++ rest := by
      rw [hall, List.append_assoc]
      rfl
    refine ⟨hk.capacity, Nat.le_of_succ_le hb, fun _ => ?_, ?_,
      fun hn => nomatch hl.symm.trans hn⟩
    · rw [delivered_conclude]
      exact hd
    · rw [delivered_conclude]
      exact ⟨rest, hd.symm⟩
  | senderless => exact hk.conclude _ rfl
  | timeOut => exact hk.conclude _ rfl

theorem runs : Runs step? run? := ⟨fun _ => rfl, fun _ _ _ => rfl⟩

theorem run?_cons {rest : List Move} :
    p.run? (x :: rest) = some n ↔ ∃ o, p.step? x = some o ∧ o.run? rest = some n :=
  runs.cons_eq_some

theorem run?_keeps {P : Passage → Prop} (keeps : ∀ {p n x}, Step p x n → P p → P n)
    {moves : List Move} (h : p.run? moves = some n) (hp : P p) : P n :=
  runs.keeps_all (fun hs => keeps (step_of_step? hs)) h hp

theorem kept_of_run {capacity : Nat} {moves : List Move}
    (h : (start capacity).run? moves = some p) : Kept (max capacity 1) p :=
  run?_keeps Kept.step h (kept_start capacity)

theorem listening_step (h : Step p x n) :
    n.channel.listening = true ↔ p.channel.listening = true ∧ x ≠ .dropReceiver := by
  cases h <;> simp [Channel.addSender, Channel.dropSender, Channel.dropReceiver, conclude, *]

theorem listening_run {moves : List Move} (h : p.run? moves = some n) :
    n.channel.listening = true ↔ p.channel.listening = true ∧ Move.dropReceiver ∉ moves := by
  induction moves generalizing p with
  | nil =>
    obtain rfl := Option.some.inj h
    simp
  | cons x rest ih =>
    obtain ⟨o, hs, hr⟩ := run?_cons.mp h
    rw [ih hr, listening_step (step_of_step? hs), List.mem_cons, not_or, and_assoc, ne_comm]

/-- How a deposit comes out: by whether somebody listens, and by the room that is left. -/
structure Admits (room : Nat) (p : Passage) (s : Signal) : Prop where
  atOnce : 0 < p.channel.senders → p.step? (.deposit s) = some (p.deposit s)
  taken : p.channel.deposit s = .ok { p.channel with pending := p.pending ++ [s] } ↔
    p.channel.listening = true ∧ p.pending.length < room
  full : p.channel.deposit s = .error (.full s) ↔
    p.channel.listening = true ∧ p.pending.length = room
  closed : p.channel.deposit s = .error (.closed s) ↔ p.channel.listening = false

theorem Kept.admits (hk : Kept room p) (s : Signal) : Admits room p s := by
  have atOnce (hs : 0 < p.channel.senders) : p.step? (.deposit s) = some (p.deposit s) :=
    bySender_eq_some.mpr ⟨hs, rfl⟩
  cases hl : p.channel.listening with
  | false =>
    have hd := Channel.deposit_of_deaf (s := s) hl
    exact ⟨atOnce, by simp [hd, hl], by simp [hd, hl], by simp [hd, hl]⟩
  | true =>
    have hb := hk.bounded
    by_cases hr : p.pending.length < room
    · have hd := Channel.deposit_of_room (s := s) hl (hk.capacity ▸ hr)
      have hne : p.pending.length ≠ room := Nat.ne_of_lt hr
      exact ⟨atOnce, by simpa [hd, hl, pending] using hr, by simp [hd, hne], by simp [hd, hl]⟩
    · have hf : p.pending.length = room := Nat.le_antisymm hb (Nat.le_of_not_lt hr)
      have hd := Channel.deposit_of_full (s := s) hl (hk.capacity ▸ Nat.le_of_eq hf.symm)
      exact ⟨atOnce, by simp [hd, hr], by simp [hd, hl, hf], by simp [hd, hl]⟩

/-- What one move does to the pending signals. The end of a wait takes the signal that it ends
with, if any, which is then delivered and told to the caller; nothing else takes a signal, unless
the receiver goes. -/
structure Handles (p : Passage) (x : Move) (n : Passage) : Prop where
  ended : x = .look → ∃ (ask : Ask) (r : Receipt), n.replies = p.replies ++ [ask.reply r] ∧
    n.delivered = p.delivered ++ r.signal?.toList ∧ p.pending = r.signal?.toList ++ n.pending
  other : x ≠ .look → x ≠ .dropReceiver →
    n.receipts = p.receipts ∧ p.pending <+: n.pending

theorem handles_conclude {r : Receipt} {c : Channel}
    (h : p.pending = r.signal?.toList ++ c.pending) :
    Handles p .look (p.conclude ask r c) :=
  ⟨fun _ => ⟨ask, r, List.map_append, delivered_conclude ask r c, h⟩, fun hx => absurd rfl hx⟩

theorem handles_of_step (h : Step p x n) : Handles p x n := by
  cases h with
  | accept => exact ⟨nofun, fun _ _ => ⟨rfl, List.prefix_append _ _⟩⟩
  | full | closed | addSender | dropSender | await | elapse =>
    exact ⟨nofun, fun _ _ => ⟨rfl, List.prefix_rfl⟩⟩
  | dropReceiver => exact ⟨nofun, fun _ hx => absurd rfl hx⟩
  | receive _ hq => exact handles_conclude hq
  | senderless | timeOut => exact handles_conclude rfl

/-- What has been deposited is what has been delivered and then what is pending, at every moment
of every run, with room for at least one signal. -/
theorem handed_over_in_order {capacity : Nat} {moves : List Move} {p : Passage}
    (h : (start capacity).run? moves = some p) :
    (p.channel.listening = true ↔ Move.dropReceiver ∉ moves) ∧ Kept (max capacity 1) p ∧
      (∀ s, Admits (max capacity 1) p s) ∧ ∀ x n, p.step? x = some n → Handles p x n := by
  have hk : Kept (max capacity 1) p := kept_of_run h
  refine ⟨?_, hk, hk.admits, fun x n hs => handles_of_step (step_of_step? hs)⟩
  rw [listening_run h]
  exact and_iff_right rfl

def errand : List Move :=
  [.addSender, .deposit (.ready true), .deposit (.failed ⟨"late", []⟩),
    .await (.readiness "here") ⟨5⟩, .look, .deposit (.ready false), .await .signal ⟨0⟩, .look,
    .deposit (.failed ⟨"unread", []⟩), .dropSender, .dropReceiver, .deposit (.ready true)]

theorem errand_in_order :
    (∃ p, (start 0).run? (errand.take 9) = some p ∧
      p.deposited = [.ready true, .ready false, .failed ⟨"unread", []⟩] ∧
      p.replies = [.readiness (.ok true), .signal (some (.ready false))] ∧
      p.deposited = p.delivered ++ p.pending) ∧
    ∃ p, (start 0).run? errand = some p ∧
      p.deposits = [(.ready true, none),
        (.failed ⟨"late", []⟩, some (.full (.failed ⟨"late", []⟩))),
        (.ready false, none), (.failed ⟨"unread", []⟩, none),
        (.ready true, some (.closed (.ready true)))] ∧
      p.delivered = [.ready true, .ready false] ∧ p.delivered <+: p.deposited ∧
      p.channel.deposit (.ready false) = .error (.closed (.ready false)) := by
  constructor
  · refine ⟨_, rfl, rfl, rfl, ?_⟩
    obtain ⟨-, hk, -, -⟩ :=
      handed_over_in_order (show (start 0).run? (errand.take 9) = some _ from rfl)
    exact hk.inOrder rfl
  · refine ⟨_, rfl, rfl, rfl, ?_⟩
    obtain ⟨-, hk, hdeposit, -⟩ :=
      handed_over_in_order (show (start 0).run? errand = some _ from rfl)
    exact ⟨hk.delivered, (hdeposit (.ready false)).closed.mpr rfl⟩

end Passage

end Quiesce.Handoff
