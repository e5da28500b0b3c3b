import Quiesce.Proofs.Handoff.Passage

set_option autoImplicit false

namespace Quiesce.Handoff

namespace Act

def move : Act → Move
  | deposit s => .deposit s
  | dropSender => .dropSender

def drops : Act → Nat
  | deposit _ => 0
  | dropSender => 1

end Act

def Held : Nat → Agenda → Prop
  | _, [] => True
  | k, (_, a) :: rest => 0 < k ∧ Held (k - a.drops) rest

def acts (moves : List Move) : List Move :=
  moves.filter fun x => match x with
    | .look => false
    | .elapse _ => false
    | _ => true

namespace Channel

variable {c : Channel} {s : Signal} {rest : List Signal} {deadline : Deadline} {agenda : Agenda}

theorem senders_act (c : Channel) (a : Act) : (c.act a).senders = c.senders - a.drops := by
  cases a with
  | dropSender => rfl
  | deposit s =>
    unfold act deposit
    cases c.listening
    · rfl
    · by_cases hf : c.capacity ≤ c.pending.length <;> simp [hf, Act.drops]

theorem receive_of_pending (h : c.pending = s :: rest) :
    receive deadline agenda c = ⟨some (.signal s), { c with pending := rest }, agenda⟩ := by
  unfold receive
  rw [find_of_pending h]

theorem receive_of_senderless (h : c.pending = []) (hs : c.senders = 0) :
    receive deadline agenda c = ⟨some .senderless, c, agenda⟩ := by
  unfold receive
  rw [find_of_senderless h hs]

theorem receive_of_silence (h : c.pending = []) (hs : 0 < c.senders) :
    receive deadline agenda c = match agenda, deadline with
      | [], none => ⟨none, c, []⟩
      | [], some _ => ⟨some .timedOut, c, []⟩
      | (_, a) :: rest, none => receive none rest (c.act a)
      | (t, a) :: rest, some d =>
        if d < t then ⟨some .timedOut, c, (t, a) :: rest⟩
        else receive (some d) rest (c.act a) := by
  conv => lhs; unfold receive
  rw [find_of_silence h hs]
  cases agenda <;> cases deadline <;> rfl

end Channel

namespace Passage

variable {p n : Passage} {ask : Ask} {deadline : Deadline} {agenda : Agenda} {s : Signal}
  {rest : List Signal}

theorem look_of_pending (hw : p.waiting = some (ask, deadline)) (hq : p.pending = s :: rest) :
    p.look = some (p.conclude ask (.signal s) { p.channel with pending := rest }) := by
  simp only [look, hw, Channel.find_of_pending hq]

theorem look_of_senderless (hw : p.waiting = some (ask, deadline)) (hq : p.pending = [])
    (hs : p.channel.senders = 0) : p.look = some (p.conclude ask .senderless p.channel) := by
  simp only [look, hw, Channel.find_of_senderless hq hs]

theorem look_of_timeOut {d : Instant} (hw : p.waiting = some (ask, some d)) (hq : p.pending = [])
    (hs : 0 < p.channel.senders) (hd : d ≤ p.now) :
    p.look = some (p.conclude ask .timedOut p.channel) := by
  simp only [look, hw, Channel.find_of_silence hq hs, Option.any_some, hd, decide_true,
    ↓reduceIte]

theorem step_act (hs : 0 < p.channel.senders) (a : Act) :
    ∃ n, p.step? a.move = some n ∧ n.channel = p.channel.act a ∧ n.waiting = p.waiting ∧
      n.receipts = p.receipts := by
  cases a with
  | dropSender => exact ⟨_, bySender_eq_some.mpr ⟨hs, rfl⟩, rfl, rfl, rfl⟩
  | deposit s =>
    refine ⟨p.deposit s, bySender_eq_some.mpr ⟨hs, rfl⟩, ?_, ?_, ?_⟩ <;>
      cases hd : p.channel.deposit s <;> simp [deposit, Channel.act, hd]

/-- The wait of `p` comes out as `w`: with the first look that ends it, if any does, and what has
happened before is on the agenda. -/
structure ComesTo (p : Passage) (ask : Ask) (agenda : Agenda) (w : Wait) : Prop where
  run : ∃ moves n, Move.look ∉ moves ∧
    p.run? (moves ++ if w.receipt.isSome then [.look] else []) = some n ∧
    n.channel = w.channel ∧
    n.receipts = p.receipts ++ (w.receipt.map fun r => (ask, r)).toList ∧
    n.waiting = (if w.receipt.isSome then none else p.waiting) ∧
    acts moves ++ w.later.map (fun e => e.2.move) = agenda.map fun e => e.2.move

theorem ComesTo.conclude {r : Receipt} {c : Channel} (k : Nat)
    (h : ({ p with now := p.now + k } : Passage).look =
      some (({ p with now := p.now + k } : Passage).conclude ask r c)) :
    p.ComesTo ask agenda ⟨some r, c, agenda⟩ := by
  refine ⟨[.elapse k], ({ p with now := p.now + k } : Passage).conclude ask r c, by simp, ?_,
    rfl, rfl, rfl, rfl⟩
  change p.run? [.elapse k, .look] = _
  simp only [run?, step?, h, Option.bind_some]

theorem ComesTo.after {w : Wait} (t : Instant) {a : Act} (hs : 0 < p.channel.senders)
    (h : ∀ n : Passage, n.channel = p.channel.act a → n.waiting = p.waiting →
      n.receipts = p.receipts → n.ComesTo ask agenda w) :
    p.ComesTo ask ((t, a) :: agenda) w := by
  -- The clock is brought to the event's time first.
  obtain ⟨n, hstep, hc, hw, hr⟩ :=
    step_act (p := { p with now := p.now + (t - p.now) }) hs a
  obtain ⟨moves, o, hlook, hrun, hoc, hor, how, hacts⟩ := (h n hc hw hr).run
  refine ⟨.elapse (t - p.now) :: a.move :: moves, o, ?_, ?_, hoc, by rw [hor, hr], by rw [how, hw],
    ?_⟩
  · cases a <;> simpa [Act.move] using hlook
  · simp only [List.cons_append, run?, step?] at hstep ⊢
    rw [Option.bind_some, hstep, Option.bind_some, hrun]
  · rw [List.map_cons, ← hacts]
    cases a <;> rfl

theorem comesTo_of_found (hw : p.waiting = some (ask, deadline))
    (h : p.pending ≠ [] ∨ p.channel.senders = 0) :
    p.ComesTo ask agenda (Channel.receive deadline agenda p.channel) := by
  cases hq : p.pending with
  | cons s rest =>
    rw [Channel.receive_of_pending hq]
    exact .conclude 0 (look_of_pending hw hq)
  | nil =>
    have hs : p.channel.senders = 0 := h.resolve_left fun hn => hn hq
    rw [Channel.receive_of_senderless hq hs]
    exact .conclude 0 (look_of_senderless hw hq hs)

theorem comesTo_timedOut {d : Instant} (hw : p.waiting = some (ask, some d))
    (hq : p.pending = []) (hs : 0 < p.channel.senders) :
    p.ComesTo ask agenda ⟨some .timedOut, p.channel, agenda⟩ := by
  have hd : d ≤ p.now + (d - p.now) := Nat.sub_le_iff_le_add'.mp (Nat.le_refl _)
  exact .conclude (d - p.now) (look_of_timeOut hw hq hs hd)

/-- The course that `Channel.receive` takes is a run: the same end of the wait, the same channel
after it, and the same events left. -/
theorem comesTo_receive (hw : p.waiting = some (ask, deadline))
    (hf : Held p.channel.senders agenda) :
    p.ComesTo ask agenda (Channel.receive deadline agenda p.channel) := by
  induction agenda generalizing p with
  | nil =>
    by_cases hfound : p.pending ≠ [] ∨ p.channel.senders = 0
    · exact comesTo_of_found hw hfound
    · obtain ⟨hq, hs⟩ := not_or.mp hfound
      rw [Channel.receive_of_silence (Decidable.not_not.mp hq) (Nat.pos_of_ne_zero hs)]
      cases deadline with
      | none => exact ⟨[], p, nofun, rfl, rfl, by simp, rfl, rfl⟩
      | some d => exact comesTo_timedOut hw (Decidable.not_not.mp hq) (Nat.pos_of_ne_zero hs)
  | cons e agenda ih =>
    obtain ⟨t, a⟩ := e
    obtain ⟨hpos, hrest⟩ := hf
    have hgo : p.ComesTo ask ((t, a) :: agenda)
        (Channel.receive deadline agenda (p.channel.act a)) := by
      refine .after t hpos fun n hc hnw hr => ?_
      rw [← hc]
      refine ih (hnw.trans hw) ?_
      rw [hc, Channel.senders_act]
      exact hrest
    by_cases hfound : p.pending ≠ [] ∨ p.channel.senders = 0
    · exact comesTo_of_found hw hfound
    · obtain ⟨hq, -⟩ := not_or.mp hfound
      have hempty : p.pending = [] := Decidable.not_not.mp hq
      rw [Channel.receive_of_silence hempty hpos]
      cases deadline with
      | none => exact hgo
      | some d =>
        by_cases hd : d < t
        · simp only [hd, ↓reduceIte]
          exact comesTo_timedOut hw hempty hpos
        · simp only [hd, ↓reduceIte]
          exact hgo

end Passage

end Quiesce.Handoff
