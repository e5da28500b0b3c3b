import Quiesce.Proofs.Handoff.Receive

set_option autoImplicit false

namespace Quiesce.Handoff

namespace Passage

variable {p q n o : Passage} {x : Move} {ask : Ask} {deadline : Deadline} {site : String}
  {meanwhile : List Move} {arrived : List Signal}

def notices (p : Passage) : List Notice := p.receipts.flatMap fun r => r.2.notices

theorem replies_conclude (ask : Ask) (r : Receipt) (c : Channel) :
    (p.conclude ask r c).replies = p.replies ++ [ask.reply r] := List.map_append

theorem notices_conclude (ask : Ask) (r : Receipt) (c : Channel) :
    (p.conclude ask r c).notices = p.notices ++ r.notices := by
  simp [notices, conclude]

/-- The wait of `p` goes on in `n`, and these signals have arrived meanwhile. -/
structure GoesOn (p n : Passage) (arrived : List Signal) : Prop where
  waiting : n.waiting = p.waiting
  receipts : n.receipts = p.receipts
  deposited : n.deposited = p.deposited ++ arrived
  pending : n.pending = p.pending ++ arrived

theorem GoesOn.refl (p : Passage) : GoesOn p p [] :=
  ⟨rfl, rfl, (List.append_nil _).symm, (List.append_nil _).symm⟩

theorem GoesOn.trans {more : List Signal} (h : GoesOn p q arrived) (k : GoesOn q n more) :
    GoesOn p n (arrived ++ more) where
  waiting := k.waiting.trans h.waiting
  receipts := k.receipts.trans h.receipts
  deposited := by rw [k.deposited, h.deposited, List.append_assoc]
  pending := by rw [k.pending, h.pending, List.append_assoc]

theorem goesOn_step (h : Step p x n) (hx : x ≠ .look) (hw : p.waiting ≠ none) :
    ∃ arrived, GoesOn p n arrived := by
  have hnil (l : List Signal) : l = l ++ [] := (List.append_nil l).symm
  cases h with
  | @accept s => exact ⟨[s], rfl, rfl, deposited_append none, rfl⟩
  | @full s | @closed s => exact ⟨[], rfl, rfl, deposited_append (some _), hnil _⟩
  | addSender | dropSender | elapse => exact ⟨[], rfl, rfl, hnil _, hnil _⟩
  | dropReceiver _ hn | await _ hn => exact absurd hn hw
  | receive | senderless | timeOut => exact absurd rfl hx

theorem keeps_during {P : Passage → Prop}
    (keeps : ∀ {m o x}, Step m x o → x ≠ .look → m.waiting ≠ none → P m → P o)
    (h : p.run? meanwhile = some n) (hl : Move.look ∉ meanwhile) (hw : p.waiting ≠ none)
    (hp : P p) : P n := by
  refine (runs.keeps (P := fun m => m.waiting ≠ none ∧ P m) (fun x => x ≠ .look)
    (fun hs hx hm => ?_) h (fun x hx he => hl (he ▸ hx)) ⟨hw, hp⟩).2
  obtain ⟨_, hgo⟩ := goesOn_step (step_of_step? hs) hx hm.1
  exact ⟨hgo.waiting ▸ hm.1, keeps (step_of_step? hs) hx hm.1 hm.2⟩

theorem goesOn_run (h : p.run? meanwhile = some n) (hl : Move.look ∉ meanwhile)
    (hw : p.waiting ≠ none) : ∃ arrived, GoesOn p n arrived := by
  refine keeps_during (P := fun m => ∃ arrived, GoesOn p m arrived) (fun hs hx hm hgo => ?_) h hl
    hw ⟨[], .refl p⟩
  obtain ⟨first, hfirst⟩ := hgo
  obtain ⟨more, hmore⟩ := goesOn_step hs hx hm
  exact ⟨first ++ more, hfirst.trans hmore⟩

/-- There is something to find: a signal, the loss of the senders, or the deadline. -/
def Due (deadline : Deadline) (p : Passage) : Prop :=
  p.pending ≠ [] ∨ p.channel.senders = 0 ∨ ∃ d, deadline = some d ∧ d ≤ p.now

theorem look_of_due (hw : p.waiting = some (ask, deadline)) (h : Due deadline p) :
    ∃ n, p.look = some n := by
  cases hq : p.pending with
  | cons s rest => exact ⟨_, look_of_pending hw hq⟩
  | nil =>
    by_cases hs : p.channel.senders = 0
    · exact ⟨_, look_of_senderless hw hq hs⟩
    · obtain ⟨d, rfl, hd⟩ := (h.resolve_left fun hn => hn hq).resolve_left hs
      exact ⟨_, look_of_timeOut hw hq (Nat.pos_of_ne_zero hs) hd⟩

theorem due_of_look (hw : p.waiting = some (ask, deadline)) (h : p.look = some n) :
    Due deadline p := by
  cases step_of_look h with
  | receive _ hq => exact .inl (hq ▸ List.cons_ne_nil _ _)
  | senderless _ _ hs => exact .inr (.inl hs)
  | timeOut hw' _ _ hd =>
    obtain ⟨-, rfl⟩ := Prod.mk.inj (Option.some.inj (hw.symm.trans hw'))
    exact .inr (.inr ⟨_, rfl, hd⟩)

theorem due_iff_look (hw : p.waiting = some (ask, deadline)) :
    (∃ n, p.step? .look = some n) ↔ Due deadline p :=
  ⟨fun ⟨_, h⟩ => due_of_look hw h, look_of_due hw⟩

theorem Due.step (h : Step p x n) (hx : x ≠ .look) (hw : p.waiting ≠ none)
    (hd : Due deadline p) : Due deadline n := by
  cases h with
  | accept => exact .inl (List.append_ne_nil_of_right_ne_nil _ (List.cons_ne_nil _ _))
  | full | closed => exact hd
  | addSender hs | dropSender hs =>
    exact hd.imp_right fun h => h.imp_left fun hz => absurd hz (Nat.ne_of_gt hs)
  | elapse =>
    exact hd.imp_right fun h => h.imp_right fun ⟨d, he, hle⟩ =>
      ⟨d, he, Nat.le_trans hle (Nat.le_add_right _ _)⟩
  | dropReceiver _ hn | await _ hn => exact absurd hn hw
  | receive | senderless | timeOut => exact absurd rfl hx

/-- The look that ends a wait at `site`, from `p` to `n`. -/
structure Settles (site : String) (p n : Passage) : Prop where
  ended : n.waiting = none
  channel : n.channel = { p.channel with pending := p.pending.tail }
  delivered : n.delivered = p.delivered ++ p.pending.head?.toList
  ready : ∀ b rest, p.pending = .ready b :: rest → n.replies = p.replies ++ [.readiness (.ok b)]
  failed : ∀ f rest, p.pending = .failed f :: rest → ∃ e : Failure,
    n.replies = p.replies ++ [.readiness (.error e)] ∧ e.site = site ∧ e.source = f ∧
      e.fault.chain = e.message :: f.chain
  unready : n.replies = p.replies ++ [.readiness (.ok false)] ∧ n.delivered = p.delivered ↔
    p.pending = []
  notices : n.notices = p.notices ++
    if p.pending = [] ∧ p.channel.senders = 0 then [.producerGone] else []

theorem settles_of_signal {s : Signal} {rest : List Signal} (hq : p.pending = s :: rest) :
    Settles site p (p.conclude (.readiness site) (.signal s) { p.channel with pending := rest })
    where
  ended := rfl
  channel := by rw [hq]; rfl
  delivered := by rw [hq]; exact delivered_conclude ..
  ready b _ h := by
    obtain ⟨rfl, -⟩ := List.cons.inj (hq.symm.trans h)
    exact replies_conclude ..
  failed f _ h := by
    obtain ⟨rfl, -⟩ := List.cons.inj (hq.symm.trans h)
    exact ⟨⟨site, f⟩, replies_conclude .., rfl, rfl, f.chain_behind _⟩
  unready := by
    rw [delivered_conclude, hq]
    simp [Receipt.signal?]
  notices := by
    rw [hq]
    exact notices_conclude ..

theorem settles_of_none {r : Receipt} (hq : p.pending = []) (hr : r.signal? = none)
    (hn : r.notices = if p.channel.senders = 0 then [.producerGone] else []) :
    Settles site p (p.conclude (.readiness site) r p.channel) where
  ended := rfl
  channel := by
    rw [hq]
    exact congrArg (fun l => { p.channel with pending := l }) hq
  delivered := by rw [delivered_conclude, hr, hq]; rfl
  ready b _ h := nomatch hq.symm.trans h
  failed f _ h := nomatch hq.symm.trans h
  unready := by
    refine iff_of_true ⟨?_, ?_⟩ hq
    · rw [replies_conclude]
      cases r with
      | signal => exact nomatch hr
      | timedOut | senderless => rfl
    · rw [delivered_conclude, hr]
      exact List.append_nil _
  notices := by rw [notices_conclude, hn]; simp [hq]

theorem settles_of_look (hw : p.waiting = some (.readiness site, deadline))
    (h : p.step? .look = some n) : Settles site p n := by
  cases step_of_look h with
  | receive hw' hq =>
    cases hw.symm.trans hw'
    exact settles_of_signal hq
  | senderless hw' hq hs =>
    cases hw.symm.trans hw'
    exact settles_of_none hq rfl (by rw [if_pos hs]; rfl)
  | timeOut hw' hq hs =>
    cases hw.symm.trans hw'
    exact settles_of_none hq rfl (by rw [if_neg (Nat.ne_of_gt hs)]; rfl)

theorem Settles.heard (h : Settles site p n) (hq : p.pending ≠ []) :
    n.notices = p.notices ∧ n.delivered ≠ p.delivered := by
  constructor
  · rw [h.notices, if_neg fun hn => hq hn.1, List.append_nil]
  · intro hd
    obtain ⟨s, rest, hs⟩ := List.exists_cons_of_ne_nil hq
    have hlen := congrArg List.length (h.delivered.symm.trans hd)
    simp [hs] at hlen

theorem await_begins {timeout : Duration} (h : p.step? (.await ask timeout) = some q) :
    q = { p with waiting := some (ask, .after p.now timeout) } :=
  (byReceiver_eq_some.mp h).2.2.symm

/-- How a wait for readiness comes out, whatever others do meanwhile and in whatever order. Nothing
is taken and nothing told before the look that ends it. That look is possible as soon as there is a
signal, no sender or no time left, and stays so; it settles the wait by what is in the channel then.
Against a course of events known beforehand, `Channel.receive` tells where it leads. -/
theorem readiness_settled {p q n : Passage} {site : String} {timeout : Duration}
    {meanwhile : List Move} (hbegin : p.step? (.await (.readiness site) timeout) = some q)
    (hrun : q.run? meanwhile = some n) (hlook : Move.look ∉ meanwhile) :
    (∃ arrived, n.deposited = p.deposited ++ arrived ∧ n.pending = p.pending ++ arrived ∧
      n.receipts = p.receipts ∧ ∀ o, p.pending ++ arrived ≠ [] → n.step? .look = some o →
        o.notices = p.notices ∧ o.delivered ≠ p.delivered) ∧
    ((∃ o, n.step? .look = some o) ↔ Due (.after p.now timeout) n) ∧
    (∀ later m, n.run? later = some m → Move.look ∉ later →
      (∃ o, n.step? .look = some o) → ∃ o, m.step? .look = some o) ∧
    (∀ o, n.step? .look = some o → Settles site n o) ∧
    ∀ agenda, Held p.channel.senders agenda → q.ComesTo (.readiness site) agenda
      (Channel.receive (.after p.now timeout) agenda p.channel) := by
  obtain rfl := await_begins hbegin
  obtain ⟨arrived, hgo⟩ := goesOn_run hrun hlook (Option.some_ne_none _)
  have hw : n.waiting = some (.readiness site, .after p.now timeout) := hgo.waiting
  have hsettles (o : Passage) (h : n.step? .look = some o) : Settles site n o :=
    settles_of_look hw h
  refine ⟨⟨arrived, hgo.deposited, hgo.pending, hgo.receipts, fun o hq h => ?_⟩,
    due_iff_look hw, fun later m hm hl hcan => ?_, hsettles, fun agenda hheld => ?_⟩
  · obtain ⟨hnotices, hdelivered⟩ := (hsettles o h).heard (hgo.pending ▸ hq)
    simp only [notices, delivered, hgo.receipts] at hnotices hdelivered ⊢
    exact ⟨hnotices, hdelivered⟩
  · have hne : n.waiting ≠ none := hw ▸ Option.some_ne_none _
    obtain ⟨_, hgo'⟩ := goesOn_run hm hl hne
    have hdue := keeps_during Due.step hm hl hne ((due_iff_look hw).mp hcan)
    exact (due_iff_look (hgo'.waiting.trans hw)).mpr hdue
  · exact comesTo_receive (p := { p with
      waiting := some (.readiness site, .after p.now timeout) }) rfl hheld

def watchClosed : Fault := ⟨"watch closed", ["stream reset", "errno 104"]⟩

def lastWords : List Move := [.deposit (.failed watchClosed), .dropSender, .elapse 9]

theorem lastWords_settled :
    ∃ q, (start 1).step? (.await (.readiness "here") ⟨5⟩) = some q ∧
      (∃ n o, q.run? lastWords = some n ∧ n.channel.senders = 0 ∧ n.step? .look = some o ∧
        o.replies = [.readiness (.error ⟨"here", watchClosed⟩)] ∧ o.notices = [] ∧
        Settles "here" n o) ∧
      ∃ n o, q.run? [.dropSender] = some n ∧ n.step? .look = some o ∧
        o.replies = [.readiness (.ok false)] ∧ o.notices = [.producerGone] ∧
        Settles "here" n o := by
  refine ⟨_, rfl, ⟨_, _, rfl, rfl, rfl, rfl, rfl, ?_⟩, _, _, rfl, rfl, rfl, rfl, ?_⟩
  · obtain ⟨-, -, -, hsettles, -⟩ :=
      readiness_settled (p := start 1) rfl (show run? _ lastWords = _ from rfl) (by decide)
    exact hsettles _ rfl
  · obtain ⟨-, -, -, hsettles, -⟩ :=
      readiness_settled (p := start 1) rfl (show run? _ [.dropSender] = _ from rfl) (by decide)
    exact hsettles _ rfl

end Passage

end Quiesce.Handoff
