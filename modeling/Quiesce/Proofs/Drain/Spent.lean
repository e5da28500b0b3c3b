import Quiesce.Proofs.Drain.Guarantees
import Quiesce.Proofs.Drain.Served

set_option autoImplicit false

namespace Quiesce.Drain

open Pool (Actor Machine Move)
open Pool.Machine (Among CanReturn Crewed Expected Owing Reaches Spent)

variable {τ α : Type} {size : Nat} {p q r : Machine τ}

structure Over (size : Nat) (p : Machine τ) : Prop where
  manned : 0 < size
  crewed : Crewed size p
  terminated : p.shared.isTerminated = true

theorem Over.of_reaches (h : Over size p) (hr : p.Reaches q) : Over size q :=
  ⟨h.manned, Reaches.keeps Crewed.step hr h.crewed, h.crewed.terminated_of_reaches hr h.terminated⟩

theorem Over.spent (h : Over size p) : Spent size p := h.crewed.spent h.manned h.terminated

theorem shared_of_spent (h : Spent size p) : p.shared = ⟨[], true, 0, 0⟩ := by
  have hlive := (Machine.isTerminated_iff.mp h.terminated).2
  calc
    p.shared = ⟨p.shared.queue, p.shared.stopped, p.shared.live, p.shared.running⟩ := rfl
    _ = ⟨[], true, 0, 0⟩ := by rw [h.queue, h.stopped, hlive, h.running]

theorem Over.unchanged (h : Over size p) (hr : p.Reaches q) :
    q.shared = p.shared ∧ q.workers = p.workers := by
  have hp := h.spent
  have hq := (h.of_reaches hr).spent
  exact ⟨(shared_of_spent hq).trans (shared_of_spent hp).symm, hq.workers.trans hp.workers.symm⟩

def Call.atEnd : (c : Call Nat) → c.Answer
  | isStopped => true
  | isTerminated => true
  | requestStop _ => (0 : Nat)
  | awaitTermination _ _ => .ok true

theorem replies_atEnd (h : Spent size p) (c : Call Nat) (a : Actor) :
    ∃ b, c.read b = some c.atEnd ∧ p.Replies (c.opening a) b := by
  cases c with
  | isStopped => exact ⟨_, rfl, (h.asks a).1⟩
  | isTerminated => exact ⟨_, rfl, (h.asks a).2⟩
  | requestStop mode => exact ⟨_, rfl, h.stops a mode⟩
  | awaitTermination timeout i => exact ⟨_, rfl, h.awaits a timeout i⟩

theorem Served.atEnd {allowed : Move τ → Prop} {a : Actor} {es : List (Exchange Nat)}
    (h : Served allowed a p es q) (ho : Over size p) : ∀ e ∈ es, e.answer = e.call.atEnd := by
  induction h with
  | nil => exact nofun
  | @cons p m n q r c b x es hpm hn hnq hb hx hr ih =>
    have hm : Over size m := ho.of_reaches hpm.reaches
    refine List.forall_mem_cons.mpr ⟨?_, ih (hm.of_reaches ((Reaches.refl m).step hn |>.trans
      hnq.reaches))⟩
    obtain ⟨b', hread, hreplies⟩ := replies_atEnd hm.spent c a
    obtain rfl := hreplies.answer_eq hn hnq.reaches hb
    exact Option.some.inj (hx.symm.trans hread)

theorem Course.atEnd {budget : Budget} {i : Nat} {es : List (Exchange Nat)} {ns : List Notice}
    {o : Outcome} (h : Course budget i es ns o) (he : ∀ e ∈ es, e.answer = e.call.atEnd) :
    o = .completedCleanly ∧
      es = [⟨.isStopped, true⟩, ⟨.awaitTermination budget.grace i, .ok true⟩] := by
  obtain ⟨ho, hf⟩ := h
  cases ho with
  | requested n => exact absurd (he _ (.head _)) Bool.false_ne_true
  | already =>
    cases hf with
    | terminated => exact ⟨rfl, rfl⟩
    | interrupted | overtaken | escalated => exact nomatch he _ (.tail _ (.head _))

theorem Standing.canReturn {c : Call Nat} {id : Nat} {k : Pool.Call} (h : Standing p c k.stage)
    (hk : p.calls[id]? = some k) (ho : Over size p) :
    ∃ b x, c.read b = some x ∧ p.CanReturn id b := by
  obtain ⟨actor, stage⟩ := k
  cases h with
  | answered hread _ => exact ⟨_, _, hread, .answered (Machine.answer?_eq hk)⟩
  | cancelling => exact ⟨_, _, rfl, Owing.canReturn ⟨_, hk, .cancelling _ _⟩⟩
  | rousing => exact ⟨_, _, rfl, Owing.canReturn ⟨_, hk, .rousing _ _ _⟩⟩
  | watching => exact ⟨_, _, rfl, Machine.watch_own hk ho.terminated⟩
  | dozing => exact ⟨_, _, rfl, Machine.stir_own hk ho.terminated⟩

namespace Seat

variable {s t u : Seat τ α} {plan : Plan Nat α}

/-- A step of the thread in the seat: its own, or one of a call that it has made or will make, as
long as nobody else makes one. -/
def Own (s : Seat τ α) : SeatMove τ → Prop
  | .pool x => ∃ c, x.call? = some c ∧ (s.pending = some c ∨ s.pool.calls.length ≤ c)
  | _ => True

def CanEnd (s : Seat τ α) : Prop :=
  ∃ moves t o, (∀ x ∈ moves, s.Own x) ∧ s.run? moves = some t ∧ t.plan = .done o

theorem run?_pool (s : Seat τ α) (moves : List (Move τ)) :
    s.run? (moves.map .pool) = (s.pool.run? moves).map fun p => { s with pool := p } := by
  induction moves generalizing s with
  | nil => rfl
  | cons x rest ih =>
    rw [List.map_cons, run?, step?, Machine.run?]
    cases hx : s.pool.step? x with
    | none => rfl
    | some n => exact ih { s with pool := n }

theorem length_calls_of_reaches (h : p.Reaches q) : p.calls.length ≤ q.calls.length :=
  Reaches.keeps (P := fun m => p.calls.length ≤ m.calls.length)
    (fun hs hl => Nat.le_trans hl (Machine.length_calls_step hs)) h (Nat.le_refl _)

theorem CanEnd.prepend {moves : List (SeatMove τ)} (h : t.CanEnd) (hown : ∀ x ∈ moves, s.Own x)
    (hs : s.run? moves = some t)
    (hn : ∀ c, t.pending = some c → s.pending = some c ∨ s.pool.calls.length ≤ c) :
    s.CanEnd := by
  obtain ⟨rest, u, o, hrest, hu, ho⟩ := h
  refine ⟨moves ++ rest, u, o, List.forall_mem_append.mpr ⟨hown, fun x hx => ?_⟩,
    runs.append_eq_some hs hu, ho⟩
  cases x with
  | pool y =>
    obtain ⟨c, hc, hmine⟩ := hrest _ hx
    have hlen := length_calls_of_reaches (reaches_of_run hs)
    exact ⟨c, hc, hmine.elim (hn c) fun hl => .inr (Nat.le_trans hlen hl)⟩
  | _ => trivial

variable {c : Call Nat} {next : c.Answer → Plan Nat α}

theorem step?_open (hplan : s.plan = .ask c next) (hnone : s.pending = none)
    (hp : s.pool.step? (c.opening s.actor) = some p) :
    s.step? .open = some { s with pool := p, pending := some s.pool.calls.length } := by
  obtain ⟨pool, actor, plan, pending, exchanges, notices⟩ := s
  subst hplan hnone
  simp only [step?]
  rw [hp]
  rfl

theorem step?_proceed {id : Nat} {b : Pool.Answer} {x : c.Answer} (hplan : s.plan = .ask c next)
    (hid : s.pending = some id) (hb : s.pool.answer? id = some b) (hx : c.read b = some x) :
    s.step? .proceed = some { s with
      plan := next x, pending := none, exchanges := s.exchanges ++ [⟨c, x⟩] } := by
  obtain ⟨pool, actor, plan, pending, exchanges, notices⟩ := s
  subst hplan hid
  unfold Machine.answer? at hb
  simp only [step?]
  rw [hb, Option.bind_some, hx]

theorem Sound.of_run {moves : List (SeatMove τ)} (hs : Sound plan size s)
    (h : s.run? moves = some t) : Sound plan size t :=
  run?_keeps (fun _ => True) (fun hx _ hs => hs.step hx) h (fun _ _ => trivial) hs

theorem canEnd_of_pending {id : Nat} (hs : Sound plan size s) (ho : Over size s.pool)
    (hplan : s.plan = .ask c next) (hid : s.pending = some id)
    (hnext : ∀ t : Seat τ α, Sound plan size t → Over size t.pool → ∀ x, t.plan = next x →
      t.CanEnd) : s.CanEnd := by
  obtain ⟨c', next', k, hplan', hk, hstand⟩ := hs.pending id hid
  cases hplan.symm.trans hplan'
  obtain ⟨b, x, hread, moves, o, hmoves, hrun, hb⟩ := hstand.canReturn hk ho
  have hpool : s.run? (moves.map .pool) = some { s with pool := o } := by
    rw [run?_pool, hrun]
    rfl
  have hproceed := step?_proceed (s := { s with pool := o }) hplan hid hb hread
  have hall := runs.append_eq_some hpool (runs.one hproceed)
  refine (hnext _ (hs.of_run hall) (ho.of_reaches (reaches_of_run hall)) x rfl).prepend ?_ hall
    nofun
  refine List.forall_mem_append.mpr ⟨fun y hy => ?_, List.forall_mem_singleton.mpr trivial⟩
  obtain ⟨z, hz, rfl⟩ := List.mem_map.mp hy
  exact ⟨id, hmoves z hz, .inl hid⟩

/-- Whoever talks to a terminated pool can come to the end at once. -/
theorem canEnd_of_over (hs : Sound plan size s) (ho : Over size s.pool) : s.CanEnd := by
  induction hd : s.plan generalizing s with
  | done a => exact ⟨[], s, a, nofun, rfl, hd⟩
  | note n rest ih =>
    have hnote : s.step? .note = some { s with plan := rest, notices := s.notices ++ [n] } := by
      simp only [step?, hd]
    have hrun := runs.one hnote
    have hown : ∀ x ∈ [SeatMove.note], s.Own x := List.forall_mem_singleton.mpr trivial
    exact (ih (hs.of_run hrun) ho rfl).prepend hown hrun fun c => .inl
  | ask c next ih =>
    have hnext : ∀ t : Seat τ α, Sound plan size t → Over size t.pool → ∀ x, t.plan = next x →
        t.CanEnd := fun t ht hot x hx => ih x ht hot hx
    cases hid : s.pending with
    | some id => exact canEnd_of_pending hs ho hd hid hnext
    | none =>
      obtain ⟨b, -, n, hn, -⟩ := replies_atEnd ho.spent c s.actor
      have hrun := runs.one (step?_open hd hid hn)
      have hown : ∀ x ∈ [SeatMove.open], s.Own x := List.forall_mem_singleton.mpr trivial
      have hover := ho.of_reaches (reaches_of_run hrun)
      refine (canEnd_of_pending (hs.of_run hrun) hover hd rfl hnext).prepend hown hrun ?_
      exact fun c hc => .inr (Nat.le_of_eq (Option.some.inj hc))

theorem HasAsked.of_run {mode : StopMode} {moves : List (SeatMove τ)} (h : s.run? moves = some t)
    (ha : s.HasAsked mode) : t.HasAsked mode :=
  run?_keeps (fun _ => True) (fun hx _ hu => hu.step hx) h (fun _ _ => trivial) ha

end Seat

variable {a : Actor} {budget : Budget} {i : Nat} {during : List (SeatMove τ)} {s : Seat τ Outcome}

/-- A drain under the token `i` of a pool that had terminated as `p`, at any moment of the drain. -/
structure Passing (budget : Budget) (i : Nat) (p : Machine τ) (s : Seat τ Outcome) : Prop where
  ends : s.CanEnd
  cleanly : ∀ o, s.plan = .done o → o = .completedCleanly ∧
    s.exchanges = [⟨.isStopped, true⟩, ⟨.awaitTermination budget.grace i, .ok true⟩]
  unasked : ∀ mode, ¬ s.HasAsked mode
  unchanged : s.pool.shared = p.shared ∧ s.pool.workers = p.workers

theorem Over.cleanly (h : Over size p)
    (hs : (Seat.take p a (sequence budget i)).run? during = some s) {o : Outcome}
    (ho : s.plan = .done o) : o = .completedCleanly ∧
      s.exchanges = [⟨.isStopped, true⟩, ⟨.awaitTermination budget.grace i, .ok true⟩] := by
  have hsound : Seat.Sound (sequence budget i) size s := Seat.sound_of_run h.crewed hs
  have hcourse : Course budget i s.exchanges s.notices o := course_of_leads (ho ▸ hsound.path)
  have hserved : Served (fun _ => True) s.actor p s.exchanges s.pool :=
    Seat.served_of_run hs (fun _ _ => trivial) ho
  exact hcourse.atEnd (hserved.atEnd h)

theorem Over.passing (h : Over size p)
    (hs : (Seat.take p a (sequence budget i)).run? during = some s) : Passing budget i p s := by
  have hreach : p.Reaches s.pool := Seat.reaches_of_run hs
  have hsound : Seat.Sound (sequence budget i) size s := Seat.sound_of_run h.crewed hs
  have hends : s.CanEnd := Seat.canEnd_of_over hsound (h.of_reaches hreach)
  refine ⟨hends, fun o => h.cleanly hs, fun mode ha => ?_, h.unchanged hreach⟩
  -- what has been asked for is among the calls at the end
  obtain ⟨moves, t, o, -, ht, ho⟩ := hends
  obtain ⟨-, he⟩ := h.cleanly (Seat.runs.append_eq_some hs ht) ho
  rcases ha.of_run ht with ⟨n, hm⟩ | ⟨next, id, hplan, -⟩
  · rw [he] at hm
    simp at hm
  · exact nomatch ho.symm.trans hplan

end Quiesce.Drain
