import Quiesce.Proofs.Drain.Seat
import Quiesce.Proofs.Pool.Termination

set_option autoImplicit false

namespace Quiesce.Pool.Machine

variable {τ : Type} {allowed : Move τ → Prop} {m n o : Machine τ}

def Among (allowed : Move τ → Prop) (m n : Machine τ) : Prop :=
  ∃ moves, (∀ x ∈ moves, allowed x) ∧ m.run? moves = some n

theorem Among.refl (m : Machine τ) : Among allowed m m := ⟨[], nofun, rfl⟩

theorem Among.trans (h : Among allowed m n) (k : Among allowed n o) : Among allowed m o := by
  obtain ⟨xs, hxs, hx⟩ := h
  obtain ⟨ys, hys, hy⟩ := k
  refine ⟨xs ++ ys, List.forall_mem_append.mpr ⟨hxs, hys⟩, ?_⟩
  rw [run?_append, hx]
  exact hy

theorem Among.step {x : Move τ} (h : Among allowed m n) (hx : allowed x)
    (ho : n.step? x = some o) : Among allowed m o := by
  refine h.trans ⟨[x], List.forall_mem_singleton.mpr hx, ?_⟩
  simp only [run?, ho, Option.bind_some]

theorem Among.reaches (h : Among allowed m n) : m.Reaches n := by
  obtain ⟨moves, -, hr⟩ := h
  exact ⟨moves, hr⟩

end Quiesce.Pool.Machine

namespace Quiesce.Drain

open Pool (Actor Machine Move)
open Pool.Machine (Among)

variable {τ α : Type} {allowed : Move τ → Prop} {a : Actor} {p q r : Machine τ}

/-- From `p` the pool came to `q`, answering these calls one after the other; all else on the way
were allowed moves. -/
inductive Served (allowed : Move τ → Prop) (a : Actor) :
    Machine τ → List (Exchange Nat) → Machine τ → Prop where
  | nil {p q : Machine τ} : Among allowed p q → Served allowed a p [] q
  | cons {p m n q r : Machine τ} {c : Call Nat} {b : Pool.Answer} {x : c.Answer}
      {es : List (Exchange Nat)} : Among allowed p m → m.step? (c.opening a) = some n →
      Among allowed n q → q.answer? m.calls.length = some b → c.read b = some x →
      Served allowed a q es r → Served allowed a p (⟨c, x⟩ :: es) r

namespace Served

variable {es fs : List (Exchange Nat)}

theorem append (h : Served allowed a p es q) (k : Served allowed a q fs r) :
    Served allowed a p (es ++ fs) r := by
  induction h with
  | nil hpq =>
    cases k with
    | nil hqr => exact .nil (hpq.trans hqr)
    | cons hqm hn hm hb hx hr => exact .cons (hpq.trans hqm) hn hm hb hx hr
  | cons hpm hn hm hb hx _ ih => exact .cons hpm hn hm hb hx (ih k)

theorem split (h : Served allowed a p (es ++ fs) r) :
    ∃ q, Served allowed a p es q ∧ Served allowed a q fs r := by
  induction es generalizing p with
  | nil => exact ⟨p, .nil (.refl p), h⟩
  | cons e es ih =>
    cases h with
    | cons hpm hn hm hb hx hr =>
      obtain ⟨q, hq, hf⟩ := ih hr
      exact ⟨q, .cons hpm hn hm hb hx hq, hf⟩

theorem later (h : Served allowed a p es q) (k : Among allowed q r) :
    Served allowed a p es r := by
  have hr := h.append (.nil k)
  rwa [List.append_nil] at hr

theorem reaches (h : Served allowed a p es q) : p.Reaches q := by
  induction h with
  | nil hpq => exact hpq.reaches
  | cons hpm hn hnq _ _ _ ih => exact ((hpm.reaches.step hn).trans hnq.reaches).trans ih

end Served

namespace Seat

variable {s t : Seat τ α} {x : SeatMove τ}

inductive Attended (allowed : Move τ → Prop) (p : Machine τ) (s : Seat τ α) : Prop where
  | idle : s.pending = none → Served allowed s.actor p s.exchanges s.pool → Attended allowed p s
  | waiting {c : Call Nat} {next : c.Answer → Plan Nat α} {m n : Machine τ} :
      s.plan = .ask c next → s.pending = some m.calls.length →
      Served allowed s.actor p s.exchanges m → m.step? (c.opening s.actor) = some n →
      Among allowed n s.pool → Attended allowed p s

theorem Attended.step (h : Step s x t) (hx : ∀ y, x = .pool y → allowed y)
    (hs : Attended allowed p s) : Attended allowed p t := by
  cases hs with
  | idle hpending hserved =>
    cases h with
    | pool hy => exact .idle hpending (hserved.later ((Among.refl _).step (hx _ rfl) hy))
    | opens hplan _ hn => exact .waiting hplan rfl hserved hn (.refl _)
    | proceeds _ hid => exact nomatch hid.symm.trans hpending
    | notes => exact .idle hpending hserved
  | waiting hplan hpending hserved hn hamong =>
    cases h with
    | pool hy => exact .waiting hplan hpending hserved hn (hamong.step (hx _ rfl) hy)
    | opens _ hnone => exact nomatch hnone.symm.trans hpending
    | @proceeds c' next' id k b y hplan' hid hk hb hread =>
      cases hplan.symm.trans hplan'
      obtain rfl := Option.some.inj (hpending.symm.trans hid)
      -- its answer has come, so the call in hand is the last one served
      have hanswer := (Machine.answer?_eq hk).trans hb
      exact .idle rfl (hserved.append
        (.cons (.refl _) hn hamong hanswer hread (.nil (.refl _))))
    | notes hnote => exact nomatch hnote.symm.trans hplan

theorem attended_of_run {plan : Plan Nat α} {moves : List (SeatMove τ)}
    (h : (take p a plan).run? moves = some s) (hx : ∀ y, .pool y ∈ moves → allowed y) :
    Attended allowed p s := by
  refine run?_keeps (fun x => ∀ y, x = .pool y → allowed y) (fun ht hy hs => hs.step ht hy) h ?_
    (.idle rfl (.nil (.refl p)))
  rintro x hm y rfl
  exact hx y hm

/-- A seat that has come to the end of its plan has been served all its calls. -/
theorem served_of_run {plan : Plan Nat α} {moves : List (SeatMove τ)} {o : α}
    (h : (take p a plan).run? moves = some s) (hx : ∀ y, .pool y ∈ moves → allowed y)
    (ho : s.plan = .done o) : Served allowed s.actor p s.exchanges s.pool := by
  cases attended_of_run h hx with
  | idle _ hserved => exact hserved
  | waiting hplan => exact nomatch hplan.symm.trans ho

end Seat

end Quiesce.Drain
