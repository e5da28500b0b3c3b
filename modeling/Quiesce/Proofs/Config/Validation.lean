import Mathlib.Data.List.DropRight
import Quiesce.Proofs.Config.Schema

set_option autoImplicit false

namespace Quiesce

namespace Text

def trimmed (s : List Char) : List Char := (s.dropWhile isWhiteSpace).rdropWhile isWhiteSpace

theorem isEmpty_trimmed (s : List Char) : (trimmed s).isEmpty = isBlank s := by
  rw [Bool.eq_iff_iff, List.isEmpty_iff, trimmed, List.rdropWhile_eq_nil_iff, isBlank,
    List.all_eq_true]
  constructor
  · intro h c hc
    rw [← List.takeWhile_append_dropWhile (p := isWhiteSpace) (l := s)] at hc
    obtain hc | hc := List.mem_append.mp hc
    · exact List.all_eq_true.mp List.all_takeWhile c hc
    · exact h c hc
  · intro h c hc
    exact h c ((List.dropWhile_sublist isWhiteSpace).mem hc)

end Text

namespace Duration

structure IsMillis (n : Nat) (d : Duration) : Prop where
  nanos : d.nanos = n * 1000000
  seconds : d.seconds = n / 1000
  subsecond : d.subsecond = n % 1000 * 1000000
  below : d.subsecond < nanosPerSecond
  fits : n < Nat.pow 2 64 → d.seconds < Nat.pow 2 64 ∧ d.nanos ≤ max.nanos

theorem isMillis_ofMillis (n : Nat) : IsMillis n (ofMillis n) := by
  have hseconds : (ofMillis n).seconds = n / 1000 := by
    simp only [seconds, ofMillis, nanosPerSecond]
    omega
  have hsubsecond : (ofMillis n).subsecond = n % 1000 * 1000000 := by
    simp only [subsecond, ofMillis, nanosPerSecond]
    omega
  refine ⟨rfl, hseconds, hsubsecond, (ofMillis n).subsecond_lt, fun hn => ?_⟩
  rw [hseconds]
  have hmax : max.nanos = Nat.pow 2 64 * 1000000000 - 1 := rfl
  rw [hmax]
  simp only [ofMillis]
  generalize Nat.pow 2 64 = limit at hn ⊢
  omega

end Duration

namespace Pool

variable {τ : Type}

def Settings.startUnraised (s : Settings) (refusal : Nat → Option Fault)
    (others : Nat → Machine τ → Machine τ) : Except Setback (Machine τ) :=
  s.buildAll refusal others
    { Machine.initial s.workers s.queueCapacity with
      capacity := s.queueCapacity, unstarted := s.workers }
    (remaining s.workers)

theorem Settings.start_eq_startUnraised {s : Settings} (hw : 0 < s.workers)
    (hq : 0 < s.queueCapacity) (refusal : Nat → Option Fault)
    (others : Nat → Machine τ → Machine τ) :
    s.start refusal others = s.startUnraised refusal others := by
  have hworkers : max s.workers 1 = s.workers := Nat.max_eq_left hw
  have hcapacity : max s.queueCapacity 1 = s.queueCapacity := Nat.max_eq_left hq
  simp only [start, startUnraised, Machine.initial, hworkers, hcapacity]

end Pool

namespace Config

structure Rule where
  message : String
  isBroken : StatedPool → Bool

def rules : List Rule :=
  [⟨"pool.workers must be at least 1", fun p => p.workers == some 0⟩,
    ⟨"pool.queue_capacity must be at least 1", fun p => p.queueCapacity == some 0⟩,
    ⟨"pool.thread_name must not be empty", fun p => p.threadName.any fun name =>
      (Text.trimmed name.toList).isEmpty⟩]

def firstBroken? (p : StatedPool) : Option Rule := rules.find? fun rule => rule.isBroken p

variable {s : Stated} {c : Config}

theorem firstBroken?_eq_none_iff {p : StatedPool} :
    firstBroken? p = none ↔
      p.workers ≠ some 0 ∧ p.queueCapacity ≠ some 0 ∧
        ∀ name, p.threadName = some name → ∃ ch ∈ name.toList, Text.isWhiteSpace ch = false := by
  cases h : p.threadName with
  | none => simp [firstBroken?, rules, h]
  | some name => simp [firstBroken?, rules, h, Text.isEmpty_trimmed, Text.isBlank_eq_false_iff]

theorem getD_eq_zero_iff {o : Option Nat} {d : Nat} (hd : d ≠ 0) : o.getD d = 0 ↔ o = some 0 := by
  cases o <;> simp [hd]

theorem isBlank_threadName (p : StatedPool) :
    Text.isBlank p.settings.threadName.toList =
      p.threadName.any fun name => (Text.trimmed name.toList).isEmpty := by
  cases h : p.threadName with
  | none =>
    have hd : Text.isBlank Pool.Settings.default.threadName.toList = false := by decide
    simpa [StatedPool.settings, h] using hd
  | some name => simp [StatedPool.settings, h, Text.isEmpty_trimmed]

/-- The settings, defaults included, violate the first rule that what is stated breaks. -/
theorem rule_violation? (p : StatedPool) :
    (violation? p.settings).map Violation.rule = (firstBroken? p).map Rule.message := by
  have hw : p.settings.workers = 0 ↔ p.workers = some 0 := getD_eq_zero_iff (by decide)
  have hq : p.settings.queueCapacity = 0 ↔ p.queueCapacity = some 0 :=
    getD_eq_zero_iff (by decide)
  unfold violation? firstBroken? rules
  simp only [hw, hq, isBlank_threadName]
  by_cases w : p.workers = some 0
  · simp [w, Violation.rule]
  · by_cases q : p.queueCapacity = some 0
    · simp [w, q, Violation.rule]
    · by_cases n : p.threadName.any (fun name => (Text.trimmed name.toList).isEmpty) = true
      · simp [w, q, n, Violation.rule]
      · simp [w, q, n]

theorem violation?_settings_eq_none_iff {p : StatedPool} :
    violation? p.settings = none ↔ firstBroken? p = none := by
  rw [← Option.map_eq_none_iff, rule_violation?, Option.map_eq_none_iff]

theorem ofStated_eq_ok_iff :
    ofStated s = .ok c ↔
      violation? s.pool.settings = none ∧ c = ⟨s.drain.budget, s.pool.settings⟩ := by
  cases h : violation? s.pool.settings with
  | none => simp [ofStated_of_valid h, eq_comm]
  | some why => simp [ofStated_of_violation h]

theorem ofStated_eq_error_iff {why : Violation} :
    ofStated s = .error why ↔ violation? s.pool.settings = some why := by
  cases h : violation? s.pool.settings with
  | none => simp [ofStated_of_valid h]
  | some why => simp [ofStated_of_violation h]

def Used {α β : Type} (P : α → β → Prop) (absent : β) : Option α → β → Prop
  | none, b => b = absent
  | some a, b => P a b

theorem used_getD {α : Type} (o : Option α) (d : α) : Used Eq d o (o.getD d) := by
  cases o with
  | none => rfl
  | some a => rfl

theorem used_millis (o : Option Nat) (d : Duration) :
    Used Duration.IsMillis d o ((o.map .ofMillis).getD d) := by
  cases o with
  | none => rfl
  | some n => exact Duration.isMillis_ofMillis n

/-- The configuration uses all that is stated, and defaults where nothing is. -/
structure Uses (s : Stated) (c : Config) : Prop where
  workers : Used Eq Config.default.pool.workers s.pool.workers c.pool.workers
  queueCapacity :
    Used Eq Config.default.pool.queueCapacity s.pool.queueCapacity c.pool.queueCapacity
  threadName : Used Eq Config.default.pool.threadName s.pool.threadName c.pool.threadName
  grace : Used Duration.IsMillis Config.default.drain.grace s.drain.grace c.drain.grace
  force : Used Duration.IsMillis Config.default.drain.force s.drain.force c.drain.force

theorem uses_of_ofStated (h : ofStated s = .ok c) : Uses s c := by
  obtain ⟨-, rfl⟩ := ofStated_eq_ok_iff.mp h
  exact ⟨used_getD _ _, used_getD _ _, used_getD _ _, used_millis _ _, used_millis _ _⟩

structure Validated (s : Stated) (r : Except Violation Config) : Prop where
  accepted : (∃ c, r = .ok c) ↔
    s.pool.workers ≠ some 0 ∧ s.pool.queueCapacity ≠ some 0 ∧
      ∀ name, s.pool.threadName = some name → ∃ ch ∈ name.toList, Text.isWhiteSpace ch = false
  rejected : ∀ message, (∃ why, r = .error why ∧ why.rule = message) ↔
    ∃ rule, firstBroken? s.pool = some rule ∧ rule.message = message
  uses : ∀ c, r = .ok c → Uses s c

theorem validated_ofStated (s : Stated) : Validated s (ofStated s) := by
  refine ⟨?_, fun message => ?_, fun c h => uses_of_ofStated h⟩
  · rw [← firstBroken?_eq_none_iff, ← violation?_settings_eq_none_iff]
    simp [ofStated_eq_ok_iff]
  · have hmessage := congrArg (· = some message) (rule_violation? s.pool)
    simp only [Option.map_eq_some_iff] at hmessage
    simp only [ofStated_eq_error_iff]
    exact iff_of_eq hmessage

theorem pool_ofStated (s : Stated) (d : StatedDrain) :
    (ofStated ⟨d, s.pool⟩).map Config.pool = (ofStated s).map Config.pool := by
  cases h : violation? s.pool.settings with
  | none =>
    rw [ofStated_of_valid h, ofStated_of_valid (s := ⟨d, s.pool⟩) h]
    rfl
  | some why =>
    rw [ofStated_of_violation h, ofStated_of_violation (s := ⟨d, s.pool⟩) h]

theorem start_of_ofStated {τ : Type} (h : ofStated s = .ok c)
    (refusal : Nat → Option Quiesce.Fault) (others : Nat → Pool.Machine τ → Pool.Machine τ) :
    c.pool.start refusal others = c.pool.startUnraised refusal others := by
  obtain ⟨hw, hq, -⟩ := violation?_eq_none_iff.mp (violation?_of_ofStated h)
  exact c.pool.start_eq_startUnraised hw hq refusal others

/-- A document's statement is accepted if it breaks no rule, and what it says about the drain has
no part in that. All of it is used as it stands; the pool takes the sizes as they are. -/
theorem validation_exact (s : Stated) :
    Validated s (ofStated s) ∧
    (∀ d, (ofStated ⟨d, s.pool⟩).map Config.pool = (ofStated s).map Config.pool) ∧
    ∀ c, ofStated s = .ok c → ∀ (τ : Type) (refusal : Nat → Option Quiesce.Fault)
      (others : Nat → Pool.Machine τ → Pool.Machine τ),
      c.pool.start refusal others = c.pool.startUnraised refusal others :=
  ⟨validated_ofStated s, pool_ofStated s, fun _ h _ => start_of_ofStated h⟩

/-- The longest period there is, and a name with white space around it. -/
def paddedStated : Stated := ⟨⟨some (Nat.pow 2 64 - 1), none⟩, ⟨some 1, none, some " job\u3000"⟩⟩

def crampedStated : Stated := ⟨⟨some 0, some 0⟩, ⟨none, some 0, some "\u3000 "⟩⟩

theorem padded_validated :
    (∃ c, ofStated paddedStated = .ok c ∧ c.pool.threadName = " job\u3000" ∧
      c.drain.grace.seconds = 18446744073709551 ∧ c.drain.grace.subsecond = 615000000 ∧
      c.pool.start (τ := Nat) (fun _ => none) (fun _ m => m) =
        c.pool.startUnraised (fun _ => none) (fun _ m => m)) ∧
    ∃ why, ofStated crampedStated = .error why ∧
      why.rule = "pool.queue_capacity must be at least 1" := by
  obtain ⟨hpadded, -, hstart⟩ := validation_exact paddedStated
  obtain ⟨hcramped, -, -⟩ := validation_exact crampedStated
  constructor
  · have hname (name : String) (h : paddedStated.pool.threadName = some name) :
        ∃ ch ∈ name.toList, Text.isWhiteSpace ch = false := by
      obtain rfl := Option.some.inj h
      exact ⟨'j', by decide, by decide⟩
    obtain ⟨c, hc⟩ := hpadded.accepted.mpr ⟨by decide, by decide, hname⟩
    have hu := hpadded.uses c hc
    refine ⟨c, hc, hu.threadName.symm, ?_, ?_, hstart c hc Nat _ _⟩
    · exact hu.grace.seconds.trans rfl
    · exact hu.grace.subsecond.trans rfl
  · exact (hcramped.rejected _).mpr ⟨_, rfl, rfl⟩

end Config

end Quiesce
