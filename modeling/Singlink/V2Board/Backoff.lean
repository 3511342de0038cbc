import Singlink.V2Board.Controller
/-!
# The back-off of the controller's timers

`Controller.run` keeps one `controllerBackoff` for pulling, one for pushing and
one for the status report, and arms the timer with what `Next` returns. All the
arithmetic is done on `int64` nanoseconds and wraps. The bases are the
configured intervals, which have a minimum but no maximum.
-/

namespace Singlink.V2Board

/-! ## Durations -/

def minute : Int := 60 * second
def minimumInterval : Int := 5 * second
def maxControllerBackoff : Int := 5 * minute

theorem minimumInterval_eq : minimumInterval = 5000000000 := rfl
theorem maxControllerBackoff_eq : maxControllerBackoff = 300000000000 := rfl

/-- What an `int64` computation leaves of its exact result. -/
def wrap64 (n : Int) : Int := n.bmod (2 ^ 64)

theorem wrap64_of_fits {n : Int} (h : -2 ^ 63 ≤ n) (h' : n < 2 ^ 63) : wrap64 n = n := by
  simp only [wrap64, Int.bmod]
  omega

theorem wrap64_of_overflow {n : Int} (h : 2 ^ 63 ≤ n) (h' : n < 2 ^ 64) : wrap64 n = n - 2 ^ 64 := by
  simp only [wrap64, Int.bmod]
  omega

structure PositiveDuration where
  val : Int
  pos : 0 < val
  fits : val < 2 ^ 63
  deriving DecidableEq

/-! ## The code -/

structure ControllerBackoff where
  attempt : Int := 0
  delay : Int := 0
  deriving DecidableEq, Repr

def runtimeInterval (duration : Int) : Int := if duration ≤ 0 then minute else duration

section
variable (sum256 : String → UInt16)

/-- `sum256` gives the first two bytes of the SHA-256 sum of a text. -/
def jitterInterval (duration : Int) (key : String) (attempt : Int) : Int :=
  if duration ≤ 0 then duration
  else
    let seed := sum256 s!"{key}/{attempt}/{duration}"
    let offset : Int := (seed.toNat % 41 : Nat) - 20
    let jittered := wrap64 (duration + (wrap64 (duration * offset)).tdiv 100)
    if jittered < minimumInterval then minimumInterval
    else if maxControllerBackoff < jittered then maxControllerBackoff
    else jittered

/-- The delay that an error makes of the previous one. -/
def ControllerBackoff.raised (b : ControllerBackoff) (base : Int) : Int :=
  if b.delay < base then base
  else if maxControllerBackoff < wrap64 (b.delay * 2) then maxControllerBackoff
  else wrap64 (b.delay * 2)

def ControllerBackoff.next (b : ControllerBackoff) (base : Int) (err : Option String) (jitterKey : String) :
    Int × ControllerBackoff :=
  let base := runtimeInterval base
  match err with
  | none => (base, { attempt := 0, delay := 0 })
  | some _ =>
    let delay := b.raised base
    let attempt := wrap64 (b.attempt + 1)
    (jitterInterval sum256 delay jitterKey attempt, { attempt, delay })

/-- A call of `Next`, or the status loop starting over after `statusReset`. -/
inductive BackoffEvent
  | next (base : PositiveDuration) (err : Option String) (jitterKey : String)
  | reset
  deriving DecidableEq

def ControllerBackoff.step (b : ControllerBackoff) : BackoffEvent → ControllerBackoff
  | .next base err jitterKey => (b.next sum256 base.val err jitterKey).2
  | .reset => {}

/-- The back-off after a sequence of events, from its zero value. -/
def backoffAfter (events : List BackoffEvent) : ControllerBackoff := events.foldl (·.step sum256) {}

end

/-! ## One call -/

variable {sum256 : String → UInt16}

@[simp] theorem runtimeInterval_of_positive (base : PositiveDuration) : runtimeInterval base.val = base.val := by
  have := base.pos
  simp only [runtimeInterval]
  omega

@[simp] theorem backoffAfter_append (events : List BackoffEvent) (event : BackoffEvent) :
    backoffAfter sum256 (events ++ [event]) = (backoffAfter sum256 events).step sum256 event := by
  simp [backoffAfter]

@[simp] theorem ControllerBackoff.step_error (b : ControllerBackoff) (base : PositiveDuration) (e key : String) :
    (b.step sum256 (.next base (some e) key)).delay = b.raised base.val := by
  simp [step, next]

/-- A positive delay is clamped however its jitter wraps; any other is returned as it is. -/
theorem jitterInterval_bounds_iff (duration : Int) (key : String) (attempt : Int) :
    (minimumInterval ≤ jitterInterval sum256 duration key attempt ∧
      jitterInterval sum256 duration key attempt ≤ maxControllerBackoff) ↔ 0 < duration := by
  have hmin := minimumInterval_eq
  have hmax := maxControllerBackoff_eq
  simp only [jitterInterval]
  constructor
  · intro h
    by_contra hneg
    omega
  · intro h
    split
    · omega
    · split <;> omega

variable {b : ControllerBackoff} {base : PositiveDuration} {events : List BackoffEvent}

/-- Doubling leaves the range from `2 ^ 62` on, and wraps to a negative number there. -/
theorem ControllerBackoff.raised_pos_iff (h : b.delay < 2 ^ 63) (base : PositiveDuration) :
    0 < b.raised base.val ↔ ¬(2 ^ 62 ≤ b.delay ∧ base.val ≤ b.delay) := by
  have hmax := maxControllerBackoff_eq
  have hbase := base.pos
  simp only [raised]
  by_cases hlt : b.delay < base.val
  · rw [if_pos hlt]
    omega
  · rw [if_neg hlt]
    by_cases hbig : 2 ^ 62 ≤ b.delay
    · rw [wrap64_of_overflow (by omega) (by omega), if_neg (by omega)]
      omega
    · rw [wrap64_of_fits (by omega) (by omega)]
      split <;> omega

theorem ControllerBackoff.next_bounds_iff (h : b.delay < 2 ^ 63) (base : PositiveDuration) (e key : String) :
    (minimumInterval ≤ (b.next sum256 base.val (some e) key).1 ∧
      (b.next sum256 base.val (some e) key).1 ≤ maxControllerBackoff) ↔ ¬(2 ^ 62 ≤ b.delay ∧ base.val ≤ b.delay) := by
  simp only [next, runtimeInterval_of_positive]
  rw [jitterInterval_bounds_iff, raised_pos_iff h]

/-! ## Sequences of calls -/

/-- A delay of `2 ^ 62` or more is the base of the call just made, which failed. -/
def HugeDelay (sum256 : String → UInt16) (events : List BackoffEvent) : Prop :=
  2 ^ 62 ≤ (backoffAfter sum256 events).delay → ∃ pre base e key,
    events = pre ++ [.next base (some e) key] ∧ base.val = (backoffAfter sum256 events).delay

open ControllerBackoff

theorem backoffAfter_invariant (events : List BackoffEvent) :
    (backoffAfter sum256 events).delay < 2 ^ 63 ∧ HugeDelay sum256 events := by
  have hmax := maxControllerBackoff_eq
  -- from the left, since the invariant speaks of the last event
  induction events using List.reverseRecOn with
  | nil => simp [backoffAfter, HugeDelay]
  | append_singleton events event _ =>
    cases event with
    | reset => simp [HugeDelay, step]
    | next base err key =>
      cases err with
      | none => simp [HugeDelay, step, next]
      | some e =>
        have hfits := base.fits
        simp only [HugeDelay, backoffAfter_append, step_error, raised]
        by_cases hlt : (backoffAfter sum256 events).delay < base.val
        · rw [if_pos hlt]
          exact ⟨hfits, fun _ => ⟨events, base, e, key, rfl, rfl⟩⟩
        · rw [if_neg hlt]
          split <;> omega

/-- With one base of at most five minutes the delay is zero or lies between the base and five minutes. -/
theorem backoffAfter_constant (hbase : base.val ≤ maxControllerBackoff) (h : ∀ b err key, .next b err key ∈ events → b = base) :
    (backoffAfter sum256 events).delay = 0 ∨
      base.val ≤ (backoffAfter sum256 events).delay ∧ (backoffAfter sum256 events).delay ≤ maxControllerBackoff := by
  have hmax := maxControllerBackoff_eq
  induction events using List.reverseRecOn with
  | nil => simp [backoffAfter]
  | append_singleton events event ih =>
    cases event with
    | reset => simp [step]
    | next b err key =>
      cases err with
      | none => simp [step, next]
      | some e =>
        obtain rfl : b = base := h b (some e) key (by simp)
        have hdelay := ih (fun b' err' key' hmem => h b' err' key' (by simp [hmem]))
        have hpos := b.pos
        right
        simp only [backoffAfter_append, step_error, raised]
        by_cases hlt : (backoffAfter sum256 events).delay < b.val
        · rw [if_pos hlt]
          omega
        · rw [if_neg hlt, wrap64_of_fits (by omega) (by omega)]
          split <;> omega

/-! ## What the timers are armed with -/

/-- What is asked of a sequence of calls, whatever precedes and follows each of them. -/
structure BackoffSound (sum256 : String → UInt16) (events : List BackoffEvent) : Prop where
  /-- After an error the delay lies between five seconds and five minutes. -/
  error_bounds : ∀ pre base e key post, events = pre ++ .next base (some e) key :: post →
    let delay := ((backoffAfter sum256 pre).next sum256 base.val (some e) key).1
    minimumInterval ≤ delay ∧ delay ≤ maxControllerBackoff
  /-- After a success it is the base. -/
  success : ∀ pre base key post, events = pre ++ .next base none key :: post →
    ((backoffAfter sum256 pre).next sum256 base.val none key).1 = base.val
  /-- With one base of at most five minutes an error after an error never lowers the delay kept. -/
  monotone : ∀ base : PositiveDuration, base.val ≤ maxControllerBackoff →
    (∀ b err key, .next b err key ∈ events → b = base) →
    ∀ pre e key e' key' post, events = pre ++ .next base (some e) key :: .next base (some e') key' :: post →
      (backoffAfter sum256 (pre ++ [.next base (some e) key])).delay ≤
        (backoffAfter sum256 (pre ++ [.next base (some e) key] ++ [.next base (some e') key'])).delay

/-- Two errors in a row, the first with a base of at least `2 ^ 62` and the second with one that is no larger. -/
def DoublesHugeBase (events : List BackoffEvent) : Prop :=
  ∃ pre base e key base' e' key' post,
    events = pre ++ .next base (some e) key :: .next base' (some e') key' :: post ∧
      2 ^ 62 ≤ base.val ∧ base'.val ≤ base.val

theorem raised_monotone (hbase : base.val ≤ maxControllerBackoff)
    (h : b.delay = 0 ∨ base.val ≤ b.delay ∧ b.delay ≤ maxControllerBackoff) : b.delay ≤ b.raised base.val := by
  have hmax := maxControllerBackoff_eq
  have hpos := base.pos
  simp only [raised]
  by_cases hlt : b.delay < base.val
  · rw [if_pos hlt]
    omega
  · rw [if_neg hlt, wrap64_of_fits (by omega) (by omega)]
    split <;> omega

/-- An error out of bounds follows an error whose huge base it doubles. -/
theorem error_bounds_of_not_doubles (h : ¬DoublesHugeBase events) {pre post : List BackoffEvent} {e key : String}
    (hevents : events = pre ++ .next base (some e) key :: post) :
    minimumInterval ≤ ((backoffAfter sum256 pre).next sum256 base.val (some e) key).1 ∧
      ((backoffAfter sum256 pre).next sum256 base.val (some e) key).1 ≤ maxControllerBackoff := by
  obtain ⟨hfits, hhuge⟩ : (backoffAfter sum256 pre).delay < 2 ^ 63 ∧ HugeDelay sum256 pre := backoffAfter_invariant pre
  rw [next_bounds_iff hfits]
  rintro ⟨hdelay, hle⟩
  obtain ⟨before, base₀, e₀, key₀, rfl, hbase₀⟩ := hhuge hdelay
  apply h
  refine ⟨before, base₀, e₀, key₀, base, e, key, post, ?_, ?_, ?_⟩
  · rw [hevents, List.append_assoc, List.singleton_append]
  · rw [hbase₀]
    exact hdelay
  · rw [hbase₀]
    exact hle

/-- Either the first of the two errors is out of bounds already, or it leaves its base for the second to double. -/
theorem not_error_bounds_of_doubles (h : DoublesHugeBase events) : ¬BackoffSound sum256 events := by
  obtain ⟨pre, base, e, key, base', e', key', post, hevents, hhuge, hle⟩ := h
  intro hsound
  have hfirst := hsound.error_bounds pre base e key _ hevents
  rw [next_bounds_iff (backoffAfter_invariant pre).1] at hfirst
  have hlt : (backoffAfter sum256 pre).delay < base.val := by omega
  have hdelay : (backoffAfter sum256 (pre ++ [.next base (some e) key])).delay = base.val := by
    rw [backoffAfter_append, step_error, raised, if_pos hlt]
  have hsecond := hsound.error_bounds (pre ++ [.next base (some e) key]) base' e' key' post (by simp [hevents])
  rw [next_bounds_iff (backoffAfter_invariant _).1, hdelay] at hsecond
  exact hsecond ⟨hhuge, hle⟩

/-- For every hash and every sequence of calls with positive bases: the delays are as asked unless an error whose base
is at least `2 ^ 62` nanoseconds is followed at once by another error with a base that is no larger. -/
theorem backoff_sound_iff (sum256 : String → UInt16) (events : List BackoffEvent) :
    BackoffSound sum256 events ↔ ¬DoublesHugeBase events := by
  constructor
  · intro hsound h
    exact not_error_bounds_of_doubles h hsound
  · intro h
    refine ⟨?_, ?_, ?_⟩
    · intro pre base e key post hevents
      exact error_bounds_of_not_doubles h hevents
    · intro pre base key post _
      simp [next]
    · intro base hbase hconstant pre e key e' key' post hevents
      rw [backoffAfter_append _ (.next base (some e') key'), step_error]
      apply raised_monotone hbase
      apply backoffAfter_constant hbase
      intro b err k hmem
      apply hconstant b err k
      rw [hevents]
      simp only [List.mem_append, List.mem_singleton] at hmem
      rcases hmem with hmem | hmem <;> simp [hmem]

/-- An interval of 4611686019 seconds passes `normalizeInterval`. -/
def hugeInterval : PositiveDuration := ⟨4611686019 * second, by decide, by decide⟩

/-- The second error doubles it to a negative delay. -/
theorem backoff_overflow :
    normalizeInterval hugeInterval.val = hugeInterval.val ∧
      ¬BackoffSound (fun _ => 0) [.next hugeInterval (some "timeout") "node/pull",
        .next hugeInterval (some "timeout") "node/pull"] ∧
      (ControllerBackoff.next (fun _ => 0)
        (backoffAfter (fun _ => 0) [.next hugeInterval (some "timeout") "node/pull"])
        hugeInterval.val (some "timeout") "node/pull").1 = -9223372035709551616 := by
  refine ⟨by decide, ?_, by decide +kernel⟩
  apply not_error_bounds_of_doubles
  exact ⟨[], hugeInterval, _, _, hugeInterval, _, _, [], rfl, by decide, by decide⟩

end Singlink.V2Board
