import Singlink.V2Board.InPlace
import Singlink.V2Board.Retry
/-!
# The rate limit

`service/v2board/rate_limit.go`: the limiter of a user and what a limited connection
waits for. A connection's context is done once it is closed, and has no deadline.
-/

namespace Singlink.V2Board

open Lib GoMap NodeTraffic

variable {R E : Type} {n : NodeTraffic R} {l : RateLimiter} {done : Int → Bool} {speed : Int64}

/-! ## Waiting -/

inductive WaitError where
  | exceedsBurst
  | canceled

/-- `Limiter.WaitN`, where `done` says that the context is done before the tokens
are there. -/
def RateLimiter.waitN (l : RateLimiter) (done : Bool) (n : Int) : Option WaitError :=
  if l.burst.toInt < n then some .exceedsBurst else if done then some .canceled else none

/-- The loop of `waitRate`, with the tokens it asks for. `done` is by the bytes left. -/
def RateLimiter.waitLoop (l : RateLimiter) (h : 0 < l.burst.toInt) (done : Int → Bool) (bytes : Int) :
    Option WaitError × List Int :=
  if 0 < bytes then
    let chunk := min bytes l.burst.toInt
    match l.waitN (done bytes) chunk with
    | some err => (some err, [chunk])
    | none =>
      let (err, chunks) := l.waitLoop h done (bytes - chunk)
      (err, chunk :: chunks)
  else (none, [])
termination_by bytes.toNat

def waitRate (limiter : Option RateLimiter) (done : Int → Bool) (bytes : Int) : Option WaitError × List Int :=
  match limiter with
  | none => (none, [])
  | some l =>
    if bytes ≤ 0 then (none, [])
    else if h : 0 < l.burst.toInt then l.waitLoop h done bytes else (none, [])

def mergeRateError (ioErr rateErr : Option E) : Option E := if ioErr.isSome then ioErr else rateErr

/-- `Read`, `ReadBuffer`, `Write` and `WriteBuffer` of `rateLimitedConn`, and the two
methods of `rateLimitedPacketConn`, once `n` bytes have been moved. -/
def charge (limiter : Option RateLimiter) (done : Int → Bool) (err : Option (E ⊕ WaitError)) (n : Int) :
    Option (E ⊕ WaitError) × List Int :=
  if 0 < n then
    let (rateErr, chunks) := waitRate limiter done n
    (mergeRateError err (rateErr.map .inr), chunks)
  else (err, [])

/-- All bytes are asked for, in chunks the limiter takes, unless the connection is closed. -/
def Asks (l : RateLimiter) (done : Int → Bool) (bytes : Int) (r : Option WaitError × List Int) : Prop :=
  (∀ chunk ∈ r.2, chunk ≤ l.burst.toInt) ∧ (r.1 = none ∧ r.2.sum = bytes ∨ r.1 = some .canceled ∧ ∃ k, done k = true)

theorem asks_waitLoop (h : 0 < l.burst.toInt) (bytes : Int) (hbytes : 0 ≤ bytes) :
    Asks l done bytes (l.waitLoop h done bytes) := by
  fun_induction RateLimiter.waitLoop l h done bytes with
  | case1 bytes hpos chunk err hwait =>
    refine ⟨by simp [chunk], .inr ?_⟩
    rw [RateLimiter.waitN, if_neg (by omega)] at hwait
    split at hwait
    · cases hwait
      exact ⟨rfl, _, by assumption⟩
    · cases hwait
  | case2 bytes hpos chunk hwait err chunks heq ih =>
    have hrest := ih (by omega)
    rw [heq] at hrest
    refine ⟨List.forall_mem_cons.2 ⟨by omega, hrest.1⟩, hrest.2.imp_left fun hall => ⟨hall.1, ?_⟩⟩
    rw [List.sum_cons, hall.2]
    omega
  | case3 bytes hneg => exact ⟨nofun, .inl ⟨rfl, by simp; omega⟩⟩

theorem asks_waitRate (h : 0 < l.burst.toInt) {bytes : Int} (hbytes : 0 ≤ bytes) :
    Asks l done bytes (waitRate (some l) done bytes) := by
  simp only [waitRate]
  split
  · exact ⟨nofun, .inl ⟨rfl, by simp; omega⟩⟩
  · exact asks_waitLoop h bytes hbytes

/-! ## The limiter of a user -/

theorem toInt_speedLimitBytesPerSecond (hpos : 0 < speed.toInt) :
    (speedLimitBytesPerSecond speed).toInt = ((speed.toInt * 1000000).bmod (2 ^ 64)).tdiv 8 := by
  have hmul : (speed * 1000 * 1000).toInt = (speed.toInt * 1000000).bmod (2 ^ 64) := by
    rw [Int64.toInt_mul, Int64.toInt_mul, show Int64.toInt 1000 = 1000 from rfl, Int.bmod_mul_bmod, Int.mul_assoc]
    rfl
  rw [speedLimitBytesPerSecond, if_neg (by rw [Int64.le_iff_toInt_le]; exact not_le.2 hpos),
    Int64.toInt_div_of_ne_right _ _ (by decide), hmul]
  rfl

/-- A speed whose product with a million fits has the limiter asked for; any other has a
lower one or none. -/
theorem newRateLimiter_eq (hpos : 0 < speed.toInt) (ref : Nat) :
    if speed.toInt * 1000000 < 2 ^ 63 then
      ∃ l, newRateLimiter ref speed = some l ∧ l.limit.toInt = 125000 * speed.toInt ∧ l.burst = l.limit
    else ∀ l, newRateLimiter ref speed = some l → l.limit.toInt < 125000 * speed.toInt := by
  have hrate := toInt_speedLimitBytesPerSecond hpos
  unfold newRateLimiter
  simp only [Int64.le_iff_toInt_le, Int64.toInt_zero]
  split
  · rw [Int.bmod_eq_of_le_mul_two (by omega) (by omega), Int.tdiv_eq_ediv_of_nonneg (by omega)] at hrate
    exact ⟨_, if_neg (by omega), by dsimp only; omega, rfl⟩
  · intro l hl
    have hlt := Int.bmod_lt (x := speed.toInt * 1000000) (m := 2 ^ 64) (by decide)
    have hsign : Int.sign 8 = 1 := rfl
    rw [Int.tdiv_eq_ediv] at hrate
    split at hl
    · cases hl
    · cases hl
      dsimp only
      split at hrate <;> omega

/-- The limiter has the rate asked for in Mbit/s, grows with it, and takes transfers of
every size. -/
structure Limits (speed : Int64) (l : RateLimiter) : Prop where
  limit : 0 < l.limit.toInt ∧ 125000 * speed.toInt ≤ l.limit.toInt
  burst : 0 < l.burst.toInt
  mono : ∀ (speed' : Int64) ref, 0 < speed'.toInt → speed'.toInt ≤ speed.toInt →
    ∃ l', newRateLimiter ref speed' = some l' ∧ l'.limit.toInt ≤ l.limit.toInt ∧ l'.burst.toInt ≤ l.burst.toInt
  asks : ∀ done bytes, 0 ≤ bytes → Asks l done bytes (waitRate (some l) done bytes)
  /-- no error of its own while the connection is open -/
  charges : ∀ (E : Type) done (err : Option (E ⊕ WaitError)) n, 0 ≤ n → (∀ k, done k = false) →
    charge (some l) done err n = (err, (waitRate (some l) done n).2)

theorem charge_eq (h : 0 < l.burst.toInt) (err : Option (E ⊕ WaitError)) {n : Int} (hn : 0 ≤ n)
    (hdone : ∀ k, done k = false) : charge (some l) done err n = (err, (waitRate (some l) done n).2) := by
  unfold charge
  split
  · have hasks : Asks l done n _ := asks_waitRate h hn
    rcases hasks.2 with ⟨hnone, -⟩ | ⟨-, k, hk⟩
    · simp only [hnone]
      cases err <;> rfl
    · cases (hdone k).symm.trans hk
  · rw [waitRate, if_pos (by omega)]

theorem limits_iff (hpos : 0 < speed.toInt) (ref : Nat) :
    (∃ l, newRateLimiter ref speed = some l ∧ Limits speed l) ↔ speed.toInt * 1000000 < 2 ^ 63 := by
  constructor
  · rintro ⟨l, hl, h⟩
    by_contra hfits
    have heq := newRateLimiter_eq hpos ref
    rw [if_neg hfits] at heq
    exact absurd h.limit.2 (not_le.2 (heq l hl))
  · intro hfits
    have heq : ∀ (speed' : Int64) ref, 0 < speed'.toInt → speed'.toInt ≤ speed.toInt → ∃ l,
        newRateLimiter ref speed' = some l ∧ l.limit.toInt = 125000 * speed'.toInt ∧ l.burst = l.limit := by
      intro speed' ref hpos' hle
      have heq := newRateLimiter_eq hpos' ref
      rwa [if_pos (by omega)] at heq
    obtain ⟨l, hl, hlimit, hburst⟩ := heq speed ref hpos le_rfl
    have hpos' : 0 < l.burst.toInt := by rw [hburst]; omega
    refine ⟨l, hl, by omega, hpos', fun speed' ref' hspeed hle => ?_, fun done bytes => asks_waitRate hpos',
      fun E done err n => charge_eq hpos' err⟩
    obtain ⟨l', hl', hlimit', hburst'⟩ := heq speed' ref' hspeed hle
    exact ⟨l', hl', by omega, by rw [hburst, hburst']; omega⟩

/-- The limiter is one its speed makes. -/
def UserLimit.Made (u : UserLimit) : Prop := ∃ ref, u.limiter = newRateLimiter ref u.speed

theorem made_updatedUserLimit {key : String} (h : (n.limits.get key {}).Made) (ref : Nat) (user : UserInfo) :
    (n.updatedUserLimit ref key user).Made := by
  unfold updatedUserLimit
  split
  · rename_i hle
    exact ⟨0, by simp [newRateLimiter, speedLimitBytesPerSecond, hle]⟩
  · dsimp only
    split
    · rename_i hsame
      exact hsame.1 ▸ h
    · exact ⟨ref, rfl⟩

theorem made_updateUsers (h : ∀ key, (n.limits.get key {}).Made) (a : UpdateArgs R) (key : String) :
    ((n.updateUsers a).limits.get key {}).Made := by
  refine nextUsers_rule n a key (P := fun _ acc => (acc.limits.get key {}).Made) (fun _ _ _ hsame => hsame.limits ▸ id) ?_
    fun _ _ _ => ⟨0, rfl⟩
  rintro _ acc user - hne rfl -
  unfold updateUser
  simp only [if_neg hne, get_insert, if_true]
  exact made_updatedUserLimit (h _) _ user

theorem made_reach {ok : NodeTraffic R → NodeOp R → Prop} (h : Reach (nodeSystem R) ok n) (key : String) :
    (n.limits.get key {}).Made := by
  refine Reach.inv (fun n => ∀ key, (n.limits.get key {}).Made) ?_ ?_ h key
  · rintro _ ⟨rules, rfl⟩ key
    exact ⟨0, rfl⟩
  · rintro n op _ hn - rfl
    cases op with
    | update a => exact made_updateUsers hn a
    | updateAliveList | trackConn | untrackConn | count | snapshot => exact hn
    | markOnline user ip now order =>
      obtain ⟨online, heq⟩ := markOnline_cases n user ip now order
      rwa [operate, heq]
    | restoreTraffic traffic orders => rwa [operate, (restoreTraffic_rest n traffic orders).2.2.2.2]
    | restoreAlive alive order =>
      obtain ⟨online, heq⟩ := restoreAlive_cases n alive order
      rwa [operate, heq]

/-- The limiter that a node installs for a user is as it should be if and only if the
speed times a million is an `int64`. -/
theorem installed_iff (ok : NodeTraffic R → NodeOp R → Prop) (h : Reach (nodeSystem R) ok n) (ref : Nat) (key : String)
    (user : UserInfo) (hpos : 0 < user.speedLimit.toInt) :
    (∃ l, (n.updatedUserLimit ref key user).limiter = some l ∧ Limits user.speedLimit l) ↔
      user.speedLimit.toInt * 1000000 < 2 ^ 63 := by
  obtain ⟨ref', hlimiter⟩ := made_updatedUserLimit (made_reach h key) ref user
  rw [hlimiter, updatedUserLimit_speed]
  exact limits_iff hpos ref'

theorem installed_ten :
    ∃ l, ((zero () : NodeTraffic Unit).updatedUserLimit 0 "u" { speedLimit := 10 }).limiter = some l ∧ Limits 10 l :=
  (installed_iff (fun _ _ => True) (.init ⟨(), rfl⟩) 0 "u" { speedLimit := 10 } (by decide)).2 (by decide)

/-- The largest speed is no limit, and a smaller one that is too large is a low one. -/
theorem large_speed_unlimited :
    let n : NodeTraffic Unit := .zero ()
    (n.updatedUserLimit 0 "u" { speedLimit := 9223372036854775807 }).limiter = none ∧
      (n.updatedUserLimit 0 "u" { speedLimit := 18446744073710 }).limiter =
        some { ref := 0, limit := 56048, burst := 56048 } := by
  decide

end Singlink.V2Board
