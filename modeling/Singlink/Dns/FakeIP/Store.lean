import Singlink.Options.Netip
/-!
# The store of fake addresses

`dns/transport/fakeip/store.go`. A store hands out the addresses of two ranges, one
for each family, in turn, and keeps the domains they stand for in a storage: in
memory, or in the cache file. The storage is the interface `FakeIPStorage`.

`Create` looks a domain up and, if it has no address, takes the next one under its
lock; both are one step here, and so is each transaction of the database.
-/

namespace Singlink.Dns.FakeIP

open Options BitVec

/-- A domain, by its bytes. -/
abbrev Domain := GoString

structure FakeIPMetadata where
  inet4Range : Prefix
  inet6Range : Prefix
  inet4Current : Addr
  inet6Current : Addr
  deriving DecidableEq

/-- `adapter.FakeIPStorage`, as far as `Store` calls it, with what happens to a
storage meanwhile. Where a transaction is made, the first argument says whether it
goes through; no result is an error, which leaves the storage as it was. -/
structure FakeIPStorage (σ : Type) where
  /-- The storage a start uses. -/
  opened : σ → σ
  fakeIPMetadata : Bool → σ → Option FakeIPMetadata × σ
  fakeIPSaveMetadata : Bool → FakeIPMetadata → σ → Bool × σ
  fakeIPSaveMetadataAsync : FakeIPMetadata → σ → σ
  fakeIPStore : Bool → Addr → Domain → σ → Option σ
  fakeIPLoad : σ → Addr → Option Domain
  fakeIPLoadDomain : σ → Domain → Bool → Option Addr
  fakeIPReset : Bool → σ → Option σ
  /-- The timer that writes the metadata fires. -/
  flush : Bool → σ → σ
  /-- The process ends, with the metadata written or not, and another is started. -/
  reopen : Bool → σ → σ

/-! ## The last address of a range -/

def as16 : Addr → BitVec 128
  | .zero => 0
  | .v4 addr => (0xffff : BitVec 96) ++ addr
  | .v6 addr => addr

/-- The loop of `broadcastAddress`, which sets the bits from `bits` on; the first bit
is the highest. -/
def setBits (raw : BitVec 128) (bits : Nat) : BitVec 128 :=
  (List.range' bits (128 - bits)).foldl (fun raw i => raw ||| BitVec.twoPow 128 (127 - i)) raw

def broadcastAddress (p : Prefix) : Addr :=
  if p.addr.is4 then .v4 ((setBits (as16 p.addr) (p.bits.getD 0 + 96)).setWidth 32)
  else .v6 (setBits (as16 p.addr) (p.bits.getD 0))

theorem getLsbD_foldl_or (l : List Nat) (raw : BitVec 128) {j : Nat} (hj : j < 128) :
    (l.foldl (fun raw i => raw ||| twoPow 128 (127 - i)) raw).getLsbD j =
      (raw.getLsbD j || decide (∃ i ∈ l, 127 - i = j)) := by
  induction l generalizing raw with
  | nil => simp
  | cons i l ih =>
    rw [List.foldl_cons, ih, getLsbD_or, getLsbD_twoPow]
    simp only [List.mem_cons, exists_eq_or_imp, Bool.or_assoc, Bool.decide_or]
    congr 2
    simp only [decide_eq_true_eq, Bool.and_eq_decide, decide_eq_decide]
    omega

theorem getLsbD_setBits (raw : BitVec 128) {bits j : Nat} (hj : j < 128) :
    (setBits raw bits).getLsbD j = (raw.getLsbD j || decide (j < 128 - bits)) := by
  rw [setBits, getLsbD_foldl_or _ _ hj]
  congr 2
  simp only [List.mem_range'_1, eq_iff_iff]
  constructor
  · rintro ⟨i, hi, rfl⟩
    omega
  · intro hlt
    exact ⟨127 - j, by omega, by omega⟩

/-- A number with its lowest bits set is the last of its block. -/
theorem eq_of_testBit_or {m n k : Nat} (h : ∀ j, m.testBit j = (n.testBit j || decide (j < k))) :
    m = 2 ^ k * (n / 2 ^ k) + (2 ^ k - 1) := by
  refine Nat.eq_of_testBit_eq fun j => ?_
  rw [h, Nat.testBit_two_pow_mul_add _ (Nat.sub_lt (Nat.two_pow_pos k) Nat.one_pos),
    Nat.testBit_div_two_pow]
  split
  · rename_i hj
    simp [hj]
  · rename_i hj
    simp [hj, Nat.sub_add_cancel (Nat.le_of_not_lt hj)]

theorem broadcastAddress_spec {p : Prefix} (hp : p.isValid = true) :
    (broadcastAddress p).bitLen = p.addr.bitLen ∧ (broadcastAddress p).toNat + 1 = p.first + p.size := by
  obtain ⟨addr, bits, hvalid⟩ := p
  cases bits with
  | none => cases hp
  | some n =>
    obtain ⟨hzero, hn⟩ := hvalid n rfl
    -- the block ends one below the next multiple of its size
    have hend : ∀ {m k x : Nat}, m = 2 ^ k * (x / 2 ^ k) + (2 ^ k - 1) → m + 1 = 2 ^ k * (x / 2 ^ k) + 2 ^ k := by
      intro m k x hm
      have hpos := Nat.two_pow_pos k
      omega
    cases addr with
    | zero => exact absurd rfl hzero
    | v4 x =>
      refine ⟨rfl, hend (eq_of_testBit_or fun j => ?_)⟩
      change ((setBits (as16 (.v4 x)) (n + 96)).setWidth 32).toNat.testBit j =
        (x.toNat.testBit j || decide (j < 32 - n))
      rw [testBit_toNat, testBit_toNat, getLsbD_setWidth]
      by_cases hj : j < 32
      · rw [getLsbD_setBits _ (by omega), as16, getLsbD_append]
        simp only [hj, decide_true, Bool.true_and, if_true]
        congr 2
        rw [eq_iff_iff]
        omega
      · rw [getLsbD_of_ge x j (by omega)]
        have hk : ¬ j < 32 - n := by omega
        simp [hj, hk]
    | v6 x =>
      refine ⟨rfl, hend (eq_of_testBit_or fun j => ?_)⟩
      change (setBits x n).toNat.testBit j = (x.toNat.testBit j || decide (j < 128 - n))
      rw [testBit_toNat, testBit_toNat]
      by_cases hj : j < 128
      · exact getLsbD_setBits x hj
      · rw [getLsbD_of_ge _ j (by omega), getLsbD_of_ge x j (by omega)]
        have hk : ¬ j < 128 - n := by omega
        simp [hk]

/-! ## The store -/

/-- What `Store` has of one family: `inet4Range`, `inet4Last` and `inet4Current`, or
the same for `inet6`. -/
structure Pool where
  range : Prefix
  last : Addr
  current : Addr

namespace Pool

/-- `NewStore`, for one family. -/
def new (range : Prefix) : Pool :=
  { range, last := if range.isValid then broadcastAddress range else .zero, current := .zero }

/-- `Start` without metadata, for one family. -/
def restart (p : Pool) : Pool := if p.range.isValid then { p with current := p.range.addr.next } else p

def nextAddress (p : Pool) : Addr :=
  let nextAddress := p.current.next
  if nextAddress = p.last ∨ p.range.contains nextAddress = false then p.range.addr.next.next
  else nextAddress

end Pool

/-- `Store`, with the storage it uses once it is started. -/
structure Store (σ : Type) where
  inet4 : Pool
  inet6 : Pool
  storage : σ
  started : Bool

inductive CreateError where
  | nilPointerDereference
  | missingRange (isIPv6 : Bool)
  deriving DecidableEq

def CreateError.message : CreateError → String
  | .nilPointerDereference => "invalid memory address or nil pointer dereference"
  | .missingRange false => "missing IPv4 fakeip address range"
  | .missingRange true => "missing IPv6 fakeip address range"

namespace Store

variable {σ : Type}

def pool (s : Store σ) (isIPv6 : Bool) : Pool := if isIPv6 then s.inet6 else s.inet4

def setCurrent (s : Store σ) (isIPv6 : Bool) (address : Addr) : Store σ :=
  if isIPv6 then { s with inet6 := { s.inet6 with current := address } }
  else { s with inet4 := { s.inet4 with current := address } }

variable (s : Store σ)

theorem pool_setCurrent (isIPv6 isIPv6' : Bool) (address : Addr) : (s.setCurrent isIPv6 address).pool isIPv6' =
      if isIPv6' = isIPv6 then { s.pool isIPv6' with current := address } else s.pool isIPv6' := by
  cases isIPv6 <;> cases isIPv6' <;> rfl

@[simp] theorem storage_setCurrent (isIPv6 : Bool) (address : Addr) :
    (s.setCurrent isIPv6 address).storage = s.storage := by
  cases isIPv6 <;> rfl

@[simp] theorem started_setCurrent (isIPv6 : Bool) (address : Addr) :
    (s.setCurrent isIPv6 address).started = s.started := by
  cases isIPv6 <;> rfl

def newStore (storage : σ) (inet4Range inet6Range : Prefix) : Store σ :=
  { inet4 := .new inet4Range, inet6 := .new inet6Range, storage, started := false }

def metadata (s : Store σ) : FakeIPMetadata :=
  { inet4Range := s.inet4.range, inet6Range := s.inet6.range
    inet4Current := s.inet4.current, inet6Current := s.inet6.current }

/-- `Start` where it takes over the metadata. -/
def resume (s : Store σ) (metadata : FakeIPMetadata) (storage : σ) : Store σ :=
  { inet4 := { s.inet4 with current := metadata.inet4Current }
    inet6 := { s.inet6 with current := metadata.inet6Current }
    storage, started := true }

/-- `Start` where it does not. -/
def restart (s : Store σ) (storage : σ) : Store σ :=
  { inet4 := s.inet4.restart, inet6 := s.inet6.restart, storage, started := true }

variable (x : FakeIPStorage σ)

/-- `Start`, with a flag for each of its two transactions. The error of the reset is
ignored. -/
def start (s : Store σ) (commitsLoad commitsReset : Bool) : Store σ :=
  let (metadata, storage) := x.fakeIPMetadata commitsLoad (x.opened s.storage)
  match metadata with
  | none => s.restart ((x.fakeIPReset commitsReset storage).getD storage)
  | some metadata =>
    if metadata.inet4Range = s.inet4.range ∧ metadata.inet6Range = s.inet6.range then s.resume metadata storage
    else s.restart ((x.fakeIPReset commitsReset storage).getD storage)

/-- `Create`. The error of the storage is only logged. -/
def create (s : Store σ) (domain : Domain) (isIPv6 commits : Bool) : Except CreateError Addr × Store σ :=
  if s.started = false then (.error .nilPointerDereference, s)
  else
    match x.fakeIPLoadDomain s.storage domain isIPv6 with
    | some address => (.ok address, s)
    | none =>
      if (s.pool isIPv6).current.isValid = false then (.error (.missingRange isIPv6), s)
      else
        let address := (s.pool isIPv6).nextAddress
        let s := s.setCurrent isIPv6 address
        let storage := (x.fakeIPStore commits address domain s.storage).getD s.storage
        (.ok address, { s with storage := x.fakeIPSaveMetadataAsync s.metadata storage })

theorem create_cases {s : Store σ} (hstarted : s.started = true) (domain : Domain) (isIPv6 commits : Bool) :
    (∃ address, x.fakeIPLoadDomain s.storage domain isIPv6 = some address ∧
      s.create x domain isIPv6 commits = (.ok address, s)) ∨
    (x.fakeIPLoadDomain s.storage domain isIPv6 = none ∧ (s.pool isIPv6).current.isValid = false ∧
      s.create x domain isIPv6 commits = (.error (.missingRange isIPv6), s)) ∨
    (x.fakeIPLoadDomain s.storage domain isIPv6 = none ∧ (s.pool isIPv6).current.isValid = true ∧
      s.create x domain isIPv6 commits = (.ok (s.pool isIPv6).nextAddress,
        { s.setCurrent isIPv6 (s.pool isIPv6).nextAddress with
          storage := x.fakeIPSaveMetadataAsync (s.setCurrent isIPv6 (s.pool isIPv6).nextAddress).metadata
            ((x.fakeIPStore commits (s.pool isIPv6).nextAddress domain
              s.storage).getD s.storage) })) := by
  unfold create
  rw [if_neg (by simp [hstarted])]
  cases hload : x.fakeIPLoadDomain s.storage domain isIPv6 with
  | some address => exact .inl ⟨address, rfl, rfl⟩
  | none =>
    by_cases hvalid : (s.pool isIPv6).current.isValid = false
    · exact .inr (.inl ⟨rfl, hvalid, if_pos hvalid⟩)
    · refine .inr (.inr ⟨rfl, Bool.eq_true_of_not_eq_false hvalid, ?_⟩)
      simp [if_neg hvalid]

def lookup (s : Store σ) (address : Addr) : Option Domain := x.fakeIPLoad s.storage address

/-- `Reset`; no result is an error. -/
def reset (s : Store σ) (commits : Bool) : Option (Store σ) :=
  (x.fakeIPReset commits s.storage).map fun storage => { s with storage }

/-- `Close`, and whether it has an error. -/
def close (s : Store σ) (commits : Bool) : Bool × Store σ :=
  if s.started = false then (false, s)
  else
    let (failed, storage) := x.fakeIPSaveMetadata commits s.metadata s.storage
    (failed, { s with storage })

end Store

end Singlink.Dns.FakeIP
