import Singlink.Lib.GoMap
import Singlink.Lib.Rotation
import Singlink.Lib.Runs
import Singlink.Dns.FakeIP.Store
/-!
# Fake addresses in memory

`dns/transport/fakeip/memory.go`, and a store that keeps its domains there. The
addresses of a family are handed out in turn, all but the first two and the last of
the range; one whose turn comes again is taken from its domain. A run keeps a log
of what it has handed out, and the maps say what the log says.
-/

namespace Singlink.Dns.FakeIP

open Options Lib List GoMap Function

/-! ## The maps -/

structure MemoryStorage where
  addressCache : GoMap Addr Domain := ∅
  domainCache4 : GoMap Domain Addr := ∅
  domainCache6 : GoMap Domain Addr := ∅

namespace MemoryStorage

def domainCache (m : MemoryStorage) (isIPv6 : Bool) : GoMap Domain Addr :=
  if isIPv6 then m.domainCache6 else m.domainCache4

def setDomainCache (m : MemoryStorage) (isIPv6 : Bool) (cache : GoMap Domain Addr) : MemoryStorage :=
  if isIPv6 then { m with domainCache6 := cache } else { m with domainCache4 := cache }

def fakeIPStore (m : MemoryStorage) (address : Addr) (domain : Domain) : MemoryStorage :=
  let isIPv6 := !address.is4
  let m :=
    match m.addressCache.lookup address with
    | some oldDomain => m.setDomainCache isIPv6 ((m.domainCache isIPv6).erase oldDomain)
    | none => m
  let m := { m with addressCache := m.addressCache.insert address domain }
  m.setDomainCache isIPv6 ((m.domainCache isIPv6).insert domain address)

end MemoryStorage

def memoryStorage : FakeIPStorage MemoryStorage where
  opened _ := {}
  fakeIPMetadata _ m := (none, m)
  fakeIPSaveMetadata _ _ m := (false, m)
  fakeIPSaveMetadataAsync _ m := m
  fakeIPStore _ address domain m := some (m.fakeIPStore address domain)
  fakeIPLoad m address := m.addressCache.lookup address
  fakeIPLoadDomain m domain isIPv6 := (m.domainCache isIPv6).lookup domain
  fakeIPReset _ _ := some {}
  flush _ m := m
  reopen _ _ := {}

namespace MemoryStorage

/-- The address map and the two domain maps are inverse to each other. -/
def Inverse (m : MemoryStorage) : Prop :=
  ∀ isIPv6 domain address, (m.domainCache isIPv6).lookup domain = some address ↔
    address.is4 = !isIPv6 ∧ m.addressCache.lookup address = some domain

variable {m : MemoryStorage}

theorem domainCache_setDomainCache (m : MemoryStorage) (isIPv6 isIPv6' : Bool) (cache : GoMap Domain Addr) :
    (m.setDomainCache isIPv6 cache).domainCache isIPv6' = if isIPv6' = isIPv6 then cache else m.domainCache isIPv6' := by
  cases isIPv6 <;> cases isIPv6' <;> rfl

@[simp] theorem addressCache_setDomainCache (m : MemoryStorage) (isIPv6 : Bool) (cache : GoMap Domain Addr) :
    (m.setDomainCache isIPv6 cache).addressCache = m.addressCache := by
  cases isIPv6 <;> rfl

theorem addressCache_fakeIPStore (m : MemoryStorage) (address : Addr) (domain : Domain) :
    (m.fakeIPStore address domain).addressCache = m.addressCache.insert address domain := by
  unfold fakeIPStore
  cases m.addressCache.lookup address <;> simp

theorem lookup_domainCache_fakeIPStore (m : MemoryStorage) (address : Addr) (domain : Domain) (isIPv6 : Bool)
    (domain' : Domain) : ((m.fakeIPStore address domain).domainCache isIPv6).lookup domain' =
      if isIPv6 = !address.is4 then if domain' = domain then some address
        else if m.addressCache.lookup address = some domain' then none else (m.domainCache isIPv6).lookup domain'
      else (m.domainCache isIPv6).lookup domain' := by
  have hwith : ∀ (m : MemoryStorage) cache, ({ m with addressCache := cache }).domainCache = m.domainCache := by
    intro m cache
    rfl
  unfold fakeIPStore
  cases hold : m.addressCache.lookup address with
  | none =>
    simp only [domainCache_setDomainCache, hwith]
    split
    · rename_i heq
      rw [lookup_insert_eq, ← heq]
      simp
    · rfl
  | some oldDomain =>
    simp only [domainCache_setDomainCache, hwith]
    split
    · rename_i heq
      rw [if_pos trivial, lookup_insert_eq, lookup_erase_eq, ← heq]
      simp [eq_comm]
    · rfl

theorem Inverse.store (h : m.Inverse) {address : Addr} {domain : Domain}
    (hnone : (m.domainCache (!address.is4)).lookup domain = none) : (m.fakeIPStore address domain).Inverse := by
  intro isIPv6 domain' address'
  rw [lookup_domainCache_fakeIPStore, addressCache_fakeIPStore, lookup_insert_eq]
  by_cases hfamily : isIPv6 = !address.is4
  · rw [if_pos hfamily]
    by_cases hdomain : domain' = domain
    · -- the domain had no other address
      subst hdomain
      rw [if_pos rfl]
      constructor
      · rintro ⟨⟩
        exact ⟨by simp [hfamily], if_pos rfl⟩
      · rintro ⟨his4, hlookup⟩
        split at hlookup
        · rename_i heq
          rw [heq]
        · have hload := (h isIPv6 domain' address').2 ⟨his4, hlookup⟩
          rw [hfamily, hnone] at hload
          cases hload
    · rw [if_neg hdomain]
      by_cases hold : m.addressCache.lookup address = some domain'
      · -- the domain that had the address has no other one
        rw [if_pos hold]
        refine ⟨nofun, ?_⟩
        rintro ⟨his4, hlookup⟩
        split at hlookup
        · exact absurd (Option.some.inj hlookup).symm hdomain
        · rename_i hne
          have hthis := (h isIPv6 domain' address').2 ⟨his4, hlookup⟩
          have hthat := (h isIPv6 domain' address).2 ⟨by simp [hfamily], hold⟩
          rw [hthis] at hthat
          exact absurd (Option.some.inj hthat) hne
      · rw [if_neg hold, h isIPv6 domain' address']
        refine and_congr_right fun _ => ?_
        by_cases heq : address' = address
        · rw [heq, if_pos rfl]
          exact ⟨fun hlookup => absurd hlookup hold, fun hsome => absurd (Option.some.inj hsome).symm hdomain⟩
        · rw [if_neg heq]
  · rw [if_neg hfamily, h isIPv6 domain' address']
    refine and_congr_right fun his4 => ?_
    have hne : address' ≠ address := by
      rintro rfl
      exact hfamily (by simp [his4])
    rw [if_neg hne]

end MemoryStorage

/-! ## Turns -/

namespace Pool

variable {p : Pool}

/-- The number of addresses that are handed out: all but three. -/
def usable (p : Pool) : Nat := p.range.size - 3

/-- The address whose turn is `i`. -/
def slot (p : Pool) (i : Nat) : Addr := p.range.addr.after (i + 2)

/-- A range of a family, if there is one, starts at its address and has at least
eight addresses. -/
structure Masked (isIPv6 : Bool) (range : Prefix) : Prop where
  family : range.isValid = true → range.addr.is4 = !isIPv6
  masked : range.isValid = true → range.addr.toNat = range.first
  large : range.isValid = true → 8 ≤ range.size

/-- Where the cursor stands after so many turns. -/
def turn (p : Pool) : Nat → Addr
  | 0 => p.range.addr.after 1
  | i + 1 => p.slot (i % p.usable)

section
variable {isIPv6 : Bool} (hmasked : Masked isIPv6 p.range) (hvalid : p.range.isValid = true)
include hmasked hvalid

theorem after_spec {k : Nat} (hk : k < p.range.size) :
    (p.range.addr.after k).bitLen = p.range.addr.bitLen ∧ (p.range.addr.after k).toNat = p.range.first + k := by
  have hlt := p.range.first_add_size_le
  have hfirst := hmasked.masked hvalid
  obtain ⟨hlen, hnat⟩ := Addr.after_spec k (a := p.range.addr) (by omega)
  exact ⟨hlen, by omega⟩

theorem usable_spec : p.usable + 3 = p.range.size ∧ 0 < p.usable := by
  have hlarge := hmasked.large hvalid
  unfold usable
  omega

variable {i : Nat}

theorem slot_spec (hi : i < p.usable) :
    (p.slot i).bitLen = p.range.addr.bitLen ∧ (p.slot i).toNat = p.range.first + i + 2 := by
  obtain ⟨hsize, -⟩ := usable_spec hmasked hvalid
  exact after_spec hmasked hvalid (by omega)

theorem slot_is4 (hi : i < p.usable) : (p.slot i).is4 = !isIPv6 := by
  rw [Addr.is4_eq (slot_spec hmasked hvalid hi).1]
  exact hmasked.family hvalid

theorem slot_injective : ∀ i < p.usable, ∀ j < p.usable, p.slot i = p.slot j → i = j := by
  intro i hi j hj heq
  have hnat := congrArg Addr.toNat heq
  rw [(slot_spec hmasked hvalid hi).2, (slot_spec hmasked hvalid hj).2] at hnat
  omega

theorem nextAddress_after (hlast : p.last = broadcastAddress p.range) {k : Nat} (hk : k + 1 < p.range.size)
    (hcurrent : p.current = p.range.addr.after k) :
    p.nextAddress = if k + 2 = p.range.size then p.slot 0 else p.range.addr.after (k + 1) := by
  obtain ⟨hlen, hnat⟩ := after_spec hmasked hvalid hk
  obtain ⟨hlastLen, hlastNat⟩ := broadcastAddress_spec hvalid
  have hcontains : p.range.contains (p.range.addr.after (k + 1)) = true :=
    Prefix.contains_iff.2 ⟨hvalid, hlen, by omega, by omega⟩
  have hiff : p.range.addr.after (k + 1) = p.last ↔ k + 2 = p.range.size := by
    rw [hlast]
    constructor
    · intro heq
      have hnat' := congrArg Addr.toNat heq
      omega
    · intro hsize
      exact Addr.eq_of_toNat (hlen.trans hlastLen.symm) (by omega)
  unfold nextAddress
  rw [hcurrent, ← Addr.after_succ]
  simp only [hcontains, Bool.true_eq_false, or_false, hiff]
  rfl

theorem nextAddress_turn (hlast : p.last = broadcastAddress p.range) (hcurrent : p.current = p.turn i) :
    p.nextAddress = p.slot (i % p.usable) := by
  obtain ⟨hsize, hpos⟩ := usable_spec hmasked hvalid
  cases i with
  | zero =>
    rw [nextAddress_after hmasked hvalid hlast (by omega) hcurrent, if_neg (by omega)]
    rfl
  | succ i =>
    have hlt : i % p.usable < p.usable := Nat.mod_lt i hpos
    rw [nextAddress_after hmasked hvalid hlast (by omega) hcurrent, ← Nat.mod_add_mod]
    by_cases hround : i % p.usable + 1 = p.usable
    · rw [if_pos (by omega), hround, Nat.mod_self]
    · have hnext : i % p.usable + 1 < p.usable := by omega
      rw [if_neg (by omega), Nat.mod_eq_of_lt hnext]
      rfl

end

end Pool

/-! ## Runs -/

/-- A store on `MemoryStorage`, with the log of the addresses it has taken for
domains of each family, the latest first. -/
structure MemoryRun where
  store : Store MemoryStorage
  allocated : Bool → List (Domain × Addr)

namespace MemoryRun

def started (inet4Range inet6Range : Prefix) : MemoryRun :=
  { store := (Store.newStore {} inet4Range inet6Range).start memoryStorage true true, allocated := fun _ => [] }

def created (r : MemoryRun) (domain : Domain) (isIPv6 : Bool) : Except CreateError Addr :=
  (r.store.create memoryStorage domain isIPv6 true).1

/-- A call of `Create`, for a domain and a family. -/
def create (r : MemoryRun) (call : Domain × Bool) : MemoryRun :=
  { store := (r.store.create memoryStorage call.1 call.2 true).2
    allocated :=
      match (r.store.storage.domainCache call.2).lookup call.1, r.created call.1 call.2 with
      | none, .ok address => Function.update r.allocated call.2 ((call.1, address) :: r.allocated call.2)
      | _, _ => r.allocated }

def lookup (r : MemoryRun) (address : Addr) : Option Domain := r.store.lookup memoryStorage address

def system : System MemoryRun (Domain × Bool) :=
  .ofStep (fun r => ∃ inet4Range inet6Range, Pool.Masked false inet4Range ∧ Pool.Masked true inet6Range ∧
    r = started inet4Range inet6Range) create

def after (r : MemoryRun) : System MemoryRun (Domain × Bool) := .ofStep (· = r) create

/-- The call takes the address of a domain for another one. -/
def Recycles (domain : Domain) (address : Addr) (r : MemoryRun) (call : Domain × Bool) : Prop :=
  call.1 ≠ domain ∧ r.created call.1 call.2 = .ok address

/-- The cursor of a family and what the maps have of it, by its log. -/
structure Agrees (p : Pool) (m : MemoryStorage) (isIPv6 : Bool) (log : List (Domain × Addr)) : Prop where
  masked : Pool.Masked isIPv6 p.range
  last : p.range.isValid = true → p.last = broadcastAddress p.range
  absent : p.range.isValid = false → p.current = .zero
  current : p.range.isValid = true → p.current = p.turn log.length
  inTurn : p.range.isValid = true → InTurn p.usable p.slot log
  empty : p.range.isValid = false → log = []
  latest : ∀ address, address.is4 = !isIPv6 →
    m.addressCache.lookup address = (log.find? fun e => e.2 = address).map Prod.fst

structure Inv (r : MemoryRun) : Prop where
  started : r.store.started = true
  inverse : r.store.storage.Inverse
  agrees : ∀ isIPv6, Agrees (r.store.pool isIPv6) r.store.storage isIPv6 (r.allocated isIPv6)

variable {r : MemoryRun}

/-- `Create` finds the address of a domain, has none to give, or takes the next one. -/
theorem create_cases (h : r.store.started = true) (domain : Domain) (isIPv6 : Bool) :
    (∃ address, (r.store.storage.domainCache isIPv6).lookup domain = some address ∧
      r.created domain isIPv6 = .ok address ∧ r.create (domain, isIPv6) = r) ∨
    (∃ err, (r.store.storage.domainCache isIPv6).lookup domain = none ∧ r.created domain isIPv6 = .error err ∧
      r.create (domain, isIPv6) = r) ∨
    ((r.store.storage.domainCache isIPv6).lookup domain = none ∧ (r.store.pool isIPv6).current.isValid = true ∧
      r.created domain isIPv6 = .ok (r.store.pool isIPv6).nextAddress ∧
      r.create (domain, isIPv6) =
        { store := { r.store.setCurrent isIPv6 (r.store.pool isIPv6).nextAddress with
            storage := r.store.storage.fakeIPStore (r.store.pool isIPv6).nextAddress domain }
          allocated := Function.update r.allocated isIPv6
            ((domain, (r.store.pool isIPv6).nextAddress) :: r.allocated isIPv6) }) := by
  rcases Store.create_cases memoryStorage h domain isIPv6 true with
    ⟨address, hload, hcreate⟩ | ⟨hload, hvalid, hcreate⟩ | ⟨hload, hvalid, hcreate⟩
  · refine .inl ⟨address, hload, by rw [created, hcreate], ?_⟩
    change (r.store.storage.domainCache isIPv6).lookup domain = some address at hload
    simp only [create, hcreate, hload]
  · refine .inr (.inl ⟨_, hload, by rw [created, hcreate], ?_⟩)
    simp only [create, created, hcreate]
    split
    · rename_i heq
      cases heq
    · rfl
  · refine .inr (.inr ⟨hload, hvalid, by rw [created, hcreate], ?_⟩)
    change (r.store.storage.domainCache isIPv6).lookup domain = none at hload
    simp only [create, created, hcreate, hload]
    rfl

open Pool

theorem inv_started {inet4Range inet6Range : Prefix} (h4 : Pool.Masked false inet4Range)
    (h6 : Pool.Masked true inet6Range) : (started inet4Range inet6Range).Inv := by
  have hagrees : ∀ {isIPv6 range}, Pool.Masked isIPv6 range → Agrees (new range).restart {} isIPv6 [] := by
    intro isIPv6 range hmasked
    have hrange : ((new range).restart).range = range := by
      unfold restart
      split <;> rfl
    refine ⟨?_, ?_, ?_, ?_, fun _ => trivial, fun _ => rfl, fun _ _ => rfl⟩
    · rw [hrange]
      exact hmasked
    · rw [hrange]
      intro hvalid
      simp [restart, new, hvalid]
    · rw [hrange]
      intro hvalid
      simp [restart, new, hvalid]
    · rw [hrange]
      intro hvalid
      simp [restart, new, hvalid, turn, Addr.after]
  refine ⟨rfl, fun isIPv6 domain address => ?_, fun isIPv6 => ?_⟩
  · constructor
    · intro hload
      cases isIPv6 <;> cases hload
    · rintro ⟨-, hlookup⟩
      cases hlookup
  · cases isIPv6 with
    | false => exact hagrees h4
    | true => exact hagrees h6

variable {log : List (Domain × Addr)} {isIPv6 : Bool} {p : Pool}

theorem valid_of_current {m : MemoryStorage}
    (h : Agrees p m isIPv6 log) (hcurrent : p.current.isValid = true) : p.range.isValid = true := by
  cases hvalid : p.range.isValid with
  | true => rfl
  | false =>
    rw [h.absent hvalid] at hcurrent
    cases hcurrent

theorem Agrees.nextAddress {m : MemoryStorage} (h : Agrees p m isIPv6 log) (hvalid : p.range.isValid = true) :
    p.nextAddress = p.slot (log.length % p.usable) ∧ p.nextAddress.is4 = !isIPv6 := by
  have hnext := nextAddress_turn h.masked hvalid (h.last hvalid) (h.current hvalid)
  have hlt : log.length % p.usable < p.usable := Nat.mod_lt _ (usable_spec h.masked hvalid).2
  refine ⟨hnext, ?_⟩
  rw [hnext]
  exact slot_is4 h.masked hvalid hlt

variable {domain : Domain}

theorem Agrees.take {m m' : MemoryStorage} (h : Agrees p m isIPv6 log) (hvalid : p.range.isValid = true)
    (hm : m'.addressCache = m.addressCache.insert p.nextAddress domain) :
    Agrees { p with current := p.nextAddress } m' isIPv6 ((domain, p.nextAddress) :: log) := by
  obtain ⟨hnext, -⟩ := h.nextAddress hvalid
  have habsurd : ∀ {P : Prop}, p.range.isValid = false → P := by
    intro P hinvalid
    rw [hvalid] at hinvalid
    cases hinvalid
  refine ⟨h.masked, h.last, habsurd, fun _ => hnext, fun _ => ⟨hnext, h.inTurn hvalid⟩, habsurd, ?_⟩
  intro address his4
  rw [hm, lookup_insert_eq]
  by_cases heq : address = p.nextAddress
  · rw [if_pos heq, find?_cons_of_pos (by simp [heq])]
    rfl
  · rw [if_neg heq, find?_cons_of_neg (by simpa using Ne.symm heq)]
    exact h.latest address his4

variable {address : Addr}

theorem Agrees.frame {m m' : MemoryStorage} (h : Agrees p m isIPv6 log) (hother : address.is4 ≠ !isIPv6)
    (hm : m'.addressCache = m.addressCache.insert address domain) : Agrees p m' isIPv6 log := by
  refine ⟨h.masked, h.last, h.absent, h.current, h.inTurn, h.empty, fun address' his4 => ?_⟩
  have hne : address' ≠ address := by
    rintro rfl
    exact hother his4
  rw [hm, lookup_insert_eq, if_neg hne]
  exact h.latest address' his4

theorem Inv.create (h : r.Inv) (call : Domain × Bool) : (r.create call).Inv := by
  obtain ⟨domain, isIPv6⟩ := call
  rcases create_cases h.started domain isIPv6 with ⟨_, -, -, heq⟩ | ⟨_, -, -, heq⟩ | ⟨hload, hcurrent, -, heq⟩
  · rw [heq]
    exact h
  · rw [heq]
    exact h
  · have hvalid := valid_of_current (h.agrees isIPv6) hcurrent
    obtain ⟨-, his4⟩ := (h.agrees isIPv6).nextAddress hvalid
    have hm := r.store.storage.addressCache_fakeIPStore (r.store.pool isIPv6).nextAddress domain
    have hpool := r.store.pool_setCurrent isIPv6
    rw [heq]
    refine ⟨(Store.started_setCurrent _ _ _).trans h.started, ?_, fun isIPv6' => ?_⟩
    · refine h.inverse.store ?_
      rw [his4, Bool.not_not]
      exact hload
    · change Agrees ((r.store.setCurrent isIPv6 (r.store.pool isIPv6).nextAddress).pool isIPv6')
        (r.store.storage.fakeIPStore (r.store.pool isIPv6).nextAddress domain) isIPv6'
        (update r.allocated isIPv6 ((domain, (r.store.pool isIPv6).nextAddress) :: r.allocated isIPv6) isIPv6')
      by_cases hfamily : isIPv6' = isIPv6
      · subst hfamily
        rw [hpool, if_pos rfl, update_self]
        exact (h.agrees isIPv6').take hvalid hm
      · rw [hpool, if_neg hfamily, update_of_ne hfamily]
        refine (h.agrees isIPv6').frame (fun heq' => hfamily ?_) hm
        rw [his4] at heq'
        exact (Bool.not_inj heq').symm

theorem Inv.of_reach {ok : MemoryRun → Domain × Bool → Prop} (h : Reach system ok r) : r.Inv := by
  refine Reach.inv Inv ?_ ?_ h
  · rintro _ ⟨inet4Range, inet6Range, h4, h6, rfl⟩
    exact inv_started h4 h6
  · rintro r call _ hr - rfl
    exact hr.create call

theorem Inv.lookup_created (h : r.Inv) (hcreated : r.created domain isIPv6 = .ok address) :
    (r.create (domain, isIPv6)).lookup address = some domain ∧ address.is4 = !isIPv6 := by
  rcases create_cases h.started domain isIPv6 with
    ⟨address', hload, heq', heq⟩ | ⟨_, -, heq', -⟩ | ⟨-, hcurrent, heq', heq⟩
  · rw [hcreated] at heq'
    cases heq'
    rw [heq]
    obtain ⟨his4, hlookup⟩ := (h.inverse isIPv6 domain address).1 hload
    exact ⟨hlookup, his4⟩
  · rw [hcreated] at heq'
    cases heq'
  · rw [hcreated] at heq'
    cases heq'
    obtain ⟨-, his4⟩ := (h.agrees isIPv6).nextAddress (valid_of_current (h.agrees isIPv6) hcurrent)
    refine ⟨?_, his4⟩
    rw [heq]
    change (r.store.storage.fakeIPStore _ domain).addressCache.lookup _ = some domain
    rw [MemoryStorage.addressCache_fakeIPStore, lookup_insert_eq, if_pos rfl]

theorem Inv.create_again (h : r.Inv) (hlookup : r.lookup address = some domain) (his4 : address.is4 = !isIPv6) :
    r.created domain isIPv6 = .ok address ∧ r.create (domain, isIPv6) = r := by
  have hload := (h.inverse isIPv6 domain address).2 ⟨his4, hlookup⟩
  rcases create_cases h.started domain isIPv6 with
    ⟨address', hload', heq', heq⟩ | ⟨_, hload', -, -⟩ | ⟨hload', -, -, -⟩
  · rw [hload] at hload'
    cases hload'
    exact ⟨heq', heq⟩
  · rw [hload] at hload'
    cases hload'
  · rw [hload] at hload'
    cases hload'

/-- An address stays that of its domain unless it is taken for another one. -/
theorem Inv.lookup_create (h : r.Inv) (hlookup : r.lookup address = some domain)
    {call : Domain × Bool} (hcall : ¬ Recycles domain address r call) : (r.create call).lookup address = some domain := by
  obtain ⟨domain', isIPv6⟩ := call
  rcases create_cases h.started domain' isIPv6 with ⟨_, -, -, heq⟩ | ⟨_, -, -, heq⟩ | ⟨hload, hcurrent, hcreated, heq⟩
  · rw [heq]
    exact hlookup
  · rw [heq]
    exact hlookup
  · have hne : address ≠ (r.store.pool isIPv6).nextAddress := by
      rintro rfl
      -- the domain itself would have been found
      have hdomain : domain' ≠ domain := by
        rintro rfl
        obtain ⟨-, his4⟩ := (h.agrees isIPv6).nextAddress (valid_of_current (h.agrees isIPv6) hcurrent)
        rw [(h.inverse isIPv6 domain' _).2 ⟨his4, hlookup⟩] at hload
        cases hload
      exact hcall ⟨hdomain, hcreated⟩
    rw [heq]
    change (r.store.storage.fakeIPStore _ domain').addressCache.lookup address = some domain
    rw [MemoryStorage.addressCache_fakeIPStore, lookup_insert_eq, if_neg hne]
    exact hlookup

/-- The last addresses of a family that were taken, as many as there are, are
different and those of the domains they were taken for. -/
theorem Inv.recent (h : r.Inv) (isIPv6 : Bool) :
    (((r.allocated isIPv6).take (r.store.pool isIPv6).usable).map Prod.snd).Nodup ∧
      ∀ entry ∈ (r.allocated isIPv6).take (r.store.pool isIPv6).usable, r.lookup entry.2 = some entry.1 := by
  have hagrees := h.agrees isIPv6
  cases hvalid : (r.store.pool isIPv6).range.isValid with
  | false =>
    rw [hagrees.empty hvalid, take_nil]
    exact ⟨nodup_nil, nofun⟩
  | true =>
    have hnodup := (hagrees.inTurn hvalid).nodup_take (slot_injective hagrees.masked hvalid)
    refine ⟨hnodup, fun entry hentry => ?_⟩
    have his4 : entry.2.is4 = !isIPv6 := by
      obtain ⟨i, hi, hslot⟩ := (hagrees.inTurn hvalid).exists_slot (usable_spec hagrees.masked hvalid).2
        (mem_of_mem_take hentry)
      rw [hslot]
      exact slot_is4 hagrees.masked hvalid hi
    change r.store.storage.addressCache.lookup entry.2 = some entry.1
    rw [hagrees.latest entry.2 his4, find?_of_mem_take hnodup hentry]
    rfl

/-- The maps are inverse; an address just returned is that of its domain, which is
given it again until it is taken for another one; and the last addresses of a family
that were taken, as many as are handed out, are different and still those of their
domains. -/
theorem created_in_turn {ok : MemoryRun → Domain × Bool → Prop} (h : Reach system ok r) :
    r.store.storage.Inverse ∧
    (∀ domain isIPv6 address, r.created domain isIPv6 = .ok address →
      (r.create (domain, isIPv6)).lookup address = some domain ∧
      ∀ t, Reach (r.create (domain, isIPv6)).after (fun t call => ¬ Recycles domain address t call) t →
        t.created domain isIPv6 = .ok address ∧ t.create (domain, isIPv6) = t) ∧
    ∀ isIPv6, (((r.allocated isIPv6).take (r.store.pool isIPv6).usable).map Prod.snd).Nodup ∧
      ∀ entry ∈ (r.allocated isIPv6).take (r.store.pool isIPv6).usable, r.lookup entry.2 = some entry.1 := by
  have hinv := Inv.of_reach h
  refine ⟨hinv.inverse, fun domain isIPv6 address hcreated => ?_, hinv.recent⟩
  obtain ⟨hlookup, his4⟩ := hinv.lookup_created hcreated
  refine ⟨hlookup, fun t ht => ?_⟩
  have hkeeps : t.Inv ∧ t.lookup address = some domain := by
    refine Reach.inv (fun t => t.Inv ∧ t.lookup address = some domain) ?_ ?_ ht
    · rintro _ rfl
      exact ⟨hinv.create _, hlookup⟩
    · rintro t call _ ⟨ht, htlookup⟩ hcall rfl
      exact ⟨ht.create call, ht.lookup_create htlookup hcall⟩
  exact hkeeps.1.create_again hkeeps.2 his4

/-- `10.0.0.0/29`, of which five addresses are handed out, and no range for IPv6. -/
def sampleRange : Prefix := .ofBits (.v4 0x0a000000) 29

def noRange : Prefix := .ofBits .zero 0

/-- Six domains, so that the first address is taken twice. -/
def sampleCalls : List (Domain × Bool) :=
  [([1], false), ([2], false), ([3], false), ([4], false), ([5], false), ([6], false)]

theorem created_in_turn_sample :
    (sampleCalls.foldl create (started sampleRange noRange)).lookup (.v4 0x0a000002) = some [6] ∧
      (sampleCalls.foldl create (started sampleRange noRange)).lookup (.v4 0x0a000003) = some [2] := by
  have hmasked : Pool.Masked false sampleRange := ⟨fun _ => rfl, fun _ => rfl, fun _ => by decide⟩
  have hnone : Pool.Masked true noRange := ⟨nofun, nofun, nofun⟩
  have hinit : Reach system (fun _ _ => True) (started sampleRange noRange) := .init ⟨_, _, hmasked, hnone, rfl⟩
  have hreach := hinit.foldl sampleCalls (by simp [Allowed, sampleCalls])
  obtain ⟨-, -, hrecent⟩ := created_in_turn hreach
  exact ⟨(hrecent false).2 ([6], .v4 0x0a000002) (.head _),
    (hrecent false).2 ([2], .v4 0x0a000003) (.tail _ (.tail _ (.tail _ (.tail _ (.head _)))))⟩

end MemoryRun

end Singlink.Dns.FakeIP
