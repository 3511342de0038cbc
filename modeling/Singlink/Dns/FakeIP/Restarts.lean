import Singlink.Lib.Runs
import Singlink.Dns.FakeIP.Store
/-!
# Addresses of the configured range

Runs of a store on any storage, across restarts that may change the ranges. `Create`
returns an address of the current range if the cursor and the records of the storage
belong to it. A store keeps that so; `Start` must find it or make it so.
-/

namespace Singlink.Dns.FakeIP

open Options Lib

variable {σ : Type}

/-! ## Ranges and cursors -/

/-- The address is one of the range, but neither of its first two nor its last. -/
structure Usable (range : Prefix) (address : Addr) : Prop where
  contains : range.contains address = true
  notFirst : range.first + 2 ≤ address.toNat
  notLast : address.toNat + 1 < range.first + range.size

/-- A range of a family, if there is one, has an address to begin with. -/
def Roomy (isIPv6 : Bool) (range : Prefix) : Prop :=
  range.isValid = true → range.addr.is4 = !isIPv6 ∧ Usable range range.addr.next.next

/-- The address after the cursor is not one of the first two. -/
def Follows (range : Prefix) (current : Addr) : Prop :=
  current.isValid = true →
    range.isValid = true ∧ (range.contains current.next = true → range.first + 2 ≤ current.next.toNat)

def FakeIPMetadata.Follows (metadata : FakeIPMetadata) : Prop :=
  FakeIP.Follows metadata.inet4Range metadata.inet4Current ∧ FakeIP.Follows metadata.inet6Range metadata.inet6Current

theorem Usable.is4 {range : Prefix} {address : Addr} (h : Usable range address) : address.is4 = range.addr.is4 :=
  Addr.is4_eq (Prefix.contains_iff.1 h.contains).2.1

theorem Usable.follows {range : Prefix} {address : Addr} (h : Usable range address) : Follows range address := by
  obtain ⟨hvalid, hlen, -, -⟩ := Prefix.contains_iff.1 h.contains
  have hle := range.first_add_size_le
  have hfirst := h.notFirst
  have hlast := h.notLast
  rw [← hlen] at hle
  obtain ⟨-, hnat⟩ := Addr.next_spec (a := address) (by omega)
  exact fun _ => ⟨hvalid, fun _ => by omega⟩

namespace Pool

variable {p : Pool} {isIPv6 : Bool}

theorem range_restart (p : Pool) : p.restart.range = p.range := by
  unfold restart
  split <;> rfl

theorem last_restart (p : Pool) : p.restart.last = p.last := by
  unfold restart
  split <;> rfl

theorem follows_restart (hroomy : Roomy isIPv6 p.range) (h : Follows p.range p.current) :
    Follows p.range p.restart.current := by
  cases hvalid : p.range.isValid with
  | false => simpa [restart, hvalid] using h
  | true =>
    intro _
    refine ⟨hvalid, fun _ => ?_⟩
    simpa [restart, hvalid] using (hroomy hvalid).2.notFirst

theorem usable_nextAddress (hroomy : Roomy isIPv6 p.range) (hlast : p.last = (Pool.new p.range).last)
    (hfollows : Follows p.range p.current) (hcurrent : p.current.isValid = true) : Usable p.range p.nextAddress := by
  obtain ⟨hvalid, hfirst⟩ := hfollows hcurrent
  unfold nextAddress
  simp only
  split
  · exact (hroomy hvalid).2
  · rename_i hnext
    obtain ⟨hnotLast, hcontains⟩ := not_or.1 hnext
    have hcontains := Bool.eq_true_of_not_eq_false hcontains
    obtain ⟨-, hlen, -, hlt⟩ := Prefix.contains_iff.1 hcontains
    refine ⟨hcontains, hfirst hcontains, ?_⟩
    obtain ⟨hlastLen, hlastNat⟩ := broadcastAddress_spec hvalid
    have hlast : p.last = broadcastAddress p.range := by rw [hlast, Pool.new, if_pos hvalid]
    have hne : p.current.next.toNat + 1 ≠ p.range.first + p.range.size := by
      intro heq
      refine hnotLast ?_
      rw [hlast]
      exact Addr.eq_of_toNat (hlen.trans hlastLen.symm) (by omega)
    omega

end Pool

/-! ## Storages -/

/-- The records and the metadata of a storage that is sound for some ranges, by
family, stay so. -/
structure Lawful (x : FakeIPStorage σ) (Sound : (Bool → Prefix) → σ → Prop) : Prop where
  opened : ∀ {r storage}, Sound r storage → Sound r (x.opened storage)
  load : ∀ {r storage domain isIPv6 address}, Sound r storage →
    x.fakeIPLoadDomain storage domain isIPv6 = some address → Usable (r isIPv6) address
  follows : ∀ {r storage commits metadata}, Sound r storage →
    (x.fakeIPMetadata commits storage).1 = some metadata → metadata.Follows
  metadata : ∀ {r storage} commits, Sound r storage → Sound r (x.fakeIPMetadata commits storage).2
  save : ∀ {r storage metadata} commits, Sound r storage → metadata.Follows →
    Sound r (x.fakeIPSaveMetadata commits metadata storage).2
  saveAsync : ∀ {r storage metadata}, Sound r storage → metadata.Follows →
    Sound r (x.fakeIPSaveMetadataAsync metadata storage)
  store : ∀ {r storage isIPv6 address domain commits storage'}, Sound r storage → Usable (r isIPv6) address →
    address.is4 = !isIPv6 → x.fakeIPStore commits address domain storage = some storage' → Sound r storage'
  reset : ∀ {r storage commits storage'}, Sound r storage → x.fakeIPReset commits storage = some storage' →
    Sound r storage'
  flush : ∀ {r storage} commits, Sound r storage → Sound r (x.flush commits storage)
  reopen : ∀ {r storage} written, Sound r storage → Sound r (x.reopen written storage)

/-! ## Runs -/

inductive Op where
  | new (inet4Range inet6Range : Prefix) (written : Bool)
  | start (commitsLoad commitsReset : Bool)
  | create (domain : Domain) (isIPv6 commits : Bool)
  | reset (commits : Bool)
  | close (commits : Bool)
  | flush (commits : Bool)

namespace Store

def ranges (s : Store σ) (isIPv6 : Bool) : Prefix := (s.pool isIPv6).range

section
variable (x : FakeIPStorage σ)

/-- A new process has a new store, and the storage it finds. -/
def step (s : Store σ) : Op → Store σ
  | .new inet4Range inet6Range written => newStore (x.reopen written s.storage) inet4Range inet6Range
  | .start commitsLoad commitsReset => s.start x commitsLoad commitsReset
  | .create domain isIPv6 commits => (s.create x domain isIPv6 commits).2
  | .reset commits => if s.started then (s.reset x commits).getD s else s
  | .close commits => (s.close x commits).2
  | .flush commits => { s with storage := x.flush commits s.storage }

/-- Runs begin with any storage and any ranges. -/
def system : System (Store σ) Op :=
  .ofStep (fun s => ∃ storage inet4Range inet6Range, s = newStore storage inet4Range inet6Range) (step x)

variable (Sound : (Bool → Prefix) → σ → Prop)

/-- `Start` takes over no metadata, and its reset leaves a sound storage. -/
def StartsAfresh (s : Store σ) (commitsLoad commitsReset : Bool) : Prop :=
  (∀ metadata, (x.fakeIPMetadata commitsLoad (x.opened s.storage)).1 = some metadata →
    ¬ (metadata.inet4Range = s.inet4.range ∧ metadata.inet6Range = s.inet6.range)) ∧
  Sound s.ranges ((x.fakeIPReset commitsReset (x.fakeIPMetadata commitsLoad (x.opened s.storage)).2).getD
    (x.fakeIPMetadata commitsLoad (x.opened s.storage)).2)

/-- A start has ranges with room, and finds a storage that is sound for them or
makes it so. -/
def Careful (s : Store σ) : Op → Prop
  | .start commitsLoad commitsReset =>
    (∀ isIPv6, Roomy isIPv6 (s.ranges isIPv6)) ∧
      (Sound s.ranges (x.opened s.storage) ∨ s.StartsAfresh x Sound commitsLoad commitsReset)
  | _ => True

end

structure Inv (Sound : (Bool → Prefix) → σ → Prop) (s : Store σ) : Prop where
  last : ∀ isIPv6, (s.pool isIPv6).last = (Pool.new (s.ranges isIPv6)).last
  follows : ∀ isIPv6, Follows (s.ranges isIPv6) (s.pool isIPv6).current
  roomy : s.started = true → ∀ isIPv6, Roomy isIPv6 (s.ranges isIPv6)
  sound : s.started = true → Sound s.ranges s.storage

variable {x : FakeIPStorage σ} {Sound : (Bool → Prefix) → σ → Prop} {s : Store σ}

theorem inv_newStore (storage : σ) (inet4Range inet6Range : Prefix) :
    (newStore storage inet4Range inet6Range).Inv Sound := by
  refine ⟨fun isIPv6 => ?_, fun isIPv6 => ?_, nofun, nofun⟩
  · cases isIPv6 <;> rfl
  · cases isIPv6 <;> exact nofun

theorem Inv.metadata_follows (h : s.Inv Sound) : s.metadata.Follows := ⟨h.follows false, h.follows true⟩

variable {storage : σ}

theorem Inv.withStorage (h : s.Inv Sound) (hstorage : s.started = true → Sound s.ranges storage) :
    ({ s with storage } : Store σ).Inv Sound :=
  ⟨h.last, h.follows, h.roomy, hstorage⟩

theorem ranges_restart (s : Store σ) (storage : σ) : (s.restart storage).ranges = s.ranges := by
  funext isIPv6
  cases isIPv6 <;> exact Pool.range_restart _

theorem ranges_resume (s : Store σ) (metadata : FakeIPMetadata) (storage : σ) :
    (s.resume metadata storage).ranges = s.ranges := by
  funext isIPv6
  cases isIPv6 <;> rfl

theorem ranges_setCurrent (s : Store σ) (isIPv6 : Bool) (address : Addr) :
    (s.setCurrent isIPv6 address).ranges = s.ranges := by
  funext isIPv6'
  cases isIPv6 <;> cases isIPv6' <;> rfl

section

variable (h : s.Inv Sound) (hroomy : ∀ isIPv6, Roomy isIPv6 (s.ranges isIPv6)) (hsound : Sound s.ranges storage)

include h hroomy hsound

theorem Inv.restart : (s.restart storage).Inv Sound := by
  have hranges := s.ranges_restart storage
  refine ⟨fun isIPv6 => ?_, fun isIPv6 => ?_, fun _ => hranges ▸ hroomy, fun _ => hranges ▸ hsound⟩
  · rw [hranges, ← h.last isIPv6]
    cases isIPv6 <;> exact Pool.last_restart _
  · rw [hranges]
    cases isIPv6 with
    | false => exact Pool.follows_restart (hroomy false) (h.follows false)
    | true => exact Pool.follows_restart (hroomy true) (h.follows true)

theorem Inv.resume {metadata : FakeIPMetadata} (hfollows : metadata.Follows)
    (h4 : metadata.inet4Range = s.inet4.range) (h6 : metadata.inet6Range = s.inet6.range) :
    (s.resume metadata storage).Inv Sound := by
  have hranges := s.ranges_resume metadata storage
  refine ⟨fun isIPv6 => ?_, fun isIPv6 => ?_, fun _ => hranges ▸ hroomy, fun _ => hranges ▸ hsound⟩
  · rw [hranges, ← h.last isIPv6]
    cases isIPv6 <;> rfl
  · cases isIPv6 with
    | false =>
      have hthis := hfollows.1
      rwa [h4] at hthis
    | true =>
      have hthis := hfollows.2
      rwa [h6] at hthis

end

section

variable (hx : Lawful x Sound) (h : s.Inv Sound)

include hx h

theorem Inv.start {commitsLoad commitsReset : Bool} (hroomy : ∀ isIPv6, Roomy isIPv6 (s.ranges isIPv6))
    (hstart : Sound s.ranges (x.opened s.storage) ∨ s.StartsAfresh x Sound commitsLoad commitsReset) :
    (s.start x commitsLoad commitsReset).Inv Sound := by
  unfold Store.start
  simp only
  -- a start that does not take over the metadata leaves a sound storage either way
  have hreset : Sound s.ranges ((x.fakeIPReset commitsReset (x.fakeIPMetadata commitsLoad (x.opened s.storage)).2).getD
      (x.fakeIPMetadata commitsLoad (x.opened s.storage)).2) := by
    rcases hstart with hsound | ⟨-, hsound⟩
    · have hloaded := hx.metadata commitsLoad hsound
      cases hr : x.fakeIPReset commitsReset (x.fakeIPMetadata commitsLoad (x.opened s.storage)).2 with
      | none => exact hloaded
      | some storage => exact hx.reset hloaded hr
    · exact hsound
  split
  · exact h.restart hroomy hreset
  · rename_i metadata hmetadata
    split
    · rename_i hmatch
      rcases hstart with hsound | ⟨hother, -⟩
      · exact h.resume hroomy (hx.metadata commitsLoad hsound) (hx.follows hsound hmetadata) hmatch.1 hmatch.2
      · exact absurd hmatch (hother metadata hmetadata)
    · exact h.restart hroomy hreset

theorem Inv.create (domain : Domain) (isIPv6 commits : Bool) :
    (∀ address, (s.create x domain isIPv6 commits).1 = .ok address → Usable (s.ranges isIPv6) address) ∧
      (s.create x domain isIPv6 commits).2.Inv Sound := by
  cases hstarted : s.started with
  | false =>
    have hcreate : s.create x domain isIPv6 commits = (.error .nilPointerDereference, s) := if_pos hstarted
    rw [hcreate]
    exact ⟨nofun, h⟩
  | true =>
    rcases create_cases x hstarted domain isIPv6 commits with
      ⟨address, hload, hcreate⟩ | ⟨-, -, hcreate⟩ | ⟨-, hcurrent, hcreate⟩
    · rw [hcreate]
      refine ⟨?_, h⟩
      rintro _ ⟨⟩
      exact hx.load (h.sound hstarted) hload
    · rw [hcreate]
      exact ⟨nofun, h⟩
    · have hroomy := h.roomy hstarted
      have husable := Pool.usable_nextAddress (hroomy isIPv6) (h.last isIPv6) (h.follows isIPv6) hcurrent
      have hvalid := (h.follows isIPv6 hcurrent).1
      rw [hcreate]
      refine ⟨?_, ?_⟩
      · rintro _ ⟨⟩
        exact husable
      · -- the cursor has moved
        have hmoved : (s.setCurrent isIPv6 (s.pool isIPv6).nextAddress).Inv Sound := by
          have hranges := s.ranges_setCurrent isIPv6 (s.pool isIPv6).nextAddress
          refine ⟨fun isIPv6' => ?_, fun isIPv6' => ?_, fun _ => hranges ▸ hroomy, fun _ => ?_⟩
          · rw [hranges, ← h.last isIPv6', pool_setCurrent]
            split <;> rfl
          · rw [hranges, pool_setCurrent]
            split
            · rename_i heq
              subst heq
              exact husable.follows
            · exact h.follows isIPv6'
          · rw [hranges, storage_setCurrent]
            exact h.sound hstarted
        refine hmoved.withStorage fun _ => hx.saveAsync ?_ hmoved.metadata_follows
        rw [ranges_setCurrent]
        cases hstore : x.fakeIPStore commits (s.pool isIPv6).nextAddress domain s.storage with
        | none => exact h.sound hstarted
        | some storage =>
          exact hx.store (h.sound hstarted) husable (husable.is4.trans (hroomy isIPv6 hvalid).1) hstore

theorem Inv.step (op : Op) (hop : s.Careful x Sound op) : (s.step x op).Inv Sound := by
  cases op with
  | new inet4Range inet6Range written => exact inv_newStore _ _ _
  | start commitsLoad commitsReset => exact h.start hx hop.1 hop.2
  | create domain isIPv6 commits => exact (h.create hx domain isIPv6 commits).2
  | reset commits =>
    simp only [Store.step, Store.reset]
    split
    · rename_i hstarted
      cases hreset : x.fakeIPReset commits s.storage with
      | none => exact h
      | some storage => exact h.withStorage fun _ => hx.reset (h.sound hstarted) hreset
    · exact h
  | close commits =>
    simp only [Store.step, Store.close]
    split
    · exact h
    · exact h.withStorage fun hstarted => hx.save commits (h.sound hstarted) h.metadata_follows
  | flush commits => exact h.withStorage fun hstarted => hx.flush commits (h.sound hstarted)

theorem Inv.careful_restart (hstarted : s.started = true) (written commitsLoad commitsReset : Bool) :
    (s.step x (.new s.inet4.range s.inet6.range written)).Careful x Sound (.start commitsLoad commitsReset) := by
  have hranges : (s.step x (.new s.inet4.range s.inet6.range written)).ranges = s.ranges := by
    funext isIPv6
    cases isIPv6 <;> rfl
  refine ⟨?_, .inl ?_⟩
  · rw [hranges]
    exact h.roomy hstarted
  · rw [hranges]
    exact hx.opened (hx.reopen written (h.sound hstarted))

end

theorem Inv.of_reach (hx : Lawful x Sound) (h : Reach (system x) (fun s op => s.Careful x Sound op) s) :
    s.Inv Sound := by
  refine Reach.inv (Inv Sound) ?_ ?_ h
  · rintro _ ⟨storage, inet4Range, inet6Range, rfl⟩
    exact inv_newStore storage inet4Range inet6Range
  · rintro s op _ hs hop rfl
    exact hs.step hx op hop

end Store

end Singlink.Dns.FakeIP
