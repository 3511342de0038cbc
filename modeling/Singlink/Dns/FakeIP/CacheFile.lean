import Singlink.Dns.FakeIP.Memory
import Singlink.Dns.FakeIP.Restarts
/-!
# Fake addresses in the cache file

`experimental/cachefile/fakeip.go`: three buckets, one that maps addresses to domains
and holds the metadata of the store, and one for each family that maps domains to
addresses. `FakeIPReset` deletes all three in one transaction, which fails if one of
them is missing; a store without a range of one family never makes its bucket.

The metadata is what `UnmarshalBinary` makes of it. Records that are still to be
written are left out: `Store` does not call `FakeIPStoreAsync`.
-/

namespace Singlink.Dns.FakeIP

open Options Lib Lib.Codec MemoryRun Store

/-- The metadata under its key, as `UnmarshalBinary` reads it: it may return an error,
or panic where its bytes end early. -/
inductive MetadataRecord where
  | saved (metadata : FakeIPMetadata)
  | invalid
  | short

/-- The bucket of addresses; the key of the metadata is none of an address. -/
structure AddressBucket where
  domains : GoMap Bytes Bytes := ∅
  metadata : Option MetadataRecord := none

/-- `CacheFile`, as far as fake addresses go, with the metadata that is to be written. -/
structure FakeIPFile where
  address : Option AddressBucket := none
  domain4 : Option (GoMap Bytes Bytes) := none
  domain6 : Option (GoMap Bytes Bytes) := none
  saveMetadata : Option FakeIPMetadata := none

namespace FakeIPFile

def domainBucket (c : FakeIPFile) (isIPv6 : Bool) : Option (GoMap Bytes Bytes) :=
  if isIPv6 then c.domain6 else c.domain4

def setDomainBucket (c : FakeIPFile) (isIPv6 : Bool) (bucket : GoMap Bytes Bytes) : FakeIPFile :=
  if isIPv6 then { c with domain6 := some bucket } else { c with domain4 := some bucket }

/-- `FakeIPMetadata` takes the metadata out. A panic makes the database a new one. -/
def fakeIPMetadata (commits : Bool) (c : FakeIPFile) : Option FakeIPMetadata × FakeIPFile :=
  match c.address with
  | none => (none, c)
  | some bucket =>
    match commits, bucket.metadata with
    | true, some (.saved metadata) => (some metadata, { c with address := some { bucket with metadata := none } })
    | true, some .short => (none, { saveMetadata := c.saveMetadata })
    | _, _ => (none, c)

/-- `saveFakeIPMetadata`. -/
def writeMetadata (commits : Bool) (metadata : FakeIPMetadata) (c : FakeIPFile) : FakeIPFile :=
  if commits then { c with address := some { c.address.getD {} with metadata := some (.saved metadata) } } else c

def fakeIPSaveMetadata (commits : Bool) (metadata : FakeIPMetadata) (c : FakeIPFile) : Bool × FakeIPFile :=
  (!commits, writeMetadata commits metadata { c with saveMetadata := none })

/-- `flushFakeIPMetadata`, and the end of `CacheFile.Close`. -/
def flushFakeIPMetadata (commits : Bool) (c : FakeIPFile) : FakeIPFile :=
  match c.saveMetadata with
  | none => c
  | some metadata => writeMetadata commits metadata { c with saveMetadata := none }

/-- `FakeIPStore`. The database takes no empty keys. -/
def fakeIPStore (commits : Bool) (address : Addr) (domain : Domain) (c : FakeIPFile) : Option FakeIPFile :=
  if commits = false ∨ asSlice address = [] ∨ domain = [] then none
  else
    let isIPv6 := !address.is4
    let bucket := c.address.getD {}
    let domains := (c.domainBucket isIPv6).getD ∅
    let domains :=
      match bucket.domains.lookup (asSlice address) with
      | some oldDomain => domains.erase oldDomain
      | none => domains
    let c := { c with address := some { bucket with domains := bucket.domains.insert (asSlice address) domain } }
    some (c.setDomainBucket isIPv6 (domains.insert domain (asSlice address)))

def fakeIPLoad (c : FakeIPFile) (address : Addr) : Option Domain :=
  match c.address with
  | none => none
  | some bucket => (bucket.domains.lookup (asSlice address)).filter (· ≠ [])

def fakeIPLoadDomain (c : FakeIPFile) (domain : Domain) (isIPv6 : Bool) : Option Addr :=
  match c.domainBucket isIPv6 with
  | none => none
  | some bucket =>
    let address := addrFromIP ((bucket.lookup domain).getD [])
    if address.isValid then some address else none

/-- `FakeIPReset`: a bucket that is missing is an error. -/
def fakeIPReset (commits : Bool) (c : FakeIPFile) : Option FakeIPFile :=
  if commits ∧ c.address.isSome ∧ c.domain4.isSome ∧ c.domain6.isSome then some { saveMetadata := c.saveMetadata }
  else none

end FakeIPFile

def fileStorage : FakeIPStorage FakeIPFile where
  opened c := c
  fakeIPMetadata := FakeIPFile.fakeIPMetadata
  fakeIPSaveMetadata := FakeIPFile.fakeIPSaveMetadata
  fakeIPSaveMetadataAsync metadata c := { c with saveMetadata := some metadata }
  fakeIPStore := FakeIPFile.fakeIPStore
  fakeIPLoad := FakeIPFile.fakeIPLoad
  fakeIPLoadDomain := FakeIPFile.fakeIPLoadDomain
  fakeIPReset := FakeIPFile.fakeIPReset
  flush := FakeIPFile.flushFakeIPMetadata
  reopen written c := { c.flushFakeIPMetadata written with saveMetadata := none }

/-! ## Soundness -/

namespace MemoryStorage

/-- All domains have usable addresses. -/
def Sound (r : Bool → Prefix) (m : MemoryStorage) : Prop :=
  ∀ isIPv6 domain address, (m.domainCache isIPv6).lookup domain = some address → Usable (r isIPv6) address

theorem sound_empty (r : Bool → Prefix) : Sound r {} := by
  intro isIPv6 domain address hload
  cases isIPv6 <;> cases hload

theorem Sound.store {r : Bool → Prefix} {m : MemoryStorage} (h : m.Sound r) {isIPv6 : Bool} {address : Addr}
    (husable : Usable (r isIPv6) address) (his4 : address.is4 = !isIPv6) (domain : Domain) :
    (m.fakeIPStore address domain).Sound r := by
  intro isIPv6' domain' address' hload
  rw [lookup_domainCache_fakeIPStore] at hload
  split at hload
  · rename_i hfamily
    rw [his4, Bool.not_not] at hfamily
    subst hfamily
    split at hload
    · cases hload
      exact husable
    · split at hload
      · cases hload
      · exact h _ _ _ hload
  · exact h _ _ _ hload

theorem lawful : Lawful memoryStorage Sound where
  opened _ := sound_empty _
  load h hload := h _ _ _ hload
  follows _ hnone := nomatch hnone
  metadata _ h := h
  save _ h _ := h
  saveAsync h _ := h
  store h husable his4 hstore := by
    cases hstore
    exact h.store husable his4 _
  reset _ hreset := by
    cases hreset
    exact sound_empty _
  flush _ h := h
  reopen _ _ := sound_empty _

end MemoryStorage

namespace FakeIPFile

/-- All domains have usable addresses, and the metadata, written or not, has cursors
of its ranges. -/
structure Sound (r : Bool → Prefix) (c : FakeIPFile) : Prop where
  records : ∀ isIPv6 domain address, c.fakeIPLoadDomain domain isIPv6 = some address → Usable (r isIPv6) address
  metadata : ∀ bucket metadata, c.address = some bucket → bucket.metadata = some (.saved metadata) → metadata.Follows
  pending : ∀ metadata, c.saveMetadata = some metadata → metadata.Follows

variable {r : Bool → Prefix} {c : FakeIPFile} {metadata : FakeIPMetadata}

theorem sound_empty (hpending : ∀ metadata, c.saveMetadata = some metadata → metadata.Follows) :
    Sound r { saveMetadata := c.saveMetadata } := by
  refine ⟨fun isIPv6 domain address hload => ?_, ?_, hpending⟩
  · cases isIPv6 <;> cases hload
  · intro bucket metadata hbucket
    cases hbucket

theorem Sound.write (h : c.Sound r) (commits : Bool) (hmetadata : metadata.Follows) :
    (c.writeMetadata commits metadata).Sound r := by
  unfold writeMetadata
  split
  · refine ⟨h.records, ?_, h.pending⟩
    rintro _ _ ⟨⟩ ⟨⟩
    exact hmetadata
  · exact h

theorem Sound.notPending (h : c.Sound r) : Sound r { c with saveMetadata := none } :=
  ⟨h.records, h.metadata, by simp⟩

theorem Sound.flush (h : c.Sound r) (commits : Bool) : (c.flushFakeIPMetadata commits).Sound r := by
  unfold flushFakeIPMetadata
  split
  · exact h
  · rename_i metadata hpending
    exact h.notPending.write commits (h.pending metadata hpending)

theorem fakeIPMetadata_cases (c : FakeIPFile) (commits : Bool) : c.fakeIPMetadata commits = (none, c) ∨
    (∃ bucket metadata, c.address = some bucket ∧ bucket.metadata = some (.saved metadata) ∧
      c.fakeIPMetadata commits = (some metadata, { c with address := some { bucket with metadata := none } })) ∨
    c.fakeIPMetadata commits = (none, { saveMetadata := c.saveMetadata }) := by
  unfold fakeIPMetadata
  split
  · exact .inl rfl
  · rename_i bucket hbucket
    split
    · rename_i hmetadata
      exact .inr (.inl ⟨bucket, _, hbucket, hmetadata, rfl⟩)
    · exact .inr (.inr rfl)
    · exact .inl rfl

theorem Sound.load (h : c.Sound r) (commits : Bool) : (c.fakeIPMetadata commits).2.Sound r := by
  rcases c.fakeIPMetadata_cases commits with heq | ⟨bucket, metadata, -, -, heq⟩ | heq
  · rw [heq]
    exact h
  · rw [heq]
    refine ⟨h.records, ?_, h.pending⟩
    rintro _ _ ⟨⟩ hnone
    cases hnone
  · rw [heq]
    exact sound_empty h.pending

variable {commits : Bool} {domain : Domain} {c' : FakeIPFile}

theorem Sound.follows (h : c.Sound r) (hload : (c.fakeIPMetadata commits).1 = some metadata) : metadata.Follows := by
  rcases c.fakeIPMetadata_cases commits with heq | ⟨bucket, metadata', hbucket, hmetadata, heq⟩ | heq
  · rw [heq] at hload
    cases hload
  · rw [heq] at hload
    cases hload
    exact h.metadata bucket metadata hbucket hmetadata
  · rw [heq] at hload
    cases hload

theorem domainBucket_setDomainBucket (c : FakeIPFile) (isIPv6 isIPv6' : Bool) (bucket : GoMap Bytes Bytes) :
    (c.setDomainBucket isIPv6 bucket).domainBucket isIPv6' =
      if isIPv6' = isIPv6 then some bucket else c.domainBucket isIPv6' := by
  cases isIPv6 <;> cases isIPv6' <;> rfl

variable {address : Addr} {isIPv6 : Bool}

theorem fakeIPLoadDomain_eq_some :
    c.fakeIPLoadDomain domain isIPv6 = some address ↔ ∃ bucket bytes, c.domainBucket isIPv6 = some bucket ∧
      bucket.lookup domain = some bytes ∧ addrFromIP bytes = address ∧ address.isValid = true := by
  unfold fakeIPLoadDomain
  cases c.domainBucket isIPv6 with
  | none => simp
  | some bucket =>
    cases hlookup : bucket.lookup domain with
    | none =>
      have hzero : (addrFromIP []).isValid = false := rfl
      simp [hlookup, hzero]
    | some bytes =>
      simp only [Option.getD_some, hlookup]
      constructor
      · intro hload
        split at hload
        · rename_i hvalid
          cases hload
          exact ⟨bucket, bytes, rfl, hlookup, rfl, hvalid⟩
        · cases hload
      · rintro ⟨_, _, ⟨⟩, hlookup', rfl, hvalid⟩
        rw [hlookup] at hlookup'
        cases hlookup'
        rw [if_pos hvalid]

theorem load_of_fakeIPStore
    (hstore : c.fakeIPStore commits address domain = some c') {domain' : Domain} {address' : Addr}
    (hload : c'.fakeIPLoadDomain domain' isIPv6 = some address') :
    address' = address ∧ isIPv6 = !address.is4 ∨ c.fakeIPLoadDomain domain' isIPv6 = some address' := by
  unfold fakeIPStore at hstore
  split at hstore
  · cases hstore
  · cases hstore
    obtain ⟨bucket, bytes, hbucket, hlookup, rfl, hvalid⟩ := fakeIPLoadDomain_eq_some.1 hload
    rw [domainBucket_setDomainBucket] at hbucket
    split at hbucket
    · rename_i hfamily
      cases hbucket
      rcases GoMap.lookup_of_insert hlookup with ⟨-, rfl⟩ | hlookup
      · exact .inl ⟨addrFromIP_asSlice address, hfamily⟩
      · -- an entry of the bucket there was
        have hkept : ((c.domainBucket (!address.is4)).getD ∅).lookup domain' = some bytes := by
          split at hlookup
          · exact GoMap.lookup_of_erase hlookup
          · exact hlookup
        refine .inr (fakeIPLoadDomain_eq_some.2 ?_)
        rw [hfamily]
        cases hbucket : c.domainBucket (!address.is4) with
        | none =>
          rw [hbucket] at hkept
          cases hkept
        | some bucket =>
          rw [hbucket] at hkept
          exact ⟨bucket, bytes, rfl, hkept, rfl, hvalid⟩
    · exact .inr (fakeIPLoadDomain_eq_some.2 ⟨bucket, bytes, hbucket, hlookup, rfl, hvalid⟩)

theorem metadata_of_fakeIPStore (hstore : c.fakeIPStore commits address domain = some c') :
    c'.saveMetadata = c.saveMetadata ∧ ∃ domains, c'.address = some { c.address.getD {} with domains } := by
  have hset : ∀ (c : FakeIPFile) isIPv6 bucket, (c.setDomainBucket isIPv6 bucket).saveMetadata = c.saveMetadata ∧
      (c.setDomainBucket isIPv6 bucket).address = c.address := by
    intro c isIPv6 bucket
    cases isIPv6 <;> exact ⟨rfl, rfl⟩
  unfold fakeIPStore at hstore
  split at hstore
  · cases hstore
  · cases hstore
    exact ⟨(hset _ _ _).1, _, (hset _ _ _).2⟩

theorem Sound.store (h : c.Sound r) (husable : Usable (r isIPv6) address) (his4 : address.is4 = !isIPv6)
    (hstore : c.fakeIPStore commits address domain = some c') : c'.Sound r := by
  obtain ⟨hpending, domains, haddress⟩ := metadata_of_fakeIPStore hstore
  refine ⟨fun isIPv6' domain' address' hload => ?_, ?_, hpending ▸ h.pending⟩
  · rcases load_of_fakeIPStore hstore hload with ⟨rfl, hfamily⟩ | hload
    · rw [his4, Bool.not_not] at hfamily
      exact hfamily ▸ husable
    · exact h.records isIPv6' domain' address' hload
  · intro bucket metadata hbucket hmetadata
    rw [haddress] at hbucket
    cases hbucket
    cases hold : c.address with
    | none =>
      rw [hold] at hmetadata
      cases hmetadata
    | some bucket =>
      rw [hold] at hmetadata
      exact h.metadata bucket metadata hold hmetadata

theorem Sound.reset (h : c.Sound r) (hreset : c.fakeIPReset commits = some c') : c'.Sound r := by
  unfold fakeIPReset at hreset
  split at hreset
  · cases hreset
    exact sound_empty h.pending
  · cases hreset

theorem lawful : Lawful fileStorage Sound where
  opened h := h
  load h hload := h.records _ _ _ hload
  follows h hload := h.follows hload
  metadata commits h := h.load commits
  save commits h hmetadata := h.notPending.write commits hmetadata
  saveAsync h hmetadata := ⟨h.records, h.metadata, fun _ hpending => Option.some.inj hpending ▸ hmetadata⟩
  store h husable his4 hstore := h.store husable his4 hstore
  reset h hreset := h.reset hreset
  flush commits h := h.flush commits
  reopen written h := (h.flush written).notPending

/-- The metadata is that of a store with these ranges. -/
def IsOf (c : FakeIPFile) (r : Bool → Prefix) : Prop :=
  ∃ bucket metadata, c.address = some bucket ∧ bucket.metadata = some (.saved metadata) ∧
    metadata.inet4Range = r false ∧ metadata.inet6Range = r true

/-- A reset goes through: all three buckets are there. -/
structure Resets (c : FakeIPFile) (commits : Bool) : Prop where
  commits : commits = true
  address : c.address.isSome = true
  domain4 : c.domain4.isSome = true
  domain6 : c.domain6.isSome = true

theorem startsAfresh {s : Store FakeIPFile} {commitsLoad commitsReset : Bool} (hother : ¬ s.storage.IsOf s.ranges)
    (hresets : s.storage.Resets commitsReset) (hpending : s.storage.saveMetadata = none) :
    s.StartsAfresh fileStorage Sound commitsLoad commitsReset := by
  have hempty : ∀ c : FakeIPFile, c.saveMetadata = none → Sound s.ranges { saveMetadata := c.saveMetadata } := by
    intro c hnone
    exact sound_empty (by simp [hnone])
  -- the metadata is in the bucket of addresses, which is there afterwards, too
  have hreset : ∀ c : FakeIPFile, c.Resets commitsReset → c.saveMetadata = none →
      Sound s.ranges ((c.fakeIPReset commitsReset).getD c) := by
    intro c hc hnone
    have heq : c.fakeIPReset commitsReset = some { saveMetadata := c.saveMetadata } :=
      if_pos ⟨hc.commits, hc.address, hc.domain4, hc.domain6⟩
    rw [heq]
    exact hempty c hnone
  change (∀ metadata, (s.storage.fakeIPMetadata commitsLoad).1 = some metadata → _) ∧
    Sound s.ranges (((s.storage.fakeIPMetadata commitsLoad).2.fakeIPReset commitsReset).getD
      (s.storage.fakeIPMetadata commitsLoad).2)
  rcases s.storage.fakeIPMetadata_cases commitsLoad with heq | ⟨bucket, metadata, hbucket, hmetadata, heq⟩ | heq
  · rw [heq]
    exact ⟨by simp, hreset s.storage hresets hpending⟩
  · rw [heq]
    refine ⟨?_, hreset _ ⟨hresets.commits, rfl, hresets.domain4, hresets.domain6⟩ hpending⟩
    rintro _ ⟨⟩ ⟨h4, h6⟩
    exact hother ⟨bucket, metadata, hbucket, hmetadata, h4, h6⟩
  · rw [heq]
    refine ⟨by simp, ?_⟩
    have hfails : fakeIPReset commitsReset { saveMetadata := s.storage.saveMetadata } = none :=
      if_neg fun hall => nomatch hall.2.1
    rw [hfails]
    exact hempty s.storage hpending

end FakeIPFile

/-! ## Runs on both storages -/

/-- A start has ranges with room. On the cache file, its records and its metadata are
those of the ranges, or the metadata is not and the reset goes through, in a new
process. -/
def Store.CarefulFile (s : Store FakeIPFile) : Op → Prop
  | .start _ commitsReset =>
    (∀ isIPv6, Roomy isIPv6 (s.ranges isIPv6)) ∧
      (s.storage.Sound s.ranges ∨
        (¬ s.storage.IsOf s.ranges ∧ s.storage.Resets commitsReset ∧ s.storage.saveMetadata = none))
  | _ => True

def Store.CarefulMemory (s : Store MemoryStorage) : Op → Prop
  | .start _ _ => ∀ isIPv6, Roomy isIPv6 (s.ranges isIPv6)
  | _ => True

/-- All addresses that `Create` returns are usable ones of the range of their family. -/
theorem created_in_range (domain : Domain) (isIPv6 commits : Bool) (address : Addr) :
    (∀ s, Reach (system memoryStorage) (fun s op => s.CarefulMemory op) s →
      (s.create memoryStorage domain isIPv6 commits).1 = .ok address → Usable (s.ranges isIPv6) address) ∧
    (∀ s, Reach (system fileStorage) (fun s op => s.CarefulFile op) s →
      (s.create fileStorage domain isIPv6 commits).1 = .ok address → Usable (s.ranges isIPv6) address) := by
  constructor
  · intro s hs
    have hmono : Reach (system memoryStorage) (fun s op => s.Careful memoryStorage MemoryStorage.Sound op) s := by
      refine hs.mono fun s op hop => ?_
      cases op with
      | start commitsLoad commitsReset => exact ⟨hop, .inl (MemoryStorage.sound_empty _)⟩
      | _ => trivial
    exact ((Store.Inv.of_reach MemoryStorage.lawful hmono).create MemoryStorage.lawful domain isIPv6 commits).1 address
  · intro s hs
    have hmono : Reach (system fileStorage) (fun s op => s.Careful fileStorage FakeIPFile.Sound op) s := by
      refine hs.mono fun s op hop => ?_
      cases op with
      | start commitsLoad commitsReset =>
        obtain ⟨hroomy, hsound | ⟨hother, hresets, hpending⟩⟩ := hop
        · exact ⟨hroomy, .inl hsound⟩
        · exact ⟨hroomy, .inr (FakeIPFile.startsAfresh hother hresets hpending)⟩
      | _ => trivial
    exact ((Store.Inv.of_reach FakeIPFile.lawful hmono).create FakeIPFile.lawful domain isIPv6 commits).1 address

theorem roomy_sampleRange : Roomy false sampleRange :=
  fun _ => ⟨rfl, rfl, by decide, by decide⟩

theorem roomy_noRange (isIPv6 : Bool) : Roomy isIPv6 noRange := nofun

theorem created_in_range_sample :
    Usable sampleRange (.v4 0x0a000002) ∧
      (((newStore {} sampleRange noRange).start fileStorage true true).create fileStorage [1]
        false true).1 = .ok (.v4 0x0a000002) := by
  let s := newStore ({} : FakeIPFile) sampleRange noRange
  have hroomy : ∀ isIPv6, Roomy isIPv6 (s.ranges isIPv6) := by
    intro isIPv6
    cases isIPv6 with
    | false => exact roomy_sampleRange
    | true => exact roomy_noRange true
  have hsound : s.storage.Sound s.ranges := FakeIPFile.sound_empty (c := {}) (by simp)
  have hcareful : s.CarefulFile (.start true true) := ⟨hroomy, .inl hsound⟩
  have hreach : Reach (system fileStorage) (fun s op => s.CarefulFile op) (s.start fileStorage true true) :=
    .step (.init ⟨_, _, _, rfl⟩) hcareful rfl
  exact ⟨(created_in_range [1] false true _).2 _ hreach rfl, rfl⟩

/-- `10.1.0.0/29`. -/
def changedRange : Prefix := .ofBits (.v4 0x0a010000) 29

/-- A domain is given an address, and the next process has another range. -/
def changedOps : List Op :=
  [.start true true, .create [1] false true, .close true, .new changedRange MemoryRun.noRange true, .start true true]

/-- `10.0.0.0/31`. -/
def smallRange : Prefix := .ofBits (.v4 0x0a000000) 31

/-- The bucket of the other family is missing, so the reset fails and the domain keeps
its address of the range there was. Of a range of two addresses one beyond is
returned. -/
theorem created_out_of_range :
    (∃ s, Reach (system fileStorage) (fun _ _ => True) s ∧ (∀ isIPv6, Roomy isIPv6 (s.ranges isIPv6)) ∧
      s.ranges false = changedRange ∧ (s.create fileStorage [1] false true).1 = .ok (.v4 0x0a000002) ∧
      changedRange.contains (.v4 0x0a000002) = false) ∧
    (∃ s, Reach (system memoryStorage) (fun _ _ => True) s ∧ s.ranges false = smallRange ∧
      (s.create memoryStorage [1] false true).1 = .ok (.v4 0x0a000002) ∧
      smallRange.contains (.v4 0x0a000002) = false) := by
  have hfile : Reach (system fileStorage) (fun _ _ => True)
      (newStore {} sampleRange noRange) := .init ⟨_, _, _, rfl⟩
  have hmemory : Reach (system memoryStorage) (fun _ _ => True)
      (newStore {} smallRange noRange) := .init ⟨_, _, _, rfl⟩
  refine ⟨⟨_, hfile.foldl changedOps (by simp [Allowed, changedOps]), fun isIPv6 => ?_, rfl, rfl, rfl⟩,
    _, hmemory.foldl [.start true true] (by simp [Allowed]), rfl, rfl, rfl⟩
  cases isIPv6 with
  | false => exact fun _ => ⟨rfl, rfl, by decide, by decide⟩
  | true => exact roomy_noRange true

end Singlink.Dns.FakeIP
