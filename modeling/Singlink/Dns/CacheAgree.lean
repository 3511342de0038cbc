import Singlink.Dns.CacheClear
/-!
# The two caches agree

What a load finds is the last response stored for its question, unless that is
too old. In memory this holds for the whole question. The cache file has no room
for the class of a question in its keys, so there it holds as long as questions
with one key have one class; then the two caches answer alike.
-/

namespace Singlink.Dns

open Lib CacheFile GoMap Option Bool AList

variable {Raw : Type} {w : Wire Raw} {cfg : CacheConfig} {classOf : SaveCacheKey → UInt16}

/-! ## What a load makes of an entry -/

/-- An entry that no load will find any more. -/
def Gone (cfg : CacheConfig) (now expireAt : Seconds) : Prop :=
  cfg.disableExpire = false ∧ now > expireAt ∧ ¬(cfg.optimisticTimeout > 0 ∧ now < expireAt + cfg.optimisticTimeout)

variable {now expireAt : Seconds} {c c' : CacheFile Raw} {key : SaveCacheKey} {transport : String}
  {question : Question}

theorem Gone.mono {now' : Seconds} (h : Gone cfg now expireAt) (hle : now ≤ now') : Gone cfg now' expireAt := by
  obtain ⟨hexpire, hnow, hstale⟩ := h
  refine ⟨hexpire, Int.lt_of_lt_of_le hnow hle, fun hstale' => hstale ⟨hstale'.1, ?_⟩⟩
  exact Int.lt_of_le_of_lt hle hstale'.2

theorem viewEntry_eq_none (response : Msg) : viewEntry cfg now response expireAt = none ↔ Gone cfg now expireAt := by
  unfold viewEntry Gone
  cases cfg.disableExpire with
  | true => simp
  | false => by_cases hnow : now > expireAt <;> simp [hnow]

theorem viewEntry_response {response : Msg} {loaded : Loaded}
    (h : viewEntry cfg now response expireAt = some loaded) :
    loaded.response = response ∨ ∃ ttl, loaded.response = normalizeTTL response ttl := by
  rw [viewEntry] at h
  split at h
  · cases h
    exact .inl rfl
  · split at h
    · split at h
      · cases h
        exact .inr ⟨1, rfl⟩
      · cases h
    · cases h
      exact .inr ⟨_, rfl⟩

theorem memory_load_fst (c : MemoryCache) (now : Seconds) (transport : String) (question : Question) :
    (c.load cfg now transport question).1 =
      (c.lookup { question, transportTag := transport }).bind fun entry => viewEntry cfg now entry.1 entry.2 := by
  unfold MemoryCache.load
  simp only
  split
  · rename_i h
    rw [h]
    rfl
  · rename_i response expireAt h
    rw [h, bind_some]
    cases viewEntry cfg now response expireAt <;> rfl

theorem file_load (c : CacheFile Raw) (now : Seconds) (transport : String) (question : Question) :
    c.load w cfg now transport question = (c.loadDNSCache (saveCacheKey transport question)).bind fun entry =>
      (w.unpack entry.1).bind fun response => viewEntry cfg now response entry.2 := by
  unfold load
  split
  · rename_i h
    rw [h]
    rfl
  · rename_i rawMessage expireAt h
    rw [h]
    simp only [bind_some]
    split
    · rename_i hunpack
      rw [hunpack]
      rfl
    · rename_i response hunpack
      rw [hunpack]
      rfl

/-! ## The goroutines that write -/

def Flush.entry? : Flush Raw → Option (SaveDNSCacheEntry Raw)
  | .reading => none
  | .saving entry => some entry
  | .deleting entry => some entry

/-- The file as far as one key goes, with what it answers as saved last. -/
def CacheFile.atKey (c : CacheFile Raw) (key : SaveCacheKey) : KeyCache Raw where
  pending := c.saveDNSCache.lookup key
  db := (c.db.lookup key).map Prod.swap
  flushes := (c.flushes.lookup key).toList
  lastSaved := c.loadDNSCache key

theorem loadDNSCache_atKey (c : CacheFile Raw) (key : SaveCacheKey) :
    (c.atKey key).loadDNSCache = c.loadDNSCache key := by
  unfold KeyCache.loadDNSCache CacheFile.loadDNSCache atKey
  cases c.saveDNSCache.lookup key <;> rfl

theorem atKey_eq {k : KeyCache Raw} (hk : k.Inv) (hclears : k.clears = 0)
    (hpending : c.saveDNSCache.lookup key = k.pending) (hdb : (c.db.lookup key).map Prod.swap = k.db)
    (hflushes : (c.flushes.lookup key).toList = k.flushes) : c.atKey key = k := by
  have hload : c.loadDNSCache key = k.lastSaved := by
    rw [← hk.loads hclears, ← loadDNSCache_atKey]
    simp only [KeyCache.loadDNSCache, atKey, hpending, hdb]
  obtain ⟨pending, db, flushes, clears, lastSaved⟩ := k
  simp only [atKey, hpending, hdb, hflushes, hload, ← hclears]

/-- Saving under a key is saving for the key alone. -/
theorem atKey_save (h : (c.atKey key).Inv) (raw : Raw) (expireAt : Seconds) :
    (c.saveDNSCacheAsync key raw expireAt).atKey key = (c.atKey key).saveDNSCacheAsync raw expireAt := by
  refine atKey_eq (h.save rfl raw expireAt) rfl ?_ ?_ ?_ <;>
    unfold CacheFile.saveDNSCacheAsync KeyCache.saveDNSCacheAsync atKey <;>
    cases hpending : c.saveDNSCache.lookup key with
    | none =>
      have hflushes : (c.atKey key).flushes = [] := by
        rcases h.flushes with ⟨hflushes, -⟩ | ⟨-, flush, -, hknows⟩
        · exact hflushes
        · obtain ⟨current, hcurrent⟩ := hknows.pending
          exact nomatch hpending.symm.trans hcurrent
      simp only [atKey, toList_eq_nil_iff] at hflushes
      simp [hflushes]
    | some entry => simp [h.saving entry hpending]

/-- The goroutine of a key takes the steps of the one goroutine. -/
theorem atKey_flush (h : (c.atKey key).Inv) (hkey : key.transportName ≠ "") :
    (c.flushPendingDNSCache key).atKey key = (c.atKey key).flushPendingDNSCache 0 := by
  refine atKey_eq (h.flush 0) (KeyCache.clears_flush _ 0) ?_ ?_ ?_ <;>
    unfold CacheFile.flushPendingDNSCache KeyCache.flushPendingDNSCache saveDNSCacheEntry atKey <;>
    rcases hflush : c.flushes.lookup key with _ | _ | entry | entry <;>
    cases hpending : c.saveDNSCache.lookup key <;>
    simp [hflush, hpending, hkey, SaveDNSCacheEntry.value] <;>
    split <;> simp [*]

section others

variable {key' : SaveCacheKey} (hne : key' ≠ key)

include hne

theorem atKey_save_ne (raw : Raw) (expireAt : Seconds) :
    (c.saveDNSCacheAsync key raw expireAt).atKey key' = c.atKey key' := by
  unfold CacheFile.saveDNSCacheAsync atKey loadDNSCache
  split
  · simp [lookup_insert_ne hne]
  · split <;> simp [lookup_insert_ne hne]

theorem atKey_flush_ne : (c.flushPendingDNSCache key).atKey key' = c.atKey key' := by
  unfold CacheFile.flushPendingDNSCache saveDNSCacheEntry
  split
  · rfl
  · split <;> simp [atKey, loadDNSCache, lookup_insert_ne hne, lookup_erase_ne hne]
  · split <;> simp [atKey, loadDNSCache, lookup_insert_ne hne]
  · split
    · simp [atKey, loadDNSCache, lookup_erase_ne hne]
    · split <;> simp [atKey, loadDNSCache, lookup_insert_ne hne, lookup_erase_ne hne]

end others

theorem saveDNSCacheAsync_eq (c : CacheFile Raw) (key : SaveCacheKey) (raw : Raw) (expireAt : Seconds) :
    ∃ entry flushes, entry.rawMessage = raw ∧ entry.expireAt = expireAt ∧
      (flushes = c.flushes ∨ flushes = c.flushes.insert key .reading) ∧
      c.saveDNSCacheAsync key raw expireAt =
        { c with saveDNSCache := c.saveDNSCache.insert key entry, flushes } := by
  unfold saveDNSCacheAsync
  split
  · exact ⟨_, _, rfl, rfl, .inr rfl, rfl⟩
  · exact ⟨_, _, rfl, rfl, ite_eq_or_eq .., rfl⟩

theorem loadDNSCache_save (c : CacheFile Raw) (key : SaveCacheKey) (raw : Raw) (expireAt : Seconds)
    (key' : SaveCacheKey) : (c.saveDNSCacheAsync key raw expireAt).loadDNSCache key' =
      if key' = key then some (raw, expireAt) else c.loadDNSCache key' := by
  obtain ⟨entry, flushes, rfl, rfl, -, hsave⟩ := saveDNSCacheAsync_eq c key raw expireAt
  simp only [hsave, loadDNSCache, lookup_insert_eq]
  by_cases heq : key' = key
  · rw [if_pos heq, if_pos heq]
  · rw [if_neg heq, if_neg heq]

/-- The goroutines are as they are for one key, and write under a transport that has
a tag. -/
structure FlushOk (c : CacheFile Raw) (key : SaveCacheKey) : Prop where
  inv : (c.atKey key).Inv
  tag : (c.atKey key).flushes ≠ [] → key.transportName ≠ ""

theorem flushOk_empty (key : SaveCacheKey) : FlushOk ({} : CacheFile Raw) key :=
  ⟨KeyCache.Inv.empty, fun h => absurd rfl h⟩

theorem FlushOk.congr (h : FlushOk c key) (heq : c'.atKey key = c.atKey key) : FlushOk c' key :=
  ⟨heq ▸ h.inv, heq ▸ h.tag⟩

theorem flushOk_save (h : ∀ key, FlushOk c key) (hkey : key.transportName ≠ "") (raw : Raw) (expireAt : Seconds)
    (key' : SaveCacheKey) : FlushOk (c.saveDNSCacheAsync key raw expireAt) key' := by
  by_cases heq : key' = key
  · subst heq
    refine ⟨?_, fun _ => hkey⟩
    rw [atKey_save (h key').inv]
    exact (h key').inv.save rfl raw expireAt
  · exact (h key').congr (atKey_save_ne heq raw expireAt)

theorem flush_spec (h : ∀ key, FlushOk c key) (key : SaveCacheKey) :
    (∀ key', FlushOk (c.flushPendingDNSCache key) key') ∧
      ∀ key', (c.flushPendingDNSCache key).loadDNSCache key' = c.loadDNSCache key' := by
  cases hflush : c.flushes.lookup key with
  | none =>
    have hidle : c.flushPendingDNSCache key = c := by rw [CacheFile.flushPendingDNSCache, hflush]
    rw [hidle]
    exact ⟨h, fun _ => rfl⟩
  | some flush =>
    have hkey : key.transportName ≠ "" := (h key).tag (by simp [atKey, hflush])
    have hstep := atKey_flush (h key).inv hkey
    refine ⟨fun key' => ?_, fun key' => ?_⟩
    · by_cases heq : key' = key
      · subst heq
        exact ⟨hstep ▸ (h key').inv.flush 0, fun _ => hkey⟩
      · exact (h key').congr (atKey_flush_ne heq)
    · by_cases heq : key' = key
      · subst heq
        exact (congrArg KeyCache.lastSaved hstep).trans (KeyCache.lastSaved_flush _ 0)
      · exact congrArg KeyCache.lastSaved (atKey_flush_ne heq)

/-! ## The invariant -/

def lastStored (stored : List Stored) (transport : String) (question : Question) : Option Stored :=
  stored.find? fun x => x.transport == transport && x.question == question

theorem lastStored_cons (x : Stored) (stored : List Stored) (transport : String) (question : Question) :
    lastStored (x :: stored) transport question =
      if x.transport = transport ∧ x.question = question then some x else lastStored stored transport question := by
  rw [lastStored, List.find?_cons, ← lastStored]
  by_cases h : x.transport = transport ∧ x.question = question
  · simp [h]
  · rw [if_neg h]
    have hne : (x.transport == transport && x.question == question) = false := by
      simpa only [and_eq_false_iff, beq_eq_false_iff_ne, ne_eq, ← not_and_or] using h
    rw [hne]

theorem mem_of_lastStored {stored : List Stored} {x : Stored} (h : lastStored stored transport question = some x) :
    x ∈ stored ∧ x.transport = transport ∧ x.question = question := by
  have hfound := List.find?_some h
  simp only [and_eq_true, beq_iff_eq] at hfound
  exact ⟨List.mem_of_find?_eq_some h, hfound⟩

structure Caches.Inv (w : Wire Raw) (cfg : CacheConfig) (classOf : SaveCacheKey → UInt16) (s : Caches Raw) : Prop where
  /-- in memory is what was stored last, or nothing if that is gone -/
  memory : ∀ transport question, s.memory.lookup { question, transportTag := transport } =
      (lastStored s.stored transport question).map (fun x => (x.message, if cfg.disableExpire then 0 else x.expireAt)) ∨
    s.memory.lookup { question, transportTag := transport } = none ∧
      ∃ x, lastStored s.stored transport question = some x ∧ Gone cfg s.now x.expireAt
  file : ∀ transport question, Keyed classOf transport question →
    s.file.loadDNSCache (saveCacheKey transport question) =
      (lastStored s.stored transport question).bind fun x => (w.pack x.message).map fun raw => (raw, x.expireAt)
  flush : ∀ key, FlushOk s.file key

theorem inv_start (now : Seconds) : Caches.Inv w cfg classOf { now := now } where
  memory _ _ := .inl rfl
  file _ _ _ := rfl
  flush := flushOk_empty

/-- Messages that are packed can be unpacked again. -/
def Wire.Lossless (w : Wire Raw) : Prop := ∀ m, ∃ raw, w.pack m = some raw ∧ w.unpack raw = some m

theorem saveCacheKey_inj {transport' : String} {question' : Question}
    (h : Keyed classOf transport question) (h' : Keyed classOf transport' question') :
    saveCacheKey transport' question' = saveCacheKey transport question ↔
      transport = transport' ∧ question = question' := by
  constructor
  · intro heq
    obtain ⟨name, qtype, qclass⟩ := question
    obtain ⟨name', qtype', qclass'⟩ := question'
    have hclass : qclass' = qclass := h'.2.trans ((congrArg classOf heq).trans h.2.symm)
    obtain ⟨rfl, rfl, rfl⟩ := heq
    exact ⟨rfl, by rw [hclass]⟩
  · rintro ⟨rfl, rfl⟩
    rfl

section steps

variable {s : Caches Raw}

theorem inv_wait (h : s.Inv w cfg classOf) (seconds : Nat) :
    Caches.Inv w cfg classOf { s with now := s.now + seconds } := by
  refine ⟨fun transport question => ?_, h.file, h.flush⟩
  rcases h.memory transport question with hsame | ⟨hnone, x, hx, hgone⟩
  · exact .inl hsame
  · exact .inr ⟨hnone, x, hx, hgone.mono (Int.le_add_of_nonneg_right (Int.natCast_nonneg seconds))⟩

theorem memory_store (h : s.Inv w cfg classOf) {x : Stored} {timeToLive : UInt32} (httl : timeToLive ≠ 0)
    (hexpire : x.expireAt = s.now + timeToLive.toNat) (transport : String) (question : Question) :
    let memory := s.memory.store cfg s.now x.transport x.question x.message timeToLive
    memory.lookup { question, transportTag := transport } =
      (lastStored (x :: s.stored) transport question).map
        (fun x => (x.message, if cfg.disableExpire then 0 else x.expireAt)) ∨
    memory.lookup { question, transportTag := transport } = none ∧
      ∃ y, lastStored (x :: s.stored) transport question = some y ∧ Gone cfg s.now y.expireAt := by
  have hstore : s.memory.store cfg s.now x.transport x.question x.message timeToLive =
      insert (β := fun _ => Msg × Seconds) { question := x.question, transportTag := x.transport }
        (x.message, if cfg.disableExpire then 0 else x.expireAt) s.memory := by
    rw [MemoryCache.store, if_neg (by rw [beq_iff_eq]; exact httl), hexpire]
    split
    · rfl
    · rfl
  simp only [hstore, lookup_insert_eq, lastStored_cons, DnsCacheKey.mk.injEq]
  by_cases heq : x.transport = transport ∧ x.question = question
  · rw [if_pos ⟨heq.2.symm, heq.1.symm⟩, if_pos heq]
    exact .inl rfl
  · rw [if_neg fun h => heq ⟨h.2.symm, h.1.symm⟩, if_neg heq]
    exact h.memory transport question

theorem inv_store (hwire : w.Lossless) (h : s.Inv w cfg classOf)
    (hkeyed : Keyed classOf transport question) (message : Msg) (timeToLive : UInt32) :
    Caches.Inv w cfg classOf (s.step w cfg (.store transport question message timeToLive)) := by
  by_cases httl : timeToLive = 0
  · subst httl
    exact ⟨h.memory, h.file, h.flush⟩
  · obtain ⟨raw, hpack, -⟩ := hwire message
    have hzero : (timeToLive == 0) = false := beq_eq_false_iff_ne.2 httl
    have hfile : s.file.store w s.now transport question message timeToLive =
        s.file.saveDNSCacheAsync (saveCacheKey transport question) raw (s.now + timeToLive.toNat) := by
      simp [store, hzero, hpack]
    simp only [Caches.step, hfile, hzero, false_eq_true, if_false]
    let x : Stored := { transport, question, message, expireAt := s.now + timeToLive.toNat }
    refine ⟨fun t q => memory_store (x := x) h httl rfl t q, fun t q hq => ?_, flushOk_save h.flush hkeyed.1 _ _⟩
    simp only [loadDNSCache_save, lastStored_cons, saveCacheKey_inj hkeyed hq]
    by_cases heq : transport = t ∧ question = q
    · rw [if_pos heq, if_pos heq, bind_some, hpack]
      rfl
    · rw [if_neg heq, if_neg heq]
      exact h.file t q hq

theorem memory_load_snd (cfg : CacheConfig) (c : MemoryCache) (now : Seconds) (transport : String) (question : Question) :
    (c.load cfg now transport question).2 = c ∨
      ∃ response expireAt, c.lookup { question, transportTag := transport } = some (response, expireAt) ∧
        Gone cfg now expireAt ∧
        (c.load cfg now transport question).2 = erase { question, transportTag := transport } c := by
  generalize hload : c.load cfg now transport question = r
  simp only [MemoryCache.load] at hload
  split at hload
  · exact .inl (hload ▸ rfl)
  · rename_i response expireAt hlookup
    split at hload
    · rename_i hview
      exact .inr ⟨response, expireAt, hlookup, (viewEntry_eq_none response).1 hview, hload ▸ rfl⟩
    · exact .inl (hload ▸ rfl)

theorem inv_load (h : s.Inv w cfg classOf) (transport : String) (question : Question) :
    Caches.Inv w cfg classOf (s.step w cfg (.load transport question)) := by
  refine ⟨fun t q => ?_, h.file, h.flush⟩
  rw [Caches.step]
  rcases memory_load_snd cfg s.memory s.now transport question with
    hsame | ⟨response, expireAt, hlookup, hgone, herase⟩
  · rw [hsame]
    exact h.memory t q
  · rw [herase]
    simp only [lookup_erase_eq, DnsCacheKey.mk.injEq]
    by_cases heq : q = question ∧ t = transport
    · obtain ⟨rfl, rfl⟩ := heq
      rw [if_pos ⟨rfl, rfl⟩]
      refine .inr ⟨rfl, ?_⟩
      rcases h.memory t q with hsame | hnone
      · rw [hlookup] at hsame
        obtain ⟨x, hx, hentry⟩ := map_eq_some_iff.1 hsame.symm
        rw [hgone.1] at hentry
        cases hentry
        exact ⟨x, hx, hgone⟩
      · exact hnone.2
    · rw [if_neg heq]
      exact h.memory t q

theorem inv_step (hwire : w.Lossless) (h : s.Inv w cfg classOf) {op : CacheOp} (hop : op.Keyed classOf) :
    Caches.Inv w cfg classOf (s.step w cfg op) := by
  cases op with
  | wait seconds => exact inv_wait h seconds
  | store transport question message timeToLive => exact inv_store hwire h hop message timeToLive
  | load transport question => exact inv_load h transport question
  | flush key =>
    obtain ⟨hflush, hload⟩ := flush_spec h.flush key
    refine ⟨h.memory, fun t q hq => ?_, hflush⟩
    rw [Caches.step, hload]
    exact h.file t q hq

end steps

/-! ## Results -/

theorem loads_eq (hwire : w.Lossless) {s : Caches Raw} (h : s.Inv w cfg classOf) (hkeyed : Keyed classOf transport question) :
    (s.memory.load cfg s.now transport question).1 =
        (lastStored s.stored transport question).bind (fun x => viewEntry cfg s.now x.message x.expireAt) ∧
      s.file.load w cfg s.now transport question =
        (lastStored s.stored transport question).bind fun x => viewEntry cfg s.now x.message x.expireAt := by
  constructor
  · rw [memory_load_fst]
    rcases h.memory transport question with hsame | ⟨hnone, x, hx, hgone⟩
    · rw [hsame]
      cases lastStored s.stored transport question with
      | none => rfl
      | some x =>
        cases hexpire : cfg.disableExpire with
        | true => simp only [Option.map_some, bind_some, viewEntry, if_pos hexpire]
        | false => rfl
    · rw [hnone, hx, bind_some, (viewEntry_eq_none _).2 hgone]
      rfl
  · rw [file_load, h.file transport question hkeyed]
    cases lastStored s.stored transport question with
    | none => rfl
    | some x =>
      obtain ⟨raw, hpack, hunpack⟩ := hwire x.message
      simp [hpack, hunpack]

/-- In every run of stores and loads whose questions have one class for each key
of the cache file, both caches answer every such load alike, and what they answer
was stored for the same question on the same transport. -/
theorem caches_agree (hwire : w.Lossless) (classOf : SaveCacheKey → UInt16) {s : Caches Raw}
    (h : Reach (cacheSystem w cfg) (fun _ op => op.Keyed classOf) s) {transport : String} {question : Question}
    (hkeyed : Keyed classOf transport question) :
    (s.memory.load cfg s.now transport question).1 = s.file.load w cfg s.now transport question ∧
      ∀ loaded, s.file.load w cfg s.now transport question = some loaded →
        ∃ x ∈ s.stored, x.transport = transport ∧ x.question = question ∧
          (loaded.response = x.message ∨ ∃ ttl, loaded.response = normalizeTTL x.message ttl) := by
  have hinv : s.Inv w cfg classOf := by
    refine Reach.inv (fun s : Caches Raw => s.Inv w cfg classOf) ?_ ?_ h
    · rintro s ⟨now, rfl⟩
      exact inv_start now
    · rintro s op s' hs hop rfl
      exact inv_step hwire hs hop
  obtain ⟨hmemory, hfile⟩ := loads_eq hwire hinv hkeyed
  refine ⟨hmemory.trans hfile.symm, fun loaded hloaded => ?_⟩
  rw [hfile] at hloaded
  obtain ⟨x, hx, hview⟩ := bind_eq_some_iff.1 hloaded
  obtain ⟨hmem, htransport, hquestion⟩ := mem_of_lastStored hx
  exact ⟨x, hmem, htransport, hquestion, viewEntry_response hview⟩

section samples

/-- A wire format that keeps messages as they are. -/
private def plainWire : Wire Msg := { pack := some, unpack := some }

private def askedA : Question := { name := "a.example.", qtype := typeA, qclass := classINET }

/-- The same name and type, of class `CH`. -/
private def askedChaos : Question := { askedA with qclass := 3 }

private def answerA : Msg :=
  { question := [askedA], answer := [{ name := "a.example.", cls := classINET, ttl := 60, data := .a [192, 0, 2, 1] }] }

private def storeAndWait : List CacheOp := [.store "local" askedA answerA 60, .wait 10]

private theorem reach_cacheStart (ok : Caches Msg → CacheOp → Prop) :
    Reach (cacheSystem plainWire {}) ok { now := 0 } := .init ⟨0, rfl⟩

theorem caches_agree_sample :
    let s := storeAndWait.foldl (Caches.step plainWire {}) { now := 0 }
    (s.memory.load {} s.now "local" askedA).1 = s.file.load plainWire {} s.now "local" askedA ∧
      ∀ loaded, s.file.load plainWire {} s.now "local" askedA = some loaded →
        ∃ x ∈ s.stored, x.transport = "local" ∧ x.question = askedA ∧
          (loaded.response = x.message ∨ ∃ ttl, loaded.response = normalizeTTL x.message ttl) := by
  have hkeyed : Keyed (fun _ => classINET) "local" askedA := ⟨by decide, rfl⟩
  refine caches_agree (fun m => ⟨m, rfl, rfl⟩) (fun _ => classINET) ?_ hkeyed
  exact .foldl (reach_cacheStart _) storeAndWait ⟨hkeyed, trivial, trivial⟩

/-- What was stored for class `INET` is found for class `CH` in the cache file, and
not in memory. -/
theorem cacheFile_other_class :
    ∃ s, Reach (cacheSystem plainWire {}) (fun _ _ => True) s ∧
      (s.memory.load {} s.now "local" askedChaos).1 = none ∧
      ∃ loaded, s.file.load plainWire {} s.now "local" askedChaos = some loaded ∧
        ∀ x ∈ s.stored, x.question ≠ askedChaos := by
  refine ⟨_, Reach.foldl (reach_cacheStart _) storeAndWait ⟨trivial, trivial, trivial⟩, rfl, _, rfl, fun x hx => ?_⟩
  cases hx with
  | head => decide
  | tail _ h => nomatch h

end samples

end Singlink.Dns
