import Singlink.Lib.GoMap
import Singlink.Lib.Runs
import Singlink.Dns.Message
/-!
# The two DNS caches

`storeCache`, `loadResponse` and `loadPersistentResponse` of `dns/client.go`, and
`experimental/cachefile/dns_cache.go` behind them. A client keeps responses in
memory, or in the cache file: there a response is pending until a goroutine has
written it to the database, one at a time for each key.

Times are whole seconds and nothing is evicted. The database is a map; a bucket
needs a name, so saving fails for a transport without a tag.
-/

namespace Singlink.Dns

open Lib

/-- Seconds since the epoch. -/
abbrev Seconds := Int

/-- The settings of a client that its caches depend on. -/
structure CacheConfig where
  disableExpire : Bool := false
  optimisticTimeout : Seconds := 0

/-- What a load returns when it finds a response. -/
structure Loaded where
  response : Msg
  ttl : Nat
  isStale : Bool
  deriving DecidableEq

/-- What `loadResponse` and `loadPersistentResponse` make of an entry, if it is not too old. -/
def viewEntry (cfg : CacheConfig) (now : Seconds) (response : Msg) (expireAt : Seconds) : Option Loaded :=
  if cfg.disableExpire then some { response, ttl := 0, isStale := false }
  else if now > expireAt then
    if cfg.optimisticTimeout > 0 ∧ now < expireAt + cfg.optimisticTimeout then
      some { response := normalizeTTL response 1, ttl := 0, isStale := true }
    else none
  else
    let nowTTL := (expireAt - now).toNat
    some { response := normalizeTTL response (.ofNat nowTTL), ttl := nowTTL, isStale := false }

/-! ## In memory -/

structure DnsCacheKey where
  question : Question
  transportTag : String
  deriving DecidableEq

/-- `freelru.Cache`: a response and when it expires, with `0` for never. -/
abbrev MemoryCache := GoMap DnsCacheKey (Msg × Seconds)

/-- `storeCache` without a cache file. -/
def MemoryCache.store (cfg : CacheConfig) (c : MemoryCache) (now : Seconds) (transport : String) (question : Question)
    (message : Msg) (timeToLive : UInt32) : MemoryCache :=
  if timeToLive == 0 then c
  else
    let key : DnsCacheKey := { question, transportTag := transport }
    if cfg.disableExpire then c.insert key (message, 0)
    else c.insert key (message, now + timeToLive.toNat)

/-- `loadResponse` without a cache file. An entry that is too old is removed. -/
def MemoryCache.load (cfg : CacheConfig) (c : MemoryCache) (now : Seconds) (transport : String) (question : Question) :
    Option Loaded × MemoryCache :=
  let key : DnsCacheKey := { question, transportTag := transport }
  match c.lookup key with
  | none => (none, c)
  | some (response, expireAt) =>
    match viewEntry cfg now response expireAt with
    | none => (none, c.erase key)
    | some loaded => (some loaded, c)

/-! ## In the cache file -/

structure SaveCacheKey where
  transportName : String
  questionName : String
  qType : UInt16
  deriving DecidableEq

structure SaveDNSCacheEntry (Raw : Type) where
  rawMessage : Raw
  expireAt : Seconds
  sequence : Nat
  saving : Bool

/-- Where the loop of `flushPendingDNSCacheWith` is, with the entry it has read. -/
inductive Flush (Raw : Type) where
  | reading
  | saving (entry : SaveDNSCacheEntry Raw)
  | deleting (entry : SaveDNSCacheEntry Raw)

/-- `CacheFile`, as far as DNS responses go. The key of an entry in its bucket is
the question's type and name; `flushes` are the goroutines that write. -/
structure CacheFile (Raw : Type) where
  saveDNSCache : GoMap SaveCacheKey (SaveDNSCacheEntry Raw) := ∅
  db : GoMap SaveCacheKey (Seconds × Raw) := ∅
  flushes : GoMap SaveCacheKey (Flush Raw) := ∅

variable {Raw : Type}

namespace CacheFile

def loadDNSCache (c : CacheFile Raw) (key : SaveCacheKey) : Option (Raw × Seconds) :=
  match c.saveDNSCache.lookup key with
  | some entry => some (entry.rawMessage, entry.expireAt)
  | none => (c.db.lookup key).map fun value => (value.2, value.1)

def saveDNSCacheEntry (c : CacheFile Raw) (key : SaveCacheKey) (entry : SaveDNSCacheEntry Raw) : CacheFile Raw :=
  if key.transportName == "" then c else { c with db := c.db.insert key (entry.expireAt, entry.rawMessage) }

/-- `SaveDNSCacheAsync` with `queueDNSCacheSave`. -/
def saveDNSCacheAsync (c : CacheFile Raw) (key : SaveCacheKey) (rawMessage : Raw) (expireAt : Seconds) : CacheFile Raw :=
  match c.saveDNSCache.lookup key with
  | none =>
    { c with
      saveDNSCache := c.saveDNSCache.insert key { rawMessage, expireAt, sequence := 1, saving := true }
      flushes := c.flushes.insert key .reading }
  | some entry =>
    { c with
      saveDNSCache := c.saveDNSCache.insert key
        { rawMessage, expireAt, sequence := entry.sequence + 1, saving := true }
      flushes := if entry.saving then c.flushes else c.flushes.insert key .reading }

/-- The next step of the goroutine that writes the entry of a key. -/
def flushPendingDNSCache (c : CacheFile Raw) (key : SaveCacheKey) : CacheFile Raw :=
  match c.flushes.lookup key with
  | none => c
  | some .reading =>
    match c.saveDNSCache.lookup key with
    | none => { c with flushes := c.flushes.erase key }
    | some entry => { c with flushes := c.flushes.insert key (.saving entry) }
  | some (.saving entry) =>
    let c := c.saveDNSCacheEntry key entry
    { c with flushes := c.flushes.insert key (.deleting entry) }
  | some (.deleting entry) =>
    match c.saveDNSCache.lookup key with
    | none => { c with flushes := c.flushes.erase key }
    | some currentEntry =>
      if currentEntry.sequence ≠ entry.sequence then { c with flushes := c.flushes.insert key .reading }
      else { c with saveDNSCache := c.saveDNSCache.erase key, flushes := c.flushes.erase key }

end CacheFile

structure Wire (Raw : Type) where
  pack : Msg → Option Raw
  unpack : Raw → Option Msg

def saveCacheKey (transport : String) (question : Question) : SaveCacheKey :=
  { transportName := transport, questionName := question.name, qType := question.qtype }

/-- `storeCache` with a cache file. -/
def CacheFile.store (w : Wire Raw) (c : CacheFile Raw) (now : Seconds) (transport : String) (question : Question)
    (message : Msg) (timeToLive : UInt32) : CacheFile Raw :=
  if timeToLive == 0 then c
  else
    match w.pack message with
    | none => c
    | some packed => c.saveDNSCacheAsync (saveCacheKey transport question) packed (now + timeToLive.toNat)

/-- `loadPersistentResponse`. -/
def CacheFile.load (w : Wire Raw) (cfg : CacheConfig) (c : CacheFile Raw) (now : Seconds) (transport : String)
    (question : Question) : Option Loaded :=
  match c.loadDNSCache (saveCacheKey transport question) with
  | none => none
  | some (rawMessage, expireAt) =>
    match w.unpack rawMessage with
    | none => none
    | some response => viewEntry cfg now response expireAt

/-! ## Runs of both -/

/-- A call of `storeCache` that has stored something. -/
structure Stored where
  transport : String
  question : Question
  message : Msg
  expireAt : Seconds

/-- The two caches side by side, given the same calls; `stored` are those that
stored, the last one first. -/
structure Caches (Raw : Type) where
  now : Seconds
  memory : MemoryCache := ∅
  file : CacheFile Raw := {}
  stored : List Stored := []

inductive CacheOp where
  | wait (seconds : Nat)
  | store (transport : String) (question : Question) (message : Msg) (timeToLive : UInt32)
  | load (transport : String) (question : Question)
  | flush (key : SaveCacheKey)

def Caches.step (w : Wire Raw) (cfg : CacheConfig) (s : Caches Raw) : CacheOp → Caches Raw
  | .wait seconds => { s with now := s.now + seconds }
  | .store transport question message timeToLive =>
    { s with
      memory := s.memory.store cfg s.now transport question message timeToLive
      file := s.file.store w s.now transport question message timeToLive
      stored := if timeToLive == 0 then s.stored
        else { transport, question, message, expireAt := s.now + timeToLive.toNat } :: s.stored }
  | .load transport question => { s with memory := (s.memory.load cfg s.now transport question).2 }
  | .flush key => { s with file := s.file.flushPendingDNSCache key }

def cacheSystem (w : Wire Raw) (cfg : CacheConfig) : System (Caches Raw) CacheOp :=
  .ofStep (fun s => ∃ now, s = { now := now }) (Caches.step w cfg)

/-- Questions that the cache file has one key for also have one class, and the
transport has a tag. -/
def Keyed (classOf : SaveCacheKey → UInt16) (transport : String) (question : Question) : Prop :=
  transport ≠ "" ∧ question.qclass = classOf (saveCacheKey transport question)

def CacheOp.Keyed (classOf : SaveCacheKey → UInt16) : CacheOp → Prop
  | .store transport question _ _ => Dns.Keyed classOf transport question
  | .load transport question => Dns.Keyed classOf transport question
  | _ => True

end Singlink.Dns
