import Singlink.Lib.Prog
import Singlink.Dns.Cache
/-!
# The DNS client

`Client` of `dns/client.go` as programs of atomic actions on the caches that all
calls share. A call is given what the transport will deliver to it. A refresh in
the background is put among the refreshes that have been started, and a program
of its own takes it from there.

A call that waits for another call's exchange reads whether that has ended; when
it looks too early its context is done. Times are whole seconds.
-/

namespace Singlink.Dns

open Lib

/-! ## Clients and calls -/

/-- The part of a response that response checkers look at: its code, and the
answer without the TTLs. -/
structure Answer where
  rcode : Nat
  records : List RR
  deriving DecidableEq

def Msg.toAnswer (m : Msg) : Answer := { rcode := m.rcode, records := m.answer.map (RR.setTTL 0) }

abbrev Checker := Answer → Bool

inductive TransportError where
  | rcode (code : Nat)
  | other

inductive ClientError where
  | ctxDone
  | loopback
  | responseRejectedCached
  | responseRejected (response : Msg)
  | rcode (code : Nat)
  | transport

/-- `Client`. Without a database the cache is in memory. -/
structure Client (Raw : Type) where
  wire : Wire Raw
  cacheConfig : CacheConfig := {}
  /-- `dnsCache` is set -/
  persistent : Bool := false
  disableCache : Bool := false
  clientSubnet : Option Subnet := none
  /-- the timeout of `rdrc`, if that is set -/
  rdrc : Option Seconds := none

/-- The arguments of `Exchange`, with the transport's tag for the transport and
the tag that the context has. `lookup` says that `Lookup` asks. -/
structure Query where
  transport : String
  message : Msg
  options : QueryOptions := {}
  responseChecker : Option Checker := none
  contextTransport : Option String := none
  lookup : Bool := false

/-- The arguments of `backgroundRefreshDNS`. -/
structure Refresh where
  transport : String
  question : Question
  message : Msg
  options : QueryOptions
  responseChecker : Option Checker

/-- A call that returned without an error: its checker and the responses it
returned, or took the addresses from that it returned. -/
structure Returned where
  responseChecker : Option Checker
  responses : List Msg

/-- What all calls share. A channel of `cacheLock` is a number; `channels` have
been made and those of `closed` are closed. -/
structure ClientState (Raw : Type) where
  now : Seconds
  memory : MemoryCache := ∅
  file : CacheFile Raw := {}
  rdrc : GoMap SaveCacheKey Seconds := ∅
  cacheLock : GoMap DnsCacheKey Nat := ∅
  channels : Nat := 0
  closed : List Nat := []
  backgroundRefresh : GoMap DnsCacheKey Unit := ∅
  started : List Refresh := []
  returned : List Returned := []

variable {Raw : Type}

/-! ## The stores -/

namespace Client

variable (c : Client Raw)

def loadResponse (question : Question) (transport : String) (s : ClientState Raw) : Option Loaded × ClientState Raw :=
  if c.persistent then (s.file.load c.wire c.cacheConfig s.now transport question, s)
  else
    let r := s.memory.load c.cacheConfig s.now transport question
    (r.1, { s with memory := r.2 })

def storeCache (transport : String) (question : Question) (message : Msg) (timeToLive : UInt32) (s : ClientState Raw) :
    ClientState Raw :=
  if c.persistent then { s with file := s.file.store c.wire s.now transport question message timeToLive }
  else { s with memory := s.memory.store c.cacheConfig s.now transport question message timeToLive }

/-- `LoadRDRC`: whether the last response was rejected, not long ago. -/
def loadRDRC (transport : String) (question : Question) (s : ClientState Raw) : Bool × ClientState Raw :=
  let key := saveCacheKey transport question
  match s.rdrc.lookup key with
  | none => (false, s)
  | some expiresAt => if s.now > expiresAt then (false, { s with rdrc := s.rdrc.erase key }) else (true, s)

/-- `SaveRDRCAsync`, if there is a store. -/
def saveRDRC (transport : String) (question : Question) (s : ClientState Raw) : ClientState Raw :=
  match c.rdrc with
  | none => s
  | some timeout => { s with rdrc := s.rdrc.insert (saveCacheKey transport question) (s.now + timeout) }

/-! ## Exchange -/

def prepareExchangeMessage (message : Msg) (options : QueryOptions) : Msg :=
  match options.clientSubnet <|> c.clientSubnet with
  | some clientSubnet => setClientSubnet message clientSubnet
  | none => message

/-- `exchangeToTransport`, given what the transport delivers. -/
def exchangeToTransport (message : Msg) (upstream : Except TransportError Msg) : Except ClientError Msg :=
  match upstream with
  | .ok response => .ok (stripDNSPadding response)
  | .error (.rcode code) => .ok (fixedResponseStatus message code)
  | .error .other => .error .transport

/-- Responses with other codes are not cached, and no checker accepts them. -/
def cacheableRcode (rcode : Nat) : Bool := rcode == rcodeSuccess || rcode == rcodeNameError

def rejects (responseChecker : Option Checker) (response : Msg) : Bool :=
  match responseChecker with
  | none => false
  | some check => !cacheableRcode response.rcode || !check response.toAnswer

/-- A question for addresses of the family that the strategy rules out. -/
def strategyRejects (question : Question) (strategy : DomainStrategy) : Bool :=
  question.qtype == typeA && strategy == .ipv6Only || question.qtype == typeAAAA && strategy == .ipv4Only

/-- `backgroundRefreshDNS`, up to the goroutine. -/
def backgroundRefreshDNS (refresh : Refresh) (s : ClientState Raw) : ClientState Raw :=
  let key : DnsCacheKey := { question := refresh.question, transportTag := refresh.transport }
  match s.backgroundRefresh.lookup key with
  | some _ => s
  | none => { s with backgroundRefresh := s.backgroundRefresh.insert key (), started := refresh :: s.started }

/-- `Exchange` after the cache: the transport is asked. -/
def exchangeUpstream (q : Query) (question : Question) (disableCache : Bool) (upstream : Except TransportError Msg) :
    Prog (ClientState Raw) (Except ClientError Msg) :=
  if q.contextTransport == some q.transport then pure (.error .loopback)
  else do
    let rejected ← (if !disableCache && q.responseChecker.isSome && c.rdrc.isSome then
      Prog.atomic (loadRDRC q.transport question) else pure false)
    if rejected then pure (.error .responseRejectedCached)
    else
      match exchangeToTransport q.message upstream with
      | .error err => pure (.error err)
      | .ok response =>
        let disableCache := disableCache || !cacheableRcode response.rcode
        if rejects q.responseChecker response then do
          Prog.when (!disableCache) (Prog.modify (c.saveRDRC q.transport question))
          pure (.error (.responseRejected response))
        else do
          let applied := applyResponseOptions question response q.options
          Prog.when (!disableCache) (Prog.modify (c.storeCache q.transport question applied.1 applied.2))
          pure (.ok (matchEdns0 q.message { applied.1 with id := q.message.id }))

/-- `Exchange` from the cache on. -/
def exchangeCached (q : Query) (question : Question) (upstream : Except TransportError Msg) :
    Prog (ClientState Raw) (Except ClientError Msg) := do
  let loaded ← Prog.atomic (c.loadResponse question q.transport)
  match loaded with
  | none => c.exchangeUpstream q question false upstream
  | some loaded =>
    if loaded.isStale then
      if q.options.disableOptimisticCache then c.exchangeUpstream q question false upstream
      else do
        Prog.modify (backgroundRefreshDNS
          { transport := q.transport, question, message := q.message, options := q.options,
            responseChecker := q.responseChecker })
        pure (.ok { loaded.response with id := q.message.id })
    else pure (.ok { loaded.response with id := q.message.id })

/-- `cacheLock.LoadOrStore`: the channel, and whether it is another call's. -/
def loadOrStoreLock (key : DnsCacheKey) (s : ClientState Raw) : (Nat × Bool) × ClientState Raw :=
  match s.cacheLock.lookup key with
  | some cond => ((cond, true), s)
  | none =>
    ((s.channels, false), { s with cacheLock := s.cacheLock.insert key s.channels, channels := s.channels + 1 })

/-- `exchangeCached` under the lock of the key; a call that does not get it waits
until the call that has it is done, and goes on without. -/
def exchangeLocked (q : Query) (question : Question) (upstream : Except TransportError Msg) :
    Prog (ClientState Raw) (Except ClientError Msg) := do
  let key : DnsCacheKey := { question, transportTag := q.transport }
  let lock ← Prog.atomic (loadOrStoreLock key)
  if lock.2 then
    let closed ← Prog.read fun s => s.closed.contains lock.1
    if closed then c.exchangeCached q question upstream else pure (.error .ctxDone)
  else
    let result ← c.exchangeCached q question upstream
    Prog.modify fun s => { s with cacheLock := s.cacheLock.erase key }
    Prog.modify fun s => { s with closed := lock.1 :: s.closed }
    pure result

def exchange (q : Query) (upstream : Except TransportError Msg) : Prog (ClientState Raw) (Except ClientError Msg) :=
  match q.message.question with
  | [] => pure (.ok (fixedResponseStatus q.message rcodeFormatError))
  | question :: _ =>
    if strategyRejects question q.options.strategy then pure (.ok (fixedResponseStatus q.message rcodeSuccess))
    else
      let q := { q with message := c.prepareExchangeMessage q.message q.options }
      let disableCache := !isSimpleRequest q.message q.options || c.disableCache || q.options.disableCache
      if disableCache then c.exchangeUpstream q question true upstream
      else c.exchangeLocked q question upstream

/-- The goroutine of `backgroundRefreshDNS`, up to its deferred call. -/
def refreshUpstream (r : Refresh) (upstream : Except TransportError Msg) : Prog (ClientState Raw) Unit :=
  match exchangeToTransport r.message upstream with
  | .error _ => pure ()
  | .ok response =>
    if rejects r.responseChecker response then Prog.modify (c.saveRDRC r.transport r.question)
    else if !cacheableRcode response.rcode then pure ()
    else
      let applied := applyResponseOptions r.question response r.options
      Prog.modify (c.storeCache r.transport r.question applied.1 applied.2)

/-- The goroutine of the refresh at place `i` of those started; what the
transport delivers may depend on which one it is. -/
def refresh (i : Nat) (upstream : Refresh → Except TransportError Msg) : Prog (ClientState Raw) Unit := do
  let started ← Prog.atomic fun s => (s.started[i]?, { s with started := s.started.eraseIdx i })
  match started with
  | none => pure ()
  | some r => do
    c.refreshUpstream r (upstream r)
    Prog.modify fun s =>
      { s with backgroundRefresh := s.backgroundRefresh.erase { question := r.question, transportTag := r.transport } }

/-! ## Lookup -/

/-- `questionCache`, with `none` for `ErrNotCached`. -/
def questionCache (q : Query) (question : Question) :
    Prog (ClientState Raw) (Option (Except ClientError Msg)) := do
  let loaded ← Prog.atomic (c.loadResponse question q.transport)
  match loaded with
  | none => pure none
  | some loaded =>
    if loaded.isStale && q.options.disableOptimisticCache then pure none
    else do
      Prog.when loaded.isStale (Prog.modify (backgroundRefreshDNS
        { transport := q.transport, question, message := c.prepareExchangeMessage q.message q.options,
          options := q.options, responseChecker := q.responseChecker }))
      if loaded.response.rcode ≠ rcodeSuccess then pure (some (.error (.rcode loaded.response.rcode)))
      else pure (some (.ok loaded.response))

def lookupQuery (transport name : String) (qType : UInt16) (options : QueryOptions) (responseChecker : Option Checker)
    (contextTransport : Option String) : Query where
  transport := transport
  message := { recursionDesired := true, question := [{ name, qtype := qType, qclass := classINET }] }
  options := options
  responseChecker := responseChecker
  contextTransport := contextTransport
  lookup := true

/-- `lookupToExchange`, up to taking the addresses of the response. -/
def lookupToExchange (q : Query) (question : Question) (upstream : Except TransportError Msg) :
    Prog (ClientState Raw) (Except ClientError Msg) := do
  let cached ← (if c.disableCache || q.options.disableCache then pure none else c.questionCache q question)
  match cached with
  | some result => pure result
  | none => do
    let result ← c.exchange q upstream
    match result with
    | .error err => pure (.error err)
    | .ok response =>
      if response.rcode ≠ rcodeSuccess then pure (.error (.rcode response.rcode)) else pure (.ok response)

/-- What `group.Run` and the end of `Lookup` make of the two exchanges: the
addresses, with the responses they are from. -/
def joinLookups (strategy : DomainStrategy) (result4 result6 : Except ClientError Msg) :
    Except ClientError (List IP × List Msg) :=
  let addresses (result : Except ClientError Msg) : List IP :=
    match result with
    | .ok response => responseAddresses response
    | .error _ => []
  let response4 := addresses result4
  let response6 := addresses result6
  match result4, result6 with
  | .ok m4, .ok m6 => .ok (sortAddresses response4 response6 strategy, [m4, m6])
  | .error err, .error _ => .error err
  | .error err, .ok m6 => if response6.isEmpty then .error err else .ok (sortAddresses response4 response6 strategy, [m6])
  | .ok m4, .error err => if response4.isEmpty then .error err else .ok (sortAddresses response4 response6 strategy, [m4])
where
  /-- `sortAddresses`. -/
  sortAddresses (response4 response6 : List IP) (strategy : DomainStrategy) : List IP :=
    if strategy = .preferIPv6 then response6 ++ response4 else response4 ++ response6

/-- The strategy of `Lookup`. -/
def lookupStrategy (options : QueryOptions) : DomainStrategy :=
  if options.lookupStrategy ≠ .asIS then options.lookupStrategy else options.strategy

/-- The options `Lookup` exchanges with. -/
def lookupOptions (options : QueryOptions) : QueryOptions :=
  if options.lookupStrategy ≠ .asIS then { options with strategy := options.lookupStrategy } else options

/-- `Lookup` of a name that ends with a dot. Both families are asked for at once,
in the order that `schedule` has for their actions. -/
def lookup (transport dnsName : String) (options : QueryOptions) (responseChecker : Option Checker)
    (contextTransport : Option String) (schedule : List Bool) (upstream4 upstream6 : Except TransportError Msg) :
    Prog (ClientState Raw) (Except ClientError (List IP × List Msg)) :=
  let ask (qType : UInt16) (upstream : Except TransportError Msg) :=
    c.lookupToExchange (lookupQuery transport dnsName qType (lookupOptions options) responseChecker contextTransport)
      { name := dnsName, qtype := qType, qclass := classINET } upstream
  let only (result : Except ClientError Msg) := result.map fun response => (responseAddresses response, [response])
  match lookupStrategy options with
  | .ipv4Only => do
    let result ← ask typeA upstream4
    pure (only result)
  | .ipv6Only => do
    let result ← ask typeAAAA upstream6
    pure (only result)
  | strategy => do
    let results ← Prog.par schedule (ask typeA upstream4) (ask typeAAAA upstream6)
    pure (joinLookups strategy results.1 results.2)

end Client

/-! ## Calls -/

/-- A call of `Lookup`, with what the transport will deliver to it. -/
structure LookupCall where
  transport : String
  dnsName : String
  options : QueryOptions := {}
  responseChecker : Option Checker := none
  contextTransport : Option String := none
  schedule : List Bool := []
  upstream4 : Except TransportError Msg
  upstream6 : Except TransportError Msg

def LookupCall.query (l : LookupCall) (qType : UInt16) : Query :=
  Client.lookupQuery l.transport l.dnsName qType (Client.lookupOptions l.options) l.responseChecker l.contextTransport

namespace Client

variable (c : Client Raw)

def returns (responseChecker : Option Checker) (responses : List Msg) (s : ClientState Raw) : ClientState Raw :=
  { s with returned := { responseChecker, responses } :: s.returned }

def callExchange (q : Query) (upstream : Except TransportError Msg) : Prog (ClientState Raw) Unit := do
  let result ← c.exchange q upstream
  match result with
  | .ok response => Prog.modify (returns q.responseChecker [response])
  | .error _ => pure ()

def callLookup (l : LookupCall) : Prog (ClientState Raw) Unit := do
  let result ← c.lookup l.transport l.dnsName l.options l.responseChecker l.contextTransport l.schedule
    l.upstream4 l.upstream6
  match result with
  | .ok (_, responses) => Prog.modify (returns l.responseChecker responses)
  | .error _ => pure ()

end Client

/-! ## Apart from calls -/

/-- What happens without a call: time passes, a response is written to the
database, the cache in memory drops an entry. -/
inductive Idle where
  | wait (seconds : Nat)
  | flush (key : SaveCacheKey)
  | evict (key : DnsCacheKey)

def ClientState.idle (s : ClientState Raw) : Idle → ClientState Raw
  | .wait seconds => { s with now := s.now + seconds }
  | .flush key => { s with file := s.file.flushPendingDNSCache key }
  | .evict key => { s with memory := s.memory.erase key }

/-- The programs of a client: calls, refreshes and what happens without them.
`asks` are the queries that are made and what the transport delivers to them,
and `refreshes` is the same for refreshes. -/
inductive Client.Runs (c : Client Raw) (asks : Query → Except TransportError Msg → Prop)
    (refreshes : Refresh → Except TransportError Msg → Prop) : Prog (ClientState Raw) Unit → Prop
  | exchange {q : Query} {upstream : Except TransportError Msg} : asks q upstream →
      Runs c asks refreshes (c.callExchange q upstream)
  | lookup {l : LookupCall} :
      (lookupStrategy l.options ≠ .ipv6Only → asks (l.query typeA) l.upstream4) →
      (lookupStrategy l.options ≠ .ipv4Only → asks (l.query typeAAAA) l.upstream6) →
      Runs c asks refreshes (c.callLookup l)
  | refresh {i : Nat} {upstream : Refresh → Except TransportError Msg} : (∀ r, refreshes r (upstream r)) →
      Runs c asks refreshes (c.refresh i upstream)
  | idle {i : Idle} : Runs c asks refreshes (Prog.modify fun s => s.idle i)

/-- A client that starts with empty caches. -/
def Client.system (c : Client Raw) (asks : Query → Except TransportError Msg → Prop)
    (refreshes : Refresh → Except TransportError Msg → Prop) : System (Prog.Pool (ClientState Raw)) Unit :=
  Prog.pool (fun s => ∃ now, s = { now := now }) (c.Runs asks refreshes)

end Singlink.Dns
