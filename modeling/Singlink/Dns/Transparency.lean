import Singlink.Dns.CacheAgree
import Singlink.Dns.Client
/-!
# What the cache serves

`Exchange` stores a response after it has changed it for the call that asked, and
before it has dropped an OPT record that the request has no version for. The
response served from the cache is compared with the one that the transport's
answer would have given afresh; the two agree up to TTLs exactly when neither
step makes a difference.
-/

namespace Singlink.Dns

open Lib List Client GoMap RR

/-! ## Up to TTLs -/

variable (ttl : UInt32)

theorem isOPT_setTTL (r : RR) : (r.setTTL ttl).isOPT = r.isOPT := by
  unfold setTTL
  split
  · rfl
  · rfl

variable {r : RR} {q : Query}

theorem setTTL_of_isOPT (h : r.isOPT = true) (ttl : UInt32) : r.setTTL ttl = r := by
  rw [setTTL, if_pos h]

theorem setTTL_setTTL (ttl ttl' : UInt32) (r : RR) : (r.setTTL ttl').setTTL ttl = r.setTTL ttl := by
  by_cases h : r.isOPT = true
  · rw [setTTL_of_isOPT h]
  · simp only [setTTL, h, Bool.false_eq_true, if_false]
    exact if_neg h

theorem normalizeTTL_normalizeTTL (m : Msg) (ttl ttl' : UInt32) :
    normalizeTTL (normalizeTTL m ttl') ttl = normalizeTTL m ttl := by
  simp only [normalizeTTL, map_map]
  congr 1 <;> exact map_congr_left fun r _ => setTTL_setTTL ttl ttl' r

theorem normalizeTTL_id (m : Msg) (id : UInt16) (ttl : UInt32) :
    normalizeTTL { m with id := id } ttl = { normalizeTTL m ttl with id := id } := rfl

/-! ## Hints -/

theorem filter_eq_iff {α : Type} {p q : α → Bool} {l : List α} : l.filter p = l.filter q ↔ ∀ a ∈ l, p a = q a := by
  refine ⟨fun h a ha => ?_, filter_congr⟩
  have hmem : a ∈ l.filter p ↔ a ∈ l.filter q := by rw [h]
  simp only [mem_filter, ha, true_and] at hmem
  exact Bool.eq_iff_iff.2 hmem

def RR.values (r : RR) : List SvcbValue :=
  match r.data with
  | .https _ _ value => value
  | _ => []

theorem keepsHint_of_both {strategy : DomainStrategy} (h : (strategy == .ipv4Only || strategy == .ipv6Only) = false)
    (v : SvcbValue) : keepsHint strategy v = true := by
  obtain ⟨h4, h6⟩ := Bool.or_eq_false_iff.1 h
  cases v with
  | ipv4Hint hint => simpa [keepsHint] using h6
  | ipv6Hint hint => simpa [keepsHint] using h4
  | other key data => rfl

theorem filterHints_of_both {strategy : DomainStrategy} (h : (strategy == .ipv4Only || strategy == .ipv6Only) = false)
    (r : RR) : r.filterHints strategy = r := by
  obtain ⟨name, cls, ttl, data⟩ := r
  cases data with
  | https priority target value =>
    simp only [filterHints]
    rw [filter_eq_self.2 fun v _ => keepsHint_of_both h v]
  | _ => rfl

variable (question : Question)

theorem filterAnswer_eq (strategy : DomainStrategy) (answer : List RR) : filterAnswer question strategy answer =
      if question.qtype = typeHTTPS then answer.map (filterHints strategy) else answer := by
  by_cases hq : question.qtype = typeHTTPS
  · cases hs : strategy == .ipv4Only || strategy == .ipv6Only with
    | true => simp [filterAnswer, hq, hs]
    | false =>
      simp only [filterAnswer, hq, hs, BEq.rfl, Bool.and_false, Bool.false_eq_true, if_false, if_true]
      rw [map_congr_left fun r _ => filterHints_of_both hs r, map_id']
  · simp [filterAnswer, hq]

theorem filterHints_eq_iff (s1 s2 : DomainStrategy) (r : RR) :
    (r.filterHints s1).setTTL 0 = (r.filterHints s2).setTTL 0 ↔ ∀ v ∈ r.values, keepsHint s1 v = keepsHint s2 v := by
  obtain ⟨name, cls, ttl, data⟩ := r
  cases data with
  | https priority target value =>
    rw [← filter_eq_iff]
    simp [filterHints, setTTL, isOPT, values]
  | _ => simp [filterHints, values]

theorem filterAnswer_eq_iff (s1 s2 : DomainStrategy) (answer : List RR) :
    (filterAnswer question s1 answer).map (setTTL 0) = (filterAnswer question s2 answer).map (setTTL 0) ↔
      (question.qtype = typeHTTPS → ∀ r ∈ answer, ∀ v ∈ r.values, keepsHint s1 v = keepsHint s2 v) := by
  simp only [filterAnswer_eq]
  by_cases hq : question.qtype = typeHTTPS
  · simp [hq, filterHints_eq_iff]
  · simp [hq]

/-! ## EDNS -/

/-- The request knows the version of EDNS that the response is of, if any. -/
def KnowsEdns0 (request response : Msg) : Prop :=
  ∀ responseOpt, isEdns0 response = some responseOpt →
    ∃ requestOpt, isEdns0 request = some requestOpt ∧ ¬requestOpt.version < responseOpt.version

theorem find?_map_setTTL (l : List RR) : (l.map (setTTL ttl)).find? isOPT = l.find? isOPT := by
  induction l with
  | nil => rfl
  | cons r l ih =>
    rw [map_cons, find?_cons, find?_cons, isOPT_setTTL, ih]
    cases h : r.isOPT with
    | true => simp only [setTTL_of_isOPT h]
    | false => rfl

theorem isEdns0_normalizeTTL (m : Msg) (ttl : UInt32) : isEdns0 (normalizeTTL m ttl) = isEdns0 m := by
  simp only [isEdns0, normalizeTTL, ← map_reverse, find?_map_setTTL]

theorem filter_map_setTTL (l : List RR) :
    (l.map (setTTL ttl)).filter (fun r => !r.isOPT) = (l.filter fun r => !r.isOPT).map (setTTL ttl) := by
  rw [filter_map]
  congr 2
  funext r
  simp [isOPT_setTTL]

variable (request m : Msg)

theorem normalizeTTL_matchEdns0 :
    normalizeTTL (matchEdns0 request m) ttl = matchEdns0 request (normalizeTTL m ttl) := by
  unfold matchEdns0
  rw [isEdns0_normalizeTTL]
  cases isEdns0 m with
  | none => rfl
  | some responseOpt =>
    cases isEdns0 request with
    | none => simp only [normalizeTTL, filter_map_setTTL]
    | some requestOpt =>
      simp only
      split
      · simp only [setEdns0, normalizeTTL, filter_map_setTTL, map_append, map_cons, map_nil]
        rw [setTTL_of_isOPT rfl]
      · rfl

theorem setEdns0_version (dnssecOK : Bool) (udpSize : UInt16) :
    version { name := ".", cls := udpSize, ttl := if dnssecOK then 0x8000 else 0, data := .opt [] } = 0 := by
  cases dnssecOK with
  | true => exact (by decide : (((if true then 0x8000 else 0 : UInt32) >>> 16) &&& 0xFF) = 0)
  | false => exact (by decide : (((if false then 0x8000 else 0 : UInt32) >>> 16) &&& 0xFF) = 0)

theorem matchEdns0_extra_iff : (matchEdns0 request m).extra = m.extra ↔ KnowsEdns0 request m := by
  unfold matchEdns0 KnowsEdns0
  cases hm : isEdns0 m with
  | none => simp
  | some responseOpt =>
    have hmem : responseOpt ∈ m.extra := by simpa using mem_of_find?_eq_some hm
    have hopt : responseOpt.isOPT = true := find?_some hm
    cases hreq : isEdns0 request with
    | none =>
      simp only [Option.some.injEq, forall_eq', reduceCtorEq, false_and, exists_false, iff_false]
      intro h
      rw [← h, mem_filter, hopt] at hmem
      exact absurd hmem.2 (by decide)
    | some requestOpt =>
      simp only [Option.some.injEq, forall_eq', exists_eq_left']
      by_cases hversion : requestOpt.version < responseOpt.version
      · simp only [hversion, if_true, not_true, iff_false, setEdns0]
        intro h
        -- the last OPT record would be the new one, of version 0
        rw [isEdns0, ← h, reverse_append, reverse_singleton, singleton_append] at hm
        have hzero : responseOpt.version = 0 := by
          rw [← Option.some.inj hm]
          exact setEdns0_version _ _
        rw [hzero] at hversion
        exact absurd hversion (by simp)
      · simp [hversion]

theorem eq_matchEdns0_iff (request m m' : Msg) :
    m' = matchEdns0 request m ↔ { m' with extra := m.extra } = m ∧ m'.extra = (matchEdns0 request m).extra := by
  have hrest : { matchEdns0 request m with extra := m.extra } = m := by
    unfold matchEdns0
    split
    · rfl
    · split
      · rfl
      · split
        · rfl
        · rfl
  constructor
  · rintro rfl
    exact ⟨hrest, rfl⟩
  · rintro ⟨h, hextra⟩
    rw [← hrest] at h
    obtain ⟨hdr, question, answer, ns, extra⟩ := m'
    generalize matchEdns0 request m = n at h hextra
    obtain ⟨hdr', question', answer', ns', extra'⟩ := n
    cases hextra
    cases h
    rfl

theorem knowsEdns0_strip : KnowsEdns0 request (stripDNSPadding m) ↔ KnowsEdns0 request m := by
  have hstrip : ∃ strip : RR → RR, (∀ r, (strip r).isOPT = r.isOPT) ∧ (∀ r, (strip r).version = r.version) ∧
      (stripDNSPadding m).extra = m.extra.map strip := by
    refine ⟨_, fun r => ?_, fun r => ?_, rfl⟩
    · obtain ⟨name, cls, ttl, data⟩ := r
      cases data <;> rfl
    · obtain ⟨name, cls, ttl, data⟩ := r
      cases data <;> rfl
  obtain ⟨strip, hopt, hversion, hextra⟩ := hstrip
  have hfind : isEdns0 (stripDNSPadding m) = (isEdns0 m).map strip := by
    rw [isEdns0, hextra, ← map_reverse, find?_map, isEdns0, show isOPT ∘ strip = isOPT from funext hopt]
  unfold KnowsEdns0
  rw [hfind]
  cases isEdns0 m with
  | none => simp
  | some responseOpt => simp [hversion]

/-! ## Requests that are cached -/

/-- Records with an option, which a simple request has none of. -/
def RR.hasOption (r : RR) : Prop := ∃ o options, r.data = .opt (o :: options)

theorem hasOption_replaceSubnet (subnet : Subnet) (h : r.hasSubnet = true) : (r.replaceSubnet subnet).hasOption := by
  obtain ⟨name, cls, ttl, data⟩ := r
  cases data with
  | opt options =>
    cases options with
    | nil => cases h
    | cons o options =>
      simp only [replaceSubnet, replaceF, hasOption]
      split
      · exact ⟨_, _, rfl⟩
      · exact ⟨_, _, rfl⟩
  | _ => cases h

theorem hasOption_addSubnet (subnet : Subnet) (h : r.isOPT = true) : (r.addSubnet subnet).hasOption := by
  obtain ⟨name, cls, ttl, data⟩ := r
  cases data with
  | opt options =>
    cases options with
    | nil | cons o options => exact ⟨_, _, rfl⟩
  | _ => cases h

theorem mem_replaceF {α : Type} {f : α → Option α} {l : List α} {a b : α} (ha : a ∈ l) (hb : f a = some b) :
    ∃ a' b', f a' = some b' ∧ b' ∈ l.replaceF f := by
  induction l with
  | nil => cases ha
  | cons x l ih =>
    rw [replaceF]
    cases hx : f x with
    | some y => exact ⟨x, y, hx, mem_cons_self⟩
    | none =>
      rcases mem_cons.1 ha with rfl | ha
      · rw [hb] at hx
        cases hx
      · obtain ⟨a', b', hf, hmem⟩ := ih ha
        exact ⟨a', b', hf, mem_cons_of_mem _ hmem⟩

theorem hasOption_setClientSubnet (message : Msg) (subnet : Subnet) :
    ∃ r ∈ (setClientSubnet message subnet).extra, r.hasOption := by
  unfold setClientSubnet
  split
  · rename_i hany
    obtain ⟨r, hr, hsubnet⟩ := any_eq_true.1 hany
    obtain ⟨r', b, hb, hmem⟩ := mem_replaceF
      (f := fun r : RR => if r.hasSubnet then some (r.replaceSubnet subnet) else none) hr (by rw [if_pos hsubnet])
    refine ⟨b, hmem, ?_⟩
    split at hb
    · rename_i hr'
      cases hb
      exact hasOption_replaceSubnet subnet hr'
    · cases hb
  · split
    · split
      · rename_i last hlast hopt
        exact ⟨_, mem_append_right _ (mem_singleton_self _), hasOption_addSubnet subnet hopt⟩
      · exact ⟨_, mem_append_right _ (mem_singleton_self _), _, _, rfl⟩
    · exact ⟨_, mem_singleton_self _, _, _, rfl⟩

theorem not_hasOption_of_simple {message : Msg} {options : QueryOptions} (h : isSimpleRequest message options = true) :
    ∀ r ∈ message.extra, ¬r.hasOption := by
  simp only [isSimpleRequest, Bool.and_eq_true] at h
  obtain ⟨-, h⟩ := h
  rintro r hr ⟨o, opts, hdata⟩
  split at h
  · rename_i hextra
    rw [hextra] at hr
    cases hr
  · rename_i r' hextra
    rw [hextra, mem_singleton] at hr
    subst hr
    rw [hdata] at h
    simp at h
  · cases h

theorem prepareExchangeMessage_of_simple {Raw : Type} {c : Client Raw} {message : Msg} {options : QueryOptions}
    (h : isSimpleRequest (c.prepareExchangeMessage message options) options = true) :
    c.prepareExchangeMessage message options = message := by
  unfold prepareExchangeMessage at h ⊢
  cases hsubnet : options.clientSubnet <|> c.clientSubnet with
  | none => rfl
  | some subnet =>
    rw [hsubnet] at h
    obtain ⟨r, hr, hoption⟩ := hasOption_setClientSubnet message subnet
    exact absurd hoption (not_hasOption_of_simple h r hr)

/-! ## Exchanges -/

variable {Raw : Type} {c : Client Raw} {s : ClientState Raw} {transport : String} {question : Question}

/-- A request for the question that uses the cache, from a caller without a
checker. -/
structure Query.Cacheable (c : Client Raw) (transport : String) (question : Question) (q : Query) : Prop where
  tag : q.transport = transport
  asks : q.message.question = [question]
  strategy : Client.strategyRejects question q.options.strategy = false
  simple : isSimpleRequest (c.prepareExchangeMessage q.message q.options) q.options = true
  client : c.disableCache = false
  options : q.options.disableCache = false
  checker : q.responseChecker = none
  context : q.contextTransport ≠ some transport

/-- All that the cache has for the question is one response, and no call for it
is under way. -/
structure ClientState.Keeps (c : Client Raw) (s : ClientState Raw) (transport : String) (question : Question)
    (stored : Msg) : Prop where
  lock : s.cacheLock.lookup { question, transportTag := transport } = none
  memory : ∀ m expireAt, s.memory.lookup { question, transportTag := transport } = some (m, expireAt) → m = stored
  file : ∀ raw expireAt, s.file.loadDNSCache (saveCacheKey transport question) = some (raw, expireAt) →
    c.wire.unpack raw = some stored
  flush : ∀ key, FlushOk s.file key

/-- The cache has nothing for the question, and no call for it is under way. -/
structure ClientState.Unasked (s : ClientState Raw) (transport : String) (question : Question) : Prop where
  lock : s.cacheLock.lookup { question, transportTag := transport } = none
  memory : s.memory.lookup { question, transportTag := transport } = none
  file : s.file.loadDNSCache (saveCacheKey transport question) = none
  flush : ∀ key, FlushOk s.file key

/-- The response to a request, given what the transport delivers. -/
def exchanged (question : Question) (q : Query) (u : Msg) : Msg :=
  matchEdns0 q.message
    { (applyResponseOptions question (stripDNSPadding u) q.options).1 with id := q.message.id }

/-- The cache serves the question, to a call with these options. -/
def Served (c : Client Raw) (s : ClientState Raw) (transport : String) (question : Question) (options : QueryOptions)
    (loaded : Loaded) : Prop :=
  (c.loadResponse question transport s).1 = some loaded ∧
    (loaded.isStale = true → options.disableOptimisticCache = false)

theorem exchange_eq (h : q.Cacheable c transport question) (upstream : Except TransportError Msg) :
    c.exchange q upstream = c.exchangeLocked q question upstream := by
  have hsend := prepareExchangeMessage_of_simple h.simple
  have hsimple := h.simple
  rw [hsend] at hsimple
  rw [exchange, h.asks]
  simp [h.strategy, hsend, hsimple, h.client, h.options]

open Prog

theorem run_exchangeUpstream (h : q.Cacheable c transport question) (u : Msg) (s : ClientState Raw) :
    (c.exchangeUpstream q question false (.ok u)).run s =
      (.ok (exchanged question q u),
        let applied := applyResponseOptions question (stripDNSPadding u) q.options
        if cacheableRcode u.rcode then c.storeCache transport question applied.1 applied.2 s else s) := by
  have hcontext : (q.contextTransport == some transport) = false := beq_eq_false_iff_ne.2 h.context
  unfold exchangeUpstream
  simp only [h.tag, hcontext, Bool.false_eq_true, if_false, h.checker, Option.isSome_none, Bool.and_false,
    Bool.false_and, exchangeToTransport, rejects, run_bind, run_pure, run_when,
    run_modify, Bool.false_or, Bool.not_not]
  cases hcode : cacheableRcode u.rcode with
  | true =>
    have hcode' : cacheableRcode (stripDNSPadding u).rcode = true := hcode
    simp [hcode', exchanged]
  | false =>
    have hcode' : cacheableRcode (stripDNSPadding u).rcode = false := hcode
    simp [hcode', exchanged]

theorem loadResponse_unasked (hmemory : s.memory.lookup { question, transportTag := transport } = none)
    (hfile : s.file.loadDNSCache (saveCacheKey transport question) = none) :
    c.loadResponse question transport s = (none, s) := by
  unfold loadResponse
  cases c.persistent with
  | true => simp [file_load, hfile]
  | false => simp [MemoryCache.load, hmemory]

section

variable (h : q.Cacheable c transport question)

include h

theorem run_exchangeLocked
    (hlock : s.cacheLock.lookup { question, transportTag := transport } = none) (upstream : Except TransportError Msg) :
    (c.exchangeLocked q question upstream).run s =
      let r := (c.exchangeCached q question upstream).run
        { s with
          cacheLock := s.cacheLock.insert { question, transportTag := transport } s.channels
          channels := s.channels + 1 }
      (r.1, { r.2 with
        cacheLock := r.2.cacheLock.erase { question, transportTag := transport }
        closed := s.channels :: r.2.closed }) := by
  simp [exchangeLocked, loadOrStoreLock, h.tag, hlock]

theorem run_exchange_unasked (hs : s.Unasked transport question)
    (u : Msg) :
    ∃ s', (c.exchange q (.ok u)).run s = (.ok (exchanged question q u), s') ∧
      s'.cacheLock.lookup { question, transportTag := transport } = none ∧
      let applied := applyResponseOptions question (stripDNSPadding u) q.options
      (s'.memory = s.memory ∧ s'.file = s.file ∨
        s'.memory = (c.storeCache transport question applied.1 applied.2 s).memory ∧
        s'.file = (c.storeCache transport question applied.1 applied.2 s).file) := by
  have hmiss : ∀ s' : ClientState Raw, s'.memory = s.memory → s'.file = s.file →
      (c.exchangeCached q question (.ok u)).run s' = (c.exchangeUpstream q question false (.ok u)).run s' := by
    intro s' hmemory hfile
    simp [exchangeCached, h.tag, loadResponse_unasked (hmemory ▸ hs.memory) (hfile ▸ hs.file)]
  rw [exchange_eq h, run_exchangeLocked h hs.lock]
  simp only [hmiss, run_exchangeUpstream h]
  refine ⟨_, rfl, ?_, ?_⟩
  · simp
  · cases cacheableRcode u.rcode with
    | false => exact .inl ⟨rfl, rfl⟩
    | true =>
      refine .inr ?_
      simp only [if_true, storeCache]
      cases c.persistent with
      | true | false => exact ⟨rfl, rfl⟩

theorem run_exchangeCached_served {loaded : Loaded}
    (hserved : Served c s transport question q.options loaded) (upstream : Except TransportError Msg) :
    ((c.exchangeCached q question upstream).run s).1 = .ok { loaded.response with id := q.message.id } := by
  obtain ⟨hload, hstale⟩ := hserved
  simp only [exchangeCached, run_bind, run_atomic, h.tag]
  rw [hload]
  cases hs : loaded.isStale with
  | true => simp [hs, hstale hs]
  | false => simp [hs]

theorem run_exchange_served
    (hlock : s.cacheLock.lookup { question, transportTag := transport } = none) {loaded : Loaded}
    (hserved : Served c s transport question q.options loaded) (upstream : Except TransportError Msg) :
    ((c.exchange q upstream).run s).1 = .ok { loaded.response with id := q.message.id } := by
  rw [exchange_eq h, run_exchangeLocked h hlock]
  refine run_exchangeCached_served h ⟨?_, hserved.2⟩ upstream
  -- the lock is no part of the cache
  rw [← hserved.1]
  unfold loadResponse
  split
  · rfl
  · rfl

end

/-! ## What the cache keeps -/

variable {stored : Msg}

theorem ClientState.Keeps.idle (h : s.Keeps c transport question stored) (i : Idle) :
    (s.idle i).Keeps c transport question stored := by
  cases i with
  | wait seconds => exact ⟨h.lock, h.memory, h.file, h.flush⟩
  | flush key =>
    obtain ⟨hflush, hload⟩ := flush_spec h.flush key
    refine ⟨h.lock, h.memory, ?_, hflush⟩
    simp only [ClientState.idle, hload]
    exact h.file
  | evict key =>
    refine ⟨h.lock, fun m expireAt hlookup => ?_, h.file, h.flush⟩
    exact h.memory m expireAt (lookup_of_erase hlookup)

theorem ClientState.Keeps.idles (h : s.Keeps c transport question stored) (idle : List Idle) :
    (idle.foldl ClientState.idle s).Keeps c transport question stored := by
  induction idle generalizing s with
  | nil => exact h
  | cons i idle ih => exact ih (h.idle i)

theorem keeps_storeCache (hwire : c.wire.Lossless) (htag : transport ≠ "") (hs : s.Unasked transport question)
    (stored : Msg) (timeToLive : UInt32) :
    (c.storeCache transport question stored timeToLive s).Keeps c transport question stored := by
  have hnone : s.Keeps c transport question stored := by
    refine ⟨hs.lock, ?_, ?_, hs.flush⟩
    · rw [hs.memory]
      simp
    · rw [hs.file]
      simp
  unfold storeCache
  cases c.persistent with
  | true =>
    simp only [if_true, CacheFile.store]
    obtain ⟨raw, hpack, hunpack⟩ := hwire stored
    split
    · exact hnone
    · simp only [hpack]
      refine ⟨hs.lock, hnone.memory, fun raw' expireAt' hload => ?_, flushOk_save hs.flush htag raw _⟩
      rw [loadDNSCache_save, if_pos rfl] at hload
      cases hload
      exact hunpack
  | false =>
    simp only [Bool.false_eq_true, if_false, MemoryCache.store]
    split
    · exact hnone
    · refine ⟨hs.lock, fun m expireAt' hlookup => ?_, hnone.file, hs.flush⟩
      split at hlookup
      · rw [lookup_insert_eq, if_pos rfl] at hlookup
        cases hlookup
        rfl
      · rw [lookup_insert_eq, if_pos rfl] at hlookup
        cases hlookup
        rfl

theorem keeps_exchange (hwire : c.wire.Lossless) (htag : transport ≠ "")
    (h : q.Cacheable c transport question) (hs : s.Unasked transport question) (u : Msg) :
    ((c.exchange q (.ok u)).run s).2.Keeps c transport question
      (applyResponseOptions question (stripDNSPadding u) q.options).1 := by
  obtain ⟨s', hrun, hlock, hstored⟩ := run_exchange_unasked h hs u
  rw [hrun]
  generalize applyResponseOptions question (stripDNSPadding u) q.options = applied at hstored ⊢
  obtain ⟨stored, timeToLive⟩ := applied
  rcases hstored with ⟨hmemory, hfile⟩ | ⟨hmemory, hfile⟩
  · refine ⟨hlock, ?_, ?_, ?_⟩
    · simp only [hmemory, hs.memory]
      simp
    · simp only [hfile, hs.file]
      simp
    · simp only [hfile]
      exact hs.flush
  · have hstore := keeps_storeCache hwire htag hs stored timeToLive
    refine ⟨hlock, ?_, ?_, ?_⟩
    · rw [hmemory]
      exact hstore.memory
    · rw [hfile]
      exact hstore.file
    · rw [hfile]
      exact hstore.flush

theorem Keeps.loaded (h : s.Keeps c transport question stored) {loaded : Loaded}
    (hload : (c.loadResponse question transport s).1 = some loaded) :
    normalizeTTL loaded.response 0 = normalizeTTL stored 0 := by
  have hview : ∃ now expireAt, viewEntry c.cacheConfig now stored expireAt = some loaded := by
    unfold loadResponse at hload
    split at hload
    · simp only [file_load] at hload
      obtain ⟨⟨raw, expireAt⟩, hentry, hload⟩ := Option.bind_eq_some_iff.1 hload
      simp only [h.file raw expireAt hentry, Option.bind_some] at hload
      exact ⟨_, _, hload⟩
    · simp only [memory_load_fst] at hload
      obtain ⟨⟨m, expireAt⟩, hentry, hload⟩ := Option.bind_eq_some_iff.1 hload
      cases h.memory m expireAt hentry
      exact ⟨_, _, hload⟩
  obtain ⟨now, expireAt, hview⟩ := hview
  rcases viewEntry_response hview with hsame | ⟨ttl, hsame⟩
  · rw [hsame]
  · rw [hsame, normalizeTTL_normalizeTTL]

/-! ## Results -/

/-- The strategies of two requests keep the same hints of the transport's answer,
and the second request knows the version of EDNS that the answer is of. -/
structure SameAnswer (question : Question) (first second : Query) (u : Msg) : Prop where
  hints : question.qtype = typeHTTPS → ∀ r ∈ u.answer, ∀ v ∈ r.values,
    keepsHint first.options.strategy v = keepsHint second.options.strategy v
  edns : KnowsEdns0 second.message u

/-- What the transport delivered, for a request with this id and strategy, with
all TTLs 0. -/
def received (id : UInt16) (question : Question) (strategy : DomainStrategy) (u : Msg) : Msg :=
  normalizeTTL { stripDNSPadding u with id := id, answer := filterAnswer question strategy u.answer } 0

theorem normalizeTTL_applied (id : UInt16) (question : Question) (u : Msg) (options : QueryOptions) :
    normalizeTTL { (applyResponseOptions question (stripDNSPadding u) options).1 with id := id } 0 =
      received id question options.strategy u :=
  normalizeTTL_normalizeTTL
    { stripDNSPadding u with id := id, answer := filterAnswer question options.strategy u.answer } 0 _

theorem knowsEdns0_received (request : Msg) (id : UInt16) (question : Question) (strategy : DomainStrategy) (u : Msg) :
    KnowsEdns0 request (received id question strategy u) ↔ KnowsEdns0 request u := by
  rw [← knowsEdns0_strip request u, KnowsEdns0, received, isEdns0_normalizeTTL]
  rfl

theorem received_eq_iff (first second : Query) (u : Msg) :
    received second.message.id question first.options.strategy u =
      matchEdns0 second.message (received second.message.id question second.options.strategy u) ↔
        SameAnswer question first second u := by
  rw [eq_matchEdns0_iff]
  constructor
  · rintro ⟨hrest, hextra⟩
    refine ⟨?_, ?_⟩
    · rw [← filterAnswer_eq_iff]
      exact congrArg Msg.answer hrest
    · rw [← knowsEdns0_received, ← matchEdns0_extra_iff]
      exact hextra.symm
  · rintro ⟨hhints, hedns⟩
    rw [← filterAnswer_eq_iff] at hhints
    refine ⟨?_, ?_⟩
    · simp only [received, normalizeTTL, hhints]
    · rw [← knowsEdns0_received _ second.message.id question second.options.strategy, ← matchEdns0_extra_iff] at hedns
      exact hedns.symm

/-- A response served from the cache is the one that the transport's answer would
have given afresh, up to TTLs, exactly when the strategy of the call that stored
it kept the same hints and the request knows the answer's version of EDNS. -/
theorem served_eq_fresh_iff (hwire : c.wire.Lossless) (htag : transport ≠ "") {first second : Query}
    (hfirst : first.Cacheable c transport question) (hsecond : second.Cacheable c transport question)
    (hs : s.Unasked transport question) (u : Msg) (idle : List Idle) {loaded : Loaded}
    (hserved : Served c (idle.foldl ClientState.idle ((c.exchange first (.ok u)).run s).2) transport question
      second.options loaded) (upstream : Except TransportError Msg) :
    ∃ cached fresh,
      ((c.exchange second upstream).run (idle.foldl ClientState.idle ((c.exchange first (.ok u)).run s).2)).1 =
        .ok cached ∧
      ((c.exchange second (.ok u)).run s).1 = .ok fresh ∧
      (normalizeTTL cached 0 = normalizeTTL fresh 0 ↔ SameAnswer question first second u) := by
  have hkeeps : (idle.foldl ClientState.idle ((c.exchange first (.ok u)).run s).2).Keeps c transport question
      (applyResponseOptions question (stripDNSPadding u) first.options).1 :=
    (keeps_exchange hwire htag hfirst hs u).idles idle
  obtain ⟨s', hrun, -⟩ := run_exchange_unasked hsecond hs u
  refine ⟨_, _, run_exchange_served hsecond hkeeps.lock hserved upstream, by rw [hrun], ?_⟩
  have hcached : normalizeTTL { loaded.response with id := second.message.id } 0 =
      received second.message.id question first.options.strategy u := by
    rw [normalizeTTL_id, Keeps.loaded hkeeps hserved.1, ← normalizeTTL_applied]
    rfl
  rw [hcached, exchanged, normalizeTTL_matchEdns0, normalizeTTL_applied, received_eq_iff]

section samples

/-- A client with its cache in memory. -/
private def plainClient : Client Msg := { wire := { pack := some, unpack := some } }

private def askedHTTPS : Question := { name := "a.example.", qtype := typeHTTPS, qclass := classINET }

/-- An answer with hints of both families, from a server that speaks EDNS. -/
private def answerHTTPS : Msg :=
  { response := true, question := [askedHTTPS],
    answer := [{ name := "a.example.", cls := classINET, ttl := 60, data := .https 1 "." [.ipv4Hint [[192, 0, 2, 1]],
      .ipv6Hint [[32, 1, 13, 184, 0, 0, 0, 0, 0, 0, 0, 0, 0, 0, 0, 1]]] }],
    extra := [{ name := ".", cls := 1232, ttl := 0, data := .opt [] }] }

private def optRequest : RR := { name := ".", cls := 1232, ttl := 0, data := .opt [] }

/-- A request for the HTTPS record, with an OPT record or without. -/
private def requestHTTPS (id : UInt16) (edns0 : Bool) (strategy : DomainStrategy) : Query where
  transport := "local"
  message := { id, question := [askedHTTPS], extra := if edns0 then [optRequest] else [] }
  options := { strategy }

private theorem requestHTTPS_cacheable (id : UInt16) (edns0 : Bool) (strategy : DomainStrategy) :
    (requestHTTPS id edns0 strategy).Cacheable plainClient "local" askedHTTPS := by
  refine ⟨rfl, rfl, ?_, ?_, rfl, rfl, rfl, nofun⟩
  · cases strategy <;> rfl
  · cases edns0 <;> rfl

private theorem unasked_start : ({ now := 0 } : ClientState Msg).Unasked "local" askedHTTPS :=
  ⟨rfl, rfl, rfl, flushOk_empty⟩

theorem served_eq_fresh_sample :
    let first := requestHTTPS 1 true .asIS
    let second := requestHTTPS 2 true .preferIPv4
    let s : ClientState Msg := { now := 0 }
    ∃ cached fresh,
      ((plainClient.exchange second (.error .other)).run
        ([Idle.wait 10].foldl ClientState.idle ((plainClient.exchange first (.ok answerHTTPS)).run s).2)).1 =
        .ok cached ∧
      ((plainClient.exchange second (.ok answerHTTPS)).run s).1 = .ok fresh ∧
      (normalizeTTL cached 0 = normalizeTTL fresh 0 ↔ SameAnswer askedHTTPS first second answerHTTPS) :=
  served_eq_fresh_iff (fun m => ⟨m, rfl, rfl⟩) (by decide) (requestHTTPS_cacheable 1 true .asIS)
    (requestHTTPS_cacheable 2 true .preferIPv4) unasked_start answerHTTPS [.wait 10] ⟨rfl, nofun⟩ (.error .other)

/-- After a call that wants IPv4 only, a call without a strategy is served an
answer without the IPv6 hints, and a call without EDNS one with an OPT record. -/
theorem served_ne_fresh :
    let first := requestHTTPS 1 true .ipv4Only
    let second := requestHTTPS 2 false .asIS
    let s : ClientState Msg := { now := 0 }
    ∃ cached fresh,
      ((plainClient.exchange second (.ok answerHTTPS)).run ((plainClient.exchange first (.ok answerHTTPS)).run s).2).1 =
        .ok cached ∧
      ((plainClient.exchange second (.ok answerHTTPS)).run s).1 = .ok fresh ∧
      (normalizeTTL cached 0).answer ≠ (normalizeTTL fresh 0).answer ∧
      (normalizeTTL cached 0).extra ≠ (normalizeTTL fresh 0).extra := by
  refine ⟨_, _, rfl, rfl, ?_, ?_⟩
  · decide
  · decide

end samples

end Singlink.Dns
