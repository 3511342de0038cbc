import Singlink.Lib.Rely
import Singlink.Dns.Transparency
/-!
# Response checkers

A checker is asked about what the transport delivers, not about what the cache
has. A caller with a checker is sure of the responses it is returned only if all
calls that share a cache slot with it have checkers that accept the same. This is
stated for every run of calls and refreshes, in any interleaving.
-/

namespace Singlink.Dns

open Lib Client GoMap Option

variable {Raw : Type}

/-! ## Answers -/

/-- What the strategy of the call leaves of an answer. -/
def Answer.keep (question : Question) (strategy : DomainStrategy) (a : Answer) : Answer :=
  { a with records := filterAnswer question strategy a.records }

/-- A caller without a checker accepts every answer. -/
def Accepts (responseChecker : Option Checker) (a : Answer) : Prop :=
  match responseChecker with
  | none => True
  | some check => check a = true

@[simp] theorem toAnswer_normalizeTTL (m : Msg) (ttl : UInt32) : (normalizeTTL m ttl).toAnswer = m.toAnswer := by
  simp only [Msg.toAnswer, normalizeTTL, List.map_map, Answer.mk.injEq, true_and]
  exact List.map_congr_left fun r _ => setTTL_setTTL 0 ttl r

@[simp] theorem toAnswer_id (m : Msg) (id : UInt16) : Msg.toAnswer { m with id := id } = m.toAnswer := rfl

@[simp] theorem toAnswer_matchEdns0 (request m : Msg) : (matchEdns0 request m).toAnswer = m.toAnswer := by
  have hrest := ((eq_matchEdns0_iff request m _).1 rfl).1
  rw [← congrArg Msg.toAnswer hrest]
  rfl

@[simp] theorem toAnswer_applied (question : Question) (m : Msg) (options : QueryOptions) :
    (applyResponseOptions question m options).1.toAnswer = m.toAnswer.keep question options.strategy := by
  simp only [applyResponseOptions, toAnswer_normalizeTTL]
  simp only [Msg.toAnswer, Answer.keep, filterAnswer_eq]
  split
  · simp only [List.map_map, Answer.mk.injEq, true_and]
    refine List.map_congr_left fun ⟨name, cls, ttl, data⟩ _ => ?_
    cases data <;> rfl
  · rfl

variable {m : Msg} {q : Query}

theorem accepts_of_not_rejects {responseChecker : Option Checker}
    (h : rejects responseChecker m = false) : Accepts responseChecker m.toAnswer := by
  cases responseChecker with
  | none => trivial
  | some check =>
    simp only [rejects, Bool.or_eq_false_iff, Bool.not_eq_false'] at h
    exact h.2

theorem cacheable_of_not_rejects {check : Checker} (h : rejects (some check) m = false) :
    cacheableRcode m.rcode = true := by
  simp only [rejects, Bool.or_eq_false_iff, Bool.not_eq_false'] at h
  exact h.1

/-! ## Calls that share a cache slot -/

/-- What responses are kept under: the cache file leaves out the class. -/
def Client.slot (c : Client Raw) (transport : String) (question : Question) : SaveCacheKey × Option UInt16 :=
  (saveCacheKey transport question, if c.persistent then none else some question.qclass)

/-- A query that the cache may serve, or that may store. -/
def Query.usesCache (c : Client Raw) (q : Query) : Bool :=
  !c.disableCache && !q.options.disableCache &&
    (q.lookup || isSimpleRequest (c.prepareExchangeMessage q.message q.options) q.options)

/-- The first query's response may be returned to the second. -/
def Shares (c : Client Raw) (q : Query) (question : Question) (q' : Query) (question' : Question) : Prop :=
  q' = q ∨ q.usesCache c = true ∧ q'.usesCache c = true ∧ c.slot q.transport question = c.slot q'.transport question'

/-- Of the queries asked, those that share a slot have checkers that accept what
the other one accepted, and checkers accept the empty answers that are given
without asking. `delivers` is what the transports deliver. -/
structure Agree (c : Client Raw) (asked : Query → Prop) (delivers : String → Question → Answer → Prop) : Prop where
  shared : ∀ q q' question question', asked q → asked q' → q.message.question.head? = some question →
    q'.message.question.head? = some question' → Shares c q question q' question' →
    ∀ a, delivers q.transport question a → Client.cacheableRcode a.rcode = true → Accepts q.responseChecker a →
      Accepts q'.responseChecker (a.keep question q.options.strategy)
  empty : ∀ q, asked q → q.message.question = [] →
    Accepts q.responseChecker { rcode := rcodeFormatError, records := [] }
  rejected : ∀ q question, asked q → q.message.question.head? = some question →
    Client.strategyRejects question q.options.strategy = true →
    Accepts q.responseChecker { rcode := rcodeSuccess, records := [] }

def Delivers (delivers : String → Question → Answer → Prop) (transport : String) (question : Question)
    (upstream : Except TransportError Msg) : Prop :=
  ∀ message response, Client.exchangeToTransport message upstream = .ok response →
    delivers transport question response.toAnswer

/-- The queries and deliveries of a run. -/
def Asks (asked : Query → Prop) (delivers : String → Question → Answer → Prop) (q : Query)
    (upstream : Except TransportError Msg) : Prop :=
  asked q ∧ ∀ question, q.message.question.head? = some question → Delivers delivers q.transport question upstream

def Refreshes (delivers : String → Question → Answer → Prop) (r : Refresh) (upstream : Except TransportError Msg) :
    Prop :=
  Delivers delivers r.transport r.question upstream

section invariant

variable {c : Client Raw} {asked : Query → Prop} {delivers : String → Question → Answer → Prop}

/-- An answer that a query of the slot has accepted. -/
def Vetted (c : Client Raw) (asked : Query → Prop) (delivers : String → Question → Answer → Prop)
    (slot : SaveCacheKey × Option UInt16) (a : Answer) : Prop :=
  ∃ q question a', asked q ∧ q.message.question.head? = some question ∧ q.usesCache c = true ∧
    c.slot q.transport question = slot ∧ delivers q.transport question a' ∧ Client.cacheableRcode a'.rcode = true ∧
    Accepts q.responseChecker a' ∧ a = a'.keep question q.options.strategy

/-- These are the transport, options and checker of a query that has been asked,
and `caches` only if that uses the cache. -/
structure Asked (c : Client Raw) (asked : Query → Prop) (transport : String) (question : Question)
    (options : QueryOptions) (responseChecker : Option Checker) (caches : Bool) : Prop where
  query : ∃ q, asked q ∧ q.message.question.head? = some question ∧ q.transport = transport ∧ q.options = options ∧
    q.responseChecker = responseChecker ∧ (caches = true → q.usesCache c = true)

variable {transport : String} {question : Question} {options : QueryOptions} {responseChecker : Option Checker}
  {caches : Bool} {a : Answer}

theorem Asked.fresh (hagree : Agree c asked delivers) (h : Asked c asked transport question options responseChecker caches)
    (hdelivers : delivers transport question a) (hcode : cacheableRcode a.rcode = true)
    (haccepts : Accepts responseChecker a) : Accepts responseChecker (a.keep question options.strategy) := by
  obtain ⟨q, hq, hhead, rfl, rfl, rfl, -⟩ := h.query
  exact hagree.shared q q question question hq hq hhead hhead (.inl rfl) a hdelivers hcode haccepts

theorem Asked.vetted (h : Asked c asked transport question options responseChecker true)
    (hdelivers : delivers transport question a) (hcode : cacheableRcode a.rcode = true)
    (haccepts : Accepts responseChecker a) :
    Vetted c asked delivers (c.slot transport question) (a.keep question options.strategy) := by
  obtain ⟨q, hq, hhead, rfl, rfl, rfl, huses⟩ := h.query
  exact ⟨q, question, a, hq, hhead, huses rfl, rfl, hdelivers, hcode, haccepts, rfl⟩

theorem Asked.accepts (hagree : Agree c asked delivers) (h : Asked c asked transport question options responseChecker true)
    (hvetted : Vetted c asked delivers (c.slot transport question) a) : Accepts responseChecker a := by
  obtain ⟨q, hq, hhead, rfl, rfl, rfl, huses⟩ := h.query
  obtain ⟨q', question', a', hq', hhead', huses', hslot, hdelivers, hcode, haccepts, rfl⟩ := hvetted
  exact hagree.shared q' q question' question hq' hq hhead' hhead (.inr ⟨huses', huses rfl, hslot⟩) a' hdelivers hcode
    haccepts

/-- The cache file has these bytes somewhere for the key. -/
def CacheFile.Has (file : CacheFile Raw) (key : SaveCacheKey) (raw : Raw) : Prop :=
  (∃ entry, file.saveDNSCache.lookup key = some entry ∧ entry.rawMessage = raw) ∨
    (∃ expireAt, file.db.lookup key = some (expireAt, raw)) ∨
    ∃ flush entry, file.flushes.lookup key = some flush ∧ flush.entry? = some entry ∧ entry.rawMessage = raw

/-- Everything cached has been vetted, everything returned has been accepted. -/
structure Checked (c : Client Raw) (asked : Query → Prop) (delivers : String → Question → Answer → Prop)
    (s : ClientState Raw) : Prop where
  memory : c.persistent = false → ∀ (key : DnsCacheKey) (m : Msg) (expireAt : Seconds),
    s.memory.lookup key = some (m, expireAt) → Vetted c asked delivers (c.slot key.transportTag key.question) m.toAnswer
  file : c.persistent = true → ∀ (key : SaveCacheKey) (raw : Raw), s.file.Has key raw →
    ∀ m, c.wire.unpack raw = some m → Vetted c asked delivers (key, none) m.toAnswer
  started : ∀ r ∈ s.started, Asked c asked r.transport r.question r.options r.responseChecker true
  returned : ∀ e ∈ s.returned, ∀ m ∈ e.responses, Accepts e.responseChecker m.toAnswer

/-! ## What the actions keep -/

variable {s s' : ClientState Raw}

theorem Checked.congr (h : Checked c asked delivers s) (hmemory : s'.memory = s.memory) (hfile : s'.file = s.file)
    (hstarted : s'.started = s.started) (hreturned : s'.returned = s.returned) : Checked c asked delivers s' :=
  ⟨hmemory ▸ h.memory, hfile ▸ h.file, hstarted ▸ h.started, hreturned ▸ h.returned⟩

variable {file : CacheFile Raw} {key : SaveCacheKey} {raw : Raw} {upstream : Except TransportError Msg}

theorem CacheFile.Has.of_parts {file' : CacheFile Raw} (h : file'.Has key raw)
    (hpending : ∀ entry, file'.saveDNSCache.lookup key = some entry → file.saveDNSCache.lookup key = some entry)
    (hdb : ∀ expireAt, file'.db.lookup key = some (expireAt, raw) → file.Has key raw)
    (hflushes : ∀ flush entry, file'.flushes.lookup key = some flush → flush.entry? = some entry →
      entry.rawMessage = raw → file.Has key raw) : file.Has key raw := by
  rcases h with ⟨entry, hentry, hraw⟩ | ⟨expireAt, hentry⟩ | ⟨flush, entry, hflush, hentry, hraw⟩
  · exact .inl ⟨entry, hpending entry hentry, hraw⟩
  · exact hdb expireAt hentry
  · exact hflushes flush entry hflush hentry hraw

open CacheFile

theorem CacheFile.has_of_flush {key' : SaveCacheKey}
    (h : (file.flushPendingDNSCache key).Has key' raw) : file.Has key' raw := by
  have hdb : ∀ expireAt, file.db.lookup key' = some (expireAt, raw) → file.Has key' raw :=
    fun expireAt hentry => .inr (.inl ⟨expireAt, hentry⟩)
  have hended : ∀ flush entry, (file.flushes.erase key).lookup key' = some flush → flush.entry? = some entry →
      entry.rawMessage = raw → file.Has key' raw := fun flush entry hflush hentry hraw =>
    .inr (.inr ⟨flush, entry, lookup_of_erase hflush, hentry, hraw⟩)
  -- every insertion is of something that the file has already
  have hnext : ∀ next : Flush Raw,
      (key' = key → ∀ entry, next.entry? = some entry → entry.rawMessage = raw → file.Has key' raw) →
      ∀ flush entry, (file.flushes.insert key next).lookup key' = some flush → flush.entry? = some entry →
        entry.rawMessage = raw → file.Has key' raw := by
    intro next hhas flush entry hflush hentry hraw
    rcases lookup_of_insert hflush with ⟨hkey, rfl⟩ | hflush
    · exact hhas hkey entry hentry hraw
    · exact .inr (.inr ⟨flush, entry, hflush, hentry, hraw⟩)
  unfold flushPendingDNSCache at h
  split at h
  · exact h
  · split at h
    · exact h.of_parts (fun _ hentry => hentry) hdb hended
    · rename_i entry hentry
      refine h.of_parts (fun _ hentry => hentry) hdb (hnext _ ?_)
      rintro rfl _ ⟨⟩ hraw
      exact .inl ⟨entry, hentry, hraw⟩
  · rename_i entry hentry
    have hread : key' = key → entry.rawMessage = raw → file.Has key' raw := by
      rintro rfl hraw
      exact .inr (.inr ⟨_, entry, hentry, rfl, hraw⟩)
    obtain ⟨hpending, hflushes⟩ : (file.saveDNSCacheEntry key entry).saveDNSCache = file.saveDNSCache ∧
        (file.saveDNSCacheEntry key entry).flushes = file.flushes := by
      unfold saveDNSCacheEntry
      split
      · exact ⟨rfl, rfl⟩
      · exact ⟨rfl, rfl⟩
    refine h.of_parts (fun _ hentry => hpending ▸ hentry) (fun expireAt hdb' => ?_) ?_
    · change (file.saveDNSCacheEntry key entry).db.lookup key' = _ at hdb'
      unfold saveDNSCacheEntry at hdb'
      split at hdb'
      · exact hdb expireAt hdb'
      · rcases lookup_of_insert hdb' with ⟨hkey, heq⟩ | hdb'
        · cases heq
          exact hread hkey rfl
        · exact hdb expireAt hdb'
    · simp only [hflushes]
      refine hnext _ ?_
      rintro hkey _ ⟨⟩ hraw
      exact hread hkey hraw
  · split at h
    · exact h.of_parts (fun _ hentry => hentry) hdb hended
    · split at h
      · exact h.of_parts (fun _ hentry => hentry) hdb (hnext _ nofun)
      · exact h.of_parts (fun _ hentry => lookup_of_erase hentry) hdb hended

theorem CacheFile.has_of_save {key' : SaveCacheKey} {raw' : Raw} {expireAt : Seconds}
    (h : (file.saveDNSCacheAsync key raw expireAt).Has key' raw') : key' = key ∧ raw' = raw ∨ file.Has key' raw' := by
  obtain ⟨entry, flushes, rfl, -, hflushes, hsave⟩ := saveDNSCacheAsync_eq file key raw expireAt
  rw [hsave] at h
  rcases h with ⟨e, he, rfl⟩ | hdb | ⟨flush, e, hflush, he, rfl⟩
  · rcases lookup_of_insert he with ⟨hkey, rfl⟩ | he
    · exact .inl ⟨hkey, rfl⟩
    · exact .inr (.inl ⟨e, he, rfl⟩)
  · exact .inr (.inr (.inl hdb))
  · refine .inr (.inr (.inr ⟨flush, e, ?_, he, rfl⟩))
    rcases hflushes with rfl | rfl
    · exact hflush
    · rcases lookup_of_insert hflush with ⟨-, rfl⟩ | hflush
      · cases he
      · exact hflush

theorem checked_storeCache (hwire : c.wire.Lossless) (h : Checked c asked delivers s)
    (hm : Vetted c asked delivers (c.slot transport question) m.toAnswer) (timeToLive : UInt32) :
    Checked c asked delivers (c.storeCache transport question m timeToLive s) := by
  unfold storeCache
  cases hp : c.persistent with
  | true =>
    simp only [if_true, store]
    obtain ⟨raw, hpack, hunpack⟩ := hwire m
    split
    · exact h.congr rfl rfl rfl rfl
    · simp only [hpack]
      refine ⟨fun hp' => Bool.noConfusion (hp.symm.trans hp'), fun _ key raw' hhas m' hm' => ?_, h.started, h.returned⟩
      rcases has_of_save hhas with ⟨rfl, rfl⟩ | hhas
      · rw [hunpack] at hm'
        cases hm'
        rw [slot, hp] at hm
        exact hm
      · exact h.file hp key raw' hhas m' hm'
  | false =>
    simp only [Bool.false_eq_true, if_false, MemoryCache.store]
    split
    · exact h.congr rfl rfl rfl rfl
    · refine ⟨fun _ key m' expireAt' hlookup => ?_, fun hp' => Bool.noConfusion (hp.symm.trans hp'), h.started, h.returned⟩
      have hinsert : ∀ entry : Msg × Seconds, entry.1 = m →
          (AList.insert (β := fun _ => Msg × Seconds) { question, transportTag := transport } entry s.memory).lookup key =
            some (m', expireAt') → Vetted c asked delivers (c.slot key.transportTag key.question) m'.toAnswer := by
        rintro entry rfl hlookup
        rcases lookup_of_insert hlookup with ⟨rfl, rfl⟩ | hlookup
        · exact hm
        · exact h.memory hp key m' expireAt' hlookup
      split at hlookup
      · exact hinsert _ rfl hlookup
      · exact hinsert _ rfl hlookup

theorem checked_loadResponse (h : Checked c asked delivers s) (transport : String) (question : Question) :
    Checked c asked delivers (c.loadResponse question transport s).2 ∧
      ∀ loaded, (c.loadResponse question transport s).1 = some loaded →
        Vetted c asked delivers (c.slot transport question) loaded.response.toAnswer := by
  have hanswer : ∀ {now m expireAt loaded}, viewEntry c.cacheConfig now m expireAt = some loaded →
      loaded.response.toAnswer = m.toAnswer := by
    intro now m expireAt loaded hview
    rcases viewEntry_response hview with hsame | ⟨ttl, hsame⟩
    · rw [hsame]
    · rw [hsame, toAnswer_normalizeTTL]
  unfold loadResponse
  cases hp : c.persistent with
  | true =>
    refine ⟨h, fun loaded hload => ?_⟩
    rw [file_load] at hload
    obtain ⟨⟨raw, expireAt⟩, hentry, hload⟩ := bind_eq_some_iff.1 hload
    obtain ⟨m, hunpack, hview⟩ := bind_eq_some_iff.1 hload
    rw [hanswer hview, slot, hp]
    refine h.file hp _ raw ?_ m hunpack
    unfold loadDNSCache at hentry
    split at hentry
    · rename_i entry hpending
      cases hentry
      exact .inl ⟨entry, hpending, rfl⟩
    · obtain ⟨⟨t, raw'⟩, hdb, heq⟩ := map_eq_some_iff.1 hentry
      cases heq
      exact .inr (.inl ⟨t, hdb⟩)
  | false =>
    simp only [Bool.false_eq_true, if_false]
    constructor
    · refine ⟨fun _ key m expireAt hlookup => ?_, h.file, h.started, h.returned⟩
      rcases memory_load_snd c.cacheConfig s.memory s.now transport question with hsame | ⟨_, _, _, _, herase⟩
      · rw [hsame] at hlookup
        exact h.memory hp key m expireAt hlookup
      · rw [herase] at hlookup
        exact h.memory hp key m expireAt (lookup_of_erase hlookup)
    · intro loaded hload
      rw [memory_load_fst] at hload
      obtain ⟨⟨m, expireAt⟩, hentry, hview⟩ := bind_eq_some_iff.1 hload
      rw [hanswer hview]
      exact h.memory hp _ m expireAt hentry

theorem checked_backgroundRefreshDNS (h : Checked c asked delivers s) {r : Refresh}
    (hr : Asked c asked r.transport r.question r.options r.responseChecker true) :
    Checked c asked delivers (backgroundRefreshDNS r s) := by
  simp only [backgroundRefreshDNS]
  split
  · exact h
  · refine ⟨h.memory, h.file, fun r' hr' => ?_, h.returned⟩
    rcases List.mem_cons.1 hr' with rfl | hr'
    · exact hr
    · exact h.started r' hr'

theorem checked_idle (h : Checked c asked delivers s) (i : Idle) : Checked c asked delivers (s.idle i) := by
  cases i with
  | wait seconds => exact h.congr rfl rfl rfl rfl
  | flush key =>
    refine ⟨h.memory, fun hp key' raw hhas => ?_, h.started, h.returned⟩
    exact h.file hp key' raw (has_of_flush hhas)
  | evict key =>
    refine ⟨fun hp key' m expireAt hlookup => ?_, h.file, h.started, h.returned⟩
    exact h.memory hp key' m expireAt (lookup_of_erase hlookup)

/-! ## What the programs keep -/

/-- Between two actions of a call others may do anything that keeps `Checked`. -/
instance : Preorder (ClientState Raw) where
  le _ _ := True
  le_refl _ := trivial
  le_trans _ _ _ _ _ := trivial

/-- What is returned without an error has been accepted. -/
def ReturnsAccepted (responseChecker : Option Checker) (result : Except ClientError Msg) (_ : ClientState Raw) : Prop :=
  ∀ m, result = .ok m → Accepts responseChecker m.toAnswer

theorem safe_modify {f : ClientState Raw → ClientState Raw}
    (h : ∀ s, Checked c asked delivers s → Checked c asked delivers (f s)) :
    (Prog.modify f).Safe (Checked c asked delivers) (fun _ _ => True) s :=
  Prog.Safe.modify fun s' _ hs' => ⟨trivial, h s' hs', fun _ _ _ => trivial⟩

theorem safe_return {result : Except ClientError Msg} (h : ∀ m, result = .ok m → Accepts responseChecker m.toAnswer) :
    (pure result : Prog (ClientState Raw) _).Safe (Checked c asked delivers) (ReturnsAccepted responseChecker) s :=
  Prog.Safe.pure fun _ _ _ => h

theorem safe_error (err : ClientError) :
    (pure (.error err) : Prog (ClientState Raw) _).Safe (Checked c asked delivers) (ReturnsAccepted responseChecker) s :=
  safe_return nofun

theorem safe_none : (pure none : Prog (ClientState Raw) (Option (Except ClientError Msg))).Safe (Checked c asked delivers)
    (fun r _ => ∀ result, r = some result → ∀ m, result = .ok m → Accepts responseChecker m.toAnswer) s := by
  refine .pure fun _ _ _ result hresult => ?_
  cases hresult

theorem checked_saveRDRC (h : Checked c asked delivers s) : Checked c asked delivers (c.saveRDRC transport question s) := by
  unfold saveRDRC
  split
  · exact h
  · exact h.congr rfl rfl rfl rfl

theorem checked_loadRDRC (h : Checked c asked delivers s) :
    Checked c asked delivers (loadRDRC transport question s).2 := by
  simp only [loadRDRC]
  split
  · exact h
  · split
    · exact h.congr rfl rfl rfl rfl
    · exact h

theorem safe_load {β : Type} {Q : β → ClientState Raw → Prop} {k : Option Loaded → Prog (ClientState Raw) β}
    (hnone : ∀ s, (k none).Safe (Checked c asked delivers) Q s)
    (hsome : ∀ loaded s, Vetted c asked delivers (c.slot transport question) loaded.response.toAnswer →
      (k (some loaded)).Safe (Checked c asked delivers) Q s) :
    (Prog.atomic (c.loadResponse question transport) >>= k).Safe (Checked c asked delivers) Q s := by
  refine .bind (Q := fun r _ => ∀ loaded, r = some loaded →
    Vetted c asked delivers (c.slot transport question) loaded.response.toAnswer) ?_ fun r s' _ _ hr => ?_
  · refine .atomic fun s' _ hs' => ?_
    obtain ⟨hkeeps, hloaded⟩ := checked_loadResponse hs' transport question
    exact ⟨trivial, hkeeps, fun _ _ _ => hloaded⟩
  · cases r with
    | none => exact hnone s'
    | some loaded => exact hsome loaded s' (hr loaded rfl)

theorem accepts_joinLookups {strategy : DomainStrategy} {result4 result6 : Except ClientError Msg}
    (h4 : ∀ m, result4 = .ok m → Accepts responseChecker m.toAnswer)
    (h6 : ∀ m, result6 = .ok m → Accepts responseChecker m.toAnswer) {r : List IP × List Msg}
    (h : joinLookups strategy result4 result6 = .ok r) : ∀ m ∈ r.2, Accepts responseChecker m.toAnswer := by
  have hone : ∀ {m : Msg} {addresses : List IP} {err : ClientError} {empty : Bool},
      Accepts responseChecker m.toAnswer →
      (if empty = true then .error err else .ok (addresses, [m]) : Except ClientError (List IP × List Msg)) = .ok r →
      ∀ m ∈ r.2, Accepts responseChecker m.toAnswer := by
    intro m addresses err empty hm h
    cases empty with
    | true => cases h
    | false =>
      cases h
      intro m' hm'
      rw [List.mem_singleton.1 hm']
      exact hm
  cases result4 with
  | error err =>
    cases result6 with
    | error err' => cases h
    | ok m6 => exact hone (h6 m6 rfl) h
  | ok m4 =>
    cases result6 with
    | error err => exact hone (h4 m4 rfl) h
    | ok m6 =>
      cases h
      intro m hm
      simp only [List.mem_cons, List.not_mem_nil, or_false] at hm
      rcases hm with rfl | rfl
      · exact h4 _ rfl
      · exact h6 _ rfl

section

variable (hwire : c.wire.Lossless)

include hwire

theorem safe_refreshUpstream {r : Refresh}
    (hr : Asked c asked r.transport r.question r.options r.responseChecker true) (hup : Refreshes delivers r upstream) :
    (c.refreshUpstream r upstream).Safe (Checked c asked delivers) (fun _ _ => True) s := by
  unfold refreshUpstream
  split
  · exact .pure fun _ _ _ => trivial
  · rename_i response hresponse
    split
    · exact safe_modify fun s hs => checked_saveRDRC hs
    · rename_i hrejects
      split
      · exact .pure fun _ _ _ => trivial
      · rename_i hcode
        refine safe_modify fun s hs => checked_storeCache hwire hs ?_ _
        rw [toAnswer_applied]
        have hcode : cacheableRcode response.rcode = true := by simpa using hcode
        exact hr.vetted (hup r.message response hresponse) hcode (accepts_of_not_rejects (Bool.eq_false_iff.2 hrejects))

theorem safe_refresh {i : Nat} {upstream : Refresh → Except TransportError Msg}
    (hup : ∀ r, Refreshes delivers r (upstream r)) :
    (c.refresh i upstream).Safe (Checked c asked delivers) (fun _ _ => True) s := by
  refine .bind (Q := fun started _ => ∀ r, started = some r →
    Asked c asked r.transport r.question r.options r.responseChecker true) ?_ fun started s' _ _ hstarted => ?_
  · refine .atomic fun s' _ hs' => ⟨trivial, ?_, fun _ _ _ r hr => ?_⟩
    · exact ⟨hs'.memory, hs'.file, fun r hr => hs'.started r (List.mem_of_mem_eraseIdx hr), hs'.returned⟩
    · exact hs'.started r (List.mem_of_getElem? hr)
  · split
    · exact .pure fun _ _ _ => trivial
    · rename_i r
      refine .bind (safe_refreshUpstream hwire (hstarted r rfl) (hup r)) fun _ _ _ _ _ => ?_
      exact safe_modify fun s hs => hs.congr rfl rfl rfl rfl

variable (hagree : Agree c asked delivers)

include hagree

/-- An answer of the transport that the checker lets pass is accepted as it is
returned and, if the call uses the cache, vetted as it is stored. -/
theorem safe_exchangeUpstream {disableCache : Bool}
    (hq : Asked c asked q.transport question q.options q.responseChecker (!disableCache))
    (hup : Delivers delivers q.transport question upstream) :
    (c.exchangeUpstream q question disableCache upstream).Safe (Checked c asked delivers)
      (ReturnsAccepted q.responseChecker) s := by
  unfold exchangeUpstream
  split
  · exact safe_error _
  · refine .bind (Q := fun _ _ => True) ?_ fun rejected s' _ _ _ => ?_
    · split
      · exact .atomic fun s' _ hs' => ⟨trivial, checked_loadRDRC hs', fun _ _ _ => trivial⟩
      · exact .pure fun _ _ _ => trivial
    · split
      · exact safe_error _
      · split
        · exact safe_error _
        · rename_i response hresponse
          have hdelivers := hup q.message response hresponse
          split
          · refine .bind (Q := fun _ _ => True) ?_ fun _ _ _ _ _ => safe_error _
            exact .when (fun _ => safe_modify fun s hs => checked_saveRDRC hs) fun _ _ _ _ => trivial
          · rename_i hrejects
            have haccepts := accepts_of_not_rejects (Bool.eq_false_iff.2 hrejects)
            refine .bind (Q := fun _ _ => True) ?_ fun _ _ _ _ _ => safe_return fun m hm => ?_
            · refine .when (fun hstore => safe_modify fun s hs => ?_) fun _ _ _ _ => trivial
              simp only [Bool.not_or, Bool.not_not, Bool.and_eq_true] at hstore
              rw [hstore.1] at hq
              refine checked_storeCache hwire hs ?_ _
              rw [toAnswer_applied]
              exact hq.vetted hdelivers hstore.2 haccepts
            · cases hm
              rw [toAnswer_matchEdns0, toAnswer_id, toAnswer_applied]
              cases hchecker : q.responseChecker with
              | none => trivial
              | some check =>
                rw [hchecker] at hrejects
                rw [← hchecker]
                exact hq.fresh hagree hdelivers (cacheable_of_not_rejects (Bool.eq_false_iff.2 hrejects)) haccepts

section

variable (hq : Asked c asked q.transport question q.options q.responseChecker true)
  (hup : Delivers delivers q.transport question upstream)

include hq hup

theorem safe_exchangeCached :
    (c.exchangeCached q question upstream).Safe (Checked c asked delivers) (ReturnsAccepted q.responseChecker) s := by
  have hasks : ∀ s, (c.exchangeUpstream q question false upstream).Safe (Checked c asked delivers)
      (ReturnsAccepted q.responseChecker) s := fun s => safe_exchangeUpstream hwire hagree hq hup
  refine safe_load hasks fun loaded s' hvetted => ?_
  have hreturn : ∀ s, (pure (.ok { loaded.response with id := q.message.id }) : Prog (ClientState Raw) _).Safe
      (Checked c asked delivers) (ReturnsAccepted q.responseChecker) s := by
    intro s
    refine safe_return fun m hm => ?_
    cases hm
    exact hq.accepts hagree hvetted
  simp only
  split
  · split
    · exact hasks s'
    · exact .bind (safe_modify fun s hs => checked_backgroundRefreshDNS hs hq) fun _ s _ _ _ => hreturn s
  · exact hreturn s'

theorem safe_exchangeLocked :
    (c.exchangeLocked q question upstream).Safe (Checked c asked delivers) (ReturnsAccepted q.responseChecker) s := by
  refine .bind (Q := fun _ _ => True) ?_ fun lock s' _ _ _ => ?_
  · refine .atomic fun s' _ hs' => ⟨trivial, ?_, fun _ _ _ => trivial⟩
    unfold loadOrStoreLock
    split
    · exact hs'
    · exact hs'.congr rfl rfl rfl rfl
  · split
    · refine .bind (Q := fun _ _ => True) (Prog.Safe.read fun _ _ _ _ _ _ => trivial) fun closed s' _ _ _ => ?_
      split
      · exact safe_exchangeCached hwire hagree hq hup
      · exact safe_error _
    · refine .bind (safe_exchangeCached hwire hagree hq hup) fun result s' _ _ hresult => ?_
      refine .bind (safe_modify fun s hs => hs.congr rfl rfl rfl rfl) fun _ _ _ _ _ => ?_
      refine .bind (safe_modify fun s hs => hs.congr rfl rfl rfl rfl) fun _ _ _ _ _ => ?_
      exact safe_return hresult

end

theorem safe_exchange (hq : Asks asked delivers q upstream) :
    (c.exchange q upstream).Safe (Checked c asked delivers) (ReturnsAccepted q.responseChecker) s := by
  obtain ⟨hasked, hup⟩ := hq
  unfold exchange
  split
  · rename_i hnone
    refine safe_return fun m hm => ?_
    cases hm
    exact hagree.empty q hasked hnone
  · rename_i question rest hquestion
    have hhead : q.message.question.head? = some question := by rw [hquestion]; rfl
    split
    · rename_i hrejects
      refine safe_return fun m hm => ?_
      cases hm
      exact hagree.rejected q question hasked hhead hrejects
    · let sent := { q with message := c.prepareExchangeMessage q.message q.options }
      simp only
      split
      · refine safe_exchangeUpstream (q := sent) hwire hagree ?_ (hup question hhead)
        exact ⟨q, hasked, hhead, rfl, rfl, rfl, nofun⟩
      · rename_i hcaches
        simp only [Bool.or_eq_true, Bool.not_eq_true', not_or, Bool.not_eq_false, Bool.not_eq_true] at hcaches
        obtain ⟨⟨hsimple, hclient⟩, hoptions⟩ := hcaches
        refine safe_exchangeLocked hwire hagree ?_ (hup question hhead)
        refine ⟨q, hasked, hhead, rfl, rfl, rfl, fun _ => ?_⟩
        simp [Query.usesCache, hclient, hoptions, hsimple]

omit hwire in
theorem safe_questionCache (hq : Asked c asked q.transport question q.options q.responseChecker true) :
    (c.questionCache q question).Safe (Checked c asked delivers)
      (fun r _ => ∀ result, r = some result → ∀ m, result = .ok m → Accepts q.responseChecker m.toAnswer) s := by
  refine safe_load (fun _ => safe_none) fun loaded s' hvetted => ?_
  simp only
  split
  · exact safe_none
  · refine .bind (Q := fun _ _ => True) ?_ fun _ _ _ _ _ => ?_
    · exact .when (fun _ => safe_modify fun s hs => checked_backgroundRefreshDNS hs hq) fun _ _ _ _ => trivial
    · split
      · exact .pure fun _ _ _ result hresult m hm => by cases hresult; cases hm
      · refine .pure fun _ _ _ result hresult m hm => ?_
        cases hresult
        cases hm
        exact hq.accepts hagree hvetted

theorem safe_lookupToExchange (hq : Asks asked delivers q upstream) (hlookup : q.lookup = true)
    (hhead : q.message.question.head? = some question) :
    (c.lookupToExchange q question upstream).Safe (Checked c asked delivers) (ReturnsAccepted q.responseChecker) s := by
  refine .bind (Q := fun r _ => ∀ result, r = some result → ∀ m, result = .ok m →
    Accepts q.responseChecker m.toAnswer) ?_ fun cached s' _ _ hcached => ?_
  · split
    · exact safe_none
    · rename_i hcaches
      simp only [Bool.or_eq_true, not_or, Bool.not_eq_true] at hcaches
      refine safe_questionCache hagree ⟨q, hq.1, hhead, rfl, rfl, rfl, fun _ => ?_⟩
      simp [Query.usesCache, hcaches.1, hcaches.2, hlookup]
  · split
    · rename_i result
      exact safe_return (hcached result rfl)
    · refine .bind (safe_exchange hwire hagree hq) fun result s' _ _ hresult => ?_
      split
      · exact safe_error _
      · split
        · exact safe_error _
        · exact safe_return hresult

theorem safe_lookup {l : LookupCall}
    (h4 : lookupStrategy l.options ≠ .ipv6Only → Asks asked delivers (l.query typeA) l.upstream4)
    (h6 : lookupStrategy l.options ≠ .ipv4Only → Asks asked delivers (l.query typeAAAA) l.upstream6) :
    (c.lookup l.transport l.dnsName l.options l.responseChecker l.contextTransport l.schedule l.upstream4
      l.upstream6).Safe (Checked c asked delivers)
      (fun result _ => ∀ r, result = .ok r → ∀ m ∈ r.2, Accepts l.responseChecker m.toAnswer) s := by
  have hask : ∀ qType upstream s, Asks asked delivers (l.query qType) upstream →
      (c.lookupToExchange (l.query qType) { name := l.dnsName, qtype := qType, qclass := classINET } upstream).Safe
        (Checked c asked delivers) (ReturnsAccepted l.responseChecker) s :=
    fun qType upstream s hq => safe_lookupToExchange hwire hagree hq rfl rfl
  have honly : ∀ {result : Except ClientError Msg} {r : List IP × List Msg},
      (∀ m, result = .ok m → Accepts l.responseChecker m.toAnswer) →
      (result.map fun response => (responseAddresses response, [response])) = .ok r →
      ∀ m ∈ r.2, Accepts l.responseChecker m.toAnswer := by
    intro result r hresult hr
    cases result with
    | error err => cases hr
    | ok response =>
      cases hr
      intro m hm
      rw [List.mem_singleton.1 hm]
      exact hresult response rfl
  unfold lookup
  split
  · rename_i hstrategy
    refine .bind (hask typeA _ s (h4 (by rw [hstrategy]; decide))) fun result _ _ _ hresult => ?_
    exact .pure fun _ _ _ r => honly hresult
  · rename_i hstrategy
    refine .bind (hask typeAAAA _ s (h6 (by rw [hstrategy]; decide))) fun result _ _ _ hresult => ?_
    exact .pure fun _ _ _ r => honly hresult
  · rename_i h4only h6only
    refine .bind (Prog.Safe.par l.schedule (hask typeA _ s (h4 h6only)) (hask typeAAAA _ s (h6 h4only)))
      fun results _ _ _ hresults => ?_
    exact .pure fun _ _ _ r => accepts_joinLookups hresults.1 hresults.2

theorem safe_runs {p : Prog (ClientState Raw) Unit} (hp : c.Runs (Asks asked delivers) (Refreshes delivers) p) :
    p.Safe (Checked c asked delivers) (fun _ _ => True) s := by
  have hreturns : ∀ {responseChecker : Option Checker} {responses : List Msg} {s : ClientState Raw},
      (∀ m ∈ responses, Accepts responseChecker m.toAnswer) →
      (Prog.modify (returns responseChecker responses)).Safe (Checked c asked delivers) (fun _ _ => True) s := by
    intro responseChecker responses s haccepts
    refine safe_modify fun s hs => ⟨hs.memory, hs.file, hs.started, fun e he => ?_⟩
    rcases List.mem_cons.1 he with rfl | he
    · exact haccepts
    · exact hs.returned e he
  cases hp with
  | exchange hq =>
    refine .bind (safe_exchange hwire hagree hq) fun result _ _ _ hresult => ?_
    split
    · refine hreturns fun m hm => ?_
      rw [List.mem_singleton.1 hm]
      exact hresult _ rfl
    · exact .pure fun _ _ _ => trivial
  | lookup h4 h6 =>
    refine .bind (safe_lookup hwire hagree h4 h6) fun result _ _ _ hresult => ?_
    split
    · exact hreturns (hresult _ rfl)
    · exact .pure fun _ _ _ => trivial
  | refresh hup => exact safe_refresh hwire hup
  | idle => exact safe_modify fun s hs => checked_idle hs _

end

theorem checked_start (now : Seconds) : Checked c asked delivers { now := now } where
  memory _ _ _ _ h := nomatch h
  file _ _ _ h := by
    rcases h with ⟨_, h, _⟩ | ⟨_, h⟩ | ⟨_, _, h, _⟩
    · cases h
    · cases h
    · cases h
  started _ h := nomatch h
  returned _ h := nomatch h

/-! ## Results -/

/-- In every run of calls whose checkers agree where they share a cache slot,
every call with a checker is returned responses that its checker accepts. -/
theorem responses_accepted (hwire : c.wire.Lossless) (hagree : Agree c asked delivers)
    {p : Prog.Pool (ClientState Raw)}
    (h : Reach (c.system (Asks asked delivers) (Refreshes delivers)) (fun _ _ => True) p) :
    ∀ e ∈ p.shared.returned, ∀ m ∈ e.responses, Accepts e.responseChecker m.toAnswer := by
  have hinit : ∀ s : ClientState Raw, (∃ now, s = { now := now }) → Checked c asked delivers s := by
    rintro s ⟨now, rfl⟩
    exact checked_start now
  exact (Prog.pool_safe hinit (fun _ hp s _ => safe_runs hwire hagree hp) h).1.returned

end invariant

section samples

private def memoryClient : Client Msg := { wire := { pack := some, unpack := some } }

private def addressQuestion : Question := { name := "a.example.", qtype := typeA, qclass := classINET }

private def addressAnswer : Msg :=
  { response := true, question := [addressQuestion],
    answer := [{ name := "a.example.", cls := classINET, ttl := 60, data := .a [192, 0, 2, 1] }] }

private def addressQuery (responseChecker : Option Checker) : Query :=
  { transport := "local", message := { question := [addressQuestion] }, responseChecker }

/-- A checker of a rule that is limited to other addresses. -/
private def otherAddress : Checker := fun a => a.records.all fun r => r.data != .a [192, 0, 2, 1]

private def startPool : Prog.Pool (ClientState Msg) := { shared := { now := 0 }, threads := [] }

/-- A caller starts, and runs to its end. -/
private def callAlone (p : Prog.Pool (ClientState Msg)) (q : Query) : Prog.Pool (ClientState Msg) :=
  (List.replicate 8 0).foldl Prog.Pool.act
    { p with threads := memoryClient.callExchange q (.ok addressAnswer) :: p.threads }

variable {refreshes : Refresh → Except TransportError Msg → Prop} {asks : Query → Except TransportError Msg → Prop}

private theorem reach_callAlone {p : Prog.Pool (ClientState Msg)}
    (h : Reach (memoryClient.system asks refreshes) (fun _ _ => True) p) (hq : asks q (.ok addressAnswer)) :
    Reach (memoryClient.system asks refreshes) (fun _ _ => True) (callAlone p q) :=
  Prog.Pool.reach_acts (fun _ _ => trivial) (Prog.Pool.reach_spawn (fun _ _ => trivial) h (.exchange hq)) _

private theorem reach_startPool : Reach (memoryClient.system asks refreshes) (fun _ _ => True) startPool :=
  .init ⟨⟨0, rfl⟩, rfl⟩

/-- A checker that only looks at the code. -/
private def resolved : Checker := fun a => a.rcode == rcodeSuccess

theorem responses_accepted_sample :
    let q := addressQuery (some resolved)
    ∀ e ∈ (callAlone (callAlone startPool q) q).shared.returned, ∀ m ∈ e.responses,
      Accepts e.responseChecker m.toAnswer := by
  let asked : Query → Prop := fun q => q = addressQuery (some resolved)
  have hagree : Agree memoryClient asked fun _ _ _ => True := by
    refine ⟨?_, ?_, ?_⟩
    · rintro q q' question question' rfl rfl _ _ _ a _ _ haccepts
      exact haccepts
    · rintro q rfl h
      cases h
    · rintro q question rfl hhead h
      cases hhead
      cases h
  refine responses_accepted (fun m => ⟨m, rfl, rfl⟩) hagree ?_
  exact reach_callAlone (reach_callAlone reach_startPool ⟨rfl, fun _ _ _ _ _ => trivial⟩)
    ⟨rfl, fun _ _ _ _ _ => trivial⟩

/-- A caller with a checker is returned what a caller without one has put into
the cache, and its checker rejects it. -/
theorem rejected_response_returned :
    ∃ p : Prog.Pool (ClientState Msg),
      Reach (memoryClient.system (fun _ _ => True) (fun _ _ => True)) (fun _ _ => True) p ∧
      ∃ e ∈ p.shared.returned, ∃ m ∈ e.responses, ¬Accepts e.responseChecker m.toAnswer := by
  refine ⟨callAlone (callAlone startPool (addressQuery none)) (addressQuery (some otherAddress)),
    reach_callAlone (reach_callAlone reach_startPool trivial) trivial, ?_⟩
  refine ⟨{ responseChecker := some otherAddress, responses := [addressAnswer] }, .head _, addressAnswer, .head _, ?_⟩
  exact nofun

end samples

end Singlink.Dns
