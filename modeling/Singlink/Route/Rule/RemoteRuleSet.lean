import Singlink.Lib.Runs
import Singlink.Options.HeadlessRule
/-!
# Remote rule sets

`RemoteRuleSet` fetches its content from a server, with the ETag of what it has
in `If-None-Match`, and keeps content and ETag in the cache file for the next
start. An answer without an ETag header leaves the ETag of the content before in
place; where that does not happen, a fetch without an error always ends with the
server's content loaded, and the saved ETag is the one of the saved content.
-/

namespace Singlink.Rule

open Lib Options

variable {Matcher AdGuardMatcher H : Type}

/-! ## The rule set and its server -/

abbrev Content := List UInt8

/-- How a set is configured: what `loadBytes` does to its content in the format
of the set, and whether there is a cache file. -/
structure RemoteOptions (Matcher AdGuardMatcher H : Type) where
  decode : Content → Option (List (Options.HeadlessRule Matcher AdGuardMatcher))
  newHeadlessRule : Options.HeadlessRule Matcher AdGuardMatcher → Option H
  cacheFile : Bool

structure SavedBinary where
  content : Content
  lastUpdated : Nat
  lastEtag : String

/-- `RemoteRuleSet`; `lastUpdated` is `none` for the zero time. -/
structure RemoteRuleSet (H : Type) where
  rules : List H := []
  metadata : RuleSetMetadata := {}
  lastUpdated : Option Nat := none
  lastEtag : String := ""

/-- What the server has, with its ETag (empty if it has none). -/
structure Published where
  content : Content
  etag : String

/-- The rule set with its entry in the cache file and its server. The rest is
what happened: everything the server had, the contents that were received with
the ETag they came with, and whether the last step was a fetch that returned nil. -/
structure Remote (H : Type) where
  set : RemoteRuleSet H
  saved : Option SavedBinary
  server : Published
  published : List Published
  received : List (Content × String)
  fetched : Bool

def Remote.etagHeader (s : Remote H) (sent : Bool) : String := if sent then s.server.etag else ""

/-- The server gets a new content; an ETag it used before stands for the content
it stood for then. -/
def Remote.publish (s : Remote H) (server : Published) : Remote H :=
  if server.etag = "" ∨ ∀ p ∈ s.published, p.etag = server.etag → p.content = server.content then
    { s with server := server, published := server :: s.published, fetched := false }
  else s

/-- How the server answers, if not with an error: `200` with or without its ETag,
or `304`. An unexpected status and a body that cannot be read are errors too. -/
inductive FetchAnswer where
  | error
  | ok (etagSent : Bool)
  | notModified

/-- What a fetch meets: the answer, the time, whether the metadata of the new
rules is accepted, and whether the cache file can be read and written. -/
structure Fetch where
  answer : FetchAnswer
  now : Nat
  accepted : Bool
  readable : Bool
  writable : Bool

/-- A step: a fetch, a restart (whether the cache file can be read and its
content is accepted, and the first fetch, if there is one), or a change of what
the server has. -/
inductive RemoteStep where
  | fetch (f : Fetch)
  | restart (readable accepted : Bool) (f : Fetch)
  | publish (server : Published)

namespace RemoteOptions

variable [DecidableEq Matcher] [DecidableEq AdGuardMatcher] (c : RemoteOptions Matcher AdGuardMatcher H)

/-- The rules and the metadata of a content. -/
def load (content : Content) : Option (List H × RuleSetMetadata) := do
  let plainRules ← c.decode content
  let rules ← plainRules.mapM c.newHeadlessRule
  return (rules, buildRuleSetMetadata plainRules)

/-- `loadBytes`; the set is as before if it returns an error. -/
def loadBytes (s : RemoteRuleSet H) (content : Content) (accepted : Bool) : Option (RemoteRuleSet H) :=
  match c.load content with
  | none => none
  | some (rules, metadata) => if accepted then some { s with rules := rules, metadata := metadata } else none

def saveRuleSet (s : Remote H) (writable : Bool) (entry : SavedBinary) : Remote H :=
  if c.cacheFile && writable then { s with saved := some entry } else s

def loadRuleSet (s : Remote H) (readable : Bool) : Option SavedBinary :=
  if c.cacheFile && readable then s.saved else none

/-- The part of `fetch` for `304`. -/
def notModified (s : Remote H) (f : Fetch) : Remote H :=
  let s := { s with set := { s.set with lastUpdated := some f.now }, fetched := true }
  match c.loadRuleSet s f.readable with
  | none => s
  | some savedRuleSet => c.saveRuleSet s f.writable { savedRuleSet with lastUpdated := f.now }

/-- The part of `fetch` for `200`. -/
def modified (s : Remote H) (f : Fetch) (eTagHeader : String) : Remote H :=
  let s := { s with received := (s.server.content, eTagHeader) :: s.received, fetched := false }
  match c.loadBytes s.set s.server.content f.accepted with
  | none => s
  | some set =>
    let lastEtag := if eTagHeader ≠ "" then eTagHeader else set.lastEtag
    c.saveRuleSet
      { s with set := { set with lastEtag := lastEtag, lastUpdated := some f.now }, fetched := true }
      f.writable ⟨s.server.content, f.now, lastEtag⟩

/-- `fetch`. The server answers `304` only to the ETag of what it has. -/
def fetch (s : Remote H) (f : Fetch) : Remote H :=
  match f.answer with
  | .error => { s with fetched := false }
  | .ok etagSent => c.modified s f (s.etagHeader etagSent)
  | .notModified =>
    if s.set.lastEtag ≠ "" ∧ s.set.lastEtag = s.server.etag then c.notModified s f else { s with fetched := false }

/-- The part of `StartContext` that restores the set from the cache file. -/
def restore (s : Remote H) (readable accepted : Bool) : Remote H :=
  match c.loadRuleSet s readable with
  | none => s
  | some savedSet =>
    match c.loadBytes s.set savedSet.content accepted with
    | none => s
    | some set =>
      { s with set := { set with lastUpdated := some savedSet.lastUpdated, lastEtag := savedSet.lastEtag } }

/-- A new `RemoteRuleSet`, up to the end of its `StartContext`. -/
def restart (s : Remote H) (readable accepted : Bool) (f : Fetch) : Remote H :=
  let s := c.restore { s with set := {}, fetched := false } readable accepted
  if s.set.lastUpdated.isNone then c.fetch s f else s

def step (s : Remote H) : RemoteStep → Remote H
  | .fetch f => c.fetch s f
  | .restart readable accepted f => c.restart s readable accepted f
  | .publish server => s.publish server

/-- Everything starts with nothing loaded and nothing saved. -/
def system : System (Remote H) RemoteStep :=
  .ofStep (fun s => ∃ server, s = ⟨{}, none, server, [server], [], false⟩) c.step

/-- An answer without an ETag comes only while no ETag is remembered, or with the
content that the ETag came with; or its content is not loaded. -/
def Tagged (s : Remote H) : RemoteStep → Prop
  | .fetch f => ∀ etagSent, f.answer = .ok etagSent → s.etagHeader etagSent = "" → s.set.lastEtag = "" ∨
      (s.server.content, s.set.lastEtag) ∈ s.received ∨ c.loadBytes s.set s.server.content f.accepted = none
  | _ => True

/-! ## ETags and contents -/

/-- The set's ETag came with the content that is loaded, and the saved one with
the saved content. -/
structure Inv (s : Remote H) : Prop where
  published : ∀ p ∈ s.published, ∀ q ∈ s.published, p.etag ≠ "" → p.etag = q.etag → p.content = q.content
  server : s.server ∈ s.published
  received : ∀ content etag, (content, etag) ∈ s.received → etag ≠ "" → ⟨content, etag⟩ ∈ s.published
  etag : s.set.lastEtag ≠ "" → ∃ content, (content, s.set.lastEtag) ∈ s.received ∧
    c.load content = some (s.set.rules, s.set.metadata)
  saved : ∀ entry, s.saved = some entry → (entry.content, entry.lastEtag) ∈ s.received
  fetched : s.fetched = true → c.load s.server.content = some (s.set.rules, s.set.metadata)

variable {c} {s : Remote H}

theorem loadBytes_eq_some {set set' : RemoteRuleSet H} {content : Content} {accepted : Bool}
    (h : c.loadBytes set content accepted = some set') :
    c.load content = some (set'.rules, set'.metadata) ∧ set'.lastEtag = set.lastEtag := by
  unfold loadBytes at h
  split at h
  · cases h
  · rename_i rules metadata hload
    split at h
    · cases h
      exact ⟨hload, rfl⟩
    · cases h

section

variable (hs : c.Inv s)

include hs

theorem mem_of_loadRuleSet {readable : Bool} {entry : SavedBinary}
    (h : c.loadRuleSet s readable = some entry) : (entry.content, entry.lastEtag) ∈ s.received := by
  unfold loadRuleSet at h
  split at h
  · exact hs.saved entry h
  · cases h

theorem Inv.saveRuleSet (writable : Bool) {entry : SavedBinary}
    (hentry : (entry.content, entry.lastEtag) ∈ s.received) : c.Inv (c.saveRuleSet s writable entry) := by
  unfold RemoteOptions.saveRuleSet
  split
  · refine { hs with saved := fun e he => ?_ }
    cases he
    exact hentry
  · exact hs

theorem Inv.unfetched : c.Inv { s with fetched := false } :=
  { hs with fetched := nofun }

theorem Inv.current (hne : s.set.lastEtag ≠ "") (heq : s.set.lastEtag = s.server.etag) :
    c.load s.server.content = some (s.set.rules, s.set.metadata) := by
  obtain ⟨content, hmem, hload⟩ := hs.etag hne
  have hpublished := hs.received content _ hmem hne
  have hsame : content = s.server.content := hs.published _ hpublished _ hs.server hne heq
  rw [← hsame]
  exact hload

theorem Inv.notModified (f : Fetch) (hne : s.set.lastEtag ≠ "")
    (heq : s.set.lastEtag = s.server.etag) : c.Inv (c.notModified s f) := by
  have hset : c.Inv { s with set := { s.set with lastUpdated := some f.now }, fetched := true } :=
    { hs with fetched := fun _ => hs.current hne heq }
  simp only [RemoteOptions.notModified]
  split
  · exact hset
  · rename_i entry hentry
    have hmem : (entry.content, entry.lastEtag) ∈ s.received := mem_of_loadRuleSet hset hentry
    exact hset.saveRuleSet f.writable hmem

theorem Inv.receive {eTagHeader : String} (hheader : eTagHeader ≠ "" → eTagHeader = s.server.etag) :
    c.Inv { s with received := (s.server.content, eTagHeader) :: s.received, fetched := false } where
  published := hs.published
  server := hs.server
  received := by
    intro content etag hmem hne
    rcases List.mem_cons.1 hmem with heq | hmem
    · cases heq
      rw [hheader hne]
      exact hs.server
    · exact hs.received content etag hmem hne
  etag := fun hne => by
    obtain ⟨content, hmem, hload⟩ := hs.etag hne
    exact ⟨content, List.mem_cons_of_mem _ hmem, hload⟩
  saved := fun entry hentry => List.mem_cons_of_mem _ (hs.saved entry hentry)
  fetched := nofun

theorem Inv.modified (f : Fetch) {eTagHeader : String} (hheader : eTagHeader ≠ "" → eTagHeader = s.server.etag)
    (htagged : eTagHeader = "" → s.set.lastEtag = "" ∨ (s.server.content, s.set.lastEtag) ∈ s.received ∨
      c.loadBytes s.set s.server.content f.accepted = none) : c.Inv (c.modified s f eTagHeader) := by
  have hreceive := hs.receive hheader
  simp only [RemoteOptions.modified]
  split
  · exact hreceive
  · rename_i set hset
    obtain ⟨hload, hlast⟩ := loadBytes_eq_some hset
    -- the ETag that is remembered and saved now came with this content
    have hpair : (s.server.content, if eTagHeader ≠ "" then eTagHeader else set.lastEtag) ∈
        (s.server.content, eTagHeader) :: s.received := by
      by_cases hempty : eTagHeader = ""
      · rw [if_neg (not_not.2 hempty), hlast]
        rcases htagged hempty with hnone | hmem | hfail
        · rw [hnone, hempty]
          exact .head _
        · exact .tail _ hmem
        · rw [hfail] at hset
          cases hset
      · rw [if_pos hempty]
        exact .head _
    refine .saveRuleSet ?_ f.writable hpair
    exact { hreceive with etag := fun _ => ⟨_, hpair, hload⟩, fetched := fun _ => hload }

end

theorem etagHeader_eq {sent : Bool} (h : s.etagHeader sent ≠ "") : s.etagHeader sent = s.server.etag := by
  unfold Remote.etagHeader at h ⊢
  split
  · rfl
  · rename_i hsent
    exact absurd (if_neg hsent) h

theorem Inv.fetch (hs : c.Inv s) {f : Fetch} (htagged : c.Tagged s (.fetch f)) : c.Inv (c.fetch s f) := by
  unfold RemoteOptions.fetch
  split
  · exact hs.unfetched
  · rename_i sent hanswer
    exact hs.modified f etagHeader_eq (htagged sent hanswer)
  · split
    · rename_i hetag
      exact hs.notModified f hetag.1 hetag.2
    · exact hs.unfetched

theorem Inv.restore (hs : c.Inv s) (hfetched : s.fetched = false) (readable accepted : Bool) :
    c.Inv (c.restore s readable accepted) := by
  unfold RemoteOptions.restore
  split
  · exact hs
  · rename_i entry hentry
    split
    · exact hs
    · rename_i set hset
      have hmem := mem_of_loadRuleSet hs hentry
      refine { hs with etag := fun _ => ⟨_, hmem, (loadBytes_eq_some hset).1⟩, fetched := fun h => ?_ }
      rw [hfetched] at h
      cases h

theorem lastEtag_restore {readable accepted : Bool} (hnew : s.set.lastEtag = "")
    (h : (c.restore s readable accepted).set.lastUpdated.isNone = true) :
    (c.restore s readable accepted).set.lastEtag = "" := by
  unfold RemoteOptions.restore at h ⊢
  split
  · exact hnew
  · rename_i entry hentry
    rw [hentry] at h
    split
    · exact hnew
    · rename_i set hset
      simp [hset] at h

theorem Inv.restart (hs : c.Inv s) (readable accepted : Bool) (f : Fetch) :
    c.Inv (c.restart s readable accepted f) := by
  have hnew : c.Inv { s with set := {}, fetched := false } :=
    { hs with etag := fun h => absurd rfl h, fetched := nofun }
  have hrestore := hnew.restore rfl readable accepted
  simp only [RemoteOptions.restart]
  split
  · rename_i hzero
    exact hrestore.fetch fun _ _ _ => .inl (lastEtag_restore rfl hzero)
  · exact hrestore

theorem Inv.publish (hs : c.Inv s) (server : Published) : c.Inv (s.publish server) := by
  unfold Remote.publish
  split
  · rename_i hnew
    refine
      { published := ?_
        server := .head _
        received := fun content etag hmem hne => .tail _ (hs.received content etag hmem hne)
        etag := hs.etag
        saved := hs.saved
        fetched := nofun }
    have hold : ∀ p ∈ s.published, p.etag ≠ "" → p.etag = server.etag → p.content = server.content := by
      intro p hp hne heq
      rcases hnew with hempty | hsame
      · exact absurd (heq.trans hempty) hne
      · exact hsame p hp heq
    intro p hp q hq hne heq
    rcases List.mem_cons.1 hp with rfl | hpold
    · rcases List.mem_cons.1 hq with rfl | hqold
      · rfl
      · exact (hold q hqold (heq ▸ hne) heq.symm).symm
    · rcases List.mem_cons.1 hq with rfl | hqold
      · exact hold p hpold hne heq
      · exact hs.published p hpold q hqold hne heq
  · exact hs

/-- As long as no answer without an ETag brings a new content while an ETag is
remembered, a fetch that returns nil leaves the server's content loaded, and the
saved content is saved with the ETag it came with. -/
theorem fetched_current {s : Remote H} (h : Reach c.system c.Tagged s) :
    (s.fetched = true → c.load s.server.content = some (s.set.rules, s.set.metadata)) ∧
      ∀ entry, s.saved = some entry → (entry.content, entry.lastEtag) ∈ s.received := by
  have hinv : c.Inv s := by
    refine h.inv c.Inv ?_ ?_
    · rintro s ⟨server, rfl⟩
      refine
        { published := ?_
          server := .head _
          received := nofun
          etag := fun h => absurd rfl h
          saved := nofun
          fetched := nofun }
      intro p hp q hq _ _
      rw [List.mem_singleton.1 hp, List.mem_singleton.1 hq]
    · rintro s op s' hs htagged rfl
      cases op with
      | fetch f => exact hs.fetch htagged
      | restart readable accepted f => exact hs.restart readable accepted f
      | publish server => exact hs.publish server
  exact ⟨hinv.fetched, hinv.saved⟩

end RemoteOptions

/-! ## Samples -/

/-- A set of one domain, which is its content. -/
def sampleRemote : RemoteOptions Unit Unit Content where
  decode content := some [.default { domain := [content] }]
  newHeadlessRule
    | .default rule => rule.domain.head?
    | .logical _ _ _ => none
  cacheFile := true

def sampleServer : Remote Content := ⟨{}, none, ⟨[1], "a"⟩, [⟨[1], "a"⟩], [], false⟩

theorem reach_sampleServer (ok : Remote Content → RemoteStep → Prop) : Reach sampleRemote.system ok sampleServer :=
  .init ⟨_, rfl⟩

/-- A fetch at time `now` at which nothing fails but what the answer says. -/
def sampleFetch (answer : FetchAnswer) (now : Nat) : Fetch := ⟨answer, now, true, true, true⟩

/-- The content changes, always with its ETag, and is restored at a restart. -/
def taggedSteps : List RemoteStep :=
  [.restart true true (sampleFetch (.ok true) 1), .publish ⟨[2], "b"⟩, .fetch (sampleFetch (.ok true) 2),
    .restart true true (sampleFetch .error 3), .fetch (sampleFetch .notModified 4)]

theorem fetched_current_taggedSteps :
    (taggedSteps.foldl sampleRemote.step sampleServer).fetched = true ∧
      sampleRemote.load [2] = some ([[2]], (taggedSteps.foldl sampleRemote.step sampleServer).set.metadata) := by
  have hreach : Reach sampleRemote.system sampleRemote.Tagged (taggedSteps.foldl sampleRemote.step sampleServer) := by
    refine .foldl (reach_sampleServer _) taggedSteps ⟨trivial, trivial, ?_, trivial, nofun, trivial⟩
    intro sent hanswer hheader
    cases hanswer
    exact absurd hheader (by decide)
  exact ⟨rfl, (RemoteOptions.fetched_current hreach).1 rfl⟩

/-- The content `[2]` comes without an ETag and is saved with that of `[1]`; when
the server has `[1]` again, it answers that nothing has changed. -/
theorem stale_of_untagged : ∃ s, Reach sampleRemote.system (fun _ _ => True) s ∧ s.fetched = true ∧
    sampleRemote.load s.server.content ≠ some (s.set.rules, s.set.metadata) ∧
    ∃ entry, s.saved = some entry ∧ (entry.content, entry.lastEtag) ∉ s.received := by
  refine ⟨_, Reach.foldl (reach_sampleServer _)
    [.restart true true (sampleFetch (.ok true) 1), .publish ⟨[2], ""⟩, .fetch (sampleFetch (.ok true) 2),
      .publish ⟨[1], "a"⟩, .fetch (sampleFetch .notModified 3)]
    ⟨trivial, trivial, trivial, trivial, trivial, trivial⟩, rfl, ?_, ⟨[2], 3, "a"⟩, rfl, ?_⟩
  · decide
  · decide

end Singlink.Rule
