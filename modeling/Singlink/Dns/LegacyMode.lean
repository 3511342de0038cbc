import Singlink.Dns.Router
import Singlink.Lib.Runs
import Singlink.Options.HeadlessRule
/-!
# The mode of the DNS router and reloads of rule sets

Rules and the metadata of the rule sets they name decide whether the router runs
in legacy mode. The decision is made at the start; later, a rule set that reloads
has its new metadata validated against that of the other sets, and then commits
it. Nothing is locked in between. The router stays in its mode as long as no
other set has changed when a set commits.
-/

namespace Singlink.Dns

open Lib Options List

/-! ## Rules as they are configured -/

/-- `option.DefaultDNSRule`, by the fields that bear on the mode. -/
structure DefaultDNSRuleOptions where
  ipVersion : Int := 0
  queryType : List UInt16 := []
  ipCIDR : List String := []
  ipIsPrivate : Bool := false
  ipAcceptAny : Bool := false
  matchResponse : Bool := false
  responseRcode : Option Nat := none
  responseAnswer : List RR := []
  responseNs : List RR := []
  responseExtra : List RR := []
  ruleSet : List String := []
  ruleSetIPCIDRMatchSource : Bool := false
  ruleSetIPCIDRAcceptEmpty : Bool := false
  action : DNSRuleAction

inductive DNSRuleOptions where
  | default (rule : DefaultDNSRuleOptions)
  | logical (rules : List DNSRuleOptions) (action : DNSRuleAction)

def DNSRuleOptions.action : DNSRuleOptions → DNSRuleAction
  | .default rule => rule.action
  | .logical _ action => action

namespace DNSRuleAction

def isEvaluate : DNSRuleAction → Bool
  | .evaluate _ _ => true
  | _ => false

def isRespond : DNSRuleAction → Bool
  | .respond => true
  | _ => false

def disablesLegacyDNSMode : DNSRuleAction → Bool
  | .route _ options => options.disableOptimisticCache
  | .evaluate _ options => options.disableOptimisticCache
  | .routeOptions options => options.disableOptimisticCache
  | _ => false

def hasStrategy : DNSRuleAction → Bool
  | .route _ options => options.strategy != .asIS
  | .evaluate _ options => options.strategy != .asIS
  | .routeOptions options => options.strategy != .asIS
  | _ => false

end DNSRuleAction

namespace DefaultDNSRuleOptions

def needsLegacyDNSModeFromAddressFilter (rule : DefaultDNSRuleOptions) : Bool :=
  if rule.ruleSetIPCIDRAcceptEmpty then true
  else !rule.matchResponse && (rule.ipAcceptAny || !rule.ipCIDR.isEmpty || rule.ipIsPrivate)

def hasResponseMatchFields (rule : DefaultDNSRuleOptions) : Bool :=
  rule.responseRcode.isSome || !rule.responseAnswer.isEmpty || !rule.responseNs.isEmpty || !rule.responseExtra.isEmpty

def disablesLegacyDNSMode (rule : DefaultDNSRuleOptions) : Bool :=
  rule.matchResponse || rule.hasResponseMatchFields || rule.action.isEvaluate || rule.action.isRespond ||
    0 < rule.ipVersion || !rule.queryType.isEmpty

end DefaultDNSRuleOptions

/-! ## What the rules require of the mode -/

/-- The errors of the mode checks, inside the rule they are found in. -/
inductive ModeError where
  | ruleSetNotFound (tag : String)
  | legacyDNSRuleStrategy
  | legacyDNSAddressFilter
  | ruleSetIPCIDRAcceptEmpty
  | responseMatchFields
  | noPrecedingEvaluate (rule : Nat)
  | inRule (rule : Nat) (err : ModeError)
  | inSubRule (rule : Nat) (err : ModeError)

/-- The metadata of the rule sets the router knows, by tag. -/
abbrev RuleSets := GoMap String RuleSetMetadata

def lookupDNSRuleSetMetadata (sets metadataOverrides : RuleSets) (tag : String) : Except ModeError RuleSetMetadata :=
  match metadataOverrides.lookup tag with
  | some metadata => .ok metadata
  | none =>
    match sets.lookup tag with
    | some metadata => .ok metadata
    | none => .error (.ruleSetNotFound tag)

structure DnsRuleModeFlags where
  disabled : Bool := false
  needed : Bool := false
  neededFromStrategy : Bool := false

def DnsRuleModeFlags.merge (f other : DnsRuleModeFlags) : DnsRuleModeFlags where
  disabled := f.disabled || other.disabled
  needed := f.needed || other.needed
  neededFromStrategy := f.neededFromStrategy || other.neededFromStrategy

section

variable (lookup : String → Except ModeError RuleSetMetadata)

def dnsRuleModeRequirementsInDefaultRule (rule : DefaultDNSRuleOptions) : Except ModeError DnsRuleModeFlags :=
  let flags : DnsRuleModeFlags :=
    { disabled := rule.disablesLegacyDNSMode || rule.action.disablesLegacyDNSMode
      needed := rule.needsLegacyDNSModeFromAddressFilter || rule.action.hasStrategy
      neededFromStrategy := rule.action.hasStrategy }
  rule.ruleSet.foldlM (fun flags tag => do
    let metadata ← lookup tag
    return { flags with
      disabled := flags.disabled || metadata.containsDNSQueryTypeRule
      needed := flags.needed || (!rule.ruleSetIPCIDRMatchSource && metadata.containsIPCIDRRule) }) flags

mutual
def dnsRuleModeRequirementsInRule : DNSRuleOptions → Except ModeError DnsRuleModeFlags
  | .default rule => dnsRuleModeRequirementsInDefaultRule lookup rule
  | .logical rules action =>
    dnsRuleModeRequirementsInSubRules rules 0
      { disabled := action.isEvaluate || action.isRespond || action.disablesLegacyDNSMode
        needed := action.hasStrategy
        neededFromStrategy := action.hasStrategy }

def dnsRuleModeRequirementsInSubRules : List DNSRuleOptions → Nat → DnsRuleModeFlags → Except ModeError DnsRuleModeFlags
  | [], _, flags => .ok flags
  | rule :: rules, i, flags =>
    match dnsRuleModeRequirementsInRule rule with
    | .error err => .error (.inSubRule i err)
    | .ok subFlags => dnsRuleModeRequirementsInSubRules rules (i + 1) (flags.merge subFlags)
end

/-- `dnsRuleModeRequirements`, from rule `i` on. -/
def dnsRuleModeRequirements : List DNSRuleOptions → Nat → DnsRuleModeFlags → Except ModeError DnsRuleModeFlags
  | [], _, flags => .ok flags
  | rule :: rules, i, flags =>
    match dnsRuleModeRequirementsInRule lookup rule with
    | .error err => .error (.inRule i err)
    | .ok ruleFlags => dnsRuleModeRequirements rules (i + 1) (flags.merge ruleFlags)

def resolveLegacyDNSMode (rules : List DNSRuleOptions) : Except ModeError (Bool × DnsRuleModeFlags) :=
  match dnsRuleModeRequirements lookup rules 0 {} with
  | .error err => .error err
  | .ok flags =>
    if flags.disabled && flags.neededFromStrategy then .error .legacyDNSRuleStrategy
    else if flags.disabled then .ok (false, flags)
    else .ok (flags.needed, flags)

/-! ## What rules may do outside legacy mode -/

/-- The check of the rule sets of a rule that does not match the response: a set
of IP rules only could never match. -/
def refusePureIPSets : List String → Except ModeError Unit
  | [] => .ok ()
  | tag :: tags =>
    match lookup tag with
    | .error err => .error err
    | .ok metadata =>
      if metadata.containsIPCIDRRule && !metadata.containsNonIPCIDRRule then .error .legacyDNSAddressFilter
      else refusePureIPSets tags

/-- `validateLegacyDNSModeDisabledDefaultRule`: whether the rule needs an
`evaluate` action before it. -/
def validateLegacyDNSModeDisabledDefaultRule (rule : DefaultDNSRuleOptions) : Except ModeError Bool :=
  if (rule.hasResponseMatchFields || !rule.ipCIDR.isEmpty || rule.ipIsPrivate || rule.ipAcceptAny) &&
      !rule.matchResponse then .error .responseMatchFields
  else
    match if rule.matchResponse then .ok () else refusePureIPSets lookup rule.ruleSet with
    | .error err => .error err
    | .ok _ =>
      if rule.ruleSetIPCIDRAcceptEmpty then .error .ruleSetIPCIDRAcceptEmpty
      else .ok (rule.matchResponse || rule.action.isRespond)

mutual
def validateLegacyDNSModeDisabledRuleTree : DNSRuleOptions → Except ModeError Bool
  | .default rule => validateLegacyDNSModeDisabledDefaultRule lookup rule
  | .logical rules action => validateLegacyDNSModeDisabledSubRules rules 0 action.isRespond

def validateLegacyDNSModeDisabledSubRules : List DNSRuleOptions → Nat → Bool → Except ModeError Bool
  | [], _, requiresPriorEvaluate => .ok requiresPriorEvaluate
  | rule :: rules, i, requiresPriorEvaluate =>
    match validateLegacyDNSModeDisabledRuleTree rule with
    | .error err => .error (.inSubRule i err)
    | .ok sub => validateLegacyDNSModeDisabledSubRules rules (i + 1) (requiresPriorEvaluate || sub)
end

/-- `validateLegacyDNSModeDisabledRules`, from rule `i` on. -/
def validateLegacyDNSModeDisabledRules : List DNSRuleOptions → Nat → Bool → Except ModeError Unit
  | [], _, _ => .ok ()
  | rule :: rules, i, seenEvaluate =>
    match validateLegacyDNSModeDisabledRuleTree lookup rule with
    | .error err => .error (.inRule i err)
    | .ok requiresPriorEvaluate =>
      if requiresPriorEvaluate && !seenEvaluate then .error (.noPrecedingEvaluate i)
      else validateLegacyDNSModeDisabledRules rules (i + 1) (seenEvaluate || rule.action.isEvaluate)

end

/-! ## Validation of new metadata -/

/-- The router, by the fields `ValidateRuleSetMetadataUpdate` reads. -/
structure RouterMode where
  rawRules : List DNSRuleOptions
  started : Bool
  legacyDNSMode : Bool
  closing : Bool

/-- `ValidateRuleSetMetadataUpdate`, against the metadata `sets` of the rule sets. -/
def RouterMode.validateRuleSetMetadataUpdate (r : RouterMode) (sets : RuleSets) (tag : String)
    (metadata : RuleSetMetadata) : Except ModeError Unit :=
  let lookup := lookupDNSRuleSetMetadata sets ((∅ : RuleSets).insert tag metadata)
  if r.rawRules.isEmpty then .ok ()
  else if r.closing then .ok ()
  else
    match resolveLegacyDNSMode lookup r.rawRules with
    | .error err => .error err
    | .ok (candidateLegacyDNSMode, flags) =>
      if !r.started then
        if !candidateLegacyDNSMode then validateLegacyDNSModeDisabledRules lookup r.rawRules 0 false
        else .ok ()
      else if r.legacyDNSMode then
        if !candidateLegacyDNSMode && flags.disabled then
          match validateLegacyDNSModeDisabledRules lookup r.rawRules 0 false with
          | .error err => .error err
          | .ok _ => .error .legacyDNSAddressFilter
        else .ok ()
      else if candidateLegacyDNSMode then .error .legacyDNSAddressFilter
      else validateLegacyDNSModeDisabledRules lookup r.rawRules 0 false

/-- A router that was started outside legacy mode. -/
def RouterMode.nonLegacy (rules : List DNSRuleOptions) : RouterMode where
  rawRules := rules
  started := true
  legacyDNSMode := false
  closing := false

/-- The metadata of the sets calls for no legacy mode, and the rules are allowed
without it. -/
structure NonLegacy (rules : List DNSRuleOptions) (lookup : String → Except ModeError RuleSetMetadata) : Prop where
  mode : ∃ flags, resolveLegacyDNSMode lookup rules = .ok (false, flags)
  rules : validateLegacyDNSModeDisabledRules lookup rules 0 false = .ok ()

/-- An update is validated against the metadata there is with its own in place. -/
theorem lookup_override (sets : RuleSets) (tag : String) (metadata : RuleSetMetadata) :
    lookupDNSRuleSetMetadata sets ((∅ : RuleSets).insert tag metadata) =
      lookupDNSRuleSetMetadata (sets.insert tag metadata) ∅ := by
  funext t
  unfold lookupDNSRuleSetMetadata
  rw [GoMap.lookup_insert_eq, GoMap.lookup_insert_eq, AList.lookup_empty]
  by_cases ht : t = tag
  · rw [if_pos ht, if_pos ht]
  · rw [if_neg ht, if_neg ht]

theorem nonLegacy_nil (lookup : String → Except ModeError RuleSetMetadata) : NonLegacy [] lookup where
  mode := ⟨{}, rfl⟩
  rules := rfl

variable {rules : List DNSRuleOptions}

/-- What passes the validation keeps the router out of legacy mode. -/
theorem nonLegacy_of_validated {sets : RuleSets} {tag : String} {metadata : RuleSetMetadata}
    (h : (RouterMode.nonLegacy rules).validateRuleSetMetadataUpdate sets tag metadata = .ok ()) :
    NonLegacy rules (lookupDNSRuleSetMetadata (sets.insert tag metadata) ∅) := by
  rw [← lookup_override]
  cases rules with
  | nil => exact nonLegacy_nil _
  | cons rule rules =>
    simp only [RouterMode.validateRuleSetMetadataUpdate, RouterMode.nonLegacy, isEmpty_cons, Bool.false_eq_true,
      if_false, Bool.not_true] at h
    split at h
    · cases h
    · rename_i candidate flags hmode
      split at h
      · cases h
      · rename_i hcandidate
        rw [Bool.eq_false_of_not_eq_true hcandidate] at hmode
        exact ⟨⟨flags, hmode⟩, h⟩

/-! ## Reloads of several sets -/

/-- New metadata that was validated and not committed yet, with the metadata of
the sets it was validated against. -/
structure Update where
  tag : String
  metadata : RuleSetMetadata
  seen : RuleSets

structure Reloads where
  sets : RuleSets
  updates : List Update
  closed : List String

/-- A step of a reload of a rule set: `reloadRules` and `loadBytes` validate the
metadata of the new rules, and commit it unless the set was closed. -/
inductive ReloadStep where
  | validate (tag : String) (metadata : RuleSetMetadata)
  | commit (update : Nat)
  | close (tag : String)

def Reloads.validate (rules : List DNSRuleOptions) (s : Reloads) (tag : String) (metadata : RuleSetMetadata) : Reloads :=
  if tag ∈ s.sets then
    match (RouterMode.nonLegacy rules).validateRuleSetMetadataUpdate s.sets tag metadata with
    | .error _ => s
    | .ok _ => { s with updates := s.updates ++ [⟨tag, metadata, s.sets⟩] }
  else s

def Reloads.commit (s : Reloads) (update : Nat) : Reloads :=
  match s.updates[update]? with
  | none => s
  | some u =>
    if u.tag ∈ s.closed then { s with updates := s.updates.eraseIdx update }
    else { s with updates := s.updates.eraseIdx update, sets := s.sets.insert u.tag u.metadata }

def Reloads.step (rules : List DNSRuleOptions) (s : Reloads) : ReloadStep → Reloads
  | .validate tag metadata => s.validate rules tag metadata
  | .commit update => s.commit update
  | .close tag => { s with closed := tag :: s.closed }

/-- The sets under a router that started outside legacy mode. -/
def reloads (rules : List DNSRuleOptions) : System Reloads ReloadStep :=
  .ofStep (fun s => NonLegacy rules (lookupDNSRuleSetMetadata s.sets ∅) ∧ s.updates = []) (Reloads.step rules)

/-- A set commits only if no other set has changed since its update was validated. -/
def Unchanged (s : Reloads) : ReloadStep → Prop
  | .commit update => ∀ u, s.updates[update]? = some u → ∀ tag, tag ≠ u.tag → s.sets.lookup tag = u.seen.lookup tag
  | _ => True

/-- Every update that waits is good for the sets it was validated against. -/
structure Reloads.Inv (rules : List DNSRuleOptions) (s : Reloads) : Prop where
  sets : NonLegacy rules (lookupDNSRuleSetMetadata s.sets ∅)
  updates : ∀ u ∈ s.updates, NonLegacy rules (lookupDNSRuleSetMetadata (u.seen.insert u.tag u.metadata) ∅)

theorem lookup_insert_congr {sets seen : RuleSets} {tag : String} (metadata : RuleSetMetadata)
    (h : ∀ t, t ≠ tag → sets.lookup t = seen.lookup t) :
    lookupDNSRuleSetMetadata (sets.insert tag metadata) ∅ = lookupDNSRuleSetMetadata (seen.insert tag metadata) ∅ := by
  funext t
  have hsame : (sets.insert tag metadata).lookup t = (seen.insert tag metadata).lookup t := by
    rw [GoMap.lookup_insert_eq, GoMap.lookup_insert_eq]
    by_cases ht : t = tag
    · rw [if_pos ht, if_pos ht]
    · rw [if_neg ht, if_neg ht, h t ht]
  unfold lookupDNSRuleSetMetadata
  rw [hsame]

theorem Reloads.Inv.validate {s : Reloads} (hs : s.Inv rules) (tag : String)
    (metadata : RuleSetMetadata) : (s.validate rules tag metadata).Inv rules := by
  unfold Reloads.validate
  split
  · split
    · exact hs
    · rename_i hvalid
      refine ⟨hs.sets, fun u hu => ?_⟩
      rcases mem_append.1 hu with hu | hu
      · exact hs.updates u hu
      · obtain rfl := mem_singleton.1 hu
        exact nonLegacy_of_validated hvalid
  · exact hs

theorem Reloads.Inv.commit {s : Reloads} (hs : s.Inv rules) {update : Nat}
    (hsame : Unchanged s (.commit update)) : (s.commit update).Inv rules := by
  have hrest : ∀ u ∈ s.updates.eraseIdx update,
      NonLegacy rules (lookupDNSRuleSetMetadata (u.seen.insert u.tag u.metadata) ∅) :=
    fun u hu => hs.updates u (mem_of_mem_eraseIdx hu)
  unfold Reloads.commit
  split
  · exact hs
  · rename_i u hu
    split
    · exact ⟨hs.sets, hrest⟩
    · refine ⟨?_, hrest⟩
      -- the sets are now those the update was validated against, with its own metadata in place
      have hgood := hs.updates u (mem_of_getElem? hu)
      rw [← lookup_insert_congr u.metadata (hsame u hu)] at hgood
      exact hgood

/-- While sets commit only updates whose validation no other commit has made
stale, the committed metadata keeps the router out of legacy mode, and its rules
allowed. -/
theorem nonLegacy_of_reach (rules : List DNSRuleOptions) {s : Reloads} (h : Reach (reloads rules) Unchanged s) :
    NonLegacy rules (lookupDNSRuleSetMetadata s.sets ∅) := by
  refine (h.inv (Reloads.Inv rules) ?_ ?_).sets
  · rintro s ⟨hs, hupdates⟩
    refine ⟨hs, fun u hu => ?_⟩
    rw [hupdates] at hu
    cases hu
  · rintro s op s' hs hok rfl
    cases op with
    | validate tag metadata => exact hs.validate tag metadata
    | commit update => exact hs.commit hok
    | close tag => exact ⟨hs.sets, hs.updates⟩

/-- Two rules, each for the queries of a rule set. -/
def sampleModeRules : List DNSRuleOptions :=
  [.default { ruleSet := ["geo"], action := .route "local" {} },
    .default { ruleSet := ["ads"], action := .route "remote" {} }]

def domainSet : RuleSetMetadata :=
  buildRuleSetMetadata ([.default { domain := [[97]] }] : List (HeadlessRule Unit Unit))

/-- A query type keeps the router out of legacy mode. -/
def queryTypeSet : RuleSetMetadata :=
  buildRuleSetMetadata ([.default { queryType := [28] }] : List (HeadlessRule Unit Unit))

/-- A domain or an address of `::/0`: the address calls for legacy mode. -/
def addressSet : RuleSetMetadata :=
  buildRuleSetMetadata
    ([.default { domain := [[97]] }, .default { ipCIDR := [[58, 58, 47, 48]] }] : List (HeadlessRule Unit Unit))

def sampleReloads : Reloads where
  sets := ((∅ : RuleSets).insert "geo" queryTypeSet).insert "ads" domainSet
  updates := []
  closed := []

theorem reach_sampleReloads (ok : Reloads → ReloadStep → Prop) : Reach (reloads sampleModeRules) ok sampleReloads :=
  .init ⟨⟨⟨_, rfl⟩, rfl⟩, rfl⟩

/-- One reload after the other: the second is refused. -/
def oneByOne : List ReloadStep :=
  [.validate "geo" domainSet, .commit 0, .validate "ads" addressSet, .commit 0]

theorem nonLegacy_of_reach_oneByOne :
    (oneByOne.foldl (Reloads.step sampleModeRules) sampleReloads).sets.lookup "geo" = some domainSet ∧
      NonLegacy sampleModeRules
        (lookupDNSRuleSetMetadata (oneByOne.foldl (Reloads.step sampleModeRules) sampleReloads).sets ∅) := by
  refine ⟨by decide, nonLegacy_of_reach sampleModeRules (Reach.foldl (reach_sampleReloads _) oneByOne ?_)⟩
  refine ⟨trivial, ?_, trivial, nofun, trivial⟩
  rintro u ⟨⟩ tag -
  rfl

/-- Both sets are validated before either commits: `geo` gives up its query type
while `ads` has no address, and `ads` gets one while `geo` has its query type. -/
theorem legacy_of_interleaved : ∃ s, Reach (reloads sampleModeRules) (fun _ _ => True) s ∧
    ¬ NonLegacy sampleModeRules (lookupDNSRuleSetMetadata s.sets ∅) := by
  refine ⟨_, Reach.foldl (reach_sampleReloads _)
    [.validate "geo" domainSet, .validate "ads" addressSet, .commit 0, .commit 0]
    ⟨trivial, trivial, trivial, trivial, trivial⟩, ?_⟩
  rintro ⟨⟨flags, hmode⟩, -⟩
  cases hmode

end Singlink.Dns
