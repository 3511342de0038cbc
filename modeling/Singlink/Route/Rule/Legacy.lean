import Singlink.Route.Rule.RuleSet
/-!
# Matching in legacy DNS mode

The part of `rule_dns.go` that only legacy mode calls. There a rule is matched
twice: before the exchange with its destination IP items ignored
(`LegacyPreMatch`), and against the answer (`MatchAddressLimit`), if it has such
items in itself or in its rule sets (`WithAddressLimit`).
-/

namespace Singlink.Rule

open RuleMatchStateSet List

variable {Ctx Msg S D : Type}

/-! ## Definitions -/

namespace RuleTree

mutual
/-- `HasHeadlessRule`, and the loop of `LogicalDNSRule.WithAddressLimit`. -/
def hasRule (cond : D → Bool) : RuleTree D → Bool
  | .default rule => cond rule
  | .logical _ _ rules => hasSomeRule cond rules

def hasSomeRule (cond : D → Bool) : List (RuleTree D) → Bool
  | [] => false
  | rule :: rules => hasRule cond rule || hasSomeRule cond rules
end

end RuleTree

/-- `isIPCIDRHeadlessRule`: `ip_cidr` and `ip_set` both become destination IP
items. -/
def AbstractDefaultRule.isIPCIDRRule (r : AbstractDefaultRule Ctx Msg S) : Bool := !r.destinationIPCIDRItems.isEmpty

def RuleSet.containsIPCIDRRule (s : RuleSet Ctx Msg) : Bool :=
  RuleTree.hasSomeRule AbstractDefaultRule.isIPCIDRRule s.rules

def RuleSetItem.containsDestinationIPCIDRRule (s : RuleSetItem Ctx Msg) : Bool :=
  if s.ipCidrMatchSource then false else s.setList.any RuleSet.containsIPCIDRRule

def DefaultDNSRule.withAddressLimit (r : DefaultDNSRule Ctx Msg) : Bool :=
  if !r.destinationIPCIDRItems.isEmpty then true
  else
    match r.ruleSetItem with
    | some ruleSet => ruleSet.containsDestinationIPCIDRRule
    | none => false

/-- Metadata whose `IgnoreDestinationIPCIDRMatch` is set. -/
def InboundContext.ignoring (m : InboundContext Ctx Msg) : InboundContext Ctx Msg :=
  { m with ignoreDestinationIPCIDRMatch := true }

/-- Metadata with the answer of an exchange, for its destination IP items. -/
def InboundContext.answered (m : InboundContext Ctx Msg) (response : Msg) : InboundContext Ctx Msg :=
  { m with dnsResponse := some response, destinationAddressMatchFromResponse := true }

def DefaultDNSRule.legacyPreMatch (r : DefaultDNSRule Ctx Msg) (m : InboundContext Ctx Msg) : Bool :=
  if r.matchResponse then false else !isEmpty (r.matchStatesWithBase m.ignoring 0#4)

namespace DNSRule

def withAddressLimit : DNSRule Ctx Msg → Bool := RuleTree.hasRule DefaultDNSRule.withAddressLimit

/-- `LegacyPreMatch`; a logical rule does not look at `match_response` of the
rules in it. -/
def legacyPreMatch (t : DNSRule Ctx Msg) (m : InboundContext Ctx Msg) : Bool :=
  match t with
  | .default rule => rule.legacyPreMatch m
  | .logical _ _ _ => !isEmpty (t.matchStates m.ignoring)

def matchAddressLimit (t : DNSRule Ctx Msg) (m : InboundContext Ctx Msg) (response : Msg) : Bool :=
  !isEmpty (t.matchStates (m.answered response))

end DNSRule

/-! ## Rules that nothing is ignored of -/

/-- A rule without destination IP items, also in the rule sets it names. -/
structure AbstractDefaultRule.NoIPItems (r : DefaultRule Ctx Msg) : Prop where
  own : r.destinationIPCIDRItems = []
  sets : ∀ s, r.ruleSetItem = some s → ∀ set ∈ s.setList, ∀ t ∈ set.rules,
    RuleTree.Leaves (fun h : AbstractDefaultRule Ctx Msg Empty => h.destinationIPCIDRItems = []) t

namespace AbstractDefaultRule

theorem matchGroup_ignoring (items : List (RuleItem Ctx Msg)) (flag b : RuleMatchState) (m : InboundContext Ctx Msg) :
    matchGroup items flag (b, m.ignoring) =
      ((matchGroup items flag (b, m)).1, (matchGroup items flag (b, m)).2.ignoring) := by
  unfold matchGroup
  split
  · rfl
  · rfl

variable {r : AbstractDefaultRule Ctx Msg S}

attribute [local simp] destinationIPCIDRMatchesDestination destinationIPCIDRMatchesSource

theorem matchGroups_ignoring (hr : r.destinationIPCIDRItems = []) (m : InboundContext Ctx Msg) (b : RuleMatchState) :
    r.matchGroups m.ignoring b = ((r.matchGroups m b).1, (r.matchGroups m b).2.ignoring) := by
  simp [matchGroups, hr, matchIPCIDRGroup, matchGroup_ignoring]

theorem satisfied_of_noIPItems (hr : r.destinationIPCIDRItems = [])
    (m m' : InboundContext Ctx Msg) : r.satisfied m = r.satisfied m' := by
  funext state
  simp [satisfied, requiresSourceAddressMatch, requiresDestinationAddressMatch, hr]

theorem matchStatesWithBase_ignoring {ruleSet : S → InboundContext Ctx Msg → RuleMatchState → RuleMatchStateSet}
    (hr : r.destinationIPCIDRItems = [])
    (hset : ∀ s, r.ruleSetItem = some s → ∀ m b, ruleSet s m.ignoring b = ruleSet s m b)
    (m : InboundContext Ctx Msg) (b : RuleMatchState) :
    r.matchStatesWithBase ruleSet m.ignoring b = r.matchStatesWithBase ruleSet m b := by
  cases hne : r.allItems.isEmpty with
  | true => simp [matchStatesWithBase, hne]
  | false =>
    have honly : r.onlyIP = false := by rwa [onlyIP, withoutIP, ← hr]
    rw [r.matchStatesWithBase_eq ruleSet m.ignoring (fun _ _ _ => honly) b hne,
      r.matchStatesWithBase_eq ruleSet m (fun _ _ _ => honly) b hne]
    simp only [matchGroups_ignoring hr, satisfied_of_noIPItems hr m.ignoring m]
    cases hs : r.ruleSetItem with
    | none => rfl
    | some item =>
      simp only [Option.elim_some, ← hset item hs { m with didMatch := true }]
      rfl

end AbstractDefaultRule

namespace RuleTree

variable {leaf : D → InboundContext Ctx Msg → RuleMatchState → RuleMatchStateSet} {P : D → Prop}
  {t : RuleTree D} {cond : D → Bool}

theorem matchStatesWithBase_ignoring (hleaf : ∀ r, P r → ∀ m b, leaf r m.ignoring b = leaf r m b)
    (ht : t.Leaves P) (m : InboundContext Ctx Msg) (b : RuleMatchState) :
    matchStatesWithBase leaf t m.ignoring b = matchStatesWithBase leaf t m b := by
  induction ht generalizing m b with
  | default hr => exact hleaf _ hr m b
  | @logical mode invert rules _ ih =>
    have hsets : ∀ b, rules.map (matchStatesWithBase leaf · m.ignoring.resetRuleCache b) =
        rules.map (matchStatesWithBase leaf · m.resetRuleCache b) :=
      fun b => map_congr_left fun t ht => ih t ht m.resetRuleCache b
    cases invert with
    | false => simp only [matchStatesWithBase_logical, hsets]
    | true => simp only [matchStatesWithBase_inverted, matchStatesWithBase_logical, hsets]

theorem hasSomeRule_eq_false {ts : List (RuleTree D)} (h : ∀ t ∈ ts, hasRule cond t = false) :
    hasSomeRule cond ts = false := by
  induction ts with
  | nil => rfl
  | cons t ts ih =>
    rw [hasSomeRule, h t mem_cons_self]
    exact ih fun t ht => h t (mem_cons_of_mem _ ht)

theorem hasRule_eq_false (ht : t.Leaves fun r => cond r = false) : hasRule cond t = false := by
  induction ht with
  | default hr => exact hr
  | logical _ ih => exact hasSomeRule_eq_false ih

end RuleTree

theorem HeadlessRule.matchStatesWithBase_ignoring {t : HeadlessRule Ctx Msg}
    (ht : RuleTree.Leaves (fun h => h.destinationIPCIDRItems = []) t) (m : InboundContext Ctx Msg) (b : RuleMatchState) :
    t.matchStatesWithBase m.ignoring b = t.matchStatesWithBase m b :=
  RuleTree.matchStatesWithBase_ignoring
    (fun h hh m b => h.matchStatesWithBase_ignoring hh (fun s _ => s.elim) m b) ht m b

theorem RuleSetItem.matchStatesWithBase_ignoring {s : RuleSetItem Ctx Msg} (hs : ∀ set ∈ s.setList, ∀ t ∈ set.rules,
      RuleTree.Leaves (fun h : AbstractDefaultRule Ctx Msg Empty => h.destinationIPCIDRItems = []) t)
    (m : InboundContext Ctx Msg) (b : RuleMatchState) :
    s.matchStatesWithBase m.ignoring b = s.matchStatesWithBase m b := by
  have hnested : s.nestedMetadata m.ignoring = (s.nestedMetadata m).ignoring := rfl
  apply ext_contains
  intro x
  rw [Bool.eq_iff_iff]
  simp only [RuleSetItem.contains_matchStatesWithBase, hnested]
  refine exists_congr fun set => and_congr_right fun hset => exists_congr fun t => and_congr_right fun ht => ?_
  rw [HeadlessRule.matchStatesWithBase_ignoring (hs set hset t ht)]

theorem DefaultDNSRule.matchStatesWithBase_ignoring {r : DefaultDNSRule Ctx Msg} (hr : r.toAbstractDefaultRule.NoIPItems)
    (m : InboundContext Ctx Msg) (b : RuleMatchState) : r.matchStatesWithBase m.ignoring b = r.matchStatesWithBase m b :=
  AbstractDefaultRule.matchStatesWithBase_ignoring hr.own
    (fun s hs => RuleSetItem.matchStatesWithBase_ignoring (hr.sets s hs)) m b

namespace DNSRule

theorem legacyPreMatch_eq_isMatch {t : DNSRule Ctx Msg}
    (ht : t.Leaves fun r => r.toAbstractDefaultRule.NoIPItems ∧ r.matchResponse = false) (m : InboundContext Ctx Msg) :
    t.legacyPreMatch m = t.isMatch m := by
  have hsame := matchStatesForMatch_eq (ht.mono fun r hr => hr.2) m
  have hignore : t.matchStates m.ignoring = t.matchStates m :=
    RuleTree.matchStatesWithBase_ignoring (fun r hr => DefaultDNSRule.matchStatesWithBase_ignoring hr)
      (ht.mono fun r hr => hr.1) m 0#4
  rw [isMatch, hsame, ← hignore]
  cases ht with
  | default hr =>
    rw [legacyPreMatch, DefaultDNSRule.legacyPreMatch, hr.2]
    rfl
  | logical _ => rfl

theorem withAddressLimit_eq_false {t : DNSRule Ctx Msg} (ht : t.Leaves fun r => r.toAbstractDefaultRule.NoIPItems) :
    t.withAddressLimit = false := by
  refine RuleTree.hasRule_eq_false (ht.mono fun r hr => ?_)
  have hown : r.destinationIPCIDRItems = [] := hr.own
  simp only [DefaultDNSRule.withAddressLimit, hown, isEmpty_nil, Bool.not_true, Bool.false_eq_true, if_false]
  cases hs : r.ruleSetItem with
  | none => rfl
  | some s =>
    simp only [RuleSetItem.containsDestinationIPCIDRRule]
    split
    · rfl
    · rw [any_eq_false]
      intro set hset
      rw [Bool.not_eq_true]
      refine RuleTree.hasSomeRule_eq_false fun t ht => RuleTree.hasRule_eq_false ((hr.sets s hs set hset t ht).mono ?_)
      intro h hh
      rw [AbstractDefaultRule.isIPCIDRRule, hh]
      rfl

end DNSRule

end Singlink.Rule
