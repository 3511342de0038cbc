import Singlink.Route.Rule.Meaning
/-!
# Rule sets inside a rule

A default rule with a `rule_set` item hands its own flags down as the base each
member of the sets is matched from, and filters what comes back. Here that is
shown to be the same as matching, for some member, the one rule that has the
items of both (`united`).
-/

namespace Singlink.Rule

open RuleMatchStateSet AbstractDefaultRule List DefaultRule

variable {Ctx Msg S : Type}

/-! ## The united rule -/

/-- An item of a member, looking at the metadata the rule set is matched
against. -/
def RuleSetItem.underFlags (s : RuleSetItem Ctx Msg) (item : RuleItem Ctx Msg) : RuleItem Ctx Msg := fun v =>
  item { v with ipCIDRMatchSource := s.ipCidrMatchSource, ipCIDRAcceptEmpty := s.ipCidrAcceptEmpty }

/-- The rule with the items of `r` and of the member `h`, group by group. The
`ip_cidr` items of `h` are source address items if the rule set item says so
(`rule_set_ip_cidr_match_source`) and destination address items if not. -/
def AbstractDefaultRule.united (r : DefaultRule Ctx Msg) (s : RuleSetItem Ctx Msg)
    (h : AbstractDefaultRule Ctx Msg Empty) : DefaultRule Ctx Msg where
  items := r.items ++ h.items.map s.underFlags
  sourceAddressItems := r.sourceAddressItems ++ h.sourceAddressItems.map s.underFlags ++
    if s.ipCidrMatchSource then h.destinationIPCIDRItems.map s.underFlags else []
  sourcePortItems := r.sourcePortItems ++ h.sourcePortItems.map s.underFlags
  destinationAddressItems := r.destinationAddressItems ++ h.destinationAddressItems.map s.underFlags ++
    if s.ipCidrMatchSource then [] else h.destinationIPCIDRItems.map s.underFlags
  destinationIPCIDRItems := r.destinationIPCIDRItems
  destinationPortItems := r.destinationPortItems ++ h.destinationPortItems.map s.underFlags
  ruleSetItem := none
  invert := false

/-- A member of one of the sets: a default headless rule. -/
def RuleSetItem.Member (s : RuleSetItem Ctx Msg) (h : AbstractDefaultRule Ctx Msg Empty) : Prop :=
  ∃ set ∈ s.setList, RuleTree.default h ∈ set.rules

/-- The sets hold non-inverted default headless rules only. -/
def RuleSetItem.DefaultMembers (s : RuleSetItem Ctx Msg) : Prop :=
  ∀ set ∈ s.setList, ∀ rule ∈ set.rules, ∃ h, rule = RuleTree.default h ∧ h.invert = false

/-! ## States of a rule set -/

theorem contains_foldl_merge {α : Type} (f : α → RuleMatchStateSet) (l : List α) (acc : RuleMatchStateSet)
    (x : RuleMatchState) : contains (l.foldl (fun acc a => merge acc (f a)) acc) x = true ↔
      contains acc x = true ∨ ∃ a ∈ l, contains (f a) x = true := by
  induction l generalizing acc with
  | nil => simp
  | cons a l ih =>
    rw [foldl_cons, ih, contains_merge, Bool.or_eq_true, or_assoc]
    simp

theorem RuleSet.contains_matchStatesWithBase (set : RuleSet Ctx Msg) (m : InboundContext Ctx Msg)
    (b x : RuleMatchState) : contains (set.matchStatesWithBase m b) x = true ↔
      ∃ rule ∈ set.rules, contains (rule.matchStatesWithBase m.resetRuleMatchCache b) x = true := by
  unfold RuleSet.matchStatesWithBase
  rw [contains_foldl_merge (fun rule : HeadlessRule Ctx Msg => rule.matchStatesWithBase m.resetRuleMatchCache b)]
  simp

theorem RuleSetItem.contains_matchStatesWithBase (s : RuleSetItem Ctx Msg) (m : InboundContext Ctx Msg)
    (b x : RuleMatchState) : contains (s.matchStatesWithBase m b) x = true ↔
      ∃ set ∈ s.setList, ∃ rule ∈ set.rules, contains (rule.matchStatesWithBase (s.nestedMetadata m) b) x = true := by
  unfold RuleSetItem.matchStatesWithBase
  rw [contains_foldl_merge (fun set : RuleSet Ctx Msg => set.matchStatesWithBase (s.nestedMetadata m) b)]
  simp [RuleSet.contains_matchStatesWithBase, RuleSetItem.nestedMetadata, InboundContext.resetRuleMatchCache]

namespace AbstractDefaultRule

attribute [local simp] destinationIPCIDRMatchesDestination destinationIPCIDRMatchesSource

variable (r : AbstractDefaultRule Ctx Msg S)

theorem passes_of_allItems (h : r.allItems = []) (m : InboundContext Ctx Msg)
    (b : RuleMatchState) : r.passes m b = true ∧ (r.matchGroups m b).1 = b := by
  simp only [allItems, append_eq_nil_iff, map_eq_nil_iff] at h
  obtain ⟨⟨⟨⟨⟨⟨hi, hsa⟩, hsp⟩, hda⟩, hip⟩, hdp⟩, -⟩ := h
  have hgroups : (r.matchGroups m b).1 = b := by
    simp [matchGroups, matchGroup, matchIPCIDRGroup, hsa, hsp, hda, hip, hdp]
  refine ⟨?_, hgroups⟩
  simp [passes, satisfied_eq, requiresSourceAddressMatch, requiresDestinationAddressMatch, hi, hsa, hsp, hda, hip, hdp]

theorem matchStatesWithBase_of_not_invert (ruleSet : S → InboundContext Ctx Msg → RuleMatchState → RuleMatchStateSet)
    (r : AbstractDefaultRule Ctx Msg S) (hr : r.ruleSetItem = none) (hinv : r.invert = false)
    (m : InboundContext Ctx Msg) (b : RuleMatchState) :
    r.matchStatesWithBase ruleSet m b =
      if r.passes m b then singleRuleMatchState (r.matchGroups m b).1 else 0#16 := by
  by_cases hne : r.allItems = []
  · obtain ⟨hpass, hgroups⟩ := r.passes_of_allItems hne m b
    rw [hpass, hgroups]
    unfold matchStatesWithBase
    rw [hne, isEmpty_nil, if_pos rfl]
    apply ext_contains
    intro x
    rw [Bool.eq_iff_iff, contains_withBase]
    simp
  · rw [r.matchStatesWithBase_of_none ruleSet m hr (fun h => nomatch hinv ▸ h) b (by simpa using hne), hinv]
    rfl

/-! ## Matching the united rule -/

section united

variable (r : DefaultRule Ctx Msg) (s : RuleSetItem Ctx Msg) (h : AbstractDefaultRule Ctx Msg Empty)
  (m : InboundContext Ctx Msg) (items : List (RuleItem Ctx Msg))

theorem any_map_underFlags :
    (items.map s.underFlags).any (· m.toItemContext) = items.any (· (s.nestedMetadata m).toItemContext) := by
  rw [any_map]
  rfl

theorem any_of_not_isEmpty (v : ItemContext Ctx Msg) : (!items.isEmpty && items.any (· v)) = items.any (· v) := by
  cases items <;> simp

theorem matchesSource_united (hm : m.ignoreDestinationIPCIDRMatch = false) :
    (r.united s h).destinationIPCIDRMatchesSource m = r.destinationIPCIDRMatchesSource m ∧
    (r.united s h).destinationIPCIDRMatchesDestination m = r.destinationIPCIDRMatchesDestination m ∧
    h.destinationIPCIDRMatchesSource (s.nestedMetadata m) = (s.ipCidrMatchSource && !h.destinationIPCIDRItems.isEmpty) ∧
      h.destinationIPCIDRMatchesDestination (s.nestedMetadata m) =
        (!s.ipCidrMatchSource && !h.destinationIPCIDRItems.isEmpty) := by
  have hn : (s.nestedMetadata m).ignoreDestinationIPCIDRMatch = false := hm
  have hs : (s.nestedMetadata m).ipCIDRMatchSource = s.ipCidrMatchSource := rfl
  exact ⟨rfl, rfl, by simp [hn, hs]⟩

theorem satisfied_congr_state (m : InboundContext Ctx Msg)
    {state state' : RuleMatchState} (h : ∀ f ∈ groupFlags, state.has f = state'.has f) :
    r.satisfied m state = r.satisfied m state' := by
  rw [satisfied_eq, satisfied_eq, h _ (by decide), h _ (by decide), h _ (by decide), h _ (by decide)]

section

variable (hm : m.ignoreDestinationIPCIDRMatch = false)

include hm

theorem groupMatches_united : ∀ f ∈ groupFlags,
      (r.united s h).groupMatches m f = (r.groupMatches m f || h.groupMatches (s.nestedMetadata m) f) := by
  obtain ⟨hrs, hrd, hsrc, hdst⟩ := matchesSource_united r s h m hm
  have hany := any_of_not_isEmpty h.destinationIPCIDRItems (s.nestedMetadata m).toItemContext
  simp only [groupFlags, forall_mem_cons, not_mem_nil, false_implies, implies_true, and_true,
    groupMatches_sourceAddress, groupMatches_sourcePort, groupMatches_destinationAddress,
    groupMatches_destinationPort, hrs, hrd, hsrc, hdst]
  simp only [united, any_append, any_map_underFlags]
  cases s.ipCidrMatchSource with
  | false =>
    simp only [Bool.false_eq_true, if_false, Bool.not_false, Bool.true_and, Bool.false_and, any_map_underFlags, hany,
      any_nil, Bool.or_false, true_and, and_true]
    exact ⟨by ac_rfl, by ac_rfl⟩
  | true =>
    simp only [if_true, Bool.not_true, Bool.true_and, Bool.false_and, any_map_underFlags, hany, any_nil,
      Bool.or_false, true_and, and_true]
    exact ⟨by ac_rfl, by ac_rfl⟩

theorem satisfied_united (state : RuleMatchState) :
    (r.united s h).satisfied m state = (r.satisfied m state && h.satisfied (s.nestedMetadata m) state) := by
  obtain ⟨hrs, hrd, hsrc, hdst⟩ := matchesSource_united r s h m hm
  simp only [satisfied_eq, requiresSourceAddressMatch, requiresDestinationAddressMatch, hrs, hrd, hsrc, hdst]
  simp only [united, isEmpty_append, isEmpty_map]
  cases s.ipCidrMatchSource <;> cases state.has ruleMatchSourceAddress <;> cases state.has ruleMatchSourcePort <;>
    cases state.has ruleMatchDestinationAddress <;> cases state.has ruleMatchDestinationPort <;> simp <;> ac_rfl

/-- What the united rule asks is what `r` asks of its own items, what `h` asks
when it starts from the flags of `r`, and what `r` then asks of the result. -/
theorem passes_united : (r.united s h).passes m 0#4 =
      (r.items.all (· m.toItemContext) && h.passes (s.nestedMetadata m) (r.matchGroups m 0#4).1 &&
        r.satisfied m (h.matchGroups (s.nestedMetadata m) (r.matchGroups m 0#4).1).1) := by
  have flags : ∀ f ∈ groupFlags, ((r.united s h).matchGroups m 0#4).1.has f =
      (h.matchGroups (s.nestedMetadata m) (r.matchGroups m 0#4).1).1.has f := by
    intro f hf
    rw [has_matchGroups _ _ _ hf, has_matchGroups _ _ _ hf, has_matchGroups _ _ _ hf,
      groupMatches_united r s h m hm f hf, has_zero, Bool.false_or, Bool.false_or]
  have hitems : (r.united s h).items.all (· m.toItemContext) =
      (r.items.all (· m.toItemContext) && h.items.all (· (s.nestedMetadata m).toItemContext)) := by
    rw [united, all_append, all_map]
    rfl
  rw [passes, passes, satisfied_congr_state _ m flags, satisfied_united r s h m hm, hitems]
  ac_rfl

end

end united

/-- A rule with a rule set item finds a state exactly if the united rule of
some member matches. -/
theorem isEmpty_filter_ruleSet (r : DefaultRule Ctx Msg) (s : RuleSetItem Ctx Msg) (hs : s.DefaultMembers)
    (m : InboundContext Ctx Msg) (hm : m.ignoreDestinationIPCIDRMatch = false) :
    (r.items.all (· m.toItemContext) = true ∧
      isEmpty (filter (s.matchStatesWithBase { m with didMatch := true } (r.matchGroups m 0#4).1)
        (r.satisfied m)) = false) ↔
      ∃ h, s.Member h ∧ (r.united s h).passes m 0#4 = true := by
  have hnested : s.nestedMetadata { m with didMatch := true } = s.nestedMetadata m := rfl
  -- a member contributes the state it reaches from the flags of `r`, if it passes
  have member : ∀ h : AbstractDefaultRule Ctx Msg Empty, h.invert = false → ∀ x,
      contains (HeadlessRule.matchStatesWithBase (.default h) (s.nestedMetadata m) (r.matchGroups m 0#4).1) x = true ↔
        h.passes (s.nestedMetadata m) (r.matchGroups m 0#4).1 = true ∧
          x = (h.matchGroups (s.nestedMetadata m) (r.matchGroups m 0#4).1).1 := by
    intro h hinv x
    have hnone : h.ruleSetItem = none := by
      cases hset : h.ruleSetItem with
      | none => rfl
      | some e => exact e.elim
    rw [HeadlessRule.matchStatesWithBase, RuleTree.matchStatesWithBase,
      h.matchStatesWithBase_of_not_invert _ hnone hinv (s.nestedMetadata m)]
    split
    · rename_i hpass
      simp [hpass]
    · rename_i hpass
      simp [hpass]
  rw [not_isEmpty_iff]
  simp only [contains_filter, RuleSetItem.contains_matchStatesWithBase, hnested]
  constructor
  · rintro ⟨hitems, x, ⟨set, hset, rule, hrule, hx⟩, hsat⟩
    obtain ⟨h, rfl, hinv⟩ := hs set hset rule hrule
    obtain ⟨hpass, rfl⟩ := (member h hinv x).1 hx
    refine ⟨h, ⟨set, hset, hrule⟩, ?_⟩
    rw [passes_united r s h m hm, hitems, hpass, hsat]
    rfl
  · rintro ⟨h, ⟨set, hset, hrule⟩, hpass⟩
    obtain ⟨h', heq, hinv⟩ := hs set hset _ hrule
    obtain rfl : h = h' := by injection heq
    rw [passes_united r s h m hm, Bool.and_eq_true, Bool.and_eq_true] at hpass
    obtain ⟨⟨hitems, hp⟩, hsat⟩ := hpass
    exact ⟨hitems, _, ⟨set, hset, _, hrule, (member h hinv _).2 ⟨hp, rfl⟩⟩, hsat⟩

end AbstractDefaultRule

/-! ## The meaning of a rule set item -/

def DefaultRule.isMatch (r : DefaultRule Ctx Msg) (m : InboundContext Ctx Msg) : Bool :=
  RuleTree.isMatch DefaultRule.matchStatesWithBase (.default r) m

theorem DefaultRule.isMatch_united (r : DefaultRule Ctx Msg) (s : RuleSetItem Ctx Msg)
    (h : AbstractDefaultRule Ctx Msg Empty) (m : InboundContext Ctx Msg) :
    isMatch (r.united s h) m = (r.united s h).passes m 0#4 := by
  unfold isMatch RuleTree.isMatch RuleTree.matchStates
  rw [RuleTree.matchStatesWithBase, matchStatesWithBase,
    matchStatesWithBase_of_not_invert _ _ rfl rfl m]
  cases (r.united s h).passes m 0#4 <;> simp [isEmpty_single]

/-- A default rule with a rule set item matches if, for some member of some of
the sets, the united rule matches; inverted, if there is no such member. One
member has to do: groups satisfied by different members do not add up. -/
theorem ruleSet_match_iff_united {Ctx Msg : Type} (r : DefaultRule Ctx Msg) (s : RuleSetItem Ctx Msg)
    (hr : r.ruleSetItem = some s) (hs : s.DefaultMembers) (m : InboundContext Ctx Msg)
    (hm : m.ignoreDestinationIPCIDRMatch = false) :
    (r.invert = false →
      (isMatch r m = true ↔ ∃ h, s.Member h ∧ isMatch (r.united s h) m = true)) ∧
    (r.invert = true →
      (isMatch r m = true ↔ ¬∃ h, s.Member h ∧ isMatch (r.united s h) m = true)) := by
  have hne : r.allItems.isEmpty = false := by simp [allItems, hr]
  have heq := r.matchStatesWithBase_eq RuleSetItem.matchStatesWithBase m (fun _ _ h => nomatch hm ▸ h) 0#4 hne
  have hunited := isEmpty_filter_ruleSet r s hs m hm
  simp only [hr, ite_self, Option.elim_some] at heq
  have hstates : isMatch r m =
      !isEmpty (matchStatesWithBase RuleSetItem.matchStatesWithBase r m 0#4) := rfl
  simp only [isMatch_united, ← hunited]
  rw [hstates, heq]
  generalize hset : filter (s.matchStatesWithBase { m with didMatch := true } (r.matchGroups m 0#4).1)
    (r.satisfied m) = stateSet
  constructor
  · intro hinv
    cases r.items.all (· m.toItemContext) <;> cases hempty : isEmpty stateSet <;>
      simp [invertedFailure, hinv, hempty]
  · intro hinv
    cases r.items.all (· m.toItemContext) <;> cases hempty : isEmpty stateSet <;>
      simp [invertedFailure, hinv]

/-- A rule with a domain item and two one-member sets, one with a port and one
with an `ip_cidr` item. Metadata is a domain match, a port and a range match. -/
def sampleMember (port : Bool) : AbstractDefaultRule (Bool × Nat × Bool) Unit Empty :=
  { destinationIPCIDRItems := if port then [] else [fun v => v.ctx.2.2]
    destinationPortItems := if port then [fun v => v.ctx.2.1 == 443] else [] }

def sampleRuleSetItem : RuleSetItem (Bool × Nat × Bool) Unit :=
  { setList := [⟨[.default (sampleMember true)]⟩, ⟨[.default (sampleMember false)]⟩]
    ipCidrMatchSource := true }

def sampleRuleSetRule (invert : Bool) : DefaultRule (Bool × Nat × Bool) Unit :=
  { destinationAddressItems := [fun v => v.ctx.1], ruleSetItem := some sampleRuleSetItem, invert := invert }

def sampleRuleSetMetadata : InboundContext (Bool × Nat × Bool) Unit :=
  { ctx := (true, 80, true) }

theorem sampleRuleSetItem_defaultMembers : sampleRuleSetItem.DefaultMembers := by
  simp only [RuleSetItem.DefaultMembers, sampleRuleSetItem, forall_mem_cons, not_mem_nil, false_implies,
    implies_true, and_true]
  exact ⟨⟨_, rfl, rfl⟩, ⟨_, rfl, rfl⟩⟩

theorem ruleSet_match_iff_united_sample :
    isMatch (sampleRuleSetRule false) sampleRuleSetMetadata = true ∧
      isMatch (sampleRuleSetRule true) sampleRuleSetMetadata = false := by
  have matching : ∃ h, sampleRuleSetItem.Member h ∧
      isMatch ((sampleRuleSetRule false).united sampleRuleSetItem h) sampleRuleSetMetadata = true :=
    ⟨sampleMember false, ⟨_, .tail _ (.head _), .head _⟩, rfl⟩
  constructor
  · exact ((ruleSet_match_iff_united (sampleRuleSetRule false) sampleRuleSetItem rfl sampleRuleSetItem_defaultMembers
      sampleRuleSetMetadata rfl).1 rfl).2 matching
  · rw [Bool.eq_false_iff]
    intro hmatch
    exact ((ruleSet_match_iff_united (sampleRuleSetRule true) sampleRuleSetItem rfl sampleRuleSetItem_defaultMembers
      sampleRuleSetMetadata rfl).2 rfl).1 hmatch matching

end Singlink.Rule
