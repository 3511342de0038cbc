import Singlink.Route.Rule.Abstract
/-!
# What a rule tree means

The plain Boolean reading of a tree (`holds`) and the proof that the state-set
evaluator computes it. The flags a default rule collects are worked out once,
in `has_matchGroups`, for every inherited base; the trees follow by induction.
-/

namespace Singlink.Rule

open RuleMatchStateSet List RuleTree

variable {Ctx Msg S D : Type}

/-! ## The Boolean reading -/

/-- A group of items asks for one match, unless it is empty. -/
def groupHolds (items : List (RuleItem Ctx Msg)) (v : ItemContext Ctx Msg) : Bool :=
  items.isEmpty || items.any (· v)

/-- A default rule holds if every group does and every other item matches;
`invert` negates. The `ip_cidr` items belong to the source address group if
`source` says so, and else to the destination address group. -/
def AbstractDefaultRule.holdsWith (source : Bool) (r : AbstractDefaultRule Ctx Msg S) (v : ItemContext Ctx Msg) : Bool :=
  r.invert ^^ (groupHolds (r.sourceAddressItems ++ if source then r.destinationIPCIDRItems else []) v &&
    groupHolds r.sourcePortItems v &&
    groupHolds (r.destinationAddressItems ++ if source then [] else r.destinationIPCIDRItems) v &&
    groupHolds r.destinationPortItems v && r.items.all (· v))

def AbstractDefaultRule.holds (r : AbstractDefaultRule Ctx Msg S) (v : ItemContext Ctx Msg) : Bool :=
  r.holdsWith v.ipCIDRMatchSource v

namespace RuleTree

mutual
/-- A logical rule is the conjunction or the disjunction of its children,
negated by `invert`. -/
def holds (leaf : D → Bool) : RuleTree D → Bool
  | .default rule => leaf rule
  | .logical .and invert rules => invert ^^ holdsAll leaf rules
  | .logical .or invert rules => invert ^^ holdsSome leaf rules

def holdsAll (leaf : D → Bool) : List (RuleTree D) → Bool
  | [] => true
  | t :: ts => holds leaf t && holdsAll leaf ts

def holdsSome (leaf : D → Bool) : List (RuleTree D) → Bool
  | [] => false
  | t :: ts => holds leaf t || holdsSome leaf ts
end

theorem holdsAll_eq (leaf : D → Bool) (ts : List (RuleTree D)) : holdsAll leaf ts = ts.all (holds leaf) := by
  induction ts with
  | nil => simp [holdsAll]
  | cons t ts ih => simp [holdsAll, ih]

theorem holdsSome_eq (leaf : D → Bool) (ts : List (RuleTree D)) : holdsSome leaf ts = ts.any (holds leaf) := by
  induction ts with
  | nil => simp [holdsSome]
  | cons t ts ih => simp [holdsSome, ih]

end RuleTree

/-! ## The flags a default rule collects -/

namespace AbstractDefaultRule

variable (applies : Bool) (items : List (RuleItem Ctx Msg)) (flag : RuleMatchState)
  (st : RuleMatchState × InboundContext Ctx Msg)

@[simp] theorem item_matchGroup : (matchGroup items flag st).2.toItemContext = st.2.toItemContext := by
  unfold matchGroup; split <;> rfl

@[simp] theorem item_matchIPCIDRGroup :
    (matchIPCIDRGroup applies items flag st).2.toItemContext = st.2.toItemContext := by
  unfold matchIPCIDRGroup
  split
  · rfl
  · split <;> rfl

@[simp] theorem ignore_matchGroup :
    (matchGroup items flag st).2.ignoreDestinationIPCIDRMatch = st.2.ignoreDestinationIPCIDRMatch := by
  unfold matchGroup; split <;> rfl

@[simp] theorem ignore_matchIPCIDRGroup :
    (matchIPCIDRGroup applies items flag st).2.ignoreDestinationIPCIDRMatch = st.2.ignoreDestinationIPCIDRMatch := by
  unfold matchIPCIDRGroup
  split
  · rfl
  · split <;> rfl

theorem has_matchGroup (flag f : RuleMatchState) (st : RuleMatchState × InboundContext Ctx Msg) :
    (matchGroup items flag st).1.has f = (st.1.has f || (items.any (· st.2.toItemContext) && flag.has f)) := by
  unfold matchGroup
  split
  · rename_i h
    simp [List.isEmpty_iff.1 h]
  · cases h : items.any (· st.2.toItemContext) <;> simp [matchAnyItem, h, has_or]

/-- Skipping the `ip_cidr` items when the flag is there already changes
nothing, since `flag` is the only flag they can add. -/
theorem has_matchIPCIDRGroup (flag f : RuleMatchState)
    (hf : flag.has f = true → f = flag) (st : RuleMatchState × InboundContext Ctx Msg) :
    (matchIPCIDRGroup applies items flag st).1.has f =
      (st.1.has f || (applies && items.any (· st.2.toItemContext) && flag.has f)) := by
  unfold matchIPCIDRGroup
  cases applies
  · simp
  · by_cases hs : st.1.has flag = true
    · cases hff : flag.has f
      · simp [hs]
      · rw [hf hff]; simp [hs]
    · cases h : items.any (· st.2.toItemContext) <;> simp [matchAnyItem, h, hs, has_or]

def groupFlags : List RuleMatchState :=
  [ruleMatchSourceAddress, ruleMatchSourcePort, ruleMatchDestinationAddress, ruleMatchDestinationPort]

theorem has_groupFlags : ∀ flag ∈ groupFlags, ∀ f ∈ groupFlags, flag.has f = decide (f = flag) := by
  decide

def groupMatches (r : AbstractDefaultRule Ctx Msg S) (m : InboundContext Ctx Msg) (f : RuleMatchState) : Bool :=
  r.sourceAddressItems.any (· m.toItemContext) && ruleMatchSourceAddress.has f ||
  r.destinationIPCIDRMatchesSource m && r.destinationIPCIDRItems.any (· m.toItemContext) &&
    ruleMatchSourceAddress.has f ||
  r.sourcePortItems.any (· m.toItemContext) && ruleMatchSourcePort.has f ||
  r.destinationAddressItems.any (· m.toItemContext) && ruleMatchDestinationAddress.has f ||
  r.destinationIPCIDRMatchesDestination m && r.destinationIPCIDRItems.any (· m.toItemContext) &&
    ruleMatchDestinationAddress.has f ||
  r.destinationPortItems.any (· m.toItemContext) && ruleMatchDestinationPort.has f

variable (ruleSet : S → InboundContext Ctx Msg → RuleMatchState → RuleMatchStateSet)
  (r : AbstractDefaultRule Ctx Msg S) (m : InboundContext Ctx Msg)

attribute [local simp] destinationIPCIDRMatchesDestination destinationIPCIDRMatchesSource isEmpty_single matchGroups
  requiresDestinationAddressMatch requiresSourceAddressMatch

variable (b : RuleMatchState)

/-- After `matchGroups` the flags are those of the base and those of the groups
with a matching item. -/
theorem has_matchGroups {f : RuleMatchState} (hf : f ∈ groupFlags) :
    (r.matchGroups m b).1.has f = (b.has f || r.groupMatches m f) := by
  have only : ∀ flag ∈ groupFlags, flag.has f = true → f = flag := by
    intro flag hflag h
    rw [has_groupFlags flag hflag f hf] at h
    exact of_decide_eq_true h
  have hs : ruleMatchSourceAddress.has f = true → f = ruleMatchSourceAddress := only _ (by decide)
  have hd : ruleMatchDestinationAddress.has f = true → f = ruleMatchDestinationAddress := only _ (by decide)
  simp [groupMatches, has_matchGroup, has_matchIPCIDRGroup _ _ _ _ hs, has_matchIPCIDRGroup _ _ _ _ hd, Bool.or_assoc]

section

attribute [local simp] groupMatches RuleMatchState.has ruleMatchSourceAddress ruleMatchSourcePort
  ruleMatchDestinationAddress ruleMatchDestinationPort

@[simp] theorem groupMatches_sourceAddress : r.groupMatches m ruleMatchSourceAddress =
    (r.sourceAddressItems.any (· m.toItemContext) ||
      r.destinationIPCIDRMatchesSource m && r.destinationIPCIDRItems.any (· m.toItemContext)) := by
  simp

@[simp] theorem groupMatches_sourcePort :
    r.groupMatches m ruleMatchSourcePort = r.sourcePortItems.any (· m.toItemContext) := by
  simp

@[simp] theorem groupMatches_destinationAddress : r.groupMatches m ruleMatchDestinationAddress =
    (r.destinationAddressItems.any (· m.toItemContext) ||
      r.destinationIPCIDRMatchesDestination m && r.destinationIPCIDRItems.any (· m.toItemContext)) := by
  simp

@[simp] theorem groupMatches_destinationPort :
    r.groupMatches m ruleMatchDestinationPort = r.destinationPortItems.any (· m.toItemContext) := by
  simp

end

@[simp] theorem item_matchGroups : (r.matchGroups m b).2.toItemContext = m.toItemContext := by
  simp

@[simp] theorem ignore_matchGroups :
    (r.matchGroups m b).2.ignoreDestinationIPCIDRMatch = m.ignoreDestinationIPCIDRMatch := by
  simp

def withoutIP (r : AbstractDefaultRule Ctx Msg S) : AbstractDefaultRule Ctx Msg S :=
  { r with destinationIPCIDRItems := [] }

def onlyIP (r : AbstractDefaultRule Ctx Msg S) : Bool := r.withoutIP.allItems.isEmpty

/-- `matchGroups` notes if there was a group to look at. -/
theorem didMatch_matchGroups (honly : r.onlyIP = false) (hitems : r.items = []) (hset : r.ruleSetItem = none) :
    (r.matchGroups m b).2.didMatch = true := by
  have hgroup : ∀ items flag (st : RuleMatchState × InboundContext Ctx Msg),
      (matchGroup items flag st).2.didMatch = (st.2.didMatch || !items.isEmpty) := by
    intro items flag st
    cases h : items.isEmpty <;> simp [matchGroup, h]
  have hcidr : ∀ applies items flag (st : RuleMatchState × InboundContext Ctx Msg),
      (matchIPCIDRGroup applies items flag st).2.didMatch = (st.2.didMatch || applies) := by
    intro applies items flag st
    cases applies <;> cases h : st.1.has flag <;> simp [matchIPCIDRGroup, h]
  delta onlyIP withoutIP allItems at honly
  simp only [hitems, hset] at honly
  grind [matchGroups]

/-! ## A default rule without a rule set -/

theorem satisfied_eq (state : RuleMatchState) : r.satisfied m state =
      ((!r.requiresSourceAddressMatch m || state.has ruleMatchSourceAddress) &&
        (r.sourcePortItems.isEmpty || state.has ruleMatchSourcePort) &&
        (!r.requiresDestinationAddressMatch m || state.has ruleMatchDestinationAddress) &&
        (r.destinationPortItems.isEmpty || state.has ruleMatchDestinationPort)) := by
  unfold satisfied
  cases r.requiresSourceAddressMatch m <;> cases state.has ruleMatchSourceAddress <;>
    cases r.sourcePortItems.isEmpty <;> cases state.has ruleMatchSourcePort <;>
    cases r.requiresDestinationAddressMatch m <;> cases state.has ruleMatchDestinationAddress <;>
    cases r.destinationPortItems.isEmpty <;> cases state.has ruleMatchDestinationPort <;> rfl

/-- What the rule asks of its own items when it starts from the flags `b`. -/
def passes (r : AbstractDefaultRule Ctx Msg S) (m : InboundContext Ctx Msg) (b : RuleMatchState) : Bool :=
  r.items.all (· m.toItemContext) && r.satisfied m (r.matchGroups m b).1

/-- The evaluator after the loop over `items`. What it does with `DidMatch` in the
end concerns inverted rules without a rule set whose `ip_cidr` items are ignored. -/
theorem matchStatesWithBase_eq
    (hm : r.invert = true → r.ruleSetItem = none → m.ignoreDestinationIPCIDRMatch = true → r.onlyIP = false)
    (b : RuleMatchState) (hne : r.allItems.isEmpty = false) :
    let base := (r.matchGroups m (if r.invert then 0#4 else b)).1
    let stateSet := filter (r.ruleSetItem.elim (singleRuleMatchState base) fun item =>
      ruleSet item { m with didMatch := true } base) (r.satisfied m)
    r.matchStatesWithBase ruleSet m b =
      if !r.items.all (· m.toItemContext) || isEmpty stateSet then r.invertedFailure b
      else if r.invert then 0#16 else stateSet := by
  rcases hst : r.matchGroups m (if r.invert then 0#4 else b) with ⟨base, m₁⟩
  have hi₁ : m₁.toItemContext = m.toItemContext := by rw [← r.item_matchGroups m, hst]
  have hg₁ : m₁.ignoreDestinationIPCIDRMatch = m.ignoreDestinationIPCIDRMatch := by
    rw [← r.ignore_matchGroups m, hst]
  obtain ⟨didMatch, rfl⟩ : ∃ didMatch, m₁ = { m with didMatch } := ⟨m₁.didMatch, by rw [← hi₁, ← hg₁]⟩
  have hs : ∀ didMatch, r.satisfied { m with didMatch } = r.satisfied m := by
    intro didMatch
    funext state
    simp [satisfied_eq]
  unfold matchStatesWithBase
  simp only [hne, hst, Bool.false_eq_true, if_false]
  cases r.items.all (· m.toItemContext) with
  | false => rfl
  | true =>
    cases hset : r.ruleSetItem with
    | none =>
      cases hinv : r.invert with
      | false => cases r.items.isEmpty <;> simp [hs]
      | true =>
        cases hitems : r.items.isEmpty with
        | false => simp [hs]
        | true =>
          have hdid : m.ignoreDestinationIPCIDRMatch = true → didMatch = true := by
            intro h
            rw [← r.didMatch_matchGroups m (if r.invert then 0#4 else b) (hm hinv hset h) (by simpa using hitems) hset, hst]
          simp only [hs, if_true]
          grind
    | some item => cases r.items.isEmpty <;> simp [hs]

theorem matchStatesWithBase_of_none (hr : r.ruleSetItem = none)
    (hm : r.invert = true → m.ignoreDestinationIPCIDRMatch = true → r.onlyIP = false) (b : RuleMatchState)
    (hne : r.allItems.isEmpty = false) :
    r.matchStatesWithBase ruleSet m b =
      if r.invert then if r.passes m 0#4 then 0#16 else withBase emptyRuleMatchState b
      else if r.passes m b then singleRuleMatchState (r.matchGroups m b).1 else 0#16 := by
  have h := r.matchStatesWithBase_eq ruleSet m (fun hinv _ => hm hinv) b hne
  simp only [hr, Option.elim_none, filter_single] at h
  rw [h]
  unfold passes invertedFailure
  cases r.invert with
  | false =>
    simp only [Bool.false_eq_true, if_false]
    cases r.items.all (· m.toItemContext) <;> cases r.satisfied m (r.matchGroups m b).1 <;> simp
  | true =>
    simp only [if_true]
    cases r.items.all (· m.toItemContext) <;> cases r.satisfied m (r.matchGroups m 0#4).1 <;> simp

theorem isEmpty_append (l l' : List (RuleItem Ctx Msg)) : (l ++ l').isEmpty = (l.isEmpty && l'.isEmpty) := by
  cases l <;> simp

theorem passes_zero (hm : m.ignoreDestinationIPCIDRMatch = false) :
    r.passes m 0#4 = (r.invert ^^ r.holds m.toItemContext) := by
  have flag : ∀ f ∈ groupFlags, (r.matchGroups m 0#4).1.has f = r.groupMatches m f := by
    intro f hf
    rw [r.has_matchGroups m 0#4 hf, has_zero, Bool.false_or]
  rw [passes, satisfied_eq, flag _ (by decide), flag _ (by decide), flag _ (by decide), flag _ (by decide)]
  have hcidr : (!r.destinationIPCIDRItems.isEmpty && r.destinationIPCIDRItems.any (· m.toItemContext)) =
      r.destinationIPCIDRItems.any (· m.toItemContext) := by
    cases r.destinationIPCIDRItems <;> simp
  cases hs : m.ipCIDRMatchSource <;>
    simp [hs, hm, holds, holdsWith, groupHolds, hcidr, isEmpty_append, Bool.and_comm]

theorem isEmpty_matchStates (hr : r.ruleSetItem = none) (hne : r.allItems.isEmpty = false)
    (hm : m.ignoreDestinationIPCIDRMatch = false) :
    isEmpty (r.matchStatesWithBase ruleSet m 0#4) = !r.holds m.toItemContext := by
  rw [r.matchStatesWithBase_of_none ruleSet m hr (fun _ h => nomatch hm ▸ h) _ hne, r.passes_zero m hm]
  cases r.invert <;> cases r.holds m.toItemContext <;> simp

end AbstractDefaultRule

/-! ## Trees -/

namespace RuleTree

variable {t : RuleTree D}

theorem Leaves.mono {P Q : D → Prop} (h : ∀ r, P r → Q r) (ht : t.Leaves P) : t.Leaves Q := by
  induction ht with
  | default hr => exact .default (h _ hr)
  | logical _ ih => exact .logical ih

variable (leaf : D → InboundContext Ctx Msg → RuleMatchState → RuleMatchStateSet)

@[simp] theorem resetRuleCache_idem (m : InboundContext Ctx Msg) :
    m.resetRuleCache.resetRuleCache = m.resetRuleCache := rfl

theorem isEmpty_foldl_combine (sets : List RuleMatchStateSet) (acc : RuleMatchStateSet) :
    RuleMatchStateSet.isEmpty (sets.foldl combine acc) = (acc.isEmpty || sets.any RuleMatchStateSet.isEmpty) := by
  induction sets generalizing acc with
  | nil => simp
  | cons s sets ih => rw [foldl_cons, ih, isEmpty_combine, any_cons, Bool.or_assoc]

theorem isEmpty_foldl_merge (sets : List RuleMatchStateSet) (acc : RuleMatchStateSet) :
    RuleMatchStateSet.isEmpty (sets.foldl merge acc) = (acc.isEmpty && sets.all RuleMatchStateSet.isEmpty) := by
  induction sets generalizing acc with
  | nil => simp
  | cons s sets ih => rw [foldl_cons, ih, isEmpty_merge, all_cons, Bool.and_assoc]

/-- What a logical rule that does not invert finds, by what its rules find. -/
def joinStates (mode : LogicalMode) (base : RuleMatchState) (sets : List RuleMatchStateSet) : RuleMatchStateSet :=
  match mode with
  | .and => sets.foldl combine (withBase emptyRuleMatchState base)
  | .or => sets.foldl merge 0#16

section

variable (mode : LogicalMode) (rules : List (RuleTree D)) (m : InboundContext Ctx Msg) (base : RuleMatchState)

/-- The loop of the `and` mode returns early if a rule finds nothing. -/
theorem matchAllWithBase_eq (acc : RuleMatchStateSet) :
    let sets := rules.map (matchStatesWithBase leaf · m.resetRuleCache base)
    matchAllWithBase leaf rules m base acc = if sets.any isEmpty then none else some (sets.foldl combine acc) := by
  induction rules generalizing acc with
  | nil => simp [matchAllWithBase]
  | cons t ts ih =>
    rw [matchAllWithBase]
    cases h : isEmpty (matchStatesWithBase leaf t m.resetRuleCache base) <;> simp [h, ih]

theorem matchSomeWithBase_eq (acc : RuleMatchStateSet) : matchSomeWithBase leaf rules m base acc =
    (rules.map (matchStatesWithBase leaf · m.resetRuleCache base)).foldl merge acc := by
  induction rules generalizing acc with
  | nil => rw [matchSomeWithBase, map_nil, foldl_nil]
  | cons t ts ih => rw [matchSomeWithBase, ih, map_cons, foldl_cons]

theorem matchStatesWithBase_logical : matchStatesWithBase leaf (.logical mode false rules) m base =
    joinStates mode base (rules.map (matchStatesWithBase leaf · m.resetRuleCache base)) := by
  cases mode with
  | and =>
    simp only [matchStatesWithBase, matchAllWithBase_eq, joinStates, Bool.false_eq_true, if_false]
    generalize rules.map _ = sets
    have h := isEmpty_foldl_combine sets (withBase emptyRuleMatchState base)
    cases hany : sets.any isEmpty with
    | false => rfl
    | true =>
      rw [hany, Bool.or_true] at h
      exact (beq_iff_eq.1 h).symm
  | or =>
    simp only [matchStatesWithBase, matchSomeWithBase_eq, joinStates, Bool.false_eq_true, if_false]
    split
    · exact (beq_iff_eq.1 (by assumption)).symm
    · rfl

theorem matchStatesWithBase_inverted : matchStatesWithBase leaf (.logical mode true rules) m base =
    if isEmpty (matchStatesWithBase leaf (.logical mode false rules) m 0#4) then withBase emptyRuleMatchState base
    else 0#16 := by
  rw [matchStatesWithBase_logical]
  cases mode with
  | and =>
    simp only [matchStatesWithBase, matchAllWithBase_eq, joinStates, isEmpty_foldl_combine, withBase_zero, if_true]
    split <;> simp_all
  | or =>
    simp only [matchStatesWithBase, matchSomeWithBase_eq, if_true]
    rfl

end

/-- A logical rule fails, from base 0, as the Boolean operator says. -/
theorem isEmpty_logical (mode : LogicalMode) (invert : Bool) (rules : List (RuleTree D))
    (m : InboundContext Ctx Msg) :
    isEmpty (matchStatesWithBase leaf (.logical mode invert rules) m 0#4) =
      !(invert ^^ match mode with
        | .and => rules.all fun t => !isEmpty (matchStatesWithBase leaf t m.resetRuleCache 0#4)
        | .or => rules.any fun t => !isEmpty (matchStatesWithBase leaf t m.resetRuleCache 0#4)) := by
  have hempty : ∀ c : Prop, [Decidable c] → (isEmpty (if c then emptyRuleMatchState else 0#16) = true ↔ ¬c) := by
    intro c _
    by_cases hc : c <;> simp [hc]
  rw [Bool.eq_iff_iff]
  cases invert <;> cases mode <;>
    simp [matchStatesWithBase_inverted, matchStatesWithBase_logical, joinStates, isEmpty_foldl_combine,
      isEmpty_foldl_merge, hempty]

/-- `Match` of a tree, if its default rules are read off as `value`. -/
theorem not_isEmpty_eq_holds {P : D → Prop} {value : D → Bool} {m : InboundContext Ctx Msg} (hm : m.resetRuleCache = m)
    (hleaf : ∀ r, P r → (!isEmpty (leaf r m 0#4)) = value r) (ht : t.Leaves P) :
    (!isEmpty (matchStates leaf t m)) = t.holds value := by
  unfold matchStates
  induction ht with
  | default hr => exact hleaf _ hr
  | @logical mode invert rules _ ih =>
    rw [isEmpty_logical, Bool.not_not, hm]
    cases mode with
    | and =>
      rw [holds, holdsAll_eq]
      congr 1
      rw [Bool.eq_iff_iff, all_eq_true, all_eq_true]
      exact forall₂_congr fun t ht => by rw [ih t ht]
    | or =>
      rw [holds, holdsSome_eq]
      congr 1
      rw [Bool.eq_iff_iff, any_eq_true, any_eq_true]
      exact exists_congr fun t => and_congr_right fun ht => by rw [ih t ht]

/-- The metadata that the default rules of a tree see: a logical rule resets the
rule cache for the rules in it. -/
def seen (t : RuleTree D) (m : InboundContext Ctx Msg) : InboundContext Ctx Msg :=
  match t with
  | .default _ => m
  | .logical _ _ _ => m.resetRuleCache

theorem matchStates_resetRuleCache (mode : LogicalMode) (invert : Bool) (rules : List (RuleTree D))
    (m : InboundContext Ctx Msg) :
    matchStates leaf (.logical mode invert rules) m.resetRuleCache = matchStates leaf (.logical mode invert rules) m := by
  unfold matchStates
  cases invert with
  | false => rw [matchStatesWithBase_logical, matchStatesWithBase_logical, resetRuleCache_idem]
  | true =>
    rw [matchStatesWithBase_inverted, matchStatesWithBase_inverted, matchStatesWithBase_logical,
      matchStatesWithBase_logical, resetRuleCache_idem]

theorem isMatch_eq_holds {P : D → Prop} {value : D → ItemContext Ctx Msg → Bool}
    (hleaf : ∀ r, P r → ∀ m : InboundContext Ctx Msg, m.ignoreDestinationIPCIDRMatch = false →
      isEmpty (leaf r m 0#4) = !value r m.toItemContext)
    (ht : t.Leaves P) (m : InboundContext Ctx Msg) (hm : m.ignoreDestinationIPCIDRMatch = false) :
    isMatch leaf t m = t.holds (value · (t.seen m).toItemContext) := by
  have hvalue : ∀ m : InboundContext Ctx Msg, m.ignoreDestinationIPCIDRMatch = false → ∀ r, P r →
      (!isEmpty (leaf r m 0#4)) = value r m.toItemContext := by
    intro m hm r hr
    rw [hleaf r hr m hm, Bool.not_not]
  cases ht with
  | default hr => exact hvalue m hm _ hr
  | @logical mode invert rules hrules =>
    rw [isMatch, ← matchStates_resetRuleCache]
    exact not_isEmpty_eq_holds leaf (resetRuleCache_idem m) (hvalue m.resetRuleCache hm) (.logical hrules)

end RuleTree

/-! ## DNS rules -/

namespace DNSRule

/-- The second evaluator of logical rules does what the first does, child by
child. -/
theorem matchStatesForMatch_eq {t : DNSRule Ctx Msg} (ht : t.Leaves fun r => r.matchResponse = false)
    (m : InboundContext Ctx Msg) : t.matchStatesForMatch m = t.matchStates m := by
  unfold matchStates RuleTree.matchStates
  induction ht generalizing m with
  | default hr => simp [matchStatesForMatch, matchStatesWithBase, DefaultDNSRule.matchStatesForMatch, hr]
  | @logical mode invert rules _ ih =>
    have hall : ∀ ts ⊆ rules, ∀ acc, matchAllForMatch ts m acc =
        matchAllWithBase DefaultDNSRule.matchStatesWithBase ts m 0#4 acc := by
      intro ts hts
      induction ts with
      | nil => intro acc; rw [matchAllForMatch, matchAllWithBase]
      | cons t ts iht =>
        intro acc
        rw [cons_subset] at hts
        rw [matchAllForMatch, matchAllWithBase, ih t hts.1, iht hts.2]
    have hsome : ∀ ts ⊆ rules, ∀ acc, matchSomeForMatch ts m acc =
        matchSomeWithBase DefaultDNSRule.matchStatesWithBase ts m 0#4 acc := by
      intro ts hts
      induction ts with
      | nil => intro acc; rw [matchSomeForMatch, matchSomeWithBase]
      | cons t ts iht =>
        intro acc
        rw [cons_subset] at hts
        rw [matchSomeForMatch, matchSomeWithBase, ih t hts.1, iht hts.2]
    cases mode with
    | and =>
      rw [matchStatesForMatch, matchStatesWithBase]
      simp [hall rules (List.Subset.refl _)]
    | or =>
      rw [matchStatesForMatch, matchStatesWithBase]
      simp [hsome rules (List.Subset.refl _)]

end DNSRule

/-! ## Match is the Boolean meaning -/

/-- The rules the Boolean reading is about: some item, and none of them a
`rule_set`. -/
def AbstractDefaultRule.Plain (r : AbstractDefaultRule Ctx Msg S) : Prop :=
  r.ruleSetItem = none ∧ r.allItems ≠ []

/-- `Match` is the Boolean meaning of the tree, for route rules and headless rules
(whatever would evaluate the `rule_set` items) and for DNS rules without
`match_response`. The `ip_cidr` items are destination address items, unless the
tree is one default rule and the metadata has `IPCIDRMatchSource` set. The
evaluator DNS rules have for `Match` computes the same sets as the one they share
with the others. -/
theorem match_eq_meaning {Ctx Msg S : Type}
    (ruleSet : S → InboundContext Ctx Msg → RuleMatchState → RuleMatchStateSet) :
    (∀ t : RuleTree (AbstractDefaultRule Ctx Msg S), t.Leaves AbstractDefaultRule.Plain →
      ∀ m : InboundContext Ctx Msg, m.ignoreDestinationIPCIDRMatch = false →
        isMatch (AbstractDefaultRule.matchStatesWithBase ruleSet) t m = t.holds (·.holds (t.seen m).toItemContext)) ∧
    (∀ t : DNSRule Ctx Msg, t.Leaves (fun r => r.toAbstractDefaultRule.Plain ∧ r.matchResponse = false) →
      ∀ m : InboundContext Ctx Msg, m.ignoreDestinationIPCIDRMatch = false →
        t.isMatch m = t.holds (·.holds (t.seen m).toItemContext)) ∧
    ∀ t : DNSRule Ctx Msg, t.Leaves (fun r => r.matchResponse = false) →
      ∀ m : InboundContext Ctx Msg, t.matchStatesForMatch m = t.matchStates m := by
  refine ⟨?_, ?_, ?_⟩
  · intro t ht m hm
    refine isMatch_eq_holds _ (fun r hr m hm => ?_) ht m hm
    exact r.isEmpty_matchStates ruleSet m hr.1 (by simpa using hr.2) hm
  · intro t ht m hm
    have hsame := DNSRule.matchStatesForMatch_eq (ht.mono fun r hr => hr.2) m
    rw [DNSRule.isMatch, hsame]
    refine isMatch_eq_holds _ (fun r hr m hm => ?_) ht m hm
    exact r.isEmpty_matchStates _ m hr.1.1 (by simpa using hr.1.2) hm
  · intro t ht m
    exact DNSRule.matchStatesForMatch_eq ht m

/-- `port: 443` together with an `ip_cidr` item, over metadata that is a
destination port and whether the address is in the range. -/
def samplePortRule {S : Type} (invert : Bool) : AbstractDefaultRule (Nat × Bool) Unit S :=
  { destinationIPCIDRItems := [fun v => v.ctx.2], destinationPortItems := [fun v => v.ctx.1 == 443], invert := invert }

theorem samplePortRule_plain {S : Type} (invert : Bool) : (samplePortRule (S := S) invert).Plain :=
  ⟨rfl, cons_ne_nil _ _⟩

def sampleTree {D : Type} (rule : Bool → D) : RuleTree D :=
  .logical .or true [.default (rule false), .logical .and false [.default (rule true), .default (rule false)]]

theorem sampleTree_leaves {D : Type} {P : D → Prop} {rule : Bool → D} (h : ∀ b, P (rule b)) :
    (sampleTree rule).Leaves P := by
  refine .logical ?_
  simp only [mem_cons, not_mem_nil, or_false, forall_eq_or_imp, forall_eq]
  refine ⟨.default (h _), .logical ?_⟩
  simp only [mem_cons, not_mem_nil, or_false, forall_eq_or_imp, forall_eq]
  exact ⟨.default (h _), .default (h _)⟩

def sampleDNSRule (invert : Bool) : DefaultDNSRule (Nat × Bool) Unit :=
  { samplePortRule invert with }

def sampleMetadata : InboundContext (Nat × Bool) Unit :=
  { ctx := (443, false), ipCIDRMatchSource := true, didMatch := true }

theorem match_eq_meaning_sample :
    isMatch DefaultRule.matchStatesWithBase (sampleTree samplePortRule) sampleMetadata = true ∧
      isMatch DefaultRule.matchStatesWithBase (.default (samplePortRule false)) sampleMetadata = false ∧
      DNSRule.isMatch (sampleTree sampleDNSRule) sampleMetadata = true ∧
      DNSRule.matchStatesForMatch (sampleTree sampleDNSRule) sampleMetadata =
        DNSRule.matchStates (sampleTree sampleDNSRule) sampleMetadata := by
  obtain ⟨hroute, hdns, hsame⟩ := match_eq_meaning (@RuleSetItem.matchStatesWithBase (Nat × Bool) Unit)
  refine ⟨?_, ?_, ?_, ?_⟩
  · exact (hroute (sampleTree samplePortRule) (sampleTree_leaves samplePortRule_plain) sampleMetadata rfl).trans rfl
  · exact (hroute _ (.default (samplePortRule_plain false)) sampleMetadata rfl).trans rfl
  · have leaves : (sampleTree sampleDNSRule).Leaves fun r => r.toAbstractDefaultRule.Plain ∧ r.matchResponse = false :=
      sampleTree_leaves fun b => ⟨samplePortRule_plain b, rfl⟩
    exact (hdns (sampleTree sampleDNSRule) leaves sampleMetadata rfl).trans rfl
  · exact hsame (sampleTree sampleDNSRule) (sampleTree_leaves fun _ => rfl) sampleMetadata

/-- `domain` and `ip_cidr` items, over metadata that is whether they match. -/
def sampleDomainRule : AbstractDefaultRule (Bool × Bool) Unit Empty :=
  { destinationAddressItems := [fun v => v.ctx.1], destinationIPCIDRItems := [fun v => v.ctx.2] }

/-- With `IPCIDRMatchSource` set the `ip_cidr` items are source address items: the
domain that matches does not make up for them. -/
theorem match_source_ne_meaning :
    let m : InboundContext (Bool × Bool) Unit := { ctx := (true, false), ipCIDRMatchSource := true }
    sampleDomainRule.Plain ∧ m.ignoreDestinationIPCIDRMatch = false ∧
      isMatch (AbstractDefaultRule.matchStatesWithBase fun item => item.elim) (.default sampleDomainRule) m ≠
        (RuleTree.default sampleDomainRule).holds (·.holdsWith false m.toItemContext) :=
  ⟨⟨rfl, cons_ne_nil _ _⟩, rfl, by decide⟩

end Singlink.Rule
