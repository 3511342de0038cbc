import Singlink.Route.Rule.MatchState
/-!
# Rules and their evaluator

`route/rule/rule_abstract.go`, `match_state.go`, `rule_item_rule_set.go`,
`rule_set_local.go`, `rule_set_remote.go` and the matching part of
`rule_dns.go`.

Route rules, headless rules (the members of a rule set) and DNS rules are the
same two shapes, `abstractDefaultRule` and `abstractLogicalRule`. A tree of
them is a `RuleTree` over its default rules; what differs is the default rule:
a headless one has no `rule_set` item, a DNS one has a `match_response` flag.
-/

namespace Singlink.Rule

open RuleMatchStateSet

variable {Ctx Msg S D : Type}

/-! ## Metadata -/

/-- What a rule item can read of `adapter.InboundContext`. No item reads
`DidMatch` or `IgnoreDestinationIPCIDRMatch`, and none writes a field. -/
structure ItemContext (Ctx Msg : Type) where
  ctx : Ctx
  dnsResponse : Option Msg := none
  destinationAddressMatchFromResponse : Bool := false
  ipCIDRMatchSource : Bool := false
  ipCIDRAcceptEmpty : Bool := false

/-- `adapter.InboundContext`, as far as rules use it. -/
structure InboundContext (Ctx Msg : Type) extends ItemContext Ctx Msg where
  didMatch : Bool := false
  ignoreDestinationIPCIDRMatch : Bool := false

def InboundContext.resetRuleMatchCache (m : InboundContext Ctx Msg) : InboundContext Ctx Msg :=
  { m with didMatch := false }

def InboundContext.resetRuleCache (m : InboundContext Ctx Msg) : InboundContext Ctx Msg :=
  { m with ipCIDRMatchSource := false, ipCIDRAcceptEmpty := false }.resetRuleMatchCache

/-- A rule item, by what its `Match` answers. -/
abbrev RuleItem (Ctx Msg : Type) := ItemContext Ctx Msg → Bool

def matchAnyItem (items : List (RuleItem Ctx Msg)) (m : InboundContext Ctx Msg) : Bool :=
  items.any (· m.toItemContext)

/-! ## Default rules -/

/-- `abstractDefaultRule`, with `S` the type of its `rule_set` item. -/
structure AbstractDefaultRule (Ctx Msg S : Type) where
  items : List (RuleItem Ctx Msg) := []
  sourceAddressItems : List (RuleItem Ctx Msg) := []
  sourcePortItems : List (RuleItem Ctx Msg) := []
  destinationAddressItems : List (RuleItem Ctx Msg) := []
  destinationIPCIDRItems : List (RuleItem Ctx Msg) := []
  destinationPortItems : List (RuleItem Ctx Msg) := []
  ruleSetItem : Option S := none
  invert : Bool := false

namespace AbstractDefaultRule

/-- Every constructor of the source appends an item to its group and to
`allItems`; only whether `allItems` is empty is ever asked. -/
def allItems (r : AbstractDefaultRule Ctx Msg S) : List (RuleItem Ctx Msg ⊕ S) :=
  (r.items ++ r.sourceAddressItems ++ r.sourcePortItems ++ r.destinationAddressItems ++
    r.destinationIPCIDRItems ++ r.destinationPortItems).map .inl ++ r.ruleSetItem.toList.map .inr

def destinationIPCIDRMatchesSource (r : AbstractDefaultRule Ctx Msg S) (m : InboundContext Ctx Msg) : Bool :=
  !m.ignoreDestinationIPCIDRMatch && m.ipCIDRMatchSource && !r.destinationIPCIDRItems.isEmpty

def destinationIPCIDRMatchesDestination (r : AbstractDefaultRule Ctx Msg S) (m : InboundContext Ctx Msg) : Bool :=
  !m.ignoreDestinationIPCIDRMatch && !m.ipCIDRMatchSource && !r.destinationIPCIDRItems.isEmpty

def requiresSourceAddressMatch (r : AbstractDefaultRule Ctx Msg S) (m : InboundContext Ctx Msg) : Bool :=
  !r.sourceAddressItems.isEmpty || r.destinationIPCIDRMatchesSource m

def requiresDestinationAddressMatch (r : AbstractDefaultRule Ctx Msg S) (m : InboundContext Ctx Msg) : Bool :=
  !r.destinationAddressItems.isEmpty || r.destinationIPCIDRMatchesDestination m

/-- One `if len(items) > 0 { .. }` block: a match among the items adds the
group's flag. -/
def matchGroup (items : List (RuleItem Ctx Msg)) (flag : RuleMatchState)
    (st : RuleMatchState × InboundContext Ctx Msg) : RuleMatchState × InboundContext Ctx Msg :=
  if items.isEmpty then st
  else (if matchAnyItem items st.2 then st.1 ||| flag else st.1, { st.2 with didMatch := true })

/-- The block for the `ip_cidr` items, which are only looked at while the flag
they can add is missing. -/
def matchIPCIDRGroup (applies : Bool) (items : List (RuleItem Ctx Msg)) (flag : RuleMatchState)
    (st : RuleMatchState × InboundContext Ctx Msg) : RuleMatchState × InboundContext Ctx Msg :=
  if applies && !st.1.has flag then
    (if matchAnyItem items st.2 then st.1 ||| flag else st.1, { st.2 with didMatch := true })
  else if applies then (st.1, { st.2 with didMatch := true })
  else st

/-- The blocks up to the loop over `items`, in the order of the source. -/
def matchGroups (r : AbstractDefaultRule Ctx Msg S) (m : InboundContext Ctx Msg) (evaluationBase : RuleMatchState) :
    RuleMatchState × InboundContext Ctx Msg :=
  let st := matchGroup r.sourceAddressItems ruleMatchSourceAddress (evaluationBase, m)
  let st := matchIPCIDRGroup (r.destinationIPCIDRMatchesSource m) r.destinationIPCIDRItems
    ruleMatchSourceAddress st
  let st := matchGroup r.sourcePortItems ruleMatchSourcePort st
  let st := matchGroup r.destinationAddressItems ruleMatchDestinationAddress st
  let st := matchIPCIDRGroup (r.destinationIPCIDRMatchesDestination m) r.destinationIPCIDRItems
    ruleMatchDestinationAddress st
  matchGroup r.destinationPortItems ruleMatchDestinationPort st

/-- The function `stateSet.filter` gets: every group the rule asks about has
its flag. -/
def satisfied (r : AbstractDefaultRule Ctx Msg S) (m : InboundContext Ctx Msg) (state : RuleMatchState) : Bool :=
  if r.requiresSourceAddressMatch m && !state.has ruleMatchSourceAddress then false
  else if !r.sourcePortItems.isEmpty && !state.has ruleMatchSourcePort then false
  else if r.requiresDestinationAddressMatch m && !state.has ruleMatchDestinationAddress then false
  else if !r.destinationPortItems.isEmpty && !state.has ruleMatchDestinationPort then false
  else true

def invertedFailure (r : AbstractDefaultRule Ctx Msg S) (base : RuleMatchState) : RuleMatchStateSet :=
  if r.invert then withBase emptyRuleMatchState base else 0#16

/-- `abstractDefaultRule.matchStatesWithBase`; `ruleSet` evaluates the
`rule_set` item. -/
def matchStatesWithBase (ruleSet : S → InboundContext Ctx Msg → RuleMatchState → RuleMatchStateSet)
    (r : AbstractDefaultRule Ctx Msg S) (m : InboundContext Ctx Msg) (inheritedBase : RuleMatchState) :
    RuleMatchStateSet :=
  if r.allItems.isEmpty then withBase emptyRuleMatchState inheritedBase
  else
    let evaluationBase := if r.invert then 0#4 else inheritedBase
    let (baseState, m) := r.matchGroups m evaluationBase
    if !r.items.all (· m.toItemContext) then r.invertedFailure inheritedBase
    else
      let m := if r.items.isEmpty then m else { m with didMatch := true }
      let (stateSet, m) := match r.ruleSetItem with
        | some item =>
          let m := { m with didMatch := true }
          (ruleSet item m baseState, m)
        | none => (singleRuleMatchState baseState, m)
      let stateSet := filter stateSet (r.satisfied m)
      if isEmpty stateSet then r.invertedFailure inheritedBase
      else if r.invert then
        if m.ignoreDestinationIPCIDRMatch && stateSet == emptyRuleMatchState && !m.didMatch &&
            !r.destinationIPCIDRItems.isEmpty then
          withBase emptyRuleMatchState inheritedBase
        else 0#16
      else stateSet

end AbstractDefaultRule

/-! ## Trees of rules -/

inductive LogicalMode where
  | and
  | or

/-- Default rules (of type `D`) under `abstractLogicalRule`s. -/
inductive RuleTree (D : Type) where
  | default (rule : D)
  | logical (mode : LogicalMode) (invert : Bool) (rules : List (RuleTree D))

namespace RuleTree

variable (leaf : D → InboundContext Ctx Msg → RuleMatchState → RuleMatchStateSet)

mutual
/-- `matchHeadlessRuleStatesWithBase` on a tree, with
`abstractLogicalRule.matchStatesWithBase` as its second case. -/
def matchStatesWithBase : RuleTree D → InboundContext Ctx Msg → RuleMatchState → RuleMatchStateSet
  | .default rule, m, base => leaf rule m base
  | .logical mode invert rules, m, base =>
    let evaluationBase := if invert then 0#4 else base
    match mode with
    | .and =>
      match matchAllWithBase rules m evaluationBase (withBase emptyRuleMatchState evaluationBase) with
      | none => if invert then withBase emptyRuleMatchState base else 0#16
      | some stateSet => if invert then 0#16 else stateSet
    | .or =>
      let stateSet := matchSomeWithBase rules m evaluationBase 0#16
      if isEmpty stateSet then if invert then withBase emptyRuleMatchState base else 0#16
      else if invert then 0#16 else stateSet

/-- The loop of the `and` mode; `none` is its early return. -/
def matchAllWithBase : List (RuleTree D) → InboundContext Ctx Msg → RuleMatchState → RuleMatchStateSet →
    Option RuleMatchStateSet
  | [], _, _, stateSet => some stateSet
  | rule :: rules, m, base, stateSet =>
    let nestedStateSet := matchStatesWithBase rule m.resetRuleCache base
    if isEmpty nestedStateSet then none
    else matchAllWithBase rules m base (combine stateSet nestedStateSet)

def matchSomeWithBase : List (RuleTree D) → InboundContext Ctx Msg → RuleMatchState → RuleMatchStateSet →
    RuleMatchStateSet
  | [], _, _, stateSet => stateSet
  | rule :: rules, m, base, stateSet =>
    matchSomeWithBase rules m base (merge stateSet (matchStatesWithBase rule m.resetRuleCache base))
end

def matchStates (t : RuleTree D) (m : InboundContext Ctx Msg) : RuleMatchStateSet :=
  matchStatesWithBase leaf t m 0#4

/-- `Match`. -/
def isMatch (t : RuleTree D) (m : InboundContext Ctx Msg) : Bool := !isEmpty (matchStates leaf t m)

inductive Leaves (P : D → Prop) : RuleTree D → Prop
  | default {rule : D} : P rule → Leaves P (.default rule)
  | logical {mode invert} {rules : List (RuleTree D)} : (∀ t ∈ rules, Leaves P t) → Leaves P (.logical mode invert rules)

/-- Induction over trees, with the hypothesis for every rule of a logical one. -/
@[elab_as_elim]
theorem induct {motive : RuleTree D → Prop} (default : ∀ rule, motive (.default rule))
    (logical : ∀ mode invert rules, (∀ t ∈ rules, motive t) → motive (.logical mode invert rules)) (t : RuleTree D) :
    motive t := by
  refine @RuleTree.rec D motive (fun ts => ∀ t ∈ ts, motive t) default logical ?_ ?_ t
  · intro t ht
    cases ht
  · intro t ts ht hts
    exact List.forall_mem_cons.2 ⟨ht, hts⟩

variable {E : Type}

mutual
def map (f : D → E) : RuleTree D → RuleTree E
  | .default rule => .default (f rule)
  | .logical mode invert rules => .logical mode invert (mapAll f rules)

def mapAll (f : D → E) : List (RuleTree D) → List (RuleTree E)
  | [] => []
  | t :: ts => map f t :: mapAll f ts
end

theorem mapAll_eq (f : D → E) (ts : List (RuleTree D)) : mapAll f ts = ts.map (map f) := by
  induction ts with
  | nil => rw [mapAll, List.map_nil]
  | cons t ts ih => rw [mapAll, List.map_cons, ih]

end RuleTree

/-! ## Rule sets -/

abbrev HeadlessRule (Ctx Msg : Type) := RuleTree (AbstractDefaultRule Ctx Msg Empty)

def HeadlessRule.matchStatesWithBase : HeadlessRule Ctx Msg → InboundContext Ctx Msg → RuleMatchState →
    RuleMatchStateSet :=
  RuleTree.matchStatesWithBase (AbstractDefaultRule.matchStatesWithBase fun item => item.elim)

/-- `LocalRuleSet` or `RemoteRuleSet`, by its `ruleList()`: the two match with
the same code. -/
structure RuleSet (Ctx Msg : Type) where
  rules : List (HeadlessRule Ctx Msg)

def RuleSet.matchStatesWithBase (s : RuleSet Ctx Msg) (m : InboundContext Ctx Msg) (base : RuleMatchState) :
    RuleMatchStateSet :=
  s.rules.foldl (fun stateSet rule => merge stateSet (rule.matchStatesWithBase m.resetRuleMatchCache base)) 0#16

structure RuleSetItem (Ctx Msg : Type) where
  setList : List (RuleSet Ctx Msg)
  ipCidrMatchSource : Bool := false
  ipCidrAcceptEmpty : Bool := false

/-- The metadata a rule set of the item is matched against. -/
def RuleSetItem.nestedMetadata (r : RuleSetItem Ctx Msg) (m : InboundContext Ctx Msg) : InboundContext Ctx Msg :=
  { m.resetRuleMatchCache with
    ipCIDRMatchSource := r.ipCidrMatchSource, ipCIDRAcceptEmpty := r.ipCidrAcceptEmpty }

def RuleSetItem.matchStatesWithBase (r : RuleSetItem Ctx Msg) (m : InboundContext Ctx Msg) (base : RuleMatchState) :
    RuleMatchStateSet :=
  r.setList.foldl (fun stateSet ruleSet => merge stateSet (ruleSet.matchStatesWithBase (r.nestedMetadata m) base)) 0#16

/-! ## Route rules and DNS rules -/

abbrev DefaultRule (Ctx Msg : Type) := AbstractDefaultRule Ctx Msg (RuleSetItem Ctx Msg)

def DefaultRule.matchStatesWithBase : DefaultRule Ctx Msg → InboundContext Ctx Msg → RuleMatchState →
    RuleMatchStateSet :=
  AbstractDefaultRule.matchStatesWithBase RuleSetItem.matchStatesWithBase

structure DefaultDNSRule (Ctx Msg : Type) extends AbstractDefaultRule Ctx Msg (RuleSetItem Ctx Msg) where
  matchResponse : Bool := false

abbrev DNSRule (Ctx Msg : Type) := RuleTree (DefaultDNSRule Ctx Msg)

/-- The embedded `abstractDefaultRule` provides `matchStatesWithBase`. -/
def DefaultDNSRule.matchStatesWithBase (r : DefaultDNSRule Ctx Msg) : InboundContext Ctx Msg → RuleMatchState →
    RuleMatchStateSet :=
  DefaultRule.matchStatesWithBase r.toAbstractDefaultRule

def DefaultDNSRule.matchStatesForMatch (r : DefaultDNSRule Ctx Msg) (m : InboundContext Ctx Msg) :
    RuleMatchStateSet :=
  if r.matchResponse then
    if m.dnsResponse.isNone then r.invertedFailure 0#4
    else r.matchStatesWithBase { m with destinationAddressMatchFromResponse := true } 0#4
  else r.matchStatesWithBase m 0#4

namespace DNSRule

def matchStates (t : DNSRule Ctx Msg) (m : InboundContext Ctx Msg) : RuleMatchStateSet :=
  RuleTree.matchStates DefaultDNSRule.matchStatesWithBase t m

mutual
/-- `matchDNSHeadlessRuleStatesForMatch`, with
`LogicalDNSRule.matchStatesForMatch` as its second case. -/
def matchStatesForMatch : DNSRule Ctx Msg → InboundContext Ctx Msg → RuleMatchStateSet
  | .default rule, m => rule.matchStatesForMatch m
  | .logical mode invert rules, m =>
    match mode with
    | .and =>
      match matchAllForMatch rules m emptyRuleMatchState with
      | none => if invert then emptyRuleMatchState else 0#16
      | some stateSet => if invert then 0#16 else stateSet
    | .or =>
      let stateSet := matchSomeForMatch rules m 0#16
      if isEmpty stateSet then if invert then emptyRuleMatchState else 0#16
      else if invert then 0#16 else stateSet

def matchAllForMatch : List (DNSRule Ctx Msg) → InboundContext Ctx Msg → RuleMatchStateSet → Option RuleMatchStateSet
  | [], _, stateSet => some stateSet
  | rule :: rules, m, stateSet =>
    let nestedStateSet := matchStatesForMatch rule m.resetRuleCache
    if isEmpty nestedStateSet then none else matchAllForMatch rules m (combine stateSet nestedStateSet)

def matchSomeForMatch : List (DNSRule Ctx Msg) → InboundContext Ctx Msg → RuleMatchStateSet → RuleMatchStateSet
  | [], _, stateSet => stateSet
  | rule :: rules, m, stateSet =>
    matchSomeForMatch rules m (merge stateSet (matchStatesForMatch rule m.resetRuleCache))
end

/-- `Match` of `DefaultDNSRule` and `LogicalDNSRule`. -/
def isMatch (t : DNSRule Ctx Msg) (m : InboundContext Ctx Msg) : Bool := !isEmpty (t.matchStatesForMatch m)

end DNSRule

end Singlink.Rule
