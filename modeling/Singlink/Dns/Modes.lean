import Singlink.Dns.Router
/-!
# Both modes of the DNS router

Rules that ask nothing of the answer, and set neither a strategy nor
`disable_optimistic_cache`, take a query to the same end in legacy mode and in
rule mode: `matchDNS` and `exchangeWithRules` fold the same options over them and
skip the same servers. The `ip_cidr` items of a rule set ask nothing of the answer
under `rule_set_ip_cidr_match_source`, and yet legacy mode ignores them too.
-/

namespace Singlink.Dns

open Lib

variable {Inbound : Type}

/-- Options that both modes know. -/
structure RouteOptions.Shared (o : RouteOptions) : Prop where
  strategy : o.strategy = .asIS
  optimistic : o.disableOptimisticCache = false

/-- Actions that both modes know, with such options. -/
def DNSRuleAction.Shared : DNSRuleAction → Prop
  | .route _ options => options.Shared
  | .routeOptions options => options.Shared
  | .evaluate _ _ => False
  | .respond => False
  | .reject _ => True
  | .predefined _ => True

/-- A rule without `ip_cidr` items, also in its rule sets, `match_response` and the
actions and options of one mode only. -/
structure RouterRule.Shared (rule : RouterRule Inbound) : Prop where
  items : rule.rule.Leaves fun r => r.toAbstractDefaultRule.NoIPItems ∧ r.matchResponse = false
  action : rule.action.Shared

theorem RouterRule.Shared.withAddressLimit {rule : RouterRule Inbound} (h : rule.Shared) :
    rule.rule.withAddressLimit = false :=
  Rule.DNSRule.withAddressLimit_eq_false (h.items.mono fun _ hr => hr.1)

theorem applyLegacyRouteOptions_eq {o : RouteOptions} (ho : o.Shared) (fakeIP : Bool) (options : QueryOptions) :
    applyLegacyRouteOptions fakeIP options o =
      if fakeIP then { applyDNSRouteOptions options o with disableCache := true } else applyDNSRouteOptions options o := by
  obtain ⟨hstrategy, hoptimistic⟩ := ho
  unfold applyLegacyRouteOptions applyDNSRouteOptions
  rw [hstrategy, hoptimistic]
  cases fakeIP with
  | true => rfl
  | false => rfl

section modes

variable (r : DNSRouter Inbound) (client : ClientResults) (message : Msg) (question : Question)

/-- How a query ends that `matchDNS` has been asked about, when no rule limits
the addresses. -/
def DNSRouter.settle (calls : List ClientCall) : MatchedDNS Inbound → Outcome
  | .reject .default => { calls, result := .ok (refusedResponse message question) }
  | .reject .drop => { calls, result := .error .drop }
  | .predefined action => { calls, result := .ok (action.response message question) }
  | .transport transport _ _ options => r.exchangeOnce client message calls transport options

variable {rules : List (RouterRule Inbound)} {metadata : QueryMetadata Inbound}

theorem exchangeLegacy_eq_settle (hrules : ∀ rule ∈ rules, rule.Shared)
    (metadata : QueryMetadata Inbound) (options : QueryOptions) (calls : List ClientCall) :
    r.exchangeLegacy client message question metadata options rules calls =
      r.settle client message question calls (r.matchDNS metadata true (isAddressQuery message) rules options) := by
  rw [DNSRouter.exchangeLegacy]
  split
  · rename_i h
    rw [h]
    rfl
  · rename_i h
    rw [h]
    rfl
  · rename_i h
    rw [h]
    rfl
  · rename_i h
    rw [h]
    rfl
  · rename_i transport rule rest dnsOptions h
    dsimp only
    rw [h]
    have hlimit := (hrules rule (matchDNS_mem r h)).withAddressLimit
    simp only [addressLimitResponseCheck, hlimit, Bool.false_eq_true, if_false, Option.isSome_none, Bool.false_and]
    rfl

theorem settle_matchDNS (hrules : ∀ rule ∈ rules, rule.Shared) (hresponse : metadata.dnsResponse = none) (options : QueryOptions)
    (calls : List ClientCall) (isAddressQuery : Bool) :
    r.settle client message question calls (r.matchDNS metadata true isAddressQuery rules options) =
      r.exchangeWithRules client message question metadata true rules calls options none := by
  induction rules generalizing options with
  | nil => rfl
  | cons rule rules ih =>
    have hrule := hrules rule List.mem_cons_self
    have hrest := ih fun rule hmem => hrules rule (List.mem_cons_of_mem _ hmem)
    -- the two modes look at the same metadata
    have hmetadata : { metadata.resetRuleCache with destinationAddressMatchFromResponse := false } =
        ({ metadata.resetRuleCache with
          dnsResponse := Option.map Prod.fst (none : Option (Msg × Transport))
          destinationAddressMatchFromResponse := false } : QueryMetadata Inbound) := by
      simp [Rule.InboundContext.resetRuleCache, Rule.InboundContext.resetRuleMatchCache, hresponse]
    rw [DNSRouter.matchDNS, DNSRouter.exchangeWithRules, hrule.withAddressLimit, Bool.false_and,
      if_neg Bool.false_ne_true, Rule.DNSRule.legacyPreMatch_eq_isMatch hrule.items, hmetadata]
    split
    · have haction := hrule.action
      cases ha : rule.action with
      | route server action =>
        rw [ha] at haction
        simp only [DNSRouter.resolveDNSRoute]
        cases r.transports.lookup server with
        | none => exact hrest options
        | some transport =>
          simp only [Bool.not_true, Bool.and_false, Bool.false_eq_true, if_false]
          rw [applyLegacyRouteOptions_eq haction]
          rfl
      | routeOptions action =>
        rw [ha] at haction
        simp only
        rw [applyLegacyRouteOptions_eq haction]
        exact hrest _
      | evaluate server action | respond =>
        rw [ha] at haction
        exact haction.elim
      | reject method =>
        cases method with
        | default => rfl
        | drop => rfl
      | predefined action => rfl
    · exact hrest options

end modes

/-- With rules that both modes know, `Exchange` makes the same calls of the
client with the same options, and has the same result, in both modes. -/
theorem exchange_same_in_modes (r : DNSRouter Inbound) (hrules : ∀ rule ∈ r.rules, rule.Shared)
    (client : ClientResults) (metadata : QueryMetadata Inbound) (message : Msg) (transport : Option Transport)
    (options : QueryOptions) :
    r.exchange client true metadata message transport options =
      r.exchange client false metadata message transport options := by
  unfold DNSRouter.exchange
  split
  · rename_i question hquestion
    split
    · rfl
    · cases transport with
      | some transport => rfl
      | none =>
        simp only [if_true, Bool.false_eq_true, if_false]
        rw [exchangeLegacy_eq_settle r client message question hrules]
        exact settle_matchDNS r client message question hrules rfl options [] _
  · rfl

section samples

/-- `domain: a.example` under an inverted `or`, with rule sets that have none. -/
private def domainRule : Rule.DNSRule (QueryContext Unit) Msg :=
  .logical .or true [.default
    { destinationAddressItems := [fun v => v.ctx.domain == "a.example"], ruleSetItem := some { setList := [] } }]

private def sampleRouter : DNSRouter Unit where
  rules := [{ rule := domainRule, action := .routeOptions { disableCache := true } },
    { rule := domainRule, action := .route "fake" {} }, { rule := domainRule, action := .route "missing" {} },
    { rule := domainRule, action := .reject .drop }]
  transports := AList.insert (β := fun _ => Transport) "fake" { tag := "fake", fakeIP := true } ∅
  defaultTransport := { tag := "local" }
  defaultDomainStrategy := .preferIPv4

private theorem domainRule_items :
    domainRule.Leaves fun r => r.toAbstractDefaultRule.NoIPItems ∧ r.matchResponse = false := by
  refine .logical fun t ht => ?_
  rw [List.mem_singleton.1 ht]
  refine .default ⟨⟨rfl, fun s hs set hset => ?_⟩, rfl⟩
  cases hs
  cases hset

private def sampleMetadata : QueryMetadata Unit := { ctx := { inbound := () } }

private def sampleQuery : Msg := { question := [{ name := "b.example.", qtype := typeA, qclass := classINET }] }

theorem exchange_same_in_modes_sample :
    let client : ClientResults := fun _ _ => .error .transport
    sampleRouter.exchange client true sampleMetadata sampleQuery none {} =
      sampleRouter.exchange client false sampleMetadata sampleQuery none {} := by
  refine exchange_same_in_modes sampleRouter ?_ _ sampleMetadata sampleQuery none {}
  intro rule hrule
  simp only [sampleRouter, List.mem_cons, List.not_mem_nil, or_false] at hrule
  rcases hrule with rfl | rfl | rfl | rfl
  · exact ⟨domainRule_items, rfl, rfl⟩
  · exact ⟨domainRule_items, rfl, rfl⟩
  · exact ⟨domainRule_items, rfl, rfl⟩
  · exact ⟨domainRule_items, trivial⟩

/-- A rule with a rule set of one `ip_cidr` item, which is for the source address
and does not match it. -/
private def sourceRule : Rule.DNSRule (QueryContext Unit) Msg :=
  .default
    { ruleSetItem := some
        { setList := [⟨[.default { destinationIPCIDRItems := [fun _ => false] }]⟩], ipCidrMatchSource := true } }

/-- No rule asks for the address of an answer. In legacy mode one drops the query,
which in rule mode goes to the default server. -/
theorem exchange_drops_in_legacy_mode :
    let client : ClientResults := fun _ _ => .error .transport
    let router := { sampleRouter with rules := [{ rule := sourceRule, action := .reject .drop }] }
    (∀ rule ∈ router.rules, rule.rule.Leaves (fun r => r.withAddressLimit = false ∧ r.matchResponse = false) ∧
        rule.action.Shared) ∧
      (router.exchange client true sampleMetadata sampleQuery none {}).calls = [] ∧
      (router.exchange client false sampleMetadata sampleQuery none {}).calls.length = 1 := by
  refine ⟨?_, ?_, rfl⟩
  · rw [List.forall_mem_singleton]
    exact ⟨.default ⟨rfl, rfl⟩, trivial⟩
  · simp only [DNSRouter.exchange, sampleQuery, if_true]
    rw [DNSRouter.exchangeLegacy]
    rfl

end samples

end Singlink.Dns
