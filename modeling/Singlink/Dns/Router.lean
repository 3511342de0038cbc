import Singlink.Dns.Client
import Singlink.Route.Rule.Legacy
/-!
# The DNS router

`Router.Exchange` of `dns/router.go` in its two modes. In legacy mode `matchDNS`
picks a transport and is called again when the answer does not meet the rule's
address limit; else `exchangeWithRules` goes through the rules once, and rules
can look at an answer that an earlier rule has asked for.

What the client returns is a parameter: the result of each call, given the calls
before. An outcome has these calls. The reverse mapping, which is filled from the
response and the transport of the outcome, is left out.
-/

namespace Singlink.Dns

open Lib

/-! ## Rules and their actions -/

/-- A transport, with whether its type is `fakeip`. -/
structure Transport where
  tag : String
  fakeIP : Bool := false
  deriving DecidableEq

structure RouteOptions where
  strategy : DomainStrategy := .asIS
  disableCache : Bool := false
  disableOptimisticCache : Bool := false
  rewriteTTL : Option UInt32 := none
  timeout : Int := 0
  clientSubnet : Option Subnet := none

/-- The methods that DNS rules may reject with. -/
inductive RejectMethod where
  | default
  | drop

structure Predefined where
  rcode : Nat
  answer : List RR
  ns : List RR
  extra : List RR

inductive DNSRuleAction where
  | route (server : String) (options : RouteOptions)
  | routeOptions (options : RouteOptions)
  | evaluate (server : String) (options : RouteOptions)
  | respond
  | reject (method : RejectMethod)
  | predefined (action : Predefined)

/-- `rewriteRecords`, for one record: a name with a wildcard becomes the name
asked for. -/
def RR.rewrite (question : Question) (r : RR) : RR :=
  match r.name.toList with
  | '*' :: suffix => if suffix.isSuffixOf question.name.toList then { r with name := question.name } else r
  | _ => r

def Predefined.response (action : Predefined) (request : Msg) (question : Question) : Msg where
  id := request.id
  response := true
  authoritative := true
  recursionDesired := true
  recursionAvailable := true
  rcode := action.rcode
  question := request.question
  answer := action.answer.map (RR.rewrite question)
  ns := action.ns.map (RR.rewrite question)
  extra := action.extra.map (RR.rewrite question)

/-- The metadata of a query: what `Exchange` sets, and the rest of it. -/
structure QueryContext (Inbound : Type) where
  inbound : Inbound
  destination : Option String := none
  queryType : UInt16 := 0
  ipVersion : Nat := 0
  domain : String := ""

variable {Inbound : Type}

abbrev QueryMetadata (Inbound : Type) := Rule.InboundContext (QueryContext Inbound) Msg

/-- A DNS rule with its action. -/
structure RouterRule (Inbound : Type) where
  rule : Rule.DNSRule (QueryContext Inbound) Msg
  action : DNSRuleAction

/-! ## Calls of the client -/

structure ClientCall where
  transport : Transport
  message : Msg
  options : QueryOptions
  responseChecker : Option (Msg → Bool)

/-- What `Client.Exchange` returns to a call, given the calls before. -/
abbrev ClientResults := List ClientCall → ClientCall → Except ClientError Msg

inductive RouterError where
  | closed
  | drop
  | respondMissing
  | client (err : ClientError)

/-- What `Exchange` has done: the calls of the client, the transport of the
response and the result. -/
structure Outcome where
  calls : List ClientCall
  transport : Option Transport := none
  result : Except RouterError Msg

/-- `Router`, as far as `Exchange` uses it. -/
structure DNSRouter (Inbound : Type) where
  rules : List (RouterRule Inbound)
  transports : GoMap String Transport
  defaultTransport : Transport
  defaultDomainStrategy : DomainStrategy
  closing : Bool := false

def rcodeRefused : Nat := 5

def refusedResponse (message : Msg) (question : Question) : Msg :=
  { id := message.id, rcode := rcodeRefused, response := true, question := [question] }

/-- The options of a call, where the strategy has a default. -/
def DNSRouter.exchangeOptions (r : DNSRouter Inbound) (options : QueryOptions) : QueryOptions :=
  if options.strategy = .asIS then { options with strategy := r.defaultDomainStrategy } else options

def outcomeOf (calls : List ClientCall) (call : ClientCall) (result : Except ClientError Msg) : Outcome where
  calls := calls ++ [call]
  transport := some call.transport
  result := result.mapError .client

section exchange

variable (r : DNSRouter Inbound) (client : ClientResults) (message : Msg) (question : Question)

/-! ## Legacy mode -/

/-- The options of a rule in `matchDNS`. -/
def applyLegacyRouteOptions (fakeIP : Bool) (options : QueryOptions) (action : RouteOptions) : QueryOptions :=
  { options with
    strategy := if action.strategy ≠ .asIS then action.strategy else options.strategy
    disableCache := if fakeIP || action.disableCache then true else options.disableCache
    rewriteTTL := action.rewriteTTL <|> options.rewriteTTL
    timeout := if action.timeout > 0 then action.timeout else options.timeout
    clientSubnet := action.clientSubnet <|> options.clientSubnet }

/-- What `matchDNS` returns: a transport with the rule that chose it and the rules
after that one, or the rule that ends the query. -/
inductive MatchedDNS (Inbound : Type) where
  | transport (transport : Transport) (rule : Option (RouterRule Inbound)) (rest : List (RouterRule Inbound))
      (options : QueryOptions)
  | reject (method : RejectMethod)
  | predefined (action : Predefined)

/-- `matchDNS` on the rules that are left. -/
def DNSRouter.matchDNS (metadata : QueryMetadata Inbound) (allowFakeIP isAddressQuery : Bool) :
    List (RouterRule Inbound) → QueryOptions → MatchedDNS Inbound
  | [], options => .transport r.defaultTransport none [] options
  | rule :: rules, options =>
    if rule.rule.withAddressLimit && !isAddressQuery then matchDNS metadata allowFakeIP isAddressQuery rules options
    else if rule.rule.legacyPreMatch { metadata.resetRuleCache with destinationAddressMatchFromResponse := false } then
      match rule.action with
      | .route server action =>
        match r.transports.lookup server with
        | none => matchDNS metadata allowFakeIP isAddressQuery rules options
        | some transport =>
          if transport.fakeIP && !allowFakeIP then matchDNS metadata allowFakeIP isAddressQuery rules options
          else .transport transport (some rule) rules (applyLegacyRouteOptions transport.fakeIP options action)
      | .routeOptions action =>
        matchDNS metadata allowFakeIP isAddressQuery rules (applyLegacyRouteOptions false options action)
      | .reject method => .reject method
      | .predefined action => .predefined action
      | .evaluate _ _ => matchDNS metadata allowFakeIP isAddressQuery rules options
      | .respond => matchDNS metadata allowFakeIP isAddressQuery rules options
    else matchDNS metadata allowFakeIP isAddressQuery rules options

def isAddressQuery (message : Msg) : Bool :=
  message.question.any fun question =>
    question.qtype == typeA || question.qtype == typeAAAA || question.qtype == typeHTTPS

/-- `addressLimitResponseCheck`, on metadata as `matchDNS` leaves it. -/
def addressLimitResponseCheck (rule : Option (RouterRule Inbound)) (metadata : QueryMetadata Inbound) :
    Option (Msg → Bool) :=
  match rule with
  | none => none
  | some rule =>
    if rule.rule.withAddressLimit then
      some (rule.rule.matchAddressLimit { metadata.resetRuleCache with destinationAddressMatchFromResponse := false })
    else none

/-- An error that lets the router go on to the next rule. -/
def ClientError.isRejected : ClientError → Bool
  | responseRejectedCached => true
  | responseRejected _ => true
  | _ => false

def isRejected (result : Except ClientError Msg) : Bool :=
  match result with
  | .ok _ => false
  | .error err => err.isRejected

section matchDNS

variable {metadata : QueryMetadata Inbound} {allowFakeIP isAddressQuery : Bool} {rules rest : List (RouterRule Inbound)}
  {options options' : QueryOptions} {transport : Transport} {rule : RouterRule Inbound}
  (h : r.matchDNS metadata allowFakeIP isAddressQuery rules options = .transport transport (some rule) rest options')

include h

/-- The rule that `matchDNS` stops at, with those it passed before and those left. -/
theorem matchDNS_split : ∃ before, rules = before ++ rule :: rest := by
  induction rules generalizing options with
  | nil => cases h
  | cons head rules ih =>
    have hskip : ∀ {options}, r.matchDNS metadata allowFakeIP isAddressQuery rules options =
        .transport transport (some rule) rest options' → ∃ before, head :: rules = before ++ rule :: rest := by
      intro options h
      obtain ⟨before, hrules⟩ := ih h
      exact ⟨head :: before, by rw [hrules, List.cons_append]⟩
    rw [DNSRouter.matchDNS] at h
    split at h
    · exact hskip h
    · split at h
      · split at h
        · split at h
          · exact hskip h
          · split at h
            · exact hskip h
            · cases h
              exact ⟨[], rfl⟩
        · exact hskip h
        · cases h
        · cases h
        · exact hskip h
        · exact hskip h
      · exact hskip h

theorem matchDNS_rest_lt : rest.length < rules.length := by
  obtain ⟨before, rfl⟩ := matchDNS_split r h
  rw [List.length_append, List.length_cons]
  omega

theorem matchDNS_mem : rule ∈ rules := by
  obtain ⟨before, rfl⟩ := matchDNS_split r h
  exact List.mem_append_right before List.mem_cons_self

end matchDNS

/-- The loop of `Exchange` in legacy mode, on the rules that are left. -/
def DNSRouter.exchangeLegacy (metadata : QueryMetadata Inbound) (options : QueryOptions)
    (rules : List (RouterRule Inbound)) (calls : List ClientCall) : Outcome :=
  match h : r.matchDNS metadata true (isAddressQuery message) rules options with
  | .reject .default => { calls, result := .ok (refusedResponse message question) }
  | .reject .drop => { calls, result := .error .drop }
  | .predefined action => { calls, result := .ok (action.response message question) }
  | .transport transport none _ dnsOptions =>
    let call : ClientCall :=
      { transport, message, options := r.exchangeOptions dnsOptions, responseChecker := none }
    outcomeOf calls call (client calls call)
  | .transport transport (some rule) rest dnsOptions =>
    have := matchDNS_rest_lt r h
    let responseCheck := addressLimitResponseCheck (some rule) metadata
    let call : ClientCall :=
      { transport, message, options := r.exchangeOptions dnsOptions, responseChecker := responseCheck }
    let result := client calls call
    if responseCheck.isSome && isRejected result then exchangeLegacy metadata options rest (calls ++ [call])
    else outcomeOf calls call result
termination_by rules.length
decreasing_by assumption

/-! ## Rule mode -/

def applyDNSRouteOptions (options : QueryOptions) (routeOptions : RouteOptions) : QueryOptions :=
  { options with
    disableCache := if routeOptions.disableCache then true else options.disableCache
    disableOptimisticCache := if routeOptions.disableOptimisticCache then true else options.disableOptimisticCache
    rewriteTTL := routeOptions.rewriteTTL <|> options.rewriteTTL
    timeout := if routeOptions.timeout > 0 then routeOptions.timeout else options.timeout
    clientSubnet := routeOptions.clientSubnet <|> options.clientSubnet }

/-- `resolveDNSRoute`, with `none` for a route that is missing or skipped. -/
def DNSRouter.resolveDNSRoute (server : String) (routeOptions : RouteOptions) (allowFakeIP : Bool)
    (options : QueryOptions) : Option (Transport × QueryOptions) :=
  match r.transports.lookup server with
  | none => none
  | some transport =>
    if transport.fakeIP && !allowFakeIP then none
    else
      let options := applyDNSRouteOptions options routeOptions
      some (transport, if transport.fakeIP then { options with disableCache := true } else options)

/-- A call without a checker that ends the query. -/
def DNSRouter.exchangeOnce (calls : List ClientCall) (transport : Transport) (options : QueryOptions) : Outcome :=
  let call : ClientCall := { transport, message, options := r.exchangeOptions options, responseChecker := none }
  outcomeOf calls call (client calls call)

/-- `exchangeWithRules` on the rules that are left, with the response that the
last `evaluate` has left. -/
def DNSRouter.exchangeWithRules (metadata : QueryMetadata Inbound) (allowFakeIP : Bool) :
    List (RouterRule Inbound) → List ClientCall → QueryOptions → Option (Msg × Transport) → Outcome
  | [], calls, options, _ => r.exchangeOnce client message calls r.defaultTransport options
  | rule :: rules, calls, options, evaluated =>
    if rule.rule.isMatch
        { metadata.resetRuleCache with
          dnsResponse := evaluated.map Prod.fst
          destinationAddressMatchFromResponse := false } then
      match rule.action with
      | .routeOptions action =>
        exchangeWithRules metadata allowFakeIP rules calls (applyDNSRouteOptions options action) evaluated
      | .evaluate server action =>
        match r.transports.lookup server with
        | none => exchangeWithRules metadata allowFakeIP rules calls options none
        | some transport =>
          let call : ClientCall :=
            { transport, message, options := r.exchangeOptions (applyDNSRouteOptions options action)
              responseChecker := none }
          let evaluated := match client calls call with
            | .ok response => some (response, transport)
            | .error _ => none
          exchangeWithRules metadata allowFakeIP rules (calls ++ [call]) options evaluated
      | .respond =>
        match evaluated with
        | none => { calls, result := .error .respondMissing }
        | some (response, transport) => { calls, transport := some transport, result := .ok response }
      | .route server action =>
        match r.resolveDNSRoute server action allowFakeIP options with
        | none => exchangeWithRules metadata allowFakeIP rules calls options evaluated
        | some (transport, options) => r.exchangeOnce client message calls transport options
      | .reject .default => { calls, result := .ok (refusedResponse message question) }
      | .reject .drop => { calls, result := .error .drop }
      | .predefined action => { calls, result := .ok (action.response message question) }
    else exchangeWithRules metadata allowFakeIP rules calls options evaluated

/-! ## Exchange -/

def fqdnToDomain (fqdn : String) : String :=
  match fqdn.toList.reverse with
  | '.' :: domain => String.ofList domain.reverse
  | _ => fqdn

/-- The metadata that rules are matched against, from that of the connection. -/
def queryMetadata (metadata : QueryMetadata Inbound) (question : Question) : QueryMetadata Inbound :=
  { metadata with
    ctx := { metadata.ctx with
      destination := none
      queryType := question.qtype
      ipVersion :=
        if question.qtype = typeA then 4 else if question.qtype = typeAAAA then 6 else metadata.ctx.ipVersion
      domain := fqdnToDomain question.name }
    dnsResponse := none
    destinationAddressMatchFromResponse := false }

end exchange

/-- `Exchange`; `transport` is that of the options, if they have one. -/
def DNSRouter.exchange (r : DNSRouter Inbound) (client : ClientResults) (legacyDNSMode : Bool)
    (metadata : QueryMetadata Inbound) (message : Msg) (transport : Option Transport) (options : QueryOptions) : Outcome :=
  match message.question with
  | [question] =>
    if r.closing then { calls := [], result := .error .closed }
    else
      let metadata := queryMetadata metadata question
      match transport with
      | some transport => r.exchangeOnce client message [] transport options
      | none =>
        if legacyDNSMode then r.exchangeLegacy client message question metadata options r.rules []
        else r.exchangeWithRules client message question metadata true r.rules [] options none
  | _ =>
    { calls := []
      result := .ok { id := message.id, response := true, rcode := rcodeFormatError, question := message.question } }

end Singlink.Dns
