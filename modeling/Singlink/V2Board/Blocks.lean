import Singlink.Options.Netip
import Singlink.V2Board.Rules
/-!
# What the block rules block

`nodeRules.blocks` of `service/v2board/tracker.go`, and what the match items of
the panel's routes mean one by one. The rules keep the items in a list for each
kind, so a destination is blocked if one item, of any route, matches it.

An IPv4 address and its IPv4-mapped IPv6 form are one address. The destination is
brought to the first form before it is matched, the items of a rule are not.
Addresses have no zones.
-/

namespace Singlink.V2Board

open Lib Options GoStrings NodeRules Except

structure Socksaddr where
  addr : Addr := .zero
  port : UInt16
  fqdn : String := ""
  deriving DecidableEq

/-- `Regexp.MatchString` and `netip.Addr.String`. -/
structure RuleTexts (Re : Type) where
  matchString : Re → String → Bool
  addrString : Addr → String

variable {Re : Type} (P : RuleParsers Re Prefix) (T : RuleTexts Re)

namespace Socksaddr

/-- `Unwrap`: the IPv4 address of a mapped one. -/
def unwrap (ap : Socksaddr) : Socksaddr :=
  if ap.addr.is4In6 then { addr := ap.addr.unmap, port := ap.port } else ap

def isIP (ap : Socksaddr) : Bool := ap.addr.isValid && ap.fqdn == ""

def addrString (ap : Socksaddr) : String := if ap.addr.isValid then T.addrString ap.addr else ap.fqdn

end Socksaddr

def NodeRules.blocks (r : NodeRules Re Prefix) (destination : Socksaddr) (protocol : String) : Bool :=
  let destination := destination.unwrap
  let domain := normalizeDomainRuleValue (destination.addrString T)
  if r.domainRegex.any fun matcher => T.matchString matcher domain then true
  else if r.domainFull.contains domain then true
  else if r.domainSuffix.any fun suffix => domain == suffix || GoStrings.hasSuffix domain ("." ++ suffix) then true
  else if r.domainKeyword.any fun keyword => GoStrings.contains domain keyword then true
  else if destination.isIP &&
      (r.ipPrefixes.any (·.contains destination.addr) || (r.ipPrivate && destination.addr.isPrivate)) then true
  else if r.ports.any fun port => port.start ≤ destination.port && destination.port ≤ port.stop then true
  else if protocol = "" then false
  else r.protocol.contains (GoStrings.trimSpace protocol)

/-! ## Items -/

/-- A match item, by what it is about. -/
inductive RuleItem (Re : Type) where
  | regexp (matcher : Re)
  | full (domain : String)
  | suffix (domain : String)
  | keyword (word : String)
  | ip (pfx : Prefix)
  | privateIP
  | ports (range : PortRange)
  | protocol (name : String)

def nonEmpty (text : String) : Option String := if text = "" then none else some text

/-- How an item of a `protocol` route is read. -/
def protocolItem (item : String) : Option (RuleItem Re) := (nonEmpty (GoStrings.trimSpace item)).map .protocol

/-- How an item of a `block` route is read; one that is read as nothing has no
meaning. -/
def domainItem (item : String) : Option (RuleItem Re) :=
  let item := GoStrings.trimSpace item
  if item = "" then none
  else if let some protocol := GoStrings.cutPrefix item "protocol:" then protocolItem protocol
  else if let some pattern := GoStrings.cutPrefix item "regexp:" then
    (nonEmpty (GoStrings.trimSpace pattern)).bind fun pattern => (P.compile pattern).toOption.map .regexp
  else if let some domain := GoStrings.cutPrefix item "domain:" then
    (nonEmpty (normalizeDomainRuleValue domain)).map .suffix
  else if let some domain := GoStrings.cutPrefix item "full:" then (nonEmpty (normalizeDomainRuleValue domain)).map .full
  else if let some keyword := GoStrings.cutPrefix item "keyword:" then
    (nonEmpty (normalizeDomainRuleValue keyword)).map .keyword
  else if (GoStrings.cutPrefix item "geosite:").isSome then none
  else (nonEmpty (normalizeDomainRuleValue item)).map .keyword

/-- How an item of a `block_ip` route is read. -/
def ipItem (item : String) : Option (RuleItem Re) :=
  let item := GoStrings.trimSpace item
  if item = "" then none
  else if let some code := GoStrings.cutPrefix (GoStrings.toLower item) "geoip:" then
    if code = "private" then some .privateIP else none
  else ((P.parsePrefix item).toOption <|> (P.parseAddr item).toOption).map .ip

/-- How an item of a `block_port` route is read. -/
def portItem (item : String) : Option (RuleItem Re) := do
  let item ← nonEmpty (GoStrings.trimSpace item)
  let (startText, endText) := match GoStrings.cutAny item ['-', ':'] with
    | some (startText, endText) => (GoStrings.trimSpace startText, GoStrings.trimSpace endText)
    | none => (item, item)
  let start ← (parseRulePort startText).toOption
  let stop ← (parseRulePort endText).toOption
  if stop < start then none else some (.ports { start, stop })

/-- How an item is read, by the action of its route. -/
def itemOf (action item : String) : Option (RuleItem Re) :=
  let action := GoStrings.toLower (GoStrings.trimSpace action)
  if action = "block" then domainItem P item
  else if action = "block_ip" then ipItem P item
  else if action = "block_port" then portItem item
  else if action = "protocol" then protocolItem item
  else none

/-- The routes have an item that is read so. -/
def HasItem (routes : List ServerRoute) (it : RuleItem Re) : Prop :=
  ∃ route ∈ routes, ∃ item ∈ route.matchList, itemOf P route.action item = some it

/-- A prefix covers an address if it contains one of its forms. -/
def Covers (pfx : Prefix) (addr : Addr) : Prop := ∃ form : Addr, form.unmap = addr.unmap ∧ pfx.contains form = true

/-- What an item says about a destination. -/
def RuleItem.Denotes (destination : Socksaddr) (protocol : String) : RuleItem Re → Prop :=
  let destination := destination.unwrap
  let host := normalizeDomainRuleValue (destination.addrString T)
  fun
  | .regexp matcher => T.matchString matcher host = true
  | .full domain => host = domain
  | .suffix domain => host = domain ∨ ∃ sub, host = sub ++ "." ++ domain
  | .keyword word => ∃ left right, host = left ++ word ++ right
  | .ip pfx => destination.isIP = true ∧ Covers pfx destination.addr
  | .privateIP => destination.isIP = true ∧ destination.addr.isPrivate = true
  | .ports range => range.start ≤ destination.port ∧ destination.port ≤ range.stop
  | .protocol name => protocol ≠ "" ∧ GoStrings.trimSpace protocol = name

/-- The item is an IPv6 prefix with the mapped form of an IPv4 destination. -/
def RuleItem.Misses (destination : Socksaddr) : RuleItem Re → Prop
  | .ip pfx => destination.unwrap.isIP = true ∧ destination.unwrap.addr.is4 = true ∧
      pfx.contains destination.unwrap.addr.mapped = true
  | _ => False

/-! ## The lists -/

def NodeRules.Has (r : NodeRules Re Prefix) : RuleItem Re → Prop
  | .regexp matcher => matcher ∈ r.domainRegex
  | .full domain => domain ∈ r.domainFull
  | .suffix domain => domain ∈ r.domainSuffix
  | .keyword word => word ∈ r.domainKeyword
  | .ip pfx => pfx ∈ r.ipPrefixes
  | .privateIP => r.ipPrivate = true
  | .ports range => range ∈ r.ports
  | .protocol name => name ∈ r.protocol

/-- An item put at the end of its list. -/
def NodeRules.add (r : NodeRules Re Prefix) : RuleItem Re → NodeRules Re Prefix
  | .regexp matcher => { r with domainRegex := r.domainRegex ++ [matcher] }
  | .full domain => { r with domainFull := r.domainFull ++ [domain] }
  | .suffix domain => { r with domainSuffix := r.domainSuffix ++ [domain] }
  | .keyword word => { r with domainKeyword := r.domainKeyword ++ [word] }
  | .ip pfx => { r with ipPrefixes := r.ipPrefixes ++ [pfx] }
  | .privateIP => { r with ipPrivate := true }
  | .ports range => { r with ports := r.ports ++ [range] }
  | .protocol name => { r with protocol := r.protocol ++ [name] }

def NodeRules.add? (r : NodeRules Re Prefix) (it? : Option (RuleItem Re)) : NodeRules Re Prefix := it?.elim r r.add

variable (r : NodeRules Re Prefix)

theorem has_add (new it : RuleItem Re) : (r.add new).Has it ↔ r.Has it ∨ it = new := by
  cases new <;> cases it <;> simp [add, NodeRules.Has]

theorem has_add? (it? : Option (RuleItem Re)) (it : RuleItem Re) :
    (r.add? it?).Has it ↔ r.Has it ∨ it? = some it := by
  cases it? with
  | none => simp [add?]
  | some new =>
    rw [add?, Option.elim_some, has_add, Option.some.injEq]
    exact or_congr_right eq_comm

/-! ## Reading the items -/

theorem add?_nonEmpty (text : String) (kind : String → RuleItem Re) :
    r.add? ((nonEmpty text).map kind) = if text ≠ "" then r.add (kind text) else r := by
  unfold nonEmpty
  by_cases h : text = "" <;> simp [h, add?]

theorem addProtocolRule_eq (item : String) : r.addProtocolRule item = r.add? (protocolItem item) := by
  rw [protocolItem, add?_nonEmpty]
  rfl

variable {r r' : NodeRules Re Prefix} {routeID : Int} {item s t : String}

/-- An item of a `block` route that is accepted is added as it is read. -/
theorem addDomainBlockRule_eq
    (h : r.addDomainBlockRule P routeID item = .ok r') : r' = r.add? (domainItem P item) := by
  unfold addDomainBlockRule at h
  unfold domainItem
  generalize trimSpace item = item at h ⊢
  by_cases hempty : item = ""
  · simp only [hempty, if_true] at h ⊢
    cases h
    rfl
  simp only [hempty, if_false] at h ⊢
  -- the prefixes, in the order they are tried
  cases hprotocol : cutPrefix item "protocol:" with
  | some name =>
    simp only [hprotocol] at h ⊢
    cases h
    exact addProtocolRule_eq r name
  | none =>
  cases hregexp : cutPrefix item "regexp:" with
  | some pattern =>
    simp only [hprotocol, hregexp] at h ⊢
    generalize trimSpace pattern = pattern at h ⊢
    by_cases hpattern : pattern = ""
    · simp only [hpattern, if_true] at h
      cases h
      simp only [nonEmpty, hpattern, if_true, Option.bind_none]
      rfl
    · simp only [hpattern, if_false] at h
      cases hcompile : P.compile pattern with
      | error err =>
        rw [hcompile] at h
        cases h
      | ok matcher =>
        rw [hcompile] at h
        cases h
        simp only [nonEmpty, hpattern, if_false, Option.bind_some, hcompile, Except.toOption, Option.map_some]
        rfl
  | none =>
  cases hdomain : cutPrefix item "domain:" with
  | some domain =>
    simp only [hprotocol, hregexp, hdomain] at h ⊢
    rw [← ok.inj h, add?_nonEmpty]
    simp only [add]
  | none =>
  cases hfull : cutPrefix item "full:" with
  | some domain =>
    simp only [hprotocol, hregexp, hdomain, hfull] at h ⊢
    rw [← ok.inj h, add?_nonEmpty]
    simp only [add]
  | none =>
  cases hkeyword : cutPrefix item "keyword:" with
  | some word =>
    simp only [hprotocol, hregexp, hdomain, hfull, hkeyword] at h ⊢
    rw [← ok.inj h, add?_nonEmpty]
    simp only [add]
  | none =>
    simp only [hprotocol, hregexp, hdomain, hfull, hkeyword] at h ⊢
    split at h
    · rw [if_pos ‹_›]
      cases h
      rfl
    · rw [if_neg ‹_›, ← ok.inj h, add?_nonEmpty]
      simp only [add]

theorem addIPBlockRule_eq (h : r.addIPBlockRule P routeID item = .ok r') : r' = r.add? (ipItem P item) := by
  unfold addIPBlockRule at h
  unfold ipItem
  generalize trimSpace item = item at h ⊢
  by_cases hempty : item = ""
  · simp only [hempty, if_true] at h ⊢
    cases h
    rfl
  simp only [hempty, if_false] at h ⊢
  cases hcode : cutPrefix (toLower item) "geoip:" with
  | some code =>
    simp only [hcode] at h ⊢
    cases h
    by_cases hprivate : code = "private" <;> simp only [hprivate, if_true, if_false] <;> rfl
  | none =>
    simp only [hcode] at h ⊢
    cases hpfx : P.parsePrefix item with
    | ok pfx =>
      rw [hpfx] at h
      cases h
      rfl
    | error err =>
      simp only [hpfx] at h
      cases haddr : P.parseAddr item with
      | ok pfx =>
        rw [haddr] at h
        cases h
        rfl
      | error err =>
        rw [haddr] at h
        cases h

theorem addPorts_eq {startText endText : String} (h : r.addPorts routeID item startText endText = .ok r') :
    r' = r.add? ((parseRulePort startText).toOption.bind fun start => (parseRulePort endText).toOption.bind fun stop =>
      if stop < start then none else some (.ports { start, stop })) := by
  unfold addPorts at h
  cases hstart : parseRulePort startText with
  | error err =>
    rw [hstart] at h
    cases h
  | ok start =>
    cases hstop : parseRulePort endText with
    | error err =>
      simp only [hstart, hstop, reduceCtorEq] at h
    | ok stop =>
      simp only [hstart, hstop] at h
      simp only [Except.toOption, Option.bind_some]
      split at h
      · cases h
      · rw [if_neg ‹_›]
        cases h
        rfl

theorem addPortBlockRule_eq (h : r.addPortBlockRule routeID item = .ok r') : r' = r.add? (portItem item) := by
  unfold addPortBlockRule at h
  unfold portItem
  generalize trimSpace item = item at h ⊢
  by_cases hempty : item = ""
  · simp only [hempty, if_true] at h
    cases h
    simp only [nonEmpty, hempty, if_true]
    rfl
  simp only [hempty, if_false] at h
  simp only [nonEmpty, hempty, if_false, bind, Option.bind_some]
  cases hcut : cutAny item ['-', ':'] with
  | none =>
    simp only [hcut] at h ⊢
    exact addPorts_eq h
  | some texts =>
    simp only [hcut] at h ⊢
    exact addPorts_eq h

/-! ## All routes -/

theorem foldlM_eq {α : Type} {step : NodeRules Re Prefix → α → Except String (NodeRules Re Prefix)}
    {reads : NodeRules Re Prefix → α → NodeRules Re Prefix}
    (hstep : ∀ r r' a, step r a = .ok r' → r' = reads r a) {l : List α}
    (h : l.foldlM step r = .ok r') : r' = l.foldl reads r := by
  induction l generalizing r with
  | nil => exact (ok.inj h).symm
  | cons a l ih =>
    rw [List.foldlM_cons] at h
    cases hone : step r a with
    | error err =>
      rw [hone] at h
      cases h
    | ok r'' =>
      rw [hone] at h
      rw [List.foldl_cons, ← hstep r r'' a hone]
      exact ih h

theorem has_foldl (reads : String → Option (RuleItem Re)) (items : List String) (r : NodeRules Re Prefix)
    (it : RuleItem Re) :
    (items.foldl (fun r item => r.add? (reads item)) r).Has it ↔ r.Has it ∨ ∃ item ∈ items, reads item = some it := by
  induction items generalizing r with
  | nil => simp
  | cons item items ih =>
    rw [List.foldl_cons, ih, has_add?, or_assoc]
    simp

theorem addRoute_eq {route : ServerRoute} (h : r.addRoute P route = .ok r') :
    r' = route.matchList.foldl (fun r item => r.add? (itemOf P route.action item)) r := by
  unfold addRoute at h
  unfold itemOf
  generalize toLower (trimSpace route.action) = action at h ⊢
  by_cases hblock : action = "block"
  · simp only [if_pos hblock] at h ⊢
    exact foldlM_eq (fun _ _ _ => addDomainBlockRule_eq P) h
  simp only [if_neg hblock] at h ⊢
  by_cases hip : action = "block_ip"
  · simp only [if_pos hip] at h ⊢
    exact foldlM_eq (fun _ _ _ => addIPBlockRule_eq P) h
  simp only [if_neg hip] at h ⊢
  by_cases hport : action = "block_port"
  · simp only [if_pos hport] at h ⊢
    exact foldlM_eq (fun _ _ _ => addPortBlockRule_eq) h
  simp only [if_neg hport] at h ⊢
  by_cases hprotocol : action = "protocol"
  · simp only [if_pos hprotocol, ← addProtocolRule_eq] at h ⊢
    exact (ok.inj h).symm
  · simp only [if_neg hprotocol] at h ⊢
    cases h
    exact (List.foldl_fixed' (fun _ => rfl) route.matchList).symm

theorem buildNodeRules_has {routes : List ServerRoute} (h : buildNodeRules P routes = .ok r)
    (it : RuleItem Re) : r.Has it ↔ HasItem P routes it := by
  have hr := foldlM_eq (fun _ _ _ => addRoute_eq P) h
  have loop : ∀ (routes : List ServerRoute) (r : NodeRules Re Prefix),
      (routes.foldl (fun r route => route.matchList.foldl (fun r item => r.add? (itemOf P route.action item)) r) r).Has it ↔
        r.Has it ∨ HasItem P routes it := by
    intro routes
    induction routes with
    | nil => simp [HasItem]
    | cons route routes ih =>
      intro r
      rw [List.foldl_cons, ih, has_foldl, or_assoc]
      simp [HasItem]
  have hempty : ¬({} : NodeRules Re Prefix).Has it := by
    cases it <;> simp [NodeRules.Has]
  rw [hr, loop]
  exact or_iff_right hempty

/-! ## Matching -/

/-- What an item is tested for. -/
def RuleItem.Matches (destination : Socksaddr) (protocol : String) : RuleItem Re → Prop
  | .ip pfx => destination.unwrap.isIP = true ∧ pfx.contains destination.unwrap.addr = true
  | it => it.Denotes T destination protocol

theorem string_eq_append_iff {u : String} : s = t ++ u ↔ s.toList = t.toList ++ u.toList := by
  rw [← String.toList_inj, String.toList_append]

theorem hasSuffix_iff : hasSuffix s t = true ↔ ∃ left, s = left ++ t := by
  rw [hasSuffix, decide_eq_true_iff]
  constructor
  · rintro ⟨left, h⟩
    exact ⟨.ofList left, by rw [string_eq_append_iff, String.toList_ofList, h]⟩
  · rintro ⟨left, rfl⟩
    exact ⟨left.toList, (String.toList_append).symm⟩

theorem contains_iff_append : contains s t = true ↔ ∃ left right, s = left ++ t ++ right := by
  rw [contains, decide_eq_true_iff]
  constructor
  · rintro ⟨left, right, h⟩
    refine ⟨.ofList left, .ofList right, ?_⟩
    rw [string_eq_append_iff, String.toList_append, String.toList_ofList, String.toList_ofList, h]
  · rintro ⟨left, right, rfl⟩
    exact ⟨left.toList, right.toList, by rw [String.toList_append, String.toList_append]⟩

theorem RuleItem.exists_iff {p : RuleItem Re → Prop} :
    (∃ it, p it) ↔ (∃ matcher, p (.regexp matcher)) ∨ (∃ domain, p (.full domain)) ∨ (∃ domain, p (.suffix domain)) ∨
      (∃ word, p (.keyword word)) ∨ (∃ pfx, p (.ip pfx)) ∨ p .privateIP ∨ (∃ range, p (.ports range)) ∨
      ∃ name, p (.protocol name) := by
  constructor
  · rintro ⟨it, h⟩
    cases it with
    | regexp matcher => exact .inl ⟨matcher, h⟩
    | full domain => exact .inr (.inl ⟨domain, h⟩)
    | suffix domain => exact .inr (.inr (.inl ⟨domain, h⟩))
    | keyword word => exact .inr (.inr (.inr (.inl ⟨word, h⟩)))
    | ip pfx => exact .inr (.inr (.inr (.inr (.inl ⟨pfx, h⟩))))
    | privateIP => exact .inr (.inr (.inr (.inr (.inr (.inl h)))))
    | ports range => exact .inr (.inr (.inr (.inr (.inr (.inr (.inl ⟨range, h⟩))))))
    | protocol name => exact .inr (.inr (.inr (.inr (.inr (.inr (.inr ⟨name, h⟩))))))
  · rintro (⟨_, h⟩ | ⟨_, h⟩ | ⟨_, h⟩ | ⟨_, h⟩ | ⟨_, h⟩ | h | ⟨_, h⟩ | ⟨_, h⟩) <;> exact ⟨_, h⟩

theorem blocks_iff (destination : Socksaddr) (protocol : String) :
    r.blocks T destination protocol = true ↔ ∃ it, r.Has it ∧ it.Matches T destination protocol := by
  rw [RuleItem.exists_iff]
  simp only [blocks, NodeRules.Has, RuleItem.Matches, RuleItem.Denotes, Bool.if_true_left, Bool.or_eq_true,
    decide_eq_true_eq, List.any_eq_true, List.contains_iff_mem, beq_iff_eq, Bool.and_eq_true, hasSuffix_iff,
    contains_iff_append]
  generalize normalizeDomainRuleValue (Socksaddr.addrString T destination.unwrap) = host
  refine or_congr_right (or_congr ?_ (or_congr ?_ (or_congr_right ?_)))
  · exact ⟨fun h => ⟨host, h, rfl⟩, fun ⟨_, h, heq⟩ => heq ▸ h⟩
  · simp only [String.append_assoc]
  · rw [and_or_left, or_assoc]
    refine or_congr ?_ (or_congr and_left_comm (or_congr_right ?_))
    · exact ⟨fun ⟨hip, pfx, hmem, h⟩ => ⟨pfx, hmem, hip, h⟩, fun ⟨pfx, hmem, hip, h⟩ => ⟨hip, pfx, hmem, h⟩⟩
    · by_cases hprotocol : protocol = ""
      · simp [hprotocol]
      · simp [hprotocol]

/-! ## Addresses in two forms -/

theorem unwrap_addr (destination : Socksaddr) : destination.unwrap.addr.is4In6 = false := by
  unfold Socksaddr.unwrap
  split
  · exact Addr.is4In6_unmap _
  · exact Bool.eq_false_iff.2 ‹_›

theorem covers_iff {pfx : Prefix} {addr : Addr} (h : addr.is4In6 = false) :
    Covers pfx addr ↔ pfx.contains addr = true ∨ pfx.contains addr.mapped = true := by
  unfold Covers
  rw [Addr.unmap_of_not_is4In6 h]
  simp only [Addr.unmap_eq_iff h]
  constructor
  · rintro ⟨form, rfl | rfl, hform⟩
    · exact .inl hform
    · exact .inr hform
  · rintro (hform | hform)
    · exact ⟨addr, .inl rfl, hform⟩
    · exact ⟨addr.mapped, .inr rfl, hform⟩

/-- No prefix contains both forms of an address. -/
theorem not_contains_of_mapped {pfx : Prefix} {addr : Addr} (h4 : addr.is4 = true)
    (h : pfx.contains addr.mapped = true) : pfx.contains addr = false := by
  rw [Bool.eq_false_iff]
  intro hcontains
  have hlen := (Prefix.contains_iff.1 hcontains).2.1
  rw [← (Prefix.contains_iff.1 h).2.1] at hlen
  cases addr with
  | zero => cases h4
  | v4 addr => cases hlen
  | v6 addr => cases h4

/-- What an item says about a destination is what it is tested for, but for IPv6
prefixes and IPv4 destinations. -/
theorem denotes_iff (it : RuleItem Re) (destination : Socksaddr) (protocol : String) :
    it.Denotes T destination protocol ↔ it.Matches T destination protocol ∨ it.Misses destination := by
  cases it with
  | ip pfx =>
    simp only [RuleItem.Denotes, RuleItem.Matches, RuleItem.Misses, covers_iff (unwrap_addr destination), ← and_or_left]
    refine and_congr_right fun _ => ?_
    cases destination.unwrap.addr with
    | zero | v6 addr => simp [Addr.mapped, Addr.is4]
    | v4 addr => simp [Addr.is4]
  | _ => exact (or_iff_left not_false).symm

theorem not_matches_of_misses {it : RuleItem Re} {destination : Socksaddr} (protocol : String)
    (h : it.Misses destination) : ¬it.Matches T destination protocol := by
  cases it with
  | ip pfx =>
    rintro ⟨-, hcontains⟩
    rw [not_contains_of_mapped h.2.1 h.2.2] at hcontains
    cases hcontains
  | _ => exact h.elim

/-- For every accepted list of routes, every destination and every protocol: the
destination is blocked exactly if an item denotes it, but for the items that are IPv6
prefixes with the mapped form of an IPv4 destination; those must not be the only ones
to denote it. -/
theorem blocks_iff_denoted (P : RuleParsers Re Prefix) (T : RuleTexts Re) (routes : List ServerRoute)
    (r : NodeRules Re Prefix) (hbuild : buildNodeRules P routes = .ok r) (destination : Socksaddr) (protocol : String) :
    (r.blocks T destination protocol = true ↔
        ∃ it, HasItem P routes it ∧ it.Denotes T destination protocol) ↔
      ((∃ it, HasItem P routes it ∧ it.Misses destination) →
        ∃ it, HasItem P routes it ∧ it.Denotes T destination protocol ∧ ¬it.Misses destination) := by
  have hblocks : r.blocks T destination protocol = true ↔
      ∃ it, HasItem P routes it ∧ it.Matches T destination protocol := by
    rw [blocks_iff]
    simp only [buildNodeRules_has P hbuild]
  have hothers : (∃ it, HasItem P routes it ∧ it.Denotes T destination protocol ∧ ¬it.Misses destination) ↔
      ∃ it, HasItem P routes it ∧ it.Matches T destination protocol := by
    refine exists_congr fun it => and_congr_right fun _ => ?_
    rw [denotes_iff]
    constructor
    · rintro ⟨hmatches | hmisses, hnot⟩
      · exact hmatches
      · exact absurd hmisses hnot
    · exact fun h => ⟨.inl h, fun hmisses => not_matches_of_misses T protocol hmisses h⟩
  rw [hblocks, hothers]
  simp only [denotes_iff, and_or_left, exists_or]
  constructor
  · exact fun h hmissed => h.2 (.inr hmissed)
  · exact fun h => ⟨.inl, fun hor => hor.elim id h⟩

/-- Parsers that know one address in its two forms. -/
def sampleParsers : RuleParsers Unit Prefix where
  compile := fun _ => .error "no regexp"
  parsePrefix := fun _ => .error "no '/'"
  parseAddr := fun text =>
    if text = "1.2.3.4" then .ok (.ofBits (.v4 0x01020304) 32)
    else if text = "::ffff:1.2.3.4" then .ok (.ofBits (.v6 0xffff01020304) 128)
    else .error "unable to parse IP"

def sampleTexts : RuleTexts Unit where
  matchString := fun _ _ => false
  addrString := fun addr => if addr = .v4 0x01020304 then "1.2.3.4" else "?"

theorem blocks_iff_denoted_subdomain :
    let routes : List ServerRoute := [{ id := 1, matchList := ["domain:Example.com"], action := "block" },
      { id := 2, matchList := ["::ffff:1.2.3.4"], action := "block_ip" }]
    let r : NodeRules Unit Prefix := { domainSuffix := ["example.com"], ipPrefixes := [.ofBits (.v6 0xffff01020304) 128] }
    let destination : Socksaddr := { fqdn := "cdn.example.com.", port := 443 }
    buildNodeRules sampleParsers routes = .ok r ∧ r.blocks sampleTexts destination "" = true ∧
      ∃ it, HasItem sampleParsers routes it ∧ it.Denotes sampleTexts destination "" := by
  intro routes r destination
  have hbuild : buildNodeRules sampleParsers routes = .ok r := rfl
  have hblocks : r.blocks sampleTexts destination "" = true := by decide
  have hmisses : ¬∃ it, HasItem sampleParsers routes it ∧ it.Misses destination := by
    rintro ⟨it, -, hmisses⟩
    cases it with
    | ip pfx => exact absurd hmisses.1 (by decide)
    | _ => exact hmisses
  have hiff := (blocks_iff_denoted sampleParsers sampleTexts routes r hbuild destination "").2 fun h => absurd h hmisses
  exact ⟨hbuild, hblocks, hiff.1 hblocks⟩

/-- A rule for the IPv4-mapped form of an address blocks neither the address nor that
form of it. -/
theorem mapped_rule_blocks_nothing :
    let routes : List ServerRoute := [{ id := 1, matchList := ["::ffff:1.2.3.4"], action := "block_ip" }]
    let r : NodeRules Unit Prefix := { ipPrefixes := [.ofBits (.v6 0xffff01020304) 128] }
    let destination : Socksaddr := { addr := .v4 0x01020304, port := 443 }
    let same : Socksaddr := { addr := .v6 0xffff01020304, port := 443 }
    buildNodeRules sampleParsers routes = .ok r ∧ r.blocks sampleTexts destination "" = false ∧
      r.blocks sampleTexts same "" = false ∧
      (∃ it, HasItem sampleParsers routes it ∧ it.Denotes sampleTexts destination "") ∧
      ∃ it, HasItem sampleParsers routes it ∧ it.Denotes sampleTexts same "" := by
  intro routes r destination same
  have hitem : HasItem sampleParsers routes (.ip (.ofBits (.v6 0xffff01020304) 128)) :=
    ⟨_, List.mem_cons_self, _, List.mem_cons_self, rfl⟩
  refine ⟨rfl, by decide, by decide, ⟨_, hitem, ?_⟩, ⟨_, hitem, ?_⟩⟩
  · exact ⟨by decide, .v6 0xffff01020304, by decide, by decide⟩
  · exact ⟨by decide, .v6 0xffff01020304, by decide, by decide⟩


end Singlink.V2Board
