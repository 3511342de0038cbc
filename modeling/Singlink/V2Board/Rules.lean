import Singlink.V2Board.Types
import Mathlib.Algebra.Group.Nat.Defs
/-!
# Block rules

`buildNodeRules` of `service/v2board/tracker.go`: the routes of a panel config
read into the rules a connection is checked against. Regular expressions and IP
prefixes are those of Go's `regexp` and `net/netip`, which are parameters.
-/

namespace Singlink.V2Board

open Lib

structure PortRange where
  start : UInt16
  stop : UInt16
  deriving DecidableEq

structure NodeRules (Re Pfx : Type) where
  domainRegex : List Re := []
  domainSuffix : List String := []
  domainFull : List String := []
  domainKeyword : List String := []
  ipPrefixes : List Pfx := []
  ipPrivate : Bool := false
  ports : List PortRange := []
  protocol : List String := []

/-- `regexp.Compile`, `netip.ParsePrefix`, and `netip.ParseAddr` with the prefix
of that one address; an error is its text. -/
structure RuleParsers (Re Pfx : Type) where
  compile : String → Except String Re
  parsePrefix : String → Except String Pfx
  parseAddr : String → Except String Pfx

variable {Re Pfx : Type} (P : RuleParsers Re Pfx)

def normalizeDomainRuleValue (value : String) : String :=
  GoStrings.trim (GoStrings.toLower (GoStrings.trimSpace value)) "."

def NodeRules.addProtocolRule (r : NodeRules Re Pfx) (item : String) : NodeRules Re Pfx :=
  let item := GoStrings.trimSpace item
  if item ≠ "" then { r with protocol := r.protocol ++ [item] } else r

/-- The text of an error that names its route and item (`%q` is `String.quote`). -/
def routeError (routeID : Int) (what item : String) (cause : Option String) : String :=
  "v2board route " ++ toString routeID ++ ": " ++ what ++ " " ++ item.quote ++
    match cause with
    | some cause => ": " ++ cause
    | none => ""

def NodeRules.addDomainBlockRule (r : NodeRules Re Pfx) (routeID : Int) (item : String) :
    Except String (NodeRules Re Pfx) :=
  let item := GoStrings.trimSpace item
  if item = "" then .ok r
  else if let some protocol := GoStrings.cutPrefix item "protocol:" then .ok (r.addProtocolRule protocol)
  else if let some pattern := GoStrings.cutPrefix item "regexp:" then
    let pattern := GoStrings.trimSpace pattern
    if pattern = "" then .ok r
    else match P.compile pattern with
      | .error err => .error (routeError routeID "compile regexp" pattern (some err))
      | .ok matcher => .ok { r with domainRegex := r.domainRegex ++ [matcher] }
  else if let some domain := GoStrings.cutPrefix item "domain:" then
    let domain := normalizeDomainRuleValue domain
    .ok (if domain ≠ "" then { r with domainSuffix := r.domainSuffix ++ [domain] } else r)
  else if let some domain := GoStrings.cutPrefix item "full:" then
    let domain := normalizeDomainRuleValue domain
    .ok (if domain ≠ "" then { r with domainFull := r.domainFull ++ [domain] } else r)
  else if let some keyword := GoStrings.cutPrefix item "keyword:" then
    let keyword := normalizeDomainRuleValue keyword
    .ok (if keyword ≠ "" then { r with domainKeyword := r.domainKeyword ++ [keyword] } else r)
  else if (GoStrings.cutPrefix item "geosite:").isSome then .ok r
  else
    let keyword := normalizeDomainRuleValue item
    .ok (if keyword ≠ "" then { r with domainKeyword := r.domainKeyword ++ [keyword] } else r)

def NodeRules.addIPBlockRule (r : NodeRules Re Pfx) (routeID : Int) (item : String) :
    Except String (NodeRules Re Pfx) :=
  let item := GoStrings.trimSpace item
  if item = "" then .ok r
  else if let some code := GoStrings.cutPrefix (GoStrings.toLower item) "geoip:" then
    .ok (if code = "private" then { r with ipPrivate := true } else r)
  else match P.parsePrefix item with
    | .ok pfx => .ok { r with ipPrefixes := r.ipPrefixes ++ [pfx] }
    | .error _ => match P.parseAddr item with
      | .error err => .error (routeError routeID "parse ip/cidr" item (some err))
      | .ok pfx => .ok { r with ipPrefixes := r.ipPrefixes ++ [pfx] }

/-- The loop of `strconv.ParseUint`, up to the first character that is no digit or takes
the number out of range. -/
def parseDigits (bitSize : Nat) : Nat → List Char → Except String Nat
  | n, [] => .ok n
  | n, c :: rest =>
    let n' := n * 10 + (c.toNat - '0'.toNat)
    if ¬c.isDigit then .error "invalid syntax"
    else if 2 ^ bitSize ≤ n' then .error "value out of range"
    else parseDigits bitSize n' rest

/-- `strconv.ParseUint(value, 10, bitSize)`. -/
def parseUintSized (value : String) (bitSize : Nat) : Except String Nat :=
  (if value = "" then .error "invalid syntax" else parseDigits bitSize 0 value.toList).mapError
    (("strconv.ParseUint: parsing " ++ value.quote ++ ": ") ++ ·)

def parseUint16 (value : String) : Except String UInt16 := (parseUintSized value 16).map .ofNat

def parseRulePort (value : String) : Except String UInt16 :=
  if value = "" then .error "empty port"
  else match parseUint16 value with
    | .error err => .error err
    | .ok port => if port = 0 then .error "port must be greater than zero" else .ok port

/-- The range between two port texts. -/
def NodeRules.addPorts (r : NodeRules Re Pfx) (routeID : Int) (item startText endText : String) :
    Except String (NodeRules Re Pfx) :=
  match parseRulePort startText with
  | .error err => .error (routeError routeID "parse port" item (some err))
  | .ok start => match parseRulePort endText with
    | .error err => .error (routeError routeID "parse port" item (some err))
    | .ok stop =>
      if stop < start then .error (routeError routeID "invalid port range" item none)
      else .ok { r with ports := r.ports ++ [{ start := start, stop := stop }] }

def NodeRules.addPortBlockRule (r : NodeRules Re Pfx) (routeID : Int) (item : String) :
    Except String (NodeRules Re Pfx) :=
  let item := GoStrings.trimSpace item
  if item = "" then .ok r
  else match GoStrings.cutAny item ['-', ':'] with
    | some (startText, endText) => r.addPorts routeID item (GoStrings.trimSpace startText) (GoStrings.trimSpace endText)
    | none => r.addPorts routeID item item item

/-- One route: every item of a block action, in order, up to the first error. -/
def NodeRules.addRoute (r : NodeRules Re Pfx) (route : ServerRoute) : Except String (NodeRules Re Pfx) :=
  let action := GoStrings.toLower (GoStrings.trimSpace route.action)
  if action = "block" then route.matchList.foldlM (fun r item => r.addDomainBlockRule P route.id item) r
  else if action = "block_ip" then route.matchList.foldlM (fun r item => r.addIPBlockRule P route.id item) r
  else if action = "block_port" then route.matchList.foldlM (fun r item => r.addPortBlockRule route.id item) r
  else if action = "protocol" then .ok (route.matchList.foldl (fun r item => r.addProtocolRule item) r)
  else .ok r

def buildNodeRules (routes : List ServerRoute) : Except String (NodeRules Re Pfx) :=
  routes.foldlM (fun r route => r.addRoute P route) {}

end Singlink.V2Board
