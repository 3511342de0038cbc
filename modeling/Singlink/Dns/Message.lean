import Singlink.Options.Netip
/-!
# DNS messages

Messages as `github.com/miekg/dns` has them, and what `dns/client.go` and
`dns/extension_edns0_subnet.go` do to them: TTLs, the hints of HTTPS records,
EDNS. Which type a record has is told by its data.
-/

namespace Singlink.Dns

/-! ## Records -/

abbrev IP := List UInt8

def typeA : UInt16 := 1
def typeAAAA : UInt16 := 28
def typeHTTPS : UInt16 := 65

def classINET : UInt16 := 1

def rcodeSuccess : Nat := 0
def rcodeFormatError : Nat := 1
def rcodeNameError : Nat := 3

structure Question where
  name : String
  qtype : UInt16
  qclass : UInt16
  deriving DecidableEq

inductive SvcbValue where
  | ipv4Hint (hint : List IP)
  | ipv6Hint (hint : List IP)
  | other (key : UInt16) (data : List UInt8)
  deriving DecidableEq

/-- `dns.EDNS0`: the code of an option and its data. -/
structure EDNS0 where
  code : UInt16
  data : List UInt8
  deriving DecidableEq

/-- The data of a record. Records of other types are kept as they are. -/
inductive RData where
  | a (ip : IP)
  | aaaa (ip : IP)
  | https (priority : UInt16) (target : String) (value : List SvcbValue)
  | soa (minttl : UInt32) (rest : List UInt8)
  | opt (options : List EDNS0)
  | other (rrtype : UInt16) (data : List UInt8)
  deriving DecidableEq

/-- `dns.RR`. In an OPT record the class is the UDP size and the TTL holds the
extended response code, the version and the DO bit. -/
structure RR where
  name : String
  cls : UInt16
  ttl : UInt32
  data : RData
  deriving DecidableEq

def RR.isOPT (r : RR) : Bool :=
  match r.data with
  | .opt _ => true
  | _ => false

structure MsgHdr where
  id : UInt16 := 0
  response : Bool := false
  opcode : Nat := 0
  authoritative : Bool := false
  truncated : Bool := false
  recursionDesired : Bool := false
  recursionAvailable : Bool := false
  zero : Bool := false
  authenticatedData : Bool := false
  checkingDisabled : Bool := false
  rcode : Nat := 0
  deriving DecidableEq

structure Msg extends MsgHdr where
  question : List Question := []
  answer : List RR := []
  ns : List RR := []
  extra : List RR := []
  deriving DecidableEq

def fixedResponseStatus (message : Msg) (rcode : Nat) : Msg where
  id := message.id
  response := true
  authoritative := true
  recursionDesired := true
  recursionAvailable := true
  rcode := rcode
  question := message.question

/-! ## Addresses -/

/-- The bytes of `M.AddrFromIP`, if the address is valid. -/
def validIP (ip : IP) : Option IP := if (Options.addrFromIP ip).isValid then some ip else none

def unmap (addr : IP) : IP :=
  if addr.length = 16 ∧ addr.take 12 = [0, 0, 0, 0, 0, 0, 0, 0, 0, 0, 255, 255] then addr.drop 12 else addr

def SvcbValue.addresses : SvcbValue → List IP
  | ipv4Hint hint => hint.filterMap fun ip => (validIP ip).map unmap
  | ipv6Hint hint => hint.filterMap validIP
  | other _ _ => []

def RData.addresses : RData → List IP
  | a ip => (validIP ip).toList
  | aaaa ip => (validIP ip).toList
  | https _ _ value => value.flatMap SvcbValue.addresses
  | _ => []

def responseAddresses (response : Msg) : List IP :=
  if response.rcode ≠ rcodeSuccess then [] else response.answer.flatMap fun r => r.data.addresses

/-! ## TTLs -/

def extractNegativeTTL (response : Msg) : Option UInt32 :=
  response.ns.findSome? fun r =>
    match r.data with
    | .soa minttl _ => some (if r.ttl < minttl then r.ttl else minttl)
    | _ => none

/-- The body of the loop of `computeTimeToLive`. -/
def lowerTTL (timeToLive : UInt32) (r : RR) : UInt32 :=
  if r.isOPT then timeToLive
  else if timeToLive == 0 || (r.ttl > 0 && r.ttl < timeToLive) then r.ttl
  else timeToLive

def computeTimeToLive (response : Msg) : UInt32 :=
  match if response.answer.isEmpty then extractNegativeTTL response else none with
  | some soaTTL => soaTTL
  | none => (response.answer ++ response.ns ++ response.extra).foldl lowerTTL 0

def RR.setTTL (timeToLive : UInt32) (r : RR) : RR := if r.isOPT then r else { r with ttl := timeToLive }

def normalizeTTL (response : Msg) (timeToLive : UInt32) : Msg :=
  { response with
    answer := response.answer.map (RR.setTTL timeToLive)
    ns := response.ns.map (RR.setTTL timeToLive)
    extra := response.extra.map (RR.setTTL timeToLive) }

/-! ## Query options -/

inductive DomainStrategy where
  | asIS
  | preferIPv4
  | preferIPv6
  | ipv4Only
  | ipv6Only
  deriving DecidableEq

/-- `netip.Prefix` of a client subnet. -/
structure Subnet where
  addr : IP
  bits : UInt8
  deriving DecidableEq

/-- `adapter.DNSQueryOptions`, without the transport; the timeout is in
nanoseconds. -/
structure QueryOptions where
  strategy : DomainStrategy := .asIS
  lookupStrategy : DomainStrategy := .asIS
  disableCache : Bool := false
  disableOptimisticCache : Bool := false
  rewriteTTL : Option UInt32 := none
  timeout : Int := 0
  clientSubnet : Option Subnet := none
  deriving DecidableEq

/-- The hints a strategy keeps. -/
def keepsHint (strategy : DomainStrategy) : SvcbValue → Bool
  | .ipv4Hint _ => strategy != .ipv6Only
  | .ipv6Hint _ => strategy != .ipv4Only
  | .other _ _ => true

def RR.filterHints (strategy : DomainStrategy) (r : RR) : RR :=
  match r.data with
  | .https priority target value => { r with data := .https priority target (value.filter (keepsHint strategy)) }
  | _ => r

/-- The first part of `applyResponseOptions`: the answer to an HTTPS question
loses the hints for addresses that the strategy rules out. -/
def filterAnswer (question : Question) (strategy : DomainStrategy) (answer : List RR) : List RR :=
  if question.qtype == typeHTTPS && (strategy == .ipv4Only || strategy == .ipv6Only) then
    answer.map (RR.filterHints strategy)
  else answer

/-- `applyResponseOptions`: the response as it is cached, and its TTL. -/
def applyResponseOptions (question : Question) (response : Msg) (options : QueryOptions) : Msg × UInt32 :=
  let response := { response with answer := filterAnswer question options.strategy response.answer }
  let timeToLive := options.rewriteTTL.getD (computeTimeToLive response)
  (normalizeTTL response timeToLive, timeToLive)

/-! ## EDNS -/

/-- `Msg.IsEdns0`: the last OPT record. -/
def isEdns0 (m : Msg) : Option RR := m.extra.reverse.find? RR.isOPT

def RR.version (r : RR) : UInt32 := (r.ttl >>> 16) &&& 0xFF

/-- `OPT.Do`. -/
def RR.dnssecOK (r : RR) : Bool := r.ttl &&& 0x8000 != 0

def setEdns0 (m : Msg) (udpSize : UInt16) (dnssecOK : Bool) : Msg :=
  { m with extra := m.extra ++ [{ name := ".", cls := udpSize, ttl := if dnssecOK then 0x8000 else 0, data := .opt [] }] }

/-- What `Exchange` does to a response with a version of EDNS that the request
does not have. -/
def matchEdns0 (request response : Msg) : Msg :=
  match isEdns0 response with
  | none => response
  | some responseOpt =>
    let stripped := { response with extra := response.extra.filter fun r => !r.isOPT }
    match isEdns0 request with
    | none => stripped
    | some requestOpt =>
      if requestOpt.version < responseOpt.version then setEdns0 stripped responseOpt.cls responseOpt.dnssecOK
      else response

def edns0Subnet : UInt16 := 8
def edns0Padding : UInt16 := 12

def stripDNSPadding (response : Msg) : Msg :=
  { response with
    extra := response.extra.map fun r =>
      match r.data with
      | .opt options => { r with data := .opt (options.filter fun o => o.code != edns0Padding) }
      | _ => r }

/-- The option that names a client subnet: family, prefix length, scope and
address. -/
def subnetOption (subnet : Subnet) (scope : UInt8) : EDNS0 where
  code := edns0Subnet
  data := [0, if subnet.addr.length = 4 then 1 else 2, subnet.bits, scope] ++ subnet.addr

def RR.hasSubnet (r : RR) : Bool :=
  match r.data with
  | .opt options => options.any fun o => o.code == edns0Subnet
  | _ => false

/-- A subnet option with the subnet replaced; its scope, the fourth byte, is kept. -/
def EDNS0.replaceSubnet (subnet : Subnet) (o : EDNS0) : Option EDNS0 :=
  if o.code == edns0Subnet then some (subnetOption subnet (o.data.getD 3 0)) else none

/-- The first subnet option of an OPT record replaced. -/
def RR.replaceSubnet (subnet : Subnet) (r : RR) : RR :=
  match r.data with
  | .opt options => { r with data := .opt (options.replaceF (EDNS0.replaceSubnet subnet)) }
  | _ => r

def RR.addSubnet (subnet : Subnet) (r : RR) : RR :=
  match r.data with
  | .opt options => { r with data := .opt (options ++ [subnetOption subnet 0]) }
  | _ => r

/-- `SetClientSubnet`: the first subnet option is replaced; without one it is
added to the last record if that is an OPT record, else to a new one. -/
def setClientSubnet (message : Msg) (subnet : Subnet) : Msg :=
  if message.extra.any RR.hasSubnet then
    { message with extra := message.extra.replaceF fun r => if r.hasSubnet then some (r.replaceSubnet subnet) else none }
  else
    match message.extra.getLast? with
    | some last =>
      if last.isOPT then { message with extra := message.extra.dropLast ++ [last.addSubnet subnet] }
      else { message with extra := message.extra ++ [{ name := ".", cls := 0, ttl := 0, data := .opt [subnetOption subnet 0] }] }
    | none => { message with extra := [{ name := ".", cls := 0, ttl := 0, data := .opt [subnetOption subnet 0] }] }

/-- `isSimpleRequest` of `Exchange`: one question, and nothing else but an OPT
record without version, flags and options. -/
def isSimpleRequest (message : Msg) (options : QueryOptions) : Bool :=
  message.question.length == 1 && message.ns.isEmpty && options.clientSubnet.isNone &&
    match message.extra with
    | [] => true
    | [r] =>
      match r.data with
      | .opt options => r.cls > 0 && r.ttl == 0 && options.isEmpty
      | _ => false
    | _ => false

end Singlink.Dns
