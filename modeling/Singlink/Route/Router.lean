import Singlink.Common.Sniff
import Singlink.Lib.Cached
/-!
# The router

`route/route.go`: how a connection goes from an inbound to an outbound, a
tracker or the DNS hijacker. `matchRule` walks the rules; a sniff action reads
ahead on the connection and keeps what it has read in buffers, which
`routeConnection` and `routePacketConnection` put back by wrapping the
connection.

A packet connection is the list of what its reads meet. Packet buffers are
references to the packets that have been read, as the source passes pointers:
`heap` holds the packets by the order of their allocation. Everything the
router asks of other components (process and neighbour lookups, FakeIP, DNS,
outbounds) is a field of `Router`.
-/

namespace Singlink.Route

open Lib Sniff

variable {X : Type}

/-! ## Actions and rules -/

/-- `RuleActionRouteOptions`; `apply` sets the fields only outbounds read. -/
structure RouteOptions (X : Type) where
  overrideAddress : Socksaddr := {}
  overridePort : Nat := 0
  apply : X → X := id

/-- `RuleActionSniff`. When a read times out is part of the connection. -/
structure SniffAction (X : Type) where
  snifferNames : List String := []
  streamSniffers : List (StreamSniffer X) := []
  packetSniffers : List (PacketSniffer X) := []
  overrideDestination : Bool := false

inductive RejectMethod where
  | default
  | drop
  | reply
  deriving DecidableEq

/-- The errors of routing; `rejected` is a `RejectedError` whose cause is
`tun.ErrDrop` or `tun.ErrReset`. -/
inductive RouteError where
  | text (message : String)
  | rejected (drop : Bool)
  deriving DecidableEq

/-- The rule actions. `lookup` is the DNS lookup with the options of the resolve
action; `flooded` says that a reject action has been used more than 50 times in
30 seconds. -/
inductive Action (X : Type) where
  | route (outbound : String) (options : RouteOptions X)
  | routeOptions (options : RouteOptions X)
  | bypass (outbound : String) (options : RouteOptions X)
  | direct
  | reject (method : RejectMethod) (noDrop flooded : Bool)
  | hijackDNS
  | sniff (action : SniffAction X)
  | resolve (server : String) (lookup : InboundContext X → Except RouteError (List String))

/-- A rule: `Match` reads the metadata and writes nothing but the match cache,
which is reset before every rule. -/
structure Rule (X : Type) where
  isMatch : InboundContext X → Bool
  action : Action X

def rejectError (method : RejectMethod) (noDrop flooded : Bool) : Option RouteError :=
  match method with
  | .default => some (.rejected (!noDrop && flooded))
  | .drop => some (.rejected true)
  | .reply => none

/-- The route options an action carries. -/
def Action.options? : Action X → Option (RouteOptions X)
  | .route _ options => some options
  | .routeOptions options => some options
  | .bypass outbound options => if outbound != "" then some options else none
  | _ => none

/-! ## Connections -/

structure Packet where
  data : List UInt8
  destination : Socksaddr := {}
  deriving DecidableEq

/-- What one `ReadPacket` meets; `canceled` is the context's end while it waits.
At the end of the list it fails with `EOF`. -/
inductive PacketEvent where
  | packet (packet : Packet)
  | timeout
  | error (err : String)
  | canceled

def PacketEvent.packets : PacketEvent → List Packet
  | packet p => [p]
  | _ => []

def packetsOf (conn : List PacketEvent) : List Packet := conn.flatMap PacketEvent.packets

structure Outbound where
  tag : String
  networks : List Network

structure Router (X : Type) where
  rules : List (Rule X)
  /-- `r.inbound.Get`: whether the inbound takes TCP and UDP connections. -/
  inbound : String → Option (Bool × Bool) := fun _ => none
  outbound : String → Option Outbound
  defaultOutbound : Outbound
  /-- The trackers; a tracker takes a connection and gives it back in a counting
  wrapper, or refuses it. -/
  trackers : List (InboundContext X → Bool) := []
  /-- `searchProcessInfo` and the neighbour resolver. -/
  enrich : InboundContext X → InboundContext X := id
  /-- The FakeIP store: an address it contains has a domain or no record. -/
  fakeIP : String → Option (Option String) := fun _ => none
  reverseMapping : String → Option String := fun _ => none
  isIPv4 : Socksaddr → Bool := fun a => a.addr != ""
  isIPv6 : Socksaddr → Bool := fun _ => false
  isDomain : Socksaddr → Bool := fun a => a.fqdn != ""
  isDomainName : String → Bool := fun name => name != ""
  hasTransport : String → Bool := fun _ => true
  /-- The sniffers of an action that names none. -/
  streamSniffers : List (StreamSniffer X)
  packetSniffers : List (PacketSniffer X)
  quicClientHello : PacketSniffer X
  /-- The capacity of `buf.NewPacket()`. -/
  bufferSize : Nat
  /-- Whether `N.PutPacketBuffer` clears the packet buffer it takes back. -/
  putClears : Bool
  /-- `mux.Destination.Fqdn`, `vmess.MuxDestination.Fqdn`, `uot.MagicAddress` and
  `uot.LegacyMagicAddress`. -/
  muxFqdn : String := "sp.mux.sing-box.arpa"
  vmessMuxFqdn : String := "v1.mux.cool"
  uotMagicAddress : String := "sp.v2.udp-over-tcp.arpa"
  uotLegacyMagicAddress : String := "sp.udp-over-tcp.arpa"

namespace Router

variable (r : Router X)

/-! ## The sniff action -/

/-- What `matchRule` works on: the metadata, the connection it was given and
what sniff actions have read from it. -/
structure State (X : Type) where
  metadata : InboundContext X
  inputConn : Option (List ReadEvent) := none
  inputPacketConn : Option (List PacketEvent) := none
  buffers : List (List UInt8) := []
  packetBuffers : List Nat := []
  heap : List Packet := []

/-- The same sniffers have given a final error before. -/
def sniffedBefore (a : SniffAction X) (m : InboundContext X) : Bool :=
  m.snifferNames == a.snifferNames && m.sniffError != [] && !needsMoreData m.sniffError

/-- The end of a sniff action whose last error is `err`. -/
def sniffed (a : SniffAction X) (err : SniffError) (m : InboundContext X) : InboundContext X :=
  if err.isEmpty && a.overrideDestination && r.isDomainName m.domain then
    { m with destination := { fqdn := m.domain, port := m.destination.port } }
  else m

/-- An empty sniff buffer is released. -/
def keepBuffer (buffer : List UInt8) : Option (List UInt8) := if buffer.isEmpty then none else some buffer

/-- The part of `actionSniff` for streams. -/
def sniffStream (a : SniffAction X) (s : State X) (conn : List ReadEvent) : Option (List UInt8) × State X :=
  if a.streamSniffers.isEmpty && !a.packetSniffers.isEmpty || sniffedBefore a s.metadata then (none, s)
  else
    let sniffers := if a.streamSniffers.isEmpty then r.streamSniffers else a.streamSniffers
    let peek := peekStream r.bufferSize s.buffers sniffers s.metadata conn
    let m := { peek.metadata with snifferNames := a.snifferNames, sniffError := peek.err }
    (keepBuffer peek.buffer,
      { s with metadata := r.sniffed a peek.err m, inputConn := some peek.conn })

def quicMoreData (a : SniffAction X) (m : InboundContext X) : Bool :=
  m.snifferNames == a.snifferNames && needsMoreData m.sniffError

/-- One packet of `actionSniff`; its error is then the metadata's `sniffError`. -/
def sniffPacket (a : SniffAction X) (m : InboundContext X) (packet : List UInt8) : InboundContext X :=
  let sniffers := if a.packetSniffers.isEmpty then r.packetSniffers else a.packetSniffers
  let (err, m') := peekPacket m packet (if quicMoreData a m then [r.quicClientHello] else sniffers)
  { m' with snifferNames := a.snifferNames, sniffError := err }

/-- The loop over the packets that earlier actions have read. It runs to its end
when all of them ask for more data. -/
def resniff (a : SniffAction X) (heap : List Packet) : List Nat → InboundContext X → Bool × InboundContext X
  | [], m => (true, m)
  | i :: is, m =>
    let m := r.sniffPacket a m ((heap[i]?.map Packet.data).getD [])
    if needsMoreData m.sniffError then resniff a heap is m else (false, m)

structure PacketSniff (X : Type) where
  packetBuffers : List Nat
  metadata : InboundContext X
  heap : List Packet
  conn : List PacketEvent
  fatalErr : Option RouteError := none

/-- The loop that reads packets until one does not ask for more data. -/
def readPackets (a : SniffAction X) (refs : List Nat) (m : InboundContext X) (heap : List Packet) :
    List PacketEvent → PacketSniff X
  | [] => { packetBuffers := refs, metadata := m, heap, conn := [], fatalErr := some (.text "EOF") }
  | .canceled :: conn =>
    { packetBuffers := refs, metadata := m, heap, conn, fatalErr := some (.text "context canceled") }
  | .error err :: conn => { packetBuffers := refs, metadata := m, heap, conn, fatalErr := some (.text err) }
  | .timeout :: conn => { packetBuffers := refs, metadata := m, heap, conn }
  | .packet p :: conn =>
    let m := r.sniffPacket a m p.data
    if needsMoreData m.sniffError then readPackets a (refs ++ [heap.length]) m (heap ++ [p]) conn
    else { packetBuffers := refs ++ [heap.length], metadata := r.sniffed a m.sniffError m, heap := heap ++ [p], conn }

/-- The part of `actionSniff` for packets. It returns the packets it was given
together with the new ones once it reads. -/
def sniffPackets (a : SniffAction X) (s : State X) (conn : List PacketEvent) :
    List Nat × State X × Option RouteError :=
  if a.packetSniffers.isEmpty && !a.streamSniffers.isEmpty || sniffedBefore a s.metadata then ([], s, none)
  else
    match r.resniff a s.heap s.packetBuffers s.metadata with
    | (false, m) => ([], { s with metadata := r.sniffed a m.sniffError m }, none)
    | (true, m) =>
      let out := r.readPackets a s.packetBuffers m s.heap conn
      (out.packetBuffers, { s with metadata := out.metadata, heap := out.heap, inputPacketConn := some out.conn },
        out.fatalErr)

/-- `actionSniff`: the new buffer, the new packet buffers, the state after and
the fatal error. -/
def actionSniff (a : SniffAction X) (s : State X) :
    Option (List UInt8) × List Nat × State X × Option RouteError :=
  if skip s.metadata || s.metadata.protocol != "" then (none, [], s, none)
  else
    match s.inputConn, s.inputPacketConn with
    | some conn, _ =>
      let (buffer, s) := r.sniffStream a s conn
      (buffer, [], s, none)
    | none, some conn =>
      let (refs, s, err) := r.sniffPackets a s conn
      (none, refs, s, err)
    | none, none => (none, [], s, none)

/-! ## The rule loop -/

def applyOptions (o : RouteOptions X) (m : InboundContext X) : InboundContext X :=
  let m := if (o.overrideAddress.isValid || o.overridePort > 0) && !m.routeOriginalDestination.isValid then
    { m with routeOriginalDestination := m.destination } else m
  let m := if o.overrideAddress.isValid then
    { m with
      destination := { addr := o.overrideAddress.addr, fqdn := o.overrideAddress.fqdn, port := m.destination.port }
      destinationAddresses := [] } else m
  let m := if o.overridePort > 0 then { m with destination := { m.destination with port := o.overridePort } } else m
  { m with rest := o.apply m.rest }

def actionResolve (server : String) (lookup : InboundContext X → Except RouteError (List String))
    (m : InboundContext X) : Except RouteError (InboundContext X) :=
  if r.isDomain m.destination then
    if server != "" && !r.hasTransport server then .error (.text ("DNS server not found: " ++ server))
    else (lookup m).map fun addresses => { m with destinationAddresses := addresses }
  else .ok m

/-- How the loop goes on after a rule. -/
inductive Step (X : Type) where
  | next (s : State X)
  | select (s : State X)
  | fail (err : RouteError)

/-- The sniff case of the loop: a new buffer, or else the new packet buffers, are
appended to those there are. -/
def takeSniff (a : SniffAction X) (s : State X) : Step X :=
  match r.actionSniff a s with
  | (buffer, refs, s, fatalErr) =>
    let s := match buffer with
      | some buffer => { s with buffers := s.buffers ++ [buffer] }
      | none => { s with packetBuffers := s.packetBuffers ++ refs }
    match fatalErr with
    | some err => .fail err
    | none => .next s

/-- The body of the loop for a rule that matches. -/
def takeAction (preMatch supportBypass : Bool) (action : Action X) (s : State X) : Step X :=
  let s := match action.options? with
    | some options => { s with metadata := applyOptions options s.metadata }
    | none => s
  match action with
  | .sniff a =>
    if !preMatch then r.takeSniff a s
    else if s.metadata.network ≠ .icmp then .select s
    else .next s
  | .resolve server lookup =>
    match r.actionResolve server lookup s.metadata with
    | .ok m => .next { s with metadata := m }
    | .error err => .fail err
  | .route _ _ | .reject _ _ _ | .hijackDNS => .select s
  | .bypass outbound _ => if !supportBypass && outbound == "" then .next s else .select s
  | .routeOptions _ | .direct => .next s

def matchRules (preMatch supportBypass : Bool) : List (Rule X) → State X →
    Except RouteError (Option (Action X) × State X)
  | [], s => .ok (none, s)
  | rule :: rules, s =>
    if rule.isMatch s.metadata then
      match r.takeAction preMatch supportBypass rule.action s with
      | .next s => matchRules preMatch supportBypass rules s
      | .select s => .ok (some rule.action, s)
      | .fail err => .error err
    else matchRules preMatch supportBypass rules s

/-- What `matchRule` does to the metadata before the loop. -/
def prepare (m : InboundContext X) : Except RouteError (InboundContext X) :=
  let m := r.enrich m
  let found : Except RouteError (InboundContext X) :=
    match if m.destination.addr != "" then r.fakeIP m.destination.addr else none with
    | some none => .error (.text "missing fakeip record, try enable `experimental.cache_file`")
    | some (some domain) =>
      if domain != "" then
        .ok { m with
          originDestination := m.destination
          destination := { fqdn := domain, port := m.destination.port }
          fakeIP := true }
      else .ok m
    | none =>
      if m.domain == "" then
        match r.reverseMapping m.destination.addr with
        | some domain => .ok { m with domain }
        | none => .ok m
      else .ok m
  found.map fun m =>
    if r.isIPv4 m.destination then { m with ipVersion := 4 }
    else if r.isIPv6 m.destination then { m with ipVersion := 6 }
    else m

/-- `matchRule`: the action of the selected rule and the state at the end. With
an error the buffers are released. -/
def matchRule (preMatch supportBypass : Bool) (s : State X) : Except RouteError (Option (Action X) × State X) := do
  let m ← r.prepare s.metadata
  r.matchRules preMatch supportBypass r.rules { s with metadata := m }

/-! ## Handing connections over -/

inductive Party where
  | detour (inbound : String)
  | tracker (index : Nat)
  | outbound (tag : String)
  | dnsHijacker
  deriving DecidableEq

/-- What a call has handed to whom, in order, and the error it returns. -/
structure Routed (C : Type) where
  handed : List (Party × C) := []
  err : Option RouteError := none

def failed {C : Type} (message : String) : Routed C := { err := some (.text message) }

/-- The trackers one after the other, then the outbound, which gets `last`. A
tracker that refuses ends it. -/
def throughTrackers {C : Type} (m : InboundContext X) (conn : C) (last : Party × C) :
    List (InboundContext X → Bool) → Nat → Routed C
  | [], _ => { handed := [last] }
  | accepts :: trackers, i =>
    if accepts m then
      let routed := throughTrackers m conn last trackers (i + 1)
      { routed with handed := (.tracker i, conn) :: routed.handed }
    else { handed := [(.tracker i, conn)], err := some (.rejected true) }

/-- The detour of both functions; `injectable` picks the network. -/
def routeDetour {C : Type} (injectable : Bool × Bool → Bool) (network : String) (m : InboundContext X) (conn : C) :
    Routed C :=
  if m.lastInbound == m.inboundDetour then failed ("routing loop on detour: " ++ m.inboundDetour)
  else
    match r.inbound m.inboundDetour with
    | none => failed ("inbound detour not found: " ++ m.inboundDetour)
    | some takes =>
      if injectable takes then { handed := [(.detour m.inboundDetour, conn)] }
      else failed ("inbound detour is not " ++ network ++ " injectable: " ++ m.inboundDetour)

/-- What the selected rule asks for: an outbound, the DNS hijacker, or an error. -/
inductive Target where
  | outbound (outbound : Outbound)
  | dnsHijacker
  | error (err : Option RouteError)

/-- The outbound of a route or bypass action. -/
def selectOutbound (network : Network) (name : String) (tag : String) : Target :=
  match r.outbound tag with
  | none => .error (some (.text ("outbound not found: " ++ tag)))
  | some outbound =>
    if network ∈ outbound.networks then .outbound outbound
    else .error (some (.text (name ++ " is not supported by outbound: " ++ outbound.tag)))

/-- The source goes on with a nil outbound; the loop selects no such action when
`preMatch` and `supportBypass` are off. -/
def noOutbound : Target := .outbound { tag := "", networks := [] }

/-- The switch over the selected rule's action. `fallback` is the text for a
default outbound that lacks the network. -/
def target (network : Network) (name fallback : String) : Option (Action X) → Target
  | none =>
    if network ∈ r.defaultOutbound.networks then .outbound r.defaultOutbound
    else .error (some (.text (name ++ fallback ++ r.defaultOutbound.tag)))
  | some (.route tag _) => r.selectOutbound network name tag
  | some (.bypass tag _) => if tag == "" then noOutbound else r.selectOutbound network name tag
  | some (.reject .reply _ _) =>
    .error (some (.text ("reject method `reply` is not supported for " ++ name ++ " connections")))
  | some (.reject method noDrop flooded) => .error (rejectError method noDrop flooded)
  | some .hijackDNS => .dnsHijacker
  | some _ => noOutbound

/-- The destinations that only name a protocol. -/
def deprecatedDestination (fqdn : String) : Option String :=
  if fqdn == r.muxFqdn then
    some "global multiplex is deprecated since sing-box v1.7.0, enable multiplex in Inbound fields instead."
  else if fqdn == r.vmessMuxFqdn then some "global multiplex (v2ray legacy) not supported since sing-box v1.7.0."
  else if fqdn == r.uotMagicAddress then some "global UoT not supported since sing-box v1.7.0."
  else if fqdn == r.uotLegacyMagicAddress then some "global UoT (legacy) not supported since sing-box v1.7.0."
  else none

/-! ## Streams -/

/-- The state in which a stream comes to the rules. -/
def streamState (m : InboundContext X) (conn : List ReadEvent) : State X :=
  { metadata := { m with network := .tcp }, inputConn := some conn }

/-- `routeConnection` after the rules: the buffers are put back, for the DNS
hijacker or for the trackers and the outbound. -/
def handConnection : Except RouteError (Option (Action X) × State X) → Routed (Cached UInt8)
  | .error err => { err := some err }
  | .ok (action, s) =>
    let conn := (Cached.bare (streamBytes (s.inputConn.getD []))).wrap s.buffers
    match r.target .tcp "TCP" " is not supported by default outbound: " action with
    | .error err => { err }
    | .dnsHijacker => { handed := [(.dnsHijacker, conn)] }
    | .outbound outbound => throughTrackers s.metadata conn (.outbound outbound.tag, conn) r.trackers 0

/-- `routeConnection`. The wrapper that adds read deadlines passes everything
through. -/
def routeConnection (m : InboundContext X) (conn : List ReadEvent) : Routed (Cached UInt8) :=
  if m.inboundDetour != "" then r.routeDetour Prod.fst "TCP" m (.bare (streamBytes conn))
  else
    match r.deprecatedDestination m.destination.fqdn with
    | some message => failed message
    | none =>
      if m.inboundType == "tun" && m.protocol == "dns" then
        { handed := [(.dnsHijacker, .bare (streamBytes conn))] }
      else r.handConnection (r.matchRule false false (streamState m conn))

/-! ## Packets -/

/-- What a party gets of a packet connection. `natted` has the address
translation of FakeIP on top; the DNS hijacker gets the packets read so far
beside the connection, and finds nothing in a buffer that has been given back. -/
inductive PacketHandover where
  | conn (conn : Cached Packet)
  | natted (origin destination : Socksaddr) (conn : Cached Packet)
  | exchanged (cached : List (Option Packet)) (conn : Cached Packet)

/-- The packets a party reads, in its order; for `natted` those under the
address translation. -/
def PacketHandover.packets : PacketHandover → List (Option Packet)
  | conn c => c.readAll.map some
  | natted _ _ c => c.readAll.map some
  | exchanged cached c => cached ++ c.readAll.map some

/-- `hijackDNSPacket`. A connection of the UDP NAT has its packets exchanged as
they are listed. `NewDNSPacketConnection` reverses the list and releases every
packet it has read. -/
def hijackDNSPacket (natConn : Bool) (conn : Cached Packet) (packetBuffers : List Nat) (heap : List Packet) :
    PacketHandover :=
  if natConn then .exchanged (takeCells r.putClears (heap[·]?) packetBuffers) conn
  else .exchanged (takeCells true (heap[·]?) packetBuffers.reverse) conn

/-- The loop that wraps the connection: `NewCachedPacketConn` with a nil buffer
yields nothing, and each packet buffer is given back once it has been wrapped. -/
def cachePackets (conn : Cached Packet) (packetBuffers : List Nat) (heap : List Packet) : Cached Packet :=
  conn.wrap ((takeCells r.putClears (heap[·]?) packetBuffers).map Option.toList)

/-- The state in which a packet connection comes to the rules. -/
def packetState (m : InboundContext X) (conn : List PacketEvent) : State X :=
  { metadata := { m with network := .udp }, inputPacketConn := some conn }

/-- `routePacketConnection` after the rules. -/
def handPacketConnection (natConn : Bool) : Except RouteError (Option (Action X) × State X) → Routed PacketHandover
  | .error err => { err := some err }
  | .ok (action, s) =>
    let bare := Cached.bare (packetsOf (s.inputPacketConn.getD []))
    match r.target .udp "UDP" " is not supported by outbound: " action with
    | .error err => { err }
    | .dnsHijacker => { handed := [(.dnsHijacker, r.hijackDNSPacket natConn bare s.packetBuffers s.heap)] }
    | .outbound outbound =>
      let conn := r.cachePackets bare s.packetBuffers s.heap
      let last := if s.metadata.fakeIP then .natted s.metadata.originDestination s.metadata.destination conn
        else .conn conn
      throughTrackers s.metadata (.conn conn) (.outbound outbound.tag, last) r.trackers 0

/-- `routePacketConnection`; `natConn` says that the connection is one of the UDP
NAT. -/
def routePacketConnection (m : InboundContext X) (natConn : Bool) (conn : List PacketEvent) : Routed PacketHandover :=
  if m.inboundDetour != "" then r.routeDetour Prod.snd "UDP" m (.conn (.bare (packetsOf conn)))
  else if m.inboundType == "tun" && m.protocol == "dns" then
    { handed := [(.dnsHijacker, r.hijackDNSPacket natConn (.bare (packetsOf conn)) [] [])] }
  else r.handPacketConnection natConn (r.matchRule false false (packetState m conn))

end Router

end Singlink.Route
