import Singlink.Lib.Prog
import Singlink.Route.Router
/-!
# Connections from routing to their end

`route/conn.go` and the callers of the router: who closes a connection and who
tells its inbound about it. `RouteConnectionEx` hands a connection to the
connection manager or the DNS hijacker, or closes it itself; the manager dials,
reports, performs write handshakes and starts two goroutines that copy.

What other components answer (dialers, handshake reports, the copies) is given
by an outcome. A call is a program on the state of the two connections; it
returns the goroutines it has started.
-/

namespace Singlink.Route

open Lib

variable {X : Type}

/-! ## The two connections -/

/-- The inbound connection, the outbound one if it has been opened, the flag the
goroutines share, and the errors `onClose` has been called with. -/
structure Conns where
  inboundClosed : Bool := false
  outboundOpen : Bool := false
  outboundClosed : Bool := false
  done : Bool := false
  onClose : List (Option RouteError) := []

inductive Side where
  | inbound
  | outbound

def Conns.close (s : Conns) : Side → Conns
  | .inbound => { s with inboundClosed := true }
  | .outbound => { s with outboundClosed := true }

abbrev Goroutine := Prog Conns Unit

def close (side : Side) : Goroutine := .modify fun s => s.close side

/-- `common.Close(source, destination)`. -/
def closeBoth (source destination : Side) : Goroutine := do
  close source
  close destination

def callOnClose (err : Option RouteError) : Goroutine := .modify fun s => { s with onClose := s.onClose ++ [err] }

/-- `done.Swap(true)`. -/
def swapDone : Prog Conns Bool := .atomic fun s => (s.done, { s with done := true })

/-- `N.CloseOnHandshakeFailure` on the inbound connection. -/
def closeOnHandshakeFailure (err : Option RouteError) : Goroutine := do
  close .inbound
  callOnClose err

def cause (err message : String) : RouteError := .text (message ++ ": " ++ err)

/-! ## Copies -/

/-- How one copy ends: the error of the copy, whether the destination can close
its write side, and the error of that. -/
structure CopyOutcome where
  err : Option String := none
  isDuplex : Bool := true
  closeWriteErr : Option String := none

/-- `connectionCopy` after the copy and its own closing. -/
def finishCopy (source destination : Side) (err : Option RouteError) : Goroutine := do
  let swapped ← swapDone
  if swapped then
    callOnClose err
    closeBoth source destination

def connectionCopy (source destination : Side) (o : CopyOutcome) : Goroutine := do
  -- `bufio.CopyWithIncreateBuffer` returns
  Prog.modify id
  match o.err with
  | some err =>
    closeBoth source destination
    finishCopy source destination (some (.text err))
  | none =>
    if o.isDuplex then
      -- `CloseWrite`
      Prog.modify id
      match o.closeWriteErr with
      | some err =>
        closeBoth source destination
        finishCopy source destination (some (.text err))
      | none => finishCopy source destination none
    else
      close destination
      finishCopy source destination none

/-- `packetConnectionCopy` after the copy. -/
def finishPacketCopy (source destination : Side) (err : Option RouteError) : Goroutine := do
  let swapped ← swapDone
  if swapped then closeBoth source destination
  else
    callOnClose err
    closeBoth source destination

def packetConnectionCopy (source destination : Side) (err : Option String) : Goroutine := do
  -- `bufio.CopyPacket` returns
  Prog.modify id
  finishPacketCopy source destination (err.map .text)

/-! ## Streams -/

/-- One write handshake: whether the destination needs one, whether the source
has a cached buffer to write, and the error of the write with whether it is one
that an empty write may end with. -/
structure KickOutcome where
  needHandshake : Bool := false
  cached : Bool := false
  err : Option (String × Bool) := none

/-- `kickWriteHandshake`; true when it has failed. -/
def kickWriteHandshake (source destination : Side) (serverFirst : Bool) (o : KickOutcome) : Prog Conns Bool :=
  if !o.needHandshake then pure false
  else
    let wrotePayload := !serverFirst && o.cached
    match o.err with
    | none => pure false
    | some (err, benign) =>
      if !wrotePayload && benign then pure false
      else do
        let swapped ← swapDone
        if !swapped then callOnClose (some (.text err))
        closeBoth source destination
        pure true

/-- What a stream meets on its way. `serverFirst` is `sniff.Skip` for the metadata
that the rules have left; `remote` and `dialer` are the texts of the destination
and of the outbound in errors. -/
structure ConnOutcome where
  hijackErr : Option String := none
  serverFirst : Bool := false
  remote : String := ""
  dialer : String := ""
  dialErr : Option String := none
  reportErr : Option String := none
  tlsSpoof : Bool := false
  spoofErr : Option String := none
  uploadKick : KickOutcome := {}
  downloadKick : KickOutcome := {}
  upload : CopyOutcome := {}
  download : CopyOutcome := {}

/-- The outbound connection is there once dialing has succeeded. -/
def dialed : Goroutine := .modify fun s => { s with outboundOpen := true }

/-- A failure after dialing. -/
def failAfterDial (err : RouteError) : Prog Conns (List Goroutine) := do
  close .outbound
  closeOnHandshakeFailure (some err)
  pure []

/-- The end of `NewConnection`: the write handshakes and the two copies. -/
def kickAndCopy (o : ConnOutcome) : Prog Conns (List Goroutine) := do
  if ← kickWriteHandshake .inbound .outbound o.serverFirst o.uploadKick then pure []
  else if ← kickWriteHandshake .outbound .inbound o.serverFirst o.downloadKick then pure []
  else pure [connectionCopy .inbound .outbound o.upload, connectionCopy .outbound .inbound o.download]

def newConnection (o : ConnOutcome) : Prog Conns (List Goroutine) :=
  match o.dialErr with
  | some err => do
    closeOnHandshakeFailure (some (cause err ("open connection to " ++ o.remote ++ o.dialer)))
    pure []
  | none => do
    dialed
    match o.reportErr with
    | some err => failAfterDial (cause err "report handshake success")
    | none =>
      match if o.tlsSpoof then o.spoofErr else none with
      | some err => failAfterDial (cause err "tls_spoof setup")
      | none => kickAndCopy o

/-- `RouteConnectionEx` once `routeConnection` has said where the connection
goes. The error of a call is handled here, and a detour is another inbound's. -/
def handleConnection {C : Type} (o : ConnOutcome) (routed : Router.Routed C) : Prog Conns (List Goroutine) :=
  match routed.err with
  | some err => do
    closeOnHandshakeFailure (some err)
    pure []
  | none =>
    match routed.handed.getLast? with
    | some (.outbound _, _) => newConnection o
    | some (.dnsHijacker, _) => do
      closeOnHandshakeFailure (o.hijackErr.map .text)
      pure []
    | _ => pure []

def Router.routeConnectionEx (r : Router X) (m : Sniff.InboundContext X) (conn : List Sniff.ReadEvent)
    (o : ConnOutcome) : Prog Conns (List Goroutine) :=
  handleConnection o (r.routeConnection m conn)

/-! ## Packets -/

/-- What a packet connection meets on its way. The error of the DNS hijacker
comes with whether it is one of a closed or canceled connection. -/
structure PacketOutcome where
  dnsErr : Option (String × Bool) := none
  remote : String := ""
  dialer : String := ""
  udpConnect : Bool := false
  dialErr : Option String := none
  reportErr : Option String := none
  upload : Option String := none
  download : Option String := none

/-- `ConnectionManager.NewPacketConnection`. A failing handshake report closes
both connections. -/
def newPacketConnection (o : PacketOutcome) : Prog Conns (List Goroutine) :=
  match o.dialErr with
  | some err => do
    let message := if o.udpConnect then "open packet connection to " ++ o.remote ++ o.dialer
      else "listen packet connection using " ++ o.dialer
    closeOnHandshakeFailure (some (cause err message))
    pure []
  | none => do
    dialed
    match o.reportErr with
    | some _ =>
      closeBoth .inbound .outbound
      pure []
    | none =>
      pure [packetConnectionCopy .inbound .outbound o.upload, packetConnectionCopy .outbound .inbound o.download]

/-- `hijackDNSPacket`. A connection of the UDP NAT gets a handler; when the NAT
closes the connection it closes the handler, which calls `onClose`. -/
def hijackPackets (natConn : Bool) (o : PacketOutcome) : Prog Conns (Option RouteError × List Goroutine) :=
  if natConn then pure (none, [closeOnHandshakeFailure none])
  else do
    closeOnHandshakeFailure (o.dnsErr.map fun err => .text err.1)
    match o.dnsErr with
    | some (err, false) => pure (some (cause err "process DNS packet"), [])
    | _ => pure (none, [])

/-- `RoutePacketConnectionEx` once `routePacketConnection` has said where the
connection goes. -/
def handlePacketConnection {C : Type} (natConn : Bool) (o : PacketOutcome) (routed : Router.Routed C) :
    Prog Conns (List Goroutine) :=
  match routed.err with
  | some err => do
    closeOnHandshakeFailure (some err)
    pure []
  | none =>
    match routed.handed.getLast? with
    | some (.outbound _, _) => newPacketConnection o
    | some (.dnsHijacker, _) => do
      let (err, started) ← hijackPackets natConn o
      match err with
      | some err =>
        closeOnHandshakeFailure (some err)
        pure started
      | none => pure started
    | _ => pure []

def Router.routePacketConnectionEx (r : Router X) (m : Sniff.InboundContext X) (natConn : Bool)
    (conn : List PacketEvent) (o : PacketOutcome) : Prog Conns (List Goroutine) :=
  handlePacketConnection natConn o (r.routePacketConnection m natConn conn)

/-- What is left when a call has returned: the goroutines it has started, on the
state it leaves. -/
def started (call : Prog Conns (List Goroutine)) (s : Conns := {}) : Prog.Pool Conns where
  shared := (call.run s).2
  threads := (call.run s).1

end Singlink.Route
