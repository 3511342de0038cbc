import Singlink.Lib.Codec
import Singlink.Lib.GoMap
/-!
# Packets over trojan

The client side and the server side of a packet connection of `transport/trojan`:
`ClientPacketConn.WritePacket` with `ClientHandshakePacket` and `WritePacket` of
`protocol.go`, `Service.NewConnection` and `ReadPacket` on the other end. The
first packet goes out behind the handshake, in the headroom of its own buffer.

The connection between the two ends works: what is written arrives, in order.
How many bytes the first `Read` of the server finds is up to the network and is
an argument.
-/

namespace Singlink.Trojan

open Lib Lib.Codec List

variable {D K : Type}

def keyLength : Nat := 56
def commandTCP : UInt8 := 1
def commandUDP : UInt8 := 3
def commandMux : UInt8 := 0x7f
def crlf : Bytes := [13, 10]

def maxSocksaddrLength : Nat := 2 + 255 + 2

/-! ## Keys -/

abbrev Key := { bytes : Bytes // bytes.length = keyLength }

def hexDigit (n : Nat) : UInt8 := if n < 10 then UInt8.ofNat (48 + n) else UInt8.ofNat (87 + n)

def hexEncode (bytes : Bytes) : Bytes := bytes.flatMap fun b => [hexDigit (b.toNat / 16), hexDigit (b.toNat % 16)]

theorem length_hexEncode (bytes : Bytes) : (hexEncode bytes).length = 2 * bytes.length := by
  induction bytes with
  | nil => rfl
  | cons b bytes ih =>
    rw [hexEncode, flatMap_cons, length_append, ← hexEncode, length_cons, length_cons,
      length_cons, length_nil]
    omega

/-- SHA-224: 28 bytes for every text. -/
abbrev Hash := String → { sum : Bytes // sum.length = 28 }

def key (hash : Hash) (password : String) : Key :=
  ⟨hexEncode (hash password), by rw [length_hexEncode, (hash password).2]; rfl⟩

theorem key_eq_cons (hash : Hash) (password : String) : ∃ b rest, (key hash password).1 = b :: rest ∧ 48 ≤ b.toNat := by
  have hlength := (hash password).2
  cases hsum : (hash password).1 with
  | nil =>
    rw [hsum] at hlength
    cases hlength
  | cons b rest =>
    have hkey : (key hash password).1 = hexEncode (b :: rest) := congrArg hexEncode hsum
    refine ⟨hexDigit (b.toNat / 16), _, hkey, ?_⟩
    have hbyte : b.toNat / 16 < 16 := by have hb := b.toNat_lt; omega
    unfold hexDigit
    split
    · rw [UInt8.toNat_ofNat']
      omega
    · rw [UInt8.toNat_ofNat']
      omega

/-! ## Addresses and buffers -/

/-- `M.SocksaddrSerializer`: addresses on the wire. What it writes has the length
it announces, reads back, and starts with the byte of an address family. -/
structure Serializer (D : Type) where
  addrPortLen : D → Nat
  writeAddrPort : D → Writer String
  readAddrPort : Reader String D
  length_eq : ∀ {d bytes}, writeAddrPort d = .ok bytes → bytes.length = addrPortLen d
  roundTrip : ∀ d, RoundTrip (writeAddrPort d) readAddrPort d
  family : ∀ {d bytes}, writeAddrPort d = .ok bytes → ∃ b rest, bytes = b :: rest ∧ b ∈ [0x01, 0x03, 0x04]

/-- A `buf.Buffer`: what it holds, and the bytes in front of that. -/
structure Buffer where
  front : Bytes
  data : Bytes

/-- A call fails with an error, or panics. -/
inductive Failure
  | error (message : String)
  | panic
  deriving DecidableEq

namespace Buffer

def start (b : Buffer) : Nat := b.front.length

/-- The region that `ExtendHeader` adds in front of the data. -/
def extendHeader (b : Buffer) (n : Nat) : Except Failure Bytes :=
  if n ≤ b.start then .ok (b.front.drop (b.start - n)) else .error .panic

end Buffer

/-- The region after `buf.With(region)` was written to. -/
def fill (region written : Bytes) : Except Failure Bytes :=
  if written.length ≤ region.length then .ok (written ++ region.drop written.length) else .error .panic

/-- `common.Must` around something that fails: it panics. -/
def must {α : Type} : Except String α → Except Failure α
  | .ok a => .ok a
  | .error _ => .error .panic

def failing {α : Type} : Except String α → Except Failure α
  | .ok a => .ok a
  | .error message => .error (.error message)

/-! ## The client -/

def socksaddrLen (ser : Serializer D) (destination : D) : Except String Nat :=
  if ser.addrPortLen destination > maxSocksaddrLength then .error "destination address too long"
  else .ok (ser.addrPortLen destination)

/-- The address is short enough, and the serializer can write it. -/
def writable (ser : Serializer D) (destination : D) : Bool :=
  match socksaddrLen ser destination, ser.writeAddrPort destination with
  | .ok _, .ok _ => true
  | _, _ => false

/-- What `ClientHandshakePacket` writes to the connection. -/
def clientHandshakePacket (ser : Serializer D) (key : Key) (destination : D) (payload : Buffer) :
    Except Failure Bytes := do
  let destinationLen ← failing (socksaddrLen ser destination)
  let headerLen := keyLength + 2 * destinationLen + 9
  let payloadLen := payload.data.length
  let writeHeader := !decide (payload.start ≥ headerLen)
  -- a header of its own starts as a region of zeros
  let region ← if writeHeader then .ok (List.replicate headerLen 0) else payload.extendHeader headerLen
  let address ← failing (ser.writeAddrPort destination)
  let again ← must (ser.writeAddrPort destination)
  let written := key.1 ++ crlf ++ [commandUDP] ++ address ++ crlf ++ again ++ beBytes 2 payloadLen ++ crlf
  let header ← fill region written
  if writeHeader then
    -- two writes: `header.Bytes()` is what was written, then the payload
    return written ++ payload.data
  else
    return header ++ payload.data

/-- What `WritePacket` writes to the connection. -/
def writePacket (ser : Serializer D) (buffer : Buffer) (destination : D) : Except Failure Bytes := do
  let bufferLen := buffer.data.length
  let destinationLen ← failing (socksaddrLen ser destination)
  let region ← buffer.extendHeader (destinationLen + 4)
  let address ← failing (ser.writeAddrPort destination)
  let header ← fill region (address ++ beBytes 2 bufferLen ++ crlf)
  return header ++ buffer.data

/-- A `ClientPacketConn`, with what was written to its connection. -/
structure ClientPacketConn where
  key : Key
  headerWritten : Bool := false
  written : Bytes := []
  deriving DecidableEq

def newClientPacketConn (key : Key) : ClientPacketConn := { key }

structure Call (D : Type) where
  buffer : Buffer
  destination : D

namespace ClientPacketConn

def frontHeadroom (c : ClientPacketConn) : Nat :=
  if !c.headerWritten then keyLength + 2 * maxSocksaddrLength + 9 else maxSocksaddrLength + 4

def writePacket (ser : Serializer D) (c : ClientPacketConn) (call : Call D) : Except Failure Unit × ClientPacketConn :=
  if !c.headerWritten then
    match clientHandshakePacket ser c.key call.destination call.buffer with
    | .ok bytes => (.ok (), { c with headerWritten := true, written := c.written ++ bytes })
    | .error (.error message) => (.error (.error message), { c with headerWritten := true })
    -- a panic leaves before the assignment
    | .error .panic => (.error .panic, c)
  else
    match Trojan.writePacket ser call.buffer call.destination with
    | .ok bytes => (.ok (), { c with written := c.written ++ bytes })
    | .error failure => (.error failure, c)

/-- The calls one after the other: the packets that were accepted, and the
connection in the end. -/
def writePackets (ser : Serializer D) : ClientPacketConn → List (Call D) → List (D × Bytes) × ClientPacketConn
  | c, [] => ([], c)
  | c, call :: calls =>
    let rest := (c.writePacket ser call).2.writePackets ser calls
    match (c.writePacket ser call).1 with
    | .ok () => ((call.destination, call.buffer.data) :: rest.1, rest.2)
    | .error _ => rest

/-- Every buffer has the headroom that is advertised when it is written, and no
more data than a packet holds. -/
def Advertised (ser : Serializer D) : ClientPacketConn → List (Call D) → Prop
  | _, [] => True
  | c, call :: calls =>
    c.frontHeadroom ≤ call.buffer.start ∧ call.buffer.data.length ≤ 65535 ∧
      (c.writePacket ser call).2.Advertised ser calls

end ClientPacketConn

/-! ## The server -/

def cause {α : Type} (message : String) (r : Reader String α) : Reader String α := fun bytes =>
  match r bytes with
  | .ok result => .ok result
  | .error err => .error (message ++ ": " ++ err)

def skipN (n : Nat) : Reader String Bytes := readFull "EOF" n

def ioReadFull (n : Nat) : Reader String Bytes := fun bytes =>
  if bytes = [] ∧ 0 < n then .error "EOF" else readFull "unexpected EOF" n bytes

/-- `ReadPacket` into a buffer with `room` free bytes. -/
def readPacket (ser : Serializer D) (room : Nat) : Reader String (D × Bytes) := do
  let destination ← cause "read destination" ser.readAddrPort
  let length ← cause "read chunk length" (ofBeBytes <$> ioReadFull 2)
  let _ ← cause "skip crlf" (skipN 2)
  -- `buffer.ReadFullFrom`
  if room < length then throw "short buffer"
  else
    let payload ← ioReadFull length
    return (destination, payload)

structure Service (K : Type) where
  users : GoMap K Key := ∅
  keys : GoMap Key K := ∅
  fallbackHandler : Bool := false

/-- What becomes of a connection, with what is left to read of it. -/
inductive Outcome (K D : Type)
  | error (message : String)
  | fallback (cached rest : Bytes)
  | connection (user : K) (destination : D) (rest : Bytes)
  | packetConnection (user : K) (destination : D) (rest : Bytes)
  | mux (user : K) (rest : Bytes)

namespace Service

variable [DecidableEq K] [ToString K]

def updateUsersFrom (hash : Hash) (users : GoMap K Key) (keys : GoMap Key K) :
    List (K × String) → Except String (GoMap K Key × GoMap Key K)
  | [] => .ok (users, keys)
  | (user, password) :: list =>
    if (users.lookup user).isSome then .error "user already exists"
    else
      match keys.lookup (key hash password) with
      | some oldUser => .error ("user already exists: password used by " ++ toString oldUser)
      | none => updateUsersFrom hash (users.insert user (key hash password)) (keys.insert (key hash password) user) list

/-- `UpdateUsers`, with the users next to their passwords. -/
def updateUsers (hash : Hash) (s : Service K) (list : List (K × String)) : Except String (Service K) := do
  let (users, keys) ← updateUsersFrom hash ∅ ∅ list
  return { s with users, keys }

def fallback (s : Service K) (header rest : Bytes) (err : String) : Outcome K D :=
  if s.fallbackHandler then .fallback header rest else .error (err ++ ": fallback disabled")

/-- What `NewConnection` reads after the key. -/
def request (ser : Serializer D) : Reader String (UInt8 × D) := do
  let _ ← cause "skip crlf" (skipN 2)
  let command ← cause "read command" (readByte "EOF")
  if command ∉ [commandTCP, commandUDP, commandMux] then throw ("unknown command " ++ toString command.toNat)
  else
    let destination ← cause "read destination" ser.readAddrPort
    let _ ← cause "skip crlf" (skipN 2)
    return (command, destination)

/-- What `NewConnection` does with a key and the rest of the stream. -/
def answer (ser : Serializer D) (s : Service K) (key : Key) (rest : Bytes) : Outcome K D :=
  match s.keys.lookup key with
  | none => s.fallback key.1 rest "bad request"
  | some user =>
    match request ser rest with
    | .error err => .error err
    | .ok ((command, destination), rest) =>
      if command = commandTCP then .connection user destination rest
      else if command = commandUDP then .packetConnection user destination rest
      else .mux user rest

/-- `NewConnection` on a connection that gives `stream` and then ends. The first
`Read` finds `arrived` bytes. -/
def newConnection (ser : Serializer D) (s : Service K) (arrived : Nat) (stream : Bytes) : Outcome K D :=
  if stream = [] then .error "EOF"
  else
    let n := min arrived keyLength
    if h : (stream.take n).length = keyLength then
      s.answer ser ⟨stream.take n, h⟩ (stream.drop n)
    else s.fallback (stream.take n) (stream.drop n) "bad request size"

theorem lookup_updateUsersFrom {hash : Hash} {users users' : GoMap K Key} {keys keys' : GoMap Key K}
    {list : List (K × String)} (h : updateUsersFrom hash users keys list = .ok (users', keys')) :
    (∀ k user, keys.lookup k = some user → keys'.lookup k = some user) ∧
      ∀ entry ∈ list, keys'.lookup (key hash entry.2) = some entry.1 := by
  induction list generalizing users keys with
  | nil =>
    cases h
    exact ⟨fun _ _ hk => hk, nofun⟩
  | cons entry list ih =>
    rw [updateUsersFrom] at h
    split at h
    · cases h
    · cases hold : keys.lookup (key hash entry.2) with
      | some oldUser =>
        rw [hold] at h
        cases h
      | none =>
        rw [hold] at h
        obtain ⟨hkept, hlist⟩ := ih h
        constructor
        · intro k user hk
          refine hkept k user ?_
          have hne : k ≠ key hash entry.2 := by
            rintro rfl
            rw [hold] at hk
            cases hk
          rw [AList.lookup_insert_ne hne, hk]
        · intro entry' hmem
          rcases mem_cons.1 hmem with rfl | hmem
          · exact hkept _ _ (AList.lookup_insert _)
          · exact hlist entry' hmem

theorem keys_updateUsers {hash : Hash} {s s' : Service K} {list : List (K × String)}
    (h : s.updateUsers hash list = .ok s') {entry : K × String} (hmem : entry ∈ list) :
    s'.keys.lookup (key hash entry.2) = some entry.1 := by
  unfold updateUsers at h
  cases hfrom : updateUsersFrom hash ∅ ∅ list with
  | error err =>
    rw [hfrom] at h
    cases h
  | ok result =>
    rw [hfrom] at h
    cases h
    exact (lookup_updateUsersFrom hfrom).2 entry hmem

end Service

/-! ## What goes over the wire -/

def handshake (ser : Serializer D) (key : Key) (destination : D) : Writer String :=
  Writer.concat [.ok key.1, .ok crlf, .ok [commandUDP], ser.writeAddrPort destination, .ok crlf]

def frame (ser : Serializer D) (packet : D × Bytes) : Writer String :=
  Writer.concat [ser.writeAddrPort packet.1, .ok (beBytes 2 packet.2.length), .ok crlf, .ok packet.2]

def frames (ser : Serializer D) (packets : List (D × Bytes)) : Writer String := Writer.concat (packets.map (frame ser))

/-- Nothing, or one handshake and whole packets. -/
def WellFormed (ser : Serializer D) (key : Key) (stream : Bytes) : Prop :=
  stream = [] ∨ ∃ destination packets, (handshake ser key destination).append (frames ser packets) = .ok stream

/-- The server reads back the packets: it takes the connection as a packet
connection, and reading as many packets gives them and leaves nothing. -/
def ReadsBack [DecidableEq K] (ser : Serializer D) (server : Service K) (arrived room : Nat) (stream : Bytes)
    (packets : List (D × Bytes)) : Prop :=
  stream = [] ∧ packets = [] ∨
    ∃ user destination rest, server.newConnection ser arrived stream = .packetConnection user destination rest ∧
      readMany (readPacket ser room) packets.length rest = .ok (packets, [])

section Client

variable {ser : Serializer D}

theorem handshake_eq_ok {key : Key} {d : D} {bytes : Bytes} : handshake ser key d = .ok bytes ↔
      ∃ address, ser.writeAddrPort d = .ok address ∧ bytes = key.1 ++ (crlf ++ ([commandUDP] ++ (address ++ crlf))) := by
  cases haddress : ser.writeAddrPort d with
  | error err => simp [handshake, Writer.concat, Writer.append, haddress]
  | ok address => simp [handshake, Writer.concat, Writer.append, haddress, eq_comm]

theorem key_append_ne_nil (key : Key) (rest : Bytes) : key.1 ++ rest ≠ [] := by
  intro hnil
  have hlength := congrArg length (append_eq_nil_iff.1 hnil).1
  rw [key.2] at hlength
  cases hlength

theorem handshake_ne_nil {key : Key} {d : D} {first : Bytes} (h : handshake ser key d = .ok first) : first ≠ [] := by
  obtain ⟨address, -, rfl⟩ := handshake_eq_ok.1 h
  exact key_append_ne_nil key _

theorem frame_eq_ok {packet : D × Bytes} {bytes : Bytes} : frame ser packet = .ok bytes ↔
      ∃ address, ser.writeAddrPort packet.1 = .ok address ∧
        bytes = address ++ (beBytes 2 packet.2.length ++ (crlf ++ packet.2)) := by
  cases haddress : ser.writeAddrPort packet.1 with
  | error err => simp [frame, Writer.concat, Writer.append, haddress]
  | ok address => simp [frame, Writer.concat, Writer.append, haddress, eq_comm]

theorem fill_of_length {region written : Bytes} (h : written.length = region.length) : fill region written = .ok written := by
  rw [fill, if_pos h.le, h, drop_length, append_nil]

variable {buffer : Buffer}

theorem length_extendHeader {n : Nat} (h : n ≤ buffer.start) :
    ∃ region, buffer.extendHeader n = .ok region ∧ region.length = n := by
  refine ⟨_, if_pos h, ?_⟩
  rw [length_drop, Buffer.start]
  rw [Buffer.start] at h
  omega

theorem writable_of_long {d : D} (h : ser.addrPortLen d > maxSocksaddrLength) : writable ser d = false := by
  rw [writable, socksaddrLen, if_pos h]

theorem writable_of_short {d : D} (h : ¬ ser.addrPortLen d > maxSocksaddrLength) :
    writable ser d = match ser.writeAddrPort d with
      | .ok _ => true
      | .error _ => false := by
  rw [writable, socksaddrLen, if_neg h]
  cases ser.writeAddrPort d <;> rfl

variable (ser) in
theorem clientHandshakePacket_cases (key : Key) (d : D)
    (hroom : keyLength + 2 * maxSocksaddrLength + 9 ≤ buffer.start) :
    (writable ser d = true ∧ ∃ first packet, handshake ser key d = .ok first ∧
        frame ser (d, buffer.data) = .ok packet ∧ clientHandshakePacket ser key d buffer = .ok (first ++ packet)) ∨
      writable ser d = false ∧ ∃ message, clientHandshakePacket ser key d buffer = .error (.error message) := by
  unfold clientHandshakePacket socksaddrLen
  split
  · rename_i hlong
    exact .inr ⟨writable_of_long hlong, _, rfl⟩
  · rename_i hshort
    have hstart : buffer.start ≥ keyLength + 2 * ser.addrPortLen d + 9 := by omega
    obtain ⟨region, hregion, hsize⟩ := length_extendHeader hstart
    cases haddress : ser.writeAddrPort d with
    | error message =>
      refine .inr ⟨by rw [writable_of_short hshort, haddress], message, ?_⟩
      simp [failing, bind, Except.bind, hstart, ↓reduceIte, hregion]
    | ok address =>
      refine .inl ⟨by rw [writable_of_short hshort, haddress], _, _, handshake_eq_ok.2 ⟨address, haddress, rfl⟩, frame_eq_ok.2 ⟨address, haddress, rfl⟩, ?_⟩
      have hwritten : (key.1 ++ crlf ++ [commandUDP] ++ address ++ crlf ++ address ++
          beBytes 2 buffer.data.length ++ crlf).length = region.length := by
        simp only [length_append, length_beBytes, key.2, ser.length_eq haddress, hsize]
        simp only [crlf, length_cons, length_nil]
        omega
      simp only [failing, must, bind, Except.bind, hstart, decide_true, Bool.not_true, Bool.false_eq_true, ↓reduceIte,
        hregion, fill_of_length hwritten, pure, Except.pure]
      simp

theorem writePacket_cases (d : D) (hroom : maxSocksaddrLength + 4 ≤ buffer.start) :
    (writable ser d = true ∧ ∃ packet, frame ser (d, buffer.data) = .ok packet ∧
        writePacket ser buffer d = .ok packet) ∨
      writable ser d = false ∧ ∃ message, writePacket ser buffer d = .error (.error message) := by
  unfold writePacket socksaddrLen
  split
  · rename_i hlong
    exact .inr ⟨writable_of_long hlong, _, rfl⟩
  · rename_i hshort
    obtain ⟨region, hregion, hsize⟩ := length_extendHeader (show ser.addrPortLen d + 4 ≤ buffer.start by omega)
    cases haddress : ser.writeAddrPort d with
    | error message =>
      refine .inr ⟨by rw [writable_of_short hshort, haddress], message, ?_⟩
      simp only [failing, bind, Except.bind, hregion]
    | ok address =>
      refine .inl ⟨by rw [writable_of_short hshort, haddress], _, frame_eq_ok.2 ⟨address, haddress, rfl⟩, ?_⟩
      have hwritten : (address ++ beBytes 2 buffer.data.length ++ crlf).length = region.length := by
        simp only [length_append, length_beBytes, ser.length_eq haddress, hsize]
        rfl
      simp only [failing, bind, Except.bind, hregion, fill_of_length hwritten, pure, Except.pure]
      simp

namespace ClientPacketConn

variable {calls : List (Call D)}

/-- The packets whose destination can be written. -/
def accepted (ser : Serializer D) (calls : List (Call D)) : List (D × Bytes) :=
  (calls.filter fun call => writable ser call.destination).map fun call => (call.destination, call.buffer.data)

theorem accepted_cons (call : Call D) (calls : List (Call D)) : accepted ser (call :: calls) =
    if writable ser call.destination then (call.destination, call.buffer.data) :: accepted ser calls
    else accepted ser calls := by
  unfold accepted
  rw [filter_cons]
  split <;> rfl

theorem written_writePackets {c : ClientPacketConn} (hheader : c.headerWritten = true) (h : c.Advertised ser calls) :
    (c.writePackets ser calls).1 = accepted ser calls ∧ ∃ bytes, frames ser (accepted ser calls) = .ok bytes ∧
      (c.writePackets ser calls).2.written = c.written ++ bytes := by
  induction calls generalizing c with
  | nil => exact ⟨rfl, [], rfl, (append_nil _).symm⟩
  | cons call calls ih =>
    obtain ⟨hroom, -, hcalls⟩ := h
    have hstep : c.writePacket ser call = match Trojan.writePacket ser call.buffer call.destination with
        | .ok bytes => (.ok (), { c with written := c.written ++ bytes })
        | .error failure => (.error failure, c) := by
      rw [writePacket, hheader]
      rfl
    rw [frontHeadroom, hheader] at hroom
    rcases writePacket_cases call.destination hroom with ⟨hwritable, packet, hframe, hwrite⟩ | ⟨hwritable, message, hwrite⟩
    · rw [hwrite] at hstep
      rw [accepted_cons, hwritable, if_pos rfl]
      simp only [writePackets, hstep] at hcalls ⊢
      obtain ⟨haccepted, bytes, hframes, hwritten⟩ := ih (c := { c with written := c.written ++ packet }) hheader hcalls
      exact ⟨by rw [haccepted], packet ++ bytes, Writer.append_eq_ok.2 ⟨packet, bytes, hframe, hframes, rfl⟩,
        by rw [hwritten, append_assoc]⟩
    · rw [hwrite] at hstep
      rw [accepted_cons, hwritable, if_neg Bool.false_ne_true]
      simp only [writePackets, hstep] at hcalls ⊢
      exact ih hheader hcalls

/-- What a new connection has written after some calls: the handshake and the
accepted packets if its first call was accepted, only the packets if not. -/
theorem written_new (key : Key) {call : Call D} (h : (newClientPacketConn key).Advertised ser (call :: calls)) :
    let r := (newClientPacketConn key).writePackets ser (call :: calls)
    r.1 = accepted ser (call :: calls) ∧ ∃ bytes, frames ser (accepted ser (call :: calls)) = .ok bytes ∧
      ((∃ first, handshake ser key call.destination = .ok first ∧ writable ser call.destination = true ∧
          r.2.written = first ++ bytes) ∨
        writable ser call.destination = false ∧ r.2.written = bytes) := by
  intro r
  obtain ⟨hroom, -, hcalls⟩ : (newClientPacketConn key).Advertised ser (call :: calls) := h
  rcases clientHandshakePacket_cases ser key call.destination hroom with
    ⟨hwritable, first, packet, hfirst, hframe, hwrite⟩ | ⟨hwritable, message, hwrite⟩
  · have hstep : (newClientPacketConn key).writePacket ser call = (.ok (), ⟨key, true, first ++ packet⟩) := by
      simp [writePacket, newClientPacketConn, ↓reduceIte, hwrite]
    rw [accepted_cons, hwritable, if_pos rfl]
    simp only [r, writePackets, hstep] at hcalls ⊢
    obtain ⟨haccepted, bytes, hframes, hwritten⟩ := written_writePackets rfl hcalls
    refine ⟨by rw [haccepted], packet ++ bytes, Writer.append_eq_ok.2 ⟨packet, bytes, hframe, hframes, rfl⟩,
      .inl ⟨first, hfirst, trivial, ?_⟩⟩
    rw [hwritten, append_assoc]
  · have hstep : (newClientPacketConn key).writePacket ser call = (.error (.error message), ⟨key, true, []⟩) := by
      simp [writePacket, newClientPacketConn, ↓reduceIte, hwrite]
    rw [accepted_cons, hwritable, if_neg Bool.false_ne_true]
    simp only [r, writePackets, hstep] at hcalls ⊢
    obtain ⟨haccepted, bytes, hframes, hwritten⟩ := written_writePackets rfl hcalls
    exact ⟨haccepted, bytes, hframes, .inr ⟨trivial, hwritten⟩⟩

theorem length_of_accepted {c : ClientPacketConn} (h : c.Advertised ser calls) :
    ∀ packet ∈ (c.writePackets ser calls).1, packet.2.length ≤ 65535 := by
  induction calls generalizing c with
  | nil => nofun
  | cons call calls ih =>
    obtain ⟨-, hlength, hcalls⟩ := h
    rw [writePackets]
    split
    · intro packet hmem
      rcases mem_cons.1 hmem with rfl | hmem
      · exact hlength
      · exact ih hcalls packet hmem
    · exact ih hcalls

end ClientPacketConn

end Client

/-! ## What the server reads -/

section Server

variable {ser : Serializer D} {bytes : Bytes}

theorem reads_cause {α : Type} {r : Reader String α} {a : α} (message : String) (h : Reads r bytes a) :
    Reads (cause message r) bytes a := by
  intro rest
  simp only [cause, h rest]

theorem reads_ioReadFull (bytes : Bytes) : Reads (ioReadFull bytes.length) bytes bytes := by
  intro rest
  unfold ioReadFull
  rw [if_neg, reads_full _ bytes rest]
  rintro ⟨hnil, hlength⟩
  rw [(append_eq_nil_iff.1 hnil).1] at hlength
  cases hlength

theorem reads_length {n : Nat} (h : n ≤ 65535) : Reads (ofBeBytes <$> ioReadFull 2) (beBytes 2 n) n := by
  have hread := (reads_ioReadFull (beBytes 2 n)).map ofBeBytes
  rw [ofBeBytes_beBytes, Nat.mod_eq_of_lt (by omega)] at hread
  exact hread

theorem reads_crlf : Reads (skipN 2) crlf crlf := reads_full _ crlf

theorem reads_request {d : D} {address : Bytes} (h : ser.writeAddrPort d = .ok address) {command : UInt8}
    (hcommand : command ∈ [commandTCP, commandUDP, commandMux]) :
    Reads (Service.request ser) (crlf ++ ([command] ++ (address ++ crlf))) (command, d) := by
  refine (reads_cause _ reads_crlf).bind ?_
  have hbyte : Reads (readByte "EOF") [command] command := fun _ => rfl
  refine (reads_cause _ hbyte).bind ?_
  rw [if_neg (not_not_intro hcommand)]
  refine (reads_cause _ (ser.roundTrip d address h)).bind ?_
  exact (reads_cause _ reads_crlf).bind (Reads.pure _)

theorem readPacket_frame (room : Nat) {packet : D × Bytes} (h : frame ser packet = .ok bytes)
    (hlength : packet.2.length ≤ 65535) (rest : Bytes) : readPacket ser room (bytes ++ rest) =
      if packet.2.length ≤ room then .ok (packet, rest) else .error "short buffer" := by
  obtain ⟨address, haddress, rfl⟩ := frame_eq_ok.1 h
  rw [readPacket, append_assoc, (reads_cause _ (ser.roundTrip packet.1 address haddress)).bind_apply,
    append_assoc, (reads_cause _ (reads_length hlength)).bind_apply, append_assoc,
    (reads_cause _ reads_crlf).bind_apply]
  by_cases hroom : packet.2.length ≤ room
  · rw [if_pos hroom, if_neg (by omega), (reads_ioReadFull packet.2).bind_apply]
    rfl
  · rw [if_neg hroom, if_pos (by omega)]
    rfl

section newConnection

variable {server : Service K} {arrived : Nat}

theorem newConnection_key (harrived : keyLength ≤ arrived) (key : Key) (rest : Bytes) :
    server.newConnection ser arrived (key.1 ++ rest) = server.answer ser key rest := by
  have htake : (key.1 ++ rest).take keyLength = key.1 := take_left' key.2
  have hdrop : (key.1 ++ rest).drop keyLength = rest := drop_left' key.2
  have hsize := (congrArg length htake).trans key.2
  have hfound : (⟨_, hsize⟩ : Key) = key := Subtype.ext htake
  rw [Service.newConnection, if_neg (key_append_ne_nil key rest)]
  generalize hn : min arrived keyLength = n
  obtain rfl : n = keyLength := by omega
  rw [dif_pos hsize, hfound, hdrop]

theorem newConnection_short {stream : Bytes} (hne : stream ≠ []) (h : min arrived stream.length < keyLength) :
    server.newConnection ser arrived stream =
      server.fallback (stream.take arrived) (stream.drop arrived) "bad request size" := by
  have hshort : ¬ (stream.take (min arrived keyLength)).length = keyLength := by
    rw [length_take]
    omega
  rw [Service.newConnection, if_neg hne, dif_neg hshort]
  by_cases harrived : arrived ≤ keyLength
  · rw [min_eq_left harrived]
  · -- the stream ends before the key does
    rw [take_of_length_le (by omega), drop_of_length_le (by omega), take_of_length_le (by omega),
      drop_of_length_le (by omega)]

theorem newConnection_handshake {key : Key} {user : K}
    (hkey : server.keys.lookup key = some user) {d : D} {first : Bytes} (h : handshake ser key d = .ok first)
    (arrived : Nat) (rest : Bytes) : server.newConnection ser arrived (first ++ rest) =
      if keyLength ≤ arrived then .packetConnection user d rest
      else server.fallback ((first ++ rest).take arrived) ((first ++ rest).drop arrived) "bad request size" := by
  have hne := append_ne_nil_of_left_ne_nil (handshake_ne_nil h) rest
  split
  · rename_i harrived
    obtain ⟨address, haddress, rfl⟩ := handshake_eq_ok.1 h
    have hrequest := reads_request haddress (show commandUDP ∈ _ by decide) rest
    rw [append_assoc, newConnection_key harrived, Service.answer, hkey]
    simp only [hrequest]
    rfl
  · exact newConnection_short hne (by omega)

end newConnection

/-- The packets are read back if and only if each has room in the buffer of the
reader. -/
theorem readMany_frames (room : Nat) {packets : List (D × Bytes)} (h : frames ser packets = .ok bytes)
    (hlength : ∀ packet ∈ packets, packet.2.length ≤ 65535) :
    readMany (readPacket ser room) packets.length bytes = .ok (packets, []) ↔
      ∀ packet ∈ packets, packet.2.length ≤ room := by
  induction packets generalizing bytes with
  | nil =>
    cases h
    exact ⟨fun _ => nofun, fun _ => rfl⟩
  | cons packet packets ih =>
    obtain ⟨first, rest, hfirst, hrest, rfl⟩ := Writer.append_eq_ok.1 h
    have hread := readPacket_frame room hfirst (hlength packet mem_cons_self) rest
    have ih := ih hrest fun other hother => hlength other (mem_cons_of_mem _ hother)
    rw [forall_mem_cons, ← ih]
    show (readPacket ser room (first ++ rest) >>= fun p => (do
      let others ← readMany (readPacket ser room) packets.length
      return p.1 :: others : Reader String (List (D × Bytes))) p.2) = _ ↔ _
    rw [hread]
    split
    · rename_i hroom
      show (readMany (readPacket ser room) packets.length rest >>= fun p => .ok (packet :: p.1, p.2)) = _ ↔ _
      cases readMany (readPacket ser room) packets.length rest with
      | error err => exact ⟨nofun, fun h => nomatch h.2⟩
      | ok result =>
        constructor
        · intro heq
          obtain ⟨hpackets, hnil⟩ := Prod.mk.inj (Except.ok.inj heq)
          exact ⟨hroom, congrArg Except.ok (Prod.ext (cons.inj hpackets).2 hnil)⟩
        · rintro ⟨-, ⟨⟩⟩
          rfl
    · rename_i hroom
      exact ⟨nofun, fun h => absurd h.1 hroom⟩

end Server

/-! ## Both ends -/

theorem frames_not_wellFormed {ser : Serializer D} (hash : Hash) (password : String) {packets : List (D × Bytes)}
    {bytes : Bytes} (h : frames ser packets = .ok bytes) (hne : packets ≠ []) :
    ¬ WellFormed ser (key hash password) bytes := by
  obtain ⟨packet, packets, rfl⟩ := exists_cons_of_ne_nil hne
  obtain ⟨first, rest, hfirst, hrest, rfl⟩ := Writer.append_eq_ok.1 h
  obtain ⟨address, haddress, rfl⟩ := frame_eq_ok.1 hfirst
  obtain ⟨b, tail, rfl, hb⟩ := ser.family haddress
  rintro (hnil | ⟨destination, others, hstream⟩)
  · cases hnil
  · obtain ⟨hand, _, hhand, -, heq⟩ := Writer.append_eq_ok.1 hstream
    obtain ⟨_, _, rfl⟩ := handshake_eq_ok.1 hhand
    obtain ⟨c, rest', hkey, hc⟩ := key_eq_cons hash password
    rw [hkey] at heq
    have hbc : b = c := (cons.inj heq).1
    subst hbc
    simp only [mem_cons, not_mem_nil, or_false] at hb
    rcases hb with rfl | rfl | rfl <;> exact absurd hc (by decide)

/-- On a working connection, with buffers as they are advertised and a server that
knows the key: what was written is a handshake and whole packets that the server
reads back as the accepted ones exactly if no destination can be written, or the
first one can, the server finds the whole key in its first read, and its buffers
have room for the packets whose destination can be written. -/
theorem packets_delivered_iff [DecidableEq K] (ser : Serializer D) (hash : Hash) (password : String) (server : Service K)
    (user : K) (hkey : server.keys.lookup (key hash password) = some user) (arrived room : Nat) (calls : List (Call D))
    (hcalls : (newClientPacketConn (key hash password)).Advertised ser calls) :
    WellFormed ser (key hash password) ((newClientPacketConn (key hash password)).writePackets ser calls).2.written ∧
        ReadsBack ser server arrived room ((newClientPacketConn (key hash password)).writePackets ser calls).2.written
          ((newClientPacketConn (key hash password)).writePackets ser calls).1 ↔
      (∀ call ∈ calls, writable ser call.destination = false) ∨
        (∀ call ∈ calls.head?, writable ser call.destination = true) ∧ keyLength ≤ arrived ∧
          ∀ call ∈ calls, writable ser call.destination = true → call.buffer.data.length ≤ room := by
  cases calls with
  | nil => exact ⟨fun _ => .inl nofun, fun _ => ⟨.inl rfl, .inl ⟨rfl, rfl⟩⟩⟩
  | cons call calls =>
    have hlength := ClientPacketConn.length_of_accepted hcalls
    obtain ⟨haccepted, bytes, hframes, hcases⟩ := ClientPacketConn.written_new _ hcalls
    have hnone : ClientPacketConn.accepted ser (call :: calls) = [] ↔
        ∀ other ∈ call :: calls, writable ser other.destination = false := by
      simp [ClientPacketConn.accepted, filter_eq_nil_iff]
    have hroom : (∀ packet ∈ ClientPacketConn.accepted ser (call :: calls), packet.2.length ≤ room) ↔
        ∀ other ∈ call :: calls, writable ser other.destination = true → other.buffer.data.length ≤ room := by
      rw [ClientPacketConn.accepted, forall_mem_map]
      simp only [mem_filter, and_imp]
    rw [haccepted] at hlength ⊢
    rw [← hroom, ← hnone, ← readMany_frames room hframes hlength]
    rcases hcases with ⟨first, hfirst, hwritable, hwritten⟩ | ⟨hrefused, hwritten⟩
    · have hhead : ∀ other ∈ (call :: calls).head?, writable ser other.destination = true := by
        rintro other ⟨⟩
        exact hwritable
      have hne : ClientPacketConn.accepted ser (call :: calls) ≠ [] := by
        rw [ClientPacketConn.accepted_cons, if_pos hwritable]
        exact cons_ne_nil _ _
      have hstream := append_ne_nil_of_left_ne_nil (handshake_ne_nil hfirst) bytes
      have hserver := newConnection_handshake hkey hfirst arrived bytes
      rw [hwritten, ReadsBack, hserver]
      constructor
      · rintro ⟨-, ⟨hnil, -⟩ | ⟨user', destination, rest, hconn, hread⟩⟩
        · exact absurd hnil hstream
        · split at hconn
          · rename_i harrived
            cases hconn
            exact .inr ⟨hhead, harrived, hread⟩
          · rw [Service.fallback] at hconn
            split at hconn <;> cases hconn
      · rintro (hnil | ⟨-, harrived, hread⟩)
        · exact absurd hnil hne
        · rw [if_pos harrived]
          exact ⟨.inr ⟨_, _, Writer.append_eq_ok.2 ⟨first, bytes, hfirst, hframes, rfl⟩⟩, .inr ⟨_, _, _, rfl, hread⟩⟩
    · rw [hwritten]
      constructor
      · rintro ⟨hwell, -⟩
        by_contra hcond
        exact frames_not_wellFormed hash password hframes (fun hnil => hcond (.inl hnil)) hwell
      · rintro (hnil | ⟨hhead, -⟩)
        · rw [hnil] at hframes ⊢
          cases hframes
          exact ⟨.inl rfl, .inl ⟨rfl, rfl⟩⟩
        · rw [hhead call rfl] at hrefused
          cases hrefused

/-- Domain names with their ports. -/
def domainSerializer : Serializer (Bytes × UInt16) where
  addrPortLen d := 1 + (1 + d.1.length) + 2
  writeAddrPort d :=
    if d.1.length ≤ 255 then .ok ([0x03] ++ ([UInt8.ofNat d.1.length] ++ (d.1 ++ beBytes 2 d.2.toNat)))
    else .error "domain name too long"
  readAddrPort := do
    let family ← readByte "EOF"
    if family ≠ 0x03 then throw "unknown address family"
    else
      let length ← readByte "EOF"
      let name ← ioReadFull length.toNat
      let port ← readBE "EOF" 2
      return (name, UInt16.ofNat port)
  length_eq := by
    intro d bytes h
    split at h
    · rw [← Except.ok.inj h]
      simp only [List.length_append, List.length_cons, List.length_nil, length_beBytes]
      omega
    · cases h
  roundTrip := by
    intro d bytes h
    split at h
    · rename_i hlength
      rw [← Except.ok.inj h]
      refine Reads.byte (Reads.byte ?_)
      have hsize : (UInt8.ofNat d.1.length).toNat = d.1.length := by
        rw [UInt8.toNat_ofNat']
        omega
      have hport := (reads_be "EOF" (k := 2) d.2.toNat_lt).map fun port => (d.1, UInt16.ofNat port)
      rw [UInt16.ofNat_toNat, map_eq_pure_bind] at hport
      rw [hsize]
      exact (reads_ioReadFull d.1).bind hport
    · cases h
  family := by
    intro d bytes h
    split at h
    · exact ⟨_, _, (Except.ok.inj h).symm, by decide⟩
    · cases h

def zeroHash : Hash := fun _ => ⟨List.replicate 28 0, rfl⟩

/-- A server with one user and no fallback. -/
def oneUser : Service String := { keys := (∅ : GoMap Key String).insert (key zeroHash "password") "user" }

/-- Tells one password from all others. -/
def oneHash : Hash := fun text => if text = "password" then ⟨List.replicate 28 1, rfl⟩ else ⟨List.replicate 28 0, rfl⟩

/-- The second entry leaves the key of the first alone. -/
theorem keys_updateUsers_two : ∃ s, oneUser.updateUsers oneHash [("alice", "secret"), ("bob", "password")] = .ok s ∧
    key oneHash "secret" ≠ key oneHash "password" ∧ s.keys.lookup (key oneHash "secret") = some "alice" ∧
    s.keys.lookup (key oneHash "password") = some "bob" := by
  have h : oneUser.updateUsers oneHash [("alice", "secret"), ("bob", "password")] = .ok _ := rfl
  exact ⟨_, h, by decide +kernel, Service.keys_updateUsers h (.head _), Service.keys_updateUsers h (.tail _ (.head _))⟩

/-- A call with a name of `n` letters and with more headroom than is advertised. -/
def callTo (n : Nat) (data : Bytes) : Call (Bytes × UInt16) := ⟨⟨List.replicate 600 0, data⟩, (List.replicate n 97, 53)⟩

def sampleConn : ClientPacketConn := newClientPacketConn (key zeroHash "password")

/-- The second of three packets is refused, the others are read back. -/
theorem packets_delivered_iff_three :
    oneUser.keys.lookup (key zeroHash "password") = some "user" ∧
      sampleConn.Advertised domainSerializer [callTo 1 [1, 2], callTo 256 [3], callTo 2 []] ∧
      (sampleConn.writePackets domainSerializer [callTo 1 [1, 2], callTo 256 [3], callTo 2 []]).1 =
        [(([97], 53), [1, 2]), (([97, 97], 53), [])] ∧
      ReadsBack domainSerializer oneUser 64 16384
        (sampleConn.writePackets domainSerializer [callTo 1 [1, 2], callTo 256 [3], callTo 2 []]).2.written
        (sampleConn.writePackets domainSerializer [callTo 1 [1, 2], callTo 256 [3], callTo 2 []]).1 := by
  have hkey : oneUser.keys.lookup (key zeroHash "password") = some "user" := AList.lookup_insert _
  have hcalls : sampleConn.Advertised domainSerializer [callTo 1 [1, 2], callTo 256 [3], callTo 2 []] := by
    simp only [ClientPacketConn.Advertised]
    decide +kernel
  have haccepted : (sampleConn.writePackets domainSerializer [callTo 1 [1, 2], callTo 256 [3], callTo 2 []]).1 =
      [(([97], 53), [1, 2]), (([97, 97], 53), [])] := by decide +kernel
  have hhead : ∀ call ∈ [callTo 1 [1, 2], callTo 256 [3], callTo 2 []].head?,
      writable domainSerializer call.destination = true := by decide +kernel
  have hroom : ∀ call ∈ [callTo 1 [1, 2], callTo 256 [3], callTo 2 []],
      writable domainSerializer call.destination = true → call.buffer.data.length ≤ 16384 := by decide +kernel
  have hiff := packets_delivered_iff domainSerializer zeroHash "password" oneUser "user" hkey 64 16384
    [callTo 1 [1, 2], callTo 256 [3], callTo 2 []] hcalls
  rw [← sampleConn] at hiff
  exact ⟨hkey, hcalls, haccepted, (hiff.2 (.inr ⟨hhead, by decide, hroom⟩)).2⟩

/-- A first packet to a name that is too long is refused, the next one goes out
without a handshake, and the server turns the connection away. -/
theorem refused_first_packet_drops_handshake :
    oneUser.keys.lookup (key zeroHash "password") = some "user" ∧
      sampleConn.Advertised domainSerializer [callTo 256 [3], callTo 1 [1, 2]] ∧
      (sampleConn.writePackets domainSerializer [callTo 256 [3], callTo 1 [1, 2]]).1 = [(([97], 53), [1, 2])] ∧
      (sampleConn.writePackets domainSerializer [callTo 256 [3], callTo 1 [1, 2]]).2.written =
        [3, 1, 97, 0, 53, 0, 2, 13, 10, 1, 2] ∧
      oneUser.newConnection domainSerializer 16384
          (sampleConn.writePackets domainSerializer [callTo 256 [3], callTo 1 [1, 2]]).2.written =
        .error "bad request size: fallback disabled" := by
  have hcalls : sampleConn.Advertised domainSerializer [callTo 256 [3], callTo 1 [1, 2]] := by
    simp only [ClientPacketConn.Advertised]
    decide +kernel
  have hwritten : (sampleConn.writePackets domainSerializer [callTo 256 [3], callTo 1 [1, 2]]).2.written =
      [3, 1, 97, 0, 53, 0, 2, 13, 10, 1, 2] := by decide +kernel
  refine ⟨AList.lookup_insert _, hcalls, by decide +kernel, hwritten, ?_⟩
  rw [hwritten]
  rfl

end Singlink.Trojan
