import Mathlib.Data.List.Basic
/-!
# Sniffing

`common/sniff/sniff.go`: the sniffers are tried on what has been read from a
connection, and more is read as long as one of them asks for it. A sniffer is
any function that may change the metadata and that answers with an error or
with nil.

A client's byte stream is the list of what the operations on the connection
meet, so its segmentation, read errors and timeouts are all inputs. A read takes
at most what fits the buffer; the rest of a segment stays on the connection.
-/

namespace Singlink.Sniff

/-! ## Errors -/

/-- The errors a joined error is made of; `errors.Is(err, ErrNeedMoreData)`
looks for the first. -/
inductive Fault where
  | needMoreData
  | other (message : String)
  deriving DecidableEq

/-- An `error` as `E.Errors` joins it; nil is `[]`. That `E.Errors` keeps one of
several errors with the same text makes no difference to `errors.Is`. -/
abbrev SniffError := List Fault

def needsMoreData (err : SniffError) : Bool := err.contains .needMoreData

/-! ## Metadata -/

/-- `M.Socksaddr`; an invalid `Addr` is the empty text. -/
structure Socksaddr where
  addr : String := ""
  fqdn : String := ""
  port : Nat := 0
  deriving DecidableEq

def Socksaddr.isValid (a : Socksaddr) : Bool := a.addr != "" || a.fqdn != ""

inductive Network where
  | tcp
  | udp
  | icmp
  deriving DecidableEq

/-- `adapter.InboundContext`: the fields that routing reads or writes by name.
`rest` stands for all others, which rules, sniffers and outbounds may use. -/
structure InboundContext (X : Type) where
  inbound : String := ""
  inboundType : String := ""
  ipVersion : Nat := 0
  network : Network := .tcp
  destination : Socksaddr := {}
  protocol : String := ""
  domain : String := ""
  snifferNames : List String := []
  sniffError : SniffError := []
  inboundDetour : String := ""
  lastInbound : String := ""
  originDestination : Socksaddr := {}
  routeOriginalDestination : Socksaddr := {}
  destinationAddresses : List String := []
  fakeIP : Bool := false
  rest : X

variable {X : Type}

/-- `Skip`: the server speaks first on these ports. -/
def skip (m : InboundContext X) : Bool := m.destination.port ∈ [25, 465, 587, 143, 993, 110, 995]

/-! ## Sniffers -/

/-- A sniffer of what `R` holds: the buffers behind an `io.MultiReader` for
streams, one packet's bytes for packets. -/
abbrev Sniffer (X R : Type) := InboundContext X → R → SniffError × InboundContext X

abbrev StreamSniffer (X : Type) := Sniffer X (List (List UInt8))
abbrev PacketSniffer (X : Type) := Sniffer X (List UInt8)

/-- The first sniffer that answers nil ends the search; else all their errors
are joined. -/
def trySniffers {R : Type} (reader : R) : List (Sniffer X R) → SniffError → InboundContext X →
    SniffError × InboundContext X
  | [], err, m => (err, m)
  | sniffer :: sniffers, err, m =>
    match sniffer m reader with
    | ([], m) => ([], m)
    | (e :: es, m) => trySniffers reader sniffers (err ++ e :: es) m

def peekPacket (m : InboundContext X) (packet : List UInt8) (sniffers : List (PacketSniffer X)) :
    SniffError × InboundContext X :=
  trySniffers packet sniffers [] m

/-! ## Streams -/

/-- What one operation on the connection meets: a `Read` that returns these
bytes together with this error, or a failing `SetReadDeadline`. At the end of
the list every read returns `EOF`. -/
inductive ReadEvent where
  | read (bytes : List UInt8) (err : Option String := none)
  | deadline (err : String)

def ReadEvent.bytes : ReadEvent → List UInt8
  | read bytes _ => bytes
  | deadline _ => []

def streamBytes (conn : List ReadEvent) : List UInt8 := conn.flatMap ReadEvent.bytes

structure Peek (X : Type) where
  err : SniffError
  metadata : InboundContext X
  buffer : List UInt8
  conn : List ReadEvent

/-- A failing read: the first one is reported, a later one ends the loop with
the error of the sniffers. -/
def readFailed (i : Nat) (sniffError : SniffError) (err : String) : SniffError :=
  if i > 0 then sniffError else [.other ("read payload: " ++ err)]

section PeekStream
variable (size : Nat) (buffers : List (List UInt8)) (sniffers : List (StreamSniffer X))

/-- The loop of `PeekStream` in its round `i`, with `buffer` of capacity `size`
read so far. -/
def peekLoop (i : Nat) (sniffError : SniffError) (m : InboundContext X) (buffer : List UInt8) :
    List ReadEvent → Peek X
  | [] =>
    let err := if size ≤ buffer.length then "short buffer" else "EOF"
    { err := readFailed i sniffError err, metadata := m, buffer, conn := [] }
  | .deadline err :: conn => { err := [.other ("set read deadline: " ++ err)], metadata := m, buffer, conn }
  | .read bytes err :: conn =>
    if size ≤ buffer.length then
      { err := readFailed i sniffError "short buffer", metadata := m, buffer, conn := .read bytes err :: conn }
    else
      let free := size - buffer.length
      let buffer := buffer ++ bytes.take free
      if bytes.length ≤ free then
        match err with
        | some err => { err := readFailed i sniffError err, metadata := m, buffer, conn }
        | none =>
          let (sniffError, m) := trySniffers (buffers ++ [buffer]) sniffers [] m
          if needsMoreData sniffError then peekLoop (i + 1) sniffError m buffer conn
          else { err := sniffError, metadata := m, buffer, conn }
      else
        -- the buffer is full, so a next round would end at once with this error
        let (sniffError, m) := trySniffers (buffers ++ [buffer]) sniffers [] m
        { err := sniffError, metadata := m, buffer, conn := .read (bytes.drop free) err :: conn }

/-- `PeekStream`; `buffers` are what earlier calls have read. -/
def peekStream (m : InboundContext X) (conn : List ReadEvent) : Peek X := peekLoop size buffers sniffers 0 [] m [] conn

theorem peekLoop_bytes (i : Nat) (sniffError : SniffError) (m : InboundContext X) (buffer : List UInt8)
    (conn : List ReadEvent) : (peekLoop size buffers sniffers i sniffError m buffer conn).buffer
        ++ streamBytes (peekLoop size buffers sniffers i sniffError m buffer conn).conn
      = buffer ++ streamBytes conn := by
  induction conn generalizing i sniffError m buffer with
  | nil => rfl
  | cons event conn ih =>
    cases event with
    | deadline err => rfl
    | read bytes err =>
      have hread : streamBytes (.read bytes err :: conn) = bytes ++ streamBytes conn := rfl
      rw [peekLoop, hread]
      by_cases hfull : size ≤ buffer.length
      · simp [hfull, hread]
      by_cases hfits : bytes.length ≤ size - buffer.length
      · simp only [hfull, if_false, hfits, if_true, List.take_of_length_le hfits, ← List.append_assoc]
        cases err with
        | some err => rfl
        | none =>
          simp only
          split
          · exact ih _ _ _ _
          · rfl
      · have hleft : streamBytes (.read (bytes.drop (size - buffer.length)) err :: conn)
            = bytes.drop (size - buffer.length) ++ streamBytes conn := rfl
        simp only [hfull, hfits, if_false, hleft]
        rw [List.append_assoc, ← List.append_assoc (bytes.take _), List.take_append_drop]

theorem peekStream_bytes (m : InboundContext X) (conn : List ReadEvent) :
    (peekStream size buffers sniffers m conn).buffer ++ streamBytes (peekStream size buffers sniffers m conn).conn
      = streamBytes conn :=
  peekLoop_bytes size buffers sniffers 0 [] m [] conn

end PeekStream

end Singlink.Sniff
