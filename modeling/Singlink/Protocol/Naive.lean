import Singlink.Lib.Codec
import Singlink.Lib.Runs
/-!
# Padding of naive connections

The first eight frames of a naive connection have a header, with the size of the
data and of the padding behind it; later data goes as it is. A read may come back
with part of the data, or with an error and nothing. What a failed call has read of
padding or of a header is lost, so the framing survives the errors that stand
elsewhere.
-/

namespace Singlink.Naive

open List Lib Lib.Codec

/-! ## Connections -/

/-- What is left to read from a connection: bytes, and errors that come without bytes. -/
abbrev Source := List (Option UInt8)

namespace Source

def bytes (s : Source) : Bytes := s.filterMap id

/-- How many bytes come before the next error, or before the end. -/
def clear : Source → Nat
  | some _ :: s => clear s + 1
  | _ => 0

/-- `io.ReadFull` and `rw.SkipN`. -/
def readFull (n : Nat) (s : Source) : Option Bytes × Source :=
  if n ≤ s.clear then (some (bytes (s.take n)), s.drop n) else (none, s.drop (s.clear + 1))

/-- `Read` into `n` bytes, of which no more than `arrived + 1` have come yet. -/
def read (n arrived : Nat) (s : Source) : Option Bytes × Source :=
  s.readFull (min n (min (arrived + 1) (max 1 s.clear)))

variable {n : Nat} {s : Source}

theorem bytes_take_drop (n : Nat) (s : Source) : bytes (s.take n) ++ bytes (s.drop n) = s.bytes := by
  rw [bytes, bytes, ← filterMap_append, take_append_drop]
  rfl

theorem clear_take_drop (h : n ≤ s.clear) : (bytes (s.take n)).length = n ∧ s.clear = n + clear (s.drop n) := by
  induction n generalizing s with
  | zero => exact ⟨rfl, (zero_add _).symm⟩
  | succ n ih =>
    match s, h with
    | some b :: s, h =>
      obtain ⟨hlength, hclear⟩ := ih (Nat.le_of_succ_le_succ h)
      refine ⟨congrArg Nat.succ hlength, ?_⟩
      rw [clear, drop_succ_cons]
      omega

theorem readFull_cases (n : Nat) (s : Source) :
    (∃ data s', s.readFull n = (some data, s') ∧ data.length = n ∧ s.bytes = data ++ s'.bytes ∧
      s.clear = n + s'.clear) ∨
      ∃ s', s.readFull n = (none, s') ∧ s.clear < n ∧ (s.clear = 0 → s'.bytes = s.bytes) := by
  unfold readFull
  split
  · rename_i hle
    obtain ⟨hlength, hclear⟩ := clear_take_drop hle
    exact .inl ⟨_, _, rfl, hlength, (bytes_take_drop _ _).symm, hclear⟩
  · rename_i hlt
    refine .inr ⟨_, rfl, Nat.lt_of_not_le hlt, fun hzero => ?_⟩
    match s, hzero with
    | [], _ => rfl
    | none :: s, _ => rfl

theorem read_cases (n arrived : Nat) (s : Source) :
    (∃ data s', s.read n arrived = (some data, s') ∧ data.length ≤ n ∧ s.bytes = data ++ s'.bytes) ∨
      ∃ s', s.read n arrived = (none, s') ∧ n ≠ 0 ∧ s.clear = 0 ∧ s'.bytes = s.bytes := by
  rcases s.readFull_cases (min n (min (arrived + 1) (max 1 s.clear))) with
    ⟨data, s', heq, hlength, hbytes, -⟩ | ⟨s', heq, hless, hsame⟩
  · exact .inl ⟨data, s', heq, by omega, hbytes⟩
  · exact .inr ⟨s', heq, by omega, by omega, hsame (by omega)⟩

end Source

/-! ## Frames -/

structure PaddingConn where
  readPadding : Nat := 0
  writePadding : Nat := 0
  readRemaining : Nat := 0
  paddingRemaining : Nat := 0

def paddingCount : Nat := 8

/-- The size in the first two bytes of a header. -/
def dataSize : Bytes → Nat
  | hi :: lo :: _ => hi.toNat * 256 + lo.toNat
  | _ => 0

def frame (data : Bytes) (paddingSize : UInt8) : Bytes :=
  .ofNat (data.length / 256) :: .ofNat data.length :: paddingSize :: (data ++ replicate paddingSize.toNat 0)

inductive Call where
  | write (data : Bytes)
  | writeBuffer (data : Bytes)

def Call.data : Call → Bytes
  | write data | writeBuffer data => data

namespace PaddingConn

/-- `readWithPadding` where a frame begins, or after the frames. -/
def readFrame (p : PaddingConn) (reader : Source) (len arrived : Nat) : Option Bytes × PaddingConn × Source :=
  if p.readPadding < paddingCount then
    match reader.readFull 3 with
    | (some [hi, lo, paddingSize], reader) =>
      let originalDataSize := dataSize [hi, lo]
      match reader.read (min len originalDataSize) arrived with
      | (none, reader) => (none, p, reader)
      | (some data, reader) =>
        (some data, { p with
          readPadding := p.readPadding + 1
          readRemaining := originalDataSize - data.length
          paddingRemaining := paddingSize.toNat }, reader)
    | (_, reader) => (none, p, reader)
  else
    let (data, reader) := reader.read len arrived
    (data, p, reader)

/-- What a read into `len` bytes returns, if it does not fail. -/
def readWithPadding (p : PaddingConn) (reader : Source) (len arrived : Nat) : Option Bytes × PaddingConn × Source :=
  if p.readRemaining > 0 then
    match reader.read (min len p.readRemaining) arrived with
    | (none, reader) => (none, p, reader)
    | (some data, reader) => (some data, { p with readRemaining := p.readRemaining - data.length }, reader)
  else
    -- without padding nothing is skipped
    match reader.readFull p.paddingRemaining with
    | (none, reader) => (none, p, reader)
    | (some _, reader) => readFrame { p with paddingRemaining := 0 } reader len arrived

def readerReplaceable (p : PaddingConn) : Bool :=
  p.readPadding == paddingCount && p.readRemaining == 0 && p.paddingRemaining == 0

section
variable (rand : Nat → UInt8)

/-- What is written, where `rand` gives the padding sizes. -/
def writeFrame (p : PaddingConn) (data : Bytes) : Bytes × PaddingConn :=
  (frame data (rand p.writePadding), { p with writePadding := p.writePadding + 1 })

def writeWithPadding (p : PaddingConn) (data : Bytes) : Bytes × PaddingConn :=
  if p.writePadding < paddingCount then p.writeFrame rand data else (data, p)

def writeChunked (p : PaddingConn) (data : Bytes) : Bytes × PaddingConn :=
  if data = [] then ([], p)
  else
    let (bytes, p) := p.writeWithPadding rand (data.take 65535)
    let (rest, p) := writeChunked p (data.drop 65535)
    (bytes ++ rest, p)
termination_by data.length
decreasing_by
  have := length_pos_iff.2 ‹data ≠ []›
  rw [length_drop]
  omega

def writeBufferWithPadding (p : PaddingConn) (buffer : Bytes) : Bytes × PaddingConn :=
  if p.writePadding < paddingCount then
    if buffer.length > 65535 then p.writeChunked rand buffer else p.writeFrame rand buffer
  else (buffer, p)

def call (p : PaddingConn) : Call → Bytes × PaddingConn
  | .write data => p.writeChunked rand data
  | .writeBuffer data => p.writeBufferWithPadding rand data

def sent : PaddingConn → List Call → Bytes
  | _, [] => []
  | p, c :: calls => (p.call rand c).1 ++ sent (p.call rand c).2 calls

end

/-! ## The data in the bytes -/

/-- The data in bytes with `k` frames in front, unless they end before. -/
def decode : Nat → Bytes → Bytes
  | 0, bytes => bytes
  | k + 1, hi :: lo :: paddingSize :: rest =>
    rest.take (dataSize [hi, lo]) ++ decode k (rest.drop (dataSize [hi, lo] + paddingSize.toNat))
  | _ + 1, _ => []

/-- What the state of a reader says about the bytes to come. -/
def expected (p : PaddingConn) (bytes : Bytes) : Bytes :=
  bytes.take p.readRemaining ++
    decode (paddingCount - p.readPadding) (bytes.drop (p.readRemaining + p.paddingRemaining))

/-- What was written gives the data, in front of what is written after it. -/
def Writes (p : PaddingConn) (data : Bytes) (result : Bytes × PaddingConn) : Prop :=
  ∀ rest, decode (paddingCount - p.writePadding) (result.1 ++ rest) =
    data ++ decode (paddingCount - result.2.writePadding) rest

theorem decode_nil (k : Nat) : decode k [] = [] := by
  cases k <;> rfl

theorem decode_frame (k : Nat) {data : Bytes} (hdata : data.length < 65536) (paddingSize : UInt8) (rest : Bytes) :
    decode (k + 1) (frame data paddingSize ++ rest) = data ++ decode k rest := by
  have hsize : dataSize [.ofNat (data.length / 256), .ofNat data.length] = data.length := by
    simp only [dataSize, UInt8.toNat_ofNat']
    omega
  simp only [frame, cons_append, decode, hsize]
  rw [append_assoc, take_left, ← drop_drop, drop_left, drop_left' (length_replicate ..)]

variable (rand : Nat → UInt8) (p : PaddingConn) {data : Bytes}

theorem writes_writeFrame (h : p.writePadding < paddingCount) (hdata : data.length < 65536) :
    Writes p data (p.writeFrame rand data) := by
  intro rest
  have hleft : paddingCount - p.writePadding = paddingCount - (p.writePadding + 1) + 1 := by omega
  rw [hleft]
  exact decode_frame _ hdata _ rest

theorem writes_raw (h : ¬ p.writePadding < paddingCount) (data : Bytes) : Writes p data (data, p) := by
  intro rest
  rw [Nat.sub_eq_zero_of_le (Nat.le_of_not_lt h)]
  rfl

theorem writes_writeWithPadding (hdata : data.length < 65536) : Writes p data (p.writeWithPadding rand data) := by
  unfold writeWithPadding
  split
  · exact writes_writeFrame rand p ‹_› hdata
  · exact writes_raw p ‹_› data

theorem writes_writeChunked (data : Bytes) : Writes p data (p.writeChunked rand data) := by
  fun_induction writeChunked rand p data with
  | case1 p => exact fun _ => rfl
  | case2 p data hne bytes p' hwrite rest p'' hrest ih =>
    intro after
    have hchunk := writes_writeWithPadding rand p (Nat.lt_succ_of_le (length_take_le 65535 data))
    rw [hwrite] at hchunk
    rw [hrest] at ih
    rw [append_assoc, hchunk, ih, ← append_assoc, take_append_drop]

theorem writes_call (c : Call) : Writes p c.data (p.call rand c) := by
  cases c with
  | write data => exact writes_writeChunked rand p data
  | writeBuffer data =>
    show Writes p data (p.writeBufferWithPadding rand data)
    unfold writeBufferWithPadding
    split
    · split
      · exact writes_writeChunked rand p data
      · exact writes_writeFrame rand p ‹_› (by omega)
    · exact writes_raw p ‹_› data

theorem decode_sent (calls : List Call) :
    decode (paddingCount - p.writePadding) (p.sent rand calls) = calls.flatMap Call.data := by
  induction calls generalizing p with
  | nil => exact decode_nil _
  | cons c calls ih => rw [sent, writes_call, ih, flatMap_cons]

/-! ## Reads -/

/-- No error stands inside the padding or the header that a call reads, or between the header and its data. -/
def Uncut (p : PaddingConn) (reader : Source) (len : Nat) : Prop :=
  p.readRemaining = 0 → (reader.clear = 0 ∨ p.paddingRemaining ≤ reader.clear) ∧
    (p.readPadding < paddingCount → reader.clear ≤ p.paddingRemaining ∨ p.paddingRemaining + 3 < reader.clear ∨
      reader.clear = p.paddingRemaining + 3 ∧ min len (dataSize (reader.bytes.drop p.paddingRemaining)) = 0)

/-- What was returned is the start of the data, and the state is right about the rest. -/
def Delivers (data : Bytes) (result : Option Bytes × PaddingConn × Source) : Prop :=
  data = result.1.getD [] ++ result.2.1.expected result.2.2.bytes

variable {p} {reader : Source} {len : Nat} (arrived : Nat)

theorem take_append_decode {out : Bytes} {n : Nat} (h : out.length ≤ n) (k m : Nat) (bytes : Bytes) :
    (out ++ bytes).take n ++ decode k ((out ++ bytes).drop (n + m)) =
      out ++ (bytes.take (n - out.length) ++ decode k (bytes.drop (n - out.length + m))) := by
  rw [take_append, drop_append, take_of_length_le h, drop_of_length_le (by omega), nil_append, append_assoc,
    Nat.sub_add_comm h]

theorem delivers_readFrame (hremaining : p.readRemaining = 0) (hpadding : p.paddingRemaining = 0)
    (hcut : p.readPadding < paddingCount → reader.clear = 0 ∨ 3 < reader.clear ∨
      reader.clear = 3 ∧ min len (dataSize reader.bytes) = 0) :
    Delivers (p.expected reader.bytes) (p.readFrame reader len arrived) := by
  unfold readFrame
  split
  · rcases reader.readFull_cases 3 with ⟨header, reader₁, heq, hlength, hbytes, hclear⟩ | ⟨reader₁, heq, hless, hsame⟩
    · match header, hlength with
      | [hi, lo, paddingSize], _ =>
        have hleft : paddingCount - p.readPadding = paddingCount - (p.readPadding + 1) + 1 := by omega
        have hsize : dataSize reader.bytes = dataSize [hi, lo] := by rw [hbytes]; rfl
        have hexpected : p.expected reader.bytes = reader₁.bytes.take (dataSize [hi, lo]) ++
            decode (paddingCount - (p.readPadding + 1)) (reader₁.bytes.drop (dataSize [hi, lo] + paddingSize.toNat)) := by
          rw [expected, hremaining, hpadding, hleft, hbytes]
          rfl
        simp only [heq, Delivers, hexpected]
        rcases reader₁.read_cases (min len (dataSize [hi, lo])) arrived with
          ⟨out, reader₂, heq, hle, hout⟩ | ⟨reader₂, heq, hne, hzero, -⟩
        · simp only [heq]
          rw [hout]
          exact take_append_decode (hle.trans (min_le_right _ _)) _ _ _
        · omega
    · simp only [heq]
      exact congrArg p.expected (hsame (by omega)).symm
  · rename_i hraw
    rcases reader.read_cases len arrived with ⟨out, reader₁, heq, -, hbytes⟩ | ⟨reader₁, heq, -, -, hsame⟩
    · simp only [heq, Delivers, expected, hremaining, hpadding, Nat.sub_eq_zero_of_le (Nat.le_of_not_lt hraw)]
      exact hbytes
    · simp only [heq]
      exact congrArg p.expected hsame.symm

theorem delivers_readWithPadding (hcut : p.Uncut reader len) :
    Delivers (p.expected reader.bytes) (p.readWithPadding reader len arrived) := by
  unfold readWithPadding
  split
  · rcases reader.read_cases (min len p.readRemaining) arrived with
      ⟨out, reader₁, heq, hle, hout⟩ | ⟨reader₁, heq, -, -, hsame⟩
    · simp only [heq, Delivers, expected, hout]
      exact take_append_decode (hle.trans (min_le_right _ _)) _ _ _
    · simp only [heq]
      exact congrArg p.expected hsame.symm
  · have hremaining : p.readRemaining = 0 := by omega
    obtain ⟨hskip, hheader⟩ := hcut hremaining
    rcases reader.readFull_cases p.paddingRemaining with
      ⟨skipped, reader₁, heq, hlength, hall, hclear⟩ | ⟨reader₁, heq, hless, hsame⟩
    · have hexpected : p.expected reader.bytes = expected { p with paddingRemaining := 0 } reader₁.bytes := by
        simp only [expected, hremaining, hall, ← hlength, zero_add, drop_left]
        rfl
      rw [hexpected]
      simp only [heq]
      refine delivers_readFrame arrived hremaining rfl fun hframe => ?_
      have hheader := hheader hframe
      rw [hall, ← hlength, drop_left] at hheader
      omega
    · simp only [heq]
      exact congrArg p.expected (hsame (by omega)).symm

end PaddingConn

/-! ## Runs -/

/-- The peer of a connection, with the bytes it has returned. -/
structure Peer where
  conn : PaddingConn := {}
  reader : Source
  returned : Bytes := []

/-- A read into as many bytes as the first number says, where the second bounds how many come. -/
def Peer.read (s : Peer) (c : Nat × Nat) : Peer :=
  let (data, conn, reader) := s.conn.readWithPadding s.reader c.1 c.2
  { conn, reader, returned := s.returned ++ data.getD [] }

/-- The states of a peer that reads from the connection, where no read fails inside padding or a header, or between a
header and its data. -/
def Reads (reader : Source) : Peer → Prop :=
  Reach (.ofStep (· = { reader }) Peer.read) fun s c => s.conn.Uncut s.reader c.1

/-- Whatever is written and however it arrives: the bytes returned are the first of those written, all of them when
nothing is left to read, and a reader that may be replaced has nothing but data in front of it. -/
theorem read_in_order (rand : Nat → UInt8) (calls : List Call) (reader : Source)
    (hreader : reader.bytes = PaddingConn.sent rand {} calls) (s : Peer) (h : Reads reader s) :
    ∃ rest, s.returned ++ rest = calls.flatMap Call.data ∧ (s.reader.bytes = [] → rest = []) ∧
      (s.conn.readerReplaceable = true → s.reader.bytes = rest) := by
  have hinv : s.returned ++ s.conn.expected s.reader.bytes = calls.flatMap Call.data := by
    refine Reach.inv (fun s : Peer => s.returned ++ s.conn.expected s.reader.bytes = calls.flatMap Call.data) ?_ ?_ h
    · rintro s rfl
      rw [← PaddingConn.decode_sent rand {} calls, ← hreader]
      rfl
    · rintro s c _ hs hcut rfl
      rw [PaddingConn.delivers_readWithPadding c.2 hcut] at hs
      rw [← hs]
      exact append_assoc ..
  refine ⟨_, hinv, fun hnil => ?_, fun hconn => ?_⟩
  · rw [hnil, PaddingConn.expected, take_nil, drop_nil, PaddingConn.decode_nil]
    rfl
  · simp only [PaddingConn.readerReplaceable, Bool.and_eq_true, beq_iff_eq] at hconn
    obtain ⟨⟨hcount, hremaining⟩, hpadding⟩ := hconn
    rw [PaddingConn.expected, hcount, hremaining, hpadding]
    rfl

/-- Two frames with padding. The deadlines of three reads expire: in front of a
frame, inside its data and in front of its padding. -/
def retried : Source :=
  [none, some 0, some 2, some 1, some 7, none, some 8, none, some 0, some 0, some 1, some 2, some 9, some 0, some 0]

theorem read_in_order_retried :
    ∃ s : Peer, s.returned = [7, 8, 9] ∧ ∃ rest,
      s.returned ++ rest = [Call.writeBuffer [7, 8], .writeBuffer [9]].flatMap Call.data ∧
      (s.reader.bytes = [] → rest = []) ∧ (s.conn.readerReplaceable = true → s.reader.bytes = rest) := by
  have hinit : Reads retried { reader := retried } := .init rfl
  refine ⟨(replicate 6 (9, 9)).foldl Peer.read { reader := retried }, rfl, ?_⟩
  refine read_in_order (fun i => .ofNat (i + 1)) _ retried rfl _ (hinit.foldl _ ?_)
  refine ⟨?_, ?_, ?_, ?_, ?_, ?_, trivial⟩ <;> unfold PaddingConn.Uncut <;> decide

/-- The deadline of a read expires after the header of a frame. -/
def expired : Source := [some 0, some 1, some 0, none, some 7]

theorem expired_header_lost :
    expired.bytes = PaddingConn.sent (fun _ => 0) {} [.writeBuffer [7]] ∧
      ∀ s, s = [(9, 9), (9, 9), (9, 9)].foldl Peer.read { reader := expired } →
        s.reader = [] ∧ s.returned = [] := by
  refine ⟨rfl, ?_⟩
  rintro s rfl
  exact ⟨rfl, rfl⟩

end Singlink.Naive
