import Mathlib.Data.List.GetD
import Singlink.TLSFragment.Index
/-!
# Splitting the first write

`Conn.Write` cuts its first write inside the labels of the server name, and
sends the pieces as packets of their own, as TLS records of their own, or both.
What the peer reads is told by the list of writes. `cuts` is what the pieces
should be; the records are right only if the first write is one record and no
more, since everything after the first header is taken for its payload.
-/

namespace Singlink.TLSFragment

open Lib Lib.Exec List

/-! ## The code -/

/-- `tcpConn` only decides how the pieces are sent. -/
structure Conn where
  firstPacketWritten : Bool := false
  splitPacket : Bool
  splitRecord : Bool

/-- `rand.Intn`: what the `k`-th call returns for `n`. -/
structure Rand where
  intn : Nat → Nat → Nat
  intn_lt : ∀ k n, 0 < n → intn k n < n

def dot : UInt8 := 46

section
variable (rand : Rand) (publicSuffix : Bytes → Bytes)

/-- The labels that are cut: all of them, or without the dots that are counted off if there is a public suffix. -/
def splitsOf (serverName : Bytes) : List Bytes :=
  let splits := serverName.splitOn dot
  if publicSuffix serverName ≠ [] then splits.take (splits.length - serverName.count dot) else splits

/-- The loop over the labels. A dot is passed after each but the last. -/
def splitLoop : Nat → Nat → List Bytes → List Nat
  | _, _, [] => []
  | k, currentIndex, split :: rest =>
    let next := if rest.isEmpty then currentIndex + split.length else currentIndex + split.length + 1
    if split.length = 0 then splitLoop k next rest
    else (currentIndex + rand.intn k split.length) :: splitLoop (k + 1) next rest

def splitIndexes (s : MyServerName) : List Nat :=
  let splits := splitsOf publicSuffix s.serverName
  if 1 < splits.length ∧ splits.head? = some [dot, dot, dot] then
    splitLoop rand 0 (s.index + ((splits.headD []).length + 1)) splits.tail
  else splitLoop rand 0 s.index splits

end

namespace Conn

/-- The payload of turn `i` of the loop that writes. -/
def payloadAt (c : Conn) (b : Bytes) (splitIndexes : List Nat) (i : Nat) : Exec Bytes :=
  if i = 0 then do
    let payload ← slice b 0 (splitIndexes.getD 0 0)
    if c.splitRecord then sliceFrom payload recordLayerHeaderLen else pure payload
  else if i = splitIndexes.length then sliceFrom b (splitIndexes.getD (i - 1) 0)
  else slice b (splitIndexes.getD (i - 1) 0) (splitIndexes.getD i 0)

/-- A record with the type and version of `b`; the length is a `uint16`. -/
def record (b payload : Bytes) : Bytes := b.take 3 ++ (be16Bytes (UInt16.ofNat payload.length).toNat ++ payload)

/-- What a turn of the loop does with its payload, to the buffer and to the writes so far. -/
def writePayload (c : Conn) (b : Bytes) (buffer : Bytes) (writes : List Bytes) (payload : Bytes) : Bytes × List Bytes :=
  if c.splitRecord then
    let buffer := (if c.splitPacket then [] else buffer) ++ record b payload
    (buffer, if c.splitPacket then writes ++ [buffer] else writes)
  else (buffer, if c.splitPacket then writes ++ [payload] else writes)

def writeLoop (c : Conn) (b : Bytes) (splitIndexes : List Nat) :
    List Nat → Bytes → List Bytes → Exec (Bytes × List Bytes)
  | [], buffer, writes => pure (buffer, writes)
  | i :: is, buffer, writes => do
    let payload ← c.payloadAt b splitIndexes i
    let (buffer, writes) := c.writePayload b buffer writes payload
    c.writeLoop b splitIndexes is buffer writes

/-- `Conn.Write` without I/O errors: its result and what it writes to the connection below. -/
def write (rand : Rand) (publicSuffix : Bytes → Bytes) (fuel : Nat) (c : Conn) (b : Bytes) :
    Exec (Nat × List Bytes × Conn) :=
  if c.firstPacketWritten then pure (b.length, [b], c)
  else do
    let written : Conn := { c with firstPacketWritten := true }
    match ← indexTLSServerName fuel b with
    | none => pure (b.length, [b], written)
    | some serverName =>
      let splitIndexes := splitIndexes rand publicSuffix serverName
      if splitIndexes.length = 0 then pure (b.length, [b], written)
      else
        let (buffer, writes) ← c.writeLoop b splitIndexes (List.range (splitIndexes.length + 1)) [] []
        pure (b.length, if c.splitRecord && !c.splitPacket then writes ++ [buffer] else writes, written)

end Conn

/-! ## The split points -/

def joinedLength : List Bytes → Nat
  | [] => 0
  | [l] => l.length
  | l :: ls => l.length + 1 + joinedLength ls

theorem joinedLength_eq (ls : List Bytes) : joinedLength ls = ([dot].intercalate ls).length := by
  induction ls with
  | nil => rfl
  | cons l ls ih =>
    cases ls with
    | nil => simp [joinedLength, intercalate]
    | cons l' ls =>
      rw [joinedLength, ih]
      · simp [intercalate, intersperse]
        omega
      · simp

theorem joinedLength_take (ls : List Bytes) (n : Nat) : joinedLength (ls.take n) ≤ joinedLength ls := by
  induction ls generalizing n with
  | nil => simp
  | cons l ls ih =>
    cases n with
    | zero => simp [joinedLength]
    | succ n =>
      cases ls with
      | nil => simp
      | cons l' ls =>
        have htail := ih n
        cases n with
        | zero =>
          simp only [take_succ_cons, take_zero, joinedLength]
          omega
        | succ n =>
          simp only [take_succ_cons, joinedLength] at htail ⊢
          omega

theorem joinedLength_splitsOf (publicSuffix : Bytes → Bytes) (serverName : Bytes) :
    joinedLength (splitsOf publicSuffix serverName) ≤ serverName.length := by
  have hall : joinedLength (serverName.splitOn dot) = serverName.length := by
    rw [joinedLength_eq, intercalate_splitOn]
  rw [splitsOf]
  split
  · exact (joinedLength_take _ _).trans hall.le
  · exact hall.le

theorem splitLoop_spec (rand : Rand) (k currentIndex : Nat) (ls : List Bytes) :
    (splitLoop rand k currentIndex ls).Pairwise (· < ·) ∧
      ∀ p ∈ splitLoop rand k currentIndex ls, currentIndex ≤ p ∧ p < currentIndex + joinedLength ls := by
  induction ls generalizing k currentIndex with
  | nil => simp [splitLoop]
  | cons l ls ih =>
    have hnext : ∀ k p, p ∈ splitLoop rand k
        (if ls.isEmpty then currentIndex + l.length else currentIndex + l.length + 1) ls →
        currentIndex + l.length ≤ p ∧ p < currentIndex + joinedLength (l :: ls) := by
      intro k p hp
      cases ls with
      | nil => cases hp
      | cons l' ls =>
        have hbounds := (ih k _).2 p hp
        simp only [isEmpty_cons, Bool.false_eq_true, if_false, joinedLength] at hbounds ⊢
        omega
    rw [splitLoop]
    by_cases hl : l.length = 0
    · simp only [hl, if_true]
      rw [hl] at hnext
      exact ⟨(ih _ _).1, hnext k⟩
    · have hlt := rand.intn_lt k l.length (pos_of_ne_zero hl)
      have hlen : l.length ≤ joinedLength (l :: ls) := by
        cases ls <;> simp only [joinedLength] <;> omega
      simp only [hl, if_false, pairwise_cons, mem_cons, forall_eq_or_imp]
      refine ⟨⟨?_, (ih _ _).1⟩, ⟨by omega, by omega⟩, ?_⟩
      · intro p hp
        have hbounds := hnext _ p hp
        omega
      · intro p hp
        have hbounds := hnext _ p hp
        omega

/-- The split points increase strictly and lie inside the server name. -/
theorem splitIndexes_spec (rand : Rand) (publicSuffix : Bytes → Bytes) (s : MyServerName) :
    (splitIndexes rand publicSuffix s).Pairwise (· < ·) ∧
      ∀ p ∈ splitIndexes rand publicSuffix s, s.index ≤ p ∧ p < s.index + s.serverName.length := by
  have hjoined := joinedLength_splitsOf publicSuffix s.serverName
  simp only [splitIndexes]
  split
  · rename_i hdots
    generalize splitsOf publicSuffix s.serverName = splits at hjoined hdots ⊢
    match splits, hdots.1 with
    | l :: l' :: ls, _ =>
      simp only [joinedLength, headD_cons, tail_cons] at hjoined ⊢
      obtain ⟨hsorted, hbounds⟩ := splitLoop_spec rand 0 (s.index + (l.length + 1)) (l' :: ls)
      refine ⟨hsorted, fun p hp => ?_⟩
      have := hbounds p hp
      omega
  · obtain ⟨hsorted, hbounds⟩ := splitLoop_spec rand 0 s.index (splitsOf publicSuffix s.serverName)
    refine ⟨hsorted, fun p hp => ?_⟩
    have := hbounds p hp
    omega

/-! ## The pieces -/

/-- The bytes from `start` on, cut at the points. -/
def cuts (b : Bytes) : Nat → List Nat → List Bytes
  | start, [] => [b.drop start]
  | start, p :: ps => (b.take p).drop start :: cuts b p ps

/-- Points that increase from `start` on, up to the end of the bytes. -/
structure Points (b : Bytes) (start : Nat) (ps : List Nat) : Prop where
  sorted : (start :: ps).Pairwise (· ≤ ·)
  le : ∀ p ∈ start :: ps, p ≤ b.length

variable {b : Bytes} {ps : List Nat}

theorem Points.tail {start p : Nat} (h : Points b start (p :: ps)) : Points b p ps :=
  ⟨h.sorted.tail, fun q hq => h.le q (mem_cons_of_mem _ hq)⟩

theorem Points.head_le {start p : Nat} (h : Points b start (p :: ps)) : start ≤ p :=
  rel_of_pairwise_cons h.sorted mem_cons_self

@[simp] theorem length_cuts (b : Bytes) (start : Nat) (ps : List Nat) : (cuts b start ps).length = ps.length + 1 := by
  induction ps generalizing start with
  | nil => rfl
  | cons p ps ih => simp [cuts, ih]

theorem flatten_cuts {start : Nat} (h : Points b start ps) : (cuts b start ps).flatten = b.drop start := by
  induction ps generalizing start with
  | nil => simp [cuts]
  | cons p ps ih =>
    rw [cuts, flatten_cons, ih h.tail]
    conv_rhs => rw [← take_append_drop p b]
    rw [drop_append_of_le_length]
    rw [length_take]
    have hp := h.le p (by simp)
    have := h.head_le
    omega

theorem getD_cuts {start : Nat} {i : Nat} (hi : i < ps.length) :
    (cuts b start ps).getD i [] = (b.take (ps.getD i 0)).drop ((start :: ps).getD i 0) := by
  induction ps generalizing start i with
  | nil => simp at hi
  | cons p ps ih =>
    cases i with
    | zero => rfl
    | succ i =>
      exact ih (by simpa using hi)

theorem getD_cuts_last (b : Bytes) (start : Nat) (ps : List Nat) :
    (cuts b start ps).getD ps.length [] = b.drop ((start :: ps).getD ps.length 0) := by
  induction ps generalizing start with
  | nil => rfl
  | cons p ps ih =>
    exact ih p

namespace Conn

variable {c : Conn} {b : Bytes} {ps : List Nat}

/-- Where the first piece starts: records get headers of their own. -/
def start (c : Conn) : Nat := if c.splitRecord then recordLayerHeaderLen else 0

theorem payloadAt_eq (hps : ps ≠ []) (h : Points b c.start ps) {i : Nat} (hi : i ≤ ps.length) :
    c.payloadAt b ps i = .done ((cuts b c.start ps).getD i []) := by
  have hle : ∀ j < ps.length, ps.getD j 0 ≤ b.length := by
    intro j hj
    apply h.le
    rw [getD_eq_getElem ps 0 hj]
    exact mem_cons_of_mem _ (getElem_mem hj)
  cases i with
  | zero =>
    obtain ⟨p, rest, rfl⟩ := exists_cons_of_ne_nil hps
    have hp := hle 0 (by simp)
    have hstart := h.head_le
    rw [payloadAt, if_pos rfl, slice_of_le (Nat.zero_le _) hp]
    simp only [getD_cons_zero, Exec.done_bind, drop_zero, start, cuts] at hp hstart ⊢
    split
    · rename_i hrecord
      rw [if_pos hrecord] at hstart
      exact sliceFrom_of_le (by rw [length_take]; omega)
    · rfl
  | succ i =>
    rw [payloadAt, if_neg (Nat.succ_ne_zero i), Nat.add_sub_cancel]
    split
    · rename_i hlast
      rw [hlast, getD_cuts_last, ← hlast]
      exact sliceFrom_of_le (hle i (by omega))
    · have hlt : i + 1 < ps.length := by omega
      rw [getD_cuts hlt]
      apply slice_of_le _ (hle _ hlt)
      have hsorted := h.sorted.tail
      rw [pairwise_iff_getElem] at hsorted
      rw [getD_eq_getElem ps 0 hlt, getD_eq_getElem ps 0 (Nat.lt_of_succ_lt hlt)]
      exact hsorted i (i + 1) _ _ (Nat.lt_succ_self i)

theorem writeLoop_eq {f : Nat → Bytes} {is : List Nat} (h : ∀ i ∈ is, c.payloadAt b ps i = .done (f i))
    (buffer : Bytes) (writes : List Bytes) : c.writeLoop b ps is buffer writes =
      .done ((is.map f).foldl (fun st payload => c.writePayload b st.1 st.2 payload) (buffer, writes)) := by
  induction is generalizing buffer writes with
  | nil => rfl
  | cons i is ih =>
    rw [writeLoop, h i (by simp)]
    exact ih (fun j hj => h j (by simp [hj])) _ _

theorem map_getD_range (pieces : List Bytes) : (range pieces.length).map (pieces.getD · []) = pieces := by
  apply ext_getElem
  · simp
  · intro i h₁ h₂
    simp [h₂]

/-- What has been written and what is in the buffer, as the peer gets it. -/
def sent (c : Conn) (st : Bytes × List Bytes) : Bytes :=
  (if c.splitRecord && !c.splitPacket then st.2 ++ [st.1] else st.2).flatten

theorem sent_foldl (hsplit : c.splitPacket = true ∨ c.splitRecord = true) (pieces : List Bytes) (st : Bytes × List Bytes) :
    c.sent (pieces.foldl (fun st payload => c.writePayload b st.1 st.2 payload) st) =
      c.sent st ++ pieces.flatMap (fun payload => if c.splitRecord then record b payload else payload) := by
  induction pieces generalizing st with
  | nil => simp
  | cons payload pieces ih =>
    have hstep : c.sent (c.writePayload b st.1 st.2 payload) =
        c.sent st ++ if c.splitRecord then record b payload else payload := by
      cases hpacket : c.splitPacket <;> cases hrecord : c.splitRecord <;> simp_all [sent, writePayload]
    rw [foldl_cons, ih, hstep, flatMap_cons, append_assoc]

theorem writeLoop_sent (hsplit : c.splitPacket = true ∨ c.splitRecord = true) (hps : ps ≠ []) (h : Points b c.start ps) :
    ∃ st, c.writeLoop b ps (range (ps.length + 1)) [] [] = .done st ∧
      c.sent st = (cuts b c.start ps).flatMap fun payload => if c.splitRecord then record b payload else payload := by
  refine ⟨_, writeLoop_eq (f := fun i => (cuts b c.start ps).getD i []) ?_ [] [], ?_⟩
  · intro i hi
    exact payloadAt_eq hps h (Nat.lt_succ_iff.1 (mem_range.1 hi))
  · have hmap := map_getD_range (cuts b c.start ps)
    rw [length_cuts] at hmap
    rw [hmap, sent_foldl hsplit]
    simp [sent]

end Conn

/-! ## Records -/

structure TLSRecord where
  header : Bytes
  payload : Bytes

def TLSRecord.bytes (r : TLSRecord) : Bytes := r.header ++ (be16Bytes r.payload.length ++ r.payload)

/-- The bytes are these records: type and version, a length field with the length of the payload, and the payload. -/
def Records (b : Bytes) (rs : List TLSRecord) : Prop :=
  b = rs.flatMap TLSRecord.bytes ∧ ∀ r ∈ rs, r.header.length = 3 ∧ r.payload.length < 65536

/-- What is written is records with the type and version of `b`, whose payloads are the pieces between the points and
together the payloads of the records of `b`. -/
def SplitRecords (b : Bytes) (ps : List Nat) (writes : List Bytes) : Prop :=
  ∃ rs rs', Records b rs ∧ Records writes.flatten rs' ∧ (∀ r ∈ rs', r.header = b.take 3) ∧
    rs'.map TLSRecord.payload = cuts b recordLayerHeaderLen ps ∧
    rs'.flatMap TLSRecord.payload = rs.flatMap TLSRecord.payload

open TLSRecord

theorem Records.length_eq {rs : List TLSRecord} (h : Records b rs) :
    b.length = 5 * rs.length + (rs.flatMap payload).length := by
  obtain ⟨rfl, hrs⟩ := h
  induction rs with
  | nil => rfl
  | cons r rs ih =>
    have hr := (hrs r (by simp)).1
    have hrest := ih (fun r' hr' => hrs r' (by simp [hr']))
    simp only [flatMap_cons, length_append, bytes, length_be16Bytes, length_cons, hr, hrest]
    omega

theorem records_single_iff (hlen : 5 ≤ b.length) :
    Records b [⟨b.take 3, b.drop 5⟩] ↔ b.length = 5 + (word b 3).toNat := by
  have hword : word (b.drop 3) 0 = word b 3 := by simp only [word, getD_drop]
  have hlt := (word b 3).toNat_lt
  constructor
  · rintro ⟨hb, hr⟩
    have hpayload := (hr _ (mem_singleton_self _)).2
    have hdrop : b.drop 3 = be16Bytes (b.drop 5).length ++ b.drop 5 := by
      conv_lhs => rw [hb]
      simp only [flatMap_cons, flatMap_nil, append_nil, bytes]
      exact drop_left' (by rw [length_take]; omega)
    rw [← hword, hdrop, word_be16Bytes hpayload, length_drop]
    omega
  · intro heq
    have hsplit := eq_be16Bytes_append (b := b.drop 3) (by rw [length_drop]; omega)
    rw [hword, drop_drop] at hsplit
    have hpayload : (b.drop 5).length = (word b 3).toNat := by
      rw [length_drop]
      omega
    refine ⟨?_, ?_⟩
    · simp only [flatMap_cons, flatMap_nil, append_nil, bytes, hpayload]
      rw [← hsplit, take_append_drop]
    · simp only [mem_singleton, forall_eq, hpayload, length_take]
      omega

theorem length_le_of_mem_flatten {l : List Bytes} {x : Bytes} (hx : x ∈ l) : x.length ≤ l.flatten.length := by
  obtain ⟨pre, post, rfl⟩ := append_of_mem hx
  simp only [flatten_append, flatten_cons, length_append]
  omega

/-- Cutting what follows the first header makes records of the payloads exactly if there is one record only. -/
theorem splitRecords_iff {writes : List Bytes} (hlen : 5 ≤ b.length) (hps : Points b recordLayerHeaderLen ps)
    (hwrites : writes.flatten = (cuts b recordLayerHeaderLen ps).flatMap (Conn.record b)) :
    SplitRecords b ps writes ↔ b.length = 5 + (word b 3).toNat := by
  have hflatten : (cuts b recordLayerHeaderLen ps).flatten = b.drop 5 := flatten_cuts hps
  constructor
  · rintro ⟨rs, rs', hrs, -, -, hpieces, hpayload⟩
    have hpayloads : rs.flatMap payload = b.drop 5 := by
      rw [← hpayload, ← hflatten, ← hpieces, flatMap_def]
    have hlength := hrs.length_eq
    rw [hpayloads, length_drop] at hlength
    have hone : rs.length = 1 := by omega
    obtain ⟨r, rfl⟩ := length_eq_one_iff.1 hone
    have hr : r.payload = b.drop 5 := by simpa using hpayloads
    have hheader : r.header = b.take 3 := by
      rw [hrs.1, flatMap_cons, flatMap_nil, append_nil, bytes,
        take_left' (hrs.2 r (by simp)).1]
    rw [← records_single_iff hlen, ← hheader, ← hr]
    exact hrs
  · intro heq
    have hlt := (word b 3).toNat_lt
    have hpiece : ∀ p ∈ cuts b recordLayerHeaderLen ps, p.length < 65536 := by
      intro p hp
      have hle := length_le_of_mem_flatten hp
      rw [hflatten, length_drop] at hle
      omega
    refine ⟨_, (cuts b recordLayerHeaderLen ps).map (mk (b.take 3)), (records_single_iff hlen).2 heq, ⟨?_, ?_⟩,
      ?_, ?_, ?_⟩
    · rw [hwrites, flatMap_map]
      apply flatMap_congr
      intro p hp
      have hmod : (UInt16.ofNat p.length).toNat = p.length := by
        exact Nat.mod_eq_of_lt (hpiece p hp)
      rw [Conn.record, bytes, hmod]
    · intro r hr
      obtain ⟨p, hp, rfl⟩ := mem_map.1 hr
      exact ⟨by simp; omega, hpiece p hp⟩
    · intro r hr
      obtain ⟨p, -, rfl⟩ := mem_map.1 hr
      rfl
    · rw [map_map]
      exact map_id _
    · simp [flatMap_map, ← hflatten]

/-! ## `Conn.Write` -/

variable {s : MyServerName}

theorem FindsName.index_le {head body name : Bytes} {n i c : Nat} (h : FindsName b head n body i c name) :
    5 ≤ head.length ∧ head.length + 2 + i + 9 + name.length ≤ b.length := by
  obtain ⟨v₁, v₂, s₁, s₂, hello, -, -, hhead⟩ := h.hello.head
  have hlen := h.name_prefix.length_le
  obtain ⟨hne, -⟩ := h.comes.choose_spec.choose_spec.2.2
  have hpos := length_pos_iff.2 hne
  rw [length_drop] at hlen
  rw [hhead] at hlen ⊢
  simp only [length_append, length_cons, length_nil] at hlen ⊢
  omega

/-- The server name that the loop comes to stands at this position. -/
def ReadAt (b : Bytes) (start : Nat) (name : Bytes) : Prop :=
  ∃ head n body i c, FindsName b head n body i c name ∧ start = head.length + 2 + i + 9

theorem ReadAt.le {start : Nat} {name : Bytes} (h : ReadAt b start name) : 5 ≤ start ∧ start + name.length ≤ b.length := by
  obtain ⟨head, n, body, i, c, hfinds, rfl⟩ := h
  have := hfinds.index_le
  omega

/-- The labels that are cut. -/
def labels (publicSuffix : Bytes → Bytes) (serverName : Bytes) : List Bytes :=
  let splits := splitsOf publicSuffix serverName
  if 1 < splits.length ∧ splits.head? = some [dot, dot, dot] then splits.tail else splits

theorem splitLoop_eq_nil_iff (rand : Rand) (k currentIndex : Nat) (ls : List Bytes) :
    splitLoop rand k currentIndex ls = [] ↔ ∀ l ∈ ls, l = [] := by
  induction ls generalizing k currentIndex with
  | nil => simp [splitLoop]
  | cons l ls ih =>
    rw [splitLoop]
    by_cases hl : l.length = 0
    · simp [ih, length_eq_zero_iff.1 hl]
    · simp [length_eq_zero_iff.not.1 hl]

/-- Whether there is a split point depends on the labels only. -/
theorem splitIndexes_ne_nil_iff (rand : Rand) (publicSuffix : Bytes → Bytes) (s : MyServerName) :
    splitIndexes rand publicSuffix s ≠ [] ↔ ∃ l ∈ labels publicSuffix s.serverName, l ≠ [] := by
  simp only [splitIndexes, labels]
  split <;> simp [splitLoop_eq_nil_iff]

section
variable (rand : Rand) (publicSuffix : Bytes → Bytes)

/-- What is asked of the first write. -/
structure WriteSound (splitPacket splitRecord : Bool) (b : Bytes) : Prop where
  ends : ∃ fuel, Conn.write rand publicSuffix fuel { splitPacket, splitRecord } b ≠ .running
  in_range : ∀ fuel, Conn.write rand publicSuffix fuel { splitPacket, splitRecord } b ≠ .panic
  result : ∀ fuel n writes c, Conn.write rand publicSuffix fuel { splitPacket, splitRecord } b = .done (n, writes, c) →
    n = b.length
  /-- Without record splitting the writes concatenate to `b`. -/
  packets : splitRecord = false → ∀ fuel n writes c,
    Conn.write rand publicSuffix fuel { splitPacket, splitRecord } b = .done (n, writes, c) → writes.flatten = b
  /-- Without a server name to split `b` is written as it is. -/
  plain : ∀ fuel n writes c,
    Conn.write rand publicSuffix fuel { splitPacket, splitRecord } b = .done (n, writes, c) →
    (∀ s, indexTLSServerName fuel b = .done (some s) → splitIndexes rand publicSuffix s = []) → writes = [b]
  /-- With record splitting the payloads are the same, in more records. -/
  records : splitRecord = true → ∀ fuel n writes c s,
    Conn.write rand publicSuffix fuel { splitPacket, splitRecord } b = .done (n, writes, c) →
    indexTLSServerName fuel b = .done (some s) → splitIndexes rand publicSuffix s ≠ [] →
    SplitRecords b (splitIndexes rand publicSuffix s) writes
  /-- The split points increase strictly and lie inside the server name, where it stands. -/
  points : ∀ fuel s, indexTLSServerName fuel b = .done (some s) →
    (splitIndexes rand publicSuffix s).Pairwise (· < ·) ∧ ∀ p ∈ splitIndexes rand publicSuffix s,
      s.index ≤ p ∧ p < s.index + s.length ∧ ReadAt b s.index s.serverName

end

variable {rand : Rand} {publicSuffix : Bytes → Bytes} {c : Conn} {b : Bytes} {fuel : Nat}

theorem write_of_running (hc : c.firstPacketWritten = false) (h : indexTLSServerName fuel b = .running) :
    c.write rand publicSuffix fuel b = .running := by
  simp [Conn.write, hc, h]

theorem write_of_plain {r : Option MyServerName} (hc : c.firstPacketWritten = false)
    (h : indexTLSServerName fuel b = .done r) (hr : ∀ s ∈ r, splitIndexes rand publicSuffix s = []) :
    c.write rand publicSuffix fuel b = .done (b.length, [b], { c with firstPacketWritten := true }) := by
  cases r with
  | none => simp [Conn.write, hc, h]
  | some s => simp [Conn.write, hc, h, hr s rfl]

theorem points_of_readAt (h : ReadAt b s.index s.serverName) :
    Points b c.start (splitIndexes rand publicSuffix s) := by
  obtain ⟨hsorted, hbounds⟩ := splitIndexes_spec rand publicSuffix s
  have hle := h.le
  have hstart : c.start ≤ 5 := by
    rw [Conn.start]
    split
    · exact le_refl 5
    · omega
  refine ⟨?_, ?_⟩
  · rw [pairwise_cons]
    refine ⟨fun p hp => ?_, hsorted.imp le_of_lt⟩
    have := hbounds p hp
    omega
  · intro p hp
    rcases mem_cons.1 hp with rfl | hp
    · omega
    · have := hbounds p hp
      omega

theorem write_of_readAt (hc : c.firstPacketWritten = false)
    (hsplit : c.splitPacket = true ∨ c.splitRecord = true) (h : indexTLSServerName fuel b = .done (some s))
    (hs : splitIndexes rand publicSuffix s ≠ []) (hread : ReadAt b s.index s.serverName) :
    ∃ writes, c.write rand publicSuffix fuel b = .done (b.length, writes, { c with firstPacketWritten := true }) ∧
      writes.flatten = (cuts b c.start (splitIndexes rand publicSuffix s)).flatMap
        fun payload => if c.splitRecord then Conn.record b payload else payload := by
  obtain ⟨st, hloop, hsent⟩ := Conn.writeLoop_sent hsplit hs (points_of_readAt hread)
  refine ⟨_, ?_, hsent⟩
  simp [Conn.write, hc, h, hs, hloop]

/-- What the first write needs: no extension of 65532 bytes is passed, and if a server name comes that has a label to
cut, the extensions before it are counted right and, if records are split, there is one record. -/
structure WriteOk (publicSuffix : Bytes → Bytes) (splitRecord : Bool) (b : Bytes) : Prop where
  moves : ∀ head n body, ClientHello b head n body → Moves body
  counted : ∀ head n body i c name, FindsName b head n body i c name → (∃ l ∈ labels publicSuffix name, l ≠ []) →
    c = i ∧ (splitRecord = true → b.length = 5 + (word b 3).toNat)

theorem WriteOk.readAt {splitRecord : Bool} (hok : WriteOk publicSuffix splitRecord b)
    (h : indexTLSServerName fuel b = .done (some s)) (hs : splitIndexes rand publicSuffix s ≠ []) :
    ReadAt b s.index s.serverName ∧ (splitRecord = true → b.length = 5 + (word b 3).toNat) := by
  obtain ⟨head, n, body, i, c, name, hfinds, rfl⟩ := findsName_of_found h
  obtain ⟨rfl, hone⟩ := hok.counted head n body i c name hfinds ((splitIndexes_ne_nil_iff rand publicSuffix _).1 hs)
  exact ⟨⟨head, n, body, c, c, hfinds, rfl⟩, hone⟩

theorem writeOk_of_sound {splitPacket splitRecord : Bool} (hsplit : splitPacket = true ∨ splitRecord = true)
    (hsound : WriteSound rand publicSuffix splitPacket splitRecord b) : WriteOk publicSuffix splitRecord b := by
  refine ⟨?_, ?_⟩
  · apply indexTLSServerName_ends_iff.1
    obtain ⟨fuel, hfuel⟩ := hsound.ends
    exact ⟨fuel, fun h => hfuel (write_of_running rfl h)⟩
  · intro head n body i c name hfinds hlabel
    obtain ⟨fuel, h⟩ := hfinds.found
    have hs := (splitIndexes_ne_nil_iff rand publicSuffix (foundAt head c name)).2 hlabel
    have hread : ReadAt b (foundAt head c name).index name := by
      obtain ⟨p, hp⟩ := exists_mem_of_ne_nil _ hs
      exact ((hsound.points fuel _ h).2 p hp).2.2
    refine ⟨?_, fun hrecord => ?_⟩
    · obtain ⟨head', n', body', i', c', hfinds', hindex⟩ := hread
      obtain ⟨rfl, rfl, rfl⟩ := hfinds.unique hfinds'
      simp only [foundAt] at hindex
      omega
    · subst hrecord
      obtain ⟨writes, hwrite, hflatten⟩ :=
        write_of_readAt (c := { splitPacket, splitRecord := true }) rfl hsplit h hs hread
      have hlen := hread.le
      exact (splitRecords_iff (by omega) (points_of_readAt (c := { splitPacket, splitRecord := true }) hread)
        (by simpa [Conn.start] using hflatten)).1 (hsound.records rfl fuel _ writes _ _ hwrite h hs)

/-- What a first write can do, if all is as it needs. -/
inductive FirstWrite (rand : Rand) (publicSuffix : Bytes → Bytes) (c : Conn) (b : Bytes) (fuel : Nat) :
    Exec (Nat × List Bytes × Conn) → Prop
  | running (h : indexTLSServerName fuel b = .running) : FirstWrite rand publicSuffix c b fuel .running
  | plain (h : ∀ s, indexTLSServerName fuel b = .done (some s) → splitIndexes rand publicSuffix s = []) :
      FirstWrite rand publicSuffix c b fuel (.done (b.length, [b], { c with firstPacketWritten := true }))
  | split {s : MyServerName} {writes : List Bytes} (h : indexTLSServerName fuel b = .done (some s))
      (hs : splitIndexes rand publicSuffix s ≠ []) (hread : ReadAt b s.index s.serverName)
      (hwrites : writes.flatten = (cuts b c.start (splitIndexes rand publicSuffix s)).flatMap
        fun payload => if c.splitRecord then Conn.record b payload else payload) :
      FirstWrite rand publicSuffix c b fuel (.done (b.length, writes, { c with firstPacketWritten := true }))

theorem firstWrite_of_writeOk (rand : Rand) (hc : c.firstPacketWritten = false) (hsplit : c.splitPacket = true ∨ c.splitRecord = true)
    (hok : WriteOk publicSuffix c.splitRecord b) (fuel : Nat) :
    FirstWrite rand publicSuffix c b fuel (c.write rand publicSuffix fuel b) := by
  cases h : indexTLSServerName fuel b with
  | panic => exact absurd h (indexTLSServerName_ne_panic b fuel)
  | running =>
    rw [write_of_running hc h]
    exact .running h
  | done r =>
    by_cases hr : ∀ s ∈ r, splitIndexes rand publicSuffix s = []
    · rw [write_of_plain hc h hr]
      apply FirstWrite.plain
      intro s hs
      rw [h] at hs
      exact hr s (Exec.done.inj hs)
    · simp only [not_forall] at hr
      obtain ⟨s, rfl, hs⟩ := hr
      have hread := (hok.readAt h hs).1
      obtain ⟨writes, hwrite, hflatten⟩ := write_of_readAt hc hsplit h hs hread
      rw [hwrite]
      exact .split h hs hread hflatten

theorem sound_of_writeOk {splitPacket splitRecord : Bool} (hsplit : splitPacket = true ∨ splitRecord = true)
    (hok : WriteOk publicSuffix splitRecord b) : WriteSound rand publicSuffix splitPacket splitRecord b := by
  have hcases := firstWrite_of_writeOk rand (c := { splitPacket, splitRecord }) rfl hsplit hok
  refine ⟨?_, ?_, ?_, ?_, ?_, ?_, ?_⟩
  · obtain ⟨fuel, hfuel⟩ := indexTLSServerName_ends_iff.2 hok.moves
    refine ⟨fuel, fun hrunning => ?_⟩
    have hcase := hcases fuel
    rw [hrunning] at hcase
    cases hcase with
    | running h => exact hfuel h
  · intro fuel hpanic
    have hcase := hcases fuel
    rw [hpanic] at hcase
    cases hcase
  · intro fuel n writes c hwrite
    have hcase := hcases fuel
    rw [hwrite] at hcase
    cases hcase <;> rfl
  · rintro rfl fuel n writes c hwrite
    have hcase := hcases fuel
    rw [hwrite] at hcase
    cases hcase with
    | plain h => simp
    | split h hs hread hwrites =>
      rw [hwrites]
      simpa [Conn.start] using flatten_cuts (points_of_readAt (c := { splitPacket, splitRecord := false }) hread)
  · intro fuel n writes c hwrite hnone
    have hcase := hcases fuel
    rw [hwrite] at hcase
    cases hcase with
    | plain h => rfl
    | split h hs hread hwrites => exact absurd (hnone _ h) hs
  · rintro rfl fuel n writes c s hwrite h hs
    have hcase := hcases fuel
    rw [hwrite] at hcase
    cases hcase with
    | plain h' => exact absurd (h' s h) hs
    | split h' hs' hread hwrites =>
      rw [h] at h'
      cases h'
      have hlen := hread.le
      exact (splitRecords_iff (by omega) (points_of_readAt (c := { splitPacket, splitRecord := true }) hread)
        (by simpa [Conn.start] using hwrites)).2 ((hok.readAt h hs).2 rfl)
  · intro fuel s h
    obtain ⟨hsorted, hbounds⟩ := splitIndexes_spec rand publicSuffix s
    refine ⟨hsorted, fun p hp => ?_⟩
    have hlength : s.length = s.serverName.length := by
      obtain ⟨head, n, body, i, c, name, -, rfl⟩ := findsName_of_found h
      rfl
    rw [hlength]
    exact ⟨(hbounds p hp).1, (hbounds p hp).2, (hok.readAt h (ne_nil_of_mem hp)).1⟩

/-- For every choice of split offsets, every list of public suffixes and every first write with packet or record
splitting: `Write` returns the length of its argument and the peer gets the same data, exactly if the loop over the
extensions passes none of 65532 bytes and, if it comes to a server name with a label to cut, has counted right and, with
record splitting, the write is one record and no more. -/
theorem write_sound_iff (rand : Rand) (publicSuffix : Bytes → Bytes) {splitPacket splitRecord : Bool}
    (hsplit : splitPacket = true ∨ splitRecord = true) (b : Bytes) :
    WriteSound rand publicSuffix splitPacket splitRecord b ↔ WriteOk publicSuffix splitRecord b :=
  ⟨writeOk_of_sound hsplit, sound_of_writeOk hsplit⟩

/-- Every label is cut at its start. -/
def firstByte : Rand := ⟨fun _ _ => 0, fun _ _ h => h⟩

/-- The public suffix of `a.org`. -/
def suffixOrg : Bytes → Bytes := fun _ => [111, 114, 103]

/-- One record with a server name. -/
theorem write_sound_one_record : WriteSound firstByte suffixOrg true true trailingHello := by
  refine (write_sound_iff firstByte suffixOrg (.inl rfl) trailingHello).2 ⟨?_, ?_⟩
  · exact indexTLSServerName_ends_iff.1 ⟨1, by rw [indexTLSServerName_trailingHello]; nofun⟩
  · intro head n body i c name hfinds _
    obtain ⟨-, rfl, rfl⟩ := hfinds.unique findsName_trailingHello
    exact ⟨rfl, fun _ => by decide⟩

/-- A ClientHello that counts 6 more bytes than its record has, and a ChangeCipherSpec record with these. -/
def twoRecords : List TLSRecord :=
  [⟨[22, 3, 1], shortHello 0 0 60 ++ (be16Bytes 14 ++
      extensionBytes sniExtensionType [0, 8, 0, 0, 5, 97, 46, 111, 114, 103])⟩,
    ⟨[20, 3, 1], [1]⟩]

theorem findsName_twoRecords :
    FindsName (twoRecords.flatMap TLSRecord.bytes) ([22, 3, 1, 0, 58] ++ shortHello 0 0 60) 14
      (extensionBytes sniExtensionType [0, 8, 0, 0, 5, 97, 46, 111, 114, 103] ++ [20, 3, 1, 0, 1, 1]) 0 0
      [97, 46, 111, 114, 103] :=
  ⟨⟨by decide, ⟨3, 1, 0, 58, shortHello 0 0 60, by decide, helloHead_shortHello 0 0 60, rfl⟩, by decide, by decide⟩,
    _, _, .here, ⟨by decide, prefix_append _ _⟩, by decide, by decide, 0, 8, rfl⟩

/-- With record splitting the header of the second record becomes data of the first; and on one payload `Write` never
returns. -/
theorem write_two_records :
    Records (twoRecords.flatMap TLSRecord.bytes) twoRecords ∧
      (∃ writes c, Conn.write firstByte suffixOrg 1 { splitPacket := true, splitRecord := true }
          (twoRecords.flatMap TLSRecord.bytes) = .done (69, writes, c) ∧
        writes.getLast? = some [22, 3, 1, 0, 11, 97, 46, 111, 114, 103, 20, 3, 1, 0, 1, 1]) ∧
      ¬WriteSound firstByte suffixOrg true true (twoRecords.flatMap TLSRecord.bytes) ∧
      ∀ fuel, Conn.write firstByte suffixOrg fuel { splitPacket := true, splitRecord := false } longHello = .running := by
  refine ⟨⟨rfl, by decide⟩, ⟨_, _, rfl, by decide⟩, ?_, fun fuel => write_of_running rfl (indexTLSServerName_longHello fuel)⟩
  intro hsound
  have hone := (writeOk_of_sound (.inl rfl) hsound).counted _ _ _ _ _ _ findsName_twoRecords (by decide)
  exact absurd (hone.2 rfl) (by decide)

end Singlink.TLSFragment
