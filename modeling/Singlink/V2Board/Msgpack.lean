import Singlink.Lib.Msgpack
import Mathlib.Data.Int.Basic
/-!
# Decoding msgpack

`decodeMsgpack` of `service/v2board/msgpack.go`, a decoder written by hand for what
a panel may send as msgpack. Its state is what is left of the input; the position
is the length of the input without that. Go's `int` has 32 or 64 bits, and the
position after a text is computed in it.
-/

namespace Singlink.V2Board

open Lib Lib.Codec Lib.Msgpack List

/-! ## Values -/

/-- The values behind an `any` that the decoders of a user list make. A number of a
JSON text is a `json.Number`. -/
inductive GoAny where
  | nil
  | bool (b : Bool)
  | int64 (n : Int64)
  | number (text : String)
  | str (s : Bytes)
  | arr (l : List GoAny)
  | map (m : Bytes → Option GoAny)

/-- The type of a value, as `%T` prints it. -/
def GoAny.typeName : GoAny → String
  | nil => "<nil>"
  | bool _ => "bool"
  | int64 _ => "int64"
  | number _ => "json.Number"
  | str _ => "string"
  | arr _ => "[]interface \x7b\x7d"
  | map _ => "map[string]interface \x7b\x7d"

/-- A map after one assignment for each entry. -/
def buildMap {α : Type} (entries : List (Bytes × α)) : Bytes → Option α :=
  entries.foldl (fun m entry => Function.update m entry.1 (some entry.2)) fun _ => none

/-- The value of the last entry with a key. -/
def lastValue {α : Type} (entries : List (Bytes × α)) (key : Bytes) : Option α :=
  ((entries.filter fun entry => entry.1 = key).getLast?).map (·.2)

theorem buildMap_eq {α : Type} (entries : List (Bytes × α)) : buildMap entries = lastValue entries := by
  induction entries using reverseRecOn with
  | nil => rfl
  | append_singleton entries entry ih =>
    funext key
    rw [buildMap, foldl_append, foldl_cons, foldl_nil, ← buildMap, ih, lastValue, filter_append]
    by_cases hkey : entry.1 = key
    · subst hkey
      rw [Function.update_self, filter_cons_of_pos (by simp), filter_nil, getLast?_concat]
      rfl
    · rw [Function.update_of_ne (Ne.symm hkey), filter_cons_of_neg (by simpa using hkey), filter_nil,
        append_nil]
      rfl

/-! ## The decoder -/

inductive MsgpackError where
  | unexpectedEOF
  | tooDeep
  | unsupportedCode (code : UInt8)
  | arrayTooLarge (length : Nat)
  | mapTooLarge (length : Nat)
  | unsupportedKey (typeName : String)
  | trailing (pos : Nat)
  /-- a slice expression out of range -/
  | panic
  deriving DecidableEq

def MsgpackError.message : MsgpackError → String
  | unexpectedEOF => "unexpected EOF"
  | tooDeep => "msgpack nesting too deep"
  | unsupportedCode code => "unsupported msgpack code 0x" ++ String.ofList (Nat.toDigits 16 code.toNat)
  | arrayTooLarge length => "msgpack array too large: " ++ toString length
  | mapTooLarge length => "msgpack map too large: " ++ toString length
  | unsupportedKey typeName => "unsupported msgpack map key " ++ typeName
  | trailing pos => "trailing msgpack data at byte " ++ toString pos
  | panic => "runtime error: slice bounds out of range"

def maxMsgpackDepth : Nat := 64
def maxMsgpackContainerLength : Nat := 2 ^ 20

abbrev MsgpackReader (α : Type) := Reader MsgpackError α

def readByte : MsgpackReader UInt8 := Codec.readByte .unexpectedEOF

def remaining : MsgpackReader Nat := fun rest => .ok (rest.length, rest)

section Decoder

/-! `readBytes` and the largest `int` are parameters of the decoder: they alone depend
on the width of an `int`. -/

variable (readBytes : Nat → MsgpackReader Bytes) (maxInt : Nat)

/-- `readByte`, `readUint16`, `readUint32` and `readUint64`. -/
def readUint (k : Nat) : MsgpackReader Nat := if k = 1 then UInt8.toNat <$> readByte else ofBeBytes <$> readBytes k

def readString (length : Nat) : MsgpackReader GoAny := GoAny.str <$> readBytes length

/-- `readArray`, where `value` reads an element. -/
def readArray (value : MsgpackReader GoAny) (length : Nat) : MsgpackReader GoAny :=
  if maxMsgpackContainerLength < length then throw (.arrayTooLarge length)
  else do
    let left ← remaining
    if left < length then throw .unexpectedEOF else GoAny.arr <$> readMany value length

def readEntry (value : MsgpackReader GoAny) : MsgpackReader (Bytes × GoAny) := do
  match ← value with
  | .str key => Prod.mk key <$> value
  | key => throw (.unsupportedKey key.typeName)

/-- `readMap`, where `value` reads a key or a value. -/
def readMap (value : MsgpackReader GoAny) (length : Nat) : MsgpackReader GoAny :=
  if maxMsgpackContainerLength < length then throw (.mapTooLarge length)
  else do
    let left ← remaining
    if left / 2 < length then throw .unexpectedEOF
    else (fun entries => GoAny.map (buildMap entries)) <$> readMany (readEntry value) length

/-- A length of four bytes is compared with the largest `int` first. -/
def checkLength (tooLarge : Nat → MsgpackError) (k length : Nat) (read : MsgpackReader GoAny) : MsgpackReader GoAny :=
  if k = 4 ∧ maxInt % 2 ^ 32 < length then throw (tooLarge length) else read

/-- `readValue` with so many levels left; at `maxMsgpackDepth` it is one. -/
def readValue : Nat → MsgpackReader GoAny
  | 0 => throw .tooDeep
  | levels + 1 => do
    let code ← readByte
    if code.toNat ≤ 0x7f then return .int64 (.ofNat code.toNat)
    else if 0xe0 ≤ code.toNat then return .int64 (.ofInt (code.toNat - 256))
    else if 0xa0 ≤ code.toNat ∧ code.toNat ≤ 0xbf then readString readBytes (code.toNat % 32)
    else if 0x90 ≤ code.toNat ∧ code.toNat ≤ 0x9f then readArray (readValue levels) (code.toNat % 16)
    else if 0x80 ≤ code.toNat ∧ code.toNat ≤ 0x8f then readMap (readValue levels) (code.toNat % 16)
    else if code = 0xc0 then return .nil
    else if code = 0xc2 then return .bool false
    else if code = 0xc3 then return .bool true
    else
      match uintCodes.lookup code with
      | some k => (fun n : Nat => .int64 (.ofNat n)) <$> readUint readBytes k
      | none =>
        match intCodes.lookup code with
        | some k => (fun n : Nat => .int64 (.ofInt (Int.bmod n (256 ^ k)))) <$> readUint readBytes k
        | none =>
          match strCodes.lookup code with
          | some k => readUint readBytes k >>= readString readBytes
          | none =>
            match arrayCodes.lookup code with
            | some k => do
              let length ← readUint readBytes k
              checkLength maxInt .arrayTooLarge k length (readArray (readValue levels) length)
            | none =>
              match mapCodes.lookup code with
              | some k => do
                let length ← readUint readBytes k
                checkLength maxInt .mapTooLarge k length (readMap (readValue levels) length)
              | none => throw (.unsupportedCode code)

def decodeWith (data : Bytes) : Except MsgpackError GoAny :=
  match readValue readBytes maxInt (maxMsgpackDepth + 1) data with
  | .error err => .error err
  | .ok (value, rest) => if rest = [] then .ok value else .error (.trailing (data.length - rest.length))

end Decoder

/-- `readBytes(int(length))` of the input of `total` bytes, where an `int` has `w`
bits. -/
def readBytes (w total length : Nat) : MsgpackReader Bytes := fun rest =>
  let pos : Int := total - rest.length
  let length' : Int := Int.bmod length (2 ^ w)
  let stop := (pos + length').bmod (2 ^ w)
  if length' < 0 ∨ total < stop then .error .unexpectedEOF
  else if stop < pos then .error .panic
  else .ok (rest.take (stop - pos).toNat, rest.drop (stop - pos).toNat)

/-- `decodeMsgpack` where an `int` has `w` bits. -/
def decodeMsgpack (w : Nat) (data : Bytes) : Except MsgpackError GoAny :=
  decodeWith (readBytes w data.length) (2 ^ (w - 1) - 1) data

/-! ## An `int` without bounds -/

/-- `readBytes` if positions could be as large as they need to be. The error may depend
on how many bytes are left. -/
def takeBytes (err : Nat → Nat → MsgpackError) (length : Nat) : MsgpackReader Bytes := fun rest =>
  if length ≤ rest.length then .ok (rest.take length, rest.drop length) else .error (err rest.length length)

/-- The decoder with such an `int`. -/
def readWide (err : Nat → Nat → MsgpackError) : Nat → MsgpackReader GoAny := readValue (takeBytes err) (2 ^ 32 - 1)

/-- The error of `readBytes` if not all bytes are there: the position after them may be
larger than an `int` can be. -/
def shortError (w total left length : Nat) : MsgpackError :=
  if length < 2 ^ (w - 1) ∧ 2 ^ (w - 1) ≤ total - left + length then .panic else .unexpectedEOF

/-- Two readers do the same on what is left of an input of `total` bytes. -/
def Lockstep {α : Type} (total : Nat) (r r' : MsgpackReader α) : Prop :=
  ∀ rest : Bytes, rest.length ≤ total → r rest = r' rest ∧ ∀ a rest', r rest = .ok (a, rest') → rest'.length ≤ total

namespace Lockstep

variable {α β : Type} {w total : Nat}

theorem pure (a : α) : Lockstep total (pure a) (pure a) := by
  refine fun rest hrest => ⟨rfl, ?_⟩
  rintro _ _ ⟨⟩
  exact hrest

theorem throw (err : MsgpackError) : Lockstep total (throw err : MsgpackReader α) (throw err) :=
  fun _ _ => ⟨rfl, nofun⟩

variable {r r' : MsgpackReader α} {value value' : MsgpackReader GoAny}

theorem bindOf {f f' : α → MsgpackReader β} {P : α → Prop} (h : Lockstep total r r')
    (hP : ∀ rest a rest', r rest = .ok (a, rest') → P a) (hf : ∀ a, P a → Lockstep total (f a) (f' a)) :
    Lockstep total (r >>= f) (r' >>= f') := by
  intro rest hrest
  obtain ⟨heq, hle⟩ := h rest hrest
  change (r rest >>= fun p => f p.1 p.2) = (r' rest >>= fun p => f' p.1 p.2) ∧
    ∀ a rest', (r rest >>= fun p => f p.1 p.2) = _ → _
  rw [← heq]
  cases hfirst : r rest with
  | error err => exact ⟨rfl, nofun⟩
  | ok p => exact hf p.1 (hP rest p.1 p.2 hfirst) p.2 (hle p.1 p.2 hfirst)

theorem bind {f f' : α → MsgpackReader β} (h : Lockstep total r r')
    (hf : ∀ a, Lockstep total (f a) (f' a)) : Lockstep total (r >>= f) (r' >>= f') :=
  h.bindOf (fun _ _ _ _ => trivial) fun a _ => hf a

theorem map (h : Lockstep total r r') (f : α → β) : Lockstep total (f <$> r) (f <$> r') := by
  exact h.bind fun a => pure (f a)

theorem ite {c : Prop} [Decidable c] {r₁ r₁' r₂ r₂' : MsgpackReader α} (h₁ : c → Lockstep total r₁ r₁')
    (h₂ : ¬ c → Lockstep total r₂ r₂') : Lockstep total (if c then r₁ else r₂) (if c then r₁' else r₂') := by
  split
  · exact h₁ ‹_›
  · exact h₂ ‹_›

theorem many (h : Lockstep total r r') (n : Nat) : Lockstep total (readMany r n) (readMany r' n) := by
  induction n with
  | zero => exact pure []
  | succ n ih => exact h.bind fun a => ih.bind fun as => pure (a :: as)

theorem byte : Lockstep total readByte readByte := by
  refine fun rest hrest => ⟨rfl, fun b rest' heq => ?_⟩
  have hle := consumes_byte _ rest b rest' heq
  omega

theorem left : Lockstep total remaining remaining := by
  refine fun rest hrest => ⟨rfl, ?_⟩
  rintro _ _ ⟨⟩
  exact hrest

theorem bmod_of_lt (hw : w = 32 ∨ w = 64) {n : Nat} (hn : n < 2 ^ (w - 1)) : Int.bmod n (2 ^ w) = n := by
  rcases hw with rfl | rfl
  · simp only [Int.bmod]
    split <;> omega
  · simp only [Int.bmod]
    split <;> omega

theorem bmod_of_ge (hw : w = 32 ∨ w = 64) {n : Nat} (hn : 2 ^ (w - 1) ≤ n) (hn' : n < 2 * 2 ^ (w - 1)) :
    Int.bmod n (2 ^ w) < 0 := by
  rcases hw with rfl | rfl
  · simp only [Int.bmod]
    split <;> omega
  · simp only [Int.bmod]
    split <;> omega

/-- `readBytes` itself: nothing wraps unless the bytes are missing. -/
theorem bytes (hw : w = 32 ∨ w = 64) (htotal : total < 2 ^ (w - 1)) {length : Nat} (hlength : length < 2 ^ 32) :
    Lockstep total (takeBytes (shortError w total) length) (readBytes w total length) := by
  intro rest hrest
  have hwide : 2 ^ 32 ≤ 2 * 2 ^ (w - 1) := by rcases hw with rfl | rfl <;> decide
  have hpos : ((total : Int) - rest.length) = ((total - rest.length : Nat) : Int) := by omega
  simp only [takeBytes, readBytes, shortError, hpos]
  by_cases hfits : length ≤ rest.length
  · have hcount : (((total - rest.length + length : Nat) : Int) - ((total - rest.length : Nat) : Int)).toNat = length := by
      omega
    rw [if_pos hfits, bmod_of_lt hw (by omega), ← Nat.cast_add, bmod_of_lt hw (by omega), if_neg (by omega),
      if_neg (by omega), hcount]
    refine ⟨rfl, ?_⟩
    rintro _ _ ⟨⟩
    rw [length_drop]
    omega
  rw [if_neg hfits]
  refine ⟨?_, nofun⟩
  by_cases hneg : 2 ^ (w - 1) ≤ length
  · -- as an `int` the length is negative
    rw [if_neg fun hover => absurd hover.1 (by omega), if_pos (.inl (bmod_of_ge hw hneg (by omega)))]
  rw [bmod_of_lt hw (by omega), ← Nat.cast_add]
  by_cases hover : 2 ^ (w - 1) ≤ total - rest.length + length
  · have hstop := bmod_of_ge hw hover (by omega)
    rw [if_pos ⟨by omega, hover⟩, if_neg (by omega), if_pos (by omega)]
  · rw [if_neg fun h => hover h.2, bmod_of_lt hw (by omega), if_pos (.inr (by omega))]

theorem uint (hw : w = 32 ∨ w = 64) (htotal : total < 2 ^ (w - 1)) {k : Nat} (hk : k ≤ 8) :
    Lockstep total (readUint (takeBytes (shortError w total)) k) (readUint (readBytes w total) k) := by
  refine ite (fun _ => byte.map _) fun _ => (bytes hw htotal ?_).map _
  omega

theorem array (h : Lockstep total value value') (length : Nat) :
    Lockstep total (readArray value length) (readArray value' length) := by
  refine ite (fun _ => throw _) fun _ => left.bind fun left => ?_
  exact ite (fun _ => throw _) fun _ => (h.many length).map _

theorem entry (h : Lockstep total value value') : Lockstep total (readEntry value) (readEntry value') := by
  refine h.bind fun key => ?_
  cases key with
  | str key => exact h.map _
  | _ => exact throw _

theorem mapping (h : Lockstep total value value') (length : Nat) :
    Lockstep total (readMap value length) (readMap value' length) := by
  refine ite (fun _ => throw _) fun _ => left.bind fun left => ?_
  exact ite (fun _ => throw _) fun _ => (h.entry.many length).map _

/-- The comparison with the largest `int` only finds what is too large anyway. -/
theorem checked {tooLarge : Nat → MsgpackError} {k length : Nat} {read read' : MsgpackReader GoAny}
    (hw : w = 32 ∨ w = 64) (hlength : length < 2 ^ 32) (h : Lockstep total read read')
    (hlarge : maxMsgpackContainerLength < length → read = MonadExcept.throw (tooLarge length)) :
    Lockstep total (checkLength (2 ^ 32 - 1) tooLarge k length read)
      (checkLength (2 ^ (w - 1) - 1) tooLarge k length read') := by
  unfold checkLength
  rw [if_neg (by omega)]
  split
  · have hmax : maxMsgpackContainerLength < length := by
      have hlow : 2 ^ 31 - 1 ≤ (2 ^ (w - 1) - 1) % 2 ^ 32 := by rcases hw with rfl | rfl <;> decide
      rw [maxMsgpackContainerLength]
      omega
    rw [hlarge hmax]
    exact throw _
  · exact h

end Lockstep

theorem mem_of_lookup {α β : Type} [BEq α] [LawfulBEq α] {l : List (α × β)} {a : α} {b : β} (h : l.lookup a = some b) :
    (a, b) ∈ l := by
  obtain ⟨l₁, l₂, rfl, -⟩ := lookup_eq_some_iff.1 h
  exact mem_append_right _ mem_cons_self

variable {err : Nat → Nat → MsgpackError}

theorem ends_take (length : Nat) : Ends (fun taken s => taken = s ∧ s.length = length)
    (fun bytes e => bytes.length < length ∧ e = err bytes.length length) (takeBytes err length) := by
  constructor
  · intro bytes s rest heq
    unfold takeBytes at heq
    split at heq
    · rename_i hlength
      cases heq
      refine ⟨bytes.take length, (take_append_drop length bytes).symm, rfl, ?_⟩
      rw [length_take, min_eq_left hlength]
    · cases heq
  · intro bytes e heq
    unfold takeBytes at heq
    split at heq
    · cases heq
    · cases heq
      exact ⟨by omega, rfl⟩

variable {k : Nat}

theorem ends_uint : Ends (fun taken n => taken = beBytes k n ∧ n < 256 ^ k)
    (fun bytes e => e = .unexpectedEOF ∨ 1 < k ∧ bytes.length < k ∧ e = err bytes.length k)
    (readUint (takeBytes err) k) := by
  unfold readUint
  split
  · rename_i hk
    subst hk
    refine .map ((Ends.byte _ fun _ => .inl rfl).mono ?_ fun _ _ he => he)
    rintro _ b rfl
    exact ⟨by simp [beBytes], by have hb := b.toNat_lt; omega⟩
  · refine .map ((ends_take k).mono ?_ fun _ _ he => .inr ⟨by omega, he⟩)
    rintro bytes _ ⟨rfl, rfl⟩
    exact ⟨(beBytes_ofBeBytes bytes).symm, ofBeBytes_lt bytes⟩

theorem lt_of_width {n : Nat} (hk : k ≤ 4) (hn : n < 256 ^ k) : n < 2 ^ 32 :=
  hn.trans_le (Nat.pow_le_pow_right (by decide) hk)

theorem uint_lt (hk : k ≤ 4) (rest : Bytes) (n : Nat) (rest' : Bytes)
    (h : readUint (takeBytes err) k rest = .ok (n, rest')) : n < 2 ^ 32 := by
  obtain ⟨taken, -, -, hlt⟩ := ends_uint.ok h
  exact lt_of_width hk hlt

theorem width_le_eight {code : UInt8} (h : (code, k) ∈ uintCodes ∨ (code, k) ∈ intCodes) : k ≤ 8 := by
  have hall : ∀ entry ∈ uintCodes ++ intCodes, entry.2 ≤ 8 := by decide
  exact hall (code, k) (mem_append.2 h)

theorem width_le_four {code : UInt8}
    (h : (code, k) ∈ strCodes ∨ (code, k) ∈ arrayCodes ∨ (code, k) ∈ mapCodes) : k ≤ 4 := by
  have hall : ∀ entry ∈ strCodes ++ (arrayCodes ++ mapCodes), entry.2 ≤ 4 := by decide
  exact hall (code, k) (mem_append.2 (h.imp_right mem_append.2))

/-- The decoder and the one with an `int` without bounds. -/
theorem lockstep_readValue {w total : Nat} (hw : w = 32 ∨ w = 64) (htotal : total < 2 ^ (w - 1)) (levels : Nat) :
    Lockstep total (readWide (shortError w total) levels) (readValue (readBytes w total) (2 ^ (w - 1) - 1) levels) := by
  induction levels with
  | zero => exact .throw _
  | succ levels ih =>
    refine Lockstep.byte.bind fun code => ?_
    refine .ite (fun _ => .pure _) fun _ => ?_
    refine .ite (fun _ => .pure _) fun _ => ?_
    refine .ite (fun _ => (Lockstep.bytes hw htotal (by omega)).map _) fun _ => ?_
    refine .ite (fun _ => ih.array _) fun _ => ?_
    refine .ite (fun _ => ih.mapping _) fun _ => ?_
    refine .ite (fun _ => .pure _) fun _ => ?_
    refine .ite (fun _ => .pure _) fun _ => ?_
    refine .ite (fun _ => .pure _) fun _ => ?_
    cases huint : uintCodes.lookup code with
    | some k => exact (Lockstep.uint hw htotal (width_le_eight (.inl (mem_of_lookup huint)))).map _
    | none =>
    cases hint : intCodes.lookup code with
    | some k => exact (Lockstep.uint hw htotal (width_le_eight (.inr (mem_of_lookup hint)))).map _
    | none =>
    cases hstr : strCodes.lookup code with
    | some k =>
      have hk : k ≤ 4 := width_le_four (.inl (mem_of_lookup hstr))
      refine (Lockstep.uint hw htotal (by omega)).bindOf (uint_lt hk) fun length hlength => ?_
      exact (Lockstep.bytes hw htotal hlength).map _
    | none =>
    cases harray : arrayCodes.lookup code with
    | some k =>
      have hk : k ≤ 4 := width_le_four (.inr (.inl (mem_of_lookup harray)))
      refine (Lockstep.uint hw htotal (by omega)).bindOf (uint_lt hk) fun length hlength => ?_
      exact (ih.array length).checked hw hlength fun hlarge => if_pos hlarge
    | none =>
    cases hmap : mapCodes.lookup code with
    | some k =>
      have hk : k ≤ 4 := width_le_four (.inr (.inr (mem_of_lookup hmap)))
      refine (Lockstep.uint hw htotal (by omega)).bindOf (uint_lt hk) fun length hlength => ?_
      exact (ih.mapping length).checked hw hlength fun hlarge => if_pos hlarge
    | none => exact .throw _

end Singlink.V2Board
