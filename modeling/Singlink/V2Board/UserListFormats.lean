import Singlink.V2Board.UserList
/-!
# One user list in two formats

The same records as JSON and as msgpack. `encoding/json` leaves a number as its text,
which `intValue` parses and clamps to the range of an `int64`; msgpack leaves an
`int64`, with the numbers beyond it reinterpreted. So the two formats give the same
users unless a number is too large for an `int64`, or a list for the msgpack decoder.
-/

namespace Singlink.V2Board

open Lib Lib.Codec Lib.Msgpack List Int64

/-! ## Numbers -/

theorem le_ofDigitChars (digits : List Char) (n : Nat) : n ≤ Nat.ofDigitChars 10 digits n := by
  induction digits generalizing n with
  | nil => exact le_refl n
  | cons c digits ih =>
    rw [Nat.ofDigitChars_cons]
    exact le_trans (by omega) (ih _)

theorem parseUintFrom_digits {digits : List Char} (hdigits : ∀ c ∈ digits, c.isDigit = true) {n : Nat} (hn : n < 2 ^ 64) :
    parseUintFrom n digits = some (min (Nat.ofDigitChars 10 digits n) (2 ^ 64 - 1)) := by
  induction digits generalizing n with
  | nil =>
    have hmin : min n (2 ^ 64 - 1) = n := by omega
    rw [parseUintFrom, Nat.ofDigitChars_nil, hmin]
  | cons c digits ih =>
    obtain ⟨hc, hrest⟩ := forall_mem_cons.1 hdigits
    rw [parseUintFrom, if_pos hc, Nat.ofDigitChars_cons, Nat.mul_comm 10 n]
    dsimp only
    split
    · -- more digits do not make it smaller
      have hle := le_ofDigitChars digits (n * 10 + (c.toNat - '0'.toNat))
      have hmin : min (Nat.ofDigitChars 10 digits (n * 10 + (c.toNat - '0'.toNat))) (2 ^ 64 - 1) = 2 ^ 64 - 1 := by
        omega
      rw [hmin]
    · exact ih hrest (by omega)

theorem isDigit_of_mem_repr {m : Nat} {c : Char} (hc : c ∈ m.repr.toList) : c.isDigit = true := by
  rw [Nat.toList_repr] at hc
  exact Nat.isDigit_of_mem_toDigits (by decide) (by decide) hc

theorem parseUint_repr (m : Nat) : parseUint m.repr.toList = some (min m (2 ^ 64 - 1)) := by
  have hne : m.repr.toList ≠ [] := by
    rw [Nat.toList_repr]
    exact Nat.toDigits_ne_nil
  rw [parseUint, if_neg hne, parseUintFrom_digits (fun c hc => isDigit_of_mem_repr hc) (by decide), Nat.toList_repr,
    Nat.ofDigitChars_toDigits (by decide) (by decide)]

/-- The number of an integer's text is the integer, clamped to the range of an `int64`. -/
theorem parseInt_toString (n : Int) : parseInt (toString n) = max (-2 ^ 63) (min n (2 ^ 63 - 1)) := by
  cases n with
  | ofNat m =>
    have htext : (toString (Int.ofNat m)).toList = m.repr.toList := rfl
    rw [parseInt, htext]
    split
    · rename_i digits heq
      exact absurd (isDigit_of_mem_repr (heq ▸ mem_cons_self)) (by decide)
    · rename_i digits heq
      exact absurd (isDigit_of_mem_repr (heq ▸ mem_cons_self)) (by decide)
    · rw [parseUint_repr, Option.getD_some, Int.ofNat_eq_natCast]
      omega
  | negSucc m =>
    have htext : (toString (Int.negSucc m)).toList = '-' :: m.succ.repr.toList := by
      rw [show toString (Int.negSucc m) = "-" ++ m.succ.repr from rfl, String.toList_append]
      rfl
    rw [parseInt, htext]
    show -((min ((parseUint m.succ.repr.toList).getD 0) (2 ^ 63) : Nat) : Int) = _
    rw [parseUint_repr, Option.getD_some]
    omega

/-- The value a JSON text stands for: integers as their decimal digits. -/
def jsonNumber (n : Int) : GoAny := .number (toString n)

def jsonAny : Doc → GoAny := anyOf jsonNumber

def msgpackNumber (n : Int) : GoAny := .int64 (.ofInt n)

/-! ## Records -/

abbrev Record := List (Codec.Bytes × Doc)

theorem lastValue_map {α β : Type} (f : α → β) (entries : List (Codec.Bytes × α)) (key : Codec.Bytes) :
    lastValue (entries.map fun entry => (entry.1, f entry.2)) key = (lastValue entries key).map f := by
  unfold lastValue
  rw [filter_map, getLast?_map, Option.map_map, Option.map_map]
  rfl

section Fields

variable (number : Int → GoAny)

/-- A record as a map, for a decoder that makes `number n` of an integer. -/
def fields (record : Record) (key : Codec.Bytes) : Option GoAny := (lastValue record key).map (anyOf number)

variable (record : Record)

theorem anyOf_map : anyOf number (.map record) = .map (fields number record) := by
  rw [anyOf, anyEntries_eq]
  exact congrArg GoAny.map (funext fun key => lastValue_map _ record key)

def docText : Option Doc → Codec.Bytes
  | some (.str s) => s
  | _ => []

def nestedText (outer : Option Doc) (key : String) : Codec.Bytes :=
  match outer with
  | some (.map record) => docText (lastValue record (utf8 key))
  | _ => []

/-- The value that `firstInt` takes. -/
def firstDoc (record : Record) : List String → Option Doc
  | [] => none
  | key :: keys =>
    match lastValue record (utf8 key) with
    | some d => some d
    | none => firstDoc record keys

variable {number}

/-- A number is no text and no map. -/
def Numeric (number : Int → GoAny) : Prop := ∀ n, stringValue (number n) = [] ∧ mapValue (number n) = none

theorem numeric_json : Numeric jsonNumber := fun _ => ⟨rfl, rfl⟩

theorem numeric_msgpack : Numeric msgpackNumber := fun _ => ⟨rfl, rfl⟩

theorem stringValue_index (hnumber : Numeric number) (record : Record) (key : String) :
    stringValue (index (fields number record) key) = docText (lastValue record (utf8 key)) := by
  rw [index, fields]
  cases lastValue record (utf8 key) with
  | none => rfl
  | some d =>
    cases d with
    | int n => exact (hnumber n).1
    | _ => rfl

theorem nestedString_fields (hnumber : Numeric number) (record : Record) (outer key : String) :
    nestedString (fields number record) outer key = nestedText (lastValue record (utf8 outer)) key := by
  rw [nestedString, index, fields]
  cases lastValue record (utf8 outer) with
  | none => rfl
  | some d =>
    cases d with
    | int n =>
      rw [Option.map_some, anyOf, Option.getD_some, (hnumber n).2]
      rfl
    | map nested =>
      rw [Option.map_some, anyOf_map]
      exact stringValue_index hnumber nested key
    | _ => rfl

theorem hasKey_fields (key : String) : hasKey (fields number record) key = (lastValue record (utf8 key)).isSome := by
  rw [hasKey, fields, Option.isSome_map]

theorem firstInt_fields (keys : List String) :
    firstInt (fields number record) keys = ((firstDoc record keys).map fun d => intValue (anyOf number d)).getD 0 := by
  induction keys with
  | nil => rfl
  | cons key keys ih =>
    rw [firstInt, firstDoc, fields]
    cases lastValue record (utf8 key) with
    | none => exact ih
    | some d => rfl

end Fields

/-! ## Where the numbers agree -/

/-- The fields that are an `int`, and those that are an `int64`, with their keys. -/
def intFields : List (List String) :=
  [["id", "uid"], ["speed_limit"], ["device_limit"], ["port"], ["max_connections"], ["max_ips"]]

def int64Fields : List (List String) := [["quota_bytes"], ["expires_at"]]

def FitsInt64 : Doc → Prop
  | .int n => n < 2 ^ 63
  | _ => True

/-- A number whose lowest `w` bits are those of the `int64` next to it. With 32 bits these
may be right by chance: the largest `int64` has the number -1 there. -/
def FitsInt (w : Nat) : Doc → Prop
  | .int n => n < 2 ^ 63 ∨ w = 32 ∧ n % 2 ^ 32 = 2 ^ 32 - 1
  | _ => True

/-- What `userInfo` reads of a record as numbers fits. -/
def NumbersFit (w : Nat) (record : Record) : Prop :=
  (∀ keys ∈ intFields, ∀ d ∈ firstDoc record keys, FitsInt w d) ∧
    ∀ keys ∈ int64Fields, ∀ d ∈ firstDoc record keys, FitsInt64 d

/-- The integers of a document that msgpack can write. -/
def InRange : Doc → Prop
  | .int n => -2 ^ 63 ≤ n ∧ n < 2 ^ 64
  | _ => True

theorem toInt_intValue_json (n : Int) : (intValue (jsonNumber n)).toInt = max (-2 ^ 63) (min n (2 ^ 63 - 1)) := by
  rw [jsonNumber, intValue, parseInt_toString, toInt_ofInt]
  simp only [Int.bmod, size]
  omega

variable {d : Doc}

theorem intValue_eq_iff (h : InRange d) : intValue (jsonAny d) = intValue (msgpackAny d) ↔ FitsInt64 d := by
  cases d with
  | int n =>
    obtain ⟨hlow, hhigh⟩ := h
    show intValue (jsonNumber n) = .ofInt n ↔ n < 2 ^ 63
    rw [← toInt_inj, toInt_intValue_json, toInt_ofInt]
    simp only [Int.bmod, size]
    omega
  | _ => exact ⟨fun _ => trivial, fun _ => rfl⟩

theorem FitsInt64.fitsInt (h : FitsInt64 d) (w : Nat) : FitsInt w d := by
  cases d with
  | int n => exact .inl h
  | _ => trivial

theorem goInt_eq_iff {w : Nat} (hw : w = 32 ∨ w = 64) (h : InRange d) :
    goInt w (intValue (jsonAny d)) = goInt w (intValue (msgpackAny d)) ↔ FitsInt w d := by
  by_cases hfits : FitsInt64 d
  · rw [(intValue_eq_iff h).2 hfits]
    exact ⟨fun _ => hfits.fitsInt w, fun _ => rfl⟩
  cases d with
  | int n =>
    obtain ⟨-, hhigh⟩ := h
    replace hfits : 2 ^ 63 ≤ n := Int.not_lt.1 hfits
    have hclamped : max (-2 ^ 63) (min n (2 ^ 63 - 1)) = 2 ^ 63 - 1 := by omega
    show goInt w (intValue (jsonNumber n)) = goInt w (.ofInt n) ↔ n < 2 ^ 63 ∨ w = 32 ∧ n % 2 ^ 32 = 2 ^ 32 - 1
    rw [or_iff_right (Int.not_lt.2 hfits)]
    unfold goInt
    rw [← toInt_inj, toInt_intValue_json, toInt_ofInt, toInt_ofInt, toInt_ofInt]
    rcases hw with rfl | rfl
    · have hlowest : (n.bmod size).bmod (2 ^ 32) = n.bmod (2 ^ 32) := Int.bmod_bmod_of_dvd (by decide)
      rw [and_iff_right rfl]
      simp only [Int.bmod, size]
      omega
    · refine ⟨fun heq => ?_, fun hnarrow => absurd hnarrow.1 (by decide)⟩
      simp only [Int.bmod, size] at heq
      omega
  | _ => exact absurd trivial hfits

theorem boolValue_json (h : InRange d) : boolValue (jsonAny d) = boolValue (msgpackAny d) := by
  cases d with
  | int n =>
    obtain ⟨hlow, hhigh⟩ := h
    show (intValue (jsonNumber n) != 0) = (ofInt n != 0)
    have hiff : intValue (jsonNumber n) = 0 ↔ ofInt n = 0 := by
      rw [← toInt_inj, ← toInt_inj, toInt_intValue_json, toInt_ofInt, toInt_zero]
      simp only [Int.bmod, size]
      omega
    rw [Bool.eq_iff_iff, bne_iff_ne, bne_iff_ne, ne_eq, hiff]
  | _ => rfl

variable {record : Record}

theorem mem_of_lastValue {key : Codec.Bytes} (h : lastValue record key = some d) : ∃ entry ∈ record, entry.2 = d := by
  obtain ⟨entry, hlast, hvalue⟩ := Option.map_eq_some_iff.1 h
  exact ⟨entry, mem_of_mem_filter (mem_of_getLast? hlast), hvalue⟩

theorem mem_of_firstDoc {keys : List String} (h : firstDoc record keys = some d) : ∃ entry ∈ record, entry.2 = d := by
  induction keys with
  | nil => cases h
  | cons key keys ih =>
    rw [firstDoc] at h
    split at h
    · rename_i d' hvalue
      cases h
      exact mem_of_lastValue hvalue
    · exact ih h

theorem numbersFit_of_int64 (h : ∀ entry ∈ record, FitsInt64 entry.2) (w : Nat) : NumbersFit w record := by
  constructor
  · intro keys _ d hd
    obtain ⟨entry, hentry, rfl⟩ := mem_of_firstDoc hd
    exact (h entry hentry).fitsInt w
  · intro keys _ d hd
    obtain ⟨entry, hentry, rfl⟩ := mem_of_firstDoc hd
    exact h entry hentry

section Record

variable {record : Record} (hrange : ∀ entry ∈ record, InRange entry.2)

include hrange

/-- A field that is `convert` of a number agrees where the conversion of the number that
it takes does. -/
theorem firstInt_eq_iff (convert : Int64 → Int64) {fits : Doc → Prop}
    (h : ∀ d, InRange d → (convert (intValue (jsonAny d)) = convert (intValue (msgpackAny d)) ↔ fits d))
    (keys : List String) :
    convert (firstInt (fields jsonNumber record) keys) = convert (firstInt (fields msgpackNumber record) keys) ↔
      ∀ d ∈ firstDoc record keys, fits d := by
  rw [firstInt_fields, firstInt_fields]
  cases hfirst : firstDoc record keys with
  | none => exact ⟨fun _ => nofun, fun _ => rfl⟩
  | some d =>
    obtain ⟨entry, hentry, rfl⟩ := mem_of_firstDoc hfirst
    exact (h entry.2 (hrange entry hentry)).trans ⟨fun hfits => by rintro _ ⟨⟩; exact hfits, fun hall => hall _ rfl⟩

theorem boolValue_index (key : String) :
    boolValue (index (fields jsonNumber record) key) = boolValue (index (fields msgpackNumber record) key) := by
  rw [index, index, fields, fields]
  cases hvalue : lastValue record (utf8 key) with
  | none => rfl
  | some d =>
    obtain ⟨entry, hentry, rfl⟩ := mem_of_lastValue hvalue
    exact boolValue_json (hrange entry hentry)

/-- One record gives the same user in both formats if and only if its numbers fit. -/
theorem userInfo_eq_iff {w : Nat} (hw : w = 32 ∨ w = 64) :
    userInfo w (fields jsonNumber record) = userInfo w (fields msgpackNumber record) ↔ NumbersFit w record := by
  have hint := firstInt_eq_iff hrange (goInt w) fun d hd => goInt_eq_iff hw hd
  have hint64 : ∀ keys, firstInt (fields jsonNumber record) keys = firstInt (fields msgpackNumber record) keys ↔
      ∀ d ∈ firstDoc record keys, FitsInt64 d := firstInt_eq_iff hrange id fun d hd => intValue_eq_iff hd
  simp [userInfo, userUUID, stringValue_index numeric_json, stringValue_index numeric_msgpack,
    nestedString_fields numeric_json, nestedString_fields numeric_msgpack, hasKey_fields, boolValue_index hrange,
    hint, hint64, NumbersFit, intFields, int64Fields, and_assoc]

end Record

/-! ## Lists -/

inductive Wrapping where
  | bare
  | users
  | data

def Wrapping.wrap : Wrapping → Doc → Doc
  | bare, list => list
  | users, list => .map [(utf8 "users", list)]
  | data, list => .map [(utf8 "data", list)]

def Wrapping.list (wrapping : Wrapping) (records : List Record) : Doc := wrapping.wrap (.arr (records.map .map))

theorem fields_singleton (number : Int → GoAny) (key key' : Codec.Bytes) (d : Doc) :
    fields number [(key, d)] key' = if key = key' then some (anyOf number d) else none := by
  unfold fields lastValue
  split
  · rename_i hkey
    rw [filter_cons_of_pos (by simpa using hkey)]
    rfl
  · rename_i hkey
    rw [filter_cons_of_neg (by simpa using hkey)]
    rfl

theorem unwrapUserList_wrap (number : Int → GoAny) (wrapping : Wrapping) (l : List Doc) :
    unwrapUserList (anyOf number (wrapping.wrap (.arr l))) = .arr (l.map (anyOf number)) := by
  have harr : anyOf number (.arr l) = .arr (l.map (anyOf number)) := by rw [anyOf, anyList_eq]
  cases wrapping with
  | bare =>
    rw [Wrapping.wrap, harr]
    rfl
  | users =>
    rw [Wrapping.wrap, anyOf_map, unwrapUserList, fields_singleton, if_pos rfl, harr]
  | data =>
    have hkey : utf8 "data" ≠ utf8 "users" := by decide
    rw [Wrapping.wrap, anyOf_map, unwrapUserList, fields_singleton, fields_singleton, harr]
    rfl

theorem userListFromAny_list (w : Nat) (number : Int → GoAny) (wrapping : Wrapping) (records : List Record) :
    userListFromAny w (anyOf number (wrapping.list records)) =
      .ok (records.map fun record => userInfo w (fields number record)) := by
  have huser : ∀ record : Record, userFromAny w (anyOf number (.map record)) = pure (userInfo w (fields number record)) := by
    intro record
    rw [anyOf_map]
    rfl
  rw [Wrapping.list, userListFromAny, unwrapUserList_wrap]
  show ((records.map Doc.map).map (anyOf number)).mapM (userFromAny w) = _
  rw [map_map, mapM_map]
  exact (congrArg (mapM · records) (funext huser)).trans mapM_pure

section Msgpack

variable {w : Nat} {wrapping : Wrapping} {records : List Record} {body : Codec.Bytes} (hw : w = 32 ∨ w = 64)
  (h : Encodes (wrapping.list records) body)

theorem inRange_of_encodes {bytes : Codec.Bytes} (h : Encodes d bytes) : InRange d := by
  cases d with
  | int n => exact h.int_range
  | _ => trivial

include h

theorem inRange_of_list (hrecord : record ∈ records) : ∀ entry ∈ record, InRange entry.2 := by
  intro entry hentry
  have hlist : ∃ part, Encodes (.arr (records.map .map)) part := by
    cases wrapping with
    | bare => exact ⟨body, h⟩
    | users | data => exact h.of_mem_map mem_cons_self
  obtain ⟨part, hpart⟩ := hlist
  obtain ⟨part, hpart⟩ := hpart.of_mem_arr (mem_map_of_mem hrecord)
  obtain ⟨part, hpart⟩ := hpart.of_mem_map hentry
  exact inRange_of_encodes hpart

include hw

theorem msgpackUserList_list (hbody : body.length < 2 ^ (w - 1))
    (hwithin : (wrapping.list records).Within maxMsgpackContainerLength (maxMsgpackDepth + 1)) :
    msgpackUserList w body = .ok (records.map fun record => userInfo w (fields msgpackNumber record)) := by
  have hdecode := (decodeMsgpack_eq_ok hw hbody).2 ⟨_, h, hwithin, rfl⟩
  rw [msgpackUserList, hdecode]
  show Except.mapError _ (userListFromAny w (anyOf msgpackNumber (wrapping.list records))) = _
  rw [userListFromAny_list]
  rfl

/-- A list beyond the limits of the decoder is not decoded, in either format. -/
theorem not_decoded_of_not_within (hbody : body.length < 2 ^ (w - 1))
    (hwithin : ¬ (wrapping.list records).Within maxMsgpackContainerLength (maxMsgpackDepth + 1))
    (json : JSONDecoder) (parseMediaType : String → Option String) (contentType : String) (users : List PanelUserInfo) :
    decodeUserList w json parseMediaType body contentType ≠ .ok users := by
  intro hok
  have hfails : ∃ err, readWide (shortError w body.length) (maxMsgpackDepth + 1) body = .error err := by
    rcases decides_encoded h (maxMsgpackDepth + 1) [] with ⟨hin, -⟩ | ⟨-, err, herr⟩
    · exact absurd hin hwithin
    · exact ⟨err, by rwa [append_nil] at herr⟩
  obtain ⟨err, hfails⟩ := hfails
  rcases (decodeUserList_eq_ok w json parseMediaType body contentType users).1 hok with hmsgpack | hjson
  · obtain ⟨value, hvalue⟩ := decodes_of_msgpackUserList hmsgpack
    rw [decodeMsgpack_eq hw hbody] at hvalue
    have hread := decodeWith_eq_ok.1 hvalue
    rw [← readWide, hfails] at hread
    cases hread
  · -- JSON starts with what is a whole value in msgpack
    obtain ⟨b, tail, rfl, hscalar⟩ := scalarCode_of_jsonUserList hjson
    rcases readValue_scalar hscalar tail with ⟨n, hread⟩ | hread
    · rw [← readWide, hfails] at hread
      cases hread
    · rw [← readWide, hfails] at hread
      cases hread

end Msgpack

/-- A list of records gives the same users as JSON and as msgpack, each wrapped or not,
if and only if it is within the limits of the msgpack decoder and its numbers fit. -/
theorem formats_agree_iff {w : Nat} (hw : w = 32 ∨ w = 64) {json : JSONDecoder} {parseMediaType : String → Option String}
    {wrapping wrapping' : Wrapping} {records : List Record} {body body' : Codec.Bytes} {contentType contentType' : String}
    (hjson : json.decode body = .ok (jsonAny (wrapping.list records)))
    (hmsgpack : Encodes (wrapping'.list records) body') (hbody : body'.length < 2 ^ (w - 1)) :
    decodeUserList w json parseMediaType body contentType = decodeUserList w json parseMediaType body' contentType' ↔
      (wrapping'.list records).Within maxMsgpackContainerLength (maxMsgpackDepth + 1) ∧
        ∀ record ∈ records, NumbersFit w record := by
  rw [(decodeUserList_eq_ok w json parseMediaType body contentType _).2
    (.inr (jsonUserList_eq_ok.2 ⟨_, hjson, userListFromAny_list w jsonNumber wrapping records⟩))]
  by_cases hwithin : (wrapping'.list records).Within maxMsgpackContainerLength (maxMsgpackDepth + 1)
  · have husers := msgpackUserList_list hw hmsgpack hbody hwithin
    rw [(decodeUserList_eq_ok w json parseMediaType body' contentType' _).2 (.inl husers), Except.ok.injEq,
      map_inj_left, and_iff_right hwithin]
    exact forall₂_congr fun record hrecord => userInfo_eq_iff (inRange_of_list hmsgpack hrecord) hw
  · refine ⟨fun heq => ?_, fun hboth => absurd hboth.1 hwithin⟩
    exact absurd heq.symm (not_decoded_of_not_within hw hmsgpack hbody hwithin json parseMediaType contentType' _)

/-! ## A large quota -/

/-- A decoder that knows one text, a list. -/
def oneText (rest : Codec.Bytes) (l : List GoAny) : JSONDecoder where
  decode body := if body = 0x5b :: rest then .ok (.arr l) else .error "EOF"
  arr_start := by
    intro body l' h
    split at h
    · rename_i heq
      exact ⟨[], rest, heq, nofun⟩
    · cases h
  map_start := by
    intro body m h
    split at h <;> cases h

def quotaRecord (n : Int) : Record := [(utf8 "quota_bytes", .int n)]

def quotaText (n : Int) : Codec.Bytes := utf8 ("\x7b\"quota_bytes\":" ++ toString n ++ "\x7d]")

/-- Its msgpack form with eight bytes for the number. -/
def quotaForm (n : Nat) : Codec.Bytes := [0x91, 0x81, 0xab] ++ utf8 "quota_bytes" ++ 0xcf :: beBytes 8 n

def quotaJSON (n : Int) : JSONDecoder := oneText (quotaText n) [.map (fields jsonNumber (quotaRecord n))]

theorem decode_quotaJSON (n : Int) :
    (quotaJSON n).decode (0x5b :: quotaText n) = .ok (jsonAny (Wrapping.bare.list [quotaRecord n])) := by
  have hany : jsonAny (Wrapping.bare.list [quotaRecord n]) = .arr [.map (fields jsonNumber (quotaRecord n))] := by
    rw [← anyOf_map]
    rfl
  rw [hany]
  exact if_pos rfl

theorem encodes_quotaForm {n : Nat} (hn : n < 2 ^ 64) : Encodes (Wrapping.bare.list [quotaRecord n]) (quotaForm n) := by
  have hkey : StrForm (utf8 "quota_bytes") ([0xab] ++ utf8 "quota_bytes") := ⟨.fix (by decide)⟩
  have hnumber : Encodes (.int n) (0xcf :: beBytes 8 n) := .int (.uint (by decide) hn)
  have hrecord : Encodes (.map (quotaRecord n)) _ := @Encodes.map (quotaRecord n) [0x81]
    [([0xab] ++ utf8 "quota_bytes", 0xcf :: beBytes 8 n)] (.fix (by decide : 1 < 16)) (.cons hkey .nil) (.cons hnumber .nil)
  have hlist : Encodes (.arr [.map (quotaRecord n)]) _ :=
    @Encodes.arr [.map (quotaRecord n)] [0x91] [_] (.fix (by decide : 1 < 16)) (.cons hrecord .nil)
  have hbytes : quotaForm n = [0x91] ++ [[0x81] ++ ([([0xab] ++ utf8 "quota_bytes", 0xcf :: beBytes 8 n)].map
      fun part => part.1 ++ part.2).flatten].flatten := by
    simp [quotaForm]
  rw [hbytes]
  exact hlist

/-- Where the quota is 2³¹ bytes, both formats give it. -/
theorem formats_agree_small :
    decodeUserList 64 (quotaJSON (2 ^ 31)) (fun _ => none) (0x5b :: quotaText (2 ^ 31)) "application/json" =
      decodeUserList 64 (quotaJSON (2 ^ 31)) (fun _ => none) (quotaForm (2 ^ 31)) "" := by
  refine (formats_agree_iff (.inr rfl) (decode_quotaJSON _) (encodes_quotaForm (by decide)) (by decide)).2 ⟨?_, ?_⟩
  · exact ⟨by decide, forall_mem_singleton.2 ⟨by decide, forall_mem_singleton.2 trivial⟩⟩
  · refine forall_mem_singleton.2 (numbersFit_of_int64 (forall_mem_singleton.2 ?_) 64)
    show ((2 ^ 31 : Nat) : Int) < 2 ^ 63
    decide

/-- A quota of 2⁶³ bytes is the largest `int64` in JSON, and the least in msgpack. -/
theorem large_quota_differs :
    (quotaJSON (2 ^ 63)).decode (0x5b :: quotaText (2 ^ 63)) =
        .ok (jsonAny (Wrapping.bare.list [quotaRecord (2 ^ 63)])) ∧
      Encodes (Wrapping.bare.list [quotaRecord (2 ^ 63)]) (quotaForm (2 ^ 63)) ∧
      decodeUserList 64 (quotaJSON (2 ^ 63)) (fun _ => none) (0x5b :: quotaText (2 ^ 63)) "application/json" =
        .ok [{ quotaBytes := 9223372036854775807 }] ∧
      decodeUserList 64 (quotaJSON (2 ^ 63)) (fun _ => none) (quotaForm (2 ^ 63)) "application/x-msgpack" =
        .ok [{ quotaBytes := -9223372036854775808 }] :=
  ⟨decode_quotaJSON _, encodes_quotaForm (by decide), by decide +kernel, by decide +kernel⟩

end Singlink.V2Board
