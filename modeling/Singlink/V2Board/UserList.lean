import Singlink.V2Board.MsgpackGrammar
import Singlink.V2Board.Types
/-!
# The user list of a panel

`decodeUserList` of `service/v2board/client.go` and `userListFromAny` of
`msgpack.go`. A panel sends its users as msgpack or as JSON, and the header of the
response need not say which. A body that is a list in one format is none in the
other, and whatever the header says, the format it is in is tried.
-/

namespace Singlink.V2Board

open Lib Lib.Codec Lib.Msgpack Except

/-! ## Values -/

/-- The loop of `strconv.ParseUint(s, 10, 64)`. A character that is no digit is a
syntax error; at a number out of range the loop ends with the largest one. -/
def parseUintFrom : Nat → List Char → Option Nat
  | n, [] => some n
  | n, c :: rest =>
    if c.isDigit then
      let n' := n * 10 + (c.toNat - '0'.toNat)
      if 2 ^ 64 ≤ n' then some (2 ^ 64 - 1) else parseUintFrom n' rest
    else none

def parseUint (s : List Char) : Option Nat := if s = [] then none else parseUintFrom 0 s

/-- The number that `strconv.ParseInt(text, 10, 64)` returns, beside an error or not. -/
def parseInt (text : String) : Int :=
  match text.toList with
  | '-' :: digits => -(min ((parseUint digits).getD 0) (2 ^ 63) : Nat)
  | '+' :: digits => (min ((parseUint digits).getD 0) (2 ^ 63 - 1) : Nat)
  | digits => (min ((parseUint digits).getD 0) (2 ^ 63 - 1) : Nat)

def intValue : GoAny → Int64
  | .int64 n => n
  | .number text => .ofInt (parseInt text)
  | _ => 0

def stringValue : GoAny → Codec.Bytes
  | .str s => s
  | _ => []

def boolValue : GoAny → Bool
  | .bool b => b
  | value => intValue value != 0

def mapValue : GoAny → Option (Codec.Bytes → Option GoAny)
  | .map values => some values
  | _ => none

/-! ## Users -/

section UserMap

variable (values : Codec.Bytes → Option GoAny)

def index (key : String) : GoAny := (values (utf8 key)).getD .nil

def hasKey (key : String) : Bool := (values (utf8 key)).isSome

def firstInt : List String → Int64
  | [] => 0
  | key :: keys =>
    match values (utf8 key) with
    | some value => intValue value
    | none => firstInt keys

/-- The text under `key` in the map under `outer`. -/
def nestedString (outer key : String) : Codec.Bytes :=
  match mapValue (index values outer) with
  | some nested => stringValue (index nested key)
  | none => []

def userUUID : Codec.Bytes :=
  if stringValue (index values "uuid") ≠ [] then stringValue (index values "uuid")
  else if stringValue (index values "secret") ≠ [] then stringValue (index values "secret")
  else if nestedString values "v2ray_user" "uuid" ≠ [] then nestedString values "v2ray_user" "uuid"
  else nestedString values "trojan_user" "password"

end UserMap

/-- `int(n)` where an `int` has `w` bits. -/
def goInt (w : Nat) (n : Int64) : Int64 := .ofInt (Int.bmod n.toInt (2 ^ w))

def userInfo (w : Nat) (userMap : Codec.Bytes → Option GoAny) : PanelUserInfo where
  id := goInt w (firstInt userMap ["id", "uid"])
  uuid := userUUID userMap
  username := stringValue (index userMap "username")
  password := stringValue (index userMap "password")
  speedLimit := goInt w (firstInt userMap ["speed_limit"])
  deviceLimit := goInt w (firstInt userMap ["device_limit"])
  label := stringValue (index userMap "label")
  secret := stringValue (index userMap "secret")
  linkSecret := stringValue (index userMap "link_secret")
  port := goInt w (firstInt userMap ["port"])
  cipher := stringValue (index userMap "cipher")
  enabled := boolValue (index userMap "enabled")
  enabledSet := hasKey userMap "enabled"
  maxConnections := goInt w (firstInt userMap ["max_connections"])
  maxIPs := goInt w (firstInt userMap ["max_ips"])
  quotaBytes := firstInt userMap ["quota_bytes"]
  expiresAt := firstInt userMap ["expires_at"]
  expiresOn := stringValue (index userMap "expires_on")

def unwrapUserList (value : GoAny) : GoAny :=
  match value with
  | .map values =>
    match values (utf8 "users") with
    | some users => users
    | none => (values (utf8 "data")).getD value
  | _ => value

/-- A user of the list, which must be a map. -/
def userFromAny (w : Nat) : GoAny → Except String PanelUserInfo
  | .map userMap => .ok (userInfo w userMap)
  | rawUser => .error ("v2board: unexpected user payload " ++ rawUser.typeName)

def userListFromAny (w : Nat) (value : GoAny) : Except String (List PanelUserInfo) :=
  match unwrapUserList value with
  | .arr rawUsers => rawUsers.mapM (userFromAny w)
  | value => .error ("v2board: unexpected user list payload " ++ value.typeName)

/-! ## The two formats -/

def jsonSpaces : List UInt8 := [0x20, 0x09, 0x0a, 0x0d]

/-- A decoder of `encoding/json` with `UseNumber`, which reads the first value of a
text. An array or an object that it reads starts with its bracket, after white space. -/
structure JSONDecoder where
  decode : Codec.Bytes → Except String GoAny
  arr_start {body : Codec.Bytes} {l : List GoAny} : decode body = .ok (.arr l) →
    ∃ space rest, body = space ++ 0x5b :: rest ∧ ∀ b ∈ space, b ∈ jsonSpaces
  map_start {body : Codec.Bytes} {m : Codec.Bytes → Option GoAny} : decode body = .ok (.map m) →
    ∃ space rest, body = space ++ 0x7b :: rest ∧ ∀ b ∈ space, b ∈ jsonSpaces

/-- How `decodeUserList` can fail. -/
inductive UserListError where
  | failed (message : String)
  /-- the msgpack decoder runs into a slice out of range -/
  | panic
  deriving DecidableEq

def msgpackUserList (w : Nat) (body : Codec.Bytes) : Except UserListError (List PanelUserInfo) :=
  match decodeMsgpack w body with
  | .error .panic => .error .panic
  | .error err => .error (.failed err.message)
  | .ok decoded => (userListFromAny w decoded).mapError .failed

/-- The body as JSON, after msgpack was tried and failed with `msgpackError`. -/
def jsonUserList (w : Nat) (json : JSONDecoder) (msgpackError : Option String) (body : Codec.Bytes) :
    Except UserListError (List PanelUserInfo) :=
  match json.decode body with
  | .error err =>
    match msgpackError with
    | some tried => .error (.failed ("v2board: decode user list msgpack: " ++ tried ++ "; decode json: " ++ err))
    | none => .error (.failed ("v2board: decode user list json: " ++ err))
  | .ok decoded =>
    match userListFromAny w decoded with
    | .error err =>
      match msgpackError with
      | some tried => .error (.failed ("v2board: decode user list msgpack: " ++ tried ++ "; decode json shape: " ++ err))
      | none => .error (.failed err)
    | .ok users => .ok users

def msgpackTypes : List String :=
  ["application/x-msgpack", "application/msgpack", "application/vnd.msgpack", "binary/message-pack"]

/-- The first byte that is no white space is no bracket of JSON. -/
def looksLikeMsgpack (body : Codec.Bytes) : Bool :=
  match GoStrings.trimSpaceBytes body with
  | [] => false
  | b :: _ => b != 0x7b && b != 0x5b

section DecodeUserList

/-! `parseMediaType` is `mime.ParseMediaType`, with `none` for its errors. -/

variable (w : Nat) (json : JSONDecoder) (parseMediaType : String → Option String)

def shouldTryMsgpack (body : Codec.Bytes) (contentType : String) : Bool :=
  (parseMediaType contentType).any (msgpackTypes.contains ·) || looksLikeMsgpack body

def decodeUserList (body : Codec.Bytes) (contentType : String) : Except UserListError (List PanelUserInfo) :=
  if shouldTryMsgpack parseMediaType body contentType then
    match msgpackUserList w body with
    | .error (.failed tried) => jsonUserList w json (some tried) body
    | result => result
  else jsonUserList w json none body

end DecodeUserList

/-! ## Which format a body is in -/

/-- The codes of the integers that have no further bytes, and of `false`. -/
def ScalarCode (b : UInt8) : Prop := b.toNat ≤ 0x7f ∨ 0xe0 ≤ b.toNat ∨ b = 0xc2

instance (b : UInt8) : Decidable (ScalarCode b) := inferInstanceAs (Decidable (_ ∨ _))

theorem readValue_scalar {readBytes : Nat → MsgpackReader Codec.Bytes} {maxInt levels : Nat} {b : UInt8} (h : ScalarCode b)
    (rest : Codec.Bytes) : (∃ n, readValue readBytes maxInt (levels + 1) (b :: rest) = .ok (.int64 n, rest)) ∨
      readValue readBytes maxInt (levels + 1) (b :: rest) = .ok (.bool false, rest) := by
  rcases h with hpositive | hnegative | rfl
  · refine .inl ⟨.ofNat b.toNat, ?_⟩
    show (if b.toNat ≤ 0x7f then _ else _ : MsgpackReader GoAny) rest = _
    rw [if_pos hpositive]
    rfl
  · refine .inl ⟨.ofInt (b.toNat - 256), ?_⟩
    show (if b.toNat ≤ 0x7f then _ else _ : MsgpackReader GoAny) rest = _
    rw [if_neg (by omega), if_pos hnegative]
    rfl
  · exact .inr rfl

theorem msgpackUserList_scalar (w : Nat) {b : UInt8} (h : ScalarCode b) (rest : Codec.Bytes) :
    ∃ message, msgpackUserList w (b :: rest) = .error (.failed message) := by
  unfold msgpackUserList decodeMsgpack decodeWith
  rcases readValue_scalar h rest with ⟨n, hread⟩ | hread
  · rw [hread]
    cases rest with
    | nil | cons c rest => exact ⟨_, rfl⟩
  · rw [hread]
    cases rest with
    | nil => exact ⟨_, rfl⟩
    | cons c rest => exact ⟨_, rfl⟩

variable {body : Codec.Bytes} {w : Nat}

theorem looksLikeMsgpack_of_not_failed
    (h : ∀ message, msgpackUserList w body ≠ .error (.failed message)) : looksLikeMsgpack body = true := by
  cases body with
  | nil => exact absurd rfl (h _)
  | cons b rest =>
    have hcode : ¬ ScalarCode b := by
      intro hscalar
      obtain ⟨message, hfailed⟩ := msgpackUserList_scalar w hscalar rest
      exact h message hfailed
    have hspaces : ∀ part ∈ GoStrings.spaces, ∀ c ∈ part.head?, ScalarCode c := by decide +kernel
    have hhead := GoStrings.head?_trimSpaceBytes (fun part hpart heq => hcode (hspaces part hpart b heq)) rest
    unfold looksLikeMsgpack
    split
    · rename_i heq
      rw [heq] at hhead
      cases hhead
    · rename_i c tail heq
      rw [heq] at hhead
      cases hhead
      rw [Bool.and_eq_true, bne_iff_ne, bne_iff_ne]
      constructor
      · rintro rfl
        exact hcode (.inl (by decide))
      · rintro rfl
        exact hcode (.inl (by decide))

theorem scalarCode_of_json {space rest : Codec.Bytes} {bracket : UInt8} (hbracket : ScalarCode bracket)
    (hspace : ∀ b ∈ space, b ∈ jsonSpaces) : ∃ b tail, space ++ bracket :: rest = b :: tail ∧ ScalarCode b := by
  have hspaces : ∀ b ∈ jsonSpaces, ScalarCode b := by decide +kernel
  cases space with
  | nil => exact ⟨bracket, rest, rfl, hbracket⟩
  | cons b space => exact ⟨b, space ++ bracket :: rest, rfl, hspaces b (hspace b List.mem_cons_self)⟩

variable {users : List PanelUserInfo} {tried : Option String}

/-- Only an array or an object is a user list. -/
theorem shape_of_userList {value : GoAny} (h : userListFromAny w value = .ok users) :
    (∃ l, value = .arr l) ∨ ∃ m, value = .map m := by
  cases value with
  | arr l => exact .inl ⟨l, rfl⟩
  | map m => exact .inr ⟨m, rfl⟩
  | _ => cases h

theorem decodes_of_msgpackUserList
    (h : msgpackUserList w body = .ok users) : ∃ value, decodeMsgpack w body = .ok value := by
  unfold msgpackUserList at h
  split at h
  · cases h
  · cases h
  · exact ⟨_, ‹_›⟩

variable {json : JSONDecoder}

theorem jsonUserList_eq_ok : jsonUserList w json tried body = .ok users ↔
      ∃ value, json.decode body = .ok value ∧ userListFromAny w value = .ok users := by
  unfold jsonUserList
  split
  · rename_i err hdecode
    rw [hdecode]
    cases tried <;> exact ⟨nofun, fun ⟨_, h, _⟩ => nomatch h⟩
  · rename_i value hdecode
    rw [hdecode]
    split
    · rename_i err hshape
      have hnone : ¬ ∃ value', (.ok value : Except String GoAny) = .ok value' ∧ userListFromAny w value' = .ok users := by
        rintro ⟨value', heq, hlist⟩
        rw [← ok.inj heq, hshape] at hlist
        cases hlist
      cases tried <;> exact ⟨nofun, fun h => absurd h hnone⟩
    · rename_i users' hshape
      constructor
      · intro heq
        rw [ok.inj heq] at hshape
        exact ⟨value, rfl, hshape⟩
      · rintro ⟨value', heq, hlist⟩
        rw [← ok.inj heq, hshape] at hlist
        rw [ok.inj hlist]

/-- A list in JSON starts with white space or its bracket. -/
theorem scalarCode_of_jsonUserList (h : jsonUserList w json tried body = .ok users) :
    ∃ b tail, body = b :: tail ∧ ScalarCode b := by
  obtain ⟨value, hdecode, hlist⟩ := jsonUserList_eq_ok.1 h
  rcases shape_of_userList hlist with ⟨l, rfl⟩ | ⟨m, rfl⟩
  · obtain ⟨space, rest, rfl, hspace⟩ := json.arr_start hdecode
    exact scalarCode_of_json (by decide) hspace
  · obtain ⟨space, rest, rfl, hspace⟩ := json.map_start hdecode
    exact scalarCode_of_json (by decide) hspace

theorem msgpackUserList_of_json (h : jsonUserList w json tried body = .ok users) :
    ∃ message, msgpackUserList w body = .error (.failed message) := by
  obtain ⟨b, tail, rfl, hscalar⟩ := scalarCode_of_jsonUserList h
  exact msgpackUserList_scalar w hscalar tail

/-! ## The header -/

section Header

variable (w : Nat) (json : JSONDecoder) (parseMediaType : String → Option String) (body : Codec.Bytes)
  (contentType : String)

/-- What is a list or a panic as msgpack is tried as msgpack; everything else is
decoded as JSON. -/
theorem decodeUserList_cases : (decodeUserList w json parseMediaType body contentType = msgpackUserList w body ∧
        ∀ message, msgpackUserList w body ≠ .error (.failed message)) ∨
      (∃ message, msgpackUserList w body = .error (.failed message)) ∧
        ∃ tried, decodeUserList w json parseMediaType body contentType = jsonUserList w json tried body := by
  unfold decodeUserList
  by_cases hfailed : ∃ message, msgpackUserList w body = .error (.failed message)
  · refine .inr ⟨hfailed, ?_⟩
    obtain ⟨message, hmessage⟩ := hfailed
    rw [hmessage]
    split
    · exact ⟨some message, rfl⟩
    · exact ⟨none, rfl⟩
  · have hnot : ∀ message, msgpackUserList w body ≠ .error (.failed message) := fun message heq => hfailed ⟨message, heq⟩
    refine .inl ⟨?_, hnot⟩
    rw [shouldTryMsgpack, looksLikeMsgpack_of_not_failed hnot, Bool.or_true, if_pos rfl]
    split
    · rename_i tried heq
      exact absurd heq (hnot tried)
    · rfl

/-- A body that is a list in one of the formats is decoded, whatever the header. -/
theorem decodeUserList_eq_ok (users : List PanelUserInfo) :
    decodeUserList w json parseMediaType body contentType = .ok users ↔
      msgpackUserList w body = .ok users ∨ jsonUserList w json none body = .ok users := by
  rcases decodeUserList_cases w json parseMediaType body contentType with ⟨heq, hnot⟩ | ⟨⟨message, hfailed⟩, tried, heq⟩
  · rw [heq]
    refine ⟨.inl, fun h => h.resolve_right fun hjson => ?_⟩
    obtain ⟨message, hfailed⟩ := msgpackUserList_of_json hjson
    exact hnot message hfailed
  · rw [heq, hfailed, jsonUserList_eq_ok, jsonUserList_eq_ok]
    exact ⟨.inr, fun h => h.resolve_left nofun⟩

theorem decodeUserList_eq_panic :
    decodeUserList w json parseMediaType body contentType = .error .panic ↔ msgpackUserList w body = .error .panic := by
  rcases decodeUserList_cases w json parseMediaType body contentType with ⟨heq, -⟩ | ⟨⟨message, hfailed⟩, tried, heq⟩
  · rw [heq]
  · rw [heq, hfailed]
    refine ⟨fun h => ?_, nofun⟩
    unfold jsonUserList at h
    split at h
    · cases tried <;> cases h
    · split at h
      · cases tried <;> cases h
      · cases h

/-- With two headers `decodeUserList` returns the same list or fails both times. No
body is a list in both formats, and one that is a list in either is decoded. -/
theorem header_is_immaterial :
    (∀ contentType contentType',
      (∃ users, decodeUserList w json parseMediaType body contentType = .ok users ∧
        decodeUserList w json parseMediaType body contentType' = .ok users) ∨
      ∃ err err', decodeUserList w json parseMediaType body contentType = .error err ∧
        decodeUserList w json parseMediaType body contentType' = .error err' ∧ (err = .panic ↔ err' = .panic)) ∧
    (¬ ∃ users users', msgpackUserList w body = .ok users ∧ jsonUserList w json none body = .ok users') ∧
    ∀ contentType users, decodeUserList w json parseMediaType body contentType = .ok users ↔
      msgpackUserList w body = .ok users ∨ jsonUserList w json none body = .ok users := by
  refine ⟨fun contentType contentType' => ?_, ?_, decodeUserList_eq_ok w json parseMediaType body⟩
  · have hpanic := (decodeUserList_eq_panic w json parseMediaType body contentType).trans
      (decodeUserList_eq_panic w json parseMediaType body contentType').symm
    have hok : ∀ users, decodeUserList w json parseMediaType body contentType = .ok users ↔
        decodeUserList w json parseMediaType body contentType' = .ok users := fun users =>
      (decodeUserList_eq_ok w json parseMediaType body contentType users).trans
        (decodeUserList_eq_ok w json parseMediaType body contentType' users).symm
    cases hfirst : decodeUserList w json parseMediaType body contentType with
    | ok users => exact .inl ⟨users, rfl, (hok users).1 hfirst⟩
    | error err =>
      cases hsecond : decodeUserList w json parseMediaType body contentType' with
      | ok users => rw [(hok users).2 hsecond] at hfirst; cases hfirst
      | error err' =>
        rw [hfirst, hsecond] at hpanic
        refine .inr ⟨err, err', rfl, rfl, ?_⟩
        rwa [error.injEq, error.injEq] at hpanic
  · rintro ⟨users, users', hmsgpack, hjson⟩
    obtain ⟨message, hfailed⟩ := msgpackUserList_of_json hjson
    rw [hmsgpack] at hfailed
    cases hfailed

end Header

end Singlink.V2Board
