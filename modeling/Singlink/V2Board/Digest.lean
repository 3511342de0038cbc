import Singlink.Lib.SortSlice
import Singlink.Lib.Wire
import Singlink.V2Board.Types
import Mathlib.Data.List.Perm.Basic
/-!
# The digest of a user list

`digestUsers` of `service/v2board/controller.go`: the bytes it hashes. They do
not depend on the order of the users or on `EnabledSet`, and determine the rest.
-/

namespace Singlink.V2Board

open Lib Wire UserInfo List

def writeInt64 (value : Int64) : List UInt8 := putUint64 value.toUInt64

def writeString (value : List UInt8) : List UInt8 := putUint64 (.ofNat value.length) ++ value

def writeBool (value : Bool) : List UInt8 := if value then [1] else [0]

namespace PanelUserInfo

/-- The `less` the indexes are sorted with. -/
def less (left right : PanelUserInfo) : Bool :=
  if left.id ≠ right.id then left.id < right.id
  else if left.uuid ≠ right.uuid then left.uuid < right.uuid
  else if left.username ≠ right.username then left.username < right.username
  else if left.password ≠ right.password then left.password < right.password
  else if left.label ≠ right.label then left.label < right.label
  else if left.secret ≠ right.secret then left.secret < right.secret
  else if left.linkSecret ≠ right.linkSecret then left.linkSecret < right.linkSecret
  else if left.speedLimit ≠ right.speedLimit then left.speedLimit < right.speedLimit
  else if left.deviceLimit ≠ right.deviceLimit then left.deviceLimit < right.deviceLimit
  else if left.port ≠ right.port then left.port < right.port
  else if left.cipher ≠ right.cipher then left.cipher < right.cipher
  else if left.enabled ≠ right.enabled then !left.enabled && right.enabled
  else if left.maxConnections ≠ right.maxConnections then left.maxConnections < right.maxConnections
  else if left.maxIPs ≠ right.maxIPs then left.maxIPs < right.maxIPs
  else if left.quotaBytes ≠ right.quotaBytes then left.quotaBytes < right.quotaBytes
  else if left.expiresAt ≠ right.expiresAt then left.expiresAt < right.expiresAt
  else left.expiresOn < right.expiresOn

def encode (user : PanelUserInfo) : List UInt8 :=
  writeInt64 user.id ++ (writeString user.uuid ++ (writeString user.username ++ (writeString user.password ++
    (writeInt64 user.speedLimit ++ (writeInt64 user.deviceLimit ++ (writeString user.label ++
    (writeString user.secret ++ (writeString user.linkSecret ++ (writeInt64 user.port ++ (writeString user.cipher ++
    (writeBool user.enabled ++ (writeInt64 user.maxConnections ++ (writeInt64 user.maxIPs ++
    (writeInt64 user.quotaBytes ++ (writeInt64 user.expiresAt ++ writeString user.expiresOn)))))))))))))))

/-- What `digestUsers` hashes, from the users in the order of the sorted indexes. -/
def stream (sorted : List PanelUserInfo) : List UInt8 := sorted.flatMap encode

/-- What the digest sees of a user: all but `EnabledSet`. -/
def digested (user : PanelUserInfo) : PanelUserInfo := { user with enabledSet := false }

/-- The texts have lengths a Go string can have. -/
structure Fits (user : PanelUserInfo) : Prop where
  uuid : user.uuid.length < 2 ^ 63
  username : user.username.length < 2 ^ 63
  password : user.password.length < 2 ^ 63
  label : user.label.length < 2 ^ 63
  secret : user.secret.length < 2 ^ 63
  linkSecret : user.linkSecret.length < 2 ^ 63
  cipher : user.cipher.length < 2 ^ 63
  expiresOn : user.expiresOn.length < 2 ^ 63

end PanelUserInfo

def userLess (left right : UserInfo) : Bool := left.panel.less right.panel

def encodeUser (user : UserInfo) : List UInt8 := user.panel.encode

/-- What `digestUsers` hashes. Users that `sort.Slice` may put in any order are
written alike. -/
def digestInput (users : List UserInfo) : List UInt8 :=
  (users.insertionSort fun a b => ¬userLess b a).flatMap encodeUser

/-! ## Reading it back -/

theorem writeInt64_unique : Unique (fun _ => True) writeInt64 := by
  refine .of_length 8 (fun _ => length_leBytes 8 _) ?_
  rintro ⟨a⟩ ⟨b⟩ _ _ h
  exact congrArg _ (putUint64_inj h)

theorem writeBool_unique : Unique (fun _ => True) writeBool := by
  refine .of_length 1 (by decide) ?_
  decide

theorem writeString_unique : Unique (fun value : List UInt8 => value.length < 2 ^ 63) writeString :=
  .of_sized (fun _ ha => Nat.lt_trans ha (by decide)) fun _ _ _ _ h => h

namespace PanelUserInfo

theorem encode_unique : Unique (fun user => user.Fits ∧ user.enabledSet = false) encode := by
  intro a b x y ⟨ha, hseta⟩ ⟨hb, hsetb⟩ h
  simp only [encode, append_assoc] at h
  have int {a b x y} := writeInt64_unique a b x y trivial trivial
  have text {a b x y} := writeString_unique a b x y
  -- field by field, in the order they are written
  obtain ⟨hid, h⟩ := int h
  obtain ⟨huuid, h⟩ := text ha.uuid hb.uuid h
  obtain ⟨husername, h⟩ := text ha.username hb.username h
  obtain ⟨hpassword, h⟩ := text ha.password hb.password h
  obtain ⟨hspeed, h⟩ := int h
  obtain ⟨hdevice, h⟩ := int h
  obtain ⟨hlabel, h⟩ := text ha.label hb.label h
  obtain ⟨hsecret, h⟩ := text ha.secret hb.secret h
  obtain ⟨hlink, h⟩ := text ha.linkSecret hb.linkSecret h
  obtain ⟨hport, h⟩ := int h
  obtain ⟨hcipher, h⟩ := text ha.cipher hb.cipher h
  obtain ⟨henabled, h⟩ := writeBool_unique _ _ _ _ trivial trivial h
  obtain ⟨hconns, h⟩ := int h
  obtain ⟨hips, h⟩ := int h
  obtain ⟨hquota, h⟩ := int h
  obtain ⟨hat, h⟩ := int h
  obtain ⟨hon, h⟩ := text ha.expiresOn hb.expiresOn h
  exact ⟨PanelUserInfo.ext hid huuid husername hpassword hspeed hdevice hlabel hsecret hlink hport hcipher henabled
    (hseta.trans hsetb.symm) hconns hips hquota hat hon, h⟩

theorem encode_ne_nil (user : PanelUserInfo) : encode user ≠ [] := by
  intro hnil
  have hlen := congrArg length (append_eq_nil_iff.1 hnil).1
  rw [writeInt64, putUint64] at hlen
  cases hlen

theorem stream_digested (users : List PanelUserInfo) : stream (users.map digested) = stream users := by
  rw [stream, flatMap_map]
  rfl

theorem Fits.digested {user : PanelUserInfo} (h : user.Fits) : user.digested.Fits :=
  ⟨h.uuid, h.username, h.password, h.label, h.secret, h.linkSecret, h.cipher, h.expiresOn⟩

/-- The bytes determine the users that were written, and their order. -/
theorem stream_inj {users users' : List PanelUserInfo} (hfits : ∀ user ∈ users, user.Fits)
    (hfits' : ∀ user ∈ users', user.Fits) (h : stream users = stream users') :
    users.map digested = users'.map digested := by
  have hok : ∀ {l : List PanelUserInfo}, (∀ user ∈ l, user.Fits) →
      ∀ user ∈ l.map digested, user.Fits ∧ user.enabledSet = false := by
    intro l hl user huser
    obtain ⟨u, hu, rfl⟩ := mem_map.1 huser
    exact ⟨(hl u hu).digested, rfl⟩
  rw [← stream_digested users, ← stream_digested users'] at h
  exact encode_unique.flatMap encode_ne_nil (hok hfits) (hok hfits') h

/-! ## The order -/

/-- The comparison is by all fields that are hashed. -/
theorem less_strict : StrictBy digested less := by
  have int : ∀ field : PanelUserInfo → Int64, StrictBy field fun a b => decide (field a < field b) :=
    fun _ => .of_lt fun _ _ => decide_eq_true_iff
  have text : ∀ field : PanelUserInfo → List UInt8, StrictBy field fun a b => decide (field a < field b) :=
    fun _ => .of_lt fun _ _ => decide_eq_true_iff
  have flag : StrictBy enabled fun a b => !a.enabled && b.enabled := by
    refine .of_lt fun a b => ?_
    cases a.enabled <;> cases b.enabled <;> decide
  have hfields := (int id).andThen <| (text uuid).andThen <| (text username).andThen <| (text password).andThen <|
    (text label).andThen <| (text secret).andThen <| (text linkSecret).andThen <| (int speedLimit).andThen <|
    (int deviceLimit).andThen <| (int port).andThen <| (text cipher).andThen <| flag.andThen <|
    (int maxConnections).andThen <| (int maxIPs).andThen <| (int quotaBytes).andThen <| (int expiresAt).andThen <|
    text expiresOn
  refine .congr_key hfields fun a b => ?_
  simp only [digested, PanelUserInfo.ext_iff, Prod.mk.injEq]
  constructor
  · rintro ⟨h1, h2, h3, h4, h5, h6, h7, h8, h9, h10, h11, h12, -, h13, h14, h15, h16, h17⟩
    exact ⟨h1, h2, h3, h4, h7, h8, h9, h5, h6, h10, h11, h12, h13, h14, h15, h16, h17⟩
  · rintro ⟨h1, h2, h3, h4, h7, h8, h9, h5, h6, h10, h11, h12, h13, h14, h15, h16, h17⟩
    exact ⟨h1, h2, h3, h4, h5, h6, h7, h8, h9, h10, h11, h12, trivial, h13, h14, h15, h16, h17⟩

section

variable {users users' sorted sorted' : List PanelUserInfo} (hfits : ∀ user ∈ users, user.Fits)
  (hfits' : ∀ user ∈ users', user.Fits) (hsorted : SliceSorted less users sorted)
  (hsorted' : SliceSorted less users' sorted')

include hfits hfits' hsorted hsorted'

theorem perm_of_stream (h : stream sorted = stream sorted') :
    (users.map digested).Perm (users'.map digested) := by
  have hmap := stream_inj (fun user hu => hfits user (hsorted.perm.mem_iff.1 hu))
    (fun user hu => hfits' user (hsorted'.perm.mem_iff.1 hu)) h
  exact ((hsorted.perm.map digested).symm.trans (.of_eq hmap)).trans (hsorted'.perm.map digested)

/-- Whatever order `sort.Slice` leaves equal users in: the same bytes are hashed for two
user lists exactly if one is a permutation of the other in the fields that are
hashed. -/
theorem stream_eq_iff :
    stream sorted = stream sorted' ↔ (users.map digested).Perm (users'.map digested) := by
  constructor
  · exact perm_of_stream hfits hfits' hsorted hsorted'
  · intro hperm
    rw [← stream_digested sorted, less_strict.sorted_keys hsorted hsorted' hperm, stream_digested]

end

theorem stream_eq_iff_two_users :
    let a : PanelUserInfo := { id := 2, uuid := [97], enabledSet := true }
    let b : PanelUserInfo := { id := 1, uuid := [98], quotaBytes := 5 }
    (stream [b, a] = stream [b, a.digested] ↔ ([a, b].map digested).Perm ([b, a.digested].map digested)) ∧
      (stream [b, a] = stream [b, b, a] ↔ ([a, b].map digested).Perm ([b, a, b].map digested)) := by
  intro a b
  have ha : a.Fits := by constructor <;> decide
  have hb : b.Fits := by constructor <;> decide
  have hab : ∀ user ∈ [a, b], user.Fits := forall_mem_cons.2 ⟨ha, forall_mem_singleton.2 hb⟩
  have hba : ∀ user ∈ [b, a.digested], user.Fits := forall_mem_cons.2 ⟨hb, forall_mem_singleton.2 ha.digested⟩
  have hbab : ∀ user ∈ [b, a, b], user.Fits := forall_mem_cons.2 ⟨hb, hab⟩
  exact ⟨stream_eq_iff hab hba ⟨by decide, by decide⟩ ⟨by decide, by decide⟩,
    stream_eq_iff hab hbab ⟨by decide, by decide⟩ ⟨by decide, by decide⟩⟩

end PanelUserInfo

/-! ## Users with Unicode texts -/

/-- `digestInput` is written from users in an order that `sort.Slice` may give them. -/
theorem digestInput_stream (users : List UserInfo) :
    ∃ sorted, SliceSorted PanelUserInfo.less (users.map panel) sorted ∧
      digestInput users = PanelUserInfo.stream sorted := by
  have hless : StrictBy (fun user : UserInfo => user.panel.digested) userLess :=
    ⟨fun a b => PanelUserInfo.less_strict.irrefl a.panel b.panel,
      fun a b c => PanelUserInfo.less_strict.trans a.panel b.panel c.panel,
      fun a b => PanelUserInfo.less_strict.total a.panel b.panel⟩
  have hsorted := hless.insertionSort_sorted users
  refine ⟨(users.insertionSort fun a b => ¬userLess b a).map panel,
    ⟨hsorted.perm.map panel, pairwise_map.2 hsorted.ordered⟩, ?_⟩
  rw [PanelUserInfo.stream, flatMap_map]
  rfl

end Singlink.V2Board
