import Singlink.V2Board.Mapper
import Singlink.V2Board.Routing
/-!
# User names and tracker keys

The name `MapInbound` writes into a user entry is what the inbound reports as the
user of a connection; the tracker looks it up among the keys `userTrackerKey` gives
the users. For every user list `MapInbound` takes, the two are the same text. The
tracker keeps one user ID for each key, that of the last user with the key.
-/

namespace Singlink.V2Board

open Lib List Except

variable {R : Type}

/-! ## Names -/

def entryName (nodeType : String) (user : UserInfo) : String :=
  if nodeType = typeMieru ∨ nodeType = typeNaive then user.username else user.uuid

variable {nodeType : String} {users : List UserInfo} {env : MapperEnv}

theorem entryName_eq_uuid (h : nodeType ∉ [typeMieru, typeNaive]) : entryName nodeType = UserInfo.uuid := by
  funext user
  refine if_neg fun htype => h ?_
  rcases htype with rfl | rfl
  · exact mem_cons_self
  · exact mem_cons_of_mem _ mem_cons_self

theorem entryName_eq_username (h : nodeType = typeMieru ∨ nodeType = typeNaive) :
    entryName nodeType = UserInfo.username := funext fun _ => if_pos h

theorem ne_empty_of_trimSpace {s : String} (h : GoStrings.trimSpace s ≠ "") : s ≠ "" := by
  rintro rfl
  exact h rfl

theorem entryName_ne_empty {i : Nat} {user : UserInfo} (h : validateUser nodeType i user = .ok ()) :
    entryName nodeType user ≠ "" := by
  unfold validateUser at h
  unfold entryName
  split at h
  · rename_i htype
    rw [if_pos htype]
    split at h
    · cases h
    · exact ne_empty_of_trimSpace ‹_›
  · rename_i htype
    rw [if_neg htype]
    split at h
    · cases h
    · exact ne_empty_of_trimSpace ‹_›

theorem entryName_of_validateUsersFrom {i : Nat}
    (h : validateUsersFrom nodeType i users = .ok ()) : ∀ user ∈ users, entryName nodeType user ≠ "" := by
  induction users generalizing i with
  | nil => nofun
  | cons user users ih =>
    obtain ⟨⟨⟩, hfirst, hrest⟩ := exists_of_bind_ok h
    intro other hmem
    rcases mem_cons.1 hmem with rfl | hmem
    · exact entryName_ne_empty hfirst
    · exact ih hrest other hmem

theorem normalizeNodeType_supported (h : supportedNodeType nodeType) : normalizeNodeType nodeType = nodeType := by
  simp only [supportedNodeType, contains_eq_mem, mem_cons, not_mem_nil, or_false, decide_eq_true_eq] at h
  rcases h with rfl | rfl | rfl | rfl | rfl | rfl | rfl | rfl | rfl | rfl <;> decide +kernel

theorem userTrackerKey_eq_entryName (htype : supportedNodeType nodeType) {user : UserInfo}
    (hname : entryName nodeType user ≠ "") : userTrackerKey nodeType user = entryName nodeType user := by
  have hcontains : [typeMieru, typeNaive].contains nodeType = decide (nodeType = typeMieru ∨ nodeType = typeNaive) := by
    simp
  unfold userTrackerKey
  rw [normalizeNodeType_supported htype]
  unfold entryName at hname ⊢
  by_cases hnamed : nodeType = typeMieru ∨ nodeType = typeNaive
  · rw [if_pos hnamed] at hname ⊢
    simp [hnamed, hname, ↓reduceIte]
  · rw [if_neg hnamed] at hname ⊢
    simp [hnamed, ↓reduceIte, hname]

/-! ## The entries of every type -/

variable {entries : List PasswordUser}

theorem names_shadowsocks2022Users {keyLength : Nat} {seenPSK : GoMap (List UInt8) Int64}
    (h : shadowsocks2022Users env keyLength seenPSK users = .ok entries) :
    entries.map (·.name) = users.map (·.uuid) := by
  induction users generalizing seenPSK entries with
  | nil =>
    cases h
    rfl
  | cons user users ih =>
    obtain ⟨password, -, h⟩ := exists_of_bind_ok h
    obtain ⟨psk, -, h⟩ := exists_of_bind_ok h
    split at h
    · exact absurd h throw_ne_ok
    · obtain ⟨rest, hrest, h⟩ := exists_of_bind_ok h
      rw [← ok.inj h, map_cons, map_cons, ih hrest]

theorem names_shadowsocksCredentials {config : Config} {keyLength : Option Nat} {password : String}
    (h : shadowsocksCredentials env config users keyLength = .ok (password, entries)) :
    entries.map (·.name) = users.map (·.uuid) := by
  cases keyLength with
  | none =>
    rw [← (Prod.mk.inj (ok.inj h)).2, map_map]
    rfl
  | some keyLength =>
    obtain ⟨-, -, h⟩ := exists_of_bind_ok h
    obtain ⟨entries', hentries, h⟩ := exists_of_bind_ok h
    rw [← (Prod.mk.inj (ok.inj h)).2]
    exact names_shadowsocks2022Users hentries

theorem names_of_uuid (htype : nodeType ∉ [typeMieru, typeNaive])
    {names : List String} (h : names = users.map (·.uuid)) : names = users.map (entryName nodeType) := by
  rw [h, entryName_eq_uuid htype]

theorem userNames_built {m : MapperInput} {options : InboundOptions} (h : m.Built nodeType options) :
    options.userNames = m.users.map (entryName nodeType) := by
  cases h with
  | vmess | vless | trojan | tuic | anytls | hysteria | hysteria2 => exact names_of_uuid (by decide) map_map
  | shadowsocks hentries => exact names_of_uuid (by decide) (names_shadowsocksCredentials hentries)
  | naive =>
    rw [entryName_eq_username (.inr rfl)]
    exact map_map
  | mieru =>
    rw [entryName_eq_username (.inl rfl)]
    exact map_map

/-- The names in an inbound are the tracker keys of its users, in order. -/
theorem userNames_mapInbound {o : MapperOptions} {brutal : Option GoError}
    {node : NodeInfo ServerSettings} {inbound : Inbound InboundOptions}
    (h : env.mapInbound o brutal node users = .ok inbound) :
    ∃ options, inbound.options = some options ∧ options.userNames = users.map (userTrackerKey inbound.type) ∧
      ∀ user ∈ users, userTrackerKey inbound.type user ≠ "" := by
  obtain ⟨htype, -, hvalid, listen, options, hoptions, heq⟩ := MapperEnv.mapInbound_eq_ok h
  have hname := entryName_of_validateUsersFrom hvalid
  have hkey : ∀ user ∈ users, userTrackerKey inbound.type user = entryName inbound.type user :=
    fun user hmem => userTrackerKey_eq_entryName htype (hname user hmem)
  refine ⟨options, heq, ?_, fun user hmem => ?_⟩
  · rw [userNames_built (MapperInput.built_of_typeOptions hoptions)]
    exact map_congr_left fun user hmem => (hkey user hmem).symm
  · rw [hkey user hmem]
    exact hname user hmem

/-! ## The keys of the tracker -/

variable (n : NodeTraffic R)

theorem lookup_updateUsers (a : UpdateArgs R) {k : String} (hk : k ≠ "") :
    (n.updateUsers a).users.lookup k = a.lastID k := by
  have hloop := nextUsers_rule n a k (P := fun last acc => acc.users.lookup k = last.map fun user => user.id.toInt)
    (fun _ _ _ hsame h => hsame.users.trans h) (fun _ acc _ _ _ hkey _ => users_updateUser n acc hk hkey) fun _ _ _ => rfl
  rw [if_neg hk] at hloop
  exact hloop

/-- Every user is found under its own ID if and only if users with one key have one
ID. -/
theorem tracked_iff (a : UpdateArgs R) (hkeys : ∀ user ∈ a.users, userTrackerKey a.nodeType user ≠ "") :
    (∀ user ∈ a.users, (n.updateUsers a).users.lookup (userTrackerKey a.nodeType user) = some user.id.toInt) ↔
      ∀ user ∈ a.users, ∀ other ∈ a.users,
        userTrackerKey a.nodeType user = userTrackerKey a.nodeType other → user.id = other.id := by
  constructor
  · intro h user huser other hother hkey
    have hother' := h other hother
    rw [← hkey, h user huser] at hother'
    exact Int64.toInt_inj.1 (Option.some.inj hother')
  · intro h user huser
    rw [lookup_updateUsers n a (hkeys user huser), UpdateArgs.lastID]
    cases hlast : (a.users.filter fun other =>
        userTrackerKey a.nodeType other = userTrackerKey a.nodeType user).getLast? with
    | none =>
      rw [getLast?_eq_none_iff, filter_eq_nil_iff] at hlast
      exact absurd (decide_eq_true rfl) (hlast user huser)
    | some last =>
      obtain ⟨hlast, hkey⟩ := mem_filter.1 (mem_of_getLast? hlast)
      rw [h user huser last hlast (of_decide_eq_true hkey).symm]
      rfl

/-- For every inbound `MapInbound` returns: after an update of the tracker with its
type and the same list, the name in every user entry is a key of the user's ID
exactly if users with the same tracker key have the same ID. -/
theorem names_tracked_iff (env : MapperEnv) (o : MapperOptions) (brutal : Option GoError)
    (node : NodeInfo ServerSettings) (users : List UserInfo) (inbound : Inbound InboundOptions)
    (h : env.mapInbound o brutal node users = .ok inbound) (n : NodeTraffic R) (a : UpdateArgs R)
    (htype : a.nodeType = inbound.type) (husers : a.users = users) :
    ∃ options, inbound.options = some options ∧ options.userNames.length = users.length ∧
      ((∀ (i : Nat) (name : String) (user : UserInfo), options.userNames[i]? = some name → users[i]? = some user →
          (n.updateUsers a).users.lookup name = some user.id.toInt) ↔
        ∀ user ∈ users, ∀ other ∈ users,
          userTrackerKey a.nodeType user = userTrackerKey a.nodeType other → user.id = other.id) := by
  obtain ⟨options, heq, hnames, hkeys⟩ := userNames_mapInbound h
  rw [← husers, ← htype] at hnames hkeys
  rw [← husers]
  refine ⟨options, heq, by rw [hnames, length_map], ?_⟩
  rw [← tracked_iff n a hkeys, hnames]
  constructor
  · intro hall user hmem
    obtain ⟨i, hi⟩ := mem_iff_getElem?.1 hmem
    exact hall i _ user (by rw [getElem?_map, hi, Option.map_some]) hi
  · intro hall i name user hi huser
    rw [getElem?_map, huser, Option.map_some, Option.some.injEq] at hi
    rw [← hi]
    exact hall user (mem_of_getElem? huser)

/-- Users 1 and 2. -/
def twoUsers (first second : String) : List UserInfo := [{ id := 1, uuid := first }, { id := 2, uuid := second }]

def twoUserUpdate (first second : String) : UpdateArgs Unit :=
  { sampleUpdate with nodeType := "vmess", users := twoUsers first second }

/-- What `MapInbound` makes of them on a vmess node. -/
def twoUserInbound (first second : String) : Except GoError (Inbound InboundOptions) :=
  sampleEnv.mapInbound {} none (sampleNode "vmess" securityNone {}) (twoUsers first second)

theorem names_tracked_iff_two :
    ∃ inbound options, twoUserInbound "a" "b" = .ok inbound ∧ inbound.options = some options ∧
      ∀ (i : Nat) (name : String) (user : UserInfo), options.userNames[i]? = some name →
        (twoUsers "a" "b")[i]? = some user →
        ((NodeTraffic.zero ()).updateUsers (twoUserUpdate "a" "b")).users.lookup name = some user.id.toInt := by
  have hok : (twoUserInbound "a" "b" >>= fun inbound => ok (inbound.type, inbound.options.map (·.userNames))) =
      .ok ("vmess", some ["a", "b"]) := by decide +kernel
  obtain ⟨inbound, hmap, hnames⟩ := exists_of_bind_ok hok
  obtain ⟨htype, hnames⟩ := Prod.mk.inj (ok.inj hnames)
  obtain ⟨options, hoptions, -, hiff⟩ := names_tracked_iff _ _ _ _ _ _ hmap (NodeTraffic.zero ())
    (twoUserUpdate "a" "b") htype.symm rfl
  rw [hoptions, Option.map_some] at hnames
  rw [Option.some.inj hnames] at hiff
  refine ⟨inbound, options, hmap, hoptions, ?_⟩
  rw [Option.some.inj hnames]
  exact hiff.2 (by decide +kernel)

/-- Two users with one UUID: the inbound has an entry for each, and the tracker one
key with the ID of the second. -/
theorem shared_uuid_tracked_once :
    (twoUserInbound "a" "a").map (fun inbound => (inbound.type, inbound.options.map (·.userNames))) =
        .ok ("vmess", some ["a", "a"]) ∧
      ((NodeTraffic.zero ()).updateUsers (twoUserUpdate "a" "a")).users.lookup "a" = some 2 := by
  decide +kernel

end Singlink.V2Board
