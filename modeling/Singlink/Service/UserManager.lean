import Singlink.Lib.GoMap
import Singlink.Lib.Runs
/-!
# The users of a managed Shadowsocks server

`service/ssmapi`: the user manager (`user.go`), the counters it keeps for the
users (`traffic.go`), and the requests that reach it (`api.go`). The managed
server is outside: what it answers to `UpdateUsers` is an argument of each call,
and the manager's state records the users it last accepted.
-/

namespace Singlink.Ssmapi

open Lib GoMap

/-- The counters of the users, told from each other by their pointers. -/
structure TrafficManager where
  userUplink : GoMap String Nat := ∅
  userDownlink : GoMap String Nat := ∅
  userUplinkPackets : GoMap String Nat := ∅
  userDownlinkPackets : GoMap String Nat := ∅
  userTCPSessions : GoMap String Nat := ∅
  userUDPSessions : GoMap String Nat := ∅

/-- The counters of the listed users, in a new map. -/
def keepCounters (counters : GoMap String Nat) (users : List String) : GoMap String Nat :=
  users.foldl (fun kept user =>
    match counters.lookup user with
    | some counter => kept.insert user counter
    | none => kept) ∅

def TrafficManager.updateUsers (s : TrafficManager) (users : List String) : TrafficManager where
  userUplink := keepCounters s.userUplink users
  userDownlink := keepCounters s.userDownlink users
  userUplinkPackets := keepCounters s.userUplinkPackets users
  userDownlinkPackets := keepCounters s.userDownlinkPackets users
  userTCPSessions := keepCounters s.userTCPSessions users
  userUDPSessions := keepCounters s.userUDPSessions users

/-- `UserManager`, with the names and passwords of the last `UpdateUsers` that the
server accepted. -/
structure UserManager where
  usersMap : GoMap String String
  accepted : List (String × String)
  trafficManager : TrafficManager

/-- `NewUserManager`, on a server that has no users yet. -/
def newUserManager (trafficManager : TrafficManager) : UserManager where
  usersMap := ∅
  accepted := []
  trafficManager := trafficManager

/-- What is outside in a call: the order in which the map is read, and the error of
`UpdateUsers`. -/
structure Env where
  order : List String := []
  err : Option String := none

inductive Op where
  | add (username password : String)
  | update (username password : String)
  | delete (username : String)
  deriving DecidableEq

def Op.username : Op → String
  | .add username _ => username
  | .update username _ => username
  | .delete username => username

structure Call where
  op : Op
  env : Env

namespace UserManager

def postUpdate (m : UserManager) (updated : Bool) (env : Env) : UserManager × Option String :=
  let entries := m.usersMap.range env.order
  let users := entries.map Prod.fst
  let uPSKs := entries.map Prod.snd
  match env.err with
  | some err => (m, some err)
  | none =>
    ({ m with
        accepted := users.zip uPSKs
        trafficManager := if updated then m.trafficManager.updateUsers users else m.trafficManager }, none)

def add (m : UserManager) (username password : String) (env : Env) : UserManager × Option String :=
  match m.usersMap.lookup username with
  | some _ => (m, some ("user " ++ username ++ " already exists"))
  | none => postUpdate { m with usersMap := m.usersMap.insert username password } true env

def get (m : UserManager) (username : String) : Option String :=
  m.usersMap.lookup username

def update (m : UserManager) (username password : String) (env : Env) : UserManager × Option String :=
  postUpdate { m with usersMap := m.usersMap.insert username password } true env

def delete (m : UserManager) (username : String) (env : Env) : UserManager × Option String :=
  postUpdate { m with usersMap := m.usersMap.erase username } true env

/-- `decodeCache`: the saved users replace the map, and the server's error is
dropped. -/
def restore (m : UserManager) (users : GoMap String String) (env : Env) : UserManager :=
  (postUpdate { m with usersMap := users } false env).1

def call (m : UserManager) (c : Call) : UserManager × Option String :=
  match c.op with
  | .add username password => m.add username password c.env
  | .update username password => m.update username password c.env
  | .delete username => m.delete username c.env

def after (m : UserManager) (c : Call) : UserManager := (m.call c).1

/-- The map holds the users the server last accepted. -/
def Agrees (m : UserManager) : Prop :=
  ∀ username password, m.usersMap.lookup username = some password ↔ (username, password) ∈ m.accepted

/-- A call is sound if an error leaves the map as it was and the map agrees with the
server afterwards. -/
def Sound (m : UserManager) (c : Call) : Prop :=
  ((m.call c).2 ≠ none → ∀ username, (m.after c).usersMap.lookup username = m.usersMap.lookup username) ∧
    (m.after c).Agrees

/-! ## One call -/

/-- The map after the operation; an `Add` of a known user changes nothing. -/
def edited (m : UserManager) : Op → GoMap String String
  | .add username password => if m.usersMap.lookup username = none then m.usersMap.insert username password else m.usersMap
  | .update username password => m.usersMap.insert username password
  | .delete username => m.usersMap.erase username

/-- `Add` is the one operation that may end without a word to the server. -/
def Asks (m : UserManager) : Op → Prop
  | .add username _ => m.usersMap.lookup username = none
  | _ => True

def Idle (m : UserManager) : Op → Prop
  | .add username _ => m.usersMap.lookup username ≠ none
  | .update username password => m.usersMap.lookup username = some password
  | .delete username => m.usersMap.lookup username = none

variable (m : UserManager)

/-- All a call can do: an operation that asks sends the edited map, which is kept
whatever the answer is. -/
theorem call_eq (c : Call) : (m.Asks c.op ∧ m.call c = postUpdate { m with usersMap := m.edited c.op } true c.env) ∨
      ((∃ username password, c.op = .add username password ∧
        m.call c = (m, some ("user " ++ username ++ " already exists"))) ∧ ¬m.Asks c.op) := by
  obtain ⟨op, env⟩ := c
  cases op with
  | add username password =>
    cases hu : m.usersMap.lookup username with
    | none =>
      refine .inl ⟨hu, ?_⟩
      simp [call, add, edited, hu]
    | some old =>
      refine .inr ⟨⟨username, password, rfl, ?_⟩, ?_⟩
      · simp only [call, add, hu]
      · simp [Asks, hu, reduceCtorEq]
  | update username password | delete username => exact .inl ⟨trivial, rfl⟩

variable (updated : Bool)

theorem postUpdate_err (env : Env) : (m.postUpdate updated env).2 = env.err := by
  unfold postUpdate
  split <;> rename_i h <;> exact h.symm

theorem postUpdate_refused {env : Env} (h : env.err ≠ none) : (m.postUpdate updated env).1 = m := by
  unfold postUpdate
  split
  · rfl
  · exact absurd ‹_› h

/-- Accepted users are those of the map, whatever order it is read in. -/
theorem postUpdate_agrees {env : Env} (h : env.err = none) : (m.postUpdate updated env).1.Agrees := by
  intro username password
  simp only [postUpdate, h]
  rw [← List.zip_of_prod rfl rfl]
  exact mem_range.symm

variable {m : UserManager} {op : Op}

theorem edited_of_idle (h : m.Idle op) (username : String) :
    (m.edited op).lookup username = m.usersMap.lookup username := by
  cases op with
  | add name password => rw [edited, if_neg h]
  | update name password =>
    rw [edited, lookup_insert_eq]
    split
    · rename_i hname
      rw [hname, h]
    · rfl
  | delete name =>
    rw [edited, lookup_erase_eq]
    split
    · rename_i hname
      rw [hname, h]
    · rfl

/-- An operation that is not idle changes what is found for its user. -/
theorem idle_of_edited (h : ∀ username, (m.edited op).lookup username = m.usersMap.lookup username) : m.Idle op := by
  cases op with
  | add name password =>
    intro hnone
    have hname := h name
    rw [edited, if_pos hnone, AList.lookup_insert, hnone] at hname
    cases hname
  | update name password => exact (h name).symm.trans (AList.lookup_insert m.usersMap)
  | delete name => exact (h name).symm.trans (AList.lookup_erase name m.usersMap)

/-- The server accepts, or the operation leaves a map that agrees already. -/
def Keeps (m : UserManager) (c : Call) : Prop :=
  m.Asks c.op ∧ c.env.err = none ∨ m.Idle c.op ∧ m.Agrees

theorem Agrees.congr {m' : UserManager} (h : m.Agrees) (ha : m'.accepted = m.accepted)
    (hu : ∀ username, m'.usersMap.lookup username = m.usersMap.lookup username) : m'.Agrees := by
  intro username password
  rw [hu, ha]
  exact h username password

/-- A call is sound exactly if the server accepts it or it has nothing to change. -/
theorem sound_iff (m : UserManager) (c : Call) : m.Sound c ↔ m.Keeps c := by
  unfold Sound after
  rcases call_eq m c with ⟨hasks, hcall⟩ | ⟨⟨username, password, hop, hcall⟩, hasks⟩
  · rw [hcall, postUpdate_err]
    cases herr : c.env.err with
    | none => exact iff_of_true ⟨fun h => absurd rfl h, postUpdate_agrees _ _ herr⟩ (.inl ⟨hasks, herr⟩)
    | some err =>
      have hne : c.env.err ≠ none := herr ▸ Option.some_ne_none err
      rw [postUpdate_refused _ _ hne]
      constructor
      · rintro ⟨hmap, hagrees⟩
        have hsame := hmap (Option.some_ne_none err)
        exact .inr ⟨idle_of_edited hsame, hagrees.congr rfl fun name => (hsame name).symm⟩
      · rintro (⟨-, h⟩ | ⟨hidle, hagrees⟩)
        · rw [herr] at h
          cases h
        · exact ⟨fun _ => edited_of_idle hidle, hagrees.congr rfl (edited_of_idle hidle)⟩
  · -- a known user: nothing is changed and nothing is sent
    rw [hcall]
    have hidle : m.Idle c.op := by
      rw [hop] at hasks ⊢
      exact hasks
    constructor
    · rintro ⟨-, hagrees⟩
      exact .inr ⟨hidle, hagrees⟩
    · rintro (⟨h, -⟩ | ⟨-, hagrees⟩)
      · exact absurd h hasks
      · exact ⟨fun _ _ => rfl, hagrees⟩

/-! ## Sequences of calls -/

/-- In every sequence of calls, from every state: all calls are sound exactly if each
is accepted by the server or leaves a map that agrees with the server already. -/
theorem calls_sound_iff (m : UserManager) (calls : List Call) :
    Allowed after Sound m calls ↔ Allowed after Keeps m calls := by
  induction calls generalizing m with
  | nil => rfl
  | cons c calls ih => rw [Allowed, Allowed, sound_iff, ih]

/-- A rejected password stays in the map and is sent again with the next user, who is
refused for it: the list shows two users, and the server has none. -/
theorem rejected_add_unsound :
    let judge : List (String × String) → Option String := fun users =>
      if users.any (·.2 = "bad") then some "bad password" else none
    let first : Call := ⟨.add "alice" "bad", [], judge [("alice", "bad")]⟩
    let second : Call := ⟨.add "bob" "good", [], judge [("bob", "good"), ("alice", "bad")]⟩
    let m := newUserManager {}
    ¬Allowed after Sound m [first] ∧ judge [("bob", "good")] = none ∧
      ((m.after first).call second).2 = some "bad password" ∧
      ((m.after first).after second).usersMap.lookup "alice" = some "bad" ∧
      ((m.after first).after second).usersMap.lookup "bob" = some "good" ∧
      ((m.after first).after second).accepted = [] := by
  refine ⟨?_, by decide, by decide, by decide, by decide, by decide⟩
  rintro ⟨⟨hsame, -⟩, -⟩
  have halice := hsame (by decide) "alice"
  revert halice
  decide

theorem edited_ne {username : String} (h : username ≠ op.username) :
    (m.edited op).lookup username = m.usersMap.lookup username := by
  cases op with
  | add name password =>
    rw [edited]
    split
    · exact AList.lookup_insert_ne h
    · rfl
  | update name password => exact AList.lookup_insert_ne h
  | delete name => exact AList.lookup_erase_ne h

/-- The call is for another user, and the server refuses every list with this one. -/
def Stuck (username password : String) (m : UserManager) (c : Call) : Prop :=
  username ≠ c.op.username ∧
    ((username, password) ∈ (m.edited c.op).range c.env.order → c.env.err ≠ none)

/-- While a password that the server refuses is in the map, every call for another
user fails, and the server keeps the users it had. -/
theorem refused_password_blocks {username password : String} (calls : List Call) {m : UserManager}
    (hbad : m.usersMap.lookup username = some password) (h : Allowed after (Stuck username password) m calls) :
    Allowed after (fun m c => (m.call c).2 ≠ none) m calls ∧ (calls.foldl after m).accepted = m.accepted := by
  induction calls generalizing m with
  | nil => exact ⟨trivial, rfl⟩
  | cons c calls ih =>
    obtain ⟨⟨hname, hrefuse⟩, hrest⟩ := h
    have hkeep : (m.edited c.op).lookup username = some password := (edited_ne hname).trans hbad
    have hone : (m.call c).2 ≠ none ∧ (m.after c).accepted = m.accepted ∧
        (m.after c).usersMap.lookup username = some password := by
      unfold after
      rcases call_eq m c with ⟨-, hcall⟩ | ⟨⟨name, pass, -, hcall⟩, -⟩
      · have herr := hrefuse (mem_range.2 hkeep)
        rw [hcall, postUpdate_err, postUpdate_refused _ _ herr]
        exact ⟨herr, rfl, hkeep⟩
      · rw [hcall]
        exact ⟨Option.some_ne_none _, rfl, hbad⟩
    obtain ⟨hfail, haccepted, hstill⟩ := hone
    obtain ⟨hfails, hlast⟩ := ih hstill hrest
    exact ⟨⟨hfail, hfails⟩, hlast.trans haccepted⟩

theorem refused_password_blocks_other :
    let m := (newUserManager {}).after ⟨.add "alice" "bad", [], some "bad password"⟩
    (m.call ⟨.add "bob" "good", [], some "bad password"⟩).2 ≠ none :=
  (@refused_password_blocks "alice" "bad" [_] _ rfl ⟨⟨by decide, fun _ => Option.some_ne_none _⟩, trivial⟩).1.1

/-- The users of a saved cache agree with the server if it accepts them; otherwise only
if it had them before. -/
theorem restore_agrees_iff (users : GoMap String String) (env : Env) :
    (m.restore users env).Agrees ↔ env.err = none ∨ UserManager.Agrees { m with usersMap := users } := by
  unfold restore
  cases herr : env.err with
  | none => exact iff_of_true (postUpdate_agrees _ _ herr) (.inl rfl)
  | some err =>
    rw [postUpdate_refused _ _ (herr ▸ Option.some_ne_none err)]
    exact ⟨.inr, fun h => h.resolve_left (Option.some_ne_none err)⟩

end UserManager

/-! ## The counters of the users -/

theorem lookup_keepCounters (counters : GoMap String Nat) (users : List String) (user : String) :
    (keepCounters counters users).lookup user = if user ∈ users then counters.lookup user else none := by
  -- the loop adds to what it has kept so far
  have hloop : ∀ kept : GoMap String Nat,
      (users.foldl (fun kept user =>
        match counters.lookup user with
        | some counter => kept.insert user counter
        | none => kept) kept).lookup user =
        if user ∈ users ∧ counters.lookup user ≠ none then counters.lookup user else kept.lookup user := by
    induction users with
    | nil => simp
    | cons u users ih =>
      intro kept
      rw [List.foldl_cons, ih]
      by_cases hu : user = u
      · subst hu
        cases counters.lookup user <;> simp
      · cases hc : counters.lookup u <;> simp [hu, AList.lookup_insert_ne hu]
  rw [keepCounters, hloop]
  by_cases hc : counters.lookup user = none <;> simp [hc]

namespace UserManager

/-- The users have the counters they had before and nobody else has one. -/
def KeptFor (users : GoMap String String) (before after : GoMap String Nat) : Prop :=
  ∀ user, after.lookup user = if users.lookup user = none then none else before.lookup user

theorem keptFor_keepCounters (users : GoMap String String) (order : List String) (counters : GoMap String Nat) :
    KeptFor users counters (keepCounters counters ((users.range order).map Prod.fst)) := by
  intro user
  have hmem : user ∈ (users.range order).map Prod.fst ↔ users.lookup user ≠ none := by
    rw [Option.ne_none_iff_exists']
    simp [mem_range]
  rw [lookup_keepCounters]
  by_cases hu : users.lookup user = none
  · rw [if_neg (fun hin => hmem.1 hin hu), if_pos hu]
  · rw [if_pos (hmem.2 hu), if_neg hu]

/-- After an accepted call, all six maps of counters are kept for the users of the
map. -/
theorem lookup_counters_after {m : UserManager} {c : Call} (hasks : m.Asks c.op) (h : c.env.err = none) :
    let before := m.trafficManager
    let after := (m.after c).trafficManager
    let users := (m.after c).usersMap
    KeptFor users before.userUplink after.userUplink ∧ KeptFor users before.userDownlink after.userDownlink ∧
      KeptFor users before.userUplinkPackets after.userUplinkPackets ∧
      KeptFor users before.userDownlinkPackets after.userDownlinkPackets ∧
      KeptFor users before.userTCPSessions after.userTCPSessions ∧
      KeptFor users before.userUDPSessions after.userUDPSessions := by
  unfold UserManager.after
  rcases call_eq m c with ⟨-, hcall⟩ | ⟨-, hnot⟩
  · have hkept := keptFor_keepCounters (m.edited c.op) c.env.order
    rw [hcall]
    simp only [postUpdate, h, if_true, TrafficManager.updateUsers]
    exact ⟨hkept _, hkept _, hkept _, hkept _, hkept _, hkept _⟩
  · exact absurd hasks hnot

/-- Two users with counters, one of whom is deleted. -/
private def countedManager : UserManager where
  usersMap := (AList.insert "alice" "a" ∅ : GoMap String String).insert "bob" "b"
  accepted := [("alice", "a"), ("bob", "b")]
  trafficManager :=
    { userUplink := (AList.insert "alice" 1 ∅ : GoMap String Nat).insert "bob" 2
      userUDPSessions := (AList.insert "alice" 3 ∅ : GoMap String Nat).insert "bob" 4 }

theorem lookup_counters_after_delete :
    let after := (countedManager.after ⟨.delete "alice", {}⟩).trafficManager
    after.userUplink.lookup "alice" = none ∧ after.userUplink.lookup "bob" = some 2 ∧
      after.userUDPSessions.lookup "alice" = none ∧ after.userUDPSessions.lookup "bob" = some 4 := by
  obtain ⟨huplink, -, -, -, -, hsessions⟩ :=
    lookup_counters_after (m := countedManager) (c := ⟨.delete "alice", {}⟩) trivial rfl
  exact ⟨huplink "alice", huplink "bob", hsessions "alice", hsessions "bob"⟩

end UserManager

/-! ## Requests -/

/-- The status of an answer, with the text of a refusal. -/
inductive Answer where
  | created
  | noContent
  | notFound
  | badRequest (text : String)
  deriving DecidableEq

def Answer.refuses : Answer → Prop
  | .created => False
  | .noContent => False
  | .notFound => True
  | .badRequest _ => True

/-- A request with the name of its path and the decoded body, or the error of
decoding it. -/
inductive Request where
  | addUser (body : Except String (String × String))
  | updateUser (userName : String) (body : Except String String)
  | deleteUser (userName : String)

namespace UserManager

def addUser (m : UserManager) (body : Except String (String × String)) (env : Env) : UserManager × Answer :=
  match body with
  | .error err => (m, .badRequest err)
  | .ok (userName, password) =>
    match m.add userName password env with
    | (m, some err) => (m, .badRequest err)
    | (m, none) => (m, .created)

def updateUser (m : UserManager) (userName : String) (body : Except String String) (env : Env) :
    UserManager × Answer :=
  if userName = "" then (m, .badRequest "")
  else
    match body with
    | .error err => (m, .badRequest err)
    | .ok password =>
      match m.get userName with
      | none => (m, .notFound)
      | some _ =>
        match m.update userName password env with
        | (m, some err) => (m, .badRequest err)
        | (m, none) => (m, .noContent)

def deleteUser (m : UserManager) (userName : String) (env : Env) : UserManager × Answer :=
  if userName = "" then (m, .badRequest "")
  else
    match m.get userName with
    | none => (m, .notFound)
    | some _ =>
      match m.delete userName env with
      | (m, some err) => (m, .badRequest err)
      | (m, none) => (m, .noContent)

def serve (m : UserManager) (r : Request × Env) : UserManager × Answer :=
  match r.1 with
  | .addUser body => m.addUser body r.2
  | .updateUser userName body => m.updateUser userName body r.2
  | .deleteUser userName => m.deleteUser userName r.2

def opOf (m : UserManager) : Request → Option Op
  | .addUser (.ok (userName, password)) => some (.add userName password)
  | .updateUser userName (.ok password) =>
    if userName = "" ∨ m.usersMap.lookup userName = none then none else some (.update userName password)
  | .deleteUser userName =>
    if userName = "" ∨ m.usersMap.lookup userName = none then none else some (.delete userName)
  | _ => none

attribute [local simp] Answer.refuses

/-- A request is answered as its operation ends; without one it is refused. -/
theorem serve_eq (m : UserManager) (r : Request × Env) :
    match m.opOf r.1 with
    | none => (m.serve r).1 = m ∧ (m.serve r).2.refuses
    | some op => (m.serve r).1 = m.after ⟨op, r.2⟩ ∧ ((m.serve r).2.refuses ↔ (m.call ⟨op, r.2⟩).2 ≠ none) := by
  obtain ⟨r, env⟩ := r
  cases r with
  | addUser body =>
    cases body with
    | error err => exact ⟨rfl, trivial⟩
    | ok user =>
      obtain ⟨userName, password⟩ := user
      simp only [opOf, serve, addUser, after, call]
      rcases m.add userName password env with ⟨m', _ | err⟩ <;> simp
  | updateUser userName body =>
    cases body with
    | error err =>
      simp only [opOf, serve, updateUser]
      split <;> exact ⟨rfl, trivial⟩
    | ok password =>
      simp only [opOf, serve, updateUser, get, after, call]
      by_cases hname : userName = ""
      · simp [hname]
      · cases m.usersMap.lookup userName with
        | none => simp [hname]
        | some old =>
          simp only [hname, reduceCtorEq, or_self, if_false]
          rcases m.update userName password env with ⟨m', _ | err⟩ <;> simp
  | deleteUser userName =>
    simp only [opOf, serve, deleteUser, get, after, call]
    by_cases hname : userName = ""
    · simp [hname]
    · cases m.usersMap.lookup userName with
      | none => simp [hname]
      | some old =>
        simp only [hname, reduceCtorEq, or_self, if_false]
        rcases m.delete userName env with ⟨m', _ | err⟩ <;> simp

/-- While the server accepts what it is sent, a refused request leaves the map as it
was, and after every request the map agrees with the server. -/
theorem requests_sound {m : UserManager} (hm : m.Agrees) (requests : List (Request × Env))
    (h : ∀ r ∈ requests, r.2.err = none) :
    Allowed (fun m r => (m.serve r).1) (fun m r => (m.serve r).1.Agrees ∧ ((m.serve r).2.refuses →
      ∀ username, (m.serve r).1.usersMap.lookup username = m.usersMap.lookup username)) m requests := by
  induction requests generalizing m with
  | nil => trivial
  | cons r requests ih =>
    obtain ⟨herr, hrest⟩ := List.forall_mem_cons.1 h
    suffices hone : (m.serve r).1.Agrees ∧ ((m.serve r).2.refuses →
        ∀ username, (m.serve r).1.usersMap.lookup username = m.usersMap.lookup username) from
      ⟨hone, ih hone.1 hrest⟩
    have heq := serve_eq m r
    split at heq
    · rw [heq.1]
      exact ⟨hm, fun _ _ => rfl⟩
    · rename_i op _
      have hsound : m.Sound ⟨op, r.2⟩ := by
        refine (sound_iff m _).2 ?_
        by_cases hasks : m.Asks op
        · exact .inl ⟨hasks, herr⟩
        · cases op with
          | add username password => exact .inr ⟨hasks, hm⟩
          | update | delete => exact absurd trivial hasks
      rw [heq.1, heq.2]
      exact ⟨hsound.2, hsound.1⟩

/-- Users from a saved cache; then an unknown user is deleted, a name is missing, one
user is added twice and updated. -/
theorem requests_sound_restored :
    let m := (newUserManager {}).restore (AList.insert "alice" "a" ∅) {}
    let requests : List (Request × Env) := [(.deleteUser "carol", {}), (.updateUser "" (.ok "c"), {}),
      (.addUser (.ok ("bob", "b")), {}), (.addUser (.ok ("bob", "c")), {}), (.updateUser "alice" (.ok "c"), {})]
    m.Agrees ∧ (m.serve (.deleteUser "carol", {})).2 = .notFound ∧
      Allowed (fun m r => (m.serve r).1) (fun m r => (m.serve r).1.Agrees ∧ ((m.serve r).2.refuses →
        ∀ username, (m.serve r).1.usersMap.lookup username = m.usersMap.lookup username)) m requests := by
  have hagrees : ((newUserManager {}).restore (AList.insert "alice" "a" ∅) {}).Agrees :=
    (restore_agrees_iff _ _).2 (.inl rfl)
  exact ⟨hagrees, rfl, requests_sound hagrees _ (by simp)⟩

end UserManager

end Singlink.Ssmapi
