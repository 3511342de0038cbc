import Mathlib.Data.Finset.Card
import Mathlib.Data.Finset.Range
import Singlink.Lib.GoMap
import Singlink.Lib.Runs
/-!
# The realm server

The sessions of `protocol/hysteria2/realm_server.go`. Handlers run concurrently and
keep pointers to sessions that may be removed meanwhile, so every critical section
is a step of its own, for any session there has ever been. Sessions and channels are
places of a heap; closing a channel that is closed and sending on one is a panic.

Timers are left out: a session may expire at any step that comes late enough.
-/

namespace Singlink.Hysteria2

open Lib Function Finset GoMap

abbrev Time := Int

def sessionTTL : Time := 60

def eventChannelSize : Nat := 16

def maxPendingAttempts : Nat := 16

structure RealmUser where
  name : String
  maxRealms : Int

inductive RealmEvent where
  | heartbeatAck
  | punch (addresses : List String) (nonce obfs : String)

/-- What is sent on channels: events, and `punchResponsePayload`. -/
inductive Message where
  | event (event : RealmEvent)
  | response (addresses : List String)

/-- What a channel was made for. -/
inductive ChanOwner where
  | done (session : Nat)
  | events (session : Nat)
  | attempt (session : Nat) (nonce : String)
  deriving DecidableEq

structure Chan where
  owner : ChanOwner
  capacity : Nat
  buffer : List Message := []
  closed : Bool := false

structure RealmSession where
  id : String
  realmID : String
  username : String
  addresses : List String
  expires : Time
  events : Nat
  done : Nat
  closed : Bool := false
  pending : GoMap String Nat := ∅

/-- `server`, with the heap of its sessions and channels. -/
structure Server where
  tokenMap : GoMap String RealmUser
  realms : GoMap String Nat := ∅
  sessions : GoMap String Nat := ∅
  userCounts : GoMap String Int := ∅
  heap : Nat → RealmSession := fun _ => ⟨"", "", "", [], 0, 0, 0, true, ∅⟩
  next : Nat := 0
  chans : Nat → Chan := fun _ => ⟨.done 0, 0, [], true⟩
  nextChan : Nat := 0

namespace Server

def modify (s : Server) (sess : Nat) (f : RealmSession → RealmSession) : Server :=
  { s with heap := Function.update s.heap sess (f (s.heap sess)) }

def makeChan (s : Server) (owner : ChanOwner) (capacity : Nat) : Nat × Server :=
  (s.nextChan, { s with chans := Function.update s.chans s.nextChan { owner, capacity }, nextChan := s.nextChan + 1 })

/-- `close`; no result is a panic. -/
def closeChan (s : Server) (ch : Nat) : Option Server :=
  if (s.chans ch).closed then none
  else some { s with chans := Function.update s.chans ch { s.chans ch with closed := true } }

/-- A send that does not wait; no result is a panic. -/
def trySend (s : Server) (ch : Nat) (message : Message) : Option (Bool × Server) :=
  if (s.chans ch).closed then none
  else if (s.chans ch).buffer.length < (s.chans ch).capacity then
    some (true, { s with
      chans := Function.update s.chans ch { s.chans ch with buffer := (s.chans ch).buffer ++ [message] } })
  else some (false, s)

/-! ## Removal -/

def closePending (sess : Nat) : List (String × Nat) → Server → Option Server
  | [], s => some s
  | (nonce, ch) :: rest, s => do
    let s ← s.closeChan ch
    closePending sess rest (s.modify sess fun it => { it with pending := it.pending.erase nonce })

/-- `userCounts[username]--`, where no count is kept at zero. -/
def uncount (s : Server) (username : String) : Server :=
  let count := s.userCounts.get username 0 - 1
  let userCounts := s.userCounts.insert username count
  { s with userCounts := if count ≤ 0 then userCounts.erase username else userCounts }

/-- The part of `removeSessionLocked` that takes a session out of the maps. -/
def unlist (s : Server) (sess : Nat) (it : RealmSession) : Server :=
  let s := if s.realms.lookup it.realmID = some sess then { s with realms := s.realms.erase it.realmID } else s
  let s := if (s.sessions.lookup it.id).isSome then s.uncount it.username else s
  { s with sessions := s.sessions.erase it.id }

/-- `removeSessionLocked`, with the order of the loop over the pending attempts. -/
def removeSessionLocked (s : Server) (sess : Nat) (order : List String) : Option Server :=
  if (s.heap sess).closed then some s
  else do
    let it := s.heap sess
    let s ← (s.modify sess fun it => { it with closed := true }).closeChan it.done
    let s ← (s.unlist sess it).closeChan it.events
    closePending sess (it.pending.range order) s

def removeExpiredSession (s : Server) (sess : Nat) (now : Time) (order : List String) : Option Server :=
  if (s.heap sess).closed ∨ ¬ now > (s.heap sess).expires then some s
  else s.removeSessionLocked sess order

/-- `closeAll`, with the orders of its loops. -/
def closeAll (s : Server) (order : List String) (orders : Nat → List String) : Option Server :=
  (s.sessions.range order).foldlM (fun s entry => s.removeSessionLocked entry.2 (orders entry.2)) s

/-! ## Attempts and events -/

def registerPending (s : Server) (sess : Nat) (nonce : String) : Option Nat × Server :=
  if (s.heap sess).closed ∨ maxPendingAttempts ≤ (s.heap sess).pending.keys.length then (none, s)
  else if ((s.heap sess).pending.lookup nonce).isSome then (none, s)
  else
    let (ch, s) := s.makeChan (.attempt sess nonce) 1
    (some ch, s.modify sess fun it => { it with pending := it.pending.insert nonce ch })

def deliverPending (s : Server) (sess : Nat) (nonce : String) (addresses : List String) : Option (Bool × Server) :=
  if (s.heap sess).closed then some (false, s)
  else
    match (s.heap sess).pending.lookup nonce with
    | none => some (false, s)
    | some ch => do
      let s := s.modify sess fun it => { it with pending := it.pending.erase nonce }
      let (_, s) ← s.trySend ch (.response addresses)
      return (true, s)

def cancelPending (s : Server) (sess : Nat) (nonce : String) : Server :=
  s.modify sess fun it => { it with pending := it.pending.erase nonce }

def sendEvent (s : Server) (sess : Nat) (ev : RealmEvent) : Option (Bool × Server) :=
  if (s.heap sess).closed then some (false, s) else s.trySend (s.heap sess).events (.event ev)

/-- A receive, of `handleEvents` or `handleConnect`. -/
def receive (s : Server) (ch : Nat) : Server :=
  { s with chans := Function.update s.chans ch { s.chans ch with buffer := (s.chans ch).buffer.tail } }

/-! ## Handlers -/

inductive RegisterError where
  | invalidToken
  | realmTaken
  | realmLimitReached
  | entropyFailure

/-- The critical section of `handleRegister`, after `authUser`; `sessionID` is what
`rand` makes, if it does. -/
def handleRegister (s : Server) (token id : String) (addresses : List String) (now : Time)
    (sessionID : Option String) : Except RegisterError Nat × Server :=
  match s.tokenMap.lookup token with
  | none => (.error .invalidToken, s)
  | some user =>
    if (s.realms.lookup id).isSome then (.error .realmTaken, s)
    else if user.maxRealms > 0 ∧ s.userCounts.get user.name 0 ≥ user.maxRealms then (.error .realmLimitReached, s)
    else
      match sessionID with
      | none => (.error .entropyFailure, s)
      | some sessionID =>
        let sess := s.next
        let (events, s) := s.makeChan (.events sess) eventChannelSize
        let (done, s) := s.makeChan (.done sess) 0
        let it : RealmSession :=
          { id := sessionID, realmID := id, username := user.name, addresses, expires := now + sessionTTL, events, done }
        (.ok sess, { s with
          heap := Function.update s.heap sess it
          next := s.next + 1
          realms := s.realms.insert id sess
          sessions := s.sessions.insert sessionID sess
          userCounts := s.userCounts.insert user.name (s.userCounts.get user.name 0 + 1) })

/-- The critical section of `handleHeartbeat`; its event is sent in another one. -/
def handleHeartbeat (s : Server) (sess : Nat) (addresses : Option (List String)) (now : Time) : Server :=
  s.modify sess fun it => { it with expires := now + sessionTTL, addresses := addresses.getD it.addresses }

end Server

/-- The critical sections. A session is any that a handler may have a pointer to. -/
inductive Op where
  | register (token id : String) (addresses : List String) (now : Time) (sessionID : Option String)
  | deregister (sess : Nat) (order : List String)
  | heartbeat (sess : Nat) (addresses : Option (List String)) (now : Time)
  | expire (sess : Nat) (now : Time) (order : List String)
  | registerPending (sess : Nat) (nonce : String)
  | deliverPending (sess : Nat) (nonce : String) (addresses : List String)
  | cancelPending (sess : Nat) (nonce : String)
  | sendEvent (sess : Nat) (ev : RealmEvent)
  | receive (ch : Nat)
  | closeAll (order : List String) (orders : Nat → List String)

namespace Server

/-- No result is a panic. -/
def step (s : Server) : Op → Option Server
  | .register token id addresses now sessionID => some (s.handleRegister token id addresses now sessionID).2
  | .deregister sess order => s.removeSessionLocked sess order
  | .heartbeat sess addresses now => some (s.handleHeartbeat sess addresses now)
  | .expire sess now order => s.removeExpiredSession sess now order
  | .registerPending sess nonce => some (s.registerPending sess nonce).2
  | .deliverPending sess nonce addresses => (s.deliverPending sess nonce addresses).map Prod.snd
  | .cancelPending sess nonce => some (s.cancelPending sess nonce)
  | .sendEvent sess ev => (s.sendEvent sess ev).map Prod.snd
  | .receive ch => some (s.receive ch)
  | .closeAll order orders => s.closeAll order orders

/-- The call is for a session there has been, and a new session has an id that no
session had. -/
def Possible (s : Server) : Op → Prop
  | .register _ _ _ _ sessionID => ∀ id, sessionID = some id → ∀ sess < s.next, (s.heap sess).id ≠ id
  | .deregister sess _ | .heartbeat sess _ _ | .expire sess _ _ | .registerPending sess _ | .deliverPending sess _ _
  | .cancelPending sess _ | .sendEvent sess _ => sess < s.next
  | .receive ch => ch < s.nextChan
  | .closeAll _ _ => True

def system : System Server Op := .ofPartial (fun s => ∃ tokenMap, s = { tokenMap }) step

def Open (s : Server) (sess : Nat) : Prop := sess < s.next ∧ (s.heap sess).closed = false

instance (s : Server) (sess : Nat) : Decidable (s.Open sess) := inferInstanceAs (Decidable (_ ∧ _))

def count (s : Server) (username : String) : Nat :=
  ((Finset.range s.next).filter fun sess => s.Open sess ∧ (s.heap sess).username = username).card

/-- All users of the name have a limit, of at most `limit`. -/
def Limited (s : Server) (username : String) (limit : Int) : Prop :=
  0 < limit ∧ ∀ token user, s.tokenMap.lookup token = some user → user.name = username →
    0 < user.maxRealms ∧ user.maxRealms ≤ limit

/-- The maps have the open sessions, the counts are those of the open sessions and keep
the limits, and no session has too many attempts. -/
structure Consistent (s : Server) : Prop where
  sessions : ∀ id sess, s.sessions.lookup id = some sess ↔ s.Open sess ∧ (s.heap sess).id = id
  realms : ∀ id sess, s.realms.lookup id = some sess ↔ s.Open sess ∧ (s.heap sess).realmID = id
  counts : ∀ username, s.userCounts.get username 0 = s.count username
  limits : ∀ username limit, s.Limited username limit → s.userCounts.get username 0 ≤ limit
  pending : ∀ sess < s.next, (s.heap sess).pending.keys.length ≤ maxPendingAttempts

/-- The channels of the sessions: those of an open session and of its attempts are
open, those of a closed one are closed. -/
structure ChansOk (s : Server) : Prop where
  done : ∀ sess < s.next, (s.heap sess).done < s.nextChan ∧ (s.chans (s.heap sess).done).owner = .done sess ∧
    (s.chans (s.heap sess).done).closed = (s.heap sess).closed
  events : ∀ sess < s.next, (s.heap sess).events < s.nextChan ∧ (s.chans (s.heap sess).events).owner = .events sess ∧
    (s.chans (s.heap sess).events).closed = (s.heap sess).closed
  attempts : ∀ sess < s.next, ∀ nonce ch, (s.heap sess).pending.lookup nonce = some ch →
    ch < s.nextChan ∧ (s.chans ch).owner = .attempt sess nonce ∧ (s.chans ch).closed = false

/-! ## Channels -/

/-- Some channels are closed, and nothing else becomes of channels. -/
def Closes (chans chans' : Nat → Chan) (which : Nat → Prop) : Prop :=
  ∀ ch, (chans' ch).owner = (chans ch).owner ∧ ((chans' ch).closed = true ↔ (chans ch).closed = true ∨ which ch)

theorem Closes.trans {chans chans' chans'' : Nat → Chan} {which which' : Nat → Prop} (h : Closes chans chans' which)
    (h' : Closes chans' chans'' which') : Closes chans chans'' fun ch => which ch ∨ which' ch := by
  intro ch
  obtain ⟨howner, hclosed⟩ := h ch
  obtain ⟨howner', hclosed'⟩ := h' ch
  exact ⟨howner'.trans howner, by rw [hclosed', hclosed, or_assoc]⟩

variable {ch : Nat} {s' : Server} {it : RealmSession}

theorem Closes.closed_eq {chans chans' : Nat → Chan} {which : Nat → Prop} (h : Closes chans chans' which)
    (hwhich : ¬ which ch) : (chans' ch).closed = (chans ch).closed := by
  rw [Bool.eq_iff_iff, (h ch).2, or_iff_left hwhich]

variable {s : Server} {sess : Nat} {s : Server}

theorem chan_kept {owner : ChanOwner} {closed : Bool}
    (h : ch < s.nextChan ∧ (s.chans ch).owner = owner ∧ (s.chans ch).closed = closed)
    (hnextChan : s.nextChan ≤ s'.nextChan)
    (hsame : (s'.chans ch).owner = (s.chans ch).owner ∧ (s'.chans ch).closed = (s.chans ch).closed) :
    ch < s'.nextChan ∧ (s'.chans ch).owner = owner ∧ (s'.chans ch).closed = closed := by
  obtain ⟨hlt, howner, hclosed⟩ := h
  exact ⟨lt_of_lt_of_le hlt hnextChan, hsame.1.trans howner, hsame.2.trans hclosed⟩

theorem closeChan_eq (hopen : (s.chans ch).closed = false) :
    ∃ chans, s.closeChan ch = some { s with chans } ∧ Closes s.chans chans (· = ch) := by
  refine ⟨_, if_neg (by simp [hopen]), fun ch' => ?_⟩
  by_cases heq : ch' = ch
  · subst heq
    simp
  · simp [heq]

theorem closePending_eq (sess : Nat) (entries : List (String × Nat)) (s : Server)
    (hopen : ∀ entry ∈ entries, (s.chans entry.2).closed = false) (hnodup : (entries.map Prod.snd).Nodup) :
    ∃ pending chans, closePending sess entries s =
        some { s with heap := update s.heap sess { s.heap sess with pending }, chans } ∧
      (∀ nonce, pending.lookup nonce =
        if nonce ∈ entries.map Prod.fst then none else (s.heap sess).pending.lookup nonce) ∧
      Closes s.chans chans (· ∈ entries.map Prod.snd) := by
  induction entries generalizing s with
  | nil =>
    refine ⟨(s.heap sess).pending, s.chans, ?_, by simp, fun ch => by simp⟩
    rw [update_eq_self]
    rfl
  | cons entry entries ih =>
    obtain ⟨nonce, ch⟩ := entry
    rw [List.map_cons, List.nodup_cons] at hnodup
    obtain ⟨chans, hclose, hcloses⟩ := closeChan_eq (hopen (nonce, ch) (.head _))
    -- the other attempts have other channels
    have hrest : ∀ entry ∈ entries, (chans entry.2).closed = false := by
      intro entry hentry
      have hne : entry.2 ≠ ch := fun heq => hnodup.1 (List.mem_map.2 ⟨entry, hentry, heq⟩)
      rw [hcloses.closed_eq hne]
      exact hopen entry (.tail _ hentry)
    obtain ⟨pending, chans', heq, hpending, hcloses'⟩ := ih
      (({ s with chans } : Server).modify sess fun it => { it with pending := it.pending.erase nonce }) hrest hnodup.2
    refine ⟨pending, chans', ?_, fun nonce' => ?_, ?_⟩
    · simp only [closePending, hclose, Option.bind_eq_bind, Option.bind_some, heq]
      simp [modify]
    · rw [hpending]
      simp only [modify, update_self, List.map_cons, List.mem_cons]
      rw [lookup_erase_eq]
      by_cases hnonce : nonce' = nonce
      · simp only [hnonce, if_true, true_or, ite_self]
      · simp only [hnonce, if_false, false_or]
    · intro ch'
      have h := hcloses.trans hcloses' ch'
      simpa only [List.map_cons, List.mem_cons] using h

theorem ChansOk.pending_nodup (h : s.ChansOk) (hsess : sess < s.next) (order : List String) :
    (((s.heap sess).pending.range order).map Prod.snd).Nodup := by
  refine .map_on ?_ (List.Nodup.of_map _ (nodup_range_keys _ order))
  rintro ⟨nonce, ch⟩ hmem ⟨nonce', ch'⟩ hmem' heq
  obtain ⟨-, howner, -⟩ := h.attempts sess hsess nonce ch (mem_range.1 hmem)
  obtain ⟨-, howner', -⟩ := h.attempts sess hsess nonce' ch' (mem_range.1 hmem')
  cases heq
  rw [howner] at howner'
  cases howner'
  rfl

theorem unlist_eq (hrealm : s.realms.lookup it.realmID = some sess)
    (hsession : s.sessions.lookup it.id = some sess) :
    s.unlist sess it = { s with
      realms := s.realms.erase it.realmID
      sessions := s.sessions.erase it.id
      userCounts := (s.uncount it.username).userCounts } := by
  unfold unlist
  simp only [if_pos hrealm, hsession, Option.isSome_some, if_true]
  rfl

theorem removeSessionLocked_eq (h : s.Consistent) (hchans : s.ChansOk) (hopen : s.Open sess) (order : List String) :
    ∃ pending chans, s.removeSessionLocked sess order = some { s with
        heap := update s.heap sess { s.heap sess with closed := true, pending }
        chans
        realms := s.realms.erase (s.heap sess).realmID
        sessions := s.sessions.erase (s.heap sess).id
        userCounts := (s.uncount (s.heap sess).username).userCounts } ∧
      (∀ nonce, pending.lookup nonce = none) ∧
      Closes s.chans chans fun ch => (ch = (s.heap sess).done ∨ ch = (s.heap sess).events) ∨
        ch ∈ ((s.heap sess).pending.range order).map Prod.snd := by
  obtain ⟨hlt, hclosed⟩ := hopen
  obtain ⟨-, hdone, hdoneOpen⟩ := hchans.done sess hlt
  obtain ⟨-, hevents, heventsOpen⟩ := hchans.events sess hlt
  rw [hclosed] at hdoneOpen heventsOpen
  have hne : ¬ (s.heap sess).events = (s.heap sess).done := by
    intro heq
    rw [heq, hdone] at hevents
    cases hevents
  have hrealm : s.realms.lookup (s.heap sess).realmID = some sess := (h.realms _ _).2 ⟨⟨hlt, hclosed⟩, rfl⟩
  have hsession : s.sessions.lookup (s.heap sess).id = some sess := (h.sessions _ _).2 ⟨⟨hlt, hclosed⟩, rfl⟩
  -- the channel `done`, then `events`
  let s₁ := s.modify sess fun it => { it with closed := true }
  obtain ⟨chans₁, hclose₁, hcloses₁⟩ : ∃ chans, s₁.closeChan (s.heap sess).done = some { s₁ with chans } ∧
      Closes s.chans chans (· = (s.heap sess).done) := closeChan_eq hdoneOpen
  let s₂ := ({ s₁ with chans := chans₁ } : Server).unlist sess (s.heap sess)
  have hs₂ : s₂ = { s with
      heap := update s.heap sess { s.heap sess with closed := true }
      chans := chans₁
      realms := s.realms.erase (s.heap sess).realmID
      sessions := s.sessions.erase (s.heap sess).id
      userCounts := (s.uncount (s.heap sess).username).userCounts } := unlist_eq hrealm hsession
  have hchans₂ : s₂.chans = chans₁ := by rw [hs₂]
  obtain ⟨chans₂, hclose₂, hcloses₂⟩ : ∃ chans, s₂.closeChan (s.heap sess).events = some { s₂ with chans } ∧
      Closes chans₁ chans (· = (s.heap sess).events) := by
    rw [← hchans₂]
    exact closeChan_eq (by rw [hchans₂]; exact (hcloses₁.closed_eq hne).trans heventsOpen)
  have hcloses := hcloses₁.trans hcloses₂
  -- the channels of the attempts are others
  have hopen₂ : ∀ entry ∈ (s.heap sess).pending.range order, (chans₂ entry.2).closed = false := by
    intro entry hentry
    obtain ⟨-, howner, hattempt⟩ := hchans.attempts sess hlt entry.1 entry.2 (mem_range.1 hentry)
    refine (hcloses.closed_eq ?_).trans hattempt
    rintro (heq | heq)
    · rw [heq, hdone] at howner
      cases howner
    · rw [heq, hevents] at howner
      cases howner
  obtain ⟨pending, chans₃, heq, hpending, hcloses₃⟩ := closePending_eq sess ((s.heap sess).pending.range order)
    { s₂ with chans := chans₂ } hopen₂ (hchans.pending_nodup hlt order)
  refine ⟨pending, chans₃, ?_, fun nonce => ?_, hcloses.trans hcloses₃⟩
  · have hremove : s.removeSessionLocked sess order =
        closePending sess ((s.heap sess).pending.range order) { s₂ with chans := chans₂ } := by
      unfold removeSessionLocked
      rw [if_neg (by simp [hclosed])]
      change ((s₁.closeChan (s.heap sess).done).bind fun s' => ((s'.unlist sess (s.heap sess)).closeChan
        (s.heap sess).events).bind fun s' => closePending sess ((s.heap sess).pending.range order) s') = _
      rw [hclose₁, Option.bind_some]
      rw [hclose₂, Option.bind_some]
    rw [hremove, heq, hs₂]
    simp
  · rw [hpending]
    split
    · rfl
    · rename_i hnonce
      have hheap : (s₂.heap sess).pending = (s.heap sess).pending := by
        rw [hs₂]
        simp
      rw [hheap]
      cases hlookup : (s.heap sess).pending.lookup nonce with
      | none => rfl
      | some ch => exact absurd (List.mem_map.2 ⟨(nonce, ch), mem_range.2 hlookup, rfl⟩) hnonce

/-! ## Steps -/

structure Inv (s : Server) : Prop where
  consistent : s.Consistent
  chans : s.ChansOk

theorem count_congr (hnext : s'.next = s.next) {username : String}
    (h : ∀ sess < s.next, (s'.Open sess ∧ (s'.heap sess).username = username) ↔
      (s.Open sess ∧ (s.heap sess).username = username)) : s'.count username = s.count username := by
  unfold count
  rw [hnext]
  refine congrArg card (filter_congr fun sess hsess => ?_)
  exact h sess (mem_range.1 hsess)

/-- What stays the same of a session while it is neither made nor removed. -/
structure SameSession (it it' : RealmSession) : Prop where
  id : it'.id = it.id
  realmID : it'.realmID = it.realmID
  username : it'.username = it.username
  events : it'.events = it.events
  done : it'.done = it.done
  closed : it'.closed = it.closed

theorem SameSession.refl (it : RealmSession) : SameSession it it := ⟨rfl, rfl, rfl, rfl, rfl, rfl⟩

/-- No session is made or removed. -/
structure SameSessions (s s' : Server) : Prop where
  tokenMap : s'.tokenMap = s.tokenMap
  realms : s'.realms = s.realms
  sessions : s'.sessions = s.sessions
  userCounts : s'.userCounts = s.userCounts
  next : s'.next = s.next
  heap : ∀ sess, SameSession (s.heap sess) (s'.heap sess)

theorem SameSessions.open_iff (h : SameSessions s s') (sess : Nat) : s'.Open sess ↔ s.Open sess := by
  unfold Open
  rw [h.next, (h.heap sess).closed]

theorem Consistent.same (h : s.Consistent) (hsame : SameSessions s s')
    (hpending : ∀ sess < s.next, (s'.heap sess).pending.keys.length ≤ maxPendingAttempts) : s'.Consistent := by
  refine ⟨fun id sess => ?_, fun id sess => ?_, fun username => ?_, fun username limit hlimit => ?_, ?_⟩
  · rw [hsame.sessions, hsame.open_iff, (hsame.heap sess).id]
    exact h.sessions id sess
  · rw [hsame.realms, hsame.open_iff, (hsame.heap sess).realmID]
    exact h.realms id sess
  · rw [hsame.userCounts, h.counts]
    refine congrArg Nat.cast (count_congr hsame.next fun sess _ => ?_).symm
    rw [hsame.open_iff, (hsame.heap sess).username]
  · rw [hsame.userCounts]
    refine h.limits username limit ?_
    unfold Limited at hlimit ⊢
    rwa [hsame.tokenMap] at hlimit
  · rw [hsame.next]
    exact hpending

/-- The channels there were keep their owners and are not closed; an attempt is one
there was, or has a new channel. -/
theorem ChansOk.same (h : s.ChansOk) (hsame : SameSessions s s') (hnextChan : s.nextChan ≤ s'.nextChan)
    (hchans : ∀ ch < s.nextChan, (s'.chans ch).owner = (s.chans ch).owner ∧ (s'.chans ch).closed = (s.chans ch).closed)
    (hattempts : ∀ sess < s.next, ∀ nonce ch, (s'.heap sess).pending.lookup nonce = some ch →
      (s.heap sess).pending.lookup nonce = some ch ∨
        (ch < s'.nextChan ∧ (s'.chans ch).owner = .attempt sess nonce ∧ (s'.chans ch).closed = false)) : s'.ChansOk := by
  refine ⟨fun sess hsess => ?_, fun sess hsess => ?_, fun sess hsess nonce ch hlookup => ?_⟩
  · rw [hsame.next] at hsess
    have hdone := h.done sess hsess
    rw [(hsame.heap sess).done, (hsame.heap sess).closed]
    exact chan_kept hdone hnextChan (hchans _ hdone.1)
  · rw [hsame.next] at hsess
    have hevents := h.events sess hsess
    rw [(hsame.heap sess).events, (hsame.heap sess).closed]
    exact chan_kept hevents hnextChan (hchans _ hevents.1)
  · rw [hsame.next] at hsess
    rcases hattempts sess hsess nonce ch hlookup with hold | hnew
    · have hattempt := h.attempts sess hsess nonce ch hold
      exact chan_kept hattempt hnextChan (hchans _ hattempt.1)
    · exact hnew

variable {f : RealmSession → RealmSession}

theorem sameSessions_modify (s : Server) (sess : Nat)
    (hf : ∀ it, SameSession it (f it)) : SameSessions s (s.modify sess f) := by
  refine ⟨rfl, rfl, rfl, rfl, rfl, ?_⟩
  exact (forall_update_iff _ fun sess' it' => SameSession (s.heap sess') it').2 ⟨hf _, fun _ _ => .refl _⟩

theorem Inv.modify (h : s.Inv) (sess : Nat) (hf : ∀ it, SameSession it (f it))
    (hpending : ∀ it, (f it).pending.keys.length ≤ it.pending.keys.length)
    (hattempts : ∀ it nonce ch, (f it).pending.lookup nonce = some ch → it.pending.lookup nonce = some ch) :
    (s.modify sess f).Inv := by
  have hsame := s.sameSessions_modify sess hf
  refine ⟨h.consistent.same hsame ?_, h.chans.same hsame le_rfl (fun _ _ => ⟨rfl, rfl⟩)
    fun sess' _ nonce ch => .inl ∘ ?_⟩
  · refine (forall_update_iff s.heap fun sess' it => sess' < s.next → it.pending.keys.length ≤ maxPendingAttempts).2 ⟨?_, ?_⟩
    · exact fun hsess => (hpending _).trans (h.consistent.pending sess hsess)
    · exact fun sess' _ => h.consistent.pending sess'
  · revert sess'
    refine (forall_update_iff s.heap fun sess' it => sess' < s.next → it.pending.lookup nonce = some ch →
      (s.heap sess').pending.lookup nonce = some ch).2 ⟨fun _ => hattempts _ nonce ch, fun _ _ _ hlookup => hlookup⟩

theorem keys_erase_length (m : GoMap String Nat) (nonce : String) : (m.erase nonce).keys.length ≤ m.keys.length := by
  rw [AList.keys_erase]
  exact List.length_erase_le

theorem Inv.cancelPending (h : s.Inv) (sess : Nat) (nonce : String) : (s.cancelPending sess nonce).Inv :=
  h.modify sess (fun _ => ⟨rfl, rfl, rfl, rfl, rfl, rfl⟩) (fun it => keys_erase_length it.pending nonce)
    fun _ _ _ hlookup => lookup_of_erase hlookup

theorem Inv.heartbeat (h : s.Inv) (sess : Nat) (addresses : Option (List String)) (now : Time) :
    (s.handleHeartbeat sess addresses now).Inv :=
  h.modify sess (fun _ => ⟨rfl, rfl, rfl, rfl, rfl, rfl⟩) (fun _ => le_rfl) fun _ _ _ hlookup => hlookup

theorem Inv.buffer (h : s.Inv) (ch : Nat) (buffer : List Message) :
    ({ s with chans := update s.chans ch { s.chans ch with buffer } } : Server).Inv := by
  have hsame : SameSessions s { s with chans := update s.chans ch { s.chans ch with buffer } } :=
    ⟨rfl, rfl, rfl, rfl, rfl, fun _ => .refl _⟩
  refine ⟨h.consistent.same hsame h.consistent.pending, h.chans.same hsame le_rfl (fun ch' _ => ?_)
    fun _ _ _ _ hlookup => .inl hlookup⟩
  by_cases heq : ch' = ch
  · subst heq
    simp
  · simp [heq]

theorem Inv.trySend (h : s.Inv) (hopen : (s.chans ch).closed = false) (message : Message) :
    ∃ sent s', s.trySend ch message = some (sent, s') ∧ s'.Inv := by
  unfold Server.trySend
  rw [if_neg (by simp [hopen])]
  split
  · exact ⟨true, _, rfl, h.buffer ch _⟩
  · exact ⟨false, s, rfl, h⟩

theorem Inv.sendEvent (h : s.Inv) (hsess : sess < s.next) (ev : RealmEvent) :
    ∃ sent s', s.sendEvent sess ev = some (sent, s') ∧ s'.Inv := by
  unfold Server.sendEvent
  split
  · exact ⟨false, s, rfl, h⟩
  · rename_i hclosed
    refine h.trySend ?_ _
    rw [(h.chans.events sess hsess).2.2]
    exact Bool.eq_false_of_not_eq_true hclosed

theorem Inv.deliverPending (h : s.Inv) (hsess : sess < s.next) (nonce : String) (addresses : List String) :
    ∃ sent s', s.deliverPending sess nonce addresses = some (sent, s') ∧ s'.Inv := by
  unfold Server.deliverPending
  split
  · exact ⟨false, s, rfl, h⟩
  · split
    · exact ⟨false, s, rfl, h⟩
    · rename_i ch hlookup
      obtain ⟨-, -, hopen⟩ := h.chans.attempts sess hsess nonce ch hlookup
      have hopen' : ((s.cancelPending sess nonce).chans ch).closed = false := hopen
      obtain ⟨sent, s', heq, hinv⟩ := (h.cancelPending sess nonce).trySend hopen' (.response addresses)
      refine ⟨true, s', ?_, hinv⟩
      change ((s.cancelPending sess nonce).trySend ch (.response addresses)).bind _ = _
      rw [heq]
      rfl

theorem Inv.registerPending (h : s.Inv) (hsess : sess < s.next) (nonce : String) :
    (s.registerPending sess nonce).2.Inv := by
  unfold Server.registerPending
  split
  · exact h
  · split
    · exact h
    · let s' : Server := { s with
        chans := update s.chans s.nextChan { owner := .attempt sess nonce, capacity := 1 }
        nextChan := s.nextChan + 1 }
      let put : RealmSession → RealmSession := fun it => { it with pending := it.pending.insert nonce s.nextChan }
      have hput : SameSessions s (s'.modify sess put) :=
        have hsame := s.sameSessions_modify sess (f := put) fun _ => ⟨rfl, rfl, rfl, rfl, rfl, rfl⟩
        ⟨rfl, rfl, rfl, rfl, rfl, hsame.heap⟩
      change (s'.modify sess put).Inv
      refine ⟨h.consistent.same hput fun sess' hsess' => ?_, h.chans.same hput (Nat.le_succ _) (fun ch hch => ?_)
        fun sess' _ nonce' ch hlookup => ?_⟩
      · by_cases heq : sess' = sess
        · subst heq
          simp only [Server.modify, s', update_self, put, AList.keys_insert, List.length_cons]
          have hle := (s.heap sess').pending.keys.length_erase_le (a := nonce)
          omega
        · simp only [Server.modify, update_of_ne heq]
          exact h.consistent.pending sess' hsess'
      · change (update s.chans s.nextChan _ ch).owner = _ ∧ (update s.chans s.nextChan _ ch).closed = _
        rw [update_of_ne hch.ne]
        exact ⟨rfl, rfl⟩
      · by_cases heq : sess' = sess
        · subst heq
          simp only [Server.modify, update_self, put] at hlookup
          rcases lookup_of_insert hlookup with ⟨rfl, rfl⟩ | hold
          · refine .inr ⟨Nat.lt_succ_self _, ?_⟩
            simp [Server.modify, s']
          · exact .inl hold
        · simp only [Server.modify, update_of_ne heq] at hlookup
          exact .inl hlookup

theorem uncount_get {username : String} (hpos : 0 < s.userCounts.get username 0) (username' : String) :
    (s.uncount username).userCounts.get username' 0 =
      s.userCounts.get username' 0 - if username' = username then 1 else 0 := by
  unfold uncount
  simp only
  split
  · rw [get_erase, get_insert]
    split
    · rename_i heq
      subst heq
      omega
    · simp
  · rw [get_insert]
    split
    · rename_i heq
      subst heq
      rfl
    · simp

theorem count_remove (hopen : s.Open sess) (hnext : s'.next = s.next)
    (hclosed : (s'.heap sess).closed = true) (hheap : ∀ sess', sess' ≠ sess → s'.heap sess' = s.heap sess')
    (username : String) :
    s'.count username + (if username = (s.heap sess).username then 1 else 0) = s.count username := by
  have hnot : ¬ s'.Open sess := fun h => by simp [Open, hclosed] at h
  have hothers : ∀ sess', sess' ≠ sess → (s'.Open sess' ↔ s.Open sess') := by
    intro sess' hne
    unfold Open
    rw [hnext, hheap sess' hne]
  split
  · rename_i heq
    have hmem : sess ∈ (range s.next).filter fun sess => s.Open sess ∧ (s.heap sess).username = username :=
      mem_filter.2 ⟨mem_range.2 hopen.1, hopen, heq.symm⟩
    rw [count, count, ← card_erase_add_one hmem, hnext]
    refine congrArg (card · + 1) (ext fun sess' => ?_)
    rw [mem_erase, mem_filter]
    by_cases hsess' : sess' = sess
    · simp [hsess', hnot]
    · rw [hothers sess' hsess', hheap sess' hsess']
      simp [hsess']
  · rename_i hne
    refine count_congr hnext fun sess' _ => ?_
    by_cases hsess' : sess' = sess
    · subst hsess'
      simp [hnot, Ne.symm hne]
    · rw [hothers sess' hsess', hheap sess' hsess']

theorem count_add (hnext : s'.next = s.next + 1) (hopen : (s'.heap s.next).closed = false)
    (hheap : ∀ sess < s.next, s'.heap sess = s.heap sess) (username : String) :
    s'.count username = s.count username + if username = (s'.heap s.next).username then 1 else 0 := by
  have hothers : ∀ sess < s.next, (s'.Open sess ↔ s.Open sess) := by
    intro sess hsess
    unfold Open
    rw [hnext, hheap sess hsess]
    exact and_congr_left fun _ => ⟨fun _ => hsess, Nat.lt_succ_of_lt⟩
  have hrest : ((range s.next).filter fun sess => s'.Open sess ∧ (s'.heap sess).username = username) =
      (range s.next).filter fun sess => s.Open sess ∧ (s.heap sess).username = username := by
    refine filter_congr fun sess hsess => ?_
    rw [hothers sess (mem_range.1 hsess), hheap sess (mem_range.1 hsess)]
  have hnew : s'.Open s.next := ⟨by omega, hopen⟩
  rw [count, hnext, range_add_one, filter_insert]
  split
  · rename_i heq
    rw [card_insert_of_notMem (by simp), hrest, if_pos heq.2.symm]
    rfl
  · rename_i hne
    rw [hrest, if_neg fun heq => hne ⟨hnew, heq.symm⟩]
    rfl

structure Removed (s s' : Server) (sess : Nat) : Prop where
  tokenMap : s'.tokenMap = s.tokenMap
  next : s'.next = s.next
  nextChan : s'.nextChan = s.nextChan
  realms : s'.realms = s.realms.erase (s.heap sess).realmID
  sessions : s'.sessions = s.sessions.erase (s.heap sess).id
  userCounts : s'.userCounts = (s.uncount (s.heap sess).username).userCounts
  heap : ∀ sess', sess' ≠ sess → s'.heap sess' = s.heap sess'
  closed : (s'.heap sess).closed = true
  done : (s'.heap sess).done = (s.heap sess).done
  events : (s'.heap sess).events = (s.heap sess).events
  pending : ∀ nonce, (s'.heap sess).pending.lookup nonce = none
  chans : Closes s.chans s'.chans fun ch => (ch = (s.heap sess).done ∨ ch = (s.heap sess).events) ∨
    ∃ nonce, (s.heap sess).pending.lookup nonce = some ch

theorem removed_of_open (h : s.Inv) (hopen : s.Open sess) (order : List String) :
    ∃ s', s.removeSessionLocked sess order = some s' ∧ Removed s s' sess := by
  obtain ⟨pending, chans, heq, hpending, hcloses⟩ := removeSessionLocked_eq h.consistent h.chans hopen order
  refine ⟨_, heq, rfl, rfl, rfl, rfl, rfl, rfl, fun sess' hne => update_of_ne hne .., ?_, ?_, ?_, ?_, ?_⟩
  · simp
  · simp
  · simp
  · simp only [update_self]
    exact hpending
  · intro ch
    have hrange : ch ∈ ((s.heap sess).pending.range order).map Prod.snd ↔
        ∃ nonce, (s.heap sess).pending.lookup nonce = some ch := by
      constructor
      · intro hmem
        obtain ⟨⟨nonce, ch'⟩, hentry, rfl⟩ := List.mem_map.1 hmem
        exact ⟨nonce, mem_range.1 hentry⟩
      · rintro ⟨nonce, hlookup⟩
        exact List.mem_map.2 ⟨(nonce, ch), mem_range.2 hlookup, rfl⟩
    simpa only [hrange] using hcloses ch

theorem Removed.open_iff (hremoved : Removed s s' sess) (sess' : Nat) :
    s'.Open sess' ↔ s.Open sess' ∧ sess' ≠ sess := by
  by_cases heq : sess' = sess
  · subst heq
    simp [Open, hremoved.closed]
  · simp [Open, hremoved.heap sess' heq, hremoved.next, heq]

variable {name : RealmSession → String}

theorem lookup_removed (hremoved : Removed s s' sess) (hopen : s.Open sess) {m : GoMap String Nat}
    (h : ∀ id sess', m.lookup id = some sess' ↔ s.Open sess' ∧ name (s.heap sess') = id) (id : String) (sess' : Nat) :
    (m.erase (name (s.heap sess))).lookup id = some sess' ↔ s'.Open sess' ∧ name (s'.heap sess') = id := by
  have hself : m.lookup (name (s.heap sess)) = some sess := (h _ _).2 ⟨hopen, rfl⟩
  rw [lookup_erase_eq, hremoved.open_iff]
  constructor
  · intro hlookup
    split at hlookup
    · cases hlookup
    · rename_i hid
      obtain ⟨hopen', hname⟩ := (h _ _).1 hlookup
      have hne : sess' ≠ sess := by
        rintro rfl
        exact hid hname.symm
      exact ⟨⟨hopen', hne⟩, by rw [hremoved.heap sess' hne, hname]⟩
  · rintro ⟨⟨hopen', hne⟩, hname⟩
    rw [hremoved.heap sess' hne] at hname
    have hlookup := (h _ _).2 ⟨hopen', hname⟩
    rw [if_neg, hlookup]
    rintro rfl
    rw [hself] at hlookup
    exact hne (Option.some.inj hlookup).symm

theorem Consistent.removed (h : s.Consistent) (hopen : s.Open sess) (hremoved : Removed s s' sess) :
    s'.Consistent := by
  have hcount := count_remove hopen hremoved.next hremoved.closed hremoved.heap
  have hpos : 0 < s.userCounts.get (s.heap sess).username 0 := by
    have hself := hcount (s.heap sess).username
    rw [if_pos rfl] at hself
    rw [h.counts]
    omega
  have hcounts : ∀ username, s'.userCounts.get username 0 = s'.count username := by
    intro username
    rw [hremoved.userCounts, uncount_get hpos, h.counts, ← hcount username]
    split <;> simp
  refine ⟨fun id sess' => ?_, fun id sess' => ?_, hcounts, fun username limit hlimit => ?_, fun sess' hsess' => ?_⟩
  · rw [hremoved.sessions]
    exact lookup_removed hremoved hopen h.sessions id sess'
  · rw [hremoved.realms]
    exact lookup_removed hremoved hopen h.realms id sess'
  · have hle := h.limits username limit (by rwa [Limited, ← hremoved.tokenMap])
    rw [h.counts, ← hcount username] at hle
    rw [hcounts]
    omega
  · rw [hremoved.next] at hsess'
    by_cases heq : sess' = sess
    · subst heq
      have hnil : (s'.heap sess').pending.keys = [] := by
        refine List.eq_nil_iff_forall_not_mem.2 fun nonce hmem => ?_
        exact AList.lookup_eq_none.1 (hremoved.pending nonce) (AList.mem_keys.2 hmem)
      rw [hnil]
      exact Nat.zero_le _
    · rw [hremoved.heap sess' heq]
      exact h.pending sess' hsess'

theorem ChansOk.removed (h : s.ChansOk) (hsess : sess < s.next) (hremoved : Removed s s' sess) : s'.ChansOk := by
  -- the channels of other sessions are not among those closed
  have hothers : ∀ ch, (s.chans ch).owner ≠ .done sess → (s.chans ch).owner ≠ .events sess →
      (∀ nonce, (s.chans ch).owner ≠ .attempt sess nonce) →
      (s'.chans ch).owner = (s.chans ch).owner ∧ (s'.chans ch).closed = (s.chans ch).closed := by
    intro ch hdone hevents hattempt
    refine ⟨(hremoved.chans ch).1, hremoved.chans.closed_eq ?_⟩
    rintro ((rfl | rfl) | ⟨nonce, hlookup⟩)
    · exact hdone (h.done sess hsess).2.1
    · exact hevents (h.events sess hsess).2.1
    · exact hattempt nonce (h.attempts sess hsess nonce ch hlookup).2.1
  have hnextChan := hremoved.nextChan.ge
  refine ⟨fun sess' hsess' => ?_, fun sess' hsess' => ?_, fun sess' hsess' nonce ch hlookup => ?_⟩
  · rw [hremoved.next] at hsess'
    have hdone := h.done sess' hsess'
    have howner := hdone.2.1
    by_cases heq : sess' = sess
    · subst heq
      rw [hremoved.nextChan, hremoved.done, hremoved.closed, (hremoved.chans _).1, (hremoved.chans _).2]
      exact ⟨hdone.1, howner, .inr (.inl (.inl rfl))⟩
    · rw [hremoved.heap sess' heq]
      exact chan_kept hdone hnextChan (hothers _ (by simp [howner, heq]) (by simp [howner]) (by simp [howner]))
  · rw [hremoved.next] at hsess'
    have hevents := h.events sess' hsess'
    have howner := hevents.2.1
    by_cases heq : sess' = sess
    · subst heq
      rw [hremoved.nextChan, hremoved.events, hremoved.closed, (hremoved.chans _).1, (hremoved.chans _).2]
      exact ⟨hevents.1, howner, .inr (.inl (.inr rfl))⟩
    · rw [hremoved.heap sess' heq]
      exact chan_kept hevents hnextChan (hothers _ (by simp [howner]) (by simp [howner, heq]) (by simp [howner]))
  · rw [hremoved.next] at hsess'
    by_cases heq : sess' = sess
    · subst heq
      rw [hremoved.pending] at hlookup
      cases hlookup
    · rw [hremoved.heap sess' heq] at hlookup
      have hattempt := h.attempts sess' hsess' nonce ch hlookup
      have howner := hattempt.2.1
      exact chan_kept hattempt hnextChan (hothers ch (by simp [howner]) (by simp [howner]) (by simp [howner, heq]))

theorem Inv.removeSessionLocked (h : s.Inv) (hsess : sess < s.next) (order : List String) :
    ∃ s', s.removeSessionLocked sess order = some s' ∧ s'.Inv ∧ s'.next = s.next := by
  cases hclosed : (s.heap sess).closed with
  | true => exact ⟨s, if_pos hclosed, h, rfl⟩
  | false =>
    have hopen : s.Open sess := ⟨hsess, hclosed⟩
    obtain ⟨s', heq, hremoved⟩ := removed_of_open h hopen order
    exact ⟨s', heq, ⟨h.consistent.removed hopen hremoved, h.chans.removed hsess hremoved⟩, hremoved.next⟩

theorem Inv.removeExpiredSession (h : s.Inv) (hsess : sess < s.next) (now : Time) (order : List String) :
    ∃ s', s.removeExpiredSession sess now order = some s' ∧ s'.Inv := by
  unfold Server.removeExpiredSession
  split
  · exact ⟨s, rfl, h⟩
  · obtain ⟨s', heq, hinv, -⟩ := h.removeSessionLocked hsess order
    exact ⟨s', heq, hinv⟩

theorem Inv.removeAll (orders : Nat → List String) (entries : List (String × Nat)) (s : Server) (h : s.Inv)
    (hentries : ∀ entry ∈ entries, entry.2 < s.next) :
    ∃ s', entries.foldlM (fun s entry => s.removeSessionLocked entry.2 (orders entry.2)) s = some s' ∧ s'.Inv := by
  induction entries generalizing s with
  | nil => exact ⟨s, rfl, h⟩
  | cons entry entries ih =>
    obtain ⟨s₁, heq₁, hinv₁, hnext⟩ := h.removeSessionLocked (hentries entry (.head _)) (orders entry.2)
    obtain ⟨s₂, heq₂, hinv₂⟩ := ih s₁ hinv₁ fun entry' hmem => by
      rw [hnext]
      exact hentries entry' (.tail _ hmem)
    exact ⟨s₂, by rw [List.foldlM_cons, heq₁]; exact heq₂, hinv₂⟩

theorem Inv.closeAll (h : s.Inv) (order : List String) (orders : Nat → List String) :
    ∃ s', s.closeAll order orders = some s' ∧ s'.Inv := by
  refine Inv.removeAll orders _ s h fun entry hentry => ?_
  obtain ⟨⟨hlt, -⟩, -⟩ := (h.consistent.sessions _ _).1 (mem_range.1 hentry)
  exact hlt

structure Added (s s' : Server) (it : RealmSession) : Prop where
  tokenMap : s'.tokenMap = s.tokenMap
  next : s'.next = s.next + 1
  nextChan : s.nextChan ≤ s'.nextChan
  realms : s'.realms = s.realms.insert it.realmID s.next
  sessions : s'.sessions = s.sessions.insert it.id s.next
  userCounts : s'.userCounts = s.userCounts.insert it.username (s.userCounts.get it.username 0 + 1)
  heap : ∀ sess < s.next, s'.heap sess = s.heap sess
  self : s'.heap s.next = it
  closed : it.closed = false
  pending : it.pending = ∅
  done : it.done < s'.nextChan ∧ (s'.chans it.done).owner = .done s.next ∧ (s'.chans it.done).closed = false
  events : it.events < s'.nextChan ∧ (s'.chans it.events).owner = .events s.next ∧ (s'.chans it.events).closed = false
  chans : ∀ ch < s.nextChan, s'.chans ch = s.chans ch

theorem handleRegister_cases (s : Server) (token id : String) (addresses : List String) (now : Time)
    (sessionID : Option String) : (∃ err, s.handleRegister token id addresses now sessionID = (.error err, s)) ∨
      ∃ user it s', s.handleRegister token id addresses now sessionID = (.ok s.next, s') ∧ Added s s' it ∧
        s.tokenMap.lookup token = some user ∧ it.username = user.name ∧ sessionID = some it.id ∧
        s.realms.lookup it.realmID = none ∧ (user.maxRealms > 0 → s.userCounts.get user.name 0 < user.maxRealms) := by
  unfold handleRegister
  split
  · exact .inl ⟨_, rfl⟩
  · rename_i user huser
    split
    · exact .inl ⟨_, rfl⟩
    · rename_i hrealm
      split
      · exact .inl ⟨_, rfl⟩
      · rename_i hlimit
        split
        · exact .inl ⟨_, rfl⟩
        · refine .inr ⟨user, _, _, rfl, ⟨rfl, rfl, Nat.le_add_right _ 2, rfl, rfl, rfl, fun sess hsess => ?_,
            update_self .., rfl, rfl, ?_, ?_, fun ch hch => ?_⟩, huser, rfl, rfl, ?_, fun hpos => ?_⟩
          · exact update_of_ne hsess.ne ..
          · simp
          · refine ⟨Nat.lt_add_right 1 (Nat.lt_succ_self _), ?_⟩
            simp
          · simp [hch.ne, Nat.ne_of_lt (Nat.lt_succ_of_lt hch)]
          · simpa using hrealm
          · exact lt_of_not_ge fun hge => hlimit ⟨hpos, hge⟩

theorem Added.open_iff (hadded : Added s s' it) (sess : Nat) : s'.Open sess ↔ s.Open sess ∨ sess = s.next := by
  unfold Open
  rw [hadded.next]
  rcases Nat.lt_trichotomy sess s.next with hlt | rfl | hgt
  · rw [hadded.heap sess hlt]
    simp [hlt, hlt.ne, Nat.lt_succ_of_lt hlt]
  · simp [hadded.self, hadded.closed]
  · simp [Nat.not_lt_of_gt hgt, hgt.ne', Nat.not_lt_of_ge (Nat.succ_le_of_lt hgt)]

theorem lookup_added (hadded : Added s s' it) {m : GoMap String Nat}
    (h : ∀ id sess, m.lookup id = some sess ↔ s.Open sess ∧ name (s.heap sess) = id)
    (hnew : m.lookup (name it) = none) (id : String) (sess : Nat) :
    (m.insert (name it) s.next).lookup id = some sess ↔ s'.Open sess ∧ name (s'.heap sess) = id := by
  rw [lookup_insert_eq, hadded.open_iff]
  constructor
  · intro hlookup
    split at hlookup
    · rename_i hid
      cases hlookup
      exact ⟨.inr rfl, by rw [hadded.self, hid]⟩
    · obtain ⟨hopen, hname⟩ := (h _ _).1 hlookup
      exact ⟨.inl hopen, by rw [hadded.heap sess hopen.1, hname]⟩
  · rintro ⟨hopen | rfl, hname⟩
    · rw [hadded.heap sess hopen.1] at hname
      have hlookup := (h _ _).2 ⟨hopen, hname⟩
      rw [if_neg, hlookup]
      rintro rfl
      rw [hnew] at hlookup
      cases hlookup
    · rw [hadded.self] at hname
      rw [if_pos hname.symm]

theorem Consistent.added (h : s.Consistent) (hadded : Added s s' it)
    (hid : s.sessions.lookup it.id = none) (hrealm : s.realms.lookup it.realmID = none)
    (hlimits : ∀ limit, s.Limited it.username limit → s.userCounts.get it.username 0 + 1 ≤ limit) :
    s'.Consistent := by
  refine ⟨fun id sess => ?_, fun id sess => ?_, fun username => ?_, fun username limit hlimit => ?_,
    fun sess hsess => ?_⟩
  · rw [hadded.sessions]
    exact lookup_added hadded h.sessions hid id sess
  · rw [hadded.realms]
    exact lookup_added hadded h.realms hrealm id sess
  · have hcount := count_add hadded.next (by rw [hadded.self, hadded.closed]) hadded.heap username
    rw [hadded.userCounts, get_insert, hcount, hadded.self]
    split
    · rename_i heq
      subst heq
      rw [h.counts]
      rfl
    · exact h.counts username
  · rw [Limited, hadded.tokenMap] at hlimit
    rw [hadded.userCounts, get_insert]
    split
    · rename_i heq
      subst heq
      exact hlimits limit hlimit
    · exact h.limits username limit hlimit
  · rcases Nat.lt_succ_iff_lt_or_eq.1 (hadded.next ▸ hsess) with hlt | rfl
    · rw [hadded.heap sess hlt]
      exact h.pending sess hlt
    · rw [hadded.self, hadded.pending]
      exact Nat.zero_le _

theorem ChansOk.added (h : s.ChansOk) (hadded : Added s s' it) : s'.ChansOk := by
  have hsplit : ∀ sess < s'.next, sess < s.next ∨ sess = s.next := by
    intro sess hsess
    rw [hadded.next] at hsess
    exact Nat.lt_succ_iff_lt_or_eq.1 hsess
  have hold : ∀ ch < s.nextChan, (s'.chans ch).owner = (s.chans ch).owner ∧ (s'.chans ch).closed = (s.chans ch).closed := by
    intro ch hch
    rw [hadded.chans ch hch]
    exact ⟨rfl, rfl⟩
  refine ⟨fun sess hsess => ?_, fun sess hsess => ?_, fun sess hsess nonce ch hlookup => ?_⟩
  · rcases hsplit sess hsess with hlt | rfl
    · rw [hadded.heap sess hlt]
      exact chan_kept (h.done sess hlt) hadded.nextChan (hold _ (h.done sess hlt).1)
    · rw [hadded.self, hadded.closed]
      exact hadded.done
  · rcases hsplit sess hsess with hlt | rfl
    · rw [hadded.heap sess hlt]
      exact chan_kept (h.events sess hlt) hadded.nextChan (hold _ (h.events sess hlt).1)
    · rw [hadded.self, hadded.closed]
      exact hadded.events
  · rcases hsplit sess hsess with hlt | rfl
    · rw [hadded.heap sess hlt] at hlookup
      have hattempt := h.attempts sess hlt nonce ch hlookup
      exact chan_kept hattempt hadded.nextChan (hold ch hattempt.1)
    · rw [hadded.self, hadded.pending] at hlookup
      cases hlookup

theorem Inv.handleRegister (h : s.Inv) (token id : String) (addresses : List String) (now : Time)
    {sessionID : Option String} (hfresh : ∀ id, sessionID = some id → ∀ sess < s.next, (s.heap sess).id ≠ id) :
    (s.handleRegister token id addresses now sessionID).2.Inv := by
  rcases s.handleRegister_cases token id addresses now sessionID with ⟨err, heq⟩ |
    ⟨user, it, s', heq, hadded, huser, hname, hid, hrealm, hlimit⟩
  · rw [heq]
    exact h
  · rw [heq]
    refine ⟨h.consistent.added hadded ?_ hrealm fun limit hlimited => ?_, h.chans.added hadded⟩
    · cases hlookup : s.sessions.lookup it.id with
      | none => rfl
      | some sess =>
        obtain ⟨hopen, hsame⟩ := (h.consistent.sessions _ _).1 hlookup
        exact absurd hsame (hfresh it.id hid sess hopen.1)
    · obtain ⟨hpos, hle⟩ := hlimited.2 token user huser hname.symm
      rw [hname]
      omega

/-! ## Runs -/

theorem Inv.step (h : s.Inv) {op : Op} (hop : s.Possible op) : ∃ s', s.step op = some s' ∧ s'.Inv := by
  cases op with
  | register token id addresses now sessionID => exact ⟨_, rfl, h.handleRegister token id addresses now hop⟩
  | deregister sess order =>
    obtain ⟨s', heq, hinv, -⟩ := h.removeSessionLocked hop order
    exact ⟨s', heq, hinv⟩
  | heartbeat sess addresses now => exact ⟨_, rfl, h.heartbeat sess addresses now⟩
  | expire sess now order => exact h.removeExpiredSession hop now order
  | registerPending sess nonce => exact ⟨_, rfl, h.registerPending hop nonce⟩
  | deliverPending sess nonce addresses =>
    obtain ⟨sent, s', heq, hinv⟩ := h.deliverPending hop nonce addresses
    exact ⟨s', by rw [Server.step, heq]; rfl, hinv⟩
  | cancelPending sess nonce => exact ⟨_, rfl, h.cancelPending sess nonce⟩
  | sendEvent sess ev =>
    obtain ⟨sent, s', heq, hinv⟩ := h.sendEvent hop ev
    exact ⟨s', by rw [Server.step, heq]; rfl, hinv⟩
  | receive ch => exact ⟨_, rfl, h.buffer ch _⟩
  | closeAll order orders => exact h.closeAll order orders

theorem inv_init (tokenMap : GoMap String RealmUser) : ({ tokenMap } : Server).Inv := by
  refine ⟨⟨?_, ?_, fun _ => rfl, fun _ _ hlimit => hlimit.1.le, nofun⟩, nofun, nofun, nofun⟩
  · simp [Open]
  · simp [Open]

theorem Inv.of_reach (h : Reach system (fun s op => s.Possible op) s) : s.Inv := by
  refine h.inv Inv ?_ ?_
  · rintro _ ⟨tokenMap, rfl⟩
    exact inv_init tokenMap
  · intro s op s' hinv hop hstep
    obtain ⟨s'', heq, hinv'⟩ := hinv.step hop
    cases hstep.symm.trans heq
    exact hinv'

/-- Between any two critical sections the maps have the open sessions, one for each
realm, the counts are right, a registration leaves the count of its user within their
limit, and no further step closes a closed channel or sends on one. -/
theorem sessions_consistent (h : Reach system (fun s op => s.Possible op) s) :
    s.Consistent ∧
    (∀ sess sess', s.Open sess → s.Open sess' → (s.heap sess).realmID = (s.heap sess').realmID → sess = sess') ∧
    (∀ token user id addresses now sessionID sess s', s.tokenMap.lookup token = some user → 0 < user.maxRealms →
      s.handleRegister token id addresses now sessionID = (.ok sess, s') →
      s'.userCounts.get user.name 0 ≤ user.maxRealms) ∧
    ∀ op, s.Possible op → ∃ s', s.step op = some s' := by
  have hinv := Inv.of_reach h
  refine ⟨hinv.consistent, fun sess sess' hopen hopen' hrealm => ?_,
    fun token user id addresses now sessionID sess s' huser hpos hok => ?_, fun op hop => ?_⟩
  · have hlookup := (hinv.consistent.realms _ sess).2 ⟨hopen, rfl⟩
    rw [hrealm, (hinv.consistent.realms _ sess').2 ⟨hopen', rfl⟩] at hlookup
    exact (Option.some.inj hlookup).symm
  · rcases s.handleRegister_cases token id addresses now sessionID with ⟨err, heq⟩ |
      ⟨user', it, s'', heq, hadded, huser', hname, -, -, hlimit⟩
    · rw [heq] at hok
      cases hok
    · rw [heq] at hok
      cases hok
      cases huser.symm.trans huser'
      rw [hadded.userCounts, hname, get_insert]
      omega
  · obtain ⟨s', heq, -⟩ := hinv.step hop
    exact ⟨s', heq⟩

/-- The server for one user, after some steps that do not panic. -/
def run (ops : List Op) : Server :=
  ops.foldl (fun s op => (s.step op).getD s) { tokenMap := AList.insert "token" ⟨"user", 1⟩ ∅ }

/-- A session with an attempt is removed, and its realm is registered again. -/
def sampleOps : List Op :=
  [.register "token" "realm" ["192.0.2.1:443"] 0 (some "a"), .registerPending 0 "nonce", .sendEvent 0 .heartbeatAck,
    .deregister 0 [], .cancelPending 0 "nonce", .register "token" "realm" [] 1 (some "b")]

theorem sessions_consistent_sample :
    (run sampleOps).sessions.lookup "b" = some 1 ∧ (run sampleOps).userCounts.lookup "user" = some 1 ∧
      ((run sampleOps).chans 2).closed = true ∧ (run sampleOps).Consistent := by
  have hinit : Reach system (fun s op => s.Possible op) { tokenMap := AList.insert "token" ⟨"user", 1⟩ ∅ } :=
    .init ⟨_, rfl⟩
  have hreach : Reach system (fun s op => s.Possible op) (run sampleOps) := by
    refine hinit.foldl_getD sampleOps ⟨⟨?_, rfl⟩, ⟨?_, rfl⟩, ⟨?_, rfl⟩, ⟨?_, rfl⟩, ⟨?_, rfl⟩, ⟨?_, rfl⟩, trivial⟩
    · intro id _ sess hsess
      cases hsess
    · exact Nat.one_pos
    · exact Nat.one_pos
    · exact Nat.one_pos
    · exact Nat.one_pos
    · rintro id ⟨⟩ sess hsess
      cases Nat.lt_one_iff.1 hsess
      decide
  exact ⟨rfl, rfl, rfl, (sessions_consistent hreach).1⟩

end Server

end Singlink.Hysteria2
