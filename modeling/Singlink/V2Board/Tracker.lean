import Singlink.Lib.GoMap
import Singlink.V2Board.Types
/-!
# The traffic tracker

`service/v2board/tracker.go`: the users, byte counters and online addresses of
one node (`nodeTraffic`), and the operations on them. Each operation runs under
the node's mutex in the source and is one function here.

A `*userCounter` is a `CounterRef`: the counters a node has allocated are the
cells of its `heap`. Where the source ranges over a map, the order is an
argument.
-/

namespace Singlink.V2Board

open Lib

/-! ## State -/

/-- Nanoseconds; `0` is the zero `time.Time`. -/
abbrev Time := Int

abbrev Duration := Int

/-- `rate.Limiter`, with the identity of the pointer. -/
structure RateLimiter where
  ref : Nat
  limit : Int64
  burst : Int64
  deriving DecidableEq

structure UserLimit where
  speed : Int64 := 0
  device : Int64 := 0
  limiter : Option RateLimiter := none
  deriving DecidableEq

/-- `userCounter`. Byte totals are `int64`s that are taken not to overflow. -/
structure UserCounter where
  upload : Nat := 0
  download : Nat := 0
  active : Int := 0
  deriving DecidableEq

structure TrafficTotal where
  upload : Nat := 0
  download : Nat := 0
  deriving DecidableEq

abbrev CounterRef := Nat

/-- `map[string]struct{}`. -/
abbrev IPSet := GoMap String Unit

/-- `nodeTraffic`, with `R` for the block rules. `heap` and `next` are the
counters allocated for the node. -/
structure NodeTraffic (R : Type) where
  nodeID : Int
  users : GoMap String Int
  limits : GoMap String UserLimit
  counters : GoMap String CounterRef
  pending : GoMap Int (List CounterRef)
  online : GoMap String IPSet
  previous : GoMap String IPSet
  alive : GoMap Int Int
  aliveAt : Time
  aliveTTL : Duration
  rules : R
  heap : CounterRef → UserCounter
  next : Nat

/-- `&nodeTraffic{}`, given the zero value of the rules. -/
def NodeTraffic.zero {R : Type} (rules : R) : NodeTraffic R where
  nodeID := 0
  users := ∅
  limits := ∅
  counters := ∅
  pending := ∅
  online := ∅
  previous := ∅
  alive := ∅
  aliveAt := 0
  aliveTTL := 0
  rules := rules
  heap := fun _ => {}
  next := 0

variable {R : Type}

def maxRestoredAliveIPsPerUser : Nat := 256

/-- `time.Minute`. -/
def defaultAliveListTTL : Duration := 60000000000

def normalizeAliveListTTL (ttl : Duration) : Duration := if ttl ≤ 0 then defaultAliveListTTL else ttl

/-! ## Pending counters -/

/-- `appendPendingCounter`; counters are never nil here. -/
def appendPendingCounter (values : GoMap Int (List CounterRef)) (uid : Int) (counter : CounterRef) :
    GoMap Int (List CounterRef) :=
  if uid ≤ 0 then values else values.insert uid (values.get uid [] ++ [counter])

/-- `clonePendingCounters` drops the empty lists. -/
def clonePendingCounters (values : GoMap Int (List CounterRef)) (order : List Int) : GoMap Int (List CounterRef) :=
  (values.range order).foldl (fun cloned entry => if entry.2 = [] then cloned else cloned.insert entry.1 entry.2) ∅

/-! ## Updating the users -/

def speedLimitBytesPerSecond (speedLimitMbps : Int64) : Int64 :=
  if speedLimitMbps ≤ 0 then 0 else speedLimitMbps * 1000 * 1000 / 8

/-- `newRateLimiter`, allocated at `ref`. -/
def newRateLimiter (ref : Nat) (speedLimitMbps : Int64) : Option RateLimiter :=
  let bytesPerSecond := speedLimitBytesPerSecond speedLimitMbps
  if bytesPerSecond ≤ 0 then none else some { ref := ref, limit := bytesPerSecond, burst := bytesPerSecond }

def NodeTraffic.updatedUserLimit (n : NodeTraffic R) (ref : Nat) (key : String) (user : UserInfo) : UserLimit :=
  if user.speedLimit ≤ 0 then { speed := user.speedLimit, device := user.deviceLimit }
  else
    let existing := n.limits.get key {}
    if existing.speed = user.speedLimit ∧ existing.limiter.isSome then
      { speed := user.speedLimit, device := user.deviceLimit, limiter := existing.limiter }
    else { speed := user.speedLimit, device := user.deviceLimit, limiter := newRateLimiter ref user.speedLimit }

/-- The variables of the loop over `users`. -/
structure NextUsers where
  users : GoMap String Int
  limits : GoMap String UserLimit
  counters : GoMap String CounterRef
  pending : GoMap Int (List CounterRef)
  online : GoMap String IPSet
  previous : GoMap String IPSet
  heap : CounterRef → UserCounter
  next : Nat

/-- `nextCounters[key]`: the counter the key has, if it stays with the user,
else a new one; the old one is then pending for the user it counted for. -/
def NodeTraffic.carryCounter (n : NodeTraffic R) (acc : NextUsers) (key : String) (sameUser : Bool) : NextUsers :=
  match n.counters.lookup key, sameUser with
  | some existing, true => { acc with counters := acc.counters.insert key existing }
  | some existing, false =>
    { acc with
      pending := appendPendingCounter acc.pending (n.users.get key 0) existing
      counters := acc.counters.insert key acc.next
      heap := Function.update acc.heap acc.next {}
      next := acc.next + 1 }
  | none, _ =>
    { acc with
      counters := acc.counters.insert key acc.next
      heap := Function.update acc.heap acc.next {}
      next := acc.next + 1 }

/-- `nextOnline[key]` and `nextPrevious[key]`: the set the key has, if it stays
with the user. -/
def carryIPs (old next : GoMap String IPSet) (key : String) (sameUser : Bool) : GoMap String IPSet :=
  match old.lookup key, sameUser with
  | some existing, true => next.insert key existing
  | _, _ => next

def NodeTraffic.updateUser (n : NodeTraffic R) (nodeType : String) (acc : NextUsers) (user : UserInfo) : NextUsers :=
  let key := userTrackerKey nodeType user
  if key = "" then acc
  else
    let sameUser : Bool := n.users.get key 0 == user.id.toInt
    let acc := n.carryCounter { acc with users := acc.users.insert key user.id.toInt } key sameUser
    { acc with
      online := carryIPs n.online acc.online key sameUser
      previous := carryIPs n.previous acc.previous key sameUser
      limits := acc.limits.insert key (n.updatedUserLimit acc.next key user)
      next := acc.next + 1 }

/-- What `updateUsersWithAliveStateForNodeType` is given, and the orders its
two ranges take. -/
structure UpdateArgs (R : Type) where
  nodeType : String
  nodeID : Int
  users : List UserInfo
  alive : GoMap Int Int := ∅
  aliveAt : Time := 0
  aliveTTL : Duration := 0
  rules : R
  pendingOrder : List Int := []
  counterOrder : List String := []

/-- The loop over the old counters: those no user carries are pending. -/
def NodeTraffic.dropCounters (n : NodeTraffic R) (acc : NextUsers) (order : List String) :
    GoMap Int (List CounterRef) :=
  (n.counters.range order).foldl (fun pending entry =>
    if (acc.counters.lookup entry.1).isSome then pending
    else appendPendingCounter pending (n.users.get entry.1 0) entry.2) acc.pending

/-- The loop over `users`, from its initial values. -/
def NodeTraffic.nextUsers (n : NodeTraffic R) (a : UpdateArgs R) : NextUsers :=
  a.users.foldl (n.updateUser a.nodeType)
    { users := ∅, limits := ∅, counters := ∅, pending := clonePendingCounters n.pending a.pendingOrder
      online := ∅, previous := ∅, heap := n.heap, next := n.next }

/-- `updateUsersWithAliveStateForNodeType`. -/
def NodeTraffic.updateUsers (n : NodeTraffic R) (a : UpdateArgs R) : NodeTraffic R :=
  let acc := n.nextUsers a
  { nodeID := a.nodeID
    users := acc.users
    limits := acc.limits
    counters := acc.counters
    pending := n.dropCounters acc a.counterOrder
    online := acc.online
    previous := acc.previous
    alive := a.alive
    aliveAt := a.aliveAt
    aliveTTL := normalizeAliveListTTL a.aliveTTL
    rules := a.rules
    heap := acc.heap
    next := acc.next }

def NodeTraffic.updateAliveList (n : NodeTraffic R) (alive : GoMap Int Int) (aliveAt : Time) (aliveTTL : Duration) :
    NodeTraffic R :=
  { n with alive := alive, aliveAt := aliveAt, aliveTTL := normalizeAliveListTTL aliveTTL }

/-! ## Routing a connection -/

def NodeTraffic.counter (n : NodeTraffic R) (user : String) : Option CounterRef :=
  if (n.users.lookup user).isNone then none else n.counters.lookup user

def NodeTraffic.speedLimiter (n : NodeTraffic R) (user : String) : Option RateLimiter :=
  (n.limits.get user {}).limiter

/-- `time.Time.Sub`, which saturates. -/
def timeSub (a b : Time) : Duration := max (-2 ^ 63) (min (2 ^ 63 - 1) (a - b))

def NodeTraffic.aliveListFresh (n : NodeTraffic R) (now : Time) : Bool :=
  if n.aliveAt = 0 then false else timeSub now n.aliveAt ≤ normalizeAliveListTTL n.aliveTTL

/-- The addresses of `online` the previous period did not have. -/
def localNew (online previous : IPSet) : Nat := (online.keys.filter fun ip => (previous.lookup ip).isNone).length

def NodeTraffic.exceedsDeviceLimit (n : NodeTraffic R) (user : String) (uid : Int) (ip : String) (now : Time) : Bool :=
  let limit := (n.limits.get user {}).device.toInt
  let online := n.online.get user ∅
  let previous := n.previous.get user ∅
  if limit ≤ 0 then false
  else if (online.lookup ip).isSome then false
  else if (previous.lookup ip).isSome then false
  else
    let remoteAlive := if n.aliveListFresh now then n.alive.get uid 0 else 0
    limit ≤ remoteAlive + localNew online previous

/-- `addOnlineIPWithLimit` for a positive limit: a full set loses the entry its
range gives first. -/
def addOnlineIPWithLimit (online : IPSet) (ip : String) (limit : Nat) (order : List String) : IPSet :=
  let online := if (online.lookup ip).isNone ∧ limit ≤ online.keys.length then
      match (online.range order).head? with
      | some entry => online.erase entry.1
      | none => online
    else online
  online.insert ip ()

/-- The texts `netip.Addr.String` has for no address. -/
def invalidIP (ip : String) : Bool := ip == "" || ip == "<invalid IP>"

def NodeTraffic.markOnline (n : NodeTraffic R) (user ip : String) (now : Time) (order : List String) :
    Bool × NodeTraffic R :=
  if invalidIP ip then (true, n)
  else match n.users.lookup user with
    | none => (false, n)
    | some uid =>
      if n.exceedsDeviceLimit user uid ip now then (false, n)
      else
        let online := addOnlineIPWithLimit (n.online.get user ∅) ip maxRestoredAliveIPsPerUser order
        (true, { n with online := n.online.insert user online })

/-! ## Counting -/

def NodeTraffic.modifyCounter (n : NodeTraffic R) (c : CounterRef) (f : UserCounter → UserCounter) : NodeTraffic R :=
  { n with heap := Function.update n.heap c (f (n.heap c)) }

def NodeTraffic.trackConn (n : NodeTraffic R) (c : CounterRef) : NodeTraffic R :=
  n.modifyCounter c fun counter => { counter with active := counter.active + 1 }

/-- `trackedConn.Close`, whose `once` lets it lower the count one time. -/
def NodeTraffic.untrackConn (n : NodeTraffic R) (c : CounterRef) : NodeTraffic R :=
  n.modifyCounter c fun counter => { counter with active := counter.active - 1 }

def NodeTraffic.count (n : NodeTraffic R) (c : CounterRef) (upload download : Nat) : NodeTraffic R :=
  n.modifyCounter c fun counter =>
    { counter with upload := counter.upload + upload, download := counter.download + download }

/-! ## Snapshots -/

abbrev Totals := GoMap Int TrafficTotal

/-- `addCounterSnapshot`: takes the counter's bytes over into `totals`. -/
def addCounterSnapshot (heap : CounterRef → UserCounter) (totals : Totals) (uid : Int) (c : CounterRef) :
    (CounterRef → UserCounter) × Totals :=
  if uid ≤ 0 then (heap, totals)
  else
    let total := totals.get uid {}
    (Function.update heap c { heap c with upload := 0, download := 0 },
      totals.insert uid
        { upload := total.upload + (heap c).upload, download := total.download + (heap c).download })

/-- What `addCounterSnapshot` returns: the bytes it took over. -/
def counterSnapshotTotal (heap : CounterRef → UserCounter) (uid : Int) (c : CounterRef) : Nat :=
  if uid ≤ 0 then 0 else (heap c).upload + (heap c).download

/-- The variables of the two loops of `snapshot`. -/
structure SnapshotState where
  heap : CounterRef → UserCounter
  totals : Totals
  pending : GoMap Int (List CounterRef)
  online : GoMap String IPSet
  previous : GoMap String IPSet
  alive : GoMap Int (List String)

/-- The body of the loop over `pending`: counters without a connection are
dropped once they have been read. -/
def snapshotPending (st : SnapshotState) (entry : Int × List CounterRef) : SnapshotState :=
  let read := entry.2.foldl (fun ht c => addCounterSnapshot ht.1 ht.2 entry.1 c) (st.heap, st.totals)
  let remaining := entry.2.filter fun c => 0 < (read.1 c).active
  { st with
    heap := read.1
    totals := read.2
    pending := if remaining = [] then st.pending.erase entry.1 else st.pending.insert entry.1 remaining }

/-- `fmt.Sprintf("%s_%d", ip, n.nodeID)`. -/
def aliveValue (ip : String) (nodeID : Int) : String := ip ++ "_" ++ toString nodeID

/-- The orders of the ranges of `snapshot`. -/
structure SnapshotOrder where
  pending : List Int := []
  counters : List String := []
  ips : String → List String := fun _ => []
  totals : List Int := []

def NodeTraffic.snapshotCounter (n : NodeTraffic R) (onlineMin : Int) (order : SnapshotOrder) (st : SnapshotState)
    (entry : String × CounterRef) : SnapshotState :=
  match n.users.lookup entry.1 with
  | none => st
  | some uid =>
    let total := counterSnapshotTotal st.heap uid entry.2
    let read := addCounterSnapshot st.heap st.totals uid entry.2
    let online := st.online.get entry.1 ∅
    { heap := read.1
      totals := read.2
      pending := st.pending
      alive := if onlineMin ≤ (total : Int) then
          (online.range (order.ips entry.1)).foldl (fun alive ip =>
            alive.insert uid (alive.get uid [] ++ [aliveValue ip.1 n.nodeID])) st.alive
        else st.alive
      previous := if online.keys = [] then st.previous else st.previous.insert entry.1 online
      online := st.online.erase entry.1 }

def NodeTraffic.snapshotLoops (n : NodeTraffic R) (onlineMin : Int) (order : SnapshotOrder) : SnapshotState :=
  let st := (n.pending.range order.pending).foldl snapshotPending
    { heap := n.heap, totals := ∅, pending := n.pending, online := n.online, previous := ∅, alive := ∅ }
  (n.counters.range order.counters).foldl (n.snapshotCounter onlineMin order) st

/-- The report made of the totals: those that reach the minimum. -/
def reportedTraffic (totals : Totals) (trafficMin : Int) (order : List Int) : List UserTraffic :=
  (totals.range order).filterMap fun entry =>
    let amount : Nat := entry.2.upload + entry.2.download
    if trafficMin ≤ (amount : Int) ∧ 0 < amount then
      some { uid := entry.1, upload := entry.2.upload, download := entry.2.download }
    else none

structure Snapshot where
  traffic : List UserTraffic
  alive : GoMap Int (List String)

def NodeTraffic.snapshot (n : NodeTraffic R) (trafficMin onlineMin : Int) (order : SnapshotOrder) :
    Snapshot × NodeTraffic R :=
  let st := n.snapshotLoops onlineMin order
  ({ traffic := reportedTraffic st.totals trafficMin order.totals, alive := st.alive },
    { n with heap := st.heap, pending := st.pending, online := st.online, previous := st.previous })

/-! ## Taking a report back -/

def NodeTraffic.allocatePending (n : NodeTraffic R) (uid : Int) : NodeTraffic R :=
  { n with
    pending := appendPendingCounter n.pending uid n.next
    heap := Function.update n.heap n.next {}
    next := n.next + 1 }

/-- `counterForUIDLocked`: a counter that will be reported for `uid`. -/
def NodeTraffic.counterForUID (n : NodeTraffic R) (uid : Int) (order : List String) :
    Option CounterRef × NodeTraffic R :=
  if uid ≤ 0 then (none, n)
  else match (n.users.range order).findSome? fun entry => if entry.2 ≠ uid then none else n.counters.lookup entry.1 with
    | some counter => (some counter, n)
    | none => match n.pending.get uid [] with
      | counter :: _ => (some counter, n)
      | [] => (some n.next, n.allocatePending uid)

def NodeTraffic.restoreEntry (n : NodeTraffic R) (order : List String) (entry : UserTraffic) : NodeTraffic R :=
  match n.counterForUID entry.uid order with
  | (some counter, n) => n.count counter entry.upload entry.download
  | (none, n) => n

/-- `restoreTraffic`; `orders i` is how the users are ranged over for the `i`th
entry. -/
def NodeTraffic.restoreTraffic (n : NodeTraffic R) (traffic : List UserTraffic) (orders : Nat → List String) :
    NodeTraffic R :=
  traffic.zipIdx.foldl (fun n entry => n.restoreEntry (orders entry.2) entry.1) n

/-- The address of an alive value: what stands before its last underscore. -/
def aliveIP (value : String) : String :=
  match GoStrings.beforeLast value '_' with
  | some ip => if ip = "" then value else ip
  | none => value

/-- The orders of the ranges of `restoreAlive`. -/
structure RestoreAliveOrder where
  alive : List Int := []
  users : Int → List String := fun _ => []
  ips : Int → Nat → List String := fun _ _ => []

def restoreIPs (online : IPSet) (values : List String) (orders : Nat → List String) : IPSet :=
  values.zipIdx.foldl (fun online value =>
    if aliveIP value.1 = "" then online
    else addOnlineIPWithLimit online (aliveIP value.1) maxRestoredAliveIPsPerUser (orders value.2)) online

/-- `restoreAlive`: the addresses go to the first key of the user. -/
def NodeTraffic.restoreAlive (n : NodeTraffic R) (alive : GoMap Int (List String)) (order : RestoreAliveOrder) :
    NodeTraffic R :=
  (alive.range order.alive).foldl (fun n entry =>
    match (n.users.range (order.users entry.1)).find? fun user => user.2 == entry.1 with
    | none => n
    | some user =>
      let online := restoreIPs (n.online.get user.1 ∅) entry.2 (order.ips entry.1)
      { n with online := n.online.insert user.1 online }) n

end Singlink.V2Board
