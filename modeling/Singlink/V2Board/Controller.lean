import Singlink.Lib.Prog
import Singlink.V2Board.Panel
/-!
# The controller of a node

`service/v2board/controller.go`: `sync`, `push` and `Close` as programs whose
actions are the critical sections of the lifecycle mutex and the accesses
between them. The state holds the controller, its client, and what it works on:
the manager's entry and the tracker's node for its tag.
-/

namespace Singlink.V2Board

open Lib Prog

/-- `NodeStatus`, without the program's version. -/
structure NodeStatus where
  ready : Bool
  appliedRevision : String
  appliedFeatures : List String
  deriving DecidableEq

def shadowsocksAppliedFeatures : List String :=
  ["shadowsocks-uot-v1", "shadowsocks-uot-v2", "shadowsocks-sing-mux-v1"]

/-- A traffic report: by user ID in the `uniproxy` style, else a list. -/
inductive TrafficPayload where
  | byID (traffic : GoMap Int (Nat × Nat))
  | legacy (traffic : List UserTraffic)

/-- `Controller`, with the parts of `options` that change. -/
structure Controller (H : Host) where
  client : Client := {}
  node : Option (NodeInfo H.Settings) := none
  users : List UserInfo := []
  activeUsers : List UserInfo := []
  aliveList : GoMap Int Int := ∅
  aliveUpdated : Time := 0
  nodeHash : H.Digest
  userHash : H.Digest
  current : Inbound H.Options := {}
  /-- ghost: the node `current` was built from -/
  currentNode : Option (NodeInfo H.Settings) := none
  inboundReady : Bool := false
  pendingBuild : Bool := false
  statusSupported : Bool := false
  statusReady : Bool := false
  appliedRevision : String := ""
  appliedFeatures : List String := []
  statusRunning : Bool := false
  closed : Bool := false
  pullInterval : Duration
  pushInterval : Duration
  nodeReportMinTraffic : Int
  deviceOnlineMinTraffic : Int
  manager : H.Manager
  tracker : Option (NodeTraffic (NodeRules H.Regexp H.Pfx)) := none
  /-- the status reports sent so far, latest first -/
  reports : List NodeStatus := []
  /-- the traffic reports the panel has accepted, latest first -/
  accepted : List TrafficPayload := []
  /-- the reports of online users the panel has accepted, latest first -/
  acceptedAlive : List (GoMap Int (List String)) := []

/-- What the world answers during one `sync`. -/
structure SyncEnv (H : Host) where
  now : Time
  /-- `time.Now` once the alive list is there -/
  aliveNow : Time
  answers : PanelAnswers H
  brutal : Option GoError
  create : H.Outcome
  remove : H.Outcome
  /-- the second `Create` of `applyInbound` -/
  replace : H.Outcome
  restore : H.Outcome
  pendingOrder : List Int
  counterOrder : List String

/-- The errors `sync`, `push` and `Close` return. -/
inductive SyncError where
  | err (e : GoError)
  | cause (e : SyncError) (text : String)
  | errors (l : List SyncError)

variable {H : Host} (o : NodeOptions)

/-! ## Status -/

def Controller.updateAppliedStatus (c : Controller H) (ready : Bool) : Controller H :=
  let (revision, supported) := shadowsocksStatusRevision c.node
  let statusReady := supported && ready
  { c with
    statusSupported := supported
    statusReady := statusReady
    appliedRevision := if statusReady then revision else ""
    appliedFeatures := if statusReady then shadowsocksAppliedFeatures else [] }

/-- `reportStatus`: what becomes of the report has no effect. -/
def reportStatus : Prog (Controller H) Unit :=
  modify fun c =>
    if ¬(c.statusSupported || (shadowsocksStatusRevision c.node).2) || c.closed then c
    else
      { c with
        reports := { ready := c.statusReady, appliedRevision := c.appliedRevision
                     appliedFeatures := c.appliedFeatures } :: c.reports }

/-- `reportStatusBestEffort`: while the status loop runs, it is woken up to
report. -/
def reportStatusBestEffort : Prog (Controller H) Unit := do
  let statusRunning ← read fun c : Controller H => c.statusRunning && !c.closed
  if statusRunning then pure () else reportStatus

/-- A report, if one is due. -/
def reportStatusIf (due : Bool) : Prog (Controller H) Unit := if due then reportStatusBestEffort else pure ()

def reportUnavailableStatusBestEffort : Prog (Controller H) Unit := do
  let unavailable ← atomic fun c : Controller H =>
    if c.closed || (c.inboundReady && c.current.type != "") then (false, c)
    else (true, { c with inboundReady := false }.updateAppliedStatus false)
  reportStatusIf unavailable

/-! ## The inbound -/

def Controller.create (c : Controller H) (outcome : H.Outcome) (inbound : Inbound H.Options) :
    Option GoError × Controller H :=
  let (err, manager) := H.create c.manager outcome inbound.type inbound.options
  (err, { c with manager := manager })

def Controller.remove (c : Controller H) (outcome : H.Outcome) : Option GoError × Controller H :=
  let (err, manager) := H.remove c.manager outcome
  (err, { c with manager := manager })

/-- `inbound.Get`, as far as it says whether there is an entry. -/
def Controller.loaded (c : Controller H) : Bool := (H.get c.manager).isSome

/-- The error of a removal that failed: one that is not about a missing entry. -/
def removeError (err : Option GoError) : Option GoError := err.filter fun err => !err.is .invalid

def Controller.restoreCurrentInbound (c : Controller H) (outcome : H.Outcome) : Option GoError × Controller H :=
  if c.current.type = "" then (none, c) else c.create outcome c.current

/-- No inbound is running any more. -/
def Controller.lose (c : Controller H) : Controller H :=
  { c with current := {}, currentNode := none, inboundReady := false }.updateAppliedStatus false

/-- The part of `applyInbound` that follows a listen conflict: the running
inbound makes room, and comes back if the new one still fails. -/
def Controller.replaceInbound (c : Controller H) (env : SyncEnv H) (inbound : Inbound H.Options) (err : GoError) :
    (Option SyncError × Bool) × Controller H :=
  let (removed, c) := c.remove env.remove
  match removeError removed with
  | some removeErr =>
    let failed := SyncError.errors [.err err, .cause (.err removeErr) "remove previous inbound"]
    if c.loaded then ((some failed, false), c)
    else match c.restoreCurrentInbound env.restore with
      | (some restoreErr, c) =>
        ((some (.errors [.err err, .cause (.err removeErr) "remove previous inbound",
          .cause (.err restoreErr) "restore previous inbound after failed removal"]), true), c.lose)
      | (none, c) => ((some failed, false), c)
  | none => match c.create env.replace inbound with
    | (none, c) => ((none, false), { c with current := inbound, currentNode := c.node })
    | (some replaceErr, c) => match c.restoreCurrentInbound env.restore with
      | (some restoreErr, c) =>
        ((some (.errors [.err replaceErr,
          .cause (.err restoreErr) "restore previous inbound after failed replacement"]), true), c.lose)
      | (none, c) => ((some (.err replaceErr), false), c)

/-- The critical section of `applyInbound`: its error, and whether a status that
is not ready has to be reported. -/
def Controller.applySection (c : Controller H) (env : SyncEnv H) (inbound : Inbound H.Options) :
    (Option SyncError × Bool) × Controller H :=
  if c.closed then ((some (.err errCanceled), false), c)
  else match c.create env.create inbound with
    | (none, c) => ((none, false), { c with current := inbound, currentNode := c.node })
    | (some err, c) =>
      if ¬c.inboundReady ∨ c.current.type = "" then
        ((some (.err err), true), { c with inboundReady := false }.updateAppliedStatus false)
      else if ¬isLikelyListenConflict err then ((some (.err err), false), c)
      else c.replaceInbound env inbound err

def applyInbound (env : SyncEnv H) (inbound : Inbound H.Options) : Prog (Controller H) (Option SyncError) := do
  let result ← atomic fun c => c.applySection env inbound
  reportStatusIf result.2
  pure result.1

def Controller.updateNode (c : Controller H) (env : SyncEnv H) (nodeType : String) (users : List UserInfo)
    (rules : NodeRules H.Regexp H.Pfx) : Controller H :=
  { c with
    tracker := some ((c.tracker.getD (.zero {})).updateUsers
      { nodeType := nodeType, nodeID := o.nodeID, users := users, alive := c.aliveList, aliveAt := c.aliveUpdated
        aliveTTL := c.pullInterval, rules := rules, pendingOrder := env.pendingOrder
        counterOrder := env.counterOrder }) }

/-- The critical section of `clearInbound`: its error, and whether a status is to
be reported. -/
def Controller.clearSection (c : Controller H) (env : SyncEnv H) (rules : NodeRules H.Regexp H.Pfx) :
    (Option SyncError × Bool) × Controller H :=
  if c.closed then ((some (.err errCanceled), false), c)
  else
    let (removed, c) := c.remove env.remove
    match removeError removed with
    | some err =>
      if c.loaded then ((some (.err err), false), c)
      else
        let c := { c with current := {}, currentNode := none }.updateNode o env c.current.type [] rules
        ((some (.err err), true), { c with inboundReady := false }.updateAppliedStatus false)
    | none =>
      let c := { c with current := {}, currentNode := none }.updateNode o env c.current.type [] rules
      ((none, true), { c with inboundReady := true }.updateAppliedStatus false)

def clearInbound (env : SyncEnv H) (rules : NodeRules H.Regexp H.Pfx) : Prog (Controller H) (Option SyncError) := do
  let result ← atomic fun c => c.clearSection o env rules
  reportStatusIf result.2
  pure result.1

/-- The last critical section of `rebuildInbound`. -/
def Controller.commitSection (c : Controller H) (env : SyncEnv H) (inbound : Inbound H.Options)
    (rules : NodeRules H.Regexp H.Pfx) : Option SyncError × Controller H :=
  if c.closed then (some (.err errCanceled), c)
  else (none, { c.updateNode o env inbound.type c.activeUsers rules with inboundReady := true }.updateAppliedStatus true)

/-- `rebuildInbound` for a loaded node. -/
def rebuildInbound (env : SyncEnv H) (node : NodeInfo H.Settings) : Prog (Controller H) (Option SyncError) := do
  match buildNodeRules H.rules node.common.routes with
  | .error err =>
    reportUnavailableStatusBestEffort
    pure (some (.err { message := err }))
  | .ok rules =>
    let activeUsers ← read fun c : Controller H => c.activeUsers
    if activeUsers = [] then clearInbound o env rules
    else match buildInbound H env.brutal o node activeUsers with
      | .error err =>
        reportUnavailableStatusBestEffort
        pure (some (.err err))
      | .ok inbound =>
        match ← applyInbound env inbound with
        | some err => pure (some err)
        | none =>
          match ← atomic fun c => c.commitSection o env inbound rules with
          | some err => pure (some err)
          | none =>
            reportStatusBestEffort
            pure none

/-! ## `sync` -/

/-- `time.Duration` values below five seconds are raised to that. -/
def normalizeInterval (interval : Duration) : Duration :=
  if 0 < interval ∧ interval < 5 * second then 5 * second else interval

def Controller.applyPanelIntervals (c : Controller H) (node : NodeInfo H.Settings) : Controller H :=
  { c with
    pullInterval := if 0 < node.pullInterval then normalizeInterval node.pullInterval else c.pullInterval
    pushInterval := if 0 < node.pushInterval then normalizeInterval node.pushInterval else c.pushInterval
    nodeReportMinTraffic :=
      if node.common.baseConfig.isSome then node.nodeReportMinTraffic else c.nodeReportMinTraffic
    deviceOnlineMinTraffic :=
      if node.common.baseConfig.isSome then node.deviceOnlineMinTraffic else c.deviceOnlineMinTraffic }

/-- A new config: whether its digest differs from the one before. -/
def loadNode (node : NodeInfo H.Settings) : Prog (Controller H) Bool := do
  modify fun c => { c with node := some node, statusSupported := (shadowsocksStatusRevision (some node)).2 }
  modify fun c => c.applyPanelIntervals node
  atomic fun c => (decide (digestNode H node ≠ c.nodeHash), { c with nodeHash := digestNode H node })

/-- The first request of `sync`: whether the node has changed, and the user list
if the answer had an empty one. -/
def syncNode (env : SyncEnv H) : Prog (Controller H) (Except SyncError (Bool × Option (List UserInfo))) := do
  match ← atomic fun c : Controller H =>
      ((c.client.getNodeInfo o env.answers).1, { c with client := (c.client.getNodeInfo o env.answers).2 }) with
  | .ok node =>
    let nodeChanged ← loadNode node
    pure (.ok (nodeChanged, none))
  | .error err =>
    if err.is .notModified then pure (.ok (false, none))
    else if err.is .emptyUserList then pure (.ok (false, some []))
    else pure (.error (.err err))

/-- The second request: the list, if there is a new one. -/
def syncUsers (env : SyncEnv H) (users : Option (List UserInfo)) :
    Prog (Controller H) (Except SyncError (Option (List UserInfo))) := do
  match users with
  | some users => pure (.ok (some users))
  | none =>
    match ← atomic fun c : Controller H =>
        ((c.client.getUserList env.answers).1, { c with client := (c.client.getUserList env.answers).2 }) with
    | .ok users => pure (.ok (some users))
    | .error err =>
      if err.is .notModified then pure (.ok none)
      else
        reportUnavailableStatusBestEffort
        pure (.error (.err err))

/-- The active users: whether their digest differs from the one before. -/
def Controller.loadUsers (c : Controller H) (env : SyncEnv H) (users : Option (List UserInfo)) : Bool × Controller H :=
  let users := users.getD c.users
  let activeUsers := activePanelUsers H users env.now
  (decide (digestUsers H activeUsers ≠ c.userHash),
    { c with users := users, activeUsers := activeUsers, userHash := digestUsers H activeUsers })

/-- The third request. Its error ends the sync only if it was canceled. -/
def syncAlive (env : SyncEnv H) : Prog (Controller H) (Option SyncError) := do
  match getAliveList o env.answers with
  | .error err => pure (if err.is .canceled then some (.err err) else none)
  | .ok aliveList =>
    modify fun c => { c with aliveList := aliveList, aliveUpdated := env.aliveNow }
    let inboundReady ← read fun c : Controller H => c.inboundReady
    modify fun c =>
      if inboundReady then
        { c with tracker := c.tracker.map (·.updateAliveList aliveList env.aliveNow c.pullInterval) }
      else c
    pure none

/-- The rest: the inbound is rebuilt if anything changed or a build is due. -/
def syncBuild (env : SyncEnv H) (nodeChanged usersChanged newUsers : Bool) :
    Prog (Controller H) (Option SyncError) := do
  let c ← read id
  match c.node with
  | none =>
    if newUsers && c.activeUsers == [] then clearInbound o env {}
    else pure (some (.err { message := "node config not loaded" }))
  | some node =>
    if !nodeChanged && !usersChanged && c.inboundReady && !c.pendingBuild then pure none
    else
      modify fun c => { c with pendingBuild := true }
      match ← rebuildInbound o env node with
      | some err => pure (some err)
      | none =>
        modify fun c => { c with pendingBuild := false }
        pure none

/-- `sync` after its first request. -/
def syncRest (env : SyncEnv H) (nodeChanged : Bool) (users : Option (List UserInfo)) :
    Prog (Controller H) (Option SyncError) := do
  match ← syncUsers env users with
  | .error err => pure (some err)
  | .ok users =>
    let usersChanged ← atomic fun c => c.loadUsers env users
    match ← syncAlive o env with
    | some err => pure (some err)
    | none => syncBuild o env nodeChanged usersChanged users.isSome

def sync (env : SyncEnv H) : Prog (Controller H) (Option SyncError) := do
  match ← syncNode o env with
  | .error err => pure (some err)
  | .ok (nodeChanged, users) => syncRest o env nodeChanged users

/-! ## `push` -/

/-- How the two reports of a `push` end, and the orders of its ranges. -/
structure PushEnv where
  traffic : Option GoError
  alive : Option GoError
  order : SnapshotOrder := {}
  restoreOrders : Nat → List String := fun _ => []
  aliveOrder : RestoreAliveOrder := {}

/-- What `PushUserTraffic` sends. -/
def trafficPayload (traffic : List UserTraffic) : TrafficPayload :=
  if o.apiStyle ≠ apiStyleUniProxy then .legacy traffic
  else .byID (traffic.foldl (fun payload entry => payload.insert entry.uid (entry.upload, entry.download)) ∅)

def Controller.snapshot (c : Controller H) (order : SnapshotOrder) : Snapshot × Controller H :=
  match c.tracker with
  | none => ({ traffic := [], alive := ∅ }, c)
  | some n =>
    let (snapshot, n) := n.snapshot c.nodeReportMinTraffic c.deviceOnlineMinTraffic order
    (snapshot, { c with tracker := some n })

def push (env : PushEnv) : Prog (Controller H) (Option SyncError) := do
  let inboundReady ← read fun c : Controller H => c.inboundReady
  if !inboundReady then pure none
  else
    let s ← atomic fun c => c.snapshot env.order
    match env.traffic with
    | some err =>
      modify fun c => { c with tracker := c.tracker.map (·.restoreTraffic s.traffic env.restoreOrders) }
      modify fun c => { c with tracker := c.tracker.map (·.restoreAlive s.alive env.aliveOrder) }
      pure (some (.err err))
    | none =>
      modify fun c => { c with accepted := trafficPayload o s.traffic :: c.accepted }
      match (if supportsAliveReport o then env.alive else none) with
      | some err =>
        modify fun c => { c with tracker := c.tracker.map (·.restoreAlive s.alive env.aliveOrder) }
        pure (some (.err err))
      | none =>
        modify fun c =>
          { c with acceptedAlive := if supportsAliveReport o then s.alive :: c.acceptedAlive else c.acceptedAlive }
        pure none

/-! ## `Close` -/

/-- The critical section of `Close`: whether it was the first call and the node
reports its status, and the error of the removal. -/
def Controller.closeSection (c : Controller H) (outcome : H.Outcome) : (Bool × Option SyncError) × Controller H :=
  if c.closed then ((false, none), c)
  else
    let c := { c with closed := true }.updateAppliedStatus false
    let (removed, c) := c.remove outcome
    (((shadowsocksStatusRevision c.node).2, (removeError removed).map .err), { c with tracker := none })

/-- `Close`. The error of closing the client is left out. -/
def close (outcome : H.Outcome) : Prog (Controller H) (Option SyncError) := do
  let result ← atomic fun c => c.closeSection outcome
  modify fun c =>
    if result.1 then
      { c with reports := { ready := false, appliedRevision := "", appliedFeatures := [] } :: c.reports }
    else c
  pure result.2

/-! ## A small host -/

/-- A host to run the programs on: settings are empty, the options of an inbound
are the UUIDs of its users, and bytes are their own digest. -/
def sampleHost : Host where
  Settings := Unit
  Options := List String
  Regexp := Unit
  Pfx := Unit
  Digest := List UInt8
  Manager := Option (String × Option (List String))
  Outcome := Option GoError
  settings := ()
  rules :=
    { compile := fun _ => .ok (), parsePrefix := fun _ => .ok (), parseAddr := fun _ => .ok () }
  digestEq := inferInstance
  zeroDigest := [0]
  sha256 := id
  marshalNode := fun d => encodeUser { uuid := d.type, username := d.common.protocol, label := d.common.configRevision }
  parseTime := fun _ _ => none
  checkInbound := fun _ _ _ => none
  wantsBrutal := fun _ => false
  mapOptions := fun _ _ users => .ok (users.map (·.uuid))
  get := id
  create := fun m outcome type options =>
    match outcome with
    | some err => (some err, m)
    | none => (none, some (type, options))
  remove := fun m outcome =>
    match outcome with
    | some err => (some err, m)
    | none => (none, none)

def sampleOptions : NodeOptions :=
  { tag := "node", nodeID := 1, nodeType := "vless", apiStyle := apiStyleUniProxy, baseURL := "http://panel" }

end Singlink.V2Board
