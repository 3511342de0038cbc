import Singlink.V2Board.Digest
import Singlink.V2Board.Rules
import Singlink.V2Board.Tracker
/-!
# The panel

What the panel sends (`types.go`), how `client.go` takes its answers, and what
`controller.go` and `mapper.go` make of a config: whether its users are active,
its digest, and the inbound built from it.

`Host` is what this code calls outside of the package: JSON and SHA-256, time
parsing, the inbound manager, and of `MapInbound` what depends on the node type.
-/

namespace Singlink.V2Board

open Lib

/-! ## Errors -/

/-- The errors the code asks for with `errors.Is`. -/
inductive ErrorKind where
  | notModified
  | emptyUserList
  | canceled
  | invalid
  deriving DecidableEq

structure GoError where
  message : String
  kinds : List ErrorKind := []
  deriving DecidableEq

def GoError.is (err : GoError) (kind : ErrorKind) : Bool := err.kinds.contains kind

def errNotModified : GoError := { message := "v2board: not modified", kinds := [.notModified] }
def errEmptyUserList : GoError := { message := "v2board: empty user list", kinds := [.emptyUserList] }

def errCanceled : GoError := { message := "context canceled", kinds := [.canceled] }

/-! ## Configs -/

structure ServerBaseConfig where
  pushInterval : Duration := 0
  pullInterval : Duration := 0
  deviceOnlineMinTraffic : Int := 0
  nodeReportMinTraffic : Int := 0
  deriving DecidableEq

/-- `ServerConfig`: the fields read here, and the others in `settings`. -/
structure ServerConfig (S : Type) where
  protocol : String := ""
  configRevision : String := ""
  serverPort : Int := 0
  routes : List ServerRoute := []
  baseConfig : Option ServerBaseConfig := none
  tls : Int := 0
  cipher : String := ""
  version : Int := 0
  settings : S

/-- `ServerNodeInfo`. The client always sets `Common`. -/
structure NodeInfo (S : Type) where
  id : Int
  type : String
  security : Int
  pushInterval : Duration := 0
  pullInterval : Duration := 0
  nodeReportMinTraffic : Int := 0
  deviceOnlineMinTraffic : Int := 0
  tag : String
  common : ServerConfig S

/-- `option.Inbound`; the zero value has no options. -/
structure Inbound (O : Type) where
  type : String := ""
  tag : String := ""
  options : Option O := none

/-- What `digestNode` marshals: the type, the security and the config without
its base config. -/
structure NodeDigest (S : Type) where
  type : String
  security : Int
  common : ServerConfig S

/-- What the package uses of the code around it. -/
structure Host where
  /-- the settings of a config that only `MapInbound` reads, as JSON has them -/
  Settings : Type
  /-- the options of an inbound -/
  Options : Type
  Regexp : Type
  Pfx : Type
  Digest : Type
  /-- the inbound manager, as far as one tag is concerned -/
  Manager : Type
  /-- what decides how a call of the manager ends -/
  Outcome : Type
  /-- the zero value -/
  settings : Settings
  rules : RuleParsers Regexp Pfx
  digestEq : DecidableEq Digest
  /-- `[32]byte{}` -/
  zeroDigest : Digest
  sha256 : List UInt8 → Digest
  /-- `json.Marshal` of what `digestNode` hashes -/
  marshalNode : NodeDigest Settings → List UInt8
  /-- `time.Parse` of a layout and a text -/
  parseTime : String → String → Option Time
  /-- `validateUsers` and `listenOptions` -/
  checkInbound : String → ServerConfig Settings → List UserInfo → Option GoError
  /-- the multiplex options ask for the capability `checkTCPBrutalCapability` looks for -/
  wantsBrutal : ServerConfig Settings → Bool
  /-- the options for a node type -/
  mapOptions : String → ServerConfig Settings → List UserInfo → Except GoError Options
  /-- `Manager.Get` for the tag: the type and options it was created with -/
  get : Manager → Option (String × Option Options)
  create : Manager → Outcome → String → Option Options → Option GoError × Manager
  remove : Manager → Outcome → Option GoError × Manager

instance (H : Host) : DecidableEq H.Digest := H.digestEq

/-- What does not change about a node: its part of `effectiveNodeOptions`. -/
structure NodeOptions where
  tag : String
  nodeID : Int
  nodeType : String
  apiStyle : String
  /-- `c.baseURL.String()` -/
  baseURL : String

/-! ## Answers -/

/-- How a request ends. An answer the client cannot read is an error, and so is
a request that its context has canceled. -/
inductive Answer (α : Type) where
  | ok (payload : α) (etag : String)
  | notModified
  | error (message : String) (canceled : Bool)

def requestError (message : String) (canceled : Bool) : GoError :=
  { message := message, kinds := if canceled then [.canceled] else [] }

/-- The answers to the requests of one sync. In the `shadowsocks_tidalab` style
the config is taken from a user list. -/
structure PanelAnswers (H : Host) where
  config : Answer (ServerConfig H.Settings)
  configUsers : Answer (List UserInfo)
  users : Answer (List UserInfo)
  alive : Answer (GoMap Int Int)

/-- The ETags of the client. -/
structure Client where
  configETag : String := ""
  userETag : String := ""

def trimPrefix (s p : String) : String := (GoStrings.cutPrefix s p).getD s

def normalizeETag (etag : String) : String := GoStrings.trim (trimPrefix (GoStrings.trimSpace etag) "W/") "\""

def serverConfigNodeType {S : Type} (config : ServerConfig S) (fallback : String) : String :=
  let nodeType := normalizeNodeType (firstNonEmpty [config.protocol, fallback])
  if nodeType = typeHysteria ∧ config.version = 2 then typeHysteria2 else nodeType

def unexpectedStatus : GoError := { message := "v2board: unexpected status 304 Not Modified" }

variable {H : Host}

def getShadowsocksTidalabServerConfig (a : PanelAnswers H) : Except GoError (ServerConfig H.Settings) :=
  match a.configUsers with
  | .error message canceled => .error (requestError message canceled)
  | .notModified => .error unexpectedStatus
  | .ok [] _ => .error errEmptyUserList
  | .ok (first :: _) _ =>
    .ok { protocol := "shadowsocks", serverPort := first.port.toInt, cipher := first.cipher, settings := H.settings }

def Client.getServerConfig (o : NodeOptions) (c : Client) (a : PanelAnswers H) :
    Except GoError (ServerConfig H.Settings) × Client :=
  if o.apiStyle = apiStyleShadowsocksTidalab then (getShadowsocksTidalabServerConfig a, c)
  else match a.config with
    | .error message canceled => (.error (requestError message canceled), c)
    | .notModified => (.error errNotModified, c)
    | .ok config etag => (.ok config, if etag ≠ "" then { c with configETag := normalizeETag etag } else c)

/-- The node `GetNodeInfo` makes of a config. -/
def nodeInfo {S : Type} (o : NodeOptions) (config : ServerConfig S) : NodeInfo S :=
  let nodeType := serverConfigNodeType config o.nodeType
  { id := o.nodeID
    type := nodeType
    security := if nodeType = "shadowsocks" then 0 else config.tls
    pushInterval := (config.baseConfig.map (·.pushInterval)).getD 0
    pullInterval := (config.baseConfig.map (·.pullInterval)).getD 0
    nodeReportMinTraffic := (config.baseConfig.map (·.nodeReportMinTraffic)).getD 0
    deviceOnlineMinTraffic := (config.baseConfig.map (·.deviceOnlineMinTraffic)).getD 0
    tag := "[" ++ o.baseURL ++ "]-" ++ nodeType ++ ":" ++ toString o.nodeID
    common := config }

def Client.getNodeInfo (o : NodeOptions) (c : Client) (a : PanelAnswers H) :
    Except GoError (NodeInfo H.Settings) × Client :=
  match c.getServerConfig o a with
  | (.error err, c) => (.error err, c)
  | (.ok config, c) => (.ok (nodeInfo o config), c)

def Client.getUserList (c : Client) (a : PanelAnswers H) : Except GoError (List UserInfo) × Client :=
  match a.users with
  | .error message canceled => (.error (requestError message canceled), c)
  | .notModified => (.error errNotModified, c)
  | .ok users etag => (.ok users, if etag ≠ "" then { c with userETag := normalizeETag etag } else c)

def supportsAliveReport (o : NodeOptions) : Bool := o.apiStyle == apiStyleUniProxy

def getAliveList (o : NodeOptions) (a : PanelAnswers H) : Except GoError (GoMap Int Int) :=
  if ¬supportsAliveReport o then .ok ∅
  else match a.alive with
    | .error message canceled => .error (requestError message canceled)
    | .notModified => .error unexpectedStatus
    | .ok alive _ => .ok alive

/-! ## Active users -/

/-- A day and a second in nanoseconds. -/
def day : Duration := 86400000000000
def second : Duration := 1000000000

def expiresOnExpired (H : Host) (value : String) (now : Time) : Bool :=
  let value := GoStrings.trimSpace value
  if value = "" then false
  else match ["2006-01-02T15:04:05Z07:00", "2006-01-02 15:04:05", "2006-01-02T15:04:05"].findSome? (H.parseTime · value) with
    | some expiresAt => expiresAt ≤ now
    | none => match H.parseTime "2006-01-02" value with
      | none => false
      | some expiresOn => expiresOn + day ≤ now

def panelUserActive (H : Host) (user : UserInfo) (now : Time) : Bool :=
  if user.enabledSet ∧ ¬user.enabled then false
  else if 0 < user.expiresAt ∧ user.expiresAt.toInt ≤ now / second then false
  else !expiresOnExpired H user.expiresOn now

def activePanelUsers (H : Host) (users : List UserInfo) (now : Time) : List UserInfo :=
  users.filter (panelUserActive H · now)

/-! ## Digests -/

def NodeInfo.digested {S : Type} (node : NodeInfo S) : NodeDigest S :=
  { type := node.type, security := node.security, common := { node.common with baseConfig := none } }

def digestNode (H : Host) (node : NodeInfo H.Settings) : H.Digest := H.sha256 (H.marshalNode node.digested)

def digestUsers (H : Host) (users : List UserInfo) : H.Digest := H.sha256 (digestInput users)

/-! ## Inbounds -/

def supportedNodeType (nodeType : String) : Bool :=
  [typeVMess, "vless", typeShadowsocks, typeTrojan, "tuic", "anytls", typeHysteria, typeHysteria2, typeNaive,
    typeMieru].contains nodeType

/-- The type and the options `MapInbound` gives an inbound, where `brutal` is
what `checkTCPBrutalCapability` returns. It reads of a node what `digestNode`
marshals. -/
def inboundOptions (H : Host) (brutal : Option GoError) (node : NodeDigest H.Settings) (users : List UserInfo) :
    Except GoError (String × H.Options) :=
  let nodeType := normalizeNodeType (firstNonEmpty [node.type, node.common.protocol])
  if nodeType = "" then .error { message := "missing node type" }
  else if ¬supportedNodeType nodeType then
    .error { message := "unsupported node type " ++ nodeType.quote ++ " by singlink" }
  else if nodeType ≠ typeMieru ∧ (node.common.serverPort ≤ 0 ∨ 65535 < node.common.serverPort) then
    .error { message := "invalid server_port " ++ toString node.common.serverPort }
  else if users = [] then .error { message := "missing users for " ++ nodeType ++ " inbound" }
  else match H.checkInbound nodeType node.common users with
    | some err => .error err
    | none => match (if nodeType = typeShadowsocks ∧ H.wantsBrutal node.common then brutal else none) with
      | some err =>
        .error { message := "shadowsocks multiplex brutal preflight: " ++ err.message, kinds := err.kinds }
      | none => match H.mapOptions nodeType node.common users with
        | .error err => .error err
        | .ok options => .ok (nodeType, options)

def mapInbound (H : Host) (brutal : Option GoError) (tag : String) (node : NodeInfo H.Settings)
    (users : List UserInfo) : Except GoError (Inbound H.Options) :=
  match inboundOptions H brutal node.digested users with
  | .error err => .error err
  | .ok (nodeType, options) =>
    .ok { type := nodeType, tag := firstNonEmpty [tag, node.tag], options := some options }

/-- `BuildInbound` with the mapper options of a node. -/
def buildInbound (H : Host) (brutal : Option GoError) (o : NodeOptions) (node : NodeInfo H.Settings)
    (users : List UserInfo) : Except GoError (Inbound H.Options) :=
  mapInbound H brutal o.tag node users

/-- The revision a status report names, if the node is one that reports. -/
def shadowsocksStatusRevision {S : Type} (node : Option (NodeInfo S)) : String × Bool :=
  match node with
  | none => ("", false)
  | some node =>
    if normalizeNodeType (firstNonEmpty [node.type, node.common.protocol]) ≠ typeShadowsocks then ("", false)
    else
      let revision := GoStrings.trimSpace node.common.configRevision
      (revision, revision ≠ "")

def isLikelyListenConflict (err : GoError) : Bool :=
  let message := GoStrings.toLower err.message
  GoStrings.contains message "address already in use" ||
    GoStrings.contains message "only one usage of each socket address"

end Singlink.V2Board
