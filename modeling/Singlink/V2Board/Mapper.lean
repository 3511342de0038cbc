import Singlink.Options.HeadlessRule
import Singlink.V2Board.Panel
/-!
# From a panel config to an inbound

`MapInbound` of `service/v2board/mapper.go` with the functions it calls: the
options of an inbound from a node config, its users and the local options.

`MapperEnv` is what it calls outside of the package: parsers of the standard
library, `json.Unmarshal` of the network settings, base64 and the key derivation
of shadowsocks.
-/

namespace Singlink.V2Board

open Lib
open Options (Addr)

/-! ## Configs -/

structure ServerTLSSettings where
  serverName : String := ""
  serverNames : List String := []
  dest : String := ""
  serverPort : String := ""
  shortID : String := ""
  shortIDs : List String := []
  privateKey : String := ""
  xver : UInt64 := 0
  certMode : String := ""
  certFile : String := ""
  keyFile : String := ""
  provider : String := ""
  dnsEnv : String := ""
  ech : String := ""
  echKey : String := ""

namespace ServerTLSSettings

def effectiveServerNames (t : ServerTLSSettings) : List String :=
  if t.serverNames ≠ [] then t.serverNames
  else if t.serverName = "" then []
  else [t.serverName]

def effectiveShortIDs (t : ServerTLSSettings) : List String :=
  if t.shortIDs ≠ [] then t.shortIDs
  else if t.shortID = "" then []
  else [t.shortID]

def primaryServerName (t : ServerTLSSettings) : String := t.effectiveServerNames.headD ""

end ServerTLSSettings

structure RealityConfig where
  xver : UInt64 := 0
  maxTimeDiff : String := ""

structure ServerEncSettings where
  mode : String := ""
  rtt : String := ""
  ticket : String := ""
  serverPadding : String := ""
  clientPadding : String := ""
  privateKey : String := ""
  password : String := ""

def ServerEncSettings.hasValue (s : ServerEncSettings) : Bool :=
  s.mode != "" || s.rtt != "" || s.ticket != "" || s.serverPadding != "" || s.clientPadding != "" ||
    s.privateKey != "" || s.password != ""

structure MieruPortBinding where
  port : Int := 0
  portRange : String := ""
  protocol : String := ""

structure BrutalOptions where
  enabled : Bool := false
  upMbps : Int := 0
  downMbps : Int := 0

structure InboundMultiplexOptions where
  enabled : Bool := false
  padding : Bool := false
  brutal : Option BrutalOptions := none

abbrev RawMessage := String

/-- The fields of `ServerConfig` that only `MapInbound` reads. -/
structure ServerSettings where
  listenIP : String := ""
  portBindings : List MieruPortBinding := []
  tlsSettings : ServerTLSSettings := {}
  network : String := ""
  networkSettings : RawMessage := ""
  encryption : String := ""
  encryptionSettings : ServerEncSettings := {}
  serverName : String := ""
  flow : String := ""
  realityConfig : RealityConfig := {}
  serverKey : String := ""
  congestionControl : String := ""
  quicCongestionControl : String := ""
  zeroRTTHandshake : Bool := false
  paddingScheme : List String := []
  upMbps : Int := 0
  downMbps : Int := 0
  obfs : String := ""
  obfsPassword : String := ""
  obfsSettings : RawMessage := ""
  ignoreClientBandwidth : Bool := false
  transport : String := ""
  multiplex : Option InboundMultiplexOptions := none
  trafficPattern : String := ""
  mtu : Int := 0

abbrev Config := ServerConfig ServerSettings

/-! ## Options of an inbound -/

structure ListenOptions where
  listen : Option Addr := none
  listenPort : UInt16 := 0
  tcpFastOpen : Bool := false

structure InboundECHOptions where
  enabled : Bool := false
  key : List String := []

/-- `InboundRealityOptions`; `server` and `serverPort` are those of its handshake. -/
structure InboundRealityOptions where
  enabled : Bool := false
  privateKey : String := ""
  shortID : List String := []
  maxTimeDifference : Duration := 0
  server : String := ""
  serverPort : UInt16 := 0

structure InboundTLSOptions where
  enabled : Bool := false
  serverName : String := ""
  alpn : List String := []
  certificatePath : String := ""
  keyPath : String := ""
  /-- the tag of the provider -/
  certificateProvider : Option String := none
  ech : Option InboundECHOptions := none
  reality : Option InboundRealityOptions := none

abbrev HTTPHeader := GoMap String (List String)

inductive V2RayTransportOptions where
  | http (host : List String) (path method : String) (headers : HTTPHeader)
  | websocket (path : String) (headers : HTTPHeader) (maxEarlyData : UInt32) (earlyDataHeaderName : String)
  | quic
  | grpc (serviceName : String)
  | httpUpgrade (path host : String)

/-- A user entry of an inbound. `auth` is what the entry has besides its name. -/
structure NamedUser (A : Type) where
  name : String
  auth : A

abbrev PasswordUser := NamedUser String

structure UUIDAndFlow where
  uuid : String
  flow : String

structure UUIDAndPassword where
  uuid : String
  password : String

structure Hysteria2Obfs where
  type : String
  password : String

/-- The options of an inbound, by its type. -/
inductive InboundOptions where
  | vmess (listen : ListenOptions) (users : List (NamedUser String)) (tls : Option InboundTLSOptions)
      (multiplex : Option InboundMultiplexOptions) (transport : Option V2RayTransportOptions)
  | vless (listen : ListenOptions) (users : List (NamedUser UUIDAndFlow)) (tls : Option InboundTLSOptions)
      (multiplex : Option InboundMultiplexOptions) (transport : Option V2RayTransportOptions)
  | shadowsocks (listen : ListenOptions) (method password : String) (users : List PasswordUser)
      (multiplex : Option InboundMultiplexOptions)
  | trojan (listen : ListenOptions) (users : List PasswordUser) (tls : Option InboundTLSOptions)
      (multiplex : Option InboundMultiplexOptions) (transport : Option V2RayTransportOptions)
  | tuic (listen : ListenOptions) (users : List (NamedUser UUIDAndPassword)) (congestionControl : String)
      (zeroRTTHandshake : Bool) (tls : Option InboundTLSOptions)
  | anytls (listen : ListenOptions) (tls : Option InboundTLSOptions) (users : List PasswordUser)
      (paddingScheme : List String)
  | hysteria (listen : ListenOptions) (upMbps downMbps : Int) (obfs : String) (users : List (NamedUser String))
      (tls : Option InboundTLSOptions)
  | hysteria2 (listen : ListenOptions) (upMbps downMbps : Int) (obfs : Option Hysteria2Obfs)
      (users : List PasswordUser) (ignoreClientBandwidth : Bool) (tls : Option InboundTLSOptions)
  | naive (listen : ListenOptions) (users : List PasswordUser) (network quicCongestionControl : String)
      (tls : Option InboundTLSOptions)
  | mieru (listen : ListenOptions) (users : List PasswordUser) (trafficPattern : String) (mtu : Int)
      (portBindings : List MieruPortBinding) (transport : String)

namespace InboundOptions

def tls : InboundOptions → Option InboundTLSOptions
  | vmess _ _ tls _ _ => tls
  | vless _ _ tls _ _ => tls
  | shadowsocks .. => none
  | trojan _ _ tls _ _ => tls
  | tuic _ _ _ _ tls => tls
  | anytls _ tls _ _ => tls
  | hysteria _ _ _ _ _ tls => tls
  | hysteria2 _ _ _ _ _ _ tls => tls
  | naive _ _ _ _ tls => tls
  | mieru .. => none

def transport : InboundOptions → Option V2RayTransportOptions
  | vmess _ _ _ _ transport => transport
  | vless _ _ _ _ transport => transport
  | trojan _ _ _ _ transport => transport
  | _ => none

def userNames : InboundOptions → List String
  | vmess _ users _ _ _ => users.map (·.name)
  | vless _ users _ _ _ => users.map (·.name)
  | shadowsocks _ _ _ users _ => users.map (·.name)
  | trojan _ users _ _ _ => users.map (·.name)
  | tuic _ users _ _ _ => users.map (·.name)
  | anytls _ _ users _ => users.map (·.name)
  | hysteria _ _ _ _ users _ => users.map (·.name)
  | hysteria2 _ _ _ _ users _ _ => users.map (·.name)
  | naive _ users _ _ _ => users.map (·.name)
  | mieru _ users _ _ _ _ => users.map (·.name)

end InboundOptions

/-! ## Local options -/

structure V2BoardTLSOptions where
  mode : String := ""
  certFile : String := ""
  keyFile : String := ""
  serverName : String := ""
  certificateProvider : String := ""

structure MapperOptions where
  tag : String := ""
  listen : Option Addr := none
  listenAddress : String := ""
  tcpFastOpen : Bool := false
  tls : Option V2BoardTLSOptions := none
  inboundTLS : Option InboundTLSOptions := none
  multiplex : Option InboundMultiplexOptions := none

/-! ## The network settings of a config -/

/-- `HTTPNetworkConfig`; `request` is what `json.Unmarshal` of the request gives. -/
structure HTTPNetworkConfig where
  headerType : String := ""
  request : Option RawMessage := none

structure HTTPRequest where
  method : String := ""
  path : List String := []
  host : List String := []

structure HTTPTransportNetworkConfig where
  host : List String := []
  hostAlias : List String := []
  path : List String := []
  method : String := ""
  headers : GoMap String (List String) := ∅

structure WebsocketNetworkConfig where
  path : String := ""
  headers : GoMap String String := ∅

structure HTTPUpgradeNetworkConfig where
  path : String := ""
  host : String := ""

/-- What is called outside of the package. -/
structure MapperEnv where
  /-- `netip.ParseAddr` -/
  parseAddr : String → Except String Addr
  /-- `net.SplitHostPort` -/
  splitHostPort : String → Except String (String × String)
  /-- `time.ParseDuration` -/
  parseDuration : String → Except String Duration
  /-- `url.Parse`: the path, and the value of `ed` in the query -/
  parseURL : String → Except String (String × String)
  /-- `json.Unmarshal`; of `proxyProtocolNetworkConfig` its only field -/
  unmarshalProxyProtocol : RawMessage → Except String Bool
  unmarshalTCP : RawMessage → Except String HTTPNetworkConfig
  unmarshalRequest : RawMessage → Except String HTTPRequest
  unmarshalHTTP : RawMessage → Except String HTTPTransportNetworkConfig
  unmarshalWebsocket : RawMessage → Except String WebsocketNetworkConfig
  unmarshalGRPC : RawMessage → Except String String
  unmarshalHTTPUpgrade : RawMessage → Except String HTTPUpgradeNetworkConfig
  /-- `base64.StdEncoding` -/
  encodeBase64 : List UInt8 → String
  decodeBase64 : String → Except String (List UInt8)
  /-- `shadowsocks.Key` -/
  shadowsocksKey : List UInt8 → Nat → List UInt8
  /-- `strings.ToUpper` -/
  toUpper : String → String

/-- `strings.EqualFold` with a text of ASCII letters that fold to themselves only
(all but `k` and `s`). -/
def equalFold (s t : String) : Bool := s.toList.map Char.toLower == t.toList.map Char.toLower

def lowerTrimmed (s : String) : String := GoStrings.toLower (GoStrings.trimSpace s)

def listenOptions (env : MapperEnv) (config : Config) (o : MapperOptions) : Except String ListenOptions :=
  let listen : ListenOptions := { listenPort := UInt16.ofInt config.serverPort, tcpFastOpen := o.tcpFastOpen }
  match o.listen with
  | some addr => .ok { listen with listen := some addr }
  | none =>
    let listenAddress := firstNonEmpty [o.listenAddress, config.settings.listenIP]
    if listenAddress = "" then .ok listen
    else
      match env.parseAddr listenAddress with
      | .error err => .error ("invalid listen address " ++ listenAddress.quote ++ ": " ++ err)
      | .ok addr => .ok { listen with listen := some addr }

/-! ## TLS -/

def securityNone : Int := 0
def securityTLS : Int := 1
def securityREALITY : Int := 2

def serverName (config : Config) : String :=
  firstNonEmpty [config.settings.tlsSettings.primaryServerName, config.settings.serverName]

def panelTLSDisabled (config : Config) : Bool :=
  equalFold (GoStrings.trimSpace config.settings.tlsSettings.certMode) "none"

/-- The errors of `validatePanelTLSCertificateSettings`. -/
def validatePanelTLSCertificateSettings (config : Config) : Except String Unit :=
  let settings := config.settings.tlsSettings
  let certMode := lowerTrimmed settings.certMode
  if certMode = "" ∨ certMode = "self" then
    if GoStrings.trimSpace settings.provider ≠ "" ∨ GoStrings.trimSpace settings.dnsEnv ≠ "" then
      .error "tls: unsupported v2board certificate provider settings by singlink inbound"
    else .ok ()
  else if certMode = "http" ∨ certMode = "dns" then
    .error ("tls: unsupported v2board cert_mode " ++ settings.certMode.quote ++ " by singlink inbound")
  else if certMode = "none" then .error "TLS is disabled by v2board cert_mode=none"
  else .error ("tls: unsupported v2board cert_mode " ++ settings.certMode.quote)

/-- `applyPanelECH`: the TLS options with the ECH settings of the panel. -/
def applyPanelECH (tlsOptions : InboundTLSOptions) (config : Config) : Except String InboundTLSOptions :=
  let settings := config.settings.tlsSettings
  let echMode := lowerTrimmed settings.ech
  if echMode = "" then
    if settings.echKey ≠ "" then .error "tls: ech_key set without ech=custom" else .ok tlsOptions
  else if tlsOptions.reality.any (·.enabled) then .error "reality tls: ECH is unsupported"
  else if echMode = "custom" then
    if GoStrings.trimSpace settings.echKey = "" then .error "tls: missing ech_key for custom ECH"
    else .ok { tlsOptions with ech := some { enabled := true, key := [settings.echKey] } }
  else if echMode = "cloudflare" then
    .error ("tls: unsupported v2board ECH mode " ++ settings.ech.quote ++ " by singlink inbound")
  else .error ("tls: unsupported v2board ECH mode " ++ settings.ech.quote)

def requiredTLS (config : Config) (o : MapperOptions) : Except String InboundTLSOptions :=
  if panelTLSDisabled config then .error "TLS is disabled by v2board cert_mode=none"
  else
    match o.inboundTLS with
    | some tlsOptions =>
      if !tlsOptions.enabled then .error "TLS options are disabled"
      else
        applyPanelECH
          (if tlsOptions.serverName = "" then { tlsOptions with serverName := serverName config } else tlsOptions) config
    | none =>
      match o.tls with
      | some tls =>
        if equalFold tls.mode "none" then .error "TLS options are disabled"
        else
          let tlsOptions : InboundTLSOptions :=
            { enabled := true, serverName := firstNonEmpty [tls.serverName, serverName config] }
          if tls.certificateProvider ≠ "" then
            applyPanelECH { tlsOptions with certificateProvider := some tls.certificateProvider } config
          else if tls.certFile = "" ∨ tls.keyFile = "" then .error "TLS cert_file and key_file are required"
          else applyPanelECH { tlsOptions with certificatePath := tls.certFile, keyPath := tls.keyFile } config
      | none =>
        match validatePanelTLSCertificateSettings config with
        | .error err => .error err
        | .ok () =>
          let settings := config.settings.tlsSettings
          if settings.certFile = "" ∨ settings.keyFile = "" then .error "missing TLS options"
          else
            applyPanelECH
              { enabled := true, serverName := serverName config, certificatePath := settings.certFile
                keyPath := settings.keyFile } config

def parsePort (portText : String) : Except String UInt16 :=
  if portText = "" then .error "missing port"
  else
    match parseUint16 portText with
    | .error err => .error err
    | .ok port => if port = 0 then .error "port must be greater than zero" else .ok port

/-- The time difference REALITY allows. -/
def realityMaxTimeDiff (env : MapperEnv) (config : Config) : Except String Duration :=
  let text := config.settings.realityConfig.maxTimeDiff
  if text = "" then .ok 0
  else
    match env.parseDuration text with
    | .error err => .error ("reality tls: invalid MaxTimeDiff " ++ text.quote ++ ": " ++ err)
    | .ok maxTimeDiff => .ok maxTimeDiff

def realityXver (config : Config) : UInt64 :=
  if config.settings.tlsSettings.xver = 0 then config.settings.realityConfig.xver else config.settings.tlsSettings.xver

/-- The server of the handshake and the text of its port. -/
def realityHandshake (env : MapperEnv) (config : Config) : String × String :=
  let settings := config.settings.tlsSettings
  let dest := firstNonEmpty [settings.dest, serverName config]
  match env.splitHostPort dest with
  | .ok (host, port) => (host, if settings.serverPort = "" then port else settings.serverPort)
  | .error _ => (dest, settings.serverPort)

def realityTLS (env : MapperEnv) (config : Config) : Except String InboundTLSOptions :=
  let settings := config.settings.tlsSettings
  if GoStrings.trimSpace settings.ech ≠ "" ∨ GoStrings.trimSpace settings.echKey ≠ "" then
    .error "reality tls: ECH is unsupported"
  else if realityXver config ≠ 0 then
    .error ("reality tls: unsupported xver " ++ toString (realityXver config) ++ " by singlink inbound")
  else if serverName config = "" then .error "reality tls: missing server_name"
  else if settings.privateKey = "" then .error "reality tls: missing private_key"
  else if settings.effectiveShortIDs = [] then .error "reality tls: missing short_id"
  else
    match parsePort (realityHandshake env config).2 with
    | .error err => .error ("reality tls: invalid server_port: " ++ err)
    | .ok handshakePort =>
      match realityMaxTimeDiff env config with
      | .error err => .error err
      | .ok maxTimeDiff =>
        .ok
          { enabled := true
            serverName := serverName config
            reality := some
              { enabled := true
                privateKey := settings.privateKey
                shortID := settings.effectiveShortIDs
                maxTimeDifference := maxTimeDiff
                server := (realityHandshake env config).1
                serverPort := handshakePort } }

def inboundTLS (env : MapperEnv) (security : Int) (config : Config) (o : MapperOptions) :
    Except String (Option InboundTLSOptions) :=
  if security = securityNone then .ok none
  else if security = securityTLS then
    if panelTLSDisabled config then .ok none else some <$> requiredTLS config o
  else if security = securityREALITY then some <$> realityTLS env config
  else .error ("unsupported security value " ++ toString security)

/-- What `anyTLSTLS` asks for, before it looks at the result again. -/
def anyTLSSource (env : MapperEnv) (config : Config) (o : MapperOptions) : Except String InboundTLSOptions :=
  if config.tls = securityREALITY then realityTLS env config
  else if config.tls = securityTLS ∨ config.tls = securityNone then requiredTLS config o
  else .error ("unsupported security value " ++ toString config.tls)

def anyTLSTLS (env : MapperEnv) (config : Config) (o : MapperOptions) : Except String InboundTLSOptions :=
  match anyTLSSource env config o with
  | .error err => .error err
  | .ok tlsOptions => if !tlsOptions.enabled then .error "missing TLS options" else .ok tlsOptions

def ensureALPN (tlsOptions : InboundTLSOptions) (protocol : String) : InboundTLSOptions :=
  if tlsOptions.alpn.contains protocol then tlsOptions else { tlsOptions with alpn := tlsOptions.alpn ++ [protocol] }

/-! ## Transports -/

def rejectProxyProtocol (env : MapperEnv) (raw : RawMessage) : Except String Unit :=
  if raw = "" ∨ GoStrings.trimSpace raw = "null" then .ok ()
  else
    match env.unmarshalProxyProtocol raw with
    | .error err => .error err
    | .ok acceptProxyProtocol =>
      if acceptProxyProtocol then .error "unsupported acceptProxyProtocol by singlink inbound" else .ok ()

def websocketPath (env : MapperEnv) (path : String) : Except String (String × UInt32) :=
  if path = "" then .ok ("", 0)
  else
    match env.parseURL path with
    | .error err => .error ("parse websocket path: " ++ err)
    | .ok (parsedPath, earlyDataText) =>
      if earlyDataText = "" then .ok (parsedPath, 0)
      else
        match parseUintSized earlyDataText 32 with
        | .error err => .error ("invalid websocket early data " ++ earlyDataText.quote ++ ": " ++ err)
        | .ok earlyData => .ok (parsedPath, .ofNat earlyData)

def earlyDataHeaderName (earlyData : UInt32) : String := if earlyData = 0 then "" else "Sec-WebSocket-Protocol"

def stringHeader (headers : GoMap String String) : HTTPHeader :=
  headers.keys.foldl (fun result key => result.insert key [headers.get key ""]) ∅

/-- `json.Unmarshal` of network settings that may be missing. -/
def unmarshalSettings {α : Type} (kind : String) (unmarshal : RawMessage → Except String α) (zero : α) (raw : RawMessage) :
    Except String α :=
  if raw = "" then .ok zero
  else
    match unmarshal raw with
    | .error err => .error ("decode " ++ kind ++ " network_settings: " ++ err)
    | .ok config => .ok config

/-- The HTTP header of a TCP transport, which makes it an HTTP transport. -/
def tcpTransport (env : MapperEnv) (raw : RawMessage) : Except String (Option V2RayTransportOptions) := do
  if raw = "" then return none
  else
    let config ← unmarshalSettings "tcp" env.unmarshalTCP {} raw
    let headerType := lowerTrimmed config.headerType
    if headerType = "" then return none
    else if headerType = "http" then
      match config.request with
      | none => return some (.http [] "" "" ∅)
      | some request =>
        match env.unmarshalRequest request with
        | .error err => throw ("decode http request: " ++ err)
        | .ok request => return some (.http request.host (request.path.headD "") request.method ∅)
    else throw ("unsupported tcp header type " ++ config.headerType.quote)

def v2rayTransport (env : MapperEnv) (network : String) (raw : RawMessage) :
    Except String (Option V2RayTransportOptions) := do
  let network := lowerTrimmed network
  rejectProxyProtocol env raw
  if network = "" ∨ network = "tcp" then tcpTransport env raw
  else if network = "http" then
    let config ← unmarshalSettings "http" env.unmarshalHTTP {} raw
    let hosts := if config.host = [] then config.hostAlias else config.host
    return some (.http hosts (config.path.headD "") config.method config.headers)
  else if network = "ws" then
    let config ← unmarshalSettings "websocket" env.unmarshalWebsocket {} raw
    let (path, earlyData) ← websocketPath env config.path
    return some (.websocket path (stringHeader config.headers) earlyData (earlyDataHeaderName earlyData))
  else if network = "grpc" then
    let serviceName ← unmarshalSettings "grpc" env.unmarshalGRPC "" raw
    return some (.grpc serviceName)
  else if network = "httpupgrade" then
    let config ← unmarshalSettings "httpupgrade" env.unmarshalHTTPUpgrade {} raw
    return some (.httpUpgrade config.path config.host)
  else if network = "quic" then return some .quic
  else throw ("unsupported network " ++ network.quote)

def requireTransportTLS (nodeType : String) (transport : Option V2RayTransportOptions)
    (tlsOptions : Option InboundTLSOptions) : Except String Unit :=
  match transport with
  | some .quic =>
    if tlsOptions.any (·.enabled) then .ok () else .error (nodeType ++ " transport: quic requires TLS")
  | _ => .ok ()

/-! ## Users -/

def typeVLESS : String := "vless"
def typeTUIC : String := "tuic"
def typeAnyTLS : String := "anytls"

def validateUser (nodeType : String) (i : Nat) (user : UserInfo) : Except String Unit :=
  if nodeType = typeMieru ∨ nodeType = typeNaive then
    if GoStrings.trimSpace user.username = "" then
      .error (nodeType ++ ": user at index " ++ toString i ++ " has empty username")
    else if GoStrings.trimSpace user.password = "" then
      .error (nodeType ++ ": user at index " ++ toString i ++ " has empty password")
    else .ok ()
  else if GoStrings.trimSpace user.uuid = "" then
    .error (nodeType ++ ": user at index " ++ toString i ++ " has empty uuid")
  else .ok ()

/-- `validateUsers` from index `i` on. -/
def validateUsersFrom (nodeType : String) (i : Nat) : List UserInfo → Except String Unit
  | [] => .ok ()
  | user :: users => do
    validateUser nodeType i user
    validateUsersFrom nodeType (i + 1) users

def validateUsers (nodeType : String) (users : List UserInfo) : Except String Unit := validateUsersFrom nodeType 0 users

def vmessUsers (users : List UserInfo) : List (NamedUser String) := users.map fun user => ⟨user.uuid, user.uuid⟩

def vlessUsers (users : List UserInfo) (flow : String) : List (NamedUser UUIDAndFlow) :=
  users.map fun user => ⟨user.uuid, user.uuid, flow⟩

def trojanUsers (users : List UserInfo) : List PasswordUser := users.map fun user => ⟨user.uuid, user.uuid⟩

def tuicUsers (users : List UserInfo) : List (NamedUser UUIDAndPassword) :=
  users.map fun user => ⟨user.uuid, user.uuid, user.uuid⟩

def anyTLSUsers (users : List UserInfo) : List PasswordUser := users.map fun user => ⟨user.uuid, user.uuid⟩

/-- `auth` is the `AuthString` here. -/
def hysteriaUsers (users : List UserInfo) : List (NamedUser String) := users.map fun user => ⟨user.uuid, user.uuid⟩

def hysteria2Users (users : List UserInfo) : List PasswordUser := users.map fun user => ⟨user.uuid, user.uuid⟩

def mieruUsers (users : List UserInfo) : List PasswordUser := users.map fun user => ⟨user.username, user.password⟩

def naiveUsers (users : List UserInfo) : List PasswordUser := users.map fun user => ⟨user.username, user.password⟩

/-! ## Shadowsocks -/

def maxLegacyShadowsocksUsers : Nat := 10000

def rawJSONHasValue (raw : RawMessage) : Bool :=
  !List.contains ["", "null", "\x7b\x7d", "[]"] (GoStrings.trimSpace raw)

/-- The key length of a 2022 cipher, none for the others. -/
def shadowsocks2022KeyLength (cipher : String) : Except String (Option Nat) :=
  if cipher = "2022-blake3-aes-128-gcm" then .ok (some 16)
  else if cipher = "2022-blake3-aes-256-gcm" then .ok (some 32)
  else if cipher = "2022-blake3-chacha20-poly1305" then
    .error ("shadowsocks: unsupported multi-user cipher " ++ cipher.quote)
  else if ["aes-128-gcm", "aes-192-gcm", "aes-256-gcm", "chacha20-ietf-poly1305", "xchacha20-ietf-poly1305",
      "none"].contains cipher then .ok none
  else .error ("shadowsocks: unsupported cipher " ++ cipher.quote)

def shadowsocks2022UserPassword (env : MapperEnv) (user : UserInfo) (keyLength : Nat) : Except String String :=
  if user.secret ≠ "" then .ok user.secret
  else if (utf8 user.uuid).length < keyLength then
    .error ("shadowsocks: user " ++ toString user.id ++ " uuid is too short for 2022 key derivation")
  else .ok (env.encodeBase64 ((utf8 user.uuid).take keyLength))

def decodeShadowsocks2022PSK (env : MapperEnv) (value : String) (keyLength : Nat) (name : String) :
    Except String (List UInt8) :=
  if value = "" then .error ("shadowsocks: missing " ++ name)
  else
    match env.decodeBase64 value with
    | .error err => .error ("shadowsocks: " ++ name ++ " must be base64-encoded: " ++ err)
    | .ok key =>
      if key.length < keyLength then
        .error ("shadowsocks: " ++ name ++ " is too short for 2022 key length " ++ toString keyLength)
      else .ok (if keyLength < key.length then env.shadowsocksKey key keyLength else key)

/-- The loop over the users for a 2022 cipher, with the keys seen so far. -/
def shadowsocks2022Users (env : MapperEnv) (keyLength : Nat) (seenPSK : GoMap (List UInt8) Int64) :
    List UserInfo → Except String (List PasswordUser)
  | [] => .ok []
  | user :: users => do
    let password ← shadowsocks2022UserPassword env user keyLength
    let psk ← decodeShadowsocks2022PSK env password keyLength ("user " ++ toString user.id ++ " psk")
    match seenPSK.lookup psk with
    | some previous =>
      throw ("shadowsocks: user " ++ toString user.id ++ " psk duplicates user " ++ toString previous ++ " psk")
    | none =>
      let rest ← shadowsocks2022Users env keyLength (seenPSK.insert psk user.id) users
      return ⟨user.uuid, password⟩ :: rest

/-- The password of the inbound and its users. -/
def shadowsocksCredentials (env : MapperEnv) (config : Config) (users : List UserInfo) :
    Option Nat → Except String (String × List PasswordUser)
  | none => .ok ("", users.map fun user => ⟨user.uuid, user.uuid⟩)
  | some keyLength => do
    let _ ← decodeShadowsocks2022PSK env config.settings.serverKey keyLength "server_key"
    let entries ← shadowsocks2022Users env keyLength ∅ users
    return (config.settings.serverKey, entries)

def shadowsocksOptions (env : MapperEnv) (listen : ListenOptions) (config : Config) (users : List UserInfo)
    (multiplex : Option InboundMultiplexOptions) : Except String InboundOptions := do
  if config.cipher = "" then throw "shadowsocks: missing cipher"
  else if lowerTrimmed config.settings.network ≠ "" ∧ lowerTrimmed config.settings.network ≠ "tcp" then
    throw ("shadowsocks: unsupported network " ++ config.settings.network.quote ++ " by singlink inbound")
  else if lowerTrimmed config.settings.obfs ≠ "" ∧ lowerTrimmed config.settings.obfs ≠ "none" then
    throw ("shadowsocks: unsupported obfs " ++ config.settings.obfs.quote ++ " by singlink inbound")
  else if rawJSONHasValue config.settings.obfsSettings then
    throw "shadowsocks: unsupported obfs_settings by singlink inbound"
  else
    let keyLength ← shadowsocks2022KeyLength config.cipher
    if keyLength = none ∧ maxLegacyShadowsocksUsers < users.length then
      throw ("shadowsocks: " ++ config.cipher ++ " with " ++ toString users.length ++
        " users requires 2022-blake3-aes-128-gcm or 2022-blake3-aes-256-gcm; legacy multi-user authentication is O(n)")
    else
      let (password, entries) ← shadowsocksCredentials env config users keyLength
      return .shadowsocks listen config.cipher password entries multiplex

/-! ## Hysteria2, naive and mieru -/

def hysteria2Obfs (config : Config) : Except String (Option Hysteria2Obfs) :=
  let obfsType := GoStrings.trimSpace config.settings.obfs
  let obfsPassword := config.settings.obfsPassword
  if obfsType = "" ∧ obfsPassword = "" then .ok none
  else if obfsType = "" then .error "hysteria2: obfs-password set without obfs type"
  else if obfsType = "salamander" ∨ obfsType = "gecko" then
    if obfsPassword = "" then .error ("hysteria2: missing obfs-password for " ++ obfsType ++ " obfs")
    else .ok (some { type := obfsType, password := obfsPassword })
  else if obfsPassword ≠ "" then .error ("hysteria2: unsupported obfs type " ++ obfsType.quote)
  else .ok (some { type := "salamander", password := obfsType })

def naiveNetwork (network : String) : Except String String :=
  let network := lowerTrimmed network
  if network = "" ∨ network = "tcp" ∨ network = "udp" then .ok network
  else .error ("naive: unsupported network " ++ network.quote)

/-- `fmt.Errorf` with a text in front of an error. -/
def withText {α : Type} (text : String) : Except String α → Except String α
  | .ok a => .ok a
  | .error err => .error (text ++ ": " ++ err)

def naiveOptions (listen : ListenOptions) (config : Config) (users : List UserInfo) (o : MapperOptions) :
    Except String InboundOptions := do
  let tlsOptions ← withText "naive tls" (requiredTLS config o)
  let network ← naiveNetwork config.settings.network
  return .naive listen (naiveUsers users) network config.settings.quicCongestionControl (some tlsOptions)

def atoi (s : String) : Option Int :=
  let (negative, digits) := match s.toList with
    | '+' :: digits => (false, digits)
    | '-' :: digits => (true, digits)
    | digits => (false, digits)
  if digits = [] ∨ ¬digits.all Char.isDigit then none
  else
    let n : Int := digits.foldl (fun n c => 10 * n + (c.toNat - '0'.toNat)) 0
    if negative then (if n ≤ 2 ^ 63 then some (-n) else none) else if n < 2 ^ 63 then some n else none

def firstPortFromMieruRange (portRange : String) : Option Int := do
  let (beginString, endString) ← GoStrings.cutAny (GoStrings.trimSpace portRange) ['-']
  guard (beginString ≠ "" ∧ endString ≠ "")
  let start ← atoi beginString
  guard (1 ≤ start ∧ start ≤ 65535)
  let stop ← atoi endString
  guard (start ≤ stop ∧ stop ≤ 65535)
  return start

/-- The first port that the bindings name. -/
def firstBoundPort (bindings : List MieruPortBinding) : Int :=
  (bindings.findSome? fun binding =>
    if 0 < binding.port ∧ binding.port ≤ 65535 then some binding.port
    else firstPortFromMieruRange binding.portRange).getD 0

def mieruListenPort (config : Config) : Except String Int :=
  if config.settings.portBindings = [] then
    if config.serverPort ≤ 0 ∨ 65535 < config.serverPort then
      .error ("mieru: invalid server_port " ++ toString config.serverPort)
    else .ok config.serverPort
  else .ok (firstBoundPort config.settings.portBindings)

def mieruDefaultTransport (env : MapperEnv) (transport : String) : String :=
  env.toUpper (firstNonEmpty [GoStrings.trimSpace transport, "TCP"])

def mieruPortBinding (env : MapperEnv) (config : Config) (i : Nat) (binding : MieruPortBinding) :
    Except String MieruPortBinding :=
  let portRange := GoStrings.trimSpace binding.portRange
  let hasPort := decide (binding.port ≠ 0)
  let hasRange := decide (portRange ≠ "")
  let place := "mieru: port_bindings[" ++ toString i ++ "]"
  if hasPort = hasRange then .error (place ++ " must set exactly one of port or port_range")
  else if hasPort ∧ (binding.port < 1 ∨ 65535 < binding.port) then
    .error (place ++ ".port " ++ toString binding.port ++ " is invalid")
  else if hasRange ∧ firstPortFromMieruRange portRange = none then
    .error (place ++ ".port_range " ++ binding.portRange.quote ++ " is invalid")
  else
    let protocol := mieruDefaultTransport env (firstNonEmpty [binding.protocol, config.settings.transport])
    if protocol = "TCP" ∨ protocol = "UDP" then .ok { port := binding.port, portRange, protocol }
    else .error (place ++ ".protocol " ++ binding.protocol.quote ++ " is invalid")

/-- The loop of `mieruPortBindings` from index `i` on. -/
def mieruPortBindingsFrom (env : MapperEnv) (config : Config) (i : Nat) :
    List MieruPortBinding → Except String (List MieruPortBinding)
  | [] => .ok []
  | binding :: bindings => do
    let first ← mieruPortBinding env config i binding
    let rest ← mieruPortBindingsFrom env config (i + 1) bindings
    return first :: rest

def mieruOptions (env : MapperEnv) (config : Config) (users : List UserInfo) (o : MapperOptions) :
    Except String InboundOptions := do
  let listenPort ← mieruListenPort config
  let listen ← listenOptions env { config with serverPort := listenPort } o
  if config.settings.portBindings ≠ [] then
    let portBindings ← mieruPortBindingsFrom env config 0 config.settings.portBindings
    return .mieru listen (mieruUsers users) config.settings.trafficPattern config.settings.mtu portBindings ""
  else
    return .mieru listen (mieruUsers users) config.settings.trafficPattern config.settings.mtu []
      (mieruDefaultTransport env config.settings.transport)

/-! ## `MapInbound` -/

/-- What the branches of `MapInbound` for the node types read. -/
structure MapperInput where
  env : MapperEnv
  o : MapperOptions
  config : Config
  users : List UserInfo
  listen : ListenOptions
  multiplex : Option InboundMultiplexOptions

namespace MapperInput

variable (m : MapperInput)

def vmessOptions : Except String InboundOptions := do
  let transport ← withText "vmess transport" (v2rayTransport m.env m.config.settings.network m.config.settings.networkSettings)
  let tlsOptions ← inboundTLS m.env m.config.tls m.config m.o
  requireTransportTLS typeVMess transport tlsOptions
  return .vmess m.listen (vmessUsers m.users) tlsOptions m.multiplex transport

def validateVLESSEncryption : Except String Unit :=
  let encryption := lowerTrimmed m.config.settings.encryption
  if encryption = "" ∨ encryption = "none" then
    if encryption = "" ∧ m.config.settings.encryptionSettings.hasValue then
      .error "vless: unsupported encryption_settings by singlink inbound"
    else .ok ()
  else .error ("vless: unsupported encryption " ++ m.config.settings.encryption.quote ++ " by singlink inbound")

def vlessOptions : Except String InboundOptions := do
  m.validateVLESSEncryption
  let transport ← withText "vless transport" (v2rayTransport m.env m.config.settings.network m.config.settings.networkSettings)
  let tlsOptions ← inboundTLS m.env m.config.tls m.config m.o
  requireTransportTLS typeVLESS transport tlsOptions
  return .vless m.listen (vlessUsers m.users m.config.settings.flow) tlsOptions m.multiplex transport

def trojanOptions : Except String InboundOptions := do
  let transport ← withText "trojan transport" (v2rayTransport m.env m.config.settings.network m.config.settings.networkSettings)
  let tlsOptions ← withText "trojan tls" (requiredTLS m.config m.o)
  return .trojan m.listen (trojanUsers m.users) (some tlsOptions) m.multiplex transport

def tuicOptions : Except String InboundOptions := do
  let tlsOptions ← withText "tuic tls" (requiredTLS m.config m.o)
  return .tuic m.listen (tuicUsers m.users) m.config.settings.congestionControl m.config.settings.zeroRTTHandshake
    (some (ensureALPN tlsOptions "h3"))

def anyTLSOptions : Except String InboundOptions := do
  let tlsOptions ← withText "anytls tls" (anyTLSTLS m.env m.config m.o)
  return .anytls m.listen (some tlsOptions) (anyTLSUsers m.users) m.config.settings.paddingScheme

def hysteriaOptions : Except String InboundOptions := do
  let tlsOptions ← withText "hysteria tls" (requiredTLS m.config m.o)
  return .hysteria m.listen m.config.settings.upMbps m.config.settings.downMbps m.config.settings.obfs
    (hysteriaUsers m.users) (some tlsOptions)

def hysteria2Options : Except String InboundOptions := do
  let tlsOptions ← withText "hysteria2 tls" (requiredTLS m.config m.o)
  let obfs ← hysteria2Obfs m.config
  return .hysteria2 m.listen m.config.settings.upMbps m.config.settings.downMbps obfs (hysteria2Users m.users)
    m.config.settings.ignoreClientBandwidth (some tlsOptions)

def typeOptions (nodeType : String) : Except String InboundOptions :=
  if nodeType = typeVMess then m.vmessOptions
  else if nodeType = typeVLESS then m.vlessOptions
  else if nodeType = typeShadowsocks then shadowsocksOptions m.env m.listen m.config m.users m.multiplex
  else if nodeType = typeTrojan then m.trojanOptions
  else if nodeType = typeTUIC then m.tuicOptions
  else if nodeType = typeAnyTLS then m.anyTLSOptions
  else if nodeType = typeHysteria then m.hysteriaOptions
  else if nodeType = typeHysteria2 then m.hysteria2Options
  else if nodeType = typeNaive then naiveOptions m.listen m.config m.users m.o
  else if nodeType = typeMieru then mieruOptions m.env m.config m.users m.o
  else .error ("unsupported node type " ++ nodeType.quote)

end MapperInput

/-- `mapperOptions.Multiplex`, or what the config has. -/
def multiplexOptions (config : Config) (o : MapperOptions) : Option InboundMultiplexOptions :=
  if config.settings.multiplex.isSome then config.settings.multiplex else o.multiplex

/-- The multiplex options ask for TCP Brutal. -/
def wantsBrutal (multiplex : Option InboundMultiplexOptions) : Bool :=
  multiplex.any fun multiplex => multiplex.enabled && multiplex.brutal.any (·.enabled)

def asGoError {α : Type} : Except String α → Except GoError α
  | .ok a => .ok a
  | .error message => .error { message }

/-- `MapInbound`, where `brutal` is what `checkTCPBrutalCapability` returns. -/
def MapperEnv.mapInbound (env : MapperEnv) (o : MapperOptions) (brutal : Option GoError) (node : NodeInfo ServerSettings)
    (users : List UserInfo) : Except GoError (Inbound InboundOptions) := do
  let config := node.common
  let nodeType := normalizeNodeType (firstNonEmpty [node.type, config.protocol])
  if nodeType = "" then throw { message := "missing node type" }
  else if ¬supportedNodeType nodeType then
    throw { message := "unsupported node type " ++ nodeType.quote ++ " by singlink" }
  else if nodeType ≠ typeMieru ∧ (config.serverPort ≤ 0 ∨ 65535 < config.serverPort) then
    throw { message := "invalid server_port " ++ toString config.serverPort }
  else if users = [] then throw { message := "missing users for " ++ nodeType ++ " inbound" }
  else
    asGoError (validateUsers nodeType users)
    let listen ← asGoError (listenOptions env config o)
    let multiplex := multiplexOptions config o
    if nodeType = typeShadowsocks ∧ wantsBrutal multiplex then
      if let some err := brutal then
        throw { message := "shadowsocks multiplex brutal preflight: " ++ err.message, kinds := err.kinds }
    let options ← asGoError (MapperInput.typeOptions ⟨env, o, config, users, listen, multiplex⟩ nodeType)
    return { type := nodeType, tag := firstNonEmpty [o.tag, node.tag], options := some options }

/-! ## What a success says -/

variable {α : Type} {a : α}

theorem exists_of_bind_ok {ε β : Type} {x : Except ε α} {f : α → Except ε β} {b : β} (h : x >>= f = .ok b) :
    ∃ a, x = .ok a ∧ f a = .ok b := by
  cases x with
  | error err => cases h
  | ok a => exact ⟨a, rfl, h⟩

theorem throw_ne_ok {ε : Type} {err : ε} : (throw err : Except ε α) ≠ .ok a := nofun

theorem eq_ok_of_withText {text : String} {x : Except String α} (h : withText text x = .ok a) : x = .ok a := by
  cases x with
  | error err => cases h
  | ok b => exact h

theorem eq_ok_of_asGoError {x : Except String α} (h : asGoError x = .ok a) : x = .ok a := by
  cases x with
  | error err => cases h
  | ok b => exact congrArg Except.ok (Except.ok.inj h)

/-- The options of each type, and what they are made of. -/
inductive MapperInput.Built (m : MapperInput) : String → InboundOptions → Prop
  | vmess {transport tls} : inboundTLS m.env m.config.tls m.config m.o = .ok tls →
      requireTransportTLS typeVMess transport tls = .ok () →
      Built m typeVMess (.vmess m.listen (vmessUsers m.users) tls m.multiplex transport)
  | vless {transport tls} : inboundTLS m.env m.config.tls m.config m.o = .ok tls →
      requireTransportTLS typeVLESS transport tls = .ok () →
      Built m typeVLESS (.vless m.listen (vlessUsers m.users m.config.settings.flow) tls m.multiplex transport)
  | shadowsocks {keyLength password entries} :
      shadowsocksCredentials m.env m.config m.users keyLength = .ok (password, entries) →
      Built m typeShadowsocks (.shadowsocks m.listen m.config.cipher password entries m.multiplex)
  | trojan {transport tls} : requiredTLS m.config m.o = .ok tls →
      Built m typeTrojan (.trojan m.listen (trojanUsers m.users) (some tls) m.multiplex transport)
  | tuic {tls} : requiredTLS m.config m.o = .ok tls →
      Built m typeTUIC (.tuic m.listen (tuicUsers m.users) m.config.settings.congestionControl
        m.config.settings.zeroRTTHandshake (some (ensureALPN tls "h3")))
  | anytls {tls} : anyTLSTLS m.env m.config m.o = .ok tls →
      Built m typeAnyTLS (.anytls m.listen (some tls) (anyTLSUsers m.users) m.config.settings.paddingScheme)
  | hysteria {tls} : requiredTLS m.config m.o = .ok tls →
      Built m typeHysteria (.hysteria m.listen m.config.settings.upMbps m.config.settings.downMbps
        m.config.settings.obfs (hysteriaUsers m.users) (some tls))
  | hysteria2 {tls obfs} : requiredTLS m.config m.o = .ok tls →
      Built m typeHysteria2 (.hysteria2 m.listen m.config.settings.upMbps m.config.settings.downMbps obfs
        (hysteria2Users m.users) m.config.settings.ignoreClientBandwidth (some tls))
  | naive {tls network} : requiredTLS m.config m.o = .ok tls →
      Built m typeNaive (.naive m.listen (naiveUsers m.users) network m.config.settings.quicCongestionControl (some tls))
  | mieru {listen bindings transport} :
      Built m typeMieru (.mieru listen (mieruUsers m.users) m.config.settings.trafficPattern m.config.settings.mtu
        bindings transport)

section Branches

variable {m : MapperInput} {options : InboundOptions}

theorem MapperInput.built_vmess (h : m.vmessOptions = .ok options) : m.Built typeVMess options := by
  obtain ⟨transport, -, h⟩ := exists_of_bind_ok h
  obtain ⟨tls, htls, h⟩ := exists_of_bind_ok h
  obtain ⟨⟨⟩, hrequire, h⟩ := exists_of_bind_ok h
  cases h
  exact .vmess htls hrequire

theorem MapperInput.built_vless (h : m.vlessOptions = .ok options) : m.Built typeVLESS options := by
  obtain ⟨⟨⟩, -, h⟩ := exists_of_bind_ok h
  obtain ⟨transport, -, h⟩ := exists_of_bind_ok h
  obtain ⟨tls, htls, h⟩ := exists_of_bind_ok h
  obtain ⟨⟨⟩, hrequire, h⟩ := exists_of_bind_ok h
  cases h
  exact .vless htls hrequire

theorem MapperInput.built_shadowsocks
    (h : shadowsocksOptions m.env m.listen m.config m.users m.multiplex = .ok options) :
    m.Built typeShadowsocks options := by
  unfold shadowsocksOptions at h
  split at h
  · exact absurd h throw_ne_ok
  split at h
  · exact absurd h throw_ne_ok
  split at h
  · exact absurd h throw_ne_ok
  split at h
  · exact absurd h throw_ne_ok
  obtain ⟨keyLength, -, h⟩ := exists_of_bind_ok h
  split at h
  · exact absurd h throw_ne_ok
  obtain ⟨⟨password, entries⟩, hcredentials, h⟩ := exists_of_bind_ok h
  cases h
  exact .shadowsocks hcredentials

theorem MapperInput.built_trojan (h : m.trojanOptions = .ok options) : m.Built typeTrojan options := by
  obtain ⟨transport, -, h⟩ := exists_of_bind_ok h
  obtain ⟨tls, htls, h⟩ := exists_of_bind_ok h
  cases h
  exact .trojan (eq_ok_of_withText htls)

theorem MapperInput.built_tuic (h : m.tuicOptions = .ok options) : m.Built typeTUIC options := by
  obtain ⟨tls, htls, h⟩ := exists_of_bind_ok h
  cases h
  exact .tuic (eq_ok_of_withText htls)

theorem MapperInput.built_anyTLS (h : m.anyTLSOptions = .ok options) : m.Built typeAnyTLS options := by
  obtain ⟨tls, htls, h⟩ := exists_of_bind_ok h
  cases h
  exact .anytls (eq_ok_of_withText htls)

theorem MapperInput.built_hysteria (h : m.hysteriaOptions = .ok options) : m.Built typeHysteria options := by
  obtain ⟨tls, htls, h⟩ := exists_of_bind_ok h
  cases h
  exact .hysteria (eq_ok_of_withText htls)

theorem MapperInput.built_hysteria2 (h : m.hysteria2Options = .ok options) : m.Built typeHysteria2 options := by
  obtain ⟨tls, htls, h⟩ := exists_of_bind_ok h
  obtain ⟨obfs, -, h⟩ := exists_of_bind_ok h
  cases h
  exact .hysteria2 (eq_ok_of_withText htls)

theorem MapperInput.built_naive (h : naiveOptions m.listen m.config m.users m.o = .ok options) :
    m.Built typeNaive options := by
  obtain ⟨tls, htls, h⟩ := exists_of_bind_ok h
  obtain ⟨network, -, h⟩ := exists_of_bind_ok h
  cases h
  exact .naive (eq_ok_of_withText htls)

theorem MapperInput.built_mieru (h : mieruOptions m.env m.config m.users m.o = .ok options) :
    m.Built typeMieru options := by
  obtain ⟨port, -, h⟩ := exists_of_bind_ok h
  obtain ⟨listen, -, h⟩ := exists_of_bind_ok h
  split at h
  · obtain ⟨bindings, -, h⟩ := exists_of_bind_ok h
    cases h
    exact .mieru
  · cases h
    exact .mieru

theorem MapperInput.built_of_typeOptions {nodeType : String} (h : m.typeOptions nodeType = .ok options) :
    m.Built nodeType options := by
  unfold MapperInput.typeOptions at h
  rcases ite_eq_iff.1 h with ⟨rfl, h⟩ | ⟨-, h⟩
  · exact built_vmess h
  rcases ite_eq_iff.1 h with ⟨rfl, h⟩ | ⟨-, h⟩
  · exact built_vless h
  rcases ite_eq_iff.1 h with ⟨rfl, h⟩ | ⟨-, h⟩
  · exact built_shadowsocks h
  rcases ite_eq_iff.1 h with ⟨rfl, h⟩ | ⟨-, h⟩
  · exact built_trojan h
  rcases ite_eq_iff.1 h with ⟨rfl, h⟩ | ⟨-, h⟩
  · exact built_tuic h
  rcases ite_eq_iff.1 h with ⟨rfl, h⟩ | ⟨-, h⟩
  · exact built_anyTLS h
  rcases ite_eq_iff.1 h with ⟨rfl, h⟩ | ⟨-, h⟩
  · exact built_hysteria h
  rcases ite_eq_iff.1 h with ⟨rfl, h⟩ | ⟨-, h⟩
  · exact built_hysteria2 h
  rcases ite_eq_iff.1 h with ⟨rfl, h⟩ | ⟨-, h⟩
  · exact built_naive h
  rcases ite_eq_iff.1 h with ⟨rfl, h⟩ | ⟨-, h⟩
  · exact built_mieru h
  · cases h

end Branches

/-- An inbound that is returned has a supported type, checked users, and the
options of its type. -/
theorem MapperEnv.mapInbound_eq_ok {env : MapperEnv} {o : MapperOptions} {brutal : Option GoError}
    {node : NodeInfo ServerSettings} {users : List UserInfo} {inbound : Inbound InboundOptions}
    (h : env.mapInbound o brutal node users = .ok inbound) :
    supportedNodeType inbound.type ∧ inbound.type = normalizeNodeType (firstNonEmpty [node.type, node.common.protocol]) ∧
      validateUsers inbound.type users = .ok () ∧
      ∃ listen options, MapperInput.typeOptions ⟨env, o, node.common, users, listen, multiplexOptions node.common o⟩
        inbound.type = .ok options ∧ inbound.options = some options := by
  unfold MapperEnv.mapInbound at h
  simp only at h
  split at h
  · exact absurd h throw_ne_ok
  split at h
  · exact absurd h throw_ne_ok
  rename_i hsupported
  split at h
  · exact absurd h throw_ne_ok
  split at h
  · exact absurd h throw_ne_ok
  obtain ⟨⟨⟩, hvalid, h⟩ := exists_of_bind_ok h
  obtain ⟨listen, -, h⟩ := exists_of_bind_ok h
  have hrest : asGoError (MapperInput.typeOptions ⟨env, o, node.common, users, listen, multiplexOptions node.common o⟩
      (normalizeNodeType (firstNonEmpty [node.type, node.common.protocol]))) >>= (fun options => pure
        ({ type := normalizeNodeType (firstNonEmpty [node.type, node.common.protocol])
           tag := firstNonEmpty [o.tag, node.tag], options := some options } : Inbound InboundOptions)) = .ok inbound := by
    split at h
    · cases brutal with
      | none => exact h
      | some err => exact absurd h throw_ne_ok
    · exact h
  obtain ⟨options, hoptions, hinbound⟩ := exists_of_bind_ok hrest
  have htype := congrArg Inbound.type (Except.ok.inj hinbound)
  have hset := congrArg Inbound.options (Except.ok.inj hinbound)
  dsimp only at htype hset
  rw [htype] at hsupported hvalid hoptions
  exact ⟨Decidable.not_not.1 hsupported, htype.symm, eq_ok_of_asGoError hvalid, listen, options,
    eq_ok_of_asGoError hoptions, hset.symm⟩

/-! ## A small environment -/

/-- Parsers that know nothing, and settings that are always the defaults. -/
def sampleEnv : MapperEnv where
  parseAddr _ := .error "unable to parse IP"
  splitHostPort _ := .error "missing port in address"
  parseDuration _ := .error "invalid duration"
  parseURL path := .ok (path, "")
  unmarshalProxyProtocol _ := .ok false
  unmarshalTCP _ := .ok {}
  unmarshalRequest _ := .ok {}
  unmarshalHTTP _ := .ok {}
  unmarshalWebsocket _ := .ok {}
  unmarshalGRPC _ := .ok ""
  unmarshalHTTPUpgrade _ := .ok {}
  encodeBase64 _ := ""
  decodeBase64 _ := .error "illegal base64 data"
  shadowsocksKey key _ := key
  toUpper := id

/-- A node of a type with a security value, its other settings, and port 443. -/
def sampleNode (nodeType : String) (security : Int) (settings : ServerSettings) : NodeInfo ServerSettings :=
  { id := 1, type := nodeType, security, tag := "node", common := { serverPort := 443, tls := security, settings } }

end Singlink.V2Board
