import Singlink.Lib.GoStrings
/-!
# Panel data

The records of `service/v2board/types.go` and `models.go` that the service
works on, and the normalisation of node types and API styles.
-/

namespace Singlink.V2Board

open Lib

/-! ## Records -/

/-- `PanelUserInfo`. -/
structure UserInfo where
  id : Int64 := 0
  uuid : String := ""
  username : String := ""
  password : String := ""
  speedLimit : Int64 := 0
  deviceLimit : Int64 := 0
  label : String := ""
  secret : String := ""
  linkSecret : String := ""
  port : Int64 := 0
  cipher : String := ""
  enabled : Bool := false
  enabledSet : Bool := false
  maxConnections : Int64 := 0
  maxIPs : Int64 := 0
  quotaBytes : Int64 := 0
  expiresAt : Int64 := 0
  expiresOn : String := ""
  deriving DecidableEq, Repr

/-- `PanelUserInfo` as it comes from the panel, its texts any bytes. `UserInfo` is the
one whose texts are Unicode. -/
@[ext]
structure PanelUserInfo where
  id : Int64 := 0
  uuid : List UInt8 := []
  username : List UInt8 := []
  password : List UInt8 := []
  speedLimit : Int64 := 0
  deviceLimit : Int64 := 0
  label : List UInt8 := []
  secret : List UInt8 := []
  linkSecret : List UInt8 := []
  port : Int64 := 0
  cipher : List UInt8 := []
  enabled : Bool := false
  enabledSet : Bool := false
  maxConnections : Int64 := 0
  maxIPs : Int64 := 0
  quotaBytes : Int64 := 0
  expiresAt : Int64 := 0
  expiresOn : List UInt8 := []
  deriving DecidableEq, Repr

def utf8 (s : String) : List UInt8 := s.toByteArray.data.toList

def UserInfo.panel (user : UserInfo) : PanelUserInfo where
  id := user.id
  uuid := utf8 user.uuid
  username := utf8 user.username
  password := utf8 user.password
  speedLimit := user.speedLimit
  deviceLimit := user.deviceLimit
  label := utf8 user.label
  secret := utf8 user.secret
  linkSecret := utf8 user.linkSecret
  port := user.port
  cipher := utf8 user.cipher
  enabled := user.enabled
  enabledSet := user.enabledSet
  maxConnections := user.maxConnections
  maxIPs := user.maxIPs
  quotaBytes := user.quotaBytes
  expiresAt := user.expiresAt
  expiresOn := utf8 user.expiresOn

/-- `UserTraffic`; the amounts are sums of byte counts. -/
structure UserTraffic where
  uid : Int
  upload : Nat
  download : Nat
  deriving DecidableEq, Repr

/-- `ServerRoute`; `matchList` is its `Match`. -/
structure ServerRoute where
  id : Int
  matchList : List String
  action : String
  actionValue : Option String := none
  deriving DecidableEq, Repr

/-! ## Node types -/

def typeShadowsocks : String := "shadowsocks"
def typeVMess : String := "vmess"
def typeTrojan : String := "trojan"
def typeNaive : String := "naive"
def typeMieru : String := "mieru"
def typeHysteria : String := "hysteria"
def typeHysteria2 : String := "hysteria2"

def apiStyleUniProxy : String := "uniproxy"
def apiStyleDeepbwork : String := "deepbwork"
def apiStyleTrojanTidalab : String := "trojan_tidalab"
def apiStyleShadowsocksTidalab : String := "shadowsocks_tidalab"

def firstNonEmpty (values : List String) : String := (values.find? (· != "")).getD ""

def normalizeNodeType (nodeType : String) : String :=
  let lower := GoStrings.toLower (GoStrings.trimSpace nodeType)
  if lower == "v2ray" then "vmess"
  else if lower == "ss" then typeShadowsocks
  else if ["naiveproxy", "naive_proxy", "naive-proxy"].contains lower then typeNaive
  else if lower == apiStyleDeepbwork then typeVMess
  else if lower == apiStyleTrojanTidalab then typeTrojan
  else if lower == apiStyleShadowsocksTidalab then typeShadowsocks
  else lower

/-- The key a user has in the tracker of a node: what the inbound of that type
reports as the user of a connection. -/
def userTrackerKey (nodeType : String) (user : UserInfo) : String :=
  if [typeMieru, typeNaive].contains (normalizeNodeType nodeType) && user.username != "" then user.username
  else if user.uuid != "" then user.uuid
  else if user.label != "" then user.label
  else if 0 < user.id then "user-" ++ toString user.id.toInt
  else ""

end Singlink.V2Board
