import Singlink.Lib.Metered
import Singlink.Options.Netip
/-!
# The binary format of rule sets

`common/srs/binary.go`, `ip_cidr.go` and `ip_set.go`. A file is a magic, a
version and the compressed rules. A default rule is a sequence of items, each
with its type in front, that ends with a final item; a logical rule has its rules
inside.

What the format takes from elsewhere is in `Externals`: zlib, the matchers of
`sing` with their own format, and the parsers and the IP set builder of `netip`
and `netipx`.
-/

namespace Singlink.Srs

open Lib Lib.Codec Noting Options

variable {Matcher AdGuardMatcher : Type} {m : Type → Type} [Noting ReadError m]

/-! ## Items and errors -/

inductive RuleItem where
  | queryType
  | network
  | domain
  | domainKeyword
  | domainRegex
  | sourceIPCIDR
  | ipCIDR
  | sourcePort
  | sourcePortRange
  | port
  | portRange
  | processName
  | processPath
  | packageName
  | wifiSSID
  | wifiBSSID
  | adGuardDomain
  | processPathRegex
  | networkType
  | networkIsExpensive
  | networkIsConstrained
  | networkInterfaceAddress
  | defaultInterfaceAddress
  | packageNameRegex
  | final
  deriving DecidableEq

namespace RuleItem

/-- All types in the order of their constants. -/
def all : List RuleItem :=
  [.queryType, .network, .domain, .domainKeyword, .domainRegex, .sourceIPCIDR, .ipCIDR, .sourcePort, .sourcePortRange,
    .port, .portRange, .processName, .processPath, .packageName, .wifiSSID, .wifiBSSID, .adGuardDomain,
    .processPathRegex, .networkType, .networkIsExpensive, .networkIsConstrained, .networkInterfaceAddress,
    .defaultInterfaceAddress, .packageNameRegex]

/-- The byte of a type: `final` is `0xFF`, the others count from 0. -/
def toByte (item : RuleItem) : UInt8 := if item = .final then 0xFF else UInt8.ofNat (all.idxOf item)

def ofByte (b : UInt8) : Option RuleItem := if b = 0xFF then some .final else all[b.toNat]?

theorem ofByte_toByte (item : RuleItem) : ofByte item.toByte = some item := by
  cases item <;> rfl

end RuleItem

inductive ReadError where
  | eof
  | overflow
  | invalidFile
  | unsupportedVersion (version : UInt8)
  | unknownRuleType (ruleType : UInt8)
  | unknownItemType (itemType lastType : UInt8)
  | unknownLogicalMode (mode : UInt8)
  | invalidIPSet
  | corrupt

/-- The list of prefixes that cannot be parsed. -/
inductive CIDRField where
  | sourceIPCIDR
  | ipCIDR

inductive WriteError where
  | length
  | parse (field : CIDRField) (index : Nat)
  | ipSet
  | unsupported (item : RuleItem) (since : Nat)

/-- Code the format uses. -/
structure Externals (Matcher AdGuardMatcher : Type) where
  compress : Bytes → Bytes
  decompress : Bytes → Except ReadError Bytes
  newMatcher : List GoString → List GoString → Bool → Matcher
  writeMatcher : Matcher → Bytes
  readMatcher : Reader ReadError Matcher
  dumpMatcher : Matcher → List GoString × List GoString
  newAdGuardMatcher : List GoString → AdGuardMatcher
  writeAdGuardMatcher : AdGuardMatcher → Bytes
  readAdGuardMatcher : Reader ReadError AdGuardMatcher
  dumpAdGuardMatcher : AdGuardMatcher → List GoString
  parsePrefix : GoString → Option Prefix
  parseAddr : GoString → Option Addr
  buildIPSet : List (Prefix ⊕ Addr) → Option IPSet
  prefixes : IPSet → List GoString

/-! ## Numbers, strings and addresses -/

def readUvarint : Reader ReadError Nat := Lib.Codec.readUvarint .eof .overflow

/-- `varbin.WriteUvarint` of a length, which is a `uint64`. -/
def writeUvarint (n : Nat) : Writer WriteError := if n < 2 ^ 64 then .ok (putUvarint n) else .error .length

def readBool : Reader ReadError Bool := (· != 0) <$> readByte .eof

def writeBool (b : Bool) : Writer WriteError := .ok [if b then 1 else 0]

/-- A length and as many bytes. -/
def readBytes : m Bytes := do
  let length ← lift readUvarint
  make length
  lift (readFull .eof length)

def writeBytes (bytes : Bytes) : Writer WriteError := (writeUvarint bytes.length).append (.ok bytes)

def readRuleItemString : m (List GoString) := do
  let length ← lift readUvarint
  make length
  readMany readBytes length

def writeStrings (value : List GoString) : Writer WriteError :=
  (writeUvarint value.length).append (.concat (value.map writeBytes))

def readRuleItemUint8 : m (List UInt8) := readBytes

def readRuleItemUint16 : m (List UInt16) := do
  let length ← lift readUvarint
  make length
  lift (readMany (UInt16.ofNat <$> readBE .eof 2) length)

def writeUint16s (value : List UInt16) : Writer WriteError :=
  (writeUvarint value.length).append (.concat (value.map fun v => .ok (beBytes 2 v.toNat)))

def readPrefix : m Prefix := do
  let addrSlice ← readBytes
  let prefixBits ← lift (readByte .eof)
  return .ofBits (addrFromIP addrSlice) prefixBits.toNat

/-- `uint8(prefix.Bits())`, where `Bits` is -1 for an invalid prefix. -/
def bitsByte (p : Prefix) : UInt8 :=
  match p.bits with
  | some n => UInt8.ofNat n
  | none => 255

def writePrefix (p : Prefix) : Writer WriteError := (writeBytes (asSlice p.addr)).append (.ok [bitsByte p])

/-- Prefixes are appended one by one. -/
def readPrefixes : m (List Prefix) := do
  let prefixCount ← lift readUvarint
  readMany readPrefix prefixCount

def writePrefixes (value : List Prefix) : Writer WriteError :=
  (writeUvarint value.length).append (.concat (value.map writePrefix))

/-! ## IP sets -/

def readIPRange : m IPRange := do
  let fromBytes ← readBytes
  let toBytes ← readBytes
  return ⟨addrFromIP fromBytes, addrFromIP toBytes⟩

def readIPSet : m IPSet := do
  let version ← lift (readByte .eof)
  if version ≠ 1 then lift (throw .invalidIPSet)
  else
    let length ← lift (readBE .eof 8)
    make length
    let rr ← readMany readIPRange length
    return ⟨rr⟩

def writeIPRange (r : IPRange) : Writer WriteError :=
  (writeBytes (asSlice r.first)).append (writeBytes (asSlice r.last))

def writeIPSet (set : IPSet) : Writer WriteError :=
  (if set.rr.length < 2 ^ 64 then .ok (1 :: beBytes 8 set.rr.length) else .error .length : Writer WriteError).append
    (.concat (set.rr.map writeIPRange))

/-! ## Reading rules -/

structure PlainRuleSetCompat (Matcher AdGuardMatcher : Type) where
  version : UInt8
  rules : List (HeadlessRule Matcher AdGuardMatcher)

/-- The map of an interface address item. -/
def readInterfaceAddresses : m (TypedMap InterfaceType (List Prefix)) := do
  let size ← lift readUvarint
  let entries ← readMany (do
    let key ← lift (readByte .eof)
    let value ← readPrefixes
    return (key, value)) size
  return entries.foldl (fun m e => m.put e.1 e.2) .empty

section

variable (x : Externals Matcher AdGuardMatcher) (recover : Bool)

/-- An item of `readDefaultRule`, after its type. -/
def readItem (rule : DefaultHeadlessRule Matcher AdGuardMatcher) :
    RuleItem → m (DefaultHeadlessRule Matcher AdGuardMatcher)
  | .queryType => (fun v => { rule with queryType := v }) <$> readRuleItemUint16
  | .network => (fun v => { rule with network := v }) <$> readRuleItemString
  | .domain => (fun matcher =>
      if recover then
        { rule with
          domainMatcher := some matcher
          domain := (x.dumpMatcher matcher).1
          domainSuffix := (x.dumpMatcher matcher).2 }
      else { rule with domainMatcher := some matcher }) <$> lift x.readMatcher
  | .domainKeyword => (fun v => { rule with domainKeyword := v }) <$> readRuleItemString
  | .domainRegex => (fun v => { rule with domainRegex := v }) <$> readRuleItemString
  | .sourceIPCIDR => (fun set =>
      if recover then { rule with sourceIPSet := some set, sourceIPCIDR := x.prefixes set }
      else { rule with sourceIPSet := some set }) <$> readIPSet
  | .ipCIDR => (fun set =>
      if recover then { rule with ipSet := some set, ipCIDR := x.prefixes set }
      else { rule with ipSet := some set }) <$> readIPSet
  | .sourcePort => (fun v => { rule with sourcePort := v }) <$> readRuleItemUint16
  | .sourcePortRange => (fun v => { rule with sourcePortRange := v }) <$> readRuleItemString
  | .port => (fun v => { rule with port := v }) <$> readRuleItemUint16
  | .portRange => (fun v => { rule with portRange := v }) <$> readRuleItemString
  | .processName => (fun v => { rule with processName := v }) <$> readRuleItemString
  | .processPath => (fun v => { rule with processPath := v }) <$> readRuleItemString
  | .processPathRegex => (fun v => { rule with processPathRegex := v }) <$> readRuleItemString
  | .packageName | .packageNameRegex => (fun _ => rule) <$> readRuleItemString
  | .wifiSSID => (fun v => { rule with wifiSSID := v }) <$> readRuleItemString
  | .wifiBSSID => (fun v => { rule with wifiBSSID := v }) <$> readRuleItemString
  | .adGuardDomain => (fun matcher =>
      if recover then
        { rule with adGuardDomainMatcher := some matcher, adGuardDomain := x.dumpAdGuardMatcher matcher }
      else { rule with adGuardDomainMatcher := some matcher }) <$> lift x.readAdGuardMatcher
  | .networkType => (fun v => { rule with networkType := v }) <$> readRuleItemUint8
  | .networkIsExpensive => pure { rule with networkIsExpensive := true }
  | .networkIsConstrained => pure { rule with networkIsConstrained := true }
  | .networkInterfaceAddress => (fun v => { rule with networkInterfaceAddress := v }) <$> readInterfaceAddresses
  | .defaultInterfaceAddress => (fun v => { rule with defaultInterfaceAddress := v }) <$> readPrefixes
  | .final => (fun v => { rule with invert := v }) <$> lift readBool

/-- The loop of `readDefaultRule`, for as many items as there are bytes. -/
def readItems : Nat → UInt8 → DefaultHeadlessRule Matcher AdGuardMatcher → m (DefaultHeadlessRule Matcher AdGuardMatcher)
  | 0, _, _ => lift (throw .eof)
  | fuel + 1, lastItemType, rule => do
    let itemType ← lift (readByte .eof)
    match RuleItem.ofByte itemType with
    | none => lift (throw (.unknownItemType itemType lastItemType))
    | some item =>
      if item = .final then readItem x recover rule .final
      else
        let rule ← readItem x recover rule item
        readItems fuel itemType rule

def readDefaultRule : m (DefaultHeadlessRule Matcher AdGuardMatcher) := do
  let bytes ← left
  readItems x recover bytes 0 {}

/-- `readLogicalRule`, inside of `depth` logical rules with this one. -/
def readLogicalRule (depth : Nat) (readRule : m (HeadlessRule Matcher AdGuardMatcher)) :
    m (HeadlessRule Matcher AdGuardMatcher) := do
  note fun _ => .nest depth
  let mode ← lift (readByte .eof)
  let mode ← lift (if mode = 0 then pure .and else if mode = 1 then pure .or else throw (.unknownLogicalMode mode) :
    Reader ReadError Rule.LogicalMode)
  let length ← lift readUvarint
  make length
  let rules ← readMany readRule length
  let invert ← lift readBool
  return .logical mode invert rules

/-- `readRule`. A rule takes up a byte at least, so rules are not nested deeper
than there are bytes. -/
def readRuleFrom : Nat → Nat → m (HeadlessRule Matcher AdGuardMatcher)
  | 0, _ => lift (throw .eof)
  | fuel + 1, depth => do
    let ruleType ← lift (readByte .eof)
    if ruleType = 0 then .default <$> readDefaultRule x recover
    else if ruleType = 1 then readLogicalRule (depth + 1) (readRuleFrom fuel (depth + 1))
    else lift (throw (.unknownRuleType ruleType))

def readRule : m (HeadlessRule Matcher AdGuardMatcher) := do
  let bytes ← left
  readRuleFrom x recover bytes 0

def magicBytes : Bytes := [0x53, 0x52, 0x53]

def ruleSetVersionCurrent : UInt8 := 5

/-- The rules of a file, after the compression. -/
def readRules : m (List (HeadlessRule Matcher AdGuardMatcher)) := do
  let length ← lift readUvarint
  make length
  readMany (readRule x recover) length

/-- The magic and the version of a file. -/
def readHeader (file : Bytes) : Except ReadError (UInt8 × Bytes) := do
  let (magic, file) ← readFull .eof 3 file
  if magic ≠ magicBytes then throw .invalidFile
  else
    let (version, file) ← readByte .eof file
    if version > ruleSetVersionCurrent then throw (.unsupportedVersion version)
    else return (version, file)

def read (file : Bytes) : Except ReadError (PlainRuleSetCompat Matcher AdGuardMatcher) := do
  let (version, file) ← readHeader file
  let data ← x.decompress file
  let (rules, _) ← (readRules x recover : Reader ReadError _) data
  return ⟨version, rules⟩

end

/-! ## Writing rules -/

section

variable (x : Externals Matcher AdGuardMatcher)

/-- An item: its type and its content. -/
def writeItem (item : RuleItem) (content : Writer WriteError) : Writer WriteError := .append (.ok [item.toByte]) content

/-- An item that there is since a version. -/
def since (version : Nat) (generateVersion : UInt8) (item : RuleItem) (w : Writer WriteError) : Writer WriteError :=
  if generateVersion.toNat < version then .error (.unsupported item version) else w

def writeRuleItemString (item : RuleItem) (value : List GoString) : Writer WriteError :=
  writeItem item (writeStrings value)

def writeRuleItemUint8 (item : RuleItem) (value : List UInt8) : Writer WriteError :=
  writeItem item (writeBytes value)

def writeRuleItemUint16 (item : RuleItem) (value : List UInt16) : Writer WriteError :=
  writeItem item (writeUint16s value)

/-- The loop of `writeRuleItemCIDR`, from string `i` on. -/
def parseCIDRs (field : CIDRField) : List GoString → Nat → Except WriteError (List (Prefix ⊕ Addr))
  | [], _ => .ok []
  | s :: value, i =>
    match x.parsePrefix s, x.parseAddr s with
    | some p, _ => (Sum.inl p :: ·) <$> parseCIDRs field value (i + 1)
    | none, some addr => (Sum.inr addr :: ·) <$> parseCIDRs field value (i + 1)
    | none, none => .error (.parse field i)

/-- The IP set of `writeRuleItemCIDR`. -/
def parseIPSet (field : CIDRField) (value : List GoString) : Except WriteError IPSet :=
  match parseCIDRs x field value 0 with
  | .error err => .error err
  | .ok items =>
    match x.buildIPSet items with
    | none => .error .ipSet
    | some set => .ok set

def writeRuleItemCIDR (item : RuleItem) (field : CIDRField) (value : List GoString) : Writer WriteError :=
  match parseIPSet x field value with
  | .error err => .error err
  | .ok set => writeItem item (writeIPSet set)

/-- The entries of an interface address item. -/
def writeInterfaceAddresses (m : TypedMap InterfaceType (List Prefix)) : Writer WriteError :=
  (writeUvarint m.entries.length).append
    (.concat (m.entries.map fun e => .append (.ok [e.1]) (writePrefixes e.2)))

/-- The types of items in the order they are written. -/
def writtenItems : List RuleItem :=
  [.queryType, .network, .domain, .domainKeyword, .domainRegex, .sourceIPCIDR, .ipCIDR, .sourcePort, .sourcePortRange,
    .port, .portRange, .processName, .processPath, .processPathRegex, .networkType, .networkIsExpensive,
    .networkIsConstrained, .networkInterfaceAddress, .defaultInterfaceAddress, .wifiSSID, .wifiBSSID, .adGuardDomain]

/-- An item of `writeDefaultRule`, if the rule has it. -/
def writeRuleItem (rule : DefaultHeadlessRule Matcher AdGuardMatcher) (generateVersion : UInt8) :
    RuleItem → Writer WriteError
  | .queryType => .when (!rule.queryType.isEmpty) (writeRuleItemUint16 .queryType rule.queryType)
  | .network => .when (!rule.network.isEmpty) (writeRuleItemString .network rule.network)
  | .domain => .when (!rule.domain.isEmpty || !rule.domainSuffix.isEmpty)
      (writeItem .domain (.ok (x.writeMatcher (x.newMatcher rule.domain rule.domainSuffix (generateVersion == 1)))))
  | .domainKeyword => .when (!rule.domainKeyword.isEmpty) (writeRuleItemString .domainKeyword rule.domainKeyword)
  | .domainRegex => .when (!rule.domainRegex.isEmpty) (writeRuleItemString .domainRegex rule.domainRegex)
  | .sourceIPCIDR => .when (!rule.sourceIPCIDR.isEmpty)
      (writeRuleItemCIDR x .sourceIPCIDR .sourceIPCIDR rule.sourceIPCIDR)
  | .ipCIDR => .when (!rule.ipCIDR.isEmpty) (writeRuleItemCIDR x .ipCIDR .ipCIDR rule.ipCIDR)
  | .sourcePort => .when (!rule.sourcePort.isEmpty) (writeRuleItemUint16 .sourcePort rule.sourcePort)
  | .sourcePortRange => .when (!rule.sourcePortRange.isEmpty)
      (writeRuleItemString .sourcePortRange rule.sourcePortRange)
  | .port => .when (!rule.port.isEmpty) (writeRuleItemUint16 .port rule.port)
  | .portRange => .when (!rule.portRange.isEmpty) (writeRuleItemString .portRange rule.portRange)
  | .processName => .when (!rule.processName.isEmpty) (writeRuleItemString .processName rule.processName)
  | .processPath => .when (!rule.processPath.isEmpty) (writeRuleItemString .processPath rule.processPath)
  | .processPathRegex => .when (!rule.processPathRegex.isEmpty)
      (writeRuleItemString .processPathRegex rule.processPathRegex)
  | .networkType => .when (!rule.networkType.isEmpty)
      (since 3 generateVersion .networkType (writeRuleItemUint8 .networkType rule.networkType))
  | .networkIsExpensive => .when rule.networkIsExpensive
      (since 3 generateVersion .networkIsExpensive (writeItem .networkIsExpensive (.ok [])))
  | .networkIsConstrained => .when rule.networkIsConstrained
      (since 3 generateVersion .networkIsConstrained (writeItem .networkIsConstrained (.ok [])))
  | .networkInterfaceAddress => .when (!rule.networkInterfaceAddress.entries.isEmpty)
      (since 4 generateVersion .networkInterfaceAddress
        (writeItem .networkInterfaceAddress (writeInterfaceAddresses rule.networkInterfaceAddress)))
  | .defaultInterfaceAddress => .when (!rule.defaultInterfaceAddress.isEmpty)
      (since 4 generateVersion .defaultInterfaceAddress
        (writeItem .defaultInterfaceAddress (writePrefixes rule.defaultInterfaceAddress)))
  | .wifiSSID => .when (!rule.wifiSSID.isEmpty) (writeRuleItemString .wifiSSID rule.wifiSSID)
  | .wifiBSSID => .when (!rule.wifiBSSID.isEmpty) (writeRuleItemString .wifiBSSID rule.wifiBSSID)
  | .adGuardDomain => .when (!rule.adGuardDomain.isEmpty)
      (since 2 generateVersion .adGuardDomain
        (writeItem .adGuardDomain (.ok (x.writeAdGuardMatcher (x.newAdGuardMatcher rule.adGuardDomain)))))
  | .packageName | .packageNameRegex | .final => .ok []

def writeDefaultRule (rule : DefaultHeadlessRule Matcher AdGuardMatcher) (generateVersion : UInt8) :
    Writer WriteError :=
  .append (.ok [0]) (.append (.concat (writtenItems.map (writeRuleItem x rule generateVersion)))
    (writeItem .final (writeBool rule.invert)))

def modeByte : Rule.LogicalMode → UInt8
  | .and => 0
  | .or => 1

mutual
/-- `writeRule`, with `writeLogicalRule` as its second case. -/
def writeRule (generateVersion : UInt8) : HeadlessRule Matcher AdGuardMatcher → Writer WriteError
  | .default rule => writeDefaultRule x rule generateVersion
  | .logical mode invert rules =>
    .append (.ok [1, modeByte mode]) (.append (writeUvarint rules.length)
      (.append (writeRules generateVersion rules) (writeBool invert)))

def writeRules (generateVersion : UInt8) : List (HeadlessRule Matcher AdGuardMatcher) → Writer WriteError
  | [] => .ok []
  | rule :: rules => .append (writeRule generateVersion rule) (writeRules generateVersion rules)
end

def write (rules : List (HeadlessRule Matcher AdGuardMatcher)) (generateVersion : UInt8) : Writer WriteError :=
  match Writer.append (writeUvarint rules.length) (writeRules x generateVersion rules) with
  | .error err => .error err
  | .ok data => .ok (magicBytes ++ generateVersion :: x.compress data)

end

end Singlink.Srs
