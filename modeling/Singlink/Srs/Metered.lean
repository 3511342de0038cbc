import Singlink.Srs.Binary
/-!
# What reading a rule set asks for

The readers of rules with the slices they make and the depth of `readLogicalRule`. A
slice is made as soon as its length is read. The file is decompressed as it is read, so
that what comes out of a broken stream is read before the error that ends it.
-/

namespace Singlink.Srs.Metered

open Lib Lib.Codec Lib.Metered Noting Options

variable {Matcher AdGuardMatcher : Type}

section

variable (x : Externals Matcher AdGuardMatcher) (recover : Bool)

/-- The end of the stream is found as `ending`. -/
def finish (version : UInt8) (ending : ReadError) :
    Except ReadError (List (HeadlessRule Matcher AdGuardMatcher)) × Meter →
      Except ReadError (PlainRuleSetCompat Matcher AdGuardMatcher) × List Demand
  | (.ok rules, m) => (.ok ⟨version, rules⟩, m.demands)
  | (.error .eof, m) => (.error ending, m.demands)
  | (.error err, m) => (.error err, m.demands)

/-- `Read`, with what it asks for. `inflate` gives what comes out of a stream and the
error that ends it, if the stream begins well. -/
def read (inflate : Bytes → Except ReadError (Bytes × ReadError)) (file : Bytes) :
    Except ReadError (PlainRuleSetCompat Matcher AdGuardMatcher) × List Demand :=
  match readHeader file with
  | .error err => (.error err, [])
  | .ok (version, file) =>
    match inflate file with
    | .error err => (.error err, [])
    | .ok (data, ending) => finish version ending ((readRules x recover : Metered ReadError _) { bytes := data })

end

/-! ## What the readers follow

The readers are those of `Singlink.Srs.Binary`, the demands aside. Those that succeed
have read a byte at least for every element of a slice. -/

variable {φ : Prop}

theorem follows_uvarint : Follows φ 1 (lift readUvarint) readUvarint := .lift fun _ => consumes_uvarint _ _

theorem follows_byte : Follows φ 1 (lift (readByte .eof)) (readByte ReadError.eof) := .lift fun _ => consumes_byte _

theorem follows_bool : Follows φ 1 (lift readBool) readBool := .lift fun _ => (consumes_byte _).map _

theorem follows_slice {α : Type} {r : Nat → Metered ReadError α} {r' : Nat → Reader ReadError α}
    (h : ∀ length, Follows φ length (r length) (r' length)) :
    Follows φ 1 (lift readUvarint >>= fun length => make length >>= fun _ => r length) (readUvarint >>= r') :=
  follows_uvarint.bind fun length => ((h length).after_make le_rfl).mono (Nat.zero_le length)

theorem follows_bytes : Follows φ 1 readBytes readBytes := follows_slice fun length => .lift fun _ => consumes_full _ length

theorem follows_strings : Follows φ 1 readRuleItemString readRuleItemString :=
  follows_slice fun length => (follows_bytes.many length).mono (mul_one length).ge

theorem follows_uint16s : Follows φ 1 readRuleItemUint16 readRuleItemUint16 :=
  follows_slice fun length => .lift fun _ => ((consumes_be _ 2).map _).many length |>.mono (by omega)

theorem follows_prefixes : Follows φ 1 readPrefixes readPrefixes := by
  have hprefix : Follows φ 0 readPrefix readPrefix :=
    (follows_bytes.bind fun _ => follows_byte.bind fun _ => .pure _).mono (Nat.zero_le _)
  exact follows_uvarint.bind fun prefixCount => hprefix.many prefixCount

theorem follows_ipRange : Follows φ 1 readIPRange readIPRange :=
  (follows_bytes.bind fun _ => follows_bytes.bind fun _ => .pure _).mono (Nat.le_add_right 1 _)

theorem follows_ipSet : Follows φ 1 readIPSet readIPSet := by
  refine follows_byte.bind fun version => (?_ : Follows φ 0 _ _)
  split
  · exact .lift fun _ => .throw 0 _
  · refine (Follows.bind (.lift fun _ => consumes_be _ 8) fun length => (?_ : Follows φ 0 _ _)).mono (Nat.zero_le _)
    have hranges : Follows φ length (readMany readIPRange length) _ := (follows_ipRange.many length).mono (mul_one length).ge
    exact ((hranges.bind fun _ => .pure _).after_make le_rfl).mono (Nat.zero_le _)

theorem follows_interfaceAddresses : Follows φ 1 readInterfaceAddresses readInterfaceAddresses := by
  refine follows_uvarint.bind fun size => (?_ : Follows φ 0 _ _)
  have hentries := (follows_byte.bind fun key => follows_prefixes.bind fun value => .pure (key, value)).many (φ := φ) size
  exact (hentries.mono (Nat.zero_le _)).bind fun _ => .pure _

/-- The readers of the matchers take bytes and give none back. -/
structure Forward (x : Externals Matcher AdGuardMatcher) : Prop where
  matcher : Consumes 0 x.readMatcher
  adGuardMatcher : Consumes 0 x.readAdGuardMatcher

variable (x : Externals Matcher AdGuardMatcher) (recover : Bool)

theorem follows_item (rule : DefaultHeadlessRule Matcher AdGuardMatcher) (item : RuleItem) :
    Follows (Forward x) 0 (readItem x recover rule item) (readItem x recover rule item) := by
  cases item with
  | queryType | sourcePort | port => exact (follows_uint16s.map _).mono (Nat.zero_le _)
  | network | domainKeyword | domainRegex | sourcePortRange | portRange | processName | processPath | processPathRegex
  | packageName | packageNameRegex | wifiSSID | wifiBSSID => exact (follows_strings.map _).mono (Nat.zero_le _)
  | sourceIPCIDR | ipCIDR => exact (follows_ipSet.map _).mono (Nat.zero_le _)
  | networkType => exact (follows_bytes.map _).mono (Nat.zero_le _)
  | networkInterfaceAddress => exact (follows_interfaceAddresses.map _).mono (Nat.zero_le _)
  | defaultInterfaceAddress => exact (follows_prefixes.map _).mono (Nat.zero_le _)
  | domain => exact .map (.lift Forward.matcher) _
  | adGuardDomain => exact .map (.lift Forward.adGuardMatcher) _
  | networkIsExpensive | networkIsConstrained => exact .pure _
  | final => exact (follows_bool.map _).mono (Nat.zero_le _)

theorem follows_items (fuel : Nat) (lastItemType : UInt8) (rule : DefaultHeadlessRule Matcher AdGuardMatcher) :
    Follows (Forward x) 0 (readItems x recover fuel lastItemType rule)
      (readItems x recover fuel lastItemType rule) := by
  induction fuel generalizing lastItemType rule with
  | zero => exact .lift fun _ => .throw 0 _
  | succ fuel ih =>
    refine (follows_byte.bind fun itemType => (?_ : Follows _ 0 _ _)).mono (Nat.zero_le _)
    cases RuleItem.ofByte itemType with
    | none => exact .lift fun _ => .throw 0 _
    | some item =>
      simp only
      split
      · exact follows_item x recover rule .final
      · exact (follows_item x recover rule item).bind fun rule => ih itemType rule

theorem follows_defaultRule : Follows (Forward x) 0 (readDefaultRule x recover) (readDefaultRule x recover) :=
  fun m => follows_items x recover m.bytes.length 0 {} m

theorem follows_ruleFrom (fuel depth : Nat) :
    Follows (Forward x) 1 (readRuleFrom x recover fuel depth) (readRuleFrom x recover fuel depth) := by
  induction fuel generalizing depth with
  | zero => exact .lift fun _ => .throw 1 _
  | succ fuel ih =>
    refine follows_byte.bind fun ruleType => (?_ : Follows _ 0 _ _)
    split
    · exact (follows_defaultRule x recover).map _
    · split
      · refine .after ((follows_byte.bind fun mode => (?_ : Follows _ 0 _ _)).mono (Nat.zero_le _)) nofun
        refine (Follows.lift fun _ => ?_).bind fun mode => (?_ : Follows _ 0 _ _)
        · split
          · exact .pure _
          · split
            · exact .pure _
            · exact .throw 0 _
        · refine (follows_uvarint.bind fun length => (?_ : Follows _ 0 _ _)).mono (Nat.zero_le _)
          have hrules := ((ih (depth + 1)).many length).mono (mul_one length).ge
          have hinvert : Follows (Forward x) 0 (lift readBool) readBool := follows_bool.mono (Nat.zero_le _)
          exact ((hrules.bind fun _ => hinvert.bind fun _ => .pure _).after_make le_rfl).mono (Nat.zero_le _)
      · exact .lift fun _ => .throw 0 _

theorem follows_rules : Follows (Forward x) 1 (readRules x recover) (readRules x recover) := by
  have hrule : Follows (Forward x) 1 (readRule x recover) (readRule x recover) :=
    fun m => follows_ruleFrom x recover m.bytes.length 0 m
  exact follows_slice fun length => (hrule.many length).mono (mul_one length).ge

end Singlink.Srs.Metered
