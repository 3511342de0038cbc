import Singlink.Options.Netip
import Singlink.Srs.Items
/-!
# Files are read back

The rules of a logical rule are read back by induction over the tree, so a file of
a version that `Read` knows is read back whole. `Write` writes files of any
version.
-/

namespace Singlink.Srs

open Lib.Codec Options List Rule.RuleTree Writer

variable {Matcher AdGuardMatcher : Type}

/-! ## Trees -/

variable (x : Externals Matcher AdGuardMatcher)

theorem writeRules_eq (generateVersion : UInt8) (rules : List (HeadlessRule Matcher AdGuardMatcher)) :
    writeRules x generateVersion rules = .concat (rules.map (writeRule x generateVersion)) := by
  induction rules with
  | nil => rw [writeRules]; rfl
  | cons rule rules ih => rw [writeRules, ih]; rfl

theorem reads_logicalRule {r : Reader ReadError (HeadlessRule Matcher AdGuardMatcher)} (depth : Nat) (mode : Rule.LogicalMode)
    {invert : Bool} {rules : List (HeadlessRule Matcher AdGuardMatcher)} {n : Nat} {length inner last : Bytes}
    (hlength : Reads readUvarint length n) (hinner : Reads (readMany r n) inner rules)
    (hlast : Reads readBool last invert) :
    Reads (readLogicalRule depth r) (modeByte mode :: (length ++ (inner ++ last))) (.logical mode invert rules) := by
  have hinvert := hlast.map fun invert => (.logical mode invert rules : HeadlessRule Matcher AdGuardMatcher)
  refine .after_note (.byte ?_)
  cases mode with
  | and => exact (Reads.pure Rule.LogicalMode.and).bind (hlength.bind (.after_note (hinner.bind hinvert)))
  | or => exact (Reads.pure Rule.LogicalMode.or).bind (hlength.bind (.after_note (hinner.bind hinvert)))

variable {x : Externals Matcher AdGuardMatcher} {bytes : Bytes} {field : CIDRField} {value : List GoString}

theorem reads_rule (hx : x.Correct) (generateVersion : UInt8)
    (rule : HeadlessRule Matcher AdGuardMatcher) (h : writeRule x generateVersion rule = .ok bytes)
    {fuel : Nat} (hfuel : bytes.length ≤ fuel) (depth : Nat) :
    Reads (readRuleFrom x false fuel depth) bytes (rule.map (compile x generateVersion)) := by
  induction rule using induct generalizing bytes fuel depth with
  | default rule =>
    rw [writeRule] at h
    obtain ⟨_, content, ⟨⟩, hcontent, rfl⟩ := append_eq_ok.1 h
    obtain ⟨fuel, rfl⟩ := Nat.exists_eq_succ_of_ne_zero (Nat.ne_of_gt (Nat.lt_of_lt_of_le (Nat.zero_lt_succ _) hfuel))
    refine .byte ?_
    exact (roundTrip_defaultRule hx rule generateVersion content hcontent).map default
  | logical mode invert rules ih =>
    rw [writeRule, writeRules_eq] at h
    obtain ⟨_, content, ⟨⟩, hcontent, rfl⟩ := append_eq_ok.1 h
    obtain ⟨length, tail, hlength, htail, rfl⟩ := append_eq_ok.1 hcontent
    obtain ⟨inner, last, hinner, hlast, rfl⟩ := append_eq_ok.1 htail
    obtain ⟨fuel, rfl⟩ := Nat.exists_eq_succ_of_ne_zero (Nat.ne_of_gt (Nat.lt_of_lt_of_le (Nat.zero_lt_succ _) hfuel))
    have hinnerFuel : inner.length ≤ fuel := by
      simp only [length_append, length_cons] at hfuel
      omega
    have hrules := reads_many (fun t ht _ hbytes hsize => ih t ht hbytes hsize (depth + 1)) hinner hinnerFuel
    rw [Rule.RuleTree.map, Rule.RuleTree.mapAll_eq]
    refine .byte ?_
    have hlogical := reads_logicalRule (depth + 1) mode (roundTrip_uvarint _ length hlength) hrules
      (roundTrip_bool invert last hlast)
    exact hlogical

theorem roundTrip_rules (hx : x.Correct) (generateVersion : UInt8)
    (rules : List (HeadlessRule Matcher AdGuardMatcher)) :
    RoundTrip (.append (writeUvarint rules.length) (writeRules x generateVersion rules)) (readRules x false)
      (rules.map (map (compile x generateVersion))) := by
  rw [writeRules_eq]
  refine roundTrip_list rules fun rule _ bytes hbytes rest => ?_
  refine reads_rule hx generateVersion rule hbytes ?_ 0 rest
  rw [length_append]
  exact Nat.le_add_right _ _

/-! ## IP sets -/

theorem parseCIDRs_items {i : Nat} {items : List (Prefix ⊕ Addr)} (h : parseCIDRs x field value i = .ok items) :
    value.map (parseCIDR x) = items.map some := by
  induction value generalizing i items with
  | nil =>
    cases h
    rfl
  | cons s value ih =>
    rw [parseCIDRs] at h
    rw [map_cons, parseCIDR]
    cases hrest : parseCIDRs x field value (i + 1) with
    | error err =>
      rw [hrest] at h
      split at h <;> cases h
    | ok rest =>
      rw [hrest] at h
      rw [ih hrest]
      split at h
      · rename_i hcidr
        cases h
        rw [hcidr]
        rfl
      · rename_i hcidr haddr
        cases h
        rw [hcidr, haddr]
        rfl
      · cases h

theorem parseIPSet_eq_ok {set : IPSet} (h : parseIPSet x field value = .ok set) :
    ∃ items, parseCIDRs x field value 0 = .ok items ∧ x.buildIPSet items = some set := by
  unfold parseIPSet at h
  split at h
  · cases h
  · rename_i items hitems
    split at h
    · cases h
    · rename_i built hbuild
      cases h
      exact ⟨items, hitems, hbuild⟩

theorem contains_iff_of_parseIPSet (hx : x.Correct) {set : IPSet} (h : parseIPSet x field value = .ok set) (addr : Addr) :
    set.contains addr = true ↔ ∃ s ∈ value, ∃ item, parseCIDR x s = some item ∧ CIDRHas item addr := by
  obtain ⟨items, hitems, hbuild⟩ := parseIPSet_eq_ok h
  have hparsed := parseCIDRs_items hitems
  rw [hx.ipSet items set hbuild addr]
  constructor
  · rintro ⟨item, hitem, haddr⟩
    have hmem : some item ∈ value.map (parseCIDR x) := hparsed ▸ mem_map_of_mem hitem
    obtain ⟨s, hs, hparse⟩ := mem_map.1 hmem
    exact ⟨s, hs, item, hparse, haddr⟩
  · rintro ⟨s, hs, item, hparse, haddr⟩
    have hmem : some item ∈ items.map some := hparsed ▸ hparse ▸ mem_map_of_mem hs
    obtain ⟨item', hitem, hsome⟩ := mem_map.1 hmem
    cases hsome
    exact ⟨item, hitem, haddr⟩

theorem covers_ipSetOf (hx : x.Correct) {item : RuleItem}
    (h : when (!value.isEmpty) (writeRuleItemCIDR x item field value) = .ok bytes) :
    Covers x value (ipSetOf x field value) := by
  by_cases hempty : value.isEmpty = true
  · rw [ipSetOf, if_pos hempty]
    exact isEmpty_iff.1 hempty
  · rw [when, if_pos (by simpa using hempty), writeRuleItemCIDR] at h
    rw [ipSetOf, if_neg hempty]
    cases hset : parseIPSet x field value with
    | error err =>
      rw [hset] at h
      cases h
    | ok set => exact ⟨fun hnil => hempty (isEmpty_iff.2 hnil), contains_iff_of_parseIPSet hx hset⟩

theorem leaves_of_writeRule {generateVersion : UInt8}
    {rule : HeadlessRule Matcher AdGuardMatcher} (h : writeRule x generateVersion rule = .ok bytes) :
    rule.Leaves fun r => ∃ bytes, writeDefaultRule x r generateVersion = .ok bytes := by
  induction rule using induct generalizing bytes with
  | default rule =>
    exact .default ⟨bytes, h⟩
  | logical mode invert rules ih =>
    rw [writeRule, writeRules_eq] at h
    obtain ⟨_, content, -, hcontent, -⟩ := append_eq_ok.1 h
    obtain ⟨_, tail, -, htail, -⟩ := append_eq_ok.1 hcontent
    obtain ⟨inner, _, hinner, -, -⟩ := append_eq_ok.1 htail
    refine .logical fun t ht => ?_
    obtain ⟨part, hpart⟩ := ok_of_mem hinner (mem_map_of_mem ht)
    exact ih t ht hpart

/-- The IP sets of a default rule that is written cover its prefixes. -/
theorem covers_of_writeDefaultRule (hx : x.Correct) {generateVersion : UInt8}
    {rule : DefaultHeadlessRule Matcher AdGuardMatcher} (h : writeDefaultRule x rule generateVersion = .ok bytes) :
    Covers x rule.sourceIPCIDR (compile x generateVersion rule).sourceIPSet ∧
      Covers x rule.ipCIDR (compile x generateVersion rule).ipSet := by
  obtain ⟨_, content, -, hcontent, -⟩ := append_eq_ok.1 h
  obtain ⟨items, _, hitems, -, -⟩ := append_eq_ok.1 hcontent
  have hwritten : ∀ item ∈ writtenItems, ∃ part, writeRuleItem x rule generateVersion item = .ok part :=
    fun item hitem => ok_of_mem hitems (mem_map_of_mem hitem)
  obtain ⟨_, hsource⟩ := hwritten .sourceIPCIDR (by decide)
  obtain ⟨_, hip⟩ := hwritten .ipCIDR (by decide)
  exact ⟨covers_ipSetOf hx hsource, covers_ipSetOf hx hip⟩

/-! ## Files -/

theorem read_header (version : UInt8) (data : Bytes) :
    read x false (magicBytes ++ version :: data) =
      if version > ruleSetVersionCurrent then .error (.unsupportedVersion version)
      else do
        let data ← x.decompress data
        let (rules, _) ← (readRules x false : Reader ReadError _) data
        return ⟨version, rules⟩ := by
  have hmagic : readFull ReadError.eof 3 (magicBytes ++ version :: data) = .ok (magicBytes, version :: data) :=
    reads_full ReadError.eof magicBytes (version :: data)
  unfold read readHeader
  rw [hmagic]
  show ((if version > ruleSetVersionCurrent then _ else _ : Except _ _) >>= _) = _
  split <;> rfl

/-- A file of a version that `Read` knows is read back: the version, and the tree
of every rule with what its lists compile to, where the IP sets have the addresses
of the prefixes that were written. A file of a later version, which `Write` knows no
limit for, is refused. -/
theorem read_write {x : Externals Matcher AdGuardMatcher} (hx : x.Correct)
    {rules : List (HeadlessRule Matcher AdGuardMatcher)} {generateVersion : UInt8} {file : Bytes}
    (h : write x rules generateVersion = .ok file) :
    (generateVersion ≤ ruleSetVersionCurrent →
      read x false file = .ok ⟨generateVersion, rules.map (map (compile x generateVersion))⟩ ∧
        ∀ t ∈ rules, t.Leaves fun r => Covers x r.sourceIPCIDR (compile x generateVersion r).sourceIPSet ∧
          Covers x r.ipCIDR (compile x generateVersion r).ipSet) ∧
      (ruleSetVersionCurrent < generateVersion →
        read x false file = .error (.unsupportedVersion generateVersion)) := by
  unfold write at h
  split at h
  · cases h
  · rename_i data hdata
    cases h
    refine ⟨fun hversion => ⟨?_, ?_⟩, fun hversion => by rw [read_header, if_pos hversion]⟩
    · have hrules := roundTrip_rules hx generateVersion rules data hdata []
      rw [append_nil] at hrules
      rw [read_header, if_neg (UInt8.not_lt.2 hversion), hx.zlib]
      show ((readRules x false : Reader ReadError _) data >>= _) = _
      rw [hrules]
      rfl
    · intro t ht
      obtain ⟨_, inner, -, hinner, -⟩ := append_eq_ok.1 hdata
      rw [writeRules_eq] at hinner
      obtain ⟨part, hpart⟩ := ok_of_mem hinner (mem_map_of_mem ht)
      exact (leaves_of_writeRule hpart).mono fun r ⟨_, hr⟩ => covers_of_writeDefaultRule hx hr

/-! ## A sample -/

/-- A decimal number below 256, without zeros in front. -/
def parseOctet (s : GoString) : Option UInt8 :=
  let n := s.foldl (fun n c => 10 * n + (c.toNat - 48)) 0
  if s ≠ [] ∧ s.all (fun c => 48 ≤ c && c ≤ 57) ∧ (s.head? = some 48 → s.length = 1) ∧ n < 256 then some (UInt8.ofNat n)
  else none

/-- `netip.ParseAddr`, for IPv4. -/
def parseIPv4 (s : GoString) : Option Addr :=
  match (s.splitOn 46).mapM parseOctet with
  | some [a, b, c, d] => some (addrFromIP [a, b, c, d])
  | _ => none

/-- `netip.ParsePrefix`, for IPv4. -/
def parseIPv4Prefix (s : GoString) : Option Prefix :=
  match s.splitOn 47 with
  | [addr, bits] =>
    match parseIPv4 addr, parseOctet bits with
    | some addr, some bits => if bits ≤ 32 then some (.ofBits addr bits.toNat) else none
    | _, _ => none
  | _ => none

def ipv4Range : Prefix ⊕ Addr → Option IPRange
  | .inr (.v4 a) => some ⟨.v4 a, .v4 a⟩
  | .inl ⟨.v4 a, some n, h⟩ =>
    let p : Prefix := ⟨.v4 a, some n, h⟩
    some ⟨.v4 (BitVec.ofNat 32 p.first), .v4 (BitVec.ofNat 32 (p.first + p.size - 1))⟩
  | _ => none

theorem contains_ipv4Range {item : Prefix ⊕ Addr} {r : IPRange} (h : ipv4Range item = some r) (addr : Addr) :
    r.contains addr = true ↔ CIDRHas item addr := by
  unfold ipv4Range at h
  split at h
  · rename_i a
    cases h
    cases addr with
    | zero | v6 => simp [IPRange.contains, CIDRHas]
    | v4 c =>
      simp only [IPRange.contains, Bool.and_eq_true, decide_eq_true_eq, CIDRHas, Addr.v4.injEq]
      exact ⟨fun h => BitVec.le_antisymm h.1 h.2, fun h => h ▸ ⟨BitVec.le_refl a, BitVec.le_refl a⟩⟩
  · rename_i a n hvalid
    cases h
    have hend := Prefix.first_add_size_le ⟨.v4 a, some n, hvalid⟩
    have hpos := Prefix.size_pos ⟨.v4 a, some n, hvalid⟩
    rw [CIDRHas, Prefix.contains_iff]
    generalize Prefix.first ⟨.v4 a, some n, hvalid⟩ = first at *
    generalize Prefix.size ⟨.v4 a, some n, hvalid⟩ = size at *
    cases addr with
    | zero | v6 => simp [IPRange.contains, Addr.bitLen]
    | v4 c =>
      have hfirst : (BitVec.ofNat 32 first).toNat = first := by
        rw [BitVec.toNat_ofNat, Nat.mod_eq_of_lt]
        exact lt_of_lt_of_le (Nat.lt_add_of_pos_right hpos) hend
      have hlast : (BitVec.ofNat 32 (first + size - 1)).toNat = first + size - 1 := by
        rw [BitVec.toNat_ofNat, Nat.mod_eq_of_lt]
        exact lt_of_lt_of_le (Nat.sub_lt (Nat.add_pos_right first hpos) one_pos) hend
      simp only [IPRange.contains, Bool.and_eq_true, decide_eq_true_eq, BitVec.le_def, hfirst, hlast, Prefix.isValid,
        Option.isSome_some, Addr.bitLen, true_and, Addr.toNat]
      omega
  · cases h

/-- The parsers and the builder know IPv4, and nothing is compressed or matched. -/
def sampleExternals : Externals Unit Unit where
  compress data := data
  decompress data := .ok data
  newMatcher _ _ _ := ()
  writeMatcher _ := []
  readMatcher := pure ()
  dumpMatcher _ := ([], [])
  newAdGuardMatcher _ := ()
  writeAdGuardMatcher _ := []
  readAdGuardMatcher := pure ()
  dumpAdGuardMatcher _ := []
  parsePrefix := parseIPv4Prefix
  parseAddr := parseIPv4
  buildIPSet items := (items.mapM ipv4Range).map IPSet.mk
  prefixes _ := []

theorem sampleExternals_correct : sampleExternals.Correct where
  zlib _ := rfl
  matcher _ _ _ := .pure ()
  adGuardMatcher _ := .pure ()
  ipSet := by
    intro items set hset addr
    obtain ⟨rr, hrr, rfl⟩ := Option.map_eq_some_iff.1 hset
    clear hset
    show rr.any (·.contains addr) = true ↔ _
    induction items generalizing rr with
    | nil =>
      cases hrr
      simp
    | cons item items ih =>
      rw [mapM_cons] at hrr
      obtain ⟨r, hr, hrr⟩ := Option.bind_eq_some_iff.1 hrr
      obtain ⟨rr', hrr', hpure⟩ := Option.bind_eq_some_iff.1 hrr
      cases hpure
      rw [any_cons, Bool.or_eq_true, contains_ipv4Range hr, ih rr' hrr', exists_mem_cons_iff]

/-- "10.0.0.1" and "192.168.0.0/16" among the prefixes of a rule. -/
def sampleRules : List (HeadlessRule Unit Unit) :=
  [.logical .or true
    [.default
      { ipCIDR := [[0x31, 0x30, 0x2E, 0x30, 0x2E, 0x30, 0x2E, 0x31],
          [0x31, 0x39, 0x32, 0x2E, 0x31, 0x36, 0x38, 0x2E, 0x30, 0x2E, 0x30, 0x2F, 0x31, 0x36]]
        port := [80, 443] },
      .default { domain := [[97]], networkIsExpensive := true, invert := true }]]

theorem read_write_sample :
    (∃ file, write sampleExternals sampleRules 3 = .ok file ∧
      read sampleExternals false file = .ok ⟨3, sampleRules.map (map (compile sampleExternals 3))⟩ ∧
      ∀ t ∈ sampleRules, t.Leaves fun r =>
        Covers sampleExternals r.sourceIPCIDR (compile sampleExternals 3 r).sourceIPSet ∧
          Covers sampleExternals r.ipCIDR (compile sampleExternals 3 r).ipSet) ∧
    ∃ file, write sampleExternals sampleRules 200 = .ok file ∧
      read sampleExternals false file = .error (.unsupportedVersion 200) := by
  have hold : ∃ file, write sampleExternals sampleRules 3 = .ok file := ⟨_, rfl⟩
  have hnew : ∃ file, write sampleExternals sampleRules 200 = .ok file := ⟨_, rfl⟩
  obtain ⟨old, hold⟩ := hold
  obtain ⟨new, hnew⟩ := hnew
  exact ⟨⟨old, hold, (read_write sampleExternals_correct hold).1 (by decide)⟩,
    ⟨new, hnew, (read_write sampleExternals_correct hnew).2 (by decide)⟩⟩

/-- `Write` has no upper limit for the version, but `Read` has. -/
theorem read_refuses_newer : sampleExternals.Correct ∧ ∃ file, write sampleExternals sampleRules 6 = .ok file ∧
    read sampleExternals false file = .error (.unsupportedVersion 6) :=
  ⟨sampleExternals_correct, _, rfl, rfl⟩

end Singlink.Srs
