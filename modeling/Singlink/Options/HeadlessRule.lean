import Singlink.Route.Rule.Legacy
/-!
# The options of headless rules

`option.HeadlessRule`: what a rule set is written as, in JSON or in its binary
format, before rules are built from it. A field that is left out is an empty list or map.
The matchers of the `sing` domain package are only handed on, so they are
parameters.
-/

namespace Singlink.Options

open List

/-- A Go string, by its bytes. -/
abbrev GoString := List UInt8

/-- `netip.Addr` without a zone: prefixes and ranges hold no zones. -/
inductive Addr where
  | zero
  | v4 (addr : BitVec 32)
  | v6 (addr : BitVec 128)
  deriving DecidableEq

def Addr.bitLen : Addr → Nat
  | .zero => 0
  | .v4 _ => 32
  | .v6 _ => 128

/-- `netip.Prefix`; no bits if it is not valid. -/
structure Prefix where
  addr : Addr
  bits : Option Nat
  valid : ∀ n ∈ bits, addr ≠ .zero ∧ n ≤ addr.bitLen
  deriving DecidableEq

/-- `netip.PrefixFrom`. -/
def Prefix.ofBits (addr : Addr) (bits : Nat) : Prefix :=
  if h : addr ≠ .zero ∧ bits ≤ addr.bitLen then ⟨addr, some bits, fun n hn => by cases hn; exact h⟩
  else ⟨addr, none, nofun⟩

/-- The addresses of a prefix are those that start with its bits. -/
def Prefix.contains (p : Prefix) (addr : Addr) : Bool :=
  match p.addr, p.bits, addr with
  | .v4 a, some n, .v4 b => a >>> (32 - n) == b >>> (32 - n)
  | .v6 a, some n, .v6 b => a >>> (128 - n) == b >>> (128 - n)
  | _, _, _ => false

/-- A range of a `netipx.IPSet`, with both its ends. -/
structure IPRange where
  first : Addr
  last : Addr
  deriving DecidableEq

def IPRange.contains (r : IPRange) (addr : Addr) : Bool :=
  match r.first, r.last, addr with
  | .v4 a, .v4 b, .v4 c => a ≤ c && c ≤ b
  | .v6 a, .v6 b, .v6 c => a ≤ c && c ≤ b
  | _, _, _ => false

/-- `netipx.IPSet`: its ranges. -/
structure IPSet where
  rr : List IPRange
  deriving DecidableEq

def IPSet.contains (s : IPSet) (addr : Addr) : Bool := s.rr.any (·.contains addr)

abbrev InterfaceType := UInt8

/-- `badjson.TypedMap`: a map that keeps the order its keys were put in. -/
structure TypedMap (K V : Type) where
  entries : List (K × V)
  nodup : (entries.map Prod.fst).Nodup
  deriving DecidableEq

namespace TypedMap

variable {K V : Type}

theorem ext_entries {m m' : TypedMap K V} (h : m.entries = m'.entries) : m = m' := by
  cases m
  cases m'
  cases h
  rfl

def empty : TypedMap K V := ⟨[], List.nodup_nil⟩

/-- `Put`: a key that is there keeps its place. -/
def put [DecidableEq K] (m : TypedMap K V) (k : K) (v : V) : TypedMap K V :=
  if h : k ∈ m.entries.map Prod.fst then
    { entries := m.entries.map fun e => if e.1 = k then (k, v) else e
      nodup := by
        have hkeys : (m.entries.map fun e => if e.1 = k then (k, v) else e).map Prod.fst = m.entries.map Prod.fst := by
          rw [List.map_map]
          refine List.map_congr_left fun e _ => ?_
          by_cases he : e.1 = k
          · simp [he]
          · simp [he]
        rw [hkeys]
        exact m.nodup }
  else
    { entries := m.entries ++ [(k, v)]
      nodup := by
        rw [List.map_append, List.map_singleton]
        exact m.nodup.append (List.nodup_singleton k) (List.disjoint_singleton.2 h) }

theorem put_entries [DecidableEq K] {m : TypedMap K V} {k : K} (v : V) (h : k ∉ m.entries.map Prod.fst) :
    (m.put k v).entries = m.entries ++ [(k, v)] := by
  unfold put
  rw [dif_neg h]

theorem foldl_put [DecidableEq K] (m : TypedMap K V) : m.entries.foldl (fun m e => m.put e.1 e.2) .empty = m := by
  have hgen : ∀ (l : List (K × V)) (m : TypedMap K V), ((m.entries ++ l).map Prod.fst).Nodup →
      (l.foldl (fun m e => m.put e.1 e.2) m).entries = m.entries ++ l := by
    intro l
    induction l with
    | nil =>
      intro m _
      rw [foldl_nil, append_nil]
    | cons e l ih =>
      intro m hnodup
      have hnew : e.1 ∉ m.entries.map Prod.fst := by
        rw [map_append, nodup_append] at hnodup
        intro hmem
        exact hnodup.2.2 _ hmem _ (mem_map_of_mem mem_cons_self) rfl
      have hput := put_entries e.2 hnew
      rw [foldl_cons, ih, hput, append_assoc]
      · rfl
      · rw [hput, append_assoc]
        exact hnodup
  exact ext_entries (hgen m.entries .empty m.nodup)

end TypedMap

structure DefaultHeadlessRule (Matcher AdGuardMatcher : Type) where
  queryType : List UInt16 := []
  network : List GoString := []
  domain : List GoString := []
  domainSuffix : List GoString := []
  domainKeyword : List GoString := []
  domainRegex : List GoString := []
  sourceIPCIDR : List GoString := []
  ipCIDR : List GoString := []
  sourcePort : List UInt16 := []
  sourcePortRange : List GoString := []
  port : List UInt16 := []
  portRange : List GoString := []
  processName : List GoString := []
  processPath : List GoString := []
  processPathRegex : List GoString := []
  networkType : List InterfaceType := []
  networkIsExpensive : Bool := false
  networkIsConstrained : Bool := false
  wifiSSID : List GoString := []
  wifiBSSID : List GoString := []
  networkInterfaceAddress : TypedMap InterfaceType (List Prefix) := .empty
  defaultInterfaceAddress : List Prefix := []
  invert : Bool := false
  domainMatcher : Option Matcher := none
  sourceIPSet : Option IPSet := none
  ipSet : Option IPSet := none
  adGuardDomain : List GoString := []
  adGuardDomainMatcher : Option AdGuardMatcher := none
  deriving DecidableEq

/-- `HeadlessRule`: its logical rules have a mode, rules and `invert`. -/
abbrev HeadlessRule (Matcher AdGuardMatcher : Type) := Rule.RuleTree (DefaultHeadlessRule Matcher AdGuardMatcher)

variable {Matcher AdGuardMatcher : Type}

/-! ## Metadata of a rule set -/

structure RuleSetMetadata where
  containsProcessRule : Bool := false
  containsWIFIRule : Bool := false
  containsIPCIDRRule : Bool := false
  containsDNSQueryTypeRule : Bool := false
  containsNonIPCIDRRule : Bool := false
  deriving DecidableEq

namespace DefaultHeadlessRule

def isProcessHeadlessRule (rule : DefaultHeadlessRule Matcher AdGuardMatcher) : Bool :=
  !rule.processName.isEmpty || !rule.processPath.isEmpty || !rule.processPathRegex.isEmpty

def isWIFIHeadlessRule (rule : DefaultHeadlessRule Matcher AdGuardMatcher) : Bool :=
  !rule.wifiSSID.isEmpty || !rule.wifiBSSID.isEmpty

def isIPCIDRHeadlessRule (rule : DefaultHeadlessRule Matcher AdGuardMatcher) : Bool :=
  !rule.ipCIDR.isEmpty || rule.ipSet.isSome

def isDNSQueryTypeHeadlessRule (rule : DefaultHeadlessRule Matcher AdGuardMatcher) : Bool := !rule.queryType.isEmpty

def isNonIPCIDRHeadlessRule [DecidableEq Matcher] [DecidableEq AdGuardMatcher]
    (rule : DefaultHeadlessRule Matcher AdGuardMatcher) : Bool :=
  rule ≠ { ipCIDR := rule.ipCIDR, ipSet := rule.ipSet, invert := rule.invert }

end DefaultHeadlessRule

open DefaultHeadlessRule in
def buildRuleSetMetadata [DecidableEq Matcher] [DecidableEq AdGuardMatcher]
    (headlessRules : List (HeadlessRule Matcher AdGuardMatcher)) : RuleSetMetadata where
  containsProcessRule := Rule.RuleTree.hasSomeRule isProcessHeadlessRule headlessRules
  containsWIFIRule := Rule.RuleTree.hasSomeRule isWIFIHeadlessRule headlessRules
  containsIPCIDRRule := Rule.RuleTree.hasSomeRule isIPCIDRHeadlessRule headlessRules
  containsDNSQueryTypeRule := Rule.RuleTree.hasSomeRule isDNSQueryTypeHeadlessRule headlessRules
  containsNonIPCIDRRule := Rule.RuleTree.hasSomeRule isNonIPCIDRHeadlessRule headlessRules

end Singlink.Options
