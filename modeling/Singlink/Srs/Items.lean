import Singlink.Srs.Binary
/-!
# Default rules are read back

Every field of the format reads back as it was written, and the items of a default
rule rebuild it one field after the other. `compile` is the rule they rebuild: lists
of domains and prefixes are only written as what matches them.
-/

namespace Singlink.Srs

open Lib.Codec Options

variable {Matcher AdGuardMatcher : Type}

/-! ## Fields -/

theorem roundTrip_uvarint (n : Nat) : RoundTrip (writeUvarint n) readUvarint n := by
  intro bytes h
  unfold writeUvarint at h
  split at h
  · rename_i hn
    cases h
    exact reads_uvarint _ _ hn
  · cases h

theorem roundTrip_bool (b : Bool) : RoundTrip (writeBool b) readBool b := by
  rintro _ ⟨⟩ rest
  cases b <;> rfl

theorem roundTrip_bytes (value : Bytes) : RoundTrip (writeBytes value) readBytes value := by
  refine (roundTrip_uvarint value.length).bind ?_
  rintro _ ⟨⟩
  exact reads_full _ value

variable {α : Type}

theorem roundTrip_list {β : Type} {w : α → Writer WriteError} {r : Reader ReadError β} {f : α → β} (value : List α)
    (h : ∀ a ∈ value, RoundTrip (w a) r (f a)) :
    RoundTrip (.append (writeUvarint value.length) (.concat (value.map w)))
      (do let length ← readUvarint; readMany r length) (value.map f) :=
  (roundTrip_uvarint value.length).bind (roundTrip_many value h)

theorem roundTrip_strings (value : List GoString) : RoundTrip (writeStrings value) readRuleItemString value := by
  have h := roundTrip_list (f := id) value fun s _ => roundTrip_bytes s
  rw [List.map_id] at h
  exact h

theorem roundTrip_uint16s (value : List UInt16) : RoundTrip (writeUint16s value) readRuleItemUint16 value := by
  have hone : ∀ v ∈ value, RoundTrip (.ok (beBytes 2 v.toNat) : Writer WriteError)
      (UInt16.ofNat <$> readBE .eof 2 : Reader ReadError UInt16) (id v) := by
    rintro v - _ ⟨⟩
    have h := (reads_be ReadError.eof (k := 2) v.toNat_lt).map UInt16.ofNat
    rw [UInt16.ofNat_toNat] at h
    exact h
  have h := roundTrip_list value hone
  rw [List.map_id] at h
  exact h

/-! ## Addresses -/

theorem ofBits_bitsByte (p : Prefix) : Prefix.ofBits p.addr (bitsByte p).toNat = p := by
  have hlen : p.addr.bitLen ≤ 128 := by cases p.addr <;> simp [Addr.bitLen]
  rcases p with ⟨addr, _ | n, hvalid⟩
  · -- 255 is more than any address has
    have hlong : ¬ (addr ≠ .zero ∧ (255 : UInt8).toNat ≤ addr.bitLen) := by
      rintro ⟨-, h⟩
      have : (255 : UInt8).toNat = 255 := rfl
      simp only at hlen
      omega
    exact dif_neg hlong
  · have hn := hvalid n rfl
    simp only at hlen
    have hbyte : (UInt8.ofNat n).toNat = n := by
      rw [UInt8.toNat_ofNat']
      omega
    simp only [bitsByte, hbyte]
    exact dif_pos hn

theorem roundTrip_prefix (p : Prefix) : RoundTrip (writePrefix p) readPrefix p := by
  refine (roundTrip_bytes (asSlice p.addr)).bind ?_
  rintro _ ⟨⟩
  rw [addrFromIP_asSlice]
  refine .byte ?_
  rw [ofBits_bitsByte]
  exact .pure p

theorem roundTrip_prefixes (value : List Prefix) : RoundTrip (writePrefixes value) readPrefixes value := by
  have h := roundTrip_list (f := id) value fun p _ => roundTrip_prefix p
  rw [List.map_id] at h
  exact h

theorem roundTrip_ipRange (r : IPRange) : RoundTrip (writeIPRange r) readIPRange r := by
  refine (roundTrip_bytes (asSlice r.first)).bind ?_
  intro bytes hbytes
  have h := (roundTrip_bytes (asSlice r.last) bytes hbytes).map
    fun toBytes => (⟨addrFromIP (asSlice r.first), addrFromIP toBytes⟩ : IPRange)
  rw [addrFromIP_asSlice, addrFromIP_asSlice] at h
  rw [addrFromIP_asSlice]
  exact h

theorem roundTrip_ipSet (set : IPSet) : RoundTrip (writeIPSet set) readIPSet set := by
  intro bytes hbytes
  obtain ⟨header, ranges, hheader, hranges, rfl⟩ := Writer.append_eq_ok.1 hbytes
  split at hheader
  · rename_i hlen
    cases hheader
    have hmany := roundTrip_many (f := id) set.rr (fun r _ => roundTrip_ipRange r) ranges hranges
    rw [List.map_id] at hmany
    have hset := hmany.map IPSet.mk
    refine .byte ?_
    exact (reads_be _ hlen).bind hset
  · cases hheader

theorem roundTrip_interfaceAddresses (m : TypedMap InterfaceType (List Prefix)) :
    RoundTrip (writeInterfaceAddresses m) readInterfaceAddresses m := by
  have hentry : ∀ e ∈ m.entries, RoundTrip (.append (.ok [e.1]) (writePrefixes e.2) : Writer WriteError)
      (do let key ← readByte ReadError.eof; let value ← readPrefixes; return (key, value)) (id e) := by
    intro e _ bytes hbytes
    obtain ⟨_, value, ⟨⟩, hvalue, rfl⟩ := Writer.append_eq_ok.1 hbytes
    refine .byte ?_
    have h := (roundTrip_prefixes e.2 value hvalue).map fun v => (e.1, v)
    exact h
  refine (roundTrip_uvarint m.entries.length).bind ?_
  intro bytes hbytes
  have h := (roundTrip_many m.entries hentry bytes hbytes).map
    fun entries => entries.foldl (fun m e => m.put e.1 e.2) TypedMap.empty
  rw [List.map_id, TypedMap.foldl_put] at h
  exact h

/-! ## What a rule is read back as -/

/-- The addresses of an item of an IP set builder: those of a prefix, or one. -/
def CIDRHas (item : Prefix ⊕ Addr) (addr : Addr) : Prop :=
  match item with
  | .inl p => p.contains addr = true
  | .inr a => a = addr

/-- The externals do what they are for: the codecs read back what they write, and
an IP set has the addresses it was built from. -/
structure Externals.Correct (x : Externals Matcher AdGuardMatcher) : Prop where
  zlib : ∀ data, x.decompress (x.compress data) = .ok data
  matcher : ∀ domains suffixes legacy, Reads x.readMatcher (x.writeMatcher (x.newMatcher domains suffixes legacy))
    (x.newMatcher domains suffixes legacy)
  adGuardMatcher : ∀ domains, Reads x.readAdGuardMatcher (x.writeAdGuardMatcher (x.newAdGuardMatcher domains))
    (x.newAdGuardMatcher domains)
  ipSet : ∀ items set, x.buildIPSet items = some set →
    ∀ addr, set.contains addr = true ↔ ∃ item ∈ items, CIDRHas item addr

def ipSetOf (x : Externals Matcher AdGuardMatcher) (field : CIDRField) (value : List GoString) : Option IPSet :=
  if value.isEmpty then none
  else
    match parseIPSet x field value with
    | .error _ => none
    | .ok set => some set

/-- What a string stands for: a prefix, or else an address. -/
def parseCIDR (x : Externals Matcher AdGuardMatcher) (s : GoString) : Option (Prefix ⊕ Addr) :=
  (x.parsePrefix s).map .inl <|> (x.parseAddr s).map .inr

/-- The set has the addresses that the strings stand for, and there is none if
there are no strings. -/
def Covers (x : Externals Matcher AdGuardMatcher) (value : List GoString) : Option IPSet → Prop
  | none => value = []
  | some set => value ≠ [] ∧ ∀ addr, set.contains addr = true ↔
      ∃ s ∈ value, ∃ item, parseCIDR x s = some item ∧ CIDRHas item addr

/-- A rule as it is read back: lists of domains and prefixes are replaced by what
matches them. -/
def compile (x : Externals Matcher AdGuardMatcher) (generateVersion : UInt8)
    (rule : DefaultHeadlessRule Matcher AdGuardMatcher) : DefaultHeadlessRule Matcher AdGuardMatcher :=
  { rule with
    domain := [], domainSuffix := [], sourceIPCIDR := [], ipCIDR := [], adGuardDomain := []
    domainMatcher :=
      if !rule.domain.isEmpty || !rule.domainSuffix.isEmpty then
        some (x.newMatcher rule.domain rule.domainSuffix (generateVersion == 1))
      else none
    sourceIPSet := ipSetOf x .sourceIPCIDR rule.sourceIPCIDR
    ipSet := ipSetOf x .ipCIDR rule.ipCIDR
    adGuardDomainMatcher :=
      if !rule.adGuardDomain.isEmpty then some (x.newAdGuardMatcher rule.adGuardDomain) else none }

/-- The part of a rule that the items `done` hold. -/
def partialRule (rule : DefaultHeadlessRule Matcher AdGuardMatcher) (done : RuleItem → Bool) :
    DefaultHeadlessRule Matcher AdGuardMatcher where
  queryType := if done .queryType then rule.queryType else []
  network := if done .network then rule.network else []
  domainMatcher := if done .domain then rule.domainMatcher else none
  domainKeyword := if done .domainKeyword then rule.domainKeyword else []
  domainRegex := if done .domainRegex then rule.domainRegex else []
  sourceIPSet := if done .sourceIPCIDR then rule.sourceIPSet else none
  ipSet := if done .ipCIDR then rule.ipSet else none
  sourcePort := if done .sourcePort then rule.sourcePort else []
  sourcePortRange := if done .sourcePortRange then rule.sourcePortRange else []
  port := if done .port then rule.port else []
  portRange := if done .portRange then rule.portRange else []
  processName := if done .processName then rule.processName else []
  processPath := if done .processPath then rule.processPath else []
  processPathRegex := if done .processPathRegex then rule.processPathRegex else []
  networkType := if done .networkType then rule.networkType else []
  networkIsExpensive := if done .networkIsExpensive then rule.networkIsExpensive else false
  networkIsConstrained := if done .networkIsConstrained then rule.networkIsConstrained else false
  wifiSSID := if done .wifiSSID then rule.wifiSSID else []
  wifiBSSID := if done .wifiBSSID then rule.wifiBSSID else []
  networkInterfaceAddress := if done .networkInterfaceAddress then rule.networkInterfaceAddress else .empty
  defaultInterfaceAddress := if done .defaultInterfaceAddress then rule.defaultInterfaceAddress else []
  adGuardDomainMatcher := if done .adGuardDomain then rule.adGuardDomainMatcher else none

def mark (done : RuleItem → Bool) (item : RuleItem) : RuleItem → Bool := fun i => decide (i = item) || done i

/-! ## Items -/

section

variable {x : Externals Matcher AdGuardMatcher} {p q : DefaultHeadlessRule Matcher AdGuardMatcher}

/-- The bytes are items that lead from the rule `p` to the rule `q`. -/
inductive ItemsTo (x : Externals Matcher AdGuardMatcher) :
    DefaultHeadlessRule Matcher AdGuardMatcher → Bytes → DefaultHeadlessRule Matcher AdGuardMatcher → Prop
  | nil (p : DefaultHeadlessRule Matcher AdGuardMatcher) : ItemsTo x p [] p
  | cons {p p' q : DefaultHeadlessRule Matcher AdGuardMatcher} {item : RuleItem} {content bytes : Bytes} :
      item ≠ .final → Reads (readItem x false p item) content p' → ItemsTo x p' bytes q →
      ItemsTo x p (item.toByte :: (content ++ bytes)) q

theorem ItemsTo.append {r : DefaultHeadlessRule Matcher AdGuardMatcher} {bytes bytes' : Bytes} (h : ItemsTo x p bytes q)
    (h' : ItemsTo x q bytes' r) : ItemsTo x p (bytes ++ bytes') r := by
  induction h with
  | nil p => exact h'
  | cons hitem hread _ ih =>
    rw [List.cons_append, List.append_assoc]
    exact .cons hitem hread (ih h')

/-- The loop of `readDefaultRule` reads the items up to the final one, which has
`invert`. -/
theorem ItemsTo.reads {bytes : Bytes} (h : ItemsTo x p bytes q) {fuel : Nat} (hfuel : bytes.length < fuel)
    (lastItemType : UInt8) {final : Bytes} {invert : Bool}
    (hfinal : writeItem .final (writeBool invert) = .ok final) :
    Reads (readItems x false fuel lastItemType p) (bytes ++ final) { q with invert := invert } := by
  induction h generalizing fuel lastItemType with
  | nil p =>
    obtain ⟨fuel, rfl⟩ := Nat.exists_eq_succ_of_ne_zero (by omega : fuel ≠ 0)
    obtain ⟨_, content, ⟨⟩, hcontent, rfl⟩ := Writer.append_eq_ok.1 hfinal
    refine .byte ?_
    rw [RuleItem.ofByte_toByte]
    exact (roundTrip_bool invert content hcontent).map _
  | @cons p p' q item content bytes hitem hread _ ih =>
    obtain ⟨fuel, rfl⟩ := Nat.exists_eq_succ_of_ne_zero (by omega : fuel ≠ 0)
    rw [List.cons_append, List.append_assoc]
    refine Reads.byte ?_
    rw [RuleItem.ofByte_toByte]
    simp only [if_neg hitem]
    refine hread.bind (ih ?_ item.toByte)
    rw [List.length_cons, List.length_append] at hfuel
    omega

/-- What the writer writes are items that lead from `p` to `q`. -/
def Emits (x : Externals Matcher AdGuardMatcher) (w : Writer WriteError)
    (p q : DefaultHeadlessRule Matcher AdGuardMatcher) : Prop := ∀ bytes, w = .ok bytes → ItemsTo x p bytes q

variable {w : Writer WriteError} {item : RuleItem} {cond b : Bool}

theorem emits_item (hitem : item ≠ .final)
    (hw : RoundTrip w (readItem x false p item) q) : Emits x (writeItem item w) p q := by
  intro bytes hbytes
  obtain ⟨_, content, ⟨⟩, hcontent, rfl⟩ := Writer.append_eq_ok.1 hbytes
  have h := ItemsTo.cons hitem (hw content hcontent) (.nil q)
  rw [List.append_nil] at h
  exact h

theorem emits_when (hw : cond = true → Emits x w p q)
    (hskip : cond = false → p = q) : Emits x (.when cond w) p q := by
  intro bytes hbytes
  cases cond with
  | true => exact hw rfl bytes hbytes
  | false =>
    cases hbytes
    rw [hskip rfl]
    exact .nil q

/-- A version gate only keeps items from being written. -/
theorem emits_since {version : Nat} {generateVersion : UInt8}
    (hw : Emits x (.when cond w) p q) : Emits x (.when cond (since version generateVersion item w)) p q := by
  refine emits_when ?_ ?_
  · rintro rfl bytes hbytes
    unfold since at hbytes
    split at hbytes
    · cases hbytes
    · exact hw bytes hbytes
  · rintro rfl
    cases hw [] rfl
    rfl

theorem emits_concat {w : RuleItem → Writer WriteError} {rule : DefaultHeadlessRule Matcher AdGuardMatcher}
    (h : ∀ item done, Emits x (w item) (partialRule rule done) (partialRule rule (mark done item)))
    (items : List RuleItem) (done : RuleItem → Bool) :
    Emits x (.concat (items.map w)) (partialRule rule done) (partialRule rule (items.foldl mark done)) := by
  induction items generalizing done with
  | nil =>
    rintro _ ⟨⟩
    exact .nil _
  | cons item items ih =>
    intro bytes hbytes
    obtain ⟨first, rest, hfirst, hrest, rfl⟩ := Writer.append_eq_ok.1 hbytes
    exact (h item done first hfirst).append (ih (mark done item) rest hrest)

theorem emits_field {a d : α} {r : Reader ReadError α}
    (set : DefaultHeadlessRule Matcher AdGuardMatcher → α → DefaultHeadlessRule Matcher AdGuardMatcher)
    (hw : cond = true → RoundTrip w r a) (hskip : cond = false → a = d) (hitem : item ≠ .final := by decide)
    (hread : readItem x false p item = set p <$> r := by rfl) (hp : p = set p (if b then a else d) := by rfl)
    (hq : q = set p a := by rfl) : Emits x (.when cond (writeItem item w)) p q := by
  subst hq
  refine emits_when (fun hcond => emits_item hitem ?_) fun hcond => hp.trans ?_
  · rw [hread]
    exact (hw hcond).map (set p)
  · rw [hskip hcond, ite_self]

theorem emits_list {l : List α} {r : Reader ReadError (List α)}
    (set : DefaultHeadlessRule Matcher AdGuardMatcher → List α → DefaultHeadlessRule Matcher AdGuardMatcher)
    (hw : RoundTrip w r l) (hitem : item ≠ .final := by decide)
    (hread : readItem x false p item = set p <$> r := by rfl) (hp : p = set p (if b then l else []) := by rfl)
    (hq : q = set p l := by rfl) : Emits x (.when (!l.isEmpty) (writeItem item w)) p q :=
  emits_field set (fun _ => hw) (fun hempty => by simpa using hempty) hitem hread hp hq

theorem emits_flag
    (set : DefaultHeadlessRule Matcher AdGuardMatcher → Bool → DefaultHeadlessRule Matcher AdGuardMatcher)
    (hitem : item ≠ .final := by decide) (hread : readItem x false p item = (pure (set p true) : Reader ReadError _) := by rfl)
    (hp : p = set p (if b then cond else false) := by rfl) (hq : q = set p cond := by rfl) :
    Emits x (.when cond (writeItem item (.ok []))) p q := by
  refine emits_field set (fun hcond => ?_) id hitem (hread.trans (map_pure (set p) true).symm) hp hq
  rw [hcond]
  exact .pure true

theorem emits_option {r : Reader ReadError α}
    {a : α} (set : DefaultHeadlessRule Matcher AdGuardMatcher → Option α → DefaultHeadlessRule Matcher AdGuardMatcher)
    (hw : RoundTrip w r a) (hitem : item ≠ .final := by decide)
    (hread : readItem x false p item = (fun v => set p (some v)) <$> r := by rfl)
    (hp : p = set p (if b then if cond then some a else none else none) := by rfl)
    (hq : q = set p (if cond then some a else none) := by rfl) : Emits x (.when cond (writeItem item w)) p q := by
  refine emits_field set (fun hcond => ?_) (fun hcond => ?_) hitem (hread.trans (comp_map some (set p) r)) hp hq
  · rw [if_pos hcond]
    exact hw.map some
  · rw [hcond, if_neg Bool.false_ne_true]

theorem emits_cidr {value : List GoString} {field : CIDRField}
    (set : DefaultHeadlessRule Matcher AdGuardMatcher → Option IPSet → DefaultHeadlessRule Matcher AdGuardMatcher)
    (hitem : item ≠ .final := by decide)
    (hread : readItem x false p item = (fun v => set p (some v)) <$> (readIPSet : Reader ReadError _) := by rfl)
    (hp : p = set p (if b then ipSetOf x field value else none) := by rfl)
    (hq : q = set p (ipSetOf x field value) := by rfl) :
    Emits x (.when (!value.isEmpty) (writeRuleItemCIDR x item field value)) p q := by
  subst hq
  refine emits_when (fun hsome bytes hbytes => ?_) fun hempty => hp.trans ?_
  · have hvalue : ¬ value.isEmpty = true := by simpa using hsome
    unfold writeRuleItemCIDR at hbytes
    rw [ipSetOf, if_neg hvalue]
    cases hset : parseIPSet x field value with
    | error err =>
      rw [hset] at hbytes
      cases hbytes
    | ok s =>
      rw [hset] at hbytes
      refine emits_item hitem ?_ bytes hbytes
      rw [hread]
      exact (roundTrip_ipSet s).map fun v => set p (some v)
  · have hvalue : value.isEmpty = true := by simpa using hempty
    rw [ipSetOf, if_pos hvalue, ite_self]

end

variable {x : Externals Matcher AdGuardMatcher}

theorem emits_ruleItem (hx : x.Correct)
    (rule : DefaultHeadlessRule Matcher AdGuardMatcher) (generateVersion : UInt8) (item : RuleItem)
    (done : RuleItem → Bool) : Emits x (writeRuleItem x rule generateVersion item)
      (partialRule (compile x generateVersion rule) done)
      (partialRule (compile x generateVersion rule) (mark done item)) := by
  cases item with
  | queryType =>
    exact emits_list (fun p v => { p with queryType := v }) (roundTrip_uint16s _)
  | network =>
    exact emits_list (fun p v => { p with network := v }) (roundTrip_strings _)
  | domain =>
    have hmatcher := hx.matcher rule.domain rule.domainSuffix (generateVersion == 1)
    exact emits_option (fun p v => { p with domainMatcher := v })
      (fun _ h => by cases h; exact hmatcher)
  | domainKeyword =>
    exact emits_list (fun p v => { p with domainKeyword := v }) (roundTrip_strings _)
  | domainRegex =>
    exact emits_list (fun p v => { p with domainRegex := v }) (roundTrip_strings _)
  | sourceIPCIDR =>
    exact emits_cidr (fun p v => { p with sourceIPSet := v })
  | ipCIDR => exact emits_cidr (fun p v => { p with ipSet := v })
  | sourcePort =>
    exact emits_list (fun p v => { p with sourcePort := v }) (roundTrip_uint16s _)
  | sourcePortRange =>
    exact emits_list (fun p v => { p with sourcePortRange := v }) (roundTrip_strings _)
  | port =>
    exact emits_list (fun p v => { p with port := v }) (roundTrip_uint16s _)
  | portRange =>
    exact emits_list (fun p v => { p with portRange := v }) (roundTrip_strings _)
  | processName =>
    exact emits_list (fun p v => { p with processName := v }) (roundTrip_strings _)
  | processPath =>
    exact emits_list (fun p v => { p with processPath := v }) (roundTrip_strings _)
  | processPathRegex =>
    exact emits_list (fun p v => { p with processPathRegex := v }) (roundTrip_strings _)
  | networkType =>
    refine emits_since ?_
    exact emits_list (fun p v => { p with networkType := v }) (roundTrip_bytes _)
  | networkIsExpensive =>
    refine emits_since ?_
    exact emits_flag (fun p v => { p with networkIsExpensive := v })
  | networkIsConstrained =>
    refine emits_since ?_
    exact emits_flag (fun p v => { p with networkIsConstrained := v })
  | networkInterfaceAddress =>
    refine emits_since ?_
    exact emits_field (fun p v => { p with networkInterfaceAddress := v })
      (fun _ => roundTrip_interfaceAddresses _)
      (fun hempty => TypedMap.ext_entries (List.isEmpty_iff.1 (by simpa using hempty)))
  | defaultInterfaceAddress =>
    refine emits_since ?_
    exact emits_list (fun p v => { p with defaultInterfaceAddress := v })
      (roundTrip_prefixes _)
  | wifiSSID =>
    exact emits_list (fun p v => { p with wifiSSID := v }) (roundTrip_strings _)
  | wifiBSSID =>
    exact emits_list (fun p v => { p with wifiBSSID := v }) (roundTrip_strings _)
  | adGuardDomain =>
    have hmatcher := hx.adGuardMatcher rule.adGuardDomain
    refine emits_since ?_
    exact emits_option (fun p v => { p with adGuardDomainMatcher := v })
      (fun _ h => by cases h; exact hmatcher)
  | packageName | packageNameRegex | final =>
    rintro _ ⟨⟩
    exact .nil _

theorem roundTrip_defaultRule (hx : x.Correct)
    (rule : DefaultHeadlessRule Matcher AdGuardMatcher) (generateVersion : UInt8) :
    RoundTrip (.append (.concat (writtenItems.map (writeRuleItem x rule generateVersion)))
        (writeItem .final (writeBool rule.invert))) (readDefaultRule x false) (compile x generateVersion rule) := by
  intro bytes hbytes
  obtain ⟨items, final, hitems, hfinal, rfl⟩ := Writer.append_eq_ok.1 hbytes
  have hto := emits_concat (emits_ruleItem hx rule generateVersion) writtenItems (fun _ => false) items hitems
  intro rest
  refine hto.reads ?_ 0 hfinal rest
  cases hfinal
  rw [List.length_append, List.length_append]
  exact Nat.lt_of_lt_of_le (Nat.lt_add_of_pos_right (Nat.zero_lt_succ _)) (Nat.le_add_right _ _)

end Singlink.Srs
