import Singlink.Dns.SubnetValues
/-!
# `SetClientSubnet` on shared records

The client may be asked to send a message with its subnet, in an option of the
OPT record. The message is the caller's: records and options are pointers, and
`Extra` is a slice whose array may have room that others see. Here the function
runs on a heap of such objects. `message_setClientSubnet` says that it computes
`Dns.setClientSubnet` of the values, and that the caller's message keeps its
value.
-/

namespace Singlink.Dns

open List

/-! ## Objects -/

/-- What a `dns.EDNS0` points to. -/
inductive OptionObj where
  /-- `*dns.EDNS0_SUBNET` -/
  | subnet (family : UInt16) (sourceNetmask sourceScope : UInt8) (address : IP)
  | other (o : EDNS0) (h : o.code ≠ edns0Subnet)

def OptionObj.value : OptionObj → EDNS0
  | subnet family sourceNetmask sourceScope address =>
    { code := edns0Subnet, data := [(family >>> 8).toUInt8, family.toUInt8, sourceNetmask, sourceScope] ++ address }
  | other o _ => o

/-- What a `dns.RR` points to. -/
inductive RecordObj where
  /-- `*dns.OPT` -/
  | opt (name : String) (cls : UInt16) (ttl : UInt32) (option : List Nat)
  | other (r : RR) (h : r.isOPT = false)

def RecordObj.option : RecordObj → List Nat
  | opt _ _ _ option => option
  | other _ _ => []

def RecordObj.addOption (o : Nat) : RecordObj → RecordObj
  | opt name cls ttl option => opt name cls ttl (option ++ [o])
  | other r h => other r h

/-- The family is 1 for IPv4 and 2 for IPv6; the scope is left alone. -/
def OptionObj.assign (clientSubnet : Subnet) : OptionObj → OptionObj
  | subnet _ _ sourceScope _ =>
    subnet (if clientSubnet.addr.length = 4 then 1 else 2) clientSubnet.bits sourceScope clientSubnet.addr
  | other o h => other o h

/-- The first `len` slots of an array. -/
structure Slice where
  array : Nat
  len : Nat

/-- `dns.Msg`. Of its sections only `Extra` is looked into. -/
structure MsgObj extends MsgHdr where
  question : List Question
  answer : List RR
  ns : List RR
  extra : Slice

/-- A pointer is the position of what it points to in one of the lists. -/
structure Heap where
  options : List OptionObj
  records : List RecordObj
  arrays : List (List Nat)

namespace Heap

/-! ## Values -/

def option (h : Heap) (o : Nat) : Option EDNS0 := h.options[o]?.map OptionObj.value

def recordValue (h : Heap) : RecordObj → RR
  | .opt name cls ttl option => { name, cls, ttl, data := .opt (option.filterMap h.option) }
  | .other r _ => r

def record (h : Heap) (r : Nat) : Option RR := h.records[r]?.map h.recordValue

def array (h : Heap) (s : Slice) : List Nat := h.arrays[s.array]?.getD []

def slice (h : Heap) (s : Slice) : List Nat := (h.array s).take s.len

def message (h : Heap) (m : MsgObj) : Msg :=
  { m.toMsgHdr with
    question := m.question, answer := m.answer, ns := m.ns, extra := (h.slice m.extra).filterMap h.record }

/-! ## The code -/

/-- Appending to a slice writes to its array if there is room, else to a new array with some more room. -/
def append (spare : Nat → Nat) (h : Heap) (s : Slice) (r : Nat) : Heap × Slice :=
  if s.len < (h.array s).length then
    ({ h with arrays := h.arrays.set s.array ((h.array s).set s.len r) }, { s with len := s.len + 1 })
  else
    ({ h with arrays := h.arrays ++ [h.slice s ++ r :: List.replicate (spare s.len) 0] },
      { array := h.arrays.length, len := s.len + 1 })

/-- The copies of an OPT record and of its options, or of another record. -/
def copyRecord (h : Heap) : RecordObj → Heap
  | .opt name cls ttl option =>
    let copies := option.filterMap (h.options[·]?)
    { h with
      options := h.options ++ copies
      records := h.records ++ [.opt name cls ttl (List.range' h.options.length copies.length)] }
  | .other r hr => { h with records := h.records ++ [.other r hr] }

def copyRecords : Heap → List Nat → Heap × List Nat
  | h, [] => (h, [])
  | h, r :: rs =>
    match h.records[r]? with
    | some record =>
      let (h', rs') := copyRecords (h.copyRecord record) rs
      (h', h.records.length :: rs')
    | none => copyRecords h rs

def copy (h : Heap) (m : MsgObj) : Heap × MsgObj :=
  let (h', rs) := h.copyRecords (h.slice m.extra)
  ({ h' with arrays := h'.arrays ++ [rs] }, { m with extra := { array := h'.arrays.length, len := rs.length } })

/-- The inner loop of `findExists`: what it leaves in `subnetOption`, and whether it breaks off. -/
def findSubnet (h : Heap) : Option Nat → List Nat → Option Nat × Bool
  | subnetOption, [] => (subnetOption, false)
  | _, o :: os =>
    match h.options[o]? with
    | some (.subnet _ _ _ _) => (some o, true)
    | _ => h.findSubnet none os

/-- The loop `findExists`: what it leaves in `optRecord` and in `subnetOption`. A record that is not an OPT record
leaves nil. -/
def findExists (h : Heap) : Option Nat → Option Nat → List Nat → Option Nat × Option Nat
  | optRecord, subnetOption, [] => (optRecord, subnetOption)
  | _, subnetOption, r :: rs =>
    match h.records[r]? with
    | some (.opt _ _ _ option) =>
      match h.findSubnet subnetOption option with
      | (subnetOption, true) => (some r, subnetOption)
      | (subnetOption, false) => h.findExists (some r) subnetOption rs
    | _ => h.findExists none subnetOption rs

/-- `exMessage`, with a new OPT record. -/
def newOPT (spare : Nat → Nat) (h : Heap) (m : MsgObj) : Heap × MsgObj × Nat :=
  let optRecord := h.records.length
  let h : Heap := { h with records := h.records ++ [.opt "." 0 0 []] }
  let (h, extra) := h.append spare m.extra optRecord
  (h, { m with extra }, optRecord)

/-- `subnetOption`, or a new one in the OPT record. -/
def subnetOptionOf (h : Heap) (optRecord : Nat) : Option Nat → Heap × Nat
  | some o => (h, o)
  | none =>
    ({ h with
        options := h.options ++ [.subnet 0 0 0 []]
        records := h.records.modify optRecord (·.addOption h.options.length) }, h.options.length)

/-- The end of `setClientSubnet`. -/
def assign (h : Heap) (subnet : Subnet) (o : Nat) : Heap := { h with options := h.options.modify o (·.assign subnet) }

def setOption (h : Heap) (subnet : Subnet) (optRecord : Nat) (subnetOption : Option Nat) : Heap :=
  let (h, o) := h.subnetOptionOf optRecord subnetOption
  h.assign subnet o

section
variable (spare : Nat → Nat) (subnet : Subnet)

/-- `setClientSubnet`, where `clone` is the call of itself that it makes on a copy. -/
def setClientSubnetWith (clone : Option (Heap → MsgObj → Heap × MsgObj)) (h : Heap) (m : MsgObj) : Heap × MsgObj :=
  match h.findExists none none (h.slice m.extra) with
  | (none, subnetOption) =>
    let (h, m, optRecord) := h.newOPT spare m
    (h.setOption subnet optRecord subnetOption, m)
  | (some optRecord, subnetOption) =>
    match clone with
    | some again =>
      let (h, m) := h.copy m
      again h m
    | none => (h.setOption subnet optRecord subnetOption, m)

def setClientSubnet : Heap → MsgObj → Heap × MsgObj :=
  setClientSubnetWith spare subnet (some (setClientSubnetWith spare subnet none))

end

/-! ## What stays as it was -/

/-- Options named by records exist. -/
def Closed (h : Heap) : Prop := ∀ record ∈ h.records, ∀ o ∈ record.option, o < h.options.length

/-- A message whose pointers are valid. -/
structure Valid (h : Heap) (m : MsgObj) : Prop where
  closed : h.Closed
  len : m.extra.len ≤ (h.array m.extra).length
  records : ∀ r ∈ h.slice m.extra, r < h.records.length

/-- The objects of the first heap have not changed. -/
structure Agrees (h h' : Heap) : Prop where
  options : ∀ o < h.options.length, h'.options[o]? = h.options[o]?
  records : ∀ r < h.records.length, h'.records[r]? = h.records[r]?

variable {h h' : Heap} {r : Nat} {m : MsgObj} {optRecord : Nat} {os : List Nat} {o : Nat}

theorem Agrees.option_eq (ha : Agrees h h') (ho : o < h.options.length) : h'.option o = h.option o := by
  rw [option, option, ha.options o ho]

variable {record : RecordObj}

theorem recordValue_congr (ho : ∀ o ∈ record.option, h'.option o = h.option o) :
    h'.recordValue record = h.recordValue record := by
  cases record with
  | opt name cls ttl option =>
    simp only [recordValue, RR.mk.injEq, RData.opt.injEq, true_and]
    exact filterMap_congr ho
  | other r hr => rfl

theorem Agrees.record_eq (ha : Agrees h h') (hc : h.Closed) (hr : r < h.records.length) :
    h'.record r = h.record r := by
  rw [record, record, ha.records r hr, getElem?_eq_getElem hr]
  simp only [Option.map_some, Option.some.injEq]
  apply recordValue_congr
  intro o ho
  exact ha.option_eq (hc _ (getElem_mem hr) o ho)

theorem Agrees.message_eq (ha : Agrees h h') (hm : h.Valid m)
    (hs : h'.slice m.extra = h.slice m.extra) : h'.message m = h.message m := by
  have hextra : (h'.slice m.extra).filterMap h'.record = (h.slice m.extra).filterMap h.record := by
    rw [hs]
    apply filterMap_congr
    intro r hr
    exact ha.record_eq hm.closed (hm.records r hr)
  simp only [message, hextra]

theorem agrees_of_append (hoptions : h.options <+: h'.options) (hrecords : h.records <+: h'.records) :
    Agrees h h' := by
  constructor
  · intro o ho
    obtain ⟨rest, hrest⟩ := hoptions
    rw [← hrest, getElem?_append_left ho]
  · intro r hr
    obtain ⟨rest, hrest⟩ := hrecords
    rw [← hrest, getElem?_append_left hr]

theorem Agrees.setOption {h₀ : Heap} (ha : Agrees h₀ h) (hle : h₀.options.length ≤ h.options.length) (subnet : Subnet)
    {subnetOption : Option Nat} (hr : h₀.records.length ≤ optRecord)
    (ho : ∀ o ∈ subnetOption, h₀.options.length ≤ o) : Agrees h₀ (h.setOption subnet optRecord subnetOption) := by
  cases subnetOption with
  | some o =>
    have ho := ho o rfl
    refine ⟨?_, ha.records⟩
    intro i hi
    simp only [Heap.setOption, subnetOptionOf, assign]
    rw [getElem?_modify_ne _ _ (by omega), ha.options i hi]
  | none =>
    simp only [Heap.setOption, subnetOptionOf, assign]
    constructor
    · intro i hi
      rw [getElem?_modify_ne _ _ (by omega), getElem?_append_left (by omega), ha.options i hi]
    · intro i hi
      rw [getElem?_modify_ne _ _ (by omega), ha.records i hi]

/-! ## What the loops find -/

def isOPT (h : Heap) (r : Nat) : Bool :=
  match h.records[r]? with
  | some (.opt _ _ _ _) => true
  | _ => false

def Other (h : Heap) (o : Nat) : Prop := ∀ v ∈ h.option o, v.code ≠ edns0Subnet

def WithoutSubnet (h : Heap) (r : Nat) : Prop := ∀ v ∈ h.record r, v.hasSubnet = false

/-- The first subnet option, and the record that it is in. -/
inductive Found (h : Heap) : List Nat → Nat → Nat → Prop
  | intro {pre post os os' : List Nat} {r o : Nat} {name : String} {cls : UInt16} {ttl : UInt32} {family : UInt16}
      {sourceNetmask sourceScope : UInt8} {address : IP}
      (hpre : ∀ r' ∈ pre, h.WithoutSubnet r') (hrecord : h.records[r]? = some (.opt name cls ttl (os ++ o :: os')))
      (hos : ∀ o' ∈ os, h.Other o')
      (hoption : h.options[o]? = some (.subnet family sourceNetmask sourceScope address)) :
      Found h (pre ++ r :: post) r o

/-- What the inner loop leaves. -/
inductive SubnetSearch (h : Heap) : List Nat → Option Nat × Bool → Prop
  | found {os os' : List Nat} {o : Nat} {family : UInt16} {sourceNetmask sourceScope : UInt8} {address : IP}
      (hos : ∀ o' ∈ os, h.Other o')
      (hoption : h.options[o]? = some (.subnet family sourceNetmask sourceScope address)) :
      SubnetSearch h (os ++ o :: os') (some o, true)
  | missing {os : List Nat} (hos : ∀ o ∈ os, h.Other o) : SubnetSearch h os (none, false)

theorem SubnetSearch.skip {result : Option Nat × Bool} (ho : h.Other o)
    (hs : SubnetSearch h os result) : SubnetSearch h (o :: os) result := by
  cases hs with
  | found hos hoption =>
    rw [← cons_append]
    exact .found (by simpa using ⟨ho, hos⟩) hoption
  | missing hos => exact .missing (by simpa using ⟨ho, hos⟩)

theorem findSubnet_spec (h : Heap) (os : List Nat) : SubnetSearch h os (h.findSubnet none os) := by
  induction os with
  | nil => exact .missing (by simp)
  | cons o os ih =>
    rw [findSubnet]
    cases ho : h.options[o]? with
    | none => exact ih.skip (by simp [Other, option, ho])
    | some obj =>
      cases obj with
      | subnet family sourceNetmask sourceScope address =>
        rw [← nil_append (o :: os)]
        exact .found (by simp) ho
      | other v hv => exact ih.skip (by simp [Other, option, ho, OptionObj.value, hv])

theorem withoutSubnet_of_not_isOPT (hr : h.isOPT r = false) : h.WithoutSubnet r := by
  intro v hv
  simp only [record, Option.mem_def, Option.map_eq_some_iff] at hv
  obtain ⟨obj, hobj, rfl⟩ := hv
  cases obj with
  | opt name cls ttl option => simp [isOPT, hobj] at hr
  | other v hv =>
    simp only [recordValue, RR.hasSubnet]
    split
    · rename_i hdata
      simp [RR.isOPT, hdata] at hv
    · rfl

theorem withoutSubnet_of_others {name : String} {cls : UInt16} {ttl : UInt32} {option : List Nat}
    (hr : h.records[r]? = some (.opt name cls ttl option)) (ho : ∀ o ∈ option, h.Other o) : h.WithoutSubnet r := by
  intro v hv
  simp only [record, hr, Option.map_some, Option.mem_def, Option.some.injEq] at hv
  rw [← hv]
  simp only [recordValue, RR.hasSubnet, any_eq_false, mem_filterMap, beq_iff_eq]
  rintro x ⟨o, hmem, hx⟩
  exact ho o hmem x hx

/-- What the outer loop leaves: the first subnet option, or the last record if that is an OPT record. -/
inductive RecordSearch (h : Heap) (optRecord : Option Nat) : List Nat → Option Nat × Option Nat → Prop
  | found {rs : List Nat} {r o : Nat} (hfound : h.Found rs r o) : RecordSearch h optRecord rs (some r, some o)
  | missing {rs : List Nat} (hrs : ∀ r ∈ rs, h.WithoutSubnet r) :
      RecordSearch h optRecord rs (rs.getLast?.elim optRecord fun r => if h.isOPT r then some r else none, none)

variable {rs : List Nat}

theorem RecordSearch.skip {optRecord : Option Nat} {result : Option Nat × Option Nat} (hr : h.WithoutSubnet r)
    (hs : RecordSearch h (if h.isOPT r then some r else none) rs result) : RecordSearch h optRecord (r :: rs) result := by
  cases hs with
  | found hfound =>
    cases hfound with
    | intro hpre hrecord hos hoption =>
      rw [← cons_append]
      exact .found (.intro (by simpa using ⟨hr, hpre⟩) hrecord hos hoption)
  | missing hrs =>
    have hlast : rs.getLast?.elim (if h.isOPT r then some r else none) (fun r => if h.isOPT r then some r else none) =
        (r :: rs).getLast?.elim optRecord fun r => if h.isOPT r then some r else none := by
      cases rs with
      | nil => simp
      | cons r' rs => simp [getLast?_cons]
    rw [hlast]
    exact .missing (by simpa using ⟨hr, hrs⟩)

theorem isOPT_iff : h.isOPT r = true ↔ ∃ name cls ttl option, h.records[r]? = some (.opt name cls ttl option) := by
  cases hr : h.records[r]? with
  | none => simp [isOPT, hr]
  | some obj => cases obj <;> simp [isOPT, hr]

theorem findExists_spec (h : Heap) (optRecord : Option Nat) (rs : List Nat) :
    RecordSearch h optRecord rs (h.findExists optRecord none rs) := by
  induction rs generalizing optRecord with
  | nil => exact .missing (by simp)
  | cons r rs ih =>
    cases hopt : h.isOPT r with
    | false =>
      have hnext : h.findExists optRecord none (r :: rs) = h.findExists none none rs := by
        rw [findExists]
        split
        · rename_i hrecord
          simp [isOPT, hrecord] at hopt
        · rfl
      rw [hnext]
      apply RecordSearch.skip (withoutSubnet_of_not_isOPT hopt)
      simpa [hopt] using ih none
    | true =>
      obtain ⟨name, cls, ttl, option, hrecord⟩ := isOPT_iff.1 hopt
      simp only [findExists, hrecord]
      have hsearch := findSubnet_spec h option
      generalize h.findSubnet none option = result at hsearch ⊢
      cases hsearch with
      | found hos hoption =>
        rw [← nil_append (r :: rs)]
        exact .found (.intro (by simp) hrecord hos hoption)
      | missing hos =>
        apply RecordSearch.skip (withoutSubnet_of_others hrecord hos)
        simpa [hopt] using ih (some r)

/-! ## Copies -/

def optionsOf (h : Heap) (r : Nat) : List Nat := h.records[r]?.elim [] RecordObj.option

/-- No record and no option is there twice. -/
structure Owned (h : Heap) (rs : List Nat) : Prop where
  records : rs.Nodup
  options : (rs.flatMap h.optionsOf).Nodup

theorem filterMap_range'_append {α : Type} (old new : List α) :
    (range' old.length new.length).filterMap ((old ++ new)[·]?) = new := by
  induction new generalizing old with
  | nil => rfl
  | cons a new ih =>
    have htail := ih (old ++ [a])
    simp only [length_append, length_singleton, append_assoc, singleton_append] at htail
    simp [range'_succ, htail]

/-- What one copy adds: a record at the end, whose options are the ones added. -/
structure CopiesTo (h : Heap) (record : RecordObj) (h' : Heap) : Prop where
  arrays : h'.arrays = h.arrays
  options : h.options <+: h'.options
  records : ∃ record', h'.records = h.records ++ [record'] ∧
    record'.option = List.range' h.options.length (h'.options.length - h.options.length) ∧
    h'.recordValue record' = h.recordValue record

attribute [local simp] RecordObj.option filterMap_append

theorem copiesTo_copyRecord (h : Heap) (record : RecordObj) : CopiesTo h record (h.copyRecord record) := by
  cases record with
  | opt name cls ttl option =>
    refine ⟨rfl, prefix_append _ _, _, rfl, ?_, ?_⟩
    · simp [copyRecord]
    · simp only [recordValue, copyRecord, RR.mk.injEq, RData.opt.injEq, true_and]
      -- the copies, read back from where they were put
      have hcopies := filterMap_range'_append h.options (option.filterMap (h.options[·]?))
      have hmap := congrArg (map OptionObj.value) hcopies
      rw [map_filterMap, map_filterMap] at hmap
      exact hmap
  | other r hr => exact ⟨rfl, prefix_rfl, _, rfl, by simp [copyRecord], rfl⟩

theorem CopiesTo.agrees (hcopy : CopiesTo h record h') : Agrees h h' := by
  obtain ⟨record', hrecords, -, -⟩ := hcopy.records
  exact agrees_of_append hcopy.options (hrecords ▸ prefix_append _ _)

theorem CopiesTo.closed (hcopy : CopiesTo h record h') (hc : h.Closed) : h'.Closed := by
  have hle := hcopy.options.length_le
  obtain ⟨record', hrecords, hoption, -⟩ := hcopy.records
  intro rec hrec o ho
  rw [hrecords, mem_append, mem_singleton] at hrec
  rcases hrec with hrec | rfl
  · have := hc rec hrec o ho
    omega
  · rw [hoption, mem_range'_1] at ho
    omega

/-- What copying the records of a slice adds. -/
structure Copied (h : Heap) (rs : List Nat) (h' : Heap) (rs' : List Nat) : Prop where
  arrays : h'.arrays = h.arrays
  closed : h'.Closed
  options : h.options <+: h'.options
  records : h.records <+: h'.records
  length : h'.records.length = h.records.length + rs.length
  refs : rs' = List.range' h.records.length rs.length
  values : rs'.filterMap h'.record = rs.filterMap h.record
  optionRefs : rs'.flatMap h'.optionsOf = List.range' h.options.length (h'.options.length - h.options.length)

theorem copied_cons {h₁ : Heap} {rs rs' : List Nat} (hc : h.Closed)
    (hr : h.records[r]? = some record) (hrs : ∀ r ∈ rs, r < h.records.length) (h₁c : CopiesTo h record h₁)
    (hrest : Copied h₁ rs h' rs') : Copied h (r :: rs) h' (h.records.length :: rs') := by
  have h₁closed := h₁c.closed hc
  have hagrees := h₁c.agrees
  have hagrees' := agrees_of_append hrest.options hrest.records
  have hle := h₁c.options.length_le
  have hle' := hrest.options.length_le
  obtain ⟨record', hrecords, hoption, hvalue⟩ := h₁c.records
  have hlength : h₁.records.length = h.records.length + 1 := by simp [hrecords]
  have hnew : h₁.records[h.records.length]? = some record' := by simp [hrecords]
  refine ⟨by rw [hrest.arrays, h₁c.arrays], hrest.closed, h₁c.options.trans hrest.options,
    .trans (hrecords ▸ prefix_append _ _) hrest.records, ?_, ?_, ?_, ?_⟩
  · rw [hrest.length, length_cons]
    omega
  · rw [hrest.refs, hlength, length_cons, range'_succ]
  · have hhead : h'.record h.records.length = h.record r := by
      rw [hagrees'.record_eq h₁closed (by omega), Heap.record, Heap.record, hnew, hr]
      simp [hvalue]
    have htail : rs.filterMap h₁.record = rs.filterMap h.record := by
      apply filterMap_congr
      intro r' hr'
      exact hagrees.record_eq hc (hrs r' hr')
    rw [filterMap_cons, filterMap_cons, hhead, hrest.values, htail]
  · have hhead : h'.optionsOf h.records.length = record'.option := by
      rw [optionsOf, hagrees'.records _ (by omega), hnew]
      rfl
    rw [flatMap_cons, hhead, hoption, hrest.optionRefs]
    have hstart : h₁.options.length = h.options.length + (h₁.options.length - h.options.length) := by omega
    have hsum : h'.options.length - h.options.length =
        (h₁.options.length - h.options.length) + (h'.options.length - h₁.options.length) := by omega
    rw [hsum, ← range'_append_1, ← hstart]

theorem copied_copyRecords (hc : h.Closed) (hrs : ∀ r ∈ rs, r < h.records.length) :
    Copied h rs (h.copyRecords rs).1 (h.copyRecords rs).2 := by
  induction rs generalizing h with
  | nil =>
    exact ⟨rfl, hc, prefix_rfl, prefix_rfl, by simp [copyRecords], rfl, rfl, by simp [copyRecords]⟩
  | cons r rs ih =>
    obtain ⟨record, hr⟩ : ∃ record, h.records[r]? = some record := ⟨_, getElem?_eq_getElem (hrs r (by simp))⟩
    have hrs' : ∀ r' ∈ rs, r' < h.records.length := fun r' hr' => hrs r' (by simp [hr'])
    have h₁c := copiesTo_copyRecord h record
    simp only [copyRecords, hr]
    apply copied_cons hc hr hrs' h₁c
    apply ih (h₁c.closed hc)
    intro r' hr'
    obtain ⟨record', hrecords, -, -⟩ := h₁c.records
    have := hrs' r' hr'
    rw [hrecords, length_append]
    omega

/-! ## Setting the option -/

variable (subnet : Subnet)

theorem value_assign (family : UInt16) (sourceNetmask sourceScope : UInt8) (address : IP) :
    ((OptionObj.subnet family sourceNetmask sourceScope address).assign subnet).value =
      subnetOption subnet sourceScope := by
  simp only [OptionObj.assign, OptionObj.value, subnetOption]
  split <;> rfl

theorem option_assign_ne (h : Heap) (subnet : Subnet) {o o' : Nat} (hne : o' ≠ o) :
    (h.assign subnet o).option o' = h.option o' := by
  rw [option, option, assign, getElem?_modify_ne _ _ (Ne.symm hne)]

theorem record_assign_of_notMem (ho : o ∉ h.optionsOf r) : (h.assign subnet o).record r = h.record r := by
  simp only [record, assign]
  cases hr : h.records[r]? with
  | none => rfl
  | some obj =>
    simp only [Option.map_some, Option.some.injEq]
    apply recordValue_congr
    intro o' ho'
    apply option_assign_ne
    rintro rfl
    exact ho (by simpa [optionsOf, hr] using ho')

theorem replaceRecord_eq_none (hrs : ∀ r ∈ rs, h.WithoutSubnet r) :
    ∀ v ∈ rs.filterMap h.record, replaceRecord subnet v = none := by
  intro v hv
  obtain ⟨r, hr, hv⟩ := mem_filterMap.1 hv
  simp [replaceRecord, hrs r hr v hv]

variable {sourceNetmask sourceScope : UInt8}

theorem any_subnet {os' : List Nat} {family : UInt16}
    {address : IP} (hoption : h.options[o]? = some (.subnet family sourceNetmask sourceScope address)) :
    ((os ++ o :: os').filterMap h.option).any (·.code == edns0Subnet) := by
  rw [any_eq_true]
  refine ⟨_, mem_filterMap.2 ⟨o, by simp, by rw [option, hoption]; rfl⟩, ?_⟩
  simp [OptionObj.value]

theorem Found.any (hfound : h.Found rs r o) : (rs.filterMap h.record).any RR.hasSubnet := by
  cases hfound with
  | intro hpre hrecord hos hoption =>
    rw [any_eq_true]
    refine ⟨_, mem_filterMap.2 ⟨r, by simp, by rw [record, hrecord]; rfl⟩, ?_⟩
    exact any_subnet hoption

theorem options_assign {os' : List Nat} {family : UInt16} {address : IP} (hos : ∀ o' ∈ os, h.Other o')
    (hoption : h.options[o]? = some (.subnet family sourceNetmask sourceScope address)) (hn : o ∉ os) (hn' : o ∉ os') :
    (os ++ o :: os').filterMap (h.assign subnet o).option =
      ((os ++ o :: os').filterMap h.option).replaceF (EDNS0.replaceSubnet subnet) := by
  have hothers : ∀ l : List Nat, o ∉ l → l.filterMap (h.assign subnet o).option = l.filterMap h.option := by
    intro l hl
    apply filterMap_congr
    intro o' ho'
    exact option_assign_ne h subnet (fun heq => hl (heq ▸ ho'))
  have hold : h.option o = some (OptionObj.subnet family sourceNetmask sourceScope address).value := by
    simp [option, hoption]
  have hnew : (h.assign subnet o).option o = some (subnetOption subnet sourceScope) := by
    rw [option, assign, getElem?_modify_eq, hoption]
    simp [value_assign]
  rw [filterMap_append, filterMap_append, filterMap_cons, filterMap_cons, hothers os hn,
    hothers os' hn', hold, hnew]
  symm
  apply replaceF_middle
  · intro v hv
    obtain ⟨o', ho', hv⟩ := mem_filterMap.1 hv
    simp [EDNS0.replaceSubnet, hos o' ho' v hv]
  · simp [EDNS0.replaceSubnet, OptionObj.value]

theorem values_setOption_found (hfound : h.Found rs r o) (hown : h.Owned rs) (subnet : Subnet) :
    rs.filterMap (h.setOption subnet r (some o)).record = (rs.filterMap h.record).replaceF (replaceRecord subnet) := by
  cases hfound with
  | @intro pre post os os' _ _ name cls ttl family sourceNetmask sourceScope address hpre hrecord hos hoption =>
    have hoptions := hown.options
    have hr : h.optionsOf r = os ++ o :: os' := by simp [optionsOf, hrecord]
    rw [flatMap_append, flatMap_cons, hr, ← append_assoc, ← append_assoc,
      append_assoc _ (o :: os'), cons_append, nodup_middle, nodup_cons] at hoptions
    simp only [mem_append, mem_flatMap, not_or, not_exists, not_and] at hoptions
    obtain ⟨⟨⟨hnpre, hnos⟩, hnos', hnpost⟩, -⟩ := hoptions
    have hassign := options_assign subnet hos hoption hnos hnos'
    have hany : ((os ++ o :: os').filterMap h.option).any (·.code == edns0Subnet) := any_subnet hoption
    have hothers : ∀ rs' : List Nat, (∀ r' ∈ rs', o ∉ h.optionsOf r') →
        rs'.filterMap (h.assign subnet o).record = rs'.filterMap h.record := by
      intro rs' hrs'
      apply filterMap_congr
      intro r' hr'
      exact record_assign_of_notMem subnet (hrs' r' hr')
    have hold : h.record r = some ⟨name, cls, ttl, .opt ((os ++ o :: os').filterMap h.option)⟩ := by
      rw [record, hrecord]
      rfl
    have hnew : (h.assign subnet o).record r =
        some ⟨name, cls, ttl, .opt (((os ++ o :: os').filterMap h.option).replaceF (EDNS0.replaceSubnet subnet))⟩ := by
      rw [← hassign, record, assign, hrecord]
      rfl
    show filterMap (h.assign subnet o).record _ = _
    rw [filterMap_append, filterMap_append, filterMap_cons, filterMap_cons, hothers pre hnpre,
      hothers post hnpost, hold, hnew]
    symm
    apply replaceF_middle (replaceRecord_eq_none subnet hpre)
    simp only [replaceRecord, RR.hasSubnet, hany, if_true, RR.replaceSubnet]

theorem values_setOption_new (hc : h.Closed) {pre : List Nat} {name : String} {cls : UInt16}
    {ttl : UInt32} {option : List Nat} (hr : h.records[r]? = some (.opt name cls ttl option)) (hpre : r ∉ pre)
    (hlt : ∀ r' ∈ pre, r' < h.records.length) (subnet : Subnet) :
    (pre ++ [r]).filterMap (h.setOption subnet r none).record =
      pre.filterMap h.record ++ [⟨name, cls, ttl, .opt (option.filterMap h.option ++ [subnetOption subnet 0])⟩] := by
  have hoption : ∀ o < h.options.length, (h.setOption subnet r none).option o = h.option o := by
    intro o ho
    simp only [Heap.option, setOption, subnetOptionOf, assign]
    rw [getElem?_modify_ne _ _ (by omega), getElem?_append_left ho]
  have hnew : (h.setOption subnet r none).option h.options.length = some (subnetOption subnet 0) := by
    simp only [Heap.option, setOption, subnetOptionOf, assign]
    simp [value_assign]
  have hothers : ∀ r' ∈ pre, (h.setOption subnet r none).record r' = h.record r' := by
    intro r' hr'
    have hlt' := hlt r' hr'
    have hrecords : (h.setOption subnet r none).records[r']? = h.records[r']? := by
      exact getElem?_modify_ne _ _ (fun heq => hpre (heq ▸ hr'))
    rw [record, record, hrecords, getElem?_eq_getElem hlt']
    simp only [Option.map_some, Option.some.injEq]
    apply recordValue_congr
    intro o ho
    exact hoption o (hc _ (getElem_mem hlt') o ho)
  have hlast : (h.setOption subnet r none).record r =
      some ⟨name, cls, ttl, .opt (option.filterMap h.option ++ [subnetOption subnet 0])⟩ := by
    have hrecords : (h.setOption subnet r none).records[r]? = some (.opt name cls ttl (option ++ [h.options.length])) := by
      simp only [setOption, subnetOptionOf, assign]
      rw [getElem?_modify_eq, hr]
      rfl
    have hold : option.filterMap (h.setOption subnet r none).option = option.filterMap h.option := by
      apply filterMap_congr
      intro o ho
      exact hoption o (hc _ (mem_of_getElem? hr) o ho)
    rw [record, hrecords]
    simp [recordValue, hold, hnew]
  rw [filterMap_append, filterMap_congr hothers]
  simp [hlast]

/-! ## Slices and copies of messages -/

theorem slice_of_arrays_append (hm : h.Valid m) {rest : List (List Nat)}
    (harrays : h'.arrays = h.arrays ++ rest) : h'.slice m.extra = h.slice m.extra := by
  have hlen := hm.len
  simp only [slice, array] at hlen ⊢
  by_cases hlt : m.extra.array < h.arrays.length
  · rw [harrays, getElem?_append_left hlt]
  · -- an array that is not there belongs to a slice of length zero
    rw [getElem?_eq_none (by omega)] at hlen
    have hzero : m.extra.len = 0 := by simpa using hlen
    simp [hzero]

theorem slice_new {l : List Nat} {rest : List (List Nat)} (harrays : h.arrays = rest ++ [l]) {n : Nat}
    (hn : n = rest.length) (len : Nat) : h.slice ⟨n, len⟩ = l.take len := by
  simp [slice, array, harrays, hn]

variable (spare : Nat → Nat)

theorem append_spec (hm : h.Valid m) (r : Nat) :
    let a := h.append spare m.extra r
    a.1.slice a.2 = h.slice m.extra ++ [r] ∧ a.1.slice m.extra = h.slice m.extra ∧
      a.2.len ≤ (a.1.array a.2).length := by
  have hlen := hm.len
  simp only [append]
  split
  · rename_i hroom
    have hlt : m.extra.array < h.arrays.length := by
      by_contra hge
      rw [array, getElem?_eq_none (by omega)] at hroom
      simp at hroom
    simp only [slice, array, getElem?_set_self hlt, Option.getD_some] at hroom ⊢
    refine ⟨?_, ?_, ?_⟩
    · rw [take_succ_eq_append_getElem (by simpa using hroom), take_set_of_le (le_refl _)]
      simp
    · rw [take_set_of_le (le_refl _)]
    · rw [length_set]
      exact hroom
  · have hslice : (h.slice m.extra).length = m.extra.len := by
      simp only [slice, length_take]
      omega
    refine ⟨?_, ?_, ?_⟩
    · rw [slice_new rfl rfl, take_append, hslice, take_of_length_le (by omega)]
      simp
    · exact slice_of_arrays_append hm rfl
    · simp only [array, getElem?_concat_length, Option.getD_some, length_append, length_cons, hslice]
      omega

/-- A copy of the message that shares nothing with it. -/
structure FreshCopy (h : Heap) (m : MsgObj) (h' : Heap) (m' : MsgObj) : Prop where
  agrees : Agrees h h'
  valid : h'.Valid m'
  owned : h'.Owned (h'.slice m'.extra)
  slice : h'.slice m.extra = h.slice m.extra
  message : h'.message m' = h.message m
  options_length : h.options.length ≤ h'.options.length
  records_fresh : ∀ r ∈ h'.slice m'.extra, h.records.length ≤ r
  options_fresh : ∀ r ∈ h'.slice m'.extra, ∀ o ∈ h'.optionsOf r, h.options.length ≤ o

theorem freshCopy_copy (hm : h.Valid m) : FreshCopy h m (h.copy m).1 (h.copy m).2 := by
  have hcopied := copied_copyRecords hm.closed hm.records
  simp only [copy]
  generalize h.copyRecords (h.slice m.extra) = c at hcopied ⊢
  obtain ⟨h₁, rs⟩ := c
  replace hcopied : Copied h (h.slice m.extra) h₁ rs := hcopied
  have hslice : Heap.slice { h₁ with arrays := h₁.arrays ++ [rs] } ⟨h₁.arrays.length, rs.length⟩ = rs := by
    rw [slice_new rfl rfl, take_length]
  refine ⟨agrees_of_append hcopied.options hcopied.records, ⟨hcopied.closed, ?_, ?_⟩, ⟨?_, ?_⟩, ?_, ?_,
    hcopied.options.length_le, ?_, ?_⟩
  · simp [array]
  · intro r hr
    rw [hslice, hcopied.refs, mem_range'_1] at hr
    have hlength := hcopied.length
    simp only at hlength ⊢
    omega
  · rw [hslice, hcopied.refs]
    exact nodup_range'
  · rw [hslice]
    exact hcopied.optionRefs ▸ nodup_range'
  · apply slice_of_arrays_append hm
    rw [hcopied.arrays]
  · have hvalues := hcopied.values
    simp only [Heap.message, hslice, Msg.mk.injEq, true_and]
    exact hvalues
  · intro r hr
    rw [hslice, hcopied.refs, mem_range'_1] at hr
    exact hr.1
  · intro r hr o ho
    rw [hslice] at hr
    have hmem : o ∈ rs.flatMap h₁.optionsOf := mem_flatMap.2 ⟨r, hr, ho⟩
    rw [hcopied.optionRefs, mem_range'_1] at hmem
    exact hmem.1

/-! ## The function -/

@[simp] theorem slice_setOption (h : Heap) (subnet : Subnet) (optRecord : Nat) (subnetOption : Option Nat) (s : Slice) :
    (h.setOption subnet optRecord subnetOption).slice s = h.slice s := by
  cases subnetOption <;> rfl

theorem getLast?_values (hrs : ∀ r ∈ rs, r < h.records.length) :
    (rs.filterMap h.record).getLast? = rs.getLast?.bind h.record := by
  induction rs using reverseRecOn with
  | nil => rfl
  | append_singleton rs r _ =>
    have hr : h.record r = some (h.recordValue (h.records.get ⟨r, hrs r (by simp)⟩)) := by
      rw [record, getElem?_eq_getElem (hrs r (by simp))]
      rfl
    simp [hr]

theorem isOPT_record {v : RR} (hv : h.record r = some v) : v.isOPT = h.isOPT r := by
  rw [record] at hv
  cases hr : h.records[r]? with
  | none => simp [hr] at hv
  | some obj =>
    rw [hr, Option.map_some, Option.some.injEq] at hv
    rw [← hv]
    cases obj with
    | opt name cls ttl option => simp [recordValue, isOPT, hr, RR.isOPT]
    | other r' hr' => simp [recordValue, isOPT, hr, hr']

theorem any_hasSubnet_eq_false (hrs : ∀ r ∈ rs, h.WithoutSubnet r) :
    (rs.filterMap h.record).any RR.hasSubnet = false := by
  rw [any_eq_false]
  intro v hv
  obtain ⟨r, hr, hv⟩ := mem_filterMap.1 hv
  simp [hrs r hr v hv]

theorem exists_last_of_elim
    (hlast : rs.getLast?.elim none (fun r => if h.isOPT r then some r else none) = some optRecord) :
    ∃ pre, rs = pre ++ [optRecord] ∧ h.isOPT optRecord = true := by
  induction rs using reverseRecOn with
  | nil => simp at hlast
  | append_singleton pre r _ =>
    simp only [getLast?_append, getLast?_singleton, Option.some_or, Option.elim_some] at hlast
    split at hlast
    · rename_i hopt
      obtain rfl : r = optRecord := by simpa using hlast
      exact ⟨pre, rfl, hopt⟩
    · cases hlast

theorem findExists_none {subnetOption : Option Nat}
    (hfind : h.findExists none none rs = (none, subnetOption)) : subnetOption = none := by
  have hsearch := findExists_spec h none rs
  generalize h.findExists none none rs = result at hsearch hfind
  cases hsearch with
  | found hfound => simp at hfind
  | missing hrs => exact (Prod.mk.inj hfind).2.symm

theorem findExists_mem {subnetOption : Option Nat}
    (hfind : h.findExists none none rs = (some optRecord, subnetOption)) :
    optRecord ∈ rs ∧ ∀ o ∈ subnetOption, o ∈ h.optionsOf optRecord := by
  have hsearch := findExists_spec h none rs
  generalize h.findExists none none rs = result at hsearch hfind
  cases hsearch with
  | found hfound =>
    obtain ⟨rfl, rfl⟩ : _ = optRecord ∧ _ = subnetOption := by simpa using hfind
    cases hfound with
    | intro hpre hrecord hos hoption => simp [optionsOf, hrecord]
  | missing hrs =>
    obtain ⟨hlast, rfl⟩ := Prod.mk.inj hfind
    obtain ⟨pre, rfl, -⟩ := exists_last_of_elim hlast
    simp

/-- Without sharing, setting the option that was found sets it in the value of the message. -/
theorem message_setOption (hm : h.Valid m) (hown : h.Owned (h.slice m.extra)) (subnet : Subnet) {subnetOption : Option Nat}
    (hfind : h.findExists none none (h.slice m.extra) = (some optRecord, subnetOption)) :
    (h.setOption subnet optRecord subnetOption).message m = Dns.setClientSubnet (h.message m) subnet := by
  have hsearch := findExists_spec h none (h.slice m.extra)
  generalize h.findExists none none (h.slice m.extra) = result at hsearch hfind
  cases hsearch with
  | found hfound =>
    obtain ⟨rfl, rfl⟩ : _ = optRecord ∧ _ = subnetOption := by simpa using hfind
    have hvalues := values_setOption_found hfound hown subnet
    rw [setClientSubnet_of_any subnet hfound.any]
    simp only [message, slice_setOption, hvalues]
  | missing hrs =>
    simp only [Prod.mk.injEq] at hfind
    obtain ⟨hlast, rfl⟩ := hfind
    obtain ⟨pre, hslice, hopt⟩ := exists_last_of_elim hlast
    obtain ⟨name, cls, ttl, option, hrecord⟩ := isOPT_iff.1 hopt
    have hpre : optRecord ∉ pre := by
      have hnodup := hown.records
      rw [hslice, nodup_append] at hnodup
      intro hmem
      exact hnodup.2.2 _ hmem _ (by simp) rfl
    have hvalues := values_setOption_new hm.closed hrecord hpre
      (fun r hr => hm.records r (by rw [hslice]; simp [hr])) subnet
    have hextra : (h.message m).extra =
        pre.filterMap h.record ++ [⟨name, cls, ttl, .opt (option.filterMap h.option)⟩] := by
      simp [message, hslice, record, hrecord, recordValue]
    rw [setClientSubnet_of_opt_last subnet (any_hasSubnet_eq_false hrs) hextra]
    simp only [message, slice_setOption]
    rw [hslice, hvalues]

theorem findExists_isSome (hrs : ∀ r ∈ rs, r < h.records.length) : (h.findExists none none rs).1.isSome =
      ((rs.filterMap h.record).any RR.hasSubnet || (rs.filterMap h.record).getLast?.any RR.isOPT) := by
  have hsearch := findExists_spec h none rs
  generalize h.findExists none none rs = result at hsearch
  cases hsearch with
  | found hfound => simp [hfound.any]
  | missing hmissing =>
    rw [any_hasSubnet_eq_false hmissing, getLast?_values hrs]
    cases hlast : rs.getLast? with
    | none => rfl
    | some r =>
      have hr : h.records[r]? = some (h.records.get ⟨r, hrs r (mem_of_getLast? hlast)⟩) := getElem?_eq_getElem _
      have hv : h.record r = some (h.recordValue (h.records.get ⟨r, hrs r (mem_of_getLast? hlast)⟩)) := by
        rw [record, hr]
        rfl
      simp only [Option.elim_some, Option.bind_some, hv, Option.any_some, isOPT_record hv]
      cases h.isOPT r <;> rfl

theorem valid_setOption (hm : h.Valid m) (subnet : Subnet) (optRecord : Nat)
    (subnetOption : Option Nat) : (h.setOption subnet optRecord subnetOption).Valid m := by
  cases subnetOption with
  | some o =>
    refine ⟨?_, hm.len, hm.records⟩
    intro record hrecord o' ho'
    simpa [setOption, subnetOptionOf, assign] using hm.closed record hrecord o' ho'
  | none =>
    refine ⟨?_, hm.len, ?_⟩
    · intro record hrecord o' ho'
      simp only [setOption, subnetOptionOf, assign, length_modify, length_append, length_singleton]
        at hrecord ⊢
      obtain ⟨i, hi⟩ := mem_iff_getElem?.1 hrecord
      rw [getElem?_modify] at hi
      obtain ⟨old, hold, rfl⟩ := Option.map_eq_some_iff.1 hi
      have hclosed := hm.closed old (mem_of_getElem? hold)
      split at ho'
      · cases old with
        | opt name cls ttl option =>
          simp only [RecordObj.addOption, RecordObj.option, mem_append, mem_singleton] at ho'
          rcases ho' with ho' | rfl
          · exact Nat.lt_succ_of_lt (hclosed o' ho')
          · omega
        | other r hr => cases ho'
      · exact Nat.lt_succ_of_lt (hclosed o' ho')
    · intro r hr
      simpa [setOption, subnetOptionOf, assign] using hm.records r hr

/-- A new OPT record at the end of the shared slice. -/
structure Extended (h : Heap) (m : MsgObj) (h' : Heap) (m' : MsgObj) : Prop where
  agrees : Agrees h h'
  valid : h'.Valid m'
  options_length : h.options.length ≤ h'.options.length
  caller : h'.slice m.extra = h.slice m.extra
  slice : h'.slice m'.extra = h.slice m.extra ++ [h.records.length]
  opt : h'.records[h.records.length]? = some (.opt "." 0 0 [])
  sections : ∀ rs, { h'.message m' with extra := rs } = { h.message m with extra := rs }

theorem extended_newOPT (hm : h.Valid m) : Extended h m (h.newOPT spare m).1 (h.newOPT spare m).2.1 := by
  have hm₁ : Heap.Valid { h with records := h.records ++ [.opt "." 0 0 []] } m := by
    refine ⟨?_, hm.len, ?_⟩
    · intro record hrecord o ho
      simp only [mem_append, mem_singleton] at hrecord
      rcases hrecord with hrecord | rfl
      · exact hm.closed record hrecord o ho
      · cases ho
    · intro r hr
      rw [length_append]
      exact Nat.lt_add_right 1 (hm.records r hr)
  obtain ⟨hslice, hcaller, hlen⟩ := append_spec spare hm₁ h.records.length
  have hobjects : ∀ r, (append spare { h with records := h.records ++ [.opt "." 0 0 []] } m.extra r).1.options = h.options ∧
      (append spare { h with records := h.records ++ [.opt "." 0 0 []] } m.extra r).1.records =
        h.records ++ [.opt "." 0 0 []] := by
    intro r
    simp only [append]
    split <;> exact ⟨rfl, rfl⟩
  obtain ⟨hoptions, hrecords⟩ := hobjects h.records.length
  simp only [newOPT]
  refine ⟨?_, ⟨?_, hlen, ?_⟩, ?_, hcaller, hslice, ?_, fun _ => rfl⟩
  · apply agrees_of_append
    · rw [hoptions]
    · rw [hrecords]
      exact prefix_append _ _
  · intro record hrecord o ho
    rw [hrecords] at hrecord
    rw [hoptions]
    exact hm₁.closed record hrecord o ho
  · intro r hr
    rw [hslice, mem_append, mem_singleton] at hr
    rw [hrecords, length_append, length_singleton]
    rcases hr with hr | rfl
    · exact Nat.lt_add_right 1 (hm.records r hr)
    · omega
  · rw [hoptions]
  · rw [hrecords]
    simp

theorem Extended.message {m' : MsgObj} (hm : h.Valid m) (hext : Extended h m h' m') (subnet : Subnet)
    (hfind : (h.findExists none none (h.slice m.extra)).1 = none) :
    (h'.setOption subnet h.records.length none).message m' = Dns.setClientSubnet (h.message m) subnet := by
  have hvalues := values_setOption_new hext.valid.closed hext.opt
    (fun hmem => lt_irrefl _ (hm.records _ hmem)) (fun r hr => hext.valid.records r (by rw [hext.slice]; simp [hr])) subnet
  have hold : (h.slice m.extra).filterMap h'.record = (h.slice m.extra).filterMap h.record := by
    apply filterMap_congr
    intro r hr
    exact hext.agrees.record_eq hm.closed (hm.records r hr)
  have hnone := findExists_isSome hm.records
  rw [hfind, Option.isSome_none, Eq.comm, Bool.or_eq_false_iff] at hnone
  obtain ⟨hany, hlast⟩ := hnone
  have hextra : (h'.setOption subnet h.records.length none).message m' =
      { h.message m with extra := (h.message m).extra ++ [newOPTRecord subnet] } := by
    rw [← hext.sections]
    simp only [Heap.message, slice_setOption, hext.slice]
    rw [hvalues, hold]
    rfl
  rw [hextra, setClientSubnet_of_none subnet hany hlast]

/-- For every valid message the result has the value that `Dns.setClientSubnet` computes, the caller's message keeps
its own, and the result is a valid message again. -/
theorem message_setClientSubnet (subnet : Subnet) (hm : h.Valid m) :
    let a := h.setClientSubnet spare subnet m
    a.1.message a.2 = Dns.setClientSubnet (h.message m) subnet ∧ a.1.message m = h.message m ∧ a.1.Valid a.2 := by
  have hsome := findExists_isSome hm.records
  cases hfind : h.findExists none none (h.slice m.extra) with
  | mk optRecord subnetOption =>
    cases optRecord with
    | none =>
      have hext := extended_newOPT spare hm
      obtain rfl : subnetOption = none := findExists_none hfind
      have hresult : h.setClientSubnet spare subnet m =
          ((h.newOPT spare m).1.setOption subnet h.records.length none, (h.newOPT spare m).2.1) := by
        simp only [setClientSubnet, setClientSubnetWith, hfind]
        rfl
      rw [hresult]
      refine ⟨hext.message hm subnet (by rw [hfind]), ?_, ?_⟩
      · apply Agrees.message_eq (hext.agrees.setOption hext.options_length subnet (le_refl _) (by simp)) hm
        exact hext.caller
      · exact valid_setOption hext.valid subnet h.records.length none
    | some r =>
      have hcopy := freshCopy_copy hm
      -- on the copy the same loop takes a record of the copy
      have hsome' := findExists_isSome hcopy.valid.records
      have hextra : ((h.copy m).1.slice (h.copy m).2.extra).filterMap (h.copy m).1.record =
          (h.slice m.extra).filterMap h.record := congrArg Msg.extra hcopy.message
      rw [hextra, ← hsome, hfind] at hsome'
      obtain ⟨optRecord, hopt⟩ := Option.isSome_iff_exists.1 hsome'
      cases hfind' : (h.copy m).1.findExists none none ((h.copy m).1.slice (h.copy m).2.extra) with
      | mk optRecord' subnetOption' =>
        obtain rfl : optRecord' = some optRecord := by simpa [hfind'] using hopt
        have hresult : h.setClientSubnet spare subnet m =
            ((h.copy m).1.setOption subnet optRecord subnetOption', (h.copy m).2) := by
          simp only [setClientSubnet, setClientSubnetWith, hfind, hfind']
        rw [hresult]
        obtain ⟨hmem, hmem'⟩ := findExists_mem hfind'
        refine ⟨?_, ?_, ?_⟩
        · rw [message_setOption hcopy.valid hcopy.owned subnet hfind', hcopy.message]
        · have hagrees := hcopy.agrees.setOption hcopy.options_length subnet (hcopy.records_fresh _ hmem)
            fun o ho => hcopy.options_fresh _ hmem o (hmem' o ho)
          apply hagrees.message_eq hm
          rw [slice_setOption]
          exact hcopy.slice
        · exact valid_setOption hcopy.valid subnet _ _

end Heap

/-! ## `SetClientSubnet` -/

/-- For every heap, every valid message with at most one OPT record and at most one subnet option in it, and every
subnet: the result has the subnet and everything else as before, the caller's message is not modified, and a second
call changes nothing, exactly if the message does not have an OPT record without a subnet option that another record
follows. Only the first part depends on that. -/
theorem setClientSubnet_exact_iff (spare : Nat → Nat) (subnet : Subnet) {h : Heap} {m : MsgObj} (hm : h.Valid m)
    (hsingle : (h.message m).SingleSubnet) :
    (let first := h.setClientSubnet spare subnet m
      let second := first.1.setClientSubnet spare subnet first.2
      SubnetSet subnet (h.message m) (first.1.message first.2) ∧ first.1.message m = h.message m ∧
        second.1.message second.2 = first.1.message first.2) ↔ ¬HidesOPT (h.message m) := by
  obtain ⟨hvalue, hcaller, hvalid⟩ := Heap.message_setClientSubnet spare subnet hm
  obtain ⟨hvalue', -, -⟩ := Heap.message_setClientSubnet spare subnet hvalid
  have hset := subnetSet_iff subnet hsingle
  simp only [hvalue, hcaller, hvalue', setClientSubnet_idem, and_true]
  exact hset

/-- A query with an OPT record, before or after a TSIG record. -/
def signedHeap (arrays : List (List Nat)) : Heap where
  options := []
  records := [.opt "." 1232 0 [], .other ⟨"key.", 255, 0, .other 250 [1, 2, 3]⟩ rfl]
  arrays := arrays

def signedQuery : MsgObj where
  question := [⟨"example.org.", typeA, classINET⟩]
  answer := []
  ns := []
  extra := ⟨0, 2⟩

def exampleSubnet : Subnet := ⟨[192, 0, 2, 0], 24⟩

theorem valid_signedQuery {rs : List Nat} (hlen : rs.length = 2) (hrs : ∀ r ∈ rs, r < 2) :
    (signedHeap [rs]).Valid signedQuery := by
  refine ⟨?_, ?_, ?_⟩
  · intro record hrecord o ho
    simp only [signedHeap, mem_cons, not_mem_nil, or_false] at hrecord
    rcases hrecord with rfl | rfl <;> cases ho
  · simp [Heap.array, signedHeap, signedQuery, hlen]
  · intro r hr
    exact hrs r (mem_of_mem_take hr)

/-- With the OPT record last, the option goes there. -/
theorem setClientSubnet_exact_last :
    ¬HidesOPT ((signedHeap [[1, 0]]).message signedQuery) ∧
      SubnetSet exampleSubnet ((signedHeap [[1, 0]]).message signedQuery)
        (((signedHeap [[1, 0]]).setClientSubnet (fun _ => 0) exampleSubnet signedQuery).1.message
          ((signedHeap [[1, 0]]).setClientSubnet (fun _ => 0) exampleSubnet signedQuery).2) := by
  have hhides : ¬HidesOPT ((signedHeap [[1, 0]]).message signedQuery) := by
    rintro ⟨-, -, hlast⟩
    revert hlast
    decide
  refine ⟨hhides, ?_⟩
  exact ((setClientSubnet_exact_iff (fun _ => 0) exampleSubnet (valid_signedQuery rfl (by decide))
    ⟨by decide, by decide⟩).2 hhides).1

/-- With the TSIG record last, there are two OPT records. -/
theorem setClientSubnet_two_opts :
    (signedHeap [[0, 1]]).Valid signedQuery ∧ ((signedHeap [[0, 1]]).message signedQuery).SingleSubnet ∧
      let result := (signedHeap [[0, 1]]).setClientSubnet (fun _ => 0) exampleSubnet signedQuery
      (result.1.message result.2).optRecords =
          [⟨".", 1232, 0, .opt []⟩, ⟨".", 0, 0, .opt [subnetOption exampleSubnet 0]⟩] ∧
        ¬SubnetSet exampleSubnet ((signedHeap [[0, 1]]).message signedQuery) (result.1.message result.2) := by
  have hopts : (((signedHeap [[0, 1]]).setClientSubnet (fun _ => 0) exampleSubnet signedQuery).1.message
      ((signedHeap [[0, 1]]).setClientSubnet (fun _ => 0) exampleSubnet signedQuery).2).optRecords =
        [⟨".", 1232, 0, .opt []⟩, ⟨".", 0, 0, .opt [subnetOption exampleSubnet 0]⟩] := by decide
  refine ⟨valid_signedQuery rfl (by decide), ⟨by decide, by decide⟩, hopts, ?_⟩
  rintro ⟨-, -, r, hr, -⟩
  simp [hopts] at hr

end Singlink.Dns
