import Singlink.Lib.GoMap
import Singlink.Lib.GoStrings
import Singlink.Lib.Runs
import Singlink.Options.Netip
/-!
# The links of the resolved service

`service/resolved`: the links that D-Bus calls register (`resolve1.go`,
`service.go`), and the DNS servers that the transport keeps for them
(`transport.go`). Links are pointers: `links` and the keys of `linkServers` are
places of a heap. Every call asks the interface finder anew, so what it answers is
an argument.

The calls that only resolve names are left out.
-/

namespace Singlink.Resolved

open Lib Options Function List GoMap Option Prod
open Lib.Codec (Bytes)

/-- `control.Interface`, told from others by its pointer. -/
structure Interface where
  pointer : Nat
  name : String
  deriving DecidableEq

/-- `InterfaceFinder.ByIndex`; no interface is an error. -/
abbrev Finder := Int32 → Option Interface

structure LinkDNS where
  address : Bytes

structure LinkDNSEx where
  address : Bytes
  port : UInt16
  name : String

structure LinkDomain where
  domain : String
  routingOnly : Bool

structure TransportLink where
  iif : Option Interface := none
  address : List LinkDNS := []
  addressEx : List LinkDNSEx := []
  domain : List LinkDomain := []
  defaultRoute : Bool := false
  dnsOverTLS : Bool := false

/-- `NewUDPRaw` and `NewTLSRaw`, bound to an interface. Without a server name, that of
the server is its address. -/
inductive Server where
  | udp (bindInterface : String) (addr : Addr) (port : UInt16)
  | tls (bindInterface : String) (serverName : Option String) (addr : Addr) (port : UInt16)
  deriving DecidableEq

structure LinkServers where
  link : Nat
  servers : List Server
  closed : Bool := false

/-- `Service` with the `linkServers` of its `Transport`. The next link is put at
`next` of the heap. -/
structure Service where
  heap : Nat → TransportLink := fun _ => {}
  next : Nat := 0
  links : GoMap Int32 Nat := ∅
  defaultRouteSequence : List Int32 := []
  linkServers : GoMap Nat LinkServers := ∅

inductive Error where
  | noInterface
  | invalid
  deriving DecidableEq

/-- How a call ends; a nil pointer that is followed is a panic. -/
inductive Result where
  | panic
  | returned (err : Option Error) (s : Service)

def Result.after? : Result → Option Service
  | .panic => none
  | .returned _ s => some s

/-! ## The transport -/

/-- The server of an address, unless it is invalid. -/
def newServer (l : TransportLink) (bindInterface : String) (address : Bytes) (port : UInt16) (name : String) :
    Option Server :=
  let serverAddr := addrFromIP address
  if serverAddr.isValid then
    if l.dnsOverTLS then some (.tls bindInterface (if name = "" then none else some name) serverAddr port)
    else some (.udp bindInterface serverAddr port)
  else none

def newServers (l : TransportLink) (bindInterface : String) : Option (List Server) := do
  let servers ← l.address.mapM fun it => newServer l bindInterface it.address 53 ""
  let serversEx ← l.addressEx.mapM fun it => newServer l bindInterface it.address it.port it.name
  return servers ++ serversEx

namespace Service

/-- The servers of a link are closed, if it has some. -/
def closeServers (s : Service) (link : Nat) : Service :=
  match s.linkServers.lookup link with
  | some servers => { s with linkServers := s.linkServers.insert link { servers with closed := true } }
  | none => s

/-- `updateTransports`: an invalid address leaves the closed servers, or none. -/
def updateTransports (s : Service) (link : Nat) : Result :=
  let s := s.closeServers link
  match (s.heap link).iif with
  | none => .panic
  | some iif =>
    match newServers (s.heap link) iif.name with
    | none => .returned (some .invalid) s
    | some servers => .returned none { s with linkServers := s.linkServers.insert link { link, servers } }

def deleteTransport (s : Service) (link : Nat) : Service := { s with linkServers := s.linkServers.erase link }

/-! ## Calls -/

/-- A link is put at the next place of the heap. -/
def register (s : Service) (ifIndex : Int32) (l : TransportLink) : Service :=
  { s with
    heap := Function.update s.heap s.next l, next := s.next + 1, links := s.links.insert ifIndex s.next }

/-- `getLink`: a link that is not there is put there before its interface is asked for. -/
def getLink (s : Service) (byIndex : Finder) (ifIndex : Int32) : Option Nat × Service :=
  match s.links.lookup ifIndex with
  | some link => (some link, s)
  | none =>
    let link := s.next
    let s := s.register ifIndex {}
    match byIndex ifIndex with
    | none => (none, s)
    | some iif => (some link, { s with heap := Function.update s.heap link { s.heap link with iif := some iif } })

end Service

/-- What the calls set. -/
inductive Setting where
  | dns (addresses : List LinkDNS)
  | dnsEx (addresses : List LinkDNSEx)
  | domains (domains : List LinkDomain)
  | defaultRoute (defaultRoute : Bool)
  | dnsOverTLS (dotMode : String)

namespace Setting

def apply (l : TransportLink) : Setting → TransportLink
  | .dns addresses => { l with address := addresses }
  | .dnsEx addresses => { l with addressEx := addresses }
  | .domains list => { l with domain := list }
  | .defaultRoute value => { l with defaultRoute := value }
  | .dnsOverTLS dotMode =>
    if dotMode = "yes" then { l with dnsOverTLS := true }
    else if dotMode = "" ∨ dotMode = "opportunistic" ∨ dotMode = "no" then { l with dnsOverTLS := false }
    else l

def sequence (ifIndex : Int32) (defaultRouteSequence : List Int32) : Setting → List Int32
  | .defaultRoute true => defaultRouteSequence.filter (· ≠ ifIndex) ++ [ifIndex]
  | .defaultRoute false => defaultRouteSequence.filter (· ≠ ifIndex)
  | _ => defaultRouteSequence

end Setting

namespace Service

def setAt (s : Service) (link : Nat) (ifIndex : Int32) (setting : Setting) : Service :=
  { s with
    heap := Function.update s.heap link (setting.apply (s.heap link))
    defaultRouteSequence := setting.sequence ifIndex s.defaultRouteSequence }

/-- The call that sets something of a link. It logs the name of its interface. -/
def setLink (s : Service) (byIndex : Finder) (ifIndex : Int32) (setting : Setting) : Result :=
  match s.getLink byIndex ifIndex with
  | (none, s) => .returned (some .noInterface) s
  | (some link, s) =>
    let s := s.setAt link ifIndex setting
    match (s.heap link).iif with
    | none => .panic
    | some _ => s.updateTransports link

def setLinkDNS (s : Service) (byIndex : Finder) (ifIndex : Int32) (addresses : List LinkDNS) : Result :=
  s.setLink byIndex ifIndex (.dns addresses)

def setLinkDNSEx (s : Service) (byIndex : Finder) (ifIndex : Int32) (addresses : List LinkDNSEx) : Result :=
  s.setLink byIndex ifIndex (.dnsEx addresses)

def setLinkDomains (s : Service) (byIndex : Finder) (ifIndex : Int32) (domains : List LinkDomain) : Result :=
  s.setLink byIndex ifIndex (.domains domains)

def setLinkDefaultRoute (s : Service) (byIndex : Finder) (ifIndex : Int32) (defaultRoute : Bool) : Result :=
  s.setLink byIndex ifIndex (.defaultRoute defaultRoute)

def setLinkDNSOverTLS (s : Service) (byIndex : Finder) (ifIndex : Int32) (dotMode : String) : Result :=
  s.setLink byIndex ifIndex (.dnsOverTLS dotMode)

/-- `RevertLink` updates the transport for the link it has removed. -/
def revertLink (s : Service) (byIndex : Finder) (ifIndex : Int32) : Result :=
  match s.getLink byIndex ifIndex with
  | (none, s) => .returned (some .noInterface) s
  | (some link, s) =>
    let s := { s with links := s.links.erase ifIndex }
    match (s.heap link).iif with
    | none => .panic
    | some _ => s.updateTransports link

/-- The interface of a link has vanished or changed. -/
def gone (s : Service) (byIndex : Finder) (entry : Int32 × Nat) : Bool :=
  match byIndex entry.1 with
  | none => true
  | some iif => (s.heap entry.2).iif.map (·.pointer) ≠ some iif.pointer

/-- `onNetworkUpdate`, which goes through the links in some order. All links lose
their servers and their default routes. -/
def onNetworkUpdate (s : Service) (byIndex : Finder) (order : List Int32) : Service :=
  let entries := s.links.range order
  let deleteIfIndex := (entries.filter (s.gone byIndex)).map Prod.fst
  let s := entries.foldl (fun s entry =>
    ({ s with defaultRouteSequence := s.defaultRouteSequence.filter (· ≠ entry.1) }).deleteTransport entry.2) s
  deleteIfIndex.foldl (fun s ifIndex => { s with links := s.links.erase ifIndex }) s

/-! ## Queries -/

/-- A domain of a link that `Exchange` takes for a name. -/
def matchesDomain (acceptDefaultResolvers : Bool) (name : String) (domain : LinkDomain) : Bool :=
  !(domain.domain = "." && domain.routingOnly && !acceptDefaultResolvers) && GoStrings.hasSuffix name domain.domain

/-- The loop over the default routes, the last one first; no result is a panic. -/
def defaultLink (s : Service) : List Int32 → Option Nat → Option (Option Nat)
  | [], selected => some selected
  | ifIndex :: rest, _ =>
    match s.links.lookup ifIndex with
    | none => none
    | some link =>
      if (s.heap link).address.isEmpty && (s.heap link).addressEx.isEmpty then s.defaultLink rest (some link)
      else some (some link)

/-- The link that `Exchange` selects, if any; no result is a panic. -/
def selectLink (s : Service) (acceptDefaultResolvers : Bool) (order : List Int32) (name : String) :
    Option (Option Nat) :=
  let selected := (s.links.range order).foldl (fun selected entry =>
    if (s.heap entry.2).domain.any (matchesDomain acceptDefaultResolvers name) then some entry.2 else selected) none
  if selected = none ∧ acceptDefaultResolvers then s.defaultLink s.defaultRouteSequence.reverse none
  else some selected

inductive Answer where
  | panic
  | nameError
  | ask (servers : LinkServers)

/-- `Exchange`: a link is selected under one lock, and its servers are looked up under
another, where the service may be at `t`. -/
def exchange (s t : Service) (acceptDefaultResolvers : Bool) (order : List Int32) (name : String) : Answer :=
  match s.selectLink acceptDefaultResolvers order name with
  | none => .panic
  | some none => .nameError
  | some (some link) =>
    match t.linkServers.lookup link with
    | none => .panic
    | some servers => if servers.servers.isEmpty then .nameError else .ask servers

end Service

/-! ## Runs -/

inductive Op where
  | set (byIndex : Finder) (ifIndex : Int32) (setting : Setting)
  | revert (byIndex : Finder) (ifIndex : Int32)
  | update (byIndex : Finder) (order : List Int32)

namespace Service

def step (s : Service) : Op → Result
  | .set byIndex ifIndex setting => s.setLink byIndex ifIndex setting
  | .revert byIndex ifIndex => s.revertLink byIndex ifIndex
  | .update byIndex order => .returned none (s.onNetworkUpdate byIndex order)

def system : System Service Op := .ofPartial (· = {}) fun s op => (s.step op).after?

def after (s : Service) : System Service Op := .ofPartial (· = s) fun s op => (s.step op).after?

/-- The links have interfaces, default routes are links, and the links are those that
have servers. -/
structure Consistent (s : Service) : Prop where
  iif : ∀ ifIndex link, s.links.lookup ifIndex = some link → (s.heap link).iif ≠ none
  routes : ∀ ifIndex ∈ s.defaultRouteSequence, ∃ link, s.links.lookup ifIndex = some link
  servers : ∀ link, (∃ servers, s.linkServers.lookup link = some servers) ↔
    ∃ ifIndex, s.links.lookup ifIndex = some link

/-- The call is for a link that is there, or the first one for an interface that is,
with addresses that are valid; or it is a network update that leaves no link. -/
def Careful (s : Service) : Op → Prop
  | .set byIndex ifIndex setting =>
    s.links.lookup ifIndex = none → ∃ iif, byIndex ifIndex = some iif ∧
      (newServers (setting.apply { iif := some iif }) iif.name).isSome = true
  | .revert _ _ => False
  | .update byIndex _ => ∀ ifIndex link, s.links.lookup ifIndex = some link → s.gone byIndex (ifIndex, link) = true

/-! ## One call -/

/-- Links are allocated places of the heap, each for one index. -/
structure Wf (s : Service) : Prop where
  links : ∀ ifIndex link, s.links.lookup ifIndex = some link → link < s.next
  servers : ∀ link servers, s.linkServers.lookup link = some servers → link < s.next
  inj : ∀ ifIndex ifIndex' link, s.links.lookup ifIndex = some link → s.links.lookup ifIndex' = some link →
    ifIndex = ifIndex'

def HasServers (s : Service) (link : Nat) : Prop := ∃ servers, s.linkServers.lookup link = some servers

/-- One state has what the other has, but for the servers of a link. -/
structure Updates (s s' : Service) (link : Nat) : Prop where
  heap : s'.heap = s.heap
  next : s'.next = s.next
  links : s'.links = s.links
  routes : s'.defaultRouteSequence = s.defaultRouteSequence
  servers : ∀ link', link' ≠ link → (s'.HasServers link' ↔ s.HasServers link')

variable {s : Service}

theorem closeServers_updates (s : Service) (link : Nat) :
    Updates s (s.closeServers link) link ∧ ((s.closeServers link).HasServers link ↔ s.HasServers link) := by
  unfold closeServers HasServers
  cases hlookup : s.linkServers.lookup link with
  | none => exact ⟨⟨rfl, rfl, rfl, rfl, fun _ _ => Iff.rfl⟩, by simp [hlookup]⟩
  | some servers =>
    refine ⟨⟨rfl, rfl, rfl, rfl, fun link' hne => ?_⟩, ?_⟩
    · simp [HasServers, AList.lookup_insert_ne hne]
    · simp [AList.lookup_insert]

variable {link : Nat} {iif : Interface} {ifIndex : Int32} {s' : Service}

theorem updateTransports_spec (hiif : (s.heap link).iif = some iif) :
    ∃ err s', s.updateTransports link = .returned err s' ∧ Updates s s' link ∧
      (s'.HasServers link ↔ s.HasServers link ∨ (newServers (s.heap link) iif.name).isSome = true) := by
  obtain ⟨hclose, hservers⟩ := s.closeServers_updates link
  unfold updateTransports
  simp only [hclose.heap, hiif]
  cases hnew : newServers (s.heap link) iif.name with
  | none => exact ⟨_, _, rfl, hclose, by simp [hservers]⟩
  | some servers =>
    refine ⟨_, _, rfl, ⟨rfl, hclose.next, hclose.links, hclose.routes, fun link' hne => ?_⟩, ?_⟩
    · rw [← hclose.servers link' hne]
      simp [HasServers, AList.lookup_insert_ne hne]
    · simp [HasServers, AList.lookup_insert]

theorem getLink_cases (s : Service) (byIndex : Finder) (ifIndex : Int32) :
    (∃ link, s.links.lookup ifIndex = some link ∧ s.getLink byIndex ifIndex = (some link, s)) ∨
    (s.links.lookup ifIndex = none ∧ byIndex ifIndex = none ∧
      s.getLink byIndex ifIndex = (none, s.register ifIndex {})) ∨
    (∃ iif, s.links.lookup ifIndex = none ∧ byIndex ifIndex = some iif ∧
      s.getLink byIndex ifIndex = (some s.next, s.register ifIndex { iif := some iif })) := by
  unfold getLink
  cases hlookup : s.links.lookup ifIndex with
  | some link => exact .inl ⟨link, rfl, rfl⟩
  | none =>
    cases hfind : byIndex ifIndex with
    | none => exact .inr (.inl ⟨rfl, rfl, rfl⟩)
    | some iif =>
      refine .inr (.inr ⟨iif, rfl, rfl, ?_⟩)
      simp [register]

theorem apply_iif (l : TransportLink) (setting : Setting) : (setting.apply l).iif = l.iif := by
  cases setting with
  | dnsOverTLS dotMode =>
    simp only [Setting.apply]
    split
    · rfl
    · split <;> rfl
  | _ => rfl

theorem mem_sequence {setting : Setting} {ifIndex' : Int32} {routes : List Int32}
    (h : ifIndex' ∈ setting.sequence ifIndex routes) : ifIndex' = ifIndex ∨ ifIndex' ∈ routes := by
  cases setting with
  | defaultRoute value =>
    cases value with
    | false => exact .inr (mem_of_mem_filter h)
    | true =>
      rcases mem_append.1 h with h | h
      · exact .inr (mem_of_mem_filter h)
      · exact .inl (mem_singleton.1 h)
  | _ => exact .inr h

/-- A registered link, with everything consistent but for its servers. -/
structure Registered (s : Service) (ifIndex : Int32) (link : Nat) : Prop where
  lookup : s.links.lookup ifIndex = some link
  iif : ∀ ifIndex link, s.links.lookup ifIndex = some link → (s.heap link).iif ≠ none
  routes : ∀ ifIndex ∈ s.defaultRouteSequence, ∃ link, s.links.lookup ifIndex = some link
  servers : ∀ link', link' ≠ link → (s.HasServers link' ↔ ∃ ifIndex, s.links.lookup ifIndex = some link')

theorem Consistent.registered (h : s.Consistent)
    (hlink : s.links.lookup ifIndex = some link) : s.Registered ifIndex link :=
  ⟨hlink, h.iif, h.routes, fun link' _ => h.servers link'⟩

theorem lookup_register (s : Service) (ifIndex ifIndex' : Int32) (l : TransportLink) :
    (s.register ifIndex l).links.lookup ifIndex' = if ifIndex' = ifIndex then some s.next else s.links.lookup ifIndex' :=
  lookup_insert_eq s.links ifIndex ifIndex' s.next

theorem heap_register (s : Service) (ifIndex : Int32) (l : TransportLink) : (s.register ifIndex l).heap s.next = l :=
  update_self ..

theorem Wf.register (hwf : s.Wf) (l : TransportLink) : (s.register ifIndex l).Wf := by
  have hlt : ∀ ifIndex' link, (s.register ifIndex l).links.lookup ifIndex' = some link → link < s.next + 1 := by
    intro ifIndex' link hlookup
    rw [lookup_register] at hlookup
    split at hlookup
    · cases hlookup
      exact Nat.lt_succ_self _
    · exact Nat.lt_succ_of_lt (hwf.links ifIndex' link hlookup)
  refine ⟨hlt, fun link servers hlookup => Nat.lt_succ_of_lt (hwf.servers link servers hlookup), ?_⟩
  intro i j link hi hj
  rw [lookup_register] at hi hj
  -- the new place is none of the old ones
  have hfresh : ∀ k, s.links.lookup k ≠ some s.next := fun k hk => (lt_irrefl _ (hwf.links k _ hk))
  split at hi
  · rename_i heq
    cases hi
    split at hj
    · rename_i heq'
      rw [heq, heq']
    · exact absurd hj (hfresh j)
  · split at hj
    · cases hj
      exact absurd hi (hfresh i)
    · exact hwf.inj i j link hi hj

theorem Consistent.register (h : s.Consistent) (hwf : s.Wf)
    (hnone : s.links.lookup ifIndex = none) {l : TransportLink} (hl : l.iif ≠ none) :
    (s.register ifIndex l).Registered ifIndex s.next ∧ ¬ (s.register ifIndex l).HasServers s.next := by
  refine ⟨⟨?_, ?_, ?_, ?_⟩, ?_⟩
  · rw [lookup_register, if_pos rfl]
  · intro i link hlookup
    rw [lookup_register] at hlookup
    split at hlookup
    · cases hlookup
      change (update s.heap s.next l s.next).iif ≠ none
      rwa [update_self]
    · have hne : link ≠ s.next := ne_of_lt (hwf.links i link hlookup)
      change (update s.heap s.next l link).iif ≠ none
      rw [update_of_ne hne]
      exact h.iif i link hlookup
  · intro i hi
    obtain ⟨link, hlookup⟩ := h.routes i hi
    rw [lookup_register]
    split
    · exact ⟨_, rfl⟩
    · exact ⟨link, hlookup⟩
  · intro link hne
    refine (h.servers link).trans (exists_congr fun i => ?_)
    rw [lookup_register]
    split
    · rename_i heq
      rw [heq, hnone]
      exact ⟨nofun, fun heq => absurd (some.inj heq).symm hne⟩
    · rfl
  · rintro ⟨servers, hlookup⟩
    exact lt_irrefl _ (hwf.servers s.next servers hlookup)

/-- A link that is set has servers if it had some or can be given them, and then all is
consistent. -/
theorem Registered.set (h : s.Registered ifIndex link) (setting : Setting) (hiif : (s.heap link).iif = some iif) :
    ∃ err s', (s.setAt link ifIndex setting).updateTransports link = .returned err s' ∧ s'.links = s.links ∧
      s'.next = s.next ∧ (∀ link', link' ≠ link → (s'.HasServers link' ↔ s.HasServers link')) ∧
      (s'.HasServers link ↔ s.HasServers link ∨ (newServers (setting.apply (s.heap link)) iif.name).isSome = true) ∧
      (s'.Consistent ↔ s'.HasServers link) := by
  have hheap : (s.setAt link ifIndex setting).heap link = setting.apply (s.heap link) := update_self ..
  have hiif' : ((s.setAt link ifIndex setting).heap link).iif = some iif := by rw [hheap, apply_iif, hiif]
  obtain ⟨err, s', heq, hupdates, hservers⟩ := updateTransports_spec hiif'
  rw [hheap] at hservers
  have hlinks : s'.links = s.links := hupdates.links
  refine ⟨err, s', heq, hlinks, hupdates.next, hupdates.servers, hservers, ?_⟩
  constructor
  · intro hconsistent
    exact (hconsistent.servers link).2 ⟨ifIndex, hlinks ▸ h.lookup⟩
  · intro hhas
    refine ⟨fun i l hlookup => ?_, fun i hi => ?_, fun l => ?_⟩
    · rw [hlinks] at hlookup
      rw [hupdates.heap]
      by_cases hl : l = link
      · rw [hl, hheap, apply_iif, hiif]
        exact nofun
      · change (update s.heap link _ l).iif ≠ none
        rw [update_of_ne hl]
        exact h.iif i l hlookup
    · rw [hupdates.routes] at hi
      rw [hlinks]
      rcases mem_sequence hi with rfl | hi
      · exact ⟨link, h.lookup⟩
      · exact h.routes i hi
    · rw [hlinks]
      by_cases hl : l = link
      · rw [hl]
        exact ⟨fun _ => ⟨ifIndex, h.lookup⟩, fun _ => hhas⟩
      · exact (hupdates.servers l hl).trans (h.servers l hl)

theorem not_consistent_register (s : Service) (ifIndex : Int32) : ¬ (s.register ifIndex {}).Consistent := by
  intro hconsistent
  refine hconsistent.iif ifIndex s.next (by rw [lookup_register, if_pos rfl]) ?_
  change (update s.heap s.next {} s.next).iif = none
  rw [update_self]

theorem setLink_eq {byIndex : Finder} {setting : Setting} (hget : s.getLink byIndex ifIndex = (some link, s'))
    (hiif : (s'.heap link).iif = some iif) :
    s.setLink byIndex ifIndex setting = (s'.setAt link ifIndex setting).updateTransports link := by
  have hiif' : ((s'.setAt link ifIndex setting).heap link).iif = some iif := by
    change (update s'.heap link _ link).iif = some iif
    rw [update_self, apply_iif, hiif]
  simp only [setLink, hget, hiif']

theorem Wf.of_servers (hwf : s.Wf) (hlinks : s'.links = s.links) (hnext : s'.next = s.next)
    (hservers : ∀ link, s'.HasServers link → link < s.next) : s'.Wf := by
  refine ⟨?_, ?_, ?_⟩
  · rw [hlinks, hnext]
    exact hwf.links
  · rw [hnext]
    exact fun link servers hlookup => hservers link ⟨servers, hlookup⟩
  · rw [hlinks]
    exact hwf.inj

theorem Wf.set (hwf : s.Wf) (hlookup : s.links.lookup ifIndex = some link)
    (hlinks : s'.links = s.links) (hnext : s'.next = s.next)
    (hservers : ∀ link', link' ≠ link → (s'.HasServers link' ↔ s.HasServers link')) : s'.Wf := by
  refine hwf.of_servers hlinks hnext fun link' hhas => ?_
  by_cases heq : link' = link
  · rw [heq]
    exact hwf.links ifIndex link hlookup
  · obtain ⟨servers, hlookup'⟩ := (hservers link' heq).1 hhas
    exact hwf.servers link' servers hlookup'

/-- A call that sets something keeps the servers there are, and leaves all consistent if
and only if it is careful. -/
theorem Consistent.setLink (h : s.Consistent) (hwf : s.Wf) (byIndex : Finder) (ifIndex : Int32) (setting : Setting) :
    ∃ err s', s.setLink byIndex ifIndex setting = .returned err s' ∧ s'.Wf ∧
      (∀ link, s.HasServers link → s'.HasServers link) ∧
      (s'.Consistent ↔ s.Careful (.set byIndex ifIndex setting)) := by
  rcases s.getLink_cases byIndex ifIndex with ⟨link, hlookup, hget⟩ | ⟨hnone, hfind, hget⟩ | ⟨iif, hnone, hfind, hget⟩
  · obtain ⟨iif, hiif⟩ := ne_none_iff_exists'.1 (h.iif ifIndex link hlookup)
    obtain ⟨err, s', heq, hlinks, hnext, hother, hservers, hconsistent⟩ := (h.registered hlookup).set setting hiif
    have hhas : s.HasServers link := (h.servers link).2 ⟨ifIndex, hlookup⟩
    refine ⟨err, s', (setLink_eq hget hiif).trans heq, hwf.set hlookup hlinks hnext hother, fun link' hhas' => ?_, ?_⟩
    · by_cases hl : link' = link
      · rw [hl]
        exact hservers.2 (.inl hhas)
      · exact (hother link' hl).2 hhas'
    · rw [hconsistent, hservers]
      refine ⟨fun _ hnone => ?_, fun _ => .inl hhas⟩
      rw [hlookup] at hnone
      cases hnone
  · refine ⟨some .noInterface, s.register ifIndex {}, ?_, hwf.register {}, fun _ hhas => hhas, ?_⟩
    · simp only [Service.setLink, hget]
    · refine ⟨fun hconsistent => absurd hconsistent (s.not_consistent_register ifIndex), fun hcareful => ?_⟩
      obtain ⟨iif, hiif, -⟩ := hcareful hnone
      rw [hfind] at hiif
      cases hiif
  · obtain ⟨hregistered, hno⟩ := h.register hwf hnone (l := { iif := some iif }) nofun
    have hiif : ((s.register ifIndex { iif := some iif }).heap s.next).iif = some iif := by rw [heap_register]
    obtain ⟨err, s', heq, hlinks, hnext, hother, hservers, hconsistent⟩ := hregistered.set setting hiif
    rw [heap_register] at hservers
    refine ⟨err, s', (setLink_eq hget hiif).trans heq, (hwf.register _).set hregistered.lookup hlinks hnext hother,
      fun link' hhas => ?_, ?_⟩
    · have hl : link' ≠ s.next := by
        rintro rfl
        exact hno hhas
      exact (hother link' hl).2 hhas
    · rw [hconsistent, hservers]
      constructor
      · rintro (hhas | hnew) _
        · exact absurd hhas hno
        · exact ⟨iif, hfind, hnew⟩
      · intro hcareful
        obtain ⟨iif', hfind', hnew⟩ := hcareful hnone
        rw [hfind] at hfind'
        cases hfind'
        exact .inr hnew

/-- `RevertLink` leaves servers of a link that is not registered, or a link without an
interface. -/
theorem Consistent.revertLink (h : s.Consistent) (hwf : s.Wf) (byIndex : Finder) (ifIndex : Int32) :
    ∃ err s', s.revertLink byIndex ifIndex = .returned err s' ∧ ¬ s'.Consistent := by
  -- the link of the index is removed, and has servers
  have hremoved : ∀ {s₁ : Service} {link : Nat} {iif : Interface}, s₁.Wf → s₁.links.lookup ifIndex = some link →
      (s₁.heap link).iif = some iif → (s₁.HasServers link ∨ (newServers (s₁.heap link) iif.name).isSome = true) →
      ∃ err s', ({ s₁ with links := s₁.links.erase ifIndex }).updateTransports link = .returned err s' ∧
        ¬ s'.Consistent := by
    intro s₁ link iif hwf₁ hlookup hiif hhas
    obtain ⟨err, s', heq, hupdates, hservers⟩ :=
      updateTransports_spec (s := { s₁ with links := s₁.links.erase ifIndex }) hiif
    refine ⟨err, s', heq, fun hconsistent => ?_⟩
    obtain ⟨i, hi⟩ := (hconsistent.servers link).1 (hservers.2 hhas)
    rw [hupdates.links] at hi
    have hi' := lookup_of_erase hi
    rw [hwf₁.inj i ifIndex link hi' hlookup, AList.lookup_erase] at hi
    cases hi
  rcases s.getLink_cases byIndex ifIndex with ⟨link, hlookup, hget⟩ | ⟨hnone, hfind, hget⟩ | ⟨iif, hnone, hfind, hget⟩
  · obtain ⟨iif, hiif⟩ := ne_none_iff_exists'.1 (h.iif ifIndex link hlookup)
    obtain ⟨err, s', heq, hnot⟩ := hremoved hwf hlookup hiif (.inl ((h.servers link).2 ⟨ifIndex, hlookup⟩))
    refine ⟨err, s', ?_, hnot⟩
    simp only [Service.revertLink, hget, hiif]
    exact heq
  · refine ⟨some .noInterface, _, ?_, s.not_consistent_register ifIndex⟩
    simp only [Service.revertLink, hget]
  · have hiif : ((s.register ifIndex { iif := some iif }).heap s.next).iif = some iif := by rw [heap_register]
    have hlookup : (s.register ifIndex { iif := some iif }).links.lookup ifIndex = some s.next := by
      rw [lookup_register, if_pos rfl]
    obtain ⟨err, s', heq, hnot⟩ := hremoved (hwf.register _) hlookup hiif (.inr (by rw [heap_register]; rfl))
    refine ⟨err, s', ?_, hnot⟩
    simp only [Service.revertLink, hget, hiif]
    exact heq

/-! ## Network updates -/

theorem foldl_deleteTransport (entries : List (Int32 × Nat)) (s : Service) :
    ∃ routes servers, entries.foldl (fun s entry =>
        ({ s with defaultRouteSequence := s.defaultRouteSequence.filter (· ≠ entry.1) }).deleteTransport entry.2) s =
          { s with defaultRouteSequence := routes, linkServers := servers } ∧
      (∀ i, i ∈ routes ↔ i ∈ s.defaultRouteSequence ∧ i ∉ entries.map Prod.fst) ∧
      ∀ link, servers.lookup link = if link ∈ entries.map Prod.snd then none else s.linkServers.lookup link := by
  induction entries generalizing s with
  | nil => exact ⟨_, _, rfl, by simp, by simp⟩
  | cons entry entries ih =>
    obtain ⟨routes, servers, heq, hroutes, hservers⟩ :=
      ih (({ s with defaultRouteSequence := s.defaultRouteSequence.filter (· ≠ entry.1) }).deleteTransport entry.2)
    refine ⟨routes, servers, heq, fun i => ?_, fun link => ?_⟩
    · rw [hroutes]
      change i ∈ s.defaultRouteSequence.filter _ ∧ _ ↔ _
      simp [and_assoc]
    · rw [hservers]
      change (if _ then none else (s.linkServers.erase entry.2).lookup link) = _
      rw [lookup_erase_eq]
      simp only [map_cons, mem_cons]
      by_cases hentry : link = entry.2
      · simp only [hentry, if_true, true_or, ite_self]
      · simp only [hentry, if_false, false_or]

theorem foldl_deleteLink (deleteIfIndex : List Int32) (s : Service) :
    ∃ links, deleteIfIndex.foldl (fun s ifIndex => { s with links := s.links.erase ifIndex }) s = { s with links } ∧
      ∀ i, links.lookup i = if i ∈ deleteIfIndex then none else s.links.lookup i := by
  induction deleteIfIndex generalizing s with
  | nil => exact ⟨_, rfl, by simp⟩
  | cons ifIndex deleteIfIndex ih =>
    obtain ⟨links, heq, hlinks⟩ := ih { s with links := s.links.erase ifIndex }
    refine ⟨links, heq, fun i => ?_⟩
    rw [hlinks]
    rw [lookup_erase_eq]
    by_cases hi : i = ifIndex
    · simp [hi]
    · simp [hi]

/-- A network update removes exactly the links whose interface is gone, but the servers
and the default routes of all. -/
theorem onNetworkUpdate_spec (s : Service) (byIndex : Finder) (order : List Int32) :
    let s' := s.onNetworkUpdate byIndex order
    s'.heap = s.heap ∧ s'.next = s.next ∧
    (∀ i link, s'.links.lookup i = some link ↔ s.links.lookup i = some link ∧ s.gone byIndex (i, link) = false) ∧
    (∀ i, i ∈ s'.defaultRouteSequence ↔ i ∈ s.defaultRouteSequence ∧ s.links.lookup i = none) ∧
    ∀ link, s'.HasServers link ↔
      s.HasServers link ∧ ¬ ∃ i, s.links.lookup i = some link := by
  obtain ⟨routes, servers, hfirst, hroutes, hservers⟩ := foldl_deleteTransport (s.links.range order) s
  obtain ⟨links, hsecond, hlinks⟩ := foldl_deleteLink
    (((s.links.range order).filter (s.gone byIndex)).map fst)
    { s with defaultRouteSequence := routes, linkServers := servers }
  have heq : s.onNetworkUpdate byIndex order =
      { s with defaultRouteSequence := routes, linkServers := servers, links } := by
    unfold onNetworkUpdate
    simp only [hfirst, hsecond]
  have hkey : ∀ i, i ∈ (s.links.range order).map fst ↔ ∃ link, s.links.lookup i = some link := by
    intro i
    simp [GoMap.mem_range]
  have hvalue : ∀ link, link ∈ (s.links.range order).map snd ↔ ∃ i, s.links.lookup i = some link := by
    intro link
    simp [GoMap.mem_range]
  rw [heq]
  refine ⟨rfl, rfl, fun i link => ?_, fun i => ?_, fun link => ?_⟩
  · change links.lookup i = some link ↔ _
    rw [hlinks]
    cases hlookup : s.links.lookup i with
    | none => simp
    | some link' =>
      have hdelete : i ∈ ((s.links.range order).filter (s.gone byIndex)).map fst ↔
          s.gone byIndex (i, link') = true := by
        simp [GoMap.mem_range, hlookup]
      simp only [hdelete]
      constructor
      · intro hsome
        split at hsome
        · cases hsome
        · rename_i hgone
          cases hsome
          exact ⟨rfl, Bool.eq_false_of_not_eq_true hgone⟩
      · rintro ⟨⟨⟩, hgone⟩
        rw [if_neg (by rw [hgone]; exact Bool.false_ne_true)]
  · refine (hroutes i).trans (and_congr_right fun _ => ?_)
    rw [hkey, ← ne_none_iff_exists', not_not]
  · unfold HasServers
    rw [hservers, ← hvalue]
    split
    · rename_i hmem
      simp only [hmem, not_true_eq_false, and_false, iff_false]
      rintro ⟨_, ⟨⟩⟩
    · rename_i hmem
      simp [hmem]

theorem Consistent.onNetworkUpdate (h : s.Consistent) (hwf : s.Wf) (byIndex : Finder) (order : List Int32) :
    (s.onNetworkUpdate byIndex order).Wf ∧
      ((s.onNetworkUpdate byIndex order).Consistent ↔ s.Careful (.update byIndex order)) := by
  obtain ⟨hheap, hnext, hlinks, hroutes, hservers⟩ := s.onNetworkUpdate_spec byIndex order
  refine ⟨⟨?_, ?_, ?_⟩, ?_⟩
  · intro i link hlookup
    rw [hnext]
    exact hwf.links i link ((hlinks i link).1 hlookup).1
  · intro link servers hlookup
    rw [hnext]
    obtain ⟨⟨servers', hlookup'⟩, -⟩ := (hservers link).1 ⟨servers, hlookup⟩
    exact hwf.servers link servers' hlookup'
  · intro i j link hi hj
    exact hwf.inj i j link ((hlinks i link).1 hi).1 ((hlinks j link).1 hj).1
  · -- a link that stays has no servers
    constructor
    · intro hconsistent i link hlookup
      by_contra hgone
      have hkept := (hlinks i link).2 ⟨hlookup, Bool.eq_false_of_not_eq_true hgone⟩
      exact ((hservers link).1 ((hconsistent.servers link).2 ⟨i, hkept⟩)).2 ⟨i, hlookup⟩
    · intro hgone
      have hnone : ∀ i link, ¬ (s.onNetworkUpdate byIndex order).links.lookup i = some link := by
        intro i link hlookup
        obtain ⟨hold, hkept⟩ := (hlinks i link).1 hlookup
        rw [hgone i link hold] at hkept
        cases hkept
      refine ⟨fun i link hlookup => absurd hlookup (hnone i link), fun i hi => ?_, fun link => ?_⟩
      · obtain ⟨hi, hlookup⟩ := (hroutes i).1 hi
        obtain ⟨link, hlink⟩ := h.routes i hi
        rw [hlookup] at hlink
        cases hlink
      · constructor
        · intro hhas
          obtain ⟨hhas, hno⟩ := (hservers link).1 hhas
          exact absurd ((h.servers link).1 hhas) hno
        · rintro ⟨i, hlookup⟩
          exact absurd hlookup (hnone i link)

/-! ## Results -/

theorem Consistent.step (h : s.Consistent) (hwf : s.Wf) (op : Op) :
    ∃ err s', s.step op = .returned err s' ∧ (s'.Consistent ↔ s.Careful op) ∧ (s.Careful op → s'.Wf) := by
  cases op with
  | set byIndex ifIndex setting =>
    obtain ⟨err, s', heq, hwf', -, hiff⟩ := h.setLink hwf byIndex ifIndex setting
    exact ⟨err, s', heq, hiff, fun _ => hwf'⟩
  | revert byIndex ifIndex =>
    obtain ⟨err, s', heq, hnot⟩ := h.revertLink hwf byIndex ifIndex
    exact ⟨err, s', heq, ⟨fun hconsistent => hnot hconsistent, False.elim⟩, False.elim⟩
  | update byIndex order =>
    obtain ⟨hwf', hiff⟩ := h.onNetworkUpdate hwf byIndex order
    exact ⟨none, _, rfl, hiff, fun _ => hwf'⟩

theorem Consistent.after (h : s.Consistent ∧ s.Wf) {op : Op} (hop : s.Careful op)
    (hstep : (s.step op).after? = some s') : s'.Consistent ∧ s'.Wf := by
  obtain ⟨err, s'', heq, hiff, hwf⟩ := h.1.step h.2 op
  rw [heq] at hstep
  cases hstep
  exact ⟨hiff.2 hop, hwf hop⟩

theorem Consistent.of_reach (h : Reach system (fun s op => s.Careful op) s) : s.Consistent ∧ s.Wf := by
  refine Reach.inv (fun s => s.Consistent ∧ s.Wf) ?_ ?_ h
  · rintro _ rfl
    refine ⟨⟨nofun, nofun, fun link => ⟨?_, ?_⟩⟩, ⟨nofun, nofun, nofun⟩⟩
    · rintro ⟨_, ⟨⟩⟩
    · rintro ⟨_, ⟨⟩⟩
  · intro s op s' hs hop hstep
    exact Consistent.after hs hop hstep

theorem Consistent.defaultLink (h : s.Consistent) {routes : List Int32} (hroutes : ∀ i ∈ routes, i ∈ s.defaultRouteSequence)
    {selected : Option Nat} (hselected : ∀ link, selected = some link → ∃ i, s.links.lookup i = some link) :
    ∃ result, s.defaultLink routes selected = some result ∧
      ∀ link, result = some link → ∃ i, s.links.lookup i = some link := by
  induction routes generalizing selected with
  | nil => exact ⟨selected, rfl, hselected⟩
  | cons ifIndex routes ih =>
    obtain ⟨link, hlookup⟩ := h.routes ifIndex (hroutes ifIndex (.head _))
    have hlink : ∀ link', some link = some link' → ∃ i, s.links.lookup i = some link' := by
      rintro _ ⟨⟩
      exact ⟨ifIndex, hlookup⟩
    simp only [Service.defaultLink, hlookup]
    split
    · exact ih (fun i hi => hroutes i (.tail _ hi)) hlink
    · exact ⟨some link, rfl, hlink⟩

theorem Consistent.selectLink (h : s.Consistent) (acceptDefaultResolvers : Bool) (order : List Int32) (name : String) :
    ∃ result, s.selectLink acceptDefaultResolvers order name = some result ∧
      ∀ link, result = some link → ∃ i, s.links.lookup i = some link := by
  have hselected : ∀ link, (s.links.range order).foldl (fun selected entry =>
      if (s.heap entry.2).domain.any (matchesDomain acceptDefaultResolvers name) then some entry.2 else selected)
        none = some link → ∃ i, s.links.lookup i = some link := by
    intro link hlink
    rw [foldl_overwrite (fun entry : Int32 × Nat =>
      (s.heap entry.2).domain.any (matchesDomain acceptDefaultResolvers name)) snd] at hlink
    obtain ⟨⟨ifIndex, _⟩, hfind, rfl⟩ := map_eq_some_iff.1 hlink
    have hmem := mem_reverse.1 (mem_of_find?_eq_some hfind)
    exact ⟨ifIndex, mem_range.1 hmem⟩
  unfold Service.selectLink
  simp only
  split
  · exact h.defaultLink (fun i hi => mem_reverse.1 hi) nofun
  · exact ⟨_, rfl, hselected⟩

/-- Neither a missing link nor missing servers are followed while no network update
comes between the selection of the link and the lookup of its servers. -/
theorem Consistent.exchange (h : s.Consistent) (hwf : s.Wf) {t : Service}
    (ht : Reach s.after (fun s op => s.Careful op ∧ ∀ byIndex order, op ≠ .update byIndex order) t)
    (acceptDefaultResolvers : Bool) (order : List Int32) (name : String) :
    s.exchange t acceptDefaultResolvers order name ≠ .panic := by
  have hkeeps : (t.Consistent ∧ t.Wf) ∧ ∀ link, s.HasServers link → t.HasServers link := by
    refine Reach.inv (fun t => (t.Consistent ∧ t.Wf) ∧ ∀ link, s.HasServers link → t.HasServers link) ?_ ?_ ht
    · rintro _ rfl
      exact ⟨⟨h, hwf⟩, fun _ hhas => hhas⟩
    · rintro t op t' ⟨htc, hhas⟩ ⟨hop, hupdate⟩ hstep
      refine ⟨Consistent.after htc hop hstep, fun link hs => ?_⟩
      cases op with
      | set byIndex ifIndex setting =>
        obtain ⟨err, t'', heq, -, hservers, -⟩ := htc.1.setLink htc.2 byIndex ifIndex setting
        change (t.setLink byIndex ifIndex setting).after? = some t' at hstep
        rw [heq] at hstep
        cases hstep
        exact hservers link (hhas link hs)
      | revert byIndex ifIndex => exact hop.elim
      | update byIndex order => exact absurd rfl (hupdate byIndex order)
  obtain ⟨result, hselect, hlink⟩ := h.selectLink acceptDefaultResolvers order name
  unfold Service.exchange
  rw [hselect]
  cases result with
  | none => exact nofun
  | some link =>
    obtain ⟨servers, hservers⟩ := hkeeps.2 link ((h.servers link).2 (hlink link rfl))
    simp only [hservers]
    split
    · exact nofun
    · exact nofun

/-- In a run of careful steps all is consistent, no query follows a missing link, and a
network update drops exactly the links whose interface is gone; and any step, careful
or not, returns, and leaves all consistent if and only if it is careful. -/
theorem links_consistent (h : Reach system (fun s op => s.Careful op) s) :
    s.Consistent ∧
    (∀ t acceptDefaultResolvers order name,
      Reach s.after (fun s op => s.Careful op ∧ ∀ byIndex order, op ≠ .update byIndex order) t →
      s.exchange t acceptDefaultResolvers order name ≠ .panic) ∧
    (∀ byIndex order i link, (s.onNetworkUpdate byIndex order).links.lookup i = some link ↔
      s.links.lookup i = some link ∧ s.gone byIndex (i, link) = false) ∧
    ∀ op, ∃ err s', s.step op = .returned err s' ∧ (s'.Consistent ↔ s.Careful op) := by
  obtain ⟨hconsistent, hwf⟩ := Consistent.of_reach h
  refine ⟨hconsistent, fun t accept order name ht => hconsistent.exchange hwf ht accept order name,
    fun byIndex order => (s.onNetworkUpdate_spec byIndex order).2.2.1, fun op => ?_⟩
  obtain ⟨err, s', heq, hiff, -⟩ := hconsistent.step hwf op
  exact ⟨err, s', heq, hiff⟩

def sampleFinder : Finder := fun ifIndex => if ifIndex = 2 then some ⟨7, "eth0"⟩ else none

def sampleDNS : Setting := .dns [⟨[10, 0, 0, 1]⟩]

def run (ops : List Op) : Service := ops.foldl (fun s op => (s.step op).after?.getD s) {}

theorem reach_run {ok : Service → Op → Prop} {ops : List Op}
    (h : Allowed (fun s op => (s.step op).after?.getD s) (fun s op => ok s op ∧ (s.step op).after?.isSome = true) {} ops) :
    Reach system ok (run ops) := by
  have hinit : Reach system ok {} := .init rfl
  exact hinit.foldl_getD ops h

def sampleOps : List Op := [.set sampleFinder 2 sampleDNS, .set sampleFinder 2 (.defaultRoute true)]

theorem links_consistent_sample :
    (run sampleOps).links.lookup 2 = some 0 ∧ (run sampleOps).defaultRouteSequence = [2] ∧ (run sampleOps).Consistent := by
  have hreach : Reach system (fun s op => s.Careful op) (run sampleOps) :=
    reach_run ⟨⟨fun _ => ⟨_, rfl, rfl⟩, rfl⟩, ⟨nofun, rfl⟩, trivial⟩
  exact ⟨rfl, rfl, (links_consistent hreach).1⟩

/-- An interface that is not there. -/
def unknownOps : List Op := [.set sampleFinder 3 sampleDNS]

/-- A default route that is reverted. -/
def revertedOps : List Op := sampleOps ++ [.revert sampleFinder 2]

/-- An address of three bytes. -/
def invalidOps : List Op :=
  [.set sampleFinder 2 (.dns [⟨[10, 0, 1]⟩]), .set sampleFinder 2 (.defaultRoute true)]

/-- A network update after which the interface of the link with a domain is the same. -/
def updatedOps : List Op := [.set sampleFinder 2 (.domains [⟨".", false⟩]), .update sampleFinder []]

/-- An unknown interface leaves a link without one, on which the next call panics. A
reverted link stays a default route, an invalid address leaves a link without servers,
and so does a network update that keeps it: queries panic on them. -/
theorem links_inconsistent :
    (Reach system (fun _ _ => True) (run unknownOps) ∧ (run unknownOps).links.lookup 3 = some 0 ∧
      ((run unknownOps).heap 0).iif = none ∧ (run unknownOps).step (.set sampleFinder 3 sampleDNS) = .panic) ∧
    (Reach system (fun _ _ => True) (run revertedOps) ∧ (run revertedOps).links.lookup 2 = none ∧
      (run revertedOps).defaultRouteSequence = [2] ∧ ((run revertedOps).linkServers.lookup 0).isSome = true ∧
      (run revertedOps).exchange (run revertedOps) true [] "example.com." = .panic) ∧
    (Reach system (fun _ _ => True) (run invalidOps) ∧ (run invalidOps).links.lookup 2 = some 0 ∧
      (run invalidOps).linkServers.lookup 0 = none ∧
      (run invalidOps).exchange (run invalidOps) true [] "example.com." = .panic) ∧
    Reach system (fun _ _ => True) (run updatedOps) ∧ (run updatedOps).links.lookup 2 = some 0 ∧
      (run updatedOps).linkServers.lookup 0 = none ∧
      (run updatedOps).exchange (run updatedOps) true [] "example.com." = .panic := by
  refine ⟨⟨reach_run ⟨⟨trivial, rfl⟩, trivial⟩, rfl, rfl, rfl⟩,
    ⟨reach_run ⟨⟨trivial, rfl⟩, ⟨trivial, rfl⟩, ⟨trivial, rfl⟩, trivial⟩, rfl, rfl, rfl, rfl⟩,
    ⟨reach_run ⟨⟨trivial, rfl⟩, ⟨trivial, rfl⟩, trivial⟩, rfl, rfl, rfl⟩,
    reach_run ⟨⟨trivial, rfl⟩, ⟨trivial, rfl⟩, trivial⟩, rfl, rfl, ?_⟩
  rfl

end Service

end Singlink.Resolved
