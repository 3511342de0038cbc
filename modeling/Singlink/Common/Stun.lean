import Mathlib.Data.List.Basic
/-!
# What STUN finds out about a NAT

`Run` asks the server where it sees the client, then asks at the other address of the
server and compares (mapping), and last has the server answer from elsewhere
(filtering). All this goes over one socket: where the mapping tests have sent to decides
too which answers of the filtering tests come through.
-/

namespace Singlink.Stun

structure AddrPort (A : Type) where
  addr : A
  port : UInt16
deriving DecidableEq

/-- `NATMapping` and `NATFiltering`, where `none` is unknown. -/
inductive Behavior
  | endpointIndependent
  | addressDependent
  | addressAndPortDependent
deriving DecidableEq

variable {A : Type} [DecidableEq A]

/-- What the behavior goes by. -/
def Behavior.view : Behavior → AddrPort A → Option (A × Option UInt16)
  | endpointIndependent, _ => none
  | addressDependent, e => some (e.addr, none)
  | addressAndPortDependent, e => some (e.addr, some e.port)

/-- A server of RFC 5780, with two addresses and two ports. -/
structure Server (A : Type) where
  addr : AddrPort A
  other : AddrPort A
  addr_ne : addr.addr ≠ other.addr
  port_ne : addr.port ≠ other.port

namespace Server

def Listens (s : Server A) (e : AddrPort A) : Prop :=
  (e.addr = s.addr.addr ∨ e.addr = s.other.addr) ∧ (e.port = s.addr.port ∨ e.port = s.other.port)

instance (s : Server A) (e : AddrPort A) : Decidable (s.Listens e) := inferInstanceAs (Decidable (_ ∧ _))

/-- Where the answer to a request to `dst` comes from, with the flags of its `CHANGE-REQUEST`. -/
def source (s : Server A) (dst : AddrPort A) (changeIP changePort : Bool) : AddrPort A where
  addr := if changeIP then (if dst.addr = s.addr.addr then s.other.addr else s.addr.addr) else dst.addr
  port := if changePort then (if dst.port = s.addr.port then s.other.port else s.addr.port) else dst.port

end Server

/-- A client behind a NAT, and the server. `external` is the address of the client as an endpoint
sees it: the same for two endpoints if and only if the mapping does not tell them apart. What a
NAT lets in depends on what was sent before, through the same mapping only or at all. -/
structure Network (A : Type) extends Server A where
  mapping : Behavior
  filtering : Behavior
  perMapping : Bool
  external : AddrPort A → AddrPort A
  external_eq_iff : ∀ d e, toServer.Listens d → toServer.Listens e →
    (external d = external e ↔ mapping.view d = mapping.view e)

structure ParsedResponse (A : Type) where
  externalAddr : AddrPort A
  otherAddr : AddrPort A

/-- `NATTypeSupported` is set whenever the server has another address. -/
structure Result (A : Type) where
  externalAddr : AddrPort A
  natMapping : Option Behavior
  natFiltering : Option Behavior

namespace Network

section
variable (n : Network A) (sent : List (AddrPort A)) (dst src : AddrPort A) (changeIP changePort : Bool)

/-- A packet from `src` to the address that the client has for `dst` comes through. -/
def Passes : Prop :=
  ∃ e ∈ sent, (n.perMapping → n.mapping.view e = n.mapping.view dst) ∧ n.filtering.view e = n.filtering.view src

instance : Decidable (n.Passes sent dst src) := inferInstanceAs (Decidable (∃ e ∈ sent, _))

def respond : Option (ParsedResponse A) :=
  if n.Listens dst ∧ n.Passes sent dst (n.source dst changeIP changePort) then
    some ⟨n.external dst, n.source dst true true⟩
  else none

/-- `roundTrip`, with the retransmissions that are left; it adds to what was sent. -/
def roundTrip : Nat → List (AddrPort A) → Option (ParsedResponse A) × List (AddrPort A)
  | retransmits, sent =>
    match n.respond (dst :: sent) dst changeIP changePort, retransmits with
    | some resp, _ => (some resp, dst :: sent)
    | none, 0 => (none, dst :: sent)
    | none, retransmits + 1 => roundTrip retransmits (dst :: sent)

def maxRetransmit : Nat := 2

def detectNATMapping (serverPort : UInt16) (externalAddr otherAddr : AddrPort A) :
    Option Behavior × List (AddrPort A) :=
  match n.roundTrip ⟨otherAddr.addr, serverPort⟩ false false maxRetransmit sent with
  | (none, sent) => (none, sent)
  | (some resp2, sent) =>
    if externalAddr = resp2.externalAddr then (some .endpointIndependent, sent)
    else
      match n.roundTrip otherAddr false false maxRetransmit sent with
      | (none, sent) => (none, sent)
      | (some resp3, sent) =>
        if resp2.externalAddr = resp3.externalAddr then (some .addressDependent, sent)
        else (some .addressAndPortDependent, sent)

def detectNATFiltering (serverAddr : AddrPort A) : Behavior :=
  let (resp2, sent) := n.roundTrip serverAddr true true maxRetransmit sent
  if resp2.isSome then .endpointIndependent
  else if (n.roundTrip serverAddr false true maxRetransmit sent).1.isSome then .addressDependent
  else .addressAndPortDependent

/-- The address of the server, with the default port. -/
def serverAddr (server : AddrPort A) : AddrPort A :=
  { server with port := if server.port = 0 then 3478 else server.port }

def run (server : AddrPort A) : Option (Result A) :=
  match n.roundTrip (serverAddr server) false false maxRetransmit [] with
  | (none, _) => none
  | (some resp, sent) =>
    let (natMapping, sent) := n.detectNATMapping sent (serverAddr server).port resp.externalAddr resp.otherAddr
    some ⟨resp.externalAddr, natMapping, n.detectNATFiltering sent (serverAddr server)⟩

end

/-! ## What the tests see -/

variable {n : Network A} {sent sent' : List (AddrPort A)} {dst : AddrPort A} {changeIP changePort : Bool}

theorem respond_congr (h : ∀ e, e ∈ sent ↔ e ∈ sent') :
    n.respond sent dst changeIP changePort = n.respond sent' dst changeIP changePort := by
  have hp : ∀ src, n.Passes sent dst src ↔ n.Passes sent' dst src := by
    simp only [Passes, h, implies_true]
  simp only [respond, hp]

/-- Sending a request again makes no difference. -/
theorem roundTrip_fst (k : Nat) :
    (n.roundTrip dst changeIP changePort k sent).1 = n.respond (dst :: sent) dst changeIP changePort := by
  fun_induction roundTrip n dst changeIP changePort k sent with
  | case1 _ _ _ h => exact h.symm
  | case2 _ h => exact h.symm
  | case3 sent _ _ ih =>
    rw [ih]
    exact respond_congr (by simp)

theorem mem_roundTrip (k : Nat) {e : AddrPort A} :
    e ∈ (n.roundTrip dst changeIP changePort k sent).2 ↔ e = dst ∨ e ∈ sent := by
  fun_induction roundTrip n dst changeIP changePort k sent with
  | case1 => simp
  | case2 => simp
  | case3 _ _ _ ih => simp [ih]

/-- The endpoint that a request went to may answer it. -/
theorem roundTrip_unchanged (hl : n.Listens dst) (k : Nat) (sent : List (AddrPort A)) :
    ∃ sent', n.roundTrip dst false false k sent = (some ⟨n.external dst, n.source dst true true⟩, sent') ∧
      ∀ e, e ∈ sent' ↔ e = dst ∨ e ∈ sent := by
  have hp : n.Passes (dst :: sent) dst (n.source dst false false) := ⟨dst, by simp, fun _ => rfl, rfl⟩
  exact ⟨_, Prod.ext (by rw [roundTrip_fst, respond, if_pos ⟨hl, hp⟩]) rfl, fun _ => mem_roundTrip k⟩

omit [DecidableEq A] in
theorem listens_addr : n.Listens n.addr := ⟨.inl rfl, .inl rfl⟩

theorem source_addr : n.source n.addr true true = n.other := by simp [Server.source]

/-- The mapping tests find the mapping; they have then sent to the other address. -/
theorem detectNATMapping_spec (sent : List (AddrPort A)) :
    ∃ sent', n.detectNATMapping sent n.addr.port (n.external n.addr) n.other = (some n.mapping, sent') ∧
      ∀ e, e ∈ sent' ↔ e = ⟨n.other.addr, n.addr.port⟩ ∨ e ∈ sent ∨
        n.mapping ≠ .endpointIndependent ∧ e = n.other := by
  have hl2 : n.Listens ⟨n.other.addr, n.addr.port⟩ := ⟨.inr rfl, .inl rfl⟩
  have hl3 : n.Listens n.other := ⟨.inr rfl, .inr rfl⟩
  obtain ⟨sent2, h2, hmem2⟩ := roundTrip_unchanged hl2 maxRetransmit sent
  obtain ⟨sent3, h3, hmem3⟩ := roundTrip_unchanged hl3 maxRetransmit sent2
  have hne := n.addr_ne
  have hpne := n.port_ne
  simp only [detectNATMapping, h2, h3, n.external_eq_iff _ _ listens_addr hl2, n.external_eq_iff _ _ hl2 hl3]
  cases n.mapping with
  | endpointIndependent => exact ⟨sent2, by simp [Behavior.view], by simp [hmem2]⟩
  | addressDependent => exact ⟨sent3, by simp [Behavior.view, hne], by grind⟩
  | addressAndPortDependent => exact ⟨sent3, by simp [Behavior.view, hne, hpne], by grind⟩

theorem detectNATFiltering_eq : n.detectNATFiltering sent n.addr =
      if n.Passes (n.addr :: sent) n.addr n.other then .endpointIndependent
      else if n.Passes (n.addr :: sent) n.addr ⟨n.addr.addr, n.other.port⟩ then .addressDependent
      else .addressAndPortDependent := by
  have hiii : n.source n.addr false true = ⟨n.addr.addr, n.other.port⟩ := by simp [Server.source]
  have hmem : ∀ e, e ∈ n.addr :: (n.roundTrip n.addr true true maxRetransmit sent).2 ↔ e ∈ n.addr :: sent := by
    simp [mem_roundTrip]
  simp only [detectNATFiltering, roundTrip_fst, respond_congr hmem]
  simp [respond, listens_addr, source_addr, hiii]

omit [DecidableEq A] in
/-- When the answers from the other address and port, and from the other port, come through. -/
theorem passes_iff (hsent : ∀ e, e ∈ sent ↔
      e = n.addr ∨ e = ⟨n.other.addr, n.addr.port⟩ ∨ n.mapping ≠ .endpointIndependent ∧ e = n.other) :
    (n.Passes sent n.addr n.other ↔ n.filtering = .endpointIndependent ∨
      (n.perMapping → n.mapping = .endpointIndependent) ∧
        (n.filtering = .addressDependent ∨ n.mapping ≠ .endpointIndependent)) ∧
    (n.Passes sent n.addr ⟨n.addr.addr, n.other.port⟩ ↔ n.filtering ≠ .addressAndPortDependent) := by
  have hne := n.addr_ne
  have hpne := n.port_ne
  simp only [Passes, hsent, or_and_right, exists_or, and_assoc, exists_eq_left, exists_and_left]
  cases n.mapping <;> cases n.filtering <;> cases n.perMapping <;> simp [Behavior.view, hne, hpne, hne.symm]

/-- The tests find the filtering too, unless they have sent to where the answers come from before. -/
theorem run_reports_iff (n : Network A) (server : AddrPort A) (hs : serverAddr server = n.addr) :
    ((n.run server).map fun r => (r.natMapping, r.natFiltering)) = some (some n.mapping, some n.filtering) ↔
      (n.filtering = .addressDependent → n.mapping ≠ .endpointIndependent ∧ n.perMapping) ∧
        (n.filtering = .addressAndPortDependent → n.mapping = .endpointIndependent ∨ n.perMapping) := by
  obtain ⟨sent1, h1, hmem1⟩ := roundTrip_unchanged n.listens_addr maxRetransmit []
  obtain ⟨sent, hmap, hmem⟩ := n.detectNATMapping_spec sent1
  have hsent : ∀ e, e ∈ n.addr :: sent ↔
      e = n.addr ∨ e = ⟨n.other.addr, n.addr.port⟩ ∨ n.mapping ≠ .endpointIndependent ∧ e = n.other := by
    grind
  simp only [run, hs, h1, source_addr, hmap, detectNATFiltering_eq, (passes_iff hsent).1, (passes_iff hsent).2,
    Option.map_some, Option.some.injEq, Prod.mk.injEq, true_and]
  have hf : n.filtering = .endpointIndependent ∨ n.filtering = .addressDependent ∨
      n.filtering = .addressAndPortDependent := by
    cases n.filtering <;> simp
  rcases hf with hf | hf | hf
  · simp [hf]
  · simp [hf, and_comm]
  · by_cases hm : n.mapping = .endpointIndependent <;> simp [hf, hm]

end Network

/-- A NAT that gives the client one external address and port. -/
def sampleNetwork (filtering : Behavior) : Network Nat where
  addr := ⟨1, 3478⟩
  other := ⟨2, 3479⟩
  addr_ne := by decide
  port_ne := by decide
  mapping := .endpointIndependent
  filtering := filtering
  perMapping := true
  external := fun _ => ⟨9, 40000⟩
  external_eq_iff := fun _ _ _ _ => by simp [Behavior.view]

theorem run_reports_iff_port :
    (((sampleNetwork .addressAndPortDependent).run ⟨1, 0⟩).map fun r => (r.natMapping, r.natFiltering)) =
      some (some .endpointIndependent, some .addressAndPortDependent) :=
  (Network.run_reports_iff (sampleNetwork .addressAndPortDependent) ⟨1, 0⟩ rfl).2 ⟨nofun, fun _ => .inl rfl⟩

/-- The client has sent to the other address in the mapping test, so the answer from there comes through. -/
theorem run_misreports_address :
    (((sampleNetwork .addressDependent).run ⟨1, 0⟩).map fun r => (r.natMapping, r.natFiltering)) =
      some (some .endpointIndependent, some .endpointIndependent) := by
  decide +kernel

end Singlink.Stun
