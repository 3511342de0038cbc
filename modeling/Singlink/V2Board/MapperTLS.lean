import Singlink.V2Board.Mapper
/-!
# No inbound without the TLS it needs

TLS comes from the local options, from the panel, or as REALITY, and the helpers
of `mapper.go` return options, nothing or an error. An inbound whose protocol needs
TLS always has it enabled, and an inbound for which the panel asks for REALITY has
everything REALITY needs.
-/

namespace Singlink.V2Board

open Except

def TLSEnabled (tls : Option InboundTLSOptions) : Prop := ∃ tlsOptions, tls = some tlsOptions ∧ tlsOptions.enabled = true

/-- REALITY is enabled, with a server name, a private key, short IDs, and a port for
the handshake. -/
def InboundTLSOptions.RealityComplete (t : InboundTLSOptions) : Prop :=
  t.enabled = true ∧ t.serverName ≠ "" ∧
    ∃ reality, t.reality = some reality ∧ reality.enabled = true ∧ reality.privateKey ≠ "" ∧ reality.shortID ≠ [] ∧
      1 ≤ reality.serverPort.toNat ∧ reality.serverPort.toNat ≤ 65535

/-! ## The sources of TLS options -/

variable {t : InboundTLSOptions} {config : Config} {o : MapperOptions} {env : MapperEnv} {security : Int}
  {tls : Option InboundTLSOptions} {nodeType : String} {options : InboundOptions}

theorem enabled_applyPanelECH {t' : InboundTLSOptions} (h : applyPanelECH t config = .ok t') :
    t'.enabled = t.enabled := by
  unfold applyPanelECH at h
  simp only at h
  split at h
  · split at h
    · cases h
    · rw [← ok.inj h]
  split at h
  · cases h
  split at h
  · split at h
    · cases h
    · rw [← ok.inj h]
  split at h
  · cases h
  · cases h

theorem requiredTLS_enabled (h : requiredTLS config o = .ok t) : t.enabled = true := by
  unfold requiredTLS at h
  split at h
  · cases h
  cases hlocal : o.inboundTLS with
  | some tlsOptions =>
    simp only [hlocal] at h
    split at h
    · cases h
    · rename_i henabled
      rw [enabled_applyPanelECH h]
      split <;> exact Bool.eq_true_of_not_eq_false (by simpa using henabled)
  | none =>
    simp only [hlocal] at h
    cases htls : o.tls with
    | some tls =>
      simp only [htls] at h
      split at h
      · cases h
      split at h
      · exact enabled_applyPanelECH h
      split at h
      · cases h
      · exact enabled_applyPanelECH h
    | none =>
      simp only [htls] at h
      cases hvalid : validatePanelTLSCertificateSettings config with
      | error err =>
        simp only [hvalid] at h
        cases h
      | ok _ =>
        simp only [hvalid] at h
        split at h
        · cases h
        · exact enabled_applyPanelECH h

theorem parsePort_bounds {text : String} {port : UInt16} (h : parsePort text = .ok port) :
    1 ≤ port.toNat ∧ port.toNat ≤ 65535 := by
  unfold parsePort at h
  split at h
  · cases h
  cases hparse : parseUint16 text with
  | error err =>
    simp only [hparse] at h
    cases h
  | ok parsed =>
    simp only [hparse] at h
    split at h
    · cases h
    · rename_i hne
      obtain rfl := ok.inj h
      have hzero : parsed.toNat ≠ 0 := fun hzero => hne (UInt16.toNat_inj.1 hzero)
      have hlt := parsed.toNat_lt
      omega

theorem realityTLS_complete (h : realityTLS env config = .ok t) : t.RealityComplete := by
  unfold realityTLS at h
  simp only at h
  split at h
  · cases h
  split at h
  · cases h
  split at h
  · cases h
  rename_i hname
  split at h
  · cases h
  rename_i hkey
  split at h
  · cases h
  rename_i hids
  split at h
  · cases h
  rename_i port hport
  split at h
  · cases h
  cases h
  obtain ⟨hlow, hhigh⟩ := parsePort_bounds hport
  exact ⟨rfl, hname, _, rfl, rfl, hkey, hids, hlow, hhigh⟩

theorem inboundTLS_reality (h : inboundTLS env security config o = .ok tls)
    (hsecurity : security = securityREALITY) : ∃ t, tls = some t ∧ t.RealityComplete := by
  subst hsecurity
  rw [inboundTLS] at h
  cases hreality : realityTLS env config with
  | error err =>
    rw [hreality] at h
    cases h
  | ok t =>
    rw [hreality] at h
    exact ⟨t, (ok.inj h).symm, realityTLS_complete hreality⟩

theorem anyTLSTLS_spec
    (h : anyTLSTLS env config o = .ok t) : t.enabled = true ∧ (config.tls = securityREALITY → t.RealityComplete) := by
  unfold anyTLSTLS at h
  cases hsource : anyTLSSource env config o with
  | error err =>
    simp only [hsource] at h
    cases h
  | ok t' =>
    simp only [hsource] at h
    split at h
    · cases h
    · rename_i henabled
      cases h
      refine ⟨by simpa using henabled, fun hreality => ?_⟩
      rw [anyTLSSource, if_pos hreality] at hsource
      exact realityTLS_complete hsource

theorem requireTransportTLS_quic (h : requireTransportTLS nodeType (some .quic) tls = .ok ()) : TLSEnabled tls := by
  simp only [requireTransportTLS] at h
  split at h
  · rename_i hany
    obtain ⟨t, rfl, henabled⟩ := (Option.any_eq_true _ _).1 hany
    exact ⟨t, rfl, henabled⟩
  · cases h

/-! ## Every node type -/

/-- What a node type and the security value of the panel ask of the options. -/
structure Secured (nodeType : String) (security : Int) (options : InboundOptions) : Prop where
  tls : nodeType ∈ [typeTrojan, typeTUIC, typeAnyTLS, typeHysteria, typeHysteria2, typeNaive] → TLSEnabled options.tls
  quic : nodeType ∈ [typeVMess, typeVLESS] → options.transport = some .quic → TLSEnabled options.tls
  reality : nodeType ∈ [typeVMess, typeVLESS, typeAnyTLS] → security = securityREALITY →
    ∃ t, options.tls = some t ∧ t.RealityComplete

theorem enabled_ensureALPN (t : InboundTLSOptions) (protocol : String) : (ensureALPN t protocol).enabled = t.enabled := by
  unfold ensureALPN
  split <;> rfl

/-- A type that takes its TLS options from `requiredTLS` and has no other duty. -/
theorem Secured.of_required (htls : TLSEnabled options.tls)
    (hreality : nodeType ∉ [typeVMess, typeVLESS, typeAnyTLS]) : Secured nodeType security options where
  tls _ := htls
  quic _ _ := htls
  reality hmem _ := absurd hmem hreality

theorem Secured.of_plain
    (h : nodeType = typeShadowsocks ∨ nodeType = typeMieru) : Secured nodeType security options where
  tls hmem := absurd hmem (by rcases h with rfl | rfl <;> decide)
  quic hmem := absurd hmem (by rcases h with rfl | rfl <;> decide)
  reality hmem := absurd hmem (by rcases h with rfl | rfl <;> decide)

/-- vmess and vless: TLS may be missing, but not below QUIC and not for REALITY. -/
theorem Secured.of_inboundTLS {transport : Option V2RayTransportOptions}
    (htls : inboundTLS env config.tls config o = .ok tls) (hrequire : requireTransportTLS nodeType transport tls = .ok ())
    (heq : options.tls = tls) (htransport : options.transport = transport)
    (hmem : nodeType ∉ [typeTrojan, typeTUIC, typeAnyTLS, typeHysteria, typeHysteria2, typeNaive]) :
    Secured nodeType config.tls options where
  tls h := absurd h hmem
  quic _ hquic := by
    rw [← htransport, hquic] at hrequire
    rw [heq]
    exact requireTransportTLS_quic hrequire
  reality _ hsecurity := by
    rw [heq]
    exact inboundTLS_reality htls hsecurity

theorem built_secured {m : MapperInput} (h : m.Built nodeType options) : Secured nodeType m.config.tls options := by
  cases h with
  | vmess htls hrequire | vless htls hrequire => exact .of_inboundTLS htls hrequire rfl rfl (by decide)
  | shadowsocks => exact .of_plain (.inl rfl)
  | trojan htls | hysteria htls | hysteria2 htls | naive htls =>
    exact .of_required ⟨_, rfl, requiredTLS_enabled htls⟩ (by decide)
  | tuic htls =>
    exact .of_required ⟨_, rfl, (enabled_ensureALPN _ "h3").trans (requiredTLS_enabled htls)⟩ (by decide)
  | anytls htls =>
    obtain ⟨henabled, hreality⟩ := anyTLSTLS_spec htls
    exact ⟨fun _ => ⟨_, rfl, henabled⟩, fun _ _ => ⟨_, rfl, henabled⟩,
      fun _ hsecurity => ⟨_, rfl, hreality hsecurity⟩⟩
  | mieru => exact .of_plain (.inr rfl)

/-- Whatever the node config, the users, the local options and the code around
are: an inbound that `MapInbound` returns has the TLS its type, its transport and
the panel ask for. -/
theorem mapInbound_secured (env : MapperEnv) (o : MapperOptions) (brutal : Option GoError)
    (node : NodeInfo ServerSettings) (users : List UserInfo) (inbound : Inbound InboundOptions)
    (h : env.mapInbound o brutal node users = .ok inbound) :
    ∃ options, inbound.options = some options ∧
      (inbound.type ∈ [typeTrojan, typeTUIC, typeAnyTLS, typeHysteria, typeHysteria2, typeNaive] ∨
          inbound.type ∈ [typeVMess, typeVLESS] ∧ options.transport = some .quic → TLSEnabled options.tls) ∧
      (inbound.type ∈ [typeVMess, typeVLESS, typeAnyTLS] → node.common.tls = securityREALITY →
        ∃ t, options.tls = some t ∧ t.RealityComplete) := by
  obtain ⟨-, -, -, listen, options, hoptions, heq⟩ := MapperEnv.mapInbound_eq_ok h
  have hsecured := built_secured (MapperInput.built_of_typeOptions hoptions)
  refine ⟨options, heq, ?_, hsecured.reality⟩
  rintro (hmem | ⟨hmem, hquic⟩)
  · exact hsecured.tls hmem
  · exact hsecured.quic hmem hquic

def sampleReality : ServerSettings :=
  { network := "quic"
    tlsSettings := { serverName := "example.com", serverPort := "443", privateKey := "key", shortID := "0123" } }

/-- A vless node with REALITY over QUIC. -/
theorem mapInbound_secured_vless :
    ∃ inbound options,
      sampleEnv.mapInbound {} none (sampleNode "vless" securityREALITY sampleReality) [{ id := 1, uuid := "a" }] =
        .ok inbound ∧
      inbound.type = typeVLESS ∧ inbound.options = some options ∧ ∃ t, options.tls = some t ∧ t.RealityComplete := by
  have hok : (sampleEnv.mapInbound {} none (sampleNode "vless" securityREALITY sampleReality)
      [{ id := 1, uuid := "a" }] >>= fun inbound => ok inbound.type) = .ok typeVLESS := by decide +kernel
  obtain ⟨inbound, hmap, htype⟩ := exists_of_bind_ok hok
  obtain ⟨options, hoptions, -, hreality⟩ := mapInbound_secured _ _ _ _ _ _ hmap
  have htype : inbound.type = typeVLESS := ok.inj htype
  exact ⟨inbound, options, hmap, htype, hoptions, hreality (by rw [htype]; decide) rfl⟩

end Singlink.V2Board
