import Singlink.Lib.Exec
import Singlink.Lib.Codec
/-!
# Finding the server name in a ClientHello

`IndexTLSServerName` walks through a TLS record by hand and returns where the
server name stands. Lengths are `uint16` and positions `int`; the step from one
extension to the next adds 4 to a `uint16`, so it wraps for extensions of 65532
bytes and more. Then the loop stands still or falls behind its own position.
-/

namespace Singlink.TLSFragment

open Lib Lib.Exec List

abbrev Bytes := Codec.Bytes

/-! ## The code -/

def recordLayerHeaderLen : Nat := 5
def handshakeHeaderLen : Nat := 6
def randomDataLen : Nat := 32
def sessionIDHeaderLen : Nat := 1
def cipherSuiteHeaderLen : Nat := 2
def compressMethodHeaderLen : Nat := 1
def extensionsHeaderLen : Nat := 2
def extensionHeaderLen : Nat := 4
def sniExtensionHeaderLen : Nat := 5
def contentType : UInt8 := 22
def handshakeType : UInt8 := 1
def sniExtensionType : UInt16 := 0
def sniNameDNSHostnameType : UInt8 := 0
def tlsVersionBitmask : UInt16 := 0xFFFC
def tls13 : UInt16 := 0x0304

structure MyServerName where
  index : Nat
  length : Nat
  serverName : Bytes
  extensionsListLengthIndex : Nat := 0
  deriving DecidableEq

def be16 (hi lo : UInt8) : UInt16 := hi.toUInt16 <<< 8 ||| lo.toUInt16

/-- The two bytes at a position as a number. -/
def uint16At (b : Bytes) (i : Nat) : Exec UInt16 := do
  let hi ← index b i
  let lo ← index b (i + 1)
  pure (be16 hi lo)

/-- The server name in the data of a `server_name` extension at `currentIndex`. -/
def sniOf (currentIndex : Nat) (sex : Bytes) : Exec (Option MyServerName) :=
  if sex.length < sniExtensionHeaderLen then pure none
  else do
    let sniType ← index sex 2
    if sniType ≠ sniNameDNSHostnameType then pure none
    else
      let sniLen ← uint16At sex 3
      let sex ← sliceFrom sex sniExtensionHeaderLen
      if sniLen = 0 ∨ sex.length ≠ sniLen.toNat then pure none
      else pure (some
        { index := currentIndex + extensionHeaderLen + sniExtensionHeaderLen, length := sniLen.toNat, serverName := sex })

/-- The loop of `indexTLSServerNameFromExtensions`. -/
def extensionsLoop : Nat → Nat → Bytes → Exec (Option MyServerName)
  | 0, _, _ => .running
  | fuel + 1, currentIndex, exs =>
    if exs.length = 0 then pure none
    else if exs.length < extensionHeaderLen then pure none
    else do
      let exType ← uint16At exs 0
      let exLen ← uint16At exs 2
      if exs.length < extensionHeaderLen + exLen.toNat then pure none
      else
        let sex ← slice exs extensionHeaderLen (extensionHeaderLen + exLen.toNat)
        if exType = sniExtensionType then sniOf currentIndex sex
        else
          -- `exs[4+exLen:]`: the sum is a uint16
          let exs ← sliceFrom exs (4 + exLen).toNat
          extensionsLoop fuel (currentIndex + (4 + exLen.toNat)) exs

def indexTLSServerNameFromExtensions (fuel : Nat) (exs : Bytes) : Exec (Option MyServerName) :=
  if exs.length = 0 then pure none
  else if exs.length < extensionsHeaderLen then pure none
  else do
    let exsLen ← uint16At exs 0
    let exs ← sliceFrom exs extensionsHeaderLen
    if exs.length < exsLen.toNat then pure none
    else extensionsLoop fuel extensionsHeaderLen exs

def indexTLSServerNameFromHandshake (fuel : Nat) (handshake : Bytes) : Exec (Option MyServerName) :=
  if handshake.length < handshakeHeaderLen + randomDataLen + sessionIDHeaderLen then pure none
  else do
    let type ← index handshake 0
    if type ≠ handshakeType then pure none
    else
      let l₁ ← index handshake 1
      let l₂ ← index handshake 2
      let l₃ ← index handshake 3
      let body ← sliceFrom handshake 4
      if body.length ≠ l₁.toNat * 65536 + l₂.toNat * 256 + l₃.toNat then pure none
      else
        let tlsVersion ← uint16At handshake 4
        if tlsVersion &&& tlsVersionBitmask ≠ 0x0300 ∧ tlsVersion ≠ tls13 then pure none
        else
          let sessionIDLen ← index handshake 38
          let currentIndex := handshakeHeaderLen + randomDataLen + sessionIDHeaderLen + sessionIDLen.toNat
          if handshake.length < currentIndex then pure none
          else
            let cipherSuites ← sliceFrom handshake currentIndex
            if cipherSuites.length < cipherSuiteHeaderLen then pure none
            else
              let csLen ← uint16At cipherSuites 0
              if cipherSuites.length < cipherSuiteHeaderLen + csLen.toNat + compressMethodHeaderLen then pure none
              else
                let compressMethodLen ← index cipherSuites (cipherSuiteHeaderLen + csLen.toNat)
                let currentIndex := currentIndex +
                  (cipherSuiteHeaderLen + csLen.toNat + compressMethodHeaderLen + compressMethodLen.toNat)
                if handshake.length < currentIndex then pure none
                else
                  let exs ← sliceFrom handshake currentIndex
                  let serverName ← indexTLSServerNameFromExtensions fuel exs
                  pure (serverName.map fun s =>
                    { s with index := s.index + currentIndex, extensionsListLengthIndex := currentIndex })

def indexTLSServerName (fuel : Nat) (payload : Bytes) : Exec (Option MyServerName) :=
  if payload.length < recordLayerHeaderLen then pure none
  else do
    let type ← index payload 0
    if type ≠ contentType then pure none
    else
      let segmentLen ← uint16At payload 3
      if payload.length < recordLayerHeaderLen + segmentLen.toNat then pure none
      else
        let handshake ← sliceFrom payload recordLayerHeaderLen
        let serverName ← indexTLSServerNameFromHandshake fuel handshake
        pure (serverName.map fun s =>
          { s with
            index := s.index + recordLayerHeaderLen
            extensionsListLengthIndex := s.extensionsListLengthIndex + recordLayerHeaderLen })

/-! ## Numbers of two bytes -/

/-- The number of two bytes at a position that is there. -/
def word (b : Bytes) (i : Nat) : UInt16 := be16 (b.getD i 0) (b.getD (i + 1) 0)

def be16Bytes (n : Nat) : Bytes := [UInt8.ofNat (n / 256), UInt8.ofNat n]

theorem toNat_be16 (hi lo : UInt8) : (be16 hi lo).toNat = hi.toNat * 256 + lo.toNat := by
  have hhi := hi.toNat_lt
  have hlo := lo.toNat_lt
  simp only [be16, UInt16.toNat_or, UInt16.toNat_shiftLeft, UInt8.toNat_toUInt16]
  have hshift : hi.toNat <<< (UInt16.toNat 8 % 16) % 2 ^ 16 = hi.toNat <<< 8 := by
    rw [Nat.mod_eq_of_lt]
    · rfl
    · rw [show UInt16.toNat 8 % 16 = 8 from rfl]
      omega
  rw [hshift, ← Nat.shiftLeft_add_eq_or_of_lt hlo, Nat.shiftLeft_eq]

theorem be16Bytes_be16 (hi lo : UInt8) : be16Bytes (be16 hi lo).toNat = [hi, lo] := by
  have hlo := lo.toNat_lt
  have hdiv : (hi.toNat * 256 + lo.toNat) / 256 = hi.toNat := by omega
  rw [toNat_be16, be16Bytes, hdiv]
  simp only [UInt8.ofNat_toNat, cons.injEq, and_true, true_and]
  apply UInt8.toNat_inj.1
  simp

variable {n : Nat} {b : Bytes} {i : Nat} {list data : Bytes} {type : UInt16} {exs rest : Bytes}
  {currentIndex fuel : Nat} {s : MyServerName} {payload head body : Bytes}

theorem word_be16Bytes (hn : n < 65536) (rest : Bytes) : (word (be16Bytes n ++ rest) 0).toNat = n := by
  simp only [word, be16Bytes, cons_append, getD_cons_zero, getD_cons_succ, toNat_be16,
    UInt8.toNat_ofNat']
  omega

theorem uint16At_of_lt (h : i + 1 < b.length) : uint16At b i = .done (word b i) := by
  rw [uint16At, index_of_lt (Nat.lt_of_succ_lt h) 0, index_of_lt h 0]
  rfl

theorem eq_be16Bytes_append (h : 2 ≤ b.length) : b = be16Bytes (word b 0).toNat ++ b.drop 2 := by
  match b, h with
  | hi :: lo :: rest, _ => simp [word, be16Bytes_be16]

/-! ## One extension -/

/-- A server name in the data of its extension: the length of the list, the type of the name, its length and the name,
which is not empty. -/
def SniData (data name : Bytes) : Prop :=
  name ≠ [] ∧ name.length < 65536 ∧
    ∃ l₁ l₂, data = l₁ :: l₂ :: sniNameDNSHostnameType :: (be16Bytes name.length ++ name)

theorem sniOf_cases (currentIndex : Nat) (sex : Bytes) :
    sniOf currentIndex sex = .done none ∨ ∃ name, SniData sex name ∧ sniOf currentIndex sex =
      .done (some { index := currentIndex + 9, length := name.length, serverName := name }) := by
  simp only [sniOf]
  split
  · exact .inl rfl
  · rename_i hlen
    simp only [sniExtensionHeaderLen, not_lt] at hlen
    match sex, hlen with
    | l₁ :: l₂ :: type :: hi :: lo :: name, hlen =>
      simp only [index_of_lt (show 2 < (l₁ :: l₂ :: type :: hi :: lo :: name).length by simp) 0, Exec.done_bind,
        uint16At_of_lt (show 3 + 1 < (l₁ :: l₂ :: type :: hi :: lo :: name).length by simp),
        sliceFrom_of_le (show sniExtensionHeaderLen ≤ (l₁ :: l₂ :: type :: hi :: lo :: name).length by
          simp [sniExtensionHeaderLen])]
      simp only [getD_cons_succ, getD_cons_zero, word, sniExtensionHeaderLen, drop_succ_cons,
        drop_zero, extensionHeaderLen]
      split
      · exact .inl rfl
      · rename_i htype
        split
        · exact .inl rfl
        · rename_i hname
          simp only [not_or, not_not] at htype hname
          refine .inr ⟨name, ⟨?_, ?_, l₁, l₂, ?_⟩, ?_⟩
          · rintro rfl
            exact hname.1 (UInt16.toNat_inj.1 hname.2.symm)
          · rw [hname.2]
            exact UInt16.toNat_lt _
          · rw [htype, hname.2, be16Bytes_be16]
            rfl
          · rw [hname.2]
            rfl

theorem sniOf_of_data {name : Bytes} (h : SniData data name) (currentIndex : Nat) : sniOf currentIndex data =
    .done (some { index := currentIndex + 9, length := name.length, serverName := name }) := by
  obtain ⟨hne, hlt, l₁, l₂, rfl⟩ := h
  have hlen : (be16 (UInt8.ofNat (name.length / 256)) (UInt8.ofNat name.length)).toNat = name.length := by
    simp only [toNat_be16, UInt8.toNat_ofNat']
    omega
  rw [sniOf]
  apply ite_of_not (by simp [sniExtensionHeaderLen, be16Bytes])
  apply bind_of_done (a := sniNameDNSHostnameType) rfl
  apply ite_of_not (fun h => h rfl)
  apply bind_of_done (a := be16 (UInt8.ofNat (name.length / 256)) (UInt8.ofNat name.length)) rfl
  apply bind_of_done (a := name) (sliceFrom_of_le (by simp [sniExtensionHeaderLen, be16Bytes]))
  rw [hlen]
  apply ite_of_not
  · rintro (hzero | h)
    · rw [hzero] at hlen
      exact hne (length_eq_zero_iff.1 hlen.symm)
    · exact h rfl
  · rfl

theorem extensionsLoop_succ (fuel currentIndex : Nat) (exs : Bytes) : extensionsLoop (fuel + 1) currentIndex exs =
      if exs.length < 4 ∨ exs.length < 4 + (word exs 2).toNat then .done none
      else if word exs 0 = 0 then sniOf currentIndex ((exs.take (4 + (word exs 2).toNat)).drop 4)
      else extensionsLoop fuel (currentIndex + (4 + (word exs 2).toNat)) (exs.drop (4 + word exs 2).toNat) := by
  simp only [extensionsLoop, extensionHeaderLen, sniExtensionType]
  by_cases hlen : exs.length < 4
  · simp [hlen]
  · have hne : ¬exs.length = 0 := by omega
    have htype : uint16At exs 0 = .done (word exs 0) := uint16At_of_lt (by omega)
    have hexLen : uint16At exs 2 = .done (word exs 2) := uint16At_of_lt (by omega)
    simp only [hne, hlen, if_false, htype, hexLen, Exec.done_bind, false_or]
    by_cases hshort : exs.length < 4 + (word exs 2).toNat
    · simp [hshort]
    · have hwrap : (4 + word exs 2).toNat ≤ exs.length := by
        rw [UInt16.toNat_add]
        have : UInt16.toNat 4 = 4 := rfl
        omega
      have hsex : slice exs 4 (4 + (word exs 2).toNat) = .done ((exs.take (4 + (word exs 2).toNat)).drop 4) :=
        slice_of_le (by omega) (by omega)
      simp only [hshort, if_false, hsex, sliceFrom_of_le hwrap, Exec.done_bind]

/-! ## What comes before the extensions -/

/-- A ClientHello handshake message of `length` bytes, up to its extensions: the header with type, length and version,
the random data, the session ID, the cipher suites and the compression methods. -/
def HelloHead (length : Nat) (head : Bytes) : Prop :=
  ∃ (l₁ l₂ l₃ v₁ v₂ : UInt8) (random sessionID cipherSuites compressMethods : Bytes),
    length = 4 + (l₁.toNat * 65536 + l₂.toNat * 256 + l₃.toNat) ∧
      (be16 v₁ v₂ &&& tlsVersionBitmask = 0x0300 ∨ be16 v₁ v₂ = tls13) ∧
      random.length = 32 ∧ sessionID.length < 256 ∧ cipherSuites.length < 65536 ∧ compressMethods.length < 256 ∧
      head = [handshakeType, l₁, l₂, l₃, v₁, v₂] ++ (random ++ (UInt8.ofNat sessionID.length :: (sessionID ++
        (be16Bytes cipherSuites.length ++ (cipherSuites ++ (UInt8.ofNat compressMethods.length :: compressMethods))))))

theorem take_append_of_le (h : n ≤ b.length) : ∃ t, b = t ++ b.drop n ∧ t.length = n :=
  ⟨b.take n, (take_append_drop n b).symm, by simp [h]⟩

theorem counted_of_lt (h : 0 < b.length) (h' : (b.getD 0 0).toNat + 1 ≤ b.length) :
    ∃ data : Bytes, data.length < 256 ∧ data.length = (b.getD 0 0).toNat ∧
      b = UInt8.ofNat data.length :: (data ++ b.drop ((b.getD 0 0).toNat + 1)) := by
  match b, h with
  | n :: rest, _ =>
    simp only [getD_cons_zero, length_cons, add_le_add_iff_right] at h'
    refine ⟨rest.take n.toNat, ?_, ?_, ?_⟩
    · have := n.toNat_lt
      simp only [length_take]
      omega
    · simp [h']
    · simp [h']

theorem counted16_of_lt (h : 2 ≤ b.length) (h' : 2 + (word b 0).toNat ≤ b.length) :
    ∃ data : Bytes, data.length < 65536 ∧ data.length = (word b 0).toNat ∧
      b = be16Bytes data.length ++ (data ++ b.drop (2 + (word b 0).toNat)) := by
  have hlt := (word b 0).toNat_lt
  refine ⟨(b.drop 2).take (word b 0).toNat, ?_, ?_, ?_⟩
  · simp only [length_take]
    omega
  · simp only [length_take, length_drop]
    omega
  · have hlen : ((b.drop 2).take (word b 0).toNat).length = (word b 0).toNat := by
      simp only [length_take, length_drop]
      omega
    rw [hlen, ← drop_drop, take_append_drop]
    exact eq_be16Bytes_append h

theorem getD_drop (b : Bytes) (n i : Nat) : (b.drop n).getD i 0 = b.getD (n + i) 0 := by
  simp [getElem?_drop]

theorem getD_drop_zero (b : Bytes) (n : Nat) : (b.drop n).getD 0 0 = b.getD n 0 := getD_drop b n 0

theorem eq_header_append (handshake : Bytes) (h : 6 ≤ handshake.length) :
    handshake = [handshake.getD 0 0, handshake.getD 1 0, handshake.getD 2 0, handshake.getD 3 0, handshake.getD 4 0,
      handshake.getD 5 0] ++ handshake.drop 6 := by
  match handshake, h with
  | _ :: _ :: _ :: _ :: _ :: _ :: _, _ => rfl

theorem exists_helloHead {handshake : Bytes} {k m : Nat} (htype : handshake.getD 0 0 = handshakeType)
    (hlength : handshake.length = 4 + ((handshake.getD 1 0).toNat * 65536 + (handshake.getD 2 0).toNat * 256 +
      (handshake.getD 3 0).toNat))
    (hversion : word handshake 4 &&& tlsVersionBitmask = 0x0300 ∨ word handshake 4 = tls13)
    (hn : n = (handshake.getD 38 0).toNat)
    (hk : k = (word (handshake.drop (39 + n)) 0).toNat) (hm : m = (handshake.getD (39 + n + (2 + k)) 0).toNat)
    (hsuites : 39 + n + (2 + k + 1) ≤ handshake.length) (hlen : 39 + n + (2 + k + 1 + m) ≤ handshake.length) :
    ∃ head, handshake = head ++ handshake.drop (39 + n + (2 + k + 1 + m)) ∧ HelloHead handshake.length head ∧
      head.length = 39 + n + (2 + k + 1 + m) := by
  have hheader := eq_header_append handshake (by omega)
  rw [htype] at hheader
  obtain ⟨random, hrandom, hrandomLen⟩ := take_append_of_le (b := handshake.drop 6) (n := 32) (by
    rw [length_drop]
    omega)
  have hdrop : ∀ i j, (handshake.drop i).drop j = handshake.drop (i + j) := fun i j => drop_drop
  rw [hdrop] at hrandom
  obtain ⟨sessionID, hsessionLt, hsessionLen, hsession⟩ := counted_of_lt (b := handshake.drop 38)
    (by rw [length_drop]; omega) (by rw [getD_drop_zero, length_drop]; omega)
  rw [getD_drop_zero] at hsessionLen
  rw [getD_drop_zero, ← hn, hdrop] at hsession
  obtain ⟨suites, hsuitesLt, hsuitesLen, hsuites'⟩ := counted16_of_lt (b := handshake.drop (39 + n))
    (by rw [length_drop]; omega) (by rw [length_drop]; omega)
  rw [← hk, hdrop] at hsuites'
  obtain ⟨methods, hmethodsLt, hmethodsLen, hmethods⟩ := counted_of_lt (b := handshake.drop (39 + n + (2 + k)))
    (by rw [length_drop]; omega) (by rw [getD_drop_zero, length_drop]; omega)
  rw [getD_drop_zero] at hmethodsLen
  rw [getD_drop_zero, ← hm, hdrop] at hmethods
  refine ⟨_, ?_, ⟨_, _, _, _, _, random, sessionID, suites, methods, hlength, hversion, hrandomLen, hsessionLt,
    hsuitesLt, hmethodsLt, rfl⟩, ?_⟩
  · simp only [append_assoc, cons_append]
    have h₁ : 38 + (n + 1) = 39 + n := by omega
    have h₂ : 39 + n + (2 + k) + (m + 1) = 39 + n + (2 + k + 1 + m) := by omega
    rw [h₁] at hsession
    rw [h₂] at hmethods
    rw [← hmethods, ← hsuites', ← hsession, ← hrandom]
    exact hheader
  · simp only [length_append, length_cons, be16Bytes, length_nil]
    omega

/-- A function of the fuel that returns nothing, or is as `target` says. -/
def Leads (target : (Nat → Exec (Option MyServerName)) → Prop) (f : Nat → Exec (Option MyServerName)) : Prop :=
  (∀ fuel, f fuel = .done none) ∨ target f

section
variable {target : (Nat → Exec (Option MyServerName)) → Prop}

theorem Leads.ite {c : Prop} [Decidable c] {f : Nat → Exec (Option MyServerName)} (h : ¬c → Leads target f) :
    Leads target fun fuel => if c then .done none else f fuel := by
  by_cases hc : c
  · simp [Leads, hc]
  · simpa [hc] using h hc

theorem Leads.bind {α : Type} {x : Exec α} {a : α} {f : α → Nat → Exec (Option MyServerName)} (hx : x = .done a)
    (h : Leads target (f a)) : Leads target fun fuel => x >>= fun a => f a fuel := by
  rw [hx]
  exact h

end

/-- The extensions are looked at, and what is found is moved on by the head. -/
def afterHead (head exs : Bytes) (fuel : Nat) : Exec (Option MyServerName) := do
  let serverName ← indexTLSServerNameFromExtensions fuel exs
  pure (serverName.map fun s => { s with index := s.index + head.length, extensionsListLengthIndex := head.length })

/-- The handshake message has a head, and the extensions that follow are looked at. -/
def LeadsToExtensions (handshake : Bytes) (f : Nat → Exec (Option MyServerName)) : Prop :=
  ∃ head exs, handshake = head ++ exs ∧ HelloHead handshake.length head ∧ ∀ fuel, f fuel = afterHead head exs fuel

theorem helloHeaderLen_eq : handshakeHeaderLen + randomDataLen + sessionIDHeaderLen = 39 := rfl

theorem fromHandshake_leads (handshake : Bytes) :
    Leads (LeadsToExtensions handshake) (indexTLSServerNameFromHandshake · handshake) := by
  unfold indexTLSServerNameFromHandshake
  simp only [helloHeaderLen_eq, cipherSuiteHeaderLen, compressMethodHeaderLen]
  apply Leads.ite
  intro hlen
  apply Leads.bind (index_of_lt (by omega) 0)
  apply Leads.ite
  intro htype
  apply Leads.bind (index_of_lt (by omega) 0)
  apply Leads.bind (index_of_lt (by omega) 0)
  apply Leads.bind (index_of_lt (by omega) 0)
  apply Leads.bind (sliceFrom_of_le (by omega))
  apply Leads.ite
  intro hlength
  apply Leads.bind (uint16At_of_lt (by omega))
  apply Leads.ite
  intro hversion
  apply Leads.bind (index_of_lt (by omega) 0)
  apply Leads.ite
  intro hsession
  apply Leads.bind (sliceFrom_of_le (by omega))
  apply Leads.ite
  intro hsuites
  apply Leads.bind (uint16At_of_lt (by omega))
  apply Leads.ite
  intro hmethods
  apply Leads.bind (index_of_lt (by omega) 0)
  apply Leads.ite
  intro hend
  simp only [getD_drop] at hend ⊢
  apply Leads.bind (sliceFrom_of_le (by omega))
  rw [not_not, length_drop] at hlength
  rw [Decidable.not_and_iff_not_or_not, not_not, not_not] at hversion
  obtain ⟨head, hhead, hhello, hheadLen⟩ := exists_helloHead (not_not.1 htype) (by omega) hversion rfl rfl rfl (by
    omega) (not_lt.1 hend)
  refine .inr ⟨head, _, hhead, hhello, ?_⟩
  intro fuel
  rw [afterHead, hheadLen]

/-- A handshake message with a head gets to its extensions. -/
theorem fromHandshake_of_head {handshake hello : Bytes} (hhead : HelloHead handshake.length hello)
    (heq : handshake = hello ++ exs) (fuel : Nat) :
    indexTLSServerNameFromHandshake fuel handshake = afterHead hello exs fuel := by
  obtain ⟨l₁, l₂, l₃, v₁, v₂, random, sessionID, suites, methods, hlength, hversion, hrandom, hsession, hsuites, hmethods,
    rfl⟩ := hhead
  have hsessionLen : (UInt8.ofNat sessionID.length).toNat = sessionID.length := by
    simpa using hsession
  have hsuitesLen : ∀ rest : Bytes, uint16At (be16Bytes suites.length ++ rest) 0 =
      .done (be16 (UInt8.ofNat (suites.length / 256)) (UInt8.ofNat suites.length)) := fun _ => rfl
  have hsuitesNat : (be16 (UInt8.ofNat (suites.length / 256)) (UInt8.ofNat suites.length)).toNat = suites.length := by
    simp only [toNat_be16, UInt8.toNat_ofNat']
    omega
  have hmethodsLen : (UInt8.ofNat methods.length).toNat = methods.length := by
    simpa using hmethods
  have hall : handshake.length = 42 + sessionID.length + suites.length + methods.length + exs.length := by
    rw [heq]
    simp only [length_append, length_cons, be16Bytes, length_nil, hrandom]
    omega
  -- the message after each of the lengths that are read
  have hafterRandom : handshake = ([handshakeType, l₁, l₂, l₃, v₁, v₂] ++ random) ++
      (UInt8.ofNat sessionID.length :: (sessionID ++ (be16Bytes suites.length ++ (suites ++
        (UInt8.ofNat methods.length :: (methods ++ exs)))))) := by
    rw [heq]
    simp only [append_assoc, cons_append]
  have hafterSession : handshake = ([handshakeType, l₁, l₂, l₃, v₁, v₂] ++ (random ++
      (UInt8.ofNat sessionID.length :: sessionID))) ++ (be16Bytes suites.length ++ (suites ++
        (UInt8.ofNat methods.length :: (methods ++ exs)))) := by
    rw [heq]
    simp only [append_assoc, cons_append]
  rw [indexTLSServerNameFromHandshake]
  apply ite_of_not (by rw [helloHeaderLen_eq]; omega)
  apply bind_of_done (a := handshakeType) (by rw [heq]; rfl)
  apply ite_of_not (fun h => h rfl)
  apply bind_of_done (a := l₁) (by rw [heq]; rfl)
  apply bind_of_done (a := l₂) (by rw [heq]; rfl)
  apply bind_of_done (a := l₃) (by rw [heq]; rfl)
  apply bind_of_done (sliceFrom_of_le (by omega))
  apply ite_of_not (by rw [length_drop]; omega)
  apply bind_of_done (a := be16 v₁ v₂) (by rw [heq]; rfl)
  apply ite_of_not (fun h => hversion.elim h.1 h.2)
  apply bind_of_done (by
    rw [hafterRandom]
    exact index_append (by simp [hrandom]))
  rw [helloHeaderLen_eq, hsessionLen]
  apply ite_of_not (by omega)
  apply bind_of_done (by
    rw [hafterSession]
    exact sliceFrom_append (by simp [hrandom]; omega))
  apply ite_of_not (by simp [cipherSuiteHeaderLen, be16Bytes])
  apply bind_of_done (hsuitesLen _)
  rw [hsuitesNat]
  apply ite_of_not (by
    simp only [length_append, length_cons, be16Bytes, length_nil, cipherSuiteHeaderLen, compressMethodHeaderLen]
    omega)
  apply bind_of_done (by
    rw [← append_assoc]
    exact index_append (by simp [cipherSuiteHeaderLen, be16Bytes]; omega))
  rw [hmethodsLen]
  simp only [cipherSuiteHeaderLen, compressMethodHeaderLen]
  apply ite_of_not (by omega)
  have hcount : ([handshakeType, l₁, l₂, l₃, v₁, v₂] ++ (random ++ (UInt8.ofNat sessionID.length :: (sessionID ++
      (be16Bytes suites.length ++ (suites ++ (UInt8.ofNat methods.length :: methods))))))).length =
      39 + sessionID.length + (2 + suites.length + 1 + methods.length) := by
    simp only [length_append, length_cons, be16Bytes, length_nil, hrandom]
    omega
  apply bind_of_done (by
    rw [heq]
    exact sliceFrom_append hcount.symm)
  rw [afterHead, hcount]

/-- The extensions have a length, and the loop runs over all that follows it. -/
theorem fromExtensions_leads (exs : Bytes) :
    Leads (fun f => ∃ n body, exs = be16Bytes n ++ body ∧ n < 65536 ∧ n ≤ body.length ∧
      ∀ fuel, f fuel = extensionsLoop fuel 2 body) (indexTLSServerNameFromExtensions · exs) := by
  unfold indexTLSServerNameFromExtensions
  simp only [extensionsHeaderLen]
  apply Leads.ite
  intro _
  apply Leads.ite
  intro hlen
  apply Leads.bind (uint16At_of_lt (by omega))
  apply Leads.bind (sliceFrom_of_le (by omega))
  apply Leads.ite
  intro hlist
  exact .inr ⟨(word exs 0).toNat, exs.drop 2, eq_be16Bytes_append (by omega), UInt16.toNat_lt _, by omega, fun _ => rfl⟩

/-- A record with a ClientHello: what comes before the length of the extensions, that length, and what follows it. The
record may be longer than its length field says. -/
structure ClientHello (payload head : Bytes) (n : Nat) (body : Bytes) : Prop where
  payload_eq : payload = head ++ (be16Bytes n ++ body)
  head : ∃ v₁ v₂ s₁ s₂ hello, recordLayerHeaderLen + (be16 s₁ s₂).toNat ≤ payload.length ∧
    HelloHead (payload.length - recordLayerHeaderLen) hello ∧ head = [contentType, v₁, v₂, s₁, s₂] ++ hello
  length_lt : n < 65536
  length_le : n ≤ body.length

/-- The loop over the extensions, with its result moved to a position in the payload. -/
def loopOver (head body : Bytes) (fuel : Nat) : Exec (Option MyServerName) := do
  let serverName ← extensionsLoop fuel 2 body
  pure (serverName.map fun s =>
    { s with index := s.index + head.length, extensionsListLengthIndex := head.length })

def LeadsToLoop (payload : Bytes) (f : Nat → Exec (Option MyServerName)) : Prop :=
  ∃ head n body, ClientHello payload head n body ∧ ∀ fuel, f fuel = loopOver head body fuel

/-- What `IndexTLSServerName` does with what is found after the head of the handshake message. -/
theorem afterRecord {hello record : Bytes} (hrecord : record.length = recordLayerHeaderLen) (body : Bytes) (fuel : Nat) :
    ((extensionsLoop fuel 2 body >>= fun serverName => .done (serverName.map fun s =>
        { s with index := s.index + hello.length, extensionsListLengthIndex := hello.length })) >>= fun serverName =>
      .done (serverName.map fun s =>
        { s with
          index := s.index + recordLayerHeaderLen
          extensionsListLengthIndex := s.extensionsListLengthIndex + recordLayerHeaderLen })) =
      loopOver (record ++ hello) body fuel := by
  rw [loopOver]
  cases extensionsLoop fuel 2 body with
  | panic => rfl
  | running => rfl
  | done serverName =>
    cases serverName with
    | none => rfl
    | some s =>
      simp [hrecord, add_comm]
      omega

theorem fromExtensions_of_length (hle : n ≤ body.length) (hlt : n < 65536) (fuel : Nat) :
    indexTLSServerNameFromExtensions fuel (be16Bytes n ++ body) = extensionsLoop fuel 2 body := by
  rw [indexTLSServerNameFromExtensions]
  apply ite_of_not (by simp [be16Bytes])
  apply ite_of_not (by simp [be16Bytes, extensionsHeaderLen])
  apply bind_of_done (uint16At_of_lt (by simp [be16Bytes]))
  apply bind_of_done (sliceFrom_append rfl)
  rw [word_be16Bytes hlt]
  apply ite_of_not (not_lt.2 hle)
  rfl

theorem eq_record_append (payload : Bytes) (h : 5 ≤ payload.length) : payload =
    [payload.getD 0 0, payload.getD 1 0, payload.getD 2 0, payload.getD 3 0, payload.getD 4 0] ++ payload.drop 5 := by
  match payload, h with
  | _ :: _ :: _ :: _ :: _ :: _, _ => rfl

theorem indexTLSServerName_leads (payload : Bytes) : Leads (LeadsToLoop payload) (indexTLSServerName · payload) := by
  unfold indexTLSServerName
  simp only [recordLayerHeaderLen]
  apply Leads.ite
  intro hlen
  apply Leads.bind (index_of_lt (by omega) 0)
  apply Leads.ite
  intro htype
  apply Leads.bind (uint16At_of_lt (by omega))
  apply Leads.ite
  intro hsegment
  apply Leads.bind (sliceFrom_of_le (by omega))
  rcases fromHandshake_leads (payload.drop 5) with hnone | ⟨hello, exs, hhandshake, hhello, hfrom⟩
  · exact .inl fun fuel => by simp [hnone]
  rcases fromExtensions_leads exs with hnone | ⟨n, body, rfl, hlt, hle, hloop⟩
  · exact .inl fun fuel => by simp [hfrom, afterHead, hnone]
  have hrecord := eq_record_append payload (by omega)
  rw [not_not.1 htype] at hrecord
  rw [length_drop] at hhello
  refine .inr ⟨_, n, body, ⟨?_, ⟨payload.getD 1 0, payload.getD 2 0, _, _, hello, not_lt.1 hsegment, hhello, rfl⟩, hlt,
    hle⟩, ?_⟩
  · rw [append_assoc, ← hhandshake]
    exact hrecord
  · intro fuel
    rw [← afterRecord (by rfl)]
    simp only [hfrom, afterHead, hloop]
    rfl

theorem indexTLSServerName_of_hello (h : ClientHello payload head n body) (fuel : Nat) :
    indexTLSServerName fuel payload = loopOver head body fuel := by
  obtain ⟨v₁, v₂, s₁, s₂, hello, hsegment, hhello, rfl⟩ := h.head
  have heq := h.payload_eq
  have hdrop : payload.drop recordLayerHeaderLen = hello ++ (be16Bytes n ++ body) := by
    rw [heq, append_assoc]
    rfl
  have hlen : recordLayerHeaderLen ≤ payload.length := Nat.le_of_add_right_le hsegment
  rw [indexTLSServerName]
  apply ite_of_not (not_lt.2 hlen)
  apply bind_of_done (a := contentType) (by rw [heq]; rfl)
  apply ite_of_not (fun h => h rfl)
  apply bind_of_done (a := be16 s₁ s₂) (by rw [heq]; rfl)
  apply ite_of_not (not_lt.2 hsegment)
  apply bind_of_done (sliceFrom_of_le hlen)
  rw [fromHandshake_of_head (by rwa [length_drop]) hdrop, afterHead,
    fromExtensions_of_length h.length_le h.length_lt, ← afterRecord (by rfl)]
  rfl

theorem indexTLSServerName_cases (payload : Bytes) :
    (∀ fuel, indexTLSServerName fuel payload = .done none) ∨ ∃ head n body, ClientHello payload head n body ∧
      ∀ fuel, indexTLSServerName fuel payload = loopOver head body fuel :=
  indexTLSServerName_leads payload

/-! ## The list of extensions -/

/-- An extension as it stands in the list. -/
def extensionBytes (type : UInt16) (data : Bytes) : Bytes :=
  be16Bytes type.toNat ++ (be16Bytes data.length ++ data)

/-- A list of extensions has this one at offset `i`. -/
inductive ExtensionAt : Bytes → Nat → UInt16 → Bytes → Prop
  | here {type : UInt16} {data rest : Bytes} (hdata : data.length < 65536) :
      ExtensionAt (extensionBytes type data ++ rest) 0 type data
  | there {type' : UInt16} {data' rest : Bytes} {i : Nat} {type : UInt16} {data : Bytes} (hdata : data'.length < 65536)
      (h : ExtensionAt rest i type data) :
      ExtensionAt (extensionBytes type' data' ++ rest) (4 + data'.length + i) type data

@[simp] theorem length_be16Bytes (n : Nat) : (be16Bytes n).length = 2 := rfl

@[simp] theorem length_extensionBytes (type : UInt16) (data : Bytes) :
    (extensionBytes type data).length = 4 + data.length := by
  simp [extensionBytes]
  omega

theorem ExtensionAt.drop_eq (h : ExtensionAt list i type data) :
    ∃ rest, list.drop i = extensionBytes type data ++ rest := by
  induction h with
  | here hdata => exact ⟨_, rfl⟩
  | there hdata _ ih =>
    obtain ⟨rest, hrest⟩ := ih
    refine ⟨rest, ?_⟩
    rw [← drop_drop, drop_left' (by simp), hrest]

theorem ExtensionAt.length_le (h : ExtensionAt list i type data) : i + 4 + data.length ≤ list.length := by
  induction h with
  | here hdata => simp
  | there hdata _ ih =>
    rw [length_append, length_extensionBytes]
    omega

theorem ExtensionAt.take (h : ExtensionAt list i type data) :
    ∀ n, i + 4 + data.length ≤ n → ExtensionAt (list.take n) i type data := by
  induction h with
  | @here type data rest hdata =>
    intro n hn
    rw [take_append, take_of_length_le (by simp; omega)]
    exact .here hdata
  | @there type' data' rest i type data hdata _ ih =>
    intro n hn
    rw [take_append, take_of_length_le (by simp; omega)]
    exact .there hdata (ih _ (by simp; omega))

theorem eq_extensionBytes_append (hlen : 4 ≤ exs.length) (hlen' : 4 + (word exs 2).toNat ≤ exs.length) :
    ∃ data : Bytes, data.length = (word exs 2).toNat ∧ (exs.take (4 + (word exs 2).toNat)).drop 4 = data ∧
      exs = extensionBytes (word exs 0) data ++ exs.drop (4 + (word exs 2).toNat) := by
  have hword : word (exs.drop 2) 0 = word exs 2 := by simp only [word, getD_drop]
  obtain ⟨data, -, hdataLen, hdata⟩ := counted16_of_lt (b := exs.drop 2) (by rw [length_drop]; omega)
    (by rw [hword, length_drop]; omega)
  rw [hword] at hdataLen
  rw [hword, drop_drop] at hdata
  have hexs : exs = extensionBytes (word exs 0) data ++ exs.drop (4 + (word exs 2).toNat) := by
    have hsum : 2 + (2 + (word exs 2).toNat) = 4 + (word exs 2).toNat := by omega
    rw [hsum] at hdata
    rw [extensionBytes, append_assoc, append_assoc, ← hdata]
    exact eq_be16Bytes_append (by omega)
  refine ⟨data, hdataLen, ?_, hexs⟩
  generalize (word exs 2).toNat = n at hdataLen hexs ⊢
  have htake : exs.take (4 + n) = extensionBytes (word exs 0) data := by
    conv_lhs => rw [hexs]
    exact take_left' (by simp [hdataLen])
  rw [htake]
  simp [extensionBytes, be16Bytes]

/-! ## The loop -/

/-- The bytes start with this extension. -/
def Front (exs : Bytes) (type : UInt16) (data : Bytes) : Prop :=
  data.length < 65536 ∧ extensionBytes type data <+: exs

/-- The loop comes to `rest`, at offset `i`, and has counted `c` bytes. It passes every extension that is no server name;
the slice is moved on by a `uint16` and the count by an `int`. -/
inductive ComesTo : Bytes → Nat → Nat → Bytes → Prop
  | here {exs : Bytes} : ComesTo exs 0 0 exs
  | next {exs : Bytes} {type : UInt16} {data : Bytes} {i c : Nat} {rest : Bytes} (hfront : Front exs type data)
      (htype : type ≠ sniExtensionType) (h : ComesTo (exs.drop ((4 + data.length) % 65536)) i c rest) :
      ComesTo exs ((4 + data.length) % 65536 + i) (4 + data.length + c) rest

variable {c : Nat} {name : Bytes}

theorem toNat_four_add (n : UInt16) : (4 + n).toNat = (4 + n.toNat) % 65536 := by
  rfl

theorem Front.length_le (h : Front exs type data) : 4 + data.length ≤ exs.length := by
  obtain ⟨-, rest, rfl⟩ := h
  simp

theorem Front.words (h : Front exs type data) : word exs 0 = type ∧ (word exs 2).toNat = data.length := by
  obtain ⟨hlt, rest, rfl⟩ := h
  constructor
  · apply UInt16.toNat_inj.1
    rw [extensionBytes, append_assoc, word_be16Bytes type.toNat_lt]
  · have hword : word (extensionBytes type data ++ rest) 2 = word (be16Bytes data.length ++ (data ++ rest)) 0 := by
      simp [word, extensionBytes, be16Bytes]
    rw [hword, word_be16Bytes hlt]

theorem Front.data_eq (h : Front exs type data) : (exs.take (4 + data.length)).drop 4 = data := by
  obtain ⟨-, rest, rfl⟩ := h
  rw [take_left' (by simp)]
  simp [extensionBytes, be16Bytes]

theorem Front.unique {type' : UInt16} {data' : Bytes} (h : Front exs type data) (h' : Front exs type' data') :
    type = type' ∧ data = data' := by
  have hlen : data.length = data'.length := h.words.2.symm.trans h'.words.2
  refine ⟨h.words.1.symm.trans h'.words.1, ?_⟩
  rw [← h.data_eq, hlen, h'.data_eq]

theorem front_of_length (exs : Bytes) (hlen : 4 ≤ exs.length) (hlen' : 4 + (word exs 2).toNat ≤ exs.length) :
    ∃ type data, Front exs type data := by
  obtain ⟨data, hdataLen, -, hexs⟩ := eq_extensionBytes_append hlen hlen'
  exact ⟨_, data, by rw [hdataLen]; exact UInt16.toNat_lt _, _, hexs.symm⟩

theorem loop_of_front (h : Front exs type data) (fuel currentIndex : Nat) :
    extensionsLoop (fuel + 1) currentIndex exs = if type = sniExtensionType then sniOf currentIndex data
      else extensionsLoop fuel (currentIndex + (4 + data.length)) (exs.drop ((4 + data.length) % 65536)) := by
  have hle := h.length_le
  rw [extensionsLoop_succ, if_neg (by rw [h.words.2]; omega), toNat_four_add, h.words.1, h.words.2, h.data_eq]
  rfl

theorem loop_of_not_front (h : ∀ type data, ¬Front exs type data) (fuel currentIndex : Nat) :
    extensionsLoop (fuel + 1) currentIndex exs = .done none := by
  rw [extensionsLoop_succ, if_pos]
  by_contra hlen
  obtain ⟨type, data, hfront⟩ := front_of_length exs (by omega) (by omega)
  exact h type data hfront

/-- What a turn of the loop does: it ends without a name, ends with one, or passes an extension. -/
theorem loop_cases (exs : Bytes) :
    (∀ fuel currentIndex, extensionsLoop (fuel + 1) currentIndex exs = .done none) ∨
    (∃ data name, Front exs sniExtensionType data ∧ SniData data name ∧
      ∀ fuel currentIndex, extensionsLoop (fuel + 1) currentIndex exs =
        .done (some { index := currentIndex + 9, length := name.length, serverName := name })) ∨
    ∃ type data, Front exs type data ∧ type ≠ sniExtensionType ∧
      ∀ fuel currentIndex, extensionsLoop (fuel + 1) currentIndex exs =
        extensionsLoop fuel (currentIndex + (4 + data.length)) (exs.drop ((4 + data.length) % 65536)) := by
  by_cases hfront : ∃ type data, Front exs type data
  · obtain ⟨type, data, hfront⟩ := hfront
    have hloop := loop_of_front hfront
    by_cases htype : type = sniExtensionType
    · subst htype
      simp only [if_true] at hloop
      rcases sniOf_cases 0 data with hnone | ⟨name, hname, -⟩
      · left
        intro fuel currentIndex
        rw [hloop]
        rcases sniOf_cases currentIndex data with h | ⟨name, hname, -⟩
        · exact h
        · rw [sniOf_of_data hname] at hnone
          cases hnone
      · exact .inr (.inl ⟨data, name, hfront, hname, fun fuel currentIndex =>
          (hloop fuel currentIndex).trans (sniOf_of_data hname currentIndex)⟩)
    · exact .inr (.inr ⟨type, data, hfront, htype, fun fuel currentIndex => by rw [hloop, if_neg htype]⟩)
  · exact .inl (loop_of_not_front fun type data h => hfront ⟨type, data, h⟩)

theorem ComesTo.running (h : ComesTo exs i c rest)
    (hrest : ∀ fuel currentIndex, extensionsLoop fuel currentIndex rest = .running) (fuel currentIndex : Nat) :
    extensionsLoop fuel currentIndex exs = .running := by
  induction h generalizing fuel currentIndex with
  | here => exact hrest fuel currentIndex
  | next hfront htype _ ih =>
    cases fuel with
    | zero => rfl
    | succ fuel =>
      rw [loop_of_front hfront, if_neg htype]
      exact ih hrest fuel _

/-- An extension of 65532 bytes: the loop stays where it is. -/
theorem loop_running (hfront : Front exs type data) (htype : type ≠ sniExtensionType) (hlen : data.length = 65532)
    (fuel currentIndex : Nat) : extensionsLoop fuel currentIndex exs = .running := by
  induction fuel generalizing currentIndex with
  | zero => rfl
  | succ fuel ih =>
    rw [loop_of_front hfront, if_neg htype, hlen]
    exact ih _

/-- No extension that the loop comes to has 65532 bytes. -/
def Moves (exs : Bytes) : Prop :=
  ∀ i c rest type data, ComesTo exs i c rest → Front rest type data → type ≠ sniExtensionType → data.length ≠ 65532

theorem Moves.drop (h : Moves exs) (hfront : Front exs type data) (htype : type ≠ sniExtensionType) :
    Moves (exs.drop ((4 + data.length) % 65536)) :=
  fun _ _ _ _ _ hcomes => h _ _ _ _ _ (.next hfront htype hcomes)

theorem loop_ends (h : Moves exs) (hfuel : exs.length < fuel) (currentIndex : Nat) :
    extensionsLoop fuel currentIndex exs ≠ .running := by
  induction fuel generalizing currentIndex exs with
  | zero => omega
  | succ fuel ih =>
    rcases loop_cases exs with hnone | ⟨data, name, -, -, hsome⟩ | ⟨type, data, hfront, htype, hnext⟩
    · rw [hnone]
      nofun
    · rw [hsome]
      nofun
    · rw [hnext]
      apply ih (h.drop hfront htype)
      -- the step is not 0, so fewer bytes are left
      have hne := h _ _ _ _ _ .here hfront htype
      have hlt := hfront.1
      have hle := hfront.length_le
      rw [length_drop]
      omega

theorem loop_ne_panic (fuel currentIndex : Nat) (exs : Bytes) : extensionsLoop fuel currentIndex exs ≠ .panic := by
  induction fuel generalizing currentIndex exs with
  | zero => nofun
  | succ fuel ih =>
    rcases loop_cases exs with hnone | ⟨data, name, -, -, hsome⟩ | ⟨type, data, -, -, hnext⟩
    · rw [hnone]
      nofun
    · rw [hsome]
      nofun
    · rw [hnext]
      exact ih _ _

theorem ComesTo.drop_eq (h : ComesTo exs i c rest) : exs.drop i = rest := by
  induction h with
  | here => rfl
  | next _ _ _ ih => rw [← drop_drop, ih]

/-- The count is ahead of the offset by a multiple of 65536. -/
theorem ComesTo.counted (h : ComesTo exs i c rest) : i ≤ c ∧ c % 65536 = i % 65536 := by
  induction h with
  | here => exact ⟨le_refl 0, rfl⟩
  | next _ _ _ ih => omega

/-- Where the count is right, the loop is in the list as it is written. -/
theorem ComesTo.extensionAt (h : ComesTo exs i c rest) (hcount : c = i) (hfront : Front rest type data) :
    ExtensionAt exs i type data := by
  induction h with
  | here =>
    obtain ⟨hlt, rest, rfl⟩ := hfront
    exact .here hlt
  | @next exs type' data' i c rest hfront' _ h ih =>
    have hle := h.counted.1
    have hmod : (4 + data'.length) % 65536 = 4 + data'.length := by omega
    rw [hmod] at ih hcount ⊢
    have hext := ih (by omega) hfront
    obtain ⟨hlt, tail, rfl⟩ := hfront'
    rw [drop_left' (by simp)] at hext
    exact .there hlt hext

/-- The loop comes to one server name at most. -/
theorem ComesTo.unique {i' c' : Nat} {rest' data' : Bytes} (h : ComesTo exs i c rest)
    (hfront : Front rest sniExtensionType data) (h' : ComesTo exs i' c' rest')
    (hfront' : Front rest' sniExtensionType data') : i = i' ∧ c = c' ∧ data = data' := by
  induction h generalizing i' c' with
  | here =>
    cases h' with
    | here => exact ⟨rfl, rfl, (hfront.unique hfront').2⟩
    | next hnext htype _ => exact absurd (hnext.unique hfront).1 htype
  | next hnext htype _ ih =>
    cases h' with
    | here => exact absurd (hnext.unique hfront').1 htype
    | next hnext' htype' h' =>
      obtain ⟨-, rfl⟩ := hnext.unique hnext'
      obtain ⟨rfl, rfl, rfl⟩ := ih hfront h'
      exact ⟨rfl, rfl, rfl⟩

theorem loop_found (hloop : extensionsLoop fuel currentIndex exs = .done (some s)) :
    ∃ i c rest data name, ComesTo exs i c rest ∧ Front rest sniExtensionType data ∧ SniData data name ∧
      s = { index := currentIndex + c + 9, length := name.length, serverName := name } := by
  induction fuel generalizing currentIndex exs with
  | zero => cases hloop
  | succ fuel ih =>
    rcases loop_cases exs with hnone | ⟨data, name, hfront, hname, hsome⟩ | ⟨type, data, hfront, htype, hnext⟩
    · rw [hnone] at hloop
      cases hloop
    · rw [hsome] at hloop
      cases hloop
      exact ⟨0, 0, exs, data, name, .here, hfront, hname, rfl⟩
    · rw [hnext] at hloop
      obtain ⟨i, c, rest, data', name, hcomes, hfront', hname, rfl⟩ := ih hloop
      refine ⟨_, _, rest, data', name, .next hfront htype hcomes, hfront', hname, ?_⟩
      rw [← add_assoc currentIndex (4 + data.length) c]

theorem loop_finds (h : ComesTo exs i c rest) (hfront : Front rest sniExtensionType data) (hname : SniData data name) :
    ∃ fuel, ∀ currentIndex, extensionsLoop fuel currentIndex exs =
      .done (some { index := currentIndex + c + 9, length := name.length, serverName := name }) := by
  induction h with
  | here => exact ⟨1, fun currentIndex => by rw [loop_of_front hfront, if_pos rfl, sniOf_of_data hname]⟩
  | next hnext htype _ ih =>
    obtain ⟨fuel, hfuel⟩ := ih hfront
    refine ⟨fuel + 1, fun currentIndex => ?_⟩
    rw [loop_of_front hnext, if_neg htype, hfuel, add_assoc currentIndex]

/-! ## `IndexTLSServerName` -/

/-- The server name stands in a `server_name` extension of the list of the ClientHello, which ends after the declared
number of bytes, and `extensionsListLengthIndex` is where that number stands. -/
def Located (payload : Bytes) (s : MyServerName) : Prop :=
  ∃ head n body, ClientHello payload head n body ∧ s.extensionsListLengthIndex = head.length ∧
    ∃ i data, ExtensionAt (body.take n) i sniExtensionType data ∧ SniData data s.serverName ∧
      s.length = s.serverName.length ∧ s.index = head.length + 2 + i + 9

/-- What is asked of `IndexTLSServerName` on a payload. -/
structure IndexSound (payload : Bytes) : Prop where
  ends : ∃ fuel, indexTLSServerName fuel payload ≠ .running
  in_range : ∀ fuel, indexTLSServerName fuel payload ≠ .panic
  named : ∀ fuel s, indexTLSServerName fuel payload = .done (some s) →
    (payload.drop s.index).take s.length = s.serverName
  located : ∀ fuel s, indexTLSServerName fuel payload = .done (some s) → Located payload s

/-- The loop over the extensions of a ClientHello comes to a server name: its extension stands at offset `i` after the
length of the list, and is counted to stand at `c`. -/
structure FindsName (payload head : Bytes) (n : Nat) (body : Bytes) (i c : Nat) (name : Bytes) : Prop where
  hello : ClientHello payload head n body
  comes : ∃ rest data, ComesTo body i c rest ∧ Front rest sniExtensionType data ∧ SniData data name

/-- What the extensions that the loop comes to must be like: none that is passed has 65532 bytes, and if a server name
comes, the extensions before it are counted right and its own ends within the declared length of the list. -/
structure WalkOk (payload : Bytes) : Prop where
  moves : ∀ head n body, ClientHello payload head n body → Moves body
  listed : ∀ head n body i c name, FindsName payload head n body i c name → c = i ∧ i + 9 + name.length ≤ n

/-- What is returned for a server name that is counted to stand at `c`. -/
def foundAt (head : Bytes) (c : Nat) (name : Bytes) : MyServerName :=
  { index := head.length + 2 + c + 9, length := name.length, serverName := name, extensionsListLengthIndex := head.length }

theorem ClientHello.word_eq (h : ClientHello payload head n body) : (word payload head.length).toNat = n := by
  have hword : word payload head.length = word (payload.drop head.length) 0 := by simp only [word, getD_drop]; rfl
  rw [hword, h.payload_eq, drop_left, word_be16Bytes h.length_lt]

theorem ClientHello.drop_eq (h : ClientHello payload head n body) (i : Nat) :
    payload.drop (head.length + 2 + i) = body.drop i := by
  have hlist : (be16Bytes n ++ body).drop 2 = body := rfl
  rw [h.payload_eq, ← drop_drop, ← drop_drop, drop_left, hlist]

theorem SniData.length (h : SniData data name) : data.length = 5 + name.length := by
  obtain ⟨-, -, l₁, l₂, rfl⟩ := h
  simp
  omega

/-- A name stands nine bytes into its extension. -/
theorem SniData.name_prefix (h : SniData data name) (hext : extensionBytes sniExtensionType data <+: rest) :
    name <+: rest.drop 9 := by
  obtain ⟨-, -, l₁, l₂, rfl⟩ := h
  obtain ⟨tail, rfl⟩ := hext
  exact ⟨tail, by simp [extensionBytes, be16Bytes]⟩

theorem FindsName.name_prefix (h : FindsName payload head n body i c name) :
    name <+: payload.drop (head.length + 2 + i + 9) := by
  obtain ⟨rest, data, hcomes, hfront, hname⟩ := h.comes
  rw [← drop_drop, h.hello.drop_eq, hcomes.drop_eq]
  exact hname.name_prefix hfront.2

theorem Located.named (h : Located payload s) : (payload.drop s.index).take s.length = s.serverName := by
  obtain ⟨head, n, body, hhello, -, i, data, hext, hname, hlength, hs⟩ := h
  obtain ⟨rest, hrest⟩ := hext.drop_eq
  have hprefix : extensionBytes sniExtensionType data <+: body.drop i := by
    rw [drop_take] at hrest
    exact (prefix_append _ _).trans (hrest ▸ take_prefix _ _)
  have hstands := hname.name_prefix hprefix
  rw [← hhello.drop_eq, drop_drop, ← hs, prefix_iff_eq_take] at hstands
  rw [hlength]
  exact hstands.symm

theorem loopOver_eq_some (h : loopOver head body fuel = .done (some s)) :
    ∃ i c rest data name, ComesTo body i c rest ∧ Front rest sniExtensionType data ∧ SniData data name ∧
      s = foundAt head c name := by
  rw [loopOver] at h
  cases hres : extensionsLoop fuel 2 body with
  | panic | running => rw [hres] at h; cases h
  | done serverName =>
    rw [hres] at h
    cases serverName with
    | none => cases h
    | some s' =>
      cases h
      obtain ⟨i, c, rest, data, name, hcomes, hfront, hname, rfl⟩ := loop_found hres
      refine ⟨i, c, rest, data, name, hcomes, hfront, hname, ?_⟩
      simp only [foundAt, MyServerName.mk.injEq, and_true]
      omega

/-- What is returned is a server name that the loop came to. -/
theorem findsName_of_found (h : indexTLSServerName fuel payload = .done (some s)) :
    ∃ head n body i c name, FindsName payload head n body i c name ∧ s = foundAt head c name := by
  rcases indexTLSServerName_cases payload with hnone | ⟨head, n, body, hhello, hloop⟩
  · rw [hnone fuel] at h
    cases h
  · rw [hloop] at h
    obtain ⟨i, c, rest, data, name, hcomes, hfront, hname, rfl⟩ := loopOver_eq_some h
    exact ⟨head, n, body, i, c, name, ⟨hhello, rest, data, hcomes, hfront, hname⟩, rfl⟩

/-- A server name that the loop comes to is returned. -/
theorem FindsName.found (h : FindsName payload head n body i c name) :
    ∃ fuel, indexTLSServerName fuel payload = .done (some (foundAt head c name)) := by
  obtain ⟨rest, data, hcomes, hfront, hname⟩ := h.comes
  obtain ⟨fuel, hfuel⟩ := loop_finds hcomes hfront hname
  refine ⟨fuel, ?_⟩
  rw [indexTLSServerName_of_hello h.hello, loopOver, hfuel]
  simp only [Exec.done_bind, Exec.pure_eq, Option.map_some, foundAt, Exec.done.injEq, Option.some.injEq,
    MyServerName.mk.injEq, and_true]
  omega

theorem FindsName.unique {head' body' name' : Bytes} {n' i' c' : Nat} (h : FindsName payload head n body i c name)
    (h' : FindsName payload head' n' body' i' c' name') : head = head' ∧ i = i' ∧ c = c' := by
  obtain ⟨fuel, hfuel⟩ := h.found
  rw [indexTLSServerName_of_hello h'.hello] at hfuel
  obtain ⟨i₁, c₁, -, -, name₁, -, -, -, hfound⟩ := loopOver_eq_some hfuel
  have hlen : head.length = head'.length := congrArg MyServerName.extensionsListLengthIndex hfound
  have hpayload := h.hello.payload_eq.symm.trans h'.hello.payload_eq
  obtain ⟨rfl, hbody⟩ := append_inj hpayload hlen
  obtain ⟨-, rfl⟩ := append_inj hbody rfl
  obtain ⟨rest, data, hcomes, hfront, -⟩ := h.comes
  obtain ⟨rest', data', hcomes', hfront', -⟩ := h'.comes
  obtain ⟨hi, hc, -⟩ := hcomes.unique hfront hcomes' hfront'
  exact ⟨rfl, hi, hc⟩

theorem loopOver_ne_running (h : extensionsLoop fuel 2 body ≠ .running) : loopOver head body fuel ≠ .running := by
  rw [loopOver]
  cases hloop : extensionsLoop fuel 2 body with
  | done serverName => nofun
  | panic => exact absurd hloop (loop_ne_panic _ _ _)
  | running => exact absurd hloop h

theorem loopOver_ne_panic (head body : Bytes) (fuel : Nat) : loopOver head body fuel ≠ .panic := by
  rw [loopOver]
  cases hloop : extensionsLoop fuel 2 body with
  | done serverName => nofun
  | panic => exact absurd hloop (loop_ne_panic _ _ _)
  | running => nofun

theorem indexTLSServerName_ne_panic (payload : Bytes) (fuel : Nat) : indexTLSServerName fuel payload ≠ .panic := by
  rcases indexTLSServerName_cases payload with hnone | ⟨head, n, body, hhello, hloop⟩
  · rw [hnone fuel]
    nofun
  · rw [hloop fuel]
    exact loopOver_ne_panic head body fuel

/-- `IndexTLSServerName` ends exactly if its loop never stays where it is. -/
theorem indexTLSServerName_ends_iff : (∃ fuel, indexTLSServerName fuel payload ≠ .running) ↔
    ∀ head n body, ClientHello payload head n body → Moves body := by
  constructor
  · rintro ⟨fuel, hfuel⟩ head n body hhello i c rest type data hcomes hfront htype hlen
    apply hfuel
    rw [indexTLSServerName_of_hello hhello, loopOver,
      hcomes.running fun fuel currentIndex => loop_running hfront htype hlen fuel currentIndex]
    rfl
  · intro hmoves
    rcases indexTLSServerName_cases payload with hnone | ⟨head, n, body, hhello, hloop⟩
    · exact ⟨0, by rw [hnone 0]; nofun⟩
    · refine ⟨body.length + 1, ?_⟩
      rw [hloop]
      exact loopOver_ne_running (loop_ends (hmoves head n body hhello) (Nat.lt_succ_self _) 2)

theorem FindsName.located (h : FindsName payload head n body i c name) (hcount : c = i) (hle : i + 9 + name.length ≤ n) :
    Located payload (foundAt head c name) := by
  obtain ⟨rest, data, hcomes, hfront, hname⟩ := h.comes
  subst hcount
  refine ⟨head, n, body, h.hello, rfl, c, data, ?_, hname, rfl, rfl⟩
  apply (hcomes.extensionAt rfl hfront).take
  have := hname.length
  omega

theorem FindsName.of_located (h : FindsName payload head n body i c name) (hlocated : Located payload (foundAt head c name)) :
    c = i ∧ i + 9 + name.length ≤ n := by
  obtain ⟨head', n', body', hhello', hhead, i', data', hext, hname, -, hindex⟩ := hlocated
  simp only [foundAt] at hhead hindex hname
  have hn : n' = n := by rw [← hhello'.word_eq, ← h.hello.word_eq, hhead]
  obtain ⟨rest, data, hcomes, -, -⟩ := h.comes
  have hcounted := hcomes.counted
  have hlt := h.hello.length_lt
  have hle := hext.length_le
  have hlen := hname.length
  rw [length_take] at hle
  omega

/-- On every payload: `IndexTLSServerName` ends, reads no byte that is not there and returns only names that stand where
it says, exactly if its loop passes no extension of 65532 bytes and every server name it comes to is counted right and
ends within the declared length of the list. -/
theorem indexTLSServerName_sound_iff (payload : Bytes) : IndexSound payload ↔ WalkOk payload := by
  constructor
  · intro h
    refine ⟨indexTLSServerName_ends_iff.1 h.ends, ?_⟩
    intro head n body i c name hfinds
    obtain ⟨fuel, hfuel⟩ := hfinds.found
    exact hfinds.of_located (h.located fuel _ hfuel)
  · rintro ⟨hmoves, hlisted⟩
    have hlocated : ∀ fuel s, indexTLSServerName fuel payload = .done (some s) → Located payload s := by
      intro fuel s hs
      obtain ⟨head, n, body, i, c, name, hfinds, rfl⟩ := findsName_of_found hs
      obtain ⟨hcount, hle⟩ := hlisted head n body i c name hfinds
      exact hfinds.located hcount hle
    exact ⟨indexTLSServerName_ends_iff.2 hmoves, indexTLSServerName_ne_panic payload,
      fun fuel s hs => (hlocated fuel s hs).named, hlocated⟩

/-! ## Payloads on which it fails -/

/-- A handshake message with no session ID, cipher suites or compression methods, up to its extensions. -/
def shortHello (l₁ l₂ l₃ : UInt8) : Bytes := [1, l₁, l₂, l₃, 3, 3] ++ List.replicate 36 0

theorem helloHead_shortHello (l₁ l₂ l₃ : UInt8) :
    HelloHead (4 + (l₁.toNat * 65536 + l₂.toNat * 256 + l₃.toNat)) (shortHello l₁ l₂ l₃) :=
  ⟨l₁, l₂, l₃, 3, 3, List.replicate 32 0, [], [], [], rfl, by decide, rfl, by decide, by decide, by decide, rfl⟩

/-- An extension of 65532 bytes, after a list that declares none. -/
def longBody : Bytes := extensionBytes 16 (List.replicate 65532 0)

def longHello : Bytes := [22, 3, 1, 255, 255] ++ shortHello 1 0 40 ++ (be16Bytes 0 ++ longBody)

theorem clientHello_longHello : ClientHello longHello ([22, 3, 1, 255, 255] ++ shortHello 1 0 40) 0 longBody := by
  have hlength : longHello.length = 65585 := by
    rw [longHello, longBody, length_append, length_append, length_append, length_extensionBytes, length_replicate]
    rfl
  refine ⟨rfl, ⟨3, 1, 255, 255, shortHello 1 0 40, ?_, ?_, rfl⟩, by decide, Nat.zero_le _⟩
  · rw [hlength]
    decide
  · rw [hlength]
    exact helloHead_shortHello 1 0 40

theorem front_longBody : Front longBody 16 (List.replicate 65532 0) :=
  ⟨by rw [length_replicate]; decide, prefix_rfl⟩

theorem indexTLSServerName_longHello (fuel : Nat) : indexTLSServerName fuel longHello = .running := by
  rw [indexTLSServerName_of_hello clientHello_longHello, loopOver,
    loop_running front_longBody (by decide) length_replicate]
  rfl

/-- A list of extensions that declares no bytes, and a `server_name` extension after it. -/
def trailingHello : Bytes :=
  [22, 3, 1, 0, 58] ++ (shortHello 0 0 54 ++ (be16Bytes 0 ++
    extensionBytes sniExtensionType [0, 8, 0, 0, 5, 97, 46, 111, 114, 103]))

theorem indexTLSServerName_trailingHello : indexTLSServerName 1 trailingHello = .done (some
    { index := 58, length := 5, serverName := [97, 46, 111, 114, 103], extensionsListLengthIndex := 47 }) := by
  decide

theorem findsName_trailingHello :
    FindsName trailingHello ([22, 3, 1, 0, 58] ++ shortHello 0 0 54) 0
      (extensionBytes sniExtensionType [0, 8, 0, 0, 5, 97, 46, 111, 114, 103]) 0 0 [97, 46, 111, 114, 103] :=
  ⟨⟨rfl, ⟨3, 1, 0, 58, shortHello 0 0 54, by decide, helloHead_shortHello 0 0 54, rfl⟩, by decide, by decide⟩,
    _, _, .here, ⟨by decide, prefix_rfl⟩, by decide, by decide, 0, 8, rfl⟩

/-- One payload on which the function never returns, and one on which it returns a name that is not in the list. -/
theorem indexTLSServerName_fails :
    (∀ fuel, indexTLSServerName fuel longHello = .running) ∧ ¬IndexSound longHello ∧ ¬IndexSound trailingHello := by
  refine ⟨indexTLSServerName_longHello, ?_, ?_⟩
  · rintro ⟨⟨fuel, hfuel⟩, -, -, -⟩
    exact hfuel (indexTLSServerName_longHello fuel)
  · intro hsound
    have hlisted := findsName_trailingHello.of_located (hsound.located 1 _ indexTLSServerName_trailingHello)
    exact absurd hlisted.2 (by decide)

end Singlink.TLSFragment
