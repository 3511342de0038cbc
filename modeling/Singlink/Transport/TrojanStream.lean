import Singlink.Transport.Trojan
/-!
# Streams over trojan

The handshakes of `transport/trojan/protocol.go` for a stream, and `NewConnection` of
`service.go` on a request that arrives in pieces. It reads the key with one call, so that
a first piece without the whole key goes to the fallback; all else is read in full.
-/

namespace Singlink.Trojan

open Lib Lib.Codec List

variable {D K : Type}

/-! ## The client -/

/-- What `ClientHandshakeRaw` writes. -/
def clientHandshakeRaw (ser : Serializer D) (key : Key) (command : UInt8) (destination : D) (payload : Bytes) :
    Writer String :=
  Writer.concat [.ok key.1, .ok crlf, .ok [command], ser.writeAddrPort destination, .ok crlf,
    .when (0 < payload.length) (.ok payload)]

def clientHandshake (ser : Serializer D) (key : Key) (destination : D) (payload : Bytes) : Except Failure Bytes := do
  let headerLen := keyLength + ser.addrPortLen destination + 5
  let address ← failing (ser.writeAddrPort destination)
  let written := key.1 ++ crlf ++ [commandTCP] ++ address ++ crlf ++ payload
  let _ ← fill (List.replicate (headerLen + payload.length) 0) written
  return written

def clientHandshakeBuffer (ser : Serializer D) (key : Key) (destination : D) (payload : Buffer) :
    Except Failure Bytes := do
  let destinationLen ← failing (socksaddrLen ser destination)
  let region ← payload.extendHeader (keyLength + destinationLen + 5)
  let address ← failing (ser.writeAddrPort destination)
  let header ← fill region (key.1 ++ crlf ++ [commandTCP] ++ address ++ crlf)
  return header ++ payload.data

variable {ser : Serializer D} {key : Key} {d : D} {payload bytes : Bytes}

theorem clientHandshakeRaw_eq_ok {command : UInt8} : clientHandshakeRaw ser key command d payload = .ok bytes ↔
    ∃ address, ser.writeAddrPort d = .ok address ∧
      bytes = key.1 ++ (crlf ++ ([command] ++ (address ++ crlf)) ++ payload) := by
  have hpayload : (Writer.when (0 < payload.length) (.ok payload) : Writer String) = .ok payload := by
    cases payload <;> rfl
  cases haddress : ser.writeAddrPort d with
  | error err => simp [clientHandshakeRaw, Writer.concat, Writer.append, haddress]
  | ok address => simp [clientHandshakeRaw, Writer.concat, Writer.append, haddress, hpayload, eq_comm]

theorem failing_bind {α β : Type} {x : Except String α} {f : α → Except Failure β} {b : β}
    (h : failing x >>= f = .ok b) : ∃ a, x = .ok a ∧ f a = .ok b := by
  cases x with
  | error message => cases h
  | ok a => exact ⟨a, rfl, h⟩

theorem raw_of_clientHandshake (h : clientHandshake ser key d payload = .ok bytes) :
    clientHandshakeRaw ser key commandTCP d payload = .ok bytes := by
  obtain ⟨address, haddress, h⟩ := failing_bind h
  refine clientHandshakeRaw_eq_ok.2 ⟨address, haddress, ?_⟩
  simp only [fill, bind, Except.bind] at h
  split at h
  · cases h
  · cases h
    simp

theorem raw_of_clientHandshakeBuffer {payload : Buffer} (h : clientHandshakeBuffer ser key d payload = .ok bytes) :
    clientHandshakeRaw ser key commandTCP d payload.data = .ok bytes := by
  obtain ⟨destinationLen, hlen, h⟩ := failing_bind h
  obtain rfl : destinationLen = ser.addrPortLen d := by
    unfold socksaddrLen at hlen
    split at hlen
    · cases hlen
    · exact (Except.ok.inj hlen).symm
  by_cases hroom : keyLength + ser.addrPortLen d + 5 ≤ payload.start
  · obtain ⟨region, hregion, hsize⟩ := length_extendHeader hroom
    rw [hregion] at h
    obtain ⟨address, haddress, h⟩ := failing_bind h
    have hwritten : (key.1 ++ crlf ++ [commandTCP] ++ address ++ crlf).length = region.length := by
      simp only [length_append, key.2, ser.length_eq haddress, hsize]
      simp only [crlf, length_cons, length_nil]
      omega
    rw [fill_of_length hwritten] at h
    refine clientHandshakeRaw_eq_ok.2 ⟨address, haddress, ?_⟩
    cases h
    simp
  · rw [Buffer.extendHeader, if_neg hroom] at h
    cases h

/-! ## The server -/

/-- What handlers get to see. -/
def Outcome.seen : Outcome K D → Outcome K D
  | .error _ => .error ""
  | .fallback cached rest => .fallback [] (cached ++ rest)
  | outcome => outcome

namespace Service

/-- `NewConnection` on what the calls of `Read` return. -/
def newConnectionCut (ser : Serializer D) (s : Service K) (pieces : List Bytes) : Outcome K D :=
  s.newConnection ser (pieces.headD []).length pieces.flatten

/-- No key of a user is at the front of the stream. -/
def Unknown (s : Service K) (stream : Bytes) : Prop := ∀ key : Key, key.1 <+: stream → s.keys.lookup key = none

variable {s : Service K}

theorem unknown_iff {rest : Bytes} : s.Unknown (key.1 ++ rest) ↔ s.keys.lookup key = none := by
  refine ⟨fun h => h key (prefix_append _ _), fun h key' hprefix => ?_⟩
  have heq : key' = key := Subtype.ext (append_inj (prefix_iff_eq_append.1 hprefix) (key'.2.trans key.2.symm)).1
  rw [heq, h]

theorem seen_fallback {header rest header' rest' : Bytes} (err err' : String) (h : header ++ rest = header' ++ rest') :
    (s.fallback header rest err : Outcome K D).seen = (s.fallback header' rest' err').seen := by
  unfold fallback
  split
  · rw [Outcome.seen, Outcome.seen, h]
  · rfl

/-- Without the key, against with it. -/
theorem seen_answer_iff {header left rest : Bytes} (err : String) (h : header ++ left = key.1 ++ rest) :
    (s.fallback header left err).seen = (s.answer ser key rest).seen ↔
      s.keys.lookup key = none ∨ s.fallbackHandler = false ∧ ∃ err, request ser rest = .error err := by
  unfold answer
  cases hkey : s.keys.lookup key with
  | none => exact iff_of_true (seen_fallback _ _ h) (.inl rfl)
  | some user =>
    unfold fallback
    cases hrequest : request ser rest with
    | error err => cases s.fallbackHandler <;> simp [Outcome.seen]
    | ok result =>
      -- some handler gets the request, and not the fallback
      by_cases htcp : result.1.1 = commandTCP
      · cases s.fallbackHandler <;> simp [Outcome.seen, htcp]
      · by_cases hudp : result.1.1 = commandUDP
        · have hne : commandUDP ≠ commandTCP := by decide
          cases s.fallbackHandler <;> simp [Outcome.seen, hudp, hne]
        · cases s.fallbackHandler <;> simp [Outcome.seen, htcp, hudp]

theorem seen_newConnection_iff (arrived : Nat) (stream : Bytes) :
    (s.newConnection ser arrived stream).seen = (s.newConnection ser stream.length stream).seen ↔
      keyLength ≤ arrived ∨ s.Unknown stream ∨
        s.fallbackHandler = false ∧ ∃ err, request ser (stream.drop keyLength) = .error err := by
  by_cases hlength : keyLength ≤ stream.length
  · obtain ⟨key, rest, rfl⟩ : ∃ (key : Key) (rest : Bytes), stream = key.1 ++ rest :=
      ⟨⟨stream.take keyLength, by rw [length_take]; omega⟩, stream.drop keyLength, by simp⟩
    rw [newConnection_key hlength, unknown_iff, drop_left' key.2]
    by_cases harrived : keyLength ≤ arrived
    · rw [newConnection_key harrived]
      exact iff_of_true rfl (.inl harrived)
    · have hne : key.1 ++ rest ≠ [] := ne_nil_of_length_pos (Nat.lt_of_lt_of_le (by decide) hlength)
      rw [newConnection_short hne (by omega), seen_answer_iff _ (take_append_drop _ _)]
      exact (or_iff_right harrived).symm
  · refine iff_of_true ?_ (.inr (.inl fun key hprefix => absurd hprefix.length_le (by rwa [key.2])))
    by_cases hne : stream = []
    · simp only [newConnection, if_pos hne]
    · rw [newConnection_short hne (by omega), newConnection_short hne (by omega)]
      exact seen_fallback _ _ (by rw [take_append_drop, take_append_drop])

theorem newConnection_raw {user : K} (hkey : s.keys.lookup key = some user)
    (h : clientHandshakeRaw ser key commandTCP d payload = .ok bytes) :
    s.newConnection ser bytes.length bytes = .connection user d payload := by
  obtain ⟨address, haddress, rfl⟩ := clientHandshakeRaw_eq_ok.1 h
  have hlength : keyLength ≤ (key.1 ++ (crlf ++ ([commandTCP] ++ (address ++ crlf)) ++ payload)).length := by
    rw [length_append]
    omega
  have hrequest := reads_request haddress (show commandTCP ∈ _ by decide) payload
  rw [newConnection_key hlength, answer, hkey]
  simp only [hrequest]
  rfl

end Service

/-- A request that is cut is treated as the whole one exactly if the first read has the
key, no key of a user is there, or the request fails and there is no fallback. The three
handshakes write the same, and the server reads it back. -/
theorem requests_sound_iff (ser : Serializer D) (s : Service K) :
    (∀ pieces : List Bytes, [] ∉ pieces →
      ((s.newConnectionCut ser pieces).seen = (s.newConnection ser pieces.flatten.length pieces.flatten).seen ↔
        keyLength ≤ (pieces.headD []).length ∨ s.Unknown pieces.flatten ∨
          s.fallbackHandler = false ∧ ∃ err, Service.request ser (pieces.flatten.drop keyLength) = .error err)) ∧
      ∀ (key : Key) (d : D) (payload : Buffer) (bytes : Bytes),
        clientHandshakeRaw ser key commandTCP d payload.data = .ok bytes ∨
            clientHandshake ser key d payload.data = .ok bytes ∨ clientHandshakeBuffer ser key d payload = .ok bytes →
          clientHandshakeRaw ser key commandTCP d payload.data = .ok bytes ∧
            ∀ user, s.keys.lookup key = some user →
              s.newConnection ser bytes.length bytes = .connection user d payload.data := by
  refine ⟨fun pieces _ => Service.seen_newConnection_iff _ _, fun key d payload bytes h => ?_⟩
  have hraw : clientHandshakeRaw ser key commandTCP d payload.data = .ok bytes := by
    rcases h with h | h | h
    · exact h
    · exact raw_of_clientHandshake h
    · exact raw_of_clientHandshakeBuffer h
  exact ⟨hraw, fun user hkey => Service.newConnection_raw hkey hraw⟩

def sampleRequest : Bytes := sampleConn.key.1 ++ (crlf ++ ([commandTCP] ++ ([3, 1, 97, 0, 53] ++ crlf)) ++ [1, 2])

/-- A request is turned away if its first byte arrives alone. -/
theorem cut_request_turned_away :
    oneUser.newConnection domainSerializer sampleRequest.length sampleRequest = .connection "user" ([97], 53) [1, 2] ∧
      oneUser.newConnectionCut domainSerializer [sampleRequest.take 1, sampleRequest.drop 1] =
        .error "bad request size: fallback disabled" := by
  have haddress : domainSerializer.writeAddrPort ([97], 53) = .ok [3, 1, 97, 0, 53] := by decide +kernel
  refine ⟨Service.newConnection_raw (AList.lookup_insert _) (clientHandshakeRaw_eq_ok.2 ⟨_, haddress, rfl⟩), ?_⟩
  exact newConnection_short (by decide +kernel) (by decide +kernel)

end Singlink.Trojan
