import Singlink.Route.Conn
import Singlink.Route.Fidelity
/-!
# Every connection ends once

A connection that `RouteConnectionEx` or `RoutePacketConnectionEx` is given ends
with one call of `onClose` and with both sides closed, under every schedule of
the two copies. The proof follows the goroutines: before its swap a copy does
nothing that matters to the other (`Copying`), after its last call it only
closes (`Closing`), and the pair is in one of few situations.
-/

namespace Singlink.Route

open Lib Bool Prog.Pool Prog

variable {X : Type}

/-- `onClose` has been called once, and both connections are closed. -/
def Conns.Settled (s : Conns) : Prop :=
  s.onClose.length = 1 ∧ s.inboundClosed = true ∧ (s.outboundOpen = true → s.outboundClosed = true)

/-! ## One copy -/

def Conns.isClosed (s : Conns) : Side → Bool
  | .inbound => s.inboundClosed
  | .outbound => s.outboundClosed

def Side.other : Side → Side
  | .inbound => .outbound
  | .outbound => .inbound

def Conns.Le (s s' : Conns) : Prop := ∀ side, s.isClosed side = true → s'.isClosed side = true

theorem Conns.le_close (s : Conns) (x : Side) : s.Le (s.close x) := by
  intro side h
  cases x <;> cases side <;> first | exact h | rfl

theorem Conns.le_onClose (s : Conns) (calls : List (Option RouteError)) : s.Le { s with onClose := calls } := by
  intro side h
  cases side <;> exact h

theorem Conns.isClosed_close (s : Conns) (x : Side) : (s.close x).isClosed x = true := by
  cases x <;> rfl

/-- An action that neither swaps the flag nor calls `onClose`. -/
structure Harmless (f : Conns → Conns) : Prop where
  done : ∀ s, (f s).done = s.done
  onClose : ∀ s, (f s).onClose = s.onClose
  le : ∀ s : Conns, s.Le (f s)

theorem Harmless.id : Harmless id := ⟨fun _ => rfl, fun _ => rfl, fun _ _ h => h⟩

theorem Harmless.close (x : Side) : Harmless fun s => s.close x := by
  refine ⟨fun s => ?_, fun s => ?_, fun s => s.le_close x⟩ <;> cases x <;> rfl

/-- A copy on its way to `finish`, where it swaps the flag. -/
inductive Copying (finish : Goroutine) : Goroutine → Prop
  | swap : Copying finish finish
  | act {f : Conns → Conns} {k : Conns → Goroutine} : Harmless f → (∀ s, Copying finish (k s)) →
      Copying finish (.act f k)

theorem Copying.closeBoth {finish : Goroutine} (x y : Side) : Copying finish (do Route.closeBoth x y; finish) :=
  .act (.close x) fun _ => .act (.close y) fun _ => .swap

theorem copying_connectionCopy (x : Side) (o : CopyOutcome) :
    ∃ err, Copying (finishCopy x x.other err) (connectionCopy x x.other o) := by
  obtain ⟨err, isDuplex, closeWriteErr⟩ := o
  cases err with
  | some err => exact ⟨_, .act .id fun _ => .closeBoth x x.other⟩
  | none =>
    cases isDuplex with
    | true =>
      cases closeWriteErr with
      | some err => exact ⟨_, .act .id fun _ => .act .id fun _ => .closeBoth x x.other⟩
      | none => exact ⟨_, .act .id fun _ => .act .id fun _ => .swap⟩
    | false => exact ⟨_, .act .id fun _ => .act (.close x.other) fun _ => .swap⟩

theorem copying_packetConnectionCopy (x : Side) (err : Option String) :
    Copying (finishPacketCopy x x.other (err.map .text)) (packetConnectionCopy x x.other err) :=
  .act .id fun _ => .swap

/-- The rest of a copy that only closes, with what it has closed. -/
inductive Closing (x : Side) (s : Conns) : Goroutine → Prop
  | two : Closing x s (closeBoth x x.other)
  | one : s.isClosed x = true → Closing x s (close x.other)
  | zero : s.isClosed x = true → s.isClosed x.other = true → Closing x s (.ret ())

variable {x : Side} {s : Conns} {f : Conns → Conns} {k : Conns → Goroutine} {a b : Goroutine} {C : Type}
  {natConn : Bool} {routed : Router.Routed C}

theorem Closing.mono {s' : Conns} {t : Goroutine} (hle : s.Le s') (h : Closing x s t) : Closing x s' t := by
  cases h with
  | two => exact .two
  | one h => exact .one (hle _ h)
  | zero h h' => exact .zero (hle _ h) (hle _ h')

theorem Closing.act (h : Closing x s (.act f k)) : Harmless f ∧ Closing x (f s) (k s) := by
  generalize ht : Prog.act f k = t at h
  cases h with
  | two =>
    cases ht
    exact ⟨.close x, .one (s.isClosed_close x)⟩
  | one h =>
    cases ht
    exact ⟨.close x.other, .zero (s.le_close _ _ h) (s.isClosed_close _)⟩
  | zero => cases ht

theorem Closing.settled (h : Closing x s (.ret ())) (hcalls : s.onClose.length = 1) : s.Settled := by
  generalize ht : (ret () : Goroutine) = t at h
  cases h with
  | two => cases ht
  | one => cases ht
  | zero hx hy => cases x <;> exact ⟨hcalls, by assumption, fun _ => by assumption⟩

/-- A program on its way to the swap acts harmlessly, or it is there. -/
theorem Copying.act_cases {finish : Goroutine}
    (h : Copying finish (.act f k)) : (Harmless f ∧ ∀ s, Copying finish (k s)) ∨ finish = .act f k := by
  generalize ht : Prog.act f k = t at h
  cases h with
  | swap => exact .inr rfl
  | act hf hk =>
    cases ht
    exact .inl ⟨hf, hk⟩

/-! ## Two goroutines -/

theorem Side.other_other (x : Side) : x.other.other = x := by cases x <;> rfl

/-- Two goroutines whose situation `P`, with either of them as the first, is kept
by their actions and is settled when both have ended. -/
theorem ends_pair (P : Side → Conns → Goroutine → Goroutine → Prop)
    (hleft : ∀ {x : Side} {s : Conns} {f : Conns → Conns} {k : Conns → Goroutine} {b : Goroutine},
      P x s (.act f k) b → P x (f s) (k s) b)
    (hright : ∀ {x : Side} {s : Conns} {a : Goroutine} {f : Conns → Conns} {k : Conns → Goroutine},
      P x s a (.act f k) → P x (f s) a (k s) ∨ P x.other (f s) (k s) a)
    (hend : ∀ {x : Side} {s : Conns}, P x s (.ret ()) (.ret ()) → s.Settled) (h : P x s a b) :
    Prog.Pool.Ends Conns.Settled { shared := s, threads := [a, b] } := by
  refine .of_inv
    (fun p => ∃ x a b, p.threads = [a, b] ∧ (P x p.shared a b ∨ P x p.shared b a)) ?_ ?_ ⟨x, a, b, rfl, .inl h⟩
  · rintro ⟨s, threads⟩ q ⟨x, a, b, hthreads, hpair⟩ hact
    subst hthreads
    rcases act_pair hact with ⟨f, k, rfl, rfl⟩ | ⟨f, k, rfl, rfl⟩
    · rcases hpair with hpair | hpair
      · exact ⟨x, _, _, rfl, .inl (hleft hpair)⟩
      · rcases hright hpair with hpair | hpair
        · exact ⟨x, _, _, rfl, .inr hpair⟩
        · exact ⟨x.other, _, _, rfl, .inl hpair⟩
    · rcases hpair with hpair | hpair
      · rcases hright hpair with hpair | hpair
        · exact ⟨x, _, _, rfl, .inl hpair⟩
        · exact ⟨x.other, _, _, rfl, .inr hpair⟩
      · exact ⟨x, _, _, rfl, .inr (hleft hpair)⟩
  · rintro ⟨s, threads⟩ ⟨x, a, b, hthreads, hpair⟩ hended
    subst hthreads
    have hret := not_act_iff.1 hended
    cases hret a (by simp)
    cases hret b (by simp)
    rcases hpair with hpair | hpair <;> exact hend hpair

/-! ## The two copies of a stream -/

/-- Where the copies of a stream are, `x` being the source of the first: both on
their way to the swap; or the first has ended, and the second is on its way, is
to call `onClose`, or has called it and closes. -/
inductive StreamPair (x : Side) (s : Conns) : Goroutine → Goroutine → Prop
  | both {a b : Goroutine} {e e' : Option RouteError} : Copying (finishCopy x x.other e) a →
      Copying (finishCopy x.other x.other.other e') b → s.done = false → s.onClose = [] → StreamPair x s a b
  | half {b : Goroutine} {e : Option RouteError} : Copying (finishCopy x.other x.other.other e) b → s.done = true →
      s.onClose = [] → StreamPair x s (.ret ()) b
  | late {e : Option RouteError} : s.onClose = [] →
      StreamPair x s (.ret ()) (do callOnClose e; closeBoth x.other x.other.other)
  | last {b : Goroutine} : Closing x.other s b → s.onClose.length = 1 → StreamPair x s (.ret ()) b

theorem StreamPair.act_left (h : StreamPair x s (.act f k) b) : StreamPair x (f s) (k s) b := by
  generalize ha : act f k = a at h
  cases h with
  | both hleft hright hdone hcalls =>
    rcases Copying.act_cases (ha ▸ hleft) with ⟨hf, hk⟩ | hswap
    · exact .both (hk s) hright ((hf.done s).trans hdone) ((hf.onClose s).trans hcalls)
    · -- the first of the two to swap finds the flag down and ends
      cases hswap
      simp only [hdone]
      exact .half hright rfl hcalls
  | half | late | last => cases ha

theorem StreamPair.act_right
    (h : StreamPair x s a (.act f k)) : StreamPair x (f s) a (k s) ∨ StreamPair x.other (f s) (k s) a := by
  generalize hb : act f k = b at h
  cases h with
  | both hleft hright hdone hcalls =>
    have hswapped : StreamPair x.other s (.act f k) a :=
      .both (hb ▸ hright) (x.other_other.symm ▸ hleft) hdone hcalls
    exact .inr hswapped.act_left
  | half hright hdone hcalls =>
    rcases Copying.act_cases (hb ▸ hright) with ⟨hf, hk⟩ | hswap
    · exact .inl (.half (hk s) ((hf.done s).trans hdone) ((hf.onClose s).trans hcalls))
    · -- the second finds it up, and calls `onClose`
      cases hswap
      simp only [hdone]
      exact .inl (.late hcalls)
  | late hcalls =>
    cases hb
    exact .inl (.last .two (by simp [hcalls]))
  | last hclosing hcalls =>
    obtain ⟨hf, hrest⟩ := Closing.act (hb ▸ hclosing)
    exact .inl (.last hrest (by rw [hf.onClose]; exact hcalls))

theorem StreamPair.settled (h : StreamPair x s (.ret ()) (.ret ())) : s.Settled := by
  generalize ha : (ret () : Goroutine) = a at h
  generalize hb : (ret () : Goroutine) = b at h
  cases h with
  | both hleft =>
    subst ha
    cases hleft
  | half hright =>
    cases hright
  | last hclosing hcalls =>
    exact hclosing.settled hcalls

theorem ends_stream (h : StreamPair x s a b) : Prog.Pool.Ends Conns.Settled { shared := s, threads := [a, b] } :=
  ends_pair StreamPair (fun h => h.act_left) (fun h => h.act_right) (fun h => h.settled) h

/-! ## The two copies of a packet connection -/

/-- A copy that finds the flag up when it swaps: on its way, or closing. -/
def After (x : Side) (s : Conns) (t : Goroutine) : Prop :=
  (∃ e, Copying (finishPacketCopy x x.other e) t) ∨ Closing x s t

theorem After.mono {s' : Conns} {t : Goroutine} (hle : s.Le s') (h : After x s t) : After x s' t := by
  rcases h with h | h
  · exact .inl h
  · exact .inr (h.mono hle)

theorem After.act (h : After x s (.act f k)) (hdone : s.done = true) :
    After x (f s) (k s) ∧ (f s).done = true ∧ (f s).onClose = s.onClose ∧ s.Le (f s) := by
  rcases h with ⟨e, h⟩ | h
  · rcases h.act_cases with ⟨hf, hk⟩ | hswap
    · exact ⟨.inl ⟨e, hk s⟩, (hf.done s).trans hdone, hf.onClose s, hf.le s⟩
    · cases hswap
      refine ⟨?_, rfl, rfl, fun _ h => h⟩
      simp only [hdone]
      exact .inr .two
  · obtain ⟨hf, hrest⟩ := h.act
    exact ⟨.inr hrest, (hf.done s).trans hdone, hf.onClose s, hf.le s⟩

/-- Where the copies of a packet connection are, `x` being the source of the
first: both on their way to the swap; or the first has swapped and is to call
`onClose`, or has called it and closes. -/
inductive PacketPair (x : Side) (s : Conns) : Goroutine → Goroutine → Prop
  | both {a b : Goroutine} {e e' : Option RouteError} : Copying (finishPacketCopy x x.other e) a →
      Copying (finishPacketCopy x.other x.other.other e') b → s.done = false → s.onClose = [] → PacketPair x s a b
  | first {b : Goroutine} {e : Option RouteError} : After x.other s b → s.done = true → s.onClose = [] →
      PacketPair x s (do callOnClose e; closeBoth x x.other) b
  | last {a b : Goroutine} : Closing x s a → After x.other s b → s.done = true → s.onClose.length = 1 →
      PacketPair x s a b

theorem PacketPair.act_left (h : PacketPair x s (.act f k) b) : PacketPair x (f s) (k s) b := by
  generalize ha : act f k = a at h
  cases h with
  | both hleft hright hdone hcalls =>
    rcases Copying.act_cases (ha ▸ hleft) with ⟨hf, hk⟩ | hswap
    · exact .both (hk s) hright ((hf.done s).trans hdone) ((hf.onClose s).trans hcalls)
    · cases hswap
      simp only [hdone]
      exact .first (.inl ⟨_, hright⟩) rfl hcalls
  | first hafter hdone hcalls =>
    cases ha
    exact .last .two (hafter.mono (s.le_onClose _)) hdone (by simp [hcalls])
  | last hclosing hafter hdone hcalls =>
    obtain ⟨hf, hrest⟩ := Closing.act (ha ▸ hclosing)
    exact .last hrest (hafter.mono (hf.le s)) ((hf.done s).trans hdone) (by rw [hf.onClose]; exact hcalls)

theorem PacketPair.act_right
    (h : PacketPair x s a (.act f k)) : PacketPair x (f s) a (k s) ∨ PacketPair x.other (f s) (k s) a := by
  generalize hb : act f k = b at h
  cases h with
  | both hleft hright hdone hcalls =>
    have hswapped : PacketPair x.other s (.act f k) a :=
      .both (hb ▸ hright) (x.other_other.symm ▸ hleft) hdone hcalls
    exact .inr hswapped.act_left
  | first hafter hdone hcalls =>
    obtain ⟨hrest, hdone', hcalls', -⟩ := After.act (hb ▸ hafter) hdone
    exact .inl (.first hrest hdone' (hcalls'.trans hcalls))
  | last hclosing hafter hdone hcalls =>
    obtain ⟨hrest, hdone', hcalls', hle⟩ := After.act (hb ▸ hafter) hdone
    exact .inl (.last (hclosing.mono hle) hrest hdone' (by rw [hcalls']; exact hcalls))

theorem PacketPair.settled (h : PacketPair x s (.ret ()) (.ret ())) : s.Settled := by
  generalize ha : (ret () : Goroutine) = a at h
  cases h with
  | both hleft =>
    subst ha
    cases hleft
  | first => cases ha
  | last hclosing _ _ hcalls =>
    subst ha
    exact hclosing.settled hcalls

theorem ends_packets (h : PacketPair x s a b) : Prog.Pool.Ends Conns.Settled { shared := s, threads := [a, b] } :=
  ends_pair PacketPair (fun h => h.act_left) (fun h => h.act_right) (fun h => h.settled) h

/-! ## Calls of the connection manager -/

theorem run_kickWriteHandshake (x : Side) (serverFirst : Bool) (o : KickOutcome) (hdone : s.done = false)
    (hcalls : s.onClose = []) : (kickWriteHandshake x x.other serverFirst o).run s = (false, s) ∨
      ∃ s', (kickWriteHandshake x x.other serverFirst o).run s = (true, s') ∧ s'.Settled := by
  rw [kickWriteHandshake]
  split
  · exact .inl rfl
  · rcases o.err with _ | ⟨err, benign⟩
    · exact .inl rfl
    · simp only
      split
      · exact .inl rfl
      · obtain ⟨inboundClosed, outboundOpen, outboundClosed, done, onClose⟩ := s
        subst hdone hcalls
        cases x <;> exact .inr ⟨_, rfl, rfl, rfl, fun _ => rfl⟩

variable (o : ConnOutcome)

/-- The handshakes fail, or the two copies settle the connection. -/
theorem ends_kickAndCopy (hdone : s.done = false) (hcalls : s.onClose = []) :
    Prog.Pool.Ends Conns.Settled (started (kickAndCopy o) s) := by
  rw [started, kickAndCopy, run_bind]
  rcases run_kickWriteHandshake .inbound o.serverFirst o.uploadKick hdone hcalls with hfirst | ⟨s', hfirst, hsettled⟩
  · simp only [Side.other] at hfirst
    simp only [hfirst, false_eq_true, if_false, run_bind]
    rcases run_kickWriteHandshake .outbound o.serverFirst o.downloadKick hdone hcalls with
      hsecond | ⟨s', hsecond, hsettled⟩
    · simp only [Side.other] at hsecond
      simp only [hsecond, false_eq_true, if_false, run_pure]
      obtain ⟨e, hup⟩ := copying_connectionCopy .inbound o.upload
      obtain ⟨e', hdown⟩ := copying_connectionCopy .outbound o.download
      exact ends_stream (.both hup hdown hdone hcalls)
    · simp only [Side.other] at hsecond
      simp only [hsecond, if_true, run_pure]
      exact ends_nil.2 hsettled
  · simp only [Side.other] at hfirst
    simp only [hfirst, if_true, run_pure]
    exact ends_nil.2 hsettled

/-- A stream that the connection manager gets is settled. -/
theorem ends_newConnection : Prog.Pool.Ends Conns.Settled (started (newConnection o)) := by
  cases hdial : o.dialErr with
  | some err =>
    simp only [newConnection, hdial]
    exact ends_nil.2 ⟨rfl, rfl, nofun⟩
  | none =>
    cases hreport : o.reportErr with
    | some err =>
      simp only [newConnection, hdial, hreport]
      exact ends_nil.2 ⟨rfl, rfl, fun _ => rfl⟩
    | none =>
      cases hspoof : (if o.tlsSpoof then o.spoofErr else none) with
      | some err =>
        simp only [newConnection, hdial, hreport, hspoof]
        exact ends_nil.2 ⟨rfl, rfl, fun _ => rfl⟩
      | none =>
        simp only [newConnection, hdial, hreport, hspoof]
        exact ends_kickAndCopy o rfl rfl

/-- A packet connection that the connection manager gets is settled unless its
handshake report fails. -/
theorem ends_newPacketConnection (o : PacketOutcome) :
    Prog.Pool.Ends Conns.Settled (started (newPacketConnection o)) ↔ (o.dialErr = none → o.reportErr = none) := by
  cases hdial : o.dialErr with
  | some err =>
    refine ⟨fun _ => nofun, fun _ => ?_⟩
    simp only [newPacketConnection, hdial]
    exact ends_nil.2 ⟨rfl, rfl, nofun⟩
  | none =>
    cases hreport : o.reportErr with
    | some err =>
      simp only [newPacketConnection, hdial, hreport]
      constructor
      · intro h
        obtain ⟨hcalls, -⟩ := ends_nil.1 h
        exact nomatch hcalls
      · exact fun h => nomatch h trivial
    | none =>
      refine ⟨fun _ _ => rfl, fun _ => ?_⟩
      simp only [newPacketConnection, hdial, hreport]
      exact ends_packets (.both (copying_packetConnectionCopy .inbound o.upload)
        (copying_packetConnectionCopy .outbound o.download) rfl rfl)

/-! ## Calls of the router -/

/-- The call returns an error, or the connection goes to an outbound or to the
DNS hijacker. -/
def Router.Routed.Ours {C : Type} (routed : Router.Routed C) : Prop :=
  (∃ err, routed.err = some err) ∨
    routed.err = none ∧ ((∃ tag c, routed.handed.getLast? = some (.outbound tag, c)) ∨
      ∃ c, routed.handed.getLast? = some (.dnsHijacker, c))

/-- The connection is not given to another inbound. -/
def Router.Routed.NoDetour {C : Type} (routed : Router.Routed C) : Prop :=
  ∀ h ∈ routed.handed, ∀ tag, h.1 ≠ .detour tag

namespace Router

variable (r : Router X)

theorem getLast?_throughTrackers (m : Sniff.InboundContext X) (conn : C) (last : Party × C)
    (trackers : List (Sniff.InboundContext X → Bool)) (i : Nat) :
    (∃ err, (throughTrackers m conn last trackers i).err = some err) ∨
      (throughTrackers m conn last trackers i).err = none ∧
        (throughTrackers m conn last trackers i).handed.getLast? = some last := by
  induction trackers generalizing i with
  | nil => exact .inr ⟨rfl, rfl⟩
  | cons accepts trackers ih =>
    rw [throughTrackers]
    split
    · rcases ih (i + 1) with herr | ⟨hnone, hlast⟩
      · exact .inl herr
      · refine .inr ⟨hnone, ?_⟩
        simp [List.getLast?_cons, hlast]
    · exact .inl ⟨_, rfl⟩

theorem ours_throughTrackers (m : Sniff.InboundContext X) (conn c : C) (tag : String)
    (trackers : List (Sniff.InboundContext X → Bool)) :
    (throughTrackers m conn (.outbound tag, c) trackers 0).Ours := by
  rcases getLast?_throughTrackers m conn (.outbound tag, c) trackers 0 with herr | ⟨hnone, hlast⟩
  · exact .inl herr
  · exact .inr ⟨hnone, .inl ⟨tag, c, hlast⟩⟩

theorem target_error {network : Sniff.Network} {name fallback : String} {action : Option (Action X)}
    {err : Option RouteError} (h : r.target network name fallback action = .error err) : ∃ e, err = some e := by
  have hselect : ∀ tag, r.selectOutbound network name tag = .error err → ∃ e, err = some e := by
    intro tag h
    rw [selectOutbound] at h
    split at h
    · cases h
      exact ⟨_, rfl⟩
    · split at h
      · cases h
      · cases h
        exact ⟨_, rfl⟩
  rw [target.eq_def] at h
  split at h
  · split at h
    · cases h
    · cases h
      exact ⟨_, rfl⟩
  · exact hselect _ h
  · split at h
    · cases h
    · exact hselect _ h
  · cases h
    exact ⟨_, rfl⟩
  · rename_i method noDrop flooded hreply
    cases h
    cases method with
    | reply => exact absurd rfl hreply
    | default | drop => exact ⟨_, rfl⟩
  · cases h
  · cases h

variable {m : Sniff.InboundContext X}

theorem ours_routeDetour {injectable : Bool × Bool → Bool} {network : String} {conn : C}
    (h : (r.routeDetour injectable network m conn).NoDetour) :
    (r.routeDetour injectable network m conn).Ours := by
  by_cases hloop : (m.lastInbound == m.inboundDetour) = true
  · exact .inl ⟨_, by rw [routeDetour, if_pos hloop]; rfl⟩
  · cases hinbound : r.inbound m.inboundDetour with
    | none => exact .inl ⟨_, by rw [routeDetour, if_neg hloop, hinbound]; rfl⟩
    | some takes =>
      cases hinject : injectable takes with
      | true =>
        have hdetour : (r.routeDetour injectable network m conn).handed = [(.detour m.inboundDetour, conn)] := by
          simp only [routeDetour, if_neg hloop, hinbound, hinject, if_true]
        refine absurd rfl (h (.detour m.inboundDetour, conn) ?_ m.inboundDetour)
        rw [hdetour]
        exact List.mem_singleton_self _
      | false =>
        refine .inl ⟨.text ("inbound detour is not " ++ network ++ " injectable: " ++ m.inboundDetour), ?_⟩
        simp only [routeDetour, if_neg hloop, hinbound, hinject, false_eq_true, if_false, failed]

theorem ours_routeConnection {conn : List Sniff.ReadEvent}
    (h : (r.routeConnection m conn).NoDetour) : (r.routeConnection m conn).Ours := by
  rw [routeConnection] at h ⊢
  by_cases hdetour : (m.inboundDetour != "") = true
  · rw [if_pos hdetour] at h ⊢
    exact r.ours_routeDetour h
  · rw [if_neg hdetour]
    split
    · exact .inl ⟨_, rfl⟩
    · split
      · exact .inr ⟨rfl, .inr ⟨_, rfl⟩⟩
      · cases r.matchRule false false (streamState m conn) with
        | error err => exact .inl ⟨err, rfl⟩
        | ok out =>
          rw [handConnection]
          split
          · rename_i htarget
            exact .inl (r.target_error htarget)
          · exact .inr ⟨rfl, .inr ⟨_, rfl⟩⟩
          · exact ours_throughTrackers _ _ _ _ _

theorem ours_routePacketConnection {conn : List PacketEvent}
    (h : (r.routePacketConnection m natConn conn).NoDetour) : (r.routePacketConnection m natConn conn).Ours := by
  rw [routePacketConnection] at h ⊢
  by_cases hdetour : (m.inboundDetour != "") = true
  · rw [if_pos hdetour] at h ⊢
    exact r.ours_routeDetour h
  · rw [if_neg hdetour]
    split
    · exact .inr ⟨rfl, .inr ⟨_, rfl⟩⟩
    · cases r.matchRule false false (packetState m conn) with
      | error err => exact .inl ⟨err, rfl⟩
      | ok out =>
        rw [handPacketConnection]
        split
        · rename_i htarget
          exact .inl (r.target_error htarget)
        · exact .inr ⟨rfl, .inr ⟨_, rfl⟩⟩
        · exact ours_throughTrackers _ _ _ _ _

end Router

/-! ## Results -/

theorem ends_handleConnection (h : routed.Ours) :
    Prog.Pool.Ends Conns.Settled (started (handleConnection o routed)) := by
  rcases h with ⟨err, herr⟩ | ⟨hnone, ⟨tag, c, hlast⟩ | ⟨c, hlast⟩⟩
  · simp only [handleConnection, herr]
    exact ends_nil.2 ⟨rfl, rfl, nofun⟩
  · simp only [handleConnection, hnone, hlast]
    exact ends_newConnection o
  · simp only [handleConnection, hnone, hlast]
    exact ends_nil.2 ⟨rfl, rfl, nofun⟩

/-- For an outbound: dialing fails or the handshake report succeeds. For the DNS
hijacker on a connection that is not the UDP NAT's: it ends without an error, or
with one of a closed or canceled connection. -/
def PacketClean {C : Type} (natConn : Bool) (o : PacketOutcome) (routed : Router.Routed C) : Prop :=
  routed.err = none →
    match routed.handed.getLast? with
    | some (.outbound _, _) => o.dialErr = none → o.reportErr = none
    | some (.dnsHijacker, _) => natConn = false → ∀ err, o.dnsErr ≠ some (err, false)
    | _ => True

/-- The DNS hijacker leaves a packet connection to the NAT, or closes it and may
return an error, with which the router closes it again. -/
theorem ends_hijacked {o : PacketOutcome} {c : C}
    (hnone : routed.err = none) (hlast : routed.handed.getLast? = some (.dnsHijacker, c)) :
    Prog.Pool.Ends Conns.Settled (started (handlePacketConnection natConn o routed)) ↔
      (natConn = false → ∀ err, o.dnsErr ≠ some (err, false)) := by
  simp only [handlePacketConnection, hnone, hlast]
  cases natConn with
  | true =>
    refine ⟨fun _ => nofun, fun _ => ?_⟩
    exact ends_single ⟨rfl, rfl, nofun⟩
  | false =>
    match hdns : o.dnsErr with
    | none | some (err, true) =>
      refine ⟨fun _ _ _ => nofun, fun _ => ?_⟩
      simp only [hijackPackets, hdns]
      exact ends_nil.2 ⟨rfl, rfl, nofun⟩
    | some (err, false) =>
      refine ⟨fun hends => ?_, fun hclean => absurd rfl (hclean rfl err)⟩
      simp only [hijackPackets, hdns] at hends
      -- `onClose` has been called by the hijacker and by the router
      have hcalls : ¬(2 = 1) := by decide
      exact absurd (ends_nil.1 hends).1 hcalls

theorem ends_handlePacketConnection {o : PacketOutcome} (h : routed.Ours) :
    Prog.Pool.Ends Conns.Settled (started (handlePacketConnection natConn o routed)) ↔
      PacketClean natConn o routed := by
  rcases h with ⟨err, herr⟩ | ⟨hnone, ⟨tag, c, hlast⟩ | ⟨c, hlast⟩⟩
  · simp only [PacketClean, handlePacketConnection, herr]
    refine ⟨fun _ => nofun, fun _ => ?_⟩
    exact ends_nil.2 ⟨rfl, rfl, nofun⟩
  · simp only [PacketClean, handlePacketConnection, hnone, hlast, forall_const]
    exact ends_newPacketConnection o
  · simp only [PacketClean, hnone, hlast, forall_const]
    exact ends_hijacked hnone hlast

namespace Router

/-- Every stream that no detour takes away is settled under every schedule of its
copies: `onClose` has been called once, and the inbound connection and an opened
outbound connection are closed. For packet connections this holds exactly when
no handshake report fails and the DNS hijacker returns no error. -/
theorem settled_iff (r : Router X) (m : Sniff.InboundContext X) :
    (∀ (conn : List Sniff.ReadEvent) (o : ConnOutcome), (r.routeConnection m conn).NoDetour →
      Prog.Pool.Ends Conns.Settled (started (r.routeConnectionEx m conn o))) ∧
    ∀ (natConn : Bool) (conn : List PacketEvent) (o : PacketOutcome),
      (r.routePacketConnection m natConn conn).NoDetour →
        (Prog.Pool.Ends Conns.Settled (started (r.routePacketConnectionEx m natConn conn o)) ↔
          PacketClean natConn o (r.routePacketConnection m natConn conn)) := by
  refine ⟨fun conn o h => ?_, fun natConn conn o h => ?_⟩
  · exact ends_handleConnection o (r.ours_routeConnection h)
  · exact ends_handlePacketConnection (r.ours_routePacketConnection h)

theorem settled_iff_sample :
    Prog.Pool.Ends Conns.Settled (started ((sampleRouter []).routeConnectionEx sampleClient [.read [1]]
      { download := { err := some "connection reset by peer" } })) ∧
    Prog.Pool.Ends Conns.Settled (started ((sampleRouter []).routePacketConnectionEx sampleClient true
      [.packet ⟨[1], {}⟩] {})) := by
  have hstream : ((sampleRouter []).routeConnection sampleClient [.read [1]]).NoDetour := by
    intro h hmem tag
    cases List.mem_singleton.1 hmem
    nofun
  have hpackets : ((sampleRouter []).routePacketConnection sampleClient true [.packet ⟨[1], {}⟩]).NoDetour := by
    intro h hmem tag
    cases List.mem_singleton.1 hmem
    nofun
  refine ⟨(settled_iff (sampleRouter []) sampleClient).1 _ _ hstream, ?_⟩
  exact ((settled_iff (sampleRouter []) sampleClient).2 true _ _ hpackets).2 fun _ _ => rfl

/-- A packet connection whose handshake report fails is closed and its inbound is
never told. One whose DNS hijacker fails to process a packet has `onClose` called
by the hijacker and by the router. -/
theorem packet_onClose_not_once :
    (started ((sampleRouter []).routePacketConnectionEx sampleClient false [.packet ⟨[1], {}⟩]
        { reportErr := some "broken pipe" })).threads = [] ∧
    (started ((sampleRouter []).routePacketConnectionEx sampleClient false [.packet ⟨[1], {}⟩]
        { reportErr := some "broken pipe" })).shared =
      { inboundClosed := true, outboundOpen := true, outboundClosed := true } ∧
    (started ((sampleRouter [sampleHijack]).routePacketConnectionEx sampleClient false [.packet ⟨[1], {}⟩]
        { dnsErr := some ("dns: overflow unpacking uint16", false) })).threads = [] ∧
    (started ((sampleRouter [sampleHijack]).routePacketConnectionEx sampleClient false [.packet ⟨[1], {}⟩]
        { dnsErr := some ("dns: overflow unpacking uint16", false) })).shared.onClose.length = 2 :=
  ⟨rfl, rfl, rfl, rfl⟩

end Router

end Singlink.Route
