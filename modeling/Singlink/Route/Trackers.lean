import Singlink.Lib.Rely
import Singlink.Route.Router
import Singlink.V2Board.Active
/-!
# Connection trackers

The loops of `routeConnection` and `routePacketConnection` over the trackers, with
the trackers there are: the traffic manager (`common/trafficcontrol`), the stats
service (`experimental/v2rayapi`) and the traffic tracker of `service/v2board`,
the only one that refuses connections. A tracker registers a connection when it
wraps it and unregisters it when the wrapper is closed, so a refused connection
stays registered unless all of its wrappers are closed.

Routings are programs of atomic actions; others route and close connections,
update nodes and take snapshots in between.
-/

namespace Singlink.Route

open Lib V2Board Function List NodeTraffic

variable {R Dest : Type}

/-! ## Wrappers -/

abbrev ManagerRef := Nat
abbrev BoardRef := Nat
abbrev NodeRef := Nat

/-- A connection on its way through the trackers: that of the inbound, or a
wrapper of `bufio` that counts bytes, of the traffic manager, of `trackConn`, or
of the rate limiter. -/
inductive Wrapped where
  | inbound (id : Nat)
  | counted (conn : Wrapped)
  | managed (manager : ManagerRef) (id : Nat) (conn : Wrapped)
  | tracked (ref : Nat) (conn : Wrapped)
  | rateLimited (ref : Nat) (conn : Wrapped)
  deriving DecidableEq

/-- `trafficcontrol.Manager`: the open connections by their ID, and those closed
last. -/
structure Manager where
  connections : GoMap Nat Unit := ∅
  closedConnections : List Nat := []

/-- `trackedConn` and `trackedPacketConn`, without what they wrap. -/
structure TrackedConn where
  node : NodeRef
  counter : CounterRef
  once : Bool := false

/-- The state of all trackers and wrappers. `rateLimits` says of each rate limited
connection whether its context is canceled; `dropped` collects the connections
that trackers had been handed when another one refused. -/
structure Trackers (R : Type) where
  managers : ManagerRef → Manager
  nextID : Nat := 0
  boards : BoardRef → GoMap String NodeRef
  nodes : NodeRef → NodeTraffic R
  trackedConns : List TrackedConn := []
  rateLimits : List Bool := []
  closedInbounds : List Nat := []
  dropped : List Wrapped := []

namespace Trackers

def setManager (s : Trackers R) (m : ManagerRef) (manager : Manager) : Trackers R :=
  { s with managers := Function.update s.managers m manager }

def setNode (s : Trackers R) (node : NodeRef) (n : NodeTraffic R) : Trackers R :=
  { s with nodes := Function.update s.nodes node n }

/-! ## The traffic manager -/

def closedConnectionsLimit : Nat := 1000

/-- `join` of a new tracker; `uuid.NewV4` gives an ID that no other has. -/
def join (m : ManagerRef) (s : Trackers R) : Nat × Trackers R :=
  let manager := s.managers m
  (s.nextID, { s.setManager m { manager with connections := manager.connections.insert s.nextID () } with
    nextID := s.nextID + 1 })

def loadAndDelete (m : ManagerRef) (id : Nat) (s : Trackers R) : Bool × Trackers R :=
  let manager := s.managers m
  ((manager.connections.lookup id).isSome, s.setManager m { manager with connections := manager.connections.erase id })

def pushClosed (m : ManagerRef) (id : Nat) (s : Trackers R) : Trackers R :=
  let manager := s.managers m
  let closed := if closedConnectionsLimit ≤ manager.closedConnections.length then manager.closedConnections.tail
    else manager.closedConnections
  s.setManager m { manager with closedConnections := closed ++ [id] }

/-- `leave`, without the event it emits. -/
def leave (m : ManagerRef) (id : Nat) : Prog (Trackers R) Unit := do
  let loaded ← Prog.atomic (loadAndDelete m id)
  if loaded then Prog.modify (pushClosed m id)

/-! ## Counted connections -/

/-- `trackConn` and `trackPacketConn`. -/
def track (node : NodeRef) (counter : CounterRef) (s : Trackers R) : Nat × Trackers R :=
  (s.trackedConns.length, { s.setNode node ((s.nodes node).trackConn counter) with
    trackedConns := s.trackedConns ++ [{ node := node, counter := counter }] })

/-- The `once.Do` of `trackedConn.Close`. -/
def untrack (ref : Nat) (s : Trackers R) : Trackers R :=
  match s.trackedConns[ref]? with
  | none => s
  | some t =>
    if t.once then s
    else { s.setNode t.node ((s.nodes t.node).untrackConn t.counter) with
      trackedConns := s.trackedConns.set ref { t with once := true } }

/-- The context of `newRateLimitedConn` and `newRateLimitedPacketConn`. -/
def newRateLimit (s : Trackers R) : Nat × Trackers R :=
  (s.rateLimits.length, { s with rateLimits := s.rateLimits ++ [false] })

def cancel (ref : Nat) (s : Trackers R) : Trackers R := { s with rateLimits := s.rateLimits.set ref true }

def closeInbound (id : Nat) (s : Trackers R) : Trackers R := { s with closedInbounds := id :: s.closedInbounds }

end Trackers

/-- `Close`. A wrapper closes what it wraps. -/
def Wrapped.close : Wrapped → Prog (Trackers R) Unit
  | inbound id => Prog.modify (Trackers.closeInbound id)
  | counted conn => conn.close
  | managed m id conn => do
    Trackers.leave m id
    conn.close
  | tracked ref conn => do
    conn.close
    Prog.modify (Trackers.untrack ref)
  | rateLimited ref conn => do
    Prog.modify (Trackers.cancel ref)
    conn.close

/-! ## Routing through the trackers -/

/-- What trackers read of the metadata and of the outbound. -/
structure RoutedMetadata (Dest : Type) extends Routing Dest where
  inbound : String
  outbound : String

/-- `StatsService`, without its byte counters. -/
structure StatsService where
  inbounds : List String
  outbounds : List String
  users : List String

/-- A tracker. For the traffic tracker it comes with the time and the order of
the map range in its `markOnline`. -/
inductive Tracker where
  | manager (ref : ManagerRef)
  | stats (service : StatsService)
  | board (ref : BoardRef) (now : Time) (order : List String)

def StatsService.counts (service : StatsService) (m : RoutedMetadata Dest) : Bool :=
  m.inbound != "" && service.inbounds.contains m.inbound || m.outbound != "" && service.outbounds.contains m.outbound ||
    m.user != "" && service.users.contains m.user

section

-- `nodeRules.blocks`, and the network of a destination
variable (blocks : R → Dest → String → Bool) (network : Dest → String)

/-- The `match` of the traffic tracker: the node of the inbound and the counter
of the user. -/
def matchCounter (board : BoardRef) (m : RoutedMetadata Dest) : Prog (Trackers R) (Option (NodeRef × CounterRef)) :=
  if m.inbound == "" || m.user == "" then pure none
  else do
    match ← Prog.read fun s : Trackers R => (s.boards board).lookup m.inbound with
    | none => pure none
    | some node =>
      let counter ← Prog.read fun s : Trackers R => (s.nodes node).counter m.user
      pure (counter.map fun counter => (node, counter))

def markOnline (node : NodeRef) (m : RoutedMetadata Dest) (now : Time) (order : List String) : Prog (Trackers R) Bool :=
  .atomic fun s =>
    let marked := (s.nodes node).markOnline m.user m.ip now order
    (marked.1, s.setNode node marked.2)

/-- The protocol that the block rules of a node are asked for. -/
def blockProtocol (packet : Bool) (m : RoutedMetadata Dest) : String :=
  if packet && m.protocol == "" then network m.destination else m.protocol

/-- A refusal closes the connection that the tracker has been given. -/
def refuse (conn : Wrapped) : Prog (Trackers R) (Option Wrapped) := do
  conn.close
  pure none

/-- The end of `RoutedConnection` of the traffic tracker: the connection is
counted and limited. -/
def wrapTracked (node : NodeRef) (counter : CounterRef) (m : RoutedMetadata Dest) (conn : Wrapped) :
    Prog (Trackers R) (Option Wrapped) := do
  let limiter ← Prog.read fun s : Trackers R => (s.nodes node).speedLimiter m.user
  let ref ← Prog.atomic (Trackers.track node counter)
  match limiter with
  | none => pure (some (.counted (.tracked ref conn)))
  | some _ =>
    let limit ← Prog.atomic Trackers.newRateLimit
    pure (some (.counted (.rateLimited limit (.tracked ref conn))))

/-- `RoutedConnection` and `RoutedPacketConnection` of the traffic tracker. -/
def boardRouted (packet : Bool) (board : BoardRef) (now : Time) (order : List String) (m : RoutedMetadata Dest)
    (conn : Wrapped) : Prog (Trackers R) (Option Wrapped) := do
  match ← matchCounter board m with
  | none => pure (some conn)
  | some (node, counter) =>
    let blocked ← Prog.read fun s : Trackers R => blocks (s.nodes node).rules m.destination (blockProtocol network packet m)
    if blocked then refuse conn
    else
      let online ← markOnline node m now order
      if online then wrapTracked node counter m conn else refuse conn

/-- `RoutedConnection` and `RoutedPacketConnection` of a tracker. -/
def Tracker.routed (packet : Bool) (m : RoutedMetadata Dest) (conn : Wrapped) :
    Tracker → Prog (Trackers R) (Option Wrapped)
  | manager ref => do
    let id ← Prog.atomic (Trackers.join ref)
    pure (some (.managed ref id (.counted conn)))
  | stats service => pure (some (if service.counts m then .counted conn else conn))
  | board ref now order => boardRouted blocks network packet ref now order m conn

def throughTrackers (packet : Bool) (m : RoutedMetadata Dest) :
    List Tracker → Nat → Wrapped → Prog (Trackers R) (Router.Routed Wrapped)
  | [], _, conn => pure { handed := [(.outbound m.outbound, conn)] }
  | tracker :: trackers, i, conn => do
    match ← tracker.routed blocks network packet m conn with
    | none => pure { handed := [(.tracker i, conn)], err := some (.rejected true) }
    | some trackedConn =>
      let routed ← throughTrackers packet m trackers (i + 1) trackedConn
      pure { routed with handed := (.tracker i, conn) :: routed.handed }

/-- Everything the trackers had been handed is dropped with the connection. -/
def dropAll (routed : Router.Routed Wrapped) (s : Trackers R) : Trackers R :=
  { s with dropped := routed.handed.map Prod.snd ++ s.dropped }

/-- The routing of a connection of an inbound. When it is refused, the router's
caller closes the connection it was given; else the outbound has it. -/
def routeThrough (packet : Bool) (m : RoutedMetadata Dest) (trackers : List Tracker) (id : Nat) :
    Prog (Trackers R) Unit := do
  let routed ← throughTrackers blocks network packet m trackers 0 (.inbound id)
  match routed.err with
  | none => pure ()
  | some _ =>
    Prog.modify (dropAll routed)
    (Wrapped.inbound id).close

/-- What runs beside each other: routings, the closing of connections by whoever
has them, operations on a node, and changes of the nodes of a traffic tracker. -/
inductive Spawned : Prog (Trackers R) Unit → Prop
  | route (packet : Bool) (m : RoutedMetadata Dest) (trackers : List Tracker) (id : Nat) :
      Spawned (routeThrough blocks network packet m trackers id)
  | close (conn : Wrapped) : Spawned conn.close
  | operate (node : NodeRef) (op : NodeOp R) : op.Uncounted →
      Spawned (Prog.modify fun s => s.setNode node ((s.nodes node).operate op))
  | setNodes (board : BoardRef) (nodes : GoMap String NodeRef) :
      Spawned (Prog.modify fun s => { s with boards := Function.update s.boards board nodes })

end

/-- Nothing has been routed yet. -/
def Trackers.Start (s : Trackers R) : Prop :=
  ∃ (boards : BoardRef → GoMap String NodeRef) (rules : NodeRef → R),
    s = { managers := fun _ => {}, boards, nodes := fun node => .zero (rules node) }

/-! ## What is closed -/

/-- All wrappers of the connection are closed and unregistered, and so is the
inbound connection. -/
def Wrapped.Closed (s : Trackers R) : Wrapped → Prop
  | inbound id => id ∈ s.closedInbounds
  | counted conn => conn.Closed s
  | managed m id conn => id < s.nextID ∧ (s.managers m).connections.lookup id = none ∧ conn.Closed s
  | tracked ref conn => (∃ t : TrackedConn, s.trackedConns[ref]? = some t ∧ t.once = true) ∧ conn.Closed s
  | rateLimited ref conn => s.rateLimits[ref]? = some true ∧ conn.Closed s

def Wrapped.Known (s : Trackers R) : Wrapped → Prop
  | inbound _ => True
  | counted conn => conn.Known s
  | managed _ id conn => id < s.nextID ∧ conn.Known s
  | tracked ref conn => (∃ t, s.trackedConns[ref]? = some t) ∧ conn.Known s
  | rateLimited ref conn => (∃ canceled, s.rateLimits[ref]? = some canceled) ∧ conn.Known s

/-- What is closed stays closed, and nothing that was made is unmade. -/
structure Trackers.Le (s s' : Trackers R) : Prop where
  nextID : s.nextID ≤ s'.nextID
  left : ∀ m id, id < s.nextID → (s.managers m).connections.lookup id = none →
    (s'.managers m).connections.lookup id = none
  next : ∀ node, (s.nodes node).next ≤ (s'.nodes node).next
  tracked : ∀ (ref : Nat) (t : TrackedConn), s.trackedConns[ref]? = some t →
    ∃ t' : TrackedConn, s'.trackedConns[ref]? = some t' ∧ (t.once = true → t'.once = true)
  canceled : ∀ (ref : Nat) (b : Bool), s.rateLimits[ref]? = some b →
    ∃ b' : Bool, s'.rateLimits[ref]? = some b' ∧ (b = true → b' = true)
  inbounds : ∀ id ∈ s.closedInbounds, id ∈ s'.closedInbounds

instance : Preorder (Trackers R) where
  le := Trackers.Le
  le_refl s := ⟨le_rfl, fun _ _ _ h => h, fun _ => le_rfl, fun _ t h => ⟨t, h, id⟩, fun _ b h => ⟨b, h, id⟩, fun _ h => h⟩
  le_trans s s' s'' h h' := by
    refine ⟨h.nextID.trans h'.nextID, ?_, fun node => (h.next node).trans (h'.next node), ?_, ?_, ?_⟩
    · intro m id hid hleft
      exact h'.left m id (Nat.lt_of_lt_of_le hid h.nextID) (h.left m id hid hleft)
    · intro ref t ht
      obtain ⟨t', ht', honce⟩ := h.tracked ref t ht
      obtain ⟨t'', ht'', honce'⟩ := h'.tracked ref t' ht'
      exact ⟨t'', ht'', fun ho => honce' (honce ho)⟩
    · intro ref b hb
      obtain ⟨b', hb', hcanceled⟩ := h.canceled ref b hb
      obtain ⟨b'', hb'', hcanceled'⟩ := h'.canceled ref b' hb'
      exact ⟨b'', hb'', fun hc => hcanceled' (hcanceled hc)⟩
    · intro id hid
      exact h'.inbounds id (h.inbounds id hid)

variable {s' : Trackers R} {conn : Wrapped} {nodes : NodeRef → NodeTraffic R} {conns : List TrackedConn} {ref : Nat}
  {t : TrackedConn} {node : NodeRef} {counter : CounterRef} {s : Trackers R}

theorem Wrapped.Closed.mono (hle : s ≤ s') (h : conn.Closed s) : conn.Closed s' := by
  induction conn with
  | inbound id => exact hle.inbounds id h
  | counted conn ih => exact ih h
  | managed m id conn ih =>
    exact ⟨lt_of_lt_of_le h.1 hle.nextID, hle.left m id h.1 h.2.1, ih h.2.2⟩
  | tracked ref conn ih =>
    obtain ⟨⟨t, ht, honce⟩, hconn⟩ := h
    obtain ⟨t', ht', hkeep⟩ := hle.tracked ref t ht
    exact ⟨⟨t', ht', hkeep honce⟩, ih hconn⟩
  | rateLimited ref conn ih =>
    obtain ⟨b, hb, hkeep⟩ := hle.canceled ref true h.1
    exact ⟨by rw [hb, hkeep rfl], ih h.2⟩

theorem Wrapped.Known.mono (hle : s ≤ s') (h : conn.Known s) : conn.Known s' := by
  induction conn with
  | inbound id => trivial
  | counted conn ih => exact ih h
  | managed m id conn ih => exact ⟨lt_of_lt_of_le h.1 hle.nextID, ih h.2⟩
  | tracked ref conn ih =>
    obtain ⟨⟨t, ht⟩, hconn⟩ := h
    obtain ⟨t', ht', -⟩ := hle.tracked ref t ht
    exact ⟨⟨t', ht'⟩, ih hconn⟩
  | rateLimited ref conn ih =>
    obtain ⟨⟨b, hb⟩, hconn⟩ := h
    obtain ⟨b', hb', -⟩ := hle.canceled ref b hb
    exact ⟨⟨b', hb'⟩, ih hconn⟩

/-! ## The invariant -/

/-- The connections that a counter of a node should count. -/
def openOn (conns : List TrackedConn) (node : NodeRef) (c : CounterRef) : Nat :=
  conns.countP fun t => t.node == node && t.counter == c && !t.once

/-- Every counter of every node counts the open connections it was given to. -/
structure CountsOpen (nodes : NodeRef → NodeTraffic R) (conns : List TrackedConn) : Prop where
  wf : ∀ node, (nodes node).Wf
  counter_lt : ∀ t ∈ conns, t.counter < (nodes t.node).next
  active : ∀ node c, ((nodes node).heap c).active = openOn conns node c

structure Trackers.Inv (s : Trackers R) : Prop where
  counts : CountsOpen s.nodes s.trackedConns
  dropped : ∀ conn ∈ s.dropped, conn.Closed s

/-- Actions that leave the nodes and counted connections alone keep the
invariant. -/
theorem Trackers.Inv.of_le (h : s.Inv) (hle : s ≤ s') (hcounts : CountsOpen s'.nodes s'.trackedConns)
    (hdropped : s'.dropped = s.dropped) : s'.Inv := by
  refine ⟨hcounts, fun conn hconn => ?_⟩
  rw [hdropped] at hconn
  exact (h.dropped conn hconn).mono hle

theorem CountsOpen.freshZero (h : CountsOpen nodes conns) (node : NodeRef) : (nodes node).FreshZero := by
  intro c hc
  rw [h.active, openOn, countP_eq_zero.2]
  · rfl
  · intro t ht hcount
    simp only [Bool.and_eq_true, beq_iff_eq] at hcount
    obtain ⟨⟨rfl, rfl⟩, -⟩ := hcount
    exact absurd (h.counter_lt t ht) (Nat.not_lt_of_le hc)

theorem CountsOpen.setNode (h : CountsOpen nodes conns)
    (node : NodeRef) {n : NodeTraffic R} (hwf : n.Wf) (hnext : (nodes node).next ≤ n.next)
    (hactive : ∀ c, (n.heap c).active = ((nodes node).heap c).active) : CountsOpen (update nodes node n) conns := by
  refine ⟨fun node' => ?_, fun t ht => ?_, fun node' c => ?_⟩
  · by_cases heq : node' = node
    · subst heq
      rw [update_self]
      exact hwf
    · rw [update_of_ne heq]
      exact h.wf node'
  · by_cases heq : t.node = node
    · subst heq
      rw [update_self]
      exact lt_of_lt_of_le (h.counter_lt t ht) hnext
    · rw [update_of_ne heq]
      exact h.counter_lt t ht
  · by_cases heq : node' = node
    · subst heq
      rw [update_self, hactive, h.active]
    · rw [update_of_ne heq, h.active]

theorem active_modifyCounter (nodes : NodeRef → NodeTraffic R) (node : NodeRef) (counter : CounterRef) (f : Int → Int)
    (node' : NodeRef) (c : CounterRef) :
    ((update nodes node ((nodes node).modifyCounter counter fun u => { u with active := f u.active })
      node').heap c).active =
        if node = node' ∧ counter = c then f ((nodes node').heap c).active else ((nodes node').heap c).active := by
  by_cases hnode : node' = node
  · subst hnode
    rw [update_self, modifyCounter]
    by_cases hc : c = counter
    · subst hc
      simp
    · rw [if_neg fun h => hc h.2.symm]
      simp only [update_of_ne hc]
  · rw [update_of_ne hnode, if_neg fun h => hnode h.1.symm]

theorem next_modifyCounter (nodes : NodeRef → NodeTraffic R) (node : NodeRef) (counter : CounterRef)
    (f : UserCounter → UserCounter) (node' : NodeRef) :
    (update nodes node ((nodes node).modifyCounter counter f) node').next = (nodes node').next := by
  rw [update_apply]
  split
  · rename_i heq
    subst heq
    rfl
  · rfl

theorem openOn_append (conns : List TrackedConn) (t : TrackedConn) (honce : t.once = false) (node : NodeRef)
    (c : CounterRef) :
    openOn (conns ++ [t]) node c = openOn conns node c + if t.node = node ∧ t.counter = c then 1 else 0 := by
  simp [openOn, honce]

theorem openOn_set (ht : conns[ref]? = some t) (honce : t.once = false) (node : NodeRef) (c : CounterRef) :
    openOn conns node c =
      openOn (conns.set ref { t with once := true }) node c + if t.node = node ∧ t.counter = c then 1 else 0 := by
  obtain ⟨hlt, heq⟩ := List.getElem?_eq_some_iff.1 ht
  -- the list is that of the others with the connection put back
  have hsplit : conns = conns.take ref ++ t :: conns.drop (ref + 1) := by
    rw [← heq, getElem_cons_drop, take_append_drop]
  have hset : conns.set ref { t with once := true } =
      conns.take ref ++ { t with once := true } :: conns.drop (ref + 1) := by
    rw [set_eq_take_append_cons_drop, if_pos hlt]
  rw [hset]
  nth_rewrite 1 [hsplit]
  simp only [openOn, countP_append, countP_cons, honce, Bool.not_false, Bool.and_true, Bool.not_true,
    Bool.and_false, Bool.false_eq_true, if_false, Bool.and_eq_true, beq_iff_eq]
  omega

theorem CountsOpen.track (h : CountsOpen nodes conns) (hlt : counter < (nodes node).next) :
    CountsOpen (update nodes node ((nodes node).trackConn counter)) (conns ++ [{ node := node, counter := counter }]) := by
  refine ⟨fun node' => ?_, fun t ht => ?_, fun node' c => ?_⟩
  · rw [update_apply]
    split
    · exact wf_trackConn (h.wf node) counter
    · exact h.wf node'
  · rw [trackConn, next_modifyCounter]
    rcases mem_append.1 ht with ht | ht
    · exact h.counter_lt t ht
    · rw [mem_singleton.1 ht]
      exact hlt
  · rw [openOn_append _ _ rfl, trackConn, active_modifyCounter nodes node counter (· + 1), h.active]
    split
    · rfl
    · rfl

theorem CountsOpen.untrack (h : CountsOpen nodes conns) (ht : conns[ref]? = some t) (honce : t.once = false) :
    CountsOpen (update nodes t.node ((nodes t.node).untrackConn t.counter))
      (conns.set ref { t with once := true }) := by
  refine ⟨fun node' => ?_, fun t' ht' => ?_, fun node' c => ?_⟩
  · rw [update_apply]
    split
    · exact wf_untrackConn (h.wf t.node) t.counter
    · exact h.wf node'
  · rw [untrackConn, next_modifyCounter]
    rcases mem_or_eq_of_mem_set ht' with ht' | rfl
    · exact h.counter_lt t' ht'
    · exact h.counter_lt t (mem_of_getElem? ht)
  · rw [untrackConn, active_modifyCounter nodes t.node t.counter (· - 1), h.active, openOn_set ht honce]
    split
    · omega
    · rfl

/-! ## Actions -/

namespace Trackers

variable {s : Trackers R}

theorem le_setManager {m : ManagerRef} {manager : Manager}
    (hleft : ∀ id < s.nextID, (s.managers m).connections.lookup id = none → manager.connections.lookup id = none) :
    s ≤ s.setManager m manager := by
  refine ⟨le_rfl, fun m' id hid h => ?_, fun _ => le_rfl, fun _ t ht => ⟨t, ht, id⟩, fun _ b hb => ⟨b, hb, id⟩,
    fun _ h => h⟩
  simp only [setManager, update_apply]
  split
  · rename_i heq
    subst heq
    exact hleft id hid h
  · exact h

theorem le_setNode {n : NodeTraffic R} (hnext : (s.nodes node).next ≤ n.next) : s ≤ s.setNode node n := by
  refine ⟨le_rfl, fun _ _ _ h => h, fun node' => ?_, fun _ t ht => ⟨t, ht, id⟩, fun _ b hb => ⟨b, hb, id⟩, fun _ h => h⟩
  simp only [setNode, update_apply]
  split
  · rename_i heq
    subst heq
    exact hnext
  · exact le_rfl

theorem inv_join (h : s.Inv) (m : ManagerRef) : s ≤ (join m s).2 ∧ (join m s).2.Inv := by
  have hle : s ≤ (join m s).2 := by
    refine ⟨Nat.le_succ _, fun m' id hid hnone => ?_, fun _ => le_rfl, fun _ t ht => ⟨t, ht, fun h => h⟩,
      fun _ b hb => ⟨b, hb, fun h => h⟩, fun _ h => h⟩
    simp only [join, setManager, update_apply]
    split
    · rename_i heq
      subst heq
      rw [GoMap.lookup_insert_eq, if_neg (ne_of_lt hid)]
      exact hnone
    · exact hnone
  exact ⟨hle, h.of_le hle h.counts rfl⟩

theorem inv_loadAndDelete (h : s.Inv) (m : ManagerRef) (id : Nat) :
    s ≤ (loadAndDelete m id s).2 ∧ (loadAndDelete m id s).2.Inv := by
  have hle : s ≤ (loadAndDelete m id s).2 := by
    refine le_setManager fun id' _ hnone => ?_
    rw [GoMap.lookup_erase_eq]
    split
    · rfl
    · exact hnone
  exact ⟨hle, h.of_le hle h.counts rfl⟩

theorem lookup_loadAndDelete (s : Trackers R) (m : ManagerRef) (id : Nat) :
    ((loadAndDelete m id s).2.managers m).connections.lookup id = none := by
  simp only [loadAndDelete, setManager, update_self]
  rw [GoMap.lookup_erase_eq, if_pos rfl]

section

variable (h : s.Inv)

include h

theorem inv_pushClosed (m : ManagerRef) (id : Nat) : s ≤ pushClosed m id s ∧ (pushClosed m id s).Inv := by
  have hle : s ≤ pushClosed m id s := le_setManager fun _ _ hnone => hnone
  exact ⟨hle, h.of_le hle h.counts rfl⟩

theorem inv_closeInbound (id : Nat) : s ≤ closeInbound id s ∧ (closeInbound id s).Inv := by
  have hle : s ≤ closeInbound id s :=
    ⟨le_rfl, fun _ _ _ h => h, fun _ => le_rfl, fun _ t ht => ⟨t, ht, fun h => h⟩, fun _ b hb => ⟨b, hb, fun h => h⟩,
      fun _ h => mem_cons_of_mem _ h⟩
  exact ⟨hle, h.of_le hle h.counts rfl⟩

theorem inv_newRateLimit : s ≤ (newRateLimit s).2 ∧ (newRateLimit s).2.Inv := by
  have hle : s ≤ (newRateLimit s).2 := by
    refine ⟨le_rfl, fun _ _ _ h => h, fun _ => le_rfl, fun _ t ht => ⟨t, ht, id⟩, fun ref b hb => ⟨b, ?_, id⟩, fun _ h => h⟩
    exact (List.getElem?_append_left (List.getElem?_eq_some_iff.1 hb).1).trans hb
  exact ⟨hle, h.of_le hle h.counts rfl⟩

theorem inv_cancel (ref : Nat) : s ≤ cancel ref s ∧ (cancel ref s).Inv := by
  have hle : s ≤ cancel ref s := by
    refine ⟨le_rfl, fun _ _ _ h => h, fun _ => le_rfl, fun _ t ht => ⟨t, ht, id⟩, fun ref' b hb => ?_, fun _ h => h⟩
    by_cases heq : ref = ref'
    · subst heq
      exact ⟨true, List.getElem?_set_self (List.getElem?_eq_some_iff.1 hb).1, fun _ => rfl⟩
    · exact ⟨b, (getElem?_set_ne heq).trans hb, id⟩
  exact ⟨hle, h.of_le hle h.counts rfl⟩

theorem inv_operate (node : NodeRef) {op : NodeOp R} (hop : op.Uncounted) :
    s ≤ s.setNode node ((s.nodes node).operate op) ∧ (s.setNode node ((s.nodes node).operate op)).Inv := by
  obtain ⟨hnext, hactive⟩ := active_operate (h.counts.wf node) (h.counts.freshZero node) hop
  have hle : s ≤ s.setNode node ((s.nodes node).operate op) := le_setNode hnext
  exact ⟨hle, h.of_le hle (h.counts.setNode node (wf_operate (h.counts.wf node) op) hnext hactive) rfl⟩

theorem inv_setNodes (board : BoardRef) (nodes : GoMap String NodeRef) :
    s ≤ { s with boards := update s.boards board nodes } ∧ Inv { s with boards := update s.boards board nodes } := by
  have hle : s ≤ { s with boards := update s.boards board nodes } :=
    ⟨le_rfl, fun _ _ _ h => h, fun _ => le_rfl, fun _ t ht => ⟨t, ht, id⟩, fun _ b hb => ⟨b, hb, id⟩, fun _ h => h⟩
  exact ⟨hle, h.of_le hle h.counts rfl⟩

theorem inv_track (hlt : counter < (s.nodes node).next) :
    s ≤ (track node counter s).2 ∧ (track node counter s).2.Inv := by
  have hle : s ≤ (track node counter s).2 := by
    have hnode : s ≤ s.setNode node ((s.nodes node).trackConn counter) := le_setNode le_rfl
    refine ⟨hnode.nextID, hnode.left, hnode.next, fun ref t ht => ⟨t, ?_, fun h => h⟩, hnode.canceled, hnode.inbounds⟩
    exact (List.getElem?_append_left (List.getElem?_eq_some_iff.1 ht).1).trans ht
  exact ⟨hle, h.of_le hle (h.counts.track hlt) rfl⟩

theorem inv_untrack (ref : Nat) : s ≤ untrack ref s ∧ (untrack ref s).Inv := by
  unfold untrack
  split
  · exact ⟨le_rfl, h⟩
  · rename_i t ht
    cases honce : t.once with
    | true =>
      exact ⟨le_rfl, h⟩
    | false =>
      have hnode : s ≤ s.setNode t.node ((s.nodes t.node).untrackConn t.counter) := le_setNode le_rfl
      have hle : s ≤ { s.setNode t.node ((s.nodes t.node).untrackConn t.counter) with
          trackedConns := s.trackedConns.set ref { t with once := true } } := by
        refine ⟨hnode.nextID, hnode.left, hnode.next, fun ref' t' ht' => ?_, hnode.canceled, hnode.inbounds⟩
        by_cases heq : ref = ref'
        · subst heq
          exact ⟨{ t with once := true }, List.getElem?_set_self (List.getElem?_eq_some_iff.1 ht).1, fun _ => rfl⟩
        · exact ⟨t', (getElem?_set_ne heq).trans ht', fun h => h⟩
      exact ⟨hle, h.of_le hle (h.counts.untrack ht honce) rfl⟩

end

theorem once_untrack (ht : s.trackedConns[ref]? = some t) :
    ∃ t' : TrackedConn, (untrack ref s).trackedConns[ref]? = some t' ∧ t'.once = true := by
  simp only [untrack, ht]
  split
  · rename_i honce
    exact ⟨t, ht, honce⟩
  · exact ⟨_, List.getElem?_set_self (List.getElem?_eq_some_iff.1 ht).1, rfl⟩

theorem inv_dropAll (h : s.Inv) {routed : Router.Routed Wrapped} (hclosed : ∀ w ∈ routed.handed, w.2.Closed s) :
    s ≤ dropAll routed s ∧ (dropAll routed s).Inv := by
  have hle : s ≤ dropAll routed s :=
    ⟨le_rfl, fun _ _ _ h => h, fun _ => le_rfl, fun _ t ht => ⟨t, ht, id⟩, fun _ b hb => ⟨b, hb, id⟩, fun _ h => h⟩
  refine ⟨hle, h.counts, fun conn hconn => ?_⟩
  rcases mem_append.1 hconn with hconn | hconn
  · obtain ⟨w, hw, rfl⟩ := mem_map.1 hconn
    exact (hclosed w hw).mono hle
  · exact (h.dropped conn hconn).mono hle

end Trackers

/-! ## Programs -/

section

open Prog

variable {s : Trackers R}

open Trackers

theorem safe_leave (m : ManagerRef) (id : Nat) : (leave m id).Safe Trackers.Inv
      (fun _ s' => id < s.nextID → (s'.managers m).connections.lookup id = none) s := by
  refine .bind
    (Q := fun _ s' => id < s.nextID → (s'.managers m).connections.lookup id = none)
    (Safe.atomic fun s' hle hI => ?_) fun loaded s' hle hI hleft => ?_
  · obtain ⟨hup, hI'⟩ := inv_loadAndDelete hI m id
    refine ⟨hup, hI', fun s'' hle'' _ hid => ?_⟩
    exact hle''.left m id (lt_of_lt_of_le hid (hle.trans hup).nextID) (lookup_loadAndDelete s' m id)
  · cases loaded with
    | false => exact .pure fun s'' hle'' _ hid => hle''.left m id (lt_of_lt_of_le hid hle.nextID) (hleft hid)
    | true =>
      refine .modify fun t hle' hI' => ?_
      obtain ⟨hup, hI''⟩ := inv_pushClosed hI' m id
      refine ⟨hup, hI'', fun s'' hle'' _ hid => ?_⟩
      exact (hle'.trans (hup.trans hle'')).left m id (lt_of_lt_of_le hid hle.nextID) (hleft hid)

theorem safe_close (conn : Wrapped) : conn.close.Safe Trackers.Inv (fun _ s' => conn.Known s → conn.Closed s') s := by
  induction conn generalizing s with
  | inbound id =>
    refine .modify fun s' hle hI => ?_
    obtain ⟨hup, hI'⟩ := inv_closeInbound hI id
    exact ⟨hup, hI', fun s'' hle'' _ _ => hle''.inbounds id mem_cons_self⟩
  | counted conn ih => exact ih
  | managed m id conn ih =>
    refine .bind (safe_leave m id) fun _ s' hle hI hleft => ?_
    refine ih.conseq fun _ s'' hle' _ hclosed hknown => ?_
    obtain ⟨hid, hconn⟩ := hknown
    exact ⟨lt_of_lt_of_le hid (hle.trans hle').nextID,
      hle'.left m id (lt_of_lt_of_le hid hle.nextID) (hleft hid), hclosed (hconn.mono hle)⟩
  | tracked ref conn ih =>
    refine .bind ih fun _ s' hle hI hclosed => ?_
    refine .modify fun t hle' hI' => ?_
    obtain ⟨hup, hI''⟩ := inv_untrack hI' ref
    refine ⟨hup, hI'', fun s'' hle'' _ hknown => ?_⟩
    obtain ⟨⟨c, hc⟩, hconn⟩ := hknown
    obtain ⟨c', hc', -⟩ := (hle.trans hle').tracked ref c hc
    obtain ⟨c'', hc'', honce⟩ := once_untrack hc'
    obtain ⟨last, hlast, hkeep⟩ := hle''.tracked ref c'' hc''
    exact ⟨⟨last, hlast, hkeep honce⟩, (hclosed hconn).mono (hle'.trans (hup.trans hle''))⟩
  | rateLimited ref conn ih =>
    refine .bind (Q := fun _ s' => ∀ b, s.rateLimits[ref]? = some b → s'.rateLimits[ref]? = some true)
      (Safe.modify fun s' hle hI => ?_) fun _ s' hle hI hcanceled => ?_
    · obtain ⟨hup, hI'⟩ := inv_cancel hI ref
      refine ⟨hup, hI', fun s'' hle'' _ b hb => ?_⟩
      obtain ⟨b', hb', -⟩ := hle.canceled ref b hb
      have hset : (cancel ref s').rateLimits[ref]? = some true :=
        List.getElem?_set_self (List.getElem?_eq_some_iff.1 hb').1
      obtain ⟨b'', hb'', hkeep⟩ := hle''.canceled ref true hset
      rw [hb'', hkeep rfl]
    · refine ih.conseq fun _ s'' hle' _ hclosed hknown => ?_
      obtain ⟨⟨b, hb⟩, hconn⟩ := hknown
      obtain ⟨b', hb', hkeep⟩ := hle'.canceled ref true (hcanceled b hb)
      exact ⟨by rw [hb', hkeep rfl], hclosed (hconn.mono hle)⟩

/-- What a tracker answers to `conn`: a wrapper of it, or nothing, and then it is
closed. -/
def Answered (conn : Wrapped) (out : Option Wrapped) (s : Trackers R) : Prop :=
  match out with
  | some w => w.Known s ∧ ∀ s' : Trackers R, w.Closed s' → conn.Closed s'
  | none => conn.Closed s

variable {blocks : R → Dest → String → Bool} {network : Dest → String}

theorem safe_refuse (hknown : conn.Known s) : (refuse conn).Safe Trackers.Inv (Answered conn) s := by
  refine .bind (safe_close conn) fun _ s' hle _ hclosed => ?_
  exact .pure fun s'' hle' _ => (hclosed hknown).mono hle'

theorem safe_matchCounter (board : BoardRef) (m : RoutedMetadata Dest) : (matchCounter board m).Safe Trackers.Inv
      (fun out s' => ∀ node counter, out = some (node, counter) → counter < (s'.nodes node).next) s := by
  unfold matchCounter
  split
  · exact .pure fun _ _ _ => nofun
  · refine .bind (Q := fun _ _ => True) (Safe.read fun _ _ _ _ _ _ => trivial) fun found s' _ _ _ => ?_
    cases found with
    | none => exact .pure fun _ _ _ => nofun
    | some node =>
      refine .bind (Q := fun counter t => ∀ c, counter = some c → c < (t.nodes node).next)
        (Safe.read fun t _ hI t' hle' _ c hc => ?_) fun counter t _ _ hlt => ?_
      · have hlookup : (t.nodes node).counters.lookup m.user = some c := by
          rw [counter] at hc
          split at hc
          · cases hc
          · exact hc
        exact lt_of_lt_of_le ((hI.counts.wf node).counter_lt _ _ hlookup) (hle'.next node)
      · refine .pure fun t' hle' _ node' c hout => ?_
        obtain ⟨c', rfl, heq⟩ := Option.map_eq_some_iff.1 hout
        cases heq
        exact lt_of_lt_of_le (hlt c rfl) (hle'.next node)

theorem safe_markOnline (node : NodeRef) (m : RoutedMetadata Dest) (now : Time) (order : List String) :
    (markOnline node m now order).Safe Trackers.Inv (fun _ _ => True) s := by
  refine .atomic fun s' _ hI => ?_
  obtain ⟨hup, hI'⟩ := inv_operate hI node (show NodeOp.Uncounted (.markOnline m.user m.ip now order) from trivial)
  exact ⟨hup, hI', fun _ _ _ => trivial⟩

theorem safe_wrapTracked (m : RoutedMetadata Dest) (hlt : counter < (s.nodes node).next) (hknown : conn.Known s) :
    (wrapTracked node counter m conn).Safe Trackers.Inv (Answered conn) s := by
  refine .bind (Q := fun _ _ => True) (Safe.read fun _ _ _ _ _ _ => trivial) fun limiter s' hle _ _ => ?_
  refine .bind (Q := fun ref t => ∃ c, t.trackedConns[ref]? = some c) (Safe.atomic fun t hle' hI => ?_)
    fun ref t hle' _ htracked => ?_
  · obtain ⟨hup, hI'⟩ := inv_track hI (lt_of_lt_of_le hlt ((hle.trans hle').next node))
    refine ⟨hup, hI', fun t' hle'' _ => ?_⟩
    have hnew : (track node counter t).2.trackedConns[t.trackedConns.length]? =
        some { node := node, counter := counter } := getElem?_concat_length
    obtain ⟨c, hc, -⟩ := hle''.tracked _ _ hnew
    exact ⟨c, hc⟩
  · have hconn : (Wrapped.tracked ref conn).Known t := ⟨htracked, hknown.mono (hle.trans hle')⟩
    cases limiter with
    | none => exact .pure fun t' hle'' _ => ⟨hconn.mono hle'', fun _ h => h.2⟩
    | some limiter =>
      refine .bind (Q := fun limit t' => ∃ b, t'.rateLimits[limit]? = some b) (Safe.atomic fun t' _ hI => ?_)
        fun limit t' hle'' _ hlimit => ?_
      · obtain ⟨hup, hI'⟩ := inv_newRateLimit hI
        refine ⟨hup, hI', fun t'' hle'' _ => ?_⟩
        have hnew : (newRateLimit t').2.rateLimits[t'.rateLimits.length]? = some false :=
          getElem?_concat_length
        obtain ⟨b, hb, -⟩ := hle''.canceled _ _ hnew
        exact ⟨b, hb⟩
      · have hlimited : (Wrapped.rateLimited limit (.tracked ref conn)).Known t' := ⟨hlimit, hconn.mono hle''⟩
        exact .pure fun t'' hlast' _ => ⟨hlimited.mono hlast', fun _ h => h.2.2⟩

variable (packet : Bool)

theorem safe_boardRouted (board : BoardRef) (now : Time) (order : List String)
    (m : RoutedMetadata Dest) (hknown : conn.Known s) :
    (boardRouted blocks network packet board now order m conn).Safe Trackers.Inv (Answered conn) s := by
  refine .bind (safe_matchCounter board m) fun found s' hle _ hlt => ?_
  match found with
  | none => exact .pure fun s'' hle' _ => ⟨hknown.mono (hle.trans hle'), fun _ h => h⟩
  | some (node, counter) =>
    refine .bind (Q := fun _ _ => True) (Safe.read fun _ _ _ _ _ _ => trivial) fun blocked t hle' _ _ => ?_
    cases blocked with
    | true => exact safe_refuse (hknown.mono (hle.trans hle'))
    | false =>
      refine .bind (safe_markOnline node m now order) fun online t' hle'' _ _ => ?_
      have hknown' := hknown.mono (hle.trans (hle'.trans hle''))
      cases online with
      | true => exact safe_wrapTracked m (lt_of_lt_of_le (hlt node counter rfl) ((hle'.trans hle'').next node)) hknown'
      | false => exact safe_refuse hknown'

theorem safe_routed (m : RoutedMetadata Dest) (hknown : conn.Known s) (tracker : Tracker) :
    (tracker.routed blocks network packet m conn).Safe Trackers.Inv (Answered conn) s := by
  cases tracker with
  | manager ref =>
    refine .bind (Q := fun id s' => id < s'.nextID) (Safe.atomic fun s' _ hI => ?_) fun id s' hle _ hid => ?_
    · obtain ⟨hup, hI'⟩ := inv_join hI ref
      exact ⟨hup, hI', fun s'' hle' _ => Nat.lt_of_lt_of_le (Nat.lt_succ_self _) hle'.nextID⟩
    · refine .pure fun s'' hle' _ => ⟨?_, fun _ h => h.2.2⟩
      exact ⟨lt_of_lt_of_le hid hle'.nextID, hknown.mono (hle.trans hle')⟩
  | stats service =>
    refine .pure fun s' hle _ => ?_
    split
    · exact ⟨hknown.mono hle, fun _ h => h⟩
    · exact ⟨hknown.mono hle, fun _ h => h⟩
  | board ref now order => exact safe_boardRouted packet ref now order m hknown

theorem safe_throughTrackers (m : RoutedMetadata Dest) (trackers : List Tracker) (i : Nat) (hknown : conn.Known s) :
    (throughTrackers blocks network packet m trackers i conn).Safe Trackers.Inv
      (fun routed s' => routed.err.isSome → conn.Closed s' ∧ ∀ w ∈ routed.handed, w.2.Closed s') s := by
  induction trackers generalizing s i conn with
  | nil => exact .pure fun _ _ _ => nofun
  | cons tracker trackers ih =>
    refine .bind (safe_routed packet m hknown tracker) fun out s' hle _ hanswer => ?_
    cases out with
    | none =>
      refine .pure fun s'' hle' _ _ => ?_
      have hclosed : conn.Closed s'' := .mono hle' hanswer
      refine ⟨hclosed, fun w hw => ?_⟩
      rw [mem_singleton.1 hw]
      exact hclosed
    | some w =>
      refine .bind (ih (i + 1) hanswer.1) fun routed t _ _ hrouted => ?_
      refine .pure fun t' hle' _ herr => ?_
      obtain ⟨hw, hhanded⟩ := hrouted herr
      have hclosed : conn.Closed t' := hanswer.2 t' (hw.mono hle')
      refine ⟨hclosed, fun v hv => ?_⟩
      rcases mem_cons.1 hv with rfl | hv
      · exact hclosed
      · exact (hhanded v hv).mono hle'

theorem safe_routeThrough (m : RoutedMetadata Dest) (trackers : List Tracker) (id : Nat) :
    (routeThrough blocks network packet m trackers id).Safe Trackers.Inv (fun _ _ => True) s := by
  have hknown : (Wrapped.inbound id).Known s := trivial
  refine .bind (safe_throughTrackers packet m trackers 0 hknown) fun routed s' _ _ hrouted => ?_
  cases herr : routed.err with
  | none => exact .pure fun _ _ _ => trivial
  | some err =>
    obtain ⟨-, hclosed⟩ := hrouted (by rw [herr]; rfl)
    refine .bind (Q := fun _ _ => True) (Safe.modify fun t hle hI => ?_) fun _ t _ _ _ => ?_
    · obtain ⟨hup, hI'⟩ := inv_dropAll hI fun w hw => (hclosed w hw).mono hle
      exact ⟨hup, hI', fun _ _ _ => trivial⟩
    · exact (safe_close _).conseq fun _ _ _ _ _ => trivial

theorem safe_spawned {p : Prog (Trackers R) Unit} (hp : Spawned blocks network p) :
    p.Safe Trackers.Inv (fun _ _ => True) s := by
  cases hp with
  | route packet m trackers id => exact safe_routeThrough packet m trackers id
  | close conn => exact (safe_close conn).conseq fun _ _ _ _ _ => trivial
  | operate node op hop =>
    refine .modify fun s' _ hI => ?_
    obtain ⟨hup, hI'⟩ := inv_operate hI node hop
    exact ⟨hup, hI', fun _ _ _ => trivial⟩
  | setNodes board nodes =>
    refine Safe.modify fun s' _ hI => ?_
    obtain ⟨hup, hI'⟩ := inv_setNodes hI board nodes
    exact ⟨hup, hI', fun _ _ _ => trivial⟩

end

theorem inv_of_start (h : s.Start) : s.Inv := by
  obtain ⟨boards, rules, rfl⟩ := h
  refine ⟨⟨fun node => wf_zero (rules node), nofun, fun node c => rfl⟩, nofun⟩

/-! ## Results -/

/-- However routings, closings and the other operations of trackers interleave:
when a tracker has refused a connection, everything the trackers before it made
of the connection is closed and no longer registered with a traffic manager, and
each counter of each node counts exactly the open connections it was given to. -/
theorem refused_not_counted (blocks : R → Dest → String → Bool) (network : Dest → String)
    {pool : Prog.Pool (Trackers R)}
    (h : Reach (Prog.pool Trackers.Start (Spawned blocks network)) (fun _ _ => True) pool) :
    (∀ conn ∈ pool.shared.dropped, conn.Closed pool.shared) ∧
      ∀ node c, ((pool.shared.nodes node).heap c).active = openOn pool.shared.trackedConns node c := by
  obtain ⟨hI, -⟩ := Prog.pool_safe (fun s hs => inv_of_start hs) (fun p hp s _ => safe_spawned hp) h
  exact ⟨hI.dropped, hI.counts.active⟩

/-! ## Samples -/

/-- A node for the inbound `in`, which has no users yet. -/
def sampleTrackers : Trackers Unit where
  managers _ := {}
  boards _ := (∅ : GoMap String NodeRef).insert "in" 0
  nodes _ := .zero ()

/-- A connection of the user `u` that a traffic manager wraps before the traffic
tracker finds its destination blocked. -/
def sampleRefusal : Prog (Trackers Unit) Unit :=
  routeThrough (fun _ _ _ => true) (fun _ => "tcp") false { sampleRouting with inbound := "in", outbound := "direct" }
    [.manager 0, .board 0 1 []] 7

/-- The node gets its users, then the connection is routed. -/
def sampleRefused : Prog.Pool (Trackers Unit) :=
  let updated := Prog.Pool.act { shared := sampleTrackers, threads := [Prog.modify fun s =>
    s.setNode 0 ((s.nodes 0).operate (.update sampleUpdate))] } 0
  (List.replicate 9 0).foldl Prog.Pool.act { updated with threads := sampleRefusal :: updated.threads }

theorem reach_sampleRefused :
    Reach (Prog.pool Trackers.Start (Spawned (fun _ _ _ => true) (fun _ : Unit => "tcp"))) (fun _ _ => True)
      sampleRefused := by
  have hstart : Reach (Prog.pool Trackers.Start (Spawned (fun _ _ _ => true) (fun _ : Unit => "tcp")))
      (fun _ _ => True) { shared := sampleTrackers, threads := [] } := .init ⟨⟨_, _, rfl⟩, rfl⟩
  have hupdate := Prog.Pool.reach_spawn (fun _ _ => trivial) hstart (.operate 0 (.update sampleUpdate) trivial)
  have hroute := Prog.Pool.reach_spawn (fun _ _ => trivial) (Prog.Pool.reach_act (fun _ _ => trivial) hupdate 0)
    (.route false { sampleRouting with inbound := "in", outbound := "direct" } [.manager 0, .board 0 1 []] 7)
  exact Prog.Pool.reach_acts (fun _ _ => trivial) hroute _

theorem refused_not_counted_sample :
    sampleRefused.shared.dropped = [.inbound 7, .managed 0 0 (.counted (.inbound 7))] ∧
      (Wrapped.managed 0 0 (.counted (.inbound 7))).Closed sampleRefused.shared := by
  have hdropped : sampleRefused.shared.dropped = [.inbound 7, .managed 0 0 (.counted (.inbound 7))] := by decide
  refine ⟨hdropped, (refused_not_counted (fun _ _ _ => true) _ reach_sampleRefused).1 _ ?_⟩
  rw [hdropped]
  exact .tail _ (.head _)

end Singlink.Route
