import Singlink.Lib.Runs
import Singlink.V2Board.Snapshot
/-!
# Traffic conservation

Runs of one node: its operations in any order, with the connections routed
through it and the reports taken from it. Every byte counted for a user ID is in
a report that was not taken back, or on a counter the node still reads.
-/

namespace Singlink.V2Board

open Lib NodeTraffic List Function

/-! ## Runs -/

/-- A routed connection: its counter, and the user ID its key was mapped to
when it was routed. -/
structure Conn where
  counter : CounterRef
  uid : Int
  deriving DecidableEq

/-- A node, the open connections, the traffic reports that were returned and
not taken back, and how many bytes have been counted for each user ID. -/
structure TrafficRun (R : Type) where
  node : NodeTraffic R
  conns : List Conn
  returned : List (List UserTraffic)
  counted : Int → Bytes

structure Routing (Dest : Type) where
  user : String
  ip : String
  destination : Dest
  protocol : String
  deriving DecidableEq

inductive TrafficOp (R Dest : Type) where
  | update (a : UpdateArgs R)
  | updateAliveList (alive : GoMap Int Int) (aliveAt : Time) (aliveTTL : Duration)
  | route (r : Routing Dest) (now : Time) (order : List String)
  | count (conn : Conn) (upload download : Nat)
  | close (conn : Conn)
  | snapshot (trafficMin onlineMin : Int) (order : SnapshotOrder)
  | restoreTraffic (traffic : List UserTraffic) (orders : Nat → List String)
  | restoreAlive (alive : GoMap Int (List String)) (order : RestoreAliveOrder)

variable {R Dest : Type} (blocks : R → Dest → String → Bool)

/-- `RoutedConnection` and `RoutedPacketConnection` in one step: the counter
the connection was given, if it was accepted and belongs to a user. -/
def NodeTraffic.route (n : NodeTraffic R) (r : Routing Dest) (now : Time) (order : List String) :
    Option CounterRef × NodeTraffic R :=
  match n.counter r.user with
  | none => (none, n)
  | some counter =>
    if blocks n.rules r.destination r.protocol then (none, n)
    else match n.markOnline r.user r.ip now order with
      | (false, n) => (none, n)
      | (true, n) => (some counter, n.trackConn counter)

/-- One operation. Counting and closing are for open connections, and a report
is taken back once. -/
def TrafficRun.step (s : TrafficRun R) : TrafficOp R Dest → TrafficRun R
  | .update a => { s with node := s.node.updateUsers a }
  | .updateAliveList alive aliveAt aliveTTL => { s with node := s.node.updateAliveList alive aliveAt aliveTTL }
  | .route r now order =>
    match s.node.route blocks r now order with
    | (none, node) => { s with node := node }
    | (some counter, node) =>
      { s with node := node, conns := { counter := counter, uid := s.node.users.get r.user 0 } :: s.conns }
  | .count conn upload download =>
    if conn ∈ s.conns then
      { s with
        node := s.node.count conn.counter upload download
        counted := Function.update s.counted conn.uid (s.counted conn.uid + (upload, download)) }
    else s
  | .close conn =>
    if conn ∈ s.conns then { s with node := s.node.untrackConn conn.counter, conns := s.conns.erase conn } else s
  | .snapshot trafficMin onlineMin order =>
    let (snapshot, node) := s.node.snapshot trafficMin onlineMin order
    { s with node := node, returned := snapshot.traffic :: s.returned }
  | .restoreTraffic traffic orders =>
    if traffic ∈ s.returned then
      { s with node := s.node.restoreTraffic traffic orders, returned := s.returned.erase traffic }
    else s
  | .restoreAlive alive order => { s with node := s.node.restoreAlive alive order }

/-- A new node that nothing was routed through. -/
def TrafficRun.start (rules : R) : TrafficRun R :=
  { node := .zero rules, conns := [], returned := [], counted := fun _ => 0 }

def trafficSystem : System (TrafficRun R) (TrafficOp R Dest) where
  init s := ∃ rules, s = .start rules
  step s op s' := s' = s.step blocks op

/-- Snapshots whose minimum leaves nothing unreported. -/
def TrafficOp.ReportsAll : TrafficOp R Dest → Prop
  | .snapshot trafficMin _ _ => trafficMin ≤ 1
  | _ => True

/-! ## The invariant -/

/-- The bytes of `uid` in the reports not taken back. -/
def TrafficRun.reported (s : TrafficRun R) (uid : Int) : Bytes := (s.returned.map (trafficOf · uid)).sum

structure TrafficRun.Inv (s : TrafficRun R) : Prop where
  wf : s.node.Wf
  conn_lt : ∀ conn ∈ s.conns, conn.counter < s.node.next
  /-- the counter of a connection is held for nobody but its user -/
  conn_owner : ∀ conn ∈ s.conns, ∀ u, 0 < u → s.node.Held u conn.counter → u = conn.uid
  conn_held : ∀ conn ∈ s.conns, 0 < conn.uid → s.node.Held conn.uid conn.counter
  /-- a held counter knows how many connections it has -/
  active : ∀ u c, s.node.Held u c → (s.node.heap c).active = s.conns.countP (·.counter = c)
  returned_pos : ∀ traffic ∈ s.returned, ∀ entry ∈ traffic, 0 < entry.uid
  conserved : ∀ uid, 0 < uid → s.counted uid = s.reported uid + s.node.heldBytes uid

open TrafficRun

theorem inv_start (rules : R) : (start rules).Inv where
  wf := wf_zero rules
  conn_lt := by simp [start]
  conn_owner := by simp [start]
  conn_held := by simp [start]
  active := by simp [start, NodeTraffic.Held, zero, GoMap.get]
  returned_pos := by simp [start]
  conserved := by
    intro uid _
    rfl

variable {s : TrafficRun R}

theorem TrafficRun.Inv.congr (h : s.Inv) {n : NodeTraffic R} (husers : n.users = s.node.users)
    (hcounters : n.counters = s.node.counters) (hpending : n.pending = s.node.pending) (hheap : n.heap = s.node.heap)
    (hnext : n.next = s.node.next) : TrafficRun.Inv { s with node := n } := by
  have hheld : ∀ u c, n.Held u c ↔ s.node.Held u c := by
    intro u c
    simp only [NodeTraffic.Held, husers, hcounters, hpending]
  have hcounted : ∀ u, n.heldBytes u = s.node.heldBytes u := by
    intro u
    simp only [heldBytes, heldCounters, husers, hcounters, hpending, hheap]
  refine ⟨⟨?_, ?_, ?_, ?_, ?_⟩, ?_, ?_, ?_, ?_, h.returned_pos, ?_⟩
  · rw [husers, hcounters]
    exact h.wf.dom
  · rw [hcounters, hnext]
    exact h.wf.counter_lt
  · rw [hpending, hnext]
    exact h.wf.pending_lt
  · rw [hpending]
    exact h.wf.pending_pos
  · simp only [hheld]
    exact h.wf.owner
  · simp only [hnext]
    exact h.conn_lt
  · simp only [hheld]
    exact h.conn_owner
  · simp only [hheld]
    exact h.conn_held
  · simp only [hheld, hheap]
    exact h.active
  · simp only [hcounted]
    exact h.conserved

/-- An operation that keeps what is held, with what it does to the bytes. -/
theorem TrafficRun.Inv.extends (h : s.Inv) {n : NodeTraffic R} (hext : s.node.Extends n)
    {returned : List (List UserTraffic)} (hreturned : ∀ traffic ∈ returned, traffic ∈ s.returned)
    (hbytes : ∀ uid, 0 < uid → s.reported uid + s.node.heldBytes uid =
      (returned.map (trafficOf · uid)).sum + n.heldBytes uid) :
    TrafficRun.Inv { s with node := n, returned := returned } := by
  refine ⟨hext.wf, ?_, ?_, ?_, ?_, ?_, ?_⟩
  · intro conn hconn
    exact lt_of_lt_of_le (h.conn_lt conn hconn) hext.next_le
  · intro conn hconn u hpos hheld
    exact h.conn_owner conn hconn u hpos (hext.old u _ (h.conn_lt conn hconn) hheld)
  · intro conn hconn hpos
    exact hext.keep _ _ hpos (h.conn_held conn hconn hpos)
  · intro u c hheld
    rcases lt_or_ge c s.node.next with hc | hc
    · exact (hext.active_old c hc).trans (h.active u c (hext.old u c hc hheld))
    · -- a new counter has no connection
      have hnone : s.conns.countP (·.counter = c) = 0 := by
        rw [countP_eq_zero]
        intro conn hconn heq
        rw [decide_eq_true_eq] at heq
        exact absurd (heq ▸ h.conn_lt conn hconn) (not_lt_of_ge hc)
      simp only [hext.active_new u c hc hheld, hnone]
      rfl
  · intro traffic htraffic
    exact h.returned_pos traffic (hreturned traffic htraffic)
  · intro uid hpos
    exact (h.conserved uid hpos).trans (hbytes uid hpos)

theorem inv_update (h : s.Inv) (a : UpdateArgs R) : TrafficRun.Inv { s with node := s.node.updateUsers a } := by
  refine h.extends (extends_updateUsers h.wf a) (fun _ => id) fun uid hpos => ?_
  rw [heldBytes_updateUsers h.wf a hpos]
  rfl

theorem inv_restoreTraffic (h : s.Inv) {traffic : List UserTraffic} (htraffic : traffic ∈ s.returned)
    (orders : Nat → List String) :
    TrafficRun.Inv { s with
      node := s.node.restoreTraffic traffic orders, returned := s.returned.erase traffic } := by
  obtain ⟨hext, hbytes⟩ := restoreTraffic_spec h.wf traffic orders (h.returned_pos traffic htraffic)
  refine h.extends hext (fun _ => mem_of_mem_erase) fun uid _ => ?_
  -- what leaves the reports comes to be held
  have hsum := ((perm_cons_erase htraffic).map (trafficOf · uid)).sum_eq
  rw [map_cons, sum_cons] at hsum
  rw [reported, hsum, hbytes, add_comm (trafficOf traffic uid), add_assoc, add_comm (trafficOf traffic uid)]

theorem inv_snapshot (h : s.Inv) {trafficMin : Int} (hmin : trafficMin ≤ 1) (onlineMin : Int)
    (order : SnapshotOrder) :
    TrafficRun.Inv { s with
      node := (s.node.snapshot trafficMin onlineMin order).2
      returned := (s.node.snapshot trafficMin onlineMin order).1.traffic :: s.returned } := by
  refine ⟨wf_snapshot trafficMin onlineMin order h.wf, h.conn_lt, ?_, ?_, ?_, ?_, ?_⟩
  · intro conn hconn u hpos hheld
    exact h.conn_owner conn hconn u hpos (held_of_snapshot trafficMin onlineMin order hheld)
  · intro conn hconn hpos
    rcases h.conn_held conn hconn hpos with hheld | hheld
    · exact (held_snapshot trafficMin onlineMin order _ _).2 (.inl hheld)
    · -- a pending counter with a connection is not dropped
      refine (held_snapshot trafficMin onlineMin order _ _).2 (.inr ⟨hheld, ?_⟩)
      rw [h.active _ _ (.inr hheld), Int.natCast_pos, countP_pos_iff]
      exact ⟨conn, hconn, decide_eq_true rfl⟩
  · intro u c hheld
    exact (snapshot_active trafficMin onlineMin order c).trans
      (h.active u c (held_of_snapshot trafficMin onlineMin order hheld))
  · intro traffic htraffic entry hentry
    rcases mem_cons.1 htraffic with rfl | htraffic
    · exact snapshot_traffic_pos trafficMin onlineMin order entry hentry
    · exact h.returned_pos traffic htraffic entry hentry
  · intro uid hpos
    -- nothing held is below a minimum of 1, other than nothing
    have hall : trafficOf (s.node.snapshot trafficMin onlineMin order).1.traffic uid = s.node.heldBytes uid := by
      rw [trafficOf_snapshot h.wf trafficMin onlineMin order hpos]
      split
      · rfl
      · have hzero : (s.node.heldBytes uid).1 = 0 ∧ (s.node.heldBytes uid).2 = 0 := by omega
        exact (Prod.ext hzero.1 hzero.2 : s.node.heldBytes uid = 0).symm
    simp only [reported, map_cons, sum_cons, hall]
    rw [heldBytes_snapshot trafficMin onlineMin order hpos, add_zero, add_comm]
    exact h.conserved uid hpos

theorem inv_count (h : s.Inv) {conn : Conn} (hconn : conn ∈ s.conns) (upload download : Nat) :
    TrafficRun.Inv { s with
      node := s.node.count conn.counter upload download
      counted := Function.update s.counted conn.uid (s.counted conn.uid + (upload, download)) } := by
  classical
  have hext := extends_count h.wf conn.counter upload download
  refine ⟨hext.wf, h.conn_lt, h.conn_owner, h.conn_held, ?_, h.returned_pos, ?_⟩
  · intro u c hheld
    exact (hext.active_old c (h.wf.held_lt hheld)).trans (h.active u c hheld)
  · intro uid hpos
    simp only [heldBytes_count]
    by_cases huid : uid = conn.uid
    · subst huid
      rw [update_self, if_pos (h.conn_held conn hconn hpos), h.conserved _ hpos, add_assoc]
      rfl
    · rw [update_of_ne huid, if_neg fun hheld => huid (h.conn_owner conn hconn uid hpos hheld)]
      exact h.conserved uid hpos

theorem inv_close (h : s.Inv) {conn : Conn} (hconn : conn ∈ s.conns) :
    TrafficRun.Inv { s with node := s.node.untrackConn conn.counter, conns := s.conns.erase conn } := by
  have hmem : ∀ conn' ∈ s.conns.erase conn, conn' ∈ s.conns := fun _ => mem_of_mem_erase
  refine ⟨?_, fun c hc => h.conn_lt c (hmem c hc), fun c hc => h.conn_owner c (hmem c hc),
    fun c hc => h.conn_held c (hmem c hc), ?_, h.returned_pos, ?_⟩
  · exact wf_untrackConn h.wf conn.counter
  · intro u c hheld
    have hcount := (perm_cons_erase hconn).countP_eq (·.counter = c)
    rw [countP_cons] at hcount
    have hactive := h.active u c hheld
    simp only [untrackConn, modifyCounter]
    by_cases hc : c = conn.counter
    · subst hc
      simp only [decide_true, if_true] at hcount
      rw [update_self]
      simp only [hactive]
      omega
    · have hne : ¬conn.counter = c := fun h => hc h.symm
      simp only [hne, decide_false, Bool.false_eq_true, if_false] at hcount
      rw [update_of_ne hc]
      omega
  · intro uid hpos
    rw [h.conserved uid hpos]
    exact congrArg _ (heldBytes_untrackConn s.node conn.counter uid).symm

/-- A routed connection is given the counter of its key; what it does to the
addresses marked online has no part in the traffic. -/
theorem route_cases (n : NodeTraffic R) (r : Routing Dest) (now : Time) (order : List String) :
    (∃ online, n.route blocks r now order = (none, { n with online := online })) ∨
      ∃ c u online, n.users.lookup r.user = some u ∧ n.counters.lookup r.user = some c ∧
        n.route blocks r now order = (some c, trackConn { n with online := online } c) := by
  unfold route counter
  cases hu : n.users.lookup r.user with
  | none => exact .inl ⟨n.online, rfl⟩
  | some u =>
    cases hc : n.counters.lookup r.user with
    | none => exact .inl ⟨n.online, rfl⟩
    | some c =>
      simp only [Option.isNone_some, Bool.false_eq_true, if_false]
      split
      · exact .inl ⟨n.online, rfl⟩
      · obtain ⟨online, honline⟩ := markOnline_cases n r.user r.ip now order
        split
        · rename_i n' hmark
          rw [hmark] at honline
          exact .inl ⟨online, congrArg _ honline⟩
        · rename_i n' hmark
          rw [hmark] at honline
          exact .inr ⟨c, u, online, rfl, rfl, congrArg (fun m : NodeTraffic R => (some c, m.trackConn c)) honline⟩

theorem inv_route (h : s.Inv) (r : Routing Dest) (now : Time) (order : List String) :
    (s.step blocks (.route r now order)).Inv := by
  rcases route_cases blocks s.node r now order with ⟨online, hroute⟩ | ⟨c, u, online, hu, hc, hroute⟩
  · simp only [step, hroute]
    exact h.congr rfl rfl rfl rfl rfl
  · have huid : s.node.users.get r.user 0 = u := by
      rw [GoMap.get, hu]
      rfl
    have hheld : s.node.Held u c := .inl ⟨r.user, hu, hc⟩
    have hmark : TrafficRun.Inv { s with node := { s.node with online := online } } := h.congr rfl rfl rfl rfl rfl
    simp only [step, hroute, huid]
    refine ⟨?_, ?_, ?_, ?_, ?_, h.returned_pos, ?_⟩
    · exact wf_trackConn hmark.wf c
    · intro conn hconn
      rcases mem_cons.1 hconn with rfl | hconn
      · exact h.wf.held_lt hheld
      · exact h.conn_lt conn hconn
    · intro conn hconn u' hpos hheld'
      rcases mem_cons.1 hconn with rfl | hconn
      · exact h.wf.owner u' u c hheld' hheld
      · exact h.conn_owner conn hconn u' hpos hheld'
    · intro conn hconn hpos
      rcases mem_cons.1 hconn with rfl | hconn
      · exact hheld
      · exact h.conn_held conn hconn hpos
    · intro u' c' hheld'
      have hactive := h.active u' c' hheld'
      simp only [trackConn, modifyCounter, countP_cons]
      by_cases hcc : c' = c
      · subst hcc
        simp only [update_self, decide_true, if_true]
        omega
      · have hne : ¬c = c' := fun h => hcc h.symm
        simp only [update_of_ne hcc, hne, decide_false, Bool.false_eq_true, if_false]
        omega
    · intro uid hpos
      rw [h.conserved uid hpos]
      exact congrArg _ (heldBytes_trackConn ({ s.node with online := online }) c uid).symm

theorem inv_step (h : s.Inv) {op : TrafficOp R Dest} (hop : op.ReportsAll) : (s.step blocks op).Inv := by
  cases op with
  | update a => exact inv_update h a
  | updateAliveList alive aliveAt aliveTTL => exact h.congr rfl rfl rfl rfl rfl
  | route r now order => exact inv_route blocks h r now order
  | count conn upload download =>
    simp only [step]
    split
    · rename_i hconn
      exact inv_count h hconn upload download
    · exact h
  | close conn =>
    simp only [step]
    split
    · rename_i hconn
      exact inv_close h hconn
    · exact h
  | snapshot trafficMin onlineMin order => exact inv_snapshot h hop onlineMin order
  | restoreTraffic traffic orders =>
    simp only [step]
    split
    · rename_i htraffic
      exact inv_restoreTraffic h htraffic orders
    · exact h
  | restoreAlive alive order =>
    obtain ⟨online, honline⟩ := restoreAlive_cases s.node alive order
    simp only [step, honline]
    exact h.congr rfl rfl rfl rfl rfl

/-! ## Conservation -/

/-- In every run, the bytes counted on connections routed for a user ID above 0
are those in the reports for it that were not taken back, and those on the
counters held for it. -/
theorem traffic_conserved {R Dest : Type} (blocks : R → Dest → String → Bool) (s : TrafficRun R)
    (hs : Reach (trafficSystem blocks) (fun _ op => op.ReportsAll) s) (uid : Int) (hpos : 0 < uid) :
    s.counted uid = s.reported uid + s.node.heldBytes uid := by
  refine (Reach.inv TrafficRun.Inv ?_ ?_ hs).conserved uid hpos
  · rintro s ⟨rules, rfl⟩
    exact inv_start rules
  · rintro s op s' h hop rfl
    exact inv_step blocks h hop

/-- In every run, the counter of an open connection is held for the user ID it was routed
for and no other, whatever becomes of the users, and a held counter knows how many open
connections it has. -/
theorem connections_attributed (s : TrafficRun R) (hs : Reach (trafficSystem blocks) (fun _ op => op.ReportsAll) s) :
    (∀ conn ∈ s.conns, 0 < conn.uid → ∀ u, 0 < u → (s.node.Held u conn.counter ↔ u = conn.uid)) ∧
      ∀ u c, s.node.Held u c → (s.node.heap c).active = s.conns.countP (·.counter = c) := by
  have hinv : s.Inv := by
    refine hs.inv TrafficRun.Inv ?_ ?_
    · rintro _ ⟨rules, rfl⟩
      exact inv_start rules
    · rintro s op _ h hop rfl
      exact inv_step blocks h hop
  refine ⟨fun conn hconn hpos u hu => ⟨hinv.conn_owner conn hconn u hu, ?_⟩, hinv.active⟩
  rintro rfl
  exact hinv.conn_held conn hconn hpos

def TrafficRun.run (s : TrafficRun R) (ops : List (TrafficOp R Dest)) : TrafficRun R := ops.foldl (·.step blocks) s

theorem reach_run (rules : R) (ok : TrafficRun R → TrafficOp R Dest → Prop) (ops : List (TrafficOp R Dest))
    (hops : ∀ op ∈ ops, ∀ s, ok s op) : Reach (trafficSystem blocks) ok ((start rules).run blocks ops) := by
  refine foldlRecOn ops _ (.init ⟨rules, rfl⟩) fun s hs op hop => ?_
  exact .step hs (hops op hop s) rfl

/-- A connection that outlives its user: 10 and 5 bytes are reported, 3 and 2
come after the report. -/
def sampleTrafficOps : List (TrafficOp Unit Unit) :=
  [.update { nodeType := "vless", nodeID := 1, users := [{ id := 7, uuid := "u" }], rules := () },
    .route { user := "u", ip := "192.0.2.1", destination := (), protocol := "" } 1 [],
    .count { counter := 0, uid := 7 } 10 5,
    .update { nodeType := "vless", nodeID := 1, users := [], rules := () },
    .snapshot 0 0 {},
    .count { counter := 0, uid := 7 } 3 2]

theorem traffic_conserved_sample :
    let s := (TrafficRun.start ()).run (fun _ _ _ => false) sampleTrafficOps
    s.counted 7 = (13, 7) ∧ s.counted 7 = s.reported 7 + s.node.heldBytes 7 := by
  refine ⟨by decide, traffic_conserved (fun _ _ _ => false) _ (reach_run _ () _ _ ?_) 7 (by decide)⟩
  simp [sampleTrafficOps, TrafficOp.ReportsAll]

theorem connections_attributed_sample :
    let s := (TrafficRun.start ()).run (fun _ _ _ => false) sampleTrafficOps
    s.node.users.lookup "u" = none ∧ s.node.Held 7 0 := by
  refine ⟨rfl, ((connections_attributed _ _ (reach_run _ () _ _ ?_)).1 ⟨0, 7⟩ (by decide) ?_ 7 ?_).2 rfl⟩
  · simp [sampleTrafficOps, TrafficOp.ReportsAll]
  · decide
  · decide

end Singlink.V2Board
