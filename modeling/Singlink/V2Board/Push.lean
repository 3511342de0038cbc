import Singlink.V2Board.Controller
import Singlink.V2Board.Routing
/-!
# Reporting traffic

What becomes of a user's bytes in one `push`. `snapshot` takes all of them from
the counters and leaves out of the report what is below the minimum; `push`
gives back the report it could not deliver, which is not all that was taken.
-/

namespace Singlink.V2Board

open Lib Prog Controller List GoMap Option

/-! ## The states of a node -/

/-- What happens to a node: the methods of `nodeTraffic` and of the connections
counted on it, each with any arguments. -/
inductive NodeOp (R : Type) where
  | update (a : UpdateArgs R)
  | updateAliveList (alive : GoMap Int Int) (aliveAt : Time) (aliveTTL : Duration)
  | markOnline (user ip : String) (now : Time) (order : List String)
  | trackConn (c : CounterRef)
  | untrackConn (c : CounterRef)
  | count (c : CounterRef) (upload download : Nat)
  | snapshot (trafficMin onlineMin : Int) (order : SnapshotOrder)
  | restoreTraffic (traffic : List UserTraffic) (orders : Nat → List String)
  | restoreAlive (alive : GoMap Int (List String)) (order : RestoreAliveOrder)

variable {R : Type}

def NodeTraffic.operate (n : NodeTraffic R) : NodeOp R → NodeTraffic R
  | .update a => n.updateUsers a
  | .updateAliveList alive aliveAt aliveTTL => n.updateAliveList alive aliveAt aliveTTL
  | .markOnline user ip now order => (n.markOnline user ip now order).2
  | .trackConn c => n.trackConn c
  | .untrackConn c => n.untrackConn c
  | .count c upload download => n.count c upload download
  | .snapshot trafficMin onlineMin order => (n.snapshot trafficMin onlineMin order).2
  | .restoreTraffic traffic orders => n.restoreTraffic traffic orders
  | .restoreAlive alive order => n.restoreAlive alive order

def nodeSystem (R : Type) : System (NodeTraffic R) (NodeOp R) :=
  .ofStep (fun n => ∃ rules, n = .zero rules) NodeTraffic.operate

theorem wf_operate {n : NodeTraffic R} (hn : n.Wf) (op : NodeOp R) : (n.operate op).Wf := by
  cases op with
  | update a => exact wf_updateUsers hn a
  | updateAliveList alive aliveAt aliveTTL =>
    exact ⟨hn.dom, hn.counter_lt, hn.pending_lt, hn.pending_pos, hn.owner⟩
  | markOnline user ip now order =>
    obtain ⟨online, h⟩ := markOnline_cases n user ip now order
    simp only [NodeTraffic.operate, h]
    exact wf_online hn online
  | trackConn c => exact wf_trackConn hn c
  | untrackConn c => exact wf_untrackConn hn c
  | count c upload download => exact (extends_count hn c upload download).wf
  | snapshot trafficMin onlineMin order => exact wf_snapshot trafficMin onlineMin order hn
  | restoreTraffic traffic orders => exact (extends_restoreTraffic hn traffic orders).wf
  | restoreAlive alive order =>
    obtain ⟨online, h⟩ := restoreAlive_cases n alive order
    simp only [NodeTraffic.operate, h]
    exact wf_online hn online

theorem wf_of_reach {n : NodeTraffic R} (h : Reach (nodeSystem R) (fun _ _ => True) n) : n.Wf := by
  refine Reach.inv NodeTraffic.Wf ?_ ?_ h
  · rintro n ⟨rules, rfl⟩
    exact wf_zero rules
  · rintro n op _ hn - rfl
    exact wf_operate hn op

/-! ## What the panel is sent -/

def TrafficPayload.bytesOf (payload : TrafficPayload) (uid : Int) : Bytes :=
  match payload with
  | .byID traffic => traffic.get uid 0
  | .legacy traffic => trafficOf traffic uid

theorem snapshot_traffic_nodup (n : NodeTraffic R) (trafficMin onlineMin : Int) (order : SnapshotOrder) :
    ((n.snapshot trafficMin onlineMin order).1.traffic.map (·.uid)).Nodup := by
  -- the user IDs of a report are keys of the totals, in their order
  have sublist : ∀ l : List (Int × TrafficTotal),
      ((l.filterMap fun entry => if trafficMin ≤ ((entry.2.upload + entry.2.download : Nat) : Int) ∧
          0 < entry.2.upload + entry.2.download then
        some ({ uid := entry.1, upload := entry.2.upload, download := entry.2.download } : UserTraffic)
        else none).map (·.uid)).Sublist (l.map Prod.fst) := by
    intro l
    induction l with
    | nil => exact .slnil
    | cons entry l ih =>
      rw [filterMap_cons]
      split
      · exact ih.cons _
      · rename_i h
        split at h
        · cases h
          exact ih.cons_cons _
        · cases h
  exact (nodup_range_keys _ _).sublist (sublist _)

theorem trafficOf_of_not_mem {traffic : List UserTraffic} {uid : Int} (h : uid ∉ traffic.map (·.uid)) :
    trafficOf traffic uid = 0 := by
  induction traffic with
  | nil => rfl
  | cons entry traffic ih =>
    rw [map_cons, mem_cons, not_or] at h
    rw [trafficOf_cons, if_neg (Ne.symm h.1), ih h.2, add_zero]

/-- The map made of a report keeps the bytes of every user ID, as no entry
replaces another. -/
theorem bytesOf_trafficPayload (o : NodeOptions) {traffic : List UserTraffic} (hnodup : (traffic.map (·.uid)).Nodup)
    (uid : Int) : (trafficPayload o traffic).bytesOf uid = trafficOf traffic uid := by
  have loop : ∀ (l : List UserTraffic) (m : GoMap Int Bytes), (l.map (·.uid)).Nodup →
      get (l.foldl (fun payload entry => payload.insert entry.uid (entry.upload, entry.download)) m) uid 0 =
        trafficOf l uid + if uid ∈ l.map (·.uid) then 0 else m.get uid 0 := by
    intro l
    induction l with
    | nil =>
      intro m _
      exact (zero_add _).symm
    | cons entry l ih =>
      intro m hnodup
      rw [map_cons, nodup_cons] at hnodup
      rw [foldl_cons, ih _ hnodup.2, trafficOf_cons, get_insert]
      by_cases h : uid = entry.uid
      · subst h
        rw [if_neg hnodup.1, if_pos rfl, if_pos rfl, trafficOf_of_not_mem hnodup.1, if_pos (by simp), zero_add]
        rfl
      · rw [if_neg (Ne.symm h)]
        simp [h]
  unfold trafficPayload
  split
  · rfl
  · refine (loop traffic ∅ hnodup).trans ?_
    simp [GoMap.get]

/-! ## One push -/

variable {H : Host} (o : NodeOptions)

/-- The bytes of `uid` on the counters of the tracker's node. -/
def Controller.heldBytes (c : Controller H) (uid : Int) : Bytes := (c.tracker.map (·.heldBytes uid)).getD 0

/-- The bytes of `uid` in the reports the panel has accepted. -/
def Controller.acceptedBytes (c : Controller H) (uid : Int) : Bytes := (c.accepted.map (·.bytesOf uid)).sum

theorem push_bytes (c : Controller H) {n : NodeTraffic (NodeRules H.Regexp H.Pfx)} (htracker : c.tracker = some n)
    (hn : n.Wf) (hready : c.inboundReady = true) (env : PushEnv) {uid : Int} (hpos : 0 < uid) :
    ((push o env).run c).2.acceptedBytes uid + ((push o env).run c).2.heldBytes uid = c.acceptedBytes uid +
        trafficOf (n.snapshot c.nodeReportMinTraffic c.deviceOnlineMinTraffic env.order).1.traffic uid := by
  have hdrained := heldBytes_snapshot (n := n) c.nodeReportMinTraffic c.deviceOnlineMinTraffic env.order hpos
  have hwf := wf_snapshot c.nodeReportMinTraffic c.deviceOnlineMinTraffic env.order hn
  have hentries := snapshot_traffic_pos (n := n) c.nodeReportMinTraffic c.deviceOnlineMinTraffic env.order
  have hpayload := bytesOf_trafficPayload o
    (snapshot_traffic_nodup n c.nodeReportMinTraffic c.deviceOnlineMinTraffic env.order) uid
  have halive : ∀ (m : NodeTraffic (NodeRules H.Regexp H.Pfx)) alive order,
      (m.restoreAlive alive order).heldBytes uid = m.heldBytes uid := by
    intro m alive order
    obtain ⟨online, h⟩ := restoreAlive_cases m alive order
    rw [h]
    rfl
  unfold push
  cases htraffic : env.traffic with
  | some err =>
    -- the report comes back
    simp only [run_bind, run_read, run_atomic, run_modify, run_pure, hready, Bool.not_true, Bool.false_eq_true, if_false,
      snapshot, htracker, map_some, heldBytes, acceptedBytes, getD_some]
    rw [halive, (restoreTraffic_spec hwf _ env.restoreOrders hentries).2 uid, hdrained, zero_add]
  | none =>
    simp only [run_bind, run_read, run_atomic, run_modify, hready, Bool.not_true, Bool.false_eq_true, if_false,
      snapshot, htracker]
    -- whatever becomes of the addresses, the bytes are gone
    split
    · simp only [run_bind, run_modify, run_pure, map_some, heldBytes, acceptedBytes,
        getD_some, map_cons, sum_cons]
      rw [halive, hdrained, add_zero, hpayload, add_comm]
    · simp only [run_bind, run_modify, run_pure, map_some, heldBytes, acceptedBytes,
        getD_some, map_cons, sum_cons]
      rw [hdrained, add_zero, hpayload, add_comm]

theorem push_bytes_none (c : Controller H) (htracker : c.tracker = none) (env : PushEnv) (uid : Int) :
    ((push o env).run c).2.acceptedBytes uid + ((push o env).run c).2.heldBytes uid =
      c.acceptedBytes uid + c.heldBytes uid := by
  have hpayload : (trafficPayload o []).bytesOf uid = 0 := bytesOf_trafficPayload o (by simp) uid
  unfold push
  rw [run_bind]
  split
  · rfl
  · cases htraffic : env.traffic with
    | some err =>
      simp [snapshot, htracker, heldBytes, acceptedBytes]
    | none =>
      simp only [run_bind, run_atomic, run_modify, snapshot]
      split
      · simp [heldBytes, acceptedBytes, htracker, hpayload]
      · simp [heldBytes, acceptedBytes, htracker, hpayload]

/-- One push, however its two reports end, keeps the bytes of a user ID exactly
if it does not run, or the user has none, or enough for a report. No total comes to
2⁶³ bytes: those of the source would wrap. -/
theorem push_conserves_iff (H : Host) (o : NodeOptions) (c : Controller H)
    (hc : ∀ n, c.tracker = some n → Reach (nodeSystem (NodeRules H.Regexp H.Pfx)) (fun _ _ => True) n) (env : PushEnv)
    (uid : Int) (hpos : 0 < uid) :
    ((push o env).run c).2.acceptedBytes uid + ((push o env).run c).2.heldBytes uid =
        c.acceptedBytes uid + c.heldBytes uid ↔
      c.inboundReady = false ∨ c.heldBytes uid = 0 ∨
        c.nodeReportMinTraffic ≤ (((c.heldBytes uid).1 + (c.heldBytes uid).2 : Nat) : Int) := by
  cases hready : c.inboundReady with
  | false =>
    have hrun : ((push o env).run c).2 = c := by simp [push, hready]
    simp [hrun]
  | true =>
    cases htracker : c.tracker with
    | none =>
      have hheld : c.heldBytes uid = 0 := by simp [heldBytes, htracker]
      rw [push_bytes_none o c htracker env uid]
      simp [hheld]
    | some n =>
      have hn : n.Wf := wf_of_reach (hc n htracker)
      have hheld : c.heldBytes uid = n.heldBytes uid := by simp [heldBytes, htracker]
      rw [push_bytes o c htracker hn hready env hpos, trafficOf_snapshot hn _ _ _ hpos, hheld, add_right_inj]
      split
      · rename_i hmin
        exact ⟨fun _ => .inr (.inr hmin), fun _ => rfl⟩
      · -- what is below the minimum was taken and is in no report
        rename_i hmin
        constructor
        · intro h
          exact .inr (.inl h.symm)
        · rintro (h | h | h)
          · cases h
          · exact h.symm
          · exact absurd h hmin

/-- One user with 10 bytes. -/
def sampleNodeOps : List (NodeOp (NodeRules Unit Unit)) :=
  [.update { nodeType := "vless", nodeID := 1, users := [{ id := 7, uuid := "u" }], rules := {} },
    .count 0 10 0]

/-- A controller that reports at least `trafficMin` bytes of a user. -/
def sampleReporter (trafficMin : Int) : Controller sampleHost :=
  { nodeHash := [0], userHash := [0], pullInterval := 60 * second, pushInterval := 60 * second
    nodeReportMinTraffic := trafficMin, deviceOnlineMinTraffic := 0, manager := none, inboundReady := true
    tracker := some (sampleNodeOps.foldl NodeTraffic.operate (.zero {})) }

theorem reach_sampleNodeOps :
    Reach (nodeSystem (NodeRules Unit Unit)) (fun _ _ => True) (sampleNodeOps.foldl NodeTraffic.operate (.zero {})) := by
  have hstart : Reach (nodeSystem (NodeRules Unit Unit)) (fun _ _ => True) (.zero {}) := .init ⟨{}, rfl⟩
  exact hstart.foldl _ ⟨trivial, trivial, trivial⟩

/-- A report that fails is kept for the next push. -/
theorem push_conserves_iff_sample :
    (sampleReporter 10).heldBytes 7 = (10, 0) ∧
      ((push sampleOptions { traffic := some errCanceled, alive := none }).run (sampleReporter 10)).2.acceptedBytes 7 +
          ((push sampleOptions { traffic := some errCanceled, alive := none }).run (sampleReporter 10)).2.heldBytes 7 =
        (sampleReporter 10).acceptedBytes 7 + (sampleReporter 10).heldBytes 7 := by
  have hheld : (sampleReporter 10).heldBytes 7 = (10, 0) := by decide
  refine ⟨hheld, (push_conserves_iff sampleHost sampleOptions (sampleReporter 10) ?_ _ 7 (by decide)).2 (.inr (.inr ?_))⟩
  · rintro n hn
    cases hn
    exact reach_sampleNodeOps
  · decide

/-- 10 bytes that the minimum of 100 keeps out of the report are gone after it. -/
theorem push_forgets_small_traffic :
    (∀ n, (sampleReporter 100).tracker = some n → Reach (nodeSystem (NodeRules Unit Unit)) (fun _ _ => True) n) ∧
      (sampleReporter 100).acceptedBytes 7 + (sampleReporter 100).heldBytes 7 = (10, 0) ∧
      ((push sampleOptions { traffic := none, alive := none }).run (sampleReporter 100)).2.acceptedBytes 7 +
        ((push sampleOptions { traffic := none, alive := none }).run (sampleReporter 100)).2.heldBytes 7 = 0 := by
  refine ⟨?_, by decide, by decide⟩
  rintro n hn
  cases hn
  exact reach_sampleNodeOps

end Singlink.V2Board
