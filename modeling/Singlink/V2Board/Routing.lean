import Singlink.V2Board.Conservation
/-!
# Routing in steps

`RoutedConnection` takes the node's lock several times: to look the counter up,
to read the block rules, to mark the address online and to read the speed
limit. It raises the counter's count of connections after all of these. Here
each of them is a step of its own, in any order with the steps of other
connections, updates and snapshots.

A snapshot drops a pending counter that has no connection, and one that is
about to get its first looks the same.
-/

namespace Singlink.V2Board

open Lib NodeTraffic List GoMap Function

/-! ## Runs -/

/-- How far a routing has got. -/
inductive Stage where
  | matched
  | unblocked
  | online
  | limited (limiter : Option RateLimiter)
  deriving DecidableEq

/-- A routing between `match` and `trackConn`, with the counter it was given. -/
structure Flight (Dest : Type) where
  routing : Routing Dest
  counter : CounterRef
  stage : Stage
  deriving DecidableEq

/-- A node, the routings under way, and the counters of the live connections. -/
structure RoutingRun (R Dest : Type) where
  node : NodeTraffic R
  flights : List (Flight Dest)
  conns : List CounterRef

inductive RoutingOp (R Dest : Type) where
  | lookup (r : Routing Dest)
  | advance (f : Flight Dest) (now : Time) (order : List String)
  | count (c : CounterRef) (upload download : Nat)
  | close (c : CounterRef)
  | update (a : UpdateArgs R)
  | updateAliveList (alive : GoMap Int Int) (aliveAt : Time) (aliveTTL : Duration)
  | snapshot (trafficMin onlineMin : Int) (order : SnapshotOrder)
  | restoreTraffic (traffic : List UserTraffic) (orders : Nat → List String)
  | restoreAlive (alive : GoMap Int (List String)) (order : RestoreAliveOrder)

variable {R Dest : Type} (blocks : R → Dest → String → Bool)

def RoutingRun.advance [DecidableEq Dest] (s : RoutingRun R Dest) (f : Flight Dest) (now : Time) (order : List String) :
    RoutingRun R Dest :=
  let others := s.flights.erase f
  match f.stage with
  | .matched =>
    if blocks s.node.rules f.routing.destination f.routing.protocol then { s with flights := others }
    else { s with flights := { f with stage := .unblocked } :: others }
  | .unblocked =>
    match s.node.markOnline f.routing.user f.routing.ip now order with
    | (false, node) => { s with node := node, flights := others }
    | (true, node) => { s with node := node, flights := { f with stage := .online } :: others }
  | .online => { s with flights := { f with stage := .limited (s.node.speedLimiter f.routing.user) } :: others }
  | .limited _ => { node := s.node.trackConn f.counter, flights := others, conns := f.counter :: s.conns }

/-- One step. Only routings that are under way advance, and only live
connections count and close. -/
def RoutingRun.step [DecidableEq Dest] (s : RoutingRun R Dest) : RoutingOp R Dest → RoutingRun R Dest
  | .lookup r =>
    match s.node.counter r.user with
    | none => s
    | some counter => { s with flights := { routing := r, counter := counter, stage := .matched } :: s.flights }
  | .advance f now order => if f ∈ s.flights then s.advance blocks f now order else s
  | .count c upload download => if c ∈ s.conns then { s with node := s.node.count c upload download } else s
  | .close c => if c ∈ s.conns then { s with node := s.node.untrackConn c, conns := s.conns.erase c } else s
  | .update a => { s with node := s.node.updateUsers a }
  | .updateAliveList alive aliveAt aliveTTL => { s with node := s.node.updateAliveList alive aliveAt aliveTTL }
  | .snapshot trafficMin onlineMin order => { s with node := (s.node.snapshot trafficMin onlineMin order).2 }
  | .restoreTraffic traffic orders => { s with node := s.node.restoreTraffic traffic orders }
  | .restoreAlive alive order => { s with node := s.node.restoreAlive alive order }

def RoutingRun.start (rules : R) : RoutingRun R Dest := { node := .zero rules, flights := [], conns := [] }

def routingSystem [DecidableEq Dest] : System (RoutingRun R Dest) (RoutingOp R Dest) :=
  .ofStep (fun s => ∃ rules, s = .start rules) (RoutingRun.step blocks)

/-- A snapshot will see what is counted on `c`. -/
def NodeTraffic.Attached (n : NodeTraffic R) (c : CounterRef) : Prop :=
  (∃ k, n.counters.lookup k = some c) ∨ ∃ u, c ∈ n.pending.get u []

/-- The counters that are in use: those of live connections and of routings. -/
def RoutingRun.Uses (s : RoutingRun R Dest) (c : CounterRef) : Prop := c ∈ s.conns ∨ ∃ f ∈ s.flights, f.counter = c

/-- The user ID a list has for a key: that of the last user with the key. -/
def UpdateArgs.lastID (a : UpdateArgs R) (k : String) : Option Int :=
  ((a.users.filter fun user => userTrackerKey a.nodeType user = k).getLast?).map fun user => user.id.toInt

/-- No snapshot while a routing under way has a counter that is only pending and
counts no connection; and no update that takes its key from a user whose ID is
not positive while that counter is in use. -/
def RoutingRun.Guarded (s : RoutingRun R Dest) : RoutingOp R Dest → Prop
  | .snapshot _ _ _ =>
    ∀ f ∈ s.flights, (∃ k, s.node.counters.lookup k = some f.counter) ∨ 0 < (s.node.heap f.counter).active
  | .update a =>
    ∀ c, s.Uses c → ∀ k u, s.node.counters.lookup k = some c → s.node.users.lookup k = some u → u ≤ 0 →
      a.lastID k = some u
  | _ => True

/-! ## Users whose ID is not positive -/

variable {n : NodeTraffic R} {u : Int} {c : CounterRef} {s : RoutingRun R Dest}

/-- Their counters are never pending: such a counter is held through a key. -/
theorem NodeTraffic.Wf.held_key (hn : n.Wf) (hu : u ≤ 0)
    (h : n.Held u c) : ∃ k, n.users.lookup k = some u ∧ n.counters.lookup k = some c := by
  rcases h with h | h
  · exact h
  · exact absurd (hn.pending_pos u c h) (by omega)

/-- A key whose last user in the list is the one it has keeps its counter. -/
theorem nextUsers_last (a : UpdateArgs R) {k : String} (hk : k ≠ "")
    (hu : n.users.lookup k = some u) (hc : n.counters.lookup k = some c) (hlast : a.lastID k = some u) :
    (n.nextUsers a).users.lookup k = some u ∧ (n.nextUsers a).counters.lookup k = some c := by
  have hloop := nextUsers_rule n a k (P := fun last acc => last.map (fun user => user.id.toInt) = some u →
    acc.users.lookup k = some u ∧ acc.counters.lookup k = some c) ?_ ?_ fun _ _ _ => nofun
  · rw [if_neg hk] at hloop
    exact hloop hlast
  · intro last acc acc' hsame h hid
    rw [hsame.users, hsame.counters]
    exact h hid
  · intro last acc user _ _ hkey _ hid
    have hid : user.id.toInt = u := Option.some.inj hid
    have hsame : (n.users.get k 0 == u) = true := by
      rw [GoMap.get, hu, beq_iff_eq]
      rfl
    subst hkey
    unfold updateUser carryCounter
    simp [hk, hid, hsame, hc]

theorem users_ne_empty (n : NodeTraffic R) (a : UpdateArgs R) : (n.updateUsers a).users.lookup "" = none :=
  nextUsers_rule n a "" (P := fun _ acc => acc.users.lookup "" = none) (fun _ _ _ hsame h => hsame.users.trans h)
    (fun _ _ _ _ hk => absurd rfl hk) fun _ _ _ => rfl

/-! ## The invariant -/

structure RoutingRun.Inv (s : RoutingRun R Dest) : Prop where
  wf : s.node.Wf
  key_ne : s.node.users.lookup "" = none
  held : ∀ c, s.Uses c → ∃ u, s.node.Held u c
  active : ∀ u c, s.node.Held u c → (s.node.heap c).active = s.conns.count c

theorem NodeTraffic.Held.attached (h : n.Held u c) : n.Attached c := by
  rcases h with ⟨k, -, hc⟩ | h
  · exact .inl ⟨k, hc⟩
  · exact .inr ⟨u, h⟩

open RoutingRun

theorem routingInv_start (rules : R) : (start rules : RoutingRun R Dest).Inv where
  wf := wf_zero rules
  key_ne := rfl
  held := by simp [RoutingRun.Uses, start]
  active := by simp [start, NodeTraffic.Held, zero, GoMap.get]

theorem RoutingRun.Inv.extends (h : s.Inv) (hext : s.node.Extends n) (hne : n.users.lookup "" = none)
    (hlow : ∀ c, s.Uses c → ∀ u ≤ 0, s.node.Held u c → n.Held u c) : RoutingRun.Inv { s with node := n } := by
  have hheld : ∀ c, s.Uses c → ∃ u, n.Held u c := by
    intro c hc
    obtain ⟨u, hu⟩ := h.held c hc
    rcases lt_or_ge 0 u with hpos | hneg
    · exact ⟨u, hext.keep u c hpos hu⟩
    · exact ⟨u, hlow c hc u hneg hu⟩
  refine ⟨hext.wf, hne, hheld, ?_⟩
  intro u c hc
  rcases lt_or_ge c s.node.next with hlt | hge
  · exact (hext.active_old c hlt).trans (h.active u c (hext.old u c hlt hc))
  · -- a new counter has no connection
    have hnone : s.conns.count c = 0 := by
      rw [count_eq_zero]
      intro hmem
      obtain ⟨u', hu'⟩ := h.held c (.inl hmem)
      exact absurd (h.wf.held_lt hu') (not_lt_of_ge hge)
    rw [hext.active_new u c hge hc]
    simp only [hnone]
    rfl

theorem routingInv_update (h : s.Inv) {a : UpdateArgs R} (hok : s.Guarded (.update a)) :
    RoutingRun.Inv { s with node := s.node.updateUsers a } := by
  refine h.extends (extends_updateUsers h.wf a) (users_ne_empty s.node a) ?_
  intro c hc u hneg hheld
  obtain ⟨k, hu, hk⟩ := h.wf.held_key hneg hheld
  have hne : k ≠ "" := by
    rintro rfl
    rw [h.key_ne] at hu
    cases hu
  exact .inl ⟨k, nextUsers_last a hne hu hk (hok c hc k u hk hu hneg)⟩

theorem routingInv_snapshot (h : s.Inv) {trafficMin onlineMin : Int} {order : SnapshotOrder}
    (hok : s.Guarded (.snapshot trafficMin onlineMin order)) :
    RoutingRun.Inv { s with node := (s.node.snapshot trafficMin onlineMin order).2 } := by
  refine ⟨wf_snapshot trafficMin onlineMin order h.wf, h.key_ne, ?_, ?_⟩
  · intro c hc
    obtain ⟨u, hu⟩ := h.held c hc
    -- a counter with a connection survives whether it is pending or not
    have hkept : 0 < (s.node.heap c).active → ∃ u, (s.node.snapshot trafficMin onlineMin order).2.Held u c := by
      intro hactive
      refine ⟨u, (held_snapshot trafficMin onlineMin order u c).2 ?_⟩
      rcases hu with hu | hu
      · exact .inl hu
      · exact .inr ⟨hu, hactive⟩
    rcases hc with hc | ⟨f, hf, rfl⟩
    · refine hkept ?_
      rw [h.active u c hu, Int.natCast_pos, count_pos_iff]
      exact hc
    · rcases hok f hf with ⟨k, hk⟩ | hactive
      · obtain ⟨u', hu'⟩ := h.wf.exists_user hk
        exact ⟨u', (held_snapshot trafficMin onlineMin order u' _).2 (.inl ⟨k, hu', hk⟩)⟩
      · exact hkept hactive
  · intro u c hc
    exact (snapshot_active trafficMin onlineMin order c).trans
      (h.active u c (held_of_snapshot trafficMin onlineMin order hc))

theorem extends_restoreTraffic (hn : n.Wf) (traffic : List UserTraffic) (orders : Nat → List String) :
    n.Extends (n.restoreTraffic traffic orders) := by
  refine foldlRecOn (motive := fun m : NodeTraffic R => n.Extends m) traffic.zipIdx _ (.refl hn) ?_
  intro m hext entry _
  rcases lt_or_ge 0 entry.1.uid with hpos | hneg
  · exact hext.trans (restoreEntry_spec hext.wf (orders entry.2) entry.1 hpos).1
  · -- an entry for no user is not taken back
    simp only [restoreEntry, counterForUID, if_pos hneg]
    exact hext

theorem routingInv_restoreTraffic (h : s.Inv) (traffic : List UserTraffic)
    (orders : Nat → List String) : RoutingRun.Inv { s with node := s.node.restoreTraffic traffic orders } := by
  obtain ⟨husers, hcounters, -⟩ := restoreTraffic_rest s.node traffic orders
  refine h.extends (extends_restoreTraffic h.wf traffic orders) (by rw [husers]; exact h.key_ne) ?_
  intro c _ u hneg hheld
  obtain ⟨k, hu, hk⟩ := h.wf.held_key hneg hheld
  exact .inl ⟨k, by rw [husers, hu], by rw [hcounters, hk]⟩

theorem RoutingRun.Inv.congr (h : s.Inv) {flights : List (Flight Dest)}
    (huses : ∀ f ∈ flights, s.Uses f.counter) (hwf : n.Wf) (husers : n.users = s.node.users)
    (hheld : ∀ u c, n.Held u c ↔ s.node.Held u c) (hactive : ∀ c, (n.heap c).active = (s.node.heap c).active) :
    RoutingRun.Inv { s with node := n, flights := flights } := by
  refine ⟨hwf, by rw [husers]; exact h.key_ne, ?_, ?_⟩
  · intro c hc
    simp only [hheld]
    refine h.held c ?_
    rcases hc with hc | ⟨f, hf, rfl⟩
    · exact .inl hc
    · exact huses f hf
  · intro u c hc
    rw [hactive]
    exact h.active u c ((hheld u c).1 hc)

theorem routingInv_advance [DecidableEq Dest] (h : s.Inv) {f : Flight Dest}
    (hf : f ∈ s.flights) (now : Time) (order : List String) : (s.advance blocks f now order).Inv := by
  have hothers : ∀ f' ∈ s.flights.erase f, s.Uses f'.counter := fun f' hf' => .inr ⟨f', mem_of_mem_erase hf', rfl⟩
  -- a routing that goes on has the counter it had
  have hnext : ∀ stage, ∀ f' ∈ { f with stage := stage } :: s.flights.erase f, s.Uses f'.counter := by
    intro stage f' hf'
    rcases mem_cons.1 hf' with rfl | hf'
    · exact .inr ⟨f, hf, rfl⟩
    · exact hothers f' hf'
  unfold advance
  split
  · split
    · exact h.congr hothers h.wf rfl (fun _ _ => Iff.rfl) fun _ => rfl
    · exact h.congr (hnext .unblocked) h.wf rfl (fun _ _ => Iff.rfl) fun _ => rfl
  · obtain ⟨online, honline⟩ := markOnline_cases s.node f.routing.user f.routing.ip now order
    split
    · rename_i node hmark
      rw [hmark] at honline
      obtain rfl : node = { s.node with online := online } := honline
      exact h.congr hothers (wf_online h.wf online) rfl (fun _ _ => Iff.rfl) fun _ => rfl
    · rename_i node hmark
      rw [hmark] at honline
      obtain rfl : node = { s.node with online := online } := honline
      exact h.congr (hnext .online) (wf_online h.wf online) rfl (fun _ _ => Iff.rfl) fun _ => rfl
  · exact h.congr (hnext _) h.wf rfl (fun _ _ => Iff.rfl) fun _ => rfl
  · -- the counter the connection now counts on was held all along
    refine ⟨wf_trackConn h.wf f.counter, h.key_ne, ?_, ?_⟩
    · intro c hc
      refine h.held c ?_
      rcases hc with hc | ⟨f', hf', rfl⟩
      · rcases mem_cons.1 hc with rfl | hc
        · exact .inr ⟨f, hf, rfl⟩
        · exact .inl hc
      · exact hothers f' hf'
    · intro u c hc
      have hactive := h.active u c hc
      simp only [trackConn, modifyCounter, count_cons]
      by_cases hcc : c = f.counter
      · subst hcc
        simp only [update_self, beq_self_eq_true, if_true]
        omega
      · have hne : (f.counter == c) = false := beq_eq_false_iff_ne.2 fun h => hcc h.symm
        simp only [update_of_ne hcc, hne, Bool.false_eq_true, if_false]
        omega

theorem routingInv_close (h : s.Inv) (hc : c ∈ s.conns) :
    RoutingRun.Inv { s with node := s.node.untrackConn c, conns := s.conns.erase c } := by
  refine ⟨wf_untrackConn h.wf c, h.key_ne, ?_, ?_⟩
  · intro c' hc'
    refine h.held c' ?_
    rcases hc' with hc' | hc'
    · exact .inl (mem_of_mem_erase hc')
    · exact .inr hc'
  · intro u c' hheld
    have hactive := h.active u c' hheld
    have hcount := (perm_cons_erase hc).count_eq c'
    rw [count_cons] at hcount
    simp only [untrackConn, modifyCounter]
    by_cases hcc : c' = c
    · subst hcc
      simp only [beq_self_eq_true, if_true] at hcount
      simp only [update_self, hactive]
      omega
    · have hne : (c == c') = false := beq_eq_false_iff_ne.2 fun h => hcc h.symm
      simp only [hne, Bool.false_eq_true, if_false] at hcount
      rw [update_of_ne hcc]
      omega

theorem routingInv_step [DecidableEq Dest] (h : s.Inv) {op : RoutingOp R Dest}
    (hok : s.Guarded op) : (s.step blocks op).Inv := by
  cases op with
  | lookup r =>
    simp only [step]
    split
    · exact h
    · rename_i c hc
      -- the counter of a key is held for the user of the key
      have hheld : ∃ u, s.node.Held u c := by
        unfold counter at hc
        split at hc
        · cases hc
        · obtain ⟨u, hu⟩ := h.wf.exists_user hc
          exact ⟨u, .inl ⟨r.user, hu, hc⟩⟩
      refine ⟨h.wf, h.key_ne, ?_, h.active⟩
      rintro c' (hc' | ⟨f, hf, rfl⟩)
      · exact h.held c' (.inl hc')
      · rcases mem_cons.1 hf with rfl | hf
        · exact hheld
        · exact h.held _ (.inr ⟨f, hf, rfl⟩)
  | advance f now order =>
    simp only [step]
    split
    · rename_i hf
      exact routingInv_advance blocks h hf now order
    · exact h
  | count c upload download =>
    simp only [step]
    split
    · have hext := extends_count h.wf c upload download
      exact h.extends hext h.key_ne fun _ _ _ _ hheld => hheld
    · exact h
  | close c =>
    simp only [step]
    split
    · rename_i hc
      exact routingInv_close h hc
    · exact h
  | update a => exact routingInv_update h hok
  | updateAliveList alive aliveAt aliveTTL =>
    have hwf : (s.node.updateAliveList alive aliveAt aliveTTL).Wf :=
      ⟨h.wf.dom, h.wf.counter_lt, h.wf.pending_lt, h.wf.pending_pos, h.wf.owner⟩
    exact h.congr (fun f hf => .inr ⟨f, hf, rfl⟩) hwf rfl (fun _ _ => Iff.rfl) fun _ => rfl
  | snapshot trafficMin onlineMin order => exact routingInv_snapshot h hok
  | restoreTraffic traffic orders => exact routingInv_restoreTraffic h traffic orders
  | restoreAlive alive order =>
    obtain ⟨online, honline⟩ := restoreAlive_cases s.node alive order
    simp only [step, honline]
    exact h.congr (fun f hf => .inr ⟨f, hf, rfl⟩) (wf_online h.wf online) rfl (fun _ _ => Iff.rfl) fun _ => rfl

/-! ## Live connections -/

/-- In every run of such steps, each live connection counts on a counter that a
snapshot reads. -/
theorem live_counter_attached {R Dest : Type} [DecidableEq Dest] (blocks : R → Dest → String → Bool)
    (s : RoutingRun R Dest) (hs : Reach (routingSystem blocks) RoutingRun.Guarded s) (c : CounterRef)
    (hc : c ∈ s.conns) : s.node.Attached c := by
  have h : s.Inv := by
    refine Reach.inv RoutingRun.Inv ?_ ?_ hs
    · rintro s ⟨rules, rfl⟩
      exact routingInv_start rules
    · rintro s op s' hinv hok rfl
      exact routingInv_step blocks hinv hok
  obtain ⟨u, hu⟩ := h.held c (.inl hc)
  exact hu.attached

def sampleRouting : Routing Unit := { user := "u", ip := "192.0.2.1", destination := (), protocol := "" }

def sampleUpdate : UpdateArgs Unit :=
  { nodeType := "vless", nodeID := 1, users := [{ id := 7, uuid := "u" }], rules := () }

/-- The steps of one routing up to `trackConn`. -/
def sampleRoutingOps : List (RoutingOp Unit Unit) :=
  [.lookup sampleRouting, .advance { routing := sampleRouting, counter := 0, stage := .matched } 1 [],
    .advance { routing := sampleRouting, counter := 0, stage := .unblocked } 1 [],
    .advance { routing := sampleRouting, counter := 0, stage := .online } 1 []]

def sampleTrack : RoutingOp Unit Unit :=
  .advance { routing := sampleRouting, counter := 0, stage := .limited none } 1 []

/-- The user is removed once the connection is tracked. -/
def sampleLateOps : List (RoutingOp Unit Unit) :=
  .update sampleUpdate :: sampleRoutingOps ++ [sampleTrack, .update { sampleUpdate with users := [] }, .snapshot 0 0 {}]

/-- The user is removed, and a snapshot taken, right before that. -/
def sampleRaceOps : List (RoutingOp Unit Unit) :=
  .update sampleUpdate :: sampleRoutingOps ++ [.update { sampleUpdate with users := [] }, .snapshot 0 0 {}, sampleTrack]

theorem live_counter_attached_sample :
    let s := sampleLateOps.foldl (RoutingRun.step fun _ _ _ => false) (.start ())
    0 ∈ s.conns ∧ s.node.Attached 0 := by
  have hstart : Reach (routingSystem fun (_ : Unit) (_ : Unit) _ => false) RoutingRun.Guarded (.start ()) :=
    .init ⟨(), rfl⟩
  have hconn : 0 ∈ (sampleLateOps.foldl (step fun _ _ _ => false) (.start ())).conns := by decide
  refine ⟨hconn, live_counter_attached _ _ (Reach.foldl hstart _ ?_) 0 hconn⟩
  refine ⟨?_, trivial, trivial, trivial, trivial, trivial, ?_, ?_, trivial⟩
  · -- nothing is in use yet
    rintro c (hc | ⟨f, hf, -⟩)
    · cases hc
    · cases hf
  · -- the user that is removed has a positive ID
    intro c _ k u _ hu hneg
    obtain ⟨-, rfl⟩ | hnone := GoMap.lookup_of_insert (m := ∅) (k := "u") (v := 7) hu
    · exact absurd hneg (by decide)
    · cases hnone
  · -- and no routing is under way
    intro f hf
    cases hf

/-- A routing that looked its counter up before an update and a snapshot ends up
with a connection whose bytes nothing reads. -/
theorem live_counter_detached :
    ¬∀ s : RoutingRun Unit Unit, Reach (routingSystem fun _ _ _ => false) (fun _ _ => True) s →
      ∀ c ∈ s.conns, s.node.Attached c := by
  intro h
  have hstart : Reach (routingSystem fun (_ : Unit) (_ : Unit) _ => false) (fun _ _ => True) (.start ()) :=
    .init ⟨(), rfl⟩
  have hreach := hstart.foldl sampleRaceOps (by simp [sampleRaceOps, sampleRoutingOps, Allowed])
  rcases h _ hreach 0 (by decide) with ⟨k, hk⟩ | ⟨u, hu⟩
  · cases hk
  · cases hu

end Singlink.V2Board
