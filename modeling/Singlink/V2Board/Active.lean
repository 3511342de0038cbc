import Singlink.V2Board.Push
/-!
# Counts of active connections

Only `trackConn` and the closing of what it returned change how many connections
a counter counts. Updates, snapshots and reports that are taken back leave every
count as it is; counters they allocate count nothing.
-/

namespace Singlink.V2Board

open Lib NodeTraffic Function

variable {R : Type}

/-- The operations that are not those of a connection. -/
def NodeOp.Uncounted : NodeOp R → Prop
  | .trackConn _ | .untrackConn _ => False
  | _ => True

/-- Cells that are not allocated yet count nothing. -/
def NodeTraffic.FreshZero (n : NodeTraffic R) : Prop := ∀ c, n.next ≤ c → (n.heap c).active = 0

theorem heap_nextUsers (n : NodeTraffic R) (a : UpdateArgs R) (c : CounterRef) :
    (n.nextUsers a).heap c = n.heap c ∨ (n.nextUsers a).heap c = {} := by
  refine List.foldlRecOn (motive := fun acc : NextUsers => acc.heap c = n.heap c ∨ acc.heap c = {})
    a.users _ (.inl rfl) ?_
  intro acc hacc user _
  have hallocate : update acc.heap acc.next {} c = n.heap c ∨ update acc.heap acc.next {} c = {} := by
    rw [update_apply]
    split
    · exact .inr rfl
    · exact hacc
  unfold updateUser
  simp only
  split
  · exact hacc
  · unfold carryCounter
    split
    · exact hacc
    · exact hallocate
    · exact hallocate

variable {n : NodeTraffic R}

theorem active_updateUsers (hn : n.Wf) (hzero : n.FreshZero) (a : UpdateArgs R) (c : CounterRef) :
    ((n.updateUsers a).heap c).active = (n.heap c).active := by
  rcases lt_or_ge c n.next with hc | hc
  · rw [heap_updateUsers hn a hc]
  · have hheap : (n.updateUsers a).heap c = n.heap c ∨ (n.updateUsers a).heap c = {} := heap_nextUsers n a c
    rcases hheap with hheap | hheap
    · rw [hheap]
    · rw [hheap, hzero c hc]

theorem active_count (n : NodeTraffic R) (c : CounterRef) (upload download : Nat) (c' : CounterRef) :
    ((n.count c upload download).heap c').active = (n.heap c').active := by
  simp only [count, modifyCounter, update_apply]
  split
  · rename_i h
    rw [h]
  · rfl

theorem active_allocatePending (hzero : n.FreshZero) (uid : Int) (c : CounterRef) :
    ((n.allocatePending uid).heap c).active = (n.heap c).active := by
  rw [heap_allocatePending]
  split
  · rename_i h
    rw [hzero c (le_of_eq h.symm)]
  · rfl

theorem active_restoreEntry (hzero : n.FreshZero) (order : List String) (entry : UserTraffic) (c : CounterRef) :
    n.next ≤ (n.restoreEntry order entry).next ∧
      ((n.restoreEntry order entry).heap c).active = (n.heap c).active := by
  unfold restoreEntry
  rcases lt_or_ge 0 entry.uid with hpos | hneg
  · rcases counterForUID_cases hpos order with ⟨c', hfound, -⟩ | hnew
    · rw [hfound]
      exact ⟨le_refl _, active_count n c' _ _ c⟩
    · rw [hnew]
      refine ⟨Nat.le_succ _, ?_⟩
      rw [active_count, active_allocatePending hzero]
  · have hskip : n.counterForUID entry.uid order = (none, n) := if_pos hneg
    rw [hskip]
    exact ⟨le_refl _, rfl⟩

theorem active_restoreTraffic (hzero : n.FreshZero) (traffic : List UserTraffic) (orders : Nat → List String) :
    n.next ≤ (n.restoreTraffic traffic orders).next ∧
      ∀ c, ((n.restoreTraffic traffic orders).heap c).active = (n.heap c).active := by
  refine List.foldlRecOn
    (motive := fun m : NodeTraffic R => n.next ≤ m.next ∧ ∀ c, (m.heap c).active = (n.heap c).active)
    traffic.zipIdx _ ⟨le_refl _, fun _ => rfl⟩ ?_
  rintro m ⟨hnext, hactive⟩ entry _
  have hm : m.FreshZero := fun c hc => (hactive c).trans (hzero c (hnext.trans hc))
  refine ⟨hnext.trans (active_restoreEntry hm (orders entry.2) entry.1 0).1, fun c => ?_⟩
  exact (active_restoreEntry hm (orders entry.2) entry.1 c).2.trans (hactive c)

theorem active_operate (hn : n.Wf) (hzero : n.FreshZero) {op : NodeOp R} (hop : op.Uncounted) :
    n.next ≤ (n.operate op).next ∧ ∀ c, ((n.operate op).heap c).active = (n.heap c).active := by
  cases op with
  | update a => exact ⟨next_le_updateUsers hn a, active_updateUsers hn hzero a⟩
  | updateAliveList alive aliveAt aliveTTL => exact ⟨le_refl _, fun _ => rfl⟩
  | markOnline user ip now order =>
    obtain ⟨online, h⟩ := markOnline_cases n user ip now order
    simp only [operate, h]
    exact ⟨le_refl _, fun _ => trivial⟩
  | trackConn c | untrackConn c => exact hop.elim
  | count c upload download => exact ⟨le_refl _, active_count n c upload download⟩
  | snapshot trafficMin onlineMin order => exact ⟨le_refl _, snapshot_active trafficMin onlineMin order⟩
  | restoreTraffic traffic orders => exact active_restoreTraffic hzero traffic orders
  | restoreAlive alive order =>
    obtain ⟨online, h⟩ := restoreAlive_cases n alive order
    simp only [operate, h]
    exact ⟨le_refl _, fun _ => trivial⟩

end Singlink.V2Board
