import Singlink.V2Board.Held
import Mathlib.Algebra.BigOperators.Pi
import Mathlib.Algebra.BigOperators.Group.Finset.Basic
import Mathlib.Algebra.Group.Prod
import Mathlib.Algebra.GroupWithZero.Nat
/-!
# What a snapshot reads

The two loops of `snapshot` come down to one sequence of counter reads, one for
each way a counter is held (`reads`). Every read moves the bytes of a counter
into the total of its user, so that total and what is left on the counters held
for the user always add up to the same. At the end nothing is left.
-/

namespace Singlink.V2Board

open Lib NodeTraffic Finset Function GoMap Prod

variable {R : Type}

/-! ## Bytes held -/

/-- Upload and download; the laws below are about both at once. -/
abbrev Bytes := Nat × Nat

def UserCounter.bytes (c : UserCounter) : Bytes := (c.upload, c.download)
def TrafficTotal.bytes (t : TrafficTotal) : Bytes := (t.upload, t.download)
def UserTraffic.bytes (t : UserTraffic) : Bytes := (t.upload, t.download)

/-- The counters held for `uid`, each once. -/
def NodeTraffic.heldCounters (n : NodeTraffic R) (uid : Int) : Finset CounterRef :=
  ((n.users.keys.filter fun k => n.users.lookup k = some uid).filterMap fun k => n.counters.lookup k).toFinset ∪
    (n.pending.get uid []).toFinset

variable {c : CounterRef} {u : Int} {n : NodeTraffic R}

theorem mem_heldCounters {uid : Int} : c ∈ n.heldCounters uid ↔ n.Held uid c := by
  simp only [heldCounters, NodeTraffic.Held, mem_union, List.mem_toFinset, List.mem_filterMap,
    List.mem_filter, decide_eq_true_eq]
  refine or_congr_left ?_
  constructor
  · rintro ⟨k, ⟨-, hu⟩, hc⟩
    exact ⟨k, hu, hc⟩
  · rintro ⟨k, hu, hc⟩
    exact ⟨k, ⟨GoMap.mem_of_lookup hu, hu⟩, hc⟩

/-- The bytes `n` still has to report for `uid`. -/
def NodeTraffic.heldBytes (n : NodeTraffic R) (uid : Int) : Bytes := ∑ c ∈ n.heldCounters uid, (n.heap c).bytes

/-! ## One read -/

variable (heap : CounterRef → UserCounter) (totals : Totals)

theorem addCounterSnapshot_heap (uid : Int) (c c' : CounterRef) : (addCounterSnapshot heap totals uid c).1 c' =
      if 0 < uid ∧ c' = c then { heap c with upload := 0, download := 0 } else heap c' := by
  unfold addCounterSnapshot
  split
  · rw [if_neg (by omega)]
  · by_cases hc : c' = c
    · subst hc
      rw [if_pos ⟨by omega, rfl⟩]
      exact update_self _ _ _
    · rw [if_neg (by tauto)]
      exact update_of_ne hc _ _

theorem addCounterSnapshot_totals (uid u : Int) {c : CounterRef} :
    (GoMap.get (addCounterSnapshot heap totals uid c).2 u {}).bytes =
      (totals.get u {}).bytes + if 0 < uid ∧ u = uid then (heap c).bytes else 0 := by
  unfold addCounterSnapshot
  split
  · rw [if_neg (by omega), add_zero]
  · simp only [get_insert]
    by_cases hu : u = uid
    · subst hu
      rw [if_pos rfl, if_pos ⟨by omega, rfl⟩]
      rfl
    · rw [if_neg hu, if_neg (by tauto), add_zero]

theorem addCounterSnapshot_active (uid : Int)
    (c c' : CounterRef) : ((addCounterSnapshot heap totals uid c).1 c').active = (heap c').active := by
  rw [addCounterSnapshot_heap]
  split
  · rename_i h
    rw [h.2]
  · rfl

theorem addCounterSnapshot_pos (uid : Int) {c : CounterRef} (h : ∀ u, (totals.lookup u).isSome → 0 < u) :
    ∀ u, ((addCounterSnapshot heap totals uid c).2.lookup u).isSome → 0 < u := by
  intro u hu
  unfold addCounterSnapshot at hu
  split at hu
  · exact h u hu
  · simp only [lookup_insert_eq] at hu
    split at hu
    · omega
    · exact h u hu

/-! ## A sequence of reads -/

/-- Reads the counters one after another, each for a user ID. -/
def readAll (reads : List (Int × CounterRef)) (ht : (CounterRef → UserCounter) × Totals) :
    (CounterRef → UserCounter) × Totals :=
  reads.foldl (fun ht r => addCounterSnapshot ht.1 ht.2 r.1 r.2) ht

theorem readAll_append (l l' : List (Int × CounterRef)) (ht : (CounterRef → UserCounter) × Totals) :
    readAll (l ++ l') ht = readAll l' (readAll l ht) :=
  List.foldl_append

theorem readAll_active {reads : List (Int × CounterRef)} (ht : (CounterRef → UserCounter) × Totals)
    {c : CounterRef} : ((readAll reads ht).1 c).active = (ht.1 c).active := by
  induction reads generalizing ht with
  | nil => rfl
  | cons r reads ih => rw [readAll, List.foldl_cons, ← readAll, ih, addCounterSnapshot_active]

theorem readAll_pos {reads : List (Int × CounterRef)} (ht : (CounterRef → UserCounter) × Totals)
    (h : ∀ u, (ht.2.lookup u).isSome → 0 < u) : ∀ u, ((readAll reads ht).2.lookup u).isSome → 0 < u := by
  induction reads generalizing ht with
  | nil => exact h
  | cons r reads ih => exact ih _ (addCounterSnapshot_pos _ _ _ h)

theorem readAll_drained (reads : List (Int × CounterRef)) (ht : (CounterRef → UserCounter) × Totals)
    {c : CounterRef} (h : (ht.1 c).bytes = 0) : ((readAll reads ht).1 c).bytes = 0 := by
  induction reads generalizing ht with
  | nil => exact h
  | cons r reads ih =>
    refine ih _ ?_
    rw [addCounterSnapshot_heap]
    split
    · rfl
    · exact h

variable (ht : (CounterRef → UserCounter) × Totals)

theorem readAll_drains {reads : List (Int × CounterRef)} (hpos : 0 < u) (hmem : (u, c) ∈ reads) :
    ((readAll reads ht).1 c).bytes = 0 := by
  induction reads generalizing ht with
  | nil => cases hmem
  | cons r reads ih =>
    rcases List.mem_cons.1 hmem with rfl | hmem
    · refine readAll_drained reads _ ?_
      rw [addCounterSnapshot_heap, if_pos ⟨hpos, rfl⟩]
      rfl
    · exact ih _ hmem

/-- Conservation: the total of a user ID and what is left on a set of counters
add up to the same before and after, if the set has the counters read for that
ID and none that is read for another. -/
theorem readAll_conserves {reads : List (Int × CounterRef)}
    (hpos : 0 < u) (held : Finset CounterRef) (hheld : ∀ r ∈ reads, r.2 ∈ held ↔ r.1 = u) :
    ((readAll reads ht).2.get u {}).bytes + ∑ c ∈ held, ((readAll reads ht).1 c).bytes =
      (ht.2.get u {}).bytes + ∑ c ∈ held, (ht.1 c).bytes := by
  induction reads generalizing ht with
  | nil => rfl
  | cons r reads ih =>
    obtain ⟨uid, c⟩ := r
    have hr := hheld (uid, c) List.mem_cons_self
    refine (ih _ fun r hr => hheld r (List.mem_cons_of_mem _ hr)).trans ?_
    rw [addCounterSnapshot_totals]
    simp only [addCounterSnapshot_heap]
    by_cases huid : uid = u
    · -- the bytes of `c` go from its summand to the total
      subst huid
      have hc : c ∈ held := hr.2 rfl
      rw [if_pos ⟨hpos, rfl⟩, ← add_sum_erase held _ hc, ← add_sum_erase held _ hc,
        if_pos ⟨hpos, rfl⟩]
      have hrest : ∑ x ∈ held.erase c,
          (if 0 < uid ∧ x = c then { ht.1 c with upload := 0, download := 0 } else ht.1 x).bytes =
          ∑ x ∈ held.erase c, (ht.1 x).bytes := by
        refine sum_congr rfl fun x hx => ?_
        rw [if_neg fun h => (ne_of_mem_erase hx) h.2]
      have hzero : UserCounter.bytes { ht.1 c with upload := 0, download := 0 } = 0 := rfl
      rw [hrest, hzero, zero_add, add_assoc]
    · -- `c` is not in the set, and the total is another one
      have hc : c ∉ held := fun h => huid (hr.1 h)
      rw [if_neg fun h => huid h.2.symm]
      congr 1
      refine sum_congr rfl fun x hx => ?_
      rw [if_neg]
      rintro ⟨-, rfl⟩
      exact hc hx

/-! ## The loops of `snapshot` -/

/-- The reads `snapshot` makes: the pending counters, then those of the keys. -/
def NodeTraffic.reads (n : NodeTraffic R) (order : SnapshotOrder) : List (Int × CounterRef) :=
  ((n.pending.range order.pending).flatMap fun entry => entry.2.map fun c => (entry.1, c)) ++
    (n.counters.range order.counters).filterMap fun entry => (n.users.lookup entry.1).map fun uid => (uid, entry.2)

theorem mem_reads {order : SnapshotOrder} : (u, c) ∈ n.reads order ↔ n.Held u c := by
  simp only [reads, NodeTraffic.Held, List.mem_append, List.mem_flatMap, List.mem_map, List.mem_filterMap,
    Option.map_eq_some_iff, Prod.mk.injEq, Prod.exists, GoMap.mem_range]
  rw [or_comm]
  refine or_congr ?_ ?_
  · constructor
    · rintro ⟨k, c', hc, u', hu, rfl, rfl⟩
      exact ⟨k, hu, hc⟩
    · rintro ⟨k, hu, hc⟩
      exact ⟨k, c, hc, u, hu, rfl, rfl⟩
  · constructor
    · rintro ⟨u', cs, hcs, c', hc', rfl, rfl⟩
      rwa [GoMap.get, hcs]
    · intro hc
      unfold GoMap.get at hc
      cases hcs : n.pending.lookup u with
      | none =>
        rw [hcs] at hc
        cases hc
      | some cs =>
        rw [hcs] at hc
        exact ⟨u, cs, hcs, c, hc, rfl, rfl⟩

variable (st : SnapshotState) (entry : Int × List CounterRef)

theorem snapshotPending_reads : ((snapshotPending st entry).heap, (snapshotPending st entry).totals) =
      readAll (entry.2.map fun c => (entry.1, c)) (st.heap, st.totals) := by
  simp only [snapshotPending, readAll, List.foldl_map]

variable (l : List (Int × List CounterRef))

theorem snapshotPendings_reads (st : SnapshotState) :
    ((l.foldl snapshotPending st).heap, (l.foldl snapshotPending st).totals) =
      readAll (l.flatMap fun entry => entry.2.map fun c => (entry.1, c)) (st.heap, st.totals) := by
  induction l generalizing st with
  | nil => rfl
  | cons entry l ih => rw [List.foldl_cons, ih, snapshotPending_reads, List.flatMap_cons, readAll_append]

theorem snapshotCounters_reads {n : NodeTraffic R} {onlineMin : Int} {order : SnapshotOrder}
    (l : List (String × CounterRef)) {st : SnapshotState} :
    ((l.foldl (n.snapshotCounter onlineMin order) st).heap, (l.foldl (n.snapshotCounter onlineMin order) st).totals) =
      readAll (l.filterMap fun entry => (n.users.lookup entry.1).map fun uid => (uid, entry.2)) (st.heap, st.totals) := by
  induction l generalizing st with
  | nil => rfl
  | cons entry l ih =>
    rw [List.foldl_cons, ih, List.filterMap_cons, snapshotCounter]
    cases n.users.lookup entry.1 <;> rfl

theorem snapshotLoops_reads (n : NodeTraffic R) (onlineMin : Int) (order : SnapshotOrder) :
    ((n.snapshotLoops onlineMin order).heap, (n.snapshotLoops onlineMin order).totals) =
      readAll (n.reads order) (n.heap, ∅) := by
  rw [snapshotLoops, snapshotCounters_reads, snapshotPendings_reads, ← readAll_append]
  rfl

/-- The first loop leaves the addresses. -/
theorem snapshotPendings_rest (st : SnapshotState) :
    let st' := l.foldl snapshotPending st
    st'.online = st.online ∧ st'.previous = st.previous ∧ st'.alive = st.alive := by
  induction l generalizing st with
  | nil => exact ⟨rfl, rfl, rfl⟩
  | cons entry l ih => exact ih (snapshotPending st entry)

theorem snapshotPending_active {c : CounterRef} :
    ((snapshotPending st entry).heap c).active = (st.heap c).active := by
  have h := congrArg fst (snapshotPending_reads st entry)
  simp only at h
  rw [h, readAll_active]

theorem snapshotPendings_pending (st : SnapshotState)
    (hheap : ∀ c, (st.heap c).active = (heap c).active) (hnodup : (l.map Prod.fst).Nodup)
    (hl : ∀ entry ∈ l, st.pending.get entry.1 [] = entry.2) (u : Int) :
    (l.foldl snapshotPending st).pending.get u [] =
      if u ∈ l.map Prod.fst then (st.pending.get u []).filter fun c => 0 < (heap c).active
      else st.pending.get u [] := by
  induction l generalizing st with
  | nil => rfl
  | cons entry l ih =>
    rw [List.map_cons, List.nodup_cons] at hnodup
    have hget : ∀ u', (snapshotPending st entry).pending.get u' [] =
        if u' = entry.1 then entry.2.filter fun c => 0 < (heap c).active else st.pending.get u' [] := by
      intro u'
      have hfilter : (entry.2.filter fun c => 0 < ((snapshotPending st entry).heap c).active) =
          entry.2.filter fun c => 0 < (heap c).active := by
        simp only [snapshotPending_active, hheap]
      have hpending : (snapshotPending st entry).pending =
          if (entry.2.filter fun c => 0 < ((snapshotPending st entry).heap c).active) = [] then
            st.pending.erase entry.1
          else st.pending.insert entry.1 (entry.2.filter fun c => 0 < ((snapshotPending st entry).heap c).active) :=
        rfl
      rw [hpending, hfilter]
      split
      · rename_i hnil
        rw [get_erase, hnil]
      · rw [get_insert]
    rw [List.foldl_cons, ih _ (fun c => by rw [snapshotPending_active, hheap]) hnodup.2]
    · rw [hget]
      by_cases hu : u = entry.1
      · subst hu
        rw [if_neg hnodup.1, if_pos rfl, if_pos (by simp), hl entry List.mem_cons_self]
      · simp only [List.map_cons, List.mem_cons, hu, false_or, if_false]
    · intro entry' hentry'
      rw [hget, if_neg, hl entry' (List.mem_cons_of_mem _ hentry')]
      rintro heq
      exact hnodup.1 (List.mem_map.2 ⟨entry', hentry', heq⟩)

theorem snapshotLoops_pending (n : NodeTraffic R) (onlineMin : Int) (order : SnapshotOrder) (u : Int) :
    (n.snapshotLoops onlineMin order).pending.get u [] =
      (n.pending.get u []).filter fun c => 0 < (n.heap c).active := by
  have counters : ∀ (l : List (String × CounterRef)) (st : SnapshotState),
      (l.foldl (n.snapshotCounter onlineMin order) st).pending = st.pending := by
    intro l st
    induction l generalizing st with
    | nil => rfl
    | cons entry l ih =>
      rw [List.foldl_cons, ih, snapshotCounter]
      cases n.users.lookup entry.1 <;> rfl
  rw [snapshotLoops, counters,
    snapshotPendings_pending n.heap _ _ (fun _ => rfl) (nodup_range_keys _ _)]
  · split
    · rfl
    · rename_i hu
      -- a key that is not visited has no list
      have hnone : n.pending.lookup u = none := by
        cases hcs : n.pending.lookup u with
        | none => rfl
        | some cs => exact absurd (List.mem_map.2 ⟨(u, cs), mem_range.2 hcs, rfl⟩) hu
      rw [GoMap.get, hnone]
      rfl
  · intro entry hentry
    rw [GoMap.get, GoMap.mem_range.1 hentry]
    rfl

/-! ## What a snapshot does -/

section snapshot

variable {n : NodeTraffic R} (trafficMin onlineMin : Int) (order : SnapshotOrder)

theorem snapshot_active (c : CounterRef) :
    ((n.snapshot trafficMin onlineMin order).2.heap c).active = (n.heap c).active := by
  have h := congrArg fst (snapshotLoops_reads n onlineMin order)
  simp only at h
  simp only [snapshot]
  rw [h, readAll_active]

/-- After a snapshot the counters of the keys are held as before, and of the
pending ones those with an open connection. -/
theorem held_snapshot (u : Int) (c : CounterRef) : (n.snapshot trafficMin onlineMin order).2.Held u c ↔
      (∃ k, n.users.lookup k = some u ∧ n.counters.lookup k = some c) ∨
        (c ∈ n.pending.get u [] ∧ 0 < (n.heap c).active) := by
  simp only [NodeTraffic.Held, snapshot, snapshotLoops_pending, List.mem_filter, decide_eq_true_eq]

theorem held_of_snapshot (h : (n.snapshot trafficMin onlineMin order).2.Held u c) : n.Held u c := by
  rcases (held_snapshot trafficMin onlineMin order u c).1 h with h | ⟨h, -⟩
  · exact .inl h
  · exact .inr h

theorem snapshot_drains (hpos : 0 < u) (h : n.Held u c) :
    ((n.snapshot trafficMin onlineMin order).2.heap c).bytes = 0 := by
  have hreads := congrArg fst (snapshotLoops_reads n onlineMin order)
  simp only at hreads
  simp only [snapshot]
  rw [hreads]
  exact readAll_drains _ hpos (mem_reads.2 h)

theorem heldBytes_snapshot (hpos : 0 < u) : (n.snapshot trafficMin onlineMin order).2.heldBytes u = 0 :=
  sum_eq_zero fun _ hc =>
    snapshot_drains trafficMin onlineMin order hpos (held_of_snapshot trafficMin onlineMin order (mem_heldCounters.1 hc))

theorem snapshotLoops_totals (hn : n.Wf) (hpos : 0 < u) :
    ((n.snapshotLoops onlineMin order).totals.get u {}).bytes = n.heldBytes u := by
  have hreads := snapshotLoops_reads n onlineMin order
  have hheld : ∀ r ∈ n.reads order, r.2 ∈ n.heldCounters u ↔ r.1 = u := by
    intro r hr
    have hr' : n.Held r.1 r.2 := mem_reads.1 hr
    rw [mem_heldCounters]
    constructor
    · intro h
      exact hn.owner r.1 u r.2 hr' h
    · rintro rfl
      exact hr'
  have hsum := readAll_conserves (n.heap, ∅) hpos (n.heldCounters u) hheld
  rw [← hreads] at hsum
  -- at the end the counters are empty, at the start the total is
  have hleft : ∑ c ∈ n.heldCounters u, ((n.snapshotLoops onlineMin order).heap c).bytes = 0 :=
    sum_eq_zero fun c hc => snapshot_drains 0 onlineMin order hpos (mem_heldCounters.1 hc)
  have hstart : (get (∅ : Totals) u {}).bytes = 0 := rfl
  simp only [hleft, hstart, add_zero, zero_add] at hsum
  exact hsum

theorem snapshotLoops_pos (u : Int) (h : ((n.snapshotLoops onlineMin order).totals.lookup u).isSome) : 0 < u := by
  have hreads := congrArg snd (snapshotLoops_reads n onlineMin order)
  simp only at hreads
  rw [hreads] at h
  exact readAll_pos _ (by simp) u h

theorem wf_snapshot (hn : n.Wf) : (n.snapshot trafficMin onlineMin order).2.Wf := by
  refine ⟨hn.dom, hn.counter_lt, ?_, ?_, ?_⟩
  · intro u c hc
    exact hn.held_lt (held_of_snapshot trafficMin onlineMin order (.inr hc))
  · intro u c hc
    simp only [snapshot, snapshotLoops_pending, List.mem_filter] at hc
    exact hn.pending_pos u c hc.1
  · intro u u' c h h'
    exact hn.owner u u' c (held_of_snapshot trafficMin onlineMin order h)
      (held_of_snapshot trafficMin onlineMin order h')

end snapshot

/-! ## What a report contains -/

/-- The bytes of `uid` in a report. -/
def trafficOf (traffic : List UserTraffic) (uid : Int) : Bytes :=
  ((traffic.filter (·.uid = uid)).map UserTraffic.bytes).sum

theorem trafficOf_cons (entry : UserTraffic) (traffic : List UserTraffic) (uid : Int) :
    trafficOf (entry :: traffic) uid = (if entry.uid = uid then entry.bytes else 0) + trafficOf traffic uid := by
  unfold trafficOf
  rw [List.filter_cons]
  split
  · rename_i h
    rw [List.map_cons, List.sum_cons, if_pos (by simpa using h)]
  · rename_i h
    rw [if_neg (by simpa using h), zero_add]

/-- A report has the total of `uid` if it reaches the minimum, and else nothing
of it. -/
theorem trafficOf_reportedTraffic (trafficMin : Int) (order : List Int) (uid : Int) :
    trafficOf (reportedTraffic totals trafficMin order) uid =
      if trafficMin ≤ ((totals.get uid {}).upload + (totals.get uid {}).download : Nat) then (totals.get uid {}).bytes
      else 0 := by
  let share : Int × TrafficTotal → Bytes := fun entry =>
    if entry.1 = uid ∧ trafficMin ≤ ((entry.2.upload + entry.2.download : Nat) : Int) then entry.2.bytes else 0
  have hsum : trafficOf (reportedTraffic totals trafficMin order) uid = ((totals.range order).map share).sum := by
    rw [reportedTraffic]
    induction totals.range order with
    | nil => rfl
    | cons entry l ih =>
      rw [List.filterMap_cons, List.map_cons, List.sum_cons, ← ih]
      by_cases hmin : trafficMin ≤ ((entry.2.upload + entry.2.download : Nat) : Int)
      · by_cases hzero : 0 < entry.2.upload + entry.2.download
        · simp only [hmin, hzero, and_self, if_true, trafficOf_cons, share, and_true]
          rfl
        · -- an entry with no bytes is left out, which makes no difference
          have hbytes : entry.2.bytes = 0 := Prod.ext (by simp [TrafficTotal.bytes]; omega)
            (by simp [TrafficTotal.bytes]; omega)
          simp only [hzero, and_false, if_false, share, hbytes, ite_self, zero_add]
      · simp only [hmin, false_and, and_false, if_false, share, zero_add]
  have hshare : ∀ entry : Int × TrafficTotal, entry.1 ≠ uid → share entry = 0 := by
    intro entry hne
    simp only [share, hne, false_and, if_false]
  rw [hsum, sum_range totals order uid share hshare]
  unfold GoMap.get
  cases totals.lookup uid with
  | none =>
    split <;> rfl
  | some total => simp [share]

/-- The report of a snapshot has what was held for a user ID, unless that is
below the minimum. -/
theorem trafficOf_snapshot (hn : n.Wf) (trafficMin onlineMin : Int) (order : SnapshotOrder) (hpos : 0 < u) :
    trafficOf (n.snapshot trafficMin onlineMin order).1.traffic u =
      if trafficMin ≤ (((n.heldBytes u).1 + (n.heldBytes u).2 : Nat) : Int) then n.heldBytes u else 0 := by
  have htotal := snapshotLoops_totals onlineMin order hn hpos
  simp only [snapshot]
  rw [trafficOf_reportedTraffic, ← htotal]
  rfl

theorem snapshot_traffic_pos (trafficMin onlineMin : Int) (order : SnapshotOrder) :
    ∀ entry ∈ (n.snapshot trafficMin onlineMin order).1.traffic, 0 < entry.uid := by
  intro entry hentry
  simp only [snapshot, reportedTraffic, List.mem_filterMap] at hentry
  obtain ⟨⟨uid, total⟩, hmem, hentry⟩ := hentry
  split at hentry
  · cases hentry
    refine snapshotLoops_pos (n := n) onlineMin order uid ?_
    rw [mem_range.1 hmem]
    rfl
  · cases hentry

/-! ## Bytes held after the other operations -/

theorem heldBytes_congr {n n' : NodeTraffic R} (hkeep : ∀ c, n.Held u c → n'.Held u c)
    (hold : ∀ c, n.Held u c → (n'.heap c).bytes = (n.heap c).bytes)
    (hnew : ∀ c, n'.Held u c → ¬n.Held u c → (n'.heap c).bytes = 0) : n'.heldBytes u = n.heldBytes u := by
  have hsub : n.heldCounters u ⊆ n'.heldCounters u := by
    intro c hc
    exact mem_heldCounters.2 (hkeep c (mem_heldCounters.1 hc))
  rw [heldBytes, ← sum_subset hsub]
  · exact sum_congr rfl fun c hc => hold c (mem_heldCounters.1 hc)
  · intro c hc hc'
    exact hnew c (mem_heldCounters.1 hc) fun h => hc' (mem_heldCounters.2 h)

theorem heldBytes_updateUsers (hn : n.Wf) (a : UpdateArgs R) (hpos : 0 < u) :
    (n.updateUsers a).heldBytes u = n.heldBytes u := by
  refine heldBytes_congr (fun c => held_updateUsers hn a hpos) ?_ ?_
  · intro c hc
    rw [heap_updateUsers hn a (hn.held_lt hc)]
  · intro c hc hnot
    have hge : n.next ≤ c := Nat.le_of_not_lt fun hlt => hnot (held_of_updateUsers hn a hlt hc)
    rw [heap_updateUsers_new hn a hge hc]
    rfl

theorem heldBytes_count (n : NodeTraffic R) (c : CounterRef) (upload download : Nat) (u : Int) [Decidable (n.Held u c)] :
    (n.count c upload download).heldBytes u = n.heldBytes u + if n.Held u c then (upload, download) else 0 := by
  have hcounters : (n.count c upload download).heldCounters u = n.heldCounters u := rfl
  have hheap : ∀ c', ((n.count c upload download).heap c').bytes =
      (n.heap c').bytes + if c' = c then (upload, download) else 0 := by
    intro c'
    simp only [count, modifyCounter]
    by_cases h : c' = c
    · subst h
      rw [if_pos rfl, update_self]
      rfl
    · rw [if_neg h, add_zero, update_of_ne h]
  simp only [heldBytes, hcounters, hheap, sum_add_distrib, sum_ite_eq', mem_heldCounters]

theorem heldBytes_modifyCounter {n : NodeTraffic R} {c : CounterRef} {f : UserCounter → UserCounter}
    (hf : ∀ counter, (f counter).bytes = counter.bytes) (u : Int) : (n.modifyCounter c f).heldBytes u = n.heldBytes u := by
  refine sum_congr rfl fun c' _ => ?_
  simp only [modifyCounter]
  by_cases h : c' = c
  · subst h
    rw [update_self, hf]
  · rw [update_of_ne h]

theorem wf_modifyCounter (hn : n.Wf) {c : CounterRef} {f : UserCounter → UserCounter} : (n.modifyCounter c f).Wf :=
  ⟨hn.dom, hn.counter_lt, hn.pending_lt, hn.pending_pos, hn.owner⟩

theorem wf_trackConn (hn : n.Wf) (c : CounterRef) : (n.trackConn c).Wf := by
  exact wf_modifyCounter hn

theorem wf_untrackConn (hn : n.Wf) (c : CounterRef) : (n.untrackConn c).Wf := by
  exact wf_modifyCounter hn

theorem heldBytes_trackConn (n : NodeTraffic R) (c : CounterRef) (u : Int) :
    (n.trackConn c).heldBytes u = n.heldBytes u := by
  refine heldBytes_modifyCounter ?_ u
  intro counter
  rfl

theorem heldBytes_untrackConn (n : NodeTraffic R) (c : CounterRef) (u : Int) :
    (n.untrackConn c).heldBytes u = n.heldBytes u := by
  refine heldBytes_modifyCounter ?_ u
  intro counter
  rfl

theorem held_allocatePending {n : NodeTraffic R} (uid u : Int) {c : CounterRef} :
    (n.allocatePending uid).Held u c ↔ n.Held u c ∨ (0 < u ∧ u = uid ∧ c = n.next) := by
  simp only [NodeTraffic.Held, allocatePending, mem_appendPendingCounter, or_assoc]

theorem wf_allocatePending (hn : n.Wf) (uid : Int) : (n.allocatePending uid).Wf := by
  have hnew : ∀ u, ¬n.Held u n.next := fun u h => lt_irrefl _ (hn.held_lt h)
  refine ⟨hn.dom, fun k c hc => Nat.lt_succ_of_lt (hn.counter_lt k c hc), ?_, ?_, ?_⟩
  · intro u c hc
    rcases (mem_appendPendingCounter _ _ _ _ _).1 hc with hc | ⟨-, -, rfl⟩
    · exact Nat.lt_succ_of_lt (hn.pending_lt u c hc)
    · exact Nat.lt_succ_self _
  · intro u c hc
    rcases (mem_appendPendingCounter _ _ _ _ _).1 hc with hc | ⟨hpos, -⟩
    · exact hn.pending_pos u c hc
    · exact hpos
  · intro u u' c h h'
    rcases (held_allocatePending uid u).1 h with h | ⟨-, hu, rfl⟩
    · rcases (held_allocatePending uid u').1 h' with h' | ⟨-, -, rfl⟩
      · exact hn.owner u u' c h h'
      · exact absurd h (hnew u)
    · rcases (held_allocatePending uid u').1 h' with h' | ⟨-, hu', -⟩
      · exact absurd h' (hnew u')
      · rw [hu, hu']

theorem heap_allocatePending (n : NodeTraffic R) (uid : Int) (c : CounterRef) :
    (n.allocatePending uid).heap c = if c = n.next then {} else n.heap c := by
  by_cases hc : c = n.next
  · subst hc
    rw [if_pos rfl]
    exact update_self _ _ _
  · rw [if_neg hc]
    exact update_of_ne hc _ _

theorem heldBytes_allocatePending (hn : n.Wf) (uid u : Int) :
    (n.allocatePending uid).heldBytes u = n.heldBytes u := by
  refine heldBytes_congr (fun c h => (held_allocatePending uid u).2 (.inl h)) ?_ ?_
  · intro c hc
    rw [heap_allocatePending, if_neg (ne_of_lt (hn.held_lt hc))]
  · intro c hc hnot
    rcases (held_allocatePending uid u).1 hc with hc | ⟨-, -, rfl⟩
    · exact absurd hc hnot
    · rw [heap_allocatePending, if_pos rfl]
      rfl

theorem counterForUID_cases {uid : Int} (hpos : 0 < uid) (order : List String) :
    (∃ c, n.counterForUID uid order = (some c, n) ∧ n.Held uid c) ∨
      n.counterForUID uid order = (some n.next, n.allocatePending uid) := by
  unfold counterForUID
  rw [if_neg (by omega)]
  split
  · rename_i c hfind
    obtain ⟨entry, hentry, hc⟩ := List.exists_of_findSome?_eq_some hfind
    split at hc
    · cases hc
    · rename_i huid
      have hu : n.users.lookup entry.1 = some uid := by
        rw [← not_not.1 huid]
        exact mem_range.1 hentry
      exact .inl ⟨c, rfl, .inl ⟨entry.1, hu, hc⟩⟩
  · split
    · rename_i c rest hcs
      refine .inl ⟨c, rfl, .inr ?_⟩
      rw [hcs]
      exact List.mem_cons_self
    · exact .inr rfl

theorem extends_allocatePending (hn : n.Wf) (uid : Int) : n.Extends (n.allocatePending uid) where
  wf := wf_allocatePending hn uid
  next_le := Nat.le_succ _
  keep u c _ h := (held_allocatePending uid u).2 (.inl h)
  old u c hc h := by
    rcases (held_allocatePending uid u).1 h with h | ⟨-, -, rfl⟩
    · exact h
    · exact absurd hc (lt_irrefl _)
  active_old c hc := by rw [heap_allocatePending, if_neg (ne_of_lt hc)]
  active_new u c hc h := by
    rcases (held_allocatePending uid u).1 h with h | ⟨-, -, rfl⟩
    · exact absurd hc (Nat.not_le_of_lt (hn.held_lt h))
    · rw [heap_allocatePending, if_pos rfl]

theorem extends_count (hn : n.Wf) (c : CounterRef) (upload download : Nat) :
    n.Extends (n.count c upload download) := by
  have hactive : ∀ c', ((n.count c upload download).heap c').active = (n.heap c').active := by
    intro c'
    simp only [count, modifyCounter]
    by_cases h : c' = c
    · subst h
      rw [update_self]
    · rw [update_of_ne h]
  refine ⟨wf_modifyCounter hn, le_refl _, fun _ _ _ h => h, fun _ _ _ h => h, fun c' _ => hactive c', ?_⟩
  intro u c' hc' h
  exact absurd hc' (Nat.not_le_of_lt (hn.held_lt h))

theorem restoreEntry_spec (hn : n.Wf) (order : List String) (entry : UserTraffic) (hpos : 0 < entry.uid) :
    n.Extends (n.restoreEntry order entry) ∧
      ∀ u, (n.restoreEntry order entry).heldBytes u = n.heldBytes u + if entry.uid = u then entry.bytes else 0 := by
  classical
  -- the counter that takes the bytes is held for the user of the entry only
  have counted : ∀ (m : NodeTraffic R) (c : CounterRef), m.Wf → m.Held entry.uid c →
      ∀ u, (m.count c entry.upload entry.download).heldBytes u =
        m.heldBytes u + if entry.uid = u then entry.bytes else 0 := by
    intro m c hm hc u
    rw [heldBytes_count]
    by_cases hu : entry.uid = u
    · subst hu
      rw [if_pos hc, if_pos rfl]
      rfl
    · rw [if_neg hu, if_neg fun h => hu (hm.owner _ _ _ hc h)]
  rcases counterForUID_cases hpos order with ⟨c, hfound, hc⟩ | hnew
  · rw [restoreEntry, hfound]
    exact ⟨extends_count hn c _ _, counted n c hn hc⟩
  · have hext := extends_allocatePending hn entry.uid
    have hheld : (n.allocatePending entry.uid).Held entry.uid n.next :=
      (held_allocatePending entry.uid entry.uid).2 (.inr ⟨hpos, rfl, rfl⟩)
    rw [restoreEntry, hnew]
    refine ⟨hext.trans (extends_count hext.wf n.next _ _), fun u => ?_⟩
    rw [counted _ n.next hext.wf hheld, heldBytes_allocatePending hn]

theorem restoreTraffic_spec (hn : n.Wf) (traffic : List UserTraffic) (orders : Nat → List String)
    (hpos : ∀ entry ∈ traffic, 0 < entry.uid) : n.Extends (n.restoreTraffic traffic orders) ∧
      ∀ u, (n.restoreTraffic traffic orders).heldBytes u = n.heldBytes u + trafficOf traffic u := by
  -- the loop, from any place in the report on
  have loop : ∀ (l : List UserTraffic) (i : Nat) (m : NodeTraffic R), (∀ entry ∈ l, 0 < entry.uid) → m.Wf →
      let m' := (l.zipIdx i).foldl (fun n entry => n.restoreEntry (orders entry.2) entry.1) m
      m.Extends m' ∧ ∀ u, m'.heldBytes u = m.heldBytes u + trafficOf l u := by
    intro l
    induction l with
    | nil =>
      intro i m _ hm
      exact ⟨.refl hm, fun u => (add_zero _).symm⟩
    | cons entry l ih =>
      intro i m hl hm
      obtain ⟨hext, hbytes⟩ := restoreEntry_spec hm (orders i) entry (hl entry List.mem_cons_self)
      obtain ⟨hext', hbytes'⟩ := ih (i + 1) _ (fun e he => hl e (List.mem_cons_of_mem _ he)) hext.wf
      refine ⟨hext.trans hext', fun u => ?_⟩
      rw [List.zipIdx_cons, List.foldl_cons, hbytes', hbytes, trafficOf_cons, add_assoc]
  exact loop traffic 0 n hpos hn

theorem restoreTraffic_rest (n : NodeTraffic R) (traffic : List UserTraffic) (orders : Nat → List String) :
    let m := n.restoreTraffic traffic orders
    m.users = n.users ∧ m.counters = n.counters ∧ m.online = n.online ∧ m.nodeID = n.nodeID ∧ m.limits = n.limits := by
  refine List.foldlRecOn (motive := fun m : NodeTraffic R => m.users = n.users ∧ m.counters = n.counters ∧
    m.online = n.online ∧ m.nodeID = n.nodeID ∧ m.limits = n.limits) _ _ ⟨rfl, rfl, rfl, rfl, rfl⟩ ?_
  rintro m hm entry _
  unfold restoreEntry
  rcases lt_or_ge 0 entry.1.uid with hpos | hneg
  · rcases counterForUID_cases hpos (orders entry.2) with ⟨c, hc, -⟩ | hc <;> rw [hc] <;> exact hm
  · simp only [counterForUID, if_pos hneg]
    exact hm

/-! ## Addresses -/

theorem wf_online (hn : n.Wf) (online : GoMap String IPSet) : NodeTraffic.Wf { n with online := online } :=
  ⟨hn.dom, hn.counter_lt, hn.pending_lt, hn.pending_pos, hn.owner⟩

theorem markOnline_cases (n : NodeTraffic R) (user ip : String) (now : Time) (order : List String) :
    ∃ online, (n.markOnline user ip now order).2 = { n with online := online } := by
  unfold markOnline
  split
  · exact ⟨n.online, rfl⟩
  · split
    · exact ⟨n.online, rfl⟩
    · split
      · exact ⟨n.online, rfl⟩
      · exact ⟨_, rfl⟩

theorem restoreAlive_cases (n : NodeTraffic R) (alive : GoMap Int (List String)) (order : RestoreAliveOrder) :
    ∃ online, n.restoreAlive alive order = { n with online := online } := by
  refine List.foldlRecOn (motive := fun m : NodeTraffic R => ∃ online, m = { n with online := online }) _ _ ⟨n.online, rfl⟩ ?_
  rintro m ⟨online, rfl⟩ entry _
  split
  · exact ⟨online, rfl⟩
  · exact ⟨_, rfl⟩

end Singlink.V2Board
