import Singlink.V2Board.DeviceLimit
import Singlink.V2Board.Push
/-!
# A report that fails and is made again

A `push` whose traffic report fails gives the bytes and the addresses back, and
the next one makes the report again. The bytes of a user come back on one
counter, which may have been several; the addresses come back from the text they
are reported as. For users with distinct IDs nothing of a report depends on
that.
-/

namespace Singlink.V2Board

open Lib Prog NodeTraffic Finset GoMap Prod IPSet

variable {R : Type}

/-! ## Alive values -/

theorem underscore_not_mem_repr (nodeID : Int) : ∀ c ∈ (toString nodeID).toList, (c != '_') = true := by
  have digits : ∀ (m : Nat), ∀ c ∈ m.repr.toList, (c != '_') = true := by
    intro m c hc
    rw [Nat.toList_repr] at hc
    have hdigit := Nat.isDigit_of_mem_toDigits (by decide) (by decide) hc
    rw [bne_iff_ne]
    rintro rfl
    revert hdigit
    decide
  intro c hc
  cases nodeID with
  | ofNat m => exact digits m c hc
  | negSucc m =>
    rw [show toString (Int.negSucc m) = "-" ++ m.succ.repr from rfl, String.toList_append, List.mem_append] at hc
    rcases hc with hc | hc
    · rw [show "-".toList = ['-'] from rfl, List.mem_singleton] at hc
      subst hc
      decide
    · exact digits _ c hc

theorem aliveIP_aliveValue {ip : String} (h : ip ≠ "") (nodeID : Int) : aliveIP (aliveValue ip nodeID) = ip := by
  have hbefore : GoStrings.beforeLast (aliveValue ip nodeID) '_' = some ip := by
    have hreverse : (aliveValue ip nodeID).toList.reverse =
        (toString nodeID).toList.reverse ++ '_' :: ip.toList.reverse := by
      simp [aliveValue]
    have hdigits : ∀ c ∈ (toString nodeID).toList.reverse, (c != '_') = true :=
      fun c hc => underscore_not_mem_repr nodeID c (List.mem_reverse.1 hc)
    rw [GoStrings.beforeLast, hreverse, List.dropWhile_append_of_pos hdigits]
    simp
  rw [aliveIP, hbefore]
  exact if_neg h

/-! ## Addresses are never empty -/

/-- No set of addresses has the empty one. -/
def NodeTraffic.NamedIPs (n : NodeTraffic R) : Prop := ∀ k, "" ∉ n.onlineIPs k

variable {n : NodeTraffic R}

theorem NodeTraffic.NamedIPs.insert (h : n.NamedIPs) {user : String} {ips : IPSet}
    (hips : "" ∉ ips.addrs) : NodeTraffic.NamedIPs { n with online := n.online.insert user ips } := by
  intro k
  rw [onlineIPs, get_insert]
  split
  · exact hips
  · exact h k

variable {online : IPSet}

theorem empty_not_mem_addOnlineIP {ip : String} (honline : "" ∉ online.addrs) (hip : ip ≠ "")
    (limit : Nat) (order : List String) : "" ∉ addrs (addOnlineIPWithLimit online ip limit order) := by
  intro hmem
  rcases mem_insert.1 (addOnlineIPWithLimit_subset online ip limit order hmem) with h | h
  · exact hip h.symm
  · exact honline h

theorem empty_not_mem_restoreIPs (h : "" ∉ online.addrs) (values : List String)
    (orders : Nat → List String) : "" ∉ addrs (restoreIPs online values orders) := by
  refine List.foldlRecOn (motive := fun ips : IPSet => "" ∉ ips.addrs) _ _ h ?_
  intro ips hips value _
  split
  · exact hips
  · exact empty_not_mem_addOnlineIP hips ‹_› _ _

theorem onlineIPs_updateUsers (n : NodeTraffic R) (a : UpdateArgs R) (k : String) :
    (n.updateUsers a).onlineIPs k = ∅ ∨ (n.updateUsers a).onlineIPs k = n.onlineIPs k := by
  suffices h : (n.nextUsers a).online.get k ∅ = ∅ ∨ (n.nextUsers a).online.get k ∅ = n.online.get k ∅ by
    rcases h with h | h
    · exact .inl (congrArg addrs h)
    · exact .inr (congrArg addrs h)
  refine nextUsers_rule n a k (P := fun _ acc => acc.online.get k ∅ = ∅ ∨ acc.online.get k ∅ = n.online.get k ∅)
    (fun _ _ _ hsame h => hsame.online ▸ h) ?_ fun _ _ _ => .inl rfl
  rintro _ acc user - hne rfl hacc
  -- the entry of this user is carried over or stays as it is
  unfold updateUser
  simp only [if_neg hne, (carryCounter_rest n _ _ _).2.2.1]
  unfold carryIPs
  split
  · rename_i existing hold _
    rw [GoMap.get_insert, if_pos rfl, GoMap.get, hold]
    exact .inr rfl
  · exact hacc

theorem namedIPs_restoreAlive (h : n.NamedIPs) (alive : GoMap Int (List String))
    (order : RestoreAliveOrder) : (n.restoreAlive alive order).NamedIPs := by
  refine List.foldlRecOn _ _ h ?_
  intro m hm entry _
  split
  · exact hm
  · rename_i user _
    exact hm.insert (empty_not_mem_restoreIPs (hm user.1) _ _)

theorem namedIPs_operate (hn : n.Wf) (h : n.NamedIPs) (op : NodeOp R) : (n.operate op).NamedIPs := by
  cases op with
  | update a =>
    intro k
    rcases onlineIPs_updateUsers n a k with hk | hk
    · exact hk ▸ notMem_empty _
    · exact hk ▸ h k
  | updateAliveList alive aliveAt aliveTTL | trackConn c | untrackConn c | count c upload download => exact h
  | markOnline user ip now order =>
    simp only [operate, markOnline]
    split
    · exact h
    · rename_i hvalid
      have hip : ip ≠ "" := by
        rintro rfl
        exact hvalid rfl
      split
      · exact h
      · split
        · exact h
        · exact h.insert (empty_not_mem_addOnlineIP (h user) hip _ _)
  | snapshot trafficMin onlineMin order =>
    intro k
    simp only [operate, (snapshot_sets hn trafficMin onlineMin order k).1]
    split
    · exact notMem_empty _
    · exact h k
  | restoreTraffic traffic orders =>
    intro k
    rw [operate, onlineIPs, (restoreTraffic_rest n traffic orders).2.2.1]
    exact h k
  | restoreAlive alive order => exact namedIPs_restoreAlive h alive order

theorem namedIPs_of_reach (h : Reach (nodeSystem R) (fun _ _ => True) n) : n.NamedIPs := by
  have hboth : n.Wf ∧ n.NamedIPs := by
    refine Reach.inv (fun n : NodeTraffic R => n.Wf ∧ n.NamedIPs) ?_ ?_ h
    · rintro n ⟨rules, rfl⟩
      exact ⟨wf_zero rules, fun k => notMem_empty _⟩
    · rintro n op _ ⟨hn, hnamed⟩ - rfl
      exact ⟨wf_operate hn op, namedIPs_operate hn hnamed op⟩
  exact hboth.2

/-! ## The counter of a user -/

/-- Distinct keys have distinct user IDs, all above 0. -/
structure NodeTraffic.Distinct (n : NodeTraffic R) : Prop where
  inj : ∀ k k' u, n.users.lookup k = some u → n.users.lookup k' = some u → k = k'
  pos : ∀ k u, n.users.lookup k = some u → 0 < u

/-- `k` is the key of `uid` and `c` its counter. -/
structure NodeTraffic.Owns (n : NodeTraffic R) (k : String) (uid : Int) (c : CounterRef) : Prop where
  user : n.users.lookup k = some uid
  counter : n.counters.lookup k = some c

variable {n : NodeTraffic R} {k : String} {uid : Int} {c : CounterRef}

theorem NodeTraffic.Owns.held (h : n.Owns k uid c) : n.Held uid c := .inl ⟨k, h.user, h.counter⟩

theorem NodeTraffic.Owns.congr {m : NodeTraffic R} (h : n.Owns k uid c) (husers : m.users = n.users)
    (hcounters : m.counters = n.counters) : m.Owns k uid c :=
  ⟨husers ▸ h.user, hcounters ▸ h.counter⟩

theorem NodeTraffic.Distinct.congr {m : NodeTraffic R} (h : n.Distinct) (husers : m.users = n.users) : m.Distinct :=
  ⟨husers ▸ h.inj, husers ▸ h.pos⟩

theorem counterForUID_own (hdistinct : n.Distinct) (hown : n.Owns k uid c) (order : List String) :
    n.counterForUID uid order = (some c, n) := by
  have hpos := hdistinct.pos k uid hown.user
  have hfind : ((n.users.range order).findSome? fun entry =>
      if entry.2 ≠ uid then none else n.counters.lookup entry.1) = some c := by
    cases hfound : (n.users.range order).findSome? fun entry =>
        if entry.2 ≠ uid then none else n.counters.lookup entry.1 with
    | none =>
      have hnone := List.findSome?_eq_none_iff.1 hfound (k, uid) (mem_range.2 hown.user)
      simp [hown.counter, reduceCtorEq] at hnone
    | some c' =>
      obtain ⟨entry, hentry, hc'⟩ := List.exists_of_findSome?_eq_some hfound
      split at hc'
      · cases hc'
      · rename_i huid
        have hu : n.users.lookup entry.1 = some uid := by
          rw [← not_not.1 huid]
          exact mem_range.1 hentry
        rw [hdistinct.inj entry.1 k uid hu hown.user, hown.counter] at hc'
        exact hc'.symm
  simp only [counterForUID, if_neg (not_le.2 hpos), hfind]

theorem bytes_count (n : NodeTraffic R) (c c' : CounterRef) (upload download : Nat) :
    ((n.count c' upload download).heap c).bytes = (n.heap c).bytes + if c = c' then (upload, download) else 0 := by
  simp only [count, modifyCounter, Function.update_apply]
  split
  · rename_i h
    rw [h]
    rfl
  · exact (add_zero _).symm

theorem restoreEntry_own (hn : n.Wf) (hdistinct : n.Distinct) (hown : n.Owns k uid c) (order : List String)
    (entry : UserTraffic) :
    ((n.restoreEntry order entry).heap c).bytes = (n.heap c).bytes + (if entry.uid = uid then entry.bytes else 0) ∧
      (n.restoreEntry order entry).pending.get uid [] = n.pending.get uid [] := by
  unfold restoreEntry
  by_cases huid : entry.uid = uid
  · rw [huid, counterForUID_own hdistinct hown, if_pos rfl]
    refine ⟨?_, rfl⟩
    rw [bytes_count, if_pos rfl]
    rfl
  · rw [if_neg huid]
    rcases lt_or_ge 0 entry.uid with hentry | hneg
    · rcases counterForUID_cases hentry order with ⟨c', hc', hheld⟩ | hnew
      · have hne : c ≠ c' := by
          rintro rfl
          exact huid (hn.owner _ _ _ hheld hown.held)
        rw [hc']
        refine ⟨?_, rfl⟩
        rw [bytes_count, if_neg hne]
      · have hne : c ≠ n.next := ne_of_lt (hn.held_lt hown.held)
        rw [hnew]
        refine ⟨?_, ?_⟩
        · rw [bytes_count, if_neg hne, heap_allocatePending, if_neg hne]
        · change get (appendPendingCounter n.pending entry.uid n.next) uid [] = _
          rw [appendPendingCounter, if_neg (not_le.2 hentry), get_insert, if_neg (Ne.symm huid)]
    · have hskip : n.counterForUID entry.uid order = (none, n) := if_pos hneg
      rw [hskip]
      exact ⟨(add_zero _).symm, rfl⟩

theorem restoreTraffic_own (hn : n.Wf) (hdistinct : n.Distinct) (hown : n.Owns k uid c) (traffic : List UserTraffic)
    (orders : Nat → List String) :
    ((n.restoreTraffic traffic orders).heap c).bytes = (n.heap c).bytes + trafficOf traffic uid ∧
      (n.restoreTraffic traffic orders).pending.get uid [] = n.pending.get uid [] := by
  have loop : ∀ (l : List UserTraffic) (i : Nat) (m : NodeTraffic R), m.Wf → m.Distinct → m.Owns k uid c →
      let m' := (l.zipIdx i).foldl (fun n entry => n.restoreEntry (orders entry.2) entry.1) m
      (m'.heap c).bytes = (m.heap c).bytes + trafficOf l uid ∧ m'.pending.get uid [] = m.pending.get uid [] := by
    intro l
    induction l with
    | nil =>
      intro i m _ _ _
      exact ⟨(add_zero _).symm, rfl⟩
    | cons entry l ih =>
      intro i m hm hd ho
      have hext : m.Extends (m.restoreEntry (orders i) entry) := extends_restoreTraffic hm [entry] fun _ => orders i
      obtain ⟨husers, hcounters, -⟩ := restoreTraffic_rest m [entry] fun _ => orders i
      obtain ⟨hbytes, hpending⟩ := restoreEntry_own hm hd ho (orders i) entry
      obtain ⟨hbytes', hpending'⟩ :=
        ih (i + 1) _ hext.wf (hd.congr husers) (ho.congr husers hcounters)
      simp only [List.zipIdx_cons, List.foldl_cons]
      rw [hbytes', hbytes, trafficOf_cons, add_assoc, hpending', hpending]
      exact ⟨rfl, rfl⟩
  exact loop traffic 0 n hn hdistinct hown

theorem trafficOf_snapshot_all (hn : n.Wf) {trafficMin : Int} (hmin : trafficMin ≤ 1) (onlineMin : Int)
    (order : SnapshotOrder) (hpos : 0 < uid) :
    trafficOf (n.snapshot trafficMin onlineMin order).1.traffic uid = n.heldBytes uid := by
  rw [trafficOf_snapshot hn trafficMin onlineMin order hpos]
  split
  · rfl
  · have hzero : (n.heldBytes uid).1 = 0 ∧ (n.heldBytes uid).2 = 0 := by omega
    exact (Prod.ext hzero.1 hzero.2).symm

/-! ## The addresses of a snapshot -/

/-- The bytes that decide whether the user of a counter is online. A counter that is
pending as well has been read by then. -/
def NodeTraffic.ownTotal (n : NodeTraffic R) (uid : Int) (c : CounterRef) : Nat :=
  if c ∈ n.pending.get uid [] then 0 else (n.heap c).upload + (n.heap c).download

theorem readAll_of_not_read {reads : List (Int × CounterRef)} (ht : (CounterRef → UserCounter) × Totals)
    (h : ∀ r ∈ reads, r.2 ≠ c) : (readAll reads ht).1 c = ht.1 c := by
  induction reads generalizing ht with
  | nil => rfl
  | cons r reads ih =>
    obtain ⟨hr, hrest⟩ := List.forall_mem_cons.1 h
    refine (ih _ hrest).trans ?_
    rw [addCounterSnapshot_heap, if_neg fun h => hr h.2.symm]

/-- Where the loop over the pending counters leaves the counter of a user. -/
theorem snapshotPendings_own (hn : n.Wf) (hown : n.Owns k uid c) (hpos : 0 < uid) (order : List Int)
    (st : SnapshotState) (hst : st.heap = n.heap) :
    counterSnapshotTotal ((n.pending.range order).foldl snapshotPending st).heap uid c = n.ownTotal uid c := by
  have hreads := congrArg Prod.fst (snapshotPendings_reads (n.pending.range order) st)
  simp only at hreads
  -- only a pending counter is read
  have hread : ∀ u, (u, c) ∈ ((n.pending.range order).flatMap fun entry => entry.2.map fun c => (entry.1, c)) ↔
      c ∈ n.pending.get u [] := by
    intro u
    simp only [List.mem_flatMap, List.mem_map, Prod.mk.injEq, Prod.exists, GoMap.mem_range, GoMap.get]
    constructor
    · rintro ⟨_, cs, hcs, _, hc, rfl, rfl⟩
      rwa [hcs]
    · intro hc
      cases hcs : n.pending.lookup u with
      | none =>
        rw [hcs] at hc
        cases hc
      | some cs => exact ⟨u, cs, hcs, c, by rwa [hcs] at hc, rfl, rfl⟩
  rw [counterSnapshotTotal, if_neg (not_le.2 hpos), hreads, ownTotal]
  split
  · rename_i hc
    have hzero := readAll_drains (st.heap, st.totals) hpos ((hread uid).2 hc)
    rw [UserCounter.bytes, mk_eq_zero] at hzero
    rw [hzero.1, hzero.2, add_zero]
  · rename_i hc
    rw [readAll_of_not_read]
    · rw [hst]
    · rintro ⟨u, c'⟩ hr rfl
      have hpending := (hread u).1 hr
      exact hc (hn.owner _ _ _ hown.held (.inr hpending) ▸ hpending)

theorem mem_alive_foldl (nodeID : Int) (u : Int) (ips : List (String × Unit)) (alive : GoMap Int (List String))
    (value : String) :
    value ∈ GoMap.get (ips.foldl (fun alive ip => alive.insert u (alive.get u [] ++ [aliveValue ip.1 nodeID])) alive)
        uid [] ↔ value ∈ alive.get uid [] ∨ (u = uid ∧ ∃ ip ∈ ips, value = aliveValue ip.1 nodeID) := by
  induction ips generalizing alive with
  | nil => simp
  | cons ip ips ih =>
    rw [List.foldl_cons, ih, get_insert]
    by_cases hu : u = uid
    · subst hu
      simp [or_assoc]
    · simp [hu, Ne.symm hu]

variable (onlineMin : Int)

variable (order : SnapshotOrder)

theorem mem_alive_snapshotCounter (value : String) (st : SnapshotState) (key : String) (c : CounterRef) :
    value ∈ (n.snapshotCounter onlineMin order st (key, c)).alive.get uid [] ↔
      value ∈ st.alive.get uid [] ∨ (n.users.lookup key = some uid ∧
        onlineMin ≤ (counterSnapshotTotal st.heap uid c : Int) ∧
        ∃ ip ∈ (st.online.get key ∅).addrs, value = aliveValue ip n.nodeID) := by
  unfold snapshotCounter
  cases hu : n.users.lookup key with
  | none => simp
  | some u =>
    simp only [Option.some.injEq]
    have hips : (∃ ip ∈ (st.online.get key ∅).range (order.ips key), value = aliveValue ip.1 n.nodeID) ↔
        ∃ ip ∈ (st.online.get key ∅).addrs, value = aliveValue ip n.nodeID := by
      simp only [Prod.exists, GoMap.mem_range, mem_addrs, Option.isSome_iff_exists]
      constructor
      · rintro ⟨ip, v, hv, h⟩
        exact ⟨ip, ⟨v, hv⟩, h⟩
      · rintro ⟨ip, ⟨v, hv⟩, h⟩
        exact ⟨ip, v, hv, h⟩
    by_cases huid : u = uid
    · subst huid
      split
      · rename_i hmin
        rw [mem_alive_foldl, hips]
        simp [hmin]
      · rename_i hmin
        simp [hmin]
    · split
      · rw [mem_alive_foldl]
        simp [huid]
      · simp [huid]

theorem snapshotCounter_other (st : SnapshotState) {key key' : String}
    {c c' : CounterRef} (hkey : key ≠ key') (hcounter : (n.users.lookup key).isSome → c' ≠ c) :
    counterSnapshotTotal (n.snapshotCounter onlineMin order st (key, c)).heap uid c' = counterSnapshotTotal st.heap uid c' ∧
      (n.snapshotCounter onlineMin order st (key, c)).online.get key' ∅ = st.online.get key' ∅ := by
  unfold snapshotCounter
  cases hu : n.users.lookup key with
  | none => exact ⟨rfl, rfl⟩
  | some u =>
    have hne : c' ≠ c := hcounter (hu ▸ rfl)
    simp [counterSnapshotTotal, addCounterSnapshot_heap, get_erase, if_neg (Ne.symm hkey), hne]

/-- What the loop over the counters reports for a user ID, if no counter in it belongs
to two keys. -/
theorem snapshotCounters_alive (value : String)
    (l : List (String × CounterRef)) (hl : l.Pairwise fun a b => a.1 ≠ b.1 ∧
      ((n.users.lookup a.1).isSome → (n.users.lookup b.1).isSome → b.2 ≠ a.2)) (st : SnapshotState) :
    value ∈ (l.foldl (n.snapshotCounter onlineMin order) st).alive.get uid [] ↔
      value ∈ st.alive.get uid [] ∨ ∃ k c, (k, c) ∈ l ∧ n.users.lookup k = some uid ∧
        onlineMin ≤ (counterSnapshotTotal st.heap uid c : Int) ∧
        ∃ ip ∈ (st.online.get k ∅).addrs, value = aliveValue ip n.nodeID := by
  induction l generalizing st with
  | nil => simp
  | cons entry l ih =>
    obtain ⟨hentry, hrest⟩ := List.pairwise_cons.1 hl
    obtain ⟨key, c⟩ := entry
    rw [List.foldl_cons, ih hrest, mem_alive_snapshotCounter, or_assoc]
    -- the rest of the list sees its counters and addresses as they were
    have hlater : ∀ k' c', (k', c') ∈ l → n.users.lookup k' = some uid →
        counterSnapshotTotal (n.snapshotCounter onlineMin order st (key, c)).heap uid c' =
            counterSnapshotTotal st.heap uid c' ∧
          (n.snapshotCounter onlineMin order st (key, c)).online.get k' ∅ = st.online.get k' ∅ := by
      intro k' c' hmem hu'
      obtain ⟨hkey, hcounter⟩ := hentry (k', c') hmem
      exact snapshotCounter_other onlineMin order st hkey fun hu => hcounter hu (hu' ▸ rfl)
    refine or_congr_right ?_
    constructor
    · rintro (⟨hu, hmin, hip⟩ | ⟨k', c', hmem, hu, hmin, hip⟩)
      · exact ⟨key, c, List.mem_cons_self, hu, hmin, hip⟩
      · obtain ⟨htotal, honline⟩ := hlater k' c' hmem hu
        exact ⟨k', c', List.mem_cons_of_mem _ hmem, hu, htotal ▸ hmin, honline ▸ hip⟩
    · rintro ⟨k', c', hmem, hu, hmin, hip⟩
      rcases List.mem_cons.1 hmem with heq | hmem
      · cases heq
        exact .inl ⟨hu, hmin, hip⟩
      · obtain ⟨htotal, honline⟩ := hlater k' c' hmem hu
        exact .inr ⟨k', c', hmem, hu, htotal.symm ▸ hmin, honline.symm ▸ hip⟩

/-- What a snapshot reports for a user ID: the addresses of its user, if enough was
counted for them. -/
theorem mem_alive_snapshot (hn : n.Wf) (hdistinct : n.Distinct) (trafficMin onlineMin : Int) (order : SnapshotOrder)
    (value : String) : value ∈ (n.snapshot trafficMin onlineMin order).1.alive.get uid [] ↔
      ∃ k c, n.Owns k uid c ∧ onlineMin ≤ (n.ownTotal uid c : Int) ∧
        ∃ ip ∈ n.onlineIPs k, value = aliveValue ip n.nodeID := by
  have hpairwise : (n.counters.range order.counters).Pairwise fun a b => a.1 ≠ b.1 ∧
      ((n.users.lookup a.1).isSome → (n.users.lookup b.1).isSome → b.2 ≠ a.2) := by
    have hkeys := List.pairwise_map.1 (nodup_range_keys n.counters order.counters)
    refine hkeys.imp_of_mem fun {a b} ha hb hne => ⟨hne, fun hua hub heq => ?_⟩
    obtain ⟨ua, hua⟩ := Option.isSome_iff_exists.1 hua
    obtain ⟨ub, hub⟩ := Option.isSome_iff_exists.1 hub
    have hheld : n.Held ua a.2 := .inl ⟨a.1, hua, mem_range.1 ha⟩
    have hheld' : n.Held ub a.2 := .inl ⟨b.1, hub, heq ▸ mem_range.1 hb⟩
    obtain rfl := hn.owner _ _ _ hheld hheld'
    exact hne (hdistinct.inj _ _ _ hua hub)
  simp only [snapshot, snapshotLoops]
  rw [snapshotCounters_alive onlineMin order value _ hpairwise, (snapshotPendings_rest _ _).1,
    (snapshotPendings_rest _ _).2.2]
  simp only [GoMap.mem_range]
  constructor
  · rintro (hnil | ⟨k, c, hc, hu, hmin, hip⟩)
    · cases hnil
    · have hown : n.Owns k uid c := ⟨hu, hc⟩
      rw [snapshotPendings_own hn hown (hdistinct.pos k uid hu) _ _ rfl] at hmin
      exact ⟨k, c, hown, hmin, hip⟩
  · rintro ⟨k, c, hown, hmin, hip⟩
    refine .inr ⟨k, c, hown.counter, hown.user, ?_, hip⟩
    rw [snapshotPendings_own hn hown (hdistinct.pos k uid hown.user) _ _ rfl]
    exact hmin

/-! ## Taking addresses back -/

theorem addrs_addOnlineIPWithLimit {ip : String} {limit : Nat}
    (h : (insert ip online.addrs).card ≤ limit) (order : List String) :
    addrs (addOnlineIPWithLimit online ip limit order) = insert ip online.addrs := by
  have hroom : ¬((online.lookup ip).isNone = true ∧ limit ≤ online.keys.length) := by
    rintro ⟨hnone, hfull⟩
    have hnew : ip ∉ online.addrs := by
      rw [mem_addrs, Option.isNone_iff_eq_none.1 hnone]
      exact Bool.false_ne_true
    rw [card_insert_of_notMem hnew, addrs, List.toFinset_card_of_nodup online.keys_nodup] at h
    omega
  ext x
  rw [addOnlineIPWithLimit, if_neg hroom, mem_addrs, lookup_insert_eq, mem_insert, mem_addrs]
  by_cases hx : x = ip
  · simp [hx]
  · simp [hx]

def aliveIPs (values : List String) : Finset String := (values.map aliveIP).toFinset.erase ""

theorem addrs_restoreIPs {values : List String}
    (h : (online.addrs ∪ aliveIPs values).card ≤ maxRestoredAliveIPsPerUser) (orders : Nat → List String) :
    addrs (restoreIPs online values orders) = online.addrs ∪ aliveIPs values := by
  have loop : ∀ (l : List String) (i : Nat) (ips : IPSet), (ips.addrs ∪ aliveIPs l).card ≤ maxRestoredAliveIPsPerUser →
      addrs ((l.zipIdx i).foldl (fun online value =>
        if aliveIP value.1 = "" then online
        else addOnlineIPWithLimit online (aliveIP value.1) maxRestoredAliveIPsPerUser (orders value.2)) ips) =
        ips.addrs ∪ aliveIPs l := by
    intro l
    induction l with
    | nil => intro i ips _; simp [aliveIPs]
    | cons value l ih =>
      intro i ips hcard
      rw [List.zipIdx_cons, List.foldl_cons]
      by_cases hempty : aliveIP value = ""
      · have hsame : aliveIPs (value :: l) = aliveIPs l := by
          simp [aliveIPs, hempty]
        rw [if_pos hempty, hsame]
        exact ih (i + 1) ips (hsame ▸ hcard)
      · have hcons : aliveIPs (value :: l) = insert (aliveIP value) (aliveIPs l) := by
          rw [aliveIPs, aliveIPs, List.map_cons, List.toFinset_cons, erase_insert_of_ne hempty]
        have hadd : addrs (addOnlineIPWithLimit ips (aliveIP value) maxRestoredAliveIPsPerUser (orders i)) =
            insert (aliveIP value) ips.addrs := by
          refine addrs_addOnlineIPWithLimit (le_trans (card_le_card ?_) hcard) _
          rw [hcons, union_insert]
          exact insert_subset_insert _ subset_union_left
        rw [if_neg hempty]
        refine (ih (i + 1) _ ?_).trans ?_
        · rw [hadd, insert_union, ← union_insert, ← hcons]
          exact hcard
        · rw [hadd, insert_union, ← union_insert, ← hcons]
  exact loop values 0 online h

def NodeTraffic.restoreAliveEntry (order : RestoreAliveOrder) (n : NodeTraffic R) (entry : Int × List String) :
    NodeTraffic R :=
  match (n.users.range (order.users entry.1)).find? fun user => user.2 == entry.1 with
  | none => n
  | some user =>
    { n with online := n.online.insert user.1 (restoreIPs (n.online.get user.1 ∅) entry.2 (order.ips entry.1)) }

theorem restoreAliveEntry_users (n : NodeTraffic R) (order : RestoreAliveOrder) (entry : Int × List String) :
    (n.restoreAliveEntry order entry).users = n.users := by
  unfold restoreAliveEntry
  split <;> rfl

section

variable (hdistinct : n.Distinct) (hu : n.users.lookup k = some uid)

include hdistinct hu

/-- The addresses of an entry go to the user with its ID. -/
theorem online_restoreAliveEntry (order : RestoreAliveOrder) (entry : Int × List String) :
    (n.restoreAliveEntry order entry).online.get k ∅ =
      if entry.1 = uid then restoreIPs (n.online.get k ∅) entry.2 (order.ips uid) else n.online.get k ∅ := by
  unfold restoreAliveEntry
  split
  · rename_i hnone
    rw [if_neg]
    rintro rfl
    exact List.find?_eq_none.1 hnone (k, entry.1) (mem_range.2 hu) (beq_self_eq_true _)
  · rename_i user hfound
    have hid := List.find?_some hfound
    rw [beq_iff_eq] at hid
    have huser : n.users.lookup user.1 = some entry.1 := by
      rw [← hid]
      exact mem_range.1 (List.mem_of_find?_eq_some hfound)
    simp only [get_insert]
    by_cases huid : entry.1 = uid
    · obtain rfl := hdistinct.inj _ _ _ hu (huid ▸ huser)
      rw [if_pos rfl, if_pos huid, huid]
    · rw [if_neg huid, if_neg]
      rintro rfl
      exact huid (Option.some.inj (huser.symm.trans hu))

theorem restoreAliveEntries_others
    (order : RestoreAliveOrder) (l : List (Int × List String)) {m : NodeTraffic R} (husers : m.users = n.users)
    (hmem : uid ∉ l.map Prod.fst) : (l.foldl (restoreAliveEntry order) m).online.get k ∅ = m.online.get k ∅ ∧
      (l.foldl (restoreAliveEntry order) m).users = n.users := by
  induction l generalizing m with
  | nil => exact ⟨rfl, husers⟩
  | cons entry l ih =>
    rw [List.map_cons, List.mem_cons, not_or] at hmem
    have hstep := ih ((restoreAliveEntry_users m order entry).trans husers) hmem.2
    rw [online_restoreAliveEntry (hdistinct.congr husers) (husers ▸ hu), if_neg (Ne.symm hmem.1)] at hstep
    exact hstep

/-- The addresses reported for a user ID come back to its user, if there is room for
them. -/
theorem onlineIPs_restoreAlive_own (alive : GoMap Int (List String)) (order : RestoreAliveOrder)
    (hroom : (n.onlineIPs k ∪ aliveIPs (alive.get uid [])).card ≤ maxRestoredAliveIPsPerUser) :
    (n.restoreAlive alive order).onlineIPs k = n.onlineIPs k ∪ aliveIPs (alive.get uid []) := by
  have others := restoreAliveEntries_others hdistinct hu order
  change ((alive.range order.alive).foldl (restoreAliveEntry order) n).onlineIPs k = _
  cases hvalues : alive.lookup uid with
  | none =>
    have hmem : uid ∉ (alive.range order.alive).map fst := by
      rw [List.mem_map]
      rintro ⟨entry, hentry, rfl⟩
      rw [mem_range.1 hentry] at hvalues
      cases hvalues
    have hget : alive.get uid [] = [] := by rw [GoMap.get, hvalues, Option.getD_none]
    rw [onlineIPs, (others _ rfl hmem).1, hget]
    exact (union_empty _).symm
  | some values =>
    have hget : alive.get uid [] = values := by rw [GoMap.get, hvalues, Option.getD_some]
    have hmem : (uid, values) ∈ alive.range order.alive := mem_range.2 hvalues
    obtain ⟨before, after, hsplit⟩ := List.append_of_mem hmem
    have hnodup := nodup_range_keys alive order.alive
    rw [hsplit, List.map_append, List.map_cons, List.nodup_middle, List.nodup_cons, List.mem_append, not_or] at hnodup
    obtain ⟨hsame, husers⟩ := others before rfl hnodup.1.1
    have hstep := online_restoreAliveEntry (hdistinct.congr husers) (husers.symm ▸ hu) order (uid, values)
    rw [if_pos rfl, hsame] at hstep
    rw [hget] at hroom ⊢
    rw [hsplit, List.foldl_append, List.foldl_cons, onlineIPs,
      (others after ((restoreAliveEntry_users _ order _).trans husers) hnodup.1.2).1, hstep]
    exact addrs_restoreIPs hroom _

end

/-! ## After a report that failed -/

/-- The node after a push whose traffic report failed. -/
def NodeTraffic.takenBack (n : NodeTraffic R) (trafficMin onlineMin : Int) (env : PushEnv) : NodeTraffic R :=
  let s := n.snapshot trafficMin onlineMin env.order
  (s.2.restoreTraffic s.1.traffic env.restoreOrders).restoreAlive s.1.alive env.aliveOrder

section takenBack

variable (trafficMin onlineMin : Int) (env : PushEnv)

theorem takenBack_eq (n : NodeTraffic R) :
    ∃ online, n.takenBack trafficMin onlineMin env = { (n.snapshot trafficMin onlineMin env.order).2.restoreTraffic
      (n.snapshot trafficMin onlineMin env.order).1.traffic env.restoreOrders with online := online } :=
  restoreAlive_cases _ _ _

theorem takenBack_rest (hn : n.Wf) :
    let m := n.takenBack trafficMin onlineMin env
    m.Wf ∧ m.users = n.users ∧ m.counters = n.counters ∧ m.nodeID = n.nodeID := by
  have hwf := wf_snapshot trafficMin onlineMin env.order hn
  obtain ⟨husers, hcounters, -, hnode, -⟩ := restoreTraffic_rest (n.snapshot trafficMin onlineMin env.order).2
    (n.snapshot trafficMin onlineMin env.order).1.traffic env.restoreOrders
  obtain ⟨online, hback⟩ := takenBack_eq trafficMin onlineMin env n
  simp only [hback]
  exact ⟨wf_online (extends_restoreTraffic hwf _ _).wf online, husers, hcounters, hnode⟩

theorem heldBytes_takenBack (hn : n.Wf) {trafficMin : Int} (hmin : trafficMin ≤ 1) (hpos : 0 < uid) :
    (n.takenBack trafficMin onlineMin env).heldBytes uid = n.heldBytes uid := by
  have hwf := wf_snapshot trafficMin onlineMin env.order hn
  obtain ⟨online, hback⟩ := takenBack_eq trafficMin onlineMin env n
  have hrestored := (restoreTraffic_spec hwf (n.snapshot trafficMin onlineMin env.order).1.traffic env.restoreOrders
    (snapshot_traffic_pos trafficMin onlineMin env.order)).2 uid
  simp only [hback]
  rw [heldBytes_snapshot trafficMin onlineMin env.order hpos, zero_add,
    trafficOf_snapshot_all hn hmin onlineMin env.order hpos] at hrestored
  exact hrestored

section

variable (hn : n.Wf) (hdistinct : n.Distinct)

include hn hdistinct

theorem aliveIPs_snapshot (hnamed : n.NamedIPs) (hown : n.Owns k uid c) (order : SnapshotOrder) :
    aliveIPs ((n.snapshot trafficMin onlineMin order).1.alive.get uid []) =
      if onlineMin ≤ (n.ownTotal uid c : Int) then n.onlineIPs k else ∅ := by
  -- a user ID has one key and one counter
  have honly : ∀ value, value ∈ (n.snapshot trafficMin onlineMin order).1.alive.get uid [] ↔
      onlineMin ≤ (n.ownTotal uid c : Int) ∧ ∃ ip ∈ n.onlineIPs k, value = aliveValue ip n.nodeID := by
    intro value
    rw [mem_alive_snapshot hn hdistinct]
    constructor
    · rintro ⟨k', c', hown', hrest⟩
      obtain rfl := hdistinct.inj _ _ _ hown'.user hown.user
      obtain rfl := Option.some.inj (hown'.counter.symm.trans hown.counter)
      exact hrest
    · exact fun h => ⟨k, c, hown, h⟩
  have hne : ∀ ip ∈ n.onlineIPs k, ip ≠ "" := by
    rintro ip hip rfl
    exact hnamed k hip
  ext ip
  simp only [aliveIPs, mem_erase, List.mem_toFinset, List.mem_map, honly]
  split
  · rename_i hpass
    constructor
    · rintro ⟨-, value, ⟨-, ip', hip', rfl⟩, rfl⟩
      rwa [aliveIP_aliveValue (hne ip' hip')]
    · intro hip
      exact ⟨hne ip hip, aliveValue ip n.nodeID, ⟨hpass, ip, hip, rfl⟩, aliveIP_aliveValue (hne ip hip) _⟩
  · rename_i hfail
    simp [hfail]

/-- A user that was reported online has its addresses again; one that was not has
none. -/
theorem onlineIPs_takenBack (hnamed : n.NamedIPs) (hown : n.Owns k uid c)
    (hcard : (n.onlineIPs k).card ≤ maxRestoredAliveIPsPerUser) : (n.takenBack trafficMin onlineMin env).onlineIPs k =
      if onlineMin ≤ (n.ownTotal uid c : Int) then n.onlineIPs k else ∅ := by
  obtain ⟨husers, -, honline, -⟩ := restoreTraffic_rest (n.snapshot trafficMin onlineMin env.order).2
    (n.snapshot trafficMin onlineMin env.order).1.traffic env.restoreOrders
  have hempty : ((n.snapshot trafficMin onlineMin env.order).2.restoreTraffic
      (n.snapshot trafficMin onlineMin env.order).1.traffic env.restoreOrders).onlineIPs k = ∅ := by
    rw [onlineIPs, honline]
    refine (snapshot_sets hn trafficMin onlineMin env.order k).1.trans ?_
    rw [hown.user]
    rfl
  have hreported := aliveIPs_snapshot trafficMin onlineMin hn hdistinct hnamed hown env.order
  rw [takenBack, onlineIPs_restoreAlive_own (hdistinct.congr husers) (husers ▸ hown.user), hempty, hreported,
    empty_union]
  rw [hempty, hreported]
  split
  · exact hcard
  · exact Nat.zero_le _

/-- What decides whether a user is online does not get less. -/
theorem ownTotal_takenBack (hown : n.Owns k uid c) {trafficMin : Int}
    (hmin : trafficMin ≤ 1) : n.ownTotal uid c ≤ (n.takenBack trafficMin onlineMin env).ownTotal uid c := by
  have hpos := hdistinct.pos k uid hown.user
  have hwf := wf_snapshot trafficMin onlineMin env.order hn
  have hsnapshot : (n.snapshot trafficMin onlineMin env.order).2.Owns k uid c := ⟨hown.user, hown.counter⟩
  obtain ⟨hbytes, hpending⟩ := restoreTraffic_own hwf (hdistinct.congr rfl) hsnapshot
    (n.snapshot trafficMin onlineMin env.order).1.traffic env.restoreOrders
  rw [snapshot_drains trafficMin onlineMin env.order hpos hown.held, zero_add,
    trafficOf_snapshot_all hn hmin onlineMin env.order hpos] at hbytes
  obtain ⟨online, hback⟩ := takenBack_eq trafficMin onlineMin env n
  simp only [ownTotal, hback, hpending]
  -- a counter that is pending now was pending before
  have hstill : c ∈ (n.snapshot trafficMin onlineMin env.order).2.pending.get uid [] → c ∈ n.pending.get uid [] := by
    simp only [snapshot, snapshotLoops_pending, List.mem_filter]
    exact fun h => h.1
  have hle : (n.heap c).bytes.1 ≤ (n.heldBytes uid).1 ∧ (n.heap c).bytes.2 ≤ (n.heldBytes uid).2 := by
    rw [heldBytes, ← add_sum_erase _ _ (mem_heldCounters.2 hown.held)]
    exact ⟨Nat.le_add_right _ _, Nat.le_add_right _ _⟩
  rw [← hbytes] at hle
  split
  · exact Nat.zero_le _
  · rename_i hnot
    rw [if_neg fun h => hnot (hstill h)]
    exact add_le_add hle.1 hle.2

theorem mem_alive_takenBack (hnamed : n.NamedIPs)
    (hcard : ∀ k, (n.onlineIPs k).card ≤ maxRestoredAliveIPsPerUser) {trafficMin : Int} (hmin : trafficMin ≤ 1)
    (order order' : SnapshotOrder) (uid : Int) (value : String) :
    value ∈ ((n.takenBack trafficMin onlineMin env).snapshot trafficMin onlineMin order).1.alive.get uid [] ↔
      value ∈ (n.snapshot trafficMin onlineMin order').1.alive.get uid [] := by
  obtain ⟨hwf, husers, hcounters, hnode⟩ := takenBack_rest trafficMin onlineMin env hn
  rw [mem_alive_snapshot hwf (hdistinct.congr husers), mem_alive_snapshot hn hdistinct, hnode]
  constructor
  · rintro ⟨k, c, hown, -, ip, hip, rfl⟩
    have hown' : n.Owns k uid c := hown.congr husers.symm hcounters.symm
    rw [onlineIPs_takenBack trafficMin onlineMin env hn hdistinct hnamed hown' (hcard k)] at hip
    split at hip
    · rename_i hpass
      exact ⟨k, c, hown', hpass, ip, hip, rfl⟩
    · cases hip
  · rintro ⟨k, c, hown, hpass, ip, hip, rfl⟩
    have hmore := ownTotal_takenBack onlineMin env hn hdistinct hown hmin
    refine ⟨k, c, hown.congr husers hcounters, le_trans hpass (Int.ofNat_le.2 hmore), ip, ?_, rfl⟩
    rw [onlineIPs_takenBack trafficMin onlineMin env hn hdistinct hnamed hown (hcard k), if_pos hpass]
    exact hip

end

end takenBack

/-! ## Two pushes -/

variable {H : Host} (o : NodeOptions)

theorem push_delivers (c : Controller H) (hready : c.inboundReady = true) (env : PushEnv) :
    let s := (c.snapshot env.order).1
    let c' := ((push o env).run c).2
    (env.traffic ≠ none → c' = { c with
      tracker := c.tracker.map (·.takenBack c.nodeReportMinTraffic c.deviceOnlineMinTraffic env) }) ∧
    (env.traffic = none → env.alive = none → c'.accepted = trafficPayload o s.traffic :: c.accepted ∧
      c'.acceptedAlive = if supportsAliveReport o then s.alive :: c.acceptedAlive else c.acceptedAlive) := by
  intro s c'
  simp only [s, c', push, run_bind, run_read, run_atomic, hready, Bool.not_true,
    Bool.false_eq_true, if_false, Controller.snapshot]
  constructor
  · intro hfail
    obtain ⟨err, herr⟩ := Option.ne_none_iff_exists'.1 hfail
    cases htracker : c.tracker with
    | none => simp [herr, htracker, ← hready]
    | some n =>
      simp only [herr, run_bind, run_modify, run_pure, Option.map_some]
      rfl
  · intro htraffic halive
    simp only [htraffic, halive, ite_self]
    cases c.tracker with
    | none | some n => exact ⟨rfl, rfl⟩

theorem bytesOf_snapshot (hn : n.Wf) {trafficMin : Int} (hmin : trafficMin ≤ 1) (onlineMin : Int)
    (order : SnapshotOrder) (uid : Int) :
    (trafficPayload o (n.snapshot trafficMin onlineMin order).1.traffic).bytesOf uid =
      if 0 < uid then n.heldBytes uid else 0 := by
  rw [bytesOf_trafficPayload o (snapshot_traffic_nodup n trafficMin onlineMin order)]
  split
  · rename_i hpos
    exact trafficOf_snapshot_all hn hmin onlineMin order hpos
  · rename_i hneg
    refine trafficOf_of_not_mem fun hmem => ?_
    obtain ⟨entry, hentry, rfl⟩ := List.mem_map.1 hmem
    exact hneg (snapshot_traffic_pos trafficMin onlineMin order entry hentry)

/-- A push whose traffic report fails and one that succeeds deliver together what one
successful push would have: the same bytes for every user ID, and the same alive
values. No total comes to 2⁶³ bytes: those of the source would wrap. -/
theorem failed_push_is_made_up (H : Host) (o : NodeOptions) (c : Controller H)
    (hreach : ∀ n, c.tracker = some n → Reach (nodeSystem (NodeRules H.Regexp H.Pfx)) (fun _ _ => True) n)
    (hdistinct : ∀ n, c.tracker = some n → n.Distinct)
    (hcard : ∀ n, c.tracker = some n → ∀ k, (n.onlineIPs k).card ≤ maxRestoredAliveIPsPerUser)
    (hmin : c.nodeReportMinTraffic ≤ 1) (failed retry once : PushEnv) (hfailed : failed.traffic ≠ none)
    (hretry : retry.traffic = none ∧ retry.alive = none) (honce : once.traffic = none ∧ once.alive = none) :
    let twice := ((push o retry).run ((push o failed).run c).2).2
    let one := ((push o once).run c).2
    (∀ uid, twice.acceptedBytes uid = one.acceptedBytes uid) ∧
      List.Forall₂ (fun a b : GoMap Int (List String) => ∀ uid value, value ∈ a.get uid [] ↔ value ∈ b.get uid [])
        twice.acceptedAlive one.acceptedAlive := by
  intro twice one
  have hsame : ∀ l : List (GoMap Int (List String)),
      List.Forall₂ (fun a b : GoMap Int (List String) => ∀ uid value, value ∈ a.get uid [] ↔ value ∈ b.get uid []) l l :=
    fun l => List.forall₂_same.2 fun _ _ _ _ => Iff.rfl
  cases hready : c.inboundReady with
  | false =>
    have hnothing : ∀ env, ((push o env).run c).2 = c := fun env => by simp [push, hready]
    have htwice : twice = one := by simp only [twice, one, hnothing]
    rw [htwice]
    exact ⟨fun _ => rfl, hsame _⟩
  | true =>
    let c₁ : Controller H := { c with
      tracker := c.tracker.map (·.takenBack c.nodeReportMinTraffic c.deviceOnlineMinTraffic failed) }
    have htwice : twice = ((push o retry).run c₁).2 :=
      congrArg (fun c => ((push o retry).run c).2) ((push_delivers o c hready failed).1 hfailed)
    obtain ⟨haccepted, halive⟩ := (push_delivers o c hready once).2 honce.1 honce.2
    obtain ⟨haccepted', halive'⟩ := (push_delivers o c₁ hready retry).2 hretry.1 hretry.2
    rw [htwice]
    simp only [one, Controller.acceptedBytes, haccepted, halive, haccepted', halive', List.map_cons, List.sum_cons,
      Controller.snapshot, c₁]
    cases htracker : c.tracker with
    | none => exact ⟨fun _ => rfl, hsame _⟩
    | some n =>
      have hn := wf_of_reach (hreach n htracker)
      have hwf := (takenBack_rest c.nodeReportMinTraffic c.deviceOnlineMinTraffic failed hn).1
      simp only [Option.map_some]
      constructor
      · intro uid
        rw [bytesOf_snapshot o hwf hmin, bytesOf_snapshot o hn hmin]
        split
        · rename_i hpos
          rw [heldBytes_takenBack c.deviceOnlineMinTraffic failed hn hmin hpos]
        · rfl
      · split
        · refine .cons (fun uid value => ?_) (hsame _)
          exact mem_alive_takenBack c.deviceOnlineMinTraffic failed hn (hdistinct n htracker)
            (namedIPs_of_reach (hreach n htracker)) (hcard n htracker) hmin _ _ uid value
        · exact hsame _

/-- Two users with bytes and one address. -/
def sampleOnlineOps : List (NodeOp (NodeRules Unit Unit)) :=
  [.update { nodeType := "vless", nodeID := 1, users := [{ id := 7, uuid := "u" }, { id := 8, uuid := "v" }], rules := {} },
    .count 0 10 5, .count 2 0 1, .markOnline "u" "10.0.0.1" 0 []]

def sampleOnline : Controller sampleHost :=
  { nodeHash := [0], userHash := [0], pullInterval := 60 * second, pushInterval := 60 * second
    nodeReportMinTraffic := 1, deviceOnlineMinTraffic := 12, manager := none, inboundReady := true
    tracker := some (sampleOnlineOps.foldl NodeTraffic.operate (.zero {})) }

theorem failed_push_is_made_up_sample :
    let twice := ((push sampleOptions { traffic := none, alive := none }).run
      ((push sampleOptions { traffic := some errCanceled, alive := none }).run sampleOnline).2).2
    let one := ((push sampleOptions { traffic := none, alive := none }).run sampleOnline).2
    one.acceptedBytes 7 = (10, 5) ∧ one.acceptedAlive.map (·.get 7 []) = [["10.0.0.1_1"]] ∧
      (∀ uid, twice.acceptedBytes uid = one.acceptedBytes uid) ∧
      List.Forall₂ (fun a b : GoMap Int (List String) => ∀ uid value, value ∈ a.get uid [] ↔ value ∈ b.get uid [])
        twice.acceptedAlive one.acceptedAlive := by
  have hstart : Reach (nodeSystem (NodeRules Unit Unit)) (fun _ _ => True) (.zero {}) := .init ⟨{}, rfl⟩
  have hreach := hstart.foldl sampleOnlineOps ⟨trivial, trivial, trivial, trivial, trivial⟩
  have husers : ∀ e ∈ (sampleOnlineOps.foldl operate (.zero {})).users.range [], 0 < e.2 ∧
      ∀ e' ∈ (sampleOnlineOps.foldl operate (.zero {})).users.range [], e.2 = e'.2 → e.1 = e'.1 := by decide
  have hcard : ∀ k, ((sampleOnlineOps.foldl operate (.zero {})).onlineIPs k).card ≤
      maxRestoredAliveIPsPerUser := by
    intro k
    have honline : (sampleOnlineOps.foldl operate (.zero {})).online =
        (∅ : GoMap String IPSet).insert "u" ((∅ : IPSet).insert "10.0.0.1" ()) := rfl
    rw [onlineIPs, honline, get_insert]
    split
    · decide
    · exact Nat.zero_le _
  refine ⟨by decide, by decide, failed_push_is_made_up sampleHost sampleOptions sampleOnline ?_ ?_ ?_ (by decide) _ _ _
    (by decide) ⟨rfl, rfl⟩ ⟨rfl, rfl⟩⟩
  · rintro n ⟨⟩
    exact hreach
  · rintro n ⟨⟩
    constructor
    · exact fun k k' u hk hk' => (husers (k, u) (mem_range.2 hk)).2 (k', u) (mem_range.2 hk') rfl
    · exact fun k u hk => (husers (k, u) (mem_range.2 hk)).1
  · rintro n ⟨⟩
    exact hcard

end Singlink.V2Board
