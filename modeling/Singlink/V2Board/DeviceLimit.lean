import Singlink.Lib.Runs
import Singlink.V2Board.Snapshot
/-!
# The device limit

How many addresses a user is admitted from between two snapshots. The limit is
about new addresses: those of the period before are let in again whatever the
limit, and so are those a failed report has put back. A set of 256 addresses
that has to make room for another forgets one.
-/

namespace Singlink.V2Board

open Lib NodeTraffic Finset List GoMap

variable {R : Type}

/-! ## Address sets -/

def IPSet.addrs (ips : IPSet) : Finset String := ips.keys.toFinset

theorem mem_addrs {ips : IPSet} {ip : String} : ip ∈ IPSet.addrs ips ↔ (ips.lookup ip).isSome := by
  rw [IPSet.addrs, mem_toFinset, ← AList.mem_keys, AList.lookup_isSome]

theorem localNew_eq (online previous : IPSet) : localNew online previous = (online.addrs \ previous.addrs).card := by
  unfold localNew
  rw [← toFinset_card_of_nodup (online.keys_nodup.filter _)]
  congr 1
  ext ip
  rw [mem_toFinset, mem_filter, mem_sdiff, mem_addrs, mem_addrs, ← AList.mem_keys,
    ← AList.lookup_isSome, Option.isNone_iff_eq_none, Option.not_isSome_iff_eq_none]

theorem addOnlineIPWithLimit_subset (online : IPSet) (ip : String) (limit : Nat) (order : List String) :
    IPSet.addrs (addOnlineIPWithLimit online ip limit order) ⊆ insert ip online.addrs := by
  intro x hx
  rw [mem_addrs] at hx
  rw [mem_insert, mem_addrs]
  unfold addOnlineIPWithLimit at hx
  simp only [lookup_insert_eq] at hx
  split at hx
  · rename_i h
    exact .inl h
  · refine .inr ?_
    split at hx
    · split at hx
      · rw [lookup_erase_eq] at hx
        split at hx
        · cases hx
        · exact hx
      · exact hx
    · exact hx

/-! ## Runs -/

def NodeTraffic.onlineIPs (n : NodeTraffic R) (k : String) : Finset String := (n.online.get k ∅).addrs

/-- Those of the period before the last snapshot. -/
def NodeTraffic.previousIPs (n : NodeTraffic R) (k : String) : Finset String := (n.previous.get k ∅).addrs

/-- A node and what has happened to the addresses of one key since the last
snapshot: those admitted, those a report gave back, and those that a full set
has lost. -/
structure DeviceRun (R : Type) where
  node : NodeTraffic R
  admitted : Finset String
  restored : Finset String
  evicted : Finset String

inductive DeviceOp (R : Type) where
  | update (a : UpdateArgs R)
  | updateAliveList (alive : GoMap Int Int) (aliveAt : Time) (aliveTTL : Duration)
  | markOnline (user ip : String) (now : Time) (order : List String)
  | snapshot (trafficMin onlineMin : Int) (order : SnapshotOrder)
  | restoreAlive (alive : GoMap Int (List String)) (order : RestoreAliveOrder)

/-- One operation, with its effect on the addresses of `k`. A connection without
a source address is let in and marks nothing. -/
def DeviceRun.step (k : String) (s : DeviceRun R) : DeviceOp R → DeviceRun R
  | .update a => { s with node := s.node.updateUsers a }
  | .updateAliveList alive aliveAt aliveTTL => { s with node := s.node.updateAliveList alive aliveAt aliveTTL }
  | .markOnline user ip now order =>
    let (accepted, node) := s.node.markOnline user ip now order
    { node := node
      admitted := if accepted ∧ user = k ∧ ¬invalidIP ip then insert ip s.admitted else s.admitted
      restored := s.restored
      evicted := s.evicted ∪ (s.node.onlineIPs k \ node.onlineIPs k) }
  | .snapshot trafficMin onlineMin order =>
    { node := (s.node.snapshot trafficMin onlineMin order).2, admitted := ∅, restored := ∅, evicted := ∅ }
  | .restoreAlive alive order =>
    let node := s.node.restoreAlive alive order
    { node := node
      admitted := s.admitted
      restored := s.restored ∪ (node.onlineIPs k \ s.node.onlineIPs k)
      evicted := s.evicted ∪ (s.node.onlineIPs k \ node.onlineIPs k) }

def DeviceRun.start (rules : R) : DeviceRun R :=
  { node := .zero rules, admitted := ∅, restored := ∅, evicted := ∅ }

def deviceSystem (R : Type) (k : String) : System (DeviceRun R) (DeviceOp R) :=
  .ofStep (fun s => ∃ rules, s = .start rules) (DeviceRun.step k)

/-- The key stays with the user `uid`, whose limit is `limit`, and the panel's
count of other devices is 0 or stale. -/
def DeviceRun.Steady (k : String) (uid limit : Int) (s : DeviceRun R) : DeviceOp R → Prop
  | .update a =>
    (∀ user ∈ a.users, userTrackerKey a.nodeType user = k → user.id.toInt = uid ∧ user.deviceLimit.toInt = limit) ∧
      ((s.node.users.lookup k).isSome → ∃ user ∈ a.users, userTrackerKey a.nodeType user = k)
  | .markOnline user _ now _ => user = k → s.node.aliveListFresh now → s.node.alive.get uid 0 = 0
  | _ => True

/-! ## Updating the users -/

/-- What the loop over the new users has made of a key it has seen. -/
structure NextUsers.Carried (n : NodeTraffic R) (k : String) (uid limit : Int) (acc : NextUsers) : Prop where
  ne : k ≠ ""
  users : acc.users.lookup k = some uid
  limit : (acc.limits.get k {}).device.toInt = limit
  online : acc.online.get k ∅ = if n.users.get k 0 == uid then n.online.get k ∅ else ∅
  previous : acc.previous.get k ∅ = if n.users.get k 0 == uid then n.previous.get k ∅ else ∅

structure NextUsers.Absent (k : String) (acc : NextUsers) : Prop where
  users : acc.users.lookup k = none
  online : acc.online.get k ∅ = ∅
  previous : acc.previous.get k ∅ = ∅

variable (old next : GoMap String IPSet)

theorem get_carryIPs (k : String) (same : Bool)
    (h : next.get k ∅ = ∅ ∨ next.get k ∅ = if same then old.get k ∅ else ∅) :
    (carryIPs old next k same).get k ∅ = if same then old.get k ∅ else ∅ := by
  unfold carryIPs
  cases same with
  | false =>
    cases old.lookup k <;> simpa using h
  | true =>
    cases hlookup : old.lookup k with
    | none =>
      have hold : old.get k ∅ = ∅ := by rw [GoMap.get, hlookup]; rfl
      simpa [hold] using h
    | some existing =>
      have hold : old.get k ∅ = existing := by rw [GoMap.get, hlookup]; rfl
      simp only [if_true, hold]
      rw [get_insert, if_pos rfl]

theorem updatedUserLimit_device (n : NodeTraffic R) (ref : Nat) (key : String) (user : UserInfo) :
    (n.updatedUserLimit ref key user).device = user.deviceLimit := by
  unfold updatedUserLimit
  split
  · rfl
  · simp only
    split <;> rfl

variable {n : NodeTraffic R} {uid limit : Int}

theorem carried_updateUser {k nodeType : String} {acc : NextUsers}
    {user : UserInfo} (hkey : userTrackerKey nodeType user = k) (hk : k ≠ "") (hid : user.id.toInt = uid)
    (hlimit : user.deviceLimit.toInt = limit) (h : acc.Absent k ∨ acc.Carried n k uid limit) :
    (n.updateUser nodeType acc user).Carried n k uid limit := by
  obtain ⟨husers, hlimits, honline, hprevious⟩ :=
    carryCounter_rest n { acc with users := acc.users.insert k uid } k (n.users.get k 0 == uid)
  unfold updateUser
  simp only [hkey, hk, if_false, hid]
  refine ⟨hk, ?_, ?_, ?_, ?_⟩
  · simp [husers]
  · simp [hlimits, get_insert, updatedUserLimit_device, hlimit]
  · simp only [honline]
    refine get_carryIPs n.online acc.online k _ ?_
    rcases h with h | h
    · exact .inl h.online
    · exact .inr h.online
  · simp only [hprevious]
    refine get_carryIPs n.previous acc.previous k _ ?_
    rcases h with h | h
    · exact .inl h.previous
    · exact .inr h.previous

/-- The loop, for a list whose users with the key are all `uid` with the same
limit: the key is carried if the list has it. -/
theorem nextUsers_key {k : String} {a : UpdateArgs R} (hall : ∀ user ∈ a.users, userTrackerKey a.nodeType user = k →
      user.id.toInt = uid ∧ user.deviceLimit.toInt = limit) :
    if k ≠ "" ∧ ∃ user ∈ a.users, userTrackerKey a.nodeType user = k then (n.nextUsers a).Carried n k uid limit
    else (n.nextUsers a).Absent k := by
  have hloop := nextUsers_rule n a k
    (P := fun last acc => (last = none → acc.Absent k) ∧ (last ≠ none → acc.Carried n k uid limit)) ?_ ?_
    fun _ _ _ => ⟨fun _ => ⟨rfl, rfl, rfl⟩, fun h => absurd rfl h⟩
  · split
    · rename_i hsome
      obtain ⟨hk, user, hmem, hkey⟩ := hsome
      refine hloop.2 fun hnone => ?_
      rw [if_neg hk, getLast?_eq_none_iff, filter_eq_nil_iff] at hnone
      exact hnone user hmem (decide_eq_true hkey)
    · rename_i hnot
      refine hloop.1 ?_
      split
      · rfl
      · rename_i hk
        rw [getLast?_eq_none_iff, filter_eq_nil_iff]
        exact fun user hmem hkey => hnot ⟨hk, user, hmem, of_decide_eq_true hkey⟩
  · rintro last acc acc' hsame ⟨habsent, hcarried⟩
    refine ⟨fun hnone => ?_, fun hsome => ?_⟩
    · have h := habsent hnone
      exact ⟨hsame.users.trans h.users, hsame.online.trans h.online, hsame.previous.trans h.previous⟩
    · have h := hcarried hsome
      exact ⟨h.ne, hsame.users.trans h.users, hsame.limits ▸ h.limit, hsame.online.trans h.online,
        hsame.previous.trans h.previous⟩
  · rintro last acc user hmem hk hkey ⟨habsent, hcarried⟩
    obtain ⟨hid, hlimit⟩ := hall user hmem hkey
    refine ⟨nofun, fun _ => carried_updateUser hkey hk hid hlimit ?_⟩
    by_cases hnone : last = none
    · exact .inl (habsent hnone)
    · exact .inr (hcarried hnone)

/-! ## Snapshots -/

theorem snapshotCounters_sets (n : NodeTraffic R) (onlineMin : Int) (order : SnapshotOrder) (k : String)
    (l : List (String × CounterRef)) (st : SnapshotState) :
    let st' := l.foldl (n.snapshotCounter onlineMin order) st
    (st'.online.get k ∅ = if (n.users.lookup k).isSome ∧ k ∈ l.map Prod.fst then ∅ else st.online.get k ∅) ∧
      (n.users.lookup k = none → st'.previous.get k ∅ = st.previous.get k ∅) := by
  induction l generalizing st with
  | nil => simp
  | cons entry l ih =>
    obtain ⟨key, c⟩ := entry
    simp only [foldl_cons]
    obtain ⟨honline, hprevious⟩ := ih (n.snapshotCounter onlineMin order st (key, c))
    refine ⟨?_, fun hk => ?_⟩
    · rw [honline]
      cases hu : n.users.lookup key with
      | none =>
        -- the entry is skipped
        have hst : n.snapshotCounter onlineMin order st (key, c) = st := by
          simp only [snapshotCounter, hu]
        rw [hst]
        by_cases hk : k = key
        · subst hk
          simp [hu]
        · simp only [List.map_cons, List.mem_cons, hk, false_or]
      | some uid =>
        have hst : (n.snapshotCounter onlineMin order st (key, c)).online = st.online.erase key := by
          simp only [snapshotCounter, hu]
        rw [hst, get_erase]
        by_cases hk : k = key
        · subst hk
          simp [hu]
        · simp only [List.map_cons, List.mem_cons, hk, false_or, if_false]
    · rw [hprevious hk]
      unfold snapshotCounter
      cases hu : n.users.lookup key with
      | none => rfl
      | some uid =>
        have hne : k ≠ key := by
          rintro rfl
          rw [hk] at hu
          cases hu
        simp only
        split
        · rfl
        · rw [get_insert, if_neg hne]

theorem snapshot_sets (hn : n.Wf) (trafficMin onlineMin : Int) (order : SnapshotOrder)
    (k : String) :
    let n' := (n.snapshot trafficMin onlineMin order).2
    (n'.onlineIPs k = if (n.users.lookup k).isSome then ∅ else n.onlineIPs k) ∧
      (n.users.lookup k = none → n'.previousIPs k = ∅) := by
  obtain ⟨honline, hprevious⟩ := snapshotCounters_sets n onlineMin order k (n.counters.range order.counters)
    ((n.pending.range order.pending).foldl snapshotPending
      { heap := n.heap, totals := ∅, pending := n.pending, online := n.online, previous := ∅, alive := ∅ })
  rw [(snapshotPendings_rest _ _).1] at honline
  rw [(snapshotPendings_rest _ _).2.1] at hprevious
  simp only [onlineIPs, previousIPs, snapshot, snapshotLoops]
  refine ⟨?_, fun hk => ?_⟩
  · rw [honline]
    cases hu : n.users.lookup k with
    | none => simp
    | some u =>
      obtain ⟨c, hc⟩ := hn.exists_counter hu
      have hmem : k ∈ (n.counters.range order.counters).map Prod.fst :=
        mem_map.2 ⟨(k, c), mem_range.2 hc, rfl⟩
      simp only [Option.isSome_some, hmem, and_self, if_true]
      rfl
  · rw [hprevious hk]
    rfl

/-! ## Marking an address online -/

/-- What `markOnline` does: nothing, or add one address to the set of its key,
if the limit allows it. -/
theorem markOnline_spec (n : NodeTraffic R) (user ip : String) (now : Time) (order : List String) :
    (n.markOnline user ip now order).2 = n ∧ ((n.markOnline user ip now order).1 → invalidIP ip) ∨
      ∃ uid online, n.markOnline user ip now order = (true, { n with online := online }) ∧
        n.users.lookup user = some uid ∧ n.exceedsDeviceLimit user uid ip now = false ∧
        (∀ k ≠ user, online.get k ∅ = n.online.get k ∅) ∧
        ip ∈ (online.get user ∅).addrs ∧ (online.get user ∅).addrs ⊆ insert ip (n.onlineIPs user) := by
  unfold markOnline
  split
  · rename_i hip
    exact .inl ⟨rfl, fun _ => hip⟩
  · split
    · exact .inl ⟨rfl, fun h => absurd h Bool.false_ne_true⟩
    · rename_i uid hu
      split
      · exact .inl ⟨rfl, fun h => absurd h Bool.false_ne_true⟩
      · rename_i hexceeds
        rw [Bool.not_eq_true] at hexceeds
        refine .inr ⟨uid, _, rfl, hu, hexceeds, ?_, ?_, ?_⟩
        · intro k hk
          rw [get_insert, if_neg hk]
        · rw [get_insert, if_pos rfl]
          simp [mem_addrs, addOnlineIPWithLimit]
        · rw [get_insert, if_pos rfl]
          exact addOnlineIPWithLimit_subset _ _ _ _

/-- An address within the limit leaves no more than `limit` new ones. -/
theorem card_new_le {user ip : String} {now : Time}
    (hlimit : (n.limits.get user {}).device.toInt = limit) (hpos : 0 < limit)
    (halive : n.aliveListFresh now → n.alive.get uid 0 = 0)
    (hexceeds : n.exceedsDeviceLimit user uid ip now = false) : ip ∈ n.onlineIPs user ∨ ip ∈ n.previousIPs user ∨
      ((insert ip (n.onlineIPs user \ n.previousIPs user)).card : Int) ≤ limit := by
  unfold exceedsDeviceLimit at hexceeds
  simp only [hlimit, not_le.2 hpos, if_false, localNew_eq] at hexceeds
  split at hexceeds
  · rename_i h
    exact .inl (mem_addrs.2 h)
  · split at hexceeds
    · rename_i h
      exact .inr (.inl (mem_addrs.2 h))
    · refine .inr (.inr ?_)
      have hremote : (if n.aliveListFresh now then n.alive.get uid 0 else 0) = 0 := by
        split
        · rename_i hfresh
          exact halive hfresh
        · rfl
      rw [decide_eq_false_iff_not] at hexceeds
      have hcard := card_insert_le ip (n.onlineIPs user \ n.previousIPs user)
      simp only [onlineIPs, previousIPs] at hcard hexceeds ⊢
      omega

theorem onlineIPs_restoreAlive (alive : GoMap Int (List String)) (order : RestoreAliveOrder)
    {k : String} (hk : n.users.lookup k = none) : (n.restoreAlive alive order).onlineIPs k = n.onlineIPs k := by
  refine congrArg IPSet.addrs (foldlRecOn
    (motive := fun m : NodeTraffic R => m.users = n.users ∧ m.online.get k ∅ = n.online.get k ∅)
    (alive.range order.alive) _ ⟨rfl, rfl⟩ ?_).2
  rintro m ⟨husers, honline⟩ entry _
  split
  · exact ⟨husers, honline⟩
  · rename_i user hfind
    refine ⟨husers, ?_⟩
    have hlookup := mem_range.1 (mem_of_find?_eq_some hfind)
    have hne : k ≠ user.1 := by
      rintro rfl
      rw [husers, hk] at hlookup
      cases hlookup
    rw [get_insert, if_neg hne, honline]

/-! ## The invariant -/

structure DeviceRun.Inv (k : String) (uid limit : Int) (s : DeviceRun R) : Prop where
  wf : s.node.Wf
  user : ∀ u, s.node.users.lookup k = some u → k ≠ "" ∧ u = uid ∧ (s.node.limits.get k {}).device.toInt = limit
  absent : s.node.users.lookup k = none → s.node.onlineIPs k = ∅ ∧ s.node.previousIPs k = ∅ ∧ s.admitted = ∅
  /-- what the limit is compared with, apart from addresses given back -/
  new_le : (((s.node.onlineIPs k \ s.node.previousIPs k) \ s.restored).card : Int) ≤ limit
  /-- who was admitted is online, if not exempt -/
  seen : s.admitted \ (s.node.previousIPs k ∪ s.restored ∪ s.evicted) ⊆ s.node.onlineIPs k

open DeviceRun

theorem deviceInv_start (rules : R) (k : String) (uid : Int) {limit : Int} (hpos : 0 < limit) :
    (start rules).Inv k uid limit where
  wf := wf_zero rules
  user := by simp [start, zero]
  absent _ := ⟨rfl, rfl, rfl⟩
  new_le := Int.le_of_lt hpos
  seen := by simp [start]

variable {s : DeviceRun R}

theorem deviceInv_update {k : String} (h : s.Inv k uid limit)
    {a : UpdateArgs R} (hok : s.Steady k uid limit (.update a)) : (s.step k (.update a)).Inv k uid limit := by
  have hkey := nextUsers_key (n := s.node) hok.1
  have hsets : (s.node.updateUsers a).onlineIPs k = s.node.onlineIPs k ∧
      (s.node.updateUsers a).previousIPs k = s.node.previousIPs k := by
    simp only [onlineIPs, previousIPs, updateUsers]
    cases hu : s.node.users.lookup k with
    | none =>
      obtain ⟨honline, hprevious, -⟩ := h.absent hu
      split at hkey
      · rw [hkey.online, hkey.previous]
        split
        · exact ⟨rfl, rfl⟩
        · exact ⟨honline.symm, hprevious.symm⟩
      · rw [hkey.online, hkey.previous]
        exact ⟨honline.symm, hprevious.symm⟩
    | some u =>
      obtain ⟨hne, rfl, -⟩ := h.user u hu
      have hmem := hok.2 (by rw [hu]; rfl)
      rw [if_pos ⟨hne, hmem⟩] at hkey
      have hsame : (s.node.users.get k 0 == u) = true := by
        rw [GoMap.get, hu, beq_iff_eq]
        rfl
      rw [hkey.online, hkey.previous, if_pos hsame, if_pos hsame]
      exact ⟨rfl, rfl⟩
  refine ⟨wf_updateUsers h.wf a, ?_, ?_, ?_, ?_⟩
  · intro u hu
    split at hkey
    · exact ⟨hkey.ne, Option.some.inj (hu.symm.trans hkey.users), hkey.limit⟩
    · exact absurd (hu.symm.trans hkey.users) (by simp)
  · intro hu
    split at hkey
    · exact absurd (hu.symm.trans hkey.users) (by simp)
    · rename_i hnot
      have hbefore : s.node.users.lookup k = none := by
        cases hlookup : s.node.users.lookup k with
        | none => rfl
        | some u => exact absurd ⟨(h.user u hlookup).1, hok.2 (by rw [hlookup]; rfl)⟩ hnot
      obtain ⟨honline, hprevious, hadmitted⟩ := h.absent hbefore
      exact ⟨hsets.1.trans honline, hsets.2.trans hprevious, hadmitted⟩
  · simp only [step, hsets]
    exact h.new_le
  · simp only [step, hsets]
    exact h.seen

/-- A set of the key that loses and gains addresses: who was online is still, or
has been evicted. -/
theorem seen_of_evicted {admitted previous restored restored' evicted online : Finset String}
    (h : admitted \ (previous ∪ restored ∪ evicted) ⊆ online) (online' : Finset String) (hrestored : restored ⊆ restored') :
    admitted \ (previous ∪ restored' ∪ (evicted ∪ (online \ online'))) ⊆ online' := by
  intro x hx
  simp only [mem_sdiff, mem_union, not_or] at hx
  obtain ⟨hadmitted, ⟨hprevious, hnot⟩, hevicted, hlost⟩ := hx
  have honline : x ∈ online := by
    refine h ?_
    simp only [mem_sdiff, mem_union, not_or]
    exact ⟨hadmitted, ⟨hprevious, fun hx => hnot (hrestored hx)⟩, hevicted⟩
  exact by_contra fun hx => hlost ⟨honline, hx⟩

theorem deviceInv_restoreAlive {k : String} (h : s.Inv k uid limit)
    (alive : GoMap Int (List String)) (order : RestoreAliveOrder) :
    (s.step k (.restoreAlive alive order)).Inv k uid limit := by
  obtain ⟨online, heq⟩ := restoreAlive_cases s.node alive order
  have honline := @onlineIPs_restoreAlive _ s.node alive order k
  simp only [step]
  rw [heq] at honline ⊢
  refine ⟨wf_online h.wf online, h.user, ?_, ?_, ?_⟩
  · intro hu
    obtain ⟨hempty, hrest⟩ := h.absent hu
    exact ⟨(honline hu).trans hempty, hrest⟩
  · refine le_trans (Int.ofNat_le.2 (card_le_card ?_)) h.new_le
    intro x hx
    simp only [mem_sdiff, mem_union, not_or, not_and, not_not] at hx ⊢
    exact ⟨⟨hx.2.2 hx.1.1, hx.1.2⟩, hx.2.1⟩
  · exact seen_of_evicted h.seen _ subset_union_left

theorem deviceInv_snapshot {k : String} (hpos : 0 < limit)
    (h : s.Inv k uid limit) (trafficMin onlineMin : Int) (order : SnapshotOrder) :
    (s.step k (.snapshot trafficMin onlineMin order)).Inv k uid limit := by
  obtain ⟨honline, hprevious⟩ := snapshot_sets h.wf trafficMin onlineMin order k
  have hempty : (s.node.snapshot trafficMin onlineMin order).2.onlineIPs k = ∅ := by
    rw [honline]
    cases hu : s.node.users.lookup k with
    | none => exact (h.absent hu).1
    | some u => rfl
  refine ⟨wf_snapshot trafficMin onlineMin order h.wf, h.user, ?_, ?_, ?_⟩
  · intro hu
    exact ⟨hempty, hprevious hu, rfl⟩
  · simp only [step, hempty, empty_sdiff, card_empty]
    exact Int.le_of_lt hpos
  · simp [step]

theorem deviceInv_markOnline {k : String} (hpos : 0 < limit)
    (h : s.Inv k uid limit) {user ip : String} {now : Time} {order : List String}
    (hok : s.Steady k uid limit (.markOnline user ip now order)) :
    (s.step k (.markOnline user ip now order)).Inv k uid limit := by
  rcases markOnline_spec s.node user ip now order with
    ⟨hnode, hinvalid⟩ | ⟨uid', online, hmark, hu, hexceeds, hother, hmem, hsub⟩
  · -- nothing is marked, and nothing but a connection without an address is let in
    have hadmitted : ¬((s.node.markOnline user ip now order).1 ∧ user = k ∧ ¬invalidIP ip) :=
      fun hacc => hacc.2.2 (hinvalid hacc.1)
    simp only [step, hnode, if_neg hadmitted, Finset.sdiff_self, Finset.union_empty]
    exact h
  · by_cases hk : user = k
    · subst hk
      obtain ⟨-, rfl, hlimit⟩ := h.user uid' hu
      simp only [step, hmark]
      refine ⟨wf_online h.wf _, h.user, fun hnone => absurd (hu.symm.trans hnone) (by simp), ?_, ?_⟩
      · -- the address was in one of the sets, or the limit leaves room for it
        rcases card_new_le hlimit hpos (hok rfl) hexceeds with hin | hin | hcard
        · refine le_trans (Int.ofNat_le.2 (card_le_card ?_)) h.new_le
          intro x hx
          simp only [mem_sdiff] at hx ⊢
          rcases mem_insert.1 (hsub hx.1.1) with rfl | honline
          · exact ⟨⟨hin, hx.1.2⟩, hx.2⟩
          · exact ⟨⟨honline, hx.1.2⟩, hx.2⟩
        · refine le_trans (Int.ofNat_le.2 (card_le_card ?_)) h.new_le
          intro x hx
          simp only [mem_sdiff] at hx ⊢
          rcases mem_insert.1 (hsub hx.1.1) with rfl | honline
          · exact absurd hin hx.1.2
          · exact ⟨⟨honline, hx.1.2⟩, hx.2⟩
        · refine le_trans (Int.ofNat_le.2 (card_le_card ?_)) hcard
          intro x hx
          simp only [mem_sdiff, mem_insert] at hx ⊢
          rcases mem_insert.1 (hsub hx.1.1) with rfl | honline
          · exact .inl rfl
          · exact .inr ⟨honline, hx.1.2⟩
      · have hseen := seen_of_evicted h.seen (online.get user ∅).addrs (Finset.Subset.refl s.restored)
        split
        · intro x hx
          rw [mem_sdiff, mem_insert] at hx
          rcases hx with ⟨rfl | hx, hnot⟩
          · exact hmem
          · exact hseen (mem_sdiff.2 ⟨hx, hnot⟩)
        · exact hseen
    · -- the set of another key
      have hips : onlineIPs { s.node with online := online } k = s.node.onlineIPs k :=
        congrArg IPSet.addrs (hother k (Ne.symm hk))
      have hadmitted : ¬(True ∧ user = k ∧ ¬invalidIP ip = true) := fun hacc => hk hacc.2.1
      simp only [step, hmark, if_neg hadmitted, hips, Finset.sdiff_self, Finset.union_empty]
      refine ⟨wf_online h.wf _, h.user, ?_, ?_, ?_⟩
      · rw [hips]
        exact h.absent
      · rw [hips]
        exact h.new_le
      · rw [hips]
        exact h.seen

theorem deviceInv_step {k : String} (hpos : 0 < limit) (h : s.Inv k uid limit)
    {op : DeviceOp R} (hok : s.Steady k uid limit op) : (s.step k op).Inv k uid limit := by
  cases op with
  | update a => exact deviceInv_update h hok
  | updateAliveList alive aliveAt aliveTTL =>
    exact ⟨⟨h.wf.dom, h.wf.counter_lt, h.wf.pending_lt, h.wf.pending_pos, h.wf.owner⟩, h.user, h.absent, h.new_le,
      h.seen⟩
  | markOnline user ip now order => exact deviceInv_markOnline hpos h hok
  | snapshot trafficMin onlineMin order => exact deviceInv_snapshot hpos h trafficMin onlineMin order
  | restoreAlive alive order => exact deviceInv_restoreAlive h alive order

/-! ## The limit -/

/-- Between two snapshots a key is admitted from at most `limit` addresses, not
counting those of the period before, those given back since, and those that
were admitted and then lost by a full set. -/
theorem admitted_new_le_limit {R : Type} (k : String) (uid limit : Int) (hpos : 0 < limit) (s : DeviceRun R)
    (hs : Reach (deviceSystem R k) (DeviceRun.Steady k uid limit) s) :
    ((s.admitted \ (s.node.previousIPs k ∪ s.restored ∪ s.evicted)).card : Int) ≤ limit := by
  have h : s.Inv k uid limit := by
    refine Reach.inv (DeviceRun.Inv k uid limit) ?_ ?_ hs
    · rintro s ⟨rules, rfl⟩
      exact deviceInv_start rules k uid hpos
    · rintro s op s' hinv hok rfl
      exact deviceInv_step hpos hinv hok
  refine le_trans (Int.ofNat_le.2 (card_le_card ?_)) h.new_le
  intro x hx
  have honline := h.seen hx
  simp only [mem_sdiff, mem_union, not_or] at hx ⊢
  exact ⟨⟨honline, hx.2.1.1⟩, hx.2.1.2⟩

/-- A user with a limit of one device, back from the address of the period
before and then seen from another. -/
def sampleDeviceOps : List (DeviceOp Unit) :=
  [.update { nodeType := "vless", nodeID := 1, users := [{ id := 7, uuid := "u", deviceLimit := 1 }], rules := () },
    .markOnline "u" "192.0.2.1" 1 [], .snapshot 0 0 {},
    .markOnline "u" "192.0.2.1" 2 [], .markOnline "u" "192.0.2.2" 3 []]

theorem reach_sampleDeviceOps :
    Reach (deviceSystem Unit "u") (DeviceRun.Steady "u" 7 1) (sampleDeviceOps.foldl (step "u") (.start ())) := by
  have hstart : Reach (deviceSystem Unit "u") (DeviceRun.Steady "u" 7 1) (.start ()) := .init ⟨(), rfl⟩
  refine .foldl hstart _ ⟨?_, ?_, trivial, ?_, ?_, trivial⟩
  · simp only [DeviceRun.Steady]
    decide
  · intro _ hfresh
    exact absurd hfresh (by decide)
  · intro _ hfresh
    exact absurd hfresh (by decide)
  · intro _ hfresh
    exact absurd hfresh (by decide)

theorem admitted_new_le_limit_sample :
    let s := sampleDeviceOps.foldl (DeviceRun.step "u") (.start ())
    s.admitted \ (s.node.previousIPs "u" ∪ s.restored ∪ s.evicted) = {"192.0.2.2"} ∧
      ((s.admitted \ (s.node.previousIPs "u" ∪ s.restored ∪ s.evicted)).card : Int) ≤ 1 :=
  ⟨by decide, admitted_new_le_limit "u" 7 1 (by decide) _ reach_sampleDeviceOps⟩

/-- The address of the period before is not counted: two addresses are admitted
under a limit of one. -/
theorem admitted_exceeds_limit :
    ¬∀ (k : String) (uid limit : Int), 0 < limit → ∀ s : DeviceRun Unit,
      Reach (deviceSystem Unit k) (DeviceRun.Steady k uid limit) s → (s.admitted.card : Int) ≤ limit := by
  intro h
  have hle := h "u" 7 1 (by decide) _ reach_sampleDeviceOps
  have hcard : (sampleDeviceOps.foldl (step "u") (.start ())).admitted.card = 2 := by decide
  omega

end Singlink.V2Board
