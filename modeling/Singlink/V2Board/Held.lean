import Singlink.V2Board.Tracker
import Mathlib.Data.Int.Order.Basic
/-!
# Which counters a node still reads

A counter is held for a user ID if it is the counter of a key mapped to that ID
or is pending for it: these are the counters a snapshot reads. The lemmas say
what each operation does to `Held`, and that a counter is never held for two
IDs.
-/

namespace Singlink.V2Board

open Lib GoMap NodeTraffic List Option Function

variable {R : Type}

/-- `c` is `counters[k]` for a key `k` of `uid`, or an element of
`pending[uid]`. -/
def NodeTraffic.Held (n : NodeTraffic R) (uid : Int) (c : CounterRef) : Prop :=
  (∃ k, n.users.lookup k = some uid ∧ n.counters.lookup k = some c) ∨ c ∈ n.pending.get uid []

/-- What every reachable node state satisfies. -/
structure NodeTraffic.Wf (n : NodeTraffic R) : Prop where
  /-- `users` and `counters` have the same keys -/
  dom : ∀ k, (n.users.lookup k).isSome = (n.counters.lookup k).isSome
  counter_lt : ∀ k c, n.counters.lookup k = some c → c < n.next
  pending_lt : ∀ u c, c ∈ n.pending.get u [] → c < n.next
  pending_pos : ∀ u c, c ∈ n.pending.get u [] → 0 < u
  /-- no counter is held for two user IDs -/
  owner : ∀ u u' c, n.Held u c → n.Held u' c → u = u'

variable {n : NodeTraffic R} {u : Int} {c : CounterRef} {k : String} {acc : NextUsers}

theorem NodeTraffic.Wf.held_lt (hn : n.Wf) (h : n.Held u c) : c < n.next := by
  rcases h with ⟨k, -, hc⟩ | h
  · exact hn.counter_lt k c hc
  · exact hn.pending_lt u c h

theorem NodeTraffic.Wf.exists_user (hn : n.Wf)
    (h : n.counters.lookup k = some c) : ∃ u, n.users.lookup k = some u := by
  have hd := hn.dom k
  rw [h] at hd
  exact isSome_iff_exists.1 hd

theorem NodeTraffic.Wf.exists_counter (hn : n.Wf)
    (h : n.users.lookup k = some u) : ∃ c, n.counters.lookup k = some c := by
  have hd := hn.dom k
  rw [h] at hd
  exact isSome_iff_exists.1 hd.symm

attribute [local simp] GoMap.get

theorem wf_zero (rules : R) : (zero rules).Wf where
  dom := by simp [zero]
  counter_lt := by simp [zero]
  pending_lt := by simp [zero]
  pending_pos := by simp [zero]
  owner := by simp [NodeTraffic.Held, zero]

/-! ## The loop over the users -/

variable {nodeType : String}

theorem get_carryIPs_of_ne (old next : GoMap String IPSet) {key : String} (hk : k ≠ key) (same : Bool) :
    (carryIPs old next key same).get k ∅ = next.get k ∅ := by
  unfold carryIPs
  split
  · rw [get_insert, if_neg hk]
  · rfl

theorem carryCounter_rest (n : NodeTraffic R) (acc : NextUsers) (key : String) (same : Bool) :
    let acc' := n.carryCounter acc key same
    acc'.users = acc.users ∧ acc'.limits = acc.limits ∧ acc'.online = acc.online ∧ acc'.previous = acc.previous := by
  unfold carryCounter
  split <;> exact ⟨rfl, rfl, rfl, rfl⟩

/-- Both have the same of a key. -/
structure NextUsers.SameAt (k : String) (acc acc' : NextUsers) : Prop where
  users : acc'.users.lookup k = acc.users.lookup k
  limits : acc'.limits.get k {} = acc.limits.get k {}
  counters : acc'.counters.lookup k = acc.counters.lookup k
  online : acc'.online.get k ∅ = acc.online.get k ∅
  previous : acc'.previous.get k ∅ = acc.previous.get k ∅

theorem sameAt_updateUser (n : NodeTraffic R) (acc : NextUsers) {user : UserInfo}
    (hkey : userTrackerKey nodeType user = "" ∨ userTrackerKey nodeType user ≠ k) :
    acc.SameAt k (n.updateUser nodeType acc user) := by
  unfold updateUser
  simp only
  split
  · exact ⟨rfl, rfl, rfl, rfl, rfl⟩
  · rename_i hne
    have hk : k ≠ userTrackerKey nodeType user := (hkey.resolve_left hne).symm
    obtain ⟨husers, hlimits, honline, hprevious⟩ :=
      carryCounter_rest n { acc with users := acc.users.insert (userTrackerKey nodeType user) user.id.toInt }
        (userTrackerKey nodeType user) (n.users.get (userTrackerKey nodeType user) 0 == user.id.toInt)
    refine ⟨?_, ?_, ?_, ?_, ?_⟩
    · simp only [husers, lookup_insert_eq, if_neg hk]
    · simp only [hlimits, get_insert, if_neg hk]
    · unfold carryCounter
      split <;> exact AList.lookup_insert_ne hk
    · simp only [honline]
      exact get_carryIPs_of_ne n.online acc.online hk _
    · simp only [hprevious]
      exact get_carryIPs_of_ne n.previous acc.previous hk _

theorem users_updateUser (n : NodeTraffic R) (acc : NextUsers) {user : UserInfo} (hk : k ≠ "")
    (hkey : userTrackerKey nodeType user = k) :
    (n.updateUser nodeType acc user).users.lookup k = some user.id.toInt := by
  unfold updateUser
  simp only [hkey, if_neg hk, (carryCounter_rest n _ _ _).1, lookup_insert_eq, if_true]

/-- What the loop leaves of a key is what it makes of the last user with the key. -/
theorem nextUsers_rule (n : NodeTraffic R) (a : UpdateArgs R) (k : String) {P : Option UserInfo → NextUsers → Prop}
    (hsame : ∀ last acc acc', acc.SameAt k acc' → P last acc → P last acc')
    (hhit : ∀ last acc, ∀ user ∈ a.users, k ≠ "" → userTrackerKey a.nodeType user = k → P last acc →
      P (some user) (n.updateUser a.nodeType acc user))
    (h : ∀ pending heap next, P none ⟨∅, ∅, ∅, pending, ∅, ∅, heap, next⟩) :
    P (if k = "" then none else (a.users.filter fun user => userTrackerKey a.nodeType user = k).getLast?)
      (n.nextUsers a) := by
  unfold nextUsers
  -- from the end of the list: users after the last one with the key do not touch it
  generalize a.users = l at hhit
  induction l using reverseRecOn with
  | nil => simpa using h _ _ _
  | append_singleton l user ih =>
    have hl := ih fun last acc user hmem => hhit last acc user (mem_append_left _ hmem)
    rw [foldl_append, foldl_cons, foldl_nil, filter_append]
    by_cases hkey : userTrackerKey a.nodeType user = k
    · by_cases hk : k = ""
      · rw [if_pos hk] at hl ⊢
        exact hsame _ _ _ (sameAt_updateUser n _ (.inl (hkey.trans hk))) hl
      · rw [if_neg hk, filter_cons_of_pos (by simpa using hkey), filter_nil, getLast?_concat]
        exact hhit _ _ user (mem_append_right _ mem_cons_self) hk hkey hl
    · rw [filter_cons_of_neg (by simpa using hkey), filter_nil, append_nil]
      exact hsame _ _ _ (sameAt_updateUser n _ (.inr hkey)) hl

/-! ## Pending counters -/

variable (values : GoMap Int (List CounterRef))

theorem mem_appendPendingCounter (uid u : Int) (c c' : CounterRef) :
    c' ∈ (appendPendingCounter values uid c).get u [] ↔ c' ∈ values.get u [] ∨ (0 < u ∧ u = uid ∧ c' = c) := by
  unfold appendPendingCounter
  split
  · constructor
    · exact .inl
    · rintro (h' | ⟨hpos, rfl, -⟩)
      · exact h'
      · omega
  · rw [get_insert]
    by_cases hu : u = uid
    · subst hu
      simp only [if_true, mem_append, mem_singleton, true_and]
      constructor
      · rintro (h' | h')
        · exact .inl h'
        · exact .inr ⟨by omega, h'⟩
      · rintro (h' | ⟨-, h'⟩)
        · exact .inl h'
        · exact .inr h'
    · simp [hu]

theorem get_clonePendingCounters (order : List Int) (u : Int) :
    (clonePendingCounters values order).get u [] = values.get u [] := by
  -- the loop, for any part of the entries that names each key once
  have loop : ∀ (l : List (Int × List CounterRef)) (acc : GoMap Int (List CounterRef)), (l.map Prod.fst).Nodup →
      get (l.foldl (fun cloned entry => if entry.2 = [] then cloned else cloned.insert entry.1 entry.2) acc) u [] =
        match l.find? (·.1 == u) with
        | some entry => if entry.2 = [] then acc.get u [] else entry.2
        | none => acc.get u [] := by
    intro l
    induction l with
    | nil => intro acc _; rfl
    | cons entry l ih =>
      intro acc hnodup
      rw [map_cons, nodup_cons] at hnodup
      rw [foldl_cons, ih _ hnodup.2, find?_cons]
      by_cases hu : entry.1 = u
      · have hnone : l.find? (·.1 == u) = none := by
          rw [find?_eq_none]
          intro e he heq
          rw [beq_iff_eq] at heq
          exact hnodup.1 (mem_map.2 ⟨e, he, heq.trans hu.symm⟩)
        rw [hnone]
        simp only [hu, beq_self_eq_true]
        split
        · rfl
        · rw [get_insert, if_pos rfl]
      · have hne : (entry.1 == u) = false := beq_eq_false_iff_ne.2 hu
        have hacc : get (if entry.2 = [] then acc else acc.insert entry.1 entry.2) u [] = acc.get u [] := by
          split
          · rfl
          · rw [get_insert, if_neg (Ne.symm hu)]
        rw [hne, hacc]
  rw [clonePendingCounters, loop _ _ (nodup_range_keys values order)]
  cases hfind : (values.range order).find? (·.1 == u) with
  | none =>
    have hlookup : values.lookup u = none := by
      cases hv : values.lookup u with
      | none => rfl
      | some v =>
        rw [find?_eq_none] at hfind
        exact absurd (beq_self_eq_true u) (hfind (u, v) (mem_range.2 hv))
    simp [hlookup]
  | some entry =>
    obtain ⟨k, v⟩ := entry
    have hk : k = u := by simpa using find?_some hfind
    have hv : values.lookup u = some v := hk ▸ mem_range.1 (mem_of_find?_eq_some hfind)
    by_cases hnil : v = []
    · simp [hv, hnil]
    · simp [hv, hnil]

/-! ## Updating the users -/

/-- What the loop over the new user list has established about its variables,
for a node `n` it started from. -/
structure NextUsers.Ok (n : NodeTraffic R) (acc : NextUsers) : Prop where
  dom : ∀ k, (acc.users.lookup k).isSome = (acc.counters.lookup k).isSome
  /-- a counter is the old one of the same key and user, or a new one -/
  carried : ∀ k c, acc.counters.lookup k = some c →
    (n.counters.lookup k = some c ∧ acc.users.lookup k = n.users.lookup k) ∨ (n.next ≤ c ∧ c < acc.next)
  fresh_inj : ∀ k k' c, n.next ≤ c → acc.counters.lookup k = some c → acc.counters.lookup k' = some c → k = k'
  fresh_zero : ∀ k c, n.next ≤ c → acc.counters.lookup k = some c → acc.heap c = {}
  /-- what is pending was held for the same user -/
  pending : ∀ u c, c ∈ acc.pending.get u [] → 0 < u ∧ n.Held u c
  kept : ∀ u c, c ∈ n.pending.get u [] → c ∈ acc.pending.get u []
  /-- the old counter of a key seen so far is still held -/
  cover : ∀ k u c, n.users.lookup k = some u → n.counters.lookup k = some c → 0 < u →
    (acc.counters.lookup k).isSome → (acc.users.lookup k = some u ∧ acc.counters.lookup k = some c) ∨
      c ∈ acc.pending.get u []
  heap_old : ∀ c < n.next, acc.heap c = n.heap c
  next_le : n.next ≤ acc.next

section

variable (hn : n.Wf) (h : acc.Ok n)

include hn h

theorem NextUsers.Ok.counter_lt (hc : acc.counters.lookup k = some c) : c < acc.next := by
  rcases h.carried k c hc with ⟨hold, -⟩ | ⟨-, hlt⟩
  · exact lt_of_lt_of_le (hn.counter_lt k c hold) h.next_le
  · exact hlt

/-- A key is given its old counter or a new one. If it had another one for a user ID
above 0, that one has to be among the pending counters now. -/
theorem NextUsers.Ok.put {acc' : NextUsers} {key : String} {uid : Int} {new : CounterRef}
    (husers : acc'.users = acc.users.insert key uid) (hcounters : acc'.counters = acc.counters.insert key new)
    (hnew : n.counters.lookup key = some new ∧ n.users.lookup key = some uid ∨
      new = acc.next ∧ new < acc'.next ∧ acc'.heap new = {})
    (hheap : ∀ c < acc.next, acc'.heap c = acc.heap c) (hnext : acc.next ≤ acc'.next)
    (hpending : ∀ u c, c ∈ acc'.pending.get u [] → 0 < u ∧ n.Held u c)
    (hkept : ∀ u c, c ∈ acc.pending.get u [] → c ∈ acc'.pending.get u [])
    (hkey : ∀ u c, n.users.lookup key = some u → n.counters.lookup key = some c → 0 < u →
      uid = u ∧ new = c ∨ c ∈ acc'.pending.get u []) : acc'.Ok n := by
  have hle := h.next_le
  have hother : ∀ k c, n.next ≤ c → acc.counters.lookup k = some c → new ≠ c := by
    rintro k c hc hk rfl
    rcases hnew with ⟨hold, -⟩ | ⟨rfl, -⟩
    · exact absurd hc (Nat.not_le_of_lt (hn.counter_lt key _ hold))
    · exact absurd (h.counter_lt hn hk) (lt_irrefl _)
  refine ⟨?_, ?_, ?_, ?_, hpending, fun u c hc => hkept u c (h.kept u c hc), ?_,
    fun c hc => (hheap c (lt_of_lt_of_le hc hle)).trans (h.heap_old c hc), hle.trans hnext⟩
  all_goals simp only [husers, hcounters, lookup_insert_eq]
  · intro k
    split
    · rfl
    · exact h.dom k
  · intro k c hc
    split at hc
    · rename_i hk
      cases hc
      rw [hk, if_pos rfl]
      exact hnew.imp (fun hold => ⟨hold.1, hold.2.symm⟩) fun ⟨heq, hlt, _⟩ => ⟨heq ▸ hle, hlt⟩
    · rename_i hk
      rw [if_neg hk]
      exact (h.carried k c hc).imp_right fun ⟨hge, hlt⟩ => ⟨hge, lt_of_lt_of_le hlt hnext⟩
  · intro k k' c hc hk hk'
    split at hk
    · rename_i hkey₁
      split at hk'
      · rename_i hkey₂
        rw [hkey₁, hkey₂]
      · exact absurd (some.inj hk) (hother k' c hc hk')
    · split at hk'
      · exact absurd (some.inj hk') (hother k c hc hk)
      · exact h.fresh_inj k k' c hc hk hk'
  · intro k c hc hk
    split at hk
    · cases hk
      rcases hnew with ⟨hold, -⟩ | ⟨-, -, hzero⟩
      · exact absurd hc (Nat.not_le_of_lt (hn.counter_lt key _ hold))
      · exact hzero
    · rw [hheap c (h.counter_lt hn hk)]
      exact h.fresh_zero k c hc hk
  · intro k u c hu hc hpos hsome
    by_cases hk : k = key
    · subst hk
      simpa only [if_pos, some.injEq] using hkey u c hu hc hpos
    · simp only [if_neg hk] at hsome ⊢
      exact (h.cover k u c hu hc hpos hsome).imp_right (hkept u c)

theorem NextUsers.Ok.carry (key : String) (uid : Int) :
    (n.carryCounter { acc with users := acc.users.insert key uid } key (n.users.get key 0 == uid)).Ok n := by
  have hheap : ∀ c < acc.next, Function.update acc.heap acc.next {} c = acc.heap c := fun c hc => update_of_ne hc.ne ..
  have hallocated : acc.next = acc.next ∧ acc.next < acc.next + 1 ∧ Function.update acc.heap acc.next {} acc.next = {} :=
    ⟨rfl, Nat.lt_succ_self _, update_self ..⟩
  unfold carryCounter
  split
  · rename_i existing hexisting hsame
    obtain ⟨u, hu⟩ := hn.exists_user hexisting
    have huid : u = uid := by
      rw [beq_iff_eq] at hsame
      rw [← hsame, GoMap.get, hu]
      rfl
    subst huid
    refine h.put hn rfl rfl (.inl ⟨hexisting, hu⟩) (fun _ _ => rfl) le_rfl h.pending (fun _ _ => id) ?_
    intro u' c hu' hc _
    exact .inl ⟨some.inj (hu.symm.trans hu'), some.inj (hexisting.symm.trans hc)⟩
  · rename_i existing hexisting hsame
    obtain ⟨u, hu⟩ := hn.exists_user hexisting
    have hget : n.users.get key 0 = u := by
      rw [GoMap.get, hu]
      rfl
    rw [hget]
    refine h.put hn rfl rfl (.inr hallocated) hheap (Nat.le_succ _) ?_ ?_ ?_
    · intro u' c hc
      rcases (mem_appendPendingCounter _ _ _ _ _).1 hc with hc | ⟨hpos, rfl, rfl⟩
      · exact h.pending u' c hc
      · exact ⟨hpos, .inl ⟨key, hu, hexisting⟩⟩
    · intro u' c hc
      exact (mem_appendPendingCounter _ _ _ _ _).2 (.inl hc)
    · intro u' c hu' hc hpos
      cases hu.symm.trans hu'
      cases hexisting.symm.trans hc
      exact .inr ((mem_appendPendingCounter _ _ _ _ _).2 (.inr ⟨hpos, rfl, rfl⟩))
  · rename_i hnone
    refine h.put hn rfl rfl (.inr hallocated) hheap (Nat.le_succ _) h.pending (fun _ _ => id) ?_
    intro u c _ hc
    cases hnone.symm.trans hc

/-- The rest of the loop body does not touch what the invariant speaks about. -/
theorem NextUsers.Ok.updateUser (nodeType : String) (user : UserInfo) : (n.updateUser nodeType acc user).Ok n := by
  unfold NodeTraffic.updateUser
  simp only
  split
  · exact h
  · have hcarry := h.carry hn (userTrackerKey nodeType user) user.id.toInt
    refine ⟨hcarry.dom, ?_, hcarry.fresh_inj, hcarry.fresh_zero, hcarry.pending, hcarry.kept, hcarry.cover,
      hcarry.heap_old, Nat.le_succ_of_le hcarry.next_le⟩
    intro k c hc
    rcases hcarry.carried k c hc with hold | ⟨hge, hlt⟩
    · exact .inl hold
    · exact .inr ⟨hge, Nat.lt_succ_of_lt hlt⟩

end

theorem nextUsers_ok (hn : n.Wf) (a : UpdateArgs R) : (n.nextUsers a).Ok n := by
  have start : NextUsers.Ok n
      { users := ∅, limits := ∅, counters := ∅, pending := clonePendingCounters n.pending a.pendingOrder
        online := ∅, previous := ∅, heap := n.heap, next := n.next } := by
    refine ⟨by simp, by simp, by simp, by simp, ?_, ?_, by simp, fun _ _ => rfl, le_refl _⟩
    · intro u c hc
      rw [get_clonePendingCounters] at hc
      exact ⟨hn.pending_pos u c hc, .inr hc⟩
    · intro u c hc
      rwa [get_clonePendingCounters]
  exact foldlRecOn a.users (n.updateUser a.nodeType) start fun acc h user _ => h.updateUser hn a.nodeType user

theorem mem_dropCounters (n : NodeTraffic R) (acc : NextUsers) (order : List String) (u : Int) (c : CounterRef) :
    c ∈ (n.dropCounters acc order).get u [] ↔ c ∈ acc.pending.get u [] ∨
      ∃ k, n.counters.lookup k = some c ∧ acc.counters.lookup k = none ∧ 0 < u ∧ n.users.get k 0 = u := by
  have loop : ∀ (l : List (String × CounterRef)) (pending : GoMap Int (List CounterRef)),
      c ∈ get (l.foldl (fun pending entry =>
        if (acc.counters.lookup entry.1).isSome then pending
        else appendPendingCounter pending (n.users.get entry.1 0) entry.2) pending) u [] ↔
      c ∈ pending.get u [] ∨ ∃ k, (k, c) ∈ l ∧ acc.counters.lookup k = none ∧ 0 < u ∧ n.users.get k 0 = u := by
    intro l
    induction l with
    | nil => intro pending; simp
    | cons entry l ih =>
      intro pending
      obtain ⟨key, c'⟩ := entry
      rw [foldl_cons, ih]
      by_cases hkey : (acc.counters.lookup key).isSome
      · simp only [hkey, if_true, mem_cons, Prod.mk.injEq]
        refine or_congr_right (exists_congr fun k => ?_)
        constructor
        · rintro ⟨hk, hrest⟩
          exact ⟨.inr hk, hrest⟩
        · rintro ⟨⟨rfl, rfl⟩ | hk, hnone, hrest⟩
          · rw [hnone] at hkey
            cases hkey
          · exact ⟨hk, hnone, hrest⟩
      · simp only [hkey, Bool.false_eq_true, if_false, mem_appendPendingCounter, mem_cons, Prod.mk.injEq]
        rw [Bool.not_eq_true, isSome_eq_false_iff, isNone_iff_eq_none] at hkey
        constructor
        · rintro ((h | ⟨hpos, hu, rfl⟩) | ⟨k, hk, hrest⟩)
          · exact .inl h
          · exact .inr ⟨key, .inl ⟨rfl, rfl⟩, hkey, hpos, hu.symm⟩
          · exact .inr ⟨k, .inr hk, hrest⟩
        · rintro (h | ⟨k, ⟨rfl, rfl⟩ | hk, hnone, hpos, hu⟩)
          · exact .inl (.inl h)
          · exact .inl (.inr ⟨hpos, hu.symm, rfl⟩)
          · exact .inr ⟨k, hk, hnone, hpos, hu⟩
  unfold dropCounters
  rw [loop]
  simp only [GoMap.mem_range]

section

variable (hn : n.Wf) (a : UpdateArgs R)

include hn

theorem held_of_updateUsers (hc : c < n.next) (h : (n.updateUsers a).Held u c) : n.Held u c := by
  have hok := nextUsers_ok hn a
  simp only [NodeTraffic.Held, updateUsers, mem_dropCounters] at h
  rcases h with ⟨k, hu, hk⟩ | h | ⟨k, hk, -, -, hu⟩
  · rcases hok.carried k c hk with ⟨hold, husers⟩ | ⟨hge, -⟩
    · exact .inl ⟨k, by rw [← husers, hu], hold⟩
    · exact absurd hge (Nat.not_le_of_lt hc)
  · exact (hok.pending u c h).2
  · obtain ⟨u', hu'⟩ := hn.exists_user hk
    rw [GoMap.get, hu', getD_some] at hu
    exact .inl ⟨k, by rw [hu', hu], hk⟩

/-- An update moves counters between `counters` and `pending`, but those held
for a user ID above 0 stay held for it. -/
theorem held_updateUsers (hpos : 0 < u) (h : n.Held u c) : (n.updateUsers a).Held u c := by
  have hok := nextUsers_ok hn a
  simp only [NodeTraffic.Held, updateUsers, mem_dropCounters]
  rcases h with ⟨k, hu, hk⟩ | h
  · cases hacc : (n.nextUsers a).counters.lookup k with
    | none =>
      refine .inr (.inr ⟨k, hk, hacc, hpos, ?_⟩)
      rw [GoMap.get, hu]
      rfl
    | some c' =>
      rcases hok.cover k u c hu hk hpos (by rw [hacc]; rfl) with hcov | hcov
      · exact .inl ⟨k, hcov⟩
      · exact .inr (.inl hcov)
  · exact .inr (.inl (hok.kept u c h))

/-- Nothing pending is new. -/
theorem pending_updateUsers_lt (h : c ∈ (n.updateUsers a).pending.get u []) : c < n.next := by
  simp only [updateUsers, mem_dropCounters] at h
  rcases h with h | ⟨k, hk, -⟩
  · exact hn.held_lt ((nextUsers_ok hn a).pending u c h).2
  · exact hn.counter_lt k c hk

theorem held_updateUsers_new (hc : n.next ≤ c) (h : (n.updateUsers a).Held u c) :
    ∃ k, (n.updateUsers a).users.lookup k = some u ∧ (n.updateUsers a).counters.lookup k = some c := by
  rcases h with h | h
  · exact h
  · exact absurd hc (Nat.not_le_of_lt (pending_updateUsers_lt hn a h))

theorem next_le_updateUsers : n.next ≤ (n.updateUsers a).next :=
  (nextUsers_ok hn a).next_le

theorem heap_updateUsers (hc : c < n.next) : (n.updateUsers a).heap c = n.heap c :=
  (nextUsers_ok hn a).heap_old c hc

theorem heap_updateUsers_new (hc : n.next ≤ c) (h : (n.updateUsers a).Held u c) : (n.updateUsers a).heap c = {} := by
  obtain ⟨k, -, hk⟩ := held_updateUsers_new hn a hc h
  exact (nextUsers_ok hn a).fresh_zero k c hc hk

theorem wf_updateUsers : (n.updateUsers a).Wf := by
  have hok := nextUsers_ok hn a
  refine ⟨hok.dom, fun k c hk => hok.counter_lt hn hk, ?_, ?_, ?_⟩
  · intro u c h
    exact lt_of_lt_of_le (pending_updateUsers_lt hn a h) hok.next_le
  · intro u c h
    simp only [updateUsers, mem_dropCounters] at h
    rcases h with h | ⟨k, -, -, hpos, -⟩
    · exact (hok.pending u c h).1
    · exact hpos
  · intro u u' c h h'
    rcases lt_or_ge c n.next with hc | hc
    · exact hn.owner u u' c (held_of_updateUsers hn a hc h) (held_of_updateUsers hn a hc h')
    · obtain ⟨k, hu, hk⟩ := held_updateUsers_new hn a hc h
      obtain ⟨k', hu', hk'⟩ := held_updateUsers_new hn a hc h'
      obtain rfl := hok.fresh_inj k k' c hc hk hk'
      exact some.inj (hu.symm.trans hu')

end

/-! ## Operations that keep what is held -/

/-- `n'` holds what `n` holds for user IDs above 0, and otherwise only counters
that are new and have no connection. -/
structure NodeTraffic.Extends (n n' : NodeTraffic R) : Prop where
  wf : n'.Wf
  next_le : n.next ≤ n'.next
  keep : ∀ u c, 0 < u → n.Held u c → n'.Held u c
  old : ∀ u c, c < n.next → n'.Held u c → n.Held u c
  active_old : ∀ c < n.next, (n'.heap c).active = (n.heap c).active
  active_new : ∀ u c, n.next ≤ c → n'.Held u c → (n'.heap c).active = 0

theorem NodeTraffic.Extends.refl (hn : n.Wf) : n.Extends n where
  wf := hn
  next_le := le_refl _
  keep _ _ _ h := h
  old _ _ _ h := h
  active_old _ _ := rfl
  active_new _ _ hc h := absurd hc (Nat.not_le_of_lt (hn.held_lt h))

theorem NodeTraffic.Extends.trans {n' n'' : NodeTraffic R} (h : n.Extends n') (h' : n'.Extends n'') :
    n.Extends n'' where
  wf := h'.wf
  next_le := le_trans h.next_le h'.next_le
  keep u c hpos hc := h'.keep u c hpos (h.keep u c hpos hc)
  old u c hc hheld := h.old u c hc (h'.old u c (lt_of_lt_of_le hc h.next_le) hheld)
  active_old c hc := (h'.active_old c (lt_of_lt_of_le hc h.next_le)).trans (h.active_old c hc)
  active_new u c hc hheld := by
    rcases lt_or_ge c n'.next with hlt | hge
    · rw [h'.active_old c hlt]
      exact h.active_new u c hc (h'.old u c hlt hheld)
    · exact h'.active_new u c hge hheld

theorem extends_updateUsers (hn : n.Wf) (a : UpdateArgs R) : n.Extends (n.updateUsers a) where
  wf := wf_updateUsers hn a
  next_le := next_le_updateUsers hn a
  keep _ _ hpos h := held_updateUsers hn a hpos h
  old _ _ hc h := held_of_updateUsers hn a hc h
  active_old c hc := by rw [heap_updateUsers hn a hc]
  active_new u c hc h := by rw [heap_updateUsers_new hn a hc h]

end Singlink.V2Board
