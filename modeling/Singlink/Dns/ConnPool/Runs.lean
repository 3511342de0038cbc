import Singlink.Dns.ConnPool.Places
/-!
# The pool over whole runs

Every critical section is a step of the kinds of `Singlink.Dns.ConnPool.Places`, so that
all that is said there of connections holds in any interleaving of calls.
-/

namespace Singlink.Dns

open Lib List Function

namespace ConnPool

variable {T : Type} {p p' p'' : ConnPool T}

/-- No call returns a connection, and no state gets one. -/
structure Inert (p p' : ConnPool T) : Prop where
  state : p'.state = p.state
  calls : ∀ k conn connCtx created, p'.calls k = .returned conn connCtx created →
    p.calls k = .returned conn connCtx created
  states : ∀ st, (p'.states st).all = (p.states st).all ∧ (p'.states st).idle = (p.states st).idle ∧
    (p'.states st).shared = (p.states st).shared

theorem Inert.of_eq (hstate : p'.state = p.state := by rfl) (hcalls : p'.calls = p.calls := by rfl)
    (hstates : p'.states = p.states := by rfl) : Inert p p' :=
  ⟨hstate, fun _ _ _ _ heq => hcalls ▸ heq, fun _ => hstates ▸ ⟨rfl, rfl, rfl⟩⟩

theorem Inert.trans (h : Inert p p') (h' : Inert p' p'') : Inert p p'' where
  state := h'.state.trans h.state
  calls k conn connCtx created heq := h.calls k conn connCtx created (h'.calls k conn connCtx created heq)
  states st := by
    obtain ⟨hall, hidle, hshared⟩ := h.states st
    obtain ⟨hall', hidle', hshared'⟩ := h'.states st
    exact ⟨hall'.trans hall, hidle'.trans hidle, hshared'.trans hshared⟩

theorem Inert.setCall (k : Nat) {call : Call T} (hcall : call.held = none) : Inert p (p.setCall k call) where
  state := rfl
  calls k' conn connCtx created heq := by
    by_cases hk : k' = k
    · subst hk
      simp only [ConnPool.setCall, update_self] at heq
      rw [heq] at hcall
      cases hcall
    · simpa only [ConnPool.setCall, update_of_ne hk] using heq
  states _ := ⟨rfl, rfl, rfl⟩

theorem Inert.modifyState (current : Nat) {f : ConnPoolState T → ConnPoolState T}
    (hf : ∀ state, (f state).all = state.all ∧ (f state).idle = state.idle ∧ (f state).shared = state.shared) :
    Inert p (p.modifyState current f) where
  state := rfl
  calls _ _ _ _ heq := heq
  states st := by
    by_cases heq : st = current
    · subst heq
      simpa [ConnPool.modifyState] using hf _
    · simp [ConnPool.modifyState, heq]

variable [DecidableEq T]

/-! ## The critical sections -/

variable {state : ConnPoolState T} {conn : T} {k current : Nat} {result : Except PoolError T} {c : Nat}

theorem IdleOk.value_ne (h : IdleOk state) {element element' : Element T}
    (helement : element ∈ state.idle) (hmem : element' ∈ state.idle.erase element) : element'.value ≠ element.value := by
  obtain ⟨hne, hmem⟩ := (h.indexed.nodup.mem_erase_iff).1 hmem
  exact fun heq => hne (h.indexed.eq_of_key hmem helement heq)

variable (mode : ConnPoolMode)

theorem Shrinks.takeIdle {state' : ConnPoolState T} {element : Element T}
    (helement : element ∈ state.idle) (hidle : state'.idle = state.idle.erase element)
    (hindex : state'.idleElements = state.idleElements.erase element.value)
    (hall : ∀ conn, conn ∈ state'.all → conn ∈ state.all)
    (hrest : ∀ conn, conn ∈ state.all → conn ≠ element.value → conn ∈ state'.all)
    (hshared : state'.shared = state.shared) (hclaimed : state'.sharedClaimed = state.sharedClaimed) :
    Shrinks mode state state' := by
  refine ⟨hall, fun _ hok => ⟨⟨?_, fun element' hmem => ?_⟩, fun element' hmem => ?_⟩, fun conn heq => ?_⟩
  · rw [hidle, hindex]
    exact hok.indexed.erase (hok.indexed.lookup_of_mem helement)
  · rw [hidle] at hmem
    exact hrest _ (hok.all element' (mem_of_mem_erase hmem)) (hok.value_ne helement hmem)
  · rw [hidle] at hmem
    exact mem_of_mem_erase hmem
  · rw [hshared] at heq
    rw [hclaimed]
    exact ⟨heq, fun h => h⟩

theorem Shrinks.removeConn (conn : T) (state : ConnPoolState T) :
    Shrinks mode state (state.removeConn mode conn) := by
  have hall : ∀ conn', conn' ∈ state.all.erase conn → conn' ∈ state.all := fun conn' hmem => (AList.mem_erase.1 hmem).2
  cases mode with
  | single =>
    unfold ConnPoolState.removeConn
    simp only
    split
    · exact ⟨hall, nofun, nofun⟩
    · exact ⟨hall, nofun, fun conn' heq => ⟨heq, fun h => h⟩⟩
  | ordered =>
    unfold ConnPoolState.removeConn
    simp only
    split
    · rename_i element hlookup
      refine ⟨hall, fun _ hok => ?_, fun conn' heq => ⟨heq, fun h => h⟩⟩
      cases hok.indexed.key_of_lookup hlookup
      have htake : Shrinks .ordered state { state with
          all := state.all.erase element.value
          idle := state.idle.erase element
          idleElements := state.idleElements.erase element.value } :=
        .takeIdle .ordered (hok.indexed.mem_of_lookup hlookup) rfl rfl hall
          (fun conn' hmem hne => AList.mem_erase.2 ⟨hne, hmem⟩) rfl rfl
      exact htake.idle rfl hok
    · rename_i hlookup
      refine ⟨hall, fun _ hok => ⟨⟨hok.indexed, fun element hmem => ?_⟩, fun element hmem => hmem⟩,
        fun conn' heq => ⟨heq, fun h => h⟩⟩
      exact AList.mem_erase.2 ⟨hok.indexed.key_ne hlookup hmem, hok.all element hmem⟩

theorem mem_removeConn {mode : ConnPoolMode} {conn' : T} :
    conn' ∈ (state.removeConn mode conn).all ↔ conn' ≠ conn ∧ conn' ∈ state.all := by
  have hall : (state.removeConn mode conn).all = state.all.erase conn := by
    unfold ConnPoolState.removeConn
    cases mode <;> simp only <;> split <;> rfl
  rw [hall, AList.mem_erase]

theorem Shrink.removeConn (p : ConnPool T) (current : Nat) (conn : T) (cause cause' : PoolError) :
    Shrink p ((p.removeConn current conn cause).toClose conn cause') := by
  refine (Shrink.toClose p conn cause').trans ?_
  have hremove : Shrink (p.toClose conn cause')
      ((p.toClose conn cause').modifyState current (ConnPoolState.removeConn p.mode conn)) := by
    refine .modifyState (Shrinks.removeConn _ _ _) fun _ conn' hmem => ?_
    by_cases heq : conn' = conn
    · subst heq
      exact .inr (p.gone_toClose conn' cause')
    · exact .inl (mem_removeConn.2 ⟨heq, hmem⟩)
  exact hremove.trans (.same (fun _ h => h) rfl rfl rfl rfl rfl rfl)

theorem Shrink.plain (call : Call T) (hhand : (p.calls k).hand = none) (hgot : call.got = none) (hnone : call.hand = none)
    (hwaiting : ∀ current c startDial, call = .waiting current c startDial → p.mode = .single) :
    Shrink p (p.setCall k call) := by
  refine .setCall (.of_got hgot) hnone (fun conn heq => ?_) hwaiting
  rw [hhand] at heq
  cases heq

theorem Inv.claimShared (h : p.Inv) (hmode : p.mode = .single)
    (hnone : (p.calls k).hand = none) (hstate : p.state = some current) (hshared : (p.states current).shared = some conn) :
    (p.claimShared k current conn).Inv := by
  have hlive := live_of_state hstate
  let p₁ := p.modifyState current fun state => { state with sharedClaimed := true }
  have hshrink : Shrink p p₁ := .keepsConns rfl rfl rfl rfl nofun
  refine (h.shrink hshrink).returns hnone (h.live_dialed _ hlive conn (.inr hshared))
    (fun h' hhand => (h.hand_live h' conn hhand _ hlive).2 hshared) (fun hordered => ?_) fun hcreated => ⟨fun k' => ?_, ?_⟩
  · cases hmode.symm.trans hordered
  · exact h.unclaimed _ hlive conn hshared (by simpa using hcreated) k'
  · intro state hlive' _
    rw [live_modifyState, if_pos hstate] at hlive'
    cases hlive'
    rfl

theorem Inv.acquireOrdered (h : p.Inv) (hmode : p.mode = .ordered) (hnone : (p.calls k).hand = none)
    (hstate : p.state = some current) (alive : Bool) : (p.acquireOrdered k current alive).Inv := by
  have hlive := live_of_state hstate
  have hok := h.idle hmode _ hlive
  unfold ConnPool.acquireOrdered
  split
  · rename_i element rest hidle
    have helement : element ∈ (p.states current).idle := hidle ▸ .head _
    simp only
    split
    · have hshrink : Shrink p (p.modifyState current fun state => { state with
          idle := state.idle.erase element, idleElements := state.idleElements.erase element.value }) :=
        .modifyState (.takeIdle _ helement rfl rfl (fun _ hmem => hmem) (fun _ hmem _ => hmem) rfl rfl)
          fun _ _ hmem => .inl hmem
      have hall := hok.all element helement
      refine (h.shrink hshrink).returns hnone (h.live_dialed _ hlive _ (.inl hall))
        (fun h' hhand => (h.hand_live h' _ hhand _ hlive).1 hall) (fun _ => ⟨?_, ?_⟩) nofun
      · exact h.free hmode _ hlive element helement
      · intro state hlive' element' hmem
        rw [live_modifyState, if_pos hstate] at hlive'
        cases hlive'
        exact hok.value_ne helement hmem
    · rw [modifyState_modifyState]
      -- the connection is closed, so that it may leave the pool
      have hdrop : Shrink (p.toClose element.value .errClosed)
          ((p.toClose element.value .errClosed).modifyState current fun state => { state with
            idle := state.idle.erase element
            idleElements := state.idleElements.erase element.value
            all := state.all.erase element.value }) := by
        refine .modifyState (.takeIdle _ helement rfl rfl (fun _ hmem => (AList.mem_erase.1 hmem).2)
          (fun _ hmem hne => AList.mem_erase.2 ⟨hne, hmem⟩) rfl rfl) fun _ conn hmem => ?_
        by_cases heq : conn = element.value
        · rw [heq]
          exact .inr (p.gone_toClose _ _)
        · exact .inl (AList.mem_erase.2 ⟨heq, hmem⟩)
      exact h.shrink ((Shrink.toClose p _ _).trans hdrop)
  · exact h.shrink (.plain _ hnone rfl rfl nofun)

theorem Shrink.newConnect (hunused : p.Unused) (current : Nat) :
    Shrink p { p with
      connects := Function.update p.connects p.nextConnect { current }, nextConnect := p.nextConnect + 1 } := by
  refine .emptied (.inr p.nextConnect) ⟨rfl, fun _ => .refl _, fun _ _ _ _ hcall => .inl hcall, fun _ c hc => ?_,
    fun _ hgone => hgone⟩ ?_ (fun _ => hand_modifyConnect_of_ne (f := fun _ => { current })) (fun conn hconn => ?_) rfl rfl
  · have hne : c ≠ p.nextConnect := ne_of_gt hc
    simpa [hne] using hunused c (Nat.le_of_succ_le hc)
  · simp [ConnPool.hand, Connecting.hand]
  · cases (hunused _ le_rfl).symm.trans (hand_inr.1 hconn)

section

variable (h : p.Inv)

include h

theorem Inv.acquireShared (hmode : p.mode = .single) (hnone : (p.calls k).hand = none)
    (hstate : p.state = some current) (alive : Bool) : (p.acquireShared k current alive).Inv := by
  unfold ConnPool.acquireShared
  split
  · rename_i conn hshared
    split
    · exact h.claimShared hmode hnone hstate hshared
    · exact h.shrink (.removeConn p current conn _ _)
  · split
    · exact h.shrink (.plain _ hnone rfl rfl fun _ _ _ _ => hmode)
    · have hstart : Shrink p (p.modifyState current fun state => { state with connecting := some p.nextConnect }) :=
        .keepsConns rfl rfl rfl rfl fun h => h
      exact h.shrink ((hstart.trans (.newConnect (hstart.unused h.unused) current)).trans
        (.plain _ hnone rfl rfl fun _ _ _ _ => hmode))

theorem Inv.look (hnone : (p.calls k).hand = none) (alive : Bool) : (p.look k alive).Inv := by
  unfold ConnPool.look
  split
  · exact h.shrink (.plain _ hnone rfl rfl nofun)
  · rename_i current hstate hmode
    exact h.acquireOrdered hmode hnone hstate alive
  · rename_i current hstate hmode
    exact h.acquireShared hmode hnone hstate alive

theorem Inv.acquireSlot (hnone : (p.calls k).hand = none) {err : Option PoolError}
    (hstep : p.acquireSlot k current err = some p') : p'.Inv := by
  unfold ConnPool.acquireSlot at hstep
  split at hstep
  · split at hstep
    · cases hstep
    · cases hstep
      exact h.shrink ((Shrink.plain (.dialing current) hnone rfl rfl nofun).trans (.same (fun _ h => h) rfl rfl rfl rfl rfl rfl))
  · split at hstep
    · cases hstep
      exact h.shrink (.plain _ hnone rfl rfl nofun)
    · cases hstep

attribute [local simp] Call.hand setCall

theorem Inv.dialOrdered (hnone : (p.calls k).hand = none)
    {cause : Option PoolError} (hnew : ∀ conn, result = .ok conn → conn ∉ p.dialed) :
    (p.dialOrdered k current result cause).Inv := by
  have hfail : ∀ err, Shrink p { p.setCall k (.failed err) with inflight := p.inflight - 1 } := fun err =>
    (Shrink.plain (.failed err) hnone rfl rfl nofun).trans (.same (fun _ h => h) rfl rfl rfl rfl rfl rfl)
  unfold ConnPool.dialOrdered
  split
  · exact h.shrink (hfail _)
  · exact h.shrink (hfail _)
  · exact (h.shrink (hfail _)).dialDiscard _
  · rename_i conn _
    have hframe : Frame p (p.setCall k (.dialed current conn)) := .setCall (.of_got rfl) nofun
    have hself : (p.setCall k (.dialed current conn)).hand (.inl k) = some conn := by simp [hand]
    have hempty : p.hand (.inl k) = none := hnone
    exact h.dial ⟨rfl, hframe.calls, hframe.waiting, fun h => h, fun _ h => h⟩ (hnew conn rfl) rfl hempty hself
      (fun h' hne => hand_setCall_of_ne hne) rfl

theorem Inv.installOrdered (hcall : p.calls k = .dialed current conn) : (p.installOrdered k current conn).Inv := by
  have hhand : p.hand (.inl k) = some conn := by simp [hand, hcall]
  unfold ConnPool.installOrdered
  simp only
  split
  · rename_i hstate
    -- the connection is in the pool before it is returned
    let insert : ConnPoolState T → ConnPoolState T := fun state => { state with all := state.all.insert conn () }
    let p₁ := ({ p with inflight := p.inflight - 1 } : ConnPool T).modifyState current insert
    have hlive₁ : p₁.live = some (insert (p.states current)) := by
      rw [live_modifyState, if_pos hstate]
    have hframe : Frame p₁ (p₁.setCall k .looking) := .setCall (.of_got rfl) nofun
    have hinv : (p₁.setCall k .looking).Inv := by
      refine h.pool ⟨rfl, hframe.calls, hframe.waiting, fun h => h, fun _ h => h⟩ hhand rfl ?_
        (fun h' hne => hand_setCall_of_ne hne) (live_of_state hstate) hlive₁ (fun conn' => ?_) rfl rfl
        fun conn' heq => .inr ⟨heq, rfl⟩
      · simp [hand]
      · exact AList.mem_insert _
    have hnew : ∀ k', ((p₁.setCall k .looking).calls k').got ≠ some conn := fun k' hgot =>
      h.hand_got _ conn hhand k' ((hframe.calls k').got conn hgot)
    have hreturn : ((p₁.setCall k .looking).setCall k (.returned conn none true)).Inv := by
      refine hinv.returns (by simp) (h.hand_dialed _ conn hhand) (fun h' heq => ?_)
        (fun hmode => ⟨fun k' heq => hnew k' (Call.got_of_held heq), fun state hlive element helement heq => ?_⟩)
        fun _ => ⟨fun k' heq => hnew k' (Call.got_of_created heq), fun state hlive hshared => ?_⟩
      · by_cases hne : h' = .inl k
        · subst hne
          simp [hand] at heq
        · rw [hand_setCall_of_ne hne] at heq
          exact hne (h.hand_unique _ _ _ heq hhand)
      · cases hlive₁.symm.trans hlive
        have hall := (h.idle hmode _ (live_of_state hstate)).all element helement
        exact (h.hand_live _ conn hhand _ (live_of_state hstate)).1 (heq ▸ hall)
      · cases hlive₁.symm.trans hlive
        exact absurd hshared (h.hand_live _ conn hhand _ (live_of_state hstate)).2
    simpa only [setCall, update_idem] using hreturn
  · have hdiscard : Shrink (p.discard conn .errClosed) ((p.discard conn .errClosed).setCall k (.failed .errClosed)) := by
      refine .setCall (.of_got rfl) rfl (fun conn' heq => ?_) nofun
      rw [show ((p.discard conn .errClosed).calls k) = .dialed current conn from hcall] at heq
      cases heq
      exact p.gone_discard conn _
    exact h.shrink (((Shrink.discard p conn _).trans hdiscard).trans (.same (fun _ h => h) rfl rfl rfl rfl rfl rfl))

theorem Inv.dialSingle (hphase : (p.connects c).phase = .dialing)
    {cause : Option PoolError} (hnew : ∀ conn, result = .ok conn → conn ∉ p.dialed) :
    (p.dialSingle c result cause).Inv := by
  have hfinished : ∀ result : Except PoolError T, (p.connects c).phase = .finished →
      Connecting.dialed result = .finished := by
    intro result heq
    rw [hphase] at heq
    cases heq
  have hfail : ∀ err, Shrink p (p.modifyConnect c fun it => { it with phase := .dialed (.error err) }) := by
    intro err
    refine .modifyConnect nofun (hfinished _) fun conn heq => ?_
    rw [hphase] at heq
    cases heq
  unfold ConnPool.dialSingle
  split
  · exact h.shrink (hfail _)
  · exact h.shrink (hfail _)
  · exact (h.shrink (hfail _)).dialDiscard _
  · rename_i conn _
    let put : ConnPoolConnect T → ConnPoolConnect T := fun it => { it with phase := .dialed (.ok conn) }
    have hframe : Frame p (p.modifyConnect c put) := .modifyConnect (hfinished _)
    have hself : (p.modifyConnect c put).hand (.inr c) = some conn := by
      rw [hand_inr]
      simp [modifyConnect, put]
    have hempty : p.hand (.inr c) = none := by
      change (p.connects c).phase.hand = none
      rw [hphase]
      rfl
    have hothers : ∀ h', h' ≠ .inr c → (p.modifyConnect c put).hand h' = p.hand h' := fun h' hne =>
      hand_modifyConnect_of_ne hne
    exact h.dial ⟨rfl, hframe.calls, hframe.waiting, hframe.unused, fun _ h => h⟩ (hnew conn rfl) rfl hempty hself
      hothers rfl

/-- The connection of `connectSingle` becomes the shared one. -/
theorem Inv.share (hphase : (p.connects c).phase = .dialed (.ok conn))
    (hstate : p.state = some current) (sharedCtx : Option Nat) :
    ((p.modifyState current fun state => { state with
      shared := some conn, sharedCtx, all := state.all.insert conn () }).modifyConnect c
        fun it => { it with phase := .finished }).Inv := by
  let finish : ConnPoolConnect T → ConnPoolConnect T := fun it => { it with phase := .finished }
  let put : ConnPoolState T → ConnPoolState T := fun state =>
    { state with shared := some conn, sharedCtx, all := state.all.insert conn () }
  have hframe : Frame (p.modifyState current put) ((p.modifyState current put).modifyConnect c finish) :=
    .modifyConnect fun _ => rfl
  have hlive : ((p.modifyState current put).modifyConnect c finish).live = some (put (p.states current)) := by
    change (p.modifyState current put).live = _
    rw [live_modifyState, if_pos hstate]
  have hhand : p.hand (.inr c) = some conn := hand_inr.2 hphase
  refine h.pool ⟨rfl, hframe.calls, hframe.waiting, hframe.unused, hframe.gone⟩ hhand rfl ?_
    (fun h' hne => hand_modifyConnect_of_ne hne) (live_of_state hstate) hlive (fun conn' => AList.mem_insert _) rfl rfl
    fun conn' heq => .inl (Option.some.inj heq).symm
  change (update p.connects c (finish (p.connects c)) c).phase.hand = none
  rw [update_self]
  rfl

theorem Inv.connectSingle (hphase : (p.connects c).phase = .dialed result) : (p.connectSingle c result).Inv := by
  -- the state does not refer to the call any more
  let clear : ConnPoolState T → ConnPoolState T := fun state => { state with connecting := none }
  have hclear : Shrink p (p.modifyState (p.connects c).current clear) :=
    .keepsConns rfl rfl rfl rfl fun h => h
  have hinv := h.shrink hclear
  unfold ConnPool.connectSingle
  simp only
  split
  · refine hinv.shrink (.modifyConnect nofun (fun _ => rfl) fun conn heq => ?_)
    cases hphase.symm.trans heq
  · rename_i conn
    split
    · rename_i hstate
      exact (hinv.share hphase hstate _).shrink (.same (fun _ h => h) rfl rfl rfl rfl rfl rfl)
    · let p₁ := (p.modifyState (p.connects c).current clear).discard conn .errClosed
      have hdiscard : Shrink p₁ (p₁.modifyConnect c fun it => { it with phase := .finished, err := some .errClosed }) := by
        refine .modifyConnect nofun (fun _ => rfl) fun conn' heq => ?_
        cases hphase.symm.trans heq
        exact gone_discard _ conn _
      exact hinv.shrink ((Shrink.discard _ conn _).trans hdiscard)

theorem Inv.collectShared {startDial : Bool} (hcall : p.calls k = .waiting current c startDial) (alive : Bool) :
    (p.collectShared k current c startDial alive).Inv := by
  have hmode := h.waiting k current c startDial hcall
  have hnone : (p.calls k).hand = none := by
    rw [hcall]
    rfl
  unfold ConnPool.collectShared
  split
  · split
    · exact h.shrink (.plain _ hnone rfl rfl nofun)
    · exact h.shrink (.plain _ hnone rfl rfl nofun)
  · split
    · rename_i hstate
      split
      · exact h.shrink (.plain _ hnone rfl rfl nofun)
      · rename_i conn hshared
        split
        · exact h.claimShared hmode hnone hstate hshared
        · exact h.shrink ((Shrink.removeConn p current conn _ _).trans (.plain _ hnone rfl rfl nofun))
    · exact h.shrink (.plain _ hnone rfl rfl nofun)

theorem Inv.release {connCtx : Option Nat} {created : Bool}
    (hcall : p.calls k = .returned conn connCtx created) (reuse alive : Bool) :
    ((p.setCall k (.released conn created)).release conn reuse alive).Inv := by
  have hback : Shrink p (p.setCall k (.released conn created)) := by
    refine .setCall ⟨nofun, fun conn' heq => ?_, fun conn' heq => ?_⟩ rfl (fun conn' heq => ?_) nofun
    · rw [hcall]
      exact heq
    · rw [hcall]
      cases created with
      | true => exact heq
      | false => cases heq
    · rw [hcall] at heq
      cases heq
  have hinv := h.shrink hback
  unfold ConnPool.release
  split
  · exact hinv.shrink (.toClose _ _ _)
  · rename_i current hstate
    split
    · exact hinv.shrink (.toClose _ _ _)
    · rename_i hall
      split
      · exact hinv.shrink (.removeConn _ _ _ _ _)
      · split
        · rename_i hidle
          refine (hinv.pushBack hstate (not_not.1 hall) hidle.2 (fun k' hheld => ?_) _).shrink
            (.same (fun _ h => h) rfl rfl rfl rfl rfl rfl)
          -- no other call has the connection
          rcases setCall_cases hheld with ⟨-, heq⟩ | hold
          · cases heq
          · have hself : (p.calls k).held = some conn := by
              rw [hcall]
              rfl
            cases h.held_unique hidle.1 k' k conn hold hself
            simp [Call.held] at hheld
        · exact hinv

theorem Inv.invalidate (conn : T) (cause : PoolError) : (p.invalidate conn cause).Inv := by
  unfold ConnPool.invalidate
  split
  · exact h.shrink (.toClose _ _ _)
  · split
    · exact h
    · exact h.shrink (.removeConn _ _ _ _ _)

end

/-- The pool is left without connections, which are all closed. -/
theorem Shrink.closeState {state : Option Nat} {states : Nat → ConnPoolState T} {nextState : Nat}
    (hstate : p.state = some current) (hempty : ∀ st, state = some st → states st = {}) :
    Shrink p { p.closeState current with state, states, nextState } where
  mode := rfl
  dialed := rfl
  calls _ := .refl _
  waiting _ _ _ _ hcall := .inl hcall
  hand _ _ hconn := hconn
  live state' hlive' := by
    refine ⟨_, live_of_state hstate, ?_⟩
    obtain ⟨st, hst, heq⟩ := Option.map_eq_some_iff.1 hlive'
    cases heq.symm.trans (hempty st hst)
    exact ⟨nofun, fun _ _ => ⟨⟨.empty _, nofun⟩, nofun⟩, nofun⟩
  unused hunused := hunused
  gone _ hgone := gone_append hgone
  hand_kept _ _ hconn := .inl hconn
  pooled_kept conn hpooled := by
    obtain ⟨state', hlive, hmem⟩ := hpooled
    cases (live_of_state hstate).symm.trans hlive
    refine .inr (.inl ?_)
    simp only [ConnPool.closeState, map_append, mem_append, map_map]
    exact .inr (mem_map.2 ⟨conn, AList.mem_keys.1 hmem, rfl⟩)

theorem Inv.reset (h : p.Inv) : p.reset.Inv := by
  unfold ConnPool.reset
  split
  · exact h
  · rename_i current hstate
    refine h.shrink (.closeState hstate fun st heq => ?_)
    cases heq
    exact update_self ..

theorem Inv.close (h : p.Inv) : p.close.Inv := by
  unfold ConnPool.close
  split
  · exact h
  · rename_i current hstate
    exact h.shrink (.closeState hstate nofun)

/-! ## Runs -/

theorem Inv.step (h : p.Inv) {op : PoolOp T} (hop : p.Possible op) (hstep : p.step op = some p') : p'.Inv := by
  cases stepped hstep with
  | acquire hcall | cancelled hcall err => exact h.shrink (.plain _ (by rw [hcall]; rfl) rfl rfl nofun)
  | acquireShared hcall | replaced hcall =>
    have hnone := congrArg Call.hand hcall
    split
    · exact h.shrink (.plain _ hnone rfl rfl nofun)
    · exact h.shrink (.plain _ hnone rfl rfl nofun)
  | look hcall alive => exact h.look (by rw [hcall]; rfl) alive
  | slot hcall hslot => exact h.acquireSlot (by rw [hcall]; rfl) hslot
  | dialOrdered hcall result cause =>
    refine h.dialOrdered (by rw [hcall]; rfl) ?_
    rintro conn rfl
    exact hop
  | install hcall => exact h.installOrdered hcall
  | dialSingle hphase result cause =>
    refine h.dialSingle hphase ?_
    rintro conn rfl
    exact hop
  | connect hphase => exact h.connectSingle hphase
  | done hphase =>
    refine h.shrink (.modifyConnect (fun conn heq => ?_) (fun heq => heq) fun conn heq => ?_)
    · cases hphase.symm.trans heq
    · cases hphase.symm.trans heq
  | collect hcall alive => exact h.collectShared hcall alive
  | release hcall reuse alive => exact h.release hcall reuse alive
  | invalidate conn cause => exact h.invalidate conn cause
  | reset => exact h.reset
  | close => exact h.close
  | cancelState => exact h.shrink (.keepsConns rfl rfl rfl rfl fun h => h)
  | pass entry => exact h.shrink (.same (fun conn hgone => gone_pass entry hgone) rfl rfl rfl rfl rfl rfl)

theorem inv_init (maxInflight : Int) : ({ mode, maxInflight } : ConnPool T).Inv := by
  have hhand : ∀ (h : Nat ⊕ Nat) conn, ({ mode, maxInflight } : ConnPool T).hand h ≠ some conn := by
    rintro (k | c) conn ⟨⟩
  refine ⟨fun h _ conn heq => absurd heq (hhand h conn), fun h conn heq => absurd heq (hhand h conn),
    fun h conn heq => absurd heq (hhand h conn), fun h conn heq => absurd heq (hhand h conn),
    nofun, fun state heq conn hconn => ?_, fun _ state heq => ?_, fun _ state heq element hmem => ?_,
    nofun, nofun, nofun, nofun, fun _ _ => rfl, nofun⟩
  · cases heq
    rcases hconn with hmem | heq
    · cases hmem
    · cases heq
  · cases heq
    exact ⟨.empty _, nofun⟩
  · cases heq
    cases hmem

theorem Inv.of_reach (h : Reach (system T) (fun p op => p.Possible op) p) : p.Inv := by
  refine h.inv Inv ?_ fun p op p' hinv hop hstep => hinv.step hop hstep
  rintro _ ⟨mode, maxInflight, rfl⟩
  exact inv_init mode maxInflight

/-! ## After `Close` -/

theorem inert_of_closed (hstate : p.state = none) {op : PoolOp T} (hstep : p.step op = some p') : Inert p p' := by
  have hcurrent : ∀ current, p.state ≠ some current := fun current heq => by
    rw [hstate] at heq
    cases heq
  cases stepped hstep with
  | acquire hcall | cancelled hcall err => exact .setCall _ rfl
  | acquireShared hcall =>
    split
    · exact .setCall _ rfl
    · exact .setCall _ rfl
  | look hcall alive =>
    simp only [look, hstate]
    exact .setCall _ rfl
  | slot hcall hslot =>
    unfold acquireSlot at hslot
    split at hslot
    · split at hslot <;> cases hslot
      exact (Inert.setCall _ rfl).trans .of_eq
    · split at hslot <;> cases hslot
      exact .setCall _ rfl
  | dialOrdered hcall result cause =>
    unfold dialOrdered
    split <;> exact (Inert.setCall _ rfl).trans .of_eq
  | install hcall =>
    unfold installOrdered
    rw [if_neg (hcurrent _)]
    exact (Inert.of_eq).trans ((Inert.setCall _ rfl).trans .of_eq)
  | dialSingle hphase result cause =>
    unfold dialSingle
    split <;> exact .of_eq
  | @connect c _ hphase =>
    have hclear : Inert p (p.modifyState (p.connects c).current fun state => { state with connecting := none }) :=
      .modifyState _ fun _ => ⟨rfl, rfl, rfl⟩
    unfold connectSingle
    simp only
    split
    · exact hclear.trans .of_eq
    · split
      · rename_i heq
        exact absurd heq (hcurrent _)
      · exact hclear.trans .of_eq
  | done hphase => exact .of_eq
  | collect hcall alive =>
    unfold collectShared
    split
    · split
      · exact .setCall _ rfl
      · exact .setCall _ rfl
    · rw [if_neg (hcurrent _)]
      exact .setCall _ rfl
  | replaced hcall =>
    rw [if_pos hstate]
    exact .setCall _ rfl
  | @release k _ _ _ hcall reuse alive =>
    unfold release
    simp only [show (p.setCall k _).state = none from hstate]
    exact (Inert.setCall _ rfl).trans .of_eq
  | invalidate | reset | close =>
    simp only [ConnPool.invalidate, ConnPool.reset, ConnPool.close, hstate]
    exact .of_eq
  | cancelState current => exact .modifyState _ fun _ => ⟨rfl, rfl, rfl⟩
  | pass entry => exact .of_eq

/-- In any interleaving: an ordered connection has one holder, and none while it is
idle; a shared one is reported to be new once; a dialed one is in the pool, with its
dialing call, or has been or is about to be closed; and a closed pool neither returns
nor takes connections. -/
theorem connections_kept (h : Reach (system T) (fun p op => p.Possible op) p) :
    (p.mode = .ordered →
      (∀ k k' conn, (p.calls k).held = some conn → (p.calls k').held = some conn → k = k') ∧
      ∀ state, p.live = some state →
        IdleOk state ∧ ∀ element ∈ state.idle, ∀ k, (p.calls k).held ≠ some element.value) ∧
    (p.mode = .single →
      ∀ k k' conn, (p.calls k).created = some conn → (p.calls k').created = some conn → k = k') ∧
    (∀ conn ∈ p.dialed, p.Pooled conn ∨ (∃ h, p.hand h = some conn) ∨ conn ∈ p.passed.map Prod.fst ∨
      conn ∈ p.closing.map Prod.fst) ∧
    (∀ entry ∈ p.closing, ∃ p', p.step (.pass entry) = some p' ∧ entry ∈ p'.passed) ∧
    (p.state = none → ∀ op p', p.step op = some p' → Inert p p') := by
  have hinv := Inv.of_reach h
  refine ⟨fun hmode => ⟨hinv.held_unique hmode, fun state hlive => ⟨hinv.idle hmode state hlive, hinv.free hmode state hlive⟩⟩,
    fun _ => hinv.created_unique, fun conn hconn => ?_, fun entry hentry => ?_, fun hstate op p' => inert_of_closed hstate⟩
  · rcases hinv.kept conn hconn with hpooled | hhand | hclosing | hpassed
    · exact .inl hpooled
    · exact .inr (.inl hhand)
    · exact .inr (.inr (.inr hclosing))
    · exact .inr (.inr (.inl hpassed))
  · exact ⟨_, if_pos hentry, mem_append.2 (.inr (.head _))⟩

/-- The pool of a mode, after some steps that can be taken. -/
def run (mode : ConnPoolMode) (ops : List (PoolOp Nat)) : ConnPool Nat :=
  ops.foldl (fun p op => (p.step op).getD p) { mode, maxInflight := 1 }

/-- A connection is dialed, returned, given back and returned again. -/
def orderedOps : List (PoolOp Nat) :=
  [.acquire 0, .look 0 true, .slot 0 none, .dialOrdered 0 (.ok 7) none, .install 0, .release 0 true true,
    .acquire 1, .look 1 true]

/-- Two calls wait for one dial, and the pool is reset after it. -/
def singleOps : List (PoolOp Nat) :=
  [.acquire 0, .look 0 true, .acquireShared 1, .look 1 true, .dialSingle 0 (.ok 7) none, .connect 0, .done 0,
    .collect 1 true, .collect 0 true, .reset]

theorem connections_kept_sample :
    ((run .ordered orderedOps).calls 1).held = some 7 ∧
    (∀ k, ((run .ordered orderedOps).calls k).held = some 7 → k = 1) ∧
    ((run .single singleOps).calls 1).created = some 7 ∧
    (∀ k, ((run .single singleOps).calls k).created = some 7 → k = 1) ∧
    (7, PoolError.errClosed) ∈ (run .single singleOps).closing := by
  have hinit : ∀ mode, Reach (system Nat) (fun p op => p.Possible op) { mode, maxInflight := 1 } := fun mode =>
    .init ⟨mode, 1, rfl⟩
  have hordered : Reach (system Nat) (fun p op => p.Possible op) (run .ordered orderedOps) :=
    (hinit .ordered).foldl_getD orderedOps
      ⟨⟨trivial, rfl⟩, ⟨trivial, rfl⟩, ⟨trivial, rfl⟩, ⟨not_mem_nil, rfl⟩, ⟨trivial, rfl⟩, ⟨trivial, rfl⟩,
        ⟨trivial, rfl⟩, ⟨trivial, rfl⟩, trivial⟩
  have hsingle : Reach (system Nat) (fun p op => p.Possible op) (run .single singleOps) :=
    (hinit .single).foldl_getD singleOps
      ⟨⟨trivial, rfl⟩, ⟨trivial, rfl⟩, ⟨trivial, rfl⟩, ⟨trivial, rfl⟩, ⟨not_mem_nil, rfl⟩, ⟨trivial, rfl⟩,
        ⟨trivial, rfl⟩, ⟨trivial, rfl⟩, ⟨trivial, rfl⟩, ⟨trivial, rfl⟩, trivial⟩
  refine ⟨rfl, fun k hk => ?_, rfl, fun k hk => ?_, .head _⟩
  · exact ((connections_kept hordered).1 rfl).1 k 1 7 hk rfl
  · exact (connections_kept hsingle).2.1 rfl k 1 7 hk rfl

/-! ## Slots -/

/-- The call has taken a slot and not freed it. -/
def dials : Call T → Bool
  | .dialing _ | .dialed _ _ => true
  | _ => false

/-- The slots in use are those of the calls that dial, and no more than there are. -/
structure Slots (p : ConnPool T) : Prop where
  calls : ∃ l : List Nat, l.Nodup ∧ (∀ k, k ∈ l ↔ dials (p.calls k) = true) ∧ l.length = p.inflight
  bound : 0 < p.maxInflight → p.inflight ≤ p.maxInflight

omit [DecidableEq T] in
theorem Slots.same (h : p.Slots) (hcalls : p'.calls = p.calls := by rfl)
    (hmax : p'.maxInflight = p.maxInflight := by rfl) (hinflight : p'.inflight = p.inflight := by rfl) : p'.Slots :=
  ⟨hcalls ▸ hinflight ▸ h.calls, hmax ▸ hinflight ▸ h.bound⟩

omit [DecidableEq T] in
theorem Slots.goes (h : p.Slots) {call call' : Call T} (hcall : p.calls k = call)
    (hcalls : p'.calls = update p.calls k call' := by rfl) (hmax : p'.maxInflight = p.maxInflight := by rfl)
    (hinflight : p'.inflight = p.inflight + (dials call').toNat - (dials call).toNat := by rfl)
    (hbound : (dials call').toNat ≤ (dials call).toNat ∨ (0 < p.maxInflight → p.inflight < p.maxInflight) := by
      first | exact .inl (Nat.zero_le _) | exact .inl le_rfl) : p'.Slots := by
  subst hcall
  obtain ⟨⟨l, hnodup, hmem, hlength⟩, hmaxInflight⟩ := h
  refine ⟨?_, by have := Bool.toNat_le (dials call'); omega⟩
  have hk := hmem k
  simp only [hcalls, update_apply, hinflight, ← hlength]
  cases hd : dials (p.calls k) <;> cases hd' : dials call' <;> simp only [hd, Bool.false_eq_true, iff_false, iff_true] at hk
  · exact ⟨l, hnodup, by grind, rfl⟩
  · exact ⟨k :: l, nodup_cons.2 ⟨hk, hnodup⟩, by grind, by simp⟩
  · exact ⟨l.erase k, hnodup.erase k, by grind, by simp [length_erase_of_mem hk]⟩
  · exact ⟨l, hnodup, by grind, by simp⟩

theorem Slots.step (h : p.Slots) {op : PoolOp T} (hstep : p.step op = some p') : p'.Slots := by
  cases stepped hstep with
  | acquire hcall | cancelled hcall err => exact h.goes hcall
  | acquireShared hcall | replaced hcall => split <;> exact h.goes hcall
  | look hcall alive =>
    unfold look acquireOrdered acquireShared
    (repeat' (first | split | dsimp only)) <;> first | exact h.same | exact h.goes hcall
  | slot hcall hslot =>
    unfold acquireSlot at hslot
    (repeat' split at hslot) <;> cases hslot
    · exact h.goes hcall rfl rfl rfl (.inr (by omega))
    · exact h.goes hcall
  | dialOrdered hcall result cause =>
    unfold dialOrdered
    split <;> exact h.goes hcall
  | install hcall =>
    unfold installOrdered
    dsimp only
    split <;> exact h.goes hcall
  | dialSingle hphase result cause =>
    unfold dialSingle
    split <;> exact h.same
  | connect hphase =>
    unfold connectSingle
    dsimp only
    (repeat' split) <;> exact h.same
  | collect hcall alive =>
    unfold collectShared
    (repeat' split) <;> exact h.goes hcall
  | release hcall reuse alive =>
    unfold release
    (repeat' split) <;> exact h.goes hcall
  | invalidate | reset | close =>
    simp only [invalidate, reset, close]
    (repeat' split) <;> exact h.same
  | done | cancelState | pass => exact h.same

/-- In any interleaving as many slots are in use as calls dial, so that none is lost, and
no more than `maxInflight` calls dial at a time. -/
theorem slots_of_reach (h : Reach (system T) (fun _ _ => True) p) : p.Slots := by
  refine h.inv Slots ?_ fun p op p' hp _ hstep => hp.step hstep
  rintro _ ⟨mode, maxInflight, rfl⟩
  exact ⟨⟨[], nodup_nil, by simp [dials], rfl⟩, Int.le_of_lt⟩

theorem slots_of_reach_dialing : (run .ordered [.acquire 0, .look 0 true, .slot 0 none]).Slots := by
  have hinit : Reach (system Nat) (fun _ _ => True) { mode := .ordered, maxInflight := 1 } := .init ⟨_, _, rfl⟩
  exact slots_of_reach (hinit.foldl_getD _ ⟨⟨trivial, rfl⟩, ⟨trivial, rfl⟩, ⟨trivial, rfl⟩, trivial⟩)

end ConnPool

end Singlink.Dns
