import Singlink.Dns.ConnPool
/-!
# Where the connections of the pool are

A connection that was dialed is with a dialing call, in the pool, or closed; those of
the pool may be idle, shared or with callers. What steps do to this is said once for
each kind of step: connections are taken out, a dial returns one, it is put into the
pool, returned to a caller, or becomes idle.
-/

namespace Singlink.Dns

open Lib Function List Option ConnPool

variable {T : Type}

/-- The connection of a call of `connectSingle`. -/
def Connecting.hand : Connecting T → Option T
  | .dialed (.ok conn) => some conn
  | _ => none

namespace Call

def hand : Call T → Option T
  | .dialed _ conn => some conn
  | _ => none

/-- The connection that the call returned and the caller has not given back. -/
def held : Call T → Option T
  | .returned conn _ _ => some conn
  | _ => none

def got : Call T → Option T
  | .returned conn _ _ | .released conn _ => some conn
  | _ => none

/-- The connection that the call reported to be new. -/
def created : Call T → Option T
  | .returned conn _ true | .released conn true => some conn
  | _ => none

theorem got_of_held {call : Call T} {conn : T} (h : call.held = some conn) : call.got = some conn := by
  cases call <;> first | exact h | cases h

theorem got_of_created {call : Call T} {conn : T} (h : call.created = some conn) : call.got = some conn := by
  cases call with
  | returned conn' ctx created | released conn' created =>
    cases created with
    | true => exact h
    | false => cases h
  | unused | looking | slot | dialing | dialed | waiting | failed => cases h

end Call

namespace ConnPool

/-- The connections of dialing calls, of `dialAndInstall` and of `connectSingle`. -/
def hand (p : ConnPool T) : Nat ⊕ Nat → Option T
  | .inl k => (p.calls k).hand
  | .inr c => (p.connects c).phase.hand

def live (p : ConnPool T) : Option (ConnPoolState T) := p.state.map p.states

def Pooled (p : ConnPool T) (conn : T) : Prop := ∃ state, p.live = some state ∧ conn ∈ state.all

/-- The calls of `connectSingle` that have not been made do nothing. -/
def Unused (p : ConnPool T) : Prop := ∀ c, p.nextConnect ≤ c → (p.connects c).phase = .finished

/-- The connection has been or is about to be passed to the close function. -/
def Gone (p : ConnPool T) (conn : T) : Prop := conn ∈ p.closing.map Prod.fst ∨ conn ∈ p.passed.map Prod.fst

variable {p p' p'' : ConnPool T}

theorem live_modifyState (p : ConnPool T) (current : Nat) (f : ConnPoolState T → ConnPoolState T) :
    (p.modifyState current f).live = if p.state = some current then some (f (p.states current)) else p.live := by
  unfold live modifyState
  cases hstate : p.state with
  | none => rfl
  | some current' =>
    by_cases heq : current' = current
    · subst heq
      simp
    · simp [heq]

variable {c k : Nat} {f : ConnPoolConnect T → ConnPoolConnect T} {current : Nat} {conn : T}

attribute [local simp] ConnPool.hand ConnPool.modifyConnect ConnPool.setCall Connecting.hand

theorem hand_inr : p.hand (.inr c) = some conn ↔ (p.connects c).phase = .dialed (.ok conn) := by
  change (p.connects c).phase.hand = some conn ↔ _
  cases (p.connects c).phase with
  | dialing => simp
  | dialed result => cases result <;> simp
  | finished => simp

variable {call : Call T}

theorem setCall_cases {k' : Nat} {f : Call T → Option T}
    (h : f ((p.setCall k call).calls k') = some conn) : k' = k ∧ f call = some conn ∨ f (p.calls k') = some conn := by
  by_cases heq : k' = k
  · subst heq
    simp only [setCall, update_self] at h
    exact .inl ⟨rfl, h⟩
  · simp only [setCall, update_of_ne heq] at h
    exact .inr h

theorem modifyState_modifyState (p : ConnPool T) (current : Nat) (f g : ConnPoolState T → ConnPoolState T) :
    (p.modifyState current f).modifyState current g = p.modifyState current fun state => g (f state) := by
  simp [modifyState]

theorem live_of_state (h : p.state = some current) : p.live = some (p.states current) := by
  rw [live, h]
  rfl

theorem gone_append {entries : List (T × PoolError)} (h : p.Gone conn) :
    ({ p with closing := p.closing ++ entries } : ConnPool T).Gone conn := by
  unfold Gone at h ⊢
  simp only [map_append, mem_append]
  exact h.imp_left .inl

theorem gone_pass [DecidableEq T] (entry : T × PoolError) (h : p.Gone conn) :
    ({ p with closing := p.closing.erase entry, passed := p.passed ++ [entry] } : ConnPool T).Gone conn := by
  rcases h with hclosing | hpassed
  · obtain ⟨entry', hmem, rfl⟩ := mem_map.1 hclosing
    by_cases heq : entry' = entry
    · subst heq
      right
      simp
    · left
      exact mem_map.2 ⟨entry', (mem_erase_of_ne heq).2 hmem, rfl⟩
  · right
    rw [map_append, mem_append]
    exact .inl hpassed

theorem gone_toClose (p : ConnPool T) (conn : T) (cause : PoolError) : (p.toClose conn cause).Gone conn := by
  simp [Gone, toClose]

theorem gone_discard (p : ConnPool T) (conn : T) (cause : PoolError) : (p.discard conn cause).Gone conn := by
  simp [Gone, discard]

/-- A call has become of another that has no more connections. -/
structure Weaker (call call' : Call T) : Prop where
  held : ∀ conn, call'.held = some conn → call.held = some conn
  got : ∀ conn, call'.got = some conn → call.got = some conn
  created : ∀ conn, call'.created = some conn → call.created = some conn

theorem Weaker.refl (call : Call T) : Weaker call call := ⟨fun _ h => h, fun _ h => h, fun _ h => h⟩

theorem Weaker.of_got {call call' : Call T} (h : call'.got = none) : Weaker call call' := by
  refine ⟨fun conn hheld => ?_, fun conn hgot => ?_, fun conn hcreated => ?_⟩
  · rw [Call.got_of_held hheld] at h
    cases h
  · rw [hgot] at h
    cases h
  · rw [Call.got_of_created hcreated] at h
    cases h

/-- No call has more connections than before, but for those of dialing calls. -/
structure Frame (p p' : ConnPool T) : Prop where
  mode : p'.mode = p.mode
  calls : ∀ k, Weaker (p.calls k) (p'.calls k)
  waiting : ∀ k current c startDial, p'.calls k = .waiting current c startDial →
    p.calls k = .waiting current c startDial ∨ p.mode = .single
  unused : p.Unused → p'.Unused
  gone : ∀ conn, p.Gone conn → p'.Gone conn

theorem Frame.setCall (hweaker : Weaker (p.calls k) call)
    (hwaiting : ∀ current c startDial, call = .waiting current c startDial → p.mode = .single) :
    Frame p (p.setCall k call) where
  mode := rfl
  calls k' := by
    by_cases heq : k' = k
    · subst heq
      simpa using hweaker
    · simpa [heq] using .refl _
  waiting k' current c startDial hcall := by
    by_cases heq : k' = k
    · subst heq
      simp only [setCall, update_self] at hcall
      exact .inr (hwaiting current c startDial hcall)
    · simp only [ConnPool.setCall, update_of_ne heq] at hcall
      exact .inl hcall
  unused hunused := hunused
  gone _ hgone := hgone

theorem hand_setCall_of_ne {h : Nat ⊕ Nat} (hne : h ≠ .inl k) : (p.setCall k call).hand h = p.hand h := by
  cases h with
  | inl k' =>
    have hne' : k' ≠ k := fun heq => hne (heq ▸ rfl)
    simp [hand, setCall, hne']
  | inr c => rfl

theorem hand_modifyConnect_of_ne {h : Nat ⊕ Nat} (hne : h ≠ .inr c) : (p.modifyConnect c f).hand h = p.hand h := by
  cases h with
  | inl k => rfl
  | inr c' =>
    have hne' : c' ≠ c := fun heq => hne (heq ▸ rfl)
    simp [hand, modifyConnect, hne']

theorem Frame.modifyConnect (hfinished : (p.connects c).phase = .finished → (f (p.connects c)).phase = .finished) :
    Frame p (p.modifyConnect c f) where
  mode := rfl
  calls _ := .refl _
  waiting _ _ _ _ hcall := .inl hcall
  unused hunused c' hc' := by
    by_cases heq : c' = c
    · subst heq
      simpa using hfinished (hunused c' hc')
    · simpa [heq] using hunused c' hc'
  gone _ hgone := hgone

variable [DecidableEq T]

/-- The idle list and its index agree, and are of connections of the pool. -/
structure IdleOk (state : ConnPoolState T) : Prop where
  indexed : Indexed Element.value state.idle state.idleElements
  all : ∀ element ∈ state.idle, element.value ∈ state.all

structure Inv (p : ConnPool T) : Prop where
  /-- a connection that a dialing call has is nowhere else -/
  hand_unique : ∀ h h' conn, p.hand h = some conn → p.hand h' = some conn → h = h'
  hand_dialed : ∀ h conn, p.hand h = some conn → conn ∈ p.dialed
  hand_got : ∀ h conn, p.hand h = some conn → ∀ k, (p.calls k).got ≠ some conn
  hand_live : ∀ h conn, p.hand h = some conn → ∀ state, p.live = some state →
    conn ∉ state.all ∧ state.shared ≠ some conn
  got_dialed : ∀ k conn, (p.calls k).got = some conn → conn ∈ p.dialed
  live_dialed : ∀ state, p.live = some state → ∀ conn, conn ∈ state.all ∨ state.shared = some conn → conn ∈ p.dialed
  idle : p.mode = .ordered → ∀ state, p.live = some state → IdleOk state
  free : p.mode = .ordered → ∀ state, p.live = some state → ∀ element ∈ state.idle,
    ∀ k, (p.calls k).held ≠ some element.value
  held_unique : p.mode = .ordered → ∀ k k' conn, (p.calls k).held = some conn → (p.calls k').held = some conn → k = k'
  created_unique : ∀ k k' conn, (p.calls k).created = some conn → (p.calls k').created = some conn → k = k'
  unclaimed : ∀ state, p.live = some state → ∀ conn, state.shared = some conn → state.sharedClaimed = false →
    ∀ k, (p.calls k).created ≠ some conn
  waiting : ∀ k current c startDial, p.calls k = .waiting current c startDial → p.mode = .single
  unused : p.Unused
  kept : ∀ conn ∈ p.dialed, p.Pooled conn ∨ (∃ h, p.hand h = some conn) ∨ p.Gone conn

/-! ## Steps that take connections out -/

/-- A state has become of another that has no more connections. -/
structure Shrinks (mode : ConnPoolMode) (state state' : ConnPoolState T) : Prop where
  all : ∀ conn, conn ∈ state'.all → conn ∈ state.all
  idle : mode = .ordered → IdleOk state → IdleOk state' ∧ ∀ element ∈ state'.idle, element ∈ state.idle
  shared : ∀ conn, state'.shared = some conn →
    state.shared = some conn ∧ (state'.sharedClaimed = false → state.sharedClaimed = false)

theorem Shrinks.refl (mode : ConnPoolMode) (state : ConnPoolState T) : Shrinks mode state state :=
  ⟨fun _ h => h, fun _ h => ⟨h, fun _ h => h⟩, fun _ h => ⟨h, fun h => h⟩⟩

theorem Shrinks.trans {mode : ConnPoolMode} {state state' state'' : ConnPoolState T} (h : Shrinks mode state state')
    (h' : Shrinks mode state' state'') : Shrinks mode state state'' where
  all conn hconn := h.all conn (h'.all conn hconn)
  idle hmode hok := by
    obtain ⟨hok', hidle⟩ := h.idle hmode hok
    obtain ⟨hok'', hidle'⟩ := h'.idle hmode hok'
    exact ⟨hok'', fun element helement => hidle element (hidle' element helement)⟩
  shared conn hshared := by
    obtain ⟨hshared', hclaimed'⟩ := h'.shared conn hshared
    obtain ⟨hshared, hclaimed⟩ := h.shared conn hshared'
    exact ⟨hshared, fun hfalse => hclaimed (hclaimed' hfalse)⟩

/-- Connections are taken out of the pool or out of hands, and closed. -/
structure Shrink (p p' : ConnPool T) : Prop extends Frame p p' where
  dialed : p'.dialed = p.dialed
  hand : ∀ h conn, p'.hand h = some conn → p.hand h = some conn
  live : ∀ state', p'.live = some state' → ∃ state, p.live = some state ∧ Shrinks p.mode state state'
  hand_kept : ∀ h conn, p.hand h = some conn → p'.hand h = some conn ∨ p'.Gone conn
  pooled_kept : ∀ conn, p.Pooled conn → p'.Pooled conn ∨ p'.Gone conn

/-- A connection that a dialing call had and none has any more. -/
def Taken (p p' : ConnPool T) (conn : T) : Prop := (∃ h, p.hand h = some conn) ∧ ∀ h, p'.hand h ≠ some conn

/-- A state has become of another with only connections that were taken out of hands. -/
structure Gains (p p' : ConnPool T) (state state' : ConnPoolState T) : Prop where
  all : ∀ conn, conn ∈ state'.all → Taken p p' conn ∨ conn ∈ state.all
  idle : p.mode = .ordered → IdleOk state → IdleOk state' ∧ ∀ element ∈ state'.idle, element ∈ state.idle
  shared : ∀ conn, state'.shared = some conn → Taken p p' conn ∨
    state.shared = some conn ∧ (state'.sharedClaimed = false → state.sharedClaimed = false)

theorem Shrinks.gains {state state' : ConnPoolState T} (h : Shrinks p.mode state state') : Gains p p' state state' :=
  ⟨fun conn hmem => .inr (h.all conn hmem), h.idle, fun conn heq => .inr (h.shared conn heq)⟩

/-- Connections are taken out of the pool, or out of hands into it, and `h₁` may have a
new one. -/
theorem Inv.frame (h : p.Inv) (hp : Frame p p') (h₁ : Nat ⊕ Nat) (hdialed : p.dialed ⊆ p'.dialed)
    (hhand : ∀ h' conn, p'.hand h' = some conn → h' = h₁ ∧ conn ∉ p.dialed ∧ conn ∈ p'.dialed ∨ p.hand h' = some conn)
    (hlive : ∀ state', p'.live = some state' → ∃ state, p.live = some state ∧ Gains p p' state state')
    (hkept : ∀ conn ∈ p'.dialed, p'.Pooled conn ∨ (∃ h', p'.hand h' = some conn) ∨ p'.Gone conn) : p'.Inv where
  hand_unique h' h'' conn hhand' hhand'' := by
    rcases hhand h' conn hhand' with ⟨rfl, hnew, -⟩ | hold'
    · rcases hhand h'' conn hhand'' with ⟨rfl, -⟩ | hold''
      · rfl
      · exact absurd (h.hand_dialed _ _ hold'') hnew
    · rcases hhand h'' conn hhand'' with ⟨-, hnew, -⟩ | hold''
      · exact absurd (h.hand_dialed _ _ hold') hnew
      · exact h.hand_unique _ _ _ hold' hold''
  hand_dialed h' conn hconn := by
    rcases hhand h' conn hconn with ⟨-, -, hmem⟩ | hold
    · exact hmem
    · exact hdialed (h.hand_dialed _ _ hold)
  hand_got h' conn hconn k hgot := by
    have hgot' := (hp.calls k).got conn hgot
    rcases hhand h' conn hconn with ⟨-, hnew, -⟩ | hold
    · exact hnew (h.got_dialed k conn hgot')
    · exact h.hand_got _ _ hold k hgot'
  hand_live h' conn hconn state' hlive' := by
    obtain ⟨state, hlive, hstate⟩ := hlive state' hlive'
    have hdialed := h.live_dialed state hlive conn
    have hnot : conn ∉ state.all ∧ state.shared ≠ some conn := by
      rcases hhand h' conn hconn with ⟨-, hnew, -⟩ | hold
      · exact ⟨fun hmem => hnew (hdialed (.inl hmem)), fun heq => hnew (hdialed (.inr heq))⟩
      · exact h.hand_live _ _ hold state hlive
    have htaken : ¬ Taken p p' conn := fun htaken => htaken.2 h' hconn
    exact ⟨fun hmem => hnot.1 ((hstate.all conn hmem).resolve_left htaken),
      fun heq => hnot.2 ((hstate.shared conn heq).resolve_left htaken).1⟩
  got_dialed k conn hgot := hdialed (h.got_dialed k conn ((hp.calls k).got conn hgot))
  live_dialed state' hlive' conn hconn := by
    obtain ⟨state, hlive, hstate⟩ := hlive state' hlive'
    have hcases : Taken p p' conn ∨ conn ∈ state.all ∨ state.shared = some conn := by
      rcases hconn with hall | hshared
      · exact (hstate.all conn hall).imp_right .inl
      · exact (hstate.shared conn hshared).imp_right fun hshared => .inr hshared.1
    rcases hcases with ⟨⟨h', hhand'⟩, -⟩ | hconn
    · exact hdialed (h.hand_dialed h' conn hhand')
    · exact hdialed (h.live_dialed state hlive conn hconn)
  idle hmode state' hlive' := by
    rw [hp.mode] at hmode
    obtain ⟨state, hlive, hstate⟩ := hlive state' hlive'
    exact (hstate.idle hmode (h.idle hmode state hlive)).1
  free hmode state' hlive' element helement k hheld := by
    rw [hp.mode] at hmode
    obtain ⟨state, hlive, hstate⟩ := hlive state' hlive'
    obtain ⟨-, hidle⟩ := hstate.idle hmode (h.idle hmode state hlive)
    exact h.free hmode state hlive element (hidle element helement) k ((hp.calls k).held _ hheld)
  held_unique hmode k k' conn hk hk' :=
    h.held_unique (hp.mode ▸ hmode) k k' conn ((hp.calls k).held conn hk) ((hp.calls k').held conn hk')
  created_unique k k' conn hk hk' :=
    h.created_unique k k' conn ((hp.calls k).created conn hk) ((hp.calls k').created conn hk')
  unclaimed state' hlive' conn hshared hclaimed k hcreated := by
    obtain ⟨state, hlive, hstate⟩ := hlive state' hlive'
    have hcreated' := (hp.calls k).created conn hcreated
    rcases hstate.shared conn hshared with ⟨⟨h', hhand'⟩, -⟩ | ⟨hshared', hclaimed'⟩
    · exact h.hand_got h' conn hhand' k (Call.got_of_created hcreated')
    · exact h.unclaimed state hlive conn hshared' (hclaimed' hclaimed) k hcreated'
  waiting k current c startDial hcall := by
    rw [hp.mode]
    exact (hp.waiting k current c startDial hcall).elim (h.waiting k current c startDial) id
  unused := hp.unused h.unused
  kept := hkept

theorem Inv.shrink (h : p.Inv) (hp : Shrink p p') : p'.Inv := by
  refine h.frame hp.toFrame (.inl 0) (fun _ hmem => hp.dialed ▸ hmem)
    (fun h' conn hhand => .inr (hp.hand h' conn hhand))
    (fun state' hstate' => (hp.live state' hstate').imp fun _ hstate => hstate.imp_right Shrinks.gains) fun conn hconn => ?_
  rw [hp.dialed] at hconn
  rcases h.kept conn hconn with hpooled | ⟨h₁, hhand⟩ | hgone
  · exact (hp.pooled_kept conn hpooled).imp_right .inr
  · exact .inr ((hp.hand_kept h₁ conn hhand).imp_left fun hhand => ⟨h₁, hhand⟩)
  · exact .inr (.inr (hp.gone conn hgone))

theorem Shrink.trans (h : Shrink p p') (h' : Shrink p' p'') : Shrink p p'' where
  mode := h'.mode.trans h.mode
  dialed := h'.dialed.trans h.dialed
  calls k := ⟨fun conn hconn => (h.calls k).held conn ((h'.calls k).held conn hconn),
    fun conn hconn => (h.calls k).got conn ((h'.calls k).got conn hconn),
    fun conn hconn => (h.calls k).created conn ((h'.calls k).created conn hconn)⟩
  waiting k current c startDial hcall := by
    rcases h'.waiting k current c startDial hcall with hcall | hmode
    · exact h.waiting k current c startDial hcall
    · exact .inr (h.mode ▸ hmode)
  hand h₁ conn hhand := h.hand h₁ conn (h'.hand h₁ conn hhand)
  live state'' hlive'' := by
    obtain ⟨state', hlive', hstate'⟩ := h'.live state'' hlive''
    obtain ⟨state, hlive, hstate⟩ := h.live state' hlive'
    rw [h.mode] at hstate'
    exact ⟨state, hlive, hstate.trans hstate'⟩
  unused hunused := h'.unused (h.unused hunused)
  gone conn hgone := h'.gone conn (h.gone conn hgone)
  hand_kept h₁ conn hhand := by
    rcases h.hand_kept h₁ conn hhand with hhand | hgone
    · exact h'.hand_kept h₁ conn hhand
    · exact .inr (h'.gone conn hgone)
  pooled_kept conn hpooled := by
    rcases h.pooled_kept conn hpooled with hpooled | hgone
    · exact h'.pooled_kept conn hpooled
    · exact .inr (h'.gone conn hgone)

theorem Shrink.same (hgone : ∀ conn, p.Gone conn → p'.Gone conn) (hmode : p'.mode = p.mode) (hdialed : p'.dialed = p.dialed)
    (hcalls : p'.calls = p.calls) (hconnects : p'.connects = p.connects) (hnext : p'.nextConnect = p.nextConnect)
    (hlive : p'.live = p.live) : Shrink p p' where
  mode := hmode
  dialed := hdialed
  calls k := hcalls ▸ .refl _
  waiting k current c startDial hcall := .inl (hcalls ▸ hcall)
  hand h conn hconn := by rwa [hand.eq_def, hcalls, hconnects, ← hand.eq_def] at hconn
  live state hstate := ⟨state, hlive ▸ hstate, .refl _ state⟩
  unused hunused := by rwa [Unused, hconnects, hnext]
  gone := hgone
  hand_kept h conn hconn := .inl (by rwa [hand.eq_def, hcalls, hconnects, ← hand.eq_def])
  pooled_kept conn hpooled := .inl (by rwa [Pooled, hlive])

theorem Shrink.toClose (p : ConnPool T) (conn : T) (cause : PoolError) : Shrink p (p.toClose conn cause) :=
  .same (fun _ hgone => gone_append hgone) rfl rfl rfl rfl rfl rfl

theorem Shrink.discard (p : ConnPool T) (conn : T) (cause : PoolError) : Shrink p (p.discard conn cause) := by
  refine .same (fun conn hgone => ?_) rfl rfl rfl rfl rfl rfl
  unfold Gone at hgone ⊢
  simp only [ConnPool.discard, map_append, mem_append]
  exact hgone.imp_right .inl

/-- One dialing call has no connection any more. -/
theorem Shrink.emptied (h₁ : Nat ⊕ Nat) (hp : Frame p p') (hself : p'.hand h₁ = none)
    (hothers : ∀ h, h ≠ h₁ → p'.hand h = p.hand h) (hgone : ∀ conn, p.hand h₁ = some conn → p'.Gone conn)
    (hdialed : p'.dialed = p.dialed) (hlive : p'.live = p.live) : Shrink p p' where
  toFrame := hp
  dialed := hdialed
  hand h conn hconn := by
    by_cases heq : h = h₁
    · rw [heq, hself] at hconn
      cases hconn
    · exact hothers h heq ▸ hconn
  live state hstate := ⟨state, hlive ▸ hstate, .refl _ state⟩
  hand_kept h conn hconn := by
    by_cases heq : h = h₁
    · exact .inr (hgone conn (heq ▸ hconn))
    · exact .inl (hothers h heq ▸ hconn)
  pooled_kept conn hpooled := .inl (by rwa [Pooled, hlive])

theorem Shrink.setCall (hweaker : Weaker (p.calls k) call) (hnone : call.hand = none)
    (hhand : ∀ conn, (p.calls k).hand = some conn → p.Gone conn)
    (hwaiting : ∀ current c startDial, call = .waiting current c startDial → p.mode = .single) :
    Shrink p (p.setCall k call) :=
  .emptied (.inl k) (.setCall hweaker hwaiting) (by simpa using hnone) (fun _ => hand_setCall_of_ne) hhand rfl rfl

theorem Shrink.modifyState {f : ConnPoolState T → ConnPoolState T}
    (hstate : Shrinks p.mode (p.states current) (f (p.states current)))
    (hkept : p.state = some current → ∀ conn, conn ∈ (p.states current).all →
      conn ∈ (f (p.states current)).all ∨ p.Gone conn) : Shrink p (p.modifyState current f) where
  mode := rfl
  dialed := rfl
  calls _ := .refl _
  waiting _ _ _ _ hcall := .inl hcall
  hand _ _ hconn := hconn
  live state' hlive' := by
    rw [live_modifyState] at hlive'
    split at hlive'
    · rename_i hcurrent
      cases hlive'
      exact ⟨_, live_of_state hcurrent, hstate⟩
    · exact ⟨state', hlive', .refl _ state'⟩
  unused hunused := hunused
  gone _ hgone := hgone
  hand_kept _ _ hconn := .inl hconn
  pooled_kept conn hpooled := by
    obtain ⟨state, hlive, hconn⟩ := hpooled
    unfold Pooled
    rw [live_modifyState]
    split
    · rename_i hcurrent
      rw [live_of_state hcurrent] at hlive
      cases hlive
      exact (hkept hcurrent conn hconn).imp_left fun hmem => ⟨_, rfl, hmem⟩
    · exact .inl ⟨state, hlive, hconn⟩

theorem Shrink.keepsConns {f : ConnPoolState T → ConnPoolState T}
    (hall : (f (p.states current)).all = (p.states current).all)
    (hidle : (f (p.states current)).idle = (p.states current).idle)
    (hindex : (f (p.states current)).idleElements = (p.states current).idleElements)
    (hshared : (f (p.states current)).shared = (p.states current).shared)
    (hclaimed : (f (p.states current)).sharedClaimed = false → (p.states current).sharedClaimed = false) :
    Shrink p (p.modifyState current f) := by
  refine .modifyState ⟨fun conn hmem => hall ▸ hmem, fun _ hok => ⟨⟨?_, fun element hmem => ?_⟩, fun element hmem => hidle ▸ hmem⟩,
    fun conn heq => ⟨hshared ▸ heq, hclaimed⟩⟩ fun _ conn hmem => .inl (hall ▸ hmem)
  · rw [hidle, hindex]
    exact hok.indexed
  · rw [hall]
    exact hok.all element (hidle ▸ hmem)

theorem Shrink.modifyConnect (hf : ∀ conn, (f (p.connects c)).phase ≠ .dialed (.ok conn))
    (hfinished : (p.connects c).phase = .finished → (f (p.connects c)).phase = .finished)
    (hgone : ∀ conn, (p.connects c).phase = .dialed (.ok conn) → p.Gone conn) : Shrink p (p.modifyConnect c f) := by
  refine .emptied (.inr c) (.modifyConnect hfinished) (eq_none_iff_forall_ne_some.2 fun conn hconn => ?_)
    (fun _ => hand_modifyConnect_of_ne) (fun conn hconn => hgone conn (hand_inr.1 hconn)) rfl rfl
  have hphase := hand_inr.1 hconn
  simp only [ConnPool.modifyConnect, update_self] at hphase
  exact hf conn hphase

/-! ## Steps that bring connections in -/

/-- A dial returns a new connection, and the dialing call has it. -/
theorem Inv.dial (h : p.Inv) (hp : Frame p p') {h₁ : Nat ⊕ Nat} (hnew : conn ∉ p.dialed)
    (hdialed : p'.dialed = conn :: p.dialed) (hnone : p.hand h₁ = none) (hself : p'.hand h₁ = some conn)
    (hothers : ∀ h', h' ≠ h₁ → p'.hand h' = p.hand h') (hlive : p'.live = p.live) : p'.Inv := by
  have hold : p.dialed ⊆ p'.dialed := hdialed ▸ subset_cons_self _ _
  refine h.frame hp h₁ hold (fun h' conn' hhand => ?_) (fun state hstate => ⟨state, hlive ▸ hstate, (Shrinks.refl _ _).gains⟩)
    fun conn' hconn => ?_
  · by_cases heq : h' = h₁
    · subst heq
      rw [hself] at hhand
      cases hhand
      exact .inl ⟨rfl, hnew, hdialed ▸ .head _⟩
    · exact .inr (hothers h' heq ▸ hhand)
  · rw [hdialed] at hconn
    rcases mem_cons.1 hconn with rfl | hold
    · exact .inr (.inl ⟨h₁, hself⟩)
    · rcases h.kept conn' hold with hpooled | ⟨h', hhand⟩ | hgone
      · exact .inl (by rwa [Pooled, hlive])
      · refine .inr (.inl ⟨h', ?_⟩)
        rwa [hothers h' fun heq => ?_]
        rw [heq, hnone] at hhand
        cases hhand
      · exact .inr (.inr (hp.gone conn' hgone))

theorem Inv.dialDiscard (h : p.Inv) (cause : PoolError) :
    ({ p.discard conn cause with dialed := conn :: p.dialed } : ConnPool T).Inv := by
  have hp := Shrink.discard p conn cause
  refine h.frame ⟨rfl, hp.calls, hp.waiting, hp.unused, hp.gone⟩ (.inl 0) (subset_cons_self _ _)
    (fun _ _ hhand => .inr hhand) (fun state hstate => ⟨state, hstate, (Shrinks.refl _ _).gains⟩) fun conn' hconn => ?_
  rcases mem_cons.1 hconn with rfl | hold
  · exact .inr (.inr (p.gone_discard conn' cause))
  · exact (h.kept conn' hold).imp_right (.imp_right (hp.gone conn'))

/-- A dialing call puts its connection into the pool, as the shared one or not. -/
theorem Inv.pool (h : p.Inv) (hp : Frame p p') {h₁ : Nat ⊕ Nat} {state state' : ConnPoolState T}
    (hhand : p.hand h₁ = some conn) (hdialed : p'.dialed = p.dialed) (hself : p'.hand h₁ = none)
    (hothers : ∀ h', h' ≠ h₁ → p'.hand h' = p.hand h') (hlive : p.live = some state) (hlive' : p'.live = some state')
    (hall : ∀ conn', conn' ∈ state'.all ↔ conn' = conn ∨ conn' ∈ state.all) (hidle : state'.idle = state.idle)
    (hindex : state'.idleElements = state.idleElements)
    (hshared : ∀ conn', state'.shared = some conn' → conn' = conn ∨
      state.shared = some conn' ∧ state'.sharedClaimed = state.sharedClaimed) : p'.Inv := by
  have hcases : ∀ h' conn', p'.hand h' = some conn' → h' ≠ h₁ ∧ p.hand h' = some conn' := by
    intro h' conn' hhand'
    have hne : h' ≠ h₁ := by
      rintro rfl
      rw [hself] at hhand'
      cases hhand'
    exact ⟨hne, hothers h' hne ▸ hhand'⟩
  have htaken : ∀ conn', conn' = conn → Taken p p' conn' := by
    rintro conn' rfl
    refine ⟨⟨h₁, hhand⟩, fun h' hhand' => ?_⟩
    obtain ⟨hne, hold⟩ := hcases h' conn' hhand'
    exact hne (h.hand_unique _ _ _ hold hhand)
  refine h.frame hp h₁ (fun _ hmem => hdialed ▸ hmem) (fun h' conn' hhand' => .inr (hcases h' conn' hhand').2)
    (fun state'' hstate'' => ⟨state, hlive, ?_⟩) fun conn' hconn => ?_
  · cases hlive'.symm.trans hstate''
    refine ⟨fun conn' hmem => ((hall conn').1 hmem).imp_left (htaken conn'), fun _ hok => ?_, fun conn' heq => ?_⟩
    · rw [hidle]
      refine ⟨⟨by rw [hidle, hindex]; exact hok.indexed, fun element helement => ?_⟩, fun _ hmem => hmem⟩
      rw [hidle] at helement
      exact (hall _).2 (.inr (hok.all element helement))
    · exact (hshared conn' heq).imp (htaken conn') fun ⟨heq, hclaimed⟩ => ⟨heq, fun hfalse => hclaimed ▸ hfalse⟩
  · rw [hdialed] at hconn
    rcases h.kept conn' hconn with ⟨state'', hlive'', hmem⟩ | ⟨h', hhand'⟩ | hgone
    · rw [hlive] at hlive''
      cases hlive''
      exact .inl ⟨state', hlive', (hall conn').2 (.inr hmem)⟩
    · by_cases heq : h' = h₁
      · subst heq
        rw [hhand] at hhand'
        cases hhand'
        exact .inl ⟨state', hlive', (hall conn).2 (.inl rfl)⟩
      · exact .inr (.inl ⟨h', hothers h' heq ▸ hhand'⟩)
    · exact .inr (.inr (hp.gone conn' hgone))

/-- A call returns a connection that no dialing call has. In ordered mode no other call
has it, and it is reported to be new once. -/
theorem Inv.returns (h : p.Inv) {connCtx : Option Nat} {created : Bool}
    (hnone : (p.calls k).hand = none) (hdialed : conn ∈ p.dialed) (hhand : ∀ h', p.hand h' ≠ some conn)
    (hheld : p.mode = .ordered → (∀ k', (p.calls k').held ≠ some conn) ∧
      ∀ state, p.live = some state → ∀ element ∈ state.idle, element.value ≠ conn)
    (hcreated : created = true → (∀ k', (p.calls k').created ≠ some conn) ∧
      ∀ state, p.live = some state → state.shared = some conn → state.sharedClaimed = true) :
    (p.setCall k (.returned conn connCtx created)).Inv := by
  have hhands : ∀ h' conn', (p.setCall k (.returned conn connCtx created)).hand h' = some conn' ↔
      p.hand h' = some conn' := by
    intro h' conn'
    cases h' with
    | inl k' =>
      by_cases heq : k' = k
      · subst heq
        simp only [hand, setCall, update_self, hnone]
        exact Iff.rfl
      · simp [hand, setCall, heq]
    | inr c => rfl
  -- what a call has is the connection returned or what it had
  have hgot : ∀ k' conn', ((p.setCall k (.returned conn connCtx created)).calls k').got = some conn' →
      conn' = conn ∨ (p.calls k').got = some conn' := by
    intro k' conn' heq
    rcases setCall_cases heq with ⟨-, heq⟩ | hold
    · exact .inl (some.inj heq).symm
    · exact .inr hold
  have hnew : ∀ k' conn', ((p.setCall k (.returned conn connCtx created)).calls k').created = some conn' →
      k' = k ∧ conn' = conn ∧ created = true ∨ (p.calls k').created = some conn' := by
    intro k' conn' heq
    rcases setCall_cases heq with ⟨hk, heq⟩ | hold
    · cases created with
      | true => exact .inl ⟨hk, (some.inj heq).symm, rfl⟩
      | false => cases heq
    · exact .inr hold
  refine ⟨fun h' h'' conn' hhand' hhand'' => ?_, fun h' conn' hhand' => ?_, fun h' conn' hhand' k' hgot' => ?_,
    fun h' conn' hhand' => ?_, fun k' conn' hgot' => ?_, h.live_dialed, h.idle,
    fun hmode state hstate element helement k' hheld' => ?_, fun hmode k' k'' conn' hk' hk'' => ?_,
    fun k' k'' conn' hk' hk'' => ?_, fun state hstate conn' hshared hclaimed k' hcreated' => ?_,
    fun k' current c startDial hcall => ?_, h.unused, fun conn' hconn => ?_⟩
  · exact h.hand_unique _ _ _ ((hhands _ _).1 hhand') ((hhands _ _).1 hhand'')
  · exact h.hand_dialed _ _ ((hhands _ _).1 hhand')
  · rcases hgot k' conn' hgot' with rfl | hold
    · exact hhand h' ((hhands _ _).1 hhand')
    · exact h.hand_got _ _ ((hhands _ _).1 hhand') k' hold
  · exact h.hand_live _ _ ((hhands _ _).1 hhand')
  · rcases hgot k' conn' hgot' with rfl | hold
    · exact hdialed
    · exact h.got_dialed k' conn' hold
  · rcases setCall_cases hheld' with ⟨-, heq⟩ | hold
    · exact (hheld hmode).2 state hstate element helement (some.inj heq).symm
    · exact h.free hmode state hstate element helement k' hold
  · have hother := (hheld hmode).1
    rcases setCall_cases hk' with ⟨rfl, heq⟩ | hold'
    · cases heq
      rcases setCall_cases hk'' with ⟨rfl, -⟩ | hold''
      · rfl
      · exact absurd hold'' (hother k'')
    · rcases setCall_cases hk'' with ⟨rfl, heq⟩ | hold''
      · cases heq
        exact absurd hold' (hother k')
      · exact h.held_unique hmode k' k'' conn' hold' hold''
  · rcases hnew k' conn' hk' with ⟨rfl, rfl, htrue⟩ | hold'
    · rcases hnew k'' conn' hk'' with ⟨rfl, -, -⟩ | hold''
      · rfl
      · exact absurd hold'' ((hcreated htrue).1 k'')
    · rcases hnew k'' conn' hk'' with ⟨rfl, rfl, htrue⟩ | hold''
      · exact absurd hold' ((hcreated htrue).1 k')
      · exact h.created_unique k' k'' conn' hold' hold''
  · rcases hnew k' conn' hcreated' with ⟨-, rfl, htrue⟩ | hold
    · rw [(hcreated htrue).2 state hstate hshared] at hclaimed
      cases hclaimed
    · exact h.unclaimed state hstate conn' hshared hclaimed k' hold
  · by_cases heq : k' = k
    · subst heq
      simp [setCall] at hcall
    · simp only [setCall, update_of_ne heq] at hcall
      exact h.waiting k' current c startDial hcall
  · exact (h.kept conn' hconn).imp_right (.imp_left fun ⟨h', hhand'⟩ => ⟨h', (hhands _ _).2 hhand'⟩)

/-- A connection that no caller has becomes idle. -/
theorem Inv.pushBack (h : p.Inv) (hstate : p.state = some current)
    (hall : conn ∈ (p.states current).all) (hidle : (p.states current).idleElements.lookup conn = none)
    (hfree : ∀ k, (p.calls k).held ≠ some conn) (place : Nat) :
    (p.modifyState current fun state => { state with
      idle := state.idle ++ [⟨place, conn⟩]
      idleElements := state.idleElements.insert conn ⟨place, conn⟩ }).Inv := by
  generalize hp' : p.modifyState current _ = p'
  have hlive := live_of_state hstate
  have hlive' : p'.live = some { p.states current with
      idle := (p.states current).idle ++ [⟨place, conn⟩]
      idleElements := (p.states current).idleElements.insert conn ⟨place, conn⟩ } := by
    rw [← hp', live_modifyState, if_pos hstate]
  subst hp'
  refine ⟨h.hand_unique, h.hand_dialed, h.hand_got, fun h' conn' hhand state hstate' => ?_, h.got_dialed,
    fun state hstate' conn' hconn => ?_, fun hmode state hstate' => ?_,
    fun hmode state hstate' element helement => ?_, h.held_unique, h.created_unique,
    fun state hstate' conn' hshared hclaimed => ?_, h.waiting, h.unused, fun conn' hconn => ?_⟩
  · cases hlive'.symm.trans hstate'
    exact h.hand_live h' conn' hhand (p.states current) hlive
  · cases hlive'.symm.trans hstate'
    exact h.live_dialed (p.states current) hlive conn' hconn
  · cases hlive'.symm.trans hstate'
    have hok := h.idle hmode (p.states current) hlive
    refine ⟨hok.indexed.append hidle, fun element helement => ?_⟩
    rcases mem_append.1 helement with hold | hnew
    · exact hok.all element hold
    · cases mem_singleton.1 hnew
      exact hall
  · cases hlive'.symm.trans hstate'
    rcases mem_append.1 helement with hold | hnew
    · exact h.free hmode (p.states current) hlive element hold
    · cases mem_singleton.1 hnew
      exact hfree
  · cases hlive'.symm.trans hstate'
    exact h.unclaimed (p.states current) hlive conn' hshared hclaimed
  · refine (h.kept conn' hconn).imp_left ?_
    rintro ⟨state, hstate', hmem⟩
    cases hlive.symm.trans hstate'
    exact ⟨_, hlive', hmem⟩

end ConnPool

end Singlink.Dns
