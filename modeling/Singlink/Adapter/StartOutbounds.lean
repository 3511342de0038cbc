import Singlink.Adapter.Outbound
import Singlink.Lib.Deps
import Singlink.Lib.Exec
/-!
# The start order of outbounds

`startOutbounds` of `adapter/outbound/manager.go`: sweeps over the outbounds and
endpoints, each of which starts what only depends on what is started, until all are
started or a sweep starts nothing. Then `lintOutbound` walks along dependencies that
are not started, for an error that tells why.

The walk looks tags up in the map of the outbounds, which has no endpoints: an endpoint
that is not started is reported as not found.
-/

namespace Singlink.Outbound

open Adapter Lib List Option Outbound

variable {E : Type}

inductive StartError (E : Type) where
  | start (outbound : Outbound) (err : E)
  | circular (oTree : List String) (problemOutboundTag : String)
  | notFound (problemOutboundTag tag : String)

/-- The text of an error, given that of the errors of outbounds. -/
def StartError.message (text : E → String) : StartError E → String
  | .start outbound err => "start outbound/" ++ outbound.type ++ "[" ++ outbound.tag ++ "]: " ++ text err
  | .circular oTree problemOutboundTag =>
    "circular outbound dependency: " ++ " -> ".intercalate oTree ++ " -> " ++ problemOutboundTag
  | .notFound problemOutboundTag tag =>
    "dependency[" ++ problemOutboundTag ++ "] not found for outbound[" ++ tag ++ "]"

/-! ## The code -/

/-- `started` and `canContinue` within a sweep. Tags are put into `started` once, with
the outbounds that are started: it is the list of these, in order. -/
structure Sweep where
  started : List Outbound
  canContinue : Bool := false

def isStarted (started : List Outbound) (tag : String) : Bool := started.any (·.tag = tag)

/-- One sweep. Outbounds without a `Start` are those that never fail. -/
def sweep (start : Outbound → Option E) : List Outbound → Sweep → Sweep × Option (Outbound × E)
  | [], s => (s, none)
  | outboundToStart :: rest, s =>
    if isStarted s.started outboundToStart.tag then sweep start rest s
    else if !outboundToStart.dependencies.all (isStarted s.started) then sweep start rest s
    else
      let s : Sweep := { started := s.started ++ [outboundToStart], canContinue := true }
      match start outboundToStart with
      | some err => (s, some (outboundToStart, err))
      | none => sweep start rest s

/-- `lintOutbound`. Without a dependency that is not started, the tag is empty. -/
def lintOutbound (outboundByTag : GoMap String Outbound) (started : List Outbound) :
    Nat → List String → Outbound → Exec (StartError E)
  | 0, _, _ => .running
  | fuel + 1, oTree, oCurrent =>
    let problemOutboundTag := (oCurrent.dependencies.find? (!isStarted started ·)).getD ""
    if oTree.contains problemOutboundTag then .done (.circular oTree problemOutboundTag)
    else
      match outboundByTag.lookup problemOutboundTag with
      | none => .done (.notFound problemOutboundTag oCurrent.tag)
      | some problemOutbound =>
        lintOutbound outboundByTag started fuel (oTree ++ [problemOutboundTag]) problemOutbound

/-- The outbounds in the order they are started, and the error. -/
structure Started (E : Type) where
  outbounds : List Outbound
  err : Option (StartError E)

/-- The loop of `startOutbounds`; to walk on from no outbound is a panic. -/
def startLoop (outboundByTag : GoMap String Outbound) (outbounds : List Outbound) (start : Outbound → Option E)
    (lintFuel : Nat) : Nat → List Outbound → Exec (Started E)
  | 0, _ => .running
  | fuel + 1, started =>
    match sweep start outbounds { started } with
    | (s, some (outbound, err)) => .done ⟨s.started, some (.start outbound err)⟩
    | (s, none) =>
      if s.started.length = outbounds.length then .done ⟨s.started, none⟩
      else if s.canContinue then startLoop outboundByTag outbounds start lintFuel fuel s.started
      else
        match outbounds.find? (!isStarted s.started ·.tag) with
        | none => .panic
        | some currentOutbound => do
          let err ← lintOutbound outboundByTag s.started lintFuel [currentOutbound.tag] currentOutbound
          return ⟨s.started, some err⟩

/-- `startOutbounds`, as `Start` calls it, with some fuel for its loops. -/
def Manager.startOutbounds (m : Manager) (endpoints : List Outbound) (start : Outbound → Option E) (fuel : Nat) :
    Exec (Started E) :=
  startLoop m.outboundByTag (m.outbounds ++ endpoints) start fuel fuel []

/-- Tags and the tags they depend on. -/
def deps : Deps Outbound String := ⟨Outbound.tag, Outbound.dependencies⟩

/-! ## What the errors say -/

/-- The error is the one of an outbound that does not start, a dependency that is missing,
or a path of dependencies, the last of which has occurred before. -/
def StartError.Truthful (outbounds : List Outbound) (start : Outbound → Option E) : StartError E → Prop
  | .start outbound err => outbound ∈ outbounds ∧ start outbound = some err
  | .notFound problemOutboundTag tag =>
    deps.Needs outbounds tag problemOutboundTag ∧ problemOutboundTag ∉ outbounds.map Outbound.tag
  | .circular oTree problemOutboundTag =>
    problemOutboundTag ∈ oTree ∧ List.IsChain (deps.Needs outbounds) (oTree ++ [problemOutboundTag])

/-- A path that is reported ends where it begins. -/
def StartError.Closed : StartError E → Prop
  | .circular oTree problemOutboundTag => oTree.head? = some problemOutboundTag
  | _ => True

/-- The first dependency that cannot be started. -/
def FirstProblem (outbounds : List Outbound) (o : Outbound) (d : String) : Prop :=
  ∃ before after, o.dependencies = before ++ d :: after ∧ (∀ t ∈ before, deps.Ready outbounds t) ∧
    ¬ deps.Ready outbounds d

/-- The first outbound that cannot be started, and the first problem of each before, as long as
these are outbounds and no tag occurs twice. -/
inductive Walk (m : Manager) (endpoints : List Outbound) : List String → Outbound → Prop
  | first {before after : List Outbound} {o : Outbound} : m.outbounds ++ endpoints = before ++ o :: after →
      (∀ b ∈ before, deps.Ready (m.outbounds ++ endpoints) b.tag) →
      ¬ deps.Ready (m.outbounds ++ endpoints) o.tag → Walk m endpoints [o.tag] o
  | next {path : List String} {o o' : Outbound} {d : String} : Walk m endpoints path o →
      FirstProblem (m.outbounds ++ endpoints) o d → d ∉ path → m.outboundByTag.lookup d = some o' →
      Walk m endpoints (path ++ [d]) o'

/-- The walk comes to no endpoint that cannot be started, but for the one it comes from. -/
def Manager.NoEndpointProblem (m : Manager) (endpoints : List Outbound) : Prop :=
  ∀ path o d, Walk m endpoints path o → FirstProblem (m.outbounds ++ endpoints) o d → d ∉ path →
    d ∉ endpoints.map Outbound.tag

/-- The walk comes back to where it began, if it comes back. -/
def Manager.ReturnsToFirst (m : Manager) (endpoints : List Outbound) : Prop :=
  ∀ path o d, Walk m endpoints path o → FirstProblem (m.outbounds ++ endpoints) o d → d ∈ path →
    path.head? = some d

/-! ## A sweep -/

variable {started : List Outbound} {o : Outbound} {d : String} {path path' : List String} {o' : Outbound}
  {err : StartError E}

theorem isStarted_iff {tag : String} : isStarted started tag = true ↔ tag ∈ started.map Outbound.tag := by
  simp [isStarted]

/-- The outbounds were started once each, after what they depend on, without an error. -/
structure StartedWell (outbounds : List Outbound) (start : Outbound → Option E) (started : List Outbound) : Prop where
  sub : started ⊆ outbounds
  nodup : (started.map Outbound.tag).Nodup
  inOrder : deps.InOrder started
  succeeded : ∀ o ∈ started, start o = none

structure CanStart (outbounds started : List Outbound) (o : Outbound) : Prop where
  mem : o ∈ outbounds
  fresh : o.tag ∉ started.map Outbound.tag
  needs : ∀ d ∈ o.dependencies, d ∈ started.map Outbound.tag

/-- Nothing of the list can be started now. -/
def Stable (rest started : List Outbound) : Prop :=
  ∀ o ∈ rest, (∀ d ∈ o.dependencies, d ∈ started.map Outbound.tag) → o.tag ∈ started.map Outbound.tag

variable {outbounds : List Outbound} {start : Outbound → Option E}

theorem StartedWell.nil (outbounds : List Outbound) (start : Outbound → Option E) : StartedWell outbounds start [] :=
  ⟨nil_subset _, nodup_nil, .nil, nofun⟩

theorem CanStart.order (hcan : CanStart outbounds started o)
    (h : StartedWell outbounds start started) : ((started ++ [o]).map tag).Nodup ∧
      started ++ [o] ⊆ outbounds ∧ deps.InOrder (started ++ [o]) := by
  refine ⟨?_, ?_, .snoc h.inOrder hcan.needs⟩
  · rw [map_append]
    refine nodup_append.2 ⟨h.nodup, nodup_singleton _, fun t ht t' ht' => ?_⟩
    rw [mem_singleton.1 ht']
    rintro rfl
    exact hcan.fresh ht
  · exact append_subset.2 ⟨h.sub, cons_subset.2 ⟨hcan.mem, nil_subset _⟩⟩

theorem StartedWell.append (h : StartedWell outbounds start started)
    (hcan : CanStart outbounds started o) (ho : start o = none) : StartedWell outbounds start (started ++ [o]) := by
  obtain ⟨hnodup, hsub, hinOrder⟩ := hcan.order h
  refine ⟨hsub, hnodup, hinOrder, fun o' ho' => ?_⟩
  rcases mem_append.1 ho' with hmem | hmem
  · exact h.succeeded o' hmem
  · rw [mem_singleton.1 hmem]
    exact ho

/-- What a sweep over some outbounds leads to. -/
inductive Swept (outbounds : List Outbound) (start : Outbound → Option E) (rest : List Outbound) (s : Sweep) :
    Sweep × Option (Outbound × E) → Prop
  | stable : Stable rest s.started → Swept outbounds start rest s (s, none)
  | continues {s' : Sweep} : StartedWell outbounds start s'.started → s'.canContinue = true →
      s.started.length < s'.started.length → Swept outbounds start rest s (s', none)
  | failed {started : List Outbound} {o : Outbound} {err : E} : StartedWell outbounds start started →
      CanStart outbounds started o → start o = some err →
      Swept outbounds start rest s (⟨started ++ [o], true⟩, some (o, err))

theorem swept_sweep {rest : List Outbound} (hrest : rest ⊆ outbounds) {s : Sweep}
    (h : StartedWell outbounds start s.started) : Swept outbounds start rest s (sweep start rest s) := by
  induction rest generalizing s with
  | nil => exact .stable nofun
  | cons o rest ih =>
    have hrest' : rest ⊆ outbounds := fun x hx => hrest (.tail _ hx)
    -- an outbound that is passed over leaves what the rest leads to
    have hskip : ((∀ d ∈ o.dependencies, d ∈ s.started.map tag) → o.tag ∈ s.started.map tag) →
        Swept outbounds start (o :: rest) s (sweep start rest s) := by
      intro ho
      have hswept := ih hrest' h
      generalize sweep start rest s = r at hswept
      cases hswept with
      | stable hstable => exact .stable (forall_mem_cons.2 ⟨ho, hstable⟩)
      | continues hwell hcan hlt => exact .continues hwell hcan hlt
      | failed hwell hcan herr => exact .failed hwell hcan herr
    rw [sweep]
    split
    · rename_i hstarted
      exact hskip fun _ => isStarted_iff.1 hstarted
    · rename_i hfresh
      rw [isStarted_iff] at hfresh
      split
      · rename_i hneeds
        refine hskip fun hall => absurd (all_eq_true.2 fun d hd => isStarted_iff.2 (hall d hd)) ?_
        simpa using hneeds
      · rename_i hneeds
        have hcan : CanStart outbounds s.started o := by
          refine ⟨hrest (.head _), hfresh, fun d hd => isStarted_iff.1 ?_⟩
          rw [Bool.not_eq_true', Bool.not_eq_false] at hneeds
          exact all_eq_true.1 hneeds d hd
        cases ho : start o with
        | some err => exact .failed h hcan ho
        | none =>
          have hwell := h.append hcan ho
          have hswept := ih (s := { started := s.started ++ [o], canContinue := true }) hrest' hwell
          simp only
          generalize sweep start rest _ = r at hswept
          cases hswept with
          | stable _ => exact .continues hwell rfl (by simp)
          | continues hwell hcan hlt => exact .continues hwell hcan (by simp at hlt; omega)
          | failed hwell hcan herr => exact .failed hwell hcan herr

/-! ## The walk -/

theorem find?_eq_some_iff {α : Type} {P : α → Prop} {p : α → Bool} (hp : ∀ a, p a = true ↔ P a) {l : List α} {a : α} :
    l.find? (!p ·) = some a ↔ ∃ before after, l = before ++ a :: after ∧ (∀ b ∈ before, P b) ∧ ¬ P a := by
  rw [find?_eq_some_iff_append]
  simp only [Bool.not_eq_true', Bool.not_not, ← hp]
  constructor
  · rintro ⟨ha, before, after, hsplit, hbefore⟩
    exact ⟨before, after, hsplit, hbefore, by simp [ha]⟩
  · rintro ⟨before, after, hsplit, hbefore, ha⟩
    exact ⟨by simpa using ha, before, after, hsplit, hbefore⟩

theorem first_unique {α : Type} {P : α → Prop} {before before' after after' : List α} {a a' : α}
    (h : before ++ a :: after = before' ++ a' :: after') (hbefore : ∀ b ∈ before, P b) (ha : ¬ P a)
    (hbefore' : ∀ b ∈ before', P b) (ha' : ¬ P a') : a = a' := by
  classical
  have hp : ∀ a, decide (P a) = true ↔ P a := fun _ => decide_eq_true_iff
  have hfind := (find?_eq_some_iff hp).2 ⟨before, after, rfl, hbefore, ha⟩
  rw [(find?_eq_some_iff hp).2 ⟨before', after', h, hbefore', ha'⟩] at hfind
  exact (Option.some.inj hfind).symm

theorem FirstProblem.unique {d' : String} (h : FirstProblem outbounds o d)
    (h' : FirstProblem outbounds o d') : d = d' := by
  obtain ⟨before, after, hsplit, hbefore, hd⟩ := h
  obtain ⟨before', after', hsplit', hbefore', hd'⟩ := h'
  exact first_unique (hsplit.symm.trans hsplit') hbefore hd hbefore' hd'

theorem FirstProblem.mem (h : FirstProblem outbounds o d) : d ∈ o.dependencies := by
  obtain ⟨before, after, hsplit, -⟩ := h
  rw [hsplit]
  simp

variable {m : Manager} {endpoints : List Outbound}

/-- Where a walk has come to. -/
structure Walked (m : Manager) (endpoints : List Outbound) (path : List String) (o : Outbound) : Prop where
  mem : o ∈ m.outbounds ++ endpoints
  notReady : ¬ deps.Ready (m.outbounds ++ endpoints) o.tag
  nodup : path.Nodup
  sub : path ⊆ (m.outbounds ++ endpoints).map Outbound.tag
  last : path.getLast? = some o.tag
  chain : path.IsChain (deps.Needs (m.outbounds ++ endpoints))

theorem Walk.walked (hindexed : Indexed tag m.outbounds m.outboundByTag)
    (h : Walk m endpoints path o) : Walked m endpoints path o := by
  induction h with
  | @first before after o hsplit hbefore ho =>
    have hmem : o ∈ m.outbounds ++ endpoints := by
      rw [hsplit]
      simp
    exact ⟨hmem, ho, nodup_singleton _, by simpa using mem_map_of_mem hmem, rfl, .singleton _⟩
  | @next path o o' d _ hproblem hd hlookup ih =>
    obtain ⟨_, _, _, _, hready⟩ := id hproblem
    have hmem : o' ∈ m.outbounds ++ endpoints := mem_append_left _ (hindexed.mem_of_lookup hlookup)
    obtain rfl := hindexed.key_of_lookup hlookup
    refine ⟨hmem, hready, ?_, ?_, by simp, ?_⟩
    · exact nodup_append.2 ⟨ih.nodup, nodup_singleton _, fun t ht t' ht' => by
        rw [mem_singleton.1 ht']
        rintro rfl
        exact hd ht⟩
    · exact append_subset.2 ⟨ih.sub, by simpa using mem_map_of_mem hmem⟩
    · refine .append ih.chain (.singleton _) fun t ht t' ht' => ?_
      rw [ih.last] at ht
      cases ht
      cases ht'
      exact ⟨o, ih.mem, rfl, hproblem.mem⟩

theorem Walk.unique (h : Walk m endpoints path o)
    (h' : Walk m endpoints path' o') (hlength : path.length = path'.length) : path = path' ∧ o = o' := by
  induction h generalizing path' o' with
  | first hsplit hbefore ho =>
    cases h' with
    | first hsplit' hbefore' ho' =>
      obtain rfl := first_unique
        (hsplit.symm.trans hsplit') hbefore ho hbefore' ho'
      exact ⟨rfl, rfl⟩
    | next hwalk' _ _ _ => cases hwalk' <;> simp at hlength
  | next hwalk hproblem hd hlookup ih =>
    cases h' with
    | first hsplit' hbefore' ho' => cases hwalk <;> simp at hlength
    | next hwalk' hproblem' hd' hlookup' =>
      obtain ⟨rfl, rfl⟩ := ih hwalk' (by simpa using hlength)
      obtain rfl := hproblem.unique hproblem'
      rw [hlookup] at hlookup'
      cases hlookup'
      exact ⟨rfl, rfl⟩

/-- A walk that goes no further: its problem has occurred before, or is no outbound. -/
structure WalkEnds (m : Manager) (endpoints : List Outbound) (path : List String) (o : Outbound) (d : String) :
    Prop where
  walk : Walk m endpoints path o
  problem : FirstProblem (m.outbounds ++ endpoints) o d
  ends : d ∈ path ∨ m.outboundByTag.lookup d = none

theorem WalkEnds.length_le
    (h : WalkEnds m endpoints path o d) (h' : Walk m endpoints path' o') : path'.length ≤ path.length := by
  induction h' with
  | first => cases h.walk <;> simp
  | @next path' o' _ d' hwalk' hproblem' hd' hlookup' ih =>
    have hne : path'.length ≠ path.length := by
      intro hlength
      obtain ⟨rfl, rfl⟩ := hwalk'.unique h.walk hlength
      obtain rfl := hproblem'.unique h.problem
      rcases h.ends with hmem | hnone
      · exact hd' hmem
      · rw [hlookup'] at hnone
        cases hnone
    rw [length_append, length_singleton]
    omega

theorem WalkEnds.unique {d' : String}
    (h : WalkEnds m endpoints path o d) (h' : WalkEnds m endpoints path' o' d') : path = path' ∧ o = o' ∧ d = d' := by
  obtain ⟨rfl, rfl⟩ := h.walk.unique h'.walk (le_antisymm (h'.length_le h.walk) (h.length_le h'.walk))
  exact ⟨rfl, rfl, h.problem.unique h'.problem⟩

/-- What the walk reports at its end. -/
inductive Diagnosed (m : Manager) (endpoints : List Outbound) : StartError E → Prop
  | circular {path : List String} {o : Outbound} {d : String} : WalkEnds m endpoints path o d → d ∈ path →
      Diagnosed m endpoints (.circular path d)
  | notFound {path : List String} {o : Outbound} {d : String} : WalkEnds m endpoints path o d → d ∉ path →
      Diagnosed m endpoints (.notFound d o.tag)

theorem diagnosed_lintOutbound (hindexed : Indexed tag m.outbounds m.outboundByTag)
    (hstarted : ∀ t, isStarted started t = true ↔ deps.Ready (m.outbounds ++ endpoints) t)
    (hwalk : Walk m endpoints path o) {fuel : Nat}
    (hfuel : (m.outbounds ++ endpoints).length < path.length + fuel) :
    ∃ err : StartError E, lintOutbound m.outboundByTag started fuel path o = .done err ∧ Diagnosed m endpoints err := by
  induction fuel generalizing path o with
  | zero =>
    have hwalked := hwalk.walked hindexed
    have hle := (hwalked.nodup.subperm hwalked.sub).length_le
    rw [length_map] at hle
    omega
  | succ fuel ih =>
    have hwalked := hwalk.walked hindexed
    obtain ⟨d, hfind⟩ : ∃ d, o.dependencies.find? (!isStarted started ·) = some d := by
      rw [← isSome_iff_exists, find?_isSome]
      by_contra hall
      refine hwalked.notReady (.intro hwalked.mem fun d hd => (hstarted d).1 ?_)
      by_contra hd'
      exact hall ⟨d, hd, by simpa using hd'⟩
    have hproblem : FirstProblem (m.outbounds ++ endpoints) o d := (find?_eq_some_iff hstarted).1 hfind
    have htag : (o.dependencies.find? (!isStarted started ·)).getD "" = d := by rw [hfind, getD_some]
    simp only [lintOutbound, contains_iff_mem]
    rw [htag]
    by_cases hd : d ∈ path
    · rw [if_pos hd]
      exact ⟨_, rfl, .circular ⟨hwalk, hproblem, .inl hd⟩ hd⟩
    · rw [if_neg hd]
      cases hlookup : m.outboundByTag.lookup d with
      | none => exact ⟨_, rfl, .notFound ⟨hwalk, hproblem, .inr hlookup⟩ hd⟩
      | some o' =>
        refine ih (hwalk.next hproblem hd hlookup) ?_
        simp only [length_append, length_singleton] at hfuel ⊢
        omega

/-! ## The loop -/

theorem length_le_of_tags {l l' : List Outbound} (hnodup : (l.map tag).Nodup)
    (hsub : l.map tag ⊆ l'.map tag) : l.length ≤ l'.length := by
  simpa using (hnodup.subperm hsub).length_le

/-- How `startOutbounds` ends. -/
inductive Ends (m : Manager) (endpoints : List Outbound) (start : Outbound → Option E) : Started E → Prop
  | success {started : List Outbound} : StartedWell (m.outbounds ++ endpoints) start started →
      started.length = (m.outbounds ++ endpoints).length → Ends m endpoints start ⟨started, none⟩
  | failed {started : List Outbound} {o : Outbound} {err : E} : StartedWell (m.outbounds ++ endpoints) start started →
      CanStart (m.outbounds ++ endpoints) started o → start o = some err →
      Ends m endpoints start ⟨started ++ [o], some (.start o err)⟩
  | stuck {started : List Outbound} {err : StartError E} : StartedWell (m.outbounds ++ endpoints) start started →
      (∀ t, t ∈ started.map Outbound.tag ↔ deps.Ready (m.outbounds ++ endpoints) t) →
      Diagnosed m endpoints err → Ends m endpoints start ⟨started, some err⟩

theorem ends_startLoop (hindexed : Indexed Outbound.tag m.outbounds m.outboundByTag)
    (htags : ((m.outbounds ++ endpoints).map Outbound.tag).Nodup) {lintFuel : Nat}
    (hlint : (m.outbounds ++ endpoints).length < 1 + lintFuel)
    (h : StartedWell (m.outbounds ++ endpoints) start started) {fuel : Nat}
    (hfuel : (m.outbounds ++ endpoints).length < started.length + fuel) :
    ∃ r, startLoop m.outboundByTag (m.outbounds ++ endpoints) start lintFuel fuel started = .done r ∧
      Ends m endpoints start r := by
  induction fuel generalizing started with
  | zero =>
    have hle := length_le_of_tags h.nodup (map_subset _ h.sub)
    omega
  | succ fuel ih =>
    have hswept := swept_sweep (List.Subset.refl _) (s := { started }) h
    rw [startLoop]
    generalize sweep start (m.outbounds ++ endpoints) { started } = r at hswept
    cases hswept with
    | failed hwell hcan herr => exact ⟨_, rfl, .failed hwell hcan herr⟩
    | @continues s' hwell hcan hlt =>
      simp only [hcan, if_true]
      split
      · rename_i hlength
        exact ⟨_, rfl, .success hwell hlength⟩
      · refine ih hwell ?_
        simp only at hlt
        omega
    | stable hstable =>
      simp only
      by_cases hlength : started.length = (m.outbounds ++ endpoints).length
      · rw [if_pos hlength]
        exact ⟨_, rfl, .success h hlength⟩
      · rw [if_neg hlength]
        have hready : ∀ t, t ∈ started.map Outbound.tag ↔ deps.Ready (m.outbounds ++ endpoints) t :=
          fun t => ⟨h.inOrder.ready h.sub t, fun ht => Deps.Ready.mem_of_stable (g := deps) hstable ht⟩
        -- not all are started, so there is one that is not
        obtain ⟨o, hfind⟩ : ∃ o, (m.outbounds ++ endpoints).find? (!isStarted started ·.tag) = some o := by
          rw [← isSome_iff_exists, find?_isSome]
          by_contra hall
          refine hlength (le_antisymm (length_le_of_tags h.nodup (map_subset _ h.sub))
            (length_le_of_tags htags fun t ht => ?_))
          obtain ⟨o, ho, rfl⟩ := mem_map.1 ht
          by_contra hfresh
          exact hall ⟨o, ho, by simpa [← isStarted_iff] using hfresh⟩
        rw [hfind]
        obtain ⟨before, after, hsplit, hbefore, ho⟩ := (find?_eq_some_iff
          (P := fun o : Outbound => deps.Ready (m.outbounds ++ endpoints) o.tag)
          fun o => isStarted_iff.trans (hready o.tag)).1 hfind
        obtain ⟨err, hlintOutbound, hdiagnosed⟩ := diagnosed_lintOutbound hindexed
          (fun t => isStarted_iff.trans (hready t)) (.first hsplit hbefore ho) hlint
        refine ⟨⟨started, some err⟩, ?_, .stuck h hready hdiagnosed⟩
        simp [hlintOutbound]

/-! ## Results -/

/-- What is needed of the outbounds to start them all. -/
structure Startable (outbounds : List Outbound) (start : Outbound → Option E) : Prop where
  complete : deps.Complete outbounds
  acyclic : deps.Acyclic outbounds
  succeed : ∀ o ∈ outbounds, start o = none

/-- An outbound that can be started fails to. -/
def Fails (outbounds : List Outbound) (start : Outbound → Option E) : Prop :=
  ∃ o ∈ outbounds, deps.Ready outbounds o.tag ∧ start o ≠ none

variable {r : Started E}

theorem Ends.inOrder (h : Ends m endpoints start r) : (r.outbounds.map tag).Nodup ∧
    r.outbounds ⊆ m.outbounds ++ endpoints ∧ deps.InOrder r.outbounds := by
  cases h with
  | success hwell _ | stuck hwell _ _ => exact ⟨hwell.nodup, hwell.sub, hwell.inOrder⟩
  | failed hwell hcan _ => exact hcan.order hwell

theorem StartedWell.perm (h : StartedWell outbounds start started)
    (hlength : started.length = outbounds.length) : started.Perm outbounds :=
  (h.nodup.of_map.subperm h.sub).perm_of_length_le hlength.ge

theorem StartedWell.startable (h : StartedWell outbounds start started)
    (htags : (outbounds.map tag).Nodup) (hlength : started.length = outbounds.length) :
    Startable outbounds start := by
  have hmem : ∀ o ∈ outbounds, o ∈ started := fun o ho => (h.perm hlength).mem_iff.2 ho
  have hready : ∀ o ∈ outbounds, deps.Ready outbounds (deps.key o) :=
    fun o ho => h.inOrder.ready h.sub _ (mem_map_of_mem (hmem o ho))
  obtain ⟨hcomplete, hacyclic⟩ := (Deps.ready_all_iff htags).1 hready
  exact ⟨hcomplete, hacyclic, fun o ho => h.succeeded o (hmem o ho)⟩

theorem Startable.not_walk (h : Startable (m.outbounds ++ endpoints) start)
    (hindexed : Indexed tag m.outbounds m.outboundByTag) : ¬ Walk m endpoints path o := by
  intro hwalk
  have hwalked := hwalk.walked hindexed
  exact hwalked.notReady (Deps.ready_of_acyclic h.complete h.acyclic (mem_map_of_mem hwalked.mem))

theorem Diagnosed.walkEnds (h : Diagnosed m endpoints err) : ∃ path o d, WalkEnds m endpoints path o d := by
  cases h with
  | circular hends _ | notFound hends _ => exact ⟨_, _, _, hends⟩

theorem Ends.perm (h : Ends m endpoints start r) (herr : r.err = none) : r.outbounds.Perm (m.outbounds ++ endpoints) := by
  cases h with
  | success hwell hlength => exact hwell.perm hlength
  | failed _ _ _ => cases herr
  | stuck _ _ _ => cases herr

section

variable (hindexed : Indexed Outbound.tag m.outbounds m.outboundByTag)
  (htags : ((m.outbounds ++ endpoints).map Outbound.tag).Nodup)

include hindexed htags

theorem Ends.err_eq_none_iff (h : Ends m endpoints start r) :
    r.err = none ↔ Startable (m.outbounds ++ endpoints) start := by
  cases h with
  | success hwell hlength => exact iff_of_true rfl (hwell.startable htags hlength)
  | failed _ hcan herr =>
    refine iff_of_false nofun fun hstartable => ?_
    rw [hstartable.succeed _ hcan.mem] at herr
    cases herr
  | stuck _ _ hdiagnosed =>
    refine iff_of_false nofun fun hstartable => ?_
    obtain ⟨path, o, d, hends⟩ := hdiagnosed.walkEnds
    exact hstartable.not_walk hindexed hends.walk

/-- What holds of the errors depends on the walk, unless an outbound fails to start. -/
theorem Ends.forall_err_iff (h : Ends m endpoints start r) {P : StartError E → Prop} {Q : Prop}
    (hstart : ∀ o err, o ∈ m.outbounds ++ endpoints → start o = some err → P (.start o err))
    (hwalk : ∀ err, Diagnosed m endpoints err → (P err ↔ Q)) (hnone : (∀ path o, ¬ Walk m endpoints path o) → Q) :
    (∀ err, r.err = some err → P err) ↔ Fails (m.outbounds ++ endpoints) start ∨ Q := by
  cases h with
  | success hwell hlength =>
    have hstartable := hwell.startable htags hlength
    exact iff_of_true nofun (.inr (hnone fun path o => hstartable.not_walk hindexed))
  | @failed started o err hwell hcan herr =>
    refine iff_of_true ?_ (.inl ⟨o, hcan.mem, .intro hcan.mem fun d hd => ?_, ?_⟩)
    · rintro _ ⟨⟩
      exact hstart o err hcan.mem herr
    · exact hwell.inOrder.ready hwell.sub d (hcan.needs d hd)
    · rw [herr]
      nofun
  | @stuck started err hwell hready hdiagnosed =>
    have hfails : ¬ Fails (m.outbounds ++ endpoints) start := by
      rintro ⟨o, ho, hoready, herr⟩
      obtain ⟨o', ho', htag⟩ := mem_map.1 ((hready o.tag).2 hoready)
      obtain rfl := inj_on_of_nodup_map htags (hwell.sub ho') ho htag
      exact herr (hwell.succeeded o' ho')
    rw [or_iff_right hfails, ← hwalk err hdiagnosed]
    simp

theorem Diagnosed.truthful_iff (h : Diagnosed m endpoints err) :
    err.Truthful (m.outbounds ++ endpoints) start ↔ m.NoEndpointProblem endpoints := by
  -- an endpoint is no outbound, so the walk ends at it
  have hendpoint : ∀ d ∈ endpoints.map tag, m.outboundByTag.lookup d = none := by
    intro d hd
    rw [eq_none_iff_forall_ne_some]
    intro o hlookup
    rw [map_append] at htags
    refine (nodup_append.1 htags).2.2 d ?_ d hd rfl
    exact mem_map.2 ⟨o, hindexed.mem_of_lookup hlookup, hindexed.key_of_lookup hlookup⟩
  have hproblem : ∀ {path : List String} {o : Outbound} {d : String}, WalkEnds m endpoints path o d →
      deps.Needs (m.outbounds ++ endpoints) o.tag d :=
    fun hends => ⟨_, (hends.walk.walked hindexed).mem, rfl, hends.problem.mem⟩
  cases h with
  | @circular path o d hends hd =>
    refine iff_of_true ⟨hd, ?_⟩ ?_
    · have hwalked := hends.walk.walked hindexed
      refine hwalked.chain.append (.singleton _) fun t ht t' ht' => ?_
      rw [hwalked.last] at ht
      cases ht
      cases ht'
      exact hproblem hends
    · intro path' o' d' hwalk' hproblem' hd' hmem
      obtain ⟨rfl, rfl, rfl⟩ := hends.unique ⟨hwalk', hproblem', .inr (hendpoint d' hmem)⟩
      exact hd' hd
  | @notFound path o d hends hd =>
    constructor
    · rintro ⟨-, hmissing⟩ path' o' d' hwalk' hproblem' hd' hmem
      obtain ⟨rfl, rfl, rfl⟩ := hends.unique ⟨hwalk', hproblem', .inr (hendpoint d' hmem)⟩
      rw [map_append] at hmissing
      exact hmissing (mem_append_right _ hmem)
    · intro hno
      refine ⟨hproblem hends, fun hmem => ?_⟩
      rw [map_append, mem_append] at hmem
      rcases hmem with hmem | hmem
      · obtain ⟨o', ho', rfl⟩ := mem_map.1 hmem
        have hnone := hends.ends.resolve_left hd
        rw [hindexed.lookup_of_mem ho'] at hnone
        cases hnone
      · exact hno path o d hends.walk hends.problem hd hmem

end

theorem Diagnosed.closed_iff (h : Diagnosed m endpoints err) : err.Closed ↔ m.ReturnsToFirst endpoints := by
  cases h with
  | @circular path o d hends hd =>
    constructor
    · intro hclosed path' o' d' hwalk' hproblem' hd'
      obtain ⟨rfl, rfl, rfl⟩ := hends.unique ⟨hwalk', hproblem', .inl hd'⟩
      exact hclosed
    · intro hreturns
      exact hreturns path o d hends.walk hends.problem hd
  | @notFound path o d hends hd =>
    refine iff_of_true trivial fun path' o' d' hwalk' hproblem' hd' => ?_
    obtain ⟨rfl, rfl, rfl⟩ := hends.unique ⟨hwalk', hproblem', .inl hd'⟩
    exact absurd hd' hd

/-- `startOutbounds` returns. It starts no outbound twice and none before what it depends
on, and all of them if and only if nothing is missing, nothing is circular and all
succeed; else it returns an error. The error is truthful if and only if an outbound that
can be started fails to, or the walk comes to no endpoint that cannot be started; and a
path that is reported is a cycle as a whole if and only if the walk comes back to where it
began. -/
theorem startOutbounds_sound_iff (m : Manager) (endpoints : List Outbound) (start : Outbound → Option E)
    (hindexed : Indexed tag m.outbounds m.outboundByTag)
    (htags : ((m.outbounds ++ endpoints).map tag).Nodup) (fuel : Nat)
    (hfuel : (m.outbounds ++ endpoints).length < fuel) :
    ∃ r, m.startOutbounds endpoints start fuel = .done r ∧
      ((r.outbounds.map tag).Nodup ∧ r.outbounds ⊆ m.outbounds ++ endpoints ∧ deps.InOrder r.outbounds) ∧
      (Startable (m.outbounds ++ endpoints) start → r.err = none ∧ r.outbounds.Perm (m.outbounds ++ endpoints)) ∧
      (¬ Startable (m.outbounds ++ endpoints) start → ∃ err, r.err = some err) ∧
      ((∀ err, r.err = some err → err.Truthful (m.outbounds ++ endpoints) start) ↔
        Fails (m.outbounds ++ endpoints) start ∨ m.NoEndpointProblem endpoints) ∧
      ((∀ err, r.err = some err → err.Truthful (m.outbounds ++ endpoints) start ∧ err.Closed) ↔
        Fails (m.outbounds ++ endpoints) start ∨ m.NoEndpointProblem endpoints ∧ m.ReturnsToFirst endpoints) := by
  obtain ⟨r, hr, hends⟩ := ends_startLoop hindexed htags (Nat.lt_add_left 1 hfuel) (StartedWell.nil _ start)
    (Nat.lt_add_left 0 hfuel)
  have herr := hends.err_eq_none_iff hindexed htags
  refine ⟨r, hr, hends.inOrder, fun hstartable => ?_, fun hstartable => ?_, ?_, ?_⟩
  · exact ⟨herr.2 hstartable, hends.perm (herr.2 hstartable)⟩
  · exact ne_none_iff_exists'.1 fun hnone => hstartable (herr.1 hnone)
  · refine hends.forall_err_iff hindexed htags (fun o err ho herr => ⟨ho, herr⟩)
      (fun err hdiagnosed => hdiagnosed.truthful_iff hindexed htags) fun hnone path o d hwalk => ?_
    exact absurd hwalk (hnone path o)
  · refine hends.forall_err_iff hindexed htags (fun o err ho herr => ⟨⟨ho, herr⟩, trivial⟩)
      (fun err hdiagnosed => and_congr (hdiagnosed.truthful_iff hindexed htags) hdiagnosed.closed_iff) fun hnone => ?_
    exact ⟨fun path o d hwalk => absurd hwalk (hnone path o), fun path o d hwalk => absurd hwalk (hnone path o)⟩

/-- The manager of some outbounds. -/
def managerOf (outbounds : List Outbound) : Manager :=
  { outbounds, outboundByTag := outbounds.foldl (fun byTag o => byTag.insert o.tag o) ∅ }

def sampleOutbound (tag : String) (dependencies : List String) : Outbound :=
  { ref := 0, type := "direct", tag, dependencies }

theorem startable_pair :
    Startable [sampleOutbound "a" ["e"], sampleOutbound "e" []] fun _ => (none : Option Unit) := by
  have hendpoint : deps.InOrder [sampleOutbound "e" []] := .snoc .nil nofun
  have hwell : StartedWell [sampleOutbound "a" ["e"], sampleOutbound "e" []] (fun _ => (none : Option Unit))
      [sampleOutbound "e" [], sampleOutbound "a" ["e"]] :=
    ⟨by simp, by decide, .snoc hendpoint (by decide), fun _ _ => rfl⟩
  exact hwell.startable (by decide) rfl

theorem startOutbounds_sound_pair : ∃ r : Started Unit,
    (managerOf [sampleOutbound "a" ["e"]]).startOutbounds [sampleOutbound "e" []] (fun _ => none) 3 = .done r ∧
      r.err = none ∧ r.outbounds.Perm [sampleOutbound "a" ["e"], sampleOutbound "e" []] := by
  obtain ⟨r, hr, -, hsuccess, -⟩ := startOutbounds_sound_iff (managerOf [sampleOutbound "a" ["e"]])
    [sampleOutbound "e" []] (fun _ => (none : Option Unit)) ((Indexed.empty _).append rfl) (by decide) 3 (by decide)
  exact ⟨r, hr, hsuccess startable_pair⟩

/-- An outbound and an endpoint depend on each other, and the endpoint is reported as not
found. An outbound that depends on itself is reported with another one before it. -/
theorem startOutbounds_misreports :
    (∃ r : Started Unit,
      (managerOf [sampleOutbound "a" ["e"]]).startOutbounds [sampleOutbound "e" ["a"]] (fun _ => none) 3 = .done r ∧
      r.err.map (StartError.message fun _ => "") = some "dependency[e] not found for outbound[a]" ∧
      ¬ ∀ err, r.err = some err →
        err.Truthful [sampleOutbound "a" ["e"], sampleOutbound "e" ["a"]] fun _ => none) ∧
    ∃ r : Started Unit,
      (managerOf [sampleOutbound "a" ["b"], sampleOutbound "b" ["b"]]).startOutbounds [] (fun _ => none) 3 = .done r ∧
      r.err.map (StartError.message fun _ => "") = some "circular outbound dependency: a -> b -> b" ∧
      ¬ ∀ err, r.err = some err → err.Closed := by
  refine ⟨⟨_, rfl, rfl, fun h => ?_⟩, ⟨_, rfl, rfl, fun h => ?_⟩⟩
  · exact (h _ rfl).2 (by decide)
  · have hhead : some "a" = some "b" := h _ rfl
    exact absurd hhead (by decide)

end Singlink.Outbound
