import Singlink.Adapter.Dependencies
import Singlink.Adapter.Lifecycle
import Singlink.Lib.Indexed
import Singlink.Lib.Runs
/-!
# Runs of the outbound manager

`Start`, `Remove` and `Create` of `adapter/outbound/manager.go`. The manager keeps
its outbounds in a list and in a map, who depends on a tag, and a default
outbound. `startOutbounds` only reads the manager, so how it ends is an argument.
-/

/-- An outbound that the registry has created, told from others by its pointer. -/
structure Singlink.Adapter.Outbound where
  ref : Nat
  type : String
  tag : String
  dependencies : List String
  deriving DecidableEq

namespace Singlink.Outbound

open Adapter Lib List GoMap

/-- An endpoint, which may be the default outbound. -/
structure Endpoint where
  ref : Nat
  tag : String
  deriving DecidableEq

/-- What a manager is given: the tag of the default outbound and the endpoints. -/
structure Config where
  defaultTag : String := ""
  endpointByTag : GoMap String Endpoint := ∅

/-- `Manager`. The next outbound gets the pointer `next`. -/
structure Manager where
  started : Bool := false
  stage : StartStage := .stateInitialize
  outbounds : List Outbound := []
  outboundByTag : GoMap String Outbound := ∅
  dependByTag : DependByTag := ∅
  defaultOutbound : Option (Outbound ⊕ Endpoint) := none
  next : Nat := 0

inductive Error (E : Type) where
  | invalid
  | external (err : E)
  | defaultNotFound (tag : String)
  | fallback (err : E)
  | start (stage : StartStage) (outbound : Outbound) (err : E) (closeErr : Option E)
  | close (existsOutbound : Outbound) (err : E) (outbound : Outbound) (closeErr : Option E)
  | dependedBy (tag : String) (dependBy : List String)

/-- How the calls end that `Start` makes: of the fallback, of `startOutbounds`, and
of the stages other than the start. -/
structure StartOutcome (E : Type) where
  fallback : Option E := none
  startOutbounds : Option E := none
  start : Outbound → Option E := fun _ => none

variable {E : Type} (cfg : Config)

namespace Manager

/-- The default outbound if there is none yet: the endpoint with the default tag,
or else the outbound that `box.go` provides. -/
def startDefault (m : Manager) (outcome : StartOutcome E) : Except (Error E) Manager :=
  if m.defaultOutbound.isSome then .ok m
  else if cfg.defaultTag ≠ "" then
    match cfg.endpointByTag.lookup cfg.defaultTag with
    | none => .error (.defaultNotFound cfg.defaultTag)
    | some defaultEndpoint => .ok { m with defaultOutbound := some (.inr defaultEndpoint) }
  else
    match outcome.fallback with
    | some err => .error (.fallback err)
    | none =>
      let directOutbound : Outbound := { ref := m.next, type := "direct", tag := "direct", dependencies := [] }
      .ok { m with
        outbounds := m.outbounds ++ [directOutbound]
        outboundByTag := m.outboundByTag.insert directOutbound.tag directOutbound
        defaultOutbound := some (.inl directOutbound)
        next := m.next + 1 }

def start (m : Manager) (stage : StartStage) (outcome : StartOutcome E) : Result (Error E) Manager :=
  if m.started ∧ stage.toNat ≤ m.stage.toNat then .panic "already started"
  else
    let m := { m with started := true, stage := stage }
    if stage = .stateStart then
      match m.startDefault cfg outcome with
      | .error err => .returned (some err) m
      | .ok m => .returned (outcome.startOutbounds.map .external) m
    else .returned ((startEach outcome.start m.outbounds).map fun (outbound, err) => .start stage outbound err none) m

def remove (m : Manager) (tag : String) (outcome : Option E) : Result (Error E) Manager :=
  match m.outboundByTag.lookup tag with
  | none => .returned (some .invalid) m
  | some outbound =>
    let dependBy := m.dependByTag.dependents tag
    if !dependBy.isEmpty then .returned (some (.dependedBy tag dependBy)) m
    else if outbound ∉ m.outbounds then .panic "invalid inbound index"
    else
      let outbounds := m.outbounds.erase outbound
      .returned (if m.started then outcome.map .external else none)
        { m with
          outboundByTag := m.outboundByTag.erase tag
          outbounds := outbounds
          defaultOutbound := if m.defaultOutbound = some (.inl outbound) then outbounds.head?.map .inl
            else m.defaultOutbound
          dependByTag := m.dependByTag.remove outbound.tag outbound.dependencies }

/-- The last part of `Create`, which puts the new outbound in its place. -/
def put (m : Manager) (outbound : Outbound) : Manager :=
  { m with
    outbounds := m.outbounds ++ [outbound]
    outboundByTag := m.outboundByTag.insert outbound.tag outbound
    dependByTag := m.dependByTag.add outbound.tag outbound.dependencies
    defaultOutbound :=
      if outbound.tag = cfg.defaultTag ∨ (cfg.defaultTag = "" ∧ m.defaultOutbound = none) then some (.inl outbound)
      else m.defaultOutbound }

def create (m : Manager) (tag outboundType : String) (dependencies : List String) (outcome : CreateOutcome E) :
    Result (Error E) Manager :=
  if tag = "" then .returned (some .invalid) m
  else
    match outcome.registry with
    | some err => .returned (some (.external err)) m
    | none =>
      let outbound : Outbound := { ref := m.next, type := outboundType, tag, dependencies }
      let m := { m with next := m.next + 1 }
      match (if m.started then startStages outcome.start else none) with
      | some (stage, err) => .returned (some (.start stage outbound err outcome.close)) m
      | none =>
        match m.outboundByTag.lookup tag with
        | none => .returned none (m.put cfg outbound)
        | some existsOutbound =>
          match (if m.started then outcome.closeExists else none) with
          | some err => .returned (some (.close existsOutbound err outbound outcome.close)) m
          | none =>
            if existsOutbound ∉ m.outbounds then .panic "invalid inbound index"
            else
              .returned none (put cfg
                { m with
                  dependByTag := m.dependByTag.remove existsOutbound.tag existsOutbound.dependencies
                  outbounds := m.outbounds.erase existsOutbound } outbound)

end Manager

/-! ## Runs -/

inductive Op (E : Type) where
  | start (stage : StartStage) (outcome : StartOutcome E)
  | remove (tag : String) (outcome : Option E)
  | create (tag outboundType : String) (dependencies : List String) (outcome : CreateOutcome E)

def Manager.call (m : Manager) : Op E → Result (Error E) Manager
  | .start stage outcome => m.start cfg stage outcome
  | .remove tag outcome => m.remove tag outcome
  | .create tag outboundType dependencies outcome => m.create cfg tag outboundType dependencies outcome

def managerSystem (cfg : Config) (E : Type) : System Manager (Op E) :=
  .ofPartial (· = {}) fun m op => (m.call cfg op).after?

def dependenciesOf (outboundByTag : GoMap String Outbound) (tag : String) : List String :=
  ((outboundByTag.lookup tag).map Outbound.dependencies).getD []

def Manager.Registered (m : Manager) : Outbound ⊕ Endpoint → Prop
  | .inl outbound => outbound ∈ m.outbounds
  | .inr endpoint => ∃ tag, cfg.endpointByTag.lookup tag = some endpoint

/-- The list, the map and who depends on a tag agree. -/
structure Manager.Agrees (m : Manager) : Prop where
  indexed : Indexed Outbound.tag m.outbounds m.outboundByTag
  fresh : ∀ outbound ∈ m.outbounds, outbound.ref < m.next
  records : m.dependByTag.Records (dependenciesOf m.outboundByTag)

structure Manager.Consistent (m : Manager) : Prop extends m.Agrees where
  default : ∀ d, m.defaultOutbound = some d → m.Registered cfg d
  noDefault : cfg.defaultTag = "" → m.defaultOutbound = none → m.outbounds = []

/-- No other outbound is forgotten with the one that has the tag, and the default
outbound is not replaced unless it is the one that was asked for. -/
def Op.Careful (m : Manager) : Op E → Prop
  | .start _ _ => True
  | .remove tag _ => m.dependByTag.KeepsOthers tag (dependenciesOf m.outboundByTag tag)
  | .create tag _ _ _ => m.dependByTag.KeepsOthers tag (dependenciesOf m.outboundByTag tag) ∧
      ∀ outbound, m.outboundByTag.lookup tag = some outbound → m.defaultOutbound = some (.inl outbound) →
        tag = cfg.defaultTag

/-! ## Updates -/

variable (outboundByTag : GoMap String Outbound)

theorem dependenciesOf_insert (tag : String) (outbound : Outbound) :
    dependenciesOf (outboundByTag.insert tag outbound) =
      Function.update (dependenciesOf outboundByTag) tag outbound.dependencies := by
  funext tag'
  rw [dependenciesOf, lookup_insert_eq, Function.update_apply]
  split <;> rfl

theorem dependenciesOf_erase (tag : String) :
    dependenciesOf (outboundByTag.erase tag) = Function.update (dependenciesOf outboundByTag) tag [] := by
  funext tag'
  rw [dependenciesOf, lookup_erase_eq, Function.update_apply]
  split <;> rfl

namespace Manager

variable {cfg} {m : Manager}

/-- The manager without an outbound, apart from the default outbound. -/
def without (m : Manager) (outbound : Outbound) : Manager :=
  { m with
    outboundByTag := m.outboundByTag.erase outbound.tag
    outbounds := m.outbounds.erase outbound
    dependByTag := m.dependByTag.remove outbound.tag outbound.dependencies }

theorem Agrees.next (h : m.Agrees) : Agrees { m with next := m.next + 1 } :=
  ⟨h.indexed, fun outbound houtbound => Nat.lt_succ_of_lt (h.fresh outbound houtbound), h.records⟩

variable {outbound : Outbound}

theorem Agrees.without (h : m.Agrees) (hlookup : m.outboundByTag.lookup outbound.tag = some outbound)
    (hkeeps : m.dependByTag.KeepsOthers outbound.tag (dependenciesOf m.outboundByTag outbound.tag)) :
    (m.without outbound).Agrees where
  indexed := h.indexed.erase hlookup
  fresh other hother := h.fresh other (mem_of_mem_erase hother)
  records := by
    have hdeps : dependenciesOf m.outboundByTag outbound.tag = outbound.dependencies := by
      rw [dependenciesOf, hlookup]
      rfl
    have hremove := h.records.remove hkeeps
    rw [hdeps] at hremove
    rw [Manager.without, dependenciesOf_erase]
    exact hremove

theorem Agrees.put (h : m.Agrees) (hlookup : m.outboundByTag.lookup outbound.tag = none)
    (hfresh : outbound.ref < m.next) : (m.put cfg outbound).Agrees where
  indexed := h.indexed.append hlookup
  fresh := forall_mem_append.2 ⟨h.fresh, forall_mem_singleton.2 hfresh⟩
  records := by
    have hdeps : dependenciesOf m.outboundByTag outbound.tag = [] := by
      rw [dependenciesOf, hlookup]
      rfl
    rw [Manager.put, dependenciesOf_insert]
    exact h.records.add hdeps outbound.dependencies

theorem put_without (cfg : Config) (m : Manager) (existsOutbound outbound : Outbound) (htag : existsOutbound.tag = outbound.tag) :
    put cfg
      { m with
        dependByTag := m.dependByTag.remove existsOutbound.tag existsOutbound.dependencies
        outbounds := m.outbounds.erase existsOutbound } outbound = (m.without existsOutbound).put cfg outbound := by
  simp only [put, without, htag, insert_erase]

theorem default_put {m : Manager}
    (h : ∀ d, m.defaultOutbound = some d → m.Registered cfg d ∨ outbound.tag = cfg.defaultTag) :
    (∀ d, (m.put cfg outbound).defaultOutbound = some d → (m.put cfg outbound).Registered cfg d) ∧
      (cfg.defaultTag = "" → (m.put cfg outbound).defaultOutbound ≠ none) := by
  have hself : (m.put cfg outbound).Registered cfg (.inl outbound) :=
    mem_append_right _ (mem_singleton.2 rfl)
  by_cases hcond : outbound.tag = cfg.defaultTag ∨ (cfg.defaultTag = "" ∧ m.defaultOutbound = none)
  · have hdefault : (m.put cfg outbound).defaultOutbound = some (.inl outbound) := if_pos hcond
    rw [hdefault]
    refine ⟨?_, nofun⟩
    rintro _ ⟨⟩
    exact hself
  · have hdefault : (m.put cfg outbound).defaultOutbound = m.defaultOutbound := if_neg hcond
    rw [hdefault]
    constructor
    · intro d hd
      rcases h d hd with hregistered | htag
      · cases d with
        | inl other => exact mem_append_left _ hregistered
        | inr endpoint => exact hregistered
      · exact absurd (.inl htag) hcond
    · intro hempty hnone
      exact hcond (.inr ⟨hempty, hnone⟩)

/-! ## Steps -/

theorem Consistent.startDefault (h : m.Consistent cfg) (outcome : StartOutcome E) {m' : Manager}
    (hm' : m.startDefault cfg outcome = .ok m') : m'.Consistent cfg := by
  unfold Manager.startDefault at hm'
  split at hm'
  · cases hm'
    exact h
  · rename_i hnone
    have hnone : m.defaultOutbound = none := by simpa using hnone
    split at hm'
    · split at hm'
      · cases hm'
      · rename_i htag _ endpoint hendpoint
        cases hm'
        refine ⟨⟨h.indexed, h.fresh, h.records⟩, ?_, fun hempty => absurd hempty htag⟩
        rintro _ ⟨⟩
        exact ⟨_, hendpoint⟩
    · rename_i htag
      split at hm'
      · cases hm'
      · -- there are no outbounds yet
        cases hm'
        have hempty : m.outbounds = [] := h.noDefault (not_not.1 htag) hnone
        have hlookup : m.outboundByTag.lookup "direct" = none := h.indexed.lookup_eq_none hempty "direct"
        have hput : Agrees (put cfg { m with next := m.next + 1 }
            { ref := m.next, type := "direct", tag := "direct", dependencies := [] }) :=
          h.toAgrees.next.put hlookup (Nat.lt_succ_self m.next)
        refine ⟨⟨hput.indexed, hput.fresh, hput.records⟩, ?_, nofun⟩
        rintro _ ⟨⟩
        exact mem_append_right _ (mem_singleton.2 rfl)

theorem Consistent.start_ends (h : m.Consistent cfg) (stage : StartStage) (outcome : StartOutcome E) :
    (m.start cfg stage outcome).Ends fun _ m' => m'.Consistent cfg := by
  have hstarted : Consistent cfg { m with started := true, stage := stage } :=
    ⟨⟨h.indexed, h.fresh, h.records⟩, h.default, h.noDefault⟩
  unfold start
  split
  · rfl
  · simp only
    split
    · split
      · exact hstarted
      · rename_i m' hm'
        exact hstarted.startDefault outcome hm'
    · exact hstarted

theorem Consistent.remove_ends (h : m.Consistent cfg) {tag : String} (outcome : Option E)
    (hkeeps : m.dependByTag.KeepsOthers tag (dependenciesOf m.outboundByTag tag)) :
    (m.remove tag outcome).Ends fun _ m' => m'.Consistent cfg := by
  unfold remove
  split
  · exact h
  · rename_i outbound hlookup
    have htag := h.indexed.key_of_lookup hlookup
    subst htag
    simp only
    split
    · exact h
    · rw [if_neg (not_not_intro (h.indexed.mem_of_lookup hlookup))]
      have hwithout := h.toAgrees.without hlookup hkeeps
      refine ⟨⟨hwithout.indexed, hwithout.fresh, hwithout.records⟩, ?_, ?_⟩
      · intro d hd
        split at hd
        · -- the first of those that are left
          obtain ⟨first, hfirst, rfl⟩ := Option.map_eq_some_iff.1 hd
          exact mem_of_mem_head? hfirst
        · rename_i hother
          cases d with
          | inl other =>
            refine (h.indexed.nodup.mem_erase_iff).2 ⟨?_, h.default _ hd⟩
            rintro rfl
            exact hother hd
          | inr endpoint => exact h.default _ hd
      · intro hempty hnone
        split at hnone
        · exact head?_eq_none_iff.1 (Option.map_eq_none_iff.1 hnone)
        · show m.outbounds.erase outbound = []
          rw [h.noDefault hempty hnone]
          rfl

theorem Agrees.consistent_put (h : m.Agrees)
    (hlookup : m.outboundByTag.lookup outbound.tag = none) (hfresh : outbound.ref < m.next)
    (hdefault : ∀ d, m.defaultOutbound = some d → m.Registered cfg d ∨ outbound.tag = cfg.defaultTag) :
    (m.put cfg outbound).Consistent cfg :=
  have hput := default_put hdefault
  ⟨h.put hlookup hfresh, hput.1, fun hempty hnone => absurd hnone (hput.2 hempty)⟩

theorem Consistent.create_ends (h : m.Consistent cfg) {tag : String} (outboundType : String) (dependencies : List String)
    (outcome : CreateOutcome E) (hkeeps : m.dependByTag.KeepsOthers tag (dependenciesOf m.outboundByTag tag))
    (hreplaced : ∀ outbound, m.outboundByTag.lookup tag = some outbound → m.defaultOutbound = some (.inl outbound) →
      tag = cfg.defaultTag) :
    (m.create cfg tag outboundType dependencies outcome).Ends fun _ m' => m'.Consistent cfg := by
  have hagrees := h.toAgrees.next
  have hnext : Consistent cfg { m with next := m.next + 1 } := ⟨hagrees, h.default, h.noDefault⟩
  unfold create
  split
  · exact h
  · split
    · exact h
    · simp only
      split
      · exact hnext
      · split
        · rename_i hlookup
          exact hagrees.consistent_put hlookup (Nat.lt_succ_self _) fun d hd => .inl (h.default d hd)
        · rename_i existsOutbound hlookup
          split
          · exact hnext
          · rw [if_neg (not_not_intro (h.indexed.mem_of_lookup hlookup))]
            have htag := h.indexed.key_of_lookup hlookup
            subst htag
            have hput := put_without cfg { m with next := m.next + 1 } existsOutbound
              { ref := m.next, type := outboundType, tag := existsOutbound.tag, dependencies } rfl
            rw [hput]
            refine (hagrees.without hlookup hkeeps).consistent_put ?_ (Nat.lt_succ_self _) fun d hd => ?_
            · exact (lookup_erase_eq _ _ _).trans (if_pos rfl)
            · cases d with
              | inr endpoint => exact .inl (h.default _ hd)
              | inl other =>
                by_cases hsame : other = existsOutbound
                · subst hsame
                  exact .inr (hreplaced other hlookup hd)
                · exact .inl ((h.indexed.nodup.mem_erase_iff).2 ⟨hsame, h.default _ hd⟩)

theorem Consistent.call_ends (h : m.Consistent cfg) (op : Op E) (hop : op.Careful cfg m) :
    (m.call cfg op).Ends fun _ m' => m'.Consistent cfg := by
  cases op with
  | start stage outcome => exact h.start_ends stage outcome
  | remove tag outcome => exact h.remove_ends outcome hop
  | create tag outboundType dependencies outcome => exact h.create_ends outboundType dependencies outcome hop.1 hop.2

theorem consistent_new (cfg : Config) : Consistent cfg {} :=
  ⟨⟨.empty _, nofun, DependByTag.records_empty⟩, nofun, fun _ _ => rfl⟩

theorem Agrees.dependents_ne_nil (h : m.Agrees) (tag : String) :
    m.dependByTag.dependents tag ≠ [] ↔ ∃ outbound ∈ m.outbounds, tag ∈ outbound.dependencies := by
  rw [h.records.dependents_ne_nil]
  constructor
  · rintro ⟨tag', hmem⟩
    unfold dependenciesOf at hmem
    cases hlookup : m.outboundByTag.lookup tag' with
    | none =>
      rw [hlookup] at hmem
      cases hmem
    | some outbound =>
      rw [hlookup] at hmem
      exact ⟨outbound, h.indexed.mem_of_lookup hlookup, hmem⟩
  · rintro ⟨outbound, hmem, hdep⟩
    refine ⟨outbound.tag, ?_⟩
    rw [dependenciesOf, h.indexed.lookup_of_mem hmem]
    exact hdep

theorem remove_refuses (m : Manager) (tag : String) (outcome : Option E) :
    (∃ dependBy m', m.remove tag outcome = .returned (some (.dependedBy tag dependBy)) m') ↔
      (m.outboundByTag.lookup tag).isSome ∧ m.dependByTag.dependents tag ≠ [] := by
  unfold remove
  cases hlookup : m.outboundByTag.lookup tag with
  | none => simp
  | some outbound =>
    by_cases hdep : m.dependByTag.dependents tag = []
    · rw [hdep]
      simp only [isEmpty_nil, Bool.not_true, Bool.false_eq_true, if_false, ne_eq, not_true_eq_false, and_false,
        iff_false]
      rintro ⟨dependBy, m', hremove⟩
      split at hremove
      · cases hremove
      · simp only [Result.returned.injEq] at hremove
        obtain ⟨herr, -⟩ := hremove
        split at herr
        · cases outcome <;> cases herr
        · cases herr
    · simp [hdep]

end Manager

/-- What the manager keeps is consistent as long as no outbound is removed or
replaced together with the record of another, and the default outbound is not
replaced unless it is the one that was asked for. -/
theorem outbounds_consistent {m : Manager} (h : Reach (managerSystem cfg E) (fun m op => op.Careful cfg m) m) :
    Indexed Outbound.tag m.outbounds m.outboundByTag ∧
      (∀ tag, m.dependByTag.dependents tag ≠ [] ↔ ∃ outbound ∈ m.outbounds, tag ∈ outbound.dependencies) ∧
      (∀ tag (outcome : Option E),
        (∃ dependBy m', m.remove tag outcome = .returned (some (.dependedBy tag dependBy)) m') ↔
          (m.outboundByTag.lookup tag).isSome ∧ ∃ outbound ∈ m.outbounds, tag ∈ outbound.dependencies) ∧
      ∀ d, m.defaultOutbound = some d → m.Registered cfg d := by
  have hm : m.Consistent cfg := by
    refine h.inv (Manager.Consistent cfg) ?_ ?_
    · rintro _ rfl
      exact Manager.consistent_new cfg
    · intro m op m' hm hop hstep
      obtain ⟨_, hm'⟩ := (hm.call_ends op hop).of_after hstep
      exact hm'
  have hdep := hm.toAgrees.dependents_ne_nil
  refine ⟨hm.indexed, hdep, fun tag outcome => ?_, hm.default⟩
  rw [Manager.remove_refuses, hdep]

/-- Two outbounds of three, one of which depends on the other. -/
def sampleManager : Manager where
  started := true
  stage := .stateStart
  outbounds := [⟨0, "direct", "a", []⟩, ⟨1, "vmess", "b", ["a"]⟩]
  outboundByTag := ((((∅ : GoMap String Outbound).insert "a" ⟨0, "direct", "a", []⟩).insert "b"
    ⟨1, "vmess", "b", ["a"]⟩).insert "c" ⟨2, "vmess", "c", ["a"]⟩).erase "c"
  dependByTag := (((∅ : DependByTag).insert "a" ["b"]).insert "a" ["b", "c"]).insert "a" ["b"]
  defaultOutbound := some (.inl ⟨0, "direct", "a", []⟩)
  next := 3

theorem reach_sampleManager : Reach (managerSystem {} Unit) (fun m op => op.Careful {} m) sampleManager := by
  have hkeeps : ∀ (m : DependByTag) (tag : String) {l : List String}, l.length ≤ 1 → m.KeepsOthers tag l := by
    intro m tag l hl
    exact .of_nodup m tag (nodup_iff_count_le_one.2 fun a => count_le_length.trans hl)
  refine .leads (.init rfl) [.create "a" "direct" [] {}, .start .stateStart {}, .create "b" "vmess" ["a"] {},
    .create "c" "vmess" ["a"] {}, .remove "c" none] ?_
  exact ⟨⟨hkeeps _ _ (by decide), nofun⟩, _, rfl, trivial, _, rfl, ⟨hkeeps _ _ (by decide), nofun⟩, _, rfl,
    ⟨hkeeps _ _ (by decide), nofun⟩, _, rfl, hkeeps _ _ (by decide), _, rfl, rfl⟩

theorem outbounds_consistent_sample :
    Indexed Outbound.tag sampleManager.outbounds sampleManager.outboundByTag ∧
      (∀ tag, sampleManager.dependByTag.dependents tag ≠ [] ↔
        ∃ outbound ∈ sampleManager.outbounds, tag ∈ outbound.dependencies) ∧
      (∀ tag (outcome : Option Unit),
        (∃ dependBy m', sampleManager.remove tag outcome = .returned (some (.dependedBy tag dependBy)) m') ↔
          (sampleManager.outboundByTag.lookup tag).isSome ∧
            ∃ outbound ∈ sampleManager.outbounds, tag ∈ outbound.dependencies) ∧
      ∀ d, sampleManager.defaultOutbound = some d → sampleManager.Registered {} d :=
  outbounds_consistent {} reach_sampleManager

/-- The default outbound stays the one that was replaced, and with an outbound that
names a tag twice another that names it is forgotten. -/
theorem default_replaced_dependent_forgotten :
    (∃ m, Reach (managerSystem {} Unit) (fun _ _ => True) m ∧
      ∃ d, m.defaultOutbound = some d ∧ ¬ m.Registered {} d) ∧
    ∃ m, Reach (managerSystem {} Unit) (fun _ _ => True) m ∧ m.dependByTag.dependents "a" = [] ∧
      ∃ outbound ∈ m.outbounds, "a" ∈ outbound.dependencies := by
  constructor
  · refine ⟨_, .leads (.init rfl) [.create "a" "direct" [] {}, .create "a" "vmess" [] {}]
      ⟨trivial, _, rfl, trivial, _, rfl, rfl⟩, _, rfl, ?_⟩
    show ¬ _ ∈ _
    decide
  · refine ⟨_, .leads (.init rfl) [.create "a" "direct" [] {}, .create "b" "vmess" ["a"] {},
      .create "c" "selector" ["a", "a"] {}, .remove "c" none]
      ⟨trivial, _, rfl, trivial, _, rfl, trivial, _, rfl, trivial, _, rfl, rfl⟩, rfl, ⟨1, "vmess", "b", ["a"]⟩, ?_, ?_⟩
    · decide
    · decide

end Singlink.Outbound
