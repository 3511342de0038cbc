import Singlink.Adapter.Lifecycle
import Singlink.Lib.Indexed
import Singlink.Lib.Runs
/-!
# Runs of the inbound manager

All of `adapter/inbound/manager.go`: `Start`, `Close`, `Remove` and `Create` with
every way they can end. `Close` clears the list of inbounds but not the map, so a
manager that is used after it finds inbounds that are closed, and panics when it
looks them up in the list.
-/

/-- An inbound that the registry has created, told from others by its pointer. -/
structure Singlink.Adapter.Inbound where
  ref : Nat
  type : String
  tag : String
  deriving DecidableEq

namespace Singlink.Inbound

open Adapter Lib List

/-- `Manager`. The next inbound gets the pointer `next`; `closed` are the inbounds
whose `Close` has returned no error. -/
structure Manager where
  started : Bool := false
  stage : StartStage := .stateInitialize
  inbounds : List Inbound := []
  inboundByTag : GoMap String Inbound := ∅
  next : Nat := 0
  closed : List Inbound := []

inductive Error (E : Type) where
  | invalid
  | external (err : E)
  | start (stage : StartStage) (inbound : Inbound) (err : E) (closeErr : Option E)
  | close (existsInbound : Inbound) (err : E) (inbound : Inbound) (closeErr : Option E)
  | closeAll (errs : List (Inbound × E))

variable {E : Type}

namespace Manager

def didClose (m : Manager) (inbound : Inbound) (close : Option E) : Manager :=
  match close with
  | none => { m with closed := inbound :: m.closed }
  | some _ => m

def start (m : Manager) (stage : StartStage) (outcome : Inbound → Option E) : Result (Error E) Manager :=
  if m.started ∧ stage.toNat ≤ m.stage.toNat then .panic "already started"
  else
    let m := { m with started := true, stage := stage }
    .returned ((startEach outcome m.inbounds).map fun (inbound, err) => .start stage inbound err none) m

def close (m : Manager) (outcome : Inbound → Option E) : Result (Error E) Manager :=
  if !m.started then .returned none m
  else
    let errs := closeErrors outcome m.inbounds
    .returned (if errs.isEmpty then none else some (.closeAll errs))
      { m with started := false, inbounds := [], closed := closedOf outcome m.inbounds ++ m.closed }

def remove (m : Manager) (tag : String) (outcome : Option E) : Result (Error E) Manager :=
  match m.inboundByTag.lookup tag with
  | none => .returned (some .invalid) m
  | some inbound =>
    if inbound ∉ m.inbounds then .panic "invalid inbound index"
    else
      let m := { m with inboundByTag := m.inboundByTag.erase tag, inbounds := m.inbounds.erase inbound }
      if m.started then .returned (outcome.map .external) (m.didClose inbound outcome) else .returned none m

/-- The last part of `Create`, which registers the new inbound. -/
def register (m : Manager) (inbound : Inbound) : Result (Error E) Manager :=
  match m.inboundByTag.lookup inbound.tag with
  | none =>
    .returned none
      { m with inbounds := m.inbounds ++ [inbound], inboundByTag := m.inboundByTag.insert inbound.tag inbound }
  | some existsInbound =>
    if existsInbound ∉ m.inbounds then .panic "invalid inbound index"
    else
      .returned none
        { m with
          inbounds := m.inbounds.erase existsInbound ++ [inbound]
          inboundByTag := m.inboundByTag.insert inbound.tag inbound }

def create (m : Manager) (tag inboundType : String) (outcome : CreateOutcome E) : Result (Error E) Manager :=
  match outcome.registry with
  | some err => .returned (some (.external err)) m
  | none =>
    let inbound : Inbound := { ref := m.next, type := inboundType, tag }
    let m := { m with next := m.next + 1 }
    if m.started then
      match startStages outcome.start with
      | some (stage, err) =>
        .returned (some (.start stage inbound err outcome.close)) (m.didClose inbound outcome.close)
      | none =>
        match m.inboundByTag.lookup tag with
        | none => m.register inbound
        | some existsInbound =>
          match outcome.closeExists with
          | some err =>
            .returned (some (.close existsInbound err inbound outcome.close)) (m.didClose inbound outcome.close)
          | none => (m.didClose existsInbound (none : Option E)).register inbound
    else m.register inbound

end Manager

/-! ## Runs -/

inductive Op (E : Type) where
  | start (stage : StartStage) (outcome : Inbound → Option E)
  | close (outcome : Inbound → Option E)
  | remove (tag : String) (outcome : Option E)
  | create (tag inboundType : String) (outcome : CreateOutcome E)

def Manager.call (m : Manager) : Op E → Result (Error E) Manager
  | .start stage outcome => m.start stage outcome
  | .close outcome => m.close outcome
  | .remove tag outcome => m.remove tag outcome
  | .create tag inboundType outcome => m.create tag inboundType outcome

def managerSystem (E : Type) : System Manager (Op E) := .ofPartial (· = {}) fun m op => (m.call op).after?

/-- What a manager should be in: the list and the map hold the same inbounds, and
none of them has been closed. -/
structure Manager.Consistent (m : Manager) : Prop where
  indexed : Indexed Inbound.tag m.inbounds m.inboundByTag
  fresh : ∀ inbound ∈ m.inbounds, inbound.ref < m.next
  freshClosed : ∀ inbound ∈ m.closed, inbound.ref < m.next
  notClosed : ∀ inbound ∈ m.closed, inbound ∉ m.inbounds

/-- `Close` is not called while inbounds are running. -/
def Op.KeepsRunning (m : Manager) : Op E → Prop
  | .close _ => m.started = false ∨ m.inbounds = []
  | _ => True

/-! ## Steps -/

namespace Manager

variable {m : Manager}

def SameEntries (m m' : Manager) : Prop := m'.inbounds = m.inbounds ∧ m'.inboundByTag = m.inboundByTag

theorem sameEntries_didClose (m : Manager) (inbound : Inbound) (close : Option E) :
    m.SameEntries (m.didClose inbound close) := by
  cases close with
  | none | some err => exact ⟨rfl, rfl⟩

theorem Consistent.didClose (h : m.Consistent) {inbound : Inbound} (href : inbound.ref < m.next)
    (hnew : inbound ∉ m.inbounds) (close : Option E) : (m.didClose inbound close).Consistent := by
  cases close with
  | some err => exact h
  | none =>
    refine ⟨h.indexed, h.fresh, ?_, ?_⟩
    · exact forall_mem_cons.2 ⟨href, h.freshClosed⟩
    · exact forall_mem_cons.2 ⟨hnew, h.notClosed⟩

theorem register_ends (hindexed : Indexed Inbound.tag m.inbounds m.inboundByTag) {inbound : Inbound}
    (hnext : inbound.ref < m.next) (hfresh : ∀ other ∈ m.inbounds, other.ref < inbound.ref)
    (hclosed : ∀ other ∈ m.closed, other.ref < inbound.ref)
    (hreplaced : ∀ other ∈ m.closed, other ∈ m.inbounds → other.tag = inbound.tag) :
    (m.register inbound : Result (Error E) Manager).Ends fun err m' =>
      err = none ∧ m'.Consistent ∧ m'.inboundByTag.lookup inbound.tag = some inbound := by
  have hnew : ∀ other ∈ m.closed, other ≠ inbound := by
    rintro other hother rfl
    exact lt_irrefl _ (hclosed other hother)
  have hbelow : ∀ other ∈ m.inbounds, other.ref < m.next := fun other hother => (hfresh other hother).trans hnext
  unfold register
  split
  · rename_i hlookup
    refine ⟨rfl, ⟨hindexed.append hlookup, ?_, fun other hother => (hclosed other hother).trans hnext, ?_⟩, by simp⟩
    · exact forall_mem_append.2 ⟨hbelow, forall_mem_singleton.2 hnext⟩
    · intro other hother hmem
      rcases mem_append.1 hmem with hmem | hmem
      · exact hindexed.key_ne hlookup hmem (hreplaced other hother hmem)
      · exact hnew other hother (mem_singleton.1 hmem)
  · rename_i existsInbound hlookup
    rw [if_neg (not_not_intro (hindexed.mem_of_lookup hlookup))]
    refine ⟨rfl, ⟨hindexed.replace hlookup, ?_, fun other hother => (hclosed other hother).trans hnext, ?_⟩, by simp⟩
    · exact forall_mem_append.2
        ⟨fun other hother => hbelow other (mem_of_mem_erase hother), forall_mem_singleton.2 hnext⟩
    · intro other hother hmem
      rcases mem_append.1 hmem with hmem | hmem
      · obtain ⟨hne, hmem⟩ := (hindexed.nodup.mem_erase_iff).1 hmem
        refine hne (hindexed.eq_of_key hmem (hindexed.mem_of_lookup hlookup) ?_)
        rw [hreplaced other hother hmem, hindexed.key_of_lookup hlookup]
      · exact hnew other hother (mem_singleton.1 hmem)

section

variable (h : m.Consistent)

include h

theorem Consistent.start_ends (stage : StartStage) (outcome : Inbound → Option E) :
    (m.start stage outcome).Ends fun _ m' => m'.Consistent := by
  unfold start
  split
  · rfl
  · exact ⟨h.indexed, h.fresh, h.freshClosed, h.notClosed⟩

/-- `Close` does no harm if there is nothing to close. -/
theorem Consistent.close_ends (outcome : Inbound → Option E) (hrunning : m.started = false ∨ m.inbounds = []) :
    (m.close outcome).Ends fun _ m' => m'.Consistent := by
  unfold close
  split
  · exact h
  · rename_i hstarted
    have hempty : m.inbounds = [] := hrunning.resolve_left (by simpa using hstarted)
    have hindexed := h.indexed
    rw [hempty] at hindexed
    refine ⟨hindexed, nofun, ?_, fun _ _ => not_mem_nil⟩
    rw [hempty]
    exact h.freshClosed

theorem Consistent.remove_ends (tag : String) (outcome : Option E) :
    (m.remove tag outcome).Ends fun _ m' => m'.Consistent := by
  unfold remove
  split
  · exact h
  · rename_i inbound hlookup
    have hmem := h.indexed.mem_of_lookup hlookup
    rw [if_neg (not_not_intro hmem)]
    have herased : Consistent
        { m with inboundByTag := m.inboundByTag.erase tag, inbounds := m.inbounds.erase inbound } :=
      ⟨h.indexed.erase hlookup, fun other hother => h.fresh other (mem_of_mem_erase hother), h.freshClosed,
        fun other hother hmem => h.notClosed other hother (mem_of_mem_erase hmem)⟩
    simp only
    split
    · exact herased.didClose (h.fresh inbound hmem) h.indexed.nodup.not_mem_erase outcome
    · exact herased

theorem Consistent.lookup_remove (tag : String) (outcome : Option E) :
    ∃ err m', m.remove tag outcome = .returned err m' ∧ m'.inboundByTag.lookup tag = none := by
  unfold remove
  split
  · exact ⟨_, _, rfl, by assumption⟩
  · rename_i inbound hlookup
    rw [if_neg (not_not_intro (h.indexed.mem_of_lookup hlookup))]
    simp only
    split
    · refine ⟨_, _, rfl, ?_⟩
      rw [(sameEntries_didClose _ _ _).2]
      simp
    · exact ⟨_, _, rfl, by simp⟩

/-- `Create` registers the new inbound, or returns an error and leaves what is
registered. -/
theorem Consistent.create_ends (tag inboundType : String) (outcome : CreateOutcome E) :
    (m.create tag inboundType outcome).Ends fun err m' => m'.Consistent ∧ (err ≠ none → m.SameEntries m') ∧
      (err = none → m'.inboundByTag.lookup tag = some ⟨m.next, inboundType, tag⟩) := by
  unfold create
  split
  · exact ⟨h, fun _ => ⟨rfl, rfl⟩, nofun⟩
  · -- the new inbound is none of those seen so far
    have hnext : Consistent { m with next := m.next + 1 } :=
      ⟨h.indexed, fun other hother => Nat.lt_succ_of_lt (h.fresh other hother),
        fun other hother => Nat.lt_succ_of_lt (h.freshClosed other hother), h.notClosed⟩
    have hnew : { ref := m.next, type := inboundType, tag } ∉ m.inbounds :=
      fun hmem => lt_irrefl _ (h.fresh _ hmem)
    have hfailed : ∀ err : Error E, Result.Ends
        (.returned (some err) (Manager.didClose { m with next := m.next + 1 } { ref := m.next, type := inboundType, tag }
          outcome.close))
        fun err m' => m'.Consistent ∧ (err ≠ none → m.SameEntries m') ∧
          (err = none → m'.inboundByTag.lookup tag = some ⟨m.next, inboundType, tag⟩) := by
      intro err
      exact ⟨hnext.didClose (Nat.lt_succ_self _) hnew outcome.close, fun _ => sameEntries_didClose _ _ _, nofun⟩
    have hregistered : ∀ {r : Result (Error E) Manager}, (r.Ends fun err m' =>
          err = none ∧ m'.Consistent ∧ m'.inboundByTag.lookup tag = some ⟨m.next, inboundType, tag⟩) →
        r.Ends fun err m' => m'.Consistent ∧ (err ≠ none → m.SameEntries m') ∧
          (err = none → m'.inboundByTag.lookup tag = some ⟨m.next, inboundType, tag⟩) :=
      fun hr => hr.mono fun err m' hm' => ⟨hm'.2.1, fun herr => absurd hm'.1 herr, fun _ => hm'.2.2⟩
    have hregister : Result.Ends (register { m with next := m.next + 1 } { ref := m.next, type := inboundType, tag })
        fun (err : Option (Error E)) m' =>
          err = none ∧ m'.Consistent ∧ m'.inboundByTag.lookup tag = some ⟨m.next, inboundType, tag⟩ :=
      register_ends hnext.indexed (Nat.lt_succ_self _) h.fresh h.freshClosed
        fun other hother hmem => absurd hmem (h.notClosed other hother)
    simp only
    split
    · split
      · exact hfailed _
      · split
        · exact hregistered hregister
        · rename_i existsInbound hlookup
          split
          · exact hfailed _
          · -- the inbound with the tag has been closed when the new one takes its place
            refine hregistered (register_ends ?_ ?_ ?_ ?_ ?_)
            · exact hnext.indexed
            · exact Nat.lt_succ_self m.next
            · exact h.fresh
            · exact forall_mem_cons.2 ⟨h.fresh _ (h.indexed.mem_of_lookup hlookup), h.freshClosed⟩
            · intro other hother hmem
              rcases mem_cons.1 hother with rfl | hother
              · exact h.indexed.key_of_lookup hlookup
              · exact absurd hmem (h.notClosed other hother)
    · exact hregistered hregister

theorem Consistent.call_ends (op : Op E) (hop : op.KeepsRunning m) : (m.call op).Ends fun _ m' => m'.Consistent := by
  cases op with
  | start stage outcome => exact h.start_ends stage outcome
  | close outcome => exact h.close_ends outcome hop
  | remove tag outcome => exact h.remove_ends tag outcome
  | create tag inboundType outcome => exact (h.create_ends tag inboundType outcome).mono fun _ _ hm' => hm'.1

theorem Consistent.not_panic (op : Op E) : (m.call op).Ends fun _ _ => True := by
  cases op with
  | close outcome =>
    show (m.close outcome).Ends _
    unfold close
    split <;> trivial
  | start stage outcome => exact (h.call_ends (.start stage outcome) trivial).mono fun _ _ _ => trivial
  | remove tag outcome => exact (h.call_ends (.remove tag outcome) trivial).mono fun _ _ _ => trivial
  | create tag inboundType outcome =>
    exact (h.call_ends (.create tag inboundType outcome) trivial).mono fun _ _ _ => trivial

end

theorem consistent_new : Consistent {} := ⟨.empty _, nofun, nofun, nofun⟩

end Manager

/-- As long as `Close` is not called while inbounds are running, the list and the
map hold the same inbounds, no call looks up an inbound that is not listed, a
`Create` that fails leaves what is registered, and nothing that is registered has
been closed. -/
theorem inbounds_consistent {m : Manager} (h : Reach (managerSystem E) (fun m op => op.KeepsRunning m) m) :
    Indexed Inbound.tag m.inbounds m.inboundByTag ∧ (∀ op : Op E, m.call op ≠ .panic "invalid inbound index") ∧
      (∀ tag inboundType (outcome : CreateOutcome E) err m',
        m.create tag inboundType outcome = .returned (some err) m' → m.SameEntries m') ∧
      ∀ inbound ∈ m.closed, inbound ∉ m.inbounds := by
  have hm : m.Consistent := by
    refine h.inv Manager.Consistent ?_ ?_
    · rintro _ rfl
      exact Manager.consistent_new
    · intro m op m' hm hop hstep
      obtain ⟨_, hm'⟩ := (hm.call_ends op hop).of_after hstep
      exact hm'
  refine ⟨hm.indexed, fun op hpanic => ?_, fun tag inboundType outcome err m' hcreate => ?_, hm.notClosed⟩
  · -- whether inbounds are running does not matter to a panic
    have hends := hm.not_panic op
    rw [hpanic] at hends
    exact absurd hends.not_panic (by decide)
  · have hends := hm.create_ends tag inboundType outcome
    rw [hcreate] at hends
    exact hends.2.1 nofun

/-- A replacement and a removal in a manager that has been started. -/
def sampleManager : Manager where
  started := true
  inboundByTag := (((∅ : GoMap String Inbound).insert "a" ⟨0, "http", "a"⟩).insert "a" ⟨1, "socks", "a"⟩).erase "a"
  next := 2
  closed := [⟨1, "socks", "a"⟩, ⟨0, "http", "a"⟩]

theorem reach_sampleManager : Reach (managerSystem Unit) (fun m op => op.KeepsRunning m) sampleManager :=
  .leads (.init rfl) [.create "a" "http" {}, .start .stateInitialize fun _ => none, .create "a" "socks" {},
    .remove "a" none] ⟨trivial, _, rfl, trivial, _, rfl, trivial, _, rfl, trivial, _, rfl, rfl⟩

theorem inbounds_consistent_sample : Indexed Inbound.tag sampleManager.inbounds sampleManager.inboundByTag ∧
    (∀ op : Op Unit, sampleManager.call op ≠ .panic "invalid inbound index") ∧
    (∀ tag inboundType (outcome : CreateOutcome Unit) err m',
      sampleManager.create tag inboundType outcome = .returned (some err) m' → sampleManager.SameEntries m') ∧
    ∀ inbound ∈ sampleManager.closed, inbound ∉ sampleManager.inbounds :=
  inbounds_consistent reach_sampleManager

/-- A manager that was closed with an inbound running. -/
def closedManager : Manager where
  inboundByTag := (∅ : GoMap String Inbound).insert "a" ⟨0, "http", "a"⟩
  next := 1
  closed := [⟨0, "http", "a"⟩]

/-- After `Close` the map still has an inbound that has been closed, which is not
in the list, and both `Remove` and `Create` panic on its tag. -/
theorem panic_after_close : Reach (managerSystem Unit) (fun _ _ => True) closedManager ∧
    closedManager.inboundByTag.lookup "a" = some ⟨0, "http", "a"⟩ ∧ ⟨0, "http", "a"⟩ ∈ closedManager.closed ∧
    closedManager.inbounds = [] ∧
    closedManager.call (.remove "a" none : Op Unit) = .panic "invalid inbound index" ∧
    closedManager.call (.create "a" "socks" {} : Op Unit) = .panic "invalid inbound index" := by
  refine ⟨?_, rfl, by decide, rfl, rfl, rfl⟩
  exact .leads (.init rfl) [.create "a" "http" {}, .start .stateInitialize fun _ => none, .close fun _ => none]
    ⟨trivial, _, rfl, trivial, _, rfl, trivial, _, rfl, rfl⟩

/-! ## Inbounds with their options -/

/-- The manager as the nodes of a panel use it: consistent, so that no call panics, with
the options that each inbound was created with, by its pointer. -/
structure OptionManager (O : Type) where
  manager : Manager
  consistent : manager.Consistent
  options : Nat → Option O

namespace OptionManager

variable {O : Type} (errInvalid : E) (m : OptionManager O) (tag type : String) (options : O) (outcome : CreateOutcome E)

/-- The error as the caller is returned it. -/
def errorOf : Error E → E
  | .invalid | .closeAll _ => errInvalid
  | .external err | .start _ _ err _ | .close _ err _ _ => err

def remove : Option E × OptionManager O :=
  match h : m.manager.remove tag outcome.closeExists with
  | .panic _ => (some errInvalid, m)
  | .returned err manager =>
    (err.map (errorOf errInvalid), { m with manager, consistent := (m.consistent.remove_ends _ _).of_returned h })

def create : Option E × OptionManager O :=
  match h : m.manager.create tag type outcome with
  | .panic _ => (some errInvalid, m)
  | .returned err manager =>
    (err.map (errorOf errInvalid),
      { manager, consistent := ((m.consistent.create_ends _ _ _).of_returned h).1
        options := if err.isNone then Function.update m.options m.manager.next options else m.options })

def get : Option (String × O) := do
  let inbound ← m.manager.inboundByTag.lookup tag
  let options ← m.options inbound.ref
  return (inbound.type, options)

theorem get_remove : (m.remove errInvalid tag outcome).2.get tag = none := by
  obtain ⟨err, manager, hremove, hlookup⟩ := m.consistent.lookup_remove tag outcome.closeExists
  unfold remove
  split
  · rename_i h
    cases hremove.symm.trans h
  · rename_i h
    cases hremove.symm.trans h
    simp [get, hlookup]

theorem get_create : ((m.create errInvalid tag type options outcome).1 = none ∧
      (m.create errInvalid tag type options outcome).2.get tag = some (type, options)) ∨
    ((m.create errInvalid tag type options outcome).1 ≠ none ∧
      (m.create errInvalid tag type options outcome).2.get tag = m.get tag) := by
  unfold create
  split
  · exact .inr ⟨nofun, rfl⟩
  · rename_i err manager h
    obtain ⟨-, hsame, hlookup⟩ := (m.consistent.create_ends tag type outcome).of_returned h
    cases err with
    | none => exact .inl ⟨rfl, by simp [get, hlookup rfl]⟩
    | some err => exact .inr ⟨nofun, by simp [get, (hsame nofun).2]⟩

end OptionManager

end Singlink.Inbound
