import Singlink.V2Board.Close
/-!
# What a ready status says

A controller with a ready status runs an inbound that was created from
`current`, and the revision it reports is that of the config `current` was built
from. `sync` breaks this for a moment, between the section that creates the
inbound and the one that updates the status; it holds again when `sync` returns.
-/

namespace Singlink.V2Board

open Lib Prog Controller

/-- What the manager's answers tell: a failed `Create` leaves the entry as it
was, a failed `Remove` leaves it or has already deleted it. -/
structure Host.Lawful (H : Host) : Prop where
  create_ok : ∀ m outcome type options, (H.create m outcome type options).1 = none →
    H.get (H.create m outcome type options).2 = some (type, options)
  create_err : ∀ m outcome type options, (H.create m outcome type options).1 ≠ none →
    H.get (H.create m outcome type options).2 = H.get m
  remove_ok : ∀ m outcome, (H.remove m outcome).1 = none → H.get (H.remove m outcome).2 = none
  remove_err : ∀ m outcome, (H.remove m outcome).1 ≠ none →
    H.get (H.remove m outcome).2 = H.get m ∨ H.get (H.remove m outcome).2 = none

/-- `Remove` says that there is no entry only if there is none. -/
def Host.InvalidGone (H : Host) : Prop :=
  ∀ m outcome err, (H.remove m outcome).1 = some err → err.is .invalid = true → H.get (H.remove m outcome).2 = none

theorem lawful_withManager (H : Host) (tag : String) : (H.withManager tag).Lawful where
  create_ok m outcome type options h := by
    rcases m.get_create errInvalid tag type options outcome with ⟨-, hget⟩ | ⟨herr, -⟩
    · exact hget
    · exact absurd h herr
  create_err m outcome type options h := by
    rcases m.get_create errInvalid tag type options outcome with ⟨hok, -⟩ | ⟨-, hsame⟩
    · exact absurd hok h
    · exact hsame
  remove_ok m outcome _ := removeDeletes_withManager H tag m outcome
  remove_err m outcome _ := .inr (removeDeletes_withManager H tag m outcome)

variable {H : Host} (o : NodeOptions)

/-- The revision of a config, as a status names it. -/
def NodeInfo.revision {S : Type} (node : NodeInfo S) : String := GoStrings.trimSpace node.common.configRevision

/-- `current` is registered, and was built from `node`. -/
structure Controller.Runs (c : Controller H) (node : NodeInfo H.Settings) : Prop where
  get : H.get c.manager = some (c.current.type, c.current.options)
  source : c.currentNode = some node
  built : ∃ brutal users, buildInbound H brutal o node users = .ok c.current

/-- A ready status tells the truth. -/
def Controller.Truthful (c : Controller H) : Prop :=
  c.statusReady = true → ∃ node, c.Runs o node ∧ c.appliedRevision = node.revision

/-! ## Actions that keep it -/

variable {c c' : Controller H} {P : Controller H → Prop} {node : NodeInfo H.Settings}

theorem Controller.Truthful.congr (h : c.Truthful o) (hready : c'.statusReady = c.statusReady)
    (hrevision : c'.appliedRevision = c.appliedRevision) (hmanager : H.get c'.manager = H.get c.manager)
    (hcurrent : c'.current = c.current) (hnode : c'.currentNode = c.currentNode) : c'.Truthful o := by
  intro hr
  obtain ⟨node, hruns, happlied⟩ := h (hready.symm.trans hr)
  refine ⟨node, ⟨?_, hnode.trans hruns.source, ?_⟩, hrevision.trans happlied⟩
  · rw [hmanager, hcurrent]
    exact hruns.get
  · rw [hcurrent]
    exact hruns.built

theorem Controller.Truthful.of_view (h : c.Truthful o) (hview : c'.view = c.view) : c'.Truthful o := by
  simp only [view, Prod.mk.injEq] at hview
  obtain ⟨hready, hrevision, hmanager, hcurrent, hnode⟩ := hview
  exact h.congr o hready hrevision (congrArg _ hmanager) hcurrent hnode

theorem truthful_aside {f : Controller H → Controller H} (h : Aside f) (c : Controller H) (hc : c.Truthful o) :
    (f c).Truthful o :=
  hc.of_view o (h c).1

theorem truthful_updateAppliedStatus (c : Controller H) : (c.updateAppliedStatus false).Truthful o := by
  intro hr
  simp [updateAppliedStatus] at hr

/-! ## Reports -/

/-- What does not depend on the reports sent outlives a report. -/
theorem triple_reportStatusBestEffort (hP : ∀ c reports, P c → P { c with reports := reports }) :
    Stays P reportStatusBestEffort := by
  refine .bind (.read _) fun statusRunning => ?_
  split
  · exact .pure _
  · refine .modify fun c hc => ?_
    split
    · exact hc
    · exact hP c _ hc

theorem triple_reportStatusIf (hP : ∀ c reports, P c → P { c with reports := reports })
    (due : Bool) : Stays P (reportStatusIf due) := by
  unfold reportStatusIf
  split
  · exact triple_reportStatusBestEffort hP
  · exact .pure _

/-- The status is lowered unless an inbound is running. -/
theorem triple_reportUnavailableStatusBestEffort {Q : Controller H → Prop}
    (hQ : ∀ c reports, Q c → Q { c with reports := reports })
    (hkeep : ∀ c, P c → c.closed = true ∨ c.inboundReady = true ∧ c.current.type ≠ "" → Q c)
    (hlower : ∀ c, P c → Q ({ c with inboundReady := false }.updateAppliedStatus false)) :
    Triple P reportUnavailableStatusBestEffort fun _ => Q := by
  refine .bind (.atomic fun c hc => ?_) fun unavailable => triple_reportStatusIf hQ unavailable
  by_cases h : (c.closed || c.inboundReady && c.current.type != "") = true
  · rw [if_pos h]
    exact hkeep c hc (by simpa using h)
  · rw [if_neg h]
    exact hlower c hc

/-! ## The inbound -/

/-- What the section of `applyInbound` can do. -/
inductive Controller.Apply (c : Controller H) (inbound : Inbound H.Options) :
    (Option SyncError × Bool) × Controller H → Prop
  | canceled : c.closed = true → c.Apply inbound ((some (.err errCanceled), false), c)
  /-- the new inbound is in place -/
  | applied {m : H.Manager} : c.closed = false → H.get m = some (inbound.type, inbound.options) →
      c.Apply inbound ((none, false), { c with manager := m, current := inbound, currentNode := c.node })
  /-- the entry is the one before or that of `current`, put back -/
  | kept {m : H.Manager} {err : SyncError} : c.inboundReady = true → c.current.type ≠ "" →
      H.get m = H.get c.manager ∨ H.get m = some (c.current.type, c.current.options) →
      c.Apply inbound ((some err, false), { c with manager := m })
  /-- there was no inbound to keep -/
  | failed {m : H.Manager} {err : SyncError} : H.get m = H.get c.manager →
      c.Apply inbound ((some err, true), { c with manager := m, inboundReady := false }.updateAppliedStatus false)
  /-- it could not be put back -/
  | lost {m : H.Manager} {err : SyncError} : c.Apply inbound ((some err, true), { c with manager := m }.lose)

theorem Controller.Apply.of_manager {inbound : Inbound H.Options} {m : H.Manager}
    {r : (Option SyncError × Bool) × Controller H} (h : { c with manager := m }.Apply inbound r)
    (hopen : c.closed = false) (hm : H.get m = H.get c.manager) : c.Apply inbound r := by
  cases h with
  | canceled hclosed => exact absurd (hopen.symm.trans hclosed) (by decide)
  | applied _ hget => exact .applied hopen hget
  | kept hready htype hget => exact .kept hready htype (hget.imp_left (·.trans hm))
  | failed hget => exact .failed (hget.trans hm)
  | lost => exact .lost

theorem removeError_some {err : Option GoError} {e : GoError} (h : removeError err = some e) : err ≠ none := by
  rintro rfl
  cases h

theorem restoreCurrentInbound_cases (hH : H.Lawful) (c : Controller H) (htype : c.current.type ≠ "") (m : H.Manager)
    (outcome : H.Outcome) :
    (∃ err m', { c with manager := m }.restoreCurrentInbound outcome = (some err, { c with manager := m' })) ∨
      ∃ m', { c with manager := m }.restoreCurrentInbound outcome = (none, { c with manager := m' }) ∧
        H.get m' = some (c.current.type, c.current.options) := by
  have hok := hH.create_ok m outcome c.current.type c.current.options
  rcases hcreate : H.create m outcome c.current.type c.current.options with ⟨_ | err, m'⟩
  · rw [hcreate] at hok
    refine .inr ⟨m', ?_, hok rfl⟩
    simp only [restoreCurrentInbound, if_neg htype, create, hcreate]
  · refine .inl ⟨err, m', ?_⟩
    simp only [restoreCurrentInbound, if_neg htype, create, hcreate]

theorem replaceInbound_cases (hH : H.Lawful) (c : Controller H) (env : SyncEnv H) (inbound : Inbound H.Options)
    (err : GoError) (hopen : c.closed = false) (hready : c.inboundReady = true) (htype : c.current.type ≠ "") :
    c.Apply inbound (c.replaceInbound env inbound err) := by
  unfold replaceInbound remove
  simp only
  split
  · rename_i removeErr hremove
    split
    · -- the removal failed and the entry is still there
      rename_i hloaded
      refine .kept hready htype (.inl ?_)
      refine (hH.remove_err _ _ (removeError_some hremove)).resolve_right fun hnone => ?_
      simp [loaded, hnone] at hloaded
    · rcases restoreCurrentInbound_cases hH c htype (H.remove c.manager env.remove).2 env.restore with
        ⟨restoreErr, m', heq⟩ | ⟨m', heq, hget⟩
      · rw [heq]
        exact .lost
      · rw [heq]
        exact .kept hready htype (.inr hget)
  · rcases hcreate : H.create (H.remove c.manager env.remove).2 env.replace inbound.type inbound.options with ⟨_ | replaceErr, m⟩
    · simp only [create, hcreate]
      have hget := hH.create_ok (H.remove c.manager env.remove).2 env.replace inbound.type inbound.options
      rw [hcreate] at hget
      exact .applied hopen (hget rfl)
    · simp only [create, hcreate]
      rcases restoreCurrentInbound_cases hH c htype m env.restore with ⟨restoreErr, m', heq⟩ | ⟨m', heq, hget⟩
      · rw [heq]
        exact .lost
      · rw [heq]
        exact .kept hready htype (.inr hget)

theorem applySection_cases (hH : H.Lawful) (c : Controller H) (env : SyncEnv H) (inbound : Inbound H.Options) :
    c.Apply inbound (c.applySection env inbound) := by
  unfold applySection
  cases hclosed : c.closed with
  | true => exact .canceled hclosed
  | false =>
    simp only [Bool.false_eq_true, if_false]
    have hok := hH.create_ok c.manager env.create inbound.type inbound.options
    have herr := hH.create_err c.manager env.create inbound.type inbound.options
    rcases hcreate : H.create c.manager env.create inbound.type inbound.options with ⟨_ | err, m⟩
    · rw [hcreate] at hok
      simp only [create, hcreate]
      exact .applied hclosed (hok rfl)
    · rw [hcreate] at herr
      simp only [create, hcreate]
      split
      · exact .failed (herr (by simp))
      · rename_i hcurrent
        obtain ⟨hready, htype⟩ := not_or.1 hcurrent
        have hready : c.inboundReady = true := by simpa using hready
        split
        · exact .kept hready htype (.inl (herr (by simp)))
        · exact (replaceInbound_cases hH { c with manager := m } env inbound err hclosed hready htype).of_manager
            hclosed (herr (by simp))

/-- What the section of `clearInbound` can do. -/
inductive Controller.Clear (c : Controller H) (env : SyncEnv H) (rules : NodeRules H.Regexp H.Pfx) :
    (Option SyncError × Bool) × Controller H → Prop
  | canceled : c.closed = true → c.Clear env rules ((some (.err errCanceled), false), c)
  /-- the entry could not be removed -/
  | kept {m : H.Manager} {err : SyncError} : c.closed = false → H.get m = H.get c.manager → (H.get m).isSome →
      c.Clear env rules ((some err, false), { c with manager := m })
  /-- there is no entry any more -/
  | cleared {m : H.Manager} {err : Option SyncError} {ready : Bool} : c.closed = false →
      (ready = true ↔ err = none) → (H.InvalidGone → H.get m = none) →
      c.Clear env rules ((err, true),
        { { c with manager := m, current := {}, currentNode := none }.updateNode o env c.current.type [] rules with
          inboundReady := ready }.updateAppliedStatus false)

theorem clearSection_cases (hH : H.Lawful) (c : Controller H) (env : SyncEnv H) (rules : NodeRules H.Regexp H.Pfx) :
    c.Clear o env rules (c.clearSection o env rules) := by
  unfold clearSection
  cases hclosed : c.closed with
  | true => exact .canceled hclosed
  | false =>
    have hremoveOk := hH.remove_ok c.manager env.remove
    have hremoveErr := hH.remove_err c.manager env.remove
    have hgone : H.InvalidGone → ∀ err, (H.remove c.manager env.remove).1 = some err → err.is .invalid = true →
        H.get (H.remove c.manager env.remove).2 = none := fun hinvalid => hinvalid c.manager env.remove
    rcases hremove : H.remove c.manager env.remove with ⟨removed, m⟩
    rw [hremove] at hremoveOk hremoveErr hgone
    simp only [Bool.false_eq_true, if_false, remove, hremove]
    cases herr : removeError removed with
    | none =>
      refine .cleared hclosed (by simp) fun hinvalid => ?_
      cases removed with
      | none => exact hremoveOk rfl
      | some err => exact hgone hinvalid err rfl (by simpa [removeError] using herr)
    | some err =>
      simp only
      by_cases hloaded : ({ c with manager := m } : Controller H).loaded = true
      · rw [if_pos hloaded]
        refine .kept hclosed ?_ hloaded
        refine (hremoveErr (removeError_some herr)).resolve_right fun hnone => ?_
        simp [loaded, hnone] at hloaded
      · rw [if_neg hloaded]
        exact .cleared hclosed (by simp) fun _ => by simpa [loaded] using hloaded

/-! ## The programs -/

theorem Controller.Runs.congr (h : c.Runs o node)
    (hmanager : H.get c'.manager = some (c.current.type, c.current.options)) (hcurrent : c'.current = c.current)
    (hnode : c'.currentNode = c.currentNode) : c'.Runs o node where
  get := by rw [hmanager, hcurrent]
  source := hnode.trans h.source
  built := by rw [hcurrent]; exact h.built

/-- After `applyInbound` the new inbound runs, and the status is still the old
one; or the status is truthful. -/
theorem triple_applyInbound (hH : H.Lawful) (env : SyncEnv H) (node : NodeInfo H.Settings) (inbound : Inbound H.Options)
    {users : List UserInfo} (hbuilt : buildInbound H env.brutal o node users = .ok inbound) :
    Triple (fun c => c.node = some node ∧ c.Truthful o) (applyInbound env inbound)
      fun err c => if err = none then c.closed = false ∧ c.node = some node ∧ c.Runs o node else c.Truthful o := by
  refine .bind (Q := fun r c => if r.1 = none then c.closed = false ∧ c.node = some node ∧ c.Runs o node else c.Truthful o)
    (.atomic ?_) fun r => ?_
  · rintro c ⟨hnode, hc⟩
    have hcases := applySection_cases hH c env inbound
    generalize c.applySection env inbound = r at hcases
    cases hcases with
    | canceled _ => exact hc
    | applied hopen hget => exact ⟨hopen, hnode, hget, hnode, _, _, hbuilt⟩
    | kept _ _ hget =>
      intro hr
      obtain ⟨n, hruns, happlied⟩ := hc hr
      exact ⟨n, hruns.congr o (hget.elim (·.trans hruns.get) id) rfl rfl, happlied⟩
    | failed _ | lost => exact truthful_updateAppliedStatus o _
  · refine .bind (triple_reportStatusIf ?_ r.2) fun _ => .pure fun c hc => hc
    intro c reports hc
    split
    · rename_i h
      rw [if_pos h] at hc
      exact ⟨hc.1, hc.2.1, hc.2.2.congr o hc.2.2.get rfl rfl⟩
    · rename_i h
      rw [if_neg h] at hc
      exact hc.of_view o rfl

/-- A section that ends without an inbound leaves no ready status. -/
theorem triple_clearInbound (hH : H.Lawful) (env : SyncEnv H) (rules : NodeRules H.Regexp H.Pfx) :
    Stays (Controller.Truthful o) (clearInbound o env rules) := by
  refine .bind (.atomic fun c hc => ?_) fun r => ?_
  · have hcases := clearSection_cases o hH c env rules
    generalize c.clearSection o env rules = r at hcases
    cases hcases with
    | canceled _ => exact hc
    | kept _ hget _ => exact hc.congr o rfl rfl hget rfl rfl
    | cleared _ _ _ => exact truthful_updateAppliedStatus o _
  · refine .bind (triple_reportStatusIf ?_ r.2) fun _ => .pure _
    exact fun c reports hc => hc.of_view o rfl

theorem updateAppliedStatus_revision (hnode : c.node = some node)
    {ready : Bool} (h : (c.updateAppliedStatus ready).statusReady = true) :
    (c.updateAppliedStatus ready).appliedRevision = node.revision := by
  simp only [updateAppliedStatus] at h ⊢
  rw [if_pos h, hnode]
  rw [hnode] at h
  unfold shadowsocksStatusRevision at h ⊢
  simp only at h ⊢
  split at h
  · cases h
  · rename_i htype
    rw [if_neg htype]
    rfl

theorem truthful_commitSection (hopen : c.closed = false)
    (hnode : c.node = some node) (hruns : c.Runs o node) (env : SyncEnv H) (inbound : Inbound H.Options)
    (rules : NodeRules H.Regexp H.Pfx) : (c.commitSection o env inbound rules).2.Truthful o := by
  unfold commitSection
  rw [hopen]
  intro hr
  refine ⟨node, hruns.congr o hruns.get rfl rfl, ?_⟩
  exact updateAppliedStatus_revision
    hnode hr

theorem triple_rebuildInbound (hH : H.Lawful) (env : SyncEnv H) (node : NodeInfo H.Settings) :
    Triple (fun c => c.node = some node ∧ c.Truthful o) (rebuildInbound o env node) fun _ c => c.Truthful o := by
  have hreport : ∀ (c : Controller H) reports, c.Truthful o → { c with reports := reports }.Truthful o :=
    fun c reports hc => hc.of_view o rfl
  have hunavailable : Triple (fun c : Controller H => c.node = some node ∧ c.Truthful o)
      reportUnavailableStatusBestEffort fun _ c => c.Truthful o :=
    triple_reportUnavailableStatusBestEffort hreport (fun c hc _ => hc.2) fun c _ => truthful_updateAppliedStatus o _
  unfold rebuildInbound
  split
  · exact .bind hunavailable fun _ => .pure fun c hc => hc
  · rename_i rules _
    refine .bind (Q := fun _ c => c.node = some node ∧ c.Truthful o) (.read fun c hc => hc) fun activeUsers => ?_
    split
    · exact (triple_clearInbound o hH env rules).conseq (fun c hc => hc.2) fun _ c hc => hc
    · split
      · exact .bind hunavailable fun _ => .pure fun c hc => hc
      · rename_i inbound hbuilt
        refine .bind (triple_applyInbound o hH env node inbound hbuilt) fun applied => ?_
        cases applied with
        | some err => exact .pure fun c hc => hc
        | none =>
          refine .bind (Q := fun _ c => c.Truthful o) (.atomic ?_) fun committed => ?_
          · rintro c ⟨hopen, hnode, hruns⟩
            exact truthful_commitSection o hopen hnode hruns env inbound rules
          · split
            · exact .pure fun c hc => hc
            · exact .bind (triple_reportStatusBestEffort hreport) fun _ => .pure fun c hc => hc

theorem truthful_reportUnavailableStatusBestEffort :
    reportUnavailableStatusBestEffort.Each fun f => ∀ c : Controller H, c.Truthful o → (f c).Truthful o := by
  refine .bind (.atomic fun c hc => ?_) fun unavailable => each_reportStatusIf (truthful_aside o) unavailable
  dsimp only
  split
  · exact hc
  · exact truthful_updateAppliedStatus o _

theorem triple_syncBuild (hH : H.Lawful) (env : SyncEnv H) (nodeChanged usersChanged newUsers : Bool) :
    Stays (Controller.Truthful o) (syncBuild o env nodeChanged usersChanged newUsers) := by
  refine Triple.bind (Q := fun c c' => c = c' ∧ c'.Truthful o) (.read fun c hc => ⟨rfl, hc⟩) fun c => ?_
  split
  · split
    · exact (triple_clearInbound o hH env {}).conseq (fun c' hc => hc.2) fun _ c' hc => hc
    · exact .pure fun c' hc => hc.2
  · rename_i node hnode
    split
    · exact .pure fun c' hc => hc.2
    · refine .bind (Q := fun _ c' => c'.node = some node ∧ c'.Truthful o) (.modify ?_) fun _ => ?_
      · rintro c' ⟨rfl, hc⟩
        exact ⟨hnode, hc.of_view o rfl⟩
      · refine .bind (triple_rebuildInbound o hH env node) fun rebuilt => ?_
        split
        · exact .pure fun c' hc => hc
        · refine .bind (.modify fun c' hc => ?_) fun _ => .pure fun c' hc => hc
          exact hc.of_view o rfl

theorem triple_syncRest (hH : H.Lawful) (env : SyncEnv H) (nodeChanged : Bool) (users : Option (List UserInfo)) :
    Stays (Controller.Truthful o) (syncRest o env nodeChanged users) := by
  refine .bind (each_syncUsers (truthful_aside o) env (truthful_reportUnavailableStatusBestEffort o) users).stays fun users => ?_
  split
  · exact .pure _
  · refine .bind (.atomic fun c hc => hc.of_view o rfl) fun _ => ?_
    refine .bind (each_syncAlive o (truthful_aside o) env).stays fun alive => ?_
    split
    · exact .pure _
    · exact triple_syncBuild o hH env _ _ _

theorem triple_sync (hH : H.Lawful) (env : SyncEnv H) : Stays (Controller.Truthful o) (sync o env) := by
  refine .bind (each_syncNode o (truthful_aside o) env).stays fun node => ?_
  split
  · exact .pure _
  · exact triple_syncRest o hH env _ _

theorem triple_close (outcome : H.Outcome) : Stays (Controller.Truthful (H := H) o) (close outcome) := by
  refine .bind (.atomic fun c hc => ?_) fun result => ?_
  · unfold closeSection
    split
    · exact hc
    · -- the status is lowered before the inbound goes
      intro hr
      simp [remove, updateAppliedStatus] at hr
  · refine .bind (.modify fun c hc => ?_) fun _ => .pure _
    split
    · exact hc.of_view o rfl
    · exact hc

/-! ## Every run -/

inductive Operation (H : Host) where
  | sync (env : SyncEnv H)
  | push (env : PushEnv)
  | close (outcome : H.Outcome)

def Controller.operate (c : Controller H) : Operation H → Controller H
  | .sync env => ((Singlink.V2Board.sync o env).run c).2
  | .push env => ((Singlink.V2Board.push o env).run c).2
  | .close outcome => ((Singlink.V2Board.close outcome).run c).2

/-- The controllers that begin without a ready status, and their operations. -/
def operations (H : Host) (o : NodeOptions) : System (Controller H) (Operation H) :=
  .ofStep (fun c => c.statusReady = false) (Controller.operate o)

/-- After any run, however the panel and the manager answered: if the status is
ready, the inbound that is registered was created from `current`, and the
revision of the status is that of the config `current` was built from. -/
theorem ready_status_names_running (H : Host) (hH : H.Lawful) (o : NodeOptions) (c : Controller H)
    (hc : Reach (operations H o) (fun _ _ => True) c) (hready : c.statusReady = true) :
    H.get c.manager = some (c.current.type, c.current.options) ∧
      ∃ node, c.currentNode = some node ∧ (∃ brutal users, buildInbound H brutal o node users = .ok c.current) ∧
        c.appliedRevision = GoStrings.trimSpace node.common.configRevision := by
  have htruthful : c.Truthful o := by
    refine Reach.inv (fun c => c.Truthful o) ?_ ?_ hc
    · intro c hnot hready
      rw [hnot] at hready
      cases hready
    · rintro c op _ hc - rfl
      cases op with
      | sync env => exact triple_sync o hH env c hc
      | push env => exact (each_push o (truthful_aside o) env).stays c hc
      | close outcome => exact triple_close o outcome c hc
  obtain ⟨node, hruns, happlied⟩ := htruthful hready
  exact ⟨hruns.get, node, hruns.source, hruns.built, happlied⟩

/-- A sync that finds a config with the given revision. -/
def sampleRevision (revision : String) : SyncEnv (sampleHost.withManager "node") :=
  { sampleSync with
    answers := { sampleSync.answers with
      config := .ok { protocol := "shadowsocks", configRevision := revision, serverPort := 443, settings := () } "" } }

def sampleConflict : (sampleHost.withManager "node").Outcome :=
  ({ registry := some { message := "bind: address already in use" } } : Adapter.CreateOutcome GoError)

/-- The second config cannot be put in place of the first, which is restored. -/
def sampleOperations : List (Operation (sampleHost.withManager "node")) :=
  [.sync (sampleRevision " 1 "), .sync { sampleRevision "2" with create := sampleConflict, replace := sampleConflict }]

theorem ready_status_names_running_sample :
    (sampleOperations.foldl (Controller.operate sampleOptions) sampleOpen).statusReady = true ∧
      ∃ node : NodeInfo Unit,
        (sampleOperations.foldl (Controller.operate sampleOptions) sampleOpen).currentNode = some node ∧
        (sampleOperations.foldl (Controller.operate sampleOptions) sampleOpen).appliedRevision =
          GoStrings.trimSpace node.common.configRevision ∧
        (sampleOperations.foldl (Controller.operate sampleOptions) sampleOpen).appliedRevision = "1" := by
  have hstart : Reach (operations (sampleHost.withManager "node") sampleOptions) (fun _ _ => True) sampleOpen :=
    .init rfl
  have hrun := hstart.foldl sampleOperations ⟨trivial, trivial, trivial⟩
  have hready : (sampleOperations.foldl (operate sampleOptions) sampleOpen).statusReady = true := by decide
  obtain ⟨-, node, hnode, -, hrevision⟩ := ready_status_names_running _ (lawful_withManager sampleHost "node")
    sampleOptions _ hrun hready
  exact ⟨hready, node, hnode, hrevision, by decide⟩

end Singlink.V2Board
